import DesignRecipe.Proofs.Decimal.Double
import DesignRecipe.Proofs.Outline.Locality
import DesignRecipe.Proofs.Text.Lines
import DesignRecipe.Python.Stub

/-!
# Levels of a body outline

The level of a comment is the whole number nearest to its offset by the indentation width, although
the two are divided as doubles (`Body.isNearest_level`). Both become the nearest doubles, and so
does their quotient, so there are up to three errors before the last rounding. As long as the offset
has 52 digits at most, none of them brings the quotient to the other side of a midpoint, or onto
one.

The outline of a recipe has one entry for each comment of its segment, in their order
(`outline_recipeOf`), so this is said of every comment of an outline (`Records`), and of where the
stub repeats it (`Python.stub_of_read`).
-/

namespace DesignRecipe.Outline

namespace Body

open Decimal (IsNearest Holds RoundsTo)
open Float.Model.UnpackedFloat (accuracyOfFraction)

/-! ### One comment -/

/-- The remainder by the divisor says how a quotient is rounded. -/
theorem roundedQuotient_eq (n : ℕ) {d : ℕ} (hd : 0 < d) : roundedQuotient n d =
    (accuracyOfFraction (n % d) d).roundToNearestEven (n / d) := by
  rw [roundedQuotient, accuracyOfFraction]
  by_cases hzero : n % d = 0
  · have hless : compare (2 * (n % d)) d = .lt := by
      rw [hzero]
      exact Nat.compare_eq_lt.mpr hd
    rw [if_pos hzero, hless]
    rfl
  · rw [if_neg hzero]
    cases compare (2 * (n % d)) d with
    | lt => rfl
    | gt => rfl
    | eq =>
      show (if n / d % 2 = 0 then n / d else n / d + 1) = n / d + n / d % 2
      split <;> omega

/-- The quotient of whole numbers is rounded as it should be. -/
theorem isNearest_roundedQuotient (n : ℕ) {d : ℕ} (hd : 0 < d) :
    IsNearest ((n : ℚ) / d) (roundedQuotient n d) := by
  rw [roundedQuotient_eq n hd]
  exact (Decimal.leaves_div n hd).isNearest

/-- **A double that holds a number** is rounded to the whole one nearest to it. -/
theorem isNearest_nearestWhole {a : Float} {m : ℕ} {e : ℤ} (h : Holds a m e) :
    IsNearest (m * 2 ^ e) (nearestWhole a) := by
  obtain ⟨hsignificand, hexponent⟩ := h.magnitude
  have hvalue : ((m * 2 ^ e.toNat : ℕ) : ℚ) / (2 ^ (-e).toNat : ℕ) = m * 2 ^ e := by
    obtain ⟨k, rfl | rfl⟩ := e.eq_nat_or_neg
    · simp
    · simp [div_eq_mul_inv]
  have hnearest := isNearest_roundedQuotient (m * 2 ^ e.toNat) (d := 2 ^ (-e).toNat) (by positivity)
  rw [hvalue] at hnearest
  rw [nearestWhole]
  simp only [hsignificand, hexponent]
  exact hnearest

/-- Columns beyond the largest machine word count as that, which is more than 53 digits. -/
theorem toNat_ofNatClamp (n : ℕ) : (UInt64.ofNatClamp n).toNat = n ∨
    2 ^ 53 ≤ (UInt64.ofNatClamp n).toNat ∧ (UInt64.ofNatClamp n).toNat ≤ n := by
  rcases Nat.lt_or_ge n UInt64.size with hlt | hge
  · exact .inl (UInt64.toNat_ofNatClamp_of_lt hlt)
  · rw [UInt64.toNat_ofNatClamp_of_le hge]
    exact .inr ⟨by decide, Nat.sub_le_of_le_add (Nat.le_succ_of_le hge)⟩

/-- **A number of columns becomes the nearest double**, or the one nearest to the largest machine
word. -/
theorem exists_holds_columns {n : ℕ} (hn : 0 < n) : ∃ (c m : ℕ) (e : ℤ), Holds (columns n) m e ∧
    -52 ≤ e ∧ e ≤ 12 ∧ RoundsTo c (m * 2 ^ e) ∧ (c = n ∨ 2 ^ 53 ≤ c ∧ c ≤ n) := by
  have hclamp := toNat_ofNatClamp n
  obtain ⟨m, e, hholds, he, he', hrounds⟩ :=
    Decimal.exists_holds_toFloat (w := UInt64.ofNatClamp n) (by omega)
  exact ⟨_, m, e, hholds, he, he', hrounds, hclamp⟩

/-- A comment without an offset is on the lowest level. -/
theorem level_zero (width : ℕ) : level width 0 = 0 := by
  obtain ⟨-, n, f, hwidth, -⟩ := exists_holds_columns (n := max width 1) (by omega)
  obtain ⟨hpos, hunpack⟩ := hwidth.unpack_eq
  have hzero : (columns 0).toModel.unpack = .zero .positive := rfl
  have hquotient : (columns 0 / columns (max width 1)).toModel =
      Float.Model.pack (.zero .positive) := by
    rw [Decimal.toModel_div, hzero, hunpack]
    rfl
  have hbits : (columns 0 / columns (max width 1)).toBits = 0 := by
    rw [Float.toBits, hquotient]
    rfl
  rw [level, nearestWhole, hbits]
  decide +kernel

/-- **The level of a comment is nearest** to its offset by the width. -/
theorem isNearest_level (width : ℕ) {offset : ℕ} (h : offset < 2 ^ 52) :
    IsNearest ((offset : ℚ) / (max width 1 : ℕ)) (level width offset) := by
  rcases Nat.eq_zero_or_pos offset with rfl | hpos
  · rw [level_zero, Nat.cast_zero, zero_div]
    exact Decimal.isNearest_natCast 0
  have hwidth : 0 < max width 1 := by omega
  obtain ⟨c, m, e, ha, he, he', hm, hc⟩ := exists_holds_columns hpos
  obtain ⟨d, n, f, hb, hf, hf', hn, hd⟩ := exists_holds_columns hwidth
  obtain ⟨q, g, hq, hquotient⟩ := Decimal.exists_holds_div ha hb (by omega) (by omega)
  -- The offset has so few digits that it is held as it is.
  obtain rfl : c = offset := by omega
  rw [hm.eq_natCast (by omega)] at hquotient
  exact (isNearest_nearestWhole hq).of_roundsTo_divisor h hwidth hd hn hquotient

/-- The marker of a comment stands behind the blanks in front of it. -/
theorem length_takeWhile_ne {line : Text} (h : (Text.trim line).head? = some '#') :
    ((Text.dropLineEnd line).takeWhile (· != '#')).length = Text.leadingBlanks line := by
  obtain ⟨before, after, hbefore, -, hkept⟩ := Text.exists_trim (Text.dropLineEnd line)
  obtain ⟨dropped, hline⟩ := Text.isPrefix_dropEndWhile (fun c => c == '\r' || c == '\n') line
  rw [← Text.dropLineEnd] at hline
  obtain ⟨rest, hrest⟩ := List.head?_eq_some_iff.mp h
  rw [Text.trim_dropLineEnd, hrest, List.append_assoc] at hkept
  have hnotMem : '#' ∉ before := fun hmem => absurd (hbefore _ hmem) (by decide)
  have hmarker : (Text.dropLineEnd line).takeWhile (· != '#') = before := by
    rw [hkept]
    exact (Text.takeWhile_ne_append hnotMem (by simp)).1
  have hblanks : line.takeWhile Text.isBlank = before := by
    have hhash : Text.isBlank '#' = false := by decide
    rw [← hline, hkept, List.append_assoc, List.takeWhile_append_of_pos hbefore]
    simp [hhash]
  rw [hmarker, Text.leadingBlanks, hblanks]

end Body

/-! ### The comments of a segment -/

/-- The number of blanks in front of a line. -/
def Placed.offset (p : Placed) : ℕ := Text.leadingBlanks p.line

variable {options : Options} {lines : List Text} {segment : List Placed} {p p' : Placed}
  {r r' : Recipe} {e e' : OutlineEntry}

/-- **Every line adds its entry**, if it is a comment of the body. -/
theorem Placed.outline_of_read (hp : p.opens = false) (hr : p.read options (some r) = some r') :
    r'.outline = r.outline ++ if p.isEntry then [p.entry options] else [] := by
  rcases Placed.cases_of_read hp hr with ⟨hregion, rfl⟩ | ⟨-, hentry, rfl⟩ | ⟨-, hentry, rfl⟩
  · rw [(Session.continues_readSection options _ _ r).outline]
    simp [isEntry, hregion]
  · simp [hentry]
  · simp [hentry]

/-- **The outline of a recipe is that of its segment**: the entries of its comments, in order. -/
theorem outline_recipeOf (h : segment ∈ segments (place lines))
    (hr : recipeOf options segment = some r) :
    r.outline = (segment.filter Placed.isEntry).map (Placed.entry options) := by
  refine recipeOf_induction (P := fun segment r =>
    r.outline = (segment.filter Placed.isEntry).map (Placed.entry options))
    (fun p r hp hr => ?_) (fun segment p r r' hp ih hr => ?_) h hr
  · have hstate : p.state = ⟨.recipe, .contract⟩ := of_decide_eq_true hp
    obtain ⟨c, rfl⟩ := Placed.exists_contract hp hr
    simp [Session.record, Contract.recipe, Recipe.ofContract, Placed.isEntry, hstate]
  · rw [Placed.outline_of_read hp hr, ih, List.filter_append, List.map_append,
      List.filter_singleton]
    cases p.isEntry <;> rfl

/-- **An entry records a comment**: its text, and the level that is nearest to the offset of the
comment by the indentation width. -/
structure Records (width : ℕ) (p : Placed) (e : OutlineEntry) : Prop where
  text : e.text = Text.trim p.line
  marker : e.text.head? = some '#'
  nearest : p.offset < 2 ^ 52 → Decimal.IsNearest ((p.offset : ℚ) / (max width 1 : ℕ)) e.level

namespace Records

variable {width : ℕ}

/-- **The entry of a comment records it.** -/
theorem of_isEntry (options : Options) (hp : p.isEntry = true) :
    Records options.indentWidth p (p.entry options) := by
  obtain ⟨-, hmarker⟩ := of_decide_eq_true hp
  refine ⟨Text.trim_dropLineEnd p.line, ?_, fun hoffset => ?_⟩
  · rw [Placed.entry, Body.entry, Text.trim_dropLineEnd]
    exact hmarker
  · rw [Placed.entry, Body.entry, Body.length_takeWhile_ne hmarker]
    exact Body.isNearest_level _ hoffset

/-- A comment that is further to the right is on no lower level. -/
theorem level_le (h : Records width p e) (h' : Records width p' e')
    (hle : p.offset ≤ p'.offset) (hlt : p'.offset < 2 ^ 52) : e.level ≤ e'.level := by
  refine (h.nearest (hle.trans_lt hlt)).mono (h'.nearest hlt) ?_
  gcongr

/-- A multiple of the width is a level. -/
theorem level_eq (h : Records width p e) {k : ℕ} (hk : p.offset = k * max width 1)
    (hlt : p.offset < 2 ^ 52) : e.level = k := by
  have hwidth : ((max width 1 : ℕ) : ℚ) ≠ 0 := Nat.cast_ne_zero.mpr (by omega)
  have hquotient : (p.offset : ℚ) / (max width 1 : ℕ) = k := by
    rw [hk, Nat.cast_mul, mul_div_cancel_right₀ _ hwidth]
  have hnearest := h.nearest hlt
  rw [hquotient] at hnearest
  exact hnearest.unique (Decimal.isNearest_natCast k)

end Records

/-- **Every recipe of an outline records the comments of its segment.** -/
theorem forall₂_records {out : Output} (h : readLines options lines = .ok out) :
    List.Forall₂ (fun segment r => List.Forall₂ (Records options.indentWidth)
      (segment.filter Placed.isEntry) r.outline) (segments (place lines)) out.recipes := by
  refine forall₂_recipes h fun segment hsegment r hr => ?_
  rw [outline_recipeOf hsegment hr, List.forall₂_map_right_iff, List.forall₂_same]
  exact fun p hp => .of_isEntry options (List.mem_filter.mp hp).2

end DesignRecipe.Outline

namespace DesignRecipe.Python

open Outline

/-! ### The stub -/

/-- The definition of a function up to the outline of its body. -/
def definitionHead (r : Recipe) : Text :=
  "def " ++ r.name ++ "(" ++ Text.join ", " r.parameters ++ "):\n" ++
  lineAt 1 docQuote ++ r.lines.flatMap (lineAt 1) ++ lineAt 1 docQuote ++
  lineAt 1 placeholder ++ "\n"

/-- The outline starts on a line of its own. -/
theorem getLast?_definitionHead (r : Recipe) : (definitionHead r).getLast? = some '\n' :=
  List.getLast?_append_of_ne_nil _ (List.cons_ne_nil '\n' [])

/-- **The outline of a function in a stub**: each entry stands behind four spaces for its level and
four more. -/
def outlineText (r : Recipe) : Text :=
  r.outline.flatMap fun e => Text.spaces (4 * (e.level + 1)) ++ e.text ++ ['\n', '\n']

theorem stub_eq (t : Template) (rs : List Recipe) : stub t rs =
    header t ++ rs.flatMap fun r => definitionHead r ++ outlineText r ++ ['\n'] := by
  have hcomment : outlineComment = fun e : OutlineEntry =>
      Text.spaces (4 * (e.level + 1)) ++ e.text ++ ['\n', '\n'] := by
    funext e
    simp [outlineComment, lineAt, indent]
  have hdefinition (r : Recipe) : definition r = definitionHead r ++ outlineText r ++ ['\n'] := by
    rw [outlineText, ← hcomment]
    rfl
  rw [stub, ← funext hdefinition]

/-- **The levels of an outline are nearest levels.** Each recipe that is read has one entry for each
comment of its body, in their order, and its level is the whole number nearest to the offset of the
comment by the indentation width. So the level does not fall when the offset grows, and it is exact
for a multiple of the width. The stub repeats each entry on a line of its own, four times its level
and four more spaces from the margin. -/
theorem stub_of_read (template : Template) {options : Options} {lines : List Text} {out : Output}
    (h : readLines options lines = .ok out) :
    List.Forall₂ (fun segment r => List.Forall₂ (Records options.indentWidth)
      (segment.filter Placed.isEntry) r.outline) (segments (place lines)) out.recipes ∧
    (∀ p e p' e', Records options.indentWidth p e → Records options.indentWidth p' e' →
      p.offset ≤ p'.offset → p'.offset < 2 ^ 52 → e.level ≤ e'.level) ∧
    (∀ p e k, Records options.indentWidth p e →
      p.offset = k * max options.indentWidth 1 → p.offset < 2 ^ 52 → e.level = k) ∧
    stub template out.recipes = header template ++
      (out.recipes.flatMap fun r => definitionHead r ++ outlineText r ++ ['\n']) ∧
    ∀ r, (definitionHead r).getLast? = some '\n' :=
  ⟨forall₂_records h, fun _ _ _ _ hrecords => hrecords.level_le, fun _ _ _ hrecords =>
    hrecords.level_eq, stub_eq _ _, getLast?_definitionHead⟩

/-- The lines of an outline whose comments are indented by no, two, four, six and ten columns. With
four columns to a level, those by two, six and ten are between two levels. -/
def levelSample : List Text :=
  ["\"\"\"", "CONTRACT | f : int -> int", "\"\"\"", "# a", "  # b", "    # c", "      # d",
    "          # e"]

/-- What the stub repeats of their outline. -/
def levelText : Text :=
  "    # a\n\n    # b\n\n        # c\n\n            # d\n\n            # e\n\n"

theorem stub_of_read_sample : ∃ out, readLines .standard levelSample = .ok out ∧
    (segments (place levelSample)).map
      (fun segment => (segment.filter Placed.isEntry).map Placed.offset) = [[0, 2, 4, 6, 10]] ∧
    out.recipes.map (fun r => r.outline.map OutlineEntry.level) = [[0, 0, 1, 2, 2]] ∧
    List.Forall₂ (fun segment r => List.Forall₂ (Records 4) (segment.filter Placed.isEntry)
      r.outline) (segments (place levelSample)) out.recipes ∧
    out.recipes.map outlineText = [levelText] := by
  obtain ⟨out, hout, hlevels, htext⟩ : ∃ out, readLines .standard levelSample = .ok out ∧
      out.recipes.map (fun r => r.outline.map OutlineEntry.level) = [[0, 0, 1, 2, 2]] ∧
      out.recipes.map outlineText = [levelText] :=
    ⟨_, rfl, by decide +kernel, by decide +kernel⟩
  obtain ⟨hrecords, -⟩ := stub_of_read .standard hout
  exact ⟨out, hout, by decide +kernel, hlevels, hrecords, htext⟩

end DesignRecipe.Python
