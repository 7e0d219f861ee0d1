import DesignRecipe.Proofs.Value.Normal
import DesignRecipe.Proofs.Token.Written

/-!
# The characters of literals

What a literal is made of, strings aside: digits and signs, brackets, commas and colons, a few
words and the quote around two of them (`Python.marks`). Everything else in the literal of a value
stands in one of its strings. So what holds of the marks and of the strings as they are written
holds of the literal, at any depth (`Python.forall_mem_writeLiteral`).
-/

namespace DesignRecipe

/-- What holds of the characters of texts and of a separator holds of those of the join. -/
theorem Text.forall_mem_join {P : Char → Prop} {separator : Text} (hsep : ∀ c ∈ separator, P c)
    {ts : List Text} (h : ∀ t ∈ ts, ∀ c ∈ t, P c) : ∀ c ∈ join separator ts, P c := by
  induction ts with
  | nil => exact List.forall_mem_nil P
  | cons t ts ih =>
    obtain ⟨ht, hts⟩ := List.forall_mem_cons.mp h
    cases ts with
    | nil => exact ht
    | cons t' ts =>
      rw [join]
      · exact List.forall_mem_append.mpr ⟨List.forall_mem_append.mpr ⟨ht, hsep⟩, ih hts⟩
      · exact List.cons_ne_nil _ _

/-- The texts that are joined are parts of the join. -/
theorem Text.isInfix_join (separator : Text) {ts : List Text} {t : Text} (h : t ∈ ts) :
    t <:+: join separator ts := by
  induction ts with
  | nil => exact absurd h List.not_mem_nil
  | cons first ts ih =>
    cases ts with
    | nil =>
      obtain rfl := List.mem_singleton.mp h
      exact List.infix_rfl
    | cons second ts =>
      rw [join]
      · rcases List.mem_cons.mp h with rfl | h
        · exact ⟨[], separator ++ join separator (second :: ts), by simp⟩
        · exact (ih h).trans (List.suffix_append _ _).isInfix
      · exact List.cons_ne_nil _ _

/-- A character that is not in the separator comes from a text that is joined. -/
theorem Text.mem_join_iff {c : Char} {separator : Text} (hc : c ∉ separator) (ts : List Text) :
    c ∈ join separator ts ↔ ∃ t ∈ ts, c ∈ t := by
  constructor
  · intro hmem
    by_contra hnone
    have hothers : ∀ t ∈ ts, ∀ d ∈ t, d ≠ c := by
      rintro t ht d hd rfl
      exact hnone ⟨t, ht, hd⟩
    exact forall_mem_join (fun d hd => ne_of_mem_of_not_mem hd hc) hothers c hmem rfl
  · rintro ⟨t, ht, hmem⟩
    exact (isInfix_join separator ht).subset hmem

/-- What stands between brackets is a part of it all. -/
theorem Text.isInfix_brackets (first last : Char) (t : Text) : t <:+: first :: t ++ [last] :=
  ⟨[first], [last], rfl⟩

/-! ### Decimals -/

namespace Decimal

/-- The characters of a decimal: digits, the point, signs and the mark of an exponent. -/
def inDecimal (c : Char) : Bool := c.isDigit || c == '.' || c == '-' || c == '+' || c == 'e'

theorem inDecimal_ofNat (n : Nat) : ∀ c ∈ Text.ofNat n, inDecimal c = true := by
  intro c hc
  simp [inDecimal, Integer.isDigit_of_mem_ofNat hc]

theorem inDecimal_padLeft (width : Nat) {digits : Text} (h : ∀ c ∈ digits, inDecimal c = true) :
    ∀ c ∈ padLeft width digits, inDecimal c = true := by
  refine List.forall_mem_append.mpr ⟨fun c hc => ?_, h⟩
  rw [List.eq_of_mem_replicate hc]
  rfl

theorem inDecimal_positional {digits : Text} (h : ∀ c ∈ digits, inDecimal c = true)
    (exponent : Int) : ∀ c ∈ positional digits exponent, inDecimal c = true := by
  rw [positional]
  split
  · refine List.forall_mem_append.mpr ⟨List.forall_mem_append.mpr ⟨h, fun c hc => ?_⟩,
      List.all_eq_true.mp (by decide)⟩
    rw [List.eq_of_mem_replicate hc]
    rfl
  · have hpadded := inDecimal_padLeft ((-exponent).toNat + 1) h
    refine List.forall_mem_append.mpr ⟨List.forall_mem_append.mpr ⟨fun c hc => ?_,
      List.all_eq_true.mp (by decide)⟩, fun c hc => ?_⟩
    · exact hpadded c (List.mem_of_mem_take hc)
    · exact hpadded c (List.mem_of_mem_drop hc)

theorem inDecimal_scientific (layout : Layout) {digits : Text}
    (h : ∀ c ∈ digits, inDecimal c = true) (leading : Int) :
    ∀ c ∈ scientific layout digits leading, inDecimal c = true := by
  simp only [scientific]
  refine List.forall_mem_append.mpr ⟨List.forall_mem_append.mpr ⟨?_, ?_⟩,
    inDecimal_padLeft _ (inDecimal_ofNat _)⟩
  · split
    · next first second more =>
      simp only [List.forall_mem_cons] at h ⊢
      exact ⟨h.1, rfl, h.2⟩
    · exact h
  · split <;> exact List.all_eq_true.mp (by decide)

theorem inDecimal_write (layout : Layout) (d : Decimal) :
    ∀ c ∈ write layout d, inDecimal c = true := by
  simp only [write]
  split
  · exact inDecimal_positional (inDecimal_ofNat _) _
  · exact inDecimal_scientific layout (inDecimal_ofNat _) _

/-- **A finite double is written with the characters of a decimal.** -/
theorem inDecimal_writeFinite (layout : Layout) (x : Float) :
    ∀ c ∈ writeFinite layout x, inDecimal c = true := by
  have hsign (b : Prop) [Decidable b] : ∀ c ∈ (if b then [] else ['-'] : Text),
      inDecimal c = true := by
    split <;> exact List.all_eq_true.mp (by decide)
  simp only [writeFinite]
  split
  · exact List.forall_mem_append.mpr ⟨hsign _, List.all_eq_true.mp (by decide)⟩
  · exact List.forall_mem_append.mpr ⟨hsign _, inDecimal_write layout _⟩

end Decimal

namespace Python

/-- **The characters of literals** outside of strings. -/
def marks : List Char :=
  ['0', '1', '2', '3', '4', '5', '6', '7', '8', '9', '.', '-', '+', ',', ':', ' ', '(', ')', '[',
    ']', '{', '}', '\'', 'N', 'T', 'F', 'a', 'c', 'e', 'f', 'i', 'l', 'm', 'n', 'o', 'p', 'r', 's',
    't', 'u', 'x']

theorem mem_marks_of_inDecimal {c : Char} (h : Decimal.inDecimal c = true) : c ∈ marks := by
  have hdigits : ∀ n < 10, Nat.digitChar n ∈ marks := by decide
  have hothers : ['.', '-', '+', 'e'] ⊆ marks := by decide
  simp only [Decimal.inDecimal, Bool.or_eq_true, beq_iff_eq] at h
  rcases h with (((hdigit | rfl) | rfl) | rfl) | rfl
  · obtain ⟨hlt, hchar⟩ := Integer.digitChar_of_isDigit hdigit
    exact hchar ▸ hdigits _ hlt
  all_goals exact hothers (by decide)

theorem writeFloat_subset_marks (x : Float) : writeFloat x ⊆ marks := by
  rw [writeFloat]
  split
  · decide
  split
  · split <;> decide
  · exact fun c hc => mem_marks_of_inDecimal (Decimal.inDecimal_writeFinite _ _ c hc)

theorem writeLiteral_complex (re im : Float) : writeLiteral (.complex re im) =
    "complex(".toList ++ writeFloat re ++ ", ".toList ++ writeFloat im ++ ")".toList := rfl

theorem complex_subset_marks (re im : Float) :
    "complex(".toList ++ writeFloat re ++ ", ".toList ++ writeFloat im ++ ")".toList ⊆ marks := by
  simp only [List.append_subset]
  exact ⟨⟨⟨⟨by decide, writeFloat_subset_marks re⟩, by decide⟩, writeFloat_subset_marks im⟩,
    by decide⟩

variable {P : Char → Prop}

/-- **What holds of the marks and of the strings as they are written** holds of the literal of a
normal value. -/
theorem forall_mem_writeLiteral (hmarks : ∀ c ∈ marks, P c) {v : Value} (h : v.Normal)
    (hs : v.AllStrings fun s => ∀ c ∈ writeString s, P c) : ∀ c ∈ writeLiteral v, P c := by
  have hmark {t : Text} (ht : t ⊆ marks) : ∀ c ∈ t, P c := fun c hc => hmarks c (ht hc)
  have hinteger {t digits : Text} (ht : Integer.canonical? t = some digits) : ∀ c ∈ t, P c :=
    hmark (Integer.forall_mem_of_canonical? (by decide) (by decide) (by decide) ht)
  -- Between its brackets a container has its parts, commas and spaces.
  have hbrackets {first last : Char} {t : Text} (hfirst : first ∈ marks) (hlast : last ∈ marks)
      (ht : ∀ c ∈ t, P c) : ∀ c ∈ first :: t ++ [last], P c :=
    List.forall_mem_append.mpr ⟨List.forall_mem_cons.mpr ⟨hmarks _ hfirst, ht⟩,
      List.forall_mem_singleton.mpr (hmarks _ hlast)⟩
  have hjoin {ts : List Text} (hts : ∀ t ∈ ts, ∀ c ∈ t, P c) :
      ∀ c ∈ Text.join [',', ' '] ts, P c := Text.forall_mem_join (hmark (by decide)) hts
  induction h with
  | none => exact hmark (by decide)
  | bool b => exact hmark (by cases b <;> decide)
  | int i => exact hinteger (Integer.canonical?_ofInt i.toInt)
  | bigInt hd => exact hinteger hd
  | float x => exact hmark (writeFloat_subset_marks x)
  | complex re im =>
    rw [writeLiteral_complex]
    exact hmark (complex_subset_marks re im)
  | str s => exact hs.str
  | list _ ih =>
    rw [writeLiteral_list]
    exact hbrackets (by decide) (by decide)
      (hjoin (List.forall_mem_map.mpr fun v hv => ih v hv (hs.list hv)))
  | @tuple items _ ih =>
    by_cases hsingle : ∃ item, items = [item]
    · obtain ⟨item, rfl⟩ := hsingle
      rw [writeLiteral_tuple_singleton]
      exact hbrackets (by decide) (by decide) (List.forall_mem_append.mpr
        ⟨ih item List.mem_cons_self (hs.tuple List.mem_cons_self), hmark (by decide)⟩)
    · rw [writeLiteral_tuple fun item h => hsingle ⟨item, h⟩]
      exact hbrackets (by decide) (by decide)
        (hjoin (List.forall_mem_map.mpr fun v hv => ih v hv (hs.tuple hv)))
  | dict _ _ ihKey ihValue =>
    rw [writeLiteral_dict, List.map_map]
    refine hbrackets (by decide) (by decide) (hjoin (List.forall_mem_map.mpr fun e he => ?_))
    obtain ⟨hkey, hvalue⟩ := hs.dict he
    have hspace : ∀ c ∈ [' '], P c := hmark (by decide)
    refine List.forall_mem_append.mpr ⟨List.forall_mem_append.mpr
      ⟨ihKey e he hkey, List.forall_mem_nil _⟩, List.forall_mem_cons.mpr ⟨hmarks _ (by decide), ?_⟩⟩
    exact List.forall_mem_append.mpr ⟨hspace, ihValue e he hvalue⟩

/-! ### Characters of strings -/

/-- **A character that is written as it is**, and only in a string: it is no mark and no quote, and
it has no escape. -/
def IsVerbatim (c : Char) : Prop := c ∉ marks ++ ['"', '\\', '\n', '\t', '\r']

instance (c : Char) : Decidable (IsVerbatim c) := inferInstanceAs (Decidable (c ∉ _))

theorem mem_writeString_iff {c : Char} (hc : IsVerbatim c) (s : Text) :
    c ∈ writeString s ↔ c ∈ s := by
  have hquote : c ≠ quoteFor s := by
    rcases quoteFor_cases s with h | h <;> rw [h] <;> rintro rfl <;> exact hc (by decide)
  have hescape (d : Char) : c ∈ escape (quoteFor s) d ↔ c = d := by
    have hne {e : Char} (he : ¬IsVerbatim e) : c ≠ e := fun heq => he (heq ▸ hc)
    have hletters : c ≠ '\\' ∧ c ≠ '\n' ∧ c ≠ '\t' ∧ c ≠ '\r' ∧ c ≠ 'n' ∧ c ≠ 't' ∧ c ≠ 'r' := by
      refine ⟨hne ?_, hne ?_, hne ?_, hne ?_, hne ?_, hne ?_, hne ?_⟩ <;> decide
    rw [escape]
    split_ifs <;> simp_all
  simp [writeString, hquote, hescape]

/-- The strings of a value are written in its literal. -/
theorem isInfix_writeLiteral {v : Value} (h : v.Normal) {s : Text} (hs : s ∈ v.strings) :
    writeString s <:+: writeLiteral v := by
  induction h with
  | none => cases hs
  | bool b => cases hs
  | int i => cases hs
  | bigInt => cases hs
  | float x => cases hs
  | complex re im => cases hs
  | str t =>
    obtain rfl := List.mem_singleton.mp hs
    exact List.infix_rfl
  | list _ ih =>
    rw [Value.strings_list] at hs
    obtain ⟨v, hv, hmem⟩ := List.mem_flatMap.mp hs
    rw [writeLiteral_list]
    exact ((ih v hv hmem).trans (Text.isInfix_join _ (List.mem_map_of_mem hv))).trans
      (Text.isInfix_brackets _ _ _)
  | @tuple items _ ih =>
    rw [Value.strings_tuple] at hs
    obtain ⟨v, hv, hmem⟩ := List.mem_flatMap.mp hs
    by_cases hsingle : ∃ item, items = [item]
    · obtain ⟨item, rfl⟩ := hsingle
      obtain rfl := List.mem_singleton.mp hv
      rw [writeLiteral_tuple_singleton]
      exact ((ih v hv hmem).trans (List.prefix_append _ _).isInfix).trans
        (Text.isInfix_brackets _ _ _)
    · rw [writeLiteral_tuple fun item h => hsingle ⟨item, h⟩]
      exact ((ih v hv hmem).trans (Text.isInfix_join _ (List.mem_map_of_mem hv))).trans
        (Text.isInfix_brackets _ _ _)
  | @dict entries _ _ ihKey ihValue =>
    rw [Value.strings_dict] at hs
    obtain ⟨e, he, hmem⟩ := List.mem_flatMap.mp hs
    have htext : (entryOf e).text = writeLiteral e.1 ++ [':', ' '] ++ writeLiteral e.2 := by
      simp [entryOf, Literal.Entry.text]
    have hentry : writeString s <:+: (entryOf e).text := by
      rw [htext]
      rcases List.mem_append.mp hmem with hkey | hvalue
      · exact (ihKey e he hkey).trans ((List.prefix_append _ _).trans
          (List.prefix_append _ _)).isInfix
      · exact (ihValue e he hvalue).trans (List.suffix_append _ _).isInfix
    have hentries : (entryOf e).text ∈ (entries.map entryOf).map Literal.Entry.text :=
      List.mem_map_of_mem (List.mem_map_of_mem he)
    rw [writeLiteral_dict]
    exact (hentry.trans (Text.isInfix_join _ hentries)).trans (Text.isInfix_brackets _ _ _)

/-- **A character without escape** is in the literal of a value exactly if it is in a string of the
value. -/
theorem mem_writeLiteral_iff {c : Char} (hc : IsVerbatim c) {v : Value} (h : v.Normal) :
    c ∈ writeLiteral v ↔ ∃ s ∈ v.strings, c ∈ s := by
  constructor
  · intro hmem
    by_contra hnone
    have hmarks : ∀ d ∈ marks, d ≠ c := by
      rintro d hd rfl
      exact hc (List.mem_append_left _ hd)
    have hstrings : v.AllStrings fun s => ∀ d ∈ writeString s, d ≠ c := by
      rintro s hs d hd rfl
      exact hnone ⟨s, hs, (mem_writeString_iff hc s).mp hd⟩
    exact forall_mem_writeLiteral hmarks h hstrings c hmem rfl
  · rintro ⟨s, hs, hmem⟩
    exact (isInfix_writeLiteral h hs).subset ((mem_writeString_iff hc s).mpr hmem)

/-! ### Line breaks -/

/-- A character that does not end a line of source. -/
def staysOnLine (c : Char) : Bool := c != '\n' && c != '\r'

/-- A line break in a string is escaped. -/
theorem staysOnLine_escape {quote : Char} (hquote : staysOnLine quote = true) (c : Char) :
    ∀ d ∈ escape quote c, staysOnLine d = true := by
  rw [escape]
  split_ifs with _ hline _ hreturn hquoted
  · exact List.all_eq_true.mp (by decide)
  · exact List.all_eq_true.mp (by decide)
  · exact List.all_eq_true.mp (by decide)
  · exact List.all_eq_true.mp (by decide)
  · rw [hquoted]
    exact List.forall_mem_cons.mpr ⟨by decide, List.forall_mem_singleton.mpr hquote⟩
  · exact List.forall_mem_singleton.mpr (by simp [staysOnLine, hline, hreturn])

/-- **A string is written on one line**, whatever is in it. -/
theorem staysOnLine_writeString (s : Text) : ∀ c ∈ writeString s, staysOnLine c = true := by
  have hquote : staysOnLine (quoteFor s) = true := by
    rcases quoteFor_cases s with h | h <;> rw [h] <;> decide
  rw [writeString]
  refine List.forall_mem_append.mpr ⟨List.forall_mem_cons.mpr ⟨hquote, ?_⟩,
    List.forall_mem_singleton.mpr hquote⟩
  exact List.forall_mem_flatMap.mpr fun c _ => staysOnLine_escape hquote c

/-- **A literal is written on one line.** -/
theorem staysOnLine_writeLiteral {v : Value} (h : v.Normal) :
    ∀ c ∈ writeLiteral v, staysOnLine c = true :=
  forall_mem_writeLiteral (List.all_eq_true.mp (by decide)) h fun s _ => staysOnLine_writeString s

end Python

end DesignRecipe
