import DesignRecipe.Proofs.Coercion
import DesignRecipe.Proofs.Value.Normal

/-!
# One representation for every integer

An integer may be spelled in many ways, with signs, leading zeros and underscores. It is represented
in one way only: by a number if it fits into 64 bits, and else by its canonical decimal
(`Value.Represents`, `existsUnique_represents`). The canonical decimal is the one spelling with no
plus sign, no leading zero and no negative zero (`Integer.eq_ofInt_iff`).

Integers are read on two paths, as tokens of their own type and as literals, which may be parts of
other literals. The first one drops underscores from the whole token, the second one finds the end
of the number first. Both come to the representation of the integer that is spelled, and where both
read the same token they agree.
-/

namespace DesignRecipe

open Text (ofNat ofInt)

namespace Integer

variable {s t digits : Text} {i j : Int}

/-! ### Canonical decimals -/

/-- **Digits of a positive number**: they do not start with a zero. -/
structure Significant (digits : Text) : Prop where
  isDigit : ∀ c ∈ digits, c.isDigit = true
  head : ∃ c ∈ digits.head?, c ≠ '0'

/-- **A canonical decimal**: zero, or significant digits with a minus sign or without a sign. -/
inductive Canonical : Text → Prop
  | zero : Canonical ['0']
  | positive {digits : Text} : Significant digits → Canonical digits
  | negative {digits : Text} : Significant digits → Canonical ('-' :: digits)

theorem significant_ofNat {n : Nat} (hn : 0 < n) : Significant (ofNat n) :=
  ⟨fun _ => isDigit_of_mem_ofNat, head?_ofNat hn⟩

/-- Significant digits are those of their number. -/
theorem Significant.exists_ofNat (h : Significant digits) : ∃ n, 0 < n ∧ digits = ofNat n := by
  obtain ⟨c, hc, hne⟩ := h.head
  obtain ⟨rest, rfl⟩ := List.head?_eq_some_iff.mp hc
  have hdrop := dropWhile_zero h.isDigit
  rw [List.dropWhile_cons_of_neg (by simpa using hne)] at hdrop
  split at hdrop
  · cases hdrop
  · next hvalue => exact ⟨_, Nat.pos_of_ne_zero hvalue, hdrop⟩

/-- **The canonical decimals are the texts of integers.** -/
theorem canonical_iff_exists_ofInt : Canonical t ↔ ∃ i, t = ofInt i := by
  constructor
  · rintro (_ | hdigits | hdigits)
    · exact ⟨0, rfl⟩
    · obtain ⟨n, -, rfl⟩ := hdigits.exists_ofNat
      exact ⟨n, rfl⟩
    · obtain ⟨n, hn, rfl⟩ := hdigits.exists_ofNat
      obtain ⟨m, rfl⟩ := Nat.exists_eq_succ_of_ne_zero hn.ne'
      exact ⟨.negSucc m, rfl⟩
  · rintro ⟨i, rfl⟩
    match i with
    | .ofNat 0 => exact .zero
    | .ofNat (n + 1) => exact .positive (significant_ofNat (Nat.succ_pos n))
    | .negSucc n => exact .negative (significant_ofNat (Nat.succ_pos n))

theorem ofInt_injective : Function.Injective ofInt := by
  intro i j h
  rw [← valueOf_ofInt i, h, valueOf_ofInt]

/-- The text of an integer spells it. -/
theorem spells_ofInt (i : Int) : Spells (ofInt i) i := by
  obtain ⟨j, hspells, hj⟩ := canonical?_eq_some_iff.mp (canonical?_ofInt i)
  obtain rfl := ofInt_injective hj
  exact hspells

/-- **A text spells one integer only.** -/
theorem Spells.unique (h : Spells s i) (h' : Spells s j) : i = j := by
  have hi : canonical? s = some (ofInt i) := canonical?_eq_some_iff.mpr ⟨i, h, rfl⟩
  have hj : canonical? s = some (ofInt j) := canonical?_eq_some_iff.mpr ⟨j, h', rfl⟩
  exact ofInt_injective (Option.some_inj.mp (hi.symm.trans hj))

/-- **The text of an integer is the one canonical decimal that spells it.** -/
theorem eq_ofInt_iff : t = ofInt i ↔ Canonical t ∧ Spells t i := by
  constructor
  · rintro rfl
    exact ⟨canonical_iff_exists_ofInt.mpr ⟨i, rfl⟩, spells_ofInt i⟩
  · rintro ⟨hcanonical, hspells⟩
    obtain ⟨j, rfl⟩ := canonical_iff_exists_ofInt.mp hcanonical
    rw [(spells_ofInt j).unique hspells]

/-- **The texts with a canonical one** are those that spell an integer. -/
theorem exists_canonical?_iff : (∃ t, canonical? s = some t) ↔ ∃ i, Spells s i := by
  constructor
  · rintro ⟨t, ht⟩
    obtain ⟨i, hspells, -⟩ := canonical?_eq_some_iff.mp ht
    exact ⟨i, hspells⟩
  · rintro ⟨i, hspells⟩
    exact ⟨_, canonical?_eq_some_iff.mpr ⟨i, hspells, rfl⟩⟩

/-- **The canonical text is the canonical decimal** of the same integer. -/
theorem canonical_of_canonical? (h : canonical? s = some t) :
    Canonical t ∧ ∃ i, Spells s i ∧ Spells t i := by
  obtain ⟨i, hspells, ht⟩ := canonical?_eq_some_iff.mp h
  obtain ⟨hcanonical, hspells'⟩ := eq_ofInt_iff.mp ht
  exact ⟨hcanonical, i, hspells, hspells'⟩

/-- **Two texts have the same canonical text** just if they spell the same integer. -/
theorem canonical?_eq_canonical?_iff {s' : Text} (h : Spells s i) (h' : Spells s' j) :
    canonical? s = canonical? s' ↔ i = j := by
  rw [canonical?_eq_some_iff.mpr ⟨i, h, rfl⟩, canonical?_eq_some_iff.mpr ⟨j, h', rfl⟩,
    Option.some_inj]
  exact ofInt_injective.eq_iff

end Integer

open Integer (Canonical Spells canonical? isNarrow)

/-! ### The representation of an integer -/

variable {recognized : List Text} {token : Text} {v w : Value} {i : Int}

theorem Integer.isNarrow_iff : isNarrow i = true ↔ -2 ^ 63 ≤ i ∧ i ≤ 2 ^ 63 - 1 := by
  simp [isNarrow, Int64.toInt_maxValue]

/-- **A value represents an integer**: it is the number if that has at most 64 bits, and else it
has the canonical decimal. -/
inductive Value.Represents : Value → Int → Prop
  | narrow {n : Int64} {i : Int} : -2 ^ 63 ≤ i → i ≤ 2 ^ 63 - 1 → n.toInt = i →
      Represents (.int n) i
  | wide {digits : Text} {i : Int} : i < -2 ^ 63 ∨ 2 ^ 63 - 1 < i → Canonical digits →
      Spells digits i → Represents (.bigInt digits) i

theorem represents_iff :
    v.Represents i ↔ v = if isNarrow i then .int (Int64.ofInt i) else .bigInt (ofInt i) := by
  constructor
  · intro h
    cases h with
    | narrow hlow hhigh hn =>
      rw [if_pos (Integer.isNarrow_iff.mpr ⟨hlow, hhigh⟩), ← hn, Int64.ofInt_toInt]
    | wide hwide hcanonical hspells =>
      have hnarrow : ¬isNarrow i = true := by
        rw [Integer.isNarrow_iff]
        omega
      rw [if_neg hnarrow, Integer.eq_ofInt_iff.mpr ⟨hcanonical, hspells⟩]
  · rintro rfl
    by_cases hnarrow : isNarrow i = true
    · obtain ⟨hlow, hhigh⟩ := Integer.isNarrow_iff.mp hnarrow
      rw [if_pos hnarrow]
      exact .narrow hlow hhigh (Integer.toInt_ofInt_of_isNarrow hnarrow)
    · obtain ⟨hcanonical, hspells⟩ := Integer.eq_ofInt_iff.mp (rfl : ofInt i = ofInt i)
      rw [if_neg hnarrow]
      rw [Integer.isNarrow_iff] at hnarrow
      exact .wide (by omega) hcanonical hspells

/-- **Every integer has one representation.** -/
theorem existsUnique_represents (i : Int) : ∃! v, Value.Represents v i :=
  ⟨_, represents_iff.mpr rfl, fun _ h => represents_iff.mp h⟩

/-- **A token of an integer**, once it is trimmed and its underscores are dropped, spells the
integer that its value represents. -/
theorem Coercion.coerce_int_iff_represents (hmem : Primitive.int.tag ∈ recognized)
    (hnone : token ≠ ['N', 'o', 'n', 'e']) :
    coerce recognized token Primitive.int.tag = .ok v ↔
      ∃ i, Spells (dropUnderscores (Text.trim token)) i ∧ v.Represents i := by
  simp only [coerce_int_eq_ok_iff hmem hnone, Integer.read?_eq_some_iff, represents_iff]

/-- **Integers of any width are read exactly.** A text has a canonical one just if it spells an
integer, and that is the canonical decimal of the integer, so that two texts have the same one just
if they spell the same integer. Under its tag a token is accepted just if it spells an integer once
it is trimmed and its underscores are dropped, and its value represents the integer. -/
theorem integers_of_any_width :
    (∀ s, (∃ t, canonical? s = some t) ↔ ∃ i, Spells s i) ∧
      (∀ s t, canonical? s = some t → Canonical t ∧ ∃ i, Spells s i ∧ Spells t i) ∧
      (∀ s s' i i', Spells s i → Spells s' i' → (canonical? s = canonical? s' ↔ i = i')) ∧
      ∀ recognized token, Primitive.int.tag ∈ recognized → token ≠ ['N', 'o', 'n', 'e'] →
        ((∃ v, Coercion.coerce recognized token Primitive.int.tag = .ok v) ↔
          ∃ i, Spells (Coercion.dropUnderscores (Text.trim token)) i) ∧
        ∀ v i, Coercion.coerce recognized token Primitive.int.tag = .ok v →
          Spells (Coercion.dropUnderscores (Text.trim token)) i → v.Represents i := by
  refine ⟨fun s => Integer.exists_canonical?_iff, fun s t => Integer.canonical_of_canonical?,
    fun s s' i i' => Integer.canonical?_eq_canonical?_iff, ?_⟩
  intro recognized token hmem hnone
  have hvalue (v : Value) := Coercion.coerce_int_iff_represents (v := v) hmem hnone
  refine ⟨⟨?_, ?_⟩, ?_⟩
  · rintro ⟨v, hv⟩
    obtain ⟨i, hspells, -⟩ := (hvalue v).mp hv
    exact ⟨i, hspells⟩
  · rintro ⟨i, hspells⟩
    obtain ⟨v, hv, -⟩ := existsUnique_represents i
    exact ⟨v, (hvalue v).mpr ⟨i, hspells, hv⟩⟩
  · intro v i hv hspells
    obtain ⟨j, hspells', hrepresents⟩ := (hvalue v).mp hv
    rwa [hspells.unique hspells']

/-- A token for an integer that just does not fit into 64 bits. -/
def justTooWide : Text := " -9_223_372_036_854_775_809 "

theorem spells_justTooWide :
    Spells (Coercion.dropUnderscores (Text.trim justTooWide)) (-2 ^ 63 - 1) := by
  have htext : Coercion.dropUnderscores (Text.trim justTooWide) = ofInt (-2 ^ 63 - 1) := by
    decide +kernel
  rw [htext]
  exact Integer.spells_ofInt _

theorem integers_of_any_width_justTooWide :
    Spells (Coercion.dropUnderscores (Text.trim justTooWide)) (-2 ^ 63 - 1) ∧
      (∃ v, Coercion.coerce [Primitive.int.tag] justTooWide Primitive.int.tag = .ok v ∧
        v.Represents (-2 ^ 63 - 1)) ∧
      canonical? "+007" = canonical? "7" := by
  have hpadded : Spells "+007" (Decimal.digitsValue "007" : Nat) :=
    .plus (by decide) (List.all_eq_true.mp rfl)
  have hplain : Spells "7" (Decimal.digitsValue "7" : Nat) :=
    .plain (by decide) (List.all_eq_true.mp rfl)
  obtain ⟨-, -, hsame, hcoerce⟩ := integers_of_any_width
  obtain ⟨haccepts, hvalue⟩ :=
    hcoerce [Primitive.int.tag] justTooWide (List.mem_singleton_self _) (by decide)
  obtain ⟨v, hv⟩ := haccepts.mpr ⟨_, spells_justTooWide⟩
  refine ⟨spells_justTooWide, ⟨v, hv, hvalue v _ hv spells_justTooWide⟩, ?_⟩
  exact (hsame _ _ _ _ hpadded hplain).mpr (by decide)

/-! ### Integers inside of values -/

/-- **A value stands in another one** at some depth: it is that value, or stands in an item of a
list or a tuple, or in a key or a value of a dictionary. -/
inductive Value.StandsIn (v : Value) : Value → Prop
  | self : StandsIn v v
  | list {items : List Value} {item : Value} : item ∈ items → StandsIn v item →
      StandsIn v (.list items)
  | tuple {items : List Value} {item : Value} : item ∈ items → StandsIn v item →
      StandsIn v (.tuple items)
  | key {entries : List (Value × Value)} {e : Value × Value} : e ∈ entries → StandsIn v e.1 →
      StandsIn v (.dict entries)
  | value {entries : List (Value × Value)} {e : Value × Value} : e ∈ entries → StandsIn v e.2 →
      StandsIn v (.dict entries)

/-- The values that stand in a normal one are normal. -/
theorem Value.StandsIn.normal (hv : v.StandsIn w) (h : w.Normal) : v.Normal := by
  induction hv with
  | self => exact h
  | list hmem _ ih =>
    cases h with
    | list hitems => exact ih (hitems _ hmem)
  | tuple hmem _ ih =>
    cases h with
    | tuple hitems => exact ih (hitems _ hmem)
  | key hmem _ ih =>
    cases h with
    | dict hkeys _ => exact ih (hkeys _ hmem)
  | value hmem _ ih =>
    cases h with
    | dict _ hvalues => exact ih (hvalues _ hmem)

/-- **A normal wide integer** has its canonical text, and is too wide for a number. -/
theorem Value.Normal.wide {digits : Text} (h : Value.Normal (.bigInt digits)) :
    canonical? digits = some digits ∧ ∃ i, Spells digits i ∧ (i < -2 ^ 63 ∨ 2 ^ 63 - 1 < i) := by
  cases h with
  | bigInt hcanonical hwide =>
    obtain ⟨i, hspells, hdigits⟩ := Integer.canonical?_eq_some_iff.mp hcanonical
    have hnarrow : ¬isNarrow i = true := by
      rw [hdigits, Integer.valueOf_ofInt] at hwide
      simp [hwide]
    rw [Integer.isNarrow_iff] at hnarrow
    exact ⟨hcanonical, i, hspells, by omega⟩

/-- **A token that is read as an integer is read as a literal with the same value**, if it does not
start with an underscore. -/
theorem Literal.read?_of_coerce (hhead : (Text.trim token).head? ≠ some '_')
    (hmem : Primitive.int.tag ∈ recognized)
    (h : Coercion.coerce recognized token Primitive.int.tag = .ok v) :
    Literal.read? token = some v := by
  by_cases hnone : token = ['N', 'o', 'n', 'e']
  · rw [Coercion.coerce, if_pos hnone] at h
    obtain rfl := Except.ok.inj h
    rw [hnone]
    rfl
  · rw [Coercion.coerce_int_eq_ok_iff hmem hnone] at h
    obtain ⟨before, after, hbefore, hafter, htoken⟩ := Text.exists_trim token
    rw [htoken]
    exact Literal.read?_of_denotes (Literal.denotes_of_read? hhead h) hbefore hafter

/-- **Integers have one representation on both paths.** Wherever a wide integer stands in a value
that is read, as a literal or under any tag, it has its canonical text and is too wide for a number.
And a token that is accepted as an integer, and does not start with an underscore, is read as a
literal with the same value. -/
theorem one_representation :
    (∀ token v digits, (Literal.read? token = some v ∨
        ∃ recognized tag, Coercion.coerce recognized token tag = .ok v) →
      Value.StandsIn (.bigInt digits) v →
        canonical? digits = some digits ∧
          ∃ i, Spells digits i ∧ (i < -2 ^ 63 ∨ 2 ^ 63 - 1 < i)) ∧
      ∀ recognized token v, Primitive.int.tag ∈ recognized →
        (Text.trim token).head? ≠ some '_' →
        Coercion.coerce recognized token Primitive.int.tag = .ok v →
          Literal.read? token = some v := by
  refine ⟨?_, ?_⟩
  · rintro token v digits (hread | ⟨recognized, tag, hcoerce⟩) hdigits
    · exact (hdigits.normal (Literal.normal_of_read? hread)).wide
    · exact (hdigits.normal (Coercion.normal_of_coerce hcoerce)).wide
  · intro recognized token v hmem hhead hcoerce
    exact Literal.read?_of_coerce hhead hmem hcoerce

/-- An integer that just does not fit into 64 bits, as an item of an item. -/
def wideItem : Value := .list [.tuple [.bigInt (ofInt (2 ^ 63))]]

theorem exact_wideItem : wideItem.Exact := by
  have hwide : isNarrow (Integer.valueOf (ofInt (2 ^ 63))) = false := by
    rw [Integer.valueOf_ofInt]
    decide +kernel
  refine .list (List.forall_mem_singleton.mpr (.tuple (List.forall_mem_singleton.mpr ?_)))
  exact .bigInt (Integer.canonical?_ofInt _) hwide

theorem one_representation_wideItem :
    Literal.read? "[(9223372036854775808,)]" = some wideItem ∧
      canonical? (ofInt (2 ^ 63)) = some (ofInt (2 ^ 63)) ∧
      (∃ i, Spells (ofInt (2 ^ 63)) i ∧ (i < -2 ^ 63 ∨ 2 ^ 63 - 1 < i)) ∧
      ∃ v, Coercion.coerce [Primitive.int.tag] justTooWide Primitive.int.tag = .ok v ∧
        v.Represents (-2 ^ 63 - 1) ∧ Literal.read? justTooWide = some v := by
  obtain ⟨hwide, hagree⟩ := one_representation
  have hitem : Literal.read? "[(9223372036854775808,)]" = some wideItem := by
    have htext : Python.writeLiteral wideItem = "[(9223372036854775808,)]" := by decide +kernel
    have hread := Literal.read?_of_denotes (Python.denotes_writeLiteral exact_wideItem)
      Text.Blank.nil Text.Blank.nil
    rwa [List.nil_append, List.append_nil, htext] at hread
  have hinside : Value.StandsIn (.bigInt (ofInt (2 ^ 63))) wideItem :=
    .list (List.mem_singleton_self _) (.tuple (List.mem_singleton_self _) .self)
  obtain ⟨hcanonical, hrange⟩ := hwide _ _ _ (Or.inl hitem) hinside
  have hmem : Primitive.int.tag ∈ [Primitive.int.tag] := List.mem_singleton_self _
  have hnone : justTooWide ≠ ['N', 'o', 'n', 'e'] := by decide
  have hhead : (Text.trim justTooWide).head? ≠ some '_' := by decide
  obtain ⟨v, hv, -⟩ := existsUnique_represents (-2 ^ 63 - 1)
  have hread : Coercion.coerce [Primitive.int.tag] justTooWide Primitive.int.tag = .ok v :=
    (Coercion.coerce_int_iff_represents hmem hnone).mpr ⟨_, spells_justTooWide, hv⟩
  exact ⟨hitem, hcanonical, hrange, v, hread, hv, hagree _ _ _ hmem hhead hread⟩

end DesignRecipe
