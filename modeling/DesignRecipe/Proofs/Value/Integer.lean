import DesignRecipe.Value.Integer
import Mathlib.Tactic.IntervalCases

/-!
# Canonical texts of integers

The text that an integer is written with is canonical, and it denotes the integer. So a
written integer is read back, and it becomes a number or keeps its digits according to
its width alone.
-/

namespace DesignRecipe.Integer

open Text (ofNat ofInt)

/-! ### Signs -/

/-- A digit is no sign. -/
theorem splitSign_of_isDigit {c : Char} (hc : c.isDigit = true) (s : Text) :
    splitSign (c :: s) = (false, c :: s) := by
  unfold splitSign
  split
  · next h =>
    obtain ⟨rfl, -⟩ := List.cons_eq_cons.mp h
    exact absurd hc (by decide)
  · next h =>
    obtain ⟨rfl, -⟩ := List.cons_eq_cons.mp h
    exact absurd hc (by decide)
  · rfl

/-- What is left of a text without its sign. -/
theorem exists_sign (s : Text) :
    ∃ sign, s = sign ++ (splitSign s).2 ∧ (sign = [] ∨ sign = ['-'] ∨ sign = ['+']) := by
  unfold splitSign
  split
  · exact ⟨['-'], rfl, Or.inr (Or.inl rfl)⟩
  · exact ⟨['+'], rfl, Or.inr (Or.inr rfl)⟩
  · exact ⟨[], rfl, Or.inl rfl⟩

/-- **The shape of the texts that denote an integer**: digits, at least one, behind at
most one sign. -/
theorem shape_of_canonical? {s t : Text} (h : canonical? s = some t) :
    ∃ sign digits, s = sign ++ digits ∧ (sign = [] ∨ sign = ['-'] ∨ sign = ['+']) ∧
      digits ≠ [] ∧ ∀ c ∈ digits, c.isDigit = true := by
  obtain ⟨sign, hs, hsign⟩ := exists_sign s
  refine ⟨sign, _, hs, hsign, ?_⟩
  simp only [canonical?] at h
  split at h
  · exact absurd h (by simp)
  · next hdigits => simpa using hdigits

/-! ### The digits of a natural number -/

theorem isDigit_of_mem_ofNat {n : Nat} {c : Char} (h : c ∈ ofNat n) : c.isDigit = true :=
  Nat.isDigit_of_mem_toDigits (by omega) (by omega) h

theorem ofNat_ne_nil (n : Nat) : ofNat n ≠ [] := Nat.toDigits_ne_nil

@[simp] theorem digitsValue_ofNat (n : Nat) : Decimal.digitsValue (ofNat n) = n :=
  Nat.ofDigitChars_ten_toDigits

theorem ofNat_inj {m n : Nat} : ofNat m = ofNat n ↔ m = n := by
  refine ⟨fun h => ?_, congrArg _⟩
  simpa using congrArg Decimal.digitsValue h

/-- **A positive number has no leading zero.** -/
theorem head?_ofNat {n : Nat} (hn : 0 < n) : ∃ c ∈ (ofNat n).head?, c ≠ '0' := by
  induction n using Nat.strongRecOn with
  | ind n ih =>
    rcases Nat.lt_or_ge n 10 with hlt | hge
    · rw [ofNat, Nat.toDigits_of_lt_base hlt]
      refine ⟨_, rfl, ?_⟩
      interval_cases n <;> decide
    · -- The first digit is the first one of the quotient by ten.
      obtain ⟨c, hc, hne⟩ := ih (n / 10) (by omega) (by omega)
      obtain ⟨rest, hrest⟩ := List.head?_eq_some_iff.mp hc
      rw [ofNat] at hrest
      rw [ofNat, Nat.toDigits_of_base_le (by omega) hge, hrest]
      exact ⟨c, rfl, hne⟩

/-! ### Written integers are canonical -/

theorem splitSign_ofNat (n : Nat) : splitSign (ofNat n) = (false, ofNat n) := by
  cases h : ofNat n with
  | nil => exact absurd h (ofNat_ne_nil n)
  | cons c rest => exact splitSign_of_isDigit (isDigit_of_mem_ofNat (h ▸ List.mem_cons_self)) rest

/-- The digits of a positive number are significant from the first one on. -/
theorem dropWhile_ofNat {n : Nat} (hn : 0 < n) : (ofNat n).dropWhile (· == '0') = ofNat n := by
  obtain ⟨c, hc, hne⟩ := head?_ofNat hn
  obtain ⟨rest, hrest⟩ := List.head?_eq_some_iff.mp hc
  rw [hrest, List.dropWhile_cons_of_neg (by simpa using hne)]

theorem canonical?_of_splitSign {s : Text} {negative : Bool} {n : Nat} (hn : 0 < n)
    (h : splitSign s = (negative, ofNat n)) :
    canonical? s = some (if negative then '-' :: ofNat n else ofNat n) := by
  have hall : (ofNat n).all Char.isDigit = true :=
    List.all_eq_true.mpr fun _ => isDigit_of_mem_ofNat
  have hempty : (ofNat n).isEmpty = false := by simpa using ofNat_ne_nil n
  obtain ⟨c, rest, hcons⟩ := List.exists_cons_of_ne_nil (ofNat_ne_nil n)
  simp only [canonical?, h, hall, hempty, dropWhile_ofNat hn]
  simp [hcons]

/-- **The text of an integer is canonical.** -/
theorem canonical?_ofInt (i : Int) : canonical? (ofInt i) = some (ofInt i) := by
  match i with
  -- Zero keeps the one leading zero that there is.
  | .ofNat 0 => rfl
  | .ofNat (n + 1) => exact canonical?_of_splitSign (Nat.succ_pos n) (splitSign_ofNat (n + 1))
  | .negSucc n =>
    have hsplit : splitSign ('-' :: ofNat (n + 1)) = (true, ofNat (n + 1)) := rfl
    exact canonical?_of_splitSign (Nat.succ_pos n) hsplit

/-- **The text of an integer denotes it.** -/
@[simp] theorem valueOf_ofInt (i : Int) : valueOf (ofInt i) = i := by
  cases i with
  | ofNat n =>
    change valueOf (ofNat n) = _
    simp [valueOf, splitSign_ofNat]
  | negSucc n =>
    change -(Decimal.digitsValue (ofNat (n + 1)) : Int) = _
    rw [digitsValue_ofNat, Int.negSucc_eq]
    rfl

/-! ### Texts that spell an integer -/

/-- **A text that spells an integer**: digits, at least one, behind at most one sign. -/
inductive Spells : Text → Int → Prop
  | plain {digits : Text} : digits ≠ [] → (∀ c ∈ digits, c.isDigit = true) →
      Spells digits (Decimal.digitsValue digits)
  | plus {digits : Text} : digits ≠ [] → (∀ c ∈ digits, c.isDigit = true) →
      Spells ('+' :: digits) (Decimal.digitsValue digits)
  | minus {digits : Text} : digits ≠ [] → (∀ c ∈ digits, c.isDigit = true) →
      Spells ('-' :: digits) (-Decimal.digitsValue digits)

theorem Spells.ne_nil {s : Text} {i : Int} (h : Spells s i) : s ≠ [] := by
  cases h with
  | plain hne => exact hne
  | plus => exact List.cons_ne_nil _ _
  | minus => exact List.cons_ne_nil _ _

/-- All that comes behind the first character is digits. -/
theorem Spells.of_cons {c : Char} {s : Text} {i : Int} (h : Spells (c :: s) i) :
    (c.isDigit = true ∨ c = '+' ∨ c = '-') ∧ ∀ d ∈ s, d.isDigit = true := by
  cases h with
  | plain _ hdigits =>
    obtain ⟨hc, hs⟩ := List.forall_mem_cons.mp hdigits
    exact ⟨Or.inl hc, hs⟩
  | plus _ hdigits => exact ⟨Or.inr (Or.inl rfl), hdigits⟩
  | minus _ hdigits => exact ⟨Or.inr (Or.inr rfl), hdigits⟩

/-- The value of a digit, and the digit of that value. -/
theorem digitChar_of_isDigit {c : Char} (hc : c.isDigit = true) :
    c.toNat - '0'.toNat < 10 ∧ Nat.digitChar (c.toNat - '0'.toNat) = c := by
  have hlow : 48 ≤ c.toNat := by
    simp only [Char.isDigit, Bool.and_eq_true, decide_eq_true_eq] at hc
    exact hc.1
  have hhigh : c.toNat ≤ 57 := by
    simp only [Char.isDigit, Bool.and_eq_true, decide_eq_true_eq] at hc
    exact hc.2
  have table : ∀ n < 58, 48 ≤ n → n - 48 < 10 ∧ Nat.digitChar (n - 48) = Char.ofNat n := by
    decide
  have := table c.toNat (by omega) hlow
  rwa [Char.ofNat_toNat] at this

/-- **What holds of signs and digits** holds of the characters of an integer one by one. -/
theorem forall_mem_of_canonical? {P : Char → Prop} (minus : P '-') (plus : P '+')
    (digit : ∀ n < 10, P (Nat.digitChar n)) {s t : Text} (h : canonical? s = some t) :
    ∀ c ∈ s, P c := by
  obtain ⟨sign, digits, rfl, hsign, -, hdigits⟩ := shape_of_canonical? h
  intro c hc
  rcases List.mem_append.mp hc with hc | hc
  · rcases hsign with rfl | rfl | rfl
    · exact absurd hc List.not_mem_nil
    · exact List.mem_singleton.mp hc ▸ minus
    · exact List.mem_singleton.mp hc ▸ plus
  · obtain ⟨hlt, hchar⟩ := digitChar_of_isDigit (hdigits c hc)
    exact hchar ▸ digit _ hlt

theorem ne_nil_of_canonical? {s t : Text} (h : canonical? s = some t) : s ≠ [] := by
  rintro rfl
  exact absurd h (by simp [canonical?, splitSign])

/-- **Digits behind a positive number** are the last digits of the number that they go on
with. -/
theorem ofNat_ofDigitChars {digits : Text} (hdigits : ∀ c ∈ digits, c.isDigit = true) {n : Nat}
    (hn : 0 < n) : ofNat (Nat.ofDigitChars 10 digits n) = ofNat n ++ digits := by
  induction digits generalizing n with
  | nil => simp
  | cons c digits ih =>
    obtain ⟨hlt, hchar⟩ := digitChar_of_isDigit (hdigits c List.mem_cons_self)
    have hrest : ∀ d ∈ digits, d.isDigit = true := fun d hd =>
      hdigits d (List.mem_cons_of_mem _ hd)
    rw [Nat.ofDigitChars_cons, ih hrest (by omega), ofNat, ofNat,
      ← Nat.toDigits_append_toDigits (by omega) hn hlt, Nat.toDigits_of_lt_base hlt, hchar,
      List.append_assoc, List.singleton_append]

/-- **Digits without their leading zeros are those of the number.** Only zero has no digits
left then. -/
theorem dropWhile_zero {digits : Text} (hdigits : ∀ c ∈ digits, c.isDigit = true) :
    digits.dropWhile (· == '0') =
      if Decimal.digitsValue digits = 0 then [] else ofNat (Decimal.digitsValue digits) := by
  induction digits with
  | nil => rfl
  | cons c digits ih =>
    have hrest : ∀ d ∈ digits, d.isDigit = true := fun d hd =>
      hdigits d (List.mem_cons_of_mem _ hd)
    by_cases hc : c = '0'
    · subst hc
      have hvalue : Decimal.digitsValue ('0' :: digits) = Decimal.digitsValue digits := by
        rw [Decimal.digitsValue, Nat.ofDigitChars_cons]
        rfl
      rw [List.dropWhile_cons_of_pos (by decide), hvalue, ih hrest]
    · obtain ⟨hlt, hchar⟩ := digitChar_of_isDigit (hdigits c List.mem_cons_self)
      have hpos : 0 < c.toNat - '0'.toNat := by
        refine Nat.pos_of_ne_zero fun hzero => hc ?_
        rw [← hchar, hzero]
        rfl
      have hvalue : ofNat (Decimal.digitsValue (c :: digits)) = c :: digits := by
        rw [Decimal.digitsValue, Nat.ofDigitChars_cons, Nat.mul_zero, Nat.zero_add,
          ofNat_ofDigitChars hrest hpos, ofNat, Nat.toDigits_of_lt_base hlt, hchar,
          List.singleton_append]
      have hne : Decimal.digitsValue (c :: digits) ≠ 0 := by
        intro hzero
        rw [hzero] at hvalue
        exact hc (List.cons_eq_cons.mp hvalue).1.symm
      rw [List.dropWhile_cons_of_neg (by simpa using hc), if_neg hne, hvalue]

theorem splitSign_minus (digits : Text) : splitSign ('-' :: digits) = (true, digits) := rfl

theorem splitSign_plus (digits : Text) : splitSign ('+' :: digits) = (false, digits) := rfl

/-- Digits behind a sign denote the integer with that sign. -/
theorem canonical?_of_digits {s digits : Text} {negative : Bool}
    (hsplit : splitSign s = (negative, digits)) (hne : digits ≠ [])
    (hdigits : ∀ c ∈ digits, c.isDigit = true) :
    canonical? s = some (ofInt (if negative then -Decimal.digitsValue digits
      else Decimal.digitsValue digits)) := by
  have hall : digits.all Char.isDigit = true := List.all_eq_true.mpr hdigits
  have hempty : digits.isEmpty = false := by simpa using hne
  simp only [canonical?, hsplit, hall, hempty, dropWhile_zero hdigits]
  generalize Decimal.digitsValue digits = n
  cases n with
  | zero => cases negative <;> rfl
  | succ n =>
    obtain ⟨c, rest, hcons⟩ := List.exists_cons_of_ne_nil (ofNat_ne_nil (n + 1))
    rw [if_neg (Nat.succ_ne_zero n), hcons]
    cases negative with
    | false => exact congrArg some hcons.symm
    | true => exact congrArg (fun digits => some ('-' :: digits)) hcons.symm

/-- **The canonical text of a text that spells an integer** is the text of that integer, and
no other text has one. -/
theorem canonical?_eq_some_iff {s t : Text} :
    canonical? s = some t ↔ ∃ i, Spells s i ∧ t = ofInt i := by
  constructor
  · intro h
    obtain ⟨sign, digits, rfl, hsign, hne, hdigits⟩ := shape_of_canonical? h
    have hplain : splitSign digits = (false, digits) := by
      obtain ⟨c, rest, rfl⟩ := List.exists_cons_of_ne_nil hne
      exact splitSign_of_isDigit (hdigits c List.mem_cons_self) rest
    rcases hsign with rfl | rfl | rfl
    · rw [List.nil_append, canonical?_of_digits hplain hne hdigits] at h
      exact ⟨_, .plain hne hdigits, (Option.some_inj.mp h).symm⟩
    · rw [List.singleton_append, canonical?_of_digits (splitSign_minus _) hne hdigits] at h
      exact ⟨_, .minus hne hdigits, (Option.some_inj.mp h).symm⟩
    · rw [List.singleton_append, canonical?_of_digits (splitSign_plus _) hne hdigits] at h
      exact ⟨_, .plus hne hdigits, (Option.some_inj.mp h).symm⟩
  · rintro ⟨i, hspells, rfl⟩
    cases hspells with
    | plain hne hdigits =>
      obtain ⟨c, rest, rfl⟩ := List.exists_cons_of_ne_nil hne
      exact canonical?_of_digits (splitSign_of_isDigit (hdigits c List.mem_cons_self) rest) hne
        hdigits
    | plus hne hdigits => exact canonical?_of_digits (splitSign_plus _) hne hdigits
    | minus hne hdigits => exact canonical?_of_digits (splitSign_minus _) hne hdigits

/-- **What is read from a text that spells an integer**: a number if it has at most 64 bits,
else its canonical text. -/
theorem read?_eq_some_iff {s : Text} {v : Value} :
    read? s = some v ↔
      ∃ i, Spells s i ∧ v = if isNarrow i then .int (Int64.ofInt i) else .bigInt (ofInt i) := by
  simp only [read?, Option.map_eq_some_iff, canonical?_eq_some_iff]
  constructor
  · rintro ⟨_, ⟨i, hspells, rfl⟩, rfl⟩
    exact ⟨i, hspells, by rw [ofCanonical, valueOf_ofInt]⟩
  · rintro ⟨i, hspells, rfl⟩
    exact ⟨_, ⟨i, hspells, rfl⟩, by rw [ofCanonical, valueOf_ofInt]⟩

theorem read?_eq_none_iff {s : Text} : read? s = none ↔ ∀ i, ¬Spells s i := by
  rw [Option.eq_none_iff_forall_ne_some]
  constructor
  · exact fun h i hspells => h _ (read?_eq_some_iff.mpr ⟨i, hspells, rfl⟩)
  · rintro h v hv
    obtain ⟨i, hspells, -⟩ := read?_eq_some_iff.mp hv
    exact h i hspells

/-! ### Written integers are read back -/

theorem isNarrow_toInt (i : Int64) : isNarrow i.toInt = true := by
  simp only [isNarrow, Bool.and_eq_true, decide_eq_true_eq]
  exact ⟨Int64.minValue_le_toInt i, Int64.toInt_le i⟩

/-- An integer of at most 64 bits is kept as it is. -/
theorem toInt_ofInt_of_isNarrow {i : Int} (h : isNarrow i = true) : (Int64.ofInt i).toInt = i := by
  simp only [isNarrow, Bool.and_eq_true, decide_eq_true_eq, Int64.toInt_minValue,
    Int64.toInt_maxValue] at h
  exact Int64.toInt_ofInt_of_le h.1 (by omega)

/-- **A written integer of at most 64 bits is read back.** -/
theorem read?_ofInt (i : Int64) : read? (ofInt i.toInt) = some (.int i) := by
  have hnarrow : isNarrow i.toInt = true := isNarrow_toInt i
  rw [read?, canonical?_ofInt, Option.map_some, ofCanonical, valueOf_ofInt]
  simp only [hnarrow, if_pos, Int64.ofInt_toInt]

/-- **A canonical text of more than 64 bits is read as it is.** -/
theorem read?_of_wide {d : Text} (hd : canonical? d = some d) (hw : isNarrow (valueOf d) = false) :
    read? d = some (.bigInt d) := by
  simp [read?, hd, ofCanonical, hw]

end DesignRecipe.Integer
