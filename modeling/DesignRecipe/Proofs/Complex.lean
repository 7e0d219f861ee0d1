import DesignRecipe.Proofs.Decimal.Reading
import DesignRecipe.Proofs.Text.Trimming
import DesignRecipe.Coercion
import Mathlib.Data.List.Chain

/-!
# Complex numbers

A complex number is split before its last sign that belongs to no exponent. The real part in front
of that sign may be any double and the imaginary part behind it any double without a sign: the split
finds the sign between them (`splitAtSign_append`), and it finds none in a double that stands alone
(`splitAtSign_eq_none`). What makes this work is said of the text of a double at once (`Operand`):
none of its signs joins two parts, and its last character is not the letter of an exponent, so that
the sign behind it does join.
-/

namespace DesignRecipe.Coercion

open Decimal (isSign isMark Digits Exponent Number Unsigned Shaped)

variable {s t before after : Text} {c sign unit : Char} {recognized : List Text}

theorem joinsAt_eq (previous c : Char) : joinsAt previous c = (isSign c && !isMark previous) := rfl

theorem joinsAt_of_isSign {previous : Char} (h : isSign c = false) :
    joinsAt previous c = false := by
  rw [joinsAt_eq, h]
  rfl

/-- **No sign in the text joins two parts**, its first character aside. -/
def Unjoined (s : Text) : Prop := s.IsChain fun previous c => joinsAt previous c = false

/-! ### Splitting at a sign -/

theorem splitAtSign_eq_none (h : Unjoined s) : splitAtSign s = none := by
  induction h with
  | nil => rfl
  | singleton c => rfl
  | cons_cons hjoins _ ih =>
    rw [splitAtSign, ih]
    simp [hjoins]

/-- **The split is found where a sign stands**, if none joins behind it. -/
theorem splitAtSign_append (hne : before ≠ []) (hlast : ∀ c ∈ before.getLast?, isMark c = false)
    (hsign : isSign sign = true) (hafter : Unjoined (sign :: after)) :
    splitAtSign (before ++ sign :: after) = some (before, sign :: after) := by
  induction before with
  | nil => exact absurd rfl hne
  | cons c before ih =>
    cases before with
    | nil =>
      have hjoins : joinsAt c sign = true := by
        rw [joinsAt_eq, hsign, hlast c rfl]
        rfl
      rw [List.singleton_append, splitAtSign, splitAtSign_eq_none hafter]
      exact if_pos hjoins
    | cons d before =>
      rw [List.cons_append, List.cons_append, splitAtSign, ← List.cons_append,
        ih (List.cons_ne_nil _ _) (by simpa using hlast)]

/-! ### The parts of a complex number -/

/-- **A text that may stand in front of a joining sign.** -/
structure Operand (s : Text) : Prop where
  chars : ∀ c ∈ s, Text.isBlank c = false ∧ c ∉ ['_', '(']
  unjoined : Unjoined s
  last : ∀ c ∈ s.getLast?, isMark c = false

theorem Operand.append (hs : Operand s) (ht : Operand t)
    (hhead : ∀ c ∈ t.head?, isSign c = false) : Operand (s ++ t) where
  chars := List.forall_mem_append.mpr ⟨hs.chars, ht.chars⟩
  unjoined := List.isChain_append.mpr ⟨hs.unjoined, ht.unjoined, fun _ _ c hc =>
    joinsAt_of_isSign (hhead c hc)⟩
  last := by
    intro c hc
    rw [List.getLast?_append, Option.mem_def, Option.or_eq_some_iff] at hc
    rcases hc with hc | ⟨-, hc⟩
    · exact ht.last c hc
    · exact hs.last c hc

/-- One more character in front changes nothing at the end. -/
theorem Operand.cons (hs : Operand s) (hne : s ≠ [])
    (hc : Text.isBlank c = false ∧ c ∉ ['_', '(']) (hhead : ∀ d ∈ s.head?, joinsAt c d = false) :
    Operand (c :: s) where
  chars := List.forall_mem_cons.mpr ⟨hc, hs.chars⟩
  unjoined := List.isChain_cons.mpr ⟨hhead, hs.unjoined⟩
  last := by
    rw [← List.singleton_append, List.getLast?_append_of_ne_nil _ hne]
    exact hs.last

/-- A sign may stand in front, where no other sign follows it. -/
theorem Operand.sign_cons (hs : Operand s) (hne : s ≠ []) (hsign : isSign sign = true)
    (hhead : ∀ d ∈ s.head?, isSign d = false) : Operand (sign :: s) := by
  refine hs.cons hne ?_ fun d hd => joinsAt_of_isSign (hhead d hd)
  rcases Decimal.isSign_iff.mp hsign with rfl | rfl <;> decide

/-- **A text without signs and letters of exponents** can stand there. -/
theorem Operand.of_forall
    (h : ∀ c ∈ s, Text.isBlank c = false ∧ c ∉ ['_', '(', '+', '-', 'e', 'E']) : Operand s where
  chars c hc := ⟨(h c hc).1, fun hmem => (h c hc).2 (List.mem_append_left _ hmem)⟩
  unjoined := by
    refine List.Pairwise.isChain (List.pairwise_of_forall_mem_list fun previous _ c hc => ?_)
    have hnotMem := (h c hc).2
    exact joinsAt_of_isSign (by simp_all [isSign])
  last := by
    intro c hc
    have hnotMem := (h c (List.mem_of_getLast? hc)).2
    simp_all [isMark]

theorem Operand.digits (h : Digits s) : Operand s :=
  .of_forall fun c hc => Decimal.notMem_of_isDigit (h c hc)

theorem Operand.exponent (h : Exponent s) : Operand s := by
  have hmarks {mark : Char} (hmark : isMark mark = true) :
      Text.isBlank mark = false ∧ mark ∉ ['_', '('] := by
    rcases Decimal.isMark_iff.mp hmark with rfl | rfl <;> decide
  cases h with
  | absent => exact .of_forall (List.forall_mem_nil _)
  | plain hmark hne hall =>
    exact .cons (.digits hall) hne (hmarks hmark) fun d hd => joinsAt_of_isSign (hall.head d hd)
  | @signed mark sign digits hmark hsign hne hall =>
    have hsigned : Operand (sign :: digits) := (Operand.digits hall).sign_cons hne hsign hall.head
    refine hsigned.cons (List.cons_ne_nil _ _) (hmarks hmark) ?_
    -- The sign belongs to the exponent because the letter stands right in front of it.
    rintro d ⟨⟩
    rw [joinsAt_eq, hmark, hsign]
    rfl

theorem Operand.number (h : Number s) : Operand s := by
  cases h with
  | whole _ hwhole hexponent =>
    exact (Operand.digits hwhole).append (.exponent hexponent) fun c hc =>
      (hexponent.head c hc).2.2.2
  | pointed _ hwhole hfraction hexponent =>
    have hpoint : Operand ['.'] := .of_forall (List.forall_mem_singleton.mpr (by decide))
    have hparts := (((Operand.digits hwhole).append hpoint (by simp [isSign])).append
      (.digits hfraction) hfraction.head).append (.exponent hexponent) fun c hc =>
        (hexponent.head c hc).2.2.2
    simpa using hparts

theorem Operand.unsigned (h : Unsigned s) : Operand s := by
  rcases h with hword | hnumber
  · exact .of_forall (Decimal.notMem_of_word hword)
  · exact .number hnumber

/-- **The text of a double** may stand in front of a joining sign. -/
theorem Operand.of_read {x : Float} (hread : Decimal.read s = some x) : Operand s ∧ s ≠ [] := by
  rcases Decimal.exists_read_iff.mp ⟨x, hread⟩ with h | ⟨hsign, h⟩
  · exact ⟨.unsigned h, h.ne_nil⟩
  · exact ⟨(Operand.unsigned h).sign_cons h.ne_nil hsign h.head, List.cons_ne_nil _ _⟩

/-! ### Reading the parts -/

/-- The text of a double has no underscores to drop. -/
theorem readFloat_eq_some {x : Float} (h : Decimal.read s = some x) : readFloat s = some x := by
  have hunderscore : dropUnderscores s = s := by
    refine List.filter_eq_self.mpr fun c hc => ?_
    have hmem := ((Operand.of_read h).1.chars c hc).2
    simp_all
  rw [readFloat, hunderscore, h]

/-- A bare sign is the text of no double, so no double is taken for one. -/
theorem readImaginary_eq_some {x : Float} (h : Decimal.read s = some x) :
    readImaginary s = some x := by
  have hsigns : ∀ t ∈ [[], ['+'], ['-']], s ≠ t := by
    rintro t ht rfl
    have hnone : ∀ t ∈ [[], ['+'], ['-']], Decimal.read t = none := by
      simp [Decimal.read, Decimal.readUnsigned, Decimal.readNumber]
    rw [hnone s ht] at h
    exact absurd h (by simp)
  simp only [List.mem_cons, List.not_mem_nil, or_false, forall_eq_or_imp, forall_eq] at hsigns
  obtain ⟨hempty, hplus, hminus⟩ := hsigns
  rw [readImaginary, if_neg (not_or.mpr ⟨hempty, hplus⟩), if_neg hminus, readFloat_eq_some h]

/-- What stands in front of the unit, read in one part or in two. -/
def readParts (body : Text) : Option (Float × Float) :=
  match splitAtSign body with
  | some (before, after) =>
    match readFloat before, readImaginary after with
    | some re, some im => some (re, im)
    | _, _ => none
  | none => (readImaginary body).map fun im => (0, im)

/-- The ways to spell a complex number: with parentheses around it or without. -/
def spellings (s : Text) : List Text := [s, '(' :: s ++ [')']]

variable {a b body token : Text} {re im x : Float}

/-- **Neither the parentheses nor the unit get in the way** of the parts. -/
theorem readComplex_spelling (hunit : unit = 'j' ∨ unit = 'J')
    (hbody : ∀ c ∈ body.head?, Text.isBlank c = false ∧ c ≠ '(') (hne : body ≠ [])
    (htoken : token ∈ spellings (body ++ [unit])) :
    readComplex (Text.trim token) = readParts body := by
  obtain ⟨c, rest, rfl⟩ := List.exists_cons_of_ne_nil hne
  obtain ⟨hc, hparenthesis⟩ := hbody c rfl
  have hblank : Text.isBlank unit = false := by rcases hunit with rfl | rfl <;> decide
  have htight : Text.Tight (c :: rest ++ [unit]) := .ends hc hblank rest
  have hdrop : dropParentheses (Text.trim token) = c :: rest ++ [unit] := by
    simp only [spellings, List.mem_cons, List.not_mem_nil, or_false] at htoken
    rcases htoken with rfl | rfl
    · rw [htight.trim, List.cons_append, dropParentheses]
      rintro _ ⟨⟩
      exact absurd rfl hparenthesis
    · rw [(Text.Tight.ends (by decide) (by decide) _).trim, List.cons_append, dropParentheses,
        if_pos List.getLast?_concat, List.dropLast_concat]
  rw [readComplex, hdrop, htight.trim, List.getLast?_concat, List.dropLast_concat,
    if_pos (by simpa using hunit)]
  rfl

theorem coerce_complex_eq_ok (hmem : Primitive.complex.tag ∈ recognized)
    (hnone : token ≠ ['N', 'o', 'n', 'e'])
    (hread : readComplex (Text.trim token) = some (re, im)) :
    coerce recognized token Primitive.complex.tag = .ok (.complex re im) := by
  have htag : Primitive.ofTag? Primitive.complex.tag = some .complex := by decide
  simp only [coerce, if_neg hnone, if_pos hmem, htag, readAs?, hread, Option.map_some]

/-- The word for the absent value ends with no unit. -/
theorem ne_none_of_mem_spellings (hunit : unit = 'j' ∨ unit = 'J')
    (htoken : token ∈ spellings (body ++ [unit])) : token ≠ ['N', 'o', 'n', 'e'] := by
  rintro rfl
  simp only [spellings, List.mem_cons, List.not_mem_nil, or_false] at htoken
  rcases htoken with h | h
  · have hlast := congrArg List.getLast? h
    rw [List.getLast?_concat] at hlast
    rcases hunit with rfl | rfl <;> exact absurd hlast (by decide)
  · exact absurd (List.cons_eq_cons.mp h).1 (by decide)

/-- **A complex number is coerced to its parts**, in either spelling. -/
theorem coerce_spelling (hmem : Primitive.complex.tag ∈ recognized)
    (hunit : unit = 'j' ∨ unit = 'J') (ha : Decimal.read a = some x) {rest : Text}
    (hparts : readParts (a ++ rest) = some (re, im)) :
    ∀ token ∈ spellings (a ++ rest ++ [unit]),
      coerce recognized token Primitive.complex.tag = .ok (.complex re im) := by
  intro token htoken
  obtain ⟨hoperand, hne⟩ := Operand.of_read ha
  have hhead : ∀ c ∈ (a ++ rest).head?, Text.isBlank c = false ∧ c ≠ '(' := by
    intro c hc
    rw [List.head?_append_of_ne_nil _ hne] at hc
    obtain ⟨hblank, hmem⟩ := hoperand.chars c (List.mem_of_mem_head? hc)
    exact ⟨hblank, by rintro rfl; simp at hmem⟩
  refine coerce_complex_eq_ok hmem (ne_none_of_mem_spellings hunit htoken) ?_
  rw [readComplex_spelling hunit hhead (by simp [hne]) htoken, hparts]

/-- The two parts are split at the sign between them. -/
theorem readParts_append (ha : Decimal.read a = some re) (hsign : isSign sign = true)
    (hafter : Unjoined (sign :: b)) (him : readImaginary (sign :: b) = some im) :
    readParts (a ++ sign :: b) = some (re, im) := by
  obtain ⟨hoperand, hne⟩ := Operand.of_read ha
  rw [readParts, splitAtSign_append hne hoperand.last hsign hafter]
  simp only [readFloat_eq_some ha, him]

/-- **Complex numbers split at the right sign.** Behind the real part there are a sign and a double,
a sign alone, which stands for one, or nothing at all; then the double is the imaginary part. -/
theorem coerce_complex (hmem : Primitive.complex.tag ∈ recognized)
    (ha : Decimal.read a = some x) (hunit : unit = 'j' ∨ unit = 'J') :
    (∀ sign b y, isSign sign = true → Decimal.read b = some y →
      (∀ c ∈ b.head?, isSign c = false) →
      ∃ im, Decimal.read (sign :: b) = some im ∧
        ∀ token ∈ spellings (a ++ sign :: b ++ [unit]),
          coerce recognized token Primitive.complex.tag = .ok (.complex x im)) ∧
    (∀ token ∈ spellings (a ++ ['+'] ++ [unit]),
      coerce recognized token Primitive.complex.tag = .ok (.complex x 1)) ∧
    (∀ token ∈ spellings (a ++ ['-'] ++ [unit]),
      coerce recognized token Primitive.complex.tag = .ok (.complex x (-1))) ∧
    (∀ token ∈ spellings (a ++ [unit]),
      coerce recognized token Primitive.complex.tag = .ok (.complex 0 x)) := by
  refine ⟨fun sign b y hsign hb hhead => ?_, ?_, ?_, ?_⟩
  · have hunsigned : Unsigned b := by
      rcases Decimal.exists_read_iff.mp ⟨y, hb⟩ with h | ⟨hsigned, h⟩
      · exact h
      · exact absurd (hhead _ rfl) (by simp [hsigned])
    obtain ⟨im, him⟩ := Decimal.exists_read_iff.mpr (.signed hsign hunsigned)
    refine ⟨im, him, coerce_spelling hmem hunit ha ?_⟩
    exact readParts_append ha hsign (Operand.of_read him).1.unjoined (readImaginary_eq_some him)
  · exact coerce_spelling hmem hunit ha
      (readParts_append ha (by decide) (List.IsChain.singleton _) rfl)
  · exact coerce_spelling hmem hunit ha
      (readParts_append ha (by decide) (List.IsChain.singleton _) rfl)
  · have hparts : readParts (a ++ []) = some (0, x) := by
      rw [List.append_nil, readParts, splitAtSign_eq_none (Operand.of_read ha).1.unjoined]
      simp only [readImaginary_eq_some ha, Option.map_some]
    simpa using coerce_spelling hmem hunit ha hparts

/-- The signs of the exponents do not join, in parentheses and with the capital unit. -/
theorem coerce_complex_exponents : ∃ re im,
    Decimal.read ("1e+5" : Text) = some re ∧ Decimal.read ("-2.5e-3" : Text) = some im ∧
      coerce [Primitive.complex.tag] ("(1e+5-2.5e-3J)" : Text) Primitive.complex.tag =
        .ok (.complex re im) := by
  obtain ⟨re, hre⟩ : ∃ re, Decimal.read ("1e+5" : Text) = some re := ⟨_, rfl⟩
  obtain ⟨y, hy⟩ : ∃ y, Decimal.read ("2.5e-3" : Text) = some y := ⟨_, rfl⟩
  have hmem : Primitive.complex.tag ∈ [Primitive.complex.tag] := List.mem_singleton_self _
  obtain ⟨hboth, -⟩ := coerce_complex hmem hre (Or.inr rfl : 'J' = 'j' ∨ 'J' = 'J')
  obtain ⟨im, him, hcoerce⟩ := hboth '-' _ y rfl hy (by simp [isSign])
  exact ⟨re, im, hre, him, hcoerce _ (by decide)⟩

end DesignRecipe.Coercion
