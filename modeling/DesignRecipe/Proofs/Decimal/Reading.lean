import DesignRecipe.Proofs.Text.Blank
import DesignRecipe.Proofs.Value.Integer

/-!
# The texts of doubles

The reader of doubles accepts a text by its shape alone (`Decimal.exists_read_iff`): behind at most
one sign there is a word for a special value or a number, and a number is digits, with a point among
or around them or not, and an exponent or not. Which double it is does not matter here.

A text that is put together of texts of doubles can be taken apart again because of where their
signs stand. A sign starts the text, or it stands right behind the letter of an exponent; and that
letter is never the last character.
-/

namespace DesignRecipe.Decimal

/-- A sign. -/
def isSign (c : Char) : Bool := c == '+' || c == '-'

/-- The letter that an exponent starts with. -/
def isMark (c : Char) : Bool := c == 'e' || c == 'E'

theorem isSign_iff {c : Char} : isSign c = true ↔ c = '+' ∨ c = '-' := by simp [isSign]

theorem isMark_iff {c : Char} : isMark c = true ↔ c = 'e' ∨ c = 'E' := by simp [isMark]

/-- A text of digits, with none of them perhaps. -/
def Digits (s : Text) : Prop := ∀ c ∈ s, c.isDigit = true

/-! ### The shape of a double -/

/-- **An exponent part**: nothing at all, or a letter, at most one sign and digits. -/
inductive Exponent : Text → Prop
  | absent : Exponent []
  | plain {mark : Char} {digits : Text} : isMark mark = true → digits ≠ [] → Digits digits →
      Exponent (mark :: digits)
  | signed {mark sign : Char} {digits : Text} : isMark mark = true → isSign sign = true →
      digits ≠ [] → Digits digits → Exponent (mark :: sign :: digits)

/-- **A number without sign.** There is a digit before the point or behind it. -/
inductive Number : Text → Prop
  | whole {whole exponent : Text} : whole ≠ [] → Digits whole → Exponent exponent →
      Number (whole ++ exponent)
  | pointed {whole fraction exponent : Text} : whole ≠ [] ∨ fraction ≠ [] → Digits whole →
      Digits fraction → Exponent exponent → Number (whole ++ '.' :: (fraction ++ exponent))

/-- The words for special values. -/
def words : List Text :=
  [['n', 'a', 'n'], ['i', 'n', 'f'], ['i', 'n', 'f', 'i', 'n', 'i', 't', 'y']]

/-- **A double without sign**: a word in any ASCII case, or a number. -/
inductive Unsigned : Text → Prop
  | word {s : Text} : s.map Char.toLower ∈ words → Unsigned s
  | number {s : Text} : Number s → Unsigned s

/-- **The shape of a double**: at most one sign stands in front. -/
inductive Shaped : Text → Prop
  | unsigned {s : Text} : Unsigned s → Shaped s
  | signed {sign : Char} {s : Text} : isSign sign = true → Unsigned s → Shaped (sign :: s)

/-! ### What the reader accepts -/

variable {s : Text}

theorem readExponent_cons (mark : Char) (rest : Text) : readExponent (mark :: rest) =
    if mark = 'e' || mark = 'E' then
      if (Integer.splitSign rest).2.isEmpty || !(Integer.splitSign rest).2.all Char.isDigit then
        none
      else
        some (if (Integer.splitSign rest).1 then -(digitsValue (Integer.splitSign rest).2 : Int)
          else digitsValue (Integer.splitSign rest).2)
    else none := rfl

/-- **The exponents that are read.** -/
theorem exists_readExponent_iff : (∃ e, readExponent s = some e) ↔ Exponent s := by
  constructor
  · rintro ⟨e, he⟩
    cases s with
    | nil => exact .absent
    | cons mark rest =>
      have hread : isMark mark = true ∧ (Integer.splitSign rest).2 ≠ [] ∧
          Digits (Integer.splitSign rest).2 := by
        rw [readExponent_cons] at he
        split at he
        · next hmark =>
          split at he
          · exact absurd he (by simp)
          · next hdigits => exact ⟨by simpa [isMark] using hmark, by simpa [Digits] using hdigits⟩
        · exact absurd he (by simp)
      obtain ⟨hmark, hne, hall⟩ := hread
      obtain ⟨sign, hrest, hsign⟩ := Integer.exists_sign rest
      rw [hrest]
      rcases hsign with rfl | rfl | rfl
      · exact .plain hmark hne hall
      · exact .signed hmark (by decide) hne hall
      · exact .signed hmark (by decide) hne hall
  · intro h
    have haccepts {mark : Char} {rest digits : Text} (hmark : isMark mark = true)
        (hrest : (Integer.splitSign rest).2 = digits) (hne : digits ≠ []) (hall : Digits digits) :
        ∃ e, readExponent (mark :: rest) = some e := by
      have hmark : (mark = 'e' || mark = 'E') = true := by simpa [isMark] using hmark
      have hdigits : ¬((digits.isEmpty || !digits.all Char.isDigit) = true) := by
        simpa [Digits] using And.intro hne hall
      rw [readExponent_cons, hrest, if_pos hmark, if_neg hdigits]
      exact ⟨_, rfl⟩
    cases h with
    | absent => exact ⟨0, rfl⟩
    | @plain mark digits hmark hne hall =>
      obtain ⟨c, rest, rfl⟩ := List.exists_cons_of_ne_nil hne
      have hsplit := Integer.splitSign_of_isDigit (hall c List.mem_cons_self) rest
      exact haccepts hmark (congrArg Prod.snd hsplit) hne hall
    | @signed mark sign digits hmark hsign hne hall =>
      refine haccepts hmark ?_ hne hall
      rcases isSign_iff.mp hsign with rfl | rfl <;> rfl

/-- The digits that a text starts with are told from the rest by its first character. -/
theorem takeWhile_isDigit_append {digits : Text} (hdigits : Digits digits) (rest : Text)
    (hrest : ∀ c ∈ rest.head?, c.isDigit = false) :
    (digits ++ rest).takeWhile Char.isDigit = digits ∧
      (digits ++ rest).dropWhile Char.isDigit = rest := by
  rw [List.takeWhile_append_of_pos hdigits, List.dropWhile_append_of_pos hdigits]
  cases rest with
  | nil => simp
  | cons c rest => simp [hrest c rfl]

/-- An exponent starts with its letter, which is neither a digit nor the point nor a sign. -/
theorem Exponent.head (h : Exponent s) :
    ∀ c ∈ s.head?, isMark c = true ∧ c.isDigit = false ∧ c ≠ '.' ∧ isSign c = false := by
  have hfacts {mark : Char} (hmark : isMark mark = true) :
      mark.isDigit = false ∧ mark ≠ '.' ∧ isSign mark = false := by
    rcases isMark_iff.mp hmark with rfl | rfl <;> decide
  cases h with
  | absent => simp
  | plain hmark => rintro c ⟨⟩; exact ⟨hmark, hfacts hmark⟩
  | signed hmark => rintro c ⟨⟩; exact ⟨hmark, hfacts hmark⟩

theorem readNumber_whole {whole rest : Text} (hwhole : Digits whole)
    (hrest : ∀ c ∈ rest.head?, c.isDigit = false ∧ c ≠ '.') : readNumber (whole ++ rest) =
      if whole.isEmpty then none
      else (readExponent rest).map fun exponent => nearest (digitsValue whole) exponent := by
  obtain ⟨htake, hdrop⟩ := takeWhile_isDigit_append hwhole rest fun c hc => (hrest c hc).1
  simp only [readNumber, htake, hdrop]
  split
  · next more => exact absurd rfl (hrest '.' rfl).2
  · simp

theorem readNumber_pointed {whole fraction rest : Text} (hwhole : Digits whole)
    (hfraction : Digits fraction) (hrest : ∀ c ∈ rest.head?, c.isDigit = false) :
    readNumber (whole ++ '.' :: (fraction ++ rest)) =
      if whole.isEmpty && fraction.isEmpty then none
      else (readExponent rest).map fun exponent =>
        nearest (digitsValue (whole ++ fraction)) (exponent - fraction.length) := by
  obtain ⟨htake, hdrop⟩ := takeWhile_isDigit_append hwhole ('.' :: (fraction ++ rest))
    fun c hc => Option.mem_some_iff.mp hc ▸ by decide
  obtain ⟨htake', hdrop'⟩ := takeWhile_isDigit_append hfraction rest hrest
  simp only [readNumber, htake, hdrop, htake', hdrop']

/-- What is left of a text behind its digits starts with no digit. -/
theorem isDigit_head?_dropWhile (s : Text) :
    ∀ c ∈ (s.dropWhile Char.isDigit).head?, c.isDigit = false := by
  intro c hc
  have hhead := List.head?_dropWhile_not Char.isDigit s
  rw [Option.mem_def.mp hc] at hhead
  simpa using hhead

/-- **The numbers that are read.** -/
theorem exists_readNumber_iff : (∃ x, readNumber s = some x) ↔ Number s := by
  constructor
  · rintro ⟨x, hx⟩
    have hwhole : Digits (s.takeWhile Char.isDigit) := fun c hc => List.mem_takeWhile_imp hc
    have hhead := isDigit_head?_dropWhile s
    have hs : s.takeWhile Char.isDigit ++ s.dropWhile Char.isDigit = s :=
      List.takeWhile_append_dropWhile
    generalize s.takeWhile Char.isDigit = whole at hwhole hs
    generalize s.dropWhile Char.isDigit = rest at hhead hs
    subst hs
    by_cases hpoint : ∃ more, rest = '.' :: more
    · obtain ⟨more, rfl⟩ := hpoint
      have hfraction : Digits (more.takeWhile Char.isDigit) := fun c hc => List.mem_takeWhile_imp hc
      have hmore : more.takeWhile Char.isDigit ++ more.dropWhile Char.isDigit = more :=
        List.takeWhile_append_dropWhile
      rw [← hmore, readNumber_pointed hwhole hfraction (isDigit_head?_dropWhile more)] at hx
      rw [← hmore]
      split_ifs at hx with hempty
      obtain ⟨e, he, -⟩ := Option.map_eq_some_iff.mp hx
      refine .pointed ?_ hwhole hfraction (exists_readExponent_iff.mp ⟨e, he⟩)
      rw [Bool.and_eq_true, List.isEmpty_iff, List.isEmpty_iff] at hempty
      exact not_and_or.mp hempty
    · have hrest : ∀ c ∈ rest.head?, c.isDigit = false ∧ c ≠ '.' := by
        refine fun c hc => ⟨hhead c hc, ?_⟩
        rintro rfl
        exact hpoint (List.head?_eq_some_iff.mp hc)
      rw [readNumber_whole hwhole hrest] at hx
      split_ifs at hx with hempty
      obtain ⟨e, he, -⟩ := Option.map_eq_some_iff.mp hx
      exact .whole (by simpa using hempty) hwhole (exists_readExponent_iff.mp ⟨e, he⟩)
  · intro h
    cases h with
    | whole hne hwhole hexponent =>
      obtain ⟨e, he⟩ := exists_readExponent_iff.mpr hexponent
      rw [readNumber_whole hwhole fun c hc =>
        ⟨(hexponent.head c hc).2.1, (hexponent.head c hc).2.2.1⟩, if_neg (by simpa using hne), he]
      exact ⟨_, rfl⟩
    | pointed hne hwhole hfraction hexponent =>
      obtain ⟨e, he⟩ := exists_readExponent_iff.mpr hexponent
      rw [readNumber_pointed hwhole hfraction fun c hc => (hexponent.head c hc).2.1,
        if_neg (by simpa [← not_and_or] using hne), he]
      exact ⟨_, rfl⟩

/-- A number starts with a digit or the point. -/
theorem Number.head (h : Number s) : ∃ c ∈ s.head?, c.isDigit = true ∨ c = '.' := by
  cases h with
  | @whole whole exponent hne hwhole =>
    obtain ⟨c, rest, rfl⟩ := List.exists_cons_of_ne_nil hne
    exact ⟨c, rfl, Or.inl (hwhole c List.mem_cons_self)⟩
  | @pointed whole fraction exponent _ hwhole =>
    cases whole with
    | nil => exact ⟨'.', rfl, Or.inr rfl⟩
    | cons c rest => exact ⟨c, rfl, Or.inl (hwhole c List.mem_cons_self)⟩

/-- **The characters of a word** are no blanks, signs or brackets, and none starts an exponent. -/
theorem notMem_of_word (h : s.map Char.toLower ∈ words) :
    ∀ c ∈ s, Text.isBlank c = false ∧ c ∉ ['_', '(', '+', '-', 'e', 'E'] := by
  intro c hc
  have hlower : c.toLower ∈ s.map Char.toLower := List.mem_map_of_mem hc
  refine ⟨?_, fun hmem => ?_⟩
  · by_contra hblank
    rw [Bool.not_eq_false] at hblank
    exact Text.forall_isBlank (P := fun c => ∀ word ∈ words, c.toLower ∉ word) (by decide) hblank
      _ h hlower
  · have hothers : ∀ d ∈ ['_', '(', '+', '-', 'e', 'E'], ∀ word ∈ words, d.toLower ∉ word := by
      simp [words]
    exact hothers c hmem _ h hlower

/-- A digit is no sign, no letter of an exponent, no blank and no bracket. -/
theorem notMem_of_isDigit {c : Char} (h : c.isDigit = true) :
    Text.isBlank c = false ∧ c ∉ ['_', '(', '+', '-', 'e', 'E'] := by
  have hdigits : ∀ n < 10, Text.isBlank (Nat.digitChar n) = false ∧
      Nat.digitChar n ∉ ['_', '(', '+', '-', 'e', 'E'] := by decide
  obtain ⟨hlt, hchar⟩ := Integer.digitChar_of_isDigit h
  exact hchar ▸ hdigits _ hlt

/-- Digits start with no sign. -/
theorem Digits.head (h : Digits s) : ∀ c ∈ s.head?, isSign c = false := by
  intro c hc
  have hnotMem := (notMem_of_isDigit (h c (List.mem_of_mem_head? hc))).2
  simp_all [isSign]

theorem readUnsigned_of_notMem (h : s.map Char.toLower ∉ words) :
    readUnsigned s = readNumber s := by
  rw [readUnsigned]
  split
  · next heq => exact absurd (heq ▸ by decide) h
  · next heq => exact absurd (heq ▸ by decide) h
  · next heq => exact absurd (heq ▸ by decide) h
  · rfl

/-- **The doubles without sign that are read.** -/
theorem exists_readUnsigned_iff : (∃ x, readUnsigned s = some x) ↔ Unsigned s := by
  by_cases hword : s.map Char.toLower ∈ words
  · refine iff_of_true ?_ (.word hword)
    have hcases : s.map Char.toLower = ['n', 'a', 'n'] ∨ s.map Char.toLower = ['i', 'n', 'f'] ∨
        s.map Char.toLower = ['i', 'n', 'f', 'i', 'n', 'i', 't', 'y'] := by
      simpa [words] using hword
    rw [readUnsigned]
    rcases hcases with h | h | h <;> rw [h] <;> exact ⟨_, rfl⟩
  · rw [readUnsigned_of_notMem hword, exists_readNumber_iff]
    constructor
    · exact .number
    · rintro (h | h)
      · exact absurd h hword
      · exact h

/-- A double without sign starts with no sign. -/
theorem Unsigned.head (h : Unsigned s) : ∀ c ∈ s.head?, isSign c = false := by
  intro c hc
  by_contra hsign
  rw [Bool.not_eq_false, isSign_iff] at hsign
  cases h with
  | word hword =>
    have hnotMem := (notMem_of_word hword c (List.mem_of_mem_head? hc)).2
    rcases hsign with rfl | rfl <;> simp at hnotMem
  | number hnumber =>
    obtain ⟨d, hd, hdigit⟩ := hnumber.head
    obtain rfl : c = d := Option.mem_unique hc hd
    rcases hsign with rfl | rfl <;> exact absurd hdigit (by decide)

theorem Unsigned.ne_nil (h : Unsigned s) : s ≠ [] := by
  rintro rfl
  rcases h with hword | hnumber
  · exact absurd hword (by decide)
  · obtain ⟨c, hc, -⟩ := hnumber.head
    exact absurd hc (by simp)

theorem read_of_head (h : ∀ c ∈ s.head?, isSign c = false) : read s = readUnsigned s := by
  rw [read.eq_def]
  split
  · exact absurd (h '-' rfl) (by decide)
  · exact absurd (h '+' rfl) (by decide)
  · rfl

/-- **The texts of doubles.** -/
theorem exists_read_iff : (∃ x, read s = some x) ↔ Shaped s := by
  constructor
  · rintro ⟨x, hx⟩
    rw [read.eq_def] at hx
    split at hx
    · obtain ⟨y, hy, -⟩ := Option.map_eq_some_iff.mp hx
      exact .signed (by decide) (exists_readUnsigned_iff.mp ⟨y, hy⟩)
    · exact .signed (by decide) (exists_readUnsigned_iff.mp ⟨x, hx⟩)
    · exact .unsigned (exists_readUnsigned_iff.mp ⟨x, hx⟩)
  · rintro (h | ⟨hsign, h⟩)
    · rw [read_of_head h.head]
      exact exists_readUnsigned_iff.mpr h
    · obtain ⟨x, hx⟩ := exists_readUnsigned_iff.mpr h
      rcases isSign_iff.mp hsign with rfl | rfl
      · exact ⟨x, hx⟩
      · exact ⟨-x, by rw [read, hx, Option.map_some]⟩

end DesignRecipe.Decimal
