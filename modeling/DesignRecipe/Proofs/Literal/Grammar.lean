import DesignRecipe.Value.Literal
import DesignRecipe.Proofs.Text.Blank
import DesignRecipe.Proofs.Value.Integer
import Mathlib.Data.List.Chain

/-!
# The grammar of literals

What a literal is, said without a reader: a word, a number, a string between two equal
quotes, or parts laid out between two brackets, with a comma after each part but perhaps
the last one and blanks wherever a part, a comma or a colon begins or ends.

The parts of a container are laid out as texts first (`Laid`), whatever they denote. So
one relation serves lists, tuples and dictionaries, and a literal is an induction over
its parts alone.
-/

namespace DesignRecipe.Literal

open Text (Blank)

/-! ### Scalars -/

/-- **The body of a string** between two quotes, and the text that it stands for. -/
inductive Body (quote : Char) : Text → Text → Prop
  | nil : Body quote [] []
  /-- A character that is neither the quote nor a backslash stands for itself. -/
  | plain {c : Char} {body text : Text} : c ≠ quote → c ≠ '\\' → Body quote body text →
      Body quote (c :: body) (c :: text)
  /-- A backslash and a character stand for one character. -/
  | escaped (c : Char) {body text : Text} : Body quote body text →
      Body quote ('\\' :: c :: body) (unescape c :: text)

/-- **The words that are literals**, and what they denote. -/
inductive Word : Text → Value → Prop
  | none : Word ['N', 'o', 'n', 'e'] .none
  | true : Word ['T', 'r', 'u', 'e'] (.bool true)
  | false : Word ['F', 'a', 'l', 's', 'e'] (.bool false)

/-- **A number as written**: it starts like a number, and each further character goes on
with it. -/
def NumberShaped (t : Text) : Prop :=
  (∃ c ∈ t.head?, startsNumber c = true) ∧ t.IsChain fun previous c => continuesNumber previous c

/-- **What a number as written denotes**, underscores aside: the integer that it spells, kept
as a number or as its digits according to its width, or else the double that it is read as. -/
inductive Number (written : Text) : Value → Prop
  | narrow {i : Int64} : Integer.Spells (written.filter (· != '_')) i.toInt →
      Number written (.int i)
  | wide {i : Int} : Integer.Spells (written.filter (· != '_')) i → Integer.isNarrow i = false →
      Number written (.bigInt (Text.ofInt i))
  | double {x : Float} : (∀ i, ¬Integer.Spells (written.filter (· != '_')) i) →
      (∃ c ∈ written, c.isDigit = true) → Decimal.read (written.filter (· != '_')) = some x →
      Number written (.float x)

/-! ### The layout of containers -/

/-- **Parts laid out between brackets.** The flag tells whether the last part has a comma
after it. -/
inductive Laid : List Text → Bool → Text → Prop
  | nil {blanks : Text} : Blank blanks → Laid [] false blanks
  /-- A last part without a comma. -/
  | last {before after part : Text} : Blank before → Blank after →
      Laid [part] false (before ++ part ++ after)
  /-- A part with a comma. -/
  | comma {before after part rest : Text} {parts : List Text} {trailing : Bool} :
      Blank before → Blank after → Laid parts trailing rest →
      Laid (part :: parts) (trailing || parts.isEmpty) (before ++ part ++ after ++ ',' :: rest)

/-- An entry of a dictionary as written, with what its parts denote and the blanks around
its colon. -/
structure Entry where
  keyText : Text
  key : Value
  before : Text
  after : Text
  valueText : Text
  value : Value

/-- The text of an entry. -/
def Entry.text (e : Entry) : Text := e.keyText ++ e.before ++ ':' :: (e.after ++ e.valueText)

/-! ### Literals -/

/-- **A text is a literal and denotes a value.** There are no blanks around it. The parts of a
list are any texts that denote its items, and so for the other containers. -/
inductive Denotes : Text → Value → Prop
  | word {t : Text} {v : Value} : Word t v → Denotes t v
  | number {t : Text} {v : Value} : NumberShaped t → Number t v → Denotes t v
  | string {quote : Char} {body text : Text} : quote = '"' ∨ quote = '\'' →
      Body quote body text → Denotes (quote :: body ++ [quote]) (.str text)
  | list {parts : List (Text × Value)} {trailing : Bool} {t : Text} :
      (∀ p ∈ parts, Denotes p.1 p.2) → Laid (parts.map Prod.fst) trailing t →
      Denotes ('[' :: t ++ [']']) (.list (parts.map Prod.snd))
  | parentheses {parts : List (Text × Value)} {trailing : Bool} {t : Text} :
      (∀ p ∈ parts, Denotes p.1 p.2) → Laid (parts.map Prod.fst) trailing t →
      Denotes ('(' :: t ++ [')']) (parenthesised (parts.map Prod.snd) trailing)
  | dict {entries : List Entry} {trailing : Bool} {t : Text} :
      (∀ e ∈ entries, Denotes e.keyText e.key) → (∀ e ∈ entries, Denotes e.valueText e.value) →
      (∀ e ∈ entries, Blank e.before ∧ Blank e.after) → Laid (entries.map Entry.text) trailing t →
      Denotes ('{' :: t ++ ['}']) (.dict (entries.map fun e => (e.key, e.value)))

/-! ### Words and numbers as they are read -/

theorem wordValue?_eq_some_iff {t : Text} {v : Value} : wordValue? t = some v ↔ Word t v := by
  constructor
  · intro h
    unfold wordValue? at h
    split at h
    · next ht =>
      obtain rfl := ht
      obtain rfl := Option.some_inj.mp h
      exact .none
    split at h
    · next ht =>
      obtain rfl := ht
      obtain rfl := Option.some_inj.mp h
      exact .true
    split at h
    · next ht =>
      obtain rfl := ht
      obtain rfl := Option.some_inj.mp h
      exact .false
    · exact absurd h (by simp)
  · rintro (_ | _ | _) <;> rfl

/-- The underscores of a number are no digits. -/
theorem any_isDigit_filter (written : Text) :
    (written.filter (· != '_')).any Char.isDigit = true ↔ ∃ c ∈ written, c.isDigit = true := by
  simp only [List.any_eq_true, List.mem_filter]
  refine exists_congr fun c => ⟨fun ⟨⟨hc, _⟩, hdigit⟩ => ⟨hc, hdigit⟩, ?_⟩
  rintro ⟨hc, hdigit⟩
  refine ⟨⟨hc, bne_iff_ne.mpr ?_⟩, hdigit⟩
  rintro rfl
  exact absurd hdigit (by decide)

theorem numberValue?_eq_some_iff {written : Text} {v : Value} :
    numberValue? written = some v ↔ Number written v := by
  rw [numberValue?]
  constructor
  · intro h
    split at h
    · next value hread =>
      obtain rfl := Option.some_inj.mp h
      obtain ⟨i, hspells, rfl⟩ := Integer.read?_eq_some_iff.mp hread
      split
      · next hnarrow =>
        refine .narrow ?_
        rwa [Integer.toInt_ofInt_of_isNarrow hnarrow]
      · next hwide => exact .wide hspells (by simpa using hwide)
    · next hread =>
      split at h
      · next hdigit =>
        obtain ⟨x, hx, rfl⟩ := Option.map_eq_some_iff.mp h
        exact .double (Integer.read?_eq_none_iff.mp hread)
          ((any_isDigit_filter written).mp hdigit) hx
      · exact absurd h (by simp)
  · rintro (@⟨i, hspells⟩ | ⟨hspells, hwide⟩ | ⟨hnone, hdigit, hx⟩)
    · rw [Integer.read?_eq_some_iff.mpr ⟨_, hspells, rfl⟩, if_pos (Integer.isNarrow_toInt i),
        Int64.ofInt_toInt]
    · rw [Integer.read?_eq_some_iff.mpr ⟨_, hspells, rfl⟩, if_neg (by simp [hwide])]
    · rw [Integer.read?_eq_none_iff.mpr hnone]
      simp only [if_pos ((any_isDigit_filter written).mpr hdigit), hx, Option.map_some]

end DesignRecipe.Literal
