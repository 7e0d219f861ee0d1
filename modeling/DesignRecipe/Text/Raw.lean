import DesignRecipe.Text.Basic

/-!
# Texts as the system gives them

The names of files, the arguments of a run and the lines of its input come as bytes, and these
need not be a text. A **raw text** is what they are taken for: the characters that they spell and,
between these, the stretches of bytes that spell none. Paths are put together and taken apart as
raw texts, and only what has to be a text is read as one. There are two ways to do so, and they
differ on what is no text:

| reading | a stretch that spells no character | |
|---|---|---|
| strict | leaves no text at all | `DesignRecipe.RawText.text?` |
| lossy | is shown as one replacement character | `DesignRecipe.RawText.shown` |
-/

namespace DesignRecipe

/-- A character, or a stretch of bytes that spell none: those that begin a character which is
not completed, or a byte that begins none. -/
inductive RawChar
  | char (c : Char)
  | stray (first : UInt8) (more : List UInt8)
deriving DecidableEq, Repr

/-- The bytes of a character or a stretch, as numbers. -/
def RawChar.octets : RawChar → List Nat
  | .char c => (String.utf8EncodeChar c).map UInt8.toNat
  | .stray first more => (first :: more).map UInt8.toNat

/-- The character that stands for a stretch of bytes where one is needed. -/
def RawChar.shown : RawChar → Char
  | .char c => c
  | .stray _ _ => '\uFFFD'

/-- A text as the system gives it. -/
abbrev RawText := List RawChar

namespace RawText

/-- A text, taken as it is. -/
def ofText (s : Text) : RawText := s.map .char

instance : Coe Text RawText := ⟨ofText⟩

/-- **The strict reading**: all of it has to be text. -/
def text? : RawText → Option Text
  | [] => some []
  | .char c :: rest => (text? rest).map (c :: ·)
  | .stray _ _ :: _ => none

/-- **The lossy reading**, which is good for showing. -/
def shown (s : RawText) : Text := s.map RawChar.shown

/-- The bytes, as numbers. -/
def octets (s : RawText) : List Nat := s.flatMap RawChar.octets

@[simp] theorem length_ofText (s : Text) : (ofText s).length = s.length := List.length_map ..

@[simp] theorem ofText_append (s t : Text) : ofText (s ++ t) = ofText s ++ ofText t :=
  List.map_append

@[simp] theorem shown_append (s t : RawText) : shown (s ++ t) = shown s ++ shown t :=
  List.map_append

theorem ofText_inj {s t : Text} : ofText s = ofText t ↔ s = t :=
  List.map_inj_right fun _ _ => RawChar.char.inj

/-- Both readings give a text back, -/
@[simp] theorem text?_ofText (s : Text) : text? (ofText s) = some s := by
  induction s with
  | nil => rfl
  | cons c rest ih =>
    change (text? (ofText rest)).map (c :: ·) = _
    rw [ih, Option.map_some]

@[simp] theorem shown_ofText (s : Text) : shown (ofText s) = s := by
  rw [shown, ofText, List.map_map]
  exact List.map_id s

/-- and the strict reading gives nothing else. -/
theorem text?_eq_some {s : RawText} {t : Text} : text? s = some t ↔ s = t := by
  constructor
  · intro h
    induction s generalizing t with
    | nil => cases h; rfl
    | cons c rest ih =>
      cases c with
      | stray => cases h
      | char c =>
        obtain ⟨t, read, rfl⟩ := Option.map_eq_some_iff.mp h
        rw [ih read]
        rfl
  · rintro rfl
    exact text?_ofText t

end RawText

end DesignRecipe
