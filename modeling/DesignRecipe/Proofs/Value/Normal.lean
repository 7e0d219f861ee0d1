import DesignRecipe.Coercion
import DesignRecipe.Proofs.Literal.Soundness
import DesignRecipe.Proofs.Literal.RoundTrip

/-!
# Values are normal

An integer has one representation: it is kept as its digits only where these are canonical and it
is too wide for a number. The readers keep to that at any depth of a value and under every type
(`Value.Normal`), so a value that comes from an outline is never two values for one integer, and
the digits that it holds are digits.
-/

namespace DesignRecipe

/-- **A normal value**: every integer inside is represented in the one way there is. -/
inductive Value.Normal : Value → Prop
  | none : Normal .none
  | bool (b : Bool) : Normal (.bool b)
  | int (i : Int64) : Normal (.int i)
  | bigInt {digits : Text} : Integer.canonical? digits = some digits →
      Integer.isNarrow (Integer.valueOf digits) = false → Normal (.bigInt digits)
  | float (x : Float) : Normal (.float x)
  | complex (re im : Float) : Normal (.complex re im)
  | str (s : Text) : Normal (.str s)
  | list {items : List Value} : (∀ v ∈ items, Normal v) → Normal (.list items)
  | tuple {items : List Value} : (∀ v ∈ items, Normal v) → Normal (.tuple items)
  | dict {entries : List (Value × Value)} : (∀ e ∈ entries, Normal e.1) →
      (∀ e ∈ entries, Normal e.2) → Normal (.dict entries)

/-- The values that are written exactly are the normal ones without a double. -/
theorem Value.Exact.normal {v : Value} (h : v.Exact) : v.Normal := by
  induction h with
  | none => exact .none
  | bool b => exact .bool b
  | int i => exact .int i
  | bigInt hd hw => exact .bigInt hd hw
  | str s => exact .str s
  | list _ ih => exact .list ih
  | tuple _ ih => exact .tuple ih
  | dict _ _ ihKey ihValue => exact .dict ihKey ihValue

/-- The digits of a wide integer are its canonical text. -/
theorem Value.Normal.of_wide {i : Int} (h : Integer.isNarrow i = false) :
    Value.Normal (.bigInt (Text.ofInt i)) :=
  .bigInt (Integer.canonical?_ofInt i) (by rw [Integer.valueOf_ofInt, h])

/-- **An integer that is read is normal.** -/
theorem Integer.normal_of_read? {s : Text} {v : Value} (h : read? s = some v) : v.Normal := by
  obtain ⟨i, -, rfl⟩ := read?_eq_some_iff.mp h
  split
  · exact .int _
  · next hwide => exact .of_wide (by simpa using hwide)

namespace Literal

variable {t : Text} {v : Value}

theorem Number.normal (h : Number t v) : v.Normal := by
  cases h with
  | narrow => exact .int _
  | wide _ hwide => exact .of_wide hwide
  | double => exact .float _

/-- Parentheses add nothing but a tuple around normal values. -/
theorem normal_parenthesised {items : List Value} (h : ∀ v ∈ items, v.Normal) (trailing : Bool) :
    (parenthesised items trailing).Normal := by
  rw [parenthesised.eq_def]
  split
  · next item => exact h item (List.mem_singleton_self item)
  · exact .tuple h

/-- **A literal denotes a normal value.** -/
theorem Denotes.normal (h : Denotes t v) : v.Normal := by
  induction h with
  | word h =>
    cases h with
    | none => exact .none
    | true => exact .bool true
    | false => exact .bool false
  | number _ h => exact h.normal
  | string => exact .str _
  | list _ _ ih => exact .list (List.forall_mem_map.mpr ih)
  | parentheses _ _ ih => exact normal_parenthesised (List.forall_mem_map.mpr ih) _
  | dict _ _ _ _ ihKey ihValue =>
    exact .dict (List.forall_mem_map.mpr ihKey) (List.forall_mem_map.mpr ihValue)

/-- **A literal that is read is normal.** -/
theorem normal_of_read? {s : Text} (h : read? s = some v) : v.Normal := by
  rw [read?] at h
  split at h
  · next value rest hread =>
    split at h
    · obtain rfl := Option.some_inj.mp h
      obtain ⟨_, _, _, hdenotes, _⟩ := (derived (fuelFor s)).1 hread
      exact hdenotes.normal
    · exact absurd h (by simp)
  · exact absurd h (by simp)

end Literal

namespace Coercion

variable {recognized : List Text} {token tag : Text} {v : Value}

theorem normal_literalOrText (token : Text) : (literalOrText token).Normal := by
  rw [literalOrText]
  split
  · next hread => exact Literal.normal_of_read? hread
  · exact .str token

theorem normal_of_readAs? {p : Primitive} (h : readAs? token p = some v) : v.Normal := by
  cases p with
  | int => exact Integer.normal_of_read? h
  | float =>
    obtain ⟨x, -, rfl⟩ := Option.map_eq_some_iff.mp h
    exact .float x
  | complex =>
    obtain ⟨⟨re, im⟩, -, rfl⟩ := Option.map_eq_some_iff.mp h
    exact .complex re im
  | str =>
    obtain rfl := Option.some_inj.mp h
    exact .str _
  | chr =>
    simp only [readAs?] at h
    split at h
    · obtain rfl := Option.some_inj.mp h
      exact .str _
    · exact absurd h (by simp)
  | bool =>
    obtain rfl := Option.some_inj.mp h
    exact .bool _

/-- **How a token is coerced**: it is the word for the absent value, or it is read as a literal or
for its own text, or by the reader of a primitive type. -/
theorem cases_of_coerce (h : coerce recognized token tag = .ok v) :
    v = .none ∨ v = literalOrText token ∨ ∃ p, readAs? token p = some v := by
  rw [coerce] at h
  split at h
  · exact Or.inl (Except.ok.inj h).symm
  split at h
  · split at h
    · exact Or.inr (Or.inl (Except.ok.inj h).symm)
    · next p _ =>
      split at h
      · next hread =>
        obtain rfl := Except.ok.inj h
        exact Or.inr (Or.inr ⟨p, hread⟩)
      · exact absurd h (by simp)
  · exact Or.inr (Or.inl (Except.ok.inj h).symm)

/-- **A value that is coerced is normal**, whatever its type. -/
theorem normal_of_coerce (h : coerce recognized token tag = .ok v) : v.Normal := by
  rcases cases_of_coerce h with rfl | rfl | ⟨p, hread⟩
  · exact .none
  · exact normal_literalOrText token
  · exact normal_of_readAs? hread

end Coercion

end DesignRecipe
