import DesignRecipe.Proofs.Text.Trimming
import DesignRecipe.Proofs.Python.Characters

/-!
# Values written for their types

How a value is written depends on the type that it is written for (`Coercion.Writes`). For a
type with a reader of its own it is what that reader expects; for all other types it is the
literal of the value. Either way the text is one token, and the token is coerced to the value.

Doubles have no place here, since how they are read is left to the reader of decimals. Neither
has a string in a literal, nor a string with a double quote, for which the scan knows no escape,
nor one with a `#`, which starts the comment of an example even between quotes.
-/

namespace DesignRecipe

open Scan (Plain Whole)

namespace Python

/-! ### Literals without strings -/

/-- **There is no string in the value.** -/
def Stringless (v : Value) : Prop := v.AllStrings fun _ => False

/-- A character that neither opens a string or a comment nor ends an arrow. -/
def isQuiet (c : Char) : Bool := c != '"' && c != '#' && c != '>'

/-- **A literal without strings is quiet.** -/
theorem isQuiet_writeLiteral {v : Value} (h : v.Exact) (hs : Stringless v) :
    ∀ c ∈ writeLiteral v, isQuiet c = true :=
  forall_mem_writeLiteral (List.all_eq_true.mp (by decide)) h.normal fun s hmem =>
    (hs s hmem).elim

/-- **A literal without strings is plain or stands between brackets.** -/
theorem plain_or_bracketed {v : Value} (h : v.Exact) (hs : Stringless v) :
    Plain (writeLiteral v) ∨ Bracketed v := by
  by_cases hv : v.isContainer = true
  · exact Or.inr (bracketed_of_exact h hv fun s hmem => (hs s hmem).elim)
  · refine Or.inl (plain_writeLiteral h (by simpa using hv) fun s hstr => ?_)
    subst hstr
    exact hs.str

/-- **A literal without strings is a token** that denotes the same value. -/
theorem exists_whole {v : Value} (h : v.Exact) (hs : Stringless v) :
    ∃ out, Whole (writeLiteral v) out ∧ Literal.Denotes out v := by
  rcases plain_or_bracketed h hs with hplain | hbracketed
  · exact ⟨_, .of_plain hplain, denotes_writeLiteral h⟩
  · exact hbracketed.exists_whole

/-- A literal without strings has no blanks at its ends. -/
theorem tight_writeLiteral {v : Value} (h : v.Exact) (hs : Stringless v) :
    Text.Tight (writeLiteral v) ∧ writeLiteral v ≠ [] := by
  rcases plain_or_bracketed h hs with hplain | ⟨b, t, _, hwrite, -, -⟩
  · exact ⟨.of_forall fun c hc => (Scan.isPlain_iff.mp (hplain.chars c hc)).1, hplain.nonempty⟩
  · rw [hwrite]
    exact ⟨.ends (Scan.opener_facts b).1 (Scan.closer_facts b).1 t, List.cons_ne_nil _ _⟩

end Python

namespace Coercion

open Python (writeLiteral Stringless)

variable {recognized : List Text} {tag t out digits : Text} {v : Value}

/-- **How a value is written for a type tag.** -/
inductive Writes (recognized : List Text) : Text → Value → Text → Prop
  | int {i : Int64} : Primitive.int.tag ∈ recognized →
      Writes recognized Primitive.int.tag (.int i) (Text.ofInt i.toInt)
  /-- An integer too wide for a number is written as its digits. -/
  | bigInt {digits : Text} : Primitive.int.tag ∈ recognized →
      Integer.canonical? digits = some digits →
      Integer.isNarrow (Integer.valueOf digits) = false →
      Writes recognized Primitive.int.tag (.bigInt digits) digits
  | bool {b : Bool} : Primitive.bool.tag ∈ recognized →
      Writes recognized Primitive.bool.tag (.bool b) (if b then "True" else "False")
  /-- A string is written as it is between double quotes. -/
  | str {s : Text} : Primitive.str.tag ∈ recognized → '"' ∉ s → '#' ∉ s →
      Writes recognized Primitive.str.tag (.str s) ('"' :: s ++ ['"'])
  /-- Under any other tag a value is written as its literal. -/
  | literal {tag : Text} {v : Value} : tag ∉ recognized → v.Exact → Stringless v →
      Writes recognized tag v (writeLiteral v)

/-- **What is written for a value** is its literal, without a string in it, or a string. -/
theorem Writes.literal_or_string (h : Writes recognized tag v t) :
    (t = writeLiteral v ∧ v.Exact ∧ Stringless v) ∨
      ∃ s, t = '"' :: s ++ ['"'] ∧ '"' ∉ s ∧ '#' ∉ s := by
  cases h with
  | int => exact Or.inl ⟨rfl, .int _, by simp [Stringless, Value.AllStrings, Value.strings]⟩
  | bigInt _ hd hw =>
    exact Or.inl ⟨rfl, .bigInt hd hw, by simp [Stringless, Value.AllStrings, Value.strings]⟩
  | bool => exact Or.inl ⟨rfl, .bool _, by simp [Stringless, Value.AllStrings, Value.strings]⟩
  | str _ hquote hhash => exact Or.inr ⟨_, rfl, hquote, hhash⟩
  | literal _ hexact hs => exact Or.inl ⟨rfl, hexact, hs⟩

/-- What is written for a value has no blanks at its ends. -/
theorem Writes.tight (h : Writes recognized tag v t) : Text.Tight t ∧ t ≠ [] := by
  rcases h.literal_or_string with ⟨rfl, hexact, hs⟩ | ⟨s, rfl, -, -⟩
  · exact Python.tight_writeLiteral hexact hs
  · exact ⟨.ends (by decide) (by decide) s, List.cons_ne_nil _ _⟩

/-- What is written for a value has no comment in it. -/
theorem Writes.hash_notMem (h : Writes recognized tag v t) : '#' ∉ t := by
  rcases h.literal_or_string with ⟨rfl, hexact, hs⟩ | ⟨s, rfl, -, hhash⟩
  · exact fun hmem => absurd (Python.isQuiet_writeLiteral hexact hs _ hmem) (by decide)
  · simpa using hhash

/-! ### Coercing what is written -/

/-- Under its tag an integer is read without the blanks around it and without underscores. -/
theorem coerce_int_eq_ok_iff (hmem : Primitive.int.tag ∈ recognized)
    (hnone : t ≠ ['N', 'o', 'n', 'e']) :
    coerce recognized t Primitive.int.tag = .ok v ↔
      Integer.read? (dropUnderscores (Text.trim t)) = some v := by
  have htag : Primitive.ofTag? Primitive.int.tag = some .int := by decide
  simp only [coerce, if_neg hnone, if_pos hmem, htag, readAs?]
  cases Integer.read? (dropUnderscores (Text.trim t)) <;> simp

/-- An integer is read under its tag. -/
theorem coerce_int (hmem : Primitive.int.tag ∈ recognized)
    (hcanonical : Integer.canonical? t = some digits) (hread : Integer.read? t = some v) :
    coerce recognized t Primitive.int.tag = .ok v := by
  have hnone : t ≠ ['N', 'o', 'n', 'e'] := by
    rintro rfl
    have hword : Integer.canonical? ['N', 'o', 'n', 'e'] = none := by decide
    rw [hword] at hcanonical
    exact absurd hcanonical (by simp)
  have htight : Text.Tight t := .of_forall
    (Integer.forall_mem_of_canonical? (by decide) (by decide) (by decide) hcanonical)
  have hunderscore : dropUnderscores t = t := List.filter_eq_self.mpr
    (Integer.forall_mem_of_canonical? (by decide) (by decide) (by decide) hcanonical)
  rwa [coerce_int_eq_ok_iff hmem hnone, htight.trim, hunderscore]

theorem coerce_bool (hmem : Primitive.bool.tag ∈ recognized) (b : Bool) :
    coerce recognized (if b then "True" else "False") Primitive.bool.tag = .ok (.bool b) := by
  have htag : Primitive.ofTag? Primitive.bool.tag = some .bool := by decide
  cases b <;> simp [coerce, hmem, htag, readAs?]

/-- A string is read without its quotes. -/
theorem coerce_str (hmem : Primitive.str.tag ∈ recognized) (s : Text) :
    coerce recognized ('"' :: s ++ ['"']) Primitive.str.tag = .ok (.str s) := by
  have htag : Primitive.ofTag? Primitive.str.tag = some .str := by decide
  have hunquote : unquote ('"' :: s ++ ['"']) = s := by simp [unquote]
  have hnone : '"' :: s ++ ['"'] ≠ ['N', 'o', 'n', 'e'] :=
    fun h => absurd (List.cons_eq_cons.mp h).1 (by decide)
  simp only [coerce, if_neg hnone, if_pos hmem, htag, readAs?, hunquote]

/-- **A literal is read under a tag that is not recognized.** The word for the absent value,
which no tag lets through to the reader of literals, is the literal of that value. -/
theorem coerce_literal (htag : tag ∉ recognized) (hread : Literal.read? out = some v) :
    coerce recognized out tag = .ok v := by
  by_cases hnone : out = ['N', 'o', 'n', 'e']
  · subst hnone
    have habsent : Literal.read? ['N', 'o', 'n', 'e'] = some .none := by rfl
    rw [habsent] at hread
    rw [coerce, if_pos rfl, Option.some_inj.mp hread]
  · rw [coerce, if_neg hnone, if_neg htag, literalOrText, hread]

/-- **What is written for a value is a token that is coerced to the value.** -/
theorem Writes.exists_token (h : Writes recognized tag v t) :
    ∃ out, Whole t out ∧ coerce recognized out tag = .ok v := by
  cases h with
  | @int i hmem =>
    have hcanonical := Integer.canonical?_ofInt i.toInt
    exact ⟨_, .of_plain (Python.plain_of_canonical? hcanonical),
      coerce_int hmem hcanonical (Integer.read?_ofInt i)⟩
  | bigInt hmem hd hw =>
    exact ⟨_, .of_plain (Python.plain_of_canonical? hd),
      coerce_int hmem hd (Integer.read?_of_wide hd hw)⟩
  | @bool b hmem =>
    exact ⟨_, .of_plain (Python.plain_writeLiteral (.bool b) rfl (by simp)), coerce_bool hmem b⟩
  | str hmem hquote => exact ⟨_, .string hquote, coerce_str hmem _⟩
  | literal htag hexact hs =>
    obtain ⟨out, hwhole, hdenotes⟩ := Python.exists_whole hexact hs
    refine ⟨out, hwhole, coerce_literal htag ?_⟩
    simpa using Literal.read?_of_denotes hdenotes Text.Blank.nil Text.Blank.nil

end Coercion

end DesignRecipe
