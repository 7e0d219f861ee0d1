import DesignRecipe.Proofs.Coercion
import DesignRecipe.Proofs.Python.Suite

/-!
# Literals in loadable source

A test file is loaded as a whole, so one character that may stand nowhere in it spoils all of its
tests: a line break in a literal, or a null character anywhere. A literal has no line breaks, since
each is written as its escape. A null character has no escape in the writer, but it has one in the
reader. So it can come from a token that has none in it, and it is in a literal exactly if it is in
a string of the value.

A character of a string comes from the token that the string is read from: it stands there, or its
escape does (`Literal.Supplies`).
-/

namespace DesignRecipe

/-! ### Where the characters of strings come from -/

namespace Literal

variable {c : Char} {t u : Text} {v : Value}

/-- **A text that a character can be read from**: the character stands in it, or a backslash and
what stands for the character behind it. -/
def Supplies (t : Text) (c : Char) : Prop := c ∈ t ∨ ∃ d, ['\\', d] <:+: t ∧ unescape d = c

theorem Supplies.of_isInfix (h : Supplies t c) (hpart : t <:+: u) : Supplies u c := by
  rcases h with hmem | ⟨d, hd, hc⟩
  · exact Or.inl (hpart.subset hmem)
  · exact Or.inr ⟨d, hd.trans hpart, hc⟩

/-- A null character comes from one in the text, or from a zero behind a backslash. -/
theorem Supplies.null (h : Supplies t '\x00') : '\x00' ∈ t ∨ ['\\', '0'] <:+: t := by
  rcases h with hmem | ⟨d, hd, hnull⟩
  · exact Or.inl hmem
  · rw [unescape.eq_def] at hnull
    split at hnull
    · cases hnull
    · cases hnull
    · cases hnull
    · exact Or.inr hd
    · exact Or.inl (hd.subset (by simp [hnull]))

theorem Body.supplies {quote : Char} {body text : Text} (h : Body quote body text) :
    ∀ c ∈ text, Supplies body c := by
  induction h with
  | nil => exact List.forall_mem_nil _
  | @plain d body text _ _ _ ih =>
    refine List.forall_mem_cons.mpr ⟨Or.inl List.mem_cons_self, fun c hc => ?_⟩
    exact (ih c hc).of_isInfix (List.suffix_cons d body).isInfix
  | @escaped d body text _ ih =>
    refine List.forall_mem_cons.mpr ⟨Or.inr ⟨d, ⟨[], body, rfl⟩, rfl⟩, fun c hc => ?_⟩
    exact (ih c hc).of_isInfix (List.suffix_append ['\\', d] body).isInfix

/-- Each part stands in the layout. -/
theorem Laid.isInfix {parts : List Text} {trailing : Bool} (h : Laid parts trailing t) :
    ∀ part ∈ parts, part <:+: t := by
  induction h with
  | nil => exact List.forall_mem_nil _
  | @last before after part _ _ => exact List.forall_mem_singleton.mpr ⟨before, after, rfl⟩
  | @comma before after part rest parts trailing _ _ _ ih =>
    refine List.forall_mem_cons.mpr ⟨⟨before, after ++ ',' :: rest, by simp⟩, fun p hp => ?_⟩
    have hrest : rest <:+: before ++ part ++ after ++ ',' :: rest :=
      ((List.suffix_cons ',' rest).trans (List.suffix_append _ _)).isInfix
    exact (ih p hp).trans hrest

/-- What is read from the parts is read from the layout. -/
theorem Laid.supplies {α : Type} {parts : List α} {text : α → Text} {strings : α → List Text}
    {trailing : Bool} (h : Laid (parts.map text) trailing t)
    (hparts : ∀ p ∈ parts, ∀ s ∈ strings p, ∀ c ∈ s, Supplies (text p) c) :
    ∀ s ∈ parts.flatMap strings, ∀ c ∈ s, Supplies t c := by
  intro s hs c hc
  obtain ⟨p, hp, hs⟩ := List.mem_flatMap.mp hs
  exact (hparts p hp s hs c hc).of_isInfix (h.isInfix _ (List.mem_map_of_mem hp))

/-- Parentheses around one item change nothing about its strings. -/
theorem strings_parenthesised (items : List Value) (trailing : Bool) :
    (parenthesised items trailing).strings = items.flatMap Value.strings := by
  rw [parenthesised.eq_def]
  split
  · simp
  · exact Value.strings_tuple _

/-- **The strings of a literal are read from its text.** -/
theorem Denotes.supplies (h : Denotes t v) : v.AllStrings fun s => ∀ c ∈ s, Supplies t c := by
  induction h with
  | word h => cases h <;> exact List.forall_mem_nil _
  | number _ h => cases h <;> exact List.forall_mem_nil _
  | @string quote body text _ hbody =>
    exact List.forall_mem_singleton.mpr fun c hc =>
      (hbody.supplies c hc).of_isInfix (Text.isInfix_brackets _ _ _)
  | list _ hlaid ih =>
    rw [Value.AllStrings, Value.strings_list, List.flatMap_map]
    exact fun s hs c hc => (hlaid.supplies ih s hs c hc).of_isInfix (Text.isInfix_brackets _ _ _)
  | parentheses _ hlaid ih =>
    rw [Value.AllStrings, strings_parenthesised, List.flatMap_map]
    exact fun s hs c hc => (hlaid.supplies ih s hs c hc).of_isInfix (Text.isInfix_brackets _ _ _)
  | dict _ _ _ hlaid ihKey ihValue =>
    rw [Value.AllStrings, Value.strings_dict, List.flatMap_map]
    refine fun s hs c hc => (hlaid.supplies ?_ s hs c hc).of_isInfix (Text.isInfix_brackets _ _ _)
    intro e he s hs c hc
    rcases List.mem_append.mp hs with hkey | hvalue
    · exact (ihKey e he s hkey c hc).of_isInfix
        ((List.prefix_append _ _).trans (List.prefix_append _ _)).isInfix
    · exact (ihValue e he s hvalue c hc).of_isInfix ((List.suffix_append _ _).trans
        ((List.suffix_cons ':' _).trans (List.suffix_append _ _))).isInfix

end Literal

namespace Coercion

open Literal (Supplies)

variable {recognized : List Text} {token tag : Text} {v : Value}

theorem unquote_isInfix (token : Text) : unquote token <:+: token := by
  have hinside (quote : Char) (rest : Text) : rest.dropLast <:+: quote :: rest :=
    (List.dropLast_prefix rest).isInfix.trans (List.suffix_cons quote rest).isInfix
  rw [unquote.eq_def]
  split
  · split
    · exact hinside _ _
    · exact List.infix_rfl
  · split
    · exact hinside _ _
    · exact List.infix_rfl
  · exact List.infix_rfl

theorem supplies_literalOrText (token : Text) :
    (literalOrText token).AllStrings fun s => ∀ c ∈ s, Supplies token c := by
  rw [literalOrText]
  split
  · next hread =>
    obtain ⟨before, t, after, -, -, rfl, hdenotes⟩ :=
      (Literal.read?_eq_some_iff_denotes _ _).mp hread
    exact fun s hs c hc => (hdenotes.supplies s hs c hc).of_isInfix ⟨before, after, rfl⟩
  · exact List.forall_mem_singleton.mpr fun c hc => Or.inl hc

theorem supplies_of_readAs? {p : Primitive} (h : readAs? token p = some v) :
    v.AllStrings fun s => ∀ c ∈ s, Supplies token c := by
  have hunquoted : (Value.str (unquote token)).AllStrings fun s => ∀ c ∈ s, Supplies token c :=
    List.forall_mem_singleton.mpr fun c hc => Or.inl ((unquote_isInfix token).subset hc)
  cases p with
  | int =>
    obtain ⟨i, -, rfl⟩ := Integer.read?_eq_some_iff.mp h
    split <;> exact List.forall_mem_nil _
  | float =>
    obtain ⟨x, -, rfl⟩ := Option.map_eq_some_iff.mp h
    exact List.forall_mem_nil _
  | complex =>
    obtain ⟨⟨re, im⟩, -, rfl⟩ := Option.map_eq_some_iff.mp h
    exact List.forall_mem_nil _
  | str =>
    obtain rfl := Option.some_inj.mp h
    exact hunquoted
  | chr =>
    simp only [readAs?] at h
    split at h
    · next hone =>
      obtain rfl := Option.some_inj.mp h
      rwa [hone] at hunquoted
    · cases h
  | bool =>
    obtain rfl := Option.some_inj.mp h
    exact List.forall_mem_nil _

/-- **The strings of a value are read from its token**, whatever its type. -/
theorem supplies_of_coerce (h : coerce recognized token tag = .ok v) :
    v.AllStrings fun s => ∀ c ∈ s, Supplies token c := by
  rcases cases_of_coerce h with rfl | rfl | ⟨p, hread⟩
  · exact List.forall_mem_nil _
  · exact supplies_literalOrText token
  · exact supplies_of_readAs? hread

end Coercion

/-! ### Literals and assertions -/

namespace Python

open Coercion (coerce)

variable {recognized : List Text} {token tag : Text} {v : Value}

/-- **A value that some token is read as**, whatever its type. -/
def Coerced (v : Value) : Prop := ∃ recognized token tag, coerce recognized token tag = .ok v

/-- No line break is in the literal of a value that is read from a token. -/
theorem Coerced.notMem (h : Coerced v) : '\n' ∉ writeLiteral v ∧ '\r' ∉ writeLiteral v := by
  obtain ⟨_, _, _, hcoerce⟩ := h
  have hline := staysOnLine_writeLiteral (Coercion.normal_of_coerce hcoerce)
  exact ⟨fun hmem => absurd (hline _ hmem) (by decide),
    fun hmem => absurd (hline _ hmem) (by decide)⟩

/-- **A literal is one line of source, null characters aside.** Whatever token a value is read from,
its literal has no line break, and it has a null character exactly if a string of the value has one;
then the token has one too, or a backslash and a zero. So it is for an assertion about the value:
it stays on its line, and it has a null character exactly if one of its literals has. -/
theorem literal_of_coerce (h : coerce recognized token tag = .ok v) :
    '\n' ∉ writeLiteral v ∧ '\r' ∉ writeLiteral v ∧
    ('\x00' ∈ writeLiteral v ↔ ∃ s ∈ v.strings, '\x00' ∈ s) ∧
    ('\x00' ∈ writeLiteral v → '\x00' ∈ token ∨ ['\\', '0'] <:+: token) ∧
    ∀ function args, (∀ c ∈ unloadable, c ∉ function) → (∀ a ∈ args, Coerced a) →
      '\n' ∉ assertion (application function args) v ∧
      '\r' ∉ assertion (application function args) v ∧
      ('\x00' ∈ assertion (application function args) v ↔
        ∃ a ∈ v :: args, '\x00' ∈ writeLiteral a) := by
  have hcoerced : Coerced v := ⟨recognized, token, tag, h⟩
  have hnull : '\x00' ∈ writeLiteral v ↔ ∃ s ∈ v.strings, '\x00' ∈ s :=
    mem_writeLiteral_iff (by decide) (Coercion.normal_of_coerce h)
  refine ⟨hcoerced.notMem.1, hcoerced.notMem.2, hnull, ?_, ?_⟩
  · rw [hnull]
    rintro ⟨s, hs, hmem⟩
    exact (Coercion.supplies_of_coerce h s hs _ hmem).null
  · intro function args hname hargs
    have hvalues : ∀ a ∈ v :: args, Coerced a := List.forall_mem_cons.mpr ⟨hcoerced, hargs⟩
    have hassertion {c : Char} (hc : c ∈ unloadable) :
        c ∈ assertion (application function args) v ↔ ∃ a ∈ v :: args, c ∈ writeLiteral a := by
      rw [mem_assertion_iff hc, mem_application_iff hc, or_iff_right (hname c hc), or_comm,
        List.exists_mem_cons_iff]
    refine ⟨?_, ?_, hassertion (by decide)⟩
    · rw [hassertion (by decide)]
      rintro ⟨a, ha, hmem⟩
      exact (hvalues a ha).notMem.1 hmem
    · rw [hassertion (by decide)]
      rintro ⟨a, ha, hmem⟩
      exact (hvalues a ha).notMem.2 hmem

/-! ### Strings of one escape -/

/-- A string between single quotes that is one escape. -/
def escapeText (d : Char) : Text := ['\'', '\\', d, '\'']

theorem denotes_escapeText (d : Char) :
    Literal.Denotes (escapeText d) (.str [Literal.unescape d]) :=
  .string (Or.inr rfl) (.escaped d .nil)

/-- It is read under any tag that is not recognized. -/
theorem coerce_escapeText (htag : tag ∉ recognized) (d : Char) :
    coerce recognized (escapeText d) tag = .ok (.str [Literal.unescape d]) := by
  refine Coercion.coerce_literal htag ?_
  simpa using Literal.read?_of_denotes (denotes_escapeText d) Text.Blank.nil Text.Blank.nil

/-- A list of a line feed and a null character, both written with their escapes. -/
def escapedList : Text := "['\\n', '\\0']"

theorem denotes_escapedList : Literal.Denotes escapedList (.list [.str ['\n'], .str ['\x00']]) := by
  have hparts : ∀ p ∈ [(escapeText 'n', Value.str ['\n']), (escapeText '0', .str ['\x00'])],
      Literal.Denotes p.1 p.2 :=
    List.forall_mem_cons.mpr ⟨denotes_escapeText 'n',
      List.forall_mem_singleton.mpr (denotes_escapeText '0')⟩
  exact .list hparts (.comma Text.Blank.nil Text.Blank.nil (.last Text.Blank.space Text.Blank.nil))

/-- The line break stays an escape, and the null character does not. -/
theorem literal_of_coerce_escapedList : ∃ v, coerce [] escapedList [] = .ok v ∧
    '\n' ∉ writeLiteral v ∧ '\r' ∉ writeLiteral v ∧ '\x00' ∈ writeLiteral v ∧
    '\n' ∉ assertion (application ['f'] [v]) v ∧ '\r' ∉ assertion (application ['f'] [v]) v ∧
    '\x00' ∈ assertion (application ['f'] [v]) v := by
  have hread := Literal.read?_of_denotes denotes_escapedList Text.Blank.nil Text.Blank.nil
  have hv : coerce [] escapedList [] = .ok (.list [.str ['\n'], .str ['\x00']]) :=
    Coercion.coerce_literal List.not_mem_nil (by simpa using hread)
  obtain ⟨hline, hreturn, hnull, -, hassertion⟩ := literal_of_coerce hv
  have hmem := hnull.mpr ⟨['\x00'], by decide, by decide⟩
  obtain ⟨hline', hreturn', hnull'⟩ := hassertion ['f'] [_] (by simp [unloadable])
    (List.forall_mem_singleton.mpr ⟨_, _, _, hv⟩)
  exact ⟨_, hv, hline, hreturn, hmem, hline', hreturn', hnull'.mpr ⟨_, List.mem_cons_self, hmem⟩⟩

/-- **A null character is written as it is**, although its escape is read. -/
theorem not_notMem_writeLiteral : ¬∀ (recognized : List Text) (token tag : Text) (v : Value),
    coerce recognized token tag = .ok v →
      '\n' ∉ writeLiteral v ∧ '\r' ∉ writeLiteral v ∧ '\x00' ∉ writeLiteral v := by
  intro h
  have hcoerce := coerce_escapeText (List.not_mem_nil (a := "text".toList)) '0'
  exact (h _ _ _ _ hcoerce).2.2 (by decide)

end Python

end DesignRecipe
