import DesignRecipe.Proofs.Literal.Completeness
import DesignRecipe.Proofs.Value.Integer
import DesignRecipe.Python.Literal

/-!
# A written literal is read back

The literal that is written for a value denotes the value, so reading it gives the value
again. This holds of all values but doubles and complex numbers, to any depth: a written
complex number is a call, and a written double is left to the reader of doubles.
-/

namespace DesignRecipe

open Text (Blank)

/-- **The values that are written exactly**: there is no double inside, and an integer
is kept as its digits only where these are canonical and too wide for a number. -/
inductive Value.Exact : Value → Prop
  | none : Exact .none
  | bool (b : Bool) : Exact (.bool b)
  | int (i : Int64) : Exact (.int i)
  | bigInt {digits : Text} : Integer.canonical? digits = some digits →
      Integer.isNarrow (Integer.valueOf digits) = false → Exact (.bigInt digits)
  | str (s : Text) : Exact (.str s)
  | list {items : List Value} : (∀ v ∈ items, Exact v) → Exact (.list items)
  | tuple {items : List Value} : (∀ v ∈ items, Exact v) → Exact (.tuple items)
  | dict {entries : List (Value × Value)} : (∀ e ∈ entries, Exact e.1) →
      (∀ e ∈ entries, Exact e.2) → Exact (.dict entries)

namespace Python

/-! ### Strings -/

/-- A string stands between single or double quotes. -/
theorem quoteFor_cases (s : Text) : quoteFor s = '"' ∨ quoteFor s = '\'' := by
  unfold quoteFor
  split
  · exact Or.inl rfl
  · exact Or.inr rfl

/-- **The characters of a string, escaped one by one, stand for the string.** -/
theorem body_flatMap_escape {quote : Char} (hq : quote = '"' ∨ quote = '\'') (s : Text) :
    Literal.Body quote (s.flatMap (escape quote)) s := by
  induction s with
  | nil => exact .nil
  | cons c s ih =>
    rw [List.flatMap_cons, escape]
    split_ifs with hback hline htab hreturn hquote
    · subst hback
      exact .escaped '\\' ih
    · subst hline
      exact .escaped 'n' ih
    · subst htab
      exact .escaped 't' ih
    · subst hreturn
      exact .escaped 'r' ih
    · -- Behind a backslash a quote stands for itself.
      have hself : Literal.unescape c = c := by
        rw [hquote]
        rcases hq with rfl | rfl <;> rfl
      have := Literal.Body.escaped c ih
      rwa [hself] at this
    · exact .plain hquote hback ih

end Python

namespace Literal

/-! ### Numbers -/

/-- Digits and underscores go on with a number. -/
theorem isChain_of_isDigit {digits : Text} (h : ∀ c ∈ digits, c.isDigit = true ∨ c = '_')
    (first : Char) : (first :: digits).IsChain fun previous c => continuesNumber previous c := by
  induction digits generalizing first with
  | nil => exact List.isChain_singleton first
  | cons c digits ih =>
    obtain ⟨hc, hrest⟩ := List.forall_mem_cons.mp h
    refine List.isChain_cons_cons.mpr ⟨?_, ih hrest c⟩
    rcases hc with hdigit | rfl
    · simp [continuesNumber, Char.isAlphanum, hdigit]
    · simp [continuesNumber]

/-- **An integer as written is a number**, underscores and all, if it does not start with one. -/
theorem denotes_of_read? {t : Text} {v : Value} (hhead : t.head? ≠ some '_')
    (hread : Integer.read? (t.filter (· != '_')) = some v) : Denotes t v := by
  obtain ⟨i, hspells, -⟩ := Integer.read?_eq_some_iff.mp hread
  refine .number ?_ (numberValue?_eq_some_iff.mp (by simp only [numberValue?, hread]))
  cases t with
  | nil => exact absurd rfl hspells.ne_nil
  | cons c rest =>
    have hc : (c != '_') = true := by simpa using hhead
    rw [List.filter_cons_of_pos (p := (· != '_')) hc] at hspells
    obtain ⟨hfirst, hdigits⟩ := hspells.of_cons
    refine ⟨⟨c, rfl, ?_⟩, isChain_of_isDigit (fun d hd => ?_) c⟩
    · rcases hfirst with hdigit | rfl | rfl
      · simp [startsNumber, hdigit]
      · decide
      · decide
    · -- What the filter leaves are the digits.
      by_cases hunderscore : d = '_'
      · exact Or.inr hunderscore
      · exact Or.inl (hdigits d (List.mem_filter.mpr ⟨hd, bne_iff_ne.mpr hunderscore⟩))

/-- A text with a canonical one has no underscore in it. -/
theorem denotes_integer {t digits : Text} {v : Value}
    (hcanonical : Integer.canonical? t = some digits) (hread : Integer.read? t = some v) :
    Denotes t v := by
  have hplain : ∀ c ∈ t, (c != '_') = true :=
    Integer.forall_mem_of_canonical? (by decide) (by decide) (by decide) hcanonical
  refine denotes_of_read? (fun hhead => ?_) ?_
  · exact absurd (hplain '_' (List.mem_of_head? hhead)) (by decide)
  · rwa [List.filter_eq_self.mpr hplain]

/-! ### Containers -/

/-- Blanks may stand in front of laid out parts. -/
theorem Laid.blank_append {blanks : Text} (hb : Blank blanks) {parts : List Text}
    {trailing : Bool} {t : Text} (h : Laid parts trailing t) :
    Laid parts trailing (blanks ++ t) := by
  cases h with
  | nil h => exact .nil (hb.append h)
  | last hbefore hafter =>
    rw [← List.append_assoc, ← List.append_assoc]
    exact .last (hb.append hbefore) hafter
  | comma hbefore hafter hmore =>
    rw [← List.append_assoc, ← List.append_assoc, ← List.append_assoc]
    exact .comma (hb.append hbefore) hafter hmore

/-- **Parts with a comma between neighbours are laid out**, whatever blanks stand after the
comma. There is no comma after the last one. -/
theorem laid_join {blanks : Text} (hb : Blank blanks) (parts : List Text) :
    Laid parts false (Text.join (',' :: blanks) parts) := by
  induction parts with
  | nil => exact .nil .nil
  | cons part parts ih =>
    cases parts with
    | nil =>
      have hlast : Laid [part] false ([] ++ part ++ []) := .last .nil .nil
      simpa [Text.join] using hlast
    | cons next parts =>
      have hcomma : Laid (part :: next :: parts) false
          ([] ++ part ++ [] ++ ',' :: (blanks ++ Text.join (',' :: blanks) (next :: parts))) :=
        .comma .nil .nil (ih.blank_append hb)
      simpa [Text.join] using hcomma

/-- A part with a comma after it is laid out. -/
theorem laid_comma (part : Text) : Laid [part] true (part ++ [',']) := by
  have hcomma : Laid [part] true ([] ++ part ++ [] ++ ',' :: []) := .comma .nil .nil (.nil .nil)
  simpa using hcomma

section Written

/-! ### Containers whose parts are written by a function -/

variable {write : Value → Text} {items : List Value} {trailing : Bool} {t : Text}

theorem denotes_pairs (h : ∀ v ∈ items, Denotes (write v) v) :
    ∀ p ∈ items.map fun v => (write v, v), Denotes p.1 p.2 := by
  intro p hp
  obtain ⟨v, hv, rfl⟩ := List.mem_map.mp hp
  exact h v hv

theorem Denotes.list_map (h : ∀ v ∈ items, Denotes (write v) v)
    (hlaid : Laid (items.map write) trailing t) : Denotes ('[' :: t ++ [']']) (.list items) := by
  have hparts : Laid ((items.map fun v => (write v, v)).map Prod.fst) trailing t := by
    simpa only [List.map_map, Function.comp_def] using hlaid
  simpa only [List.map_map, Function.comp_def, List.map_id'] using
    Denotes.list (denotes_pairs h) hparts

theorem Denotes.parentheses_map (h : ∀ v ∈ items, Denotes (write v) v)
    (hlaid : Laid (items.map write) trailing t) :
    Denotes ('(' :: t ++ [')']) (parenthesised items trailing) := by
  have hparts : Laid ((items.map fun v => (write v, v)).map Prod.fst) trailing t := by
    simpa only [List.map_map, Function.comp_def] using hlaid
  simpa only [List.map_map, Function.comp_def, List.map_id'] using
    Denotes.parentheses (denotes_pairs h) hparts

theorem Denotes.dict_map {entry : Value × Value → Entry} {entries : List (Value × Value)}
    (hentry : ∀ e, (entry e).key = e.1 ∧ (entry e).value = e.2)
    (hblanks : ∀ e, Blank (entry e).before ∧ Blank (entry e).after)
    (hkeys : ∀ e ∈ entries, Denotes (entry e).keyText e.1)
    (hvalues : ∀ e ∈ entries, Denotes (entry e).valueText e.2)
    (hlaid : Laid ((entries.map entry).map Entry.text) trailing t) :
    Denotes ('{' :: t ++ ['}']) (.dict entries) := by
  have hpairs : (entries.map entry).map (fun e => (e.key, e.value)) = entries := by
    simp [Function.comp_def, hentry]
  rw [← hpairs]
  refine .dict ?_ ?_ ?_ hlaid
  · exact List.forall_mem_map.mpr fun e he => (hentry e).1 ▸ hkeys e he
  · exact List.forall_mem_map.mpr fun e he => (hentry e).2 ▸ hvalues e he
  · exact List.forall_mem_map.mpr fun e _ => hblanks e

end Written

end Literal

namespace Python

open Literal (Denotes Laid Entry)

theorem writeLiterals_eq_map (items : List Value) :
    writeLiterals items = items.map writeLiteral := by
  induction items with
  | nil => rfl
  | cons v items ih => exact congrArg (writeLiteral v :: ·) ih

/-- An entry of a dictionary as it is written. -/
def entryOf (e : Value × Value) : Entry where
  keyText := writeLiteral e.1
  key := e.1
  before := []
  after := [' ']
  valueText := writeLiteral e.2
  value := e.2

theorem writeEntries_eq_map (entries : List (Value × Value)) :
    writeEntries entries = (entries.map entryOf).map Entry.text := by
  induction entries with
  | nil => rfl
  | cons e entries ih =>
    have hentry : writeLiteral e.1 ++ ": ".toList ++ writeLiteral e.2 = (entryOf e).text := by
      simp [Entry.text, entryOf]
    rw [List.map_cons, List.map_cons, ← ih, ← hentry]
    rfl

theorem writeLiteral_list (items : List Value) :
    writeLiteral (.list items) = '[' :: Text.join [',', ' '] (items.map writeLiteral) ++ [']'] := by
  rw [← writeLiterals_eq_map]
  rfl

theorem writeLiteral_tuple_singleton (item : Value) :
    writeLiteral (.tuple [item]) = '(' :: (writeLiteral item ++ [',']) ++ [')'] := by
  rw [List.cons_append, List.append_assoc]
  rfl

theorem writeLiteral_tuple {items : List Value} (h : ∀ item, items ≠ [item]) :
    writeLiteral (.tuple items) =
      '(' :: Text.join [',', ' '] (items.map writeLiteral) ++ [')'] := by
  rw [← writeLiterals_eq_map]
  match items with
  | [] => rfl
  | [item] => exact absurd rfl (h item)
  | _ :: _ :: _ => rfl

theorem writeLiteral_dict (entries : List (Value × Value)) :
    writeLiteral (.dict entries) =
      '{' :: Text.join [',', ' '] ((entries.map entryOf).map Entry.text) ++ ['}'] := by
  rw [← writeEntries_eq_map]
  rfl

/-- **The literal that is written for a value denotes it.** -/
theorem denotes_writeLiteral {v : Value} (h : v.Exact) : Denotes (writeLiteral v) v := by
  induction h with
  | none => exact .word .none
  | bool b =>
    cases b with
    | true => exact .word .true
    | false => exact .word .false
  | int i =>
    exact Literal.denotes_integer (Integer.canonical?_ofInt i.toInt) (Integer.read?_ofInt i)
  | bigInt hd hw => exact Literal.denotes_integer hd (Integer.read?_of_wide hd hw)
  | str s => exact .string (quoteFor_cases s) (body_flatMap_escape (quoteFor_cases s) s)
  | list _ ih =>
    rw [writeLiteral_list]
    exact Denotes.list_map ih (Literal.laid_join .space _)
  | @tuple items _ ih =>
    by_cases hsingle : ∃ item, items = [item]
    · -- The comma tells a tuple of one item from a value in parentheses.
      obtain ⟨item, rfl⟩ := hsingle
      rw [writeLiteral_tuple_singleton]
      exact Denotes.parentheses_map ih (Literal.laid_comma _)
    · have hne : ∀ item, items ≠ [item] := fun item h => hsingle ⟨item, h⟩
      rw [writeLiteral_tuple hne]
      have := Denotes.parentheses_map ih (Literal.laid_join .space (items.map writeLiteral))
      rwa [Literal.parenthesised] at this
      exact fun item h _ => hne item h
  | @dict entries _ _ ihKey ihValue =>
    rw [writeLiteral_dict]
    exact Denotes.dict_map (fun _ => ⟨rfl, rfl⟩) (fun _ => ⟨Blank.nil, Blank.space⟩) ihKey ihValue
      (Literal.laid_join .space _)

/-- **Reading undoes writing**: the literal of a value without doubles, to any depth, is
read back as that value. -/
theorem read_writeLiteral {v : Value} (h : v.Exact) :
    Literal.read? (writeLiteral v) = some v := by
  simpa using Literal.read?_of_denotes (denotes_writeLiteral h) Blank.nil Blank.nil

/-- A dictionary with both quotes and a backslash in a key, an empty tuple and one of a
single item, and an integer just beyond 64 bits. -/
def nestedValue : Value :=
  .dict [(.str ['i', 't', '\'', 's', ' ', '"', '\\', '\n', '"'], .tuple [.int (-7)]),
    (.tuple [], .list [.none, .bool true, .bigInt (Text.ofNat 9223372036854775808)])]

theorem read_writeLiteral_nestedValue :
    nestedValue.Exact ∧ Literal.read? (writeLiteral nestedValue) = some nestedValue := by
  have hexact : nestedValue.Exact := by
    have hnil : ∀ v ∈ ([] : List Value), v.Exact := List.forall_mem_nil _
    refine .dict ?_ ?_
    · simpa only [List.forall_mem_cons] using ⟨.str _, .tuple hnil, List.forall_mem_nil _⟩
    · simp only [List.forall_mem_cons]
      refine ⟨.tuple ?_, .list ?_, List.forall_mem_nil _⟩
      · exact List.forall_mem_cons.mpr ⟨.int (-7), hnil⟩
      · simp only [List.forall_mem_cons]
        exact ⟨.none, .bool true, .bigInt (by decide) (by decide), hnil⟩
  exact ⟨hexact, read_writeLiteral hexact⟩

end Python

end DesignRecipe
