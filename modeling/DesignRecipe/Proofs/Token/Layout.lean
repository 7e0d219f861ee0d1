import DesignRecipe.Proofs.Token.Written

/-!
# Layouts of a value

Inside brackets a value may be written in many ways (`Value.Layout`): between two elements there may
be a comma or only blanks, and blanks may stand around commas and colons and next to brackets. The
scan makes the same token of all of them, and the token is read as the value.

The induction is on the value. For one that is not written between brackets there is nothing to
choose, and its literal is an element. For a container, what the scan makes of its elements is known
whatever their layouts are, so only the separators are left: each of them comes to one comma
(`Separator.element`), and the blanks next to the brackets come to nothing.
-/

namespace DesignRecipe

open Text (Blank)
open Literal (Denotes Entry)
open Scan (Copies Element Fills Whole)

/-! ### Elements next to each other -/

/-- **What may stand between two elements**: blanks, or a comma with any blanks around it. -/
inductive Separator : Text → Prop
  | blanks {blanks : Text} : Blank blanks → blanks ≠ [] → Separator blanks
  | comma {before after : Text} : Blank before → Blank after → Separator (before ++ ',' :: after)

/-- **Parts with a separator between neighbours.** -/
inductive Spread : List Text → Text → Prop
  | nil : Spread [] []
  | last (part : Text) : Spread [part] part
  | cons {part next separator t : Text} {parts : List Text} : Separator separator →
      Spread (next :: parts) t → Spread (part :: next :: parts) (part ++ separator ++ t)

variable {separator t t' out out' before after : Text}

/-- A separator comes to one comma. -/
theorem Separator.element (hs : Separator separator) (h : Element t out) (h' : Element t' out') :
    Element (t ++ separator ++ t') (out ++ [','] ++ out') := by
  refine h.join h' ?_
  cases hs with
  | blanks hb hne => exact h.copies_blank hb hne h'
  | comma hbefore hafter =>
    exact (h.copies.append (.spaced (.inl rfl) hbefore hafter)).append h'.copies

/-- **Elements with separators between them** come to elements with commas between them. -/
theorem Spread.element {parts outs : List Text} (hs : Spread parts t) (hne : parts ≠ [])
    (h : List.Forall₂ Element parts outs) : Element t (Text.join [','] outs) := by
  induction hs generalizing outs with
  | nil => exact absurd rfl hne
  | last part =>
    obtain ⟨_, _, hpart, hnil, rfl⟩ := List.forall₂_cons_left_iff.mp h
    obtain rfl := List.forall₂_nil_left_iff.mp hnil
    exact hpart
  | cons hseparator _ ih =>
    obtain ⟨_, _, hpart, hrest, rfl⟩ := List.forall₂_cons_left_iff.mp h
    have hout := ih (List.cons_ne_nil _ _) hrest
    obtain ⟨_, _, -, -, rfl⟩ := List.forall₂_cons_left_iff.mp hrest
    exact hseparator.element hpart hout

/-- What is between brackets is the same whatever stands between the parts. -/
theorem Spread.fills {α : Type} {parts : List α} {text out : α → Text}
    (hs : Spread (parts.map text) t) (h : ∀ p ∈ parts, Element (text p) (out p))
    (hbefore : Blank before) (hafter : Blank after) :
    Fills (before ++ t ++ after) (Text.join [','] (parts.map out)) := by
  have hcopies : Copies t (Text.join [','] (parts.map out)) := by
    by_cases hnil : parts = []
    · subst hnil
      cases hs
      exact .nil
    · refine (hs.element (by simpa using hnil) ?_).copies
      rw [List.forall₂_map_left_iff, List.forall₂_map_right_iff, List.forall₂_same]
      exact h
  exact hcopies.fills_blank hbefore hafter

/-- The parts of an entry and its colon, without the blanks around it. -/
theorem element_entry {e : Entry} {key value : Text} (hkey : Element e.keyText key)
    (hvalue : Element e.valueText value) (hblanks : Blank e.before ∧ Blank e.after) :
    Element e.text (key ++ [':'] ++ value) := by
  have hcolon : Copies (e.before ++ ':' :: e.after) [':'] :=
    .spaced (.inr rfl) hblanks.1 hblanks.2
  have helement := hkey.join hvalue ((hkey.copies.append hcolon).append hvalue.copies)
  simpa [Entry.text] using helement

/-! ### Layouts -/

/-- **A text is a layout of a value.** The elements of a container have separators between them,
and the one element of a tuple has a comma behind it. Blanks may stand around commas and colons,
after an opening bracket and before a closing one. -/
inductive Value.Layout : Value → Text → Prop
  | scalar {v : Value} : v.isContainer = false → Layout v (Python.writeLiteral v)
  | list {parts : List (Text × Value)} {before t after : Text} :
      (∀ p ∈ parts, Layout p.2 p.1) → Spread (parts.map Prod.fst) t → Blank before → Blank after →
      Layout (.list (parts.map Prod.snd)) ('[' :: (before ++ t ++ after) ++ [']'])
  | tuple {parts : List (Text × Value)} {before t after : Text} : parts.length ≠ 1 →
      (∀ p ∈ parts, Layout p.2 p.1) → Spread (parts.map Prod.fst) t → Blank before → Blank after →
      Layout (.tuple (parts.map Prod.snd)) ('(' :: (before ++ t ++ after) ++ [')'])
  | single {v : Value} {before t blanks after : Text} :
      Layout v t → Blank before → Blank blanks → Blank after →
      Layout (.tuple [v]) ('(' :: (before ++ (t ++ (blanks ++ [','])) ++ after) ++ [')'])
  | dict {entries : List Entry} {before t after : Text} :
      (∀ e ∈ entries, Layout e.key e.keyText) → (∀ e ∈ entries, Layout e.value e.valueText) →
      (∀ e ∈ entries, Blank e.before ∧ Blank e.after) → Spread (entries.map Entry.text) t →
      Blank before → Blank after →
      Layout (.dict (entries.map fun e => (e.key, e.value)))
        ('{' :: (before ++ t ++ after) ++ ['}'])

namespace Python

/-- **All layouts of the value are the same element**, and it denotes the value. -/
def Uniform (v : Value) : Prop := ∃ out, Denotes out v ∧ ∀ t, v.Layout t → Element t out

/-- **All layouts of the value are the same text between brackets**, and it denotes the value. -/
def Enclosed (v : Value) : Prop :=
  ∃ (b : Bracket) (out : Text), Denotes (b.opener :: out ++ [b.closer]) v ∧
    ∀ t, v.Layout t → ∃ inner, t = b.opener :: inner ++ [b.closer] ∧ Fills inner out

variable {v : Value} {items : List Value}

theorem Enclosed.uniform (h : Enclosed v) : Uniform v := by
  obtain ⟨b, out, hdenotes, hlayouts⟩ := h
  refine ⟨_, hdenotes, fun t ht => ?_⟩
  obtain ⟨inner, rfl, hfills⟩ := hlayouts t ht
  exact .bracket b hfills

theorem enclosed_list (h : ∀ v ∈ items, Uniform v) : Enclosed (.list items) := by
  choose! out hdenotes hlayouts using h
  refine ⟨.square, _, Denotes.list_map hdenotes (Literal.laid_join .nil _), fun t ht => ?_⟩
  cases ht with
  | scalar hv => cases hv
  | @list parts before t after hparts hspread hbefore hafter =>
    have helements : ∀ p ∈ parts, Element p.1 (out p.2) := fun p hp =>
      hlayouts p.2 (List.mem_map_of_mem hp) p.1 (hparts p hp)
    rw [List.map_map]
    exact ⟨_, rfl, hspread.fills helements hbefore hafter⟩

theorem enclosed_tuple_of_length (hlength : items.length ≠ 1) (h : ∀ v ∈ items, Uniform v) :
    Enclosed (.tuple items) := by
  choose! out hdenotes hlayouts using h
  have hparentheses := Denotes.parentheses_map hdenotes (Literal.laid_join .nil (items.map out))
  rw [Literal.parenthesised] at hparentheses
  · refine ⟨.round, _, hparentheses, fun t ht => ?_⟩
    cases ht with
    | scalar hv => cases hv
    | @tuple parts before t after _ hparts hspread hbefore hafter =>
      have helements : ∀ p ∈ parts, Element p.1 (out p.2) := fun p hp =>
        hlayouts p.2 (List.mem_map_of_mem hp) p.1 (hparts p hp)
      rw [List.map_map]
      exact ⟨_, rfl, hspread.fills helements hbefore hafter⟩
    | single => exact absurd rfl hlength
  · rintro item rfl -
    exact hlength rfl

theorem enclosed_single (h : Uniform v) : Enclosed (.tuple [v]) := by
  obtain ⟨out, hdenotes, hlayouts⟩ := h
  have hitems : ∀ w ∈ [v], Denotes ((fun _ => out) w) w := List.forall_mem_singleton.mpr hdenotes
  refine ⟨.round, out ++ [','], Denotes.parentheses_map hitems (Literal.laid_comma out),
    fun t ht => ?_⟩
  generalize htuple : Value.tuple [v] = tuple at ht
  cases ht with
  | scalar hv =>
    rw [← htuple] at hv
    cases hv
  | @tuple parts _ _ _ hlength =>
    have hparts : [v] = parts.map Prod.snd := Value.tuple.inj htuple
    exact absurd (by simpa using (congrArg List.length hparts).symm) hlength
  | @single w before t blanks after ht hbefore hblanks hafter =>
    cases htuple
    have hcomma : Copies (blanks ++ [',']) [','] := .spaced (.inl rfl) hblanks .nil
    exact ⟨_, rfl, ((hlayouts t ht).copies.append hcomma).fills_blank hbefore hafter⟩
  | list | dict => cases htuple

theorem enclosed_tuple (h : ∀ v ∈ items, Uniform v) : Enclosed (.tuple items) := by
  by_cases hlength : items.length = 1
  · obtain ⟨item, rfl⟩ := List.length_eq_one_iff.mp hlength
    exact enclosed_single (h item List.mem_cons_self)
  · exact enclosed_tuple_of_length hlength h

theorem enclosed_dict {entries : List (Value × Value)} (hkeys : ∀ e ∈ entries, Uniform e.1)
    (hvalues : ∀ e ∈ entries, Uniform e.2) : Enclosed (.dict entries) := by
  choose! key hkeyDenotes hkeyLayouts using hkeys
  choose! value hvalueDenotes hvalueLayouts using hvalues
  refine ⟨.curly, Text.join [','] ((entries.map (tightEntry key value)).map Entry.text),
    Denotes.dict_map (fun _ => ⟨rfl, rfl⟩) (fun _ => ⟨.nil, .nil⟩) hkeyDenotes hvalueDenotes
      (Literal.laid_join .nil _), fun t ht => ?_⟩
  cases ht with
  | scalar hv => cases hv
  | @dict written before t after hkeys hvalues hblanks hspread hbefore hafter =>
    have hentry : ∀ e ∈ written, (e.key, e.value) ∈ written.map fun e => (e.key, e.value) :=
      fun e he => List.mem_map_of_mem he
    have helements : ∀ e ∈ written,
        Element e.text (tightEntry key value (e.key, e.value)).text := by
      intro e he
      have helement := element_entry (hkeyLayouts _ (hentry e he) _ (hkeys e he))
        (hvalueLayouts _ (hentry e he) _ (hvalues e he)) (hblanks e he)
      simpa [Entry.text, tightEntry] using helement
    rw [List.map_map, List.map_map]
    exact ⟨_, rfl, hspread.fills helements hbefore hafter⟩

/-- A value that is not written between brackets has only one layout. -/
theorem uniform_of_element (hv : v.isContainer = false) (hdenotes : Denotes (writeLiteral v) v)
    (h : Element (writeLiteral v) (writeLiteral v)) : Uniform v := by
  refine ⟨_, hdenotes, fun t ht => ?_⟩
  cases ht with
  | scalar => exact h
  | list | tuple | single | dict => cases hv

theorem uniform_of_plain (h : v.Exact) (hv : v.isContainer = false) (hs : ∀ s, v ≠ .str s) :
    Uniform v := by
  obtain ⟨-, hmarks⟩ := forall_mem_writeScalar (P := fun c => (c != ',' && c != ':') = true)
    (List.all_eq_true.mp (by decide)) (by decide) (by decide) (by decide) h hv hs
  exact uniform_of_element hv (denotes_writeLiteral h)
    (.of_plain (plain_writeLiteral h hv hs) fun c hc => by simpa using hmarks c hc)

/-- **All layouts of a value are read alike**, if no string in it ends with a backslash. -/
theorem uniform_of_exact (h : v.Exact) (hs : v.EndsPlainly) : Uniform v := by
  induction h with
  | none => exact uniform_of_plain .none rfl (by simp)
  | bool b => exact uniform_of_plain (.bool b) rfl (by simp)
  | int i => exact uniform_of_plain (.int i) rfl (by simp)
  | bigInt hd hw => exact uniform_of_plain (.bigInt hd hw) rfl (by simp)
  | str s =>
    exact uniform_of_element rfl (denotes_writeLiteral (.str s)) (element_writeString hs.str)
  | list _ ih => exact (enclosed_list fun v hv => ih v hv (hs.list hv)).uniform
  | tuple _ ih => exact (enclosed_tuple fun v hv => ih v hv (hs.tuple hv)).uniform
  | dict _ _ ihKey ihValue =>
    exact (enclosed_dict (fun e he => ihKey e he (hs.dict he).1)
      fun e he => ihValue e he (hs.dict he).2).uniform

theorem enclosed_of_exact (h : v.Exact) (hv : v.isContainer = true) (hs : v.EndsPlainly) :
    Enclosed v := by
  cases h with
  | list h => exact enclosed_list fun v hv => uniform_of_exact (h v hv) (hs.list hv)
  | tuple h => exact enclosed_tuple fun v hv => uniform_of_exact (h v hv) (hs.tuple hv)
  | dict hkeys hvalues =>
    exact enclosed_dict (fun e he => uniform_of_exact (hkeys e he) (hs.dict he).1)
      fun e he => uniform_of_exact (hvalues e he) (hs.dict he).2
  | none | bool | int | bigInt | str => cases hv

/-! ### The written literal is a layout -/

theorem spread_join (parts : List Text) : Spread parts (Text.join [',', ' '] parts) := by
  induction parts with
  | nil => exact .nil
  | cons part parts ih =>
    cases parts with
    | nil => exact .last part
    | cons next parts => exact .cons (.comma .nil .space) ih

/-- **The literal that is written for a value is one of its layouts.** -/
theorem layout_writeLiteral (h : v.Exact) : v.Layout (writeLiteral v) := by
  have hparts {items : List Value} (ih : ∀ v ∈ items, v.Layout (writeLiteral v)) :
      ∀ p ∈ items.map fun v => (writeLiteral v, v), p.2.Layout p.1 := List.forall_mem_map.mpr ih
  have htexts (items : List Value) : Spread ((items.map fun v => (writeLiteral v, v)).map Prod.fst)
      (Text.join [',', ' '] (items.map writeLiteral)) := by
    simpa [Function.comp_def] using spread_join (items.map writeLiteral)
  induction h with
  | none | bool | int | bigInt | str => exact .scalar rfl
  | @list items _ ih =>
    have hlayout := Value.Layout.list (hparts ih) (htexts items) .nil .nil
    simpa [writeLiteral_list, Function.comp_def] using hlayout
  | @tuple items _ ih =>
    by_cases hlength : items.length = 1
    · obtain ⟨item, rfl⟩ := List.length_eq_one_iff.mp hlength
      have hlayout := Value.Layout.single (ih item List.mem_cons_self) .nil .nil .nil
      simpa [writeLiteral_tuple_singleton] using hlayout
    · have hne : ∀ item, items ≠ [item] := fun item h => hlength (h ▸ rfl)
      have hlayout :=
        Value.Layout.tuple (by simpa using hlength) (hparts ih) (htexts items) .nil .nil
      simpa [writeLiteral_tuple hne, Function.comp_def] using hlayout
  | @dict entries _ _ ihKey ihValue =>
    have hlayout := Value.Layout.dict (List.forall_mem_map.mpr ihKey)
      (List.forall_mem_map.mpr ihValue) (List.forall_mem_map.mpr fun _ _ => ⟨.nil, .space⟩)
      (spread_join ((entries.map entryOf).map Entry.text)) .nil .nil
    simpa [writeLiteral_dict, Function.comp_def, entryOf] using hlayout

/-- **Blanks and commas are interchangeable inside brackets.** All layouts of a value that is
written between brackets are one and the same token without any repair, and the token is read as the
value, as long as no string in the value ends with a backslash. The literal that is written for the
value is one of the layouts. -/
theorem tokenize_layout (h : v.Exact) (hv : v.isContainer = true) (hs : v.EndsPlainly) :
    v.Layout (writeLiteral v) ∧ ∃ t, Literal.read? t = some v ∧
      ∀ layout, v.Layout layout → tokenize layout 1 = ⟨[some ⟨0, t⟩], []⟩ := by
  obtain ⟨b, out, hdenotes, hlayouts⟩ := enclosed_of_exact h hv hs
  refine ⟨layout_writeLiteral h, b.opener :: out ++ [b.closer], ?_, fun layout hlayout => ?_⟩
  · simpa using Literal.read?_of_denotes hdenotes Blank.nil Blank.nil
  · obtain ⟨inner, rfl, hfills⟩ := hlayouts layout hlayout
    exact tokenize_whole (Whole.bracket b hfills)

/-- An entry with blanks around its colon. -/
def airyEntry : Entry := ⟨"None".toList, .none, [' '], [' '], "True".toList, .bool true⟩

/-- A tuple of one element, and a dictionary. -/
def airyValue : Value := .list [.tuple [.int 1], .dict [(.none, .bool true)]]

/-- A layout of it with blanks in all places, and only blanks between the elements. -/
def airyText : Text := "[ (1 , ) \x7bNone : True \x7d ]".toList

theorem tokenize_layout_airyText : airyValue.Exact ∧ airyValue.isContainer = true ∧
    airyValue.EndsPlainly ∧ airyValue.Layout airyText ∧
    ∃ t, Literal.read? t = some airyValue ∧ tokenize airyText 1 = ⟨[some ⟨0, t⟩], []⟩ := by
  have hexact : airyValue.Exact := by
    refine .list (List.forall_mem_cons.mpr ⟨?_, List.forall_mem_singleton.mpr ?_⟩)
    · exact .tuple (List.forall_mem_singleton.mpr (.int 1))
    · exact .dict (List.forall_mem_singleton.mpr .none) (List.forall_mem_singleton.mpr (.bool true))
  have hends : airyValue.EndsPlainly := by
    simp [Value.EndsPlainly, Value.AllStrings, airyValue, Value.strings, Value.stringsOfItems,
      Value.stringsOfEntries]
  have htuple : Value.Layout (.tuple [.int 1]) "(1 , )".toList :=
    .single (.scalar rfl) Blank.nil Blank.space Blank.space
  have hkeys : ∀ e ∈ [airyEntry], e.key.Layout e.keyText :=
    List.forall_mem_singleton.mpr (.scalar rfl)
  have hvalues : ∀ e ∈ [airyEntry], e.value.Layout e.valueText :=
    List.forall_mem_singleton.mpr (.scalar rfl)
  have hdict : Value.Layout (.dict [(.none, .bool true)]) "\x7bNone : True \x7d".toList :=
    .dict hkeys hvalues (List.forall_mem_singleton.mpr ⟨.space, .space⟩) (.last _) Blank.nil
      Blank.space
  have hparts : ∀ p ∈ [("(1 , )".toList, Value.tuple [.int 1]),
      ("\x7bNone : True \x7d".toList, Value.dict [(.none, .bool true)])], p.2.Layout p.1 :=
    List.forall_mem_cons.mpr ⟨htuple, List.forall_mem_singleton.mpr hdict⟩
  have hspread : Spread ["(1 , )".toList, "\x7bNone : True \x7d".toList]
      ("(1 , )".toList ++ [' '] ++ "\x7bNone : True \x7d".toList) :=
    .cons (.blanks .space (by decide)) (.last _)
  have hlayout : airyValue.Layout airyText := .list hparts hspread Blank.space Blank.space
  obtain ⟨-, t, hread, hlayouts⟩ := tokenize_layout hexact rfl hends
  exact ⟨hexact, rfl, hends, hlayout, t, hread, hlayouts airyText hlayout⟩

end Python

end DesignRecipe
