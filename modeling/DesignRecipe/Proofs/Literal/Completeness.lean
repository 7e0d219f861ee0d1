import DesignRecipe.Proofs.Literal.Grammar
import Mathlib.Data.List.Forall2

/-!
# Every literal is read

A text that the grammar derives is read, and what is read is the value that it denotes.
Two things are arranged for the induction.

* **A literal is read in front of what may follow it.** A reader takes the longest run of
  characters that it knows, so a number or a word is only read back if the text after it
  does not go on with one. Inside a container that text is a blank, a comma, a colon or a
  closing bracket (`Ended`), and none of these goes on with anything.
* **The fuel is twice the length of the literal.** Each part of a container is shorter
  than the container by its two brackets, which pays for the two calls that lead to it.
-/

namespace DesignRecipe.Literal

open Text (Blank isBlank trimLeft)

/-! ### What may follow a literal -/

/-- The characters that end a literal inside a container. -/
def delimiters : List Char := [',', ':', ']', ')', '}']

/-- **A text that goes on with no literal before it.** -/
def Ended (rest : Text) : Prop := ∀ c ∈ rest.head?, isBlank c = true ∨ c ∈ delimiters

theorem Ended.nil : Ended [] := fun _ h => nomatch h

theorem Ended.cons {c : Char} (hc : c ∈ delimiters) (rest : Text) : Ended (c :: rest) := by
  intro d hd
  rw [List.head?_cons, Option.mem_some_iff] at hd
  exact Or.inr (hd ▸ hc)

theorem Ended.append {blanks rest : Text} (hb : Blank blanks) (hr : Ended rest) :
    Ended (blanks ++ rest) := by
  cases blanks with
  | nil => exact hr
  | cons b blanks =>
    intro d hd
    rw [List.cons_append, List.head?_cons, Option.mem_some_iff] at hd
    exact Or.inl (hd ▸ hb b List.mem_cons_self)

/-- What holds of the delimiters one by one. -/
theorem forall_delimiters {P : Char → Prop} (table : P ',' ∧ P ':' ∧ P ']' ∧ P ')' ∧ P '}')
    {c : Char} (hc : c ∈ delimiters) : P c := by
  simp only [delimiters, List.mem_cons, List.not_mem_nil, or_false] at hc
  obtain ⟨hcomma, hcolon, hsquare, hround, hcurly⟩ := table
  rcases hc with rfl | rfl | rfl | rfl | rfl <;> assumption

theorem isBlank_of_mem_delimiters {c : Char} (hc : c ∈ delimiters) : isBlank c = false :=
  forall_delimiters (P := fun c => isBlank c = false) (by decide) hc

/-- No number goes on with what ends a literal. -/
theorem continuesNumber_of_ended {c : Char} {rest : Text} (h : Ended (c :: rest))
    (previous : Char) : continuesNumber previous c = false := by
  have hc : c.isAlphanum = false ∧ c ≠ '.' ∧ c ≠ '_' ∧ c ≠ '+' ∧ c ≠ '-' := by
    rcases h c (by simp) with hc | hc
    · exact Text.forall_isBlank (P := fun c => c.isAlphanum = false ∧ c ≠ '.' ∧ c ≠ '_' ∧
        c ≠ '+' ∧ c ≠ '-') (by decide +kernel) hc
    · exact forall_delimiters (P := fun c => c.isAlphanum = false ∧ c ≠ '.' ∧ c ≠ '_' ∧
        c ≠ '+' ∧ c ≠ '-') (by decide) hc
  simp [continuesNumber, hc]

/-- No word goes on with what ends a literal. -/
theorem inWord_of_ended {c : Char} {rest : Text} (h : Ended (c :: rest)) : inWord c = false := by
  rcases h c (by simp) with hc | hc
  · have hne : c ≠ '_' := by
      rintro rfl
      exact absurd hc (by decide)
    simp [inWord, Text.isAlphanumeric_of_isBlank hc, hne]
  · exact forall_delimiters (P := fun c => inWord c = false) (by decide +kernel) hc

/-! ### Scalars -/

theorem readString_quote (quote : Char) (rest : Text) :
    readString quote (quote :: rest) = some ([], rest) := by
  cases rest <;> rw [readString, if_pos rfl]

theorem readString_plain {quote c : Char} (hq : c ≠ quote) (hb : c ≠ '\\') (rest : Text) :
    readString quote (c :: rest) =
      (readString quote rest).map fun (body, rest) => (c :: body, rest) := by
  cases rest with
  | nil => simp [readString, hq]
  | cons d rest => rw [readString, if_neg hq, if_neg hb]

theorem readString_escaped {quote : Char} (hq : quote ≠ '\\') (c : Char) (rest : Text) :
    readString quote ('\\' :: c :: rest) =
      (readString quote rest).map fun (body, rest) => (unescape c :: body, rest) := by
  rw [readString, if_neg hq.symm, if_pos rfl]

/-- **A string is read up to its closing quote**, wherever that stands. -/
theorem readString_body {quote : Char} (hq : quote ≠ '\\') {body text : Text}
    (h : Body quote body text) (rest : Text) :
    readString quote (body ++ quote :: rest) = some (text, rest) := by
  induction h with
  | nil => exact readString_quote quote rest
  | plain hc hb _ ih => rw [List.cons_append, readString_plain hc hb, ih, Option.map_some]
  | escaped c _ ih =>
    rw [List.cons_append, List.cons_append, readString_escaped hq, ih, Option.map_some]

/-- **A number is read to its end.** -/
theorem splitNumber_append {previous : Char} {more rest : Text}
    (h : (previous :: more).IsChain fun previous c => continuesNumber previous c)
    (hr : Ended rest) : splitNumber previous (more ++ rest) = (more, rest) := by
  induction more generalizing previous with
  | nil =>
    cases rest with
    | nil => rfl
    | cons c rest =>
      rw [List.nil_append, splitNumber, if_neg (by simp [continuesNumber_of_ended hr])]
  | cons c more ih =>
    obtain ⟨hc, hmore⟩ := List.isChain_cons_cons.mp h
    rw [List.cons_append, splitNumber, if_pos hc, ih hmore]

/-- The words that are literals. -/
theorem word_cases {t : Text} {v : Value} (h : wordValue? t = some v) :
    t = ['N', 'o', 'n', 'e'] ∨ t = ['T', 'r', 'u', 'e'] ∨ t = ['F', 'a', 'l', 's', 'e'] := by
  unfold wordValue? at h
  split at h
  · next ht => exact Or.inl ht
  split at h
  · next ht => exact Or.inr (Or.inl ht)
  split at h
  · next ht => exact Or.inr (Or.inr ht)
  · exact absurd h (by simp)

/-- **A word is read to its end.** -/
theorem readWord_append {t rest : Text} {v : Value} (h : wordValue? t = some v)
    (hr : Ended rest) : readWord (t ++ rest) = some (v, rest) := by
  have hin : ∀ c ∈ t, inWord c = true := by
    rw [← List.all_eq_true]
    rcases word_cases h with rfl | rfl | rfl <;> decide +kernel
  have hout : rest.takeWhile inWord = [] ∧ rest.dropWhile inWord = rest := by
    cases rest with
    | nil => exact ⟨rfl, rfl⟩
    | cons c rest => simp [inWord_of_ended hr]
  rw [readWord, List.takeWhile_append_of_pos hin, List.dropWhile_append_of_pos hin, hout.1,
    hout.2, List.append_nil, h, Option.map_some]

/-! ### Containers -/

/-- **A literal that is read** in front of whatever may follow it, given fuel for twice
its length. It starts with a character that no reader of containers takes for its own. -/
structure Reads (t : Text) (v : Value) : Prop where
  head : ∃ c ∈ t.head?, isBlank c = false ∧ c ∉ delimiters
  read : ∀ {fuel : Nat} {rest : Text}, 2 * t.length ≤ fuel → Ended rest →
    readValue fuel (t ++ rest) = some (v, rest)

variable {part rest before after : Text} {v : Value} {fuel : Nat}

/-- Blanks in front of a literal are passed over, and then its own text is found. -/
theorem Reads.trimLeft_append (h : Reads part v) (hb : Blank before) (rest : Text) :
    ∃ c tail, part = c :: tail ∧ c ∉ delimiters ∧
      trimLeft (before ++ part ++ rest) = c :: (tail ++ rest) := by
  obtain ⟨c, hc, hblank, hdelim⟩ := h.head
  obtain ⟨tail, rfl⟩ := List.head?_eq_some_iff.mp hc
  refine ⟨c, tail, rfl, hdelim, ?_⟩
  rw [List.append_assoc, Text.trimLeft_append hb, List.cons_append, Text.trimLeft_cons hblank]

/-- The readers pass over blanks at the start. -/
theorem readValue_blank (hb : Blank before) (fuel : Nat) (s : Text) :
    readValue fuel (before ++ s) = readValue fuel s := by
  cases fuel with
  | zero => rfl
  | succ fuel => rw [readValue, readValue, Text.trimLeft_append hb]

/-- What comes after a part: a delimiter, behind blanks. -/
theorem trimLeft_delimiter {c : Char} (hc : c ∈ delimiters) (ha : Blank after) (rest : Text) :
    trimLeft (after ++ c :: rest) = c :: rest := by
  rw [Text.trimLeft_append ha, Text.trimLeft_cons (isBlank_of_mem_delimiters hc)]

/-- The last part of a list or a tuple is read. -/
theorem readItems_last {close : Char} (hclose : close ∈ delimiters) (hcomma : close ≠ ',')
    (h : Reads part v) (hb : Blank before) (ha : Blank after)
    (hfuel : 2 * part.length ≤ fuel) (rest : Text) :
    readItems (fuel + 1) close (before ++ part ++ (after ++ close :: rest)) =
      some ([v], false, rest) := by
  have hended : Ended (after ++ close :: rest) := Ended.append ha (Ended.cons hclose rest)
  obtain ⟨c, tail, rfl, hc, hs⟩ := h.trimLeft_append hb (after ++ close :: rest)
  -- A part is not taken for the end of the container.
  have hne : c ≠ close := fun hcc => hc (hcc ▸ hclose)
  have hread : readValue fuel (c :: (tail ++ (after ++ close :: rest))) =
      some (v, after ++ close :: rest) := h.read hfuel hended
  rw [readItems, hs]
  simp only [if_neg hne, hread, trimLeft_delimiter hclose ha, if_neg hcomma, if_pos]

/-- A part of a list or a tuple is read that a comma follows, and then the parts after it. -/
theorem readItems_comma {close : Char} (hclose : close ∈ delimiters) (h : Reads part v)
    (hb : Blank before) (ha : Blank after) (hfuel : 2 * part.length ≤ fuel)
    {items : List Value} {trailing : Bool} {more : Text}
    (hmore : readItems fuel close more = some (items, trailing, rest)) :
    readItems (fuel + 1) close (before ++ part ++ (after ++ ',' :: more)) =
      some (v :: items, trailing || items.isEmpty, rest) := by
  have hcomma : ',' ∈ delimiters := by decide
  have hended : Ended (after ++ ',' :: more) := Ended.append ha (Ended.cons hcomma more)
  obtain ⟨c, tail, rfl, hc, hs⟩ := h.trimLeft_append hb (after ++ ',' :: more)
  have hne : c ≠ close := fun hcc => hc (hcc ▸ hclose)
  have hread : readValue fuel (c :: (tail ++ (after ++ ',' :: more))) =
      some (v, after ++ ',' :: more) := h.read hfuel hended
  rw [readItems, hs]
  simp only [if_neg hne, hread, trimLeft_delimiter hcomma ha, if_pos, hmore, Option.map_some]

/-- **Parts laid out up to a closing bracket are read one by one.** -/
theorem readItems_laid {close : Char} (hclose : close = ']' ∨ close = ')') {parts : List Text}
    {trailing : Bool} {t : Text} (h : Laid parts trailing t) {items : List Value}
    (hitems : List.Forall₂ Reads parts items) (hfuel : 2 * t.length + 1 ≤ fuel) (rest : Text) :
    readItems fuel close (t ++ close :: rest) = some (items, trailing, rest) := by
  have hdelim : close ∈ delimiters := by rcases hclose with rfl | rfl <;> decide
  have hcomma : close ≠ ',' := by rcases hclose with rfl | rfl <;> decide
  induction h generalizing fuel items with
  | nil hb =>
    obtain ⟨fuel, rfl⟩ : ∃ n, fuel = n + 1 := ⟨fuel - 1, by omega⟩
    cases hitems
    simp only [readItems, trimLeft_delimiter hdelim hb, if_pos]
  | @last before after part hb ha =>
    obtain ⟨fuel, rfl⟩ : ∃ n, fuel = n + 1 := ⟨fuel - 1, by omega⟩
    obtain ⟨v, _, hpart, ⟨⟩, rfl⟩ := List.forall₂_cons_left_iff.mp hitems
    simp only [List.length_append] at hfuel
    rw [List.append_assoc _ after]
    exact readItems_last hdelim hcomma hpart hb ha (by omega) rest
  | @comma before after part more parts trailing hb ha hmore ih =>
    obtain ⟨fuel, rfl⟩ : ∃ n, fuel = n + 1 := ⟨fuel - 1, by omega⟩
    obtain ⟨v, items, hpart, hparts, rfl⟩ := List.forall₂_cons_left_iff.mp hitems
    simp only [List.length_append, List.length_cons] at hfuel
    -- The reader looks at the values read, the layout at the parts.
    have hempty : parts.isEmpty = items.isEmpty := by cases hparts <;> rfl
    have hmore : readItems fuel close (more ++ close :: rest) = some (items, trailing, rest) :=
      ih hparts (by omega)
    rw [List.append_assoc, List.append_assoc _ after, List.cons_append, hempty]
    exact readItems_comma hdelim hpart hb ha (by omega) hmore

/-- An entry of a dictionary of which both parts are read. -/
structure Entry.Readable (e : Entry) : Prop where
  key : Reads e.keyText e.key
  before : Blank e.before
  after : Blank e.after
  value : Reads e.valueText e.value

/-- **An entry is found** behind blanks: its key is read up to the colon, and its value after
the colon. -/
theorem Entry.Readable.read_parts {e : Entry} (h : e.Readable) (hb : Blank before)
    (hfuel : 2 * e.text.length ≤ fuel) (hr : Ended rest) :
    ∃ c tail, c ∉ delimiters ∧ trimLeft (before ++ e.text ++ rest) = c :: tail ∧
      readValue fuel (c :: tail) =
        some (e.key, e.before ++ ':' :: (e.after ++ e.valueText ++ rest)) ∧
      trimLeft (e.before ++ ':' :: (e.after ++ e.valueText ++ rest)) =
        ':' :: (e.after ++ e.valueText ++ rest) ∧
      readValue fuel (e.after ++ e.valueText ++ rest) = some (e.value, rest) := by
  simp only [Entry.text, List.length_append, List.length_cons] at hfuel
  have hcolon : ':' ∈ delimiters := by decide
  have hended : Ended (e.before ++ ':' :: (e.after ++ e.valueText ++ rest)) :=
    Ended.append h.before (Ended.cons hcolon _)
  have htext : before ++ e.text ++ rest =
      before ++ e.keyText ++ (e.before ++ ':' :: (e.after ++ e.valueText ++ rest)) := by
    simp [Entry.text]
  obtain ⟨c, tail, hkey, hc, hs⟩ :=
    h.key.trimLeft_append hb (e.before ++ ':' :: (e.after ++ e.valueText ++ rest))
  refine ⟨c, _, hc, htext ▸ hs, ?_, trimLeft_delimiter hcolon h.before _, ?_⟩
  · rw [← List.cons_append, ← hkey]
    exact h.key.read (by omega) hended
  · rw [List.append_assoc, readValue_blank h.after, h.value.read (by omega) hr]

/-- The last entry of a dictionary is read. -/
theorem readEntries_last {e : Entry} (h : e.Readable) (hb : Blank before) (ha : Blank after)
    (hfuel : 2 * e.text.length ≤ fuel) (rest : Text) :
    readEntries (fuel + 1) (before ++ e.text ++ (after ++ '}' :: rest)) =
      some ([(e.key, e.value)], rest) := by
  have hclose : '}' ∈ delimiters := by decide
  have hended : Ended (after ++ '}' :: rest) := Ended.append ha (Ended.cons hclose rest)
  obtain ⟨c, tail, hc, hs, hkey, hcolon, hvalue⟩ := h.read_parts hb hfuel hended
  have hne : c ≠ '}' := fun hcc => hc (hcc ▸ hclose)
  have hcomma : ('}' : Char) ≠ ',' := by decide
  rw [readEntries, hs]
  simp only [if_neg hne, hkey, hcolon, hvalue, ne_eq, not_true_eq_false, if_false,
    trimLeft_delimiter hclose ha, if_neg hcomma, if_pos]

/-- An entry of a dictionary is read that a comma follows, and then the entries after it. -/
theorem readEntries_comma {e : Entry} (h : e.Readable) (hb : Blank before) (ha : Blank after)
    (hfuel : 2 * e.text.length ≤ fuel) {entries : List (Value × Value)} {more : Text}
    (hmore : readEntries fuel more = some (entries, rest)) :
    readEntries (fuel + 1) (before ++ e.text ++ (after ++ ',' :: more)) =
      some ((e.key, e.value) :: entries, rest) := by
  have hcomma : ',' ∈ delimiters := by decide
  have hended : Ended (after ++ ',' :: more) := Ended.append ha (Ended.cons hcomma more)
  obtain ⟨c, tail, hc, hs, hkey, hcolon, hvalue⟩ := h.read_parts hb hfuel hended
  have hne : c ≠ '}' := fun hcc => hc (hcc ▸ by decide)
  rw [readEntries, hs]
  simp only [if_neg hne, hkey, hcolon, hvalue, ne_eq, not_true_eq_false, if_false,
    trimLeft_delimiter hcomma ha, if_pos, hmore, Option.map_some]

/-- **Entries laid out up to the closing bracket are read one by one.** -/
theorem readEntries_laid {parts : List Text} {trailing : Bool} {t : Text}
    (h : Laid parts trailing t) {entries : List Entry} (hparts : parts = entries.map Entry.text)
    (hentries : ∀ e ∈ entries, e.Readable) (hfuel : 2 * t.length + 1 ≤ fuel) (rest : Text) :
    readEntries fuel (t ++ '}' :: rest) = some (entries.map fun e => (e.key, e.value), rest) := by
  induction h generalizing fuel entries with
  | nil hb =>
    obtain ⟨fuel, rfl⟩ : ∃ n, fuel = n + 1 := ⟨fuel - 1, by omega⟩
    obtain rfl := List.map_eq_nil_iff.mp hparts.symm
    simp only [readEntries, trimLeft_delimiter (by decide : '}' ∈ delimiters) hb, if_pos,
      List.map_nil]
  | @last before after part hb ha =>
    obtain ⟨fuel, rfl⟩ : ∃ n, fuel = n + 1 := ⟨fuel - 1, by omega⟩
    obtain ⟨e, _, rfl, rfl, hnil⟩ := List.map_eq_cons_iff.mp hparts.symm
    obtain rfl := List.map_eq_nil_iff.mp hnil
    simp only [List.length_append] at hfuel
    rw [List.append_assoc _ after]
    exact readEntries_last (hentries e List.mem_cons_self) hb ha (by omega) rest
  | @comma before after part more parts trailing hb ha hmore ih =>
    obtain ⟨fuel, rfl⟩ : ∃ n, fuel = n + 1 := ⟨fuel - 1, by omega⟩
    obtain ⟨e, entries, rfl, rfl, hmap⟩ := List.map_eq_cons_iff.mp hparts.symm
    simp only [List.length_append, List.length_cons] at hfuel
    have hmore : readEntries fuel (more ++ '}' :: rest) =
        some (entries.map fun e => (e.key, e.value), rest) :=
      ih hmap.symm (fun e he => hentries e (List.mem_cons_of_mem _ he)) (by omega)
    rw [List.append_assoc, List.append_assoc _ after, List.cons_append]
    exact readEntries_comma (hentries e List.mem_cons_self) hb ha (by omega) hmore

/-! ### All literals -/

/-- A literal that is no container is read if its scalar reader reads it. -/
theorem Reads.scalar {c : Char} {more : Text} (hblank : isBlank c = false)
    (hc : c ∉ ['[', '(', '{'] ++ delimiters)
    (h : ∀ rest, Ended rest → readScalar c (more ++ rest) = some (v, rest)) :
    Reads (c :: more) v where
  head := ⟨c, rfl, hblank, fun hd => hc (List.mem_append_right _ hd)⟩
  read := by
    intro fuel rest hfuel hr
    obtain ⟨fuel, rfl⟩ : ∃ n, fuel = n + 1 := ⟨fuel - 1, by simp at hfuel; omega⟩
    simp only [List.mem_append, List.mem_cons, List.not_mem_nil, or_false, not_or] at hc
    rw [List.cons_append, readValue, Text.trimLeft_cons hblank]
    simp only [hc, if_false, h rest hr]

theorem Reads.word {t : Text} (h : wordValue? t = some v) : Reads t v := by
  obtain ⟨c, more, rfl, hletter, hblank, hnumber, hquote, hc⟩ : ∃ c more, t = c :: more ∧
      Text.isAlphabetic c = true ∧ isBlank c = false ∧ startsNumber c = false ∧
        (c ≠ '"' ∧ c ≠ '\'') ∧ c ∉ ['[', '(', '{'] ++ delimiters := by
    rcases word_cases h with rfl | rfl | rfl
    · exact ⟨'N', _, rfl, by decide +kernel⟩
    · exact ⟨'T', _, rfl, by decide +kernel⟩
    · exact ⟨'F', _, rfl, by decide +kernel⟩
  refine Reads.scalar hblank hc fun rest hr => ?_
  have hread : readWord (c :: (more ++ rest)) = some (v, rest) := readWord_append h hr
  simp [readScalar, hquote, hnumber, hletter, hread]

theorem Reads.number {t : Text} (hshape : NumberShaped t) (h : numberValue? t = some v) :
    Reads t v := by
  obtain ⟨⟨c, hc, hstart⟩, hchain⟩ := hshape
  obtain ⟨more, rfl⟩ := List.head?_eq_some_iff.mp hc
  have hblank : isBlank c = false := by
    refine Bool.eq_false_iff.mpr fun hb => ?_
    have := Text.forall_isBlank (P := fun c => startsNumber c = false) (by decide +kernel) hb
    exact absurd hstart (by simp [this])
  -- What starts a number is none of the characters that are looked at before.
  have hother : c ∉ ['"', '\''] ++ (['[', '(', '{'] ++ delimiters) := by
    intro hmem
    have table : (['"', '\''] ++ (['[', '(', '{'] ++ delimiters)).all (!startsNumber ·) = true := by
      decide
    have hstart' := List.all_eq_true.mp table c hmem
    rw [hstart] at hstart'
    exact absurd hstart' (by decide)
  refine Reads.scalar hblank (fun hd => hother (List.mem_append_right _ hd)) fun rest hr => ?_
  have hquote : ¬(c = '"' ∨ c = '\'') := fun hq =>
    hother (List.mem_append_left _ (by simpa using hq))
  rw [readScalar, if_neg hquote, if_pos hstart, readNumber, splitNumber_append hchain hr]
  simp only [h, Option.map_some]

theorem Reads.string {quote : Char} (hq : quote = '"' ∨ quote = '\'') {body text : Text}
    (h : Body quote body text) : Reads (quote :: body ++ [quote]) (.str text) := by
  have table : ∀ q, q = '"' ∨ q = '\'' →
      q ≠ '\\' ∧ isBlank q = false ∧ q ∉ ['[', '(', '{'] ++ delimiters := by
    rintro q (rfl | rfl) <;> decide
  obtain ⟨hback, hblank, hc⟩ := table quote hq
  refine Reads.scalar hblank hc fun rest _ => ?_
  change readScalar quote (body ++ [quote] ++ rest) = _
  rw [List.append_assoc, List.singleton_append, readScalar, if_pos hq, readString_body hback h,
    Option.map_some]

/-- A container is read if its parts up to the closing bracket are. -/
theorem Reads.container {opener closer : Char}
    (hopener : opener = '[' ∨ opener = '(' ∨ opener = '{') {t : Text}
    (h : ∀ fuel rest, 2 * t.length + 1 ≤ fuel →
      readValue (fuel + 1) (opener :: (t ++ closer :: rest)) = some (v, rest)) :
    Reads (opener :: t ++ [closer]) v where
  head := ⟨opener, rfl, by rcases hopener with rfl | rfl | rfl <;> decide⟩
  read := by
    intro fuel rest hfuel _
    simp only [List.length_append, List.length_cons, List.length_nil] at hfuel
    obtain ⟨fuel, rfl⟩ : ∃ n, fuel = n + 1 := ⟨fuel - 1, by omega⟩
    rw [List.append_assoc, List.singleton_append, List.cons_append, h fuel rest (by omega)]

/-- The parts of a container are read one by one. -/
theorem forall₂_reads {parts : List (Text × Value)} (h : ∀ p ∈ parts, Reads p.1 p.2) :
    List.Forall₂ Reads (parts.map Prod.fst) (parts.map Prod.snd) :=
  List.forall₂_map_left_iff.mpr (List.forall₂_map_right_iff.mpr (List.forall₂_same.mpr h))

/-- **Every literal is read.** -/
theorem Reads.of_denotes {t : Text} (h : Denotes t v) : Reads t v := by
  induction h with
  | word h => exact Reads.word (wordValue?_eq_some_iff.mpr h)
  | number hshape h => exact Reads.number hshape (numberValue?_eq_some_iff.mpr h)
  | string hq h => exact Reads.string hq h
  | @list parts trailing t _ hlaid ih =>
    refine Reads.container (Or.inl rfl) fun fuel rest hfuel => ?_
    rw [readValue, Text.trimLeft_cons (by decide)]
    simp only [if_pos, readItems_laid (Or.inl rfl) hlaid (forall₂_reads ih) hfuel, Option.map_some]
  | @parentheses parts trailing t _ hlaid ih =>
    refine Reads.container (Or.inr (Or.inl rfl)) fun fuel rest hfuel => ?_
    rw [readValue, Text.trimLeft_cons (by decide)]
    simp only [if_pos, readItems_laid (Or.inr rfl) hlaid (forall₂_reads ih) hfuel, Option.map_some]
    rfl
  | @dict entries trailing t _ _ hblanks hlaid ihKey ihValue =>
    refine Reads.container (Or.inr (Or.inr rfl)) fun fuel rest hfuel => ?_
    have hentries : ∀ e ∈ entries, e.Readable := fun e he =>
      ⟨ihKey e he, (hblanks e he).1, (hblanks e he).2, ihValue e he⟩
    rw [readValue, Text.trimLeft_cons (by decide)]
    simp only [if_pos, readEntries_laid hlaid rfl hentries hfuel, Option.map_some]
    rfl

/-- **Reading a literal gives the value that it denotes**, whatever blanks stand around
it. -/
theorem read?_of_denotes {t : Text} (h : Denotes t v) (hb : Blank before) (ha : Blank after) :
    read? (before ++ t ++ after) = some v := by
  have hended : Ended after := by simpa using Ended.append ha Ended.nil
  have hread : readValue (fuelFor (before ++ t ++ after)) (before ++ t ++ after) =
      some (v, after) := by
    rw [List.append_assoc, readValue_blank hb]
    refine (Reads.of_denotes h).read ?_ hended
    simp only [fuelFor, List.length_append]
    omega
  rw [read?, hread]
  simp only [Text.trimLeft_eq_nil ha, List.isEmpty_nil, if_pos]

end DesignRecipe.Literal
