import DesignRecipe.Proofs.Token.Scan
import DesignRecipe.Proofs.Literal.RoundTrip

/-!
# Written literals as tokens

A literal that is written for a value has spaces after its commas and colons, so the scan does
not keep it as it is: inside brackets it drops the spaces. What it makes of the literal still
denotes the same value, since blanks mean nothing there (`Python.Respaced`).

The scan and the reader of literals do not agree on where a string ends. The reader knows that
a backslash goes together with the character after it; the scan looks at one character before
a quote, so a string that ends with a backslash does not end for the scan where it ends for
the reader. All other strings end at the same place for both.
-/

namespace DesignRecipe

open Scan (Copies Element Plain Shielded Whole)

namespace Value

mutual

/-- **The strings of a value**, in the order written. -/
def strings : Value → List Text
  | .str s => [s]
  | .list items => stringsOfItems items
  | .tuple items => stringsOfItems items
  | .dict entries => stringsOfEntries entries
  | _ => []

/-- The strings of values one after the other. -/
def stringsOfItems : List Value → List Text
  | [] => []
  | item :: rest => item.strings ++ stringsOfItems rest

/-- The strings of the entries of a dictionary one after the other. -/
def stringsOfEntries : List (Value × Value) → List Text
  | [] => []
  | (key, value) :: rest => key.strings ++ value.strings ++ stringsOfEntries rest

end

theorem stringsOfItems_eq (items : List Value) : stringsOfItems items = items.flatMap strings := by
  induction items with
  | nil => rfl
  | cons item items ih => rw [stringsOfItems, ih, List.flatMap_cons]

theorem strings_dict (entries : List (Value × Value)) :
    (dict entries).strings = entries.flatMap fun e => e.1.strings ++ e.2.strings := by
  induction entries with
  | nil => rfl
  | cons e entries ih => exact congrArg (e.1.strings ++ e.2.strings ++ ·) ih

theorem strings_list (items : List Value) : (list items).strings = items.flatMap strings :=
  stringsOfItems_eq items

theorem strings_tuple (items : List Value) : (tuple items).strings = items.flatMap strings :=
  stringsOfItems_eq items

/-- **What holds of every string of a value.** -/
def AllStrings (P : Text → Prop) (v : Value) : Prop := ∀ s ∈ v.strings, P s

variable {P : Text → Prop}

theorem AllStrings.str {s : Text} (h : (Value.str s).AllStrings P) : P s :=
  h s (List.mem_singleton_self s)

theorem AllStrings.list {items : List Value} {v : Value} (h : (Value.list items).AllStrings P)
    (hv : v ∈ items) : v.AllStrings P := by
  rw [AllStrings, strings_list, List.forall_mem_flatMap] at h
  exact h v hv

theorem AllStrings.tuple {items : List Value} {v : Value} (h : (Value.tuple items).AllStrings P)
    (hv : v ∈ items) : v.AllStrings P := by
  rw [AllStrings, strings_tuple, List.forall_mem_flatMap] at h
  exact h v hv

theorem AllStrings.dict {entries : List (Value × Value)} {e : Value × Value}
    (h : (Value.dict entries).AllStrings P) (he : e ∈ entries) :
    e.1.AllStrings P ∧ e.2.AllStrings P := by
  rw [AllStrings, strings_dict, List.forall_mem_flatMap] at h
  exact List.forall_mem_append.mp (h e he)

/-- **No string of the value ends with a backslash.** -/
def EndsPlainly (v : Value) : Prop := v.AllStrings fun s => s.getLast? ≠ some '\\'

/-- Whether a value is written between brackets. -/
def isContainer : Value → Bool
  | .list _ | .tuple _ | .dict _ => true
  | _ => false

end Value

namespace Python

open Literal (Denotes Laid Entry)

/-! ### Strings -/

/-- **A quote stands only behind a backslash** in a string as it is written. -/
theorem shielded_flatMap_escape {quote : Char} (hquote : quote = '"' ∨ quote = '\'') (s : Text)
    (before : Char) : Shielded quote (before :: s.flatMap (escape quote)) := by
  have hback : '\\' ≠ quote := by rcases hquote with rfl | rfl <;> decide
  induction s generalizing before with
  | nil => exact List.isChain_singleton before
  | cons c s ih =>
    rw [List.flatMap_cons, escape]
    -- What a backslash stands before is shielded by it, and what is not escaped is no quote.
    have hescaped (d : Char) : Shielded quote (before :: (['\\', d] ++ s.flatMap (escape quote))) :=
      List.isChain_cons_cons.mpr ⟨fun h => absurd h hback,
        List.isChain_cons_cons.mpr ⟨fun _ => rfl, ih d⟩⟩
    split_ifs with h1 h2 h3 h4 hc
    · exact hescaped '\\'
    · exact hescaped 'n'
    · exact hescaped 't'
    · exact hescaped 'r'
    · exact hescaped c
    · exact List.isChain_cons_cons.mpr ⟨fun h => absurd h hc, ih c⟩

/-- **What stands right before the closing quote** is a backslash exactly if the string ends
with one. -/
theorem getLast?_written {quote : Char} (hquote : quote = '"' ∨ quote = '\'') (s : Text) :
    (quote :: s.flatMap (escape quote)).getLast? = some '\\' ↔ s.getLast? = some '\\' := by
  have hback : quote ≠ '\\' := by rcases hquote with rfl | rfl <;> decide
  induction s using List.reverseRecOn with
  | nil => simpa using hback
  | append_singleton s c _ =>
    have hlast : (escape quote c).getLast? = some '\\' ↔ c = '\\' := by
      rw [escape]
      split_ifs with h1 h2 h3 h4 hc
      · simp [h1]
      · simp [h1]
      · simp [h1]
      · simp [h1]
      · simp [h1]
      · simp
    have hne : escape quote c ≠ [] := by
      rw [escape]
      split_ifs <;> simp
    rw [List.flatMap_append, List.flatMap_singleton, ← List.cons_append,
      List.getLast?_append_of_ne_nil _ hne, List.getLast?_concat, hlast, Option.some_inj]

/-- **A string is copied as it is written**, if it does not end with a backslash. -/
theorem element_writeString {s : Text} (h : s.getLast? ≠ some '\\') :
    Element (writeString s) (writeString s) := by
  refine .string (quoteFor_cases s) (shielded_flatMap_escape (quoteFor_cases s) s _) ?_
  rwa [ne_eq, getLast?_written (quoteFor_cases s)]

theorem copies_writeString {s : Text} (h : s.getLast? ≠ some '\\') :
    Copies (writeString s) (writeString s) := (element_writeString h).copies

/-! ### Parts between commas -/

/-- **Parts with a comma and a space between neighbours** lose the spaces. -/
theorem copies_join {α : Type} {write out : α → Text} {items : List α}
    (h : ∀ a ∈ items, Copies (write a) (out a)) :
    Copies (Text.join [',', ' '] (items.map write)) (Text.join [','] (items.map out)) := by
  induction items with
  | nil => exact .nil
  | cons a items ih =>
    have hrest := ih fun b hb => h b (List.mem_cons_of_mem _ hb)
    have ha := h a List.mem_cons_self
    cases items with
    | nil => exact ha
    | cons b items => exact (ha.append (.spaced (Or.inl rfl) .nil .space)).append hrest

/-- **A value whose literal keeps its meaning** inside brackets, without its spaces. -/
def Respaced (v : Value) : Prop := ∃ out, Copies (writeLiteral v) out ∧ Denotes out v

/-- **A value whose literal stands between brackets**, and keeps its meaning without the spaces
there. -/
def Bracketed (v : Value) : Prop :=
  ∃ (b : Bracket) (t out : Text), writeLiteral v = b.opener :: t ++ [b.closer] ∧ Copies t out ∧
    Denotes (b.opener :: out ++ [b.closer]) v

theorem Bracketed.respaced {v : Value} (h : Bracketed v) : Respaced v := by
  obtain ⟨b, t, out, hwrite, hcopies, hdenotes⟩ := h
  exact ⟨_, hwrite ▸ .bracket b hcopies.fills, hdenotes⟩

theorem bracketed_list {items : List Value} (h : ∀ v ∈ items, Respaced v) :
    Bracketed (.list items) := by
  choose! out hcopies hdenotes using h
  exact ⟨.square, _, _, writeLiteral_list items, copies_join hcopies,
    Denotes.list_map hdenotes (Literal.laid_join .nil _)⟩

theorem bracketed_tuple {items : List Value} (h : ∀ v ∈ items, Respaced v) :
    Bracketed (.tuple items) := by
  choose! out hcopies hdenotes using h
  by_cases hsingle : ∃ item, items = [item]
  · obtain ⟨item, rfl⟩ := hsingle
    have hcomma : Copies [','] [','] := .singleton (by decide)
    exact ⟨.round, _, _, writeLiteral_tuple_singleton item,
      (hcopies item List.mem_cons_self).append hcomma,
      Denotes.parentheses_map hdenotes (Literal.laid_comma _)⟩
  · have hne : ∀ item, items ≠ [item] := fun item h => hsingle ⟨item, h⟩
    refine ⟨.round, _, _, writeLiteral_tuple hne, copies_join hcopies, ?_⟩
    have hdenotes := Denotes.parentheses_map hdenotes (Literal.laid_join .nil (items.map out))
    rwa [Literal.parenthesised] at hdenotes
    exact fun item h _ => hne item h

/-- An entry of a dictionary without spaces, its parts written by functions. -/
def tightEntry (key value : Value × Value → Text) (e : Value × Value) : Entry where
  keyText := key e
  key := e.1
  before := []
  after := []
  valueText := value e
  value := e.2

theorem bracketed_dict {entries : List (Value × Value)}
    (hkeys : ∀ e ∈ entries, Respaced e.1) (hvalues : ∀ e ∈ entries, Respaced e.2) :
    Bracketed (.dict entries) := by
  choose! key hkeyCopies hkeyDenotes using hkeys
  choose! value hvalueCopies hvalueDenotes using hvalues
  have hcopies : ∀ e ∈ entries, Copies (entryOf e).text (tightEntry key value e).text := by
    intro e he
    have := ((hkeyCopies e he).append (.spaced (Or.inr rfl) .nil .space)).append (hvalueCopies e he)
    simpa [Entry.text, entryOf, tightEntry] using this
  refine ⟨.curly, _, Text.join [','] ((entries.map (tightEntry key value)).map Entry.text),
    writeLiteral_dict entries, ?_, ?_⟩
  · rw [List.map_map, List.map_map]
    exact copies_join hcopies
  · exact Denotes.dict_map (fun _ => ⟨rfl, rfl⟩) (fun _ => ⟨.nil, .nil⟩) hkeyDenotes hvalueDenotes
      (Literal.laid_join .nil _)

/-! ### Values -/

/-- The characters of an integer have no meaning of their own. -/
theorem plain_of_canonical? {s t : Text} (h : Integer.canonical? s = some t) : Plain s :=
  ⟨Integer.ne_nil_of_canonical? h,
    Integer.forall_mem_of_canonical? (by decide) (by decide) (by decide) h⟩

/-- **A literal that is neither a string nor a container** is made of the letters of three words, of
digits and of a sign. -/
theorem forall_mem_writeScalar {P : Char → Prop} (word : ∀ c ∈ "NoneTrueFalse".toList, P c)
    (minus : P '-') (plus : P '+') (digit : ∀ n < 10, P (Nat.digitChar n)) {v : Value}
    (h : v.Exact) (hv : v.isContainer = false) (hs : ∀ s, v ≠ .str s) :
    writeLiteral v ≠ [] ∧ ∀ c ∈ writeLiteral v, P c := by
  have hword {w : Text} (hne : w ≠ []) (hw : w ⊆ "NoneTrueFalse".toList) :
      w ≠ [] ∧ ∀ c ∈ w, P c := ⟨hne, fun c hc => word c (hw hc)⟩
  have hinteger {w digits : Text} (hw : Integer.canonical? w = some digits) :
      w ≠ [] ∧ ∀ c ∈ w, P c :=
    ⟨Integer.ne_nil_of_canonical? hw, Integer.forall_mem_of_canonical? minus plus digit hw⟩
  cases h with
  | none => exact hword (by decide) (by decide)
  | bool b =>
    cases b with
    | true => exact hword (by decide) (by decide)
    | false => exact hword (by decide) (by decide)
  | int i => exact hinteger (Integer.canonical?_ofInt i.toInt)
  | bigInt hd => exact hinteger hd
  | str s => exact absurd rfl (hs s)
  | list => exact absurd hv Bool.noConfusion
  | tuple => exact absurd hv Bool.noConfusion
  | dict => exact absurd hv Bool.noConfusion

/-- **A literal that is neither a string nor a container is plain.** -/
theorem plain_writeLiteral {v : Value} (h : v.Exact) (hv : v.isContainer = false)
    (hs : ∀ s, v ≠ .str s) : Plain (writeLiteral v) := by
  obtain ⟨hne, hchars⟩ := forall_mem_writeScalar (P := fun c => Scan.isPlain c = true)
    (List.all_eq_true.mp (by decide)) (by decide) (by decide) (by decide) h hv hs
  exact ⟨hne, hchars⟩

theorem respaced_of_plain {v : Value} (h : v.Exact) (hplain : Plain (writeLiteral v)) :
    Respaced v :=
  ⟨_, .of_plain hplain.chars, denotes_writeLiteral h⟩

/-- **Literals keep their meaning without their spaces**, if no string ends with a backslash. -/
theorem respaced_of_exact {v : Value} (h : v.Exact) (hs : v.EndsPlainly) : Respaced v := by
  induction h with
  | none => exact respaced_of_plain .none (plain_writeLiteral .none rfl (by simp))
  | bool b => exact respaced_of_plain (.bool b) (plain_writeLiteral (.bool b) rfl (by simp))
  | int i => exact respaced_of_plain (.int i) (plain_writeLiteral (.int i) rfl (by simp))
  | bigInt hd hw =>
    exact respaced_of_plain (.bigInt hd hw) (plain_writeLiteral (.bigInt hd hw) rfl (by simp))
  | str s => exact ⟨_, copies_writeString hs.str, denotes_writeLiteral (.str s)⟩
  | list _ ih => exact (bracketed_list fun v hv => ih v hv (hs.list hv)).respaced
  | tuple _ ih => exact (bracketed_tuple fun v hv => ih v hv (hs.tuple hv)).respaced
  | dict _ _ ihKey ihValue =>
    exact (bracketed_dict (fun e he => ihKey e he (hs.dict he).1)
      fun e he => ihValue e he (hs.dict he).2).respaced

/-- A value between brackets keeps its meaning without the spaces there. -/
theorem bracketed_of_exact {v : Value} (h : v.Exact) (hv : v.isContainer = true)
    (hs : v.EndsPlainly) : Bracketed v := by
  cases h with
  | list h => exact bracketed_list fun v hv => respaced_of_exact (h v hv) (hs.list hv)
  | tuple h => exact bracketed_tuple fun v hv => respaced_of_exact (h v hv) (hs.tuple hv)
  | dict hkeys hvalues =>
    exact bracketed_dict (fun e he => respaced_of_exact (hkeys e he) (hs.dict he).1)
      fun e he => respaced_of_exact (hvalues e he) (hs.dict he).2
  | none => exact absurd hv (by decide)
  | bool => exact absurd hv (by simp [Value.isContainer])
  | int => exact absurd hv (by simp [Value.isContainer])
  | bigInt => exact absurd hv (by simp [Value.isContainer])
  | str => exact absurd hv (by simp [Value.isContainer])

/-- A literal between brackets is a token that denotes the same value. -/
theorem Bracketed.exists_whole {v : Value} (h : Bracketed v) :
    ∃ out, Whole (writeLiteral v) out ∧ Denotes out v := by
  obtain ⟨b, t, out, hwrite, hcopies, hdenotes⟩ := h
  exact ⟨_, hwrite ▸ Whole.bracket b hcopies.fills, hdenotes⟩

/-! ### Tokens of written literals -/

/-- **A literal between brackets is one token** that is read as the same value. -/
theorem Bracketed.exists_piece {v : Value} (h : Bracketed v) :
    ∃ piece : Piece, tokenize (writeLiteral v) 1 = ⟨[some piece], []⟩ ∧
      Literal.read? piece.text = some v := by
  obtain ⟨out, hwhole, hdenotes⟩ := h.exists_whole
  refine ⟨⟨0, out⟩, tokenize_whole hwhole, ?_⟩
  simpa using Literal.read?_of_denotes hdenotes Text.Blank.nil Text.Blank.nil

/-- The scan behind the elements of a list, each with a comma and a space after it. -/
theorem copies_elements {out : Value → Text} {items : List Value}
    (h : ∀ v ∈ items, Copies (writeLiteral v) (out v)) :
    Copies (items.flatMap fun v => writeLiteral v ++ [',', ' '])
      (items.flatMap fun v => out v ++ [',']) := by
  induction items with
  | nil => exact .nil
  | cons v items ih =>
    exact ((h v List.mem_cons_self).append (.spaced (Or.inl rfl) .nil .space)).append
      (ih fun w hw => h w (List.mem_cons_of_mem _ hw))

theorem join_concat (items : List Value) (v : Value) :
    Text.join [',', ' '] ((items ++ [v]).map writeLiteral) =
      (items.flatMap fun v => writeLiteral v ++ [',', ' ']) ++ writeLiteral v := by
  induction items with
  | nil => rfl
  | cons item items ih =>
    rw [List.cons_append, List.map_cons, Text.join, ih]
    · simp
    · simp

/-- **A string that ends with a backslash does not end for the scan**, if it comes last. -/
theorem exists_walk_nested {items : List Value} {s : Text} (h : ∀ v ∈ items, Respaced v)
    (hs : s.getLast? = some '\\') :
    ∃ u, Scan.empty.walk 0 (writeLiteral (.list (items ++ [.str s]))) = some u ∧
      u.quoting = .nested (quoteFor s) := by
  choose! out hcopies _ using h
  obtain ⟨before, hbefore⟩ :
      ∃ before, before = '[' :: items.flatMap fun v => writeLiteral v ++ [',', ' '] := ⟨_, rfl⟩
  have hwrite : writeLiteral (.list (items ++ [.str s])) = before ++ (writeString s ++ [']']) := by
    rw [writeLiteral_list, join_concat, hbefore, List.cons_append, List.cons_append,
      List.append_assoc]
    rfl
  -- The elements before the string are copied, and the string takes the bracket in.
  obtain ⟨u, hwalk, hwithin⟩ : ∃ u, Scan.empty.walk 0 before = some u ∧ u.Within := by
    obtain ⟨u, hwalk, hu⟩ := copies_elements hcopies (Scan.empty.opened 0 .square) (0 + 1)
      (Scan.opened_within rfl)
    have hopen : Scan.empty.step 0 '[' = some (Scan.empty.opened 0 .square) :=
      Scan.step_opener Scan.rests_empty 0 .square
    refine ⟨u, ?_, hu.within⟩
    rw [hbefore, Scan.walk_cons, hopen, Option.bind_some, hwalk]
  obtain ⟨w, hstring, hquoting⟩ :
      ∃ w, u.walk (0 + before.length) (writeString s) = some w ∧
        w.quoting = .nested (quoteFor s) :=
    ⟨_, Scan.walk_string (quoteFor_cases s) hwithin
      (shielded_flatMap_escape (quoteFor_cases s) s _),
      if_pos ((getLast?_written (quoteFor_cases s) s).mpr hs)⟩
  have hclose : ']' ≠ quoteFor s := by
    rcases quoteFor_cases s with hquote | hquote <;> rw [hquote] <;> decide
  refine ⟨{ w with current := ']' :: w.current, previous := some ']' }, ?_, hquoting⟩
  rw [hwrite, Scan.walk_append, hwalk, Option.bind_some, Scan.walk_append, hstring,
    Option.bind_some, Scan.walk_cons, Scan.step_nested hquoting fun h => absurd h hclose,
    Option.bind_some, Scan.walk_nil]

theorem issues_ne_nil_of_getLast? {items : List Value} {s : Text} (h : ∀ v ∈ items, Respaced v)
    (hs : s.getLast? = some '\\') :
    (tokenize (writeLiteral (.list (items ++ [.str s]))) 1).issues ≠ [] := by
  obtain ⟨u, hwalk, hquoting⟩ := exists_walk_nested h hs
  have hissue := Scan.unterminated_mem_finish (by rw [hquoting]; exact Quoting.noConfusion)
    (writeLiteral (.list (items ++ [.str s]))).length
  rw [← Scan.run_of_walk hwalk] at hissue
  exact List.ne_nil_of_mem (List.mem_append_left _ (List.mem_reverse.mpr hissue))

/-- **A list that ends with a string needs no repair** exactly if this string does not end with
a backslash, as far as the elements before it are concerned. -/
theorem issues_eq_nil_iff {items : List Value} (h : ∀ v ∈ items, Respaced v) (s : Text) :
    (tokenize (writeLiteral (.list (items ++ [.str s]))) 1).issues = [] ↔
      s.getLast? ≠ some '\\' := by
  refine ⟨fun hissues hs => issues_ne_nil_of_getLast? h hs hissues, fun hs => ?_⟩
  have hrespaced : ∀ v ∈ items ++ [.str s], Respaced v :=
    List.forall_mem_append.mpr ⟨h, List.forall_mem_singleton.mpr
      ⟨_, copies_writeString hs, denotes_writeLiteral (.str s)⟩⟩
  obtain ⟨piece, htokens, -⟩ := (bracketed_list hrespaced).exists_piece
  rw [htokens]

/-- **The scan and the reader of literals agree on a literal between brackets** as long as no
string in it ends with a backslash: then the literal is one token without any repair, and the
token is read as the value that was written. One more string beside the value leaves it so
exactly if that string does not end with a backslash either. -/
theorem tokenize_writeLiteral {v : Value} (h : v.Exact) (hv : v.isContainer = true)
    (hs : v.EndsPlainly) :
    (∃ piece : Piece, tokenize (writeLiteral v) 1 = ⟨[some piece], []⟩ ∧
      Literal.read? piece.text = some v) ∧
    ∀ s : Text, (tokenize (writeLiteral (.list [v, .str s])) 1).issues = [] ↔
      s.getLast? ≠ some '\\' := by
  refine ⟨(bracketed_of_exact h hv hs).exists_piece, fun s => ?_⟩
  exact issues_eq_nil_iff (List.forall_mem_singleton.mpr (respaced_of_exact h hs)) s

/-- A dictionary whose key has both quotes and a backslash before one of them. -/
def quotedValue : Value :=
  .dict [(.str ['\\', '"', '\'', '\n'], .tuple [.str ['\'', 's'], .int (-7)])]

theorem tokenize_writeLiteral_quotedValue : quotedValue.Exact ∧ quotedValue.EndsPlainly ∧
    (∃ piece : Piece, tokenize (writeLiteral quotedValue) 1 = ⟨[some piece], []⟩ ∧
      Literal.read? piece.text = some quotedValue) ∧
    ((tokenize (writeLiteral (.list [quotedValue, .str ['a', '\\']])) 1).issues = [] ↔
      (['a', '\\'] : Text).getLast? ≠ some '\\') := by
  have hnil : ∀ v ∈ ([] : List Value), v.Exact := List.forall_mem_nil _
  have hexact : quotedValue.Exact := by
    refine .dict ?_ ?_
    · exact List.forall_mem_singleton.mpr (.str _)
    · exact List.forall_mem_singleton.mpr
        (.tuple (List.forall_mem_cons.mpr ⟨.str _, List.forall_mem_cons.mpr ⟨.int (-7), hnil⟩⟩))
  have hends : quotedValue.EndsPlainly := by
    simp [Value.EndsPlainly, Value.AllStrings, quotedValue, Value.strings, Value.stringsOfItems,
      Value.stringsOfEntries]
  obtain ⟨hpiece, hstring⟩ := tokenize_writeLiteral hexact rfl hends
  exact ⟨hexact, hends, hpiece, hstring _⟩

/-- **A string that ends with a backslash is repaired**, and its list with it, although both
are written as they should be. -/
theorem tokenize_backslash :
    ¬∀ v : Value, v.Exact → v.isContainer = true →
      ∃ piece : Piece, tokenize (writeLiteral v) 1 = ⟨[some piece], []⟩ ∧
        Literal.read? piece.text = some v := by
  intro h
  obtain ⟨piece, htokens, -⟩ :=
    h (.list [.str ['\\']]) (.list (List.forall_mem_singleton.mpr (.str _))) rfl
  have hissues : (tokenize (writeLiteral (.list [.str ['\\']])) 1).issues ≠ [] := by decide
  exact hissues (by rw [htokens])

-- A string with both quotes may bring the scan back, so there is no such rule for all lists.
example : (tokenize (writeLiteral (.list [.str ['\\'], .str ['\'', '"']])) 1).issues = [] := by
  decide

end Python

end DesignRecipe
