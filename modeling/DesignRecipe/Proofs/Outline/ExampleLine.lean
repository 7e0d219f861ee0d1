import DesignRecipe.Proofs.Coercion
import DesignRecipe.Proofs.Outline.Line
import DesignRecipe.Proofs.Text.Lines

/-!
# Examples that are written are read back

An example line that is made of values as they are written for the types of the contract
adds exactly the example with these values, and there is nothing to report about it.

The line is taken apart in three steps, and each has to find the place where the line was
put together. The header and the pipe come before anything that is written for a value. The
arrow is the first one outside of double quotes, since a written value has an arrow only in
a string (`ExampleLine.Arrowless`). And the values stand between blanks, each of them one
token.
-/

namespace DesignRecipe.Outline

open Coercion (Writes coerce)
open Scan (Whole)

variable {recognized : List Text}

namespace ExampleLine

/-! ### The arrow -/

/-- **The search for the arrow passes over a text**, unless the text goes on with what could be
the end of an arrow. -/
def Arrowless (t : Text) : Prop :=
  ∀ rest : Text, rest.head? ≠ some '>' → (t ++ rest).head? ≠ some '>' ∧
    splitArrow false (t ++ rest) = (splitArrow false rest).map fun p => (t ++ p.1, p.2)

theorem Arrowless.nil : Arrowless [] := fun rest h => ⟨h, by simp⟩

theorem Arrowless.append {t t' : Text} (h : Arrowless t) (h' : Arrowless t') :
    Arrowless (t ++ t') := by
  intro rest hrest
  obtain ⟨hhead', hsplit'⟩ := h' rest hrest
  obtain ⟨hhead, hsplit⟩ := h (t' ++ rest) hhead'
  rw [List.append_assoc]
  refine ⟨hhead, ?_⟩
  rw [hsplit, hsplit', Option.map_map]
  simp [Function.comp_def]

/-- No arrow starts where the next character but one does not end it. -/
theorem not_isPrefixOf_arrow {rest : Text} (h : rest.head? ≠ some '>') (c : Char) :
    arrow.isPrefixOf (c :: rest) = false := by
  cases rest with
  | nil => simp [arrow, List.isPrefixOf]
  | cons d rest =>
    have hd : '>' ≠ d := fun heq => h (by rw [List.head?_cons, heq])
    simp [arrow, List.isPrefixOf, hd]

theorem Arrowless.singleton {c : Char} (hquote : c ≠ '"') (hend : c ≠ '>') : Arrowless [c] := by
  intro rest hrest
  refine ⟨by simpa using hend, ?_⟩
  rw [List.singleton_append, splitArrow, not_isPrefixOf_arrow hrest, if_neg hquote]
  rfl

theorem Arrowless.of_isQuiet {t : Text} (h : ∀ c ∈ t, Python.isQuiet c = true) : Arrowless t := by
  induction t with
  | nil => exact .nil
  | cons c t ih =>
    obtain ⟨hc, ht⟩ := List.forall_mem_cons.mp h
    simp only [Python.isQuiet, Bool.and_eq_true, bne_iff_ne] at hc
    exact (Arrowless.singleton hc.1.1 hc.2).append (ih ht)

/-- Between double quotes there is no arrow. -/
theorem splitArrow_quoted {s : Text} (h : '"' ∉ s) (rest : Text) :
    splitArrow true (s ++ '"' :: rest) =
      (splitArrow false rest).map fun p => (s ++ '"' :: p.1, p.2) := by
  induction s with
  | nil => simp [splitArrow]
  | cons c s ih =>
    obtain ⟨hc, hs⟩ := not_or.mp (mt List.mem_cons.mpr h)
    rw [List.cons_append, splitArrow, if_neg (Ne.symm hc), ih hs, Option.map_map]
    rfl

theorem Arrowless.string {s : Text} (h : '"' ∉ s) : Arrowless ('"' :: s ++ ['"']) := by
  intro rest hrest
  have hopen : arrow.isPrefixOf ('"' :: (s ++ '"' :: rest)) = false := rfl
  refine ⟨by simp, ?_⟩
  rw [List.append_assoc, List.cons_append, List.singleton_append, splitArrow, hopen]
  simp [splitArrow_quoted h, Function.comp_def]

theorem Arrowless.join {ts : List Text} (h : ∀ t ∈ ts, Arrowless t) :
    Arrowless (Text.join [' '] ts) := by
  induction ts with
  | nil => exact .nil
  | cons t ts ih =>
    obtain ⟨ht, hts⟩ := List.forall_mem_cons.mp h
    cases ts with
    | nil => exact ht
    | cons t' ts =>
      exact (ht.append (.singleton (by decide) (by decide))).append (ih hts)

theorem arrowless_of_writes {tag t : Text} {v : Value} (h : Writes recognized tag v t) :
    Arrowless t := by
  rcases h.literal_or_string with ⟨rfl, hexact, hs⟩ | ⟨s, rfl, hquote, -⟩
  · exact .of_isQuiet (Python.isQuiet_writeLiteral hexact hs)
  · exact .string hquote

/-- **The arrow is found** behind a text that has none. -/
theorem splitArrow_append {before : Text} (h : Arrowless before) (after : Text) :
    splitArrow false (before ++ (arrow ++ after)) = some (before, after) := by
  have harrow : splitArrow false (arrow ++ after) = some ([], after) := rfl
  obtain ⟨-, hsplit⟩ := h (arrow ++ after) (by simp [arrow])
  rw [hsplit, harrow]
  simp

/-! ### The values -/

/-- **A text that is one token** and is coerced to a value of the type with a tag. -/
def Gives (recognized : List Text) (tag : Text) (v : Value) (t : Text) : Prop :=
  ∃ out, Whole t out ∧ coerce recognized out tag = .ok v

section Values

variable {tags : List Text} {written : List (Value × Text)} {tag t : Text} {v : Value}

theorem valueAt_of_coerce {piece : Piece} (h : coerce recognized piece.text tag = .ok v)
    (slot : Slot) (start stop : Nat) :
    valueAt recognized slot tag start stop (some piece) = (v, []) := by
  rw [valueAt, h]

/-- **Written values are tokens**, and the values of these tokens are the values written. -/
theorem exists_tokens (h : List.Forall₂ (fun tag w => Gives recognized tag w.1 w.2) tags written) :
    ∃ outs, List.Forall₂ Whole (written.map Prod.snd) outs ∧
      ∀ pieces : List Piece, pieces.map Piece.text = outs → ∀ start stop position : Nat,
        valuesAt recognized start stop position tags (pieces.map some) =
          (written.map Prod.fst, []) := by
  induction h with
  | nil => exact ⟨[], .nil, fun pieces _ start stop position => by simp [valuesAt]⟩
  | @cons tag w tags written hw _ ih =>
    obtain ⟨out, hwhole, hcoerce⟩ := hw
    obtain ⟨outs, hwholes, hvalues⟩ := ih
    refine ⟨out :: outs, .cons hwhole hwholes, fun pieces hpieces start stop position => ?_⟩
    obtain ⟨piece, pieces, rfl, rfl, hrest⟩ := List.map_eq_cons_iff.mp hpieces
    rw [List.map_cons, valuesAt, List.head?_cons, Option.getD_some, List.tail_cons,
      valueAt_of_coerce hcoerce, hvalues pieces hrest]
    rfl

/-- Written arguments with spaces between them are the arguments. -/
theorem argumentsOf_written
    (h : List.Forall₂ (fun tag w => Gives recognized tag w.1 w.2) tags written) {before : Text}
    (hbefore : Text.trim before = Text.join [' '] (written.map Prod.snd)) (column : Nat) :
    argumentsOf recognized tags column before = (written.map Prod.fst, []) := by
  obtain ⟨outs, hwhole, hvalues⟩ := exists_tokens h
  obtain ⟨pieces, hpieces, htokens⟩ := tokenize_join hwhole
  have hlength : tags.length = (written.map Prod.snd).length := by
    rw [h.length_eq, List.length_map]
  rw [argumentsOf, hbefore, hlength, htokens]
  simp [hvalues pieces hpieces, repairsAt]

/-- A written result is the result. -/
theorem resultOf_written (h : Gives recognized tag v t) (htight : Text.Tight t) (column : Nat) :
    resultOf recognized tag column (' ' :: t) = (v, []) := by
  obtain ⟨out, hwhole, hcoerce⟩ := h
  obtain ⟨pieces, hpieces, htokens⟩ := tokenize_join (.cons hwhole .nil)
  obtain ⟨piece, rfl, rfl⟩ := List.map_eq_singleton_iff.mp hpieces
  have htrim : Text.trim (' ' :: t) = t := by
    simpa using htight.trim_append Text.Blank.space Text.Blank.nil
  have htokenize : tokenize t 1 = ⟨[some piece], []⟩ := htokens
  rw [resultOf, htrim, htokenize]
  simp [valueAt_of_coerce hcoerce, repairsAt]

end Values

end ExampleLine

/-! ### The line -/

/-- **An example line**, from what is written for the arguments and for the result. -/
def exampleLine (args : List Text) (result : Text) : Text :=
  Heading.label .example ++ [' ', '|', ' '] ++ Text.join [' '] args ++ [' '] ++ arrow ++ [' '] ++
    result

/-- What the payload of an example line has before its arrow. -/
def beforeArrow (args : List Text) : Text :=
  if args = [] then [] else Text.join [' '] args ++ [' ']

section Line

variable {args : List Text} {result : Text}

theorem trim_beforeArrow (h : ∀ t ∈ args, Text.Tight t ∧ t ≠ []) :
    Text.trim (beforeArrow args) = Text.join [' '] args := by
  rw [beforeArrow]
  split
  · next hnil =>
    rw [hnil]
    rfl
  · simpa using (Text.Tight.join [' '] h).1.trim_append Text.Blank.nil Text.Blank.space

/-- **The payload of an example line**, which starts with the arrow if there are no arguments. -/
theorem payload_exampleLine (hargs : ∀ t ∈ args, Text.Tight t ∧ t ≠ [])
    (hresult : Text.Tight result ∧ result ≠ []) :
    ∃ column, Payload.ofLine (exampleLine args result) =
      ⟨beforeArrow args ++ (arrow ++ ' ' :: result), column, []⟩ := by
  -- What follows the pipe, from which trimming takes one space, or both without arguments.
  obtain ⟨after, hafter⟩ :
      ∃ after, after = ' ' :: (Text.join [' '] args ++ ' ' :: (arrow ++ ' ' :: result)) := ⟨_, rfl⟩
  have hpipe : (exampleLine args result).dropWhile (· != '|') = '|' :: after := by
    rw [hafter, exampleLine, Heading.label]
    simp
  have htrim : Text.trim after = beforeArrow args ++ (arrow ++ ' ' :: result) := by
    rw [hafter, beforeArrow]
    split
    · next hnil =>
      have harrow : Text.Tight arrow := .ends (by decide) (by decide) []
      have htight := harrow.append (List.cons_ne_nil _ _) hresult.1 hresult.2 [' ']
      have hblanks : Text.Blank [' ', ' '] := Text.Blank.space.append Text.Blank.space
      simpa [hnil, Text.join] using htight.trim_append hblanks Text.Blank.nil
    · next hne =>
      obtain ⟨hjoin, hjoinNe⟩ := Text.Tight.join [' '] hargs
      have htight := hjoin.append (hjoinNe hne) hresult.1 hresult.2 (' ' :: arrow ++ [' '])
      simpa using htight.trim_append Text.Blank.space Text.Blank.nil
  rw [Payload.ofLine, hpipe, ← htrim]
  exact ⟨_, rfl⟩

theorem tight_exampleLine (args : List Text) (hresult : Text.Tight result ∧ result ≠ []) :
    Text.Tight (exampleLine args result) := by
  have hlabel : Text.Tight (Heading.label .example) :=
    .ends (by decide) (by decide) ['X', 'A', 'M', 'P', 'L']
  have htight := hlabel.append (by decide) hresult.1 hresult.2
    ([' ', '|', ' '] ++ Text.join [' '] args ++ [' '] ++ arrow ++ [' '])
  simpa [exampleLine] using htight

/-- An example may follow any section. -/
theorem detect?_exampleLine (s : State) (args : List Text) (result : Text) :
    s.detect? (exampleLine args result) = some .example := by
  obtain ⟨region, heading⟩ := s
  cases heading <;> rfl

/-- **An example line starts an example** wherever it stands in a recipe. -/
theorem next_exampleLine {s : State} (hregion : s.region = .recipe) (args : List Text)
    (hresult : Text.Tight result ∧ result ≠ []) :
    s.next (exampleLine args result) = ⟨.recipe, .example⟩ := by
  have hdelimiter : State.isDelimiter (exampleLine args result) = false := rfl
  simp only [State.next, (tight_exampleLine args hresult).trim, State.step, hregion, hdelimiter,
    detect?_exampleLine, Option.getD_some, Bool.false_eq_true, if_false]

end Line

/-! ### The example -/

section Written

variable {tags : List Text} {written : List (Value × Text)} {returnType result : Text}
  {expected : Value}

/-- What is written for arguments has no blanks at its ends, no arrow and no comment. -/
theorem texts_of_writes
    (h : List.Forall₂ (fun tag w => Writes recognized tag w.1 w.2) tags written) :
    ∀ t ∈ written.map Prod.snd,
      (Text.Tight t ∧ t ≠ []) ∧ ExampleLine.Arrowless t ∧ '#' ∉ t := by
  induction h with
  | nil => exact List.forall_mem_nil _
  | cons hw _ ih =>
    exact List.forall_mem_cons.mpr
      ⟨⟨hw.tight, ExampleLine.arrowless_of_writes hw, hw.hash_notMem⟩, ih⟩

/-- What stands before the arrow has no arrow and no comment. -/
theorem beforeArrow_of_writes
    (h : List.Forall₂ (fun tag w => Writes recognized tag w.1 w.2) tags written) :
    ExampleLine.Arrowless (beforeArrow (written.map Prod.snd)) ∧
      ∀ c ∈ beforeArrow (written.map Prod.snd), c ≠ '#' := by
  have htexts := texts_of_writes h
  rw [beforeArrow]
  split
  · exact ⟨.nil, List.forall_mem_nil _⟩
  · refine ⟨(ExampleLine.Arrowless.join fun t ht => (htexts t ht).2.1).append
      (.singleton (by decide) (by decide)), List.forall_mem_append.mpr ⟨?_, by simp⟩⟩
    exact Text.forall_mem_join (by simp) fun t ht c hc heq => (htexts t ht).2.2 (heq ▸ hc)

/-- A payload that says that there is no example is shorter than one with an arrow and a
result. -/
theorem isNotApplicable_append (before : Text) (h : result ≠ []) :
    ExampleLine.isNotApplicable (before ++ (arrow ++ ' ' :: result)) = false := by
  refine beq_eq_false_iff_ne.mpr fun heq => ?_
  have hlength := congrArg List.length heq
  have hresult := List.length_pos_of_ne_nil h
  simp only [List.length_map, List.length_append, List.length_cons, List.length_nil, arrow]
    at hlength
  omega

/-- **The payload of an example line gives the example** that was written, as long as nothing
before the arrow is taken for it and there is no comment. -/
theorem apply_written {r : Recipe}
    (hargs : List.Forall₂ (fun tag w => ExampleLine.Gives recognized tag w.1 w.2) r.argTypes
      written)
    (hargsTight : ∀ t ∈ written.map Prod.snd, Text.Tight t ∧ t ≠ [])
    (hresult : ExampleLine.Gives recognized r.returnType expected result)
    (hresultTight : Text.Tight result ∧ result ≠ [])
    (harrow : ExampleLine.splitArrow false
      (beforeArrow (written.map Prod.snd) ++ (arrow ++ ' ' :: result)) =
        some (beforeArrow (written.map Prod.snd), ' ' :: result))
    (hhash : '#' ∉ beforeArrow (written.map Prod.snd) ∧ '#' ∉ result) (column : Nat) :
    ExampleLine.apply recognized r
        ⟨beforeArrow (written.map Prod.snd) ++ (arrow ++ ' ' :: result), column, []⟩ =
      ({ r with examples := r.examples ++ [⟨written.map Prod.fst, expected, none⟩] }, []) := by
  have hbefore := trim_beforeArrow hargsTight
  have hcomment :
      (beforeArrow (written.map Prod.snd) ++ (arrow ++ ' ' :: result)).dropWhile (· != '#') =
        [] := by
    refine (Text.dropWhile_ne_eq_nil_iff '#' _).mpr ?_
    simpa [arrow] using hhash
  rw [ExampleLine.apply, isNotApplicable_append _ hresultTight.2]
  simp only [Bool.false_eq_true, if_false, ExampleLine.read, hcomment, List.isEmpty_nil, if_true,
    harrow, ExampleLine.argumentsOf_written hargs hbefore,
    ExampleLine.resultOf_written hresult hresultTight.1, List.append_nil, Option.toList_some]

end Written

/-- **An example line gives what its payload gives**, wherever it stands in a recipe. -/
theorem feed_exampleLine_of_apply {options : Options} {s : Session} {r r' : Recipe}
    {args : List Text} {result : Text} (hregion : s.state.region = .recipe)
    (hcurrent : s.current = some r) (hargs : ∀ t ∈ args, Text.Tight t ∧ t ≠ [])
    (hresult : Text.Tight result ∧ result ≠ [])
    (happly : ∀ column, ExampleLine.apply options.recognizedTypes r
      ⟨beforeArrow args ++ (arrow ++ ' ' :: result), column, []⟩ = (r', [])) :
    ∃ t, s.feed options (exampleLine args result) = .ok t ∧
      t.diagnostics = s.diagnostics ∧ t.finished = s.finished ∧ t.state = ⟨.recipe, .example⟩ ∧
      t.current = some { r' with lines := r'.lines ++ [exampleLine args result] } := by
  obtain ⟨line, hline⟩ : ∃ line, line = exampleLine args result := ⟨_, rfl⟩
  obtain ⟨column, hpayload⟩ := payload_exampleLine hargs hresult
  rw [← hline] at hpayload ⊢
  -- The line has no line end, it starts an example, and its payload gives the example.
  have hend : Text.dropLineEnd line = line := hline ▸ (tight_exampleLine _ hresult).dropLineEnd
  have hstate : (s.advance line).state = ⟨.recipe, .example⟩ :=
    hline ▸ next_exampleLine hregion _ hresult
  have hsection : Session.readSection options .example line r =
      ({ r' with lines := r'.lines ++ [line] }, []) := by
    simp only [Session.readSection, hpayload, happly, Session.record, List.append_nil]
  refine ⟨{ s.advance line with current := some (Session.readSection options .example line r).1 },
    ?_, rfl, rfl, hstate, by rw [hsection]⟩
  have hcurrent' : (s.advance line).current = some r := hcurrent
  rw [Session.feed, hend]
  simp only [Session.dispatch, hstate, Session.change, hcurrent', hsection, Session.report_nil]

/-- **A written example is read back**: with values written for the types of the contract, an
example line in a recipe adds to the recipe exactly the example with these values, and nothing
is reported. -/
theorem feed_exampleLine {options : Options} {s : Session} {r : Recipe}
    {written : List (Value × Text)} {expected : Value} {result : Text}
    (hregion : s.state.region = .recipe) (hcurrent : s.current = some r)
    (hargs : List.Forall₂ (fun tag w => Writes options.recognizedTypes tag w.1 w.2)
      r.argTypes written)
    (hresult : Writes options.recognizedTypes r.returnType expected result) :
    ∃ t, s.feed options (exampleLine (written.map Prod.snd) result) = .ok t ∧
      t.diagnostics = s.diagnostics ∧ t.finished = s.finished ∧ t.state = ⟨.recipe, .example⟩ ∧
      t.current = some { r with
        examples := r.examples ++ [⟨written.map Prod.fst, expected, none⟩]
        lines := r.lines ++ [exampleLine (written.map Prod.snd) result] } := by
  have htight : ∀ t ∈ written.map Prod.snd, Text.Tight t ∧ t ≠ [] := fun t ht =>
    (texts_of_writes hargs t ht).1
  obtain ⟨harrowless, hhash⟩ := beforeArrow_of_writes hargs
  exact feed_exampleLine_of_apply hregion hcurrent htight hresult.tight fun column =>
    apply_written (hargs.imp fun _ _ hw => hw.exists_token) htight hresult.exists_token
      hresult.tight (ExampleLine.splitArrow_append harrowless _)
      ⟨fun hmem => hhash _ hmem rfl, hresult.hash_notMem⟩ column

/-- Values for the contract `int str list -> bool`, with what is written for them. -/
def writtenValues : List (Value × Text) :=
  [(.int (-5), "-5"), (.str "a -> b | c", "\"a -> b | c\""),
    (.list [.tuple [.int 1], .none], "[(1,), None]")]

theorem feed_exampleLine_writtenValues : ∃ s t,
    Session.start.feedAll .standard ["\"\"\"", "CONTRACT | f : int str list -> bool"] = .ok s ∧
    s.feed .standard "EXAMPLE | -5 \"a -> b | c\" [(1,), None] -> True" = .ok t ∧
    t.diagnostics = [] ∧
    t.current.map Recipe.examples = some [⟨writtenValues.map Prod.fst, .bool true, none⟩] := by
  obtain ⟨s, r, hs, hregion, hcurrent, hdiagnostics, hargTypes, hreturn, hexamples⟩ : ∃ s r,
      Session.start.feedAll .standard ["\"\"\"", "CONTRACT | f : int str list -> bool"] = .ok s ∧
      s.state.region = .recipe ∧ s.current = some r ∧ s.diagnostics = [] ∧
      r.argTypes = [Primitive.int.tag, Primitive.str.tag, ['l', 'i', 's', 't']] ∧
      r.returnType = Primitive.bool.tag ∧ r.examples = [] :=
    ⟨_, _, rfl, rfl, rfl, rfl, rfl, rfl, rfl⟩
  have hlist : Writes Options.standard.recognizedTypes ['l', 'i', 's', 't']
      (.list [.tuple [.int 1], .none]) (Python.writeLiteral (.list [.tuple [.int 1], .none])) := by
    refine .literal (by decide) (.list ?_) ?_
    · exact List.forall_mem_cons.mpr ⟨.tuple (List.forall_mem_singleton.mpr (.int 1)),
        List.forall_mem_singleton.mpr .none⟩
    · simp [Python.Stringless, Value.AllStrings, Value.strings, Value.stringsOfItems]
  have hargs : List.Forall₂
      (fun tag w => Writes Options.standard.recognizedTypes tag w.1 w.2) r.argTypes
      writtenValues := by
    rw [hargTypes]
    exact .cons (.int (by decide)) (.cons (.str (by decide) (by decide) (by decide))
      (.cons hlist .nil))
  have hresult : Writes Options.standard.recognizedTypes r.returnType (.bool true) "True" := by
    rw [hreturn]
    exact .bool (by decide)
  obtain ⟨t, ht, hnone, -, -, hexample⟩ := feed_exampleLine hregion hcurrent hargs hresult
  exact ⟨s, t, hs, ht, hnone.trans hdiagnostics, by simp [hexample, hexamples]⟩

end DesignRecipe.Outline
