import DesignRecipe.Proofs.Token.Content
import DesignRecipe.Proofs.Outline.ExampleEffect
import DesignRecipe.Proofs.Outline.ExampleLine

/-!
# Arrows in written lists

A list of strings that is written in a test is one token of an example line, and the token is the
list again, whatever blanks, brackets and quotes its strings have. What the line has to arrange is
that its own arrow is the first one that is found. The search for the arrow knows double quotes
only, and a string is written between single ones unless it has a single quote and no double quote
in it. So an arrow in such a string is found too early, and a double quote in it hides every arrow
up to the next one.

Both can be read off the written list, and nothing else stands in the way: the list has an even
number of double quotes, and behind an even number of them there is no arrow (`HasArrow`).
-/

namespace DesignRecipe

open Python (writeLiteral)

/-! ### Parts of written lists -/

namespace Scan

variable {s u : Scan} {t t' out : Text}

/-- **A text that closes no bracket around it**, however much of it is read. -/
def Stays (t : Text) : Prop :=
  ∀ (s : Scan) (column : Nat) (part : Text), s.Within → part <+: t →
    ∃ u, s.walk column part = some u ∧ u.brackets = s.brackets

theorem Stays.append (hcopies : Copies t out) (h : Stays t) (h' : Stays t') : Stays (t ++ t') := by
  intro s column part hs hpart
  rcases List.prefix_or_prefix_of_prefix hpart (List.prefix_append t t') with hfirst | ⟨rest, rfl⟩
  · exact h s column part hs hfirst
  · obtain ⟨u, hwalk, hu⟩ := hcopies s column hs
    obtain ⟨w, hwalk', hw⟩ := h' u (column + t.length) rest hu.within
      ((List.prefix_append_right_inj t).mp hpart)
    exact ⟨w, by rw [walk_append, hwalk, Option.bind_some, hwalk'], hw.trans hu.brackets⟩

/-- A space behind a comma is dropped. -/
theorem copies_comma : Copies [',', ' '] [','] :=
  .spaced (.inl rfl) Text.Blank.nil Text.Blank.space

/-- Neither of the two closes anything. -/
theorem Stays.comma : Stays [',', ' '] := by
  intro s column part hs hpart
  obtain ⟨w, hwalk', hw⟩ := copies_comma s column hs
  obtain ⟨u, hwalk, hu⟩ := Copies.singleton (c := ',') (by decide) s column hs
  obtain ⟨rest, hrest⟩ := hpart
  match part, hrest with
  | [], _ => exact ⟨s, rfl, rfl⟩
  | [c], hrest =>
    obtain rfl : c = ',' := (List.cons_eq_cons.mp hrest).1
    exact ⟨u, hwalk, hu.brackets⟩
  | [c, d], hrest =>
    obtain ⟨rfl, h⟩ := List.cons_eq_cons.mp hrest
    obtain ⟨rfl, -⟩ := List.cons_eq_cons.mp h
    exact ⟨w, hwalk', hw.brackets⟩

/-- A string closes nothing, whether or not it is read to its end. -/
theorem Stays.string {quote : Char} (hquote : quote = '"' ∨ quote = '\'') {body : Text}
    (hbody : Shielded quote (quote :: body)) : Stays (quote :: body ++ [quote]) := by
  intro s column part hs hpart
  rcases List.prefix_concat_iff.mp hpart with rfl | hinside
  · exact ⟨_, walk_string hquote hs hbody, rfl⟩
  · cases part with
    | nil => exact ⟨s, rfl, rfl⟩
    | cons c part =>
      obtain ⟨rfl, hprefix⟩ := List.cons_prefix_cons.mp hinside
      have hpart : Shielded c (c :: part) :=
        List.IsChain.prefix hbody (List.cons_prefix_cons.mpr ⟨rfl, hprefix⟩)
      exact ⟨_, walk_quoted hquote hs hpart, rfl⟩

end Scan

namespace Python

/-- Written strings with commas between them close nothing. -/
theorem stays_join {items : List Text} (h : ∀ t ∈ items, t.getLast? ≠ some '\\') :
    Scan.Stays (Text.join [',', ' '] (items.map writeString)) := by
  have hstring (t : Text) : Scan.Stays (writeString t) :=
    .string (quoteFor_cases t) (shielded_flatMap_escape (quoteFor_cases t) t _)
  induction items with
  | nil =>
    intro s column part _ hpart
    obtain rfl := List.prefix_nil.mp hpart
    exact ⟨s, rfl, rfl⟩
  | cons t items ih =>
    obtain ⟨ht, hitems⟩ := List.forall_mem_cons.mp h
    cases items with
    | nil => exact hstring t
    | cons t' items =>
      exact (((hstring t).append (copies_writeString ht) .comma).append
        ((copies_writeString ht).append Scan.copies_comma) (ih hitems))

/-- **A list that breaks off is repaired**, wherever that is. -/
theorem issues_ne_nil_of_isPrefix {items : List Text} (h : ∀ t ∈ items, t.getLast? ≠ some '\\')
    {part : Text} (hpart : part <+: '[' :: Text.join [',', ' '] (items.map writeString))
    (hne : part ≠ []) : (tokensOf part).2 ≠ [] := by
  intro hissues
  obtain ⟨c, part, rfl⟩ := List.exists_cons_of_ne_nil hne
  obtain ⟨rfl, hinside⟩ := List.cons_prefix_cons.mp hpart
  -- The bracket is open at the end, whatever of the list has been read.
  obtain ⟨u, hwalk, hu⟩ := stays_join h (Scan.empty.opened 0 .square) (0 + 1) part
    (Scan.opened_within rfl) hinside
  have hopen : Scan.empty.step 0 '[' = some (Scan.empty.opened 0 .square) :=
    Scan.step_opener Scan.rests_empty 0 .square
  have hrun : Scan.empty.run 0 ('[' :: part) = u := by
    refine Scan.run_of_walk ?_
    rw [Scan.walk_cons, hopen, Option.bind_some, hwalk]
  obtain ⟨-, -, hbrackets, -⟩ := tokensOf_of_issues_eq_nil hissues hrun
  rw [hu] at hbrackets
  cases hbrackets

/-- No comment starts in a written value if none starts in its strings. -/
theorem hash_notMem_writeLiteral {v : Value} (h : v.Normal) (hs : v.AllStrings ('#' ∉ ·)) :
    '#' ∉ writeLiteral v := by
  rw [mem_writeLiteral_iff (by decide) h]
  rintro ⟨s, hstring, hmem⟩
  exact hs s hstring hmem

end Python

namespace Outline

namespace ExampleLine

/-- **Where nothing before it is taken for the arrow** and every double quote before it has its
partner, the arrow is found. -/
theorem splitArrow_append_of_eq_none {quoted : Bool} {before : Text}
    (hnone : splitArrow quoted before = none)
    (heven : Even (before.count '"') ↔ quoted = false) (after : Text) :
    splitArrow quoted (before ++ (arrow ++ after)) = some (before, after) := by
  induction before generalizing quoted with
  | nil =>
    obtain rfl : quoted = false := heven.mp (by simp)
    rfl
  | cons c rest ih =>
    rw [splitArrow] at hnone
    split at hnone
    · cases hnone
    · next hhere =>
      have hhere' : ¬(!quoted && arrow.isPrefixOf (c :: (rest ++ (arrow ++ after)))) = true := by
        cases rest with
        | nil => simp [arrow, List.isPrefixOf]
        | cons d rest => simpa [arrow, List.isPrefixOf] using hhere
      rw [List.cons_append, splitArrow, if_neg hhere', ih (Option.map_eq_none_iff.mp hnone)
        ((even_count_cons_iff quoted c rest).mp heven)]
      rfl

theorem splitArrow_append_of_not_hasArrow {before : Text} (harrow : ¬HasArrow before)
    (heven : Even (before.count '"')) (after : Text) :
    splitArrow false (before ++ (arrow ++ after)) = some (before, after) := by
  refine splitArrow_append_of_eq_none ?_ (iff_of_true heven rfl) after
  rwa [← isSome_splitArrow_iff_hasArrow, Option.not_isSome_iff_eq_none] at harrow

/-- **A written container is a token** that is coerced to it under a tag that is not recognized, as
long as no string in it ends with a backslash. -/
theorem gives_writeLiteral {recognized : List Text} {tag : Text} (htag : tag ∉ recognized)
    {v : Value} (h : v.Exact) (hv : v.isContainer = true) (hs : v.EndsPlainly) :
    Gives recognized tag v (writeLiteral v) := by
  obtain ⟨out, hwhole, hdenotes⟩ := (Python.bracketed_of_exact h hv hs).exists_whole
  refine ⟨out, hwhole, Coercion.coerce_literal htag ?_⟩
  simpa using Literal.read?_of_denotes hdenotes Text.Blank.nil Text.Blank.nil

end ExampleLine

/-! ### Lists of strings -/

/-- A list of strings, as it is written in a test. -/
def listLiteral (items : List Text) : Text := writeLiteral (.list (items.map .str))

/-- An example line with the list for its only argument. -/
def listExample (items : List Text) (result : Int64) : Text :=
  exampleLine [listLiteral items] (Text.ofInt result.toInt)

/-- **The list is read back**: the line adds to the recipe under construction the example with the
list and the result, and nothing is reported. -/
def ReadsBack (options : Options) (s : Session) (r : Recipe) (items : List Text)
    (result : Int64) : Prop :=
  ∃ t, s.feed options (listExample items result) = .ok t ∧ t.diagnostics = s.diagnostics ∧
    t.finished = s.finished ∧ t.current = some { r with
      examples := r.examples ++ [⟨[.list (items.map .str)], .int result, none⟩]
      lines := r.lines ++ [listExample items result] }

/-- **The next line can be an example of a list**: a recipe is under construction whose function
takes one argument, of a type without a reader, and returns an integer. -/
structure TakesList (options : Options) (s : Session) (r : Recipe) : Prop where
  region : s.state.region = .recipe
  current : s.current = some r
  argTypes : ∃ tag, tag ∉ options.recognizedTypes ∧ r.argTypes = [tag]
  returnType : r.returnType = Primitive.int.tag
  recognized : Primitive.int.tag ∈ options.recognizedTypes

theorem listLiteral_eq (items : List Text) : listLiteral items =
    '[' :: Text.join [',', ' '] (items.map Python.writeString) ++ [']'] := by
  rw [listLiteral, Python.writeLiteral_list, List.map_map]
  rfl

theorem tight_listLiteral (items : List Text) :
    Text.Tight (listLiteral items) ∧ listLiteral items ≠ [] := by
  rw [listLiteral_eq]
  exact ⟨.ends (by decide) (by decide) _, List.cons_ne_nil _ _⟩

theorem exact_strings (items : List Text) : (Value.list (items.map .str)).Exact :=
  .list (List.forall_mem_map.mpr fun t _ => .str t)

theorem strings_strings (items : List Text) : (Value.list (items.map .str)).strings = items := by
  rw [Value.strings_list, List.flatMap_map]
  exact List.flatMap_singleton' items

/-- What is written for an integer has no quote, no comment and no blanks at its ends. -/
theorem integer_facts (i : Int64) : (Text.Tight (Text.ofInt i.toInt) ∧ Text.ofInt i.toInt ≠ []) ∧
    '"' ∉ Text.ofInt i.toInt ∧ '#' ∉ Text.ofInt i.toInt := by
  have hcanonical := Integer.canonical?_ofInt i.toInt
  have hquote : ∀ c ∈ Text.ofInt i.toInt, c ≠ '"' :=
    Integer.forall_mem_of_canonical? (by decide) (by decide) (by decide) hcanonical
  have hhash : ∀ c ∈ Text.ofInt i.toInt, c ≠ '#' :=
    Integer.forall_mem_of_canonical? (by decide) (by decide) (by decide) hcanonical
  have hblank : ∀ c ∈ Text.ofInt i.toInt, Text.isBlank c = false :=
    Integer.forall_mem_of_canonical? (by decide) (by decide) (by decide) hcanonical
  exact ⟨⟨.of_forall hblank, Integer.ne_nil_of_canonical? hcanonical⟩,
    fun hmem => hquote _ hmem rfl, fun hmem => hhash _ hmem rfl⟩

/-! ### Where the first arrow stands -/

/-- **A text without an arrow is behind us** where the first arrow stands, unless it ends with the
first half of one. -/
theorem PartedAtArrow.exists_append {text rest before after : Text}
    (h : PartedAtArrow (text ++ rest) before after) (harrow : ¬HasArrow text)
    (hlast : text.getLast? ≠ some '-') :
    ∃ between, before = text ++ between ∧ rest = between ++ arrow ++ after := by
  have hbefore : before ++ arrow <+: text ++ rest := ⟨after, h.eq.symm⟩
  have htext : text <+: before := by
    rcases List.prefix_or_prefix_of_prefix hbefore (List.prefix_append text rest) with
      ⟨more, hmore⟩ | hbehind
    · exact absurd ⟨before, more, hmore.symm, h.outside⟩ harrow
    · have hsnoc : text <+: before ++ ['-'] ++ ['>'] := by simpa [arrow] using hbehind
      rcases List.prefix_concat_iff.mp hsnoc with rfl | hsnoc
      · exact absurd ⟨before, [], by simp [arrow], h.outside⟩ harrow
      · rcases List.prefix_concat_iff.mp hsnoc with rfl | hprefix
        · exact absurd List.getLast?_concat hlast
        · exact hprefix
  obtain ⟨between, rfl⟩ := htext
  refine ⟨between, rfl, ?_⟩
  have heq := h.eq
  rwa [List.append_assoc, List.append_assoc, List.append_cancel_left_eq, ← List.append_assoc]
    at heq

/-- **An arrow in the list** parts the list from its own bracket, and then the part before the arrow
is repaired. -/
theorem not_hasArrow_of_partedAtArrow {items : List Text}
    (hends : ∀ t ∈ items, t.getLast? ≠ some '\\') {rest before after : Text}
    (h : PartedAtArrow (listLiteral items ++ rest) before after)
    (hissues : (tokensOf (Text.trim before)).2 = []) : ¬HasArrow (listLiteral items) := by
  rintro ⟨earlier, more, hlist, heven⟩
  have hfirst := h.first earlier (more ++ rest) (by simp [hlist]) heven
  -- The list ends with its bracket, so the arrow and all before it stand behind the opening one.
  have hinside :
      earlier ++ arrow <+: '[' :: Text.join [',', ' '] (items.map Python.writeString) := by
    have hprefix : earlier ++ arrow <+: listLiteral items := ⟨more, hlist.symm⟩
    rw [listLiteral_eq] at hprefix
    rcases List.prefix_concat_iff.mp hprefix with heq | hprefix
    · have hlast := congrArg List.getLast? heq
      rw [List.getLast?_concat, List.getLast?_append_of_ne_nil _ (by decide)] at hlast
      exact absurd hlast (by decide)
    · exact hprefix
  have hbefore : before <+: earlier := by
    have hwhole : before <+: listLiteral items ++ rest :=
      ⟨arrow ++ after, by rw [h.eq, List.append_assoc]⟩
    have hearlier : earlier <+: listLiteral items ++ rest :=
      ⟨arrow ++ (more ++ rest), by rw [hlist]; simp⟩
    exact List.prefix_of_prefix_length_le hwhole hearlier hfirst
  have hpart := hbefore.trans ((List.prefix_append earlier arrow).trans hinside)
  cases before with
  | nil =>
    have heq := h.eq
    rw [listLiteral_eq] at heq
    exact absurd (List.cons_eq_cons.mp heq).1 (by decide)
  | cons c before =>
    obtain ⟨rfl, -⟩ := List.cons_prefix_cons.mp hpart
    have hblank : Text.isBlank '[' = false := by decide
    have htrim : Text.trim ('[' :: before) = Text.trimRight ('[' :: before) := by
      rw [Text.trim, Text.trimLeft_cons hblank]
    rw [htrim] at hissues
    refine Python.issues_ne_nil_of_isPrefix hends
      ((Text.isPrefix_dropEndWhile _ _).trans hpart) (fun hnil => ?_) hissues
    have hhead := Text.head?_trimRight_cons hblank before
    rw [Text.trimRight, hnil] at hhead
    cases hhead

section Strings

variable {options : Options} {s : Session} {r : Recipe} {items : List Text} {result : Int64}
  (h : TakesList options s r) (hplain : ∀ t ∈ items, '#' ∉ t ∧ '\\' ∉ t)

include hplain in
theorem hash_notMem_listLiteral : '#' ∉ listLiteral items := by
  refine Python.hash_notMem_writeLiteral (exact_strings items).normal fun t ht => ?_
  rw [strings_strings] at ht
  exact (hplain t ht).1

include hplain in
theorem getLast?_ne_of_plain : ∀ t ∈ items, t.getLast? ≠ some '\\' := fun t ht hlast =>
  (hplain t ht).2 (List.mem_of_getLast? hlast)

/-- The space between the list and the arrow is neither a quote nor part of an arrow. -/
theorem hasArrow_beforeArrow_iff (items : List Text) :
    HasArrow (beforeArrow [listLiteral items]) ↔ HasArrow (listLiteral items) := by
  have hbefore : beforeArrow [listLiteral items] = listLiteral items ++ [' '] := rfl
  rw [hbefore, ← hasArrow_trimRight, Text.trimRight_append _ Text.Blank.space,
    (tight_listLiteral items).1.trimRight]

include h hplain

omit hplain in
/-- What a line contributes that is read back. -/
theorem contributes_of_readsBack (hread : ReadsBack options s r items result) :
    ∃ e, Contributes options.recognizedTypes r
      (beforeArrow [listLiteral items] ++ (arrow ++ ' ' :: Text.ofInt result.toInt))
      (some e) [] := by
  obtain ⟨t, hfeed, hdiagnostics, -, hcurrent⟩ := hread
  obtain ⟨htight, -, -⟩ := integer_facts result
  obtain ⟨column, hpayload⟩ :=
    payload_exampleLine (List.forall_mem_singleton.mpr (tight_listLiteral items)) htight
  have hend : Text.dropLineEnd (listExample items result) = listExample items result :=
    (tight_exampleLine _ htight).dropLineEnd
  have hnext : s.state.next (listExample items result) = ⟨.recipe, .example⟩ :=
    next_exampleLine h.region _ htight
  -- Nothing is reported, so there is no problem with the payload.
  have hraised := Session.diagnostics_of_feed hfeed
  rw [hdiagnostics, List.self_eq_append_right,
    Session.raised_of_section hnext (by decide) h.current, hend, List.map_eq_nil_iff] at hraised
  have hnone : (ExampleLine.apply options.recognizedTypes r
      (Payload.ofLine (listExample items result))).2 = [] := (List.append_eq_nil_iff.mp hraised).2
  -- One example is added, and it is the one of the payload.
  have hexamples := Session.examples_readSection options .example (listExample items result) r
  rw [Session.current_of_feed hfeed, hnext, hend, h.current,
    Session.currentAfter_of_section (by decide), Option.map_some, Option.some_inj] at hcurrent
  rw [hcurrent, if_pos rfl, List.append_cancel_left_eq] at hexamples
  have hadded := Option.toList_eq_singleton_iff.mp hexamples.symm
  have hcontributes := ExampleLine.contributes_added options.recognizedTypes r
    (Payload.ofLine (listExample items result))
  rw [hadded, hnone, listExample, hpayload] at hcontributes
  exact ⟨_, hcontributes⟩

/-- A list that is read back has partners for its double quotes, and no arrow outside of them. -/
theorem even_of_readsBack (hread : ReadsBack options s r items result) :
    Even ((listLiteral items).count '"') ∧ ¬HasArrow (listLiteral items) := by
  obtain ⟨-, hquote, hhash⟩ := integer_facts result
  obtain ⟨e, hcontributes⟩ := contributes_of_readsBack h hread
  obtain ⟨payload, hpayload⟩ : ∃ payload, payload =
      listLiteral items ++ ' ' :: (arrow ++ ' ' :: Text.ofInt result.toInt) := ⟨_, rfl⟩
  have hbefore : beforeArrow [listLiteral items] ++ (arrow ++ ' ' :: Text.ofInt result.toInt) =
      payload := by
    rw [hpayload]
    exact List.append_assoc _ _ _
  have hcomment : payload.takeWhile (· != '#') = payload := by
    have hlist := hash_notMem_listLiteral hplain
    refine List.takeWhile_eq_self_iff.mpr fun c hc => bne_iff_ne.mpr ?_
    rintro rfl
    simp [hpayload, arrow, hlist, hhash] at hc
  rw [hbefore] at hcontributes
  obtain ⟨before, after, hparted, hissues⟩ : ∃ before after, PartedAtArrow payload before after ∧
      (tokensOf (Text.trim before)).2 = [] := by
    generalize hnone : ([] : List Problem) = problems at hcontributes
    cases hcontributes with
    | read _ hparted =>
      rw [hcomment] at hparted
      simp only [repairs, List.nil_eq, List.append_eq_nil_iff, List.map_eq_nil_iff] at hnone
      exact ⟨_, _, hparted, (tokensOf_of_issues_tokenize_eq_nil hnone.1.2).1⟩
  rw [hpayload] at hparted
  have harrow :=
    not_hasArrow_of_partedAtArrow (getLast?_ne_of_plain hplain) hparted hissues
  have hlast : (listLiteral items).getLast? ≠ some '-' := by
    rw [listLiteral_eq, List.getLast?_concat]
    decide
  -- What stands between the list and the first arrow has no quote.
  obtain ⟨between, rfl, hrest⟩ := hparted.exists_append harrow hlast
  have hnone : '"' ∉ between := by
    intro hmem
    have hmem' : '"' ∈ ' ' :: (arrow ++ ' ' :: Text.ofInt result.toInt) := by
      rw [hrest]
      simp [hmem]
    simp [arrow, hquote] at hmem'
  have heven := hparted.outside
  rw [List.count_append, List.count_eq_zero_of_not_mem hnone] at heven
  exact ⟨heven, harrow⟩

/-- Where the double quotes have their partners and no arrow stands outside of them, the list is
read back. -/
theorem readsBack_of_even (heven : Even ((listLiteral items).count '"'))
    (harrow : ¬HasArrow (listLiteral items)) : ReadsBack options s r items result := by
  obtain ⟨tag, htag, htypes⟩ := h.argTypes
  obtain ⟨htight, -, hhash⟩ := integer_facts result
  have hends : (Value.list (items.map .str)).EndsPlainly := by
    intro t ht
    rw [strings_strings] at ht
    exact getLast?_ne_of_plain hplain t ht
  have hlist : ExampleLine.Gives options.recognizedTypes tag (.list (items.map .str))
      (listLiteral items) := ExampleLine.gives_writeLiteral htag (exact_strings items) rfl hends
  have hresult : ExampleLine.Gives options.recognizedTypes r.returnType (.int result)
      (Text.ofInt result.toInt) := by
    rw [h.returnType]
    exact (Coercion.Writes.int h.recognized).exists_token
  have hargs : ∀ t ∈ [listLiteral items], Text.Tight t ∧ t ≠ [] :=
    List.forall_mem_singleton.mpr (tight_listLiteral items)
  have hbefore : beforeArrow [listLiteral items] = listLiteral items ++ [' '] := rfl
  have hsplit := ExampleLine.splitArrow_append_of_not_hasArrow
    (mt (hasArrow_beforeArrow_iff items).mp harrow) (by rwa [hbefore, List.count_append])
    (' ' :: Text.ofInt result.toInt)
  have hgives : List.Forall₂ (fun tag w => ExampleLine.Gives options.recognizedTypes tag w.1 w.2)
      r.argTypes [(Value.list (items.map .str), listLiteral items)] := by
    rw [htypes]
    exact .cons hlist .nil
  have happly := apply_written hgives hargs hresult htight hsplit
    ⟨by simpa [hbefore] using hash_notMem_listLiteral hplain, hhash⟩
  obtain ⟨t, hfeed, hdiagnostics, hfinished, -, hcurrent⟩ :=
    feed_exampleLine_of_apply h.region h.current hargs htight happly
  exact ⟨t, hfeed, hdiagnostics, hfinished, hcurrent⟩

/-- **A written list of strings is read back** exactly if every double quote in it has its partner
and no arrow stands in it outside of double quotes. -/
theorem readsBack_iff : ReadsBack options s r items result ↔
    Even ((listLiteral items).count '"') ∧ ¬HasArrow (listLiteral items) :=
  ⟨even_of_readsBack h hplain, fun ⟨heven, harrow⟩ => readsBack_of_even h hplain heven harrow⟩

end Strings

/-- Strings whose arrows stand between double quotes, once as their own and once as those that the
string is written with. -/
def quotedItems : List Text := ["it's -> b", "\"->\" ]", "  "]

theorem readsBack_iff_quotedItems : ∃ s r,
    Session.start.feedAll .standard ["\"\"\"", "CONTRACT | f : list -> int"] = .ok s ∧
      TakesList .standard s r ∧ (∀ t ∈ quotedItems, '#' ∉ t ∧ '\\' ∉ t) ∧
      Even ((listLiteral quotedItems).count '"') ∧ ¬HasArrow (listLiteral quotedItems) ∧
      ReadsBack .standard s r quotedItems (-3) := by
  obtain ⟨s, r, hs, h⟩ : ∃ s r,
      Session.start.feedAll .standard ["\"\"\"", "CONTRACT | f : list -> int"] = .ok s ∧
        TakesList .standard s r :=
    ⟨_, _, rfl, rfl, rfl, ⟨_, by decide, rfl⟩, rfl, by decide⟩
  have hplain : ∀ t ∈ quotedItems, '#' ∉ t ∧ '\\' ∉ t := by decide
  have heven : Even ((listLiteral quotedItems).count '"') := by decide
  have harrow : ¬HasArrow (listLiteral quotedItems) := by decide
  exact ⟨s, r, hs, h, hplain, heven, harrow, (readsBack_iff h hplain).mpr ⟨heven, harrow⟩⟩

/-- **Not every list of strings is read back**: neither one with an arrow in a string that is
written between single quotes, nor one with a double quote that has no partner. -/
theorem not_readsBack : ∃ s r,
    Session.start.feedAll .standard ["\"\"\"", "CONTRACT | f : list -> int"] = .ok s ∧
      TakesList .standard s r ∧
      (∀ t ∈ ([['-', '>'], ['"']] : List Text), '#' ∉ t ∧ '\\' ∉ t) ∧
      ¬ReadsBack .standard s r [['-', '>']] 1 ∧ ¬ReadsBack .standard s r [['"']] 1 := by
  obtain ⟨s, r, hs, h, hnone, ⟨t, hfeed, hreported⟩, u, hfeed', hreported'⟩ : ∃ s r,
      Session.start.feedAll .standard ["\"\"\"", "CONTRACT | f : list -> int"] = .ok s ∧
        TakesList .standard s r ∧ s.diagnostics = [] ∧
        (∃ t, s.feed .standard (listExample [['-', '>']] 1) = .ok t ∧ t.diagnostics ≠ []) ∧
        ∃ u, s.feed .standard (listExample [['"']] 1) = .ok u ∧ u.diagnostics ≠ [] :=
    ⟨_, _, rfl, ⟨rfl, rfl, ⟨_, by decide, rfl⟩, rfl, by decide⟩, rfl, ⟨_, rfl, by decide⟩,
      _, rfl, by decide⟩
  refine ⟨s, r, hs, h, by decide, ?_, ?_⟩
  · rintro ⟨t', ht', hdiagnostics, -⟩
    obtain rfl := Except.ok.inj (hfeed.symm.trans ht')
    exact hreported (hdiagnostics.trans hnone)
  · rintro ⟨u', hu', hdiagnostics, -⟩
    obtain rfl := Except.ok.inj (hfeed'.symm.trans hu')
    exact hreported' (hdiagnostics.trans hnone)

end Outline

end DesignRecipe
