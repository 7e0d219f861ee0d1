import DesignRecipe.Proofs.Outline.Abort
import DesignRecipe.Proofs.Outline.ExampleEffect

/-!
# The whole effect of an in/outs line

The first `#` of the payload parts the types from the comment, and the two do not mix. The types
alone say what the channels are and what is reported (`ChannelsSaid`), and the comment alone says
which side effects there are (`effectsTold`). So a slash or a type in the comment, or a word for the
console among the types, has no influence on anything.

What the types say is said in one way only (`existsUnique_channelsSaid`), so it depends on nothing
but the types and the types that are recognized. Everything else stays as it was
(`Session.effect_of_inOuts`).
-/

namespace DesignRecipe.Outline

variable {recognized : List Text} {channel : Channel} {side types comment : Text}

/-! ### The types -/

/-- **What a trimmed side of the slash says of its channel**, and the problems that are reported for
it. -/
inductive SideSaid (recognized : List Text) (channel : Channel) (side : Text) :
    Option Text × List Problem → Prop
  /-- The side is a type in letters of any case, and the first one that is recognized counts, as it
  is spelled there. -/
  | known {before after : List Text} {tag : Text} : recognized = before ++ tag :: after →
      (∀ other ∈ before, Text.equalsIgnoringCase other side = false) →
      Text.equalsIgnoringCase tag side = true →
      SideSaid recognized channel side (some tag, [])
  /-- The side says, in letters of any case, that there is no type. -/
  | absent : (∀ tag ∈ recognized, Text.equalsIgnoringCase tag side = false) →
      Text.equalsIgnoringCase side ['N', 'o', 'n', 'e'] = true →
      SideSaid recognized channel side (none, [])
  /-- The side is no type. -/
  | unrecognized : (∀ tag ∈ recognized, Text.equalsIgnoringCase tag side = false) →
      Text.equalsIgnoringCase side ['N', 'o', 'n', 'e'] = false →
      SideSaid recognized channel side (none, [.unrecognizedType channel (Text.lower side)])

/-- **What the types of an in/outs line say of the two channels**, and the problems that are
reported for them, in their order. -/
inductive ChannelsSaid (recognized : List Text) (types : Text) :
    Option Text × Option Text × List Problem → Prop
  /-- There is no slash, and so there are no sides. -/
  | slashless : '/' ∉ types → ChannelsSaid recognized types (none, none, [.missingSlash])
  /-- The first slash parts the two sides. -/
  | parted {before after : Text} {inputs outputs : Option Text} {found more : List Problem} :
      types = before ++ '/' :: after → '/' ∉ before →
      SideSaid recognized .input (Text.trim before) (inputs, found) →
      SideSaid recognized .output (Text.trim after) (outputs, more) →
      ChannelsSaid recognized types (inputs, outputs, found ++ more)

/-! ### The comment -/

/-- **A comment mentions one of some words**, once it is in lower case. -/
def Mentions (words : List Text) (comment : Text) : Prop :=
  ∃ word ∈ words, word <:+: Text.lower comment

theorem any_contains_iff {words : List Text} :
    words.any (Text.contains (Text.lower comment)) = true ↔ Mentions words comment := by
  simp only [List.any_eq_true, Text.contains_iff_isInfix, Mentions]

instance (words : List Text) (comment : Text) : Decidable (Mentions words comment) :=
  decidable_of_iff _ any_contains_iff

/-- **The side effects that a comment tells of**: the console if it mentions a word for that, and
then files if it mentions a word for them. -/
def effectsTold (comment : Text) : List SideEffect :=
  (if Mentions InOuts.consoleWords comment then [.console] else []) ++
    if Mentions InOuts.fileWords comment then [.file] else []

theorem InOuts.effectsOf_eq (comment : Text) : effectsOf comment = effectsTold comment := by
  simp only [effectsOf, effectsTold, any_contains_iff]

/-! ### The types as they are read -/

namespace InOuts

/-- The reader of a side tells what the side says. -/
theorem sideSaid_sideOf (recognized : List Text) (channel : Channel) (column : Nat)
    (side : Text) : SideSaid recognized channel (Text.trim side)
      ((sideOf recognized channel column side).1,
        (sideOf recognized channel column side).2.map Finding.problem) := by
  rw [sideOf]
  split
  · next tag hfind =>
    obtain ⟨htag, before, after, hrecognized, hbefore⟩ := List.find?_eq_some_iff_append.mp hfind
    refine .known hrecognized (fun other hother => ?_) htag
    simpa using hbefore other hother
  · next hfind =>
    have hnone : ∀ tag ∈ recognized, Text.equalsIgnoringCase tag (Text.trim side) = false := by
      simpa using hfind
    split
    · next habsent => exact .absent hnone habsent
    · next habsent => exact .unrecognized hnone (Bool.eq_false_iff.mpr habsent)

/-- A side says one thing only. -/
theorem eq_of_sideSaid {said : Option Text × List Problem} (column : Nat)
    (h : SideSaid recognized channel (Text.trim side) said) :
    said = ((sideOf recognized channel column side).1,
      (sideOf recognized channel column side).2.map Finding.problem) := by
  have hfind (hnone : ∀ tag ∈ recognized, Text.equalsIgnoringCase tag (Text.trim side) = false) :
      (recognized.find? fun tag => Text.equalsIgnoringCase tag (Text.trim side)) = none := by
    simpa using hnone
  rw [sideOf]
  cases h with
  | @known before after tag hrecognized hbefore htag =>
    have hsome : (recognized.find? fun tag => Text.equalsIgnoringCase tag (Text.trim side)) =
        some tag := by
      refine List.find?_eq_some_iff_append.mpr ⟨htag, before, after, hrecognized, ?_⟩
      simpa using hbefore
    rw [hsome]
    rfl
  | absent hnone habsent =>
    rw [hfind hnone]
    simp [habsent]
  | unrecognized hnone habsent =>
    rw [hfind hnone]
    simp [habsent]

/-- The reader of the types tells what they say. -/
theorem channelsSaid_channelsOf (recognized : List Text) (column : Nat) (types : Text) :
    ChannelsSaid recognized types
      ((channelsOf recognized column types).1, (channelsOf recognized column types).2.1,
        (channelsOf recognized column types).2.2.map Finding.problem) := by
  have hparts := List.takeWhile_append_dropWhile (p := (· != '/')) (l := types)
  rw [channelsOf]
  split
  · next hnone => exact .slashless ((Text.dropWhile_ne_eq_nil_iff '/' types).mp hnone)
  · next c after hafter =>
    rw [hafter, Text.eq_of_dropWhile_ne hafter] at hparts
    simp only [List.map_append]
    exact .parted hparts.symm (Text.notMem_takeWhile_ne '/' types) (sideSaid_sideOf _ _ _ _)
      (sideSaid_sideOf _ _ _ _)

/-- The types say one thing only. -/
theorem eq_of_channelsSaid {said : Option Text × Option Text × List Problem} (column : Nat)
    (h : ChannelsSaid recognized types said) :
    said = ((channelsOf recognized column types).1, (channelsOf recognized column types).2.1,
      (channelsOf recognized column types).2.2.map Finding.problem) := by
  rw [channelsOf]
  cases h with
  | slashless hslash =>
    rw [(Text.dropWhile_ne_eq_nil_iff '/' types).mpr hslash]
    rfl
  | @parted before after inputs outputs found more htypes hbefore hinputs houtputs =>
    have hslash : ∀ c ∈ ('/' :: after).head?, c = '/' := by simp
    obtain ⟨htake, hdrop⟩ := Text.takeWhile_ne_append hbefore hslash
    rw [htypes, htake, hdrop]
    have hleft := eq_of_sideSaid column hinputs
    have hright := eq_of_sideSaid (column + before.length + 1) houtputs
    simp only [Prod.mk.injEq] at hleft hright
    simp [hleft, hright]

end InOuts

/-- **What the types of an in/outs line say is settled by them.** -/
theorem existsUnique_channelsSaid (recognized : List Text) (types : Text) :
    ∃! said, ChannelsSaid recognized types said :=
  ⟨_, InOuts.channelsSaid_channelsOf recognized 0 types, fun _ h => InOuts.eq_of_channelsSaid 0 h⟩

/-! ### The line -/

/-- **What the reader of an in/outs line makes of its payload**: the types before the first `#` set
the channels, and the comment from there on adds the side effects. -/
theorem InOuts.apply_eq {payload : Payload} {inputs outputs : Option Text}
    {problems : List Problem} (r : Recipe) (hpayload : payload.text = types ++ comment)
    (htypes : '#' ∉ types) (hcomment : ∀ c ∈ comment.head?, c = '#')
    (hsaid : ChannelsSaid recognized types (inputs, outputs, problems)) :
    (apply recognized r payload).1 =
        { r with
          inputs := inputs
          outputs := outputs
          sideEffects := r.sideEffects ++ effectsTold comment } ∧
      (apply recognized r payload).2.map Finding.problem = problems := by
  obtain ⟨htake, hdrop⟩ := Text.takeWhile_ne_append htypes hcomment
  have hread := eq_of_channelsSaid payload.column hsaid
  simp only [Prod.mk.injEq] at hread
  obtain ⟨rfl, rfl, rfl⟩ := hread
  rw [← effectsOf_eq]
  simp only [apply, hpayload, htake, hdrop, and_self]

/-- **The whole effect of an in/outs line**, whose payload is types and a comment. Where no recipe
is under construction the line is refused. Otherwise it is accepted: the channels become what the
types say, the side effects that the comment tells of are added, the recipe gets the line, and
nothing else of the recipe and none of the finished recipes changes. What is reported is the missing
pipe, if there is none, and then what is wrong with the types, all of it on this line. -/
theorem Session.effect_of_inOuts (options : Options) {s : Session} {line : Text}
    {types comment : Text} (hstate : s.state.next line = ⟨.recipe, .inOuts⟩)
    (hpayload : (Payload.ofLine (Text.dropLineEnd line)).text = types ++ comment)
    (htypes : '#' ∉ types) (hcomment : ∀ c ∈ comment.head?, c = '#') :
    (∃! said, ChannelsSaid options.recognizedTypes types said) ∧
      (s.current = none → ∃ a, s.feed options line = .error a ∧
        a.critical.problem = .noContractYet ∧ a.earlier = s.diagnostics) ∧
      ∀ r inputs outputs problems, s.current = some r →
        ChannelsSaid options.recognizedTypes types (inputs, outputs, problems) →
          ∃ t raised, s.feed options line = .ok t ∧
            t.current = some { r with
              inputs := inputs
              outputs := outputs
              sideEffects := r.sideEffects ++ effectsTold comment
              lines := r.lines ++ [Text.dropLineEnd line] } ∧
            t.finished = s.finished ∧ t.diagnostics = s.diagnostics ++ raised ∧
            raised.map Diagnostic.problem =
              (if '|' ∈ line then [] else [.missingPipe]) ++ problems ∧
            ∀ d ∈ raised, d.severity = .ignorable ∧ d.line = s.lineCount + 1 ∧
              d.source = Text.dropLineEnd line := by
  have howned : Owned (s.state.next line) line := Or.inl (by simp [hstate])
  refine ⟨existsUnique_channelsSaid _ _, ?_, ?_⟩
  · intro hnone
    obtain ⟨a, ha⟩ : ∃ a, s.feed options line = .error a :=
      exists_feed_eq_error_iff.mpr (Or.inr ⟨hnone, howned⟩)
    obtain ⟨-, -, -, hproblem⟩ := critical_of_feed ha
    have hearlier := diagnosed_feed options s line
    rw [ha, raised_of_current_eq_none hnone howned.ne_contract, List.append_nil] at hearlier
    rw [if_neg howned.ne_contract] at hproblem
    exact ⟨a, ha, hproblem, hearlier⟩
  · intro r inputs outputs problems hcurrent hsaid
    obtain ⟨t, ht⟩ : ∃ t, s.feed options line = .ok t :=
      exists_feed_of_not_stopped (fun hcontract => absurd hcontract howned.ne_contract)
        (by simp [hcurrent])
    obtain ⟨hrecipe, hproblems⟩ := InOuts.apply_eq r hpayload htypes hcomment hsaid
    have hpipe : '|' ∈ Text.dropLineEnd line ↔ '|' ∈ line := Text.mem_dropLineEnd (by decide) line
    have hraised : s.raised options line = _ := raised_of_section hstate (by decide) hcurrent
    refine ⟨t, s.raised options line, ht, ?_, ?_, diagnostics_of_feed ht, ?_, ?_⟩
    · rw [current_of_feed ht, hstate, currentAfter_of_section (by decide), hcurrent]
      simp only [Option.map_some, readSection, hrecipe, record]
    · rw [finished_of_feed ht, if_neg howned.ne_contract, List.append_nil]
    · rw [hraised]
      simp only [readSection, List.map_map, List.map_append, ← hpipe]
      rw [← hproblems, ← problem_ofLine]
      rfl
    · intro d hd
      rw [hraised] at hd
      obtain ⟨f, -, rfl⟩ := List.mem_map.mp hd
      exact ⟨rfl, rfl, Text.dropLineEnd_dropLineEnd line⟩

/-- An in/outs line without a pipe. There is a word for files among its types, and a slash, a type
and words for both channels in its comment. -/
def mixedLine : Text := "IN/OUTS file/ INT # disk / str, console"

theorem Session.effect_of_inOuts_mixedLine : ∃ s t r,
    Session.start.feedAll .standard ["\"\"\"", "CONTRACT | f : int -> bool"] = .ok s ∧
      s.state.next mixedLine = ⟨.recipe, .inOuts⟩ ∧ s.current = some r ∧
      (Payload.ofLine (Text.dropLineEnd mixedLine)).text =
        "file/ INT ".toList ++ "# disk / str, console".toList ∧
      s.feed .standard mixedLine = .ok t ∧
      t.current.map (fun r => (r.inputs, r.outputs, r.sideEffects)) =
        some (none, some "int".toList, [.console, .file]) ∧
      t.diagnostics.map Diagnostic.problem =
        [.missingPipe, .unrecognizedType .input "file"] := by
  obtain ⟨s, r, hs, hstate, hcurrent, hnone, hbefore⟩ : ∃ s r,
      Session.start.feedAll .standard ["\"\"\"", "CONTRACT | f : int -> bool"] = .ok s ∧
        s.state.next mixedLine = ⟨.recipe, .inOuts⟩ ∧ s.current = some r ∧ s.diagnostics = [] ∧
        r.sideEffects = [] :=
    ⟨_, _, rfl, rfl, rfl, rfl, rfl⟩
  have hpayload : (Payload.ofLine (Text.dropLineEnd mixedLine)).text =
      "file/ INT ".toList ++ "# disk / str, console".toList := rfl
  have hinput : SideSaid Options.standard.recognizedTypes .input (Text.trim "file")
      (none, [.unrecognizedType .input "file"]) := .unrecognized (by decide) (by decide)
  have hrecognized : Options.standard.recognizedTypes =
      [] ++ "int".toList :: ["float", "complex", "str", "chr", "bool"] := rfl
  have houtput : SideSaid Options.standard.recognizedTypes .output (Text.trim " INT ")
      (some "int".toList, []) := .known hrecognized (by decide) (by decide)
  have hsaid : ChannelsSaid Options.standard.recognizedTypes "file/ INT "
      (none, some "int".toList, [.unrecognizedType .input "file"]) :=
    .parted rfl (by decide) hinput houtput
  obtain ⟨-, -, haccepts⟩ := Session.effect_of_inOuts .standard hstate hpayload (by decide)
    (by simp)
  obtain ⟨t, raised, hfeed, hrecipe, -, hdiagnostics, hproblems, -⟩ :=
    haccepts r _ _ _ hcurrent hsaid
  have hpipe : '|' ∉ mixedLine := by decide
  have htold : effectsTold "# disk / str, console" = [.console, .file] := by decide +kernel
  refine ⟨s, t, r, hs, hstate, hcurrent, hpayload, hfeed, ?_, ?_⟩
  · rw [hrecipe, hbefore, htold]
    rfl
  · rw [hdiagnostics, hnone, List.nil_append, hproblems, if_neg hpipe]
    rfl

end DesignRecipe.Outline
