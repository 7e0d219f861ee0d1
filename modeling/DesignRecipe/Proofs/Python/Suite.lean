import DesignRecipe.Python.Suite
import DesignRecipe.Proofs.Outline.ExampleCount
import DesignRecipe.Proofs.Outline.Printable
import DesignRecipe.Proofs.Python.Characters

/-!
# One test for each example line

The test file of an outline has one method for each line of the outline that gives an example,
in their order. That there is one method for each example is plain from how the file is put
together; that there is no further one has to be shown of its text, where an explanation or a
string of a value could pass for the head of a method or for the empty statement. Neither can:
they stand on lines of a deeper level, and have no line break in them.

So the text of the class is followed piece by piece (`Python.Tests`), with the heads of the
methods that its lines have.
-/

namespace DesignRecipe.Python

open Outline

/-! ### Lines of a test class -/

/-- The first line of the test method for an example of a function. -/
def methodHead (function : Text) (number : Nat) : Text :=
  indent 1 ++ ("def " ++ testName function number ++ "(self):")

/-- Whether a line of a test class starts a method. -/
def startsMethod (line : Text) : Bool := (indent 1 ++ "def ").isPrefixOf line

/-- The empty statement of a test class. -/
def passLine : Text := indent 1 ++ "pass"

/-- **A piece of a test class** whose methods have these heads, and that has no empty
statement. -/
structure Tests (heads : List Text) (t : Text) : Prop where
  exists_lines : ∃ ls, Text.Lined ls t ∧ ls.filter startsMethod = heads ∧ passLine ∉ ls

namespace Tests

variable {heads heads' : List Text} {s t t' : Text}

theorem nil : Tests [] [] := ⟨[], .nil, rfl, List.not_mem_nil⟩

theorem append (h : Tests heads t) (h' : Tests heads' t') : Tests (heads ++ heads') (t ++ t') := by
  obtain ⟨ls, hlined, hheads, hpass⟩ := h
  obtain ⟨ls', hlined', hheads', hpass'⟩ := h'
  refine ⟨ls ++ ls', hlined.append hlined', ?_, ?_⟩
  · rw [List.filter_append, hheads, hheads']
  · exact fun hmem => (List.mem_append.mp hmem).elim hpass hpass'

theorem flatMap {α : Type} {xs : List α} {f : α → List Text} {g : α → Text}
    (h : ∀ x ∈ xs, Tests (f x) (g x)) : Tests (xs.flatMap f) (xs.flatMap g) := by
  induction xs with
  | nil => exact nil
  | cons x xs ih =>
    obtain ⟨hx, hxs⟩ := List.forall_mem_cons.mp h
    rw [List.flatMap_cons, List.flatMap_cons]
    exact hx.append (ih hxs)

/-- One line that is no empty statement. The fifth character tells. -/
theorem line {c : Option Char} (h : '\n' ∉ t) (hfifth : t[4]? = c) (hc : c ≠ some 'p') :
    Tests (if startsMethod t then [t] else []) (t ++ ['\n']) := by
  refine ⟨[t], .line h, ?_, fun hmem => ?_⟩
  · cases hstarts : startsMethod t <;> simp [hstarts]
  · have hpass : passLine[4]? = some 'p' := by decide
    rw [List.mem_singleton.mp hmem, hfifth] at hpass
    exact hc hpass

theorem emptyLine : Tests [] ['\n'] := line List.not_mem_nil rfl (by decide)

/-- The head of a method. -/
theorem head {function : Text} {number : Nat} (h : '\n' ∉ methodHead function number) :
    Tests [methodHead function number] (methodHead function number ++ ['\n']) :=
  have hfifth : (methodHead function number)[4]? = some 'd' := rfl
  line h hfifth (by decide)

/-- A line in the body of a method. -/
theorem statement (h : '\n' ∉ s) : Tests [] (lineAt 2 s) := by
  have hindent : '\n' ∉ indent 2 := by decide
  have hfifth : (indent 2 ++ s)[4]? = some ' ' := rfl
  exact line (fun hmem => (List.mem_append.mp hmem).elim hindent h) hfifth (by decide)

end Tests

/-! ### Assertions -/

/-- **The characters that may stand in no line of source.** -/
def unloadable : List Char := ['\n', '\r', '\x00']

/-- What is tested by an assertion: a function that is applied to its arguments. -/
def application (function : Text) (args : List Value) : Text :=
  function ++ "(" ++ Text.join ", " (args.map writeLiteral) ++ ")"

theorem mem_application_iff {c : Char} (hc : c ∈ unloadable) (function : Text)
    (args : List Value) :
    c ∈ application function args ↔ c ∈ function ∨ ∃ a ∈ args, c ∈ writeLiteral a := by
  have hframe : ∀ c ∈ unloadable, c ∉ "(".toList ∧ c ∉ ", ".toList ∧ c ∉ ")".toList := by
    simp [unloadable]
  obtain ⟨hopen, hcomma, hclose⟩ := hframe c hc
  rw [application, List.mem_append, List.mem_append, List.mem_append, Text.mem_join_iff hcomma]
  simp only [hopen, hclose, or_false, List.mem_map, exists_exists_and_eq_and]

/-- **An assertion adds none of these characters** to the call and the literal. -/
theorem mem_assertion_iff {c : Char} (hc : c ∈ unloadable) (call : Text) (v : Value) :
    c ∈ assertion call v ↔ c ∈ call ∨ c ∈ writeLiteral v := by
  have hframe : ∀ c ∈ unloadable, c ∉ "self.assertTrue(".toList ∧ c ∉ "self.assertFalse(".toList ∧
      c ∉ "self.assert".toList ∧ c ∉ "AlmostEqual".toList ∧ c ∉ "Equal".toList ∧ c ∉ "(".toList ∧
      c ∉ ", ".toList ∧ c ∉ ")".toList := by simp [unloadable]
  have hwords : ∀ c ∈ unloadable, c ∉ "True".toList ∧ c ∉ "False".toList := by simp [unloadable]
  obtain ⟨htrue, hfalse, hassert, halmost, hequal, hopen, hcomma, hclose⟩ := hframe c hc
  have hword (b : Bool) : c ∉ writeLiteral (.bool b) := by
    cases b
    · exact (hwords c hc).2
    · exact (hwords c hc).1
  rw [assertion.eq_def]
  split
  · simp only [List.mem_append, htrue, hclose, hword, false_or, or_false]
  · simp only [List.mem_append, hfalse, hclose, hword, false_or, or_false]
  · have hmethod : c ∉ (if v.isApproximate then "AlmostEqual" else "Equal" : Text) := by
      split
      · exact halmost
      · exact hequal
    simp only [List.mem_append, hassert, hmethod, hopen, hcomma, hclose, false_or, or_false]

/-! ### Methods -/

theorem lineFeed_notMem_writeLiteral {v : Value} (h : v.Normal) : '\n' ∉ writeLiteral v :=
  fun hmem => absurd (staysOnLine_writeLiteral h _ hmem) (by decide)

theorem lineFeed_notMem_methodHead {function : Text} (h : '\n' ∉ function) (number : Nat) :
    '\n' ∉ methodHead function number := by
  have hnumber : '\n' ∉ Text.ofNat number := fun hmem =>
    absurd (Integer.isDigit_of_mem_ofNat hmem) (by decide)
  have hname : '\n' ∉ testName function number := List.not_mem_append
    (List.not_mem_append (List.not_mem_append (by decide) h) (by decide)) hnumber
  exact List.not_mem_append (by decide)
    (List.not_mem_append (List.not_mem_append (by decide) hname) (by decide))

/-- **The test method of an example has one head**, its own. -/
theorem tests_testMethod {function : Text} (h : '\n' ∉ function) (number : Nat) {e : Example}
    (he : e.Printable) : Tests [methodHead function number] (testMethod function number e) := by
  have hhead := Tests.head (lineFeed_notMem_methodHead h number)
  have hline : '\n' ∉ assertion (application function e.args) e.expected := by
    rw [mem_assertion_iff (by decide), mem_application_iff (by decide)]
    rintro ((hname | ⟨a, ha, hmem⟩) | hvalue)
    · exact h hname
    · exact lineFeed_notMem_writeLiteral (he.args a ha) hmem
    · exact lineFeed_notMem_writeLiteral he.expected hvalue
  have hassertion := Tests.statement hline
  obtain ⟨args, expected, explanation⟩ := e
  cases explanation with
  | none => exact ((hhead.append .nil).append hassertion).append .emptyLine
  | some comment =>
    have hexplanation := Tests.statement (he.explanation comment rfl)
    exact ((hhead.append hexplanation).append hassertion).append .emptyLine

/-! ### The test class -/

/-- **The test methods of a function**, one for each example, numbered from one. -/
def methods (r : Recipe) : List Text := r.examples.mapIdx fun i e => testMethod r.name (i + 1) e

/-- The heads of the test methods of a function. -/
def heads (r : Recipe) : List Text :=
  (List.range r.examples.length).map fun i => methodHead r.name (i + 1)

theorem testMethodsFrom_eq_mapIdx (function : Text) (number : Nat) (examples : List Example) :
    testMethodsFrom function number examples =
      examples.mapIdx fun i e => testMethod function (i + number) e := by
  induction examples generalizing number with
  | nil => rfl
  | cons e examples ih =>
    rw [testMethodsFrom, ih, List.mapIdx_cons, Nat.zero_add]
    simp only [Nat.add_assoc, Nat.add_comm 1]

/-- The methods of a function have the heads that their numbers say. -/
theorem tests_flatten_testMethodsFrom {function : Text} (h : '\n' ∉ function) (number : Nat)
    {examples : List Example} (hexamples : ∀ e ∈ examples, e.Printable) :
    Tests ((List.range examples.length).map fun i => methodHead function (i + number))
      (testMethodsFrom function number examples).flatten := by
  induction examples generalizing number with
  | nil => exact .nil
  | cons e examples ih =>
    obtain ⟨he, hrest⟩ := List.forall_mem_cons.mp hexamples
    have hshift : (fun i => methodHead function (i + number)) ∘ Nat.succ =
        fun i => methodHead function (i + (number + 1)) := by
      funext i
      rw [Function.comp_apply, Nat.succ_add_eq_add_succ]
    rw [testMethodsFrom, List.flatten_cons, List.length_cons, List.range_succ_eq_map, List.map_cons,
      List.map_map, Nat.zero_add, hshift]
    exact (tests_testMethod h number he).append (ih (number + 1) hrest)

/-- The test methods of a function, set off by an empty line if there are any. -/
def methodGroup (r : Recipe) : Text :=
  (if r.examples.isEmpty then [] else ['\n']) ++ (methods r).flatten

/-- What stands between the header and the footer of a test file. -/
def suiteBody (rs : List Recipe) : Text :=
  rs.flatMap methodGroup ++ if rs.all fun r => r.examples.isEmpty then lineAt 1 "pass" else []

theorem suite_eq (rs : List Recipe) (module : Text) :
    suite rs module = suiteHeader module ++ suiteBody rs ++ suiteFooter := by
  have hgroups : rs.flatMap testGroup = rs.flatMap methodGroup := by
    refine List.flatMap_congr fun r _ => ?_
    rw [testGroup, testMethodsFrom_eq_mapIdx]
    rfl
  rw [suite, suiteBody, hgroups, ← List.append_assoc]

/-- A function has its methods and no other one. -/
theorem tests_methodGroup {r : Recipe} (h : r.Printable) : Tests (heads r) (methodGroup r) := by
  have hname : '\n' ∉ r.name := fun hmem => absurd (h.name _ hmem) (by decide)
  have hblank : Tests [] (if r.examples.isEmpty then [] else ['\n'] : Text) := by
    split
    · exact .nil
    · exact .emptyLine
  have hmethods := tests_flatten_testMethodsFrom hname 1 h.examples
  rw [testMethodsFrom_eq_mapIdx] at hmethods
  exact hblank.append hmethods

/-- **The lines of the class**: those that start a method are the heads of the methods, and there
is an empty statement exactly if there is no example. -/
theorem lines_suiteBody {rs : List Recipe} (h : ∀ r ∈ rs, r.Printable) :
    (Text.lines (suiteBody rs)).filter startsMethod = rs.flatMap heads ∧
      (passLine ∈ Text.lines (suiteBody rs) ↔ ∀ r ∈ rs, r.examples = []) := by
  obtain ⟨ls, hlined, hheads, hpass⟩ := Tests.flatMap fun r hr => tests_methodGroup (h r hr)
  have hempty : (rs.all fun r => r.examples.isEmpty) = true ↔ ∀ r ∈ rs, r.examples = [] := by
    simp
  rw [suiteBody, ← hempty]
  split
  · next hall =>
    have hstatement : Text.Lined [passLine] (lineAt 1 "pass") := .line (by decide)
    have hstarts : startsMethod passLine = false := by decide
    rw [(hlined.append hstatement).lines_eq, List.filter_append, hheads]
    exact ⟨by simp [hstarts], by simp [hall]⟩
  · next hsome =>
    rw [List.append_nil, hlined.lines_eq, hheads]
    exact ⟨rfl, iff_of_false hpass hsome⟩

/-- **One test for each example line.** Each function of an outline has one example for each line
of its segment that gives one. The test file of the functions is its header, then function by
function one method for each example, in the order of those lines and numbered from one, then its
footer. No other line of the class starts a method, and the class is empty exactly if there is no
example. -/
theorem suite_of_read (options : Options) (text module : Text) (out : Output)
    (h : Outline.read options text = .ok out) :
    List.Forall₂ (Illustrates options) (segments (place (Text.lines text))) out.recipes ∧
      suite out.recipes module = suiteHeader module ++ suiteBody out.recipes ++ suiteFooter ∧
      (Text.lines (suiteBody out.recipes)).filter startsMethod = out.recipes.flatMap heads ∧
      (passLine ∈ Text.lines (suiteBody out.recipes) ↔ ∀ r ∈ out.recipes, r.examples = []) :=
  ⟨forall₂_illustrates h, suite_eq _ _, lines_suiteBody (forall_printable h)⟩

/-- The lines of an outline of two functions. The first one has an example, then one without its
result that follows without a header, one that is not applicable, and a line whose arrow is
quoted; the second one has no example. -/
def suiteSample : List Text :=
  ["\"\"\"", "CONTRACT | f : int -> int", "EXAMPLE | 1 -> 2 # def test_f_3(self):", "2 ->",
    "EXAMPLE | N/A", "EXAMPLE | \"->\"", "\"\"\"", "\"\"\"", "CONTRACT | g : int -> int"]

theorem suite_of_read_sample : ∃ text out, Text.lines text = suiteSample ∧
    Outline.read .standard text = .ok out ∧
    (segments (place suiteSample)).map (List.countP Placed.givesExample) = [2, 0] ∧
    List.Forall₂ (Illustrates .standard) (segments (place suiteSample)) out.recipes ∧
    (Text.lines (suiteBody out.recipes)).filter startsMethod =
      [("    def test_f_1(self):" : Text), ("    def test_f_2(self):" : Text)] ∧
    passLine ∉ Text.lines (suiteBody out.recipes) := by
  have hlined : Text.Lined (suiteSample.flatMap ([·])) (suiteSample.flatMap (· ++ ['\n'])) :=
    .flatMap fun line hline => .line (by revert line; decide)
  rw [List.flatMap_singleton'] at hlined
  obtain ⟨out, hout, hheads, hsome⟩ : ∃ out, readLines .standard suiteSample = .ok out ∧
      out.recipes.flatMap heads =
        [("    def test_f_1(self):" : Text), ("    def test_f_2(self):" : Text)] ∧
      ∃ r ∈ out.recipes, r.examples ≠ [] :=
    ⟨_, rfl, rfl, _, List.mem_cons_self, List.cons_ne_nil _ _⟩
  have hread : Outline.read .standard (suiteSample.flatMap (· ++ ['\n'])) = .ok out := by
    rw [Outline.read, hlined.lines_eq, hout]
  obtain ⟨hexamples, -, hmethods, hpass⟩ := suite_of_read .standard _ [] out hread
  rw [hlined.lines_eq] at hexamples
  obtain ⟨r, hr, hne⟩ := hsome
  exact ⟨_, out, hlined.lines_eq, hread, by decide, hexamples, hmethods.trans hheads,
    fun hmem => hne (hpass.mp hmem r hr)⟩

end DesignRecipe.Python
