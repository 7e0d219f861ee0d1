import DesignRecipe.Proofs.Python.Suite
import DesignRecipe.Proofs.Text.Lines
import Mathlib.Data.List.Nodup

/-!
# Test methods do not shadow each other

A class keeps only the last of several methods with one name, so a test that shares its name with
another one is never run. The name of a test method is put together from the name of the function
and a number. Names of functions may have underscores and digits at their ends, but the number has
no underscore, so it is what stands behind the last one (`Text.append_cons_inj_last`). Two
methods have the same name exactly if they belong to functions of the same name and have the same
number.
-/

namespace DesignRecipe.Python

/-! ### The names of methods -/

theorem underscore_notMem_ofNat (n : ℕ) : '_' ∉ Text.ofNat n := fun hmem =>
  absurd (Integer.isDigit_of_mem_ofNat hmem) (by decide)

/-- **The name of a test method tells** the name of the function and the number. -/
theorem testName_inj {f g : Text} {m n : ℕ} :
    testName f m = testName g n ↔ f = g ∧ m = n := by
  have hunderscore : "_".toList = ['_'] := by decide
  have hsplit (f : Text) (n : ℕ) : testName f n = "test_" ++ (f ++ '_' :: Text.ofNat n) :=
    calc testName f n = "test_" ++ f ++ ("_" ++ Text.ofNat n) := List.append_assoc _ _ _
      _ = "test_" ++ (f ++ ("_" ++ Text.ofNat n)) := List.append_assoc _ _ _
      _ = "test_" ++ (f ++ '_' :: Text.ofNat n) :=
        congrArg (fun separator => "test_" ++ (f ++ (separator ++ Text.ofNat n))) hunderscore
  rw [hsplit, hsplit, List.append_cancel_left_eq,
    Text.append_cons_inj_last (underscore_notMem_ofNat m) (underscore_notMem_ofNat n),
    Integer.ofNat_inj]

/-- The names of the test methods of a function, in order. -/
def testNames (r : Recipe) : List Text :=
  (List.range r.examples.length).map fun i => testName r.name (i + 1)

variable {rs : List Recipe} {f g r : Recipe}

theorem getElem?_testNames {i : ℕ} (hi : i < r.examples.length) :
    (testNames r)[i]? = some (testName r.name (i + 1)) := by
  simp [testNames, hi]

theorem mem_testNames {name : Text} :
    name ∈ testNames r ↔ ∃ i < r.examples.length, name = testName r.name (i + 1) := by
  simp [testNames, eq_comm]

/-- **A method starts with its name.** -/
theorem forall₂_testNames (r : Recipe) : List.Forall₂ (fun name method =>
    lineAt 1 ("def " ++ name ++ "(self):") <+: method) (testNames r) (methods r) := by
  rw [List.forall₂_iff_get]
  refine ⟨by simp [testNames, methods], fun i hi hi' => ?_⟩
  have hname : (testNames r).get ⟨i, hi⟩ = testName r.name (i + 1) := by simp [testNames]
  have hmethod : ∃ e, (methods r).get ⟨i, hi'⟩ = testMethod r.name (i + 1) e := by simp [methods]
  obtain ⟨e, hmethod⟩ := hmethod
  rw [hname, hmethod, testMethod]
  exact ((List.prefix_append _ _).trans (List.prefix_append _ _)).trans (List.prefix_append _ _)

/-! ### The methods of a suite -/

theorem nodup_testNames (r : Recipe) : (testNames r).Nodup := by
  have hinjective : Function.Injective fun i => testName r.name (i + 1) := fun i j h =>
    Nat.add_right_cancel (testName_inj.mp h).2
  exact List.nodup_range.map hinjective

/-- **Two functions share a method name** exactly if both have a test and they share their name. -/
theorem disjoint_testNames_iff : (testNames f).Disjoint (testNames g) ↔
    f.examples ≠ [] → g.examples ≠ [] → f.name ≠ g.name := by
  constructor
  · intro hdisjoint hf hg hname
    have hfirst {r : Recipe} (hr : r.examples ≠ []) : testName r.name 1 ∈ testNames r :=
      mem_testNames.mpr ⟨0, List.length_pos_iff.mpr hr, rfl⟩
    exact hdisjoint (hfirst hf) (hname ▸ hfirst hg)
  · intro h name hname hname'
    obtain ⟨i, hi, rfl⟩ := mem_testNames.mp hname
    obtain ⟨j, hj, hsame⟩ := mem_testNames.mp hname'
    exact h (List.ne_nil_of_length_pos (Nat.zero_lt_of_lt hi))
      (List.ne_nil_of_length_pos (Nat.zero_lt_of_lt hj)) (testName_inj.mp hsame).1

/-- **The method names of a suite are distinct** exactly if the functions that have tests have
distinct names. -/
theorem nodup_flatMap_testNames_iff : (rs.flatMap testNames).Nodup ↔
    ((rs.filter fun r => !r.examples.isEmpty).map Recipe.name).Nodup := by
  rw [List.nodup_flatMap, and_iff_right fun r _ => nodup_testNames r, List.Nodup,
    List.pairwise_map, List.pairwise_filter]
  refine List.Pairwise.iff fun f g => ?_
  rw [Function.onFun_apply, disjoint_testNames_iff]
  simp

/-- In the text of a test file no line starts a method that another line starts, exactly if the
functions that have tests have distinct names. -/
theorem nodup_filter_startsMethod_iff (h : ∀ r ∈ rs, r.Printable) :
    ((Text.lines (suiteBody rs)).filter startsMethod).Nodup ↔
      ((rs.filter fun r => !r.examples.isEmpty).map Recipe.name).Nodup := by
  have hinjective : Function.Injective fun name : Text =>
      indent 1 ++ ("def " ++ name ++ "(self):") := fun name name' h =>
    List.append_cancel_left (List.append_cancel_right (List.append_cancel_left h))
  have hheads : rs.flatMap heads = (rs.flatMap testNames).map fun name =>
      indent 1 ++ ("def " ++ name ++ "(self):") := by
    simp only [List.map_flatMap, testNames, List.map_map]
    rfl
  rw [(lines_suiteBody h).1, hheads, List.nodup_map_iff hinjective, nodup_flatMap_testNames_iff]

/-- **Test methods never shadow each other across functions.** The suite has the methods of its
functions in order, and each method starts with its name. Two methods have the same name exactly if
their functions have the same name and they are for the examples at the same place. So the names of
all methods are distinct if the functions with tests have distinct names, and only then. The text of
the suite shows this: where functions and strings have no line breaks of their own, the lines that
start a method are all different in the same case. -/
theorem methods_distinct (rs : List Recipe) (module : Text) :
    suite rs module = suiteHeader module ++ suiteBody rs ++ suiteFooter ∧
      (∀ r ∈ rs, List.Forall₂ (fun name method =>
        lineAt 1 ("def " ++ name ++ "(self):") <+: method) (testNames r) (methods r)) ∧
      (∀ f ∈ rs, ∀ g ∈ rs, ∀ i < f.examples.length, ∀ j < g.examples.length,
        (testNames f)[i]? = (testNames g)[j]? ↔ f.name = g.name ∧ i = j) ∧
      ((rs.flatMap testNames).Nodup ↔
        ((rs.filter fun r => !r.examples.isEmpty).map Recipe.name).Nodup) ∧
      ((rs.map Recipe.name).Nodup → (rs.flatMap testNames).Nodup) ∧
      ((∀ r ∈ rs, r.Printable) →
        (((Text.lines (suiteBody rs)).filter startsMethod).Nodup ↔
          ((rs.filter fun r => !r.examples.isEmpty).map Recipe.name).Nodup)) := by
  refine ⟨suite_eq rs module, fun r _ => forall₂_testNames r, fun f _ g _ i hi j hj => ?_,
    nodup_flatMap_testNames_iff, fun hnames => ?_, nodup_filter_startsMethod_iff⟩
  · rw [getElem?_testNames hi, getElem?_testNames hj, Option.some_inj, testName_inj,
      Nat.add_right_cancel_iff]
  · exact nodup_flatMap_testNames_iff.mpr (hnames.sublist (List.filter_sublist.map _))

/-- Two functions. The name of the second one is that of the first one with a number behind it, as
in the name of a test method. -/
def namesakes : List Recipe :=
  [{ Recipe.ofContract "f" [] "int" with examples := [⟨[], .int 1, none⟩, ⟨[], .int 1, none⟩] },
    { Recipe.ofContract "f_1" [] "int" with examples := [⟨[], .int 1, none⟩] }]

theorem methods_distinct_namesakes :
    namesakes.flatMap testNames =
      [("test_f_1" : Text), ("test_f_2" : Text), ("test_f_1_1" : Text)] ∧
    (∀ f ∈ namesakes, ∀ g ∈ namesakes, (testNames f)[0]? = (testNames g)[0]? ↔ f.name = g.name) ∧
    (namesakes.flatMap testNames).Nodup := by
  have htests : ∀ r ∈ namesakes, 0 < r.examples.length := by decide
  obtain ⟨-, -, hsame, -, hnodup, -⟩ := methods_distinct namesakes []
  refine ⟨by decide +kernel, fun f hf g hg => ?_, hnodup (by decide)⟩
  simpa using hsame f hf g hg 0 (htests f hf) 0 (htests g hg)

end DesignRecipe.Python
