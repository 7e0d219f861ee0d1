import DesignRecipe.Python.Literal
import DesignRecipe.Python.Stub

/-!
# Test suites

The test file of an outline: one test method for each worked example, named after the
function and numbered from one, in the order of the examples.
-/

namespace DesignRecipe.Python

/-- The name of the test method for an example of a function. -/
def testName (function : Text) (number : Nat) : Text :=
  "test_" ++ function ++ "_" ++ Text.ofNat number

/-- The assertion that a call has the expected result. Truth values have assertions of
their own, and doubles are compared within a tolerance. -/
def assertion (call : Text) : Value → Text
  | .bool true => "self.assertTrue(" ++ call ++ ")"
  | .bool false => "self.assertFalse(" ++ call ++ ")"
  | expected =>
    "self.assert" ++ (if expected.isApproximate then "AlmostEqual" else "Equal" : Text) ++ "(" ++
      call ++ ", " ++ writeLiteral expected ++ ")"

/-- The test method for an example. -/
def testMethod (function : Text) (number : Nat) (e : Example) : Text :=
  let call := function ++ "(" ++ Text.join ", " (e.args.map writeLiteral) ++ ")"
  lineAt 1 ("def " ++ testName function number ++ "(self):") ++
  (match e.explanation with
    | some explanation => lineAt 2 explanation
    | none => []) ++
  lineAt 2 (assertion call e.expected) ++ "\n"

/-- The test methods for examples, numbered from a number on. -/
def testMethodsFrom (function : Text) : Nat → List Example → List Text
  | _, [] => []
  | number, e :: rest => testMethod function number e :: testMethodsFrom function (number + 1) rest

/-- The test methods of a function, set off by an empty line if there are any. -/
def testGroup (r : Recipe) : Text :=
  (if r.examples.isEmpty then [] else ['\n']) ++ (testMethodsFrom r.name 1 r.examples).flatten

/-- What a test file starts with. -/
def suiteHeader (module : Text) : Text :=
  "import unittest\nfrom " ++ module ++ " import *\n\n\nclass TestCases(unittest.TestCase):\n"

/-- What a test file ends with. -/
def suiteFooter : Text := "\nif __name__ == '__main__':\n    unittest.main()\n"

/-- **The test file of functions** that are imported from a module. A class without any
method has an empty statement for its body. -/
def suite (rs : List Recipe) (module : Text) : Text :=
  suiteHeader module ++ rs.flatMap testGroup ++
  (if rs.all fun r => r.examples.isEmpty then lineAt 1 "pass" else []) ++ suiteFooter

end Python

end DesignRecipe
