import DesignRecipe.Text.Basic

/-!
# Settings files: values

The values that a settings file can hold, and the rules by which its lines fill tables.
A table is opened by its own header, implied by the header of a table inside it, made by
a dotted key, or written inline; how it came about decides what may still be added to
it.
-/

namespace DesignRecipe

/-- How a table came about. -/
inductive TableKind
  /-- Written in braces. It is complete. -/
  | inline
  /-- Opened by its own header. -/
  | header
  /-- On the way to a table with a header. Its own header may follow. -/
  | implied
  /-- On the way of a dotted key. Further dotted keys may add to it. -/
  | dotted
deriving DecidableEq, Repr

/-- A value of a settings file. -/
inductive Toml
  | string (s : Text)
  | integer (i : Int)
  | float (x : Float)
  | boolean (b : Bool)
  /-- A date, a time or both. No setting has one, so that it is only recognised. -/
  | moment
  | array (items : List Toml)
  | table (kind : TableKind) (entries : List (Text × Toml))
  /-- An array of tables that is filled header by header. -/
  | tables (items : List (List (Text × Toml)))

namespace Toml

/-- The entries of a table, in the order of their first mention. -/
abbrev Entries := List (Text × Toml)

/-- The value of a key. -/
def get? (key : Text) : Entries → Option Toml
  | [] => none
  | (k, v) :: rest => if k = key then some v else get? key rest

/-- The entries with a value for a key, at the place of the value it had, if any. -/
def set (key : Text) (value : Toml) : Entries → Entries
  | [] => [(key, value)]
  | (k, v) :: rest => if k = key then (key, value) :: rest else (k, v) :: set key value rest

/-- Setting a key changes the value of that key alone. -/
theorem get?_set (key other : Text) (value : Toml) (entries : Entries) :
    get? other (set key value entries) =
      if other = key then some value else get? other entries := by
  induction entries with
  | nil => by_cases h : key = other <;> simp [set, get?, h, eq_comm]
  | cons entry rest ih =>
    obtain ⟨k, v⟩ := entry
    by_cases hk : k = key
    · by_cases ho : other = key
      · simp [set, get?, hk, ho]
      · have ho' : ¬key = other := fun e => ho e.symm
        simp [set, get?, hk, ho, ho']
    · by_cases ho : k = other
      · subst ho
        simp [set, get?, hk]
      · simp [set, get?, hk, ho, ih]

/-- **Changes the table at the end of a path of keys**, given its kind. Missing tables
on the way are made; `dotted` tells whether the path is that of a dotted key. A dotted
key does not reach into tables with headers, nothing reaches into inline tables or
other values, and the way into an array of tables leads to its last one. -/
def change (dotted : Bool) (f : TableKind → Entries → Option Entries) :
    List Text → TableKind → Entries → Option Entries
  | [], kind, entries => f kind entries
  | key :: path, _, entries =>
    match get? key entries with
    | none =>
      let kind := if dotted then TableKind.dotted else TableKind.implied
      (change dotted f path kind []).map fun inner => set key (.table kind inner) entries
    | some (.table kind inner) =>
      if kind = .inline ∨ (dotted ∧ kind = .header) then none
      else (change dotted f path kind inner).map fun inner => set key (.table kind inner) entries
    | some (.tables items) =>
      match items.reverse with
      | [] => none
      | last :: front =>
        (change dotted f path .header last).map fun last =>
          set key (.tables (last :: front).reverse) entries
    | some _ => none

/-- A key with a value, the key being a path of at least one name. -/
structure Pair where
  path : List Text
  key : Text
  value : Toml

/-- **Adds a pair to a table.** A key is given a value only once, and a dotted key ends
in a table of dotted keys. -/
def insert (kind : TableKind) (entries : Entries) (p : Pair) : Option Entries :=
  change true
    (fun kind inner =>
      if (kind == .dotted) == p.path.isEmpty then none
      else if (get? p.key inner).isSome then none
      else some (set p.key p.value inner))
    p.path kind entries

/-- Adds pairs to a table in order. -/
def insertAll (kind : TableKind) : Entries → List Pair → Option Entries
  | entries, [] => some entries
  | entries, p :: rest =>
    match insert kind entries p with
    | none => none
    | some entries => insertAll kind entries rest

/-- A part of a settings file: a header, which names a table or an array of tables, and
the pairs below it. -/
structure Section where
  /-- Whether the header adds a table to an array of tables. -/
  repeats : Bool
  path : List Text
  key : Text
  pairs : List Pair

/-- Adds a section to the document. A table has one header at most. -/
def addSection (document : Entries) (s : Section) : Option Entries :=
  change false
    (fun _ outer =>
      match s.repeats, get? s.key outer with
      | true, none =>
        (insertAll .header [] s.pairs).map fun inner => set s.key (.tables [inner]) outer
      | true, some (.tables items) =>
        (insertAll .header [] s.pairs).map fun inner =>
          set s.key (.tables (items ++ [inner])) outer
      | false, none =>
        (insertAll .header [] s.pairs).map fun inner => set s.key (.table .header inner) outer
      | false, some (.table .implied inner) =>
        (insertAll .header inner s.pairs).map fun inner =>
          set s.key (.table .header inner) outer
      | _, _ => none)
    s.path .header document

/-- Adds sections to the document in order. -/
def addSections : Entries → List Section → Option Entries
  | document, [] => some document
  | document, s :: rest =>
    match addSection document s with
    | none => none
    | some document => addSections document rest

end Toml

end DesignRecipe
