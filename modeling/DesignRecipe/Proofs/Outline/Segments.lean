import DesignRecipe.Proofs.Outline.State
import Mathlib.Data.List.TakeWhile

/-!
# Lines in their places

Every line of an outline has its place: the state after it. The contract lines among them
cut the outline into segments, one for each contract line, from that line up to the next
one. What comes before the first contract line belongs to no segment.
-/

namespace DesignRecipe.Outline

/-- A line and the state after it. -/
structure Placed where
  line : Text
  state : State

namespace Placed

/-- Whether the line is a contract line. -/
def opens (p : Placed) : Bool := p.state = ⟨.recipe, .contract⟩

/-- Whether the line is one of a design recipe. -/
def inRecipe (p : Placed) : Bool := p.state.region = .recipe

/-- Whether the line is a comment of a body outline. -/
def isEntry (p : Placed) : Bool := p.state.region = .body ∧ (Text.trim p.line).head? = some '#'

end Placed

/-- Lines read from a state on, each in its place. -/
def placeFrom : State → List Text → List Placed
  | _, [] => []
  | s, line :: rest => ⟨line, s.next line⟩ :: placeFrom (s.next line) rest

/-- **The lines of an outline in their places.** -/
def place (lines : List Text) : List Placed := placeFrom .initial lines

theorem placeFrom_append (s : State) (lines more : List Text) :
    placeFrom s (lines ++ more) =
      placeFrom s lines ++ placeFrom (lines.foldl State.next s) more := by
  induction lines generalizing s with
  | nil => rfl
  | cons line lines ih =>
    rw [List.cons_append, placeFrom, placeFrom, ih, List.cons_append, List.foldl_cons]

theorem place_concat (lines : List Text) (line : Text) :
    place (lines ++ [line]) = place lines ++ [⟨line, (State.after lines).next line⟩] := by
  rw [place, placeFrom_append]
  rfl

/-- Each line stands with the state of the machine after it. -/
theorem getElem?_place (lines : List Text) (i : Nat) :
    (place lines)[i]? = lines[i]?.map fun line => ⟨line, State.after (lines.take (i + 1))⟩ := by
  have hfrom (s : State) : (placeFrom s lines)[i]? =
      lines[i]?.map fun line => ⟨line, (lines.take (i + 1)).foldl State.next s⟩ := by
    induction lines generalizing s i with
    | nil => rfl
    | cons line lines ih =>
      cases i with
      | zero => rfl
      | succ i =>
        rw [placeFrom, List.getElem?_cons_succ, List.getElem?_cons_succ, ih, List.take_succ_cons,
          List.foldl_cons]
  exact hfrom .initial

/-! ### Segments -/

/-- **The segments of lines**: for each contract line the lines from it up to the next
contract line. -/
def segments : List Placed → List (List Placed)
  | [] => []
  | p :: rest =>
    if p.opens then (p :: rest.takeWhile fun q => !q.opens) :: segments rest else segments rest

variable {ps : List Placed} {p : Placed}

/-- There is one segment for each contract line. -/
theorem length_segments (ps : List Placed) : (segments ps).length = ps.countP Placed.opens := by
  induction ps with
  | nil => rfl
  | cons p ps ih =>
    rw [segments, List.countP_cons]
    by_cases hp : p.opens = true <;> simp [hp, ih]

theorem segments_eq_nil_iff : segments ps = [] ↔ ∀ p ∈ ps, p.opens = false := by
  rw [← List.length_eq_zero_iff, length_segments, List.countP_eq_zero]
  simp only [Bool.not_eq_true]

/-- A contract line opens a new segment. -/
theorem segments_concat_of_opens (hp : p.opens = true) :
    segments (ps ++ [p]) = segments ps ++ [[p]] := by
  induction ps with
  | nil => simp [segments, hp]
  | cons q ps ih =>
    -- The segment of `q` ends before the new line at the latest.
    have htake : (ps ++ [p]).takeWhile (fun q => !q.opens) = ps.takeWhile fun q => !q.opens := by
      rw [List.takeWhile_append]
      split
      · next hall =>
        rw [(List.takeWhile_prefix _).eq_of_length hall]
        simp [hp]
      · rfl
    rw [List.cons_append, segments, segments, htake, ih]
    split <;> rfl

/-- Another line is added to the last segment, if there is one. -/
theorem segments_concat (ps : List Placed) (hp : p.opens = false) :
    (segments ps = [] ∧ segments (ps ++ [p]) = []) ∨
      ∃ front last, segments ps = front ++ [last] ∧
        segments (ps ++ [p]) = front ++ [last ++ [p]] := by
  induction ps with
  | nil => exact Or.inl ⟨rfl, by simp [segments, hp]⟩
  | cons q ps ih =>
    rw [List.cons_append, segments, segments]
    rcases ih with ⟨hnil, hnil'⟩ | ⟨front, last, hsegments, hsegments'⟩
    · rw [hnil, hnil']
      by_cases hq : q.opens = true
      · -- The segment of `q` takes all that comes after it.
        have hall : ∀ a ∈ ps, (!a.opens) = true := fun a ha => by
          simp [segments_eq_nil_iff.mp hnil a ha]
        refine Or.inr ⟨[], q :: ps, ?_, ?_⟩
        · simp [hq, List.takeWhile_eq_self_iff.mpr hall]
        · rw [if_pos hq, List.takeWhile_append_of_pos hall]
          simp [hp]
      · exact Or.inl ⟨by rw [if_neg hq], by rw [if_neg hq]⟩
    · rw [hsegments, hsegments']
      by_cases hq : q.opens = true
      · -- There is a contract line after `q`, where its segment ends.
        have hne : ¬(ps.takeWhile fun a => !a.opens).length = ps.length := by
          intro hlength
          have hall := List.takeWhile_eq_self_iff.mp
            ((List.takeWhile_prefix _).eq_of_length hlength)
          have hnil : segments ps = [] :=
            segments_eq_nil_iff.mpr fun a ha => by simpa using hall a ha
          rw [hnil] at hsegments
          exact absurd hsegments (by simp)
        refine Or.inr ⟨(q :: ps.takeWhile fun a => !a.opens) :: front, last, ?_, ?_⟩
        · simp [hq]
        · rw [if_pos hq, List.takeWhile_append, if_neg hne]
          simp
      · exact Or.inr ⟨front, last, by rw [if_neg hq], by rw [if_neg hq]⟩

end DesignRecipe.Outline
