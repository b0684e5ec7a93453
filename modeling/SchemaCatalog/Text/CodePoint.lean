/-!
# Sets of code points and runs of case pairs

The character properties and the case mappings of the Unicode standard are finite data on code
points.  A property is a list of closed intervals; a mapping is a list of runs of evenly spaced
code points whose images are spaced alike.  Both are lists of numbers, so that a fact about all
characters can be read off their entries.
-/

namespace SchemaCatalog.Text

/-- A set of code points as closed intervals. -/
abbrev Intervals := List (Nat × Nat)

/-- A code point belongs to the set if it lies in one of the intervals, both ends included. -/
def Intervals.contains (set : Intervals) (n : Nat) : Bool :=
  set.any fun interval => interval.1 ≤ n && n ≤ interval.2

theorem Intervals.contains_iff {set : Intervals} {n : Nat} :
    set.contains n = true ↔ ∃ interval ∈ set, interval.1 ≤ n ∧ n ≤ interval.2 := by
  simp [Intervals.contains]

/-- The code points `first, first + step, …, last`, which go in this order to
`image, image + step, …`. -/
structure CaseRun where
  first : Nat
  last : Nat
  step : Nat
  image : Nat
deriving DecidableEq, Repr

/-- A run covers the code points that it lists. -/
def CaseRun.covers (run : CaseRun) (n : Nat) : Bool :=
  run.first ≤ n && n ≤ run.last && (n - run.first) % run.step == 0

/-- The image of a code point that the run covers. -/
def CaseRun.send (run : CaseRun) (n : Nat) : Nat :=
  run.image + (n - run.first)

/-- The image of a code point under the first run that covers it; a code point that none covers
stays as it is. -/
def mapCodePoint (runs : List CaseRun) (n : Nat) : Nat :=
  match runs.find? (·.covers n) with
  | some run => run.send n
  | none => n

theorem mapCodePoint_eq_self {runs : List CaseRun} {n : Nat}
    (h : ∀ run ∈ runs, run.covers n = false) : mapCodePoint runs n = n := by
  have hnone : runs.find? (·.covers n) = none := by
    rw [List.find?_eq_none]
    intro run hrun
    simp [h run hrun]
  simp [mapCodePoint, hnone]

theorem mapCodePoint_cases (runs : List CaseRun) (n : Nat) :
    (∃ run ∈ runs, run.covers n = true ∧ mapCodePoint runs n = run.send n) ∨
      ((∀ run ∈ runs, run.covers n = false) ∧ mapCodePoint runs n = n) := by
  cases h : runs.find? (·.covers n) with
  | none =>
    right
    have hall := List.find?_eq_none.mp h
    exact ⟨fun run hrun => by simpa using hall run hrun, by simp [mapCodePoint, h]⟩
  | some run =>
    left
    exact ⟨run, List.mem_of_find?_eq_some h, by simpa using List.find?_some h,
      by simp [mapCodePoint, h]⟩

end SchemaCatalog.Text
