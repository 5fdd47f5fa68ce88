import Mathlib
import Mission10.Library.Loops

/-!
# The assignment search of the association core

`hungarian` assigns every row of a square matrix its own column, one row after
the other. Rows and columns are numbered from 1; column 0 stands for the row
being placed, and row 0 says that a column is free. The arrays are functions of
their index, `math.inf` is the top element, and the two `while` loops carry fuel.
-/
namespace Mission10.Engine.Hungarian

open Loops

variable {K : Type*} [AddCommGroup K] [LinearOrder K]

/-- `cost[row][column]`. -/
def entry (cost : List (List K)) (row column : ℕ) : K := (cost.getD row []).getD column 0

/-- The arrays kept from row to row: the potentials `u` and `v`, the row `p`
assigned to each column and the column each column is reached from. -/
structure Matching (K : Type*) where
  u : ℕ → K
  v : ℕ → K
  p : ℕ → ℕ
  way : ℕ → ℕ

/-- The search for the column of one row. -/
structure Search (K : Type*) extends Matching K where
  minv : ℕ → WithTop K
  used : ℕ → Bool
  j0 : ℕ

/-- The variables of the loop over the columns. -/
structure Scan (K : Type*) where
  minv : ℕ → WithTop K
  way : ℕ → ℕ
  delta : WithTop K
  j1 : ℕ

/-- Column `j` reached from `j0` at `cur`, if that is nearer than before. -/
def Scan.offer (acc : Scan K) (j j0 : ℕ) (cur : K) : Scan K :=
  if (cur : WithTop K) < acc.minv j then
    { acc with minv := Function.update acc.minv j cur, way := Function.update acc.way j j0 }
  else acc

/-- The nearest column so far. -/
def Scan.keep (acc : Scan K) (j : ℕ) : Scan K :=
  if acc.minv j < acc.delta then { acc with delta := acc.minv j, j1 := j } else acc

/-- One round of the loop that finds the nearest column. -/
def scanColumn (cost : List (List K)) (s : Search K) (i0 : ℕ) (acc : Scan K) (j : ℕ) : Scan K :=
  if s.used j then acc
  else (acc.offer j s.j0 (entry cost (i0 - 1) (j - 1) - s.u i0 - s.v j)).keep j

/-- One round of the loop that moves the potentials by `delta`. -/
def raiseColumn (delta : K) (s : Search K) (j : ℕ) : Search K :=
  if s.used j then
    { s with
      u := Function.update s.u (s.p j) (s.u (s.p j) + delta)
      v := Function.update s.v j (s.v j - delta) }
  else { s with minv := Function.update s.minv j ((s.minv j).map (· - delta)) }

/-- One round of the search. There is no result when no column is left and
`delta` stays infinite. -/
def grow (cost : List (List K)) (n : ℕ) (s : Search K) : Option (Search K) :=
  let s := { s with used := Function.update s.used s.j0 true }
  let acc := forRange 1 (n + 1) (scanColumn cost s (s.p s.j0))
    { minv := s.minv, way := s.way, delta := ⊤, j1 := 0 }
  match acc.delta with
  | ⊤ => none
  | WithTop.some delta =>
    let s := forRange 0 (n + 1) (raiseColumn delta) { s with minv := acc.minv, way := acc.way }
    some { s with j0 := acc.j1 }

/-- One round of the loop that hands the columns on along `way`. -/
def rewire (way : ℕ → ℕ) (s : (ℕ → ℕ) × ℕ) : (ℕ → ℕ) × ℕ :=
  let j1 := way s.2
  (Function.update s.1 s.2 (s.1 j1), j1)

/-- The start of the search for the column of row `i`. -/
def Matching.enter (m : Matching K) (i : ℕ) : Search K :=
  { m with
    p := Function.update m.p 0 i
    minv := fun _ => ⊤
    used := fun _ => false
    j0 := 0 }

/-- The assignment of row `i`. -/
def placeRow (cost : List (List K)) (n : ℕ) (m : Matching K) (i : ℕ) : Option (Matching K) :=
  (repeatUntil (grow cost n) (fun s => s.p s.j0 == 0) (n + 1) (m.enter i)).bind fun s =>
    (whileLoop (fun s => s.2 != 0) (rewire s.way) (n + 1) (s.p, s.j0)).map fun t =>
      { s.toMatching with p := t.1 }

/-- The column of every row, read off the assigned columns. -/
def readOut (n : ℕ) (p : ℕ → ℕ) : List ℕ :=
  forRange 1 (n + 1) (fun out j => if p j ≠ 0 then out.set (p j - 1) (j - 1) else out)
    (List.replicate n 0)

/-- Minimum-cost perfect matching on a square matrix: the column assigned to
each row. -/
def hungarian (cost : List (List K)) : Option (List ℕ) :=
  let n := cost.length
  (tryRange 1 (n + 1) (placeRow cost n)
    { u := fun _ => 0, v := fun _ => 0, p := fun _ => 0, way := fun _ => 0 }).map fun m =>
      readOut n m.p

end Mission10.Engine.Hungarian
