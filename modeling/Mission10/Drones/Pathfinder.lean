import Mathlib
import Mission10.Library.BreadthFirst

/-!
# The minefield pathfinder

The field is a grid of 40 by 150 cells. The clearance of a cell is its Chebyshev
distance from the nearest mine. For each half-width of the corridor the
pathfinder searches the shortest path from the bottom row to the top row, and it
keeps the path with the highest official score. Scores are exact quotients. The
two searches carry fuel.
-/
namespace Mission10.Drones

open BreadthFirst

def cols : ℤ := 40
def rows : ℤ := 150
def cellFt : ℕ := 2

/-- A grid cell: its column and its row. -/
abbrev Cell := ℤ × ℤ

inductive PathfinderFault where
  | value (text : String)
  | assertion (text : String)
  /-- A loop of the model ran out of fuel. -/
  | unfinished
  deriving DecidableEq

/-- `range(lo, hi)`. -/
def intRange (lo hi : ℤ) : List ℤ := (List.range (hi - lo).toNat).map fun k : ℕ => lo + k

def inGrid (cell : Cell) : Bool :=
  (0 ≤ cell.1 ∧ cell.1 < cols) ∧ 0 ≤ cell.2 ∧ cell.2 < rows

def gridCells : List Cell :=
  (intRange 0 cols).flatMap fun x => (intRange 0 rows).map fun y => (x, y)

/-- A tuple as Python prints it. -/
def cellText (cell : Cell) : String :=
  "(" ++ toString cell.1 ++ ", " ++ toString cell.2 ++ ")"

def cellsText (cells : List Cell) : String :=
  "[" ++ ", ".intercalate (cells.map cellText) ++ "]"

/-- The order of tuples. -/
def cellLe (a b : Cell) : Bool := a.1 < b.1 ∨ a.1 = b.1 ∧ a.2 ≤ b.2

def moved (cell delta : Cell) : Cell := (cell.1 + delta.1, cell.2 + delta.2)

/-- The rounds of a search that suffice: every cell once, and the sources. -/
def searchFuel (sources : List Cell) : ℕ := sources.length + (cols * rows).toNat + 1

/-- The cells around a cell, row by row, without those outside the grid. -/
def neighbors (cell : Cell) : List Cell :=
  ((([-1, 0, 1].flatMap fun dx => [-1, 0, 1].map fun dy => ((dx, dy) : Cell)).filter
    (· ≠ (0, 0))).map (moved cell)).filter inGrid

/-- `{cell: value for cell in cells}`. -/
def dictOf (cells : List Cell) (value : ℕ) : Marks Cell ℕ :=
  cells.foldl (fun marks cell => marks.insert cell value) ∅

/-- The Chebyshev distance of every cell from the nearest mine. The mines come in
the order in which Python walks their set. -/
def computeClearanceMap (mines : List Cell) : Except PathfinderFault (Marks Cell ℕ) :=
  let outOfBounds := (mines.filter (!inGrid ·)).mergeSort cellLe
  if outOfBounds ≠ [] then
    .error (.value ("mine cells outside the grid: " ++ cellsText outOfBounds))
  else if mines = [] then .ok (dictOf gridCells (max cols rows + 1).toNat)
  else
    match search neighbors (fun cell clearance => (clearance.lookup cell).getD 0 + 1)
        (fun _ => false) (searchFuel mines) (start 0 mines) with
    | none => .error .unfinished
    | some (_, clearance) =>
      if clearance.entries.length ≠ (cols * rows).toNat then
        .error (.assertion "clearance map does not cover the complete grid")
      else .ok clearance

/-- `clearance_map[cell]`, for a map that covers the grid. -/
def clearanceAt (clearance : Marks Cell ℕ) (cell : Cell) : ℕ := (clearance.lookup cell).getD 0

inductive Direction where
  | up
  | down
  | right
  | left
  deriving DecidableEq

namespace Direction

def letter : Direction → String
  | up => "U"
  | down => "D"
  | right => "R"
  | left => "L"

def delta : Direction → Cell
  | up => (0, 1)
  | down => (0, -1)
  | right => (1, 0)
  | left => (-1, 0)

end Direction

def directionForDelta (delta : Cell) : Option Direction :=
  [Direction.up, .down, .right, .left].find? (·.delta = delta)

/-- The move of each step of a path. -/
def pathMoves : List Cell → Except PathfinderFault (List Direction)
  | current :: following :: rest =>
    match directionForDelta (following.1 - current.1, following.2 - current.2) with
    | none => .error (.value ("path contains a non-adjacent move: " ++ cellText current ++
        " -> " ++ cellText following))
    | some direction => (pathMoves (following :: rest)).map (direction :: ·)
  | _ => .ok []

/-- One more move in the run it continues or in a new run. -/
def addMove (runs : List (Direction × ℕ)) (direction : Direction) : List (Direction × ℕ) :=
  match runs.getLast? with
  | some (last, count) =>
    if last = direction then runs.dropLast ++ [(last, count + 1)] else runs ++ [(direction, 1)]
  | none => [(direction, 1)]

/-- The commands `S,U,D,L,R` of a path that begins and ends with an upward move. -/
def gridPathToCommands (gridPath : List Cell) (G : ℕ) : Except PathfinderFault String :=
  match gridPath with
  | [] => .ok ""
  | [_] => .error (.value "path must contain at least one move")
  | first :: _ => do
    let moves ← pathMoves gridPath
    if moves ≠ [] ∧ (moves.head? ≠ some .up ∨ moves.getLast? ≠ some .up) then
      throw (.value "path must begin and end with an upward move")
    let runs := moves.foldl addMove []
    let start := "S," ++ toString first.1 ++ "," ++ toString G
    return "\n".intercalate
      (start :: runs.map fun run => run.1.letter ++ "," ++ toString run.2)

/-- The official score of a surviving path. -/
def officialScore (widthFt lengthFt missedMines scanTime overweight : ℚ) : ℚ :=
  let denominator := (1 + missedMines) * lengthFt * (1 + 7 * scanTime + 100 * overweight)
  if 0 < denominator then 150000 * widthFt / denominator else 0

/-- The cell lies between the margins of the corridor and is far enough from the
mines. -/
def isOpen (clearance : Marks Cell ℕ) (G : ℕ) (cell : Cell) : Bool :=
  ((G ≤ cell.1 ∧ cell.1 ≤ cols - G - 1) ∧ 0 ≤ cell.2 ∧ cell.2 < rows) ∧
    G < clearanceAt clearance cell

def openNeighbors (clearance : Marks Cell ℕ) (G : ℕ) (cell : Cell) : List Cell :=
  ([((0, 1) : Cell), (-1, 0), (1, 0), (0, -1)].map (moved cell)).filter (isOpen clearance G)

/-- All entrances of the bottom row. -/
def entrances (clearance : Marks Cell ℕ) (G : ℕ) : List Cell :=
  ((intRange G (cols - G - 1 + 1)).map fun x => (x, 0)).filter (G < clearanceAt clearance ·)

/-- The shortest path from the bottom row to the top row for a half-width. -/
def shortestSafePath (clearance : Marks Cell ℕ) (G : ℕ) :
    Except PathfinderFault (Option (List Cell)) :=
  if cols - G - 1 < G then .ok none
  else
    let starts := entrances clearance G
    if starts = [] then .ok none
    else
      match search (openNeighbors clearance G) (fun current _ => some current)
          (fun cell => cell.2 = rows - 1) (searchFuel starts) (start none starts) with
      | none => .error .unfinished
      | some (none, _) => .ok none
      | some (some current, cameFrom) =>
        match trace cameFrom (searchFuel starts) (some current) with
        | none => .error .unfinished
        | some path => .ok (some path.reverse)

/-- The best candidate so far. -/
structure BestPath where
  score : ℚ := 0
  path : Option (List Cell) := none
  G : ℕ := 0
  clearance : ℕ := 0

/-- The score of a path that misses no mine. -/
def candidateScore (path : List Cell) (G : ℕ) (scanTime : ℚ) : ℚ :=
  officialScore ((1 + 2 * G) * cellFt) (path.length * cellFt) 0 scanTime 0

def tryWidth (clearance : Marks Cell ℕ) (scanTime : ℚ) (best : BestPath) (G : ℕ) :
    Except PathfinderFault BestPath :=
  match shortestSafePath clearance G with
  | .error fault => .error fault
  | .ok none => .ok best
  | .ok (some path) =>
    if best.score < candidateScore path G scanTime then
      .ok { score := candidateScore path G scanTime
            path := some path
            G := G
            clearance := ((path.map (clearanceAt clearance)).min?).getD 0 }
    else .ok best

/-- The path, the half-width and the clearance of the best candidate. -/
def findBestPath (mines : List Cell) (scanTime : ℚ) :
    Except PathfinderFault (Option (List Cell) × ℕ × ℕ) := do
  let clearance ← computeClearanceMap mines
  let best ← (List.range ((cols - 1) / 2 + 1).toNat).foldlM (tryWidth clearance scanTime) {}
  return (best.path, best.G, best.clearance)

end Mission10.Drones
