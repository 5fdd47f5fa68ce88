import Mission10.Drones.BestPath

/-!
# The commands of a path

The commands of a path name its first column and its moves in runs. `follow`
reads them back, line by line and field by field, and walks the runs from the
bottom row. A path of the search is accepted by the encoder, since its first and
last moves are upward, and following its commands visits its cells in order.
-/
namespace Mission10.Drones

open BreadthFirst

/-- A decimal number. -/
def readNat (text : List Char) : Option ℕ :=
  if text ≠ [] ∧ text.all (·.isDigit) then some (Nat.ofDigitChars 10 text 0) else none

def readDirection (text : List Char) : Option Direction :=
  [Direction.up, .down, .right, .left].find? (·.letter.toList = text)

/-- The fields of a run: its direction and its length. -/
def readRun : List (List Char) → Option (Direction × ℕ)
  | [letter, count] =>
    (readDirection letter).bind fun direction => (readNat count).map fun n => (direction, n)
  | _ => none

/-- The start column and the runs of a list of commands. -/
def readCommands (text : String) : Option (ℕ × List (Direction × ℕ)) :=
  match (text.toList.splitOn '\n').map (·.splitOn ',') with
  | [letter, column, _] :: runs =>
    if letter = ['S'] then
      (readNat column).bind fun x => (runs.mapM readRun).map fun runs => (x, runs)
    else none
  | _ => none

/-- The moves of the runs, one by one. -/
def expand (runs : List (Direction × ℕ)) : List Direction :=
  runs.flatMap fun run => List.replicate run.2 run.1

/-- The cells visited by moves from a cell. -/
def visit (start : Cell) (moves : List Direction) : List Cell :=
  moves.scanl (fun cell direction => moved cell direction.delta) start

/-- The cells visited by following the commands from the start cell. -/
def follow (text : String) : Option (List Cell) :=
  (readCommands text).map fun commands => visit (commands.1, 0) (expand commands.2)

section Runs

theorem expand_addMove (runs : List (Direction × ℕ)) (direction : Direction) :
    expand (addMove runs direction) = expand runs ++ [direction] := by
  unfold addMove
  cases hlast : runs.getLast? with
  | none =>
    rw [List.getLast?_eq_none_iff] at hlast
    subst hlast
    rfl
  | some last =>
    obtain ⟨before, hruns⟩ := List.getLast?_eq_some_iff.mp hlast
    obtain ⟨direction', count⟩ := last
    subst hruns
    dsimp only
    split
    · rename_i heq
      subst heq
      simp [expand, List.replicate_succ']
    · simp [expand]

theorem expand_runs (moves : List Direction) :
    expand (moves.foldl addMove []) = moves := by
  have hfold : ∀ runs, expand (moves.foldl addMove runs) = expand runs ++ moves := by
    induction moves with
    | nil => simp
    | cons direction moves ih =>
      intro runs
      rw [List.foldl_cons, ih, expand_addMove, List.append_assoc, List.singleton_append]
  exact hfold []

end Runs

section Text

theorem notMem_toDigits (n : ℕ) {c : Char} (hc : c.isDigit = false) :
    c ∉ Nat.toDigits 10 n := by
  intro hmem
  rw [Nat.isDigit_of_mem_toDigits (by omega) (by omega) hmem] at hc
  contradiction

theorem readNat_toDigits (n : ℕ) : readNat (Nat.toDigits 10 n) = some n := by
  have hdigits : (Nat.toDigits 10 n).all (·.isDigit) = true := by
    rw [List.all_eq_true]
    intro c hc
    exact Nat.isDigit_of_mem_toDigits (by omega) (by omega) hc
  rw [readNat, if_pos ⟨Nat.toDigits_ne_nil, hdigits⟩,
    Nat.ofDigitChars_toDigits (by omega) (by omega)]

theorem toList_toString (n : ℕ) : (toString n).toList = Nat.toDigits 10 n := by
  rw [Nat.toString_eq_ofList_toDigits, String.toList_ofList]

/-- The line of a run. -/
def runLine (run : Direction × ℕ) : String := run.1.letter ++ "," ++ toString run.2

theorem letter_clean (direction : Direction) :
    ',' ∉ direction.letter.toList ∧ '\n' ∉ direction.letter.toList := by
  cases direction <;> decide

theorem runLine_toList (run : Direction × ℕ) : (runLine run).toList =
    [','].intercalate [run.1.letter.toList, Nat.toDigits 10 run.2] := by
  rw [runLine, String.toList_append, String.toList_append, toList_toString]
  simp [List.intercalate]

theorem runLine_fields (run : Direction × ℕ) :
    (runLine run).toList.splitOn ',' = [run.1.letter.toList, Nat.toDigits 10 run.2] := by
  rw [runLine_toList]
  refine List.splitOn_intercalate ',' ?_ (by simp)
  intro field hfield
  rcases List.mem_pair.mp hfield with rfl | rfl
  · exact (letter_clean run.1).1
  · exact notMem_toDigits run.2 rfl

theorem runLine_oneLine (run : Direction × ℕ) : '\n' ∉ (runLine run).toList := by
  have hletter := (letter_clean run.1).2
  have hcount := notMem_toDigits run.2 (c := '\n') rfl
  rw [runLine, String.toList_append, String.toList_append, toList_toString]
  simp [hletter, hcount]

theorem readRun_runLine (run : Direction × ℕ) :
    readRun ((runLine run).toList.splitOn ',') = some run := by
  obtain ⟨direction, count⟩ := run
  rw [runLine_fields, readRun]
  have hletter : readDirection direction.letter.toList = some direction := by
    cases direction <;> rfl
  rw [hletter, readNat_toDigits]
  rfl

/-- The first line, for a start in a column of the grid. -/
def startLine (column G : ℕ) : String := "S," ++ toString column ++ "," ++ toString G

theorem startLine_toList (column G : ℕ) : (startLine column G).toList =
    [','].intercalate [['S'], Nat.toDigits 10 column, Nat.toDigits 10 G] := by
  simp only [startLine, String.toList_append, toList_toString]
  simp [List.intercalate]

theorem startLine_fields (column G : ℕ) : (startLine column G).toList.splitOn ',' =
    [['S'], Nat.toDigits 10 column, Nat.toDigits 10 G] := by
  rw [startLine_toList]
  refine List.splitOn_intercalate ',' ?_ (by simp)
  simp [notMem_toDigits]

theorem startLine_oneLine (column G : ℕ) : '\n' ∉ (startLine column G).toList := by
  simp only [startLine, String.toList_append, toList_toString]
  simp [notMem_toDigits]

theorem readRuns (runs : List (Direction × ℕ)) :
    (runs.map fun run => (runLine run).toList.splitOn ',').mapM readRun = some runs := by
  induction runs with
  | nil => rfl
  | cons run runs ih =>
    rw [List.map_cons, List.mapM_cons, readRun_runLine, ih]
    rfl

/-- The commands read back. -/
theorem readCommands_lines (column G : ℕ) (runs : List (Direction × ℕ)) :
    readCommands ("\n".intercalate (startLine column G :: runs.map runLine)) =
      some (column, runs) := by
  have hlines : ("\n".intercalate (startLine column G :: runs.map runLine)).toList.splitOn '\n' =
      (startLine column G :: runs.map runLine).map String.toList := by
    rw [String.toList_intercalate]
    refine List.splitOn_intercalate '\n' ?_ (by simp)
    simp only [List.map_cons, List.map_map, List.mem_cons, List.mem_map]
    rintro line (rfl | ⟨run, -, rfl⟩)
    · exact startLine_oneLine column G
    · exact runLine_oneLine run
  unfold readCommands
  rw [hlines, List.map_cons, List.map_cons, startLine_fields, List.map_map, List.map_map]
  dsimp only
  rw [if_pos rfl, readNat_toDigits]
  change (some column).bind (fun x => ((runs.map fun run =>
    (runLine run).toList.splitOn ',').mapM readRun).map fun runs => (x, runs)) = _
  rw [readRuns]
  rfl

end Text

section Path

variable {clearance : Marks Cell ℕ} {G : ℕ}

theorem directionForDelta_delta (direction : Direction) :
    directionForDelta direction.delta = some direction := by
  cases direction <;> decide

theorem directionForDelta_of_adjacent {a b : Cell} (h : Adjacent a b) : ∃ direction,
    directionForDelta (b.1 - a.1, b.2 - a.2) = some direction ∧
      moved a direction.delta = b ∧ (b.2 = a.2 + 1 → direction = .up) := by
  obtain ⟨x, y⟩ := a
  obtain ⟨x', y'⟩ := b
  have hcases : ∃ direction : Direction, direction.delta = (x' - x, y' - y) := by
    simp only [Adjacent] at h
    rcases (by omega : (x' - x = 0 ∧ y' - y = 1) ∨ (x' - x = 0 ∧ y' - y = -1) ∨
      (x' - x = 1 ∧ y' - y = 0) ∨ (x' - x = -1 ∧ y' - y = 0)) with h | h | h | h
    · exact ⟨.up, by simp [Direction.delta, h]⟩
    · exact ⟨.down, by simp [Direction.delta, h]⟩
    · exact ⟨.right, by simp [Direction.delta, h]⟩
    · exact ⟨.left, by simp [Direction.delta, h]⟩
  obtain ⟨direction, hdelta⟩ := hcases
  refine ⟨direction, by rw [← hdelta, directionForDelta_delta], ?_, fun hup => ?_⟩
  · rw [hdelta]
    simp [moved]
  · dsimp only at hup
    have hrow := congrArg Prod.snd hdelta
    dsimp only at hrow
    cases direction with
    | up => rfl
    | down | right | left => simp [Direction.delta] at hrow; omega

/-- The moves of a path of neighbouring cells lead along it. The move into a last
cell above its predecessor is the last move and upward. -/
theorem pathMoves_spec {path : List Cell} : ∀ {first : Cell},
    (first :: path).IsChain Adjacent → ∃ moves, pathMoves (first :: path) = .ok moves ∧
      visit first moves = first :: path ∧ moves.length = path.length ∧
      (∀ second, path.head? = some second → second.2 = first.2 + 1 → moves.head? = some .up) ∧
      (∀ before a b, first :: path = before ++ [a, b] → b.2 = a.2 + 1 →
        moves.getLast? = some .up) := by
  induction path with
  | nil =>
    refine fun _ => ⟨[], rfl, rfl, rfl, by simp, fun before a b heq => ?_⟩
    have hlength := congrArg List.length heq
    simp at hlength
  | cons second path ih =>
    intro first hchain
    obtain ⟨hadjacent, hchain⟩ := List.isChain_cons_cons.mp hchain
    obtain ⟨direction, hdirection, hmoved, hup⟩ := directionForDelta_of_adjacent hadjacent
    obtain ⟨moves, hmoves, hvisit, hlength, -, hlast⟩ := ih hchain
    refine ⟨direction :: moves, ?_, ?_, by simp [hlength], ?_, ?_⟩
    · rw [pathMoves, hdirection, hmoves]
      rfl
    · rw [visit, List.scanl_cons, hmoved]
      exact congrArg (first :: ·) hvisit
    · intro second' hsecond hrow
      obtain rfl : second = second' := by simpa using hsecond
      rw [List.head?_cons, hup hrow]
    · intro before a b heq hrow
      cases before with
      | nil =>
        obtain ⟨rfl, hrest⟩ := List.cons.inj heq
        obtain ⟨rfl, rfl⟩ := List.cons.inj hrest
        obtain rfl : moves = [] := List.length_eq_zero_iff.mp hlength
        rw [List.getLast?_singleton, hup hrow]
      | cons head before =>
        obtain ⟨rfl, hrest⟩ := List.cons.inj heq
        have hend := hlast before a b hrest hrow
        rw [List.getLast?_cons, hend]
        rfl

/-- A walk that only moves onward is accepted, and its commands lead along it. -/
theorem commands_of_walk {path : List Cell} (hwalk : Walk clearance G path)
    (honward : path.IsChain Onward) :
    ∃ text, gridPathToCommands path G = .ok text ∧ follow text = some path := by
  have hrows : rows = 150 := rfl
  obtain ⟨first, hfirst, hbottom⟩ := hwalk.bottom
  obtain ⟨last, hlast, htop⟩ := hwalk.top
  have hbounds : ∀ cell ∈ path, ((G : ℤ) ≤ cell.1 ∧ cell.1 ≤ 40 - G - 1) ∧
      0 ≤ cell.2 ∧ cell.2 < 150 := fun cell hcell =>
    ((isOpen_iff cell).mp (hwalk.passable cell hcell)).1
  match path, hfirst with
  | [only], hfirst =>
    obtain rfl : only = first := by simpa using hfirst
    obtain rfl : only = last := by simpa using hlast
    omega
  | head :: second :: rest, hfirst =>
    obtain rfl : head = first := by simpa using hfirst
    obtain ⟨moves, hmoves, hvisit, hlength, hhead, hend⟩ := pathMoves_spec hwalk.adjacent
    have hstart : moves.head? = some .up := by
      refine hhead second rfl ?_
      have hadjacent := (List.isChain_cons_cons.mp hwalk.adjacent).1
      have hnot := (List.isChain_cons_cons.mp honward).1.1
      have hsecond := hbounds second (by simp)
      simp only [Adjacent] at hadjacent
      omega
    have hfinish : moves.getLast? = some .up := by
      obtain ⟨init, hinit⟩ := List.getLast?_eq_some_iff.mp hlast
      obtain ⟨before, a, rfl⟩ : ∃ before a, init = before ++ [a] := by
        refine (List.eq_nil_or_concat' init).resolve_left ?_
        rintro rfl
        simp at hinit
      rw [List.append_assoc, List.singleton_append] at hinit
      refine hend before a last hinit ?_
      have hadjacent := hwalk.adjacent
      rw [hinit, List.isChain_append_cons_cons] at hadjacent honward
      have ha := hbounds a (by rw [hinit]; simp)
      have hnot := honward.2.1.2
      simp only [Adjacent] at hadjacent
      omega
    obtain ⟨column, hcolumn⟩ := Int.eq_ofNat_of_zero_le
      (show 0 ≤ head.1 by have h := hbounds head (by simp); omega)
    refine ⟨"\n".intercalate (startLine column G :: (moves.foldl addMove []).map runLine), ?_, ?_⟩
    · have haccepted : ¬ (moves ≠ [] ∧ (moves.head? ≠ some .up ∨ moves.getLast? ≠ some .up)) := by
        simp [hstart, hfinish]
      rw [gridPathToCommands, hmoves]
      · simp only [bind, Except.bind, if_neg haccepted, hcolumn]
        rfl
      · simp
    · rw [follow, readCommands_lines, Option.map_some, expand_runs, ← hvisit]
      have hhead : head = ((column : ℤ), 0) := Prod.ext hcolumn hbottom
      rw [hhead]

end Path

/-- For every clearance map and half-width a path of the search is encoded, and its
commands lead along it. -/
theorem path_commands {clearance : Marks Cell ℕ} {G : ℕ} {path : List Cell}
    (hpath : shortestSafePath clearance G = .ok (some path)) :
    ∃ text, gridPathToCommands path G = .ok text ∧ follow text = some path := by
  obtain ⟨result, hresult, hshortest⟩ := shortestSafePath_spec clearance G
  rw [hpath] at hresult
  obtain rfl := Except.ok.inj hresult
  exact commands_of_walk hshortest.1.1 hshortest.1.2

/-- Straight up a column in the middle of the field. -/
def straightPath : List Cell := (List.range 150).map fun k : ℕ => (20, (k : ℤ))

theorem straightPath_corridor : Corridor [] 19 straightPath := by
  have hcell : ∀ cell ∈ straightPath, cell.1 = 20 ∧ 0 ≤ cell.2 ∧ cell.2 < 150 := by
    intro cell hcell
    obtain ⟨k, hk, rfl⟩ := List.mem_map.mp hcell
    rw [List.mem_range] at hk
    dsimp only
    omega
  have hcols : cols = 40 := rfl
  refine ⟨⟨(20, 0), rfl, rfl⟩, ⟨(20, 149), by decide, rfl⟩, ?_, fun cell h => ?_, by simp,
    fun cell h => ?_⟩
  · rw [straightPath, List.isChain_map, List.isChain_range]
    intro k _
    simp only [Adjacent]
    omega
  · have hbounds := hcell cell h
    rw [inGrid_iff]
    omega
  · have hbounds := hcell cell h
    omega

theorem path_commands_empty_field : ∃ clearance path text,
    computeClearanceMap [] = .ok clearance ∧
    shortestSafePath clearance 19 = .ok (some path) ∧
    gridPathToCommands path 19 = .ok text ∧ follow text = some path := by
  have hnone : ∀ mine ∈ ([] : List Cell), inGrid mine = true := by simp
  obtain ⟨clearance, hclearance, hclears⟩ := computeClearanceMap_spec hnone
  obtain ⟨result, hresult, hshortest⟩ := shortestSafePath_spec clearance 19
  cases result with
  | none => exact absurd (hclears.walk_iff.mpr straightPath_corridor) (hshortest straightPath)
  | some path =>
    obtain ⟨text, haccepted, hfollow⟩ := path_commands hresult
    exact ⟨clearance, path, text, hclearance, hresult, haccepted, hfollow⟩

end Mission10.Drones
