import Mission10.Dataset.RealPositives

/-!
# Lines of labels

A box is written as a line of eight decimals and read back rounded to them, which
leaves it a size or not. A line that is added to a label joins what follows the
label's last line break, and is a line of its own where that is blank.
-/
namespace Mission10.Dataset

open PlainText Outcome EvenSpacing

/-- The line of a box, without its break. -/
def labelBody (cx cy width height : ℚ) : List Char :=
  '0' :: ' ' :: (fixed 8 cx ++ ' ' :: (fixed 8 cy ++ ' ' :: (fixed 8 width ++ ' ' ::
    fixed 8 height)))

theorem labelText_eq (cx cy width height : ℚ) :
    labelText cx cy width height = labelBody cx cy width height ++ ['\n'] := by
  simp [labelText, labelBody]

/-- A box in units of its tile. -/
structure UnitBox (cx cy width height : ℚ) : Prop where
  cx : 0 ≤ cx ∧ cx ≤ 1
  cy : 0 ≤ cy ∧ cy ≤ 1
  width : 0 ≤ width ∧ width ≤ 1
  height : 0 ≤ height ∧ height ≤ 1

/-- A length that eight decimals do not round to zero. -/
def Written (x : ℚ) : Prop := 1 / 2 < x * 10 ^ 8

section Lines

variable {cx cy width height : ℚ}

theorem mem_labelBody (h : UnitBox cx cy width height) {c : Char}
    (hc : c ∈ labelBody cx cy width height) : isLineBreak c = false ∧ c ≠ '\r' := by
  have hspace : isLineBreak ' ' = false ∧ ' ' ≠ '\r' := by decide
  have hzero : isLineBreak '0' = false ∧ '0' ≠ '\r' := by decide
  simp only [labelBody, List.mem_cons, List.mem_append] at hc
  rcases hc with rfl | rfl | hc | rfl | hc | rfl | hc | rfl | hc
  · exact hzero
  · exact hspace
  · exact (fixed_plain 8 h.cx.1 hc).2
  · exact hspace
  · exact (fixed_plain 8 h.cy.1 hc).2
  · exact hspace
  · exact (fixed_plain 8 h.width.1 hc).2
  · exact hspace
  · exact (fixed_plain 8 h.height.1 hc).2

theorem fields_labelBody (h : UnitBox cx cy width height) :
    fields (labelBody cx cy width height) =
      [['0'], fixed 8 cx, fixed 8 cy, fixed 8 width, fixed 8 height] := by
  have hspace : isSpace ' ' = true := by decide
  rw [labelBody, fields_letter (by decide) hspace]
  rw [fields_word (fun c hc => (fixed_plain 8 h.cx.1 hc).1) (fixed_ne_nil 8 cx) hspace]
  rw [fields_word (fun c hc => (fixed_plain 8 h.cy.1 hc).1) (fixed_ne_nil 8 cy) hspace]
  rw [fields_word (fun c hc => (fixed_plain 8 h.width.1 hc).1) (fixed_ne_nil 8 width) hspace]
  rw [fields_last (fun c hc => (fixed_plain 8 h.height.1 hc).1) (fixed_ne_nil 8 height)]

theorem isBlank_append_labelBody (line : List Char) :
    isBlank (line ++ labelBody cx cy width height) = false := by
  have hzero : isSpace '0' = false := by decide
  rw [isBlank, List.all_append, labelBody, List.all_cons, hzero, Bool.false_and, Bool.and_false]

theorem isCenter_rounded {x : ℚ} (hx : 0 ≤ x ∧ x ≤ 1) :
    isCenter (some ((roundHalfEven (x * 10 ^ 8) : ℚ) / 10 ^ 8)) = true := by
  have hzero : 0 ≤ roundHalfEven (x * 10 ^ 8) := by
    have hmono := roundHalfEven_mono (mul_nonneg hx.1 (by positivity : (0 : ℚ) ≤ 10 ^ 8))
    have hround : roundHalfEven 0 = 0 := by simpa using roundHalfEven_intCast 0
    omega
  have hone : roundHalfEven (x * 10 ^ 8) ≤ 10 ^ 8 := by
    have hle : x * 10 ^ 8 ≤ ((10 ^ 8 : ℤ) : ℚ) := by push_cast; linarith
    have hmono := roundHalfEven_mono hle
    rwa [roundHalfEven_intCast] at hmono
  have hzero' : (0 : ℚ) ≤ roundHalfEven (x * 10 ^ 8) := by exact_mod_cast hzero
  have hone' : (roundHalfEven (x * 10 ^ 8) : ℚ) ≤ 10 ^ 8 := by exact_mod_cast hone
  rw [isCenter, decide_eq_true_iff]
  exact ⟨by positivity, (div_le_one (by positivity)).mpr hone'⟩

theorem isBoxSize_rounded {x : ℚ} (hx : 0 ≤ x ∧ x ≤ 1) :
    isBoxSize (some ((roundHalfEven (x * 10 ^ 8) : ℚ) / 10 ^ 8)) = true ↔ Written x := by
  have hcenter := isCenter_rounded hx
  rw [isCenter, decide_eq_true_iff] at hcenter
  rw [isBoxSize, decide_eq_true_iff, Written, ← roundHalfEven_pos_iff]
  constructor
  · intro h
    have hpos := (div_pos_iff_of_pos_right (by positivity : (0 : ℚ) < 10 ^ 8)).mp h.1
    exact_mod_cast hpos
  · intro h
    have hpos : (0 : ℚ) < roundHalfEven (x * 10 ^ 8) := by exact_mod_cast h
    exact ⟨by positivity, hcenter.2⟩

/-- A line is read by its fields where it is not blank. -/
theorem lineBoxes_of_fields {line : List Char} (hblank : isBlank line = false)
    (h : UnitBox cx cy width height)
    (hfields : fields line = [['0'], fixed 8 cx, fixed 8 cy, fixed 8 width, fixed 8 height])
    (boxes : ℕ) :
    lineBoxes line = .ok boxes ↔ boxes = 1 ∧ Written width ∧ Written height := by
  have hclass : readInt ['0'] = some 0 := by decide
  rw [lineBoxes, if_neg (by simp [hblank]), hfields]
  simp only [hclass, readFloat_fixed 8 h.cx.1, readFloat_fixed 8 h.cy.1,
    readFloat_fixed 8 h.width.1, readFloat_fixed 8 h.height.1, isCenter_rounded h.cx,
    isCenter_rounded h.cy, ne_eq, not_true_eq_false, if_false, and_self]
  rw [← isBoxSize_rounded h.width, ← isBoxSize_rounded h.height]
  split_ifs with hsize
  · rw [pure_eq_ok]
    exact ⟨fun heq => ⟨heq.symm, hsize⟩, fun heq => heq.1.symm⟩
  · exact ⟨False.elim, fun heq => absurd heq.2 hsize⟩

theorem lineBoxes_labelBody (h : UnitBox cx cy width height) (boxes : ℕ) :
    lineBoxes (labelBody cx cy width height) = .ok boxes ↔
      boxes = 1 ∧ Written width ∧ Written height :=
  lineBoxes_of_fields (isBlank_append_labelBody []) h (fields_labelBody h) boxes

/-- A line that joins a blank one is read as if it stood alone. -/
theorem lineBoxes_blank_append {line : List Char} (hline : isBlank line = true)
    (h : UnitBox cx cy width height) (boxes : ℕ) :
    lineBoxes (line ++ labelBody cx cy width height) = .ok boxes ↔
      boxes = 1 ∧ Written width ∧ Written height := by
  refine lineBoxes_of_fields (isBlank_append_labelBody line) h ?_ boxes
  rw [fields_blank hline, fields_labelBody h]

/-- A line that joins a box makes a line of too many fields. -/
theorem lineBoxes_append_ne {line : List Char} {before boxes : ℕ} (hline : isBlank line = false)
    (hread : lineBoxes line = .ok before) (h : UnitBox cx cy width height) :
    lineBoxes (line ++ labelBody cx cy width height) ≠ .ok boxes := by
  have hfive : (fields line).length = 5 := by
    rw [lineBoxes, if_neg (by simp [hline])] at hread
    split at hread
    · next hfields => rw [hfields]; rfl
    · exact absurd hread error_ne_ok
  have hlength := length_fields_append line (labelBody cx cy width height)
  rw [fields_labelBody h, hfive] at hlength
  intro hjoined
  rw [lineBoxes, if_neg (by simp [isBlank_append_labelBody])] at hjoined
  split at hjoined
  · next hfields =>
    rw [hfields] at hlength
    simp at hlength
  · exact absurd hjoined error_ne_ok

/-- The boxes of the last line are added to those of the lines before it. -/
theorem linesBoxes_concat {lineNumber boxes : ℕ} {lines : List (List Char)} {line : List Char} :
    linesBoxes lineNumber (lines ++ [line]) = .ok boxes ↔
      ∃ before last, linesBoxes lineNumber lines = .ok before ∧ lineBoxes line = .ok last ∧
        before + last = boxes := by
  induction lines generalizing lineNumber boxes with
  | nil => simp [linesBoxes, mapError_eq_ok, pure_eq_ok]
  | cons first lines ih =>
    simp only [List.cons_append, linesBoxes, bind_eq_ok, mapError_eq_ok, ih, pure_eq_ok]
    constructor
    · rintro ⟨count, hcount, rest, ⟨before, last, hbefore, hlast, rfl⟩, rfl⟩
      exact ⟨count + before, last, ⟨count, hcount, before, hbefore, rfl⟩, hlast, by omega⟩
    · rintro ⟨before, last, ⟨count, hcount, rest, hrest, rfl⟩, hlast, rfl⟩
      exact ⟨count, hcount, rest + last, ⟨rest, last, hrest, hlast, rfl⟩, by omega⟩

end Lines

section Labels

variable {cx cy width height : ℚ}

theorem readText_ofList {text : List Char} (h : '\r' ∉ text) :
    readText (String.ofList text) = text := by
  rw [readText, String.toList_ofList, universalNewlines_eq h]

/-- A label of one line has its box where the line leaves it a size. -/
theorem labelBoxes_line (h : UnitBox cx cy width height) :
    labelBoxes (String.ofList (labelText cx cy width height)) = .ok 1 ↔
      Written width ∧ Written height := by
  have hbreak : isLineBreak '\n' = true := by decide
  have hplain : '\r' ∉ labelText cx cy width height := by
    rw [labelText_eq, List.mem_append, not_or]
    exact ⟨fun hmem => (mem_labelBody h hmem).2 rfl, by decide⟩
  rw [labelBoxes, readText_ofList hplain, labelText_eq,
    splitLines_line (fun c hc => (mem_labelBody h hc).1) hbreak, ← List.nil_append [labelBody _ _ _ _],
    linesBoxes_concat]
  simp only [linesBoxes, pure_eq_ok, lineBoxes_labelBody h]
  constructor
  · rintro ⟨before, last, rfl, ⟨-, hsize⟩, -⟩
    exact hsize
  · intro hsize
    exact ⟨0, 1, rfl, ⟨rfl, hsize⟩, rfl⟩

/-- A box is added to a label just where what follows its last line break is blank. -/
theorem labelBoxes_append {text : String} {boxes : ℕ} (hread : labelBoxes text = .ok boxes)
    (h : UnitBox cx cy width height) (hwidth : Written width) (hheight : Written height) :
    labelBoxes (String.ofList (readText text ++ labelText cx cy width height)) = .ok (boxes + 1) ↔
      isBlank (openLine (readText text)) = true := by
  have hbreak : isLineBreak '\n' = true := by decide
  have hplain : '\r' ∉ readText text ++ labelText cx cy width height := by
    rw [List.mem_append, not_or, labelText_eq, List.mem_append, not_or]
    exact ⟨notMem_universalNewlines _, fun hmem => (mem_labelBody h hmem).2 rfl, by decide⟩
  obtain ⟨before, line, htext, hbefore, hline⟩ := exists_split (readText text)
  have hjoined : ∀ c ∈ line ++ labelBody cx cy width height, isLineBreak c = false := by
    intro c hc
    rcases List.mem_append.mp hc with hc | hc
    · exact hline c hc
    · exact (mem_labelBody h hc).1
  have hlines : splitLines (readText text ++ labelText cx cy width height) =
      splitLines before ++ [line ++ labelBody cx cy width height] := by
    rw [htext, labelText_eq, List.append_assoc, splitLines_append hbefore, ← List.append_assoc,
      splitLines_line hjoined hbreak]
  rw [labelBoxes] at hread
  rw [labelBoxes, readText_ofList hplain, hlines, linesBoxes_concat, htext,
    openLine_append hbefore hline]
  rw [htext, splitLines_append hbefore] at hread
  by_cases hempty : line = []
  · subst hempty
    rw [splitLines, List.append_nil] at hread
    refine ⟨fun _ => rfl, fun _ => ⟨boxes, 1, hread, ?_, rfl⟩⟩
    exact (lineBoxes_labelBody h 1).mpr ⟨rfl, hwidth, hheight⟩
  · rw [splitLines_open hline hempty] at hread
    obtain ⟨first, last, hfirst, hlast, rfl⟩ := linesBoxes_concat.mp hread
    constructor
    · rintro ⟨count, joined, -, hjoin, -⟩
      by_contra hblank
      exact lineBoxes_append_ne (Bool.not_eq_true _ ▸ hblank) hlast h hjoin
    · intro hblank
      have hzero : last = 0 := by
        rw [lineBoxes, if_pos hblank] at hlast
        exact pure_ok hlast
      refine ⟨first, 1, hfirst, ?_, by omega⟩
      exact (lineBoxes_blank_append hblank h 1).mpr ⟨rfl, hwidth, hheight⟩

end Labels

end Mission10.Dataset
