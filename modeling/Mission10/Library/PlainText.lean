import Mathlib.Data.List.TakeWhile
import Mathlib.Data.Nat.Digits.Lemmas
import Mathlib.Tactic
import Mission10.Library.EvenSpacing

/-!
# Plain text

Lines, fields and decimal numbers of a text, as Python reads and writes them. A
text that is empty or ends with a line break can be followed by further lines;
another one runs into the line that is put after it. A number written with a
fixed count of decimals is read back as its rounded value.
-/
namespace PlainText

open EvenSpacing

/-- The line breaks of `splitlines`. -/
def isLineBreak (c : Char) : Bool :=
  [0x0A, 0x0B, 0x0C, 0x0D, 0x1C, 0x1D, 0x1E, 0x85, 0x2028, 0x2029].contains c.toNat

/-- The white space of `split` and `strip`. -/
def isSpace (c : Char) : Bool :=
  [0x09, 0x0A, 0x0B, 0x0C, 0x0D, 0x1C, 0x1D, 0x1E, 0x1F, 0x20, 0x85, 0xA0, 0x1680,
    0x2000, 0x2001, 0x2002, 0x2003, 0x2004, 0x2005, 0x2006, 0x2007, 0x2008, 0x2009, 0x200A,
    0x2028, 0x2029, 0x202F, 0x205F, 0x3000].contains c.toNat

/-- A text as it is read with universal newlines, after a carriage return or not. -/
def newlinesAfter (returned : Bool) : List Char → List Char
  | [] => []
  | c :: rest =>
    if c = '\r' then '\n' :: newlinesAfter true rest
    else if c = '\n' ∧ returned = true then newlinesAfter false rest
    else c :: newlinesAfter false rest

def universalNewlines (text : List Char) : List Char := newlinesAfter false text

/-- The lines of a text without carriage returns. -/
def splitLines : List Char → List (List Char)
  | [] => []
  | c :: rest =>
    if isLineBreak c then [] :: splitLines rest
    else
      match splitLines rest with
      | [] => [[c]]
      | line :: lines => (c :: line) :: lines

/-- The fields of a line: its longest stretches without white space. -/
def fields (line : List Char) : List (List Char) :=
  (line.splitOnP isSpace).filter fun word => !word.isEmpty

def isBlank (line : List Char) : Bool := line.all isSpace

/-- Whether a text can be followed by a line: it is empty or ends with a line break. -/
def isClosed (text : List Char) : Bool :=
  match text.getLast? with
  | none => true
  | some c => isLineBreak c

/-- A text is taken apart at the last of a character in one way. -/
theorem splitLast_inj {c : Char} {first second rest other : List Char} (hrest : c ∉ rest)
    (hother : c ∉ other) (h : first ++ c :: rest = second ++ c :: other) :
    first = second ∧ rest = other := by
  rcases List.append_eq_append_iff.mp h with ⟨middle, hsecond, htail⟩ | ⟨middle, hfirst, htail⟩
  · cases middle with
    | nil => exact ⟨by simpa using hsecond.symm, (List.cons.inj htail).2⟩
    | cons d middle =>
      rw [List.cons_append] at htail
      exact absurd ((List.cons.inj htail).2 ▸ by simp) hrest
  · cases middle with
    | nil => exact ⟨by simpa using hfirst, (List.cons.inj htail).2.symm⟩
    | cons d middle =>
      rw [List.cons_append] at htail
      exact absurd ((List.cons.inj htail).2 ▸ by simp) hother

/-- What follows the last line break of a text. -/
def openLine (text : List Char) : List Char :=
  (text.reverse.takeWhile fun c => !isLineBreak c).reverse

section Lines

theorem newlinesAfter_of_notMem {text : List Char} (h : '\r' ∉ text) :
    newlinesAfter false text = text := by
  induction text with
  | nil => rfl
  | cons c rest ih =>
    obtain ⟨hc, hrest⟩ := List.ne_and_not_mem_of_not_mem_cons h
    simp [newlinesAfter, Ne.symm hc, ih hrest]

theorem notMem_newlinesAfter (returned : Bool) (text : List Char) :
    '\r' ∉ newlinesAfter returned text := by
  induction text generalizing returned with
  | nil => simp [newlinesAfter]
  | cons c rest ih =>
    unfold newlinesAfter
    split_ifs with hreturn hfeed
    · simp [ih]
    · exact ih false
    · simp [ih, Ne.symm hreturn]

/-- A text that was read holds no carriage return. -/
theorem notMem_universalNewlines (text : List Char) : '\r' ∉ universalNewlines text :=
  notMem_newlinesAfter false text

theorem universalNewlines_eq {text : List Char} (h : '\r' ∉ text) :
    universalNewlines text = text :=
  newlinesAfter_of_notMem h

theorem splitLines_break {c : Char} (h : isLineBreak c = true) (rest : List Char) :
    splitLines (c :: rest) = [] :: splitLines rest := by
  rw [splitLines, if_pos h]

/-- A character goes in front of the line it stands before. -/
theorem splitLines_char {c : Char} (h : isLineBreak c = false) {rest line : List Char}
    {lines : List (List Char)} (hrest : splitLines rest = line :: lines) :
    splitLines (c :: rest) = (c :: line) :: lines := by
  rw [splitLines, if_neg (by simp [h]), hrest]

theorem exists_line {text : List Char} (h : text ≠ []) :
    ∃ line lines, splitLines text = line :: lines := by
  cases text with
  | nil => contradiction
  | cons c rest =>
    cases hc : isLineBreak c with
    | true => exact ⟨[], _, splitLines_break hc rest⟩
    | false =>
      cases hrest : splitLines rest with
      | nil => exact ⟨[c], [], by rw [splitLines, if_neg (by simp [hc]), hrest]⟩
      | cons line lines => exact ⟨c :: line, lines, splitLines_char hc hrest⟩

/-- The lines of a text after one that can be followed. -/
theorem splitLines_append {text : List Char} (h : isClosed text = true) (more : List Char) :
    splitLines (text ++ more) = splitLines text ++ splitLines more := by
  induction text with
  | nil => rfl
  | cons c rest ih =>
    cases hc : isLineBreak c with
    | true =>
      have hrest : isClosed rest = true := by
        cases rest with
        | nil => rfl
        | cons d rest => simpa [isClosed, List.getLast?_cons_cons] using h
      rw [List.cons_append, splitLines_break hc, splitLines_break hc, ih hrest,
        List.cons_append]
    | false =>
      cases rest with
      | nil => simp [isClosed, hc] at h
      | cons d rest =>
        obtain ⟨line, lines, hfirst⟩ := exists_line (List.cons_ne_nil d rest)
        have hlines : splitLines (d :: rest ++ more) = line :: (lines ++ splitLines more) := by
          rw [ih (by simpa [isClosed, List.getLast?_cons_cons] using h), hfirst,
            List.cons_append]
        rw [List.cons_append, splitLines_char hc hlines, splitLines_char hc hfirst,
          List.cons_append]

/-- A stretch without a line break is one line, with or without its break. -/
theorem splitLines_line {line : List Char} (h : ∀ c ∈ line, isLineBreak c = false) {last : Char}
    (hlast : isLineBreak last = true) : splitLines (line ++ [last]) = [line] := by
  induction line with
  | nil => rw [List.nil_append, splitLines_break hlast, splitLines]
  | cons c rest ih =>
    have hrest := ih fun d hd => h d (List.mem_cons_of_mem _ hd)
    rw [List.cons_append, splitLines_char (h c List.mem_cons_self) hrest]

theorem splitLines_open {line : List Char} (h : ∀ c ∈ line, isLineBreak c = false)
    (hne : line ≠ []) : splitLines line = [line] := by
  induction line with
  | nil => exact absurd rfl hne
  | cons c rest ih =>
    have hc := h c List.mem_cons_self
    cases rest with
    | nil => rw [splitLines, if_neg (by simp [hc]), splitLines]
    | cons d rest =>
      have hrest := ih (fun e he => h e (List.mem_cons_of_mem _ he)) (List.cons_ne_nil d rest)
      rw [splitLines_char hc hrest]

/-- A text is a closed one and a stretch without a line break. -/
theorem exists_split (text : List Char) :
    ∃ before line, text = before ++ line ∧ isClosed before = true ∧
      ∀ c ∈ line, isLineBreak c = false := by
  induction text using List.reverseRecOn with
  | nil => exact ⟨[], [], rfl, rfl, by simp⟩
  | append_singleton text c ih =>
    cases hc : isLineBreak c with
    | true => exact ⟨text ++ [c], [], by simp, by simp [isClosed, hc], by simp⟩
    | false =>
      obtain ⟨before, line, htext, hbefore, hline⟩ := ih
      refine ⟨before, line ++ [c], by rw [htext, List.append_assoc], hbefore, ?_⟩
      intro d hd
      rcases List.mem_append.mp hd with hd | hd
      · exact hline d hd
      · rw [List.mem_singleton.mp hd]
        exact hc

theorem openLine_append {before line : List Char} (hbefore : isClosed before = true)
    (hline : ∀ c ∈ line, isLineBreak c = false) : openLine (before ++ line) = line := by
  have hkept : ∀ c ∈ line.reverse, (!isLineBreak c) = true := by
    intro c hc
    rw [hline c (List.mem_reverse.mp hc), Bool.not_false]
  have hstop : before.reverse.takeWhile (fun c => !isLineBreak c) = [] := by
    rw [isClosed, List.getLast?_eq_head?_reverse] at hbefore
    cases hreverse : before.reverse with
    | nil => rfl
    | cons c rest =>
      rw [hreverse] at hbefore
      simp only [List.head?_cons] at hbefore
      simp [hbefore]
  rw [openLine, List.reverse_append, List.takeWhile_append_of_pos hkept, hstop, List.append_nil,
    List.reverse_reverse]

end Lines

section Fields

theorem fields_space {c : Char} (h : isSpace c = true) (rest : List Char) :
    fields (c :: rest) = fields rest := by
  simp [fields, List.splitOnP_cons_eq_if_modifyHead, h]

theorem fields_blank {line : List Char} (h : isBlank line = true) (rest : List Char) :
    fields (line ++ rest) = fields rest := by
  induction line with
  | nil => rfl
  | cons c line ih =>
    have hparts : isSpace c = true ∧ isBlank line = true := by simpa [isBlank] using h
    rw [List.cons_append, fields_space hparts.1, ih hparts.2]

/-- The field before a space. -/
theorem fields_word {word : List Char} (hword : ∀ c ∈ word, isSpace c = false) (hne : word ≠ [])
    {space : Char} (hspace : isSpace space = true) (rest : List Char) :
    fields (word ++ space :: rest) = word :: fields rest := by
  rw [fields, List.splitOnP_append_cons_of_forall_mem hword space hspace]
  simp [fields, hne]

theorem fields_last {word : List Char} (hword : ∀ c ∈ word, isSpace c = false)
    (hne : word ≠ []) : fields word = [word] := by
  rw [fields, List.splitOnP_eq_singleton hword]
  simp [hne]

/-- A character alone before a space is a field. -/
theorem fields_letter {c d : Char} (hc : isSpace c = false) (hd : isSpace d = true)
    (rest : List Char) : fields (c :: d :: rest) = [c] :: fields rest :=
  fields_word (fun _ he => List.mem_singleton.mp he ▸ hc) (List.cons_ne_nil c []) hd rest

theorem length_fields_char {c d : Char} (hc : isSpace c = false) (hd : isSpace d = false)
    (rest : List Char) : (fields (c :: d :: rest)).length = (fields (d :: rest)).length := by
  have hsplit : (d :: rest).splitOnP isSpace = (rest.splitOnP isSpace).modifyHead (d :: ·) := by
    rw [List.splitOnP_cons_eq_if_modifyHead, if_neg (by simp [hd])]
  rw [fields, fields, List.splitOnP_cons_eq_if_modifyHead, if_neg (by simp [hc]), hsplit]
  cases hrest : rest.splitOnP isSpace with
  | nil => exact absurd hrest (List.splitOnP_ne_nil _ _)
  | cons first later => simp

theorem length_fields_le_cons (c : Char) (line : List Char) :
    (fields line).length ≤ (fields (c :: line)).length := by
  cases hc : isSpace c with
  | true => rw [fields_space hc]
  | false =>
    cases line with
    | nil => simp [fields]
    | cons d rest =>
      cases hd : isSpace d with
      | true =>
        rw [fields_letter hc hd, fields_space hd, List.length_cons]
        omega
      | false => rw [length_fields_char hc hd]

/-- Of two texts put together at most the two fields that meet become one. -/
theorem length_fields_append (line more : List Char) :
    (fields line).length + (fields more).length ≤ (fields (line ++ more)).length + 1 := by
  induction line with
  | nil => simp [fields]
  | cons c line ih =>
    cases hc : isSpace c with
    | true => rwa [List.cons_append, fields_space hc, fields_space hc]
    | false =>
      cases line with
      | nil =>
        have hle := length_fields_le_cons c more
        rw [fields_last (by simp [hc]) (List.cons_ne_nil c []), List.length_singleton]
        rw [List.singleton_append]
        omega
      | cons d rest =>
        cases hd : isSpace d with
        | true =>
          rw [List.cons_append, fields_space hd, fields_space hd] at ih
          rw [List.cons_append, List.cons_append, fields_letter hc hd, fields_letter hc hd,
            List.length_cons, List.length_cons]
          omega
        | false =>
          rw [List.cons_append, List.cons_append, length_fields_char hc hd,
            length_fields_char hc hd]
          exact ih

end Fields

/-- The zeros of the decimal digits. -/
def digitZeros : List ℕ :=
  [0x30, 0x660, 0x6F0, 0x7C0, 0x966, 0x9E6, 0xA66, 0xAE6, 0xB66, 0xBE6, 0xC66, 0xCE6, 0xD66,
    0xDE6, 0xE50, 0xED0, 0xF20, 0x1040, 0x1090, 0x17E0, 0x1810, 0x1946, 0x19D0, 0x1A80, 0x1A90,
    0x1B50, 0x1BB0, 0x1C40, 0x1C50, 0xA620, 0xA8D0, 0xA900, 0xA9D0, 0xA9F0, 0xAA50, 0xABF0,
    0xFF10, 0x104A0, 0x10D30, 0x11066, 0x110F0, 0x11136, 0x111D0, 0x112F0, 0x11450, 0x114D0,
    0x11650, 0x116C0, 0x11730, 0x118E0, 0x11950, 0x11C50, 0x11D50, 0x11DA0, 0x11F50, 0x16A60,
    0x16AC0, 0x16B50, 0x1D7CE, 0x1D7D8, 0x1D7E2, 0x1D7EC, 0x1D7F6, 0x1E140, 0x1E2F0, 0x1E4F0,
    0x1E950, 0x1FBF0]

def digitValue (c : Char) : Option ℕ :=
  (digitZeros.find? fun first => decide (first ≤ c.toNat ∧ c.toNat < first + 10)).map (c.toNat - ·)

/-- The digits of a run, single underscores between them left out. -/
def digitRun (text : List Char) : Option (List ℕ) :=
  let parts := text.splitOn '_'
  if [] ∈ parts then none else parts.flatten.mapM digitValue

def digitsToNat (digits : List ℕ) : ℕ := digits.foldl (fun value digit => 10 * value + digit) 0

/-- Whether a minus sign leads, and what follows the sign. -/
def signOf : List Char → Bool × List Char
  | '-' :: rest => (true, rest)
  | '+' :: rest => (false, rest)
  | text => (false, text)

def negateIf (negative : Bool) {K : Type*} [Neg K] (value : K) : K :=
  if negative then -value else value

/-- `int` of a field. -/
def readInt (text : List Char) : Option ℤ :=
  let (negative, body) := signOf text
  (digitRun body).map fun digits => negateIf negative (digitsToNat digits : ℤ)

/-- Digits that may be left out. -/
def optionalRun (text : List Char) : Option (List ℕ) :=
  if text = [] then some [] else digitRun text

/-- The digits of a mantissa, before and after its point. -/
def readMantissa (text : List Char) : Option (List ℕ × List ℕ) := do
  let whole ← optionalRun (text.takeWhile (· ≠ '.'))
  let part ← optionalRun (text.dropWhile (· ≠ '.')).tail
  if whole = [] ∧ part = [] then none else some (whole, part)

def isExponent (c : Char) : Bool := c == 'e' || c == 'E'

def readExponent : List Char → Option ℤ
  | [] => some 0
  | _ :: exponent => readInt exponent

/-- `float` of a field, exact. An infinity or a NaN is read as no number. -/
def readFloat (text : List Char) : Option (Option ℚ) := do
  let (negative, body) := signOf text
  if body.map Char.toLower ∈ ["inf".toList, "infinity".toList, "nan".toList] then
    some none
  else
    let (whole, part) ← readMantissa (body.takeWhile fun c => !isExponent c)
    let exponent ← readExponent (body.dropWhile fun c => !isExponent c)
    some (some (negateIf negative
      ((digitsToNat (whole ++ part) : ℚ) * 10 ^ (exponent - part.length))))

/-- The digits of a number, the first ones first. -/
def wholeDigits (n : ℕ) : List ℕ := if n = 0 then [0] else (Nat.digits 10 n).reverse

/-- The last digits of a number. -/
def lastDigits : ℕ → ℕ → List ℕ
  | 0, _ => []
  | places + 1, n => lastDigits places (n / 10) ++ [n % 10]

/-- A number with a fixed count of decimals, as `.8f` writes it for eight. -/
def fixed (places : ℕ) (x : ℚ) : List Char :=
  let scaled := (roundHalfEven (|x| * 10 ^ places)).toNat
  (if x < 0 then ['-'] else []) ++
    ((wholeDigits (scaled / 10 ^ places)).map Nat.digitChar ++
      '.' :: (lastDigits places scaled).map Nat.digitChar)

section Numbers

@[simp] theorem digitsToNat_concat (digits : List ℕ) (digit : ℕ) :
    digitsToNat (digits ++ [digit]) = 10 * digitsToNat digits + digit := by
  simp [digitsToNat]

theorem digitsToNat_reverse (digits : List ℕ) :
    digitsToNat digits.reverse = Nat.ofDigits 10 digits := by
  induction digits with
  | nil => rfl
  | cons digit digits ih =>
    rw [List.reverse_cons, digitsToNat_concat, ih, Nat.ofDigits_cons]
    omega

theorem digitsToNat_wholeDigits (n : ℕ) : digitsToNat (wholeDigits n) = n := by
  unfold wholeDigits
  split_ifs with h
  · rw [h]
    rfl
  · rw [digitsToNat_reverse, Nat.ofDigits_digits]

theorem wholeDigits_lt {n : ℕ} : ∀ digit ∈ wholeDigits n, digit < 10 := by
  intro digit hdigit
  unfold wholeDigits at hdigit
  split_ifs at hdigit
  · rw [List.mem_singleton.mp hdigit]
    omega
  · exact Nat.digits_lt_base (by omega) (List.mem_reverse.mp hdigit)

theorem wholeDigits_ne_nil (n : ℕ) : wholeDigits n ≠ [] := by
  unfold wholeDigits
  split_ifs with h
  · simp
  · simpa [Nat.digits_eq_nil_iff_eq_zero] using h

theorem lastDigits_lt {places n : ℕ} : ∀ digit ∈ lastDigits places n, digit < 10 := by
  induction places generalizing n with
  | zero => simp [lastDigits]
  | succ places ih =>
    intro digit hdigit
    rcases List.mem_append.mp hdigit with hdigit | hdigit
    · exact ih digit hdigit
    · rw [List.mem_singleton.mp hdigit]
      omega

@[simp] theorem length_lastDigits (places n : ℕ) : (lastDigits places n).length = places := by
  induction places generalizing n with
  | zero => rfl
  | succ places ih => rw [lastDigits, List.length_append, ih, List.length_singleton]

/-- The first digits and the last ones make up the number. -/
theorem digitsToNat_append_lastDigits {digits : List ℕ} {places n : ℕ}
    (h : digitsToNat digits = n / 10 ^ places) :
    digitsToNat (digits ++ lastDigits places n) = n := by
  induction places generalizing n with
  | zero => simpa [lastDigits] using h
  | succ places ih =>
    have hrest : digitsToNat digits = n / 10 / 10 ^ places := by
      rw [h, Nat.div_div_eq_div_mul, pow_succ']
    rw [lastDigits, ← List.append_assoc, digitsToNat_concat, ih hrest]
    omega

theorem digitValue_digitChar {n : ℕ} (h : n < 10) : digitValue (Nat.digitChar n) = some n := by
  interval_cases n <;> decide

theorem digitChar_plain {n : ℕ} (h : n < 10) :
    Nat.digitChar n ∉ ['_', '.', '-', '+', 'e', 'E'] ∧ isSpace (Nat.digitChar n) = false ∧
      isLineBreak (Nat.digitChar n) = false ∧ (Nat.digitChar n).toLower = Nat.digitChar n := by
  interval_cases n <;> decide

/-- Digits are read back from their characters. -/
theorem digitRun_digits {digits : List ℕ} (h : ∀ digit ∈ digits, digit < 10)
    (hne : digits ≠ []) : digitRun (digits.map Nat.digitChar) = some digits := by
  have hplain : '_' ∉ digits.map Nat.digitChar := by
    intro hmem
    obtain ⟨digit, hdigit, heq⟩ := List.mem_map.mp hmem
    have hnot := (digitChar_plain (h digit hdigit)).1
    simp [heq] at hnot
  have hvalues : (digits.map Nat.digitChar).mapM digitValue = some digits := by
    clear hplain hne
    induction digits with
    | nil => rfl
    | cons digit digits ih =>
      rw [List.map_cons, List.mapM_cons, digitValue_digitChar (h digit List.mem_cons_self),
        ih fun d hd => h d (List.mem_cons_of_mem _ hd)]
      rfl
  have hone : (digits.map Nat.digitChar).splitOn '_' = [digits.map Nat.digitChar] := by
    simpa using List.splitOn_intercalate '_' (by simp [hplain])
      (List.cons_ne_nil (digits.map Nat.digitChar) [])
  rw [digitRun, hone]
  simp [hne, hvalues]

theorem optionalRun_digits {digits : List ℕ} (h : ∀ digit ∈ digits, digit < 10) :
    optionalRun (digits.map Nat.digitChar) = some digits := by
  cases digits with
  | nil => rfl
  | cons digit digits => rw [optionalRun, if_neg (by simp), digitRun_digits h (by simp)]

/-- A mantissa of digits. -/
def pointed (whole part : List ℕ) : List Char :=
  whole.map Nat.digitChar ++ '.' :: part.map Nat.digitChar

variable {whole part : List ℕ}

theorem mem_pointed (hwhole : ∀ digit ∈ whole, digit < 10) (hpart : ∀ digit ∈ part, digit < 10)
    {c : Char} (hc : c ∈ pointed whole part) : c = '.' ∨ ∃ n < 10, c = Nat.digitChar n := by
  rcases List.mem_append.mp hc with hc | hc
  · obtain ⟨digit, hdigit, rfl⟩ := List.mem_map.mp hc
    exact Or.inr ⟨digit, hwhole digit hdigit, rfl⟩
  · rcases List.mem_cons.mp hc with hc | hc
    · exact Or.inl hc
    · obtain ⟨digit, hdigit, rfl⟩ := List.mem_map.mp hc
      exact Or.inr ⟨digit, hpart digit hdigit, rfl⟩

theorem pointed_plain (hwhole : ∀ digit ∈ whole, digit < 10)
    (hpart : ∀ digit ∈ part, digit < 10) {c : Char} (hc : c ∈ pointed whole part) :
    isExponent c = false ∧ isSpace c = false ∧ isLineBreak c = false ∧ c ≠ '\r' := by
  rcases mem_pointed hwhole hpart hc with rfl | ⟨n, hn, rfl⟩
  · decide
  · interval_cases n <;> decide

theorem readMantissa_pointed (hwhole : ∀ digit ∈ whole, digit < 10)
    (hpart : ∀ digit ∈ part, digit < 10) (hne : whole ≠ []) :
    readMantissa (pointed whole part) = some (whole, part) := by
  have hstop : ∀ c ∈ whole.map Nat.digitChar, decide (c ≠ '.') = true := by
    intro c hc
    obtain ⟨digit, hdigit, rfl⟩ := List.mem_map.mp hc
    have hplain := (digitChar_plain (hwhole digit hdigit)).1
    simp only [List.mem_cons, not_or] at hplain
    simp [hplain.2.1]
  have hbefore : (pointed whole part).takeWhile (· ≠ '.') = whole.map Nat.digitChar := by
    rw [pointed, List.takeWhile_append_of_pos hstop]
    simp
  have hafter : ((pointed whole part).dropWhile (· ≠ '.')).tail = part.map Nat.digitChar := by
    rw [pointed, List.dropWhile_append_of_pos hstop]
    simp
  rw [readMantissa, hbefore, hafter, optionalRun_digits hwhole, optionalRun_digits hpart]
  simp [hne]

theorem signOf_pointed (hwhole : ∀ digit ∈ whole, digit < 10) (hne : whole ≠ []) :
    signOf (pointed whole part) = (false, pointed whole part) := by
  cases whole with
  | nil => contradiction
  | cons digit whole =>
    have hdigit := hwhole digit List.mem_cons_self
    rw [pointed, List.map_cons, List.cons_append]
    interval_cases digit <;> rfl

theorem readFloat_pointed (hwhole : ∀ digit ∈ whole, digit < 10)
    (hpart : ∀ digit ∈ part, digit < 10) (hne : whole ≠ []) :
    readFloat (pointed whole part) =
      some (some ((digitsToNat (whole ++ part) : ℚ) / 10 ^ part.length)) := by
  have hnumber : (pointed whole part).map Char.toLower ∉
      ["inf".toList, "infinity".toList, "nan".toList] := by
    have hpoint : '.' ∈ (pointed whole part).map Char.toLower := by
      refine List.mem_map.mpr ⟨'.', by simp [pointed], by decide⟩
    intro hmem
    simp only [List.mem_cons, List.not_mem_nil, or_false] at hmem
    rcases hmem with hmem | hmem | hmem <;> rw [hmem] at hpoint <;> revert hpoint <;> decide
  have hexponent : ∀ c ∈ pointed whole part, (!isExponent c) = true := by
    intro c hc
    rw [(pointed_plain hwhole hpart hc).1]
    rfl
  have hdrop : (pointed whole part).dropWhile (fun c => !isExponent c) = [] :=
    List.dropWhile_eq_nil_iff.mpr hexponent
  have htake : (pointed whole part).takeWhile (fun c => !isExponent c) = pointed whole part :=
    List.takeWhile_eq_self_iff.mpr hexponent
  rw [readFloat, signOf_pointed hwhole hne]
  dsimp only
  rw [if_neg hnumber, htake, hdrop, readMantissa_pointed hwhole hpart hne]
  simp [readExponent, negateIf, div_eq_mul_inv]

/-- A number written with a fixed count of decimals is read back as its rounding. -/
theorem readFloat_fixed (places : ℕ) {x : ℚ} (hx : 0 ≤ x) :
    readFloat (fixed places x) =
      some (some ((roundHalfEven (x * 10 ^ places) : ℚ) / 10 ^ places)) := by
  have hnonneg : 0 ≤ roundHalfEven (x * 10 ^ places) := by
    have hzero : roundHalfEven 0 = 0 := by simpa using roundHalfEven_intCast 0
    rw [← hzero]
    exact roundHalfEven_mono (by positivity)
  obtain ⟨scaled, hscaled⟩ := Int.eq_ofNat_of_zero_le hnonneg
  have htext : fixed places x =
      pointed (wholeDigits (scaled / 10 ^ places)) (lastDigits places scaled) := by
    rw [fixed, if_neg (not_lt.mpr hx), abs_of_nonneg hx, hscaled]
    rfl
  rw [htext, readFloat_pointed wholeDigits_lt lastDigits_lt (wholeDigits_ne_nil _),
    digitsToNat_append_lastDigits (digitsToNat_wholeDigits _), length_lastDigits, hscaled]
  rfl

theorem fixed_plain (places : ℕ) {x : ℚ} (hx : 0 ≤ x) {c : Char} (hc : c ∈ fixed places x) :
    isSpace c = false ∧ isLineBreak c = false ∧ c ≠ '\r' := by
  rw [fixed, if_neg (not_lt.mpr hx)] at hc
  exact (pointed_plain wholeDigits_lt lastDigits_lt hc).2

theorem fixed_ne_nil (places : ℕ) (x : ℚ) : fixed places x ≠ [] := by
  simp [fixed]

end Numbers
end PlainText

/-!
## Names of paths

The name, the stem and the suffix of a path, as `pathlib` takes them apart. A
name without a slash is its own path's name; a stem and a suffix put together are
taken apart again where the stem is not empty.
-/
namespace PathName

/-- The last component of a path. -/
def name (path : String) : String :=
  String.ofList ((((path.toList).splitOn '/').filter fun part =>
    decide (part ≠ [] ∧ part ≠ ['.'])).getLastD [])

/-- What stands behind the last point of a name, and what before it. -/
def extension (name : List Char) : Option (List Char × List Char) :=
  let last := (name.reverse.takeWhile (· ≠ '.')).reverse
  let before := (name.reverse.dropWhile (· ≠ '.')).tail.reverse
  if before = [] ∨ last = [] then none else some (before, last)

def suffix (name : String) : String :=
  match extension name.toList with
  | none => ""
  | some (_, last) => String.ofList ('.' :: last)

def stem (name : String) : String :=
  match extension name.toList with
  | none => name
  | some (before, _) => String.ofList before

theorem extension_append {before last : List Char} (hbefore : before ≠ []) (hlast : last ≠ [])
    (hpoint : '.' ∉ last) : extension (before ++ '.' :: last) = some (before, last) := by
  have hrev : (before ++ '.' :: last).reverse = last.reverse ++ '.' :: before.reverse := by simp
  have hstop : ∀ c ∈ last.reverse, decide (c ≠ '.') = true := by
    intro c hc
    rw [decide_eq_true_iff]
    rintro rfl
    exact hpoint (List.mem_reverse.mp hc)
  have hkept : (before ++ '.' :: last).reverse.takeWhile (· ≠ '.') = last.reverse := by
    rw [hrev, List.takeWhile_append_of_pos hstop]
    simp
  have hrest : (before ++ '.' :: last).reverse.dropWhile (· ≠ '.') = '.' :: before.reverse := by
    rw [hrev, List.dropWhile_append_of_pos hstop]
    simp
  rw [extension, hkept, hrest]
  simp [hbefore, hlast]

variable {text ending : String}

theorem ofList_ne_empty {letters : List Char} (h : letters ≠ []) : String.ofList letters ≠ "" := by
  intro heq
  exact h (by simpa using congrArg String.toList heq)

theorem toList_ne_nil (h : text ≠ "") : text.toList ≠ [] := by
  intro hnil
  exact h (String.toList_eq_nil_iff.mp hnil)

/-- A suffix written out: a point and letters without one. -/
def IsSuffix (ending : String) : Prop :=
  ∃ last, ending = String.ofList ('.' :: last) ∧ last ≠ [] ∧ '.' ∉ last

theorem stem_append (htext : text ≠ "") (hending : IsSuffix ending) :
    stem (text ++ ending) = text := by
  obtain ⟨last, rfl, hlast, hpoint⟩ := hending
  rw [stem, String.toList_append, String.toList_ofList,
    extension_append (toList_ne_nil htext) hlast hpoint]
  simp

theorem suffix_append (htext : text ≠ "") (hending : IsSuffix ending) :
    suffix (text ++ ending) = ending := by
  obtain ⟨last, rfl, hlast, hpoint⟩ := hending
  rw [suffix, String.toList_append, String.toList_ofList,
    extension_append (toList_ne_nil htext) hlast hpoint]

/-- A name without a slash is its own path's name. -/
theorem name_eq_self (hne : text ≠ "") (hslash : '/' ∉ text.toList) (hpoint : text ≠ ".") :
    name text = text := by
  have hpart : text.toList ≠ ['.'] := by
    intro heq
    exact hpoint (String.toList_injective heq)
  rw [name, List.splitOn_eq_singleton hslash, List.filter_cons_of_pos
    (by simp [toList_ne_nil hne, hpart])]
  simp

theorem notMem_of_mem_splitOn {a : Char} {letters part : List Char}
    (h : part ∈ letters.splitOn a) : a ∉ part := by
  induction letters generalizing part with
  | nil =>
    rw [List.splitOn_nil, List.mem_singleton] at h
    rw [h]
    exact List.not_mem_nil
  | cons letter letters ih =>
    rw [List.splitOn_cons_eq_if_modifyHead] at h
    split_ifs at h with hletter
    · rcases List.mem_cons.mp h with rfl | h
      · exact List.not_mem_nil
      · exact ih h
    · cases hparts : letters.splitOn a with
      | nil => exact absurd hparts (List.splitOn_ne_nil a letters)
      | cons first rest =>
        rw [hparts, List.modifyHead_cons, List.mem_cons] at h
        rcases h with rfl | h
        · rw [List.mem_cons, not_or]
          refine ⟨?_, ih (hparts ▸ List.mem_cons_self)⟩
          rintro rfl
          exact hletter (beq_self_eq_true _)
        · exact ih (hparts ▸ List.mem_cons_of_mem _ h)

/-- The name of a path holds no slash. -/
theorem slash_notMem_name (path : String) : '/' ∉ (name path).toList := by
  rw [name, String.toList_ofList]
  set parts := ((path.toList).splitOn '/').filter fun part => decide (part ≠ [] ∧ part ≠ ['.'])
    with hparts
  cases hlast : parts.getLast? with
  | none =>
    rw [List.getLast?_eq_none_iff] at hlast
    rw [hlast]
    exact List.not_mem_nil
  | some part =>
    have hmem := List.mem_of_getLast? hlast
    rw [List.getLastD_eq_getLast?, hlast, Option.getD_some]
    exact notMem_of_mem_splitOn (List.mem_of_mem_filter hmem)

end PathName

/-!
## Words of a text

A text falls into its longest stretches without separators. Every character that
does not separate lies in one of them, so two readings of a text agree only when
they separate it at the same characters. Replacing each longest run of other
characters by one space, as `re.sub` does, keeps the stretches.
-/
namespace TextWords

open PlainText

variable (separates : Char → Bool)

/-- The longest stretches without a separator. -/
def stretches (text : List Char) : List (List Char) :=
  (text.splitOnP separates).filter fun word => !word.isEmpty

/-- `strip`. -/
def strip (text : List Char) : List Char :=
  ((text.dropWhile isSpace).reverse.dropWhile isSpace).reverse

/-- Each longest run of characters that are not kept is replaced by one space; `started`
says that the text follows such a run. -/
def blankRunsAfter (keep : Char → Bool) (started : Bool) : List Char → List Char
  | [] => []
  | c :: rest =>
    if keep c then c :: blankRunsAfter keep false rest
    else if started then blankRunsAfter keep true rest
    else ' ' :: blankRunsAfter keep true rest

def blankRuns (keep : Char → Bool) (text : List Char) : List Char :=
  blankRunsAfter keep false text

variable {separates} {text : List Char}

theorem stretches_separator {c : Char} (h : separates c = true) (rest : List Char) :
    stretches separates (c :: rest) = stretches separates rest := by
  simp [stretches, List.splitOnP_cons_eq_if_modifyHead, h]

/-- The stretches put together are the text without its separators. -/
theorem flatten_stretches (text : List Char) :
    (stretches separates text).flatten = text.filter fun c => !separates c := by
  have hall : (text.splitOnP separates).flatten = text.filter fun c => !separates c := by
    induction text with
    | nil => rfl
    | cons c rest ih =>
      rw [List.splitOnP_cons_eq_if_modifyHead]
      cases hc : separates c with
      | true => simp [hc, ih]
      | false =>
        cases hrest : rest.splitOnP separates with
        | nil => exact absurd hrest (List.splitOnP_ne_nil _ _)
        | cons first later =>
          rw [hrest, List.flatten_cons] at ih
          simp [hc, ih]
  rw [← hall, stretches, List.flatten_filter_not_isEmpty]

/-- A character of the text that does not separate lies in a stretch. -/
theorem exists_mem_stretches {c : Char} (hc : c ∈ text) (hkept : separates c = false) :
    ∃ word ∈ stretches separates text, c ∈ word := by
  have hmem : c ∈ (stretches separates text).flatten := by
    rw [flatten_stretches, List.mem_filter]
    simp [hc, hkept]
  simpa using hmem

theorem separates_of_mem {word : List Char} (hword : word ∈ stretches separates text) {c : Char}
    (hc : c ∈ word) : separates c = false := by
  have hmem : c ∈ (stretches separates text).flatten := List.mem_flatten.mpr ⟨word, hword, hc⟩
  rw [flatten_stretches, List.mem_filter] at hmem
  simpa using hmem.2

theorem ne_nil_of_mem {word : List Char} (hword : word ∈ stretches separates text) :
    word ≠ [] := by
  have hne := (List.mem_filter.mp hword).2
  simpa using hne

/-- Readings that separate a text at the same characters find the same stretches. -/
theorem stretches_congr {separates' : Char → Bool}
    (h : ∀ c ∈ text, separates c = separates' c) :
    stretches separates text = stretches separates' text := by
  have hsplit : text.splitOnP separates = text.splitOnP separates' := by
    induction text with
    | nil => rfl
    | cons c rest ih =>
      rw [List.splitOnP_cons_eq_if_modifyHead, List.splitOnP_cons_eq_if_modifyHead,
        ih fun d hd => h d (List.mem_cons_of_mem c hd), h c List.mem_cons_self]
  rw [stretches, hsplit, stretches]

/-- Two texts have the same stretches when the first ones and the later ones are the same. -/
theorem stretches_of_splits {text' : List Char} {separates' : Char → Bool}
    {first : List Char} {later later' : List (List Char)}
    (h : text.splitOnP separates = first :: later)
    (h' : text'.splitOnP separates' = first :: later')
    (hlater : (later.filter fun word => !word.isEmpty) = later'.filter fun word => !word.isEmpty) :
    stretches separates text = stretches separates' text' := by
  rw [stretches, stretches, h, h', List.filter_cons, List.filter_cons, hlater]

/-- The first stretch and the later ones survive the replacement; after a run only the
stretches do. -/
theorem splits_blankRunsAfter {keep : Char → Bool} (hspace : ∀ c, keep c = true → isSpace c = false)
    (text : List Char) :
    (∃ first later later',
      (blankRunsAfter keep false text).splitOnP isSpace = first :: later ∧
      text.splitOnP (fun c => !keep c) = first :: later' ∧
      (later.filter fun word => !word.isEmpty) = later'.filter fun word => !word.isEmpty) ∧
    stretches isSpace (blankRunsAfter keep true text) = stretches (fun c => !keep c) text := by
  induction text with
  | nil => exact ⟨⟨[], [], [], rfl, rfl, rfl⟩, rfl⟩
  | cons c rest ih =>
    obtain ⟨⟨first, later, later', hfirst, hfirst', hlater⟩, hafter⟩ := ih
    cases hc : keep c with
    | true =>
      have hsplit : (c :: blankRunsAfter keep false rest).splitOnP isSpace =
          (c :: first) :: later := by
        rw [List.splitOnP_cons_eq_if_modifyHead, if_neg (by simp [hspace c hc]), hfirst,
          List.modifyHead_cons]
      have hsplit' : (c :: rest).splitOnP (fun c => !keep c) = (c :: first) :: later' := by
        rw [List.splitOnP_cons_eq_if_modifyHead, if_neg (by simp [hc]), hfirst',
          List.modifyHead_cons]
      simp only [blankRunsAfter, hc, if_true]
      exact ⟨⟨c :: first, later, later', hsplit, hsplit', hlater⟩,
        stretches_of_splits hsplit hsplit' hlater⟩
    | false =>
      have hsplit : (' ' :: blankRunsAfter keep true rest).splitOnP isSpace =
          [] :: (blankRunsAfter keep true rest).splitOnP isSpace := by
        rw [List.splitOnP_cons_eq_if_modifyHead, if_pos (by decide)]
      have hsplit' : (c :: rest).splitOnP (fun c => !keep c) =
          [] :: rest.splitOnP (fun c => !keep c) := by
        rw [List.splitOnP_cons_eq_if_modifyHead, if_pos (by simp [hc])]
      refine ⟨⟨[], _, _, ?_, hsplit', hafter⟩, ?_⟩
      · simpa only [blankRunsAfter, hc, Bool.false_eq_true, if_false] using hsplit
      · rw [stretches_separator (by simp [hc])]
        simpa only [blankRunsAfter, hc, Bool.false_eq_true, if_false, if_true] using hafter

/-- The words of a text after the replacement are its stretches of kept characters. -/
theorem fields_blankRuns {keep : Char → Bool} (hspace : ∀ c, keep c = true → isSpace c = false)
    (text : List Char) : fields (blankRuns keep text) = stretches (fun c => !keep c) text := by
  obtain ⟨⟨first, later, later', hfirst, hfirst', hlater⟩, -⟩ := splits_blankRunsAfter hspace text
  exact stretches_of_splits hfirst hfirst' hlater

/-- Separators in front of a text and behind it change nothing. -/
theorem stretches_front {front : List Char} (h : ∀ c ∈ front, separates c = true)
    (text : List Char) : stretches separates (front ++ text) = stretches separates text := by
  induction front with
  | nil => rfl
  | cons c front ih =>
    rw [List.cons_append, stretches_separator (h c List.mem_cons_self),
      ih fun d hd => h d (List.mem_cons_of_mem c hd)]

theorem stretches_back {back : List Char} (h : ∀ c ∈ back, separates c = true)
    (text : List Char) : stretches separates (text ++ back) = stretches separates text := by
  cases back with
  | nil => rw [List.append_nil]
  | cons c back =>
    have hrest : stretches separates back = [] := by
      rw [← List.append_nil back, stretches_front fun d hd => h d (List.mem_cons_of_mem c hd)]
      rfl
    rw [stretches, List.splitOnP_append_cons _ _ (h c List.mem_cons_self), List.filter_append]
    change _ ++ stretches separates back = _
    rw [hrest, List.append_nil, stretches]

/-- A text is what `strip` leaves of it, between white space. -/
theorem exists_strip (text : List Char) :
    ∃ front back, text = front ++ strip text ++ back ∧ (∀ c ∈ front, isSpace c = true) ∧
      ∀ c ∈ back, isSpace c = true := by
  refine ⟨text.takeWhile isSpace,
    ((text.dropWhile isSpace).reverse.takeWhile isSpace).reverse, ?_, ?_, ?_⟩
  · rw [strip, List.append_assoc, ← List.reverse_append, List.takeWhile_append_dropWhile,
      List.reverse_reverse, List.takeWhile_append_dropWhile]
  · intro c hc
    exact List.mem_takeWhile_imp hc
  · intro c hc
    exact List.mem_takeWhile_imp (List.mem_reverse.mp hc)

/-- Words put together with a space between two of them are found again. -/
theorem fields_intercalate {words : List (List Char)}
    (h : ∀ word ∈ words, word ≠ [] ∧ ∀ c ∈ word, isSpace c = false) :
    fields ([' '].intercalate words) = words := by
  induction words with
  | nil => rfl
  | cons word words ih =>
    obtain ⟨hne, hword⟩ := h word List.mem_cons_self
    cases words with
    | nil =>
      rw [List.intercalate_singleton]
      exact fields_last hword hne
    | cons next words =>
      have hrest := ih fun w hw => h w (List.mem_cons_of_mem word hw)
      rw [List.intercalate_cons_cons, List.append_assoc, List.singleton_append,
        fields_word hword hne (by decide), hrest]

end TextWords
