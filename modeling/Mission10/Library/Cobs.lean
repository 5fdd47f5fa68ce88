import Mathlib.Data.List.Basic
import Mathlib.Order.Nat

/-!
# Consistent overhead byte stuffing

A byte string is cut into runs of nonzero bytes, each stored after its length
plus one. A run that ends at a zero byte stands for that zero; a run of 254
bytes, stored under the code 255, does not. The encoding holds no zero byte, so
a zero can end a frame. The last run is written even when it is empty.
-/
namespace Cobs

/-- The longest run under one code. -/
def maxRun : ℕ := 254

def code (run : List UInt8) : UInt8 := UInt8.ofNat (run.length + 1)

/-- Encodes the rest of the string after the bytes of the current run. -/
def stuffFrom (run : List UInt8) : List UInt8 → List UInt8
  | [] => code run :: run
  | byte :: bytes =>
    if byte = 0 then code run :: run ++ stuffFrom [] bytes
    else if run.length + 1 = maxRun then code (run ++ [byte]) :: (run ++ [byte]) ++ stuffFrom [] bytes
    else stuffFrom (run ++ [byte]) bytes

def stuff (bytes : List UInt8) : List UInt8 := stuffFrom [] bytes

/-- A delimited frame. -/
def frame (bytes : List UInt8) : List UInt8 := stuff bytes ++ [0]

/-- Reads runs until the stuffed string ends. A code that is zero or reaches past
the end is refused. -/
def unstuff : List UInt8 → Option (List UInt8)
  | [] => some []
  | head :: rest =>
    if head = 0 then none
    else if rest.length < head.toNat - 1 then none
    else
      (unstuff (rest.drop (head.toNat - 1))).map fun bytes =>
        rest.take (head.toNat - 1) ++
          (if head ≠ 255 ∧ rest.drop (head.toNat - 1) ≠ [] then 0 :: bytes else bytes)
termination_by bytes => bytes.length
decreasing_by simp only [List.length_drop, List.length_cons]; omega

theorem stuffFrom_nil (run : List UInt8) : stuffFrom run [] = code run :: run := rfl

theorem stuffFrom_cons (run : List UInt8) (byte : UInt8) (bytes : List UInt8) :
    stuffFrom run (byte :: bytes) =
      if byte = 0 then code run :: run ++ stuffFrom [] bytes
      else if run.length + 1 = maxRun then
        code (run ++ [byte]) :: (run ++ [byte]) ++ stuffFrom [] bytes
      else stuffFrom (run ++ [byte]) bytes := rfl

theorem unstuff_nil : unstuff [] = some [] := by rw [unstuff]

theorem unstuff_cons (head : UInt8) (rest : List UInt8) :
    unstuff (head :: rest) =
      if head = 0 then none
      else if rest.length < head.toNat - 1 then none
      else
        (unstuff (rest.drop (head.toNat - 1))).map fun bytes =>
          rest.take (head.toNat - 1) ++
            (if head ≠ 255 ∧ rest.drop (head.toNat - 1) ≠ [] then 0 :: bytes else bytes) := by
  rw [unstuff]

/-- A run under construction: nonzero bytes, one short of the longest run at most. -/
structure Run (run : List UInt8) : Prop where
  nonzero : (0 : UInt8) ∉ run
  short : run.length < maxRun

theorem Run.nil : Run [] := ⟨by simp, by decide⟩

theorem Run.concat {run : List UInt8} {byte : UInt8} (h : Run run) (hbyte : byte ≠ 0)
    (hshort : run.length + 1 ≠ maxRun) : Run (run ++ [byte]) := by
  refine ⟨?_, ?_⟩
  · intro hmem
    rcases List.mem_append.mp hmem with hmem | hmem
    · exact h.nonzero hmem
    · exact hbyte (List.mem_singleton.mp hmem).symm
  · have := h.short
    rw [List.length_append, List.length_singleton]
    omega

theorem code_toNat {run : List UInt8} (h : run.length ≤ maxRun) :
    (code run).toNat = run.length + 1 := by
  have : run.length + 1 < 256 := by unfold maxRun at h; omega
  rw [code, UInt8.toNat_ofNat']
  exact Nat.mod_eq_of_lt this

theorem code_ne_zero {run : List UInt8} (h : run.length ≤ maxRun) : code run ≠ 0 := by
  intro hzero
  have := code_toNat h
  rw [hzero] at this
  simp at this

theorem code_eq_max {run : List UInt8} (h : run.length ≤ maxRun) :
    code run = 255 ↔ run.length = maxRun := by
  rw [← UInt8.toNat_inj, code_toNat h]
  simp [maxRun]

theorem stuffFrom_ne_nil (run bytes : List UInt8) : stuffFrom run bytes ≠ [] := by
  induction bytes generalizing run with
  | nil => simp [stuffFrom_nil]
  | cons byte bytes ih =>
    rw [stuffFrom_cons]
    split_ifs <;> simp [ih]

/-- A stored run is read back, with the zero it stands for when it is not a
longest run and something follows. -/
theorem unstuff_run {run : List UInt8} (rest : List UInt8) (h : run.length ≤ maxRun) :
    unstuff (code run :: run ++ rest) = (unstuff rest).map fun bytes =>
      run ++ if run.length ≠ maxRun ∧ rest ≠ [] then 0 :: bytes else bytes := by
  have hpred : (code run).toNat - 1 = run.length := by
    rw [code_toNat h]
    omega
  have hlong : ¬ (run ++ rest).length < run.length := by
    rw [List.length_append]
    omega
  rw [List.cons_append, unstuff_cons, if_neg (code_ne_zero h), hpred, if_neg hlong]
  simp [← code_eq_max h]

theorem unstuff_stuffFrom {run : List UInt8} (h : Run run) (bytes : List UInt8) :
    unstuff (stuffFrom run bytes) = some (run ++ bytes) := by
  induction bytes generalizing run with
  | nil =>
    have hread := unstuff_run [] h.short.le
    rw [stuffFrom_nil]
    simpa [unstuff_nil] using hread
  | cons byte bytes ih =>
    rw [stuffFrom_cons]
    split_ifs with hzero hfull
    · rw [unstuff_run _ h.short.le, ih Run.nil]
      have := h.short
      simp [hzero, stuffFrom_ne_nil, show run.length ≠ maxRun by omega]
    · have hlen : (run ++ [byte]).length = maxRun := by simpa using hfull
      rw [unstuff_run _ hlen.le, ih Run.nil]
      simp [hlen]
    · rw [ih (h.concat hzero hfull)]
      simp

/-- Unstuffing undoes stuffing. -/
theorem unstuff_stuff (bytes : List UInt8) : unstuff (stuff bytes) = some bytes :=
  unstuff_stuffFrom Run.nil bytes

theorem zero_notMem_stuffFrom {run : List UInt8} (h : Run run) (bytes : List UInt8) :
    (0 : UInt8) ∉ stuffFrom run bytes := by
  have hstored : ∀ {stored : List UInt8}, stored.length ≤ maxRun → (0 : UInt8) ∉ stored →
      (0 : UInt8) ∉ code stored :: stored := by
    intro stored hlen hfree hmem
    rcases List.mem_cons.mp hmem with hmem | hmem
    · exact code_ne_zero hlen hmem.symm
    · exact hfree hmem
  induction bytes generalizing run with
  | nil => exact hstored h.short.le h.nonzero
  | cons byte bytes ih =>
    rw [stuffFrom_cons]
    split_ifs with hzero hfull
    · intro hmem
      rcases List.mem_append.mp hmem with hmem | hmem
      · exact hstored h.short.le h.nonzero hmem
      · exact ih Run.nil hmem
    · have hfree : (0 : UInt8) ∉ run ++ [byte] := by
        intro hmem
        rcases List.mem_append.mp hmem with hmem | hmem
        · exact h.nonzero hmem
        · exact hzero (List.mem_singleton.mp hmem).symm
      have hlen : (run ++ [byte]).length = maxRun := by simpa using hfull
      intro hmem
      rcases List.mem_append.mp hmem with hmem | hmem
      · exact hstored hlen.le hfree hmem
      · exact ih Run.nil hmem
    · exact ih (h.concat hzero hfull)

theorem zero_notMem_stuff (bytes : List UInt8) : (0 : UInt8) ∉ stuff bytes :=
  zero_notMem_stuffFrom Run.nil bytes

/-- One byte for the last run and one for each of the longest runs. -/
theorem length_stuffFrom_le {run : List UInt8} (h : Run run) (bytes : List UInt8) :
    (stuffFrom run bytes).length ≤
      run.length + bytes.length + 1 + (run.length + bytes.length) / maxRun := by
  induction bytes generalizing run with
  | nil =>
    simp only [stuffFrom_nil, List.length_cons, List.length_nil, Nat.add_zero]
    exact Nat.le_add_right _ _
  | cons byte bytes ih =>
    rw [stuffFrom_cons]
    split_ifs with hzero hfull
    · have hrest := ih Run.nil
      simp only [List.length_append, List.length_cons, List.length_nil, Nat.zero_add] at hrest ⊢
      have hmono : bytes.length / maxRun ≤ (run.length + (bytes.length + 1)) / maxRun :=
        Nat.div_le_div_right (by omega)
      omega
    · have hrest := ih Run.nil
      have hsum : run.length + (bytes.length + 1) = bytes.length + maxRun := by omega
      simp only [List.length_append, List.length_cons, List.length_nil, Nat.zero_add] at hrest ⊢
      rw [hsum, Nat.add_div_right _ (by decide)]
      omega
    · have hrest := ih (h.concat hzero hfull)
      simp only [List.length_append, List.length_cons, List.length_nil] at hrest ⊢
      have hsum : run.length + (0 + 1) + bytes.length = run.length + (bytes.length + 1) := by omega
      rw [hsum] at hrest
      exact hrest

theorem length_frame_le (bytes : List UInt8) :
    (frame bytes).length ≤ bytes.length + 2 + bytes.length / maxRun := by
  have h := length_stuffFrom_le Run.nil bytes
  simp only [List.length_nil, Nat.zero_add] at h
  simp only [frame, stuff, List.length_append, List.length_singleton]
  omega

/-- Reading drops the first code, and a later one for each zero it writes. -/
theorem length_unstuff_lt {body raw : List UInt8} (hbody : body ≠ [])
    (h : unstuff body = some raw) : raw.length < body.length := by
  induction body using unstuff.induct generalizing raw with
  | case1 => exact absurd rfl hbody
  | case2 rest =>
    rw [unstuff_cons, if_pos rfl] at h
    cases h
  | case3 head rest hzero hlong =>
    rw [unstuff_cons, if_neg hzero, if_pos hlong] at h
    cases h
  | case4 head rest hzero hlong ih =>
    rw [unstuff_cons, if_neg hzero, if_neg hlong, Option.map_eq_some_iff] at h
    obtain ⟨tail, htail, rfl⟩ := h
    have hcut := congrArg List.length (List.take_append_drop (head.toNat - 1) rest)
    rw [List.length_append] at hcut
    simp only [List.length_append, List.length_cons]
    by_cases hdrop : rest.drop (head.toNat - 1) = []
    · rw [hdrop] at htail hcut
      obtain rfl : [] = tail := by simpa [unstuff_nil] using htail
      rw [if_neg fun h => h.2 hdrop, List.length_nil]
      rw [List.length_nil] at hcut
      omega
    · have hlt := ih hdrop htail
      split_ifs
      · rw [List.length_cons]
        omega
      · omega

end Cobs

/-!
## CRC-32/ISO-HDLC

The reflected polynomial `0xEDB88320` with all-ones initial value and final
complement, one bit at a time.
-/
namespace Crc32

def shiftBit (crc : UInt32) : UInt32 :=
  if crc &&& 1 = 1 then (crc >>> 1) ^^^ 0xedb88320 else crc >>> 1

def shiftByte (crc : UInt32) (byte : UInt8) : UInt32 :=
  shiftBit (shiftBit (shiftBit (shiftBit (shiftBit (shiftBit (shiftBit (shiftBit
    (crc ^^^ byte.toUInt32))))))))

def checksum (bytes : List UInt8) : UInt32 := bytes.foldl shiftByte 0xffffffff ^^^ 0xffffffff

example : checksum [0x31, 0x32, 0x33, 0x34, 0x35, 0x36, 0x37, 0x38, 0x39] = 0xcbf43926 := by
  decide +kernel

end Crc32
