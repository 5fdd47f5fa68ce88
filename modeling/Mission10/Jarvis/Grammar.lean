import Mathlib.Algebra.Order.Field.Rat
import Mission10.Library.PlainText

/-!
# The command grammar

A transcript is put into a normal form and compared with four phrases. The normal
form keeps the letters `a` to `z` only: every other character separates words, so
two transcripts with the same letters have the same normal form. An utterance is as
confident as its weakest word.
-/
namespace Mission10.Jarvis

open PlainText TextWords

structure Intent where
  name : String
  topic : String
  response : String
deriving DecidableEq, Repr

def launch : Intent := ⟨"launch", "/start_mission", "LAUNCHING."⟩
def execute : Intent := ⟨"execute", "/begin_orbit", "EXECUTING."⟩
def comeHome : Intent := ⟨"come_home", "/end_mission", "COMING HOME."⟩
def abort : Intent := ⟨"abort", "/abort_mission", "ABORTING."⟩

def phrases : List (List Char × Intent) :=
  [("launch".toList, launch), ("execute".toList, execute), ("come home".toList, comeHome),
    ("abort".toList, abort)]

def rejectResponse : String := "SAY AGAIN."

inductive Rejection
  | outOfVocabulary
  | noMatch
  | lowConfidence (intent : Intent)
deriving DecidableEq, Repr

inductive Outcome
  | accepted (intent : Intent)
  | rejected (rejection : Rejection)
deriving DecidableEq, Repr

def unknownToken : List Char := "[unk]".toList

def callsign : List Char := "jarvis".toList

def vocabulary : List (List Char) :=
  [callsign, "launch".toList, "execute".toList, "come".toList, "home".toList, "abort".toList]

/-- The lower case of a character, exact for those whose lower case holds a letter from `a`
to `z`: the capital letters of ASCII, the dotted capital I and the Kelvin sign. -/
def lowerChar (c : Char) : List Char :=
  if c.toNat = 0x130 then ['i', Char.ofNat 0x307]
  else if c.toNat = 0x212A then ['k']
  else [c.toLower]

/-- `lower`. -/
def lower (text : List Char) : List Char := text.flatMap lowerChar

def isLetter (c : Char) : Bool := decide ('a' ≤ c ∧ c ≤ 'z')

/-- The words of `normalize`. -/
def normalWords (text : List Char) : List (List Char) :=
  let words := fields (blankRuns isLetter (lower (strip text)))
  if words.head? = some callsign then words.tail else words

def normalize (text : List Char) : List Char := [' '].intercalate (normalWords text)

/-- The confidence of the weakest word. -/
def utteranceConfidence (wordConfidences : List ℚ) : ℚ :=
  match wordConfidences.min? with
  | none => 0
  | some weakest => weakest

structure Match where
  transcript : List Char
  normalized : List Char
  confidence : ℚ
  outcome : Outcome

def Match.response (m : Match) : String :=
  match m.outcome with
  | .accepted intent => intent.response
  | .rejected _ => rejectResponse

/-- The outcome of an utterance. The unknown token is looked for in the raw transcript. -/
def outcomeOf (transcript : List Char) (wordConfidences : List ℚ) (threshold : ℚ) : Outcome :=
  if unknownToken <:+: transcript then .rejected .outOfVocabulary
  else
    match phrases.lookup (normalize transcript) with
    | none => .rejected .noMatch
    | some intent =>
      if utteranceConfidence wordConfidences < threshold then .rejected (.lowConfidence intent)
      else .accepted intent

def recognize (transcript : List Char) (wordConfidences : List ℚ) (threshold : ℚ) : Match where
  transcript := transcript
  normalized := normalize transcript
  confidence := utteranceConfidence wordConfidences
  outcome := outcomeOf transcript wordConfidences threshold

/-! ### What was said -/

/-- The punctuation of ASCII. -/
def isPunctuation (c : Char) : Bool :=
  decide (0x21 ≤ c.toNat ∧ c.toNat ≤ 0x2F) || decide (0x3A ≤ c.toNat ∧ c.toNat ≤ 0x40) ||
    decide (0x5B ≤ c.toNat ∧ c.toNat ≤ 0x60) || decide (0x7B ≤ c.toNat ∧ c.toNat ≤ 0x7E)

/-- A character between words: white space, or punctuation, which stands for it. -/
def isGap (c : Char) : Bool := isSpace c || isPunctuation c

/-- The words of a transcript up to case and punctuation. -/
def spokenWords (text : List Char) : List (List Char) := stretches isGap (lower text)

/-- A transcript whose characters are letters, white space and punctuation. -/
def Plain (text : List Char) : Prop := ∀ c ∈ lower text, isLetter c = true ∨ isGap c = true

instance (text : List Char) : Decidable (Plain text) := List.decidableBAll _ _

/-- A transcript spells a phrase, after the callsign or not. -/
def Spells (words : List (List Char)) (intent : Intent) : Prop :=
  ∃ entry ∈ phrases, entry.2 = intent ∧
    (words = fields entry.1 ∨ words = callsign :: fields entry.1)

/-- The words that the letters alone make. -/
def letterWords (text : List Char) : List (List Char) :=
  stretches (fun c => !isLetter c) (lower text)

theorem toNat_of_isLetter {c : Char} (h : isLetter c = true) : 97 ≤ c.toNat ∧ c.toNat ≤ 122 := by
  simpa [isLetter, Char.le_def, UInt32.le_iff_toNat_le] using h

theorem isSpace_of_isLetter {c : Char} (h : isLetter c = true) : isSpace c = false := by
  have hbounds := toNat_of_isLetter h
  rw [isSpace, Bool.eq_false_iff]
  intro hmem
  simp only [List.contains_eq_mem, decide_eq_true_eq, List.mem_cons, List.not_mem_nil, or_false]
    at hmem
  omega

theorem isGap_of_isLetter {c : Char} (h : isLetter c = true) : isGap c = false := by
  have hbounds := toNat_of_isLetter h
  have hpunctuation : isPunctuation c = false := by
    simp only [isPunctuation, Bool.or_eq_false_iff, decide_eq_false_iff_not]
    omega
  rw [isGap, isSpace_of_isLetter h, hpunctuation, Bool.or_false]

theorem lowerChar_of_isSpace {c : Char} (h : isSpace c = true) : lowerChar c = [c] := by
  rw [isSpace, List.contains_iff_mem] at h
  simp only [List.mem_cons, List.not_mem_nil, or_false] at h
  have hupper : c.toLower = c := by
    refine dif_neg fun hupper => ?_
    have hbounds : 65 ≤ c.toNat ∧ c.toNat ≤ 90 := by
      simpa [UInt32.le_iff_toNat_le] using hupper
    omega
  rw [lowerChar, if_neg (by omega), if_neg (by omega), hupper]

theorem lower_append (text more : List Char) : lower (text ++ more) = lower text ++ lower more :=
  List.flatMap_append

theorem mem_lower_space {text : List Char} (h : ∀ c ∈ text, isSpace c = true) :
    ∀ c ∈ lower text, (!isLetter c) = true := by
  intro c hc
  obtain ⟨d, hd, hcd⟩ := List.mem_flatMap.mp hc
  rw [lowerChar_of_isSpace (h d hd), List.mem_singleton] at hcd
  subst hcd
  by_contra hletter
  have hspace := isSpace_of_isLetter (c := c) (by simpa using hletter)
  rw [h c hd] at hspace
  cases hspace

/-- Stripping the text and replacing what is no letter leave the words of its letters. -/
theorem fields_normal (text : List Char) :
    fields (blankRuns isLetter (lower (strip text))) = letterWords text := by
  obtain ⟨front, back, htext, hfront, hback⟩ := exists_strip text
  rw [fields_blankRuns fun c hc => isSpace_of_isLetter hc, letterWords]
  conv_rhs => rw [htext, lower_append, lower_append]
  rw [stretches_back (mem_lower_space hback), stretches_front (mem_lower_space hfront)]

/-- The normal form drops the callsign in front and nothing else. -/
theorem letterWords_cases (text : List Char) :
    letterWords text = normalWords text ∨ letterWords text = callsign :: normalWords text := by
  rw [normalWords, fields_normal]
  by_cases hhead : (letterWords text).head? = some callsign
  · right
    rw [if_pos hhead]
    obtain ⟨later, hlater⟩ := List.head?_eq_some_iff.mp hhead
    rw [hlater, List.tail_cons]
  · left
    rw [if_neg hhead]

theorem mem_letterWords {text word : List Char} (h : word ∈ letterWords text) :
    word ≠ [] ∧ ∀ c ∈ word, isLetter c = true := by
  refine ⟨ne_nil_of_mem h, fun c hc => ?_⟩
  simpa using separates_of_mem h hc

/-- A normal form that is in the table comes from the letters of the phrase. -/
theorem spells_of_lookup {text : List Char} {intent : Intent}
    (h : phrases.lookup (normalize text) = some intent) : Spells (letterWords text) intent := by
  obtain ⟨before, after, htable, -⟩ := List.lookup_eq_some_iff.mp h
  have hentry : (normalize text, intent) ∈ phrases := by
    rw [htable]
    simp
  have hwords : fields (normalize text) = normalWords text := by
    refine fields_intercalate fun word hword => ?_
    have hletters : word ∈ letterWords text := by
      rcases letterWords_cases text with h | h
      · rwa [h]
      · rw [h]
        exact List.mem_cons_of_mem callsign hword
    obtain ⟨hne, hall⟩ := mem_letterWords hletters
    exact ⟨hne, fun c hc => isSpace_of_isLetter (hall c hc)⟩
  refine ⟨_, hentry, rfl, ?_⟩
  rw [hwords]
  exact letterWords_cases text

theorem spokenWords_eq {text : List Char} (h : Plain text) :
    spokenWords text = letterWords text := by
  refine stretches_congr fun c hc => ?_
  rcases h c hc with hletter | hgap
  · rw [isGap_of_isLetter hletter, hletter]
    rfl
  · cases hletter : isLetter c with
    | false => rw [hgap, Bool.not_false]
    | true =>
      rw [isGap_of_isLetter hletter] at hgap
      cases hgap

/-- The words of the phrases and the callsign are in the vocabulary, which has no gaps. -/
theorem mem_vocabulary_of_spells {words : List (List Char)} {intent : Intent}
    (h : Spells words intent) : ∀ word ∈ words, word ∈ vocabulary := by
  obtain ⟨entry, hentry, -, hwords⟩ := h
  have hphrases : ∀ entry ∈ phrases, ∀ word ∈ callsign :: fields entry.1, word ∈ vocabulary := by
    decide +kernel
  intro word hword
  rcases hwords with rfl | rfl
  · exact hphrases entry hentry word (List.mem_cons_of_mem callsign hword)
  · exact hphrases entry hentry word hword

theorem isLetter_of_vocabulary : ∀ word ∈ vocabulary, ∀ c ∈ word, isLetter c = true := by
  have hall : ∀ word ∈ vocabulary, word.all isLetter = true := by
    decide +kernel
  intro word hword
  exact List.all_eq_true.mp (hall word hword)

/-- A transcript whose words spell a phrase holds nothing but letters and gaps. -/
theorem plain_of_spells {text : List Char} {intent : Intent}
    (h : Spells (spokenWords text) intent) : Plain text := by
  intro c hc
  cases hgap : isGap c with
  | true => exact Or.inr rfl
  | false =>
    obtain ⟨word, hword, hcword⟩ := exists_mem_stretches hc hgap
    exact Or.inl (isLetter_of_vocabulary word (mem_vocabulary_of_spells h word hword) c hcword)

theorem utteranceConfidence_le {confidences : List ℚ} {c : ℚ} (h : c ∈ confidences) :
    utteranceConfidence confidences ≤ c := by
  rw [utteranceConfidence]
  cases hmin : confidences.min? with
  | none =>
    rw [List.min?_eq_none_iff.mp hmin] at h
    cases h
  | some weakest => exact (List.min?_eq_some_iff.mp hmin).2 c h

end Mission10.Jarvis
