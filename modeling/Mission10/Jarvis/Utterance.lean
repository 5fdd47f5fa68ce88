import Mission10.Jarvis.Grammar

/-!
# The utterance route

One request transcribes, recognizes, checks how many subscribers are matched to the
gate of the intent, and publishes. The route is sound when a published gate was
spoken: the words of the transcript are its phrase, every one of them has a confidence,
and none is below the threshold. The normal form erases more than punctuation, and the
recognizer may give fewer confidences than words; the route is sound exactly when
neither happens to a transcript that it accepts.
-/
namespace Mission10.Jarvis

open PlainText TextWords

structure Transcription where
  text : List Char
  wordConfidences : List ℚ

/-- The final result of the recognizer: its text, and what it says of the confidence of each
word. -/
structure FinalResult where
  text : Option (List Char)
  result : List (Option ℚ)

/-- `VoskEngine.transcribe` on the final result. -/
def transcribe (final : FinalResult) : Transcription where
  text := strip (final.text.getD [])
  wordConfidences := final.result.filterMap id

/-- What the route asks of the publisher of the gates. -/
structure Gates where
  subscriberCount : Intent → ℕ
  expectedFleetSize : ℕ

/-- The answer of the route, without its audio. -/
structure Reply where
  transcript : List Char
  intent : Option String
  accepted : Bool
  reason : String
  confidence : ℚ
  response : String
  topic : Option String
  subscriberCount : Option ℕ
  expectedSubscriberCount : Option ℕ

def fleetNotReadyResponse : String := "FLEET NOT READY."

def describe : Outcome → Option String × String
  | .accepted intent => (some intent.name, "ok")
  | .rejected .outOfVocabulary => (none, "out_of_vocabulary")
  | .rejected .noMatch => (none, "no_match")
  | .rejected (.lowConfidence intent) => (some intent.name, "low_confidence")

/-- The answer to an utterance and the gates it publishes. -/
def utterance (gates : Gates) (threshold : ℚ) (heard : Transcription) : Reply × List Intent :=
  let result := recognize heard.text heard.wordConfidences threshold
  let (intentName, cause) := describe result.outcome
  let reply : Reply :=
    { transcript := result.transcript
      intent := intentName
      accepted := false
      reason := cause
      confidence := result.confidence
      response := result.response
      topic := none
      subscriberCount := none
      expectedSubscriberCount := none }
  match result.outcome with
  | .accepted intent =>
    let checked : Reply :=
      { reply with
        topic := some intent.topic
        subscriberCount := some (gates.subscriberCount intent)
        expectedSubscriberCount := some gates.expectedFleetSize }
    if gates.subscriberCount intent < gates.expectedFleetSize then
      ({ checked with
        reason := "insufficient_subscribers"
        response := fleetNotReadyResponse }, [])
    else ({ checked with accepted := true }, [intent])
  | .rejected _ => (reply, [])

/-! ### What a published gate promises -/

/-- Every word of the transcript has a confidence, and none is below the threshold. -/
def Confident (threshold : ℚ) (heard : Transcription) : Prop :=
  ∀ i < (spokenWords heard.text).length,
    ∃ confidence, heard.wordConfidences[i]? = some confidence ∧ threshold ≤ confidence

/-- At most one gate is published; a published one was spoken with confidence and has its
subscribers; and a transcript with another word publishes nothing. -/
structure Sound (gates : Gates) (threshold : ℚ) (heard : Transcription)
    (published : List Intent) : Prop where
  one : published.length ≤ 1
  spoken : ∀ intent ∈ published, Spells (spokenWords heard.text) intent
  confident : ∀ intent ∈ published, Confident threshold heard
  matched : ∀ intent ∈ published, gates.expectedFleetSize ≤ gates.subscriberCount intent
  closed : (∃ word ∈ spokenWords heard.text, word ∉ vocabulary) → published = []

/-- What the route itself checks before it publishes. -/
structure Opens (gates : Gates) (threshold : ℚ) (heard : Transcription) (intent : Intent) :
    Prop where
  known : ¬ unknownToken <:+: heard.text
  phrase : phrases.lookup (normalize heard.text) = some intent
  strong : threshold ≤ utteranceConfidence heard.wordConfidences
  matched : gates.expectedFleetSize ≤ gates.subscriberCount intent

variable {gates : Gates} {threshold : ℚ} {heard : Transcription} {intent : Intent}

theorem outcomeOf_accepted_iff {transcript : List Char} {confidences : List ℚ} :
    outcomeOf transcript confidences threshold = .accepted intent ↔
      ¬ unknownToken <:+: transcript ∧ phrases.lookup (normalize transcript) = some intent ∧
        threshold ≤ utteranceConfidence confidences := by
  rw [outcomeOf]
  by_cases hunknown : unknownToken <:+: transcript
  · simp [hunknown]
  · rw [if_neg hunknown]
    cases hphrase : phrases.lookup (normalize transcript) with
    | none => simp
    | some found =>
      by_cases hweak : utteranceConfidence confidences < threshold
      · simp [hweak]
      · simp [hunknown, hweak, not_lt.mp hweak]

/-- The gates of an utterance: the one whose checks hold. -/
theorem mem_published_iff : intent ∈ (utterance gates threshold heard).2 ↔
    Opens gates threshold heard intent := by
  have hopens : Opens gates threshold heard intent ↔
      outcomeOf heard.text heard.wordConfidences threshold = .accepted intent ∧
        gates.expectedFleetSize ≤ gates.subscriberCount intent := by
    rw [outcomeOf_accepted_iff]
    constructor
    · intro h
      exact ⟨⟨h.known, h.phrase, h.strong⟩, h.matched⟩
    · rintro ⟨⟨hknown, hphrase, hstrong⟩, hmatched⟩
      exact ⟨hknown, hphrase, hstrong, hmatched⟩
  rw [hopens, utterance]
  simp only [recognize]
  cases houtcome : outcomeOf heard.text heard.wordConfidences threshold with
  | rejected rejection => simp
  | accepted found =>
    dsimp only
    split
    · rename_i hfew
      simp only [List.not_mem_nil, Outcome.accepted.injEq, false_iff]
      rintro ⟨rfl, hmatched⟩
      omega
    · rename_i hmany
      simp only [List.mem_singleton, Outcome.accepted.injEq]
      constructor
      · rintro rfl
        exact ⟨rfl, by omega⟩
      · rintro ⟨rfl, -⟩
        rfl

theorem length_published_le : (utterance gates threshold heard).2.length ≤ 1 := by
  rw [utterance]
  simp only [recognize]
  cases outcomeOf heard.text heard.wordConfidences threshold with
  | rejected rejection => simp
  | accepted found =>
    dsimp only
    split
    · exact Nat.zero_le 1
    · exact le_refl 1

/-- Enough confidences for the words are all at least the weakest one. -/
theorem confident_of_length (hstrong : threshold ≤ utteranceConfidence heard.wordConfidences)
    (hlength : (spokenWords heard.text).length ≤ heard.wordConfidences.length) :
    Confident threshold heard := by
  intro i hi
  have hbound : i < heard.wordConfidences.length := by
    omega
  refine ⟨heard.wordConfidences[i], List.getElem?_eq_getElem hbound, ?_⟩
  exact hstrong.trans (utteranceConfidence_le (List.getElem_mem hbound))

theorem Confident.length_le (h : Confident threshold heard) :
    (spokenWords heard.text).length ≤ heard.wordConfidences.length := by
  by_contra hlength
  obtain ⟨confidence, hconfidence, -⟩ := h heard.wordConfidences.length (by omega)
  rw [List.getElem?_eq_none (le_refl _)] at hconfidence
  cases hconfidence

/-- The route is sound exactly when a transcript that passes its checks holds only letters,
white space and punctuation and has a confidence for every word. -/
theorem utterance_sound_iff (gates : Gates) (threshold : ℚ) (heard : Transcription) :
    Sound gates threshold heard (utterance gates threshold heard).2 ↔
      ((∃ intent, Opens gates threshold heard intent) → Plain heard.text ∧
        (spokenWords heard.text).length ≤ heard.wordConfidences.length) := by
  constructor
  · rintro h ⟨intent, hopens⟩
    have hmem := mem_published_iff.mpr hopens
    exact ⟨plain_of_spells (h.spoken intent hmem), (h.confident intent hmem).length_le⟩
  · intro h
    have hspoken : ∀ intent ∈ (utterance gates threshold heard).2,
        Spells (spokenWords heard.text) intent := by
      intro intent hmem
      have hopens := mem_published_iff.mp hmem
      rw [spokenWords_eq (h ⟨intent, hopens⟩).1]
      exact spells_of_lookup hopens.phrase
    refine ⟨length_published_le, hspoken, ?_, ?_, ?_⟩
    · intro intent hmem
      have hopens := mem_published_iff.mp hmem
      exact confident_of_length hopens.strong (h ⟨intent, hopens⟩).2
    · intro intent hmem
      exact (mem_published_iff.mp hmem).matched
    · rintro ⟨word, hword, hother⟩
      rw [List.eq_nil_iff_forall_not_mem]
      intro intent hmem
      exact hother (mem_vocabulary_of_spells (hspoken intent hmem) word hword)

/-- One matched subscriber for each gate of a fleet of one. -/
def benchGates : Gates := ⟨fun _ => 1, 1⟩

/-- A word in another script, a number, and a word without a confidence. -/
theorem unspoken_gates_open :
    ¬ (∀ (gates : Gates) (threshold : ℚ) (heard : Transcription), 0 < threshold →
        threshold ≤ 1 → Sound gates threshold heard (utterance gates threshold heard).2) ∧
      (utterance benchGates (1 / 2) ⟨"不 launch".toList, [1, 1]⟩).2 = [launch] ∧
      (utterance benchGates (1 / 2) ⟨"2 abort".toList, [1, 1]⟩).2 = [abort] ∧
      (utterance benchGates (1 / 2)
        (transcribe ⟨some "come home".toList, [some (9 / 10), none]⟩)).2 = [comeHome] := by
  have hscript : (utterance benchGates (1 / 2) ⟨"不 launch".toList, [1, 1]⟩).2 = [launch] := by
    decide +kernel
  refine ⟨fun h => ?_, hscript, by decide +kernel, by decide +kernel⟩
  have hsound := h benchGates (1 / 2) ⟨"不 launch".toList, [1, 1]⟩ (by norm_num) (by norm_num)
  have hspoken := hsound.spoken launch (by rw [hscript]; exact List.mem_singleton_self _)
  exact absurd (plain_of_spells hspoken) (by decide +kernel)

end Mission10.Jarvis
