import Mission10.Engine.EngineNode
import Mission10.Library.PlainText

/-!
# Frames of the dump

A frame is the length of a JSON document in decimal digits, a line feed and the document.
The decoder looks at the length before it parses, but it takes the parsed document for an
object whose schema is a string. On a document of another shape it raises an
`AttributeError`, which is not the `ValueError` that its callers are promised.
-/
namespace Mission10.Engine

open PlainText

/-- How a JSON value looks to a program: the fields of an object, a string, or neither. -/
inductive JsonView (V : Type)
  | object (field : String → Option V)
  | string (text : String)
  | other

/-- The `json` module with the UTF-8 coding of its documents. The values are those of the
program, dictionaries up to the order of their keys; parsing raises only `ValueError`. -/
structure JsonModule (V : Type) where
  view : V → JsonView V
  dumps : V → List UInt8
  loads : List UInt8 → Except String V

/-- What `decode_frame` raises. -/
inductive DecodeFault
  | value (text : String)
  | badInteger
  | document (text : String)
  | unknownSchema (schema : String)
  | attribute (text : String)
deriving DecidableEq

/-- The exception is a `ValueError`. -/
def DecodeFault.isValueError : DecodeFault → Bool
  | .attribute _ => false
  | _ => true

/-- `_MAX_FRAME`. -/
def maxFrame : ℕ := 16 * 1024 * 1024

/-- `SCHEMA`. -/
def dumpSchema : String := "minefield-dump/1"

def lineFeed : UInt8 := 10

/-- `str(n).encode("ascii")`. -/
def decimalBytes (n : ℕ) : List UInt8 := (wholeDigits n).map fun digit => UInt8.ofNat (48 + digit)

def byteChar (byte : UInt8) : Char := Char.ofNat byte.toNat

/-- `int` of bytes: white space around, a sign, digits with single underscores between them,
and no more than 4300 digits. -/
def intOfBytes (bytes : List UInt8) : Except DecodeFault ℤ :=
  let text := (stripBytes bytes).map byteChar
  match readInt text with
  | none => .error .badInteger
  | some n => if 4300 < text.countP Char.isDigit then .error .badInteger else .ok n

/-- `schema.rsplit("/", 1)`: the first and the last of its parts. -/
def rsplitSlash (schema : List Char) : List Char × List Char :=
  let last := (schema.reverse.takeWhile (· ≠ '/')).reverse
  if '/' ∈ schema then (schema.take (schema.length - last.length - 1), last) else (schema, schema)

/-- The name and the major number of a schema. -/
def schemaMajor (schema : List Char) : List Char × List Char :=
  ((rsplitSlash schema).1, (rsplitSlash schema).2.takeWhile (· ≠ '.'))

def schemaKnown (schema : String) : Bool :=
  (schemaMajor schema.toList).1 = (rsplitSlash dumpSchema.toList).1 ∧
    (schemaMajor schema.toList).2 = (rsplitSlash dumpSchema.toList).2

section Frames

variable {V : Type} (json : JsonModule V)

/-- ASCII decimal length and line feed, then the document. -/
def encodeFrame (payload : V) : List UInt8 :=
  let body := json.dumps payload
  decimalBytes body.length ++ lineFeed :: body

/-- The part of `decode_frame` before the document is parsed: the document and the rest. -/
def splitFrame (data : List UInt8) : Except DecodeFault (List UInt8 × List UInt8) :=
  if lineFeed ∉ data then .error (.value "no length prefix")
  else
    let digits := data.takeWhile (· ≠ lineFeed)
    let after := data.drop (digits.length + 1)
    match intOfBytes digits with
    | .error fault => .error fault
    | .ok length =>
      if ¬ (0 < length ∧ length ≤ maxFrame) then
        .error (.value ("bad frame length " ++ toString length))
      else
        let body := after.take length.toNat
        if body.length < length.toNat then
          .error (.value ("short frame: " ++ toString body.length ++ " of " ++ toString length ++
            " bytes"))
        else .ok (body, after.drop length.toNat)

/-- `payload.get("schema", "")`, then the comparison with the current schema. -/
def checkSchema (payload : V) : Except DecodeFault Unit :=
  let check (schema : String) : Except DecodeFault Unit :=
    if schemaKnown schema then .ok () else .error (.unknownSchema schema)
  match json.view payload with
  | .object field =>
    match (field "schema").map json.view with
    | none => check ""
    | some (.string schema) => check schema
    | some _ => .error (.attribute "object has no attribute 'rsplit'")
  | _ => .error (.attribute "object has no attribute 'get'")

/-- Parse one frame off the front of the data. -/
def decodeFrame (data : List UInt8) : Except DecodeFault (V × List UInt8) := do
  let (body, rest) ← splitFrame data
  let payload ← (json.loads body).mapError .document
  checkSchema json payload
  return (payload, rest)

/-! ### What is encoded is decoded -/

theorem byteChar_digit {digit : ℕ} (h : digit < 10) :
    byteChar (UInt8.ofNat (48 + digit)) = Nat.digitChar digit := by
  interval_cases digit <;> decide

theorem digit_byte {digit : ℕ} (h : digit < 10) :
    isSpaceByte (UInt8.ofNat (48 + digit)) = false ∧ UInt8.ofNat (48 + digit) ≠ lineFeed := by
  interval_cases digit <;> decide

/-- Bytes without white space are stripped of nothing. -/
theorem stripBytes_eq {bytes : List UInt8} (h : ∀ b ∈ bytes, isSpaceByte b = false) :
    stripBytes bytes = bytes := by
  have hdrop : ∀ {list : List UInt8}, (∀ b ∈ list, isSpaceByte b = false) →
      list.dropWhile isSpaceByte = list := by
    intro list hlist
    cases list with
    | nil => rfl
    | cons b rest => simp [hlist b List.mem_cons_self]
  unfold stripBytes
  rw [hdrop h, hdrop fun b hb => h b (List.mem_reverse.mp hb), List.reverse_reverse]

theorem map_decimalBytes (n : ℕ) :
    (decimalBytes n).map byteChar = (wholeDigits n).map Nat.digitChar := by
  rw [decimalBytes, List.map_map]
  apply List.map_congr_left
  intro digit hdigit
  exact byteChar_digit (wholeDigits_lt digit hdigit)

theorem signOf_digits {digits : List ℕ} (h : ∀ digit ∈ digits, digit < 10) :
    signOf (digits.map Nat.digitChar) = (false, digits.map Nat.digitChar) := by
  cases digits with
  | nil => rfl
  | cons digit digits =>
    have hplain := (digitChar_plain (h digit List.mem_cons_self)).1
    rw [List.map_cons]
    unfold signOf
    split
    · rename_i heq
      rw [(List.cons.inj heq).1] at hplain
      simp at hplain
    · rename_i heq
      rw [(List.cons.inj heq).1] at hplain
      simp at hplain
    · rfl

theorem readInt_wholeDigits (n : ℕ) :
    readInt ((wholeDigits n).map Nat.digitChar) = some (n : ℤ) := by
  unfold readInt
  rw [signOf_digits wholeDigits_lt]
  dsimp only
  rw [digitRun_digits wholeDigits_lt (wholeDigits_ne_nil n), Option.map_some,
    digitsToNat_wholeDigits]
  rfl

/-- The length of a frame has few digits. -/
theorem length_wholeDigits_le {n : ℕ} (h : n ≤ maxFrame) : (wholeDigits n).length ≤ 8 := by
  unfold wholeDigits
  split_ifs
  · simp
  · rw [List.length_reverse, Nat.digits_length_le_iff (by omega)]
    exact h.trans_lt (by decide)

theorem intOfBytes_decimal {n : ℕ} (h : n ≤ maxFrame) : intOfBytes (decimalBytes n) = .ok n := by
  have hspace : ∀ b ∈ decimalBytes n, isSpaceByte b = false := by
    intro b hb
    obtain ⟨digit, hdigit, rfl⟩ := List.mem_map.mp hb
    exact (digit_byte (wholeDigits_lt digit hdigit)).1
  have hcount : ((wholeDigits n).map Nat.digitChar).countP Char.isDigit ≤ 8 := by
    refine List.countP_le_length.trans ?_
    rw [List.length_map]
    exact length_wholeDigits_le h
  unfold intOfBytes
  dsimp only
  rw [stripBytes_eq hspace, map_decimalBytes, readInt_wholeDigits]
  exact if_neg (by omega)

theorem lineFeed_notMem_decimal (n : ℕ) : ∀ b ∈ decimalBytes n, decide (b ≠ lineFeed) = true := by
  intro b hb
  obtain ⟨digit, hdigit, rfl⟩ := List.mem_map.mp hb
  exact decide_eq_true (digit_byte (wholeDigits_lt digit hdigit)).2

theorem splitFrame_encoded {body : List UInt8} (hbody : body ≠ []) (h : body.length ≤ maxFrame)
    (rest : List UInt8) :
    splitFrame (decimalBytes body.length ++ lineFeed :: body ++ rest) = .ok (body, rest) := by
  have hpos : 0 < body.length := List.length_pos_iff.mpr hbody
  have hdigits : (decimalBytes body.length ++ lineFeed :: body ++ rest).takeWhile
      (· ≠ lineFeed) = decimalBytes body.length := by
    rw [List.append_assoc, List.takeWhile_append_of_pos (lineFeed_notMem_decimal _)]
    simp
  have hafter : (decimalBytes body.length ++ lineFeed :: body ++ rest).drop
      ((decimalBytes body.length).length + 1) = body ++ rest := by
    rw [List.append_assoc, ← List.drop_drop, List.drop_left]
    rfl
  unfold splitFrame
  rw [if_neg (by simp)]
  dsimp only
  rw [hdigits, hafter, intOfBytes_decimal h]
  dsimp only
  rw [if_neg (by omega), Int.toNat_natCast, List.take_left, if_neg (lt_irrefl _), List.drop_left]

/-- A document of the current schema: an object whose field says so. -/
def CarriesSchema (payload : V) : Prop :=
  ∃ field value, json.view payload = .object field ∧ field "schema" = some value ∧
    json.view value = .string dumpSchema

theorem checkSchema_current {payload : V} (h : CarriesSchema json payload) :
    checkSchema json payload = .ok () := by
  obtain ⟨field, value, hpayload, hfield, hvalue⟩ := h
  have hknown : schemaKnown dumpSchema = true := by decide
  unfold checkSchema
  simp only [hpayload, hfield, Option.map_some, hvalue]
  exact if_pos hknown

/-- A frame is decoded to its payload, and what follows it is left. -/
theorem decodeFrame_encodeFrame {payload : V} (hschema : CarriesSchema json payload)
    (hloads : json.loads (json.dumps payload) = .ok payload) (hbody : json.dumps payload ≠ [])
    (hlimit : (json.dumps payload).length ≤ maxFrame) (rest : List UInt8) :
    decodeFrame json (encodeFrame json payload ++ rest) = .ok (payload, rest) := by
  unfold decodeFrame encodeFrame
  dsimp only
  rw [splitFrame_encoded hbody hlimit rest]
  simp only [bind, Except.bind, hloads, Except.mapError, checkSchema_current json hschema]
  rfl

/-! ### What the decoder raises -/

/-- The outcome is a result or a `ValueError`. -/
def Answered {α : Type} : Except DecodeFault α → Prop
  | .ok _ => True
  | .error fault => fault.isValueError = true

/-- An object whose schema, if it has one, is a string. -/
def WellShaped (payload : V) : Prop :=
  ∃ field, json.view payload = .object field ∧
    ∀ value, field "schema" = some value → ∃ schema, json.view value = .string schema

theorem intOfBytes_fault {bytes : List UInt8} {fault : DecodeFault}
    (h : intOfBytes bytes = .error fault) : fault.isValueError = true := by
  unfold intOfBytes at h
  dsimp only at h
  split at h
  · rw [← Except.error.inj h]
    rfl
  · split_ifs at h
    rw [← Except.error.inj h]
    rfl

theorem splitFrame_fault {data : List UInt8} {fault : DecodeFault}
    (h : splitFrame data = .error fault) : fault.isValueError = true := by
  unfold splitFrame at h
  dsimp only at h
  split_ifs at h
  · split at h
    · rename_i hint
      rw [← Except.error.inj h]
      exact intOfBytes_fault hint
    · split_ifs at h
      · rw [← Except.error.inj h]
        rfl
      · rw [← Except.error.inj h]
        rfl
  · rw [← Except.error.inj h]
    rfl

theorem wellShaped_object {payload : V} {field : String → Option V}
    (h : json.view payload = .object field) : WellShaped json payload ↔
      ∀ value, field "schema" = some value → ∃ schema, json.view value = .string schema := by
  constructor
  · rintro ⟨field', hfield', hstring⟩
    obtain rfl : field' = field := JsonView.object.inj (hfield'.symm.trans h)
    exact hstring
  · exact fun hstring => ⟨field, h, hstring⟩

/-- The schema check asks for an object and for a string in it. -/
theorem checkSchema_answered_iff (payload : V) :
    Answered (checkSchema json payload) ↔ WellShaped json payload := by
  have hcheck : ∀ schema, Answered (if schemaKnown schema then .ok () else
      .error (.unknownSchema schema) : Except DecodeFault Unit) := by
    intro schema
    split_ifs
    · trivial
    · rfl
  unfold checkSchema
  dsimp only
  cases hview : json.view payload with
  | object field =>
    rw [wellShaped_object json hview]
    dsimp only
    cases hfield : field "schema" with
    | none => exact iff_of_true (hcheck "") (by simp)
    | some value =>
      rw [Option.map_some]
      cases hvalue : json.view value with
      | string schema => exact iff_of_true (hcheck schema) (by simp [hvalue])
      | object other =>
        exact iff_of_false (by simp [Answered, DecodeFault.isValueError]) (by simp [hvalue])
      | other =>
        exact iff_of_false (by simp [Answered, DecodeFault.isValueError]) (by simp [hvalue])
  | string text =>
    exact iff_of_false (by simp [Answered, DecodeFault.isValueError]) (by simp [WellShaped, hview])
  | other =>
    exact iff_of_false (by simp [Answered, DecodeFault.isValueError]) (by simp [WellShaped, hview])

theorem answered_bind {α : Type} (x : Except DecodeFault Unit) (y : α) :
    Answered (x >>= fun _ => pure y) ↔ Answered x := by
  cases x with
  | error fault => exact Iff.rfl
  | ok _ => exact Iff.rfl

/-- The decoder answers unless the frame is whole and its document of another shape. -/
theorem decodeFrame_answered_iff (data : List UInt8) :
    Answered (decodeFrame json data) ↔ ∀ body rest payload,
      splitFrame data = .ok (body, rest) → json.loads body = .ok payload →
        WellShaped json payload := by
  cases hsplit : splitFrame data with
  | error fault =>
    have hdecode : decodeFrame json data = .error fault := by
      unfold decodeFrame
      rw [hsplit]
      rfl
    rw [hdecode]
    exact iff_of_true (splitFrame_fault hsplit) (by simp)
  | ok frame =>
    obtain ⟨body, rest⟩ := frame
    cases hloads : json.loads body with
    | error text =>
      have hdecode : decodeFrame json data = .error (.document text) := by
        unfold decodeFrame
        rw [hsplit]
        change ((json.loads body).mapError _ >>= _) = _
        rw [hloads]
        rfl
      rw [hdecode]
      refine iff_of_true rfl fun body' rest' payload hsame hpayload => ?_
      obtain ⟨rfl, rfl⟩ := Prod.mk.inj (Except.ok.inj hsame)
      exact absurd (hloads.symm.trans hpayload) (by simp)
    | ok payload =>
      have hdecode : decodeFrame json data =
          (checkSchema json payload >>= fun _ => pure (payload, rest)) := by
        unfold decodeFrame
        rw [hsplit]
        change ((json.loads body).mapError _ >>= _) = _
        rw [hloads]
        rfl
      rw [hdecode, answered_bind, checkSchema_answered_iff]
      constructor
      · intro hshape body' rest' payload' hsame hpayload
        obtain ⟨rfl, rfl⟩ := Prod.mk.inj (Except.ok.inj hsame)
        rwa [← Except.ok.inj (hloads.symm.trans hpayload)]
      · intro hall
        exact hall body rest payload rfl hloads

/-- Every frame of the current schema is decoded to its payload and what follows it; and the
decoder returns or raises `ValueError` exactly when the document, if the frame holds one, is
an object whose schema, if it has one, is a string. -/
theorem dump_frames (json : JsonModule V) :
    (∀ payload rest, CarriesSchema json payload → json.loads (json.dumps payload) = .ok payload →
      json.dumps payload ≠ [] → (json.dumps payload).length ≤ maxFrame →
        decodeFrame json (encodeFrame json payload ++ rest) = .ok (payload, rest)) ∧
      ∀ data, Answered (decodeFrame json data) ↔ ∀ body rest payload,
        splitFrame data = .ok (body, rest) → json.loads body = .ok payload →
          WellShaped json payload :=
  ⟨fun _ rest hschema hloads hbody hlimit =>
    decodeFrame_encodeFrame json hschema hloads hbody hlimit rest,
    decodeFrame_answered_iff json⟩

end Frames

/-- Three values: an object of the current schema, its schema, and an empty list. -/
inductive SmallValue
  | payload
  | schema
  | list
deriving DecidableEq

/-- `{"schema":"minefield-dump/1"}`. -/
def smallDocument : List UInt8 :=
  [123, 34, 115, 99, 104, 101, 109, 97, 34, 58, 34, 109, 105, 110, 101, 102, 105, 101, 108, 100, 45,
    100, 117, 109, 112, 47, 49, 34, 125]

/-- The module on the documents of the three values. -/
def smallJson : JsonModule SmallValue where
  view
    | .payload => .object fun name => if name = "schema" then some .schema else none
    | .schema => .string dumpSchema
    | .list => .other
  dumps
    | .payload => smallDocument
    | .schema => 34 :: (dumpSchema.toUTF8.toList ++ [34])
    | .list => [91, 93]
  loads body :=
    if body = smallDocument then .ok .payload
    else if body = [91, 93] then .ok .list
    else .error "not a document"

theorem dump_frames_small :
    decodeFrame smallJson (encodeFrame smallJson .payload ++ [116, 97, 105, 108]) =
      .ok (.payload, [116, 97, 105, 108]) := by
  refine (dump_frames smallJson).1 .payload [116, 97, 105, 108] ?_ rfl (by decide) (by decide)
  exact ⟨_, .schema, rfl, rfl, rfl⟩

/-- The document `[]` in a whole frame makes the decoder raise an `AttributeError`. -/
theorem list_document_raises : ¬ ∀ (V : Type) (json : JsonModule V) (data : List UInt8),
    Answered (decodeFrame json data) := by
  intro hall
  have hraises : decodeFrame smallJson [50, 10, 91, 93] =
      .error (.attribute "object has no attribute 'get'") := by
    decide +kernel
  have hanswered := hall SmallValue smallJson [50, 10, 91, 93]
  rw [hraises] at hanswered
  cases hanswered

end Mission10.Engine
