import PaymentWorkflow.Runs
import PaymentWorkflow.StampProofs

/-! When the adapter's receipt is one the API can accept. -/

namespace PaymentWorkflow

open Python (CodePoint Text Value literal encode decode dumps loads)

/-! What `validate_legacy` has checked. -/

structure Callback where
  paymentId : Text
  operationId : Text
  occurredAt : Text
  result : Text

def Callback.members (callback : Callback) : List (Text × Value) := [
  (literal "externalRequestId", .text callback.operationId),
  (literal "messageId", .text callback.paymentId),
  (literal "occurredAt", .text callback.occurredAt),
  (literal "outcome", .text callback.result),
  (literal "providerPaymentId", .text callback.paymentId),
  (literal "version", .int 1)]

def Callback.receipt (callback : Callback) : Value := .dict callback.members

def Callback.legacy (callback : Callback) (message : Text) : Value := .dict [
  (literal "providerPaymentId", .text callback.paymentId),
  (literal "operationId", .text callback.operationId),
  (literal "result", .text callback.result),
  (literal "message", .text message),
  (literal "occurredAt", .text callback.occurredAt)]

structure Callback.Valid (callback : Callback) : Prop where
  paymentId : callback.paymentId ≠ [] ∧ callback.paymentId.length ≤ 128 ∧
    isOneLine callback.paymentId = true
  operationId : callback.operationId ≠ [] ∧ callback.operationId.length ≤ 128 ∧
    isOneLine callback.operationId = true
  occurredAt : isOneLine callback.occurredAt = true
  stamped : isLegacyOccurredAt callback.occurredAt = true
  result : callback.result = literal "COMPLETED" ∨ callback.result = literal "REJECTED"

theorem legacyText_ok {members : List (Text × Value)} {field : String} {content : Text}
    (read : legacyText members field = .ok content) :
    get? members (literal field) = some (.text content) ∧ content ≠ [] ∧
      content.length ≤ 128 ∧ isOneLine content = true := by
  unfold legacyText at read
  split at read
  · rename_i shown found
    split at read
    · rename_i checked
      cases read
      exact ⟨found, checked⟩
    · cases read
  · cases read

theorem legacyResult_ok {members : List (Text × Value)}
    (judged : legacyResult members = .ok ()) :
    ∃ result, get? members (literal "result") = some (.text result) ∧
      (result = literal "COMPLETED" ∨ result = literal "REJECTED") := by
  unfold legacyResult at judged
  split at judged
  · rename_i result found
    split at judged
    · exact ⟨result, found, ‹_›⟩
    · cases judged
  · cases judged

theorem validateLegacy_ok {legacy : Value} (accepted : validateLegacy legacy = .ok ()) :
    ∃ callback : Callback, callback.Valid ∧
      Value.field legacy "providerPaymentId" = .text callback.paymentId ∧
      Value.field legacy "operationId" = .text callback.operationId ∧
      Value.field legacy "occurredAt" = .text callback.occurredAt ∧
      Value.field legacy "result" = .text callback.result := by
  unfold validateLegacy at accepted
  split at accepted
  · rename_i members
    obtain ⟨_, _, accepted⟩ := Runs.bind_eq_ok.mp accepted
    obtain ⟨paymentId, first, accepted⟩ := Runs.bind_eq_ok.mp accepted
    obtain ⟨operationId, second, accepted⟩ := Runs.bind_eq_ok.mp accepted
    obtain ⟨occurredAt, third, accepted⟩ := Runs.bind_eq_ok.mp accepted
    obtain ⟨_, stamped, accepted⟩ := Runs.bind_eq_ok.mp accepted
    obtain ⟨_, judged, _⟩ := Runs.bind_eq_ok.mp accepted
    obtain ⟨firstRead, firstChecked⟩ := legacyText_ok first
    obtain ⟨secondRead, secondChecked⟩ := legacyText_ok second
    obtain ⟨thirdRead, thirdChecked⟩ := legacyText_ok third
    obtain ⟨result, found, known⟩ := legacyResult_ok judged
    refine ⟨⟨paymentId, operationId, occurredAt, result⟩,
      ⟨firstChecked, secondChecked, thirdChecked.2.2, ?_, known⟩, ?_, ?_, ?_, ?_⟩
    · unfold legacyOccurredAt at stamped
      split at stamped
      · assumption
      · cases stamped
    · simp only [Value.field, firstRead, Option.getD_some]
    · simp only [Value.field, secondRead, Option.getD_some]
    · simp only [Value.field, thirdRead, Option.getD_some]
    · simp only [Value.field, found, Option.getD_some]
  · cases accepted

theorem normalizeReceipt_ok {legacy : Value} {callback : Callback}
    (accepted : validateLegacy legacy = .ok ())
    (paymentId : Value.field legacy "providerPaymentId" = .text callback.paymentId)
    (operationId : Value.field legacy "operationId" = .text callback.operationId)
    (occurredAt : Value.field legacy "occurredAt" = .text callback.occurredAt)
    (result : Value.field legacy "result" = .text callback.result) :
    normalizeReceipt legacy = .ok callback.receipt := by
  simp only [normalizeReceipt, accepted, paymentId, operationId, occurredAt, result]
  rfl

/-! The bytes. -/

namespace Callback

variable (callback : Callback)

theorem keys_sorted : (callback.members.map Prod.fst).Pairwise
    fun left right => Python.inOrder left right = true := by
  simp only [members, List.map_cons, List.map_nil]
  decide

theorem keys_nodup : (callback.members.map Prod.fst).Nodup := by
  simp only [members, List.map_cons, List.map_nil]
  decide

/-- The text the encoder is given holds a surrogate where a field does. -/
theorem dumps_surrogate : (dumps true callback.receipt).any CodePoint.isSurrogate =
    (callback.paymentId.any CodePoint.isSurrogate ||
      callback.operationId.any CodePoint.isSurrogate ||
      callback.occurredAt.any CodePoint.isSurrogate ||
      callback.result.any CodePoint.isSurrogate) := by
  rw [receipt, Python.dumps_surrogate callback.keys_sorted]
  simp only [members, List.any_cons, List.any_nil, Python.literal_scalar, dumps,
    Python.quoted_surrogate, Bool.false_or]
  cases callback.paymentId.any CodePoint.isSurrogate <;>
    cases callback.operationId.any CodePoint.isSurrogate <;>
      cases callback.occurredAt.any CodePoint.isSurrogate <;>
        cases callback.result.any CodePoint.isSurrogate <;> rfl

variable {callback}

theorem canonicalBytes_isSome : (canonicalBytes callback.receipt).isSome = true ↔
    callback.paymentId.any CodePoint.isSurrogate = false ∧
      callback.operationId.any CodePoint.isSurrogate = false ∧
      callback.occurredAt.any CodePoint.isSurrogate = false ∧
      callback.result.any CodePoint.isSurrogate = false := by
  rw [canonicalBytes, encode, dumps_surrogate]
  split
  · rename_i surrogate
    simp only [Option.isSome_none, Bool.false_eq_true, false_iff]
    rintro ⟨first, second, third, fourth⟩
    simp [first, second, third, fourth] at surrogate
  · rename_i plain
    simpa [and_assoc] using plain

theorem loads_canonicalBytes {bytes : ByteArray}
    (encoded : canonicalBytes callback.receipt = some bytes) :
    (decode bytes).bind loads = some callback.receipt := by
  obtain ⟨first, second, third, fourth⟩ :=
    canonicalBytes_isSome.mp (Option.isSome_iff_exists.mpr ⟨bytes, encoded⟩)
  rw [Python.decode_encode encoded, Option.bind_some, receipt]
  refine Python.loads_dumps callback.keys_sorted (List.cons_ne_nil _ _) ?_ callback.keys_nodup
  intro member inside
  simp only [members, List.mem_cons, List.not_mem_nil, or_false] at inside
  rcases inside with rfl | rfl | rfl | rfl | rfl | rfl
  · exact Python.Member.flat_text (Python.literal_scalar _) second
  · exact Python.Member.flat_text (Python.literal_scalar _) first
  · exact Python.Member.flat_text (Python.literal_scalar _) third
  · exact Python.Member.flat_text (Python.literal_scalar _) fourth
  · exact Python.Member.flat_text (Python.literal_scalar _) first
  · exact Python.Member.flat_one (Python.literal_scalar _)

/-- What the request schema asks of the receipt, beyond what `validate_legacy` has checked. -/
theorem meetsReceiptSchema_iff (valid : callback.Valid) :
    meetsReceiptSchema callback.receipt = true ↔
      isDateTime callback.occurredAt = true ∧ callback.occurredAt.length ≤ 64 := by
  have properties : meetsReceiptSchema callback.receipt =
      (isIdText (.text callback.operationId) && (isIdText (.text callback.paymentId) &&
        (isOccurredAtText (.text callback.occurredAt) && (isOutcomeText (.text callback.result) &&
          (isIdText (.text callback.paymentId) && (isOne (.int 1) && true)))))) := by
    simp only [meetsReceiptSchema, receipt]
    rfl
  obtain ⟨stamp, fraction, read, trailing, _⟩ := isLegacyOccurredAt_shape valid.stamped
  have ends := getLast?_stamp read trailing
  simp [properties, isIdText, isOccurredAtText, isOutcomeText, isOne, valid.paymentId,
    valid.operationId, valid.occurredAt, valid.result, ends]

theorem storedText?_literal (name : String)
    (plain : (name.toList.all fun char => char.toNat != 0) = true) :
    storedText? (literal name) = some name := by
  have kept : (literal name).any (fun point => point.isSurrogate || point.number = 0) = false := by
    rw [literal, List.any_map, List.any_eq_false]
    intro char member
    have visible : (CodePoint.ofChar char).number ≠ 0 :=
      bne_iff_ne.mp (List.all_eq_true.mp plain char member)
    simp [CodePoint.isSurrogate_ofChar, visible]
  have chars : (literal name).map CodePoint.toChar = name.toList := by
    rw [literal, List.map_map]
    refine (List.map_congr_left fun char _ => ?_).trans (List.map_id name.toList)
    exact CodePoint.toChar_ofChar char
  rw [storedText?, if_neg (by rw [kept]; exact Bool.false_ne_true), chars, String.ofList_toList]

theorem storedReceipt?_eq : storedReceipt? callback.receipt =
    (storedText? callback.operationId).bind fun operationId =>
      (storedText? callback.paymentId).bind fun paymentId =>
        (storedText? callback.occurredAt).bind fun occurredAt =>
          (storedText? callback.result).map fun result => .object [
            ("externalRequestId", .text operationId), ("messageId", .text paymentId),
            ("occurredAt", .text occurredAt), ("outcome", .text result),
            ("providerPaymentId", .text paymentId), ("version", .number (.ofInt 1))] := by
  simp only [storedReceipt?, receipt, members, List.mapM_cons, List.mapM_nil, storedMember?,
    storedText?_literal "externalRequestId" rfl, storedText?_literal "messageId" rfl,
    storedText?_literal "occurredAt" rfl, storedText?_literal "outcome" rfl,
    storedText?_literal "providerPaymentId" rfl, storedText?_literal "version" rfl]
  cases storedText? callback.operationId with
  | none => rfl
  | some operationId =>
      cases storedText? callback.paymentId with
      | none => rfl
      | some paymentId =>
          cases storedText? callback.occurredAt with
          | none => rfl
          | some occurredAt => cases storedText? callback.result <;> rfl

end Callback

/-- The receipt made of `legacy` is encoded, is what the bytes decode to, meets the request schema,
can be stored as jsonb, and passes the `occurredAt` check. -/
def Acceptable (legacy : Value) : Prop :=
  ∃ receipt bytes payload, normalizeReceipt legacy = .ok receipt ∧
    canonicalBytes receipt = some bytes ∧ (decode bytes).bind loads = some receipt ∧
    meetsReceiptSchema receipt = true ∧ storedReceipt? receipt = some payload ∧
    (payload.text? "occurredAt").any isOccurredAt = true

structure Sendable (legacy : Value) : Prop where
  paymentId : ∀ content, Value.field legacy "providerPaymentId" = .text content →
    ∀ point ∈ content, point.isSurrogate = false ∧ point.number ≠ 0
  operationId : ∀ content, Value.field legacy "operationId" = .text content →
    ∀ point ∈ content, point.isSurrogate = false ∧ point.number ≠ 0
  occurredAt : ∀ content, Value.field legacy "occurredAt" = .text content →
    content.length ≤ 64 ∧ ∀ point ∈ content, point.number < 128

theorem storedText?_isSome {content : Text} : (storedText? content).isSome = true ↔
    ∀ point ∈ content, point.isSurrogate = false ∧ point.number ≠ 0 := by
  rw [storedText?]
  split
  · rename_i found
    obtain ⟨point, member, bad⟩ := List.any_eq_true.mp found
    simp only [Option.isSome_none, Bool.false_eq_true, false_iff]
    intro plain
    obtain ⟨scalar, visible⟩ := plain point member
    simp [scalar, visible] at bad
  · rename_i none
    simpa using none

theorem storedText?_some {content : Text} {stored : String}
    (kept : storedText? content = some stored) :
    stored = String.ofList (content.map CodePoint.toChar) := by
  rw [storedText?] at kept
  split at kept
  · cases kept
  · exact (Option.some.inj kept).symm

/-- A callback `validate_legacy` accepts becomes a receipt the API can accept exactly where its
texts are ones that UTF-8, jsonb and the two checks of `occurredAt` take. -/
theorem receipt_acceptable {legacy : Value} (accepted : validateLegacy legacy = .ok ()) :
    Acceptable legacy ↔ Sendable legacy := by
  obtain ⟨callback, valid, paymentId, operationId, occurredAt, result⟩ := validateLegacy_ok accepted
  have normalized := normalizeReceipt_ok accepted paymentId operationId occurredAt result
  obtain ⟨stamp, fraction, read, trailing, separated, year, month, day, hour, minute, second,
    fields⟩ := isLegacyOccurredAt_shape valid.stamped
  have dateTime := isDateTime_iff read trailing separated fields
  constructor
  · rintro ⟨receipt, bytes, payload, made, encoded, _, schema, stored, _⟩
    rw [normalized] at made
    cases made
    obtain ⟨dated, short⟩ := (Callback.meetsReceiptSchema_iff valid).mp schema
    have points := stampPoints read trailing separated fields (dateTime.mp dated)
    rw [Callback.storedReceipt?_eq] at stored
    obtain ⟨first, storedFirst, stored⟩ := Option.bind_eq_some_iff.mp stored
    obtain ⟨second, storedSecond, _⟩ := Option.bind_eq_some_iff.mp stored
    refine ⟨fun content shown => ?_, fun content shown => ?_, fun content shown => ?_⟩
    · rw [paymentId] at shown
      cases shown
      exact storedText?_isSome.mp (Option.isSome_iff_exists.mpr ⟨second, storedSecond⟩)
    · rw [operationId] at shown
      cases shown
      exact storedText?_isSome.mp (Option.isSome_iff_exists.mpr ⟨first, storedFirst⟩)
    · rw [occurredAt] at shown
      cases shown
      refine ⟨short, fun point member => ?_⟩
      have bound := isStampPoint_iff.mp (List.all_eq_true.mp points point member)
      omega
  · intro sendable
    have plainPayment := sendable.paymentId _ paymentId
    have plainOperation := sendable.operationId _ operationId
    obtain ⟨short, ascii⟩ := sendable.occurredAt _ occurredAt
    have digits := fraction_of_ascii read trailing ascii
    have points := List.all_eq_true.mp (stampPoints read trailing separated fields digits)
    have plainStamp : ∀ point ∈ callback.occurredAt,
        point.isSurrogate = false ∧ point.number ≠ 0 := by
      intro point member
      obtain ⟨low, high⟩ := isStampPoint_iff.mp (points point member)
      refine ⟨?_, by omega⟩
      rw [CodePoint.isSurrogate, Bool.and_eq_false_iff]
      exact .inl (decide_eq_false (by omega))
    have plainResult : ∀ point ∈ callback.result,
        point.isSurrogate = false ∧ point.number ≠ 0 := by
      rcases valid.result with same | same
      · rw [same]
        decide
      · rw [same]
        decide
    obtain ⟨first, storedFirst⟩ := Option.isSome_iff_exists.mp (storedText?_isSome.mpr plainOperation)
    obtain ⟨second, storedSecond⟩ := Option.isSome_iff_exists.mp (storedText?_isSome.mpr plainPayment)
    obtain ⟨third, storedThird⟩ := Option.isSome_iff_exists.mp (storedText?_isSome.mpr plainStamp)
    obtain ⟨fourth, storedFourth⟩ := Option.isSome_iff_exists.mp (storedText?_isSome.mpr plainResult)
    have stored := @Callback.storedReceipt?_eq callback
    rw [storedFirst, storedSecond, storedThird, storedFourth] at stored
    have scalar : ∀ {content : Text}, (∀ point ∈ content,
        point.isSurrogate = false ∧ point.number ≠ 0) →
        content.any CodePoint.isSurrogate = false := fun plain =>
      List.any_eq_false.mpr fun point member => by simp [(plain point member).1]
    obtain ⟨bytes, encoded⟩ := Option.isSome_iff_exists.mp (Callback.canonicalBytes_isSome.mpr
      ⟨scalar plainPayment, scalar plainOperation, scalar plainStamp, scalar plainResult⟩)
    refine ⟨callback.receipt, bytes, _, normalized, encoded, Callback.loads_canonicalBytes encoded,
      (Callback.meetsReceiptSchema_iff valid).mpr ⟨dateTime.mpr digits, short⟩, stored, ?_⟩
    have third := storedText?_some storedThird
    have checked := isOccurredAt_text read trailing separated fields digits short
    rw [← third] at checked
    exact checked

def Callback.sample : Callback where
  paymentId := literal "PAY-1"
  operationId := literal "OP-1"
  occurredAt := literal "2026-07-15T10:20:30Z"
  result := literal "COMPLETED"

theorem receipt_acceptable_sample : Acceptable (Callback.sample.legacy (literal "done")) := by
  refine (receipt_acceptable rfl).mpr ⟨?_, ?_, ?_⟩
  · intro content shown
    cases shown
    decide
  · intro content shown
    cases shown
    decide
  · intro content shown
    cases shown
    decide

def Callback.loneSurrogate : Callback :=
  { Callback.sample with operationId := [⟨0xD800, by decide⟩] }

theorem lone_surrogate_refused :
    validateLegacy (Callback.loneSurrogate.legacy (literal "done")) = .ok () ∧
      canonicalBytes Callback.loneSurrogate.receipt = none ∧
      ¬ Acceptable (Callback.loneSurrogate.legacy (literal "done")) := by
  have refused : canonicalBytes Callback.loneSurrogate.receipt = none := by
    rw [← Option.not_isSome_iff_eq_none, Callback.canonicalBytes_isSome]
    decide
  refine ⟨rfl, refused, ?_⟩
  rintro ⟨receipt, bytes, payload, made, encoded, _⟩
  have same : receipt = Callback.loneSurrogate.receipt := (Except.ok.inj made).symm
  rw [same, refused] at encoded
  cases encoded

end PaymentWorkflow
