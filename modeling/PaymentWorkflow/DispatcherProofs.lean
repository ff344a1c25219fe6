import PaymentWorkflow.DispatcherCore
import PaymentWorkflow.SystemRuns

/-!
Which behaviour of the provider leaves every row of a claimed batch with one POST and one report
of what it was answered.
-/

namespace PaymentWorkflow.Dispatcher

open Python (CodePoint Text Value literal)

structure StrictBody (members : List (Text × Value)) (paymentId : Text) : Prop where
  fields : ∀ member ∈ members, member.1 = literal "providerPaymentId" ∨ member.1 = literal "status"
  payment : get? members (literal "providerPaymentId") = some (.text paymentId)
  status : get? members (literal "status") = some (.text (literal "ACCEPTED"))
  filled : paymentId ≠ []

def IsAcceptance (libraries : Libraries) (body : ByteArray) (paymentId : Text) : Prop :=
  ∃ text members, Python.decode body = some text ∧
    libraries.loads text = .value (.dict members) ∧ StrictBody members paymentId

def Reply.own? : Reply → Option (Nat × Except Fault ByteArray)
  | .broken _ | .statusless _ => none
  | .answered status body | .redirect status body _ _ | .misdirected status body =>
      some (status, body)

def Reply.Accepted (libraries : Libraries) (reply : Reply) (stored : String) : Prop :=
  ∃ body paymentId, reply.own? = some (202, .ok body) ∧ IsAcceptance libraries body paymentId ∧
    libraries.bind paymentId = .taken stored

structure Ordinary (libraries : Libraries) (method : Method) (status : Nat)
    (body : Except Fault ByteArray) : Prop where
  response : 200 ≤ status ∧ status < 300 → body ≠ .error .other
  refusal : ¬ (200 ≤ status ∧ status < 300) → ∃ bytes, body = .ok bytes
  parses : status = 202 → ∀ bytes text, body = .ok bytes → Python.decode bytes = some text →
    libraries.loads text ≠ .raised
  acceptance : status = 202 → ∀ bytes paymentId, body = .ok bytes →
    IsAcceptance libraries bytes paymentId →
      method = .post ∧ ∃ stored, libraries.bind paymentId = .taken stored

/--
A connection breaks with an OSError only, an error's body can be read, a redirect has a Location
that can be taken apart, and what it leads to has a status and is no acceptance.
-/
def Reply.Orderly (libraries : Libraries) (method : Method) (visited : List String) : Reply → Prop
  | .broken fault => fault = .os
  | .answered status body => Ordinary libraries method status body
  | .statusless body => body = .error .os
  | .redirect status body url target =>
      if method.follows status ∧ ¬ isLoop visited url then
        match body with
        | .error fault => fault = .os
        | .ok _ => target.Orderly libraries .get (url :: visited)
      else Ordinary libraries method status body
  | .misdirected status body => ¬ isRedirect status ∧ Ordinary libraries method status body

structure Report.Fits (libraries : Libraries) (config : DispatcherConfig) (reply : Reply)
    (row : OutboxClaim) (report : Report) : Prop where
  owner : report.owner = config.owner
  delivery : report.outboxId = row.outboxId
  lease : report.leaseVersion = row.leaseVersion
  earned : ∀ stored, report.result = .ok stored → reply.Accepted libraries stored

def Event.isFetch : Event → Bool
  | .fetched => true
  | _ => false

/-- For each row in turn its POST and after it a report of it, the GETs apart. -/
def OneEach (libraries : Libraries) (config : DispatcherConfig) (outside : Outside) :
    List OutboxClaim → List Event → Prop
  | [], events => events = []
  | row :: rest, events => ∃ request report later,
      buildProviderRequest config row = some request ∧
        report.Fits libraries config (outside.provider row) row ∧
        events = .posted request :: .reported report :: later ∧
        OneEach libraries config outside rest later

def Run.Delivers (libraries : Libraries) (config : DispatcherConfig) (outside : Outside)
    (rows : List OutboxClaim) (run : Run) : Prop :=
  run.aborted = false ∧
    OneEach libraries config outside rows (run.events.filter fun event => !event.isFetch)

/-! The body of an answer. -/

theorem isText_iff {value : Option Value} {content : Text} :
    isText value content = true ↔ value = some (.text content) := by
  unfold isText
  split
  · simp
  · rename_i other
    simp only [Bool.false_eq_true, false_iff]
    exact fun same => other content same

theorem acceptedPayment?_eq_some {value : Value} {paymentId : Text} :
    acceptedPayment? value = some paymentId ↔
      ∃ members, value = .dict members ∧ StrictBody members paymentId := by
  constructor
  · intro accepted
    unfold acceptedPayment? at accepted
    split at accepted
    · rename_i members
      split at accepted
      · rename_i shown found
        split at accepted
        · rename_i strict
          obtain ⟨known, status, filled⟩ := strict
          cases accepted
          refine ⟨members, rfl, ⟨?_, found, isText_iff.mp status, filled⟩⟩
          intro member inside
          exact of_decide_eq_true (List.all_eq_true.mp known member inside)
        · cases accepted
      · cases accepted
    · cases accepted
  · rintro ⟨members, rfl, strict⟩
    have known : (members.all fun member => member.1 = literal "providerPaymentId" ∨
        member.1 = literal "status") = true :=
      List.all_eq_true.mpr fun member inside => decide_eq_true (strict.fields member inside)
    simp only [acceptedPayment?, strict.payment]
    rw [if_pos ⟨known, isText_iff.mpr strict.status, strict.filled⟩]

section Classify

variable {libraries : Libraries} {body : ByteArray}

theorem classifyResponse_success {status : Option Nat} {paymentId : Text} :
    classifyResponse libraries status body = .success paymentId ↔
      status = some 202 ∧ IsAcceptance libraries body paymentId := by
  unfold classifyResponse IsAcceptance
  cases status with
  | none => simp
  | some status =>
  simp only [Option.some.injEq]
  by_cases accepted : status = 202
  · simp only [accepted, if_true, true_and]
    cases decoded : Python.decode body with
    | none => simp
    | some text =>
        cases loaded : libraries.loads text with
        | malformed => simp [loaded]
        | raised => simp [loaded]
        | value payload =>
            have strict := @acceptedPayment?_eq_some payload paymentId
            cases found : acceptedPayment? payload with
            | none => simp_all
            | some shown => simp_all
  · simp only [accepted, if_false, false_and, iff_false]
    split <;> simp

theorem classifyResponse_raised {status : Nat} :
    classifyResponse libraries (some status) body = .raised ↔
      status = 202 ∧ ∃ text, Python.decode body = some text ∧ libraries.loads text = .raised := by
  unfold classifyResponse
  by_cases accepted : status = 202
  · simp only [accepted, if_true, true_and]
    cases decoded : Python.decode body with
    | none => simp
    | some text =>
        cases loaded : libraries.loads text with
        | malformed => simp [loaded]
        | raised => simp [loaded]
        | value payload => cases found : acceptedPayment? payload <;> simp [loaded, found]
  · simp only [accepted, if_false, false_and, iff_false]
    split <;> simp

end Classify

/-! One exchange. -/

def Posted.result? (libraries : Libraries) : Posted → Option (Except String String)
  | .raised => none
  | .httpError => some (.error "transport.error.retryable")
  | .answer status body =>
      match classifyResponse libraries status body with
      | .raised => none
      | .failure errorCode => some (.error errorCode)
      | .success paymentId =>
          match libraries.bind paymentId with
          | .taken stored => some (.ok stored)
          | _ => none

section Exchange

variable (libraries : Libraries)

theorem result?_answer (status : Nat) (body : ByteArray) :
    (∃ result, (Posted.answer (some status) body).result? libraries = some result) ↔
      (status = 202 → ∀ text, Python.decode body = some text → libraries.loads text ≠ .raised) ∧
        ∀ paymentId, status = 202 → IsAcceptance libraries body paymentId →
          ∃ stored, libraries.bind paymentId = .taken stored := by
  have success := fun paymentId => @classifyResponse_success libraries body (some status) paymentId
  have raised := @classifyResponse_raised libraries body status
  simp only [Option.some.injEq] at success
  simp only [Posted.result?]
  cases classified : classifyResponse libraries (some status) body with
  | raised =>
      obtain ⟨accepted, text, decoded, loaded⟩ := raised.mp classified
      simp only [reduceCtorEq, exists_false, false_iff]
      exact fun parses => parses.1 accepted text decoded loaded
  | failure errorCode =>
      simp only [classified, reduceCtorEq, false_iff] at success raised
      simp only [Option.some.injEq, exists_eq', true_iff]
      refine ⟨fun accepted text decoded loaded => raised ⟨accepted, text, decoded, loaded⟩, ?_⟩
      exact fun paymentId accepted strict => absurd ⟨accepted, strict⟩ (success paymentId)
  | success paymentId =>
      have only : ∀ other, status = 202 → IsAcceptance libraries body other →
          other = paymentId := by
        intro other accepted strict
        have same := (success other).mpr ⟨accepted, strict⟩
        rw [classified] at same
        cases same
        rfl
      have strict := (success paymentId).mp classified
      have loads : ¬ (status = 202 ∧ ∃ text, Python.decode body = some text ∧
          libraries.loads text = .raised) := by
        rw [← raised, classified]
        simp
      cases bound : libraries.bind paymentId with
      | taken stored =>
          simp only [bound, Option.some.injEq, exists_eq', true_iff]
          refine ⟨fun accepted text decoded loaded => loads ⟨accepted, text, decoded, loaded⟩, ?_⟩
          intro other accepted shown
          exact ⟨stored, by rw [only other accepted shown, bound]⟩
      | _ =>
          simp only [bound, reduceCtorEq, exists_false, false_iff]
          rintro ⟨-, binds⟩
          obtain ⟨stored, taken⟩ := binds paymentId strict.1 strict.2
          rw [bound] at taken
          cases taken

theorem result?_ok {posted : Posted} {stored : String} :
    posted.result? libraries = some (.ok stored) ↔ ∃ body paymentId,
      posted = .answer (some 202) body ∧ IsAcceptance libraries body paymentId ∧
        libraries.bind paymentId = .taken stored := by
  constructor
  · intro result
    unfold Posted.result? at result
    split at result
    · cases result
    · cases result
    · rename_i status body
      split at result
      · cases result
      · cases result
      · rename_i paymentId classified
        obtain ⟨rfl, strict⟩ := classifyResponse_success.mp classified
        split at result
        · rename_i taken bound
          cases result
          exact ⟨body, paymentId, rfl, strict, bound⟩
        · cases result
  · rintro ⟨body, paymentId, rfl, strict, bound⟩
    have classified := classifyResponse_success.mpr ⟨rfl, strict⟩
    simp only [Posted.result?, classified, bound]

def Posted.Settles (posted : Posted) (earned : String → Prop) : Prop :=
  ∃ result, posted.result? libraries = some result ∧ ∀ stored, result = .ok stored → earned stored

theorem ofStatus_ok (status : Nat) (bytes : ByteArray) :
    (Opened.ofStatus status (.ok bytes)).posted = .answer (some status) bytes := by
  unfold Opened.ofStatus
  split <;> rfl

theorem settles_error (earned : String → Prop) (errorCode : String) {posted : Posted}
    (result : posted.result? libraries = some (.error errorCode)) :
    posted.Settles libraries earned :=
  ⟨_, result, fun _ same => nomatch same⟩

theorem not_settles {posted : Posted} {earned : String → Prop}
    (result : posted.result? libraries = none) : ¬ posted.Settles libraries earned := by
  rintro ⟨made, same, -⟩
  rw [result] at same
  cases same

theorem ordinary_iff (method : Method) (status : Nat) (body : Except Fault ByteArray) :
    Ordinary libraries method status body ↔
      (Opened.ofStatus status body).posted.Settles libraries fun stored =>
        method = .post ∧ ∃ bytes paymentId, some (status, body) = some (202, .ok bytes) ∧
          IsAcceptance libraries bytes paymentId ∧ libraries.bind paymentId = .taken stored := by
  cases body with
  | error fault =>
      have unread : ∀ {bytes : ByteArray}, (.error fault : Except Fault ByteArray) ≠ .ok bytes :=
        fun same => nomatch same
      by_cases success : 200 ≤ status ∧ status < 300
      · cases fault with
        | os =>
            refine iff_of_true ⟨fun _ => by simp, fun refused => absurd success refused,
              fun _ _ _ same => absurd same unread, fun _ _ _ same => absurd same unread⟩ ?_
            refine settles_error libraries _ "transport.error.retryable" ?_
            simp [Opened.ofStatus, success, Opened.posted, Posted.result?]
        | other =>
            refine iff_of_false (fun ordinary => ordinary.response success rfl) ?_
            refine not_settles libraries ?_
            simp [Opened.ofStatus, success, Opened.posted, Posted.result?]
      · refine iff_of_false ?_ (not_settles libraries ?_)
        · intro ordinary
          obtain ⟨bytes, same⟩ := ordinary.refusal success
          exact unread same
        · rw [Opened.ofStatus, if_neg success]
          rfl
  | ok bytes =>
      have answered := result?_answer libraries status bytes
      rw [ofStatus_ok]
      constructor
      · intro ordinary
        obtain ⟨result, made⟩ := answered.mpr ⟨fun accepted text => ordinary.parses accepted _ text rfl,
          fun paymentId accepted strict => (ordinary.acceptance accepted _ _ rfl strict).2⟩
        refine ⟨result, made, ?_⟩
        rintro stored rfl
        obtain ⟨body, paymentId, same, strict, bound⟩ := (result?_ok libraries).mp made
        cases same
        exact ⟨(ordinary.acceptance rfl _ _ rfl strict).1, _, paymentId, rfl, strict, bound⟩
      · rintro ⟨result, made, earned⟩
        obtain ⟨parses, binds⟩ := answered.mp ⟨result, made⟩
        refine ⟨fun _ => by simp, fun _ => ⟨bytes, rfl⟩, ?_, ?_⟩
        · rintro accepted _ text ⟨⟩ decoded
          exact parses accepted text decoded
        · rintro rfl _ paymentId ⟨⟩ strict
          obtain ⟨stored, bound⟩ := binds paymentId rfl strict
          have success := (result?_ok libraries).mpr ⟨bytes, paymentId, rfl, strict, bound⟩
          rw [made] at success
          exact ⟨(earned stored (Option.some.inj success)).1, stored, bound⟩

theorem orderly_iff (reply : Reply) (method : Method) (visited : List String) :
    reply.Orderly libraries method visited ↔
      (urlopen method visited reply).2.posted.Settles libraries fun stored =>
        method = .post ∧ reply.Accepted libraries stored := by
  induction reply generalizing method visited with
  | broken fault =>
      simp only [Reply.Orderly, urlopen]
      cases fault with
      | os => exact iff_of_true rfl (settles_error libraries _ "transport.error.retryable" rfl)
      | other => exact iff_of_false (by simp) (not_settles libraries rfl)
  | answered status body => exact ordinary_iff libraries method status body
  | statusless body =>
      simp only [Reply.Orderly, urlopen]
      cases body with
      | ok bytes => exact iff_of_false (by simp) (not_settles libraries rfl)
      | error fault =>
          cases fault with
          | os => exact iff_of_true rfl (settles_error libraries _ "transport.error.retryable" rfl)
          | other => exact iff_of_false (by simp) (not_settles libraries rfl)
  | redirect status body url target ih =>
      by_cases follows : method.follows status = true ∧ ¬ isLoop visited url = true
      · -- no redirect is a 202, so that the answer itself is no acceptance
        have moved : status ≠ 202 := by
          rintro rfl
          cases method <;> exact absurd follows.1 (by decide)
        simp only [Reply.Orderly, urlopen, if_pos follows]
        cases body with
        | error fault =>
            cases fault with
            | os => exact iff_of_true rfl (settles_error libraries _ "transport.error.retryable" rfl)
            | other => exact iff_of_false (by simp) (not_settles libraries rfl)
        | ok bytes =>
            refine (ih .get (url :: visited)).trans ?_
            simp [Posted.Settles, Reply.Accepted, Reply.own?, moved]
      · simp only [Reply.Orderly, urlopen, if_neg follows]
        exact ordinary_iff libraries method status body
  | misdirected status body =>
      simp only [Reply.Orderly, urlopen]
      by_cases redirect : isRedirect status = true
      · rw [if_pos redirect]
        exact iff_of_false (fun orderly => orderly.1 redirect) (not_settles libraries rfl)
      · rw [if_neg redirect, and_iff_right redirect]
        exact ordinary_iff libraries method status body

end Exchange

/-! The requests. -/

theorem buildProviderRequest_some (config : DispatcherConfig) (row : OutboxClaim) :
    ∃ request, buildProviderRequest config row = some request := by
  have column : ∀ content,
      (Python.dumps false (ofColumn content)).any CodePoint.isSurrogate = false := by
    rintro (_ | content)
    · exact Python.literal_scalar _
    · rw [ofColumn, Python.dumps, Python.quoted_surrogate, Python.literal_scalar]
  have scalar : (Python.dumps false (providerValue row.externalRequestId row.amount
      row.currency)).any CodePoint.isSurrogate = false := by
    rw [providerValue, Python.dumps_surrogate_unsorted]
    simp only [List.any_cons, List.any_nil, Python.literal_scalar, column, Python.dumps,
      Python.quoted_surrogate, Bool.or_false]
  simp [buildProviderRequest, providerBody, Python.encode, scalar]

theorem urlopen_sent (method : Method) (visited : List String) (reply : Reply) :
    ∃ fetches, (urlopen method visited reply).1 = method :: fetches ∧
      ∀ other ∈ fetches, other = .get := by
  induction reply generalizing method visited with
  | broken fault => exact ⟨[], rfl, by simp⟩
  | answered status body => exact ⟨[], rfl, by simp⟩
  | statusless body => exact ⟨[], rfl, by simp⟩
  | misdirected status body => exact ⟨[], rfl, by simp⟩
  | redirect status body url target ih =>
      obtain ⟨fetches, sent, gets⟩ := ih .get (url :: visited)
      by_cases follows : method.follows status = true ∧ ¬ isLoop visited url = true
      · cases body with
        | error fault => exact ⟨[], by simp only [urlopen, if_pos follows], by simp⟩
        | ok bytes =>
            exact ⟨.get :: fetches, by simp only [urlopen, if_pos follows, sent], by simpa using gets⟩
      · exact ⟨[], by simp only [urlopen, if_neg follows], by simp⟩

theorem postJson_sent (request : ProviderRequest) (reply : Reply) :
    ((postJson reply).1.map (Event.ofMethod request)).filter (fun event => !event.isFetch) =
      [.posted request] := by
  obtain ⟨fetches, sent, gets⟩ := urlopen_sent .post [] reply
  have none : (fetches.map (Event.ofMethod request)).filter (fun event => !event.isFetch) = [] := by
    rw [List.filter_eq_nil_iff]
    intro event member
    obtain ⟨method, inside, rfl⟩ := List.mem_map.mp member
    rw [gets method inside]
    simp [Event.ofMethod, Event.isFetch]
  rw [postJson, sent, List.map_cons, List.filter_cons_of_pos (by rfl), none]
  rfl

section Batch

variable (libraries : Libraries) (config : DispatcherConfig)

theorem attempt_reports {reply : Reply} {db : Db} {row : OutboxClaim} {request : ProviderRequest}
    {result : Except String String} (built : buildProviderRequest config row = some request)
    (made : (postJson reply).2.result? libraries = some result) :
    attempt libraries config reply db row =
      Run.report ((postJson reply).1.map (Event.ofMethod request)) db
        ⟨config.owner, row.outboxId, row.leaseVersion, result⟩ := by
  cases posted : (postJson reply).2 with
  | raised =>
      rw [posted] at made
      cases made
  | httpError =>
      rw [posted] at made
      cases made
      simp only [attempt, built, posted]
  | answer status body =>
      simp only [posted, Posted.result?] at made
      cases classified : classifyResponse libraries status body with
      | raised =>
          rw [classified] at made
          cases made
      | failure errorCode =>
          rw [classified] at made
          cases made
          simp only [attempt, built, posted, classified]
      | success paymentId =>
          simp only [classified] at made
          cases bound : libraries.bind paymentId with
          | taken stored =>
              rw [bound] at made
              cases made
              simp only [attempt, built, posted, classified, bound]
          | refused =>
              rw [bound] at made
              cases made
          | raised =>
              rw [bound] at made
              cases made

theorem attempt_silent {reply : Reply} {db : Db} {row : OutboxClaim} {request : ProviderRequest}
    (built : buildProviderRequest config row = some request)
    (lost : (postJson reply).2.result? libraries = none) :
    (attempt libraries config reply db row).events =
      (postJson reply).1.map (Event.ofMethod request) := by
  cases posted : (postJson reply).2 with
  | raised => simp only [attempt, built, posted]
  | httpError =>
      rw [posted] at lost
      cases lost
  | answer status body =>
      simp only [posted, Posted.result?] at lost
      cases classified : classifyResponse libraries status body with
      | raised => simp only [attempt, built, posted, classified]
      | failure errorCode =>
          rw [classified] at lost
          cases lost
      | success paymentId =>
          simp only [classified] at lost
          cases bound : libraries.bind paymentId with
          | taken stored =>
              rw [bound] at lost
              cases lost
          | refused => simp only [attempt, built, posted, classified, bound]
          | raised => simp only [attempt, built, posted, classified, bound]

/-- The first thing done for a row that is left to see is its POST. -/
theorem attempt_cases (outside : Outside) (db : Db) (row : OutboxClaim) :
    ∃ request, buildProviderRequest config row = some request ∧
      ((∃ result, (postJson (outside.provider row)).2.result? libraries = some result ∧
        (attempt libraries config (outside.provider row) db row).aborted = false ∧
        (attempt libraries config (outside.provider row) db row).events.filter
            (fun event => !event.isFetch) =
          [.posted request, .reported ⟨config.owner, row.outboxId, row.leaseVersion, result⟩]) ∨
      ((postJson (outside.provider row)).2.result? libraries = none ∧
        (attempt libraries config (outside.provider row) db row).events.filter
          (fun event => !event.isFetch) = [.posted request])) := by
  obtain ⟨request, built⟩ := buildProviderRequest_some config row
  have sent := postJson_sent request (outside.provider row)
  refine ⟨request, built, ?_⟩
  cases made : (postJson (outside.provider row)).2.result? libraries with
  | none => exact .inr ⟨rfl, by rw [attempt_silent libraries config built made, sent]⟩
  | some result =>
      have reported := @attempt_reports libraries config _ db row request result built made
      refine .inl ⟨result, rfl, by rw [reported]; rfl, ?_⟩
      rw [reported, Run.report, List.filter_append, sent]
      rfl

theorem runRows_first (outside : Outside) (db : Db) (rows : List OutboxClaim) (report : Report)
    (later : List Event) :
    (runRows libraries config outside db rows).events.filter (fun event => !event.isFetch) ≠
      .reported report :: later := by
  cases rows with
  | nil => simp [runRows]
  | cons row rest =>
      obtain ⟨request, -, ⟨result, -, -, events⟩ | ⟨-, events⟩⟩ :=
        attempt_cases libraries config outside (outside.meanwhile row db) row
      all_goals
        simp only [runRows]
        split <;> simp [List.filter_append, events]

theorem runRows_delivers (outside : Outside) (db : Db) (rows : List OutboxClaim) :
    (runRows libraries config outside db rows).Delivers libraries config outside rows ↔
      ∀ row ∈ rows, (outside.provider row).Orderly libraries .post [] := by
  induction rows generalizing db with
  | nil => simp [runRows, Run.Delivers, OneEach]
  | cons row rest ih =>
      obtain ⟨request, built, ⟨result, made, goesOn, events⟩ | ⟨lost, events⟩⟩ :=
        attempt_cases libraries config outside (outside.meanwhile row db) row
      · have fits : (outside.provider row).Orderly libraries .post [] ↔
            Report.Fits libraries config (outside.provider row) row
              ⟨config.owner, row.outboxId, row.leaseVersion, result⟩ := by
          rw [orderly_iff]
          constructor
          · rintro ⟨other, same, earned⟩
            rw [show (urlopen .post [] (outside.provider row)).2.posted.result? libraries = some result
              from made] at same
            cases same
            exact ⟨rfl, rfl, rfl, fun stored success => (earned stored success).2⟩
          · exact fun fits => ⟨result, made, fun stored success => ⟨rfl, fits.earned stored success⟩⟩
        rw [List.forall_mem_cons, fits, ← ih (attempt libraries config (outside.provider row)
          (outside.meanwhile row db) row).db]
        simp only [runRows, goesOn, Bool.false_eq_true, if_false, Run.Delivers, OneEach,
          List.filter_append, events]
        constructor
        · rintro ⟨finished, first, report, later, sent, suits, same, each⟩
          cases same
          exact ⟨suits, finished, each⟩
        · rintro ⟨suits, finished, each⟩
          exact ⟨finished, request, _, _, built, suits, rfl, each⟩
      · refine iff_of_false ?_ fun orderly => ?_
        · rintro ⟨-, first, report, later, -, -, same, -⟩
          simp only [runRows] at same
          split at same
          · rw [events] at same
            cases same
          · rw [List.filter_append, events] at same
            exact runRows_first libraries config outside _ rest report later
              (List.cons.inj same).2
        · have settles := (orderly_iff libraries _ _ _).mp (orderly row List.mem_cons_self)
          exact not_settles libraries lost settles

end Batch

namespace Sample

def libraries : Libraries where
  loads text := match Python.loads text with
    | some value => .value value
    | none => .malformed
  bind content := match storedText? content with
    | some stored => .taken stored
    | none => if content.any CodePoint.isSurrogate then .raised else .refused

def config : DispatcherConfig := ⟨"http://provider:8080/", "outbox-dispatcher", 5⟩

def members : List (Text × Value) := [
  (literal "providerPaymentId", .text (literal "provider-123")),
  (literal "status", .text (literal "ACCEPTED"))]

def accepted : Reply :=
  .answered 202 (match Python.encode (Python.dumps true (.dict members)) with
    | some body => .ok body
    | none => .error .other)

def prepared : Db := (seeded Seed.prepared).db

def outside (reply : Reply) : Outside := ⟨fun _ => reply, fun _ db => db⟩

theorem claimed (reply : Reply) : ∃ row leased,
    runOnce libraries config (outside reply) prepared (fun _ => false) =
      .ok ([row], runRows libraries config (outside reply) leased [row]) := by
  have one : ((claimOutbox prepared config.owner (some config.claimBatch)
      fun _ => false).toOption.map fun claimed => claimed.2.length) = some 1 := by decide +kernel
  unfold runOnce
  cases claim : claimOutbox prepared config.owner (some config.claimBatch) fun _ => false with
  | error refused =>
      rw [claim] at one
      cases one
  | ok leased =>
      rw [claim] at one
      obtain ⟨row, only⟩ := List.length_eq_one_iff.mp (Option.some.inj one)
      exact ⟨row, leased.1, by rw [← only]; rfl⟩

theorem accepted_eq : ∃ body, accepted = .answered 202 (.ok body) ∧
    ∀ paymentId, IsAcceptance libraries body paymentId ↔ paymentId = literal "provider-123" := by
  have sorted : (members.map Prod.fst).Pairwise fun left right =>
      Python.inOrder left right = true := by decide
  have scalar : (Python.dumps true (.dict members)).any CodePoint.isSurrogate = false := by
    rw [Python.dumps_surrogate sorted]
    simp [members, Python.dumps, Python.quoted_surrogate, Python.literal_scalar]
  obtain ⟨body, encoded⟩ : ∃ body, Python.encode (Python.dumps true (.dict members)) = some body := by
    simp [Python.encode, scalar]
  have loaded : Python.loads (Python.dumps true (.dict members)) = some (.dict members) := by
    refine Python.loads_dumps sorted (by simp [members]) ?_ (by decide)
    intro member inside
    simp only [members, List.mem_cons, List.not_mem_nil, or_false] at inside
    rcases inside with rfl | rfl
    · exact Python.Member.flat_text (Python.literal_scalar _) (Python.literal_scalar _)
    · exact Python.Member.flat_text (Python.literal_scalar _) (Python.literal_scalar _)
  have payment : get? members (literal "providerPaymentId") =
      some (.text (literal "provider-123")) := rfl
  refine ⟨body, by rw [accepted, encoded], fun paymentId => ⟨?_, ?_⟩⟩
  · rintro ⟨text, read, decoded, value, strict⟩
    rw [Python.decode_encode encoded] at decoded
    cases decoded
    simp only [libraries, loaded] at value
    cases value
    have same := strict.payment
    rw [payment] at same
    cases same
    rfl
  · rintro rfl
    refine ⟨_, members, Python.decode_encode encoded, ?_, ?_, payment, rfl, by decide⟩
    · simp only [libraries, loaded]
    · simp [members]

end Sample

/--
Every row of a claimed batch gets one POST and one report, a success only where the provider
accepted that POST, in exactly the batches whose every answer comes in an orderly way.
-/
theorem one_attempt_one_result (libraries : Libraries) (config : DispatcherConfig)
    (outside : Outside) (db : Db) (locked : Nat → Bool) {rows : List OutboxClaim} {run : Run}
    (claimed : runOnce libraries config outside db locked = .ok (rows, run)) :
    run.Delivers libraries config outside rows ↔
      ∀ row ∈ rows, (outside.provider row).Orderly libraries .post [] := by
  unfold runOnce at claimed
  cases claim : claimOutbox db config.owner (some config.claimBatch) locked with
  | error refused =>
      rw [claim] at claimed
      cases claimed
  | ok leased =>
      rw [claim] at claimed
      cases claimed
      exact runRows_delivers libraries config outside leased.1 leased.2

theorem one_attempt_one_result_accepted : ∃ row run,
    runOnce Sample.libraries Sample.config (Sample.outside Sample.accepted) Sample.prepared
        (fun _ => false) = .ok ([row], run) ∧
      run.Delivers Sample.libraries Sample.config (Sample.outside Sample.accepted) [row] := by
  obtain ⟨row, leased, claimed⟩ := Sample.claimed Sample.accepted
  refine ⟨row, _, claimed, (one_attempt_one_result _ _ _ _ _ claimed).mpr ?_⟩
  obtain ⟨body, answer, strict⟩ := Sample.accepted_eq
  intro row _
  simp only [Sample.outside, answer, Reply.Orderly]
  refine ⟨fun _ => by simp, fun refused => absurd (by decide) refused, ?_, ?_⟩
  · intro _ bytes text _ _
    simp only [Sample.libraries]
    split <;> simp
  · rintro _ _ paymentId ⟨⟩ accepted
    rw [strict] at accepted
    exact ⟨rfl, "provider-123", by rw [accepted]; rfl⟩

namespace Sample

def redirected (target : Reply) : Reply :=
  .redirect 302 (.ok ByteArray.empty) "http://provider:8080/elsewhere" target

end Sample

/-- An error whose body breaks off loses its row, and so do a Location that cannot be taken apart
and one of a file on an FTP server; a redirect to an acceptance is taken for one. -/
theorem attempt_without_result :
    List.Forall (fun reply : Reply => ∃ row run,
        runOnce Sample.libraries Sample.config (Sample.outside reply) Sample.prepared
          (fun _ => false) = .ok ([row], run) ∧
        ¬ run.Delivers Sample.libraries Sample.config (Sample.outside reply) [row])
      [.answered 500 (.error .os), .misdirected 302 (.ok ByteArray.empty),
        Sample.redirected (.statusless (.ok ByteArray.empty)), Sample.redirected Sample.accepted] := by
  refine List.forall_iff_forall_mem.mpr fun reply member => ?_
  obtain ⟨row, leased, claimed⟩ := Sample.claimed reply
  refine ⟨row, _, claimed, fun delivers => ?_⟩
  have orderly : reply.Orderly Sample.libraries .post [] :=
    (runRows_delivers _ _ _ leased [row]).mp delivers row List.mem_cons_self
  simp only [List.mem_cons, List.not_mem_nil, or_false] at member
  rcases member with rfl | rfl | rfl | rfl
  · obtain ⟨bytes, same⟩ := orderly.refusal (by decide)
    cases same
  · exact orderly.1 (by decide)
  · cases (show (.ok ByteArray.empty : Except Fault ByteArray) = .error .os from orderly)
  · obtain ⟨body, answer, strict⟩ := Sample.accepted_eq
    have target : Sample.accepted.Orderly Sample.libraries .get
        ["http://provider:8080/elsewhere"] := orderly
    rw [answer] at target
    have own := target.acceptance rfl body _ rfl ((strict _).mpr rfl)
    exact absurd own.1 (by decide)

end PaymentWorkflow.Dispatcher
