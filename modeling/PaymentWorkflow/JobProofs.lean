import PaymentWorkflow.JobCore
import PaymentWorkflow.ExecutorProofs
import PaymentWorkflow.MappingProofs
import PaymentWorkflow.SystemRuns

/-! Which claimed jobs end with a call, and which are left to an exception. -/

namespace PaymentWorkflow

open JsonElement

namespace JsonNode

def Textual (members : List (String × Json)) (name : String) : Prop :=
  ∀ value, (Json.object members).member? name = some value →
    value = .null ∨ ∃ content, value = .text content

def Flagged (members : List (String × Json)) (name : String) : Prop :=
  ∀ value, (Json.object members).member? name = some value →
    value = .null ∨ ∃ switch, value = .bool switch

variable {members : List (String × Json)} {name : String}

theorem text_total : (∃ content, text members name = .ok content) ↔ Textual members name := by
  unfold text Textual
  cases found : (Json.object members).member? name with
  | none => simp
  | some value => cases value <;> simp

theorem flag_total : (∃ switch, flag members name = .ok switch) ↔ Flagged members name := by
  unfold flag Flagged
  cases found : (Json.object members).member? name with
  | none => simp
  | some value => cases value <;> simp

theorem text_error : text members name = .ok (some "error") ↔
    (Json.object members).member? name = some (.text "error") := by
  constructor
  · exact fun read => jsonNode_text_ok read
  · exact fun found => jsonNode_text_of found

end JsonNode

def ClaimedJob.Judges (packages : Packages) (claimed : ClaimedJob) (reply : Json) : Prop :=
  ∀ outcome ∈ claimed.outcomes, reply.member? "outcome" = some (.text outcome) →
    claimed.responseSchema ≠ .null → ∀ result, reply.member? "result" = some result →
      result ≠ .null → packages.evaluate false claimed.responseSchema result ≠ .thrown

def ClaimedJob.Legible (packages : Packages) (claimed : ClaimedJob) (reply : Json) : Prop :=
  reply.depth ≤ 64 → ∃ members, reply = .object members ∧ JsonNode.Textual members "status" ∧
    (reply.member? "status" = some (.text "error") →
      JsonNode.Flagged members "retryable" ∧ JsonNode.Textual members "code") ∧
    (reply.member? "status" ≠ some (.text "error") →
      JsonNode.Textual members "outcome" ∧ claimed.Judges packages reply)

section Envelope

variable {packages : Packages} {claimed : ClaimedJob}

theorem checkResult_total {schema : Json} {outcome : String} {members : List (String × Json)} :
    (∃ verdict, checkResult packages schema outcome (JsonNode.member members "result") =
      .ok verdict) ↔
        (schema ≠ .null → ∀ result, (Json.object members).member? "result" = some result →
          result ≠ .null → packages.evaluate false schema result ≠ .thrown) := by
  unfold checkResult JsonNode.member
  by_cases blank : schema = .null
  · simp [blank]
  cases found : (Json.object members).member? "result" with
  | none =>
      simp only [blank, if_false, Option.bind_none, Option.getD_none]
      cases packages.evaluate false schema .null <;> simp
  | some value =>
      by_cases null : value = .null
      · subst null
        simp only [blank, if_false, Option.bind_some, JsonPointer.nonNull, Option.getD_none]
        cases packages.evaluate false schema .null <;> simp
      · have present : JsonPointer.nonNull value = some value := by
          cases value <;> first | rfl | exact absurd rfl null
        simp only [blank, if_false, Option.bind_some, present, Option.getD_some]
        cases verdict : packages.evaluate false schema value with
        | unloadable => simp [verdict]
        | thrown => simp [verdict, blank, null]
        | evaluated valid => cases valid <;> simp [verdict]

theorem judges_none {members : List (String × Json)}
    (read : JsonNode.text members "outcome" = .ok none) :
    claimed.Judges packages (.object members) := by
  intro outcome _ present
  rcases jsonNode_text_ok read with missing | null
  · cases missing.symm.trans present
  · cases null.symm.trans present

theorem judges_some {members : List (String × Json)} {outcome : String}
    (read : JsonNode.text members "outcome" = .ok (some outcome)) :
    claimed.Judges packages (.object members) ↔ (outcome ∈ claimed.outcomes →
      ∃ verdict, checkResult packages claimed.responseSchema outcome
        (JsonNode.member members "result") = .ok verdict) := by
  have found : (Json.object members).member? "outcome" = some (.text outcome) :=
    jsonNode_text_ok read
  rw [checkResult_total]
  constructor
  · exact fun judges declared => judges outcome declared found
  · intro judges other declared present
    obtain rfl : outcome = other := by simpa using found.symm.trans present
    exact judges declared

theorem checkJobEnvelope_total {reply : Json} :
    (∃ verdict, checkJobEnvelope packages claimed reply = .ok verdict) ↔
      claimed.Legible packages reply := by
  unfold ClaimedJob.Legible checkJobEnvelope
  by_cases shallow : reply.depth ≤ 64
  · have parsed := parseDocument_some.mpr ⟨shallow, rfl⟩
    simp only [parsed, shallow, true_implies]
    cases reply with
    | object members =>
        simp only [Json.object.injEq, exists_eq_left']
        cases read : JsonNode.text members "status" with
        | error exception =>
            have odd : ¬ JsonNode.Textual members "status" := by simp [← JsonNode.text_total, read]
            simp [odd, bind, Except.bind]
        | ok status =>
            have textual := JsonNode.text_total.mp ⟨status, read⟩
            simp only [bind, Except.bind, textual, true_and]
            by_cases error : status = some "error"
            · have named := JsonNode.text_error.mp (error ▸ read)
              simp only [error, if_true, named, true_implies, ne_eq, not_true, false_implies,
                and_true]
              rw [← JsonNode.flag_total, ← JsonNode.text_total]
              cases JsonNode.flag members "retryable" <;>
                cases JsonNode.text members "code" <;> simp
            · have other : (Json.object members).member? "status" ≠ some (.text "error") := by
                intro named
                rw [JsonNode.text_error.mpr named] at read
                exact error (Except.ok.inj read).symm
              simp only [error, if_false, other, false_implies, ne_eq, not_false_eq_true,
                true_implies, true_and]
              cases outcome : JsonNode.text members "outcome" with
              | error exception => simp [← JsonNode.text_total, outcome]
              | ok named =>
                  have textual := JsonNode.text_total.mp ⟨named, outcome⟩
                  cases named with
                  | none => simp [textual, judges_none outcome]
                  | some named =>
                      by_cases declared : named ∈ claimed.outcomes <;>
                        simp [textual, judges_some outcome, declared]
    | _ => simp
  · have deep : parseDocument reply = none := if_neg shallow
    simp [deep, shallow]

end Envelope

section Payload

variable {processData : Json} {task : FlowTask}

theorem setSegments_thrown {value : Json} {segments : List (List Char)} {root : Json} :
    JsonPointer.setSegments value segments root = .error .thrown ↔ segments = [] := by
  fun_induction JsonPointer.setSegments value segments root with
  | case7 segment rest members more key next present found ih
  | case10 segment rest items more index found next present ih =>
      simp only [Runs.bind_eq_error, ih, reduceCtorEq, and_false, exists_false, or_false]
      exact iff_of_false more not_false
  | case11 segments root some => exact iff_of_false nofun some
  | _ => simp

theorem mapInput_thrown {constants : Json} {entry : String × String} :
    mapInput processData constants entry = .error .thrown ↔
      (sourceOf processData entry).isSome = true ∧ JsonPointer.split entry.1 = [] ∧
        entry.1 ≠ "/" := by
  unfold mapInput sourceOf
  cases (JsonPointer.nonNull processData).bind fun root => JsonPointer.resolve root entry.2 with
  | none => simp
  | some value =>
      have thrown : JsonPointer.set constants entry.1 value = .error .thrown ↔
          JsonPointer.split entry.1 = [] ∧ entry.1 ≠ "/" := by
        unfold JsonPointer.set
        split
        · simp [*]
        · simp [setSegments_thrown, *]
      cases written : JsonPointer.set constants entry.1 value with
      | ok changed => simp [← thrown, written]
      | error failure => cases failure <;> simp [← thrown, written]

def FlowTask.Segmented (processData : Json) (task : FlowTask) : Prop :=
  ∀ before entry after constants, task.inputMapping = before ++ entry :: after →
    before.foldlM (mapInput processData) (.object task.inputConstants) = .ok constants →
    (sourceOf processData entry).isSome = true → JsonPointer.split entry.1 = [] → entry.1 = "/"

theorem buildPayload_thrown :
    buildPayload processData task ≠ .error .thrown ↔ task.Segmented processData := by
  unfold buildPayload FlowTask.Segmented
  rw [ne_eq, Runs.foldlM_eq_error]
  simp only [mapInput_thrown, not_exists, not_and, not_not]

end Payload

def JobCall.lease : JobCall → Nat × String × Nat
  | .finishJob jobId owner leaseVersion _ _ | .failJob jobId owner leaseVersion _ _ =>
      (jobId, owner, leaseVersion)

namespace ClaimedJob

variable (packages : Packages) (claimed : ClaimedJob)

def Resolved (run : Except JobException (List JobCall)) : Prop :=
  ∃ call, run = .ok [call] ∧ call.lease = (claimed.jobId, claimed.owner, claimed.leaseVersion)

def Fits : Prop :=
  (-2 ^ 31 ≤ claimed.task.actionVersion ∧ claimed.task.actionVersion < 2 ^ 31) ∧
    -2 ^ 31 ≤ claimed.task.timeoutMs ∧ claimed.task.timeoutMs < 2 ^ 31

/-- Nothing `ProcessJobAsync` reads throws: not the targets of the mapping, not the request schema
on the payload, not the envelope. -/
structure Readable (reply : Json) : Prop where
  segmented : claimed.task.Segmented claimed.processData
  calm : ∀ payload, buildPayload claimed.processData claimed.task = .ok payload →
    claimed.requestSchema ≠ .null → packages.evaluate false claimed.requestSchema payload ≠ .thrown
  legible : ∀ payload, buildPayload claimed.processData claimed.task = .ok payload →
    claimed.requestSchema ≠ .null →
    packages.evaluate false claimed.requestSchema payload = .evaluated true →
    claimed.Legible packages reply

variable {packages claimed}

theorem resolved_failJob {code : String} {retryable : Bool} :
    claimed.Resolved (.ok [claimed.failJobAsync code retryable]) := ⟨_, rfl, rfl⟩

theorem resolved_finishJob {outcome : String} {result : Json} :
    claimed.Resolved (.ok [claimed.finishJobAsync outcome result]) := ⟨_, rfl, rfl⟩

theorem not_resolved {exception : JobException} : ¬ claimed.Resolved (.error exception) := by
  rintro ⟨_, thrown, _⟩
  cases thrown

theorem invokeAction_resolved {reply : Json} :
    claimed.Resolved (claimed.invokeAction packages { invoked := .ok reply }) ↔
      claimed.Legible packages reply := by
  rw [← checkJobEnvelope_total]
  simp only [invokeAction]
  cases checkJobEnvelope packages claimed reply with
  | error exception => simp [not_resolved]
  | ok verdict =>
      cases verdict with
      | failed code retryable => simp [resolved_failJob]
      | accepted outcome result => exact iff_of_true resolved_finishJob ⟨_, rfl⟩

theorem runPayload_resolved {payload reply : Json} :
    claimed.Resolved (claimed.runPayload packages { invoked := .ok reply } payload) ↔
    (claimed.requestSchema ≠ .null →
      packages.evaluate false claimed.requestSchema payload ≠ .thrown ∧
        (packages.evaluate false claimed.requestSchema payload = .evaluated true →
          claimed.Legible packages reply)) := by
  unfold runPayload checkPayload
  by_cases blank : claimed.requestSchema = .null
  · simp [blank, resolved_failJob]
  simp only [blank, if_false, ne_eq, not_false_eq_true, true_implies]
  cases packages.evaluate false claimed.requestSchema payload with
  | unloadable => simp [resolved_failJob]
  | thrown => simp [not_resolved]
  | evaluated valid => cases valid <;> simp [resolved_failJob, invokeAction_resolved]

theorem runTask_resolved {reply : Json} :
    claimed.Resolved (claimed.runTask packages { invoked := .ok reply }) ↔
      claimed.Readable packages reply := by
  unfold runTask
  cases built : buildPayload claimed.processData claimed.task with
  | error failure =>
      have readable : failure ≠ .thrown → claimed.Readable packages reply := by
        intro refused
        refine ⟨buildPayload_thrown.mp ?_, ?_, ?_⟩
        · rw [built]
          exact fun same => refused (Except.error.inj same)
        · rw [built]; exact fun _ done => nomatch done
        · rw [built]; exact fun _ done => nomatch done
      cases failure with
      | thrown =>
          refine iff_of_false not_resolved fun readable => ?_
          exact buildPayload_thrown.mpr readable.segmented built
      | missingProcessData => exact iff_of_true resolved_failJob (readable nofun)
      | invalidMappingTarget => exact iff_of_true resolved_failJob (readable nofun)
  | ok payload =>
      simp only [runPayload_resolved]
      constructor
      · intro resolved
        refine ⟨buildPayload_thrown.mp (by rw [built]; exact nofun), ?_, ?_⟩
        · intro other same schema
          rw [← Except.ok.inj (built.symm.trans same)]
          exact (resolved schema).1
        · intro other same schema
          rw [← Except.ok.inj (built.symm.trans same)]
          exact (resolved schema).2
      · intro readable schema
        exact ⟨readable.calm payload built schema, readable.legible payload built schema⟩

theorem processJobAsync_resolved {reply : Json} :
    claimed.Resolved (claimed.processJobAsync packages { invoked := .ok reply }) ↔
      claimed.Fits ∧ (claimed.task.module ≠ "" ∧ claimed.task.action ≠ "" ∧
        1 ≤ claimed.task.actionVersion → claimed.Readable packages reply) := by
  unfold processJobAsync Fits
  by_cases version : -2 ^ 31 ≤ claimed.task.actionVersion ∧ claimed.task.actionVersion < 2 ^ 31
  · rw [show JsonNode.int claimed.task.actionVersion = .ok claimed.task.actionVersion from
      if_pos version]
    by_cases timeout : -2 ^ 31 ≤ claimed.task.timeoutMs ∧ claimed.task.timeoutMs < 2 ^ 31
    · rw [show JsonNode.int claimed.task.timeoutMs = .ok claimed.task.timeoutMs from if_pos timeout,
        and_iff_right ⟨version, timeout⟩]
      dsimp only
      by_cases named : claimed.task.module = "" ∨ claimed.task.action = "" ∨
          claimed.task.actionVersion < 1
      · rw [if_pos named]
        refine iff_of_true resolved_failJob fun callable => ?_
        rcases named with missing | missing | low
        · exact absurd missing callable.1
        · exact absurd missing callable.2.1
        · exact absurd callable.2.2 (by omega)
      · rw [if_neg named, runTask_resolved]
        simp only [not_or] at named
        have positive : 1 ≤ claimed.task.actionVersion := by omega
        exact ⟨fun readable _ => readable, fun readable => readable ⟨named.1, named.2.1, positive⟩⟩
    · rw [show JsonNode.int claimed.task.timeoutMs = .error .invalidOperation from if_neg timeout]
      exact iff_of_false not_resolved fun fits => timeout fits.1.2
  · rw [show JsonNode.int claimed.task.actionVersion = .error .invalidOperation from
      if_neg version]
    exact iff_of_false not_resolved fun fits => version fits.1.1

end ClaimedJob

/-- Every job of a claimed batch is resolved, exactly where the batch can be parsed and nothing read
of its jobs throws. -/
theorem runAsync_resolves (packages : Packages) (replies : ClaimedJob → Json)
    (batch : List ClaimedJob) :
    (∀ claimed ∈ batch, ∃ run,
      (claimed, run) ∈ runAsync packages (fun job => { invoked := .ok (replies job) }) batch ∧
        claimed.Resolved run) ↔
    (Json.array (batch.map ClaimedJob.document)).depth ≤ 64 ∧ ∀ claimed ∈ batch, claimed.Fits ∧
      (claimed.task.module ≠ "" ∧ claimed.task.action ≠ "" ∧ 1 ≤ claimed.task.actionVersion →
        claimed.Readable packages (replies claimed)) := by
  unfold runAsync
  by_cases shallow : (Json.array (batch.map ClaimedJob.document)).depth ≤ 64
  · rw [parseDocument_some.mpr ⟨shallow, rfl⟩]
    simp only [shallow, true_and, ← ClaimedJob.processJobAsync_resolved, List.mem_map,
      Prod.mk.injEq]
    refine forall₂_congr fun claimed member => ?_
    constructor
    · rintro ⟨run, ⟨other, _, rfl, rfl⟩, resolved⟩
      exact resolved
    · exact fun resolved => ⟨_, ⟨claimed, member, rfl, rfl⟩, resolved⟩
  · rw [show parseDocument (Json.array (batch.map ClaimedJob.document)) = none from if_neg shallow]
    refine iff_of_false (fun resolved => ?_) fun both => shallow both.1
    cases batch with
    | nil => exact shallow (by decide)
    | cons claimed rest =>
        obtain ⟨_, run, _⟩ := resolved claimed List.mem_cons_self
        cases run

namespace Seed

def canaryProcess : Call :=
  .startProcess "workflow-smoke" "canary" (.object [("value", .text "v")])

def lenient : Packages := ⟨fun _ _ _ => .evaluated true, id⟩

def canaryAction : ActionManifest :=
  { action "training" "canary" "canary_v1" "workflow:execute" ["APPLIED"] "training" with
    contractVersion := "course-1", httpMethod := "POST", idempotencyMode := .none
    idempotencyScope := .none, timeoutMs := 2000 }

end Seed

theorem array_envelope_escapes : ¬ ∀ (packages : Packages) (calls : List Call) (owner : String)
    (batch leaseMs : Option Int) (later : Db) (jobs : List ClaimedJob) (claimed : ClaimedJob)
    (api : ApiDb) (payload : String) (value : Json),
    claimJobs (seeded calls).db owner batch leaseMs (fun _ => false) = .ok (later, jobs) →
    claimed ∈ jobs → claimed.task.matchesSchema = true → validateMapping claimed.task = .ok () →
    (apiInvoke api claimed.task.module claimed.task.action (some claimed.task.actionVersion)
      (jobContext packages claimed payload) (.returned (some value))).toOption.map
        Invocation.reply = some value →
    claimed.Resolved (claimed.processJobAsync packages { invoked := .ok value }) := by
  intro always
  obtain ⟨later, jobs, claimed, claims, member, schema, mapping, passed, thrown⟩ :
      ∃ later jobs claimed,
        claimJobs (seeded [Seed.canaryProcess]).db "worker" (some 1) (some 1000) (fun _ => false) =
          .ok (later, jobs) ∧ claimed ∈ jobs ∧ claimed.task.matchesSchema = true ∧
        validateMapping claimed.task = .ok () ∧
        (apiInvoke { catalog := [Seed.canaryAction] } claimed.task.module claimed.task.action
          (some claimed.task.actionVersion) (jobContext Seed.lenient claimed "")
          (.returned (some (.array [.text "status"])))).toOption.map Invocation.reply =
            some (.array [.text "status"]) ∧
        claimed.processJobAsync Seed.lenient { invoked := .ok (.array [.text "status"]) } =
          .error (.thrown .nullReference) :=
    ⟨_, _, _, rfl, List.mem_cons_self, by decide +kernel, by decide +kernel, by decide +kernel, rfl⟩
  have resolved := always _ _ _ _ _ _ _ _ _ _ _ claims member schema mapping passed
  rw [thrown] at resolved
  exact ClaimedJob.not_resolved resolved

end PaymentWorkflow
