import PaymentWorkflow.ReceiptCalls
import PaymentWorkflow.DeliveryProofs

/-! When the delivery's success and its receipt wait for each other's rows. -/

namespace PaymentWorkflow

open RowLocks

/-! The locks each stage of the two calls holds. -/

def AcceptStage.held : AcceptStage → List (Request DeliveryRow)
  | .called | .storing _ | .ended _ => []
  | .referringExternal arrival _ => [⟨.message arrival.messageId, .update⟩]
  | .referringProcess arrival _ =>
      [⟨.message arrival.messageId, .update⟩, ⟨.external arrival.externalRequestId, .keyShare⟩]
  | .recording arrival _ | .confirming arrival .. =>
      [⟨.message arrival.messageId, .update⟩, ⟨.external arrival.externalRequestId, .keyShare⟩,
        ⟨.process arrival.processId, .keyShare⟩]
  | .releasing arrival .. =>
      [⟨.message arrival.messageId, .update⟩, ⟨.external arrival.externalRequestId, .keyShare⟩,
        ⟨.process arrival.processId, .keyShare⟩,
        ⟨.external arrival.externalRequestId, .noKeyUpdate⟩]
  | .committing arrival _ _ _ released =>
      [⟨.message arrival.messageId, .update⟩, ⟨.external arrival.externalRequestId, .keyShare⟩,
        ⟨.process arrival.processId, .keyShare⟩,
        ⟨.external arrival.externalRequestId, .noKeyUpdate⟩] ++
          (released.map fun id => ⟨.outbox id, .noKeyUpdate⟩).toList

def SucceedStage.held : SucceedStage → List (Request DeliveryRow)
  | .called | .ended _ => []
  | .sending row => [⟨.outbox row.id, .noKeyUpdate⟩]
  | .committing row sent =>
      [⟨.outbox row.id, .noKeyUpdate⟩] ++
        if sent then [⟨.external row.externalRequestId, .noKeyUpdate⟩] else []

def DeliveryParty.held : DeliveryParty → List (Request DeliveryRow)
  | .idle => []
  | .accepting _ _ stage => stage.held
  | .reporting _ stage => stage.held

theorem deliveryProgram_accounts : deliveryProgram.Accounts DeliveryParty.held where
  releases := by
    intro db party past
    change DeliveryParty.ended (party.perform db).2 = true at past
    change DeliveryParty.held (party.perform db).2 = []
    generalize (party.perform db).2 = next at past
    rcases next with _ | ⟨_, _, stage⟩ | ⟨_, stage⟩
    · cases past
    · cases stage <;> first | rfl | cases past
    · cases stage <;> first | rfl | cases past
  takes := by
    intro db party running
    change DeliveryParty.ended (party.perform db).2 = false at running
    change DeliveryParty.held (party.perform db).2 = party.held ++ (party.request db).toList
    rcases party with _ | ⟨context, payload, stage⟩ | ⟨report, stage⟩
    · rfl
    · cases stage with
      | called =>
          simp only [DeliveryParty.perform, AcceptStage.perform] at running ⊢
          split
          · rename_i refused
            rw [refused] at running
            cases running
          · rename_i answered
            rw [answered] at running
            cases running
          · rfl
      | storing arrival =>
          simp only [DeliveryParty.perform, AcceptStage.perform] at running ⊢
          split
          · rename_i taken
            rw [if_pos taken] at running
            cases running
          · rfl
      | recording arrival storedAt =>
          simp only [DeliveryParty.perform, AcceptStage.perform] at running ⊢
          split
          · rename_i refused
            rw [refused] at running
            cases running
          · rename_i outcome judged
            rw [judged] at running
            dsimp only at running
            split
            · rename_i taken
              rw [if_pos taken] at running
              cases running
            · rfl
      | referringExternal | referringProcess | confirming => rfl
      | releasing arrival outcome storedAt recordedAt =>
          simp only [DeliveryParty.perform, AcceptStage.perform, DeliveryParty.held,
            AcceptStage.held, DeliveryParty.request, AcceptStage.request, Option.map_map]
          rfl
      | committing => cases running
      | ended => cases running
    · cases stage with
      | called =>
          simp only [DeliveryParty.perform, SucceedStage.perform] at running ⊢
          cases found : db.delivery.outbox.find? report.covers with
          | none =>
              rw [found] at running
              cases running
          | some row =>
              simp [DeliveryParty.held, SucceedStage.held, DeliveryParty.request,
                SucceedStage.request, found]
      | sending row =>
          simp only [DeliveryParty.perform, SucceedStage.perform, DeliveryParty.held,
            SucceedStage.held, DeliveryParty.request, SucceedStage.request]
          split <;> rfl
      | committing => cases running
      | ended => cases running

/-! A commit writes only rows its transaction has locked. -/

def DeliveryParty.writes : DeliveryParty → OutboxRow → Bool
  | .accepting _ _ (.committing arrival ..), row =>
      row.externalRequestId = arrival.externalRequestId ∧ row.state ≠ .confirmed
  | .reporting report (.committing _ _), row => report.covers row
  | _, _ => false

theorem DeliveryParty.perform_outbox (db : Db) (party : DeliveryParty) :
    ∃ change : OutboxRow → OutboxRow, (∀ row, (change row).id = row.id ∧
        (change row).externalRequestId = row.externalRequestId) ∧
      (party.perform db).1.delivery.outbox = Table.update party.writes change db.delivery.outbox := by
  have unwritten : ∀ {next : Db}, next.delivery.outbox = db.delivery.outbox →
      party.writes = (fun _ => false) → ∃ change : OutboxRow → OutboxRow, (∀ row,
        (change row).id = row.id ∧ (change row).externalRequestId = row.externalRequestId) ∧
          next.delivery.outbox = Table.update party.writes change db.delivery.outbox := by
    intro next same nothing
    refine ⟨id, fun _ => ⟨rfl, rfl⟩, ?_⟩
    rw [same, nothing, Table.update_eq_self _ _ _ fun _ _ => rfl]
  rcases party with _ | ⟨context, payload, stage⟩ | ⟨report, stage⟩
  · exact unwritten rfl rfl
  · cases stage with
    | called =>
        refine unwritten ?_ rfl
        simp only [perform, AcceptStage.perform]
        split <;> rfl
    | storing =>
        refine unwritten ?_ rfl
        simp only [perform, AcceptStage.perform]
        split <;> rfl
    | recording =>
        refine unwritten ?_ rfl
        simp only [perform, AcceptStage.perform]
        split
        · rfl
        · split <;> rfl
    | referringExternal | referringProcess | confirming | releasing | ended =>
        exact unwritten rfl rfl
    | committing arrival outcome storedAt recordedAt released =>
        exact ⟨fun row => { row with state := .confirmed, leaseOwner := none, leaseUntil := none },
          fun _ => ⟨rfl, rfl⟩, rfl⟩
  · cases stage with
    | called =>
        refine unwritten ?_ rfl
        simp only [perform, SucceedStage.perform]
        split <;> rfl
    | sending | ended => exact unwritten rfl rfl
    | committing row sent =>
        refine ⟨fun other => { other with
          state := .delivered, leaseOwner := none, leaseUntil := none }, fun _ => ⟨rfl, rfl⟩, ?_⟩
        simp only [perform, SucceedStage.perform, succeedOutbox]
        split
        · rename_i missed
          refine (Table.update_eq_self _ _ _ fun other member => ?_).symm
          simpa [writes, Report.covers] using List.find?_eq_none.mp missed other member
        · rfl

theorem created_of_update {table : List ExternalRequest} {id : String}
    (matched : ExternalRequest → Bool) (change : ExternalRequest → ExternalRequest)
    (moves : ∀ row, (change row).state ≠ .created)
    (created : ((Table.update matched change table).any fun external =>
      external.id = id ∧ external.state = .created) = true) :
    (table.any fun external => external.id = id ∧ external.state = .created) = true := by
  simp only [List.any_eq_true, decide_eq_true_eq] at created ⊢
  obtain ⟨row, member, named, state⟩ := created
  obtain ⟨old, oldMember, rfl⟩ := Table.mem_update.mp member
  by_cases hit : matched old = true
  · rw [if_pos hit] at state
    exact absurd state (moves old)
  · rw [if_neg hit] at named state
    exact ⟨old, oldMember, named, state⟩

theorem DeliveryParty.perform_created {db : Db} {party : DeliveryParty} {id : String}
    (created : (party.perform db).1.isCreated id = true) : db.isCreated id = true := by
  rcases party with _ | ⟨context, payload, stage⟩ | ⟨report, stage⟩
  · exact created
  · cases stage with
    | called =>
        simp only [perform, AcceptStage.perform] at created
        split at created <;> exact created
    | storing =>
        simp only [perform, AcceptStage.perform] at created
        split at created <;> exact created
    | recording =>
        simp only [perform, AcceptStage.perform] at created
        split at created
        · exact created
        · split at created <;> exact created
    | referringExternal | referringProcess | confirming | releasing | ended => exact created
    | committing arrival outcome storedAt recordedAt released =>
        exact created_of_update (fun external => external.id = arrival.externalRequestId)
          (fun external => { external with state := .confirmed }) (fun _ => by simp) created
  · cases stage with
    | called =>
        simp only [perform, SucceedStage.perform] at created
        split at created <;> exact created
    | sending | ended => exact created
    | committing row sent =>
        simp only [perform, SucceedStage.perform, succeedOutbox] at created
        split at created
        · exact created
        · rename_i found _
          exact created_of_update
            (fun external => external.id = found.externalRequestId ∧ external.state = .created)
            (fun external => { external with state := .sent }) (fun _ => by simp) created

def DeliveryParty.Finds (db : Db) : DeliveryParty → Prop
  | .accepting _ _ (.committing arrival _ _ _ released) => ∀ row ∈ db.delivery.outbox,
      row.externalRequestId = arrival.externalRequestId → row.state ≠ .confirmed →
        released = some row.id
  | .reporting report (.sending row) | .reporting report (.committing row _) =>
      row ∈ db.delivery.outbox ∧ report.covers row = true
  | _ => True

structure DeliveryServer.Sound (server : DeliveryServer) : Prop where
  accounted : server.Accounted DeliveryParty.held
  compatible : server.Compatible
  outboxIds : (server.shared.delivery.outbox.map OutboxRow.id).Nodup
  externals : (server.shared.delivery.outbox.map OutboxRow.externalRequestId).Nodup
  finds : ∀ index, (server.party index).Finds server.shared

theorem Report.covers_id {report : Report} {row : OutboxRow} (covers : report.covers row = true) :
    row.id = report.outboxId ∧ row.state = .leased := by
  simp only [Report.covers, OutboxRow.heldBy, decide_eq_true_eq] at covers
  exact ⟨covers.1, covers.2.2.2.2⟩

theorem DeliveryParty.writes_open {party : DeliveryParty} {row : OutboxRow}
    (writes : party.writes row = true) : row.state ≠ .confirmed := by
  rcases party with _ | ⟨context, payload, stage⟩ | ⟨report, stage⟩
  · cases writes
  · cases stage with
    | committing =>
        simp only [DeliveryParty.writes, decide_eq_true_eq] at writes
        exact writes.2
    | called | storing | referringExternal | referringProcess | recording | confirming | releasing
      | ended => cases writes
  · cases stage with
    | committing =>
        rw [(Report.covers_id writes).2]
        simp
    | called | sending | ended => cases writes

theorem DeliveryParty.Finds.locked {db : Db} {party : DeliveryParty} (finds : party.Finds db)
    {row : OutboxRow} (member : row ∈ db.delivery.outbox) (writes : party.writes row = true) :
    ⟨.outbox row.id, .noKeyUpdate⟩ ∈ party.held := by
  rcases party with _ | ⟨context, payload, stage⟩ | ⟨report, stage⟩
  · cases writes
  · cases stage with
    | committing arrival outcome storedAt recordedAt released =>
        simp only [DeliveryParty.writes, decide_eq_true_eq] at writes
        have found := finds row member writes.1 writes.2
        simp [held, AcceptStage.held, found]
    | called | storing | referringExternal | referringProcess | recording | confirming | releasing
      | ended => cases writes
  · cases stage with
    | committing found sent =>
        have same : row.id = found.id :=
          (Report.covers_id writes).1.trans (Report.covers_id finds.2).1.symm
        simp [held, SucceedStage.held, same]
    | called | sending | ended => cases writes

/-- What a party has found, it has locked. -/
theorem DeliveryParty.reports_locked {report : Report} {row : OutboxRow} {stage : SucceedStage}
    (found : stage = .sending row ∨ ∃ sent, stage = .committing row sent) :
    ⟨.outbox row.id, .noKeyUpdate⟩ ∈ (DeliveryParty.reporting report stage).held := by
  rcases found with rfl | ⟨sent, rfl⟩ <;> simp [held, SucceedStage.held]

section Turn

variable {server : DeliveryServer}

theorem DeliveryServer.Sound.unwritten (sound : DeliveryServer.Sound server) {index other : Nat}
    (different : other ≠ index) {row : OutboxRow} (member : row ∈ server.shared.delivery.outbox)
    (locked : ⟨.outbox row.id, .noKeyUpdate⟩ ∈ (server.party other).held) :
    (server.party index).writes row = false := by
  rw [Bool.eq_false_iff]
  intro writes
  have own := (sound.finds index).locked member writes
  have clash := Program.held_compatible sound.accounted sound.compatible different locked own rfl
  cases clash

theorem DeliveryParty.Finds.keep {party acting : DeliveryParty} {db : Db} (finds : party.Finds db)
    (unwritten : ∀ row ∈ db.delivery.outbox, ⟨.outbox row.id, .noKeyUpdate⟩ ∈ party.held →
      acting.writes row = false) : party.Finds (acting.perform db).1 := by
  obtain ⟨change, keeps, outbox⟩ := DeliveryParty.perform_outbox db acting
  have stays : ∀ report row stage, party = .reporting report stage →
      (stage = .sending row ∨ ∃ sent, stage = .committing row sent) →
      row ∈ db.delivery.outbox → row ∈ (acting.perform db).1.delivery.outbox := by
    rintro report row stage rfl found member
    rw [outbox]
    refine Table.mem_update.mpr ⟨row, member, ?_⟩
    rw [unwritten row member (DeliveryParty.reports_locked found)]
    rfl
  rcases party with _ | ⟨context, payload, stage⟩ | ⟨report, stage⟩
  · trivial
  · cases stage with
    | committing arrival outcome storedAt recordedAt released =>
        intro row member owns open_
        rw [outbox] at member
        obtain ⟨old, oldMember, rfl⟩ := Table.mem_update.mp member
        by_cases written : acting.writes old = true
        · rw [if_pos written] at owns ⊢
          rw [(keeps old).2] at owns
          rw [(keeps old).1]
          exact finds old oldMember owns (DeliveryParty.writes_open written)
        · rw [if_neg written] at owns open_ ⊢
          exact finds old oldMember owns open_
    | called | storing | referringExternal | referringProcess | recording | confirming | releasing
      | ended => trivial
  · cases stage with
    | sending row => exact ⟨stays report row _ rfl (Or.inl rfl) finds.1, finds.2⟩
    | committing row sent => exact ⟨stays report row _ rfl (Or.inr ⟨sent, rfl⟩) finds.1, finds.2⟩
    | called | ended => trivial

theorem DeliveryParty.Finds.perform {db : Db} {party : DeliveryParty}
    (externals : (db.delivery.outbox.map OutboxRow.externalRequestId).Nodup)
    (finds : party.Finds db) : (party.perform db).2.Finds (party.perform db).1 := by
  rcases party with _ | ⟨context, payload, stage⟩ | ⟨report, stage⟩
  · trivial
  · cases stage with
    | called =>
        simp only [DeliveryParty.perform, AcceptStage.perform]
        split <;> trivial
    | storing =>
        simp only [DeliveryParty.perform, AcceptStage.perform]
        split <;> trivial
    | recording =>
        simp only [DeliveryParty.perform, AcceptStage.perform]
        split
        · trivial
        · split <;> trivial
    | referringExternal | referringProcess | confirming | committing | ended => trivial
    | releasing arrival outcome storedAt recordedAt =>
        intro row member owns open_
        cases found : db.unconfirmed? arrival.externalRequestId with
        | none => simpa [owns, open_] using List.find?_eq_none.mp found row member
        | some other =>
            have otherOwns : other.externalRequestId = arrival.externalRequestId := by
              have facts := List.find?_some found
              simp only [decide_eq_true_eq] at facts
              exact facts.1
            rw [Table.key_unique externals member (List.mem_of_find?_eq_some found)
              (owns.trans otherOwns.symm)]
            rfl
  · cases stage with
    | called =>
        simp only [DeliveryParty.perform, SucceedStage.perform]
        split
        · trivial
        · rename_i row found
          exact ⟨List.mem_of_find?_eq_some found, List.find?_some found⟩
    | sending row => exact finds
    | committing | ended => trivial

theorem DeliveryServer.Sound.turn (sound : DeliveryServer.Sound server) (index : Nat) :
    DeliveryServer.Sound (deliveryProgram.turn server index) := by
  refine ⟨deliveryProgram_accounts.turn sound.accounted index,
    sound.compatible.turn deliveryProgram index, ?_, ?_, ?_⟩
  all_goals
    unfold Program.turn
    split
  · obtain ⟨change, keeps, outbox⟩ :=
      DeliveryParty.perform_outbox server.shared (server.party index)
    change ((server.party index).perform server.shared).1.delivery.outbox.map OutboxRow.id |>.Nodup
    rw [outbox, Table.map_update _ _ _ fun row => (keeps row).1]
    exact sound.outboxIds
  · exact sound.outboxIds
  · obtain ⟨change, keeps, outbox⟩ :=
      DeliveryParty.perform_outbox server.shared (server.party index)
    change ((server.party index).perform server.shared).1.delivery.outbox.map
      OutboxRow.externalRequestId |>.Nodup
    rw [outbox, Table.map_update _ _ _ fun row => (keeps row).2]
    exact sound.externals
  · exact sound.externals
  · intro other
    by_cases own : other = index
    · subst own
      rw [Program.proceed_own]
      exact (sound.finds other).perform sound.externals
    · rw [Program.proceed_other _ _ _ own]
      exact (sound.finds other).keep fun row member locked => sound.unwritten own member locked
  · exact sound.finds

end Turn

/-! Which waits can cross. -/

def DeliveryServer.Facing (server : DeliveryServer) (left right : Nat) : Prop :=
  ∃ report row context payload arrival outcome storedAt recordedAt,
    server.party left = .reporting report (.sending row) ∧
    server.party right =
      .accepting context payload (.releasing arrival outcome storedAt recordedAt) ∧
    row.externalRequestId = arrival.externalRequestId ∧
    server.shared.isCreated row.externalRequestId = true

section Crossing

variable {server : DeliveryServer} {left right : Nat} {first second : DeliveryRow}

theorem AcceptStage.request_update {db : Db} {stage : AcceptStage} {request : Request DeliveryRow}
    (asked : stage.request db = some request) (mode : request.mode = .update) :
    ∃ messageId, request.row = .message messageId := by
  cases stage with
  | storing arrival =>
      cases asked
      exact ⟨_, rfl⟩
  | referringExternal | referringProcess | confirming =>
      cases asked
      cases mode
  | releasing =>
      obtain ⟨row, _, rfl⟩ := Option.map_eq_some_iff.mp asked
      cases mode
  | called | recording | committing | ended => cases asked

def acceptRank : DeliveryRow → Nat
  | .message _ => 0
  | .process _ | .external _ => 1
  | .outbox _ => 2

theorem AcceptStage.ordered {db other : Db} {stage wanting : AcceptStage}
    {request taken : Request DeliveryRow} {mode : Mode} (asked : stage.request db = some request)
    (member : taken ∈ stage.held) (conflict : taken.mode.conflicts mode = true)
    (wanted : wanting.request other = some ⟨taken.row, mode⟩) :
    acceptRank taken.row < acceptRank request.row := by
  -- a key share lock is in the way of nothing the two calls ask for
  have exclusive : taken.mode = .keyShare → ∃ messageId, taken.row = .message messageId := by
    intro shared
    change ∃ messageId, (⟨taken.row, mode⟩ : Request DeliveryRow).row = .message messageId
    refine AcceptStage.request_update wanted ?_
    rw [shared] at conflict
    cases mode <;> first | rfl | cases conflict
  cases stage with
  | called | storing | ended => cases member
  | recording | committing => cases asked
  | referringExternal arrival storedAt =>
      cases asked
      rw [List.mem_singleton.mp member]
      simp [acceptRank]
  | referringProcess arrival storedAt =>
      cases asked
      simp only [held, List.mem_cons, List.not_mem_nil, or_false] at member
      rcases member with rfl | rfl
      · simp [acceptRank]
      · obtain ⟨_, impossible⟩ := exclusive rfl
        cases impossible
  | confirming arrival outcome storedAt recordedAt =>
      cases asked
      simp only [held, List.mem_cons, List.not_mem_nil, or_false] at member
      rcases member with rfl | rfl | rfl
      · simp [acceptRank]
      · obtain ⟨_, impossible⟩ := exclusive rfl
        cases impossible
      · obtain ⟨_, impossible⟩ := exclusive rfl
        cases impossible
  | releasing arrival outcome storedAt recordedAt =>
      obtain ⟨row, _, rfl⟩ := Option.map_eq_some_iff.mp asked
      simp only [held, List.mem_cons, List.not_mem_nil, or_false] at member
      rcases member with rfl | rfl | rfl | rfl <;> simp [acceptRank]

def reportRank : DeliveryRow → Nat
  | .external _ => 1
  | _ => 0

theorem SucceedStage.ordered {db : Db} {report : Report} {stage : SucceedStage}
    {request taken : Request DeliveryRow} (asked : stage.request db report = some request)
    (member : taken ∈ stage.held) : reportRank taken.row < reportRank request.row := by
  cases stage with
  | called | ended => cases member
  | committing => cases asked
  | sending row =>
      rw [List.mem_singleton.mp member]
      simp only [SucceedStage.request] at asked
      split at asked
      · cases asked
        simp [reportRank]
      · cases asked

theorem DeliveryServer.Sound.facing_of_crossed (sound : DeliveryServer.Sound server)
    {report : Report} {stage : SucceedStage} {context : Context} {payload : Json}
    {answer : AcceptStage} (reporting : server.party left = .reporting report stage)
    (accepting : server.party right = .accepting context payload answer)
    (crossed : deliveryProgram.Crossed server left right first second) :
    DeliveryServer.Facing server left right := by
  obtain ⟨_, mode, taken, asked, member, _⟩ :=
    (Program.waitsFor_iff sound.accounted).mp crossed.1
  obtain ⟨_, other, own, otherAsked, ownMember, _⟩ :=
    (Program.waitsFor_iff sound.accounted).mp crossed.2
  change (server.party left).request server.shared = some ⟨first, mode⟩ at asked
  change (server.party right).request server.shared = some ⟨second, other⟩ at otherAsked
  have finds := sound.finds left
  rw [reporting] at asked ownMember finds
  rw [accepting] at member otherAsked
  cases stage with
  | called | ended => cases ownMember
  | committing => cases asked
  | sending row =>
      simp only [DeliveryParty.request, SucceedStage.request] at asked
      split at asked
      · rename_i created
        obtain ⟨rfl, rfl⟩ : second = .outbox row.id ∧ own = .noKeyUpdate := by
          simpa [DeliveryParty.held, SucceedStage.held] using ownMember
        cases answer with
        | storing | referringExternal | referringProcess | confirming => cases otherAsked
        | called | recording | committing | ended => cases otherAsked
        | releasing arrival outcome storedAt recordedAt =>
            obtain ⟨found, candidate, sameRow⟩ := Option.map_eq_some_iff.mp otherAsked
            have facts := List.find?_some candidate
            simp only [decide_eq_true_eq] at facts
            have sameId : found.id = row.id := by
              simpa using congrArg Request.row sameRow
            have same := Table.key_unique sound.outboxIds (List.mem_of_find?_eq_some candidate)
              finds.1 sameId
            exact ⟨report, row, context, payload, arrival, outcome, storedAt, recordedAt, reporting,
              accepting, same ▸ facts.1, created⟩
      · cases asked

theorem DeliveryServer.Sound.crossed_of_facing (sound : DeliveryServer.Sound server)
    (facing : DeliveryServer.Facing server left right) :
    ∃ first second, deliveryProgram.Crossed server left right first second := by
  obtain ⟨report, row, context, payload, arrival, outcome, storedAt, recordedAt, reporting,
    accepting, owns, created⟩ := facing
  have finds := sound.finds left
  rw [reporting] at finds
  have different : left ≠ right := by
    rintro rfl
    rw [reporting] at accepting
    cases accepting
  have candidate : server.shared.unconfirmed? arrival.externalRequestId = some row := by
    cases found : server.shared.unconfirmed? arrival.externalRequestId with
    | none =>
        have missed := List.find?_eq_none.mp found row finds.1
        simp [owns, (Report.covers_id finds.2).2] at missed
    | some other =>
        have facts := List.find?_some found
        simp only [decide_eq_true_eq] at facts
        rw [Table.key_unique sound.externals (List.mem_of_find?_eq_some found) finds.1
          (facts.1.trans owns.symm)]
  refine ⟨.external row.externalRequestId, .outbox row.id,
    (Program.waitsFor_iff sound.accounted).mpr ⟨different, .noKeyUpdate, .noKeyUpdate, ?_, ?_, rfl⟩,
    (Program.waitsFor_iff sound.accounted).mpr
      ⟨different.symm, .noKeyUpdate, .noKeyUpdate, ?_, ?_, rfl⟩⟩
  · change (server.party left).request server.shared = _
    simp [reporting, DeliveryParty.request, SucceedStage.request, created]
  · simp [accepting, DeliveryParty.held, AcceptStage.held, owns]
  · change (server.party right).request server.shared = _
    simp [accepting, DeliveryParty.request, AcceptStage.request, candidate]
  · simp [reporting, DeliveryParty.held, SucceedStage.held]

theorem DeliveryServer.Sound.crossed_iff (sound : DeliveryServer.Sound server) :
    (∃ left right first second, deliveryProgram.Crossed server left right first second) ↔
      ∃ left right, DeliveryServer.Facing server left right := by
  constructor
  · rintro ⟨left, right, first, second, crossed⟩
    cases leftParty : server.party left with
    | idle =>
        obtain ⟨⟨_, request, _, asked, _⟩, _⟩ := crossed
        change (server.party left).request server.shared = _ at asked
        rw [leftParty] at asked
        cases asked
    | accepting context payload stage =>
        cases rightParty : server.party right with
        | idle =>
            obtain ⟨_, _, request, _, asked, _⟩ := crossed
            change (server.party right).request server.shared = _ at asked
            rw [rightParty] at asked
            cases asked
        | accepting otherContext otherPayload answer =>
            exfalso
            refine Program.not_crossed_of_ranked sound.accounted acceptRank ?_ crossed
            intro index between request taken mode asked member conflict wanted
            have wanting : ∃ wants : AcceptStage, wants.request server.shared =
                some ⟨taken.row, mode⟩ := by
              rcases wanted with wanted | wanted
              · change (server.party left).request server.shared = _ at wanted
                rw [leftParty] at wanted
                exact ⟨stage, wanted⟩
              · change (server.party right).request server.shared = _ at wanted
                rw [rightParty] at wanted
                exact ⟨answer, wanted⟩
            obtain ⟨wants, wants_taken⟩ := wanting
            change (server.party index).request server.shared = some request at asked
            rcases between with rfl | rfl
            · rw [leftParty] at asked member
              exact AcceptStage.ordered asked member conflict wants_taken
            · rw [rightParty] at asked member
              exact AcceptStage.ordered asked member conflict wants_taken
        | reporting report answer =>
            exact ⟨right, left, sound.facing_of_crossed rightParty leftParty crossed.symm⟩
    | reporting report stage =>
        cases rightParty : server.party right with
        | idle =>
            obtain ⟨_, _, request, _, asked, _⟩ := crossed
            change (server.party right).request server.shared = _ at asked
            rw [rightParty] at asked
            cases asked
        | accepting context payload answer =>
            exact ⟨left, right, sound.facing_of_crossed leftParty rightParty crossed⟩
        | reporting otherReport answer =>
            exfalso
            refine Program.not_crossed_of_ranked sound.accounted reportRank ?_ crossed
            intro index between request taken mode asked member _ _
            change (server.party index).request server.shared = some request at asked
            rcases between with rfl | rfl
            · rw [leftParty] at asked member
              exact SucceedStage.ordered asked member
            · rw [rightParty] at asked member
              exact SucceedStage.ordered asked member
  · rintro ⟨left, right, facing⟩
    exact ⟨left, right, sound.crossed_of_facing facing⟩

end Crossing

/-- The statement a call runs is the first of its two updates of a delivery, while the call of
the other kind is between its own two. -/
def DeliveryServer.Meets (server : DeliveryServer) (index : Nat) : Prop :=
  server.grants index (deliveryProgram.next server index) = true ∧
    match server.party index with
    | .accepting _ _ (.confirming arrival ..) => ∃ other report row,
        server.party other = .reporting report (.sending row) ∧
        row.externalRequestId = arrival.externalRequestId ∧
        server.shared.isCreated row.externalRequestId = true
    | .reporting report .called => ∃ row other context payload arrival outcome storedAt recordedAt,
        server.shared.delivery.outbox.find? report.covers = some row ∧
        server.party other =
          .accepting context payload (.releasing arrival outcome storedAt recordedAt) ∧
        row.externalRequestId = arrival.externalRequestId ∧
        server.shared.isCreated row.externalRequestId = true
    | _ => False

section Meeting

variable {server : DeliveryServer} {index : Nat}

theorem AcceptStage.perform_releasing {db : Db} {context : Context} {payload : Json}
    {stage : AcceptStage} {arrival : Arrival} {outcome : ReceiptOutcome} {storedAt recordedAt : Time}
    (releases : (stage.perform db context payload).2 =
      .releasing arrival outcome storedAt recordedAt) :
    stage = .confirming arrival outcome storedAt recordedAt := by
  cases stage with
  | called =>
      simp only [perform] at releases
      split at releases <;> cases releases
  | storing =>
      simp only [perform] at releases
      split at releases <;> cases releases
  | recording =>
      simp only [perform] at releases
      split at releases
      · cases releases
      · split at releases <;> cases releases
  | referringExternal | referringProcess | releasing | committing | ended => cases releases
  | confirming =>
      cases releases
      rfl

theorem SucceedStage.perform_sending {db : Db} {report : Report} {stage : SucceedStage}
    {row : OutboxRow} (sends : (stage.perform db report).2 = .sending row) :
    stage = .called ∧ db.delivery.outbox.find? report.covers = some row := by
  cases stage with
  | called =>
      simp only [perform] at sends
      split at sends
      · cases sends
      · rename_i found
        cases sends
        exact ⟨rfl, found⟩
  | sending | committing | ended => cases sends

theorem DeliveryServer.meets_of_facing (calm : ¬ ∃ left right, DeliveryServer.Facing server left right)
    (facing : ∃ left right, DeliveryServer.Facing (deliveryProgram.turn server index) left right) :
    DeliveryServer.Meets server index := by
  obtain ⟨left, right, report, row, context, payload, arrival, outcome, storedAt, recordedAt,
    reporting, accepting, owns, created⟩ := facing
  unfold Program.turn at reporting accepting created
  split at reporting
  · rename_i granted
    rw [if_pos granted] at accepting created
    have createdBefore : server.shared.isCreated row.externalRequestId = true :=
      DeliveryParty.perform_created created
    refine ⟨granted, ?_⟩
    by_cases isLeft : left = index
    · subst isLeft
      have different : right ≠ left := by
        rintro rfl
        rw [reporting] at accepting
        cases accepting
      rw [Program.proceed_own] at reporting
      rw [Program.proceed_other _ _ _ different] at accepting
      change ((server.party left).perform server.shared).2 = _ at reporting
      cases party : server.party left with
      | idle | accepting =>
          rw [party] at reporting
          cases reporting
      | reporting own stage =>
          rw [party] at reporting
          simp only [DeliveryParty.perform, DeliveryParty.reporting.injEq] at reporting
          obtain ⟨rfl, sends⟩ := reporting
          obtain ⟨rfl, found⟩ := SucceedStage.perform_sending sends
          exact ⟨row, right, context, payload, arrival, outcome, storedAt, recordedAt, found, accepting,
            owns, createdBefore⟩
    · rw [Program.proceed_other _ _ _ isLeft] at reporting
      by_cases isRight : right = index
      · subst isRight
        rw [Program.proceed_own] at accepting
        change ((server.party right).perform server.shared).2 = _ at accepting
        cases party : server.party right with
        | idle | reporting =>
            rw [party] at accepting
            cases accepting
        | accepting ownContext ownPayload stage =>
            rw [party] at accepting
            simp only [DeliveryParty.perform, DeliveryParty.accepting.injEq] at accepting
            obtain ⟨rfl, rfl, releases⟩ := accepting
            rw [AcceptStage.perform_releasing releases]
            exact ⟨left, report, row, reporting, owns, createdBefore⟩
      · rw [Program.proceed_other _ _ _ isRight] at accepting
        exact absurd ⟨left, right, report, row, context, payload, arrival, outcome, storedAt,
          recordedAt, reporting, accepting, owns, createdBefore⟩ calm
  · rename_i waits
    rw [if_neg waits] at accepting created
    exact absurd ⟨left, right, report, row, context, payload, arrival, outcome, storedAt, recordedAt,
      reporting, accepting, owns, created⟩ calm

theorem DeliveryServer.facing_of_meets (meets : DeliveryServer.Meets server index) :
    ∃ left right, DeliveryServer.Facing (deliveryProgram.turn server index) left right := by
  obtain ⟨granted, meets⟩ := meets
  have turned : deliveryProgram.turn server index = deliveryProgram.proceed server index := by
    unfold Program.turn
    rw [if_pos granted]
  split at meets
  · rename_i context payload arrival outcome storedAt recordedAt party
    obtain ⟨other, report, row, reporting, owns, created⟩ := meets
    have different : other ≠ index := by
      rintro rfl
      rw [party] at reporting
      cases reporting
    refine ⟨other, index, report, row, context, payload, arrival, outcome, storedAt, recordedAt, ?_,
      ?_, owns, ?_⟩
    · rw [turned, Program.proceed_other _ _ _ different, reporting]
    · rw [turned, Program.proceed_own, party]
      rfl
    · rw [turned, Program.proceed_shared, party]
      exact created
  · rename_i report party
    obtain ⟨row, other, context, payload, arrival, outcome, storedAt, recordedAt, found, accepting,
      owns, created⟩ := meets
    have different : other ≠ index := by
      rintro rfl
      rw [party] at accepting
      cases accepting
    have done : deliveryProgram.perform server.shared (.reporting report .called) =
        (server.shared, .reporting report (.sending row)) := by
      simp [deliveryProgram, DeliveryParty.perform, SucceedStage.perform, found]
    refine ⟨index, other, report, row, context, payload, arrival, outcome, storedAt, recordedAt, ?_,
      ?_, owns, ?_⟩
    · rw [turned, Program.proceed_own, party, done]
    · rw [turned, Program.proceed_other _ _ _ different, accepting]
    · rw [turned, Program.proceed_shared, party, done]
      exact created
  · exact meets.elim

end Meeting

theorem DeliveryServer.start_sound {db : Db} (ledger : db.Ledger) (lattice : db.delivery.Lattice)
    (calls : Nat → DeliveryCall) : DeliveryServer.Sound (DeliveryServer.start db calls) where
  accounted := by
    intro lock
    refine iff_of_false (List.not_mem_nil) ?_
    change lock.toRequest ∉ (calls lock.owner).party.held
    cases calls lock.owner <;> exact List.not_mem_nil
  compatible := nofun
  outboxIds := ledger.outboxIds
  externals := by
    change (db.delivery.outbox.map OutboxRow.externalRequestId).Nodup
    rw [lattice.paired]
    exact lattice.externalIds
  finds := by
    intro index
    change (calls index).party.Finds db
    cases calls index <;> trivial

/-- The receipt of a delivery and the report of its success never wait for each other's rows in
exactly the runs where neither begins its two updates within those of the other. -/
theorem callback_never_deadlocks (config : Config) (clock : Nat → Time) (digest : String → String)
    (history : List Call) (calls : Nat → DeliveryCall) (turns : List Nat) :
    (∀ done, done <+: turns → ¬ ∃ left right first second, deliveryProgram.Crossed
        (Runs.run deliveryProgram.turn
          (DeliveryServer.start (reached config clock digest history).db calls) done)
        left right first second) ↔
      Runs.Guarded deliveryProgram.turn (fun server index => ¬ DeliveryServer.Meets server index)
        (DeliveryServer.start (reached config clock digest history).db calls) turns := by
  refine Runs.guarded_iff_safe DeliveryServer.Sound
    (fun server => ¬ ∃ left right first second,
      deliveryProgram.Crossed server left right first second)
    (fun server index sound => sound.turn index) ?_ turns _
    (DeliveryServer.start_sound (reached_steady history).ledger
      (reached_lattice config clock digest history) calls) ?_
  · intro server index sound calm
    rw [sound.crossed_iff] at calm
    rw [(sound.turn index).crossed_iff]
    exact not_congr ⟨DeliveryServer.facing_of_meets, DeliveryServer.meets_of_facing calm⟩
  · rintro ⟨left, _, _, _, ⟨_, _, lock, _, member, _⟩, _⟩
    cases member

namespace Seed

def delivering : List Call := prepared ++ [.claimOutbox "dispatcher" (some 10) fun _ => false]

def receiptContext : Context :=
  { caller "receipt:write" with
    signatureVerified := some true, signatureVersion := some 1
    bodySha256 := some "0123456789abcdef0123456789abcdef0123456789abcdef0123456789abcdef" }

def receiptPayload (messageId outcome : String) : Json :=
  .object [
    ("version", .number (.ofInt 1)), ("messageId", .text messageId),
    ("externalRequestId", .text (uuidText 10)), ("outcome", .text outcome),
    ("occurredAt", .text "2025-01-01T00:00:00Z")]

def report : Report := ⟨11, some "dispatcher", some 1, none⟩

def callbacks : Nat → DeliveryCall
  | 0 => .succeedOutbox report
  | 1 => .receiptAccept receiptContext (receiptPayload "first" "COMPLETED")
  | _ => .none

def leasedRow : OutboxRow :=
  ⟨11, uuidText 10, 8, .leased, some "dispatcher", 1, some 30000065, 1, none, none, 39⟩

def firstArrival : Arrival :=
  ⟨"first", uuidText 10, 1, some .completed,
    "0123456789abcdef0123456789abcdef0123456789abcdef0123456789abcdef",
    receiptBody (receiptPayload "first" "COMPLETED")⟩

end Seed

/-- The report holds the outbox row and waits for the external request, the receipt holds the
external request and waits for the outbox row. -/
theorem callback_deadlocks :
    ¬ ∀ (config : Config) (clock : Nat → Time) (digest : String → String) (history : List Call)
      (calls : Nat → DeliveryCall) (turns done : List Nat), done <+: turns →
      ¬ ∃ left right first second, deliveryProgram.Crossed
        (Runs.run deliveryProgram.turn
          (DeliveryServer.start (reached config clock digest history).db calls) done)
        left right first second := by
  intro never
  have sound := Runs.run_invariant DeliveryServer.Sound (fun _ index sound => sound.turn index)
    [0, 1, 1, 1, 1, 1, 1] _
    (DeliveryServer.start_sound (reached_steady Seed.delivering).ledger
      (reached_lattice Seed.config (fun tick => (tick : Int)) id Seed.delivering) Seed.callbacks)
  refine never Seed.config _ id Seed.delivering Seed.callbacks [0, 1, 1, 1, 1, 1, 1] _
    (List.prefix_refl _) ⟨0, 1, sound.crossed_of_facing ?_⟩
  exact ⟨Seed.report, Seed.leasedRow, Seed.receiptContext, Seed.receiptPayload "first" "COMPLETED",
    Seed.firstArrival, .completed, 67, 68, by decide +kernel, by decide +kernel, by decide +kernel,
    by decide +kernel⟩

end PaymentWorkflow
