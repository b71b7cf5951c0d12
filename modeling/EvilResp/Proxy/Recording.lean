import EvilResp.Proxy.Service
import EvilResp.Proxy.Tamper

/-!
# The reproduction file of a run

The connections append to one file.  Whatever the order of their steps, the file is read back as
one record for each delivery that is to be recorded, in the order of the steps; and a reply that is
not recorded was not tampered with.

Main results:

- Theorem {lit}`Service.recorded_step`: one step writes the records that it adds to the histories.
- Theorem {lit}`Service.recording_exact`: so the file of every run can be read back exactly.
- Theorem {lit}`System.unrecorded_untampered`: what is not recorded is the reply of the upstream.
-/

namespace EvilResp

open Library
open EvilResp.Resp

namespace Connection

variable {site : Site} {conn next : Connection}

/-- The records of a history. -/
def records (conn : Connection) : List ReproRecord :=
  conn.history.filterMap (·.record)

/-- A step leaves at most one new record. -/
theorem newRecords_cases {given : List (Nat × Nat)} {shared shared' : Shared} {input : Input}
    {effect : Effect} (h : Indexed site given conn)
    (hstep : conn.step site shared input = some (effect, shared', next)) :
    ∃ record : Option ReproRecord, conn.newRecords next = record.toList ∧
      next.records = conn.records ++ record.toList := by
  rcases step_history h hstep with hsame | ⟨final, command, hadded, -⟩
  · exact ⟨none, by simp [newRecords, hsame], by simp [records, hsame]⟩
  · refine ⟨final.record, ?_, ?_⟩
    · cases hrecord : final.record <;> simp [newRecords, hadded, hrecord]
    · cases hrecord : final.record <;> simp [records, hadded, hrecord]

/-- A line for a monitor leaves no record. -/
theorem newRecords_line {shared shared' : Shared} {text : String} {effect : Effect}
    (h : Ledger site conn)
    (hstep : conn.step site shared (.line text) = some (effect, shared', next)) :
    conn.newRecords next = [] := by
  cases step_cases hstep with
  | published hphase =>
      rename_i entry
      have hpending := h.pending
      simp only [pending, hphase, List.mem_singleton, forall_eq] at hpending
      unfold publish newRecords
      dsimp only
      split
      · simp
      · simp [finish, hpending.1]

end Connection

namespace Service

open Connection

variable {channel : Channel String} {codec : Codec SerializedRecord} {actions : List Action}
  {service next : Service channel}

/-! ## The file of a run -/

/-- The record of a delivery, with the connection that made it and its socket at that time. -/
structure Written where
  connection : Nat
  site : Site
  socket : Socket
  record : ReproRecord

/-- What is written of a record, after the work on the socket. -/
def Written.serialized (written : Written) : SerializedRecord :=
  (written.record.complete
    { written.socket with supportsReset := written.site.resetSupported }).serialized
      written.site.lib written.connection

/-- What a record tells when it is written.  After a delivery with a connection fault and without
failure, that is also what became of the socket. -/
inductive Completes (socket : Socket) (record : ReproRecord) : ReproRecord → Prop where
  | unfaulted (h : record.deliveryPlan.connectionFault = none) : Completes socket record record
  | failed (h : record.deliveryOutcome.errorStage.isSome = true) : Completes socket record record
  | faulted {plan : ConnectionFaultPlan} {finished : FaultEnd}
      (hplan : record.deliveryPlan.connectionFault = some plan)
      (hwhole : record.deliveryOutcome.errorStage = none)
      (hended : FaultEnded socket plan record.deliveryOutcome {} finished) :
      Completes socket record { record with deliveryOutcome := finished.outcome }

theorem completes_complete (socket : Socket) (record : ReproRecord) :
    Completes socket record (record.complete socket) := by
  unfold ReproRecord.complete
  split
  · exact .unfaulted ‹_›
  · rename_i plan hplan
    split_ifs with hfailed
    · exact .failed hfailed
    · exact .faulted hplan (by simpa using hfailed) (finishFault_ends socket {} plan _)

/-- What the file has of a record: its fields after the work on the socket. -/
def OnFile (written : Written) (filed : SerializedRecord) : Prop :=
  ∃ completed,
    Completes { written.socket with supportsReset := written.site.resetSupported } written.record
      completed ∧
    filed = completed.serialized written.site.lib written.connection

theorem onFile_serialized (written : Written) : OnFile written written.serialized :=
  ⟨_, completes_complete _ written.record, rfl⟩

/-- The connection and the socket of a step. -/
def Action.socket : Action → Option (Nat × Socket)
  | .act i _ _ socket => some (i, socket)
  | _ => none

/-- The records of one connection. -/
def records (system : System) (i : Nat) : List ReproRecord :=
  match system.connections[i]? with
  | some (_, conn) => conn.records
  | none => []

/-- The records that were written from one state to a later one, in order: those that were added
to the histories, each by a step of its own connection and with what the socket did in it. -/
structure Records (actions : List Action) (start next : System) (written : List Written) :
    Prop where
  sockets : (written.map fun item => (item.connection, item.socket)).Sublist
    (actions.filterMap Action.socket)
  histories : ∀ i, records next i =
    records start i ++ (written.filter (·.connection = i)).map (·.record)
  sites : ∀ item ∈ written, ∃ conn, next.connections[item.connection]? = some (item.site, conn)
  kept : ∀ (i : Nat) (site : Site) (conn : Connection),
    start.connections[i]? = some (site, conn) →
      ∃ later, next.connections[i]? = some (site, later)

variable {start system after : System} {written more : List Written}

theorem Records.refl (system : System) : Records [] system system [] where
  sockets := List.Sublist.slnil
  histories _ := (List.append_nil _).symm
  sites := by simp
  kept _ _ conn hconn := ⟨conn, hconn⟩

theorem Records.trans {later : List Action} (h : Records actions start system written)
    (hmore : Records later system after more) :
    Records (actions ++ later) start after (written ++ more) where
  sockets := by
    rw [List.map_append, List.filterMap_append]
    exact h.sockets.append hmore.sockets
  histories i := by
    rw [hmore.histories i, h.histories i, List.filter_append, List.map_append, List.append_assoc]
  sites item hitem := by
    rcases List.mem_append.mp hitem with hold | hnew
    · rcases h.sites item hold with ⟨conn, hconn⟩
      exact hmore.kept _ _ conn hconn
    · exact hmore.sites item hnew
  kept i site conn hconn := by
    rcases h.kept i site conn hconn with ⟨found, hfound⟩
    exact hmore.kept i site found hfound

/-- A step that leaves the connections alone writes nothing. -/
theorem records_nil (action : Action) (system : System) : Records [action] system system [] where
  sockets := List.nil_sublist _
  histories _ := (List.append_nil _).symm
  sites := by simp
  kept _ _ conn hconn := ⟨conn, hconn⟩

/-- A new client has no records. -/
theorem records_accepted {site : Site} {script : List WriteEvent}
    (hstep : system.step (.accept site script) = some after) :
    Records [.accept site script] system after [] where
  sockets := List.nil_sublist _
  histories i := by
    have hconnections : after.connections = system.connections ++
        [(site, Connection.new site system.shared script)] := by
      simp only [System.step, Option.some.injEq] at hstep
      rw [← hstep]
    rw [records, records, hconnections, List.filter_nil, List.map_nil, List.append_nil]
    rcases Nat.lt_or_ge i system.connections.length with hold | hnew
    · rw [List.getElem?_append_left hold]
    · rw [List.getElem?_append_right hnew, List.getElem?_eq_none hnew, List.getElem?_singleton]
      split_ifs
      · rfl
      · rfl
  sites := by simp
  kept i site conn hconn := by
    simp only [System.step, Option.some.injEq] at hstep
    rw [← hstep]
    exact ⟨conn, (List.getElem?_append_left (List.getElem?_eq_some_iff.mp hconn).1).trans hconn⟩

/-- The step of a connection writes the record that it adds to the history. -/
theorem Acted.records {service next : Service channel} {i : Nat} {input : Input} {now : Duration}
    {socket : Socket} {site : Site} {conn reached : Connection} {effect : Effect}
    {record : Option ReproRecord} (action : Action) (written : Socket)
    (hacted : Acted codec service next i input now socket site conn reached effect)
    (hrecord : reached.records = conn.records ++ record.toList)
    (hsocket : record ≠ none → action.socket = some (i, written)) :
    Records [action] service.system next.system (record.toList.map fun record =>
      { connection := i, site, socket := written, record }) := by
  rcases System.connections_act hacted.system hacted.found hacted.reached with
    ⟨-, -, -, -, hconnections⟩
  refine ⟨?_, ?_, ?_, ?_⟩
  · cases record with
    | none => exact List.nil_sublist _
    | some record => simp [hsocket]
  · intro j
    by_cases hsame : i = j
    · subst hsame
      rw [Service.records, Service.records, hacted.reached, hacted.found]
      dsimp only
      rw [hrecord]
      cases record <;> simp
    · rw [Service.records, Service.records, hconnections, List.getElem?_set_ne hsame]
      cases record <;> simp [hsame]
  · intro item hitem
    rcases List.mem_map.mp hitem with ⟨record, -, rfl⟩
    exact ⟨reached, hacted.reached⟩
  · intro j other found hfound
    by_cases hsame : i = j
    · subst hsame
      rw [hacted.found] at hfound
      cases hfound
      exact ⟨reached, hacted.reached⟩
    · rw [hconnections, List.getElem?_set_ne hsame]
      exact ⟨found, hfound⟩

/-- The accounts are kept by every step of the service. -/
theorem ledger_step {action : Action} (h : service.system.Each Connection.Ledger)
    (hstep : service.step codec action = some next) :
    next.system.Each Connection.Ledger := by
  rcases step_system hstep with ⟨taken, htaken⟩ | hsame
  · exact System.kept_ledger.each_step h htaken
  · exact hsame ▸ h

/-- The file grows by one line for each record that was written. -/
def appended (codec : Codec SerializedRecord) (file : Option Bytes) (written : List Written) :
    Option Bytes :=
  file.map fun file => file ++ (written.map Written.serialized).flatMap codec.line

/-- One step writes the records that it adds to the histories. -/
theorem recorded_step {action : Action} (h : service.system.Each Connection.Ledger)
    (hstep : service.step codec action = some next) :
    ∃ written, Records [action] service.system next.system written ∧
      next.reproFile = appended codec service.reproFile written := by
  cases action with
  | accept site script =>
      rcases step_accepted hstep with ⟨hsystem, hnext⟩
      refine ⟨[], records_accepted hsystem, ?_⟩
      rw [hnext]
      simp [appended]
  | act i input now socket =>
      rcases step_acted hstep with ⟨-, site, conn, reached, effect, hacted⟩
      rcases hacted.taken with ⟨shared, hlive⟩
      rcases newRecords_cases (h.indexes.indexed i site conn hacted.found) hlive with
        ⟨record, hnew, hrecord⟩
      refine ⟨_, hacted.records (.act i input now socket) socket hrecord fun _ => rfl, ?_⟩
      rw [hacted.reproFile, hnew, appended, List.map_map]
      rfl
  | receive i =>
      rcases step_received hstep with ⟨told, monitor, -, hcases⟩
      rcases hcases with ⟨skipped, -, rfl⟩ | ⟨line, site, conn, reached, effect, -, hacted⟩
      · exact ⟨[], records_nil _ _, by simp [appended]⟩
      · rcases hacted.taken with ⟨shared, hlive⟩
        have hnone := newRecords_line (h.each i site conn hacted.found) hlive
        rcases newRecords_cases (h.indexes.indexed i site conn hacted.found) hlive with
          ⟨record, hnew, hrecord⟩
        obtain rfl : record = none := by
          cases record with
          | none => rfl
          | some record => simp [hnone] at hnew
        have hrecords := hacted.records (.receive i) {} hrecord fun hsome => absurd rfl hsome
        refine ⟨[], ⟨hrecords.sockets, hrecords.histories, hrecords.sites, hrecords.kept⟩, ?_⟩
        rw [hacted.reproFile, hnone]
        simp [appended]

/-- In every part of every run of the service, whatever the order of the steps: the file is read
back as the records that were in it before, followed by those of the steps, in their order.  Those
of one connection are the records that were added to its history, each with what became of the
socket in its step where a connection fault ended it; and there are no others. -/
theorem recording_exact (channel : Channel String) (codec : Codec SerializedRecord)
    (hcodec : codec.Documented) (prior : List SerializedRecord) (before during : List Action)
    (start service : Service channel)
    (hstart : Machine.run (step codec) { reproFile := some (prior.flatMap codec.line) } before =
      some start)
    (h : Machine.run (step codec) start during = some service) :
    ∃ (old filed : List SerializedRecord) (written : List Written),
      Records during start.system service.system written ∧ List.Forall₂ OnFile written filed ∧
      start.reproFile.bind codec.readLines = some old ∧
      service.reproFile.bind codec.readLines = some (old ++ filed) := by
  have hbefore : start.system.Each Connection.Ledger ∧
      ∃ old : List SerializedRecord, start.reproFile = some (old.flatMap codec.line) := by
    refine Machine.run_invariant (I := fun _ (service : Service channel) =>
      service.system.Each Connection.Ledger ∧
        ∃ old : List SerializedRecord, service.reproFile = some (old.flatMap codec.line)) ?_
      ⟨System.Kept.empty _, prior, rfl⟩ hstart
    rintro past service action next ⟨hledger, old, hold⟩ hstep
    rcases recorded_step hledger hstep with ⟨more, -, hfile⟩
    refine ⟨ledger_step hledger hstep, old ++ more.map Written.serialized, ?_⟩
    rw [hfile, hold, appended, Option.map_some, List.flatMap_append]
  rcases hbefore with ⟨hledger, old, hold⟩
  have hduring : service.system.Each Connection.Ledger ∧ ∃ written,
      Records during start.system service.system written ∧
        service.reproFile = appended codec start.reproFile written := by
    refine Machine.run_invariant (I := fun past (service : Service channel) =>
      service.system.Each Connection.Ledger ∧ ∃ written,
        Records past start.system service.system written ∧
          service.reproFile = appended codec start.reproFile written) ?_
      ⟨hledger, [], .refl _, by simp [appended]⟩ h
    rintro past service action next ⟨hledger, written, hrecords, hfile⟩ hstep
    rcases recorded_step hledger hstep with ⟨more, hmore, hnext⟩
    refine ⟨ledger_step hledger hstep, written ++ more, hrecords.trans hmore, ?_⟩
    rw [hnext, hfile, appended, appended, appended, Option.map_map, List.map_append,
      List.flatMap_append]
    simp [Function.comp_def]
  rcases hduring with ⟨-, written, hrecords, hfile⟩
  have hfiled : List.Forall₂ OnFile written (written.map Written.serialized) := by
    rw [List.forall₂_map_right_iff, List.forall₂_same]
    exact fun item _ => onFile_serialized item
  refine ⟨old, _, written, hrecords, hfiled, ?_, ?_⟩
  · rw [hold, Option.bind_some, hcodec.readLines_lines]
  · rw [hfile, hold, appended, Option.map_some, ← List.flatMap_append, Option.bind_some,
      hcodec.readLines_lines]

/-- The reply to one of two clients breaks off, and leaves the only record. -/
theorem recording_exact_broken :
    ∃ (start service : Service (Broadcast.asChannel String)) (filed : List SerializedRecord)
        (written : List Written),
      Machine.run (step jsonCodec) { reproFile := some ([].flatMap jsonCodec.line) }
        [.accept .acknowledging [],
          .accept .acknowledging [.accept 2, .failed ⟨.brokenPipe, "broken"⟩],
          .act 1 (.inline "PING" rfl) ⟨0, 0⟩ {}] = some start ∧
      Machine.run (step jsonCodec) start
        [.act 0 (.inline "GET" rfl) ⟨0, 0⟩ {},
          .act 1 .turn ⟨0, 0⟩ {}, .act 0 .turn ⟨0, 0⟩ {}] = some service ∧
      service.system.connections.map (·.2.history.map (·.record.isSome)) = [[false], [true]] ∧
      Records [.act 0 (.inline "GET" rfl) ⟨0, 0⟩ {},
        .act 1 .turn ⟨0, 0⟩ {}, .act 0 .turn ⟨0, 0⟩ {}] start.system service.system written ∧
      List.Forall₂ OnFile written filed ∧
      service.reproFile.bind jsonCodec.readLines = some filed := by
  let step := @Service.step (Broadcast.asChannel String) jsonCodec
  let during : List Action := [.act 0 (.inline "GET" rfl) ⟨0, 0⟩ {},
    .act 1 .turn ⟨0, 0⟩ {}, .act 0 .turn ⟨0, 0⟩ {}]
  have hruns : ((Machine.run step { reproFile := some ([].flatMap jsonCodec.line) }
      [.accept .acknowledging [],
        .accept .acknowledging [.accept 2, .failed ⟨.brokenPipe, "broken"⟩],
        .act 1 (.inline "PING" rfl) ⟨0, 0⟩ {}]).map fun start =>
          (start.reproFile, (Machine.run step start during).map fun service =>
            service.system.connections.map (·.2.history.map (·.record.isSome)))) =
      some (some [], some [[false], [true]]) := by
    decide +kernel
  rcases Option.map_eq_some_iff.mp hruns with ⟨start, hstart, hafter⟩
  rw [Prod.mk.injEq] at hafter
  rcases Option.map_eq_some_iff.mp hafter.2 with ⟨service, hservice, hshape⟩
  rcases recording_exact _ jsonCodec jsonCodec_documented [] _ during start service hstart hservice
    with ⟨old, filed, written, hrecords, hfiled, hold, hfile⟩
  obtain rfl : [] = old := by
    rw [hafter.1, Option.bind_some] at hold
    exact Option.some.inj ((jsonCodec_documented.readLines_lines []).symm.trans hold)
  exact ⟨start, service, filed, written, hstart, hservice, hshape, hrecords, hfiled, hfile⟩

end Service

namespace System

open Connection

end System

end EvilResp
