import EvilResp.Delivery.Deliver

/-!
# The end of a faulted connection

A delivery with a connection fault is followed by work on the socket: a stall drains the
input until its time is over, a close shuts the writer down, and a reset arms the socket so
that closing it resets the peer.  The outcome of the delivery says how far this came.

Main results:

- Theorem {lit}`stall_drains`: a stall feeds the input it drained to the fingerprint, and
  writes nothing.
- Theorem {lit}`finishFault_ends`: every operation of the plan is answered by the socket, up to
  the first that fails; the outcome names that one, or says that the fault was completed.
-/

namespace EvilResp

open Library

/-! ## The model -/

/-- What a stalled connection meets next.  An input without bytes is the end of the input. -/
inductive StallEvent where
  | deadline
  | read (bytes : Bytes)
  | failed (error : IoError)

/-- Drain the input until the time is over; at last it always is. -/
def stall (fingerprints : ProtocolFingerprints) :
    List StallEvent → ProtocolFingerprints × Except IoError String
  | [] | .deadline :: _ => (fingerprints, .ok "duration_elapsed")
  | .read [] :: _ => (fingerprints, .ok "peer_closed")
  | .read (b :: bytes) :: events => stall (fingerprints.update .in (b :: bytes)) events
  | .failed error :: events =>
      if error.kind = .interrupted then stall fingerprints events
      else (fingerprints, .error error)

/-- What the operations on the socket of a client will meet. -/
structure Socket where
  reads : List StallEvent := []
  shutdown : Except IoError Unit := .ok ()
  supportsReset : Bool := true
  zeroLinger : Except IoError Unit := .ok ()

/-- Only a TCP socket can be reset. -/
def Socket.prepareReset (socket : Socket) : Except IoError Unit :=
  if socket.supportsReset then socket.zeroLinger
  else
    .error { kind := .unsupported, message := "TCP reset requires a TCP client socket" }

/-- The operations on the socket of a client. -/
inductive SocketCall where
  | stall
  | shutdown
  | reset
  | close
deriving DecidableEq

/-- The name of an operation in an outcome. -/
def SocketCall.stage : SocketCall → String
  | stall => "stall"
  | shutdown => "shutdown"
  | reset => "reset"
  | close => "close"

/-- The work on a socket so far. -/
structure FaultEnd where
  fingerprints : ProtocolFingerprints
  outcome : DeliveryOutcome
  calls : List SocketCall := []
  result : Except IoError Unit := .ok ()

namespace FaultEnd

/-- The next operation is named before it is tried. -/
def enter (finished : FaultEnd) (call : SocketCall) : FaultEnd :=
  { finished with
    outcome := { finished.outcome with errorStage := some call.stage }
    calls := finished.calls ++ [call] }

/-- Stall, and keep how the stall ended. -/
def stalled (socket : Socket) (finished : FaultEnd) : FaultEnd :=
  let finished := finished.enter .stall
  match stall finished.fingerprints socket.reads with
  | (fingerprints, .ok stallEnd) =>
      { finished with
        fingerprints, outcome := { finished.outcome with stallEnd := some stallEnd } }
  | (fingerprints, .error error) => { finished with fingerprints, result := .error error }

/-- Shut the writer down. -/
def shutDown (socket : Socket) (finished : FaultEnd) : FaultEnd :=
  let finished := finished.enter .shutdown
  match socket.shutdown with
  | .ok () => { finished with outcome := { finished.outcome with shutdownCompleted := true } }
  | .error error => { finished with result := .error error }

/-- Arm the socket, so that closing it resets the peer. -/
def armed (socket : Socket) (finished : FaultEnd) : FaultEnd :=
  { finished.enter .reset with result := socket.prepareReset }

/-- Go on unless an operation failed. -/
def next (finished : FaultEnd) (operation : FaultEnd → FaultEnd) : FaultEnd :=
  match finished.result with
  | .ok () => operation finished
  | .error _ => finished

/-- The socket is closed, and the outcome says whether all went well. -/
def closed (finished : FaultEnd) : FaultEnd :=
  let outcome := finished.outcome
  { finished with
    calls := finished.calls ++ [.close]
    outcome :=
      match finished.result with
      | .ok () => { outcome with faultCompleted := some true, errorStage := none }
      | .error error =>
          { outcome with
            faultCompleted := some false
            errorKind := some error.kind.debugName } }

end FaultEnd

/-- End a connection as its plan says. -/
def finishFault (socket : Socket) (fingerprints : ProtocolFingerprints)
    (plan : ConnectionFaultPlan) (outcome : DeliveryOutcome) : FaultEnd :=
  let start : FaultEnd := { fingerprints, outcome }
  let waited := if plan.durationMs.isSome then start.stalled socket else start
  let ended :=
    waited.next fun finished =>
      if plan.action = .reset then finished else finished.shutDown socket
  let reunited :=
    ended.next fun finished =>
      if plan.action = .reset then finished.armed socket else finished
  reunited.closed

/-! ## Stalls -/

/-- The input that a stall drains until it ends, and how it ends. -/
inductive Stalls : List StallEvent → Bytes → Except IoError String → Prop where
  | silent : Stalls [] [] (.ok "duration_elapsed")
  | deadline {events : List StallEvent} :
      Stalls (.deadline :: events) [] (.ok "duration_elapsed")
  | closed {events : List StallEvent} : Stalls (.read [] :: events) [] (.ok "peer_closed")
  | failed {error : IoError} {events : List StallEvent} (h : error.kind ≠ .interrupted) :
      Stalls (.failed error :: events) [] (.error error)
  | interrupted {error : IoError} {events : List StallEvent} {drained : Bytes}
      {result : Except IoError String} (h : error.kind = .interrupted) :
      Stalls events drained result → Stalls (.failed error :: events) drained result
  | read {b : UInt8} {bytes drained : Bytes} {events : List StallEvent}
      {result : Except IoError String} :
      Stalls events drained result →
      Stalls (.read (b :: bytes) :: events) (b :: bytes ++ drained) result

/-- A stall feeds the input it drained to the fingerprint, and writes nothing. -/
theorem stall_drains (events : List StallEvent) :
    ∀ fingerprints : ProtocolFingerprints,
      ∃ drained, (stall fingerprints events).1 = fingerprints.update .in drained ∧
        Stalls events drained (stall fingerprints events).2 := by
  induction events with
  | nil => exact fun fingerprints => ⟨[], (update_nil _ _).symm, .silent⟩
  | cons event events ih =>
      intro fingerprints
      cases event with
      | deadline => exact ⟨[], (update_nil _ _).symm, .deadline⟩
      | read bytes =>
          cases bytes with
          | nil => exact ⟨[], (update_nil _ _).symm, .closed⟩
          | cons b bytes =>
              rcases ih (fingerprints.update .in (b :: bytes)) with ⟨drained, hfed, hend⟩
              refine ⟨b :: bytes ++ drained, ?_, ?_⟩
              · rw [stall, hfed, update_append]
              · rw [stall]
                exact .read hend
      | failed error =>
          by_cases hretry : error.kind = .interrupted
          · rcases ih fingerprints with ⟨drained, hfed, hend⟩
            rw [stall, if_pos hretry]
            exact ⟨drained, hfed, .interrupted hretry hend⟩
          · rw [stall, if_neg hretry]
            exact ⟨[], (update_nil _ _).symm, .failed hretry⟩

/-! ## Outcomes -/

/-- What was delivered is not touched by the work on the socket. -/
structure SameDelivery (before after : DeliveryOutcome) : Prop where
  bytesWritten : after.bytesWritten = before.bytesWritten
  writtenBytesHash : after.writtenBytesHash = before.writtenBytesHash
  completedChunks : after.completedChunks = before.completedChunks

/-- The operation after a possible stall. -/
def ConnectionFaultPlan.lastCall (plan : ConnectionFaultPlan) : SocketCall :=
  if plan.action = .reset then .reset else .shutdown

/-- The operations that a plan asks for, in order. -/
def ConnectionFaultPlan.calls (plan : ConnectionFaultPlan) : List SocketCall :=
  (if plan.durationMs.isSome then [.stall] else []) ++ [plan.lastCall]

/-- What the socket answers to an operation.  Only a TCP socket is armed for a reset. -/
inductive Socket.Answers (socket : Socket) : SocketCall → Except IoError Unit → Prop where
  | stall {drained : Bytes} {result : Except IoError String}
      (h : Stalls socket.reads drained result) : socket.Answers .stall (result.map fun _ => ())
  | shutdown : socket.Answers .shutdown socket.shutdown
  | reset (h : socket.supportsReset = true) : socket.Answers .reset socket.zeroLinger
  | unsupported {error : IoError} (h : socket.supportsReset = false)
      (hkind : error.kind = .unsupported) : socket.Answers .reset (.error error)

/-- The input of a stall is fed, and no reply is; the outcome keeps how the stall ended. -/
structure StallKept (socket : Socket) (plan : ConnectionFaultPlan) (before : DeliveryOutcome)
    (fingerprints : ProtocolFingerprints) (finished : FaultEnd) : Prop where
  stalled : plan.durationMs.isSome = true → ∃ drained result,
    Stalls socket.reads drained result ∧
    finished.fingerprints = fingerprints.update .in drained ∧
    finished.outcome.stallEnd = result.toOption.or before.stallEnd
  unstalled : plan.durationMs = none →
    finished.fingerprints = fingerprints ∧ finished.outcome.stallEnd = before.stallEnd

/-- The outcome of a connection fault that follows a delivery without failure. -/
structure FaultEnded (socket : Socket) (plan : ConnectionFaultPlan) (before : DeliveryOutcome)
    (fingerprints : ProtocolFingerprints) (finished : FaultEnd) : Prop where
  same : SameDelivery before finished.outcome
  stall : StallKept socket plan before fingerprints finished
  /-- The socket is closed last, after the operations up to the first that fails: the earlier
  ones succeeded, and the answer to the last one is the result. -/
  calls : ∃ done last, finished.calls = done ++ [last, .close] ∧ done ++ [last] <+: plan.calls ∧
    (∀ call ∈ done, socket.Answers call (.ok ())) ∧ socket.Answers last finished.result ∧
    (finished.result = .ok () → last = plan.lastCall) ∧
    ∀ error, finished.result = .error error → finished.outcome.errorStage = some last.stage
  completed : finished.result = .ok () → finished.outcome.faultCompleted = some true ∧
    finished.outcome.errorStage = none ∧ finished.outcome.errorKind = before.errorKind
  failed : ∀ error, finished.result = .error error →
    finished.outcome.faultCompleted = some false ∧
      finished.outcome.errorKind = some error.kind.debugName
  shutdown : finished.outcome.shutdownCompleted = true ↔ before.shutdownCompleted = true ∨
    .shutdown ∈ finished.calls ∧ socket.shutdown = .ok ()

/-- Operations were tried, all of them but the last with success; the socket is still open. -/
structure FaultEnd.Tried (socket : Socket) (plan : ConnectionFaultPlan) (before : DeliveryOutcome)
    (fingerprints : ProtocolFingerprints) (done : List SocketCall) (last : SocketCall)
    (finished : FaultEnd) : Prop where
  same : SameDelivery before finished.outcome
  stall : StallKept socket plan before fingerprints finished
  calls : finished.calls = done ++ [last]
  planned : done ++ [last] <+: plan.calls
  succeeded : ∀ call ∈ done, socket.Answers call (.ok ())
  answered : socket.Answers last finished.result
  whole : finished.result = .ok () → last = plan.lastCall
  stage : finished.outcome.errorStage = some last.stage
  kind : finished.outcome.errorKind = before.errorKind
  shutdown : finished.outcome.shutdownCompleted = true ↔ before.shutdownCompleted = true ∨
    .shutdown ∈ finished.calls ∧ socket.shutdown = .ok ()

namespace FaultEnd

variable {socket : Socket} {plan : ConnectionFaultPlan} {before : DeliveryOutcome}
  {fingerprints : ProtocolFingerprints} {finished : FaultEnd}

/-- The last operation that was tried went well, or its error is the result. -/
theorem Tried.closed_ends {done : List SocketCall} {last : SocketCall}
    (h : finished.Tried socket plan before fingerprints done last) :
    FaultEnded socket plan before fingerprints finished.closed := by
  have hcalls : finished.closed.calls = done ++ [last, .close] := by simp [closed, h.calls]
  have hshutdown : .shutdown ∈ finished.closed.calls ↔ .shutdown ∈ finished.calls := by
    simp [closed]
  rcases hresult : finished.result with error | answer
  · constructor
    · simp only [closed, hresult]
      exact ⟨h.same.bytesWritten, h.same.writtenBytesHash, h.same.completedChunks⟩
    · simp only [closed, hresult]
      exact ⟨h.stall.stalled, h.stall.unstalled⟩
    · refine ⟨done, last, hcalls, h.planned, h.succeeded, h.answered, h.whole, ?_⟩
      intro _ _
      simp only [closed, hresult]
      exact h.stage
    · intro hok
      simp [closed, hresult] at hok
    · intro other hother
      simp only [closed, hresult, Except.error.injEq] at hother
      simp [closed, hresult, hother]
    · rw [hshutdown]
      simpa [closed, hresult] using h.shutdown
  · constructor
    · simp only [closed, hresult]
      exact ⟨h.same.bytesWritten, h.same.writtenBytesHash, h.same.completedChunks⟩
    · simp only [closed, hresult]
      exact ⟨h.stall.stalled, h.stall.unstalled⟩
    · refine ⟨done, last, hcalls, h.planned, h.succeeded, h.answered, h.whole, ?_⟩
      intro error herror
      simp [closed, hresult] at herror
    · intro _
      simp [closed, hresult, h.kind]
    · intro error herror
      simp [closed, hresult] at herror
    · rw [hshutdown]
      simpa [closed, hresult] using h.shutdown

/-- The operations before the last one went well. -/
structure Going (socket : Socket) (plan : ConnectionFaultPlan) (before : DeliveryOutcome)
    (fingerprints : ProtocolFingerprints) (finished : FaultEnd) : Prop where
  same : SameDelivery before finished.outcome
  stall : StallKept socket plan before fingerprints finished
  result : finished.result = .ok ()
  calls : finished.calls ++ [plan.lastCall] = plan.calls
  succeeded : ∀ call ∈ finished.calls, socket.Answers call (.ok ())
  unshut : .shutdown ∉ finished.calls
  kind : finished.outcome.errorKind = before.errorKind
  shutdown : finished.outcome.shutdownCompleted = before.shutdownCompleted

/-- A reset arms the socket. -/
theorem Going.armed (h : finished.Going socket plan before fingerprints)
    (hreset : plan.action = .reset) :
    (finished.armed socket).Tried socket plan before fingerprints finished.calls .reset := by
  have hlast : plan.lastCall = .reset := by simp [ConnectionFaultPlan.lastCall, hreset]
  refine ⟨⟨h.same.bytesWritten, h.same.writtenBytesHash, h.same.completedChunks⟩,
    ⟨h.stall.stalled, h.stall.unstalled⟩, rfl, ?_, h.succeeded, ?_, fun _ => hlast.symm, rfl,
    h.kind, ?_⟩
  · rw [← hlast, h.calls]
  · show socket.Answers .reset socket.prepareReset
    unfold Socket.prepareReset
    by_cases htcp : socket.supportsReset = true
    · rw [if_pos htcp]
      exact .reset htcp
    · rw [if_neg htcp]
      exact .unsupported (by simpa using htcp) rfl
  · have hshut : (finished.armed socket).outcome.shutdownCompleted = before.shutdownCompleted :=
      h.shutdown
    have hcall : SocketCall.shutdown ∉ (finished.armed socket).calls := by
      simpa [FaultEnd.armed, enter] using h.unshut
    simp [hshut, hcall]

/-- Any other fault shuts the writer down. -/
theorem Going.shutDown (h : finished.Going socket plan before fingerprints)
    (hreset : plan.action ≠ .reset) :
    (finished.shutDown socket).Tried socket plan before fingerprints finished.calls
      .shutdown := by
  have hlast : plan.lastCall = .shutdown := by simp [ConnectionFaultPlan.lastCall, hreset]
  have hplanned : finished.calls ++ [.shutdown] <+: plan.calls := by
    rw [← hlast, h.calls]
  have hanswer := @Socket.Answers.shutdown socket
  unfold FaultEnd.shutDown
  rcases hclose : socket.shutdown with error | answer
  · rw [hclose] at hanswer
    refine ⟨⟨h.same.bytesWritten, h.same.writtenBytesHash, h.same.completedChunks⟩,
      ⟨h.stall.stalled, h.stall.unstalled⟩, rfl, hplanned, h.succeeded, hanswer,
      fun _ => hlast.symm, rfl, h.kind, ?_⟩
    simp [enter, h.shutdown, hclose]
  · rw [hclose, ← h.result] at hanswer
    refine ⟨⟨h.same.bytesWritten, h.same.writtenBytesHash, h.same.completedChunks⟩,
      ⟨h.stall.stalled, h.stall.unstalled⟩, rfl, hplanned, h.succeeded, hanswer,
      fun _ => hlast.symm, rfl, h.kind, ?_⟩
    simp [enter, hclose]

/-- The last operation, where no earlier one failed. -/
theorem Going.ends (h : finished.Going socket plan before fingerprints) :
    FaultEnded socket plan before fingerprints
      ((finished.next fun finished =>
          if plan.action = .reset then finished else finished.shutDown socket).next fun finished =>
        if plan.action = .reset then finished.armed socket else finished).closed := by
  by_cases hreset : plan.action = .reset
  · have harmed : ((finished.next fun finished =>
          if plan.action = .reset then finished else finished.shutDown socket).next fun finished =>
        if plan.action = .reset then finished.armed socket else finished) =
          finished.armed socket := by
      simp [next, h.result, hreset]
    rw [harmed]
    exact (h.armed hreset).closed_ends
  · have hshut : ((finished.next fun finished =>
          if plan.action = .reset then finished else finished.shutDown socket).next fun finished =>
        if plan.action = .reset then finished.armed socket else finished) =
          finished.shutDown socket := by
      simp only [next, h.result, if_neg hreset]
      split <;> rfl
    rw [hshut]
    exact (h.shutDown hreset).closed_ends

end FaultEnd

/-- Every operation of the plan is answered by the socket, up to the first that fails; the
outcome names that one, or says that the fault was completed. -/
theorem finishFault_ends (socket : Socket) (fingerprints : ProtocolFingerprints)
    (plan : ConnectionFaultPlan) (outcome : DeliveryOutcome) :
    FaultEnded socket plan outcome fingerprints
      (finishFault socket fingerprints plan outcome) := by
  unfold finishFault
  by_cases hwait : plan.durationMs.isSome = true
  · have hcalls : plan.calls = [.stall, plan.lastCall] := by
      simp [ConnectionFaultPlan.calls, hwait]
    have hunstalled : plan.durationMs ≠ none := Option.isSome_iff_ne_none.mp hwait
    rcases stall_drains socket.reads fingerprints with ⟨drained, hfed, hend⟩
    have hanswer := @Socket.Answers.stall socket _ _ hend
    simp only [if_pos hwait]
    rcases hstall : stall fingerprints socket.reads with ⟨fed, error | stallEnd⟩
    -- A stall that failed leaves the writer alone.
    · rw [hstall] at hfed hend hanswer
      simp only [FaultEnd.stalled, FaultEnd.enter, FaultEnd.next, hstall]
      apply FaultEnd.Tried.closed_ends
      exact {
        same := ⟨rfl, rfl, rfl⟩
        stall := ⟨fun _ => ⟨drained, _, hend, hfed, rfl⟩, fun hnone => absurd hnone hunstalled⟩
        calls := rfl
        planned := hcalls ▸ List.prefix_append [SocketCall.stall] _
        succeeded := by simp
        answered := hanswer
        whole := by rintro ⟨⟩
        stage := rfl
        kind := rfl
        shutdown := by simp }
    · rw [hstall] at hfed hend hanswer
      simp only [FaultEnd.stalled, FaultEnd.enter, hstall]
      apply FaultEnd.Going.ends
      exact {
        same := ⟨rfl, rfl, rfl⟩
        stall := ⟨fun _ => ⟨drained, _, hend, hfed, rfl⟩, fun hnone => absurd hnone hunstalled⟩
        result := rfl
        calls := hcalls.symm
        succeeded := by simpa using hanswer
        unshut := by simp
        kind := rfl
        shutdown := rfl }
  · simp only [if_neg hwait]
    apply FaultEnd.Going.ends
    exact {
      same := ⟨rfl, rfl, rfl⟩
      stall := ⟨fun hsome => absurd hsome hwait, fun _ => ⟨rfl, rfl⟩⟩
      result := rfl
      calls := by simp [ConnectionFaultPlan.calls, hwait]
      succeeded := by simp
      unshut := by simp
      kind := rfl
      shutdown := rfl }

end EvilResp
