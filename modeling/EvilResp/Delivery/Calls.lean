import EvilResp.Delivery.Deliver

/-!
# Operations of a delivery

What a delivery asks of the writer, in order: every chunk is written by calls that offer
what is left of it, and flushed once before the next one starts.  A delivery ends with the
operation that fails.

Main results:

- Theorem {lit}`writeCalls_spec`: a counted write offers what is left of its chunk until
  nothing is left or the writer fails.
- Theorem {lit}`deliverChunks_spec`: the chunks are written and flushed one after another.
- Theorem {lit}`deliver_accounts`: the counters of a delivery match what the writer
  accepted.
-/

namespace EvilResp

open Library

/-! ## Calls -/

/-- One operation on the writer, with what it met. -/
inductive Call where
  | write (offered : Bytes) (answer : Except IoError Bytes)
  | flush (answer : Except IoError Unit)
  | shutdown (answer : Except IoError Unit)

/-- The bytes that a call gave to the writer. -/
def Call.accepted : Call → Bytes
  | .write _ (.ok part) => part
  | _ => []

/-- The calls of a counted write. -/
def writeCalls : List WriteEvent → Bytes → List Call
  | _, [] => []
  | [], bytes => [.write bytes (.ok bytes)]
  | .accept 0 :: _, bytes => [.write bytes (.ok [])]
  | .accept (n + 1) :: script, bytes =>
      .write bytes (.ok (bytes.take (n + 1))) :: writeCalls script (bytes.drop (n + 1))
  | .failed error :: script, bytes =>
      .write bytes (.error error) ::
        if error.kind = .interrupted then writeCalls script bytes else []

/-- The calls for the chunks that end at given offsets. -/
def chunkCalls (bytes : Bytes) : List Nat → Nat → Delivery → List Call
  | [], _, _ => []
  | stop :: ends, start, delivery =>
      match slice bytes start stop with
      | none => []
      | some chunk =>
          let counted := writeCounted delivery.script delivery.fingerprints chunk
          writeCalls delivery.script chunk ++
            match counted.result with
            | .error _ => []
            | .ok () =>
                let (script, answer) := operate counted.script
                .flush answer ::
                  match answer with
                  | .error _ => []
                  | .ok () =>
                      chunkCalls bytes ends stop
                        { delivery with
                          script
                          fingerprints := counted.fingerprints
                          accepted := delivery.accepted ++ counted.accepted
                          completedChunks := delivery.completedChunks + 1 }

/-- The call after the last chunk. -/
def finishCalls (plan : DeliveryPlan) (delivery : Delivery) : List Call :=
  if delivery.failure.isSome ∨ plan.truncateAt.isNone then []
  else [.shutdown (operate delivery.script).2]

/-- The calls of a delivery. -/
def deliverCalls (script : List WriteEvent) (fingerprints : ProtocolFingerprints) (bytes : Bytes)
    (plan : DeliveryPlan) : List Call :=
  chunkCalls bytes plan.chunkEnds 0 { script, fingerprints } ++
    match deliverChunks bytes plan.chunkEnds 0 { script, fingerprints } with
    | none => []
    | some delivery => finishCalls plan delivery

/-! ## Writes within a chunk -/

/-- Writes that send a part of a chunk.  Each one offers all that is left of it. -/
inductive Sends : Bytes → List Call → Bytes → Prop where
  | done (rest : Bytes) : Sends rest [] rest
  | accepted {part rest left : Bytes} {calls : List Call} (hpart : part ≠ [])
      (h : Sends rest calls left) :
      Sends (part ++ rest) (.write (part ++ rest) (.ok part) :: calls) left
  | interrupted {rest left : Bytes} {calls : List Call} {error : IoError} (hrest : rest ≠ [])
      (herror : error.kind = .interrupted) (h : Sends rest calls left) :
      Sends rest (.write rest (.error error) :: calls) left

/-- The write that fails while something is left. -/
inductive Breaks : Bytes → Call → IoError → Prop where
  | zero {rest : Bytes} (hrest : rest ≠ []) :
      Breaks rest (.write rest (.ok []))
        { kind := .writeZero, message := "client writer made no progress" }
  | failed {rest : Bytes} {error : IoError} (hrest : rest ≠ [])
      (herror : error.kind ≠ .interrupted) : Breaks rest (.write rest (.error error)) error

/-- A counted write sends all of its bytes, or ends with the write that fails. -/
inductive Writes (bytes : Bytes) : List Call → Except IoError Unit → Prop where
  | sent {calls : List Call} (h : Sends bytes calls []) : Writes bytes calls (.ok ())
  | broken {calls : List Call} {rest : Bytes} {call : Call} {error : IoError}
      (h : Sends bytes calls rest) (hbreaks : Breaks rest call error) :
      Writes bytes (calls ++ [call]) (.error error)

theorem Writes.accepted {part rest : Bytes} {calls : List Call} {result : Except IoError Unit}
    (hpart : part ≠ []) (h : Writes rest calls result) :
    Writes (part ++ rest) (.write (part ++ rest) (.ok part) :: calls) result := by
  cases h with
  | sent h => exact .sent (.accepted hpart h)
  | broken h hbreaks =>
      rw [← List.cons_append]
      exact .broken (.accepted hpart h) hbreaks

theorem Writes.interrupted {rest : Bytes} {calls : List Call} {error : IoError}
    {result : Except IoError Unit} (hrest : rest ≠ []) (herror : error.kind = .interrupted)
    (h : Writes rest calls result) : Writes rest (.write rest (.error error) :: calls) result := by
  cases h with
  | sent h => exact .sent (.interrupted hrest herror h)
  | broken h hbreaks =>
      rw [← List.cons_append]
      exact .broken (.interrupted hrest herror h) hbreaks

theorem Sends.bytes_eq {bytes left : Bytes} {calls : List Call} (h : Sends bytes calls left) :
    bytes = calls.flatMap Call.accepted ++ left := by
  induction h with
  | done rest => rfl
  | accepted _ _ ih =>
      rw [List.flatMap_cons, List.append_assoc, ← ih]
      rfl
  | interrupted _ _ _ ih => exact ih

/-- A counted write offers what is left of its bytes until nothing is left or the writer
fails.  What the calls gave to the writer is what was counted. -/
theorem writeCalls_spec (script : List WriteEvent) :
    ∀ (fingerprints : ProtocolFingerprints) (bytes : Bytes),
      let counted := writeCounted script fingerprints bytes
      Writes bytes (writeCalls script bytes) counted.result ∧
      (writeCalls script bytes).flatMap Call.accepted = counted.accepted ∧
      counted.script = script.drop (writeCalls script bytes).length := by
  induction script with
  | nil =>
      intro fingerprints bytes
      cases bytes with
      | nil => exact ⟨.sent (.done []), rfl, rfl⟩
      | cons b bytes =>
          have hsent : Sends (b :: bytes) [.write (b :: bytes) (.ok (b :: bytes))] [] := by
            have hall := Sends.accepted (List.cons_ne_nil b bytes) (.done [])
            rwa [List.append_nil] at hall
          exact ⟨.sent hsent, by simp [writeCalls, writeCounted, Call.accepted], rfl⟩
  | cons event script ih =>
      intro fingerprints bytes
      cases bytes with
      | nil => exact ⟨.sent (.done []), rfl, rfl⟩
      | cons b bytes =>
          have hrest : b :: bytes ≠ [] := List.cons_ne_nil b bytes
          cases event with
          | accept n =>
              cases n with
              | zero => exact ⟨.broken (.done _) (.zero hrest), rfl, rfl⟩
              | succ n =>
                  have hsplit := List.take_append_drop (n + 1) (b :: bytes)
                  have hpart : (b :: bytes).take (n + 1) ≠ [] := by simp
                  rcases ih (fingerprints.update .out ((b :: bytes).take (n + 1)))
                    ((b :: bytes).drop (n + 1)) with ⟨hwrites, haccepted, hscript⟩
                  refine ⟨?_, ?_, ?_⟩
                  · have hmore := hwrites.accepted hpart
                    rwa [hsplit] at hmore
                  · simp only [writeCalls, writeCounted, List.flatMap_cons, haccepted]
                    rfl
                  · simp only [writeCalls, List.length_cons]
                    rw [List.drop_succ_cons]
                    exact hscript
          | failed error =>
              by_cases hretry : error.kind = .interrupted
              · rcases ih fingerprints (b :: bytes) with ⟨hwrites, haccepted, hscript⟩
                simp only [writeCalls, writeCounted, if_pos hretry]
                exact ⟨.interrupted hrest hretry hwrites, haccepted, hscript⟩
              · simp only [writeCalls, writeCounted, if_neg hretry]
                exact ⟨.broken (.done _) (.failed hrest hretry), rfl, rfl⟩

/-! ## Chunk by chunk -/

/-- The chunks that end at given offsets. -/
def chunksOf (bytes : Bytes) : List Nat → Nat → List Bytes
  | [], _ => []
  | stop :: ends, start => (bytes.drop start).take (stop - start) :: chunksOf bytes ends stop

/-- The offsets go up from a start to a length. -/
def EndsAt (len : Nat) : List Nat → Nat → Prop
  | [], start => start = len
  | stop :: ends, start => start < stop ∧ EndsAt len ends stop

/-- The calls of a delivery with the number of chunks it completed and how it ended. -/
inductive Transcript (truncated : Bool) :
    List Bytes → List Call → Nat → Bool → Option (String × IoError) → Prop where
  | finished (h : truncated = false) : Transcript truncated [] [] 0 false none
  | shutDown (h : truncated = true) : Transcript truncated [] [.shutdown (.ok ())] 0 true none
  | notShutDown {error : IoError} (h : truncated = true) :
      Transcript truncated [] [.shutdown (.error error)] 0 false (some ("shutdown", error))
  | flushed {chunk : Bytes} {chunks : List Bytes} {sent calls : List Call} {completed : Nat}
      {shutdown : Bool} {failure : Option (String × IoError)} (hsent : Sends chunk sent [])
      (h : Transcript truncated chunks calls completed shutdown failure) :
      Transcript truncated (chunk :: chunks) (sent ++ .flush (.ok ()) :: calls) (completed + 1)
        shutdown failure
  | notFlushed {chunk : Bytes} {chunks : List Bytes} {sent : List Call} {error : IoError}
      (hsent : Sends chunk sent []) :
      Transcript truncated (chunk :: chunks) (sent ++ [.flush (.error error)]) 0 false
        (some ("flush", error))
  | broken {chunk rest : Bytes} {chunks : List Bytes} {sent : List Call} {call : Call}
      {error : IoError} (hsent : Sends chunk sent rest) (hbreaks : Breaks rest call error) :
      Transcript truncated (chunk :: chunks) (sent ++ [call]) 0 false (some ("write", error))

theorem EndsAt.slice {bytes : Bytes} {stop start : Nat} {ends : List Nat}
    (h : EndsAt bytes.length (stop :: ends) start) :
    slice bytes start stop = some ((bytes.drop start).take (stop - start)) := by
  have hle : ∀ {ends : List Nat} {start : Nat}, EndsAt bytes.length ends start →
      start ≤ bytes.length := by
    intro ends
    induction ends with
    | nil => exact fun h => h.le
    | cons stop ends ih => exact fun h => h.1.le.trans (ih h.2)
  rw [EvilResp.slice, if_pos ⟨h.1.le, hle h.2⟩]

/-- The parts of a delivery that its calls account for. -/
structure Accounted (script : List WriteEvent) (calls : List Call) (before delivery : Delivery) :
    Prop where
  accepted : delivery.accepted = before.accepted ++ calls.flatMap Call.accepted
  script : delivery.script = script.drop calls.length

theorem operate_script (script : List WriteEvent) : (operate script).1 = script.drop 1 := by
  cases script with
  | nil => rfl
  | cons event script => cases event <;> rfl

theorem Accounted.refl (before : Delivery) : Accounted before.script [] before before :=
  ⟨by simp, rfl⟩

theorem Accounted.append {script : List WriteEvent} {calls more : List Call}
    {before between after : Delivery} (h : Accounted script calls before between)
    (hmore : Accounted between.script more between after) :
    Accounted script (calls ++ more) before after := by
  constructor
  · rw [hmore.accepted, h.accepted, List.flatMap_append, List.append_assoc]
  · rw [hmore.script, h.script, List.drop_drop, List.length_append]

/-- A flush or a shutdown accepts nothing and takes one entry of the script. -/
theorem Accounted.operated {call : Call} {before after : Delivery} (hcall : call.accepted = [])
    (haccepted : after.accepted = before.accepted)
    (hscript : after.script = (operate before.script).1) :
    Accounted before.script [call] before after := by
  constructor
  · rw [haccepted, List.flatMap_singleton, hcall, List.append_nil]
  · rw [hscript, operate_script]
    rfl

/-- No call follows a failure. -/
theorem finish_of_failure (plan : DeliveryPlan) {delivery : Delivery}
    (h : delivery.failure.isSome = true) :
    finishTruncated plan delivery = delivery ∧ finishCalls plan delivery = [] := by
  simp [finishTruncated, finishCalls, h]

/-- After the last chunk, only a truncated reply is followed by a call. -/
theorem finishTruncated_spec (plan : DeliveryPlan) {before : Delivery}
    (hfailure : before.failure = none) (hshutdown : before.shutdownCompleted = false) :
    let next := finishTruncated plan before
    Transcript plan.truncateAt.isSome [] (finishCalls plan before) 0 next.shutdownCompleted
        next.failure ∧
      next.completedChunks = before.completedChunks ∧
      Accounted before.script (finishCalls plan before) before next := by
  cases htruncated : plan.truncateAt with
  | none =>
      simp only [finishTruncated, finishCalls, htruncated, Option.isNone_none, or_true, if_true,
        hfailure, hshutdown]
      exact ⟨.finished rfl, trivial, Accounted.refl before⟩
  | some at_ =>
      rcases hoperate : operate before.script with ⟨script, answer⟩
      have hscript : script = (operate before.script).1 := by rw [hoperate]
      cases answer with
      | error error =>
          simp only [finishTruncated, finishCalls, htruncated, hfailure, hoperate, hshutdown,
            Option.isSome_none, Option.isNone_some, Bool.false_eq_true, or_self, if_false]
          exact ⟨.notShutDown rfl, trivial, .operated rfl rfl hscript⟩
      | ok value =>
          simp only [finishTruncated, finishCalls, htruncated, hfailure, hoperate,
            Option.isSome_none, Option.isNone_some, Bool.false_eq_true, or_self, if_false]
          exact ⟨.shutDown rfl, trivial, .operated rfl rfl hscript⟩

/-- The chunks are written and flushed one after another, until one operation fails. -/
theorem deliverChunks_spec {bytes : Bytes} (plan : DeliveryPlan) {ends : List Nat} :
    ∀ {start : Nat} (before : Delivery), EndsAt bytes.length ends start →
      before.failure = none → before.shutdownCompleted = false →
      ∃ chunked completed, deliverChunks bytes ends start before = some chunked ∧
        let next := finishTruncated plan chunked
        let calls := chunkCalls bytes ends start before ++ finishCalls plan chunked
        Transcript plan.truncateAt.isSome (chunksOf bytes ends start) calls completed
            next.shutdownCompleted next.failure ∧
          next.completedChunks = before.completedChunks + completed ∧
          Accounted before.script calls before next := by
  induction ends with
  | nil =>
      intro start before _ hfailure hshutdown
      rcases finishTruncated_spec plan hfailure hshutdown with ⟨htranscript, hcompleted, haccounted⟩
      exact ⟨before, 0, rfl, htranscript, hcompleted, haccounted⟩
  | cons stop ends ih =>
      intro start before hends hfailure hshutdown
      have hslice := hends.slice
      rcases writeCalls_spec before.script before.fingerprints
        ((bytes.drop start).take (stop - start)) with ⟨hwrites, haccepted, hscript⟩
      generalize hcounted : writeCounted before.script before.fingerprints
        ((bytes.drop start).take (stop - start)) = counted at hwrites haccepted hscript
      simp only [deliverChunks, chunkCalls, chunksOf, hslice, hcounted, Option.bind_eq_bind,
        Option.bind_some]
      generalize writeCalls before.script ((bytes.drop start).take (stop - start)) = calls
        at hwrites haccepted hscript
      have hwritten : Accounted before.script calls before { before with
          script := counted.script
          fingerprints := counted.fingerprints
          accepted := before.accepted ++ counted.accepted } :=
        ⟨by rw [haccepted], hscript⟩
      cases hresult : counted.result with
      | error error =>
          rw [hresult] at hwrites
          cases hwrites with
          | broken hsent hbreaks =>
              refine ⟨_, 0, rfl, ?_⟩
              rw [(finish_of_failure plan rfl).1, (finish_of_failure plan rfl).2, List.append_nil,
                List.append_nil, hshutdown]
              exact ⟨.broken hsent hbreaks, rfl, hwritten.accepted, hwritten.script⟩
      | ok value =>
          rw [hresult] at hwrites
          have hsent : Sends ((bytes.drop start).take (stop - start)) calls [] := by
            cases hwrites with
            | sent h => exact h
          rcases hanswer : operate counted.script with ⟨script, answer⟩
          have hflushed : script = (operate counted.script).1 := by rw [hanswer]
          cases answer with
          | error error =>
              refine ⟨_, 0, rfl, ?_⟩
              rw [(finish_of_failure plan rfl).1, (finish_of_failure plan rfl).2, List.append_nil,
                hshutdown]
              exact ⟨.notFlushed hsent, rfl, hwritten.append (.operated rfl rfl hflushed)⟩
          | ok value =>
              rcases ih { before with
                  script, fingerprints := counted.fingerprints
                  accepted := before.accepted ++ counted.accepted
                  completedChunks := before.completedChunks + 1 } hends.2 hfailure hshutdown with
                ⟨chunked, completed, hchunked, htranscript, hcompleted, haccounted⟩
              refine ⟨chunked, completed + 1, hchunked, ?_, ?_, ?_⟩
              · rw [List.append_assoc, List.cons_append]
                exact .flushed hsent htranscript
              · rw [hcompleted]
                dsimp only
                omega
              · rw [List.append_assoc, List.cons_append]
                apply hwritten.append
                rw [← List.singleton_append]
                refine Accounted.append ?_ haccounted
                exact .operated rfl rfl hflushed

/-! ## Plans that fit -/

/-- The chunks of a plan end at increasing positive offsets, the last one at a length. -/
structure DeliveryPlan.Fits (plan : DeliveryPlan) (len : Nat) : Prop where
  increasing : plan.chunkEnds.Pairwise (· < ·)
  positive : ∀ stop ∈ plan.chunkEnds, 0 < stop
  last : plan.chunkEnds.getLast? = if len = 0 then none else some len

theorem endsAt_of_increasing {len : Nat} {ends : List Nat} :
    ∀ {start : Nat}, (start :: ends).Pairwise (· < ·) → (start :: ends).getLast? = some len →
      EndsAt len ends start := by
  induction ends with
  | nil => exact fun _ h => Option.some.inj h
  | cons stop ends ih =>
      intro start hincreasing hlast
      rcases List.pairwise_cons.mp hincreasing with ⟨hstart, hrest⟩
      exact ⟨hstart stop List.mem_cons_self, ih hrest (by rwa [List.getLast?_cons_cons] at hlast)⟩

theorem DeliveryPlan.Fits.endsAt {plan : DeliveryPlan} {len : Nat} (h : plan.Fits len) :
    EndsAt len plan.chunkEnds 0 := by
  apply endsAt_of_increasing (List.pairwise_cons.mpr ⟨h.positive, h.increasing⟩)
  rw [List.getLast?_cons, h.last]
  by_cases hlen : len = 0
  · simp [hlen]
  · simp [hlen]

/-- A plan that fits is delivered without slicing out of range. -/
theorem deliver_of_fits {plan : DeliveryPlan} {bytes : Bytes} (h : plan.Fits bytes.length)
    (script : List WriteEvent) (fingerprints : ProtocolFingerprints) :
    ∃ delivery, deliver script fingerprints bytes plan = some delivery := by
  rcases deliverChunks_spec plan { script, fingerprints } h.endsAt rfl rfl with
    ⟨chunked, -, hchunked, -⟩
  rw [deliver, hchunked]
  exact ⟨_, rfl⟩

/-- The chunks are the bytes. -/
theorem EndsAt.flatten_chunksOf {bytes : Bytes} {ends : List Nat} :
    ∀ {start : Nat}, EndsAt bytes.length ends start →
      (chunksOf bytes ends start).flatten = bytes.drop start := by
  induction ends with
  | nil =>
      intro start h
      rw [EndsAt] at h
      rw [chunksOf, h, List.drop_length]
      rfl
  | cons stop ends ih =>
      intro start h
      have hstop : stop = start + (stop - start) := by
        have := h.1
        omega
      rw [chunksOf, List.flatten_cons, ih h.2]
      nth_rewrite 2 [hstop]
      rw [← List.drop_drop, List.take_append_drop]

theorem length_chunksOf (bytes : Bytes) (ends : List Nat) :
    ∀ start, (chunksOf bytes ends start).length = ends.length := by
  induction ends with
  | nil => exact fun _ => rfl
  | cons stop ends ih => exact fun _ => congrArg (· + 1) (ih stop)

/-! ## What a transcript says -/

/-- A write offers the end of the bytes it sends. -/
theorem Sends.offers {bytes left offered : Bytes} {calls : List Call}
    {answer : Except IoError Bytes} (h : Sends bytes calls left)
    (hcall : .write offered answer ∈ calls) : offered ≠ [] ∧ offered <:+ bytes := by
  induction h with
  | done rest => cases hcall
  | @accepted part rest left calls hpart _ ih =>
      cases hcall with
      | head =>
          refine ⟨?_, List.suffix_rfl⟩
          intro hempty
          exact hpart (List.append_eq_nil_iff.mp hempty).1
      | tail _ hcall => exact ⟨(ih hcall).1, (ih hcall).2.trans (List.suffix_append part rest)⟩
  | interrupted hrest _ _ ih =>
      cases hcall with
      | head => exact ⟨hrest, List.suffix_rfl⟩
      | tail _ hcall => exact ih hcall

theorem Breaks.call_eq {rest : Bytes} {call : Call} {error : IoError} (h : Breaks rest call error) :
    rest ≠ [] ∧ call.accepted = [] ∧ ∃ answer, call = .write rest answer := by
  cases h with
  | zero hrest => exact ⟨hrest, rfl, _, rfl⟩
  | failed hrest _ => exact ⟨hrest, rfl, _, rfl⟩

/-- What is left is the end of the bytes. -/
theorem Sends.left_suffix {bytes left : Bytes} {calls : List Call} (h : Sends bytes calls left) :
    left <:+ bytes := by
  rw [h.bytes_eq]
  exact List.suffix_append _ _

/-- Every write of a transcript offers the end of one chunk. -/
theorem Transcript.offers {truncated shutdown : Bool} {chunks : List Bytes} {calls : List Call}
    {completed : Nat} {failure : Option (String × IoError)} {offered : Bytes}
    {answer : Except IoError Bytes} (h : Transcript truncated chunks calls completed shutdown failure)
    (hcall : .write offered answer ∈ calls) : ∃ chunk ∈ chunks, offered ≠ [] ∧ offered <:+ chunk := by
  induction h with
  | finished _ => cases hcall
  | shutDown _ => simp at hcall
  | notShutDown _ => simp at hcall
  | flushed hsent _ ih =>
      rcases List.mem_append.mp hcall with hcall | hcall
      · exact ⟨_, List.mem_cons_self, hsent.offers hcall⟩
      · cases hcall with
        | tail _ hcall =>
            rcases ih hcall with ⟨chunk, hchunk, hoffered⟩
            exact ⟨chunk, List.mem_cons_of_mem _ hchunk, hoffered⟩
  | notFlushed hsent =>
      rcases List.mem_append.mp hcall with hcall | hcall
      · exact ⟨_, List.mem_cons_self, hsent.offers hcall⟩
      · simp at hcall
  | broken hsent hbreaks =>
      rcases List.mem_append.mp hcall with hcall | hcall
      · exact ⟨_, List.mem_cons_self, hsent.offers hcall⟩
      · rcases hbreaks.call_eq with ⟨hrest, -, answer', rfl⟩
        cases List.mem_singleton.mp hcall
        exact ⟨_, List.mem_cons_self, hrest, hsent.left_suffix⟩

/-- What the writer accepted is the beginning of the chunks, and all of them unless an
operation failed. -/
theorem Transcript.accepted {truncated shutdown : Bool} {chunks : List Bytes} {calls : List Call}
    {completed : Nat} {failure : Option (String × IoError)}
    (h : Transcript truncated chunks calls completed shutdown failure) :
    calls.flatMap Call.accepted <+: chunks.flatten ∧
      (failure = none → calls.flatMap Call.accepted = chunks.flatten ∧
        completed = chunks.length ∧ shutdown = truncated) := by
  induction h with
  | finished h => exact ⟨List.prefix_rfl, fun _ => ⟨rfl, rfl, h.symm⟩⟩
  | shutDown h => exact ⟨List.prefix_rfl, fun _ => ⟨rfl, rfl, h.symm⟩⟩
  | notShutDown _ => exact ⟨List.prefix_rfl, fun hnone => nomatch hnone⟩
  | flushed hsent _ ih =>
      have hbytes := hsent.bytes_eq
      rw [List.append_nil] at hbytes
      rw [List.flatMap_append, List.flatMap_cons, List.flatten_cons, ← hbytes]
      refine ⟨(List.prefix_append_right_inj _).mpr ih.1, fun hnone => ?_⟩
      rcases ih.2 hnone with ⟨haccepted, hcompleted, hshutdown⟩
      exact ⟨congrArg _ haccepted, congrArg (· + 1) hcompleted, hshutdown⟩
  | notFlushed hsent =>
      have hbytes := hsent.bytes_eq
      rw [List.append_nil] at hbytes
      rw [List.flatMap_append, List.flatten_cons, ← hbytes]
      exact ⟨(List.prefix_append_right_inj _).mpr List.nil_prefix, fun hnone => nomatch hnone⟩
  | broken hsent hbreaks =>
      rw [List.flatMap_append, List.flatMap_singleton, hbreaks.call_eq.2.1, List.append_nil,
        List.flatten_cons, hsent.bytes_eq, List.append_assoc]
      exact ⟨List.prefix_append _ _, fun hnone => nomatch hnone⟩

/-- The counters of a delivery match what the writer accepted, whatever it meets.  Every
write offers the end of one chunk, every chunk that was written is flushed once before the
next one, and the operation that fails is the last one. -/
theorem deliver_accounts (lib : Externals) (script : List WriteEvent)
    (fingerprints : ProtocolFingerprints) (bytes : Bytes) (plan : DeliveryPlan)
    (hfits : plan.Fits bytes.length) :
    ∃ delivery, deliver script fingerprints bytes plan = some delivery ∧
      let outcome := delivery.outcome lib plan bytes
      let calls := deliverCalls script fingerprints bytes plan
      Transcript plan.truncateAt.isSome (chunksOf bytes plan.chunkEnds 0) calls
        outcome.completedChunks outcome.shutdownCompleted delivery.failure ∧
      (∀ offered answer, .write offered answer ∈ calls →
        ∃ chunk ∈ chunksOf bytes plan.chunkEnds 0, offered ≠ [] ∧ offered <:+ chunk) ∧
      delivery.script = script.drop calls.length ∧
      calls.flatMap Call.accepted = bytes.take outcome.bytesWritten ∧
      delivery.fingerprints = fingerprints.update .out (bytes.take outcome.bytesWritten) ∧
      outcome.errorStage = delivery.failure.map Prod.fst ∧
      (delivery.failure = none → outcome.bytesWritten = bytes.length ∧
        outcome.completedChunks = plan.chunkEnds.length ∧
        outcome.shutdownCompleted = plan.truncateAt.isSome) := by
  let before : Delivery := { script, fingerprints }
  rcases deliverChunks_spec plan before hfits.endsAt rfl rfl with
    ⟨chunked, completed, hchunked, htranscript, hcompleted, haccounted⟩
  have hdeliver : deliver script fingerprints bytes plan = some (finishTruncated plan chunked) := by
    rw [deliver, hchunked]
    rfl
  have hcalls : chunkCalls bytes plan.chunkEnds 0 before ++ finishCalls plan chunked =
      deliverCalls script fingerprints bytes plan := by
    rw [deliverCalls, hchunked]
  rw [hcalls] at htranscript haccounted
  rw [Nat.zero_add] at hcompleted
  rw [← hcompleted] at htranscript
  have haccepted : (finishTruncated plan chunked).accepted =
      (deliverCalls script fingerprints bytes plan).flatMap Call.accepted :=
    haccounted.accepted
  have hchunks : (chunksOf bytes plan.chunkEnds 0).flatten = bytes := hfits.endsAt.flatten_chunksOf
  have hwritten : (deliverCalls script fingerprints bytes plan).flatMap Call.accepted =
      bytes.take (finishTruncated plan chunked).accepted.length := by
    have hprefix := htranscript.accepted.1
    rw [hchunks] at hprefix
    rw [haccepted]
    exact List.prefix_iff_eq_take.mp hprefix
  refine ⟨_, hdeliver, htranscript, fun _ _ => htranscript.offers, haccounted.script, hwritten, ?_,
    rfl, fun hnone => ?_⟩
  · rw [deliver_counts hdeliver, haccepted, hwritten]
    rfl
  · rcases htranscript.accepted.2 hnone with ⟨hall, hcount, hshutdown⟩
    rw [hchunks, ← haccepted] at hall
    rw [length_chunksOf] at hcount
    exact ⟨congrArg List.length hall, hcount, hshutdown⟩

/-- Two chunks, with a short write, an interruption and a failing flush. -/
theorem deliver_accounts_flush :
    ∃ delivery, deliver [.accept 1, .accept 5, .accept 1, .failed { kind := .interrupted, message := "" },
        .accept 1, .failed { kind := .other, message := "" }] {} (asBytes "+OK")
        { DeliveryPlan.plain 3 with chunkEnds := [1, 3] } = some delivery ∧
      let outcome := delivery.outcome
        { printable := fun _ => true, displayF64 := fun _ => "0",
          buildRegex := fun _ => .ok fun _ => true, hexEncode := fun _ => "", sha256 := id,
          blake3 := fun _ => "", tlsh := fun _ => "", chacha20 := fun _ _ => 0 }
        { DeliveryPlan.plain 3 with chunkEnds := [1, 3] } (asBytes "+OK")
      let calls := deliverCalls [.accept 1, .accept 5, .accept 1,
        .failed { kind := .interrupted, message := "" }, .accept 1,
        .failed { kind := .other, message := "" }] {} (asBytes "+OK")
        { DeliveryPlan.plain 3 with chunkEnds := [1, 3] }
      Transcript false (chunksOf (asBytes "+OK") [1, 3] 0) calls
        outcome.completedChunks outcome.shutdownCompleted delivery.failure ∧
      (∀ offered answer, .write offered answer ∈ calls →
        ∃ chunk ∈ chunksOf (asBytes "+OK") [1, 3] 0, offered ≠ [] ∧ offered <:+ chunk) ∧
      delivery.script = List.drop calls.length [.accept 1, .accept 5, .accept 1,
        .failed { kind := .interrupted, message := "" }, .accept 1,
        .failed { kind := .other, message := "" }] ∧
      calls.flatMap Call.accepted = (asBytes "+OK").take outcome.bytesWritten ∧
      delivery.fingerprints = ProtocolFingerprints.update {} .out
        ((asBytes "+OK").take outcome.bytesWritten) ∧
      outcome.errorStage = delivery.failure.map Prod.fst ∧
      (delivery.failure = none → outcome.bytesWritten = (asBytes "+OK").length ∧
        outcome.completedChunks = 2 ∧ outcome.shutdownCompleted = false) :=
  deliver_accounts _ _ {} (asBytes "+OK") { DeliveryPlan.plain 3 with chunkEnds := [1, 3] }
    ⟨by decide, by decide, by decide⟩

end EvilResp
