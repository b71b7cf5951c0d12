import EvilResp.Library.Json
import EvilResp.Library.Lines
import EvilResp.Proxy.Connection

/-!
# Reproduction records

Every record is one line of a file, with the bytes of the command, of the reply of the upstream
and of the reply that was planned, with what was changed and with how the delivery ended.  The
serializer is not part of the source; the compact JSON texts below are one that behaves as it is
documented to.

Main results:

- Theorem {lit}`SerializedRecord.ofJson_toJson`: a record is read back from its JSON value.
- Theorem {lit}`jsonCodec_documented`: records are written on one line each and read back.
-/

namespace EvilResp

open Library

/-! ## Records as they are written -/

/-- The fields of a record, in the order in which they are written. -/
@[ext]
structure SerializedRecord where
  globalSeed : UInt64
  connectionId : UInt64
  commandIndex : UInt64
  commandHash : String
  commandBytesHex : String
  upstreamResponseHash : Option String
  upstreamResponseBytesHex : Option String
  mutatedResponseHash : String
  mutatedResponseBytesHex : String
  selectedEvilMode : EvilMode
  mutations : List AppliedMutation
  deliveryPlan : Option DeliveryPlan
  deliveryOutcome : Option DeliveryOutcome
  plannedWireBytesHex : Option String

/-- The record of a delivery on one connection, as it is written. -/
def ReproRecord.serialized (lib : Externals) (connectionId : Nat) (record : ReproRecord) :
    SerializedRecord where
  globalSeed := record.seed
  connectionId := UInt64.ofNat connectionId
  commandIndex := UInt64.ofNat record.commandIndex
  commandHash := deterministicHash lib record.command
  commandBytesHex := lib.hexEncode record.command
  upstreamResponseHash := record.upstream.map (deterministicHash lib)
  upstreamResponseBytesHex := record.upstream.map lib.hexEncode
  mutatedResponseHash := deterministicHash lib record.response
  mutatedResponseBytesHex := lib.hexEncode record.response
  selectedEvilMode := record.mode
  mutations := record.mutations
  deliveryPlan := some record.deliveryPlan
  deliveryOutcome := some record.deliveryOutcome
  plannedWireBytesHex := some (lib.hexEncode record.plannedWireBytes)

/-! ## Names -/

/-- The modes a record may name. -/
def EvilMode.modes : List EvilMode :=
  [.off, .random, .mutate, .overflow]

/-- The name of a length corruption in a record. -/
def LengthCorruption.jsonName : LengthCorruption → String
  | shorter => "shorter"
  | longer => "longer"
  | negative => "negative"
  | boundary => "boundary"
  | overflow => "overflow"

/-- The length corruptions a record may name. -/
def LengthCorruption.kinds : List LengthCorruption :=
  [.shorter, .longer, .negative, .boundary, .overflow]

/-- The name of a mutation in a record. -/
def MutationKind.jsonName : MutationKind → String
  | execRemove => "exec_remove"
  | execDuplicate => "exec_duplicate"
  | execSwap => "exec_swap"
  | randomFrame => "random_frame"
  | randomValue => "random_value"
  | wrongType => "wrong_type"
  | wrongLength => "wrong_length"
  | overflowValue => "overflow_value"
  | topologyFakeRedirection => "topology_fake_redirection"
  | topologyWrongRedirectionKind => "topology_wrong_redirection_kind"
  | topologyWrongSlot => "topology_wrong_slot"
  | topologyWrongServer => "topology_wrong_server"
  | topologyWildSlot => "topology_wild_slot"
  | topologyRedirectBefore => "topology_redirect_before"
  | topologyRedirectAfter => "topology_redirect_after"

/-- The mutations a record may name. -/
def MutationKind.kinds : List MutationKind :=
  [.execRemove, .execDuplicate, .execSwap, .randomFrame, .randomValue, .wrongType, .wrongLength,
    .overflowValue, .topologyFakeRedirection, .topologyWrongRedirectionKind, .topologyWrongSlot,
    .topologyWrongServer, .topologyWildSlot, .topologyRedirectBefore, .topologyRedirectAfter]

/-- The name of a connection fault in a record. -/
def FaultAction.jsonName : FaultAction → String
  | off => "off"
  | close => "close"
  | reset => "reset"
  | stall => "stall"

/-- The connection faults a record may name. -/
def FaultAction.actions : List FaultAction :=
  [.off, .close, .reset, .stall]

/-! ## Values -/

/-- A changed length header as JSON. -/
def LengthMutation.toJson (mutation : LengthMutation) : Json :=
  .obj [("kind", .str mutation.kind.jsonName), ("original", .str mutation.original),
    ("replacement", .str mutation.replacement)]

/-- A changed length header from its JSON value. -/
def LengthMutation.ofJson (value : Json) : Option LengthMutation := do
  let kind ← value.field "kind" (Json.named LengthCorruption.jsonName LengthCorruption.kinds)
  let original ← value.field "original" Json.asStr
  let replacement ← value.field "replacement" Json.asStr
  return { kind, original, replacement }

/-- A focused edit as JSON. -/
def ExecMutation.toJson (mutation : ExecMutation) : Json :=
  .obj ([("original_count", .nat mutation.originalCount),
    ("replacement_count", .nat mutation.replacementCount), ("index", .nat mutation.index)] ++
    Json.optionalField "other_index" (mutation.otherIndex.map .nat))

/-- A focused edit from its JSON value. -/
def ExecMutation.ofJson (value : Json) : Option ExecMutation := do
  let originalCount ← value.field "original_count" Json.asNat
  let replacementCount ← value.field "replacement_count" Json.asNat
  let index ← value.field "index" Json.asNat
  let otherIndex ← value.fieldIfAny "other_index" Json.asNat
  return { originalCount, replacementCount, index, otherIndex }

/-- One change of a reply as JSON. -/
def AppliedMutation.toJson (mutation : AppliedMutation) : Json :=
  .obj ([("path", .str mutation.path), ("kind", .str mutation.kind.jsonName)] ++
    Json.optionalField "length" (mutation.length.map LengthMutation.toJson) ++
    Json.optionalField "exec" (mutation.exec.map ExecMutation.toJson))

/-- One change of a reply from its JSON value. -/
def AppliedMutation.ofJson (value : Json) : Option AppliedMutation := do
  let path ← value.field "path" Json.asStr
  let kind ← value.field "kind" (Json.named MutationKind.jsonName MutationKind.kinds)
  let length ← value.fieldIfAny "length" LengthMutation.ofJson
  let exec ← value.fieldIfAny "exec" ExecMutation.ofJson
  return { path, kind, length, exec }

/-- The point of a fault as JSON. -/
def FaultPoint.toJson : FaultPoint → Json
  | before => .str "before"
  | after => .str "after"
  | reply => .str "reply"
  | random => .str "random"
  | bytes n => .obj [("bytes", .nat n)]

/-- The point of a fault from its JSON value. -/
def FaultPoint.ofJson (value : Json) : Option FaultPoint :=
  match value with
  | .obj _ => (value.field "bytes" Json.asNat).map bytes
  | _ => Json.named
      (fun point : FaultPoint => (point.toJson.asStr).getD "") [before, after, reply, random] value

/-- A planned fault as JSON. -/
def ConnectionFaultPlan.toJson (plan : ConnectionFaultPlan) : Json :=
  .obj [("action", .str plan.action.jsonName), ("point", plan.point.toJson),
    ("after_bytes", .nat plan.afterBytes),
    ("duration_ms", Json.nullable (plan.durationMs.map .nat))]

/-- A planned fault from its JSON value. -/
def ConnectionFaultPlan.ofJson (value : Json) : Option ConnectionFaultPlan := do
  let action ← value.field "action" (Json.named FaultAction.jsonName FaultAction.actions)
  let point ← value.field "point" FaultPoint.ofJson
  let afterBytes ← value.field "after_bytes" Json.asNat
  let durationMs ← value.field "duration_ms" (Json.asNullable Json.asNat)
  return { action, point, afterBytes, durationMs }

/-- A delivery plan as JSON. -/
def DeliveryPlan.toJson (plan : DeliveryPlan) : Json :=
  .obj ([("version", .nat plan.version), ("extra_reply_count", .nat plan.extraReplyCount),
    ("extra_reply_bytes_hex", .str plan.extraReplyBytesHex),
    ("truncate_at", Json.nullable (plan.truncateAt.map .nat)),
    ("chunk_ends", .arr (plan.chunkEnds.map .nat))] ++
    Json.optionalField "connection_fault" (plan.connectionFault.map ConnectionFaultPlan.toJson))

/-- A delivery plan from its JSON value. -/
def DeliveryPlan.ofJson (value : Json) : Option DeliveryPlan := do
  let version ← value.field "version" Json.asNat
  let extraReplyCount ← value.field "extra_reply_count" Json.asNat
  let extraReplyBytesHex ← value.field "extra_reply_bytes_hex" Json.asStr
  let truncateAt ← value.field "truncate_at" (Json.asNullable Json.asNat)
  let chunkEnds ← value.field "chunk_ends" (Json.asList Json.asNat)
  let connectionFault ← value.fieldIfAny "connection_fault" ConnectionFaultPlan.ofJson
  return { version, extraReplyCount, extraReplyBytesHex, truncateAt, chunkEnds, connectionFault }

/-- The outcome of a delivery as JSON. -/
def DeliveryOutcome.toJson (outcome : DeliveryOutcome) : Json :=
  .obj ([("bytes_written", .nat outcome.bytesWritten),
    ("written_bytes_hash", .str outcome.writtenBytesHash),
    ("completed_chunks", .nat outcome.completedChunks),
    ("shutdown_completed", .bool outcome.shutdownCompleted),
    ("error_stage", Json.nullable (outcome.errorStage.map .str)),
    ("error_kind", Json.nullable (outcome.errorKind.map .str))] ++
    Json.optionalField "fault_completed" (outcome.faultCompleted.map .bool) ++
    Json.optionalField "stall_end" (outcome.stallEnd.map .str))

/-- The outcome of a delivery from its JSON value. -/
def DeliveryOutcome.ofJson (value : Json) : Option DeliveryOutcome := do
  let bytesWritten ← value.field "bytes_written" Json.asNat
  let writtenBytesHash ← value.field "written_bytes_hash" Json.asStr
  let completedChunks ← value.field "completed_chunks" Json.asNat
  let shutdownCompleted ← value.field "shutdown_completed" Json.asBool
  let errorStage ← value.field "error_stage" (Json.asNullable Json.asStr)
  let errorKind ← value.field "error_kind" (Json.asNullable Json.asStr)
  let faultCompleted ← value.fieldIfAny "fault_completed" Json.asBool
  let stallEnd ← value.fieldIfAny "stall_end" Json.asStr
  return {
    bytesWritten, writtenBytesHash, completedChunks, shutdownCompleted, errorStage, errorKind
    faultCompleted, stallEnd }

/-- A number of 64 bits. -/
def asUInt64 (value : Json) : Option UInt64 :=
  value.asNat.map UInt64.ofNat

/-- A record as JSON; what was not set by the delivery is left out. -/
def SerializedRecord.toJson (record : SerializedRecord) : Json :=
  .obj ([("global_seed", .nat record.globalSeed.toNat),
    ("connection_id", .nat record.connectionId.toNat),
    ("command_index", .nat record.commandIndex.toNat),
    ("command_hash", .str record.commandHash),
    ("command_bytes_hex", .str record.commandBytesHex),
    ("upstream_response_hash", Json.nullable (record.upstreamResponseHash.map .str)),
    ("upstream_response_bytes_hex", Json.nullable (record.upstreamResponseBytesHex.map .str)),
    ("mutated_response_hash", .str record.mutatedResponseHash),
    ("mutated_response_bytes_hex", .str record.mutatedResponseBytesHex),
    ("selected_evil_mode", .str record.selectedEvilMode.asStr),
    ("mutations", .arr (record.mutations.map AppliedMutation.toJson))] ++
    Json.optionalField "delivery_plan" (record.deliveryPlan.map DeliveryPlan.toJson) ++
    Json.optionalField "delivery_outcome" (record.deliveryOutcome.map DeliveryOutcome.toJson) ++
    Json.optionalField "planned_wire_bytes_hex" (record.plannedWireBytesHex.map .str))

/-- A record from its JSON value. -/
def SerializedRecord.ofJson (value : Json) : Option SerializedRecord := do
  let globalSeed ← value.field "global_seed" asUInt64
  let connectionId ← value.field "connection_id" asUInt64
  let commandIndex ← value.field "command_index" asUInt64
  let commandHash ← value.field "command_hash" Json.asStr
  let commandBytesHex ← value.field "command_bytes_hex" Json.asStr
  let upstreamResponseHash ← value.field "upstream_response_hash" (Json.asNullable Json.asStr)
  let upstreamResponseBytesHex ←
    value.field "upstream_response_bytes_hex" (Json.asNullable Json.asStr)
  let mutatedResponseHash ← value.field "mutated_response_hash" Json.asStr
  let mutatedResponseBytesHex ← value.field "mutated_response_bytes_hex" Json.asStr
  let selectedEvilMode ←
    value.field "selected_evil_mode" (Json.named EvilMode.asStr EvilMode.modes)
  let mutations ← value.field "mutations" (Json.asList AppliedMutation.ofJson)
  let deliveryPlan ← value.fieldIfAny "delivery_plan" DeliveryPlan.ofJson
  let deliveryOutcome ← value.fieldIfAny "delivery_outcome" DeliveryOutcome.ofJson
  let plannedWireBytesHex ← value.fieldIfAny "planned_wire_bytes_hex" Json.asStr
  return {
    globalSeed, connectionId, commandIndex, commandHash, commandBytesHex, upstreamResponseHash
    upstreamResponseBytesHex, mutatedResponseHash, mutatedResponseBytesHex, selectedEvilMode
    mutations, deliveryPlan, deliveryOutcome, plannedWireBytesHex }

/-! ## Reading back -/

section ReadBack

open Json (asNat asBool asStr asList asNullable asNullable_nullable mapM_map_eq_some named)

theorem named_evilMode (mode : EvilMode) :
    named EvilMode.asStr EvilMode.modes (.str mode.asStr) = some mode := by
  cases mode <;> simp [named, EvilMode.modes, EvilMode.asStr]

theorem named_lengthCorruption (kind : LengthCorruption) :
    named LengthCorruption.jsonName LengthCorruption.kinds (.str kind.jsonName) = some kind := by
  cases kind <;> simp [named, LengthCorruption.kinds, LengthCorruption.jsonName]

theorem named_mutationKind (kind : MutationKind) :
    named MutationKind.jsonName MutationKind.kinds (.str kind.jsonName) = some kind := by
  cases kind <;> simp [named, MutationKind.kinds, MutationKind.jsonName]

theorem named_faultAction (action : FaultAction) :
    named FaultAction.jsonName FaultAction.actions (.str action.jsonName) = some action := by
  cases action <;> simp [named, FaultAction.actions, FaultAction.jsonName]

theorem LengthMutation.ofJson_toJson (mutation : LengthMutation) :
    ofJson mutation.toJson = some mutation := by
  simp [ofJson, toJson, Json.field, Json.entry, named_lengthCorruption, asStr]

theorem ExecMutation.ofJson_toJson (mutation : ExecMutation) :
    ofJson mutation.toJson = some mutation := by
  rcases mutation with ⟨originalCount, replacementCount, index, none | otherIndex⟩
  all_goals simp [ofJson, toJson, Json.field, Json.fieldIfAny, Json.optionalField, Json.entry,
    asNat]

theorem AppliedMutation.ofJson_toJson (mutation : AppliedMutation) :
    ofJson mutation.toJson = some mutation := by
  rcases mutation with ⟨path, kind, none | length, none | exec⟩
  all_goals simp [ofJson, toJson, Json.field, Json.fieldIfAny, Json.optionalField, Json.entry,
    asStr, named_mutationKind, LengthMutation.ofJson_toJson, ExecMutation.ofJson_toJson]

theorem FaultPoint.ofJson_toJson (point : FaultPoint) : ofJson point.toJson = some point := by
  cases point <;> simp [ofJson, toJson, Json.field, Json.entry, asNat, asStr, named]

theorem ConnectionFaultPlan.ofJson_toJson (plan : ConnectionFaultPlan) :
    ofJson plan.toJson = some plan := by
  have hduration := asNullable_nullable Json.nat asNat (fun _ => rfl)
    (fun _ => by simp) plan.durationMs
  simp [ofJson, toJson, Json.field, Json.entry, asNat, named_faultAction,
    FaultPoint.ofJson_toJson, hduration]

theorem DeliveryPlan.ofJson_toJson (plan : DeliveryPlan) : ofJson plan.toJson = some plan := by
  have htruncate := asNullable_nullable Json.nat asNat (fun _ => rfl)
    (fun _ => by simp) plan.truncateAt
  have hends := mapM_map_eq_some Json.nat asNat (fun _ => rfl) plan.chunkEnds
  rcases plan with ⟨version, count, extra, truncate, ends, none | fault⟩
  all_goals simp [ofJson, toJson, Json.field, Json.fieldIfAny, Json.optionalField, Json.entry,
    asNat, asStr, asList, htruncate, hends, ConnectionFaultPlan.ofJson_toJson]

theorem DeliveryOutcome.ofJson_toJson (outcome : DeliveryOutcome) :
    ofJson outcome.toJson = some outcome := by
  have hstage := asNullable_nullable Json.str asStr (fun _ => rfl)
    (fun _ => by simp) outcome.errorStage
  have hkind := asNullable_nullable Json.str asStr (fun _ => rfl)
    (fun _ => by simp) outcome.errorKind
  rcases outcome with ⟨written, hash, chunks, shutdown, stage, kind, none | completed, none | stall⟩
  all_goals simp [ofJson, toJson, Json.field, Json.fieldIfAny, Json.optionalField, Json.entry,
    asNat, asStr, asBool, hstage, hkind]

theorem asUInt64_nat (n : UInt64) : asUInt64 (.nat n.toNat) = some n := by
  rw [asUInt64, asNat, Option.map_some, UInt64.ofNat_toNat]

/-- A record is read back from its JSON value. -/
theorem SerializedRecord.ofJson_toJson (record : SerializedRecord) :
    ofJson record.toJson = some record := by
  have hhash := asNullable_nullable Json.str asStr (fun _ => rfl)
    (fun _ => by simp) record.upstreamResponseHash
  have hbytes := asNullable_nullable Json.str asStr (fun _ => rfl)
    (fun _ => by simp) record.upstreamResponseBytesHex
  have hmutations := mapM_map_eq_some _ _ AppliedMutation.ofJson_toJson record.mutations
  rcases record with ⟨_, _, _, _, _, _, _, _, _, _, _, none | plan, none | outcome, none | wire⟩
  all_goals simp [ofJson, toJson, Json.field, Json.fieldIfAny, Json.optionalField, Json.entry,
    asUInt64_nat, asStr, asList, named_evilMode, hhash, hbytes, hmutations,
    DeliveryPlan.ofJson_toJson, DeliveryOutcome.ofJson_toJson]

end ReadBack

/-! ## A serializer -/

/-- Records as compact JSON texts. -/
def jsonCodec : Codec SerializedRecord where
  toVec record := some (asBytes (String.ofList record.toJson.render))
  fromSlice line := do
    let text ← (fromUtf8 line).toOption
    let value ← Json.parse text.toList
    SerializedRecord.ofJson value

/-- Records are written on one line each and read back. -/
theorem jsonCodec_documented : jsonCodec.Documented where
  line record := by
    refine ⟨_, rfl, ?_, ?_⟩
    · rw [← singleLine_iff_bytes, SingleLine, String.toList_ofList]
      exact Json.lf_not_mem_render record.toJson
    · simp [jsonCodec, Except.toOption, Json.parse_render, SerializedRecord.ofJson_toJson]

end EvilResp
