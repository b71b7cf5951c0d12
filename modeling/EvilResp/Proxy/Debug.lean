import EvilResp.Config.Chaos
import EvilResp.Resp.RoundTrip

/-!
# Local control replies

The three control commands are answered by the proxy itself, rejections as simple
errors.  A simple error is written without escaping, so a reply is one frame
exactly when the text of its error holds no line feed.

Main results:

- Theorem {lit}`Frame.singleFrame_simpleError`: a simple error is read back as itself
  exactly when its text is a single line.
- Theorem {lit}`debugReplies_singleFrame`: every control reply is one frame, except for
  rejections that repeat client text with a line feed.
-/

namespace EvilResp

open Library
open EvilResp.Resp
open EvilResp.Resp.Frame (byteOf crlf)

/-! ## Replies -/

/-- The reply to a rejected command. -/
def rejected (error : AppError) : Frame :=
  .simpleError ("ERR " ++ error.message)

/-- Change the settings.  Where the client cannot be reset, a reset fault is taken
back. -/
def applyDebugEvil (lib : Externals) (config : EvilConfig) (argv : List String)
    (resetSupported : Bool) : EvilConfig × DebugResult :=
  match config.applyDebugCommand lib argv with
  | .ok (next, result) =>
      if next.transport.requiresTcp ∧ !resetSupported then
        ({ next with transport := config.transport },
          { frame := rejected (invalid "FAULT RESET requires a TCP client connection") })
      else (next, result)
  | .error error => (config, { frame := rejected error })

/-- {lit}`DEBUG CHAOS`: the settings of a temperature, and the fingerprint so far. -/
def applyDebugChaos (lib : Externals) (config : EvilConfig) (fingerprints : ProtocolFingerprints)
    (argv : List String) : EvilConfig × Frame :=
  match Chaos.apply lib config argv with
  | .ok (next, hash) => (next, .bulkString (some (asBytes (fingerprints.get lib .out hash))))
  | .error error => (config, rejected error)

/-- {lit}`DEBUG PROTOCOL`: the fingerprint of one direction. -/
def applyDebugProtocol (lib : Externals) (fingerprints : ProtocolFingerprints)
    (argv : List String) : Frame :=
  match parseDebugProtocol lib argv with
  | .ok (direction, algorithm) =>
      .bulkString (some (asBytes (fingerprints.get lib direction algorithm)))
  | .error error => rejected error

/-! ## Single frames -/

/-- What is written is read back as one frame, and as the frame that was meant. -/
def Resp.Frame.SingleFrame (f : Frame) : Prop :=
  f.encode.length ≤ maxFrameBytes →
    parseFrame f.encode = .ok f ∧ readRawFrame f.encode = .ok (f.encode, [])

theorem Resp.Frame.singleFrame_of_lfFree {f : Frame} (hinline : f.InlineFree) (htext : f.LfFree)
    (hdepth : f.depth ≤ maxFrameDepth) : f.SingleFrame := by
  intro hsize
  have hread := readRawFrame_encode hinline htext hdepth hsize []
  rw [List.append_nil] at hread
  exact ⟨parseFrame_encode hinline htext.crlfFree hdepth hsize, hread⟩

/-- A frame without children is read back if its text, where it has one, is a line. -/
theorem Resp.Frame.singleFrame_scalar {f : Frame} (hchildren : f.children = [])
    (hinline : ∀ parts, f ≠ .inline parts)
    (htext : ∀ value, f.text = some value → SingleLine value) : f.SingleFrame := by
  apply singleFrame_of_lfFree
  · exact inlineFree_iff.mpr ⟨hinline, by simp [hchildren]⟩
  · refine textAll_iff.mpr ⟨?_, by simp [hchildren]⟩
    intro value hvalue
    simpa using singleLine_iff_bytes.mp (htext value hvalue)
  · rw [depth_eq, hchildren]
    decide

/-- A line that the reader takes whole holds no line feed. -/
theorem Resp.lf_not_mem_of_readRawFrame {kind : UInt8} {line rest : Bytes}
    (hblob : isBlobKind kind = false) (haggregate : isAggregateKind kind = false)
    (h : readRawFrame (kind :: line ++ crlf) = .ok (kind :: line ++ crlf, rest)) :
    (10 : UInt8) ∉ line := by
  obtain ⟨last, hloop, hlast⟩ := bind_eq_ok_iff.mp h
  obtain ⟨hraw, -⟩ := Prod.mk.inj (Except.ok.inj hlast)
  rcases readLoop_cases hloop with ⟨hnil, -⟩ | ⟨-, next, hstep, hnext⟩
  · cases hnil
  rcases readStep_cases hstep with ⟨hnil, -⟩ | ⟨levels, hlevels, -⟩ |
    ⟨remaining, levels, first, children, unread, hlevels, -, -, hhead, hinput, -, rfl⟩
  · cases hnil
  · cases hlevels
  obtain ⟨rfl, rfl⟩ : remaining = 0 ∧ levels = [] := by
    simpa [eq_comm] using hlevels
  -- The kind leaves only the head of a scalar, which ends at its first line feed.
  cases hhead with
  | scalar _ _ hlf =>
      rw [if_neg (by decide), readLoop_step (by simp) (readStep_close rfl),
        readLoop_done rfl] at hnext
      obtain rfl := Except.ok.inj hnext
      have hsame : _ ∧ _ := List.cons.inj hraw
      exact List.append_cancel_right hsame.2 ▸ hlf
  | nullBlob hkind => simp_all
  | blob hkind => simp_all
  | nullAggregate _ hkind => simp_all
  | aggregate _ hkind => simp_all

theorem Resp.Frame.encode_simpleError (value : String) :
    (Frame.simpleError value).encode = byteOf '-' :: asBytes value ++ crlf := by
  rw [encode_eq]
  simp [head, children, pushLine]

/-- A simple error is read back as itself exactly when its text is a single line. -/
theorem Resp.Frame.singleFrame_simpleError {value : String} :
    (Frame.simpleError value).SingleFrame ↔
      ((asBytes value).length + 3 ≤ maxFrameBytes → SingleLine value) := by
  have hlength : (Frame.simpleError value).encode.length = (asBytes value).length + 3 := by
    rw [encode_simpleError]
    simp [crlf]
  unfold SingleFrame
  rw [hlength]
  constructor
  · intro h hsize
    obtain ⟨-, hread⟩ := h hsize
    rw [encode_simpleError] at hread
    exact singleLine_iff_bytes.mpr (lf_not_mem_of_readRawFrame (by decide) (by decide) hread)
  · intro h hsize
    refine singleFrame_scalar rfl (by simp) ?_ (hlength ▸ hsize)
    intro text htext
    exact Option.some.inj htext ▸ h hsize

theorem Resp.Frame.singleFrame_bulkString (bytes : Option Bytes) :
    (Frame.bulkString bytes).SingleFrame :=
  singleFrame_scalar rfl (by simp) (by simp [Frame.text])

/-! ## The replies are single frames -/

theorem singleFrame_rejected {error : AppError} (h : SingleLine error.message) :
    (rejected error).SingleFrame :=
  Frame.singleFrame_simpleError.mpr fun _ => singleLine_append.mpr ⟨singleLine_ofList rfl, h⟩

/-- A rejection of a setting that fits the size limit must be a single line. -/
theorem singleFrame_rejected_invalid {message : String} :
    (rejected (invalid message)).SingleFrame ↔
      ((asBytes message).length + 35 ≤ maxFrameBytes → SingleLine message) := by
  have htext : (invalid message).message = "invalid evil configuration: " ++ message := rfl
  have hbefore : (asBytes "ERR ").length = 4 ∧
      (asBytes "invalid evil configuration: ").length = 28 := by
    constructor <;> rfl
  have hlength : (asBytes ("ERR " ++ (invalid message).message)).length + 3 =
      (asBytes message).length + 35 := by
    rw [htext, asBytes_append, asBytes_append, List.length_append, List.length_append, hbefore.1,
      hbefore.2]
    omega
  have hline : SingleLine ("ERR " ++ (invalid message).message) ↔ SingleLine message := by
    rw [singleLine_append, singleLine_invalid]
    exact and_iff_right (singleLine_ofList rfl)
  rw [rejected, Frame.singleFrame_simpleError, hlength, hline]

theorem singleLine_debugEvilHelp : ∀ line ∈ debugEvilHelp, SingleLine line := by
  intro line hline
  unfold debugEvilHelp at hline
  fin_cases hline <;> exact singleLine_ofList rfl

theorem singleFrame_acceptedReply {config : EvilConfig} {frame : Frame}
    (h : config.AcceptedReply frame) : frame.SingleFrame := by
  cases h with
  | ok => exact Frame.singleFrame_of_lfFree (by decide) (by decide) (by decide)
  | status => exact Frame.singleFrame_bulkString _
  | help =>
      have hlines : ∀ c ∈ debugEvilHelp.map Frame.simpleString, c.InlineFree ∧ c.LfFree := by
        intro c hc
        obtain ⟨line, hline, rfl⟩ := List.mem_map.mp hc
        refine ⟨Frame.inlineFree_iff.mpr ⟨by simp, by simp [Frame.children]⟩,
          Frame.textAll_iff.mpr ⟨?_, by simp [Frame.children]⟩⟩
        intro value hvalue
        obtain rfl := Option.some.inj hvalue
        simpa using singleLine_iff_bytes.mp (singleLine_debugEvilHelp line hline)
      apply Frame.singleFrame_of_lfFree
      · exact Frame.inlineFree_iff.mpr ⟨by simp, fun c hc => (hlines c hc).1⟩
      · exact Frame.textAll_iff.mpr ⟨by simp [Frame.text], fun c hc => (hlines c hc).2⟩
      · have hdepth : ∀ c ∈ debugEvilHelp.map Frame.simpleString, c.depth ≤ 1 := by
          intro c hc
          obtain ⟨line, -, rfl⟩ := List.mem_map.mp hc
          exact Frame.depth_le_succ (by simp [Frame.children])
        have hroot : (Frame.array (some (debugEvilHelp.map .simpleString))).depth ≤ 1 + 1 :=
          Frame.depth_le_succ hdepth
        exact hroot.trans (by decide)

/-- The reply to a settings command is one frame, unless it is a rejection that
repeats client text with a line feed. -/
theorem singleFrame_applyDebugEvil {lib : Externals} {config : EvilConfig} {argv : List String}
    {resetSupported : Bool} :
    (applyDebugEvil lib config argv resetSupported).2.frame.SingleFrame ↔
      ∀ message, EvilConfig.RawError lib argv message →
        (asBytes message).length + 35 ≤ maxFrameBytes → SingleLine message := by
  constructor
  · intro hsingle message hraw
    rw [applyDebugEvil, EvilConfig.applyDebugCommand_rawError hraw config] at hsingle
    exact singleFrame_rejected_invalid.mp hsingle
  · intro h
    unfold applyDebugEvil
    split <;> rename_i hresult
    · split
      · exact singleFrame_rejected (singleLine_invalid.mpr (singleLine_ofList rfl))
      · exact singleFrame_acceptedReply (EvilConfig.applyDebugCommand_reply hresult)
    · rcases EvilConfig.applyDebugCommand_error hresult with hline | ⟨message, hraw, rfl⟩
      · exact singleFrame_rejected hline
      · exact singleFrame_rejected_invalid.mpr (h message hraw)

theorem singleFrame_applyDebugChaos (lib : Externals) (config : EvilConfig)
    (fingerprints : ProtocolFingerprints) (argv : List String) :
    (applyDebugChaos lib config fingerprints argv).2.SingleFrame := by
  unfold applyDebugChaos
  split <;> rename_i hresult
  · exact Frame.singleFrame_bulkString _
  · exact singleFrame_rejected (Chaos.quiet_apply config argv _ hresult)

theorem singleFrame_applyDebugProtocol (lib : Externals) (fingerprints : ProtocolFingerprints)
    (argv : List String) : (applyDebugProtocol lib fingerprints argv).SingleFrame := by
  unfold applyDebugProtocol
  split <;> rename_i hresult
  · exact Frame.singleFrame_bulkString _
  · exact singleFrame_rejected (quiet_parseDebugProtocol argv _ hresult)

/-- Every control reply is one frame, except for rejections that repeat client text
with a line feed: the name of an unknown redirect option, or the message about a
refused expression. -/
theorem debugReplies_singleFrame (lib : Externals) (config : EvilConfig)
    (fingerprints : ProtocolFingerprints) (argv : List String) (resetSupported : Bool) :
    ((applyDebugEvil lib config argv resetSupported).2.frame.SingleFrame ↔
      ∀ message, EvilConfig.RawError lib argv message →
        (asBytes message).length + 35 ≤ maxFrameBytes → SingleLine message) ∧
    (applyDebugChaos lib config fingerprints argv).2.SingleFrame ∧
    (applyDebugProtocol lib fingerprints argv).SingleFrame :=
  ⟨singleFrame_applyDebugEvil, singleFrame_applyDebugChaos lib config fingerprints argv,
    singleFrame_applyDebugProtocol lib fingerprints argv⟩

/-- An option name with a line break splits the rejection into two replies. -/
theorem debugReplies_split :
    ¬ ∀ (lib : Externals) (config : EvilConfig) (argv : List String) (resetSupported : Bool),
      (applyDebugEvil lib config argv resetSupported).2.frame.SingleFrame := by
  intro h
  have hunknown (lib : Externals) :
      UnknownOption lib ["REDIRECT", "x\r\n+y", "1"] "x\r\n+y" := by
    refine ⟨"REDIRECT", ["x\r\n+y", "1"], [], "1", [], rfl, by decide, rfl, ?_, by decide⟩
    exact ⟨List.nodup_nil, by simp⟩
  let lib : Externals :=
    { printable := fun _ => true, displayF64 := fun _ => "0",
      buildRegex := fun _ => .ok fun _ => true, hexEncode := fun _ => "", sha256 := id,
      blake3 := fun _ => "", tlsh := fun _ => "", chacha20 := fun _ _ => 0 }
  have hraw : EvilConfig.RawError lib ["DEBUG", "EVIL", "TOPOLOGY", "REDIRECT", "x\r\n+y", "1"]
      "unknown topology option X\r\n+Y" :=
    .unknownOption (by decide) (by decide) (by decide) (hunknown lib)
  have hline := singleFrame_applyDebugEvil.mp (h lib {} _ true) _ hraw (by decide)
  exact absurd hline (by decide)

end EvilResp
