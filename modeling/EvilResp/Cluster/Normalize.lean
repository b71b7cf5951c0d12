import EvilResp.Cluster.Redirection
import EvilResp.Resp.Boundary
import EvilResp.Resp.Reparse

/-!
# Upstream redirections in cluster mode

In cluster mode the proxy parses the error replies of the upstream and sends redirections
to its own listeners.  Every other reply is relayed as it came.  An error line that is no
text cannot be parsed, and ends the connection.

Main results:

- Theorem {lit}`parseFrame_errorLine`: an error line is parsed exactly if it is a text.
- Theorem {lit}`normalizeClusterRedirection_iff`: replies are relayed or redirected
  exactly if they are not such a line.
-/

namespace EvilResp

open Library
open EvilResp.Resp
open EvilResp.Resp.Frame (byteOf crlf)

/-- Whether a reply is an error, by its first byte. -/
def isErrorReply (bytes : Bytes) : Bool :=
  bytes.head? = some (byteOf '-') ∨ bytes.head? = some (byteOf '!')

/-- Send the redirections of a cluster to local listeners. -/
def normalizeClusterRedirection (lib : Externals) (localSlots : Option Frame)
    (map : ClusterRedirectionMap) (upstreamBytes : Bytes) : AppResult Bytes :=
  if localSlots.isNone ∨ !isErrorReply upstreamBytes then .ok upstreamBytes
  else do
    let upstreamFrame ← (parseFrame upstreamBytes).mapError .resp
    .ok (((normalizeRedirection lib upstreamFrame map).map Frame.encode).getD upstreamBytes)

/-! ## Parsing error replies -/

theorem parseFrame_errorLine {line : Bytes} (hlf : (10 : UInt8) ∉ line)
    (hsize : (byteOf '-' :: line ++ crlf).length ≤ maxFrameBytes) :
    (∃ value, fromUtf8 line = .ok value ∧
        parseFrame (byteOf '-' :: line ++ crlf) = .ok (.simpleError value)) ∨
      ∃ error, fromUtf8 line = .error error ∧
        parseFrame (byteOf '-' :: line ++ crlf) = .error (.invalidUtf8 error) := by
  have hat : parseFrameAt maxFrameDepth (byteOf '-' :: line ++ crlf) =
      (takeUtf8Line (line ++ crlf)).map fun read => (.simpleError read.1, read.2) := by
    show (takeUtf8Line (line ++ crlf) >>= _) = _
    cases takeUtf8Line (line ++ crlf) <;> rfl
  simp only [parseFrame]
  rw [if_neg (by omega), hat]
  rcases takeUtf8Line_cases hlf [] with ⟨value, hvalue, hread⟩ | ⟨error, herror, hread⟩
  · rw [List.append_nil] at hread
    exact .inl ⟨value, hvalue, by rw [hread]; rfl⟩
  · rw [List.append_nil] at hread
    exact .inr ⟨error, herror, by rw [hread]; rfl⟩

theorem parseFrame_bulkError {line body : Bytes} (hlf : (10 : UInt8) ∉ line)
    (hlen : parseLen line false = .ok (some body.length))
    (hsize : (byteOf '!' :: line ++ crlf ++ body ++ crlf).length ≤ maxFrameBytes) :
    parseFrame (byteOf '!' :: line ++ crlf ++ body ++ crlf) = .ok (.bulkError body) := by
  rcases announces_of_parseLen hlf hlen with ⟨hn, -, -⟩ | ⟨n, hn, hline⟩
  · cases hn
  cases hn
  have hread := parseRequiredBlob_append hline []
  have hat : parseFrameAt maxFrameDepth (byteOf '!' :: line ++ crlf ++ body ++ crlf) =
      .ok (.bulkError body, []) := by
    simp only [List.append_nil, List.append_assoc] at hread
    simp only [List.cons_append, List.append_assoc]
    show (parseRequiredBlob (line ++ (crlf ++ (body ++ crlf))) >>= _) = _
    rw [hread]
    rfl
  simp only [parseFrame]
  rw [if_neg (by omega), hat]
  rfl

/-- The two kinds of error replies that the reader accepts. -/
theorem errorReply_cases {s r rest : Bytes} (h : readRawFrame s = .ok (r, rest))
    (herror : isErrorReply r = true) :
    (∃ line, r = byteOf '-' :: line ++ crlf ∧ (10 : UInt8) ∉ line) ∨
      ∃ body, parseFrame r = .ok (.bulkError body) := by
  have hsize := (readRawFrame_consumes h).2.1
  simp only [isErrorReply, decide_eq_true_eq] at herror
  rcases herror with hdash | hbang
  · left
    rcases readRawFrame_head h hdash (by decide) with ⟨children, hhead⟩
    cases hhead with
    | scalar hblob haggregate hlf =>
        cases hdash
        exact ⟨_, rfl, hlf⟩
    | nullBlob hblob => cases hdash; cases hblob
    | blob hblob => cases hdash; cases hblob
    | nullAggregate hblob haggregate => cases hdash; cases haggregate
    | aggregate hblob haggregate => cases hdash; cases haggregate
  · right
    rcases readRawFrame_head h hbang (by decide) with ⟨children, hhead⟩
    cases hhead with
    | scalar hblob => cases hbang; cases hblob
    | nullBlob hblob hlf hlen =>
        cases hbang
        rcases announces_of_parseLen hlf hlen with ⟨-, hnullable, -⟩ | ⟨n, hn, -⟩
        · cases hnullable
        · cases hn
    | blob hblob hlf hlen =>
        cases hbang
        exact ⟨_, parseFrame_bulkError hlf hlen hsize⟩
    | nullAggregate hblob haggregate => cases hbang; cases haggregate
    | aggregate hblob haggregate => cases hbang; cases haggregate

theorem byteOf_asChar (b : UInt8) : byteOf (asChar b) = b := by
  have hchar : (Char.ofNat b.toNat).toNat = b.toNat :=
    toNat_ofNat (.inl (by have := b.toNat_lt; omega))
  rw [byteOf, asChar, hchar, UInt8.ofNat_toNat]

/-- A parsed frame starts with its kind byte. -/
theorem parseFrame_kind {r : Bytes} {f : Frame} (h : parseFrame r = .ok f) :
    (∃ parts, f = .inline parts) ∨ r.head? = some (byteOf f.kind) := by
  unfold parseFrame at h
  split at h
  · cases h
  rcases bind_eq_ok_iff.mp h with ⟨⟨g, rest⟩, hinner, hwhole⟩
  simp only at hwhole
  split at hwhole
  · cases hwhole
  cases hwhole
  cases r with
  | nil => cases hinner
  | cons b input =>
      have hcases := parseFrameInner_cases (P := fun _ => True)
        (fun hle hparse => ⟨trivial, (Frame.Accepted.of_parse hle hparse).2⟩) le_rfl hinner
      rcases hcases.2 with ⟨parts, -, hparts, -⟩ | hparsed
      · exact .inl ⟨parts, hparts⟩
      · rw [List.head?_cons, ← hparsed.kind, byteOf_asChar]
        exact .inr rfl

/-! ## Relayed replies -/

/-- Whether a reply is a redirection with a slot and a target. -/
def IsRedirection (r : Bytes) (f : Frame) (redirection : Redirection) : Prop :=
  parseFrame r = .ok f ∧ Redirection.parse f = some redirection

/-- A reply is relayed as it came, or it is a redirection and its target is replaced by
a listener or by the error that there is none. -/
def Relays (lib : Externals) (localSlots : Option Frame) (map : ClusterRedirectionMap)
    (r : Bytes) : Prop :=
  ∃ out, normalizeClusterRedirection lib localSlots map r = .ok out ∧
    ((∀ f redirection, ¬ IsRedirection r f redirection) → out = r) ∧
    ∀ f redirection, IsRedirection r f redirection →
      out = noLocalListener.encode ∨
        ∃ server, map.HasListener server ∧
          out = ({ redirection with server }.toMatchingFrame f).encode

/-- An error line that is not UTF-8. -/
def BadErrorLine (r : Bytes) : Prop :=
  ∃ line error, r = byteOf '-' :: line ++ crlf ∧ fromUtf8 line = .error error

/-- Only error replies are redirections. -/
theorem isErrorReply_of_isRedirection {r : Bytes} {f : Frame} {redirection : Redirection}
    (hr : IsRedirection r f redirection) : isErrorReply r = true := by
  rcases hr with ⟨hparse, hredirection⟩
  rcases parseFrame_kind hparse with ⟨parts, rfl⟩ | hkind
  · cases hredirection
  · cases f with
    | simpleError value => simp [isErrorReply, hkind, Frame.kind]
    | bulkError bytes => simp [isErrorReply, hkind, Frame.kind]
    | _ => cases hredirection

/-- In cluster mode every accepted reply is relayed or redirected, except error lines
that are not UTF-8. -/
theorem normalizeClusterRedirection_iff (lib : Externals) (slots : Frame)
    (map : ClusterRedirectionMap) (s r rest : Bytes) (h : readRawFrame s = .ok (r, rest)) :
    Relays lib (some slots) map r ↔ ¬ BadErrorLine r := by
  by_cases herror : isErrorReply r = true
  · have hunfold : normalizeClusterRedirection lib (some slots) map r =
        (parseFrame r).mapError .resp >>= fun f =>
          .ok (((normalizeRedirection lib f map).map Frame.encode).getD r) := by
      rw [normalizeClusterRedirection, if_neg (by simp [herror])]
    have hparsed : ∀ f, parseFrame r = .ok f → Relays lib (some slots) map r := by
      intro f hf
      have hout : normalizeClusterRedirection lib (some slots) map r =
          .ok (((normalizeRedirection lib f map).map Frame.encode).getD r) := by
        rw [hunfold, hf]
        rfl
      refine ⟨_, hout, fun hnone => ?_, fun g redirection hr => ?_⟩
      · cases hredirection : Redirection.parse f with
        | none => simp [normalizeRedirection, hredirection]
        | some redirection => exact absurd ⟨hf, hredirection⟩ (hnone f redirection)
      · rcases hr with ⟨hg, hredirection⟩
        rw [hf] at hg
        cases hg
        cases hnormal : normalizeRedirection lib f map with
        | none =>
            simp only [normalizeRedirection, hredirection, Option.bind_eq_bind,
              Option.bind_some] at hnormal
            split at hnormal <;> cases hnormal
        | some g =>
            rcases normalizeRedirection_frame hnormal with rfl | ⟨parsed, server, hparsed, hmem, rfl⟩
            · exact .inl rfl
            · rw [hredirection] at hparsed
              cases hparsed
              exact .inr ⟨server, hmem, rfl⟩
    rcases errorReply_cases h herror with ⟨line, rfl, hlf⟩ | ⟨body, hbody⟩
    · rcases parseFrame_errorLine hlf (readRawFrame_consumes h).2.1 with
        ⟨value, hvalue, hparse⟩ | ⟨error, hvalue, hparse⟩
      · refine iff_of_true (hparsed _ hparse) ?_
        rintro ⟨line', error, hline, hinvalid⟩
        have hsame : line = line' := List.append_cancel_right (List.cons.inj hline).2
        rw [← hsame, hvalue] at hinvalid
        cases hinvalid
      · refine iff_of_false ?_ (not_not.mpr ⟨line, error, rfl, hvalue⟩)
        rintro ⟨out, hout, -, -⟩
        rw [hunfold, hparse] at hout
        cases hout
    · refine iff_of_true (hparsed _ hbody) ?_
      rintro ⟨line, error, rfl, -⟩
      rcases parseFrame_kind hbody with ⟨parts, hparts⟩ | hkind
      · cases hparts
      · cases hkind
  · refine iff_of_true ⟨r, ?_, fun _ => rfl, fun f redirection hr => ?_⟩ ?_
    · rw [normalizeClusterRedirection, if_pos (by simp [herror])]
    · exact absurd (isErrorReply_of_isRedirection hr) herror
    · rintro ⟨line, error, rfl, -⟩
      exact herror (by simp [isErrorReply])

/-- The line of an error reply, if it holds no line feed, is read as it stands. -/
theorem readRawFrame_errorLine (line : Bytes) (hlf : (10 : UInt8) ∉ line)
    (hsize : (byteOf '-' :: line ++ crlf).length ≤ maxFrameBytes) :
    readRawFrame (byteOf '-' :: line ++ crlf) = .ok (byteOf '-' :: line ++ crlf, []) := by
  have hhead : IsHead (byteOf '-' :: line ++ crlf) 0 := .scalar rfl rfl hlf
  have hread := readRawFrame_of_head hhead hsize []
  rwa [List.append_nil] at hread

/-- An error line with a byte that is no UTF-8 ends the connection. -/
theorem normalizeClusterRedirection_badLine :
    ¬ ∀ (lib : Externals) (slots : Frame) (map : ClusterRedirectionMap) (s r rest : Bytes),
      readRawFrame s = .ok (r, rest) → Relays lib (some slots) map r := by
  intro h
  have hread : readRawFrame [45, 255, 13, 10] = .ok ([45, 255, 13, 10], []) :=
    readRawFrame_errorLine [255] (by decide) (by decide)
  rcases h default (.array (some [])) {} _ _ _ hread with ⟨out, hout, -, -⟩
  cases hout

/-- A redirection to an unknown server. -/
theorem normalizeClusterRedirection_moved :
    Relays default (some (.array (some []))) {} (asBytes "-MOVED 1 a:1\r\n") ↔
      ¬ BadErrorLine (asBytes "-MOVED 1 a:1\r\n") := by
  have hread : readRawFrame (asBytes "-MOVED 1 a:1\r\n") =
      .ok (asBytes "-MOVED 1 a:1\r\n", []) :=
    readRawFrame_errorLine (asBytes "MOVED 1 a:1") (by decide) (by decide)
  exact normalizeClusterRedirection_iff default _ {} _ _ _ hread

end EvilResp
