import EvilResp.Library.Codes
import EvilResp.Library.Fields
import EvilResp.Resp.RoundTrip

/-!
# Monitor lines

The line that a monitor gets for each command: a header with the time and the connection, and
every argument between quotes.

Main results:

- Theorem {lit}`selfDelimiting_monitorByte` and theorem {lit}`selfDelimiting_monitorArg`: an
  escaped byte and a quoted argument can be cut off at the start of any text.
- Theorem {lit}`formatMonitorLine_framed`: a line is one frame, and its arguments can be told
  from it.
-/

namespace EvilResp

open Library
open EvilResp.Resp

/-! ## The model -/

/-- The time since the epoch. -/
structure Duration where
  secs : UInt64
  nanos : UInt32
deriving DecidableEq

/-- The microseconds of a time. -/
def Duration.subsecMicros (d : Duration) : UInt32 :=
  d.nanos / 1000

/-- The arguments of a command that a monitor is shown. -/
def monitorArgv (command : Frame) : List Bytes :=
  match command with
  | .array (some items) => items.filterMap fun
      | .bulkString (some bytes) => some bytes
      | .simpleString value => some (asBytes value)
      | .verbatimString bytes => some bytes
      | _ => none
  | .inline parts => parts
  | _ => []

/-- The form of one byte between the quotes. -/
def monitorByte (byte : UInt8) : List Char :=
  if byte = 92 then ['\\', '\\']
  else if byte = 34 then ['\\', '"']
  else if byte = 10 then ['\\', 'n']
  else if byte = 13 then ['\\', 'r']
  else if byte = 9 then ['\\', 't']
  else if 0x20 ≤ byte ∧ byte ≤ 0x7e then [Char.ofNat byte.toNat]
  else ['\\', 'x', Nat.digitChar (byte.toNat / 16), Nat.digitChar (byte.toNat % 16)]

/-- Write an argument between quotes, with escapes. -/
def pushMonitorArg (line : String) (arg : Bytes) : String :=
  (arg.foldl (fun line byte => line ++ String.ofList (monitorByte byte)) (line.push '"')).push '"'

/-- The part of a line before its arguments. -/
def monitorHeader (now : Duration) (connectionId : UInt64) : String :=
  toString now.secs ++ "." ++
    String.ofList (List.leftpad 6 '0' (toString now.subsecMicros).toList) ++
    " [0 unix:evilresp:" ++ toString connectionId ++ "]"

/-- The line for a command of a connection. -/
def formatMonitorLine (now : Duration) (connectionId : UInt64) (argv : List Bytes) : String :=
  argv.foldl (fun line arg => pushMonitorArg (line.push ' ') arg) (monitorHeader now connectionId)

/-- The line of a command, if somebody listens and the command has arguments. -/
def publishMonitorCommand (receivers : Nat) (now : Duration) (connectionId : UInt64)
    (command : Frame) : Option String :=
  if receivers = 0 then none
  else if monitorArgv command = [] then none
  else some (formatMonitorLine now connectionId (monitorArgv command))

/-! ## The text of a line -/

/-- An argument as it stands in a line, with the blank before it. -/
def monitorArg (arg : Bytes) : List Char :=
  [' ', '"'] ++ (arg.flatMap monitorByte ++ ['"'])

/-- An argument is written at the end. -/
theorem toList_pushMonitorArg (line : String) (arg : Bytes) :
    (pushMonitorArg (line.push ' ') arg).toList = line.toList ++ monitorArg arg := by
  have hloop (start : String) :
      (arg.foldl (fun line byte => line ++ String.ofList (monitorByte byte)) start).toList =
        start.toList ++ arg.flatMap monitorByte := by
    induction arg generalizing start with
    | nil => simp
    | cons byte arg ih => simp [ih]
  simp [pushMonitorArg, monitorArg, hloop]

/-- A line is its header with the arguments behind it. -/
theorem toList_formatMonitorLine (now : Duration) (connectionId : UInt64) (argv : List Bytes) :
    (formatMonitorLine now connectionId argv).toList =
      (monitorHeader now connectionId).toList ++ argv.flatMap monitorArg := by
  have hloop (start : String) :
      (argv.foldl (fun line arg => pushMonitorArg (line.push ' ') arg) start).toList =
        start.toList ++ argv.flatMap monitorArg := by
    induction argv generalizing start with
    | nil => simp
    | cons arg argv ih =>
        rw [List.foldl_cons, ih, toList_pushMonitorArg, List.flatMap_cons, List.append_assoc]
  exact hloop _

/-! ## Unique reading -/

/-- The value of a lower-case hexadecimal digit. -/
def hexValue (c : Char) : Nat :=
  if c.isDigit then c.toNat - 48 else c.toNat - 87

/-- Read one escaped byte. -/
def readMonitorByte : List Char → Option (UInt8 × List Char)
  | '\\' :: '\\' :: rest => some (92, rest)
  | '\\' :: '"' :: rest => some (34, rest)
  | '\\' :: 'n' :: rest => some (10, rest)
  | '\\' :: 'r' :: rest => some (13, rest)
  | '\\' :: 't' :: rest => some (9, rest)
  | '\\' :: 'x' :: high :: low :: rest =>
      some (UInt8.ofNat (16 * hexValue high + hexValue low), rest)
  | c :: rest => some (UInt8.ofNat c.toNat, rest)
  | [] => none

/-- A hexadecimal digit has its value. -/
theorem hexValue_digitChar {n : Nat} (h : n < 16) : hexValue n.digitChar = n := by
  interval_cases n <;> rfl

/-- A character without escape stands for itself. -/
theorem readMonitorByte_cons {c : Char} (h : c ≠ '\\') (rest : List Char) :
    readMonitorByte (c :: rest) = some (UInt8.ofNat c.toNat, rest) := by
  unfold readMonitorByte
  split <;> simp_all

/-- The character of a byte, and the byte of that character. -/
theorem toNat_charOfByte (byte : UInt8) : (Char.ofNat byte.toNat).toNat = byte.toNat := by
  have := byte.toNat_lt
  exact toNat_ofNat (.inl (by omega))

/-- An escaped byte is read back, whatever follows it. -/
theorem readMonitorByte_monitorByte (byte : UInt8) (rest : List Char) :
    readMonitorByte (monitorByte byte ++ rest) = some (byte, rest) := by
  unfold monitorByte
  split_ifs with hslash hquote hlf hcr htab hprint
  · rw [hslash]
    rfl
  · rw [hquote]
    rfl
  · rw [hlf]
    rfl
  · rw [hcr]
    rfl
  · rw [htab]
    rfl
  · -- a printable byte stands for itself, and is no backslash
    have hne : Char.ofNat byte.toNat ≠ '\\' := fun heq => by
      apply hslash
      apply UInt8.toNat_inj.mp
      rw [← toNat_charOfByte byte, heq]
      rfl
    rw [List.singleton_append, readMonitorByte_cons hne, toNat_charOfByte, UInt8.ofNat_toNat]
  · have hbyte := byte.toNat_lt
    have hvalue : 16 * hexValue (byte.toNat / 16).digitChar + hexValue (byte.toNat % 16).digitChar =
        byte.toNat := by
      rw [hexValue_digitChar (by omega), hexValue_digitChar (by omega)]
      omega
    simp only [List.cons_append, List.nil_append, readMonitorByte, hvalue, UInt8.ofNat_toNat]

/-- So an escaped byte can be cut off. -/
theorem selfDelimiting_monitorByte : SelfDelimiting monitorByte :=
  selfDelimiting_of_read readMonitorByte readMonitorByte_monitorByte

/-- No escaped byte starts with a quote. -/
theorem monitorByte_ne_quote (byte : UInt8) (u v : List Char) :
    monitorByte byte ++ u ≠ ['"'] ++ v := by
  intro heq
  have hread := readMonitorByte_monitorByte byte u
  -- only the byte of a quote is read from a quote, and that byte is escaped
  rw [heq, List.singleton_append, readMonitorByte_cons (by decide)] at hread
  obtain ⟨hbyte, -⟩ := Prod.mk.inj (Option.some.inj hread)
  rw [← hbyte] at heq
  exact absurd (List.cons.inj heq).1 (by decide)

/-- And so can an argument between quotes. -/
theorem selfDelimiting_monitorArg : SelfDelimiting monitorArg :=
  (selfDelimiting_monitorByte.terminated _ monitorByte_ne_quote).mark _

/-! ## Printable text -/

/-- The characters that one byte between 0x20 and 0x7e writes. -/
def Printable (c : Char) : Prop :=
  0x20 ≤ c.toNat ∧ c.toNat ≤ 0x7e

instance : DecidablePred Printable := fun c => by
  unfold Printable
  infer_instance

/-- Digits are printable. -/
theorem printable_of_isDigit {c : Char} (h : c.isDigit) : Printable c := by
  obtain ⟨hlow, hhigh⟩ := toNat_of_isDigit h
  exact ⟨by omega, by omega⟩

/-- Hexadecimal digits are printable. -/
theorem printable_digitChar {n : Nat} (h : n < 16) : Printable n.digitChar := by
  interval_cases n <;> decide

/-- Escapes are printable. -/
theorem printable_monitorByte (byte : UInt8) : ∀ c ∈ monitorByte byte, Printable c := by
  unfold monitorByte
  split_ifs with hslash hquote hlf hcr htab hprint
  iterate 5 exact forall_mem_of_all (by decide)
  · intro c hc
    obtain ⟨hlow, hhigh⟩ := hprint
    rw [List.mem_singleton.mp hc, Printable, toNat_charOfByte]
    exact ⟨UInt8.le_iff_toNat_le.mp hlow, UInt8.le_iff_toNat_le.mp hhigh⟩
  · have hbyte := byte.toNat_lt
    simp only [List.forall_mem_cons]
    exact ⟨by decide, by decide, printable_digitChar (by omega), printable_digitChar (by omega),
      by simp⟩

/-- Arguments between quotes are printable. -/
theorem printable_monitorArg (arg : Bytes) : ∀ c ∈ monitorArg arg, Printable c := by
  intro c hc
  simp only [monitorArg, List.mem_append, List.mem_flatMap] at hc
  rcases hc with hstart | ⟨byte, -, hbyte⟩ | hstop
  · exact forall_mem_of_all (by decide) c hstart
  · exact printable_monitorByte byte c hbyte
  · exact forall_mem_of_all (by decide) c hstop

/-- Numbers are printable. -/
theorem printable_repr (n : Nat) : ∀ c ∈ n.repr.toList, Printable c := fun _ hc =>
  printable_of_isDigit (isDigit_of_mem_repr hc)

/-- Headers are printable. -/
theorem printable_monitorHeader (now : Duration) (connectionId : UInt64) :
    ∀ c ∈ (monitorHeader now connectionId).toList, Printable c := by
  intro c hc
  simp only [monitorHeader, String.toList_append, List.mem_append, String.toList_ofList] at hc
  rcases hc with ((((hsecs | hpoint) | hmicros) | hmiddle) | hid) | hend
  · exact printable_repr _ c hsecs
  · exact forall_mem_of_all (by decide) c hpoint
  · rcases List.mem_append.mp (show c ∈ List.replicate _ '0' ++ _ from hmicros) with hzero | hdigit
    · rw [List.eq_of_mem_replicate hzero]
      decide
    · exact printable_repr _ c hdigit
  · exact forall_mem_of_all (by decide) c hmiddle
  · exact printable_repr _ c hid
  · exact forall_mem_of_all (by decide) c hend

/-- Lines are printable. -/
theorem printable_formatMonitorLine (now : Duration) (connectionId : UInt64)
    (argv : List Bytes) : ∀ c ∈ (formatMonitorLine now connectionId argv).toList, Printable c := by
  intro c hc
  rw [toList_formatMonitorLine, List.mem_append, List.mem_flatMap] at hc
  rcases hc with hheader | ⟨arg, -, harg⟩
  · exact printable_monitorHeader now connectionId c hheader
  · exact printable_monitorArg arg c harg

/-- Printable text is one printable byte for each character. -/
theorem printable_bytes {s : String} (h : ∀ c ∈ s.toList, Printable c) :
    ∀ byte ∈ asBytes s, 0x20 ≤ byte ∧ byte ≤ 0x7e := by
  intro byte hbyte
  rw [asBytes_eq_flatMap, List.mem_flatMap] at hbyte
  obtain ⟨c, hc, hbyte⟩ := hbyte
  obtain ⟨hlow, hhigh⟩ := h c hc
  rw [utf8EncodeChar_ascii (by omega), List.mem_singleton] at hbyte
  have hnat : byte.toNat = c.toNat := by
    rw [hbyte, UInt8.toNat_ofNat']
    omega
  constructor
  · apply UInt8.le_iff_toNat_le.mpr
    rw [hnat]
    exact hlow
  · apply UInt8.le_iff_toNat_le.mpr
    rw [hnat]
    exact hhigh

/-! ## Lines as frames -/

/-- A printable text has no line feed. -/
theorem lfFree_simpleString {s : String} (h : ∀ c ∈ s.toList, Printable c) :
    (Frame.simpleString s).LfFree := by
  apply Frame.textAll_iff.mpr
  constructor
  · intro value hvalue
    obtain rfl : s = value := Option.some.inj hvalue
    apply decide_eq_true
    intro hlf
    exact absurd (printable_bytes h 10 hlf).1 (by decide)
  · intro c hc
    cases hc

/-- A printable text that fits is read back as one frame. -/
theorem simpleString_framed {s : String} (h : ∀ c ∈ s.toList, Printable c)
    (hsize : (Frame.simpleString s).encode.length ≤ maxFrameBytes) (rest : Bytes) :
    readRawFrame ((Frame.simpleString s).encode ++ rest) =
        .ok ((Frame.simpleString s).encode, rest) ∧
      parseFrame (Frame.simpleString s).encode = .ok (.simpleString s) := by
  have hinline : (Frame.simpleString s).InlineFree := rfl
  have hdepth : (Frame.simpleString s).depth ≤ maxFrameDepth := by
    rw [show (Frame.simpleString s).depth = 1 from rfl]
    decide
  have htext := lfFree_simpleString h
  constructor
  · exact readRawFrame_encode hinline htext hdepth hsize rest
  · exact parseFrame_encode hinline htext.crlfFree hdepth hsize

/-- Different arguments are written differently. -/
theorem monitorArgs_injective : Function.Injective fun argv : List Bytes => argv.flatMap monitorArg :=
  selfDelimiting_monitorArg.flatMap_injective fun arg => by simp [monitorArg]

/-- A monitor line is printable, one frame on the wire, and its text behind the header is the
text of one list of arguments only. -/
theorem formatMonitorLine_framed (now : Duration) (connectionId : UInt64) (argv : List Bytes) :
    (∀ byte ∈ asBytes (formatMonitorLine now connectionId argv), 0x20 ≤ byte ∧ byte ≤ 0x7e) ∧
      (∀ encoded, encoded = (Frame.simpleString (formatMonitorLine now connectionId argv)).encode →
        encoded.length ≤ maxFrameBytes → ∀ rest,
          readRawFrame (encoded ++ rest) = .ok (encoded, rest) ∧
            parseFrame encoded = .ok (.simpleString (formatMonitorLine now connectionId argv))) ∧
      ∃ text, formatMonitorLine now connectionId argv = monitorHeader now connectionId ++ text ∧
        ∀ now' connectionId' argv',
          formatMonitorLine now' connectionId' argv' = monitorHeader now' connectionId' ++ text →
            argv' = argv := by
  have hprint := printable_formatMonitorLine now connectionId argv
  refine ⟨printable_bytes hprint, ?_, String.ofList (argv.flatMap monitorArg), ?_, ?_⟩
  · intro encoded hencoded hsize rest
    rw [hencoded] at hsize ⊢
    exact simpleString_framed hprint hsize rest
  · apply String.toList_inj.mp
    rw [toList_formatMonitorLine, String.toList_append, String.toList_ofList]
  · intro now' connectionId' argv' hline
    apply monitorArgs_injective
    have htext := congrArg String.toList hline
    rw [toList_formatMonitorLine, String.toList_append, String.toList_ofList] at htext
    exact List.append_cancel_left htext

end EvilResp
