import EvilResp.Config.Generator
import EvilResp.Externals
import EvilResp.Resp.Frame
import EvilResp.Rng

/-!
# Generated frames and scalars

Bounded frames and the corpora their scalars come from.  The nesting bound is kept
as the number of levels that may still be opened, so the recursion is structural;
at the last level no kind with children is drawn.

Main results:

- Theorem {lit}`GeneratorConfig.safe_frame`: generating a frame never draws from an
  empty range.
- Theorem {lit}`GeneratorConfig.all_mutateScalar`: a scalar that is changed in place
  ends up different.
-/

namespace EvilResp

open Library
open EvilResp.Resp
open EvilResp.Resp.Frame (byteOf)

/-- Generated frames have at most so many levels. -/
def maxDepth : Nat := 3

/-- A generated collection announces at most so many items. -/
def maxItems : Nat := 4

/-- A generated blob has at most so many bytes. -/
def maxBlobBytes : Nat := 4097

/-- Sizes of blobs at and around powers of two. -/
def sizes : List Nat :=
  [0, 1, 31, 32, 33, 255, 256, 257, 4095, 4096, 4097]

/-- Integers at the ends of the usual ranges. -/
def integers : List Int64 :=
  [-9223372036854775808, -9223372036854775807, -2147483649, -2147483648, -2147483647, -1, 0, 1,
    2147483646, 2147483647, 2147483648, 4294967295, 4294967296, 9223372036854775806,
    9223372036854775807]

/-- Doubles that are hard to read or to print. -/
def doubles : List String :=
  ["0", "-0", "1", "-1", "4.9406564584124654e-324", "2.2250738585072014e-308",
    "1.7976931348623157e308", "-1.7976931348623157e308", "inf", "-inf", "nan"]

/-- Numbers that do not fit into 64 bits, beside small ones. -/
def bigNumbers : List String :=
  ["0", "-1", "9223372036854775807", "9223372036854775808", "-9223372036854775809",
    "18446744073709551615", "18446744073709551616", "340282366920938463463374607431768211455",
    "-340282366920938463463374607431768211455"]

/-- Lines that look like something else. -/
def texts : List String :=
  ["", "0", "-1", "2147483648", "9223372036854775807", "18446744073709551616"]

/-- Blobs that look like something else. -/
def patterns : List Bytes :=
  [[0], [255], [13, 10, 0, 36, 42], [97]]

/-- The kinds of frames that are generated. -/
inductive Kind where
  | string
  | error
  | integer
  | blob
  | nullBlob
  | nullArray
  | array
  | null
  | boolean
  | double
  | bigNumber
  | bulkError
  | verbatim
  | map
  | set
deriving DecidableEq

/-! ## Draws that no setting changes -/

/-- Printable characters without the space. -/
def ascii (max : Nat) : Draw String := do
  let len ← genRange 0 (max + 1)
  let codes ← Draw.replicate len (genRange 0x21 0x7f)
  return String.ofList (codes.map Char.ofNat)

/-- A number that is not the current one, the proposal if it will do. -/
def differentNumber (next current : String) : String :=
  if next ≠ current then next
  else if current = "0" then "1"
  else "0"

/-- One of two extreme numbers that is not the current text. -/
def overflowText (current : Bytes) : Draw String := do
  let (chosen, other) :=
    if ← genBool then ("18446744073709551615", "9223372036854775807")
    else ("9223372036854775807", "18446744073709551615")
  return if asBytes chosen = current then other else chosen

/-- Change a proposal that is equal to the current bytes, behind a fixed front. -/
def makeDifferent (next current : Bytes) (front : Nat) : Bytes :=
  if next ≠ current then next
  else if next.length ≤ front then next ++ [byteOf 'x']
  else next.modify front (· ^^^ 1)

/-- Step over integers until one is no member.  There are fewer members than steps. -/
def freshItem (items : List Frame) : Nat → Frame → Nat → Frame
  | 0, item, _ => item
  | fuel + 1, item, fallback =>
      if item ∈ items then
        freshItem items fuel (.integer (Int64.ofNat fallback)) (fallback + 1)
      else item

/-- Draw set members one by one. -/
def buildSet (child : Draw Frame) : Nat → Nat → List Frame → Draw (List Frame)
  | 0, _, items => return items
  | count + 1, index, items => do
      let item ← child
      buildSet child count (index + 1) (items ++ [freshItem items (items.length + 1) item index])

/-- Draw the value of each pair; keys are numbered. -/
def buildMap (child : Draw Frame) : Nat → Nat → Draw (List (Frame × Frame))
  | 0, _ => return []
  | count + 1, index => do
      let value ← child
      let pairs ← buildMap child count (index + 1)
      return (.bulkString (some (asBytes ("key:" ++ toString index))), value) :: pairs

/-- Whether a bit pattern is the one of a finite float. -/
def isFiniteBits (bits : Nat) : Bool :=
  bits / 2 ^ 52 % 2 ^ 11 ≠ 2047

namespace GeneratorConfig

/-! ## Scalars -/

/-- Whether a value comes from the list of special ones. -/
def boundary (config : GeneratorConfig) : Draw Bool :=
  if config.corpus = .boundary then genRatio 7 10 else return false

/-- Whether a rule of the protocol is broken. -/
def violate (config : GeneratorConfig) : Draw Bool :=
  if config.violations then genRatio 1 5 else return false

/-- The number of items of a collection. -/
def count (config : GeneratorConfig) : Draw Nat := do
  if ← config.boundary then Draw.pick [0, 1, maxItems]
  else genRange 0 (maxItems + 1)

/-- An integer, special or any. -/
def integer (config : GeneratorConfig) : Draw Int64 := do
  if ← config.boundary then Draw.pick integers
  else genI64

/-- A line, special or of random letters. -/
def text (config : GeneratorConfig) : Draw String := do
  if ← config.boundary then Draw.pick texts
  else ascii 24

/-- A blob, special or of a random size. -/
def blob (config : GeneratorConfig) : Draw Bytes := do
  if !(← config.boundary) then
    let len ← genRange 0 257
    let bytes ← Draw.replicate len (genBits 8)
    return bytes.map UInt8.ofNat
  else if ← genRatio 1 4 then
    let number ← Draw.pick bigNumbers
    return asBytes number
  else
    let len ← Draw.pick sizes
    let pattern ← Draw.pick patterns
    return (List.range len).map fun i => pattern.getD (i % pattern.length) 0

/-- A double: a malformed text, a special one, or any that is finite. -/
def double (lib : Externals) (config : GeneratorConfig) (overflow : Bool) : Draw String := do
  if ← config.violate then Draw.pick ["not-a-number", "1e", "1.2.3"]
  else if overflow then Draw.pick doubles
  else if ← config.boundary then Draw.pick doubles
  else
    let bits ← genBits 64
    return if isFiniteBits bits then lib.displayF64 bits else "0"

/-- A big number: a malformed text, a special one, or any of 128 bits. -/
def bigNumber (config : GeneratorConfig) (overflow : Bool) : Draw String := do
  if ← config.violate then Draw.pick ["", "12x", "--1", "1.5"]
  else if overflow then Draw.pick bigNumbers
  else if ← config.boundary then Draw.pick bigNumbers
  else
    let sign := if ← genBool then "-" else ""
    let magnitude ← genBits 128
    return sign ++ toString magnitude

/-- An error text as a blob. -/
def bulkError (config : GeneratorConfig) : Draw Bytes := do
  let bytes ← config.blob
  return (asBytes "ERR " ++ bytes).take maxBlobBytes

/-- A verbatim blob of the text format, or one without a format. -/
def verbatim (config : GeneratorConfig) : Draw Bytes := do
  if ← config.violate then return asBytes "bad"
  else
    let bytes ← config.blob
    return (asBytes "txt:" ++ bytes).take maxBlobBytes

/-! ## Frames -/

/-- A malformed value.  Sideband frames occur only where their children still fit. -/
def violation (config : GeneratorConfig) (sideband : Bool) : Draw Frame := do
  let kinds := if sideband then 5 else 3
  let kinds := kinds + if config.protocol = .resp2 then 1 else 0
  let choice ← genRange 0 kinds
  return match choice, sideband with
    | 0, _ => .double "1e"
    | 1, _ => .bigNumber "12x"
    | 2, _ => .verbatimString (asBytes "bad")
    | 3, true => .push [.bulkString (some (asBytes "message"))]
    | 4, true => .attribute ([(.simpleString "meta", .integer 1)])
    | _, _ => .boolean true

/-- A frame of some kind, with a generator for the items of a collection. -/
def build (lib : Externals) (config : GeneratorConfig) (child : Draw Frame) : Kind → Draw Frame
  | .string => .simpleString <$> config.text
  | .error => (fun text => .simpleError ("ERR " ++ text)) <$> config.text
  | .integer => .integer <$> config.integer
  | .blob => (fun bytes => .bulkString (some bytes)) <$> config.blob
  | .nullBlob => return .bulkString none
  | .nullArray => return .array none
  | .null => return .null
  | .boolean => .boolean <$> genBool
  | .double => .double <$> config.double lib false
  | .bigNumber => .bigNumber <$> config.bigNumber false
  | .bulkError => .bulkError <$> config.bulkError
  | .verbatim => .verbatimString <$> config.verbatim
  | .array => do
      let count ← config.count
      (fun items => .array (some items)) <$> Draw.replicate count child
  | .map => do
      let count ← config.count
      .map <$> buildMap child count 0
  | .set => do
      let count ← config.count
      .set <$> buildSet child count 0 []

/-- The kinds of a protocol; the ones with children come last. -/
def kinds (config : GeneratorConfig) : List Kind :=
  match config.protocol with
  | .resp2 => [.string, .error, .integer, .blob, .nullBlob, .nullArray, .array]
  | .resp3 =>
      [.string, .error, .integer, .blob, .null, .boolean, .double, .bigNumber, .bulkError,
        .verbatim, .array, .map, .set]

/-- One frame whose children, where there may be some, are drawn by {lit}`child`. -/
def frameOf (lib : Externals) (config : GeneratorConfig) (sideband : Bool) (child : Draw Frame) :
    Draw Frame := do
  if ← config.violate then config.violation sideband
  else
    let available :=
      if sideband then config.kinds.length
      else config.kinds.length - if config.protocol = .resp2 then 1 else 3
    let kind ← Draw.pick (config.kinds.take available)
    config.build lib child kind

/-- A frame with so many levels left below it; the last level has no collections. -/
def frameAt (lib : Externals) (config : GeneratorConfig) : Nat → Draw Frame
  | 0 => config.frameOf lib false .panic
  | levels + 1 => config.frameOf lib true (frameAt lib config levels)

/-- A frame as deep as the limit allows. -/
def frame (lib : Externals) (config : GeneratorConfig) : Draw Frame :=
  config.frameAt lib (maxDepth - 1)

/-! ## Changes in place -/

/-- An integer of the generator, or an extreme one. -/
def proposeInteger (config : GeneratorConfig) (overflow : Bool) : Draw Int64 :=
  if overflow then
    (fun high => if high then 9223372036854775807 else -9223372036854775808) <$> genBool
  else config.integer

/-- An integer other than the current one. -/
def differentInteger (config : GeneratorConfig) (overflow : Bool) (value : Int64) :
    Draw Int64 := do
  let next ← config.proposeInteger overflow
  return if next ≠ value then next else if overflow then ~~~next else value + 1

/-- A line of the generator, or an extreme number. -/
def proposeText (config : GeneratorConfig) (overflow : Bool) (value : String) : Draw String :=
  if overflow then overflowText (asBytes value) else config.text

/-- A line other than the current one. -/
def differentText (config : GeneratorConfig) (overflow : Bool) (value : String) :
    Draw String := do
  let next ← config.proposeText overflow value
  return if next = value then next ++ "!" else next

/-- An extreme number behind a fixed front, or a blob of the generator. -/
def proposeBytes (overflow : Bool) (front : String) (current : Bytes) (blob : Draw Bytes) :
    Draw Bytes :=
  if overflow then (fun text => asBytes (front ++ text)) <$> overflowText current else blob

/-- Change a scalar in place; containers and nulls stay as they are. -/
def mutateScalar (lib : Externals) (config : GeneratorConfig) (overflow : Bool) :
    Frame → Draw Frame
  | .integer value => .integer <$> config.differentInteger overflow value
  | .simpleString value => .simpleString <$> config.differentText overflow value
  | .simpleError value => .simpleError <$> config.differentText overflow value
  | .double value => do
      let next ← config.double lib overflow
      return .double (differentNumber next value)
  | .bigNumber value => do
      let next ← config.bigNumber overflow
      return .bigNumber (differentNumber next value)
  | .bulkString (some bytes) => do
      let next ← proposeBytes overflow "" bytes config.blob
      return .bulkString (some (makeDifferent next bytes 0))
  | .bulkError bytes => do
      let next ← proposeBytes overflow "" bytes config.bulkError
      return .bulkError (makeDifferent next bytes 0)
  | .verbatimString bytes => do
      let next ← proposeBytes overflow "txt:" (bytes.drop 4) config.verbatim
      return .verbatimString (makeDifferent next bytes 4)
  | .boolean value => return .boolean (!value)
  | .inline parts => do
      let first ← ascii 8
      let second ← ascii 8
      let next := [asBytes first, asBytes second]
      return .inline (if next = parts then next ++ [asBytes "x"] else next)
  | f => return f

/-! ## Safety of the draws -/

/-- A ratio can be drawn if its denominator is positive. -/
theorem safe_genRatio {numerator denominator : Nat} (h : 0 < denominator) :
    (genRatio numerator denominator).Safe :=
  all_genRatio h fun _ => trivial

/-- A text of random letters can always be drawn. -/
theorem safe_ascii (max : Nat) : (ascii max).Safe := by
  refine Draw.safe_bind (all_genRange (by omega) fun _ _ _ => trivial) fun len => ?_
  refine Draw.safe_bind ?_ fun codes => trivial
  exact Draw.safe_replicate (all_genRange (by decide) fun _ _ _ => trivial) len

variable {lib : Externals} (config : GeneratorConfig)

/-- Whether a value is special can always be drawn. -/
theorem safe_boundary : config.boundary.Safe := by
  unfold boundary
  split
  · exact safe_genRatio (by decide)
  · trivial

/-- Whether a rule is broken can always be drawn. -/
theorem safe_violate : config.violate.Safe := by
  unfold violate
  split
  · exact safe_genRatio (by decide)
  · trivial

/-- A number of items can always be drawn. -/
theorem safe_count : config.count.Safe := by
  refine Draw.safe_bind (safe_boundary config) fun boundary => ?_
  split
  · exact Draw.safe_pick (by simp)
  · exact all_genRange (by decide) fun _ _ _ => trivial

/-- An integer can always be drawn. -/
theorem safe_integer : config.integer.Safe := by
  refine Draw.safe_bind (safe_boundary config) fun boundary => ?_
  split
  · exact Draw.safe_pick (by simp [integers])
  · exact all_genI64 fun _ => trivial

/-- A line can always be drawn. -/
theorem safe_text : config.text.Safe := by
  refine Draw.safe_bind (safe_boundary config) fun boundary => ?_
  split
  · exact Draw.safe_pick (by simp [texts])
  · exact safe_ascii 24

/-- A blob can always be drawn. -/
theorem safe_blob : config.blob.Safe := by
  refine Draw.safe_bind (safe_boundary config) fun boundary => ?_
  split
  · refine Draw.safe_bind (all_genRange (by decide) fun _ _ _ => trivial) fun len => ?_
    refine Draw.safe_bind ?_ fun bytes => trivial
    exact Draw.safe_replicate (all_genBits fun _ _ => trivial) len
  · refine Draw.safe_bind (safe_genRatio (by decide)) fun number => ?_
    split
    · exact Draw.safe_bind (Draw.safe_pick (by simp [bigNumbers])) fun _ => trivial
    · refine Draw.safe_bind (Draw.safe_pick (by simp [sizes])) fun len => ?_
      exact Draw.safe_bind (Draw.safe_pick (by simp [patterns])) fun _ => trivial

/-- A double can always be drawn. -/
theorem safe_double (overflow : Bool) : (config.double lib overflow).Safe := by
  refine Draw.safe_bind (safe_violate config) fun violate => ?_
  split
  · exact Draw.safe_pick (by simp)
  split
  · exact Draw.safe_pick (by simp [doubles])
  refine Draw.safe_bind (safe_boundary config) fun boundary => ?_
  split
  · exact Draw.safe_pick (by simp [doubles])
  · exact Draw.safe_bind (all_genBits fun _ _ => trivial) fun _ => trivial

/-- A big number can always be drawn. -/
theorem safe_bigNumber (overflow : Bool) : (config.bigNumber overflow).Safe := by
  refine Draw.safe_bind (safe_violate config) fun violate => ?_
  split
  · exact Draw.safe_pick (by simp)
  split
  · exact Draw.safe_pick (by simp [bigNumbers])
  refine Draw.safe_bind (safe_boundary config) fun boundary => ?_
  split
  · exact Draw.safe_pick (by simp [bigNumbers])
  · refine Draw.safe_bind (all_genBool.mpr ⟨trivial, trivial⟩) fun negative => ?_
    exact Draw.safe_bind (all_genBits fun _ _ => trivial) fun _ => trivial

/-- An error text can always be drawn. -/
theorem safe_bulkError : config.bulkError.Safe :=
  Draw.safe_bind (safe_blob config) fun _ => trivial

/-- A verbatim text can always be drawn. -/
theorem safe_verbatim : config.verbatim.Safe := by
  refine Draw.safe_bind (safe_violate config) fun violate => ?_
  split
  · trivial
  · exact Draw.safe_bind (safe_blob config) fun _ => trivial

/-- A frame that breaks a rule can always be drawn. -/
theorem safe_violation (sideband : Bool) : (config.violation sideband).Safe := by
  refine Draw.safe_bind (all_genRange ?_ fun _ _ _ => trivial) fun _ => trivial
  cases sideband with
  | false => exact Nat.add_pos_left (by decide) _
  | true => exact Nat.add_pos_left (by decide) _

/-- A set can be drawn if its items can, whatever was drawn of it so far. -/
theorem safe_buildSet {child : Draw Frame} (hchild : child.Safe) (count : Nat) :
    ∀ index items, (buildSet child count index items).Safe := by
  induction count with
  | zero =>
      intro index items
      trivial
  | succ count ih =>
      intro index items
      exact Draw.safe_bind hchild fun item => ih _ _

/-- A map can be drawn if its entries can, whatever was drawn of it so far. -/
theorem safe_buildMap {child : Draw Frame} (hchild : child.Safe) (count : Nat) :
    ∀ index, (buildMap child count index).Safe := by
  induction count with
  | zero =>
      intro index
      trivial
  | succ count ih =>
      intro index
      exact Draw.safe_bind hchild fun value => Draw.safe_bind (ih _) fun _ => trivial

/-- The kinds that draw children. -/
def hasChildren (kind : Kind) : Bool :=
  kind = .array ∨ kind = .map ∨ kind = .set

/-- A frame of some kind can be drawn if its items can. -/
theorem safe_build {child : Draw Frame} {kind : Kind}
    (hchild : hasChildren kind = true → child.Safe) : (config.build lib child kind).Safe := by
  cases kind with
  | string => exact Draw.safe_map (safe_text config)
  | error => exact Draw.safe_map (safe_text config)
  | integer => exact Draw.safe_map (safe_integer config)
  | blob => exact Draw.safe_map (safe_blob config)
  | boolean => exact Draw.safe_map (all_genBool.mpr ⟨trivial, trivial⟩)
  | double => exact Draw.safe_map (safe_double config false)
  | bigNumber => exact Draw.safe_map (safe_bigNumber config false)
  | bulkError => exact Draw.safe_map (safe_bulkError config)
  | verbatim => exact Draw.safe_map (safe_verbatim config)
  | array =>
      refine Draw.safe_bind (safe_count config) fun count => ?_
      exact Draw.safe_map (Draw.safe_replicate (hchild rfl) count)
  | map =>
      refine Draw.safe_bind (safe_count config) fun count => ?_
      exact Draw.safe_map (safe_buildMap (hchild rfl) count 0)
  | set =>
      refine Draw.safe_bind (safe_count config) fun count => ?_
      exact Draw.safe_map (safe_buildSet (hchild rfl) count 0 [])
  | _ => trivial

/-- At the last level the kinds with children are cut off. -/
theorem leaf_of_mem_kinds :
    ∀ kind ∈ config.kinds.take (config.kinds.length - if config.protocol = .resp2 then 1 else 3),
      hasChildren kind = false := by
  unfold kinds
  cases config.protocol with
  | resp2 => decide
  | resp3 => decide

/-- A frame of a random kind can be drawn if its items can. -/
theorem safe_frameOf {sideband : Bool} {child : Draw Frame}
    (hchild : sideband = true → child.Safe) : (config.frameOf lib sideband child).Safe := by
  refine Draw.safe_bind (safe_violate config) fun violate => ?_
  split
  · exact safe_violation config sideband
  · refine Draw.all_bind.mpr (Draw.all_pick.mpr ⟨?_, ?_⟩)
    · unfold kinds
      cases config.protocol <;> cases sideband <;> simp
    · intro kind hkind
      apply safe_build
      intro hchildren
      apply hchild
      by_contra hlast
      rw [if_neg hlast] at hkind
      rw [leaf_of_mem_kinds config kind hkind] at hchildren
      cases hchildren

/-- A frame can be drawn for every number of levels, by induction on it. -/
theorem safe_frameAt (levels : Nat) : (config.frameAt lib levels).Safe := by
  induction levels with
  | zero => exact safe_frameOf config (by simp)
  | succ levels ih => exact safe_frameOf config fun _ => ih

/-- Generating a frame never draws from an empty range. -/
theorem safe_frame : (config.frame lib).Safe :=
  safe_frameAt config _

/-! ## Changes are changes -/

/-- A different number is different. -/
theorem differentNumber_ne (next current : String) : differentNumber next current ≠ current := by
  unfold differentNumber
  split_ifs with hnext hzero
  · exact hnext
  · rw [hzero]
    decide
  · exact Ne.symm hzero

/-- Different bytes are different. -/
theorem makeDifferent_ne (next current : Bytes) (front : Nat) :
    makeDifferent next current front ≠ current := by
  unfold makeDifferent
  split_ifs with hnext hshort
  · exact hnext
  · intro h
    rw [not_not.mp hnext] at h
    exact absurd (congrArg List.length h) (by simp)
  · intro h
    rw [not_not.mp hnext] at h hshort
    have hfront : front < current.length := not_le.mp hshort
    have hbyte := congrArg (fun bytes : Bytes => bytes[front]?) h
    rw [List.getElem?_modify_eq, List.getElem?_eq_getElem hfront] at hbyte
    have hflip : ∀ b : UInt8, b ^^^ 1 ≠ b := by
      intro b hb
      have hbit := congrArg (fun b : UInt8 => b.toBitVec.getLsbD 0) hb
      simp at hbit
    exact hflip _ (Option.some.inj hbyte)

/-- A different integer is different, whatever is drawn. -/
theorem all_differentInteger (overflow : Bool) (value : Int64) :
    (config.differentInteger overflow value).All (· ≠ value) := by
  have hdiffer (next : Int64) :
      (if next ≠ value then next else if overflow then ~~~next else value + 1) ≠ value := by
    split_ifs with hnext hoverflow
    · exact hnext
    · rw [not_not.mp hnext]
      intro h
      have hbit := congrArg (fun n : Int64 => n.toBitVec.getLsbD 0) h
      simp at hbit
    · intro h
      have hbits := congrArg Int64.toBitVec h
      simp at hbits
  unfold differentInteger
  rw [Draw.all_bind]
  refine Draw.Safe.all ?_ hdiffer
  unfold proposeInteger
  split
  · exact Draw.safe_map (all_genBool.mpr ⟨trivial, trivial⟩)
  · exact safe_integer config

/-- A text that overflows can always be drawn. -/
theorem safe_overflowText (current : Bytes) : (overflowText current).Safe := by
  refine Draw.safe_bind (all_genBool.mpr ⟨trivial, trivial⟩) fun _ => trivial

/-- Bytes in place of others can be drawn if a blob can. -/
theorem safe_proposeBytes {blob : Draw Bytes} (hblob : blob.Safe) (overflow : Bool)
    (front : String) (current : Bytes) : (proposeBytes overflow front current blob).Safe := by
  unfold proposeBytes
  split
  · exact Draw.safe_map (safe_overflowText current)
  · exact hblob

/-- A different line is different, whatever is drawn. -/
theorem all_differentText (overflow : Bool) (value : String) :
    (config.differentText overflow value).All (· ≠ value) := by
  have hdiffer (next : String) : (if next = value then next ++ "!" else next) ≠ value := by
    split_ifs with hnext
    · intro h
      rw [hnext] at h
      exact absurd (congrArg String.length h) (by simp)
    · exact hnext
  unfold differentText
  rw [Draw.all_bind]
  refine Draw.Safe.all ?_ hdiffer
  unfold proposeText
  split
  · exact safe_overflowText _
  · exact safe_text config

/-- The kinds that are changed in place. -/
def isScalar : Frame → Bool
  | .integer _ | .simpleString _ | .simpleError _ | .double _ | .bigNumber _
  | .bulkString (some _) | .bulkError _ | .verbatimString _ => true
  | _ => false

/-- A scalar that is changed in place ends up different. -/
theorem all_mutateScalar (overflow : Bool) {f : Frame}
    (h : isScalar f = true ∨ (∃ value, f = .boolean value) ∨ ∃ parts, f = .inline parts) :
    (config.mutateScalar lib overflow f).All (· ≠ f) := by
  have hblob {x : Draw Bytes} (hx : x.Safe) (bytes : Bytes) (front : Nat) :
      x.All fun next => makeDifferent next bytes front ≠ bytes :=
    hx.all fun next => makeDifferent_ne next bytes front
  cases f with
  | integer value =>
      rw [mutateScalar, Draw.all_map]
      exact Draw.all_mono (all_differentInteger config overflow value) fun _ h => by simpa using h
  | simpleString value =>
      rw [mutateScalar, Draw.all_map]
      exact Draw.all_mono (all_differentText config overflow value) fun _ h => by simpa using h
  | simpleError value =>
      rw [mutateScalar, Draw.all_map]
      exact Draw.all_mono (all_differentText config overflow value) fun _ h => by simpa using h
  | double value =>
      rw [mutateScalar, Draw.all_bind]
      refine Draw.all_of_forall (safe_double config overflow) fun next => ?_
      simpa using differentNumber_ne next value
  | bigNumber value =>
      rw [mutateScalar, Draw.all_bind]
      refine Draw.all_of_forall (safe_bigNumber config overflow) fun next => ?_
      simpa using differentNumber_ne next value
  | bulkString bytes =>
      cases bytes with
      | none => simp [isScalar] at h
      | some bytes =>
          rw [mutateScalar, Draw.all_bind]
          have hbytes := hblob (safe_proposeBytes (safe_blob config) overflow "" bytes) bytes 0
          exact Draw.all_mono hbytes fun _ h => by simpa using h
  | bulkError bytes =>
      rw [mutateScalar, Draw.all_bind]
      have hbytes := hblob (safe_proposeBytes (safe_bulkError config) overflow "" bytes) bytes 0
      exact Draw.all_mono hbytes fun _ h => by simpa using h
  | verbatimString bytes =>
      rw [mutateScalar, Draw.all_bind]
      have hsafe := safe_proposeBytes (safe_verbatim config) overflow "txt:" (bytes.drop 4)
      exact Draw.all_mono (hblob hsafe bytes 4) fun _ h => by simpa using h
  | boolean value =>
      rw [mutateScalar]
      simp
  | inline parts =>
      rw [mutateScalar, Draw.all_bind]
      refine Draw.all_of_forall (safe_ascii 8) fun first => ?_
      rw [Draw.all_bind]
      refine Draw.all_of_forall (safe_ascii 8) fun second => ?_
      by_cases hsame : [asBytes first, asBytes second] = parts
      · subst hsame
        simp
      · simp [hsame]
  | _ => simp [isScalar] at h

end GeneratorConfig

end EvilResp
