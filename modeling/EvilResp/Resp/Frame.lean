import EvilResp.Library.Text

/-!
# RESP frames and their encoding

The sixteen frame kinds of the wire protocol and the encoder that writes them.
The encoder asks a callback about every frame in pre-order, which is how a
length header is overridden without touching any body; the callback's counter is
threaded explicitly here.

Main results:

- Theorem {lit}`Frame.childInduction`: a property of a frame follows from the
  property of its children.
- Theorem {lit}`Frame.encode_eq`: an encoding is the frame's own head followed
  by the encodings of its children.
- Theorem {lit}`Frame.encodeInto_snd`: the callback is asked once per frame.
-/

namespace EvilResp
namespace Resp

open Library

/-- A RESP2 or RESP3 frame, or an inline command. -/
inductive Frame where
  | simpleString (value : String)
  | simpleError (value : String)
  | integer (value : Int64)
  | bulkString (bytes : Option Bytes)
  | array (items : Option (List Frame))
  | null
  | boolean (value : Bool)
  | double (value : String)
  | bigNumber (value : String)
  | bulkError (bytes : Bytes)
  | verbatimString (bytes : Bytes)
  | map (items : List (Frame × Frame))
  | set (items : List Frame)
  | push (items : List Frame)
  | attribute (items : List (Frame × Frame))
  | inline (parts : List Bytes)

namespace Frame

/-! ## Children -/

/-- The direct children of an aggregate in wire order; scalars have none. -/
def children : Frame → List Frame
  | .array (some items) => items
  | .set items => items
  | .push items => items
  | .map items => items.flatMap fun pair => [pair.1, pair.2]
  | .attribute items => items.flatMap fun pair => [pair.1, pair.2]
  | _ => []

theorem mem_pairs {pairs : List (Frame × Frame)} {c : Frame} :
    (c ∈ pairs.flatMap fun pair => [pair.1, pair.2]) ↔ ∃ pair ∈ pairs, c = pair.1 ∨ c = pair.2 := by
  simp [List.mem_flatMap]

/-- Members of pairs inherit what holds of both sides of every pair. -/
theorem forall_mem_pairs {P : Frame → Prop} {pairs : List (Frame × Frame)}
    (h : ∀ pair ∈ pairs, P pair.1 ∧ P pair.2) :
    ∀ c ∈ pairs.flatMap fun pair => [pair.1, pair.2], P c := by
  intro c hc
  obtain ⟨pair, hpair, rfl | rfl⟩ := mem_pairs.mp hc
  · exact (h pair hpair).1
  · exact (h pair hpair).2

mutual

/-- A property of every frame follows from the property of its children. -/
theorem childInduction {P : Frame → Prop} (step : ∀ f, (∀ c ∈ f.children, P c) → P f) :
    ∀ f, P f
  | .array (some items) => step _ (itemsInduction step items)
  | .set items => step _ (itemsInduction step items)
  | .push items => step _ (itemsInduction step items)
  | .map items => step _ (forall_mem_pairs (pairsInduction step items))
  | .attribute items => step _ (forall_mem_pairs (pairsInduction step items))
  | .simpleString _ => step _ (by simp [children])
  | .simpleError _ => step _ (by simp [children])
  | .integer _ => step _ (by simp [children])
  | .bulkString _ => step _ (by simp [children])
  | .array none => step _ (by simp [children])
  | .null => step _ (by simp [children])
  | .boolean _ => step _ (by simp [children])
  | .double _ => step _ (by simp [children])
  | .bigNumber _ => step _ (by simp [children])
  | .bulkError _ => step _ (by simp [children])
  | .verbatimString _ => step _ (by simp [children])
  | .inline _ => step _ (by simp [children])

theorem itemsInduction {P : Frame → Prop} (step : ∀ f, (∀ c ∈ f.children, P c) → P f) :
    ∀ items : List Frame, ∀ c ∈ items, P c
  | [] => by simp
  | f :: items =>
      List.forall_mem_cons.mpr ⟨childInduction step f, itemsInduction step items⟩

theorem pairsInduction {P : Frame → Prop} (step : ∀ f, (∀ c ∈ f.children, P c) → P f) :
    ∀ pairs : List (Frame × Frame), ∀ pair ∈ pairs, P pair.1 ∧ P pair.2
  | [] => by simp
  | (key, value) :: pairs =>
      List.forall_mem_cons.mpr
        ⟨⟨childInduction step key, childInduction step value⟩, pairsInduction step pairs⟩

end

/-! ## Decidable equality -/

mutual

/-- Structural comparison of two frames. -/
def beq : Frame → Frame → Bool
  | .simpleString a, .simpleString b => a = b
  | .simpleError a, .simpleError b => a = b
  | .integer a, .integer b => a = b
  | .bulkString a, .bulkString b => a = b
  | .array none, .array none => true
  | .array (some a), .array (some b) => beqItems a b
  | .null, .null => true
  | .boolean a, .boolean b => a = b
  | .double a, .double b => a = b
  | .bigNumber a, .bigNumber b => a = b
  | .bulkError a, .bulkError b => a = b
  | .verbatimString a, .verbatimString b => a = b
  | .map a, .map b => beqPairs a b
  | .set a, .set b => beqItems a b
  | .push a, .push b => beqItems a b
  | .attribute a, .attribute b => beqPairs a b
  | .inline a, .inline b => a = b
  | _, _ => false

/-- Equality of sequences, item by item. -/
def beqItems : List Frame → List Frame → Bool
  | [], [] => true
  | f :: fs, g :: gs => beq f g && beqItems fs gs
  | _, _ => false

/-- Equality of pairs, in their order. -/
def beqPairs : List (Frame × Frame) → List (Frame × Frame) → Bool
  | [], [] => true
  | (k, v) :: fs, (k', v') :: gs => beq k k' && beq v v' && beqPairs fs gs
  | _, _ => false

end

mutual

theorem beq_eq_true_iff : ∀ f g : Frame, beq f g = true ↔ f = g
  | .simpleString _, g => by cases g <;> simp [beq]
  | .simpleError _, g => by cases g <;> simp [beq]
  | .integer _, g => by cases g <;> simp [beq]
  | .bulkString _, g => by cases g <;> simp [beq]
  | .array none, g => by
      cases g with
      | array items => cases items <;> simp [beq]
      | _ => simp [beq]
  | .array (some a), g => by
      cases g with
      | array items => cases items <;> simp [beq, beqItems_eq_true_iff a]
      | _ => simp [beq]
  | .null, g => by cases g <;> simp [beq]
  | .boolean _, g => by cases g <;> simp [beq]
  | .double _, g => by cases g <;> simp [beq]
  | .bigNumber _, g => by cases g <;> simp [beq]
  | .bulkError _, g => by cases g <;> simp [beq]
  | .verbatimString _, g => by cases g <;> simp [beq]
  | .map a, g => by cases g <;> simp [beq, beqPairs_eq_true_iff a]
  | .set a, g => by cases g <;> simp [beq, beqItems_eq_true_iff a]
  | .push a, g => by cases g <;> simp [beq, beqItems_eq_true_iff a]
  | .attribute a, g => by cases g <;> simp [beq, beqPairs_eq_true_iff a]
  | .inline _, g => by cases g <;> simp [beq]

theorem beqItems_eq_true_iff : ∀ fs gs : List Frame, beqItems fs gs = true ↔ fs = gs
  | [], gs => by cases gs <;> simp [beqItems]
  | f :: fs, gs => by
      cases gs with
      | nil => simp [beqItems]
      | cons g gs => simp [beqItems, beq_eq_true_iff f, beqItems_eq_true_iff fs]

theorem beqPairs_eq_true_iff : ∀ fs gs : List (Frame × Frame), beqPairs fs gs = true ↔ fs = gs
  | [], gs => by cases gs <;> simp [beqPairs]
  | (k, v) :: fs, gs => by
      cases gs with
      | nil => simp [beqPairs]
      | cons pair gs =>
          obtain ⟨k', v'⟩ := pair
          simp [beqPairs, beq_eq_true_iff k, beq_eq_true_iff v, beqPairs_eq_true_iff fs]

end

instance : DecidableEq Frame := fun f g =>
  decidable_of_iff (beq f g = true) (beq_eq_true_iff f g)

/-! ## Folds over the tree -/

mutual

/-- Combine every frame with the results of its children, bottom up. -/
def fold {β : Type} (combine : Frame → List β → β) : Frame → β
  | .array (some items) => combine (.array (some items)) (foldItems combine items)
  | .set items => combine (.set items) (foldItems combine items)
  | .push items => combine (.push items) (foldItems combine items)
  | .map items => combine (.map items) (foldPairs combine items)
  | .attribute items => combine (.attribute items) (foldPairs combine items)
  | .simpleString value => combine (.simpleString value) []
  | .simpleError value => combine (.simpleError value) []
  | .integer value => combine (.integer value) []
  | .bulkString bytes => combine (.bulkString bytes) []
  | .array none => combine (.array none) []
  | .null => combine .null []
  | .boolean value => combine (.boolean value) []
  | .double value => combine (.double value) []
  | .bigNumber value => combine (.bigNumber value) []
  | .bulkError bytes => combine (.bulkError bytes) []
  | .verbatimString bytes => combine (.verbatimString bytes) []
  | .inline parts => combine (.inline parts) []

/-- Fold every item. -/
def foldItems {β : Type} (combine : Frame → List β → β) : List Frame → List β
  | [] => []
  | f :: fs => fold combine f :: foldItems combine fs

/-- Fold every key and value. -/
def foldPairs {β : Type} (combine : Frame → List β → β) : List (Frame × Frame) → List β
  | [] => []
  | (key, value) :: pairs =>
      fold combine key :: fold combine value :: foldPairs combine pairs

end

variable {β : Type}

theorem foldItems_eq (combine : Frame → List β → β) (fs : List Frame) :
    foldItems combine fs = fs.map (fold combine) := by
  induction fs with
  | nil => rfl
  | cons f fs ih => simp [foldItems, ih]

theorem foldPairs_eq (combine : Frame → List β → β) (pairs : List (Frame × Frame)) :
    foldPairs combine pairs = (pairs.flatMap fun pair => [pair.1, pair.2]).map (fold combine) := by
  induction pairs with
  | nil => rfl
  | cons pair pairs ih => simp [foldPairs, ih]

/-- A fold is determined by one step over the direct children. -/
theorem fold_eq (combine : Frame → List β → β) (f : Frame) :
    fold combine f = combine f (f.children.map (fold combine)) := by
  cases f with
  | array items => cases items <;> simp [fold, children, foldItems_eq]
  | _ => simp [fold, children, foldItems_eq, foldPairs_eq]

/-- Number of frames of the tree. -/
def size : Frame → Nat :=
  fold fun _ sizes => 1 + sizes.sum

/-- Nesting depth of the tree; the root counts. -/
def depth : Frame → Nat :=
  fold fun _ depths => 1 + depths.foldr max 0

/-- A test that every frame of the tree passes. -/
def all (test : Frame → Bool) : Frame → Bool :=
  fold fun f passed => test f && passed.all id

theorem size_eq (f : Frame) : f.size = 1 + (f.children.map size).sum :=
  fold_eq _ f

theorem depth_eq (f : Frame) : f.depth = 1 + (f.children.map depth).foldr max 0 :=
  fold_eq _ f

theorem all_eq_true_iff {test : Frame → Bool} {f : Frame} :
    f.all test = true ↔ test f = true ∧ ∀ c ∈ f.children, c.all test = true := by
  rw [all, fold_eq]
  simp

theorem size_pos (f : Frame) : 0 < f.size := by
  rw [size_eq]
  omega

theorem depth_pos (f : Frame) : 0 < f.depth := by
  rw [depth_eq]
  omega

theorem depth_lt_of_mem_children {f c : Frame} (hc : c ∈ f.children) : c.depth < f.depth := by
  have hle : ∀ l : List Nat, ∀ n ∈ l, n ≤ l.foldr max 0 := by
    intro l
    induction l with
    | nil => simp
    | cons m l ih =>
        intro n hn
        rcases List.mem_cons.mp hn with rfl | hn
        · exact le_max_left _ _
        · exact (ih n hn).trans (le_max_right _ _)
  have := hle _ _ (List.mem_map_of_mem (f := depth) hc)
  rw [depth_eq f]
  omega

theorem depth_le_succ {f : Frame} {n : Nat} (h : ∀ c ∈ f.children, c.depth ≤ n) :
    f.depth ≤ n + 1 := by
  have hmax : ∀ l : List Nat, (∀ m ∈ l, m ≤ n) → l.foldr max 0 ≤ n := by
    intro l hl
    induction l with
    | nil => simp
    | cons m l ih =>
        obtain ⟨hm, hrest⟩ := List.forall_mem_cons.mp hl
        exact max_le hm (ih hrest)
  have := hmax (f.children.map depth) (by simpa using h)
  rw [depth_eq]
  omega

/-- No inline command occurs in the tree. -/
def InlineFree (f : Frame) : Prop :=
  f.all (fun | .inline _ => false | _ => true) = true

instance : DecidablePred InlineFree := fun f => by
  unfold InlineFree
  infer_instance

theorem inlineFree_iff {f : Frame} :
    f.InlineFree ↔ (∀ parts, f ≠ .inline parts) ∧ ∀ c ∈ f.children, c.InlineFree := by
  rw [InlineFree, all_eq_true_iff]
  apply and_congr_left
  intro _
  cases f <;> simp

theorem InlineFree.of_mem_children {f c : Frame} (h : f.InlineFree) (hc : c ∈ f.children) :
    c.InlineFree :=
  (all_eq_true_iff.mp h).2 c hc

theorem InlineFree.ne_inline {f : Frame} (h : f.InlineFree) (parts : List Bytes) :
    f ≠ .inline parts := by
  rintro rfl
  exact absurd (all_eq_true_iff.mp h).1 (by simp)

/-! ## Encoding -/

/-- The line terminator. -/
def crlf : Bytes := [13, 10]

/-- The byte of an ASCII character. -/
def byteOf (c : Char) : UInt8 :=
  UInt8.ofNat c.toNat

/-- One protocol line: a kind byte, the text and the terminator. -/
def pushLine (kind : Char) (value : Bytes) : Bytes :=
  byteOf kind :: value ++ crlf

/-- One length-prefixed body.  An override replaces the advertised length only. -/
def pushBlob (kind : Char) (bytes : Bytes) (replacement : Option String) : Bytes :=
  pushLine kind (asBytes (replacement.getD (toString bytes.length))) ++ bytes ++ crlf

/-- Inline arguments joined by single spaces. -/
def joinParts : List Bytes → Bytes
  | [] => []
  | [part] => part
  | part :: parts => part ++ byteOf ' ' :: joinParts parts

mutual

/-- Write one frame.  {lit}`header` is asked about each frame under its pre-order
index, and the index after the last frame is returned with the bytes. -/
def encodeInto (header : Nat → Option String) : Frame → Nat → Bytes × Nat
  | .simpleString value, index => (pushLine '+' (asBytes value), index + 1)
  | .simpleError value, index => (pushLine '-' (asBytes value), index + 1)
  | .integer value, index => (pushLine ':' (asBytes (toString value.toInt)), index + 1)
  | .bulkString (some bytes), index => (pushBlob '$' bytes (header index), index + 1)
  | .bulkString none, index => (pushLine '$' (asBytes ((header index).getD "-1")), index + 1)
  | .array (some items), index =>
      let line := pushLine '*' (asBytes ((header index).getD (toString items.length)))
      let (body, next) := encodeItems header items (index + 1)
      (line ++ body, next)
  | .array none, index => (pushLine '*' (asBytes ((header index).getD "-1")), index + 1)
  | .null, index => (byteOf '_' :: crlf, index + 1)
  | .boolean value, index => (byteOf '#' :: byteOf (if value then 't' else 'f') :: crlf, index + 1)
  | .double value, index => (pushLine ',' (asBytes value), index + 1)
  | .bigNumber value, index => (pushLine '(' (asBytes value), index + 1)
  | .bulkError bytes, index => (pushBlob '!' bytes (header index), index + 1)
  | .verbatimString bytes, index => (pushBlob '=' bytes (header index), index + 1)
  | .map items, index =>
      let line := pushLine '%' (asBytes ((header index).getD (toString items.length)))
      let (body, next) := encodePairs header items (index + 1)
      (line ++ body, next)
  | .set items, index =>
      let line := pushLine '~' (asBytes ((header index).getD (toString items.length)))
      let (body, next) := encodeItems header items (index + 1)
      (line ++ body, next)
  | .push items, index =>
      let line := pushLine '>' (asBytes ((header index).getD (toString items.length)))
      let (body, next) := encodeItems header items (index + 1)
      (line ++ body, next)
  | .attribute items, index =>
      let line := pushLine '|' (asBytes ((header index).getD (toString items.length)))
      let (body, next) := encodePairs header items (index + 1)
      (line ++ body, next)
  | .inline parts, index => (joinParts parts ++ crlf, index + 1)

/-- The bytes of a sequence, and the number of the next header. -/
def encodeItems (header : Nat → Option String) : List Frame → Nat → Bytes × Nat
  | [], index => ([], index)
  | item :: items, index =>
      let (bytes, next) := encodeInto header item index
      let (rest, last) := encodeItems header items next
      (bytes ++ rest, last)

/-- The bytes of pairs, and the number of the next header. -/
def encodePairs (header : Nat → Option String) : List (Frame × Frame) → Nat → Bytes × Nat
  | [], index => ([], index)
  | (key, value) :: pairs, index =>
      let (keyBytes, next) := encodeInto header key index
      let (valueBytes, next) := encodeInto header value next
      let (rest, last) := encodePairs header pairs next
      (keyBytes ++ valueBytes ++ rest, last)

end

/-- The wire form of a frame. -/
def encode (f : Frame) : Bytes :=
  (f.encodeInto (fun _ => none) 0).1

/-- Override one length header by pre-order frame index.  Bodies and child
traversal always use actual sizes, never the advertised length. -/
def encodeWithLength (f : Frame) (target : Nat) (replacement : String) : Bytes :=
  (f.encodeInto (fun index => if index = target then some replacement else none) 0).1

/-- The length a frame's header advertises, for the kinds that have one. -/
def declaredLength : Frame → Option Int
  | .bulkString none => some (-1)
  | .array none => some (-1)
  | .bulkString (some bytes) => some bytes.length
  | .bulkError bytes => some bytes.length
  | .verbatimString bytes => some bytes.length
  | .array (some items) => some items.length
  | .set items => some items.length
  | .push items => some items.length
  | .map items => some items.length
  | .attribute items => some items.length
  | _ => none

/-- What a frame writes before its children: its line, and the body of a blob. -/
def head (replacement : Option String) : Frame → Bytes
  | .simpleString value => pushLine '+' (asBytes value)
  | .simpleError value => pushLine '-' (asBytes value)
  | .integer value => pushLine ':' (asBytes (toString value.toInt))
  | .bulkString (some bytes) => pushBlob '$' bytes replacement
  | .bulkString none => pushLine '$' (asBytes (replacement.getD "-1"))
  | .array (some items) => pushLine '*' (asBytes (replacement.getD (toString items.length)))
  | .array none => pushLine '*' (asBytes (replacement.getD "-1"))
  | .null => byteOf '_' :: crlf
  | .boolean value => byteOf '#' :: byteOf (if value then 't' else 'f') :: crlf
  | .double value => pushLine ',' (asBytes value)
  | .bigNumber value => pushLine '(' (asBytes value)
  | .bulkError bytes => pushBlob '!' bytes replacement
  | .verbatimString bytes => pushBlob '=' bytes replacement
  | .map items => pushLine '%' (asBytes (replacement.getD (toString items.length)))
  | .set items => pushLine '~' (asBytes (replacement.getD (toString items.length)))
  | .push items => pushLine '>' (asBytes (replacement.getD (toString items.length)))
  | .attribute items => pushLine '|' (asBytes (replacement.getD (toString items.length)))
  | .inline parts => joinParts parts ++ crlf

/-- Pairs are written exactly as the flat list of their members. -/
theorem encodePairs_eq (header : Nat → Option String) (pairs : List (Frame × Frame)) (index : Nat) :
    encodePairs header pairs index =
      encodeItems header (pairs.flatMap fun pair => [pair.1, pair.2]) index := by
  induction pairs generalizing index with
  | nil => rfl
  | cons pair pairs ih =>
      simp [encodePairs, encodeItems, ih]

/-- A frame writes its head, then its children from the next index on. -/
theorem encodeInto_eq (header : Nat → Option String) (f : Frame) (index : Nat) :
    f.encodeInto header index =
      (f.head (header index) ++ (encodeItems header f.children (index + 1)).1,
        (encodeItems header f.children (index + 1)).2) := by
  cases f with
  | bulkString bytes => cases bytes <;> simp [encodeInto, head, children, encodeItems]
  | array items => cases items <;> simp [encodeInto, head, children, encodeItems]
  | _ => simp [encodeInto, head, children, encodeItems, encodePairs_eq]

@[simp] theorem encodeItems_nil (header : Nat → Option String) (index : Nat) :
    encodeItems header [] index = ([], index) :=
  rfl

@[simp] theorem encodeItems_cons (header : Nat → Option String) (f : Frame) (fs : List Frame)
    (index : Nat) :
    encodeItems header (f :: fs) index =
      ((f.encodeInto header index).1 ++ (encodeItems header fs (f.encodeInto header index).2).1,
        (encodeItems header fs (f.encodeInto header index).2).2) :=
  rfl

/-- A list of frames moves the index past all of them, if each frame does. -/
theorem encodeItems_snd_of {header : Nat → Option String} {fs : List Frame}
    (h : ∀ f ∈ fs, ∀ index, (f.encodeInto header index).2 = index + f.size) (index : Nat) :
    (encodeItems header fs index).2 = index + (fs.map size).sum := by
  induction fs generalizing index with
  | nil => simp
  | cons f fs ih =>
      simp only [encodeItems_cons]
      rw [ih (fun g hg => h g (List.mem_cons_of_mem _ hg)), h f List.mem_cons_self]
      simp [Nat.add_assoc]

/-- The callback is asked exactly once per frame. -/
@[simp] theorem encodeInto_snd (header : Nat → Option String) (f : Frame) :
    ∀ index, (f.encodeInto header index).2 = index + f.size := by
  induction f using childInduction with
  | step f ih =>
      intro index
      rw [encodeInto_eq, size_eq]
      simp only
      rw [encodeItems_snd_of ih]
      omega

/-- Without overrides the bytes do not depend on the starting index. -/
theorem encodeInto_none (f : Frame) :
    ∀ index, (f.encodeInto (fun _ => none) index).1 = f.encode := by
  have hitems : ∀ fs : List Frame,
      (∀ f ∈ fs, ∀ index, (f.encodeInto (fun _ => none) index).1 = f.encode) →
      ∀ index, (encodeItems (fun _ => none) fs index).1 = fs.flatMap encode := by
    intro fs
    induction fs with
    | nil => intro _ index; rfl
    | cons f fs ih =>
        intro h index
        simp only [encodeItems_cons, List.flatMap_cons]
        rw [h f List.mem_cons_self, ih fun g hg => h g (List.mem_cons_of_mem _ hg)]
  induction f using childInduction with
  | step f ih =>
      intro index
      rw [encode, encodeInto_eq, encodeInto_eq _ _ 0]
      simp only
      rw [hitems _ ih, hitems _ ih]

@[simp] theorem encodeItems_none (fs : List Frame) (index : Nat) :
    (encodeItems (fun _ => none) fs index).1 = fs.flatMap encode := by
  induction fs generalizing index with
  | nil => rfl
  | cons f fs ih =>
      simp only [encodeItems_cons, List.flatMap_cons]
      rw [encodeInto_none, ih]

/-- An encoding is the frame's own head followed by its children. -/
theorem encode_eq (f : Frame) : f.encode = f.head none ++ f.children.flatMap encode := by
  rw [encode, encodeInto_eq]
  simp

/-! ## Commands -/

/-- The text of a command argument. -/
def argument : Frame → Option String
  | .bulkString (some bytes) => some (fromUtf8Lossy bytes)
  | .simpleString value => some value
  | .verbatimString bytes => some (fromUtf8Lossy bytes)
  | _ => none

/-- The arguments of a command.  One item that is no text empties the whole list:
argument positions never shift. -/
def argvLossy : Frame → List String
  | .array (some items) => (items.mapM argument).getD []
  | .inline parts => parts.map fromUtf8Lossy
  | _ => []

/-- The name of a command in upper case. -/
def commandName (f : Frame) : Option String :=
  f.argvLossy.head?.map toAsciiUppercase

end Frame

end Resp
end EvilResp
