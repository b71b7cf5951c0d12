import EvilResp.Mutation.Exec
import EvilResp.Resp.Reparse

/-!
# Replaying EXEC edits

An edit is recorded with the indexes of the items it touched.  The record is enough to
make the edit again, and the reply is the encoding of what it makes, with other bytes than
the original.

Main results:

- Theorem {lit}`all_editAt_replayed`: an edit is recorded as it was made.
- Theorem {lit}`ExecConfig.exec_replays`: no edit draws from an empty range, and the reply
  of an edit is what its record makes of the original items.
-/

namespace EvilResp

open Library
open EvilResp.Resp

/-! ## Records -/

/-- Apply a recorded edit to the items of an array: leave out an item, write it twice, or
exchange it with one that is not equal to it. -/
def ExecMutation.replay (record : ExecMutation) (items : List Frame) :
    MutationKind → Option (List Frame)
  | .execRemove =>
      if record.index < items.length then
        some (items.take record.index ++ items.drop (record.index + 1))
      else none
  | .execDuplicate => do
      let item ← items[record.index]?
      return items.take (record.index + 1) ++ item :: items.drop (record.index + 1)
  | .execSwap => do
      let other ← record.otherIndex
      let first ← items[record.index]?
      let second ← items[other]?
      if first = second then none
      else
        return items.mapIdx fun k item =>
          if k = record.index then second else if k = other then first else item
  | _ => none

/-- A replayed edit changes the items and adds no others. -/
theorem replay_spec {record : ExecMutation} {items result : List Frame} {kind : MutationKind}
    (h : record.replay items kind = some result) : result ≠ items ∧ result ⊆ items := by
  cases kind with
  | execRemove =>
      rw [ExecMutation.replay, Option.ite_none_right_eq_some, Option.some.injEq] at h
      rcases h with ⟨hindex, rfl⟩
      constructor
      · intro heq
        have hlength := congrArg List.length heq
        rw [List.length_append, List.length_take, List.length_drop] at hlength
        omega
      · intro f hf
        rcases List.mem_append.mp hf with hf | hf
        · exact List.mem_of_mem_take hf
        · exact List.mem_of_mem_drop hf
  | execDuplicate =>
      rcases Option.bind_eq_some_iff.mp h with ⟨item, hitem, hresult⟩
      obtain rfl := Option.some.inj hresult
      constructor
      · intro heq
        have hlength := congrArg List.length heq
        rw [List.length_append, List.length_take, List.length_cons, List.length_drop] at hlength
        omega
      · intro f hf
        rcases List.mem_append.mp hf with hf | hf
        · exact List.mem_of_mem_take hf
        · rcases List.mem_cons.mp hf with rfl | hf
          · exact List.mem_of_getElem? hitem
          · exact List.mem_of_mem_drop hf
  | execSwap =>
      rcases Option.bind_eq_some_iff.mp h with ⟨other, -, h⟩
      rcases Option.bind_eq_some_iff.mp h with ⟨first, hfirst, h⟩
      rcases Option.bind_eq_some_iff.mp h with ⟨second, hsecond, h⟩
      rw [Option.ite_none_left_eq_some] at h
      rcases h with ⟨hne, hresult⟩
      obtain rfl := Option.some.inj hresult
      constructor
      · intro heq
        have hitem := congrArg (·[record.index]?) heq
        simp only [List.getElem?_mapIdx, hfirst, Option.map_some, if_true] at hitem
        exact hne (Option.some.inj hitem).symm
      · intro f hf
        rcases List.mem_mapIdx.mp hf with ⟨k, hk, rfl⟩
        split_ifs
        · exact List.mem_of_getElem? hsecond
        · exact List.mem_of_getElem? hfirst
        · exact List.getElem_mem hk
  | _ => cases h

namespace ExecConfig

/-- The items differ from the one they are exchanged with. -/
theorem mem_swapCandidates {items : List Frame} {item : Frame} {other : Nat}
    (h : other ∈ swapCandidates items item) : ∃ second, items[other]? = some second ∧ second ≠ item := by
  rcases List.mem_map.mp h with ⟨⟨second, k⟩, hmem, rfl⟩
  rcases List.mem_filter.mp hmem with ⟨hzip, hne⟩
  exact ⟨second, List.mem_zipIdx_iff_getElem?.mp hzip, of_decide_eq_true hne⟩

theorem insertIdx_succ {items : List Frame} {item : Frame} {index : Nat}
    (h : index < items.length) :
    items.insertIdx (index + 1) item = items.take (index + 1) ++ item :: items.drop (index + 1) := by
  obtain ⟨before, after, rfl, hlength, hinsert⟩ :=
    List.exists_of_modifyTailIdx (List.cons item) (Nat.succ_le_of_lt h)
  rw [List.take_left' hlength, List.drop_left' hlength]
  exact hinsert

theorem swap_eq_mapIdx {items : List Frame} {index other : Nat} {first second : Frame}
    (hfirst : items[index]? = some first) (hsecond : items[other]? = some second)
    (hne : first ≠ second) :
    swap items index other = items.mapIdx fun k item =>
      if k = index then second else if k = other then first else item := by
  have hindex : index ≠ other := by
    rintro rfl
    rw [hfirst] at hsecond
    exact hne (Option.some.inj hsecond)
  have hlength := (List.getElem?_eq_some_iff.mp hfirst).1
  have hother := (List.getElem?_eq_some_iff.mp hsecond).1
  rw [swap, hfirst, hsecond]
  apply List.ext_getElem?
  intro k
  rw [List.getElem?_mapIdx]
  by_cases hk : k = index
  · subst hk
    simp [hlength, Ne.symm hindex]
  · by_cases hko : k = other
    · subst hko
      simp [hother, hk]
    · rw [List.getElem?_set_ne (Ne.symm hko), List.getElem?_set_ne (Ne.symm hk)]
      cases items[k]? <;> simp [hk, hko]

/-- A reply with one edit, recorded as it was made. -/
def Replayed (items : List Frame) (reply : MutatedReply) : Prop :=
  ∃ kind record result,
    reply = { bytes := (Frame.array (some result)).encode,
              mutations := [{ path := "root", kind, exec := some record }] } ∧
      record.replay items kind = some result ∧ record.originalCount = items.length ∧
      record.replacementCount = result.length

/-- An edit is recorded as it was made. -/
theorem all_editAt_replayed {items : List Frame} {index : Nat} {item : Frame} {action : ExecAction}
    (hitem : items[index]? = some item)
    (hswap : action = .swap → canSwap items = true) :
    (editAt items item index action).All fun edited =>
      ∀ reply ∈ edited, Replayed items reply := by
  have hindex : index < items.length := (List.getElem?_eq_some_iff.mp hitem).1
  have hmade {kind : MutationKind} {result : List Frame} {other : Option Nat}
      (hreplay : ExecMutation.replay ⟨items.length, result.length, index, other⟩ items kind =
        some result) :
      ∀ reply ∈ some (editReply items result kind index other), Replayed items reply := by
    intro reply hreply
    obtain rfl := Option.some.inj hreply
    exact ⟨kind, _, result, rfl, hreplay, rfl, rfl⟩
  cases action with
  | remove =>
      apply hmade
      rw [ExecMutation.replay, if_pos hindex, List.eraseIdx_eq_take_drop_succ]
  | duplicate =>
      apply hmade
      simp only [ExecMutation.replay, hitem, Option.pure_def, Option.bind_eq_bind,
        Option.bind_some, insertIdx_succ hindex]
  | swap =>
      refine Draw.all_bind.mpr (Draw.all_pick.mpr ⟨swapCandidates_ne_nil (hswap rfl) item, ?_⟩)
      intro other hother
      rcases mem_swapCandidates hother with ⟨second, hsecond, hne⟩
      apply hmade
      simp only [ExecMutation.replay, hitem, hsecond, Option.pure_def, Option.bind_eq_bind,
        Option.bind_some, if_neg hne.symm, swap_eq_mapIdx hitem hsecond hne.symm]
  | off => simp [editAt]
  | random => simp [editAt]

/-! ## Replies -/

/-- The draws of an edit to a reply, if one is made at all. -/
def draws (config : EvilConfig) (upstream : Frame) : Draw (Option MutatedReply) :=
  match editable config upstream with
  | none => return none
  | some items => config.exec.edit items (canSwap items)

theorem mutateReply_eq_run (lib : Externals) (config : EvilConfig) (commandIndex : UInt64)
    (commandHash upstreamHash : String) (upstream : Frame) :
    mutateReply lib config commandIndex commandHash upstreamHash upstream =
      (draws config upstream).run
        (rngFor lib config.seed commandIndex ("exec:" ++ commandHash) upstreamHash) := by
  unfold mutateReply draws
  cases editable config upstream <;> rfl

theorem all_edit_replayed {config : ExecConfig} {items : List Frame} (hitems : items ≠ [])
    (hswap : config.action = .swap → canSwap items = true) :
    (config.edit items (canSwap items)).All fun edited =>
      ∀ reply ∈ edited, Replayed items reply := by
  refine Draw.all_bind.mpr (all_percent fun percent _ _ => ?_)
  split
  · simp
  refine Draw.all_bind.mpr (Draw.all_mono (all_chooseAction hswap) fun action haction => ?_)
  refine Draw.all_bind.mpr ⟨List.length_pos_iff.mpr hitems, fun index => ?_⟩
  exact all_editAt_replayed (by simp) haction

/-- Two items that differ. -/
theorem canSwap_iff {items : List Frame} :
    canSwap items = true ↔ ∃ a ∈ items, ∃ b ∈ items, a ≠ b := by
  constructor
  · intro h
    cases items with
    | nil => cases h
    | cons first rest =>
        rcases List.any_eq_true.mp h with ⟨other, hother, hne⟩
        exact ⟨other, hother, first, List.mem_cons_self, of_decide_eq_true hne⟩
  · rintro ⟨a, ha, b, hb, hne⟩
    cases items with
    | nil => cases ha
    | cons first rest =>
        rw [canSwap, List.any_eq_true]
        by_cases hfirst : a = first
        · exact ⟨b, hb, decide_eq_true fun heq => hne (hfirst.trans heq.symm)⟩
        · exact ⟨a, ha, decide_eq_true hfirst⟩

theorem eq_array_of_editable {config : EvilConfig} {f : Frame} {items : List Frame}
    (h : editable config f = some items) : f = .array (some items) := by
  cases f with
  | array old =>
      cases old with
      | none => cases h
      | some old =>
          simp only [editable] at h
          split_ifs at h
          cases h
          rfl
  | _ => cases h

/-- A replayed reply is another frame that can be parsed. -/
theorem parse_of_replayed {items result : List Frame} {record : ExecMutation}
    {kind : MutationKind} (hf : (Frame.array (some items)).Typed)
    (hdepth : (Frame.array (some items)).depth ≤ maxFrameDepth)
    (h : record.replay items kind = some result) :
    ((Frame.array (some result)).encode.length ≤ maxFrameBytes →
        parseFrame (Frame.array (some result)).encode = .ok (.array (some result))) ∧
      (Frame.array (some result)).encode ≠ (Frame.array (some items)).encode := by
  rcases replay_spec h with ⟨hne, hsubset⟩
  have hresult : (Frame.array (some result)).Typed :=
    Frame.typed_iff.mpr ⟨by simp, by simp [Frame.text], fun c hc =>
      hf.of_mem_children (hsubset hc)⟩
  constructor
  · intro hsize
    refine parseFrame_encode hresult.inlineFree hresult.crlfFree ?_ hsize
    have hmax : maxFrameDepth = (maxFrameDepth - 1) + 1 := rfl
    rw [hmax]
    refine Frame.depth_le_succ fun c hc => ?_
    have hlt := Frame.depth_lt_of_mem_children (f := .array (some items)) (hsubset hc)
    omega
  · intro heq
    have hsame := Frame.encode_inj hresult hf heq
    exact hne (Option.some.inj (Frame.array.inj hsame))

/-- No edit draws from an empty range.  There is none unless the reply is an array with
items, for a swap with two that differ.  The reply of an edit is what its record makes of
the items: it differs from the original, and up to the maximum size it is parsed as that
array. -/
theorem exec_replays (config : EvilConfig) (input : Bytes) (f : Frame)
    (hparse : parseFrame input = .ok f) (hinline : f.InlineFree) :
    (∀ lib commandIndex commandHash upstreamHash,
      mutateReply lib config commandIndex commandHash upstreamHash f =
        (draws config f).run
          (rngFor lib config.seed commandIndex ("exec:" ++ commandHash) upstreamHash)) ∧
    (draws config f).All fun edited =>
      ((∀ items, f = .array (some items) → items = [] ∨
        config.exec.action = .swap ∧ ∀ a ∈ items, ∀ b ∈ items, a = b) → edited = none) ∧
      ∀ reply, edited = some reply → ∃ items kind record result,
        f = .array (some items) ∧
        reply = { bytes := (Frame.array (some result)).encode,
                  mutations := [{ path := "root", kind, exec := some record }] } ∧
        record.replay items kind = some result ∧
        record.originalCount = items.length ∧ record.replacementCount = result.length ∧
        (reply.bytes.length ≤ maxFrameBytes →
          parseFrame reply.bytes = .ok (.array (some result))) ∧
        reply.bytes ≠ f.encode := by
  rcases Frame.Accepted.of_parseFrame hparse with ⟨haccepted, hdepth, -⟩
  have hf : f.Typed := haccepted.typed_of_inlineFree hinline
  refine ⟨fun lib index hash upstream => mutateReply_eq_run lib config index hash upstream f, ?_⟩
  unfold draws
  cases heditable : editable config f with
  | none => exact ⟨fun _ => rfl, fun reply hreply => nomatch hreply⟩
  | some items =>
      rcases editable_spec heditable with ⟨hitems, hswap⟩
      obtain rfl := eq_array_of_editable heditable
      refine Draw.all_mono (all_edit_replayed hitems hswap) fun edited hedited => ⟨?_, ?_⟩
      · intro hskip
        rcases hskip items rfl with hempty | ⟨haction, hequal⟩
        · exact absurd hempty hitems
        · rcases canSwap_iff.mp (hswap haction) with ⟨a, ha, b, hb, hne⟩
          exact absurd (hequal a ha b hb) hne
      · intro reply hreply
        rcases hedited reply hreply with ⟨kind, record, result, rfl, hreplay, hold, hnew⟩
        have hparsed := parse_of_replayed hf hdepth hreplay
        exact ⟨items, kind, record, result, rfl, rfl, hreplay, hold, hnew, hparsed.1, hparsed.2⟩

/-- An array of two booleans. -/
theorem exec_replays_pair :
    (∀ lib commandIndex commandHash upstreamHash,
      mutateReply lib { mode := .mutate, exec := { action := .swap } } commandIndex commandHash
          upstreamHash (.array (some [.boolean true, .boolean false])) =
        (draws { mode := .mutate, exec := { action := .swap } }
          (.array (some [.boolean true, .boolean false]))).run
          (rngFor lib 0 commandIndex ("exec:" ++ commandHash) upstreamHash)) ∧
    (draws { mode := .mutate, exec := { action := .swap } }
        (.array (some [.boolean true, .boolean false]))).All fun edited =>
      ((∀ items, Frame.array (some [.boolean true, .boolean false]) = .array (some items) →
        items = [] ∨ ExecAction.swap = .swap ∧ ∀ a ∈ items, ∀ b ∈ items, a = b) →
          edited = none) ∧
      ∀ reply, edited = some reply → ∃ items kind record result,
        Frame.array (some [.boolean true, .boolean false]) = .array (some items) ∧
        reply = { bytes := (Frame.array (some result)).encode,
                  mutations := [{ path := "root", kind, exec := some record }] } ∧
        record.replay items kind = some result ∧
        record.originalCount = items.length ∧ record.replacementCount = result.length ∧
        (reply.bytes.length ≤ maxFrameBytes →
          parseFrame reply.bytes = .ok (.array (some result))) ∧
        reply.bytes ≠ (Frame.array (some [.boolean true, .boolean false])).encode :=
  exec_replays { mode := .mutate, exec := { action := .swap } } (asBytes "*2\r\n#t\r\n#f\r\n")
    (.array (some [.boolean true, .boolean false])) (by decide) (by decide)

end ExecConfig
end EvilResp
