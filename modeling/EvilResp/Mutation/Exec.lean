import EvilResp.Externals
import EvilResp.Mutation.Mutate

/-!
# EXEC edits and seeded replies

Correctly framed edits to the outer EXEC result array.  A selected edit replaces the
generic mutation, so the contents of the other results survive.  Every reply is a
function of the seed, the command index and two hashes.

Main results:

- Theorem {lit}`ExecConfig.safe_edit`: no edit draws from an empty range.
- Theorem {lit}`mutateCommandReply_isSome`: a reply to a command is always produced.
-/

namespace EvilResp

open Library
open EvilResp.Resp

namespace ExecConfig

/-! ## One edit -/

/-- The edit that is made.  Swapping is an option only where it changes something. -/
def chooseAction (config : ExecConfig) (canSwap : Bool) : Draw ExecAction :=
  if config.action = .random then
    let actions : List ExecAction := [.remove, .duplicate, .swap]
    Draw.pick (actions.take (if canSwap then 3 else 2))
  else return config.action

/-- The indexes of the items that differ from an item. -/
def swapCandidates (items : List Frame) (item : Frame) : List Nat :=
  (items.zipIdx.filter fun candidate => candidate.1 ≠ item).map Prod.snd

/-- Exchange two members of a list. -/
def swap (items : List Frame) (index other : Nat) : List Frame :=
  match items[index]?, items[other]? with
  | some a, some b => (items.set index b).set other a
  | _, _ => items

/-- The edited array as a reply, with its record. -/
def editReply (items result : List Frame) (kind : MutationKind) (index : Nat)
    (otherIndex : Option Nat) : MutatedReply where
  bytes := (Frame.array (some result)).encode
  mutations := [{
    path := "root"
    kind
    exec := some {
      originalCount := items.length, replacementCount := result.length, index, otherIndex } }]

/-- Edit the item that was drawn. -/
def editAt (items : List Frame) (item : Frame) (index : Nat) :
    ExecAction → Draw (Option MutatedReply)
  | .remove => return some (editReply items (items.eraseIdx index) .execRemove index none)
  | .duplicate =>
      return some (editReply items (items.insertIdx (index + 1) item) .execDuplicate index none)
  | .swap => do
      let other ← Draw.pick (swapCandidates items item)
      return some (editReply items (swap items index other) .execSwap index (some other))
  | .off | .random => return none

/-- The draws of one edit to a non-empty array. -/
def edit (config : ExecConfig) (items : List Frame) (canSwap : Bool) :
    Draw (Option MutatedReply) := do
  let percent ← genPercent
  if config.probability.le percent then return none
  else
    let action ← config.chooseAction canSwap
    let index ← Draw.range items.length
    editAt items (items.get index) index action

/-- Comparing with one representative detects whether any unequal pair exists. -/
def canSwap (items : List Frame) : Bool :=
  match items with
  | [] => false
  | first :: _ => items.any fun item => item ≠ first

/-- Whether an edit is configured and can change the reply. -/
def editable (config : EvilConfig) : Frame → Option (List Frame)
  | .array (some items) =>
      if (config.mode ≠ .mutate ∧ config.mode ≠ .overflow) ∨ config.exec.action = .off ∨
          config.exec.probability.eq .zero then none
      else if items = [] then none
      else if config.exec.action = .swap ∧ !canSwap items then none
      else some items
  | _ => none

/-- The focused edit of an EXEC reply.  Its stream is its own, so skipped edits leave
the other draws as they are.  The outer {lit}`none` stands for a panic. -/
def mutateReply (lib : Externals) (config : EvilConfig) (commandIndex : UInt64)
    (commandHash upstreamHash : String) (upstream : Frame) : Option (Option MutatedReply) :=
  match editable config upstream with
  | none => some none
  | some items =>
      (config.exec.edit items (canSwap items)).run
        (rngFor lib config.seed commandIndex ("exec:" ++ commandHash) upstreamHash)

/-! ## Edits never draw from an empty range -/

/-- An unequal pair gives every item a partner. -/
theorem swapCandidates_ne_nil {items : List Frame} (h : canSwap items = true) (item : Frame) :
    swapCandidates items item ≠ [] := by
  cases items with
  | nil => cases h
  | cons first rest =>
      rcases List.any_eq_true.mp h with ⟨other, hother, hne⟩
      have hdiffers : ∃ c ∈ first :: rest, c ≠ item := by
        by_cases hfirst : first = item
        · subst hfirst
          exact ⟨other, hother, of_decide_eq_true hne⟩
        · exact ⟨first, List.mem_cons_self, hfirst⟩
      rcases hdiffers with ⟨c, hc, hcne⟩
      rcases List.mem_iff_getElem?.mp hc with ⟨k, hk⟩
      have hmem : (c, k) ∈ (first :: rest).zipIdx := List.mem_zipIdx_iff_getElem?.mpr hk
      apply List.ne_nil_of_mem
      exact List.mem_map_of_mem (List.mem_filter.mpr ⟨hmem, decide_eq_true hcne⟩)

/-- The action that was chosen can be carried out. -/
theorem all_chooseAction {config : ExecConfig} {canSwap : Bool}
    (hswap : config.action = .swap → canSwap = true) :
    (config.chooseAction canSwap).All fun action => action = .swap → canSwap = true := by
  unfold chooseAction
  split
  · cases canSwap with
    | true => exact Draw.all_pick.mpr ⟨by simp, fun _ _ _ => rfl⟩
    | false => exact Draw.all_pick.mpr ⟨by simp, by simp⟩
  · exact hswap

/-- No edit of a non-empty array draws from an empty range. -/
theorem safe_edit {config : ExecConfig} {items : List Frame} (hitems : items ≠ [])
    (hswap : config.action = .swap → canSwap items = true) :
    (config.edit items (canSwap items)).Safe := by
  refine Draw.safe_bind (all_percent fun _ _ _ => trivial) fun percent => ?_
  split
  · trivial
  apply Draw.all_bind.mpr
  refine Draw.all_mono (all_chooseAction hswap) fun action haction => ?_
  refine Draw.safe_bind ⟨List.length_pos_iff.mpr hitems, fun _ => trivial⟩ fun index => ?_
  cases action with
  | swap =>
      have hcandidates := swapCandidates_ne_nil (haction rfl) (items.get index)
      exact Draw.safe_bind (Draw.safe_pick hcandidates) fun _ => trivial
  | _ => trivial

theorem editable_spec {config : EvilConfig} {f : Frame} {items : List Frame}
    (h : editable config f = some items) :
    items ≠ [] ∧ (config.exec.action = .swap → canSwap items = true) := by
  cases f with
  | array old =>
      cases old with
      | none => cases h
      | some old =>
          simp only [editable] at h
          split_ifs at h with _ hempty hswap
          cases h
          refine ⟨hempty, ?_⟩
          intro haction
          by_cases hcan : canSwap items = true
          · exact hcan
          · exact absurd ⟨haction, by simpa using hcan⟩ hswap
  | _ => cases h

theorem mutateReply_isSome (lib : Externals) (config : EvilConfig) (commandIndex : UInt64)
    (commandHash upstreamHash : String) (upstream : Frame) :
    ∃ edited, mutateReply lib config commandIndex commandHash upstreamHash upstream =
      some edited := by
  unfold mutateReply
  split
  · exact ⟨none, rfl⟩
  · rename_i items hitems
    rcases editable_spec hitems with ⟨hne, hswap⟩
    rcases Draw.run_of_all (safe_edit hne hswap) _ with ⟨edited, hedited, -⟩
    exact ⟨edited, hedited⟩

end ExecConfig

/-! ## Seeded replies -/

/-- A reply that is made up, drawn from the random stream. -/
def randomReply (lib : Externals) (config : EvilConfig) (commandIndex : UInt64)
    (commandHash : String) : Option MutatedReply :=
  ((config.generator.frame lib).run (rngFor lib config.seed commandIndex commandHash "")).map
    fun frame => { bytes := frame.encode, mutations := [{ path := "root", kind := .randomFrame }] }

/-- A reply with its mutations, drawn from the reply stream. -/
def mutateReply (lib : Externals) (config : EvilConfig) (commandIndex : UInt64)
    (commandHash upstreamHash : String) (upstream : Frame) : Option MutatedReply :=
  (mutate lib config upstream).run (rngFor lib config.seed commandIndex commandHash upstreamHash)

/-- Replies to EXEC get the focused edit first. -/
def mutateCommandReply (lib : Externals) (config : EvilConfig) (commandIndex : UInt64)
    (command : Option String) (commandHash upstreamHash : String) (upstream : Frame) :
    Option MutatedReply := do
  if command.any (eqIgnoreAsciiCase · "EXEC") then
    match ← ExecConfig.mutateReply lib config commandIndex commandHash upstreamHash upstream with
    | some reply => some reply
    | none => mutateReply lib config commandIndex commandHash upstreamHash upstream
  else mutateReply lib config commandIndex commandHash upstreamHash upstream

theorem safe_mutate (lib : Externals) (config : EvilConfig) (f : Frame) :
    (mutate lib config f).Safe := by
  by_cases hmode : config.mode = .mutate ∨ config.mode = .overflow
  · have hactive : ¬ (config.mode ≠ .mutate ∧ config.mode ≠ .overflow) := fun h =>
      hmode.elim h.1 h.2
    rw [mutate, if_neg hactive]
    cases hcount : config.mutationCount with
    | one => exact Draw.all_of_forall (all_mutateSingle hmode f) fun _ => trivial
    | many => exact Draw.all_of_forall (all_mutateMany hmode f) fun _ => trivial
  · have hinactive : config.mode ≠ .mutate ∧ config.mode ≠ .overflow := not_or.mp hmode
    rw [mutate, if_pos hinactive]
    trivial

theorem mutateReply_isSome (lib : Externals) (config : EvilConfig) (commandIndex : UInt64)
    (commandHash upstreamHash : String) (upstream : Frame) :
    ∃ reply, mutateReply lib config commandIndex commandHash upstreamHash upstream =
      some reply := by
  rcases Draw.run_of_all (safe_mutate lib config upstream)
    (rngFor lib config.seed commandIndex commandHash upstreamHash) with ⟨reply, hreply, -⟩
  exact ⟨reply, hreply⟩

/-- A reply to a command is always produced. -/
theorem mutateCommandReply_isSome (lib : Externals) (config : EvilConfig) (commandIndex : UInt64)
    (command : Option String) (commandHash upstreamHash : String) (upstream : Frame) :
    ∃ reply, mutateCommandReply lib config commandIndex command commandHash upstreamHash upstream =
      some reply := by
  rcases ExecConfig.mutateReply_isSome lib config commandIndex commandHash upstreamHash upstream
    with ⟨edited, hedited⟩
  have hgeneric := mutateReply_isSome lib config commandIndex commandHash upstreamHash upstream
  unfold mutateCommandReply
  split
  · rw [hedited]
    cases edited with
    | none => exact hgeneric
    | some reply => exact ⟨reply, rfl⟩
  · exact hgeneric

end EvilResp
