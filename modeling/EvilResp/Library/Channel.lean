import Mathlib.Data.List.Basic
import Mathlib.Tactic

/-!
# Broadcast channels

A broadcast channel hands every value that is sent to each of its receivers, in order.  A receiver
that falls behind what the channel keeps is told how many values it missed, and goes on with the
oldest value that is left.  The channel is given by its operations; what is documented of them is
stated on the list of all values that were sent and on the place of a receiver in it.

Main results:

- Theorem {lit}`Channel.Documented.follows_recv`: what a receiver was told accounts for every value
  since it subscribed, in order, each once.
- Theorem {lit}`Channel.Documented.recv_eq_lagged_iff`: values are missed exactly when more of them
  are outstanding than the channel keeps.
-/

namespace Library

/-- What a receiver is told. -/
inductive Received (α : Type*) where
  | value (a : α)
  | lagged (skipped : Nat)
deriving DecidableEq

/-- The operations of a channel for one kind of values. -/
structure Channel (α : Type) where
  Sender : Type
  Receiver : Type
  /-- A new channel of some capacity. -/
  channel : Nat → Sender
  receiverCount : Sender → Nat
  send : Sender → α → Sender
  subscribe : Sender → Sender × Receiver
  /-- The next thing a receiver is told; {lit}`none` is a wait. -/
  recv : Sender → Receiver → Option (Received α × Receiver)
  /-- A receiver leaves. -/
  drop : Sender → Receiver → Sender

namespace Channel

variable {α : Type}

/-- What is documented of a channel, given the values that were sent while it had receivers, its
capacity, and the number of values that are behind a receiver. -/
structure Documented (channel : Channel α) (Sent : channel.Sender → List α → Prop)
    (capacity : channel.Sender → Nat) (cursor : channel.Receiver → Nat) : Prop where
  /-- A capacity that is a power of two is not rounded. -/
  new : ∀ k, Sent (channel.channel (2 ^ k)) [] ∧ capacity (channel.channel (2 ^ k)) = 2 ^ k ∧
    channel.receiverCount (channel.channel (2 ^ k)) = 0
  /-- A value is sent if there is a receiver. -/
  send : ∀ s log a, Sent s log → channel.receiverCount s ≠ 0 →
    Sent (channel.send s a) (log ++ [a]) ∧ capacity (channel.send s a) = capacity s ∧
      channel.receiverCount (channel.send s a) = channel.receiverCount s
  /-- A receiver gets the values that are sent after it subscribed. -/
  subscribe : ∀ s log, Sent s log →
    Sent (channel.subscribe s).1 log ∧ capacity (channel.subscribe s).1 = capacity s ∧
      channel.receiverCount (channel.subscribe s).1 = channel.receiverCount s + 1 ∧
      cursor (channel.subscribe s).2 = log.length
  /-- A receiver that leaves is not counted any more. -/
  drop : ∀ s log r, Sent s log →
    Sent (channel.drop s r) log ∧ capacity (channel.drop s r) = capacity s ∧
      channel.receiverCount (channel.drop s r) = channel.receiverCount s - 1
  /-- The next value is the one behind those that the receiver passed. -/
  value : ∀ s log r a, Sent s log → log.length ≤ cursor r + capacity s → log[cursor r]? = some a →
    ∃ r', channel.recv s r = some (.value a, r') ∧ cursor r' = cursor r + 1
  /-- A receiver that fell behind goes on with the oldest value that is kept. -/
  lagged : ∀ s log r, Sent s log → cursor r + capacity s < log.length →
    ∃ r', channel.recv s r = some (.lagged (log.length - capacity s - cursor r), r') ∧
      cursor r' = log.length - capacity s
  /-- A receiver that passed all values waits. -/
  wait : ∀ s log r, Sent s log → cursor r = log.length → channel.recv s r = none

/-! ## What a receiver was told -/

/-- What a receiver was told accounts for a list of values, in order. -/
inductive Explains : List (Received α) → List α → Prop where
  | nil : Explains [] []
  | value {told : List (Received α)} {seen : List α} (a : α) :
      Explains told seen → Explains (told ++ [.value a]) (seen ++ [a])
  | lagged {told : List (Received α)} {seen : List α} (skipped : List α) :
      Explains told seen → Explains (told ++ [.lagged skipped.length]) (seen ++ skipped)

/-- The values a receiver got. -/
def values (told : List (Received α)) : List α :=
  told.filterMap fun
    | .value a => some a
    | .lagged _ => none

@[simp] theorem values_append (told more : List (Received α)) :
    values (told ++ more) = values told ++ values more :=
  List.filterMap_append

/-- A receiver that subscribed at one position has been told of everything up to another. -/
structure Follows (log : List α) (start position : Nat) (told : List (Received α)) : Prop where
  started : start ≤ position
  bounded : position ≤ log.length
  explains : Explains told ((log.drop start).take (position - start))

/-- A new receiver starts at the end. -/
theorem follows_subscribe (log : List α) : Follows log log.length log.length [] where
  started := le_rfl
  bounded := le_rfl
  explains := by
    rw [Nat.sub_self, List.take_zero]
    exact .nil

/-- Later values change nothing for a receiver that did not ask for them. -/
theorem Follows.append {log : List α} {start position : Nat} {told : List (Received α)}
    (h : Follows log start position told) (later : List α) :
    Follows (log ++ later) start position told where
  started := h.started
  bounded := by
    rw [List.length_append]
    exact Nat.le_add_right_of_le h.bounded
  explains := by
    have hbounded := h.bounded
    have hstarted := h.started
    rw [List.drop_append_of_le_length (by omega), List.take_append_of_le_length (by simp; omega)]
    exact h.explains

/-- The receiver goes on with the value at its position. -/
theorem Follows.value {log : List α} {start position : Nat} {told : List (Received α)} {a : α}
    (h : Follows log start position told) (ha : log[position]? = some a) :
    Follows log start (position + 1) (told ++ [.value a]) where
  started := h.started.trans (Nat.le_succ position)
  bounded := (List.getElem?_eq_some_iff.mp ha).1
  explains := by
    have hstarted := h.started
    have hsplit : (log.drop start).take (position + 1 - start) =
        (log.drop start).take (position - start) ++ [a] := by
      rw [show position + 1 - start = position - start + 1 by omega, List.take_add_one,
        List.getElem?_drop, show start + (position - start) = position by omega, ha]
      rfl
    rw [hsplit]
    exact .value a h.explains

/-- The receiver is told how many values it passes over. -/
theorem Follows.lagged {log : List α} {start position next : Nat} {told : List (Received α)}
    (h : Follows log start position told) (hnext : position ≤ next) (hbound : next ≤ log.length) :
    Follows log start next (told ++ [.lagged (next - position)]) where
  started := h.started.trans hnext
  bounded := hbound
  explains := by
    have hstarted := h.started
    let skipped := ((log.drop start).drop (position - start)).take (next - position)
    have hcount : skipped.length = next - position := by
      simp only [skipped, List.length_take, List.length_drop]
      omega
    have hsplit : (log.drop start).take (next - start) =
        (log.drop start).take (position - start) ++ skipped := by
      rw [← List.take_add]
      congr 1
      omega
    rw [hsplit, ← hcount]
    exact .lagged skipped h.explains

/-- What is still to come for a receiver. -/
theorem Follows.split {log : List α} {start position : Nat} {told : List (Received α)}
    (h : Follows log start position told) :
    log.drop start = (log.drop start).take (position - start) ++ log.drop position := by
  have hdrop : log.drop position = (log.drop start).drop (position - start) := by
    rw [List.drop_drop, Nat.add_sub_of_le h.started]
  rw [hdrop, List.take_append_drop]

/-! ## Receiving -/

namespace Documented

variable {channel : Channel α} {Sent : channel.Sender → List α → Prop}
  {capacity : channel.Sender → Nat} {cursor : channel.Receiver → Nat} {s : channel.Sender}
  {r next : channel.Receiver} {log : List α}

/-- What a receiver was told accounts for every value since it subscribed. -/
theorem follows_recv (h : channel.Documented Sent capacity cursor) (hsent : Sent s log)
    {start : Nat} {told : List (Received α)} {item : Received α}
    (hfollows : Follows log start (cursor r) told)
    (hrecv : channel.recv s r = some (item, next)) :
    Follows log start (cursor next) (told ++ [item]) := by
  rcases Nat.lt_or_ge (cursor r + capacity s) log.length with hlag | hkept
  · rcases h.lagged s log r hsent hlag with ⟨r', htold, hcursor⟩
    cases hrecv.symm.trans htold
    rw [hcursor]
    exact hfollows.lagged (by omega) (by omega)
  · rcases Nat.lt_or_ge (cursor r) log.length with hvalue | hend
    · rcases h.value s log r log[cursor r] hsent hkept (List.getElem?_eq_getElem hvalue) with
        ⟨r', htold, hcursor⟩
      cases hrecv.symm.trans htold
      rw [hcursor]
      exact hfollows.value (List.getElem?_eq_getElem hvalue)
    · have hwait := h.wait s log r hsent (Nat.le_antisymm hfollows.bounded hend)
      rw [hwait] at hrecv
      cases hrecv

/-- Values are missed exactly when more of them are outstanding than the channel keeps. -/
theorem recv_eq_lagged_iff (h : channel.Documented Sent capacity cursor) (hsent : Sent s log)
    (hbound : cursor r ≤ log.length) :
    (∃ skipped next, channel.recv s r = some (.lagged skipped, next)) ↔
      capacity s < (log.drop (cursor r)).length := by
  rw [List.length_drop]
  constructor
  · rintro ⟨skipped, next, hrecv⟩
    by_contra hkept
    rcases Nat.lt_or_ge (cursor r) log.length with hvalue | hend
    · rcases h.value s log r log[cursor r] hsent (by omega) (List.getElem?_eq_getElem hvalue) with
        ⟨r', htold, -⟩
      cases hrecv.symm.trans htold
    · rw [h.wait s log r hsent (Nat.le_antisymm hbound hend)] at hrecv
      cases hrecv
  · intro hlag
    rcases h.lagged s log r hsent (by omega) with ⟨r', htold, -⟩
    exact ⟨_, r', htold⟩

/-- A receiver waits exactly when it was told of everything. -/
theorem recv_eq_none_iff (h : channel.Documented Sent capacity cursor) (hsent : Sent s log)
    (hbound : cursor r ≤ log.length) : channel.recv s r = none ↔ log.drop (cursor r) = [] := by
  rw [List.drop_eq_nil_iff]
  constructor
  · intro hrecv
    by_contra hmore
    rcases Nat.lt_or_ge (cursor r + capacity s) log.length with hlag | hkept
    · rcases h.lagged s log r hsent hlag with ⟨r', htold, -⟩
      cases hrecv.symm.trans htold
    · have hvalue : cursor r < log.length := by omega
      rcases h.value s log r log[cursor r] hsent hkept (List.getElem?_eq_getElem hvalue) with
        ⟨r', htold, -⟩
      cases hrecv.symm.trans htold
  · intro hend
    exact h.wait s log r hsent (Nat.le_antisymm hbound hend)

end Documented

end Channel

end Library
