import EvilResp.Library.Channel

/-!
# A channel with its listeners

The receivers of a channel belong to numbered listeners, some of which listen at a time.

Main results:

- Theorem {lit}`Channel.Attended.settle`, theorem {lit}`Channel.Attended.send` and theorem
  {lit}`Channel.Attended.hear`: the channel counts those who listen.
- Theorem {lit}`Channel.Listens.send`, theorem {lit}`Channel.Listens.settle` and theorem
  {lit}`Channel.Listens.hear`: what one of them was told accounts for what was sent meanwhile.
-/

namespace Library

/-- Replacing one element that is counted as another. -/
theorem countP_set_add {α : Type*} {l : List α} {i : Nat} {a b : α} (p : α → Bool)
    (h : l[i]? = some a) :
    (l.set i b).countP p + (if p a then 1 else 0) = l.countP p + (if p b then 1 else 0) := by
  obtain ⟨hi, rfl⟩ := List.getElem?_eq_some_iff.mp h
  rw [List.countP_set hi]
  by_cases hp : p l[i] = true
  · have hpos : 0 < l.countP p := List.countP_pos_iff.mpr ⟨l[i], List.getElem_mem hi, hp⟩
    simp only [hp, if_true]
    omega
  · simp only [if_neg hp]
    omega

namespace Channel

variable {α : Type}

/-- A channel with the receivers of those who listen. -/
structure Audience (channel : Channel α) where
  sender : channel.Sender
  receivers : List (Option channel.Receiver) := []

namespace Audience

variable {channel : Channel α}

/-- The receiver of one listener. -/
def receiver (audience : Audience channel) (i : Nat) : Option channel.Receiver :=
  audience.receivers[i]?.join

/-- One more listener, who does not listen yet. -/
def join (audience : Audience channel) : Audience channel :=
  { audience with receivers := audience.receivers ++ [none] }

/-- Send a value, if there is one. -/
def send (audience : Audience channel) : Option α → Audience channel
  | some a => { audience with sender := channel.send audience.sender a }
  | none => audience

/-- A listener subscribes or leaves, if that is not so already. -/
def settle (audience : Audience channel) (i : Nat) (listens : Bool) : Audience channel :=
  match audience.receiver i, listens with
  | none, true =>
      let (sender, receiver) := channel.subscribe audience.sender
      { sender, receivers := audience.receivers.set i (some receiver) }
  | some receiver, false =>
      { sender := channel.drop audience.sender receiver
        receivers := audience.receivers.set i none }
  | _, _ => audience

/-- A listener is told the next thing. -/
def hear (audience : Audience channel) (i : Nat) : Option (Received α × Audience channel) := do
  let receiver ← audience.receiver i
  let (told, receiver) ← channel.recv audience.sender receiver
  some (told, { audience with receivers := audience.receivers.set i (some receiver) })

/-! ## Receivers -/

variable {audience next : Audience channel} {i j : Nat}

/-- A listener with a receiver is one of those there are. -/
theorem lt_of_receiver {r : channel.Receiver} (h : audience.receiver i = some r) :
    i < audience.receivers.length := by
  by_contra hout
  rw [receiver, List.getElem?_eq_none (by omega)] at h
  cases h

theorem receiver_set {receivers : List (Option channel.Receiver)} {r : Option channel.Receiver}
    (h : i < receivers.length) :
    (receivers.set i r)[j]?.join = if i = j then r else receivers[j]?.join := by
  rw [List.getElem?_set]
  by_cases hsame : i = j
  · rw [if_pos hsame, if_pos h, if_pos hsame]
    rfl
  · rw [if_neg hsame, if_neg hsame]

@[simp] theorem receiver_join : audience.join.receiver i = audience.receiver i := by
  unfold receiver join
  rcases Nat.lt_or_ge i audience.receivers.length with hold | hnew
  · rw [List.getElem?_append_left hold]
  · rw [List.getElem?_append_right hnew, List.getElem?_eq_none hnew, List.getElem?_singleton]
    split_ifs <;> rfl

@[simp] theorem length_join : audience.join.receivers.length = audience.receivers.length + 1 := by
  rw [join, List.length_append, List.length_singleton]

@[simp] theorem receivers_send (value : Option α) :
    (audience.send value).receivers = audience.receivers := by
  cases value <;> rfl

@[simp] theorem receiver_send (value : Option α) :
    (audience.send value).receiver i = audience.receiver i := by
  rw [receiver, receivers_send, receiver]

@[simp] theorem length_settle (listens : Bool) :
    (audience.settle i listens).receivers.length = audience.receivers.length := by
  unfold settle
  split
  · exact List.length_set
  · exact List.length_set
  · rfl

/-- Whoever settles listens from then on, or does not. -/
theorem isSome_receiver_settle (hi : i < audience.receivers.length) (listens : Bool) :
    ((audience.settle i listens).receiver i).isSome = listens := by
  cases hreceiver : audience.receiver i with
  | none =>
      cases listens with
      | true =>
          simp only [settle, hreceiver]
          rw [receiver, receiver_set hi, if_pos rfl]
          rfl
      | false => simp [settle, hreceiver]
  | some r =>
      cases listens with
      | true => simp [settle, hreceiver]
      | false =>
          simp only [settle, hreceiver]
          rw [receiver, receiver_set hi, if_pos rfl]
          rfl

/-- Whoever goes on listening keeps the receiver. -/
theorem receiver_settle_true {r : channel.Receiver} (h : audience.receiver i = some r) :
    audience.settle i true = audience := by
  unfold settle
  rw [h]

theorem receiver_settle_ne (hne : i ≠ j) (listens : Bool) :
    (audience.settle i listens).receiver j = audience.receiver j := by
  unfold settle
  split
  · exact congrArg Option.join (List.getElem?_set_ne hne)
  · exact congrArg Option.join (List.getElem?_set_ne hne)
  · rfl

/-- A listener is told what its receiver is told. -/
theorem hear_eq {r : channel.Receiver} (h : audience.receiver i = some r) :
    audience.hear i = (channel.recv audience.sender r).map fun told =>
      (told.1, { audience with receivers := audience.receivers.set i (some told.2) }) := by
  rw [hear, h]
  cases hrecv : channel.recv audience.sender r with
  | none => simp [hrecv]
  | some told => simp [hrecv]

/-- What a listener is told, and the receiver it goes on with. -/
theorem hear_cases {told : Received α} (h : audience.hear i = some (told, next)) :
    ∃ r r', audience.receiver i = some r ∧ channel.recv audience.sender r = some (told, r') ∧
      next = { audience with receivers := audience.receivers.set i (some r') } := by
  simp only [hear, Option.bind_eq_bind] at h
  rcases Option.bind_eq_some_iff.mp h with ⟨r, hr, h⟩
  rcases Option.bind_eq_some_iff.mp h with ⟨⟨told', r'⟩, hrecv, h⟩
  cases h
  exact ⟨r, r', hr, hrecv, rfl⟩

theorem length_hear {told : Received α} (h : audience.hear i = some (told, next)) :
    next.receivers.length = audience.receivers.length := by
  rcases hear_cases h with ⟨r, r', -, -, rfl⟩
  exact List.length_set

/-- Hearing changes nobody's listening. -/
theorem isSome_receiver_hear {told : Received α} (h : audience.hear i = some (told, next)) :
    (next.receiver j).isSome = (audience.receiver j).isSome := by
  rcases hear_cases h with ⟨r, r', hr, -, rfl⟩
  rw [receiver, receiver_set (lt_of_receiver hr)]
  by_cases hsame : i = j
  · rw [if_pos hsame, ← hsame, hr]
    rfl
  · rw [if_neg hsame]
    rfl

/-- Somebody listens as long as a listener has a receiver. -/
theorem countP_ne_zero {r : channel.Receiver} (h : audience.receiver i = some r) :
    audience.receivers.countP Option.isSome ≠ 0 := by
  apply Nat.ne_of_gt
  apply List.countP_pos_iff.mpr
  exact ⟨some r, List.mem_of_getElem? (Option.join_eq_some_iff.mp h), rfl⟩

end Audience

/-! ## Channels that are listened to -/

/-- The values that were sent are known, and the channel counts those who listen. -/
structure Attended {channel : Channel α} (Sent : channel.Sender → List α → Prop)
    (audience : Audience channel) (log : List α) : Prop where
  sent : Sent audience.sender log
  counted : channel.receiverCount audience.sender = audience.receivers.countP Option.isSome

/-- What a listener was told accounts for what was sent since it subscribed. -/
def Listens {channel : Channel α} (cursor : channel.Receiver → Nat) (audience : Audience channel)
    (log : List α) (i start : Nat) (told : List (Received α)) : Prop :=
  ∃ r, audience.receiver i = some r ∧ Follows log start (cursor r) told

variable {channel : Channel α} {Sent : channel.Sender → List α → Prop}
  {capacity : channel.Sender → Nat} {cursor : channel.Receiver → Nat}
  {audience next : Audience channel} {log : List α} {i j : Nat}

theorem Attended.join (h : Attended Sent audience log) : Attended Sent audience.join log where
  sent := h.sent
  counted := by
    rw [Audience.join, List.countP_append]
    exact h.counted

/-- A value is sent if somebody listens. -/
theorem Attended.send (hchannel : channel.Documented Sent capacity cursor)
    (h : Attended Sent audience log) {value : Option α}
    (hlisten : value.isSome = true → channel.receiverCount audience.sender ≠ 0) :
    Attended Sent (audience.send value) (log ++ value.toList) ∧
      capacity (audience.send value).sender = capacity audience.sender := by
  cases value with
  | none =>
      rw [Option.toList_none, List.append_nil]
      exact ⟨h, rfl⟩
  | some a =>
      rcases hchannel.send audience.sender log a h.sent (hlisten rfl) with
        ⟨hsent, hcapacity, hcount⟩
      exact ⟨⟨hsent, hcount.trans h.counted⟩, hcapacity⟩

/-- Subscribing and leaving are counted. -/
theorem Attended.settle (hchannel : channel.Documented Sent capacity cursor)
    (h : Attended Sent audience log) (hi : i < audience.receivers.length) (listens : Bool) :
    Attended Sent (audience.settle i listens) log ∧
      capacity (audience.settle i listens).sender = capacity audience.sender := by
  have hitem : audience.receivers[i]? = some audience.receivers[i] := List.getElem?_eq_getElem hi
  have hreceiver : audience.receiver i = audience.receivers[i] := by
    rw [Audience.receiver, hitem]
    rfl
  unfold Audience.settle
  split
  · rename_i hnone
    rcases hchannel.subscribe audience.sender log h.sent with ⟨hsent, hcapacity, hcount, -⟩
    refine ⟨⟨hsent, ?_⟩, hcapacity⟩
    have hset := countP_set_add (b := some (channel.subscribe audience.sender).2)
      Option.isSome hitem
    rw [← hreceiver, hnone] at hset
    rw [hcount, h.counted]
    exact hset.symm
  · rename_i r hsome
    rcases hchannel.drop audience.sender log r h.sent with ⟨hsent, hcapacity, hcount⟩
    refine ⟨⟨hsent, ?_⟩, hcapacity⟩
    have hset := countP_set_add (b := (none : Option channel.Receiver)) Option.isSome hitem
    rw [← hreceiver, hsome] at hset
    rw [hcount, h.counted, Nat.sub_eq_of_eq_add]
    exact hset.symm
  · exact ⟨h, rfl⟩

/-- Being told something changes nothing about the channel. -/
theorem Attended.hear {told : Received α} (h : Attended Sent audience log)
    (hear : audience.hear i = some (told, next)) :
    Attended Sent next log ∧ next.sender = audience.sender := by
  rcases Audience.hear_cases hear with ⟨r, r', hr, -, rfl⟩
  refine ⟨⟨h.sent, ?_⟩, rfl⟩
  have hset := countP_set_add (b := some r') Option.isSome (Option.join_eq_some_iff.mp hr)
  rw [h.counted]
  exact (Nat.add_right_cancel hset).symm

/-! ## What the listeners were told -/

/-- A new listener starts at the end. -/
theorem Listens.subscribe (hchannel : channel.Documented Sent capacity cursor)
    (h : Attended Sent audience log) (hi : i < audience.receivers.length)
    (hnone : audience.receiver i = none) :
    Listens cursor (audience.settle i true) log i log.length [] := by
  rcases hchannel.subscribe audience.sender log h.sent with ⟨-, -, -, hcursor⟩
  unfold Listens Audience.settle
  rw [hnone]
  refine ⟨(channel.subscribe audience.sender).2, ?_, ?_⟩
  · rw [Audience.receiver, Audience.receiver_set hi, if_pos rfl]
  · rw [hcursor]
    exact follows_subscribe log

theorem Listens.join {start : Nat} {told : List (Received α)}
    (h : Listens cursor audience log i start told) :
    Listens cursor audience.join log i start told := by
  rcases h with ⟨r, hr, hfollows⟩
  exact ⟨r, by rw [Audience.receiver_join, hr], hfollows⟩

/-- What is sent is still to come. -/
theorem Listens.send {start : Nat} {told : List (Received α)} (value : Option α)
    (h : Listens cursor audience log i start told) :
    Listens cursor (audience.send value) (log ++ value.toList) i start told := by
  rcases h with ⟨r, hr, hfollows⟩
  exact ⟨r, by rw [Audience.receiver_send, hr], hfollows.append _⟩

/-- Others may subscribe and leave. -/
theorem Listens.settle {start : Nat} {told : List (Received α)} {listens : Bool}
    (h : Listens cursor audience log j start told) (hstay : i = j → listens = true) :
    Listens cursor (audience.settle i listens) log j start told := by
  rcases h with ⟨r, hr, hfollows⟩
  by_cases hsame : i = j
  · rw [hstay hsame, Audience.receiver_settle_true (hsame ▸ hr)]
    exact ⟨r, hr, hfollows⟩
  · exact ⟨r, by rw [Audience.receiver_settle_ne hsame, hr], hfollows⟩

/-- What a listener is told is added to what it was told. -/
theorem Listens.hear (hchannel : channel.Documented Sent capacity cursor)
    (hattended : Attended Sent audience log) {start : Nat} {told : List (Received α)}
    {item : Received α} (h : Listens cursor audience log j start told)
    (hear : audience.hear i = some (item, next)) :
    Listens cursor next log j start (if i = j then told ++ [item] else told) := by
  rcases h with ⟨r, hr, hfollows⟩
  rcases Audience.hear_cases hear with ⟨r₀, r', hr₀, hrecv, rfl⟩
  unfold Listens
  rw [Audience.receiver, Audience.receiver_set (Audience.lt_of_receiver hr₀)]
  by_cases hsame : i = j
  · subst hsame
    rw [hr] at hr₀
    cases hr₀
    rw [if_pos rfl, if_pos rfl]
    exact ⟨r', rfl, hchannel.follows_recv hattended.sent hfollows hrecv⟩
  · rw [if_neg hsame, if_neg hsame]
    exact ⟨r, hr, hfollows⟩

/-- What a listener still has to be told, and when it is told that it missed some. -/
theorem Listens.rest (hchannel : channel.Documented Sent capacity cursor)
    (hattended : Attended Sent audience log) {start : Nat} {told : List (Received α)}
    (h : Listens cursor audience log i start told) :
    ∃ seen rest, log.drop start = seen ++ rest ∧ Explains told seen ∧
      ((∃ skipped next, audience.hear i = some (.lagged skipped, next)) ↔
        capacity audience.sender < rest.length) ∧
      (audience.hear i = none ↔ rest = []) := by
  rcases h with ⟨r, hr, hfollows⟩
  refine ⟨_, _, hfollows.split, hfollows.explains, ?_, ?_⟩
  · rw [← hchannel.recv_eq_lagged_iff hattended.sent hfollows.bounded, Audience.hear_eq hr]
    simp [Prod.exists]
  · rw [← hchannel.recv_eq_none_iff hattended.sent hfollows.bounded, Audience.hear_eq hr,
      Option.map_eq_none_iff]

end Channel

end Library
