import EvilResp.Config.Ranges
import EvilResp.Delivery.Calls

/-!
# Plans and their streams

A plan is drawn in two steps, each with a stream of its own: the delivery of the bytes and
a connection fault after it.  Both keep the chunk ends in step with the bytes that are sent,
so that a delivery never slices out of range.

Main results:

- Theorem {lit}`all_drawBoundaries`: the boundaries of chunks increase below the end.
- Theorem {lit}`Planned.setFault`: a fault moves the last end to where it strikes.
- Theorem {lit}`plan_matches`: every plan of settings that commands can reach matches its
  stream.
-/

namespace EvilResp

open Library

/-! ## Draws -/

namespace FaultConfig

/-- The draws of a connection fault, if one is set. -/
def draws (config : FaultConfig) (probability : F64) (responseLen : Nat) :
    Draw (Option ConnectionFaultPlan) :=
  if config.action = .off ∨ probability.eq .zero then return none
  else config.draw probability responseLen

theorem plan_eq_run (lib : Externals) (config : FaultConfig) (probability : F64)
    (seed commandIndex : UInt64) (commandHash : String) (responseLen : Nat) :
    config.plan lib probability seed commandIndex commandHash responseLen =
      (config.draws probability responseLen).run
        (rngFor lib seed commandIndex ("connection-fault:v1:" ++ commandHash) "") := by
  unfold plan draws
  split
  · rfl
  · rfl

end FaultConfig

namespace TransportConfig

/-- The draws of a delivery, without a connection fault. -/
def deliveryDraws (config : TransportConfig) (responseLen : Nat) : Draw DeliveryPlan :=
  if !config.enabled ∨ config.probability.eq .zero then return .plain responseLen
  else config.drawDelivery responseLen

/-- The draws of a plan. -/
def planDraws (config : TransportConfig) (responseLen : Nat) : Draw DeliveryPlan := do
  let plan ← config.deliveryDraws responseLen
  if config.fault.point ≠ .before then
    let len := responseLen + plan.extraReplyCount * extraReply.length
    match ← config.fault.draws config.probability len with
    | some fault => return plan.setFault fault
    | none => return plan
  else return plan

/-- The draws of a fault before the command is forwarded. -/
def beforeDraws (config : TransportConfig) : Draw (Option DeliveryPlan) :=
  if config.fault.point ≠ .before then return none
  else (·.map (DeliveryPlan.plain 0).setFault) <$> config.fault.draws config.probability 0

variable {config : TransportConfig}

theorem deliveryPlan_eq_run (lib : Externals) (seed commandIndex : UInt64)
    (commandHash replyHash : String) (responseLen : Nat) :
    config.deliveryPlan lib seed commandIndex commandHash replyHash responseLen =
      (config.deliveryDraws responseLen).run
        (rngFor lib seed commandIndex ("transport:v1:" ++ commandHash) replyHash) := by
  unfold deliveryPlan deliveryDraws
  split
  · rfl
  · rfl

/-- Whatever the two streams hold, what holds of every draw holds of the plan. -/
theorem plan_of_all {P : DeliveryPlan → Prop} {responseLen : Nat}
    (h : (config.planDraws responseLen).All P) (lib : Externals) (seed commandIndex : UInt64)
    (commandHash replyHash : String) :
    ∃ plan, config.plan lib seed commandIndex commandHash replyHash responseLen = some plan ∧
      P plan := by
  rw [planDraws, Draw.all_bind] at h
  rcases Draw.run_of_all h
    (rngFor lib seed commandIndex ("transport:v1:" ++ commandHash) replyHash) with
    ⟨plan, hplan, hfault⟩
  rw [← deliveryPlan_eq_run] at hplan
  simp only [TransportConfig.plan, hplan, Option.bind_eq_bind, Option.bind_some]
  by_cases hpoint : config.fault.point ≠ .before
  · rw [if_pos hpoint] at hfault ⊢
    rw [Draw.all_bind] at hfault
    rcases Draw.run_of_all hfault
      (rngFor lib seed commandIndex ("connection-fault:v1:" ++ commandHash) "") with
      ⟨fault, hrun, hP⟩
    rw [← FaultConfig.plan_eq_run] at hrun
    rw [hrun, Option.bind_some]
    cases fault with
    | none => exact ⟨plan, rfl, hP⟩
    | some fault => exact ⟨_, rfl, hP⟩
  · rw [if_neg hpoint] at hfault ⊢
    exact ⟨plan, rfl, hfault⟩

theorem beforePlan_of_all {P : Option DeliveryPlan → Prop} (h : config.beforeDraws.All P)
    (lib : Externals) (seed index : UInt64) (hash : String) :
    ∃ plan, config.beforePlan lib seed index hash = some plan ∧ P plan := by
  unfold beforeDraws at h
  unfold beforePlan
  by_cases hpoint : config.fault.point ≠ .before
  · rw [if_pos hpoint] at h ⊢
    exact ⟨none, rfl, h⟩
  · rw [if_neg hpoint, Draw.all_map] at h
    rw [if_neg hpoint, FaultConfig.plan_eq_run]
    rcases Draw.run_of_all h
      (rngFor lib seed index ("connection-fault:v1:" ++ hash) "") with ⟨fault, hrun, hP⟩
    rw [hrun]
    exact ⟨_, rfl, hP⟩

end TransportConfig

/-! ## Boundaries -/

/-- A probability in percent can be drawn. -/
theorem safe_genBoolWith {probability : F64} (h : IsPercent probability)
    (hproper : probability.Proper) : (genBoolWith (probability.divRat 100)).Safe := by
  rcases F64.le_hundred_finite h.2 with ⟨negative, magnitude, rfl, hlow, hhigh⟩
  have hnonneg : 0 ≤ magnitude := hproper
  simp only [F64.divRat, F64.mulRat, genBoolWith]
  split_ifs with hone hsmall
  · trivial
  · exact ⟨by decide, fun _ => trivial⟩
  · exfalso
    cases negative with
    | true =>
        have hzero : magnitude = 0 := by
          simp only [F64.signed, if_true] at hlow
          linarith
        exact hsmall (.inl (by rw [hzero, zero_mul]))
    | false =>
        simp only [F64.signed, Bool.false_eq_true, if_false] at hhigh
        have hle : magnitude * (100 : ℚ)⁻¹ ≤ 1 := by
          rw [← div_eq_mul_inv, div_le_one (by norm_num)]
          exact hhigh
        rcases hle.lt_or_eq with hlt | heq
        · exact hsmall (.inr ⟨hlt, rfl⟩)
        · exact hone ⟨heq, rfl⟩

/-- Boundaries of chunks that increase below the end. -/
structure Boundaries (len : Nat) (offsets : List Nat) : Prop where
  increasing : offsets.Pairwise (· < ·)
  between : ∀ offset ∈ offsets, 0 < offset ∧ offset < len
  few : offsets.length ≤ maxBoundaries

theorem boundaries_nil (len : Nat) : Boundaries len [] :=
  ⟨List.Pairwise.nil, by simp, Nat.zero_le _⟩

theorem isChain_lt {offsets : List Nat} (hle : offsets.IsChain (· ≤ ·))
    (hne : offsets.IsChain (· ≠ ·)) : offsets.IsChain (· < ·) := by
  induction offsets with
  | nil => exact .nil
  | cons offset offsets ih =>
      cases offsets with
      | nil => exact .singleton offset
      | cons next offsets =>
          rcases List.isChain_cons_cons.mp hle with ⟨hfirst, hrest⟩
          rcases List.isChain_cons_cons.mp hne with ⟨hdiffer, hdiffers⟩
          exact List.isChain_cons_cons.mpr ⟨lt_of_le_of_ne hfirst hdiffer, ih hrest hdiffers⟩

/-- Sorted offsets increase once repeated ones are merged. -/
theorem pairwise_destutter {offsets : List Nat} (h : offsets.Pairwise (· ≤ ·)) :
    (offsets.destutter (· ≠ ·)).Pairwise (· < ·) := by
  have hle := (h.sublist (List.destutter_sublist (· ≠ ·) offsets)).isChain
  have hne := List.isChain_destutter (· ≠ ·) offsets
  exact (isChain_lt hle hne).pairwise

/-- The boundaries of chunks increase below the end. -/
theorem all_drawBoundaries {config : TransportConfig} (h : config.InRanges) (len : Nat) :
    (TransportConfig.drawBoundaries config.chunks len).All (Boundaries len) := by
  cases hchunks : config.chunks with
  | off => exact boundaries_nil len
  | «at» offsets =>
      rcases h.chunks offsets hchunks with ⟨-, hfew, hincreasing, hpositive⟩
      refine ⟨hincreasing.sublist List.filter_sublist, ?_, ?_⟩
      · intro offset hoffset
        rcases List.mem_filter.mp hoffset with ⟨hmem, hlt⟩
        exact ⟨hpositive offset hmem, of_decide_eq_true hlt⟩
      · exact (List.length_filter_le _ _).trans hfew
  | random =>
      unfold TransportConfig.drawBoundaries
      have hmax : maxBoundaries = 64 := rfl
      by_cases hlen : 1 < len
      · rw [if_pos hlen, Draw.all_bind]
        refine all_genRange (by omega) fun count _ hcount => ?_
        rw [Draw.all_bind]
        have hone : (genRange 1 len).All fun offset => 0 < offset ∧ offset < len :=
          all_genRange hlen fun offset hlow hhigh => ⟨hlow, hhigh⟩
        refine Draw.all_mono (Draw.all_replicate hone count) fun offsets hoffsets => ?_
        have hsub := List.destutter_sublist (· ≠ ·) (offsets.insertionSort (· ≤ ·))
        have hperm := List.perm_insertionSort (· ≤ ·) offsets
        refine ⟨pairwise_destutter (List.pairwise_insertionSort _ _), ?_, ?_⟩
        · intro offset hoffset
          exact hoffsets.2 offset (hperm.mem_iff.mp (hsub.subset hoffset))
        · have hle := hsub.length_le
          rw [List.length_insertionSort, hoffsets.1] at hle
          omega
      · rw [if_neg hlen]
        exact boundaries_nil len

/-! ## Plans -/

/-- The stream of a reply before it is cut. -/
def DeliveryPlan.stream (plan : DeliveryPlan) (response : Bytes) : Bytes :=
  response ++ (List.replicate plan.extraReplyCount extraReply).flatten

theorem length_stream (plan : DeliveryPlan) (response : Bytes) :
    (plan.stream response).length =
      response.length + plan.extraReplyCount * extraReply.length := by
  simp [DeliveryPlan.stream]

/-- A delivery without a connection fault, for a reply of a given length. -/
structure Planned (config : TransportConfig) (responseLen : Nat) (plan : DeliveryPlan) : Prop where
  fits : plan.Fits
    (plan.truncateAt.getD (responseLen + plan.extraReplyCount * extraReply.length))
  few : plan.chunkEnds.length ≤ maxBoundaries + 1
  truncated : ∀ n, plan.truncateAt = some n →
    n < responseLen + plan.extraReplyCount * extraReply.length ∧ config.truncate ≠ .off
  fault : plan.connectionFault = none

theorem fits_plain (len : Nat) : (DeliveryPlan.plain len).Fits len := by
  by_cases hlen : len = 0
  · subst hlen
    exact ⟨by simp [DeliveryPlan.plain], by simp [DeliveryPlan.plain], by simp [DeliveryPlan.plain]⟩
  · refine ⟨?_, ?_, ?_⟩
    · simp [DeliveryPlan.plain, hlen]
    · intro stop hstop
      simp only [DeliveryPlan.plain, if_neg hlen, List.mem_singleton] at hstop
      omega
    · simp [DeliveryPlan.plain, hlen]

theorem planned_plain (config : TransportConfig) (responseLen : Nat) :
    Planned config responseLen (.plain responseLen) where
  fits := by
    have hfits := fits_plain responseLen
    simpa [DeliveryPlan.plain] using hfits
  few := by
    simp only [DeliveryPlan.plain]
    split <;> simp
  truncated := by simp [DeliveryPlan.plain]
  fault := rfl

/-- Boundaries with the end after them. -/
theorem fits_of_boundaries {plan : DeliveryPlan} {len : Nat} {offsets : List Nat}
    (hincreasing : offsets.Pairwise (· < ·))
    (hbetween : ∀ offset ∈ offsets, 0 < offset ∧ offset < len)
    (hends : plan.chunkEnds = offsets ++ if 0 < len then [len] else []) : plan.Fits len := by
  by_cases hlen : 0 < len
  · rw [if_pos hlen] at hends
    refine ⟨?_, ?_, ?_⟩
    · rw [hends, List.pairwise_append]
      refine ⟨hincreasing, List.pairwise_singleton _ _, fun offset hoffset stop hstop => ?_⟩
      rw [List.mem_singleton.mp hstop]
      exact (hbetween offset hoffset).2
    · intro stop hstop
      rw [hends] at hstop
      rcases List.mem_append.mp hstop with hmem | hmem
      · exact (hbetween stop hmem).1
      · rw [List.mem_singleton.mp hmem]
        exact hlen
    · rw [hends, List.getLast?_concat, if_neg (Nat.ne_of_gt hlen)]
  · have hnil : offsets = [] := by
      rw [List.eq_nil_iff_forall_not_mem]
      intro offset hoffset
      have := hbetween offset hoffset
      omega
    rw [if_neg hlen, hnil] at hends
    have hzero : len = 0 := by omega
    refine ⟨?_, ?_, ?_⟩
    · simp [hends]
    · simp [hends]
    · simp [hends, hzero]

theorem all_drawCut {config : TransportConfig} (total : Nat) :
    (TransportConfig.drawCut config.truncate total).All fun cut =>
      ∀ n, cut = some n → n < total ∧ config.truncate ≠ .off := by
  cases hcut : config.truncate with
  | off => simp [TransportConfig.drawCut]
  | «at» offset =>
      intro n hn
      rw [Option.ite_none_right_eq_some] at hn
      rcases hn with ⟨hlt, heq⟩
      cases heq
      exact ⟨hlt, by simp⟩
  | random =>
      unfold TransportConfig.drawCut
      by_cases htotal : 0 < total
      · rw [if_pos htotal, Draw.all_bind]
        refine all_genRange htotal fun offset _ hlt => ?_
        intro n hn
        cases hn
        exact ⟨hlt, by simp⟩
      · rw [if_neg htotal]
        exact fun n hn => nomatch hn

/-- Without a connection fault, a delivery fits the stream up to its cut. -/
theorem all_deliveryDraws {config : TransportConfig} (h : config.InRanges)
    (hproper : config.probability.Proper) (responseLen : Nat) :
    (config.deliveryDraws responseLen).All (Planned config responseLen) := by
  have hplain := planned_plain config responseLen
  unfold TransportConfig.deliveryDraws
  split
  · exact hplain
  refine Draw.all_bind.mpr ((safe_genBoolWith h.probability hproper).all fun applies => ?_)
  cases applies with
  | false => exact hplain
  | true =>
      rw [if_neg (by decide), Draw.all_bind]
      refine Draw.all_mono (all_drawCut _) fun cut hcut => ?_
      rw [Draw.all_bind]
      refine Draw.all_mono (all_drawBoundaries h _) fun offsets hoffsets => ?_
      refine ⟨fits_of_boundaries hoffsets.increasing hoffsets.between rfl, ?_, hcut, rfl⟩
      have hfew := hoffsets.few
      rw [List.length_append]
      split <;> simp <;> omega

/-! ## Faults -/

/-- A connection fault of settings, in a stream of a given length. -/
structure Struck (config : FaultConfig) (len : Nat) (fault : ConnectionFaultPlan) : Prop where
  active : config.action ≠ .off
  action : fault.action = config.action
  within : fault.afterBytes ≤ len
  duration : fault.durationMs.isSome = true ↔ fault.action = .stall

theorem all_faultOffset (point : FaultPoint) (len : Nat) :
    (FaultConfig.faultOffset point len).All fun offset => ∀ n, offset = some n → n ≤ len := by
  cases point with
  | before => exact fun n hn => Option.some.inj hn ▸ Nat.zero_le len
  | after => exact fun n hn => Option.some.inj hn ▸ Nat.zero_le len
  | reply => exact fun n hn => (Option.some.inj hn).ge
  | random =>
      unfold FaultConfig.faultOffset
      by_cases hlen : 0 < len
      · rw [if_pos hlen, Draw.all_bind]
        refine all_genRange hlen fun offset _ hlt => ?_
        exact fun n hn => Option.some.inj hn ▸ hlt.le
      · rw [if_neg hlen]
        exact fun n hn => Option.some.inj hn ▸ Nat.zero_le len
  | bytes offset =>
      intro n hn
      rw [Option.ite_none_right_eq_some] at hn
      exact Option.some.inj hn.2 ▸ hn.1

/-- A connection fault strikes within the stream. -/
theorem all_faultDraws {config : FaultConfig} {probability : F64} (h : IsPercent probability)
    (hproper : probability.Proper) (len : Nat) :
    (config.draws probability len).All fun fault => ∀ f, fault = some f → Struck config len f := by
  have hnone : ∀ f, (none : Option ConnectionFaultPlan) = some f → Struck config len f :=
    fun f hf => nomatch hf
  unfold FaultConfig.draws
  by_cases hoff : config.action = .off ∨ probability.eq .zero = true
  · rw [if_pos hoff]
    exact hnone
  rw [if_neg hoff]
  refine Draw.all_bind.mpr ((safe_genBoolWith h hproper).all fun applies => ?_)
  cases applies with
  | false => exact hnone
  | true =>
      rw [if_neg (by decide), Draw.all_bind]
      refine Draw.all_mono (all_faultOffset config.point len) fun offset hoffset => ?_
      intro f hf
      rcases Option.map_eq_some_iff.mp hf with ⟨n, hn, rfl⟩
      refine ⟨fun haction => hoff (.inl haction), rfl, hoffset n hn, ?_⟩
      dsimp only
      by_cases hstall : config.action = .stall
      · simp [hstall]
      · simp [hstall]

/-- A fault moves the last end to where it strikes. -/
theorem fits_setFault {plan : DeliveryPlan} {len : Nat} {fault : ConnectionFaultPlan}
    (h : plan.Fits len) (hwithin : fault.afterBytes ≤ len) :
    (plan.setFault fault).Fits fault.afterBytes ∧
      (plan.setFault fault).chunkEnds.length ≤ plan.chunkEnds.length := by
  have hends : (plan.setFault fault).chunkEnds =
      plan.chunkEnds.filter (· < fault.afterBytes) ++
        if 0 < fault.afterBytes then [fault.afterBytes] else [] := rfl
  have hbelow : ∀ stop ∈ plan.chunkEnds.filter (· < fault.afterBytes),
      0 < stop ∧ stop < fault.afterBytes := by
    intro stop hstop
    rcases List.mem_filter.mp hstop with ⟨hmem, hlt⟩
    exact ⟨h.positive stop hmem, of_decide_eq_true hlt⟩
  refine ⟨fits_of_boundaries (h.increasing.sublist List.filter_sublist) hbelow hends, ?_⟩
  rw [hends, List.length_append]
  by_cases hzero : 0 < fault.afterBytes
  · -- The old end is not before the fault, so it makes room for the new one.
    have hlast : len ∈ plan.chunkEnds := by
      have hlen : len ≠ 0 := by omega
      have hlast := h.last
      rw [if_neg hlen] at hlast
      exact List.mem_of_getLast? hlast
    have hlt : (plan.chunkEnds.filter (· < fault.afterBytes)).length < plan.chunkEnds.length := by
      rw [List.length_filter_lt_length_iff_exists]
      exact ⟨len, hlast, by simpa using hwithin⟩
    rw [if_pos hzero]
    exact hlt
  · rw [if_neg hzero]
    exact List.length_filter_le _ _

/-! ## Streams -/

/-- A plan and the bytes it sends of a reply. -/
structure DeliveryPlan.Matches (plan : DeliveryPlan) (response : Bytes) : Prop where
  stream : plan.wireBytes response <+: plan.stream response
  fits : plan.Fits (plan.wireBytes response).length
  few : plan.chunkEnds.length ≤ 65
  delivers : ∀ script fingerprints, ∃ delivery,
    deliver script fingerprints (plan.wireBytes response) plan = some delivery
  truncated : ∀ n, plan.truncateAt = some n →
    n < (plan.stream response).length ∧ plan.connectionFault = none
  fault : ∀ fault, plan.connectionFault = some fault →
    fault.afterBytes = (plan.wireBytes response).length ∧
      (fault.durationMs.isSome = true ↔ fault.action = .stall)
  plain : plan.isFault = false → plan.wireBytes response = response ∧
    plan.chunkEnds.length ≤ 1 ∧ plan.truncateAt = none ∧ plan.connectionFault = none

theorem plain_of_not_isFault {plan : DeliveryPlan} (response : Bytes)
    (h : plan.isFault = false) : plan.wireBytes response = response ∧
      plan.chunkEnds.length ≤ 1 ∧ plan.truncateAt = none ∧ plan.connectionFault = none := by
  unfold DeliveryPlan.isFault at h
  rw [decide_eq_false_iff_not, not_or, not_or, not_or, not_not] at h
  rcases h with ⟨hfault, hextra, hcut, hchunks⟩
  rw [Option.not_isSome_iff_eq_none] at hfault hcut
  refine ⟨?_, not_lt.mp hchunks, hcut, hfault⟩
  simp [DeliveryPlan.wireBytes, hextra, hcut, hfault, DeliveryPlan.cutAt]

theorem wireBytes_eq (plan : DeliveryPlan) (response : Bytes) :
    plan.wireBytes response = DeliveryPlan.cutAt
      (DeliveryPlan.cutAt (plan.stream response) plan.truncateAt)
      (plan.connectionFault.map (·.afterBytes)) :=
  rfl

theorem cutAt_prefix (bytes : Bytes) (cut : Option Nat) : DeliveryPlan.cutAt bytes cut <+: bytes := by
  cases cut with
  | none => exact List.prefix_rfl
  | some n => exact List.take_prefix n bytes

theorem Planned.matches {config : TransportConfig} {plan : DeliveryPlan} {response : Bytes}
    (h : Planned config response.length plan) : plan.Matches response := by
  have hwire : plan.wireBytes response =
      DeliveryPlan.cutAt (plan.stream response) plan.truncateAt := by
    rw [wireBytes_eq, h.fault]
    rfl
  have htruncated := h.truncated
  have hfits := h.fits
  rw [← length_stream plan response] at htruncated hfits
  have hlength : (plan.wireBytes response).length =
      plan.truncateAt.getD (plan.stream response).length := by
    rw [hwire]
    cases hcut : plan.truncateAt with
    | none => rfl
    | some n =>
        have hlt := (htruncated n hcut).1
        simp only [DeliveryPlan.cutAt, List.length_take, Option.getD_some]
        omega
  rw [← hlength] at hfits
  refine ⟨?_, hfits, h.few, deliver_of_fits hfits, ?_, ?_, plain_of_not_isFault response⟩
  · rw [hwire]
    exact cutAt_prefix _ _
  · exact fun n hn => ⟨(htruncated n hn).1, h.fault⟩
  · intro fault hfault
    rw [h.fault] at hfault
    cases hfault

/-- A fault and a cut exclude each other, so a fault strikes the whole stream. -/
theorem Planned.matches_setFault {config : TransportConfig} {plan : DeliveryPlan}
    {response : Bytes} {fault : ConnectionFaultPlan} (hconfig : config.Valid)
    (h : Planned config response.length plan)
    (hfault : Struck config.fault (plan.stream response).length fault) :
    (plan.setFault fault).Matches response := by
  have hcut : plan.truncateAt = none := by
    have htruncate := hconfig.exclusive.resolve_left hfault.active
    cases hcut : plan.truncateAt with
    | none => rfl
    | some n => exact absurd htruncate (h.truncated n hcut).2
  have hfits := h.fits
  rw [hcut, Option.getD_none, ← length_stream plan response] at hfits
  rcases fits_setFault hfits hfault.within with ⟨hnew, hfew⟩
  have hwire : (plan.setFault fault).wireBytes response =
      (plan.stream response).take fault.afterBytes := by
    rw [wireBytes_eq]
    show DeliveryPlan.cutAt (DeliveryPlan.cutAt (plan.stream response) plan.truncateAt) _ = _
    rw [hcut]
    rfl
  have hlength : ((plan.setFault fault).wireBytes response).length = fault.afterBytes := by
    have hwithin := hfault.within
    rw [hwire, List.length_take]
    omega
  rw [← hlength] at hnew
  refine ⟨?_, hnew, hfew.trans h.few, deliver_of_fits hnew, ?_, ?_,
    plain_of_not_isFault response⟩
  · rw [hwire]
    exact List.take_prefix _ _
  · intro n hn
    have hnone : (plan.setFault fault).truncateAt = none := hcut
    rw [hnone] at hn
    cases hn
  · intro f hf
    cases hf
    exact ⟨hlength.symm, hfault.duration⟩

/-- Every plan of settings that commands can reach matches its stream, whatever is drawn, and
no draw is made from an empty range. -/
theorem plan_matches (config : TransportConfig) (h : config.Reached) (response : Bytes) :
    (config.planDraws response.length).All (·.Matches response) ∧
    config.beforeDraws.All (fun before => ∀ plan, before = some plan → plan.Matches []) ∧
    ∀ lib seed commandIndex commandHash replyHash,
      (∃ plan, config.plan lib seed commandIndex commandHash replyHash response.length = some plan ∧
        plan.Matches response) ∧
      ∃ before, config.beforePlan lib seed commandIndex commandHash = some before ∧
        ∀ plan, before = some plan → plan.Matches [] := by
  have hvalid := h.valid
  have hpercent := hvalid.probability
  have hplan : (config.planDraws response.length).All (·.Matches response) := by
    refine Draw.all_bind.mpr
      (Draw.all_mono (all_deliveryDraws hvalid.toInRanges h.proper _) fun plan hplanned => ?_)
    by_cases hpoint : config.fault.point ≠ .before
    · rw [if_pos hpoint, Draw.all_bind]
      refine Draw.all_mono (all_faultDraws hpercent h.proper _) fun fault hfault => ?_
      rw [← length_stream plan response] at hfault
      cases fault with
      | none => exact hplanned.matches
      | some fault => exact hplanned.matches_setFault hvalid (hfault fault rfl)
    · rw [if_neg hpoint]
      exact hplanned.matches
  have hbefore : config.beforeDraws.All fun before =>
      ∀ plan, before = some plan → plan.Matches [] := by
    unfold TransportConfig.beforeDraws
    by_cases hpoint : config.fault.point ≠ .before
    · rw [if_pos hpoint]
      exact fun plan hplan => nomatch hplan
    · rw [if_neg hpoint, Draw.all_map]
      refine Draw.all_mono (all_faultDraws hpercent h.proper 0) fun fault hfault => ?_
      intro plan hplan
      rcases Option.map_eq_some_iff.mp hplan with ⟨f, hf, rfl⟩
      exact (planned_plain config 0).matches_setFault hvalid (hfault f hf)
  refine ⟨hplan, hbefore, fun lib seed commandIndex commandHash replyHash => ⟨?_, ?_⟩⟩
  · exact TransportConfig.plan_of_all hplan lib seed commandIndex commandHash replyHash
  · exact TransportConfig.beforePlan_of_all hbefore lib seed commandIndex commandHash

/-- A fault at a random offset. -/
theorem plan_matches_random :
    (TransportConfig.planDraws { fault := { action := .stall, point := .random } }
      (asBytes "+OK\r\n").length).All (·.Matches (asBytes "+OK\r\n")) ∧
    (TransportConfig.beforeDraws { fault := { action := .stall, point := .random } }).All
      (fun before => ∀ plan, before = some plan → plan.Matches []) ∧
    ∀ lib seed commandIndex commandHash replyHash,
      (∃ plan, TransportConfig.plan lib { fault := { action := .stall, point := .random } } seed
          commandIndex commandHash replyHash (asBytes "+OK\r\n").length = some plan ∧
        plan.Matches (asBytes "+OK\r\n")) ∧
      ∃ before, TransportConfig.beforePlan lib { fault := { action := .stall, point := .random } }
          seed commandIndex commandHash = some before ∧
        ∀ plan, before = some plan → plan.Matches [] :=
  plan_matches { fault := { action := .stall, point := .random } }
    (.updated .default (show TransportConfig.updated {} ["fault", "stall", "at", "random"] =
      .ok { fault := { action := .stall, point := .random } } by decide))
    (asBytes "+OK\r\n")

end EvilResp
