import EvilResp.Delivery.Stream
import EvilResp.Proxy.Settings

/-!
# The transport of a connection

The transport settings of a connection are only changed by the transport command and by the
temperature preset, which both go through the same parser.  So the plans that are drawn for
any connection match their streams, and what a client gets of one is a beginning of it.

Main results:

- Theorem {lit}`EvilConfig.reached_applyDebugEvil` and theorem
  {lit}`EvilConfig.reached_applyDebugChaos`: no command leaves the reachable transports.
-/

namespace EvilResp

open Library
open EvilResp.Resp

/-! ## Deliveries that fit -/

/-- What a client gets of a plan that fits, in order and without a gap. -/
theorem deliver_prefix {script : List WriteEvent} {fingerprints : ProtocolFingerprints}
    {bytes : Bytes} {plan : DeliveryPlan} {delivery : Delivery} (hfits : plan.Fits bytes.length)
    (h : deliver script fingerprints bytes plan = some delivery) :
    delivery.accepted <+: bytes ∧ (delivery.failure = none → delivery.accepted = bytes) := by
  rcases deliverChunks_spec plan { script, fingerprints } hfits.endsAt rfl rfl with
    ⟨chunked, completed, hchunked, htranscript, -, haccounted⟩
  rw [deliver, hchunked] at h
  obtain rfl := Option.some.inj h
  have hwritten := htranscript.accepted
  have hchunks : (chunksOf bytes plan.chunkEnds 0).flatten = bytes :=
    hfits.endsAt.flatten_chunksOf
  have haccepted := haccounted.accepted
  rw [List.nil_append] at haccepted
  rw [hchunks, ← haccepted] at hwritten
  exact ⟨hwritten.1, fun hnone => (hwritten.2 hnone).1⟩

namespace TransportConfig

/-- Every plan of settings that commands can reach matches its stream. -/
theorem Reached.planDraws {config : TransportConfig} (h : config.Reached) (response : Bytes) :
    (config.planDraws response.length).All (·.Matches response) := by
  have hvalid := h.valid
  apply Draw.all_bind.mpr
  apply Draw.all_mono (all_deliveryDraws hvalid.toInRanges h.proper _)
  intro plan hplanned
  by_cases hpoint : config.fault.point ≠ .before
  · rw [if_pos hpoint, Draw.all_bind]
    apply Draw.all_mono (all_faultDraws hvalid.probability h.proper _)
    intro fault hfault
    rw [← length_stream plan response] at hfault
    cases fault with
    | none => exact hplanned.matches
    | some fault => exact hplanned.matches_setFault hvalid (hfault fault rfl)
  · rw [if_neg hpoint]
    exact hplanned.matches

theorem Reached.beforeDraws {config : TransportConfig} (h : config.Reached) :
    config.beforeDraws.All fun before => ∀ plan, before = some plan → plan.Matches [] := by
  have hvalid := h.valid
  unfold TransportConfig.beforeDraws
  by_cases hpoint : config.fault.point ≠ .before
  · rw [if_pos hpoint]
    exact fun plan hplan => nomatch hplan
  · rw [if_neg hpoint, Draw.all_map]
    apply Draw.all_mono (all_faultDraws hvalid.probability h.proper 0)
    intro fault hfault plan hplan
    rcases Option.map_eq_some_iff.mp hplan with ⟨f, hf, rfl⟩
    exact (planned_plain config 0).matches_setFault hvalid (hfault f hf)

end TransportConfig

/-! ## Settings -/

namespace EvilConfig

variable {lib : Externals} {config next : EvilConfig} {result : DebugResult}

theorem reached_bind {α : Type} {x : AppResult α}
    {f : α → AppResult (EvilConfig × DebugResult)}
    (h : (x >>= f) = .ok (next, result))
    (hf : ∀ a, f a = .ok (next, result) → next.transport.Reached) : next.transport.Reached := by
  obtain ⟨a, -, ha⟩ := bind_eq_ok_iff.mp h
  exact hf a ha

theorem reached_ok {other : EvilConfig} {reply : DebugResult}
    (h : (.ok (other, reply) : AppResult (EvilConfig × DebugResult)) = .ok (next, result))
    (hother : other.transport.Reached) : next.transport.Reached := by
  cases h
  exact hother

/-- The transport is only changed by its own command. -/
theorem reached_applySubcommand {name : String} {args : List String}
    (h : config.applySubcommand lib name args = .ok (next, result))
    (hconfig : config.transport.Reached) : next.transport.Reached := by
  unfold applySubcommand at h
  split at h
  case h_1 =>
    cases args with
    | nil => cases h
    | cons seed options =>
        simp only [applySeed] at h
        split_ifs at h
        exact reached_bind h fun _ hok => reached_ok hok hconfig
  case h_2 =>
    cases args with
    | nil => cases h
    | cons mode options =>
        simp only [applyMode] at h
        split_ifs at h
        · exact reached_ok h hconfig
        · exact reached_bind h fun _ hrest => reached_bind hrest fun _ hok => reached_ok hok hconfig
  case h_4 =>
    rcases bind_eq_ok_iff.mp h with ⟨transport, htransport, hok⟩
    exact reached_ok hok (hconfig.updated htransport)
  case h_7 | h_8 | h_9 =>
    exact reached_bind h fun _ hrest => reached_bind hrest fun _ hok => reached_ok hok hconfig
  case h_12 | h_13 =>
    split_ifs at h
    exact reached_ok h hconfig
  case h_16 => cases h
  all_goals exact reached_bind h fun _ hok => reached_ok hok hconfig

/-- An accepted command is an accepted subcommand. -/
theorem subcommand_of_command {argv : List String}
    (h : config.applyDebugCommand lib argv = .ok (next, result)) :
    config.applySubcommand lib (toAsciiUppercase (argv.getD 2 "")) (argv.drop 3) =
      .ok (next, result) := by
  unfold applyDebugCommand at h
  split at h
  · split_ifs at h
    exact h
  · cases h

/-- What a settings command leaves is what it was, what an accepted subcommand made, or that
with the old transport. -/
theorem applyDebugEvil_cases (lib : Externals) (config : EvilConfig) (argv : List String)
    (resetSupported : Bool) :
    (applyDebugEvil lib config argv resetSupported).1 = config ∨
    ∃ next result, config.applySubcommand lib (toAsciiUppercase (argv.getD 2 "")) (argv.drop 3) =
        .ok (next, result) ∧
      ((applyDebugEvil lib config argv resetSupported).1 = next ∨
        (applyDebugEvil lib config argv resetSupported).1 =
          { next with transport := config.transport }) := by
  unfold applyDebugEvil
  split <;> rename_i hcommand
  · have hsubcommand := subcommand_of_command hcommand
    split_ifs
    · exact .inr ⟨_, _, hsubcommand, .inr rfl⟩
    · exact .inr ⟨_, _, hsubcommand, .inl rfl⟩
  · exact .inl rfl

theorem reached_applyDebugEvil (argv : List String) (resetSupported : Bool)
    (hconfig : config.transport.Reached) :
    (applyDebugEvil lib config argv resetSupported).1.transport.Reached := by
  rcases applyDebugEvil_cases lib config argv resetSupported with
    hsame | ⟨next, result, hsubcommand, hnext | hundone⟩
  · rw [hsame]
    exact hconfig
  · rw [hnext]
    exact reached_applySubcommand hsubcommand hconfig
  · rw [hundone]
    exact hconfig

/-- What a preset leaves is what it was, or what a temperature expands to. -/
theorem applyDebugChaos_cases (lib : Externals) (config : EvilConfig)
    (fingerprints : ProtocolFingerprints) (argv : List String) :
    (applyDebugChaos lib config fingerprints argv).1 = config ∨
    ∃ temperature seed, Chaos.expand config temperature seed =
      .ok (applyDebugChaos lib config fingerprints argv).1 := by
  unfold applyDebugChaos
  cases hcommand : Chaos.apply lib config argv with
  | error refused => exact .inl rfl
  | ok step =>
      rcases step with ⟨next, hash⟩
      refine .inr ?_
      show ∃ temperature seed, Chaos.expand config temperature seed = .ok next
      rcases argv with _ | ⟨debug, _ | ⟨chaos, _ | ⟨temperature, args⟩⟩⟩
      · cases hcommand
      · cases hcommand
      · cases hcommand
      · simp only [Chaos.apply] at hcommand
        split_ifs at hcommand
        · rcases bind_eq_ok_iff.mp hcommand with ⟨parsed, -, hrest⟩
          cases hrest
        rcases bind_eq_ok_iff.mp hcommand with ⟨parsed, -, hrest⟩
        rcases bind_eq_ok_iff.mp hrest with ⟨settings, -, hexpand⟩
        rcases bind_eq_ok_iff.mp hexpand with ⟨expanded, hexpanded, hok⟩
        cases hok
        exact ⟨parsed, settings.1, hexpanded⟩

theorem reached_expand {temperature : F64} {seed : UInt64}
    (h : Chaos.expand config temperature seed = .ok next) : next.transport.Reached := by
  rcases bind_eq_ok_iff.mp h with ⟨generator, -, hgenerator⟩
  rcases bind_eq_ok_iff.mp hgenerator with ⟨exec, -, hrest⟩
  rcases bind_eq_ok_iff.mp hrest with ⟨framing, -, hrest⟩
  rcases bind_eq_ok_iff.mp hrest with ⟨transport, htransport, hok⟩
  cases hok
  unfold Chaos.expandTransport at htransport
  split_ifs at htransport
  · exact TransportConfig.Reached.default.updated htransport
  · cases htransport
    exact .default

theorem reached_applyDebugChaos (fingerprints : ProtocolFingerprints) (argv : List String)
    (hconfig : config.transport.Reached) :
    (applyDebugChaos lib config fingerprints argv).1.transport.Reached := by
  rcases applyDebugChaos_cases lib config fingerprints argv with
    hsame | ⟨temperature, seed, hexpand⟩
  · rw [hsame]
    exact hconfig
  · exact reached_expand hexpand

end EvilConfig

end EvilResp
