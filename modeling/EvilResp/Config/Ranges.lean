import EvilResp.Config.Transport

/-!
# Ranges of the transport settings

Every option of a transport command is checked when it is read, and the rule between two
of them once all were applied.  Whatever was committed before, settings that are accepted
are in their ranges.

Main results:

- Theorem {lit}`applyOptions_invariant`: what every option keeps holds after all of them.
- Theorem {lit}`TransportConfig.valid_updated`: accepted transport settings are valid.
- Theorem {lit}`TransportConfig.Reached.valid`: so are all that commands can reach.
-/

namespace EvilResp

open Library

/-! ## Ranges -/

/-- A probability between zero and a hundred. -/
def IsPercent (probability : F64) : Prop :=
  probability ≠ .nan ∧ F64.inRange .zero .hundred probability = true

/-- A number from 0 to 100 is a percentage. -/
theorem isPercent_of_inRange {probability : F64}
    (h : F64.inRange .zero .hundred probability = true) : IsPercent probability := by
  refine ⟨?_, h⟩
  rintro rfl
  exact absurd h (by decide)

/-- Zero is one. -/
theorem isPercent_zero : IsPercent .zero :=
  isPercent_of_inRange (by decide)

/-- A hundred is one. -/
theorem isPercent_hundred : IsPercent .hundred :=
  isPercent_of_inRange (by decide)

/-- A probability that is read is one. -/
theorem isPercent_parse {value : String} {probability : F64}
    (h : parseProbability value = .ok probability) : IsPercent probability :=
  isPercent_of_inRange (parseProbability_inRange h)

/-- A property of the settings that every given option keeps holds after all of
them. -/
theorem applyOptions_invariant {σ : Type} {P : σ → Prop}
    {apply : σ → String → String → AppResult (σ × Nat)} {duplicate : AppError}
    {options : List (String × String)} :
    ∀ {seen : List Nat} {config next : σ},
      (∀ {config value next} {option : String}, option ∈ options.map Prod.fst →
        apply config option value = .ok next → P config → P next.1) →
      applyOptions apply duplicate options seen config = .ok next → P config → P next := by
  induction options with
  | nil =>
      intro seen config next _ h hconfig
      exact Except.ok.inj h ▸ hconfig
  | cons pair options ih =>
      intro seen config next hstep h hconfig
      rcases bind_eq_ok_iff.mp h with ⟨⟨first, index⟩, hfirst, hrest⟩
      by_cases hseen : index ∈ seen
      · simp only [if_pos hseen, reduceCtorEq] at hrest
      · simp only [if_neg hseen] at hrest
        apply ih _ hrest (hstep List.mem_cons_self hfirst hconfig)
        intro config value next option hoption
        exact hstep (List.mem_cons_of_mem _ hoption)

/-! ## Transport -/

namespace TransportConfig

/-- The ranges of the single options. -/
structure InRanges (config : TransportConfig) : Prop where
  probability : IsPercent config.probability
  extra : config.extra ≤ 16
  chunks : ∀ offsets, config.chunks = .at offsets →
    offsets ≠ [] ∧ offsets.length ≤ maxBoundaries ∧ offsets.Pairwise (· < ·) ∧
      ∀ offset ∈ offsets, 0 < offset
  duration : 1 ≤ config.fault.durationMs ∧ config.fault.durationMs ≤ 3600000

/-- The ranges, and the rule between two options. -/
structure Valid (config : TransportConfig) : Prop extends InRanges config where
  exclusive : config.fault.action = .off ∨ config.truncate = .off

/-- The defaults are in their ranges. -/
theorem valid_default : Valid {} where
  probability := isPercent_hundred
  extra := Nat.zero_le 16
  chunks := by simp
  duration := by decide
  exclusive := .inl rfl

/-- The offsets collected so far, the last one first. -/
structure Collected (offsets : List Nat) : Prop where
  length : offsets.length ≤ maxBoundaries
  decreasing : offsets.Pairwise (· > ·)
  positive : ∀ offset ∈ offsets, 0 < offset

/-- An offset that passes the checks may be collected. -/
theorem Collected.cons {offsets : List Nat} {next : Nat} (h : Collected offsets)
    (hfull : offsets.length ≠ maxBoundaries) (hnext : next ≠ 0)
    (hlast : ∀ last, offsets.head? = some last → last < next) : Collected (next :: offsets) := by
  refine ⟨?_, ?_, ?_⟩
  · have hlength := h.length
    rw [List.length_cons]
    omega
  · refine List.pairwise_cons.mpr ⟨?_, h.decreasing⟩
    cases offsets with
    | nil => simp
    | cons last offsets =>
        have hfirst : last < next := hlast last rfl
        intro other hother
        rcases List.mem_cons.mp hother with rfl | hmem
        · exact hfirst
        · exact (List.rel_of_pairwise_cons h.decreasing hmem).trans hfirst
  · exact List.forall_mem_cons.mpr ⟨Nat.pos_of_ne_zero hnext, h.positive⟩

/-- Offsets that are read are in order and not too many, by induction on the texts. -/
theorem collected_parseOffsets {parts : List (List Char)} :
    ∀ {collected offsets : List Nat}, parseOffsets parts collected = .ok offsets →
      Collected collected → Collected offsets.reverse ∧ collected.length + parts.length =
        offsets.length := by
  induction parts with
  | nil =>
      intro collected offsets h hcollected
      cases h
      rw [List.reverse_reverse, List.length_reverse]
      exact ⟨hcollected, rfl⟩
  | cons part parts ih =>
      intro collected offsets h hcollected
      rcases bind_eq_ok_iff.mp h with ⟨next, -, hrest⟩
      by_cases hrefused : collected.length = maxBoundaries ∨ next = 0 ∨
          (collected.head?.any fun last => last ≥ next) = true
      · rw [if_pos hrefused] at hrest
        cases hrest
      · rw [if_neg hrefused] at hrest
        rw [not_or, not_or] at hrefused
        rcases hrefused with ⟨hfull, hnext, hlast⟩
        have hcons : Collected (next :: collected) := by
          apply hcollected.cons hfull hnext
          intro last hhead
          simpa [hhead] using hlast
        rcases ih hrest hcons with ⟨hoffsets, hlength⟩
        refine ⟨hoffsets, ?_⟩
        rw [← hlength, List.length_cons, List.length_cons]
        omega

/-- Boundaries that are read are in order, positive and not too many. -/
theorem parseChunks_inRange {value : String} {offsets : List Nat}
    (h : parseChunks value = .ok (.at offsets)) :
    offsets ≠ [] ∧ offsets.length ≤ maxBoundaries ∧ offsets.Pairwise (· < ·) ∧
      ∀ offset ∈ offsets, 0 < offset := by
  unfold parseChunks at h
  split at h
  · cases h
  · cases h
  · obtain ⟨parsed, hparse, hsame⟩ := map_eq_ok_iff.mp h
    obtain rfl := Chunks.at.inj hsame
    have hempty : Collected [] := ⟨Nat.zero_le _, List.Pairwise.nil, by simp⟩
    rcases collected_parseOffsets hparse hempty with ⟨hcollected, hlength⟩
    have hparts : value.toList.splitOn ',' ≠ [] := List.splitOnP_ne_nil _ _
    refine ⟨?_, ?_, ?_, ?_⟩
    · rintro rfl
      exact hparts (List.eq_nil_of_length_eq_zero (by simp at hlength))
    · simpa using hcollected.length
    · simpa [List.pairwise_reverse] using hcollected.decreasing
    · simpa using hcollected.positive

/-- Only the action and the point of a fault have no range of their own. -/
theorem inRanges_applyOption {config : TransportConfig} {option value : String}
    {next : TransportConfig × Nat} (h : config.applyOption option value = .ok next)
    (hconfig : config.InRanges) : next.1.InRanges := by
  unfold applyOption at h
  split at h
  · rcases bind_eq_ok_iff.mp h with ⟨cut, -, hok⟩
    cases hok
    exact ⟨hconfig.probability, hconfig.extra, hconfig.chunks, hconfig.duration⟩
  · rcases bind_eq_ok_iff.mp h with ⟨extra, hextra, hok⟩
    cases hok
    refine ⟨hconfig.probability, ?_, hconfig.chunks, hconfig.duration⟩
    rcases bind_eq_ok_iff.mp hextra with ⟨parsed, -, hrange⟩
    by_cases hlarge : parsed > 16
    · rw [if_pos hlarge] at hrange
      cases hrange
    · rw [if_neg hlarge] at hrange
      cases hrange
      exact Nat.le_of_not_lt hlarge
  · rcases bind_eq_ok_iff.mp h with ⟨chunks, hchunks, hok⟩
    cases hok
    refine ⟨hconfig.probability, hconfig.extra, ?_, hconfig.duration⟩
    rintro offsets rfl
    exact parseChunks_inRange hchunks
  · rcases bind_eq_ok_iff.mp h with ⟨probability, hprobability, hok⟩
    cases hok
    exact ⟨isPercent_parse hprobability, hconfig.extra, hconfig.chunks, hconfig.duration⟩
  · rcases bind_eq_ok_iff.mp h with ⟨fault, hfault, hok⟩
    cases hok
    refine ⟨hconfig.probability, hconfig.extra, hconfig.chunks, ?_⟩
    unfold FaultConfig.setAction at hfault
    split at hfault
    case h_5 => cases hfault
    all_goals
      cases hfault
      exact hconfig.duration
  · rcases bind_eq_ok_iff.mp h with ⟨fault, hfault, hok⟩
    cases hok
    refine ⟨hconfig.probability, hconfig.extra, hconfig.chunks, ?_⟩
    unfold FaultConfig.setPoint at hfault
    split at hfault
    case h_5 =>
      obtain ⟨n, -, rfl⟩ := map_eq_ok_iff.mp hfault
      exact hconfig.duration
    all_goals
      cases hfault
      exact hconfig.duration
  · rcases bind_eq_ok_iff.mp h with ⟨fault, hfault, hok⟩
    cases hok
    refine ⟨hconfig.probability, hconfig.extra, hconfig.chunks, ?_⟩
    rcases bind_eq_ok_iff.mp hfault with ⟨ms, -, hrange⟩
    by_cases hms : 1 ≤ ms ∧ ms ≤ 3600000
    · rw [if_pos hms] at hrange
      cases hrange
      exact hms
    · rw [if_neg hms] at hrange
      cases hrange
  · cases h

/-- The rule between two options is checked once all of them were applied. -/
theorem valid_updated {config next : TransportConfig} {argv : List String}
    (h : config.updated argv = .ok next) (hconfig : config.InRanges) : next.Valid := by
  simp only [updated] at h
  split_ifs at h with hoff hpairs
  · cases h
    exact valid_default
  · rcases bind_eq_ok_iff.mp h with ⟨applied, happlied, hcheck⟩
    have hranges : applied.InRanges := applyOptions_invariant
      (fun _ => inRanges_applyOption) happlied hconfig
    by_cases hboth : applied.fault.action ≠ .off ∧ applied.truncate ≠ .off
    · rw [if_pos hboth] at hcheck
      cases hcheck
    · rw [if_neg hboth] at hcheck
      cases hcheck
      refine ⟨hranges, ?_⟩
      by_cases haction : next.fault.action = .off
      · exact .inl haction
      · exact .inr (not_not.mp fun htruncate => hboth ⟨haction, htruncate⟩)

/-- Without a fault option the fault stays as it is. -/
theorem updated_fault {config next : TransportConfig} {argv : List String}
    (h : config.updated argv = .ok next)
    (hoptions : ∀ option ∈ (asChunks2 argv).1.map Prod.fst,
      toAsciiUppercase option ∈ ["TRUNCATE", "EXTRA", "CHUNKS", "PROBABILITY"])
    (hargv : argv.length ≠ 1) : next.fault = config.fault := by
  simp only [updated, hargv, false_and, if_false] at h
  split_ifs at h
  rcases bind_eq_ok_iff.mp h with ⟨applied, happlied, hcheck⟩
  split_ifs at hcheck
  cases hcheck
  refine applyOptions_invariant (P := fun applied => applied.fault = config.fault) ?_ happlied rfl
  intro applied value next option hoption hstep hsame
  have hname := hoptions option hoption
  unfold applyOption at hstep
  split at hstep <;> rename_i heq
  case h_5 | h_6 | h_7 =>
    rw [heq] at hname
    exact absurd hname (by decide)
  case h_8 => cases hstep
  all_goals
    rcases bind_eq_ok_iff.mp hstep with ⟨parsed, -, hok⟩
    cases hok
    exact hsame

end TransportConfig

namespace TransportConfig

/-- The settings that transport commands can reach from the default. -/
inductive Reached : TransportConfig → Prop where
  | default : Reached {}
  | updated {config next : TransportConfig} {argv : List String} (h : Reached config)
      (hnext : config.updated argv = .ok next) : Reached next

/-- A probability that is read is a proper number. -/
theorem proper_parseProbability {value : String} {probability : F64}
    (h : parseProbability value = .ok probability) : probability.Proper := by
  unfold parseProbability at h
  split at h
  · cases h
  · rename_i parsed hparsed
    split_ifs at h
    cases h
    exact F64.proper_parse hparsed

/-- An option leaves the probability a proper number. -/
theorem proper_applyOption {config : TransportConfig} {option value : String}
    {next : TransportConfig × Nat} (h : config.applyOption option value = .ok next)
    (hconfig : config.probability.Proper) : next.1.probability.Proper := by
  unfold applyOption at h
  split at h
  case h_4 =>
    rcases bind_eq_ok_iff.mp h with ⟨probability, hprobability, hok⟩
    cases hok
    exact proper_parseProbability hprobability
  case h_8 => cases h
  all_goals
    rcases bind_eq_ok_iff.mp h with ⟨parsed, -, hok⟩
    cases hok
    exact hconfig

/-- So does a command. -/
theorem proper_updated {config next : TransportConfig} {argv : List String}
    (h : config.updated argv = .ok next) (hconfig : config.probability.Proper) :
    next.probability.Proper := by
  simp only [updated] at h
  split_ifs at h
  · cases h
    exact F64.proper_hundred
  · rcases bind_eq_ok_iff.mp h with ⟨applied, happlied, hcheck⟩
    have hproper : applied.probability.Proper :=
      applyOptions_invariant (P := fun config : TransportConfig => config.probability.Proper)
        (fun _ => proper_applyOption) happlied hconfig
    split_ifs at hcheck
    cases hcheck
    exact hproper

/-- So do all commands of a client. -/
theorem Reached.proper {config : TransportConfig} (h : Reached config) :
    config.probability.Proper := by
  induction h with
  | default => exact F64.proper_hundred
  | updated _ hnext ih => exact proper_updated hnext ih

/-- All commands of a client leave the settings in their ranges. -/
theorem Reached.valid {config : TransportConfig} (h : Reached config) : config.Valid := by
  induction h with
  | default => exact valid_default
  | updated _ hnext ih => exact valid_updated hnext ih.toInRanges

end TransportConfig

end EvilResp
