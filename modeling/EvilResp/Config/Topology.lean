import EvilResp.Net

/-!
# Redirect settings

The controls of focused cluster redirects.  An option name is compared with the
ones seen before it is recognized, so an unknown name is the only client text
that reaches an error message unquoted.

Main results:

- Theorem {lit}`RedirectConfig.applyOption_error`: the errors of one option are
  single lines, except for the one that repeats an unknown name.
- Theorem {lit}`parseTopology_error`: a multi-line error of the whole command repeats
  an unknown name that holds a line feed.
-/

namespace EvilResp

open Library

/-- The kinds of focused redirections. -/
inductive RedirectKind where
  | moved
  | ask
  | random
deriving DecidableEq

/-- Whether a command is redirected before it is forwarded or after. -/
inductive RedirectPhase where
  | before
  | after
deriving DecidableEq

/-- Where a focused redirection leads. -/
inductive RedirectTarget where
  | wrongNode
  | selfNode
  | replica
  | next
  | random
  | endpoint (endpoint : TcpEndpoint)
deriving DecidableEq

/-- The slot that a focused redirection names. -/
inductive RedirectSlot where
  | correct
  | wrong
  | wild
  | fixed (slot : Nat)
deriving DecidableEq

/-- The settings of focused redirections. -/
structure RedirectConfig where
  kind : RedirectKind := .moved
  target : RedirectTarget := .wrongNode
  slot : RedirectSlot := .correct
  phase : RedirectPhase := .before
  key : Nat := 1
  cutoff : Option Nat := none
deriving DecidableEq

namespace RedirectConfig

/-- Read a kind, in any letter case. -/
def parseKind (value : String) : AppResult RedirectKind :=
  match toAsciiUppercase value with
  | "MOVED" => .ok .moved
  | "ASK" => .ok .ask
  | "RANDOM" => .ok .random
  | _ => .error (invalid "KIND expects MOVED|ASK|RANDOM")

/-- The characters a literal target may hold. -/
def isHostChar (c : Char) : Bool :=
  c.isAlphanum ∨ c = '.' ∨ c = '-' ∨ c = '_' ∨ c = ':'

/-- A literal target must still form one valid RESP error argument. -/
def parseTarget (lib : Externals) (value : String) : AppResult TcpEndpoint :=
  match TcpEndpoint.parse lib value with
  | .error _ =>
      .error (invalid "TARGET expects WRONG_NODE|SELF|REPLICA|NEXT|RANDOM|host:port")
  | .ok endpoint =>
      if !endpoint.host.toList.all isHostChar ∨
          ((endpoint.host.toList.contains ':' ∨ value.toList.head? = some '[') ∧
            !Ipv6.isAddress endpoint.host) then
        .error (invalid "invalid topology target host")
      else .ok endpoint

/-- Read a target: a word, or an endpoint. -/
def parseRedirectTarget (lib : Externals) (value : String) : AppResult RedirectTarget :=
  match toAsciiUppercase value with
  | "WRONG_NODE" => .ok .wrongNode
  | "SELF" => .ok .selfNode
  | "REPLICA" => .ok .replica
  | "NEXT" => .ok .next
  | "RANDOM" => .ok .random
  | _ => (parseTarget lib value).map .endpoint

/-- Read a slot: a word, or a number. -/
def parseSlot (value : String) : AppResult RedirectSlot :=
  match toAsciiUppercase value with
  | "CORRECT" => .ok .correct
  | "WRONG" => .ok .wrong
  | "WILD" => .ok .wild
  | _ =>
      match parseUnsigned 16 value with
      | .ok slot =>
          if slot < 16384 then .ok (.fixed slot)
          else .error (invalid "SLOT expects CORRECT|WRONG|WILD|0..16383")
      | .error _ => .error (invalid "SLOT expects CORRECT|WRONG|WILD|0..16383")

/-- Read a phase, in any letter case. -/
def parsePhase (value : String) : AppResult RedirectPhase :=
  match toAsciiUppercase value with
  | "BEFORE" => .ok .before
  | "AFTER" => .ok .after
  | _ => .error (invalid "PHASE expects BEFORE|AFTER")

/-- Read the position of the key; the name of a command is none. -/
def parseKey (value : String) : AppResult Nat :=
  match parseUnsigned 64 value with
  | .ok index =>
      if index > 0 then .ok index else .error (invalid "KEY expects a positive argument index")
  | .error _ => .error (invalid "KEY expects a positive argument index")

/-- Read the index at which redirections end, if they do. -/
def parseCutoff (value : String) : AppResult (Option Nat) :=
  if eqIgnoreAsciiCase value "OFF" then .ok none
  else
    match parseUnsigned 64 value with
    | .ok index => .ok (some index)
    | .error _ => .error (invalid "UNTIL expects OFF or an unsigned command index")

/-- The error for an option that does not exist. -/
def unknownOption (option : String) : AppError :=
  invalid ("unknown topology option " ++ option)

/-- One option, named in upper case, with its value. -/
def applyOption (lib : Externals) (settings : F64 × RedirectConfig) (option value : String) :
    AppResult (F64 × RedirectConfig) :=
  let (probability, config) := settings
  match option with
  | "PROBABILITY" => do
      let probability ← parseProbability value
      .ok (probability, config)
  | "KIND" => do
      let kind ← parseKind value
      .ok (probability, { config with kind })
  | "TARGET" => do
      let target ← parseRedirectTarget lib value
      .ok (probability, { config with target })
  | "SLOT" => do
      let slot ← parseSlot value
      .ok (probability, { config with slot })
  | "PHASE" => do
      let phase ← parsePhase value
      .ok (probability, { config with phase })
  | "KEY" => do
      let key ← parseKey value
      .ok (probability, { config with key })
  | "UNTIL" => do
      let cutoff ← parseCutoff value
      .ok (probability, { config with cutoff })
  | _ => .error (unknownOption option)

/-- The loop over the options.  A name that was seen before is refused first. -/
def applyOptions (lib : Externals) :
    List (String × String) → List String → F64 × RedirectConfig → AppResult (F64 × RedirectConfig)
  | [], _, settings => .ok settings
  | (option, value) :: options, seen, settings => do
      let option := toAsciiUppercase option
      if option ∈ seen then .error (invalid ("duplicate topology option " ++ option))
      else
        let settings ← applyOption lib settings option value
        applyOptions lib options (option :: seen) settings

/-- The settings, as {lit}`DEBUG EVIL STATUS` shows them. -/
def status (config : RedirectConfig) : String :=
  let kind :=
    match config.kind with
    | .moved => "MOVED"
    | .ask => "ASK"
    | .random => "RANDOM"
  let target :=
    match config.target with
    | .wrongNode => "WRONG_NODE"
    | .selfNode => "SELF"
    | .replica => "REPLICA"
    | .next => "NEXT"
    | .random => "RANDOM"
    | .endpoint endpoint => endpoint.connectAddr
  let slot :=
    match config.slot with
    | .correct => "CORRECT"
    | .wrong => "WRONG"
    | .wild => "WILD"
    | .fixed slot => toString slot
  let phase :=
    match config.phase with
    | .before => "BEFORE"
    | .after => "AFTER"
  let cutoff :=
    match config.cutoff with
    | none => "OFF"
    | some n => toString n
  s!"topology=REDIRECT topology_kind={kind} topology_target={target} topology_slot={slot} topology_phase={phase} topology_key={config.key} topology_until={cutoff}"

/-! ### Errors -/

/-- The option names of the command, in upper case. -/
def knownOptions : List String :=
  ["PROBABILITY", "KIND", "TARGET", "SLOT", "PHASE", "KEY", "UNTIL"]

theorem quiet_parseKind (value : String) : Quiet (parseKind value) := by
  unfold parseKind
  split
  case h_4 => exact quiet_invalid (singleLine_ofList rfl)
  all_goals exact quiet_ok

theorem quiet_parseTarget (lib : Externals) (value : String) : Quiet (parseTarget lib value) := by
  unfold parseTarget
  split
  · exact quiet_invalid (singleLine_ofList rfl)
  · apply quiet_ite _ quiet_ok
    exact quiet_invalid (singleLine_ofList rfl)

theorem quiet_parseRedirectTarget (lib : Externals) (value : String) :
    Quiet (parseRedirectTarget lib value) := by
  unfold parseRedirectTarget
  split
  case h_6 => exact quiet_map.mpr (quiet_parseTarget lib value)
  all_goals exact quiet_ok

theorem quiet_parseSlot (value : String) : Quiet (parseSlot value) := by
  unfold parseSlot
  split
  case h_4 =>
    split
    · apply quiet_ite quiet_ok
      exact quiet_invalid (singleLine_ofList rfl)
    · exact quiet_invalid (singleLine_ofList rfl)
  all_goals exact quiet_ok

theorem quiet_parsePhase (value : String) : Quiet (parsePhase value) := by
  unfold parsePhase
  split
  case h_3 => exact quiet_invalid (singleLine_ofList rfl)
  all_goals exact quiet_ok

theorem quiet_parseKey (value : String) : Quiet (parseKey value) := by
  unfold parseKey
  split
  · apply quiet_ite quiet_ok
    exact quiet_invalid (singleLine_ofList rfl)
  · exact quiet_invalid (singleLine_ofList rfl)

theorem quiet_parseCutoff (value : String) : Quiet (parseCutoff value) := by
  unfold parseCutoff
  apply quiet_ite quiet_ok
  split
  · exact quiet_ok
  · exact quiet_invalid (singleLine_ofList rfl)

variable {lib : Externals}

/-- A name that is not known is refused with an error that repeats it. -/
theorem applyOption_unknown {settings : F64 × RedirectConfig} {option value : String}
    (h : option ∉ knownOptions) :
    applyOption lib settings option value = .error (unknownOption option) := by
  obtain ⟨probability, config⟩ := settings
  simp only [knownOptions, List.mem_cons, List.not_mem_nil, or_false, not_or] at h
  obtain ⟨h₁, h₂, h₃, h₄, h₅, h₆, h₇⟩ := h
  unfold applyOption
  dsimp only
  split
  case h_8 => rfl
  all_goals contradiction

/-- The errors of a known option are single lines. -/
theorem applyOption_quiet {option : String} (h : option ∈ knownOptions)
    (settings : F64 × RedirectConfig) (value : String) :
    Quiet (applyOption lib settings option value) := by
  obtain ⟨probability, config⟩ := settings
  unfold applyOption
  dsimp only
  split
  · exact quiet_bind (quiet_parseProbability value) fun _ _ => quiet_ok
  · exact quiet_bind (quiet_parseKind value) fun _ _ => quiet_ok
  · exact quiet_bind (quiet_parseRedirectTarget lib value) fun _ _ => quiet_ok
  · exact quiet_bind (quiet_parseSlot value) fun _ _ => quiet_ok
  · exact quiet_bind (quiet_parsePhase value) fun _ _ => quiet_ok
  · exact quiet_bind (quiet_parseKey value) fun _ _ => quiet_ok
  · exact quiet_bind (quiet_parseCutoff value) fun _ _ => quiet_ok
  · simp only [knownOptions, List.mem_cons, List.not_mem_nil, or_false] at h
    simp_all

/-- The errors of one option are single lines, except for the one that repeats an
unknown name. -/
theorem applyOption_error {settings : F64 × RedirectConfig} {option value : String}
    {error : AppError} (h : applyOption lib settings option value = .error error) :
    SingleLine error.message ∨ (option ∉ knownOptions ∧ error = unknownOption option) := by
  by_cases hknown : option ∈ knownOptions
  · exact .inl (applyOption_quiet hknown settings value error h)
  · rw [applyOption_unknown hknown] at h
    exact .inr ⟨hknown, (Except.error.inj h).symm⟩

/-- A value an option accepts; which settings it changes does not matter. -/
def AcceptsValue (lib : Externals) (option value : String) : Prop :=
  ∃ settings, applyOption lib (.hundred, {}) option value = .ok settings

theorem AcceptsValue.known {option value : String} (h : AcceptsValue lib option value) :
    option ∈ knownOptions := by
  by_contra hunknown
  obtain ⟨settings, hok⟩ := h
  rw [applyOption_unknown hunknown] at hok
  cases hok

/-- Acceptance does not depend on the settings before. -/
theorem acceptsValue_iff {settings : F64 × RedirectConfig} {option value : String} :
    AcceptsValue lib option value ↔ ∃ next, applyOption lib settings option value = .ok next := by
  obtain ⟨probability, config⟩ := settings
  unfold AcceptsValue applyOption
  dsimp only
  split <;> simp [bind_eq_ok_iff]

/-- The upper-case name of a pair. -/
def pairName (pair : String × String) : String :=
  toAsciiUppercase pair.1

/-- Pairs with distinct known names and accepted values. -/
def AcceptedPairs (lib : Externals) (pairs : List (String × String)) : Prop :=
  (pairs.map pairName).Nodup ∧ ∀ pair ∈ pairs, AcceptsValue lib (pairName pair) pair.2

/-- Accepted pairs are passed, and the unknown name after them is reported. -/
theorem applyOptions_unknown {option value : String} {after : List (String × String)}
    (hoption : toAsciiUppercase option ∉ knownOptions) :
    ∀ {before : List (String × String)} {seen : List String} {settings : F64 × RedirectConfig},
      AcceptedPairs lib before → (∀ name ∈ seen, name ∈ knownOptions) →
      (∀ pair ∈ before, pairName pair ∉ seen) →
      applyOptions lib (before ++ (option, value) :: after) seen settings =
        .error (unknownOption (toAsciiUppercase option)) := by
  intro before
  induction before with
  | nil =>
      intro seen settings _ hseen _
      have hfresh : toAsciiUppercase option ∉ seen := fun h => hoption (hseen _ h)
      simp only [List.nil_append, applyOptions, if_neg hfresh, applyOption_unknown hoption,
        error_bind]
  | cons pair before ih =>
      intro seen settings haccepted hseen hfresh
      obtain ⟨hnodup, hvalues⟩ := haccepted
      obtain ⟨hpair, hbefore⟩ := List.forall_mem_cons.mp hvalues
      obtain ⟨hfirst, hrest⟩ := List.forall_mem_cons.mp hfresh
      obtain ⟨next, hnext⟩ := acceptsValue_iff.mp hpair
      rw [List.map_cons, List.nodup_cons] at hnodup
      have hstep : applyOptions lib (pair :: before ++ (option, value) :: after) seen settings =
          applyOptions lib (before ++ (option, value) :: after) (pairName pair :: seen) next := by
        show (if pairName pair ∈ seen then _ else
          applyOption lib settings (pairName pair) pair.2 >>= _) = _
        rw [if_neg hfirst, hnext, ok_bind]
        rfl
      rw [hstep]
      refine ih ⟨hnodup.2, hbefore⟩ ?_ ?_
      · exact List.forall_mem_cons.mpr ⟨hpair.known, hseen⟩
      · intro other hother hmem
        rcases List.mem_cons.mp hmem with heq | hmem
        · exact hnodup.1 (heq ▸ List.mem_map_of_mem hother)
        · exact hrest other hother hmem

/-- A multi-line error of the loop repeats an unknown name. -/
theorem applyOptions_error {options : List (String × String)} :
    ∀ {seen : List String} {settings : F64 × RedirectConfig} {error : AppError},
      (∀ name ∈ seen, name ∈ knownOptions) →
      applyOptions lib options seen settings = .error error →
      SingleLine error.message ∨ ∃ before option value after,
        options = before ++ (option, value) :: after ∧ AcceptedPairs lib before ∧
        (∀ pair ∈ before, pairName pair ∉ seen) ∧ toAsciiUppercase option ∉ knownOptions ∧
        error = unknownOption (toAsciiUppercase option) := by
  induction options with
  | nil =>
      intro seen settings error _ h
      cases h
  | cons pair options ih =>
      intro seen settings error hseen h
      obtain ⟨option, value⟩ := pair
      simp only [applyOptions] at h
      by_cases hdup : toAsciiUppercase option ∈ seen
      · rw [if_pos hdup] at h
        obtain rfl := Except.error.inj h
        have hname : ∀ name ∈ knownOptions, SingleLine name := by
          intro name hname
          fin_cases hname <;> exact singleLine_ofList rfl
        refine .inl (singleLine_invalid.mpr (singleLine_append.mpr ⟨singleLine_ofList rfl, ?_⟩))
        exact hname _ (hseen _ hdup)
      · rw [if_neg hdup] at h
        rcases bind_eq_error_iff.mp h with hfirst | ⟨next, hnext, hrest⟩
        · rcases applyOption_error hfirst with hline | ⟨hunknown, rfl⟩
          · exact .inl hline
          · exact .inr ⟨[], option, value, options, rfl, ⟨by simp, by simp⟩, by simp, hunknown, rfl⟩
        · have haccepts : AcceptsValue lib (toAsciiUppercase option) value :=
            acceptsValue_iff.mpr ⟨next, hnext⟩
          have hseen' : ∀ name ∈ toAsciiUppercase option :: seen, name ∈ knownOptions :=
            List.forall_mem_cons.mpr ⟨haccepts.known, hseen⟩
          rcases ih hseen' hrest with hline | ⟨before, name, value', after, rfl, ⟨hnodup, hvalues⟩,
            hfresh, hunknown, rfl⟩
          · exact .inl hline
          · refine .inr ⟨(option, value) :: before, name, value', after, rfl, ⟨?_, ?_⟩, ?_, hunknown,
              rfl⟩
            · rw [List.map_cons, List.nodup_cons]
              refine ⟨?_, hnodup⟩
              intro hmem
              obtain ⟨other, hother, heq⟩ := List.mem_map.mp hmem
              exact hfresh other hother (heq ▸ List.mem_cons_self)
            · exact List.forall_mem_cons.mpr ⟨haccepts, hvalues⟩
            · refine List.forall_mem_cons.mpr ⟨hdup, ?_⟩
              intro other hother hmem
              exact hfresh other hother (List.mem_cons_of_mem _ hmem)

end RedirectConfig

/-- Both settings of the command, so that callers commit them together.  The form
with a bare probability keeps the legacy algorithm. -/
def parseTopology (lib : Externals) : List String → AppResult (F64 × Option RedirectConfig)
  | [] => .error (invalid "expected TOPOLOGY <probability|OFF|REDIRECT>")
  | first :: args =>
      if !eqIgnoreAsciiCase first "REDIRECT" then
        if args ≠ [] then
          .error (invalid "TOPOLOGY probability and OFF accept no options")
        else if eqIgnoreAsciiCase first "OFF" then .ok (.zero, none)
        else (parseProbability first).map fun probability => (probability, none)
      else
        let (options, remainder) := asChunks2 args
        if remainder ≠ [] then
          .error (invalid "TOPOLOGY REDIRECT expects option/value pairs")
        else
          (RedirectConfig.applyOptions lib options [] (.hundred, {})).map fun settings =>
            (settings.1, some settings.2)

/-! ## Errors of the command -/

/-- A redirect command whose first refused pair is one with an unknown name. -/
def UnknownOption (lib : Externals) (argv : List String) (option : String) : Prop :=
  ∃ first args before value after, argv = first :: args ∧
    eqIgnoreAsciiCase first "REDIRECT" = true ∧
    asChunks2 args = (before ++ (option, value) :: after, []) ∧
    RedirectConfig.AcceptedPairs lib before ∧
    toAsciiUppercase option ∉ RedirectConfig.knownOptions

/-- A multi-line error of the whole command repeats an unknown name. -/
theorem parseTopology_error {lib : Externals} {argv : List String} {error : AppError}
    (h : parseTopology lib argv = .error error) :
    SingleLine error.message ∨ ∃ option, UnknownOption lib argv option ∧
      error = RedirectConfig.unknownOption (toAsciiUppercase option) := by
  cases argv with
  | nil => exact .inl (quiet_invalid (singleLine_ofList rfl) error h)
  | cons first args =>
      simp only [parseTopology] at h
      by_cases hredirect : eqIgnoreAsciiCase first "REDIRECT" = true
      · simp only [hredirect, Bool.not_true, Bool.false_eq_true, if_false] at h
        by_cases hremainder : (asChunks2 args).2 = []
        · rw [if_neg (by simpa using hremainder)] at h
          have happly := map_eq_error_iff.mp h
          rcases RedirectConfig.applyOptions_error (by simp) happly with hline |
            ⟨before, option, value, after, hpairs, haccepted, -, hunknown, rfl⟩
          · exact .inl hline
          · exact .inr ⟨option, ⟨first, args, before, value, after, rfl, hredirect,
              Prod.ext hpairs hremainder, haccepted, hunknown⟩, rfl⟩
        · rw [if_pos hremainder] at h
          exact .inl (quiet_invalid (singleLine_ofList rfl) error h)
      · simp only [hredirect, Bool.not_false, if_true] at h
        refine .inl ?_
        revert error
        show Quiet _
        apply quiet_ite
        · exact quiet_invalid (singleLine_ofList rfl)
        · exact quiet_ite quiet_ok (quiet_map.mpr (quiet_parseProbability first))

/-- An unknown name is reported once the pairs before it were accepted. -/
theorem parseTopology_unknown {lib : Externals} {argv : List String} {option : String}
    (h : UnknownOption lib argv option) :
    parseTopology lib argv =
      .error (RedirectConfig.unknownOption (toAsciiUppercase option)) := by
  obtain ⟨first, args, before, value, after, rfl, hredirect, hpairs, haccepted, hunknown⟩ := h
  simp only [parseTopology, hredirect, Bool.not_true, Bool.false_eq_true, if_false, hpairs]
  rw [if_neg (by simp), RedirectConfig.applyOptions_unknown hunknown haccepted (by simp) (by simp)]
  rfl

end EvilResp
