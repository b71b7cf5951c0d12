import Mathlib.Data.List.Basic

/-!
# Partial machines

A machine takes one event in one state, if the event is possible there.  A run is a
list of events that were all possible, one after the other.

Main results:

- Theorem {lit}`Machine.run_invariant`: what holds initially and is kept by every
  step, together with the events so far, holds after every run.
- Theorem {lit}`Machine.run_invariant_of_meets`: a condition on the steps of a run may
  be used where it is needed.
- Theorem {lit}`Machine.run_simulation`: what is related step by step is related over runs.
- Theorem {lit}`Machine.step_of_log`: an entry of a log was added by one step of the run.
-/

namespace Library

/-- An entry of a history that grew is the new one or an old one. -/
theorem eq_concat_cases {α : Type*} {history past later : List α} {last entry : α}
    (h : history ++ [last] = past ++ entry :: later) :
    (later = [] ∧ past = history ∧ entry = last) ∨
      ∃ before, later = before ++ [last] ∧ history = past ++ entry :: before := by
  rcases later.eq_nil_or_concat with rfl | ⟨before, final, rfl⟩
  · rcases List.append_inj' h rfl with ⟨hpast, hlast⟩
    exact .inl ⟨rfl, hpast.symm, (List.cons.inj hlast).1.symm⟩
  · rw [List.concat_eq_append, ← List.cons_append, ← List.append_assoc] at h
    rcases List.append_inj' h rfl with ⟨hpast, hlast⟩
    refine .inr ⟨before, ?_, hpast⟩
    rw [List.concat_eq_append, (List.cons.inj hlast).1]

namespace Machine

variable {σ ε : Type*}

/-- The state after a list of events. -/
def run (step : σ → ε → Option σ) : σ → List ε → Option σ
  | s, [] => some s
  | s, e :: es => (step s e).bind fun t => run step t es

/-- Every step of a run meets a condition on its state and its event. -/
def Meets (step : σ → ε → Option σ) (condition : σ → ε → Prop) : σ → List ε → Prop
  | _, [] => True
  | s, e :: es => condition s e ∧ ∀ t, step s e = some t → Meets step condition t es

/-- Whether the steps of a run meet a condition can be checked along the run. -/
instance decidableMeets (step : σ → ε → Option σ) (condition : σ → ε → Prop)
    [∀ s e, Decidable (condition s e)] : ∀ s es, Decidable (Meets step condition s es)
  | _, [] => isTrue trivial
  | s, e :: es =>
      match h : step s e with
      | none => decidable_of_iff (condition s e) (by simp [Meets, h])
      | some t =>
          have := decidableMeets step condition t es
          decidable_of_iff (condition s e ∧ Meets step condition t es) (by simp [Meets, h])

/-- What the steps of a run put out, one after the other. -/
def outputs {β : Type*} (step : σ → ε → Option σ) (output : σ → ε → List β) : σ → List ε → List β
  | _, [] => []
  | s, e :: es => output s e ++ (step s e).elim [] fun t => outputs step output t es

variable {step : σ → ε → Option σ}

theorem run_append {s : σ} (es later : List ε) :
    run step s (es ++ later) = (run step s es).bind fun t => run step t later := by
  induction es generalizing s with
  | nil => rfl
  | cons e es ih =>
      simp only [List.cons_append, run]
      cases step s e with
      | none => rfl
      | some t => exact ih

theorem run_snoc {s t : σ} {es : List ε} {e : ε} (h : run step s es = some t) :
    run step s (es ++ [e]) = step t e := by
  rw [run_append, h]
  simp [run]

/-- One more step puts out what it puts out in the state that was reached. -/
theorem outputs_snoc {β : Type*} {output : σ → ε → List β} {s t : σ} {es : List ε} (e : ε)
    (h : run step s es = some t) :
    outputs step output s (es ++ [e]) = outputs step output s es ++ output t e := by
  induction es generalizing s with
  | nil =>
      cases h
      simp only [List.nil_append, outputs]
      cases step t e with
      | none => exact List.append_nil _
      | some u => exact List.append_nil _
  | cons first es ih =>
      rcases Option.bind_eq_some_iff.mp h with ⟨u, hu, hrest⟩
      simp only [List.cons_append, outputs, hu, Option.elim_some, ih hrest, List.append_assoc]

theorem meets_append {condition : σ → ε → Prop} {s : σ} {es later : List ε} :
    Meets step condition s (es ++ later) ↔ Meets step condition s es ∧
      ∀ t, run step s es = some t → Meets step condition t later := by
  induction es generalizing s with
  | nil => simp [Meets, run]
  | cons e es ih =>
      simp only [List.cons_append, Meets, run]
      cases step s e with
      | none => simp
      | some u => simp [ih, and_assoc]

/-- A condition that the events alone decide. -/
theorem meets_of_forall {condition : σ → ε → Prop} {es : List ε}
    (h : ∀ e ∈ es, ∀ s, condition s e) (s : σ) : Meets step condition s es := by
  induction es generalizing s with
  | nil => trivial
  | cons e es ih =>
      exact ⟨h e List.mem_cons_self s, fun t _ =>
        ih (fun later hlater => h later (List.mem_cons_of_mem e hlater)) t⟩

/-- A condition of the steps of a run may be used where it is needed. -/
theorem run_invariant_of_meets {condition : σ → ε → Prop} {I : List ε → σ → Prop}
    (hstep : ∀ {past s e t}, I past s → condition s e → step s e = some t → I (past ++ [e]) t)
    {es : List ε} :
    ∀ {past : List ε} {s t : σ}, I past s → Meets step condition s es →
      run step s es = some t → I (past ++ es) t := by
  induction es with
  | nil =>
      intro past s t hs _ h
      cases h
      rwa [List.append_nil]
  | cons e es ih =>
      intro past s t hs hmeets h
      rcases Option.bind_eq_some_iff.mp h with ⟨u, hu, hrest⟩
      have hnext := ih (hstep hs hmeets.1 hu) (hmeets.2 u hu) hrest
      rwa [List.append_assoc] at hnext

/-- What does not depend on the events is kept likewise. -/
theorem run_kept_of_meets {condition : σ → ε → Prop} {P : σ → Prop}
    (hstep : ∀ {s e t}, P s → condition s e → step s e = some t → P t) {es : List ε} {s t : σ}
    (hs : P s) (hmeets : Meets step condition s es) (h : run step s es = some t) : P t :=
  @run_invariant_of_meets σ ε step condition (fun _ t => P t) hstep es [] s t hs hmeets h

theorem meets_true (s : σ) (es : List ε) : Meets step (fun _ _ => True) s es :=
  meets_of_forall (fun _ _ _ => trivial) s

/-- What holds initially and is kept by every step holds after every run. -/
theorem run_invariant {I : List ε → σ → Prop}
    (hstep : ∀ {past s e t}, I past s → step s e = some t → I (past ++ [e]) t)
    {es : List ε} {s t : σ} (hs : I [] s) (h : run step s es = some t) : I es t := by
  have hkept : ∀ {past s e t}, I past s → True → step s e = some t → I (past ++ [e]) t :=
    fun hpast _ => hstep hpast
  simpa using run_invariant_of_meets hkept hs (meets_true s es) h

/-- A machine follows another one if it takes each of its steps, or need not. -/
theorem run_simulation {τ δ : Type*} {other : τ → δ → Option τ} {R : σ → τ → Prop}
    (f : ε → Option δ)
    (hstep : ∀ {s t e u}, R s t → step s e = some u →
      (∃ d v, f e = some d ∧ other t d = some v ∧ R u v) ∨ f e = none ∧ R u t) {es : List ε} :
    ∀ {s t u}, R s t → run step s es = some u →
      ∃ v, run other t (es.filterMap f) = some v ∧ R u v := by
  induction es with
  | nil =>
      intro s t u hrelated h
      cases h
      exact ⟨t, rfl, hrelated⟩
  | cons e es ih =>
      intro s t u hrelated h
      rcases Option.bind_eq_some_iff.mp h with ⟨next, hnext, hrest⟩
      rcases hstep hrelated hnext with ⟨d, v, hevent, htaken, hkept⟩ | ⟨hevent, hkept⟩
      · rcases ih hkept hrest with ⟨last, hrun, hlast⟩
        refine ⟨last, ?_, hlast⟩
        rw [List.filterMap_cons_some hevent, run, htaken]
        exact hrun
      · rcases ih hkept hrest with ⟨last, hrun, hlast⟩
        refine ⟨last, ?_, hlast⟩
        rwa [List.filterMap_cons_none hevent]

/-- Each entry of a log that grows by at most one in every step was added by one step of the
run, after the entries before it. -/
theorem step_of_log {α : Type*} {log : σ → List α} {s t : σ} {es : List ε}
    (hstep : ∀ {past u e v}, run step s past = some u → step u e = some v →
      log v = log u ∨ ∃ entry, log v = log u ++ [entry])
    (hs : log s = []) (h : run step s es = some t) :
    ∀ before entry after, log t = before ++ entry :: after →
      ∃ past e later u v, es = past ++ e :: later ∧ run step s past = some u ∧
        step u e = some v ∧ log u = before ∧ log v = before ++ [entry] := by
  refine (run_invariant (I := fun es t => run step s es = some t ∧
    ∀ before entry after, log t = before ++ entry :: after →
      ∃ past e later u v, es = past ++ e :: later ∧ run step s past = some u ∧
        step u e = some v ∧ log u = before ∧ log v = before ++ [entry]) ?_ ⟨rfl, ?_⟩ h).2
  · rintro past u e v ⟨hrun, hold⟩ htaken
    refine ⟨(run_snoc hrun).trans htaken, fun before entry after hsplit => ?_⟩
    have hearlier : (∃ rest, log u = before ++ entry :: rest) →
        ∃ first d later w x, past ++ [e] = first ++ d :: later ∧ run step s first = some w ∧
          step w d = some x ∧ log w = before ∧ log x = before ++ [entry] := by
      rintro ⟨rest, hrest⟩
      rcases hold before entry rest hrest with ⟨first, d, later, w, x, hpast, hfound⟩
      exact ⟨first, d, later ++ [e], w, x, by simp [hpast], hfound⟩
    rcases hstep hrun htaken with hsame | ⟨last, hadded⟩
    · exact hearlier ⟨after, hsame ▸ hsplit⟩
    · rcases eq_concat_cases (hadded.symm.trans hsplit) with ⟨-, rfl, rfl⟩ | ⟨rest, -, hrest⟩
      · exact ⟨past, e, [], u, v, rfl, hrun, htaken, rfl, hadded⟩
      · exact hearlier ⟨rest, hrest⟩
  · simp [hs]

end Machine

end Library
