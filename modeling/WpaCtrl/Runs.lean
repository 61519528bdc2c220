/-
# Machines and their runs

A machine is driven by actions its environment chooses and emits observations.  A
run is known by the trace of its observations and the state it has reached; what is
kept count of along a run is a fold over the trace.

* `Machine.Reaches.invariant` : what every step preserves holds in every run;
* `Machine.Reaches.account` : the same for a relation between a running account of
  the observations and the state;
* `Machine.Reaches.project` : a part of a machine runs as it does alone;
* `Machine.restrict` : the runs in which only some actions are taken;
* `Machine.reaches_of_run` : executed actions are a run;
* `Machine.Reaches.afresh` : behind a restart a run is one from the start;
* `Machine.Finishes`, `Machine.Call` : the steps up to the next idle state, as they
  were taken, and those of one call;
* `Machine.call_of_call?` : executed actions are a call;
* `Logged`, `Logged.of_perform` : calls with their outcomes, as a specification allows them,
  and as an implementation that refines it makes them.
-/
import Mathlib.Data.List.Basic

/-- A machine: a start, and the step an action makes where it is enabled, with the
observations it emits. -/
structure Machine (σ α ο : Type) where
  start : σ
  step : σ → α → Option (σ × List ο)

namespace Machine

variable {σ α ο ρ : Type} {M : Machine σ α ο}

/-- `M.Reaches trace s`: some run emits the trace and ends in the state. -/
inductive Reaches (M : Machine σ α ο) : List ο → σ → Prop
  | start : Reaches M [] M.start
  | step {trace seen : List ο} {s s' : σ} {a : α} (run : Reaches M trace s)
      (next : M.step s a = some (s', seen)) : Reaches M (trace ++ seen) s'

/-- What holds at the start and is preserved by every step holds in every run. -/
theorem Reaches.invariant (inv : List ο → σ → Prop) (hstart : inv [] M.start)
    (hstep : ∀ trace s a s' seen, M.Reaches trace s → inv trace s →
      M.step s a = some (s', seen) → inv (trace ++ seen) s')
    {trace : List ο} {s : σ} (h : M.Reaches trace s) : inv trace s := by
  induction h with
  | start => exact hstart
  | step run next ih => exact hstep _ _ _ _ _ run ih next

/-- A running account of the observations stays related to the state when every step
keeps it related. -/
theorem Reaches.account {record : ρ → ο → ρ} {empty : ρ} (inv : ρ → σ → Prop)
    (hstart : inv empty M.start)
    (hstep : ∀ r s a s' seen, inv r s → M.step s a = some (s', seen) →
      inv (seen.foldl record r) s')
    {trace : List ο} {s : σ} (h : M.Reaches trace s) : inv (trace.foldl record empty) s := by
  induction h with
  | start => exact hstart
  | step run next ih =>
    rw [List.foldl_append]
    exact hstep _ _ _ _ _ ih next

/-- What a trace begins with is a trace, where no step emits two observations. -/
theorem Reaches.cut (hone : ∀ s a s' seen, M.step s a = some (s', seen) → seen.length ≤ 1)
    {trace : List ο} {s : σ} (h : M.Reaches trace s) :
    ∀ {a b : List ο}, trace = a ++ b → ∃ t, M.Reaches a t := by
  induction h with
  | start =>
    intro a b hab
    rw [(List.append_eq_nil_iff.mp hab.symm).1]
    exact ⟨_, .start⟩
  | step run next ih =>
    intro a b hab
    rcases List.append_eq_append_iff.mp hab with ⟨a', rfl, hseen⟩ | ⟨b', htrace, -⟩
    · rcases a' with _ | ⟨o, a'⟩
      · rw [List.append_nil]
        exact ⟨_, run⟩
      · -- all of the step
        have hlength := hone _ _ _ _ next
        rw [hseen] at hlength
        simp only [List.length_append, List.length_cons] at hlength
        obtain rfl : b = [] := List.length_eq_zero_iff.mp (by omega)
        rw [List.append_nil] at hseen
        exact ⟨_, hseen ▸ run.step next⟩
    · exact ih htrace

/-- **A part of a machine that is one itself**: where every step is a step of the part, or none
that it shows, a run of the whole is one of the part. -/
theorem Reaches.project {τ β ω : Type} {N : Machine τ β ω} (view : σ → τ) {shown : ο → Option ω}
    (hstart : view M.start = N.start)
    (hstep : ∀ s a s' seen, M.step s a = some (s', seen) →
      (view s' = view s ∧ seen.filterMap shown = []) ∨
        ∃ b, N.step (view s) b = some (view s', seen.filterMap shown))
    {trace : List ο} {s : σ} (h : M.Reaches trace s) :
    N.Reaches (trace.filterMap shown) (view s) := by
  induction h with
  | start =>
    rw [hstart]
    exact .start
  | @step trace seen s s' a _ next ih =>
    rw [List.filterMap_append]
    rcases hstep _ _ _ _ next with ⟨hview, hshown⟩ | ⟨b, hnext⟩
    · rw [hview, hshown, List.append_nil]
      exact ih
    · exact ih.step hnext

/-- The machine whose environment takes only the allowed actions. -/
def restrict (M : Machine σ α ο) (allowed : α → Bool) : Machine σ α ο :=
  ⟨M.start, fun s a => if allowed a then M.step s a else none⟩

theorem restrict_step {allowed : α → Bool} {s : σ} {a : α} {result : σ × List ο} :
    (M.restrict allowed).step s a = some result ↔
      allowed a = true ∧ M.step s a = some result := by
  unfold restrict
  by_cases hallowed : allowed a = true <;> simp [hallowed]

/-- A run of allowed actions is a run. -/
theorem Reaches.of_restrict {allowed : α → Bool} {trace : List ο} {s : σ}
    (h : (M.restrict allowed).Reaches trace s) : M.Reaches trace s := by
  induction h with
  | start => exact .start
  | step _ next ih => exact ih.step (restrict_step.mp next).2

/-- Execute actions one after the other. -/
def run (M : Machine σ α ο) (s : σ) : List α → Option (σ × List ο)
  | [] => some (s, [])
  | a :: actions => do
    let (s', seen) ← M.step s a
    let (s'', seen') ← M.run s' actions
    return (s'', seen ++ seen')

theorem reaches_append_run {actions : List α} {trace seen : List ο} {s s' : σ}
    (h : M.Reaches trace s) (hrun : M.run s actions = some (s', seen)) :
    M.Reaches (trace ++ seen) s' := by
  induction actions generalizing s trace seen with
  | nil =>
    obtain ⟨rfl, rfl⟩ := Prod.mk.inj (Option.some.inj hrun)
    rwa [List.append_nil]
  | cons a actions ih =>
    simp only [run, Option.bind_eq_bind, Option.bind_eq_some_iff, Option.pure_def,
      Option.some.injEq, Prod.mk.injEq, Prod.exists] at hrun
    obtain ⟨t, first, hstep, u, rest, hrest, rfl, rfl⟩ := hrun
    rw [← List.append_assoc]
    exact ih (h.step hstep) hrest

/-- What holds of no step, and of a step ahead of more, holds of executed actions. -/
theorem run_induction (related : σ → List ο → σ → Prop) (hnil : ∀ s, related s [] s)
    (hstep : ∀ s a t seen rest u, M.step s a = some (t, seen) → related t rest u →
      related s (seen ++ rest) u)
    {actions : List α} {s s' : σ} {seen : List ο} (hrun : M.run s actions = some (s', seen)) :
    related s seen s' := by
  induction actions generalizing s seen with
  | nil =>
    obtain ⟨rfl, rfl⟩ := Prod.mk.inj (Option.some.inj hrun)
    exact hnil s
  | cons a actions ih =>
    simp only [run, Option.bind_eq_bind, Option.bind_eq_some_iff, Option.pure_def,
      Option.some.injEq, Prod.mk.injEq, Prod.exists] at hrun
    obtain ⟨t, first, hnext, u, rest, hrest, rfl, rfl⟩ := hrun
    exact hstep s a t first rest u hnext (ih hrest)

/-- **Executed actions are a run.** -/
theorem reaches_of_run {actions : List α} {seen : List ο} {s : σ}
    (hrun : M.run M.start actions = some (s, seen)) : M.Reaches seen s :=
  reaches_append_run Reaches.start hrun

/-! ## Copies of a state -/

/-- A map of states that every step respects is respected by runs. -/
theorem run_map {f : σ → σ}
    (h : ∀ s a, M.step (f s) a = (M.step s a).map fun result => (f result.1, result.2))
    (s : σ) (actions : List α) :
    M.run (f s) actions = (M.run s actions).map fun result => (f result.1, result.2) := by
  induction actions generalizing s with
  | nil => rfl
  | cons a actions ih =>
    rw [run, run, h]
    cases M.step s a with
    | none => rfl
    | some result =>
      simp only [Option.map_some, Option.bind_eq_bind, Option.bind_some, Option.pure_def, ih]
      cases M.run result.1 actions <;> rfl

/-- **Behind a restart a run is one from the start.**  What is observed of a restart is that
alone, and it leads to a state like the start; like states make the same steps. -/
theorem Reaches.afresh {like : σ → σ → Prop} {restart : ο}
    (hstep : ∀ s t a s' seen, like s t → M.step s a = some (s', seen) →
      ∃ t', M.step t a = some (t', seen) ∧ like s' t')
    (hrestart : ∀ s a s' seen, M.step s a = some (s', seen) → restart ∈ seen →
      seen = [restart] ∧ like s' M.start)
    {trace : List ο} {s : σ} (h : M.Reaches trace s) :
    ∀ {before after : List ο}, trace = before ++ restart :: after →
      ∃ t, M.Reaches after t ∧ like s t := by
  induction h with
  | start =>
    intro before after htrace
    simp at htrace
  | @step trace seen s s' a run next ih =>
    intro before after htrace
    have hnow : restart :: after = seen → ∃ t, M.Reaches after t ∧ like s' t := by
      intro hseen
      obtain ⟨hone, hlike⟩ := hrestart s a s' seen next (by simp [← hseen])
      obtain rfl : after = [] := (List.cons.inj (hseen.trans hone)).2
      exact ⟨M.start, .start, hlike⟩
    rcases List.append_eq_append_iff.mp htrace with ⟨rest, -, hseen⟩ | ⟨rest, hbefore, hafter⟩
    · have hone := (hrestart s a s' seen next (by simp [hseen])).1
      rcases rest with _ | ⟨o, rest⟩
      · exact hnow hseen.symm
      · rw [hone, List.cons_append] at hseen
        simp at hseen
    · rcases rest with _ | ⟨o, rest⟩
      · exact hnow hafter
      · obtain ⟨rfl, hrest⟩ := List.cons.inj hafter
        obtain ⟨t, ht, hlike⟩ := ih hbefore
        obtain ⟨t', hnext, hlike'⟩ := hstep s t a s' seen hlike next
        have hafter : after = rest ++ seen := hrest
        rw [hafter]
        exact ⟨t', ht.step hnext, hlike'⟩

/-! ## Calls -/

/-- A step as it was taken: the state before it, its action, and what was seen. -/
structure Taken (σ α ο : Type) where
  before : σ
  action : α
  seen : List ο

/-- What was seen along some steps. -/
def trace (steps : List (Taken σ α ο)) : List ο := steps.flatMap Taken.seen

@[simp]
theorem trace_nil : trace ([] : List (Taken σ α ο)) = [] := rfl

@[simp]
theorem trace_cons (step : Taken σ α ο) (steps : List (Taken σ α ο)) :
    trace (step :: steps) = step.seen ++ trace steps := List.flatMap_cons

@[simp]
theorem trace_append (steps rest : List (Taken σ α ο)) :
    trace (steps ++ rest) = trace steps ++ trace rest := List.flatMap_append

/-- `M.Finishes idle s steps s'`: the steps lead from `s` to the next idle state `s'`. -/
inductive Finishes (M : Machine σ α ο) (idle : σ → Bool) : σ → List (Taken σ α ο) → σ → Prop
  | done {s : σ} (rest : idle s = true) : Finishes M idle s [] s
  | step {s t u : σ} {a : α} {seen : List ο} {steps : List (Taken σ α ο)}
      (busy : idle s = false) (next : M.step s a = some (t, seen))
      (finish : Finishes M idle t steps u) : Finishes M idle s (⟨s, a, seen⟩ :: steps) u

/-- `M.Call idle a s steps s'`: the call that `a` makes in `s`, up to its end. -/
inductive Call (M : Machine σ α ο) (idle : σ → Bool) (a : α) (s : σ) :
    List (Taken σ α ο) → σ → Prop
  | intro {t u : σ} {seen : List ο} {steps : List (Taken σ α ο)}
      (next : M.step s a = some (t, seen)) (finish : Finishes M idle t steps u) :
      Call M idle a s (⟨s, a, seen⟩ :: steps) u

/-- From an idle state there is nothing left to do. -/
theorem Finishes.of_idle {idle : σ → Bool} {s s' : σ} {steps : List (Taken σ α ο)}
    (h : M.Finishes idle s steps s') (hidle : idle s = true) : steps = [] ∧ s' = s := by
  cases h with
  | done => exact ⟨rfl, rfl⟩
  | step busy =>
    rw [hidle] at busy
    cases busy

/-- They end in an idle state. -/
theorem Finishes.ended {idle : σ → Bool} {s s' : σ} {steps : List (Taken σ α ο)}
    (h : M.Finishes idle s steps s') : idle s' = true := by
  induction h with
  | done rest => exact rest
  | step _ _ _ ih => exact ih

/-- Execute actions up to the next idle state. -/
def finish? (M : Machine σ α ο) (idle : σ → Bool) (s : σ) :
    List α → Option (List (Taken σ α ο) × σ)
  | [] => if idle s then some ([], s) else none
  | a :: actions =>
    if idle s then none
    else do
      let (t, seen) ← M.step s a
      let (steps, u) ← M.finish? idle t actions
      return (⟨s, a, seen⟩ :: steps, u)

/-- Execute a call. -/
def call? (M : Machine σ α ο) (idle : σ → Bool) (a : α) (s : σ) (actions : List α) :
    Option (List (Taken σ α ο) × σ) := do
  let (t, seen) ← M.step s a
  let (steps, u) ← M.finish? idle t actions
  return (⟨s, a, seen⟩ :: steps, u)

theorem finishes_of_finish? {idle : σ → Bool} {actions : List α} {s s' : σ}
    {steps : List (Taken σ α ο)} (h : M.finish? idle s actions = some (steps, s')) :
    M.Finishes idle s steps s' := by
  induction actions generalizing s steps with
  | nil =>
    cases hidle : idle s with
    | true =>
      rw [finish?, if_pos hidle] at h
      obtain ⟨rfl, rfl⟩ := Prod.mk.inj (Option.some.inj h)
      exact .done hidle
    | false =>
      rw [finish?, if_neg (by simp [hidle])] at h
      cases h
  | cons a actions ih =>
    cases hidle : idle s with
    | true =>
      rw [finish?, if_pos hidle] at h
      cases h
    | false =>
      rw [finish?, if_neg (by simp [hidle])] at h
      simp only [Option.bind_eq_bind, Option.bind_eq_some_iff, Option.pure_def, Option.some.injEq,
        Prod.mk.injEq, Prod.exists] at h
      obtain ⟨t, seen, hstep, rest, u, hrest, rfl, rfl⟩ := h
      exact .step hidle hstep (ih hrest)

/-- **Executed actions are a call.** -/
theorem call_of_call? {idle : σ → Bool} {a : α} {actions : List α} {s s' : σ}
    {steps : List (Taken σ α ο)} (h : M.call? idle a s actions = some (steps, s')) :
    M.Call idle a s steps s' := by
  simp only [call?, Option.bind_eq_bind, Option.bind_eq_some_iff, Option.pure_def,
    Option.some.injEq, Prod.mk.injEq, Prod.exists] at h
  obtain ⟨t, seen, hstep, rest, u, hrest, rfl, rfl⟩ := h
  exact .intro hstep (finishes_of_finish? hrest)

end Machine

/-! ## Logs of calls -/

/-- `Logged step s log s'`: calls made one after the other, each with its outcome, lead from
`s` to `s'`. -/
inductive Logged {σ γ ο : Type} (step : σ → γ → ο → σ → Prop) : σ → List (γ × ο) → σ → Prop
  | nil {s : σ} : Logged step s [] s
  | cons {s t u : σ} {call : γ} {outcome : ο} {log : List (γ × ο)} (next : step s call outcome t)
      (rest : Logged step t log u) : Logged step s ((call, outcome) :: log) u

namespace Logged

variable {σ τ γ ο ρ : Type}

/-- Make calls one after the other. -/
def session (perform : τ → γ → ο × τ) (t : τ) : List γ → List (γ × ο) × τ
  | [] => ([], t)
  | call :: calls =>
    let (outcome, t') := perform t call
    let (log, t'') := session perform t' calls
    ((call, outcome) :: log, t'')

@[simp]
theorem map_fst_session (perform : τ → γ → ο × τ) (t : τ) (calls : List γ) :
    (session perform t calls).1.map Prod.fst = calls := by
  induction calls generalizing t with
  | nil => rfl
  | cons call calls ih => exact congrArg (call :: ·) (ih _)

/-- **An implementation whose calls are those of a specification**, under what its states
stand for, makes logs of the specification. -/
theorem of_perform {step : σ → γ → ο → σ → Prop} {perform : τ → γ → ο × τ} (abstract : τ → σ)
    (h : ∀ t call, step (abstract t) call (perform t call).1 (abstract (perform t call).2))
    (t : τ) (calls : List γ) :
    Logged step (abstract t) (session perform t calls).1
      (abstract (session perform t calls).2) := by
  induction calls generalizing t with
  | nil => exact nil
  | cons call calls ih => exact cons (h t call) (ih _)

/-- What is seen of a state is a fold over the log, if every call changes it so. -/
theorem fold {step : σ → γ → ο → σ → Prop} {record : ρ → γ × ο → ρ} (view : σ → ρ)
    (h : ∀ s call outcome t, step s call outcome t → view t = record (view s) (call, outcome))
    {s t : σ} {log : List (γ × ο)} (hlog : Logged step s log t) :
    view t = log.foldl record (view s) := by
  induction hlog with
  | nil => rfl
  | cons next _ ih =>
    rw [List.foldl_cons, ← h _ _ _ _ next]
    exact ih

/-- What the calls of a log keep holds behind it. -/
theorem kept {step : σ → γ → ο → σ → Prop} (p : σ → Prop) (keeps : γ → Prop)
    (h : ∀ s call outcome t, keeps call → p s → step s call outcome t → p t)
    {s t : σ} {log : List (γ × ο)} (hlog : Logged step s log t)
    (hkeeps : ∀ call ∈ log.map Prod.fst, keeps call) (hs : p s) : p t := by
  induction hlog with
  | nil => exact hs
  | cons next _ ih =>
    rw [List.map_cons, List.forall_mem_cons] at hkeeps
    exact ih hkeeps.2 (h _ _ _ _ hkeeps.1 hs next)

end Logged
