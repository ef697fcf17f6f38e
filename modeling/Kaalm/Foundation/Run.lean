/-
  Foundation/Run.lean --- runs of an event system.

  A system is a partial step function `step : State → Event → Option State`: an event
  that is not enabled in a state has no successor.  A run has a guard on the state
  before each step, so that "every run", "every run whose steps all meet a condition"
  and "every state reached" are one notion.

  THE RULE USED EVERYWHERE.  `Run.invariant`: a property that every guarded step
  keeps holds in every state a guarded run reaches.  `exec` is the executable
  reading of the unguarded relation, for witnesses on concrete schedules.
-/
import Mathlib.Tactic.Common

namespace Kaalm.Foundation

variable {State Event : Type*}

/-- A run of `step` from one state to another along a list of events, every step
of which meets the guard in the state before it. -/
inductive Run (step : State → Event → Option State) (guard : State → Event → Prop) :
    State → List Event → State → Prop
  | nil (s : State) : Run step guard s [] s
  | cons {s mid final : State} {e : Event} {es : List Event} :
      guard s e → step s e = some mid → Run step guard mid es final →
      Run step guard s (e :: es) final

/-- The guard of a run that is not restricted. -/
def anyStep : State → Event → Prop := fun _ _ => True

namespace Run

variable {step : State → Event → Option State} {guard guard' : State → Event → Prop}
  {es : List Event} {final s : State}

/-- The invariant rule: what every guarded step keeps, a guarded run keeps. -/
theorem invariant {I : State → Prop} (hstep : ∀ s e s', I s → guard s e → step s e = some s' → I s')
    (hrun : Run step guard s es final) (hs : I s) : I final := by
  induction hrun with
  | nil s => exact hs
  | cons hg hst _ ih => exact ih (hstep _ _ _ hs hg hst)

/-- The rule for what holds until something has happened: if a step loses `I` only
where `P` holds, a run that ends without `I` has met a state with `P`. -/
theorem keeps_until {I P : State → Prop}
    (hstep : ∀ s e s', I s → ¬P s → guard s e → step s e = some s' → I s')
    (hrun : Run step guard s es final) (hs : I s) :
    I final ∨ ∃ es₁ es₂ mid, es = es₁ ++ es₂ ∧ Run step guard s es₁ mid ∧
      Run step guard mid es₂ final ∧ P mid := by
  induction hrun with
  | nil s => exact .inl hs
  | @cons s mid final e es hg hst hrest ih =>
    by_cases hP : P s
    · exact .inr ⟨[], e :: es, s, rfl, .nil s, .cons hg hst hrest, hP⟩
    · rcases ih (hstep _ _ _ hs hP hg hst) with hI | ⟨es₁, es₂, met, rfl, h₁, h₂, hmet⟩
      · exact .inl hI
      · exact .inr ⟨e :: es₁, es₂, met, rfl, .cons hg hst h₁, h₂, hmet⟩

theorem split (es₁ : List Event) {es₂ : List Event} (h : Run step guard s (es₁ ++ es₂) final) :
    ∃ mid, Run step guard s es₁ mid ∧ Run step guard mid es₂ final := by
  induction es₁ generalizing s with
  | nil => exact ⟨s, .nil s, by simpa using h⟩
  | cons e es ih =>
    cases h with
    | cons hg hst hrest =>
      obtain ⟨mid, h₁, h₂⟩ := ih hrest
      exact ⟨mid, .cons hg hst h₁, h₂⟩

theorem weaken (himp : ∀ s e, guard s e → guard' s e) (hrun : Run step guard s es final) :
    Run step guard' s es final := by
  induction hrun with
  | nil s => exact .nil s
  | cons hg hst _ ih => exact .cons (himp _ _ hg) hst ih

theorem restrict {G : Event → Prop} (hrun : Run step guard s es final) (hes : ∀ e ∈ es, G e) :
    Run step (fun s e => guard s e ∧ G e) s es final := by
  induction hrun with
  | nil s => exact .nil s
  | cons hg hst _ ih =>
    exact .cons ⟨hg, hes _ List.mem_cons_self⟩ hst
      (ih fun e he => hes e (List.mem_cons_of_mem _ he))

end Run

/-- The executable reading of an unrestricted run. -/
def exec (step : State → Event → Option State) : State → List Event → Option State
  | s, [] => some s
  | s, e :: es => (step s e).bind fun s' => exec step s' es

theorem exec_singleton (step : State → Event → Option State) (s : State) (e : Event) :
    exec step s [e] = step s e := Option.bind_fun_some _

variable {step : State → Event → Option State}

variable {es : List Event} {guard : State → Event → Prop} {s : State}

theorem exec_of_run {final : State} (hrun : Run step guard s es final) :
    exec step s es = some final := by
  induction hrun with
  | nil s => rfl
  | cons _ hst _ ih => rw [exec, hst, Option.bind_some, ih]

theorem exec_eq_some_getD (d : State) (h : (exec step s es).isSome = true) :
    exec step s es = some ((exec step s es).getD d) := by
  obtain ⟨final, hfinal⟩ := Option.isSome_iff_exists.mp h
  rw [hfinal]
  rfl

/-- The rule for an event that is enabled until the goal is met and brings it nearer each time:
enough of them meet it. -/
theorem exists_exec_of_decreasing {I P : State → Prop} (e : Event) (rank : State → Nat)
    (hstep : ∀ s, I s → P s ∨ ∃ s', step s e = some s' ∧ I s' ∧ rank s' < rank s) (s : State)
    (hI : I s) : ∃ n s', exec step s (List.replicate n e) = some s' ∧ I s' ∧ P s' := by
  induction hrank : rank s using Nat.strongRecOn generalizing s with
  | _ r ih =>
    rcases hstep s hI with hP | ⟨mid, hmid, hImid, hless⟩
    · exact ⟨0, s, rfl, hI, hP⟩
    · obtain ⟨n, s', hexec, hrest⟩ := ih (rank mid) (hrank ▸ hless) mid hImid rfl
      refine ⟨n + 1, s', ?_, hrest⟩
      rw [List.replicate_succ, exec, hmid]
      exact hexec

/-- An execution whose events meet the guard in every state is a guarded run. -/
theorem run_of_exec_guard {final : State} (hg : ∀ s, ∀ e ∈ es, guard s e)
    (h : exec step s es = some final) : Run step guard s es final := by
  induction es generalizing s with
  | nil => cases h; exact .nil _
  | cons e es ih =>
    obtain ⟨mid, hmid, hrest⟩ := Option.bind_eq_some_iff.mp h
    exact .cons (hg s e List.mem_cons_self) hmid
      (ih (fun s e he => hg s e (List.mem_cons_of_mem _ he)) hrest)

theorem run_getD_of_guard (hguard : ∀ s, ∀ e ∈ es, guard s e) (h : (exec step s es).isSome = true) :
    Run step guard s es ((exec step s es).getD s) :=
  run_of_exec_guard hguard (exec_eq_some_getD s h)

theorem run_any (h : (exec step s es).isSome = true) :
    Run step anyStep s es ((exec step s es).getD s) := run_getD_of_guard (fun _ _ _ => trivial) h

theorem exists_step_of_exec {e : Event} {check : State → State → Bool}
    (h : (exec step s es).any (fun t => (step t e).any (check t)) = true) :
    ∃ t t', Run step anyStep s es t ∧ step t e = some t' ∧ check t t' = true := by
  obtain ⟨t, ht, h⟩ := (Option.any_eq_true _ _).mp h
  obtain ⟨t', hst, h⟩ := (Option.any_eq_true _ _).mp h
  exact ⟨t, t', run_of_exec_guard (fun _ _ _ => trivial) ht, hst, h⟩

def guarded (check : State → Event → Bool) (step : State → Event → Option State) (s : State)
    (e : Event) : Option State :=
  if check s e then step s e else none

/-- An execution that checks a guard before every step is a run under it. -/
theorem run_of_exec_guarded {check : State → Event → Bool} {final : State}
    (h : exec (guarded check step) s es = some final) :
    Run step (fun s e => check s e = true) s es final := by
  induction es generalizing s with
  | nil => cases h; exact .nil _
  | cons e es ih =>
    obtain ⟨mid, hmid, hrest⟩ := Option.bind_eq_some_iff.mp h
    unfold guarded at hmid
    split at hmid
    · next hcheck => exact .cons hcheck hmid (ih hrest)
    · cases hmid

theorem run_getD {check : State → Event → Bool}
    (h : (exec (guarded check step) s es).isSome = true) :
    Run step (fun s e => check s e = true) s es ((exec (guarded check step) s es).getD s) :=
  run_of_exec_guarded (exec_eq_some_getD s h)

end Kaalm.Foundation
