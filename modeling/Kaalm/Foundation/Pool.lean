/-
  Foundation/Pool.lean --- many programs over one store.

  A pool runs at most one program per worker and keeps, with each, its history.
  A step starts a worker's program, performs its next operation, crashes it, or
  lets the environment move.

  THE RULE.  `Proof.run`: an operation is performed only on a history its specification
  admits, so it is enough to say what a history tells about the store (`Knows`), that
  nobody else spoils it, and what an admitted operation does to the invariant.
-/
import Kaalm.Foundation.Prog
import Kaalm.Foundation.Run

namespace Kaalm.Foundation

/-- A program under way: its history and what is left of it. -/
structure Pass (Op : Type) (Ans : Op → Type) (Err : Type) where
  trace : Trace Op Ans Err
  rest : Prog Op Ans Err Unit

/-- The store and the programs under way. -/
structure Pool (S W : Type) (Op : Type) (Ans : Op → Type) (Err : Type) where
  world : S
  passes : W → Option (Pass Op Ans Err)

inductive PoolEvent (W Choice EnvEvent : Type) where
  | start (w : W)
  | exec (w : W) (c : Choice)
  | crash (w : W)
  | env (e : EnvEvent)
  deriving DecidableEq, Repr

/-- The programs, how an operation executes, and how the environment moves. -/
structure PoolSpec (S W : Type) (Op : Type) (Ans : Op → Type) (Err Choice EnvEvent : Type) where
  program : W → Prog Op Ans Err Unit
  execute : (op : Op) → Choice → S → Option (Except Err (Ans op) × S)
  env : S → EnvEvent → Option S

namespace PoolSpec

variable {S W : Type} {Op : Type} {Ans : Op → Type} {Err Choice EnvEvent : Type}

def pending (tr : Trace Op Ans Err) : Prog Op Ans Err Unit → Option (Pass Op Ans Err)
  | .ret _ => none
  | .fail _ => none
  | .call op k => some ⟨tr, .call op k⟩

theorem of_pending {tr : Trace Op Ans Err} {p : Prog Op Ans Err Unit} {x : Pass Op Ans Err}
    (h : pending tr p = some x) : x = ⟨tr, p⟩ := by
  cases p with
  | ret | fail => cases h
  | call op k => cases h; rfl

variable [DecidableEq W] (spec : PoolSpec S W Op Ans Err Choice EnvEvent)

def step (σ : Pool S W Op Ans Err) : PoolEvent W Choice EnvEvent → Option (Pool S W Op Ans Err)
  | .start w =>
    match σ.passes w with
    | none => some { σ with passes := Function.update σ.passes w (pending [] (spec.program w)) }
    | some _ => none
  | .exec w c =>
    match σ.passes w with
    | some ⟨tr, .call op k⟩ =>
      (spec.execute op c σ.world).map fun x =>
        { world := x.2
          passes := Function.update σ.passes w (pending (⟨op, x.1⟩ :: tr) (k x.1)) }
    | _ => none
  | .crash w => some { σ with passes := Function.update σ.passes w none }
  | .env e => (spec.env σ.world e).map fun s => { σ with world := s }

def idle (s : S) : Pool S W Op Ans Err := ⟨s, fun _ => none⟩

/-- Worker `w` performs `op` after the history `tr`, and the store becomes `s'`. -/
structure Performs (σ : Pool S W Op Ans Err) (w : W) (c : Choice) (tr : Trace Op Ans Err)
    (op : Op) (r : Except Err (Ans op)) (s' : S) : Prop where
  pass : ∃ k, σ.passes w = some ⟨tr, .call op k⟩
  result : spec.execute op c σ.world = some (r, s')

variable {σ σ' : Pool S W Op Ans Err}

/-- What a step can do to the store: nothing, one operation, or a move of the
environment. -/
theorem step_world {e : PoolEvent W Choice EnvEvent} (hst : spec.step σ e = some σ') :
    σ'.world = σ.world ∨
    (∃ w c tr op r, e = .exec w c ∧ spec.Performs σ w c tr op r σ'.world) ∨
    (∃ x, e = .env x ∧ spec.env σ.world x = some σ'.world) := by
  cases e with
  | start w =>
    simp only [PoolSpec.step] at hst
    split at hst
    · cases hst; exact .inl rfl
    · cases hst
  | crash w => cases hst; exact .inl rfl
  | exec w c =>
    simp only [PoolSpec.step] at hst
    split at hst
    · rename_i tr op k hw
      obtain ⟨⟨r, s'⟩, hx, rfl⟩ := Option.map_eq_some_iff.mp hst
      exact .inr (.inl ⟨w, c, tr, op, r, rfl, ⟨k, hw⟩, hx⟩)
    · cases hst
  | env x =>
    obtain ⟨s', hx, rfl⟩ := Option.map_eq_some_iff.mp hst
    exact .inr (.inr ⟨x, rfl, hx⟩)

/-- Everything the invariant of a pool rests on. -/
structure Proof (C : W → Contract Op Ans Err) (Inv : S → Prop)
    (Knows : W → Trace Op Ans Err → S → Prop)
    (guard : Pool S W Op Ans Err → PoolEvent W Choice EnvEvent → Prop) : Prop where
  safe : ∀ w, (spec.program w).Safe (C w) (fun _ _ => True) []
  start : ∀ w s, Inv s → Knows w [] s
  answers : ∀ σ w c tr op r s', Inv σ.world → spec.Performs σ w c tr op r s' →
    (C w).answers ⟨op, r⟩
  exec : ∀ σ w c tr op r s', Inv σ.world → Knows w tr σ.world → guard σ (.exec w c) →
    (C w).allows tr op → spec.Performs σ w c tr op r s' →
    Inv s' ∧ Knows w (⟨op, r⟩ :: tr) s' ∧
      ∀ w' x, w' ≠ w → σ.passes w' = some x → Knows w' x.trace σ.world → Knows w' x.trace s'
  env : ∀ σ e s', Inv σ.world → guard σ (.env e) → spec.env σ.world e = some s' →
    Inv s' ∧ ∀ w x, σ.passes w = some x → Knows w x.trace σ.world → Knows w x.trace s'

/-- The invariant of the store, what every history tells, and the safety of every
program under way. -/
structure Sound (C : W → Contract Op Ans Err) (Inv : S → Prop)
    (Knows : W → Trace Op Ans Err → S → Prop) (σ : Pool S W Op Ans Err) : Prop where
  inv : Inv σ.world
  knows : ∀ w x, σ.passes w = some x → Knows w x.trace σ.world
  safe : ∀ w x, σ.passes w = some x → x.rest.Safe (C w) (fun _ _ => True) x.trace

variable {spec} {C : W → Contract Op Ans Err} {Inv : S → Prop}
  {Knows : W → Trace Op Ans Err → S → Prop}
  {guard : Pool S W Op Ans Err → PoolEvent W Choice EnvEvent → Prop}

omit [DecidableEq W] in
theorem sound_idle {s : S} (h : Inv s) : Sound C Inv Knows (idle s) :=
  ⟨h, fun _ _ hp => (by cases hp), fun _ _ hp => (by cases hp)⟩

theorem Sound.update {w : W} {s : S} {next : Option (Pass Op Ans Err)} (hinv : Inv s)
    (hknows : ∀ x, next = some x → Knows w x.trace s)
    (hsafe : ∀ x, next = some x → x.rest.Safe (C w) (fun _ _ => True) x.trace)
    (hothers : ∀ w', w' ≠ w → ∀ x, σ.passes w' = some x →
      Knows w' x.trace s ∧ x.rest.Safe (C w') (fun _ _ => True) x.trace) :
    Sound C Inv Knows ⟨s, Function.update σ.passes w next⟩ := by
  refine ⟨hinv, fun w' x hx => ?_, fun w' x hx => ?_⟩
  all_goals
    dsimp only at hx
    by_cases hw : w' = w
  · subst hw
    rw [Function.update_self] at hx
    exact hknows x hx
  · rw [Function.update_of_ne hw] at hx
    exact (hothers w' hw x hx).1
  · subst hw
    rw [Function.update_self] at hx
    exact hsafe x hx
  · rw [Function.update_of_ne hw] at hx
    exact (hothers w' hw x hx).2

omit [DecidableEq W] in
/-- An operation performed in a sound pool is one its specification admits. -/
theorem Sound.admits (hσ : Sound C Inv Knows σ) {w : W} {c : Choice} {tr : Trace Op Ans Err}
    {op : Op} {r : Except Err (Ans op)} {s' : S} (hp : spec.Performs σ w c tr op r s') :
    (C w).allows tr op ∧ Knows w tr σ.world := by
  obtain ⟨k, hk⟩ := hp.pass
  exact ⟨(hσ.safe w _ hk).1, hσ.knows w _ hk⟩

theorem Proof.step_sound (hproof : spec.Proof C Inv Knows guard) {e : PoolEvent W Choice EnvEvent}
    (hσ : Sound C Inv Knows σ) (hg : guard σ e) (hst : spec.step σ e = some σ') :
    Sound C Inv Knows σ' := by
  have hsame : ∀ w, ∀ w', w' ≠ w → ∀ x, σ.passes w' = some x →
      Knows w' x.trace σ.world ∧ x.rest.Safe (C w') (fun _ _ => True) x.trace :=
    fun _ w' _ x hx => ⟨hσ.knows w' x hx, hσ.safe w' x hx⟩
  cases e with
  | start w =>
    simp only [PoolSpec.step] at hst
    split at hst
    · cases hst
      refine Sound.update hσ.inv (fun x hx => ?_) (fun x hx => ?_) (hsame w)
      · rw [of_pending hx]; exact hproof.start w _ hσ.inv
      · rw [of_pending hx]; exact hproof.safe w
    · cases hst
  | exec w c =>
    simp only [PoolSpec.step] at hst
    split at hst
    · rename_i tr op k hw
      obtain ⟨⟨r, s'⟩, hx, rfl⟩ := Option.map_eq_some_iff.mp hst
      have hperf : spec.Performs σ w c tr op r s' := ⟨⟨k, hw⟩, hx⟩
      obtain ⟨hallow, hknow⟩ := hσ.admits hperf
      obtain ⟨hinv, hself, hothers⟩ := hproof.exec σ w c tr op r s' hσ.inv hknow hg hallow hperf
      refine Sound.update hinv (fun x hx => ?_) (fun x hx => ?_) fun w' hw' x hx => ?_
      · rw [of_pending hx]; exact hself
      · rw [of_pending hx]; exact (hσ.safe w _ hw).2 r
          (hproof.answers σ w c tr op r s' hσ.inv hperf)
      · exact ⟨hothers w' x hw' hx (hσ.knows w' x hx), hσ.safe w' x hx⟩
    · cases hst
  | crash w =>
    cases hst
    exact Sound.update hσ.inv (fun x hx => by cases hx) (fun x hx => by cases hx) (hsame w)
  | env e =>
    obtain ⟨s', hx, rfl⟩ := Option.map_eq_some_iff.mp hst
    obtain ⟨hinv, hknows⟩ := hproof.env σ e s' hσ.inv hg hx
    exact ⟨hinv, fun w x hp => hknows w x hp (hσ.knows w x hp), hσ.safe⟩

omit [DecidableEq W] in
/-- A second invariant on top of a first: its steps may use what the first one
says before the step, and what it says of the store and of the worker after it. -/
theorem Proof.extend (hproof : spec.Proof C Inv Knows guard) {Inv' : S → Prop}
    {Knows' : W → Trace Op Ans Err → S → Prop}
    {guard' : Pool S W Op Ans Err → PoolEvent W Choice EnvEvent → Prop}
    (hguard : ∀ σ e, guard' σ e → guard σ e)
    (hstart : ∀ w s, Inv s → Inv' s → Knows' w [] s)
    (hexec : ∀ σ w c tr op r s', Inv σ.world → Inv' σ.world → Knows w tr σ.world →
      Knows' w tr σ.world → guard' σ (.exec w c) → (C w).allows tr op →
      spec.Performs σ w c tr op r s' → Knows w (⟨op, r⟩ :: tr) s' →
      Inv' s' ∧ Knows' w (⟨op, r⟩ :: tr) s' ∧
        ∀ w' x, w' ≠ w → σ.passes w' = some x → Knows w' x.trace σ.world →
          Knows' w' x.trace σ.world → Knows' w' x.trace s')
    (henv : ∀ σ e s', Inv σ.world → Inv' σ.world → guard' σ (.env e) →
      spec.env σ.world e = some s' →
      Inv' s' ∧ ∀ w x, σ.passes w = some x → Knows w x.trace σ.world →
        Knows' w x.trace σ.world → Knows' w x.trace s') :
    spec.Proof C (fun s => Inv s ∧ Inv' s) (fun w tr s => Knows w tr s ∧ Knows' w tr s)
      guard' where
  safe := hproof.safe
  start w s h := ⟨hproof.start w s h.1, hstart w s h.1 h.2⟩
  answers σ w c tr op r s' h hp := hproof.answers σ w c tr op r s' h.1 hp
  exec := by
    intro σ w c tr op r s' hinv hknows hg hallow hp
    obtain ⟨hi, hk, hothers⟩ :=
      hproof.exec σ w c tr op r s' hinv.1 hknows.1 (hguard _ _ hg) hallow hp
    obtain ⟨hi', hk', hothers'⟩ :=
      hexec σ w c tr op r s' hinv.1 hinv.2 hknows.1 hknows.2 hg hallow hp hk
    exact ⟨⟨hi, hi'⟩, ⟨hk, hk'⟩, fun w' x hw hx h =>
      ⟨hothers w' x hw hx h.1, hothers' w' x hw hx h.1 h.2⟩⟩
  env := by
    intro σ e s' hinv hg he
    obtain ⟨hi, hk⟩ := hproof.env σ e s' hinv.1 (hguard _ _ hg) he
    obtain ⟨hi', hk'⟩ := henv σ e s' hinv.1 hinv.2 hg he
    exact ⟨⟨hi, hi'⟩, fun w x hx h => ⟨hk w x hx h.1, hk' w x hx h.1 h.2⟩⟩

omit [DecidableEq W] in
/-- A second invariant of the store alone. -/
theorem Proof.keep (hproof : spec.Proof C Inv Knows guard) {Inv' : S → Prop}
    {guard' : Pool S W Op Ans Err → PoolEvent W Choice EnvEvent → Prop}
    (hguard : ∀ σ e, guard' σ e → guard σ e)
    (hexec : ∀ σ w c tr op r s', Inv σ.world → Inv' σ.world → Knows w tr σ.world →
      guard' σ (.exec w c) → (C w).allows tr op → spec.Performs σ w c tr op r s' → Inv' s')
    (henv : ∀ σ e s', Inv σ.world → Inv' σ.world → guard' σ (.env e) →
      spec.env σ.world e = some s' → Inv' s') :
    spec.Proof C (fun s => Inv s ∧ Inv' s) Knows guard' := by
  have h : spec.Proof C (fun s => Inv s ∧ Inv' s) (fun w tr s => Knows w tr s ∧ True) guard' :=
    hproof.extend hguard (fun _ _ _ _ => trivial)
      (fun σ w c tr op r s' hi hi' hk _ hg ha hp _ =>
        ⟨hexec σ w c tr op r s' hi hi' hk hg ha hp, trivial, fun _ _ _ _ _ _ => trivial⟩)
      fun σ e s' hi hi' hg he => ⟨henv σ e s' hi hi' hg he, fun _ _ _ _ _ => trivial⟩
  simpa only [and_true] using h

omit [DecidableEq W] in
/-- More that a history tells, under the same invariant. -/
theorem Proof.learn (hproof : spec.Proof C Inv Knows guard)
    {Knows' : W → Trace Op Ans Err → S → Prop}
    {guard' : Pool S W Op Ans Err → PoolEvent W Choice EnvEvent → Prop}
    (hguard : ∀ σ e, guard' σ e → guard σ e) (hstart : ∀ w s, Inv s → Knows' w [] s)
    (hexec : ∀ σ w c tr op r s', Inv σ.world → Knows w tr σ.world → Knows' w tr σ.world →
      guard' σ (.exec w c) → (C w).allows tr op → spec.Performs σ w c tr op r s' →
      Knows' w (⟨op, r⟩ :: tr) s' ∧
        ∀ w' x, w' ≠ w → σ.passes w' = some x → Knows w' x.trace σ.world →
          Knows' w' x.trace σ.world → Knows' w' x.trace s')
    (henv : ∀ σ e s', Inv σ.world → guard' σ (.env e) → spec.env σ.world e = some s' →
      ∀ w x, σ.passes w = some x → Knows w x.trace σ.world → Knows' w x.trace σ.world →
        Knows' w x.trace s') :
    spec.Proof C Inv (fun w tr s => Knows w tr s ∧ Knows' w tr s) guard' := by
  have h : spec.Proof C (fun s => Inv s ∧ True)
      (fun w tr s => Knows w tr s ∧ Knows' w tr s) guard' :=
    hproof.extend hguard (fun w s hi _ => hstart w s hi)
      (fun σ w c tr op r s' hi _ hk hk' hg ha hp _ =>
        ⟨trivial, hexec σ w c tr op r s' hi hk hk' hg ha hp⟩)
      fun σ e s' hi _ hg he => ⟨trivial, henv σ e s' hi hg he⟩
  simpa only [and_true] using h

/-- Every program under way is safe after its history. -/
def Obeys (C : W → Contract Op Ans Err) (σ : Pool S W Op Ans Err) : Prop :=
  ∀ w x, σ.passes w = some x → x.rest.Safe (C w) (fun _ _ => True) x.trace

/-- Where the answers promise something in every state, safety needs no invariant. -/
theorem Obeys.step (hsafe : ∀ w, (spec.program w).Safe (C w) (fun _ _ => True) [])
    (hanswers : ∀ σ w c tr op r s', spec.Performs σ w c tr op r s' → (C w).answers ⟨op, r⟩)
    {e : PoolEvent W Choice EnvEvent} (h : Obeys C σ) (hst : spec.step σ e = some σ') :
    Obeys C σ' := by
  have hproof : spec.Proof C (fun _ => True) (fun _ _ _ => True) fun _ _ => True :=
    ⟨hsafe, fun _ _ _ => trivial, fun σ w c tr op r s' _ => hanswers σ w c tr op r s',
      fun _ _ _ _ _ _ _ _ _ _ _ _ => ⟨trivial, trivial, fun _ _ _ _ _ => trivial⟩,
      fun _ _ _ _ _ _ => ⟨trivial, fun _ _ _ _ => trivial⟩⟩
  exact (hproof.step_sound ⟨trivial, fun _ _ _ => trivial, h⟩ trivial hst).safe

/-- The rule: a sound pool stays sound along every guarded run. -/
theorem Proof.run (hproof : spec.Proof C Inv Knows guard) {es : List (PoolEvent W Choice EnvEvent)}
    (hrun : Run spec.step guard σ es σ') (hσ : Sound C Inv Knows σ) : Sound C Inv Knows σ' :=
  hrun.invariant (fun _ _ _ h hg hst => hproof.step_sound h hg hst) hσ

end PoolSpec

end Kaalm.Foundation
