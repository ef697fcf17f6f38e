/-
  Foundation/Prog.lean --- programs that talk to a shared store, and a logic for
  what they have seen before they write.

  WHAT A PROGRAM IS.  A `Prog` performs one operation of an interface at a time
  and goes on from the answer; an error that is not attended to ends it.  Between two
  operations the store belongs to everybody else, so a program knows nothing but its
  own history: its operations and their answers (`Trace`, latest first).

  THE LOGIC.  `Safe spec Q p tr`: going on with `p` after the history `tr`, every
  operation meets `spec` on the history before it, and a normal return meets `Q`.  It
  is a weakest precondition over histories; what a history says about the store is the
  business of whoever owns the store (`Foundation/Pool.lean`).  `Returns` is the total
  version: the program does not end in an error either.  `Reach` is what both are
  about, the histories a program can have and what is left to do.
-/
import Mathlib.Tactic.Common

namespace Kaalm.Foundation

/-- A program over the operations `Op` with answers `Ans` and errors `Err`. -/
inductive Prog (Op : Type) (Ans : Op → Type) (Err : Type) (α : Type) : Type
  | ret (a : α)
  | fail (e : Err)
  | call (op : Op) (k : Except Err (Ans op) → Prog Op Ans Err α)

/-- One operation and what it answered. -/
structure Obs (Op : Type) (Ans : Op → Type) (Err : Type) where
  op : Op
  ans : Except Err (Ans op)

/-- A history, latest first. -/
abbrev Trace (Op : Type) (Ans : Op → Type) (Err : Type) : Type := List (Obs Op Ans Err)

namespace Prog

variable {Op : Type} {Ans : Op → Type} {Err : Type} {α β : Type}

/-- Sequencing; an error ends the program. -/
def bind : Prog Op Ans Err α → (α → Prog Op Ans Err β) → Prog Op Ans Err β
  | ret a, f => f a
  | fail e, _ => fail e
  | call op k, f => call op fun r => (k r).bind f

instance : Monad (Prog Op Ans Err) where
  pure := ret
  bind := bind

def perform (op : Op) : Prog Op Ans Err (Ans op) :=
  call op fun
    | .ok a => ret a
    | .error e => fail e

/-- Perform one operation and look at its error. -/
def attempt (op : Op) : Prog Op Ans Err (Except Err (Ans op)) := call op ret

/-! ## The logic -/

end Prog

/-- What may be taken for granted of an answer, and which operations a history
admits. -/
structure Contract (Op : Type) (Ans : Op → Type) (Err : Type) where
  answers : Obs Op Ans Err → Prop
  allows : Trace Op Ans Err → Op → Prop

def Contract.Infallible {Op : Type} {Ans : Op → Type} {Err : Type} (C : Contract Op Ans Err) :
    Prop := ∀ op e, ¬ C.answers ⟨op, .error e⟩

namespace Prog

variable {Op : Type} {Ans : Op → Type} {Err : Type} {α β : Type}

/-- Every operation from here on is allowed, and a normal return meets `Q`. -/
def Safe (C : Contract Op Ans Err) (Q : α → Trace Op Ans Err → Prop) :
    Prog Op Ans Err α → Trace Op Ans Err → Prop
  | ret a, tr => Q a tr
  | fail _, _ => True
  | call op k, tr =>
    C.allows tr op ∧ ∀ r, C.answers ⟨op, r⟩ → Safe C Q (k r) (⟨op, r⟩ :: tr)

variable {C : Contract Op Ans Err} {tr : Trace Op Ans Err} {Q Q' : α → Trace Op Ans Err → Prop}
  {R : β → Trace Op Ans Err → Prop} {p : Prog Op Ans Err α} {f : α → Prog Op Ans Err β}

/-- The weakest precondition of a sequence. -/
@[simp] theorem safe_bind (p : Prog Op Ans Err α) (f : α → Prog Op Ans Err β) :
    Safe C R (p >>= f) tr ↔ Safe C (fun a tr' => Safe C R (f a) tr') p tr := by
  induction p generalizing tr with
  | ret | fail => exact Iff.rfl
  | call op k ih =>
    exact and_congr_right fun _ => forall_congr' fun r => imp_congr_right fun _ => ih r

variable {op : Op}

@[simp] theorem safe_perform {Q : Ans op → Trace Op Ans Err → Prop} :
    Safe C Q (perform op) tr ↔
      C.allows tr op ∧ ∀ a, C.answers ⟨op, .ok a⟩ → Q a (⟨op, .ok a⟩ :: tr) := by
  constructor
  · intro h
    exact ⟨h.1, fun a ha => h.2 (.ok a) ha⟩
  · intro h
    refine ⟨h.1, fun r hr => ?_⟩
    cases r with
    | ok a => exact h.2 a hr
    | error e => trivial

theorem Safe.mono (hQ : ∀ a tr, Q a tr → Q' a tr) (h : Safe C Q p tr) : Safe C Q' p tr := by
  induction p generalizing tr with
  | ret a => exact hQ a tr h
  | fail e => trivial
  | call op k ih => exact ⟨h.1, fun r hr => ih r (h.2 r hr)⟩

/-- An operation whose error is looked at, and what follows. -/
theorem Safe.attempt_bind {f : Except Err (Ans op) → Prog Op Ans Err β} (hop : C.allows tr op)
    (hf : ∀ r, C.answers ⟨op, r⟩ → Safe C R (f r) (⟨op, r⟩ :: tr)) :
    Safe C R (attempt op >>= f) tr :=
  (safe_bind _ f).mpr ⟨hop, hf⟩

/-- An operation whose error ends the program, and what follows. -/
theorem Safe.perform_bind {f : Ans op → Prog Op Ans Err β} (hop : C.allows tr op)
    (hf : ∀ a, C.answers ⟨op, .ok a⟩ → Safe C R (f a) (⟨op, .ok a⟩ :: tr)) :
    Safe C R (perform op >>= f) tr :=
  (safe_bind _ f).mpr (safe_perform.mpr ⟨hop, hf⟩)

theorem Safe.bind (hp : Safe C Q p tr) (hf : ∀ a tr', Q a tr' → Safe C R (f a) tr') :
    Safe C R (p >>= f) tr :=
  (safe_bind p f).mpr (hp.mono hf)

theorem Safe.grows (h : Safe C Q p tr) : Safe C (fun a tr' => Q a tr' ∧ tr <:+ tr') p tr := by
  induction p generalizing tr with
  | ret a => exact ⟨h, List.suffix_rfl⟩
  | fail e => trivial
  | call op k ih =>
    refine ⟨h.1, fun r hr => (ih r (h.2 r hr)).mono fun a tr' hx => ⟨hx.1, ?_⟩⟩
    exact (List.suffix_cons _ tr).trans hx.2

/-! ## Runs -/

/-- As `Safe`, and the program does not end in an error. -/
def Returns (C : Contract Op Ans Err) (Q : α → Trace Op Ans Err → Prop) :
    Prog Op Ans Err α → Trace Op Ans Err → Prop
  | ret a, tr => Q a tr
  | fail _, _ => False
  | call op k, tr =>
    C.allows tr op ∧ ∀ r, C.answers ⟨op, r⟩ → Returns C Q (k r) (⟨op, r⟩ :: tr)

theorem Returns.mono (hQ : ∀ a tr, Q a tr → Q' a tr) (h : Returns C Q p tr) :
    Returns C Q' p tr := by
  induction p generalizing tr with
  | ret a => exact hQ a tr h
  | fail e => exact h
  | call op k ih => exact ⟨h.1, fun r hr => ih r (h.2 r hr)⟩

theorem Returns.bind (hf : ∀ a tr', Q a tr' → Returns C R (f a) tr') (h : Returns C Q p tr) :
    Returns C R (p >>= f) tr := by
  induction p generalizing tr with
  | ret a => exact hf a tr h
  | fail e => exact h
  | call op k ih => exact ⟨h.1, fun r hr => ih r (h.2 r hr)⟩

theorem Returns.perform_bind (hC : C.Infallible) {f : Ans op → Prog Op Ans Err β}
    (hop : C.allows tr op)
    (hf : ∀ a, C.answers ⟨op, .ok a⟩ → Returns C R (f a) (⟨op, .ok a⟩ :: tr)) :
    Returns C R (perform op >>= f) tr := by
  refine ⟨hop, fun r hr => ?_⟩
  cases r with
  | ok a => exact hf a hr
  | error e => exact absurd hr (hC op e)

theorem Returns.perform (hC : C.Infallible) {Q : Ans op → Trace Op Ans Err → Prop}
    (hop : C.allows tr op) (hQ : ∀ a, C.answers ⟨op, .ok a⟩ → Q a (⟨op, .ok a⟩ :: tr)) :
    Returns C Q (perform op) tr := by
  refine ⟨hop, fun r hr => ?_⟩
  cases r with
  | ok a => exact hQ a hr
  | error e => exact absurd hr (hC op e)

/-- `Reach answers p tr rest`: with answers of this kind `p` has the history `tr`
and `rest` left to do. -/
inductive Reach (answers : Obs Op Ans Err → Prop) (p : Prog Op Ans Err α) :
    Trace Op Ans Err → Prog Op Ans Err α → Prop
  | start : Reach answers p [] p
  | step {tr : Trace Op Ans Err} {op : Op} {k : Except Err (Ans op) → Prog Op Ans Err α}
      {r : Except Err (Ans op)} (before : Reach answers p tr (call op k))
      (h : answers ⟨op, r⟩) : Reach answers p (⟨op, r⟩ :: tr) (k r)

theorem Returns.reach {rest : Prog Op Ans Err α} (h : Returns C Q p [])
    (hr : Reach C.answers p tr rest) : Returns C Q rest tr := by
  induction hr with
  | start => exact h
  | step _ hans ih => exact ih.2 _ hans

section Follow

variable (answer : (op : Op) → Except Err (Ans op))

/-- The first steps of a program whose answers depend on the operation only. -/
def follow : Nat → Prog Op Ans Err α → Trace Op Ans Err → Trace Op Ans Err × Prog Op Ans Err α
  | n + 1, call op k, tr => follow n (k (answer op)) (⟨op, answer op⟩ :: tr)
  | _, p, tr => (tr, p)

theorem Reach.follow {answers : Obs Op Ans Err → Prop} (hans : ∀ op, answers ⟨op, answer op⟩)
    (n : Nat) {rest : Prog Op Ans Err α} (h : Reach answers p tr rest) :
    Reach answers p (rest.follow answer n tr).1 (rest.follow answer n tr).2 := by
  induction n generalizing tr rest with
  | zero => cases rest <;> exact h
  | succ n ih =>
    cases rest with
    | ret | fail => exact h
    | call op k => exact ih (h.step (hans op))

end Follow

/-! ## Undisturbed -/

section Play

variable {S : Type} (answer : (op : Op) → S → Except Err (Ans op) × S)

/-- The program run to its end by a store that nobody else touches. -/
def play : Prog Op Ans Err α → S → Except Err α × S
  | ret a, s => (.ok a, s)
  | fail e, s => (.error e, s)
  | call op k, s => play (k (answer op s).1) (answer op s).2

variable {answer}

@[simp] theorem play_pure (a : α) (s : S) :
    play answer (pure a : Prog Op Ans Err α) s = (.ok a, s) := rfl

@[simp] theorem play_attempt (op : Op) (s : S) :
    play answer (attempt op) s = (.ok (answer op s).1, (answer op s).2) := rfl

theorem play_perform {s s' : S} {a : Ans op} (h : answer op s = (.ok a, s')) :
    play answer (perform op) s = (.ok a, s') := by
  simp only [perform, play, h]

theorem play_bind (f : α → Prog Op Ans Err β) (p : Prog Op Ans Err α) (s : S) :
    play answer (p >>= f) s =
      match play answer p s with
      | (.ok a, s') => play answer (f a) s'
      | (.error e, s') => (.error e, s') := by
  induction p generalizing s with
  | ret | fail => rfl
  | call op k ih => exact ih (answer op s).1 (answer op s).2

theorem play_bind_ok {s s' : S} {a : α}
    (h : play answer p s = (.ok a, s')) : play answer (p >>= f) s = play answer (f a) s' := by
  rw [play_bind, h]

/-- What every allowed operation keeps, an undisturbed program keeps. -/
theorem Safe.play {I : S → Prop} (hanswers : ∀ o, C.answers o)
    (hstep : ∀ tr op s, C.allows tr op → I s → I (answer op s).2) {s : S}
    (hsafe : Safe C Q p tr) (hs : I s) : I (Prog.play answer p s).2 := by
  induction p generalizing tr s with
  | ret | fail => exact hs
  | call op k ih =>
    exact ih _ (hsafe.2 _ (hanswers _)) (hstep tr op s hsafe.1 hs)

end Play

end Prog

end Kaalm.Foundation
