/-
  Foundation/Transducer.lean --- machines that answer every input with outputs, and
  readers of what they write.

  A transducer step takes an input to a new state and a list of outputs.  A reader
  takes one output at a time and may refuse it.  `InStep.feedAll` is the exact rule:
  when a reader accepts the outputs of a step just if the step is orderly, and is
  then in step with the machine again, it accepts the outputs of a whole run just
  if every step of the run is orderly.
-/
import Mathlib.Tactic.Common

namespace Kaalm.Foundation

variable {State Input Output Reader : Type*}

/-- The outputs of a machine along its inputs, with the state it ends in. -/
def feedAll (step : State → Input → State × List Output) : State → List Input → State × List Output
  | s, [] => (s, [])
  | s, i :: is => ((feedAll step (step s i).1 is).1, (step s i).2 ++
    (feedAll step (step s i).1 is).2)

/-- Everything a machine writes along its inputs, with what closes it. -/
def transcriptOf (step : State → Input → State × List Output) (close : State → List Output)
    (s : State) (is : List Input) : List Output :=
  (feedAll step s is).2 ++ close (feedAll step s is).1

def reads (next : Reader → Output → Option Reader) : Reader → List Output → Option Reader
  | r, [] => some r
  | r, o :: os => (next r o).bind fun r' => reads next r' os

def allOrderly (step : State → Input → State × List Output) (orderly : State → Input → Bool) :
    State → List Input → Bool
  | _, [] => true
  | s, i :: is => orderly s i && allOrderly step orderly (step s i).1 is

variable {step : State → Input → State × List Output} {next : Reader → Output → Option Reader}
  {orderly : State → Input → Bool}

theorem transcriptOf_cons (close : State → List Output) (s : State) (i : Input) (is : List Input) :
    transcriptOf step close s (i :: is) = (step s i).2 ++ transcriptOf step close (step s i).1 is :=
  List.append_assoc ..

theorem reads_append (r : Reader) (os os' : List Output) :
    reads next r (os ++ os') = (reads next r os).bind fun r' => reads next r' os' := by
  induction os generalizing r with
  | nil => rfl
  | cons o os ih =>
    rw [List.cons_append, reads, reads, Option.bind_assoc]
    exact congrArg _ (funext ih)

theorem feedAll_keeps {I : State → Prop} (hstep : ∀ s i, I s → I (step s i).1) (is : List Input)
    (s : State) (hs : I s) : I (feedAll step s is).1 := by
  induction is generalizing s with
  | nil => exact hs
  | cons i is ih => exact ih _ (hstep s i hs)

/-- What holds of every output of every step holds of the outputs of a run. -/
theorem forall_mem_feedAll {P : Output → Prop} (hstep : ∀ s i, ∀ o ∈ (step s i).2, P o)
    (is : List Input) (s : State) (o : Output) (ho : o ∈ (feedAll step s is).2) : P o := by
  induction is generalizing s with
  | nil => cases ho
  | cons i is ih =>
    rcases List.mem_append.mp ho with ho | ho
    · exact hstep s i o ho
    · exact ih _ ho

/-- From a state with the invariant, the outputs of a step are read just if it is orderly,
and then the reader is where the machine is and the machine has the invariant again. -/
structure InStep (next : Reader → Output → Option Reader) (readerOf : State → Reader)
    (I : State → Prop) (step : State → Input → State × List Output)
    (orderly : State → Input → Bool) : Prop where
  inv : ∀ s i, I s → orderly s i = true → I (step s i).1
  reads : ∀ s i, I s → reads next (readerOf s) (step s i).2 =
    if orderly s i then some (readerOf (step s i).1) else none

theorem InStep.feedAll {I : State → Prop} {readerOf : State → Reader}
    (h : InStep next readerOf I step orderly) :
    InStep next readerOf I (feedAll step) (allOrderly step orderly) := by
  have hrun : ∀ (is : List Input) (s : State), I s →
      (allOrderly step orderly s is = true → I (Foundation.feedAll step s is).1) ∧
      Foundation.reads next (readerOf s) (Foundation.feedAll step s is).2 =
        if allOrderly step orderly s is then some (readerOf (Foundation.feedAll step s is).1)
        else none := by
    intro is
    induction is with
    | nil => intro s hs; exact ⟨fun _ => hs, rfl⟩
    | cons i is ih =>
      intro s hs
      rw [Foundation.feedAll, reads_append, h.reads s i hs, allOrderly]
      cases ho : orderly s i with
      | false => exact ⟨fun hf => (by cases hf), rfl⟩
      | true => exact ih _ (h.inv s i hs ho)
  exact ⟨fun s is hs => (hrun is s hs).1, fun s is hs => (hrun is s hs).2⟩

end Kaalm.Foundation
