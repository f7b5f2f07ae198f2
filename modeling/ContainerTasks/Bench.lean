import ContainerTasks.Turn

/-!
# Steps on a bench

On the bench steps are done without a machine: each is begun on request and carried on until it
ends, and nobody looks after its errors.

## Main definitions

* `Bench`
* `Bench.begin`, `Bench.cancel`, `Bench.release?`: each tells what was done and what has ended
-/

namespace ContainerTasks

/-- Steps that are done on their own. -/
structure Bench (σ : Type) where
  service : Service σ
  /-- The state of the runtime. -/
  state : σ
  existingNetwork : Option String
  cancelled : Bool
  /-- The steps that wait, with their numbers, the one that has waited longest first. -/
  waiting : List (Nat × Held)

namespace Bench

variable {σ : Type}

/-- What has come of an operation. -/
structure Effect where
  acts : List Act
  /-- The steps that have ended, with their numbers. -/
  ended : List (Nat × Ending)

instance : Append Effect := ⟨fun a b => ⟨a.acts ++ b.acts, a.ended ++ b.ended⟩⟩

/-- Takes note of a turn of a step. -/
def note (b : Bench σ) (number : Nat) : List Act × Pause × σ → Effect × Bench σ
  | (acts, .ended ending, state) => (⟨acts, [(number, ending)]⟩, { b with state })
  | (acts, .held held, state) =>
    (⟨acts, []⟩, { b with state, waiting := b.waiting ++ [(number, held)] })

/-- Begins a step. -/
def begin (b : Bench σ) (number : Nat) (step : Step) : Effect × Bench σ :=
  b.note number ((step.procedure b.existingNetwork).turn b.service b.cancelled b.state)

/-- Carries on with steps that have waited, one after the other. -/
def resume (b : Bench σ) : List (Nat × Held) → Effect × Bench σ
  | [] => (⟨[], []⟩, b)
  | (number, held) :: rest =>
    let (effect, b) := b.note number (held.resume b.service b.cancelled b.state)
    let (effects, b) := b.resume rest
    (effect ++ effects, b)

/-- Asks all steps to stop. Those that may be given up are, in the order of their numbers. -/
def cancel (b : Bench σ) : Effect × Bench σ :=
  let (given, waiting) := b.waiting.partition (·.2.isAbandonable)
  { b with cancelled := true, waiting }.resume (given.mergeSort (·.1 ≤ ·.1))

/-- Opens a latch once, for the step that has waited there longest. -/
def release? (b : Bench σ) (latch : String) : Option (Effect × Bench σ) :=
  match b.waiting.find? (·.2.latch = latch) with
  | some (number, held) =>
    some ({ b with waiting := b.waiting.filter (·.1 ≠ number) }.resume [(number, held)])
  | none => none

end Bench

end ContainerTasks
