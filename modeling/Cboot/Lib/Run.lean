/-
**Runs of a partial machine.**

A machine takes a state to an output and a next state, or is stuck. `stateAfter` is the state after
a number of steps and `outputAt` the output of one step of the run.

* `Simulates.stateAfter`, `Simulates.outputAt`: a machine that simulates a total one step for step
  is never stuck, and its outputs are those of the total machine.
-/

import Mathlib

namespace Cboot.Run

variable {σ α ω : Type}

def stateAfter (step : σ → Option (ω × σ)) : Nat → σ → Option σ
  | 0, s => some s
  | n + 1, s => (step s).bind fun out => stateAfter step n out.2

def outputAt (step : σ → Option (ω × σ)) (n : Nat) (s : σ) : Option ω :=
  ((stateAfter step n s).bind step).map Prod.fst

def Simulates (step : σ → Option (ω × σ)) (out : α → ω) (next : α → α) (related : σ → α → Prop) :
    Prop :=
  ∀ s a, related s a → ∃ s', step s = some (out a, s') ∧ related s' (next a)

section Simulation

variable {step : σ → Option (ω × σ)} {out : α → ω} {next : α → α} {related : σ → α → Prop}

theorem Simulates.stateAfter (sim : Simulates step out next related) (n : Nat) {s : σ} {a : α}
    (start : related s a) :
    ∃ s', Run.stateAfter step n s = some s' ∧ related s' (next^[n] a) := by
  induction n generalizing s a with
  | zero => exact ⟨s, rfl, start⟩
  | succ n ih =>
    obtain ⟨s', found, kept⟩ := sim s a start
    obtain ⟨last, reached, final⟩ := ih kept
    refine ⟨last, ?_, final⟩
    rw [Run.stateAfter, found]
    exact reached

theorem Simulates.outputAt (sim : Simulates step out next related) (n : Nat) {s : σ} {a : α}
    (start : related s a) : Run.outputAt step n s = some (out (next^[n] a)) := by
  obtain ⟨s', reached, kept⟩ := sim.stateAfter n start
  obtain ⟨last, found, -⟩ := sim s' _ kept
  rw [Run.outputAt, reached, Option.bind_some, found]
  rfl

end Simulation

end Cboot.Run
