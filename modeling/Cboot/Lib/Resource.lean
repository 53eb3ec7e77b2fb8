/-
**Postconditions of programs that may run out of a resource.**

A program over a state with exceptions runs under a predicate `out` on states: "the resource has run
out". `Ensures out x s post` says that `x` started in `s` either has run out of the resource when it
ends, however it ends, or returns a value and a state that satisfy `post`. An exception is only
allowed in a state that has run out.

* `Sticky`: a program never gives the resource back, so a run that ends with the resource in hand
  had it all along.
-/

import Mathlib

namespace Cboot.Resource

variable {ε σ α β : Type}

def finalState : EStateM.Result ε σ α → σ
  | .ok _ s => s
  | .error _ s => s

def Sticky (out : σ → Prop) (x : EStateM ε σ α) : Prop := ∀ s, out s → out (finalState (x s))

def Ensures (out : σ → Prop) (x : EStateM ε σ α) (s : σ) (post : α → σ → Prop) : Prop :=
  out (finalState (x s)) ∨ ∃ a s', x s = .ok a s' ∧ post a s'

variable {out : σ → Prop} {x : EStateM ε σ α} {f : α → EStateM ε σ β} {s : σ}

theorem bind_of_ok {a : α} {s' : σ} (done : x s = .ok a s') : (x >>= f) s = f a s' := by
  change (match x s with
    | .ok a s => f a s
    | .error e s => .error e s) = f a s'
  rw [done]

theorem bind_of_error {e : ε} {s' : σ} (stopped : x s = .error e s') :
    (x >>= f) s = .error e s' := by
  change (match x s with
    | .ok a s => f a s
    | .error e s => .error e s) = .error e s'
  rw [stopped]

theorem Sticky.pure (a : α) : Sticky out (pure a : EStateM ε σ α) := fun _ => id

theorem Sticky.bind (first : Sticky out x) (second : ∀ a, Sticky out (f a)) :
    Sticky out (x >>= f) := by
  intro s ranOut
  have reached := first s ranOut
  cases result : x s with
  | ok a s' =>
    rw [bind_of_ok result]
    rw [result] at reached
    exact second a s' reached
  | error e s' =>
    rw [bind_of_error result]
    rw [result] at reached
    exact reached

theorem Sticky.ite {c : Prop} [Decidable c] {y : EStateM ε σ α} (yes : Sticky out x)
    (no : Sticky out y) : Sticky out (if c then x else y) := by
  by_cases holds : c
  · rw [if_pos holds]
    exact yes
  · rw [if_neg holds]
    exact no

theorem Ensures.of_ok {post : α → σ → Prop} {a : α} {s' : σ} (done : x s = .ok a s')
    (holds : post a s') : Ensures out x s post :=
  .inr ⟨a, s', done, holds⟩

theorem Ensures.bind {post : β → σ → Prop} (sticky : ∀ a, Sticky out (f a))
    (first : Ensures out x s fun a s' => Ensures out (f a) s' post) :
    Ensures out (x >>= f) s post := by
  rcases first with ranOut | ⟨a, s', done, second⟩
  · left
    cases result : x s with
    | ok a s' =>
      rw [bind_of_ok result]
      rw [result] at ranOut
      exact sticky a s' ranOut
    | error e s' =>
      rw [bind_of_error result]
      rw [result] at ranOut
      exact ranOut
  · rw [Ensures, bind_of_ok done]
    exact second

theorem Ensures.step {post : β → σ → Prop} {a : α} {s' : σ} (done : x s = .ok a s')
    (second : Ensures out (f a) s' post) : Ensures out (x >>= f) s post := by
  rw [Ensures, bind_of_ok done]
  exact second

theorem Ensures.mono {post post' : α → σ → Prop} (ensured : Ensures out x s post)
    (weaker : ∀ a s', post a s' → post' a s') : Ensures out x s post' := by
  rcases ensured with ranOut | ⟨a, s', done, holds⟩
  · exact .inl ranOut
  · exact .inr ⟨a, s', done, weaker a s' holds⟩

theorem Ensures.elim {post : α → σ → Prop} (ensured : Ensures out x s post)
    (enough : ¬ out (finalState (x s))) : ∃ a s', x s = .ok a s' ∧ post a s' :=
  ensured.resolve_left enough

end Cboot.Resource
