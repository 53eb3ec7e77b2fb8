/-
**Runs that end.**

`Total` is `Triple` with the promise that there is an outcome: from a state with `pre` the program
ends, with `post` or, by an error, with `err`. The rules are those of `Triple`; there is none for
`stuck`.
-/

import Cboot.Lib.Program

namespace Cboot

open Prog

variable {ε σ τ α β : Type}

def Total (pre : σ → Prop) (p : Prog ε σ α) (post : α → σ → Prop) (err : σ → Prop) : Prop :=
  ∀ s, pre s → ∃ x, p s = some x ∧ Ended post err x

abbrev TotalKeeps (inv : σ → Prop) (p : Prog ε σ α) : Prop := Total inv p (fun _ => inv) inv

variable {pre pre' : σ → Prop} {p : Prog ε σ α} {f : α → Prog ε σ β} {post post' : α → σ → Prop}
  {next : β → σ → Prop} {err err' : σ → Prop}

theorem Total.mono (total : Total pre p post err) (weaker : ∀ s, pre' s → pre s)
    (value : ∀ a s, post a s → post' a s) (error : ∀ s, err s → err' s) :
    Total pre' p post' err' := fun s start =>
  let ⟨x, ran, reached⟩ := total s (weaker s start)
  ⟨x, ran, reached.mono value error⟩

theorem Total.bind (first : Total pre p post err)
    (second : ∀ a, Total (post a) (f a) next err) : Total pre (p >>= f) next err := by
  intro s start
  obtain ⟨⟨result, s'⟩, ran, reached⟩ := first s start
  cases result with
  | ok a =>
    rw [bind_ok ran]
    exact second a s' reached
  | error e =>
    rw [bind_error ran]
    exact ⟨_, rfl, reached⟩

theorem Total.fact {holds : Prop} (rest : holds → Total pre p post err) :
    Total (fun s => holds ∧ pre s) p post err := fun s start => rest start.1 s start.2

theorem Total.pure {a : α} (holds : ∀ s, pre s → post a s) :
    Total pre (pure a : Prog ε σ α) post err := fun s start => ⟨_, rfl, holds s start⟩

theorem Total.fail {e : ε} (holds : ∀ s, pre s → err s) :
    Total pre (fail e : Prog ε σ α) post err := fun s start => ⟨_, rfl, holds s start⟩

theorem Total.ofResult {result : Except ε α} (value : ∀ a s, pre s → post a s)
    (error : ∀ s, pre s → err s) : Total pre (ofResult result) post err := by
  intro s start
  cases result with
  | ok a => exact ⟨_, rfl, value a s start⟩
  | error e => exact ⟨_, rfl, error s start⟩

theorem Total.ofResultThen {result : Except ε α} (error : ∀ s, pre s → err s)
    (rest : ∀ a, result = .ok a → Total pre (f a) next err) :
    Total pre (Prog.ofResult result >>= f) next err := by
  intro s start
  cases result with
  | ok a => exact rest a rfl s start
  | error e => exact ⟨_, rfl, error s start⟩

theorem Total.step {g : σ → Except ε α × σ} (holds : ∀ s, pre s → Ended post err (g s)) :
    Total pre (fun s => some (g s)) post err := fun s start => ⟨_, rfl, holds s start⟩

theorem TotalKeeps.step {inv : σ → Prop} {g : σ → Except ε α × σ}
    (keeps : ∀ s, inv s → inv (g s).2) : TotalKeeps inv (fun s => some (g s)) := by
  refine Total.step fun s holds => ?_
  have after := keeps s holds
  match ended : g s with
  | (.ok a, s') | (.error e, s') =>
    rw [ended] at after
    exact after

theorem TotalKeeps.pure {a : α} : Total pre (Pure.pure a : Prog ε σ α) (fun _ => pre) err :=
  Total.pure fun _ => id

theorem Total.readThen {g : σ → Prog ε σ α} (rest : ∀ s, pre s → Total (· = s) (g s) post err) :
    Total pre (read >>= g) post err := fun s start => rest s start s rfl

theorem Total.modify {g : σ → σ} {post : Unit → σ → Prop} (holds : ∀ s, pre s → post () (g s)) :
    Total pre (modify g : Prog ε σ Unit) post err := fun s start => ⟨_, rfl, holds s start⟩

theorem Total.modifyThen {g : σ → σ} {f : Unit → Prog ε σ β} (holds : ∀ s, pre s → pre' (g s))
    (rest : Total pre' (f ()) next err) : Total pre (Prog.modify g >>= f) next err :=
  fun s start => rest (g s) (holds s start)

theorem Total.ite {c : Prop} [Decidable c] {q : Prog ε σ α} (yes : c → Total pre p post err)
    (no : ¬ c → Total pre q post err) : Total pre (if c then p else q) post err := by
  by_cases holds : c
  · rw [if_pos holds]
    exact yes holds
  · rw [if_neg holds]
    exact no holds

theorem Total.recover {handler : ε → Prog ε σ α} (first : Total pre p post err)
    (second : ∀ e, Total err (handler e) post err') : Total pre (recover p handler) post err' := by
  intro s start
  obtain ⟨⟨result, s'⟩, ran, reached⟩ := first s start
  cases result with
  | ok a =>
    rw [recover_ok ran]
    exact ⟨_, rfl, reached⟩
  | error e =>
    rw [recover_error ran]
    exact second e s' reached

theorem Total.always {cleanup : σ → σ} (first : Total pre p post err)
    (value : ∀ a s, post a s → post' a (cleanup s)) (error : ∀ s, err s → err' (cleanup s)) :
    Total pre (always p fun s => some (cleanup s)) post' err' := by
  intro s start
  obtain ⟨⟨result, s'⟩, ran, reached⟩ := first s start
  refine ⟨_, always_run ran rfl, ?_⟩
  cases result with
  | ok a => exact value a s' reached
  | error e => exact error s' reached

end Cboot
