/-
**Programs on a memory whose accesses are recorded.**

A tape is a memory of cells together with the addresses that have been read and written so far. A
program on it may have no outcome. What a program touches is said by two sets of addresses, and the
sets of a sequence are those of its parts.

* `scan_spec`: a loop that looks for the end of a word reads the word and its end, and nothing else.
-/

import Mathlib

namespace Cboot

structure Tape (α : Type) where
  mem : Nat → α
  reads : List Nat
  writes : List Nat

abbrev TapeM (α : Type) := StateT (Tape α) Option

namespace Tape

variable {α β γ : Type}

def fresh (mem : Nat → α) : Tape α := ⟨mem, [], []⟩

def load (a : Nat) : TapeM α α := fun t => some (t.mem a, { t with reads := a :: t.reads })

def store (a : Nat) (c : α) : TapeM α Unit := fun t =>
  some ((), { t with mem := Function.update t.mem a c, writes := a :: t.writes })

def stuck : TapeM α β := fun _ => none

theorem bind_run {x : TapeM α β} {f : β → TapeM α γ} {t t' : Tape α} {b : β}
    (ran : x t = some (b, t')) : (x >>= f) t = f b t' := by
  show (x t).bind (fun end_ => f end_.1 end_.2) = f b t'
  rw [ran]
  rfl

/-! ### What a program touches -/

structure Touched (r w : Set Nat) (t t' : Tape α) : Prop where
  reads : ∀ a ∈ t'.reads, a ∈ t.reads ∨ a ∈ r
  writes : ∀ a ∈ t'.writes, a ∈ t.writes ∨ a ∈ w
  recorded : ∀ a ∈ t.reads, a ∈ t'.reads
  kept : ∀ a ∉ w, t'.mem a = t.mem a

section Rules

variable {r r' w w' : Set Nat} {t t' t'' : Tape α}

theorem Touched.refl (r w : Set Nat) (t : Tape α) : Touched r w t t :=
  ⟨fun _ => .inl, fun _ => .inl, fun _ => id, fun _ _ => rfl⟩

theorem Touched.mono (touched : Touched r w t t') (more : r ⊆ r') (moreToo : w ⊆ w') :
    Touched r' w' t t' where
  reads a inside := (touched.reads a inside).imp_right fun here => more here
  writes a inside := (touched.writes a inside).imp_right fun here => moreToo here
  recorded := touched.recorded
  kept a outside := touched.kept a fun here => outside (moreToo here)

theorem Touched.trans (first : Touched r w t t') (second : Touched r w t' t'') :
    Touched r w t t'' where
  reads a inside := (second.reads a inside).elim (first.reads a) .inr
  writes a inside := (second.writes a inside).elim (first.writes a) .inr
  recorded a inside := second.recorded a (first.recorded a inside)
  kept a outside := (second.kept a outside).trans (first.kept a outside)

theorem load_touched {a : Nat} (here : a ∈ r) (w : Set Nat) (t : Tape α) :
    Touched r w t { t with reads := a :: t.reads } where
  reads _ inside := (List.mem_cons.mp inside).elim (fun same => .inr (same ▸ here)) .inl
  writes _ := .inl
  recorded _ inside := .tail a inside
  kept _ _ := rfl

theorem store_touched {a : Nat} (here : a ∈ w) (r : Set Nat) (c : α) (t : Tape α) :
    Touched r w t { t with mem := Function.update t.mem a c, writes := a :: t.writes } where
  reads _ := .inl
  writes _ inside := (List.mem_cons.mp inside).elim (fun same => .inr (same ▸ here)) .inl
  recorded _ := id
  kept b outside := Function.update_of_ne (fun same : b = a => outside (same ▸ here)) c t.mem

end Rules

/-! ### Words in a memory -/

def Spells (mem : Nat → α) : Nat → List α → Prop
  | _, [] => True
  | p, c :: word => mem p = c ∧ Spells mem (p + 1) word

section Words

variable {mem mem' : Nat → α} {p : Nat} {word rest : List α}

theorem Spells.append :
    Spells mem p (word ++ rest) ↔ Spells mem p word ∧ Spells mem (p + word.length) rest := by
  induction word generalizing p with
  | nil => exact (true_and _).symm.to_iff
  | cons c word ih =>
    have next : p + 1 + word.length = p + (c :: word).length := by
      rw [List.length_cons]
      omega
    rw [List.cons_append, Spells, ih, Spells, next, and_assoc]

theorem Spells.congr (spelled : Spells mem p word)
    (same : ∀ a, p ≤ a → a < p + word.length → mem' a = mem a) : Spells mem' p word := by
  induction word generalizing p with
  | nil => exact trivial
  | cons c word ih =>
    rw [List.length_cons] at same
    refine ⟨(same p (Nat.le_refl p) (by omega)).trans spelled.1, ih spelled.2 fun a low high => ?_⟩
    exact same a (by omega) (by omega)

theorem Spells.get (spelled : Spells mem p word) {i : Nat} (inside : i < word.length) :
    mem (p + i) = word[i] := by
  induction word generalizing p i with
  | nil => exact absurd inside (Nat.not_lt_zero i)
  | cons c word ih =>
    cases i with
    | zero => exact spelled.1
    | succ i =>
      have found := ih spelled.2 (Nat.lt_of_succ_lt_succ inside)
      rw [Nat.add_assoc, Nat.add_comm 1 i] at found
      exact found

theorem spells_iff : Spells mem p word ↔ ∀ i (inside : i < word.length), mem (p + i) = word[i] := by
  constructor
  · exact fun spelled i inside => spelled.get inside
  · intro cells
    induction word generalizing p with
    | nil => exact trivial
    | cons c word ih =>
      refine ⟨cells 0 (Nat.succ_pos _), ih fun i inside => ?_⟩
      have cell := cells (i + 1) (Nat.succ_lt_succ inside)
      rw [Nat.add_assoc, Nat.add_comm 1 i]
      exact cell

end Words

/-! ### A loop over a word -/

def scan (stop : α → Bool) : Nat → Nat → TapeM α Nat
  | 0, _ => stuck
  | fuel + 1, p => do
    let c ← load p
    if stop c then pure p else scan stop fuel (p + 1)

theorem scan_spec {stop : α → Bool} {fuel p : Nat} {word : List α} {last : α} {t : Tape α}
    (spelled : Spells t.mem p (word ++ [last])) (inside : ∀ c ∈ word, stop c = false)
    (ends : stop last = true) (enough : word.length < fuel) :
    ∃ t', scan stop fuel p t = some (p + word.length, t') ∧ t'.mem = t.mem ∧
      Touched (Set.Icc p (p + word.length)) ∅ t t' ∧ p + word.length ∈ t'.reads := by
  induction word generalizing p fuel t with
  | nil =>
    obtain ⟨fuel, rfl⟩ := Nat.exists_eq_succ_of_ne_zero (Nat.ne_of_gt enough)
    refine ⟨{ t with reads := p :: t.reads }, ?_, rfl,
      load_touched (Set.mem_Icc.mpr ⟨le_rfl, le_rfl⟩) ∅ t, .head _⟩
    rw [scan, bind_run rfl, spelled.1, if_pos ends]
    rfl
  | cons c word ih =>
    obtain ⟨fuel, rfl⟩ := Nat.exists_eq_succ_of_ne_zero (Nat.ne_of_gt (Nat.zero_lt_of_lt enough))
    have step : scan stop (fuel + 1) p t =
        scan stop fuel (p + 1) { t with reads := p :: t.reads } := by
      rw [scan, bind_run rfl, spelled.1, inside c (.head _), if_neg nofun]
    obtain ⟨t', ran, same, touched, reached⟩ :=
      ih (t := { t with reads := p :: t.reads }) spelled.2
        (fun d member => inside d (.tail c member)) (Nat.lt_of_succ_lt_succ enough)
    have next : p + 1 + word.length = p + (c :: word).length := by
      rw [List.length_cons]
      omega
    rw [next] at ran touched reached
    refine ⟨t', step.trans ran, same, ?_, reached⟩
    refine (load_touched (Set.mem_Icc.mpr ⟨le_rfl, Nat.le_add_right _ _⟩) ∅ t).trans
      (touched.mono ?_ (Set.Subset.refl ∅))
    exact Set.Icc_subset_Icc_left (Nat.le_succ p)

end Tape

end Cboot
