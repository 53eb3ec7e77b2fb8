/-
**Programs with a state and errors, and pairs of their runs.**

A program takes a state and either has no outcome (it hangs, resets, or does what has no meaning) or
ends with a value or an error and a state. The state survives an error, so what a failed part has
done stays visible to what follows.
-/

import Mathlib

namespace Cboot

def Prog (ε σ α : Type) : Type := σ → Option (Except ε α × σ)

namespace Prog

variable {ε σ τ α β : Type}

/-! ### Constructors -/

def andThen (f : α → Prog ε σ β) : Except ε α × σ → Option (Except ε β × σ)
  | (.ok a, s) => f a s
  | (.error e, s) => some (.error e, s)

instance : Monad (Prog ε σ) where
  pure a := fun s => some (.ok a, s)
  bind p f := fun s => (p s).bind (andThen f)

def stuck : Prog ε σ α := fun _ => none

def ofResult (result : Except ε α) : Prog ε σ α := fun s => some (result, s)

def fail (e : ε) : Prog ε σ α := ofResult (.error e)

def ofOption (value : Option α) : Prog ε σ α := fun s => value.map fun a => (.ok a, s)

def read : Prog ε σ σ := fun s => some (.ok s, s)

def modify (f : σ → σ) : Prog ε σ Unit := fun s => some (.ok (), f s)

def recover (p : Prog ε σ α) (handler : ε → Prog ε σ α) : Prog ε σ α := fun s =>
  (p s).bind fun
    | (.ok a, s) => some (.ok a, s)
    | (.error e, s) => handler e s

def always (p : Prog ε σ α) (cleanup : σ → Option σ) : Prog ε σ α := fun s =>
  (p s).bind fun end_ => (cleanup end_.2).map fun s => (end_.1, s)

def zoom (view : σ → τ) (put : τ → σ → σ) (p : Prog ε τ α) : Prog ε σ α := fun s =>
  (p (view s)).map fun end_ => (end_.1, put end_.2 s)

theorem bind_apply (p : Prog ε σ α) (f : α → Prog ε σ β) (s : σ) :
    (p >>= f) s = (p s).bind (andThen f) := rfl

variable {s s' : σ} {p : Prog ε σ α}

theorem bind_ok {a : α} (ran : p s = some (.ok a, s')) (f : α → Prog ε σ β) :
    (p >>= f) s = f a s' := by
  rw [bind_apply, ran]
  rfl

theorem bind_error {e : ε} (ran : p s = some (.error e, s')) (f : α → Prog ε σ β) :
    (p >>= f) s = some (.error e, s') := by
  rw [bind_apply, ran]
  rfl

theorem read_bind (f : σ → Prog ε σ α) (s : σ) : (read >>= f) s = f s s := rfl

theorem modify_bind (g : σ → σ) (f : Unit → Prog ε σ α) (s : σ) :
    (modify g >>= f) s = f () (g s) := rfl

theorem recover_ok {a : α} (ran : p s = some (.ok a, s')) (handler : ε → Prog ε σ α) :
    recover p handler s = some (.ok a, s') := by
  rw [recover, ran]
  rfl

theorem recover_error {e : ε} (ran : p s = some (.error e, s')) (handler : ε → Prog ε σ α) :
    recover p handler s = handler e s' := by
  rw [recover, ran]
  rfl

theorem always_run {s s' s'' : σ} {result : Except ε α} {cleanup : σ → Option σ}
    (ran : p s = some (result, s')) (cleaned : cleanup s' = some s'') :
    always p cleanup s = some (result, s'') := by
  rw [always, ran, Option.bind_some, cleaned]
  rfl

end Prog

open Prog

/-! ### One run -/

section One

variable {ε σ τ α β : Type}

def Ended (post : α → σ → Prop) (err : σ → Prop) : Except ε α × σ → Prop
  | (.ok a, s) => post a s
  | (.error _, s) => err s

def Triple (pre : σ → Prop) (p : Prog ε σ α) (post : α → σ → Prop) (err : σ → Prop) : Prop :=
  ∀ s, pre s → ∀ x, p s = some x → Ended post err x

abbrev Keeps (inv : σ → Prop) (p : Prog ε σ α) : Prop := Triple inv p (fun _ => inv) inv

variable {pre pre' : σ → Prop} {p : Prog ε σ α} {f : α → Prog ε σ β} {post post' : α → σ → Prop}
  {next : β → σ → Prop} {err err' : σ → Prop}

theorem Ended.mono {x : Except ε α × σ} (ended : Ended post err x)
    (value : ∀ a s, post a s → post' a s) (error : ∀ s, err s → err' s) : Ended post' err' x :=
  match x, ended with
  | (.ok _, _), holds => value _ _ holds
  | (.error _, _), holds => error _ holds

theorem Triple.mono (triple : Triple pre p post err) (weaker : ∀ s, pre' s → pre s)
    (value : ∀ a s, post a s → post' a s) (error : ∀ s, err s → err' s) :
    Triple pre' p post' err' := fun s start x run =>
  (triple s (weaker s start) x run).mono value error

theorem Triple.weaken (triple : Triple pre p post err) (value : ∀ a s, post a s → post' a s) :
    Triple pre p post' err := triple.mono (fun _ => id) value fun _ => id

theorem Triple.noError (triple : Triple pre p post err) (value : ∀ a s, post a s → post' a s) :
    Triple pre p post' fun _ => True := triple.mono (fun _ => id) value fun _ _ => True.intro

theorem Triple.start {s : σ} (triple : Triple pre p post err) (holds : pre s) :
    Triple (· = s) p post err := fun _ same x run => triple _ (same ▸ holds) x run

theorem Triple.fact {holds : Prop} (rest : holds → Triple pre p post err) :
    Triple (fun s => holds ∧ pre s) p post err := fun s start => rest start.1 s start.2

theorem Triple.and (first : Triple pre p post err) (second : Triple pre' p post' err') :
    Triple (fun s => pre s ∧ pre' s) p (fun a s => post a s ∧ post' a s)
      fun s => err s ∧ err' s := by
  rintro s ⟨start, startToo⟩ ⟨result, s'⟩ run
  have reached := first s start _ run
  have reachedToo := second s startToo _ run
  cases result with
  | ok a | error e => exact ⟨reached, reachedToo⟩

theorem Triple.trivial (p : Prog ε σ α) :
    Triple (fun _ => True) p (fun _ _ => True) fun _ => True := by
  rintro s - ⟨result, s'⟩ -
  cases result <;> exact True.intro

theorem Triple.through {k : Except ε α × σ → Option (Except ε β × σ)} (first : Triple pre p post err)
    (value : ∀ a s, post a s → ∀ x, k (.ok a, s) = some x → Ended next err' x)
    (error : ∀ e s, err s → ∀ x, k (.error e, s) = some x → Ended next err' x) :
    Triple pre (fun s => (p s).bind k) next err' := by
  intro s start x run
  obtain ⟨⟨result, s'⟩, ran, rest⟩ := Option.bind_eq_some_iff.mp run
  have reached := first s start _ ran
  cases result with
  | ok a => exact value a s' reached x rest
  | error e => exact error e s' reached x rest

theorem Triple.bind (first : Triple pre p post err)
    (second : ∀ a, Triple (post a) (f a) next err) : Triple pre (p >>= f) next err := by
  refine first.through second fun e s broken x run => ?_
  cases run
  exact broken

theorem Triple.bindRun {s : σ} (first : Triple (· = s) p post err)
    (second : ∀ a s', p s = some (.ok a, s') → post a s' → Triple (· = s') (f a) next err) :
    Triple (· = s) (p >>= f) next err := by
  rintro _ rfl x run
  rw [Prog.bind_apply, Option.bind_eq_some_iff] at run
  obtain ⟨⟨result, s'⟩, ran, rest⟩ := run
  have reached := first _ rfl _ ran
  cases result with
  | ok a => exact second a s' ran reached s' rfl x rest
  | error e =>
    cases rest
    exact reached

theorem Triple.pure {a : α} (holds : ∀ s, pre s → post a s) :
    Triple pre (pure a : Prog ε σ α) post err := by
  intro s start x run
  cases run
  exact holds s start

theorem Triple.stuck : Triple pre (stuck : Prog ε σ α) post err := nofun

theorem Triple.fail {e : ε} (holds : ∀ s, pre s → err s) :
    Triple pre (fail e : Prog ε σ α) post err := by
  intro s start x run
  cases run
  exact holds s start

theorem Triple.ofResult {result : Except ε α} (value : ∀ a s, pre s → post a s)
    (error : ∀ s, pre s → err s) : Triple pre (ofResult result) post err := by
  intro s start x run
  cases run
  cases result with
  | ok a => exact value a s start
  | error e => exact error s start

theorem Triple.ofResultThen {result : Except ε α} (error : ∀ s, pre s → err s)
    (rest : ∀ a, result = .ok a → Triple pre (f a) next err) :
    Triple pre (Prog.ofResult result >>= f) next err := by
  intro s start x run
  cases result with
  | ok a => exact rest a rfl s start x run
  | error e =>
    cases run
    exact error s start

theorem Triple.ofOption {value : Option α} (holds : ∀ a s, pre s → post a s) :
    Triple pre (ofOption value : Prog ε σ α) post err := by
  intro s start x run
  obtain ⟨a, -, rfl⟩ := Option.map_eq_some_iff.mp run
  exact holds a s start

theorem Triple.ofOptionThen {value : Option α}
    (rest : ∀ a, value = some a → Triple pre (f a) next err) :
    Triple pre (Prog.ofOption value >>= f) next err := by
  intro s start x run
  cases value with
  | none => cases run
  | some a => exact rest a rfl s start x run

theorem Triple.readThen {g : σ → Prog ε σ α} (rest : ∀ s, pre s → Triple (· = s) (g s) post err) :
    Triple pre (read >>= g) post err := fun s start x run => rest s start s rfl x run

theorem Triple.readAny {g : σ → Prog ε σ α} (rest : ∀ s, Triple pre (g s) post err) :
    Triple pre (read >>= g) post err := fun s start x run => rest s s start x run

theorem Triple.modify {g : σ → σ} {post : Unit → σ → Prop} (holds : ∀ s, pre s → post () (g s)) :
    Triple pre (modify g : Prog ε σ Unit) post err := by
  intro s start x run
  cases run
  exact holds s start

theorem Keeps.step {inv : σ → Prop} {f : σ → Except ε α × σ}
    (keeps : ∀ s, inv s → inv (f s).2) : Keeps inv (fun s => some (f s)) := by
  intro s holds x run
  obtain rfl := Option.some.inj run
  have after := keeps s holds
  match ended : f s with
  | (.ok a, s') | (.error e, s') =>
    rw [ended] at after
    exact after

theorem Keeps.pure {a : α} : Triple pre (Pure.pure a : Prog ε σ α) (fun _ => pre) err :=
  Triple.pure fun _ => id

theorem Keeps.fail {e : ε} : Triple pre (Prog.fail e : Prog ε σ α) post pre :=
  Triple.fail fun _ => id

theorem Triple.zoom {view : σ → τ} {put : τ → σ → σ} {p : Prog ε τ α} {within : τ → Prop}
    {after : α → τ → Prop} {broken : τ → Prop} (inner : Triple within p after broken)
    (enter : ∀ s, pre s → within (view s)) (value : ∀ s a t, pre s → after a t → post a (put t s))
    (error : ∀ s t, pre s → broken t → err (put t s)) :
    Triple pre (zoom view put p) post err := by
  intro s start x run
  obtain ⟨⟨result, t⟩, ran, rfl⟩ := Option.map_eq_some_iff.mp run
  have reached := inner (view s) (enter s start) _ ran
  cases result with
  | ok a => exact value s a t start reached
  | error e => exact error s t start reached

theorem Triple.ite {c : Prop} [Decidable c] {q : Prog ε σ α}
    (yes : c → Triple pre p post err) (no : ¬ c → Triple pre q post err) :
    Triple pre (if c then p else q) post err := by
  by_cases holds : c
  · rw [if_pos holds]
    exact yes holds
  · rw [if_neg holds]
    exact no holds

theorem Triple.recover {handler : ε → Prog ε σ α} (first : Triple pre p post err)
    (second : ∀ e, Triple err (handler e) post err') : Triple pre (recover p handler) post err' := by
  refine first.through (fun a s reached x run => ?_) second
  cases run
  exact reached

theorem Triple.dropError {s : σ} {q : Prog ε σ Unit} {post : Unit → σ → Prop}
    (first : Triple (· = s) q post err) :
    Triple (· = s) (Prog.recover q fun _ => Pure.pure ())
      (fun _ s' => ∃ result, q s = some (result, s') ∧ Ended post err (result, s')) err' := by
  rintro _ rfl x run
  obtain ⟨⟨result, s'⟩, ran, rest⟩ := Option.bind_eq_some_iff.mp run
  have reached := first _ rfl _ ran
  cases result with
  | ok a =>
    cases rest
    exact ⟨.ok a, ran, reached⟩
  | error e =>
    cases rest
    exact ⟨.error e, ran, reached⟩

theorem Triple.always {cleanup : σ → Option σ} (first : Triple pre p post err)
    (value : ∀ a s s', post a s → cleanup s = some s' → post' a s')
    (error : ∀ s s', err s → cleanup s = some s' → err' s') :
    Triple pre (always p cleanup) post' err' := by
  refine first.through (fun a s reached x run => ?_) fun e s broken x run => ?_
  all_goals obtain ⟨s', cleaned, rfl⟩ := Option.map_eq_some_iff.mp run
  · exact value a s s' reached cleaned
  · exact error s s' broken cleaned

end One

/-! ### Two runs -/

section Two

variable {ε σ τ α β : Type}

def EndedBoth (post : α → α → σ → σ → Prop) (err : σ → σ → Prop) :
    Except ε α × σ → Except ε α × σ → Prop
  | (.ok a, s), (.ok b, t) => post a b s t
  | (.error _, s), (.error _, t) => err s t
  | _, _ => False

def TwoRun (pre : σ → σ → Prop) (p q : Prog ε σ α) (post : α → α → σ → σ → Prop)
    (err : σ → σ → Prop) : Prop :=
  ∀ s t, pre s t → ∀ x y, p s = some x → q t = some y → EndedBoth post err x y

variable {pre pre' : σ → σ → Prop} {p q : Prog ε σ α} {f g : α → Prog ε σ β}
  {post post' : α → α → σ → σ → Prop} {next : β → β → σ → σ → Prop} {err err' : σ → σ → Prop}

theorem TwoRun.mono (runs : TwoRun pre p q post err) (weaker : ∀ s t, pre' s t → pre s t)
    (value : ∀ a b s t, post a b s t → post' a b s t) (error : ∀ s t, err s t → err' s t) :
    TwoRun pre' p q post' err' := by
  rintro s t start ⟨left, s'⟩ ⟨right, t'⟩ ran ranToo
  have reached := runs s t (weaker s t start) _ _ ran ranToo
  cases left <;> cases right
  · exact error _ _ reached
  · exact reached
  · exact reached
  · exact value _ _ _ _ reached

theorem TwoRun.fact {holds : Prop} (rest : holds → TwoRun pre p q post err) :
    TwoRun (fun s t => holds ∧ pre s t) p q post err := fun s t start =>
  rest start.1 s t start.2

theorem TwoRun.through {k l : Except ε α × σ → Option (Except ε β × σ)}
    (first : TwoRun pre p q post err)
    (value : ∀ a b s t, post a b s t → ∀ x y, k (.ok a, s) = some x → l (.ok b, t) = some y →
      EndedBoth next err' x y)
    (error : ∀ e e' s t, err s t → ∀ x y, k (.error e, s) = some x → l (.error e', t) = some y →
      EndedBoth next err' x y) :
    TwoRun pre (fun s => (p s).bind k) (fun t => (q t).bind l) next err' := by
  intro s t start x y run runToo
  obtain ⟨⟨left, s'⟩, ran, rest⟩ := Option.bind_eq_some_iff.mp run
  obtain ⟨⟨right, t'⟩, ranToo, restToo⟩ := Option.bind_eq_some_iff.mp runToo
  have reached := first s t start _ _ ran ranToo
  cases left <;> cases right
  · exact error _ _ s' t' reached x y rest restToo
  · exact reached.elim
  · exact reached.elim
  · exact value _ _ s' t' reached x y rest restToo

theorem TwoRun.bind (first : TwoRun pre p q post err)
    (second : ∀ a b, TwoRun (post a b) (f a) (g b) next err) :
    TwoRun pre (p >>= f) (q >>= g) next err := by
  refine first.through second fun e e' s t broken x y run runToo => ?_
  cases run
  cases runToo
  exact broken

theorem TwoRun.pure {a b : α} (holds : ∀ s t, pre s t → post a b s t) :
    TwoRun pre (pure a : Prog ε σ α) (pure b) post err := by
  intro s t start x y run runToo
  cases run
  cases runToo
  exact holds s t start

theorem TwoRun.fail {e e' : ε} (holds : ∀ s t, pre s t → err s t) :
    TwoRun pre (fail e : Prog ε σ α) (fail e') post err := by
  intro s t start x y run runToo
  cases run
  cases runToo
  exact holds s t start

theorem TwoRun.modify {g h : σ → σ} {post : Unit → Unit → σ → σ → Prop}
    (holds : ∀ s t, pre s t → post () () (g s) (h t)) :
    TwoRun pre (modify g : Prog ε σ Unit) (modify h) post err := by
  intro s t start x y run runToo
  cases run
  cases runToo
  exact holds s t start

theorem TwoRun.ofResult {result : Except ε α} (value : ∀ a s t, pre s t → post a a s t)
    (error : ∀ s t, pre s t → err s t) : TwoRun pre (ofResult result) (ofResult result) post err := by
  intro s t start x y run runToo
  cases run
  cases runToo
  cases result with
  | ok a => exact value a s t start
  | error e => exact error s t start

theorem TwoRun.readThen {g h : σ → Prog ε σ α}
    (rest : ∀ s t, pre s t → TwoRun (fun s' t' => s' = s ∧ t' = t) (g s) (h t) post err) :
    TwoRun pre (read >>= g) (read >>= h) post err := fun s t start x y run runToo =>
  rest s t start s t ⟨rfl, rfl⟩ x y run runToo

theorem TwoRun.ite {c : Prop} [Decidable c] {p' q' : Prog ε σ α}
    (yes : c → TwoRun pre p q post err) (no : ¬ c → TwoRun pre p' q' post err) :
    TwoRun pre (if c then p else p') (if c then q else q') post err := by
  by_cases holds : c
  · rw [if_pos holds, if_pos holds]
    exact yes holds
  · rw [if_neg holds, if_neg holds]
    exact no holds

theorem TwoRun.recover {handler handler' : ε → Prog ε σ α} (first : TwoRun pre p q post err)
    (second : ∀ e e', TwoRun err (handler e) (handler' e') post err') :
    TwoRun pre (recover p handler) (recover q handler') post err' := by
  refine first.through (fun a b s t reached x y run runToo => ?_) second
  cases run
  cases runToo
  exact reached

theorem TwoRun.always {cleanup : σ → Option σ} (first : TwoRun pre p q post err)
    (value : ∀ a b s t s' t', post a b s t → cleanup s = some s' → cleanup t = some t' →
      post' a b s' t')
    (error : ∀ s t s' t', err s t → cleanup s = some s' → cleanup t = some t' → err' s' t') :
    TwoRun pre (always p cleanup) (always q cleanup) post' err' := by
  refine first.through (fun a b s t reached x y run runToo => ?_)
    fun e e' s t broken x y run runToo => ?_
  all_goals
    obtain ⟨s', cleaned, rfl⟩ := Option.map_eq_some_iff.mp run
    obtain ⟨t', cleanedToo, rfl⟩ := Option.map_eq_some_iff.mp runToo
  · exact value a b s t s' t' reached cleaned cleanedToo
  · exact error s t s' t' broken cleaned cleanedToo

theorem TwoRun.of_triples {left right : σ → Prop} {leftPost rightPost : α → σ → Prop}
    (first : Triple left p leftPost fun _ => False)
    (second : Triple right q rightPost fun _ => False)
    (enter : ∀ s t, pre s t → left s ∧ right t)
    (leave : ∀ a b s t, leftPost a s → rightPost b t → post a b s t) :
    TwoRun pre p q post err := by
  rintro s t start ⟨leftResult, s'⟩ ⟨rightResult, t'⟩ ran ranToo
  have reached := first s (enter s t start).1 _ ran
  have reachedToo := second t (enter s t start).2 _ ranToo
  cases leftResult with
  | ok a =>
    cases rightResult with
    | ok b => exact leave a b s' t' reached reachedToo
    | error e => exact reachedToo.elim
  | error e => exact reached.elim

theorem TwoRun.withTriples {left right : σ → Prop} {leftPost rightPost : α → σ → Prop}
    {leftErr rightErr : σ → Prop} (runs : TwoRun pre p q post err)
    (first : Triple left p leftPost leftErr) (second : Triple right q rightPost rightErr) :
    TwoRun (fun s t => pre s t ∧ left s ∧ right t) p q
      (fun a b s t => post a b s t ∧ leftPost a s ∧ rightPost b t)
      fun s t => err s t ∧ leftErr s ∧ rightErr t := by
  rintro s t ⟨start, before, beforeToo⟩ ⟨leftResult, s'⟩ ⟨rightResult, t'⟩ ran ranToo
  have reached := runs s t start _ _ ran ranToo
  have alone := first s before _ ran
  have aloneToo := second t beforeToo _ ranToo
  cases leftResult <;> cases rightResult
  · exact ⟨reached, alone, aloneToo⟩
  · exact reached
  · exact reached
  · exact ⟨reached, alone, aloneToo⟩

theorem TwoRun.zoom {view : σ → τ} {put : τ → σ → σ} {p q : Prog ε τ α} {within : τ → τ → Prop}
    {after : α → α → τ → τ → Prop} {broken : τ → τ → Prop} (inner : TwoRun within p q after broken)
    (enter : ∀ s t, pre s t → within (view s) (view t))
    (value : ∀ s t a b u v, pre s t → after a b u v → post a b (put u s) (put v t))
    (error : ∀ s t u v, pre s t → broken u v → err (put u s) (put v t)) :
    TwoRun pre (zoom view put p) (zoom view put q) post err := by
  intro s t start x y run runToo
  obtain ⟨⟨left, u⟩, ran, rfl⟩ := Option.map_eq_some_iff.mp run
  obtain ⟨⟨right, v⟩, ranToo, rfl⟩ := Option.map_eq_some_iff.mp runToo
  have reached := inner _ _ (enter s t start) _ _ ran ranToo
  cases left <;> cases right
  · exact error s t u v start reached
  · exact reached.elim
  · exact reached.elim
  · exact value s t _ _ u v start reached

end Two

/-! ### Two runs that end with values -/

section BothOk

variable {ε σ α β : Type}

def BothOk (pre : σ → σ → Prop) (p q : Prog ε σ α) (post : α → α → σ → σ → Prop) : Prop :=
  ∀ s t, pre s t → ∀ a b s' t', p s = some (.ok a, s') → q t = some (.ok b, t') → post a b s' t'

variable {pre : σ → σ → Prop} {p q : Prog ε σ α} {f g : α → Prog ε σ β}
  {post : α → α → σ → σ → Prop} {next : β → β → σ → σ → Prop} {err : σ → σ → Prop}

theorem TwoRun.bothOk (runs : TwoRun pre p q post err) : BothOk pre p q post :=
  fun s t start _ _ _ _ run runToo => runs s t start _ _ run runToo

theorem BothOk.fact {holds : Prop} (rest : holds → BothOk pre p q post) :
    BothOk (fun s t => holds ∧ pre s t) p q post := fun s t start => rest start.1 s t start.2

theorem Prog.bind_eq_ok {p : Prog ε σ α} {f : α → Prog ε σ β} {s s' : σ} {b : β}
    (run : (p >>= f) s = some (.ok b, s')) :
    ∃ a mid, p s = some (.ok a, mid) ∧ f a mid = some (.ok b, s') := by
  rw [Prog.bind_apply, Option.bind_eq_some_iff] at run
  obtain ⟨⟨result, mid⟩, ran, rest⟩ := run
  cases result with
  | ok a => exact ⟨a, mid, ran, rest⟩
  | error e => cases rest

theorem BothOk.bind (first : BothOk pre p q post)
    (second : ∀ a b, BothOk (post a b) (f a) (g b) next) : BothOk pre (p >>= f) (q >>= g) next := by
  intro s t start a b s' t' run runToo
  obtain ⟨c, mid, ran, rest⟩ := Prog.bind_eq_ok run
  obtain ⟨d, midToo, ranToo, restToo⟩ := Prog.bind_eq_ok runToo
  exact second c d mid midToo (first s t start c d mid midToo ran ranToo) a b s' t' rest restToo

theorem BothOk.ite {c : Prop} [Decidable c] {p' q' : Prog ε σ α}
    (yes : c → BothOk pre p q post) (no : ¬ c → BothOk pre p' q' post) :
    BothOk pre (if c then p else p') (if c then q else q') post := by
  by_cases holds : c
  · rw [if_pos holds, if_pos holds]
    exact yes holds
  · rw [if_neg holds, if_neg holds]
    exact no holds

theorem BothOk.fail {e : ε} : BothOk pre (Prog.fail e : Prog ε σ α) q post := by
  intro s t _ a b s' t' run
  cases run

theorem BothOk.of_triples {left right : σ → Prop} {leftPost rightPost : α → σ → Prop}
    {leftErr rightErr : σ → Prop} (first : Triple left p leftPost leftErr)
    (second : Triple right q rightPost rightErr) (enter : ∀ s t, pre s t → left s ∧ right t)
    (leave : ∀ a b s t, leftPost a s → rightPost b t → post a b s t) : BothOk pre p q post :=
  fun s t start a b s' t' run runToo =>
    leave a b s' t' (first s (enter s t start).1 _ run) (second t (enter s t start).2 _ runToo)

end BothOk

end Cboot
