/-
**What an answer to a flash command says.**

`cmd_flash` drops the result of the write of a raw image, and a sparse image may end before the
blocks that its header counts. Both are answered with `OKAY`.
-/

import Cboot.Fastboot.Laws
import Cboot.Sparse.Rounds

namespace Cboot.Fastboot

open Prog PartitionManager BlUpdate Sparse

/-! ### The decoder with a count -/

section Counted

variable {τ : Type} {out : Output τ} {buff : ByteMem}

theorem counted_fst (result : Result Unit × τ) (total size : Nat) :
    (counted result total size).1 = result.1 ∧ (counted result total size).2.1 = result.2 := by
  obtain ⟨_ | _, t⟩ := result
  · exact ⟨rfl, rfl⟩
  · exact ⟨rfl, rfl⟩

theorem fillLoop_counted (value : BitVec 32) (sizes : List (Nat × Nat)) (t : τ) (n : Nat) :
    (fillLoop out.counted value sizes (t, n)).1 = (fillLoop out value sizes t).1 ∧
      (fillLoop out.counted value sizes (t, n)).2.1 = (fillLoop out value sizes t).2 := by
  induction sizes generalizing t n with
  | nil => exact ⟨rfl, rfl⟩
  | cons first rest ih =>
    simp only [fillLoop, Output.counted]
    rcases out.writer (.fill value) first.2 t with ⟨_ | _, u⟩
    · exact ⟨rfl, rfl⟩
    · exact ih u _

theorem afterOutput_counted {result : Result Unit × τ × Nat} {plain : Result Unit × τ} {work : Work}
    (same : result.1 = plain.1 ∧ result.2.1 = plain.2) :
    (afterOutput result work).1 = (afterOutput plain work).1 ∧
      (afterOutput result work).2.1 = (afterOutput plain work).2 := by
  obtain ⟨ended, t, n⟩ := result
  obtain ⟨rfl, rfl⟩ := same
  simp only [afterOutput]
  split <;> exact ⟨rfl, rfl⟩

theorem round_counted (work : Work) (t : τ) (n : Nat) :
    (round out.counted buff work (t, n)).1 = (round out buff work t).1 ∧
      (round out.counted buff work (t, n)).2.1 = (round out buff work t).2 := by
  unfold Sparse.round
  cases work.state with
  | raw | dontCare => exact afterOutput_counted (counted_fst _ _ _)
  | fill =>
    simp only [fillRound]
    split_ifs
    · exact ⟨rfl, rfl⟩
    · exact afterOutput_counted (fillLoop_counted _ _ _ _)
    · exact afterOutput_counted (fillLoop_counted _ _ _ _)
  | _ => exact ⟨rfl, rfl⟩

theorem loop_counted (rounds : Nat) (work : Work) (t : τ) (n : Nat) :
    (unsparseLoop out.counted buff rounds work (t, n)).1 = (unsparseLoop out buff rounds work t).1 := by
  induction rounds generalizing work t n with
  | zero => rfl
  | succ rounds ih =>
    obtain ⟨sameEnd, sameState⟩ := @round_counted τ out buff work t n
    rw [unsparseLoop, unsparseLoop]
    split
    · rcases ran : round out buff work t with ⟨next | error | -, u⟩ <;>
        rcases ranToo : round out.counted buff work (t, n) with ⟨ended, u', m⟩ <;>
        rw [ran, ranToo] at sameEnd sameState <;> cases sameEnd <;> cases sameState
      · exact ih next u m
      · rfl
      · rfl
    · rfl

end Counted

/-! ### Answers -/

section Flash

variable {σ : Type} (env : Env σ) (arg : List Byte) (s s' : FastbootState σ)

structure Job where
  name : List Byte
  target : Target
  base : Nat
  size : Nat
  some_ : size ≠ 0

def flashJob : Option Job := do
  let base ← s.downloadBase
  let info ← tegrablFastbootGetPartinfo arg
  let name ← tegrablFastbootGetTegraPartName (tegrablABGetPartSuffix arg) info
  let target ← (openPartition env.platform name).toOption
  if none_ : s.downloadSize = 0 then none else return ⟨name, target, base, s.downloadSize, none_⟩

def Starts (job : Job) : Prop :=
  tegrablIsDeviceUnlocked env s = some (.ok (.ok true), s') ∧ flashJob env arg s' = some job

def AnswersOkay (p : Handler σ Unit) : Prop :=
  ∃ s', p s = some (.ok (), s') ∧ s'.fastbootState = .complete ∧
    s'.log.trace.head? = some (.send (letters "OKAY"))

variable (job : Job)

def Job.isSparse : Bool := tegrablSparseImageCheck (s.mem.view job.base) job.size

def Job.output : Output (Log σ) := flashOutput env job.target job.base

def Job.unsparse {τ : Type} (out : Output τ) : UnsparseState → τ → CallEnd × τ :=
  fun first => tegrablSparseUnsparse out (s.mem.view job.base) env.rounds first job.size

def Unsparsed (first last : UnsparseState) (count : Nat) : Prop :=
  tegrablSparseInitUnsparseState (partitionSize env.platform.storage job.name) = .ok first ∧
    ∃ log, job.unsparse env s (job.output env).counted first (s.log, 0) = (.done last, log, count)

def imageSize (state : UnsparseState) : Nat :=
  (blkSz state.imageHeader).toNat * (totalBlks state.imageHeader).toNat

def Flashed : Prop :=
  if job.isSparse s then ∃ first last count, Unsparsed env s job first last count ∧
    last.state ≠ .imageHeader ∧ last.pending = 0 ∧ imageSize last ≤ count
  else (counted (writeLogged env.platform job.target job.base job.size s.log) 0 job.size).2.2 =
    job.size

def Whole : Prop :=
  if job.isSparse s then ∀ first last count, Unsparsed env s job first last count →
    last.state ≠ .imageHeader ∧ last.pending = 0 ∧ ∃ work log promised,
      work.toUnsparseState = last ∧ imageSize last ≤ promised ∧ Run (fun _ =>
        (job.output env).counted) first (s.log, 0) (s.mem.view job.base) work (log, count) promised
  else (env.platform.write job.target job.base job.size s.log.world).1 = .ok ()

variable {env arg s s' job}

theorem Unsparsed.run {first last : UnsparseState} {count : Nat}
    (unsparsed : Unsparsed env s job first last count) : ∃ work log promised,
      work.toUnsparseState = last ∧ Run (fun _ => (job.output env).counted) first (s.log, 0)
        (s.mem.view job.base) work (log, count) promised := by
  obtain ⟨-, log, ran⟩ := unsparsed
  unfold Job.unsparse tegrablSparseUnsparse at ran
  rw [if_neg job.some_] at ran
  obtain ⟨work, promised, run, -, same⟩ :=
    @Run.done _ (fun _ => (job.output env).counted) _ _ _ _ _ _ _ _ _ (.first job.some_) ran
  exact ⟨work, log, promised, same, run⟩

def Taken (env : Env σ) (s : FastbootState σ) (job : Job) : Prop :=
  job.isSparse s = true → ∃ first last count, Unsparsed env s job first last count

theorem flashed_iff_whole (taken : Taken env s job) : Flashed env s job ↔ Whole env s job := by
  unfold Flashed Whole
  split
  case isTrue sparse =>
    constructor
    · rintro ⟨first, last, count, ⟨fresh, log, ran⟩, header, none_, whole⟩ first' last' count'
        ⟨fresh', log', ran'⟩
      cases fresh.symm.trans fresh'
      cases ran.symm.trans ran'
      obtain ⟨work, end_, promised, rfl, run⟩ := Unsparsed.run ⟨fresh, log, ran⟩
      have books := run.books (init_sound fresh).2
      exact ⟨header, none_, work, end_, promised, rfl, by omega, run⟩
    · intro whole
      obtain ⟨first, last, count, unsparsed⟩ := taken sparse
      obtain ⟨header, none_, work, _, promised, rfl, le, run⟩ := whole first last count unsparsed
      have books := run.books (init_sound unsparsed.1).2
      exact ⟨first, _, count, unsparsed, header, none_, by omega⟩
  case isFalse =>
    rcases ran : env.platform.write job.target job.base job.size s.log.world with ⟨_ | _, world⟩
    · simpa [counted, writeLogged, Log.run, Log.add, ran] using job.some_.symm
    · simp [counted, writeLogged, Log.run, Log.add, ran]

theorem bind_answers {α : Type} {p : Handler σ α} {a : α} {f : α → Handler σ Unit}
    (ran : p s = some (.ok a, s')) : AnswersOkay s (p >>= f) ↔ AnswersOkay s' (f a) := by
  unfold AnswersOkay
  rw [bind_ok ran]

variable (ready : s.fastbootState = .command)
include ready

theorem ack_answers {code : String} (reason : List Byte) (last : code ≠ "INFO") :
    AnswersOkay s (fastbootAck env code reason) ↔
      (letters code ++ reason).take (maxResponseSize - 1) = letters "OKAY" := by
  have run : ∃ s', fastbootAck env code reason s = some (.ok (), s') ∧
      s'.fastbootState = .complete ∧ s'.log.trace.head? =
        some (.send ((letters code ++ reason).take (maxResponseSize - 1))) := by
    rw [fastbootAck, read_bind, if_neg (not_not.mpr ready), modify_bind, if_neg last]
    exact ⟨_, rfl, rfl, rfl⟩
  obtain ⟨s', ran, complete, said⟩ := run
  constructor
  · rintro ⟨s'', ranToo, -, okay⟩
    cases ran.symm.trans ranToo
    exact Event.send.inj (Option.some.inj (said.symm.trans okay))
  · exact fun same => ⟨s', ran, complete, same ▸ said⟩

theorem fail_answers (reason : String) : ¬AnswersOkay s (fastbootFail env reason) := by
  intro okay
  have first := congrArg List.head? ((ack_answers ready _ (by decide)).mp okay)
  exact absurd (Option.some.inj first) (by decide)

theorem silent_answers : ¬AnswersOkay s (pure ()) := by
  rintro ⟨s', ran, complete, -⟩
  cases ran
  exact nomatch ready.symm.trans complete

theorem flashExit_answers {result : Result Unit} :
    AnswersOkay s (flashExit env result) ↔ result = .ok () := by
  cases result with
  | ok _ => exact (ack_answers ready [] (by decide)).trans (iff_of_true (by decide) rfl)
  | error e => exact iff_of_false (fail_answers ready _) nofun

theorem flashSparse_answers (first : UnsparseState) :
    AnswersOkay s (flashSparse env job.target job.base job.size first >>= flashExit env) ↔
      ∃ last count log, job.unsparse env s (job.output env).counted first (s.log, 0) =
        (.done last, log, count) := by
  have same : (job.unsparse env s (job.output env).counted first (s.log, 0)).1 =
      (job.unsparse env s (job.output env) first s.log).1 := by
    unfold Job.unsparse tegrablSparseUnsparse
    rw [if_neg job.some_, if_neg job.some_]
    exact loop_counted _ _ _ _
  rcases ran : job.unsparse env s (job.output env) first s.log with ⟨ended, log⟩
  rcases ranToo : job.unsparse env s (job.output env).counted first (s.log, 0) with ⟨_, log', count⟩
  rw [ran, ranToo] at same
  cases same
  have logged : onLog (tegrablSparseUnsparse (flashOutput env job.target job.base)
      (s.mem.view job.base) env.rounds first job.size) s = some (.ok ended, s.setLog log) :=
    onLog_run ran
  have run : ∀ {result : Except Halt (Result Unit)},
      flashSparse env job.target job.base job.size first s = some (result, s.setLog log) →
      (AnswersOkay s (flashSparse env job.target job.base job.size first >>= flashExit env) ↔
        result = .ok (.ok ())) := by
    rintro (halt | ended) done
    · refine iff_of_false ?_ nofun
      rintro ⟨s', ran, -⟩
      cases (bind_error done _).symm.trans ran
    · refine (bind_answers done).trans ((flashExit_answers ?_).trans (by simp))
      exact ready
  rw [flashSparse, read_bind, bind_ok logged] at run
  cases ended with
  | done last => exact (run rfl).trans (iff_of_true rfl ⟨_, _, _, rfl⟩)
  | failed | unseen | overrun => exact (run rfl).trans (iff_of_false nofun (by simp))

theorem flashPartition_answers :
    AnswersOkay s (flashPartition env job.name job.target job.base job.size) ↔ Taken env s job := by
  rw [flashPartition, bind_answers (s := s) rfl, Taken, ← Job.isSparse]
  by_cases sparse : job.isSparse s = true
  · rw [if_pos sparse, imp_iff_right sparse]
    unfold Unsparsed
    cases tegrablSparseInitUnsparseState (partitionSize env.platform.storage job.name) with
    | error e => exact iff_of_false (silent_answers ready) (by simp)
    | ok first => exact (flashSparse_answers ready first).trans (by simp)
  · rw [if_neg sparse]
    refine (bind_answers rfl).trans ((flashExit_answers ?_).trans ?_)
    · exact ready
    · exact iff_of_true rfl (absurd · sparse)

variable (env) in
theorem asked_lock : ∃ answer s₁, tegrablIsDeviceUnlocked env s = some (.ok answer, s₁) ∧
    s₁.fastbootState = .command :=
  ⟨_, _, rfl, ready⟩

variable (image : tegrablABMatchPartNameWithSuffix (letters "bootloader") arg = false)
include image

theorem cmdFlash_answers : AnswersOkay s (cmdFlash env arg) ↔ ∃ s' job, Starts env arg s s' job ∧
    AnswersOkay s' (flashPartition env job.name job.target job.base job.size) := by
  obtain ⟨answer, s₁, asked, same⟩ := asked_lock env ready
  have failed := fun reason => @fail_answers σ env s₁ same reason
  rw [cmdFlash, whenUnlocked, bind_answers asked]
  unfold Starts
  simp only [asked]
  rcases answer with e | _ | _
  · exact iff_of_false (failed _) (by simp)
  · exact iff_of_false (failed _) (by simp)
  · refine (bind_answers (s := s₁) rfl).trans ?_
    unfold flashJob flashFrom
    rw [image]
    cases base : s₁.downloadBase with
    | none => simpa [base] using silent_answers same
    | some base =>
      by_cases none_ : s₁.downloadSize = 0
      · simpa [base, none_] using silent_answers same
      · cases tegrablFastbootGetPartinfo arg with
        | none => simpa [base, none_] using failed _
        | some info =>
          cases named : tegrablFastbootGetTegraPartName (tegrablABGetPartSuffix arg) info with
          | none => simpa [base, none_, named] using failed _
          | some name =>
            cases opened : openPartition env.platform name with
            | error e => simpa [base, none_, named, opened, Except.toOption] using failed _
            | ok target => simp [base, none_, named, opened, Except.toOption]

end Flash

def downloaded : FastbootState (List (List Byte)) :=
  { FastbootState.initial [] fun _ => 0 with
    fastbootState := .command, downloadBase := some 0x1000, downloadSize := 4 }

def brokenEnv : Env (List (List Byte)) :=
  { scriptEnv with platform := { scriptEnv.platform with
      write := fun _ _ _ host => (tegrablError .ufs .writeFailed 0, host) } }

end Cboot.Fastboot
