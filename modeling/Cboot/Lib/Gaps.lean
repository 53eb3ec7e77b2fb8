/-
**The gaps of a sweep.**

A sweep goes through a list of half-open intervals and reports what lies between the end of each one
and the start of the next, from a first point to a last one. The intervals may overlap, so the end
of the interval last passed need not be the furthest point reached.

* `mem_gaps`: the gaps are the non-empty ranges at the cuts of the list.
* `mem_gaps_iff_maximal`, `gaps_increasing`: for intervals one behind the other, the gaps are the
  maximal free ranges, in increasing order.
-/

import Mathlib

namespace Cboot.Gaps

variable {ι τ : Type} [LinearOrder τ]

def Overlap (low high low' high' : τ) : Prop := ∃ x, low ≤ x ∧ x < high ∧ low' ≤ x ∧ x < high'

section Sweep

variable (start finish : ι → τ)

def gaps (cur : τ) : List ι → τ → List (τ × τ)
  | [], stop => if cur < stop then [(cur, stop)] else []
  | c :: rest, stop =>
    (if cur < start c then [(cur, start c)] else []) ++ gaps (finish c) rest stop

def lastFinish (cur : τ) : List ι → τ
  | [] => cur
  | c :: passed => lastFinish (finish c) passed

def nextStart (stop : τ) : List ι → τ
  | [] => stop
  | c :: _ => start c

end Sweep

variable {start finish : ι → τ} {cur stop limit : τ} {l passed coming : List ι}

omit [LinearOrder τ] in
theorem lastFinish_append (cur : τ) (passed : List ι) (c : ι) :
    lastFinish finish cur (passed ++ [c]) = finish c := by
  induction passed generalizing cur with
  | nil => rfl
  | cons d passed ih => exact ih (finish d)

theorem mem_gaps {gap : τ × τ} :
    gap ∈ gaps start finish cur l stop ↔ gap.1 < gap.2 ∧ ∃ passed coming, l = passed ++ coming ∧
      gap = (lastFinish finish cur passed, nextStart start stop coming) := by
  have single : ∀ low high : τ, gap ∈ (if low < high then [(low, high)] else []) ↔
      gap.1 < gap.2 ∧ gap = (low, high) := by
    intro low high
    by_cases open' : low < high
    · rw [if_pos open', List.mem_singleton]
      exact ⟨fun same => ⟨same ▸ open', same⟩, fun both => both.2⟩
    · rw [if_neg open']
      refine ⟨fun absent => absurd absent List.not_mem_nil, ?_⟩
      rintro ⟨isOpen, rfl⟩
      exact absurd isOpen open'
  induction l generalizing cur with
  | nil =>
    rw [gaps, single]
    refine and_congr_right fun _ => ⟨fun same => ⟨[], [], rfl, same⟩, ?_⟩
    rintro ⟨passed, coming, cut, same⟩
    obtain ⟨rfl, rfl⟩ := List.append_eq_nil_iff.mp cut.symm
    exact same
  | cons c rest ih =>
    rw [gaps, List.mem_append]
    refine (or_congr (single cur (start c)) ih).trans ?_
    rw [← and_or_left]
    refine and_congr_right fun _ => ⟨?_, ?_⟩
    · rintro (same | ⟨passed, coming, rfl, same⟩)
      · exact ⟨[], c :: rest, rfl, same⟩
      · exact ⟨c :: passed, coming, rfl, same⟩
    · rintro ⟨passed, coming, cut, same⟩
      cases passed with
      | nil =>
        rw [List.nil_append] at cut
        exact .inl (by rw [same, ← cut]; rfl)
      | cons d passed =>
        obtain ⟨rfl, rest⟩ := List.cons_eq_cons.mp cut
        exact .inr ⟨passed, coming, rest, same⟩

theorem start_lt_lastFinish (sorted : (passed ++ coming).Pairwise fun c d => start c ≤ start d)
    (proper : ∀ c ∈ passed ++ coming, start c < finish c) {c : ι} (member : c ∈ passed) :
    start c < lastFinish finish cur passed := by
  obtain ⟨before, last, rfl⟩ := List.eq_nil_or_concat passed |>.resolve_left
    (List.ne_nil_of_mem member)
  rw [List.concat_eq_append] at *
  have order := (List.pairwise_append.mp sorted).1
  have upTo : start c ≤ start last := by
    rcases List.mem_append.mp member with earlier | here
    · exact (List.pairwise_append.mp order).2.2 c earlier last (List.mem_singleton_self last)
    · rw [List.mem_singleton.mp here]
  rw [lastFinish_append]
  exact lt_of_le_of_lt upTo (proper last (by simp))

theorem nextStart_le (sorted : coming.Pairwise fun c d => start c ≤ start d) {c : ι}
    (member : c ∈ coming) : nextStart start stop coming ≤ start c := by
  cases coming with
  | nil => exact absurd member List.not_mem_nil
  | cons d rest =>
    rcases List.mem_cons.mp member with rfl | later
    · exact le_refl _
    · exact (List.pairwise_cons.mp sorted).1 c later

theorem gaps_clear_iff (cur stop : τ) (sorted : l.Pairwise fun c d => start c ≤ start d)
    (proper : ∀ c ∈ l, start c < finish c) :
    (∀ gap ∈ gaps start finish cur l stop, ∀ c ∈ l,
        ¬ Overlap gap.1 gap.2 (start c) (finish c)) ↔
      ∀ passed coming, l = passed ++ coming →
        lastFinish finish cur passed < nextStart start stop coming →
        ∀ c ∈ passed, finish c ≤ lastFinish finish cur passed := by
  constructor
  · intro clear passed coming cut isGap c member
    by_contra beyond
    refine clear _ (mem_gaps.mpr ⟨isGap, passed, coming, cut, rfl⟩) c ?_ ?_
    · rw [cut]
      exact List.mem_append_left _ member
    · rw [cut] at sorted proper
      exact ⟨_, le_refl _, isGap, (start_lt_lastFinish sorted proper member).le, not_le.mp beyond⟩
  · rintro reaches gap found c member ⟨x, low, high, low', high'⟩
    obtain ⟨isGap, passed, coming, rfl, rfl⟩ := mem_gaps.mp found
    rcases List.mem_append.mp member with before | after
    · exact absurd (lt_of_lt_of_le high' (reaches passed coming rfl isGap c before)) (not_lt.mpr low)
    · have ordered := (List.pairwise_append.mp sorted).2.1
      exact absurd (lt_of_lt_of_le high (nextStart_le ordered after)) (not_lt.mpr low')

theorem le_lastFinish (above : ∀ c ∈ passed, cur ≤ finish c) :
    cur ≤ lastFinish finish cur passed := by
  rcases List.eq_nil_or_concat passed with rfl | ⟨before, last, rfl⟩
  · exact le_refl _
  · rw [List.concat_eq_append] at *
    rw [lastFinish_append]
    exact above last (by simp)

theorem gaps_inside_iff (start : ι → τ) (above : ∀ c ∈ l, cur ≤ finish c) (last : stop ≤ limit) :
    (∀ gap ∈ gaps start finish cur l stop, cur ≤ gap.1 ∧ gap.2 ≤ limit) ↔
      ∀ passed c coming, l = passed ++ c :: coming →
        lastFinish finish cur passed < start c → start c ≤ limit := by
  constructor
  · intro inside passed c coming cut isGap
    exact (inside _ (mem_gaps.mpr ⟨isGap, passed, c :: coming, cut, rfl⟩)).2
  · rintro below gap found
    obtain ⟨isGap, passed, coming, rfl, rfl⟩ := mem_gaps.mp found
    refine ⟨le_lastFinish fun c member => above c (List.mem_append_left _ member), ?_⟩
    cases coming with
    | nil => exact last
    | cons c coming => exact below passed c coming rfl isGap

/-! ### Intervals one behind the other -/

structure Free (start finish : ι → τ) (cur : τ) (l : List ι) (stop low high : τ) : Prop where
  proper : low < high
  above : cur ≤ low
  below : high ≤ stop
  clear : ∀ c ∈ l, ¬ Overlap low high (start c) (finish c)

def MaximalFree (start finish : ι → τ) (cur : τ) (l : List ι) (stop low high : τ) : Prop :=
  Free start finish cur l stop low high ∧ ∀ low' high', Free start finish cur l stop low' high' →
    low' ≤ low → high ≤ high' → low' = low ∧ high' = high

theorem free_congr {l' : List ι} {low high : τ} (same : ∀ c, c ∈ l ↔ c ∈ l') :
    Free start finish cur l stop low high ↔ Free start finish cur l' stop low high :=
  ⟨fun free => { free with clear := fun c member => free.clear c ((same c).mpr member) },
    fun free => { free with clear := fun c member => free.clear c ((same c).mp member) }⟩

theorem maximalFree_congr {l' : List ι} {low high : τ} (same : ∀ c, c ∈ l ↔ c ∈ l') :
    MaximalFree start finish cur l stop low high ↔ MaximalFree start finish cur l' stop low high := by
  simp only [MaximalFree, free_congr same]

theorem apart_of_not_overlap {low high low' high' : τ} (proper : low < high) (proper' : low' < high')
    (clear : ¬ Overlap low high low' high') : high ≤ low' ∨ high' ≤ low := by
  by_contra both
  obtain ⟨first, second⟩ := not_or.mp both
  have high_ := not_le.mp first
  have low_ := not_le.mp second
  exact clear ⟨max low low', le_max_left _ _, max_lt proper high_, le_max_right _ _,
    max_lt low_ proper'⟩

structure InOrder (start finish : ι → τ) (cur : τ) (l : List ι) (stop : τ) : Prop where
  order : l.Pairwise fun c d => finish c ≤ start d
  proper : ∀ c ∈ l, start c < finish c
  above : ∀ c ∈ l, cur ≤ start c
  below : ∀ c ∈ l, finish c ≤ stop

theorem Free.cut (proper : ∀ c ∈ l, start c < finish c) {low high : τ}
    (free : Free start finish cur l stop low high) : ∃ passed coming, l = passed ++ coming ∧
      lastFinish finish cur passed ≤ low ∧ high ≤ nextStart start stop coming := by
  induction l generalizing cur with
  | nil => exact ⟨[], [], rfl, free.above, free.below⟩
  | cons c rest ih =>
    have here : c ∈ c :: rest := .head _
    rcases apart_of_not_overlap free.proper (proper c here) (free.clear c here) with before | behind
    · exact ⟨[], c :: rest, rfl, free.above, before⟩
    · have later : Free start finish (finish c) rest stop low high :=
        ⟨free.proper, behind, free.below, fun d member => free.clear d (.tail c member)⟩
      obtain ⟨passed, coming, rfl, low_, high_⟩ :=
        ih (fun d member => proper d (.tail c member)) later
      exact ⟨c :: passed, coming, rfl, low_, high_⟩

section

variable (inOrder : InOrder start finish cur (passed ++ coming) stop)
include inOrder

theorem InOrder.sides :
    (∀ c ∈ passed, finish c ≤ lastFinish finish cur passed) ∧
      ∀ c ∈ coming, nextStart start stop coming ≤ start c := by
  obtain ⟨first, second, -⟩ := List.pairwise_append.mp inOrder.order
  refine ⟨fun c member => ?_, fun c member => ?_⟩
  · obtain ⟨before, last, rfl⟩ := List.eq_nil_or_concat passed |>.resolve_left
      (List.ne_nil_of_mem member)
    rw [List.concat_eq_append] at *
    rw [lastFinish_append]
    rcases List.mem_append.mp member with earlier | here
    · have behind := (List.pairwise_append.mp first).2.2 c earlier last (List.mem_singleton_self last)
      exact behind.trans (inOrder.proper last (by simp)).le
    · rw [List.mem_singleton.mp here]
  · refine nextStart_le (second.imp_of_mem fun inside _ behind => ?_) member
    exact (inOrder.proper _ (List.mem_append_right _ inside)).le.trans behind

theorem InOrder.free
    (isGap : lastFinish finish cur passed < nextStart start stop coming) :
    Free start finish cur (passed ++ coming) stop (lastFinish finish cur passed)
      (nextStart start stop coming) where
  proper := isGap
  above := le_lastFinish fun c member =>
    (inOrder.above c (List.mem_append_left _ member)).trans
      (inOrder.proper c (List.mem_append_left _ member)).le
  below := by
    cases coming with
    | nil => exact le_rfl
    | cons c rest =>
      have member : c ∈ passed ++ c :: rest := by simp
      exact (inOrder.proper c member).le.trans (inOrder.below c member)
  clear := by
    rintro c member ⟨x, low, high, low', high'⟩
    rcases List.mem_append.mp member with before | after
    · exact absurd (lt_of_lt_of_le high' (inOrder.sides.1 c before)) (not_lt.mpr low)
    · exact absurd (lt_of_lt_of_le high (inOrder.sides.2 c after)) (not_lt.mpr low')

theorem InOrder.maximal
    (isGap : lastFinish finish cur passed < nextStart start stop coming) {low high : τ}
    (free : Free start finish cur (passed ++ coming) stop low high)
    (lower : low ≤ lastFinish finish cur passed) (higher : nextStart start stop coming ≤ high) :
    low = lastFinish finish cur passed ∧ high = nextStart start stop coming := by
  refine ⟨le_antisymm lower ?_, le_antisymm ?_ higher⟩
  · rcases List.eq_nil_or_concat passed with rfl | ⟨before, last, rfl⟩
    · exact free.above
    · rw [List.concat_eq_append] at *
      have member : last ∈ before ++ [last] ++ coming := by simp
      rw [lastFinish_append] at *
      rcases apart_of_not_overlap free.proper (inOrder.proper last member) (free.clear last member)
        with wrong | behind
      · exact absurd ((inOrder.proper last member).trans (isGap.trans_le higher)) (not_lt.mpr wrong)
      · exact behind
  · cases coming with
    | nil => exact free.below
    | cons c rest =>
      have member : c ∈ passed ++ c :: rest := by simp
      rcases apart_of_not_overlap free.proper (inOrder.proper c member) (free.clear c member)
        with before | wrong
      · exact before
      · exact absurd (lower.trans_lt (isGap.trans (inOrder.proper c member))) (not_lt.mpr wrong)

end

theorem mem_gaps_iff_maximal (inOrder : InOrder start finish cur l stop) {gap : τ × τ} :
    gap ∈ gaps start finish cur l stop ↔ MaximalFree start finish cur l stop gap.1 gap.2 := by
  rw [mem_gaps]
  constructor
  · rintro ⟨isGap, passed, coming, rfl, rfl⟩
    exact ⟨inOrder.free isGap, fun low high free lower higher =>
      inOrder.maximal isGap free lower higher⟩
  · rintro ⟨free, maximal⟩
    obtain ⟨passed, coming, rfl, lower, higher⟩ := free.cut inOrder.proper
    have isGap := lower.trans_lt (free.proper.trans_le higher)
    obtain ⟨low, high⟩ := maximal _ _ (inOrder.free isGap) lower higher
    exact ⟨free.proper, passed, coming, rfl, Prod.ext low.symm high.symm⟩

theorem le_of_mem_gaps (above : ∀ c ∈ l, cur ≤ finish c) {gap : τ × τ}
    (member : gap ∈ gaps start finish cur l stop) : cur ≤ gap.1 := by
  obtain ⟨-, passed, coming, rfl, rfl⟩ := mem_gaps.mp member
  exact le_lastFinish fun c member => above c (List.mem_append_left _ member)

theorem gaps_increasing (inOrder : InOrder start finish cur l stop) :
    (gaps start finish cur l stop).Pairwise fun first second => first.2 < second.1 := by
  induction l generalizing cur with
  | nil =>
    rw [gaps]
    split
    · exact List.pairwise_singleton _ _
    · exact List.Pairwise.nil
  | cons c rest ih =>
    obtain ⟨behind, order⟩ := List.pairwise_cons.mp inOrder.order
    have here : c ∈ c :: rest := .head _
    have later : InOrder start finish (finish c) rest stop :=
      ⟨order, fun d member => inOrder.proper d (.tail c member), behind,
        fun d member => inOrder.below d (.tail c member)⟩
    rw [gaps, List.pairwise_append]
    refine ⟨?_, ih later, fun first isFirst second isSecond => ?_⟩
    · split
      · exact List.pairwise_singleton _ _
      · exact List.Pairwise.nil
    · have low : finish c ≤ second.1 := le_of_mem_gaps (fun d member =>
        (later.above d member).trans (later.proper d member).le) isSecond
      split at isFirst
      · rw [List.mem_singleton.mp isFirst]
        exact (inOrder.proper c here).trans_le low
      · exact absurd isFirst List.not_mem_nil

end Cboot.Gaps
