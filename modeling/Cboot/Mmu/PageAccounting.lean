/-
**The accounting of the table pages.**

Any number of mappings, of any range to any other, may be made from the tables that `arm64_mmu_init`
sets up. The pages of the tables are to be the pages marked as in use: each of them is referenced by
one descriptor, and none is in use without one.

Two things break this. A block that is written over a table frees that table only, so the tables
below it stay marked. And `allocate_tt_page` returns the page of its last call when there is no free
one, so the assertion behind it does not see that the pool is empty.
-/

import Cboot.Mmu.Frame

namespace Cboot.Mmu

open BitField Resource TableTree

/-! ### Trees of tables with any leaves -/

def anyLeaf (_ : Nat) (_ : Pte) : Prop := True

section Trees

variable (area : TtArea)

abbrev TreeAt (s : TtState) (height : Nat) (tt : BitVec 64) : Prop :=
  Owned nextTable anyLeaf s.mem (allocated area s) height tt

abbrev TreeUpdate (s s' : TtState) (height : Nat) (tt : BitVec 64) : Prop :=
  Update nextTable anyLeaf s.mem (allocated area s) s'.mem (allocated area s') height tt

abbrev TreeEntry (s s' : TtState) (height : Nat) (tt : BitVec 64) (index : Fin 512) : Prop :=
  EntryChange nextTable anyLeaf s.mem (allocated area s) s'.mem (allocated area s') height tt index

abbrev TightAt (s s' : TtState) (height : Nat) (tt : BitVec 64) : Prop :=
  Tight nextTable s.mem (allocated area s) s'.mem (allocated area s') height tt

variable {area} {s : TtState} {height : Nat} {tt : BitVec 64} {index : Fin 512}

theorem newTable_links {page : BitVec 64} {entries : Fin 512 → Pte} {s₁ : TtState}
    (owned : TreeAt area s (height + 1) tt) (isLeaf : nextTable (s.mem tt index) = none)
    (unused : page ∉ allocated area s) (kept : page &&& pteOutputAddrMask = page)
    (marked : allocated area s₁ = insert page (allocated area s))
    (filled : s₁.mem = Function.update s.mem page entries)
    (ends : 0 < height → ∀ j, nextTable (entries j) = none) :
    TreeEntry area s (putPte s₁ tt index (tablePte page)) height tt index ∧
      nextTable ((putPte s₁ tt index (tablePte page)).mem tt index) = some page ∧
      TightAt area s (putPte s₁ tt index (tablePte page)) (height + 1) tt := by
  obtain ⟨change, points, -⟩ :=
    newTable_change owned unused kept marked filled (fun _ => trivial) ends
  refine ⟨change, points, change.tight owned fun p inUse => ?_⟩
  rw [allocated_putPte, marked] at inUse
  rcases inUse with rfl | inUse
  · exact .inl ⟨p, points, self_mem_foot nextTable _ height p⟩
  · refine .inr ⟨inUse, ?_⟩
    rw [entryFoot_of_leaf isLeaf]
    exact Set.notMem_empty p

theorem nextTtOf_links (inRange : height + 1 ≤ 2) (owned : TreeAt area s (height + 1) tt) :
    Ensures RanOut (nextTtOf area (lastLevel - (height + 1)) tt index) s fun nextTt s' =>
      TreeEntry area s s' height tt index ∧ nextTable (s'.mem tt index) = some nextTt ∧
        TightAt area s s' (height + 1) tt := by
  refine nextTtOf_rule inRange (owned.owned (self_mem_foot nextTable s.mem _ tt)) ?_ ?_
  · exact fun nextTt points => ⟨(Update.refl (owned.child points)).entryChange owned points, points,
      Tight.refl _ _ _ _ _⟩
  · intro page s₁ entries isLeaf unused kept marked filled new
    exact newTable_links owned isLeaf unused kept marked filled new.ends

end Trees

/-! ### Whole pages -/

def wholePages (size : Nat) : Nat := (size + 4095) / 4096 * 4096

theorem pageSize_dvd_wholePages (size : Nat) : pageSize ∣ wholePages size := Nat.dvd_mul_left _ _

theorem le_wholePages (size : Nat) : size ≤ wholePages size := by
  unfold wholePages
  omega

theorem wholePages_of_pages {size : Nat} (pages : pageSize ∣ size) : wholePages size = size := by
  obtain ⟨count, rfl⟩ := pages
  unfold wholePages pageSize
  omega

theorem wholePages_mono {size size' : Nat} (le : size ≤ size') :
    wholePages size ≤ wholePages size' := by
  unfold wholePages
  omega

theorem wholePages_min (size height : Nat) :
    wholePages (min size (span height)) = min (wholePages size) (span height) := by
  have whole := wholePages_of_pages (pageSize_dvd_span height)
  rcases Nat.le_total size (span height) with short | long
  · rw [Nat.min_eq_left short, Nat.min_eq_left]
    rw [← whole]
    exact wholePages_mono short
  · rw [Nat.min_eq_right long, whole, Nat.min_eq_right (long.trans (le_wholePages size))]

theorem wholePages_sub {size mapped : Nat} (pages : pageSize ∣ mapped) :
    wholePages (size - mapped) = wholePages size - mapped := by
  obtain ⟨count, rfl⟩ := pages
  unfold wholePages pageSize
  omega

/-! ### Rounds -/

section Rounds

variable (area : TtArea)

structure CallSpec (height : Nat) (tt : BitVec 64) (vaddr size : Nat) (s : TtState) (mapped : Nat)
    (s' : TtState) : Prop where
  update : TreeUpdate area s s' height tt
  tight : TightAt area s s' height tt
  pages : pageSize ∣ mapped
  amount : pageSize ∣ vaddr →
    mapped = min (wholePages size) (blockEnd vaddr (height + 1) - vaddr)

/-- What a round of the loop does to the block of `vaddr`. `loses s block vaddr size` says that the
block is written over tables that are lost. -/
structure RoundSpec (height : Nat) (tt : BitVec 64) (loses : TtState → Nat → Nat → Nat → Prop)
    (vaddr size : Nat) (s : TtState) (mapped : Nat) (s' : TtState) : Prop where
  update : TreeUpdate area s s' height tt
  pages : pageSize ∣ mapped
  amount : pageSize ∣ vaddr → mapped = min (wholePages size) (blockEnd vaddr height - vaddr)
  tight : TightAt area s s' height tt ↔ ¬loses s (vaddr / span height) vaddr size
  later : ∀ block, (pageSize ∣ vaddr → vaddr / span height < block ∧
      block / 512 = vaddr / span height / 512) →
    (loses s' block (vaddr + mapped) (size - mapped) ↔ loses s block vaddr size)

def Loses (height : Nat) (tt : BitVec 64) (s : TtState) (block vaddr size : Nat) : Prop :=
  pageSize ∣ vaddr ∧ vaddr ≤ block * span (height + 1) ∧
    (block + 1) * span (height + 1) ≤ vaddr + size ∧
    Deep nextTable s.mem height (s.mem tt (Fin.ofNat 512 block))

variable {area} {s : TtState} {height : Nat} {tt : BitVec 64} {index : Fin 512}
  {flags : BitVec 32} {descend : BitVec 64 → Nat → Nat → Nat → TtM Nat} {vaddr paddr size : Nat}

theorem index_ne {first second : Nat} (different : first < second)
    (window : second / 512 = first / 512) : Fin.ofNat 512 second ≠ Fin.ofNat 512 first := by
  intro same
  have values : second % 512 = first % 512 := congrArg Fin.val same
  omega

theorem Loses.later {s' : TtState} {mapped block : Nat} (pages : pageSize ∣ mapped)
    (within : pageSize ∣ vaddr → vaddr + mapped ≤ blockEnd vaddr (height + 1))
    (others : pageSize ∣ vaddr → ∀ j, j ≠ vaIndex vaddr (height + 1) →
      (Deep nextTable s'.mem height (s'.mem tt j) ↔ Deep nextTable s.mem height (s.mem tt j)))
    (after : pageSize ∣ vaddr → vaddr / span (height + 1) < block ∧
      block / 512 = vaddr / span (height + 1) / 512) :
    Loses height tt s' block (vaddr + mapped) (size - mapped) ↔
      Loses height tt s block vaddr size := by
  by_cases onPage : pageSize ∣ vaddr
  · obtain ⟨beyond, window⟩ := after onPage
    have start : vaddr + mapped ≤ block * span (height + 1) :=
      (within onPage).trans (Nat.mul_le_mul_right _ beyond)
    have positive := span_pos (height + 1)
    have deep := others onPage (Fin.ofNat 512 block) (index_ne beyond window)
    have covered : (block + 1) * span (height + 1) ≤ vaddr + mapped + (size - mapped) ↔
        (block + 1) * span (height + 1) ≤ vaddr + size := by
      rw [Nat.add_one_mul]
      omega
    unfold Loses
    rw [deep, covered]
    refine and_congr (iff_of_true (Nat.dvd_add onPage pages) onPage) (and_congr_left fun _ => ?_)
    exact iff_of_true start ((Nat.le_add_right _ _).trans start)
  · refine iff_of_false (fun lost => onPage ?_) fun lost => onPage lost.1
    exact (Nat.dvd_add_iff_left pages).mpr lost.1

theorem descend_accounts {nextTt : BitVec 64} {s₁ s₂ : TtState} {mapped : Nat}
    (owned : TreeAt area s (height + 1) tt)
    (change : TreeEntry area s s₁ height tt index)
    (points : nextTable (s₁.mem tt index) = some nextTt)
    (tight : TightAt area s s₁ (height + 1) tt)
    (here : pageSize ∣ vaddr → index = vaIndex vaddr (height + 1))
    (kept : ¬Loses height tt s (vaddr / span (height + 1)) vaddr size)
    (below : CallSpec area height nextTt vaddr (min size (span (height + 1))) s₁ mapped s₂) :
    RoundSpec area (height + 1) tt (Loses height tt) vaddr size s mapped s₂ := by
  have update₁ := change.update owned
  have change₂ := below.update.entryChange update₁.after points
  have update₂ := change₂.update update₁.after
  have points₂ : nextTable (s₂.mem tt index) = some nextTt := by
    rw [(below.update.parent_kept update₁.after points).1]
    exact points
  have tight₂ : TightAt area s₁ s₂ (height + 1) tt :=
    change₂.tight update₁.after (below.tight.entry points points₂)
  have far := blockEnd_le vaddr (height + 1)
  have amount : pageSize ∣ vaddr →
      mapped = min (wholePages size) (blockEnd vaddr (height + 1) - vaddr) := by
    intro onPage
    have amount := below.amount onPage
    rw [wholePages_min] at amount
    omega
  refine ⟨update₁.trans update₂, below.pages, amount, ?_, fun block after => ?_⟩
  · exact iff_of_true ((update₁.tight_iff update₂).mpr ⟨tight, tight₂⟩) kept
  · refine Loses.later below.pages (fun onPage => ?_) (fun onPage j different => ?_) after
    · have near := lt_blockEnd vaddr (height + 1)
      have amount := amount onPage
      omega
    · rw [← here onPage] at different
      rw [change₂.deep_iff update₁.after different, change.deep_iff owned different]

theorem writeLeaf_accounts (inRange : height + 1 ≤ 2) (owned : TreeAt area s (height + 1) tt)
    (aligned : span (height + 1) ∣ vaddr) (covered : span (height + 1) ≤ size)
    (here : pageSize ∣ vaddr → index = vaIndex vaddr (height + 1)) :
    Ensures RanOut (writeLeaf area (lastLevel - (height + 1)) flags tt index paddr) s
      (RoundSpec area (height + 1) tt (Loses height tt) vaddr size s) := by
  obtain ⟨s', done, -, isLeaf, inUse, change⟩ := writeLeaf_above inRange owned trivial
  have onPage : pageSize ∣ vaddr := (pageSize_dvd_span _).trans aligned
  have last : blockEnd vaddr (height + 1) = vaddr + span (height + 1) := by
    rw [blockEnd, Nat.add_one_mul, Nat.div_mul_cancel aligned]
  have place := here onPage
  refine Ensures.of_ok done ⟨change.update owned, pageSize_dvd_span _, fun _ => ?_, ?_,
    fun block after => ?_⟩
  · have most := covered.trans (le_wholePages size)
    omega
  · have lost : Loses height tt s (vaddr / span (height + 1)) vaddr size ↔
        Deep nextTable s.mem height (s.mem tt index) := by
      unfold Loses
      rw [Nat.add_one_mul, Nat.div_mul_cancel aligned, place]
      exact ⟨fun all => all.2.2.2, fun deep => ⟨onPage, le_rfl, by omega, deep⟩⟩
    exact (change.newLeaf_tight_iff owned isLeaf inUse).trans (not_congr lost.symm)
  · refine Loses.later (pageSize_dvd_span _) (fun _ => last.ge) (fun _ j different => ?_) after
    rw [← place] at different
    exact change.deep_iff owned different

theorem mapIndex_accounts (inRange : height + 1 ≤ 2)
    (sticky : ∀ tt vaddr paddr size, Sticky RanOut (descend tt vaddr paddr size))
    (below : ∀ {tt s vaddr paddr size}, TreeAt area s height tt →
      Ensures RanOut (descend tt vaddr paddr size) s (CallSpec area height tt vaddr size s))
    (owned : TreeAt area s (height + 1) tt)
    (here : pageSize ∣ vaddr → index = vaIndex vaddr (height + 1)) :
    Ensures RanOut (mapIndex area descend (lastLevel - (height + 1)) flags tt index vaddr paddr
      size) s (RoundSpec area (height + 1) tt (Loses height tt) vaddr size s) := by
  rw [mapIndex_above_eq area inRange]
  by_cases covered : span (height + 1) ∣ vaddr ∧ span (height + 1) ≤ size
  · rw [if_pos covered]
    exact writeLeaf_accounts inRange owned covered.1 covered.2 here
  · rw [if_neg covered]
    refine Ensures.bind (fun nextTt => sticky nextTt _ _ _) ((nextTtOf_links inRange owned).mono ?_)
    rintro nextTt s₁ ⟨change, points, tight⟩
    have kept : ¬Loses height tt s (vaddr / span (height + 1)) vaddr size := by
      rintro ⟨-, start, stop, -⟩
      have split := Nat.div_add_mod' vaddr (span (height + 1))
      rw [Nat.add_one_mul] at stop
      exact covered ⟨Nat.dvd_of_mod_eq_zero (by omega), by omega⟩
    exact (below ((change.update owned).after.child points)).mono fun mapped s₂ spec =>
      descend_accounts owned change points tight here kept spec

theorem mapIndex_accounts_last (owned : TreeAt area s 0 tt) (positive : 0 < size) :
    Ensures RanOut (mapIndex area descend (lastLevel - 0) flags tt index vaddr paddr size) s
      (RoundSpec area 0 tt (fun _ _ _ _ => False) vaddr size s) := by
  unfold mapIndex
  rw [if_neg fun both => absurd both.2 (by decide)]
  obtain ⟨s', done, rfl, update⟩ := writeLeaf_last owned trivial
  refine Ensures.of_ok done ⟨update, pageSize_dvd_span 0, fun onPage => ?_,
    iff_of_true (Tight.refl nextTable s.mem _ 0 tt) id, fun _ _ => Iff.rfl⟩
  have aligned : span 0 ∣ vaddr := onPage
  have last : blockEnd vaddr 0 = vaddr + span 0 := by
    rw [blockEnd, Nat.add_one_mul, Nat.div_mul_cancel aligned]
  have one : span 0 ≤ wholePages size :=
    Nat.le_of_dvd (Nat.lt_of_lt_of_le positive (le_wholePages size)) (pageSize_dvd_wholePages size)
  omega

end Rounds

/-! ### The loop -/

section Loop

variable {area : TtArea} {s : TtState} {height : Nat} {tt : BitVec 64} {flags : BitVec 32}
  {descend : BitVec 64 → Nat → Nat → Nat → TtM Nat} {vaddr paddr size : Nat}
  {loses : TtState → Nat → Nat → Nat → Prop}

structure RestSpec (area : TtArea) (height : Nat) (tt : BitVec 64)
    (loses : TtState → Nat → Nat → Nat → Prop) (base index vaddr size total : Nat) (s : TtState)
    (total' : Nat) (s' : TtState) : Prop where
  update : TreeUpdate area s s' height tt
  pages : ∃ mapped, total' = total + mapped ∧ pageSize ∣ mapped ∧
    (pageSize ∣ vaddr → mapped = min (wholePages size) ((base + 1) * span (height + 1) - vaddr))
  tight : TightAt area s s' height tt ↔
    ¬∃ block, base * 512 + index ≤ block ∧ block < (base + 1) * 512 ∧ loses s block vaddr size

structure LossLaw (loses : TtState → Nat → Nat → Nat → Prop) : Prop where
  nothing : ∀ s block vaddr, ¬loses s block vaddr 0
  onPage : ∀ {s block vaddr size}, loses s block vaddr size → pageSize ∣ vaddr

theorem Loses.law (height : Nat) (tt : BitVec 64) : LossLaw (Loses height tt) := by
  refine ⟨fun s block vaddr lost => ?_, fun lost => lost.1⟩
  obtain ⟨-, start, stop, -⟩ := lost
  have positive := span_pos (height + 1)
  rw [Nat.add_one_mul] at stop
  omega

theorem RestSpec.stop {base index total : Nat} (law : LossLaw loses)
    (owned : TreeAt area s height tt)
    (placed : pageSize ∣ vaddr → Placed height base index vaddr size)
    (ended : index = 512 ∨ size = 0) :
    RestSpec area height tt loses base index vaddr size total s total s := by
  refine ⟨Update.refl owned, ⟨0, rfl, Nat.dvd_zero _, fun onPage => ?_⟩,
    iff_of_true (Tight.refl _ _ _ _ _) ?_⟩
  · rcases ended with rfl | rfl
    · rcases placed onPage with none | block
      · rw [none]
        exact (Nat.zero_min _).symm
      · rw [Nat.sub_eq_zero_of_le (end_le_of_full block), Nat.min_zero]
    · exact (Nat.zero_min _).symm
  · rintro ⟨block, above, below, lost⟩
    rcases ended with rfl | rfl
    · omega
    · exact law.nothing s block vaddr lost

theorem round_placed {base index mapped : Nat}
    (block : vaddr / span height = base * 512 + index)
    (amount : mapped = min (wholePages size) (blockEnd vaddr height - vaddr)) :
    Placed height base (index + 1) (vaddr + mapped) (size - mapped) := by
  have after := lt_blockEnd vaddr height
  rcases Nat.le_total (wholePages size) (blockEnd vaddr height - vaddr) with short | long
  · rw [Nat.min_eq_left short] at amount
    refine .inl (Nat.sub_eq_zero_of_le ?_)
    rw [amount]
    exact le_wholePages size
  · rw [Nat.min_eq_right long] at amount
    have reached : vaddr + mapped = blockEnd vaddr height := by omega
    refine .inr ?_
    rw [reached, blockEnd, Nat.mul_div_cancel _ (span_pos height), block, Nat.add_assoc]

theorem RestSpec.step {base index total total' mapped : Nat} {s₁ s' : TtState}
    (law : LossLaw loses) (inTable : index < 512)
    (placed : pageSize ∣ vaddr → vaddr / span height = base * 512 + index)
    (round : RoundSpec area height tt loses vaddr size s mapped s₁)
    (rest : RestSpec area height tt loses base (index + 1) (vaddr + mapped) (size - mapped)
      (total + mapped) s₁ total' s') :
    RestSpec area height tt loses base index vaddr size total s total' s' := by
  obtain ⟨more, sum, pages, amount⟩ := rest.pages
  refine ⟨round.update.trans rest.update, ⟨mapped + more, by omega, Nat.dvd_add round.pages pages,
    fun onPage => ?_⟩, ?_⟩
  · have block := placed onPage
    have after := lt_blockEnd vaddr height
    have first := round.amount onPage
    have second := amount (Nat.dvd_add onPage round.pages)
    rw [wholePages_sub round.pages] at second
    have last : blockEnd vaddr height ≤ (base + 1) * span (height + 1) := by
      rw [blockEnd, block, span_succ, Nat.mul_comm (span height), ← Nat.mul_assoc]
      exact Nat.mul_le_mul_right _ (by omega)
    omega
  · refine (round.update.tight_iff rest.update).trans ((and_congr round.tight rest.tight).trans ?_)
    constructor
    · rintro ⟨kept, keptLater⟩ ⟨block, above, below, lost⟩
      have first := placed (law.onPage lost)
      rcases Nat.eq_or_lt_of_le above with here | beyond
      · rw [← here, ← first] at lost
        exact kept lost
      · refine keptLater ⟨block, beyond, below, (round.later block fun _ => ?_).mpr lost⟩
        omega
    · intro kept
      refine ⟨fun lost => ?_, ?_⟩
      · have first := placed (law.onPage lost)
        exact kept ⟨vaddr / span height, first.ge, by omega, lost⟩
      · rintro ⟨block, above, below, lost⟩
        have onPage : pageSize ∣ vaddr :=
          (Nat.dvd_add_iff_left round.pages).mpr (law.onPage lost)
        have first := placed onPage
        refine kept ⟨block, by omega, below, (round.later block fun _ => ?_).mp lost⟩
        omega

theorem mapFrom_accounts {level base : Nat} (law : LossLaw loses)
    (sticky : ∀ tt vaddr paddr size, Sticky RanOut (descend tt vaddr paddr size))
    (round : ∀ {s index vaddr paddr size}, TreeAt area s height tt →
      (pageSize ∣ vaddr → index = vaIndex vaddr height) → 0 < size → Ensures RanOut
        (mapIndex area descend level flags tt index vaddr paddr size) s
        (RoundSpec area height tt loses vaddr size s))
    {left index total : Nat} (owned : TreeAt area s height tt) (inTable : index ≤ 512)
    (enough : 512 ≤ index + left)
    (placed : pageSize ∣ vaddr → Placed height base index vaddr size) :
    Ensures RanOut (mapFrom area descend level flags tt left index vaddr paddr size total) s
      (RestSpec area height tt loses base index vaddr size total s) := by
  induction left generalizing index vaddr paddr size total s with
  | zero => exact Ensures.of_ok rfl (RestSpec.stop law owned placed (.inl (by omega)))
  | succ left ih =>
    unfold mapFrom
    by_cases more : index < ptesPerPage ∧ 0 < size
    · have block := fun onPage => (placed onPage).resolve_left (Nat.ne_of_gt more.2)
      have here : pageSize ∣ vaddr → Fin.ofNat 512 index = vaIndex vaddr height := by
        intro onPage
        refine Fin.ext ?_
        rw [vaIndex, block onPage]
        exact (Nat.mul_add_mod_self_right base 512 index).symm
      rw [if_pos more]
      refine Ensures.bind (fun _ => (sticky_closed area).mapFrom sticky level flags tt _ _ _ _ _ _)
        ((round owned here more.2).mono fun mapped s₁ spec => ?_)
      have rest : (if mapped > size then 0 else size - mapped) = size - mapped := by
        split_ifs <;> omega
      rw [rest]
      refine (ih spec.update.after more.1 (by omega) fun onPage' => ?_).mono
        fun total' s' rest => RestSpec.step law more.1 block spec rest
      have onPage := (Nat.dvd_add_iff_left spec.pages).mpr onPage'
      exact round_placed (block onPage) (spec.amount onPage)
    · rw [if_neg more]
      refine Ensures.of_ok rfl (RestSpec.stop law owned placed ?_)
      rw [ptesPerPage] at more
      omega

theorem RestSpec.call {mapped : Nat} {s' : TtState}
    (rest : RestSpec area height tt loses (vaddr / span (height + 1)) (vaddr / span height % 512)
      vaddr size 0 s mapped s') (kept : ∀ block, ¬loses s block vaddr size) :
    CallSpec area height tt vaddr size s mapped s' := by
  obtain ⟨amount, total, pages, whole⟩ := rest.pages
  rw [Nat.zero_add] at total
  subst total
  refine ⟨rest.update, rest.tight.mpr ?_, pages, whole⟩
  rintro ⟨block, -, -, lost⟩
  exact kept block lost

theorem arm64MmuMapLevel_calls (inRange : height ≤ 1) (owned : TreeAt area s height tt) :
    Ensures RanOut (arm64MmuMapLevel area flags height tt vaddr paddr size) s
      (CallSpec area height tt vaddr size s) := by
  induction height generalizing tt s vaddr paddr size with
  | zero =>
    have law : LossLaw fun _ _ _ _ => False := ⟨fun _ _ _ => id, False.elim⟩
    unfold arm64MmuMapLevel
    rw [← Nat.sub_zero lastLevel, firstIndex vaddr (Nat.zero_le 3)]
    refine (mapFrom_accounts law (fun _ _ _ _ => Sticky.pure _)
      (fun owned _ positive => mapIndex_accounts_last owned positive) owned (firstIndex_le vaddr 0)
      (Nat.le_add_left _ _) fun _ => placed_first vaddr size 0).mono ?_
    exact fun mapped s' rest => rest.call fun _ => id
  | succ height ih =>
    have bottom : height = 0 := by omega
    have below : ∀ {tt s vaddr paddr size}, TreeAt area s height tt →
        Ensures RanOut (arm64MmuMapLevel area flags height tt vaddr paddr size) s
          (CallSpec area height tt vaddr size s) := fun owned => ih (by omega) owned
    have sticky := (sticky_closed area).mapLevel flags height
    unfold arm64MmuMapLevel
    rw [firstIndex vaddr (by omega)]
    refine (mapFrom_accounts (Loses.law height tt) sticky
      (fun owned here _ => mapIndex_accounts (by omega) sticky below owned here) owned
      (firstIndex_le vaddr _) (Nat.le_add_left _ _) fun _ => placed_first vaddr size _).mono ?_
    refine fun mapped s' rest => rest.call fun block lost => ?_
    subst bottom
    exact not_deep_zero _ lost.2.2.2

theorem arm64MmuMapLevel_root (owned : TreeAt area s 2 tt) :
    Ensures RanOut (arm64MmuMapLevel area flags 2 tt vaddr paddr size) s fun _ s' =>
      TreeUpdate area s s' 2 tt ∧ (TightAt area s s' 2 tt ↔
        ¬∃ block, block / 512 = vaddr / span 3 ∧ Loses 1 tt s block vaddr size) := by
  have below : ∀ {tt s vaddr paddr size}, TreeAt area s 1 tt →
      Ensures RanOut (arm64MmuMapLevel area flags 1 tt vaddr paddr size) s
        (CallSpec area 1 tt vaddr size s) :=
    fun owned => arm64MmuMapLevel_calls (Nat.le_refl 1) owned
  have sticky := (sticky_closed area).mapLevel flags 1
  unfold arm64MmuMapLevel
  rw [firstIndex vaddr (show 1 + 1 ≤ 3 by decide)]
  refine (mapFrom_accounts (Loses.law 1 tt) sticky
    (fun owned here _ => mapIndex_accounts (Nat.le_refl 2) sticky below owned here) owned
    (firstIndex_le vaddr _) (Nat.le_add_left _ _) fun _ => placed_first vaddr size _).mono ?_
  refine fun mapped s' rest => ⟨rest.update, rest.tight.trans ?_⟩
  refine not_congr (exists_congr fun block => ?_)
  have first := div_span_eq (rfl : vaddr / span (1 + 1 + 1) = vaddr / span (1 + 1 + 1))
  have top : vaddr / span (1 + 1 + 1) = vaddr / span 3 := rfl
  constructor
  · rintro ⟨above, below, lost⟩
    exact ⟨by omega, lost⟩
  · rintro ⟨window, lost⟩
    have start : vaddr / span (1 + 1) ≤ block := by
      refine Nat.div_le_of_le_mul ?_
      rw [Nat.mul_comm]
      exact lost.2.1
    exact ⟨by omega, by omega, lost⟩

end Loop

/-! ### The assertion -/

section Assertion

variable {area : TtArea} {α β : Type}

def Supplied (s : TtState) : Prop :=
  s.result ≠ 0#64 ∨ ∃ i < numPageTablePages, s.freePageTableBitmap.getLsbD i = true

def Safe (post : α → Prop) (x : TtM α) : Prop := ∀ s, Supplied s →
  match x s with
  | .ok a s' => Supplied s' ∧ post a
  | .error e _ => e ≠ .assertion

theorem Safe.pure {post : α → Prop} {a : α} (holds : post a) : Safe post (pure a : TtM α) :=
  fun _ supplied => ⟨supplied, holds⟩

theorem Safe.bind {post : α → Prop} {next : β → Prop} {x : TtM α} {f : α → TtM β}
    (first : Safe post x) (second : ∀ a, post a → Safe next (f a)) : Safe next (x >>= f) := by
  intro s supplied
  have reached := first s supplied
  cases result : x s with
  | ok a s' =>
    rw [result] at reached
    rw [bind_of_ok result]
    exact second a reached.2 s' reached.1
  | error e s' =>
    rw [result] at reached
    rw [bind_of_error result]
    exact reached

variable (tt : BitVec 64)

theorem readPte_safe (index : Fin 512) : Safe (fun _ => True) (readPte tt index) :=
  fun _ supplied => ⟨supplied, trivial⟩

theorem writePte_safe (index : Fin 512) (pte : Pte) :
    Safe (fun _ => True) (writePte tt index pte) :=
  fun _ supplied => ⟨supplied, trivial⟩

theorem fillTt_safe (level : Nat) (templatePte : Pte) :
    Safe (fun _ => True) (fillTt tt level templatePte) := by
  intro s supplied
  rw [fillTt]
  generalize fillTtFrom tt level templatePte ptesPerPage 0 _ s.mem = tables
  exact ⟨supplied, trivial⟩

theorem assertNotNull_safe {tt : BitVec 64} (notNull : tt ≠ 0#64) :
    Safe (fun _ => True) (assertNotNull tt) := by
  intro s supplied
  rw [assertNotNull_ok notNull]
  exact ⟨supplied, trivial⟩

theorem allocateTtPage_safe : Safe (fun page => page ≠ 0#64) (allocateTtPage area) := by
  intro s supplied
  unfold allocateTtPage
  cases found : (List.range numPageTablePages).find? fun i =>
      s.freePageTableBitmap &&& (1#64 <<< i) ≠ 0#64 with
  | some k =>
    have inPool : k < numPageTablePages := List.mem_range.mp (List.mem_of_find?_eq_some found)
    exact ⟨.inl (ttPage_ne_zero inPool), ttPage_ne_zero inPool⟩
  | none =>
    have used : s.result ≠ 0#64 := by
      refine supplied.resolve_right ?_
      rintro ⟨i, inPool, isFree⟩
      have taken := List.find?_eq_none.mp found i (List.mem_range.mpr inPool)
      exact taken (decide_eq_true ((and_bit_ne_zero_iff _ i).mpr isFree))
    exact ⟨.inl used, used⟩

theorem freeTtPage_safe : Safe (fun _ => True) (freeTtPage area tt) := by
  intro s supplied
  unfold freeTtPage
  dsimp only
  by_cases refused : tt.toNat % pageSize ≠ 0 ∨ numPageTablePages ≤
      (((tt - area.base) >>> ttLevelShift 3).setWidth 32 : BitVec 32).toNat
  · rw [if_pos refused]
    exact fun isAssertion => nomatch isAssertion
  · rw [if_neg refused]
    refine ⟨supplied.imp_right ?_, trivial⟩
    rintro ⟨i, inPool, isFree⟩
    refine ⟨i, inPool, ?_⟩
    show (s.freePageTableBitmap ||| _).getLsbD i = true
    rw [BitVec.getLsbD_or, isFree, Bool.true_or]

theorem splitInto_safe (level : Nat) (tt : BitVec 64) (index : Fin 512) {nextTt : BitVec 64}
    (notNull : nextTt ≠ 0#64) : Safe (fun _ => True) (splitInto level tt index nextTt) := by
  refine Safe.bind (assertNotNull_safe notNull) fun _ _ => ?_
  refine Safe.bind (readPte_safe tt index) fun templatePte _ => ?_
  refine Safe.bind (fillTt_safe nextTt _ templatePte) fun _ _ => ?_
  exact Safe.bind (writePte_safe tt index _) fun _ _ => Safe.pure trivial

theorem pointTo_safe (index : Fin 512) {nextTt : BitVec 64} (notNull : nextTt ≠ 0#64) :
    Safe (fun _ => True) (pointTo tt index nextTt) := by
  refine Safe.bind (assertNotNull_safe notNull) fun _ _ => ?_
  exact Safe.bind (writePte_safe tt index _) fun _ _ => Safe.pure trivial

theorem safe_closed : Closed area (Safe fun _ => True) where
  pure _ := Safe.pure trivial
  bind first second := Safe.bind first fun a _ => second a
  readPte := readPte_safe
  writePte := writePte_safe
  freeTtPage := freeTtPage_safe
  split level tt index :=
    Safe.bind allocateTtPage_safe fun _ notNull => splitInto_safe level tt index notNull
  point tt index := Safe.bind allocateTtPage_safe fun _ notNull => pointTo_safe tt index notNull

theorem arm64MmuMap_safe (paddr vaddr size : Nat) (flags : BitVec 32) :
    Safe (fun _ => True) (arm64MmuMap area paddr vaddr size flags) :=
  Safe.bind (safe_closed.mapLevel flags _ _ vaddr paddr size) fun _ _ => Safe.pure trivial

end Assertion

/-! ### Sequences of calls -/

structure MapCall where
  paddr : BitVec 64
  vaddr : BitVec 64
  size : BitVec 64
  flags : BitVec 32

def MapCall.run (area : TtArea) (call : MapCall) : TtM Unit :=
  arm64MmuMap area call.paddr.toNat call.vaddr.toNat call.size.toNat call.flags

def tablePages (area : TtArea) (s : TtState) : Set (BitVec 64) :=
  foot nextTable s.mem (lastLevel - firstLevel) area.base

structure Accounted (area : TtArea) (s : TtState) : Prop where
  marked : tablePages area s ⊆ allocated area s
  reached : allocated area s ⊆ tablePages area s
  once : ∀ p ∈ tablePages area s, p ≠ area.base →
    ∃! r, r ∈ referrers nextTable s.mem (lastLevel - firstLevel) area.base p
  root : referrers nextTable s.mem (lastLevel - firstLevel) area.base area.base = ∅

def Accounting (area : TtArea) : List MapCall → TtState → Prop
  | [], _ => True
  | call :: rest, s =>
    match call.run area s with
    | .ok () s' => s'.exhausted = false ∧ Accounted area s' ∧ Accounting area rest s'
    | .error .assertion s' => s'.exhausted = true
    | .error .invalidTt _ => False

def Collapses (area : TtArea) (s : TtState) (call : MapCall) : Prop :=
  ∃ block, block / 512 = call.vaddr.toNat / span 3 ∧
    Loses 1 area.base s block call.vaddr.toNat call.size.toNat

def NoLoss (area : TtArea) : List MapCall → TtState → Prop
  | [], _ => True
  | call :: rest, s => (finalState (call.run area s)).exhausted = false ∧
    ¬Collapses area s call ∧ NoLoss area rest (finalState (call.run area s))

section Sequences

variable {area : TtArea} {s : TtState}

structure Sound (area : TtArea) (s : TtState) : Prop where
  tree : TreeAt area s (lastLevel - firstLevel) area.base
  used : allocated area s ⊆ tablePages area s
  supplied : Supplied s

theorem Sound.accounted (sound : Sound area s) : Accounted area s :=
  ⟨sound.tree.owned, sound.used, fun _ => sound.tree.tree.referrer_unique,
    sound.tree.tree.root_unreferred⟩

theorem initTables_free (mem : BitVec 64 → Fin 512 → Pte) {i : Nat}
    (inPool : i < numPageTablePages) :
    (initTables area mem).freePageTableBitmap.getLsbD i = !decide (i = 0) := by
  have all : ∀ i < numPageTablePages,
      (((1#64 <<< numPageTablePages) - 1#64) &&& ~~~1#64).getLsbD i = !decide (i = 0) := by decide
  exact all i inPool

theorem initTables_sound (mem : BitVec 64 → Fin 512 → Pte) : Sound area (initTables area mem) := by
  refine ⟨initTables_tree area mem trivial, ?_, ?_⟩
  · rintro p ⟨i, inPool, rfl, inUse⟩
    rw [initTables_free mem inPool, Bool.not_eq_false', decide_eq_true_eq] at inUse
    rw [inUse, ttPage, Nat.zero_mul, BitVec.add_zero]
    exact self_mem_foot nextTable _ _ area.base
  · exact .inr ⟨1, by decide, initTables_free mem (by decide)⟩

theorem MapCall.run_accounts (call : MapCall) (sound : Sound area s)
    (enough : (finalState (call.run area s)).exhausted = false) :
    ∃ s', call.run area s = .ok () s' ∧ TreeAt area s' (lastLevel - firstLevel) area.base ∧
      (allocated area s' ⊆ tablePages area s' ↔ ¬Collapses area s call) := by
  have inHand : ¬RanOut (finalState (call.run area s)) := by
    rw [RanOut, enough]
    exact Bool.false_ne_true
  have ensured : Ensures RanOut (call.run area) s fun _ s' =>
      TreeUpdate area s s' 2 area.base ∧
        (TightAt area s s' 2 area.base ↔ ¬Collapses area s call) := by
    refine Ensures.bind (fun _ => Sticky.pure _) ?_
    refine (arm64MmuMapLevel_root sound.tree).mono fun mapped s' spec => ?_
    exact Ensures.of_ok rfl spec
  obtain ⟨_, s', done, update, tight⟩ := ensured.elim inHand
  refine ⟨s', done, update.after, Iff.trans ?_ tight⟩
  constructor
  · exact fun reached p inUse => .inl (reached inUse)
  · exact fun kept p inUse => (kept p inUse).resolve_right fun lost => lost.2 (sound.used lost.1)

theorem MapCall.run_safe (area : TtArea) (call : MapCall) : Safe (fun _ => True) (call.run area) :=
  arm64MmuMap_safe call.paddr.toNat call.vaddr.toNat call.size.toNat call.flags

theorem MapCall.run_sound {call : MapCall} {s' : TtState} (sound : Sound area s)
    (done : call.run area s = .ok () s') (enough : s'.exhausted = false) :
    (Accounted area s' ↔ ¬Collapses area s call) ∧ (¬Collapses area s call → Sound area s') := by
  obtain ⟨s'', done', tree, lossless⟩ := call.run_accounts sound (by rw [done]; exact enough)
  have supplied := call.run_safe area s sound.supplied
  rw [done] at supplied
  rw [done] at done'
  cases done'
  have sound' : ¬Collapses area s call → Sound area s' :=
    fun notLost => ⟨tree, lossless.mpr notLost, supplied.1⟩
  refine ⟨⟨fun accounted => lossless.mp accounted.reached, fun notLost => ?_⟩, sound'⟩
  exact (sound' notLost).accounted

theorem accounting_iff (calls : List MapCall) (sound : Sound area s) :
    Accounting area calls s ↔ NoLoss area calls s := by
  induction calls generalizing s with
  | nil => exact Iff.rfl
  | cons call rest ih =>
    rw [Accounting, NoLoss]
    cases result : call.run area s with
    | ok _ s' =>
      refine and_congr_right fun enough => ?_
      obtain ⟨kept, sound'⟩ := MapCall.run_sound sound result enough
      rw [kept]
      exact and_congr_right fun notLost => ih (sound' notLost)
    | error stop s' =>
      have notOut : s'.exhausted ≠ false := by
        intro enough
        obtain ⟨s'', done, -⟩ := call.run_accounts sound (by rw [result]; exact enough)
        rw [result] at done
        cases done
      have safe := call.run_safe area s sound.supplied
      rw [result] at safe
      cases stop with
      | assertion => exact absurd rfl safe
      | invalidTt => exact ⟨False.elim, fun clean => notOut clean.1⟩

/-- **The accounting of the pages over all sequences of calls.** -/
theorem page_accounting_iff (area : TtArea) (mem : BitVec 64 → Fin 512 → Pte)
    (calls : List MapCall) :
    Accounting area calls (initTables area mem) ↔ NoLoss area calls (initTables area mem) :=
  accounting_iff calls (initTables_sound mem)

end Sequences

/-! ### A table page that is lost -/

def mapPage : MapCall := ⟨0#64, 0#64, 0x1000#64, cachedFlags⟩

def mapGigabyte : MapCall := ⟨0#64, 0#64, 0x40000000#64, cachedFlags⟩

def emptyTables : TtState := initTables sampleArea fun _ _ => 0#64

def pageMapped : TtState := finalState (mapPage.run sampleArea emptyTables)

def gigabyteMapped : TtState := finalState (mapGigabyte.run sampleArea pageMapped)

theorem mapPage_returns : mapPage.run sampleArea emptyTables = .ok () pageMapped := rfl

theorem mapGigabyte_returns : mapGigabyte.run sampleArea pageMapped = .ok () gigabyteMapped := rfl

theorem gigabyteMapped_tables : tablePages sampleArea gigabyteMapped = {sampleArea.base} := by
  have blocks : ∀ j, nextTable (gigabyteMapped.mem sampleArea.base j) = none := by decide +kernel
  exact foot_of_leaves fun _ => blocks

/-- **The page of the last level stays in use**: the gigabyte block replaces the table of
two-megabyte blocks, whose page is freed, and nothing leads to the table below it any more. -/
theorem gigabyte_loses_page :
    ∃ s s', mapPage.run sampleArea emptyTables = .ok () s ∧
      mapGigabyte.run sampleArea s = .ok () s' ∧ s'.exhausted = false ∧
      ttPage sampleArea 2 ∈ allocated sampleArea s' ∧
      ttPage sampleArea 2 ∉ tablePages sampleArea s' ∧
      ¬Accounting sampleArea [mapPage, mapGigabyte] emptyTables := by
  have inUse : ttPage sampleArea 2 ∈ allocated sampleArea gigabyteMapped :=
    ⟨2, by decide, rfl, by decide +kernel⟩
  have unreached : ttPage sampleArea 2 ∉ tablePages sampleArea gigabyteMapped := by
    rw [gigabyteMapped_tables]
    exact fun isRoot => absurd (isRoot : ttPage sampleArea 2 = sampleArea.base) (by decide)
  refine ⟨pageMapped, gigabyteMapped, mapPage_returns, mapGigabyte_returns, by decide +kernel,
    inUse, unreached, ?_⟩
  rw [Accounting, mapPage_returns]
  rintro ⟨-, -, later⟩
  rw [Accounting, mapGigabyte_returns] at later
  exact unreached (later.2.1.reached inUse)

end Cboot.Mmu
