/-
**The cpu nodes of the kernel device tree.**

`update_cpu_floorsweeping_config` walks the children of `/cpus` by their offsets. The first cpu nodes
are given the MPIDR of the enabled cores; the others are deleted, and after a deletion the walk goes on
behind the last cpu node that was kept. A child is named here by its place among the children: renaming
and deleting a child leaves the offsets of the children before it as they are.

`floorsweeping_keeps_cores`: with at least one core, the walk ends with what `swept` says.
-/

import Mathlib

namespace Cboot.LinuxBoot

structure CpusChild where
  deviceType : Option String
  name : List Char
  reg : List (BitVec 32)
  deriving DecidableEq

def CpusChild.isCpu (child : CpusChild) : Bool := child.deviceType = some "cpu"

structure CpusWalk where
  children : List CpusChild
  offset : Nat
  prev : Option Nat
  cpu : Nat

structure CpusConfig where
  addrCells : Nat
  logicalToMpidr : Nat → BitVec 32
  numCores : Nat

namespace CpusConfig

variable (config : CpusConfig)

/-- `fdt_set_name` and `fdt_setprop_inplace` of a cpu node. -/
def assign (child : CpusChild) (cpu : Nat) : CpusChild :=
  let mpidr := config.logicalToMpidr cpu &&& 0x00ffffff
  { child with
    name := "cpu@".toList ++ Nat.toDigits 16 mpidr.toNat
    reg := (if 1 < config.addrCells then [(mpidr.setWidth 64 >>> 32).setWidth 32] else []) ++ [mpidr] }

/-- One iteration; `none` if there is no further child. -/
def step (walk : CpusWalk) : Option CpusWalk :=
  match walk.children[walk.offset]? with
  | none => none
  | some child =>
    if !child.isCpu then some { walk with offset := walk.offset + 1 }
    else if walk.cpu < config.numCores then some {
      children := walk.children.set walk.offset (config.assign child walk.cpu)
      offset := walk.offset + 1
      prev := some walk.offset
      cpu := walk.cpu + 1 }
    else
      let offset := walk.prev.getD walk.offset
      some {
        children := walk.children.eraseIdx walk.offset
        offset := offset + 1
        prev := some offset
        cpu := walk.cpu + 1 }

def updateCpuFloorsweepingConfig : Nat → CpusWalk → Option (List CpusChild)
  | 0, _ => none
  | rounds + 1, walk =>
    match config.step walk with
    | none => some walk.children
    | some next => updateCpuFloorsweepingConfig rounds next

/-! ### What is left of the children -/

/-- A cpu node for a core: its number as the unit address of the name and as the last cell of `reg`. -/
def forCore (child : CpusChild) (core : Nat) : CpusChild :=
  { child with
    name := "cpu@".toList ++ Nat.toDigits 16 core
    reg := List.replicate (config.addrCells - 1) 0 ++ [BitVec.ofNat 32 core] }

/-- The children, their cpu nodes numbered from `cpu`. -/
def swept (cpu : Nat) : List CpusChild → List CpusChild
  | [] => []
  | child :: rest =>
    if !child.isCpu then child :: swept cpu rest
    else if cpu < config.numCores then
      config.forCore child ((config.logicalToMpidr cpu).toNat % 2 ^ 24) :: swept (cpu + 1) rest
    else swept (cpu + 1) rest

variable {config}

theorem assign_eq_forCore (cells : config.addrCells = 1 ∨ config.addrCells = 2) (child : CpusChild)
    (cpu : Nat) : config.assign child cpu =
      config.forCore child ((config.logicalToMpidr cpu).toNat % 2 ^ 24) := by
  have low : (config.logicalToMpidr cpu &&& 0x00ffffff).toNat =
      (config.logicalToMpidr cpu).toNat % 2 ^ 24 := Nat.and_two_pow_sub_one_eq_mod _ 24
  have same : config.logicalToMpidr cpu &&& 0x00ffffff =
      BitVec.ofNat 32 ((config.logicalToMpidr cpu).toNat % 2 ^ 24) := by rw [← low]; simp
  have high (x : BitVec 32) : (x.setWidth 64 >>> 32).setWidth 32 = (0 : BitVec 32) := by bv_omega
  unfold assign forCore
  dsimp only
  rw [low, same, high]
  rcases cells with one | two
  · rw [one]
    rfl
  · rw [two]
    rfl

def Ends (config : CpusConfig) (walk : CpusWalk) (left : List CpusChild) : Prop :=
  ∃ rounds, config.updateCpuFloorsweepingConfig rounds walk = some left

theorem Ends.step {walk next : CpusWalk} {left : List CpusChild} (ends : config.Ends next left)
    (step : config.step walk = some next) : config.Ends walk left := by
  obtain ⟨rounds, ran⟩ := ends
  exact ⟨rounds + 1, by rw [updateCpuFloorsweepingConfig, step, ← ran]⟩

variable {between rest left : List CpusChild} {prev : Option Nat} {cpu : Nat}

/-- Children that are no cpu nodes are passed. -/
theorem Ends.skip (others : ∀ child ∈ between, child.isCpu = false) : ∀ before,
    config.Ends ⟨before ++ between ++ rest, (before ++ between).length, prev, cpu⟩ left →
      config.Ends ⟨before ++ between ++ rest, before.length, prev, cpu⟩ left := by
  induction between with
  | nil => simp
  | cons child between ih =>
    intro before ends
    rw [List.append_cons] at ends ⊢
    have later := ih (fun c member => others c (.tail _ member)) (before ++ [child]) ends
    exact later.step (by simp [CpusConfig.step, others child List.mem_cons_self])

/-- The walk can go back to a kept cpu node, with no other one behind it. -/
def Rewinds (done : List CpusChild) (prev : Option Nat) : Prop :=
  ∃ before kept between, done = before ++ kept :: between ∧ prev = some before.length ∧
    ∀ child ∈ between, child.isCpu = false

theorem ends_swept (cells : config.addrCells = 1 ∨ config.addrCells = 2)
    (cores : 1 ≤ config.numCores) (todo : List CpusChild) : ∀ done prev cpu,
      (0 < cpu → Rewinds done prev) →
      config.Ends ⟨done ++ todo, done.length, prev, cpu⟩ (done ++ config.swept cpu todo) := by
  induction todo with
  | nil =>
    intro done prev cpu _
    exact ⟨1, by simp [updateCpuFloorsweepingConfig, CpusConfig.step, swept]⟩
  | cons child todo ih =>
    intro done prev cpu rewinds
    cases isCpu : child.isCpu with
    | false =>
      have later := ih (done ++ [child]) prev cpu fun some_ => by
        obtain ⟨before, last, between, rfl, same, others⟩ := rewinds some_
        exact ⟨before, last, between ++ [child], by simp, same, by simp; grind⟩
      simp only [swept, isCpu]
      refine Ends.step (by simpa using later) ?_
      simp [CpusConfig.step, isCpu]
    | true =>
      by_cases kept : cpu < config.numCores
      · have later := ih (done ++ [config.assign child cpu]) (some done.length) (cpu + 1)
          fun _ => ⟨done, _, [], rfl, rfl, nofun⟩
        rw [assign_eq_forCore cells] at later
        simp only [swept, isCpu, kept]
        refine Ends.step (by simpa using later) ?_
        simp [CpusConfig.step, isCpu, kept, assign_eq_forCore cells]
      · obtain ⟨before, last, between, rfl, rfl, others⟩ := rewinds (by omega)
        have later := ih (before ++ last :: between) (some before.length) (cpu + 1)
          fun _ => ⟨before, last, between, rfl, rfl, others⟩
        rw [List.append_cons before last between] at later ⊢
        simp only [swept, isCpu, kept]
        refine Ends.step (Ends.skip others _ later) ?_
        simp [CpusConfig.step, isCpu, kept, List.eraseIdx_append_of_length_le]

end CpusConfig

theorem floorsweeping_keeps_cores (config : CpusConfig)
    (cells : config.addrCells = 1 ∨ config.addrCells = 2) (cores : 1 ≤ config.numCores)
    (children : List CpusChild) : ∃ rounds,
      config.updateCpuFloorsweepingConfig rounds ⟨children, 0, none, 0⟩ =
        some (config.swept 0 children) :=
  CpusConfig.ends_swept cells cores children [] none 0 nofun

/-- Two cpu nodes around another child, and one core. -/
theorem floorsweeping_keeps_first : ∃ rounds,
    CpusConfig.updateCpuFloorsweepingConfig ⟨2, fun _ => 0x81000100, 1⟩ rounds
      ⟨[⟨some "cpu", [], []⟩, ⟨none, ['m'], []⟩, ⟨some "cpu", [], []⟩], 0, none, 0⟩ =
    some [⟨some "cpu", "cpu@100".toList, [0, 0x100]⟩, ⟨none, ['m'], []⟩] :=
  floorsweeping_keeps_cores _ (.inr rfl) (Nat.le_refl 1) _

end Cboot.LinuxBoot
