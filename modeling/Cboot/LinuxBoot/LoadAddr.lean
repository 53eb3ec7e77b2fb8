/-
**The load addresses in the OS carveout.**

The kernel goes to a fixed place, 512 KB behind the aligned base of the OS carveout. The device tree
and the ramdisk get the next free place behind the room of the largest kernel, counted from the
aligned base and not from the place of the kernel. Each request moves the free place on, also when
the medium it was made for fails later, and none compares it with the end of the carveout.
-/

import Cboot.Lib.Gaps
import Cboot.LinuxBoot.BootAttempt

namespace Cboot.LinuxBoot

open Gaps

/-! ### The requests -/

def roundUp (n w : BitVec 64) : BitVec 64 := (n + w - 1) / w * w

def kernelAlignment : Nat := 0x00200000

def ramdiskAlignment : Nat := 0x01000000

def textOffset : Nat := 0x80000

def tegrablGetKernelLoadAddr (osBase nextFree : BitVec 64) : BitVec 64 × BitVec 64 :=
  let kernelLoadAddr := roundUp osBase (BitVec.ofNat 64 kernelAlignment)
  (kernelLoadAddr + BitVec.ofNat 64 textOffset,
    if nextFree = 0#64 then kernelLoadAddr + BitVec.ofNat 64 maxKernelImageSize else nextFree)

def nextFreeAddr (osBase nextFree : BitVec 64) : BitVec 64 :=
  if nextFree = 0#64 then (tegrablGetKernelLoadAddr osBase nextFree).2 else nextFree

def tegrablGetDtbLoadAddr (osBase nextFree : BitVec 64) : BitVec 64 × BitVec 64 :=
  let dtbLoadAddr := roundUp (nextFreeAddr osBase nextFree) (BitVec.ofNat 64 dtbAlignment)
  (dtbLoadAddr, dtbLoadAddr + BitVec.ofNat 64 dtbMaxSize)

def tegrablGetRamdiskLoadAddr (osBase nextFree : BitVec 64) : BitVec 64 × BitVec 64 :=
  let ramdiskLoadAddr := roundUp (nextFreeAddr osBase nextFree) (BitVec.ofNat 64 ramdiskAlignment)
  (ramdiskLoadAddr, ramdiskLoadAddr + BitVec.ofNat 64 ramdiskMaxSize)

inductive Request
  | kernel
  | dtb
  | ramdisk

structure LoadAddrs where
  nextFree : BitVec 64
  kernel : Option (BitVec 64)
  dtb : Option (BitVec 64)
  ramdisk : Option (BitVec 64)

def LoadAddrs.initial : LoadAddrs := ⟨0, none, none, none⟩

def LoadAddrs.request (osBase : BitVec 64) (s : LoadAddrs) : Request → LoadAddrs
  | .kernel =>
    { s with
      kernel := some (tegrablGetKernelLoadAddr osBase s.nextFree).1
      nextFree := (tegrablGetKernelLoadAddr osBase s.nextFree).2 }
  | .dtb =>
    { s with
      dtb := some (tegrablGetDtbLoadAddr osBase s.nextFree).1
      nextFree := (tegrablGetDtbLoadAddr osBase s.nextFree).2 }
  | .ramdisk =>
    { s with
      ramdisk := some (tegrablGetRamdiskLoadAddr osBase s.nextFree).1
      nextFree := (tegrablGetRamdiskLoadAddr osBase s.nextFree).2 }

def loadAddrs (osBase : BitVec 64) (requests : List Request) : LoadAddrs :=
  requests.foldl (LoadAddrs.request osBase) LoadAddrs.initial

def regionsInUse (kernelSize : Nat) (kernel dtb ramdisk : Option Nat) : List (Nat × Nat) :=
  (kernel.map fun addr => (addr, addr + kernelSize)).toList ++
    (dtb.map fun addr => (addr, addr + dtbMaxSize)).toList ++
    (ramdisk.map fun addr => (addr, addr + ramdiskMaxSize)).toList

def LoadAddrs.regions (s : LoadAddrs) (kernelSize : Nat) : List (Nat × Nat) :=
  regionsInUse kernelSize (s.kernel.map BitVec.toNat) (s.dtb.map BitVec.toNat)
    (s.ramdisk.map BitVec.toNat)

/-! ### The places over the natural numbers -/

def kernelBase (osBase : Nat) : Nat :=
  (osBase + (kernelAlignment - 1)) / kernelAlignment * kernelAlignment

def alignedPlace (addr : Nat) : Nat :=
  (addr + (ramdiskAlignment - 1)) / ramdiskAlignment * ramdiskAlignment

structure Places where
  next : Nat
  kernel : Option Nat
  dtb : Option Nat
  ramdisk : Option Nat

def Places.initial (osBase : Nat) : Places :=
  ⟨alignedPlace (kernelBase osBase + maxKernelImageSize), none, none, none⟩

def Places.request (osBase : Nat) (p : Places) : Request → Places
  | .kernel => { p with kernel := some (kernelBase osBase + textOffset) }
  | .dtb => { p with dtb := some p.next, next := p.next + ramdiskAlignment }
  | .ramdisk => { p with ramdisk := some p.next, next := p.next + ramdiskMaxSize }

def places (osBase : Nat) (requests : List Request) : Places :=
  requests.foldl (Places.request osBase) (Places.initial osBase)

def Places.regions (p : Places) (kernelSize : Nat) : List (Nat × Nat) :=
  regionsInUse kernelSize p.kernel p.dtb p.ramdisk

theorem Places.next_le_request (p : Places) (base : Nat) (r : Request) :
    p.next ≤ (p.request base r).next := by
  cases r with
  | kernel => exact le_rfl
  | dtb | ramdisk => exact Nat.le_add_right _ _

/-! ### The addresses are the places -/

theorem roundUp_toNat {n w : BitVec 64} (positive : 0 < w.toNat)
    (fits : n.toNat + (w.toNat - 1) < 2 ^ 64) :
    (roundUp n w).toNat = (n.toNat + (w.toNat - 1)) / w.toNat * w.toNat := by
  have sum : (n + w - 1).toNat = n.toNat + (w.toNat - 1) := by
    have one : (1 : BitVec 64).toNat = 1 := rfl
    rw [BitVec.toNat_sub, BitVec.toNat_add, one]
    omega
  rw [roundUp, BitVec.toNat_mul, BitVec.toNat_udiv, sum]
  exact Nat.mod_eq_of_lt (Nat.lt_of_le_of_lt (Nat.div_mul_le_self _ _) fits)

theorem le_alignedPlace (addr : Nat) : addr ≤ alignedPlace addr := by
  unfold alignedPlace ramdiskAlignment
  omega

theorem alignedPlace_dtb {next : Nat} (aligned : next % ramdiskAlignment = 0) :
    alignedPlace (next + dtbMaxSize) = next + ramdiskAlignment := by
  unfold alignedPlace dtbMaxSize ramdiskAlignment at *
  omega

theorem alignedPlace_ramdisk {next : Nat} (aligned : next % ramdiskAlignment = 0) :
    alignedPlace (next + ramdiskMaxSize) = next + ramdiskMaxSize := by
  unfold alignedPlace ramdiskMaxSize ramdiskAlignment at *
  omega

theorem le_kernelBase (osBase : Nat) : osBase ≤ kernelBase osBase := by
  unfold kernelBase kernelAlignment
  omega

theorem aligned_room {addr : Nat} (fits : alignedPlace addr < 2 ^ 64) :
    addr + (ramdiskAlignment - 1) < 2 ^ 64 := by
  unfold alignedPlace ramdiskAlignment at *
  omega

section Follows

variable {osBase : BitVec 64} {s : LoadAddrs} {p : Places}

def freeNat (osBase nextFree : BitVec 64) : Nat :=
  if nextFree = 0#64 then kernelBase osBase.toNat + maxKernelImageSize else nextFree.toNat

structure Follows (osBase : BitVec 64) (s : LoadAddrs) (p : Places) : Prop where
  next : alignedPlace (freeNat osBase s.nextFree) = p.next
  room : kernelBase osBase.toNat + maxKernelImageSize ≤ p.next
  kernel : s.kernel.map BitVec.toNat = p.kernel
  dtb : s.dtb.map BitVec.toNat = p.dtb
  ramdisk : s.ramdisk.map BitVec.toNat = p.ramdisk

section

variable (fits : kernelBase osBase.toNat + maxKernelImageSize < 2 ^ 64)
include fits

theorem kernelLoadAddr_toNat :
    (roundUp osBase (BitVec.ofNat 64 kernelAlignment)).toNat = kernelBase osBase.toNat := by
  have room : osBase.toNat + (kernelAlignment - 1) < 2 ^ 64 := by
    unfold kernelBase kernelAlignment maxKernelImageSize at *
    omega
  exact roundUp_toNat (by decide) room

theorem nextFreeAddr_toNat
    (nextFree : BitVec 64) : (nextFreeAddr osBase nextFree).toNat = freeNat osBase nextFree := by
  unfold nextFreeAddr freeNat
  by_cases first : nextFree = 0#64
  · have start : (tegrablGetKernelLoadAddr osBase nextFree).2 =
        roundUp osBase (BitVec.ofNat 64 kernelAlignment) + BitVec.ofNat 64 maxKernelImageSize :=
      if_pos first
    rw [if_pos first, if_pos first, start, BitVec.toNat_add, kernelLoadAddr_toNat fits]
    exact Nat.mod_eq_of_lt fits
  · rw [if_neg first, if_neg first]

theorem freeNat_kernelRequest
    (nextFree : BitVec 64) :
    freeNat osBase (tegrablGetKernelLoadAddr osBase nextFree).2 = freeNat osBase nextFree := by
  have moved := nextFreeAddr_toNat fits nextFree
  by_cases first : nextFree = 0#64
  · rw [nextFreeAddr, if_pos first] at moved
    have notZero : (tegrablGetKernelLoadAddr osBase nextFree).2 ≠ 0#64 := by
      intro zero
      rw [zero, BitVec.toNat_zero, freeNat, if_pos first, maxKernelImageSize] at moved
      omega
    rw [freeNat, if_neg notZero, moved]
  · have kept : (tegrablGetKernelLoadAddr osBase nextFree).2 = nextFree := if_neg first
    rw [kept]

end

theorem placed_toNat (follows : Follows osBase s p) (fits : p.next < 2 ^ 64) :
    (roundUp (nextFreeAddr osBase s.nextFree) (BitVec.ofNat 64 ramdiskAlignment)).toNat = p.next := by
  have base := nextFreeAddr_toNat (Nat.lt_of_le_of_lt follows.room fits) s.nextFree
  have room := aligned_room (follows.next ▸ fits)
  rw [← base] at room
  rw [← follows.next, ← base]
  exact roundUp_toNat (by decide) room

theorem freeNat_behind {addr : BitVec 64} {next size step : Nat} (at_ : addr.toNat = next)
    (positive : 0 < size) (short : size ≤ step) (fits : next + step < 2 ^ 64) :
    freeNat osBase (addr + BitVec.ofNat 64 size) = next + size := by
  have sum : (addr + BitVec.ofNat 64 size).toNat = next + size := by
    rw [BitVec.toNat_add, BitVec.toNat_ofNat, at_]
    omega
  have notZero : addr + BitVec.ofNat 64 size ≠ 0#64 := by
    intro zero
    rw [zero, BitVec.toNat_zero] at sum
    omega
  rw [freeNat, if_neg notZero, sum]

theorem Follows.initial : Follows osBase LoadAddrs.initial (Places.initial osBase.toNat) :=
  ⟨rfl, le_alignedPlace _, rfl, rfl, rfl⟩

theorem Follows.request (follows : Follows osBase s p) (r : Request)
    (fits : (p.request osBase.toNat r).next < 2 ^ 64) :
    Follows osBase (s.request osBase r) (p.request osBase.toNat r) := by
  have room' := follows.room.trans (p.next_le_request osBase.toNat r)
  have here := placed_toNat follows (Nat.lt_of_le_of_lt (p.next_le_request osBase.toNat r) fits)
  have aligned : p.next % ramdiskAlignment = 0 := by
    rw [← follows.next]
    exact Nat.mul_mod_left _ _
  obtain ⟨next, room, kernel, dtb, ramdisk⟩ := follows
  obtain ⟨place, kernelPlace, dtbPlace, ramdiskPlace⟩ := p
  obtain ⟨nextFree, kernelAddr, dtbAddr, ramdiskAddr⟩ := s
  cases r with
  | kernel =>
    have inSpace : kernelBase osBase.toNat + maxKernelImageSize < 2 ^ 64 :=
      Nat.lt_of_le_of_lt room fits
    refine ⟨?_, room', congrArg some ?_, dtb, ramdisk⟩
    · change alignedPlace (freeNat osBase (tegrablGetKernelLoadAddr osBase nextFree).2) = place
      rw [freeNat_kernelRequest inSpace]
      exact next
    · have offset : kernelBase osBase.toNat + textOffset < 2 ^ 64 :=
        Nat.lt_of_le_of_lt (Nat.add_le_add_left (by decide) _) inSpace
      change (_ + BitVec.ofNat 64 textOffset).toNat = kernelBase osBase.toNat + textOffset
      rw [BitVec.toNat_add, kernelLoadAddr_toNat inSpace]
      exact Nat.mod_eq_of_lt offset
  | dtb =>
    have here : (roundUp (nextFreeAddr osBase nextFree) (BitVec.ofNat 64 dtbAlignment)).toNat =
        place := here
    refine ⟨?_, room', kernel, congrArg some here, ramdisk⟩
    change alignedPlace (freeNat osBase (_ + BitVec.ofNat 64 dtbMaxSize)) = place + ramdiskAlignment
    rw [freeNat_behind here (by decide) (by decide : dtbMaxSize ≤ ramdiskAlignment) fits]
    exact alignedPlace_dtb aligned
  | ramdisk =>
    refine ⟨?_, room', kernel, dtb, congrArg some here⟩
    change alignedPlace (freeNat osBase (_ + BitVec.ofNat 64 ramdiskMaxSize)) = place + ramdiskMaxSize
    rw [freeNat_behind here (by decide) (Nat.le_refl ramdiskMaxSize) fits]
    exact alignedPlace_ramdisk aligned

theorem Places.next_le_foldl (base : Nat) (requests : List Request) (p : Places) :
    p.next ≤ (requests.foldl (Places.request base) p).next := by
  induction requests generalizing p with
  | nil => exact le_rfl
  | cons r requests ih => exact Nat.le_trans (p.next_le_request base r) (ih _)

theorem Follows.run (follows : Follows osBase s p) (requests : List Request)
    (fits : (requests.foldl (Places.request osBase.toNat) p).next < 2 ^ 64) :
    Follows osBase (requests.foldl (LoadAddrs.request osBase) s)
      (requests.foldl (Places.request osBase.toNat) p) := by
  induction requests generalizing s p with
  | nil => exact follows
  | cons r requests ih =>
    have here := Nat.lt_of_le_of_lt (Places.next_le_foldl osBase.toNat requests _) fits
    exact ih (follows.request r here) fits

end Follows

/-! ### Where the places lie -/

structure Places.Apart (base : Nat) (p : Places) : Prop where
  kernel : ∀ place ∈ p.kernel, place = kernelBase base + textOffset
  next : kernelBase base + maxKernelImageSize ≤ p.next ∧ p.next % ramdiskAlignment = 0
  dtb : ∀ place ∈ p.dtb, kernelBase base + maxKernelImageSize ≤ place ∧
    place % ramdiskAlignment = 0 ∧ place + ramdiskAlignment ≤ p.next
  ramdisk : ∀ place ∈ p.ramdisk, kernelBase base + maxKernelImageSize ≤ place ∧
    place % ramdiskAlignment = 0 ∧ place + ramdiskMaxSize ≤ p.next
  apart : ∀ place ∈ p.dtb, ∀ place' ∈ p.ramdisk,
    place + ramdiskAlignment ≤ place' ∨ place' + ramdiskMaxSize ≤ place

theorem Places.Apart.initial (base : Nat) : (Places.initial base).Apart base := by
  refine ⟨?_, ⟨le_alignedPlace _, Nat.mul_mod_left _ _⟩, ?_, ?_, ?_⟩
  all_goals
    intro place absent
    cases absent

theorem Places.Apart.request {base : Nat} {p : Places} (apart : p.Apart base) (r : Request) :
    (p.request base r).Apart base := by
  obtain ⟨kernel, ⟨room, aligned⟩, dtb, ramdisk, both⟩ := apart
  cases r with
  | kernel =>
    refine ⟨fun place found => ?_, ⟨room, aligned⟩, dtb, ramdisk, both⟩
    exact (Option.some.inj found).symm
  | dtb =>
    have next : (p.next + ramdiskAlignment) % ramdiskAlignment = 0 := by
      rw [Nat.add_mod_right, aligned]
    refine ⟨kernel, ⟨Nat.le_add_right_of_le room, next⟩, fun place found => ?_,
      fun place found => ?_, fun place found place' found' => ?_⟩
    · cases found
      exact ⟨room, aligned, le_rfl⟩
    · obtain ⟨low, multiple, high⟩ := ramdisk place found
      exact ⟨low, multiple, Nat.le_add_right_of_le high⟩
    · cases found
      exact .inr (ramdisk place' found').2.2
  | ramdisk =>
    have next : (p.next + ramdiskMaxSize) % ramdiskAlignment = 0 := by
      unfold ramdiskMaxSize ramdiskAlignment at *
      omega
    refine ⟨kernel, ⟨Nat.le_add_right_of_le room, next⟩, fun place found => ?_,
      fun place found => ?_, fun place found place' found' => ?_⟩
    · obtain ⟨low, multiple, high⟩ := dtb place found
      exact ⟨low, multiple, Nat.le_add_right_of_le high⟩
    · cases found
      exact ⟨room, aligned, le_rfl⟩
    · cases found'
      exact .inl (dtb place found).2.2

theorem Places.Apart.run (base : Nat) (requests : List Request) :
    (places base requests).Apart base := by
  suffices general : ∀ p : Places, p.Apart base →
      (requests.foldl (Places.request base) p).Apart base from general _ (Places.Apart.initial base)
  induction requests with
  | nil => exact fun p apart => apart
  | cons r requests ih => exact fun p apart => ih _ (apart.request r)

/-! ### The regions in use -/

def RegionsSafe (base size : Nat) (regions : List (Nat × Nat)) : Prop :=
  regions.Pairwise (fun r r' => ¬ Overlap r.1 r.2 r'.1 r'.2) ∧
    ∀ r ∈ regions, base ≤ r.1 ∧ r.2 ≤ base + size

def NeighbourInUse (base : Nat) (p : Places) : Prop :=
  kernelBase base + maxKernelImageSize ∈ p.dtb ∨ kernelBase base + maxKernelImageSize ∈ p.ramdisk

theorem pairwise_regionsInUse {R : Nat × Nat → Nat × Nat → Prop} (kernelSize : Nat)
    (kernel dtb ramdisk : Option Nat) :
    (regionsInUse kernelSize kernel dtb ramdisk).Pairwise R ↔
      (∀ k ∈ kernel, (∀ d ∈ dtb, R (k, k + kernelSize) (d, d + dtbMaxSize)) ∧
        ∀ r ∈ ramdisk, R (k, k + kernelSize) (r, r + ramdiskMaxSize)) ∧
      ∀ d ∈ dtb, ∀ r ∈ ramdisk, R (d, d + dtbMaxSize) (r, r + ramdiskMaxSize) := by
  unfold regionsInUse
  cases kernel <;> cases dtb <;> cases ramdisk <;> simp [and_assoc]

theorem kernel_clear_iff {base kernelSize place size : Nat}
    (accepted : kernelSize ≤ maxKernelImageSize) (positive : 0 < size)
    (behind : kernelBase base + maxKernelImageSize ≤ place) (aligned : place % ramdiskAlignment = 0) :
    ¬ Overlap (kernelBase base + textOffset) (kernelBase base + textOffset + kernelSize) place
        (place + size) ↔
      (place = kernelBase base + maxKernelImageSize →
        kernelSize + textOffset ≤ maxKernelImageSize) := by
  have start : kernelBase base % kernelAlignment = 0 := Nat.mul_mod_left _ _
  generalize kernelBase base = kernel at *
  unfold maxKernelImageSize ramdiskAlignment kernelAlignment textOffset at *
  constructor
  · intro clear here
    by_contra long
    exact clear ⟨place, by omega, by omega, le_rfl, by omega⟩
  · rintro fits ⟨x, -, high, low, -⟩
    by_cases here : place = kernel + 0x10000000
    · have short := fits here
      omega
    · omega

section Regions

variable {base kernelSize : Nat} {p : Places}

theorem Places.Apart.kernel_clear_iff (apart : p.Apart base)
    (accepted : kernelSize ≤ maxKernelImageSize) :
    (∀ k ∈ p.kernel,
        (∀ d ∈ p.dtb, ¬ Overlap k (k + kernelSize) d (d + dtbMaxSize)) ∧
        ∀ r ∈ p.ramdisk, ¬ Overlap k (k + kernelSize) r (r + ramdiskMaxSize)) ↔
      (p.kernel.isSome → NeighbourInUse base p → kernelSize + textOffset ≤ maxKernelImageSize) := by
  constructor
  · intro clear used neighbour
    obtain ⟨k, found⟩ := Option.isSome_iff_exists.mp used
    obtain ⟨notDtb, notRamdisk⟩ := clear k found
    rw [apart.kernel k found] at notDtb notRamdisk
    rcases neighbour with place | place
    · obtain ⟨behind, aligned, -⟩ := apart.dtb _ place
      exact (LinuxBoot.kernel_clear_iff accepted (by decide) behind aligned).mp (notDtb _ place) rfl
    · obtain ⟨behind, aligned, -⟩ := apart.ramdisk _ place
      exact (LinuxBoot.kernel_clear_iff accepted (by decide) behind aligned).mp
        (notRamdisk _ place) rfl
  · intro short k found
    have used : p.kernel.isSome := Option.isSome_iff_exists.mpr ⟨k, found⟩
    rw [apart.kernel k found]
    refine ⟨fun d place => ?_, fun r place => ?_⟩
    · obtain ⟨behind, aligned, -⟩ := apart.dtb d place
      refine (LinuxBoot.kernel_clear_iff accepted (by decide) behind aligned).mpr fun here => ?_
      exact short used (.inl (here ▸ place))
    · obtain ⟨behind, aligned, -⟩ := apart.ramdisk r place
      refine (LinuxBoot.kernel_clear_iff accepted (by decide) behind aligned).mpr fun here => ?_
      exact short used (.inr (here ▸ place))

theorem Places.Apart.dtb_clear (apart : p.Apart base) {d r : Nat} (dtb : d ∈ p.dtb)
    (ramdisk : r ∈ p.ramdisk) : ¬ Overlap d (d + dtbMaxSize) r (r + ramdiskMaxSize) := by
  rintro ⟨x, low, high, low', high'⟩
  have sizes : dtbMaxSize ≤ ramdiskAlignment := by decide
  rcases apart.apart d dtb r ramdisk with before | after
  · omega
  · omega

theorem Places.Apart.base_le (apart : p.Apart base) {region : Nat × Nat}
    (used : region ∈ p.regions kernelSize) : base ≤ region.1 := by
  have low := le_kernelBase base
  unfold Places.regions regionsInUse at used
  simp only [List.mem_append, Option.mem_toList, Option.map_eq_some_iff] at used
  rcases used with (⟨k, found, rfl⟩ | ⟨d, found, rfl⟩) | ⟨r, found, rfl⟩
  · rw [apart.kernel k found]
    exact Nat.le_add_right_of_le low
  · exact (Nat.le_add_right_of_le low).trans (apart.dtb d found).1
  · exact (Nat.le_add_right_of_le low).trans (apart.ramdisk r found).1

end Regions

/-- **The regions in use for the boot.** After any requests that do not wrap around the address
space, and for any kernel that is accepted. -/
theorem loadRegions_safe_iff (osBase osSize : BitVec 64) (requests : List Request)
    {kernelSize : Nat} (accepted : kernelSize ≤ maxKernelImageSize)
    (noWrap : (places osBase.toNat requests).next < 2 ^ 64) :
    RegionsSafe osBase.toNat osSize.toNat ((loadAddrs osBase requests).regions kernelSize) ↔
      ((places osBase.toNat requests).kernel.isSome →
        NeighbourInUse osBase.toNat (places osBase.toNat requests) →
        kernelSize + textOffset ≤ maxKernelImageSize) ∧
      ∀ r ∈ (places osBase.toNat requests).regions kernelSize,
        r.2 ≤ osBase.toNat + osSize.toNat := by
  have follows : Follows osBase (loadAddrs osBase requests) (places osBase.toNat requests) :=
    Follows.initial.run requests noWrap
  have same : (loadAddrs osBase requests).regions kernelSize =
      (places osBase.toNat requests).regions kernelSize := by
    rw [LoadAddrs.regions, follows.kernel, follows.dtb, follows.ramdisk, Places.regions]
  have apart := Places.Apart.run osBase.toNat requests
  rw [same, RegionsSafe]
  refine and_congr ?_ (forall₂_congr fun region used => and_iff_right (apart.base_le used))
  rw [Places.regions, pairwise_regionsInUse, ← apart.kernel_clear_iff accepted]
  exact and_iff_left fun d dtb r ramdisk => apart.dtb_clear dtb ramdisk

/-- In a carveout of 1 GB at the start of DRAM, the end of the largest kernel lies in the device
tree. -/
theorem largest_kernel_over_dtb :
    maxKernelImageSize ≤ maxKernelImageSize ∧
      ¬ RegionsSafe (0x80000000#64).toNat (0x40000000#64).toNat
        ((loadAddrs 0x80000000#64 [.dtb, .kernel, .ramdisk]).regions maxKernelImageSize) := by
  have regions : (loadAddrs 0x80000000#64 [.dtb, .kernel, .ramdisk]).regions maxKernelImageSize =
      [(0x80080000, 0x90080000), (0x90000000, 0x90400000), (0x91000000, 0x95000000)] := by decide
  refine ⟨le_rfl, ?_⟩
  rw [regions]
  rintro ⟨apart, -⟩
  refine (List.pairwise_cons.mp apart).1 (0x90000000, 0x90400000) (.head _ ..) ?_
  exact ⟨0x90000000, by decide⟩

/-- The equivalence for a kernel of 80 MB in the same carveout. -/
theorem loadRegions_safe_iff_usual :
    RegionsSafe (0x80000000#64).toNat (0x40000000#64).toNat
        ((loadAddrs 0x80000000#64 [.dtb, .kernel, .ramdisk]).regions 0x05000000) ↔
      ((places (0x80000000#64).toNat [.dtb, .kernel, .ramdisk]).kernel.isSome →
        NeighbourInUse (0x80000000#64).toNat
          (places (0x80000000#64).toNat [.dtb, .kernel, .ramdisk]) →
        0x05000000 + textOffset ≤ maxKernelImageSize) ∧
      ∀ r ∈ (places (0x80000000#64).toNat [.dtb, .kernel, .ramdisk]).regions 0x05000000,
        r.2 ≤ (0x80000000#64).toNat + (0x40000000#64).toNat :=
  loadRegions_safe_iff 0x80000000#64 0x40000000#64 [.dtb, .kernel, .ramdisk] (by decide) (by decide)

end Cboot.LinuxBoot
