/-
**The decision to apply a fragment of the plugin manager.**

`pm_fragment_handle` goes over the categories of a fragment and over the strings of each, and both
loops leave early.

* `search_eq`: one loop over matchers decides whether all or some of them match, and it is used for
  the strings of a category and for the categories.
-/

import Cboot.DeviceTree.Strings
import Cboot.Error

namespace Cboot.PluginManager

open DeviceTree

/-! ### The handler -/

inductive Category
  | configNames
  | configs
  | ids
  | odmData
  | nctData
  | chipId
  | fuseInfo
  deriving DecidableEq

def matchInfoArray : List Category :=
  [.configNames, .configs, .ids, .odmData, .nctData, .chipId, .fuseInfo]

def Category.matchable : Category → Bool
  | .configs => false
  | _ => true

/-- What the handler reads of a fragment: for a property of a category, the place of its value in
the memory of the device tree and its length. -/
structure Fragment (Node : Type) where
  named : Bool
  overrideOnAllMatch : Bool
  odmAndedOverride : Bool
  mem : ByteMem
  getprop : Category → Option (Nat × Nat)
  children : List Node

def search {Item : Type} (all : Bool) (check : Item → Option Bool) : List Item → Bool → Bool
  | [], found => found
  | item :: rest, found =>
    match check item with
    | none => found
    | some matched => if matched = all then search all check rest matched else matched

section Handler

variable {Node : Type} (isMatch : Category → List Byte → Nat → Bool)
  (overrideFragment : Node → Result Unit)

namespace Fragment

variable (fr : Fragment Node) (category : Category)

def count : Nat :=
  match fr.getprop category with
  | some (prop, len) => countStrings fr.mem prop len
  | none => 0

def config (j : Nat) : Option Nat :=
  (fr.getprop .configs).map fun prop =>
    (fr.mem.load (prop.1 + 4 * j) 4).foldl (fun word byte => word * 256 + byte.toNat) 0

def data (j : Nat) : Option Nat :=
  if category = .configNames then fr.config j else some 0

def strings : List (List Byte × Nat) :=
  match fr.getprop category with
  | some (prop, len) =>
    (((prop :: stringArray fr.mem prop len).take (fr.count category)).map
      (cString fr.mem (prop + len))).zipIdx
  | none => []

def found : Bool :=
  search (fr.odmAndedOverride && category = .odmData)
    (fun item => (fr.data category item.2).map (isMatch category item.1)) (fr.strings category)
    false

def matchLoop : List Category → Bool → Bool
  | [], found => found
  | category :: rest, found =>
    if fr.count category > 0 ∧ category.matchable then
      if fr.overrideOnAllMatch && !fr.found isMatch category then false
      else if !fr.overrideOnAllMatch && fr.found isMatch category then true
      else matchLoop rest (fr.found isMatch category)
    else matchLoop rest found

end Fragment

def pmGetPropCount (fr : Fragment Node) : Result Unit :=
  if (matchInfoArray.map fr.count).sum = 0 then tegrablError .pluginManager .invalid 0 else .ok ()

def applyOverride : List Node → Result Unit → Result Unit
  | [], err => err
  | override :: rest, _ => applyOverride rest (overrideFragment override)

def pmFragmentHandle (fr : Fragment Node) : Result Unit × List Node :=
  if !fr.named then (tegrablError .pluginManager .invalid 0, [])
  else
    match pmGetPropCount fr with
    | .error err => (.error err, [])
    | .ok _ =>
      if fr.children.length = 0 then (tegrablError .pluginManager .invalid 1, [])
      else if fr.matchLoop isMatch matchInfoArray false then
        (applyOverride overrideFragment fr.children (.ok ()), fr.children)
      else (.ok (), [])

end Handler

/-! ### What the loops decide -/

theorem search_eq {Item : Type} (all : Bool) {check : Item → Option Bool} {p : Item → Bool}
    {items : List Item} (total : ∀ item ∈ items, check item = some (p item)) {found : Bool}
    (start : items ≠ [] ∨ found = all) :
    search all check items found = if all then items.all p else items.any p := by
  induction items generalizing found with
  | nil =>
    obtain start | rfl := start
    · exact absurd rfl start
    · cases found <;> rfl
  | cons item rest ih =>
    rw [List.forall_mem_cons] at total
    rw [search, total.1]
    by_cases same : p item = all
    · simp only [same, if_true, ih total.2 (.inr rfl)]
      cases all <;> simp [same]
    · simp only [if_neg same]
      cases all <;> simp_all

namespace Fragment

variable {Node : Type} (isMatch : Category → List Byte → Nat → Bool) (fr : Fragment Node)

def matched : List Category :=
  matchInfoArray.filter fun category => fr.count category > 0 ∧ category.matchable

theorem matchLoop_eq (categories : List Category) (found : Bool) :
    fr.matchLoop isMatch categories found =
      search fr.overrideOnAllMatch (fun category => some (fr.found isMatch category))
        (categories.filter fun category => fr.count category > 0 ∧ category.matchable) found := by
  induction categories generalizing found with
  | nil => rfl
  | cons category rest ih =>
    by_cases counted : fr.count category > 0 ∧ category.matchable
    · rw [matchLoop, if_pos counted, List.filter_cons_of_pos (by simpa using counted), search]
      cases all : fr.overrideOnAllMatch <;> cases fr.found isMatch category <;> simp [ih, all]
    · rw [matchLoop, if_neg counted, List.filter_cons_of_neg (by simpa using counted), ih]

/-! ### The fragments that are applied -/

variable (category : Category)

def Present : Prop := category.matchable ∧ fr.getprop category ≠ none

structure Holds (strings : List (List Byte)) : Prop where
  some_ : strings ≠ []
  bytes : ∃ prop, fr.getprop category = some (prop, stringsSize strings) ∧
    StringsAt fr.mem prop strings

/-- The name of the fragment and its properties can be read: a present category has strings, and the
names of configurations come with their values. -/
structure Readable : Prop where
  named : fr.named = true
  strings : ∀ category, fr.Present category → ∃ strings, fr.Holds category strings
  configs : fr.getprop .configNames ≠ none → fr.getprop .configs ≠ none

def MatchesAt (item : List Byte × Nat) : Prop :=
  isMatch category item.1 ((fr.data category item.2).getD 0)

def Satisfied : Prop :=
  ∃ strings, fr.Holds category strings ∧
    if fr.odmAndedOverride ∧ category = .odmData then
      ∀ item ∈ strings.zipIdx, fr.MatchesAt isMatch category item
    else ∃ item ∈ strings.zipIdx, fr.MatchesAt isMatch category item

def Applies : Prop :=
  if fr.overrideOnAllMatch then
    (∃ category, fr.Present category) ∧
      ∀ category, fr.Present category → fr.Satisfied isMatch category
  else ∃ category, fr.Present category ∧ fr.Satisfied isMatch category

variable {fr}

theorem Holds.count_eq {category : Category} {strings : List (List Byte)}
    (holds : fr.Holds category strings) : fr.count category = strings.length := by
  obtain ⟨prop, place, bytes⟩ := holds.bytes
  simp only [count, place, countStrings_eq bytes]

theorem Holds.strings_eq {category : Category} {strings : List (List Byte)}
    (holds : fr.Holds category strings) : fr.strings category = strings.zipIdx := by
  obtain ⟨prop, place, bytes⟩ := holds.bytes
  simp only [Fragment.strings, place, stringArray_eq bytes holds.some_, holds.count_eq,
    ← starts_length strings prop, List.take_length, starts_strings bytes le_rfl]

theorem mem_matched_iff (readable : fr.Readable) (category : Category) :
    category ∈ fr.matched ↔ fr.Present category := by
  have listed : category ∈ matchInfoArray := by cases category <;> decide
  simp only [matched, List.mem_filter, listed, true_and, decide_eq_true_eq]
  constructor
  · rintro ⟨positive, matchable⟩
    refine ⟨matchable, fun missing => ?_⟩
    simp [count, missing] at positive
  · intro present
    obtain ⟨strings, holds⟩ := readable.strings category present
    exact ⟨holds.count_eq ▸ List.length_pos_iff.mpr holds.some_, present.1⟩

theorem Readable.data_eq (readable : fr.Readable) {category : Category}
    (present : fr.Present category) (j : Nat) :
    fr.data category j = some ((fr.data category j).getD 0) := by
  rw [data]
  split
  · rename_i names
    subst names
    obtain ⟨configs, found⟩ := Option.ne_none_iff_exists'.mp (readable.configs present.2)
    simp [config, found]
  · rfl

theorem found_iff (readable : fr.Readable) {category : Category} (present : fr.Present category) :
    fr.found isMatch category = true ↔ fr.Satisfied isMatch category := by
  obtain ⟨strings, holds⟩ := readable.strings category present
  have items : strings.zipIdx ≠ [] := by simpa using holds.some_
  have only : ∀ others, fr.Holds category others → others.zipIdx = strings.zipIdx :=
    fun others other => other.strings_eq.symm.trans holds.strings_eq
  have loop : fr.found isMatch category = true ↔
      if fr.odmAndedOverride ∧ category = .odmData then
        ∀ item ∈ strings.zipIdx, fr.MatchesAt isMatch category item
      else ∃ item ∈ strings.zipIdx, fr.MatchesAt isMatch category item := by
    rw [found, holds.strings_eq, search_eq _
      (p := fun item => isMatch category item.1 ((fr.data category item.2).getD 0))
      (fun item _ => by rw [readable.data_eq present]; rfl) (.inl items)]
    by_cases anded : fr.odmAndedOverride ∧ category = .odmData
    · simp [anded, MatchesAt]
    · rw [if_neg anded, if_neg (by simpa using anded)]
      simp [MatchesAt]
  rw [loop]
  constructor
  · exact fun matching => ⟨strings, holds, matching⟩
  · rintro ⟨others, other, matching⟩
    rwa [only others other] at matching

theorem matchLoop_iff (readable : fr.Readable) :
    fr.matchLoop isMatch matchInfoArray false = true ↔ fr.Applies isMatch := by
  have member := mem_matched_iff readable
  have every : (∀ category ∈ fr.matched, fr.found isMatch category = true) ↔
      ∀ category, fr.Present category → fr.Satisfied isMatch category :=
    forall_congr' fun category => by
      rw [member]
      exact imp_congr_right (found_iff isMatch readable)
  have any : (∃ category ∈ fr.matched, fr.found isMatch category = true) ↔
      ∃ category, fr.Present category ∧ fr.Satisfied isMatch category :=
    exists_congr fun category => by
      rw [member]
      exact and_congr_right (found_iff isMatch readable)
  rw [matchLoop_eq, Applies]
  change search _ _ fr.matched false = true ↔ _
  by_cases nothing : fr.matched = []
  · have absent : ¬ ∃ category, fr.Present category := by
      rintro ⟨category, present⟩
      simpa [nothing] using (member category).mpr present
    rw [nothing, search]
    refine iff_of_false Bool.false_ne_true ?_
    split
    · exact fun both => absent both.1
    · rintro ⟨category, present, -⟩
      exact absent ⟨category, present⟩
  · rw [search_eq _ (p := fr.found isMatch) (fun _ _ => rfl) (.inl nothing)]
    obtain ⟨first, mem⟩ := List.exists_mem_of_ne_nil _ nothing
    have present : ∃ category, fr.Present category := ⟨first, (member first).mp mem⟩
    cases fr.overrideOnAllMatch <;> simp [present, ← every, ← any]

theorem pmGetPropCount_eq (readable : fr.Readable) (applies : fr.Applies isMatch) :
    pmGetPropCount fr = .ok () := by
  have present : ∃ category, fr.Present category := by
    rw [Applies] at applies
    split at applies
    · exact applies.1
    · obtain ⟨category, present, -⟩ := applies
      exact ⟨category, present⟩
  obtain ⟨category, present⟩ := present
  have member := (mem_matched_iff readable category).mpr present
  simp only [matched, List.mem_filter, decide_eq_true_eq] at member
  have sum := List.le_sum_of_mem (List.mem_map_of_mem (f := fr.count) member.1)
  exact if_neg (by omega)

end Fragment

def boardFragment : Fragment Unit where
  named := true
  overrideOnAllMatch := false
  odmAndedOverride := false
  mem := fun addr => if addr = 0 then 0x61 else 0
  getprop := fun category => if category = .ids then some (0, 2) else none
  children := [()]

theorem boardFragment_holds : boardFragment.Holds .ids [[0x61]] where
  some_ := List.cons_ne_nil _ _
  bytes := ⟨0, rfl, ⟨by decide, by decide⟩, trivial⟩

theorem boardFragment_readable : boardFragment.Readable where
  named := rfl
  strings := by
    rintro category ⟨-, present⟩
    have ids : category = .ids := by
      by_contra other
      simp [boardFragment, other] at present
    exact ⟨_, ids ▸ boardFragment_holds⟩
  configs := by simp [boardFragment]

end Cboot.PluginManager
