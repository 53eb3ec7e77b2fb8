/-
**The addresses of the boot options.**

`parse_ip_info` asks for each address property without a limit, so that the length of the property
decides how many bytes are copied to a field of four bytes. The three addresses of a static
configuration are cleared when the last property that was asked for is missing.
-/

import Cboot.Cbo.Parse

namespace Cboot.Cbo

variable {node : Node}

/-! ### What is read -/

def propertyLength (node : Node) (field : IpField) : Option Nat :=
  (node.getprop field.property).map Prod.snd

def fieldsRead (node : Node) : List IpField :=
  .tftpServerIp ::
    if (node.getprop .dhcpEnabled).isSome then []
    else .staticIp ::
      if (propertyLength node .staticIp).isNone then []
      else .ipNetmask ::
        if (propertyLength node .ipNetmask).isNone then [] else [.ipGateway]

def copiesOf (node : Node) (fields : List IpField) : List (IpField × Nat) :=
  fields.filterMap fun field => (propertyLength node field).map fun length => (field, length)

theorem getIp_found {field : IpField} {prop len : Nat}
    (found : node.getprop field.property = some (prop, len)) (s : IpState) :
    getIp node field s =
      (.ok (), ⟨s.info.copyFrom node.mem field.offset prop len, s.copies ++ [(field, len)]⟩) := by
  rw [getIp, tegrablDtGetPropU8Array, found]
  rfl

theorem getIp_missing {field : IpField} (missing : node.getprop field.property = none)
    (s : IpState) : getIp node field s = (dtNotFound, s) := by
  rw [getIp, tegrablDtGetPropU8Array, missing]
  rfl

theorem getIp_copies (field : IpField) (s : IpState) :
    (getIp node field s).2.copies = s.copies ++ copiesOf node [field] := by
  cases found : node.getprop field.property with
  | none =>
    rw [getIp_missing found]
    simp [copiesOf, propertyLength, found]
  | some place =>
    rw [getIp_found found]
    simp [copiesOf, propertyLength, found]

variable (s : IpState)

theorem clearStatic_copies : s.clearStatic.copies = s.copies := rfl

theorem copiesOf_append (first second : List IpField) :
    copiesOf node (first ++ second) = copiesOf node first ++ copiesOf node second :=
  List.filterMap_append

theorem parseStaticIp_copies :
    (parseStaticIp node s).2.copies = s.copies ++ copiesOf node (.staticIp ::
      if (propertyLength node .staticIp).isNone then []
      else .ipNetmask :: if (propertyLength node .ipNetmask).isNone then [] else [.ipGateway]) := by
  rw [parseStaticIp]
  cases static : node.getprop .staticIp with
  | none =>
    have missing : propertyLength node .staticIp = none := congrArg (Option.map Prod.snd) static
    rw [getIp_missing static, missing]
    simp [dtNotFound, tegrablError, copiesOf, missing]
  | some place =>
    have length : propertyLength node .staticIp = some place.2 :=
      congrArg (Option.map Prod.snd) static
    rw [getIp_found static, length]
    cases netmask : node.getprop .ipNetmask with
    | none =>
      have missing : propertyLength node .ipNetmask = none :=
        congrArg (Option.map Prod.snd) netmask
      dsimp only
      rw [getIp_missing netmask, missing]
      simp [dtNotFound, tegrablError, copiesOf, length, missing]
    | some next =>
      have found : propertyLength node .ipNetmask = some next.2 :=
        congrArg (Option.map Prod.snd) netmask
      dsimp only
      rw [getIp_found netmask, found]
      dsimp only
      rw [getIp_copies]
      simp [copiesOf, length, found]

theorem parseAddresses_copies :
    (parseAddresses node s).2.copies = s.copies ++ copiesOf node (fieldsRead node) := by
  have first : ∀ rest, copiesOf node (.tftpServerIp :: rest) =
      copiesOf node [.tftpServerIp] ++ copiesOf node rest := fun rest => copiesOf_append [_] rest
  rw [parseAddresses, fieldsRead, first, ← List.append_assoc, ← getIp_copies]
  split
  · exact (List.append_nil _).symm
  · exact parseStaticIp_copies _

theorem parseIpInfo_copies :
    (parseIpInfo node s).copies = s.copies ++ copiesOf node (fieldsRead node) := by
  rw [parseIpInfo]
  split
  · exact parseAddresses_copies s
  · exact (clearStatic_copies _).trans (parseAddresses_copies s)

/-! ### What the fields hold -/

def IpState.field (field : IpField) : List Byte := s.info.load field.offset 4

def IpState.Unset (field : IpField) : Prop := s.field field = [0, 0, 0, 0]

def IpState.SetFrom (node : Node) (field : IpField) : Prop :=
  ∃ prop, node.getprop field.property = some (prop, 4) ∧ s.field field = node.mem.load prop 4

/-- Every copy has four bytes; the three addresses of a static configuration are all set from
properties of four bytes, or none of them is; and the address of the server is set from such a
property, or is not. -/
structure IpInfoRight (node : Node) (s : IpState) : Prop where
  copies : ∀ copy ∈ s.copies, copy.2 = 4
  static : (∀ field ≠ .tftpServerIp, s.Unset field) ∨ ∀ field ≠ .tftpServerIp, s.SetFrom node field
  server : s.Unset .tftpServerIp ∨ s.SetFrom node .tftpServerIp

theorem field_congr {first second : IpState} {field : IpField}
    (same : ∀ i < 4, first.info (field.offset + i) = second.info (field.offset + i)) :
    first.field field = second.field field :=
  ByteMem.load_congr same

theorem field_apart {field other : IpField} (different : field ≠ other) :
    field.offset + 4 ≤ other.offset ∨ other.offset + 4 ≤ field.offset := by
  cases field <;> cases other <;> first | exact absurd rfl different | decide

theorem offset_pos (field : IpField) : 0 < field.offset := by
  cases field <;> decide

theorem getIp_field {field : IpField} {prop : Nat}
    (found : node.getprop field.property = some (prop, 4)) (s : IpState) (other : IpField) :
    (getIp node field s).2.field other =
      if other = field then node.mem.load prop 4 else s.field other := by
  rw [getIp_found found]
  by_cases same : other = field
  · rw [if_pos same, same]
    refine ByteMem.load_congr fun i bound => ?_
    show s.info.copyFrom node.mem field.offset prop 4 (field.offset + i) = _
    rw [ByteMem.copyFrom_inside _ _ (Nat.le_add_right _ _) (by omega), Nat.add_sub_cancel_left]
  · rw [if_neg same]
    have apart := field_apart same
    exact field_congr fun i bound => ByteMem.copyFrom_outside _ _ (by omega)

theorem setDhcp_field (enabled : Bool) (field : IpField) :
    (s.setDhcp enabled).field field = s.field field := by
  have positive := offset_pos field
  refine field_congr fun i bound => ByteMem.store_outside _ _ _ _ (.inr ?_)
  show 0 + 1 ≤ field.offset + i
  omega

theorem clearStatic_unset {field : IpField} (static : field ≠ .tftpServerIp) :
    s.clearStatic.Unset field := by
  cases field with
  | staticIp | ipNetmask | ipGateway => rfl
  | tftpServerIp => exact absurd rfl static

theorem clearStatic_server :
    s.clearStatic.field .tftpServerIp = s.field .tftpServerIp := rfl

/-! ### The addresses -/

def FourBytes (node : Node) : Prop :=
  ∀ field ∈ fieldsRead node, ∀ length, propertyLength node field = some length → length = 4

theorem copies_iff (none_ : s.copies = []) :
    (∀ copy ∈ (parseIpInfo node s).copies, copy.2 = 4) ↔ FourBytes node := by
  rw [parseIpInfo_copies, none_, List.nil_append]
  constructor
  · intro four field member length has
    refine four (field, length) (List.mem_filterMap.mpr ⟨field, member, ?_⟩)
    rw [has]
    rfl
  · rintro four ⟨field, length⟩ copied
    obtain ⟨other, member, same⟩ := List.mem_filterMap.mp copied
    obtain ⟨size, has, pair⟩ := Option.map_eq_some_iff.mp same
    cases pair
    exact four field member length has

inductive Asked (node : Node) (field : IpField) (s : IpState) : Prop
  | missing (none_ : propertyLength node field = none)
      (run : getIp node field s = (dtNotFound, s))
  | found (prop : Nat) (s' : IpState) (place : node.getprop field.property = some (prop, 4))
      (run : getIp node field s = (.ok (), s'))
      (set : s'.field field = node.mem.load prop 4)
      (others : ∀ other ≠ field, s'.field other = s.field other)

theorem asked (field : IpField) (s : IpState)
    (four : ∀ length, propertyLength node field = some length → length = 4) :
    Asked node field s := by
  cases found : node.getprop field.property with
  | none => exact .missing (congrArg (Option.map Prod.snd) found) (getIp_missing found s)
  | some place =>
    obtain ⟨prop, len⟩ := place
    have length : len = 4 := four len (congrArg (Option.map Prod.snd) found)
    subst length
    have fields := getIp_field found s
    rw [getIp_found found] at fields
    refine .found prop _ found (getIp_found found s) ?_ fun other different => ?_
    · rw [fields, if_pos rfl]
    · rw [fields, if_neg different]

theorem parseStaticIp_fields (noDhcp : ¬ (node.getprop .dhcpEnabled).isSome = true)
    (four : FourBytes node) :
    (parseStaticIp node s).2.field .tftpServerIp = s.field .tftpServerIp ∧
      ((parseStaticIp node s).1.isOk = true →
        ∀ field ≠ .tftpServerIp, (parseStaticIp node s).2.SetFrom node field) := by
  rw [FourBytes, fieldsRead, if_neg noDhcp] at four
  rw [parseStaticIp]
  rcases asked .staticIp s (four _ (by simp)) with ⟨none_, run⟩ | ⟨static, s₁, at₁, run, set₁, kept₁⟩
  · rw [run]
    exact ⟨rfl, nofun⟩
  have has₁ : propertyLength node .staticIp = some 4 := congrArg (Option.map Prod.snd) at₁
  rw [has₁] at four
  rw [run]
  dsimp only
  rcases asked .ipNetmask s₁ (four _ (by simp)) with ⟨none_, run⟩ | ⟨mask, s₂, at₂, run, set₂, kept₂⟩
  · rw [run]
    exact ⟨kept₁ .tftpServerIp nofun, nofun⟩
  have has₂ : propertyLength node .ipNetmask = some 4 := congrArg (Option.map Prod.snd) at₂
  rw [has₂] at four
  rw [run]
  dsimp only
  rcases asked .ipGateway s₂ (four _ (by simp)) with ⟨none_, run⟩ | ⟨gate, s₃, at₃, run, set₃, kept₃⟩
  · rw [run]
    exact ⟨(kept₂ .tftpServerIp nofun).trans (kept₁ .tftpServerIp nofun), nofun⟩
  rw [run]
  refine ⟨(kept₃ .tftpServerIp nofun).trans
    ((kept₂ .tftpServerIp nofun).trans (kept₁ .tftpServerIp nofun)), fun _ field static_ => ?_⟩
  cases field with
  | staticIp =>
    exact ⟨static, at₁, (kept₃ .staticIp nofun).trans ((kept₂ .staticIp nofun).trans set₁)⟩
  | ipNetmask => exact ⟨mask, at₂, (kept₃ .ipNetmask nofun).trans set₂⟩
  | ipGateway => exact ⟨gate, at₃, set₃⟩
  | tftpServerIp => exact absurd rfl static_

theorem parseAddresses_fields (four : FourBytes node) (unset : ∀ field, s.Unset field) :
    ((parseAddresses node s).2.Unset .tftpServerIp ∨
        (parseAddresses node s).2.SetFrom node .tftpServerIp) ∧
      ((parseAddresses node s).1.isOk = true →
        (∀ field ≠ .tftpServerIp, (parseAddresses node s).2.Unset field) ∨
        ∀ field ≠ .tftpServerIp, (parseAddresses node s).2.SetFrom node field) := by
  have server : ((getIp node .tftpServerIp s).2.Unset .tftpServerIp ∨
      (getIp node .tftpServerIp s).2.SetFrom node .tftpServerIp) ∧
      ∀ field ≠ .tftpServerIp, (getIp node .tftpServerIp s).2.field field = s.field field := by
    rcases asked .tftpServerIp s (four _ (by simp [fieldsRead])) with
      ⟨none_, run⟩ | ⟨prop, s₁, at₁, run, set₁, kept₁⟩
    · rw [run]
      exact ⟨.inl (unset _), fun _ _ => rfl⟩
    · rw [run]
      exact ⟨.inr ⟨prop, at₁, set₁⟩, kept₁⟩
  rw [parseAddresses]
  by_cases dhcp : (node.getprop .dhcpEnabled).isSome = true
  · rw [if_pos dhcp]
    refine ⟨?_, fun _ => .inl fun field static => ?_⟩
    · simp only [IpState.Unset, IpState.SetFrom, setDhcp_field] at server ⊢
      exact server.1
    · rw [IpState.Unset, setDhcp_field, server.2 field static]
      exact unset field
  · rw [if_neg dhcp]
    obtain ⟨kept, set⟩ :=
      parseStaticIp_fields ((getIp node .tftpServerIp s).2.setDhcp false) dhcp four
    refine ⟨?_, fun ok => .inr (set ok)⟩
    simp only [IpState.Unset, IpState.SetFrom, setDhcp_field, kept] at server ⊢
    exact server.1

def longServer : Node where
  mem _ := 0xAA
  getprop name := if name = .tftpServerIp then some (0, 40) else none

end Cboot.Cbo
