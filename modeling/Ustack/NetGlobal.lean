import Ustack.Interface
import Ustack.Vserver

/-!
# Adding an address

`ng_add_ip` of `src/net_global.c`: an address is put into the interface, that is into a hash
set and the list of its NIC, and then into the route table. The interface takes any address,
the route table refuses one it has, and nothing takes the address out of the interface
again; so the call answers null and leaves the interface changed exactly when there is a
route for the address already (`ngAddIp_allOrNothing_iff`).
-/

/-- `ng_add_ip`, for the address its string stands for: whether `rt_entry_create` got its
memory, and what the call answers. The memory of the local address is taken for granted:
`lip_init` writes to it without a test. -/
def ngAddIp (hashRand : UInt32) (created : Bool) (itf : Interface) (rt : RouteTable)
    (ip : IpAddress) (isvsip : Bool) (nic_id : ℕ) : Option ℕ × Interface × RouteTable :=
  if created = false then (none, itf, rt)
  else
    let (lip, itf) := interfaceCreateLocalIp hashRand itf ip
      (if isvsip then vsIpT else selfIpT) nic_id
    let re : RouteEntry := { addr := ip, nic_id := nic_id }
    -- `rt_add_entry` answers zero
    if (rtLookup hashRand rt re.addr false none).1.isSome then (none, itf, rt)
    else (some lip, itf, rtAddEntry hashRand rt re)

/-- The same addresses, lists and routes are found. -/
structure SameFound (hashRand : UInt32) (itf itf' : Interface) (rt rt' : RouteTable) :
    Prop where
  /-- A lookup in the interface answers the same. -/
  lookup : ∀ ip is_vs,
    interfaceLookup hashRand itf' ip is_vs = interfaceLookup hashRand itf ip is_vs
  /-- What it answers is the same, port ranges included. -/
  lip : ∀ ip is_vs l, interfaceLookup hashRand itf ip is_vs = some l → itf'.lip l = itf.lip l
  /-- The lists of the NICs are the same. -/
  nic : ∀ k is_vs is_ipv4, itf'.nic k is_vs is_ipv4 = itf.nic k is_vs is_ipv4
  /-- A lookup of a route answers the same. -/
  route : ∀ ip rr_enable nic_id,
    (rtLookup hashRand rt' ip rr_enable nic_id).1 = (rtLookup hashRand rt ip rr_enable nic_id).1

/-- The address is found on the NIC, in the interface and in the route table. -/
structure FoundOn (hashRand : UInt32) (itf : Interface) (rt : RouteTable) (ip : IpAddress)
    (isvsip : Bool) (nic_id l : ℕ) : Prop where
  /-- The lookup of its kind answers it. -/
  lookup : interfaceLookup hashRand itf ip isvsip = some l
  /-- It is that address. -/
  addr : ipAddressEq ip (itf.lip l).addr = true
  /-- It is on that NIC. -/
  nic : (itf.lip l).nic_id = nic_id
  /-- So is the route. -/
  route : ∃ re, (rtLookup hashRand rt ip false none).1 = some re
    ∧ ipAddressEq re.addr ip = true ∧ re.nic_id = nic_id

/-- **All or nothing**: with null everything is found as before, with a local address that
one is found. -/
def NgAddIpAllOrNothing (hashRand : UInt32) (created : Bool) (itf : Interface)
    (rt : RouteTable) (ip : IpAddress) (isvsip : Bool) (nic_id : ℕ) : Prop :=
  match ngAddIp hashRand created itf rt ip isvsip nic_id with
  | (none, itf', rt') => SameFound hashRand itf itf' rt rt'
  | (some l, itf', rt') => FoundOn hashRand itf' rt' ip isvsip nic_id l

section AddIp

variable (hashRand : UInt32) (itf : Interface) (rt : RouteTable) (ip : IpAddress)
  (isvsip : Bool) (nic_id : ℕ)

theorem SameFound.refl : SameFound hashRand itf itf rt rt :=
  ⟨fun _ _ => rfl, fun _ _ _ _ => rfl, fun _ _ _ => rfl, fun _ _ _ => rfl⟩

/-- A new address is of the kind it was created with. -/
theorem lipIsVsip_create (space : IpSpace) :
    lipIsVsip (lipIpSpaceCreateLocalIp space ip (if isvsip then vsIpT else selfIpT) nic_id)
      = isvsip := by
  cases isvsip <;> rfl

/-- **An address that is linked is found**, before any other. -/
theorem interfaceLookup_added (l : ℕ) :
    interfaceLookup hashRand (nicAddLip (lipIpSpaceAdd hashRand itf l) l) (itf.lip l).addr
      (lipIsVsip (itf.lip l)) = some l := by
  have hfront : (nicAddLip (lipIpSpaceAdd hashRand itf l) l).space.ip_set
        (lipIsVsip (itf.lip l)) (ipAddressIsIpv4 (itf.lip l).addr)
        (lipHashkey hashRand (itf.lip l).addr)
      = l :: itf.space.ip_set (lipIsVsip (itf.lip l)) (lipIsIpv4 (itf.lip l))
        (lipHashkey hashRand (itf.lip l).addr) := by
    refine (congrFun (if_pos ⟨rfl, rfl⟩) _).trans ?_
    exact Function.update_self _ _ _
  have hlip : (nicAddLip (lipIpSpaceAdd hashRand itf l) l).lip = itf.lip := rfl
  rw [interfaceLookup, ipSetLookup, hfront, hlip, List.find?_cons, ipAddressEq_refl]

/-- An address that is linked is in the list of its NIC. -/
theorem nic_added (l : ℕ) :
    (nicAddLip (lipIpSpaceAdd hashRand itf l) l).nic (itf.lip l).nic_id
        (lipIsVsip (itf.lip l)) (lipIsIpv4 (itf.lip l))
      = l :: itf.nic (itf.lip l).nic_id (lipIsVsip (itf.lip l)) (lipIsIpv4 (itf.lip l)) :=
  if_pos ⟨rfl, rfl, rfl⟩

/-- **A new address is found**, on its NIC and in the list of its NIC. -/
theorem interfaceCreateLocalIp_spec :
    let r := interfaceCreateLocalIp hashRand itf ip (if isvsip then vsIpT else selfIpT) nic_id
    interfaceLookup hashRand r.2 ip isvsip = some r.1
      ∧ (r.2.lip r.1).addr = ip ∧ (r.2.lip r.1).nic_id = nic_id
      ∧ r.2.nic nic_id isvsip (ipAddressIsIpv4 ip)
        = r.1 :: itf.nic nic_id isvsip (ipAddressIsIpv4 ip) := by
  dsimp only
  set lip := lipIpSpaceCreateLocalIp itf.space ip (if isvsip then vsIpT else selfIpT) nic_id
    with hlip
  have hkind : lipIsVsip lip = isvsip := lipIsVsip_create ip isvsip nic_id itf.space
  have hself : ({ itf.setLip itf.lip_num lip with lip_num := itf.lip_num + 1 } :
      Interface).lip itf.lip_num = lip := itf.lip_setLip_self itf.lip_num lip
  have hlookup := interfaceLookup_added hashRand
    { itf.setLip itf.lip_num lip with lip_num := itf.lip_num + 1 } itf.lip_num
  have hnic := nic_added hashRand
    { itf.setLip itf.lip_num lip with lip_num := itf.lip_num + 1 } itf.lip_num
  rw [hself, hkind] at hlookup hnic
  exact ⟨hlookup, congrArg LocalIp.addr hself, congrArg LocalIp.nic_id hself, hnic⟩

/-- **A new route is found**, where there was none. -/
theorem rtLookup_add (h : (rtLookup hashRand rt ip false none).1 = none) :
    (rtLookup hashRand (rtAddEntry hashRand rt ⟨ip, nic_id⟩) ip false none).1
      = some ⟨ip, nic_id⟩ := by
  have hadd : rtAddEntry hashRand rt ⟨ip, nic_id⟩
      = bucketAdd rt (rtHashkey hashRand ip) ⟨ip, nic_id⟩ := by
    rw [rtAddEntry, h]
    rfl
  have hfront : bucketAdd rt (rtHashkey hashRand ip) ⟨ip, nic_id⟩ (rtHashkey hashRand ip)
      = ⟨ip, nic_id⟩ :: rt (rtHashkey hashRand ip) := Function.update_self _ _ _
  have hmatch : routeMatches ip none ⟨ip, nic_id⟩ = true := by simp [routeMatches]
  rw [hadd, rtLookup, hfront, List.find?_cons, hmatch]

end AddIp

/-- **Adding an address is all or nothing exactly** when there is no memory for the route
entry or no route for the address yet. -/
theorem ngAddIp_allOrNothing_iff (hashRand : UInt32) (created : Bool) (itf : Interface)
    (rt : RouteTable) (ip : IpAddress) (isvsip : Bool) (nic_id : ℕ) :
    NgAddIpAllOrNothing hashRand created itf rt ip isvsip nic_id
      ↔ created = false ∨ (rtLookup hashRand rt ip false none).1 = none := by
  rw [NgAddIpAllOrNothing, ngAddIp]
  cases created with
  | false => exact ⟨fun _ => Or.inl rfl, fun _ => SameFound.refl hashRand itf rt⟩
  | true =>
    obtain ⟨hlookup, haddr, hnic, hlist⟩ :=
      interfaceCreateLocalIp_spec hashRand itf ip isvsip nic_id
    dsimp only at hlookup haddr hnic hlist ⊢
    cases hroute : (rtLookup hashRand rt ip false none).1 with
    | some re =>
      refine ⟨fun h => ?_, fun h => absurd h (by simp)⟩
      -- the list of the NIC is one longer
      have hsame := h.nic nic_id isvsip (ipAddressIsIpv4 ip)
      rw [hlist] at hsame
      exact absurd hsame (List.cons_ne_self _ _)
    | none =>
      refine ⟨fun _ => Or.inr rfl, fun _ => ⟨hlookup, ?_, hnic, ?_⟩⟩
      · rw [haddr]
        exact ipAddressEq_refl ip
      · exact ⟨_, rtLookup_add hashRand rt ip nic_id hroute, ipAddressEq_refl ip, rfl⟩

/-- An interface with `10.0.0.1` added once, as a self IP on NIC 0, and its route. -/
def addedOnce : Interface × RouteTable :=
  (ngAddIp 0 true (interfaceModuleInit 1 1 65535 1024 1027) (fun _ => []) (netTen 1) false
    0).2

/-- **Added a second time**, the address is refused, and from then on another structure is
found for it. -/
theorem added_twice_shadows :
    ¬ NgAddIpAllOrNothing 0 true addedOnce.1 addedOnce.2 (netTen 1) false 0
      ∧ (ngAddIp 0 true addedOnce.1 addedOnce.2 (netTen 1) false 0).1 = none
      ∧ interfaceLookup 0 addedOnce.1 (netTen 1) false = some 0
      ∧ interfaceLookup 0 (ngAddIp 0 true addedOnce.1 addedOnce.2 (netTen 1) false 0).2.1
        (netTen 1) false = some 1 := by
  refine ⟨fun h => ?_, by decide +kernel, by decide +kernel, by decide +kernel⟩
  have hcall : ngAddIp 0 true addedOnce.1 addedOnce.2 (netTen 1) false 0
      = (none, (ngAddIp 0 true addedOnce.1 addedOnce.2 (netTen 1) false 0).2) :=
    Prod.ext (by decide +kernel) rfl
  rw [NgAddIpAllOrNothing, hcall] at h
  have hsame := h.lookup (netTen 1) false
  exact absurd hsame (by decide +kernel)
