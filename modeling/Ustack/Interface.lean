import Ustack.Buckets
import Ustack.Hashtable
import Ustack.PortRange

/-!
# Local addresses and the interface

`src/local_ip.c` and `src/interface.c`. A local address is either a *self* IP,
used towards servers in full-NAT mode, or a *vs* IP, which clients talk to; it
owns one port range for TCP and one for UDP, filled at creation with the slice
of its kind. An interface keeps each of its addresses in two places: one of four
hash sets, by kind and family, where packets look it up, and one of the four
lists of its NIC, where connections pick a self IP in turn.

The structures are named by pointers, which here are numbers handed out in
order: `lip` is the memory of the `local_ip` structures and `lip_num` the number
allocated.
-/

/-- `SELF_IP_T`. -/
def selfIpT : ℕ := 1

/-- `VS_IP_T`. -/
def vsIpT : ℕ := 2

/-- `struct local_ip`. -/
structure LocalIp where
  /-- `SELF_IP_T` or `VS_IP_T`. -/
  type : ℕ
  /-- The address. -/
  addr : IpAddress
  /-- The NIC the address is bound on. -/
  nic_id : ℕ
  /-- The TCP port range. -/
  tcp_port : PortRange
  /-- The UDP port range. -/
  udp_port : PortRange
deriving Inhabited

namespace LocalIp

/-- The range of a protocol: the TCP one, or the other. -/
def range (lip : LocalIp) (is_tcp : Bool) : PortRange :=
  if is_tcp then lip.tcp_port else lip.udp_port

/-- The address with the range of a protocol replaced. -/
def setRange (lip : LocalIp) (is_tcp : Bool) (r : PortRange) : LocalIp :=
  if is_tcp then { lip with tcp_port := r } else { lip with udp_port := r }

@[simp] theorem range_setRange (lip : LocalIp) (b : Bool) (r : PortRange) :
    (lip.setRange b r).range b = r := by
  cases b <;> rfl

@[simp] theorem range_setRange_of_ne (lip : LocalIp) {b c : Bool} (h : c ≠ b)
    (r : PortRange) : (lip.setRange b r).range c = lip.range c := by
  cases b <;> cases c <;> first | exact absurd rfl h | rfl

@[simp] theorem addr_setRange (lip : LocalIp) (b : Bool) (r : PortRange) :
    (lip.setRange b r).addr = lip.addr := by
  cases b <;> rfl

@[simp] theorem type_setRange (lip : LocalIp) (b : Bool) (r : PortRange) :
    (lip.setRange b r).type = lip.type := by
  cases b <;> rfl

@[simp] theorem setRange_range (lip : LocalIp) (b : Bool) :
    lip.setRange b (lip.range b) = lip := by
  cases b <;> rfl

end LocalIp

/-- `lip_is_vsip`. -/
def lipIsVsip (lip : LocalIp) : Bool := lip.type == vsIpT

/-- `lip_is_ipv4`. -/
def lipIsIpv4 (lip : LocalIp) : Bool := lip.addr.family == afInet

/-- The body of `lip_get_tcp_port` and `lip_get_udp_port`. -/
def lipGetPort (is_tcp : Bool) (lip : LocalIp) (port : UInt16) : UInt16 × LocalIp :=
  let (ret, range) := portRangeGetPort (lip.range is_tcp) port
  (ret, lip.setRange is_tcp range)

/-- `lip_get_tcp_port`. -/
def lipGetTcpPort : LocalIp → UInt16 → UInt16 × LocalIp := lipGetPort true

/-- `lip_get_udp_port`. -/
def lipGetUdpPort : LocalIp → UInt16 → UInt16 × LocalIp := lipGetPort false

/-- The body of `lip_put_tcp_port` and `lip_put_udp_port`. -/
def lipPutPort (is_tcp : Bool) (lip : LocalIp) (port : UInt16) : LocalIp :=
  lip.setRange is_tcp (portRangePutPort (lip.range is_tcp) port)

/-- `lip_put_tcp_port`. -/
def lipPutTcpPort : LocalIp → UInt16 → LocalIp := lipPutPort true

/-- `lip_put_udp_port`. -/
def lipPutUdpPort : LocalIp → UInt16 → LocalIp := lipPutPort false

/-- `struct ip_space`: the port slices of the two kinds, and the four hash sets
by kind (`true` for vs) and family (`true` for IPv4). -/
structure IpSpace where
  /-- The lowest port of a vs IP. -/
  vs_port_low : UInt16
  /-- The highest port of a vs IP. -/
  vs_port_high : UInt16
  /-- The lowest port of a self IP. -/
  self_port_low : UInt16
  /-- The highest port of a self IP. -/
  self_port_high : UInt16
  /-- `__get_ip_set`: the buckets of the set of a kind and family. -/
  ip_set : Bool → Bool → ℕ → List ℕ

/-- The space with the set of one kind and family replaced. -/
def IpSpace.setIpSet (space : IpSpace) (is_vs is_ipv4 : Bool) (set : ℕ → List ℕ) :
    IpSpace :=
  { space with ip_set := fun v f =>
      if v = is_vs ∧ f = is_ipv4 then set else space.ip_set v f }

/-- `struct interface`, with the memory of its addresses. -/
structure Interface where
  /-- The number of NICs. -/
  num : ℕ
  /-- The address space. -/
  space : IpSpace
  /-- `__get_list_head2`: the list of a NIC of a kind and family. -/
  nic : ℕ → Bool → Bool → List ℕ
  /-- The `local_ip` structures. -/
  lip : ℕ → LocalIp
  /-- The number of them allocated. -/
  lip_num : ℕ

/-- The interface with one list of one NIC replaced. -/
def Interface.setNicList (itf : Interface) (nic_id : ℕ) (is_vs is_ipv4 : Bool)
    (list : List ℕ) : Interface :=
  { itf with nic := fun k v f =>
      if k = nic_id ∧ v = is_vs ∧ f = is_ipv4 then list else itf.nic k v f }

/-- The interface with one address assigned. -/
def Interface.setLip (itf : Interface) (l : ℕ) (lip : LocalIp) : Interface :=
  { itf with lip := Function.update itf.lip l lip }

theorem Interface.lip_setLip_self (itf : Interface) (l : ℕ) (lip : LocalIp) :
    (itf.setLip l lip).lip l = lip := Function.update_self _ _ _

theorem Interface.lip_setLip_of_ne (itf : Interface) {l l' : ℕ} (h : l' ≠ l)
    (lip : LocalIp) : (itf.setLip l lip).lip l' = itf.lip l' :=
  Function.update_of_ne h _ _

/-- `lip_hashkey`, under `LOCAL_IP_HT_MASK`. -/
def lipHashkey (hashRand : UInt32) (ip : IpAddress) : ℕ :=
  (ipAddressHash hashRand ip &&& 255).toNat

/-- `ip_set_lookup`. -/
def ipSetLookup (hashRand : UInt32) (lip : ℕ → LocalIp) (set : ℕ → List ℕ)
    (ip : IpAddress) : Option ℕ :=
  (set (lipHashkey hashRand ip)).find? (fun l => ipAddressEq ip (lip l).addr)

/-- `interface_lookup`, through `lip_ip_space_lookup`. -/
def interfaceLookup (hashRand : UInt32) (itf : Interface) (ip : IpAddress)
    (is_vs : Bool) : Option ℕ :=
  ipSetLookup hashRand itf.lip (itf.space.ip_set is_vs (ipAddressIsIpv4 ip)) ip

/-- `ng_interface_lookup_vsip`. -/
def ngInterfaceLookupVsip (hashRand : UInt32) (itf : Interface) (ip : IpAddress) :
    Option ℕ := interfaceLookup hashRand itf ip true

/-- `ng_interface_lookup_selfip`. -/
def ngInterfaceLookupSelfip (hashRand : UInt32) (itf : Interface) (ip : IpAddress) :
    Option ℕ := interfaceLookup hashRand itf ip false

/-- `interface_module_init`. -/
def interfaceModuleInit (num : ℕ) (vs_low vs_high self_low self_high : UInt16) :
    Interface where
  num := num
  space :=
    { vs_port_low := vs_low
      vs_port_high := vs_high
      self_port_low := self_low
      self_port_high := self_high
      ip_set := fun _ _ _ => [] }
  nic := fun _ _ _ => []
  lip := fun _ => default
  lip_num := 0

/-- `lip_ip_space_create_local_ip`: both ranges filled with the slice of the
kind. -/
def lipIpSpaceCreateLocalIp (space : IpSpace) (ip : IpAddress) (type nic_id : ℕ) :
    LocalIp :=
  let port_low := if type = selfIpT then space.self_port_low else space.vs_port_low
  let port_high := if type = selfIpT then space.self_port_high else space.vs_port_high
  let port_num := port_high.toNat + 1 - port_low.toNat
  { type := type
    addr := ip
    nic_id := nic_id
    tcp_port := portRangeInit (portRangeCreate port_num) port_low port_high
    udp_port := portRangeInit (portRangeCreate port_num) port_low port_high }

/-- `lip_ip_space_add`: link an address into its set. -/
def lipIpSpaceAdd (hashRand : UInt32) (itf : Interface) (l : ℕ) : Interface :=
  let is_vs := lipIsVsip (itf.lip l)
  let is_ipv4 := lipIsIpv4 (itf.lip l)
  let set := bucketAdd (itf.space.ip_set is_vs is_ipv4)
    (lipHashkey hashRand (itf.lip l).addr) l
  { itf with space := itf.space.setIpSet is_vs is_ipv4 set }

/-- `nic_add_lip`: link an address into the list of its NIC. -/
def nicAddLip (itf : Interface) (l : ℕ) : Interface :=
  let is_vs := lipIsVsip (itf.lip l)
  let is_ipv4 := lipIsIpv4 (itf.lip l)
  let nic_id := (itf.lip l).nic_id
  itf.setNicList nic_id is_vs is_ipv4 (l :: itf.nic nic_id is_vs is_ipv4)

/-- `interface_create_local_ip`, at the next free pointer. -/
def interfaceCreateLocalIp (hashRand : UInt32) (itf : Interface) (ip : IpAddress)
    (type nic_id : ℕ) : ℕ × Interface :=
  let l := itf.lip_num
  let lip := lipIpSpaceCreateLocalIp itf.space ip type nic_id
  let itf := { itf.setLip l lip with lip_num := l + 1 }
  (l, nicAddLip (lipIpSpaceAdd hashRand itf l) l)

/-- The interface after creating the addresses of a list, given as address, kind
and NIC. -/
def Interface.addLocalIps (hashRand : UInt32) (itf : Interface)
    (ips : List (IpAddress × ℕ × ℕ)) : Interface :=
  ips.foldl (fun itf (ip, type, nic_id) =>
    (interfaceCreateLocalIp hashRand itf ip type nic_id).2) itf

/-- One NIC with the vs IP `10.0.0.1` and the self IP `10.0.0.2`, in a process
with hash seed zero. -/
def twoIps (self_low self_high : UInt16) : Interface :=
  (interfaceModuleInit 1 1024 65535 self_low self_high).addLocalIps 0
    [(netTen 1, vsIpT, 0), (netTen 2, selfIpT, 0)]

/-- `interface_get_lip_rr`: the first address of a NIC's list, moved to its end.
A NIC that does not exist has no list, and its ids reach no route entry. -/
def interfaceGetLipRr (itf : Interface) (nic_id : ℕ) (is_vsip is_ipv4 : Bool) :
    Option ℕ × Interface :=
  if itf.num ≤ nic_id then (none, itf)
  else match itf.nic nic_id is_vsip is_ipv4 with
    | [] => (none, itf)
    | l :: rest =>
      (some l, itf.setNicList nic_id is_vsip is_ipv4 (rest ++ [l]))

/-! ## Lookups -/

/-- A lookup answers an address equal to the one asked for. -/
theorem interfaceLookup_eq {hashRand : UInt32} {itf : Interface} {ip : IpAddress}
    {is_vs : Bool} {l : ℕ} (h : interfaceLookup hashRand itf ip is_vs = some l) :
    ipAddressEq ip (itf.lip l).addr = true := by
  have hf := List.find?_some h
  simpa using hf

/-- **A lookup reads an address only up to what the comparison reads.** -/
theorem interfaceLookup_congr (hashRand : UInt32) (itf : Interface) {a b : IpAddress}
    (h : ipAddressEq a b = true) (is_vs : Bool) :
    interfaceLookup hashRand itf a is_vs = interfaceLookup hashRand itf b is_vs := by
  have hfam : ipAddressIsIpv4 a = ipAddressIsIpv4 b := by
    rw [ipAddressIsIpv4, ipAddressIsIpv4, (ipAddressEq_iff.mp h).1]
  have hpred : (fun l => ipAddressEq a (itf.lip l).addr)
      = fun l => ipAddressEq b (itf.lip l).addr := by
    funext l
    rw [Bool.eq_iff_iff]
    exact ⟨ipAddressEq_trans (ipAddressEq_symm h), ipAddressEq_trans h⟩
  unfold interfaceLookup ipSetLookup lipHashkey
  rw [hfam, hpred, ipAddressHash_congr hashRand h]

/-! ## What taking and returning ports keeps -/

namespace Interface

/-- The two interfaces have the same addresses in the same places, the lists of
the NICs up to their order. -/
structure Keeps (itf itf' : Interface) : Prop where
  /-- The number of NICs. -/
  num : itf'.num = itf.num
  /-- The hash sets. -/
  space : itf'.space = itf.space
  /-- The number of addresses. -/
  lip_num : itf'.lip_num = itf.lip_num
  /-- The addresses. -/
  addr : ∀ l, (itf'.lip l).addr = (itf.lip l).addr
  /-- Their kinds. -/
  type : ∀ l, (itf'.lip l).type = (itf.lip l).type
  /-- The lists. -/
  nic : ∀ k v f, (itf'.nic k v f).Perm (itf.nic k v f)

theorem Keeps.refl (itf : Interface) : Keeps itf itf :=
  ⟨rfl, rfl, rfl, fun _ => rfl, fun _ => rfl, fun _ _ _ => List.Perm.refl _⟩

theorem Keeps.trans {a b c : Interface} (h : Keeps a b) (h' : Keeps b c) : Keeps a c :=
  ⟨h'.num.trans h.num, h'.space.trans h.space, h'.lip_num.trans h.lip_num,
    fun l => (h'.addr l).trans (h.addr l), fun l => (h'.type l).trans (h.type l),
    fun k v f => (h'.nic k v f).trans (h.nic k v f)⟩

/-- **Lookups answer the same.** -/
theorem Keeps.lookup {itf itf' : Interface} (h : Keeps itf itf')
    (hashRand : UInt32) (ip : IpAddress) (is_vs : Bool) :
    interfaceLookup hashRand itf' ip is_vs = interfaceLookup hashRand itf ip is_vs := by
  unfold interfaceLookup ipSetLookup
  simp only [h.space, h.addr]

/-- Assigning a range of an address keeps the addresses. -/
theorem keeps_setLip (itf : Interface) (l : ℕ) (b : Bool) (r : PortRange) :
    Keeps itf (itf.setLip l ((itf.lip l).setRange b r)) := by
  refine ⟨rfl, rfl, rfl, fun l' => ?_, fun l' => ?_, fun _ _ _ => List.Perm.refl _⟩ <;>
    by_cases h : l' = l
  · rw [h, lip_setLip_self, LocalIp.addr_setRange]
  · rw [lip_setLip_of_ne itf h]
  · rw [h, lip_setLip_self, LocalIp.type_setRange]
  · rw [lip_setLip_of_ne itf h]

/-- The ranges after assigning one. -/
theorem range_setLip (itf : Interface) (l l' : ℕ) (b b' : Bool) (r : PortRange) :
    ((itf.setLip l ((itf.lip l).setRange b r)).lip l').range b'
      = if l' = l ∧ b' = b then r else (itf.lip l').range b' := by
  by_cases hl : l' = l
  · rw [hl, lip_setLip_self]
    by_cases hb : b' = b
    · rw [hb, LocalIp.range_setRange, if_pos ⟨rfl, rfl⟩]
    · rw [LocalIp.range_setRange_of_ne _ hb, if_neg (fun h => hb h.2)]
  · rw [lip_setLip_of_ne itf hl, if_neg (fun h => hl h.1)]

/-- Every range is in step and holds no port zero. -/
def RangesOk (itf : Interface) : Prop :=
  ∀ l b, ((itf.lip l).range b).InStep ∧ (0 : UInt16) ∉ ((itf.lip l).range b).available

theorem RangesOk.setLip {itf : Interface} (h : itf.RangesOk) {l : ℕ} {b : Bool}
    {r : PortRange} (hr : r.InStep ∧ (0 : UInt16) ∉ r.available) :
    (itf.setLip l ((itf.lip l).setRange b r)).RangesOk := by
  intro l' b'
  rw [range_setLip]
  split
  · exact hr
  · exact h l' b'

end Interface

/-- Going round the addresses of a NIC only reorders their list, and answers one
of them. -/
theorem interfaceGetLipRr_spec (itf : Interface) (nic_id : ℕ) (is_vsip is_ipv4 : Bool) :
    itf.Keeps (interfaceGetLipRr itf nic_id is_vsip is_ipv4).2
      ∧ (interfaceGetLipRr itf nic_id is_vsip is_ipv4).2.lip = itf.lip
      ∧ ∀ l, (interfaceGetLipRr itf nic_id is_vsip is_ipv4).1 = some l →
        l ∈ itf.nic nic_id is_vsip is_ipv4 := by
  unfold interfaceGetLipRr
  split
  · exact ⟨Interface.Keeps.refl itf, rfl, fun l hl => absurd hl (by simp)⟩
  split
  · exact ⟨Interface.Keeps.refl itf, rfl, fun l hl => absurd hl (by simp)⟩
  · rename_i l rest hlist
    refine ⟨⟨rfl, rfl, rfl, fun _ => rfl, fun _ => rfl, fun k v f => ?_⟩, rfl,
      fun l' hl => ?_⟩
    · show (if k = nic_id ∧ v = is_vsip ∧ f = is_ipv4 then rest ++ [l]
        else itf.nic k v f).Perm _
      split
      · rename_i hk
        rw [hk.1, hk.2.1, hk.2.2, hlist]
        exact List.perm_append_singleton l rest
      · exact List.Perm.refl _
    · rw [← Option.some_inj.mp hl, hlist]
      exact List.mem_cons_self

/-- Asking an address for any port takes the next one of the range. -/
theorem lipGetPort_zero (is_tcp : Bool) (lip : LocalIp) :
    lipGetPort is_tcp lip 0
      = ((portRangeGetPort1 (lip.range is_tcp)).1,
        lip.setRange is_tcp (portRangeGetPort1 (lip.range is_tcp)).2) := rfl
