import Ustack.ArpRoutes
import Ustack.Cyclic
import Ustack.NetGlobal
import Ustack.PortHandOut

/-!
# The addresses and routes of a process as a map

`src/interface.c`, `src/local_ip.c` and `src/route.c` together, under every sequence of the
calls that change or read them: `ng_add_ip`, taking an address off its interface and putting
it back, lookups, going round the addresses of a NIC, taking and returning ports, and
routes. An address is in two lists at once, a bucket of one of four hash sets and the list
of its NIC, and every lookup that goes round reorders something.

`NetMap` is what all this is for: the addresses in use, the latest first, a queue for each
kind and family on each NIC, a queue of ports for each address and protocol, and the routes,
with no hashing, no buckets and no rings. No sequence of calls tells the one from the other
(`netState_answers`). The map shows what the tables hide: an equal address added later is found
in place of the first one, and each NIC deals out its addresses in turn (`netState_fair`).
-/

/-! ## The calls -/

/-- `ip_set_del`, for `lip_ip_space_del`: out of whichever set the address is in. -/
def lipIpSpaceDel (itf : Interface) (l : ℕ) : Interface :=
  { itf with space := { itf.space with ip_set := fun v f => bucketDel (itf.space.ip_set v f) l } }

/-- `nic_del_lip`: out of whichever list the address is in. -/
def nicDelLip (itf : Interface) (l : ℕ) : Interface :=
  { itf with nic := fun k v f => (itf.nic k v f).erase l }

/-- `interface_add_lip`. -/
def interfaceAddLip (hashRand : UInt32) (itf : Interface) (l : ℕ) : Interface :=
  nicAddLip (lipIpSpaceAdd hashRand itf l) l

/-- `interface_del_lip`. -/
def interfaceDelLip (itf : Interface) (l : ℕ) : Interface := nicDelLip (lipIpSpaceDel itf l) l

/-- `rt_del_entry`. -/
def rtDelEntry (rt : RouteTable) (re : RouteEntry) : RouteTable := bucketDel rt re

/-- A call on the interface or the routes. -/
inductive NetCall
  /-- `ng_add_ip`, of the address its string stands for. -/
  | addIp (created : Bool) (ip : IpAddress) (isvsip : Bool) (nic_id : ℕ)
  /-- `interface_add_lip`. -/
  | addLip (l : ℕ)
  /-- `interface_del_lip`. -/
  | delLip (l : ℕ)
  /-- `interface_lookup`. -/
  | lookup (ip : IpAddress) (is_vs : Bool)
  /-- `interface_get_lip_rr`. -/
  | lipRr (nic_id : ℕ) (is_vsip is_ipv4 : Bool)
  /-- `lip_get_tcp_port` or `lip_get_udp_port`. -/
  | getPort (l : ℕ) (is_tcp : Bool) (port : UInt16)
  /-- `lip_put_tcp_port` or `lip_put_udp_port`. -/
  | putPort (l : ℕ) (is_tcp : Bool) (port : UInt16)
  /-- `rt_add_entry`. -/
  | addRoute (re : RouteEntry)
  /-- `rt_del_entry`. -/
  | delRoute (re : RouteEntry)
  /-- `__rt_lookup_rr`, for `rt_lookup`, `rt_lookup_rr` and `rt_lookup_with_nic_id`. -/
  | route (ip : IpAddress) (rr_enable : Bool) (nic_id : Option ℕ)

/-- What a call answers. -/
inductive NetAnswer
  /-- A local address, or null. -/
  | lip (l : Option ℕ)
  /-- A route, or null. -/
  | route (re : Option RouteEntry)
  /-- A port, or zero. -/
  | port (p : UInt16)
  /-- Whether it was done. -/
  | ret (success : Bool)
  /-- Nothing. -/
  | void
deriving DecidableEq

/-- The interface and the routes of a process. -/
structure NetState where
  /-- The interface. -/
  itf : Interface
  /-- The route table. -/
  rt : RouteTable

/-- A call on the tables. -/
def NetState.run (hashRand : UInt32) (s : NetState) : NetCall → NetAnswer × NetState
  | .addIp created ip isvsip nic_id =>
    let (l, itf, rt) := ngAddIp hashRand created s.itf s.rt ip isvsip nic_id
    (.lip l, ⟨itf, rt⟩)
  | .addLip l => (.void, ⟨interfaceAddLip hashRand s.itf l, s.rt⟩)
  | .delLip l => (.void, ⟨interfaceDelLip s.itf l, s.rt⟩)
  | .lookup ip is_vs => (.lip (interfaceLookup hashRand s.itf ip is_vs), s)
  | .lipRr nic_id is_vsip is_ipv4 =>
    let (l, itf) := interfaceGetLipRr s.itf nic_id is_vsip is_ipv4
    (.lip l, ⟨itf, s.rt⟩)
  | .getPort l is_tcp port =>
    let (p, lip) := lipGetPort is_tcp (s.itf.lip l) port
    (.port p, ⟨s.itf.setLip l lip, s.rt⟩)
  | .putPort l is_tcp port =>
    (.void, ⟨s.itf.setLip l (lipPutPort is_tcp (s.itf.lip l) port), s.rt⟩)
  | .addRoute re =>
    (.ret (rtAddEntryRet hashRand s.rt re), ⟨s.itf, rtAddEntry hashRand s.rt re⟩)
  | .delRoute re => (.ret true, ⟨s.itf, rtDelEntry s.rt re⟩)
  | .route ip rr_enable nic_id =>
    let (re, rt) := rtLookup hashRand s.rt ip rr_enable nic_id
    (.route re, ⟨s.itf, rt⟩)

/-- What a sequence of calls answers, and the tables after it. -/
def NetState.runs (hashRand : UInt32) (s : NetState) : List NetCall → List NetAnswer × NetState
  | [] => ([], s)
  | c :: calls =>
    let (answer, s) := s.run hashRand c
    let (answers, s) := s.runs hashRand calls
    (answer :: answers, s)

/-! ## What the tables are for -/

/-- What is known of a local address for good. -/
structure LipInfo where
  /-- The address. -/
  addr : IpAddress
  /-- Whether it is a vs IP. -/
  is_vs : Bool
  /-- The NIC it is bound on. -/
  nic_id : ℕ

/-- **The addresses, ports and routes in use.** -/
structure NetMap where
  /-- The number of NICs. -/
  num : ℕ
  /-- The lowest port of an address, a vs IP or not. -/
  low : Bool → UInt16
  /-- The highest. -/
  high : Bool → UInt16
  /-- The local addresses made. -/
  made : ℕ
  /-- What is known of them. -/
  info : ℕ → LipInfo
  /-- Those in use, the latest first. -/
  lips : List ℕ
  /-- Whose turn it is on a NIC, for a kind and family. -/
  turn : ℕ → Bool → Bool → List ℕ
  /-- How many ports an address was made with. -/
  room : ℕ → ℕ
  /-- Those it has left, of TCP or UDP, in the order they are handed out. -/
  ports : ℕ → Bool → List UInt16
  /-- The routes, the latest first. -/
  routes : List RouteEntry

namespace NetMap

/-- The queue an address waits in. -/
def Waits (m : NetMap) (l k : ℕ) (v f : Bool) : Prop :=
  (m.info l).nic_id = k ∧ (m.info l).is_vs = v ∧ ipAddressIsIpv4 (m.info l).addr = f

instance (m : NetMap) (l k : ℕ) (v f : Bool) : Decidable (m.Waits l k v f) :=
  inferInstanceAs (Decidable (_ ∧ _ ∧ _))

/-- Put an address into use. -/
def use (m : NetMap) (l : ℕ) : NetMap :=
  { m with
    lips := l :: m.lips
    turn := fun k v f => if m.Waits l k v f then l :: m.turn k v f else m.turn k v f }

/-- Take an address out of use. -/
def drop (m : NetMap) (l : ℕ) : NetMap :=
  { m with lips := m.lips.erase l, turn := fun k v f => (m.turn k v f).erase l }

/-- The ports an address is made with: those of its kind, but for port zero. -/
def slice (m : NetMap) (is_vs : Bool) : List UInt16 :=
  (portSlice (m.low is_vs) (m.high is_vs)).foldl returnPort []

/-- Make an address, with its ports, and put it into use. -/
def make (m : NetMap) (info : LipInfo) : NetMap :=
  use
    { m with
      made := m.made + 1
      info := Function.update m.info m.made info
      room := Function.update m.room m.made
        ((m.high info.is_vs).toNat + 1 - (m.low info.is_vs).toNat)
      ports := Function.update m.ports m.made (fun _ => m.slice info.is_vs) }
    m.made

/-- The ports an address has left. -/
def setPorts (m : NetMap) (l : ℕ) (is_tcp : Bool) (queue : List UInt16) : NetMap :=
  { m with ports := fun l' b => if l' = l ∧ b = is_tcp then queue else m.ports l' b }

/-- Add a route, unless there is one to the address. -/
def addRoute (m : NetMap) (re : RouteEntry) : NetMap :=
  if m.routes.any (routeMatches re.addr none) then m else { m with routes := re :: m.routes }

/-- The call on the map. -/
def run (m : NetMap) : NetCall → NetAnswer × NetMap
  | .addIp created ip isvsip nic_id =>
    if created then
      if m.routes.any (routeMatches ip none) then (.lip none, m.make ⟨ip, isvsip, nic_id⟩)
      else (.lip (some m.made), (m.make ⟨ip, isvsip, nic_id⟩).addRoute ⟨ip, nic_id⟩)
    else (.lip none, m)
  | .addLip l => (.void, m.use l)
  | .delLip l => (.void, m.drop l)
  | .lookup ip is_vs =>
    (.lip (m.lips.find? (fun l => (m.info l).is_vs == is_vs && ipAddressEq ip (m.info l).addr)), m)
  | .lipRr k v f =>
    (.lip (m.turn k v f).head?, { m with turn := fun k' v' f' =>
      if k' = k ∧ v' = v ∧ f' = f then (m.turn k v f).rotate 1 else m.turn k' v' f' })
  | .getPort l is_tcp port =>
    let (p, queue) := takePort (m.ports l is_tcp) port
    (.port p, m.setPorts l is_tcp queue)
  | .putPort l is_tcp port => (.void, m.setPorts l is_tcp (returnPort (m.ports l is_tcp) port))
  | .addRoute re => (.ret (!m.routes.any (routeMatches re.addr none)), m.addRoute re)
  | .delRoute re => (.ret true, { m with routes := m.routes.erase re })
  | .route ip _ nic_id => (.route (m.routes.find? (routeMatches ip nic_id)), m)

/-- What a sequence of calls answers, and the map after it. -/
def runs (m : NetMap) : List NetCall → List NetAnswer × NetMap
  | [] => ([], m)
  | c :: calls =>
    let (answer, m) := m.run c
    let (answers, m) := m.runs calls
    (answer :: answers, m)

/-- **When a call is made**: a NIC exists, an address that is put back is not in use, one
that is taken off is, and so is a route. -/
def Ok (m : NetMap) : NetCall → Prop
  | .addIp _ _ _ nic_id => nic_id < m.num
  | .addLip l => l < m.made ∧ l ∉ m.lips
  | .delLip l => l ∈ m.lips
  | .lipRr nic_id _ _ => nic_id < m.num
  | .delRoute re => re ∈ m.routes
  | _ => True

/-- Every call of a sequence is made then. -/
def AllOk (m : NetMap) : List NetCall → Prop
  | [] => True
  | c :: calls => m.Ok c ∧ (m.run c).2.AllOk calls

/-- A port is returned where one is out. -/
def PortOk (m : NetMap) : NetCall → Prop
  | .putPort l is_tcp port => port = 0 ∨ (m.ports l is_tcp).length < m.room l
  | _ => True

/-- Every port of a sequence is. -/
def AllPortOk (m : NetMap) : List NetCall → Prop
  | [] => True
  | c :: calls => m.PortOk c ∧ (m.run c).2.AllPortOk calls

/-- At first nothing is in use. -/
def empty (num : ℕ) (vs_low vs_high self_low self_high : UInt16) : NetMap where
  num := num
  low := fun is_vs => if is_vs then vs_low else self_low
  high := fun is_vs => if is_vs then vs_high else self_high
  made := 0
  info := fun _ => ⟨default, false, 0⟩
  lips := []
  turn := fun _ _ _ => []
  room := fun _ => 0
  ports := fun _ _ => []
  routes := []

/-! ### The map over a sequence of calls -/

/-- **What the map is**: nothing is in use twice, who is in use waits in its queue, and no two
routes are to one address. -/
structure Inv (m : NetMap) : Prop where
  /-- An address in use was made. -/
  made : ∀ l ∈ m.lips, l < m.made
  /-- No address is in use twice. -/
  nodup : m.lips.Nodup
  /-- Who waits where. -/
  turn : ∀ k v f l, l ∈ m.turn k v f ↔ l ∈ m.lips ∧ m.Waits l k v f
  /-- Nobody waits twice. -/
  turn_nodup : ∀ k v f, (m.turn k v f).Nodup
  /-- No two routes are to one address. -/
  routes : m.routes.Pairwise (fun a b => ipAddressEq a.addr b.addr = false)

section Inv

variable {m : NetMap} {l : ℕ}

theorem inv_empty (num : ℕ) (vs_low vs_high self_low self_high : UInt16) :
    (empty num vs_low vs_high self_low self_high).Inv where
  made := fun _ hl => absurd hl List.not_mem_nil
  nodup := List.nodup_nil
  turn := fun _ _ _ _ => ⟨fun hl => absurd hl List.not_mem_nil,
    fun hl => absurd hl.1 List.not_mem_nil⟩
  turn_nodup := fun _ _ _ => List.nodup_nil
  routes := List.Pairwise.nil

theorem Inv.use (h : m.Inv) (hl : l < m.made) (hfresh : l ∉ m.lips) : (m.use l).Inv where
  made := fun x hx => by
    rcases List.mem_cons.mp hx with rfl | hx
    · exact hl
    · exact h.made x hx
  nodup := List.nodup_cons.mpr ⟨hfresh, h.nodup⟩
  turn := fun k v f x => by
    show x ∈ (if m.Waits l k v f then l :: m.turn k v f else m.turn k v f)
      ↔ x ∈ l :: m.lips ∧ m.Waits x k v f
    by_cases hx : x = l
    · rw [hx]
      by_cases hw : m.Waits l k v f
      · rw [if_pos hw]
        exact ⟨fun _ => ⟨List.mem_cons_self, hw⟩, fun _ => List.mem_cons_self⟩
      · rw [if_neg hw]
        exact ⟨fun hmem => absurd ((h.turn k v f l).mp hmem).1 hfresh, fun hmem => absurd hmem.2 hw⟩
    · have hlist : x ∈ (if m.Waits l k v f then l :: m.turn k v f else m.turn k v f)
          ↔ x ∈ m.turn k v f := by
        split
        · rw [List.mem_cons, or_iff_right hx]
        · rfl
      rw [hlist, h.turn, List.mem_cons, or_iff_right hx]
  turn_nodup := fun k v f => by
    show (if m.Waits l k v f then l :: m.turn k v f else m.turn k v f).Nodup
    split
    · exact List.nodup_cons.mpr ⟨fun hmem => hfresh ((h.turn k v f l).mp hmem).1,
        h.turn_nodup k v f⟩
    · exact h.turn_nodup k v f
  routes := h.routes

theorem Inv.drop (h : m.Inv) (l : ℕ) : (m.drop l).Inv where
  made := fun x hx => h.made x (List.mem_of_mem_erase hx)
  nodup := h.nodup.erase l
  turn := fun k v f x => by
    show x ∈ (m.turn k v f).erase l ↔ x ∈ m.lips.erase l ∧ m.Waits x k v f
    rw [(h.turn_nodup k v f).mem_erase_iff, h.nodup.mem_erase_iff, h.turn, and_assoc]
  turn_nodup := fun k v f => (h.turn_nodup k v f).erase l
  routes := h.routes

/-- An address that is made was not in use. -/
theorem Inv.notMem_made (h : m.Inv) : m.made ∉ m.lips := fun hmem =>
  absurd (h.made _ hmem) (Nat.lt_irrefl _)

/-- What is known of the others does not change. -/
theorem Inv.info_made (h : m.Inv) (info : LipInfo) {x : ℕ} (hx : x ∈ m.lips) :
    Function.update m.info m.made info x = m.info x :=
  Function.update_of_ne (fun he : x = m.made => h.notMem_made (he ▸ hx)) _ _

theorem Inv.make (h : m.Inv) (info : LipInfo) : (m.make info).Inv := by
  refine Inv.use (l := m.made) (m :=
    { m with
      made := m.made + 1
      info := Function.update m.info m.made info
      room := _
      ports := _ })
    ⟨fun x hx => Nat.lt_succ_of_lt (h.made x hx), h.nodup, fun k v f x => ?_, h.turn_nodup,
      h.routes⟩ (Nat.lt_succ_self _) h.notMem_made
  show x ∈ m.turn k v f ↔ x ∈ m.lips ∧ _
  rw [h.turn]
  refine and_congr_right (fun hx => ?_)
  show _ ↔ (Function.update m.info m.made info x).nic_id = k
    ∧ (Function.update m.info m.made info x).is_vs = v
    ∧ ipAddressIsIpv4 (Function.update m.info m.made info x).addr = f
  rw [h.info_made info hx]
  rfl

theorem Inv.addRoute (h : m.Inv) (re : RouteEntry) : (m.addRoute re).Inv := by
  rw [NetMap.addRoute]
  split
  · exact h
  · rename_i hnone
    refine ⟨h.made, h.nodup, h.turn, h.turn_nodup,
      List.pairwise_cons.mpr ⟨fun a ha => ?_, h.routes⟩⟩
    by_contra heq
    rw [Bool.not_eq_false] at heq
    refine hnone (List.any_eq_true.mpr ⟨a, ha, ?_⟩)
    rw [routeMatches, ipAddressEq_symm heq]
    rfl

/-- **A call keeps the map what it is.** -/
theorem Inv.run (h : m.Inv) {c : NetCall} (hc : m.Ok c) : (m.run c).2.Inv := by
  cases c with
  | addIp created ip isvsip nic_id =>
    rw [NetMap.run]
    split
    · split
      · exact h.make _
      · exact (h.make _).addRoute _
    · exact h
  | addLip l => exact h.use hc.1 hc.2
  | delLip l => exact h.drop l
  | lookup ip is_vs => exact h
  | lipRr k v f =>
    refine ⟨h.made, h.nodup, fun k' v' f' l => ?_, fun k' v' f' => ?_, h.routes⟩
    · show l ∈ (if k' = k ∧ v' = v ∧ f' = f then (m.turn k v f).rotate 1 else m.turn k' v' f') ↔ _
      split
      · rename_i he
        rw [List.mem_rotate, ← he.1, ← he.2.1, ← he.2.2]
        exact h.turn k' v' f' l
      · exact h.turn k' v' f' l
    · show (if k' = k ∧ v' = v ∧ f' = f then (m.turn k v f).rotate 1 else m.turn k' v' f').Nodup
      split
      · exact List.nodup_rotate.mpr (h.turn_nodup k v f)
      · exact h.turn_nodup k' v' f'
  | getPort l is_tcp port => exact ⟨h.made, h.nodup, h.turn, h.turn_nodup, h.routes⟩
  | putPort l is_tcp port => exact ⟨h.made, h.nodup, h.turn, h.turn_nodup, h.routes⟩
  | addRoute re => exact h.addRoute re
  | delRoute re =>
    exact ⟨h.made, h.nodup, h.turn, h.turn_nodup, h.routes.sublist List.erase_sublist⟩
  | route ip rr_enable nic_id => exact h

/-- Two routes that match one address are one. -/
theorem Inv.route_unique (h : m.Inv) {ip : IpAddress} {nic : Option ℕ} :
    ∀ a ∈ m.routes, ∀ b ∈ m.routes, routeMatches ip nic a = true → routeMatches ip nic b = true →
      a = b := by
  intro a ha b hb hma hmb
  simp only [routeMatches, Bool.and_eq_true] at hma hmb
  by_contra hne
  have hsymm : Std.Symm (fun a b : RouteEntry => ipAddressEq a.addr b.addr = false) :=
    ⟨fun a b hab => by
      by_contra heq
      rw [Bool.not_eq_false] at heq
      rw [ipAddressEq_symm heq] at hab
      exact Bool.false_ne_true hab.symm⟩
  have hapart := h.routes.forall ha hb hne
  rw [ipAddressEq_trans hma.2 (ipAddressEq_symm hmb.2)] at hapart
  exact Bool.false_ne_true hapart.symm

end Inv

end NetMap

/-! ## The tables refine the map -/

/-- **The tables hold the map**: each bucket of a hash set the addresses in use with its hash, in
order, each list of a NIC its queue, and each bucket of the routes those with its hash, in
whatever order lookups have left them. -/
structure NetState.Refines (hashRand : UInt32) (s : NetState) (m : NetMap) : Prop where
  /-- The number of NICs. -/
  num : s.itf.num = m.num
  /-- The local addresses made. -/
  made : s.itf.lip_num = m.made
  /-- What is known of them. -/
  info : ∀ l < m.made, (s.itf.lip l).addr = (m.info l).addr
    ∧ lipIsVsip (s.itf.lip l) = (m.info l).is_vs ∧ (s.itf.lip l).nic_id = (m.info l).nic_id
  /-- The hash sets. -/
  set : ∀ v f, Chains (fun l => lipHashkey hashRand (m.info l).addr) (s.itf.space.ip_set v f)
    (m.lips.filter (fun l => (m.info l).is_vs = v ∧ ipAddressIsIpv4 (m.info l).addr = f))
  /-- The lists of the NICs. -/
  nic : s.itf.nic = m.turn
  /-- The buckets of the routes. -/
  routes : ∀ i, (s.rt i).Perm (m.routes.filter (fun re => rtHashkey hashRand re.addr = i))

/-- The lowest port of a kind of addresses. -/
def IpSpace.portLow (space : IpSpace) (is_vs : Bool) : UInt16 :=
  if is_vs then space.vs_port_low else space.self_port_low

/-- The highest. -/
def IpSpace.portHigh (space : IpSpace) (is_vs : Bool) : UInt16 :=
  if is_vs then space.vs_port_high else space.self_port_high

/-- **The port ranges hold the ports of the map.** -/
structure NetState.HoldsPorts (s : NetState) (m : NetMap) : Prop where
  /-- The lowest ports. -/
  low : s.itf.space.portLow = m.low
  /-- The highest. -/
  high : s.itf.space.portHigh = m.high
  /-- The ranges. -/
  range : ∀ l b, ((s.itf.lip l).range b).Holds (m.room l) (m.ports l b)

/-- The call takes a port. -/
def NetCall.TakesPort : NetCall → Bool
  | .getPort _ _ _ => true
  | _ => false

namespace NetState

section Refines

variable {hashRand : UInt32} {s : NetState} {m : NetMap} {l : ℕ}

/-- **A lookup of an address** answers the latest one in use that is equal. -/
theorem Refines.lookup_eq (h : s.Refines hashRand m) (hm : m.Inv) (ip : IpAddress)
    (is_vs : Bool) :
    interfaceLookup hashRand s.itf ip is_vs
      = m.lips.find? (fun l => (m.info l).is_vs == is_vs && ipAddressEq ip (m.info l).addr) := by
  set own := m.lips.filter (fun l =>
    (m.info l).is_vs = is_vs ∧ ipAddressIsIpv4 (m.info l).addr = ipAddressIsIpv4 ip) with hown
  have hset := h.set is_vs (ipAddressIsIpv4 ip)
  have hread : ∀ l ∈ own, ipAddressEq ip (s.itf.lip l).addr = ipAddressEq ip (m.info l).addr :=
    fun l hl => by rw [(h.info l (hm.made l (List.mem_filter.mp hl).1)).1]
  have hkey : ∀ l ∈ own, ipAddressEq ip (m.info l).addr = true →
      lipHashkey hashRand (m.info l).addr = lipHashkey hashRand ip := fun l _ heq => by
    rw [lipHashkey, lipHashkey, ipAddressHash_congr hashRand (ipAddressEq_symm heq)]
  rw [interfaceLookup, ipSetLookup]
  have hbucket : (s.itf.space.ip_set is_vs (ipAddressIsIpv4 ip) (lipHashkey hashRand ip)).find?
      (fun l => ipAddressEq ip (s.itf.lip l).addr)
      = (s.itf.space.ip_set is_vs (ipAddressIsIpv4 ip) (lipHashkey hashRand ip)).find?
        (fun l => ipAddressEq ip (m.info l).addr) := by
    refine List.find?_congr (fun l hl => hread l ?_)
    rw [hset] at hl
    exact (List.mem_filter.mp hl).1
  rw [hbucket, hset.find?_eq hkey, List.find?_filter]
  refine List.find?_congr (fun l _ => ?_)
  -- an equal address is of the same family
  by_cases heq : ipAddressEq ip (m.info l).addr = true
  · have hfam : ipAddressIsIpv4 (m.info l).addr = ipAddressIsIpv4 ip := by
      rw [ipAddressIsIpv4, ipAddressIsIpv4, (ipAddressEq_iff.mp heq).1]
    simp [heq, hfam, Bool.beq_eq_decide_eq]
  · rw [Bool.not_eq_true] at heq
    simp [heq]

/-- **A lookup of a route** answers the one there is. -/
theorem Refines.route_eq (h : s.Refines hashRand m) (hm : m.Inv) (ip : IpAddress) (rr : Bool)
    (nic : Option ℕ) :
    (rtLookup hashRand s.rt ip rr nic).1 = m.routes.find? (routeMatches ip nic) := by
  have hfound : (rtLookup hashRand s.rt ip rr nic).1
      = (s.rt (rtHashkey hashRand ip)).find? (routeMatches ip nic) := by
    rw [rtLookup]
    cases (s.rt (rtHashkey hashRand ip)).find? (routeMatches ip nic) <;> rfl
  have hchains : Chains (fun re : RouteEntry => rtHashkey hashRand re.addr)
      (fun i => m.routes.filter (fun re => rtHashkey hashRand re.addr = i)) m.routes := fun _ => rfl
  rw [hfound, find?_eq_of_perm (h.routes (rtHashkey hashRand ip)) (fun a ha b hb => ?_)]
  · refine hchains.find?_eq (fun re _ hmatch => ?_)
    simp only [routeMatches, Bool.and_eq_true] at hmatch
    exact rtHashkey_congr hmatch.2
  · have hmem : ∀ x ∈ s.rt (rtHashkey hashRand ip), x ∈ m.routes := fun x hx =>
      (List.mem_filter.mp ((h.routes _).mem_iff.mp hx)).1
    exact hm.route_unique a (hmem a ha) b (hmem b hb)

/-- A lookup only reorders a bucket. -/
theorem perm_rtLookup (rt : RouteTable) (ip : IpAddress) (rr : Bool) (nic : Option ℕ) (i : ℕ) :
    ((rtLookup hashRand rt ip rr nic).2 i).Perm (rt i) := by
  rw [rtLookup]
  cases hfind : (rt (rtHashkey hashRand ip)).find? (routeMatches ip nic) with
  | none => exact List.Perm.refl _
  | some re =>
    cases rr with
    | false => exact List.Perm.refl _
    | true =>
      show (Function.update rt (rtHashkey hashRand ip) _ i).Perm (rt i)
      by_cases hi : i = rtHashkey hashRand ip
      · obtain ⟨hmatch, before, after, hsplit, hbefore⟩ := List.find?_eq_some_iff_append.mp hfind
        have hnone : ∀ x ∈ before, ¬ routeMatches ip nic x = true := fun x hx => by
          simpa using hbefore x hx
        rw [hi, Function.update_self, hsplit, List.eraseP_append_right _ hnone,
          List.eraseP_cons_of_pos hmatch, List.append_assoc]
        exact (List.perm_append_singleton re after).append_left before
      · rw [Function.update_of_ne hi]

/-- The interface after an address is put into use. -/
theorem Refines.use (h : s.Refines hashRand m) (hl : l < m.made) :
    NetState.Refines hashRand ⟨interfaceAddLip hashRand s.itf l, s.rt⟩ (m.use l) := by
  obtain ⟨haddr, hvs, hnic⟩ := h.info l hl
  have hfam : lipIsIpv4 (s.itf.lip l) = ipAddressIsIpv4 (m.info l).addr := by
    rw [lipIsIpv4, haddr, ipAddressIsIpv4]
  refine ⟨h.num, h.made, h.info, fun v f => ?_, ?_, h.routes⟩
  · show Chains _ (if v = lipIsVsip (s.itf.lip l) ∧ f = lipIsIpv4 (s.itf.lip l)
        then bucketAdd (s.itf.space.ip_set (lipIsVsip (s.itf.lip l)) (lipIsIpv4 (s.itf.lip l)))
          (lipHashkey hashRand (s.itf.lip l).addr) l
        else s.itf.space.ip_set v f) ((l :: m.lips).filter _)
    rw [hvs, hfam, haddr, List.filter_cons]
    by_cases hclass : v = (m.info l).is_vs ∧ f = ipAddressIsIpv4 (m.info l).addr
    · rw [if_pos hclass, if_pos (decide_eq_true ⟨hclass.1.symm, hclass.2.symm⟩), hclass.1,
        hclass.2]
      exact (h.set _ _).bucketAdd l
    · rw [if_neg hclass, if_neg (fun he => hclass
        ⟨(of_decide_eq_true he).1.symm, (of_decide_eq_true he).2.symm⟩)]
      exact h.set v f
  · funext k v f
    show (if k = (s.itf.lip l).nic_id ∧ v = lipIsVsip (s.itf.lip l) ∧ f = lipIsIpv4 (s.itf.lip l)
        then l :: s.itf.nic (s.itf.lip l).nic_id (lipIsVsip (s.itf.lip l)) (lipIsIpv4 (s.itf.lip l))
        else s.itf.nic k v f)
      = if m.Waits l k v f then l :: m.turn k v f else m.turn k v f
    rw [hvs, hfam, hnic, h.nic]
    by_cases hw : m.Waits l k v f
    · obtain ⟨rfl, rfl, rfl⟩ := hw
      rw [if_pos ⟨rfl, rfl, rfl⟩, if_pos ⟨rfl, rfl, rfl⟩]
    · rw [if_neg hw, if_neg (fun he => hw ⟨he.1.symm, he.2.1.symm, he.2.2.symm⟩)]

/-- The interface after an address is taken out of use. -/
theorem Refines.drop (h : s.Refines hashRand m) (hm : m.Inv) (l : ℕ) :
    NetState.Refines hashRand ⟨interfaceDelLip s.itf l, s.rt⟩ (m.drop l) := by
  refine ⟨h.num, h.made, h.info, fun v f => ?_, ?_, h.routes⟩
  · have hdel := (h.set v f).bucketDel (hm.nodup.filter _) l
    rwa [(hm.nodup.filter _).erase_eq_filter, List.filter_comm, ← hm.nodup.erase_eq_filter] at hdel
  · funext k v f
    show (s.itf.nic k v f).erase l = (m.turn k v f).erase l
    rw [h.nic]

/-- The interface with an address made. -/
theorem Refines.make (h : s.Refines hashRand m) (hm : m.Inv) (ip : IpAddress) (isvsip : Bool)
    (nic_id : ℕ) :
    NetState.Refines hashRand
      ⟨(interfaceCreateLocalIp hashRand s.itf ip (if isvsip then vsIpT else selfIpT) nic_id).2,
        s.rt⟩
      (m.make ⟨ip, isvsip, nic_id⟩) := by
  set lip := lipIpSpaceCreateLocalIp s.itf.space ip (if isvsip then vsIpT else selfIpT) nic_id
    with hlip
  have hkind : lipIsVsip lip = isvsip := lipIsVsip_create ip isvsip nic_id s.itf.space
  have hmade : NetState.Refines hashRand
      ⟨{ s.itf.setLip s.itf.lip_num lip with lip_num := s.itf.lip_num + 1 }, s.rt⟩
      { m with
        made := m.made + 1
        info := Function.update m.info m.made ⟨ip, isvsip, nic_id⟩
        room := Function.update m.room m.made ((m.high isvsip).toNat + 1 - (m.low isvsip).toNat)
        ports := Function.update m.ports m.made (fun _ => m.slice isvsip) } := by
    refine ⟨h.num, congrArg (· + 1) h.made, fun x hx => ?_, fun v f => ?_, h.nic, h.routes⟩
    · show (Function.update s.itf.lip s.itf.lip_num lip x).addr
          = (Function.update m.info m.made _ x).addr
        ∧ lipIsVsip (Function.update s.itf.lip s.itf.lip_num lip x)
          = (Function.update m.info m.made _ x).is_vs
        ∧ (Function.update s.itf.lip s.itf.lip_num lip x).nic_id
          = (Function.update m.info m.made _ x).nic_id
      rw [h.made]
      by_cases hxl : x = m.made
      · rw [hxl, Function.update_self, Function.update_self]
        exact ⟨rfl, hkind, rfl⟩
      · rw [Function.update_of_ne hxl, Function.update_of_ne hxl]
        exact h.info x (lt_of_le_of_ne (Nat.lt_succ_iff.mp hx) hxl)
    · have hsame : ∀ x ∈ m.lips, Function.update m.info m.made ⟨ip, isvsip, nic_id⟩ x = m.info x :=
        fun x hx => hm.info_made _ hx
      have hfilter : m.lips.filter (fun x =>
            (Function.update m.info m.made ⟨ip, isvsip, nic_id⟩ x).is_vs = v
              ∧ ipAddressIsIpv4 (Function.update m.info m.made ⟨ip, isvsip, nic_id⟩ x).addr = f)
          = m.lips.filter (fun x =>
            (m.info x).is_vs = v ∧ ipAddressIsIpv4 (m.info x).addr = f) :=
        List.filter_congr (fun x hx => by rw [hsame x hx])
      intro i
      show s.itf.space.ip_set v f i = _
      rw [hfilter, h.set v f i]
      refine List.filter_congr (fun x hx => ?_)
      show decide (lipHashkey hashRand (m.info x).addr = i) = decide (lipHashkey hashRand
        (Function.update m.info m.made ⟨ip, isvsip, nic_id⟩ x).addr = i)
      rw [hsame x (List.mem_filter.mp hx).1]
  have huse := hmade.use (Nat.lt_succ_self m.made)
  rw [← h.made] at huse
  have hcreate : (interfaceCreateLocalIp hashRand s.itf ip (if isvsip then vsIpT else selfIpT)
      nic_id).2 = interfaceAddLip hashRand
        { s.itf.setLip s.itf.lip_num lip with lip_num := s.itf.lip_num + 1 } s.itf.lip_num := rfl
  rw [hcreate, NetMap.make, ← h.made]
  exact huse

/-- The routes with one added. -/
theorem Refines.addRoute (h : s.Refines hashRand m) (hm : m.Inv) (re : RouteEntry) :
    NetState.Refines hashRand ⟨s.itf, rtAddEntry hashRand s.rt re⟩ (m.addRoute re) := by
  have hany : (rtLookup hashRand s.rt re.addr false none).1.isSome
      = m.routes.any (routeMatches re.addr none) := by
    rw [h.route_eq hm, List.isSome_find?]
  rw [rtAddEntry, NetMap.addRoute, hany]
  split
  · exact h
  · refine ⟨h.num, h.made, h.info, h.set, h.nic, fun i => ?_⟩
    show (bucketAdd s.rt (rtHashkey hashRand re.addr) re i).Perm ((re :: m.routes).filter _)
    rw [List.filter_cons, bucketAdd]
    by_cases hi : i = rtHashkey hashRand re.addr
    · rw [hi, Function.update_self, if_pos (decide_eq_true rfl)]
      exact (h.routes _).cons re
    · rw [Function.update_of_ne hi, if_neg (fun he => hi (of_decide_eq_true he).symm)]
      exact h.routes i

/-- An address whose ports are taken or returned. -/
theorem Refines.setRange (h : s.Refines hashRand m) (l : ℕ) (b : Bool) (r : PortRange) :
    NetState.Refines hashRand ⟨s.itf.setLip l ((s.itf.lip l).setRange b r), s.rt⟩ m := by
  have hnic : ∀ lip : LocalIp, (lip.setRange b r).nic_id = lip.nic_id := fun lip => by
    cases b <;> rfl
  refine ⟨h.num, h.made, fun x hx => ?_, h.set, h.nic, h.routes⟩
  by_cases hxl : x = l
  · rw [hxl, Interface.lip_setLip_self, LocalIp.addr_setRange, lipIsVsip, LocalIp.type_setRange,
      ← lipIsVsip, hnic]
    exact h.info l (hxl ▸ hx)
  · rw [Interface.lip_setLip_of_ne _ hxl]
    exact h.info x hx

/-- The map does not hold the ports against the tables. -/
theorem Refines.setPorts (h : s.Refines hashRand m) (l : ℕ) (is_tcp : Bool)
    (queue : List UInt16) : s.Refines hashRand (m.setPorts l is_tcp queue) :=
  ⟨h.num, h.made, h.info, h.set, h.nic, h.routes⟩

/-- Adding a route returns whether there was none. -/
theorem Refines.addRouteRet (h : s.Refines hashRand m) (hm : m.Inv) (re : RouteEntry) :
    rtAddEntryRet hashRand s.rt re = !m.routes.any (routeMatches re.addr none) := by
  rw [rtAddEntryRet, h.route_eq hm, ← Option.not_isSome, List.isSome_find?]

/-- **A call on the tables is the call on the map**, with the same answer, but for the ports. -/
theorem Refines.run (h : s.Refines hashRand m) (hm : m.Inv) {c : NetCall} (hc : m.Ok c) :
    (c.TakesPort = false → (s.run hashRand c).1 = (m.run c).1)
      ∧ (s.run hashRand c).2.Refines hashRand (m.run c).2 := by
  cases c with
  | addIp created ip isvsip nic_id =>
    rw [NetState.run, NetMap.run, ngAddIp]
    cases created with
    | false => exact ⟨fun _ => rfl, h⟩
    | true =>
      have hany : (rtLookup hashRand s.rt ip false none).1.isSome
          = m.routes.any (routeMatches ip none) := by
        rw [h.route_eq hm, List.isSome_find?]
      have hmake := h.make hm ip isvsip nic_id
      rw [if_neg (show ¬ true = false from Bool.noConfusion), if_pos rfl]
      dsimp only
      rw [hany]
      split
      · exact ⟨fun _ => rfl, hmake⟩
      · exact ⟨fun _ => congrArg (fun n => NetAnswer.lip (some n)) h.made,
          hmake.addRoute (hm.make _) ⟨ip, nic_id⟩⟩
  | addLip l => exact ⟨fun _ => rfl, h.use hc.1⟩
  | delLip l => exact ⟨fun _ => rfl, h.drop hm l⟩
  | lookup ip is_vs => exact ⟨fun _ => congrArg NetAnswer.lip (h.lookup_eq hm ip is_vs), h⟩
  | lipRr k v f =>
    have hnum : ¬ s.itf.num ≤ k := Nat.not_le.mpr (h.num ▸ hc)
    have hlist : s.itf.nic k v f = m.turn k v f := by rw [h.nic]
    rw [NetState.run, NetMap.run, interfaceGetLipRr, if_neg hnum, hlist]
    cases hturn : m.turn k v f with
    | nil =>
      refine ⟨fun _ => rfl, h.num, h.made, h.info, h.set, ?_, h.routes⟩
      funext k' v' f'
      show s.itf.nic k' v' f' = if k' = k ∧ v' = v ∧ f' = f then [] else m.turn k' v' f'
      rw [h.nic]
      split
      · rename_i he
        rw [he.1, he.2.1, he.2.2, hturn]
      · rfl
    | cons l rest =>
      refine ⟨fun _ => rfl, h.num, h.made, h.info, h.set, ?_, h.routes⟩
      funext k' v' f'
      show (if k' = k ∧ v' = v ∧ f' = f then rest ++ [l] else s.itf.nic k' v' f')
        = if k' = k ∧ v' = v ∧ f' = f then (l :: rest).rotate 1 else m.turn k' v' f'
      rw [h.nic, List.rotate_cons_succ, List.rotate_zero]
  | getPort l is_tcp port =>
    exact ⟨fun htakes => absurd htakes.symm Bool.false_ne_true,
      (h.setRange l is_tcp _).setPorts l is_tcp _⟩
  | putPort l is_tcp port => exact ⟨fun _ => rfl, (h.setRange l is_tcp _).setPorts l is_tcp _⟩
  | addRoute re => exact ⟨fun _ => congrArg NetAnswer.ret (h.addRouteRet hm re), h.addRoute hm re⟩
  | delRoute re =>
    have hnodup : m.routes.Nodup := hm.routes.imp (fun {a b} hab he => by
      rw [he, ipAddressEq_refl] at hab
      exact Bool.false_ne_true hab.symm)
    refine ⟨fun _ => rfl, h.num, h.made, h.info, h.set, h.nic, fun i => ?_⟩
    show ((s.rt i).erase re).Perm ((m.routes.erase re).filter _)
    rw [hnodup.erase_eq_filter, List.filter_comm, ← (hnodup.filter _).erase_eq_filter]
    exact (h.routes i).erase re
  | route ip rr nic =>
    refine ⟨fun _ => congrArg NetAnswer.route (h.route_eq hm ip rr nic), h.num, h.made, h.info,
      h.set, h.nic, fun i => (perm_rtLookup s.rt ip rr nic i).trans (h.routes i)⟩

/-- **A run on the tables is the run on the map.** -/
theorem Refines.runs {calls : List NetCall} (h : s.Refines hashRand m) (hm : m.Inv)
    (hc : m.AllOk calls) :
    (s.runs hashRand calls).2.Refines hashRand (m.runs calls).2 ∧ (m.runs calls).2.Inv := by
  induction calls generalizing s m with
  | nil => exact ⟨h, hm⟩
  | cons c calls ih => exact ih (h.run hm hc.1).2 (hm.run hc.1) hc.2

/-! ### The ports -/

/-- Where nothing is done to the ports. -/
theorem HoldsPorts.congr {s' : NetState} {m' : NetMap} (h : s.HoldsPorts m)
    (hlow : s'.itf.space.portLow = s.itf.space.portLow)
    (hhigh : s'.itf.space.portHigh = s.itf.space.portHigh) (hlip : s'.itf.lip = s.itf.lip)
    (hmlow : m'.low = m.low) (hmhigh : m'.high = m.high) (hroom : m'.room = m.room)
    (hports : m'.ports = m.ports) : s'.HoldsPorts m' := by
  refine ⟨hlow.trans (h.low.trans hmlow.symm), hhigh.trans (h.high.trans hmhigh.symm),
    fun l b => ?_⟩
  rw [hlip, hroom, hports]
  exact h.range l b

/-- A range and its queue change. -/
theorem HoldsPorts.setRange (h : s.HoldsPorts m) {l : ℕ} {is_tcp : Bool} {r : PortRange}
    {queue : List UInt16} (hr : r.Holds (m.room l) queue) :
    HoldsPorts ⟨s.itf.setLip l ((s.itf.lip l).setRange is_tcp r), s.rt⟩
      (m.setPorts l is_tcp queue) := by
  refine ⟨h.low, h.high, fun l' b => ?_⟩
  show (((s.itf.setLip l ((s.itf.lip l).setRange is_tcp r)).lip l').range b).Holds (m.room l')
    (if l' = l ∧ b = is_tcp then queue else m.ports l' b)
  rw [Interface.range_setLip]
  split
  · rename_i he
    rw [he.1]
    exact hr
  · exact h.range l' b

/-- An address is made with the ports of its kind. -/
theorem HoldsPorts.make (h : s.HoldsPorts m) (href : s.Refines hashRand m) (ip : IpAddress)
    (isvsip : Bool) (nic_id : ℕ) :
    HoldsPorts
      ⟨(interfaceCreateLocalIp hashRand s.itf ip (if isvsip then vsIpT else selfIpT) nic_id).2,
        s.rt⟩
      (m.make ⟨ip, isvsip, nic_id⟩) := by
  refine ⟨h.low, h.high, fun l b => ?_⟩
  show ((Function.update s.itf.lip s.itf.lip_num (lipIpSpaceCreateLocalIp s.itf.space ip
      (if isvsip then vsIpT else selfIpT) nic_id) l).range b).Holds
    (Function.update m.room m.made ((m.high isvsip).toNat + 1 - (m.low isvsip).toNat) l)
    (Function.update m.ports m.made (fun _ => m.slice isvsip) l b)
  rw [href.made]
  by_cases hl : l = m.made
  · rw [hl, Function.update_self, Function.update_self, Function.update_self, NetMap.slice, ← h.low,
      ← h.high]
    cases isvsip <;> cases b <;> exact PortRange.holds_init _ _
  · rw [Function.update_of_ne hl, Function.update_of_ne hl, Function.update_of_ne hl]
    exact h.range l b

/-- A route is added. -/
theorem HoldsPorts.addRoute (h : s.HoldsPorts m) (re : RouteEntry) (rt : RouteTable) :
    HoldsPorts ⟨s.itf, rt⟩ (m.addRoute re) := by
  rw [NetMap.addRoute]
  split
  · exact h.congr rfl rfl rfl rfl rfl rfl rfl
  · exact h.congr rfl rfl rfl rfl rfl rfl rfl

/-- **A port is taken from the queue.** -/
theorem HoldsPorts.answer (h : s.HoldsPorts m) {c : NetCall} (htakes : c.TakesPort = true) :
    (s.run hashRand c).1 = (m.run c).1 := by
  cases c with
  | getPort l is_tcp port =>
    exact congrArg NetAnswer.port ((h.range l is_tcp).getPort port).1
  | _ => exact absurd htakes Bool.false_ne_true

/-- **A call on the port ranges is the call on the queues.** -/
theorem HoldsPorts.run (h : s.HoldsPorts m) (href : s.Refines hashRand m) (hm : m.Inv)
    {c : NetCall} (hc : m.PortOk c) : (s.run hashRand c).2.HoldsPorts (m.run c).2 := by
  cases c with
  | addIp created ip isvsip nic_id =>
    rw [NetState.run, NetMap.run, ngAddIp]
    cases created with
    | false => exact h
    | true =>
      have hany : (rtLookup hashRand s.rt ip false none).1.isSome
          = m.routes.any (routeMatches ip none) := by
        rw [href.route_eq hm, List.isSome_find?]
      have hmake := h.make href ip isvsip nic_id
      rw [if_neg (show ¬ true = false from Bool.noConfusion), if_pos rfl]
      dsimp only
      rw [hany]
      split
      · exact hmake
      · exact hmake.addRoute ⟨ip, nic_id⟩ _
  | addLip l => exact h.congr rfl rfl rfl rfl rfl rfl rfl
  | delLip l => exact h.congr rfl rfl rfl rfl rfl rfl rfl
  | lookup ip is_vs => exact h
  | lipRr k v f =>
    obtain ⟨hkeeps, hlip, -⟩ := interfaceGetLipRr_spec s.itf k v f
    exact h.congr (congrArg IpSpace.portLow hkeeps.space) (congrArg IpSpace.portHigh hkeeps.space)
      hlip rfl rfl rfl rfl
  | getPort l is_tcp port => exact h.setRange ((h.range l is_tcp).getPort port).2
  | putPort l is_tcp port => exact h.setRange ((h.range l is_tcp).putPort hc)
  | addRoute re => exact h.addRoute re _
  | delRoute re => exact h.congr rfl rfl rfl rfl rfl rfl rfl
  | route ip rr nic => exact h.congr rfl rfl rfl rfl rfl rfl rfl

/-- **A run on the tables and the ranges answers what it answers on the map.** -/
theorem Refines.answers {calls : List NetCall} (h : s.Refines hashRand m) (hm : m.Inv)
    (hports : s.HoldsPorts m) (hc : m.AllOk calls) (hp : m.AllPortOk calls) :
    (s.runs hashRand calls).1 = (m.runs calls).1 := by
  induction calls generalizing s m with
  | nil => rfl
  | cons c calls ih =>
    obtain ⟨hother, hnext⟩ := h.run hm hc.1
    have hanswer : (s.run hashRand c).1 = (m.run c).1 := by
      cases htakes : c.TakesPort with
      | false => exact hother htakes
      | true => exact hports.answer htakes
    show (s.run hashRand c).1 :: ((s.run hashRand c).2.runs hashRand calls).1
      = (m.run c).1 :: ((m.run c).2.runs calls).1
    rw [hanswer, ih hnext (hm.run hc.1) (hports.run h hm hp.1) hc.2 hp.2]

/-- The tables at the start. -/
def start (num : ℕ) (vs_low vs_high self_low self_high : UInt16) : NetState :=
  ⟨interfaceModuleInit num vs_low vs_high self_low self_high, fun _ => []⟩

theorem refines_start (hashRand : UInt32) (num : ℕ) (vs_low vs_high self_low self_high : UInt16) :
    (start num vs_low vs_high self_low self_high).Refines hashRand
      (.empty num vs_low vs_high self_low self_high) where
  num := rfl
  made := rfl
  info := fun l hl => absurd hl (Nat.not_lt_zero l)
  set := fun _ _ _ => rfl
  nic := rfl
  routes := fun _ => List.Perm.refl _

theorem holdsPorts_start (num : ℕ) (vs_low vs_high self_low self_high : UInt16) :
    (start num vs_low vs_high self_low self_high).HoldsPorts
      (.empty num vs_low vs_high self_low self_high) where
  low := rfl
  high := rfl
  range := fun _ b => by cases b <;> exact PortRange.holds_create 0

end Refines

end NetState

/-- **No sequence of calls tells the tables from the map**: from `interface_module_init` on, every
call answers what it answers on the map. -/
theorem netState_answers (hashRand : UInt32) (num : ℕ)
    (vs_low vs_high self_low self_high : UInt16) {calls : List NetCall}
    (hc : (NetMap.empty num vs_low vs_high self_low self_high).AllOk calls)
    (hp : (NetMap.empty num vs_low vs_high self_low self_high).AllPortOk calls) :
    ((NetState.start num vs_low vs_high self_low self_high).runs hashRand calls).1
      = ((NetMap.empty num vs_low vs_high self_low self_high).runs calls).1 :=
  (NetState.refines_start hashRand num vs_low vs_high self_low self_high).answers
    (NetMap.inv_empty num vs_low vs_high self_low self_high)
    (NetState.holdsPorts_start num vs_low vs_high self_low self_high) hc hp

/-- `10.0.0.1` as a vs IP twice, the second time refused; then three ports of the second one are
taken, the middle one returned and taken again, and its route is added once more. -/
def addedAgain : List NetCall :=
  [.addIp true (netTen 1) true 0, .addIp true (netTen 1) true 0, .lookup (netTen 1) true,
    .getPort 1 true (htons 81), .getPort 1 true 0, .getPort 1 true 0, .getPort 1 true 0,
    .putPort 1 true (htons 81), .getPort 1 true 0, .addRoute ⟨netTen 1, 0⟩, .addRoute ⟨netTen 2, 0⟩]

theorem addedAgain_ok : (NetMap.empty 1 80 82 1024 1027).AllOk addedAgain :=
  ⟨Nat.one_pos, Nat.one_pos, trivial, trivial, trivial, trivial, trivial, trivial, trivial, trivial,
    trivial, trivial⟩

/-- The second one is found. -/
theorem netState_answers_addedAgain :
    ((NetState.start 1 80 82 1024 1027).runs 0 addedAgain).1
      = [.lip (some 0), .lip none, .lip (some 1), .port (htons 81), .port (htons 80),
        .port (htons 82), .port 0, .void, .port (htons 81), .ret false, .ret true] := by
  rw [netState_answers 0 1 80 82 1024 1027 addedAgain_ok
    ⟨trivial, trivial, trivial, trivial, trivial, trivial, trivial, .inr (by decide), trivial,
      trivial, trivial, trivial⟩]
  decide +kernel

/-! ## Whose turn it is -/

namespace NetCall

/-- The call goes round the addresses of a NIC, of a kind and family. -/
def Asks (k : ℕ) (v f : Bool) (c : NetCall) : Prop :=
  match c with
  | .lipRr k' v' f' => k' = k ∧ v' = v ∧ f' = f
  | _ => False

instance (k : ℕ) (v f : Bool) (c : NetCall) : Decidable (c.Asks k v f) := by
  cases c with
  | lipRr k' v' f' => exact inferInstanceAs (Decidable (_ ∧ _ ∧ _))
  | _ => exact inferInstanceAs (Decidable False)

end NetCall

/-- The answers to the calls of a sequence that go round certain addresses. -/
def picks (k : ℕ) (v f : Bool) (calls : List NetCall) (answers : List NetAnswer) :
    List NetAnswer :=
  ((calls.zip answers).filter (fun ca => ca.1.Asks k v f)).map Prod.snd

namespace NetMap

/-- The call puts no address into a queue and takes none out of it. -/
def Keeps (m : NetMap) (k : ℕ) (v f : Bool) : NetCall → Prop
  | .addIp _ ip isvsip nic_id => ¬ (nic_id = k ∧ isvsip = v ∧ ipAddressIsIpv4 ip = f)
  | .addLip l => ¬ m.Waits l k v f
  | .delLip l => ¬ m.Waits l k v f
  | _ => True

/-- No call of a sequence does. -/
def AllKeep (m : NetMap) (k : ℕ) (v f : Bool) : List NetCall → Prop
  | [] => True
  | c :: calls => m.Keeps k v f c ∧ (m.run c).2.AllKeep k v f calls

section Turns

variable {m : NetMap} {k : ℕ} {v f : Bool}

/-- Making an address for another queue. -/
theorem turn_make {info : LipInfo}
    (h : ¬ (info.nic_id = k ∧ info.is_vs = v ∧ ipAddressIsIpv4 info.addr = f)) :
    (m.make info).turn k v f = m.turn k v f := by
  refine if_neg (fun hw => h ?_)
  have hw' : (Function.update m.info m.made info m.made).nic_id = k
      ∧ (Function.update m.info m.made info m.made).is_vs = v
      ∧ ipAddressIsIpv4 (Function.update m.info m.made info m.made).addr = f := hw
  rwa [Function.update_self] at hw'

/-- **Other calls leave a queue as it is.** -/
theorem Inv.turn_run (hm : m.Inv) {c : NetCall} (hkeep : m.Keeps k v f c)
    (hask : ¬ c.Asks k v f) : (m.run c).2.turn k v f = m.turn k v f := by
  cases c with
  | addIp created ip isvsip nic_id =>
    have hmake : (m.make ⟨ip, isvsip, nic_id⟩).turn k v f = m.turn k v f := turn_make hkeep
    rw [NetMap.run]
    split
    · split
      · exact hmake
      · rw [← hmake, NetMap.addRoute]
        split <;> rfl
    · rfl
  | addLip l => exact if_neg hkeep
  | delLip l =>
    exact List.erase_of_not_mem (fun hmem => hkeep ((hm.turn k v f l).mp hmem).2)
  | lookup ip is_vs => rfl
  | lipRr k' v' f' => exact if_neg (fun he => hask ⟨he.1.symm, he.2.1.symm, he.2.2.symm⟩)
  | getPort l is_tcp port => rfl
  | putPort l is_tcp port => rfl
  | addRoute re =>
    rw [NetMap.run, NetMap.addRoute]
    split <;> rfl
  | delRoute re => rfl
  | route ip rr nic => rfl

/-- **A queue is gone round**: from wherever it stands, the calls that ask are answered by the
members in order, and begin again at its end. -/
theorem Inv.picks_eq (hm : m.Inv) {calls : List NetCall} (hc : m.AllOk calls)
    (hkeep : m.AllKeep k v f calls) {queue : List ℕ} (hne : queue ≠ []) (i : ℕ)
    (hturn : m.turn k v f = queue.rotate i) :
    picks k v f calls (m.runs calls).1
      = (cyclic queue.length i (calls.countP (fun c => c.Asks k v f))).map
        (fun j => .lip queue[j]?) := by
  induction calls generalizing m i with
  | nil => rfl
  | cons c calls ih =>
    have hrest := ih (hm.run hc.1) hc.2 hkeep.2
    show picks k v f (c :: calls) ((m.run c).1 :: ((m.run c).2.runs calls).1) = _
    rw [picks, List.zip_cons_cons, List.filter_cons, List.countP_cons]
    by_cases hask : c.Asks k v f
    · cases c with
      | lipRr k' v' f' =>
        obtain ⟨rfl, rfl, rfl⟩ := hask
        have hlen : 0 < queue.length := List.length_pos_iff.mpr hne
        have hanswer : (m.run (.lipRr k' v' f')).1 = .lip queue[i % queue.length]? := by
          show NetAnswer.lip (m.turn k' v' f').head? = _
          rw [hturn, ← List.rotate_mod, List.head?_rotate (Nat.mod_lt _ hlen)]
        have hnext : (m.run (.lipRr k' v' f')).2.turn k' v' f' = queue.rotate (i + 1) := by
          refine (if_pos ⟨rfl, rfl, rfl⟩).trans ?_
          rw [hturn, List.rotate_rotate]
        have hasks : NetCall.Asks k' v' f' (.lipRr k' v' f') := ⟨rfl, rfl, rfl⟩
        rw [if_pos (decide_eq_true hasks), if_pos (decide_eq_true hasks), cyclic_succ',
          List.map_cons, List.map_cons, ← picks, hrest (i + 1) hnext, hanswer]
      | addIp _ _ _ _ => exact hask.elim
      | addLip _ => exact hask.elim
      | delLip _ => exact hask.elim
      | lookup _ _ => exact hask.elim
      | getPort _ _ _ => exact hask.elim
      | putPort _ _ _ => exact hask.elim
      | addRoute _ => exact hask.elim
      | delRoute _ => exact hask.elim
      | route _ _ _ => exact hask.elim
    · have hno : ¬ decide (c.Asks k v f) = true := fun he => hask (of_decide_eq_true he)
      have hsame := hm.turn_run hkeep.1 hask
      rw [if_neg hno, if_neg hno, ← picks, hrest i (hsame.trans hturn), Nat.add_zero]

end Turns

end NetMap

/-- The calls that go round are answered as on the map. -/
theorem NetState.Refines.picks_eq {hashRand : UInt32} {s : NetState} {m : NetMap} {k : ℕ}
    {v f : Bool} {calls : List NetCall} (h : s.Refines hashRand m) (hm : m.Inv)
    (hc : m.AllOk calls) :
    picks k v f calls (s.runs hashRand calls).1 = picks k v f calls (m.runs calls).1 := by
  induction calls generalizing s m with
  | nil => rfl
  | cons c calls ih =>
    obtain ⟨hanswer, hnext⟩ := h.run hm hc.1
    have hrest := ih hnext (hm.run hc.1) hc.2
    show picks k v f (c :: calls)
        ((s.run hashRand c).1 :: ((s.run hashRand c).2.runs hashRand calls).1)
      = picks k v f (c :: calls) ((m.run c).1 :: ((m.run c).2.runs calls).1)
    rw [picks, picks, List.zip_cons_cons, List.zip_cons_cons, List.filter_cons, List.filter_cons]
    by_cases hask : c.Asks k v f
    · have htakes : c.TakesPort = false := by
        cases c with
        | getPort l is_tcp port => exact hask.elim
        | _ => rfl
      rw [if_pos (decide_eq_true hask), if_pos (decide_eq_true hask), List.map_cons, List.map_cons,
        hanswer htakes]
      exact congrArg _ hrest
    · have hno : ¬ decide (c.Asks k v f) = true := fun he => hask (of_decide_eq_true he)
      rw [if_neg hno, if_neg hno]
      exact hrest

/-- **Every address of a NIC gets its turn**: while no address of a kind and family is put on the
NIC or taken off, whatever else is called, the calls of `interface_get_lip_rr` go round them in
order, and of any number of such calls each address is the answer to an even share, rounded down
or up. -/
theorem netState_fair (hashRand : UInt32) (num : ℕ) (vs_low vs_high self_low self_high : UInt16)
    {before calls : List NetCall} {k : ℕ} {v f : Bool} {l : ℕ}
    (hb : (NetMap.empty num vs_low vs_high self_low self_high).AllOk before)
    (hc : ((NetMap.empty num vs_low vs_high self_low self_high).runs before).2.AllOk calls)
    (hkeep : ((NetMap.empty num vs_low vs_high self_low self_high).runs before).2.AllKeep k v f
      calls) :
    let s := ((NetState.start num vs_low vs_high self_low self_high).runs hashRand before).2
    let asked := calls.countP (fun c => c.Asks k v f)
    let answers := picks k v f calls (s.runs hashRand calls).1
    l ∈ s.itf.nic k v f →
      answers = (cyclic (s.itf.nic k v f).length 0 asked).map
          (fun j => .lip (s.itf.nic k v f)[j]?)
        ∧ (answers.count (.lip (some l)) = asked / (s.itf.nic k v f).length
          ∨ answers.count (.lip (some l))
            = (asked + (s.itf.nic k v f).length - 1) / (s.itf.nic k v f).length) := by
  intro s asked answers hl
  obtain ⟨href, hinv⟩ :=
    (NetState.refines_start hashRand num vs_low vs_high self_low self_high).runs
      (NetMap.inv_empty num vs_low vs_high self_low self_high) hb
  have hnic : s.itf.nic k v f
      = ((NetMap.empty num vs_low vs_high self_low self_high).runs before).2.turn k v f :=
    congrFun (congrFun (congrFun href.nic k) v) f
  have hanswers : answers = picks k v f calls
      (((NetMap.empty num vs_low vs_high self_low self_high).runs before).2.runs calls).1 :=
    href.picks_eq hinv hc
  have hround : answers = (cyclic (s.itf.nic k v f).length 0 asked).map
      (fun j => .lip (s.itf.nic k v f)[j]?) := by
    rw [hanswers]
    exact hinv.picks_eq hc hkeep (List.ne_nil_of_mem hl) 0 (by rw [List.rotate_zero, hnic])
  refine ⟨hround, ?_⟩
  have hnodup : (s.itf.nic k v f).Nodup := hnic ▸ hinv.turn_nodup k v f
  obtain ⟨i, hi, hget⟩ := List.mem_iff_getElem.mp hl
  -- the answer is the address exactly at its place in the list
  have hcount : answers.count (.lip (some l))
      = (cyclic (s.itf.nic k v f).length 0 asked).count i := by
    rw [hround, List.count_eq_countP, List.countP_map, List.count_eq_countP]
    refine List.countP_congr (fun j hj => ?_)
    have hjlt := cyclic_lt (Nat.zero_lt_of_lt hi) hj
    simp only [Function.comp_apply, beq_iff_eq, NetAnswer.lip.injEq]
    rw [List.getElem?_eq_getElem hjlt, Option.some_inj, ← hget]
    exact hnodup.getElem_inj_iff
  rw [hcount]
  exact count_cyclic_fair (Nat.zero_lt_of_lt hi) hi asked

/-- Two self IPs of one NIC. -/
def twoSelfIps : List NetCall :=
  [.addIp true (netTen 1) false 0, .addIp true (netTen 2) false 0]

/-- Of three calls the address made last answers two. -/
theorem netState_fair_twoSelfIps :
    picks 0 false true (List.replicate 3 (.lipRr 0 false true))
        (((NetState.start 1 1024 65535 1024 1027).runs 0 twoSelfIps).2.runs 0
          (List.replicate 3 (.lipRr 0 false true))).1
      = [.lip (some 1), .lip (some 0), .lip (some 1)] := by
  have hfair := (@netState_fair 0 1 1024 65535 1024 1027 twoSelfIps
    (List.replicate 3 (.lipRr 0 false true)) 0 false true 1
    ⟨Nat.one_pos, Nat.one_pos, trivial⟩ ⟨Nat.one_pos, Nat.one_pos, Nat.one_pos, trivial⟩
    ⟨trivial, trivial, trivial, trivial⟩ (by decide +kernel)).1
  exact hfair.trans (by decide +kernel)
