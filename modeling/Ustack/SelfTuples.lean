import Ustack.Dispatch
import Ustack.Lookup

/-!
# Self addresses and ports

In full-NAT mode a reply finds its connection by self IP, self port and protocol,
across all processes, so no two live connections of any two processes may share
them. Nothing coordinates the processes but the cut of the port space: each fills
the ranges of its self IPs with its own slice. Within a process a range and the
connections that took ports from it hold the slice between them, each port once
(`Tables.Ports`), because a connection gives its port back to the range it came
from – as long as nobody changes its protocol, which is why lookups are no part
of these runs.
-/

/-- The ports of the slice of process `k` of `n`, as ranges store them. -/
def selfSlice (n k : ℕ) : List UInt16 :=
  portSlice (dispatchModuleInit n k).self_port_low (dispatchModuleInit n k).self_port_high

theorem zero_notMem_selfSlice {n k : ℕ} (hk : k < n) : (0 : UInt16) ∉ selfSlice n k := by
  have hlow := toNat_self_port_low hk
  exact zero_notMem_portSlice (by omega)

/-- **The slices of two processes share no port.** -/
theorem selfSlice_disjoint {n k k' : ℕ} (hk : k < n) (hk' : k' < n) {p : UInt16}
    (hp : p ∈ selfSlice n k) (hp' : p ∈ selfSlice n k') : k = k' := by
  obtain ⟨i, hlo, hhi, rfl⟩ := mem_portSlice.mp hp
  obtain ⟨j, hlo', hhi', he⟩ := mem_portSlice.mp hp'
  rw [toNat_self_port_low hk] at hlo
  rw [toNat_self_port_low hk'] at hlo'
  have hhigh := toNat_self_port_high hk
  have hhigh' := toNat_self_port_high hk'
  have hend := slice_end_le hk
  have hend' := slice_end_le hk'
  have hij : i = j := by
    have h := congrArg UInt16.toNat (htons_injective he)
    rwa [toNat_ofNat_u16 (by omega), toNat_ofNat_u16 (by omega)] at h
  subst hij
  -- the number lies in slice `k` and in slice `k'`
  rcases lt_trichotomy k k' with hlt | heq | hlt
  · have := Nat.mul_le_mul_right (portSliceSize n) (Nat.succ_le_of_lt hlt)
    rw [Nat.succ_eq_add_one] at this
    omega
  · exact heq
  · have := Nat.mul_le_mul_right (portSliceSize n) (Nat.succ_le_of_lt hlt)
    rw [Nat.succ_eq_add_one] at this
    omega

/-! ## The self IPs of an interface -/

namespace Interface

/-- A pointer to a self IP. -/
def IsSelfIp (itf : Interface) (l : ℕ) : Prop :=
  l < itf.lip_num ∧ (itf.lip l).type = selfIpT

theorem Keeps.isSelfIp {itf itf' : Interface} (h : itf.Keeps itf') {l : ℕ} :
    itf'.IsSelfIp l ↔ itf.IsSelfIp l := by
  rw [IsSelfIp, IsSelfIp, h.lip_num, h.type]

/-- The lists of the NICs hold self IPs, and no two of them are the same
address. -/
structure SelfIps (itf : Interface) : Prop where
  /-- The lists of self IPs hold self IPs. -/
  nic : ∀ k f l, l ∈ itf.nic k false f → itf.IsSelfIp l
  /-- Self IPs are distinct. -/
  distinct : ∀ l l', itf.IsSelfIp l → itf.IsSelfIp l' →
    ipAddressEq (itf.lip l).addr (itf.lip l').addr = true → l = l'

theorem SelfIps.keeps {itf itf' : Interface} (h : itf.SelfIps) (hk : itf.Keeps itf') :
    itf'.SelfIps := by
  refine ⟨fun k f l hl => hk.isSelfIp.mpr (h.nic k f l ((hk.nic k false f).mem_iff.mp hl)),
    fun l l' hl hl' he => ?_⟩
  rw [hk.addr, hk.addr] at he
  exact h.distinct l l' (hk.isSelfIp.mp hl) (hk.isSelfIp.mp hl') he

/-- A list of addresses to add: each a self or a vs IP, and no self IP twice. -/
structure Addable (ips : List (IpAddress × ℕ × ℕ)) : Prop where
  /-- The kinds. -/
  type : ∀ a ∈ ips, a.2.1 = selfIpT ∨ a.2.1 = vsIpT
  /-- Self IPs are distinct. -/
  distinct : ips.Pairwise (fun a b => a.2.1 = selfIpT → b.2.1 = selfIpT →
    ipAddressEq a.1 b.1 = false)

theorem addLocalIps_append (hashRand : UInt32) (itf : Interface)
    (ips : List (IpAddress × ℕ × ℕ)) (a : IpAddress × ℕ × ℕ) :
    itf.addLocalIps hashRand (ips ++ [a])
      = (interfaceCreateLocalIp hashRand (itf.addLocalIps hashRand ips) a.1 a.2.1
        a.2.2).2 := by
  rw [addLocalIps, List.foldl_append]
  rfl

/-- What adding addresses to a new interface makes: one structure for each, and
the self IPs with the ports of the slice. -/
structure Built (itf : Interface) (ips : List (IpAddress × ℕ × ℕ)) (low high : UInt16) :
    Prop where
  /-- The slice. -/
  slice : (itf.space.self_port_low, itf.space.self_port_high) = (low, high)
  /-- Every structure is one of the addresses. -/
  mem : ∀ l < itf.lip_num, ∃ a ∈ ips, (itf.lip l).addr = a.1 ∧ (itf.lip l).type = a.2.1
  /-- The self IPs. -/
  selfIps : itf.SelfIps
  /-- A self IP is as it was created. -/
  lip : ∀ l, itf.IsSelfIp l → ∃ space : IpSpace,
    (low, high) = (space.self_port_low, space.self_port_high) ∧
      ∃ ip nic_id, itf.lip l = lipIpSpaceCreateLocalIp space ip selfIpT nic_id

section Create

variable {itf : Interface} {hashRand : UInt32} {ip : IpAddress} {type nic_id l : ℕ}

/-- The structure of a new address. -/
theorem lip_created : (interfaceCreateLocalIp hashRand itf ip type nic_id).2.lip itf.lip_num
    = lipIpSpaceCreateLocalIp itf.space ip type nic_id := Function.update_self _ _ _

/-- The others stay. -/
theorem lip_created_of_ne (hl : l ≠ itf.lip_num) :
    (interfaceCreateLocalIp hashRand itf ip type nic_id).2.lip l = itf.lip l :=
  Function.update_of_ne hl _ _

theorem isSelfIp_created_iff :
    (interfaceCreateLocalIp hashRand itf ip type nic_id).2.IsSelfIp itf.lip_num
      ↔ type = selfIpT := by
  rw [IsSelfIp, lip_created]
  exact ⟨fun hh => hh.2, fun hh => ⟨Nat.lt_succ_self _, hh⟩⟩

/-- A self IP stays one, -/
theorem IsSelfIp.created (h : itf.IsSelfIp l) :
    (interfaceCreateLocalIp hashRand itf ip type nic_id).2.IsSelfIp l := by
  have hne : l ≠ itf.lip_num := h.1.ne
  refine ⟨Nat.lt_succ_of_lt h.1, ?_⟩
  rw [lip_created_of_ne hne]
  exact h.2

/-- and a self IP that is not the new structure was one. -/
theorem isSelfIp_of_created
    (h : (interfaceCreateLocalIp hashRand itf ip type nic_id).2.IsSelfIp l)
    (hne : l ≠ itf.lip_num) : itf.IsSelfIp l := by
  obtain ⟨hl, ht⟩ := h
  rw [lip_created_of_ne hne] at ht
  exact ⟨lt_of_le_of_ne (Nat.lt_succ_iff.mp hl) hne, ht⟩

/-- A structure in a list of self IPs is not a vs IP. -/
theorem SelfIps.nic_created (h : itf.SelfIps) (htype : type = selfIpT ∨ type = vsIpT) {k : ℕ}
    {f : Bool} (hl : l ∈ (interfaceCreateLocalIp hashRand itf ip type nic_id).2.nic k false f) :
    (interfaceCreateLocalIp hashRand itf ip type nic_id).2.IsSelfIp l := by
  set itf' := (interfaceCreateLocalIp hashRand itf ip type nic_id).2 with hitf'
  have hnew : itf'.lip itf.lip_num = lipIpSpaceCreateLocalIp itf.space ip type nic_id :=
    lip_created
  have hnic : itf'.nic k false f
      = if k = (itf'.lip itf.lip_num).nic_id
          ∧ false = lipIsVsip (itf'.lip itf.lip_num)
          ∧ f = lipIsIpv4 (itf'.lip itf.lip_num)
        then itf.lip_num :: itf.nic (itf'.lip itf.lip_num).nic_id
          (lipIsVsip (itf'.lip itf.lip_num)) (lipIsIpv4 (itf'.lip itf.lip_num))
        else itf.nic k false f := rfl
  rw [hnic] at hl
  split at hl
  · rename_i hcond
    rw [← hcond.2.1] at hl
    rcases List.mem_cons.mp hl with rfl | hl
    · refine isSelfIp_created_iff.mpr (htype.resolve_right (fun hvs => ?_))
      have hno := hcond.2.1
      rw [hnew] at hno
      exact absurd (hno.trans (beq_iff_eq.mpr hvs)) Bool.false_ne_true
    · exact (h.nic _ _ l hl).created
  · exact (h.nic k f l hl).created

/-- **A new address keeps the self IPs distinct**, if none of them has it. -/
theorem SelfIps.created (h : itf.SelfIps) (htype : type = selfIpT ∨ type = vsIpT)
    (hne : ∀ l, itf.IsSelfIp l → type = selfIpT → ipAddressEq (itf.lip l).addr ip = false) :
    (interfaceCreateLocalIp hashRand itf ip type nic_id).2.SelfIps := by
  refine ⟨fun k f l hl => h.nic_created htype hl, fun l l' hl hl' he => ?_⟩
  by_cases h1 : l = itf.lip_num <;> by_cases h2 : l' = itf.lip_num
  · rw [h1, h2]
  · rw [h1, lip_created, lip_created_of_ne h2] at he
    have hf := hne l' (isSelfIp_of_created hl' h2) (isSelfIp_created_iff.mp (h1 ▸ hl))
    exact absurd (hf.symm.trans (ipAddressEq_symm he)) Bool.false_ne_true
  · rw [h2, lip_created, lip_created_of_ne h1] at he
    have hf := hne l (isSelfIp_of_created hl h1) (isSelfIp_created_iff.mp (h2 ▸ hl'))
    exact absurd (hf.symm.trans he) Bool.false_ne_true
  · rw [lip_created_of_ne h1, lip_created_of_ne h2] at he
    exact h.distinct l l' (isSelfIp_of_created hl h1) (isSelfIp_of_created hl' h2) he

end Create

theorem Built.create {itf : Interface} {ips : List (IpAddress × ℕ × ℕ)}
    {low high : UInt16} (h : itf.Built ips low high) {hashRand : UInt32}
    {a : IpAddress × ℕ × ℕ} (ha : Addable (ips ++ [a])) :
    (interfaceCreateLocalIp hashRand itf a.1 a.2.1 a.2.2).2.Built (ips ++ [a]) low high := by
  obtain ⟨ip, type, nic_id⟩ := a
  have hmem : ∀ l < itf.lip_num, ∃ a ∈ ips, (itf.lip l).addr = a.1
      ∧ (itf.lip l).type = a.2.1 := h.mem
  have htype := ha.type _ (List.mem_append_right _ (List.mem_singleton_self _))
  -- an old self IP is not the new one
  have hne : ∀ l, itf.IsSelfIp l → type = selfIpT →
      ipAddressEq (itf.lip l).addr ip = false := by
    intro l hl ht
    obtain ⟨b, hb, haddr, htype⟩ := hmem l hl.1
    rw [haddr]
    exact (List.pairwise_append.mp ha.distinct).2.2 b hb _ (List.mem_singleton_self _)
      (htype.symm.trans hl.2) ht
  refine ⟨h.slice, fun l hl => ?_, h.selfIps.created htype hne, fun l hl => ?_⟩
  · by_cases hlast : l = itf.lip_num
    · refine ⟨_, List.mem_append_right _ (List.mem_singleton_self _), ?_⟩
      rw [hlast, lip_created]
      exact ⟨rfl, rfl⟩
    · obtain ⟨b, hb, haddr⟩ := hmem l (lt_of_le_of_ne (Nat.lt_succ_iff.mp hl) hlast)
      refine ⟨b, List.mem_append_left _ hb, ?_⟩
      rw [lip_created_of_ne hlast]
      exact haddr
  · by_cases hlast : l = itf.lip_num
    · subst hlast
      refine ⟨itf.space, h.slice.symm, ip, nic_id, ?_⟩
      rw [lip_created, isSelfIp_created_iff.mp hl]
    · rw [lip_created_of_ne hlast]
      exact h.lip l (isSelfIp_of_created hl hlast)

theorem built_addLocalIps {num : ℕ} {vs_low vs_high low high : UInt16}
    {hashRand : UInt32} {ips : List (IpAddress × ℕ × ℕ)} (h : Addable ips) :
    ((interfaceModuleInit num vs_low vs_high low high).addLocalIps hashRand ips).Built
      ips low high := by
  induction ips using List.reverseRecOn with
  | nil =>
    exact ⟨rfl, fun l hl => absurd hl (Nat.not_lt_zero l),
      ⟨fun _ _ _ hl => absurd hl List.not_mem_nil,
        fun l _ hl => absurd hl.1 (Nat.not_lt_zero l)⟩,
      fun l hl => absurd hl.1 (Nat.not_lt_zero l)⟩
  | append_singleton ips a ih =>
    rw [addLocalIps_append]
    exact (ih ⟨fun b hb => h.type b (List.mem_append_left _ hb),
      (List.pairwise_append.mp h.distinct).1⟩).create h

end Interface

/-! ## Ports are never lost -/

namespace Tables

/-- The self ports of the live full-NAT connections of a self IP and protocol
class. -/
def takenPorts (t : Tables) (l : ℕ) (is_tcp : Bool) : List UInt16 :=
  (t.fullnat.filter (fun cp => (t.conn cp).self_addr == l
    && connectionIsTcp (t.conn cp) == is_tcp)).map (fun cp => (t.conn cp).self_port)

/-- **The ports of a process**: the range of every self IP and the connections that
took ports from it hold the slice between them. -/
structure Ports (slice : List UInt16) (t : Tables) : Prop where
  /-- The containers agree. -/
  ok : t.Ok
  /-- The self IPs. -/
  selfIps : t.itf.SelfIps
  /-- A full-NAT connection has a self IP. -/
  self_addr : ∀ cp ∈ t.fullnat, t.itf.IsSelfIp (t.conn cp).self_addr
  /-- The slice is shared between the range and the connections. -/
  perm : ∀ l, t.itf.IsSelfIp l → ∀ b,
    (((t.itf.lip l).range b).available ++ t.takenPorts l b).Perm slice
  /-- A range has room for the slice. -/
  size : ∀ l, t.itf.IsSelfIp l → ∀ b, ((t.itf.lip l).range b).size = slice.length + 1

variable {slice : List UInt16} {t t' : Tables} {cp : ℕ}

theorem Ports.of_clock (h : t.Ports slice) {clock : Clock}
    (htable : clock.timer_table = t.clock.timer_table)
    (htotal : clock.total_clock_seconds = t.clock.total_clock_seconds)
    (hwheel : clock.next_clock_second < clock.total_clock_seconds) :
    Ports slice { t with clock := clock } :=
  ⟨h.ok.of_clock htable htotal hwheel, h.selfIps, h.self_addr, h.perm, h.size⟩

theorem fullnat_congr (hout : t'.conn_mem_pool.outstanding = t.conn_mem_pool.outstanding)
    (hconn : ∀ x ∈ t.conn_mem_pool.outstanding, t'.conn x = t.conn x) :
    t'.fullnat = t.fullnat := by
  rw [fullnat, hout]
  exact List.filter_congr (fun x hx => by rw [hconn x hx])

theorem takenPorts_congr (hfull : t'.fullnat = t.fullnat)
    (hconn : ∀ x ∈ t.fullnat, t'.conn x = t.conn x) (l : ℕ) (b : Bool) :
    t'.takenPorts l b = t.takenPorts l b := by
  rw [takenPorts, hfull, List.filter_congr (fun x hx => by rw [hconn x hx]), takenPorts]
  exact List.map_congr_left (fun x hx => by rw [hconn x (List.mem_of_mem_filter hx)])

theorem Ports.notCreated (h : t.Ports slice) (hn : NotCreated t t') :
    t'.Ports slice := by
  have hfull := fullnat_congr hn.outstanding hn.conn
  have hconn : ∀ x ∈ t.fullnat, t'.conn x = t.conn x :=
    fun x hx => hn.conn x (List.mem_of_mem_filter hx)
  refine ⟨h.ok.notCreated hn, h.selfIps.keeps hn.itf, fun x hx => ?_, fun l hl b => ?_,
    fun l hl b => ?_⟩
  · rw [hfull] at hx
    rw [hconn x hx, hn.itf.isSelfIp]
    exact h.self_addr x hx
  · rw [hn.lip, takenPorts_congr hfull hconn]
    exact h.perm l (hn.itf.isSelfIp.mp hl) b
  · rw [hn.lip]
    exact h.size l (hn.itf.isSelfIp.mp hl) b

section Created

variable {pkt : Packet} {vs : ℕ}

/-- The connections there were are as they were. -/
theorem conn_of_created (hc : Created t pkt vs cp t') :
    ∀ x ∈ t.conn_mem_pool.outstanding, t'.conn x = t.conn x :=
  fun x hx => hc.conn x (fun he => hc.fresh (he ▸ hx))

theorem conn_fullnat_of_created (hc : Created t pkt vs cp t') : ∀ x ∈ t.fullnat, t'.conn x = t.conn x :=
  fun x hx => conn_of_created hc x (List.mem_of_mem_filter hx)

/-- The full-NAT connections, with the new one in front if it is one. -/
theorem fullnat_of_created (hc : Created t pkt vs cp t') :
    t'.fullnat = if connectionIsFullnat (t'.conn cp) then cp :: t.fullnat else t.fullnat := by
  have hfilter : t.conn_mem_pool.outstanding.filter
      (fun x => connectionIsFullnat (t'.conn x)) = t.fullnat :=
    List.filter_congr (fun x hx => by rw [conn_of_created hc x hx])
  rw [fullnat, hc.outstanding, List.filter_cons, hfilter]

/-- The range the connection took its port from. -/
theorem range_of_created (hc : Created t pkt vs cp t')
    (hf : connectionIsFullnat (t'.conn cp) = true) (l : ℕ) (b : Bool) :
    (t'.itf.lip l).range b
      = if l = (t'.conn cp).self_addr ∧ b = connectionIsTcp (t'.conn cp)
        then (portRangeGetPort1 ((t.itf.lip (t'.conn cp).self_addr).range
          (connectionIsTcp (t'.conn cp)))).2
        else (t.itf.lip l).range b := by
  obtain ⟨-, -, -, hlip⟩ := hc.setUp.took hf
  rw [hlip, Interface.range_setLip]

/-- Taking a port moves it from the range to the connection. -/
theorem Ports.perm_created (h : t.Ports slice) (hc : Created t pkt vs cp t')
    (hf : connectionIsFullnat (t'.conn cp) = true) {l : ℕ} (hl : t.itf.IsSelfIp l) (b : Bool) :
    (((t'.itf.lip l).range b).available ++ t'.takenPorts l b).Perm slice := by
  obtain ⟨-, hport, hne, -⟩ := hc.setUp.took hf
  have hperm := h.perm l hl b
  have hrest : ∀ l b, (t.fullnat.filter (fun x => (t'.conn x).self_addr == l
      && connectionIsTcp (t'.conn x) == b)).map (fun x => (t'.conn x).self_port)
      = t.takenPorts l b := by
    intro l b
    rw [List.filter_congr (fun x hx => by rw [conn_fullnat_of_created hc x hx]), takenPorts]
    exact List.map_congr_left
      (fun x hx => by rw [conn_fullnat_of_created hc x (List.mem_of_mem_filter hx)])
  have havail : ((t.itf.lip (t'.conn cp).self_addr).range
      (connectionIsTcp (t'.conn cp))).avail ≠ 0 := by
    intro h0
    rw [PortRange.getPort1_of_avail_eq_zero h0] at hport
    exact hne hport
  rw [takenPorts, fullnat_of_created hc, if_pos hf, range_of_created hc hf, List.filter_cons]
  by_cases hlb : l = (t'.conn cp).self_addr ∧ b = connectionIsTcp (t'.conn cp)
  · obtain ⟨rfl, rfl⟩ := hlb
    rw [PortRange.available_getPort1 havail] at hperm
    simp only [and_self, if_true, beq_self_eq_true, Bool.and_self, List.map_cons, hrest,
      hport]
    exact List.perm_middle.trans hperm
  · rw [if_neg hlb, if_neg (fun hb => hlb ?_), hrest]
    · exact hperm
    · simp only [Bool.and_eq_true, beq_iff_eq] at hb
      exact ⟨hb.1.symm, hb.2.symm⟩

/-- **A new connection takes its port from the slice.** -/
theorem Ports.created (h : t.Ports slice) (hc : Created t pkt vs cp t') : t'.Ports slice := by
  have hok := h.ok.created hc
  have hself := h.selfIps.keeps hc.itf
  have hfull := fullnat_of_created hc
  cases hf : connectionIsFullnat (t'.conn cp) with
  | false =>
    rw [hf, if_neg Bool.false_ne_true] at hfull
    have hlip := hc.setUp.kept hf
    refine ⟨hok, hself, fun x hx => ?_, fun l hl b => ?_, fun l hl b => ?_⟩
    · rw [hfull] at hx
      rw [conn_fullnat_of_created hc x hx, hc.itf.isSelfIp]
      exact h.self_addr x hx
    · rw [hlip, takenPorts_congr hfull (conn_fullnat_of_created hc)]
      exact h.perm l (hc.itf.isSelfIp.mp hl) b
    · rw [hlip]
      exact h.size l (hc.itf.isSelfIp.mp hl) b
  | true =>
    rw [hf, if_pos rfl] at hfull
    refine ⟨hok, hself, fun x hx => ?_,
      fun l hl b => h.perm_created hc hf (hc.itf.isSelfIp.mp hl) b, fun l hl b => ?_⟩
    · rw [hc.itf.isSelfIp]
      rw [hfull] at hx
      rcases List.mem_cons.mp hx with rfl | hx
      · obtain ⟨⟨k, f, hnic⟩, -⟩ := hc.setUp.took hf
        exact h.selfIps.nic k f _ hnic
      · rw [conn_fullnat_of_created hc x hx]
        exact h.self_addr x hx
    · rw [range_of_created hc hf]
      have hsize := h.size l (hc.itf.isSelfIp.mp hl) b
      split
      · rename_i hlb
        obtain ⟨rfl, rfl⟩ := hlb
        rw [PortRange.size_getPort1]
        exact hsize
      · exact hsize

end Created

/-- The ports taken in one class, with those of one connection in front. -/
theorem takenPorts_erase (hcp : cp ∈ t.fullnat) (l : ℕ) (b : Bool) :
    (t.takenPorts l b).Perm
      ((if (t.conn cp).self_addr = l ∧ connectionIsTcp (t.conn cp) = b
          then [(t.conn cp).self_port] else [])
        ++ ((t.fullnat.erase cp).filter (fun x => (t.conn x).self_addr == l
          && connectionIsTcp (t.conn x) == b)).map (fun x => (t.conn x).self_port)) := by
  have hperm := ((List.perm_cons_erase hcp).filter (fun x => (t.conn x).self_addr == l
    && connectionIsTcp (t.conn x) == b)).map (fun x => (t.conn x).self_port)
  refine hperm.trans (List.Perm.of_eq ?_)
  rw [List.filter_cons]
  by_cases hlb : (t.conn cp).self_addr = l ∧ connectionIsTcp (t.conn cp) = b
  · rw [if_pos hlb, if_pos (by simp [hlb.1, hlb.2])]
    rfl
  · rw [if_neg hlb, if_neg (fun hb => hlb (by simpa using hb))]
    rfl

/-- The full-NAT connections but the one freed. -/
theorem Ports.fullnat_free (h : t.Ports slice) (cp : ℕ) :
    (connectionFree t cp).fullnat = t.fullnat.erase cp := by
  have hnodup := h.ok.mem.nodup_outstanding
  rw [fullnat, outstanding_connectionFree, conn_connectionFree, hnodup.erase_eq_filter, fullnat,
    (hnodup.filter _).erase_eq_filter, List.filter_filter, List.filter_filter]
  exact List.filter_congr (fun x _ => Bool.and_comm _ _)

/-- The ports that are left. -/
theorem Ports.takenPorts_free (h : t.Ports slice) (cp l : ℕ) (b : Bool) :
    (connectionFree t cp).takenPorts l b
      = ((t.fullnat.erase cp).filter (fun x => (t.conn x).self_addr == l
          && connectionIsTcp (t.conn x) == b)).map (fun x => (t.conn x).self_port) := by
  rw [takenPorts, h.fullnat_free, conn_connectionFree]

/-- The range the port goes back to. -/
theorem range_connectionFree (hf : connectionIsFullnat (t.conn cp) = true) (l : ℕ) (b : Bool) :
    ((connectionFree t cp).itf.lip l).range b
      = if l = (t.conn cp).self_addr ∧ b = connectionIsTcp (t.conn cp)
        then portRangePutPort ((t.itf.lip (t.conn cp).self_addr).range
          (connectionIsTcp (t.conn cp))) (t.conn cp).self_port
        else (t.itf.lip l).range b := by
  rw [itf_connectionFree, if_pos hf, lipPutPort, Interface.range_setLip]

/-- **Returning a port moves it from the connection to the range**: it is a port,
and there is a slot for it. -/
theorem Ports.perm_free (h : t.Ports slice) (hzero : (0 : UInt16) ∉ slice)
    (hmem : cp ∈ t.fullnat) (hf : connectionIsFullnat (t.conn cp) = true) {l : ℕ}
    (hl : t.itf.IsSelfIp l) (b : Bool) :
    ((((connectionFree t cp).itf.lip l).range b).available
      ++ (connectionFree t cp).takenPorts l b).Perm slice := by
  have hperm := h.perm l hl b
  have hsplit := takenPorts_erase hmem l b
  rw [h.takenPorts_free, range_connectionFree hf]
  by_cases hlb : l = (t.conn cp).self_addr ∧ b = connectionIsTcp (t.conn cp)
  · rw [if_pos hlb]
    obtain ⟨rfl, rfl⟩ := hlb
    rw [if_pos ⟨rfl, rfl⟩] at hsplit
    have hall := ((hsplit.append_left _).symm.trans hperm)
    -- the port is of the slice, so it is a port and its slot is free
    have hport : (t.conn cp).self_port ≠ 0 := by
      intro h0
      refine hzero (hall.mem_iff.mp (List.mem_append_right _ ?_))
      rw [h0]
      exact List.mem_append_left _ (List.mem_singleton_self _)
    have hlen := hall.length_eq
    have hsize := h.size _ hl (connectionIsTcp (t.conn cp))
    simp only [List.length_append, PortRange.length_available,
      List.length_singleton] at hlen
    rw [PortRange.available_putPort (h.ok.ranges _ _).1 hport (by omega),
      List.append_assoc]
    exact hall
  · rw [if_neg hlb]
    rw [if_neg (fun hb => hlb ⟨hb.1.symm, hb.2.symm⟩), List.nil_append] at hsplit
    exact (hsplit.append_left _).symm.trans hperm

/-- **A connection that is freed returns its port to the slice.** -/
theorem Ports.free (h : t.Ports slice) (hzero : (0 : UInt16) ∉ slice)
    (hcp : cp ∈ t.live) : (connectionFree t cp).Ports slice := by
  have hok := h.ok.free hcp
  have hkeeps := keeps_connectionFree t cp
  have hself := h.selfIps.keeps hkeeps
  have hself_addr : ∀ x ∈ (connectionFree t cp).fullnat,
      (connectionFree t cp).itf.IsSelfIp ((connectionFree t cp).conn x).self_addr := by
    intro x hx
    rw [h.fullnat_free] at hx
    rw [conn_connectionFree, hkeeps.isSelfIp]
    exact h.self_addr x (List.mem_of_mem_erase hx)
  cases hf : connectionIsFullnat (t.conn cp) with
  | false =>
    have hnot : cp ∉ t.fullnat := fun hm => by
      rw [fullnat, List.mem_filter] at hm
      exact absurd (hf.symm.trans hm.2) Bool.false_ne_true
    have hitf : (connectionFree t cp).itf = t.itf := by
      rw [itf_connectionFree, hf, if_neg Bool.false_ne_true]
    refine ⟨hok, hself, hself_addr, fun l hl b => ?_, fun l hl b => ?_⟩
    · rw [h.takenPorts_free, hitf, List.erase_of_not_mem hnot]
      exact h.perm l (hkeeps.isSelfIp.mp hl) b
    · rw [hitf]
      exact h.size l (hkeeps.isSelfIp.mp hl) b
  | true =>
    have hmem : cp ∈ t.fullnat :=
      List.mem_filter.mpr ⟨h.ok.mem_live.mp hcp, hf⟩
    refine ⟨hok, hself, hself_addr,
      fun l hl b => h.perm_free hzero hmem hf (hkeeps.isSelfIp.mp hl) b, fun l hl b => ?_⟩
    rw [range_connectionFree hf]
    have hsize := h.size l (hkeeps.isSelfIp.mp hl) b
    split
    · rename_i hlb
      obtain ⟨rfl, rfl⟩ := hlb
      rw [PortRange.size_putPort]
      exact hsize
    · exact hsize

end Tables

/-! ## Many processes -/

/-- **`n` processes in which connections come and go**, each with its slice of the
port space and self IPs of which no two are the same. -/
def processesSystem (n : ℕ) : System (ℕ → Tables) (ℕ × TablesLabel) where
  init s := ∀ k < n, (s k).Started ∧ ∃ num vs_low vs_high ips, Interface.Addable ips
    ∧ (s k).itf = (interfaceModuleInit num vs_low vs_high
        (dispatchGetPortRange (dispatchModuleInit n k)).1
        (dispatchGetPortRange (dispatchModuleInit n k)).2).addLocalIps (s k).hash_rand ips
  step s l s' := l.1 < n ∧ ∃ t', tablesSystem.step (s l.1) l.2 t'
    ∧ s' = Function.update s l.1 t'

theorem Tables.Started.ports {t : Tables} (h : t.Started) {n k : ℕ} (hk : k < n)
    {num : ℕ} {vs_low vs_high : UInt16} {ips : List (IpAddress × ℕ × ℕ)}
    (hips : Interface.Addable ips)
    (hitf : t.itf = (interfaceModuleInit num vs_low vs_high
      (dispatchGetPortRange (dispatchModuleInit n k)).1
      (dispatchGetPortRange (dispatchModuleInit n k)).2).addLocalIps t.hash_rand ips) :
    t.Ports (selfSlice n k) := by
  have hbuilt : t.itf.Built ips (dispatchGetPortRange (dispatchModuleInit n k)).1
      (dispatchGetPortRange (dispatchModuleInit n k)).2 := by
    rw [hitf]
    exact Interface.built_addLocalIps hips
  obtain ⟨t₀, ht₀⟩ := h.conn
  have hfull : t.fullnat = [] := by
    rw [Tables.fullnat, ht₀]
    rfl
  refine ⟨h.ok, hbuilt.selfIps, fun cp hcp => ?_, fun l hl b => ?_, fun l hl b => ?_⟩
  · rw [hfull] at hcp
    exact absurd hcp List.not_mem_nil
  · obtain ⟨space, hspace, ip, nic_id, hlip⟩ := hbuilt.lip l hl
    rw [hlip, (available_createLocalIp hk hspace ip nic_id b).1, Tables.takenPorts, hfull]
    exact List.Perm.of_eq (List.append_nil _)
  · obtain ⟨space, hspace, ip, nic_id, hlip⟩ := hbuilt.lip l hl
    rw [hlip]
    exact (available_createLocalIp hk hspace ip nic_id b).2.2

theorem processes_ports {n : ℕ} {s : ℕ → Tables} (h : (processesSystem n).Reachable s) :
    ∀ k < n, (s k).Ports (selfSlice n k) := by
  refine System.invariant (P := fun s => ∀ k < n, (s k).Ports (selfSlice n k))
    (fun s hi k hk => ?_) (fun s l s' hs hst k hk => ?_) h
  · obtain ⟨hstart, num, vs_low, vs_high, ips, hips, hitf⟩ := hi k hk
    exact hstart.ports hk hips hitf
  · obtain ⟨hl, t', hst, rfl⟩ := hst
    by_cases hkl : k = l.1
    · subst hkl
      rw [Function.update_self]
      exact tablesSystem_step (fun _ h => h.ok)
        (fun _ _ h ht hn hw => h.of_clock ht hn hw)
        (fun _ _ h => h.notCreated) (fun _ _ _ _ _ h => h.created)
        (fun _ _ h hcp => h.free (zero_notMem_selfSlice hl) hcp) (hs l.1 hk) hst
    · rw [Function.update_of_ne hkl]
      exact hs k hk

/-- A live full-NAT connection holds a port of the slice. -/
theorem Tables.Ports.mem_slice {slice : List UInt16} {t : Tables} (h : t.Ports slice)
    {cp : ℕ} (hcp : cp ∈ t.fullnat) : (t.conn cp).self_port ∈ slice := by
  refine (h.perm _ (h.self_addr cp hcp) (connectionIsTcp (t.conn cp))).mem_iff.mp
    (List.mem_append_right _ (List.mem_map.mpr ⟨cp, List.mem_filter.mpr ⟨hcp, ?_⟩, rfl⟩))
  simp

/-- Two live full-NAT connections of a process with the same tuple are the
same. -/
theorem Tables.Ports.tuple_inj {slice : List UInt16} (hnodup : slice.Nodup) {t : Tables}
    (h : t.Ports slice) {cp cp' : ℕ} (hcp : cp ∈ t.fullnat) (hcp' : cp' ∈ t.fullnat)
    (hip : ipAddressEq (t.itf.lip (t.conn cp).self_addr).addr
      (t.itf.lip (t.conn cp').self_addr).addr = true)
    (hport : (t.conn cp).self_port = (t.conn cp').self_port)
    (hproto : (t.conn cp).protocol = (t.conn cp').protocol) : cp = cp' := by
  have hl := h.selfIps.distinct _ _ (h.self_addr cp hcp) (h.self_addr cp' hcp') hip
  have htcp : connectionIsTcp (t.conn cp') = connectionIsTcp (t.conn cp) := by
    rw [connectionIsTcp, connectionIsTcp, hproto]
  have hperm := h.perm _ (h.self_addr cp hcp) (connectionIsTcp (t.conn cp))
  have hnd := (hperm.nodup_iff.mpr hnodup).of_append_right
  refine List.inj_on_of_nodup_map hnd ?_ ?_ hport
  · exact List.mem_filter.mpr ⟨hcp, by simp⟩
  · exact List.mem_filter.mpr ⟨hcp', by simp [hl, htcp]⟩

/-- **Self tuples are unique across processes, and ports are never lost.** -/
theorem processes_self_tuples {n : ℕ} {s : ℕ → Tables}
    (h : (processesSystem n).Reachable s) :
    (∀ k < n, ∀ k' < n, ∀ cp ∈ (s k).liveSelf, ∀ cp' ∈ (s k').liveSelf,
      ipAddressEq ((s k).itf.lip ((s k).conn cp).self_addr).addr
          ((s k').itf.lip ((s k').conn cp').self_addr).addr = true →
        ((s k).conn cp).self_port = ((s k').conn cp').self_port →
        ((s k).conn cp).protocol = ((s k').conn cp').protocol → k = k' ∧ cp = cp')
      ∧ ∀ k < n, ∀ l, (s k).itf.IsSelfIp l → ∀ is_tcp,
        ((((s k).itf.lip l).range is_tcp).available
            ++ ((s k).liveSelf.filter (fun cp => ((s k).conn cp).self_addr == l
              && connectionIsTcp ((s k).conn cp) == is_tcp)).map
                (fun cp => ((s k).conn cp).self_port)).Perm (selfSlice n k)
          ∧ (selfSlice n k).Nodup := by
  have hports := processes_ports h
  refine ⟨fun k hk k' hk' cp hcp cp' hcp' hip hport hproto => ?_, fun k hk l hl b => ?_⟩
  · have hm := (hports k hk).ok.self.mem_iff.mp hcp
    have hm' := (hports k' hk').ok.self.mem_iff.mp hcp'
    have hslice := (hports k' hk').mem_slice hm'
    rw [← hport] at hslice
    obtain rfl := selfSlice_disjoint hk hk' ((hports k hk).mem_slice hm) hslice
    exact ⟨rfl, (hports k hk).tuple_inj (nodup_portSlice _ _) hm hm' hip hport hproto⟩
  · refine ⟨?_, nodup_portSlice _ _⟩
    have hperm := (hports k hk).perm l hl b
    exact ((((hports k hk).ok.self.filter _).map _).append_left _).trans hperm

/-- Sixteen thousand processes in full-NAT mode, each with its slice of four
ports. -/
def manyProcesses (k : ℕ) : Tables :=
  twoVservers (twoIps (dispatchGetPortRange (dispatchModuleInit 16000 k)).1
    (dispatchGetPortRange (dispatchModuleInit 16000 k)).2) 1

theorem addable_twoIps :
    Interface.Addable [(netTen 1, vsIpT, 0), (netTen 2, selfIpT, 0)] := by
  refine ⟨fun a ha => ?_, List.pairwise_pair.mpr (fun h => ?_)⟩
  · rcases List.mem_pair.mp ha with rfl | rfl
    · exact Or.inr rfl
    · exact Or.inl rfl
  · exact absurd h (by decide)

theorem reachable_manyProcesses : (processesSystem 16000).Reachable manyProcesses :=
  System.Reachable.of_init (fun _ _ =>
    ⟨started_twoVservers _ _ 1, 1, 1024, 65535, _, addable_twoIps, rfl⟩)

/-- The ports of process 1 after a client has connected through it. -/
theorem processes_self_tuples_many :
    ∃ t : Tables, connectionCreate (some 0x100000) (manyProcesses 1)
        (tcpPacket 3 1 [4, 133] [0, 80] 2) 0 = (some 0x1fff80, t)
      ∧ (((t.itf.lip 1).range true).available
        ++ (t.liveSelf.filter (fun cp => (t.conn cp).self_addr == 1
          && connectionIsTcp (t.conn cp) == true)).map
            (fun cp => (t.conn cp).self_port)).Perm (selfSlice 16000 1) := by
  have hstep := reachable_manyProcesses.step
    (show (processesSystem 16000).step _ (1, .create (some 0x100000)
        (tcpPacket 3 1 [4, 133] [0, 80] 2) 0) _ from
      ⟨by decide, _, ⟨mallocOk_twoVservers _ _ _, rfl⟩, rfl⟩)
  generalize hr : connectionCreate (some 0x100000) (manyProcesses 1)
    (tcpPacket 3 1 [4, 133] [0, 80] 2) 0 = r at hstep
  have hself : r.2.itf.IsSelfIp 1 := by
    rw [← hr]
    exact ⟨by decide +kernel, by decide +kernel⟩
  have hcp : r.1 = some 0x1fff80 := by
    rw [← hr]
    decide +kernel
  have htuples := (processes_self_tuples hstep).2 1 (by decide) 1
  rw [Function.update_self] at htuples
  exact ⟨r.2, Prod.ext hcp rfl, (htuples hself true).1⟩
