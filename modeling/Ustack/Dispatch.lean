import Ustack.Interface
import Ustack.Packet

/-!
# Dispatching packets to processes

`src/dispatch.c`, the arithmetic half: how the port space is cut into one slice
per process, and which process a packet is sent to. The program's document says
what the choice should be: packets to a virtual server and packets back to a
client go to the process named by the hash of the client address, packets to a
self IP to the process whose slice the destination port is in.

The code asks different questions. It tests the *source* address against the vs
IPs, so a client's packet falls through to the last branch and is hashed by its
destination. And it compares the destination port as loaded from the header,
network order, with slices computed in numbers, without a bound: ports below the
first slice and above the last give ids too. Each process draws its own hash
seed at start-up, so the process that evaluates the hash is a parameter of every
statement here.
-/

/-- `struct dispatch`. -/
structure Dispatch where
  /-- This process. -/
  id : ℕ
  /-- The number of processes. -/
  num : ℕ
  /-- The first port of the first slice. -/
  port_base : UInt16
  /-- The number of ports of a slice. -/
  port_slice : UInt16
  /-- The first port of this process's slice. -/
  self_port_low : UInt16
  /-- The last port of this process's slice. -/
  self_port_high : UInt16

/-- `dispatch_module_init`, in the 16-bit arithmetic of its fields. -/
def dispatchModuleInit (n id : ℕ) : Dispatch :=
  let port_base : UInt16 := 1024
  let port_slice := UInt16.ofNat ((65535 - port_base.toNat) / n)
  let _low := UInt16.ofNat (id * port_slice.toNat + port_base.toNat)
  let _high := _low + port_slice - 1
  { id := id
    num := n
    port_base := port_base
    port_slice := port_slice
    self_port_low := _low
    self_port_high := _high }

/-- `dispatch_get_port_range`. -/
def dispatchGetPortRange (disp : Dispatch) : UInt16 × UInt16 :=
  (disp.self_port_low, disp.self_port_high)

/-- `dispatch_port_to_id`: an `int` division, truncating; dividing by an empty
slice traps. -/
def dispatchPortToId (disp : Dispatch) (port : UInt16) : Option ℤ :=
  if disp.port_slice = 0 then none
  else some (((port.toNat : ℤ) - disp.port_base.toNat).tdiv disp.port_slice.toNat)

/-- `__dispatch_ip_packet`: the process a packet is dispatched to, in a process
with this hash seed and interface. -/
def dispatchIpPacket (hashRand : UInt32) (itf : Interface) (disp : Dispatch)
    (pkt : Packet) : Option ℤ :=
  let src_ip := pkt.saddr.ip
  let dst_ip := pkt.daddr.ip
  let dst_port := pkt.daddr.port
  if (ngInterfaceLookupVsip hashRand itf src_ip).isSome then
    some (((ipAddressHash hashRand src_ip).toNat % disp.num : ℕ) : ℤ)
  else if (ngInterfaceLookupSelfip hashRand itf dst_ip).isSome then
    dispatchPortToId disp dst_port
  else some (((ipAddressHash hashRand dst_ip).toNat % disp.num : ℕ) : ℤ)

/-- The number of processes `spawn` starts: as many as asked for, or as many as
there are CPUs. -/
def spawn (n cpunum : ℕ) : ℕ :=
  if n = 1 then 1 else if cpunum < n then cpunum else n

/-! ## The slices -/

/-- The number of ports of each of `n` slices. -/
def portSliceSize (n : ℕ) : ℕ := 64511 / n

theorem portSliceSize_le (n : ℕ) : portSliceSize n ≤ 64511 := Nat.div_le_self _ _

theorem portSliceSize_mul_le (n : ℕ) : n * portSliceSize n ≤ 64511 :=
  Nat.mul_div_le _ _

theorem toNat_port_slice (n id : ℕ) :
    (dispatchModuleInit n id).port_slice.toNat = portSliceSize n := by
  have h := portSliceSize_le n
  exact toNat_ofNat_u16 (by unfold portSliceSize at h; show 64511 / n < 65536; omega)

/-- A slice ends before port 65535, so nothing wraps. -/
theorem slice_end_le {n k : ℕ} (hk : k < n) :
    (k + 1) * portSliceSize n + 1024 ≤ 65535 := by
  have h := Nat.mul_le_mul_right (portSliceSize n) (Nat.succ_le_of_lt hk)
  have hn := portSliceSize_mul_le n
  rw [Nat.succ_eq_add_one] at h
  omega

/-- **The slice of process `k` starts at `1024 + k` slices.** -/
theorem toNat_self_port_low {n k : ℕ} (hk : k < n) :
    (dispatchModuleInit n k).self_port_low.toNat = k * portSliceSize n + 1024 := by
  have h := slice_end_le hk
  rw [Nat.add_mul] at h
  show (UInt16.ofNat (k * (dispatchModuleInit n k).port_slice.toNat + 1024)).toNat = _
  rw [toNat_port_slice, toNat_ofNat_u16 (by omega)]

/-- **The slice of process `k` ends before the next one starts.** -/
theorem toNat_self_port_high {n k : ℕ} (hk : k < n) :
    (dispatchModuleInit n k).self_port_high.toNat + 1
      = (k + 1) * portSliceSize n + 1024 := by
  have h := slice_end_le hk
  have hlow := toNat_self_port_low hk
  have hsl := toNat_port_slice n k
  show ((dispatchModuleInit n k).self_port_low + (dispatchModuleInit n k).port_slice
    - 1).toNat + 1 = _
  rw [Nat.add_mul] at h ⊢
  simp only [UInt16.toNat_sub, UInt16.toNat_add, hlow, hsl, UInt16.toNat_one,
    Nat.reducePow]
  omega

/-! ## Which ports give which id -/

/-- The value a port field read as a number has to have for the division to
answer `k`: it lies in slice `k`, or, the division truncating towards zero, less
than a slice below the first one for `k = 0`. -/
def PortInSlice (n k : ℕ) (port : UInt16) : Prop :=
  port.toNat < (k + 1) * portSliceSize n + 1024
    ∧ (k * portSliceSize n + 1024 ≤ port.toNat
      ∨ k = 0 ∧ 1024 < port.toNat + portSliceSize n)

instance (n k : ℕ) (port : UInt16) : Decidable (PortInSlice n k port) :=
  inferInstanceAs (Decidable (_ ∧ _))

/-- A truncated quotient is the natural number `k` where the dividend lies in
the `k`-th multiple of the divisor, or just below zero for `k = 0`. -/
theorem tdiv_eq_natCast_iff {a : ℤ} {s k : ℕ} (hs : 0 < s) :
    a.tdiv s = k ↔ a < (k + 1) * s ∧ (k * s ≤ a ∨ k = 0 ∧ -(s : ℤ) < a) := by
  have hs' : (0 : ℤ) < s := by exact_mod_cast hs
  rcases le_or_gt 0 a with ha | ha
  · rw [Int.tdiv_eq_ediv_of_nonneg ha, Int.ediv_eq_iff_of_pos hs']
    constructor
    · rintro ⟨h1, h2⟩
      exact ⟨by linarith, Or.inl h1⟩
    · rintro ⟨h1, h2 | ⟨rfl, -⟩⟩
      · exact ⟨h2, by linarith⟩
      · exact ⟨by push_cast; linarith, by push_cast at h1 ⊢; linarith⟩
  · obtain ⟨b, rfl⟩ : ∃ b, a = -b := ⟨-a, (neg_neg a).symm⟩
    have hb : 0 < b := by linarith
    have hq : 0 ≤ b / (s : ℤ) := Int.ediv_nonneg hb.le hs'.le
    rw [Int.neg_tdiv, Int.tdiv_eq_ediv_of_nonneg hb.le]
    constructor
    · intro h
      have hk : k = 0 := by omega
      have hz : b / (s : ℤ) = 0 := by omega
      have hlt := Int.lt_ediv_add_one_mul_self b hs'
      rw [hz] at hlt
      refine ⟨by rw [hk]; push_cast; linarith, Or.inr ⟨hk, by linarith⟩⟩
    · rintro ⟨-, h | ⟨rfl, h⟩⟩
      · have hks : (0 : ℤ) ≤ k * s := by positivity
        linarith
      · rw [Int.ediv_eq_zero_of_lt hb.le (by linarith)]
        rfl

theorem dispatchPortToId_of_pos {n id : ℕ} (hs : 0 < portSliceSize n) (port : UInt16) :
    dispatchPortToId (dispatchModuleInit n id) port
      = some (((port.toNat : ℤ) - 1024).tdiv (portSliceSize n)) := by
  have hsl := toNat_port_slice n id
  have hne : (dispatchModuleInit n id).port_slice ≠ 0 := by
    intro h
    rw [h, UInt16.toNat_zero] at hsl
    omega
  rw [dispatchPortToId, if_neg hne, hsl]
  rfl

theorem dispatchPortToId_of_zero {n id : ℕ} (hs : portSliceSize n = 0) (port : UInt16) :
    dispatchPortToId (dispatchModuleInit n id) port = none := by
  have hsl := toNat_port_slice n id
  rw [dispatchPortToId, if_pos (UInt16.toNat_inj.mp (by rw [hsl, hs, UInt16.toNat_zero]))]

/-- **The id of a port is `k` exactly where the port field, read as a number,
lies in slice `k`**, up to the truncation around the first slice. -/
theorem dispatchPortToId_eq_iff (n id k : ℕ) (port : UInt16) :
    dispatchPortToId (dispatchModuleInit n id) port = some (k : ℤ)
      ↔ PortInSlice n k port := by
  unfold PortInSlice
  rcases Nat.eq_zero_or_pos (portSliceSize n) with hs | hs
  · rw [dispatchPortToId_of_zero hs, hs]
    exact ⟨fun h => absurd h (by simp), fun h => by omega⟩
  · rw [dispatchPortToId_of_pos hs, Option.some_inj, tdiv_eq_natCast_iff hs]
    constructor <;> rintro ⟨h1, h2⟩ <;> refine ⟨by zify at h1 ⊢; linarith, ?_⟩ <;>
      rcases h2 with h2 | ⟨hk, h2⟩
    · exact Or.inl (by zify; linarith)
    · exact Or.inr ⟨hk, by zify; linarith⟩
    · exact Or.inl (by zify at h2; linarith)
    · exact Or.inr ⟨hk, by zify at h2; linarith⟩

/-- The id of a port is one of the first `started` processes exactly where the
port field, read as a number, lies in one of the first `started` slices or less
than a slice below. -/
theorem dispatchPortToId_lt_iff {n id started : ℕ} (h : 0 < started) (port : UInt16) :
    (∃ k : ℕ, dispatchPortToId (dispatchModuleInit n id) port = some (k : ℤ)
        ∧ k < started)
      ↔ 1024 < port.toNat + portSliceSize n
        ∧ port.toNat < started * portSliceSize n + 1024 := by
  simp only [dispatchPortToId_eq_iff, PortInSlice]
  constructor
  · rintro ⟨k, ⟨hhi, hlo⟩, hk⟩
    have hmul := Nat.mul_le_mul_right (portSliceSize n) (Nat.succ_le_of_lt hk)
    rw [Nat.succ_eq_add_one, Nat.add_mul] at hmul
    rw [Nat.add_mul] at hhi
    rcases hlo with hlo | ⟨-, hlo⟩
    · exact ⟨by omega, by omega⟩
    · exact ⟨hlo, by omega⟩
  · rintro ⟨hlo, hhi⟩
    have hs : 0 < portSliceSize n := by
      rcases Nat.eq_zero_or_pos (portSliceSize n) with hs | hs
      · rw [hs, Nat.mul_zero] at hhi
        omega
      · exact hs
    -- below the first slice the quotient truncates to zero
    rcases lt_or_ge port.toNat 1024 with hp | hp
    · exact ⟨0, ⟨by omega, Or.inr ⟨rfl, hlo⟩⟩, h⟩
    · refine ⟨(port.toNat - 1024) / portSliceSize n, ⟨?_, Or.inl ?_⟩, ?_⟩
      · have := Nat.lt_div_mul_add (a := port.toNat - 1024) hs
        rw [Nat.add_mul, Nat.one_mul]
        omega
      · have := Nat.div_mul_le_self (port.toNat - 1024) (portSliceSize n)
        omega
      · exact (Nat.div_lt_iff_lt_mul hs).mpr (by omega)

/-! ## The branches of the choice -/

section Branches

variable {hashRand : UInt32} {itf : Interface} {disp : Dispatch} {pkt : Packet}

/-- A source that is a vs IP decides by its hash. -/
theorem dispatchIpPacket_of_vsip
    (h : (ngInterfaceLookupVsip hashRand itf pkt.saddr.ip).isSome) :
    dispatchIpPacket hashRand itf disp pkt
      = some (((ipAddressHash hashRand pkt.saddr.ip).toNat % disp.num : ℕ) : ℤ) := by
  rw [dispatchIpPacket, if_pos h]

/-- A self IP as destination decides by the destination port. -/
theorem dispatchIpPacket_of_selfip
    (hs : ¬ (ngInterfaceLookupVsip hashRand itf pkt.saddr.ip).isSome)
    (hd : (ngInterfaceLookupSelfip hashRand itf pkt.daddr.ip).isSome) :
    dispatchIpPacket hashRand itf disp pkt = dispatchPortToId disp pkt.daddr.port := by
  rw [dispatchIpPacket, if_neg hs, if_pos hd]

/-- Any other destination decides by its hash. -/
theorem dispatchIpPacket_of_remote
    (hs : ¬ (ngInterfaceLookupVsip hashRand itf pkt.saddr.ip).isSome)
    (hd : ¬ (ngInterfaceLookupSelfip hashRand itf pkt.daddr.ip).isSome) :
    dispatchIpPacket hashRand itf disp pkt
      = some (((ipAddressHash hashRand pkt.daddr.ip).toNat % disp.num : ℕ) : ℤ) := by
  rw [dispatchIpPacket, if_neg hs, if_neg hd]

end Branches

/-! ## The two directions of a flow -/

/-- An address that is not local: neither a vs IP nor a self IP. -/
structure IsRemote (hashRand : UInt32) (itf : Interface) (ip : IpAddress) : Prop where
  /-- Not a vs IP. -/
  vs : ngInterfaceLookupVsip hashRand itf ip = none
  /-- Not a self IP. -/
  self : ngInterfaceLookupSelfip hashRand itf ip = none

/-- A packet from one address to another. -/
structure Packet.Between (pkt : Packet) (src dst : IpAddress) : Prop where
  /-- The source. -/
  saddr : ipAddressEq pkt.saddr.ip src = true
  /-- The destination. -/
  daddr : ipAddressEq pkt.daddr.ip dst = true

section Flow

variable {hashRand : UInt32} {itf : Interface} {src dst : IpAddress} {pkt : Packet}

theorem Packet.Between.not_vsip (h : pkt.Between src dst)
    (hsrc : IsRemote hashRand itf src) :
    ¬ (ngInterfaceLookupVsip hashRand itf pkt.saddr.ip).isSome := by
  have hl : ngInterfaceLookupVsip hashRand itf pkt.saddr.ip = none :=
    (interfaceLookup_congr hashRand itf h.saddr true).trans hsrc.vs
  rw [hl]
  exact Bool.false_ne_true

theorem Packet.Between.selfip_eq (h : pkt.Between src dst) :
    ngInterfaceLookupSelfip hashRand itf pkt.daddr.ip
      = ngInterfaceLookupSelfip hashRand itf dst :=
  interfaceLookup_congr hashRand itf h.daddr false

/-- **A packet from a remote address** is hashed by its destination, unless the
destination is a self IP. -/
theorem Packet.Between.dispatch_remote (h : pkt.Between src dst)
    (hsrc : IsRemote hashRand itf src)
    (hdst : ngInterfaceLookupSelfip hashRand itf dst = none) (disp : Dispatch) :
    dispatchIpPacket hashRand itf disp pkt
      = some (((ipAddressHash hashRand dst).toNat % disp.num : ℕ) : ℤ) := by
  rw [dispatchIpPacket_of_remote (h.not_vsip hsrc)
    (by rw [h.selfip_eq, hdst]; exact Bool.false_ne_true),
    ipAddressHash_congr hashRand h.daddr]

end Flow

/-- **When the two directions of a transparent flow meet.** Process `a` receives
the client's packet, process `b` the server's reply; each has its own seed and
interface. The two are sent to one process exactly where the hash of the vs
address in `a` and of the client address in `b` agree modulo the number of
processes, or, the vs address also being a self IP in `a`, where the port of the
vs lies in the slice the client address is hashed to. -/
theorem dispatchIpPacket_flow_iff {n a b : ℕ} {seedA seedB : UInt32}
    {itfA itfB : Interface} {c v s : IpAddress} {p r : Packet}
    (hca : IsRemote seedA itfA c) (hcb : IsRemote seedB itfB c)
    (hsb : IsRemote seedB itfB s) (hp : p.Between c v) (hr : r.Between s c) :
    dispatchIpPacket seedA itfA (dispatchModuleInit n a) p
        = dispatchIpPacket seedB itfB (dispatchModuleInit n b) r
      ↔ (ngInterfaceLookupSelfip seedA itfA v = none
          ∧ (ipAddressHash seedA v).toNat % n = (ipAddressHash seedB c).toNat % n)
        ∨ ((ngInterfaceLookupSelfip seedA itfA v).isSome
          ∧ PortInSlice n ((ipAddressHash seedB c).toNat % n) p.daddr.port) := by
  rw [hr.dispatch_remote hsb hcb.self]
  rcases Option.eq_none_or_eq_some (ngInterfaceLookupSelfip seedA itfA v) with
    hv | ⟨l, hv⟩
  · rw [hp.dispatch_remote hca hv, hv, Option.some_inj, Nat.cast_inj]
    simp only [Option.isSome_none, Bool.false_eq_true, false_and, or_false, true_and]
    exact Iff.rfl
  · rw [dispatchIpPacket_of_selfip (hp.not_vsip hca) (by rw [hp.selfip_eq, hv]; rfl), hv]
    simp only [reduceCtorEq, false_and, false_or, Option.isSome_some, true_and]
    exact dispatchPortToId_eq_iff n a _ _

/-- The hashes of `10.0.0.1` and `10.0.0.5` agree modulo four: the client's packet in process 2
and the server's reply in process 0 are sent to one process. -/
theorem dispatchIpPacket_flow_iff_four :
    dispatchIpPacket 0 (twoIps 33278 49404) (dispatchModuleInit 4 2)
        (tcpPacket 5 1 [4, 0] [0, 80] 2)
      = dispatchIpPacket 0 (twoIps 1024 17150) (dispatchModuleInit 4 0)
        (tcpPacket 4 5 [0, 80] [4, 0] 2) :=
  (dispatchIpPacket_flow_iff (c := netTen 5) (v := netTen 1) (s := netTen 4)
    ⟨by decide +kernel, by decide +kernel⟩ ⟨by decide +kernel, by decide +kernel⟩
    ⟨by decide +kernel, by decide +kernel⟩ ⟨by decide +kernel, by decide +kernel⟩
    ⟨by decide +kernel, by decide +kernel⟩).mpr
    (Or.inl ⟨by decide +kernel, by decide +kernel⟩)

/-- **With two processes they need not**: the client's packet goes to process 1
and the server's reply to process 0, in whichever process they arrive. -/
theorem client_and_reply_apart :
    (ngInterfaceLookupVsip 0 (twoIps 1024 33278) (netTen 1)).isSome
      ∧ ngInterfaceLookupSelfip 0 (twoIps 1024 33278) (netTen 1) = none
      ∧ IsRemote 0 (twoIps 1024 33278) (netTen 3)
      ∧ IsRemote 0 (twoIps 1024 33278) (netTen 4)
      ∧ PacketAccepted (tcpPacket 3 1 [4, 0] [0, 80] 2)
      ∧ (tcpPacket 3 1 [4, 0] [0, 80] 2).Between (netTen 3) (netTen 1)
      ∧ PacketAccepted (tcpPacket 4 3 [0, 80] [4, 0] 2)
      ∧ (tcpPacket 4 3 [0, 80] [4, 0] 2).Between (netTen 4) (netTen 3)
      ∧ ∀ a b, dispatchIpPacket 0 (twoIps 1024 33278) (dispatchModuleInit 2 a)
            (tcpPacket 3 1 [4, 0] [0, 80] 2)
          ≠ dispatchIpPacket 0 (twoIps 1024 33278) (dispatchModuleInit 2 b)
            (tcpPacket 4 3 [0, 80] [4, 0] 2) := by
  have hc : IsRemote 0 (twoIps 1024 33278) (netTen 3) :=
    ⟨by decide +kernel, by decide +kernel⟩
  have hs : IsRemote 0 (twoIps 1024 33278) (netTen 4) :=
    ⟨by decide +kernel, by decide +kernel⟩
  have hv : ngInterfaceLookupSelfip 0 (twoIps 1024 33278) (netTen 1) = none := by
    decide +kernel
  have hp : (tcpPacket 3 1 [4, 0] [0, 80] 2).Between (netTen 3) (netTen 1) :=
    ⟨by decide +kernel, by decide +kernel⟩
  have hr : (tcpPacket 4 3 [0, 80] [4, 0] 2).Between (netTen 4) (netTen 3) :=
    ⟨by decide +kernel, by decide +kernel⟩
  refine ⟨by decide +kernel, hv, hc, hs, accepted_tcpPacket _ _ _ _ _, hp,
    accepted_tcpPacket _ _ _ _ _, hr, fun a b => ?_⟩
  rw [hp.dispatch_remote hc hv, hr.dispatch_remote hs hc.self]
  show some (((ipAddressHash 0 (netTen 1)).toNat % 2 : ℕ) : ℤ)
    ≠ some (((ipAddressHash 0 (netTen 3)).toNat % 2 : ℕ) : ℤ)
  decide +kernel

/-! ## The owner of a port -/

/-- What a new self IP hands out, in a process whose space holds the slice of
process `k`: the ports of that slice, stored byte-swapped. -/
theorem available_createLocalIp {n k : ℕ} (hk : k < n) {space : IpSpace}
    (hspace : dispatchGetPortRange (dispatchModuleInit n k)
      = (space.self_port_low, space.self_port_high))
    (ip : IpAddress) (nic_id : ℕ) (is_tcp : Bool) :
    ((lipIpSpaceCreateLocalIp space ip selfIpT nic_id).range is_tcp).available
        = portSlice (dispatchModuleInit n k).self_port_low
          (dispatchModuleInit n k).self_port_high
      ∧ ((lipIpSpaceCreateLocalIp space ip selfIpT nic_id).range is_tcp).InStep
      ∧ ((lipIpSpaceCreateLocalIp space ip selfIpT nic_id).range is_tcp).size
        = (portSlice (dispatchModuleInit n k).self_port_low
          (dispatchModuleInit n k).self_port_high).length + 1 := by
  obtain ⟨hlow, hhigh⟩ := Prod.ext_iff.mp hspace
  dsimp only [dispatchGetPortRange] at hlow hhigh
  have hlo := toNat_self_port_low hk
  rw [hlow, hhigh, length_portSlice]
  rw [hlow] at hlo
  have hrange : (lipIpSpaceCreateLocalIp space ip selfIpT nic_id).range is_tcp
      = portRangeInit (portRangeCreate
          (space.self_port_high.toNat + 1 - space.self_port_low.toNat))
          space.self_port_low space.self_port_high := by
    cases is_tcp <;> rfl
  rw [hrange]
  exact portRangeInit_create (by omega) rfl

/-- **When a full-NAT reply reaches the owner of its port.** The port `p`, which
process `k` hands out for a self IP, is the byte swap of a port number of slice
`k`; a packet to that self IP and port is given the id `k`, in any process `j`,
exactly where its source is not a vs IP and the value of `p` itself lies in slice
`k`, or its source is a vs IP that hashes to `k`. -/
theorem dispatchIpPacket_self_port_iff {n k j : ℕ} (hk : k < n) {space : IpSpace}
    (hspace : dispatchGetPortRange (dispatchModuleInit n k)
      = (space.self_port_low, space.self_port_high))
    {ip : IpAddress} {nic_id : ℕ} {is_tcp : Bool} {p : UInt16}
    (hp : p ∈ ((lipIpSpaceCreateLocalIp space ip selfIpT nic_id).range is_tcp).available)
    {hashRand : UInt32} {itf : Interface}
    (hself : (ngInterfaceLookupSelfip hashRand itf ip).isSome)
    {pkt : Packet} (hd : ipAddressEq pkt.daddr.ip ip = true)
    (hport : pkt.daddr.port = p) :
    (k * portSliceSize n + 1024 ≤ (htons p).toNat
        ∧ (htons p).toNat < (k + 1) * portSliceSize n + 1024)
      ∧ (dispatchIpPacket hashRand itf (dispatchModuleInit n j) pkt = some (k : ℤ)
        ↔ (ngInterfaceLookupVsip hashRand itf pkt.saddr.ip = none ∧ PortInSlice n k p)
          ∨ ((ngInterfaceLookupVsip hashRand itf pkt.saddr.ip).isSome
            ∧ (ipAddressHash hashRand pkt.saddr.ip).toNat % n = k)) := by
  constructor
  · rw [(available_createLocalIp hk hspace ip nic_id is_tcp).1, mem_portSlice] at hp
    obtain ⟨i, hlo, hhi, rfl⟩ := hp
    have hlow := toNat_self_port_low hk
    have hhigh := toNat_self_port_high hk
    have hend := slice_end_le hk
    rw [htons_htons, toNat_ofNat_u16 (by omega)]
    omega
  · have hdst : (ngInterfaceLookupSelfip hashRand itf pkt.daddr.ip).isSome := by
      rw [ngInterfaceLookupSelfip, interfaceLookup_congr hashRand itf hd]
      exact hself
    rcases Option.eq_none_or_eq_some (ngInterfaceLookupVsip hashRand itf pkt.saddr.ip)
      with hv | ⟨l, hv⟩
    · rw [dispatchIpPacket_of_selfip (by rw [hv]; exact Bool.false_ne_true) hdst, hport,
        dispatchPortToId_eq_iff, hv]
      simp only [true_and, Option.isSome_none, Bool.false_eq_true, false_and, or_false]
    · rw [dispatchIpPacket_of_vsip (by rw [hv]; rfl), hv, Option.some_inj, Nat.cast_inj]
      simp only [reduceCtorEq, false_and, Option.isSome_some, true_and, false_or]
      exact Iff.rfl

/-- The ports from 1024 on of the self IP of the first of two processes. -/
theorem mem_available_first {i : ℕ} (h1 : 1024 ≤ i) (h2 : i ≤ 33278) :
    htons (UInt16.ofNat i)
      ∈ ((lipIpSpaceCreateLocalIp (twoIps 1024 33278).space (netTen 2) selfIpT 0).range
        true).available := by
  rw [(available_createLocalIp (n := 2) (k := 0) (by decide) (by decide +kernel) _ _ _).1,
    mem_portSlice]
  exact ⟨i, h1, h2, rfl⟩

/-- Port 1152, whose swap 32772 lies in the first of two slices too, is found by
its owner. -/
theorem dispatchIpPacket_self_port_iff_first :
    dispatchIpPacket 0 (twoIps 1024 33278) (dispatchModuleInit 2 1)
      (tcpPacket 4 2 [0, 80] [4, 128] 2) = some 0 :=
  (dispatchIpPacket_self_port_iff (n := 2) (k := 0) (j := 1) (by decide)
    (by decide +kernel) (mem_available_first (i := 1152) (by decide) (by decide))
    (by decide +kernel) (by decide +kernel) (by decide +kernel)).2.mpr
    (Or.inl ⟨by decide +kernel, by decide +kernel⟩)

/-- **Port 1279 of the first of two processes is not**: its swap lies in the
second slice. -/
theorem self_port_of_other_process :
    htons 1279
        ∈ ((lipIpSpaceCreateLocalIp (twoIps 1024 33278).space (netTen 2) selfIpT 0).range
          true).available
      ∧ dispatchGetPortRange (dispatchModuleInit 2 0) = (1024, 33278)
      ∧ (ngInterfaceLookupSelfip 0 (twoIps 1024 33278) (netTen 2)).isSome
      ∧ PacketAccepted (tcpPacket 4 2 [0, 80] [4, 255] 2)
      ∧ (tcpPacket 4 2 [0, 80] [4, 255] 2).daddr = ⟨netTen 2, htons 1279⟩
      ∧ dispatchIpPacket 0 (twoIps 1024 33278) (dispatchModuleInit 2 0)
        (tcpPacket 4 2 [0, 80] [4, 255] 2) ≠ some 0 :=
  ⟨mem_available_first (i := 1279) (by decide) (by decide), by decide +kernel,
    by decide +kernel, accepted_tcpPacket _ _ _ _ _, by decide +kernel, by decide +kernel⟩

/-! ## The processes that exist -/

/-- An id is that of a started process. -/
def IsStarted (started : ℕ) (id : Option ℤ) : Prop :=
  ∃ k : ℤ, id = some k ∧ 0 ≤ k ∧ k < started

theorem isStarted_iff {started : ℕ} {id : Option ℤ} :
    IsStarted started id ↔ ∃ k : ℕ, id = some (k : ℤ) ∧ k < started := by
  constructor
  · rintro ⟨k, rfl, h0, hlt⟩
    lift k to ℕ using h0
    exact ⟨k, rfl, by exact_mod_cast hlt⟩
  · rintro ⟨k, rfl, hlt⟩
    exact ⟨k, rfl, Int.natCast_nonneg k, by exact_mod_cast hlt⟩

theorem isStarted_natCast {started m : ℕ} :
    IsStarted started (some (m : ℤ)) ↔ m < started := by
  rw [isStarted_iff]
  constructor
  · rintro ⟨k, hk, hlt⟩
    rwa [Nat.cast_injective (Option.some_inj.mp hk)]
  · exact fun h => ⟨m, rfl, h⟩

/-- **When a packet is sent to a process that exists.** The dispatcher counts the
processes asked for, and `spawn` may start fewer; a port has to lie in the slice
of a started process, or less than a slice below the first. -/
theorem dispatchIpPacket_started_iff {nproc cpunum id : ℕ}
    (hid : id < spawn nproc cpunum) (hashRand : UInt32) (itf : Interface) (pkt : Packet) :
    IsStarted (spawn nproc cpunum)
        (dispatchIpPacket hashRand itf (dispatchModuleInit nproc id) pkt)
      ↔ ((ngInterfaceLookupVsip hashRand itf pkt.saddr.ip).isSome →
          (ipAddressHash hashRand pkt.saddr.ip).toNat % nproc < spawn nproc cpunum)
        ∧ (ngInterfaceLookupVsip hashRand itf pkt.saddr.ip = none →
          (ngInterfaceLookupSelfip hashRand itf pkt.daddr.ip).isSome →
          1024 < pkt.daddr.port.toNat + portSliceSize nproc
            ∧ pkt.daddr.port.toNat < spawn nproc cpunum * portSliceSize nproc + 1024)
        ∧ (ngInterfaceLookupVsip hashRand itf pkt.saddr.ip = none →
          ngInterfaceLookupSelfip hashRand itf pkt.daddr.ip = none →
          (ipAddressHash hashRand pkt.daddr.ip).toNat % nproc < spawn nproc cpunum) := by
  rcases Option.eq_none_or_eq_some (ngInterfaceLookupVsip hashRand itf pkt.saddr.ip)
    with hv | ⟨l, hv⟩
  · have hsrc : ¬ (ngInterfaceLookupVsip hashRand itf pkt.saddr.ip).isSome := by
      rw [hv]; exact Bool.false_ne_true
    rcases Option.eq_none_or_eq_some (ngInterfaceLookupSelfip hashRand itf pkt.daddr.ip)
      with hd | ⟨l, hd⟩
    · have hdst : ¬ (ngInterfaceLookupSelfip hashRand itf pkt.daddr.ip).isSome := by
        rw [hd]; exact Bool.false_ne_true
      rw [dispatchIpPacket_of_remote hsrc hdst, isStarted_natCast, hv, hd]
      simp [dispatchModuleInit]
    · rw [dispatchIpPacket_of_selfip hsrc (by rw [hd]; rfl), isStarted_iff,
        dispatchPortToId_lt_iff (by omega), hv, hd]
      simp
  · rw [dispatchIpPacket_of_vsip (by rw [hv]; rfl), isStarted_natCast, hv]
    simp [dispatchModuleInit]

/-- Of eight processes four are started, on four processors. A packet to port 80 of the self IP
is sent to one of them: its port as stored is 20480, in the third slice. -/
theorem dispatchIpPacket_started_iff_eight :
    IsStarted (spawn 8 4) (dispatchIpPacket 0 (twoIps 25213 33275)
      (dispatchModuleInit 8 3) (tcpPacket 4 2 [0, 80] [0, 80] 2)) :=
  (dispatchIpPacket_started_iff (by decide) _ _ _).mpr
    ⟨by decide +kernel, by decide +kernel, by decide +kernel⟩

/-- **Port 65535 is past the last slice**: the only process sends the packet to a
process 1. -/
theorem dispatch_past_last_slice :
    0 < spawn 1 1 ∧ PacketAccepted (tcpPacket 4 2 [0, 80] [255, 255] 2)
      ∧ ¬ IsStarted (spawn 1 1) (dispatchIpPacket 0 (twoIps 1024 65534)
        (dispatchModuleInit 1 0) (tcpPacket 4 2 [0, 80] [255, 255] 2)) := by
  refine ⟨by decide, accepted_tcpPacket _ _ _ _ _, ?_⟩
  have hid : dispatchIpPacket 0 (twoIps 1024 65534) (dispatchModuleInit 1 0)
      (tcpPacket 4 2 [0, 80] [255, 255] 2) = some ((1 : ℕ) : ℤ) := by decide +kernel
  rw [hid, isStarted_natCast]
  decide
