import Ustack.Flow

/-!
# An exchange through a full-NAT virtual server

What the hosts at both ends read. The frame a process sends is read by the host it goes to,
with the parser of `src/packet.c`: rewriting keeps a frame one that is kept as IP, and what is
read of it are the addresses and ports it was rewritten to (`exists_readAs`). So the server
that answers what it read answers the self address, and the client reads the answer as one to
what it sent (`fullnat_exchange`): to each end the other is where it sent its packet to.

In between any packets and timers are processed. That the answer finds the connection takes
that it stays in the bucket of its self tuple (`Tables.stable_bucketed`), that its self
address is found as one (`Interface.Listed`), and that no other connection holds its self
address and port: a lookup does not compare the protocol. That what is sent goes to the
server takes that the server is of the family of the packet: `process_set_ip` writes as much
of an address as the packet's family has.
-/

/-! ## What is read of a frame -/

/-- What the ends of an exchange know a packet by. -/
structure FiveTuple where
  /-- `AF_INET` or `AF_INET6`. -/
  family : ℕ
  /-- The protocol. -/
  protocol : UInt8
  /-- Where it comes from. -/
  source : NetAddress
  /-- Where it goes to. -/
  dest : NetAddress
deriving DecidableEq

/-- The tuple of an answer. -/
def FiveTuple.reverse (a : FiveTuple) : FiveTuple :=
  { a with source := a.dest, dest := a.source }

/-- An answer to an answer. -/
@[simp] theorem FiveTuple.reverse_reverse (a : FiveTuple) : a.reverse.reverse = a := rfl

/-- The tuple of a parsed packet. -/
def Packet.tuple (pkt : Packet) : FiveTuple where
  family := pkt.family
  protocol := pkt.protocol_ip
  source := ⟨pkt.saddr.ip.normal, pkt.saddr.port⟩
  dest := ⟨pkt.daddr.ip.normal, pkt.daddr.port⟩

/-- The tuple in the frame of a packet. -/
def Packet.frameTuple (pkt : Packet) : FiveTuple where
  family := pkt.family
  protocol := pkt.protocol_ip
  source := pkt.frameSource
  dest := pkt.frameDest

/-- A host reads a frame as a packet. -/
def ReadAs (m : Memory) (pkt : Packet) : Prop :=
  ∃ garbage raw, raw.data = m ∧ KeptAsIp garbage raw pkt

/-- An accepted IP packet is what its frame is read as. -/
theorem PacketAccepted.readAs {pkt : Packet} (h : PacketAccepted pkt)
    (hip : packetIsIp pkt = true) : ReadAs pkt.data pkt := by
  obtain ⟨garbage, raw, hr⟩ := h
  refine ⟨garbage, raw, ?_, hr, hip⟩
  have hdata := (packetRecvInit_keeps garbage raw).1
  rw [hr] at hdata
  exact hdata.symm

theorem ReadAs.accepted {m : Memory} {pkt : Packet} (h : ReadAs m pkt) :
    PacketAccepted pkt ∧ packetIsIp pkt = true ∧ pkt.data = m := by
  obtain ⟨garbage, raw, hraw, hr, hip⟩ := h
  refine ⟨⟨garbage, raw, hr⟩, hip, ?_⟩
  have hdata := (packetRecvInit_keeps garbage raw).1
  rw [hr] at hdata
  exact hdata.trans hraw

/-- The header a frame is read as having. -/
theorem ReadAs.header_eq {m : Memory} {pkt : Packet} (h : ReadAs m pkt) :
    load16 m 12 = protoIp ∧ Known (readHeader m).protocol ∧ pkt.header = readHeader m := by
  obtain ⟨garbage, raw, rfl, hkept⟩ := h
  obtain ⟨heth, hk, hheader, -⟩ := hkept.spec
  exact ⟨heth, hk, hheader⟩

/-- A frame with ports is read as its addresses and ports stand in it. -/
theorem ReadAs.tuple_eq {m : Memory} {pkt : Packet} (h : ReadAs m pkt)
    (hproto : HasPorts pkt.protocol_ip) : pkt.tuple = pkt.frameTuple := by
  obtain ⟨hacc, hip, -⟩ := h.accepted
  have hf := hacc.ipFields hip
  obtain ⟨hsource, hdest, hports⟩ := hf.frame_eq
  obtain ⟨hsport, hdport⟩ := hports hproto
  have haddr : ∀ {a b : IpAddress}, ipAddressEq a b = true → a.normal = a → b.normal = a := by
    intro a b hab ha
    obtain ⟨hfam, h0, hrest⟩ := ipAddressEq_iff.mp hab
    rw [← ha, IpAddress.normal, IpAddress.normal, ← hfam]
    by_cases h4 : a.family = afInet
    · rw [if_pos h4, if_pos h4, show b.ip4 = a.ip4 from h0.symm]
    · obtain ⟨h1, h2, h3⟩ := hrest h4
      rw [if_neg h4, if_neg h4]
      cases a
      cases b
      simp_all
  have hnormal : ∀ off4 off6,
      (frameAddr (packetIsIpv4 pkt) pkt.data off4 off6).normal
        = frameAddr (packetIsIpv4 pkt) pkt.data off4 off6 := by
    intro off4 off6
    unfold frameAddr
    split
    · exact if_pos rfl
    · exact normal_loadAddr6 _ _
  show FiveTuple.mk _ _ _ _ = FiveTuple.mk _ _ _ _
  rw [haddr hsource (hnormal _ _), haddr hdest (hnormal _ _), ← hsport, ← hdport]

/-- The header a frame of IPv4 or IPv6 is read as having, field by field. -/
theorem ReadAs.family_iff {m : Memory} {pkt : Packet} (h : ReadAs m pkt) :
    (packetIsIpv4 pkt = true ↔ ipVersion m = 4) := by
  have hfamily : pkt.family = (readHeader m).family := congrArg Header.family h.header_eq.2.2
  rw [packetIsIpv4, hfamily, readHeader, beq_iff_eq]
  by_cases hv : ipVersion m = 4
  · rw [if_pos hv]
    exact iff_of_true rfl hv
  · rw [if_neg hv]
    exact iff_of_false (show ¬ afInet6 = afInet by decide) hv

/-- **A frame that differs in what rewriting sets is kept too**, and is read as a packet of the
same family and protocol. -/
theorem ReadAs.rewritten {m m' : Memory} {pkt : Packet} (h : ReadAs m pkt)
    (hframe : ∀ i, ¬ pkt.Rewritten i → m' i = m i) :
    load16 m' 12 = protoIp ∧ Known (readHeader m').protocol
      ∧ (readHeader m').family = pkt.family ∧ (readHeader m').protocol = pkt.protocol_ip := by
  obtain ⟨hacc, hip, -⟩ := h.accepted
  obtain ⟨heth, hk, hheader⟩ := h.header_eq
  have hf := hacc.ipFields hip
  have hlow : ∀ i, 12 ≤ i → i < 22 → m' i = m i :=
    fun i h12 h22 => hframe i (hf.not_rewritten h12 (Or.inl h22))
  have heth' : load16 m' 12 = load16 m 12 := by
    rw [load16, load16, hlow 12 (by omega) (by omega), hlow 13 (by omega) (by omega)]
  have hversion : ipVersion m' = ipVersion m := by
    rw [ipVersion, ipVersion, hlow 14 (by omega) (by omega)]
  have hread : (readHeader m').family = (readHeader m).family
      ∧ (readHeader m').protocol = (readHeader m).protocol := by
    rw [readHeader, readHeader, hversion]
    by_cases hv : ipVersion m = 4
    · rw [if_pos hv, if_pos hv]
      exact ⟨rfl, hframe 23 (hf.not_rewritten (by omega) (Or.inr ⟨h.family_iff.mpr hv, by omega⟩))⟩
    · rw [if_neg hv, if_neg hv]
      exact ⟨rfl, hlow 20 (by omega) (by omega)⟩
  refine ⟨heth'.trans heth, hread.2.symm ▸ hk, hread.1.trans ?_, hread.2.trans ?_⟩
  · exact (congrArg Header.family hheader).symm
  · exact (congrArg Header.protocol hheader).symm

/-- **What a host reads of a rewritten packet**: it keeps it, as one of the same family and
protocol, with the addresses and ports it was rewritten to. -/
theorem readAs_rewritten {p out : Packet} (hacc : PacketAccepted p) (hip : packetIsIp p = true)
    (hproto : HasPorts p.protocol_ip) {adapter_idx : UInt8}
    (heq : out = { p with data := out.data, adapter_idx := adapter_idx })
    (hframe : ∀ i, ¬ p.Rewritten i → out.data i = p.data i) :
    (∀ garbage raw, raw.data = out.data → ∃ q, KeptAsIp garbage raw q)
      ∧ ∀ q, ReadAs out.data q → q.tuple = out.frameTuple := by
  obtain ⟨heth, hk, hfam, hprot⟩ := (hacc.readAs hip).rewritten hframe
  refine ⟨fun garbage raw hraw => exists_keptAsIp garbage (hraw ▸ heth) (hraw ▸ hk), ?_⟩
  intro q hq
  obtain ⟨hqacc, hqip, hqdata⟩ := hq.accepted
  have hheader := hq.header_eq.2.2
  have hqfam : q.family = p.family := (congrArg Header.family hheader).trans hfam
  have hqprot : q.protocol_ip = p.protocol_ip := (congrArg Header.protocol hheader).trans hprot
  have hqf := hqacc.ipFields hqip
  have hf := hacc.ipFields hip
  have h4 : packetIsIpv4 q = packetIsIpv4 p := by rw [packetIsIpv4, hqfam, packetIsIpv4]
  have hth : q.transport_header = p.transport_header := by
    obtain ⟨hq4, hqth⟩ | ⟨hq4, hqth⟩ := hqf.headers <;>
      obtain ⟨hp4, hpth⟩ | ⟨hp4, hpth⟩ := hf.headers
    · exact hqth.trans hpth.symm
    · exact absurd (hq4.symm.trans (h4.trans hp4)) Bool.false_ne_true.symm
    · exact absurd (hq4.symm.trans (h4.trans hp4)) Bool.false_ne_true
    · exact hqth.trans hpth.symm
  rw [hq.tuple_eq (hqprot ▸ hproto), heq]
  show FiveTuple.mk _ _ (NetAddress.mk _ _) (NetAddress.mk _ _)
    = FiveTuple.mk _ _ (NetAddress.mk _ _) (NetAddress.mk _ _)
  rw [hqfam, hqprot, h4, hqdata, hth, hqf.network_header, hf.network_header]
  rfl

/-! ## The self addresses are found -/

namespace Interface

/-- The addresses in the lists of the NICs stand in the hash sets of their kind and family. -/
def Listed (hashRand : UInt32) (itf : Interface) : Prop :=
  ∀ k v f, ∀ l ∈ itf.nic k v f,
    l ∈ itf.space.ip_set v f (lipHashkey hashRand (itf.lip l).addr)

variable {hashRand : UInt32} {itf itf' : Interface}

theorem Listed.keeps (h : itf.Listed hashRand) (hk : itf.Keeps itf') : itf'.Listed hashRand := by
  intro k v f l hl
  rw [hk.space, hk.addr]
  exact h k v f l ((hk.nic k v f).mem_iff.mp hl)

theorem Listed.create (h : itf.Listed hashRand) (hf : itf.Families) (ip : IpAddress)
    (type nic_id : ℕ) :
    (interfaceCreateLocalIp hashRand itf ip type nic_id).2.Listed hashRand := by
  set itf' := (interfaceCreateLocalIp hashRand itf ip type nic_id).2 with hitf'
  set new := itf'.lip itf.lip_num with hnew
  have hset : ∀ v f, itf'.space.ip_set v f
      = if v = lipIsVsip new ∧ f = lipIsIpv4 new
        then bucketAdd (itf.space.ip_set (lipIsVsip new) (lipIsIpv4 new))
          (lipHashkey hashRand new.addr) itf.lip_num
        else itf.space.ip_set v f := fun _ _ => rfl
  have hnic : ∀ k v f, itf'.nic k v f
      = if k = new.nic_id ∧ v = lipIsVsip new ∧ f = lipIsIpv4 new
        then itf.lip_num :: itf.nic new.nic_id (lipIsVsip new) (lipIsIpv4 new)
        else itf.nic k v f := fun _ _ _ => rfl
  have hold : ∀ k v f, ∀ l ∈ itf.nic k v f,
      l ∈ itf'.space.ip_set v f (lipHashkey hashRand (itf'.lip l).addr) := by
    intro k v f l hl
    rw [show itf'.lip l = itf.lip l from Function.update_of_ne (hf k v f l hl).1.ne _ _, hset]
    split
    · rename_i hkind
      rw [← hkind.1, ← hkind.2]
      exact mem_bucketAdd_of_mem (h k v f l hl)
    · exact h k v f l hl
  intro k v f l hl
  rw [hnic] at hl
  split at hl
  · rename_i hplace
    obtain ⟨rfl, rfl, rfl⟩ := hplace
    obtain rfl | hl := List.mem_cons.mp hl
    · rw [hset, if_pos ⟨rfl, rfl⟩]
      exact mem_bucketAdd_self _ _ _
    · exact hold _ _ _ l hl
  · exact hold k v f l hl

theorem Listed.addLocalIps (h : itf.Listed hashRand) (hf : itf.Families)
    (ips : List (IpAddress × ℕ × ℕ)) :
    (itf.addLocalIps hashRand ips).Listed hashRand := by
  induction ips generalizing itf with
  | nil => exact h
  | cons a ips ih => exact ih (h.create hf a.1 a.2.1 a.2.2) (hf.create hashRand a.1 a.2.1 a.2.2)

/-- An address in a list is found. -/
theorem Listed.lookup (h : itf.Listed hashRand) (hf : itf.Families) {k l : ℕ} {v f : Bool}
    (hl : l ∈ itf.nic k v f) :
    (interfaceLookup hashRand itf (itf.lip l).addr v).isSome = true := by
  obtain ⟨-, hfam⟩ := hf k v f l hl
  rw [interfaceLookup, ipSetLookup, List.find?_isSome]
  refine ⟨l, ?_, ipAddressEq_refl _⟩
  rw [show ipAddressIsIpv4 (itf.lip l).addr = f from hfam]
  exact h k v f l hl

end Interface

namespace Tables

/-- The addresses in the lists of a process are found, in every run. -/
structure Local (hashRand : UInt32) (t : Tables) : Prop where
  /-- The containers agree. -/
  ok : t.Ok
  /-- The seed of the hashes. -/
  hash_rand : t.hash_rand = hashRand
  /-- The lists hold addresses of their family. -/
  families : t.itf.Families
  /-- The addresses in the lists are found. -/
  listed : t.itf.Listed hashRand

theorem stable_local (hashRand : UInt32) : Stable (Local hashRand) where
  ok _ h := h.ok
  clock _ _ h htable htotal hwheel := { h with ok := h.ok.of_clock htable htotal hwheel }
  assigns t t' h ha := by
    have hitf : t'.itf = t.itf := by rw [ha.eq]
    have hrand : t'.hash_rand = t.hash_rand := by rw [ha.eq]
    exact ⟨h.ok.assigns ha, hrand.trans h.hash_rand, hitf ▸ h.families, hitf ▸ h.listed⟩
  arps t t' h ha := by
    have hitf : t'.itf = t.itf := by rw [ha]
    have hrand : t'.hash_rand = t.hash_rand := by rw [ha]
    exact ⟨h.ok.arps ha, hrand.trans h.hash_rand, hitf ▸ h.families, hitf ▸ h.listed⟩
  notCreated t t' h hn := by
    have hrand : t'.hash_rand = t.hash_rand := by rw [hn.eq]
    exact ⟨h.ok.notCreated hn, hrand.trans h.hash_rand, h.families.keeps hn.itf,
      h.listed.keeps hn.itf⟩
  created t _ _ _ t' h _ hc := by
    have hrand : t'.hash_rand = t.hash_rand := by rw [hc.eq]
    exact ⟨h.ok.created hc, hrand.trans h.hash_rand, h.families.keeps hc.itf,
      h.listed.keeps hc.itf⟩
  free t cp h hcp := by
    have hrand : (connectionFree t cp).hash_rand = t.hash_rand := by rw [connectionFree_eq]
    exact ⟨h.ok.free hcp, hrand.trans h.hash_rand, h.families.keeps (keeps_connectionFree t cp),
      h.listed.keeps (keeps_connectionFree t cp)⟩

theorem local_of_reachable {t : Tables} (h : processSystem.Reachable t) : t.Local t.hash_rand := by
  obtain ⟨rand, hlocal⟩ : ∃ rand, t.Local rand := by
    refine System.invariant (P := fun t => ∃ rand, Local rand t) (fun t hs => ?_)
      (fun t l t' ⟨rand, ht⟩ hst => ⟨rand, (stable_local rand).step t l t' ht hst⟩) h
    obtain ⟨num, vs_low, vs_high, self_low, self_high, ips, hitf⟩ := hs.itf
    have hf : (interfaceModuleInit num vs_low vs_high self_low self_high).Families :=
      fun _ _ _ _ hl => absurd hl List.not_mem_nil
    refine ⟨t.hash_rand, hs.ok, rfl, ?_, ?_⟩ <;> rw [hitf]
    · exact hf.addLocalIps _ _
    · exact Interface.Listed.addLocalIps (fun _ _ _ _ hl => absurd hl List.not_mem_nil) hf _
  exact hlocal.hash_rand.symm ▸ hlocal

end Tables

/-! ## A connection stays in the bucket of its self tuple -/

namespace Tables

/-- The connection is in a bucket of the self table, or has been freed since `t₀`. -/
structure Bucketed (t₀ : Tables) (cp b : ℕ) (t : Tables) : Prop where
  /-- The containers agree. -/
  ok : t.Ok
  /-- What has been freed since. -/
  kept : ∃ new, t.freed = t₀.freed ++ new
    ∧ ((∀ e ∈ new, e.1 ≠ cp) → cp ∈ t.self_hashtable b)

/-- **A connection stays in its bucket until it is freed.** -/
theorem stable_bucketed (t₀ : Tables) (cp b : ℕ) : Stable (Bucketed t₀ cp b) := by
  have hsame : ∀ t t', Bucketed t₀ cp b t → t'.Ok → t'.freed = t.freed →
      (cp ∈ t.self_hashtable b → cp ∈ t'.self_hashtable b) → Bucketed t₀ cp b t' := by
    intro t t' h hok hfreed hself
    obtain ⟨new, hnew, hk⟩ := h.kept
    exact ⟨hok, new, hfreed.trans hnew, fun hno => hself (hk hno)⟩
  refine ⟨fun _ h => h.ok, ?_, ?_, ?_, ?_, ?_, ?_⟩
  · intro t clock h htable htotal hwheel
    exact hsame _ _ h (h.ok.of_clock htable htotal hwheel) rfl id
  · intro t t' h ha
    have hself : t'.self_hashtable = t.self_hashtable := by rw [ha.eq]
    exact hsame _ _ h (h.ok.assigns ha) (by rw [ha.eq]) (fun hmem => hself ▸ hmem)
  · intro t t' h ha
    have hself : t'.self_hashtable = t.self_hashtable := by rw [ha]
    exact hsame _ _ h (h.ok.arps ha) (by rw [ha]) (fun hmem => hself ▸ hmem)
  · intro t t' h hn
    have hself : t'.self_hashtable = t.self_hashtable := by rw [hn.eq]
    exact hsame _ _ h (h.ok.notCreated hn) (by rw [hn.eq]) (fun hmem => hself ▸ hmem)
  · intro t pkt vs x t' h _ hc
    refine hsame _ _ h (h.ok.created hc) (by rw [hc.eq]) (fun hmem => ?_)
    rw [hc.eq]
    dsimp only
    split
    · exact mem_bucketAdd_of_mem hmem
    · exact hmem
  · intro t x h hx
    obtain ⟨new, hnew, hk⟩ := h.kept
    refine ⟨h.ok.free hx, new ++ [(x, decide (x ∈ t.live))], ?_, fun hno => ?_⟩
    · rw [connectionFree_eq, ← List.append_assoc, ← hnew]
    · have hmem := hk (fun e he => hno e (List.mem_append_left _ he))
      have hne : cp ≠ x := fun he =>
        hno _ (List.mem_append_right _ (List.mem_singleton_self _)) he.symm
      rw [connectionFree_eq]
      dsimp only
      split
      · exact (List.mem_erase_of_ne hne).mpr hmem
      · exact hmem

/-- What survives packets and timers holds until the connection is freed. -/
theorem UntilFreed.stable {P : Tables → Prop} (hP : Stable P) {t t₂ : Tables} {cp : ℕ}
    {p : Packet} (h : t.UntilFreed cp p t₂) (hcp : cp ∈ t.live) (hstart : P t) : P t₂ := by
  cases h with
  | created => exact hstart
  | later hrun _ _ => exact hrun.invariant hP.step (hP.forward hstart hcp p true)

/-- It has not been freed. -/
theorem UntilFreed.freed {t t₂ : Tables} {cp : ℕ} {p : Packet} (h : t.UntilFreed cp p t₂) :
    ∃ new, t₂.freed = t.freed ++ new ∧ ∀ e ∈ new, e.1 ≠ cp := by
  cases h with
  | created => exact ⟨[], (List.append_nil _).symm, fun _ he => absurd he List.not_mem_nil⟩
  | later _ hfreed hopen => exact ⟨_, hfreed, hopen⟩

/-- A new full-NAT connection stands in the bucket of its self tuple until it is freed. -/
theorem UntilFreed.bucket {t t' t₂ : Tables} {p : Packet} {V cp : ℕ} (hok : t.Ok)
    (hc : Created t p V cp t') (hfull : connectionIsFullnat (t'.conn cp) = true)
    (h : t'.UntilFreed cp p t₂) :
    cp ∈ t₂.self_hashtable ((t'.conn cp).bucket t.hash_rand (Connection.self t'.itf.lip)) := by
  have hok' := hok.created hc
  have hlive : cp ∈ t'.live := by
    rw [hok'.mem_live, hc.outstanding]
    exact List.mem_cons_self
  have hstart : cp ∈ t'.self_hashtable
      ((t'.conn cp).bucket t.hash_rand (Connection.self t'.itf.lip)) := by
    have hself : t'.self_hashtable = bucketAdd t.self_hashtable
        ((t'.conn cp).bucket t.hash_rand (Connection.self t'.itf.lip)) cp := by
      conv_lhs => rw [hc.eq]
      exact if_pos hfull
    rw [hself]
    exact mem_bucketAdd_self _ _ _
  obtain ⟨-, new, hnew, hmem⟩ := h.stable (stable_bucketed t' cp _) hlive
    ⟨hok', [], (List.append_nil _).symm, fun _ => hstart⟩
  obtain ⟨new', hnew', hopen⟩ := h.freed
  obtain rfl := List.append_cancel_left (hnew.symm.trans hnew')
  exact hmem hopen

end Tables

/-- **A packet to a self address and port finds the connection that holds them**, if no other
does. -/
theorem processFindConnection_self {t : Tables} {r : Packet} {cp : ℕ}
    (hproto : r.protocol_ip ≠ 0)
    (hvs : ngInterfaceLookupVsip t.hash_rand t.itf r.daddr.ip = none)
    (hself : (ngInterfaceLookupSelfip t.hash_rand t.itf r.daddr.ip).isSome = true)
    (hmem : cp ∈ t.searchedBucket r.daddr.ip r.daddr.port r.protocol_ip false)
    (hsame : sameAddr (Connection.self t.itf.lip) r.daddr.ip r.daddr.port t.conn cp = true)
    (hone : ∀ x ∈ t.liveSelf,
      sameAddr (Connection.self t.itf.lip) r.daddr.ip r.daddr.port t.conn x = true → x = cp)
    (malloc : Option ℕ) :
    processFindConnection malloc t r = (.connection cp false, t.setProtocol cp r.protocol_ip) := by
  have hno : (ngInterfaceLookupSelfip t.hash_rand t.itf r.daddr.ip).isNone = false := by
    rw [← Option.not_isSome, hself]
    rfl
  rw [processFindConnection, hvs,
    if_neg (show ¬ (none : Option ℕ).isSome = true from Bool.false_ne_true), processFindServer, hno]
  have hnone := @connectionLookup_none t r.daddr.ip r.daddr.port r.protocol_ip false hproto
  have hsome := fun y =>
    @connectionLookup_some t r.daddr.ip r.daddr.port r.protocol_ip false y
  generalize connectionLookup t r.daddr.ip r.daddr.port r.protocol_ip false = found at hnone hsome
  obtain ⟨found, t'⟩ := found
  cases found with
  | none => exact absurd hsame (Bool.eq_false_iff.mp ((hnone rfl).2 cp hmem))
  | some y =>
    obtain ⟨hlive, hyes, ht'⟩ := hsome y rfl
    obtain rfl := hone y (t.searched_false ▸ hlive) hyes
    exact congrArg (Prod.mk _) ht'

/-! ## There and back -/

/-- Every host keeps a frame, and reads it as a packet of a tuple. -/
structure ReadsTuple (m : Memory) (a : FiveTuple) : Prop where
  /-- It is kept. -/
  kept : ∀ (garbage : UInt16 × UInt16) (raw : Packet), raw.data = m →
    ∃ q, KeptAsIp garbage raw q
  /-- What is read of it. -/
  tuple : ∀ q, ReadAs m q → q.tuple = a

/-- A packet that is sent rewritten is read as what it was rewritten to. -/
theorem readsTuple_processRewrite (t : Tables) (c : Connection) {p : Packet}
    (hacc : PacketAccepted p) (hip : packetIsIp p = true) (hproto : HasPorts p.protocol_ip)
    (is_client : Bool) :
    ReadsTuple (processRewrite t c p is_client).data
      ⟨p.family, p.protocol_ip, (processRewrite t c p is_client).frameSource,
        (processRewrite t c p is_client).frameDest⟩ := by
  have hf := hacc.ipFields hip
  have heq := processRewrite_fields t c p is_client
  obtain ⟨hkept, htuple⟩ := readAs_rewritten hacc hip hproto heq
    (fun i => processRewrite_frame t c hf is_client)
  refine ⟨hkept, fun q hq => (htuple q hq).trans ?_⟩
  generalize processRewrite t c p is_client = out at heq
  rw [heq]
  rfl

/-- Addresses equal as far as they are compared. -/
theorem ipAddressEq_of_normal {a b : IpAddress} (h : a.normal = b.normal) :
    ipAddressEq a b = true := by
  have hn : ∀ a : IpAddress, ipAddressEq a a.normal = true := by
    intro a
    rw [IpAddress.normal]
    split
    · rename_i h4
      exact ipAddressEq_iff.mpr ⟨h4, rfl, fun hno => absurd h4 hno⟩
    · exact ipAddressEq_refl a
  exact ipAddressEq_trans (h ▸ hn a) (ipAddressEq_symm (hn b))

/-- A packet of its own family carries an address whole. -/
theorem addrAs_eq_normal {ip : IpAddress} {family : ℕ} (hip : ip.family = family)
    (hfam : family ≠ afInet → family = afInet6) : addrAs (family == afInet) ip = ip.normal := by
  obtain rfl := hip
  unfold addrAs IpAddress.normal
  by_cases h4 : ip.family = afInet
  · rw [if_pos (beq_iff_eq.mpr h4), if_pos h4]
  · rw [if_neg (by simpa using h4), if_neg h4, ← hfam h4]

/-- What a server knows a packet of a full-NAT connection by: it comes from the self address
and goes to the server's own. -/
def Connection.serverTuple (t : Tables) (c : Connection) (p : Packet) : FiveTuple where
  family := p.family
  protocol := p.protocol_ip
  source := ⟨(c.self t.itf.lip).ip.normal, (c.self t.itf.lip).port⟩
  dest := ⟨(serverAt t.pool c.server).addr.ip.normal, (serverAt t.pool c.server).addr.port⟩

/-- **The answer to a packet of a full-NAT connection goes to its client.** -/
structure AnsweredTo (t₂ : Tables) (malloc : Option ℕ) (p r back : Packet) : Prop where
  /-- It is the driver's. -/
  stolen : (processIpPacket malloc t₂ r).1 = .stolen
  /-- It is sent. -/
  sent : (processIpPacket malloc t₂ r).2.2.sent = t₂.sent ++ [back]
  /-- The client reads it as the answer to what it sent. -/
  tuple : ReadsTuple back.data p.tuple.reverse
  /-- It goes to where the client's packet came from. -/
  dest_mac : loadMac back.data 0 = loadMac p.data 6
  /-- It leaves by the adapter the client's packet came in on. -/
  adapter_idx : back.adapter_idx = p.adapter_idx

section Answer

variable {t t' t₂ : Tables} {p r : Packet} {V cp : ℕ}

/-- **An answer finds the connection**: until it is freed, a packet of its protocol to its self
address and port, if no other connection holds them. -/
theorem processFindConnection_answer (h : processSystem.Reachable t) (hV : ToVserver t p V)
    (hc : Created t p V cp t') (hfull : connectionIsFullnat (t'.conn cp) = true)
    {k : ℕ} (hlist : (t'.conn cp).self_addr ∈ t.itf.nic k false (packetIsIpv4 p))
    (hvs : ngInterfaceLookupVsip t.hash_rand t.itf ((t'.conn cp).self t'.itf.lip).ip = none)
    (huntil : t'.UntilFreed cp p t₂)
    (hone : ∀ x ∈ t₂.liveSelf, sameAddr (Connection.self t₂.itf.lip)
      ((t'.conn cp).self t'.itf.lip).ip ((t'.conn cp).self t'.itf.lip).port t₂.conn x = true →
      x = cp)
    (hr : PacketAccepted r) (hrip : packetIsIp r = true)
    (hprotocol : r.protocol_ip = p.protocol_ip)
    (hdest : r.tuple.dest = ⟨((t'.conn cp).self t'.itf.lip).ip.normal,
      ((t'.conn cp).self t'.itf.lip).port⟩) (malloc : Option ℕ) :
    processFindConnection malloc t₂ r
      = (.connection cp false, t₂.setProtocol cp r.protocol_ip) := by
  have hok := Tables.ok_of_reachable h
  have hok' := hok.created hc
  have hlocal := Tables.local_of_reachable h
  have hlive : cp ∈ t'.live := by
    rw [hok'.mem_live, hc.outstanding]
    exact List.mem_cons_self
  have hkeeps := huntil.keeps hok' hlive
  have hmem := huntil.bucket hok hc hfull
  have hrand : t₂.hash_rand = t.hash_rand :=
    (huntil.stable (Tables.stable_local t.hash_rand) hlive
      ((Tables.stable_local t.hash_rand).created _ _ _ _ _ hlocal hV hc)).hash_rand
  obtain ⟨proto, state, hconn⟩ := hkeeps.conn
  have hselfc : (t₂.conn cp).self t₂.itf.lip = (t'.conn cp).self t'.itf.lip := by
    rw [hconn]
    exact congrArg₂ NetAddress.mk (hkeeps.itf.addr _) rfl
  have haddr : (t.itf.lip (t'.conn cp).self_addr).addr = ((t'.conn cp).self t'.itf.lip).ip :=
    (hc.itf.addr _).symm
  have hbucket : (t'.conn cp).bucket t.hash_rand (Connection.self t'.itf.lip)
      = connectionHashkey t.hash_rand ((t'.conn cp).self t'.itf.lip).ip
        ((t'.conn cp).self t'.itf.lip).port.toUInt32 r.protocol_ip.toUInt32 := by
    rw [hprotocol, ← (vserverLookup_eq hV.lookup).2, ← hc.setUp.protocol]
    rfl
  rw [hbucket] at hmem
  generalize (t'.conn cp).self t'.itf.lip = self at *
  have hip : ipAddressEq r.daddr.ip self.ip = true :=
    ipAddressEq_of_normal (congrArg NetAddress.ip hdest)
  have hport : r.daddr.port = self.port := by
    have hports := congrArg NetAddress.port hdest
    exact hports
  have hitf := hc.itf.trans hkeeps.itf
  have hsame : ∀ x, sameAddr (Connection.self t₂.itf.lip) r.daddr.ip r.daddr.port t₂.conn x
      = sameAddr (Connection.self t₂.itf.lip) self.ip self.port t₂.conn x := by
    intro x
    rw [sameAddr, sameAddr, hport, Bool.eq_iff_iff, Bool.and_eq_true, Bool.and_eq_true]
    exact and_congr_left' ⟨fun he => ipAddressEq_trans he hip,
      fun he => ipAddressEq_trans he (ipAddressEq_symm hip)⟩
  refine processFindConnection_self (hr.protocol_ne_zero hrip) ?_ ?_ ?_ ?_
    (fun x hx he => hone x hx ((hsame x).symm.trans he)) malloc
  · rw [ngInterfaceLookupVsip, hrand, hitf.lookup, interfaceLookup_congr _ _ hip]
    exact hvs
  · rw [ngInterfaceLookupSelfip, hrand, hitf.lookup, interfaceLookup_congr _ _ hip, ← haddr]
    exact hlocal.listed.lookup hlocal.families hlist
  · show cp ∈ t₂.self_hashtable (connectionHashkey t₂.hash_rand r.daddr.ip _ _)
    rw [hport, hrand, connectionHashkey, ipPortProtoHash_congr _ _ _ hip]
    exact hmem
  · rw [hsame, sameAddr, hselfc, ipAddressEq_refl, beq_self_eq_true]
    rfl

/-- **An answer is sent to the client**, which reads it as one to what it sent. -/
theorem answeredTo_of_find (hp : PacketAccepted p) (hip : packetIsIp p = true)
    (hproto : HasPorts p.protocol_ip) (hV : ToVserver t p V) (hc : Created t p V cp t')
    (hfull : connectionIsFullnat (t'.conn cp) = true) (hkeeps : t'.KeepsConnection t₂ cp)
    (hr : PacketAccepted r) (hrip : packetIsIp r = true) (hfamily : r.family = p.family)
    (hprotocol : r.protocol_ip = p.protocol_ip) {malloc : Option ℕ}
    (hfind : processFindConnection malloc t₂ r
      = (.connection cp false, t₂.setProtocol cp r.protocol_ip)) :
    ∃ back, AnsweredTo t₂ malloc p r back := by
  have hset := hc.setUp
  have hpf := hp.ipFields hip
  have hrf := hr.ipFields hrip
  obtain ⟨proto, state, hconn⟩ := hkeeps.conn
  obtain ⟨l, hl⟩ := Option.isSome_iff_exists.mp hV.vsip
  set t₃ := t₂.setProtocol cp r.protocol_ip with ht₃
  have hconn₃ : t₃.conn cp = { t'.conn cp with protocol := r.protocol_ip, state := state } := by
    rw [ht₃, Tables.conn_setProtocol, hconn]
  have hback : SentBack p r (processRewrite t₃ (t₃.conn cp) r false) := by
    refine sentBack_processRewrite hpf hproto hrf hfamily ?_ ?_ ?_ ?_ ?_ ?_ <;> rw [hconn₃]
    · exact hfull
    · show ipAddressEq p.daddr.ip (t₂.itf.lip ((t'.conn cp).vs_addr.getD 0)).addr = true
      rw [hset.vs_addr, hl, hkeeps.itf.addr, Option.getD_some, hc.itf.addr]
      exact interfaceLookup_eq hl
    · show (t₂.vservers.vserver (t'.conn cp).vs).port = p.daddr.port
      rw [hkeeps.vservers, hset.vs_eq, hc.eq]
      exact (vserverLookup_eq hV.lookup).1
    · exact hset.client
    · exact hset.mac
    · exact hset.adapter
  have hread := readsTuple_processRewrite t₃ (t₃.conn cp) hr hrip (hprotocol ▸ hproto) false
  have hmac_header : (processRewrite t₃ (t₃.conn cp) r false).mac_header = 0 := by
    rw [processRewrite_fields]
    exact hrf.mac_header
  have hsent := sent_processIpPacket hfind
  generalize processRewrite t₃ (t₃.conn cp) r false = back at hback hread hmac_header hsent
  refine ⟨back, stolen_of_find (congrArg Prod.fst hfind), hsent, ?_, ?_, hback.adapter_idx⟩
  · rw [(hp.readAs hip).tuple_eq hproto]
    rw [hback.source, hback.dest, hfamily, hprotocol] at hread
    exact hread
  · have hmac := hback.dest_mac
    rwa [hmac_header, hpf.mac_header] at hmac

end Answer

/-- **An exchange through a full-NAT virtual server.** The packet of a client for which a
connection is created is sent, and every host reads it as one from the self address of the
connection to its server's address and port; and until the connection is freed, a packet that
answers what was read is sent to the client, which reads it as the answer to what it sent,
whatever other packets and timers were processed in between. The self address is of one of the
two families (`ng_add_ip` takes any number) and no virtual server's, and the server is of the
packet's family: a pool takes servers of either. -/
theorem fullnat_exchange {t t' : Tables} (h : processSystem.Reachable t) {malloc : Option ℕ}
    (hm : t.conn_mem_pool.MallocOk malloc) {p : Packet} (hp : PacketAccepted p)
    (hip : packetIsIp p = true) (hproto : HasPorts p.protocol_ip) {V : ℕ} (hV : ToVserver t p V)
    (hfull : (t.vservers.vserver V).is_fullnat ≠ 0) {cp : ℕ} (hnew : cp ∉ t.live)
    (hfind : processFindConnection malloc t p = (.connection cp true, t'))
    (hknown : ((t'.conn cp).self t'.itf.lip).ip.family = afInet
      ∨ ((t'.conn cp).self t'.itf.lip).ip.family = afInet6)
    (hvs : ngInterfaceLookupVsip t.hash_rand t.itf ((t'.conn cp).self t'.itf.lip).ip = none)
    (hserver : (serverAt t'.pool (t'.conn cp).server).addr.ip.family = p.family) :
    ∃ out, (processIpPacket malloc t p).2.2.sent = t.sent ++ [out]
      ∧ ReadsTuple out.data ((t'.conn cp).serverTuple t' p)
      ∧ ∀ t₂, t'.UntilFreed cp p t₂ →
        (∀ x ∈ t₂.liveSelf, sameAddr (Connection.self t₂.itf.lip)
          ((t'.conn cp).self t'.itf.lip).ip ((t'.conn cp).self t'.itf.lip).port t₂.conn x = true →
          x = cp) →
        ∀ r, PacketAccepted r → packetIsIp r = true →
          r.tuple = ((t'.conn cp).serverTuple t' p).reverse →
          ∀ malloc₂, ∃ back, AnsweredTo t₂ malloc₂ p r back := by
  have hok := Tables.ok_of_reachable h
  have hsearch := @searches_processFindConnection malloc t hok p (hp.protocol_ne_zero hip)
  rw [hfind] at hsearch
  -- the connection is new
  obtain ⟨V', hV', hcreate⟩ : ∃ V', ToVserver t p V'
      ∧ connectionCreate malloc t p V' = (some cp, t') := by
    cases hsearch with
    | nothing hno => exact absurd rfl (hno cp true)
    | created hV' _ hcreate => exact ⟨_, hV', hcreate⟩
    | found hlive _ => exact absurd hlive hnew
  obtain rfl : V' = V := Option.some.inj (hV'.lookup.symm.trans hV.lookup)
  have hc : Created t p V' cp t' := by
    have hspec := connectionCreate_spec hok.mem hm hok.ranges p V'
    rw [hcreate] at hspec
    exact hspec
  have hok' := hok.created hc
  have hlive : cp ∈ t'.live := by
    rw [hok'.mem_live, hc.outstanding]
    exact List.mem_cons_self
  have hfullc : connectionIsFullnat (t'.conn cp) = true :=
    hc.setUp.fullnat.trans (bne_iff_ne.mpr hfull)
  obtain ⟨k, hlist⟩ := connectionCreate_self hcreate hfullc
  -- the self address is of the family of the packet
  have hself : ((t'.conn cp).self t'.itf.lip).ip.family = p.family := by
    have haddr : ((t'.conn cp).self t'.itf.lip).ip = (t.itf.lip (t'.conn cp).self_addr).addr :=
      hc.itf.addr _
    have hfam : ipAddressIsIpv4 ((t'.conn cp).self t'.itf.lip).ip = packetIsIpv4 p := by
      rw [haddr]
      exact ((Tables.local_of_reachable h).families k false _ _ hlist).2
    by_cases h4 : p.family = afInet
    · exact (beq_iff_eq.mp (hfam.trans (beq_iff_eq.mpr h4))).trans h4.symm
    · rw [((hp.ipFields hip).ipv6 h4).1]
      exact hknown.resolve_left fun hno => h4 (beq_iff_eq.mp (hfam.symm.trans (beq_iff_eq.mpr hno)))
  have hread := readsTuple_processRewrite t' (t'.conn cp) hp hip hproto true
  have hsent := sent_processIpPacket hfind
  have htr := translated_processRewrite t' (t'.conn cp) (hp.ipFields hip) true
  generalize processRewrite t' (t'.conn cp) p true = out at hread hsent htr
  -- both addresses are of the family of the packet, which carries them whole
  have hcarried : ∀ {ip : IpAddress}, ip.family = p.family →
      addrAs (packetIsIpv4 p) ip = ip.normal :=
    fun hip4 => addrAs_eq_normal hip4 fun h4 => ((hp.ipFields hip).ipv6 h4).1
  have hsource : out.frameSource = ⟨((t'.conn cp).self t'.itf.lip).ip.normal,
      ((t'.conn cp).self t'.itf.lip).port⟩ :=
    congrArg₂ NetAddress.mk
      ((htr.source_ip.trans ((if_pos rfl).trans (if_pos hfullc))).trans (hcarried hself))
      (htr.source_port.trans ((if_pos rfl).trans (if_pos hfullc)))
  have hdest : out.frameDest = ⟨(serverAt t'.pool (t'.conn cp).server).addr.ip.normal,
      (serverAt t'.pool (t'.conn cp).server).addr.port⟩ :=
    congrArg₂ NetAddress.mk ((htr.dest_ip.trans (if_pos rfl)).trans (hcarried hserver))
      (htr.dest_port.trans (if_pos rfl))
  rw [hsource, hdest] at hread
  refine ⟨out, ?_, hread, ?_⟩
  · rw [hsent, hc.eq]
  · intro t₂ huntil hone r hr hrip hanswer malloc₂
    have hfamily : r.family = p.family := congrArg FiveTuple.family hanswer
    have hprotocol : r.protocol_ip = p.protocol_ip := congrArg FiveTuple.protocol hanswer
    exact answeredTo_of_find hp hip hproto hV hc hfullc (huntil.keeps hok' hlive) hr hrip hfamily
      hprotocol (processFindConnection_answer h hV hc hfullc hlist hvs huntil hone hr hrip
        hprotocol (congrArg FiveTuple.dest hanswer) malloc₂)

/-- The first packet of `10.0.0.3`, and what the server at `10.0.0.4` answers to it. -/
theorem fullnat_exchange_first :
    ∃ out back, (processIpPacket (some 0x100000) (twoVservers (twoIps 1024 1027) 1)
        (tcpPacket 3 1 [4, 133] [0, 80] 2)).2.2.sent = [out]
      ∧ ReadsTuple out.data (tcpPacket 4 2 [0, 80] [4, 0] 18).tuple.reverse
      ∧ AnsweredTo
        (processIpPacket (some 0x100000) (twoVservers (twoIps 1024 1027) 1)
          (tcpPacket 3 1 [4, 133] [0, 80] 2)).2.2
        none (tcpPacket 3 1 [4, 133] [0, 80] 2) (tcpPacket 4 2 [0, 80] [4, 0] 18) back := by
  have hstart : processSystem.Reachable (twoVservers (twoIps 1024 1027) 1) :=
    System.Reachable.of_init (started_twoVservers 1024 1027 1)
  have hfind : ∃ t', processFindConnection (some 0x100000) (twoVservers (twoIps 1024 1027) 1)
      (tcpPacket 3 1 [4, 133] [0, 80] 2) = (.connection 0x1fff80 true, t') :=
    ⟨_, Prod.ext (by decide +kernel) rfl⟩
  obtain ⟨t', hfind⟩ := hfind
  have ht' : t' = (processFindConnection (some 0x100000) (twoVservers (twoIps 1024 1027) 1)
      (tcpPacket 3 1 [4, 133] [0, 80] 2)).2 := by rw [hfind]
  have hnew : 0x1fff80 ∉ (twoVservers (twoIps 1024 1027) 1).live := by
    rw [Tables.live, twoVservers, connectionModuleInit, linked_nil]
    exact List.not_mem_nil
  obtain ⟨out, hsent, hread, hanswer⟩ := fullnat_exchange hstart (mallocOk_twoVservers _ 1 0x100000)
    (accepted_tcpPacket 3 1 [4, 133] [0, 80] 2) (tcpPacket_isTcp 3 1 [4, 133] [0, 80] 2).1
    (Or.inl (by decide +kernel)) (V := 0) ⟨by decide +kernel, by decide +kernel⟩
    (by decide +kernel) hnew hfind (Or.inl (by rw [ht']; decide +kernel))
    (by rw [ht']; decide +kernel) (by rw [ht']; decide +kernel)
  have hok : (processForward t' 0x1fff80 (tcpPacket 3 1 [4, 133] [0, 80] 2) true).2.2.Ok := by
    refine Tables.ok_of_reachable (hstart.step (show processSystem.step _ (.packet (some 0x100000)
      (tcpPacket 3 1 [4, 133] [0, 80] 2)) _ from ⟨accepted_tcpPacket 3 1 [4, 133] [0, 80] 2,
        mallocOk_twoVservers _ 1 0x100000, ?_⟩))
    rw [mainProcessPackets, if_pos (tcpPacket_isTcp 3 1 [4, 133] [0, 80] 2).1, processIpPacket,
      hfind]
  have hfreed : (processForward t' 0x1fff80 (tcpPacket 3 1 [4, 133] [0, 80] 2) true).2.2.freed
      = t'.freed ++ [] := by
    rw [ht']
    decide +kernel
  have hout : (processForward t' 0x1fff80 (tcpPacket 3 1 [4, 133] [0, 80] 2)
      true).2.2.conn_mem_pool.outstanding = [0x1fff80] := by
    rw [ht']
    decide +kernel
  -- what the server answers is the reverse of what it reads
  have htuple : (tcpPacket 4 2 [0, 80] [4, 0] 18).tuple
      = ((t'.conn 0x1fff80).serverTuple t' (tcpPacket 3 1 [4, 133] [0, 80] 2)).reverse := by
    rw [ht']
    decide +kernel
  obtain ⟨back, hback⟩ := hanswer
    (processForward t' 0x1fff80 (tcpPacket 3 1 [4, 133] [0, 80] 2) true).2.2
    (.later .nil hfreed (fun _ he => absurd he List.not_mem_nil))
    (fun x hx _ => by
      have hlive := hok.mem_live.mp (hok.mem_liveSelf.mp hx).1
      rw [hout] at hlive
      exact List.mem_singleton.mp hlive)
    _ (accepted_tcpPacket 4 2 [0, 80] [4, 0] 18) (tcpPacket_isTcp 4 2 [0, 80] [4, 0] 18).1 htuple
    none
  refine ⟨out, back, hsent, ?_, ?_⟩
  · rw [htuple, FiveTuple.reverse_reverse]
    exact hread
  · rw [processIpPacket, hfind]
    exact hback
