import Ustack.Arp
import Ustack.Runs

/-!
# Routes and MAC addresses learned from ARP

What `arp_server_route` of `src/arp.c` makes of the replies of the servers. A reply is news
if there is no route to its server *by its NIC*; then a route is added and the MAC address
stored. But `rt_add_entry` refuses a route to an address that has one by *any* NIC, and the
MAC address is stored all the same. So routes and MAC addresses agree as long as a server
answers on one NIC only, and no longer (`arpSystem_agree_iff`).

`HasRoute` is what the three lookups of a route have in common: an entry for the address by
a NIC, wherever in its bucket the rotation has left it.
-/

section Routes

variable (hashRand : UInt32)

/-- The table has an entry for the address by the NIC. -/
def HasRoute (rt : RouteTable) (ip : IpAddress) (nic_id : ℕ) : Prop :=
  ∃ re ∈ rt (rtHashkey hashRand ip), ipAddressEq re.addr ip = true ∧ re.nic_id = nic_id

/-- The table after so many lookups of an address going round. -/
def rtRotated (rt : RouteTable) (ip : IpAddress) : ℕ → RouteTable
  | 0 => rt
  | n + 1 => (ngRtLookupRr hashRand (rtRotated rt ip n) ip).2

variable {hashRand} {rt : RouteTable} {a b ip : IpAddress} {nic_id : ℕ} {rr_enable : Bool}

theorem rtHashkey_congr (h : ipAddressEq a b = true) :
    rtHashkey hashRand a = rtHashkey hashRand b := by
  rw [rtHashkey, rtHashkey, ipAddressHash_congr hashRand h]

theorem HasRoute.congr (h : ipAddressEq a b = true) (hr : HasRoute hashRand rt a nic_id) :
    HasRoute hashRand rt b nic_id := by
  obtain ⟨re, hre, hip, hnic⟩ := hr
  exact ⟨re, rtHashkey_congr h ▸ hre, ipAddressEq_trans hip h, hnic⟩

/-- A lookup answers an entry of the address. -/
theorem hasRoute_of_lookup {nic : Option ℕ} {re : RouteEntry}
    (h : (rtLookup hashRand rt ip rr_enable nic).1 = some re) :
    HasRoute hashRand rt ip re.nic_id := by
  have hfind : (rt (rtHashkey hashRand ip)).find? (routeMatches ip nic) = some re := by
    rw [rtLookup] at h
    cases hf : (rt (rtHashkey hashRand ip)).find? (routeMatches ip nic) with
    | none =>
      rw [hf] at h
      exact absurd h (Option.some_ne_none re).symm
    | some re' =>
      rw [hf] at h
      exact h
  have hmatch := List.find?_some hfind
  simp only [routeMatches, Bool.and_eq_true] at hmatch
  exact ⟨re, List.mem_of_find?_eq_some hfind, hmatch.2, rfl⟩

/-- **A lookup without a NIC** finds an entry if there is one. -/
theorem rtLookup_isSome_iff :
    (rtLookup hashRand rt ip rr_enable none).1.isSome = true
      ↔ ∃ nic_id, HasRoute hashRand rt ip nic_id := by
  refine ⟨fun h => ?_, fun ⟨nic_id, re, hre, hip, _⟩ => ?_⟩
  · obtain ⟨re, hre⟩ := Option.isSome_iff_exists.mp h
    exact ⟨re.nic_id, hasRoute_of_lookup hre⟩
  · have hfind : ((rt (rtHashkey hashRand ip)).find? (routeMatches ip none)).isSome = true :=
      List.find?_isSome.mpr ⟨re, hre, by simpa [routeMatches] using hip⟩
    obtain ⟨re', hre'⟩ := Option.isSome_iff_exists.mp hfind
    rw [rtLookup, hre']
    rfl

/-- **A lookup by a NIC** finds an entry by it if there is one. -/
theorem ngRtLookupWithNicId_isSome_iff :
    (ngRtLookupWithNicId hashRand rt ip nic_id).isSome = true
      ↔ HasRoute hashRand rt ip nic_id := by
  have hfind : (ngRtLookupWithNicId hashRand rt ip nic_id).isSome
      = ((rt (rtHashkey hashRand ip)).find? (routeMatches ip (some nic_id))).isSome := by
    rw [ngRtLookupWithNicId, rtLookup]
    cases (rt (rtHashkey hashRand ip)).find? (routeMatches ip (some nic_id)) <;> rfl
  rw [hfind, List.find?_isSome]
  refine exists_congr (fun re => and_congr_right (fun _ => ?_))
  simp only [routeMatches, Option.isNone_some, Bool.false_or, Bool.and_eq_true, beq_iff_eq,
    Option.some.injEq]
  exact ⟨fun ⟨hnic, hip⟩ => ⟨hip, hnic.symm⟩, fun ⟨hip, hnic⟩ => ⟨hnic.symm, hip⟩⟩

/-- A lookup going round only reorders the entries. -/
theorem hasRoute_rotated {ip' : IpAddress} (n : ℕ) :
    HasRoute hashRand (rtRotated hashRand rt ip n) ip' nic_id
      ↔ HasRoute hashRand rt ip' nic_id := by
  have hperm : ∀ n i, (rtRotated hashRand rt ip n i).Perm (rt i) := by
    intro n
    induction n with
    | zero => exact fun i => List.Perm.refl _
    | succ n ih =>
      intro i
      refine List.Perm.trans ?_ (ih i)
      rw [rtRotated, ngRtLookupRr, rtLookup]
      cases hf : (rtRotated hashRand rt ip n (rtHashkey hashRand ip)).find?
          (routeMatches ip none) with
      | none => exact List.Perm.refl _
      | some re =>
        show (Function.update (rtRotated hashRand rt ip n) (rtHashkey hashRand ip) _ i).Perm _
        by_cases hi : i = rtHashkey hashRand ip
        · rw [hi, Function.update_self]
          refine (List.perm_append_singleton re _).trans ?_
          obtain ⟨hmatch, l₁, l₂, hl, hbefore⟩ := List.find?_eq_some_iff_append.mp hf
          rw [hl, List.eraseP_append_right _ (fun x hx => by simpa using hbefore x hx),
            List.eraseP_cons_of_pos hmatch]
          exact List.perm_middle.symm
        · rw [Function.update_of_ne hi]
  refine exists_congr (fun re => and_congr_left (fun _ => ?_))
  exact (hperm n _).mem_iff

/-- An address with a route is not added again. -/
theorem rtAddEntry_of_hasRoute {nic nic_id : ℕ} (h : HasRoute hashRand rt ip nic_id) :
    rtAddEntry hashRand rt ⟨ip, nic⟩ = rt := by
  rw [rtAddEntry, if_pos (rtLookup_isSome_iff.mpr ⟨nic_id, h⟩)]

/-- **A new route**, where there was none to its address. -/
theorem hasRoute_rtAddEntry {nic : ℕ} (h : ∀ nic_id, ¬ HasRoute hashRand rt a nic_id) :
    HasRoute hashRand (rtAddEntry hashRand rt ⟨a, nic⟩) ip nic_id
      ↔ HasRoute hashRand rt ip nic_id ∨ (ipAddressEq a ip = true ∧ nic = nic_id) := by
  have hadd : rtAddEntry hashRand rt ⟨a, nic⟩
      = bucketAdd rt (rtHashkey hashRand a) ⟨a, nic⟩ := by
    rw [rtAddEntry, if_neg (fun hsome => ?_)]
    obtain ⟨nic_id, hroute⟩ := rtLookup_isSome_iff.mp hsome
    exact h nic_id hroute
  rw [hadd]
  constructor
  · rintro ⟨re, hre, hip, hnic⟩
    by_cases he : re = ⟨a, nic⟩
    · rw [he] at hip hnic
      exact Or.inr ⟨hip, hnic⟩
    · exact Or.inl ⟨re, (mem_bucketAdd_of_ne he).mp hre, hip, hnic⟩
  · rintro (⟨re, hre, hip, hnic⟩ | ⟨hip, hnic⟩)
    · exact ⟨re, mem_bucketAdd_of_mem hre, hip, hnic⟩
    · refine ⟨⟨a, nic⟩, ?_, hip, hnic⟩
      rw [← rtHashkey_congr hip]
      exact mem_bucketAdd_self _ _ _

end Routes

/-- The hash seed is no part of what ARP touches. -/
theorem Tables.Arps.hash_rand {t t' : Tables} (h : t.Arps t') : t'.hash_rand = t.hash_rand := by
  obtain ⟨rt, pool, sent, rfl⟩ : ∃ rt pool sent, t' =
    { t with rt := rt, pool := pool, sent := sent } := ⟨_, _, _, h⟩
  rfl

/-- **The server after its MAC address is set**, and every other one. -/
theorem serverAt_serverSetMac (pool : ℕ → ServerPool) (srv s : ServerPtr) (mac : Mac) :
    serverAt (serverSetMac pool srv mac) s
      = if s = srv then { serverAt pool srv with mac := mac } else serverAt pool s := by
  rw [serverAt, serverSetMac]
  by_cases hp : s.1 = srv.1
  · rw [hp, Function.update_self]
    dsimp only
    by_cases hi : s.2 = srv.2
    · rw [hi, Function.update_self, if_pos (Prod.ext hp hi)]
    · rw [Function.update_of_ne hi, if_neg (fun he => hi (congrArg Prod.snd he)), serverAt, hp]
  · rw [Function.update_of_ne hp, if_neg (fun he => hp (congrArg Prod.fst he)), serverAt]

/-! ## A reply -/

/-- The NIC a packet came in on. -/
def Packet.nic (pkt : Packet) : ℕ := pkt.adapter_idx.toNat

/-- The MAC address a reply announces. -/
def Packet.announced (pkt : Packet) : Mac := loadMac pkt.data (pkt.network_header + 8)

/-- The server has the address a packet is from. -/
def Tables.isSender (t : Tables) (pkt : Packet) (srv : ServerPtr) : Bool :=
  ipAddressEq (serverAt t.pool srv).addr.ip pkt.saddr.ip

section Reply

variable {t : Tables} {pkt : Packet} {srv : ServerPtr} {servers : List ServerPtr}

theorem arpServerRouteTo_of_not (h : t.isSender pkt srv = false) :
    arpServerRouteTo pkt t srv = t := by
  rw [arpServerRouteTo]
  dsimp only
  rw [if_neg (Bool.not_eq_true _ ▸ h)]

/-- **With a route by this NIC** nothing is done. -/
theorem arpServerRouteTo_of_route
    (h : HasRoute t.hash_rand t.rt pkt.saddr.ip pkt.nic) :
    arpServerRouteTo pkt t srv = t := by
  rw [arpServerRouteTo]
  dsimp only
  split
  · rename_i hsender
    have hroute : HasRoute t.hash_rand t.rt (serverAt t.pool srv).addr.ip pkt.adapter_idx.toNat :=
      h.congr (ipAddressEq_symm hsender)
    obtain ⟨re, hre⟩ := Option.isSome_iff_exists.mp (ngRtLookupWithNicId_isSome_iff.mpr hroute)
    rw [hre]
    rfl
  · rfl

/-- **Without one** the server is given a route, if it can, and the MAC address. -/
theorem arpServerRouteTo_of_sender (h : t.isSender pkt srv = true)
    (hroute : ¬ HasRoute t.hash_rand t.rt pkt.saddr.ip pkt.nic) :
    arpServerRouteTo pkt t srv = { t with
      rt := rtAddEntry t.hash_rand t.rt ⟨(serverAt t.pool srv).addr.ip, pkt.nic⟩
      pool := serverSetMac t.pool srv pkt.announced } := by
  have hnone : (ngRtLookupWithNicId t.hash_rand t.rt (serverAt t.pool srv).addr.ip
      pkt.adapter_idx.toNat).isNone = true := by
    rw [← Option.not_isSome, Bool.not_eq_true', ← Bool.not_eq_true,
      ngRtLookupWithNicId_isSome_iff]
    exact fun hr => hroute (hr.congr h)
  have hsender : ipAddressEq (serverAt t.pool srv).addr.ip pkt.saddr.ip = true := h
  rw [arpServerRouteTo]
  dsimp only
  rw [if_pos hsender, if_pos hnone]
  rfl

/-- A reply by the NIC of the route changes nothing. -/
theorem foldl_of_route (h : HasRoute t.hash_rand t.rt pkt.saddr.ip pkt.nic) :
    servers.foldl (arpServerRouteTo pkt) t = t := by
  induction servers with
  | nil => rfl
  | cons srv servers ih => rw [List.foldl_cons, arpServerRouteTo_of_route h, ih]

/-- **A first reply** is for the first server of the address. -/
theorem foldl_of_no_route
    (h : ∀ nic_id, ¬ HasRoute t.hash_rand t.rt pkt.saddr.ip nic_id) :
    servers.foldl (arpServerRouteTo pkt) t
      = match servers.find? (t.isSender pkt) with
        | none => t
        | some srv => { t with
            rt := rtAddEntry t.hash_rand t.rt ⟨(serverAt t.pool srv).addr.ip, pkt.nic⟩
            pool := serverSetMac t.pool srv pkt.announced } := by
  induction servers with
  | nil => rfl
  | cons srv servers ih =>
    rw [List.foldl_cons, List.find?_cons]
    cases hsender : t.isSender pkt srv with
    | false => rw [arpServerRouteTo_of_not hsender, ih]
    | true =>
      rw [arpServerRouteTo_of_sender hsender (h _)]
      have hnone : ∀ nic_id, ¬ HasRoute t.hash_rand t.rt (serverAt t.pool srv).addr.ip nic_id :=
        fun nic_id hr => h nic_id (hr.congr hsender)
      have hadded : HasRoute t.hash_rand
          (rtAddEntry t.hash_rand t.rt ⟨(serverAt t.pool srv).addr.ip, pkt.nic⟩)
          pkt.saddr.ip pkt.nic :=
        (hasRoute_rtAddEntry hnone).mpr (Or.inr ⟨hsender, rfl⟩)
      -- from here on there is a route by this NIC
      exact foldl_of_route (t := { t with
        rt := rtAddEntry t.hash_rand t.rt ⟨(serverAt t.pool srv).addr.ip, pkt.nic⟩
        pool := serverSetMac t.pool srv pkt.announced }) hadded

/-- **A reply by another NIC** adds no route. -/
theorem foldl_rt_of_other {nic_id : ℕ}
    (h : HasRoute t.hash_rand t.rt pkt.saddr.ip nic_id) :
    (servers.foldl (arpServerRouteTo pkt) t).rt = t.rt := by
  induction servers generalizing t with
  | nil => rfl
  | cons srv servers ih =>
    rw [List.foldl_cons]
    have hsame : (arpServerRouteTo pkt t srv).rt = t.rt
        ∧ (arpServerRouteTo pkt t srv).hash_rand = t.hash_rand := by
      by_cases hroute : HasRoute t.hash_rand t.rt pkt.saddr.ip pkt.nic
      · rw [arpServerRouteTo_of_route hroute]
        exact ⟨rfl, rfl⟩
      · cases hsender : t.isSender pkt srv with
        | false =>
          rw [arpServerRouteTo_of_not hsender]
          exact ⟨rfl, rfl⟩
        | true =>
          rw [arpServerRouteTo_of_sender hsender hroute]
          exact ⟨rtAddEntry_of_hasRoute (h.congr (ipAddressEq_symm hsender)), rfl⟩
    rw [ih (by rw [hsame.1, hsame.2]; exact h), hsame.1]

end Reply

/-! ## Any sequence of replies -/

/-- A reply that was handled. -/
structure Heard where
  /-- The address it is from. -/
  sender : IpAddress
  /-- The NIC it came in on. -/
  nic : ℕ
  /-- The MAC address it announced. -/
  mac : Mac

/-- The tables, and the replies so far. -/
structure ArpWorld where
  /-- The tables. -/
  tables : Tables
  /-- The replies handled, the last one first. -/
  heard : List Heard

namespace ArpWorld

/-- The table has a route to the address by the NIC. -/
def Route (w : ArpWorld) (ip : IpAddress) (nic_id : ℕ) : Prop :=
  HasRoute w.tables.hash_rand w.tables.rt ip nic_id

/-- The server at a pointer. -/
def server (w : ArpWorld) (srv : ServerPtr) : Server := serverAt w.tables.pool srv

/-- A reply is handled. -/
def hear (w : ArpWorld) (pkt : Packet) : ArpWorld where
  tables := (arpHandler w.tables pkt).2.2
  heard := ⟨pkt.saddr.ip, pkt.nic, pkt.announced⟩ :: w.heard

/-- **Routes and MAC addresses agree**: there is a route by every NIC a server answered on,
and whatever route a lookup going round answers for a server, the MAC address stored was
announced on its NIC. -/
structure Agree (w : ArpWorld) : Prop where
  /-- A reply leaves a route by its NIC. -/
  route : ∀ h ∈ w.heard,
    (ngRtLookupWithNicId w.tables.hash_rand w.tables.rt h.sender h.nic).isSome = true
  /-- The MAC address of a server with a route was announced by the NIC of the route. -/
  mac : ∀ srv ∈ w.tables.server_list, ∀ n re,
    (ngRtLookupRr w.tables.hash_rand
      (rtRotated w.tables.hash_rand w.tables.rt (w.server srv).addr.ip n)
      (w.server srv).addr.ip).1 = some re →
    ∃ h ∈ w.heard, ipAddressEq h.sender (w.server srv).addr.ip = true ∧ h.nic = re.nic_id
      ∧ h.mac = (w.server srv).mac

/-- **The reply is no disagreement**: the address it is from has no route by another NIC,
and if it has none at all then no second server has the address, unless it has the MAC
address announced. -/
def Consistent (w : ArpWorld) (pkt : Packet) : Prop :=
  (∀ nic_id, w.Route pkt.saddr.ip nic_id → nic_id = pkt.nic)
    ∧ ((∀ nic_id, ¬ w.Route pkt.saddr.ip nic_id) →
      ∀ srv ∈ (w.tables.server_list.filter (w.tables.isSender pkt)).tail,
        (w.server srv).mac = pkt.announced)

end ArpWorld

/-- **Replies from servers**, on any NICs, from an empty route table on. -/
def arpSystem : System ArpWorld Packet where
  init w := w.tables.rt = (fun _ => []) ∧ w.heard = [] ∧ w.tables.server_list.Nodup
  step w pkt w' := isArpReply pkt = true
    ∧ (∃ srv ∈ w.tables.server_list, w.tables.isSender pkt srv = true) ∧ w' = w.hear pkt

namespace ArpWorld

/-- **What consistent replies keep.** -/
structure Inv (w : ArpWorld) : Prop where
  /-- No server is listed twice. -/
  nodup : w.tables.server_list.Nodup
  /-- A route is by a NIC its address was heard on. -/
  heard : ∀ ip nic_id, w.Route ip nic_id →
    ∃ h ∈ w.heard, ipAddressEq h.sender ip = true ∧ h.nic = nic_id
  /-- An address is heard on one NIC. -/
  one_nic : ∀ h ∈ w.heard, ∀ h' ∈ w.heard, ipAddressEq h.sender h'.sender = true →
    h.nic = h'.nic
  /-- There is a route by it. -/
  route : ∀ h ∈ w.heard, w.Route h.sender h.nic
  /-- A server that was heard has a MAC address that was announced for it. -/
  mac : ∀ srv ∈ w.tables.server_list,
    (∃ h ∈ w.heard, ipAddressEq h.sender (w.server srv).addr.ip = true) →
    ∃ h ∈ w.heard, ipAddressEq h.sender (w.server srv).addr.ip = true
      ∧ h.mac = (w.server srv).mac

section Inv

variable {w w' : ArpWorld} {pkt : Packet}

theorem Inv.agree (h : w.Inv) : w.Agree where
  route r hr := ngRtLookupWithNicId_isSome_iff.mpr (h.route r hr)
  mac srv hsrv n re hre := by
    have hroute : w.Route (w.server srv).addr.ip re.nic_id :=
      (hasRoute_rotated n).mp (hasRoute_of_lookup hre)
    obtain ⟨r, hr, hip, hnic⟩ := h.heard _ _ hroute
    obtain ⟨r', hr', hip', hmac⟩ := h.mac srv hsrv ⟨r, hr, hip⟩
    have hone := h.one_nic r' hr' r hr (ipAddressEq_trans hip' (ipAddressEq_symm hip))
    exact ⟨r', hr', hip', hone.trans hnic, hmac⟩

theorem inv_init (h : arpSystem.init w) : w.Inv := by
  obtain ⟨hrt, hheard, hnodup⟩ := h
  refine ⟨hnodup, fun ip nic_id hroute => ?_, fun r hr => ?_, fun r hr => ?_,
    fun srv _ hex => ?_⟩
  · obtain ⟨re, hre, -⟩ := hroute
    rw [hrt] at hre
    exact absurd hre List.not_mem_nil
  · rw [hheard] at hr
    exact absurd hr List.not_mem_nil
  · rw [hheard] at hr
    exact absurd hr List.not_mem_nil
  · obtain ⟨r, hr, -⟩ := hex
    rw [hheard] at hr
    exact absurd hr List.not_mem_nil

/-- A reply is handled by the walk over the servers. -/
theorem tables_hear (h : isArpReply pkt = true) :
    (w.hear pkt).tables = w.tables.server_list.foldl (arpServerRouteTo pkt) w.tables := by
  have hreply : load16 pkt.data (pkt.network_header + 6) = arpReplyOp := by
    simpa [isArpReply] using h
  have hrequest : ¬ isArpRequest pkt = true := by
    rw [isArpRequest, hreply]
    decide
  rw [hear, arpHandler, if_neg hrequest, if_pos h]
  rfl

/-- The reply is from a server of this address. -/
theorem isSender_iff {srv : ServerPtr} :
    w.tables.isSender pkt srv = true
      ↔ ipAddressEq (w.server srv).addr.ip pkt.saddr.ip = true := Iff.rfl

/-- **A reply by the NIC of the route** is only remembered. -/
theorem Inv.hear_known (h : w.Inv) (hreply : isArpReply pkt = true)
    (hroute : w.Route pkt.saddr.ip pkt.nic) : (w.hear pkt).Inv := by
  have htables : (w.hear pkt).tables = w.tables :=
    (tables_hear hreply).trans (foldl_of_route hroute)
  have hserver : (w.hear pkt).server = w.server := by
    unfold server
    rw [htables]
  have hroutes : (w.hear pkt).Route = w.Route := by
    unfold Route
    rw [htables]
  obtain ⟨r, hr, hip, hnic⟩ := h.heard _ _ hroute
  have hone : ∀ x ∈ w.heard, ipAddressEq x.sender pkt.saddr.ip = true → x.nic = pkt.nic :=
    fun x hx hxip => (h.one_nic x hx r hr (ipAddressEq_trans hxip (ipAddressEq_symm hip))).trans
      hnic
  refine ⟨by rw [htables]; exact h.nodup, fun ip nic_id hr => ?_, fun a ha b hb hab => ?_,
    fun a ha => ?_, fun srv hsrv hex => ?_⟩
  · rw [hroutes] at hr
    obtain ⟨x, hx, hrest⟩ := h.heard ip nic_id hr
    exact ⟨x, List.mem_cons_of_mem _ hx, hrest⟩
  · rcases List.mem_cons.mp ha with rfl | ha <;> rcases List.mem_cons.mp hb with rfl | hb
    · rfl
    · exact (hone b hb (ipAddressEq_symm hab)).symm
    · exact hone a ha hab
    · exact h.one_nic a ha b hb hab
  · rw [hroutes]
    rcases List.mem_cons.mp ha with rfl | ha
    · exact hroute
    · exact h.route a ha
  · rw [htables] at hsrv
    rw [hserver] at hex ⊢
    obtain ⟨x, hx, hxip⟩ := hex
    have hold : ∃ y ∈ w.heard, ipAddressEq y.sender (w.server srv).addr.ip = true := by
      rcases List.mem_cons.mp hx with rfl | hx
      · exact ⟨r, hr, ipAddressEq_trans hip hxip⟩
      · exact ⟨x, hx, hxip⟩
    obtain ⟨y, hy, hrest⟩ := h.mac srv hsrv hold
    exact ⟨y, List.mem_cons_of_mem _ hy, hrest⟩

/-- An address without a route was not heard. -/
theorem Inv.not_heard (h : w.Inv) {ip : IpAddress}
    (hnone : ∀ nic_id, ¬ w.Route ip nic_id) (r : Heard) (hr : r ∈ w.heard) :
    ipAddressEq r.sender ip ≠ true := fun hip => hnone r.nic ((h.route r hr).congr hip)

/-- A first reply gives the first server of the address its route and MAC address. -/
theorem hear_first {srv : ServerPtr} (hreply : isArpReply pkt = true)
    (hnone : ∀ nic_id, ¬ w.Route pkt.saddr.ip nic_id)
    (hfirst : w.tables.server_list.find? (w.tables.isSender pkt) = some srv) :
    (w.hear pkt).tables.server_list = w.tables.server_list
      ∧ (∀ ip nic_id, (w.hear pkt).Route ip nic_id ↔ w.Route ip nic_id
        ∨ (ipAddressEq (w.server srv).addr.ip ip = true ∧ pkt.nic = nic_id))
      ∧ ∀ s, (w.hear pkt).server s
        = if s = srv then { w.server srv with mac := pkt.announced } else w.server s := by
  have hof : w.tables.isSender pkt srv = true := List.find?_some hfirst
  have hsender := isSender_iff.mp hof
  have htables := (tables_hear hreply).trans (foldl_of_no_route hnone)
  rw [hfirst] at htables
  have hnone' : ∀ nic_id, ¬ HasRoute w.tables.hash_rand w.tables.rt
      (serverAt w.tables.pool srv).addr.ip nic_id :=
    fun nic_id hr => hnone nic_id (hr.congr hsender)
  refine ⟨by rw [htables], fun ip nic_id => ?_, fun s => ?_⟩
  · unfold Route
    rw [htables]
    exact hasRoute_rtAddEntry hnone'
  · unfold server
    rw [htables]
    exact serverAt_serverSetMac _ _ _ _

/-- The servers of the address after the first. -/
theorem mem_tail_of_ne {srv s : ServerPtr} (hnodup : w.tables.server_list.Nodup)
    (hfirst : w.tables.server_list.find? (w.tables.isSender pkt) = some srv) :
    s ∈ (w.tables.server_list.filter (w.tables.isSender pkt)).tail
      ↔ s ∈ w.tables.server_list ∧ w.tables.isSender pkt s = true ∧ s ≠ srv := by
  have hhead : (w.tables.server_list.filter (w.tables.isSender pkt)).head? = some srv := by
    rw [List.head?_filter, hfirst]
  have hnodup' := hnodup.filter (w.tables.isSender pkt)
  have hmem : s ∈ w.tables.server_list.filter (w.tables.isSender pkt)
      ↔ s ∈ w.tables.server_list ∧ w.tables.isSender pkt s = true := List.mem_filter
  rw [← and_assoc, ← hmem]
  generalize w.tables.server_list.filter (w.tables.isSender pkt) = l at hhead hnodup'
  cases l with
  | nil => exact absurd hhead (Option.some_ne_none srv).symm
  | cons a l =>
    obtain rfl : a = srv := Option.some_inj.mp hhead
    rw [List.tail_cons, List.mem_cons]
    constructor
    · exact fun hs => ⟨Or.inr hs, fun he => (List.nodup_cons.mp hnodup').1 (he ▸ hs)⟩
    · exact fun ⟨hs, hne⟩ => hs.resolve_left hne

/-- **A first reply** is kept, if no second server has the address. -/
theorem Inv.hear_new (h : w.Inv) (hreply : isArpReply pkt = true) {srv : ServerPtr}
    (hnone : ∀ nic_id, ¬ w.Route pkt.saddr.ip nic_id)
    (hfirst : w.tables.server_list.find? (w.tables.isSender pkt) = some srv)
    (hothers : ∀ s ∈ (w.tables.server_list.filter (w.tables.isSender pkt)).tail,
      (w.server s).mac = pkt.announced) : (w.hear pkt).Inv := by
  obtain ⟨hlist, hroutes, hserver⟩ := hear_first hreply hnone hfirst
  have hof : w.tables.isSender pkt srv = true := List.find?_some hfirst
  have hsender := isSender_iff.mp hof
  have haddr : ∀ s, ((w.hear pkt).server s).addr = (w.server s).addr := by
    intro s
    rw [hserver]
    split
    · rename_i hs
      rw [hs]
    · rfl
  refine ⟨by rw [hlist]; exact h.nodup, fun ip nic_id hr => ?_, fun a ha b hb hab => ?_,
    fun a ha => ?_, fun s hs hex => ?_⟩
  · rcases (hroutes ip nic_id).mp hr with hr | ⟨hip, hnic⟩
    · obtain ⟨x, hx, hrest⟩ := h.heard ip nic_id hr
      exact ⟨x, List.mem_cons_of_mem _ hx, hrest⟩
    · exact ⟨_, List.mem_cons_self, ipAddressEq_trans (ipAddressEq_symm hsender) hip, hnic⟩
  · rcases List.mem_cons.mp ha with rfl | ha <;> rcases List.mem_cons.mp hb with rfl | hb
    · rfl
    · exact absurd (ipAddressEq_symm hab) (h.not_heard hnone b hb)
    · exact absurd hab (h.not_heard hnone a ha)
    · exact h.one_nic a ha b hb hab
  · rw [hroutes]
    rcases List.mem_cons.mp ha with rfl | ha
    · exact Or.inr ⟨hsender, rfl⟩
    · exact Or.inl (h.route a ha)
  · rw [hlist] at hs
    rw [haddr] at hex ⊢
    by_cases hof : w.tables.isSender pkt s = true
    · -- a server of the address has the MAC address announced
      refine ⟨_, List.mem_cons_self, ipAddressEq_symm hof, ?_⟩
      rw [hserver]
      by_cases he : s = srv
      · rw [if_pos he]
      · rw [if_neg he, hothers s ((mem_tail_of_ne h.nodup hfirst).mpr ⟨hs, hof, he⟩)]
    · have he : s ≠ srv := fun he => hof (he ▸ hsender)
      obtain ⟨x, hx, hxip⟩ := hex
      have hold : x ∈ w.heard := by
        rcases List.mem_cons.mp hx with rfl | hx
        · exact absurd (ipAddressEq_symm hxip) hof
        · exact hx
      obtain ⟨y, hy, hrest⟩ := h.mac s hs ⟨x, hold, hxip⟩
      rw [hserver, if_neg he]
      exact ⟨y, List.mem_cons_of_mem _ hy, hrest⟩

/-- **A consistent reply keeps the agreement.** -/
theorem Inv.hear (h : w.Inv) (hreply : isArpReply pkt = true)
    (hserver : ∃ srv ∈ w.tables.server_list, w.tables.isSender pkt srv = true)
    (hc : w.Consistent pkt) : (w.hear pkt).Inv := by
  by_cases hroute : ∃ nic_id, w.Route pkt.saddr.ip nic_id
  · obtain ⟨nic_id, hr⟩ := hroute
    obtain rfl := hc.1 nic_id hr
    exact h.hear_known hreply hr
  · have hnone := not_exists.mp hroute
    obtain ⟨srv, hfirst⟩ := Option.isSome_iff_exists.mp (List.find?_isSome.mpr hserver)
    exact h.hear_new hreply hnone hfirst (hc.2 hnone)

/-- **An inconsistent reply breaks it.** -/
theorem Inv.consistent_of_agree (h : w.Inv) (hreply : isArpReply pkt = true)
    (hagree : (w.hear pkt).Agree)
    (hserver : ∃ srv ∈ w.tables.server_list, w.tables.isSender pkt srv = true) :
    w.Consistent pkt := by
  have hheard := ngRtLookupWithNicId_isSome_iff.mp (hagree.route _ List.mem_cons_self)
  refine ⟨fun nic_id hr => ?_, fun hnone s hs => ?_⟩
  · by_cases hknown : w.Route pkt.saddr.ip pkt.nic
    · obtain ⟨a, ha, haip, hanic⟩ := h.heard _ _ hr
      obtain ⟨b, hb, hbip, hbnic⟩ := h.heard _ _ hknown
      rw [← hanic, ← hbnic]
      exact h.one_nic a ha b hb (ipAddressEq_trans haip (ipAddressEq_symm hbip))
    · have hrt : (w.hear pkt).tables.rt = w.tables.rt := by
        rw [tables_hear hreply]
        exact foldl_rt_of_other hr
      have hrand : (w.hear pkt).tables.hash_rand = w.tables.hash_rand := by
        rw [tables_hear hreply]
        exact (arps_arpServerRoute w.tables pkt).1.hash_rand
      rw [hrt, hrand] at hheard
      exact absurd hheard hknown
  · obtain ⟨srv, hfirst⟩ := Option.isSome_iff_exists.mp (List.find?_isSome.mpr hserver)
    obtain ⟨hlist, hroutes, hservers⟩ := hear_first hreply hnone hfirst
    obtain ⟨hmem, hof, hne⟩ := (mem_tail_of_ne h.nodup hfirst).mp hs
    have hsame : (w.hear pkt).server s = w.server s := by rw [hservers, if_neg hne]
    have hroute : (w.hear pkt).Route (w.server s).addr.ip pkt.nic :=
      hheard.congr (ipAddressEq_symm hof)
    obtain ⟨re, hre⟩ := Option.isSome_iff_exists.mp
      (rtLookup_isSome_iff.mpr ⟨pkt.nic, hroute⟩)
    obtain ⟨r, hr, hip, -, hmac⟩ := hagree.mac s (hlist ▸ hmem) 0 re (by rw [hsame]; exact hre)
    rw [hsame] at hip hmac
    rw [← hmac]
    rcases List.mem_cons.mp hr with rfl | hr
    · rfl
    · exact absurd (ipAddressEq_trans hip hof) (h.not_heard hnone r hr)

end Inv

end ArpWorld

/-- **Routes and MAC addresses agree as long as replies are consistent.** After any replies
that were consistent they agree, and after one more if and only if it is. -/
theorem arpSystem_agree_iff {w : ArpWorld}
    (h : (arpSystem.restrict ArpWorld.Consistent).Reachable w) :
    w.Agree ∧ ∀ pkt w', arpSystem.step w pkt w' → (w'.Agree ↔ w.Consistent pkt) := by
  have hinv : w.Inv := by
    refine (arpSystem.restrict ArpWorld.Consistent).invariant
      (fun _ hinit => ArpWorld.inv_init hinit) ?_ h
    rintro w pkt w' hw ⟨hc, hreply, hserver, rfl⟩
    exact hw.hear hreply hserver hc
  refine ⟨hinv.agree, ?_⟩
  rintro pkt w' ⟨hreply, hserver, rfl⟩
  exact ⟨fun hagree => hinv.consistent_of_agree hreply hagree hserver,
    fun hc => (hinv.hear hreply hserver hc).agree⟩

/-- One server, `10.0.0.4`, and no route. -/
def noRoutes : ArpWorld where
  tables := { twoVservers (twoIps 1024 1027) 0 with rt := fun _ => [] }
  heard := []

/-- A reply of `10.0.0.4` on a NIC, announcing a MAC address of six equal bytes. -/
def replyOfFour (nic_id mac : UInt8) : Packet where
  phys := 0
  len := 42
  protocol_eth := protoArp
  protocol_ip := protoNull
  family := afInet
  adapter_idx := nic_id
  lfq_state := .start
  id := 0
  saddr := ⟨netTen 4, 0⟩
  daddr := ⟨netTen 1, 0⟩
  transport_header := 0
  network_header := 14
  mac_header := 0
  data := fun i => if i = 21 then 2 else if 22 ≤ i ∧ i < 28 then mac else 0

/-- After a reply on NIC 0. -/
def heardOnce : ArpWorld := noRoutes.hear (replyOfFour 0 1)

/-- After another one on NIC 1. -/
def heardTwice : ArpWorld := heardOnce.hear (replyOfFour 1 2)

theorem noRoutes_consistent (pkt : Packet) : noRoutes.Consistent pkt := by
  refine ⟨fun nic_id hr => ?_, fun _ srv hsrv => ?_⟩
  · obtain ⟨re, hre, -⟩ := hr
    exact absurd hre List.not_mem_nil
  · have hsub : (noRoutes.tables.server_list.filter (noRoutes.tables.isSender pkt)).length ≤ 1 :=
      List.length_filter_le _ _
    have hnil := List.eq_nil_of_length_eq_zero (l := (List.filter
      (noRoutes.tables.isSender pkt) noRoutes.tables.server_list).tail) (by
        rw [List.length_tail]
        omega)
    rw [hnil] at hsrv
    exact absurd hsrv List.not_mem_nil

theorem arpSystem_agree_iff_heardOnce :
    heardOnce.Agree
      ∧ (heardTwice.Agree ↔ heardOnce.Consistent (replyOfFour 1 2)) := by
  have hinit : (arpSystem.restrict ArpWorld.Consistent).init noRoutes :=
    ⟨rfl, rfl, List.nodup_singleton _⟩
  have hreach : (arpSystem.restrict ArpWorld.Consistent).Reachable heardOnce :=
    (System.Reachable.of_init hinit).step (l := replyOfFour 0 1)
      ⟨noRoutes_consistent _, by decide, ⟨(0, 0), List.mem_singleton_self _, by decide⟩, rfl⟩
  obtain ⟨hagree, hnext⟩ := arpSystem_agree_iff hreach
  exact ⟨hagree, hnext (replyOfFour 1 2) heardTwice
    ⟨by decide, ⟨(0, 0), by decide +kernel, by decide +kernel⟩, rfl⟩⟩

/-- **A reply on a second NIC** stores its MAC address and adds no route by the NIC. -/
theorem second_nic_disagrees :
    ¬ heardTwice.Agree
      ∧ (ngRtLookupRr 0 heardTwice.tables.rt (netTen 4)).1 = some ⟨netTen 4, 0⟩
      ∧ (heardTwice.server (0, 0)).mac 0 = 2 := by
  refine ⟨fun h => ?_, by decide +kernel, by decide +kernel⟩
  have hroute := h.route _ List.mem_cons_self
  exact absurd hroute (by decide +kernel)
