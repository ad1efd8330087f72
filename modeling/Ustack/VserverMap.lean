import Ustack.Buckets
import Ustack.Runs
import Ustack.Vserver

/-!
# The virtual server table as a map

`src/vserver.c` with both lists an entry is in: the bucket of its hash and the list of its
virtual server. Freeing a virtual server walks the second list and unlinks every node from
both.

What the table is for is `VserverMap`: the addresses registered for the virtual servers now
alive, the latest first, looked up by address, port and protocol. A bucket holds those of
its hash in that order (`VserverLists.Refines`), and since equal addresses have equal hashes
the first match in the bucket is the first match at all.
-/

/-- `struct vserver`, with its addresses and its list. -/
structure LinkedVserver extends Vserver where
  /-- The addresses. -/
  addr : ℕ → ℕ
  /-- The nodes of the addresses. -/
  vs_lip_node : List ℕ

/-- The virtual servers, with every list they are in. -/
structure VserverLists where
  /-- The buckets, of nodes. -/
  vs_hashtable : ℕ → List ℕ
  /-- The virtual servers alive. -/
  vs_list : List ℕ
  /-- The `vserver` structures. -/
  vserver : ℕ → LinkedVserver
  /-- The `vs_lip_node` structures. -/
  node : ℕ → VsLipNode

namespace VserverLists

section Calls

variable (hashRand : UInt32) (addr : ℕ → IpAddress)

/-- `__vs_lip_add`, given what `malloc` returned. -/
def vsLipAdd (malloc : Option ℕ) (t : VserverLists) (vs lip : ℕ) : Bool × VserverLists :=
  let idx := vsHashkey hashRand (addr lip) (t.vserver vs).port (t.vserver vs).protocol
  match malloc with
  | none => (false, t)
  | some node => (true, { t with
      vs_hashtable := bucketAdd t.vs_hashtable idx node
      vserver := Function.update t.vserver vs
        { t.vserver vs with vs_lip_node := node :: (t.vserver vs).vs_lip_node }
      node := Function.update t.node node ⟨vs, lip⟩ })

/-- `__vs_lip_del`: out of both lists. -/
def vsLipDel (t : VserverLists) (node : ℕ) : VserverLists :=
  { t with
    vs_hashtable := bucketDel t.vs_hashtable node
    vserver := fun vs =>
      { t.vserver vs with vs_lip_node := (t.vserver vs).vs_lip_node.erase node } }

/-- `__vs_add`: every address of the virtual server, given what `malloc` returned for
each. -/
def vsAdd (malloc : ℕ → Option ℕ) (t : VserverLists) (vs : ℕ) : VserverLists :=
  let t := (List.range (t.vserver vs).ip_num).foldl (fun t i =>
    (vsLipAdd hashRand addr (malloc i) t vs ((t.vserver vs).addr i)).2) t
  { t with vs_list := vs :: t.vs_list }

/-- `__vs_del`. -/
def vsDel (t : VserverLists) (vs : ℕ) : VserverLists :=
  let t := forEachSafe (fun t => (t.vserver vs).vs_lip_node) vsLipDel t
  { t with vs_list := t.vs_list.erase vs }

/-- `vserver_create`, given what `malloc` returned. There is no address yet, so nothing more
is allocated. -/
def vserverCreate (malloc : Option ℕ) (t : VserverLists) (pool : ℕ) (port : UInt16)
    (protocol : UInt8) (is_fullnat : UInt8) : Option ℕ × VserverLists :=
  match malloc with
  | none => (none, t)
  | some vs =>
    (some vs, vsAdd hashRand addr (fun _ => none) { t with
      vserver := Function.update t.vserver vs
        { pool := pool, port := port, protocol := protocol, is_fullnat := is_fullnat,
          ip_num := 0, addr := (t.vserver vs).addr, vs_lip_node := [] } } vs)

/-- `vserver_free`. -/
def vserverFree (t : VserverLists) : Option ℕ → VserverLists
  | none => t
  | some vs => t.vsDel vs

/-- `vs->addr[vs->ip_num++] = lip`. -/
def appendAddr (t : VserverLists) (vs lip : ℕ) : VserverLists :=
  { t with
    vserver := Function.update t.vserver vs { t.vserver vs with
      addr := Function.update (t.vserver vs).addr (t.vserver vs).ip_num lip
      ip_num := (t.vserver vs).ip_num + 1 } }

/-- `vserver_add_ip`, given what `malloc` returned. -/
def vserverAddIp (malloc : Option ℕ) (t : VserverLists) (vs lip : ℕ) :
    Bool × VserverLists :=
  if (t.vserver vs).ip_num < vsIpNumMax then
    vsLipAdd hashRand addr malloc (t.appendAddr vs lip) vs lip
  else (false, t)

/-- `vserver_lookup`: the virtual server and the local address, which is `vs_lip`. -/
def vserverLookup (t : VserverLists) (ip : IpAddress) (port : UInt16) (protocol : UInt8) :
    Option (ℕ × ℕ) :=
  ((t.vs_hashtable (vsHashkey hashRand ip port protocol)).find? (fun node =>
    ipAddressEq (addr (t.node node).lip) ip && (t.vserver (t.node node).vs).port == port
      && (t.vserver (t.node node).vs).protocol == protocol)).map (fun node =>
    ((t.node node).vs, (t.node node).lip))

end Calls

end VserverLists

/-! ## What the table is for -/

/-- An address registered for a virtual server, with the port and protocol it serves. -/
structure Registration where
  /-- The virtual server. -/
  vs : ℕ
  /-- The local address. -/
  lip : ℕ
  /-- The port. -/
  port : UInt16
  /-- The protocol. -/
  protocol : UInt8

/-- The bucket of a registration. -/
def Registration.key (hashRand : UInt32) (addr : ℕ → IpAddress) (e : Registration) : ℕ :=
  vsHashkey hashRand (addr e.lip) e.port e.protocol

/-- The registration is of an address, port and protocol. -/
def Registration.Of (addr : ℕ → IpAddress) (ip : IpAddress) (port : UInt16)
    (protocol : UInt8) (e : Registration) : Bool :=
  ipAddressEq (addr e.lip) ip && e.port == port && e.protocol == protocol

/-- **The registrations alive**, the latest first. -/
structure VserverMap where
  /-- The port and protocol a virtual server was created with. -/
  serves : ℕ → UInt16 × UInt8
  /-- The registrations. -/
  entries : List Registration

/-- A call on the table. -/
inductive VserverCall
  /-- `vserver_create`, with what `malloc` returned. -/
  | create (malloc : Option ℕ) (pool : ℕ) (port : UInt16) (protocol is_fullnat : UInt8)
  /-- `vserver_add_ip`, with what `malloc` returned and what the call answers. -/
  | addIp (malloc : Option ℕ) (vs lip : ℕ) (ret : Bool)
  /-- `vserver_free`. -/
  | free (vs : ℕ)

namespace VserverMap

/-- The latest registration of an address, port and protocol. -/
def lookup (addr : ℕ → IpAddress) (m : VserverMap) (ip : IpAddress) (port : UInt16)
    (protocol : UInt8) : Option (ℕ × ℕ) :=
  (m.entries.find? (Registration.Of addr ip port protocol)).map (fun e => (e.vs, e.lip))

/-- What a call does to the registrations. -/
def apply (m : VserverMap) : VserverCall → VserverMap
  | .create (some vs) _ port protocol _ =>
    { m with serves := Function.update m.serves vs (port, protocol) }
  | .create none _ _ _ _ => m
  | .addIp _ vs lip true =>
    { m with entries := ⟨vs, lip, (m.serves vs).1, (m.serves vs).2⟩ :: m.entries }
  | .addIp _ _ _ false => m
  | .free vs => { m with entries := m.entries.filter (fun e => e.vs ≠ vs) }

/-- The registrations after a sequence of calls. -/
def after (calls : List VserverCall) : VserverMap :=
  calls.foldl apply ⟨fun _ => (0, 0), []⟩

end VserverMap

/-! ## The table refines the map -/

namespace VserverLists

/-- The registration a node stands for. -/
def registration (t : VserverLists) (n : ℕ) : Registration :=
  ⟨(t.node n).vs, (t.node n).lip, (t.vserver (t.node n).vs).port,
    (t.vserver (t.node n).vs).protocol⟩

/-- **The table holds the registrations**: each bucket those of its hash, in order, and each
virtual server alive has its own nodes in its list. -/
structure Refines (hashRand : UInt32) (addr : ℕ → IpAddress) (t : VserverLists)
    (m : VserverMap) : Prop where
  /-- No virtual server is listed twice. -/
  live_nodup : t.vs_list.Nodup
  /-- What a virtual server alive serves. -/
  serves : ∀ vs ∈ t.vs_list, m.serves vs = ((t.vserver vs).port, (t.vserver vs).protocol)
  /-- A bucket holds the registrations of its hash. -/
  bucket : ∀ i, (t.vs_hashtable i).map t.registration
    = m.entries.filter (fun e => e.key hashRand addr = i)
  /-- No node is in a bucket twice. -/
  bucket_nodup : ∀ i, (t.vs_hashtable i).Nodup
  /-- A node in a bucket is of a virtual server alive. -/
  live : ∀ i, ∀ n ∈ t.vs_hashtable i, (t.node n).vs ∈ t.vs_list
  /-- The nodes in the list of a virtual server are its own. -/
  listed : ∀ vs ∈ t.vs_list, ∀ n, n ∈ (t.vserver vs).vs_lip_node
    ↔ (∃ i, n ∈ t.vs_hashtable i) ∧ (t.node n).vs = vs
  /-- The address of a node is one of its virtual server's. -/
  address : ∀ i, ∀ n ∈ t.vs_hashtable i,
    ∃ k < (t.vserver (t.node n).vs).ip_num,
      (t.vserver (t.node n).vs).addr k = (t.node n).lip

section Steps

variable {hashRand : UInt32} {addr : ℕ → IpAddress} {t : VserverLists} {m : VserverMap}
  {vs lip : ℕ}

/-- **A lookup in the table is a lookup in the map.** Only the bucket of the hash is
searched, and nothing that matches is elsewhere. -/
theorem Refines.lookup_eq (h : t.Refines hashRand addr m) (ip : IpAddress) (port : UInt16)
    (protocol : UInt8) :
    t.vserverLookup hashRand addr ip port protocol = m.lookup addr ip port protocol := by
  have hkey : ∀ e ∈ m.entries, e.Of addr ip port protocol = true →
      e.key hashRand addr = vsHashkey hashRand ip port protocol := by
    intro e _ he
    simp only [Registration.Of, Bool.and_eq_true, beq_iff_eq] at he
    obtain ⟨⟨hip, hport⟩, hprotocol⟩ := he
    rw [Registration.key, vsHashkey, vsHashkey, hport, hprotocol,
      ipPortProtoHash_congr hashRand _ _ hip]
  have hfind : m.entries.find? (Registration.Of addr ip port protocol)
      = (m.entries.filter (fun e =>
          e.key hashRand addr = vsHashkey hashRand ip port protocol)).find?
        (Registration.Of addr ip port protocol) := by
    rw [List.find?_filter]
    refine List.find?_congr (fun e he => ?_)
    by_cases hof : e.Of addr ip port protocol = true
    · rw [hof, decide_eq_true (hkey e he hof)]
      rfl
    · simp [hof]
  rw [VserverMap.lookup, hfind, ← h.bucket, List.find?_map, Option.map_map]
  rfl

/-- Writing an address down changes no list and nothing a virtual server serves. -/
theorem vserver_appendAddr (t : VserverLists) (vs lip v : ℕ) :
    ((t.appendAddr vs lip).vserver v).port = (t.vserver v).port
      ∧ ((t.appendAddr vs lip).vserver v).protocol = (t.vserver v).protocol
      ∧ ((t.appendAddr vs lip).vserver v).vs_lip_node = (t.vserver v).vs_lip_node := by
  rw [appendAddr]
  dsimp only
  by_cases hv : v = vs
  · rw [hv, Function.update_self]
    exact ⟨rfl, rfl, rfl⟩
  · rw [Function.update_of_ne hv]
    exact ⟨rfl, rfl, rfl⟩

theorem Refines.appendAddr (h : t.Refines hashRand addr m) (vs lip : ℕ) :
    (t.appendAddr vs lip).Refines hashRand addr m := by
  have hserve := vserver_appendAddr t vs lip
  refine ⟨h.live_nodup, fun v hv => ?_, fun i => ?_, h.bucket_nodup, h.live,
    fun v hv n => ?_, fun i n hn => ?_⟩
  · rw [h.serves v hv, (hserve v).1, (hserve v).2.1]
  · rw [← h.bucket i]
    refine List.map_congr_left (fun n _ => ?_)
    rw [registration, registration, (hserve _).1, (hserve _).2.1]
    rfl
  · rw [(hserve v).2.2]
    exact h.listed v hv n
  · obtain ⟨k, hk, haddr⟩ := h.address i n hn
    show ∃ k < (Function.update t.vserver vs _ (t.node n).vs).ip_num,
      (Function.update t.vserver vs _ (t.node n).vs).addr k = (t.node n).lip
    by_cases hv : (t.node n).vs = vs
    · rw [hv] at hk haddr ⊢
      rw [Function.update_self]
      exact ⟨k, Nat.lt_succ_of_lt hk, (Function.update_of_ne hk.ne _ _).trans haddr⟩
    · rw [Function.update_of_ne hv]
      exact ⟨k, hk, haddr⟩

/-- A node in no list of a virtual server alive is in no bucket. -/
theorem Refines.notMem_bucket (h : t.Refines hashRand addr m) {n : ℕ}
    (hn : ∀ vs ∈ t.vs_list, n ∉ (t.vserver vs).vs_lip_node) (i : ℕ) :
    n ∉ t.vs_hashtable i := fun hmem =>
  have hlive := h.live i n hmem
  hn _ hlive ((h.listed _ hlive n).mpr ⟨⟨i, hmem⟩, rfl⟩)

/-- Adding a node changes the list of its virtual server, and nothing it serves. -/
theorem vserver_vsLipAdd (t : VserverLists) (n vs lip v : ℕ) :
    let t' := (vsLipAdd hashRand addr (some n) t vs lip).2
    (t'.vserver v).port = (t.vserver v).port
      ∧ (t'.vserver v).protocol = (t.vserver v).protocol
      ∧ (t'.vserver v).ip_num = (t.vserver v).ip_num
      ∧ (t'.vserver v).addr = (t.vserver v).addr
      ∧ (t'.vserver v).vs_lip_node
        = if v = vs then n :: (t.vserver vs).vs_lip_node else (t.vserver v).vs_lip_node := by
  simp only [vsLipAdd]
  by_cases hv : v = vs
  · rw [hv, Function.update_self, if_pos rfl]
    exact ⟨rfl, rfl, rfl, rfl, rfl⟩
  · rw [Function.update_of_ne hv, if_neg hv]
    exact ⟨rfl, rfl, rfl, rfl, rfl⟩

/-- The bucket of the address gets the node in front. -/
theorem bucket_vsLipAdd (t : VserverLists) (n vs lip i : ℕ) :
    (vsLipAdd hashRand addr (some n) t vs lip).2.vs_hashtable i
      = if i = vsHashkey hashRand (addr lip) (t.vserver vs).port (t.vserver vs).protocol
        then n :: t.vs_hashtable i else t.vs_hashtable i := by
  simp only [vsLipAdd, bucketAdd]
  split
  · rename_i hi
    rw [hi, Function.update_self]
  · rename_i hi
    rw [Function.update_of_ne hi]

/-- **Adding an address**: a fresh node in front of both its lists. -/
theorem Refines.vsLipAdd (h : t.Refines hashRand addr m) (hvs : vs ∈ t.vs_list) {n : ℕ}
    (hn : ∀ vs ∈ t.vs_list, n ∉ (t.vserver vs).vs_lip_node)
    (haddr : ∃ k < (t.vserver vs).ip_num, (t.vserver vs).addr k = lip) :
    (t.vsLipAdd hashRand addr (some n) vs lip).2.Refines hashRand addr
      (m.apply (.addIp (some n) vs lip true)) := by
  have hfresh := h.notMem_bucket hn
  have hserve := @vserver_vsLipAdd hashRand addr t n vs lip
  have hbucket := @bucket_vsLipAdd hashRand addr t n vs lip
  set idx := vsHashkey hashRand (addr lip) (t.vserver vs).port (t.vserver vs).protocol
    with hidx
  set t' := (VserverLists.vsLipAdd hashRand addr (some n) t vs lip).2 with ht'
  have hself : t'.node n = ⟨vs, lip⟩ := Function.update_self _ _ _
  have hmem : ∀ i x, x ∈ t'.vs_hashtable i ↔ (x = n ∧ i = idx) ∨ x ∈ t.vs_hashtable i := by
    intro i x
    rw [hbucket]
    by_cases hi : i = idx
    · rw [if_pos hi, List.mem_cons, and_iff_left hi]
    · rw [if_neg hi, or_iff_right (fun hx => hi hx.2)]
  -- the nodes of the buckets are not the new one
  have hold : ∀ i, ∀ x ∈ t.vs_hashtable i, t'.node x = t.node x := fun i x hx =>
    Function.update_of_ne (fun he : x = n => hfresh i (by rw [← he]; exact hx)) _ _
  have hreg : ∀ i, (t.vs_hashtable i).map t'.registration
      = (t.vs_hashtable i).map t.registration := fun i =>
    List.map_congr_left (fun x hx => by
      rw [registration, registration, hold i x hx, (hserve _).1, (hserve _).2.1])
  refine ⟨h.live_nodup, fun v hv => ?_, fun i => ?_, fun i => ?_, fun i x hx => ?_,
    fun v hv x => ?_, fun i x hx => ?_⟩
  · rw [(hserve v).1, (hserve v).2.1]
    exact h.serves v hv
  · show (t'.vs_hashtable i).map t'.registration
      = List.filter _ (⟨vs, lip, (m.serves vs).1, (m.serves vs).2⟩ :: m.entries)
    rw [h.serves vs hvs, List.filter_cons, ← h.bucket i, ← hreg i, hbucket]
    by_cases hi : i = idx
    · rw [if_pos hi, List.map_cons, if_pos (by rw [hi]; exact decide_eq_true hidx.symm)]
      refine congrArg (· :: _) ?_
      rw [registration, hself, (hserve vs).1, (hserve vs).2.1]
    · rw [if_neg hi, if_neg (by
        rw [decide_eq_true_eq]
        exact fun he => hi (he.symm.trans hidx.symm))]
  · rw [hbucket]
    by_cases hi : i = idx
    · rw [if_pos hi, List.nodup_cons]
      exact ⟨hfresh i, h.bucket_nodup i⟩
    · rw [if_neg hi]
      exact h.bucket_nodup i
  · rcases (hmem i x).mp hx with ⟨rfl, -⟩ | hx
    · rw [hself]
      exact hvs
    · rw [hold i x hx]
      exact h.live i x hx
  · rw [(hserve v).2.2.2.2]
    by_cases hx : x = n
    · rw [hx, hself]
      by_cases hv' : v = vs
      · rw [if_pos hv']
        exact ⟨fun _ => ⟨⟨idx, (hmem idx n).mpr (Or.inl ⟨rfl, rfl⟩)⟩, hv'.symm⟩,
          fun _ => List.mem_cons_self⟩
      · rw [if_neg hv']
        exact ⟨fun hmem => absurd hmem (hn v hv), fun he => absurd he.2.symm hv'⟩
    · have hlist : x ∈ (if v = vs then n :: (t.vserver vs).vs_lip_node
          else (t.vserver v).vs_lip_node) ↔ x ∈ (t.vserver v).vs_lip_node := by
        split
        · rename_i hv'
          rw [List.mem_cons, or_iff_right hx, hv']
        · rfl
      have hnode : t'.node x = t.node x := Function.update_of_ne hx _ _
      rw [hlist, h.listed v hv, hnode]
      refine and_congr_left (fun _ => exists_congr (fun i => ?_))
      rw [hmem, or_iff_right (fun he => hx he.1)]
  · rcases (hmem i x).mp hx with ⟨rfl, -⟩ | hx
    · rw [hself]
      dsimp only
      rw [(hserve vs).2.2.1, (hserve vs).2.2.2.1]
      exact haddr
    · rw [hold i x hx, (hserve _).2.2.1, (hserve _).2.2.2.1]
      exact h.address i x hx

/-- **Adding an address keeps the map**, whether it succeeds or not. -/
theorem Refines.addIp (h : t.Refines hashRand addr m) (hvs : vs ∈ t.vs_list)
    {malloc : Option ℕ}
    (hmalloc : ∀ n, malloc = some n → ∀ v ∈ t.vs_list, n ∉ (t.vserver v).vs_lip_node) :
    (t.vserverAddIp hashRand addr malloc vs lip).2.Refines hashRand addr
      (m.apply (.addIp malloc vs lip (t.vserverAddIp hashRand addr malloc vs lip).1)) := by
  rw [vserverAddIp]
  split
  · have happend := h.appendAddr vs lip
    cases malloc with
    | none => exact happend
    | some n =>
      refine happend.vsLipAdd hvs (fun v hv => ?_) ⟨(t.vserver vs).ip_num, ?_⟩
      · rw [(vserver_appendAddr t vs lip v).2.2]
        exact hmalloc n rfl v hv
      · simp only [VserverLists.appendAddr, Function.update_self]
        exact ⟨Nat.lt_succ_self _, trivial⟩
  · exact h

/-- **A new virtual server** has no address yet. -/
theorem Refines.create (h : t.Refines hashRand addr m) (hvs : vs ∉ t.vs_list) (pool : ℕ)
    (port : UInt16) (protocol is_fullnat : UInt8) :
    (t.vserverCreate hashRand addr (some vs) pool port protocol is_fullnat).2.Refines
      hashRand addr (m.apply (.create (some vs) pool port protocol is_fullnat)) := by
  set t' := (t.vserverCreate hashRand addr (some vs) pool port protocol is_fullnat).2
    with ht'
  have hself : (t'.vserver vs).port = port ∧ (t'.vserver vs).protocol = protocol
      ∧ (t'.vserver vs).vs_lip_node = [] := by
    rw [ht']
    simp [vserverCreate, vsAdd]
  have hrest : t' = { t with vs_list := vs :: t.vs_list, vserver := t'.vserver } := by
    rw [ht']
    simp [vserverCreate, vsAdd]
  have hother : ∀ v, v ≠ vs → t'.vserver v = t.vserver v := by
    intro v hv
    rw [ht']
    simp [vserverCreate, vsAdd, hv]
  have hne : ∀ i, ∀ n ∈ t.vs_hashtable i, (t.node n).vs ≠ vs := fun i n hn he =>
    hvs (he ▸ h.live i n hn)
  rw [hrest]
  refine ⟨List.nodup_cons.mpr ⟨hvs, h.live_nodup⟩, fun v hv => ?_, fun i => ?_,
    h.bucket_nodup, fun i n hn => List.mem_cons_of_mem _ (h.live i n hn), fun v hv n => ?_,
    fun i n hn => ?_⟩
  · show Function.update m.serves vs (port, protocol) v = _
    by_cases hv' : v = vs
    · rw [hv', Function.update_self, ← hself.1, ← hself.2.1]
    · rw [Function.update_of_ne hv', hother v hv']
      exact h.serves v ((List.mem_cons.mp hv).resolve_left hv')
  · refine Eq.trans (List.map_congr_left (fun n hn => ?_)) (h.bucket i)
    show Registration.mk _ _ (t'.vserver _).port (t'.vserver _).protocol = _
    rw [hother _ (hne i n hn)]
    rfl
  · show n ∈ (t'.vserver v).vs_lip_node ↔ _
    by_cases hv' : v = vs
    · rw [hv', hself.2.2]
      exact ⟨fun hn => absurd hn List.not_mem_nil, fun ⟨⟨i, hn⟩, he⟩ => absurd he (hne i n hn)⟩
    · rw [hother v hv']
      exact h.listed v ((List.mem_cons.mp hv).resolve_left hv') n
  · show ∃ k < (t'.vserver (t.node n).vs).ip_num, (t'.vserver (t.node n).vs).addr k = _
    rw [hother _ (hne i n hn)]
    exact h.address i n hn

/-- Deleting a list of nodes takes them out of both kinds of lists. -/
theorem foldl_vsLipDel (l : List ℕ) (t : VserverLists) :
    l.foldl vsLipDel t = { t with
      vs_hashtable := fun i => (t.vs_hashtable i).diff l
      vserver := fun v =>
        { t.vserver v with vs_lip_node := (t.vserver v).vs_lip_node.diff l } } := by
  induction l generalizing t with
  | nil => rfl
  | cons n l ih =>
    rw [List.foldl_cons, ih]
    simp only [vsLipDel, bucketDel, List.diff_cons]

/-- **Deleting a virtual server** takes its nodes out of every list. -/
theorem vsDel_eq (t : VserverLists) (vs : ℕ) :
    t.vsDel vs = { t with
      vs_hashtable := fun i => (t.vs_hashtable i).diff (t.vserver vs).vs_lip_node
      vserver := fun v => { t.vserver v with
        vs_lip_node := (t.vserver v).vs_lip_node.diff (t.vserver vs).vs_lip_node }
      vs_list := t.vs_list.erase vs } := by
  rw [vsDel, (forEachSafe_eq_foldl (P := fun _ => True)
    (fun _ _ _ _ => trivial) (fun _ _ _ _ => rfl) trivial).1, foldl_vsLipDel]

/-- **Freeing a virtual server takes out all of its nodes and no others.** -/
theorem Refines.bucket_free (h : t.Refines hashRand addr m) (hvs : vs ∈ t.vs_list) (i : ℕ) :
    (t.vserverFree (some vs)).vs_hashtable i
      = (t.vs_hashtable i).filter (fun n => (t.node n).vs ≠ vs) := by
  rw [vserverFree, vsDel_eq]
  show (t.vs_hashtable i).diff (t.vserver vs).vs_lip_node = _
  rw [(h.bucket_nodup i).sdiff_eq_filter]
  refine List.filter_congr (fun n hn => decide_eq_decide.mpr (not_congr ?_))
  rw [h.listed vs hvs]
  exact and_iff_right ⟨i, hn⟩

/-- Freeing a virtual server frees its registrations. -/
theorem Refines.free (h : t.Refines hashRand addr m) (hvs : vs ∈ t.vs_list) :
    (t.vserverFree (some vs)).Refines hashRand addr (m.apply (.free vs)) := by
  have hbucket := h.bucket_free hvs
  have hmem : ∀ i n, n ∈ (t.vserverFree (some vs)).vs_hashtable i
      ↔ n ∈ t.vs_hashtable i ∧ (t.node n).vs ≠ vs := by
    intro i n
    rw [hbucket, List.mem_filter, decide_eq_true_eq]
  have hlist : ∀ v, v ∈ (t.vserverFree (some vs)).vs_list ↔ v ≠ vs ∧ v ∈ t.vs_list := by
    intro v
    rw [vserverFree, vsDel_eq]
    exact h.live_nodup.mem_erase_iff
  refine ⟨?_, fun v hv => ?_, fun i => ?_, fun i => ?_, fun i n hn => ?_, fun v hv n => ?_,
    fun i n hn => ?_⟩
  · rw [vserverFree, vsDel_eq]
    exact h.live_nodup.erase vs
  · rw [vserverFree, vsDel_eq]
    exact h.serves v ((hlist v).mp hv).2
  · have hreg : (t.vserverFree (some vs)).registration = t.registration := by
      rw [vserverFree, vsDel_eq]
      rfl
    rw [hbucket, hreg]
    show List.map _ (List.filter _ _) = List.filter _ (List.filter _ m.entries)
    rw [List.filter_filter]
    simp only [Bool.and_comm]
    rw [← List.filter_filter, ← h.bucket i, List.filter_map]
    rfl
  · rw [hbucket]
    exact (h.bucket_nodup i).filter _
  · obtain ⟨hn, hne⟩ := (hmem i n).mp hn
    have hlive := (hlist (t.node n).vs).mpr ⟨hne, h.live i n hn⟩
    rw [vserverFree, vsDel_eq] at hlive ⊢
    exact hlive
  · obtain ⟨hne, hv⟩ := (hlist v).mp hv
    have hnode : (t.vserverFree (some vs)).node = t.node := by
      rw [vserverFree, vsDel_eq]
    have hlists : ((t.vserverFree (some vs)).vserver v).vs_lip_node
        = (t.vserver v).vs_lip_node.diff (t.vserver vs).vs_lip_node := by
      rw [vserverFree, vsDel_eq]
    rw [hlists, hnode]
    constructor
    · intro hn
      obtain ⟨⟨i, hi⟩, he⟩ := (h.listed v hv n).mp (List.diff_subset _ _ hn)
      exact ⟨⟨i, (hmem i n).mpr ⟨hi, by rw [he]; exact hne⟩⟩, he⟩
    · rintro ⟨⟨i, hi⟩, he⟩
      obtain ⟨hi, hne'⟩ := (hmem i n).mp hi
      exact List.mem_diff_of_mem ((h.listed v hv n).mpr ⟨⟨i, hi⟩, he⟩)
        (fun hn => hne' ((h.listed vs hvs n).mp hn).2)
  · have haddr := h.address i n ((hmem i n).mp hn).1
    rw [vserverFree, vsDel_eq]
    exact haddr

/-- The address answered is one of the virtual server's, which is alive. -/
theorem Refines.lookup_address (h : t.Refines hashRand addr m) {ip : IpAddress}
    {port : UInt16} {protocol : UInt8}
    (hlookup : t.vserverLookup hashRand addr ip port protocol = some (vs, lip)) :
    vs ∈ t.vs_list ∧ ∃ k < (t.vserver vs).ip_num, (t.vserver vs).addr k = lip := by
  obtain ⟨n, hfind, hpair⟩ := Option.map_eq_some_iff.mp hlookup
  obtain ⟨rfl, rfl⟩ := Prod.mk.inj hpair
  have hmem := List.mem_of_find?_eq_some hfind
  exact ⟨h.live _ n hmem, h.address _ n hmem⟩

end Steps

end VserverLists

/-! ## Every sequence of calls -/

/-- **The virtual servers**, from `vserver_module_init` on: a call is made on a virtual
server that is alive, and `malloc` returns nothing that is in use. -/
def vserverSystem (hashRand : UInt32) (addr : ℕ → IpAddress) :
    System VserverLists VserverCall where
  init t := t.vs_hashtable = (fun _ => []) ∧ t.vs_list = []
  step t call t' :=
    match call with
    | .create malloc pool port protocol is_fullnat =>
      (∀ vs, malloc = some vs → vs ∉ t.vs_list)
        ∧ t' = (t.vserverCreate hashRand addr malloc pool port protocol is_fullnat).2
    | .addIp malloc vs lip ret =>
      vs ∈ t.vs_list
        ∧ (∀ n, malloc = some n → ∀ v ∈ t.vs_list, n ∉ (t.vserver v).vs_lip_node)
        ∧ (ret, t') = t.vserverAddIp hashRand addr malloc vs lip
    | .free vs => vs ∈ t.vs_list ∧ t' = t.vserverFree (some vs)

section Runs

variable {hashRand : UInt32} {addr : ℕ → IpAddress} {t₀ t t' : VserverLists}
  {m : VserverMap} {call : VserverCall} {calls : List VserverCall}

theorem refines_init (h : (vserverSystem hashRand addr).init t) :
    t.Refines hashRand addr (VserverMap.after []) := by
  obtain ⟨hbuckets, hlist⟩ := h
  refine ⟨?_, fun v hv => ?_, fun i => ?_, fun i => ?_, fun i n hn => ?_, fun v hv => ?_,
    fun i n hn => ?_⟩
  · rw [hlist]
    exact List.nodup_nil
  · rw [hlist] at hv
    exact absurd hv List.not_mem_nil
  · rw [hbuckets]
    rfl
  · rw [hbuckets]
    exact List.nodup_nil
  · rw [hbuckets] at hn
    exact absurd hn List.not_mem_nil
  · rw [hlist] at hv
    exact absurd hv List.not_mem_nil
  · rw [hbuckets] at hn
    exact absurd hn List.not_mem_nil

/-- **One call on the table is the call on the map.** -/
theorem refines_step (h : t.Refines hashRand addr m)
    (hstep : (vserverSystem hashRand addr).step t call t') :
    t'.Refines hashRand addr (m.apply call) := by
  cases call with
  | create malloc pool port protocol is_fullnat =>
    obtain ⟨hfresh, rfl⟩ := hstep
    cases malloc with
    | none => exact h
    | some vs => exact h.create (hfresh vs rfl) pool port protocol is_fullnat
  | addIp malloc vs lip ret =>
    obtain ⟨hvs, hmalloc, hcall⟩ := hstep
    obtain ⟨rfl, rfl⟩ := Prod.mk.inj hcall
    exact h.addIp hvs hmalloc
  | free vs =>
    obtain ⟨hvs, rfl⟩ := hstep
    exact h.free hvs

theorem refines_run (hinit : (vserverSystem hashRand addr).init t₀)
    (hrun : (vserverSystem hashRand addr).Run t₀ calls t) :
    t.Refines hashRand addr (VserverMap.after calls) := by
  induction hrun with
  | nil => exact refines_init hinit
  | snoc _ hstep ih =>
    rw [VserverMap.after, List.foldl_append]
    exact refines_step ih hstep

/-- **The virtual server table is a map.** After any calls a lookup answers the latest
registration alive of that address, port and protocol, and null when there is none; what it
answers is an address of the virtual server it answers; and freeing a virtual server takes
its own entries out of every bucket and leaves the others. -/
theorem vserverSystem_refines (hinit : (vserverSystem hashRand addr).init t₀)
    (hrun : (vserverSystem hashRand addr).Run t₀ calls t) :
    (∀ ip port protocol, t.vserverLookup hashRand addr ip port protocol
        = (VserverMap.after calls).lookup addr ip port protocol)
      ∧ (∀ ip port protocol vs lip,
        t.vserverLookup hashRand addr ip port protocol = some (vs, lip) →
        vs ∈ t.vs_list ∧ ∃ k < (t.vserver vs).ip_num, (t.vserver vs).addr k = lip)
      ∧ ∀ vs ∈ t.vs_list, ∀ i, (t.vserverFree (some vs)).vs_hashtable i
        = (t.vs_hashtable i).filter (fun n => (t.node n).vs ≠ vs) :=
  have h := refines_run hinit hrun
  ⟨h.lookup_eq, fun _ _ _ _ _ => h.lookup_address, fun _ hvs => h.bucket_free hvs⟩

/-- No virtual server. -/
def noVservers : VserverLists where
  vs_hashtable := fun _ => []
  vs_list := []
  vserver := fun _ => ⟨⟨0, 0, 0, 0, 0⟩, fun _ => 0, []⟩
  node := fun _ => ⟨0, 0⟩

/-- Two virtual servers on port 80. -/
def bothOnEighty : VserverLists :=
  ((noVservers.vserverCreate 0 (fun _ => netTen 1) (some 0) 0 80 protoTcp 0).2.vserverCreate 0
    (fun _ => netTen 1) (some 1) 0 80 protoTcp 0).2

/-- The first one has an address. -/
def firstOnOne : VserverLists :=
  (bothOnEighty.vserverAddIp 0 (fun _ => netTen 1) (some 0) 0 0).2

/-- The second one has the same, since later. -/
def bothOnOne : VserverLists :=
  (firstOnOne.vserverAddIp 0 (fun _ => netTen 1) (some 1) 1 1).2

theorem bothOnOne_run : (vserverSystem 0 (fun _ => netTen 1)).Run noVservers
    [.create (some 0) 0 80 protoTcp 0, .create (some 1) 0 80 protoTcp 0,
      .addIp (some 0) 0 0 true, .addIp (some 1) 1 1 true] bothOnOne := by
  have hfirst : (vserverSystem 0 (fun _ => netTen 1)).step noVservers
      (.create (some 0) 0 80 protoTcp 0) _ := ⟨fun _ _ => List.not_mem_nil, rfl⟩
  have hsecond : (vserverSystem 0 (fun _ => netTen 1)).step _
      (.create (some 1) 0 80 protoTcp 0) bothOnEighty :=
    ⟨by rintro vs ⟨rfl⟩; decide, rfl⟩
  have hadd : (vserverSystem 0 (fun _ => netTen 1)).step bothOnEighty
      (.addIp (some 0) 0 0 true) firstOnOne :=
    ⟨by decide, by rintro n ⟨rfl⟩; decide, rfl⟩
  have hagain : (vserverSystem 0 (fun _ => netTen 1)).step firstOnOne
      (.addIp (some 1) 1 1 true) bothOnOne :=
    ⟨by decide, by rintro n ⟨rfl⟩; decide, rfl⟩
  exact (((System.Run.single hfirst).snoc hsecond).snoc hadd).snoc hagain

/-- The second one answers, and when it is freed the first. -/
theorem vserverSystem_refines_bothOnOne :
    bothOnOne.vserverLookup 0 (fun _ => netTen 1) (netTen 1) 80 protoTcp = some (1, 1)
      ∧ (bothOnOne.vserverFree (some 1)).vserverLookup 0 (fun _ => netTen 1) (netTen 1) 80 protoTcp
        = some (0, 0)
      ∧ ∀ i, (bothOnOne.vserverFree (some 1)).vs_hashtable i
        = (bothOnOne.vs_hashtable i).filter (fun n => (bothOnOne.node n).vs ≠ 1) := by
  have hmem : 1 ∈ bothOnOne.vs_list := by decide
  obtain ⟨hlookup, -, hfree⟩ := vserverSystem_refines ⟨rfl, rfl⟩ bothOnOne_run
  have hfreed : (vserverSystem 0 (fun _ => netTen 1)).step bothOnOne (.free 1)
      (bothOnOne.vserverFree (some 1)) := ⟨hmem, rfl⟩
  obtain ⟨hafter, -⟩ := vserverSystem_refines ⟨rfl, rfl⟩ (bothOnOne_run.snoc hfreed)
  refine ⟨(hlookup (netTen 1) 80 protoTcp).trans ?_, (hafter (netTen 1) 80 protoTcp).trans ?_,
    hfree 1 hmem⟩
  · decide
  · decide

end Runs

/-! ## The table without the lists of the virtual servers -/

/-- The table a packet is looked up in. -/
def VserverLists.toTable (t : VserverLists) (vserver_num : ℕ) : VserverTable where
  vserver vs := (t.vserver vs).toVserver
  vserver_num := vserver_num
  vs_hashtable i := (t.vs_hashtable i).map t.node

/-- **A packet's lookup is this one**, without the address. -/
theorem vserverLookup_toTable (hashRand : UInt32) (itf : Interface) (t : VserverLists)
    (n : ℕ) (ip : IpAddress) (port : UInt16) (protocol : UInt8) :
    vserverLookup hashRand itf (t.toTable n) ip port protocol
      = (t.vserverLookup hashRand (fun lip => (itf.lip lip).addr) ip port protocol).map
        Prod.fst := by
  rw [vserverLookup, VserverLists.vserverLookup, VserverLists.toTable]
  dsimp only
  rw [List.find?_map, Option.map_map, Option.map_map]
  rfl
