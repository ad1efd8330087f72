import Ustack.Containers
import Ustack.Runs

/-!
# Looking up a connection

`connection_lookup` compares address and port, and then writes `cp->protocol =
proto` where a comparison belongs. Over runs of creations, closes and timeouts
the tables refine a map from address, port and protocol (`Tables.Keyed`); the
lookup reads that map exactly when the first connection of the bucket with the
address and port already has the protocol asked for. In a bucket where a TCP and a
UDP flow of one address and port meet, it answers whichever comes first and makes
it the other.
-/

/-! ## Runs of creations, closes and timeouts -/

/-- What happens next to the connections of a process. -/
inductive TablesLabel
  /-- A connection is created, or fails to be. -/
  | create (malloc : Option ℕ) (pkt : Packet) (vs : ℕ)
  /-- A live connection is freed. -/
  | free (cp : ℕ)
  /-- The timers are expired at a reading of the clock. -/
  | timer (now : ℕ)

/-- **The tables of a process in which connections come and go.** -/
def tablesSystem : System Tables TablesLabel where
  init := Tables.Started
  step t l t' :=
    match l with
    | .create malloc pkt vs => t.conn_mem_pool.MallocOk malloc
        ∧ t' = (connectionCreate malloc t pkt vs).2
    | .free cp => cp ∈ t.live ∧ t' = connectionFree t cp
    | .timer now => t.clock.now ≤ now ∧ t' = connectionTimerExpire t now

/-- **What holds of the containers, a step keeps if creations and frees do.** -/
theorem tablesSystem_step {P : Tables → Prop} (hP : ∀ t, P t → t.Ok)
    (hclock : ∀ t clock, P t → clock.timer_table = t.clock.timer_table →
      clock.total_clock_seconds = t.clock.total_clock_seconds →
      clock.next_clock_second < clock.total_clock_seconds →
      P { t with clock := clock })
    (hnot : ∀ t t', P t → NotCreated t t' → P t')
    (hcreated : ∀ t pkt vs cp t', P t → Created t pkt vs cp t' → P t')
    (hfree : ∀ t cp, P t → cp ∈ t.live → P (connectionFree t cp))
    {t t' : Tables} {l : TablesLabel} (h : P t) (hst : tablesSystem.step t l t') :
    P t' := by
  cases l with
  | create malloc pkt vs =>
    obtain ⟨hm, rfl⟩ := hst
    have hs := connectionCreate_spec (hP t h).mem hm (hP t h).ranges pkt vs
    split at hs
    · exact hnot _ _ h hs
    · exact hcreated _ _ _ _ _ h hs
  | free cp =>
    obtain ⟨hcp, rfl⟩ := hst
    exact hfree t cp h hcp
  | timer now =>
    obtain ⟨-, rfl⟩ := hst
    exact Tables.timerExpire_invariant hP hclock hfree h now

/-! ## Connections stand where their keys say -/

/-- **Every connection is linked in the bucket of its key.** -/
structure Tables.Keyed (t : Tables) : Prop where
  /-- The containers agree. -/
  ok : t.Ok
  /-- The client hash table. -/
  client : ∀ i cp, cp ∈ t.client_hashtable i →
    (t.conn cp).bucket t.hash_rand Connection.client = i
  /-- The self hash table. -/
  self : ∀ i cp, cp ∈ t.self_hashtable i →
    (t.conn cp).bucket t.hash_rand (Connection.self t.itf.lip) = i

namespace Tables

variable {t t' : Tables} {cp : ℕ}

theorem Keyed.live_of_mem (h : t.Keyed) {i : ℕ} (hcp : cp ∈ t.client_hashtable i) :
    cp ∈ t.live :=
  mem_linked.mpr ⟨i, h.client i cp hcp ▸ bucket_lt _ _ _, hcp⟩

theorem Keyed.liveSelf_of_mem (h : t.Keyed) {i : ℕ} (hcp : cp ∈ t.self_hashtable i) :
    cp ∈ t.liveSelf :=
  mem_linked.mpr ⟨i, h.self i cp hcp ▸ bucket_lt _ _ _, hcp⟩

theorem Keyed.of_live (h : t.Keyed) (hcp : cp ∈ t.live) :
    cp ∈ t.client_hashtable ((t.conn cp).bucket t.hash_rand Connection.client) := by
  obtain ⟨i, -, hi⟩ := mem_linked.mp hcp
  rwa [h.client i cp hi]

theorem Keyed.of_liveSelf (h : t.Keyed) (hcp : cp ∈ t.liveSelf) :
    cp ∈ t.self_hashtable
      ((t.conn cp).bucket t.hash_rand (Connection.self t.itf.lip)) := by
  obtain ⟨i, -, hi⟩ := mem_linked.mp hcp
  rwa [h.self i cp hi]

/-- A self key reads the addresses only. -/
theorem self_congr {itf itf' : Interface} (h : itf.Keeps itf') :
    Connection.self itf'.lip = Connection.self itf.lip := by
  funext c
  rw [Connection.self, Connection.self, h.addr]

theorem Keyed.outstanding_of_mem (h : t.Keyed) {i : ℕ}
    (hcp : cp ∈ t.client_hashtable i) : cp ∈ t.conn_mem_pool.outstanding :=
  h.ok.mem_live.mp (h.live_of_mem hcp)

theorem Keyed.outstanding_of_mem_self (h : t.Keyed) {i : ℕ}
    (hcp : cp ∈ t.self_hashtable i) : cp ∈ t.conn_mem_pool.outstanding :=
  h.ok.mem_live.mp (h.ok.mem_liveSelf.mp (h.liveSelf_of_mem hcp)).1

theorem Keyed.notCreated (h : t.Keyed) (hn : NotCreated t t') : t'.Keyed := by
  have hclient : t'.client_hashtable = t.client_hashtable := by rw [hn.eq]
  have hself : t'.self_hashtable = t.self_hashtable := by rw [hn.eq]
  have hrand : t'.hash_rand = t.hash_rand := by rw [hn.eq]
  refine ⟨h.ok.notCreated hn, fun i x hx => ?_, fun i x hx => ?_⟩
  · rw [hclient] at hx
    rw [hrand, hn.conn x (h.outstanding_of_mem hx)]
    exact h.client i x hx
  · rw [hself] at hx
    rw [hrand, hn.conn x (h.outstanding_of_mem_self hx), hn.lip]
    exact h.self i x hx

theorem mem_bucketAdd {α : Type*} {tab : ℕ → List α} {i j : ℕ} {x y : α}
    (h : y ∈ bucketAdd tab i x j) : y = x ∧ j = i ∨ y ∈ tab j := by
  unfold bucketAdd at h
  by_cases hj : j = i
  · rw [hj, Function.update_self, List.mem_cons] at h
    exact h.imp (fun hy => ⟨hy, hj⟩) (fun hy => hj ▸ hy)
  · rw [Function.update_of_ne hj] at h
    exact Or.inr h

theorem Keyed.created (h : t.Keyed) {pkt : Packet} {vs : ℕ}
    (hc : Created t pkt vs cp t') : t'.Keyed := by
  have hclient : t'.client_hashtable = bucketAdd t.client_hashtable
      ((t'.conn cp).bucket t.hash_rand Connection.client) cp := by
    conv_lhs => rw [hc.eq]
  have hself : t'.self_hashtable = if connectionIsFullnat (t'.conn cp) then
      bucketAdd t.self_hashtable
        ((t'.conn cp).bucket t.hash_rand (Connection.self t'.itf.lip)) cp
      else t.self_hashtable := by
    conv_lhs => rw [hc.eq]
  have hrand : t'.hash_rand = t.hash_rand := by rw [hc.eq]
  have hold : ∀ x ∈ t.conn_mem_pool.outstanding, t'.conn x = t.conn x :=
    fun x hx => hc.conn x (fun he => hc.fresh (he ▸ hx))
  refine ⟨h.ok.created hc, fun i x hx => ?_, fun i x hx => ?_⟩
  · rw [hclient] at hx
    rw [hrand]
    rcases mem_bucketAdd hx with ⟨rfl, hi⟩ | hx
    · exact hi.symm
    · rw [hold x (h.outstanding_of_mem hx)]
      exact h.client i x hx
  · have hkeep : x ∈ t.self_hashtable i →
        (t'.conn x).bucket t'.hash_rand (Connection.self t'.itf.lip) = i := by
      intro hx
      rw [hrand, hold x (h.outstanding_of_mem_self hx), self_congr hc.itf]
      exact h.self i x hx
    rw [hself] at hx
    split at hx
    · rcases mem_bucketAdd hx with ⟨rfl, hi⟩ | hx
      · rw [hrand]
        exact hi.symm
      · exact hkeep hx
    · exact hkeep hx

/-- Freeing keeps the addresses where they are. -/
theorem keeps_connectionFree (t : Tables) (cp : ℕ) :
    t.itf.Keeps (connectionFree t cp).itf := by
  rw [itf_connectionFree]
  split
  · exact Interface.keeps_setLip _ _ _ _
  · exact Interface.Keeps.refl _

theorem Keyed.free (h : t.Keyed) (hcp : cp ∈ t.live) : (connectionFree t cp).Keyed := by
  have hclient : (connectionFree t cp).client_hashtable = bucketDel t.client_hashtable cp := by
    rw [connectionFree_eq]
  have hself : ∀ i x, x ∈ (connectionFree t cp).self_hashtable i →
      x ∈ t.self_hashtable i := by
    intro i x hx
    rw [connectionFree_eq] at hx
    dsimp only at hx
    split at hx
    · exact List.mem_of_mem_erase hx
    · exact hx
  have hconn := conn_connectionFree t cp
  have hrand : (connectionFree t cp).hash_rand = t.hash_rand := by rw [connectionFree_eq]
  refine ⟨h.ok.free hcp, fun i x hx => ?_, fun i x hx => ?_⟩
  · rw [hclient] at hx
    rw [hconn, hrand]
    exact h.client i x (List.mem_of_mem_erase hx)
  · rw [hconn, hrand, self_congr (keeps_connectionFree t cp)]
    exact h.self i x (hself i x hx)

/-- **The tables are keyed in every reachable state.** -/
theorem keyed_of_reachable (h : tablesSystem.Reachable t) : t.Keyed := by
  refine System.invariant (P := Keyed) (fun t hi => ?_) (fun t l t' hk hst => ?_) h
  · obtain ⟨t₀, ht₀⟩ := hi.conn
    refine ⟨hi.ok, fun i x hx => ?_, fun i x hx => ?_⟩
    · rw [ht₀] at hx
      exact absurd hx List.not_mem_nil
    · rw [ht₀] at hx
      exact absurd hx List.not_mem_nil
  · exact tablesSystem_step (fun _ h => h.ok)
      (fun t clock h ht hn hw => ⟨h.ok.of_clock ht hn hw, h.client, h.self⟩)
      (fun _ _ h => h.notCreated) (fun _ _ _ _ _ h => h.created)
      (fun _ _ h => h.free) hk hst

end Tables

/-! ## Down one bucket -/

section Find

variable {key : Connection → NetAddress} {ip : IpAddress} {port : UInt16}
  {proto : UInt8} {conn : ℕ → Connection}

/-- The part of the comparison that compares: the address and the port. -/
def sameAddr (key : Connection → NetAddress) (ip : IpAddress) (port : UInt16)
    (conn : ℕ → Connection) (cp : ℕ) : Bool :=
  ipAddressEq (key (conn cp)).ip ip && (key (conn cp)).port == port

theorem connectionFind_none {l : List ℕ}
    (h : l.find? (sameAddr key ip port conn) = none) :
    connectionFind (connectionEq key ip port proto) l conn = (none, conn) := by
  induction l with
  | nil => rfl
  | cons cp rest ih =>
    rw [List.find?_cons] at h
    split at h
    · exact absurd h (by simp)
    · rename_i hno
      have heq : connectionEq key ip port proto conn cp = (false, conn) :=
        if_neg (by rw [← sameAddr, hno]; exact Bool.false_ne_true)
      rw [connectionFind, heq]
      exact ih h

/-- Asked for a protocol other than zero, the search answers the first connection
with the address and port, and gives it the protocol. -/
theorem connectionFind_some {l : List ℕ} {cp : ℕ} (hproto : proto ≠ 0)
    (h : l.find? (sameAddr key ip port conn) = some cp) :
    connectionFind (connectionEq key ip port proto) l conn
      = (some cp, Function.update conn cp { conn cp with protocol := proto }) := by
  induction l with
  | nil => exact absurd h (by simp)
  | cons x rest ih =>
    rw [List.find?_cons] at h
    split at h
    · rename_i hyes
      obtain rfl := Option.some_inj.mp h
      have heq : connectionEq key ip port proto conn x
          = (true, Function.update conn x { conn x with protocol := proto }) := by
        rw [connectionEq, if_pos (by rw [← sameAddr, hyes]), bne_iff_ne.mpr hproto]
      rw [connectionFind, heq]
      rfl
    · rename_i hno
      have heq : connectionEq key ip port proto conn x = (false, conn) :=
        if_neg (by rw [← sameAddr, hno]; exact Bool.false_ne_true)
      rw [connectionFind, heq]
      exact ih h

variable (key ip port proto) in
theorem connectionEq_conn (conn : ℕ → Connection) (cp x : ℕ) :
    ∃ p, (p = (conn x).protocol ∨ p = proto)
      ∧ (connectionEq key ip port proto conn cp).2 x = { conn x with protocol := p } := by
  unfold connectionEq
  split
  · by_cases hx : x = cp
    · refine ⟨proto, Or.inr rfl, ?_⟩
      dsimp only
      rw [hx, Function.update_self]
    · refine ⟨(conn x).protocol, Or.inl rfl, ?_⟩
      dsimp only
      rw [Function.update_of_ne hx]
  · exact ⟨(conn x).protocol, Or.inl rfl, rfl⟩

variable (key ip port proto) in
/-- **The search assigns protocols only**, and only the one it is asked for. -/
theorem connectionFind_conn (l : List ℕ) (conn : ℕ → Connection) (x : ℕ) :
    ∃ p, (p = (conn x).protocol ∨ p = proto)
      ∧ (connectionFind (connectionEq key ip port proto) l conn).2 x
        = { conn x with protocol := p } := by
  induction l generalizing conn with
  | nil => exact ⟨(conn x).protocol, Or.inl rfl, rfl⟩
  | cons cp rest ih =>
    obtain ⟨p, hp, heq⟩ := connectionEq_conn key ip port proto conn cp x
    rw [connectionFind]
    generalize connectionEq key ip port proto conn cp = r at heq
    obtain ⟨found, conn'⟩ := r
    dsimp only at heq ⊢
    split
    · exact ⟨p, hp, heq⟩
    · obtain ⟨q, hq, hconn⟩ := ih conn'
      refine ⟨q, ?_, by rw [hconn, heq]⟩
      rcases hq with rfl | rfl
      · rw [heq]
        exact hp
      · exact Or.inr rfl

variable (key ip port) in
/-- Asked for protocol zero, the search answers nothing, and sets the protocol of
the first connection with the address and port to zero on its way. -/
theorem connectionFind_zero (l : List ℕ) (conn : ℕ → Connection) :
    (connectionFind (connectionEq key ip port 0) l conn).1 = none
      ∧ ∀ cp, l.find? (sameAddr key ip port conn) = some cp →
        ((connectionFind (connectionEq key ip port 0) l conn).2 cp).protocol = 0 := by
  induction l generalizing conn with
  | nil => exact ⟨rfl, fun cp h => absurd h (by simp)⟩
  | cons x rest ih =>
    rw [connectionFind]
    by_cases hx : sameAddr key ip port conn x = true
    · have heq : connectionEq key ip port 0 conn x
          = (false, Function.update conn x { conn x with protocol := 0 }) :=
        if_pos hx
      rw [heq]
      refine ⟨(ih _).1, fun cp h => ?_⟩
      rw [List.find?_cons_of_pos hx] at h
      obtain rfl := Option.some_inj.mp h
      -- what follows assigns no protocol but zero
      obtain ⟨p, hp, hconn⟩ := connectionFind_conn key ip port 0 rest
        (Function.update conn x { conn x with protocol := 0 }) x
      rw [Function.update_self] at hp hconn
      show ((connectionFind (connectionEq key ip port 0) rest _).2 x).protocol = 0
      rw [hconn]
      exact hp.elim id id
    · have heq : connectionEq key ip port 0 conn x = (false, conn) := if_neg hx
      rw [heq]
      refine ⟨(ih conn).1, fun cp h => ?_⟩
      rw [List.find?_cons_of_neg hx] at h
      exact (ih conn).2 cp h

end Find

/-! ## When a lookup is exact -/

namespace Tables

/-- The connections a lookup ranges over. -/
def searched (t : Tables) (is_client : Bool) : List ℕ :=
  if is_client then t.live else t.liveSelf

/-- The address and port a lookup compares. -/
def key (t : Tables) (is_client : Bool) : Connection → NetAddress :=
  if is_client then Connection.client else Connection.self t.itf.lip

/-- The bucket a lookup searches. -/
def searchedBucket (t : Tables) (ip : IpAddress) (port : UInt16) (proto : UInt8)
    (is_client : Bool) : List ℕ :=
  (if is_client then t.client_hashtable else t.self_hashtable)
    (connectionHashkey t.hash_rand ip port.toUInt32 proto.toUInt32)

/-- A connection has an address, port and protocol. -/
def HasKey (t : Tables) (ip : IpAddress) (port : UInt16) (proto : UInt8)
    (is_client : Bool) (cp : ℕ) : Prop :=
  sameAddr (t.key is_client) ip port t.conn cp = true ∧ (t.conn cp).protocol = proto

/-- **A lookup is exact**: it answers a connection if there is one with the address,
port and protocol, and none otherwise; the one it answers has them; and no
connection is assigned. -/
structure LookupExact (t : Tables) (ip : IpAddress) (port : UInt16) (proto : UInt8)
    (is_client : Bool) : Prop where
  /-- It answers a live connection if and only if there is one. -/
  found_iff : (∃ cp ∈ t.searched is_client,
      (connectionLookup t ip port proto is_client).1 = some cp)
    ↔ ∃ cp ∈ t.searched is_client, t.HasKey ip port proto is_client cp
  /-- The one it answers is one. -/
  hasKey : ∀ cp, (connectionLookup t ip port proto is_client).1 = some cp →
    t.HasKey ip port proto is_client cp
  /-- Nothing is assigned. -/
  conn : (connectionLookup t ip port proto is_client).2.conn = t.conn

variable {t : Tables} {ip : IpAddress} {port : UInt16} {proto : UInt8}
  {is_client : Bool}

theorem connectionLookup_eq (t : Tables) (ip : IpAddress) (port : UInt16)
    (proto : UInt8) (is_client : Bool) :
    connectionLookup t ip port proto is_client
      = ((connectionFind (connectionEq (t.key is_client) ip port proto)
          (t.searchedBucket ip port proto is_client) t.conn).1,
        { t with conn := (connectionFind (connectionEq (t.key is_client) ip port proto)
          (t.searchedBucket ip port proto is_client) t.conn).2 }) := by
  cases is_client <;> rfl

/-- A connection with the key asked for is in the bucket searched. -/
theorem Keyed.mem_searchedBucket (h : t.Keyed) {cp : ℕ}
    (hcp : cp ∈ t.searched is_client) (hkey : t.HasKey ip port proto is_client cp) :
    cp ∈ t.searchedBucket ip port proto is_client := by
  obtain ⟨haddr, hproto⟩ := hkey
  simp only [sameAddr, Bool.and_eq_true, beq_iff_eq] at haddr
  obtain ⟨hip, hport⟩ := haddr
  have hbucket : (t.conn cp).bucket t.hash_rand (t.key is_client)
      = connectionHashkey t.hash_rand ip port.toUInt32 proto.toUInt32 := by
    rw [Connection.bucket, hport, hproto, connectionHashkey, connectionHashkey,
      ipPortProtoHash_congr t.hash_rand _ _ hip]
  unfold searchedBucket
  rw [← hbucket]
  cases is_client with
  | true =>
    rw [searched, if_pos rfl] at hcp
    exact h.of_live hcp
  | false =>
    rw [searched, if_neg Bool.false_ne_true] at hcp
    exact h.of_liveSelf hcp

theorem Keyed.searched_of_mem (h : t.Keyed) {cp : ℕ}
    (hcp : cp ∈ t.searchedBucket ip port proto is_client) :
    cp ∈ t.searched is_client := by
  unfold searchedBucket at hcp
  cases is_client with
  | true =>
    rw [searched, if_pos rfl]
    rw [if_pos rfl] at hcp
    exact h.live_of_mem hcp
  | false =>
    rw [searched, if_neg Bool.false_ne_true]
    rw [if_neg Bool.false_ne_true] at hcp
    exact h.liveSelf_of_mem hcp

end Tables

/-- **When a lookup is exact.** In tables reached by creations, closes and timeouts
a lookup is exact if and only if the first connection of the bucket it searches
that has the address and port, if there is one, has the protocol as well, and the
protocol is not zero. -/
theorem connectionLookup_exact_iff {t : Tables} (h : tablesSystem.Reachable t)
    (ip : IpAddress) (port : UInt16) (proto : UInt8) (is_client : Bool) :
    t.LookupExact ip port proto is_client
      ↔ ∀ cp, (t.searchedBucket ip port proto is_client).find?
          (sameAddr (t.key is_client) ip port t.conn) = some cp →
        proto ≠ 0 ∧ (t.conn cp).protocol = proto := by
  have hk := Tables.keyed_of_reachable h
  have hlookup := Tables.connectionLookup_eq t ip port proto is_client
  constructor
  · rintro ⟨hfound, hhas, hconn⟩ cp hcp
    have hsame := List.find?_some hcp
    have hlive := hk.searched_of_mem (List.mem_of_find?_eq_some hcp)
    rw [hlookup] at hfound hconn
    dsimp only at hfound hconn
    by_cases hzero : proto = 0
    · subst hzero
      obtain ⟨hnone, hset⟩ := connectionFind_zero (t.key is_client) ip port
        (t.searchedBucket ip port 0 is_client) t.conn
      have hp := hset cp hcp
      rw [hconn] at hp
      -- the connection has the key, and the lookup does not find it
      obtain ⟨x, -, hx⟩ := hfound.mpr ⟨cp, hlive, hsame, hp⟩
      rw [hnone] at hx
      exact absurd hx (by simp)
    · refine ⟨hzero, ?_⟩
      rw [connectionFind_some hzero hcp] at hconn
      have hcp' := congrFun hconn cp
      dsimp only at hcp'
      rw [Function.update_self] at hcp'
      exact (congrArg Connection.protocol hcp').symm
  · intro hfirst
    rcases Option.eq_none_or_eq_some ((t.searchedBucket ip port proto is_client).find?
      (sameAddr (t.key is_client) ip port t.conn)) with hnone | ⟨cp, hcp⟩
    · rw [connectionFind_none hnone] at hlookup
      refine ⟨⟨fun ⟨cp, _, hcp⟩ => ?_, fun ⟨cp, hlive, hkey⟩ => ?_⟩, fun cp hcp => ?_, ?_⟩
      · rw [hlookup] at hcp
        exact absurd hcp (by simp)
      · have hno := List.find?_eq_none.mp hnone cp (hk.mem_searchedBucket hlive hkey)
        exact absurd hkey.1 hno
      · rw [hlookup] at hcp
        exact absurd hcp (by simp)
      · rw [hlookup]
    · obtain ⟨hzero, hproto⟩ := hfirst cp hcp
      have hlive := hk.searched_of_mem (List.mem_of_find?_eq_some hcp)
      have hkey : t.HasKey ip port proto is_client cp := ⟨List.find?_some hcp, hproto⟩
      rw [connectionFind_some hzero hcp] at hlookup
      refine ⟨⟨fun _ => ⟨cp, hlive, hkey⟩, fun _ => ⟨cp, hlive, by rw [hlookup]⟩⟩,
        fun x hx => ?_, ?_⟩
      · rw [hlookup] at hx
        exact Option.some_inj.mp hx ▸ hkey
      · rw [hlookup]
        show Function.update t.conn cp { t.conn cp with protocol := proto } = t.conn
        rw [← hproto]
        exact Function.update_eq_self cp t.conn

/-- The tables after `10.0.0.3` port 1157 has opened a TCP connection to port
80. -/
def oneFlow : Tables :=
  (connectionCreate (some 0x100000) (twoVservers (twoIps 1024 65534) 0)
    (tcpPacket 3 1 [4, 133] [0, 80] 2) 0).2

theorem reachable_oneFlow : tablesSystem.Reachable oneFlow :=
  (System.Reachable.of_init (started_twoVservers 1024 65534 0)).step
    (show tablesSystem.step _ (.create (some 0x100000) _ 0) _ from
      ⟨mallocOk_twoVservers _ _ _, rfl⟩)

/-- Asked for the TCP flow, the lookup is exact. -/
theorem connectionLookup_exact_iff_oneFlow :
    oneFlow.LookupExact (netTen 3) (htons 1157) protoTcp true := by
  refine (connectionLookup_exact_iff reachable_oneFlow _ _ _ _).mpr (fun cp hcp => ?_)
  have hfind : (oneFlow.searchedBucket (netTen 3) (htons 1157) protoTcp true).find?
      (sameAddr (oneFlow.key true) (netTen 3) (htons 1157) oneFlow.conn)
      = some 0x1fff80 := by decide +kernel
  obtain rfl := Option.some_inj.mp (hfind.symm.trans hcp)
  exact ⟨by decide, by decide +kernel⟩

/-- **Asked for a UDP flow of the same address and port, it answers the TCP one**:
the two fall in one bucket. -/
theorem udp_lookup_answers_tcp :
    tablesSystem.Reachable oneFlow
      ∧ ¬ oneFlow.LookupExact (netTen 3) (htons 1157) protoUdp true := by
  refine ⟨reachable_oneFlow, fun h => ?_⟩
  have hfound : (connectionLookup oneFlow (netTen 3) (htons 1157) protoUdp true).1
      = some 0x1fff80 := by decide +kernel
  have hproto := (h.hasKey _ hfound).2
  exact absurd hproto (by decide +kernel)
