/-
# Custody of connections

Every database connection that has been created is held by one request, or by one item of
the cache, or it has been freed, once.  A step of the module moves connections between these
places, and the sum of the three counts stays 1; the counter of active connections moves
along with them.  `Moves` collects what a step does in this respect, and `Custody` what it
needs.
-/
import DrizzleNginx.Model.System
import DrizzleNginx.Proofs.Peer

namespace DrizzleNginx

/-- The item holds a connection in good order. -/
structure Item.Pools (item : Item) (w : Worker) (k : ℕ) : Prop where
  connection : item.connection = some k
  drizzleCon : item.drizzleCon = some k
  lt : k < w.nconns
  drizzle : (w.conns k).drizzle
  fd : (w.conns k).fd ≠ some 0

/-- At this position a result is read. -/
def Pos.receives : Pos → Bool
  | recvCols => true
  | recvRows => true
  | recvFields => true
  | _ => false

/-- In this state a result is read. -/
def DbState.receives : DbState → Bool
  | recvCols => true
  | recvRows => true
  | _ => false

/-- The order of things in the life of a request: nothing is read and no output waits for the
client before a query has been started, and the status is open until the request is finalized. -/
structure Req.Ordered (p : Pos) (r : Req) : Prop where
  status : r.live → (∀ rc, p ≠ .finalize rc) → r.statusN = 0
  receives : p.receives → r.queryStarted
  state : r.state.receives → r.queryStarted
  drains : r.writeHandler = .drainOutput → r.queryStarted

namespace St

/-- How many places hold a connection: the request and the items of the cache. -/
def holders (s : St) (k : ℕ) : ℕ :=
  (if s.r.connection = some k then 1 else 0)
    + s.w.pool.cache.countP fun item => item.connection = some k

/-- The request holds a database connection. -/
structure Holds (s : St) (k : ℕ) : Prop where
  connection : s.r.connection = some k
  drizzleCon : s.r.drizzleCon = some k
  lt : k < s.w.nconns
  drizzle : (s.w.conns k).drizzle
  fd : (s.w.conns k).fd ≠ some 0

/-- The request holds the connection by which it is rejected. -/
structure HoldsPlaceholder (s : St) (k : ℕ) : Prop where
  connection : s.r.connection = some k
  drizzleCon : s.r.drizzleCon = none
  lt : k < s.w.nconns
  drizzle : (s.w.conns k).drizzle = false
  fd : (s.w.conns k).fd = some 0

/-- The request holds the connection by which it is rejected: no query has been started for it,
and it has no status yet. -/
structure Rejected (s : St) : Prop where
  status : s.r.statusN = 0
  started : s.r.queryStarted = false
  holds : ∃ k, s.HoldsPlaceholder k

/-- The request holds no connection. -/
structure Idle (s : St) : Prop where
  connection : s.r.connection = none
  drizzleCon : s.r.drizzleCon = none

/-- The request has been finalized. -/
structure Ended (s : St) : Prop where
  live : s.r.live = false
  connection : s.r.connection = none

/-- The request holds a database connection. -/
def onDb (s : St) : Bool := s.r.connection.any fun k => (s.w.conns k).drizzle

/-- The number of connections that the request and the cache hold and that are counted. -/
def counted (s : St) : ℕ := s.onDb.toNat + s.w.pool.cache.length

end St

/-- An event that a request can get while it holds the connection by which it is rejected: of that
connection only the timer expires. -/
def Event.spares : Event → Bool
  | db _ timedout _ => timedout
  | _ => true

/-- What a request at a position holds. -/
def Pos.Ok (p : Pos) (s : St) : Prop :=
  match p with
  | .loop => s.r.inHandler = false ∧ (s.Ended ∨ s.r.live ∧ ((∃ k, s.Holds k) ∨ s.Rejected))
  | .handlerTail => s.Ended ∨ s.r.live ∧ ((∃ k, s.Holds k) ∨ s.Rejected)
  | .crashed => s.r.live ∧ s.Idle
  | .event e => s.r.live ∧ ((∃ k, s.Holds k) ∨ e.spares ∧ s.Rejected)
  | .dbdConnect => s.r.live ∧ s.Idle ∧ s.r.queryStarted = false
  | .dbdConnected .again => s.r.live ∧ ((∃ k, s.Holds k) ∨ s.Idle ∨ s.Rejected)
  | .dbdConnected .done => s.r.live ∧ ∃ k, s.Holds k
  | .dbdConnected .declined => s.r.live ∧ s.Idle
  | .dbdConnected .error => s.r.live ∧ s.Idle
  | .dbdConnected .busy => s.r.live ∧ s.Idle
  | .dbdConnected _ => False
  | .next .nolive => s.r.live ∧ s.Idle
  | .next _ => s.r.live ∧ (s.Idle ∨ (∃ k, s.Holds k) ∨ s.Rejected)
  | .done .declined => False
  | .finalize .declined => False
  | .finalize _ => s.r.live ∧ (s.Idle ∨ (∃ k, s.Holds k) ∨ s.Rejected)
  | _ => s.r.live ∧ ∃ k, s.Holds k

/-- The position of a request after a step to `p`: what `Pos.settle` keeps for it, or back in
the event loop. -/
def Pos.after (p : Pos) (r : Req) : Pos := (p.settle r).getD .loop

lemma Pos.eq_of_after {p q : Pos} {r : Req} (h : p.after r = q) (hloop : q ≠ .loop)
    (htail : q ≠ .handlerTail) : p = q := by
  cases p with
  | loop =>
    unfold after settle at h
    cases hin : r.inHandler with
    | true =>
      rw [hin] at h
      exact absurd h.symm htail
    | false =>
      rw [hin] at h
      exact absurd h.symm hloop
  | _ => exact h

/-- What a step needs to know about the holders of connections. -/
structure Custody (p : Pos) (s : St) : Prop where
  ok : p.Ok s
  ordered : s.r.Ordered p
  items : ∀ item ∈ s.w.pool.cache, ∃ k, item.Pools s.w k
  holders_le : ∀ k, s.holders k ≤ 1
  queues : s.w.pool.cache.length + s.w.pool.free.length = s.w.conf.maxCached

/-- What a step does to the holders of connections.  The counter of active connections follows
them on a condition: the connection by which a request is rejected is not counted, and must not
be closed like the others. -/
structure Moves (c : Prop) (s s' : St) : Prop where
  conf : s'.w.conf = s.w.conf
  nconns : s.w.nconns ≤ s'.w.nconns
  id : s'.r.id = s.r.id
  drizzle : ∀ k < s.w.nconns, (s'.w.conns k).drizzle = (s.w.conns k).drizzle
  /-- A database connection is handed over or freed, not lost or doubled. -/
  balance : ∀ k < s.w.nconns, (s.w.conns k).drizzle →
    s'.holders k + (s'.w.conns k).freed = s.holders k + (s.w.conns k).freed
  /-- Other connections are not given to anybody, and not freed. -/
  shadow : ∀ k < s.w.nconns, (s.w.conns k).drizzle = false →
    s'.holders k ≤ s.holders k ∧ (s'.w.conns k).freed = (s.w.conns k).freed
  new : ∀ k, s.w.nconns ≤ k → k < s'.w.nconns → s'.holders k ≤ 1 ∧
    if (s'.w.conns k).drizzle then s'.holders k + (s'.w.conns k).freed = 1
    else (s'.w.conns k).freed = 0
  /-- Connections that neither the request nor the cache holds are left alone. -/
  frame : ∀ k < s.w.nconns, s.holders k = 0 → s'.w.conns k = s.w.conns k
  active : c → s'.w.pool.activeConns + .ofNat s.counted = s.w.pool.activeConns + .ofNat s'.counted
  queues : s'.w.pool.cache.length + s'.w.pool.free.length =
    s.w.pool.cache.length + s.w.pool.free.length
  /-- One more connection is held only when the pool was not full. -/
  room : s.counted < s'.counted → s'.counted = s.counted + 1 ∧ ¬ s.w.Full
  /-- An item of the cache was there before, or it got the connection of the request. -/
  items : ∀ item ∈ s'.w.pool.cache, item ∈ s.w.pool.cache ∨
    ∃ k, s.Holds k ∧ item.Pools s'.w k
  /-- The connections that stay in the cache are left alone. -/
  kept : ∀ item ∈ s'.w.pool.cache, item ∈ s.w.pool.cache → ∀ k, item.connection = some k →
    s'.w.conns k = s.w.conns k

/-! ## The counter -/

/-- One connection fewer is held, and counted. -/
lemma counter_pred {n : UInt64} {m m' : ℕ} (h : m = m' + 1) : n - 1 + .ofNat m = n + .ofNat m' := by
  rw [h, UInt64.ofNat_add]
  grind

/-- A counter that was right and follows a change is right. -/
lemma counter_eq {n : UInt64} {m m' d d' : ℕ} (h : n + .ofNat d = .ofNat m + .ofNat d')
    (hm : m' + d = m + d') : n = .ofNat m' := by
  have := congrArg UInt64.ofNat hm
  rw [UInt64.ofNat_add, UInt64.ofNat_add] at this
  grind

/-! ## Staying with a connection -/

variable {c : Prop} {s s' : St} {p : Pos} {k : ℕ}

lemma St.holders_of_mem {item : Item} (hmem : item ∈ s.w.pool.cache)
    (hk : item.connection = some k) : 1 ≤ s.w.pool.cache.countP fun it => it.connection = some k :=
  List.countP_pos_iff.mpr ⟨item, hmem, by simpa using hk⟩

/-- A connection in the cache is not that of the request. -/
lemma St.connection_ne_of_mem {item : Item} (hle : ∀ k, s.holders k ≤ 1)
    (hmem : item ∈ s.w.pool.cache) (hk : item.connection = some k) :
    s.r.connection ≠ some k := by
  intro hc
  have h₁ := hle k
  have h₂ := St.holders_of_mem hmem hk
  rw [St.holders, if_pos hc] at h₁
  omega

lemma Stays.holds (h : Stays s s') (hk : s.Holds k) : s'.Holds k where
  connection := h.connection.trans hk.connection
  drizzleCon := h.drizzleCon.trans hk.drizzleCon
  lt := by rw [h.nconns]; exact hk.lt
  drizzle := by rw [h.drizzle]; exact hk.drizzle
  fd := by rw [h.fd]; exact hk.fd

lemma Stays.holders (h : Stays s s') (k : ℕ) : s'.holders k = s.holders k := by
  rw [St.holders, St.holders, h.connection, h.pool]

lemma Stays.counted (h : Stays s s') : s'.counted = s.counted := by
  have hdb : s'.onDb = s.onDb := by
    rw [St.onDb, St.onDb, h.connection]
    exact congrArg (fun f => Option.any f s.r.connection) (funext fun k => h.drizzle k)
  rw [St.counted, St.counted, h.pool, hdb]

/-- A step that stays with its connection moves nothing. -/
lemma Stays.moves (h : Stays s s') (hle : ∀ k, s.holders k ≤ 1) : Moves c s s' where
  conf := h.conf
  nconns := Nat.le_of_eq h.nconns.symm
  id := h.id
  drizzle k _ := h.drizzle k
  balance k _ _ := by rw [h.holders, h.freed]
  shadow k _ _ := by rw [h.holders, h.freed]; exact ⟨Nat.le_refl _, rfl⟩
  new k hk hk' := by
    rw [h.nconns] at hk'
    omega
  frame k _ hk := by
    refine h.conns_of_ne k fun hc => ?_
    rw [St.holders, if_pos hc] at hk
    omega
  active _ := by rw [h.counted, h.pool]
  queues := by rw [h.pool]
  room hlt := absurd hlt (Nat.not_lt.mpr (Nat.le_of_eq h.counted))
  items item hmem := .inl (by rwa [h.pool] at hmem)
  kept item hmem hmem' k hk := h.conns_of_ne k (St.connection_ne_of_mem hle hmem' hk)

/-! ## Giving a connection away -/

namespace Worker

variable {w : Worker}

@[simp] lemma freeConnection_conf (c dc : Option ℕ) : (w.freeConnection c dc).conf = w.conf := by
  cases c <;> cases dc <;> rfl

@[simp] lemma freeConnection_nconns (c dc : Option ℕ) :
    (w.freeConnection c dc).nconns = w.nconns := by
  cases c <;> cases dc <;> rfl

@[simp] lemma freeConnection_pool (c dc : Option ℕ) : (w.freeConnection c dc).pool =
    { w.pool with activeConns := w.pool.activeConns - 1 } := by
  cases c <;> cases dc <;> rfl

lemma freeConnection_conns (k j : ℕ) : (w.freeConnection (some k) (some k)).conns j =
    if j = k then (w.conns k).free.close else w.conns j := by
  simp only [freeConnection, modConn_conns]
  split <;> simp_all

end Worker

/-- A connection of a request that is closed. -/
lemma dropConnection_moves (hk : s.Holds k) (hle : ∀ k, s.holders k ≤ 1) (b : Bool) :
    Moves c s ((s.modReq fun r => { r with failed := b }).dropConnection k) := by
  obtain ⟨s', hs'⟩ : ∃ s', s' = (s.modReq fun r => { r with failed := b }).dropConnection k :=
    ⟨_, rfl⟩
  rw [← hs']
  have hw : s'.w = s.w.freeConnection (some k) (some k) := by
    simp [hs', St.dropConnection, hk.drizzleCon]
  have hc : s'.r.connection = none := by rw [hs']; rfl
  have hconn : ∀ j, s'.w.conns j = if j = k then (s.w.conns k).free.close else s.w.conns j := by
    intro j
    rw [hw, Worker.freeConnection_conns]
  have hcache : s'.w.pool.cache = s.w.pool.cache := by simp [hw]
  have hholders : ∀ j, s'.holders j + (if j = k then 1 else 0) = s.holders j := by
    intro j
    simp only [St.holders, hc, hcache, hk.connection, Option.some.injEq, eq_comm (a := j)]
    simp [Nat.add_comm]
  have hdb : s.onDb = true := by simp [St.onDb, hk.connection, hk.drizzle]
  have hdb' : s'.onDb = false := by simp [St.onDb, hc]
  have hcounted : s.counted = s'.counted + 1 := by
    simp [St.counted, hcache, hdb, hdb', Nat.add_comm]
  constructor
  case conf => simp [hw]
  case nconns => simp [hw]
  case id => rw [hs']; rfl
  case drizzle =>
    intro j _
    rw [hconn]
    split
    case isTrue h => rw [h]; rfl
    case isFalse => rfl
  case balance =>
    intro j _ _
    have := hholders j
    rw [hconn]
    split
    case isTrue h =>
      rw [if_pos h] at this
      subst h
      simp only [Conn.free, Conn.close]
      omega
    case isFalse h =>
      rw [if_neg h] at this
      omega
  case shadow =>
    intro j _ hj
    have hne : j ≠ k := by
      rintro rfl
      simp [hk.drizzle] at hj
    have := hholders j
    rw [if_neg hne] at this
    rw [hconn, if_neg hne]
    omega
  case new =>
    intro j hj hj'
    simp [hw] at hj'
    omega
  case frame =>
    intro j _ hj
    have hne : j ≠ k := by
      rintro rfl
      simp [St.holders, hk.connection] at hj
    rw [hconn, if_neg hne]
  case active =>
    intro _
    have hact : s'.w.pool.activeConns = s.w.pool.activeConns - 1 := by simp [hw]
    rw [hact]
    exact counter_pred hcounted
  case queues => simp [hw]
  case room =>
    intro hlt
    omega
  case items =>
    intro item hmem
    exact .inl (by rwa [hcache] at hmem)
  case kept =>
    intro item _ hmem j hj
    have hne : j ≠ k := by
      rintro rfl
      exact St.connection_ne_of_mem hle hmem hj hk.connection
    rw [hconn, if_neg hne]

/-- A connection of a request that is saved in a free item. -/
lemma saveIn_free_moves (hk : s.Holds k) (hle : ∀ k, s.holders k ≤ 1) {item : Item}
    {free : List Item} (hfree : s.w.pool.free = item :: free) :
    Moves c s (({ s with w := { s.w with pool := { s.w.pool with free := free } } } : St).saveIn k
      item none) := by
  obtain ⟨s', hs'⟩ : ∃ s', s' = (({ s with w := { s.w with pool :=
    { s.w.pool with free := free } } } : St).saveIn k item none) := ⟨_, rfl⟩
  obtain ⟨item', hcache, hitem, hdc⟩ : ∃ item', s'.w.pool.cache = item' :: s.w.pool.cache ∧
      item'.connection = some k ∧ item'.drizzleCon = some k :=
    ⟨_, by rw [hs']; rfl, rfl, hk.drizzleCon⟩
  rw [← hs']
  have hc : s'.r.connection = none := by rw [hs']; rfl
  have hconn : ∀ j, s'.w.conns j = if j = k then (s.w.conns k).delTimers else s.w.conns j := by
    intro j
    simp [hs', St.saveIn, Worker.modConn_conns]
  have hholders : ∀ j, s'.holders j = s.holders j := by
    intro j
    simp only [St.holders, hc, hcache, hk.connection, List.countP_cons, hitem, Option.some.injEq]
    simp [Nat.add_comm]
  have hdb : s.onDb = true := by simp [St.onDb, hk.connection, hk.drizzle]
  have hdb' : s'.onDb = false := by simp [St.onDb, hc]
  have hcounted : s'.counted = s.counted := by
    simp [St.counted, hcache, hdb, hdb', Nat.add_comm]
  have hconf : s'.w.conf = s.w.conf := by rw [hs']; rfl
  have hact : s'.w.pool.activeConns = s.w.pool.activeConns := by rw [hs']; rfl
  have hfree' : s'.w.pool.free = free := by rw [hs']; rfl
  have hident : ∀ j, (s'.w.conns j).ident = (s.w.conns j).ident := by
    intro j
    rw [hconn]
    split
    case isTrue h => rw [h]; rfl
    case isFalse => rfl
  have hfreed : ∀ j, (s'.w.conns j).freed = (s.w.conns j).freed :=
    fun j => (congrArg Conn.freed (hident j) :)
  constructor
  case conf => exact hconf
  case nconns => rw [hs']; exact Nat.le_refl _
  case id => rw [hs']; rfl
  case drizzle => exact fun j _ => (congrArg Conn.drizzle (hident j) :)
  case balance =>
    intro j _ _
    rw [hholders, hfreed]
  case shadow =>
    intro j _ _
    rw [hholders, hfreed]
    exact ⟨Nat.le_refl _, rfl⟩
  case new =>
    intro j hj hj'
    have : s'.w.nconns = s.w.nconns := by rw [hs']; rfl
    omega
  case frame =>
    intro j _ hj
    have hne : j ≠ k := by
      rintro rfl
      simp [St.holders, hk.connection] at hj
    rw [hconn, if_neg hne]
  case active =>
    intro _
    rw [hact, hcounted]
  case queues =>
    simp [hcache, hfree', hfree]
    omega
  case room =>
    intro hlt
    omega
  case items =>
    intro it hmem
    rw [hcache, List.mem_cons] at hmem
    rcases hmem with rfl | hmem
    · refine .inr ⟨k, hk, hitem, hdc, ?_, ?_, ?_⟩
      · rw [hs']; exact hk.lt
      · rw [hconn, if_pos rfl]; exact hk.drizzle
      · rw [hconn, if_pos rfl]; exact hk.fd
    · exact .inl hmem
  case kept =>
    intro it _ hmem j hj
    have hne : j ≠ k := by
      rintro rfl
      exact St.connection_ne_of_mem hle hmem hj hk.connection
    rw [hconn, if_neg hne]

/-- A connection of a request that is saved in the last item of the cache. -/
lemma saveIn_evict_moves (hk : s.Holds k) (hle : ∀ k, s.holders k ≤ 1) {item : Item}
    {cache : List Item} {e : ℕ} (hcache : s.w.pool.cache = cache ++ [item])
    (he : item.Pools s.w e) {w : Worker}
    (hw : w = ({ s.w with pool := { s.w.pool with cache := cache } } : Worker).freeConnection
      item.connection item.drizzleCon) :
    Moves c s (({ s with w := w } : St).saveIn k item item.connection) := by
  obtain ⟨s', hs'⟩ : ∃ s', s' = ({ s with w := w } : St).saveIn k item item.connection :=
    ⟨_, rfl⟩
  rw [← hs']
  rw [hw, he.connection, he.drizzleCon] at hs'
  have hek : e ≠ k := by
    rintro rfl
    exact St.connection_ne_of_mem hle (by simp [hcache]) he.connection hk.connection
  obtain ⟨item', hcache', hitem, hdc⟩ : ∃ item', s'.w.pool.cache = item' :: cache ∧
      item'.connection = some k ∧ item'.drizzleCon = some k :=
    ⟨_, by rw [hs']; rfl, rfl, hk.drizzleCon⟩
  have hc : s'.r.connection = none := by rw [hs']; rfl
  have hconn : ∀ j, s'.w.conns j =
      if j = k then (s.w.conns k).delTimers
      else if j = e then (s.w.conns e).free.close else s.w.conns j := by
    intro j
    simp [hs', St.saveIn, Worker.modConn_conns, Worker.freeConnection_conns, hek.symm]
  have hholders : ∀ j, s'.holders j + (if j = e then 1 else 0) = s.holders j := by
    intro j
    simp only [St.holders, hc, hcache, hcache', hk.connection, List.countP_cons,
      List.countP_append, List.countP_nil, hitem, he.connection, Option.some.injEq,
      eq_comm (a := j)]
    simp
    omega
  have hdb : s.onDb = true := by simp [St.onDb, hk.connection, hk.drizzle]
  have hdb' : s'.onDb = false := by simp [St.onDb, hc]
  have hcounted : s.counted = s'.counted + 1 := by
    simp [St.counted, hcache, hcache', hdb, hdb', Nat.add_comm]
  have hconf : s'.w.conf = s.w.conf := by rw [hs']; simp [St.saveIn]
  have hact : s'.w.pool.activeConns = s.w.pool.activeConns - 1 := by rw [hs']; simp [St.saveIn]
  have hfree : s'.w.pool.free = s.w.pool.free := by rw [hs']; simp [St.saveIn]
  constructor
  case conf => exact hconf
  case nconns => rw [hs']; simp [St.saveIn]
  case id => rw [hs']; rfl
  case drizzle =>
    intro j _
    rw [hconn]
    split
    case isTrue h => rw [h]; rfl
    case isFalse =>
      split
      case isTrue h => rw [h]; rfl
      case isFalse => rfl
  case balance =>
    intro j _ _
    have := hholders j
    rw [hconn]
    split
    case isTrue h =>
      rw [if_neg (by rw [h]; exact hek.symm)] at this
      subst h
      simp only [Conn.delTimers]
      omega
    case isFalse =>
      split
      case isTrue h =>
        rw [if_pos h] at this
        subst h
        simp only [Conn.free, Conn.close]
        omega
      case isFalse h =>
        rw [if_neg h] at this
        omega
  case shadow =>
    intro j _ hj
    have hne : j ≠ k := by
      rintro rfl
      simp [hk.drizzle] at hj
    have hne' : j ≠ e := by
      rintro rfl
      simp [he.drizzle] at hj
    have := hholders j
    rw [if_neg hne'] at this
    rw [hconn, if_neg hne, if_neg hne']
    omega
  case new =>
    intro j hj hj'
    have : s'.w.nconns = s.w.nconns := by rw [hs']; simp [St.saveIn]
    omega
  case frame =>
    intro j _ hj
    have hne : j ≠ k := by
      rintro rfl
      simp [St.holders, hk.connection] at hj
    have hne' : j ≠ e := by
      rintro rfl
      have := St.holders_of_mem (s := s) (show item ∈ s.w.pool.cache by simp [hcache]) he.connection
      rw [St.holders] at hj
      omega
    rw [hconn, if_neg hne, if_neg hne']
  case active =>
    intro _
    rw [hact]
    exact counter_pred hcounted
  case queues => simp [hcache, hcache', hfree]
  case room =>
    intro hlt
    omega
  case items =>
    intro it hmem
    rw [hcache', List.mem_cons] at hmem
    rcases hmem with rfl | hmem
    · refine .inr ⟨k, hk, hitem, hdc, ?_, ?_, ?_⟩
      · rw [hs']; simpa [St.saveIn] using hk.lt
      · rw [hconn, if_pos rfl]; exact hk.drizzle
      · rw [hconn, if_pos rfl]; exact hk.fd
    · exact .inl (by simp [hcache, hmem])
  case kept =>
    intro it hmem' hmem j hj
    have hne : j ≠ k := by
      rintro rfl
      exact St.connection_ne_of_mem hle hmem hj hk.connection
    -- the connection of the evicted item is not in the cache any more
    have hne' : j ≠ e := by
      rintro rfl
      rw [hcache', List.mem_cons] at hmem'
      rcases hmem' with rfl | hmem'
      · rw [hitem, Option.some.injEq] at hj
        exact hek hj.symm
      · have h₁ := hle j
        have h₂ : 1 ≤ cache.countP fun it => it.connection = some j :=
          List.countP_pos_iff.mpr ⟨it, hmem', by simpa using hj⟩
        simp only [St.holders, hcache, List.countP_append, List.countP_cons, List.countP_nil,
          he.connection] at h₁
        simp at h₁
        omega
    rw [hconn, if_neg hne, if_neg hne']

/-- The connection by which a request is rejected is taken away from it. -/
lemma placeholder_moves (hk : s.HoldsPlaceholder k)
    (hitems : ∀ item ∈ s.w.pool.cache, ∃ k, item.Pools s.w k) {f : Conn → Conn}
    (hf : ∀ con, (f con).drizzle = con.drizzle ∧ (f con).freed = con.freed)
    (hconf : s'.w.conf = s.w.conf) (hnconns : s'.w.nconns = s.w.nconns) (hid : s'.r.id = s.r.id)
    (hc : s'.r.connection = none) (hconns : s'.w.conns = (s.w.modConn k f).conns)
    (hcache : s'.w.pool.cache = s.w.pool.cache) (hfree : s'.w.pool.free = s.w.pool.free)
    (hact : c → s'.w.pool.activeConns = s.w.pool.activeConns) : Moves c s s' := by
  have hconn : ∀ j, j ≠ k → s'.w.conns j = s.w.conns j := by
    intro j hj
    rw [hconns, Worker.modConn_conns_of_ne f hj]
  have hident : ∀ j, (s'.w.conns j).drizzle = (s.w.conns j).drizzle ∧
      (s'.w.conns j).freed = (s.w.conns j).freed := by
    intro j
    rw [hconns, Worker.modConn_conns]
    split
    case isTrue h => rw [h]; exact hf _
    case isFalse => exact ⟨rfl, rfl⟩
  have hne : ∀ j, (s.w.conns j).drizzle → s.r.connection ≠ some j := by
    intro j hj hcj
    obtain rfl : k = j := by simpa [hk.connection] using hcj
    simp [hk.drizzle] at hj
  have hcounted : s'.counted = s.counted := by
    simp [St.counted, hcache, St.onDb, hc, hk.connection, hk.drizzle]
  constructor
  case conf => exact hconf
  case nconns => exact Nat.le_of_eq hnconns.symm
  case id => exact hid
  case drizzle => exact fun j _ => (hident j).1
  case balance =>
    intro j _ hj
    rw [(hident j).2]
    simp [St.holders, hc, hcache, hne j hj]
  case shadow =>
    intro j _ _
    refine ⟨?_, (hident j).2⟩
    simp [St.holders, hc, hcache]
  case new =>
    intro j hj hj'
    omega
  case frame =>
    intro j _ hj
    refine hconn j ?_
    rintro rfl
    simp [St.holders, hk.connection] at hj
  case active =>
    intro h
    rw [hact h, hcounted]
  case queues => rw [hcache, hfree]
  case room =>
    intro hlt
    omega
  case items => exact fun item hmem => .inl (hcache ▸ hmem)
  case kept =>
    intro item _ hmem j hj
    obtain ⟨j', hj'⟩ := hitems item hmem
    obtain rfl : j' = j := by simpa [hj'.connection] using hj
    refine hconn j' ?_
    rintro rfl
    exact hne j' hj'.drizzle hk.connection

lemma St.Rejected.congr (h : s.Rejected) (hw : s'.w = s.w) (hstatus : s'.r.statusN = s.r.statusN)
    (hstarted : s'.r.queryStarted = s.r.queryStarted)
    (hc : s'.r.connection = s.r.connection) (hd : s'.r.drizzleCon = s.r.drizzleCon) :
    s'.Rejected := by
  obtain ⟨k, hk⟩ := h.holds
  exact ⟨hstatus.trans h.status, hstarted.trans h.started, k, hc.trans hk.connection,
    hd.trans hk.drizzleCon, hw ▸ hk.lt, hw ▸ hk.drizzle, hw ▸ hk.fd⟩

/-- A request that is rejected has nothing to be saved. -/
lemma St.Rejected.not_reusable (h : s.Rejected) : s.r.reusable = false := by
  simp [Req.reusable, h.status]

lemma St.not_rejected (hs : s.Idle ∨ ∃ k, s.Holds k) : ¬ s.Rejected := by
  rintro ⟨_, _, j, hj⟩
  rcases hs with hidle | ⟨k, hk⟩
  · exact absurd (hidle.connection.symm.trans hj.connection) (by simp)
  · obtain rfl : k = j := Option.some.inj (hk.connection.symm.trans hj.connection)
    exact absurd (hk.drizzle.symm.trans hj.drizzle) (by simp)

lemma St.FreePeer.moves {failed : Bool} (h : St.FreePeer failed s s')
    (hs : s.Idle ∨ (∃ k, s.Holds k) ∨ s.Rejected) (hcount : c → ¬ s.Rejected)
    (hle : ∀ k, s.holders k ≤ 1) (hitems : ∀ item ∈ s.w.pool.cache, ∃ k, item.Pools s.w k) :
    Moves c s s' := by
  have hholds : ∀ k, s.r.connection = some k → s.Holds k ∨ s.HoldsPlaceholder k ∧ s.Rejected := by
    intro k hk
    rcases hs with hidle | ⟨j, hj⟩ | hrej
    · simp [hidle.connection] at hk
    · obtain rfl : j = k := by simpa [hj.connection] using hk
      exact .inl hj
    · obtain ⟨j, hj⟩ := hrej.holds
      obtain rfl : j = k := by simpa [hj.connection] using hk
      exact .inr ⟨hj, hrej⟩
  cases h with
  | idle b hc => exact ((Stays.refl s).modReq rfl rfl).moves hle
  | @closed b k hc hr =>
    rcases hholds _ hc with hk | ⟨hk, hrej⟩
    · exact dropConnection_moves hk hle b
    · have hw : ((s.modReq fun r => { r with failed := b }).dropConnection k).w =
          s.w.freeConnection (some k) none := by
        simp [dropConnection, hk.drizzleCon]
      refine placeholder_moves (f := Conn.close) hk hitems (fun _ => ⟨rfl, rfl⟩) ?_ ?_ rfl rfl ?_ ?_
        ?_ fun h => absurd hrej (hcount h) <;>
        rw [hw]
      · simp
      · simp
      · rfl
      · simp
      · simp
  | saved hc hmax hfailed hr ht =>
    rcases hholds _ hc with hk | ⟨_, hrej⟩
    · cases ht with
      | free hfree => exact saveIn_free_moves hk hle hfree
      | evict hfree hcache =>
        obtain ⟨e, he⟩ := hitems _ (hcache ▸ List.mem_append_right _ (List.mem_singleton_self _))
        exact saveIn_evict_moves hk hle hcache he rfl
    · exact absurd (hrej.not_reusable.symm.trans hr) (by simp)

/-! ## Getting a connection -/

/-- The states do not differ in what `Moves` is about. -/
structure Same (s s' : St) : Prop where
  conf : s'.w.conf = s.w.conf
  conns : s'.w.conns = s.w.conns
  nconns : s'.w.nconns = s.w.nconns
  activeConns : s'.w.pool.activeConns = s.w.pool.activeConns
  cache : s'.w.pool.cache = s.w.pool.cache
  free : s'.w.pool.free = s.w.pool.free
  id : s'.r.id = s.r.id
  connection : s'.r.connection = s.r.connection
  drizzleCon : s'.r.drizzleCon = s.r.drizzleCon

lemma Same.holds {s₁ : St} (h : Same s s₁) (hk : s₁.Holds k) : s.Holds k where
  connection := h.connection.symm.trans hk.connection
  drizzleCon := h.drizzleCon.symm.trans hk.drizzleCon
  lt := h.nconns ▸ hk.lt
  drizzle := h.conns ▸ hk.drizzle
  fd := h.conns ▸ hk.fd

lemma Same.counted {s₁ : St} (h : Same s s₁) : s₁.counted = s.counted := by
  rw [St.counted, St.counted, St.onDb, St.onDb, h.connection, h.conns, h.cache]

lemma Same.full {s₁ : St} (h : Same s s₁) : s₁.w.Full ↔ s.w.Full := by
  rw [Worker.Full, Worker.Full, h.conf, h.activeConns]

lemma Same.moves {s₁ : St} (h : Same s s₁) (hm : Moves c s₁ s') : Moves c s s' := by
  have hholders : ∀ k, s₁.holders k = s.holders k := by
    intro k
    rw [St.holders, St.holders, h.connection, h.cache]
  obtain ⟨hconf, hnconns, hid, hdrizzle, hbal, hshadow, hnew, hframe, hact, hqueues, hroom,
    hitems, hkept⟩ := hm
  simp only [h.conf, h.nconns, h.id, h.conns, hholders] at hconf hnconns hid hdrizzle hbal
  simp only [h.nconns, h.conns, h.cache, hholders] at hshadow hnew hframe hitems hkept
  simp only [h.cache, h.free, h.activeConns, h.counted, h.full] at hact hqueues hroom
  refine ⟨hconf, hnconns, hid, hdrizzle, hbal, hshadow, hnew, hframe, hact, hqueues, hroom,
    fun item hmem => ?_, hkept⟩
  rcases hitems item hmem with h' | ⟨k, hk, h'⟩
  · exact .inl h'
  · exact .inr ⟨k, h.holds hk, h'⟩

lemma Moves.same {s₁ : St} (hm : Moves c s s₁) (h : Same s₁ s') : Moves c s s' := by
  have hholders : ∀ k, s'.holders k = s₁.holders k := by
    intro k
    rw [St.holders, St.holders, h.connection, h.cache]
  constructor
  case conf => rw [h.conf, hm.conf]
  case nconns => rw [h.nconns]; exact hm.nconns
  case id => rw [h.id, hm.id]
  case drizzle => rw [h.conns]; exact hm.drizzle
  case balance => simp only [h.conns, hholders]; exact hm.balance
  case shadow => simp only [h.conns, hholders]; exact hm.shadow
  case new => simp only [h.conns, h.nconns, hholders]; exact hm.new
  case frame => rw [h.conns]; exact hm.frame
  case active => rw [h.activeConns, h.counted]; exact hm.active
  case queues => rw [h.cache, h.free]; exact hm.queues
  case room => rw [h.counted]; exact hm.room
  case items =>
    intro item hmem
    rw [h.cache] at hmem
    rcases hm.items item hmem with h' | ⟨k, hk, hp⟩
    · exact .inl h'
    refine .inr ⟨k, hk, hp.connection, hp.drizzleCon, ?_, ?_, ?_⟩
    · rw [h.nconns]; exact hp.lt
    · rw [h.conns]; exact hp.drizzle
    · rw [h.conns]; exact hp.fd
  case kept => rw [h.cache, h.conns]; exact hm.kept

lemma same_picked (s : St) : Same s s.picked := ⟨rfl, rfl, rfl, rfl, rfl, rfl, rfl, rfl, rfl⟩

/-- A connection of the cache is handed to a request without one. -/
lemma resumeCached_moves (hs : s.Idle) {item : Item} {l₁ l₂ : List Item}
    (hcache : s.w.pool.cache = l₁ ++ item :: l₂) (hk : item.Pools s.w k) :
    Moves c s (s.resumeCached item (l₁ ++ l₂)) := by
  have hholders : ∀ j, (s.resumeCached item (l₁ ++ l₂)).holders j = s.holders j := by
    intro j
    simp only [St.holders, St.resumeCached, hcache, hs.connection, List.countP_append,
      List.countP_cons, hk.connection, Option.some.injEq]
    simp
    omega
  have hdb : s.onDb = false := by simp [St.onDb, hs.connection]
  have hdb' : (s.resumeCached item (l₁ ++ l₂)).onDb = true := by
    simp [St.onDb, St.resumeCached, hk.connection, hk.drizzle]
  have hcounted : (s.resumeCached item (l₁ ++ l₂)).counted = s.counted := by
    rw [St.counted, St.counted, hdb, hdb']
    simp [St.resumeCached, hcache]
    omega
  constructor
  case conf => rfl
  case nconns => exact Nat.le_refl _
  case id => rfl
  case drizzle => exact fun _ _ => rfl
  case balance =>
    intro j _ _
    rw [hholders]
    rfl
  case shadow =>
    intro j _ _
    rw [hholders]
    exact ⟨Nat.le_refl _, rfl⟩
  case new =>
    intro j hj hj'
    exact absurd hj' (Nat.not_lt.mpr hj)
  case frame => exact fun _ _ _ => rfl
  case active =>
    intro _
    rw [hcounted]
    rfl
  case queues =>
    simp [St.resumeCached, hcache]
    omega
  case room =>
    intro hlt
    omega
  case items =>
    intro it hmem
    refine .inl ?_
    rw [hcache]
    simp only [St.resumeCached, List.mem_append, List.mem_cons] at hmem ⊢
    tauto
  case kept => exact fun _ _ _ _ _ => rfl

/-- A new connection is made, and handed to the request or not. -/
lemma new_moves (hs : s.Idle) (hitems : ∀ item ∈ s.w.pool.cache, ∃ k, item.Pools s.w k)
    {con : Conn} {d : ℕ} (hconf : s'.w.conf = s.w.conf) (hid : s'.r.id = s.r.id)
    (hconns : s'.w.conns = Function.update s.w.conns s.w.nconns con)
    (hnconns : s'.w.nconns = s.w.nconns + 1) (hcache : s'.w.pool.cache = s.w.pool.cache)
    (hfree : s'.w.pool.free = s.w.pool.free)
    (hact : s'.w.pool.activeConns = s.w.pool.activeConns + .ofNat d)
    (hroom : d ≠ 0 → ¬ s.w.Full)
    (hc : s'.r.connection = none ∧ d = 0 ∧ con.drizzle ∧ con.freed = 1 ∨
      s'.r.connection = some s.w.nconns ∧ d = con.drizzle.toNat ∧ con.freed = 0) :
    Moves c s s' := by
  have hcount : s.w.pool.cache.countP (fun item => item.connection = some s.w.nconns) = 0 := by
    refine List.countP_eq_zero.mpr fun item hmem => ?_
    obtain ⟨k, hk⟩ := hitems item hmem
    have := hk.lt
    simp only [hk.connection, Option.some.injEq, decide_eq_true_eq]
    omega
  have hconn : ∀ j, j < s.w.nconns → s'.w.conns j = s.w.conns j := by
    intro j hj
    rw [hconns, Function.update_of_ne (by omega)]
  have hnewcon : s'.w.conns s.w.nconns = con := by rw [hconns, Function.update_self]
  -- the new connection has a number of its own, so the others keep their holders
  have hholders : ∀ j, j < s.w.nconns → s'.holders j = s.holders j := by
    intro j hj
    have hne : s'.r.connection ≠ some j := by
      rcases hc with ⟨h, _⟩ | ⟨h, _⟩ <;> rw [h] <;> simp
      omega
    simp [St.holders, hcache, hs.connection, hne]
  have hdb : s.onDb = false := by simp [St.onDb, hs.connection]
  have hdb' : s'.onDb.toNat = d := by
    rcases hc with ⟨h, hd, _⟩ | ⟨h, hd, _⟩
    · simp [St.onDb, h, hd]
    · simp [St.onDb, h, hnewcon, hd]
  have hcounted : s'.counted = s.counted + d := by
    rw [St.counted, St.counted, hdb, hdb', hcache]
    simp [Nat.add_comm]
  constructor
  case conf => exact hconf
  case nconns => omega
  case id => exact hid
  case drizzle =>
    intro j hj
    rw [hconn j hj]
  case balance =>
    intro j hj _
    rw [hholders j hj, hconn j hj]
  case shadow =>
    intro j hj _
    rw [hholders j hj, hconn j hj]
    exact ⟨Nat.le_refl _, rfl⟩
  case new =>
    intro j hj hj'
    obtain rfl : j = s.w.nconns := by omega
    rw [hnewcon, St.holders, hcache, hcount]
    rcases hc with ⟨h, hd, hdrizzle, hfreed⟩ | ⟨h, hd, hfreed⟩
    · simp [h, hdrizzle, hfreed]
    · simp [h, hfreed]
  case frame => exact fun j hj _ => hconn j hj
  case active =>
    intro _
    rw [hact, hcounted, UInt64.ofNat_add]
    grind
  case queues => rw [hcache, hfree]
  case room =>
    intro hlt
    have hle : d ≤ 1 := by
      rw [← hdb']
      exact Bool.toNat_le _
    exact ⟨by omega, hroom (by omega)⟩
  case items =>
    intro item hmem
    exact .inl (by rwa [hcache] at hmem)
  case kept =>
    intro item _ hmem j hj
    obtain ⟨k, hk⟩ := hitems item hmem
    obtain rfl : k = j := by simpa [hk.connection] using hj
    exact hconn k hk.lt

lemma St.CreateConnection.moves {rc : Rc} {i : ℕ} (h : s.CreateConnection i rc s')
    (hs : s.Idle) (hle : ∀ k, s.holders k ≤ 1)
    (hitems : ∀ item ∈ s.w.pool.cache, ∃ k, item.Pools s.w k) (hroom : ¬ s.w.Full) :
    Moves c s s' := by
  cases h with
  | noMemory => exact (Stays.refl s).moves hle
  | refused hrc hcon hstate =>
    exact new_moves (d := 0) hs hitems rfl rfl rfl rfl rfl rfl rfl (fun _ => hroom)
      (.inl ⟨rfl, rfl, hcon.drizzle, hcon.freed⟩)
  | fresh hrc hcon =>
    exact new_moves (d := 1) hs hitems rfl rfl rfl rfl rfl rfl rfl (fun _ => hroom)
      (.inr ⟨rfl, by simp [hcon.drizzle], hcon.freed⟩)

lemma St.GetPeer.moves {rc : Rc} (h : s.GetPeer rc s') (hs : s.Idle)
    (hle : ∀ k, s.holders k ≤ 1)
    (hitems : ∀ item ∈ s.w.pool.cache, ∃ k, item.Pools s.w k) : Moves c s s' := by
  cases h with
  | @single item cache hmax hsingle hcache =>
    obtain ⟨k, hk⟩ := hitems item (by rw [hcache]; exact List.mem_cons_self)
    obtain ⟨s₁, hs₁⟩ : ∃ s₁, s₁ = s.modReq fun r =>
      { r with failed := false, name := item.name, sockaddr := item.sockaddr } := ⟨_, rfl⟩
    have hsame : Same s s₁ := by
      rw [hs₁]
      exact ⟨rfl, rfl, rfl, rfl, rfl, rfl, rfl, rfl, rfl⟩
    rw [← hs₁]
    exact hsame.moves (resumeCached_moves
      ⟨hsame.connection.trans hs.connection, hsame.drizzleCon.trans hs.drizzleCon⟩
      (show s₁.w.pool.cache = [] ++ _ from hsame.cache.trans hcache) (by rw [hs₁]; exact hk))
  | busy hleft => exact ((Stays.refl s).modReq rfl rfl).moves hle
  | @multi item l₁ l₂ hmax hmulti hcache haddr =>
    obtain ⟨k, hk⟩ := hitems item (by rw [hcache]; simp)
    have hm := resumeCached_moves (c := c) (s := s.picked) ⟨hs.connection, hs.drizzleCon⟩ hcache
      ⟨hk.connection, hk.drizzleCon, hk.lt, hk.drizzle, hk.fd⟩
    exact (same_picked s).moves hm
  | overflow getConn hfull =>
    cases getConn with
    | true =>
      exact new_moves (d := 0) hs hitems rfl rfl rfl rfl rfl rfl (by simp [St.rejectOverflow,
        St.picked, St.selectPeer]) (fun h => absurd rfl h) (.inr ⟨rfl, rfl, rfl⟩)
    | false =>
      exact ((Stays.refl s).moves hle).same
        ⟨rfl, rfl, rfl, rfl, rfl, rfl, rfl, hs.connection.symm, rfl⟩
  | create hroom h =>
    exact (same_picked s).moves
      (h.moves ⟨hs.connection, hs.drizzleCon⟩ hle
        (fun item hmem => (hitems item hmem).imp fun k hk =>
          ⟨hk.connection, hk.drizzleCon, hk.lt, hk.drizzle, hk.fd⟩) hroom)

/-- A request that has got the connection of an item holds it. -/
lemma St.holds_resumeCached {item : Item} {cache : List Item} (hk : item.Pools s.w k) :
    (s.resumeCached item cache).Holds k :=
  ⟨hk.connection, hk.drizzleCon, hk.lt, hk.drizzle, hk.fd⟩

/-- What the request holds when `getPeer` has returned. -/
lemma St.GetPeer.ok {rc : Rc} (h : s.GetPeer rc s') (hok : Pos.Ok .dbdConnect s)
    (hord : s.r.Ordered .dbdConnect)
    (hitems : ∀ item ∈ s.w.pool.cache, ∃ k, item.Pools s.w k) :
    Pos.Ok (.dbdConnected rc) s' := by
  obtain ⟨hlive, hidle, hstarted⟩ := hok
  cases h with
  | @single item cache hmax hsingle hcache =>
    obtain ⟨k, hk⟩ := hitems item (by rw [hcache]; exact List.mem_cons_self)
    exact ⟨hlive, k, St.holds_resumeCached (s := s.modReq _) hk⟩
  | busy hleft => exact ⟨hlive, hidle.connection, hidle.drizzleCon⟩
  | @multi item l₁ l₂ hmax hmulti hcache haddr =>
    obtain ⟨k, hk⟩ := hitems item (by rw [hcache]; simp)
    exact ⟨hlive, k, St.holds_resumeCached (s := s.picked)
      ⟨hk.connection, hk.drizzleCon, hk.lt, hk.drizzle, hk.fd⟩⟩
  | overflow getConn hfull =>
    cases getConn with
    | true =>
      refine ⟨hlive, .inr (.inr ⟨hord.status hlive nofun, hstarted, s.w.nconns, rfl,
        hidle.drizzleCon, Nat.lt_succ_self _, ?_, ?_⟩)⟩ <;>
      simp [St.rejectOverflow, St.picked, St.selectPeer]
    | false => exact ⟨hlive, .inr (.inl ⟨rfl, hidle.drizzleCon⟩)⟩
  | create hroom h =>
    cases h with
    | noMemory => exact ⟨hlive, hidle.connection, hidle.drizzleCon⟩
    | @refused _ con state hrc hcon hstate =>
      rcases hrc with rfl | rfl
      · exact ⟨hlive, rfl, rfl⟩
      · exact ⟨hlive, rfl, rfl⟩
    | @fresh _ con state hrc hcon =>
      have hk : (s.picked.addCon con 1 (some s.w.nconns) (some s.w.nconns) state).Holds
          s.w.nconns := by
        refine ⟨rfl, rfl, Nat.lt_succ_self _, ?_, ?_⟩
        · simpa [St.addCon, St.picked, St.selectPeer] using hcon.drizzle
        · simpa [St.addCon, St.picked, St.selectPeer] using hcon.fd
      rcases hrc with ⟨rfl, _⟩ | ⟨rfl, _⟩
      · exact ⟨hlive, .inl ⟨_, hk⟩⟩
      · exact ⟨hlive, _, hk⟩

end DrizzleNginx
