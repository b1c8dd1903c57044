/-
# The pool is a bounded stack

The keepalive pool keeps its items in two queues, one for those that hold a connection and one for
those that are free.  What it is for is simpler: a stack of connections with a bounded number of
entries, the one that was released last on top, which drops the oldest connection when there is no
room for another one.  Every operation of the pool is an operation of that stack.

In a worker process, what an entry says about its connection is true of the connection.
-/
import DrizzleNginx.Lib.Stack
import DrizzleNginx.Proofs.Entries

namespace DrizzleNginx

/-! ## Operations of the pool -/

/-- An operation of the pool: a call of `ngx_http_drizzle_keepalive_get_peer_single`,
`ngx_http_drizzle_keepalive_get_peer_multi` or `ngx_http_drizzle_keepalive_free_peer` for a request,
or an event of the connection in a slot. -/
inductive PoolOp
  | getSingle (r : Req)
  | getMulti (r : Req)
  | freePeer (r : Req) (failed : Bool)
  | close (slot : ℕ) (stale : Bool)

/-- What an item says about its connection. -/
def Item.entry (item : Item) : Item := { item with slot := 0 }

/-- The connections in the pool, the one that was released last first. -/
def Worker.stack (w : Worker) : List Item := w.pool.cache.map Item.entry

/-- The entry for the connection that `ngx_http_drizzle_keepalive_free_peer` saves, if it does. -/
def Req.released (failed : Bool) (r : Req) : Option Item :=
  let r := if failed then { r with failed := true } else r
  match r.connection with
  | none => none
  | some k =>
    if r.reusable then
      some {
        slot := 0
        connection := some k
        drizzleCon := r.drizzleCon
        sockaddr := r.sockaddr
        name := r.name
        used := r.used + 1
        hasSetNames := r.hasSetNames }
    else none

namespace PoolOp

/-- The worker process behind an operation. -/
def apply (op : PoolOp) (w : Worker) : Worker :=
  match op with
  | getSingle r => (St.keepaliveGetPeerSingle { w := w, r := r }).2.w
  | getMulti r => (St.keepaliveGetPeerMulti { w := w, r := r }).2.w
  | freePeer r failed => (St.keepaliveFreePeer failed { w := w, r := r }).w
  | close slot stale => w.closeHandler slot stale

/-- What an operation is for the stack. -/
def stackOp (op : PoolOp) (w : Worker) : Lib.Stack.Op Item :=
  match op with
  | getSingle _ => .take fun _ => true
  | getMulti r => .take fun entry => entry.sockaddr = r.sockaddr
  | freePeer r failed => match r.released failed with
    | some entry => .push entry
    | none => .skip
  | close slot stale =>
    if stale then .skip else .remove (w.pool.cache.findIdx fun item => item.slot = slot)

/-- The entry that an operation releases into the pool. -/
def released : PoolOp → Option Item
  | freePeer r failed => r.released failed
  | _ => none

/-- The worker process behind some operations, the first one first. -/
def run (ops : List PoolOp) (w : Worker) : Worker := ops.foldl (fun w op => op.apply w) w

/-- What these operations are for the stack. -/
def stackOps : List PoolOp → Worker → List (Lib.Stack.Op Item)
  | [], _ => []
  | op :: ops, w => op.stackOp w :: stackOps ops (op.apply w)

end PoolOp

/-- Each item of the pool is in one of the queues, once. -/
def Worker.Slots (w : Worker) : Prop :=
  ((w.pool.cache ++ w.pool.free).map Item.slot).Perm (List.range w.conf.maxCached)

/-- A request has what an entry says about its connection. -/
structure Req.Has (r : Req) (entry : Item) : Prop where
  connection : r.connection = entry.connection
  cached : r.cached
  drizzleCon : r.drizzleCon = entry.drizzleCon
  sockaddr : r.sockaddr = entry.sockaddr
  hasSetNames : r.hasSetNames = entry.hasSetNames
  used : r.used = entry.used

/-- A request gets the connection that was released last among those with a property.  If there is
none, then nothing happens. -/
inductive St.Gets (P : Item → Prop) (s : St) : Rc × St → Prop
  | hit {entry : Item} {l₁ l₂ : List Item} {s' : St} (hstack : s.w.stack = l₁ ++ entry :: l₂)
      (hp : P entry) (hnew : ∀ e ∈ l₁, ¬ P e) (hstack' : s'.w.stack = l₁ ++ l₂)
      (hconns : s'.w.conns = s.w.conns) (hreq : s'.r.Has entry) : Gets P s (.done, s')
  | miss (hnone : ∀ e ∈ s.w.stack, ¬ P e) : Gets P s (.declined, s)

/-- A connection is released into the pool.  If there is no room for it, then the connection that
was released first is closed. -/
inductive Worker.Saves (k : ℕ) (entry : Item) (w : Worker) : Worker → Prop
  | room {w' : Worker} (hroom : w.stack.length < w.conf.maxCached)
      (hstack' : w'.stack = entry :: w.stack)
      (hconns : w'.conns = (w.modConn k Conn.delTimers).conns) : Saves k entry w w'
  | full {w' : Worker} {rest : List Item} {last : Item} (hfull : w.stack.length = w.conf.maxCached)
      (hstack : w.stack = rest ++ [last]) (hstack' : w'.stack = entry :: rest)
      (hconns : w'.conns =
        ((w.freeConnection last.connection last.drizzleCon).modConn k Conn.delTimers).conns) :
      Saves k entry w w'

/-- The connection in a slot is closed, if there is one. -/
inductive Worker.Closes (slot : ℕ) (w : Worker) : Worker → Prop
  | closed {w' : Worker} {item : Item} {l₁ l₂ : List Item}
      (hcache : w.pool.cache = l₁ ++ item :: l₂) (hslot : item.slot = slot)
      (hnew : ∀ it ∈ l₁, it.slot ≠ slot) (hcache' : w'.pool.cache = l₁ ++ l₂)
      (hconns : w'.conns = (w.freeConnection item.connection item.drizzleCon).conns) :
      Closes slot w w'
  | vacant (hnone : ∀ item ∈ w.pool.cache, item.slot ≠ slot) : Closes slot w w

/-- What the operations of the pool do to its stack, and to the connections. -/
structure Worker.IsStack (w : Worker) : Prop where
  single : ∀ r, St.Gets (fun _ => True) { w := w, r := r }
    (St.keepaliveGetPeerSingle { w := w, r := r })
  multi : ∀ r, St.Gets (fun entry => entry.sockaddr = r.sockaddr) { w := w, r := r }
    (St.keepaliveGetPeerMulti { w := w, r := r })
  saves : ∀ r failed entry, r.released failed = some entry → ∃ k, entry.connection = some k ∧
    w.Saves k entry (St.keepaliveFreePeer failed { w := w, r := r }).w
  unsaved : ∀ r failed, r.released failed = none →
    (St.keepaliveFreePeer failed { w := w, r := r }).w = w
  closes : ∀ slot, w.Closes slot (w.closeHandler slot false)
  stale : ∀ slot, w.closeHandler slot true = w

variable {w w' : Worker} {item entry : Item} {r : Req} {failed : Bool} {k : ℕ}

/-! ## Single operations -/

/-- In the free queue there is an item for each connection that there is room for. -/
lemma Worker.Slots.length_stack (h : w.Slots) :
    w.stack.length + w.pool.free.length = w.conf.maxCached := by
  have := h.length_eq
  rw [List.length_map, List.length_append, List.length_range] at this
  rwa [stack, List.length_map]

lemma Worker.modConn_conns_congr (k : ℕ) (f : Conn → Conn) (h : w.conns = w'.conns) :
    (w.modConn k f).conns = (w'.modConn k f).conns := by
  simp only [modConn, h]

/-- What becomes of connections does not depend on the queues. -/
lemma Worker.freeConnection_conns_congr (c dc : Option ℕ) (h : w.conns = w'.conns) :
    (w.freeConnection c dc).conns = (w'.freeConnection c dc).conns := by
  cases c <;> cases dc <;> simp [freeConnection, modConn, h]

lemma Worker.stack_cons_entry {cache : List Item} (h : w.pool.cache = item :: cache) :
    w.stack = item.entry :: cache.map Item.entry := by
  rw [stack, h, List.map_cons]

namespace St

lemma resumeCached_has (s : St) (cache : List Item) (h : s.r.sockaddr = item.sockaddr) :
    (s.resumeCached item cache).r.Has item.entry :=
  ⟨rfl, rfl, rfl, h, rfl, rfl⟩

lemma gets_single (s : St) : Gets (fun _ => True) s s.keepaliveGetPeerSingle := by
  unfold keepaliveGetPeerSingle
  split
  · next hcache =>
    refine .miss ?_
    simp [Worker.stack, hcache]
  · next item cache hcache =>
    have hsplit : s.w.stack = [] ++ item.entry :: cache.map Item.entry :=
      Worker.stack_cons_entry hcache
    exact .hit hsplit trivial (by simp) rfl rfl (resumeCached_has _ _ rfl)

lemma gets_multi (s : St) :
    Gets (fun entry => entry.sockaddr = s.r.sockaddr) s s.keepaliveGetPeerMulti := by
  rcases keepaliveGetPeerMulti_cases s with
    ⟨hdecl, hnone⟩ | ⟨item, l₁, l₂, hcache, haddr, hfirst, hdone⟩
  · rw [hdecl]
    refine .miss fun e he => ?_
    obtain ⟨it, hit, rfl⟩ := List.mem_map.mp he
    exact hnone it hit
  · rw [hdone]
    have hitem : item.entry.sockaddr = s.r.sockaddr := haddr
    have hsplit : s.w.stack = l₁.map Item.entry ++ item.entry :: l₂.map Item.entry := by
      rw [Worker.stack, hcache, List.map_append, List.map_cons]
    refine .hit hsplit hitem (fun e he => ?_) ?_ rfl (resumeCached_has _ _ haddr.symm)
    · obtain ⟨it, hit, rfl⟩ := List.mem_map.mp he
      exact hfirst it hit
    · exact List.map_append

lemma keepaliveFreePeer_unsaved (s : St) (h : s.r.released failed = none) :
    (s.keepaliveFreePeer failed).w = s.w := by
  cases hc : s.r.connection with
  | none => cases failed <;> simp [keepaliveFreePeer, hc]
  | some k =>
    cases failed with
    | true => simp [keepaliveFreePeer, hc, Req.reusable]
    | false =>
      have hr : s.r.reusable = false := by simpa [Req.released, hc] using h
      simp [keepaliveFreePeer, hc, hr]

lemma keepaliveFreePeer_released (s : St) (h : s.r.released failed = some entry) :
    ∃ k, s.keepaliveFreePeer failed = s.saveConnection k ∧ entry = {
      slot := 0
      connection := some k
      drizzleCon := s.r.drizzleCon
      sockaddr := s.r.sockaddr
      name := s.r.name
      used := s.r.used + 1
      hasSetNames := s.r.hasSetNames } := by
  cases failed with
  | true =>
    -- a request that failed does not release its connection
    cases hc : s.r.connection <;> simp [Req.released, Req.reusable, hc] at h
  | false =>
    cases hc : s.r.connection with
    | none => simp [Req.released, hc] at h
    | some k =>
      by_cases hr : s.r.reusable
      · refine ⟨k, by simp [keepaliveFreePeer, hc, hr], ?_⟩
        simpa [Req.released, hc, hr, eq_comm] using h
      · simp [Req.released, hc, hr] at h

/-- With items in the pool, a connection that can be used again is saved in the first free item, or
in that of the connection that was released first. -/
lemma keepaliveFreePeer_saves (s : St) (hslots : s.w.Slots) (hmax : s.w.conf.maxCached ≠ 0)
    (h : s.r.released failed = some entry) :
    ∃ k it item evicted w, TakeItem s.w item evicted w ∧ it.slot = item.slot ∧
      it.entry = entry ∧ entry.connection = some k ∧ (s.keepaliveFreePeer failed).w =
        ({ w with pool := { w.pool with cache := it :: w.pool.cache } } : Worker).modConn k
          Conn.delTimers := by
  obtain ⟨k, hs', rfl⟩ := s.keepaliveFreePeer_released h
  have hne : s.w.pool.cache ≠ [] ∨ s.w.pool.free ≠ [] := by
    by_contra hnil
    simp only [not_or, ne_eq, not_not] at hnil
    have hlen := hslots.length_stack
    simp only [Worker.stack, hnil.1, hnil.2, List.map_nil, List.length_nil] at hlen
    omega
  obtain ⟨item, evicted, w, htake, ht⟩ := takeItem_cases hne
  let it : Item := {
    slot := item.slot
    connection := some k
    drizzleCon := s.r.drizzleCon
    sockaddr := s.r.sockaddr
    name := s.r.name
    used := s.r.used + 1
    hasSetNames := s.r.hasSetNames }
  refine ⟨k, it, item, evicted, w, ht, rfl, rfl, rfl, ?_⟩
  rw [hs', saveConnection, htake]
  rfl

lemma saves_freePeer (s : St) (hslots : s.w.Slots) (hmax : s.w.conf.maxCached ≠ 0)
    (h : s.r.released failed = some entry) :
    ∃ k, entry.connection = some k ∧ s.w.Saves k entry (s.keepaliveFreePeer failed).w := by
  obtain ⟨k, it, item, evicted, w, ht, hslot, rfl, hk, hw⟩ :=
    keepaliveFreePeer_saves s hslots hmax h
  refine ⟨k, hk, ?_⟩
  have hlen := hslots.length_stack
  rw [hw]
  cases ht with
  | free hfree =>
    rw [hfree, List.length_cons] at hlen
    exact .room (by omega) rfl rfl
  | @evict cache hfree hcache =>
    rw [hfree, List.length_nil] at hlen
    have hsplit : s.w.stack = cache.map Item.entry ++ [item.entry] := by
      rw [Worker.stack, hcache, List.map_append, List.map_singleton]
    refine .full hlen hsplit ?_ ?_
    · simp [Worker.stack]
    · exact Worker.modConn_conns_congr k Conn.delTimers
        (Worker.freeConnection_conns_congr item.connection item.drizzleCon rfl)

end St

/-- The handler of idle connections closes the connection in a slot. -/
lemma Worker.closeHandler_slot (w : Worker) (slot : ℕ) :
    (w.closeHandler slot false = w ∧ ∀ item ∈ w.pool.cache, item.slot ≠ slot) ∨
    ∃ item l₁ l₂, w.pool.cache = l₁ ++ item :: l₂ ∧ item.slot = slot ∧
      (∀ it ∈ l₁, it.slot ≠ slot) ∧ w.closeHandler slot false =
        { w.freeConnection item.connection item.drizzleCon with pool := { w.pool with
          activeConns := w.pool.activeConns - 1
          cache := l₁ ++ l₂
          free := item :: w.pool.free } } := by
  unfold closeHandler
  rw [if_neg Bool.false_ne_true]
  split
  · next hfind => exact .inl ⟨rfl, by simpa using hfind⟩
  · next item hfind =>
    obtain ⟨hslot, l₁, l₂, hcache, hne⟩ := List.find?_eq_some_iff_append.mp hfind
    refine .inr ⟨item, l₁, l₂, hcache, of_decide_eq_true hslot, by simpa using hne, ?_⟩
    have herase : (w.pool.cache.eraseP fun item => item.slot = slot) = l₁ ++ l₂ := by
      rw [hcache, List.eraseP_append_right _ (by simpa using hne),
        List.eraseP_cons_of_pos (p := fun item : Item => item.slot = slot) hslot]
    simp [herase]

lemma Worker.closes_closeHandler (w : Worker) (slot : ℕ) :
    w.Closes slot (w.closeHandler slot false) := by
  rcases w.closeHandler_slot slot with ⟨heq, hnone⟩ | ⟨item, l₁, l₂, hcache, hslot, hnew, heq⟩
  · rw [heq]
    exact .vacant hnone
  · rw [heq]
    exact .closed hcache hslot hnew rfl rfl

/-- The operations of a pool whose items are in its queues do what they are for. -/
theorem Worker.Slots.isStack (h : w.Slots) (hmax : w.conf.maxCached ≠ 0) : w.IsStack where
  single r := St.gets_single { w := w, r := r }
  multi r := St.gets_multi { w := w, r := r }
  saves r _ _ := St.saves_freePeer { w := w, r := r } h hmax
  unsaved r _ := St.keepaliveFreePeer_unsaved { w := w, r := r }
  closes := w.closes_closeHandler
  stale _ := rfl

/-! ## The queues -/

namespace Worker

/-- The item of a connection that leaves the pool goes to the free queue. -/
lemma Slots.move {l₁ l₂ : List Item} (h : w.Slots) (hcache : w.pool.cache = l₁ ++ item :: l₂)
    (hconf : w'.conf = w.conf) (hcache' : w'.pool.cache = l₁ ++ l₂)
    (hfree' : w'.pool.free = item :: w.pool.free) : w'.Slots := by
  have hperm : (w'.pool.cache ++ w'.pool.free).Perm (w.pool.cache ++ w.pool.free) := by
    simp only [hcache', hfree', hcache, List.append_assoc, List.cons_append]
    exact List.perm_middle.append_left l₁
  rw [Slots, hconf]
  exact (hperm.map Item.slot).trans h

/-- The item in which a connection is saved comes from one of the queues. -/
lemma Slots.takeItem {evicted : Option ℕ} (h : w.Slots) (ht : St.TakeItem w item evicted w')
    (hslot : entry.slot = item.slot) :
    ({ w' with pool := { w'.pool with cache := entry :: w'.pool.cache } } : Worker).Slots := by
  unfold Slots at h ⊢
  cases ht with
  | @free free hfree =>
    refine List.Perm.trans ?_ h
    simp only [hfree, List.cons_append, List.map_append, List.map_cons, hslot]
    exact List.perm_middle.symm
  | @evict cache hfree hcache =>
    simp only [freeConnection_pool, freeConnection_conf]
    refine List.Perm.trans ?_ h
    simp only [hfree, hcache, List.append_nil, List.map_append, List.map_cons, List.map_nil, hslot]
    exact (List.perm_append_singleton ..).symm

/-- Two worker processes have the same pool. -/
structure SameQueues (w w' : Worker) : Prop where
  conf : w.conf = w'.conf
  cache : w.pool.cache = w'.pool.cache
  free : w.pool.free = w'.pool.free

lemma SameQueues.slots (h : w.SameQueues w') (hw : w'.Slots) : w.Slots := by
  rw [Slots, h.conf, h.cache, h.free]
  exact hw

lemma SameQueues.trans {w₁ : Worker} (h : w.SameQueues w₁) (h' : w₁.SameQueues w') :
    w.SameQueues w' :=
  ⟨h.conf.trans h'.conf, h.cache.trans h'.cache, h.free.trans h'.free⟩

end Worker

lemma St.TakeItem.eq {evicted : Option ℕ} (h : TakeItem w item evicted w') :
    w.takeItem = (some item, evicted, w') := by
  cases h with
  | free hfree => simp [Worker.takeItem, hfree]
  | evict hfree hcache => simp [Worker.takeItem, hfree, hcache]

lemma St.TakeItem.conf {evicted : Option ℕ} (h : TakeItem w item evicted w') :
    w'.conf = w.conf := by
  cases h with
  | free hfree => rfl
  | evict hfree hcache => exact Worker.freeConnection_conf ..

/-! ## Refinement -/

namespace PoolOp

lemma pushed_stackOp (op : PoolOp) (w : Worker) : (op.stackOp w).pushed = op.released := by
  cases op with
  | getSingle r => rfl
  | getMulti r => rfl
  | freePeer r failed =>
    simp only [stackOp, released]
    cases r.released failed <;> rfl
  | close slot stale =>
    unfold stackOp
    cases stale <;> rfl

/-- What happens to the queues, when an item is looked for in the cache and moved. -/
lemma apply_getSingle (r : Req) : ((getSingle r).apply w = w ∧ w.pool.cache = []) ∨
    ∃ item l₂, w.pool.cache = item :: l₂ ∧ (getSingle r).apply w =
      { w with pool := { w.pool with cache := l₂, free := item :: w.pool.free } } := by
  unfold apply St.keepaliveGetPeerSingle
  cases hcache : w.pool.cache with
  | nil => exact .inl ⟨by simp [hcache], rfl⟩
  | cons item l₂ => exact .inr ⟨item, l₂, rfl, by simp [hcache, St.resumeCached]⟩

lemma apply_getMulti (r : Req) : ((getMulti r).apply w = w ∧
      ∀ item ∈ w.pool.cache, item.sockaddr ≠ r.sockaddr) ∨
    ∃ item l₁ l₂, w.pool.cache = l₁ ++ item :: l₂ ∧ item.sockaddr = r.sockaddr ∧
      (∀ it ∈ l₁, it.sockaddr ≠ r.sockaddr) ∧ (getMulti r).apply w =
        { w with pool := { w.pool with cache := l₁ ++ l₂, free := item :: w.pool.free } } := by
  rcases St.keepaliveGetPeerMulti_cases { w := w, r := r } with
    ⟨hdecl, hnone⟩ | ⟨item, l₁, l₂, hcache, haddr, hfirst, hdone⟩
  · exact .inl ⟨by rw [apply, hdecl], hnone⟩
  · exact .inr ⟨item, l₁, l₂, hcache, haddr, hfirst, by rw [apply, hdone]; rfl⟩

lemma apply_freePeer (r : Req) (failed : Bool) (hslots : w.Slots) (hmax : w.conf.maxCached ≠ 0) :
    ((freePeer r failed).apply w = w ∧ r.released failed = none) ∨
    ∃ k it item evicted w₁, r.released failed = some it.entry ∧ it.slot = item.slot ∧
      St.TakeItem w item evicted w₁ ∧ (freePeer r failed).apply w =
        ({ w₁ with pool := { w₁.pool with cache := it :: w₁.pool.cache } } : Worker).modConn k
          Conn.delTimers := by
  cases h : r.released failed with
  | none => exact .inl ⟨St.keepaliveFreePeer_unsaved _ h, rfl⟩
  | some entry =>
    obtain ⟨k, it, item, evicted, w₁, ht, hslot, rfl, hk, hw⟩ :=
      St.keepaliveFreePeer_saves { w := w, r := r } hslots hmax h
    exact .inr ⟨k, it, item, evicted, w₁, rfl, hslot, ht, hw⟩

lemma apply_conf (op : PoolOp) (hslots : w.Slots) (hmax : w.conf.maxCached ≠ 0) :
    (op.apply w).conf = w.conf := by
  cases op with
  | getSingle r =>
    rcases apply_getSingle (w := w) r with ⟨heq, _⟩ | ⟨_, _, _, heq⟩ <;> rw [heq]
  | getMulti r =>
    rcases apply_getMulti (w := w) r with ⟨heq, _⟩ | ⟨_, _, _, _, _, _, heq⟩ <;> rw [heq]
  | freePeer r failed =>
    rcases apply_freePeer r failed hslots hmax with
      ⟨heq, _⟩ | ⟨_, _, _, _, _, _, _, ht, heq⟩ <;> rw [heq]
    exact ht.conf
  | close slot stale => exact Local.closeHandler_conf w slot stale

/-- Every operation leaves each item in one of the queues. -/
lemma apply_slots (op : PoolOp) (hslots : w.Slots) (hmax : w.conf.maxCached ≠ 0) :
    (op.apply w).Slots := by
  cases op with
  | getSingle r =>
    rcases apply_getSingle (w := w) r with ⟨heq, _⟩ | ⟨item, cache, hcache, heq⟩
    · rwa [heq]
    · rw [heq]
      have hsplit : w.pool.cache = [] ++ item :: cache := hcache
      exact hslots.move hsplit rfl rfl rfl
  | getMulti r =>
    rcases apply_getMulti (w := w) r with ⟨heq, _⟩ | ⟨_, _, _, hcache, _, _, heq⟩
    · rwa [heq]
    · rw [heq]
      exact hslots.move hcache rfl rfl rfl
  | freePeer r failed =>
    rcases apply_freePeer r failed hslots hmax with
      ⟨heq, _⟩ | ⟨_, _, _, _, _, _, hslot, ht, heq⟩
    · rwa [heq]
    · rw [heq]
      exact hslots.takeItem ht hslot
  | close slot stale =>
    cases stale with
    | true => exact hslots
    | false =>
      rcases w.closeHandler_slot slot with ⟨heq, _⟩ | ⟨_, _, _, hcache, _, _, heq⟩
      · rw [apply, heq]
        exact hslots
      · rw [apply, heq]
        exact hslots.move hcache (Worker.freeConnection_conf ..) rfl rfl

/-- Every operation of the pool is one of the stack. -/
theorem apply_stack (op : PoolOp) (hslots : w.Slots) (hmax : w.conf.maxCached ≠ 0) :
    (op.apply w).stack = (op.stackOp w).apply w.conf.maxCached w.stack := by
  cases op with
  | getSingle r =>
    rcases apply_getSingle (w := w) r with ⟨heq, hnil⟩ | ⟨item, l₂, hcache, heq⟩
    · rw [heq, stackOp, Lib.Stack.take_of_forall_not]
      simp [Worker.stack, hnil]
    · rw [heq, stackOp, Worker.stack_cons_entry hcache]
      have hnew : ∀ y ∈ ([] : List Item), (fun _ : Item => true) y = false := nofun
      exact (Lib.Stack.take_of_split rfl hnew).symm
  | getMulti r =>
    rcases apply_getMulti (w := w) r with ⟨heq, hnone⟩ | ⟨item, l₁, l₂, hcache, haddr, hnew, heq⟩
    · rw [heq, stackOp, Lib.Stack.take_of_forall_not]
      simpa [Worker.stack, Item.entry] using hnone
    · have hstack : w.stack = l₁.map Item.entry ++ item.entry :: l₂.map Item.entry := by
        rw [Worker.stack, hcache, List.map_append, List.map_cons]
      rw [heq, stackOp, hstack, Lib.Stack.take_of_split]
      · exact List.map_append
      · exact decide_eq_true haddr
      · simpa [Item.entry] using hnew
  | freePeer r failed =>
    rcases apply_freePeer r failed hslots hmax with
      ⟨heq, hnone⟩ | ⟨k, it, item, evicted, w₁, hsome, _, ht, heq⟩
    · simp only [stackOp, heq, hnone]
      rfl
    · have hlen := hslots.length_stack
      simp only [stackOp, heq, hsome]
      cases ht with
      | @free free hfree =>
        rw [hfree, List.length_cons] at hlen
        rw [Lib.Stack.push_of_lt (by omega)]
        rfl
      | @evict cache hfree hcache =>
        rw [hfree, List.length_nil] at hlen
        rw [Lib.Stack.push_of_full hlen hmax]
        simp [Worker.stack, hcache]
  | close slot stale =>
    cases stale with
    | true => rfl
    | false =>
      simp only [stackOp, Bool.false_eq_true, if_false]
      rcases w.closeHandler_slot slot with ⟨heq, hnone⟩ | ⟨item, l₁, l₂, hcache, hslot, hnew, heq⟩
      · rw [apply, heq, Lib.Stack.remove_of_length_le]
        rw [List.findIdx_eq_length_of_false (by simpa using hnone), Worker.stack, List.length_map]
      · have hidx : (w.pool.cache.findIdx fun item => item.slot = slot) =
            (l₁.map Item.entry).length := by
          have hl₁ : (l₁.findIdx fun item => item.slot = slot) = l₁.length :=
            List.findIdx_eq_length_of_false (by simpa using hnew)
          rw [hcache, List.findIdx_append, List.findIdx_cons, hl₁]
          simp [hslot]
        have hstack : w.stack = l₁.map Item.entry ++ item.entry :: l₂.map Item.entry := by
          rw [Worker.stack, hcache, List.map_append, List.map_cons]
        rw [apply, heq, hidx, hstack, Lib.Stack.remove_of_split]
        exact List.map_append

/-- What an operation does to the queues depends on nothing else. -/
lemma apply_congr (op : PoolOp) (h : w.SameQueues w') :
    (op.apply w).SameQueues (op.apply w') := by
  obtain ⟨hconf, hcache, hfree⟩ := h
  cases op with
  | getSingle r =>
    simp only [apply, St.keepaliveGetPeerSingle, hcache]
    split
    · exact ⟨hconf, hcache, hfree⟩
    · exact ⟨hconf, rfl, congrArg (List.cons _) hfree⟩
  | getMulti r =>
    simp only [apply, St.keepaliveGetPeerMulti, hcache]
    cases w'.pool.cache.find? fun item => item.sockaddr = r.sockaddr with
    | none => exact ⟨hconf, hcache, hfree⟩
    | some item => exact ⟨hconf, rfl, congrArg (List.cons item) hfree⟩
  | freePeer r failed =>
    cases h : r.released failed with
    | none =>
      simp only [apply, St.keepaliveFreePeer_unsaved { w := w, r := r } h,
        St.keepaliveFreePeer_unsaved { w := w', r := r } h]
      exact ⟨hconf, hcache, hfree⟩
    | some entry =>
      obtain ⟨k, hs, hentry⟩ := St.keepaliveFreePeer_released { w := w, r := r } h
      obtain ⟨k', hs', hentry'⟩ := St.keepaliveFreePeer_released { w := w', r := r } h
      obtain rfl : k = k' := Option.some.inj (congrArg Item.connection (hentry.symm.trans hentry'))
      rw [apply, apply, hs, hs']
      simp only [St.saveConnection, Worker.takeItem, hcache, hfree]
      cases w'.pool.free with
      | cons item free => exact ⟨hconf, by simp [St.saveIn], by simp [St.saveIn]⟩
      | nil =>
        cases w'.pool.cache.getLast? with
        | none => exact ⟨hconf, hcache, hfree⟩
        | some item =>
          exact ⟨by simp [St.saveIn, hconf], by simp [St.saveIn], by simp [St.saveIn]⟩
  | close slot stale =>
    cases stale with
    | true => exact ⟨hconf, hcache, hfree⟩
    | false =>
      simp only [apply, Worker.closeHandler, hcache]
      cases w'.pool.cache.find? fun item => item.slot = slot with
      | none => exact ⟨hconf, hcache, hfree⟩
      | some item => exact ⟨by simp [hconf], by simp [hcache], by simp [hfree]⟩

/-! ## Sequences of operations -/

lemma run_slots (ops : List PoolOp) (hslots : w.Slots) (hmax : w.conf.maxCached ≠ 0) :
    (run ops w).Slots ∧ (run ops w).conf = w.conf := by
  induction ops generalizing w with
  | nil => exact ⟨hslots, rfl⟩
  | cons op ops ih =>
    have hconf := op.apply_conf hslots hmax
    obtain ⟨hslots', hconf'⟩ := ih (op.apply_slots hslots hmax) (hconf.symm ▸ hmax)
    exact ⟨hslots', hconf'.trans hconf⟩

/-- A sequence of operations of the pool is one of operations of the stack. -/
theorem run_stack (ops : List PoolOp) (hslots : w.Slots) (hmax : w.conf.maxCached ≠ 0) :
    (run ops w).stack = Lib.Stack.run w.conf.maxCached (stackOps ops w) w.stack := by
  induction ops generalizing w with
  | nil => rfl
  | cons op ops ih =>
    have hconf := op.apply_conf hslots hmax
    have hrun := ih (op.apply_slots hslots hmax) (hconf.symm ▸ hmax)
    rw [hconf, op.apply_stack hslots hmax] at hrun
    exact hrun

lemma run_congr (ops : List PoolOp) (h : w.SameQueues w') :
    (run ops w).SameQueues (run ops w') := by
  induction ops generalizing w w' with
  | nil => exact h
  | cons op ops ih => exact ih (op.apply_congr h)

lemma pushed_stackOps (ops : List PoolOp) (w : Worker) :
    (stackOps ops w).filterMap Lib.Stack.Op.pushed = ops.filterMap released := by
  induction ops generalizing w with
  | nil => rfl
  | cons op ops ih => simp only [stackOps, List.filterMap_cons, pushed_stackOp, ih]

lemma run_append (ops ops' : List PoolOp) (w : Worker) :
    run (ops ++ ops') w = run ops' (run ops w) := List.foldl_append

end PoolOp

/-! ## The operations of a worker process -/

/-- The pool of one worker process is that of another one behind some operations. -/
def Worker.PoolFrom (w w' : Worker) : Prop := ∃ ops, w'.SameQueues (PoolOp.run ops w)

lemma Worker.PoolFrom.of_same (h : w'.SameQueues w) : w.PoolFrom w' := ⟨[], h⟩

lemma Worker.PoolFrom.trans {w₁ : Worker} (h : w.PoolFrom w₁) (h' : w₁.PoolFrom w') :
    w.PoolFrom w' := by
  obtain ⟨ops, h⟩ := h
  obtain ⟨ops', h'⟩ := h'
  refine ⟨ops ++ ops', ?_⟩
  rw [PoolOp.run_append]
  exact h'.trans (PoolOp.run_congr ops' h)

namespace St

variable {s s' : St} {p : Pos}

lemma GetPeer.pool {rc : Rc} (h : GetPeer s rc s') : s.w.PoolFrom s'.w := by
  cases h with
  | @single item cache hmax hsingle hcache =>
    refine ⟨[.getSingle s.r], ?_⟩
    rcases PoolOp.apply_getSingle (w := s.w) s.r with ⟨_, hnil⟩ | ⟨item', l₂, hcache', heq⟩
    · cases hnil.symm.trans hcache
    · obtain ⟨rfl, rfl⟩ := List.cons.inj (hcache'.symm.trans hcache)
      exact ⟨congrArg Worker.conf heq.symm, (congrArg (Pool.cache ∘ Worker.pool) heq.symm :),
        (congrArg (Pool.free ∘ Worker.pool) heq.symm :)⟩
  | busy => exact .of_same ⟨rfl, rfl, rfl⟩
  | @multi item l₁ l₂ hmax hmulti hcache haddr hfirst =>
    refine ⟨[.getMulti s.picked.r], ?_⟩
    have haddr : item.sockaddr = s.picked.r.sockaddr := haddr
    have hfirst : ∀ it ∈ l₁, it.sockaddr ≠ s.picked.r.sockaddr := hfirst
    have hfind : (s.w.pool.cache.find? fun it => it.sockaddr = s.picked.r.sockaddr) = some item :=
      List.find?_eq_some_iff_append.mpr
        ⟨decide_eq_true haddr, l₁, l₂, hcache, by simpa using hfirst⟩
    have herase : (s.w.pool.cache.eraseP fun it => it.sockaddr = s.picked.r.sockaddr) =
        l₁ ++ l₂ :=
      hcache ▸ Lib.Stack.take_of_split (n := 0) (decide_eq_true haddr) (by simpa using hfirst)
    simp only [PoolOp.run, List.foldl, PoolOp.apply, keepaliveGetPeerMulti, hfind, herase]
    exact ⟨rfl, rfl, rfl⟩
  | overflow getConn => cases getConn <;> exact .of_same ⟨rfl, rfl, rfl⟩
  | create hroom h => cases h <;> exact .of_same ⟨rfl, rfl, rfl⟩

lemma FreePeer.pool {failed : Bool} (h : FreePeer failed s s') : s.w.PoolFrom s'.w := by
  cases h with
  | idle => exact .of_same ⟨rfl, rfl, rfl⟩
  | @saved k item evicted w hc hmax hfailed hr ht =>
    refine ⟨[.freePeer s.r false], ?_⟩
    have hsave : keepaliveFreePeer false { w := s.w, r := s.r } =
        saveConnection k { w := s.w, r := s.r } := by
      simp [keepaliveFreePeer, hc, hr]
    simp only [PoolOp.run, List.foldl, PoolOp.apply, hsave, saveConnection, ht.eq]
    exact ⟨rfl, rfl, rfl⟩
  | closed b hc hr => exact .of_same ⟨by simp [dropConnection], by simp [dropConnection],
      by simp [dropConnection]⟩

/-- A step of a request operates on the pool. -/
lemma exec_pool (env : Env) (hc : Custody p s) : s.w.PoolFrom (s.exec env p).2.w := by
  have hstays : p.stays → s.w.PoolFrom (s.exec env p).2.w := by
    intro hp
    have h := stays_exec env hc hp
    exact .of_same ⟨h.conf, congrArg Pool.cache h.pool, congrArg Pool.free h.pool⟩
  cases p with
  | handlerTail =>
    rw [exec]
    rcases handlerTail_cases s with ⟨heq, _⟩ | ⟨k, _, _, heq⟩ <;>
    · rw [heq]
      exact .of_same ⟨rfl, rfl, rfl⟩
  | dbdConnect =>
    simp only [exec, dbdConnect]
    split
    · exact .of_same ⟨rfl, rfl, rfl⟩
    · exact (getPeer_cases env.peer hc.ok.2.1.connection).pool
  | next ft =>
    obtain ⟨s₁, hs₁, hnext⟩ := next_cases (s := s) ft hc.queues
    have hw : (s.exec env (.next ft)).2.w = s₁.w := by
      rw [exec]
      generalize s.next ft = ps at hnext ⊢
      obtain ⟨p', s'⟩ := ps
      cases hnext <;> rfl
    rw [hw]
    split at hs₁
    · exact hs₁ ▸ .of_same ⟨rfl, rfl, rfl⟩
    · exact hs₁.pool
  | finalize rc =>
    have hrc : rc ≠ .declined := by
      rintro rfl
      exact hc.ok
    obtain ⟨_, hfin⟩ := finalizeRequest_cases env hrc hc.queues
    obtain ⟨s₁, es, hfree, hs'⟩ := hfin.exists_freePeer
    rw [exec, hs']
    exact hfree.pool
  | _ => exact hstays rfl

end St

namespace Sys

/-- A step of the worker process operates on the pool. -/
lemma step_pool {s : Sys} (ho : s.Owned) (l : Label) : s.w.PoolFrom (s.step l).w := by
  have hstep := step_cases s l
  generalize s.step l = s' at hstep ⊢
  cases hstep with
  | skip => exact .of_same ⟨rfl, rfl, rfl⟩
  | arrive a hidle => exact .of_same ⟨rfl, rfl, rfl⟩
  | @event i e r hidle hi he =>
    have h := stays_fire e (s.view r)
    exact .of_same ⟨h.conf, congrArg Pool.cache h.pool, congrArg Pool.free h.pool⟩
  | client cc hi => exact .of_same ⟨rfl, rfl, rfl⟩
  | idle slot stale hidle => exact ⟨[.close slot stale], rfl, rfl, rfl⟩
  | tick now hidle => exact .of_same ⟨rfl, rfl, rfl⟩
  | @run env i p r hact hi =>
    have hc := ho.custody hi
    rw [pos_of_active hact] at hc
    exact St.exec_pool env hc

/-- The pool of a worker process in a run has been operated on from the beginning. -/
theorem pool_run (conf : Conf) (ls : List Label) : (init conf).w.PoolFrom (run conf ls).w :=
  Lib.run_invariant_of (C := fun _ _ => True) (I := Owned)
    (J := fun s => (init conf).w.PoolFrom s.w) (fun _ l _ h => h.step l)
    (fun _ l _ ho h => h.trans (step_pool ho l)) (owned_init conf) (.of_same ⟨rfl, rfl, rfl⟩)
    (Lib.Meets.of_forall (fun _ _ => trivial) ls _)

/-- `ngx_http_drizzle_keepalive_init` puts all items into the free queue. -/
lemma slots_init (conf : Conf) : (init conf).w.Slots := by
  unfold Worker.Slots
  simp only [init, Pool.init, List.nil_append, List.map_reverse, List.map_map]
  exact (List.reverse_perm _).trans (List.Perm.of_eq (List.map_id _))

/-- **The pool is a bounded stack that drops the oldest entry.**  Behind all sequences of
operations, with requests that are in any state: each item is in one of the queues, once; the cache
is the stack behind the corresponding operations of the stack, and holds released connections, the
one that was released last first; and the next operation does what it is for.  In all states of all
runs of a worker process, the pool is in such a state, and what an entry says about its connection
is true. -/
theorem pool_is_stack (conf : Conf) (hmax : conf.maxCached ≠ 0) :
    (∀ ops, (PoolOp.run ops (init conf).w).Slots ∧ (PoolOp.run ops (init conf).w).IsStack ∧
      (PoolOp.run ops (init conf).w).stack =
        Lib.Stack.run conf.maxCached (PoolOp.stackOps ops (init conf).w) [] ∧
      (PoolOp.run ops (init conf).w).stack.Sublist (ops.filterMap PoolOp.released).reverse) ∧
    ∀ ls, (init conf).w.PoolFrom (run conf ls).w ∧
      (run conf ls).w.Slots ∧ (run conf ls).w.IsStack ∧
      (∀ item ∈ (run conf ls).w.pool.cache, ∃ k, (run conf ls).Describes item k) ∧
      ∀ r ∈ (run conf ls).reqs, ∀ k, r.savedOn k → ∃ rc flush, .done rc flush ∈ r.hist := by
  have hops : ∀ ops, (PoolOp.run ops (init conf).w).Slots ∧
      (PoolOp.run ops (init conf).w).conf = conf :=
    fun ops => PoolOp.run_slots ops (slots_init conf) hmax
  refine ⟨fun ops => ?_, fun ls => ?_⟩
  · obtain ⟨hslots, hconf⟩ := hops ops
    have hstack : (PoolOp.run ops (init conf).w).stack =
        Lib.Stack.run conf.maxCached (PoolOp.stackOps ops (init conf).w) [] :=
      PoolOp.run_stack ops (slots_init conf) hmax
    refine ⟨hslots, hslots.isStack (hconf.symm ▸ hmax), hstack, ?_⟩
    have hsub : (Lib.Stack.run conf.maxCached (PoolOp.stackOps ops (init conf).w) []).Sublist _ :=
      Lib.Stack.run_sublist (PoolOp.stackOps ops (init conf).w)
    rwa [PoolOp.pushed_stackOps, List.append_nil, ← hstack] at hsub
  · have hpool := pool_run conf ls
    obtain ⟨ops, hsame⟩ := hpool
    have hslots := hsame.slots (hops ops).1
    refine ⟨⟨ops, hsame⟩, hslots, hslots.isStack ((conf_run conf ls).symm ▸ hmax),
      entries_run conf ls, fun r hr k hsaved => ?_⟩
    obtain ⟨i, hi⟩ := List.mem_iff_getElem?.mp hr
    obtain ⟨e, he, hek⟩ := List.any_eq_true.mp hsaved
    cases e with
    | saved j ev =>
      exact (((Local.settled_kept.run conf (known_meets conf ls)).req i r hi).2 j ev he).2.1
    | _ => cases hek

/-- The second request of two takes the connection of the first one, and ends too. -/
def twoSaved : List Label := twoQueries ++ [.run {}, .run {}, .event 1 (.db false false false),
  .run {}, .run {}, .run { query := .ok (.sample 0) }, .run {}, .run {}]

theorem pool_is_stack_twoSaved :
    ∃ item ∈ (run (.sample (.sample [1] [9]) []) twoSaved).w.pool.cache, item.used = 2 ∧
      ∃ k, (run (.sample (.sample [1] [9]) []) twoSaved).Describes item k :=
  ⟨_, List.get_mem _ ⟨0, by decide⟩, by decide,
    ((pool_is_stack (.sample (.sample [1] [9]) []) (by decide)).2 twoSaved).2.2.2.1 _
      (List.get_mem _ ⟨0, by decide⟩)⟩

end Sys

end DrizzleNginx
