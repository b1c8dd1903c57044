/-
# Invariants of single requests

Most invariants speak about one request and the connection that it holds, or about one item of
the cache and its connection.  A step changes one request, and others neither hold its
connection nor lose their own, so such an invariant holds in all runs if it holds for requests
that arrive and is kept by the steps of one request.  The rule is stated here once.
-/
import DrizzleNginx.Proofs.Ownership

namespace DrizzleNginx

variable {s s' : St} {p : Pos} {env : Env}

/-! ## New items of the cache -/

namespace St

/-- A connection has been saved in an item of the cache. -/
structure Saved (s : St) (item : Item) (s' : St) (k : ℕ) : Prop where
  holds : s.Holds k
  reusable : s.r.reusable
  connection : item.connection = some k
  sockaddr : item.sockaddr = s.r.sockaddr
  hasSetNames : item.hasSetNames = s.r.hasSetNames
  name : item.name = s.r.name
  used : item.used = s.r.used + 1
  conn : s'.w.conns k = (s.w.conns k).delTimers

lemma TakeItem.conns {w w' : Worker} {item : Item} {evicted : Option ℕ} {k : ℕ}
    (h : TakeItem w item evicted w') (hitems : ∀ item ∈ w.pool.cache, ∃ k, item.Pools w k)
    (hk : ∀ item ∈ w.pool.cache, item.connection ≠ some k) : w'.conns k = w.conns k := by
  cases h with
  | free hfree => rfl
  | evict hfree hcache =>
    have hmem : item ∈ w.pool.cache := by simp [hcache]
    obtain ⟨e, he⟩ := hitems item hmem
    have hne : k ≠ e := by
      rintro rfl
      exact hk item hmem he.connection
    rw [he.connection, he.drizzleCon, Worker.freeConnection_conns, if_neg hne]

lemma TakeItem.cache {w w' : Worker} {item : Item} {evicted : Option ℕ}
    (h : TakeItem w item evicted w') : ∀ it ∈ w'.pool.cache, it ∈ w.pool.cache := by
  cases h with
  | free hfree => exact fun _ hmem => hmem
  | evict hfree hcache =>
    intro it hmem
    simp only [Worker.freeConnection_pool] at hmem
    simp [hcache, hmem]

lemma GetPeer.cache {rc : Rc} (h : GetPeer s rc s') :
    ∀ item ∈ s'.w.pool.cache, item ∈ s.w.pool.cache := by
  intro item hmem
  cases h with
  | single hmax hsingle hcache => exact hcache ▸ List.mem_cons_of_mem _ hmem
  | busy hleft => exact hmem
  | @multi it l₁ l₂ hmax hmulti hcache haddr =>
    have hmem : item ∈ l₁ ++ l₂ := hmem
    rw [hcache]
    simp only [List.mem_append, List.mem_cons] at hmem ⊢
    tauto
  | overflow getConn hfull => cases getConn <;> exact hmem
  | create hroom h => cases h <;> exact hmem

lemma FreePeer.cache {failed : Bool} (h : FreePeer failed s s')
    (hitems : ∀ item ∈ s.w.pool.cache, ∃ k, item.Pools s.w k) (hle : ∀ k, s.holders k ≤ 1)
    (hs : s.Idle ∨ (∃ k, s.Holds k) ∨ s.Rejected) {item : Item} (hmem : item ∈ s'.w.pool.cache)
    (hnew : item ∉ s.w.pool.cache) : failed = false ∧ ∃ k, s.Saved item s' k := by
  cases h with
  | idle b hc => exact absurd hmem hnew
  | closed b hc hr =>
    refine absurd ?_ hnew
    simpa [dropConnection] using hmem
  | @saved k it evicted w hc hmax hfailed hr ht =>
    have hk : s.Holds k := by
      rcases hs with hidle | ⟨j, hj⟩ | hrej
      · exact absurd (hidle.connection.symm.trans hc) (by simp)
      · obtain rfl : j = k := Option.some.inj (hj.connection.symm.trans hc)
        exact hj
      · exact absurd (hrej.not_reusable.symm.trans hr) (by simp)
    simp only [saveIn, log_w, Worker.modConn_pool, List.mem_cons] at hmem
    rcases hmem with rfl | hmem
    · refine ⟨hfailed, k, hk, hr, rfl, rfl, rfl, rfl, rfl, ?_⟩
      have hw : w.conns k = s.w.conns k :=
        ht.conns hitems fun it hit hit' => St.connection_ne_of_mem hle hit hit' hc
      simp [saveIn, hw]
    · exact absurd (ht.cache item hmem) hnew

/-- An item of the cache is new only if the connection of a request that ended has been saved
in it. -/
theorem exec_saved (env : Env) (hc : Custody p s) {item : Item}
    (hmem : item ∈ (s.exec env p).2.w.pool.cache) (hnew : item ∉ s.w.pool.cache) :
    ∃ rc k, p = .finalize rc ∧ s.Saved item (s.exec env p).2 k := by
  cases hp : p.stays with
  | true =>
    rw [(stays_exec env hc hp).pool] at hmem
    exact absurd hmem hnew
  | false =>
    cases p with
    -- only `free_peer` saves connections, and not behind a failed attempt
    | handlerTail =>
      refine absurd ?_ hnew
      rcases handlerTail_cases s with ⟨heq, _⟩ | ⟨k, _, _, heq⟩ <;>
      · rw [exec, heq] at hmem
        exact hmem
    | dbdConnect =>
      refine absurd ?_ hnew
      simp only [exec, dbdConnect] at hmem
      split at hmem
      · exact hmem
      · exact (getPeer_cases env.peer hc.ok.2.1.connection).cache item hmem
    | next ft =>
      refine absurd ?_ hnew
      obtain ⟨s₁, hs₁, hnext⟩ := next_cases (s := s) ft hc.queues
      have hmem₁ : item ∈ s₁.w.pool.cache := by
        rw [exec] at hmem
        generalize s.next ft = ps at hnext hmem
        obtain ⟨p', s'⟩ := ps
        cases hnext <;> exact hmem
      split at hs₁
      · exact hs₁ ▸ hmem₁
      · by_contra hnew
        have hs : s.Idle ∨ (∃ k, s.Holds k) ∨ s.Rejected := by
          have hok := hc.ok
          cases ft with
          | nolive => exact .inl hok.2
          | error => exact hok.2
          | timeout => exact hok.2
        exact absurd (hs₁.cache hc.items hc.holders_le hs hmem₁ hnew).1 (by simp)
    | finalize rc =>
      obtain ⟨hrc, hs⟩ : rc ≠ .declined ∧ (s.Idle ∨ (∃ k, s.Holds k) ∨ s.Rejected) := by
        have hok := hc.ok
        cases rc with
        | declined => exact hok.elim
        | _ => exact ⟨by simp, hok.2⟩
      obtain ⟨_, hfin⟩ := finalizeRequest_cases env hrc hc.queues
      obtain ⟨s₁, es, hfree, hs'⟩ := hfin.exists_freePeer
      rw [exec, hs'] at hmem
      have hs : (s.log (.finalize rc)).Idle ∨ (∃ k, (s.log (.finalize rc)).Holds k) ∨
          (s.log (.finalize rc)).Rejected := by
        refine hs.imp ?_ (Or.imp (Exists.imp ?_) ?_)
        · exact fun h => ⟨h.connection, h.drizzleCon⟩
        · exact fun k hk => ⟨hk.connection, hk.drizzleCon, hk.lt, hk.drizzle, hk.fd⟩
        · exact fun h => h.congr rfl rfl rfl rfl rfl
      obtain ⟨_, k, hsaved⟩ := hfree.cache
        (fun it hit => (hc.items it hit).imp fun k hk =>
          ⟨hk.connection, hk.drizzleCon, hk.lt, hk.drizzle, hk.fd⟩) hc.holders_le hs hmem hnew
      have hk := hsaved.holds
      refine ⟨rc, k, rfl, ⟨hk.connection, hk.drizzleCon, hk.lt, hk.drizzle, hk.fd⟩,
        hsaved.reusable, hsaved.connection, hsaved.sockaddr, hsaved.hasSetNames, hsaved.name,
        hsaved.used, ?_⟩
      rw [exec, hs']
      exact hsaved.conn
    | _ => cases hp

/-- The connection of the request, if it has one. -/
def conn (s : St) : Conn := s.r.connection.elim {} s.w.conns

lemma conn_of {k : ℕ} (hk : s.r.connection = some k) : s.conn = s.w.conns k := by
  simp [conn, hk]

/-- When an event is fired, the timers of the connection and of the client may change. -/
lemma fire_cases (e : Event) (s : St) :
    (∃ ev, (e.fire s).r = { s.r with clientWrite := ev }) ∧
    ∃ rt wt, (e.fire s).conn = { s.conn with
      read := { s.conn.read with timer := rt }
      write := { s.conn.write with timer := wt } } := by
  unfold Event.fire
  split
  · split
    · exact ⟨⟨_, rfl⟩, _, _, rfl⟩
    · next k hk =>
      split
      · refine ⟨⟨_, rfl⟩, (s.w.conns k).read.timer, none, ?_⟩
        rw [conn_of hk, conn_of (s := s.modWrite k NgxEvent.delTimer) hk, modWrite_w,
          Worker.modConn_conns_self]
        rfl
      · refine ⟨⟨_, rfl⟩, none, (s.w.conns k).write.timer, ?_⟩
        rw [conn_of hk, conn_of (s := s.modRead k NgxEvent.delTimer) hk, modRead_w,
          Worker.modConn_conns_self]
        rfl
  · exact ⟨⟨_, rfl⟩, _, _, rfl⟩
  · exact ⟨⟨_, rfl⟩, _, _, rfl⟩

end St

/-! ## The rule -/

/-- What is claimed of a request at a position with its connection, and of an item of the cache
with its connection. -/
structure Local where
  req : Conf → Pos → Req → Conn → Prop
  item : Conf → Item → Conn → Prop

namespace Local

/-- What is claimed of the items of the cache. -/
def Items (L : Local) (w : Worker) : Prop :=
  ∀ item ∈ w.pool.cache, ∀ k, item.connection = some k → L.item w.conf item (w.conns k)

/-- The claim holds of requests that arrive, and the steps of a request keep it. -/
structure Kept (L : Local) (D : Env → Pos → St → Prop) : Prop where
  init : ∀ w id a p, p = .dbdConnect ∨ p = .finalize (.http 500) →
    L.req w.conf p (Req.init w id a) {}
  fire : ∀ e s, e.enabled s → Pos.loop.Ok s → L.req s.w.conf .loop s.r s.conn →
    L.req s.w.conf (.event e) (e.fire s).r (e.fire s).conn
  client : ∀ conf p r c cc, L.req conf p r c → L.req conf p (r.onClient cc) c
  exec : ∀ env p s, Custody p s → D env p s → L.req s.w.conf p s.r s.conn → L.Items s.w →
    L.req s.w.conf ((s.exec env p).1.after (s.exec env p).2.r) (s.exec env p).2.r
      (s.exec env p).2.conn
  saved : ∀ env rc s item k s', Custody (.finalize rc) s → D env (.finalize rc) s →
    L.req s.w.conf (.finalize rc) s.r s.conn → s.Saved item s' k →
      L.item s.w.conf item (s.w.conns k).delTimers

/-- The claim holds of all requests and items of a worker process. -/
structure Holds (L : Local) (s : Sys) : Prop where
  req : ∀ (i : ℕ) (r : Req), s.reqs[i]? = some r → L.req s.w.conf (s.pos i) r (s.view r).conn
  items : L.Items s.w

variable {L : Local} {D : Env → Pos → St → Prop}

/-- A step of one request leaves alone the connections of the others. -/
lemma conn_put_of_ne {s : Sys} {i j : ℕ} {r q : Req} {c : Prop} {ps : Pos × St} (ho : s.Owned)
    (hi : s.reqs[i]? = some r) (hj : s.reqs[j]? = some q) (hne : j ≠ i)
    (hm : Moves c (s.view r) ps.2) : ((s.put i ps).view q).conn = (s.view q).conn := by
  cases hk : q.connection with
  | none => simp [St.conn, Sys.view, hk]
  | some k =>
    have hlt : k < s.w.nconns := (ho.ok j q hj).lt hk
    have : ps.2.w.conns k = s.w.conns k :=
      hm.frame k hlt (ho.view_holders_of_other hi hj hne hk)
    simp only [St.conn, Sys.view, hk, Option.elim]
    exact this

/-- A step of one request keeps the claim for all, if it keeps it for this one. -/
lemma Holds.put {s : Sys} {i : ℕ} {r : Req} {c : Prop} {ps : Pos × St} (h : L.Holds s)
    (ho : s.Owned) (hi : s.reqs[i]? = some r) (hrest : ∀ j, j ≠ i → s.pos j = .loop)
    (hm : Moves c (s.view r) ps.2)
    (hreq : L.req s.w.conf (ps.1.after ps.2.r) ps.2.r ps.2.conn)
    (hnew : ∀ item ∈ ps.2.w.pool.cache, item ∉ s.w.pool.cache → ∀ k, item.connection = some k →
      L.item s.w.conf item (ps.2.w.conns k)) : L.Holds (s.put i ps) := by
  have hconf : ps.2.w.conf = s.w.conf := hm.conf
  constructor
  case req =>
    refine Lib.forall_set (P := fun j q => L.req s.w.conf (s.pos j) q (s.view q).conn) h.req ?_ ?_
    · rw [Sys.pos_put]
      exact hconf ▸ hreq
    · intro j q hne hj hq
      rw [Sys.pos_put_of_ne ps hne]
      rw [hrest j hne] at hq
      have hconn := conn_put_of_ne ho hi hj hne hm
      rw [hconn]
      exact hconf ▸ hq
  case items =>
    intro item hmem k hk
    have hmem : item ∈ ps.2.w.pool.cache := hmem
    by_cases hold : item ∈ s.w.pool.cache
    · have : ps.2.w.conns k = s.w.conns k := hm.kept item hmem hold k hk
      exact hconf ▸ this ▸ h.items item hold k hk
    · exact hconf ▸ hnew item hmem hold k hk

/-- The handler of idle connections leaves alone those that requests hold, and those that stay in
the cache. -/
lemma closeHandler_frame {s : Sys} (ho : s.Owned) (slot : ℕ) (stale : Bool) {k : ℕ} :
    ((∃ r ∈ s.reqs, r.connection = some k) ∨
      ∃ item ∈ (s.w.closeHandler slot stale).pool.cache, item.connection = some k) →
    (s.w.closeHandler slot stale).conns k = s.w.conns k := by
  rcases Sys.closeHandler_cases s.w slot stale with heq | ⟨item, l₁, l₂, hcache, heq⟩
  · rw [heq]
    exact fun _ => rfl
  · obtain ⟨e, he⟩ := ho.items item (by rw [hcache]; simp)
    have hle := ho.holders_le e
    rw [Sys.holders, hcache, List.countP_append, List.countP_cons,
      if_pos (by simpa using he.connection)] at hle
    rw [heq, he.connection, he.drizzleCon]
    intro hk
    have hne : k ≠ e := by
      rintro rfl
      rcases hk with ⟨r, hr, hrk⟩ | ⟨it, hit, hitk⟩
      · have : 0 < s.reqs.countP fun r => r.connection = some k :=
          List.countP_pos_iff.mpr ⟨r, hr, by simpa using hrk⟩
        omega
      · have : 0 < (l₁ ++ l₂).countP fun it => it.connection = some k :=
          List.countP_pos_iff.mpr ⟨it, hit, by simpa using hitk⟩
        rw [List.countP_append] at this
        omega
    exact (Worker.freeConnection_conns e k).trans (if_neg hne)

/-- The handler of idle connections leaves alone the connections of the requests. -/
lemma conn_closeHandler {s : Sys} (ho : s.Owned) (slot : ℕ) (stale : Bool) {j : ℕ} {q : Req}
    (hj : s.reqs[j]? = some q) :
    (({ s with w := s.w.closeHandler slot stale } : Sys).view q).conn = (s.view q).conn := by
  cases hk : q.connection with
  | none => simp [St.conn, Sys.view, hk]
  | some k =>
    simp only [St.conn, Sys.view, hk, Option.elim]
    exact closeHandler_frame ho slot stale (.inl ⟨q, List.mem_of_getElem? hj, hk⟩)

lemma closeHandler_cache {w : Worker} {slot : ℕ} {stale : Bool} :
    ∀ item ∈ (w.closeHandler slot stale).pool.cache, item ∈ w.pool.cache := by
  intro item hmem
  rcases Sys.closeHandler_cases w slot stale with heq | ⟨it, l₁, l₂, hcache, heq⟩
  · exact heq ▸ hmem
  · rw [heq] at hmem
    rw [hcache]
    simp only [List.mem_append, List.mem_cons] at hmem ⊢
    tauto

lemma closeHandler_conf (w : Worker) (slot : ℕ) (stale : Bool) :
    (w.closeHandler slot stale).conf = w.conf := by
  rcases Sys.closeHandler_cases w slot stale with heq | ⟨item, l₁, l₂, hcache, heq⟩
  · rw [heq]
  · rw [heq, Worker.freeConnection_conf]

/-- Every step of the worker process keeps the claim. -/
theorem Kept.step {s : Sys} {l : Label} (hL : L.Kept D) (h : L.Holds s) (ho : s.Owned)
    (hd : Sys.RunsMeet D s l) : L.Holds (s.step l) := by
  have hstep := Sys.step_cases s l
  generalize s.step l = s' at hstep ⊢
  cases hstep with
  | skip => exact h
  | arrive a hidle =>
    refine ⟨?_, h.items⟩
    refine Lib.forall_concat (P := fun j q => L.req s.w.conf (s.pos j) q (s.view q).conn) h.req ?_
      fun j q hj hq => ?_
    · rw [Sys.pos_of_active rfl]
      refine hL.init _ _ a _ ?_
      split
      · exact .inl rfl
      · exact .inr rfl
    · have hlt : j < s.reqs.length := (List.getElem?_eq_some_iff.mp hj).1
      rw [Sys.pos_of_active_ne rfl (by omega)]
      rwa [Sys.pos_of_idle hidle] at hq
  | @event i e r hidle hi he =>
    have hq := h.req i r hi
    have hok := ho.ok i r hi
    rw [Sys.pos_of_idle hidle] at hq hok
    have hstays := Sys.stays_fire e (s.view r)
    refine h.put ho hi (fun j _ => Sys.pos_of_idle hidle j)
      (hstays.moves (c := True) (ho.custody hi).holders_le)
      (hL.fire e _ he hok hq) fun item hmem hnew => ?_
    rw [hstays.pool] at hmem
    exact absurd hmem hnew
  | client cc hi =>
    exact ⟨Lib.forall_set (P := fun j q => L.req s.w.conf (s.pos j) q (s.view q).conn) h.req
      (hL.client _ _ _ _ cc (h.req _ _ hi)) fun _ _ _ _ hq => hq, h.items⟩
  | idle slot stale hidle =>
    have hconf := closeHandler_conf s.w slot stale
    refine ⟨fun j q hj => ?_, fun item hmem k hk => ?_⟩
    · have hq := h.req j q hj
      have hconn := conn_closeHandler ho slot stale hj
      rw [hconn]
      exact hconf ▸ hq
    · have hconn := closeHandler_frame ho slot stale (.inr ⟨item, hmem, hk⟩)
      exact hconf ▸ hconn ▸ h.items item (closeHandler_cache item hmem) k hk
  | tick now hidle => exact ⟨h.req, h.items⟩
  | @run env i p r hact hi =>
    have hc := ho.custody hi
    have hq := h.req i r hi
    rw [Sys.pos_of_active hact] at hc hq
    have hd := hd env i p r rfl hact hi
    refine h.put ho hi (fun j hne => Sys.pos_of_active_ne hact hne)
      (St.exec_advances env hc).moves (hL.exec env p _ hc hd hq h.items)
      fun item hmem hnew k hk => ?_
    obtain ⟨rc, j, rfl, hsaved⟩ := St.exec_saved env hc hmem hnew
    obtain rfl : j = k := Option.some.inj (hsaved.connection.symm.trans hk)
    rw [hsaved.conn]
    exact hL.saved env rc _ item j _ hc hd hq hsaved

lemma holds_init (L : Local) (conf : Conf) : L.Holds (Sys.init conf) where
  req i r hi := by simp [Sys.init] at hi
  items item hmem := by simp [Sys.init, Pool.init] at hmem

/-- A claim that is kept holds in every state of every run. -/
theorem Kept.run (hL : L.Kept D) (conf : Conf) {ls : List Label}
    (hd : Lib.Meets Sys.step (Sys.RunsMeet D) (Sys.init conf) ls) : L.Holds (Sys.run conf ls) :=
  Lib.run_invariant_of (I := Sys.Owned) (J := L.Holds) (fun _ l _ h => h.step l)
    (fun _ _ hl ho h => hL.step h ho hl) (Sys.owned_init conf) (holds_init L conf) hd

/-- A claim that is kept may be used by the steps. -/
theorem Kept.meets (hL : L.Kept D) (conf : Conf) {ls : List Label}
    (hd : Lib.Meets Sys.step (Sys.RunsMeet D) (Sys.init conf) ls) :
    Lib.Meets Sys.step (Sys.RunsMeet fun _ p s => L.req s.w.conf p s.r s.conn ∧ L.Items s.w)
      (Sys.init conf) ls := by
  have h := Lib.Meets.of_invariant (I := fun s => s.Owned ∧ L.Holds s)
    (fun _ l hl h => ⟨h.1.step l, hL.step h.2 h.1 hl⟩) ⟨Sys.owned_init conf, holds_init L conf⟩ hd
  refine h.mono fun s l h env i p r _ hact hi => ⟨?_, h.2.items⟩
  rw [← Sys.pos_of_active hact]
  exact h.2.req i r hi

end Local
end DrizzleNginx
