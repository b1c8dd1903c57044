/-
# The life of a connection

A database connection is open as long as a request or an item of the cache holds it, and it is
closed at the moment in which it is freed: the descriptor is gone, and so are its events and timers.
From then on nothing happens to it any more, whatever libdrizzle, nginx and the clients do.
-/
import DrizzleNginx.Lib.Census
import DrizzleNginx.Proofs.Overflow
import DrizzleNginx.Proofs.Wired

namespace DrizzleNginx

/-! ## Open and closed connections -/

/-- A connection that has a descriptor and has not been freed. -/
structure Conn.Open (c : Conn) : Prop where
  fd : c.fd ≠ none
  freed : c.freed = 0

/-- A connection that has been freed: no descriptor, no events and no timers are left. -/
structure Conn.Dead (c : Conn) : Prop where
  fd : c.fd = none
  read : c.read = {}
  write : c.write = {}
  freed : c.freed ≠ 0

/-- What a step does to the database connections: they stay open, or they are closed and freed. -/
structure Ages (w w' : Worker) : Prop where
  old : ∀ k < w.nconns, (w.conns k).drizzle →
    (w'.conns k).fd = (w.conns k).fd ∧ (w'.conns k).freed = (w.conns k).freed ∨ (w'.conns k).Dead
  new : ∀ k, w.nconns ≤ k → k < w'.nconns → (w'.conns k).drizzle →
    (w'.conns k).Open ∨ (w'.conns k).Dead

variable {s s' : St} {w w' : Worker} {p : Pos} {c : Conn} {k : ℕ}

lemma Conn.dead_close_free (c : Conn) : c.free.close.Dead := ⟨rfl, rfl, rfl, Nat.succ_ne_zero _⟩

lemma Conn.Dead.delTimers (h : c.Dead) : c.delTimers.Dead where
  fd := h.fd
  read := congrArg NgxEvent.delTimer h.read
  write := congrArg NgxEvent.delTimer h.write
  freed := h.freed

lemma Ages.of_eq (hn : w'.nconns = w.nconns) (hconns : w'.conns = w.conns) : Ages w w' where
  old k _ _ := by
    left
    rw [hconns]
    exact ⟨rfl, rfl⟩
  new k hk hk' := absurd (hn ▸ hk') (Nat.not_lt.mpr hk)

lemma Stays.ages (h : Stays s s') : Ages s.w s'.w where
  old k _ _ := .inl ⟨h.fd k, h.freed k⟩
  new _ hk hk' := absurd (h.nconns ▸ hk') (Nat.not_lt.mpr hk)

/-! ## Giving a connection away -/

namespace St

lemma TakeItem.ages {item : Item} {evicted : Option ℕ} (h : TakeItem w item evicted w')
    (hitems : ∀ item ∈ w.pool.cache, ∃ k, item.Pools w k) : Ages w w' := by
  cases h with
  | free hfree => exact .of_eq rfl rfl
  | @evict cache hfree hcache =>
    obtain ⟨e, he⟩ := hitems item (by rw [hcache]; simp)
    rw [he.connection, he.drizzleCon]
    constructor
    · intro k _ _
      rw [Worker.freeConnection_conns]
      split
      · exact .inr (Conn.dead_close_free _)
      · exact .inl ⟨rfl, rfl⟩
    · intro k hk hk'
      exact absurd hk' (Nat.not_lt.mpr hk)

/-- A connection is freed together with its `drizzle_con_st`, if it has one. -/
lemma drizzleCon_of_ok (h : p.Ok s) (hk : s.r.connection = some k) :
    s.r.drizzleCon = some k ∨ s.r.drizzleCon = none ∧ (s.w.conns k).drizzle = false := by
  rcases h.cases with hnone | ⟨j, hj⟩ | ⟨j, hj⟩
  · cases hnone.symm.trans hk
  · exact .inl (hk ▸ hj.connection ▸ hj.drizzleCon)
  · obtain rfl := Option.some.inj (hj.connection.symm.trans hk)
    exact .inr ⟨hj.drizzleCon, hj.drizzle⟩

lemma FreePeer.ages {failed : Bool} (h : FreePeer failed s s')
    (hs : ∀ k, s.r.connection = some k →
      s.r.drizzleCon = some k ∨ s.r.drizzleCon = none ∧ (s.w.conns k).drizzle = false)
    (hitems : ∀ item ∈ s.w.pool.cache, ∃ k, item.Pools s.w k) : Ages s.w s'.w := by
  cases h with
  | idle b hc => exact .of_eq rfl rfl
  | @closed b k hc hr =>
    have hw : ((s.modReq fun r => { r with failed := b }).dropConnection k).w =
        s.w.freeConnection (some k) s.r.drizzleCon := rfl
    rw [hw]
    constructor
    · intro j _ hdrizzle
      rcases hs k hc with hcon | ⟨hcon, hnone⟩
      · rw [hcon, Worker.freeConnection_conns]
        split
        · exact .inr (Conn.dead_close_free _)
        · exact .inl ⟨rfl, rfl⟩
      · -- the connection by which a request is rejected is no database connection
        have hne : j ≠ k := by
          rintro rfl
          cases hdrizzle.symm.trans hnone
        rw [hcon]
        refine .inl ?_
        simp only [Worker.freeConnection, Worker.modConn_conns_of_ne _ hne, and_self]
    · intro j hj hj'
      rw [Worker.freeConnection_nconns] at hj'
      exact absurd hj' (Nat.not_lt.mpr hj)
  | @saved k item evicted w hc hmax hfailed hr ht =>
    have hages := ht.ages hitems
    have hconns : ∀ j, ((({ s with w := w } : St).saveIn k item evicted).w.conns j) =
        if j = k then (w.conns k).delTimers else w.conns j := fun j => Worker.modConn_conns _ k j _
    constructor
    · intro j hj hdrizzle
      rw [hconns]
      split
      · next hjk =>
        subst hjk
        exact (hages.old j hj hdrizzle).imp_right Conn.Dead.delTimers
      · exact hages.old j hj hdrizzle
    · intro j hj hj'
      have hn : w.nconns = s.w.nconns := by
        cases ht with
        | free => rfl
        | evict => simp
      exact absurd (hn ▸ hj' : j < s.w.nconns) (Nat.not_lt.mpr hj)

/-! ## Getting a connection -/

/-- A connection that has been set up is open, or it has been released again. -/
lemma ages_addCon {active : UInt64} {c' dc : Option ℕ} {state : DbState} (hc : c.Open ∨ c.Dead) :
    Ages s.w (s.addCon c active c' dc state).w := by
  have hconns : ∀ k, (s.addCon c active c' dc state).w.conns k =
      if k = s.w.nconns then c else s.w.conns k := fun k => Function.update_apply _ _ _ _
  constructor
  · intro k hk _
    rw [hconns, if_neg (Nat.ne_of_lt hk)]
    exact .inl ⟨rfl, rfl⟩
  · intro k hk hk' _
    rw [hconns, if_pos (Nat.le_antisymm (Nat.lt_succ_iff.mp hk') hk)]
    exact hc

lemma registerConnection_ages {con : Conn} {state : DbState} (env : PeerEnv) (hopen : con.Open) :
    Ages s.w ((s.addCon con 1 (some s.w.nconns) (some s.w.nconns) state).registerConnection env
      s.w.nconns).2.w := by
  have hdead : Ages s.w (s.addCon con.free.close 0 none none state).w :=
    ages_addCon (.inr (Conn.dead_close_free con))
  unfold registerConnection
  simp only [addCon_modConn]
  split
  · split
    · rw [addCon_invalid_some]
      exact hdead
    · exact ages_addCon (.inl ⟨hopen.fd, hopen.freed⟩)
  · split
    · rw [addCon_invalid_some]
      exact hdead
    · split
      · split
        · rw [addCon_invalid_some]
          exact ages_addCon (.inr (Conn.dead_close_free _))
        · exact ages_addCon (.inl ⟨hopen.fd, hopen.freed⟩)
      · exact ages_addCon (.inl ⟨hopen.fd, hopen.freed⟩)

lemma wrapConnection_ages {i : ℕ} {state : DbState} (env : PeerEnv) :
    Ages s.w ((s.addCon (s.newCon i) 0 none (some s.w.nconns) state).wrapConnection env
      s.w.nconns).2.w := by
  have hdead : Ages s.w (s.addCon (s.newCon i).free 0 none none state).w :=
    ages_addCon (.inr ⟨rfl, rfl, rfl, Nat.succ_ne_zero _⟩)
  have hcount : ∀ s' : St, s' = s.addCon (s.newCon i) 0 none (some s.w.nconns) state →
      ({ s' with w := { s'.w with pool :=
        { s'.w.pool with activeConns := s'.w.pool.activeConns + 1 } } } : St) =
      s.addCon (s.newCon i) 1 none (some s.w.nconns) state := by
    rintro _ rfl
    simp [addCon]
  unfold wrapConnection
  simp only [hcount _ rfl]
  split
  · rw [addCon_invalid_none]
    exact hdead
  · next fd hfd =>
    split
    · rw [addCon_invalid_none]
      exact hdead
    · rw [addCon_modConn]
      have hopen : Conn.Open { s.newCon i with fd := some (fd + 1) } := ⟨by simp, rfl⟩
      exact registerConnection_ages env hopen

lemma createConnection_ages (env : PeerEnv) (i : ℕ) (hc : s.r.connection = none) :
    Ages s.w (s.createConnection env i).2.w := by
  unfold createConnection
  simp only
  split
  · exact .of_eq rfl rfl
  · rw [openCon_eq hc]
    split
    · rw [addCon_modConn]
      exact ages_addCon (.inr ⟨rfl, rfl, rfl, Nat.succ_ne_zero _⟩)
    · exact wrapConnection_ages env

lemma rejectOverflow_ages (getConn : Bool) : Ages s.w (s.rejectOverflow getConn).2.w := by
  cases getConn with
  | false => exact .of_eq rfl rfl
  | true =>
    have hconns : ∀ k, (s.rejectOverflow true).2.w.conns k =
        if k = s.w.nconns then { fd := some 0 } else s.w.conns k :=
      fun k => Function.update_apply _ _ _ _
    constructor
    · intro k hk _
      rw [hconns, if_neg (Nat.ne_of_lt hk)]
      exact .inl ⟨rfl, rfl⟩
    · intro k hk hk' hdrizzle
      rw [hconns, if_pos (Nat.le_antisymm (Nat.lt_succ_iff.mp hk') hk)] at hdrizzle
      cases hdrizzle

lemma ages_of_picked (h : Ages s.picked.w w') : Ages s.w w' := ⟨h.old, h.new⟩

lemma getPeer_ages (env : PeerEnv) (hc : s.r.connection = none) :
    Ages s.w (s.getPeer env).2.w := by
  by_cases hnew : s.Misses ∧ s.r.remainingPeers ≠ 0
  · rw [getPeer_of_misses env hnew.1 hnew.2]
    split
    · exact ages_of_picked (rejectOverflow_ages env.getConn)
    · exact ages_of_picked (createConnection_ages env s.r.nextPeer hc)
  · have hget := getPeer_cases env hc
    generalize s.getPeer env = ps at hget ⊢
    obtain ⟨rc, s'⟩ := ps
    cases hget with
    | single => exact .of_eq rfl rfl
    | busy => exact .of_eq rfl rfl
    | multi => exact .of_eq rfl rfl
    | overflow _ _ hmiss hleft => exact absurd ⟨hmiss, hleft⟩ hnew
    | create _ _ hmiss hleft => exact absurd ⟨hmiss, hleft⟩ hnew

/-! ## Steps of a request -/

/-- A step of a request closes the connections that it frees. -/
theorem exec_ages (env : Env) (hc : Custody p s) : Ages s.w (s.exec env p).2.w := by
  cases hp : p.stays with
  | true => exact (stays_exec env hc hp).ages
  | false =>
    cases p with
    | handlerTail =>
      rcases handlerTail_cases s with ⟨heq, _⟩ | ⟨k, _, _, heq⟩
      · rw [exec, heq]
        exact .of_eq rfl rfl
      · rw [exec, heq]
        refine ⟨fun j _ _ => .inl ?_, fun j hj hj' => absurd hj' (Nat.not_lt.mpr hj)⟩
        rw [dropPlaceholder, modReq_w, modConn_w, Worker.modConn_conns]
        split
        · next hj => exact hj ▸ ⟨rfl, rfl⟩
        · exact ⟨rfl, rfl⟩
    | dbdConnect =>
      simp only [exec, dbdConnect]
      split
      · exact .of_eq rfl rfl
      · exact getPeer_ages env.peer hc.ok.2.1.connection
    | next ft =>
      obtain ⟨s₁, hs₁, hnext⟩ := next_cases (s := s) ft hc.queues
      have hw : (s.exec env (.next ft)).2.w = s₁.w := by
        rw [exec]
        generalize s.next ft = ps at hnext
        obtain ⟨p', s'⟩ := ps
        cases hnext <;> rfl
      rw [hw]
      split at hs₁
      · exact hs₁ ▸ .of_eq rfl rfl
      · exact hs₁.ages (fun _ => drizzleCon_of_ok hc.ok) hc.items
    | finalize rc =>
      have hrc : rc ≠ .declined := by
        rintro rfl
        exact hc.ok.elim
      obtain ⟨_, hfin⟩ := finalizeRequest_cases env hrc hc.queues
      obtain ⟨s₁, es, hfree, hs'⟩ := hfin.exists_freePeer
      rw [exec, hs']
      exact hfree.ages (fun _ => drizzleCon_of_ok (s := s) hc.ok) hc.items
    | _ => cases hp

end St

/-! ## Runs -/

/-- Every database connection is open, or it has been closed and freed. -/
def Worker.Tidy (w : Worker) : Prop :=
  ∀ k < w.nconns, (w.conns k).drizzle → (w.conns k).Open ∨ (w.conns k).Dead

/-- The timers of a connection in the cache are deleted. -/
def Local.idle : Local where
  req _ _ _ _ := True
  item _ _ c := c.read.timer = none ∧ c.write.timer = none

lemma Local.idle_kept : Local.idle.Kept fun _ _ _ => True where
  init _ _ _ _ _ := trivial
  fire _ _ _ _ _ := trivial
  client _ _ _ _ _ _ := trivial
  exec _ _ _ _ _ _ _ := trivial
  saved _ _ _ _ _ _ _ _ _ _ := ⟨rfl, rfl⟩

namespace Sys

variable {s : Sys} {i : ℕ} {r : Req}

/-- Nobody holds a connection that has been freed. -/
lemma Owned.holders_of_ne_zero (h : s.Owned) (hk : k < s.w.nconns) (hf : (s.w.conns k).freed ≠ 0) :
    (s.w.conns k).drizzle ∧ (s.w.conns k).freed = 1 ∧ s.holders k = 0 := by
  cases hd : (s.w.conns k).drizzle with
  | false => exact absurd (h.shadow k hk hd).2 hf
  | true =>
    have := h.drizzle k hk hd
    exact ⟨rfl, by omega, by omega⟩

/-- A step leaves alone the connections that have been freed. -/
lemma Owned.conns_of_freed (h : s.Owned) (l : Label) (hk : k < s.w.nconns)
    (hf : (s.w.conns k).freed ≠ 0) :
    k < (s.step l).w.nconns ∧ (s.step l).w.conns k = s.w.conns k := by
  obtain ⟨_, _, hholders⟩ := h.holders_of_ne_zero hk hf
  have hstep := step_cases s l
  generalize s.step l = s' at hstep ⊢
  cases hstep with
  | skip => exact ⟨hk, rfl⟩
  | arrive a hidle => exact ⟨hk, rfl⟩
  | @event i e r hidle hi he =>
    have hview := Nat.le_zero.mp (hholders ▸ Owned.view_holders_le hi k)
    have hm := (stays_fire e (s.view r)).moves (c := True) (h.custody hi).holders_le
    exact ⟨Nat.lt_of_lt_of_le hk hm.nconns, hm.frame k hk hview⟩
  | client cc hi => exact ⟨hk, rfl⟩
  | idle slot stale hidle =>
    rcases closeHandler_cases s.w slot stale with heq | ⟨item, l₁, l₂, hcache, heq⟩
    · rw [heq]
      exact ⟨hk, rfl⟩
    · have hmem : item ∈ s.w.pool.cache := by rw [hcache]; simp
      obtain ⟨e, he⟩ := h.items item hmem
      have hne : k ≠ e := by
        rintro rfl
        have hpos : 0 < s.w.pool.cache.countP fun item => item.connection = some k :=
          List.countP_pos_iff.mpr ⟨item, hmem, by simpa using he.connection⟩
        rw [holders] at hholders
        omega
      rw [heq, he.connection, he.drizzleCon]
      refine ⟨?_, (Worker.freeConnection_conns e k).trans (if_neg hne)⟩
      dsimp only
      rwa [Worker.freeConnection_nconns]
  | tick now hidle => exact ⟨hk, rfl⟩
  | @run env i p r hact hi =>
    have hview := Nat.le_zero.mp (hholders ▸ Owned.view_holders_le hi k)
    have hc := h.custody hi
    rw [pos_of_active hact] at hc
    have hm := (St.exec_advances env hc).moves
    exact ⟨Nat.lt_of_lt_of_le hk hm.nconns, hm.frame k hk hview⟩

/-- A step of the worker process closes the connections that it frees. -/
lemma Owned.ages_step (h : s.Owned) (l : Label) : Ages s.w (s.step l).w ∧
    ∀ k < s.w.nconns, ((s.step l).w.conns k).drizzle = (s.w.conns k).drizzle := by
  have hstep := step_cases s l
  generalize s.step l = s' at hstep ⊢
  cases hstep with
  | skip => exact ⟨.of_eq rfl rfl, fun _ _ => rfl⟩
  | arrive a hidle => exact ⟨.of_eq rfl rfl, fun _ _ => rfl⟩
  | @event _ e r hidle hi he =>
    have hstays := stays_fire e (s.view r)
    exact ⟨hstays.ages, fun k _ => hstays.drizzle k⟩
  | client cc hi => exact ⟨.of_eq rfl rfl, fun _ _ => rfl⟩
  | idle slot stale hidle =>
    rcases closeHandler_cases s.w slot stale with heq | ⟨item, l₁, l₂, hcache, heq⟩
    · rw [heq]
      exact ⟨.of_eq rfl rfl, fun _ _ => rfl⟩
    · obtain ⟨e, he⟩ := h.items item (by rw [hcache]; simp)
      rw [heq, he.connection, he.drizzleCon]
      have hconns := Worker.freeConnection_conns (w := s.w) e
      have hn : (s.w.freeConnection (some e) (some e)).nconns = s.w.nconns :=
        Worker.freeConnection_nconns _ _
      refine ⟨⟨fun k _ _ => ?_, fun k hk hk' => absurd (hn ▸ hk') (Nat.not_lt.mpr hk)⟩,
        fun k _ => ?_⟩
      · dsimp only
        rw [hconns]
        split
        · exact .inr (Conn.dead_close_free _)
        · exact .inl ⟨rfl, rfl⟩
      · dsimp only
        rw [hconns]
        split
        · next hke => exact hke ▸ rfl
        · rfl
  | tick now hidle => exact ⟨.of_eq rfl rfl, fun _ _ => rfl⟩
  | run env hact hi =>
    have hc := h.custody hi
    rw [pos_of_active hact] at hc
    exact ⟨St.exec_ages env hc, (St.exec_advances env hc).moves.drizzle⟩

lemma Owned.tidy_step (h : s.Owned) (htidy : s.w.Tidy) (l : Label) : (s.step l).w.Tidy := by
  obtain ⟨hages, hdrizzle⟩ := h.ages_step l
  intro k hk' hd'
  by_cases hk : k < s.w.nconns
  · have hd : (s.w.conns k).drizzle := (hdrizzle k hk).symm.trans hd'
    rcases htidy k hk hd with hopen | hdead
    · refine (hages.old k hk hd).imp_left fun ⟨hfd, hfreed⟩ => ?_
      exact ⟨fun hnone => hopen.fd (hfd.symm.trans hnone), hfreed.trans hopen.freed⟩
    · right
      rw [(h.conns_of_freed l hk hdead.freed).2]
      exact hdead
  · exact hages.new k (Nat.not_lt.mp hk) hk' hd'

lemma tidy_run (conf : Conf) (ls : List Label) : (run conf ls).w.Tidy :=
  Lib.run_invariant_of (C := fun _ _ => True) (I := Owned) (J := fun s => s.w.Tidy)
    (fun _ l _ h => h.step l) (fun _ l _ ho h => ho.tidy_step h l) (owned_init conf)
    (fun _ hk => absurd hk (Nat.not_lt_zero _)) (Lib.Meets.of_forall (fun _ _ => trivial) ls _)

lemma freed_run (conf : Conf) (ls ls' : List Label) (hk : k < (run conf ls).w.nconns)
    (hf : ((run conf ls).w.conns k).freed ≠ 0) :
    (run conf (ls ++ ls')).w.conns k = (run conf ls).w.conns k := by
  have h : k < (run conf (ls ++ ls')).w.nconns ∧
      (run conf (ls ++ ls')).w.conns k = (run conf ls).w.conns k := by
    rw [run, Lib.run_append]
    exact (Lib.run_invariant_of (C := fun _ _ => True) (I := Owned)
      (J := fun s => k < s.w.nconns ∧ s.w.conns k = (run conf ls).w.conns k)
      (fun _ l _ h => h.step l) (fun s l _ ho h => by
        obtain ⟨hk, hconn⟩ := h
        obtain ⟨hk', hconn'⟩ := ho.conns_of_freed l hk (hconn ▸ hf)
        exact ⟨hk', hconn'.trans hconn⟩) (owned_run conf ls) ⟨hk, rfl⟩
      (Lib.Meets.of_forall (fun _ _ => trivial) ls' _))
  exact h.2

/-- The events of a connection in the cache. -/
lemma registered_run (conf : Conf) (hadd : conf.addConn) (ls : List Label) :
    ∀ item ∈ (run conf ls).w.pool.cache, ∀ k, item.connection = some k →
      ((run conf ls).w.conns k).Registered := by
  have hknown := known_meets conf ls
  have hd : Lib.Meets step (RunsMeet fun _ p s =>
      Known p s ∧ Local.backpressure.req s.w.conf p s.r s.conn) (init conf) ls :=
    (RunsMeet.and hknown (Local.backpressure_kept.meets conf hknown)).mono
      fun s l h env i p r hl hact hi => (h env i p r hl hact hi).imp_right And.left
  intro item hmem k hk
  exact (Local.wired_kept.run conf hd).items item hmem k hk ((conf_run conf ls).symm ▸ hadd)

/-- **The life of a connection.**  In all states of all runs, a database connection has a descriptor
as long as a request or an item of the cache holds it.  In the cache it has no timers, and, if the
event model has `ngx_add_conn`, its read event is registered, so that it is noticed when the server
closes it.  A connection that nobody holds has been freed, once, and has no descriptor, no events
and no timers; it is never touched again. -/
theorem connection_life (conf : Conf) (ls : List Label) (k : ℕ) (hk : k < (run conf ls).w.nconns)
    (hd : ((run conf ls).w.conns k).drizzle) :
    ((run conf ls).holders k = 1 ∧ ((run conf ls).w.conns k).Open ∨
      (run conf ls).holders k = 0 ∧ ((run conf ls).w.conns k).freed = 1 ∧
        ((run conf ls).w.conns k).Dead ∧
        ∀ ls', (run conf (ls ++ ls')).w.conns k = (run conf ls).w.conns k) ∧
    ∀ item ∈ (run conf ls).w.pool.cache, item.connection = some k →
      ((run conf ls).w.conns k).read.timer = none ∧
      ((run conf ls).w.conns k).write.timer = none ∧
      (conf.addConn → ((run conf ls).w.conns k).read.active) := by
  have ho := owned_run conf ls
  constructor
  · have hone := ho.drizzle k hk hd
    rcases tidy_run conf ls k hk hd with hopen | hdead
    · left
      rw [hopen.freed] at hone
      exact ⟨hone, hopen⟩
    · obtain ⟨_, hfreed, hholders⟩ := ho.holders_of_ne_zero hk hdead.freed
      exact .inr ⟨hholders, hfreed, hdead, fun ls' => freed_run conf ls ls' hk hdead.freed⟩
  · intro item hmem hitem
    have hidle := (Local.idle_kept.run conf (Lib.Meets.of_forall (fun _ _ _ _ _ _ _ _ _ => trivial)
      ls _)).items item hmem k hitem
    exact ⟨hidle.1, hidle.2, fun hadd => (registered_run conf hadd ls item hmem k hitem).read⟩

/-- A connection is saved, and the server closes it while it is in the cache. -/
def closedInCache : List Label := sampleArrival (.sample [7]) ++
  [.run { query := .ok (.sample 0) }, .run {}, .run {}, .run {}, .idle 0 false]

/-- It has been freed once, and the next request leaves it alone. -/
theorem connection_life_closedInCache :
    ((run (.sample (.sample [1] []) []) closedInCache).w.conns 0).freed = 1 ∧
      (run (.sample (.sample [1] []) []) (closedInCache ++ sampleArrival (.sample [8]))).w.conns 0 =
        (run (.sample (.sample [1] []) []) closedInCache).w.conns 0 := by
  rcases (connection_life (.sample (.sample [1] []) []) closedInCache 0 (by decide) (by decide)).1
    with ⟨hone, _⟩ | ⟨_, hfreed, _, hrest⟩
  · exact absurd hone (by decide)
  · exact ⟨hfreed, hrest _⟩

/-! ## The number of connections -/

/-- The connections that have a `drizzle_con_st`. -/
def dbKeys (s : Sys) : List ℕ := (List.range s.w.nconns).filter fun k => (s.w.conns k).drizzle

/-- The number of database connections that have not been freed. -/
def unfreed (s : Sys) : ℕ := s.dbKeys.countP fun k => (s.w.conns k).freed = 0

lemma mem_dbKeys : k ∈ s.dbKeys ↔ k < s.w.nconns ∧ (s.w.conns k).drizzle := by
  rw [dbKeys, List.mem_filter, List.mem_range]

/-- The connections that have not been freed are those of the requests and those in the cache. -/
lemma Owned.unfreed_eq (h : s.Owned) : s.unfreed = s.dbConns + s.w.pool.cache.length := by
  have hnodup : s.dbKeys.Nodup := List.nodup_range.filter _
  have hsum : s.unfreed = (s.dbKeys.map fun k =>
      Lib.heldBy Req.connection s.reqs k + Lib.heldBy Item.connection s.w.pool.cache k).sum := by
    refine Lib.countP_eq_sum fun k hk => ?_
    obtain ⟨hlt, hd⟩ := mem_dbKeys.mp hk
    have hone := h.drizzle k hlt hd
    change s.holders k = _
    split
    · next hfreed =>
      rw [of_decide_eq_true hfreed] at hone
      exact hone
    · next hfreed =>
      have hne : (s.w.conns k).freed ≠ 0 := fun hzero => hfreed (decide_eq_true hzero)
      omega
  rw [hsum, List.sum_map_add, Lib.sum_heldBy hnodup, Lib.sum_heldBy hnodup]
  congr 1
  · refine List.countP_congr fun r hr => ?_
    obtain ⟨i, hi⟩ := List.mem_iff_getElem?.mp hr
    cases hk : r.connection with
    | none => simp [St.onDb, view, hk]
    | some k =>
      have hlt : k < s.w.nconns := (h.ok i r hi).lt hk
      simp [St.onDb, view, hk, mem_dbKeys, hlt]
  · refine List.countP_eq_length.mpr fun item hmem => ?_
    obtain ⟨k, hk⟩ := h.items item hmem
    rw [hk.connection]
    exact decide_eq_true (mem_dbKeys.mpr ⟨hk.lt, hk.drizzle⟩)

/-- **The limit on connections.**  In all states of all runs, the database connections that have
not been freed are as many as requests hold, together with the length of the cache.  Let no
allocation fail while a request holds the connection by which it is rejected.  Then the counter,
a machine integer, is their number; if the pool rejects requests beyond its items, then the
number is at most that of the items, and the counter has not wrapped around. -/
theorem connection_limit (conf : Conf) :
    (∀ ls, (run conf ls).unfreed = (run conf ls).dbConns + (run conf ls).w.pool.cache.length) ∧
    ∀ ls, Lib.Meets step (RunsMeet PlaceholderKept) (init conf) ls →
      (run conf ls).w.pool.activeConns = .ofNat (run conf ls).unfreed ∧
      (conf.maxCached ≠ 0 → conf.overflow = .reject →
        (run conf ls).unfreed ≤ conf.maxCached ∧
        (run conf ls).w.pool.activeConns.toNat = (run conf ls).unfreed) := by
  refine ⟨fun ls => (owned_run conf ls).unfreed_eq, fun ls hls => ?_⟩
  have ho := owned_run conf ls
  have hc := counted_run conf hls
  rw [ho.unfreed_eq]
  refine ⟨hc.active, fun hmax hrej => ⟨?_, ?_⟩⟩
  · have hle := hc.le
    rw [conf_run] at hle
    exact hle hmax hrej
  · have hn := hc.toNat
    rw [conf_run] at hn
    exact hn hmax hrej

theorem connection_limit_fullPool : (run rejecting fullPool).unfreed ≤ 1 :=
  (((connection_limit rejecting).2 fullPool (by decide)).2 (by decide) rfl).1

end Sys
end DrizzleNginx
