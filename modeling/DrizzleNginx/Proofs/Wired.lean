/-
# Events of connections

With an event model that has `ngx_add_conn`, both events of a new connection are registered.
When the reading of a result is paused, both are removed; when it is resumed, only the read event
is registered again.  So the events of a connection tell whether reading from it has ever been
paused, and they do so in the cache as well.
-/
import DrizzleNginx.Proofs.Backpressure

namespace DrizzleNginx

/-! ## Registered events -/

/-- The read event is registered, and the write event as long as reading was never paused. -/
structure Conn.Registered (c : Conn) : Prop where
  read : c.read.active
  write : c.write.active ↔ c.pauses = 0

/-- Something has failed, and the connection is going to be closed. -/
def Pos.Dooms (p : Pos) (r : Req) : Prop :=
  match p with
  | .ret rc => rc.failed
  | .next _ => True
  | .finalize _ => r.statusN = 0
  | _ => False

/-- The events of the connection of a request: while the reading is paused, none is registered. -/
structure Wired (r : Req) (c : Conn) : Prop where
  read : c.read.active = !r.outputPaused
  write : c.write.active ↔ c.pauses = 0

variable {s s' : St} {p : Pos} {k : ℕ} {t : Talk}

lemma Wired.congr {r r' : Req} {c c' : Conn} (h : Wired r c) (hw : c'.wiring = c.wiring)
    (hp : r'.outputPaused = r.outputPaused) : Wired r' c' := by
  have hread : c'.read.active = c.read.active := (congrArg Prod.fst hw :)
  have hwrite : c'.write.active = c.write.active := (congrArg (fun x => x.2.1) hw :)
  have hpauses : c'.pauses = c.pauses := (congrArg (fun x => x.2.2) hw :)
  exact ⟨by rw [hread, hp, h.read], by rw [hwrite, hpauses, h.write]⟩

lemma Conn.Registered.wired {r : Req} {c : Conn} (h : c.Registered) (hp : r.outputPaused = false) :
    Wired r c := ⟨by rw [hp, h.read]; rfl, h.write⟩

lemma Wired.registered {r : Req} {c : Conn} (h : Wired r c) (hp : r.outputPaused = false) :
    c.Registered := ⟨by rw [h.read, hp]; rfl, h.write⟩

/-- A request that stays with its connection, and whose reading goes on as before. -/
lemma Even.wired (h : Even s s') (hk : s.r.connection = some k) (hk' : s'.r.connection = some k)
    (hw : Wired s.r s.conn) : Wired s'.r s'.conn := by
  rw [St.conn_of hk] at hw
  rw [St.conn_of hk']
  exact hw.congr (h.wiring k) h.outputPaused

namespace St

/-- The item of the cache whose connection `getPeer` would hand over. -/
def hit (s : St) : Option Item :=
  if s.w.conf.maxCached = 0 then none
  else if s.w.conf.single then s.w.pool.cache.head?
  else if s.r.remainingPeers = 0 then none
  else s.w.pool.cache.find? fun item =>
    item.sockaddr = (s.w.conf.peer s.r.nextPeer).sockaddr

/-- Where the connection comes from that `getPeer` has returned, and its events. -/
lemma GetPeer.registered {rc : Rc} (h : GetPeer s rc s') (hc : s.r.connection = none)
    (hpool : ∀ item ∈ s.w.pool.cache, ∃ j, item.Pools s.w j) :
    s'.r.connection = none ∨ s'.conn.drizzle = false ∨
    (s'.conn.pauses = 0 ∧ (s.w.conf.addConn → s'.conn.read.active ∧ s'.conn.write.active)) ∨
    ∃ item j, s.hit = some item ∧ item ∈ s.w.pool.cache ∧ item.connection = some j ∧
      s'.conn = s.w.conns j := by
  -- a connection from the cache
  have hcached : ∀ {s₁ : St} {item : Item}, s.hit = some item → item ∈ s.w.pool.cache →
      s₁.w.conns = s.w.conns → s₁.r.connection = item.connection →
      ∃ item j, s.hit = some item ∧ item ∈ s.w.pool.cache ∧ item.connection = some j ∧
        s₁.conn = s.w.conns j := by
    intro s₁ item hhit hmem hconns hconn
    obtain ⟨j, hj⟩ := hpool item hmem
    refine ⟨item, j, hhit, hmem, hj.connection, ?_⟩
    rw [conn_of (hconn.trans hj.connection), hconns]
  cases h with
  | @single item cache hmax hsingle hcache =>
    refine .inr (.inr (.inr (hcached ?_ (hcache ▸ List.mem_cons_self) rfl rfl)))
    rw [hit, if_neg hmax, if_pos hsingle, hcache]
    rfl
  | busy => exact .inl hc
  | @multi item l₁ l₂ hmax hmulti hcache haddr hfirst hleft =>
    refine .inr (.inr (.inr (hcached ?_ (hcache ▸ List.mem_append_right _ List.mem_cons_self)
      rfl rfl)))
    rw [hit, if_neg hmax, if_neg (by simp [hmulti]), if_neg hleft]
    refine List.find?_eq_some_iff_append.mpr ⟨by simpa using haddr, l₁, l₂, hcache, ?_⟩
    simpa using hfirst
  | overflow getConn =>
    cases getConn with
    | true =>
      refine .inr (.inl ?_)
      have hk : (s.picked.rejectOverflow true).2.r.connection = some s.w.nconns := rfl
      rw [conn_of hk]
      exact congrArg Conn.drizzle (Function.update_self (f := s.w.conns) ..)
    | false => exact .inl rfl
  | create hroom h =>
    cases h with
    | noMemory => exact .inl hc
    | refused => exact .inl rfl
    | @fresh _ con state hrc hcon =>
      refine .inr (.inr (.inl ?_))
      have hconn : (s.picked.addCon con 1 (some s.picked.w.nconns) (some s.picked.w.nconns)
          state).conn = con := by
        simp [conn, addCon]
      rw [hconn]
      exact ⟨hcon.pauses, hcon.active⟩

end St

/-! ## Runs -/

/-- The events of the connections of requests and of items of the cache, as a claim about them.
A request that is about to be ended is not paused, unless something has failed. -/
def Local.wired : Local where
  req conf p r c := conf.addConn → r.live → r.connection ≠ none → c.drizzle → ¬ p.Dooms r →
    Wired r c ∧ ∀ rc, p = .finalize rc → r.outputPaused = false
  item conf _ c := conf.addConn → c.Registered

lemma Pos.Dooms.settle {r : Req} : (p.after r).Dooms r ↔ p.Dooms r := by
  cases p with
  | loop =>
    unfold after settle
    cases r.inHandler <;> exact Iff.rfl
  | _ => exact Iff.rfl

/-- A request whose processing stands where a result is not read is not paused. -/
lemma not_paused_of_suspends (h : Local.backpressure.req s.w.conf p s.r s.conn) (hlive : s.r.live)
    (hp : p.suspends = false) : s.r.outputPaused = false := by
  by_contra hpaused
  have hw := h hlive (by simpa using hpaused)
  exact absurd (hp.symm.trans hw.pos) Bool.false_ne_true

namespace St

/-- What has failed stays so. -/
lemma dooms_exec (env : Env) (hs : Session p s.r t) (hlive : s.r.live) (hp : p.stays)
    (h : p.Dooms s.r) : (s.exec env p).1.Dooms (s.exec env p).2.r := by
  cases p with
  | ret rc =>
    have hcases := processed_cases (s := s) env rc
    rw [exec]
    generalize s.processed env rc = ps at hcases ⊢
    obtain ⟨p', s'⟩ := ps
    cases hcases with
    | error => trivial
    | failed => exact hs.statusN hlive (by simp)
    | flushFailed hrc => cases hrc.symm.trans h
    | waits hrc => cases hrc.symm.trans h
  | next => cases hp
  | finalize => cases hp
  | _ => exact h.elim

/-- A request that is about to be ended without a failure comes from
`ngx_http_upstream_drizzle_done`. -/
lemma done_of_finalize (env : Env) (hc : Custody p s) (hs : Session p s.r t) (hlive : s.r.live)
    (hp : ∀ rc, p ≠ .finalize rc) {rc : Rc} (h : (s.exec env p).1 = .finalize rc)
    (hdooms : ¬ (s.exec env p).1.Dooms (s.exec env p).2.r) : ∃ rc', p = .done rc' := by
  by_contra hdone
  have hstatus := (exec_flags env hc).statusN fun rc' heq => hdone ⟨rc', heq⟩
  rw [hs.statusN hlive hp, or_self] at hstatus
  rw [h] at hdooms
  exact hdooms hstatus

/-- The events of the connection that `getPeer` hands over. -/
lemma wired_dbdConnect (env : Env) (hc : Custody .dbdConnect s) (hadd : s.w.conf.addConn)
    (hpaused : s.r.outputPaused = false) (hitems : ∀ item ∈ s.w.pool.cache, ∀ j,
      item.connection = some j → (s.w.conns j).Registered)
    (hconn : (s.dbdConnect env).2.r.connection ≠ none)
    (hd : (s.dbdConnect env).2.conn.drizzle) :
    Wired (s.dbdConnect env).2.r (s.dbdConnect env).2.conn := by
  have hnone := hc.ok.2.1.connection
  have hflow := exec_flow env hc rfl
  rw [exec] at hflow
  have hpaused' : (s.dbdConnect env).2.r.outputPaused = false :=
    (congrArg Prod.fst hflow :).trans hpaused
  unfold dbdConnect at hconn hd hpaused' ⊢
  split at hconn
  · exact absurd hnone hconn
  · next halloc =>
    rw [if_neg halloc] at hd hpaused' ⊢
    have hsource := (getPeer_cases env.peer hnone).registered hnone hc.items
    generalize s.getPeer env.peer = ps at hsource hconn hd hpaused' ⊢
    rcases hsource with h | h | ⟨hp, hactive⟩ | ⟨item, j, _, hmem, hj, heq⟩
    · exact absurd h hconn
    · exact absurd (h.symm.trans hd) Bool.false_ne_true
    · obtain ⟨hr, hw⟩ := hactive hadd
      have hreg : ps.2.conn.Registered := ⟨hr, by simp [hp, hw]⟩
      exact hreg.wired hpaused'
    · have hreg := hitems item hmem j hj
      rw [← heq] at hreg
      exact hreg.wired hpaused'

end St

lemma Local.wired_kept : Local.wired.Kept fun _ p s =>
    Known p s ∧ Local.backpressure.req s.w.conf p s.r s.conn where
  init _ _ _ _ _ _ _ hconn := absurd rfl hconn
  fire ev s _ _ h hadd hlive hconn hd _ := by
    obtain ⟨⟨cw, hr⟩, rt, wt, hc⟩ := St.fire_cases ev s
    have hconn' : s.r.connection ≠ none := by
      rw [hr] at hconn
      exact hconn
    obtain ⟨hw, _⟩ := h hadd ((congrArg Req.live hr :).symm.trans hlive) hconn'
      (by rw [hc] at hd; exact hd) id
    refine ⟨hw.congr (by rw [hc]; rfl) (by rw [hr]), (by simp)⟩
  client _ p _ _ _ h hadd hlive hconn hd hdooms := by
    obtain ⟨hw, hp⟩ := h hadd hlive hconn hd (by cases p <;> exact hdooms)
    exact ⟨⟨hw.read, hw.write⟩, hp⟩
  exec env p s hc hd h hitems hadd hlive hconn hdriz hdooms := by
    obtain ⟨hknown, hback⟩ := hd
    have hlive₀ := St.live_of_exec env hc hlive
    obtain ⟨t, hs⟩ := hknown.session
    rw [Pos.Dooms.settle] at hdooms
    suffices Wired (s.exec env p).2.r (s.exec env p).2.conn ∧
        ∀ rc, (s.exec env p).1 = .finalize rc → (s.exec env p).2.r.outputPaused = false from
      ⟨this.1, fun rc hrc => this.2 rc (Pos.eq_of_after hrc (by simp) (by simp))⟩
    have hstays : p.stays → (s.exec env p).2.r.connection = s.r.connection := fun hp =>
      (St.stays_exec env hc hp).connection
    have hold : p.stays → Wired s.r s.conn := by
      intro hp
      have hk : s.r.connection ≠ none := hstays hp ▸ hconn
      refine (h hadd hlive₀ hk ?_ fun hdoomed => hdooms (St.dooms_exec env hs hlive₀ hp hdoomed)).1
      obtain ⟨k, hk⟩ := Option.ne_none_iff_exists'.mp hk
      rw [St.conn_of hk]
      rw [St.conn_of ((hstays hp).trans hk)] at hdriz
      exact (congrArg Conn.drizzle ((St.stays_exec env hc hp).ident k)).symm.trans hdriz
    cases hs.flows env hc hlive₀ with
    | even hp heven =>
      obtain ⟨k, hk'⟩ := Option.ne_none_iff_exists'.mp hconn
      refine ⟨heven.wired ((hstays hp).symm.trans hk') hk' (hold hp), fun rc hrc => ?_⟩
      obtain ⟨rc', rfl⟩ := St.done_of_finalize env hc hs hlive₀
        (by rintro _ rfl; cases hp) hrc hdooms
      exact heven.outputPaused.trans (not_paused_of_suspends hback hlive₀ rfl)
    | released hp hflow =>
      cases p with
      | handlerTail =>
        rcases St.handlerTail_cases s with ⟨heq, _⟩ | ⟨_, _, _, heq⟩
        · rw [St.exec, heq] at hconn hdriz ⊢
          obtain ⟨hw, _⟩ := h hadd hlive₀ hconn hdriz id
          exact ⟨⟨hw.read, hw.write⟩, (by simp)⟩
        · rw [St.exec, heq] at hconn
          exact absurd rfl hconn
      | dbdConnect =>
        have hpaused := not_paused_of_suspends hback hlive₀ rfl
        rw [St.exec] at hconn hdriz hflow ⊢
        refine ⟨St.wired_dbdConnect env hc hadd hpaused
          (fun item hmem j hj => hitems item hmem j hj hadd) hconn hdriz, fun _ _ => ?_⟩
        exact (congrArg Prod.fst hflow :).trans hpaused
      | next ft => exact absurd (St.connection_next env hc) hconn
      | finalize rc =>
        exact absurd ((St.exec_finalize env hc).2.symm.trans hlive) Bool.false_ne_true
      | _ => cases hp
    | @reads k hp hk hreads =>
      have hstay : p.stays := by rcases hp with rfl | rfl | rfl <;> rfl
      have hold := hold hstay
      have hk' := (hstays hstay).trans hk.connection
      have hread : p.suspends = false := by rcases hp with rfl | rfl | rfl <;> rfl
      rw [St.conn_of hk.connection] at hold
      rw [St.conn_of hk']
      generalize s.exec env p = ps at hreads hdooms ⊢
      cases hreads with
      | even heven =>
        exact ⟨hold.congr (heven.wiring k) heven.outputPaused,
          fun _ _ => heven.outputPaused.trans (not_paused_of_suspends hback hlive₀ hread)⟩
      | paused hpauses hwait =>
        refine ⟨⟨?_, ?_⟩, (by simp)⟩
        · rw [hwait.read, hwait.paused]
          rfl
        · simp [hwait.write, hpauses]
      | failed => exact absurd rfl hdooms
    | @drains k timedout hp hk _ hdrain =>
      subst hp
      have hold := hold rfl
      have hk' := (hstays rfl).trans hk.connection
      have hstatus := (St.exec_flags env hc).statusN (by simp)
      rw [hs.statusN hlive₀ (by simp), or_self] at hstatus
      rw [St.conn_of hk.connection] at hold
      rw [St.conn_of hk']
      generalize s.exec env (.event (.clientWrite timedout)) = ps at hdrain hdooms hstatus ⊢
      obtain ⟨p', s'⟩ := ps
      cases hdrain with
      | failed => exact absurd hstatus hdooms
      | waits hq ho hw hp =>
        have hw : s'.w = s.w := hw
        exact ⟨hold.congr (by rw [hw]) hp, (by simp)⟩
      | resumed hq ho hw hp =>
        have hconn := hw k
        rw [if_pos rfl] at hconn
        refine ⟨⟨?_, ?_⟩, (by simp)⟩
        · rw [hp]
          exact (congrArg (fun c : Conn => c.read.active) hconn :)
        · have hwrite : (s'.w.conns k).write.active = (s.w.conns k).write.active :=
            (congrArg (fun c : Conn => c.write.active) hconn :)
          have hpauses : (s'.w.conns k).pauses = (s.w.conns k).pauses :=
            (congrArg Conn.pauses hconn :)
          rw [hwrite, hpauses]
          exact hold.write
  saved env rc s item k s' hc hd h hsaved hadd := by
    have hk := hsaved.holds
    have hstatus : s.r.statusN ≠ 0 := by
      intro h0
      have := hsaved.reusable
      simp [Req.reusable, h0] at this
    have hlive : s.r.live := (hc.ok.live hk.connection)
    obtain ⟨hw, hp⟩ := h hadd hlive (by simp [hk.connection])
      (by rw [St.conn_of hk.connection]; exact hk.drizzle) hstatus
    have := hw.registered (hp rc rfl)
    rw [St.conn_of hk.connection] at this
    exact ⟨this.read, this.write⟩

/-! ## Connections that were never paused -/

/-- The connections that are handed over from the cache were never paused. -/
def HitsUnpaused (_ : Env) (p : Pos) (s : St) : Prop :=
  p = .dbdConnect → ∀ item ∈ s.hit, ∀ k ∈ item.connection, (s.w.conns k).pauses = 0

instance (env : Env) (p : Pos) (s : St) : Decidable (HitsUnpaused env p s) :=
  inferInstanceAs (Decidable (p = .dbdConnect → ∀ item ∈ s.hit, ∀ k ∈ item.connection,
    (s.w.conns k).pauses = 0))

/-- Before anything of a result has been read, reading cannot have been paused. -/
def Local.unpaused : Local where
  req _ p r c := r.live → (∀ rc, p ≠ .finalize rc) → r.connection ≠ none → c.drizzle →
    answers r.calls = [] → c.pauses = 0
  item _ _ _ := True

lemma Session.answers_ne_nil (h : Session p s.r t) (hlive : s.r.live)
    (hp : p = .recvCols ∨ p = .recvRows ∨ p = .recvFields) : answers s.r.calls ≠ [] := by
  have hshape := Talk.shape_after h.talk
  have hfits := h.fits hlive
  obtain rfl | rfl | rfl : t = .columns ∨ t = .rows ∨ t = .fields := by
    rcases hp with rfl | rfl | rfl
    · exact .inl hfits.2
    · have ht := hfits.2
      split at ht
      · exact .inr (.inl ht)
      · exact .inr (.inr ht)
    · exact .inr (.inr hfits.2.2.2)
  · obtain ⟨h, _, cols, heq⟩ := hshape
    simp [heq]
  · obtain ⟨h, _, cols, rows, _, heq⟩ := hshape
    simp [heq]
  · obtain ⟨h, _, cols, rows, _, row, _, chunks, heq⟩ := hshape
    simp [heq]

lemma Local.unpaused_kept :
    Local.unpaused.Kept fun env p s => Known p s ∧ HitsUnpaused env p s where
  init _ _ _ _ _ _ _ hconn := absurd rfl hconn
  fire ev s _ _ h hlive _ hconn hd hans := by
    obtain ⟨⟨cw, hr⟩, rt, wt, hc⟩ := St.fire_cases ev s
    rw [hc] at hd ⊢
    rw [hr] at hlive hconn hans
    exact h hlive (by simp) hconn hd hans
  client _ _ _ _ _ h := h
  exec env p s hc hd h hitems hlive hp' hconn hdriz hans := by
    obtain ⟨hknown, hhit⟩ := hd
    have hlive₀ := St.live_of_exec env hc hlive
    obtain ⟨t, hs⟩ := hknown.session
    have hp' := Pos.ne_finalize_after hp'
    have hans₀ : answers s.r.calls = [] := by
      obtain ⟨es, hes, _⟩ := St.exec_hist env hc
      have hcalls : (s.exec env p).2.r.calls = es.filterMap ReqEvent.call ++ s.r.calls := by
        rw [Req.calls, hes, List.filterMap_append]
        rfl
      rw [hcalls, answers_append] at hans
      exact (List.append_eq_nil_iff.mp hans).1
    -- a request that stays with its connection
    have hold : p.stays → ∀ k, s.r.connection = some k → (s.w.conns k).pauses = 0 := by
      intro hp k hk
      have hk' := (St.stays_exec env hc hp).connection.trans hk
      rw [St.conn_of hk'] at hdriz
      have := h hlive₀ (by rintro _ rfl; cases hp) (by simp [hk]) (by
        rw [St.conn_of hk]
        exact (congrArg Conn.drizzle ((St.stays_exec env hc hp).ident k)).symm.trans hdriz) hans₀
      rwa [St.conn_of hk] at this
    cases hs.flows env hc hlive₀ with
    | even hp heven =>
      obtain ⟨k, hk'⟩ := Option.ne_none_iff_exists'.mp hconn
      have hk := (St.stays_exec env hc hp).connection.symm.trans hk'
      rw [St.conn_of hk']
      have hpauses : ((s.exec env p).2.w.conns k).pauses = (s.w.conns k).pauses :=
        (congrArg (fun x : Bool × Bool × ℕ => x.2.2) (heven.wiring k) :)
      exact hpauses.trans (hold hp k hk)
    | released hp hflow =>
      cases p with
      | handlerTail =>
        rcases St.handlerTail_cases s with ⟨heq, _⟩ | ⟨_, _, _, heq⟩
        · rw [St.exec, heq] at hconn hdriz ⊢
          exact h hlive₀ (by simp) hconn hdriz hans₀
        · rw [St.exec, heq] at hconn
          exact absurd rfl hconn
      | dbdConnect =>
        have hnone := hc.ok.2.1.connection
        simp only [St.exec, St.dbdConnect] at hconn hdriz ⊢
        split at hconn
        · exact absurd hnone hconn
        · next halloc =>
          rw [if_neg halloc] at hdriz ⊢
          have hsource := (St.getPeer_cases env.peer hnone).registered hnone hc.items
          generalize s.getPeer env.peer = ps at hsource hconn hdriz ⊢
          rcases hsource with h | h | ⟨hp, _⟩ | ⟨item, j, hhit', _, hj, heq⟩
          · exact absurd h hconn
          · exact absurd (h.symm.trans hdriz) Bool.false_ne_true
          · exact hp
          · exact (congrArg Conn.pauses heq).trans (hhit rfl item hhit' j hj)
      | next ft => exact absurd (St.connection_next env hc) hconn
      | finalize rc =>
        exact absurd ((St.exec_finalize env hc).2.symm.trans hlive) Bool.false_ne_true
      | _ => cases hp
    | reads hp => exact absurd hans₀ (hs.answers_ne_nil hlive₀ hp)
    | @drains k timedout hp hk _ hdrain =>
      subst hp
      have hk' := (St.stays_exec env hc rfl).connection.trans hk.connection
      have hold := hold rfl k hk.connection
      rw [St.conn_of hk']
      generalize s.exec env (.event (.clientWrite timedout)) = ps at hdrain hp' ⊢
      obtain ⟨p', s'⟩ := ps
      cases hdrain with
      | @failed rc => exact absurd rfl (hp' rc)
      | waits hq ho hw =>
        have hw : s'.w = s.w := hw
        rw [hw]
        exact hold
      | resumed hq ho hw =>
        have hconn := hw k
        rw [if_pos rfl] at hconn
        exact (congrArg Conn.pauses hconn :).trans hold
  saved _ _ _ _ _ _ _ _ _ _ := trivial

namespace Sys

/-- A request at rest that has a database connection. -/
lemma Owned.holds_of_idle {s : Sys} (ho : s.Owned) (hidle : s.active = none) {i : ℕ} {r : Req}
    (hi : s.reqs[i]? = some r) (hlive : r.live) (hcon : r.drizzleCon ≠ none) :
    ∃ k, (s.view r).Holds k := by
  have hok := ho.ok i r hi
  rw [pos_of_idle hidle] at hok
  rcases hok.2 with hended | ⟨_, hk | hrej⟩
  · cases hended.live.symm.trans hlive
  · exact hk
  · obtain ⟨_, hk⟩ := hrej.holds
    exact absurd hk.drizzleCon hcon

/-- A request that waits unpaused holds a connection, with the events that the claim says. -/
lemma wired_run (conf : Conf) (hadd : conf.addConn) (ls : List Label)
    (hidle : (run conf ls).active = none) {r : Req} (hr : r ∈ (run conf ls).reqs) (hlive : r.live)
    (hpaused : r.outputPaused = false) (hcon : r.drizzleCon ≠ none) :
    ∃ k, ((run conf ls).view r).Holds k ∧ ((run conf ls).w.conns k).Registered := by
  obtain ⟨i, hi⟩ := List.mem_iff_getElem?.mp hr
  have hknown := known_meets conf ls
  have hd : Lib.Meets step (RunsMeet fun _ p s =>
      Known p s ∧ Local.backpressure.req s.w.conf p s.r s.conn) (init conf) ls :=
    (RunsMeet.and hknown (Local.backpressure_kept.meets conf hknown)).mono
      fun s l h env i p r hl hact hi => (h env i p r hl hact hi).imp_right And.left
  have hwired := (Local.wired_kept.run conf hd).req i r hi
  rw [pos_of_idle hidle] at hwired
  obtain ⟨k, hk⟩ := (owned_run conf ls).holds_of_idle hidle hi hlive hcon
  rw [St.conn_of hk.connection] at hwired
  have hadd' : (run conf ls).w.conf.addConn := (conf_run conf ls).symm ▸ hadd
  have hconn : r.connection ≠ none := fun hnone => nomatch hnone.symm.trans hk.connection
  exact ⟨k, hk, (hwired hadd' hlive hconn hk.drizzle nofun).1.registered hpaused⟩

/-- Nothing of the result has been read when a request is connecting or sending a query. -/
lemma answers_of_waits (conf : Conf) (ls : List Label) (hidle : (run conf ls).active = none)
    {i : ℕ} {r : Req} (hi : (run conf ls).reqs[i]? = some r) (hlive : r.live)
    (hstate : r.state = .connect ∨ r.state = .sendQuery) : answers r.calls = [] := by
  obtain ⟨t, hs⟩ := (recorded_run conf ls).session.req i r hi
  rw [pos_of_idle hidle] at hs
  have hwaits : r.Waits t := hs.fits hlive
  have hshape := Talk.shape_after hs.talk
  unfold Req.Waits at hwaits
  rcases hstate with h | h <;> rw [h] at hwaits <;> rw [hwaits] at hshape
  · exact hshape
  · exact hshape

/-- **Both events of a connection.**  Let the event model have `ngx_add_conn`.  In all states of
all runs: on the database connection of a request that is not paused and is connecting or sending a
query, both events are registered if and only if reading from it was never paused.  So they are in
every run in which no connection is taken from the cache that has been paused by an earlier
request. -/
theorem both_registered (conf : Conf) (hadd : conf.addConn) :
    (∀ ls, (run conf ls).active = none → ∀ r ∈ (run conf ls).reqs, r.live →
      r.outputPaused = false → r.drizzleCon ≠ none →
      (r.state = .connect ∨ r.state = .sendQuery) →
      ∃ k, r.connection = some k ∧ (((run conf ls).w.conns k).read.active ∧
        ((run conf ls).w.conns k).write.active ↔ ((run conf ls).w.conns k).pauses = 0)) ∧
    ∀ ls, Lib.Meets step (RunsMeet HitsUnpaused) (init conf) ls →
      (run conf ls).active = none → ∀ r ∈ (run conf ls).reqs, r.live →
      r.outputPaused = false → r.drizzleCon ≠ none →
      (r.state = .connect ∨ r.state = .sendQuery) →
      ∃ k, r.connection = some k ∧ ((run conf ls).w.conns k).read.active ∧
        ((run conf ls).w.conns k).write.active := by
  refine ⟨fun ls hidle r hr hlive hpaused hcon _ => ?_,
    fun ls hhits hidle r hr hlive hpaused hcon hstate => ?_⟩
  · obtain ⟨k, hk, hreg⟩ := wired_run conf hadd ls hidle hr hlive hpaused hcon
    exact ⟨k, hk.connection, by rw [hreg.write]; exact and_iff_right hreg.read⟩
  · obtain ⟨k, hk, hreg⟩ := wired_run conf hadd ls hidle hr hlive hpaused hcon
    obtain ⟨i, hi⟩ := List.mem_iff_getElem?.mp hr
    have hunpaused := (Local.unpaused_kept.run conf
      (RunsMeet.and (known_meets conf ls) hhits)).req i r hi
    rw [pos_of_idle hidle, St.conn_of hk.connection] at hunpaused
    have hconn : r.connection ≠ none := fun hnone => nomatch hnone.symm.trans hk.connection
    have hzero : ((run conf ls).w.conns k).pauses = 0 :=
      hunpaused hlive nofun hconn hk.drizzle (answers_of_waits conf ls hidle hi hlive hstate)
    exact ⟨k, hk.connection, hreg.read, hreg.write.mpr hzero⟩

/-- A connection is paused by one request, goes to the cache, and is handed to the next one, which
has to wait until its query is sent. -/
def pausedBefore : List Label := pausedResponse ++
  [.run { flush := { filter := { consumed := 30 } } }, .run {}, .run { column := .ok none },
    .run { row := .ok 0 }, .run {}, .run {}] ++
  sampleArrival (.sample [8]) ++ [.run {}, .run {}, .run {}, .run {}]

/-- The same without the pause. -/
def unpausedBefore : List Label :=
  sampleArrival (.sample [7]) ++ [.run { query := .ok (.sample 0) }, .run {}, .run {}, .run {}] ++
    sampleArrival (.sample [8]) ++ [.run {}, .run {}, .run {}, .run {}]

theorem both_registered_unpausedBefore :
    ∃ r ∈ (run (.sample (.sample [1] []) []) unpausedBefore).reqs, r.id = 1 ∧ ∃ k,
      r.connection = some k ∧
        ((run (.sample (.sample [1] []) []) unpausedBefore).w.conns k).read.active ∧
        ((run (.sample (.sample [1] []) []) unpausedBefore).w.conns k).write.active := by
  have hmem := List.get_mem (run (.sample (.sample [1] []) []) unpausedBefore).reqs ⟨1, by decide⟩
  exact ⟨_, hmem, by decide, (both_registered _ rfl).2 _ (by decide) (by decide) _ hmem (by decide)
    (by decide) (by decide) (.inr (by decide))⟩

/-- Nothing wakes up the request when the socket takes more of its query. -/
theorem write_event_lost : ¬ ∀ conf : Conf, conf.addConn → ∀ ls, (run conf ls).active = none →
    ∀ r ∈ (run conf ls).reqs, r.live → r.outputPaused = false → r.drizzleCon ≠ none →
      (r.state = .connect ∨ r.state = .sendQuery) → ∀ k, r.connection = some k →
      ((run conf ls).w.conns k).read.active ∧ ((run conf ls).w.conns k).write.active := by
  intro h
  have hactive := h (.sample (.sample [1] []) []) rfl pausedBefore (by decide) _
    (List.get_mem _ ⟨1, by decide⟩) (by decide) (by decide) (by decide) (.inr (by decide)) 0
    (by decide)
  revert hactive
  decide

end Sys
end DrizzleNginx
