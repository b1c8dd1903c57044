/-
# Requests that the full pool rejects

With `overflow=reject`, a request that would need a connection beyond the size of the pool takes
one with descriptor 0, which `ngx_http_drizzle_handler` takes away again and answers with 503.  The
code for that is only in the handler.  So it has to be shown that the pool is never full when a
request tries again in the event loop: the failed attempt has held one of the counted connections
and has given it back.
-/
import DrizzleNginx.Proofs.Histories

namespace DrizzleNginx

variable {s s' : St} {p : Pos} {k : ℕ}

/-! ## A free item -/

namespace St

/-- A connection that is saved goes to a free item, if there is one. -/
lemma FreePeer.evicted {failed : Bool} (h : FreePeer failed s s') (hfree : s.w.pool.free ≠ [] ∨
    s.r.reusable = false ∨ s.r.connection = none) :
    ∀ k ev, .saved k ev ∈ s'.r.hist → .saved k ev ∈ s.r.hist ∨ ev = none := by
  intro k ev hmem
  cases h with
  | idle b hc => exact .inl hmem
  | closed b hc hr =>
    have hmem : .saved k ev ∈ ReqEvent.closed _ :: s.r.hist := hmem
    rcases List.mem_cons.mp hmem with heq | hold
    · cases heq
    · exact .inl hold
  | saved hc hmax hfailed hr ht =>
    have hmem : .saved k ev ∈ ReqEvent.saved _ _ :: s.r.hist := hmem
    rcases List.mem_cons.mp hmem with heq | hold
    · right
      obtain ⟨_, rfl⟩ := ReqEvent.saved.inj heq
      cases ht with
      | free => rfl
      | evict hnil =>
        rcases hfree with hne | hnot | hnone
        · exact absurd hnil hne
        · cases hnot.symm.trans hr
        · cases hnone.symm.trans hc
    · exact .inl hold

/-- A request that ends costs no other connection, if there is a free item for its own. -/
lemma saved_finalizeRequest (env : Env) {rc : Rc} (hc : Custody (.finalize rc) s)
    (hfree : ∀ k, s.Holds k → s.w.pool.free ≠ []) : ∀ k ev,
      .saved k ev ∈ (s.finalizeRequest env rc).2.r.hist → .saved k ev ∈ s.r.hist ∨ ev = none := by
  intro k ev hmem
  obtain ⟨hrc, hs⟩ : rc ≠ .declined ∧ (s.Idle ∨ (∃ k, s.Holds k) ∨ s.Rejected) := by
    have hok := hc.ok
    cases rc with
    | declined => exact hok.elim
    | _ => exact ⟨by simp, hok.2⟩
  have hroom : s.w.pool.free ≠ [] ∨ s.r.reusable = false ∨ s.r.connection = none := by
    rcases hs with hidle | ⟨j, hj⟩ | hrejected
    · exact .inr (.inr hidle.connection)
    · exact .inl (hfree j hj)
    · exact .inr (.inl hrejected.not_reusable)
  obtain ⟨_, hfin⟩ := finalizeRequest_cases env hrc hc.queues
  -- the connection is given away between the events that enter and end the function
  have hgiven : ∀ {s₁ : St}, FreePeer false (s.log (.finalize rc)) s₁ → .saved k ev ∈ s₁.r.hist →
      .saved k ev ∈ s.r.hist ∨ ev = none := by
    intro s₁ hgive hmem
    rcases hgive.evicted hroom k ev hmem with hold | hnone
    · exact .inl (by simpa using hold)
    · exact .inr hnone
  generalize (s.finalizeRequest env rc).2 = s' at hfin hmem
  cases hfin with
  | completed hgive hsend rc' => exact hgiven hgive (by simpa [ended] using hmem)
  | failed hgive hsend => exact hgiven hgive (by simpa [ended] using hmem)

lemma saved_exec (env : Env) (hc : Custody p s) (hfree : ∀ k, s.Holds k → s.w.pool.free ≠ []) :
    ∀ k ev, .saved k ev ∈ (s.exec env p).2.r.hist → .saved k ev ∈ s.r.hist ∨ ev = none := by
  intro k ev hmem
  obtain ⟨es, hes, hlogs⟩ := exec_hist env hc
  rcases List.mem_append.mp (hes ▸ hmem) with hnew | hold
  · have hlog := hlogs _ hnew
    cases p with
    | finalize rc => exact saved_finalizeRequest env hc hfree k ev hmem
    | _ => cases hlog
  · exact .inl hold

/-- The connection that is closed is the one of the request. -/
lemma FreePeer.closed_mem {failed : Bool} (h : FreePeer failed s s')
    (hmem : .closed k ∈ s'.r.hist) : .closed k ∈ s.r.hist ∨ s.r.connection = some k := by
  rcases h.hist with ⟨_, heq⟩ | ⟨j, ev, _, _, _, heq⟩ | ⟨j, hj, heq, _⟩
  · exact .inl (heq ▸ hmem)
  · exact .inl (by simpa [heq] using hmem)
  · rw [heq] at hmem
    rcases List.mem_cons.mp hmem with hclosed | hmem
    · obtain rfl := ReqEvent.closed.inj hclosed
      exact .inr hj
    · exact .inl hmem

/-- Only database connections are closed for a request that is not about to be ended with the
connection by which it is rejected. -/
lemma closed_exec (env : Env) (hc : Custody p s) (hcount : p.Counts s)
    (hmem : .closed k ∈ (s.exec env p).2.r.hist) : .closed k ∈ s.r.hist ∨ s.Holds k := by
  obtain ⟨es, hes, hlogs⟩ := exec_hist env hc
  rcases List.mem_append.mp (hes ▸ hmem) with hnew | hold
  · have hlog := hlogs _ hnew
    -- what a request holds at these positions
    have hholds : (s.Idle ∨ (∃ j, s.Holds j) ∨ s.Rejected) → ¬ s.Rejected →
        s.r.connection = some k → s.Holds k := by
      rintro (hidle | ⟨j, hj⟩ | hrej) hnot hk
      · cases hidle.connection.symm.trans hk
      · obtain rfl : j = k := Option.some.inj (hj.connection.symm.trans hk)
        exact hj
      · exact absurd hrej hnot
    cases p with
    | next ft =>
      obtain ⟨s₁, hs₁, hnext⟩ := next_cases (s := s) ft hc.queues
      have hmem₁ : .closed k ∈ s₁.r.hist := by
        rw [exec] at hmem
        generalize s.next ft = ps at hnext hmem
        obtain ⟨p', s'⟩ := ps
        cases hnext <;> exact hmem
      split at hs₁
      · exact .inl (hs₁ ▸ hmem₁)
      · refine (hs₁.closed_mem hmem₁).imp_right ?_
        have hok := hc.ok
        cases ft with
        | nolive => exact hholds (.inl hok.2) (not_rejected (.inl hok.2))
        | error => exact hholds hok.2 hcount.1
        | timeout => exact hholds hok.2 hcount.1
    | finalize rc =>
      obtain ⟨hrc, hs⟩ : rc ≠ .declined ∧ (s.Idle ∨ (∃ k, s.Holds k) ∨ s.Rejected) := by
        have hok := hc.ok
        cases rc with
        | declined => exact hok.elim
        | _ => exact ⟨by simp, hok.2⟩
      obtain ⟨_, hfin⟩ := finalizeRequest_cases env hrc hc.queues
      have hgiven : ∀ {s₁ : St}, FreePeer false (s.log (.finalize rc)) s₁ →
          .closed k ∈ s₁.r.hist → .closed k ∈ s.r.hist ∨ s.Holds k := by
        intro s₁ hgive hmem
        rcases hgive.closed_mem hmem with hold | hk
        · exact .inl (by simpa using hold)
        · exact .inr (hholds hs hcount hk)
      rw [exec] at hmem
      generalize (s.finalizeRequest env rc).2 = s' at hfin hmem
      cases hfin with
      | completed hgive hsend rc' => exact hgiven hgive (by simpa [ended] using hmem)
      | failed hgive hsend => exact hgiven hgive (by simpa [ended] using hmem)
    | _ => cases hlog
  · exact .inl hold

end St

/-! ## Rejected requests -/

/-- Where a request stands that the full pool has rejected, with its whole history.  When
`ngx_get_connection` has failed, it has no connection. -/
inductive Pos.Rejects (r : Req) (c : Conn) : Pos → Prop
  | returned (i : ℕ) (hhist : r.hist = [.getPeer .again r.connection, .overflow, .pick i])
      (hin : r.inHandler) (hsent : r.out.headerSent = false)
      (hfd : r.connection ≠ none → c.fd = some 0) : Rejects r c (.dbdConnected .again)
  | crashed (i : ℕ) (hhist : r.hist = [.getPeer .again none, .overflow, .pick i]) :
      Rejects r c .crashed
  | held (i k : ℕ) (hhist : r.hist = [.getPeer .again (some k), .overflow, .pick i])
      (hk : r.connection = some k) (hin : r.inHandler) (hsent : r.out.headerSent = false)
      (hfd : c.fd = some 0) : Rejects r c .handlerTail
  | dropped (i k : ℕ) (hhist : r.hist = [.getPeer .again (some k), .overflow, .pick i])
      (hnone : r.connection = none) (hin : r.inHandler = false)
      (hsent : r.out.headerSent = false) : Rejects r c (.finalize (.http 503))
  | ended (i k : ℕ) (hhist : r.hist = [.finalized (.http 503), .finalize (.http 503),
      .getPeer .again (some k), .overflow, .pick i]) (hnone : r.connection = none)
      (hlive : r.live = false) : Rejects r c .loop

/-- The request has not tried to get a connection. -/
def Req.Untried (p : Pos) (r : Req) : Prop :=
  (p = .dbdConnect ∨ p = .finalize (.http 500)) ∧ r.hist = [] ∧ r.out.headerSent = false

/-- Requests that the full pool rejects, and connections that requests leave to it, as a claim
about requests. -/
def Local.overflow : Local where
  req conf p r c :=
    (r.live → r.Untried p ∨ ∃ rc k, .getPeer rc k ∈ r.hist) ∧
    (.overflow ∈ r.hist → p.Rejects r c) ∧
    (r.connection ≠ none → c.fd = some 0 → .overflow ∈ r.hist) ∧
    (conf.maxCached ≠ 0 → conf.overflow = .reject → ∀ k ev, .saved k ev ∈ r.hist → ev = none)
  item _ _ _ := True

/-- What the steps may use about the pool. -/
structure Room (env : Env) (p : Pos) (s : St) : Prop where
  placeholder : PlaceholderKept env p s
  counts : p.Counts s
  free : s.w.conf.maxCached ≠ 0 → s.w.conf.overflow = .reject → ∀ k, s.Holds k →
    s.w.pool.free ≠ []

namespace St

lemma tried_exec (env : Env) (hc : Custody p s) (hlive : (s.exec env p).2.r.live)
    (h : s.r.Untried p ∨ ∃ rc k, .getPeer rc k ∈ s.r.hist) :
    (s.exec env p).2.r.Untried ((s.exec env p).1.after (s.exec env p).2.r) ∨
      ∃ rc k, .getPeer rc k ∈ (s.exec env p).2.r.hist := by
  rcases h with ⟨hp, hhist, hsent⟩ | ⟨rc, k, hmem⟩
  · rcases hp with rfl | rfl
    · simp only [exec, dbdConnect]
      split
      · exact .inl ⟨.inr rfl, hhist, hsent⟩
      · exact .inr ⟨_, _, List.mem_cons_self⟩
    · exact absurd ((exec_finalize env hc).2.symm.trans hlive) Bool.false_ne_true
  · obtain ⟨es, hes, _⟩ := exec_hist env hc
    exact .inr ⟨rc, k, hes ▸ List.mem_append_right _ hmem⟩

/-- A request that has been rejected goes on to its end, in the handler. -/
lemma rejects_exec (env : Env) (hc : Custody p s) (hcounts : p.Counts s)
    (hkept : PlaceholderKept env p s) (h : p.Rejects s.r s.conn) :
    ((s.exec env p).1.after (s.exec env p).2.r).Rejects (s.exec env p).2.r
      (s.exec env p).2.conn := by
  cases h with
  | returned i hhist hin hsent hfd =>
    cases hk : s.r.connection with
    | none =>
      have hexec : s.exec env (.dbdConnected .again) = (.crashed, s) := by
        simp only [exec, dbdConnected, hk]
      rw [hexec]
      exact .crashed i (by rw [hhist, hk])
    | some k =>
      have hfd : (s.w.conns k).fd = some 0 := conn_of hk ▸ hfd (by simp [hk])
      -- the request holds the connection by which it is rejected
      obtain ⟨hnot, hdrizzle⟩ : s.r.requestSent = false ∧ s.r.drizzleCon = none := by
        rcases hc.ok.2 with ⟨j, hj⟩ | hidle | hrej
        · obtain rfl : j = k := Option.some.inj (hj.connection.symm.trans hk)
          exact absurd hfd hj.fd
        · cases hidle.connection.symm.trans hk
        · obtain ⟨_, hj⟩ := hrej.holds
          exact ⟨(hcounts hrej).2, hj.drizzleCon⟩
      have hexec : s.exec env (.dbdConnected .again) = s.attach env .again k := by
        simp only [exec, dbdConnected, hk]
      obtain ⟨r, g, hattach, hr⟩ := attach_waits (s := s) (k := k) env (by simp [hnot])
        (hkept rfl hdrizzle)
      have hin' : r.inHandler := by rw [hr]; exact hin
      have hk' : r.connection = some k := by rw [hr]; exact hk
      rw [hexec, hattach]
      simp only [Pos.after, Pos.settle, modWrite_r, hin', if_true, Option.getD_some]
      refine .held i k (by rw [hr]; simp [hhist, hk]) hk' hin' (by rw [hr]; exact hsent) ?_
      rw [conn_of (s := ({ s with r := r } : St).modWrite k g) hk']
      simp [hfd]
  | crashed i hhist => exact .crashed i hhist
  | held i k hhist hk hin hsent hfd =>
    rw [conn_of hk] at hfd
    have hexec : s.exec env .handlerTail = (.finalize (.http 503),
        (s.modReq fun r => { r with inHandler := false }).dropPlaceholder k) := by
      simp only [exec, handlerTail, modReq_r, modReq_w, hk, hfd, if_true]
    rw [hexec]
    exact .dropped i k hhist rfl rfl hsent
  | dropped i k hhist hnone hin hsent =>
    have hrc : Rc.http 503 ≠ .declined := by simp
    obtain ⟨hpos, hfin⟩ := finalizeRequest_cases env hrc hc.queues
    rw [exec, hpos]
    generalize (s.finalizeRequest env (.http 503)).2 = s' at hfin ⊢
    have hidle : ∀ {s₁ : St}, FreePeer false (s.log (.finalize (.http 503))) s₁ →
        ∃ b, s₁ = (s.log (.finalize (.http 503))).modReq fun r => { r with failed := b } := by
      intro s₁ hgive
      cases hgive with
      | idle b hc => exact ⟨b, rfl⟩
      | saved hc => cases hnone.symm.trans hc
      | closed b hc => cases hnone.symm.trans hc
    cases hfin with
    | completed hgive hsend =>
      obtain ⟨b, rfl⟩ := hidle hgive
      rcases hsend with heq | ⟨hheader, _⟩
      · cases heq
      · exact absurd (hsent.symm.trans hheader) Bool.false_ne_true
    | failed hgive hsend =>
      obtain ⟨b, rfl⟩ := hidle hgive
      have hafter : Pos.loop.after (((s.log (.finalize (.http 503))).modReq fun r =>
          { r with failed := b }).ended [.finalized (.http 503)]).r = .loop := by
        simp only [Pos.after, Pos.settle, ended, modReq_r, log_r, Req.log, hin]
        rfl
      rw [hafter]
      exact .ended i k (by simp [ended, hhist]) hnone rfl
  | ended i k hhist hnone hlive =>
    have hin : s.r.inHandler = false := hc.ok.1
    have hafter : Pos.loop.after s.r = .loop := by
      simp only [Pos.after, Pos.settle, hin]
      rfl
    rw [exec, hafter]
    exact .ended i k hhist hnone hlive

/-- The full pool rejects a request in its first attempt. -/
lemma rejects_dbdConnect (env : Env) (hc : Custody .dbdConnect s)
    (hcounts : Pos.dbdConnect.Counts s)
    (htried : s.r.Untried .dbdConnect ∨ ∃ rc k, .getPeer rc k ∈ s.r.hist)
    (hnot : .overflow ∉ s.r.hist) (h : .overflow ∈ (s.exec env .dbdConnect).2.r.hist) :
    s.r.inHandler ∧ s.r.hist = [] ∧
      ((s.exec env .dbdConnect).1.after (s.exec env .dbdConnect).2.r).Rejects
        (s.exec env .dbdConnect).2.r (s.exec env .dbdConnect).2.conn := by
  simp only [exec, dbdConnect] at h ⊢
  split at h
  · exact absurd h hnot
  · next halloc =>
    rw [if_neg halloc]
    have hget := getPeer_cases env.peer hc.ok.2.1.connection
    generalize s.getPeer env.peer = ps at hget h ⊢
    obtain ⟨rc, s'⟩ := ps
    cases hget with
    | overflow getConn hfull =>
      have hfirst : s.r.First := hcounts.resolve_right (not_not_intro hfull)
      obtain ⟨_, hhist, hsent⟩ := htried.resolve_right (by
        rintro ⟨rc, k, hmem⟩
        exact hfirst.hist _ hmem rfl)
      refine ⟨hfirst.inHandler, hhist, ?_⟩
      cases getConn with
      | true =>
        refine .returned s.r.nextPeer ?_ hfirst.inHandler hsent fun _ => ?_
        · exact congrArg (fun l => .getPeer .again (some s.w.nconns) :: .overflow ::
            .pick s.r.nextPeer :: l) hhist
        · exact congrArg Conn.fd (Function.update_self (f := s.w.conns) ..)
      | false =>
        refine .returned s.r.nextPeer ?_ hfirst.inHandler hsent fun hk => absurd rfl hk
        exact congrArg (fun l => .getPeer .again none :: .overflow :: .pick s.r.nextPeer :: l) hhist
    | single => exact absurd (by simpa [resumeCached] using h) hnot
    | busy => exact absurd (by simpa using h) hnot
    | multi => exact absurd (by simpa [resumeCached, picked, selectPeer] using h) hnot
    | create hroom hcreate =>
      cases hcreate <;> exact absurd (by simpa [addCon, picked, selectPeer] using h) hnot

/-- Only the branch for a full pool gives a request a connection with descriptor 0. -/
lemma overflow_of_fd (env : Env) (hc : Custody p s)
    (h : s.r.connection ≠ none → s.conn.fd = some 0 → .overflow ∈ s.r.hist)
    (hconn : (s.exec env p).2.r.connection ≠ none) (hfd : (s.exec env p).2.conn.fd = some 0) :
    .overflow ∈ (s.exec env p).2.r.hist := by
  obtain ⟨k, hk⟩ := Option.ne_none_iff_exists'.mp hconn
  rw [conn_of hk] at hfd
  have hold : s.r.connection = some k → (s.w.conns k).fd = some 0 →
      .overflow ∈ (s.exec env p).2.r.hist := by
    intro hk hfd
    obtain ⟨es, hes, _⟩ := exec_hist env hc
    exact hes ▸ List.mem_append_right _ (h (by simp [hk]) (conn_of hk ▸ hfd))
  by_cases hp : p = .dbdConnect
  · subst hp
    have hnone := hc.ok.2.1.connection
    simp only [exec, dbdConnect] at hk hfd ⊢
    split at hk
    · cases hnone.symm.trans hk
    · next halloc =>
      rw [if_neg halloc] at hfd ⊢
      have hget := getPeer_cases env.peer hnone
      generalize s.getPeer env.peer = ps at hget hk hfd ⊢
      obtain ⟨rc, s'⟩ := ps
      -- a connection from the cache
      have hcached : ∀ {item : Item}, item ∈ s.w.pool.cache → item.connection = some k →
          (s.w.conns k).fd ≠ some 0 := by
        intro item hmem hitem
        obtain ⟨j, hj⟩ := hc.items item hmem
        obtain rfl : j = k := Option.some.inj (hj.connection.symm.trans hitem)
        exact hj.fd
      cases hget with
      | single hmax hsingle hcache =>
        exact absurd hfd (hcached (hcache ▸ List.mem_cons_self) hk)
      | busy => cases hnone.symm.trans hk
      | multi hmax hmulti hcache =>
        exact absurd hfd (hcached (hcache ▸ List.mem_append_right _ List.mem_cons_self) hk)
      | overflow getConn =>
        cases getConn <;> exact List.mem_cons_of_mem _ List.mem_cons_self
      | create hroom hcreate =>
        cases hcreate with
        | noMemory => cases hnone.symm.trans hk
        | refused => cases hk
        | @fresh _ con state hrc hcon =>
          obtain rfl := Option.some.inj hk
          have hconn : (s.picked.addCon con 1 (some s.picked.w.nconns) (some s.picked.w.nconns)
              state).w.conns s.picked.w.nconns = con := by
            simp [addCon]
          exact absurd ((congrArg Conn.fd hconn).symm.trans hfd) hcon.fd
  · have hk₀ := connection_of_exec env hc hp hk
    exact hold hk₀ ((fd_of_exec env hc hp hk).symm.trans hfd)

end St

lemma Local.overflow_kept : Local.overflow.Kept Room where
  init w id a p hp := by
    exact ⟨fun _ => .inl ⟨hp, rfl, rfl⟩, nofun, fun h => absurd rfl h, nofun⟩
  fire ev s he _ h := by
    obtain ⟨⟨cw, hr⟩, rt, wt, hconn⟩ := St.fire_cases ev s
    obtain ⟨htried, hrejects, hfd, hsaved⟩ := h
    have hlive : s.r.live := by
      simp only [Event.enabled, Bool.and_eq_true] at he
      exact he.1
    rw [hr, hconn]
    refine ⟨fun _ => .inr ?_, fun hmem => ?_, hfd, hsaved⟩
    · exact (htried hlive).resolve_left fun hun => by rcases hun.1 with h | h <;> cases h
    · cases hrejects hmem with
      | ended i k hhist hnone hdead => exact absurd (hdead.symm.trans hlive) Bool.false_ne_true
  client _ _ r _ _ h := by
    refine ⟨h.1, fun hmem => ?_, h.2.2⟩
    cases h.2.1 hmem with
    | returned i hhist hin hsent hfd => exact .returned i hhist hin hsent hfd
    | crashed i hhist => exact .crashed i hhist
    | held i k hhist hk hin hsent hfd => exact .held i k hhist hk hin hsent hfd
    | dropped i k hhist hnone hin hsent => exact .dropped i k hhist hnone hin hsent
    | ended i k hhist hnone hlive => exact .ended i k hhist hnone hlive
  exec env p s hc hd h _ := by
    obtain ⟨htried, hrejects, hfd, hsaved⟩ := h
    refine ⟨fun hlive => ?_, fun hmem => ?_, St.overflow_of_fd env hc hfd,
      fun hmax hrej k ev hmem => ?_⟩
    · exact St.tried_exec env hc hlive (htried (St.live_of_exec env hc hlive))
    · by_cases hold : .overflow ∈ s.r.hist
      · exact St.rejects_exec env hc hd.counts hd.placeholder (hrejects hold)
      · obtain ⟨es, hes, hlogs⟩ := St.exec_hist env hc
        have hlog := hlogs _ ((List.mem_append.mp (hes ▸ hmem)).resolve_right hold)
        cases p with
        | dbdConnect =>
          exact (St.rejects_dbdConnect env hc hd.counts (htried hc.ok.1) hold hmem).2.2
        | _ => cases hlog
    · rcases St.saved_exec env hc (hd.free hmax hrej) k ev hmem with hold | hnone
      · exact hsaved hmax hrej k ev hold
      · exact hnone
  saved _ _ _ _ _ _ _ _ _ _ := trivial

namespace Sys

variable {s : Sys} {i : ℕ} {r : Req}

lemma active_of_pos (h : s.pos i = p) (hp : p ≠ .loop) : s.active = some (i, p) := by
  unfold pos at h
  split at h
  · next j q hact =>
    split at h
    · next hj => rw [hact, hj, h]
    · exact absurd h.symm hp
  · exact absurd h.symm hp

/-- When a request holds a database connection, there is a free item for it. -/
lemma free_of_holds (ho : s.Owned) (hcount : s.Counted) (hi : s.reqs[i]? = some r)
    (hmax : s.w.conf.maxCached ≠ 0) (hrej : s.w.conf.overflow = .reject)
    (hk : (s.view r).Holds k) : s.w.pool.free ≠ [] := by
  have hdb : 0 < s.dbConns := by
    refine Lib.countP_pos_of_getElem? hi ?_
    rw [St.onDb, hk.connection]
    exact hk.drizzle
  have hle := hcount.le hmax hrej
  have hqueues := ho.queues
  intro hnil
  rw [hnil, List.length_nil] at hqueues
  omega

lemma counted_meets (conf : Conf) {ls : List Label}
    (hls : Lib.Meets step (RunsMeet PlaceholderKept) (init conf) ls) :
    Lib.Meets step (fun s _ => s.Owned ∧ s.Counted) (init conf) ls :=
  Lib.Meets.of_invariant (I := fun s : Sys => s.Owned ∧ s.Counted)
    (fun _ l hl h => ⟨h.1.step l, h.2.step h.1 hl⟩)
    ⟨owned_init conf, counted_init conf⟩ hls

lemma room_meets (conf : Conf) {ls : List Label}
    (hls : Lib.Meets step (RunsMeet PlaceholderKept) (init conf) ls) :
    Lib.Meets step (RunsMeet Room) (init conf) ls :=
  ((counted_meets conf hls).and hls).mono fun _ _ ⟨⟨ho, hcount⟩, hkept⟩ env i p r hl hact hi =>
    ⟨hkept env i p r hl hact hi, pos_of_active hact ▸ hcount.counts i r hi,
      fun hmax hrej _ hk => free_of_holds ho hcount hi hmax hrej hk⟩

/-- **The limit of the pool.**  Let the pool have room for connections and reject requests beyond
it, and let no allocation fail while a request holds the connection by which it is rejected.  In
all states of all runs: at most as many connections are active as the pool has items, and no
connection was closed to save another one.  A request takes the branch for a full pool only in its
first attempt, before the call of `ngx_http_drizzle_handler` has returned.  A request whose
connection has descriptor 0 has taken it, and it is still in the handler; when it has been
rejected with such a connection, it is in the handler, or has been finalized with status 503 and
nothing else has happened to it.  Every connection that is closed for a request is a database
connection, and so is every one in the cache. -/
theorem overflow_in_handler (conf : Conf) (hmax : conf.maxCached ≠ 0)
    (hrej : conf.overflow = .reject) {ls : List Label}
    (hls : Lib.Meets step (RunsMeet PlaceholderKept) (init conf) ls) :
    (run conf ls).w.pool.activeConns.toNat ≤ conf.maxCached ∧
    (∀ r ∈ (run conf ls).reqs, ∀ k ev, .saved k ev ∈ r.hist → ev = none) ∧
    (∀ i r, (run conf ls).active = some (i, .dbdConnect) → (run conf ls).reqs[i]? = some r →
      ∀ env, .overflow ∈ (((run conf ls).view r).exec env .dbdConnect).2.r.hist →
        r.inHandler ∧ r.hist = []) ∧
    (∀ i r k, (run conf ls).reqs[i]? = some r → r.connection = some k →
      ((run conf ls).w.conns k).fd = some 0 → .overflow ∈ r.hist ∧ r.inHandler ∧
        ((run conf ls).active = some (i, .dbdConnected .again) ∨
          (run conf ls).active = some (i, .handlerTail))) ∧
    (∀ i r k, (run conf ls).reqs[i]? = some r → .overflow ∈ r.hist →
      .getPeer .again (some k) ∈ r.hist →
        (∃ p, (run conf ls).active = some (i, p) ∧ (p = .dbdConnected .again ∨ p = .handlerTail ∨
          p = .finalize (.http 503))) ∨
        r.live = false ∧ ∃ peer, r.hist = [.finalized (.http 503), .finalize (.http 503),
          .getPeer .again (some k), .overflow, .pick peer]) ∧
    (∀ i p r k env, (run conf ls).active = some (i, p) → (run conf ls).reqs[i]? = some r →
      .closed k ∈ (((run conf ls).view r).exec env p).2.r.hist → .closed k ∈ r.hist ∨
        ((run conf ls).w.conns k).drizzle ∧ ((run conf ls).w.conns k).fd ≠ some 0) ∧
    ∀ item ∈ (run conf ls).w.pool.cache, ∃ k, item.connection = some k ∧
      ((run conf ls).w.conns k).drizzle ∧ ((run conf ls).w.conns k).fd ≠ some 0 := by
  have ho := owned_run conf ls
  have hcount := counted_run conf hls
  have hclaim := Local.overflow_kept.run conf (room_meets conf hls)
  have hconf := conf_run conf ls
  generalize run conf ls = s at ho hcount hclaim hconf ⊢
  subst hconf
  refine ⟨?_, fun r hr k ev hmem => ?_, fun i r hact hi env hmem => ?_,
    fun i r k hi hk hfd => ?_, fun i r k hi hover hget => ?_, fun i p r k env hact hi hmem => ?_,
    fun item hmem => ?_⟩
  · rw [hcount.toNat hmax hrej]
    exact hcount.le hmax hrej
  · obtain ⟨i, hi⟩ := List.mem_iff_getElem?.mp hr
    exact (hclaim.req i r hi).2.2.2 hmax hrej k ev hmem
  · have hc := ho.custody hi
    have hcounts := hcount.counts i r hi
    obtain ⟨htried, hrejects, _⟩ := hclaim.req i r hi
    rw [pos_of_active hact] at hc hcounts htried hrejects
    have hnot : .overflow ∉ r.hist := fun hmem => nomatch hrejects hmem
    obtain ⟨hin, hhist, _⟩ := St.rejects_dbdConnect env hc hcounts (htried hc.ok.1) hnot hmem
    exact ⟨hin, hhist⟩
  · obtain ⟨_, hrejects, hover, _⟩ := hclaim.req i r hi
    have hover := hover (by simp [hk]) (by rw [St.conn_of (s := s.view r) hk]; exact hfd)
    refine ⟨hover, ?_⟩
    have hok := ho.ok i r hi
    have hpos := hrejects hover
    generalize hp : s.pos i = p at hpos hok
    cases hpos with
    | returned _ _ hin => exact ⟨hin, .inl (active_of_pos hp nofun)⟩
    | crashed => cases hok.2.connection.symm.trans hk
    | held _ _ _ _ hin => exact ⟨hin, .inr (active_of_pos hp nofun)⟩
    | dropped _ _ _ hnone => cases hnone.symm.trans hk
    | ended _ _ _ hnone => cases hnone.symm.trans hk
  · have hpos := (hclaim.req i r hi).2.1 hover
    generalize hp : s.pos i = p at hpos
    cases hpos with
    | returned => exact .inl ⟨_, active_of_pos hp nofun, .inl rfl⟩
    | crashed j hhist => simp [hhist] at hget
    | held => exact .inl ⟨_, active_of_pos hp nofun, .inr (.inl rfl)⟩
    | dropped => exact .inl ⟨_, active_of_pos hp nofun, .inr (.inr rfl)⟩
    | ended j k' hhist hnone hlive =>
      obtain rfl : k = k' := by simpa [hhist] using hget
      exact .inr ⟨hlive, j, hhist⟩
  · have hc := ho.custody hi
    rw [pos_of_active hact] at hc
    exact (St.closed_exec env hc (pos_of_active hact ▸ hcount.counts i r hi) hmem).imp_right
      fun hk => ⟨hk.drizzle, hk.fd⟩
  · obtain ⟨k, hk⟩ := ho.items item hmem
    exact ⟨k, hk.connection, hk.drizzle, hk.fd⟩

/-- A request waits until its query is sent, and a second one arrives. -/
def fullPool : List Label := sampleArrival (.sample [7]) ++ [.run {}, .run {}, .run {}] ++
  sampleArrival (.sample [8]) ++ [.run {}]

theorem overflow_in_handler_fullPool : (run rejecting fullPool).w.pool.activeConns = 1 ∧
    ∃ r, (run rejecting fullPool).reqs[1]? = some r ∧ r.live = false ∧
      ∃ peer, r.hist = [.finalized (.http 503), .finalize (.http 503), .getPeer .again (some 1),
        .overflow, .pick peer] := by
  have hls : Lib.Meets step (RunsMeet PlaceholderKept) (init rejecting) fullPool := by decide
  obtain ⟨_, _, _, _, hrejected, _⟩ := overflow_in_handler rejecting (by decide) rfl hls
  have hi : (run rejecting fullPool).reqs[1]? =
      some ((run rejecting fullPool).reqs.get ⟨1, by decide⟩) := rfl
  have hend := hrejected 1 _ 1 hi (by decide) (by decide)
  have hidle : (run rejecting fullPool).active = none := by decide
  rcases hend with ⟨p, hact, _⟩ | hend
  · cases hidle.symm.trans hact
  · exact ⟨by decide, _, hi, hend⟩

end Sys

/-! ## What `getPeer` returns -/

/-- What `ngx_http_upstream_dbd_connect` relies on: there is a connection behind `NGX_AGAIN` and
`NGX_DONE`, and neither a connection nor a `drizzle_con_st` behind everything else. -/
def St.Delivers (s : St) (rc : Rc) : Prop :=
  if rc = .again ∨ rc = .done then s.r.connection ≠ none
  else s.r.connection = none ∧ s.r.drizzleCon = none

/-- When the pool is full and has no connection for the request, nginx has one for its
rejection. -/
def RejectConnects (env : Env) (p : Pos) (s : St) : Prop :=
  p = .dbdConnect → s.w.Full → s.Misses → s.r.remainingPeers ≠ 0 → env.peer.getConn

instance (w : Worker) : Decidable w.Full :=
  inferInstanceAs (Decidable (w.conf.maxCached ≠ 0 ∧ w.conf.overflow = .reject ∧
    w.conf.maxCached ≤ w.pool.activeConns.toNat))

instance (s : St) : Decidable s.Misses :=
  inferInstanceAs (Decidable (s.w.conf.maxCached ≠ 0 → if s.w.conf.single then
    s.w.pool.cache = [] else
      ∀ item ∈ s.w.pool.cache, item.sockaddr ≠ (s.w.conf.peer s.r.nextPeer).sockaddr))

instance (env : Env) (p : Pos) (s : St) : Decidable (RejectConnects env p s) :=
  inferInstanceAs (Decidable (p = .dbdConnect → s.w.Full → s.Misses → s.r.remainingPeers ≠ 0 →
    env.peer.getConn))

namespace St

/-- A full pool that has no connection for the request rejects it. -/
lemma getPeer_of_full (env : PeerEnv) (hfull : s.w.Full) (hmiss : s.Misses)
    (hleft : s.r.remainingPeers ≠ 0) : s.getPeer env = s.picked.rejectOverflow env.getConn :=
  (getPeer_of_misses env hmiss hleft).trans (if_pos hfull)

/-- Without a connection for the rejection of a request, and only then, `getPeer` breaks what its
caller relies on. -/
lemma delivers_getPeer (env : PeerEnv) (hc : Custody .dbdConnect s) :
    (s.getPeer env).2.Delivers (s.getPeer env).1 ↔
      (s.w.Full → s.Misses → s.r.remainingPeers ≠ 0 → env.getConn) := by
  obtain ⟨hnone, hdrizzle⟩ := hc.ok.2.1
  by_cases h : s.w.Full ∧ s.Misses ∧ s.r.remainingPeers ≠ 0
  · obtain ⟨hfull, hmiss, hleft⟩ := h
    rw [getPeer_of_full env hfull hmiss hleft]
    cases hconn : env.getConn with
    | true => exact iff_of_true (fun h => nomatch h) fun _ _ _ => rfl
    | false => exact iff_of_false (fun h => h rfl) fun h => nomatch h hfull hmiss hleft
  · refine iff_of_true ?_ fun hfull hmiss hleft => absurd ⟨hfull, hmiss, hleft⟩ h
    have hget := getPeer_cases env hnone
    generalize s.getPeer env = ps at hget ⊢
    obtain ⟨rc, s'⟩ := ps
    -- a connection from the cache
    have hcached : ∀ {s₁ : St} {item : Item}, item ∈ s.w.pool.cache →
        s₁.r.connection = item.connection → s₁.Delivers .done := by
      intro s₁ item hmem hconn
      obtain ⟨j, hj⟩ := hc.items item hmem
      exact fun h => nomatch (hconn.trans hj.connection).symm.trans h
    cases hget with
    | single hmax hsingle hcache => exact hcached (hcache ▸ List.mem_cons_self) rfl
    | busy => exact ⟨hnone, hdrizzle⟩
    | multi hmax hmulti hcache =>
      exact hcached (hcache ▸ List.mem_append_right _ List.mem_cons_self) rfl
    | overflow getConn hfull hmiss hleft => exact absurd ⟨hfull, hmiss, hleft⟩ h
    | create hroom hcreate =>
      cases hcreate with
      | noMemory => exact ⟨hnone, hdrizzle⟩
      | refused hrc => rcases hrc with rfl | rfl <;> exact ⟨rfl, rfl⟩
      | fresh hrc => rcases hrc with ⟨rfl, _⟩ | ⟨rfl, _⟩ <;> exact fun h => nomatch h

end St

/-- No null pointer is dereferenced, as a claim about requests. -/
def Local.connected : Local where
  req _ p r _ := p ≠ .crashed ∧ (p = .dbdConnected .again → r.connection ≠ none)
  item _ _ _ := True

lemma Local.connected_kept : Local.connected.Kept RejectConnects where
  init _ _ _ p hp := by rcases hp with rfl | rfl <;> exact ⟨by simp, by simp⟩
  fire _ _ _ _ _ := ⟨by simp, by simp⟩
  client _ _ _ _ _ h := h
  exec env p s hc hd h _ := by
    suffices (s.exec env p).1 ≠ .crashed ∧
        ((s.exec env p).1 = .dbdConnected .again → (s.exec env p).2.r.connection ≠ none) by
      generalize s.exec env p = ps at this ⊢
      obtain ⟨p', s'⟩ := ps
      cases p' with
      | loop =>
        unfold Pos.after Pos.settle
        cases s'.r.inHandler <;> exact ⟨by simp, by simp⟩
      | _ => exact this
    have honward : ∀ {p' : Pos}, p'.onward → p' ≠ .crashed ∧
        (p' = .dbdConnected .again → (s.exec env p).2.r.connection ≠ none) := by
      intro p' hp
      constructor
      · rintro rfl
        cases hp
      · rintro rfl
        cases hp
    cases p with
    | crashed => exact absurd rfl h.1
    | handlerTail =>
      rcases St.handlerTail_cases s with ⟨heq, _⟩ | ⟨_, _, _, heq⟩ <;>
      · rw [St.exec, heq]
        exact ⟨by simp, by simp⟩
    | dbdConnect =>
      have hdelivers := (St.delivers_getPeer env.peer hc).mpr (hd rfl)
      simp only [St.exec, St.dbdConnect]
      split
      · exact ⟨by simp, by simp⟩
      · refine ⟨(by simp), fun heq => ?_⟩
        have hrc : (s.getPeer env.peer).1 = .again := Pos.dbdConnected.inj heq
        rw [hrc] at hdelivers
        exact hdelivers
    | dbdConnected rc =>
      cases rc with
      | again =>
        obtain ⟨k, hk⟩ := Option.ne_none_iff_exists'.mp (h.2 rfl)
        have hexec : s.exec env (.dbdConnected .again) = s.attach env .again k := by
          simp only [St.exec, St.dbdConnected, hk]
        exact honward (hexec ▸ St.onward_attach env .again)
      | done =>
        obtain ⟨_, k, hk⟩ := hc.ok
        have hexec : s.exec env (.dbdConnected .done) = s.attach env .done k := by
          simp only [St.exec, St.dbdConnected, hk.connection]
        exact honward (hexec ▸ St.onward_attach env .done)
      | ok => exact hc.ok.elim
      | http => exact hc.ok.elim
      | _ => exact ⟨fun heq => Pos.noConfusion heq, fun heq => Pos.noConfusion heq⟩
    | next ft =>
      obtain ⟨s₁, _, hnext⟩ := St.next_cases (s := s) ft hc.queues
      rw [St.exec]
      generalize s.next ft = ps at hnext ⊢
      obtain ⟨p', s'⟩ := ps
      cases hnext <;> exact ⟨by simp, by simp⟩
    | finalize rc =>
      have hrc : rc ≠ .declined := by
        rintro rfl
        exact hc.ok
      rw [St.exec, (St.finalizeRequest_cases env hrc hc.queues).1]
      exact ⟨by simp, by simp⟩
    | _ => exact honward (St.exec_onward env hc rfl (by simp) (by simp))
  saved _ _ _ _ _ _ _ _ _ _ := trivial

namespace Sys

/-- **The contract of `getPeer`.**  In all states of all runs, for a request that is about to get a
connection and whatever nginx and libdrizzle do: there is a connection behind `NGX_AGAIN` and
`NGX_DONE`, and neither a connection nor a `drizzle_con_st` behind everything else, if and only if
it is not the case that the pool is full and rejects, has no connection for the request, a peer is
left, and `ngx_get_connection` fails for the rejection.  In every run in which this is never the
case, `ngx_http_upstream_dbd_connect` never dereferences a null pointer, and nothing else does. -/
theorem connection_delivered (conf : Conf) (ls : List Label) :
    (∀ i r, (run conf ls).active = some (i, .dbdConnect) → (run conf ls).reqs[i]? = some r →
      ∀ env : Env, (((run conf ls).view r).getPeer env.peer).2.Delivers
        (((run conf ls).view r).getPeer env.peer).1 ↔
          RejectConnects env .dbdConnect ((run conf ls).view r)) ∧
    (Lib.Meets step (RunsMeet RejectConnects) (init conf) ls →
      ∀ r ∈ (run conf ls).reqs, (run conf ls).active ≠ some (r.id, .crashed)) := by
  have ho := owned_run conf ls
  refine ⟨fun i r hact hi env => ?_, fun hls r hr hact => ?_⟩
  · have hc := ho.custody hi
    rw [pos_of_active hact] at hc
    rw [St.delivers_getPeer env.peer hc]
    exact ⟨fun h _ => h, fun h => h rfl⟩
  · obtain ⟨i, hi⟩ := List.mem_iff_getElem?.mp hr
    rw [ho.id i r hi] at hact
    have hclaim := (Local.connected_kept.run conf hls).req i r hi
    exact hclaim.1 (pos_of_active hact)

/-- The second request finds the pool full, and nginx has no connection for its rejection. -/
def noConnection : List Label := sampleArrival (.sample [7]) ++ [.run {}, .run {}, .run {},
  .arrive (.sample [8]), .run { peer := { getConn := false } }, .run {}]

theorem connection_delivered_fullPool :
    (((run rejecting (fullPool.take 8)).view ((run rejecting (fullPool.take 8)).reqs.get
      ⟨1, by decide⟩)).getPeer {}).2.Delivers .again ∧
    (run rejecting fullPool).active ≠ some (1, .crashed) := by
  obtain ⟨hiff, _⟩ := connection_delivered rejecting (fullPool.take 8)
  obtain ⟨_, hcrash⟩ := connection_delivered rejecting fullPool
  refine ⟨(hiff 1 _ (by decide) rfl {}).mpr (by decide), ?_⟩
  exact hcrash (by decide) _ (List.get_mem _ ⟨1, by decide⟩)

/-- The worker process dereferences a null pointer. -/
theorem connection_not_delivered : ¬ ∀ conf ls, ∀ r ∈ (run conf ls).reqs,
    (run conf ls).active ≠ some (r.id, .crashed) := by
  intro h
  exact h rejecting noConnection _ (List.get_mem _ ⟨1, by decide⟩) (by decide)

end Sys
end DrizzleNginx
