/-
# Timeouts

A request that waits for the database has a timer on its connection: the write timer while the
connection is being made and while a query is being sent, the read timer while a result is read.
There is one way around it.  If the `set names` query has to wait, the state of the request says
that a query is being sent and the timer runs.  If the reply is that a table does not exist, the
timer is deleted and the SQL of the request is sent in the same state; when this has to wait too,
the timer is not set again.
-/
import DrizzleNginx.Proofs.Backpressure
import DrizzleNginx.Proofs.Reuse

namespace DrizzleNginx

/-! ## Timers and positions -/

/-- The timer of the phase runs on the connection. -/
def Req.Armed (r : Req) (c : Conn) : Prop :=
  match r.state with
  | .connect => c.write.timer.isSome
  | .sendQuery => c.write.timer.isSome
  | .recvCols => c.read.timer.isSome
  | .recvRows => c.read.timer.isSome
  | .idle => False

/-- The last call was a `set names` query, and the reply was that a table does not exist. -/
def Req.namesGone (r : Req) : Bool :=
  match r.calls with
  | .query _ true _ (.fail (.errorCode code)) :: _ => code = LibCall.noSuchTable
  | _ => false

/-- What has to hold of the timers of a request that is not paused when its processing stands at
a position, for a timer to run when it returns to the event loop. -/
def Pos.Watched (p : Pos) (r : Req) (c : Conn) : Prop :=
  match p with
  | .loop | .handlerTail => r.Armed c
  | .event (.db _ true _) => True
  | .event _ => r.Armed c
  | .dbdConnect | .dbdConnected .again => r.state = .connect
  | .dbdConnected .done => r.state = .idle ∨ r.state = .connect ∧ c.hist ≠ []
  | .processEvents => r.Armed c ∨ r.state = .idle ∨ r.state = .connect ∧ c.hist ≠ []
  | .connect => r.state = .connect ∧ (c.write.timer.isSome ∨ c.hist ≠ [])
  | .sendQuery => r.state ≠ .recvCols ∧
      (r.state = .sendQuery → c.write.timer.isSome ∨ r.namesGone)
  | .recvCols => r.state = .recvCols → c.read.timer.isSome
  | .recvRows => r.state = .recvRows → c.read.timer.isSome
  | .recvFields => r.state = .recvRows ∧ c.read.timer.isSome
  | .ret rc => rc.failed ∨ r.Armed c
  | _ => True

/-- The SQL of a request does not wait behind a `set names` query that has waited itself and was
answered with an error about a missing table. -/
def NoWaitBehindNames (env : Env) (p : Pos) (s : St) : Prop :=
  p = .sendQuery → s.r.state = .sendQuery → s.r.namesGone → env.query ≠ .ioWait

/-- To connect a connection that is in use already, the client library does not wait. -/
def ReadyConnects (env : Env) (p : Pos) (s : St) : Prop :=
  p = .connect → s.conn.hist ≠ [] → env.con ≠ .ioWait

instance (env : Env) (p : Pos) (s : St) : Decidable (NoWaitBehindNames env p s) :=
  inferInstanceAs (Decidable (p = .sendQuery → s.r.state = .sendQuery → s.r.namesGone →
    env.query ≠ .ioWait))

instance (env : Env) (p : Pos) (s : St) : Decidable (ReadyConnects env p s) :=
  inferInstanceAs (Decidable (p = .connect → s.conn.hist ≠ [] → env.con ≠ .ioWait))

variable {s s' : St} {p : Pos} {k : ℕ} {t : Talk}

lemma Req.armed_write {r : Req} {c : Conn} (h : r.state = .connect ∨ r.state = .sendQuery)
    (ht : c.write.timer.isSome) : r.Armed c := by
  rcases h with h | h <;> (rw [Armed, h]; exact ht)

lemma Req.armed_read {r : Req} {c : Conn} (h : r.state.receives) (ht : c.read.timer.isSome) :
    r.Armed c := by
  unfold Armed
  cases hs : r.state with
  | recvCols => exact ht
  | recvRows => exact ht
  | _ => rw [hs] at h; cases h

lemma Req.Armed.cases {r : Req} {c : Conn} (h : r.Armed c) :
    (r.state = .connect ∨ r.state = .sendQuery) ∧ c.write.timer.isSome ∨
      r.state.receives ∧ c.read.timer.isSome := by
  unfold Armed at h
  cases hs : r.state with
  | connect => rw [hs] at h; exact .inl ⟨.inl rfl, h⟩
  | sendQuery => rw [hs] at h; exact .inl ⟨.inr rfl, h⟩
  | recvCols => rw [hs] at h; exact .inr ⟨rfl, h⟩
  | recvRows => rw [hs] at h; exact .inr ⟨rfl, h⟩
  | idle => rw [hs] at h; exact h.elim

lemma Pos.Watched.settle {r : Req} {c : Conn} (h : p.Watched r c) : (p.after r).Watched r c := by
  cases p with
  | loop =>
    unfold after settle
    cases r.inHandler <;> exact h
  | _ => exact h

namespace St

/-! ## Functions -/

lemma watched_processEvents (h : Pos.Watched .processEvents s.r (s.w.conns k))
    (hpaused : s.r.outputPaused = false) :
    s.processEvents.1.Watched s.processEvents.2.r (s.processEvents.2.w.conns k) := by
  unfold processEvents
  rw [if_neg (by simp [hpaused])]
  rcases h with harmed | hidle | ⟨hconnect, hhist⟩
  · rcases harmed.cases with ⟨hs | hs, ht⟩ | ⟨hs, ht⟩
    · rw [hs]
      exact ⟨hs, .inl ht⟩
    · rw [hs]
      exact ⟨by simp [hs], fun _ => .inl ht⟩
    · cases hstate : s.r.state with
      | recvCols => exact fun _ => ht
      | recvRows => exact fun _ => ht
      | _ => rw [hstate] at hs; cases hs
  · rw [hidle]
    exact ⟨by simp [hidle], by simp [hidle]⟩
  · rw [hconnect]
    exact ⟨hconnect, .inr hhist⟩

lemma watched_connect (env : Env) (h : Pos.Watched .connect s.r (s.w.conns k))
    (hready : (s.w.conns k).hist ≠ [] → env.con ≠ .ioWait) :
    (s.connect env k k).1.Watched (s.connect env k k).2.r ((s.connect env k k).2.w.conns k) := by
  obtain ⟨hstate, htimer⟩ := h
  have hnext : Pos.Watched .sendQuery (s.log (.connect k env.con)).r
      (((s.log (.connect k env.con)).modWrite k NgxEvent.delTimer).w.conns k) :=
    ⟨fun hs => absurd (hstate.symm.trans hs) (by simp),
      fun hs => absurd (hstate.symm.trans hs) (by simp)⟩
  unfold connect
  simp only
  split
  · next hwait =>
    have ht := htimer.resolve_right fun hne => hready hne hwait
    exact .inr (Req.armed_write (.inl hstate) ht)
  · exact .inl rfl
  · exact hnext

lemma watched_queryOk (env : Env) (h : ResultHeader) (hstate : s.r.state ≠ .recvCols) :
    (s.queryOk env h).1.Watched (s.queryOk env h).2.r ((s.queryOk env h).2.w.conns k) := by
  unfold queryOk
  split
  · split
    · exact .inl rfl
    · exact ⟨by simp, by simp⟩
  · simp only
    split
    · next hrc => exact .inl hrc
    · split
      · trivial
      · exact fun hs => absurd hs hstate

lemma watched_sendQuery (env : Env) (h : Pos.Watched .sendQuery s.r (s.w.conns k))
    (hwait : s.r.state = .sendQuery → s.r.namesGone → env.query ≠ .ioWait) :
    (s.sendQuery env k k).1.Watched (s.sendQuery env k k).2.r
      ((s.sendQuery env k k).2.w.conns k) := by
  obtain ⟨hcols, htimer⟩ := h
  unfold sendQuery
  simp only
  split
  · next hret =>
    split
    · next hstate =>
      have hstate : s.r.state = .sendQuery := hstate
      have ht := (htimer hstate).resolve_right fun hgone => hwait hstate hgone hret
      refine .inr (Req.armed_write (.inr hstate) ?_)
      simpa [queried] using ht
    · refine .inr (Req.armed_write (.inr rfl) ?_)
      simp only [modReq_w, modWrite_w, Worker.modConn_conns_self]
      exact isSome_addTimer ..
  · next hret =>
    split
    · next hn =>
      refine ⟨hcols, fun _ => .inr ?_⟩
      have hn : s.r.sendsSetNames = true := hn
      simp only [modReq_r, modWrite_r, queried, libCall_r, Req.namesGone, Req.calls, Req.log_hist,
        List.filterMap_cons, ReqEvent.call, hn, hret]
      rfl
    · trivial
  · exact .inl rfl
  · exact watched_queryOk env _ hcols

lemma enter_timer {state : DbState} (timeout : Msec)
    (h : s.r.state = state → (s.w.conns k).read.timer.isSome) :
    ((s.enter state timeout k).w.conns k).read.timer.isSome := by
  unfold enter
  split
  · simp only [modReq_w, modRead_w, Worker.modConn_conns_self]
    exact isSome_addTimer ..
  · next hstate => exact h (not_not.mp hstate)

lemma watched_recvCols (env : Env) (hk : s.r.connection = some k)
    (h : Pos.Watched .recvCols s.r (s.w.conns k)) : (s.recvCols env k k).2.r.outputPaused ∨
      (s.recvCols env k k).1.Watched (s.recvCols env k k).2.r
        ((s.recvCols env k k).2.w.conns k) := by
  have hstate := enter_state (s := s) (k := k) .recvCols s.r.loc.recvColsTimeout
  have hrecv : (s.enter .recvCols s.r.loc.recvColsTimeout k).r.state.receives := by
    rw [hstate]
    rfl
  have htimer := enter_timer s.r.loc.recvColsTimeout h
  have hready := outputReady_cases env.ready
    ((stays_enter (s := s) .recvCols s.r.loc.recvColsTimeout hk).connection.trans hk)
  unfold recvCols
  simp only
  generalize s.enter .recvCols s.r.loc.recvColsTimeout k = s₀ at hstate hrecv htimer hready ⊢
  generalize s₀.outputReady env.ready k = ps at hready ⊢
  obtain ⟨rc, s₁⟩ := ps
  cases hready with
  | paused hq ho hpaused => exact .inl hpaused
  | failed => exact .inr (.inl rfl)
  | @ready o ho =>
    right
    rw [if_neg (by simp)]
    have hcalled : ∀ call, (((s₀.setOut o).libCall k call).w.conns k).read.timer.isSome := by
      intro call
      simpa using htimer
    split
    · exact .inr (Req.armed_read hrecv (hcalled _))
    · exact .inl rfl
    · simp only
      split
      · next hrc => exact .inl hrc
      · exact fun _ => hcalled _
    · exact fun hs => absurd (hs.symm.trans hstate) (by simp)

lemma watched_rowOk (env : Env) (row : UInt64) (hstate : s.r.state = .recvRows)
    (h : (s.w.conns k).read.timer.isSome) : (s.rowOk env k row).1.Watched (s.rowOk env k row).2.r
      ((s.rowOk env k row).2.w.conns k) := by
  unfold rowOk
  simp only
  split
  · next hrc => exact .inl hrc
  · split
    · exact ⟨hstate, h⟩
    · split
      · exact ⟨fun hs => absurd (hs.symm.trans hstate) (by simp),
          fun hs => absurd (hs.symm.trans hstate) (by simp)⟩
      · trivial

lemma watched_recvRows (env : Env) (hk : s.r.connection = some k)
    (h : Pos.Watched .recvRows s.r (s.w.conns k)) : (s.recvRows env k k).2.r.outputPaused ∨
      (s.recvRows env k k).1.Watched (s.recvRows env k k).2.r
        ((s.recvRows env k k).2.w.conns k) := by
  have hstate := enter_state (s := s) (k := k) .recvRows s.r.loc.recvRowsTimeout
  have hrecv : (s.enter .recvRows s.r.loc.recvRowsTimeout k).r.state.receives := by
    rw [hstate]
    rfl
  have htimer := enter_timer s.r.loc.recvRowsTimeout h
  have hready := outputReady_cases env.ready
    ((stays_enter (s := s) .recvRows s.r.loc.recvRowsTimeout hk).connection.trans hk)
  unfold recvRows
  simp only
  generalize s.enter .recvRows s.r.loc.recvRowsTimeout k = s₀ at hstate hrecv htimer hready ⊢
  generalize s₀.outputReady env.ready k = ps at hready ⊢
  obtain ⟨rc, s₁⟩ := ps
  cases hready with
  | paused hq ho hpaused => exact .inl hpaused
  | failed => exact .inr (.inl rfl)
  | @ready o ho =>
    right
    rw [if_neg (by simp)]
    have hcalled : ∀ call, (((s₀.setOut o).libCall k call).w.conns k).read.timer.isSome := by
      intro call
      simpa using htimer
    split
    · exact ⟨hstate, htimer⟩
    · split
      · exact .inr (Req.armed_read hrecv (hcalled _))
      · exact .inl rfl
      · exact watched_rowOk env _ hstate (hcalled _)

lemma watched_recvFields (env : Env) (hk : s.r.connection = some k)
    (h : Pos.Watched .recvFields s.r (s.w.conns k)) : (s.recvFields env k k).2.r.outputPaused ∨
      (s.recvFields env k k).1.Watched (s.recvFields env k k).2.r
        ((s.recvFields env k k).2.w.conns k) := by
  obtain ⟨hstate, htimer⟩ := h
  have hrecv : s.r.state.receives := by
    rw [hstate]
    rfl
  have hready := outputReady_cases env.ready hk
  unfold recvFields
  simp only
  generalize s.outputReady env.ready k = ps at hready ⊢
  obtain ⟨rc, s₁⟩ := ps
  cases hready with
  | paused hq ho hpaused => exact .inl hpaused
  | failed => exact .inr (.inl rfl)
  | @ready o ho =>
    right
    rw [if_neg (by simp)]
    have hcalled : ∀ call, (((s.setOut o).libCall k call).w.conns k).read.timer.isSome := by
      intro call
      simpa using htimer
    split
    · exact .inr (Req.armed_read hrecv (hcalled _))
    · exact fun _ => hcalled _
    · exact .inl rfl
    · simp only
      split
      · next hrc => exact .inl hrc
      · exact ⟨hstate, hcalled _⟩

/-! ## Steps -/

lemma watched_handleEvent (env : Env) {e : Event} (hk : s.r.connection = some k)
    (h : (Pos.event e).Watched s.r (s.w.conns k)) (hhandler : s.r.writeHandler ≠ .drainOutput) :
    (s.handleEvent env e).1.Watched (s.handleEvent env e).2.r
      ((s.handleEvent env e).2.w.conns k) := by
  cases e with
  | db write timedout broken =>
    simp only [handleEvent, dbHandler, modReq_r, hk]
    split
    · trivial
    · next htime =>
      split
      · trivial
      · rw [show timedout = false by simpa using htime] at h
        exact .inl h
  | clientWrite timedout =>
    unfold handleEvent
    simp only
    split
    · next hdrain => exact absurd hdrain hhandler
    · exact h
    · exact h
  | clientClosed delEvent =>
    simp only [handleEvent, checkBrokenConnection]
    split <;> trivial
  | cleanup => trivial

lemma watched_attach (env : Env) {rc : Rc} (h : rc = .again ∧ s.r.state = .connect ∨
    rc = .done ∧ Pos.Watched (.dbdConnected .done) s.r (s.w.conns k)) :
    (s.attach env rc k).1.Watched (s.attach env rc k).2.r ((s.attach env rc k).2.w.conns k) := by
  unfold attach
  simp only
  split
  · trivial
  · split
    · trivial
    · rcases h with ⟨rfl, hstate⟩ | ⟨rfl, hstate⟩
      · rw [if_pos rfl]
        refine Req.armed_write (.inl hstate) ?_
        simp only [modWrite_w, Worker.modConn_conns_self]
        exact isSome_addTimer ..
      · rw [if_neg (by simp)]
        exact .inr hstate

lemma watched_dbdConnected (env : Env) {rc : Rc}
    (h : (Pos.dbdConnected rc).Watched s.r s.conn) (hc : Custody (.dbdConnected rc) s) :
    (s.dbdConnected env rc).1.Watched (s.dbdConnected env rc).2.r
      (s.dbdConnected env rc).2.conn := by
  have hstays := stays_exec env hc rfl
  rw [exec] at hstays
  unfold dbdConnected at hstays ⊢
  cases rc with
  | again =>
    cases hk : s.r.connection with
    | none => trivial
    | some k =>
      simp only [hk] at hstays ⊢
      rw [conn_of (hstays.connection.trans hk)]
      exact watched_attach env (.inl ⟨rfl, h⟩)
  | done =>
    obtain ⟨_, k, hk⟩ := hc.ok
    rw [conn_of hk.connection] at h
    simp only [hk.connection] at hstays ⊢
    rw [conn_of (hstays.connection.trans hk.connection)]
    exact watched_attach env (.inr ⟨rfl, h⟩)
  | ok => exact hc.ok.elim
  | http => exact hc.ok.elim
  | _ => trivial

/-- The connection that `getPeer` hands over has been used before, or it is new. -/
lemma watched_dbdConnect (env : Env) (h : Pos.Watched .dbdConnect s.r s.conn)
    (hc : Custody .dbdConnect s)
    (hitems : ∀ item ∈ s.w.pool.cache, ∀ j, item.connection = some j → (s.w.conns j).hist ≠ []) :
    (s.dbdConnect env).1.Watched (s.dbdConnect env).2.r (s.dbdConnect env).2.conn := by
  have hstate : s.r.state = .connect := h
  unfold dbdConnect
  split
  · trivial
  · have hget := getPeer_cases env.peer hc.ok.2.1.connection
    generalize s.getPeer env.peer = ps at hget ⊢
    obtain ⟨rc, s'⟩ := ps
    -- a connection from the cache
    have hcached : ∀ {s₁ : St} {item : Item}, item ∈ s.w.pool.cache → s₁.w.conns = s.w.conns →
        s₁.r.connection = item.connection → s₁.r.state = .connect →
        Pos.Watched (.dbdConnected .done) s₁.r s₁.conn := by
      intro s₁ item hmem hconns hconn hs
      obtain ⟨j, hj⟩ := hc.items item hmem
      rw [conn_of (hconn.trans hj.connection), hconns]
      exact .inr ⟨hs, hitems item hmem j hj.connection⟩
    cases hget with
    | single hmax hsingle hcache =>
      exact hcached (hcache ▸ List.mem_cons_self) rfl rfl hstate
    | multi hmax hmulti hcache =>
      exact hcached (hcache ▸ List.mem_append_right _ List.mem_cons_self) rfl rfl hstate
    | busy => trivial
    | overflow getConn => cases getConn <;> exact hstate
    | create hroom hcreate =>
      cases hcreate with
      | noMemory => trivial
      | refused hrc => rcases hrc with rfl | rfl <;> trivial
      | fresh hrc =>
        rcases hrc with ⟨rfl, rfl⟩ | ⟨rfl, rfl⟩
        · exact rfl
        · exact .inl rfl

lemma watched_next {ft : Ft} (hc : Custody (.next ft) s) :
    (s.next ft).1.Watched (s.next ft).2.r (s.next ft).2.conn := by
  obtain ⟨s₁, hs₁, hnext⟩ := next_cases (s := s) ft hc.queues
  generalize s.next ft = ps at hnext ⊢
  obtain ⟨p', s'⟩ := ps
  cases hnext with
  | stop => trivial
  | retry => exact rfl

lemma watched_handlerTail (h : Pos.Watched .handlerTail s.r s.conn) :
    s.handlerTail.1.Watched s.handlerTail.2.r s.handlerTail.2.conn := by
  rcases handlerTail_cases s with ⟨heq, _⟩ | ⟨_, _, _, heq⟩
  · rw [heq]
    exact h
  · rw [heq]
    trivial

lemma watched_processed (env : Env) {rc : Rc} (h : (Pos.ret rc).Watched s.r (s.w.conns k)) :
    (s.processed env rc).1.Watched (s.processed env rc).2.r
      ((s.processed env rc).2.w.conns k) := by
  have hcases := processed_cases (s := s) env rc
  generalize s.processed env rc = ps at hcases ⊢
  obtain ⟨p', s'⟩ := ps
  cases hcases with
  | error => trivial
  | failed => trivial
  | flushFailed => trivial
  | waits hrc =>
    rcases h with hfailed | harmed
    · cases hrc.symm.trans hfailed
    · exact harmed

/-- A step of a request that is not paused. -/
lemma watched_exec (env : Env) (hc : Custody p s) (hlive : (s.exec env p).2.r.live)
    (hpaused : s.r.outputPaused = false) (hhandler : s.r.writeHandler ≠ .drainOutput)
    (hready : ReadyConnects env p s) (hwait : NoWaitBehindNames env p s)
    (hitems : ∀ item ∈ s.w.pool.cache, ∀ j, item.connection = some j → (s.w.conns j).hist ≠ [])
    (h : p.Watched s.r s.conn) : (s.exec env p).2.r.outputPaused ∨
      (s.exec env p).1.Watched (s.exec env p).2.r (s.exec env p).2.conn := by
  -- at positions that stay with a connection
  have hon : ∀ {j : ℕ}, s.r.connection = some j → p.stays → ((s.exec env p).2.r.outputPaused ∨
      (s.exec env p).1.Watched (s.exec env p).2.r ((s.exec env p).2.w.conns j)) →
      (s.exec env p).2.r.outputPaused ∨
        (s.exec env p).1.Watched (s.exec env p).2.r (s.exec env p).2.conn := by
    intro j hj hp hw
    rw [conn_of ((stays_exec env hc hp).connection.trans hj)]
    exact hw
  cases p with
  | loop => exact .inr h
  | crashed => exact .inr h
  | handlerTail => exact .inr (watched_handlerTail h)
  | dbdConnect => exact .inr (watched_dbdConnect env h hc hitems)
  | dbdConnected rc => exact .inr (watched_dbdConnected env h hc)
  | next ft => exact .inr (watched_next hc)
  | done rc =>
    obtain ⟨_, _, hpos, _⟩ := done_cases (s := s) env rc
    rw [exec, hpos]
    exact .inr trivial
  | finalize rc =>
    exact absurd ((exec_finalize env hc).2.symm.trans hlive) Bool.false_ne_true
  | event e =>
    obtain ⟨j, hj⟩ := connection_of_event hc
    rw [conn_of hj] at h
    exact hon hj rfl (.inr (watched_handleEvent env hj h hhandler))
  | processEvents =>
    obtain ⟨_, j, hj⟩ := hc.ok
    rw [conn_of hj.connection] at h
    exact hon hj.connection rfl (.inr (watched_processEvents h hpaused))
  | connect =>
    obtain ⟨_, j, hj⟩ := hc.ok
    have hready := hready rfl
    rw [conn_of hj.connection] at h hready
    refine hon hj.connection rfl (.inr ?_)
    rw [exec, onConn_of hj.connection hj.drizzleCon]
    exact watched_connect env h hready
  | sendQuery =>
    obtain ⟨_, j, hj⟩ := hc.ok
    rw [conn_of hj.connection] at h
    refine hon hj.connection rfl (.inr ?_)
    rw [exec, onConn_of hj.connection hj.drizzleCon]
    exact watched_sendQuery env h (hwait rfl)
  | recvCols =>
    obtain ⟨_, j, hj⟩ := hc.ok
    rw [conn_of hj.connection] at h
    refine hon hj.connection rfl ?_
    rw [exec, onConn_of hj.connection hj.drizzleCon]
    exact watched_recvCols env hj.connection h
  | recvRows =>
    obtain ⟨_, j, hj⟩ := hc.ok
    rw [conn_of hj.connection] at h
    refine hon hj.connection rfl ?_
    rw [exec, onConn_of hj.connection hj.drizzleCon]
    exact watched_recvRows env hj.connection h
  | recvFields =>
    obtain ⟨_, j, hj⟩ := hc.ok
    rw [conn_of hj.connection] at h
    refine hon hj.connection rfl ?_
    rw [exec, onConn_of hj.connection hj.drizzleCon]
    exact watched_recvFields env hj.connection h
  | ret rc =>
    obtain ⟨_, j, hj⟩ := hc.ok
    rw [conn_of hj.connection] at h
    exact hon hj.connection rfl (.inr (watched_processed env h))

end St

/-! ## Runs -/

/-- The timers of requests that are not paused, as a claim about requests; the write event of the
client resumes the reading only when it is paused. -/
def Local.watched : Local where
  req _ p r c := r.live →
    ((∀ rc, p ≠ .finalize rc) → r.writeHandler = .drainOutput → r.outputPaused) ∧
    (r.outputPaused = false → p.Watched r c)
  item _ _ _ := True

/-- What the steps may use about timers. -/
structure TimersKnown (env : Env) (p : Pos) (s : St) : Prop where
  known : Known p s
  backpressure : Local.backpressure.req s.w.conf p s.r s.conn
  reuse : Local.reuse.Items s.w
  ready : ReadyConnects env p s
  wait : NoWaitBehindNames env p s

lemma Local.watched_kept : Local.watched.Kept TimersKnown where
  init w id a p hp _ := by
    refine ⟨fun _ => nofun, fun _ => ?_⟩
    rcases hp with rfl | rfl
    · exact rfl
    · trivial
  fire ev s _ _ h hlive := by
    obtain ⟨⟨cw, hr⟩, _⟩ := St.fire_cases ev s
    obtain ⟨hhandler, hwatched⟩ := h ((congrArg Req.live hr :).symm.trans hlive)
    have hfields : (ev.fire s).r.writeHandler = s.r.writeHandler ∧
        (ev.fire s).r.outputPaused = s.r.outputPaused :=
      ⟨(congrArg Req.writeHandler hr :), (congrArg Req.outputPaused hr :)⟩
    rw [hfields.1, hfields.2]
    refine ⟨fun _ => hhandler nofun, fun hpaused => ?_⟩
    have harmed : s.r.Armed s.conn := hwatched hpaused
    cases ev with
    | db write timedout broken =>
      cases timedout with
      | true => trivial
      | false => exact harmed
    | clientWrite timedout => cases timedout <;> exact harmed
    | clientClosed => exact harmed
    | cleanup => exact harmed
  client _ p _ _ _ h hlive := by
    obtain ⟨hhandler, hwatched⟩ := h hlive
    refine ⟨hhandler, fun hpaused => ?_⟩
    have := hwatched hpaused
    cases p <;> exact this
  exec env p s hc hd h _ hlive := by
    have hlive₀ := St.live_of_exec env hc hlive
    obtain ⟨hhandler, hwatched⟩ := h hlive₀
    obtain ⟨t, hs⟩ := hd.known.session
    have hflows := hs.flows env hc hlive₀
    have hfinalize : ∀ rc, p ≠ .finalize rc := by
      rintro rc rfl
      exact absurd ((St.exec_finalize env hc).2.symm.trans hlive) Bool.false_ne_true
    have hhandler := hhandler hfinalize
    have hsame : ∀ {s' : St}, s'.r.flow = s.r.flow →
        s'.r.outputPaused = s.r.outputPaused ∧ s'.r.writeHandler = s.r.writeHandler := fun hf =>
      ⟨(congrArg Prod.fst hf :),
        (congrArg (fun f : Bool × WriteHandler × NgxEvent => f.2.1) hf :)⟩
    suffices (s.exec env p).2.r.outputPaused ∨ ((∀ rc, (s.exec env p).1 ≠ .finalize rc) →
        (s.exec env p).2.r.writeHandler ≠ .drainOutput) ∧
          (s.exec env p).1.Watched (s.exec env p).2.r (s.exec env p).2.conn by
      rcases this with hpaused | ⟨hnot, hw⟩
      · exact ⟨fun _ _ => hpaused, fun hp => absurd (hp.symm.trans hpaused) Bool.false_ne_true⟩
      · exact ⟨fun hne hdrain => absurd hdrain (hnot (Pos.ne_finalize_after hne)),
          fun _ => hw.settle⟩
    cases hpaused : s.r.outputPaused with
    | true =>
      have hwaiting := hd.backpressure hlive₀ hpaused
      cases hflows with
      | even hp heven => exact .inl ((hsame heven.flow).1.trans hpaused)
      | released hp hflow => exact .inl ((hsame hflow).1.trans hpaused)
      | reads hp =>
        have hpos := hwaiting.pos
        rcases hp with rfl | rfl | rfl <;> cases hpos
      | @drains k timedout hp hk _ hdrain =>
        subst hp
        have hconn := (St.stays_exec env hc rfl).connection.trans hk.connection
        rw [St.conn_of hconn]
        generalize s.exec env (.event (.clientWrite timedout)) = ps at hdrain ⊢
        obtain ⟨p', s'⟩ := ps
        cases hdrain with
        | @failed rc => exact .inr ⟨fun hne => absurd rfl (hne rc), trivial⟩
        | waits hq ho hw hp => exact .inl (hp.trans hpaused)
        | resumed hq ho hw hp htimer hempty =>
          have hstate : s'.r.state = s.r.state := (congrArg Req.state hq.req :)
          exact .inr ⟨fun _ heq => absurd (hempty.symm.trans heq) nofun,
            .inl (Req.armed_read (hstate ▸ hwaiting.state) htimer)⟩
    | false =>
      have hdrain : s.r.writeHandler ≠ .drainOutput := fun heq =>
        absurd (hpaused.symm.trans (hhandler heq)) Bool.false_ne_true
      have hitems : ∀ item ∈ s.w.pool.cache, ∀ j, item.connection = some j →
          (s.w.conns j).hist ≠ [] := by
        intro item hmem j hj hnil
        obtain ⟨call, rest, hhist, _⟩ := (hd.reuse item hmem j hj).2
        cases hnil.symm.trans hhist
      refine (St.watched_exec env hc hlive hpaused hdrain hd.ready hd.wait hitems
        (hwatched hpaused)).elim .inl fun hw => ?_
      cases hflows with
      | even hp heven => exact .inr ⟨fun _ => (hsame heven.flow).2 ▸ hdrain, hw⟩
      | released hp hflow => exact .inr ⟨fun _ => (hsame hflow).2 ▸ hdrain, hw⟩
      | reads hp hk hreads =>
        generalize s.exec env p = ps at hreads hw ⊢
        cases hreads with
        | even heven => exact .inr ⟨fun _ => (hsame heven.flow).2 ▸ hdrain, hw⟩
        | paused hpauses hwait => exact .inl hwait.paused
        | failed hfail =>
          rcases hfail with hflow | hwait
          · exact .inr ⟨fun _ => (hsame hflow).2 ▸ hdrain, hw⟩
          · exact .inl hwait.paused
      | drains hp hk hhandler => exact absurd hhandler hdrain
  saved _ _ _ _ _ _ _ _ _ _ := trivial

namespace Sys

/-- **No wait without a timeout.**  Let the client library not wait when it connects a connection
that is in use already.  In every run in which the SQL of no request has to wait directly behind
a `set names` query that has waited as well and was answered with an error about a missing table:
whenever the event loop runs, a request that has not been finalized and whose reading is not
paused holds a connection, and on it the write timer runs while it is connecting or sending a
query, and the read timer while it reads columns or rows. -/
theorem waits_with_timeout (conf : Conf) {ls : List Label}
    (hready : Lib.Meets step (RunsMeet ReadyConnects) (init conf) ls)
    (hwait : Lib.Meets step (RunsMeet NoWaitBehindNames) (init conf) ls)
    (hidle : (run conf ls).active = none) : ∀ r ∈ (run conf ls).reqs, r.live →
      r.outputPaused = false → ∃ k, r.connection = some k ∧
        ((r.state = .connect ∨ r.state = .sendQuery) ∧
            ((run conf ls).w.conns k).write.timer.isSome ∨
          (r.state = .recvCols ∨ r.state = .recvRows) ∧
            ((run conf ls).w.conns k).read.timer.isSome) := by
  intro r hr hlive hpaused
  obtain ⟨i, hi⟩ := List.mem_iff_getElem?.mp hr
  have hknown := known_meets conf ls
  have hback := Local.backpressure_kept.meets conf hknown
  have hreuse := Local.reuse_kept.meets conf hknown
  have hd : Lib.Meets step (RunsMeet TimersKnown) (init conf) ls := by
    refine (RunsMeet.and (RunsMeet.and hknown (RunsMeet.and hback hreuse))
      (RunsMeet.and hready hwait)).mono fun s l h env i p r hl hact hi => ?_
    obtain ⟨⟨hk, hb, hu⟩, hrdy, hw⟩ := h env i p r hl hact hi
    exact ⟨hk, hb.1, hu.2, hrdy, hw⟩
  have hwatched := (Local.watched_kept.run conf hd).req i r hi hlive
  have hok := (owned_run conf ls).ok i r hi
  rw [pos_of_idle hidle] at hwatched hok
  obtain ⟨_, hended | ⟨_, hheld⟩⟩ := hok
  · cases hended.live.symm.trans hlive
  · obtain ⟨k, hk⟩ : ∃ k, r.connection = some k := by
      rcases hheld with ⟨k, hk⟩ | hrej
      · exact ⟨k, hk.connection⟩
      · exact hrej.holds.imp fun _ hk => hk.connection
    refine ⟨k, hk, ?_⟩
    have harmed : r.Armed ((run conf ls).view r).conn := hwatched.2 hpaused
    rw [St.conn_of (s := (run conf ls).view r) hk] at harmed
    refine harmed.cases.imp_right fun ⟨hs, ht⟩ => ⟨?_, ht⟩
    cases hstate : r.state with
    | recvCols => exact .inl rfl
    | recvRows => exact .inr rfl
    | _ => rw [hstate] at hs; cases hs

/-- The `set names` query waits, the reply to it is that a table does not exist, and the SQL of
the request waits as well. -/
def waitBehindNames : List Label := sampleArrival (.sample [7]) ++ [.run {}, .run {}, .run {},
  .event 0 (.db true false false), .run {}, .run {}, .run { query := .fail (.errorCode 1146) },
  .run {}, .run {}]

/-- The same, but the query that sets the charset succeeds. -/
def waitBehindCharset : List Label := sampleArrival (.sample [7]) ++ [.run {}, .run {}, .run {},
  .event 0 (.db true false false), .run {}, .run {}, .run { query := .ok (.sample 0) }, .run {},
  .run {}]

theorem waits_with_timeout_waitBehindCharset :
    ∃ r ∈ (run (.sample (.sample [1] [9]) []) waitBehindCharset).reqs, ∃ k,
      r.connection = some k ∧
      ((r.state = .connect ∨ r.state = .sendQuery) ∧
        ((run (.sample (.sample [1] [9]) []) waitBehindCharset).w.conns k).write.timer.isSome ∨
      (r.state = .recvCols ∨ r.state = .recvRows) ∧
        ((run (.sample (.sample [1] [9]) []) waitBehindCharset).w.conns k).read.timer.isSome) := by
  have hmem := List.get_mem (run (.sample (.sample [1] [9]) []) waitBehindCharset).reqs
    ⟨0, by decide⟩
  exact ⟨_, hmem, waits_with_timeout _ (by decide) (by decide) (by decide) _ hmem (by decide)
    (by decide)⟩

/-- No timer runs on the connection of a request that waits. -/
theorem waits_without_timeout :
    ¬ ∀ conf ls, Lib.Meets step (RunsMeet ReadyConnects) (init conf) ls →
      (run conf ls).active = none → ∀ r ∈ (run conf ls).reqs, r.live → r.outputPaused = false →
      ∀ k, r.connection = some k → ((run conf ls).w.conns k).write.timer.isSome ∨
        ((run conf ls).w.conns k).read.timer.isSome := by
  intro h
  have htimer := h (.sample (.sample [1] [9]) []) waitBehindNames (by decide) (by decide) _
    (List.get_mem _ ⟨0, by decide⟩) (by decide) (by decide) 0 (by decide)
  revert htimer
  decide

end Sys
end DrizzleNginx
