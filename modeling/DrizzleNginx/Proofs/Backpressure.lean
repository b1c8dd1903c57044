/-
# Backpressure

When too much output waits for the client, reading from the database is paused, and the write
event of the client resumes it.  While it is paused, nothing is asked of the database and no
timer of it runs; all that was produced has been handed to the output filter, and the write
event of the client, its timer or the end of a delay is waited for.
-/
import DrizzleNginx.Proofs.Pending

namespace DrizzleNginx

/-! ## Steps without backpressure -/

/-- What pausing and resuming do to the events of a connection. -/
def Conn.wiring (c : Conn) : Bool × Bool × ℕ := (c.read.active, c.write.active, c.pauses)

/-- Nothing is paused or resumed. -/
structure Even (s s' : St) : Prop where
  flow : s'.r.flow = s.r.flow
  wiring : ∀ j, (s'.w.conns j).wiring = (s.w.conns j).wiring

@[simp] lemma NgxEvent.addTimer_active (ev : NgxEvent) (now timeout : Msec) :
    (ev.addTimer now timeout).active = ev.active := by
  unfold addTimer
  split
  · split <;> rfl
  · rfl

namespace Even

variable {s s' s'' : St} {k : ℕ}

lemma refl (s : St) : Even s s := ⟨rfl, fun _ => rfl⟩

lemma trans (h : Even s s') (h' : Even s' s'') : Even s s'' :=
  ⟨h'.flow.trans h.flow, fun j => (h'.wiring j).trans (h.wiring j)⟩

lemma outputPaused (h : Even s s') : s'.r.outputPaused = s.r.outputPaused :=
  (congrArg Prod.fst h.flow :)

lemma modReq (h : Even s s') {f : Req → Req} (hf : (f s'.r).flow = s'.r.flow) :
    Even s (s'.modReq f) := h.trans ⟨hf, fun _ => rfl⟩

lemma setOut (h : Even s s') (o : Out) : Even s (s'.setOut o) :=
  h.modReq (f := fun r => { r with out := o }) rfl

lemma log (h : Even s s') (e : ReqEvent) : Even s (s'.log e) :=
  h.modReq (f := fun r => r.log e) rfl

lemma modConn (h : Even s s') {f : Conn → Conn} (hf : ∀ c, (f c).wiring = c.wiring) :
    Even s (s'.modConn k f) := by
  refine h.trans ⟨rfl, fun j => ?_⟩
  rw [St.modConn_w, Worker.modConn_conns]
  split
  · next hj => rw [hf, hj]
  · rfl

lemma modRead (h : Even s s') {f : NgxEvent → NgxEvent} (hf : ∀ ev, (f ev).active = ev.active) :
    Even s (s'.modRead k f) := h.modConn fun c => by simp [Conn.wiring, hf]

lemma modWrite (h : Even s s') {f : NgxEvent → NgxEvent} (hf : ∀ ev, (f ev).active = ev.active) :
    Even s (s'.modWrite k f) := h.modConn fun c => by simp [Conn.wiring, hf]

lemma libCall (h : Even s s') (call : LibCall) : Even s (s'.libCall k call) :=
  (h.modConn (f := fun c => { c with hist := call :: c.hist }) fun _ => rfl).log _

end Even

namespace St

variable {s s' : St} {p : Pos} {k : ℕ} {rc : Rc}

lemma even_processEvents : Even s s.processEvents.2 := by
  unfold processEvents
  split
  · exact .refl s
  · split <;> exact .refl s

lemma even_processed (env : Env) (rc : Rc) : Even s (s.processed env rc).2 := by
  have h := processed_cases (s := s) env rc
  generalize s.processed env rc = ps at h ⊢
  obtain ⟨p', s'⟩ := ps
  cases h with
  | error => exact .refl _
  | failed => exact .refl _
  | flushFailed => exact (Even.refl s).setOut _
  | waits => exact (Even.refl s).setOut _

lemma even_connect (env : Env) : Even s (s.connect env k k).2 := by
  have h₁ := (Even.refl s).log (.connect k env.con)
  unfold connect
  simp only
  split
  · exact h₁
  · exact h₁.modWrite fun _ => rfl
  · exact h₁.modWrite fun _ => rfl

lemma even_queryOk (env : Env) (h : ResultHeader) : Even s (s.queryOk env h).2 := by
  have h₁ := Even.refl s
  unfold queryOk
  split
  · split
    · exact h₁
    · dsimp only
      exact h₁.modReq rfl
  · simp only
    split <;> exact h₁.setOut _

lemma even_sendQuery (env : Env) : Even s (s.sendQuery env k k).2 := by
  have h₂ : Even s (s.queried k env.query) :=
    ((Even.refl s).modReq (f := fun r => { r with queryStarted := true }) rfl).libCall _
  have h₃ := h₂.modWrite (k := k) (f := NgxEvent.delTimer) fun _ => rfl
  unfold sendQuery
  simp only
  split
  · split
    · exact h₂
    · have h₄ := h₂.modWrite (k := k) (f := fun ev => ev.delTimer.addTimer
        (s.queried k env.query).w.now (s.queried k env.query).r.loc.sendTimeout)
        fun ev => NgxEvent.addTimer_active _ _ _
      dsimp only
      exact h₄.modReq rfl
  · split
    · dsimp only
      exact h₃.modReq rfl
    · exact h₃
  · exact h₃
  · exact h₃.trans (even_queryOk env _)

lemma even_enter (state : DbState) (timeout : Msec) : Even s (s.enter state timeout k) := by
  unfold enter
  split
  · exact ((Even.refl s).modRead fun ev => NgxEvent.addTimer_active _ _ _).modReq rfl
  · exact .refl s

lemma even_rowOk (env : Env) (row : UInt64) : Even s (s.rowOk env k row).2 := by
  have h₁ := (Even.refl s).modReq (f := fun r => { r with
    drizzleRow := row, out := (s.r.out.outputRow env.emit s.r.loc row).2 }) rfl
  have h₂ := h₁.modRead (k := k) (f := NgxEvent.delTimer) fun _ => rfl
  unfold rowOk
  simp only
  split
  · exact h₁
  · split
    · exact h₁
    · split
      · dsimp only
        exact h₂.modReq rfl
      · exact h₂

lemma even_done (env : Env) (rc : Rc) : Even s (s.done env rc).2 := by
  obtain ⟨flush, o, _, heq, _⟩ := done_cases (s := s) env rc
  rw [heq]
  exact (((Even.refl s).setOut o).log _).modReq rfl

lemma even_dbdConnected (env : Env) (rc : Rc) : Even s (s.dbdConnected env rc).2 := by
  have h₁ : Even s s.clearHeader := (Even.refl s).modReq rfl
  unfold dbdConnected
  split
  · exact .refl s
  · exact .refl s
  · exact .refl s
  · split
    · exact .refl s
    · unfold attach
      simp only
      split
      · exact h₁
      · split
        · exact h₁
        · have h₂ := h₁.modReq (f := fun r => { r with requestSent := false }) rfl
          split
          · exact h₂.modWrite fun ev => NgxEvent.addTimer_active _ _ _
          · exact h₂

lemma even_dbHandler (timedout broken : Bool) : Even s (s.dbHandler timedout broken).2 := by
  have h₁ := (Even.refl s).modReq (f := fun r => { r with requestSent := true }) rfl
  unfold dbHandler
  simp only
  split
  · exact h₁
  · split
    · exact h₁
    · split <;> exact h₁

/-- What the functions that read the result can do to the reading: nothing, or it is paused, or
it is not and the attempt fails. -/
inductive Reads (s : St) (k : ℕ) : Pos × St → Prop
  | even {ps : Pos × St} (h : Even s ps.2) : Reads s k ps
  | paused {s' : St} (hpauses : (s'.w.conns k).pauses ≠ 0) (hwait : s'.Paused k)
      (hstate : s'.r.state.receives) : Reads s k (.ret .again, s')
  | failed {s' : St} (h : s'.r.flow = s.r.flow ∨ s'.Paused k) (hstate : s'.r.state.receives) :
      Reads s k (.ret .error, s')

/-- Behind the check of the output. -/
lemma OutputReady.reads {s₀ s₁ : St} (h : OutputReady s₀ k rc s₁) (h₀ : Even s s₀)
    (hstate : s₀.r.state.receives) :
    rc = .ok ∧ Even s s₁ ∨ rc ≠ .ok ∧ Reads s k (.ret rc, s₁) := by
  have hstate : s₁.r.state.receives := by
    rw [show s₁.r.state = s₀.r.state from (congrArg Req.state h.quiet.req :)]
    exact hstate
  cases h with
  | ready ho => exact .inl ⟨rfl, h₀.setOut _⟩
  | paused hq ho hpaused hpauses hwait => exact .inr ⟨nofun, .paused hpauses hwait hstate⟩
  | failed hq ho hwait =>
    refine .inr ⟨nofun, .failed (hwait.imp_left fun h => h.trans h₀.flow) hstate⟩

lemma enter_state (state : DbState) (timeout : Msec) :
    (s.enter state timeout k).r.state = state := by
  unfold enter
  split
  · rfl
  · next h => exact not_not.mp h

lemma recvCols_reads (env : Env) (hk : s.r.connection = some k) :
    Reads s k (s.recvCols env k k) := by
  obtain ⟨rc, s₁, h⟩ : ∃ rc s₁, (s.enter .recvCols s.r.loc.recvColsTimeout k).outputReady
    env.ready k = (rc, s₁) := ⟨_, _, rfl⟩
  have hready := outputReady_cases env.ready
    ((stays_enter (s := s) .recvCols s.r.loc.recvColsTimeout hk).connection.trans hk)
  rw [h] at hready
  unfold recvCols
  simp only [h]
  rcases hready.reads (even_enter ..) (by rw [enter_state]; rfl) with ⟨rfl, he⟩ | ⟨hrc, hreads⟩
  · rw [if_neg (by simp)]
    split
    · exact .even (he.libCall _)
    · exact .even (he.libCall _)
    · exact .even ((he.libCall _).setOut _)
    · exact .even ((he.libCall _).modRead fun _ => rfl)
  · rw [if_pos hrc]
    exact hreads

lemma recvRows_reads (env : Env) (hk : s.r.connection = some k) :
    Reads s k (s.recvRows env k k) := by
  obtain ⟨rc, s₁, h⟩ : ∃ rc s₁, (s.enter .recvRows s.r.loc.recvRowsTimeout k).outputReady
    env.ready k = (rc, s₁) := ⟨_, _, rfl⟩
  have hready := outputReady_cases env.ready
    ((stays_enter (s := s) .recvRows s.r.loc.recvRowsTimeout hk).connection.trans hk)
  rw [h] at hready
  unfold recvRows
  simp only [h]
  rcases hready.reads (even_enter ..) (by rw [enter_state]; rfl) with ⟨rfl, he⟩ | ⟨hrc, hreads⟩
  · rw [if_neg (by simp)]
    split
    · exact .even he
    · split
      · exact .even (he.libCall _)
      · exact .even (he.libCall _)
      · exact .even ((he.libCall _).trans (even_rowOk env _))
  · rw [if_pos hrc]
    exact hreads

lemma recvFields_reads (env : Env) (hk : s.r.connection = some k) (hstate : s.r.state.receives) :
    Reads s k (s.recvFields env k k) := by
  obtain ⟨rc, s₁, h⟩ : ∃ rc s₁, s.outputReady env.ready k = (rc, s₁) := ⟨_, _, rfl⟩
  have hready := outputReady_cases env.ready hk
  rw [h] at hready
  unfold recvFields
  simp only [h]
  rcases hready.reads (.refl s) hstate with ⟨rfl, he⟩ | ⟨hrc, hreads⟩
  · rw [if_neg (by simp)]
    split
    · exact .even (he.libCall _)
    · exact .even ((he.libCall _).modReq (f := fun r => { r with drizzleRow := 0 }) rfl)
    · exact .even (he.libCall _)
    · exact .even ((he.libCall _).setOut _)
  · rw [if_pos hrc]
    exact hreads

/-- A request that does not stay with its connection is neither paused nor resumed. -/
lemma exec_flow (env : Env) (hc : Custody p s) (hp : p.stays = false) :
    (s.exec env p).2.r.flow = s.r.flow := (congrArg Req.flow (exec_kept env hc hp) :)

/-- What a step does to the reading of a result. -/
inductive Flows (s : St) (p : Pos) (ps : Pos × St) : Prop
  | even (hp : p.stays) (h : Even s ps.2)
      (hev : ∀ timedout, p = .event (.clientWrite timedout) → s.r.writeHandler ≠ .drainOutput) :
      Flows s p ps
  | released (hp : p.stays = false) (h : ps.2.r.flow = s.r.flow) : Flows s p ps
  | reads {k : ℕ} (hp : p = .recvCols ∨ p = .recvRows ∨ p = .recvFields) (hk : s.Holds k)
      (h : Reads s k ps) : Flows s p ps
  | drains {k : ℕ} {timedout : Bool} (hp : p = .event (.clientWrite timedout)) (hk : s.Holds k)
      (hhandler : s.r.writeHandler = .drainOutput) (h : DrainOutput s k ps.1 ps.2) : Flows s p ps

theorem exec_flows (env : Env) (hc : Custody p s) (hstate : p = .recvFields → s.r.state.receives) :
    Flows s p (s.exec env p) := by
  cases hp : p.stays with
  | false => exact .released hp (exec_flow env hc hp)
  | true =>
    cases p with
    | loop => exact .even hp (.refl s) (by simp)
    | crashed => exact .even hp (.refl s) (by simp)
    | dbdConnected rc => exact .even hp (even_dbdConnected env rc) (by simp)
    | event e =>
      simp only [exec, handleEvent]
      split
      · exact .even hp (even_dbHandler _ _) (by simp)
      · split
        · next timedout _ hhandler =>
          obtain ⟨k, hk⟩ := holds_of_event hc (hc.ordered.drains hhandler)
          exact .drains rfl hk hhandler
            (drainOutput_cases env timedout hk.connection hk.drizzleCon)
        · next hhandler => exact .even hp (.refl s) fun _ _ => by simp [hhandler]
        · next hhandler => exact .even hp (.refl s) fun _ _ => by simp [hhandler]
      · refine .even hp ?_ (by simp)
        unfold checkBrokenConnection
        split
        · exact .refl s
        · exact (Even.refl s).modReq (f := fun r => { r with connError := true }) rfl
      · exact .even hp (.refl s) (by simp)
    | processEvents => exact .even hp even_processEvents (by simp)
    | connect =>
      obtain ⟨_, k, hk⟩ := hc.ok
      rw [exec, onConn_of hk.connection hk.drizzleCon]
      exact .even hp (even_connect env) (by simp)
    | sendQuery =>
      obtain ⟨_, k, hk⟩ := hc.ok
      rw [exec, onConn_of hk.connection hk.drizzleCon]
      exact .even hp (even_sendQuery env) (by simp)
    | recvCols =>
      obtain ⟨_, k, hk⟩ := hc.ok
      rw [exec, onConn_of hk.connection hk.drizzleCon]
      exact .reads (.inl rfl) hk (recvCols_reads env hk.connection)
    | recvRows =>
      obtain ⟨_, k, hk⟩ := hc.ok
      rw [exec, onConn_of hk.connection hk.drizzleCon]
      exact .reads (.inr (.inl rfl)) hk (recvRows_reads env hk.connection)
    | recvFields =>
      obtain ⟨_, k, hk⟩ := hc.ok
      rw [exec, onConn_of hk.connection hk.drizzleCon]
      exact .reads (.inr (.inr rfl)) hk (recvFields_reads env hk.connection (hstate rfl))
    | ret rc => exact .even hp (even_processed env rc) (by simp)
    | done rc => exact .even hp (even_done env rc) (by simp)
    | _ => cases hp

end St

/-! ## Paused requests -/

/-- Where the processing of a paused request may stand. -/
def Pos.suspends : Pos → Bool
  | loop => true
  | handlerTail => true
  | event _ => true
  | processEvents => true
  | ret _ => true
  | next _ => true
  | finalize _ => true
  | _ => false

/-- The request is about to be finalized, or the attempt to fail. -/
def Pos.ends : Pos → Bool
  | next _ => true
  | finalize _ => true
  | _ => false

lemma Pos.ne_finalize_after {p : Pos} {r : Req} (h : ∀ rc, p.after r ≠ .finalize rc) :
    ∀ rc, p ≠ .finalize rc := by
  rintro rc rfl
  exact h rc rfl

/-- The processing goes on waiting for the client. -/
def Pos.rests : Pos → Bool
  | loop => true
  | handlerTail => true
  | processEvents => true
  | event (.clientWrite true) => false
  | event _ => true
  | ret rc => !rc.failed
  | _ => false

/-- A request whose reading is paused does not wait for the database: everything that was
produced has been handed to the output filter. -/
structure Suspended (r : Req) (c : Conn) : Prop where
  flushed : r.out.Flushed
  handler : r.writeHandler = .drainOutput
  read : c.read.timer = none
  write : c.write.timer = none

/-- What is claimed of a request whose reading is paused. -/
structure Waiting (p : Pos) (r : Req) (c : Conn) : Prop where
  called : r.calls ≠ []
  state : r.state.receives
  pos : p.suspends
  suspended : p.ends = false → Suspended r c

variable {s s' : St} {p : Pos} {k : ℕ}

lemma St.Paused.suspended (h : s.Paused k) : Suspended s.r (s.w.conns k) where
  flushed := h.flushed
  handler := h.handler
  read := by rw [h.read]
  write := by rw [h.write]

lemma Pos.suspends_after {r : Req} (h : p.suspends) : (p.after r).suspends := by
  cases p with
  | loop =>
    unfold after settle
    cases r.inHandler <;> rfl
  | _ => exact h

lemma Pos.rests_after {r : Req} (h : (p.after r).rests) : p.rests := by
  cases p with
  | loop => rfl
  | _ => exact h

lemma Pos.ends_of_rests (h : p.rests) : p.ends = false := by
  cases p with
  | next => cases h
  | finalize => cases h
  | _ => rfl

lemma Waiting.settle {r : Req} {c : Conn} (h : Waiting p r c) : Waiting (p.after r) r c where
  called := h.called
  state := h.state
  pos := Pos.suspends_after h.pos
  suspended hends := by
    refine h.suspended ?_
    cases p with
    | loop => rfl
    | _ => exact hends

namespace St

/-- The position that follows a suspended one, when nothing is resumed. -/
lemma suspends_exec (env : Env) (hc : Custody p s) (hs : p.suspends) (hpaused : s.r.outputPaused)
    (hstarted : s.r.queryStarted) (hev : ∀ timedout, p ≠ .event (.clientWrite timedout))
    (hlive : (s.exec env p).2.r.live) :
    (s.exec env p).1.suspends ∧ (s.exec env p).2.r.state = s.r.state ∧
    ((s.exec env p).1.ends = false → p.ends = false ∧ (s.exec env p).2.r.out = s.r.out ∧
      ((s.exec env p).1.rests → p.rests) ∧ (s.exec env p).2.conn = s.conn) := by
  cases p with
  | loop => exact ⟨rfl, rfl, fun _ => ⟨rfl, rfl, fun _ => rfl, rfl⟩⟩
  | handlerTail =>
    rcases handlerTail_cases s with ⟨heq, _⟩ | ⟨_, _, _, heq⟩
    · rw [exec, heq]
      exact ⟨rfl, rfl, fun _ => ⟨rfl, rfl, fun _ => rfl, rfl⟩⟩
    · rw [exec, heq]
      exact ⟨rfl, rfl, fun hends => Bool.noConfusion hends⟩
  | event e =>
    obtain ⟨k, hk⟩ := holds_of_event hc hstarted
    cases e with
    | db write timedout broken =>
      simp only [exec, handleEvent, dbHandler, modReq_r, hk.connection]
      split
      · exact ⟨rfl, rfl, fun hends => Bool.noConfusion hends⟩
      · split
        · exact ⟨rfl, rfl, fun hends => Bool.noConfusion hends⟩
        · exact ⟨rfl, rfl, fun _ => ⟨rfl, rfl, fun _ => rfl, rfl⟩⟩
    | clientWrite timedout => exact absurd rfl (hev timedout)
    | clientClosed delEvent =>
      simp only [exec, handleEvent, checkBrokenConnection]
      split <;> exact ⟨rfl, rfl, fun hends => Bool.noConfusion hends⟩
    | cleanup => exact ⟨rfl, rfl, fun hends => Bool.noConfusion hends⟩
  | processEvents =>
    rw [exec, processEvents, if_pos hpaused]
    exact ⟨rfl, rfl, fun _ => ⟨rfl, rfl, fun _ => rfl, rfl⟩⟩
  | ret rc =>
    rw [exec, processed]
    split
    · exact ⟨rfl, rfl, fun hends => Bool.noConfusion hends⟩
    · split
      · exact ⟨rfl, rfl, fun hends => Bool.noConfusion hends⟩
      · next hrc =>
        rw [if_neg (by simp [hpaused])]
        refine ⟨rfl, rfl, fun _ => ⟨rfl, rfl, fun _ => ?_, rfl⟩⟩
        simpa [Pos.rests] using hrc
  | next ft =>
    obtain ⟨s₁, hs₁, hnext⟩ := next_cases (s := s) ft hc.queues
    have hsame : s₁.r.queryStarted = s.r.queryStarted ∧ s₁.r.state = s.r.state := by
      split at hs₁
      · rw [hs₁]
        exact ⟨rfl, rfl⟩
      · cases hs₁ <;> exact ⟨rfl, rfl⟩
    rw [exec]
    generalize s.next ft = ps at hnext ⊢
    obtain ⟨p', s'⟩ := ps
    cases hnext with
    | stop => exact ⟨rfl, hsame.2, fun hends => Bool.noConfusion hends⟩
    | retry hfalse => cases (hsame.1.trans hstarted).symm.trans hfalse
  | finalize rc =>
    exact absurd ((exec_finalize env hc).2.symm.trans hlive) Bool.false_ne_true
  | _ => cases hs

/-- At these positions no call is made. -/
lemma suspends_calls (env : Env) (hc : Custody p s) (hp : p.suspends) :
    (s.exec env p).2.r.calls = s.r.calls := by
  cases hstays : p.stays with
  | false => exact exec_calls env hc hstays
  | true =>
    cases p with
    | loop => rfl
    | event e =>
      obtain ⟨k, hk⟩ := connection_of_event hc
      simp only [exec, handleEvent]
      split
      · unfold dbHandler
        simp only [modReq_r, hk]
        split
        · rfl
        · split <;> rfl
      · split
        · next hdrain =>
          obtain ⟨k, hk⟩ := holds_of_event hc (hc.ordered.drains hdrain)
          exact (quiet_drainOutput env _ hk.connection hk.drizzleCon).calls
        · rfl
        · rfl
      · unfold checkBrokenConnection
        split <;> rfl
      · rfl
    | processEvents =>
      simp only [exec, processEvents]
      split
      · rfl
      · split <;> rfl
    | ret rc =>
      have h := processed_cases (s := s) env rc
      rw [exec]
      generalize s.processed env rc = ps at h ⊢
      obtain ⟨p', s'⟩ := ps
      cases h <;> rfl
    | handlerTail => cases hstays
    | next => cases hstays
    | finalize => cases hstays
    | _ => cases hp

/-- A timer that expires is removed, and others are not touched. -/
lemma fire_timers (e : Event) (s : St) :
    ((e.fire s).conn.read.timer = s.conn.read.timer ∨ (e.fire s).conn.read.timer = none) ∧
    ((e.fire s).conn.write.timer = s.conn.write.timer ∨ (e.fire s).conn.write.timer = none) := by
  unfold Event.fire
  split
  · split
    · exact ⟨.inl rfl, .inl rfl⟩
    · next k hk =>
      split
      · rw [conn_of hk, conn_of (s := s.modWrite k NgxEvent.delTimer) hk, modWrite_w,
          Worker.modConn_conns_self]
        exact ⟨.inl rfl, .inr rfl⟩
      · rw [conn_of hk, conn_of (s := s.modRead k NgxEvent.delTimer) hk, modRead_w,
          Worker.modConn_conns_self]
        exact ⟨.inr rfl, .inl rfl⟩
  · exact ⟨.inl rfl, .inl rfl⟩
  · exact ⟨.inl rfl, .inl rfl⟩

end St

lemma Session.flows {t : Talk} (h : Session p s.r t) (env : Env) (hc : Custody p s)
    (hlive : s.r.live) : St.Flows s p (s.exec env p) := by
  refine St.exec_flows env hc ?_
  rintro rfl
  obtain ⟨_, hstate, _⟩ := h.fits hlive
  rw [hstate]
  rfl

/-! ## Runs -/

/-- What requests do whose reading is paused, as a claim about requests. -/
def Local.backpressure : Local where
  req _ p r c := r.live → r.outputPaused → Waiting p r c
  item _ _ _ := True

lemma Local.backpressure_kept : Local.backpressure.Kept fun _ p s => Known p s where
  init _ _ _ _ _ _ hpaused := Bool.noConfusion hpaused
  fire ev s _ _ h hlive hpaused := by
    obtain ⟨hread, hwrite⟩ := St.fire_timers ev s
    obtain ⟨⟨cw, hr⟩, _⟩ := St.fire_cases ev s
    have hw := h ((congrArg Req.live hr :).symm.trans hlive)
      ((congrArg Req.outputPaused hr :).symm.trans hpaused)
    have hs := hw.suspended rfl
    have hcalls : (ev.fire s).r.calls = s.r.calls := (congrArg Req.calls hr :)
    have hstate : (ev.fire s).r.state = s.r.state := (congrArg Req.state hr :)
    refine ⟨hcalls ▸ hw.called, hstate ▸ hw.state, rfl, fun _ => ⟨?_, ?_, ?_, ?_⟩⟩
    · rw [hr]
      exact hs.flushed
    · rw [hr]
      exact hs.handler
    · exact hread.elim (fun h => h.trans hs.read) id
    · exact hwrite.elim (fun h => h.trans hs.write) id
  client _ _ _ _ _ h hlive hpaused := by
    have hw := h hlive hpaused
    refine ⟨hw.called, hw.state, hw.pos, fun hends => ?_⟩
    have hs := hw.suspended hends
    exact ⟨⟨hs.flushed.outBufs, hs.flushed.filling⟩, hs.handler, hs.read, hs.write⟩
  exec env p s hc hd h _ hlive hpaused := by
    have hlive₀ := St.live_of_exec env hc hlive
    obtain ⟨t, hs⟩ := hd.session
    obtain ⟨t', hs'⟩ := St.session_exec env hc hs
    refine Waiting.settle ?_
    have hflows := hs.flows env hc hlive₀
    have hcalled : s.r.calls ≠ [] → (s.exec env p).2.r.calls ≠ [] := by
      obtain ⟨es, hes, _⟩ := St.exec_hist env hc
      have hcalls : (s.exec env p).2.r.calls = es.filterMap ReqEvent.call ++ s.r.calls := by
        rw [Req.calls, hes, List.filterMap_append]
        rfl
      rw [hcalls]
      exact fun hne hnil => hne (List.append_eq_nil_iff.mp hnil).2
    -- a request that was paused before
    have hold : s.r.outputPaused → (∀ timedout, p ≠ .event (.clientWrite timedout)) →
        (s.exec env p).2.r.flow = s.r.flow →
        Waiting (s.exec env p).1 (s.exec env p).2.r (s.exec env p).2.conn := by
      intro hpaused₀ hev hflow
      have hw := h hlive₀ hpaused₀
      obtain ⟨hpos, hstate, hrest⟩ := St.suspends_exec env hc hw.pos hpaused₀
        (hs.started hw.called) hev hlive
      refine ⟨hcalled hw.called, hstate ▸ hw.state, hpos, fun hends => ?_⟩
      obtain ⟨hends₀, hout, _, hconn⟩ := hrest hends
      have hsus := hw.suspended hends₀
      rw [hconn]
      refine ⟨hout ▸ hsus.flushed, ?_, hsus.read, hsus.write⟩
      exact (congrArg (fun f : Bool × WriteHandler × NgxEvent => f.2.1) hflow :).trans hsus.handler
    have hstay : ∀ {s' : St}, s'.r.flow = s.r.flow → s'.r.outputPaused →
        s.r.outputPaused := fun hflow hp => (congrArg Prod.fst hflow :).symm.trans hp
    cases hflows with
    | even hp heven hev =>
      have hpaused₀ := hstay heven.flow hpaused
      refine hold hpaused₀ (fun timedout heq => hev timedout heq ?_) heven.flow
      subst heq
      exact ((h hlive₀ hpaused₀).suspended rfl).handler
    | released hp hflow =>
      refine hold (hstay hflow hpaused) ?_ hflow
      rintro timedout rfl
      cases hp
    | @reads k hp hk hreads =>
      have hnot : s.r.outputPaused = false := by
        by_contra hpaused₀
        have hpos := (h hlive₀ (by simpa using hpaused₀)).pos
        rcases hp with rfl | rfl | rfl <;> cases hpos
      have hne : s.r.calls ≠ [] := by
        refine hs.calls_ne_nil ?_
        have hfits := hs.fits hlive₀
        rcases hp with rfl | rfl | rfl
        · rw [hfits.2]
          simp
        · rw [hfits.2]
          split <;> simp
        · rw [hfits.2.2.2]
          simp
      have hstays : p.stays := by rcases hp with rfl | rfl | rfl <;> rfl
      have hconn := (St.stays_exec env hc hstays).connection.trans hk.connection
      have hcalls := hcalled hne
      rw [St.conn_of hconn]
      generalize s.exec env p = ps at hreads hpaused hcalls ⊢
      cases hreads with
      | even heven =>
        have := heven.outputPaused
        rw [hpaused, hnot] at this
        cases this
      | paused hpauses hwait hstate => exact ⟨hcalls, hstate, rfl, fun _ => hwait.suspended⟩
      | failed hfail hstate =>
        rcases hfail with hsame | hwait
        · have hsame : _ = s.r.outputPaused := (congrArg Prod.fst hsame :)
          cases (hsame.trans hnot).symm.trans hpaused
        · exact ⟨hcalls, hstate, rfl, fun _ => hwait.suspended⟩
    | @drains k timedout hp hk hhandler hdrain =>
      subst hp
      have hconn := (St.stays_exec env hc rfl).connection.trans hk.connection
      rw [St.conn_of hconn]
      have hpaused₀ : s.r.outputPaused := by
        generalize (s.exec env (.event (.clientWrite timedout))).1 = p' at hdrain
        cases hdrain with
        | failed hrc hq ho hp => exact hp hpaused
        | waits hq ho hw hp => exact hp.symm.trans hpaused
        | resumed hq ho hw hp => cases hp.symm.trans hpaused
      have hw := h hlive₀ hpaused₀
      have hsus := hw.suspended rfl
      have hcalls := hcalled hw.called
      rw [St.conn_of hk.connection] at hsus
      generalize s.exec env (.event (.clientWrite timedout)) = ps at hdrain hpaused hcalls ⊢
      obtain ⟨p', s'⟩ := ps
      cases hdrain with
      | failed hrc hq ho hp =>
        have hstate : s'.r.state = s.r.state := (congrArg Req.state hq.req :)
        exact ⟨hcalls, hstate ▸ hw.state, rfl, fun hends => Bool.noConfusion hends⟩
      | waits hq ho hworker hp hhand hflushed hclient =>
        have hstate : s'.r.state = s.r.state := (congrArg Req.state hq.req :)
        refine ⟨hcalls, hstate ▸ hw.state, rfl, fun _ => ⟨hflushed hsus.flushed,
          hhand.trans hsus.handler, ?_, ?_⟩⟩
        · exact (congrArg (fun w : Worker => (w.conns k).read.timer) hworker).trans hsus.read
        · exact (congrArg (fun w : Worker => (w.conns k).write.timer) hworker).trans hsus.write
      | resumed hq ho hw hp => cases hp.symm.trans hpaused
  saved _ _ _ _ _ _ _ _ _ _ := trivial

/-! ## Resuming -/

namespace Out

variable {o : Out} {loc : LocConf} {f : FilterAns}

/-- The filter has consumed everything, and the client takes more. -/
structure Drained (f : FilterAns) (o : Out) : Prop where
  rc : f.rc = .ok
  buffered : f.buffered = false
  delayed : f.delayed = false
  consumed : o.unsent ≤ f.consumed

lemma unconsumed_updateChains (free busy : List Buf) (hfits : ∀ b ∈ busy, b.Fits)
    (h : unconsumed busy = 0) : (updateChains free busy).2 = [] := by
  induction busy generalizing free with
  | nil => rfl
  | cons b busy ih =>
    have hb := (hfits b List.mem_cons_self).pos
    rw [unconsumed_cons] at h
    have hpos : b.pos = b.data.length := by
      have : b.pending.length = 0 := by omega
      simp only [Buf.pending, List.length_drop] at this
      omega
    rw [updateChains, if_pos hpos]
    exact ih _ (fun c hc => hfits c (List.mem_cons_of_mem _ hc)) (by omega)

/-- When everything has been handed to the filter and the filter consumes it, the output is ready
again. -/
lemma outputBufs_drained (env : FlushEnv) (hloc : 0 < loc.maxBuffered) (hm : o.Measured)
    (hflushed : o.Flushed) (hd : Drained env.filter o) :
    (o.outputBufs env loc).1 = .ok ∧ (o.outputBufs env loc).2.ready loc := by
  obtain ⟨q, hq⟩ : ∃ q, q = if o.seenStreamEnd then
    { o with seenStreamEnd := false }.queueBuf env.link else (.ok, o) := ⟨_, rfl⟩
  -- there is nothing to be queued
  have hsame : q.1 = .ok ∧ q.2 = { o with seenStreamEnd := false } ∨ q = (.ok, o) := by
    rw [hq]
    split
    · left
      unfold queueBuf
      cases hb : o.outBuf with
      | none => exact ⟨rfl, rfl⟩
      | some b =>
        have hfill := hflushed.filling
        have hpos := (hm.room b hb).1.pos
        simp only [filling, hb, Option.elim, Buf.pending, List.drop_eq_nil_iff] at hfill
        dsimp only
        rw [if_pos (by omega)]
        exact ⟨rfl, rfl⟩
    · exact .inr rfl
  obtain ⟨o₁, hq₁, ho₁⟩ :
      ∃ o₁, q = (.ok, o₁) ∧ o₁ = { o with seenStreamEnd := o₁.seenStreamEnd } := by
    rcases hsame with ⟨h₁, h₂⟩ | h
    · exact ⟨q.2, by rw [← h₁], by rw [h₂]⟩
    · exact ⟨o, h, rfl⟩
  have hbufs : o₁.outBufs = [] := by rw [ho₁]; exact hflushed.outBufs
  have hheader : o₁.sendHeader env loc = (.ok, o₁) := by
    unfold sendHeader
    rw [if_pos (by simp [hbufs])]
  have hpending : ∀ o' : Out, o'.outBuf = o.outBuf → o'.bufferedOutput = 0 →
      o'.pendingOutput = 0 := by
    intro o' hout hbuf
    unfold pendingOutput
    rw [hbuf, hout]
    cases hb : o.outBuf with
    | none => rfl
    | some b =>
      have hfill := hflushed.filling
      simp only [filling, hb, Option.elim, Buf.pending, List.drop_eq_nil_iff] at hfill
      simp only
      omega
  unfold outputBufs
  simp only [← hq, hq₁]
  rw [if_neg (by simp)]
  simp only [hheader]
  rw [if_neg (by simp)]
  cases hsent : o₁.headerSent with
  | false =>
    -- without a header, nothing has been handed to the filter
    have hclosed : o.headerSent = false := by
      rw [ho₁] at hsent
      exact hsent
    obtain ⟨hbusy, hblocked⟩ := hm.opened hclosed
    have hzero : o₁.bufferedOutput = 0 := by
      have := hm.buffered
      rw [hbusy, hflushed.outBufs] at this
      rw [ho₁]
      exact this
    refine ⟨rfl, ?_⟩
    simp only [Bool.not_false, if_true, ready, Bool.and_eq_true, Bool.not_eq_true',
      decide_eq_true_eq]
    rw [hpending o₁ (by rw [ho₁]) hzero]
    exact ⟨by rw [ho₁]; exact hblocked, hloc⟩
  | true =>
    have hall : o₁.busyBufs ++ o₁.outBufs = o.busyBufs ++ o.outBufs := by rw [ho₁]
    obtain ⟨hfits, _, hlen, hun⟩ := consume_spec env.filter.consumed hm.fits
    have hrest : (o₁.callFilter env.filter).busyBufs ++ (o₁.callFilter env.filter).outBufs =
        consume env.filter.consumed (o.busyBufs ++ o.outBufs) := by
      rw [← hall]
      exact List.take_append_drop ..
    have hzero : unconsumed (consume env.filter.consumed (o.busyBufs ++ o.outBufs)) = 0 := by
      have := hd.consumed
      unfold unsent at this
      omega
    have hchains := unconsumed_updateChains (o₁.callFilter env.filter).freeBufs _ hfits hzero
    have hflush : o₁.flush env.filter = (.ok, (o₁.callFilter env.filter).recycle env.filter) := by
      unfold flush
      rw [hd.rc]
      rfl
    refine ⟨by simp [hflush], ?_⟩
    simp only [Bool.not_true, Bool.false_eq_true, if_false, hflush, ready, Bool.and_eq_true,
      Bool.not_eq_true', decide_eq_true_eq]
    rw [hpending ((o₁.callFilter env.filter).recycle env.filter) (by rw [ho₁]; rfl)]
    · exact ⟨by simp [recycle, hd.rc, hd.buffered, hd.delayed], hloc⟩
    · simp [recycle, hrest, hchains]

end Out

namespace St

variable {timedout : Bool}

/-- The first look at the output that finds everything consumed resumes the reading. -/
lemma drainOutput_drained (env : Env) (hk : s.Holds k) (hm : s.r.out.Measured)
    (hflushed : s.r.out.Flushed) (htime : timedout → s.r.out.delayed)
    (hdelay : s.r.out.delayed → timedout) (hd : Out.Drained env.flush.filter s.r.out)
    (hread : env.handleRead) : (s.drainOutput env timedout).1 = .processEvents ∧
      (s.drainOutput env timedout).2.r.outputPaused = false := by
  have hend : (s.r.out.endDelay timedout).delayed = false := by
    unfold Out.endDelay
    split
    · rfl
    · next hnot =>
      by_contra hdel
      exact hnot (hdelay (by simpa using hdel))
  have hsame : (s.r.out.endDelay timedout).Measured ∧ (s.r.out.endDelay timedout).Flushed ∧
      (s.r.out.endDelay timedout).unsent = s.r.out.unsent := by
    unfold Out.endDelay
    split
    · exact ⟨⟨hm.buffered, hm.fits, hm.room, hm.lastOut, hm.opened⟩,
        ⟨hflushed.outBufs, hflushed.filling⟩, rfl⟩
    · exact ⟨hm, hflushed, rfl⟩
  have hmax : 0 < s.r.loc.maxBuffered := Nat.lt_of_lt_of_le s.r.loc.bufSize_pos s.r.loc.bufSize_le
  obtain ⟨hok, hready⟩ := Out.outputBufs_drained env.flush hmax hsame.1 hsame.2.1
    ⟨hd.rc, hd.buffered, hd.delayed, hsame.2.2 ▸ hd.consumed⟩
  unfold drainOutput
  rw [if_neg (by simpa using htime)]
  simp only [hend, Bool.false_eq_true, if_false]
  rw [if_neg (not_not.mpr hok), if_neg (by simp [hready]),
    onConn_of (s := s.setOut ((s.r.out.endDelay timedout).outputBufs env.flush s.r.loc).2)
      hk.connection hk.drizzleCon]
  unfold resume
  simp only
  rw [if_neg (by simp [hread])]
  exact ⟨rfl, rfl⟩

end St

namespace Sys

/-- No step of the worker process makes a call for a request whose reading is paused. -/
lemma calls_of_paused {s : Sys} (ho : s.Owned) (hs : Local.backpressure.Holds s)
    (hrec : s.Recorded) {i : ℕ} {r : Req} (hi : s.reqs[i]? = some r) (hlive : r.live)
    (hpaused : r.outputPaused) (l : Label) :
    ∃ r', (s.step l).reqs[i]? = some r' ∧ r'.calls = r.calls := by
  refine req_step hi l rfl (fun e => ?_) (fun _ => rfl) fun env p hact => ?_
  · obtain ⟨⟨cw, hr⟩, _⟩ := St.fire_cases e (s.view r)
    exact (congrArg Req.calls hr :)
  · have hc := ho.custody hi
    have hw := hs.req i r hi hlive hpaused
    obtain ⟨t, ht⟩ := hrec.session.req i r hi
    rw [pos_of_active hact] at hc hw ht
    exact St.suspends_calls env hc hw.pos

/-- In all states of all runs: no step makes a call of the client library for a request whose
reading is paused.  As long as it is not being ended, no timer runs on its database connection,
everything that was produced has been handed to the output filter, and the write handler drains
the output.  When the output is drained, without a timeout of the client, and the filter consumes
everything, then the reading is resumed. -/
theorem paused_run (conf : Conf) (ls : List Label) {i : ℕ} {r : Req}
    (hi : (run conf ls).reqs[i]? = some r) (hlive : r.live) (hpaused : r.outputPaused) :
    (∀ l, ∃ r', ((run conf ls).step l).reqs[i]? = some r' ∧ r'.calls = r.calls) ∧
    (((run conf ls).pos i).ends = false → r.out.Flushed ∧ r.writeHandler = .drainOutput ∧
      ∀ k, r.connection = some k → ((run conf ls).w.conns k).read.timer = none ∧
        ((run conf ls).w.conns k).write.timer = none) ∧
    ∀ timedout, (run conf ls).active = some (i, .event (.clientWrite timedout)) →
      (timedout ↔ r.out.delayed) → ∀ env : Env, Out.Drained env.flush.filter r.out →
        env.handleRead → ((run conf ls).step (.run env)).pos i = .processEvents ∧
          ∃ r', ((run conf ls).step (.run env)).reqs[i]? = some r' ∧ r'.outputPaused = false := by
  have ho := owned_run conf ls
  have hs := Local.backpressure_kept.run conf (known_meets conf ls)
  have hm := Local.pending_kept.run conf (known_meets conf ls)
  have hw := hs.req i r hi hlive hpaused
  refine ⟨calls_of_paused ho hs (recorded_run conf ls) hi hlive hpaused, ?_, ?_⟩
  · intro hends
    have hsus := hw.suspended hends
    refine ⟨hsus.flushed, hsus.handler, fun k hk => ?_⟩
    have hread := hsus.read
    have hwrite := hsus.write
    rw [St.conn_of hk] at hread hwrite
    exact ⟨hread, hwrite⟩
  · intro timedout hact htime env hd hread
    have hpos := pos_of_active hact
    have hc := ho.custody hi
    rw [hpos] at hw hc
    obtain ⟨k, hk⟩ := St.holds_of_event hc (hc.ordered.state hw.state)
    have hsus := hw.suspended rfl
    obtain ⟨hnext, hresumed⟩ := St.drainOutput_drained (s := (run conf ls).view r) env hk
      (hm.req i r hi).measured hsus.flushed htime.mp htime.mpr hd hread
    have hexec : ((run conf ls).view r).exec env (.event (.clientWrite timedout)) =
        ((run conf ls).view r).drainOutput env timedout := by
      have hhandler : ((run conf ls).view r).r.writeHandler = .drainOutput := hsus.handler
      simp only [St.exec, St.handleEvent, hhandler]
    have hstep : (run conf ls).step (.run env) =
        (run conf ls).put i (((run conf ls).view r).drainOutput env timedout) := by
      simp only [step, hact, hi, hexec]
    obtain ⟨hlt, _⟩ := List.getElem?_eq_some_iff.mp hi
    rw [hstep]
    refine ⟨?_, _, List.getElem?_set_self hlt, hresumed⟩
    rw [pos_put, hnext]
    rfl

end Sys
end DrizzleNginx
