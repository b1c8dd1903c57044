/-
# What a step leaves alone

Most functions of the module work on the connection that the request holds, and neither get
nor give away one.  Two relations between the states before and after say so: `Stays`, for
all of these functions, and the stronger `Quiet`, for those that only handle output, timers
and events and do not call the client library.
-/
import DrizzleNginx.Model.Request

namespace DrizzleNginx

/-- A connection without its events. -/
def Conn.core (c : Conn) : Conn := { c with read := {}, write := {}, pauses := 0 }

/-- What identifies a connection: everything except its events and its history. -/
def Conn.ident (c : Conn) : Conn := { c.core with hist := [] }

/-- A request without what the functions about output change. -/
def Req.core (r : Req) : Req :=
  { r with
    out := {}
    clientWrite := {}
    writeHandler := .empty
    outputPaused := false
    readTimeout := 0
    hist := [] }

/-- A request without what changes while it stays with its connection. -/
def Req.fixed (r : Req) : Req :=
  { r.core with
    connError := false
    requestSent := false
    statusN := 0
    length := 0
    state := .connect
    drizzleRow := 0
    queryStarted := false
    failed := false
    hasSetNames := false }

/-- The event happens while the request stays with its connection. -/
def ReqEvent.inner : ReqEvent → Bool
  | connect .. => true
  | lib .. => true
  | paused => true
  | resumed => true
  | done .. => true
  | _ => false

/-- The call of the client library that the event tells of. -/
def ReqEvent.call : ReqEvent → Option LibCall
  | lib _ call => some call
  | _ => none

/-- The calls of the client library for a request, the newest one first. -/
def Req.calls (r : Req) : List LibCall := r.hist.filterMap ReqEvent.call

@[simp] lemma Req.log_calls (r : Req) (e : ReqEvent) :
    (r.log e).calls = e.call.toList ++ r.calls := by
  cases h : e.call <;> simp [Req.calls, Req.log, h]

/-- The request neither gets nor loses a connection, and touches no other one.  The calls of
the client library are made on its connection, and enter both histories. -/
structure Stays (s s' : St) : Prop where
  conf : s'.w.conf = s.w.conf
  pool : s'.w.pool = s.w.pool
  nconns : s'.w.nconns = s.w.nconns
  conns_of_ne : ∀ k, s.r.connection ≠ some k → s'.w.conns k = s.w.conns k
  ident : ∀ k, (s'.w.conns k).ident = (s.w.conns k).ident
  req : s'.r.fixed = s.r.fixed
  hist : ∃ es, s'.r.hist = es ++ s.r.hist ∧ (∀ e ∈ es, e.inner) ∧
    (∀ j call, .lib j call ∈ es → s.r.connection = some j) ∧
    ∀ k, s.r.connection = some k →
      (s'.w.conns k).hist = es.filterMap ReqEvent.call ++ (s.w.conns k).hist

/-- The functions about output, timers and events: the client library is not called, and only
pauses enter the history of the request. -/
structure Quiet (s s' : St) : Prop where
  conf : s'.w.conf = s.w.conf
  pool : s'.w.pool = s.w.pool
  nconns : s'.w.nconns = s.w.nconns
  conns_of_ne : ∀ k, s.r.connection ≠ some k → s'.w.conns k = s.w.conns k
  conn : ∀ k, (s'.w.conns k).core = (s.w.conns k).core
  req : s'.r.core = s.r.core
  hist : ∃ es, s'.r.hist = es ++ s.r.hist ∧ ∀ e ∈ es, e = .paused ∨ e = .resumed

/-! ## Staying with the connection -/

namespace Stays

variable {s s' s'' : St}

lemma refl (s : St) : Stays s s :=
  ⟨rfl, rfl, rfl, fun _ _ => rfl, fun _ => rfl, rfl, [], rfl, by simp, by simp, by simp⟩

lemma id (h : Stays s s') : s'.r.id = s.r.id := (congrArg Req.id h.req :)

lemma live (h : Stays s s') : s'.r.live = s.r.live := (congrArg Req.live h.req :)

lemma inHandler (h : Stays s s') : s'.r.inHandler = s.r.inHandler :=
  (congrArg Req.inHandler h.req :)

lemma connection (h : Stays s s') : s'.r.connection = s.r.connection :=
  (congrArg Req.connection h.req :)

lemma drizzleCon (h : Stays s s') : s'.r.drizzleCon = s.r.drizzleCon :=
  (congrArg Req.drizzleCon h.req :)

lemma trans (h : Stays s s') (h' : Stays s' s'') : Stays s s'' where
  conf := h'.conf.trans h.conf
  pool := h'.pool.trans h.pool
  nconns := h'.nconns.trans h.nconns
  conns_of_ne k hk := (h'.conns_of_ne k (by rwa [h.connection])).trans (h.conns_of_ne k hk)
  ident k := (h'.ident k).trans (h.ident k)
  req := h'.req.trans h.req
  hist := by
    obtain ⟨es, hes, hp, hlib, hcalls⟩ := h.hist
    obtain ⟨es', hes', hp', hlib', hcalls'⟩ := h'.hist
    refine ⟨es' ++ es, by rw [hes', hes, List.append_assoc], ?_, fun j call he => ?_,
      fun k hk => ?_⟩
    · simp only [List.mem_append]
      rintro e (he | he)
      · exact hp' e he
      · exact hp e he
    · rcases List.mem_append.mp he with he | he
      · exact h.connection.symm.trans (hlib' j call he)
      · exact hlib j call he
    · rw [hcalls' k (h.connection.trans hk), hcalls k hk, List.filterMap_append, List.append_assoc]

lemma drizzle (h : Stays s s') (k : ℕ) : (s'.w.conns k).drizzle = (s.w.conns k).drizzle :=
  (congrArg Conn.drizzle (h.ident k) :)

lemma fd (h : Stays s s') (k : ℕ) : (s'.w.conns k).fd = (s.w.conns k).fd :=
  (congrArg Conn.fd (h.ident k) :)

lemma freed (h : Stays s s') (k : ℕ) : (s'.w.conns k).freed = (s.w.conns k).freed :=
  (congrArg Conn.freed (h.ident k) :)

lemma peer (h : Stays s s') (k : ℕ) : (s'.w.conns k).peer = (s.w.conns k).peer :=
  (congrArg Conn.peer (h.ident k) :)

/-- Behind a step, change the request in what concerns neither its life nor its connection. -/
lemma modReq (h : Stays s s') {f : Req → Req} (hreq : (f s'.r).fixed = s'.r.fixed)
    (hhist : (f s'.r).hist = s'.r.hist) : Stays s (s'.modReq f) :=
  h.trans ⟨rfl, rfl, rfl, fun _ _ => rfl, fun _ => rfl, hreq, [], hhist, by simp, by simp, by simp⟩

lemma log (h : Stays s s') {e : ReqEvent} (he : e.inner) (hcall : e.call = none) :
    Stays s (s'.log e) := by
  refine h.trans ⟨rfl, rfl, rfl, fun _ _ => rfl, fun _ => rfl, rfl, [e], rfl, by simpa using he,
    ?_, fun k _ => by simp [hcall]⟩
  intro j call hmem
  obtain rfl := List.mem_singleton.mp hmem
  cases hcall

lemma setOut (h : Stays s s') (o : Out) : Stays s (s'.setOut o) :=
  h.modReq (f := fun r => { r with out := o }) rfl rfl

/-- Behind a step, change the events of the connection of the request. -/
lemma modConn (h : Stays s s') {k : ℕ} (hk : s.r.connection = some k) {f : Conn → Conn}
    (hf : ∀ c, (f c).core = c.core) : Stays s (s'.modConn k f) := by
  have hcore : ∀ j, ((s'.modConn k f).w.conns j).core = (s'.w.conns j).core := by
    intro j
    rw [St.modConn_w, Worker.modConn_conns]
    split
    case isTrue hj => rw [hf, hj]
    case isFalse => rfl
  refine h.trans ⟨rfl, rfl, rfl, fun j hj => ?_, fun j => ?_, rfl, [], rfl, by simp,
    by simp, fun j _ => (congrArg Conn.hist (hcore j) :)⟩
  · have hne : j ≠ k := by
      rintro rfl
      exact hj (h.connection.trans hk)
    rw [St.modConn_w, Worker.modConn_conns_of_ne f hne]
  · exact (congrArg (fun c : Conn => { c with hist := [] }) (hcore j) :)

lemma modRead (h : Stays s s') {k : ℕ} (hk : s.r.connection = some k)
    (f : NgxEvent → NgxEvent) : Stays s (s'.modRead k f) := h.modConn hk fun _ => rfl

lemma modWrite (h : Stays s s') {k : ℕ} (hk : s.r.connection = some k)
    (f : NgxEvent → NgxEvent) : Stays s (s'.modWrite k f) := h.modConn hk fun _ => rfl

lemma libCall (h : Stays s s') {k : ℕ} (hk : s.r.connection = some k) (call : LibCall) :
    Stays s (s'.libCall k call) := by
  refine h.trans ⟨rfl, rfl, rfl, fun j hj => ?_, fun j => ?_, rfl, [.lib k call], rfl,
    by simp [ReqEvent.inner], fun j c hmem => ?_, fun j hj => ?_⟩
  · have hne : j ≠ k := by
      rintro rfl
      exact hj (h.connection.trans hk)
    rw [St.libCall_w, Worker.modConn_conns_of_ne _ hne]
  · rw [St.libCall_w, Worker.modConn_conns]
    split
    case isTrue hj => rw [hj]; rfl
    case isFalse => rfl
  · obtain ⟨rfl, _⟩ := ReqEvent.lib.inj (List.mem_singleton.mp hmem)
    exact h.connection.trans hk
  · obtain rfl : k = j := Option.some.inj (hk.symm.trans (h.connection.symm.trans hj))
    simp [ReqEvent.call]

end Stays

/-! ## Quiet steps -/

namespace Quiet

variable {s s' s'' : St}

lemma refl (s : St) : Quiet s s :=
  ⟨rfl, rfl, rfl, fun _ _ => rfl, fun _ => rfl, rfl, [], rfl, by simp⟩

lemma connection (h : Quiet s s') : s'.r.connection = s.r.connection :=
  (congrArg Req.connection h.req :)

lemma drizzleCon (h : Quiet s s') : s'.r.drizzleCon = s.r.drizzleCon :=
  (congrArg Req.drizzleCon h.req :)

lemma trans (h : Quiet s s') (h' : Quiet s' s'') : Quiet s s'' where
  conf := h'.conf.trans h.conf
  pool := h'.pool.trans h.pool
  nconns := h'.nconns.trans h.nconns
  conns_of_ne k hk := (h'.conns_of_ne k (by rwa [h.connection])).trans (h.conns_of_ne k hk)
  conn k := (h'.conn k).trans (h.conn k)
  req := h'.req.trans h.req
  hist := by
    obtain ⟨es, hes, hp⟩ := h.hist
    obtain ⟨es', hes', hp'⟩ := h'.hist
    refine ⟨es' ++ es, by rw [hes', hes, List.append_assoc], ?_⟩
    simp only [List.mem_append]
    rintro e (he | he)
    · exact hp' e he
    · exact hp e he

lemma stays (h : Quiet s s') : Stays s s' where
  conf := h.conf
  pool := h.pool
  nconns := h.nconns
  conns_of_ne := h.conns_of_ne
  ident k := (congrArg (fun c : Conn => { c with hist := [] }) (h.conn k) :)
  req := (congrArg Req.fixed h.req :)
  hist := by
    obtain ⟨es, hes, hp⟩ := h.hist
    have hcall : ∀ e ∈ es, e.call = none := by
      intro e he
      rcases hp e he with rfl | rfl <;> rfl
    refine ⟨es, hes, fun e he => ?_, fun j call he => ?_, fun k _ => ?_⟩
    · rcases hp e he with rfl | rfl <;> rfl
    · cases hcall _ he
    · rw [List.filterMap_eq_nil_iff.mpr hcall]
      exact (congrArg Conn.hist (h.conn k) :)

/-- Behind a step, change what the functions about output may change. -/
lemma modReq (h : Quiet s s') {f : Req → Req} (hreq : (f s'.r).core = s'.r.core)
    (hhist : (f s'.r).hist = s'.r.hist) : Quiet s (s'.modReq f) :=
  h.trans ⟨rfl, rfl, rfl, fun _ _ => rfl, fun _ => rfl, hreq, [], hhist, by simp⟩

lemma log (h : Quiet s s') {e : ReqEvent} (he : e = .paused ∨ e = .resumed) :
    Quiet s (s'.log e) :=
  h.trans ⟨rfl, rfl, rfl, fun _ _ => rfl, fun _ => rfl, rfl, [e], rfl, by simpa using he⟩

lemma setOut (h : Quiet s s') (o : Out) : Quiet s (s'.setOut o) :=
  h.modReq (f := fun r => { r with out := o }) rfl rfl

/-- Behind a step, change the events of the connection of the request. -/
lemma modConn (h : Quiet s s') {k : ℕ} (hk : s.r.connection = some k) {f : Conn → Conn}
    (hf : ∀ c, (f c).core = c.core) : Quiet s (s'.modConn k f) where
  conf := h.conf
  pool := h.pool
  nconns := h.nconns
  conns_of_ne j hj := by
    have hne : j ≠ k := by
      rintro rfl
      exact hj hk
    rw [St.modConn_w, Worker.modConn_conns_of_ne f hne, h.conns_of_ne j hj]
  conn j := by
    rw [St.modConn_w, Worker.modConn_conns]
    split
    case isTrue hj => rw [hf, hj, h.conn]
    case isFalse => exact h.conn j
  req := h.req
  hist := h.hist

lemma modRead (h : Quiet s s') {k : ℕ} (hk : s.r.connection = some k)
    (f : NgxEvent → NgxEvent) : Quiet s (s'.modRead k f) := h.modConn hk fun _ => rfl

lemma modWrite (h : Quiet s s') {k : ℕ} (hk : s.r.connection = some k)
    (f : NgxEvent → NgxEvent) : Quiet s (s'.modWrite k f) := h.modConn hk fun _ => rfl

end Quiet

/-! ## Backpressure is quiet -/

namespace St

variable {s : St} {k : ℕ}

lemma quiet_delEvents (env : ReadyEnv) (hk : s.r.connection = some k) :
    Quiet s (s.delEvents env k).2 := by
  unfold delEvents
  split
  · exact .refl s
  · have h₁ := (Quiet.refl s).modRead hk fun ev => { ev with active := false }
    simp only
    split
    · exact h₁
    · dsimp only
      exact h₁.modWrite hk _

lemma quiet_pauseReading (hk : s.r.connection = some k) : Quiet s (s.pauseReading k) := by
  have h₁ := (Quiet.refl s).modConn (f := fun c => { c.delTimers with pauses := c.pauses + 1 })
    hk fun _ => rfl
  exact (h₁.modReq rfl rfl).log (.inl rfl)

lemma quiet_pause (env : ReadyEnv) (hk : s.r.connection = some k) :
    Quiet s (s.pause env k).2 := by
  have h₁ := quiet_delEvents env hk
  unfold pause
  simp only
  split
  · exact h₁
  · exact h₁.trans (quiet_pauseReading (h₁.connection.trans hk))

lemma quiet_outputReady (env : ReadyEnv) (hk : s.r.connection = some k) :
    Quiet s (s.outputReady env k).2 := by
  have h₁ := Quiet.refl s
  unfold outputReady
  split
  · exact h₁
  · simp only
    split
    · dsimp only
      exact h₁.setOut _
    · split
      · dsimp only
        exact h₁.setOut _
      · split
        · dsimp only
          exact h₁.setOut _
        · exact (h₁.setOut _).trans (quiet_pause env hk)

lemma quiet_resume (env : Env) (hk : s.r.connection = some k) : Quiet s (s.resume env k).2 := by
  have h₁ := ((Quiet.refl s).modReq (f := fun r => { r with
    clientWrite := r.clientWrite.delTimer, outputPaused := false, writeHandler := .empty })
    rfl rfl).log (.inr rfl)
  unfold resume
  simp only
  split
  · exact h₁
  · dsimp only
    exact h₁.modRead hk _

lemma quiet_drainOutput (env : Env) (timedout : Bool) (hk : s.r.connection = some k)
    (hd : s.r.drizzleCon = some k) : Quiet s (s.drainOutput env timedout).2 := by
  have h₁ := Quiet.refl s
  unfold drainOutput
  split
  · exact h₁
  · simp only
    split
    · exact h₁
    · split
      · dsimp only
        exact h₁.setOut _
      · split
        · dsimp only
          exact (h₁.setOut _).modReq rfl rfl
        · have h₂ := h₁.setOut ((s.r.out.endDelay timedout).outputBufs env.flush s.r.loc).2
          rw [onConn_of (k := k) (h₂.connection.trans hk) (h₂.drizzleCon.trans hd)]
          exact h₂.trans (quiet_resume env (h₂.connection.trans hk))

/-! ## The state machine stays with the connection -/

lemma stays_processEvents : Stays s s.processEvents.2 := by
  unfold processEvents
  split
  · exact .refl s
  · split <;> exact .refl s

lemma stays_processed (env : Env) (rc : Rc) : Stays s (s.processed env rc).2 := by
  have h₁ := Stays.refl s
  unfold processed
  split
  · exact h₁
  · split
    · exact h₁
    · split
      · simp only
        split <;> exact h₁.setOut _
      · exact h₁

lemma stays_connect (env : Env) (hk : s.r.connection = some k) :
    Stays s (s.connect env k k).2 := by
  have h₁ := (Stays.refl s).log (e := .connect k env.con) rfl rfl
  unfold connect
  simp only
  split
  · exact h₁
  · exact h₁.modWrite hk _
  · exact h₁.modWrite hk _

lemma stays_queryOk (env : Env) (h : ResultHeader) : Stays s (s.queryOk env h).2 := by
  have h₁ := Stays.refl s
  unfold queryOk
  split
  · split
    · exact h₁
    · dsimp only
      exact h₁.modReq rfl rfl
  · simp only
    split <;> exact h₁.setOut _

lemma stays_queried (ret : QueryRet) (hk : s.r.connection = some k) :
    Stays s (s.queried k ret) :=
  ((Stays.refl s).modReq (f := fun r => { r with queryStarted := true }) rfl rfl).libCall hk _

lemma stays_sendQuery (env : Env) (hk : s.r.connection = some k) :
    Stays s (s.sendQuery env k k).2 := by
  have h₂ := stays_queried env.query hk
  unfold sendQuery
  simp only
  split
  · split
    · exact h₂
    · dsimp only
      exact (h₂.modWrite hk _).modReq rfl rfl
  · have h₃ := h₂.modWrite hk NgxEvent.delTimer
    split
    · dsimp only
      exact h₃.modReq rfl rfl
    · exact h₃
  · exact h₂.modWrite hk _
  · exact (h₂.modWrite hk _).trans (stays_queryOk env _)

lemma stays_enter (state : DbState) (timeout : Msec) (hk : s.r.connection = some k) :
    Stays s (s.enter state timeout k) := by
  unfold enter
  split
  · exact ((Stays.refl s).modRead hk _).modReq rfl rfl
  · exact .refl s

lemma stays_recvCols (env : Env) (hk : s.r.connection = some k) :
    Stays s (s.recvCols env k k).2 := by
  have h₁ := stays_enter .recvCols s.r.loc.recvColsTimeout hk
  have h₂ := h₁.trans (quiet_outputReady env.ready (h₁.connection.trans hk)).stays
  unfold recvCols
  simp only
  split
  · exact h₂
  · split
    · exact h₂.libCall hk _
    · exact h₂.libCall hk _
    · dsimp only
      exact (h₂.libCall hk _).setOut _
    · dsimp only
      exact (h₂.libCall hk _).modRead hk _

lemma stays_rowOk (env : Env) (row : UInt64) (hk : s.r.connection = some k) :
    Stays s (s.rowOk env k row).2 := by
  have h₁ := (Stays.refl s).modReq (f := fun r => { r with
    drizzleRow := row, out := (s.r.out.outputRow env.emit s.r.loc row).2 }) rfl rfl
  have h₂ := h₁.modRead hk NgxEvent.delTimer
  unfold rowOk
  simp only
  split
  · exact h₁
  · split
    · exact h₁
    · split
      · dsimp only
        exact h₂.modReq rfl rfl
      · exact h₂

lemma stays_recvRows (env : Env) (hk : s.r.connection = some k) :
    Stays s (s.recvRows env k k).2 := by
  have h₁ := stays_enter .recvRows s.r.loc.recvRowsTimeout hk
  have h₂ := h₁.trans (quiet_outputReady env.ready (h₁.connection.trans hk)).stays
  unfold recvRows
  simp only
  split
  · exact h₂
  · split
    · exact h₂
    · split
      · exact h₂.libCall hk _
      · exact h₂.libCall hk _
      · have h₃ := h₂.libCall hk
          (.rowRead ((s.enter .recvRows s.r.loc.recvRowsTimeout k).outputReady env.ready k).2.r.id
            env.row)
        exact h₃.trans (stays_rowOk env _ (h₃.connection.trans hk))

lemma stays_recvFields (env : Env) (hk : s.r.connection = some k) :
    Stays s (s.recvFields env k k).2 := by
  have h₁ := (quiet_outputReady env.ready hk).stays
  unfold recvFields
  simp only
  split
  · exact h₁
  · split
    · exact h₁.libCall hk _
    · dsimp only
      exact (h₁.libCall hk _).modReq rfl rfl
    · exact h₁.libCall hk _
    · dsimp only
      exact (h₁.libCall hk _).setOut _

lemma stays_done (env : Env) (rc : Rc) : Stays s (s.done env rc).2 := by
  have h₁ := ((Stays.refl s).setOut (s.r.out.outputBufs env.flush s.r.loc).2).log
    (e := .done rc (s.r.out.outputBufs env.flush s.r.loc).1) rfl rfl
  unfold done
  simp only
  split
  · dsimp only
    exact h₁.modReq rfl rfl
  · dsimp only
    exact h₁.modReq rfl rfl

end St
end DrizzleNginx
