/-
# Why a request ends

A request is finalized with a return code or a status, and this is all that an access log or a
client gets to know about a failure.  So it should be possible to read it backwards: from the code
to what has happened.  In every run, whatever fails, each code with which a request is finalized has
a reason in the past of this request, and there are no other codes than those listed here.
-/
import DrizzleNginx.Proofs.Buffers
import DrizzleNginx.Proofs.Overflow

namespace DrizzleNginx

/-! ## When nginx refuses nothing -/

/-- Nothing that the output of a chain asks for is refused. -/
structure FlushEnv.Serves (env : FlushEnv) : Prop where
  link : env.link
  setHeader : env.setHeader
  header : env.header.failed = false
  filter : env.filter.rc.failed = false

/-- Nothing that the emission of a piece asks for is refused. -/
structure EmitEnv.Serves (env : EmitEnv) : Prop where
  link : env.link
  flush : env.flush.Serves
  mem : env.mem
  submit : env.submit

/-- Nothing that a look at the output asks for is refused. -/
structure ReadyEnv.Serves (env : ReadyEnv) : Prop where
  link : env.link
  flush : env.flush.Serves
  delRead : env.delRead
  delWrite : env.delWrite
  handleWrite : env.handleWrite

/-- Nothing that a step asks nginx for is refused, but for what concerns the peer. -/
structure Env.Serves (env : Env) : Prop where
  allocState : env.allocState
  reinit : env.reinit
  allocBody : env.allocBody
  ready : env.ready.Serves
  emit : env.emit.Serves
  flush : env.flush.Serves
  handleWrite : env.handleWrite
  handleRead : env.handleRead

namespace Out

variable {o : Out} {loc : LocConf}

lemma queueBuf_serves {link : Bool} (h : link) : (o.queueBuf link).1 = .ok := by
  subst h
  unfold queueBuf
  split
  · rfl
  · split <;> rfl

lemma outputBufs_serves {env : FlushEnv} (h : env.Serves) : (o.outputBufs env loc).1 = .ok := by
  obtain ⟨q, hq⟩ : ∃ q, q = if o.seenStreamEnd then
    { o with seenStreamEnd := false }.queueBuf env.link else (.ok, o) := ⟨_, rfl⟩
  have hqueue : q.1 = .ok := by
    rw [hq]
    split
    · exact queueBuf_serves h.link
    · rfl
  have hheader : ∀ o : Out, (o.sendHeader env loc).1 = .ok := by
    intro o
    unfold sendHeader
    simp only [h.setHeader, h.header, Bool.not_true, Bool.and_false, Bool.false_eq_true, if_false]
    split <;> rfl
  have hflush : ∀ o : Out, (o.flush env.filter).1 = .ok := by
    intro o
    simp [flush, h.filter]
  unfold outputBufs
  simp only [← hq, hqueue, hheader, ne_eq, not_true_eq_false, if_false]
  split
  · rfl
  · exact hflush _

lemma requestMem_serves {env : EmitEnv} {len : ℕ} (h : env.Serves) :
    ∃ o', o.requestMem env loc len = (true, o') ∧ o'.outBuf.isSome := by
  have hmem := requestMem_outcome env loc len o
  generalize o.requestMem env loc len = res at hmem ⊢
  obtain ⟨b, o'⟩ := res
  cases hmem with
  | available havail => exact ⟨_, rfl, havail.1⟩
  | notQueued hq => exact absurd (queueBuf_serves h.link) hq
  | notSent hq ho => exact absurd (outputBufs_serves h.flush) ho
  | @noMemory _ o₂ hq ho hnone =>
    exfalso
    unfold newBuf at hnone
    simp only [h.mem, if_true] at hnone
    split at hnone
    · split at hnone <;> cases hnone
    · cases hnone
  | newBuf hq ho hb => exact ⟨_, rfl, rfl⟩

lemma emit_serves {env : EmitEnv} {size : ℕ} {bytes : Bytes} {last : Bool} (h : env.Serves)
    (hsize : bytes.length = size) : (o.emit env loc size bytes last).1 = .ok := by
  obtain ⟨o', hmem, hbuf⟩ : ∃ o', o.requestMem env loc size = (true, o') ∧ o'.outBuf.isSome :=
    requestMem_serves h
  have hsubmit : ∀ o : Out, o.outBuf.isSome → (o.submitMem env.submit bytes).1 = .ok := by
    intro o hbuf
    obtain ⟨b, hb⟩ := Option.isSome_iff_exists.mp hbuf
    unfold submitMem
    simp only [hb]
    split
    · exact queueBuf_serves h.submit
    · rfl
  unfold emit
  simp only [hmem, hsize, Bool.not_true, Bool.false_eq_true, if_false, ne_eq, not_true_eq_false]
  refine hsubmit _ ?_
  split <;> exact hbuf

/-- A piece with as many bytes as have been requested is emitted unless nginx refuses something. -/
lemma emit_failed {env : EmitEnv} {size : ℕ} {bytes : Bytes} {last : Bool}
    (hf : (o.emit env loc size bytes last).1.failed) :
    (o.emit env loc size bytes last).1 = .error ∧ (bytes.length = size → ¬ env.Serves) := by
  rcases emit_cases env loc size bytes last o with ⟨hok, _⟩ | ⟨herr, _⟩
  · rw [hok] at hf
    cases hf
  · refine ⟨herr, fun hsize henv => ?_⟩
    cases herr.symm.trans (emit_serves henv hsize)

end Out

/-! ## Reasons -/

/-- What is left of the past of a request: its history, the positions where it has been, whether its
client has left, whether the pool was full when it looked for a connection, and whether nginx has
refused something that it asked for. -/
structure Past where
  hist : List ReqEvent
  was : Pos → Prop
  left : Prop
  full : Prop
  refused : Prop

/-- The later past of a request. -/
structure Past.Le (h h' : Past) : Prop where
  hist : h.hist ⊆ h'.hist
  was : ∀ p, h.was p → h'.was p
  left : h.left → h'.left
  full : h.full → h'.full
  refused : h.refused → h'.refused

/-- A piece of the result could not be read. -/
def LibCall.readFails : LibCall → Prop
  | columnRead _ (.fail _) => True
  | rowRead _ (.fail _) => True
  | fieldRead _ (.fail _) => True
  | _ => False

/-- The chunk does not have the data that it announces. -/
def FieldRead.Short (f : FieldRead) : Prop :=
  (Rds.fieldBytes .little f).length ≠ Rds.fieldSize f

lemma length_fieldBytes (e e' : Rds.Endian) (f : FieldRead) :
    (Rds.fieldBytes e f).length = (Rds.fieldBytes e' f).length := by
  simp only [Rds.fieldBytes, List.length_append, Nat.add_right_cancel_iff]
  split
  · rw [Rds.length_uintBytes, Rds.length_uintBytes]
  · rfl

/-- Why a request is finalized with a code. -/
inductive Reason (h : Past) : Rc → Prop
  /-- The result has been read to its end. -/
  | complete {flush : Rc} (hdone : .done .done flush ∈ h.hist) : Reason h .ok
  /-- nginx has freed the request. -/
  | freed (hwas : h.was (.event .cleanup)) : Reason h .done
  /-- The client has not taken anything for too long. -/
  | clientTimeout (hwas : h.was (.event (.clientWrite true))) : Reason h (.http 408)
  /-- The table does not exist. -/
  | noTable {k i : ℕ} {sql : Bytes}
      (hcall : .lib k (.query i false sql (.fail (.errorCode 1146))) ∈ h.hist) :
      Reason h (.http 410)
  | clientLeft (hleft : h.left) : Reason h (.http 499)
  /-- A query has failed in another way. -/
  | query {k i : ℕ} {names : Bool} {sql : Bytes} {err : DrizzleError} (herr : err ≠ .errorCode 1146)
      (hcall : .lib k (.query i names sql (.fail err)) ∈ h.hist) : Reason h (.http 500)
  /-- The event of the client could not be removed. -/
  | notRemoved (hwas : h.was (.event (.clientClosed false))) : Reason h (.http 500)
  | peerError {c : Option ℕ} (hget : .getPeer .error c ∈ h.hist) : Reason h (.http 500)
  | refused (hrefused : h.refused) : Reason h (.http 500)
  /-- No server, or no connection to the last one that was left. -/
  | noPeer {rc : Rc} {c : Option ℕ} (hrc : rc = .busy ∨ rc = .declined)
      (hget : .getPeer rc c ∈ h.hist) : Reason h (.http 502)
  | notConnected {k : ℕ} {err : DrizzleError} (hconn : .connect k (.fail err) ∈ h.hist) :
      Reason h (.http 502)
  /-- The connection was found to be broken. -/
  | broken {w t : Bool} (hwas : h.was (.event (.db w t true))) : Reason h (.http 502)
  /-- The answer to the query that sets the charset says that it has failed. -/
  | setNames {k i : ℕ} {sql : Bytes} {header : ResultHeader} (hcode : header.errorCode ≠ 0)
      (hcall : .lib k (.query i true sql (.ok header)) ∈ h.hist) : Reason h (.http 502)
  | read {k : ℕ} {call : LibCall} (hcall : .lib k call ∈ h.hist) (hfails : call.readFails) :
      Reason h (.http 502)
  | short {k i : ℕ} {f : FieldRead} (hcall : .lib k (.fieldRead i (.ok f)) ∈ h.hist)
      (hshort : f.Short) : Reason h (.http 502)
  | notEmitted (hrefused : h.refused) : Reason h (.http 502)
  /-- The pool rejects the request. -/
  | overflow (hfull : h.full) : Reason h (.http 503)
  /-- The server has not answered in time. -/
  | timeout {w b : Bool} (hwas : h.was (.event (.db w true b))) : Reason h (.http 504)
  /-- The output filter has failed for what had waited for the client. -/
  | notSent (hrefused : h.refused) : Reason h .error

lemma Reason.le {h h' : Past} {rc : Rc} (hr : Reason h rc) (hle : h.Le h') : Reason h' rc := by
  cases hr with
  | complete hdone => exact .complete (hle.hist hdone)
  | freed hwas => exact .freed (hle.was _ hwas)
  | clientTimeout hwas => exact .clientTimeout (hle.was _ hwas)
  | noTable hcall => exact .noTable (hle.hist hcall)
  | clientLeft hleft => exact .clientLeft (hle.left hleft)
  | query herr hcall => exact .query herr (hle.hist hcall)
  | notRemoved hwas => exact .notRemoved (hle.was _ hwas)
  | peerError hget => exact .peerError (hle.hist hget)
  | refused hrefused => exact .refused (hle.refused hrefused)
  | noPeer hrc hget => exact .noPeer hrc (hle.hist hget)
  | notConnected hconn => exact .notConnected (hle.hist hconn)
  | broken hwas => exact .broken (hle.was _ hwas)
  | setNames hcode hcall => exact .setNames hcode (hle.hist hcall)
  | read hcall hfails => exact .read (hle.hist hcall) hfails
  | short hcall hshort => exact .short (hle.hist hcall) hshort
  | notEmitted hrefused => exact .notEmitted (hle.refused hrefused)
  | overflow hfull => exact .overflow (hle.full hfull)
  | timeout hwas => exact .timeout (hle.was _ hwas)
  | notSent hrefused => exact .notSent (hle.refused hrefused)

/-- The reason of the code with which a request is going to be finalized from this position is in
its past. -/
def Pos.Explained (h : Past) : Pos → Prop
  | dbdConnected rc => ∃ c, .getPeer rc c ∈ h.hist
  | ret .error => Reason h (.http 502)
  | ret rc => rc.failed → Reason h rc
  | done rc => rc ≠ .done → Reason h rc
  | next .timeout => Reason h (.http 504)
  | next _ => Reason h (.http 502)
  | finalize rc => Reason h rc
  | _ => True

lemma Pos.Explained.le {h h' : Past} {p : Pos} (hp : p.Explained h) (hle : h.Le h') :
    p.Explained h' := by
  cases p with
  | dbdConnected rc => exact Exists.imp (fun _ hget => hle.hist hget) hp
  | ret rc => cases rc <;> first | exact Reason.le hp hle | exact fun hf => (hp hf).le hle
  | done rc => exact fun hne => (hp hne).le hle
  | next ft => cases ft <;> exact Reason.le hp hle
  | finalize rc => exact Reason.le hp hle
  | _ => trivial

lemma Pos.Explained.after {h : Past} {p : Pos} (hp : p.Explained h) (r : Req) :
    (p.after r).Explained h := by
  unfold Pos.after Pos.settle
  cases p with
  | loop => cases r.inHandler <;> trivial
  | _ => exact hp

/-! ## The state functions -/

namespace St

variable {s s' : St} {p : Pos} {k : ℕ} {h h' : Past} {env : Env}

lemma outputReady_serves (henv : env.Serves) :
    (s.outputReady env.ready k).1 ≠ .error := by
  have hready := henv.ready
  have hpause : ∀ s : St, (s.pause env.ready k).1 ≠ .error := by
    intro s
    have hdel : (s.delEvents env.ready k).1 := by
      unfold delEvents
      simp [hready.delRead, hready.delWrite]
    unfold pause
    simp [hdel, hready.handleWrite]
  unfold outputReady
  simp only [Out.queueBuf_serves hready.link, Out.outputBufs_serves hready.flush, ne_eq,
    not_true_eq_false, if_false]
  split
  · simp
  · split
    · simp
    · exact hpause _

/-- The output was not ready: it waits for the client, or nginx has refused something. -/
lemma explained_ready {rc : Rc} (hk : s.r.connection = some k)
    (hrc : rc = (s.outputReady env.ready k).1) (hne : rc ≠ .ok)
    (hrefused : ¬ env.Serves → h.refused) : (Pos.ret rc).Explained h := by
  have hready := outputReady_cases env.ready hk
  have hserves : ¬ (s.outputReady env.ready k).1 ≠ .error → ¬ env.Serves := mt outputReady_serves
  rw [← hrc] at hready hserves
  generalize (s.outputReady env.ready k).2 = s' at hready
  cases hready with
  | ready => exact absurd rfl hne
  | paused => exact fun hf => absurd hf (by simp [Rc.failed])
  | failed => exact .notEmitted (hrefused (hserves (not_not.mpr rfl)))

/-- A piece has not been emitted: nginx has refused something, or the piece has too few bytes. -/
lemma explained_emit {size : ℕ} {bytes : Bytes} {last : Bool} {loc : LocConf} {o : Out}
    (hshort : bytes.length ≠ size → Reason h (.http 502)) (hrefused : ¬ env.Serves → h.refused)
    (hf : (o.emit env.emit loc size bytes last).1.failed) :
    (Pos.ret (o.emit env.emit loc size bytes last).1).Explained h := by
  obtain ⟨herr, hserves⟩ := Out.emit_failed hf
  rw [herr]
  by_cases hsize : bytes.length = size
  · exact .notEmitted (hrefused fun henv => hserves hsize henv.emit)
  · exact hshort hsize

lemma explained_connect (hrefl : (s.connect env k k).2.r.hist ⊆ h.hist) :
    (s.connect env k k).1.Explained h := by
  unfold connect at hrefl ⊢
  cases hret : env.con with
  | ioWait => exact fun hf => absurd hf (by simp [Rc.failed])
  | ok => trivial
  | fail err =>
    simp only [hret] at hrefl
    exact .notConnected (hrefl List.mem_cons_self)

lemma hist_sendQuery : (s.sendQuery env k k).2.r.hist =
    .lib k (.query s.r.id s.r.sendsSetNames s.r.queryToSend env.query) :: s.r.hist := by
  have hok : ∀ (s : St) (header : ResultHeader), (s.queryOk env header).2.r.hist = s.r.hist := by
    intro s header
    unfold queryOk
    split
    · split <;> rfl
    · dsimp only
      split <;> rfl
  unfold sendQuery
  dsimp only
  split
  · next hret =>
    rw [hret]
    split <;> rfl
  · next hret =>
    rw [hret]
    split <;> rfl
  · next hret =>
    rw [hret]
    rfl
  · next hret =>
    rw [hret]
    exact hok ..

lemma explained_queryOk {header : ResultHeader} {sql : Bytes} (hrefused : ¬ env.Serves → h.refused)
    (hcall : .lib k (.query s.r.id s.r.sendsSetNames sql (.ok header)) ∈ h.hist) :
    (s.queryOk env header).1.Explained h := by
  unfold queryOk
  split
  · next hn =>
    rw [hn] at hcall
    split
    · next hcode => exact .setNames hcode hcall
    · trivial
  · dsimp only
    split
    · next hf =>
      refine explained_emit (fun hsize => absurd ?_ hsize) hrefused hf
      have hmod := Nat.mod_le header.error.length (2 ^ 16)
      simp only [Rds.resultHeaderBytes, List.length_append, Rds.length_uintBytes, List.length_take,
        List.length_singleton]
      omega
    · split
      · exact fun hne => absurd rfl hne
      · trivial

lemma explained_sendQuery (hrefused : ¬ env.Serves → h.refused)
    (hcall : .lib k (.query s.r.id s.r.sendsSetNames s.r.queryToSend env.query) ∈ h.hist) :
    (s.sendQuery env k k).1.Explained h := by
  unfold sendQuery
  cases hret : env.query with
  | ioWait =>
    dsimp only
    split <;> exact fun hf => absurd hf (by simp [Rc.failed])
  | fail err =>
    rw [hret] at hcall
    dsimp only
    split
    · next heq => cases heq
    · next heq =>
      cases heq
      split
      · trivial
      · next hn =>
        have hn : ¬ s.r.sendsSetNames := hn
        rw [(Bool.not_eq_true _).mp hn] at hcall
        exact fun _ => .noTable hcall
    · next herr heq =>
      cases heq
      exact fun _ => .query (fun heq => herr (heq ▸ rfl)) hcall
    · next heq => cases heq
  | ok header =>
    rw [hret] at hcall
    exact explained_queryOk hrefused hcall

lemma explained_recvCols (hk : s.r.connection = some k) (hrefused : ¬ env.Serves → h.refused) :
    (s.recvCols env k k).2.r.hist ⊆ h.hist → (s.recvCols env k k).1.Explained h := by
  have hk' : (s.enter .recvCols s.r.loc.recvColsTimeout k).r.connection = some k := by
    unfold enter
    split <;> exact hk
  unfold recvCols
  dsimp only
  split
  · next hrc => exact fun _ => explained_ready hk' rfl hrc hrefused
  · cases hret : env.column with
    | ioWait => exact fun _ hf => absurd hf (by simp [Rc.failed])
    | fail err => exact fun hhist => .read (hhist List.mem_cons_self) trivial
    | ok col =>
      cases col with
      | none => exact fun _ => trivial
      | some col =>
        intro _
        dsimp only
        split
        · next hf =>
          refine explained_emit (fun hsize => absurd ?_ hsize) hrefused hf
          have hmod := Nat.mod_le col.name.length (2 ^ 16)
          simp only [Rds.colBytes, List.length_append, Rds.length_uintBytes, List.length_take]
          omega
        · trivial

lemma explained_recvRows (hk : s.r.connection = some k) (hrefused : ¬ env.Serves → h.refused) :
    (s.recvRows env k k).2.r.hist ⊆ h.hist → (s.recvRows env k k).1.Explained h := by
  have hk' : (s.enter .recvRows s.r.loc.recvRowsTimeout k).r.connection = some k := by
    unfold enter
    split <;> exact hk
  unfold recvRows
  dsimp only
  split
  · next hrc => exact fun _ => explained_ready hk' rfl hrc hrefused
  · split
    · exact fun _ => trivial
    · cases hret : env.row with
      | ioWait => exact fun _ hf => absurd hf (by simp [Rc.failed])
      | fail err => exact fun hhist => .read (hhist List.mem_cons_self) trivial
      | ok row =>
        intro _
        unfold rowOk
        dsimp only
        split
        · next hf => exact explained_emit (fun hsize => absurd rfl hsize) hrefused hf
        · split
          · trivial
          · split
            · trivial
            · exact fun hne => absurd rfl hne

lemma explained_recvFields (hk : s.r.connection = some k) (hrefused : ¬ env.Serves → h.refused) :
    (s.recvFields env k k).2.r.hist ⊆ h.hist → (s.recvFields env k k).1.Explained h := by
  unfold recvFields
  dsimp only
  split
  · next hrc => exact fun _ => explained_ready hk rfl hrc hrefused
  · cases hret : env.field with
    | ioWait => exact fun _ hf => absurd hf (by simp [Rc.failed])
    | rowEnd => exact fun _ => trivial
    | fail err => exact fun hhist => .read (hhist List.mem_cons_self) trivial
    | ok chunk =>
      dsimp only
      intro hhist
      split
      · next hf =>
        unfold Out.outputField at hf ⊢
        split at hf
        · cases hf
        · next hann =>
          rw [if_neg hann]
          refine explained_emit (fun hsize => .short (hhist List.mem_cons_self) ?_) hrefused hf
          rwa [FieldRead.Short, length_fieldBytes]
      · trivial

/-! ## Every step -/

lemma explained_drainOutput {timedout : Bool} (hwas : timedout → Reason h (.http 408))
    (hrefused : ¬ env.Serves → h.refused) : (s.drainOutput env timedout).1.Explained h := by
  have hwait : ∀ s : St, ((if env.handleWrite then .loop else .finalize (.http 500), s) :
      Pos × St).1.Explained h := by
    intro s
    dsimp only
    split
    · trivial
    · next hwrite => exact Reason.refused (hrefused fun henv => hwrite henv.handleWrite)
  unfold drainOutput
  split
  · next htimedout =>
    simp only [Bool.and_eq_true] at htimedout
    exact hwas htimedout.1
  · dsimp only
    split
    · exact hwait s
    · split
      · next hrc =>
        exact Reason.notSent (hrefused fun henv => hrc (Out.outputBufs_serves henv.flush))
      · split
        · exact hwait _
        · unfold onConn
          split
          · unfold resume
            dsimp only
            split
            · next hread =>
              refine Reason.refused (hrefused fun henv => ?_)
              rw [henv.handleRead] at hread
              cases hread
            · trivial
          · trivial

lemma explained_attach {rc : Rc} (hrefused : ¬ env.Serves → h.refused) :
    (s.attach env rc k).1.Explained h := by
  unfold attach
  dsimp only
  split
  · next hreinit =>
    refine Reason.refused (hrefused fun henv => ?_)
    simp only [henv.reinit, Bool.not_true, Bool.and_false] at hreinit
    cases hreinit
  · split
    · next hbody =>
      refine Reason.refused (hrefused fun henv => ?_)
      simp only [henv.allocBody, Bool.not_true, Bool.and_false] at hbody
      cases hbody
    · split <;> trivial

lemma explained_processed {rc : Rc} (hp : (Pos.ret rc).Explained h)
    (hrefused : ¬ env.Serves → h.refused) : (s.processed env rc).1.Explained h := by
  unfold processed
  split
  · next hrc =>
    subst hrc
    exact hp
  · next hne =>
    split
    · next hf =>
      cases rc with
      | error => exact absurd rfl hne
      | _ => exact hp hf
    · split
      · dsimp only
        split
        · next hfailed =>
          refine Reason.refused (hrefused fun henv => ?_)
          rw [Out.outputBufs_serves henv.flush] at hfailed
          simp [Rc.positive] at hfailed
        · trivial
      · trivial

lemma explained_next {ft : Ft} (hp : (Pos.next ft).Explained h)
    (hleft : (s.next ft).2.r.connError → h.left) : (s.next ft).1.Explained h := by
  have hstatus : Reason h (.http (if ft = .timeout then 504 else 502)) := by
    cases ft <;> exact hp
  obtain ⟨s₁, hs₁⟩ : ∃ s₁, s₁ = if ft ≠ .nolive then s.freePeer true else s := ⟨_, rfl⟩
  unfold next at hleft ⊢
  simp only [← hs₁] at hleft ⊢
  split
  · next herr =>
    rw [if_pos herr] at hleft
    exact Reason.clientLeft (hleft herr)
  · split
    · trivial
    · exact hstatus

/-- The code with which a request is going to be finalized behind a step has its reason in the past
of the request. -/
theorem exec_explained (hc : Custody p s) (hp : p.Explained h) (hle : h.Le h') (hwas : h'.was p)
    (hhist : (s.exec env p).2.r.hist ⊆ h'.hist) (hrefused : ¬ env.Serves → h'.refused)
    (hleft : (s.exec env p).2.r.connError → h'.left)
    (hfull : s.r.connection ≠ none → s.conn.fd = some 0 → h'.full) :
    (s.exec env p).1.Explained h' := by
  have hp := hp.le hle
  cases p with
  | loop => trivial
  | crashed => trivial
  | handlerTail =>
    rcases handlerTail_cases s with ⟨heq, _⟩ | ⟨k, hk, hfd, heq⟩
    · rw [exec, heq]
      trivial
    · rw [exec, heq]
      exact .overflow (hfull (by simp [hk]) (conn_of hk ▸ hfd))
  | event e =>
    cases e with
    | db w timedout broken =>
      simp only [exec, handleEvent, dbHandler]
      split
      · trivial
      · cases timedout with
        | true => exact .timeout hwas
        | false =>
          cases broken with
          | true => exact Reason.broken hwas
          | false => trivial
    | clientWrite timedout =>
      simp only [exec, handleEvent]
      split
      · refine explained_drainOutput (fun htimedout => .clientTimeout ?_) hrefused
        rwa [htimedout] at hwas
      · trivial
      · trivial
    | clientClosed delEvent =>
      simp only [exec, handleEvent, checkBrokenConnection] at hleft ⊢
      cases delEvent with
      | true => exact .clientLeft (hleft rfl)
      | false => exact Reason.notRemoved hwas
    | cleanup => exact .freed hwas
  | dbdConnect =>
    simp only [exec, dbdConnect] at hhist ⊢
    split
    · next halloc =>
      refine Reason.refused (hrefused fun henv => ?_)
      rw [henv.allocState] at halloc
      cases halloc
    · next halloc =>
      rw [if_neg halloc] at hhist
      exact ⟨_, hhist List.mem_cons_self⟩
  | dbdConnected rc =>
    obtain ⟨c, hget⟩ := hp
    simp only [exec, dbdConnected]
    split
    · exact .peerError hget
    · exact .noPeer (.inl rfl) hget
    · exact .noPeer (.inr rfl) hget
    · split
      · trivial
      · exact explained_attach hrefused
  | processEvents =>
    simp only [exec, processEvents]
    split
    · trivial
    · split <;> trivial
  | connect =>
    obtain ⟨_, k, hk⟩ := hc.ok
    rw [exec, onConn_of hk.connection hk.drizzleCon] at hhist ⊢
    exact explained_connect hhist
  | sendQuery =>
    obtain ⟨_, k, hk⟩ := hc.ok
    rw [exec, onConn_of hk.connection hk.drizzleCon] at hhist ⊢
    refine explained_sendQuery hrefused (hhist ?_)
    rw [hist_sendQuery]
    exact List.mem_cons_self
  | recvCols =>
    obtain ⟨_, k, hk⟩ := hc.ok
    rw [exec, onConn_of hk.connection hk.drizzleCon] at hhist ⊢
    exact explained_recvCols hk.connection hrefused hhist
  | recvRows =>
    obtain ⟨_, k, hk⟩ := hc.ok
    rw [exec, onConn_of hk.connection hk.drizzleCon] at hhist ⊢
    exact explained_recvRows hk.connection hrefused hhist
  | recvFields =>
    obtain ⟨_, k, hk⟩ := hc.ok
    rw [exec, onConn_of hk.connection hk.drizzleCon] at hhist ⊢
    exact explained_recvFields hk.connection hrefused hhist
  | ret rc => exact explained_processed hp hrefused
  | done rc =>
    simp only [exec, done] at hhist ⊢
    split
    · next hrc =>
      subst hrc
      rw [if_pos rfl] at hhist
      exact .complete (hhist List.mem_cons_self)
    · next hrc => exact hp hrc
  | next ft => exact explained_next hp hleft
  | finalize rc =>
    simp only [exec, finalizeRequest]
    split <;> split <;> trivial

/-- A code that is new in the history is the one that the request was to be finalized with. -/
lemma finalize_of_exec (hc : Custody p s) {rc : Rc} (h : .finalize rc ∈ (s.exec env p).2.r.hist) :
    .finalize rc ∈ s.r.hist ∨ p = .finalize rc := by
  by_cases hp : ∀ rc, p ≠ .finalize rc
  · obtain ⟨es, hes, hlogs⟩ := exec_hist env hc
    refine .inl ((List.mem_append.mp (hes ▸ h)).resolve_left fun hnew => ?_)
    have hlog := hlogs _ hnew
    cases p with
    | finalize rc => exact absurd rfl (hp rc)
    | _ => simp [Pos.logs, ReqEvent.inner] at hlog
  · obtain ⟨rc', rfl⟩ := not_forall_not.mp hp
    have hrc : rc' ≠ .declined := by
      rintro rfl
      exact hc.ok
    obtain ⟨_, hfin⟩ := finalizeRequest_cases env hrc hc.queues
    have hfree : ∀ {s₁ : St}, FreePeer false (s.log (.finalize rc')) s₁ →
        .finalize rc ∈ s₁.r.hist → .finalize rc ∈ s.r.hist ∨ Pos.finalize rc' = .finalize rc := by
      intro s₁ hfree hmem
      have hmem : .finalize rc ∈ (s.log (.finalize rc')).r.hist := by
        rcases hfree.hist with ⟨_, heq⟩ | ⟨_, _, _, _, _, heq⟩ | ⟨_, _, heq, _⟩ <;>
          simpa [heq] using hmem
      rcases List.mem_cons.mp hmem with heq | hold
      · cases heq
        exact .inr rfl
      · exact .inl hold
    rw [exec] at h
    generalize (s.finalizeRequest env rc').2 = s' at hfin h
    cases hfin with
    | completed hgive hsend rc'' => exact hfree hgive (by simpa [ended] using h)
    | failed hgive hsend => exact hfree hgive (by simpa [ended] using h)

/-- The branch for a full pool is taken when the pool is full. -/
lemma full_of_exec (hc : Custody p s) (h : .overflow ∈ (s.exec env p).2.r.hist) :
    .overflow ∈ s.r.hist ∨ p = .dbdConnect ∧ s.w.Full := by
  by_cases hp : p = .dbdConnect
  · subst hp
    simp only [exec, dbdConnect] at h
    split at h
    · exact .inl h
    · have hget := getPeer_cases env.peer hc.ok.2.1.connection
      generalize s.getPeer env.peer = ps at hget h
      obtain ⟨rc, s'⟩ := ps
      cases hget with
      | overflow getConn hfull => exact .inr ⟨rfl, hfull⟩
      | single => exact .inl (by simpa [resumeCached] using h)
      | busy => exact .inl (by simpa using h)
      | multi => exact .inl (by simpa [resumeCached, picked, selectPeer] using h)
      | create hroom hcreate =>
        cases hcreate <;> exact .inl (by simpa [addCon, picked, selectPeer] using h)
  · obtain ⟨es, hes, hlogs⟩ := exec_hist env hc
    refine .inl ((List.mem_append.mp (hes ▸ h)).resolve_left fun hnew => ?_)
    have hlog := hlogs _ hnew
    cases p with
    | dbdConnect => exact absurd rfl hp
    | _ => simp [Pos.logs, ReqEvent.inner] at hlog

/-- An error of the client connection is noted only when the client closes it. -/
lemma connError_of_exec (hc : Custody p s) (h : (s.exec env p).2.r.connError) :
    s.r.connError ∨ ∃ d, p = .event (.clientClosed d) := by
  have hquiet : ∀ {s₁ s₂ : St}, Quiet s₁ s₂ → s₂.r.connError → s₁.r.connError :=
    fun hq h => (congrArg Req.connError hq.req :).symm.trans h
  cases hp : p.stays with
  | false => exact .inl ((congrArg Req.connError (exec_kept env hc hp) :).symm.trans h)
  | true =>
    cases p with
    | event ev =>
      obtain ⟨k, hk⟩ := connection_of_event hc
      cases ev with
      | db w timedout broken =>
        simp only [exec, handleEvent, dbHandler, modReq_r, hk] at h
        split at h
        · exact .inl h
        · split at h <;> exact .inl h
      | clientWrite timedout =>
        simp only [exec, handleEvent] at h
        split at h
        · next hdrain =>
          obtain ⟨k, hk⟩ := holds_of_event hc (hc.ordered.drains hdrain)
          exact .inl (hquiet (quiet_drainOutput env _ hk.connection hk.drizzleCon) h)
        · exact .inl h
        · exact .inl h
      | clientClosed d => exact .inr ⟨d, rfl⟩
      | cleanup => exact .inl h
    | dbdConnected rc =>
      simp only [exec, dbdConnected] at h
      split at h
      · exact .inl h
      · exact .inl h
      · exact .inl h
      · split at h
        · exact .inl h
        · unfold attach at h
          simp only at h
          split at h
          · exact .inl h
          · split at h
            · exact .inl h
            · split at h <;> exact .inl h
    | processEvents =>
      simp only [exec, processEvents] at h
      split at h
      · exact .inl h
      · split at h <;> exact .inl h
    | connect =>
      obtain ⟨_, k, hk⟩ := hc.ok
      rw [exec, onConn_of hk.connection hk.drizzleCon] at h
      unfold connect at h
      simp only at h
      split at h <;> exact .inl h
    | sendQuery =>
      obtain ⟨_, k, hk⟩ := hc.ok
      rw [exec, onConn_of hk.connection hk.drizzleCon] at h
      obtain ⟨s₁, hsend, htimed⟩ := sendQuery_cases (s := s) (k := k) env
      rw [htimed.req] at h
      generalize (s.sendQuery env k k).1 = p' at hsend
      cases hsend <;> exact .inl h
    | recvCols =>
      obtain ⟨_, k, hk⟩ := hc.ok
      rw [exec, onConn_of hk.connection hk.drizzleCon] at h
      obtain ⟨s₁, hrecv, htimed⟩ := recvCols_cases env hk.connection
      rw [htimed.req] at h
      generalize (s.recvCols env k k).1 = p' at hrecv
      cases hrecv with
      | stop hready =>
        have herr := hquiet hready.quiet h
        exact .inl herr
      | _ => exact .inl h
    | recvRows =>
      obtain ⟨_, k, hk⟩ := hc.ok
      rw [exec, onConn_of hk.connection hk.drizzleCon] at h
      obtain ⟨s₁, hrecv, htimed⟩ := recvRows_cases env hk.connection
      rw [htimed.req] at h
      generalize (s.recvRows env k k).1 = p' at hrecv
      cases hrecv with
      | stop hready =>
        have herr := hquiet hready.quiet h
        exact .inl herr
      | _ => exact .inl h
    | recvFields =>
      obtain ⟨_, k, hk⟩ := hc.ok
      rw [exec, onConn_of hk.connection hk.drizzleCon] at h
      obtain ⟨s₁, hrecv, htimed⟩ := recvFields_cases env hk.connection
      rw [htimed.req] at h
      generalize (s.recvFields env k k).1 = p' at hrecv
      cases hrecv with
      | stop hready =>
        have herr := hquiet hready.quiet h
        exact .inl herr
      | _ => exact .inl h
    | ret rc =>
      have hprocessed := processed_cases (s := s) env rc
      rw [exec] at h
      generalize s.processed env rc = ps at hprocessed h
      obtain ⟨p', s'⟩ := ps
      cases hprocessed <;> exact .inl h
    | done rc =>
      obtain ⟨_, _, _, heq, _⟩ := done_cases (s := s) env rc
      rw [exec, heq] at h
      exact .inl h
    | loop => exact .inl h
    | crashed => exact .inl h
    | _ => cases hp

end St

/-! ## Runs -/

/-- Only the branch for a full pool gives a connection with descriptor 0, as a claim about
requests. -/
def Local.placeholder : Local where
  req _ _ r c := r.connection ≠ none → c.fd = some 0 → .overflow ∈ r.hist
  item _ _ _ := True

lemma Local.placeholder_kept : Local.placeholder.Kept fun _ _ _ => True where
  init _ _ _ _ _ := fun h => absurd rfl h
  fire ev s _ _ h := by
    obtain ⟨⟨cw, hr⟩, rt, wt, hconn⟩ := St.fire_cases ev s
    rw [hr, hconn]
    exact h
  client _ _ _ _ _ h := h
  exec _ _ _ hc _ h _ := St.overflow_of_fd _ hc h
  saved _ _ _ _ _ _ _ _ _ _ := trivial

namespace Sys

/-- What becomes of one request in a step of the worker process. -/
inductive Becomes (s : Sys) (i : ℕ) : Label → Pos → Req → Prop
  | arrived (a : Arrival) (hlen : s.reqs.length = i) : Becomes s i (.arrive a)
      (if a.initOk then .dbdConnect else .finalize (.http 500)) (Req.init s.w i a)
  | same (l : Label) {r : Req} (hi : s.reqs[i]? = some r) : Becomes s i l (s.pos i) r
  | fired (e : Event) {r : Req} (hi : s.reqs[i]? = some r) :
      Becomes s i (.event i e) (.event e) (e.fire (s.view r)).r
  | client (c : ClientConn) {r : Req} (hi : s.reqs[i]? = some r) :
      Becomes s i (.client i c) (s.pos i) (r.onClient c)
  | ran (env : Env) {p : Pos} {r : Req} (hact : s.active = some (i, p)) (hi : s.reqs[i]? = some r) :
      Becomes s i (.run env) (((s.view r).exec env p).1.after ((s.view r).exec env p).2.r)
        ((s.view r).exec env p).2.r

lemma becomes_step (s : Sys) (l : Label) {i : ℕ} {r' : Req} (h : (s.step l).reqs[i]? = some r') :
    s.Becomes i l ((s.step l).pos i) r' := by
  have hstep := step_cases s l
  generalize s.step l = s' at hstep h ⊢
  -- a step of another request
  have hother : ∀ {j : ℕ} {q : Req}, j ≠ i →
      (s.reqs.set j q)[i]? = some r' → s.reqs[i]? = some r' :=
    fun hne h => (List.getElem?_set_ne hne).symm.trans h
  have hself : ∀ {q q' : Req}, s.reqs[i]? = some q → (s.reqs.set i q')[i]? = some r' → q' = r' :=
    fun hi h => Option.some.inj
      ((List.getElem?_set_self (List.getElem?_eq_some_iff.mp hi).1).symm.trans h)
  cases hstep with
  | skip => exact .same l h
  | arrive a hidle =>
    rcases Nat.lt_or_ge i s.reqs.length with hlt | hge
    · rw [pos_of_active_ne rfl (Nat.ne_of_lt hlt), ← pos_of_idle hidle i]
      exact .same _ ((List.getElem?_append_left hlt).symm.trans h)
    · rw [List.getElem?_append_right hge, List.getElem?_singleton] at h
      split at h
      · next hzero =>
        obtain rfl : s.reqs.length = i := by omega
        cases h
        rw [pos_of_active rfl]
        exact .arrived a rfl
      · cases h
  | @event j e r hidle hj he =>
    rcases eq_or_ne j i with rfl | hne
    · obtain rfl := hself hj h
      rw [pos_put]
      exact .fired e hj
    · rw [pos_put_of_ne _ hne.symm, ← pos_of_idle hidle i]
      exact .same _ (hother hne h)
  | @client j r cc hj =>
    rcases eq_or_ne j i with rfl | hne
    · obtain rfl := hself hj h
      exact .client cc hj
    · exact .same _ (hother hne h)
  | idle slot stale hidle => exact .same _ h
  | tick now hidle => exact .same _ h
  | @run env j p r hact hj =>
    rcases eq_or_ne j i with rfl | hne
    · obtain rfl := hself hj h
      rw [pos_put]
      exact .ran env hact hj
    · rw [pos_put_of_ne _ hne.symm, ← pos_of_active_ne hact hne.symm]
      exact .same _ (hother hne h)

/-- The past of a request in a run. -/
def past (conf : Conf) (ls : List Label) (i : ℕ) (r : Req) : Past where
  hist := r.hist
  was p := ∃ before, before <+: ls ∧ (run conf before).active = some (i, p)
  left := (∃ c : ClientConn, c.error ∧ .client i c ∈ ls) ∨
    ∃ before d, before <+: ls ∧ (run conf before).active = some (i, .event (.clientClosed d))
  full := ∃ before, before <+: ls ∧ (run conf before).active = some (i, .dbdConnect) ∧
    (run conf before).w.Full
  refused :=
    (∃ before a, before ++ [.arrive a] <+: ls ∧ (run conf before).reqs.length = i ∧
      a.initOk = false) ∨
    ∃ before env p, before ++ [.run env] <+: ls ∧ (run conf before).active = some (i, p) ∧
      ¬ env.Serves

lemma past_le {conf : Conf} {ls : List Label} (l : Label) {i : ℕ} {r r' : Req}
    (hhist : r.hist ⊆ r'.hist) : (past conf ls i r).Le (past conf (ls ++ [l]) i r') := by
  have hpre : ∀ {before : List Label}, before <+: ls → before <+: ls ++ [l] :=
    fun h => h.trans (List.prefix_append ls [l])
  refine ⟨hhist, ?_, ?_, ?_, ?_⟩
  · rintro p ⟨before, h, hact⟩
    exact ⟨before, hpre h, hact⟩
  · rintro (⟨c, herr, hmem⟩ | ⟨before, d, h, hact⟩)
    · exact .inl ⟨c, herr, List.mem_append_left _ hmem⟩
    · exact .inr ⟨before, d, hpre h, hact⟩
  · rintro ⟨before, h, hact⟩
    exact ⟨before, hpre h, hact⟩
  · rintro (⟨before, a, h, hlen⟩ | ⟨before, env, p, h, hact⟩)
    · exact .inl ⟨before, a, hpre h, hlen⟩
    · exact .inr ⟨before, env, p, hpre h, hact⟩

end Sys

/-- What has happened to a request is accounted for in its past. -/
structure Req.Accounted (h : Past) (p : Pos) (r : Req) : Prop where
  pos : p.Explained h
  codes : ∀ rc, .finalize rc ∈ r.hist → Reason h rc
  left : r.connError → h.left
  full : .overflow ∈ r.hist → h.full

lemma Req.Accounted.le {h h' : Past} {p : Pos} {r r' : Req} (hr : r.Accounted h p) (hle : h.Le h')
    (hhist : r'.hist = r.hist) (hleft : r'.connError → r.connError ∨ h'.left) :
    r'.Accounted h' p where
  pos := hr.pos.le hle
  codes rc hmem := (hr.codes rc (hhist ▸ hmem)).le hle
  left herr := (hleft herr).elim (fun h => hle.left (hr.left h)) fun h => h
  full hmem := hle.full (hr.full (hhist ▸ hmem))

namespace Sys

/-- The past of a request accounts for what a step of it has done. -/
lemma reasons_exec {conf : Conf} {ls : List Label} {i : ℕ} {r r' : Req} {p : Pos}
    {env : Env} {s : St}
    (hs : s = (run conf ls).view r) (hr' : r' = (s.exec env p).2.r)
    (h : r.Accounted (past conf ls i r) p) (hc : Custody p s)
    (hact : (run conf ls).active = some (i, p))
    (hplace : s.r.connection ≠ none → s.conn.fd = some 0 → .overflow ∈ s.r.hist) :
    r'.Accounted (past conf (ls ++ [.run env]) i r') ((s.exec env p).1.after r') := by
  have hr : s.r = r := by rw [hs]; rfl
  rw [← hr] at h
  obtain ⟨es, hes, _⟩ := St.exec_hist env hc
  have hle : (past conf ls i s.r).Le (past conf (ls ++ [.run env]) i r') :=
    past_le _ (by rw [hr', hes]; exact List.subset_append_right ..)
  have hwas : (past conf (ls ++ [.run env]) i r').was p := ⟨ls, List.prefix_append .., hact⟩
  have hleft : r'.connError → (past conf (ls ++ [.run env]) i r').left := by
    intro herr
    rcases St.connError_of_exec hc (hr' ▸ herr) with hold | ⟨d, rfl⟩
    · exact hle.left (h.left hold)
    · exact .inr ⟨ls, d, List.prefix_append .., hact⟩
  have hpos : (s.exec env p).1.Explained (past conf (ls ++ [.run env]) i r') := by
    refine St.exec_explained hc h.pos hle hwas (hr' ▸ List.Subset.refl _) (fun henv => ?_)
      (hr' ▸ hleft) fun hk hfd => hle.full (h.full (hplace hk hfd))
    exact .inr ⟨ls, env, p, List.prefix_refl _, hact, henv⟩
  refine ⟨?_, fun rc hmem => ?_, hleft, fun hmem => ?_⟩
  · exact hpos.after r'
  · rcases St.finalize_of_exec hc (hr' ▸ hmem) with hold | rfl
    · exact (h.codes rc hold).le hle
    · exact h.pos.le hle
  · rcases St.full_of_exec hc (hr' ▸ hmem) with hold | ⟨rfl, hfull⟩
    · exact hle.full (h.full hold)
    · exact ⟨ls, List.prefix_append .., hact, by rwa [hs] at hfull⟩

lemma reasons_run (conf : Conf) (ls : List Label) (i : ℕ) (r : Req)
    (hi : (run conf ls).reqs[i]? = some r) :
    r.Accounted (past conf ls i r) ((run conf ls).pos i) := by
  induction ls using List.reverseRecOn generalizing r with
  | nil => cases hi
  | append_singleton ls l ih =>
    have hrun : run conf (ls ++ [l]) = (run conf ls).step l := Lib.run_append ..
    rw [hrun] at hi ⊢
    have hbecomes := becomes_step (run conf ls) l hi
    generalize ((run conf ls).step l).pos i = p' at hbecomes ⊢
    cases hbecomes with
    | arrived a hlen =>
      refine ⟨?_, nofun, nofun, nofun⟩
      split
      · trivial
      · next hok =>
        exact Reason.refused (.inl ⟨ls, a, List.prefix_refl _, hlen, by simpa using hok⟩)
    | same _ hi₀ => exact (ih r hi₀).le (past_le l (List.Subset.refl _)) rfl .inl
    | @fired e r₀ hi₀ =>
      obtain ⟨⟨cw, hr⟩, _⟩ := St.fire_cases e ((run conf ls).view r₀)
      rw [hr]
      have hpast : (past conf ls i r₀).Le
          (past conf (ls ++ [.event i e]) i { r₀ with clientWrite := cw }) :=
        past_le (.event i e) (List.Subset.refl _)
      obtain ⟨_, hcodes, hleft, hfull⟩ := (ih r₀ hi₀).le hpast rfl .inl
      exact ⟨trivial, hcodes, hleft, hfull⟩
    | @client c r₀ hi₀ =>
      have hpast : (past conf ls i r₀).Le (past conf (ls ++ [.client i c]) i (r₀.onClient c)) :=
        past_le (.client i c) (List.Subset.refl _)
      refine (ih r₀ hi₀).le hpast rfl fun herr => ?_
      rcases Bool.or_eq_true_iff.mp herr with hold | hnew
      · exact .inl hold
      · exact .inr (.inl ⟨c, hnew, List.mem_append_right _ (List.mem_singleton_self _)⟩)
    | @ran env p r₀ hact hi₀ =>
      have hc := (owned_run conf ls).custody hi₀
      have hold := ih r₀ hi₀
      have hplace := (Local.placeholder_kept.run conf
        (.of_forall (fun _ _ _ _ _ _ _ _ _ => trivial) ls _)).req i r₀ hi₀
      rw [pos_of_active hact] at hc hold
      exact reasons_exec rfl rfl hold hc hact hplace

/-- **No failure without a reason.**  In every run, each code with which a request is finalized has
a reason in its past: 408, 499 and 504 are those of a client that does not take anything, or has
left, and of a server that does not answer; 410 is the answer of the server that the table does not
exist, and 503 that of a pool that was full by its counter; 502 and 500 are those of a failure that
the history tells of, or of something that nginx has refused.  There are no other codes but `NGX_OK`
for a complete result, `NGX_DONE` for a request that nginx frees, and `NGX_ERROR` for an output
filter that fails. -/
theorem status_explained (conf : Conf) (ls : List Label) {i : ℕ} {r : Req}
    (hi : (run conf ls).reqs[i]? = some r) :
    ∀ rc, .finalize rc ∈ r.hist → Reason (past conf ls i r) rc :=
  (reasons_run conf ls i r hi).codes

theorem status_explained_fullPool : ∃ before, before <+: fullPool ∧
    (run rejecting before).active = some (1, .dbdConnect) ∧ (run rejecting before).w.Full := by
  have hi : (run rejecting fullPool).reqs[1]? =
      some ((run rejecting fullPool).reqs.get ⟨1, by decide⟩) := rfl
  have hreason := status_explained rejecting fullPool hi (.http 503) (by decide)
  cases hreason with
  | overflow hfull => exact hfull

end Sys
end DrizzleNginx
