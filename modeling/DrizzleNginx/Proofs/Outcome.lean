/-
# What the state functions can do

For each function of the processor the list of its outcomes: the call of the client library
that it made and the answer, what became of the output, and the position at which the
processing goes on.  The outcomes are told up to timers, which `Timed` takes care of.  The
proofs about conversations, about the stream and about events use these lists and do not look
at the functions again.
-/
import DrizzleNginx.Proofs.Frame
import DrizzleNginx.Proofs.Stream

namespace DrizzleNginx

/-! ## Timers -/

/-- Only timers of connections differ. -/
structure Timed (s s' : St) : Prop where
  req : s'.r = s.r
  conf : s'.w.conf = s.w.conf
  conn : ∀ k, (s'.w.conns k).delTimers = (s.w.conns k).delTimers

@[simp] lemma NgxEvent.delTimer_delTimer (ev : NgxEvent) : ev.delTimer.delTimer = ev.delTimer :=
  rfl

@[simp] lemma NgxEvent.delTimer_addTimer (ev : NgxEvent) (now timeout : Msec) :
    (ev.addTimer now timeout).delTimer = ev.delTimer := by
  unfold addTimer
  split
  · split <;> rfl
  · rfl

namespace Timed

variable {s s' : St} {k : ℕ}

lemma refl (s : St) : Timed s s := ⟨rfl, rfl, fun _ => rfl⟩

lemma modRead (h : Timed s s') {f : NgxEvent → NgxEvent}
    (hf : ∀ ev, (f ev).delTimer = ev.delTimer) : Timed s (s'.modRead k f) where
  req := h.req
  conf := h.conf
  conn j := by
    rw [← h.conn, St.modRead_w, Worker.modConn_conns]
    split
    case isTrue hj => simp [Conn.delTimers, hf, hj]
    case isFalse => rfl

lemma modWrite (h : Timed s s') {f : NgxEvent → NgxEvent}
    (hf : ∀ ev, (f ev).delTimer = ev.delTimer) : Timed s (s'.modWrite k f) where
  req := h.req
  conf := h.conf
  conn j := by
    rw [← h.conn, St.modWrite_w, Worker.modConn_conns]
    split
    case isTrue hj => simp [Conn.delTimers, hf, hj]
    case isFalse => rfl

lemma modReq (h : Timed s s') (f : Req → Req) : Timed (s.modReq f) (s'.modReq f) where
  req := congrArg f h.req
  conf := h.conf
  conn := h.conn

lemma setOut (h : Timed s s') (o : Out) : Timed (s.setOut o) (s'.setOut o) :=
  h.modReq fun r => { r with out := o }

lemma libCall (h : Timed s s') (call : LibCall) :
    Timed (s.libCall k call) (s'.libCall k call) where
  req := congrArg (fun r : Req => r.log (.lib k call)) h.req
  conf := h.conf
  conn j := by
    rw [St.libCall_w, St.libCall_w, Worker.modConn_conns, Worker.modConn_conns]
    split
    · exact (congrArg (fun c : Conn => { c with hist := call :: c.hist }) (h.conn k) :)
    · exact h.conn j

end Timed

/-! ## Output -/

/-- The fields of a request that pausing and resuming change. -/
def Req.flow (r : Req) : Bool × WriteHandler × NgxEvent :=
  (r.outputPaused, r.writeHandler, r.clientWrite)

namespace St

variable {s s' : St} {k : ℕ}

/-- Reading from a connection has been paused: its events are gone, all bytes wait for the client,
and the write event of the client, or its timer, is going to resume the reading. -/
structure Paused (s : St) (k : ℕ) : Prop where
  read : (s.w.conns k).read = {}
  write : (s.w.conns k).write = {}
  flushed : s.r.out.Flushed
  paused : s.r.outputPaused
  handler : s.r.writeHandler = .drainOutput
  client : s.r.clientWrite.timer.isSome ∨ s.r.out.delayed

/-- What `outputReady` does: the result may be read further, or reading has been paused, or the
output has failed. -/
inductive OutputReady (s : St) (k : ℕ) : Rc → St → Prop
  | ready {o : Out} (ho : s.r.out.Adds [] o) : OutputReady s k .ok (s.setOut o)
  | paused {s' : St} (hq : Quiet s s') (ho : s.r.out.Adds [] s'.r.out)
      (hpaused : s'.r.outputPaused) (hpauses : (s'.w.conns k).pauses ≠ 0) (hwait : s'.Paused k) :
      OutputReady s k .again s'
  | failed {s' : St} (hq : Quiet s s') (ho : s.r.out.Breaks s'.r.out)
      (hwait : s'.r.flow = s.r.flow ∨ s'.Paused k) : OutputReady s k .error s'

lemma OutputReady.quiet {rc : Rc} (h : OutputReady s k rc s') : DrizzleNginx.Quiet s s' := by
  cases h with
  | ready ho => exact (Quiet.refl s).setOut _
  | paused hq ho hpaused hpauses hwait => exact hq
  | failed hq ho => exact hq

lemma delEvents_out (env : ReadyEnv) : (s.delEvents env k).2.r = s.r := by
  unfold delEvents
  split
  · rfl
  · simp only
    split <;> rfl

lemma isSome_addTimer (ev : NgxEvent) (now timeout : Msec) :
    (ev.addTimer now timeout).timer.isSome := by
  unfold NgxEvent.addTimer
  split
  · next key hkey =>
    split
    · rw [hkey]
      rfl
    · rfl
  · rfl

lemma delEvents_active (env : ReadyEnv) (h : (s.delEvents env k).1) :
    ((s.delEvents env k).2.w.conns k).read.active = false ∧
      ((s.delEvents env k).2.w.conns k).write.active = false := by
  unfold delEvents at h ⊢
  split
  · next hdel =>
    rw [if_pos hdel] at h
    cases h
  · next hdel =>
    rw [if_neg hdel] at h
    simp only at h ⊢
    split
    · next hdel' =>
      rw [if_pos hdel'] at h
      cases h
    · simp

lemma paused_pauseReading (hread : (s.w.conns k).read.active = false)
    (hwrite : (s.w.conns k).write.active = false) (hout : s.r.out.Flushed) :
    (s.pauseReading k).Paused k := by
  have hconn : ((s.pauseReading k).w.conns k) =
      { (s.w.conns k).delTimers with pauses := (s.w.conns k).pauses + 1 } := by
    simp [pauseReading]
  refine ⟨?_, ?_, hout, rfl, rfl, ?_⟩
  · rw [hconn]
    exact congrArg (fun b => ({ active := b } : NgxEvent)) hread
  · rw [hconn]
    exact congrArg (fun b => ({ active := b } : NgxEvent)) hwrite
  · cases hd : s.r.out.delayed with
    | true => exact .inr hd
    | false =>
      left
      unfold pauseReading
      simp only [log_r, modReq_r, Req.log, hd, Bool.false_eq_true, if_false]
      exact isSome_addTimer ..

lemma pause_cases (env : ReadyEnv) (hk : s.r.connection = some k) (hflushed : s.r.out.Flushed) :
    OutputReady s k (s.pause env k).1 (s.pause env k).2 := by
  have hq := quiet_pause env hk
  have hadds := Out.Adds.refl s.r.out
  unfold pause at hq ⊢
  simp only at hq ⊢
  split
  · next hdel =>
    rw [if_pos hdel] at hq
    have hr := delEvents_out (s := s) (k := k) env
    refine .failed hq ?_ (.inl (congrArg Req.flow hr))
    rw [hr]
    exact .refl _
  · next hdel =>
    rw [if_neg hdel] at hq
    have hout : ((s.delEvents env k).2.pauseReading k).r.out = s.r.out :=
      (congrArg Req.out (delEvents_out (s := s) (k := k) env) :)
    obtain ⟨hread, hwrite⟩ := delEvents_active env (s := s) (k := k) (by simpa using hdel)
    have hwait := paused_pauseReading hread hwrite (by rw [delEvents_out]; exact hflushed)
    dsimp only
    split
    · refine .paused hq (hout ▸ hadds) rfl ?_ hwait
      simp [pauseReading]
    · exact .failed hq (hout ▸ .refl _) (.inr hwait)

lemma OutputReady.of_setOut {o : Out} {rc : Rc} (ho : s.r.out.Adds [] o)
    (h : OutputReady (s.setOut o) k rc s') : OutputReady s k rc s' := by
  have hq := (Quiet.refl s).setOut o
  cases h with
  | ready ho' => exact .ready (ho.trans ho')
  | paused hq' ho' hpaused hpauses hwait =>
    exact .paused (hq.trans hq') (ho.trans ho') hpaused hpauses hwait
  | failed hq' ho' hwait => exact .failed (hq.trans hq') (ho.breaks ho') hwait

lemma outputReady_cases (env : ReadyEnv) (hk : s.r.connection = some k) :
    OutputReady s k (s.outputReady env k).1 (s.outputReady env k).2 := by
  have hq := quiet_outputReady env hk
  unfold outputReady at hq ⊢
  split
  · exact .ready (.refl _)
  · next hready =>
    rw [if_neg hready] at hq
    simp only at hq ⊢
    split
    · next hqueue =>
      rw [if_pos hqueue] at hq
      exact .failed hq (Out.queueBuf_breaks env.link) (.inl rfl)
    · next hqueue =>
      have hadds := Out.queueBuf_adds (not_not.mp hqueue)
      rw [if_neg hqueue] at hq
      rcases Out.outputBufs_cases env.flush s.r.loc (s.r.out.queueBuf env.link).2 with
        ⟨hok, hadds', _, hfill, hbufs⟩ | ⟨hfailed, hbreaks⟩
      · rw [if_neg (not_not.mpr hok)]
        have hadds := hadds.trans hadds'
        split
        · exact .ready hadds
        · exact .of_setOut hadds (pause_cases env hk
            ⟨hbufs, hfill (Out.queueBuf_filling (not_not.mp hqueue))⟩)
      · have hne : ((s.r.out.queueBuf env.link).2.outputBufs env.flush s.r.loc).1 ≠ .ok := by
          intro hok
          simp [hok, Rc.failed] at hfailed
        rw [if_pos hne] at hq ⊢
        exact .failed hq (hadds.breaks hbreaks) (.inl rfl)

/-- A timer that was set before does not matter. -/
lemma OutputReady.of_timed {s₁ : St} {rc : Rc} (hq : Quiet s s₁) (ht : Timed s s₁)
    (h : OutputReady s₁ k rc s') : ∃ s₂, OutputReady s k rc s₂ ∧ Timed s₂ s' := by
  cases h with
  | ready ho => exact ⟨_, .ready (ht.req ▸ ho), ht.setOut _⟩
  | paused hq' ho hpaused hpauses hwait =>
    exact ⟨_, .paused (hq.trans hq') (ht.req ▸ ho) hpaused hpauses hwait, .refl _⟩
  | failed hq' ho hwait =>
    exact ⟨_, .failed (hq.trans hq') (ht.req ▸ ho) (ht.req ▸ hwait), .refl _⟩

/-- What `drainOutput` does: it fails, or waits for the client, or resumes the reading. -/
inductive DrainOutput (s : St) (k : ℕ) : Pos → St → Prop
  | failed {rc : Rc} {s' : St} (hrc : rc = .error ∨ rc = .http 408 ∨ rc = .http 500)
      (hq : Quiet s s') (ho : s.r.out.Breaks s'.r.out)
      (hpaused : s'.r.outputPaused → s.r.outputPaused) : DrainOutput s k (.finalize rc) s'
  | waits {s' : St} (hq : Quiet s s') (ho : s.r.out.Adds [] s'.r.out) (hw : s'.w = s.w)
      (hpaused : s'.r.outputPaused = s.r.outputPaused)
      (hhandler : s'.r.writeHandler = s.r.writeHandler)
      (hflushed : s.r.out.Flushed → s'.r.out.Flushed)
      (hclient : s'.r.clientWrite.timer.isSome ∨ s'.r.out.delayed) : DrainOutput s k .loop s'
  | resumed {s' : St} (hq : Quiet s s') (ho : s.r.out.Adds [] s'.r.out)
      (hw : ∀ j, (s'.w.conns j).delTimers = if j = k then
        { (s.w.conns k).delTimers with read := { active := true } } else (s.w.conns j).delTimers)
      (hpaused : s'.r.outputPaused = false) (htimer : (s'.w.conns k).read.timer.isSome)
      (hhandler : s'.r.writeHandler = .empty) : DrainOutput s k .processEvents s'

lemma endDelay_adds (timedout : Bool) (o : Out) : o.Adds [] (o.endDelay timedout) := by
  intro hs
  unfold Out.endDelay
  split
  · exact ⟨⟨hs.lastOut, hs.pos⟩, (List.append_nil _).symm⟩
  · exact ⟨hs, (List.append_nil _).symm⟩

lemma resume_cases (env : Env) (hk : s.r.connection = some k) :
    DrainOutput s k (s.resume env k).1 (s.resume env k).2 := by
  have hq := quiet_resume env hk
  unfold resume at hq ⊢
  simp only at hq ⊢
  split
  · next hread =>
    rw [if_pos hread] at hq
    exact .failed (.inr (.inr rfl)) hq (.refl _) nofun
  · next hread =>
    rw [if_neg hread] at hq
    refine .resumed hq (.refl _) (fun j => ?_) rfl ?_ rfl
    · simp only [log_w, modReq_w, modRead_w, Worker.modConn_conns]
      split
      · next hj =>
        simp only [Conn.delTimers, NgxEvent.delTimer_addTimer]
        rfl
      · rfl
    · simp only [modRead_w, Worker.modConn_conns_self]
      exact isSome_addTimer ..

lemma DrainOutput.of_setOut {o : Out} {p : Pos} (ho : s.r.out.Adds [] o)
    (hout : s.r.out.Flushed → o.Flushed) (h : DrainOutput (s.setOut o) k p s') :
    DrainOutput s k p s' := by
  have hq := (Quiet.refl s).setOut o
  cases h with
  | failed hrc hq' ho' hpaused => exact .failed hrc (hq.trans hq') (ho.breaks ho') hpaused
  | waits hq' ho' hw hpaused hhandler hflushed hclient =>
    exact .waits (hq.trans hq') (ho.trans ho') hw hpaused hhandler (fun hf => hflushed (hout hf))
      hclient
  | resumed hq' ho' hw hpaused htimer hhandler =>
    exact .resumed (hq.trans hq') (ho.trans ho') hw hpaused htimer hhandler

lemma drainOutput_cases (env : Env) (timedout : Bool) (hk : s.r.connection = some k)
    (hd : s.r.drizzleCon = some k) :
    DrainOutput s k (s.drainOutput env timedout).1 (s.drainOutput env timedout).2 := by
  unfold drainOutput
  split
  · exact .failed (.inr (.inl rfl)) (.refl s) (.refl _) id
  · simp only
    split
    · next hdelayed =>
      split
      · refine .waits (.refl s) (.refl _) rfl rfl rfl id (.inr ?_)
        unfold Out.endDelay at hdelayed
        split at hdelayed
        · cases hdelayed
        · exact hdelayed
      · exact .failed (.inr (.inr rfl)) (.refl s) (.refl _) id
    · have hdelay := endDelay_adds timedout s.r.out
      have hsame : (s.r.out.endDelay timedout).filling = s.r.out.filling := by
        unfold Out.endDelay
        split <;> rfl
      rcases Out.outputBufs_cases env.flush s.r.loc (s.r.out.endDelay timedout) with
        ⟨hok, hadds, _, hfill, hbufs⟩ | ⟨hfailed, hbreaks⟩
      · rw [if_neg (not_not.mpr hok)]
        have hadds := hdelay.trans hadds
        refine .of_setOut hadds (fun hf => ⟨hbufs, hfill (hsame.trans hf.filling)⟩) ?_
        split
        · simp only
          split
          · refine .waits ((Quiet.refl _).modReq rfl rfl) (.refl _) rfl rfl rfl id ?_
            simp only [modReq_r]
            split
            · next hd => exact .inr hd
            · exact .inl (isSome_addTimer ..)
          · exact .failed (.inr (.inr rfl)) ((Quiet.refl _).modReq rfl rfl) (.refl _) id
        · rw [onConn_of (s := s.setOut ((s.r.out.endDelay timedout).outputBufs env.flush s.r.loc).2)
            hk hd]
          exact resume_cases env hk
      · have hne : ((s.r.out.endDelay timedout).outputBufs env.flush s.r.loc).1 ≠ .ok := by
          intro hok
          simp [hok, Rc.failed] at hfailed
        rw [if_pos hne]
        exact .failed (.inl rfl) ((Quiet.refl s).setOut _) (hdelay.breaks hbreaks) id

/-! ## State functions -/

/-- What `processed` does. -/
inductive Processed (s : St) (rc : Rc) : Pos → St → Prop
  | error (hrc : rc = .error) : Processed s rc (.next .error) s
  | failed (hrc : rc.failed) (hne : rc ≠ .error) : Processed s rc (.finalize rc) s
  | flushFailed {o : Out} (hrc : rc.failed = false) (ho : s.r.out.Breaks o) :
      Processed s rc (.finalize (.http 500)) (s.setOut o)
  | waits {o : Out} (hrc : rc.failed = false) (ho : s.r.out.Adds [] o) :
      Processed s rc .loop (s.setOut o)

lemma processed_cases (env : Env) (rc : Rc) :
    Processed s rc (s.processed env rc).1 (s.processed env rc).2 := by
  unfold processed
  split
  · next hrc => exact .error hrc
  · next hne =>
    split
    · next hfailed => exact .failed hfailed hne
    · next hfailed =>
      have hfailed : rc.failed = false := by simpa using hfailed
      split
      · simp only
        rcases Out.outputBufs_cases env.flush s.r.loc s.r.out with
          ⟨hok, hadds, _⟩ | ⟨hfailed', hbreaks⟩
        · rw [hok, if_neg (by simp [Rc.positive])]
          exact .waits hfailed hadds
        · rw [if_pos]
          · exact .flushFailed hfailed hbreaks
          · generalize (s.r.out.outputBufs env.flush s.r.loc).1 = rc' at hfailed' ⊢
            cases rc' with
            | error => exact .inl rfl
            | http status =>
              right
              simp only [Rc.failed, decide_eq_true_eq, Rc.positive] at hfailed' ⊢
              omega
            | _ => simp [Rc.failed] at hfailed'
      · exact .waits hfailed (.refl _)

/-- What `sendQuery` does. -/
inductive SendQuery (s : St) (k : ℕ) : Pos → St → Prop
  | waits : SendQuery s k (.ret .again)
      ((s.queried k .ioWait).modReq fun r => { r with state := .sendQuery })
  | namesGone (hn : s.r.sendsSetNames) : SendQuery s k .sendQuery
      ((s.queried k (.fail (.errorCode 1146))).modReq fun r => { r with hasSetNames := true })
  | gone (hn : s.r.sendsSetNames = false) :
      SendQuery s k (.done (.http 410)) (s.queried k (.fail (.errorCode 1146)))
  | failed {err : DrizzleError} (herr : err ≠ .errorCode 1146) :
      SendQuery s k (.ret (.http 500)) (s.queried k (.fail err))
  | namesFailed {h : ResultHeader} (hn : s.r.sendsSetNames) (hcode : h.errorCode ≠ 0) :
      SendQuery s k (.ret .error) (s.queried k (.ok h))
  | names {h : ResultHeader} (hn : s.r.sendsSetNames) (hcode : h.errorCode = 0) :
      SendQuery s k .sendQuery
        ((s.queried k (.ok h)).modReq fun r => { r with hasSetNames := true, state := .idle })
  | broken {h : ResultHeader} {o : Out} (hn : s.r.sendsSetNames = false) (ho : s.r.out.Breaks o) :
      SendQuery s k (.ret .error) ((s.queried k (.ok h)).setOut o)
  | header {h : ResultHeader} {o : Out} (hn : s.r.sendsSetNames = false)
      (hcount : h.columnCount ≠ 0)
      (ho : s.r.out.Adds (Rds.answerBytes s.w.conf.endian (.header h)) o) :
      SendQuery s k .recvCols ((s.queried k (.ok h)).setOut o)
  | empty {h : ResultHeader} {o : Out} (hn : s.r.sendsSetNames = false) (hcount : h.columnCount = 0)
      (ho : s.r.out.Adds (Rds.answerBytes s.w.conf.endian (.header h)) o)
      (hend : o.seenStreamEnd) :
      SendQuery s k (.done .done) ((s.queried k (.ok h)).setOut o)

lemma queryOk_cases (env : Env) (h : ResultHeader) {s₁ : St} (ht : Timed (s.queried k (.ok h)) s₁) :
    ∃ s₂, SendQuery s k (s₁.queryOk env h).1 s₂ ∧ Timed s₂ (s₁.queryOk env h).2 := by
  have hn : s₁.r.sendsSetNames = s.r.sendsSetNames := by
    rw [ht.req]
    rfl
  have hout : s₁.r.out = s.r.out := by rw [ht.req]; rfl
  have hconf : s₁.w.conf = s.w.conf := by rw [ht.conf]; rfl
  unfold queryOk
  rw [hn]
  split
  · next hn =>
    split
    · next hcode => exact ⟨_, .namesFailed hn hcode, ht⟩
    · next hcode => exact ⟨_, .names hn (not_not.mp hcode), ht.modReq _⟩
  · next hn =>
    have hn : s.r.sendsSetNames = false := by simpa using hn
    simp only [hout, hconf]
    rcases s.r.out.outputResultHeader_cases env.emit s.w.conf.endian s₁.r.loc h with
      ⟨hok, hadds, hend⟩ | ⟨herr, hbreaks⟩
    · rw [hok, if_neg Bool.false_ne_true]
      split
      · next hcount => exact ⟨_, .empty hn hcount hadds (hend hcount), ht.setOut _⟩
      · next hcount => exact ⟨_, .header hn hcount hadds, ht.setOut _⟩
    · rw [herr, if_pos (by rfl)]
      exact ⟨_, .broken hn hbreaks, ht.setOut _⟩

lemma sendQuery_cases (env : Env) :
    ∃ s₂, SendQuery s k (s.sendQuery env k k).1 s₂ ∧ Timed s₂ (s.sendQuery env k k).2 := by
  obtain ⟨s₁, hs₁⟩ : ∃ s₁, s₁ = s.queried k env.query := ⟨_, rfl⟩
  have hn : s₁.r.sendsSetNames = s.r.sendsSetNames := by rw [hs₁]; rfl
  have ht : Timed s₁ (s₁.modWrite k NgxEvent.delTimer) := (Timed.refl s₁).modWrite fun _ => rfl
  unfold sendQuery
  simp only [← hs₁]
  split
  · next hret =>
    rw [hret] at hs₁
    split
    · next hstate =>
      refine ⟨_, .waits, ?_⟩
      have : (s.queried k .ioWait).modReq (fun r => { r with state := .sendQuery }) = s₁ := by
        rw [← hs₁, ← hstate]
        rfl
      exact this ▸ .refl s₁
    · refine ⟨_, .waits, ?_⟩
      rw [← hs₁]
      exact ((Timed.refl s₁).modWrite fun ev => by simp).modReq _
  · next hret =>
    rw [hret] at hs₁
    have hn' : (s₁.modWrite k NgxEvent.delTimer).r.sendsSetNames = s.r.sendsSetNames := hn
    rw [hn']
    split
    · next hn => exact ⟨_, .namesGone hn, hs₁ ▸ ht.modReq _⟩
    · next hn => exact ⟨_, .gone (by simpa using hn), hs₁ ▸ ht⟩
  · next err herr hret =>
    rw [hret] at hs₁
    have hne : err ≠ .errorCode 1146 := by
      rintro rfl
      exact herr rfl
    exact ⟨_, .failed hne, hs₁ ▸ ht⟩
  · next h hret =>
    rw [hret] at hs₁
    exact queryOk_cases env h (hs₁ ▸ ht)

/-- The state functions for columns and rows enter their state. -/
def entered (state : DbState) (s : St) : St := s.modReq fun r => { r with state := state }

/-- The result may be read further: one of the calls to read it is made. -/
lemma enter_outputReady {state : DbState} {timeout : Msec} (env : ReadyEnv)
    (hk : s.r.connection = some k) {rc : Rc}
    (h : (s.enter state timeout k).outputReady env k = (rc, s')) :
    ∃ s₂, OutputReady (s.entered state) k rc s₂ ∧ Timed s₂ s' := by
  obtain ⟨hq, ht⟩ : Quiet (s.entered state) (s.enter state timeout k) ∧
      Timed (s.entered state) (s.enter state timeout k) := by
    unfold enter
    split
    · refine ⟨?_, ((Timed.refl s).modRead fun ev => by simp).modReq _⟩
      exact (Quiet.refl (s.entered state)).modRead hk fun ev => ev.addTimer s.w.now timeout
    · next hstate =>
      have : s.entered state = s := by
        rw [← not_not.mp hstate]
        rfl
      rw [this]
      exact ⟨.refl s, .refl s⟩
  have hready := outputReady_cases env (hq.connection.trans hk)
  rw [h] at hready
  exact hready.of_timed hq ht

/-- The state behind a call of `drizzle_column_read`. -/
def columnCalled (s : St) (k : ℕ) (o : Out) (ret : ColumnRet) : St :=
  ((s.entered .recvCols).setOut o).libCall k (.columnRead s.r.id ret)

/-- What one iteration of `recvCols` does. -/
inductive RecvCols (s : St) (k : ℕ) : Pos → St → Prop
  | stop {rc : Rc} {s' : St} (h : OutputReady (s.entered .recvCols) k rc s') (hrc : rc ≠ .ok) :
      RecvCols s k (.ret rc) s'
  | waits {o : Out} (ho : s.r.out.Adds [] o) :
      RecvCols s k (.ret .again) (s.columnCalled k o .ioWait)
  | failed {o : Out} (ho : s.r.out.Adds [] o) (err : DrizzleError) :
      RecvCols s k (.ret .error) (s.columnCalled k o (.fail err))
  | broken {o o' : Out} (ho : s.r.out.Adds [] o) (col : Column) (ho' : o.Breaks o') :
      RecvCols s k (.ret .error) ((s.columnCalled k o (.ok (some col))).setOut o')
  | column {o o' : Out} (ho : s.r.out.Adds [] o) (col : Column)
      (ho' : o.Adds (Rds.answerBytes s.w.conf.endian (.column (some col))) o') :
      RecvCols s k .recvCols ((s.columnCalled k o (.ok (some col))).setOut o')
  | last {o : Out} (ho : s.r.out.Adds [] o) :
      RecvCols s k .recvRows (s.columnCalled k o (.ok none))

lemma recvCols_cases (env : Env) (hk : s.r.connection = some k) :
    ∃ s₂, RecvCols s k (s.recvCols env k k).1 s₂ ∧ Timed s₂ (s.recvCols env k k).2 := by
  obtain ⟨rc, s₁, h⟩ : ∃ rc s₁, (s.enter .recvCols s.r.loc.recvColsTimeout k).outputReady
    env.ready k = (rc, s₁) := ⟨_, _, rfl⟩
  obtain ⟨s₂, hready, ht⟩ := enter_outputReady env.ready hk h
  unfold recvCols
  simp only [h]
  split
  · next hrc => exact ⟨_, .stop hready hrc, ht⟩
  · next hrc =>
    obtain rfl := not_not.mp hrc
    cases hready with
    | @ready o ho =>
      have ho : s.r.out.Adds [] o := ho
      have hid : s₁.r.id = s.r.id := by rw [ht.req]; rfl
      have ht' : Timed (s.columnCalled k o env.column)
          (s₁.libCall k (.columnRead s₁.r.id env.column)) := hid ▸ ht.libCall _
      split
      · next hret =>
        rw [hret] at ht' ⊢
        exact ⟨_, .waits ho, ht'⟩
      · next err hret =>
        rw [hret] at ht' ⊢
        exact ⟨_, .failed ho err, ht'⟩
      · next col hret =>
        rw [hret] at ht' ⊢
        have hout : (s₁.libCall k (.columnRead s₁.r.id (.ok (some col)))).r.out = o := by
          rw [ht'.req]
          rfl
        have hconf : (s₁.libCall k (.columnRead s₁.r.id (.ok (some col)))).w.conf = s.w.conf :=
          ht'.conf
        simp only [hout, hconf]
        rcases o.outputCol_cases env.emit s.w.conf.endian
          (s₁.libCall k (.columnRead s₁.r.id (.ok (some col)))).r.loc col with
          ⟨hok, hadds⟩ | ⟨herr, hbreaks⟩
        · rw [hok, if_neg Bool.false_ne_true]
          exact ⟨_, .column ho col hadds, ht'.setOut _⟩
        · rw [herr, if_pos (by rfl)]
          exact ⟨_, .broken ho col hbreaks, ht'.setOut _⟩
      · next hret =>
        rw [hret] at ht' ⊢
        exact ⟨_, .last ho, ht'.modRead fun _ => rfl⟩

/-- The state behind a call of `drizzle_row_read`. -/
def rowCalled (s : St) (k : ℕ) (o : Out) (ret : RowRet) : St :=
  ((s.entered .recvRows).setOut o).libCall k (.rowRead s.r.id ret)

/-- What `recvRows` does up to the inner loop or the end of the rows. -/
inductive RecvRows (s : St) (k : ℕ) : Pos → St → Prop
  | stop {rc : Rc} {s' : St} (h : OutputReady (s.entered .recvRows) k rc s') (hrc : rc ≠ .ok) :
      RecvRows s k (.ret rc) s'
  | inRow {o : Out} (ho : s.r.out.Adds [] o) (hrow : s.r.drizzleRow ≠ 0) :
      RecvRows s k .recvFields ((s.entered .recvRows).setOut o)
  | waits {o : Out} (ho : s.r.out.Adds [] o) (hrow : s.r.drizzleRow = 0) :
      RecvRows s k (.ret .again) (s.rowCalled k o .ioWait)
  | failed {o : Out} (ho : s.r.out.Adds [] o) (hrow : s.r.drizzleRow = 0) (err : DrizzleError) :
      RecvRows s k (.ret .error) (s.rowCalled k o (.fail err))
  | broken {o o' : Out} (ho : s.r.out.Adds [] o) (hrow : s.r.drizzleRow = 0) (row : UInt64)
      (ho' : o.Breaks o') : RecvRows s k (.ret .error)
        ((s.rowCalled k o (.ok row)).modReq fun r => { r with drizzleRow := row, out := o' })
  | row {o o' : Out} (ho : s.r.out.Adds [] o) (hrow : s.r.drizzleRow = 0) {row : UInt64}
      (hrow' : row ≠ 0) (ho' : o.Adds (Rds.answerBytes s.w.conf.endian (.row row)) o') :
      RecvRows s k .recvFields
        ((s.rowCalled k o (.ok row)).modReq fun r => { r with drizzleRow := row, out := o' })
  | namesEnd {o o' : Out} (ho : s.r.out.Adds [] o) (hrow : s.r.drizzleRow = 0)
      (hn : s.r.sendsSetNames) (ho' : o.Adds (Rds.answerBytes s.w.conf.endian (.row 0)) o') :
      RecvRows s k .sendQuery ((s.rowCalled k o (.ok 0)).modReq fun r =>
        { r with drizzleRow := 0, out := o', hasSetNames := true })
  | last {o o' : Out} (ho : s.r.out.Adds [] o) (hrow : s.r.drizzleRow = 0)
      (hn : s.r.sendsSetNames = false)
      (ho' : o.Adds (Rds.answerBytes s.w.conf.endian (.row 0)) o') (hend : o'.seenStreamEnd) :
      RecvRows s k (.done .done)
        ((s.rowCalled k o (.ok 0)).modReq fun r => { r with drizzleRow := 0, out := o' })

lemma rowOk_cases (env : Env) (row : UInt64) {o : Out} (ho : s.r.out.Adds [] o)
    (hrow : s.r.drizzleRow = 0) {s₁ : St} (ht : Timed (s.rowCalled k o (.ok row)) s₁) :
    ∃ s₂, RecvRows s k (s₁.rowOk env k row).1 s₂ ∧ Timed s₂ (s₁.rowOk env k row).2 := by
  have hout : s₁.r.out = o := by
    rw [ht.req]
    rfl
  unfold rowOk
  simp only [hout]
  rcases o.outputRow_cases env.emit s.w.conf.endian s₁.r.loc row with
    ⟨hok, hadds, hend⟩ | ⟨herr, hbreaks⟩
  · rw [hok, if_neg Bool.false_ne_true]
    split
    · next hrow' => exact ⟨_, .row ho hrow hrow' hadds, ht.modReq _⟩
    · next hrow' =>
      obtain rfl := not_not.mp hrow'
      have ht' := (ht.modReq fun r =>
        { r with drizzleRow := 0, out := (o.outputRow env.emit s₁.r.loc 0).2 }).modRead (k := k)
          (f := NgxEvent.delTimer) fun _ => rfl
      generalize (s₁.modReq fun r => { r with
        drizzleRow := 0, out := (o.outputRow env.emit s₁.r.loc 0).2 }).modRead k
          NgxEvent.delTimer = s₂ at ht' ⊢
      have hn : s₂.r.sendsSetNames = s.r.sendsSetNames := by
        rw [ht'.req]
        rfl
      rw [hn]
      split
      · next hn =>
        exact ⟨_, .namesEnd ho hrow hn hadds, ht'.modReq fun r => { r with hasSetNames := true }⟩
      · next hn => exact ⟨_, .last ho hrow (by simpa using hn) hadds (hend rfl), ht'⟩
  · rw [herr, if_pos (by rfl)]
    exact ⟨_, .broken ho hrow row hbreaks, ht.modReq _⟩

lemma recvRows_cases (env : Env) (hk : s.r.connection = some k) :
    ∃ s₂, RecvRows s k (s.recvRows env k k).1 s₂ ∧ Timed s₂ (s.recvRows env k k).2 := by
  obtain ⟨rc, s₁, h⟩ : ∃ rc s₁, (s.enter .recvRows s.r.loc.recvRowsTimeout k).outputReady
    env.ready k = (rc, s₁) := ⟨_, _, rfl⟩
  obtain ⟨s₂, hready, ht⟩ := enter_outputReady env.ready hk h
  unfold recvRows
  simp only [h]
  split
  · next hrc => exact ⟨_, .stop hready hrc, ht⟩
  · next hrc =>
    obtain rfl := not_not.mp hrc
    cases hready with
    | @ready o ho =>
      have ho : s.r.out.Adds [] o := ho
      have hdrow : s₁.r.drizzleRow = s.r.drizzleRow := by rw [ht.req]; rfl
      rw [hdrow]
      split
      · next hrow => exact ⟨_, .inRow ho hrow, ht⟩
      · next hrow =>
        have hrow := not_not.mp hrow
        have hid : s₁.r.id = s.r.id := by rw [ht.req]; rfl
        have ht' : Timed (s.rowCalled k o env.row)
            (s₁.libCall k (.rowRead s₁.r.id env.row)) := hid ▸ ht.libCall _
        split
        · next hret =>
          rw [hret] at ht' ⊢
          exact ⟨_, .waits ho hrow, ht'⟩
        · next err hret =>
          rw [hret] at ht' ⊢
          exact ⟨_, .failed ho hrow err, ht'⟩
        · next row hret =>
          rw [hret] at ht' ⊢
          exact rowOk_cases env row ho hrow ht'

/-- The state behind a call of `drizzle_field_read`. -/
def fieldCalled (s : St) (k : ℕ) (o : Out) (ret : FieldRet) : St :=
  (s.setOut o).libCall k (.fieldRead s.r.id ret)

/-- What one iteration of the inner loop of `recvRows` does. -/
inductive RecvFields (s : St) (k : ℕ) : Pos → St → Prop
  | stop {rc : Rc} {s' : St} (h : OutputReady s k rc s') (hrc : rc ≠ .ok) :
      RecvFields s k (.ret rc) s'
  | waits {o : Out} (ho : s.r.out.Adds [] o) :
      RecvFields s k (.ret .again) (s.fieldCalled k o .ioWait)
  | failed {o : Out} (ho : s.r.out.Adds [] o) (err : DrizzleError) :
      RecvFields s k (.ret .error) (s.fieldCalled k o (.fail err))
  | rowEnd {o : Out} (ho : s.r.out.Adds [] o) : RecvFields s k .recvRows
      ((s.fieldCalled k o .rowEnd).modReq fun r => { r with drizzleRow := 0 })
  | broken {o o' : Out} (ho : s.r.out.Adds [] o) (chunk : FieldRead) (ho' : o.Breaks o') :
      RecvFields s k (.ret .error) ((s.fieldCalled k o (.ok chunk)).setOut o')
  | field {o o' : Out} (ho : s.r.out.Adds [] o) (chunk : FieldRead)
      (ho' : o.Adds (Rds.answerBytes s.w.conf.endian (.field chunk)) o') :
      RecvFields s k .recvFields ((s.fieldCalled k o (.ok chunk)).setOut o')

lemma recvFields_cases (env : Env) (hk : s.r.connection = some k) :
    ∃ s₂, RecvFields s k (s.recvFields env k k).1 s₂ ∧ Timed s₂ (s.recvFields env k k).2 := by
  obtain ⟨rc, s₁, h⟩ : ∃ rc s₁, s.outputReady env.ready k = (rc, s₁) := ⟨_, _, rfl⟩
  have hready := outputReady_cases env.ready hk
  rw [h] at hready
  unfold recvFields
  simp only [h]
  split
  · next hrc => exact ⟨_, .stop hready hrc, .refl _⟩
  · next hrc =>
    obtain rfl := not_not.mp hrc
    obtain ⟨o, ho, ht⟩ : ∃ o, s.r.out.Adds [] o ∧ Timed (s.setOut o) s₁ := by
      cases hready with
      | ready ho => exact ⟨_, ho, .refl _⟩
    have hid : s₁.r.id = s.r.id := by rw [ht.req]; rfl
    have ht' : Timed (s.fieldCalled k o env.field)
        (s₁.libCall k (.fieldRead s₁.r.id env.field)) := hid ▸ ht.libCall _
    split
    · next hret =>
      rw [hret] at ht' ⊢
      exact ⟨_, .waits ho, ht'⟩
    · next hret =>
      rw [hret] at ht' ⊢
      exact ⟨_, .rowEnd ho, ht'.modReq _⟩
    · next err hret =>
      rw [hret] at ht' ⊢
      exact ⟨_, .failed ho err, ht'⟩
    · next chunk hret =>
      rw [hret] at ht' ⊢
      have hout : (s₁.libCall k (.fieldRead s₁.r.id (.ok chunk))).r.out = o := by
        rw [ht'.req]
        rfl
      have hconf : (s₁.libCall k (.fieldRead s₁.r.id (.ok chunk))).w.conf = s.w.conf := ht'.conf
      simp only [hout, hconf]
      rcases o.outputField_cases env.emit s.w.conf.endian
        (s₁.libCall k (.fieldRead s₁.r.id (.ok chunk))).r.loc chunk with
        ⟨hok, hadds⟩ | ⟨herr, hbreaks⟩
      · rw [hok, if_neg Bool.false_ne_true]
        exact ⟨_, .field ho chunk hadds, ht'.setOut _⟩
      · rw [herr, if_pos (by rfl)]
        exact ⟨_, .broken ho chunk hbreaks, ht'.setOut _⟩

/-- What `done` does: the final call of `outputBufs` keeps the stream, and leaves nothing behind
at its end, or it fails. -/
lemma done_cases (env : Env) (rc : Rc) : ∃ flush o, (s.done env rc).1 =
      .finalize (if rc = .done then .ok else rc) ∧
    (s.done env rc).2 = ((s.setOut o).log (.done rc flush)).modReq (fun r => { r with
      length := 0
      out := { r.out with headerSent := r.out.headerSent || rc = .done }
      statusN := if rc = .done then 200 else rc.status
      state := .idle }) ∧
    (flush = .ok ∧ s.r.out.Adds [] o ∧ (s.r.out.seenStreamEnd → o.held = []) ∨
      flush ≠ .ok ∧ s.r.out.Breaks o) := by
  refine ⟨(s.r.out.outputBufs env.flush s.r.loc).1, (s.r.out.outputBufs env.flush s.r.loc).2,
    ?_, ?_, ?_⟩
  · unfold done
    simp only
    split <;> rfl
  · unfold done
    simp only
    split
    · next hrc =>
      simp [modReq, log, hrc]
    · next hrc =>
      simp [modReq, log, hrc]
  · rcases Out.outputBufs_cases env.flush s.r.loc s.r.out with ⟨hok, hadds, hend, _⟩ | ⟨hf, hbreaks⟩
    · exact .inl ⟨hok, hadds, hend⟩
    · refine .inr ⟨fun hok => ?_, hbreaks⟩
      simp [hok, Rc.failed] at hf

end St
end DrizzleNginx
