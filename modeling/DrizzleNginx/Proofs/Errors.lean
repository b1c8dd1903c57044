/-
# The status of a failure

The status with which a request is answered when something fails before the response header has
been sent.  A failure sends the processing of the request to a position from which it goes straight
to its end, or to another attempt to connect: the position decides what the status is.

An error that MySQL reports is answered with 410 or 500, as the code of the error says, if it is
`drizzle_query` that reports it.  If it is reported when the columns, rows or fields are read, then
the state function returns `NGX_ERROR` like for a broken connection, and the answer is 502.
-/
import DrizzleNginx.Proofs.Pending
import DrizzleNginx.Proofs.RoundRobin

namespace DrizzleNginx

variable {s s' : St} {p p' : Pos} {r r' : Req} {k n code : ℕ}

/-! ## Before the first piece of the result -/

/-- A request is alive where the module works for it. -/
lemma Pos.Ok.live_of_ne (h : p.Ok s) (hloop : p ≠ .loop) (htail : p ≠ .handlerTail) : s.r.live := by
  by_contra hdead
  rcases h.loop_of_ended ((Bool.not_eq_true _).mp hdead) with heq | ⟨heq, _⟩
  · exact hloop heq
  · exact htail heq

namespace St

lemma drainOutput_empty (env : Env) (timedout : Bool) (h : s.r.out.Untouched) :
    (s.drainOutput env timedout).2.r.out.Untouched := by
  have hend : (s.r.out.endDelay timedout).Untouched := by
    unfold Out.endDelay
    split
    · exact h.delay false
    · exact h
  unfold drainOutput
  simp only [hend.outputBufs]
  split
  · exact h
  · split
    · split <;> exact h
    · split
      · exact hend
      · split
        · split <;> exact hend
        · simp only [onConn, setOut_r]
          split
          · unfold resume
            simp only
            split <;> exact hend
          · exact hend

/-- What has been answered before a step has been answered behind it. -/
lemma answers_of_exec (env : Env) (hc : Custody p s) (h : answers (s.exec env p).2.r.calls = []) :
    answers s.r.calls = [] := by
  obtain ⟨es, hes, _⟩ := exec_hist env hc
  rw [Req.calls, hes, List.filterMap_append, answers_append] at h
  exact (List.append_eq_nil_iff.mp h).1

/-- As long as the library has delivered nothing, there is no output. -/
lemma exec_untouched (env : Env) (hc : Custody p s) {t : Talk} (hs : Session p s.r t)
    (h : answers s.r.calls = [] → s.r.out.Untouched) :
    answers (s.exec env p).2.r.calls = [] → (s.exec env p).2.r.out.Untouched := by
  intro hnil
  have hnil₀ := answers_of_exec env hc hnil
  have hout := h hnil₀
  have hshape := Talk.shape_after hs.talk
  rw [hnil₀] at hshape
  cases hp : p.outputs with
  | false => exact (exec_out env hc hp).1 ▸ hout
  | true =>
    cases p with
    | event ev =>
      cases ev with
      | clientWrite timedout =>
        simp only [exec, handleEvent]
        split
        · exact drainOutput_empty env timedout hout
        · exact hout
        · exact hout
      | _ => cases hp
    | sendQuery =>
      obtain ⟨_, k, hk⟩ := hc.ok
      rw [exec, onConn_of hk.connection hk.drizzleCon] at hnil ⊢
      obtain ⟨s₁, hsend, htimed⟩ := sendQuery_cases (s := s) (k := k) env
      rw [htimed.req] at hnil ⊢
      generalize (s.sendQuery env k k).1 = p' at hsend
      -- the header of the result is a piece
      have hheader : ∀ {h : ResultHeader} {r' : Req}, s.r.sendsSetNames = false →
          r'.calls = (s.queried k (.ok h)).r.calls → answers r'.calls ≠ [] := by
        intro h r' hn hcalls hnil
        have hcall : r'.calls = .query s.r.id false s.r.queryToSend (.ok h) :: s.r.calls := by
          rw [hcalls, ← hn]
          exact Req.log_calls ..
        rw [hcall, answers_cons] at hnil
        cases (List.append_eq_nil_iff.mp hnil).2
      cases hsend with
      | broken hn => exact absurd hnil (hheader hn rfl)
      | header hn => exact absurd hnil (hheader hn rfl)
      | empty hn => exact absurd hnil (hheader hn rfl)
      | _ => exact hout
    | recvCols =>
      obtain ⟨_, rfl⟩ := hs.fits hc.ok.1
      obtain ⟨_, _, _, heq⟩ := hshape
      cases heq
    | recvRows =>
      obtain ⟨_, rfl⟩ := hs.fits hc.ok.1
      split at hshape
      · obtain ⟨_, _, _, _, _, heq⟩ := hshape
        cases heq
      · obtain ⟨_, _, _, _, _, _, _, _, heq⟩ := hshape
        cases heq
    | recvFields =>
      obtain ⟨_, _, _, rfl⟩ := hs.fits hc.ok.1
      obtain ⟨_, _, _, _, _, _, _, _, heq⟩ := hshape
      cases heq
    | ret rc =>
      rw [exec]
      unfold processed
      simp only [hout.outputBufs]
      split
      · exact hout
      · split
        · exact hout
        · split
          · split <;> exact hout
          · exact hout
    | done rc =>
      rcases hs.fits (hc.ok.live_of_ne (by simp) (by simp)) with ⟨_, rfl⟩ | ⟨rfl, _⟩
      · cases hshape
      · rw [exec]
        unfold done
        simp only [hout.outputBufs]
        rw [if_neg (by simp)]
        exact hout
    | _ => cases hp

/-- A client that has left does not come back. -/
lemma exec_connError (env : Env) (hc : Custody p s) (h : s.r.connError) :
    (s.exec env p).2.r.connError := by
  have hquiet : ∀ {s₁ s₂ : St}, Quiet s₁ s₂ → s₁.r.connError → s₂.r.connError :=
    fun hq h => (congrArg Req.connError hq.req :).trans h
  cases hp : p.stays with
  | false => exact (congrArg Req.connError (exec_kept env hc hp) :).trans h
  | true =>
    cases p with
    | event ev =>
      obtain ⟨k, hk⟩ := connection_of_event hc
      simp only [exec, handleEvent]
      split
      · unfold dbHandler
        simp only [modReq_r, hk]
        split
        · exact h
        · split <;> exact h
      · split
        · next hdrain =>
          obtain ⟨k, hk⟩ := holds_of_event hc (hc.ordered.drains hdrain)
          exact hquiet (quiet_drainOutput env _ hk.connection hk.drizzleCon) h
        · exact h
        · exact h
      · unfold checkBrokenConnection
        split
        · exact h
        · rfl
      · exact h
    | dbdConnected rc =>
      simp only [exec, dbdConnected]
      split
      · exact h
      · exact h
      · exact h
      · split
        · exact h
        · unfold attach
          simp only
          split
          · exact h
          · split
            · exact h
            · split <;> exact h
    | processEvents =>
      simp only [exec, processEvents]
      split
      · exact h
      · split <;> exact h
    | connect =>
      obtain ⟨_, k, hk⟩ := hc.ok
      rw [exec, onConn_of hk.connection hk.drizzleCon]
      unfold connect
      simp only
      split <;> exact h
    | sendQuery =>
      obtain ⟨_, k, hk⟩ := hc.ok
      rw [exec, onConn_of hk.connection hk.drizzleCon]
      obtain ⟨s₁, hsend, htimed⟩ := sendQuery_cases (s := s) (k := k) env
      rw [htimed.req]
      generalize (s.sendQuery env k k).1 = p' at hsend
      cases hsend <;> exact h
    | recvCols =>
      obtain ⟨_, k, hk⟩ := hc.ok
      rw [exec, onConn_of hk.connection hk.drizzleCon]
      obtain ⟨s₁, hrecv, htimed⟩ := recvCols_cases env hk.connection
      rw [htimed.req]
      generalize (s.recvCols env k k).1 = p' at hrecv
      cases hrecv with
      | stop hready => exact hquiet hready.quiet h
      | _ => exact h
    | recvRows =>
      obtain ⟨_, k, hk⟩ := hc.ok
      rw [exec, onConn_of hk.connection hk.drizzleCon]
      obtain ⟨s₁, hrecv, htimed⟩ := recvRows_cases env hk.connection
      rw [htimed.req]
      generalize (s.recvRows env k k).1 = p' at hrecv
      cases hrecv with
      | stop hready => exact hquiet hready.quiet h
      | _ => exact h
    | recvFields =>
      obtain ⟨_, k, hk⟩ := hc.ok
      rw [exec, onConn_of hk.connection hk.drizzleCon]
      obtain ⟨s₁, hrecv, htimed⟩ := recvFields_cases env hk.connection
      rw [htimed.req]
      generalize (s.recvFields env k k).1 = p' at hrecv
      cases hrecv with
      | stop hready => exact hquiet hready.quiet h
      | _ => exact h
    | ret rc =>
      have hprocessed := processed_cases (s := s) env rc
      rw [exec]
      generalize s.processed env rc = ps at hprocessed ⊢
      obtain ⟨p', s'⟩ := ps
      cases hprocessed <;> exact h
    | done rc =>
      obtain ⟨_, _, _, heq, _⟩ := done_cases (s := s) env rc
      rw [exec, heq]
      exact h
    | _ =>
      first
        | exact h
        | cases hp

end St

/-! ## Errors of MySQL -/

/-- The code of the error, if the answer to a call is an error that MySQL reports for the SQL of
the request. -/
def LibCall.mysqlError : LibCall → Option ℕ
  | query _ false _ (.fail (.errorCode code)) => some code
  | columnRead _ (.fail (.errorCode code)) => some code
  | rowRead _ (.fail (.errorCode code)) => some code
  | fieldRead _ (.fail (.errorCode code)) => some code
  | _ => none

/-- The status for such an error. -/
def errorStatus (code : ℕ) : ℕ := if code = LibCall.noSuchTable then 410 else 500

/-- At this position a function of libdrizzle may be called that reports errors of MySQL. -/
def Pos.talks : Pos → Bool
  | sendQuery => true
  | recvCols => true
  | recvRows => true
  | recvFields => true
  | _ => false

/-- The status with which a request is going to be answered from this position, if its client is
there, no header has been sent, and no other attempt is made. -/
def Pos.status : Pos → Option ℕ
  | ret .error => some 502
  | ret (.http status) => some status
  | done (.http status) => some status
  | next .timeout => some 504
  | next _ => some 502
  | finalize (.http status) => some status
  | _ => none

/-- How many steps there may be before nothing runs. -/
def Pos.stepsLeft : Pos → ℕ
  | ret _ => 4
  | done _ => 3
  | next _ => 3
  | finalize _ => 2
  | handlerTail => 1
  | _ => 0

lemma Pos.two_le_stepsLeft (h : p.status = some n) : 2 ≤ p.stepsLeft := by
  cases p <;> first | cases h | simp [stepsLeft]

namespace St

/-- In the step, MySQL reports an error for the SQL of the request. -/
def Reports (env : Env) (p : Pos) (s : St) (code : ℕ) : Prop :=
  p.talks ∧ ∃ k call, (s.exec env p).2.r.hist = .lib k call :: s.r.hist ∧
    call.mysqlError = some code

lemma calls_of_reports {call : LibCall} {j : ℕ} (h : s'.r.hist = .lib j call :: s.r.hist) :
    s'.r.calls = call :: s.r.calls := by
  rw [Req.calls, h]
  rfl

/-- `drizzle_query` reports an error: the processing goes on with its status. -/
lemma status_of_query (env : Env) (hc : Custody .sendQuery s) (h : s.Reports env .sendQuery code) :
    (s.exec env .sendQuery).1.status = some (errorStatus code) ∧
      (s.exec env .sendQuery).2.r.out = s.r.out ∧
      answers (s.exec env .sendQuery).2.r.calls = answers s.r.calls := by
  obtain ⟨_, j, call, hhist, herr⟩ := h
  obtain ⟨_, k, hk⟩ := hc.ok
  rw [exec, onConn_of hk.connection hk.drizzleCon] at hhist ⊢
  have hcalls := calls_of_reports hhist
  obtain ⟨s₁, hsend, htimed⟩ := sendQuery_cases (s := s) (k := k) env
  rw [htimed.req] at hcalls ⊢
  generalize (s.sendQuery env k k).1 = p' at hsend ⊢
  -- the call that the library has answered
  have hcall : ∀ {ret : QueryRet} {r' : Req}, r'.calls = call :: s.r.calls →
      r'.calls = (s.queried k ret).r.calls →
      call = .query s.r.id s.r.sendsSetNames s.r.queryToSend ret := by
    intro ret r' h h'
    have hquery : (s.queried k ret).r.calls =
        .query s.r.id s.r.sendsSetNames s.r.queryToSend ret :: s.r.calls := Req.log_calls ..
    exact (List.cons.inj (h.symm.trans (h'.trans hquery))).1
  cases hsend with
  | gone hn =>
    obtain rfl := hcall hcalls rfl
    rw [hn] at herr
    obtain rfl := Option.some.inj herr
    exact ⟨rfl, rfl, (congrArg answers hcalls).trans (by simp [LibCall.answer, hn])⟩
  | @failed err hne =>
    obtain rfl := hcall hcalls rfl
    cases hn : s.r.sendsSetNames with
    | true =>
      rw [hn] at herr
      cases herr
    | false =>
      rw [hn] at herr
      cases err with
      | errorCode c =>
        obtain rfl := Option.some.inj herr
        have hcode : c ≠ LibCall.noSuchTable := fun heq => hne (heq ▸ rfl)
        refine ⟨?_, rfl, (congrArg answers hcalls).trans (by simp [LibCall.answer, hn])⟩
        rw [errorStatus, if_neg hcode]
        rfl
      | _ => cases herr
  | namesGone hn =>
    obtain rfl := hcall hcalls rfl
    rw [hn] at herr
    cases herr
  | _ =>
    obtain rfl := hcall hcalls rfl
    cases hn : s.r.sendsSetNames <;> (rw [hn] at herr; cases herr)

/-- A function that reads the result reports an error: the processing goes on as for a connection
that is broken. -/
lemma status_of_recv (env : Env) (hc : Custody p s) (hp : p ≠ .sendQuery)
    (h : s.Reports env p code) : (s.exec env p).1 = .ret .error := by
  obtain ⟨htalks, j, call, hhist, herr⟩ := h
  have hcalls := calls_of_reports hhist
  have hnew : ∀ {r' : Req}, r'.calls = s.r.calls → r'.calls ≠ call :: s.r.calls :=
    fun h h' => List.cons_ne_self _ _ (h'.symm.trans h)
  cases p with
  | sendQuery => exact absurd rfl hp
  | recvCols =>
    obtain ⟨_, k, hk⟩ := hc.ok
    rw [exec, onConn_of hk.connection hk.drizzleCon] at hcalls ⊢
    obtain ⟨s₁, hrecv, htimed⟩ := recvCols_cases env hk.connection
    rw [htimed.req] at hcalls
    generalize (s.recvCols env k k).1 = p' at hrecv
    cases hrecv with
    | failed => rfl
    | stop hready => exact absurd hcalls (hnew hready.quiet.calls)
    | _ =>
      obtain rfl := (List.cons.inj hcalls).1
      cases herr
  | recvRows =>
    obtain ⟨_, k, hk⟩ := hc.ok
    rw [exec, onConn_of hk.connection hk.drizzleCon] at hcalls ⊢
    obtain ⟨s₁, hrecv, htimed⟩ := recvRows_cases env hk.connection
    rw [htimed.req] at hcalls
    generalize (s.recvRows env k k).1 = p' at hrecv
    cases hrecv with
    | failed => rfl
    | stop hready => exact absurd hcalls (hnew hready.quiet.calls)
    | inRow => exact absurd hcalls (hnew rfl)
    | _ =>
      obtain rfl := (List.cons.inj hcalls).1
      cases herr
  | recvFields =>
    obtain ⟨_, k, hk⟩ := hc.ok
    rw [exec, onConn_of hk.connection hk.drizzleCon] at hcalls ⊢
    obtain ⟨s₁, hrecv, htimed⟩ := recvFields_cases env hk.connection
    rw [htimed.req] at hcalls
    generalize (s.recvFields env k k).1 = p' at hrecv
    cases hrecv with
    | failed => rfl
    | stop hready => exact absurd hcalls (hnew hready.quiet.calls)
    | _ =>
      obtain rfl := (List.cons.inj hcalls).1
      cases herr
  | _ => cases htalks

end St

/-! ## The way to the end -/

/-- The request has been finalized, once, with the status. -/
structure Req.AnsweredWith (n : ℕ) (r : Req) : Prop where
  live : r.live = false
  hist : ∃ mid rest, r.hist = .finalized (.http n) :: mid ++ .finalize (.http n) :: rest ∧
    ∀ e ∈ mid ++ rest, e.final = false

/-- The request is on its way to be finalized with the status. -/
structure Req.Bound (n : ℕ) (p : Pos) (r : Req) : Prop where
  status : p.status = some n
  failed : (Rc.http n).failed
  live : r.live
  header : r.out.headerSent = false
  output : ∀ rc, p = .done rc → r.out.Untouched
  unended : ∀ e ∈ r.hist, e.final = false

lemma Req.AnsweredWith.unique {m : ℕ} (h : r.AnsweredWith n) (h' : r.AnsweredWith m) : n = m := by
  obtain ⟨_, _, heq, _⟩ := h.hist
  obtain ⟨_, _, heq', _⟩ := h'.hist
  rw [heq] at heq'
  exact Rc.http.inj (ReqEvent.finalized.inj (List.cons.inj heq').1)

namespace St

/-- A failure that is not an error of MySQL, with the status that it stands for: a timer of the
database connection expires, or an attempt to connect fails. -/
def failure (env : Env) (p : Pos) (s : St) : Option ℕ :=
  match p with
  | .event (.db _ true _) => some 504
  | .event (.db _ false true) => if s.r.state = .connect then some 502 else none
  | .dbdConnected .declined => some 502
  | .connect => match env.con with
    | .fail _ => some 502
    | _ => none
  | _ => none

/-- Only the end of a request enters its end into the history. -/
lemma unended_exec (env : Env) (hc : Custody p s) (hp : ∀ rc, p ≠ .finalize rc)
    (h : ∀ e ∈ s.r.hist, e.final = false) : ∀ e ∈ (s.exec env p).2.r.hist, e.final = false := by
  obtain ⟨es, hes, hlogs⟩ := exec_hist env hc
  intro e he
  rcases List.mem_append.mp (hes ▸ he) with hnew | hold
  · have hlog := hlogs e hnew
    cases e with
    | finalize rc =>
      cases p with
      | finalize rc => exact absurd rfl (hp rc)
      | _ => simp [Pos.logs, ReqEvent.inner] at hlog
    | finalized rc =>
      cases p with
      | finalize rc => exact absurd rfl (hp rc)
      | _ => simp [Pos.logs, ReqEvent.inner] at hlog
    | _ => rfl
  · exact h e hold

/-- A failure sends the request on its way to the end. -/
lemma bound_failure (env : Env) (hc : Custody p s) (h : s.failure env p = some n)
    (hheader : (s.exec env p).2.r.out.headerSent = false)
    (hun : s.r.live → ∀ e ∈ s.r.hist, e.final = false) :
    (s.exec env p).2.r.Bound n (s.exec env p).1 := by
  suffices (∀ rc, p ≠ .finalize rc) ∧ (s.exec env p).1.status = some n ∧ (Rc.http n).failed ∧
      ∀ rc, (s.exec env p).1 ≠ .done rc by
    obtain ⟨hfinal, hstatus, hfailed, hdone⟩ := this
    have hlive : s.r.live := by
      refine hc.ok.live_of_ne ?_ ?_ <;>
      · rintro rfl
        cases h
    exact ⟨hstatus, hfailed, (exec_live env hc hfinal).trans hlive, hheader,
      fun rc heq => absurd heq (hdone rc), unended_exec env hc hfinal (hun hlive)⟩
  unfold failure at h
  split at h
  · obtain ⟨k, hk⟩ := connection_of_event hc
    obtain rfl := Option.some.inj h
    simp only [exec, handleEvent, dbHandler, modReq_r, hk, if_true]
    exact ⟨(by simp), rfl, rfl, (by simp)⟩
  · obtain ⟨k, hk⟩ := connection_of_event hc
    split at h
    · obtain rfl := Option.some.inj h
      simp only [exec, handleEvent, dbHandler, modReq_r, hk, Bool.false_eq_true, if_false, if_true]
      exact ⟨(by simp), rfl, rfl, (by simp)⟩
    · cases h
  · obtain rfl := Option.some.inj h
    exact ⟨(by simp), rfl, rfl, fun rc heq => Pos.noConfusion heq⟩
  · obtain ⟨_, k, hk⟩ := hc.ok
    split at h
    · next err herr =>
      obtain rfl := Option.some.inj h
      rw [exec, onConn_of hk.connection hk.drizzleCon, connect, herr]
      exact ⟨(by simp), rfl, rfl, (by simp)⟩
    · cases h
  · cases h

/-- A request on its way to the end gets there, or makes another attempt. -/
theorem bound_exec (env : Env) (hc : Custody p s) (h : s.r.Bound n p)
    (hclient : s.r.connError = false)
    (hretry : (s.exec env p).1 ≠ .dbdConnect) :
    (s.exec env p).2.r.Bound n (s.exec env p).1 ∧ (s.exec env p).2.r.connError = false ∧
        (s.exec env p).1.stepsLeft < p.stepsLeft ∨
      (s.exec env p).1 = .loop ∧ (s.exec env p).2.r.AnsweredWith n := by
  obtain ⟨hstatus, hfailed, hlive, hheader, hout, hun⟩ := h
  cases p with
  | ret rc =>
    left
    cases rc with
    | error =>
      obtain rfl := Option.some.inj hstatus
      exact ⟨⟨rfl, rfl, hlive, hheader, fun _ heq => Pos.noConfusion heq, hun⟩, hclient,
        Nat.lt_succ_self 3⟩
    | http m =>
      obtain rfl := Option.some.inj hstatus
      have hstep : s.exec env (.ret (.http m)) = (.finalize (.http m), s) := by
        rw [exec, processed, if_neg (by simp), if_pos hfailed]
      rw [hstep]
      exact ⟨⟨rfl, hfailed, hlive, hheader, (by simp), hun⟩, hclient, by simp [Pos.stepsLeft]⟩
    | _ => cases hstatus
  | done rc =>
    left
    cases rc with
    | http m =>
      obtain rfl := Option.some.inj hstatus
      have hempty := hout _ rfl
      have hstep : s.exec env (.done (.http m)) = (.finalize (.http m),
          (s.log (.done (.http m) .ok)).modReq fun r => { r with
            length := 0
            statusN := m
            state := .idle }) := by
        simp only [exec, done, hempty.outputBufs]
        rfl
      rw [hstep]
      refine ⟨⟨rfl, hfailed, hlive, hheader, (by simp), ?_⟩, hclient, Nat.lt_succ_self 2⟩
      exact List.forall_mem_cons.mpr ⟨rfl, hun⟩
    | _ => cases hstatus
  | next ft =>
    left
    obtain ⟨s₁, hs₁⟩ : ∃ s₁, s₁ = if ft ≠ .nolive then s.freePeer true else s := ⟨_, rfl⟩
    obtain ⟨hlive₁, hclient₁, hheader₁, hun₁⟩ : s₁.r.live ∧ s₁.r.connError = false ∧
        s₁.r.out.headerSent = false ∧ ∀ e ∈ s₁.r.hist, e.final = false := by
      split at hs₁
      · have hfree := freePeer_cases (s := s) true hc.queues
        rw [← hs₁] at hfree
        cases hfree with
        | idle => exact ⟨hlive, hclient, hheader, hun⟩
        | saved _ _ hf => cases hf
        | closed => exact ⟨hlive, hclient, hheader, List.forall_mem_cons.mpr ⟨rfl, hun⟩⟩
      · rw [hs₁]
        exact ⟨hlive, hclient, hheader, hun⟩
    rw [exec] at hretry ⊢
    unfold next at hretry ⊢
    simp only [← hs₁, hclient₁, Bool.false_eq_true, if_false] at hretry ⊢
    split at hretry
    · exact absurd rfl hretry
    · next hno =>
      rw [if_neg hno]
      refine ⟨⟨?_, hfailed, hlive₁, hheader₁, (by simp), hun₁⟩, hclient₁, Nat.lt_succ_self 2⟩
      cases ft <;> exact hstatus
  | finalize rc =>
    right
    cases rc with
    | http m =>
      obtain rfl := Option.some.inj hstatus
      obtain ⟨hpos, hfin⟩ := finalizeRequest_cases env (by simp : Rc.http m ≠ .declined) hc.queues
      rw [exec]
      refine ⟨hpos, ?_⟩
      generalize (s.finalizeRequest env (.http m)).2 = s' at hfin ⊢
      have hhist : ∀ {s₁ : St}, FreePeer false (s.log (.finalize (.http m))) s₁ →
          ∃ mid, s₁.r.hist = mid ++ .finalize (.http m) :: s.r.hist ∧
            ∀ e ∈ mid, e.final = false := by
        intro s₁ hfree
        rcases hfree.hist with ⟨_, heq⟩ | ⟨_, _, _, _, _, heq⟩ | ⟨_, _, heq, _⟩
        · exact ⟨[], heq, (by simp)⟩
        · exact ⟨[_], heq, by simp [ReqEvent.final]⟩
        · exact ⟨[_], heq, by simp [ReqEvent.final]⟩
      cases hfin with
      | completed hfree hsend =>
        rcases hsend with heq | ⟨hsent, _⟩
        · cases heq
        · have hsame : ∀ {s₁ : St}, FreePeer false (s.log (.finalize (.http m))) s₁ →
              s₁.r.out.headerSent = s.r.out.headerSent := by
            intro s₁ hfree
            cases hfree <;> rfl
          exact absurd (hheader.symm.trans ((hsame hfree).symm.trans hsent)) Bool.false_ne_true
      | failed hfree =>
        obtain ⟨mid, hmid, hnone⟩ := hhist hfree
        refine ⟨rfl, mid, s.r.hist, congrArg (List.cons (ReqEvent.finalized (.http m))) hmid, ?_⟩
        intro e he
        rcases List.mem_append.mp he with he | he
        · exact hnone e he
        · exact hun e he
    | _ => cases hstatus
  | _ => cases hstatus

end St
/-! ## Runs -/

/-- There is no output before the first piece of the result, and a request that has not been
finalized has not been finalized before: as a claim about requests. -/
def Local.unanswered : Local where
  req _ _ r _ := (answers r.calls = [] → r.out.Untouched) ∧ (r.live → ∀ e ∈ r.hist, e.final = false)
  item _ _ _ := True

lemma Local.unanswered_kept : Local.unanswered.Kept fun _ p s => Known p s where
  init w id a p _ := ⟨fun _ => rfl, fun _ => nofun⟩
  fire ev s _ _ h := by
    obtain ⟨⟨cw, hr⟩, _⟩ := St.fire_cases ev s
    rw [hr]
    exact h
  client _ _ _ _ cc h := ⟨fun hnil => (h.1 hnil).delay cc.delayed, h.2⟩
  exec env p s hc hd h _ := by
    obtain ⟨t, hs⟩ := hd.session
    refine ⟨St.exec_untouched env hc hs h.1, fun hlive => ?_⟩
    refine St.unended_exec env hc ?_ (h.2 (St.live_of_exec env hc hlive))
    rintro rc rfl
    exact absurd ((St.exec_finalize env hc).2.symm.trans hlive) Bool.false_ne_true
  saved _ _ _ _ _ _ _ _ _ _ := trivial

namespace Sys

variable {s : Sys} {i : ℕ}

/-- If its client is there, the request is on its way to be finalized with the status, or has been
finalized with it. -/
def Fate (s : Sys) (i n : ℕ) (r : Req) : Prop :=
  r.connError = false → (∃ p, s.active = some (i, p) ∧ r.Bound n p) ∨ r.AnsweredWith n

lemma fate_step (ho : s.Owned) (hi : s.reqs[i]? = some r) (h : s.Fate i n r) (l : Label)
    (hretry : (s.step l).active ≠ some (i, .dbdConnect)) :
    ∃ r', (s.step l).reqs[i]? = some r' ∧ (s.step l).Fate i n r' := by
  obtain ⟨hbound, _⟩ := List.getElem?_eq_some_iff.mp hi
  have hc := ho.custody hi
  cases hclient : r.connError with
  | true =>
    -- a client that has left does not come back
    obtain ⟨r', hi', herror⟩ := req_step (P := fun r' => r'.connError) hi l hclient
      (fun e => by
        obtain ⟨⟨cw, hr⟩, _⟩ := St.fire_cases e (s.view r)
        exact (congrArg Req.connError hr :).trans hclient)
      (fun cc => by simp [Req.onClient, hclient]) fun env p hact => by
          rw [pos_of_active hact] at hc
          exact St.exec_connError env hc hclient
    exact ⟨r', hi', fun hthere => absurd (hthere.symm.trans herror) Bool.false_ne_true⟩
  | false =>
    rcases h hclient with ⟨p, hact, hbnd⟩ | hans
    · rw [pos_of_active hact] at hc
      have hstep := step_cases s l
      generalize s.step l = s' at hstep hretry ⊢
      cases hstep with
      | skip => exact ⟨r, hi, h⟩
      | arrive a hidle => cases hact.symm.trans hidle
      | event e hidle => cases hact.symm.trans hidle
      | idle slot stale hidle => cases hact.symm.trans hidle
      | tick now hidle => cases hact.symm.trans hidle
      | @client j q cc hj =>
        rcases eq_or_ne j i with rfl | hne
        · obtain rfl : q = r := Option.some.inj (hj.symm.trans hi)
          refine ⟨_, List.getElem?_set_self hbound, fun _ => .inl ⟨p, hact, ?_⟩⟩
          exact ⟨hbnd.status, hbnd.failed, hbnd.live, hbnd.header,
            fun rc hp => (hbnd.output rc hp).delay cc.delayed, hbnd.unended⟩
        · exact ⟨r, (List.getElem?_set_ne hne).trans hi, h⟩
      | @run env j q r' hact' hj =>
        obtain ⟨rfl, rfl⟩ := Prod.mk.inj (Option.some.inj (hact'.symm.trans hact))
        obtain rfl : r' = r := Option.some.inj (hj.symm.trans hi)
        refine ⟨_, List.getElem?_set_self hbound, fun _ => ?_⟩
        have hno : ((s.view r').exec env q).1 ≠ .dbdConnect := by
          intro heq
          rw [put, heq] at hretry
          exact hretry rfl
        refine (St.bound_exec env hc hbnd hclient hno).imp (fun hgo => ?_) And.right
        refine ⟨_, ?_, hgo.1⟩
        have hstatus := hgo.1.status
        rw [put]
        generalize ((s.view r').exec env q).1 = q' at hstatus ⊢
        cases q' with
        | loop => cases hstatus
        | _ => rfl
    · obtain ⟨r', hi', hans'⟩ := req_step (P := fun r' => r'.AnsweredWith n) hi l hans
        (fun e => by
          obtain ⟨⟨cw, hr⟩, _⟩ := St.fire_cases e (s.view r)
          rw [hr]
          exact ⟨hans.live, hans.hist⟩) (fun _ => ⟨hans.live, hans.hist⟩) fun env p hact => by
            rw [pos_of_active hact] at hc
            rw [St.exec_ended env hc hans.live]
            exact ⟨hans.live, hans.hist⟩
      exact ⟨r', hi', fun _ => .inr hans'⟩

lemma fate_run (ho : s.Owned) (hi : s.reqs[i]? = some r) (h : s.Fate i n r) {ls : List Label}
    (hretry : ∀ ls', ls' <+: ls → (Lib.run step s ls').active ≠ some (i, .dbdConnect)) :
    ∃ r', (Lib.run step s ls).reqs[i]? = some r' ∧ (Lib.run step s ls).Fate i n r' := by
  induction ls generalizing s r with
  | nil => exact ⟨r, hi, h⟩
  | cons l ls ih =>
    obtain ⟨r₁, hi₁, h₁⟩ := fate_step ho hi h l
      (hretry [l] (List.cons_prefix_cons.mpr ⟨rfl, List.nil_prefix⟩))
    exact ih (ho.step l) hi₁ h₁ fun ls' hls' =>
      hretry (l :: ls') (List.cons_prefix_cons.mpr ⟨rfl, hls'⟩)

/-- Behind the end of a request its handler returns, and nothing else happens. -/
lemma rest_of_answered (ho : s.Owned) (hi : s.reqs[i]? = some r) (hact : s.active = some (i, p))
    (h : r.AnsweredWith n) (env : Env) (envs : List Env) :
    ∃ r', (Lib.run step s ((env :: envs).map .run)).reqs[i]? = some r' ∧ r'.AnsweredWith n := by
  have hc := ho.custody hi
  rw [pos_of_active hact] at hc
  obtain ⟨hbound, _⟩ := List.getElem?_eq_some_iff.mp hi
  have hstep : s.step (.run env) = s.put i ((s.view r).exec env p) := by
    simp only [step, hact, hi]
  have hidle : (s.step (.run env)).active = none := by
    rw [hstep, put, settle_of_ended env hc h.live]
    rfl
  rw [List.map_cons, Lib.run_cons, run_of_idle hidle, hstep]
  refine ⟨_, List.getElem?_set_self hbound, ?_⟩
  rw [St.exec_ended env hc h.live]
  exact ⟨h.live, h.hist⟩

/-- A request on its way to the end gets there. -/
lemma rest_of_bound (ho : s.Owned) (hi : s.reqs[i]? = some r) (hact : s.active = some (i, p))
    (h : r.Bound n p) (hclient : r.connError = false) {envs : List Env}
    (hretry : ∀ ls, ls <+: envs.map .run → (Lib.run step s ls).active ≠ some (i, .dbdConnect))
    (hleft : p.stepsLeft ≤ envs.length) :
    ∃ r', (Lib.run step s (envs.map .run)).reqs[i]? = some r' ∧ r'.AnsweredWith n := by
  induction envs generalizing s r p with
  | nil =>
    have hstatus := h.status
    cases p <;> first | cases hstatus | cases hleft
  | cons env envs ih =>
    have hc := ho.custody hi
    rw [pos_of_active hact] at hc
    obtain ⟨hbound, _⟩ := List.getElem?_eq_some_iff.mp hi
    have hstep : s.step (.run env) = s.put i ((s.view r).exec env p) := by
      simp only [step, hact, hi]
    have hi' : (s.step (.run env)).reqs[i]? = some ((s.view r).exec env p).2.r := by
      rw [hstep]
      exact List.getElem?_set_self hbound
    have hno : ((s.view r).exec env p).1 ≠ .dbdConnect := by
      intro heq
      refine hretry [.run env] (List.cons_prefix_cons.mpr ⟨rfl, List.nil_prefix⟩) ?_
      rw [Lib.run_cons, hstep, put, heq]
      rfl
    rcases St.bound_exec env hc h hclient hno with ⟨hbnd, hclient', hlt⟩ | ⟨hloop, hans⟩
    · have hact' : (s.step (.run env)).active = some (i, ((s.view r).exec env p).1) := by
        rw [hstep, put]
        have hstatus := hbnd.status
        generalize ((s.view r).exec env p).1 = q at hstatus ⊢
        cases q with
        | loop => cases hstatus
        | _ => rfl
      refine ih (ho.step _) hi' hact' hbnd hclient' (fun ls hls => ?_) ?_
      · exact hretry (.run env :: ls) (List.cons_prefix_cons.mpr ⟨rfl, hls⟩)
      · have hleft : p.stepsLeft ≤ envs.length + 1 := hleft
        omega
    · cases hsettle : (s.step (.run env)).active with
      | none =>
        rw [List.map_cons, Lib.run_cons, run_of_idle hsettle]
        exact ⟨_, hi', hans⟩
      | some q =>
        have hq : q.1 = i := by
          rw [hstep, put] at hsettle
          obtain ⟨_, _, rfl⟩ := Option.map_eq_some_iff.mp hsettle
          rfl
        obtain ⟨env', envs', rfl⟩ : ∃ env' envs', envs = env' :: envs' := by
          have htwo := Pos.two_le_stepsLeft h.status
          cases envs with
          | nil => cases Nat.le_trans htwo hleft with | step h => cases h
          | cons env' envs' => exact ⟨env', envs', rfl⟩
        exact rest_of_answered (p := q.2) (ho.step _) hi' (hq ▸ hsettle) hans env' envs'

/-- A request that has called the library makes no other attempt. -/
lemma active_of_called (conf : Conf) {ls : List Label} (hi : (run conf ls).reqs[i]? = some r)
    (hcalls : r.calls ≠ []) (after : List Label) :
    (run conf (ls ++ after)).active ≠ some (i, .dbdConnect) := by
  intro hact
  obtain ⟨r', hi', hcalls'⟩ :
      ∃ r', (run conf (ls ++ after)).reqs[i]? = some r' ∧ r'.calls ≠ [] := by
    have ho := owned_run conf ls
    rw [run, Lib.run_append]
    rw [← run]
    generalize run conf ls = s at ho hi
    clear hact
    induction after generalizing s r with
    | nil => exact ⟨r, hi, hcalls⟩
    | cons l after ih =>
      have hc := ho.custody hi
      obtain ⟨r₁, hi₁, hcalls₁⟩ := req_step (P := fun r' => r'.calls ≠ []) hi l hcalls
        (fun e => by
          obtain ⟨⟨cw, hr⟩, _⟩ := St.fire_cases e (s.view r)
          exact hr ▸ hcalls) (fun _ => hcalls) fun env p hact => by
            rw [pos_of_active hact] at hc
            obtain ⟨es, hes, _⟩ := St.exec_hist env hc
            rw [Req.calls, hes, List.filterMap_append]
            exact fun hnil => hcalls (List.append_eq_nil_iff.mp hnil).2
      exact ih hcalls₁ (s.step l) (ho.step l) hi₁
  obtain ⟨t, hs⟩ := (recorded_run conf (ls ++ after)).session.req i r' hi'
  have hok := (owned_run conf (ls ++ after)).ok i r' hi'
  rw [pos_of_active hact] at hs hok
  exact hcalls' (hs.calls_nil (hs.fits hok.1).1)

/-- In a run that goes on with `after`, request `i` is finalized once, with the status, unless its
client leaves: it has been finalized when nothing runs, and four more steps of the module lead
there. -/
structure Ends (conf : Conf) (ls after : List Label) (i n : ℕ) : Prop where
  answered : ∃ r, (run conf (ls ++ after)).reqs[i]? = some r ∧ (r.connError = false →
    ((run conf (ls ++ after)).active = none → r.live = false) ∧ (r.live = false → r.AnsweredWith n))
  soon : (∀ r, (run conf ls).reqs[i]? = some r → r.connError = false) → ∀ envs : List Env,
    after = envs.map .run → 4 ≤ envs.length →
      ∃ r, (run conf (ls ++ after)).reqs[i]? = some r ∧ r.AnsweredWith n

lemma ends_of_bound (conf : Conf) {ls after : List Label} (hi : (run conf ls).reqs[i]? = some r)
    (hact : (run conf ls).active = some (i, p)) (h : r.Bound n p)
    (hretry : ∀ ls', ls' <+: after → (run conf (ls ++ ls')).active ≠ some (i, .dbdConnect)) :
    Ends conf ls after i n := by
  have ho := owned_run conf ls
  have hsplit : ∀ ls', run conf (ls ++ ls') = Lib.run step (run conf ls) ls' :=
    fun ls' => Lib.run_append step _ ls ls'
  have hretry : ∀ ls', ls' <+: after →
      (Lib.run step (run conf ls) ls').active ≠ some (i, .dbdConnect) :=
    fun ls' hls' => hsplit ls' ▸ hretry ls' hls'
  constructor
  · obtain ⟨r', hi', hfate⟩ := fate_run ho hi (fun _ => .inl ⟨p, hact, h⟩) hretry
    rw [hsplit]
    refine ⟨r', hi', fun hclient => ?_⟩
    rcases hfate hclient with ⟨q, hq, hbnd⟩ | hans
    · refine ⟨fun hidle => ?_, fun hdead => ?_⟩
      · cases hidle.symm.trans hq
      · exact absurd (hdead.symm.trans hbnd.live) Bool.false_ne_true
    · exact ⟨fun _ => hans.live, fun _ => hans⟩
  · rintro hclient envs rfl hlen
    rw [hsplit]
    refine rest_of_bound ho hi hact h (hclient r hi) hretry (Nat.le_trans ?_ hlen)
    cases p <;> simp [Pos.stepsLeft]

/-- **The status of a failure.**  Let the module run request `i` in any reachable state, and let the
response header not have been sent and the client be there.  If MySQL reports an error for the SQL
of the request in this step, then in all continuations of the run the request is finalized once,
with status 410 if the table does not exist and with status 500 otherwise, if and only if it is
`drizzle_query` that reports the error.  If a timer of the database connection expires in this
step, or an attempt to connect fails, and there is no other attempt, then the request is finalized
once, with status 504 or 502. -/
theorem failure_status (conf : Conf) (before : List Label) (env : Env) {i : ℕ} {p : Pos} {r : Req}
    (hact : (run conf before).active = some (i, p)) (hi : (run conf before).reqs[i]? = some r)
    (hheader : (((run conf before).view r).exec env p).2.r.out.headerSent = false)
    (hclient : (((run conf before).view r).exec env p).2.r.connError = false) :
    (∀ code, ((run conf before).view r).Reports env p code →
      ((∀ after, Ends conf (before ++ [.run env]) after i (errorStatus code)) ↔ p = .sendQuery)) ∧
    ∀ n, ((run conf before).view r).failure env p = some n → ∀ after,
      (∀ ls, ls <+: after → (run conf (before ++ .run env :: ls)).active ≠ some (i, .dbdConnect)) →
        Ends conf (before ++ [.run env]) after i n := by
  have ho := owned_run conf before
  have hun := Local.unanswered_kept.run conf (known_meets conf before) |>.req i r hi
  obtain ⟨t, hs⟩ := (recorded_run conf before).session.req i r hi
  have hc := ho.custody hi
  rw [pos_of_active hact] at hc hs
  obtain ⟨s', hs'⟩ : ∃ s', s' = ((run conf before).view r).exec env p := ⟨_, rfl⟩
  rw [← hs'] at hheader hclient
  have hrun : run conf (before ++ [.run env]) = (run conf before).put i s' := by
    rw [run, Lib.run_append, ← run, hs']
    simp only [Lib.run_cons, Lib.run_nil, step, hact, hi]
  have hi' : (run conf (before ++ [.run env])).reqs[i]? = some s'.2.r := by
    obtain ⟨hbound, _⟩ := List.getElem?_eq_some_iff.mp hi
    rw [hrun]
    exact List.getElem?_set_self hbound
  have hact' : ∀ {n}, s'.1.status = some n →
      (run conf (before ++ [.run env])).active = some (i, s'.1) := by
    intro n hstatus
    rw [hrun, put]
    generalize s'.1 = q at hstatus ⊢
    cases q with
    | loop => cases hstatus
    | _ => rfl
  refine ⟨fun code hrep => ?_, fun n hfail after hretry => ?_⟩
  · obtain ⟨htalks, j, call, hhist, herr⟩ := id hrep
    have hlive : r.live :=
      hc.ok.live_of_ne (by rintro rfl; cases htalks) (by rintro rfl; cases htalks)
    have hfinal : ∀ rc, p ≠ .finalize rc := by
      rintro rc rfl
      cases htalks
    have hlive' : s'.2.r.live := hs' ▸ (St.exec_live env hc hfinal).trans hlive
    have hun' : ∀ e ∈ s'.2.r.hist, e.final = false :=
      hs' ▸ St.unended_exec env hc hfinal (hun.2 hlive)
    have hcalls : s'.2.r.calls ≠ [] := by
      rw [hs', St.calls_of_reports hhist]
      exact List.cons_ne_nil _ _
    have hthere : ∀ r', (run conf (before ++ [.run env])).reqs[i]? = some r' →
        r'.connError = false := by
      intro r' hr'
      obtain rfl := Option.some.inj (hi'.symm.trans hr')
      exact hclient
    have hends : ∀ {n}, s'.2.r.Bound n s'.1 → ∀ after, Ends conf (before ++ [.run env]) after i n :=
      fun hbnd after => ends_of_bound conf hi' (hact' hbnd.status) hbnd fun ls' _ =>
        active_of_called conf hi' hcalls ls'
    constructor
    · intro hall
      by_contra hp
      have hpos : s'.1 = .ret .error := hs' ▸ St.status_of_recv env hc hp hrep
      -- the request is going to be answered with 502
      have hbnd : s'.2.r.Bound 502 s'.1 := by
        rw [hpos]
        exact ⟨rfl, rfl, hlive', hheader, (by simp), hun'⟩
      obtain ⟨r₁, hi₁, hans₁⟩ := (hall _).soon hthere (List.replicate 4 {}) rfl (Nat.le_refl 4)
      obtain ⟨r₂, hi₂, hans₂⟩ :=
        (hends hbnd _).soon hthere (List.replicate 4 {}) rfl (Nat.le_refl 4)
      obtain rfl : r₁ = r₂ := Option.some.inj (hi₁.symm.trans hi₂)
      have heq := hans₁.unique hans₂
      rw [errorStatus] at heq
      split at heq <;> cases heq
    · rintro rfl
      obtain ⟨hstatus, hout, hans⟩ := St.status_of_query env hc hrep
      rw [← hs'] at hstatus hout hans
      refine hends ⟨hstatus, ?_, hlive', hheader, fun rc hrc => ?_, hun'⟩
      · rw [errorStatus]
        split <;> rfl
      · rw [hout]
        refine hun.1 ?_
        have hshape := Talk.shape_after hs.talk
        rcases hs.fits hlive with rfl | rfl <;> exact hshape
  · have hbnd : s'.2.r.Bound n s'.1 := by
      rw [hs'] at hheader ⊢
      exact St.bound_failure env hc hfail hheader hun.2
    refine ends_of_bound conf hi' (hact' hbnd.status) hbnd fun ls hls => ?_
    rw [List.append_assoc]
    exact hretry ls hls

/-- The request of an upstream with one server is about to send its query. -/
def connected : List Label := sampleArrival (.sample [7])

/-- The library waits in `drizzle_query`, and the timer of the write event expires. -/
def queryTimeout : List Label := connected ++
  [.run {}, .run {}, .run {}, .event 0 (.db true true false)]

/-- The rows of a result are about to be read. -/
def columnsRead : List Label := connected ++
  [.run { query := .ok (.sample 1) }, .run { column := .ok none }]

theorem failure_status_noSuchTable :
    (∀ after, Ends (.sample (.sample [1] []) [])
      (connected ++ [.run { query := .fail (.errorCode 1146) }]) after 0 410) ∧
    Ends (.sample (.sample [1] []) []) (queryTimeout ++ [.run {}])
      [.run {}, .run {}, .run {}, .run {}] 0 504 := by
  constructor
  · obtain ⟨hmysql, _⟩ := failure_status (.sample (.sample [1] []) []) connected
      { query := .fail (.errorCode 1146) } (i := 0) (p := .sendQuery)
      (r := (run (.sample (.sample [1] []) []) connected).reqs.get ⟨0, by decide⟩) (by decide) rfl
      (by decide) (by decide)
    exact (hmysql 1146 ⟨rfl, 0, .query 0 false [7] (.fail (.errorCode 1146)),
      by decide, rfl⟩).mpr rfl
  · obtain ⟨_, hfailure⟩ := failure_status (.sample (.sample [1] []) []) queryTimeout {} (i := 0)
      (p := .event (.db true true false))
      (r := (run (.sample (.sample [1] []) []) queryTimeout).reqs.get ⟨0, by decide⟩)
      (by decide) rfl
      (by decide) (by decide)
    refine hfailure 504 rfl _ fun ls hls => ?_
    have hnone : ∀ ls ∈ List.inits [Label.run {}, .run {}, .run {}, .run {}],
        (run (.sample (.sample [1] []) []) (queryTimeout ++ .run {} :: ls)).active ≠
          some (0, .dbdConnect) := by decide
    exact hnone ls ((List.mem_inits ls _).mpr hls)

/-- An error that MySQL reports when the rows are read is answered with 502. -/
theorem row_error_bad_gateway : ¬ ∀ conf before env i p r, (run conf before).active = some (i, p) →
    (run conf before).reqs[i]? = some r →
    (((run conf before).view r).exec env p).2.r.out.headerSent = false →
    (((run conf before).view r).exec env p).2.r.connError = false →
    ∀ code, ((run conf before).view r).Reports env p code → ∀ after,
      Ends conf (before ++ [.run env]) after i (errorStatus code) := by
  intro h
  have hends := h (.sample (.sample [1] []) []) columnsRead { row := .fail (.errorCode 1317) } 0
    .recvRows ((run (.sample (.sample [1] []) []) columnsRead).reqs.get ⟨0, by decide⟩) (by decide)
    rfl (by decide) (by decide) 1317 ⟨rfl, 0, .rowRead 0 (.fail (.errorCode 1317)), by decide, rfl⟩
    [.run {}, .run {}, .run {}, .run {}]
  have hanswer : ∀ r ∈ (run (.sample (.sample [1] []) []) (columnsRead ++
      [.run { row := .fail (.errorCode 1317) }] ++ [.run {}, .run {}, .run {}, .run {}])).reqs,
      r.hist.head? = some (.finalized (.http 502)) := by decide
  have hthere : ∀ r, (run (.sample (.sample [1] []) []) (columnsRead ++
      [.run { row := .fail (.errorCode 1317) }])).reqs[0]? = some r → r.connError = false := by
    rintro r ⟨⟩
    rfl
  obtain ⟨r, hi, hans⟩ := hends.soon hthere [{}, {}, {}, {}] rfl (Nat.le_refl 4)
  obtain ⟨mid, rest, hhist, _⟩ := hans.hist
  have hhead := hanswer r (List.mem_of_getElem? hi)
  rw [hhist] at hhead
  cases hhead

end Sys
end DrizzleNginx
