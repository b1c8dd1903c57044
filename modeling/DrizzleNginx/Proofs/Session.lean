/-
# The module keeps to the protocol

The processor refines the automaton of `Talk`: at every position the calls that a request has
made are an allowed conversation, and the position, the state of the request and the row number
agree with the state of the conversation.
-/
import DrizzleNginx.Proofs.Advance
import DrizzleNginx.Proofs.Outcome
import DrizzleNginx.Proofs.Talk

namespace DrizzleNginx

/-- What the state of a request says about the conversation while nothing is running. -/
def Req.Waits (r : Req) (t : Talk) : Prop :=
  match r.state with
  | .connect => t = .idle
  | .idle => t = .idle
  | .sendQuery => t = .sent r.sendsSetNames r.queryToSend
  | .recvCols => r.sendsSetNames = false ∧ t = .columns
  | .recvRows => r.sendsSetNames = false ∧ t = if r.drizzleRow = 0 then .rows else .fields

/-- The position and the state of a request fit the conversation.  When something has failed,
nothing is said: the connection is not going to be used any more. -/
def Pos.Fits (p : Pos) (r : Req) (t : Talk) : Prop :=
  match p with
  | .loop | .handlerTail | .event _ | .processEvents => r.Waits t
  | .dbdConnect | .dbdConnected _ => r.queryStarted = false ∧ r.Waits t
  | .connect => r.state = .connect ∧ t = .idle
  | .sendQuery => t = .idle ∨ t = .sent r.sendsSetNames r.queryToSend
  | .recvCols => r.sendsSetNames = false ∧ t = .columns
  | .recvRows => r.sendsSetNames = false ∧ t = if r.drizzleRow = 0 then .rows else .fields
  | .recvFields => r.sendsSetNames = false ∧ r.state = .recvRows ∧ r.drizzleRow ≠ 0 ∧ t = .fields
  | .ret rc => rc.failed ∨ r.Waits t
  | .done rc => rc = .done ∧ t = .finished ∨ rc = .http 410 ∧ t = .gone
  | .finalize _ => r.statusN = 0 ∨ t.ended
  | .next _ | .crashed => True

/-- No row has been read. -/
def Talk.beforeRows (t : Talk) : Prop :=
  t = .idle ∨ (∃ setNames sql, t = .sent setNames sql) ∨ t = .columns

/-- The conversation of a request has reached the state `t`. -/
structure Session (p : Pos) (r : Req) (t : Talk) : Prop where
  talk : Talk.after r.calls = some t
  req : ∀ call ∈ r.calls, call.req = r.id
  fits : r.live → p.Fits r t
  row : t.beforeRows → r.drizzleRow = 0
  started : r.calls ≠ [] → r.queryStarted
  status : r.live → r.statusN ≠ 0 → ∃ rc, p = .finalize rc

variable {s s' : St} {p p' : Pos} {r r' : Req} {t t' : Talk} {k : ℕ} {c : LibCall}

lemma Pos.fits_core (p : Pos) (r : Req) (t : Talk) : p.Fits r.core t ↔ p.Fits r t := by
  cases p <;> exact Iff.rfl

lemma Quiet.calls (hq : Quiet s s') : s'.r.calls = s.r.calls := by
  obtain ⟨es, hes, hp⟩ := hq.hist
  have hnil : es.filterMap ReqEvent.call = [] := by
    refine List.filterMap_eq_nil_iff.mpr fun e he => ?_
    rcases hp e he with rfl | rfl <;> rfl
  rw [Req.calls, hes, List.filterMap_append, hnil]
  rfl

namespace Session

lemma statusN (h : Session p r t) (hlive : r.live) (hp : ∀ rc, p ≠ .finalize rc) :
    r.statusN = 0 := by
  by_contra hne
  obtain ⟨rc, hrc⟩ := h.status hlive hne
  exact hp rc hrc

lemma calls_nil (h : Session p r t) (hs : r.queryStarted = false) : r.calls = [] := by
  by_contra hne
  exact absurd (hs.symm.trans (h.started hne)) (by simp)

lemma calls_ne_nil (h : Session p r t) (ht : t ≠ .idle) : r.calls ≠ [] := by
  intro hnil
  have := h.talk
  rw [hnil] at this
  exact ht (Option.some.inj this).symm

lemma idle (h : Session p r t) (hs : r.queryStarted = false) : t = .idle := by
  have := h.talk
  rw [h.calls_nil hs] at this
  exact (Option.some.inj this).symm

lemma congr (h : Session p r t) (hcore : r'.core = r.core) (hcalls : r'.calls = r.calls) :
    Session p r' t where
  talk := hcalls ▸ h.talk
  req := by
    have hid : r'.id = r.id := (congrArg Req.id hcore :)
    rw [hcalls, hid]
    exact h.req
  fits hlive := by
    rw [← p.fits_core, hcore, p.fits_core]
    exact h.fits ((congrArg Req.live hcore).symm.trans hlive)
  row ht := (congrArg Req.drizzleRow hcore).trans (h.row ht)
  started hne := (congrArg Req.queryStarted hcore).trans (h.started (hcalls ▸ hne))
  status hlive hs := h.status ((congrArg Req.live hcore).symm.trans hlive)
    fun h0 => hs ((congrArg Req.statusN hcore).trans h0)

lemma quiet (h : Session p s.r t) (hq : Quiet s s') : Session p s'.r t := h.congr hq.req hq.calls

/-- The processing goes on at another position, without a call. -/
lemma move (h : Session p r t) (hcalls : r'.calls = r.calls) (hid : r'.id = r.id)
    (hrow : r'.drizzleRow = r.drizzleRow) (hstarted : r'.queryStarted = r.queryStarted)
    (hfits : r'.live → p'.Fits r' t)
    (hstatus : r'.live → r'.statusN ≠ 0 → ∃ rc, p' = .finalize rc) :
    Session p' r' t where
  talk := hcalls ▸ h.talk
  req := by
    rw [hcalls, hid]
    exact h.req
  fits := hfits
  row ht := hrow.trans (h.row ht)
  started hne := hstarted.trans (h.started (hcalls ▸ hne))
  status := hstatus

/-- A call is made. -/
lemma called (h : Session p r t) (hcalls : r'.calls = c :: r.calls) (hid : r'.id = r.id)
    (hreq : c.req = r.id) (hnext : t.next c = some t')
    (hrow : t'.beforeRows → r'.drizzleRow = 0) (hstarted : r'.queryStarted) (hfits : p'.Fits r' t')
    (hstatus : r'.statusN = 0) : Session p' r' t' where
  talk := by
    rw [hcalls, Talk.after_cons, h.talk]
    exact hnext
  req := by
    rw [hcalls, hid]
    simpa [hreq] using h.req
  fits _ := hfits
  row := hrow
  started _ := hstarted
  status _ hs := absurd hstatus hs

/-- Back in the event loop, or in the handler. -/
lemma settle (h : Session p r t) : Session (p.after r) r t := by
  cases p with
  | loop =>
    unfold Pos.after Pos.settle
    cases r.inHandler with
    | true =>
      exact h.move rfl rfl rfl rfl h.fits fun hlive hs => absurd (h.statusN hlive (by simp)) hs
    | false => exact h
  | _ => exact h

end Session

/-! ## One step -/

lemma Talk.next_query {setNames : Bool} {sql : Bytes} (ht : t = .idle ∨ t = .sent setNames sql)
    (i : ℕ) (ret : QueryRet) :
    t.next (.query i setNames sql ret) = some (Talk.queried setNames sql ret) := by
  rcases ht with rfl | rfl <;> simp [Talk.next]

namespace St

lemma session_processEvents (h : Session .processEvents s.r t) (hlive : s.r.live) :
    Session s.processEvents.1 s.processEvents.2.r t := by
  have hw : s.r.Waits t := h.fits hlive
  have hs := h.statusN hlive (by simp)
  have hmove : ∀ {p'}, p'.Fits s.r t → Session p' s.r t := fun hf =>
    h.move rfl rfl rfl rfl (fun _ => hf) fun _ hne => absurd hs hne
  unfold processEvents
  split
  · exact hmove hw
  · unfold Req.Waits at hw
    split <;> rename_i hstate <;> simp only [hstate] at hw
    · exact hmove ⟨hstate, hw⟩
    · exact hmove (.inl hw)
    · exact hmove (.inr hw)
    · exact hmove hw
    · exact hmove hw

lemma session_connect (env : Env) (h : Session .connect s.r t) (hlive : s.r.live) :
    Session (s.connect env k k).1 (s.connect env k k).2.r t := by
  obtain ⟨hstate, ht⟩ := h.fits hlive
  have hs := h.statusN hlive (by simp)
  have hmove : ∀ {p'}, p'.Fits (s.r.log (.connect k env.con)) t →
      Session p' (s.r.log (.connect k env.con)) t := fun hf =>
    h.move (by simp [ReqEvent.call]) rfl rfl rfl (fun _ => hf) fun _ hne => absurd hs hne
  unfold connect
  simp only
  split
  · refine hmove (.inr ?_)
    unfold Req.Waits
    simpa [Req.log, hstate] using ht
  · exact hmove (.inl rfl)
  · exact hmove (.inl ht)

/-- Behind a call, as long as nothing is said about the position. -/
lemma session_called {c : LibCall} (h : Session p s.r t) (hs : s.r.statusN = 0)
    (hreq : c.req = s.r.id) (hnext : t.next c = some t')
    (hrow : s.r.drizzleRow = 0 ∨ ¬ t'.beforeRows) (hstarted : s.r.queryStarted) :
    Session (.next .error) (s.libCall k c).r t' :=
  h.called (by simp [ReqEvent.call]) rfl hreq hnext
    (fun ht => hrow.resolve_right (not_not_intro ht)) hstarted trivial hs

lemma session_sendQuery (env : Env) (h : Session .sendQuery s.r t) (hlive : s.r.live) :
    ∃ t', Session (s.sendQuery env k k).1 (s.sendQuery env k k).2.r t' := by
  have ht : t = .idle ∨ t = .sent s.r.sendsSetNames s.r.queryToSend := h.fits hlive
  have hs := h.statusN hlive (by simp)
  have hrow : s.r.drizzleRow = 0 := by
    refine h.row ?_
    rcases ht with rfl | rfl
    · exact .inl rfl
    · exact .inr (.inl ⟨_, _, rfl⟩)
  have hq : Session .sendQuery (s.modReq fun r => { r with queryStarted := true }).r t :=
    ⟨h.talk, h.req, h.fits, h.row, fun _ => rfl, h.status⟩
  have hcalled : ∀ ret, Session (.next .error) (s.queried k ret).r
      (Talk.queried s.r.sendsSetNames s.r.queryToSend ret) := fun ret =>
    session_called hq hs rfl (Talk.next_query ht s.r.id ret) (.inl hrow) rfl
  obtain ⟨s₂, hout, htimed⟩ := sendQuery_cases (s := s) (k := k) env
  rw [htimed.req]
  generalize (s.sendQuery env k k).1 = p' at hout ⊢
  cases hout with
  | waits =>
    exact ⟨_, (hcalled _).move rfl rfl rfl rfl (fun _ => .inr rfl) fun _ hne => absurd hs hne⟩
  | namesGone hn =>
    refine ⟨_, (hcalled _).move rfl rfl rfl rfl (fun _ => .inl ?_) fun _ hne => absurd hs hne⟩
    simp [Talk.queried, hn, LibCall.noSuchTable]
  | gone hn =>
    refine ⟨_, (hcalled _).move rfl rfl rfl rfl (fun _ => .inr ⟨rfl, ?_⟩)
      fun _ hne => absurd hs hne⟩
    simp [Talk.queried, hn, LibCall.noSuchTable]
  | failed herr =>
    exact ⟨_, (hcalled _).move rfl rfl rfl rfl (fun _ => .inl rfl) fun _ hne => absurd hs hne⟩
  | namesFailed hn hcode =>
    exact ⟨_, (hcalled _).move rfl rfl rfl rfl (fun _ => .inl rfl) fun _ hne => absurd hs hne⟩
  | names hn hcode =>
    refine ⟨_, (hcalled _).move rfl rfl rfl rfl (fun _ => .inl ?_) fun _ hne => absurd hs hne⟩
    simp [Talk.queried, hn, hcode]
  | broken hn ho =>
    exact ⟨_, (hcalled _).move rfl rfl rfl rfl (fun _ => .inl rfl) fun _ hne => absurd hs hne⟩
  | header hn hcount ho =>
    refine ⟨_, (hcalled _).move rfl rfl rfl rfl (fun _ => ?_) fun _ hne => absurd hs hne⟩
    exact ⟨hn, by simp [Talk.queried, hn, hcount]⟩
  | empty hn hcount ho hend =>
    refine ⟨_, (hcalled _).move rfl rfl rfl rfl (fun _ => .inl ⟨rfl, ?_⟩)
      fun _ hne => absurd hs hne⟩
    simp [Talk.queried, hn, hcount]

/-- Reading is stopped: it has been paused, or the output has failed. -/
lemma session_stop {rc : Rc} (h : Session p s.r t) (hs : s.r.statusN = 0) (hw : s.r.Waits t)
    (hready : OutputReady s k rc s') (hrc : rc ≠ .ok) : Session (.ret rc) s'.r t := by
  have hmove : Session (.ret rc) s.r t :=
    h.move rfl rfl rfl rfl (fun _ => .inr hw) fun _ hne => absurd hs hne
  cases hready with
  | ready ho => exact absurd rfl hrc
  | paused hq ho hpaused hpauses => exact hmove.quiet hq
  | failed hq ho => exact hmove.quiet hq

lemma session_recvCols (env : Env) (h : Session .recvCols s.r t) (hlive : s.r.live)
    (hk : s.r.connection = some k) :
    ∃ t', Session (s.recvCols env k k).1 (s.recvCols env k k).2.r t' := by
  obtain ⟨hn, rfl⟩ : s.r.sendsSetNames = false ∧ t = .columns := h.fits hlive
  have hs := h.statusN hlive (by simp)
  have hrow : s.r.drizzleRow = 0 := h.row (.inr (.inr rfl))
  have hstarted : s.r.queryStarted := h.started fun hnil => by
    have := h.talk
    simp [hnil] at this
  have hentered : ∀ o, Session .recvCols ((s.entered .recvCols).setOut o).r .columns :=
    fun o => h.move rfl rfl rfl rfl (fun _ => ⟨hn, rfl⟩) fun _ hne => absurd hs hne
  have hcalled : ∀ o ret t', Talk.columns.next (.columnRead s.r.id ret) = some t' →
      Session (.next .error) (s.columnCalled k o ret).r t' := fun o ret t' hnext =>
    session_called (hentered o) hs rfl hnext (.inl hrow) hstarted
  obtain ⟨s₂, hout, htimed⟩ := recvCols_cases env hk
  rw [htimed.req]
  generalize (s.recvCols env k k).1 = p' at hout ⊢
  cases hout with
  | stop hready hrc => exact ⟨_, session_stop (hentered s.r.out) hs ⟨hn, rfl⟩ hready hrc⟩
  | waits ho =>
    exact ⟨_, (hcalled _ _ _ rfl).move rfl rfl rfl rfl (fun _ => .inr ⟨hn, rfl⟩)
      fun _ hne => absurd hs hne⟩
  | failed ho err =>
    exact ⟨_, (hcalled _ _ _ rfl).move rfl rfl rfl rfl (fun _ => .inl rfl)
      fun _ hne => absurd hs hne⟩
  | broken ho col ho' =>
    exact ⟨_, (hcalled _ _ _ rfl).move rfl rfl rfl rfl (fun _ => .inl rfl)
      fun _ hne => absurd hs hne⟩
  | column ho col ho' =>
    exact ⟨_, (hcalled _ _ _ rfl).move rfl rfl rfl rfl (fun _ => ⟨hn, rfl⟩)
      fun _ hne => absurd hs hne⟩
  | last ho =>
    exact ⟨_, (hcalled _ _ _ rfl).move rfl rfl rfl rfl (fun _ => ⟨hn, (if_pos hrow).symm⟩)
      fun _ hne => absurd hs hne⟩

lemma session_recvRows (env : Env) (h : Session .recvRows s.r t) (hlive : s.r.live)
    (hk : s.r.connection = some k) :
    ∃ t', Session (s.recvRows env k k).1 (s.recvRows env k k).2.r t' := by
  obtain ⟨hn, ht⟩ : s.r.sendsSetNames = false ∧ t = if s.r.drizzleRow = 0 then .rows else .fields :=
    h.fits hlive
  have hs := h.statusN hlive (by simp)
  have hstarted : s.r.queryStarted := h.started fun hnil => by
    have := h.talk
    rw [hnil] at this
    split at ht <;> simp [ht] at this
  have hentered : ∀ o, Session .recvRows ((s.entered .recvRows).setOut o).r t :=
    fun o => h.move rfl rfl rfl rfl (fun _ => ⟨hn, ht⟩) fun _ hne => absurd hs hne
  have hcalled : ∀ o ret t', t.next (.rowRead s.r.id ret) = some t' → s.r.drizzleRow = 0 →
      Session (.next .error) (s.rowCalled k o ret).r t' := fun o ret t' hnext hrow =>
    session_called (hentered o) hs rfl hnext (.inl hrow) hstarted
  -- a row number is stored only together with the call that read it
  have hread : s.r.drizzleRow = 0 → ∀ o o' row, Session (.next .error)
      ((s.rowCalled k o (.ok row)).modReq fun r => { r with drizzleRow := row, out := o' }).r
      (if row = 0 then .finished else .fields) := by
    intro hrow o o' row
    obtain rfl := ht.trans (if_pos hrow)
    have hcalls : ((s.rowCalled k o (.ok row)).modReq fun r =>
        { r with drizzleRow := row, out := o' }).r.calls =
        .rowRead s.r.id (.ok row) :: s.r.calls := rfl
    refine h.called hcalls rfl rfl rfl (fun hb => ?_) hstarted trivial hs
    split at hb <;> simp [Talk.beforeRows] at hb
  obtain ⟨s₂, hout, htimed⟩ := recvRows_cases env hk
  rw [htimed.req]
  generalize (s.recvRows env k k).1 = p' at hout ⊢
  cases hout with
  | stop hready hrc => exact ⟨_, session_stop (hentered s.r.out) hs ⟨hn, ht⟩ hready hrc⟩
  | inRow ho hrow =>
    exact ⟨_, (hentered _).move rfl rfl rfl rfl (fun _ => ⟨hn, rfl, hrow, ht.trans (if_neg hrow)⟩)
      fun _ hne => absurd hs hne⟩
  | waits ho hrow =>
    obtain rfl := ht.trans (if_pos hrow)
    exact ⟨_, (hcalled _ _ _ rfl hrow).move rfl rfl rfl rfl (fun _ => .inr ⟨hn, ht⟩)
      fun _ hne => absurd hs hne⟩
  | failed ho hrow err =>
    obtain rfl := ht.trans (if_pos hrow)
    exact ⟨_, (hcalled _ _ _ rfl hrow).move rfl rfl rfl rfl (fun _ => .inl rfl)
      fun _ hne => absurd hs hne⟩
  | broken ho hrow row ho' =>
    exact ⟨_, (hread hrow _ _ row).move rfl rfl rfl rfl (fun _ => .inl rfl)
      fun _ hne => absurd hs hne⟩
  | row ho hrow hrow' ho' =>
    exact ⟨_, (hread hrow _ _ _).move rfl rfl rfl rfl
      (fun _ => ⟨hn, rfl, hrow', if_neg hrow'⟩) fun _ hne => absurd hs hne⟩
  | namesEnd ho hrow hn' ho' => exact absurd (hn'.symm.trans hn) (by simp)
  | last ho hrow hn ho' hend =>
    exact ⟨_, (hread hrow _ _ 0).move rfl rfl rfl rfl (fun _ => .inl ⟨rfl, if_pos rfl⟩)
      fun _ hne => absurd hs hne⟩

lemma session_recvFields (env : Env) (h : Session .recvFields s.r t) (hlive : s.r.live)
    (hk : s.r.connection = some k) :
    ∃ t', Session (s.recvFields env k k).1 (s.recvFields env k k).2.r t' := by
  obtain ⟨hn, hstate, hrow, rfl⟩ : s.r.sendsSetNames = false ∧ s.r.state = .recvRows ∧
    s.r.drizzleRow ≠ 0 ∧ t = .fields := h.fits hlive
  have hs := h.statusN hlive (by simp)
  have hstarted : s.r.queryStarted := h.started fun hnil => by
    have := h.talk
    simp [hnil] at this
  have hwaits : ∀ r : Req, r.sendsSetNames = s.r.sendsSetNames → r.state = s.r.state →
      r.drizzleRow = s.r.drizzleRow → r.Waits .fields := by
    intro r hn' hstate' hrow'
    unfold Req.Waits
    rw [hstate', hstate]
    exact ⟨hn'.trans hn, (if_neg (hrow' ▸ hrow)).symm⟩
  have hentered : ∀ o, Session .recvFields (s.setOut o).r .fields := fun o =>
    h.move rfl rfl rfl rfl (fun _ => ⟨hn, hstate, hrow, rfl⟩) fun _ hne => absurd hs hne
  have hcalled : ∀ o ret t', Talk.fields.next (.fieldRead s.r.id ret) = some t' →
      ¬ t'.beforeRows → Session (.next .error) (s.fieldCalled k o ret).r t' :=
    fun o ret t' hnext hb => session_called (hentered o) hs rfl hnext (.inr hb) hstarted
  obtain ⟨s₂, hout, htimed⟩ := recvFields_cases env hk
  rw [htimed.req]
  generalize (s.recvFields env k k).1 = p' at hout ⊢
  cases hout with
  | stop hready hrc => exact ⟨_, session_stop h hs (hwaits _ rfl rfl rfl) hready hrc⟩
  | waits ho =>
    exact ⟨_, (hcalled _ _ _ rfl (by simp [Talk.beforeRows])).move rfl rfl rfl rfl
      (fun _ => .inr (hwaits _ rfl rfl rfl)) fun _ hne => absurd hs hne⟩
  | failed ho err =>
    exact ⟨_, (hcalled _ _ _ rfl (by simp [Talk.beforeRows])).move rfl rfl rfl rfl
      (fun _ => .inl rfl) fun _ hne => absurd hs hne⟩
  | rowEnd ho =>
    have hcalls : ((s.fieldCalled k _ .rowEnd).modReq fun r => { r with drizzleRow := 0 }).r.calls =
        .fieldRead s.r.id .rowEnd :: s.r.calls := rfl
    exact ⟨_, h.called hcalls rfl rfl rfl (fun _ => rfl) hstarted ⟨hn, (if_pos rfl).symm⟩ hs⟩
  | broken ho chunk ho' =>
    exact ⟨_, (hcalled _ _ _ rfl (by simp [Talk.beforeRows])).move rfl rfl rfl rfl
      (fun _ => .inl rfl) fun _ hne => absurd hs hne⟩
  | field ho chunk ho' =>
    exact ⟨_, (hcalled _ _ _ rfl (by simp [Talk.beforeRows])).move rfl rfl rfl rfl
      (fun _ => ⟨hn, hstate, hrow, rfl⟩) fun _ hne => absurd hs hne⟩

lemma session_processed (env : Env) {rc : Rc} (h : Session (.ret rc) s.r t) (hlive : s.r.live) :
    Session (s.processed env rc).1 (s.processed env rc).2.r t := by
  have hw : rc.failed ∨ s.r.Waits t := h.fits hlive
  have hs := h.statusN hlive (by simp)
  have hout := processed_cases (s := s) env rc
  generalize (s.processed env rc).1 = p', (s.processed env rc).2 = s' at hout ⊢
  cases hout with
  | error hrc => exact h.move rfl rfl rfl rfl (fun _ => trivial) fun _ hne => absurd hs hne
  | failed hrc hne => exact h.move rfl rfl rfl rfl (fun _ => .inl hs) fun _ hne => absurd hs hne
  | flushFailed hrc ho =>
    exact h.move rfl rfl rfl rfl (fun _ => .inl hs) fun _ hne => absurd hs hne
  | waits hrc ho =>
    have hw := hw.resolve_left (by simp [hrc])
    exact h.move rfl rfl rfl rfl (fun _ => hw) fun _ hne => absurd hs hne

lemma session_done (env : Env) {rc : Rc} (h : Session (.done rc) s.r t) (hlive : s.r.live) :
    Session (s.done env rc).1 (s.done env rc).2.r t := by
  have ht : t.ended := by
    rcases h.fits hlive with ⟨_, rfl⟩ | ⟨_, rfl⟩ <;> rfl
  obtain ⟨flush, o, hp, hs', _⟩ := done_cases (s := s) env rc
  rw [hp, hs']
  exact h.move rfl rfl rfl rfl (fun _ => .inr ht) fun _ _ => ⟨_, rfl⟩

lemma session_handleEvent (env : Env) {e : Event} (h : Session (.event e) s.r t)
    (hlive : s.r.live) (hk : s.r.connection = some k) (hd : s.r.drizzleCon = some k) :
    Session (s.handleEvent env e).1 (s.handleEvent env e).2.r t := by
  have hw : s.r.Waits t := h.fits hlive
  have hs := h.statusN hlive (by simp)
  unfold handleEvent
  split
  · unfold dbHandler
    simp only [modReq_r, hk]
    split
    · exact h.move rfl rfl rfl rfl (fun _ => trivial) fun _ hne => absurd hs hne
    · split
      · exact h.move rfl rfl rfl rfl (fun _ => trivial) fun _ hne => absurd hs hne
      · exact h.move rfl rfl rfl rfl (fun _ => hw) fun _ hne => absurd hs hne
  · have hloop : Session .loop s.r t :=
      h.move rfl rfl rfl rfl (fun _ => hw) fun _ hne => absurd hs hne
    split
    · next timedout _ _ =>
      have hout := drainOutput_cases env timedout hk hd
      generalize (s.drainOutput env timedout).1 = p', (s.drainOutput env timedout).2 = s'
        at hout ⊢
      cases hout with
      | failed hrc hq ho =>
        have hfinal : ∀ rc, Session (.finalize rc) s.r t := fun rc =>
          h.move rfl rfl rfl rfl (fun _ => .inl hs) fun _ hne => absurd hs hne
        exact (hfinal _).quiet hq
      | waits hq ho hw' hpaused => exact hloop.quiet hq
      | resumed hq ho hw' =>
        have hproc : Session .processEvents s.r t :=
          h.move rfl rfl rfl rfl (fun _ => hw) fun _ hne => absurd hs hne
        exact hproc.quiet hq
    · exact hloop
    · exact hloop
  · unfold checkBrokenConnection
    split <;> exact h.move rfl rfl rfl rfl (fun _ => .inl hs) fun _ hne => absurd hs hne
  · exact h.move rfl rfl rfl rfl (fun _ => .inl hs) fun _ hne => absurd hs hne

lemma session_attach (env : Env) {rc rc' : Rc} (h : Session (.dbdConnected rc') s.r t)
    (hlive : s.r.live) :
    Session (s.attach env rc k).1 (s.attach env rc k).2.r t := by
  obtain ⟨_, hw⟩ : s.r.queryStarted = false ∧ s.r.Waits t := h.fits hlive
  have hs := h.statusN hlive (by simp)
  have hs' : (if s.r.requestSent then 0 else s.r.statusN) = 0 := by
    rw [hs]
    exact ite_self 0
  unfold attach
  simp only
  split
  · exact h.move rfl rfl rfl rfl (fun _ => .inl hs') fun _ hne => absurd hs' hne
  · split
    · exact h.move rfl rfl rfl rfl (fun _ => .inl hs') fun _ hne => absurd hs' hne
    · split
      · exact h.move rfl rfl rfl rfl (fun _ => hw) fun _ hne => absurd hs' hne
      · exact h.move rfl rfl rfl rfl (fun _ => hw) fun _ hne => absurd hs' hne

lemma session_dbdConnected (env : Env) {rc : Rc} (h : Session (.dbdConnected rc) s.r t)
    (hlive : s.r.live) :
    Session (s.dbdConnected env rc).1 (s.dbdConnected env rc).2.r t := by
  have hs := h.statusN hlive (by simp)
  unfold dbdConnected
  split
  · exact h.move rfl rfl rfl rfl (fun _ => .inl hs) fun _ hne => absurd hs hne
  · exact h.move rfl rfl rfl rfl (fun _ => trivial) fun _ hne => absurd hs hne
  · exact h.move rfl rfl rfl rfl (fun _ => trivial) fun _ hne => absurd hs hne
  · split
    · exact h.move rfl rfl rfl rfl (fun _ => trivial) fun _ hne => absurd hs hne
    · exact session_attach env h hlive

end St

lemma Req.waits_idle (h : r.state = .connect ∨ r.state = .idle) : r.Waits .idle := by
  rcases h with h | h <;> simp [Req.Waits, h]

lemma Req.Waits.state (h : r.Waits .idle) : r.state = .connect ∨ r.state = .idle := by
  unfold Req.Waits at h
  split at h
  · next hs => exact .inl hs
  · next hs => exact .inr hs
  · cases h
  · cases h.2
  · have := h.2
    split at this <;> cases this

namespace St

/-- Getting a connection does not touch the conversation, and the request is about to begin
it. -/
lemma GetPeer.session {rc : Rc} (hget : s.GetPeer rc s')
    (hw : s.r.state = .connect ∨ s.r.state = .idle) :
    s'.r.calls = s.r.calls ∧ s'.r.id = s.r.id ∧ s'.r.drizzleRow = s.r.drizzleRow ∧
      s'.r.queryStarted = s.r.queryStarted ∧ s'.r.statusN = s.r.statusN ∧
      (s'.r.state = .connect ∨ s'.r.state = .idle) := by
  cases hget with
  | single hmax hsingle hcache => exact ⟨rfl, rfl, rfl, rfl, rfl, hw⟩
  | busy hleft => exact ⟨rfl, rfl, rfl, rfl, rfl, hw⟩
  | multi hmax hmulti hcache haddr => exact ⟨rfl, rfl, rfl, rfl, rfl, hw⟩
  | overflow getConn hfull => cases getConn <;> exact ⟨rfl, rfl, rfl, rfl, rfl, hw⟩
  | create hroom h =>
    cases h with
    | noMemory => exact ⟨rfl, rfl, rfl, rfl, rfl, hw⟩
    | refused hrc hcon hstate =>
      refine ⟨rfl, rfl, rfl, rfl, rfl, ?_⟩
      rcases hstate with rfl | hstate
      · exact hw
      · exact hstate
    | fresh hrc hcon =>
      refine ⟨rfl, rfl, rfl, rfl, rfl, ?_⟩
      rcases hrc with ⟨_, rfl⟩ | ⟨_, rfl⟩
      · exact .inl rfl
      · exact .inr rfl

lemma session_dbdConnect (env : Env) (h : Session .dbdConnect s.r t) (hlive : s.r.live)
    (hc : s.r.connection = none) :
    Session (s.dbdConnect env).1 (s.dbdConnect env).2.r t := by
  obtain ⟨hstarted, hw⟩ : s.r.queryStarted = false ∧ s.r.Waits t := h.fits hlive
  obtain rfl := h.idle hstarted
  have hs := h.statusN hlive (by simp)
  unfold dbdConnect
  split
  · exact h.move rfl rfl rfl rfl (fun _ => .inl hs) fun _ hne => absurd hs hne
  · obtain ⟨hcalls, hid, hrow, hstarted', hs', hstate⟩ :=
      (getPeer_cases env.peer hc).session hw.state
    generalize s.getPeer env.peer = ps at hcalls hid hrow hstarted' hs' hstate ⊢
    have hcalls' : (ps.2.r.log (.getPeer ps.1 ps.2.r.connection)).calls = s.r.calls := by
      rw [Req.log_calls, hcalls]
      rfl
    refine h.move hcalls' hid hrow hstarted'
      (fun _ => ⟨hstarted'.trans hstarted, Req.waits_idle hstate⟩)
      fun _ hne => absurd (hs'.trans hs) hne

/-- Giving a connection away does not touch the conversation. -/
lemma FreePeer.session {failed : Bool} (h : FreePeer failed s s') :
    s'.r.calls = s.r.calls ∧ s'.r.id = s.r.id ∧ s'.r.drizzleRow = s.r.drizzleRow ∧
      s'.r.queryStarted = s.r.queryStarted ∧ s'.r.statusN = s.r.statusN := by
  cases h <;> exact ⟨rfl, rfl, rfl, rfl, rfl⟩

lemma session_next {ft : Ft} (h : Session (.next ft) s.r t) (hlive : s.r.live)
    (hq : s.w.pool.cache.length + s.w.pool.free.length = s.w.conf.maxCached) :
    Session (s.next ft).1 (s.next ft).2.r t := by
  obtain ⟨s₁, hs₁, hnext⟩ := next_cases (s := s) ft hq
  obtain ⟨hcalls, hid, hrow, hstarted, hs⟩ : s₁.r.calls = s.r.calls ∧ s₁.r.id = s.r.id ∧
      s₁.r.drizzleRow = s.r.drizzleRow ∧ s₁.r.queryStarted = s.r.queryStarted ∧
      s₁.r.statusN = s.r.statusN := by
    split at hs₁
    · exact hs₁ ▸ ⟨rfl, rfl, rfl, rfl, rfl⟩
    · exact hs₁.session
  have hs := hs.trans (h.statusN hlive (by simp))
  generalize s.next ft = ps at hnext ⊢
  obtain ⟨p', s'⟩ := ps
  cases hnext with
  | stop hstatus =>
    exact h.move hcalls hid hrow hstarted (fun _ => .inl hs) fun _ hne => absurd hs hne
  | retry hno hleft hft =>
    obtain rfl := h.idle (hstarted.symm.trans hno)
    exact h.move hcalls hid hrow hstarted (fun _ => ⟨hno, rfl⟩) fun _ hne => absurd hs hne

lemma session_finalizeRequest (env : Env) {rc : Rc} (h : Session (.finalize rc) s.r t)
    (hrc : rc ≠ .declined)
    (hq : s.w.pool.cache.length + s.w.pool.free.length = s.w.conf.maxCached) :
    Session (s.finalizeRequest env rc).1 (s.finalizeRequest env rc).2.r t := by
  obtain ⟨_, hfin⟩ := finalizeRequest_cases env hrc hq
  generalize s.finalizeRequest env rc = ps at hfin ⊢
  obtain ⟨p', s'⟩ := ps
  cases hfin with
  | completed hfree hsend rc' =>
    obtain ⟨hcalls, hid, hrow, hstarted, _⟩ := hfree.session
    exact h.move hcalls hid hrow hstarted (fun hlive => absurd hlive Bool.false_ne_true)
      fun hlive => absurd hlive Bool.false_ne_true
  | failed hfree hsend =>
    obtain ⟨hcalls, hid, hrow, hstarted, _⟩ := hfree.session
    exact h.move hcalls hid hrow hstarted (fun hlive => absurd hlive Bool.false_ne_true)
      fun hlive => absurd hlive Bool.false_ne_true

lemma session_handlerTail (h : Session .handlerTail s.r t) :
    Session s.handlerTail.1 s.handlerTail.2.r t := by
  rcases handlerTail_cases s with ⟨heq, _⟩ | ⟨k, _, _, heq⟩
  · rw [heq]
    exact h.move rfl rfl rfl rfl h.fits fun hlive hne => absurd (h.statusN hlive (by simp)) hne
  · rw [heq]
    exact h.move rfl rfl rfl rfl (fun hlive => .inl (h.statusN hlive (by simp)))
      fun hlive hne => absurd (h.statusN hlive (by simp)) hne

/-- The processor keeps to the protocol: a step from a position that fits the conversation ends
at one that fits what the conversation has become. -/
theorem session_exec (env : Env) (hc : Custody p s) (h : Session p s.r t) :
    ∃ t', Session ((s.exec env p).1.after (s.exec env p).2.r) (s.exec env p).2.r t' := by
  suffices ∃ t', Session (s.exec env p).1 (s.exec env p).2.r t' from
    this.imp fun _ => Session.settle
  cases p with
  | loop => exact ⟨t, h⟩
  | handlerTail => exact ⟨t, session_handlerTail h⟩
  | crashed => exact ⟨t, h⟩
  | dbdConnect => exact ⟨t, session_dbdConnect env h hc.ok.1 hc.ok.2.1.connection⟩
  | dbdConnected rc =>
    have hlive : s.r.live := by
      have := hc.ok
      cases rc with
      | ok => exact this.elim
      | http status => exact this.elim
      | _ => exact this.1
    exact ⟨t, session_dbdConnected env h hlive⟩
  | next ft =>
    have hlive : s.r.live := by
      have := hc.ok
      cases ft <;> exact this.1
    exact ⟨t, session_next h hlive hc.queues⟩
  | finalize rc =>
    have hrc : rc ≠ .declined := by
      rintro rfl
      exact hc.ok
    exact ⟨t, session_finalizeRequest env h hrc hc.queues⟩
  | event e =>
    have hlive := hc.ok.1
    rcases hc.ok.2 with ⟨k, hk⟩ | ⟨he, hrej⟩
    · exact ⟨t, session_handleEvent env h hlive hk.connection hk.drizzleCon⟩
    · have hw : s.r.Waits t := h.fits hlive
      have hs := h.statusN hlive (by simp)
      obtain ⟨p, _, _, hp, heq⟩ := handleEvent_of_rejected env he hrej hc.ordered
      rw [exec, heq]
      refine ⟨t, h.move rfl rfl rfl rfl (fun _ => ?_) fun _ hne => absurd hs hne⟩
      cases p with
      | loop => exact hw
      | next ft => exact trivial
      | finalize rc => exact .inl hs
      | _ => cases hp
  | processEvents => exact ⟨t, session_processEvents h hc.ok.1⟩
  | connect =>
    obtain ⟨hlive, k, hk⟩ := hc.ok
    rw [exec, onConn_of hk.connection hk.drizzleCon]
    exact ⟨t, session_connect env h hlive⟩
  | sendQuery =>
    obtain ⟨hlive, k, hk⟩ := hc.ok
    rw [exec, onConn_of hk.connection hk.drizzleCon]
    exact session_sendQuery env h hlive
  | recvCols =>
    obtain ⟨hlive, k, hk⟩ := hc.ok
    rw [exec, onConn_of hk.connection hk.drizzleCon]
    exact session_recvCols env h hlive hk.connection
  | recvRows =>
    obtain ⟨hlive, k, hk⟩ := hc.ok
    rw [exec, onConn_of hk.connection hk.drizzleCon]
    exact session_recvRows env h hlive hk.connection
  | recvFields =>
    obtain ⟨hlive, k, hk⟩ := hc.ok
    rw [exec, onConn_of hk.connection hk.drizzleCon]
    exact session_recvFields env h hlive hk.connection
  | ret rc => exact ⟨t, session_processed env h hc.ok.1⟩
  | done rc =>
    have hlive : s.r.live := by
      have := hc.ok
      cases rc with
      | declined => exact this.elim
      | _ => exact this.1
    exact ⟨t, session_done env h hlive⟩

end St

/-- A request that arrives has not said anything. -/
lemma session_init (w : Worker) (id : ℕ) (a : Arrival)
    (hp : p = .dbdConnect ∨ p = .finalize (.http 500)) :
    Session p (Req.init w id a) .idle where
  talk := rfl
  req := by simp [Req.calls, Req.init]
  fits _ := by
    rcases hp with rfl | rfl
    · exact ⟨rfl, rfl⟩
    · exact .inl rfl
  row _ := rfl
  started hne := absurd rfl hne
  status _ hne := absurd rfl hne

/-- The handler of an event is entered. -/
lemma session_fire (e : Event) (h : Session .loop s.r t) : Session (.event e) (e.fire s).r t := by
  have hr : (e.fire s).r.core = s.r.core ∧ (e.fire s).r.calls = s.r.calls := by
    unfold Event.fire
    split
    · split
      · exact ⟨rfl, rfl⟩
      · split <;> exact ⟨rfl, rfl⟩
    · exact ⟨rfl, rfl⟩
    · exact ⟨rfl, rfl⟩
  have hevent : Session (.event e) s.r t :=
    h.move rfl rfl rfl rfl h.fits fun hlive hne => absurd (h.statusN hlive (by simp)) hne
  exact hevent.congr hr.1 hr.2

end DrizzleNginx
