/-
# Every step moves connections in good order

For every position: a step of the module from a state in which connections are in custody
moves connections in good order, and ends at a position that fits what the request holds.
-/
import DrizzleNginx.Proofs.Custody

namespace DrizzleNginx

variable {c : Prop} {s s' : St} {p : Pos} {k : ℕ}

/-! ## Steps that stay with the connection -/

/-- At this position a request neither gets nor gives away a connection. -/
def Pos.stays : Pos → Bool
  | handlerTail => false
  | dbdConnect => false
  | next _ => false
  | finalize _ => false
  | _ => true

/-- A position that is reached by a step that stays with the connection. -/
def Pos.onward : Pos → Bool
  | crashed => false
  | dbdConnect => false
  | dbdConnected _ => false
  | next .nolive => false
  | done .declined => false
  | finalize .declined => false
  | _ => true

lemma Pos.ok_of_holds (hlive : s.r.live) (hk : s.Holds k) (hp : p.onward) :
    (p.after s.r).Ok s := by
  cases p with
  | loop =>
    unfold Pos.after Pos.settle
    cases hin : s.r.inHandler with
    | true => exact .inr ⟨hlive, .inl ⟨k, hk⟩⟩
    | false => exact ⟨hin, .inr ⟨hlive, .inl ⟨k, hk⟩⟩⟩
  | handlerTail => exact .inr ⟨hlive, .inl ⟨k, hk⟩⟩
  | crashed => cases hp
  | event e => exact ⟨hlive, .inl ⟨k, hk⟩⟩
  | dbdConnect => cases hp
  | dbdConnected => cases hp
  | next ft =>
    cases ft with
    | nolive => cases hp
    | error => exact ⟨hlive, .inr (.inl ⟨k, hk⟩)⟩
    | timeout => exact ⟨hlive, .inr (.inl ⟨k, hk⟩)⟩
  | done rc =>
    cases rc with
    | declined => cases hp
    | _ => exact ⟨hlive, k, hk⟩
  | finalize rc =>
    cases rc with
    | declined => cases hp
    | _ => exact ⟨hlive, .inr (.inl ⟨k, hk⟩)⟩
  | _ => exact ⟨hlive, k, hk⟩

/-- A position at which a request can be while it holds the connection by which it is rejected. -/
def Pos.rejects : Pos → Bool
  | loop => true
  | next .timeout => true
  | finalize rc => rc ≠ .declined ∧ rc ≠ .ok
  | _ => false

lemma Pos.onward_of_rejects (h : p.rejects) : p.onward := by
  cases p with
  | loop => rfl
  | next ft =>
    cases ft with
    | timeout => rfl
    | _ => cases h
  | finalize rc =>
    cases rc with
    | declined => cases h
    | _ => rfl
  | _ => cases h

lemma Pos.ok_of_rejected (hlive : s.r.live) (hrej : s.Rejected) (hp : p.rejects) :
    (p.after s.r).Ok s := by
  cases p with
  | loop =>
    unfold Pos.after Pos.settle
    cases hin : s.r.inHandler with
    | true => exact .inr ⟨hlive, .inr hrej⟩
    | false => exact ⟨hin, .inr ⟨hlive, .inr hrej⟩⟩
  | next ft =>
    cases ft with
    | timeout => exact ⟨hlive, .inr (.inr hrej)⟩
    | _ => cases hp
  | finalize rc =>
    cases rc with
    | declined => cases hp
    | _ => exact ⟨hlive, .inr (.inr hrej)⟩
  | _ => cases hp

namespace St

lemma onward_processEvents : s.processEvents.1.onward := by
  unfold processEvents
  split
  · rfl
  · split <;> rfl

lemma onward_processed (env : Env) {rc : Rc} : (s.processed env rc).1.onward := by
  unfold processed
  split
  · rfl
  · split
    · next h => cases rc <;> first | rfl | simp [Rc.failed] at h
    · split
      · simp only
        split <;> rfl
      · rfl

lemma onward_connect (env : Env) : (s.connect env k k).1.onward := by
  unfold connect
  simp only
  split <;> rfl

lemma onward_queryOk (env : Env) (h : ResultHeader) : (s.queryOk env h).1.onward := by
  unfold queryOk
  split
  · split <;> rfl
  · simp only
    split
    · rfl
    · split <;> rfl

lemma onward_sendQuery (env : Env) : (s.sendQuery env k k).1.onward := by
  unfold sendQuery
  simp only
  split
  · split <;> rfl
  · split <;> rfl
  · rfl
  · exact onward_queryOk env _

lemma onward_recvCols (env : Env) : (s.recvCols env k k).1.onward := by
  unfold recvCols
  simp only
  split
  · rfl
  · split
    · rfl
    · rfl
    · simp only
      split <;> rfl
    · rfl

lemma onward_rowOk (env : Env) (row : UInt64) : (s.rowOk env k row).1.onward := by
  unfold rowOk
  simp only
  split
  · rfl
  · split
    · rfl
    · split <;> rfl

lemma onward_recvRows (env : Env) : (s.recvRows env k k).1.onward := by
  unfold recvRows
  simp only
  split
  · rfl
  · split
    · rfl
    · split
      · rfl
      · rfl
      · exact onward_rowOk env _

lemma onward_recvFields (env : Env) : (s.recvFields env k k).1.onward := by
  unfold recvFields
  simp only
  split
  · rfl
  · split
    · rfl
    · rfl
    · rfl
    · simp only
      split <;> rfl

lemma onward_done (env : Env) {rc : Rc} (hrc : rc ≠ .declined) : (s.done env rc).1.onward := by
  unfold done
  simp only
  split
  · rfl
  · cases rc <;> first | rfl | exact absurd rfl hrc

lemma onward_resume (env : Env) : (s.resume env k).1.onward := by
  unfold resume
  simp only
  split <;> rfl

lemma onward_drainOutput (env : Env) (timedout : Bool) (hk : s.r.connection = some k)
    (hd : s.r.drizzleCon = some k) : (s.drainOutput env timedout).1.onward := by
  unfold drainOutput
  split
  · rfl
  · simp only
    split
    · split <;> rfl
    · split
      · rfl
      · split
        · simp only
          split <;> rfl
        · rw [onConn_of (s := s.setOut ((s.r.out.endDelay timedout).outputBufs env.flush
            s.r.loc).2) hk hd]
          exact onward_resume env

end St

/-! ## Every step moves connections in good order -/

/-- No allocation fails while a request holds the connection by which it is rejected. -/
def PlaceholderKept (env : Env) (p : Pos) (s : St) : Prop :=
  p = .dbdConnected .again → s.r.drizzleCon = none → s.r.bodyInFile → env.allocBody

instance (env : Env) (p : Pos) (s : St) : Decidable (PlaceholderKept env p s) :=
  inferInstanceAs (Decidable (p = .dbdConnected .again → s.r.drizzleCon = none →
    s.r.bodyInFile → env.allocBody))

/-- The event is a return of `getPeer`. -/
def ReqEvent.isGetPeer : ReqEvent → Bool
  | getPeer .. => true
  | _ => false

/-- The request is about to get a connection for the first time: it is still in the handler,
and nothing has been sent to a database. -/
structure Req.First (r : Req) : Prop where
  inHandler : r.inHandler
  requestSent : r.requestSent = false
  hist : ∀ e ∈ r.hist, ¬ e.isGetPeer

/-- What holds at a position besides, as long as the counter is right: there is room for another
attempt, a request is rejected in its first attempt only, before the handler has returned, and it
is not ended with the connection by which it is rejected. -/
def Pos.Counts (p : Pos) (s : St) : Prop :=
  match p with
  | .loop | .event _ | .finalize _ => ¬ s.Rejected
  | .dbdConnect => s.r.First ∨ ¬ s.w.Full
  | .dbdConnected .again => s.Rejected → s.r.inHandler ∧ s.r.requestSent = false
  | .dbdConnected .declined => ¬ s.w.Full
  | .next .nolive => True
  | .next _ => ¬ s.Rejected ∧ (s.Idle → ¬ s.w.Full)
  | _ => True

/-- A step moves connections in good order, and ends at a position that fits. -/
structure Advances (c : Prop) (s : St) (ps : Pos × St) : Prop where
  moves : Moves c s ps.2
  ok : (ps.1.after ps.2.r).Ok ps.2

lemma Pos.ok_of_ended (h : s.Ended) : (Pos.loop.after s.r).Ok s := by
  unfold Pos.after Pos.settle
  cases hin : s.r.inHandler with
  | true => exact .inl h
  | false => exact ⟨hin, .inl h⟩

/-- What the request holds does not depend on its history once it has called `getPeer`. -/
lemma Pos.Ok.log {rc : Rc} (h : Pos.Ok (.dbdConnected rc) s) (e : ReqEvent) :
    Pos.Ok (.dbdConnected rc) (s.log e) := by
  cases rc with
  | ok => exact h
  | error => exact ⟨h.1, h.2.connection, h.2.drizzleCon⟩
  | busy => exact ⟨h.1, h.2.connection, h.2.drizzleCon⟩
  | declined => exact ⟨h.1, h.2.connection, h.2.drizzleCon⟩
  | http status => exact h
  | done => exact ⟨h.1, h.2.imp fun k hk =>
      ⟨hk.connection, hk.drizzleCon, hk.lt, hk.drizzle, hk.fd⟩⟩
  | again =>
    refine ⟨h.1, h.2.imp ?_ (Or.imp ?_ ?_)⟩
    · exact Exists.imp fun k hk => ⟨hk.connection, hk.drizzleCon, hk.lt, hk.drizzle, hk.fd⟩
    · exact fun hi => ⟨hi.connection, hi.drizzleCon⟩
    · exact fun hp => ⟨hp.status, hp.started, hp.holds.imp fun k hk =>
        ⟨hk.connection, hk.drizzleCon, hk.lt, hk.drizzle, hk.fd⟩⟩

lemma advances_of_stays {ps : Pos × St} (h : Stays s ps.2) (hp : ps.1.onward)
    (hlive : s.r.live) (hk : s.Holds k) (hle : ∀ k, s.holders k ≤ 1) : Advances c s ps where
  moves := h.moves hle
  ok := Pos.ok_of_holds (h.live.trans hlive) (h.holds hk) hp

lemma Stays.holdsPlaceholder (h : Stays s s') (hk : s.HoldsPlaceholder k) :
    s'.HoldsPlaceholder k where
  connection := h.connection.trans hk.connection
  drizzleCon := h.drizzleCon.trans hk.drizzleCon
  lt := by rw [h.nconns]; exact hk.lt
  drizzle := by rw [h.drizzle]; exact hk.drizzle
  fd := by rw [h.fd]; exact hk.fd

lemma Stays.rejected (h : Stays s s') (hrej : s.Rejected) (hstatus : s'.r.statusN = s.r.statusN)
    (hstarted : s'.r.queryStarted = s.r.queryStarted) : s'.Rejected :=
  ⟨hstatus.trans hrej.status, hstarted.trans hrej.started,
    hrej.holds.imp fun _ hk => h.holdsPlaceholder hk⟩

lemma Stays.rejected_of (h : Stays s s') (hrej : s'.Rejected)
    (hstatus : s'.r.statusN = s.r.statusN) (hstarted : s'.r.queryStarted = s.r.queryStarted) :
    s.Rejected := by
  obtain ⟨hn, hq, k, hk⟩ := hrej
  refine ⟨hstatus.symm.trans hn, hstarted.symm.trans hq, k, h.connection.symm.trans hk.connection,
    h.drizzleCon.symm.trans hk.drizzleCon, ?_, ?_, ?_⟩
  · rw [← h.nconns]; exact hk.lt
  · rw [← h.drizzle]; exact hk.drizzle
  · rw [← h.fd]; exact hk.fd

/-- A request that stays with the connection by which it is rejected. -/
lemma advances_of_rejected {ps : Pos × St} (h : Stays s ps.2) (hp : ps.1.rejects)
    (hlive : s.r.live) (hrej : ps.2.Rejected) (hle : ∀ k, s.holders k ≤ 1) : Advances c s ps where
  moves := h.moves hle
  ok := Pos.ok_of_rejected (h.live.trans hlive) hrej hp

namespace St

lemma FreePeer.idle_of_failed (h : FreePeer true s s')
    (hs : s.Idle ∨ (∃ k, s.Holds k) ∨ s.Rejected) : s'.Idle := by
  cases h with
  | idle b hc =>
    rcases hs with hidle | ⟨k, hk⟩ | hrej
    · exact ⟨hidle.connection, hidle.drizzleCon⟩
    · simp [hk.connection] at hc
    · obtain ⟨k, hk⟩ := hrej.holds
      simp [hk.connection] at hc
  | saved hc hmax hfailed hr ht => cases hfailed
  | closed b hc hr => exact ⟨rfl, rfl⟩

lemma same_ended (es : List ReqEvent) : Same s (s.ended es) :=
  ⟨rfl, rfl, rfl, rfl, rfl, rfl, rfl, rfl, rfl⟩

lemma FinalizeRequest.exists_freePeer {rc : Rc} (h : FinalizeRequest s rc s') :
    ∃ s₁ es, FreePeer false (s.log (.finalize rc)) s₁ ∧ s' = s₁.ended es := by
  cases h with
  | completed hfree hrc rc' => exact ⟨_, _, hfree, rfl⟩
  | failed hfree hrc => exact ⟨_, _, hfree, rfl⟩

lemma advances_finalizeRequest (env : Env) {rc : Rc} (h : Custody (.finalize rc) s) :
    Advances ((Pos.finalize rc).Counts s) s (s.finalizeRequest env rc) := by
  obtain ⟨hrc, hlive, hs⟩ : rc ≠ .declined ∧ s.r.live ∧
      (s.Idle ∨ (∃ k, s.Holds k) ∨ s.Rejected) := by
    cases rc with
    | declined => exact absurd h.ok id
    | _ => exact ⟨by simp, h.ok⟩
  have hsame : Same s (s.log (.finalize rc)) := ⟨rfl, rfl, rfl, rfl, rfl, rfl, rfl, rfl, rfl⟩
  obtain ⟨hpos, hfin⟩ := finalizeRequest_cases env hrc h.queues
  obtain ⟨s₁, es, hfree, hs'⟩ := hfin.exists_freePeer
  have hm : Moves ((Pos.finalize rc).Counts s) (s.log (.finalize rc)) s₁ := by
    refine hfree.moves (hs.imp ?_ (Or.imp ?_ ?_)) (fun hcount hrej => hcount ?_)
      h.holders_le fun item hmem => (h.items item hmem).imp ?_
    · exact fun hi => ⟨hi.connection, hi.drizzleCon⟩
    · exact Exists.imp fun k hk => ⟨hk.connection, hk.drizzleCon, hk.lt, hk.drizzle, hk.fd⟩
    · exact fun hrej => ⟨hrej.status, hrej.started, hrej.holds.imp fun k hk =>
        ⟨hk.connection, hk.drizzleCon, hk.lt, hk.drizzle, hk.fd⟩⟩
    · exact ⟨hrej.status, hrej.started, hrej.holds.imp fun k hk =>
        ⟨hk.connection, hk.drizzleCon, hk.lt, hk.drizzle, hk.fd⟩⟩
    · exact fun k hk => ⟨hk.connection, hk.drizzleCon, hk.lt, hk.drizzle, hk.fd⟩
  refine ⟨hs' ▸ (hsame.moves hm).same (same_ended es), ?_⟩
  rw [hpos, hs']
  exact Pos.ok_of_ended ⟨rfl, hfree.connection⟩

lemma advances_next {ft : Ft} (h : Custody (.next ft) s) :
    Advances ((Pos.next ft).Counts s) s (s.next ft) := by
  obtain ⟨s₁, hs₁, hnext⟩ := next_cases (s := s) ft h.queues
  -- the connection is closed
  obtain ⟨hm, hidle, hlive⟩ : Moves ((Pos.next ft).Counts s) s s₁ ∧ s₁.Idle ∧ s₁.r.live := by
    split at hs₁
    · next hft =>
      subst hft
      obtain ⟨hlive, hidle⟩ := h.ok
      rw [hs₁]
      exact ⟨(Stays.refl s).moves h.holders_le, hidle, hlive⟩
    · next hft =>
      obtain ⟨hlive, hs⟩ : s.r.live ∧ (s.Idle ∨ (∃ k, s.Holds k) ∨ s.Rejected) := by
        cases ft with
        | nolive => exact absurd rfl hft
        | _ => exact h.ok
      have hcount : (Pos.next ft).Counts s → ¬ s.Rejected := by
        cases ft with
        | nolive => exact absurd rfl hft
        | _ => exact And.left
      exact ⟨hs₁.moves hs hcount h.holders_le h.items, hs₁.idle_of_failed hs,
        hs₁.live.trans hlive⟩
  generalize s.next ft = ps at hnext ⊢
  obtain ⟨p', s'⟩ := ps
  cases hnext with
  | stop hstatus => exact ⟨hm, hlive, .inl hidle⟩
  | retry hstarted hleft hft =>
    exact ⟨hm.same ⟨rfl, rfl, rfl, rfl, rfl, rfl, rfl, rfl, rfl⟩, hlive,
      ⟨hidle.connection, hidle.drizzleCon⟩, hstarted⟩

lemma advances_dbdConnect (env : Env) (h : Custody .dbdConnect s) :
    Advances c s (s.dbdConnect env) := by
  obtain ⟨hlive, hidle, _⟩ := h.ok
  unfold dbdConnect
  split
  · exact ⟨(Stays.refl s).moves h.holders_le, hlive, .inl hidle⟩
  · have hget := getPeer_cases env.peer hidle.connection
    exact ⟨(hget.moves hidle h.holders_le h.items).same
      ⟨rfl, rfl, rfl, rfl, rfl, rfl, rfl, rfl, rfl⟩, (hget.ok h.ok h.ordered h.items).log _⟩

lemma stays_attach (env : Env) (rc : Rc) (hk : s.r.connection = some k) :
    Stays s (s.attach env rc k).2 := by
  have h₁ : Stays s s.clearHeader := (Stays.refl s).modReq rfl rfl
  have h₂ := h₁.modReq (f := fun r => { r with requestSent := false }) rfl rfl
  unfold attach
  simp only
  split
  · exact h₁
  · split
    · exact h₁
    · split
      · dsimp only
        exact h₂.modWrite hk _
      · exact h₂

/-- Behind `NGX_AGAIN`, and if nothing fails, the request waits for its connection. -/
lemma attach_waits (env : Env) (hreinit : s.r.requestSent → env.reinit)
    (hbody : s.r.bodyInFile → env.allocBody) : ∃ r g, s.attach env .again k =
      (.loop, ({ s with r := r } : St).modWrite k g) ∧
      r = { s.r with statusN := r.statusN, requestSent := r.requestSent } := by
  have hsent : (s.r.requestSent && !env.reinit) = false := by
    cases hs : s.r.requestSent with
    | true => simp [hreinit hs]
    | false => rfl
  have hfile : (s.r.bodyInFile && !env.allocBody) = false := by
    cases hb : s.r.bodyInFile with
    | true => simp [hbody hb]
    | false => rfl
  unfold attach
  simp only [clearHeader, modReq_r, hsent, hfile, Bool.false_eq_true, if_false, if_true]
  exact ⟨_, _, rfl, rfl⟩

lemma onward_attach (env : Env) (rc : Rc) : (s.attach env rc k).1.onward := by
  unfold attach
  simp only
  split
  · rfl
  · split
    · rfl
    · split <;> rfl

/-- A request that is about to be rejected waits for that, or is ended. -/
lemma attach_rejected (env : Env) (hk : s.r.connection = some k) (hrej : s.Rejected) :
    (s.attach env .again k).1.rejects ∧ (s.attach env .again k).2.Rejected := by
  have hstatus : (s.attach env .again k).2.r.statusN = 0 ∧
      (s.attach env .again k).2.r.queryStarted = s.r.queryStarted ∧
      (s.attach env .again k).1.rejects := by
    have hclear : s.clearHeader.r.statusN = 0 := by
      unfold clearHeader
      dsimp only [modReq_r]
      split
      · rfl
      · exact hrej.status
    unfold attach
    simp only
    split
    · exact ⟨hclear, rfl, rfl⟩
    · split
      · exact ⟨hclear, rfl, rfl⟩
      · exact ⟨hclear, rfl, rfl⟩
  obtain ⟨hstatus, hstarted, hp⟩ := hstatus
  exact ⟨hp, (stays_attach env .again hk).rejected hrej (hstatus.trans hrej.status.symm) hstarted⟩

/-- In the handler, only the allocation for the body ends a request that is about to be rejected. -/
lemma attach_placeholder (env : Env) (k : ℕ) (hsent : s.r.requestSent = false)
    (hbody : s.r.bodyInFile → env.allocBody) : (s.attach env .again k).1 = .loop := by
  have hbody : (s.r.bodyInFile && !env.allocBody) = false := by
    cases hb : s.r.bodyInFile with
    | true => simp [hbody hb]
    | false => rfl
  simp [attach, clearHeader, hsent, hbody]

lemma advances_dbdConnected (env : Env) {rc : Rc} (h : Custody (.dbdConnected rc) s) :
    Advances c s (s.dbdConnected env rc) := by
  have hrefl := (Stays.refl s).moves (c := c) h.holders_le
  have hok := h.ok
  unfold dbdConnected
  cases rc with
  | error => exact ⟨hrefl, hok.1, .inl hok.2⟩
  | busy => exact ⟨hrefl, hok.1, hok.2⟩
  | declined => exact ⟨hrefl, hok.1, .inl hok.2⟩
  | ok => exact absurd hok id
  | http status => exact absurd hok id
  | done =>
    obtain ⟨hlive, k, hk⟩ := hok
    simp only [hk.connection]
    exact advances_of_stays (stays_attach env _ hk.connection) (onward_attach env _) hlive hk
      h.holders_le
  | again =>
    obtain ⟨hlive, ⟨k, hk⟩ | hidle | hrej⟩ := hok
    · simp only [hk.connection]
      exact advances_of_stays (stays_attach env _ hk.connection) (onward_attach env _) hlive hk
        h.holders_le
    · simp only [hidle.connection]
      exact ⟨hrefl, hlive, hidle⟩
    · -- the request is about to be rejected, or there is no memory
      obtain ⟨k, hk⟩ := hrej.holds
      simp only [hk.connection]
      obtain ⟨hp, hrej'⟩ := attach_rejected env hk.connection hrej
      exact advances_of_rejected (stays_attach env .again hk.connection) hp hlive hrej'
        h.holders_le

/-- What `handlerTail` does. -/
lemma handlerTail_cases (s : St) :
    (s.handlerTail = (.loop, s.modReq fun r => { r with inHandler := false }) ∧
      ∀ k, s.r.connection = some k → (s.w.conns k).fd ≠ some 0) ∨
    ∃ k, s.r.connection = some k ∧ (s.w.conns k).fd = some 0 ∧ s.handlerTail =
      (.finalize (.http 503),
        (s.modReq fun r => { r with inHandler := false }).dropPlaceholder k) := by
  cases hc : s.r.connection with
  | none => exact .inl ⟨by simp [handlerTail, hc], by simp⟩
  | some k =>
    by_cases hfd : (s.w.conns k).fd = some 0
    · exact .inr ⟨k, rfl, hfd, by simp [handlerTail, hc, hfd]⟩
    · exact .inl ⟨by simp [handlerTail, hc, hfd], by rintro _ ⟨⟩; exact hfd⟩

lemma advances_handlerTail (h : Custody .handlerTail s) : Advances c s s.handlerTail := by
  have hsame : Same s (s.modReq fun r => { r with inHandler := false }) :=
    ⟨rfl, rfl, rfl, rfl, rfl, rfl, rfl, rfl, rfl⟩
  rcases handlerTail_cases s with ⟨heq, hfd⟩ | ⟨k, hk, hfd, heq⟩
  · rw [heq]
    refine ⟨((Stays.refl s).moves h.holders_le).same hsame, rfl, ?_⟩
    rcases h.ok with hended | ⟨hlive, ⟨k, hk⟩ | hrej⟩
    · exact .inl ⟨hended.live, hended.connection⟩
    · exact .inr ⟨hlive, .inl ⟨k, hk.connection, hk.drizzleCon, hk.lt, hk.drizzle, hk.fd⟩⟩
    · obtain ⟨k, hk⟩ := hrej.holds
      exact absurd hk.fd (hfd k hk.connection)
  · rw [heq]
    rcases h.ok with hended | ⟨hlive, ⟨j, hj⟩ | hrej⟩
    · simp [hended.connection] at hk
    · obtain rfl : j = k := by simpa [hj.connection] using hk
      exact absurd hfd hj.fd
    · obtain ⟨j, hj⟩ := hrej.holds
      obtain rfl : j = k := by simpa [hj.connection] using hk
      exact ⟨placeholder_moves (f := fun c => { c with write := c.write.delTimer }) hj h.items
        (fun _ => ⟨rfl, rfl⟩) rfl rfl rfl rfl rfl rfl rfl fun _ => rfl, hlive,
        .inl ⟨rfl, hj.drizzleCon⟩⟩

lemma stays_dbHandler (timedout broken : Bool) : Stays s (s.dbHandler timedout broken).2 := by
  have h₁ := (Stays.refl s).modReq (f := fun r => { r with requestSent := true })
    rfl rfl
  unfold dbHandler
  simp only
  split
  · exact h₁
  · split
    · exact h₁
    · split <;> exact h₁

lemma onward_dbHandler (timedout broken : Bool) (hk : s.r.connection = some k) :
    (s.dbHandler timedout broken).1.onward := by
  unfold dbHandler
  simp only [modReq_r, hk]
  split
  · rfl
  · split <;> rfl

lemma stays_checkBrokenConnection (delEvent : Bool) :
    Stays s (s.checkBrokenConnection delEvent).2 := by
  unfold checkBrokenConnection
  split
  · exact .refl s
  · dsimp only
    exact (Stays.refl s).modReq rfl rfl

lemma onward_checkBrokenConnection (delEvent : Bool) :
    (s.checkBrokenConnection delEvent).1.onward := by
  unfold checkBrokenConnection
  split <;> rfl

lemma stays_handleEvent (env : Env) (e : Event) (hk : s.r.connection = some k)
    (hd : s.r.drizzleCon = some k) : Stays s (s.handleEvent env e).2 := by
  unfold handleEvent
  split
  · exact stays_dbHandler _ _
  · split
    · exact (quiet_drainOutput env _ hk hd).stays
    · exact .refl s
    · exact .refl s
  · exact stays_checkBrokenConnection _
  · exact .refl s

lemma onward_handleEvent (env : Env) (e : Event) (hk : s.r.connection = some k)
    (hd : s.r.drizzleCon = some k) : (s.handleEvent env e).1.onward := by
  unfold handleEvent
  split
  · exact onward_dbHandler _ _ hk
  · split
    · exact onward_drainOutput env _ hk hd
    · rfl
    · rfl
  · exact onward_checkBrokenConnection _
  · rfl

/-- An event of a request that holds the connection by which it is rejected: the request goes on
waiting, or it is ended, or the timer of the connection has expired. -/
lemma handleEvent_of_rejected (env : Env) {e : Event} (he : e.spares) (hrej : s.Rejected)
    (hord : s.r.Ordered (.event e)) : ∃ p sent err, p.rejects ∧ s.handleEvent env e =
      (p, s.modReq fun r => { r with requestSent := sent, connError := err }) := by
  obtain ⟨k, hk⟩ := hrej.holds
  unfold handleEvent
  split
  · next write timedout broken =>
    obtain rfl : timedout = true := he
    refine ⟨.next .timeout, true, s.r.connError, rfl, ?_⟩
    simp only [dbHandler, modReq_r, hk.connection]
    rfl
  · split
    · next hdrain => cases hrej.started.symm.trans (hord.drains hdrain)
    · exact ⟨.loop, _, _, rfl, rfl⟩
    · exact ⟨.loop, _, _, rfl, rfl⟩
  · unfold checkBrokenConnection
    split
    · exact ⟨.finalize (.http 500), _, _, rfl, rfl⟩
    · exact ⟨.finalize (.http 499), _, true, rfl, rfl⟩
  · exact ⟨.finalize .done, _, _, rfl, rfl⟩

/-- An event is handled for a request that has a connection. -/
lemma connection_of_event {e : Event} (h : Custody (.event e) s) :
    ∃ k, s.r.connection = some k := by
  rcases h.ok.2 with ⟨k, hk⟩ | ⟨_, hrej⟩
  · exact ⟨k, hk.connection⟩
  · exact hrej.holds.imp fun _ hk => hk.connection

/-- Behind a query this is a database connection. -/
lemma holds_of_event {e : Event} (h : Custody (.event e) s) (hstarted : s.r.queryStarted) :
    ∃ k, s.Holds k := by
  refine h.ok.2.resolve_right fun hrej => ?_
  cases hstarted.symm.trans hrej.2.started

lemma stays_dbdConnected (env : Env) (rc : Rc) : Stays s (s.dbdConnected env rc).2 := by
  unfold dbdConnected
  split
  · exact .refl s
  · exact .refl s
  · exact .refl s
  · split
    · exact .refl s
    · next hk => exact stays_attach env _ hk

theorem stays_exec (env : Env) (hc : Custody p s) (hp : p.stays) : Stays s (s.exec env p).2 := by
  cases p with
  | loop => exact .refl s
  | handlerTail => cases hp
  | crashed => exact .refl s
  | dbdConnect => cases hp
  | dbdConnected rc => exact stays_dbdConnected env rc
  | next ft => cases hp
  | finalize rc => cases hp
  | event e =>
    rcases hc.ok.2 with ⟨k, hk⟩ | ⟨he, hrej⟩
    · exact stays_handleEvent env e hk.connection hk.drizzleCon
    · obtain ⟨_, _, _, _, heq⟩ := handleEvent_of_rejected env he hrej hc.ordered
      rw [exec, heq]
      exact (Stays.refl s).modReq
        (f := fun r => { r with requestSent := _, connError := _ }) rfl rfl
  | processEvents => exact stays_processEvents
  | connect =>
    obtain ⟨_, k, hk⟩ := hc.ok
    rw [exec, onConn_of hk.connection hk.drizzleCon]
    exact stays_connect env hk.connection
  | sendQuery =>
    obtain ⟨_, k, hk⟩ := hc.ok
    rw [exec, onConn_of hk.connection hk.drizzleCon]
    exact stays_sendQuery env hk.connection
  | recvCols =>
    obtain ⟨_, k, hk⟩ := hc.ok
    rw [exec, onConn_of hk.connection hk.drizzleCon]
    exact stays_recvCols env hk.connection
  | recvRows =>
    obtain ⟨_, k, hk⟩ := hc.ok
    rw [exec, onConn_of hk.connection hk.drizzleCon]
    exact stays_recvRows env hk.connection
  | recvFields =>
    obtain ⟨_, k, hk⟩ := hc.ok
    rw [exec, onConn_of hk.connection hk.drizzleCon]
    exact stays_recvFields env hk.connection
  | ret rc => exact stays_processed env rc
  | done rc => exact stays_done env rc

/-- A request that holds a connection keeps it until its processing stands where a connection is
given away. -/
lemma exec_onward (env : Env) (h : Custody p s) (hp : p.stays) (hcrash : p ≠ .crashed)
    (hget : ∀ rc, p ≠ .dbdConnected rc) : (s.exec env p).1.onward := by
  cases p with
  | loop => rfl
  | crashed => exact absurd rfl hcrash
  | dbdConnected rc => exact absurd rfl (hget rc)
  | event e =>
    rcases h.ok.2 with ⟨k, hk⟩ | ⟨he, hrej⟩
    · exact onward_handleEvent env e hk.connection hk.drizzleCon
    · obtain ⟨p, _, _, hp, heq⟩ := handleEvent_of_rejected env he hrej h.ordered
      rw [exec, heq]
      exact Pos.onward_of_rejects hp
  | processEvents => exact onward_processEvents
  | connect =>
    obtain ⟨_, k, hk⟩ := h.ok
    rw [exec, onConn_of hk.connection hk.drizzleCon]
    exact onward_connect env
  | sendQuery =>
    obtain ⟨_, k, hk⟩ := h.ok
    rw [exec, onConn_of hk.connection hk.drizzleCon]
    exact onward_sendQuery env
  | recvCols =>
    obtain ⟨_, k, hk⟩ := h.ok
    rw [exec, onConn_of hk.connection hk.drizzleCon]
    exact onward_recvCols env
  | recvRows =>
    obtain ⟨_, k, hk⟩ := h.ok
    rw [exec, onConn_of hk.connection hk.drizzleCon]
    exact onward_recvRows env
  | recvFields =>
    obtain ⟨_, k, hk⟩ := h.ok
    rw [exec, onConn_of hk.connection hk.drizzleCon]
    exact onward_recvFields env
  | ret rc => exact onward_processed env
  | done rc =>
    have hrc : rc ≠ .declined := by
      rintro rfl
      exact h.ok
    exact onward_done env hrc
  | _ => cases hp

/-- Whatever nginx, libdrizzle and the client do, a step of the module moves connections in
good order. -/
theorem exec_advances (env : Env) (h : Custody p s) :
    Advances (p.Counts s) s (s.exec env p) := by
  -- a request that holds a connection, and stays with it
  have hheld : p.stays → p ≠ .crashed → (∀ rc, p ≠ .dbdConnected rc) →
      (s.r.live ∧ ∃ k, s.Holds k) → Advances (p.Counts s) s (s.exec env p) :=
    fun hp hcrash hget ⟨hlive, k, hk⟩ => advances_of_stays (stays_exec env h hp)
      (exec_onward env h hp hcrash hget) hlive hk h.holders_le
  cases p with
  | loop =>
    refine ⟨(Stays.refl s).moves h.holders_le, ?_⟩
    have hin := h.ok.1
    unfold Pos.after Pos.settle
    simp only [exec, hin]
    exact h.ok
  | handlerTail => exact advances_handlerTail h
  | crashed => exact ⟨(Stays.refl s).moves h.holders_le, h.ok⟩
  | dbdConnect => exact advances_dbdConnect env h
  | dbdConnected rc => exact advances_dbdConnected env h
  | next ft => exact advances_next h
  | finalize rc => exact advances_finalizeRequest env h
  | event e =>
    rcases h.ok.2 with hk | ⟨he, hrej⟩
    · exact hheld rfl nofun nofun ⟨h.ok.1, hk⟩
    · have hstays := stays_exec env h rfl
      obtain ⟨p, _, _, hp, heq⟩ := handleEvent_of_rejected env he hrej h.ordered
      rw [exec, heq] at hstays ⊢
      exact advances_of_rejected hstays hp h.ok.1 (hstays.rejected hrej rfl rfl) h.holders_le
  | done rc =>
    have hok := h.ok
    cases rc with
    | declined => exact hok.elim
    | _ => exact hheld rfl nofun nofun hok
  | _ => exact hheld rfl nofun nofun h.ok

/-- The pool has room, as far as the counter of a pool that rejects requests says. -/
def Bounded (s : St) : Prop := s.w.conf.maxCached ≠ 0 → s.w.conf.overflow = .reject →
  s.counted ≤ s.w.pool.activeConns.toNat ∧ s.w.pool.activeConns.toNat ≤ s.w.conf.maxCached

/-- A failed attempt leaves room for the next one. -/
lemma FreePeer.room (h : FreePeer true s s') (hb : s.Bounded)
    (hs : (∃ k, s.Holds k) ∨ s.Idle ∧ ¬ s.w.Full) : ¬ s'.w.Full := by
  cases h with
  | idle b hc =>
    rcases hs with ⟨k, hk⟩ | ⟨_, hroom⟩
    · simp [hk.connection] at hc
    · exact hroom
  | saved hc hmax hfailed hr ht => cases hfailed
  | closed b hc hr =>
    rcases hs with ⟨k, hk⟩ | ⟨hidle, _⟩
    · rintro ⟨hmax, hrej, hfull⟩
      simp only [dropConnection, log_w, modReq_w, Worker.freeConnection_conf,
        Worker.freeConnection_pool] at hmax hrej hfull
      obtain ⟨hle, hmax⟩ := hb hmax hrej
      have hpos : 1 ≤ s.counted := by simp [counted, onDb, hk.connection, hk.drizzle]
      have hone : (1 : UInt64) ≤ s.w.pool.activeConns :=
        UInt64.le_iff_toNat_le.mpr (hpos.trans hle)
      rw [UInt64.toNat_sub_of_le _ _ hone, UInt64.toNat_one] at hfull
      omega
    · simp [hidle.connection] at hc

/-- An attempt that was refused is not counted. -/
lemma GetPeer.room_of_declined (h : s.GetPeer .declined s') : ¬ s'.w.Full := by
  cases h with
  | create hroom h =>
    cases h with
    | refused hrc hcon hstate => simpa [Worker.Full, addCon, picked, selectPeer] using hroom
    | fresh hrc hcon => simp at hrc

/-- A request is rejected only when the pool is full. -/
lemma GetPeer.full_of_rejected {rc : Rc} (h : s.GetPeer rc s') (hidle : s.Idle)
    (hitems : ∀ item ∈ s.w.pool.cache, ∃ k, item.Pools s.w k) (hrej : s'.Rejected) :
    s.w.Full ∧ s'.r.inHandler = s.r.inHandler ∧ s'.r.requestSent = s.r.requestSent := by
  obtain ⟨j, hj⟩ := hrej.holds
  cases h with
  | @single item cache hmax hsingle hcache =>
    obtain ⟨k, hk⟩ := hitems item (by rw [hcache]; exact List.mem_cons_self)
    cases hk.drizzleCon.symm.trans hj.drizzleCon
  | busy hleft hmiss => cases hidle.connection.symm.trans hj.connection
  | @multi item l₁ l₂ hmax hmulti hcache haddr hfirst hleft =>
    obtain ⟨k, hk⟩ := hitems item (by rw [hcache]; simp)
    cases hk.drizzleCon.symm.trans hj.drizzleCon
  | overflow getConn hfull hmiss hleft => cases getConn <;> exact ⟨hfull, rfl, rfl⟩
  | create hroom h hmiss hleft =>
    cases h with
    | noMemory => cases hidle.connection.symm.trans hj.connection
    | refused hrc hcon hstate => cases hj.connection
    | fresh hrc hcon => cases hj.drizzleCon

lemma counts_of_holds (hk : s.Holds k) (hp : p.onward) : (p.after s.r).Counts s := by
  have hrej : ¬ s.Rejected := not_rejected (.inr ⟨k, hk⟩)
  cases p with
  | loop =>
    unfold Pos.after Pos.settle
    cases s.r.inHandler with
    | true => exact trivial
    | false => exact hrej
  | event e => exact hrej
  | finalize rc => exact hrej
  | dbdConnect => cases hp
  | dbdConnected rc => cases hp
  | next ft =>
    cases ft with
    | nolive => exact trivial
    | _ => exact ⟨hrej, fun hidle => by cases hidle.connection.symm.trans hk.connection⟩
  | _ => exact trivial

/-- Unless an allocation fails, the counter stays right. -/
theorem exec_counts {env : Env} (h : Custody p s) (hb : s.Bounded) (hcounts : p.Counts s)
    (hkept : PlaceholderKept env p s) :
    ((s.exec env p).1.after (s.exec env p).2.r).Counts (s.exec env p).2 := by
  have hheld : p.stays → p ≠ .crashed → (∀ rc, p ≠ .dbdConnected rc) → (∃ k, s.Holds k) →
      ((s.exec env p).1.after (s.exec env p).2.r).Counts (s.exec env p).2 :=
    fun hp hcrash hget ⟨_, hk⟩ =>
      counts_of_holds ((stays_exec env h hp).holds hk) (exec_onward env h hp hcrash hget)
  have hnone : ∀ {s' : St}, s'.r.connection = none → ¬ s'.Rejected := by
    rintro s' hnone ⟨_, _, j, hj⟩
    cases hnone.symm.trans hj.connection
  cases p with
  | loop =>
    unfold Pos.after Pos.settle
    simp only [exec, h.ok.1]
    exact hcounts
  | crashed => exact trivial
  | handlerTail =>
    rcases handlerTail_cases s with ⟨heq, hfd⟩ | ⟨k, _, _, heq⟩
    · rw [exec, heq]
      rintro ⟨_, _, j, hj⟩
      exact hfd j hj.connection hj.fd
    · rw [exec, heq]
      exact hnone rfl
  | event e =>
    -- a request that is rejected does not wait for events
    rcases h.ok.2 with hk | ⟨_, hrej⟩
    · exact hheld rfl nofun nofun hk
    · exact absurd hrej hcounts
  | dbdConnect =>
    obtain ⟨_, hidle, _⟩ := h.ok
    have hget := getPeer_cases env.peer hidle.connection
    simp only [exec, dbdConnect]
    split
    · exact hnone hidle.connection
    · generalize s.getPeer env.peer = ps at hget ⊢
      obtain ⟨rc, s'⟩ := ps
      cases rc with
      | again =>
        -- the request is rejected because the pool is full; this is its first attempt
        rintro ⟨hstatus, hstarted, j, hj⟩
        obtain ⟨hfull, hin, hsent⟩ := hget.full_of_rejected hidle h.items
          ⟨hstatus, hstarted, j, hj.connection, hj.drizzleCon, hj.lt, hj.drizzle, hj.fd⟩
        have hfirst := hcounts.resolve_right (not_not_intro hfull)
        exact ⟨hin.trans hfirst.inHandler, hsent.trans hfirst.requestSent⟩
      | declined => exact hget.room_of_declined
      | _ => exact trivial
  | dbdConnected rc =>
    have hok := h.ok
    cases rc with
    | ok => exact hok.elim
    | http status => exact hok.elim
    | error => exact show ¬ s.Rejected from hnone hok.2.connection
    | busy => exact trivial
    | declined => exact show ¬ s.Rejected ∧ _ from ⟨hnone hok.2.connection, fun _ => hcounts⟩
    | done =>
      obtain ⟨k, hk⟩ := hok.2
      simp only [exec, dbdConnected, hk.connection]
      exact counts_of_holds ((stays_attach env _ hk.connection).holds hk) (onward_attach env _)
    | again =>
      simp only [exec, dbdConnected]
      rcases hok.2 with ⟨k, hk⟩ | hidle | hrej
      · simp only [hk.connection]
        exact counts_of_holds ((stays_attach env _ hk.connection).holds hk) (onward_attach env _)
      · simp only [hidle.connection]
        exact trivial
      · -- the request is still in the handler, and goes to its end
        obtain ⟨hin, hsent⟩ := hcounts hrej
        obtain ⟨k, hk⟩ := hrej.holds
        simp only [hk.connection]
        have hloop := attach_placeholder env k hsent (hkept rfl hk.drizzleCon)
        unfold Pos.after Pos.settle
        rw [hloop, (stays_attach env .again hk.connection).inHandler, hin]
        exact trivial
  | next ft =>
    obtain ⟨s₁, hs₁, hnext⟩ := next_cases (s := s) ft h.queues
    have hc : s₁.r.connection = none := by
      split at hs₁
      · next hft =>
        subst hft
        exact hs₁ ▸ h.ok.2.connection
      · exact hs₁.connection
    rw [exec]
    generalize s.next ft = ps at hnext ⊢
    obtain ⟨p', s'⟩ := ps
    cases hnext with
    | stop hstatus => exact hnone hc
    | retry hstarted hleft hft =>
      rw [if_neg hft] at hs₁
      obtain ⟨hok, hrej, hroom⟩ : (s.Idle ∨ (∃ k, s.Holds k) ∨ s.Rejected) ∧ ¬ s.Rejected ∧
          (s.Idle → ¬ s.w.Full) := by
        cases ft with
        | nolive => exact absurd rfl hft
        | _ => exact ⟨h.ok.2, hcounts⟩
      refine .inr (hs₁.room hb ?_)
      rcases hok with hidle | hk | hrej'
      · exact .inr ⟨hidle, hroom hidle⟩
      · exact .inl hk
      · exact absurd hrej' hrej
  | finalize rc =>
    have hrc : rc ≠ .declined := by
      rintro rfl
      exact h.ok
    obtain ⟨hloop, hfin⟩ := finalizeRequest_cases env hrc h.queues
    obtain ⟨s₁, es, hfree, hs'⟩ := hfin.exists_freePeer
    rw [exec, hloop, hs']
    unfold Pos.after Pos.settle
    cases hin : (s₁.ended es).r.inHandler with
    | true => exact trivial
    | false => exact hnone hfree.connection
  | done rc =>
    refine hheld rfl nofun nofun ?_
    have hok := h.ok
    cases rc with
    | declined => exact hok.elim
    | _ => exact hok.2
  | _ => exact hheld rfl nofun nofun h.ok.2

end St

end DrizzleNginx
