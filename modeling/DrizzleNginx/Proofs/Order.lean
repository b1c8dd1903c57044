/-
# The order of things in the life of a request

A step of the module keeps the order: reading starts behind the query, output waits for the
client behind the query, and only the end of a result gives a request its status, behind which
it is finalized at once.
-/
import DrizzleNginx.Proofs.Advance
import DrizzleNginx.Proofs.Outcome

namespace DrizzleNginx

variable {s s' : St} {p p' : Pos} {r r' : Req} {k : ℕ}

/-- The fields of a request that `Req.Ordered` is about. -/
def Req.marks (r : Req) : Bool × ℕ × Bool × DbState × WriteHandler :=
  (r.live, r.statusN, r.queryStarted, r.state, r.writeHandler)

namespace Req.Ordered

/-- Where a request goes without a change of these fields. -/
lemma move (h : r.Ordered p) (hm : r'.marks = r.marks) (hp : ∀ rc, p ≠ .finalize rc)
    (hp' : p'.receives → r.queryStarted) : r'.Ordered p' := by
  simp only [marks, Prod.mk.injEq] at hm
  obtain ⟨hlive, hstatus, hstarted, hstate, hhandler⟩ := hm
  refine ⟨fun hl _ => ?_, fun hr => ?_, ?_, ?_⟩
  · exact hstatus.trans (h.status (hlive.symm.trans hl) hp)
  · exact hstarted.trans (hp' hr)
  · rw [hstate, hstarted]
    exact h.state
  · rw [hhandler, hstarted]
    exact h.drains

/-- To a position where no result is read. -/
lemma pass (h : r.Ordered p) (hm : r'.marks = r.marks) (hp : ∀ rc, p ≠ .finalize rc)
    (hp' : p'.receives = false) : r'.Ordered p' :=
  h.move hm hp fun hr => absurd (hp'.symm.trans hr) Bool.false_ne_true

/-- Behind a query, only the status matters. -/
lemma of_started (hstarted : r.queryStarted)
    (hstatus : r.live → (∀ rc, p ≠ .finalize rc) → r.statusN = 0) : r.Ordered p :=
  ⟨hstatus, fun _ => hstarted, fun _ => hstarted, fun _ => hstarted⟩

/-- A step behind a query, unless it is the end of the result. -/
lemma behind (h : r.Ordered p) (hstarted : r.queryStarted) (hp : ∀ rc, p ≠ .finalize rc)
    (hlive : r'.live = r.live) (hstatus : r'.statusN = r.statusN)
    (hstarted' : r'.queryStarted = r.queryStarted) : r'.Ordered p' :=
  of_started (hstarted'.trans hstarted) fun hl _ =>
    hstatus.trans (h.status (hlive.symm.trans hl) hp)

/-- The functions about output change nothing of this behind a query. -/
lemma quiet (h : s.r.Ordered p) (hq : Quiet s s') (hstarted : s.r.queryStarted)
    (hp : ∀ rc, p ≠ .finalize rc) : s'.r.Ordered p' :=
  h.behind hstarted hp (congrArg Req.live hq.req :) (congrArg Req.statusN hq.req :)
    (congrArg Req.queryStarted hq.req :)

lemma after (h : r.Ordered p) : r.Ordered (p.after r) := by
  cases p with
  | loop =>
    unfold Pos.after Pos.settle
    cases r.inHandler with
    | true => exact ⟨fun hl _ => h.status hl nofun, nofun, h.state, h.drains⟩
    | false => exact h
  | _ => exact h

end Req.Ordered

namespace St

lemma FreePeer.marks {failed : Bool} (h : FreePeer failed s s') : s'.r.marks = s.r.marks := by
  cases h <;> rfl

/-- Getting a connection changes nothing of this but the state. -/
lemma GetPeer.marks {rc : Rc} (h : GetPeer s rc s') : ∃ state,
    s'.r.marks = { s.r with state := state }.marks ∧
      (state = s.r.state ∨ state = .connect ∨ state = .idle) := by
  cases h with
  | overflow getConn hfull =>
    cases getConn <;> exact ⟨_, rfl, .inl rfl⟩
  | create hroom h =>
    cases h with
    | noMemory => exact ⟨_, rfl, .inl rfl⟩
    | refused hrc hcon hstate => exact ⟨_, rfl, hstate⟩
    | fresh hrc hcon => exact ⟨_, rfl, hrc.elim (fun h => .inr (.inl h.2)) fun h => .inr (.inr h.2)⟩
  | _ => exact ⟨_, rfl, .inl rfl⟩

lemma ordered_sendQuery (env : Env) (h : s.r.Ordered .sendQuery) :
    (s.sendQuery env k k).2.r.Ordered (s.sendQuery env k k).1 := by
  obtain ⟨s₂, hout, ht⟩ := sendQuery_cases (s := s) (k := k) env
  rw [ht.req]
  generalize (s.sendQuery env k k).1 = p' at hout ⊢
  cases hout <;> exact .of_started rfl fun hl _ => h.status hl nofun

lemma ordered_recvCols (env : Env) (hk : s.r.connection = some k) (h : s.r.Ordered .recvCols) :
    (s.recvCols env k k).2.r.Ordered (s.recvCols env k k).1 := by
  have hs := h.receives rfl
  obtain ⟨s₂, hout, ht⟩ := recvCols_cases env hk
  rw [ht.req]
  generalize (s.recvCols env k k).1 = p' at hout ⊢
  cases hout with
  | stop hout hrc =>
    have hent : (s.entered .recvCols).r.Ordered .recvCols :=
      ⟨h.status, h.receives, fun _ => hs, h.drains⟩
    exact hent.quiet hout.quiet hs nofun
  | _ => exact h.behind hs nofun rfl rfl rfl

lemma ordered_recvRows (env : Env) (hk : s.r.connection = some k) (h : s.r.Ordered .recvRows) :
    (s.recvRows env k k).2.r.Ordered (s.recvRows env k k).1 := by
  have hs := h.receives rfl
  obtain ⟨s₂, hout, ht⟩ := recvRows_cases env hk
  rw [ht.req]
  generalize (s.recvRows env k k).1 = p' at hout ⊢
  cases hout with
  | stop hout hrc =>
    have hent : (s.entered .recvRows).r.Ordered .recvRows :=
      ⟨h.status, h.receives, fun _ => hs, h.drains⟩
    exact hent.quiet hout.quiet hs nofun
  | _ => exact h.behind hs nofun rfl rfl rfl

lemma ordered_recvFields (env : Env) (hk : s.r.connection = some k) (h : s.r.Ordered .recvFields) :
    (s.recvFields env k k).2.r.Ordered (s.recvFields env k k).1 := by
  have hs := h.receives rfl
  obtain ⟨s₂, hout, ht⟩ := recvFields_cases env hk
  rw [ht.req]
  generalize (s.recvFields env k k).1 = p' at hout ⊢
  cases hout with
  | stop hout hrc => exact h.quiet hout.quiet hs nofun
  | _ => exact h.behind hs nofun rfl rfl rfl

lemma ordered_dbdConnect (env : Env) (h : Custody .dbdConnect s) :
    (s.dbdConnect env).2.r.Ordered (s.dbdConnect env).1 := by
  have hord := h.ordered
  unfold dbdConnect
  split
  · exact hord.move rfl nofun nofun
  · obtain ⟨state, hm, hstate⟩ := (getPeer_cases env.peer h.ok.2.1.connection).marks
    generalize s.getPeer env.peer = ps at hm ⊢
    obtain ⟨rc, s'⟩ := ps
    have hr : { s.r with state := state }.Ordered (.dbdConnected rc) := by
      refine ⟨fun hl _ => hord.status hl nofun, nofun, fun hrecv => ?_, hord.drains⟩
      rcases hstate with rfl | rfl | rfl
      · exact hord.state hrecv
      · cases hrecv
      · cases hrecv
    exact hr.move hm nofun nofun

lemma ordered_dbdConnected (env : Env) {rc : Rc} (h : s.r.Ordered (.dbdConnected rc)) :
    (s.dbdConnected env rc).2.r.Ordered (s.dbdConnected env rc).1 := by
  have hclear : s.clearHeader.r.Ordered (.dbdConnected rc) := by
    refine ⟨fun hl _ => ?_, nofun, h.state, h.drains⟩
    unfold clearHeader
    dsimp only [modReq_r]
    split
    · rfl
    · exact h.status hl nofun
  unfold dbdConnected
  split
  · exact h.move rfl nofun nofun
  · exact h.move rfl nofun nofun
  · exact h.move rfl nofun nofun
  · split
    · exact h.move rfl nofun nofun
    · unfold attach
      simp only
      split
      · exact hclear.move rfl nofun nofun
      · split
        · exact hclear.move rfl nofun nofun
        · split <;> exact hclear.move rfl nofun nofun

lemma ordered_handleEvent (env : Env) {e : Event} (h : Custody (.event e) s) :
    (s.handleEvent env e).2.r.Ordered (s.handleEvent env e).1 := by
  have hord := h.ordered
  rcases h.ok.2 with ⟨k, hk⟩ | ⟨he, hrej⟩
  · unfold handleEvent
    split
    · unfold dbHandler
      simp only [modReq_r, hk.connection]
      split
      · exact hord.move rfl nofun nofun
      · split <;> exact hord.move rfl nofun nofun
    · split
      · next timedout _ hdrain =>
        exact hord.quiet (quiet_drainOutput env timedout hk.connection hk.drizzleCon)
          (hord.drains hdrain) nofun
      · exact hord.move rfl nofun nofun
      · exact hord.move rfl nofun nofun
    · unfold checkBrokenConnection
      split <;> exact hord.move rfl nofun nofun
    · exact hord.move rfl nofun nofun
  · obtain ⟨p', sent, err, hp, heq⟩ := handleEvent_of_rejected env he hrej hord
    rw [heq]
    refine hord.move rfl nofun fun hrecv => ?_
    cases p' with
    | recvCols => cases hp
    | recvRows => cases hp
    | recvFields => cases hp
    | _ => cases hrecv

/-- A step of the module keeps the order. -/
theorem exec_ordered (env : Env) (h : Custody p s) :
    (s.exec env p).2.r.Ordered ((s.exec env p).1.after (s.exec env p).2.r) := by
  refine Req.Ordered.after ?_
  have hord := h.ordered
  cases p with
  | loop => exact hord
  | crashed => exact hord
  | handlerTail =>
    rcases handlerTail_cases s with ⟨heq, _⟩ | ⟨k, _, _, heq⟩
    · rw [exec, heq]
      exact hord.pass rfl (by simp) rfl
    · rw [exec, heq]
      exact hord.pass rfl (by simp) rfl
  | event e => exact ordered_handleEvent env h
  | dbdConnect => exact ordered_dbdConnect env h
  | dbdConnected rc => exact ordered_dbdConnected env hord
  | processEvents =>
    rw [exec]
    unfold processEvents
    split
    · exact hord.pass rfl (by simp) rfl
    · split
      · exact hord.pass rfl (by simp) rfl
      · exact hord.pass rfl (by simp) rfl
      · exact hord.pass rfl (by simp) rfl
      · next hstate => exact hord.move rfl (by simp) fun _ => hord.state (by rw [hstate]; rfl)
      · next hstate => exact hord.move rfl (by simp) fun _ => hord.state (by rw [hstate]; rfl)
  | connect =>
    obtain ⟨_, k, hk⟩ := h.ok
    rw [exec, onConn_of hk.connection hk.drizzleCon]
    unfold connect
    simp only
    split <;> exact hord.pass rfl (by simp) rfl
  | sendQuery =>
    obtain ⟨_, k, hk⟩ := h.ok
    rw [exec, onConn_of hk.connection hk.drizzleCon]
    exact ordered_sendQuery env hord
  | recvCols =>
    obtain ⟨_, k, hk⟩ := h.ok
    rw [exec, onConn_of hk.connection hk.drizzleCon]
    exact ordered_recvCols env hk.connection hord
  | recvRows =>
    obtain ⟨_, k, hk⟩ := h.ok
    rw [exec, onConn_of hk.connection hk.drizzleCon]
    exact ordered_recvRows env hk.connection hord
  | recvFields =>
    obtain ⟨_, k, hk⟩ := h.ok
    rw [exec, onConn_of hk.connection hk.drizzleCon]
    exact ordered_recvFields env hk.connection hord
  | ret rc =>
    have hout := processed_cases (s := s) env rc
    rw [exec]
    generalize s.processed env rc = ps at hout ⊢
    obtain ⟨p', s'⟩ := ps
    cases hout <;> exact hord.pass rfl (by simp) rfl
  | done rc =>
    obtain ⟨flush, o, hp, hs', _⟩ := done_cases (s := s) env rc
    rw [exec, hp, hs']
    exact ⟨fun _ hne => absurd rfl (hne _), by simp [Pos.receives], by simp [DbState.receives],
      hord.drains⟩
  | next ft =>
    obtain ⟨s₁, hs₁, hnext⟩ := next_cases (s := s) ft h.queues
    have hm : s₁.r.marks = s.r.marks := by
      split at hs₁
      · rw [hs₁]
      · exact hs₁.marks
    rw [exec]
    generalize s.next ft = ps at hnext ⊢
    obtain ⟨p', s'⟩ := ps
    cases hnext with
    | stop hstatus => exact hord.pass hm (by simp) rfl
    | retry hstarted hleft hft =>
      have hr : s₁.r.Ordered .dbdConnect := hord.pass hm (by simp) rfl
      exact ⟨hr.status, by simp [Pos.receives], by simp [DbState.receives], hr.drains⟩
  | finalize rc =>
    have hrc : rc ≠ .declined := by
      rintro rfl
      exact h.ok
    obtain ⟨hloop, hfin⟩ := finalizeRequest_cases env hrc h.queues
    obtain ⟨s₁, es, hfree, hs'⟩ := hfin.exists_freePeer
    rw [exec, hloop, hs']
    have hm := hfree.marks
    simp only [Req.marks, log_r, Prod.mk.injEq] at hm
    obtain ⟨-, -, hstarted, hstate, hhandler⟩ := hm
    refine ⟨by simp [ended], by simp [Pos.receives], fun hrecv => ?_, fun hdrain => ?_⟩
    · exact hstarted.trans (hord.state (hstate ▸ hrecv))
    · exact hstarted.trans (hord.drains (hhandler.symm.trans hdrain))

end St
end DrizzleNginx
