/-
# A client that leaves

The worker process of `Sys` has an event for a client that has been found to be gone.  With the
calls of `ngx_http_upstream_dbd_check_broken_connection` instead of this event, every run is still a
run of that worker process: a check is no step at all, or the event with the step that handles it.
So what holds of all runs there holds with the checks, too.  As long as the clients are there,
checks make no difference; a request whose client is found to be gone is finalized next.
-/
import DrizzleNginx.Model.ClientCheck
import DrizzleNginx.Proofs.Histories

namespace DrizzleNginx

/-- The client is found to be gone.  The end of the stream does not count for a write event. -/
def Req.seesGone (r : Req) (env : CheckEnv) (ev : ClientEvent) : Bool :=
  r.connError || if env.kqueue then ev.pendingEof
    else env.peek == .failed || (env.peek == .eof && !ev.write)

/-- The event should be removed, which fails. -/
def Req.notRemoved (r : Req) (env : CheckEnv) (ev : ClientEvent) : Bool :=
  env.levelEvent && ev.active && !env.delEvent &&
    (r.connError || (!env.kqueue && (!ev.write || env.peek == .failed)))

/-! ## One check -/

/-- Removing the event fails, or there is an event behind it. -/
lemma CheckEnv.delLevelEvent_cases (env : CheckEnv) (ev : ClientEvent) :
    ((env.levelEvent && ev.active && !env.delEvent) = true ∧ env.delLevelEvent ev = (false, ev)) ∨
    ((env.levelEvent && ev.active && !env.delEvent) = false ∧
      ∃ ev', env.delLevelEvent ev = (true, ev')) := by
  unfold delLevelEvent
  cases env.levelEvent && ev.active with
  | false => exact .inr ⟨rfl, ev, rfl⟩
  | true =>
    cases env.delEvent with
    | true => exact .inr ⟨rfl, _, rfl⟩
    | false => exact .inl ⟨rfl, rfl⟩

namespace St

variable {s : St} {env : CheckEnv} {ev : ClientEvent}

/-- With `u->cacheable` 0, the request is finalized in both cases. -/
lemma clientGone_eq (s : St) :
    s.clientGone false = (some (.http 499), s.modReq fun r => { r with connError := true }) := by
  unfold clientGone
  cases hc : s.r.connection with
  | none => simp [hc]
  | some k => simp [hc]

lemma modReq_connError (h : s.r.connError = true) :
    s.modReq (fun r => { r with connError := true }) = s := by
  rcases s with ⟨w, r⟩
  cases r
  subst h
  rfl

/-- What a check can come to. -/
lemma checkClient_cases (env : CheckEnv) (ev : ClientEvent) (s : St) :
    (s.r.notRemoved env ev = true ∧
      ∃ ev', s.checkClient false env ev = (some (.http 500), ev', s)) ∨
    (s.r.notRemoved env ev = false ∧ s.r.seesGone env ev = true ∧
      ∃ ev', s.checkClient false env ev =
      (some (.http 499), ev', s.modReq fun r => { r with connError := true })) ∨
    (s.r.notRemoved env ev = false ∧ s.r.seesGone env ev = false ∧
      ∃ ev', s.checkClient false env ev = (none, ev', s)) := by
  unfold checkClient
  cases herr : s.r.connError with
  | true =>
    -- the error has been noted before
    have hgone : s.r.seesGone env ev = true := by simp [Req.seesGone, herr]
    have hnot : s.r.notRemoved env ev = (env.levelEvent && ev.active && !env.delEvent) := by
      simp [Req.notRemoved, herr]
    rw [hnot, hgone]
    obtain ⟨hlevel, hdel⟩ | ⟨hlevel, ev', hdel⟩ := env.delLevelEvent_cases ev
    · exact .inl ⟨hlevel, ev, by rw [hdel]; rfl⟩
    · exact .inr (.inl ⟨hlevel, rfl, ev', by rw [hdel, modReq_connError herr]; rfl⟩)
  | false =>
    cases hkq : env.kqueue with
    | true =>
      have hgone : s.r.seesGone env ev = ev.pendingEof := by simp [Req.seesGone, herr, hkq]
      have hnot : s.r.notRemoved env ev = false := by simp [Req.notRemoved, herr, hkq]
      rw [hnot, hgone]
      cases heof : ev.pendingEof with
      | false => exact .inr (.inr ⟨rfl, rfl, ev, rfl⟩)
      | true => exact .inr (.inl ⟨rfl, rfl, _, by rw [clientGone_eq]; rfl⟩)
    | false =>
      by_cases hwrite : ev.write = true ∧ env.peek ≠ .failed
      · -- a write event looks for errors only
        obtain ⟨hw, hp⟩ := hwrite
        have hgone : s.r.seesGone env ev = false := by simp [Req.seesGone, herr, hkq, hw, hp]
        have hnot : s.r.notRemoved env ev = false := by simp [Req.notRemoved, herr, hkq, hw, hp]
        exact .inr (.inr ⟨hnot, hgone, ev, by simp [hw, hp]⟩)
      · have hlook : ev.write = false ∨ env.peek = .failed := by
          cases hw : ev.write with
          | false => exact .inl rfl
          | true => exact .inr (not_not.mp fun hp => hwrite ⟨hw, hp⟩)
        have hnot : s.r.notRemoved env ev = (env.levelEvent && ev.active && !env.delEvent) := by
          rcases hlook with hw | hp
          · simp [Req.notRemoved, hkq, hw]
          · simp [Req.notRemoved, hkq, hp]
        have hcond : ¬ (ev.write && decide (env.peek ≠ .failed)) = true := by
          rw [Bool.and_eq_true, decide_eq_true_eq]
          exact hwrite
        rw [hnot]
        simp only [Bool.false_eq_true, if_false, if_neg hcond]
        obtain ⟨hlevel, hdel⟩ | ⟨hlevel, ev', hdel⟩ := env.delLevelEvent_cases ev
        · exact .inl ⟨hlevel, ev, by rw [hdel]⟩
        rw [hdel]
        cases hpeek : env.peek with
        | byte => exact .inr (.inr ⟨hlevel, by simp [Req.seesGone, herr, hkq, hpeek], ev', rfl⟩)
        | again => exact .inr (.inr ⟨hlevel, by simp [Req.seesGone, herr, hkq, hpeek], ev', rfl⟩)
        | failed =>
          refine .inr (.inl ⟨hlevel, by simp [Req.seesGone, hkq, hpeek],
            { ev' with eof := true, error := true }, ?_⟩)
          rw [clientGone_eq]
        | eof =>
          have hw : ev.write = false := hlook.resolve_right (by simp [hpeek])
          refine .inr (.inl ⟨hlevel, by simp [Req.seesGone, hkq, hpeek, hw],
            { ev' with eof := true }, ?_⟩)
          rw [clientGone_eq]

end St

namespace Sys

/-! ## Runs with checks -/

/-- An event of the client leads to a check for this request. -/
structure Checks (s : Sys) (i : ℕ) (ev : ClientEvent) (r : Req) : Prop where
  idle : s.active = none
  req : s.reqs[i]? = some r
  checks : r.checks ev = true

/-- What a step with checks amounts to in the worker process that has the event instead. -/
inductive Amounts (s : Sys) : CheckLabel → List Label → Prop
  | other {l : Label} (h : l.isClientClosed = false) : Amounts s (.other l) [l]
  | instead {l : Label} (h : l.isClientClosed = true) : Amounts s (.other l) []
  | unchecked {i : ℕ} {env : CheckEnv} {ev : ClientEvent} (h : ∀ r, ¬ s.Checks i ev r) :
      Amounts s (.check i env ev) []
  | there {i : ℕ} {env : CheckEnv} {ev : ClientEvent} {r : Req} (h : s.Checks i ev r)
      (hremoved : r.notRemoved env ev = false) (hthere : r.seesGone env ev = false) :
      Amounts s (.check i env ev) []
  | gone {i : ℕ} {env : CheckEnv} {ev : ClientEvent} {r : Req} (h : s.Checks i ev r)
      (hremoved : r.notRemoved env ev = false) (hgone : r.seesGone env ev = true) :
      Amounts s (.check i env ev) [.event i (.clientClosed true), .run {}]
  | notRemoved {i : ℕ} {env : CheckEnv} {ev : ClientEvent} {r : Req} (h : s.Checks i ev r)
      (hremoved : r.notRemoved env ev = true) :
      Amounts s (.check i env ev) [.event i (.clientClosed false), .run {}]

variable {s : Sys} {i : ℕ} {r : Req} {env : CheckEnv} {ev : ClientEvent}

/-- The event for a client that is gone, and the step that handles it. -/
lemma run_clientClosed (h : s.Checks i ev r) (delEvent : Bool) :
    Lib.run step s [.event i (.clientClosed delEvent), .run {}] =
      s.put i ((s.view r).checkBrokenConnection delEvent) := by
  have hlive : r.live = true := by
    have hchecks := h.checks
    rw [Req.checks, Bool.and_eq_true] at hchecks
    exact hchecks.1
  have hfire : s.step (.event i (.clientClosed delEvent)) =
      s.put i (.event (.clientClosed delEvent), s.view r) := by
    simp only [step, h.idle, h.req]
    rw [if_pos (by simp [Event.enabled, view, hlive])]
    rfl
  obtain ⟨hlt, _⟩ := List.getElem?_eq_some_iff.mp h.req
  have hreq : (s.put i (.event (.clientClosed delEvent), s.view r)).reqs[i]? = some r :=
    List.getElem?_set_self hlt
  rw [Lib.run_cons, Lib.run_cons, Lib.run_nil, hfire]
  simp only [step, put, Pos.settle, Option.map_some]
  rw [List.getElem?_set_self hlt]
  simp only [List.set_set]
  rfl

/-- A step with checks has the effect of what it amounts to. -/
lemma stepChecked_amounts (s : Sys) (l : CheckLabel) :
    ∃ ms, s.Amounts l ms ∧ s.stepChecked l = Lib.run step s ms := by
  cases l with
  | other l =>
    cases hl : l.isClientClosed with
    | true => exact ⟨[], .instead hl, by rw [stepChecked, hl]; rfl⟩
    | false => exact ⟨[l], .other hl, by rw [stepChecked, hl]; rfl⟩
  | check i env ev =>
    by_cases hr : ∃ r, s.Checks i ev r
    · obtain ⟨r, h⟩ := hr
      obtain ⟨hremoved, ev', hcheck⟩ | ⟨hremoved, hgone, ev', hcheck⟩ |
        ⟨hremoved, hthere, ev', hcheck⟩ :=
        (s.view r).checkClient_cases env ev
      · refine ⟨_, .notRemoved h hremoved, ?_⟩
        rw [run_clientClosed h]
        simp only [stepChecked, h.idle, h.req, h.checks, hcheck]
        rfl
      · refine ⟨_, .gone h hremoved hgone, ?_⟩
        rw [run_clientClosed h]
        simp only [stepChecked, h.idle, h.req, h.checks, hcheck]
        rfl
      · refine ⟨_, .there h hremoved hthere, ?_⟩
        have hsame : ({ w := s.w, reqs := s.reqs.set i r, active := none } : Sys) = s := by
          obtain ⟨hlt, hget⟩ := List.getElem?_eq_some_iff.mp h.req
          rw [← hget, List.set_getElem_self, ← h.idle]
        simp only [stepChecked, h.idle, h.req, h.checks, hcheck, if_true]
        exact hsame
    · refine ⟨[], .unchecked (not_exists.mp hr), ?_⟩
      simp only [stepChecked]
      split
      · next hidle hi =>
        rw [if_neg fun hchecks => hr ⟨_, hidle, hi, hchecks⟩]
        rfl
      · rfl

/-- A check finds the client there, and nothing fails. -/
def StillThere (s : Sys) (l : CheckLabel) : Prop :=
  ∀ i env ev r, l = .check i env ev → s.Checks i ev r →
    r.notRemoved env ev = false ∧ r.seesGone env ev = false

end Sys

/-- The step of the worker process, without a check. -/
def CheckLabel.unchecked : CheckLabel → List Label
  | .other l => if l.isClientClosed then [] else [l]
  | .check _ _ _ => []

namespace Sys

variable {s : Sys} {i : ℕ} {r : Req} {env : CheckEnv} {ev : ClientEvent}

lemma StillThere.amounts {l : CheckLabel} (h : s.StillThere l) {ms : List Label}
    (hms : s.Amounts l ms) : ms = l.unchecked := by
  cases hms with
  | other hl => simp [CheckLabel.unchecked, hl]
  | instead hl => simp [CheckLabel.unchecked, hl]
  | unchecked => rfl
  | there => rfl
  | gone hr _ hgone =>
    rw [(h _ _ _ _ rfl hr).2] at hgone
    cases hgone
  | notRemoved hr hremoved =>
    rw [(h _ _ _ _ rfl hr).1] at hremoved
    cases hremoved

/-- A request that is to be finalized is over behind the next step of the module. -/
lemma Owned.finalized (ho : s.Owned) {rc : Rc} (hrc : rc ≠ .declined)
    (hact : s.active = some (i, .finalize rc)) (hi : s.reqs[i]? = some r) (e : Env) :
    ∃ r', (s.step (.run e)).reqs[i]? = some r' ∧ r'.live = false ∧ .finalize rc ∈ r'.hist := by
  obtain ⟨hlt, _⟩ := List.getElem?_eq_some_iff.mp hi
  have hc := ho.custody hi
  obtain ⟨_, hfin⟩ := St.finalizeRequest_cases (s := s.view r) e hrc hc.queues
  refine ⟨((s.view r).finalizeRequest e rc).2.r, ?_, ?_⟩
  · simp only [Sys.step, hact, hi]
    exact List.getElem?_set_self hlt
  generalize ((s.view r).finalizeRequest e rc).2 = s' at hfin
  -- the connection is given away behind the entry in the history
  have hmem : ∀ s₁ : St, St.FreePeer false ((s.view r).log (.finalize rc)) s₁ →
      .finalize rc ∈ s₁.r.hist := by
    intro s₁ hfree
    rcases hfree.hist with ⟨_, hhist⟩ | ⟨_, _, _, _, _, hhist⟩ | ⟨_, _, hhist, _⟩
    · rw [hhist]
      exact List.mem_cons_self
    · rw [hhist]
      exact List.mem_cons_of_mem _ List.mem_cons_self
    · rw [hhist]
      exact List.mem_cons_of_mem _ List.mem_cons_self
  cases hfin with
  | completed hfree hsend rc' => exact ⟨rfl, List.mem_append_right _ (hmem _ hfree)⟩
  | failed hfree hsend => exact ⟨rfl, List.mem_append_right _ (hmem _ hfree)⟩

/-- **The checks of the client.**  Every run with checks is a run of the worker process in which
each check is nothing, or the event for a client that is gone with its handling: the former if the
client is there, and the latter if it is gone, or if the event cannot be removed.  If all checks
find the clients there, then the run is the one without them.  Whenever a check finds the client
gone and nothing fails, the request is over behind the next step, whatever nginx answers, and it has
been finalized with 499. -/
theorem client_checks (conf : Conf) (ls : List CheckLabel) :
    (∃ ls', Lib.Replays stepChecked Amounts (init conf) ls ls' ∧ runChecked conf ls = run conf ls' ∧
      (Lib.Meets stepChecked StillThere (init conf) ls → ls' = ls.flatMap CheckLabel.unchecked)) ∧
    ∀ i env ev r, (runChecked conf ls).Checks i ev r → r.notRemoved env ev = false →
      r.seesGone env ev = true → ∀ e, ∃ r',
        (runChecked conf (ls ++ [.check i env ev, .other (.run e)])).reqs[i]? = some r' ∧
        r'.live = false ∧ .finalize (.http 499) ∈ r'.hist := by
  obtain ⟨ls', hls', hrun⟩ : ∃ ls', Lib.Replays stepChecked Amounts (init conf) ls ls' ∧
      runChecked conf ls = run conf ls' :=
    Lib.exists_replays (f := id) stepChecked_amounts (init conf) ls
  refine ⟨⟨ls', hls', hrun,
    fun hthere => hls'.eq_flatMap (hthere.mono fun _ _ h _ => h.amounts)⟩, ?_⟩
  intro i env ev r h hremoved hgone e
  have hchecked : runChecked conf (ls ++ [.check i env ev, .other (.run e)]) =
      ((runChecked conf ls).stepChecked (.check i env ev)).step (.run e) := Lib.run_append ..
  have ho : ((runChecked conf ls).stepChecked (.check i env ev)).Owned := by
    obtain ⟨ms, _, hms⟩ := stepChecked_amounts (runChecked conf ls) (.check i env ev)
    have howned := owned_run conf (ls' ++ ms)
    rw [run, Lib.run_append] at howned
    rw [hms, hrun]
    exact howned
  rw [hchecked]
  obtain ⟨hlt, _⟩ := List.getElem?_eq_some_iff.mp h.req
  obtain ⟨hfails, _⟩ | ⟨_, _, ev', hcheck⟩ | ⟨_, hthere, _⟩ :=
    ((runChecked conf ls).view r).checkClient_cases env ev
  · exact absurd (hremoved.symm.trans hfails) Bool.false_ne_true
  · have hstep : (runChecked conf ls).stepChecked (.check i env ev) =
        (runChecked conf ls).put i (.finalize (.http 499),
          ((runChecked conf ls).view r).modReq fun r => { r with connError := true }) := by
      simp only [stepChecked, h.idle, h.req, h.checks, hcheck, if_true]
    rw [hstep] at ho ⊢
    exact ho.finalized (by simp) rfl (List.getElem?_set_self hlt) e
  · exact absurd (hthere.symm.trans hgone) Bool.false_ne_true

/-- The query of a request has been sent, and the client closes its connection. -/
def clientLeaves : List CheckLabel :=
  (sampleArrival (.sample [7]) ++ [Label.run { query := .ioWait }, .run {}, .run {}]).map
    CheckLabel.other

theorem client_checks_eof : ∃ r', (runChecked (.sample (.sample [1] []) [])
      (clientLeaves ++ [.check 0 { peek := .eof } {}, .other (.run {})])).reqs[0]? = some r' ∧
    r'.live = false ∧ .finalize (.http 499) ∈ r'.hist := by
  refine (client_checks (.sample (.sample [1] []) []) clientLeaves).2 0 { peek := .eof } {} _
    ⟨rfl, rfl, ?_⟩ ?_ ?_ {}
  · decide
  · decide
  · decide

end Sys
end DrizzleNginx
