/-
# The end of a request

`ngx_http_upstream_drizzle_finalize_request` is reached from many places, and a request that is
finalized twice is freed twice.  Here a request has ended when `ngx_http_finalize_request` has been
called for it: it is called once, behind it nothing is done for the request, and the response is
completed at most once, right before it.
-/
import DrizzleNginx.Proofs.Histories

namespace DrizzleNginx

/-- The event completes the response or ends the request. -/
def ReqEvent.closes : ReqEvent → Bool
  | sendSpecial => true
  | finalized _ => true
  | _ => false

/-- The last events of a request, the newest one first. -/
inductive LastEvents : List ReqEvent → Prop
  | completed (rc : Rc) : LastEvents [.finalized rc, .sendSpecial]
  | failed (rc : Rc) : LastEvents [.finalized rc]

/-- A request is ended by its last events, and by no others. -/
def Req.ClosedOnce (r : Req) : Prop :=
  ∃ last before, r.hist = last ++ before ∧ (∀ e ∈ before, e.closes = false) ∧
    if r.live then last = [] else LastEvents last

variable {s s' : St} {p : Pos} {r r' : Req}

lemma Req.ClosedOnce.live (h : r.ClosedOnce) (hlive : r.live) : ∀ e ∈ r.hist, e.closes = false := by
  obtain ⟨last, before, hhist, hbefore, hlast⟩ := h
  rw [if_pos hlive] at hlast
  rw [hhist, hlast]
  exact hbefore

lemma Req.closedOnce_of_live (hlive : r.live) (h : ∀ e ∈ r.hist, e.closes = false) : r.ClosedOnce :=
  ⟨[], r.hist, rfl, h, by rw [if_pos hlive]⟩

lemma Req.ClosedOnce.congr (h : r.ClosedOnce) (hhist : r'.hist = r.hist)
    (hlive : r'.live = r.live) : r'.ClosedOnce := by
  rw [ClosedOnce, hhist, hlive]
  exact h

/-- Only `finalizeRequest` enters the events that end a request. -/
lemma Pos.closes_of_logs {e : ReqEvent} (h : p.logs e) (hp : ∀ rc, p ≠ .finalize rc) :
    e.closes = false := by
  cases e with
  | sendSpecial =>
    cases p with
    | finalize rc => exact absurd rfl (hp rc)
    | _ => simp [logs, ReqEvent.inner] at h
  | finalized rc' =>
    cases p with
    | finalize rc => exact absurd rfl (hp rc)
    | _ => simp [logs, ReqEvent.inner] at h
  | _ => rfl

namespace St

lemma FreePeer.closes {failed : Bool} (h : FreePeer failed s s')
    (hs : ∀ e ∈ s.r.hist, e.closes = false) : ∀ e ∈ s'.r.hist, e.closes = false := by
  rcases h.hist with ⟨_, heq⟩ | ⟨k, ev, _, _, _, heq⟩ | ⟨k, _, heq, _⟩
  · rw [heq]
    exact hs
  · rw [heq]
    exact List.forall_mem_cons.mpr ⟨rfl, hs⟩
  · rw [heq]
    exact List.forall_mem_cons.mpr ⟨rfl, hs⟩

/-- A step ends a request that has not ended, or leaves it as it is. -/
lemma closedOnce_exec (env : Env) (hc : Custody p s) (h : s.r.ClosedOnce) :
    (s.exec env p).2.r.ClosedOnce := by
  cases hlive : s.r.live with
  | false =>
    rw [exec_ended env hc hlive]
    exact h.congr rfl rfl
  | true =>
    have hopen := h.live hlive
    by_cases hp : ∀ rc, p ≠ .finalize rc
    · refine Req.closedOnce_of_live ((exec_live env hc hp).trans hlive) fun e he => ?_
      obtain ⟨es, hes, hlogs⟩ := exec_hist env hc
      rcases List.mem_append.mp (hes ▸ he) with hnew | hold
      · exact Pos.closes_of_logs (hlogs e hnew) hp
      · exact hopen e hold
    · obtain ⟨rc, rfl⟩ := not_forall_not.mp hp
      have hrc : rc ≠ .declined := by
        rintro rfl
        exact hc.ok
      obtain ⟨_, hfin⟩ := finalizeRequest_cases env hrc hc.queues
      have hlog : ∀ e ∈ (s.log (.finalize rc)).r.hist, e.closes = false :=
        List.forall_mem_cons.mpr ⟨rfl, hopen⟩
      rw [exec]
      generalize (s.finalizeRequest env rc).2 = s' at hfin ⊢
      cases hfin with
      | @completed s₁ hfree hsend rc' =>
        exact ⟨[.finalized rc', .sendSpecial], s₁.r.hist, rfl, hfree.closes hlog, .completed rc'⟩
      | @failed s₁ hfree hsend =>
        exact ⟨[.finalized rc], s₁.r.hist, rfl, hfree.closes hlog, .failed rc⟩

end St

/-- The end of a request, as a claim about requests. -/
def Local.closed : Local where
  req _ _ r _ := r.ClosedOnce
  item _ _ _ := True

lemma Local.closed_kept : Local.closed.Kept fun _ _ _ => True where
  init _ _ _ _ _ := Req.closedOnce_of_live rfl nofun
  fire e s _ _ h := by
    obtain ⟨⟨cw, hr⟩, _⟩ := St.fire_cases e s
    rw [hr]
    exact h.congr rfl rfl
  client _ _ _ _ _ h := h.congr rfl rfl
  exec env _ _ hc _ h _ := St.closedOnce_exec env hc h
  saved _ _ _ _ _ _ _ _ _ _ := trivial

namespace Sys

variable {s : Sys} {i : ℕ}

/-- What may still change of a request that has ended: its handler returns, and the client
connection, on which there may be other requests, is used. -/
def Over (r r' : Req) : Prop :=
  r' = { r with
    inHandler := r'.inHandler
    connError := r'.connError
    clientWrite := r'.clientWrite
    out := { r.out with delayed := r'.out.delayed } }

lemma Owned.over_step (ho : s.Owned) (hi : s.reqs[i]? = some r)
    (hdead : r.live = false) (l : Label) :
    ∃ r', (s.step l).reqs[i]? = some r' ∧ Over r r' := by
  obtain ⟨hlt, _⟩ := List.getElem?_eq_some_iff.mp hi
  have hset : ∀ {j : ℕ} {q q' : Req}, s.reqs[j]? = some q → (j = i → q = r → Over r q') →
      ∃ r', (s.reqs.set j q')[i]? = some r' ∧ Over r r' := by
    intro j q q' hj hq
    rcases eq_or_ne j i with rfl | hne
    · exact ⟨q', List.getElem?_set_self hlt, hq rfl (Option.some.inj (hj.symm.trans hi))⟩
    · exact ⟨r, (List.getElem?_set_ne hne).trans hi, rfl⟩
  have hstep := step_cases s l
  generalize s.step l = s' at hstep ⊢
  cases hstep with
  | skip => exact ⟨r, hi, rfl⟩
  | arrive a hidle => exact ⟨r, (List.getElem?_append_left hlt).trans hi, rfl⟩
  | event e hidle hj he =>
    refine hset hj fun _ heq => ?_
    -- events are handled only for requests that have not ended
    subst heq
    simp only [Event.enabled, view, hdead, Bool.false_and] at he
    cases he
  | client cc hj => exact hset hj fun _ heq => heq ▸ rfl
  | idle slot stale hidle => exact ⟨r, hi, rfl⟩
  | tick now hidle => exact ⟨r, hi, rfl⟩
  | run env hact hj =>
    refine hset hj fun hji heq => ?_
    subst hji heq
    have hc := ho.custody hj
    rw [pos_of_active hact] at hc
    rw [St.exec_ended env hc hdead]
    rfl

lemma over_run (ho : s.Owned) (hi : s.reqs[i]? = some r) (hdead : r.live = false)
    (ls : List Label) :
    ∃ r', (Lib.run step s ls).reqs[i]? = some r' ∧ Over r r' := by
  induction ls generalizing s r with
  | nil => exact ⟨r, hi, rfl⟩
  | cons l ls ih =>
    obtain ⟨r₁, hi₁, hover₁⟩ := ho.over_step hi hdead l
    have hdead₁ : r₁.live = false := by
      rw [hover₁]
      exact hdead
    obtain ⟨r₂, hi₂, hover₂⟩ := ih (ho.step l) hi₁ hdead₁
    refine ⟨r₂, hi₂, ?_⟩
    rw [Over, hover₁] at hover₂
    exact hover₂

/-- **A request ends once.**  In all states of all runs: as long as a request has not ended, its
response has not been completed, and `ngx_http_finalize_request` has not been called.  If it has
ended, then this was the last thing that happened to it, right behind the completion of the
response, if there was one; before, there was neither.  The request has no connection any more, and
whatever follows, it is not touched again, except that its handler returns and that its client
connection is used. -/
theorem ends_once (conf : Conf) (ls : List Label) {i : ℕ} {r : Req}
    (hi : (run conf ls).reqs[i]? = some r) :
    (r.live → ∀ e ∈ r.hist, e.closes = false) ∧
    (r.live = false → r.connection = none ∧
      (∃ last before, r.hist = last ++ before ∧ LastEvents last ∧ ∀ e ∈ before, e.closes = false) ∧
      ∀ ls', ∃ r', (run conf (ls ++ ls')).reqs[i]? = some r' ∧ Over r r') := by
  have ho := owned_run conf ls
  have hclosed : r.ClosedOnce := (Local.closed_kept.run conf
    (.of_forall (fun _ _ _ _ _ _ _ _ _ => trivial) ls _)).req i r hi
  refine ⟨hclosed.live, fun hdead => ⟨?_, ?_, fun ls' => ?_⟩⟩
  · by_contra hk
    obtain ⟨k, hk⟩ := Option.ne_none_iff_exists'.mp hk
    cases hdead.symm.trans ((ho.ok i r hi).live hk)
  · obtain ⟨last, before, hhist, hbefore, hlast⟩ := hclosed
    rw [if_neg (by rw [hdead]; exact Bool.false_ne_true)] at hlast
    exact ⟨last, before, hhist, hlast, hbefore⟩
  · rw [run, Lib.run_append]
    exact over_run ho hi hdead ls'

/-- The query of a request fails, and the request ends. -/
def failedQuery : List Label :=
  sampleArrival (.sample [7]) ++
    [.run { query := .fail (.other 1) }, .run {}, .run {}, .run {}]

/-- The request is not touched by the one that arrives behind it. -/
theorem ends_once_failedQuery : ∃ r', (run (.sample (.sample [1] []) [])
      (failedQuery ++ sampleArrival (.sample [8]))).reqs[0]? = some r' ∧
    r'.hist = [.finalized (.http 500), .closed 0, .finalize (.http 500),
      .lib 0 (.query 0 false [7] (.fail (.other 1))), .getPeer .done (some 0), .pick 0] := by
  have hi : (run (.sample (.sample [1] []) []) failedQuery).reqs[0]? =
      some ((run (.sample (.sample [1] []) []) failedQuery).reqs.get ⟨0, by decide⟩) := rfl
  obtain ⟨_, _, hover⟩ := (ends_once _ _ hi).2 (by decide)
  obtain ⟨r', hr', heq⟩ := hover (sampleArrival (.sample [8]))
  have hhist : r'.hist = ((run (.sample (.sample [1] []) []) failedQuery).reqs.get
    ⟨0, by decide⟩).hist := (congrArg Req.hist heq :)
  refine ⟨r', hr', ?_⟩
  rw [hhist]
  decide

end Sys
end DrizzleNginx
