/-
# Responses without a body

`ngx_http_send_header` decides that the response to a `HEAD` request consists of its header only.
The module accepts such requests, but it does not look at this decision: behind a header that has
been sent, it hands over the body like that of any other response.  So a body is kept back only if
the header cannot be sent.
-/
import DrizzleNginx.Proofs.Outputs

namespace DrizzleNginx

/-! ## The header and the body -/

namespace Out

variable {o : Out} {env : FlushEnv} {loc : LocConf}

/-- The header is sent once, when there is something to send behind it, and nothing fails. -/
lemma sendHeader_cases (env : FlushEnv) (loc : LocConf) (o : Out) :
    (o.sendHeader env loc).2 = o ∨
    o.headerSent = false ∧ o.outBufs ≠ [] ∧
      (env.header.failed ∧ o.sendHeader env loc =
          (env.header, { o with headerCalls := env.header :: o.headerCalls }) ∨
        env.header.failed = false ∧ o.sendHeader env loc = (.ok, { o with
          headerCalls := env.header :: o.headerCalls
          headerSent := true })) := by
  unfold sendHeader
  split
  · exact .inl rfl
  · next hsent =>
    simp only [Bool.or_eq_true, List.isEmpty_iff, not_or, Bool.not_eq_true] at hsent
    split
    · exact .inl rfl
    · refine .inr ⟨hsent.1, hsent.2, ?_⟩
      dsimp only
      split
      · next hfailed => exact .inl ⟨hfailed, rfl⟩
      · next hfailed => exact .inr ⟨by simpa using hfailed, rfl⟩

/-- The chain that is handed to the filter is added to what has been handed to it. -/
lemma flush_sent (f : FilterAns) (o : Out) :
    (o.flush f).2.sent = o.sent ++ [o.outBufs.map Buf.pending] ∧
    (o.flush f).2.headerSent = o.headerSent ∧ (o.flush f).2.headerCalls = o.headerCalls ∧
      (o.flush f).2.outBuf = o.outBuf := by
  unfold flush
  split <;> exact ⟨rfl, rfl, rfl, rfl⟩

/-- What `queueBuf` does: nothing, or the buffer that is being filled, with what is in it, is the
last one of the queue. -/
lemma queueBuf_queues (link : Bool) (o : Out) :
    (o.queueBuf link).2 = o ∨ ∃ b, o.outBuf = some b ∧ b.data.length ≠ b.pos ∧
      (o.queueBuf link).2.outBufs = o.outBufs.take o.lastOut ++ [b] ∧
      (o.queueBuf link).2.outBuf = none ∧ (o.queueBuf link).2.sent = o.sent ∧
      (o.queueBuf link).2.headerSent = o.headerSent ∧
      (o.queueBuf link).2.headerCalls = o.headerCalls := by
  unfold queueBuf
  split
  · exact .inl rfl
  · next b hb =>
    split
    · exact .inl rfl
    · next hne =>
      split
      · exact .inl rfl
      · exact .inr ⟨b, hb, hne, rfl, rfl, rfl, rfl, rfl⟩

/-- The header is sent only in front of bytes of the body, by a call that succeeds. -/
structure Bodied (o : Out) : Prop where
  start : ∀ b, o.outBuf = some b → b.pos = 0
  unopened : o.headerSent = false → o.sent = [] ∧ ∀ b ∈ o.outBufs, b.pending ≠ []
  opened : o.headerSent → o.handed ≠ []
  answered : o.headerSent = false ↔ ∀ rc ∈ o.headerCalls, rc.failed

lemma handed_append {o' : Out} {chain : List Bytes} (h : o'.sent = o.sent ++ [chain]) :
    o'.handed = o.handed ++ chain.flatten := by
  simp [handed, h]

lemma Bodied.queueBuf (h : o.Bodied) (link : Bool) : (o.queueBuf link).2.Bodied := by
  rcases queueBuf_queues link o with heq | ⟨b, hb, hne, hbufs, hnone, hsent, hheader, hcalls⟩
  · rw [heq]
    exact h
  · refine ⟨fun c hc => absurd (hnone.symm.trans hc) nofun, fun hclosed => ?_, fun hopen => ?_, ?_⟩
    · obtain ⟨hnil, hqueued⟩ := h.unopened (hheader.symm.trans hclosed)
      refine ⟨hsent.trans hnil, fun c hc => ?_⟩
      rw [hbufs, List.mem_append, List.mem_singleton] at hc
      rcases hc with hc | rfl
      · exact hqueued c (List.mem_of_mem_take hc)
      · have hpos := h.start c hb
        rw [hpos, ne_eq, List.length_eq_zero_iff] at hne
        rwa [Buf.pending, hpos, List.drop_zero]
    · rw [handed, hsent]
      exact h.opened (hheader.symm.trans hopen)
    · rw [hheader, hcalls]
      exact h.answered

/-- The chain goes to the filter behind a header that has been sent. -/
lemma Bodied.flush (h : o.Bodied) (hsent : o.headerSent) (f : FilterAns) :
    (o.flush f).2.Bodied := by
  obtain ⟨hchain, hheader, hcalls, hbuf⟩ := flush_sent f o
  refine ⟨fun b hb => h.start b (hbuf.symm.trans hb), fun hclosed => ?_, fun _ => ?_, ?_⟩
  · exact absurd (hclosed.symm.trans (hheader.trans hsent)) Bool.false_ne_true
  · rw [handed_append hchain]
    exact List.append_ne_nil_of_left_ne_nil (h.opened hsent) _
  · rw [hheader, hcalls]
    exact h.answered

/-- The first chain goes to the filter directly behind the header. -/
lemma Bodied.flush_opened (h : o.Bodied) (hunopened : o.headerSent = false) (hne : o.outBufs ≠ [])
    {rc : Rc} (hrc : rc.failed = false) (f : FilterAns) :
    ({ o with headerCalls := rc :: o.headerCalls, headerSent := true }.flush f).2.Bodied := by
  obtain ⟨hchain, hheader, hcalls, hbuf⟩ := flush_sent f
    { o with headerCalls := rc :: o.headerCalls, headerSent := true }
  refine ⟨fun b hb => h.start b (hbuf.symm.trans hb), fun hclosed => ?_, fun _ => ?_, ?_⟩
  · exact absurd (hclosed.symm.trans hheader) Bool.false_ne_true
  · -- the first buffer in the queue is not empty
    rw [handed_append hchain]
    refine List.append_ne_nil_of_right_ne_nil _ ?_
    obtain ⟨b, bs, hbufs⟩ := List.exists_cons_of_ne_nil hne
    have hb := (h.unopened hunopened).2 b (by simp [hbufs])
    simp [hbufs, hb]
  · rw [hheader, hcalls]
    simp [hrc]

/-- A header that has been sent is followed by bytes of the body. -/
lemma bodied_closed (env : Env) (loc : LocConf) : Closed env loc Bodied := by
  refine ⟨fun o b ho hb => ho.start b hb, fun link o ho => ho.queueBuf link,
    fun flush hmem o ho => ?_,
    fun o b avail free n last ho hb => ⟨hb, ho.unopened, ho.opened, ho.answered⟩⟩
  obtain ⟨o₁, ho₁, hparts⟩ := outputBufs_parts flush loc (fun link o ho => ho.queueBuf link)
    (fun o ho => ⟨ho.start, ho.unopened, ho.opened, ho.answered⟩) ho
  rcases sendHeader_cases flush loc o₁
    with hsame | ⟨hunopened, hne, ⟨hfailed, hcall⟩ | ⟨hok, hcall⟩⟩
  · rw [hsame] at hparts
    rcases hparts with heq | ⟨heq, _⟩ | ⟨hsent, heq⟩
    · rw [heq]
      exact ho₁
    · rw [heq]
      exact ho₁
    · rw [heq]
      exact ho₁.flush hsent flush.filter
  · rw [hcall] at hparts
    have hmore : Bodied { o₁ with headerCalls := flush.header :: o₁.headerCalls } := by
      refine ⟨ho₁.start, ho₁.unopened, ho₁.opened, ?_⟩
      simp only [List.forall_mem_cons, hfailed, true_and]
      exact ho₁.answered
    rcases hparts with heq | ⟨heq, _⟩ | ⟨hsent, _⟩
    · rw [heq]
      exact ho₁
    · rw [heq]
      exact hmore
    · exact absurd (hunopened.symm.trans hsent) Bool.false_ne_true
  · rw [hcall] at hparts
    rcases hparts with heq | ⟨_, hrc | hclosed⟩ | ⟨_, heq⟩
    · rw [heq]
      exact ho₁
    · exact absurd rfl hrc
    · cases hclosed
    · rw [heq]
      exact ho₁.flush_opened hunopened hne hok flush.filter

/-- The filter has been called only with bytes of the body, and if and only if a call of
`ngx_http_send_header` has succeeded. -/
structure Answered (o : Out) : Prop where
  sent : o.handed = [] ↔ o.sent = []
  calls : o.handed = [] ↔ ∀ rc ∈ o.headerCalls, rc.failed

lemma Bodied.toAnswered (h : o.Bodied) : o.Answered := by
  cases hsent : o.headerSent with
  | false =>
    have hnil := (h.unopened hsent).1
    have hhanded : o.handed = [] := by
      rw [handed, hnil]
      rfl
    exact ⟨iff_of_true hhanded hnil, iff_of_true hhanded (h.answered.mp hsent)⟩
  | true =>
    have hne := h.opened hsent
    refine ⟨iff_of_false hne fun hnil => hne ?_, iff_of_false hne fun hall => ?_⟩
    · rw [handed, hnil]
      rfl
    · exact Bool.noConfusion (hsent.symm.trans (h.answered.mpr hall))

end Out

/-! ## Runs -/

/-- What goes to the filter, as a claim about requests: it is kept when a request is finalized. -/
def Local.bodies : Local where
  req _ p r _ := (r.live → p.running → r.out.Bodied) ∧ r.out.Answered
  item _ _ _ := True

lemma Local.bodies_kept (D : Env → Pos → St → Prop) : Local.bodies.Kept D where
  init w id a _ _ :=
    have hinit : ({} : Out).Bodied := ⟨by simp, fun _ => ⟨rfl, by simp⟩, by simp, by simp⟩
    ⟨fun _ _ => hinit, hinit.toAnswered⟩
  fire ev s _ _ h := by
    obtain ⟨⟨cw, hr⟩, _⟩ := St.fire_cases ev s
    rw [hr]
    exact ⟨fun hlive _ => h.1 hlive rfl, h.2⟩
  client _ _ _ _ cc h := by
    refine ⟨fun hlive hrun => ?_, ⟨h.2.sent, h.2.calls⟩⟩
    have hb := h.1 hlive hrun
    exact ⟨hb.start, hb.unopened, hb.opened, hb.answered⟩
  exec env p s hc _ h _ := by
    obtain ⟨hbodied, hanswered⟩ := h
    have hcl := Out.bodied_closed env s.r.loc
    cases hlive : s.r.live with
    | false =>
      rw [St.exec_ended env hc hlive]
      exact ⟨fun hl => absurd (hlive.symm.trans hl) Bool.false_ne_true, hanswered⟩
    | true =>
      have hnext : p.running → (∀ rc, p ≠ .done rc) → (s.exec env p).2.r.out.Bodied := by
        intro hrun hp
        have ho := hbodied hlive hrun
        refine St.output_exec hc hcl ho hp fun timedout _ => ?_
        unfold Out.endDelay
        split
        · exact ⟨ho.start, ho.unopened, ho.opened, ho.answered⟩
        · exact ho
      cases p with
      | finalize rc =>
        refine ⟨fun hl => ?_, ?_⟩
        · exact absurd ((St.exec_finalize env hc).2.symm.trans hl) Bool.false_ne_true
        · rw [(St.exec_out env hc rfl).1]
          exact hanswered
      | done rc =>
        -- `header_sent` may be set without a header, but the request ends here
        obtain ⟨o, sent, ho, hout⟩ := St.closed_done hcl rc (hbodied hlive rfl)
        obtain ⟨_, _, heq, _⟩ := St.done_cases (s := s) env rc
        refine ⟨fun _ hrun => ?_, ?_⟩
        · rw [St.exec] at hrun
          generalize (s.done env rc).1 = p' at heq hrun
          subst heq
          cases hrun
        · rw [St.exec, hout]
          exact ⟨ho.toAnswered.sent, ho.toAnswered.calls⟩
      | _ =>
        have ho := hnext rfl (by simp)
        exact ⟨fun _ _ => ho, ho.toAnswered⟩
  saved _ _ _ _ _ _ _ _ _ _ := trivial

namespace Sys

/-- **Responses without a body.**  The requests for which the header filter sets `header_only` are
given by their numbers.  In all states of all runs, no byte of a body has been handed to the output
filter for such a request if and only if every call of `ngx_http_send_header` that has been made for
it has failed; the same is true of the other requests.  The output filter is called for a request
only to hand over bytes of the body, and until the request is finalized, it has been called if and
only if the header has been sent. -/
theorem header_only_bodies (conf : Conf) (headerOnly : ℕ → Bool) (ls : List Label) :
    (∀ r ∈ (run conf ls).reqs, headerOnly r.id →
      (r.out.handed = [] ↔ ∀ rc ∈ r.out.headerCalls, rc.failed)) ∧
    (∀ r ∈ (run conf ls).reqs, r.out.handed = [] ↔ r.out.sent = []) ∧
    ∀ (i : ℕ) (r : Req), (run conf ls).reqs[i]? = some r → r.live → ((run conf ls).pos i).running →
      (r.out.handed = [] ↔ r.out.headerSent = false) := by
  have hbodies := fun i r hi =>
    ((Local.bodies_kept fun _ p s => Known p s).run conf (known_meets conf ls)).req i r hi
  refine ⟨fun r hr _ => ?_, fun r hr => ?_, fun i r hi hlive hrun => ?_⟩
  · obtain ⟨i, hi⟩ := List.mem_iff_getElem?.mp hr
    exact (hbodies i r hi).2.calls
  · obtain ⟨i, hi⟩ := List.mem_iff_getElem?.mp hr
    exact (hbodies i r hi).2.sent
  · obtain ⟨hb, hanswered⟩ := hbodies i r hi
    exact hanswered.calls.trans (hb hlive hrun).answered.symm

/-- The client of a `HEAD` request gets the body of a result with a row. -/
theorem header_only_oneRow : ¬ ∀ (conf : Conf) (headerOnly : ℕ → Bool) (ls : List Label),
    ∀ r ∈ (run conf ls).reqs, headerOnly r.id → r.out.handed = [] := by
  intro h
  have hnil := h (.sample (.sample [1] []) []) (fun _ => true) oneRow _
    (List.get_mem _ ⟨0, by decide⟩) rfl
  exact absurd hnil (by decide)

/-- The header of the response cannot be sent. -/
def unsentHeader : List Label :=
  let env : FlushEnv := { header := .error }
  [.arrive (.small [7] 1048575)] ++
    [{}, {}, {}, { query := .ok (.sample 1) }, { column := .ok (some ⟨3, [97]⟩) }, {}, {}, {}].map
      fun e : Env => .run { e with
        ready := { flush := env }
        emit := { flush := env }
        flush := env }

theorem header_only_unsentHeader :
    ∃ r ∈ (run (.sample (.sample [1] []) []) unsentHeader).reqs,
      r.calls ≠ [] ∧ r.live = false ∧ r.out.handed = [] := by
  have hmem := List.get_mem (run (.sample (.sample [1] []) []) unsentHeader).reqs ⟨0, by decide⟩
  obtain ⟨hnone, _⟩ := header_only_bodies (.sample (.sample [1] []) []) (fun _ => true) unsentHeader
  exact ⟨_, hmem, by decide, by decide, (hnone _ hmem rfl).mpr (by decide)⟩

end Sys
end DrizzleNginx
