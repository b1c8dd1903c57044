/-
# Predicates of the output

What a step does to the output of a request is made of a few calls.  A predicate that all of them
keep is kept by the step, whichever path it takes.
-/
import DrizzleNginx.Proofs.Buffers
import DrizzleNginx.Proofs.Delivery

namespace DrizzleNginx

/-- The answers to the calls of `outputBufs` in a step. -/
def Env.flushes (env : Env) : List FlushEnv := [env.ready.flush, env.emit.flush, env.flush]

/-- A predicate that the calls in a step keep.  The buffer that is being filled starts with its
first byte, and the predicate does not depend on it. -/
structure Out.Closed (env : Env) (loc : LocConf) (P : Out → Prop) : Prop where
  start : ∀ o b, P o → o.outBuf = some b → b.pos = 0
  queueBuf : ∀ link o, P o → P (o.queueBuf link).2
  outputBufs : ∀ flush ∈ env.flushes, ∀ o, P o → P (o.outputBufs flush loc).2
  filling : ∀ (o : Out) b avail free n last, P o → (∀ c, b = some c → c.pos = 0) →
    P { o with
      outBuf := b
      availOut := avail
      freeBufs := free
      nbufs := n
      seenStreamEnd := last }

namespace Out

variable {o : Out}

/-- The parts of `outputBufs`: the last buffer is queued, the header is sent, and the chain is
handed to the filter. -/
lemma outputBufs_parts (env : FlushEnv) (loc : LocConf) {P : Out → Prop}
    (hqueue : ∀ link o, P o → P (o.queueBuf link).2)
    (hlast : ∀ o : Out, P o → P { o with seenStreamEnd := false }) (ho : P o) :
    ∃ o₁, P o₁ ∧ ((o.outputBufs env loc).2 = o₁ ∨
      (o.outputBufs env loc).2 = (o₁.sendHeader env loc).2 ∧
        ((o₁.sendHeader env loc).1 ≠ .ok ∨ (o₁.sendHeader env loc).2.headerSent = false) ∨
      (o₁.sendHeader env loc).2.headerSent ∧
        (o.outputBufs env loc).2 = ((o₁.sendHeader env loc).2.flush env.filter).2) := by
  obtain ⟨q, hq⟩ : ∃ q, q = if o.seenStreamEnd then
    { o with seenStreamEnd := false }.queueBuf env.link else (.ok, o) := ⟨_, rfl⟩
  have hP : P q.2 := by
    rw [hq]
    split
    · exact hqueue _ _ (hlast o ho)
    · exact ho
  refine ⟨q.2, hP, ?_⟩
  unfold outputBufs
  rw [← hq]
  simp only
  split
  · exact .inl rfl
  · split
    · next hrc => exact .inr (.inl ⟨rfl, .inl hrc⟩)
    · split
      · next hsent => exact .inr (.inl ⟨rfl, .inr (by simpa using hsent)⟩)
      · next hsent => exact .inr (.inr ⟨by simpa using hsent, rfl⟩)

end Out

namespace Out.Closed

variable {env : Env} {loc : LocConf} {P : Out → Prop} {o : Out}

lemma requestMem (h : Closed env loc P) (len : ℕ) (ho : P o) :
    P (o.requestMem env.emit loc len).2 := by
  have hout := requestMem_outcome env.emit loc len o
  have hqueue : ∀ {q}, o.queueBuf env.emit.link = q → P q.2 := fun hq =>
    hq ▸ h.queueBuf env.emit.link o ho
  have hflush : ∀ {o₁ q}, o₁.outputBufs env.emit.flush loc = q → P o₁ → P q.2 := fun hs h₁ =>
    hs ▸ h.outputBufs env.emit.flush (by simp [Env.flushes]) _ h₁
  generalize o.requestMem env.emit loc len = q at hout ⊢
  obtain ⟨mem, o'⟩ := q
  cases hout with
  | available _ => exact ho
  | notQueued _ => exact hqueue rfl
  | notSent hq _ => exact hflush rfl (hqueue hq)
  | @noMemory o₁ o₂ hq hs _ =>
    have h₂ : P o₂ := hflush hs (hqueue hq)
    rw [(newBuf_cases env.emit.mem (max len loc.bufSize) o₂).1]
    exact h.filling o₂ _ _ _ _ _ h₂ fun c hc => h.start o₂ c h₂ hc
  | @newBuf o₁ o₂ b hq hs hb =>
    have h₂ : P o₂ := hflush hs (hqueue hq)
    have hpos := ((newBuf_cases env.emit.mem (max len loc.bufSize) o₂).2 b hb).2
    rw [(newBuf_cases env.emit.mem (max len loc.bufSize) o₂).1]
    refine h.filling o₂ _ _ _ _ _ h₂ ?_
    rintro _ ⟨⟩
    exact hpos

lemma submitMem (h : Closed env loc P) (link : Bool) (bytes : Bytes) (ho : P o) :
    P (o.submitMem link bytes).2 := by
  unfold Out.submitMem
  split
  · exact ho
  · next b hb =>
    have hfill : P { o with
        outBuf := some { b with data := b.data ++ bytes }
        availOut := o.availOut - bytes.length } := by
      refine h.filling o _ _ _ _ _ ho ?_
      rintro _ ⟨⟩
      exact h.start o b ho hb
    simp only
    split
    · exact h.queueBuf link _ hfill
    · exact hfill

/-- The emission of a piece. -/
lemma emit (h : Closed env loc P) (size : ℕ) (bytes : Bytes) (last : Bool) (ho : P o) :
    P (o.emit env.emit loc size bytes last).2 := by
  have hmem := h.requestMem size ho
  unfold Out.emit
  simp only
  split
  · exact hmem
  · split
    · exact hmem
    · refine h.submitMem env.emit.submit bytes ?_
      split
      · exact h.filling _ _ _ _ _ _ hmem fun c hc => h.start _ c hmem hc
      · exact hmem

lemma outputField (h : Closed env loc P) (e : Rds.Endian) (f : FieldRead) (ho : P o) :
    P (o.outputField env.emit e loc f).2 := by
  unfold Out.outputField
  split
  · exact ho
  · exact h.emit _ _ _ ho

end Out.Closed

namespace St

variable {s : St} {p : Pos} {k : ℕ} {env : Env} {P : Out → Prop}

lemma closed_outputReady (h : Out.Closed env s.r.loc P) (ho : P s.r.out) :
    P (s.outputReady env.ready k).2.r.out := by
  have hqueue := h.queueBuf env.ready.link s.r.out ho
  have hflush := h.outputBufs env.ready.flush (by simp [Env.flushes]) _ hqueue
  unfold outputReady
  split
  · exact ho
  · simp only
    split
    · exact hqueue
    · split
      · exact hflush
      · split
        · exact hflush
        · unfold pause
          simp only
          split
          · rw [delEvents_out]
            exact hflush
          · unfold pauseReading
            simp only [log_r, modReq_r, Req.log, modConn_r]
            rw [delEvents_out]
            exact hflush

lemma closed_enter (state : DbState) (timeout : Msec) (h : Out.Closed env s.r.loc P)
    (ho : P s.r.out) : P ((s.enter state timeout k).outputReady env.ready k).2.r.out := by
  unfold enter
  split
  · exact closed_outputReady (s := (s.modRead k _).modReq _) h ho
  · exact closed_outputReady h ho

lemma closed_sendQuery (h : Out.Closed env s.r.loc P) (ho : P s.r.out) :
    P (s.sendQuery env k k).2.r.out := by
  unfold sendQuery
  simp only
  split
  · split <;> exact ho
  · split <;> exact ho
  · exact ho
  · next header _ =>
    have hemit := h.emit (1 + 4 + 1 + 2 + 2 + 2 + header.error.length % 2 ^ 16 + 8 + 8 + 2)
      (Rds.resultHeaderBytes s.w.conf.endian header) (header.columnCount = 0) ho
    unfold queryOk
    split
    · split <;> exact ho
    · simp only
      split <;> exact hemit

lemma closed_recvCols (h : Out.Closed env s.r.loc P) (hk : s.r.connection = some k)
    (ho : P s.r.out) : P (s.recvCols env k k).2.r.out := by
  obtain ⟨rc, s₁, hs₁⟩ : ∃ rc s₁, (s.enter .recvCols s.r.loc.recvColsTimeout k).outputReady
    env.ready k = (rc, s₁) := ⟨_, _, rfl⟩
  have hl := enter_checked env.ready hk hs₁
  have ho₁ : P s₁.r.out := by
    have := closed_enter (k := k) .recvCols s.r.loc.recvColsTimeout h ho
    rwa [hs₁] at this
  rw [← hl.loc] at h
  unfold recvCols
  simp only [hs₁]
  split
  · exact ho₁
  · split
    · exact ho₁
    · exact ho₁
    · exact h.emit _ _ _ ho₁
    · exact ho₁

lemma closed_recvRows (h : Out.Closed env s.r.loc P) (hk : s.r.connection = some k)
    (ho : P s.r.out) : P (s.recvRows env k k).2.r.out := by
  obtain ⟨rc, s₁, hs₁⟩ : ∃ rc s₁, (s.enter .recvRows s.r.loc.recvRowsTimeout k).outputReady
    env.ready k = (rc, s₁) := ⟨_, _, rfl⟩
  have hl := enter_checked env.ready hk hs₁
  have ho₁ : P s₁.r.out := by
    have := closed_enter (k := k) .recvRows s.r.loc.recvRowsTimeout h ho
    rwa [hs₁] at this
  rw [← hl.loc] at h
  unfold recvRows
  simp only [hs₁]
  split
  · exact ho₁
  · split
    · exact ho₁
    · split
      · exact ho₁
      · exact ho₁
      · next row _ =>
        have hemit := h.emit 1 (Rds.rowBytes row) (row = 0) ho₁
        unfold rowOk
        simp only
        split
        · exact hemit
        · split
          · exact hemit
          · split <;> exact hemit

lemma closed_recvFields (h : Out.Closed env s.r.loc P) (hk : s.r.connection = some k)
    (ho : P s.r.out) : P (s.recvFields env k k).2.r.out := by
  obtain ⟨rc, s₁, hs₁⟩ : ∃ rc s₁, s.outputReady env.ready k = (rc, s₁) := ⟨_, _, rfl⟩
  have hl := outputReady_checked env.ready hk hs₁
  have ho₁ : P s₁.r.out := by
    have := closed_outputReady (k := k) h ho
    rwa [hs₁] at this
  rw [← hl.loc] at h
  unfold recvFields
  simp only [hs₁]
  split
  · exact ho₁
  · split
    · exact ho₁
    · exact ho₁
    · exact ho₁
    · exact h.outputField _ _ ho₁

lemma closed_drainOutput (h : Out.Closed env s.r.loc P) (timedout : Bool) (ho : P s.r.out)
    (hdelay : P (s.r.out.endDelay timedout)) : P (s.drainOutput env timedout).2.r.out := by
  have hflush := h.outputBufs env.flush (by simp [Env.flushes]) _ hdelay
  unfold drainOutput
  split
  · exact ho
  · simp only
    split
    · exact ho
    · split
      · exact hflush
      · split
        · exact hflush
        · unfold onConn
          split
          · unfold resume
            simp only
            split <;> exact hflush
          · exact hflush

lemma closed_processed (h : Out.Closed env s.r.loc P) (rc : Rc) (ho : P s.r.out) :
    P (s.processed env rc).2.r.out := by
  have hflush := h.outputBufs env.flush (by simp [Env.flushes]) _ ho
  unfold processed
  split
  · exact ho
  · split
    · exact ho
    · split
      · simp only
        split <;> exact hflush
      · exact ho

/-- The step behind which the request is finalized notes that the header has been sent, but
hands over nothing more. -/
lemma closed_done (h : Out.Closed env s.r.loc P) (rc : Rc) (ho : P s.r.out) :
    ∃ o sent, P o ∧ (s.done env rc).2.r.out = { o with headerSent := sent } := by
  have hflush := h.outputBufs env.flush (by simp [Env.flushes]) _ ho
  unfold done
  simp only
  split
  · exact ⟨_, true, hflush, rfl⟩
  · exact ⟨_, (s.r.out.outputBufs env.flush s.r.loc).2.headerSent, hflush, rfl⟩

/-- Every step keeps a predicate that the calls keep, up to the end of the result; the handler of
the client's write event may have ended a delay before. -/
theorem output_exec (hc : Custody p s) (h : Out.Closed env s.r.loc P) (ho : P s.r.out)
    (hp : ∀ rc, p ≠ .done rc) (hdelay : ∀ timedout, p = .event (.clientWrite timedout) →
      P (s.r.out.endDelay timedout)) : P (s.exec env p).2.r.out := by
  cases hout : p.outputs with
  | false => exact (exec_out env hc hout).1 ▸ ho
  | true =>
    cases p with
    | event ev =>
      cases ev with
      | clientWrite timedout =>
        simp only [exec, handleEvent]
        split
        · exact closed_drainOutput h timedout ho (hdelay timedout rfl)
        · exact ho
        · exact ho
      | _ => cases hout
    | sendQuery =>
      obtain ⟨_, k, hk⟩ := hc.ok
      rw [exec, onConn_of hk.connection hk.drizzleCon]
      exact closed_sendQuery h ho
    | recvCols =>
      obtain ⟨_, k, hk⟩ := hc.ok
      rw [exec, onConn_of hk.connection hk.drizzleCon]
      exact closed_recvCols h hk.connection ho
    | recvRows =>
      obtain ⟨_, k, hk⟩ := hc.ok
      rw [exec, onConn_of hk.connection hk.drizzleCon]
      exact closed_recvRows h hk.connection ho
    | recvFields =>
      obtain ⟨_, k, hk⟩ := hc.ok
      rw [exec, onConn_of hk.connection hk.drizzleCon]
      exact closed_recvFields h hk.connection ho
    | ret rc => exact closed_processed h rc ho
    | done rc => exact absurd rfl (hp rc)
    | _ => cases hout

end St

end DrizzleNginx
