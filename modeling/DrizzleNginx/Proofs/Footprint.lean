/-
# The buffers that a request needs

Buffers are reused as the client consumes the output.  A new one is created only if none is free,
and then the others are all in the queue, in the busy chain, or just filled.  A piece of the result
is read only as long as their memory is below `drizzle_max_buffered`, so the number of buffers is
bounded, however long the result is and however slow the client.
-/
import DrizzleNginx.Proofs.Buffers

namespace DrizzleNginx

/-! ## The memory of buffers -/

/-- The sizes of the memory of some buffers. -/
def sizes (bs : List Buf) : Multiset ℕ := bs.map Buf.capacity

variable {bs bs' : List Buf} {b : Buf}

@[simp] lemma sizes_nil : sizes [] = 0 := rfl

@[simp] lemma sizes_cons : sizes (b :: bs) = b.capacity ::ₘ sizes bs := rfl

@[simp] lemma sizes_append : sizes (bs ++ bs') = sizes bs + sizes bs' := by
  simp [sizes]

@[simp] lemma card_sizes : (sizes bs).card = bs.length := by
  simp [sizes]

lemma sizes_consume (n : ℕ) (bs : List Buf) : sizes (consume n bs) = sizes bs := by
  induction bs generalizing n with
  | nil => rfl
  | cons b bs ih => simp [consume, ih]

/-- Buffers go from the busy chain to the free one. -/
lemma sizes_updateChains (free busy : List Buf) :
    sizes (updateChains free busy).2 + sizes (updateChains free busy).1 = sizes busy + sizes free ∧
      sizes (updateChains free busy).2 ≤ sizes busy := by
  induction busy generalizing free with
  | nil => exact ⟨rfl, le_refl _⟩
  | cons b busy ih =>
    rw [updateChains]
    split
    · obtain ⟨heq, hle⟩ := ih ({ b with data := [], pos := 0 } :: free)
      refine ⟨heq.trans ?_, hle.trans (Multiset.le_cons_self _ _)⟩
      rw [sizes_cons, sizes_cons, Multiset.add_cons, Multiset.cons_add]
    · exact ⟨rfl, le_refl _⟩

namespace Out

/-- The memory of the buffers that are not free. -/
def used (o : Out) : Multiset ℕ := sizes o.outBuf.toList + (sizes o.busyBufs + sizes o.outBufs)

/-- The memory of all buffers. -/
def memory (o : Out) : Multiset ℕ := o.used + sizes o.freeBufs

/-- No memory is added, and what was free is free. -/
structure Reuses (o o' : Out) : Prop where
  memory : o'.memory ≤ o.memory
  used : o'.used ≤ o.used

variable {o o₁ o₂ o' : Out} {loc : LocConf}

lemma memory_eq (o : Out) : o.memory = sizes o.bufs := by
  simp [memory, used, bufs, add_assoc]

lemma Reuses.refl (o : Out) : o.Reuses o := ⟨le_refl _, le_refl _⟩

lemma Reuses.trans (h : o.Reuses o₁) (h' : o₁.Reuses o₂) : o.Reuses o₂ :=
  ⟨h'.memory.trans h.memory, h'.used.trans h.used⟩

lemma Reuses.of_used (hused : o'.used ≤ o.used) (hfree : o'.freeBufs = o.freeBufs) :
    o.Reuses o' := by
  refine ⟨?_, hused⟩
  rw [Out.memory, Out.memory, hfree]
  exact add_le_add_left hused _

lemma queueBuf_reuses (link : Bool) (o : Out) : o.Reuses (o.queueBuf link).2 := by
  unfold queueBuf
  split
  · exact .refl o
  · next b hb =>
    split
    · exact .refl o
    · split
      · exact .refl o
      · refine .of_used ?_ rfl
        have htake : sizes (o.outBufs.take o.lastOut) ≤ sizes o.outBufs :=
          Multiset.coe_le.mpr ((List.take_sublist _ _).map _).subperm
        calc ({ o with
              outBufs := o.outBufs.take o.lastOut ++ [b], lastOut := o.lastOut + 1,
              bufferedOutput := o.bufferedOutput + b.capacity, outBuf := none,
              availOut := 0 } : Out).used
          _ = b.capacity ::ₘ (sizes o.busyBufs + sizes (o.outBufs.take o.lastOut)) := by
            simp [Out.used, ← Multiset.singleton_add, add_comm, add_assoc]
          _ ≤ b.capacity ::ₘ (sizes o.busyBufs + sizes o.outBufs) :=
            (Multiset.cons_le_cons_iff _).mpr (add_le_add_right htake _)
          _ = o.used := by
            rw [Out.used, hb]
            rfl

lemma callFilter_reuses (f : FilterAns) (o : Out) : o.Reuses (o.callFilter f) := by
  refine .of_used (le_of_eq ?_) rfl
  have hsplit : (o.callFilter f).busyBufs ++ (o.callFilter f).outBufs =
      consume f.consumed (o.busyBufs ++ o.outBufs) := List.take_append_drop ..
  have hsizes : sizes (o.callFilter f).busyBufs + sizes (o.callFilter f).outBufs =
      sizes o.busyBufs + sizes o.outBufs := by
    rw [← sizes_append, hsplit, sizes_consume, sizes_append]
  rw [Out.used, Out.used, hsizes]
  rfl

lemma recycle_reuses (f : FilterAns) (o : Out) : o.Reuses (o.recycle f) := by
  obtain ⟨heq, hle⟩ := sizes_updateChains o.freeBufs (o.busyBufs ++ o.outBufs)
  rw [sizes_append] at heq hle
  constructor
  · simp only [Out.memory, Out.used, recycle, sizes_nil, add_zero]
    rw [add_assoc, heq, ← add_assoc]
  · simp only [Out.used, recycle, sizes_nil, add_zero]
    exact add_le_add_right hle _

lemma outputBufs_reuses (env : FlushEnv) (loc : LocConf) (o : Out) :
    o.Reuses (o.outputBufs env loc).2 := by
  obtain ⟨q, hq⟩ : ∃ q, q = if o.seenStreamEnd then
    { o with seenStreamEnd := false }.queueBuf env.link else (.ok, o) := ⟨_, rfl⟩
  have hqueue : o.Reuses q.2 := by
    rw [hq]
    split
    · have h := queueBuf_reuses env.link { o with seenStreamEnd := false }
      exact ⟨h.memory, h.used⟩
    · exact .refl o
  have hheader : o.Reuses (q.2.sendHeader env loc).2 := by
    rw [sendHeader_stream]
    exact ⟨hqueue.memory, hqueue.used⟩
  have hcall := hheader.trans (callFilter_reuses env.filter _)
  unfold outputBufs
  simp only [← hq]
  split
  · exact hqueue
  · split
    · exact hheader
    · split
      · exact hheader
      · unfold flush
        split
        · exact hcall
        · exact hcall.trans (recycle_reuses env.filter _)

/-- New memory is large enough; and it is for a buffer more only if no buffer was free. -/
structure Takes (n : ℕ) (o o' : Out) : Prop where
  size : ∀ c ∈ o'.memory, c ∈ o.memory ∨ n ≤ c
  card : o'.memory.card ≤ max o.memory.card (o.used.card + 1)

variable {n : ℕ}

lemma Reuses.takes (h : o.Reuses o') : o.Takes n o' where
  size _ hc := .inl (Multiset.mem_of_le h.memory hc)
  card := (Multiset.card_le_card h.memory).trans (le_max_left _ _)

lemma Reuses.takes_of_takes (h : o.Reuses o₁) (h' : o₁.Takes n o') : o.Takes n o' where
  size c hc := (h'.size c hc).imp_left (Multiset.mem_of_le h.memory)
  card := by
    have hmemory := Multiset.card_le_card h.memory
    have hused := Multiset.card_le_card h.used
    have hcard := h'.card
    omega

lemma Takes.reuses (h : o.Takes n o₁) (h' : o₁.Reuses o') : o.Takes n o' where
  size c hc := h.size c (Multiset.mem_of_le h'.memory hc)
  card := (Multiset.card_le_card h'.memory).trans h.card

/-- Without memory for a larger buffer, the one from the free chain is lost. -/
lemma newBuf_reuses (mem : Bool) (size : ℕ) (o : Out) (h : (o.newBuf mem size).1 = none) :
    o.Reuses (o.newBuf mem size).2 := by
  unfold newBuf at h ⊢
  split
  · next c free hfree =>
    have hlost : o.Reuses { o with freeBufs := free } := by
      refine ⟨?_, le_refl _⟩
      rw [Out.memory, Out.memory, hfree]
      exact add_le_add_right (Multiset.le_cons_self _ _) _
    simp only [hfree] at h
    split
    · next hsmall =>
      split
      · next hmem =>
        rw [if_pos hsmall, if_pos hmem] at h
        cases h
      · exact hlost
    · exact hlost
  · next hnil =>
    split
    · next hmem =>
      simp only [hnil, hmem, if_true] at h
      cases h
    · exact .refl o

lemma newBuf_takes_memory {mem : Bool} {size : ℕ} {b : Buf} (avail : ℤ)
    (hb : (o.newBuf mem size).1 = some b) :
    o.Takes size { (o.newBuf mem size).2 with outBuf := some b, availOut := avail } := by
  have hsize := (newBuf_room mem size o b hb).2.2
  have hfree : (∃ c, sizes o.freeBufs = c ::ₘ sizes (o.newBuf mem size).2.freeBufs) ∨
      sizes (o.newBuf mem size).2.freeBufs = 0 := by
    unfold newBuf
    split
    · next c free hfree =>
      rw [hfree]
      split
      · split <;> exact .inl ⟨c.capacity, rfl⟩
      · exact .inl ⟨c.capacity, rfl⟩
    · next hnil => split <;> exact .inr (by rw [hnil]; rfl)
  have hmemory : ({ (o.newBuf mem size).2 with outBuf := some b, availOut := avail } : Out).memory =
      b.capacity ::ₘ
        (sizes o.busyBufs + sizes o.outBufs + sizes (o.newBuf mem size).2.freeBufs) := by
    rw [(newBuf_cases mem size o).1]
    simp [Out.memory, Out.used, ← Multiset.singleton_add, add_assoc]
  have hcard : (sizes o.busyBufs + sizes o.outBufs).card ≤ o.used.card :=
    Multiset.card_le_card (Multiset.le_add_left _ _)
  rcases hfree with ⟨c, hcons⟩ | hzero
  · constructor
    · intro d hd
      rw [hmemory, Multiset.mem_cons] at hd
      rcases hd with rfl | hd
      · exact .inr hsize
      · left
        rw [Out.memory, Out.used, hcons]
        simp only [Multiset.mem_add, Multiset.mem_cons] at hd ⊢
        tauto
    · rw [hmemory, Out.memory, hcons]
      simp only [Multiset.card_cons, Multiset.card_add] at hcard ⊢
      omega
  · constructor
    · intro d hd
      rw [hmemory, hzero, add_zero, Multiset.mem_cons] at hd
      refine hd.elim (fun heq => .inr (heq ▸ hsize)) fun hd => .inl ?_
      exact Multiset.mem_add.mpr (.inl (Multiset.mem_add.mpr (.inr hd)))
    · rw [hmemory, hzero, add_zero, Multiset.card_cons]
      omega

lemma requestMem_takes (env : EmitEnv) (loc : LocConf) (len : ℕ) (o : Out) :
    o.Takes loc.bufSize (o.requestMem env loc len).2 := by
  have hout := requestMem_outcome env loc len o
  have hqueue := queueBuf_reuses env.link o
  generalize o.requestMem env loc len = q at hout
  obtain ⟨mem, o'⟩ := q
  cases hout with
  | available h => exact (Reuses.refl _).takes
  | notQueued h => exact hqueue.takes
  | @notSent o₁ hq h =>
    rw [hq] at hqueue
    exact (hqueue.trans (outputBufs_reuses env.flush loc o₁)).takes
  | @noMemory o₁ o₂ hq ho h =>
    have hflush := outputBufs_reuses env.flush loc o₁
    rw [hq] at hqueue
    rw [ho] at hflush
    exact ((hqueue.trans hflush).trans (newBuf_reuses env.mem _ o₂ h)).takes
  | @newBuf o₁ o₂ b hq ho hb =>
    have hflush := outputBufs_reuses env.flush loc o₁
    rw [hq] at hqueue
    rw [ho] at hflush
    have htakes := newBuf_takes_memory b.capacity hb
    refine (hqueue.trans hflush).takes_of_takes ⟨fun c hc => ?_, htakes.card⟩
    exact (htakes.size c hc).imp_right (Nat.le_trans (Nat.le_max_right _ _))

lemma submitMem_reuses (link : Bool) (bytes : Bytes) (o : Out) :
    o.Reuses (o.submitMem link bytes).2 := by
  unfold submitMem
  split
  · exact .refl o
  · next b hb =>
    have hfill : o.Reuses { o with
        outBuf := some { b with data := b.data ++ bytes }
        availOut := o.availOut - bytes.length } := by
      refine .of_used (le_of_eq ?_) rfl
      rw [Out.used, Out.used, hb]
      rfl
    simp only
    split
    · exact hfill.trans (queueBuf_reuses link _)
    · exact hfill

/-- The emission of a piece. -/
lemma emit_takes (env : EmitEnv) (loc : LocConf) (size : ℕ) (bytes : Bytes)
    (last : Bool) (o : Out) :
    o.Takes loc.bufSize (o.emit env loc size bytes last).2 := by
  have hmem := requestMem_takes env loc size o
  unfold emit
  simp only
  split
  · exact hmem
  · split
    · exact hmem
    · refine hmem.reuses (Reuses.trans ?_ (submitMem_reuses env.submit bytes _))
      split
      · exact ⟨le_refl _, le_refl _⟩
      · exact .refl _

end Out

/-! ## One step -/

/-- What a step does to the buffers: they move, or a piece is added, when the output was ready for
it or when it is the first one. -/
inductive Yields (loc : LocConf) (o : Out) (calls : List LibCall) : Out → List LibCall → Prop
  | moved {o' : Out} {calls' : List LibCall} (h : o.Reuses o') : Yields loc o calls o' calls'
  | piece {o₁ o' : Out} {calls' : List LibCall} (h : o.Reuses o₁) (hg : o.Grows 0 o₁)
      (hready : o₁.ready loc ∨ answers calls = []) (h' : o₁.Takes loc.bufSize o')
      (hanswers : answers calls' ≠ []) : Yields loc o calls o' calls'

namespace St

variable {s s' : St} {p : Pos} {k : ℕ}

lemma outputReady_reuses (env : ReadyEnv) : s.r.out.Reuses (s.outputReady env k).2.r.out := by
  have hqueue := Out.queueBuf_reuses env.link s.r.out
  have hflush :=
    hqueue.trans (Out.outputBufs_reuses env.flush s.r.loc (s.r.out.queueBuf env.link).2)
  unfold outputReady
  split
  · exact .refl _
  · simp only
    split
    · exact hqueue
    · split
      · exact hflush
      · split
        · exact hflush
        · unfold pause
          simp only
          split
          · rw [delEvents_out]
            exact hflush
          · unfold pauseReading
            simp only [log_r, modReq_r, Req.log, modConn_r]
            rw [delEvents_out]
            exact hflush

lemma enter_reuses (state : DbState) (timeout : Msec) (env : ReadyEnv) :
    s.r.out.Reuses ((s.enter state timeout k).outputReady env k).2.r.out := by
  have h := outputReady_reuses (s := s.enter state timeout k) (k := k) env
  have hout : (s.enter state timeout k).r.out = s.r.out := by
    unfold enter
    split <;> rfl
  rwa [hout] at h

lemma drainOutput_reuses (env : Env) (timedout : Bool) :
    s.r.out.Reuses (s.drainOutput env timedout).2.r.out := by
  have hdelay : s.r.out.Reuses (s.r.out.endDelay timedout) := by
    unfold Out.endDelay
    split
    · exact ⟨le_refl _, le_refl _⟩
    · exact .refl _
  have hflush := hdelay.trans (Out.outputBufs_reuses env.flush s.r.loc (s.r.out.endDelay timedout))
  unfold drainOutput
  split
  · exact .refl _
  · simp only
    split
    · exact .refl _
    · split
      · exact hflush
      · split
        · exact hflush
        · unfold onConn
          split
          · unfold resume
            simp only
            split <;> exact hflush
          · exact hflush

lemma processed_reuses (env : Env) (rc : Rc) : s.r.out.Reuses (s.processed env rc).2.r.out := by
  have hflush := Out.outputBufs_reuses env.flush s.r.loc s.r.out
  unfold processed
  split
  · exact .refl _
  · split
    · exact .refl _
    · split
      · simp only
        split <;> exact hflush
      · exact .refl _

lemma done_reuses (env : Env) (rc : Rc) : s.r.out.Reuses (s.done env rc).2.r.out := by
  have hflush := Out.outputBufs_reuses env.flush s.r.loc s.r.out
  unfold done
  simp only
  split
  · exact ⟨hflush.memory, hflush.used⟩
  · exact hflush

lemma sendQuery_yields (env : Env) (hnil : answers s.r.calls = []) :
    Yields s.r.loc s.r.out s.r.calls (s.sendQuery env k k).2.r.out
      (s.sendQuery env k k).2.r.calls := by
  rw [(sendQuery_flags (s := s) (k := k) env).1]
  unfold sendQuery
  simp only
  split
  · split <;> exact .moved (.refl _)
  · split <;> exact .moved (.refl _)
  · exact .moved (.refl _)
  · next header hret =>
    unfold queryOk
    split
    · split <;> exact .moved (.refl _)
    · next hnot =>
      have htakes := Out.emit_takes env.emit s.r.loc
        (1 + 4 + 1 + 2 + 2 + 2 + header.error.length % 2 ^ 16 + 8 + 8 + 2)
        (Rds.resultHeaderBytes s.w.conf.endian header) (header.columnCount = 0) s.r.out
      have hsends : s.r.sendsSetNames = false := (Bool.not_eq_true _).mp hnot
      have hans : answers
          (.query s.r.id s.r.sendsSetNames s.r.queryToSend env.query :: s.r.calls) ≠ [] := by
        rw [answers_cons, hsends, hret]
        simp [LibCall.answer]
      simp only
      split <;> exact .piece (.refl _) (.refl _) (.inr hnil) htakes hans

/-- A piece is added behind the check of the output. -/
lemma Checked.yields {s₁ : St} {o' : Out} {calls' : List LibCall} {call : LibCall} {a : Answer}
    (h : Checked s .ok s₁) (hre : s.r.out.Reuses s₁.r.out)
    (htakes : s₁.r.out.Takes s₁.r.loc.bufSize o')
    (hcalls : calls' = call :: s₁.r.calls) (ha : call.answer = some a) :
    Yields s.r.loc s.r.out s.r.calls o' calls' := by
  refine .piece hre h.grows (.inl (h.ready rfl)) (h.loc ▸ htakes) ?_
  rw [hcalls, answers_cons, ha]
  simp

lemma recvCols_yields (env : Env) (hk : s.r.connection = some k) :
    Yields s.r.loc s.r.out s.r.calls (s.recvCols env k k).2.r.out
      (s.recvCols env k k).2.r.calls := by
  have hre := enter_reuses (s := s) (k := k) .recvCols s.r.loc.recvColsTimeout env.ready
  obtain ⟨rc, s₁, h⟩ : ∃ rc s₁, (s.enter .recvCols s.r.loc.recvColsTimeout k).outputReady
    env.ready k = (rc, s₁) := ⟨_, _, rfl⟩
  have hc := enter_checked env.ready hk h
  rw [h] at hre
  unfold recvCols
  simp only [h]
  split
  · exact .moved hre
  · next hrc =>
    obtain rfl := not_not.mp hrc
    split
    · exact .moved hre
    · exact .moved hre
    · next col hret =>
      exact hc.yields hre (Out.emit_takes ..) (Req.log_calls ..) (a := .column (some col))
        (by rw [hret]; rfl)
    · exact .moved hre

lemma recvRows_yields (env : Env) (hk : s.r.connection = some k) :
    Yields s.r.loc s.r.out s.r.calls (s.recvRows env k k).2.r.out
      (s.recvRows env k k).2.r.calls := by
  have hre := enter_reuses (s := s) (k := k) .recvRows s.r.loc.recvRowsTimeout env.ready
  obtain ⟨rc, s₁, h⟩ : ∃ rc s₁, (s.enter .recvRows s.r.loc.recvRowsTimeout k).outputReady
    env.ready k = (rc, s₁) := ⟨_, _, rfl⟩
  have hc := enter_checked env.ready hk h
  rw [h] at hre
  unfold recvRows
  simp only [h]
  split
  · exact .moved hre
  · next hrc =>
    obtain rfl := not_not.mp hrc
    split
    · exact .moved hre
    · split
      · exact .moved hre
      · exact .moved hre
      · next row hret =>
        have hyields := fun o' (htakes : s₁.r.out.Takes s₁.r.loc.bufSize o') =>
          hc.yields hre htakes (Req.log_calls s₁.r (.lib k (.rowRead s₁.r.id env.row)))
            (a := .row row) (by rw [hret]; rfl)
        have hrow := hyields _
          (Out.emit_takes env.emit s₁.r.loc 1 (Rds.rowBytes row) (row = 0) s₁.r.out)
        unfold rowOk
        simp only
        split
        · exact hrow
        · split
          · exact hrow
          · split <;> exact hrow

lemma recvFields_yields (env : Env) (hk : s.r.connection = some k) :
    Yields s.r.loc s.r.out s.r.calls (s.recvFields env k k).2.r.out
      (s.recvFields env k k).2.r.calls := by
  have hre := outputReady_reuses (s := s) (k := k) env.ready
  obtain ⟨rc, s₁, h⟩ : ∃ rc s₁, s.outputReady env.ready k = (rc, s₁) := ⟨_, _, rfl⟩
  have hc := outputReady_checked env.ready hk h
  rw [h] at hre
  unfold recvFields
  simp only [h]
  split
  · exact .moved hre
  · next hrc =>
    obtain rfl := not_not.mp hrc
    split
    · exact .moved hre
    · exact .moved hre
    · exact .moved hre
    · next chunk hret =>
      refine hc.yields hre ?_ (Req.log_calls ..) (a := .field chunk) (by rw [hret]; rfl)
      simp only [Out.outputField]
      split
      · exact (Out.Reuses.refl _).takes
      · exact Out.emit_takes ..

/-- What every step does to the buffers. -/
theorem exec_yields (env : Env) (hc : Custody p s) {t : Talk} (hs : Session p s.r t) :
    Yields s.r.loc s.r.out s.r.calls (s.exec env p).2.r.out (s.exec env p).2.r.calls := by
  cases hp : p.outputs with
  | false => exact (exec_out env hc hp).1 ▸ .moved (.refl _)
  | true =>
    cases p with
    | event ev =>
      cases ev with
      | clientWrite timedout =>
        simp only [exec, handleEvent]
        split
        · exact .moved (drainOutput_reuses env timedout)
        · exact .moved (.refl _)
        · exact .moved (.refl _)
      | _ => cases hp
    | sendQuery =>
      obtain ⟨hlive, k, hk⟩ := hc.ok
      rw [exec, onConn_of hk.connection hk.drizzleCon]
      refine sendQuery_yields env ?_
      have hshape := Talk.shape_after hs.talk
      rcases hs.fits hlive with rfl | rfl <;> exact hshape
    | recvCols =>
      obtain ⟨_, k, hk⟩ := hc.ok
      rw [exec, onConn_of hk.connection hk.drizzleCon]
      exact recvCols_yields env hk.connection
    | recvRows =>
      obtain ⟨_, k, hk⟩ := hc.ok
      rw [exec, onConn_of hk.connection hk.drizzleCon]
      exact recvRows_yields env hk.connection
    | recvFields =>
      obtain ⟨_, k, hk⟩ := hc.ok
      rw [exec, onConn_of hk.connection hk.drizzleCon]
      exact recvFields_yields env hk.connection
    | ret rc => exact .moved (processed_reuses env rc)
    | done rc => exact .moved (done_reuses env rc)
    | _ => cases hp

end St

/-! ## Runs -/

/-- The buffers are not too small, and not too many. -/
structure Thrifty (loc : LocConf) (o : Out) (calls : List LibCall) : Prop where
  large : ∀ c ∈ o.memory, loc.bufSize ≤ c
  few : o.memory.card * loc.bufSize < loc.maxBuffered + 2 * loc.bufSize
  /-- There is no buffer before the first piece. -/
  empty : answers calls = [] → o.memory = 0

section Thrifty

variable {e : Rds.Endian} {loc : LocConf} {o o' : Out} {calls calls' : List LibCall}

lemma Sends.answers_eq_nil (h : Sends e loc o calls o' calls') (hnil : answers calls' = []) :
    answers calls = [] := by
  cases h with
  | moved hg hcalls => exact hcalls ▸ hnil
  | piece hg hready ha hg' =>
    rw [answers_cons, ha] at hnil
    simp at hnil

/-- The memory of the buffers that have been queued. -/
def Out.queued (o : Out) : Multiset ℕ := sizes o.busyBufs + sizes o.outBufs

lemma Out.queued_le (o : Out) : o.queued ≤ o.memory :=
  (Multiset.le_add_left _ _).trans (Multiset.le_add_right _ _)

lemma Out.card_used_le (o : Out) : o.used.card ≤ o.queued.card + 1 := by
  have hfill : (sizes o.outBuf.toList).card ≤ 1 := by
    rw [card_sizes]
    cases o.outBuf <;> simp
  rw [Out.used, Multiset.card_add, Out.queued]
  omega

/-- Behind the check of the output, the buffers that have been queued take less memory than may
wait. -/
lemma Out.Measured.queued_lt (h : o.Measured) (hready : o.ready loc)
    (hlarge : ∀ c ∈ o.memory, loc.bufSize ≤ c) : o.queued.card * loc.bufSize < loc.maxBuffered := by
  have hsum : o.queued.sum = o.bufferedOutput := by
    rw [h.buffered, capacities_append, Out.queued, Multiset.sum_add]
    simp [sizes, capacities]
  have hle : o.queued.card • loc.bufSize ≤ o.queued.sum :=
    Multiset.card_nsmul_le_sum fun c hc => hlarge c (Multiset.mem_of_le o.queued_le hc)
  rw [hsum, smul_eq_mul] at hle
  have hpending : o.bufferedOutput ≤ o.pendingOutput := Nat.le_add_right _ _
  simp only [Out.ready, Bool.and_eq_true, decide_eq_true_eq] at hready
  omega

lemma Thrifty.yields (h : Thrifty loc o calls) (hm : o.Measured) (hy : Yields loc o calls o' calls')
    (hnil : answers calls' = [] → answers calls = []) : Thrifty loc o' calls' := by
  cases hy with
  | moved hre =>
    refine ⟨fun c hc => h.large c (Multiset.mem_of_le hre.memory hc), ?_, fun hans => ?_⟩
    · exact Nat.lt_of_le_of_lt (Nat.mul_le_mul_right _ (Multiset.card_le_card hre.memory)) h.few
    · have hle := hre.memory
      rw [h.empty (hnil hans)] at hle
      exact Multiset.le_zero.mp hle
  | @piece o₁ _ _ hre hg hready htakes hans =>
    have hlarge₁ : ∀ c ∈ o₁.memory, loc.bufSize ≤ c :=
      fun c hc => h.large c (Multiset.mem_of_le hre.memory hc)
    have hqueued : o₁.queued.card * loc.bufSize < loc.maxBuffered := by
      rcases hready with hready | hfirst
      · exact (hg hm).1.queued_lt hready hlarge₁
      · have hle := o₁.queued_le.trans hre.memory
        rw [h.empty hfirst] at hle
        rw [Multiset.le_zero.mp hle, Multiset.card_zero, Nat.zero_mul]
        exact Nat.lt_of_lt_of_le loc.bufSize_pos loc.bufSize_le
    refine ⟨fun c hc => (htakes.size c hc).elim (hlarge₁ c) id, ?_, fun hnone => absurd hnone hans⟩
    rcases le_max_iff.mp htakes.card with hold | hnew
    · have hle := hold.trans (Multiset.card_le_card hre.memory)
      exact Nat.lt_of_le_of_lt (Nat.mul_le_mul_right _ hle) h.few
    · -- no buffer was free, so all of them have been queued, but for the one that was being filled
      have hle : o'.memory.card ≤ o₁.queued.card + 2 :=
        hnew.trans (Nat.succ_le_succ o₁.card_used_le)
      calc o'.memory.card * loc.bufSize
        _ ≤ (o₁.queued.card + 2) * loc.bufSize := Nat.mul_le_mul_right _ hle
        _ = o₁.queued.card * loc.bufSize + 2 * loc.bufSize := Nat.add_mul ..
        _ < loc.maxBuffered + 2 * loc.bufSize := Nat.add_lt_add_right hqueued _

end Thrifty

/-- How many buffers there are, as a claim about requests. -/
def Local.footprint : Local where
  req _ _ r _ := Thrifty r.loc r.out r.calls
  item _ _ _ := True

lemma Local.footprint_kept : Local.footprint.Kept fun _ p s =>
    Known p s ∧ Local.pending.req s.w.conf p s.r s.conn where
  init w id a _ _ := by
    refine ⟨fun c hc => absurd hc (Multiset.notMem_zero c), ?_, fun _ => rfl⟩
    have hpos : 0 < a.loc.maxBuffered := Nat.lt_of_lt_of_le a.loc.bufSize_pos a.loc.bufSize_le
    exact (Nat.zero_mul _).trans_lt (Nat.add_pos_left hpos _)
  fire ev s _ _ h := by
    obtain ⟨⟨cw, hr⟩, _⟩ := St.fire_cases ev s
    rw [hr]
    exact ⟨h.large, h.few, h.empty⟩
  client _ _ _ _ _ h := ⟨h.large, h.few, h.empty⟩
  exec env p s hc hd h _ := by
    obtain ⟨hknown, hpending⟩ := hd
    obtain ⟨t, hs⟩ := hknown.session
    have hloc : (s.exec env p).2.r.loc = s.r.loc := (congrArg Req.loc (St.exec_given env hc) :)
    change Thrifty (s.exec env p).2.r.loc _ _
    rw [hloc]
    exact h.yields hpending.measured (St.exec_yields env hc hs)
      (St.exec_sends env hc hs).answers_eq_nil
  saved _ _ _ _ _ _ _ _ _ _ := trivial

namespace Sys

/-- **Bounded buffers.**  In all states of all runs, every buffer of a request has memory of at
least `drizzle_buffer_size` bytes, and the buffers, including those that are free, are at most two
more than would fit below `drizzle_max_buffered`, however long the result is and whatever the client
does. -/
theorem buffers_bounded (conf : Conf) (ls : List Label) : ∀ r ∈ (run conf ls).reqs,
    (∀ b ∈ r.out.bufs, r.loc.bufSize ≤ b.capacity) ∧
      r.out.bufs.length * r.loc.bufSize < r.loc.maxBuffered + 2 * r.loc.bufSize := by
  intro r hr
  obtain ⟨i, hi⟩ := List.mem_iff_getElem?.mp hr
  have hknown := known_meets conf ls
  have hd : Lib.Meets step (RunsMeet fun _ p s =>
      Known p s ∧ Local.pending.req s.w.conf p s.r s.conn) (init conf) ls :=
    (RunsMeet.and hknown (Local.pending_kept.meets conf hknown)).mono
      fun s l h env i p r hl hact hi => (h env i p r hl hact hi).imp_right And.left
  have h : Thrifty r.loc r.out r.calls := (Local.footprint_kept.run conf hd).req i r hi
  obtain ⟨hlarge, hfew, _⟩ := h
  rw [Out.memory_eq] at hlarge hfew
  rw [card_sizes] at hfew
  exact ⟨fun b hb => hlarge _ (Multiset.mem_coe.mpr (List.mem_map_of_mem hb)), hfew⟩

/-- A header, a column and the end of the columns, in buffers of the size that each of them needs.
-/
def slowClient : List Label := sampleArrival (.small [7] 1048575) ++
  [.run { query := .ok (.sample 1) }, .run { column := .ok (some ⟨3, [97]⟩) },
    .run { column := .ok none }, .run { row := .ok 0 }]

theorem buffers_bounded_slowClient : ∃ r ∈ (run (.sample (.sample [1] []) []) slowClient).reqs,
    r.out.bufs.length = 3 ∧
      r.out.bufs.length * r.loc.bufSize < r.loc.maxBuffered + 2 * r.loc.bufSize := by
  have hmem := List.get_mem (run (.sample (.sample [1] []) []) slowClient).reqs ⟨0, by decide⟩
  exact ⟨_, hmem, by decide, (buffers_bounded (.sample (.sample [1] []) []) slowClient _ hmem).2⟩

end Sys
end DrizzleNginx
