/-
# The output that waits for the client

Before a piece of a result is read, `ngx_http_drizzle_output_ready` compares the output that is
pending with `drizzle_max_buffered`.  It counts the capacities of the buffers that are queued,
and the data of the one that is being filled.  That is at least what has not been consumed, so
never more than `drizzle_max_buffered` bytes and the last piece wait.
-/
import DrizzleNginx.Proofs.Histories

namespace DrizzleNginx

/-! ## Accounting for buffers -/

/-- The bytes in buffers that have not been consumed. -/
def unconsumed (bs : List Buf) : ℕ := (bs.map fun b => b.pending.length).sum

/-- The sum that `buffered_output` stands for. -/
def capacities (bs : List Buf) : ℕ := (bs.map Buf.capacity).sum

/-- The marks of a buffer are in order. -/
structure Buf.Fits (b : Buf) : Prop where
  pos : b.pos ≤ b.data.length
  data : b.data.length ≤ b.capacity

variable {bs bs' : List Buf} {b : Buf}

@[simp] lemma unconsumed_nil : unconsumed [] = 0 := rfl

@[simp] lemma unconsumed_cons : unconsumed (b :: bs) = b.pending.length + unconsumed bs := rfl

@[simp] lemma unconsumed_append : unconsumed (bs ++ bs') = unconsumed bs + unconsumed bs' := by
  simp [unconsumed]

@[simp] lemma capacities_nil : capacities [] = 0 := rfl

@[simp] lemma capacities_cons : capacities (b :: bs) = b.capacity + capacities bs := rfl

@[simp] lemma capacities_append : capacities (bs ++ bs') = capacities bs + capacities bs' := by
  simp [capacities]

lemma unconsumed_le (h : ∀ b ∈ bs, b.Fits) : unconsumed bs ≤ capacities bs := by
  induction bs with
  | nil => exact Nat.le_refl 0
  | cons b bs ih =>
    have hb := (h b List.mem_cons_self).data
    have hbs := ih fun b hb => h b (List.mem_cons_of_mem _ hb)
    have hpending : b.pending.length ≤ b.data.length := by simp [Buf.pending]
    rw [unconsumed_cons, capacities_cons]
    omega

/-- The filter consumes bytes, and leaves the rest as it is. -/
lemma consume_spec (n : ℕ) (h : ∀ b ∈ bs, b.Fits) : (∀ b ∈ consume n bs, b.Fits) ∧
    capacities (consume n bs) = capacities bs ∧ (consume n bs).length = bs.length ∧
    unconsumed (consume n bs) = unconsumed bs - n := by
  induction bs generalizing n with
  | nil => exact ⟨nofun, rfl, rfl, by simp [consume]⟩
  | cons b bs ih =>
    obtain ⟨hfits, hcap, hlen, hun⟩ := ih (n - min n (b.data.length - b.pos))
      fun b hb => h b (List.mem_cons_of_mem _ hb)
    have hb := h b List.mem_cons_self
    have hpos := hb.pos
    refine ⟨fun c hc => ?_, congrArg (b.capacity + ·) hcap, congrArg (· + 1) hlen, ?_⟩
    · rcases List.mem_cons.mp hc with rfl | hc
      · refine ⟨?_, hb.data⟩
        simp only
        omega
      · exact hfits c hc
    · simp only [consume, unconsumed_cons, hun, Buf.pending, List.length_drop]
      omega

/-- The buffers that leave the busy chain have been consumed. -/
lemma updateChains_spec (free busy : List Buf) (h : ∀ b ∈ busy, b.Fits) :
    (∀ b ∈ (updateChains free busy).2, b.Fits) ∧
    unconsumed (updateChains free busy).2 = unconsumed busy := by
  induction busy generalizing free with
  | nil => exact ⟨nofun, rfl⟩
  | cons b busy ih =>
    unfold updateChains
    split
    · next hempty =>
      obtain ⟨hfits, hun⟩ := ih ({ b with data := [], pos := 0 } :: free)
        fun b hb => h b (List.mem_cons_of_mem _ hb)
      refine ⟨hfits, hun.trans ?_⟩
      simp [Buf.pending, hempty]
    · exact ⟨h, rfl⟩

namespace Out

/-- The bytes that the filter has not consumed. -/
def unsent (o : Out) : ℕ := unconsumed (o.busyBufs ++ o.outBufs) + o.filling.length

/-- The counters of the output side are right. -/
structure Measured (o : Out) : Prop where
  buffered : o.bufferedOutput = capacities (o.busyBufs ++ o.outBufs)
  fits : ∀ b ∈ o.busyBufs ++ o.outBufs, b.Fits
  room : ∀ b, o.outBuf = some b → b.Fits ∧ b.pos = 0 ∧ (b.data.length : ℤ) + o.availOut = b.capacity
  lastOut : o.lastOut = o.outBufs.length
  /-- Nothing is handed to the filter before the header of the response. -/
  opened : o.headerSent = false → o.busyBufs = [] ∧ o.outputBlocked = false

/-- The counters stay right, and at most some bytes are added to what waits. -/
def Grows (o : Out) (n : ℕ) (o' : Out) : Prop :=
  o.Measured → o'.Measured ∧ o'.unsent ≤ o.unsent + n

variable {o o₁ o₂ : Out} {n m : ℕ}

lemma Grows.refl (o : Out) : o.Grows 0 o := fun h => ⟨h, Nat.le_refl _⟩

lemma Grows.trans (h : o.Grows n o₁) (h' : o₁.Grows m o₂) : o.Grows (n + m) o₂ := fun hm => by
  obtain ⟨hm₁, h₁⟩ := h hm
  obtain ⟨hm₂, h₂⟩ := h' hm₁
  exact ⟨hm₂, by omega⟩

lemma Grows.mono (h : o.Grows n o₁) (hle : n ≤ m) : o.Grows m o₁ := fun hm => by
  obtain ⟨hm₁, h₁⟩ := h hm
  exact ⟨hm₁, by omega⟩

/-- What is counted as pending is at least what has not been consumed. -/
lemma Measured.unsent_le (h : o.Measured) : o.unsent ≤ o.pendingOutput := by
  have hle := unconsumed_le h.fits
  unfold unsent pendingOutput
  rw [h.buffered]
  cases hb : o.outBuf with
  | none => simpa [filling, hb] using hle
  | some b => simpa [filling, hb, Buf.pending] using hle

/-- Behind the check of the output, less than `drizzle_max_buffered` bytes wait. -/
lemma Measured.unsent_lt {loc : LocConf} (h : o.Measured) (hready : o.ready loc) :
    o.unsent < loc.maxBuffered := by
  have hle := h.unsent_le
  simp only [ready, Bool.and_eq_true, decide_eq_true_eq] at hready
  omega

lemma queueBuf_grows (link : Bool) (o : Out) : o.Grows 0 (o.queueBuf link).2 := by
  intro hm
  unfold queueBuf
  split
  · exact ⟨hm, Nat.le_refl _⟩
  · next b hb =>
    split
    · exact ⟨hm, Nat.le_refl _⟩
    · split
      · exact ⟨hm, Nat.le_refl _⟩
      · obtain ⟨hfits, _, _⟩ := hm.room b hb
        have htake : o.outBufs.take o.lastOut = o.outBufs := by rw [hm.lastOut, List.take_length]
        have hbuf := hm.buffered
        refine ⟨⟨?_, ?_, nofun, ?_, hm.opened⟩, ?_⟩
        · simp only [htake, capacities_append, capacities_cons, capacities_nil] at hbuf ⊢
          omega
        · intro c hc
          rw [htake, ← List.append_assoc] at hc
          rcases List.mem_append.mp hc with hold | hnew
          · exact hm.fits c hold
          · exact List.mem_singleton.mp hnew ▸ hfits
        · simp [hm.lastOut]
        · simp only [unsent, htake, filling, hb, unconsumed_append, unconsumed_cons, unconsumed_nil,
            Option.elim, List.length_nil]
          omega

lemma sendHeader_grows (env : FlushEnv) (loc : LocConf) (o : Out) :
    o.Grows 0 (o.sendHeader env loc).2 := by
  intro hm
  have hopened : (o.sendHeader env loc).2.headerSent = false → o.headerSent = false := by
    unfold sendHeader
    split
    · exact id
    · split
      · exact id
      · split
        · exact id
        · nofun
  rw [sendHeader_stream] at hopened ⊢
  exact ⟨⟨hm.buffered, hm.fits, hm.room, hm.lastOut, fun h => hm.opened (hopened h)⟩, Nat.le_refl _⟩

lemma callFilter_grows (f : FilterAns) (o : Out) (hsent : o.headerSent) :
    o.Grows 0 (o.callFilter f) := by
  intro hm
  obtain ⟨hfits, hcap, hlen, hun⟩ := consume_spec f.consumed hm.fits
  have hsplit : (o.callFilter f).busyBufs ++ (o.callFilter f).outBufs =
      consume f.consumed (o.busyBufs ++ o.outBufs) := List.take_append_drop ..
  refine ⟨⟨?_, ?_, hm.room, ?_,
    fun h => absurd hsent (by rw [show o.headerSent = _ from h]; simp)⟩, ?_⟩
  · rw [hsplit, hcap]
    exact hm.buffered
  · rw [hsplit]
    exact hfits
  · simp [callFilter, hlen, hm.lastOut]
  · unfold unsent
    rw [hsplit, hun]
    exact Nat.add_le_add_right (Nat.sub_le _ _) _

lemma recycle_grows (f : FilterAns) (o : Out) (hsent : o.headerSent) :
    o.Grows 0 (o.recycle f) := by
  intro hm
  obtain ⟨hfits, hun⟩ := updateChains_spec o.freeBufs (o.busyBufs ++ o.outBufs) hm.fits
  refine ⟨⟨by simp [recycle, capacities], by simpa [recycle] using hfits, hm.room, rfl,
    fun h => absurd hsent (by rw [show o.headerSent = _ from h]; simp)⟩, ?_⟩
  simp only [unsent, recycle, List.append_nil, hun]
  exact Nat.le_refl _

lemma flush_grows (f : FilterAns) (o : Out) (hsent : o.headerSent) : o.Grows 0 (o.flush f).2 := by
  have hcall := callFilter_grows f o hsent
  unfold flush
  split
  · exact hcall
  · exact hcall.trans (recycle_grows f _ hsent)

lemma outputBufs_grows (env : FlushEnv) (loc : LocConf) (o : Out) :
    o.Grows 0 (o.outputBufs env loc).2 := by
  obtain ⟨q, hq⟩ : ∃ q, q = if o.seenStreamEnd then
    { o with seenStreamEnd := false }.queueBuf env.link else (.ok, o) := ⟨_, rfl⟩
  have hqueue : o.Grows 0 q.2 := by
    rw [hq]
    split
    · intro hm
      exact queueBuf_grows env.link _ ⟨hm.buffered, hm.fits, hm.room, hm.lastOut, hm.opened⟩
    · exact .refl o
  have hheader := hqueue.trans (sendHeader_grows env loc q.2)
  unfold outputBufs
  simp only [← hq]
  split
  · exact hqueue
  · split
    · exact hheader
    · split
      · exact hheader
      · next hsent => exact hheader.trans (flush_grows env.filter _ (by simpa using hsent))

/-- There is no data in a buffer for the next piece, and it is large enough. -/
lemma newBuf_room (mem : Bool) (size : ℕ) (o : Out) : ∀ b, (o.newBuf mem size).1 = some b →
    b.data = [] ∧ b.pos = 0 ∧ size ≤ b.capacity := by
  unfold newBuf
  split
  · split
    · split
      · rintro _ ⟨⟩
        exact ⟨rfl, rfl, Nat.le_refl _⟩
      · nofun
    · next hlt =>
      rintro _ ⟨⟩
      exact ⟨rfl, rfl, Nat.not_lt.mp hlt⟩
  · split
    · rintro _ ⟨⟩
      exact ⟨rfl, rfl, Nat.le_refl _⟩
    · nofun

/-- The memory for the next piece is behind the data of the buffer that is being filled. -/
lemma requestMem_grows (env : EmitEnv) (loc : LocConf) (len : ℕ) (o : Out) :
    o.Grows 0 (o.requestMem env loc len).2 ∧ ((o.requestMem env loc len).1 →
      (len : ℤ) ≤ (o.requestMem env loc len).2.availOut) := by
  have hqueue := queueBuf_grows env.link o
  have hout := hqueue.trans (outputBufs_grows env.flush loc (o.queueBuf env.link).2)
  unfold requestMem
  split
  · next h => exact ⟨.refl o, fun _ => h.2⟩
  · simp only
    split
    · exact ⟨hqueue, nofun⟩
    · next hq =>
      split
      · exact ⟨hout, nofun⟩
      · next hok =>
        -- the buffer that is replaced is empty
        have hfill := Out.queueBuf_filling (not_not.mp hq)
        have hempty : ((o.queueBuf env.link).2.outputBufs env.flush loc).2.filling = [] := by
          rcases outputBufs_cases env.flush loc (o.queueBuf env.link).2 with
            ⟨_, _, _, h, _⟩ | ⟨hfailed, _⟩
          · exact h hfill
          · rw [not_not.mp hok] at hfailed
            cases hfailed
        generalize ((o.queueBuf env.link).2.outputBufs env.flush loc).2 = o₂ at hout hempty ⊢
        have hroom := newBuf_room env.mem (max len loc.bufSize) o₂
        obtain ⟨heq, _⟩ := newBuf_cases env.mem (max len loc.bufSize) o₂
        split
        · next o₃ hnew =>
          rw [hnew] at heq
          refine ⟨fun hm => ?_, nofun⟩
          obtain ⟨hm₂, hle⟩ := hout hm
          rw [heq]
          exact ⟨⟨hm₂.buffered, hm₂.fits, hm₂.room, hm₂.lastOut, hm₂.opened⟩, hle⟩
        · next b o₃ hnew =>
          rw [hnew] at heq hroom
          obtain ⟨hdata, hpos, hsize⟩ := hroom b rfl
          refine ⟨fun hm => ?_, fun _ => ?_⟩
          · obtain ⟨hm₂, hle⟩ := hout hm
            have hm₃ : o₃.Measured := by
              rw [show o₃ = _ from heq]
              exact ⟨hm₂.buffered, hm₂.fits, hm₂.room, hm₂.lastOut, hm₂.opened⟩
            have hbusy : o₃.busyBufs = o₂.busyBufs := (congrArg Out.busyBufs heq :)
            have hbufs : o₃.outBufs = o₂.outBufs := (congrArg Out.outBufs heq :)
            refine ⟨⟨hm₃.buffered, hm₃.fits, ?_, hm₃.lastOut, hm₃.opened⟩, ?_⟩
            · rintro _ ⟨⟩
              exact ⟨⟨by simp [hpos], by simp [hdata]⟩, hpos, by simp [hdata]⟩
            · have hun : ∀ av, ({ o₃ with outBuf := some b, availOut := av } : Out).unsent =
                  unconsumed (o₂.busyBufs ++ o₂.outBufs) := by
                simp [unsent, filling, hbusy, hbufs, Buf.pending, hdata]
              rw [unsent, hempty] at hle
              rw [hun]
              simpa using hle
          · have : len ≤ max len loc.bufSize := Nat.le_max_left ..
            simp only
            omega

/-- A piece is added to the stream, as a whole or not at all. -/
theorem emit_grows (env : EmitEnv) (loc : LocConf) (size : ℕ) (bytes : Bytes) (last : Bool)
    (o : Out) : o.Grows bytes.length (o.emit env loc size bytes last).2 := by
  obtain ⟨hmem, havail⟩ := requestMem_grows env loc size o
  unfold emit
  simp only
  generalize o.requestMem env loc size = q at hmem havail ⊢
  split
  · exact hmem.mono (Nat.zero_le _)
  · next hq =>
    split
    · exact hmem.mono (Nat.zero_le _)
    · next hsize =>
      obtain ⟨o₁, ho₁⟩ : ∃ o₁, o₁ = if last then { q.2 with seenStreamEnd := true } else q.2 :=
        ⟨_, rfl⟩
      have hout : o₁.outBuf = q.2.outBuf ∧ o₁.availOut = q.2.availOut := by
        rw [ho₁]
        split <;> exact ⟨rfl, rfl⟩
      have hlast : o.Grows 0 o₁ := by
        rw [ho₁]
        split
        · intro hm
          obtain ⟨hm, hle⟩ := hmem hm
          exact ⟨⟨hm.buffered, hm.fits, hm.room, hm.lastOut, hm.opened⟩, hle⟩
        · exact hmem
      have hlen : (bytes.length : ℤ) ≤ o₁.availOut := by
        rw [hout.2, not_not.mp hsize]
        exact havail (by simpa using hq)
      rw [← ho₁]
      have hsubmit : o₁.Grows bytes.length (o₁.submitMem env.submit bytes).2 := by
        unfold submitMem
        split
        · exact (Grows.refl o₁).mono (Nat.zero_le _)
        · next b hb =>
          have hadd : o₁.Grows bytes.length { o₁ with
              outBuf := some { b with data := b.data ++ bytes }
              availOut := o₁.availOut - bytes.length } := by
            intro hm
            obtain ⟨hfits, hpos, hroom⟩ := hm.room b hb
            refine ⟨⟨hm.buffered, hm.fits, ?_, hm.lastOut, hm.opened⟩, ?_⟩
            · rintro _ ⟨⟩
              refine ⟨⟨?_, ?_⟩, hpos, ?_⟩
              · simp [hpos]
              · simp only [List.length_append]
                omega
              · simp only [List.length_append]
                omega
            · simp [unsent, filling, hb, Buf.pending, hpos]
              omega
          simp only
          split
          · exact hadd.trans (queueBuf_grows env.submit _)
          · exact hadd
      exact (hlast.trans hsubmit).mono (by omega)

end Out

/-! ## The last piece -/

/-- The piece of the stream that was emitted last; nothing before the first one. -/
def lastAtom (e : Rds.Endian) (calls : List LibCall) : Bytes :=
  (((answers calls).map (Rds.answerBytes e)).filter (· ≠ [])).getLastD []

variable {e : Rds.Endian} {calls calls' : List LibCall} {call : LibCall} {o o' : Out}
  {loc : LocConf}

lemma lastAtom_of_answers (h : answers calls' = answers calls) :
    lastAtom e calls' = lastAtom e calls := by
  rw [lastAtom, h, lastAtom]

lemma lastAtom_cons {a : Answer} (ha : call.answer = some a) : lastAtom e (call :: calls) =
    if Rds.answerBytes e a = [] then lastAtom e calls else Rds.answerBytes e a := by
  unfold lastAtom
  rw [answers_cons, ha, List.map_append, List.filter_append]
  split
  · next hnil => simp [hnil]
  · next hne => simp [hne]

/-- What a step does to the output and to the calls: bytes are moved, or a piece that the library
has delivered is added, when the output was ready for it or when it is the first one. -/
inductive Sends (e : Rds.Endian) (loc : LocConf) (o : Out) (calls : List LibCall) :
    Out → List LibCall → Prop
  | moved {o' : Out} {calls' : List LibCall} (h : o.Grows 0 o')
      (hcalls : answers calls' = answers calls) : Sends e loc o calls o' calls'
  | piece {o₁ o' : Out} {call : LibCall} {a : Answer} (h : o.Grows 0 o₁)
      (hready : o₁.ready loc ∨ answers calls = []) (ha : call.answer = some a)
      (h' : o₁.Grows (Rds.answerBytes e a).length o') : Sends e loc o calls o' (call :: calls)

/-- The counters are right, and less than `drizzle_max_buffered` bytes and the last piece wait. -/
structure Bounded (e : Rds.Endian) (loc : LocConf) (o : Out) (calls : List LibCall) : Prop where
  measured : o.Measured
  lt : o.unsent < loc.maxBuffered + (lastAtom e calls).length

lemma Bounded.sends (h : Bounded e loc o calls) (hs : Sends e loc o calls o' calls') :
    Bounded e loc o' calls' := by
  cases hs with
  | moved hg hcalls =>
    obtain ⟨hm, hle⟩ := hg h.measured
    exact ⟨hm, by rw [lastAtom_of_answers hcalls]; exact Nat.lt_of_le_of_lt hle h.lt⟩
  | @piece o₁ _ call a hg hready ha hg' =>
    obtain ⟨hm₁, hle₁⟩ := hg h.measured
    obtain ⟨hm, hle⟩ := hg' hm₁
    have hlt : o₁.unsent < loc.maxBuffered := by
      rcases hready with hready | hnil
      · exact hm₁.unsent_lt hready
      · have hlt := h.lt
        rw [lastAtom, hnil] at hlt
        exact Nat.lt_of_le_of_lt hle₁ hlt
    refine ⟨hm, ?_⟩
    rw [lastAtom_cons ha]
    split
    · next hnil =>
      rw [hnil] at hle
      exact Nat.lt_of_le_of_lt hle (by simpa using Nat.lt_add_right _ hlt)
    · omega

/-! ## One step -/

/-- The positions at which a step may touch the output of a request, or ask for a piece of its
result. -/
def Pos.outputs : Pos → Bool
  | event (.clientWrite _) => true
  | sendQuery => true
  | recvCols => true
  | recvRows => true
  | recvFields => true
  | ret _ => true
  | done _ => true
  | _ => false

namespace St

variable {s s' : St} {p : Pos} {k : ℕ}

lemma outputReady_grows (env : ReadyEnv) : s.r.out.Grows 0 (s.outputReady env k).2.r.out ∧
    ((s.outputReady env k).1 = .ok → (s.outputReady env k).2.r.out.ready s.r.loc) := by
  have hqueue := Out.queueBuf_grows env.link s.r.out
  have hout := hqueue.trans (Out.outputBufs_grows env.flush s.r.loc (s.r.out.queueBuf env.link).2)
  unfold outputReady
  split
  · next hready => exact ⟨.refl _, fun _ => hready⟩
  · simp only
    split
    · exact ⟨hqueue, nofun⟩
    · split
      · exact ⟨hout, nofun⟩
      · split
        · next hready => exact ⟨hout, fun _ => hready⟩
        · -- reading is paused, or that fails
          unfold pause
          simp only
          split
          · rw [delEvents_out]
            exact ⟨hout, nofun⟩
          · refine ⟨?_, fun h => ?_⟩
            · have heq := (congrArg Req.out (delEvents_out (k := k)
                (s := s.setOut ((s.r.out.queueBuf env.link).2.outputBufs env.flush s.r.loc).2)
                env) :)
              unfold pauseReading
              simp only [log_r, modReq_r, Req.log, modConn_r]
              rw [heq]
              exact hout
            · dsimp only at h
              split at h <;> cases h

lemma drainOutput_grows (env : Env) (timedout : Bool) :
    s.r.out.Grows 0 (s.drainOutput env timedout).2.r.out := by
  have hdelay : s.r.out.Grows 0 (s.r.out.endDelay timedout) := by
    intro hm
    unfold Out.endDelay
    split
    · exact ⟨⟨hm.buffered, hm.fits, hm.room, hm.lastOut, hm.opened⟩, Nat.le_refl _⟩
    · exact ⟨hm, Nat.le_refl _⟩
  have hout := hdelay.trans (Out.outputBufs_grows env.flush s.r.loc (s.r.out.endDelay timedout))
  unfold drainOutput
  split
  · exact .refl _
  · simp only
    split
    · exact .refl _
    · split
      · exact hout
      · split
        · exact hout
        · unfold onConn
          split
          · unfold resume
            simp only
            split <;> exact hout
          · exact hout

lemma processed_grows (env : Env) (rc : Rc) : s.r.out.Grows 0 (s.processed env rc).2.r.out := by
  have hout := Out.outputBufs_grows env.flush s.r.loc s.r.out
  unfold processed
  split
  · exact .refl _
  · split
    · exact .refl _
    · split
      · simp only
        split <;> exact hout
      · exact .refl _

lemma done_grows (env : Env) (rc : Rc) : s.r.out.Grows 0 (s.done env rc).2.r.out := by
  have hout := Out.outputBufs_grows env.flush s.r.loc s.r.out
  unfold done
  simp only
  split
  · intro hm
    obtain ⟨hm, hle⟩ := hout hm
    exact ⟨⟨hm.buffered, hm.fits, hm.room, hm.lastOut, nofun⟩, hle⟩
  · exact hout

lemma sendQuery_sends (env : Env) (hnil : answers s.r.calls = []) :
    Sends s.w.conf.endian s.r.loc s.r.out s.r.calls (s.sendQuery env k k).2.r.out
      (s.sendQuery env k k).2.r.calls := by
  have hcalls := (sendQuery_flags (s := s) (k := k) env).1
  rw [hcalls]
  -- whatever is not the header of the result adds nothing
  have hmoved : (s.sendQuery env k k).2.r.out = s.r.out →
      (LibCall.query s.r.id s.r.sendsSetNames s.r.queryToSend env.query).answer = none →
      Sends s.w.conf.endian s.r.loc s.r.out s.r.calls (s.sendQuery env k k).2.r.out
        (.query s.r.id s.r.sendsSetNames s.r.queryToSend env.query :: s.r.calls) := by
    intro hout hnone
    rw [hout]
    exact .moved (.refl _) (by rw [answers_cons, hnone]; exact List.append_nil _)
  have hn : ((s.queried k env.query).modWrite k NgxEvent.delTimer).r.sendsSetNames =
      s.r.sendsSetNames := rfl
  cases hret : env.query with
  | ioWait =>
    rw [hret] at hmoved
    refine hmoved ?_ (by cases s.r.sendsSetNames <;> rfl)
    unfold sendQuery
    rw [hret]
    simp only
    split <;> rfl
  | fail err =>
    rw [hret] at hmoved
    refine hmoved ?_ (by cases s.r.sendsSetNames <;> rfl)
    unfold sendQuery
    rw [hret]
    simp only
    split
    · cases ‹QueryRet.fail err = .ioWait›
    · split <;> rfl
    · rfl
    · cases ‹QueryRet.fail err = .ok _›
  | ok h =>
    rw [hret] at hmoved hn
    cases hs : s.r.sendsSetNames with
    | true =>
      rw [hs] at hmoved
      refine hmoved ?_ rfl
      unfold sendQuery queryOk
      rw [hret]
      dsimp only
      rw [hn, if_pos hs]
      split <;> rfl
    | false =>
      refine .piece (.refl _) (.inr hnil) (a := .header h) rfl ?_
      have hout : (s.sendQuery env k k).2.r.out =
          (s.r.out.outputResultHeader env.emit s.w.conf.endian s.r.loc h).2 := by
        unfold sendQuery queryOk
        rw [hret]
        dsimp only
        rw [hn, if_neg (by simp [hs])]
        split <;> rfl
      rw [hout]
      exact Out.emit_grows env.emit s.r.loc _ (Rds.resultHeaderBytes s.w.conf.endian h) _ s.r.out

/-- What is known behind the check of the output. -/
structure Checked (s : St) (rc : Rc) (s₁ : St) : Prop where
  grows : s.r.out.Grows 0 s₁.r.out
  ready : rc = .ok → s₁.r.out.ready s.r.loc
  calls : s₁.r.calls = s.r.calls
  conf : s₁.w.conf = s.w.conf
  loc : s₁.r.loc = s.r.loc

lemma outputReady_checked (env : ReadyEnv) (hk : s.r.connection = some k) {rc : Rc} {s₁ : St}
    (h : s.outputReady env k = (rc, s₁)) : Checked s rc s₁ := by
  obtain ⟨hgrows, hready⟩ := outputReady_grows (s := s) (k := k) env
  have hq := quiet_outputReady env hk
  rw [h] at hgrows hready hq
  exact ⟨hgrows, hready, hq.calls, hq.conf, (congrArg Req.loc hq.req :)⟩

lemma enter_checked {state : DbState} {timeout : Msec} (env : ReadyEnv)
    (hk : s.r.connection = some k) {rc : Rc} {s₁ : St}
    (h : (s.enter state timeout k).outputReady env k = (rc, s₁)) : Checked s rc s₁ := by
  have hstays := stays_enter (s := s) state timeout hk
  have hout : (s.enter state timeout k).r.out = s.r.out ∧
      (s.enter state timeout k).r.calls = s.r.calls := by
    unfold enter
    split <;> exact ⟨rfl, rfl⟩
  have hloc : (s.enter state timeout k).r.loc = s.r.loc := (congrArg Req.loc hstays.req :)
  have hc := outputReady_checked env (hstays.connection.trans hk) h
  exact ⟨hout.1 ▸ hc.grows, fun hrc => hloc ▸ hc.ready hrc, hc.calls.trans hout.2,
    hc.conf.trans hstays.conf, hc.loc.trans hloc⟩

lemma Checked.stop {rc : Rc} {s₁ : St} (h : Checked s rc s₁) :
    Sends s.w.conf.endian s.r.loc s.r.out s.r.calls s₁.r.out s₁.r.calls :=
  .moved h.grows (by rw [h.calls])

/-- A call that delivers nothing. -/
lemma Checked.wait {rc : Rc} {s₁ s' : St} {call : LibCall} (h : Checked s rc s₁)
    (hout : s'.r.out = s₁.r.out) (hcalls : s'.r.calls = call :: s₁.r.calls)
    (hnone : call.answer = none) :
    Sends s.w.conf.endian s.r.loc s.r.out s.r.calls s'.r.out s'.r.calls := by
  rw [hout, hcalls, h.calls]
  exact .moved h.grows (by rw [answers_cons, hnone]; exact List.append_nil _)

/-- A call that delivers a piece. -/
lemma Checked.piece {s₁ s' : St} {call : LibCall} {a : Answer} (h : Checked s .ok s₁)
    (hcalls : s'.r.calls = call :: s₁.r.calls) (ha : call.answer = some a)
    (hg : s₁.r.out.Grows (Rds.answerBytes s.w.conf.endian a).length s'.r.out) :
    Sends s.w.conf.endian s.r.loc s.r.out s.r.calls s'.r.out s'.r.calls := by
  rw [hcalls, h.calls]
  exact .piece h.grows (.inl (h.ready rfl)) ha hg

lemma recvCols_sends (env : Env) (hk : s.r.connection = some k) :
    Sends s.w.conf.endian s.r.loc s.r.out s.r.calls (s.recvCols env k k).2.r.out
      (s.recvCols env k k).2.r.calls := by
  obtain ⟨rc, s₁, h⟩ : ∃ rc s₁, (s.enter .recvCols s.r.loc.recvColsTimeout k).outputReady
    env.ready k = (rc, s₁) := ⟨_, _, rfl⟩
  have hc := enter_checked env.ready hk h
  unfold recvCols
  simp only [h]
  split
  · exact hc.stop
  · next hrc =>
    obtain rfl := not_not.mp hrc
    split
    · next hret => exact hc.wait rfl (Req.log_calls ..) (by rw [hret]; rfl)
    · next hret => exact hc.wait rfl (Req.log_calls ..) (by rw [hret]; rfl)
    · next col hret =>
      refine hc.piece (Req.log_calls ..) (a := .column (some col)) (by rw [hret]; rfl) ?_
      have hg := Out.emit_grows env.emit s₁.r.loc (2 + 2 + 2 + col.name.length % 2 ^ 16)
        (Rds.colBytes s₁.w.conf.endian col) false s₁.r.out
      rw [← hc.conf]
      exact hg
    · next hret =>
      exact hc.piece (Req.log_calls ..) (a := .column none) (by rw [hret]; rfl) (.refl _)

lemma recvRows_sends (env : Env) (hk : s.r.connection = some k) :
    Sends s.w.conf.endian s.r.loc s.r.out s.r.calls (s.recvRows env k k).2.r.out
      (s.recvRows env k k).2.r.calls := by
  obtain ⟨rc, s₁, h⟩ : ∃ rc s₁, (s.enter .recvRows s.r.loc.recvRowsTimeout k).outputReady
    env.ready k = (rc, s₁) := ⟨_, _, rfl⟩
  have hc := enter_checked env.ready hk h
  unfold recvRows
  simp only [h]
  split
  · exact hc.stop
  · next hrc =>
    obtain rfl := not_not.mp hrc
    split
    · exact hc.stop
    · split
      · next hret => exact hc.wait rfl (Req.log_calls ..) (by rw [hret]; rfl)
      · next hret => exact hc.wait rfl (Req.log_calls ..) (by rw [hret]; rfl)
      · next row hret =>
        have hg := Out.emit_grows env.emit s₁.r.loc 1 (Rds.rowBytes row) (row = 0) s₁.r.out
        have hrow : ∀ s₂ : St, s₂.r.out = s₁.r.out → s₂.r.loc = s₁.r.loc →
            (s₂.rowOk env k row).2.r.out =
              (s₁.r.out.emit env.emit s₁.r.loc 1 (Rds.rowBytes row) (row = 0)).2 ∧
            (s₂.rowOk env k row).2.r.calls = s₂.r.calls := by
          intro s₂ hout hloc
          unfold rowOk Out.outputRow
          rw [hout, hloc]
          dsimp only
          split
          · exact ⟨rfl, rfl⟩
          · split
            · exact ⟨rfl, rfl⟩
            · split <;> exact ⟨rfl, rfl⟩
        obtain ⟨hout, hcalls⟩ := hrow (s₁.libCall k (.rowRead s₁.r.id env.row)) rfl rfl
        refine hc.piece (hcalls.trans (Req.log_calls ..)) (a := .row row) (by rw [hret]; rfl) ?_
        rw [hout]
        exact hg

lemma recvFields_sends (env : Env) (hk : s.r.connection = some k) :
    Sends s.w.conf.endian s.r.loc s.r.out s.r.calls (s.recvFields env k k).2.r.out
      (s.recvFields env k k).2.r.calls := by
  obtain ⟨rc, s₁, h⟩ : ∃ rc s₁, s.outputReady env.ready k = (rc, s₁) := ⟨_, _, rfl⟩
  have hc := outputReady_checked env.ready hk h
  unfold recvFields
  simp only [h]
  split
  · exact hc.stop
  · next hrc =>
    obtain rfl := not_not.mp hrc
    split
    · next hret => exact hc.wait rfl (Req.log_calls ..) (by rw [hret]; rfl)
    · next hret => exact hc.piece (Req.log_calls ..) (a := .rowEnd) (by rw [hret]; rfl) (.refl _)
    · next hret => exact hc.wait rfl (Req.log_calls ..) (by rw [hret]; rfl)
    · next chunk hret =>
      refine hc.piece (Req.log_calls ..) (a := .field chunk) (by rw [hret]; rfl) ?_
      have hg := Out.emit_grows env.emit s₁.r.loc (Rds.fieldSize chunk)
        (Rds.fieldBytes s₁.w.conf.endian chunk) false s₁.r.out
      simp only [Rds.answerBytes, Out.outputField, ← hc.conf]
      split
      · exact .refl _
      · exact hg

/-- At the other positions a request leaves its output alone, and asks for no piece of its result.
-/
lemma exec_out (env : Env) (hc : Custody p s) (hp : p.outputs = false) :
    (s.exec env p).2.r.out = s.r.out ∧ (s.exec env p).2.r.calls = s.r.calls := by
  cases hstays : p.stays with
  | false =>
    exact ⟨(congrArg Req.out (exec_kept env hc hstays) :), exec_calls env hc hstays⟩
  | true =>
    cases p with
    | loop => exact ⟨rfl, rfl⟩
    | crashed => exact ⟨rfl, rfl⟩
    | event ev =>
      obtain ⟨k, hk⟩ := connection_of_event hc
      simp only [exec, handleEvent]
      split
      · unfold dbHandler
        simp only [modReq_r, hk]
        split
        · exact ⟨rfl, rfl⟩
        · split <;> exact ⟨rfl, rfl⟩
      · cases hp
      · unfold checkBrokenConnection
        split <;> exact ⟨rfl, rfl⟩
      · exact ⟨rfl, rfl⟩
    | dbdConnected rc =>
      simp only [exec, dbdConnected]
      split
      · exact ⟨rfl, rfl⟩
      · exact ⟨rfl, rfl⟩
      · exact ⟨rfl, rfl⟩
      · split
        · exact ⟨rfl, rfl⟩
        · unfold attach
          simp only
          split
          · exact ⟨rfl, rfl⟩
          · split
            · exact ⟨rfl, rfl⟩
            · split <;> exact ⟨rfl, rfl⟩
    | processEvents =>
      simp only [exec, processEvents]
      split
      · exact ⟨rfl, rfl⟩
      · split <;> exact ⟨rfl, rfl⟩
    | connect =>
      obtain ⟨_, k, hk⟩ := hc.ok
      rw [exec, onConn_of hk.connection hk.drizzleCon]
      unfold connect
      simp only
      split <;> exact ⟨rfl, rfl⟩
    | handlerTail => cases hstays
    | dbdConnect => cases hstays
    | next => cases hstays
    | finalize => cases hstays
    | _ => cases hp

/-- Every step adds at most the piece that the library delivers in it. -/
theorem exec_sends (env : Env) (hc : Custody p s) {t : Talk} (hs : Session p s.r t) :
    Sends s.w.conf.endian s.r.loc s.r.out s.r.calls (s.exec env p).2.r.out
      (s.exec env p).2.r.calls := by
  have hmoved : ∀ {s' : St}, s.r.out.Grows 0 s'.r.out → s'.r.calls = s.r.calls →
      Sends s.w.conf.endian s.r.loc s.r.out s.r.calls s'.r.out s'.r.calls :=
    fun h hcalls => .moved h (by rw [hcalls])
  cases hp : p.outputs with
  | false =>
    obtain ⟨hout, hcalls⟩ := exec_out env hc hp
    exact hmoved (hout ▸ .refl _) hcalls
  | true =>
    cases p with
    | event ev =>
      cases ev with
      | clientWrite timedout =>
        simp only [exec, handleEvent]
        split
        · next hdrain =>
          obtain ⟨k, hk⟩ := holds_of_event hc (hc.ordered.drains hdrain)
          exact hmoved (drainOutput_grows env timedout)
            (quiet_drainOutput env timedout hk.connection hk.drizzleCon).calls
        · exact hmoved (.refl _) rfl
        · exact hmoved (.refl _) rfl
      | _ => cases hp
    | sendQuery =>
      obtain ⟨hlive, k, hk⟩ := hc.ok
      rw [exec, onConn_of hk.connection hk.drizzleCon]
      refine sendQuery_sends env ?_
      have hshape := Talk.shape_after hs.talk
      rcases hs.fits hlive with rfl | rfl <;> exact hshape
    | recvCols =>
      obtain ⟨_, k, hk⟩ := hc.ok
      rw [exec, onConn_of hk.connection hk.drizzleCon]
      exact recvCols_sends env hk.connection
    | recvRows =>
      obtain ⟨_, k, hk⟩ := hc.ok
      rw [exec, onConn_of hk.connection hk.drizzleCon]
      exact recvRows_sends env hk.connection
    | recvFields =>
      obtain ⟨_, k, hk⟩ := hc.ok
      rw [exec, onConn_of hk.connection hk.drizzleCon]
      exact recvFields_sends env hk.connection
    | ret rc =>
      have hcalls : (s.processed env rc).2.r.calls = s.r.calls := by
        have h := processed_cases (s := s) env rc
        generalize s.processed env rc = ps at h
        obtain ⟨p', s'⟩ := ps
        cases h <;> rfl
      exact hmoved (processed_grows env rc) hcalls
    | done rc =>
      obtain ⟨_, _, _, heq, _⟩ := done_cases (s := s) env rc
      refine hmoved (done_grows env rc) ?_
      rw [exec, heq]
      rfl
    | _ => cases hp

end St

/-! ## Runs -/

/-- How much output waits for the client, as a claim about requests. -/
def Local.pending : Local where
  req conf _ r _ := Bounded conf.endian r.loc r.out r.calls
  item _ _ _ := True

lemma Local.pending_kept : Local.pending.Kept fun _ p s => Known p s where
  init w id a _ _ := by
    refine ⟨⟨rfl, nofun, nofun, rfl, fun _ => ⟨rfl, rfl⟩⟩, ?_⟩
    exact Nat.lt_of_lt_of_le a.loc.bufSize_pos
      (Nat.le_trans a.loc.bufSize_le (Nat.le_add_right _ _))
  fire ev s _ _ h := by
    obtain ⟨⟨cw, hr⟩, _⟩ := St.fire_cases ev s
    rw [hr]
    exact ⟨h.measured, h.lt⟩
  client _ _ _ _ _ h := by
    have hm := h.measured
    exact ⟨⟨hm.buffered, hm.fits, hm.room, hm.lastOut, hm.opened⟩, h.lt⟩
  exec env p s hc hd h _ := by
    obtain ⟨t, hs⟩ := hd.session
    have hloc : (s.exec env p).2.r.loc = s.r.loc := (congrArg Req.loc (St.exec_given env hc) :)
    have hb := h.sends (St.exec_sends env hc hs)
    exact ⟨hb.measured, hloc.symm ▸ hb.lt⟩
  saved _ _ _ _ _ _ _ _ _ _ := trivial

namespace Sys

/-- **Bounded output.**  In all states of all runs, the bytes of the stream of a request that have
been produced and not been consumed by the output filter, in the buffer that is being filled, in
the queue and in the busy chain, are less than `drizzle_max_buffered` and the piece of the stream
that was emitted last. -/
theorem output_bounded (conf : Conf) (ls : List Label) : ∀ r ∈ (run conf ls).reqs,
    r.out.unsent < r.loc.maxBuffered + (lastAtom conf.endian r.calls).length := by
  intro r hr
  obtain ⟨i, hi⟩ := List.mem_iff_getElem?.mp hr
  have h := Local.pending_kept.run conf (known_meets conf ls)
  have hb := h.req i r hi
  rw [conf_run] at hb
  exact hb.lt

/-- A response waits for the client, which then takes more. -/
def pausedResponse : List Label :=
  sampleArrival (.small [7] 0) ++
    [.run { query := .ok (.sample 1) }, .run {}, .run {}, .run {}, .event 0 (.clientWrite false)]

theorem output_bounded_pausedResponse :
    ∃ r ∈ (run (.sample (.sample [1] []) []) pausedResponse).reqs,
      r.out.unsent = 30 ∧ r.out.unsent < r.loc.maxBuffered + (lastAtom .little r.calls).length := by
  have hmem := List.get_mem (run (.sample (.sample [1] []) []) pausedResponse).reqs ⟨0, by decide⟩
  have hlt := output_bounded (.sample (.sample [1] []) []) pausedResponse _ hmem
  exact ⟨_, hmem, by decide, hlt⟩

end Sys
end DrizzleNginx
