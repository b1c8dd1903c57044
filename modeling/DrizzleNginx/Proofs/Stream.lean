/-
# The output side keeps the stream together

The bytes of the stream are in three places: in the chains that have been handed to the
output filter, in the chain of full buffers, and in the buffer that is being filled.  The
functions of the output side move bytes from the right to the left and add new ones at the
right end.  When one of them fails, the bytes handed to the filter are still a beginning of
the stream.
-/
import DrizzleNginx.Model.Output

namespace DrizzleNginx
namespace Out

/-- The bytes handed to the output filter. -/
def handed (o : Out) : Bytes := o.sent.flatten.flatten

/-- The bytes in the buffer that is being filled. -/
def filling (o : Out) : Bytes := o.outBuf.elim [] Buf.pending

/-- The bytes that wait in buffers. -/
def held (o : Out) : Bytes := (o.outBufs.map Buf.pending).flatten ++ o.filling

/-- All bytes of the stream so far. -/
def stream (o : Out) : Bytes := o.handed ++ o.held

/-- `last_out` points to the end of the chain, and nothing of the buffer that is being filled
has been consumed. -/
structure Sound (o : Out) : Prop where
  lastOut : o.lastOut = o.outBufs.length
  pos : ∀ b, o.outBuf = some b → b.pos = 0

/-- The stream has grown by some bytes. -/
def Adds (o : Out) (bytes : Bytes) (o' : Out) : Prop :=
  o.Sound → o'.Sound ∧ o'.stream = o.stream ++ bytes

/-- All bytes have been handed to the output filter. -/
structure Flushed (o : Out) : Prop where
  outBufs : o.outBufs = []
  filling : o.filling = []

/-- The output has failed; what has been handed to the filter is a beginning of the stream. -/
def Breaks (o o' : Out) : Prop := o.Sound → o'.handed <+: o.stream

variable {o o₁ o₂ : Out} {bytes : Bytes}

lemma Adds.refl (o : Out) : o.Adds [] o := fun h => ⟨h, by simp⟩

lemma Adds.trans {b c : Bytes} (h : o.Adds b o₁) (h' : o₁.Adds c o₂) :
    o.Adds (b ++ c) o₂ := fun hs => by
  obtain ⟨hs₁, heq₁⟩ := h hs
  obtain ⟨hs₂, heq₂⟩ := h' hs₁
  exact ⟨hs₂, by rw [heq₂, heq₁, List.append_assoc]⟩

lemma Adds.breaks (h : o.Adds [] o₁) (h' : o₁.Breaks o₂) : o.Breaks o₂ := fun hs => by
  obtain ⟨hs₁, heq⟩ := h hs
  rw [List.append_nil] at heq
  exact heq ▸ h' hs₁

lemma Breaks.refl (o : Out) : o.Breaks o := fun _ => List.prefix_append _ _

/-! ## Full buffers -/

lemma queueBuf_adds {link : Bool} (h : (o.queueBuf link).1 = .ok) :
    o.Adds [] (o.queueBuf link).2 := by
  intro hs
  unfold queueBuf at h ⊢
  split
  · exact ⟨hs, by simp⟩
  · next b hb =>
    split
    · exact ⟨hs, by simp⟩
    · next hne =>
      split
      · next hlink =>
        rw [hb] at h
        simp [hne, hlink] at h
      · have hs' : o.outBufs.take o.lastOut = o.outBufs := by
          rw [hs.lastOut]
          exact List.take_length
        refine ⟨⟨?_, by simp⟩, ?_⟩
        · simp [hs.lastOut]
        · simp [stream, handed, held, filling, hs', hb]

lemma queueBuf_fields (link : Bool) (o : Out) : (o.queueBuf link).2.sent = o.sent ∧
    (o.queueBuf link).2.seenStreamEnd = o.seenStreamEnd := by
  unfold queueBuf
  split
  · exact ⟨rfl, rfl⟩
  · split
    · exact ⟨rfl, rfl⟩
    · split <;> exact ⟨rfl, rfl⟩

lemma queueBuf_rc (link : Bool) (o : Out) :
    (o.queueBuf link).1 = .ok ∨ (o.queueBuf link).1 = .error := by
  unfold queueBuf
  split
  · exact .inl rfl
  · split
    · exact .inl rfl
    · split
      · exact .inr rfl
      · exact .inl rfl

lemma queueBuf_breaks (link : Bool) : o.Breaks (o.queueBuf link).2 := by
  intro _
  rw [handed, (queueBuf_fields link o).1]
  exact List.prefix_append _ _

/-- A queued buffer has left nothing behind. -/
lemma queueBuf_filling {link : Bool} (h : (o.queueBuf link).1 = .ok) :
    (o.queueBuf link).2.filling = [] := by
  unfold queueBuf at h ⊢
  split
  · next hb => simp [filling, hb]
  · next b hb =>
    split
    · next hempty => simp [filling, hb, Buf.pending, ← hempty]
    · next hne =>
      split
      · next hlink =>
        rw [hb] at h
        simp [hne, hlink] at h
      · rfl

/-! ## The filter -/

lemma sendHeader_stream (env : FlushEnv) (loc : LocConf) (o : Out) :
    (o.sendHeader env loc).2 = { o with
      headerSent := (o.sendHeader env loc).2.headerSent
      headerCalls := (o.sendHeader env loc).2.headerCalls } := by
  unfold sendHeader
  split
  · rfl
  · split
    · rfl
    · split <;> rfl

lemma sendHeader_adds (env : FlushEnv) (loc : LocConf) : o.Adds [] (o.sendHeader env loc).2 := by
  rw [sendHeader_stream]
  exact fun hs => ⟨⟨hs.lastOut, hs.pos⟩, (List.append_nil _).symm⟩

lemma sendHeader_failed {env : FlushEnv} {loc : LocConf} (h : (o.sendHeader env loc).1 ≠ .ok) :
    (o.sendHeader env loc).1.failed := by
  unfold sendHeader at h ⊢
  split
  · next hsent => simp [hsent] at h
  · next hsent =>
    rw [if_neg hsent] at h
    split
    · rfl
    · next hset =>
      rw [if_neg hset] at h
      split
      · next hfailed => exact hfailed
      · next hfailed => simp [hfailed] at h

/-- If there is something to send, the header has been sent afterwards. -/
lemma sendHeader_headerSent {env : FlushEnv} {loc : LocConf} (h : (o.sendHeader env loc).1 = .ok)
    (hne : o.outBufs ≠ []) : (o.sendHeader env loc).2.headerSent := by
  unfold sendHeader at h ⊢
  split
  · next hsent => simpa [hne] using hsent
  · next hsent =>
    rw [if_neg hsent] at h
    split
    · next hset => simp [hset] at h
    · next hset =>
      rw [if_neg hset] at h
      split
      · next hfailed =>
        rw [if_pos hfailed] at h
        simp only at h
        simp [h, Rc.failed] at hfailed
      · rfl

lemma flush_adds {f : FilterAns} (h : (o.flush f).1 = .ok) : o.Adds [] (o.flush f).2 := by
  intro hs
  unfold flush at h ⊢
  split
  · next hfailed =>
    rw [if_pos hfailed] at h
    simp only at h
    simp [h, Rc.failed] at hfailed
  · exact ⟨⟨rfl, hs.pos⟩, by simp [stream, handed, held, filling, recycle, callFilter]⟩

lemma flush_breaks (f : FilterAns) : o.Breaks (o.flush f).2 := by
  intro hs
  have h : (o.flush f).2.handed = o.handed ++ (o.outBufs.map Buf.pending).flatten := by
    unfold flush
    split <;> simp [handed, recycle, callFilter]
  rw [h, stream, held, ← List.append_assoc]
  exact List.prefix_append _ _

lemma flush_outBufs {f : FilterAns} (h : (o.flush f).1 = .ok) :
    (o.flush f).2.outBufs = [] ∧ (o.flush f).2.filling = o.filling := by
  unfold flush at h ⊢
  split
  · next hfailed =>
    rw [if_pos hfailed] at h
    simp only at h
    simp [h, Rc.failed] at hfailed
  · exact ⟨rfl, rfl⟩

/-- What `outputBufs` does: it keeps the stream, and at the end of the stream leaves nothing in
the buffers, or it fails. -/
theorem outputBufs_cases (env : FlushEnv) (loc : LocConf) (o : Out) :
    (o.outputBufs env loc).1 = .ok ∧ o.Adds [] (o.outputBufs env loc).2 ∧
      (o.seenStreamEnd → (o.outputBufs env loc).2.held = []) ∧
      (o.filling = [] → (o.outputBufs env loc).2.filling = []) ∧
      (o.outputBufs env loc).2.outBufs = [] ∨
    (o.outputBufs env loc).1.failed ∧ o.Breaks (o.outputBufs env loc).2 := by
  obtain ⟨q, hq⟩ : ∃ q, q = if o.seenStreamEnd then
    { o with seenStreamEnd := false }.queueBuf env.link else (.ok, o) := ⟨_, rfl⟩
  -- the last buffer is queued
  obtain ⟨hadds₁, hbreaks₁, hend⟩ : (q.1 = .ok → o.Adds [] q.2) ∧ o.Breaks q.2 ∧
      (q.1 = .ok → o.seenStreamEnd ∨ o.filling = [] → q.2.filling = []) := by
    cases hsee : o.seenStreamEnd with
    | true =>
      rw [hq, hsee, if_pos rfl]
      exact ⟨
        fun h hs => queueBuf_adds (o := { o with seenStreamEnd := false }) h
          ⟨hs.lastOut, hs.pos⟩,
        fun hs => queueBuf_breaks (o := { o with seenStreamEnd := false }) env.link
          ⟨hs.lastOut, hs.pos⟩,
        fun h _ => queueBuf_filling h⟩
    | false =>
      rw [hq, hsee]
      exact ⟨fun _ => .refl o, .refl o, fun _ h => h.resolve_left (by simp)⟩
  unfold outputBufs
  simp only [← hq]
  split
  · exact .inr ⟨rfl, hbreaks₁⟩
  · next hok =>
    have hadds₁ := hadds₁ (not_not.mp hok)
    have hend := hend (not_not.mp hok)
    have hadds₂ : o.Adds [] (q.2.sendHeader env loc).2 := hadds₁.trans (sendHeader_adds env loc)
    split
    · next hrc =>
      refine .inr ⟨sendHeader_failed hrc, hadds₂.breaks (.refl _)⟩
    · next hok₂ =>
      have hbuf : (q.2.sendHeader env loc).2.filling = q.2.filling := by
        rw [sendHeader_stream]
        rfl
      have hbufs : (q.2.sendHeader env loc).2.outBufs = q.2.outBufs := by rw [sendHeader_stream]
      split
      · next hsent =>
        -- the header has not been sent, so there is nothing to send
        have hnil : q.2.outBufs = [] := by
          by_contra hne
          rw [sendHeader_headerSent (not_not.mp hok₂) hne] at hsent
          simp at hsent
        refine .inl ⟨rfl, hadds₂, fun hsee => ?_, fun hf => hbuf.trans (hend (.inr hf)),
          hbufs.trans hnil⟩
        simp [held, hbuf, hbufs, hnil, hend (.inl hsee)]
      · cases hf : env.filter.rc.failed with
        | true =>
          have : ((q.2.sendHeader env loc).2.flush env.filter).1 = env.filter.rc := by
            simp [flush, hf]
          exact .inr ⟨this ▸ hf, hadds₂.breaks (flush_breaks _)⟩
        | false =>
          have hok₃ : ((q.2.sendHeader env loc).2.flush env.filter).1 = .ok := by
            simp [flush, hf]
          obtain ⟨h₁, h₂⟩ := flush_outBufs hok₃
          refine .inl ⟨hok₃, hadds₂.trans (flush_adds hok₃), fun hsee => ?_, fun hf => ?_, h₁⟩
          · simp [held, h₁, h₂, hbuf, hend (.inl hsee)]
          · rw [h₂, hbuf, hend (.inr hf)]

/-! ## Memory for the next piece -/

lemma newBuf_cases (mem : Bool) (size : ℕ) (o : Out) :
    (o.newBuf mem size).2 =
      { o with freeBufs := (o.newBuf mem size).2.freeBufs, nbufs := (o.newBuf mem size).2.nbufs } ∧
    ∀ b, (o.newBuf mem size).1 = some b → b.data = [] ∧ b.pos = 0 := by
  unfold newBuf
  split
  · split
    · split
      · exact ⟨rfl, by rintro _ ⟨⟩; exact ⟨rfl, rfl⟩⟩
      · exact ⟨rfl, by simp⟩
    · exact ⟨rfl, by rintro _ ⟨⟩; exact ⟨rfl, rfl⟩⟩
  · split
    · exact ⟨rfl, by rintro _ ⟨⟩; exact ⟨rfl, rfl⟩⟩
    · exact ⟨rfl, by simp⟩

/-- What `requestMem` does: the memory is behind the stream, or the output fails. -/
lemma requestMem_cases (env : EmitEnv) (loc : LocConf) (len : ℕ) (o : Out) :
    (o.requestMem env loc len).1 = true ∧ o.Adds [] (o.requestMem env loc len).2 ∨
    (o.requestMem env loc len).1 = false ∧ o.Breaks (o.requestMem env loc len).2 := by
  unfold requestMem
  split
  · exact .inl ⟨rfl, .refl o⟩
  · simp only
    split
    · exact .inr ⟨rfl, queueBuf_breaks env.link⟩
    · next hq =>
      have hq := not_not.mp hq
      rcases outputBufs_cases env.flush loc (o.queueBuf env.link).2 with
        ⟨hok, hadds, _, hfill, _⟩ | ⟨hfailed, hbreaks⟩
      · rw [if_neg (not_not.mpr hok)]
        have hadds₂ := (queueBuf_adds hq).trans hadds
        have hfill₂ := hfill (queueBuf_filling hq)
        generalize ((o.queueBuf env.link).2.outputBufs env.flush loc).2 = o₂ at hadds₂ hfill₂ ⊢
        obtain ⟨heq, hbuf⟩ := newBuf_cases env.mem (max len loc.bufSize) o₂
        -- the buffer that is replaced is empty, and so is the new one
        split
        · next o₃ hnew =>
          rw [hnew] at heq
          exact .inr ⟨rfl, hadds₂.breaks (heq ▸ fun _ => List.prefix_append _ _)⟩
        · next b o₃ hnew =>
          rw [hnew] at heq hbuf
          obtain ⟨hdata, hpos⟩ := hbuf b rfl
          have hsent : o₃.sent = o₂.sent := (congrArg Out.sent heq :)
          have hbufs : o₃.outBufs = o₂.outBufs := (congrArg Out.outBufs heq :)
          have hlast : o₃.lastOut = o₂.lastOut := (congrArg Out.lastOut heq :)
          refine .inl ⟨rfl, Adds.trans (b := []) (c := []) hadds₂ fun hs => ⟨⟨?_, ?_⟩, ?_⟩⟩
          · exact hlast.trans (hs.lastOut.trans (congrArg List.length hbufs).symm)
          · rintro _ ⟨⟩
            exact hpos
          · rw [filling] at hfill₂
            simp [stream, handed, held, filling, hfill₂, hsent, hbufs, Buf.pending, hdata]
      · have hne : ¬ ((o.queueBuf env.link).2.outputBufs env.flush loc).1 = .ok := by
          intro h
          simp [h, Rc.failed] at hfailed
        rw [if_pos hne]
        exact .inr ⟨rfl, (queueBuf_adds hq).breaks hbreaks⟩

/-! ## Emission -/

/-- What `submitMem` does. -/
lemma submitMem_cases (link : Bool) (bytes : Bytes) (o : Out) :
    (o.submitMem link bytes).1 = .ok ∧ o.Adds bytes (o.submitMem link bytes).2 ∧
      (o.submitMem link bytes).2.seenStreamEnd = o.seenStreamEnd ∨
    (o.submitMem link bytes).1 = .error ∧ o.Breaks (o.submitMem link bytes).2 := by
  unfold submitMem
  split
  · exact .inr ⟨rfl, .refl o⟩
  · next b hb =>
    obtain ⟨o₁, ho₁⟩ : ∃ o₁ : Out, o₁ = { o with
      outBuf := some { b with data := b.data ++ bytes }
      availOut := o.availOut - bytes.length } := ⟨_, rfl⟩
    have hadds : o.Adds bytes o₁ := by
      intro hs
      rw [ho₁]
      refine ⟨⟨hs.lastOut, ?_⟩, ?_⟩
      · rintro _ ⟨⟩
        exact hs.pos b hb
      · simp [stream, handed, held, filling, hb, Buf.pending, hs.pos b hb]
    have hsee : o₁.seenStreamEnd = o.seenStreamEnd := by rw [ho₁]
    have hsent : o₁.sent = o.sent := by rw [ho₁]
    simp only [← ho₁]
    split
    · obtain ⟨hsent', hsee'⟩ := queueBuf_fields link o₁
      rcases queueBuf_rc link o₁ with hok | herr
      · refine .inl ⟨hok, ?_, hsee'.trans hsee⟩
        have := hadds.trans (queueBuf_adds hok)
        rwa [List.append_nil] at this
      · refine .inr ⟨herr, fun _ => ?_⟩
        rw [handed, hsent', hsent]
        exact List.prefix_append _ _
    · exact .inl ⟨rfl, hadds, hsee⟩

/-- What the functions that emit a piece of the stream do: it is added as a whole, and the end
of the stream is noted, or the output fails. -/
theorem emit_cases (env : EmitEnv) (loc : LocConf) (size : ℕ) (bytes : Bytes) (last : Bool)
    (o : Out) :
    (o.emit env loc size bytes last).1 = .ok ∧ o.Adds bytes (o.emit env loc size bytes last).2 ∧
      (last → (o.emit env loc size bytes last).2.seenStreamEnd) ∨
    (o.emit env loc size bytes last).1 = .error ∧
      o.Breaks (o.emit env loc size bytes last).2 := by
  unfold emit
  simp only
  rcases requestMem_cases env loc size o with ⟨hmem, hadds⟩ | ⟨hmem, hbreaks⟩
  · rw [hmem]
    simp only [Bool.not_true, Bool.false_eq_true, if_false]
    split
    · exact .inr ⟨rfl, hadds.breaks (.refl _)⟩
    · obtain ⟨o₁, ho₁⟩ : ∃ o₁, o₁ = if last then
          { (o.requestMem env loc size).2 with seenStreamEnd := true }
          else (o.requestMem env loc size).2 := ⟨_, rfl⟩
      have hadds₁ : o.Adds [] o₁ := by
        intro hs
        obtain ⟨hs', heq⟩ := hadds hs
        rw [ho₁]
        split
        · exact ⟨⟨hs'.lastOut, hs'.pos⟩, heq⟩
        · exact ⟨hs', heq⟩
      rw [← ho₁]
      rcases submitMem_cases env.submit bytes o₁ with ⟨hok, hsub, hsee⟩ | ⟨herr, hbreaks⟩
      · refine .inl ⟨hok, hadds₁.trans hsub, fun hlast => ?_⟩
        rw [hsee, ho₁, if_pos hlast]
      · exact .inr ⟨herr, hadds₁.breaks hbreaks⟩
  · rw [hmem]
    exact .inr ⟨rfl, hbreaks⟩

variable (env : EmitEnv) (e : Rds.Endian) (loc : LocConf) (o : Out)

lemma outputResultHeader_cases (h : ResultHeader) :
    (o.outputResultHeader env e loc h).1.failed = false ∧
      o.Adds (Rds.answerBytes e (.header h)) (o.outputResultHeader env e loc h).2 ∧
      (h.columnCount = 0 → (o.outputResultHeader env e loc h).2.seenStreamEnd) ∨
    (o.outputResultHeader env e loc h).1 = .error ∧
      o.Breaks (o.outputResultHeader env e loc h).2 := by
  refine (emit_cases env loc _ (Rds.resultHeaderBytes e h) (h.columnCount = 0) o).imp_left ?_
  rintro ⟨hok, hadds, hend⟩
  exact ⟨congrArg Rc.failed hok, hadds, fun hcount => hend (by simpa using hcount)⟩

lemma outputCol_cases (col : Column) :
    (o.outputCol env e loc col).1.failed = false ∧
      o.Adds (Rds.answerBytes e (.column (some col))) (o.outputCol env e loc col).2 ∨
    (o.outputCol env e loc col).1 = .error ∧ o.Breaks (o.outputCol env e loc col).2 :=
  (emit_cases env loc _ (Rds.colBytes e col) false o).imp_left fun ⟨hok, hadds, _⟩ =>
    ⟨congrArg Rc.failed hok, hadds⟩

lemma outputRow_cases (row : UInt64) :
    (o.outputRow env loc row).1.failed = false ∧
      o.Adds (Rds.answerBytes e (.row row)) (o.outputRow env loc row).2 ∧
      (row = 0 → (o.outputRow env loc row).2.seenStreamEnd) ∨
    (o.outputRow env loc row).1 = .error ∧ o.Breaks (o.outputRow env loc row).2 := by
  refine (emit_cases env loc 1 (Rds.rowBytes row) (row = 0) o).imp_left ?_
  rintro ⟨hok, hadds, hend⟩
  exact ⟨congrArg Rc.failed hok, hadds, fun hrow => hend (by simpa using hrow)⟩

lemma outputField_cases (f : FieldRead) :
    (o.outputField env e loc f).1.failed = false ∧
      o.Adds (Rds.answerBytes e (.field f)) (o.outputField env e loc f).2 ∨
    (o.outputField env e loc f).1 = .error ∧ o.Breaks (o.outputField env e loc f).2 := by
  unfold outputField
  simp only [Rds.answerBytes]
  split
  · exact .inl ⟨rfl, .refl o⟩
  · refine (emit_cases env loc _ (Rds.fieldBytes e f) false o).imp_left ?_
    rintro ⟨hok, hadds, _⟩
    exact ⟨congrArg Rc.failed hok, hadds⟩

end Out
end DrizzleNginx
