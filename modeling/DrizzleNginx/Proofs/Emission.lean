/-
# Whole pieces

The stream consists of pieces: the header, the columns, the row flags, and the chunks of the fields,
the first one of a field together with its length.  What a step of a request does to its output is a
sequence of calls that succeed, up to the first one that fails; behind a failure there are no more
calls.  So all buffers that are handed to the output filter hold whole pieces.
-/
import DrizzleNginx.Proofs.Buffers
import DrizzleNginx.Proofs.Delivery

namespace DrizzleNginx

open Lib (Pieces)

/-! ## Calls in a row -/

namespace Out

/-- The output gets from one state to another by calls that succeed, which add some pieces. -/
def Moves (loc : LocConf) (o : Out) (qs : List Bytes) (o' : Out) : Prop :=
  ∀ ps req, Calls loc ps req o → ∃ req', Calls loc (ps ++ qs) req' o'

/-- What has been handed to the filter was in the output before. -/
def Hands (loc : LocConf) (o o' : Out) : Prop := ∀ ps req, Calls loc ps req o → o'.HandedWhole ps

variable {loc : LocConf} {o o₁ o₂ o' : Out} {ps qs qs' : List Bytes} {req : Option ℕ}

lemma Calls.handedWhole (h : Calls loc ps req o) : o.HandedWhole ps :=
  handedWhole_of_segments h.tidy.pieces

lemma Moves.refl (loc : LocConf) (o : Out) : o.Moves loc [] o :=
  fun ps req h => ⟨req, (List.append_nil ps).symm ▸ h⟩

lemma Moves.trans (h : o.Moves loc qs o₁) (h' : o₁.Moves loc qs' o₂) :
    o.Moves loc (qs ++ qs') o₂ := fun ps req hc => by
  obtain ⟨req₁, h₁⟩ := h ps req hc
  obtain ⟨req₂, h₂⟩ := h' _ req₁ h₁
  exact ⟨req₂, List.append_assoc ps qs qs' ▸ h₂⟩

lemma Moves.hands (h : o.Moves loc [] o₁) (h' : o₁.Hands loc o₂) : o.Hands loc o₂ :=
  fun ps req hc => by
    obtain ⟨req₁, h₁⟩ := h ps req hc
    exact h' ps req₁ (List.append_nil ps ▸ h₁)

lemma Hands.refl (loc : LocConf) (o : Out) : o.Hands loc o := fun _ _ h => h.handedWhole

lemma Moves.of_call (h : ∀ req, ∃ req', Call loc req o qs req' o') : o.Moves loc qs o' :=
  fun _ req hc => by
    obtain ⟨req', hcall⟩ := h req
    exact ⟨req', hc.call hcall⟩

lemma queueBuf_moves {link : Bool} (h : (o.queueBuf link).1 = .ok) :
    o.Moves loc [] (o.queueBuf link).2 := .of_call fun _ => ⟨none, .queueBuf (Prod.ext h rfl)⟩

lemma queueBuf_hands (link : Bool) : o.Hands loc (o.queueBuf link).2 :=
  fun _ _ h => h.handedWhole.congr (queueBuf_fields link o).1

lemma outputBufs_moves {env : FlushEnv} (h : (o.outputBufs env loc).1 = .ok) :
    o.Moves loc [] (o.outputBufs env loc).2 :=
  .of_call fun _ => ⟨none, .outputBufs (Prod.ext h rfl)⟩

lemma outputBufs_hands (env : FlushEnv) : o.Hands loc (o.outputBufs env loc).2 :=
  fun _ _ h => (outputBufs_carries h.tidy.lastOut h.tidy.pieces).1

lemma endDelay_moves (timedout : Bool) : o.Moves loc [] (o.endDelay timedout) := by
  unfold endDelay
  split
  · exact .of_call fun _ => ⟨_, .delayed false⟩
  · exact .refl loc o

lemma requestMem_hands (env : EmitEnv) (len : ℕ) : o.Hands loc (o.requestMem env loc len).2 := by
  have hout := requestMem_outcome env loc len o
  generalize o.requestMem env loc len = q at hout ⊢
  obtain ⟨mem, o'⟩ := q
  cases hout with
  | available h => exact .refl loc _
  | notQueued h => exact queueBuf_hands env.link
  | @notSent o₁ hq h =>
    have hmoves : o.Moves loc [] o₁ := .of_call fun _ => ⟨none, .queueBuf hq⟩
    exact hmoves.hands (outputBufs_hands env.flush)
  | @noMemory o₁ o₂ hq ho h =>
    have hmoves : o.Moves loc [] o₂ := Moves.trans (.of_call fun _ => ⟨none, .queueBuf hq⟩)
      (.of_call fun _ => ⟨none, .outputBufs ho⟩)
    refine hmoves.hands fun _ _ hc => hc.handedWhole.congr ?_
    rw [(newBuf_cases env.mem (max len loc.bufSize) o₂).1]
  | @newBuf o₁ o₂ b hq ho hb =>
    have hmoves : o.Moves loc [] o₂ := Moves.trans (.of_call fun _ => ⟨none, .queueBuf hq⟩)
      (.of_call fun _ => ⟨none, .outputBufs ho⟩)
    refine hmoves.hands fun _ _ hc => hc.handedWhole.congr ?_
    rw [(newBuf_cases env.mem (max len loc.bufSize) o₂).1]

lemma submitMem_sent (link : Bool) (bytes : Bytes) (o : Out) :
    (o.submitMem link bytes).2.sent = o.sent := by
  unfold submitMem
  split
  · rfl
  · simp only
    split
    · exact (queueBuf_fields link _).1
    · rfl

/-- The bytes of a piece, if there are any. -/
def piece (bytes : Bytes) : List Bytes := [bytes].filter (· ≠ [])

/-- A piece is emitted by two calls. -/
lemma emit_moves (env : EmitEnv) (size : ℕ) (bytes : Bytes) (last : Bool) (o : Out) :
    o.Hands loc (o.emit env loc size bytes last).2 ∧
    ((o.emit env loc size bytes last).1.failed = false →
      o.Moves loc (piece bytes) (o.emit env loc size bytes last).2) := by
  have hhands : o.Hands loc _ := requestMem_hands env size
  cases hmem : o.requestMem env loc size with
  | mk mem o₁ =>
    rw [hmem] at hhands
    unfold emit
    simp only [hmem]
    split
    · exact ⟨hhands, nofun⟩
    · next hok =>
      obtain rfl : mem = true := by simpa using hok
      split
      · exact ⟨hhands, nofun⟩
      · next hsize =>
        obtain rfl := not_not.mp hsize
        obtain ⟨o₂, ho₂⟩ : ∃ o₂, o₂ = if last then { o₁ with seenStreamEnd := true } else o₁ :=
          ⟨_, rfl⟩
        rw [← ho₂]
        -- the memory is requested, and the end of the stream is noted
        have hcalls : ∀ ps req, Calls loc ps req o → Calls loc ps (some bytes.length) o₂ := by
          intro ps req h
          have h₁ := List.append_nil ps ▸ h.call (.requestMem hmem)
          rw [ho₂]
          split
          · exact List.append_nil ps ▸ h₁.call .streamEnd
          · exact h₁
        refine ⟨fun ps req h => ?_, fun hsub ps req h => ⟨none, ?_⟩⟩
        · exact (hcalls ps req h).handedWhole.congr (submitMem_sent env.submit bytes o₂)
        · rcases submitMem_cases env.submit bytes o₂ with ⟨hok, _⟩ | ⟨herr, _⟩
          · exact (hcalls ps req h).call (.submitMem (Prod.ext hok rfl))
          · rw [herr] at hsub
            cases hsub

lemma outputField_moves (loc : LocConf) (env : EmitEnv) (e : Rds.Endian) (f : FieldRead) (o : Out) :
    o.Hands loc (o.outputField env e loc f).2 ∧
    ((o.outputField env e loc f).1.failed = false →
      o.Moves loc (piece (Rds.answerBytes e (.field f))) (o.outputField env e loc f).2) := by
  unfold outputField
  simp only [Rds.answerBytes]
  split
  · exact ⟨.refl loc o, fun _ => .refl loc o⟩
  · exact emit_moves env (Rds.fieldSize f) (Rds.fieldBytes e f) false o

end Out

/-! ## One step -/

/-- The pieces of the stream that the library has delivered. -/
def atoms (e : Rds.Endian) (calls : List LibCall) : List Bytes :=
  ((answers calls).map (Rds.answerBytes e)).filter (· ≠ [])

/-- The output of a request: if nothing has failed, it has got where it is by calls that succeeded,
with the pieces that have been delivered. -/
structure Emission (e : Rds.Endian) (p : Pos) (r : Req) : Prop where
  whole : r.live → p.Whole r → ∃ req, Out.Calls r.loc (atoms e r.calls) req r.out
  handed : r.out.HandedWhole (atoms e r.calls)

variable {s s' : St} {p p' : Pos} {r r' : Req} {e : Rds.Endian} {k : ℕ} {t : Talk}

lemma atoms_eq (h : r'.calls = r.calls) : atoms e r'.calls = atoms e r.calls := by rw [h]

/-- A call that delivers nothing. -/
lemma atoms_quiet {call : LibCall} (h : r'.calls = call :: r.calls) (hnone : call.answer = none) :
    atoms e r'.calls = atoms e r.calls ++ [] := by
  rw [atoms, h, answers_cons, hnone, atoms]
  simp

lemma atoms_answer {call : LibCall} {a : Answer} (h : r'.calls = call :: r.calls)
    (ha : call.answer = some a) :
    atoms e r'.calls = atoms e r.calls ++ Out.piece (Rds.answerBytes e a) := by
  rw [atoms, h, answers_cons, ha, List.map_append, List.filter_append]
  rfl

namespace Emission

/-- The processing goes on at another position, without output. -/
lemma move (h : Emission e p r) (hout : r'.out = r.out) (hcalls : r'.calls = r.calls)
    (hloc : r'.loc = r.loc) (hwhole : r'.live → p'.Whole r' → r.live ∧ p.Whole r) :
    Emission e p' r' where
  whole hl hw := by
    obtain ⟨hl, hw⟩ := hwhole hl hw
    rw [hout, hloc, hcalls]
    exact h.whole hl hw
  handed := by
    rw [hout, hcalls]
    exact h.handed

/-- The output gets on, with a piece or without one, if nothing fails. -/
lemma goes (h : Emission e p r) (hlive : r.live) (hw : p.Whole r) (hloc : r'.loc = r.loc)
    {qs : List Bytes} (hhands : r.out.Hands r.loc r'.out)
    (hatoms : atoms e r'.calls = atoms e r.calls ++ qs)
    (hmoves : r'.live → p'.Whole r' → r.out.Moves r.loc qs r'.out) : Emission e p' r' where
  whole hl hw' := by
    obtain ⟨req, hc⟩ := h.whole hlive hw
    rw [hatoms, hloc]
    exact hmoves hl hw' _ req hc
  handed := by
    obtain ⟨req, hc⟩ := h.whole hlive hw
    obtain ⟨qs', hpre, hp⟩ := hhands _ req hc
    rw [hatoms]
    exact ⟨qs', hpre.trans (List.prefix_append _ _), hp⟩

end Emission

namespace St

/-- What is known behind the check of the output. -/
structure Looked (s : St) (rc : Rc) (s₁ : St) : Prop where
  hands : s.r.out.Hands s.r.loc s₁.r.out
  moves : rc ≠ .error → s.r.out.Moves s.r.loc [] s₁.r.out
  calls : s₁.r.calls = s.r.calls
  conf : s₁.w.conf = s.w.conf
  loc : s₁.r.loc = s.r.loc
  started : s₁.r.queryStarted = s.r.queryStarted

lemma outputReady_moves (env : ReadyEnv) : s.r.out.Hands s.r.loc (s.outputReady env k).2.r.out ∧
    ((s.outputReady env k).1 ≠ .error →
      s.r.out.Moves s.r.loc [] (s.outputReady env k).2.r.out) := by
  have hqueue : s.r.out.Hands s.r.loc _ := Out.queueBuf_hands env.link
  unfold outputReady
  split
  · exact ⟨.refl _ _, fun _ => .refl _ _⟩
  · simp only
    split
    · exact ⟨hqueue, fun h => absurd rfl h⟩
    · next hq =>
      have hmoves : s.r.out.Moves s.r.loc [] _ := Out.queueBuf_moves (not_not.mp hq)
      have hhands := hmoves.hands (Out.outputBufs_hands env.flush)
      split
      · exact ⟨hhands, fun h => absurd rfl h⟩
      · next ho =>
        have hmoves := hmoves.trans (Out.outputBufs_moves (not_not.mp ho))
        split
        · exact ⟨hhands, fun _ => hmoves⟩
        · -- pausing has nothing to do with the output
          have hout : ∀ s₁ : St, (s₁.pause env k).2.r.out = s₁.r.out := by
            intro s₁
            unfold pause
            simp only
            split
            · rw [delEvents_out]
            · unfold pauseReading
              simp only [log_r, modReq_r, Req.log, modConn_r]
              rw [delEvents_out]
          rw [hout]
          exact ⟨hhands, fun _ => hmoves⟩

lemma outputReady_looked (env : ReadyEnv) (hk : s.r.connection = some k) {rc : Rc} {s₁ : St}
    (h : s.outputReady env k = (rc, s₁)) : Looked s rc s₁ := by
  obtain ⟨hhands, hmoves⟩ := outputReady_moves (s := s) (k := k) env
  have hq := quiet_outputReady env hk
  rw [h] at hhands hmoves hq
  exact ⟨hhands, hmoves, hq.calls, hq.conf, (congrArg Req.loc hq.req :),
    (congrArg Req.queryStarted hq.req :)⟩

lemma enter_looked {state : DbState} {timeout : Msec} (env : ReadyEnv)
    (hk : s.r.connection = some k) {rc : Rc} {s₁ : St}
    (h : (s.enter state timeout k).outputReady env k = (rc, s₁)) : Looked s rc s₁ := by
  have hc : (s.enter state timeout k).r.connection = some k := by
    unfold enter
    split <;> exact hk
  have hl := outputReady_looked env hc h
  unfold enter at hl
  split at hl
  · exact ⟨hl.hands, hl.moves, hl.calls, hl.conf, hl.loc, hl.started⟩
  · exact hl

variable {rc : Rc} {s₁ : St}

/-- Reading is stopped: it has been paused, or the output has failed. -/
lemma Looked.stop (h : Emission e p s.r) (hlive : s.r.live) (hw : p.Whole s.r)
    (hstarted : s.r.queryStarted) (hl : Looked s rc s₁) : Emission e (.ret rc) s₁.r := by
  refine h.goes hlive hw hl.loc hl.hands ((atoms_eq hl.calls).trans (List.append_nil _).symm)
    fun _ hw' => hl.moves ?_
  rintro rfl
  exact absurd (hl.started.symm.trans (hw' rfl)) (by simp [hstarted])

/-- A call that delivers nothing. -/
lemma Looked.wait {call : LibCall} (h : Emission e p s.r) (hlive : s.r.live) (hw : p.Whole s.r)
    (hl : Looked s .ok s₁) (hout : s'.r.out = s₁.r.out) (hloc : s'.r.loc = s₁.r.loc)
    (hcalls : s'.r.calls = call :: s₁.r.calls) (hnone : call.answer = none) :
    Emission e p' s'.r := by
  refine h.goes hlive hw (hloc.trans hl.loc) (hout ▸ hl.hands) ?_ fun _ _ => hout ▸ hl.moves nofun
  exact (atoms_quiet hcalls hnone).trans (congrArg (· ++ []) (atoms_eq hl.calls))

/-- A call that delivers a piece. -/
lemma Looked.answer {call : LibCall} {a : Answer} (h : Emission e p s.r) (hlive : s.r.live)
    (hw : p.Whole s.r) (hl : Looked s .ok s₁) (hloc : s'.r.loc = s₁.r.loc)
    (hcalls : s'.r.calls = call :: s₁.r.calls) (ha : call.answer = some a)
    (hhands : s₁.r.out.Hands s₁.r.loc s'.r.out) (hmoves : s'.r.live → p'.Whole s'.r →
      s₁.r.out.Moves s₁.r.loc (Out.piece (Rds.answerBytes e a)) s'.r.out) :
    Emission e p' s'.r := by
  have hmoved := hl.moves nofun
  rw [hl.loc] at hhands hmoves
  refine h.goes hlive hw (hloc.trans hl.loc) (hmoved.hands hhands) ?_
    fun hl' hw' => hmoved.trans (hmoves hl' hw')
  exact (atoms_answer hcalls ha).trans
    (congrArg (· ++ Out.piece (Rds.answerBytes e a)) (atoms_eq hl.calls))

/-- At a position behind a call that may have failed. -/
lemma failed_of_whole {r : Req} {rc : Rc} (hstarted : r.queryStarted)
    (hw : (if rc.failed then Pos.ret rc else p').Whole r) : rc.failed = false := by
  by_contra hfailed
  rw [Bool.not_eq_false] at hfailed
  rw [if_pos hfailed] at hw
  exact absurd (hw hfailed) (by simp [hstarted])

lemma emission_recvCols (env : Env) (h : Emission s.w.conf.endian .recvCols s.r) (hlive : s.r.live)
    (hstarted : s.r.queryStarted) (hk : s.r.connection = some k) :
    Emission s.w.conf.endian (s.recvCols env k k).1 (s.recvCols env k k).2.r := by
  obtain ⟨rc, s₁, hs₁⟩ : ∃ rc s₁, (s.enter .recvCols s.r.loc.recvColsTimeout k).outputReady
    env.ready k = (rc, s₁) := ⟨_, _, rfl⟩
  have hl := enter_looked env.ready hk hs₁
  unfold recvCols
  simp only [hs₁]
  split
  · exact hl.stop h hlive trivial hstarted
  · next hrc =>
    obtain rfl := not_not.mp hrc
    split
    · next hret => exact hl.wait h hlive trivial rfl rfl (Req.log_calls ..) (by rw [hret]; rfl)
    · next hret => exact hl.wait h hlive trivial rfl rfl (Req.log_calls ..) (by rw [hret]; rfl)
    · next col hret =>
      obtain ⟨hhands, hmoves⟩ : s₁.r.out.Hands s₁.r.loc
          (s₁.r.out.outputCol env.emit s₁.w.conf.endian s₁.r.loc col).2 ∧ _ :=
        Out.emit_moves env.emit _ (Rds.colBytes s₁.w.conf.endian col) false s₁.r.out
      refine hl.answer (a := .column (some col)) h hlive trivial rfl (Req.log_calls ..)
        (by rw [hret]; rfl) hhands fun _ hw => ?_
      rw [← hl.conf]
      exact hmoves (failed_of_whole (hl.started.trans hstarted) hw)
    · next hret =>
      exact hl.answer (a := .column none) h hlive trivial rfl (Req.log_calls ..)
        (by rw [hret]; rfl) (.refl _ _) fun _ _ => .refl _ _

lemma emission_recvRows (env : Env) (h : Emission s.w.conf.endian .recvRows s.r) (hlive : s.r.live)
    (hstarted : s.r.queryStarted) (hk : s.r.connection = some k) :
    Emission s.w.conf.endian (s.recvRows env k k).1 (s.recvRows env k k).2.r := by
  obtain ⟨rc, s₁, hs₁⟩ : ∃ rc s₁, (s.enter .recvRows s.r.loc.recvRowsTimeout k).outputReady
    env.ready k = (rc, s₁) := ⟨_, _, rfl⟩
  have hl := enter_looked env.ready hk hs₁
  unfold recvRows
  simp only [hs₁]
  split
  · exact hl.stop h hlive trivial hstarted
  · next hrc =>
    obtain rfl := not_not.mp hrc
    split
    · refine h.goes hlive trivial hl.loc hl.hands ?_ fun _ _ => hl.moves nofun
      exact (atoms_eq hl.calls).trans (List.append_nil _).symm
    · split
      · next hret => exact hl.wait h hlive trivial rfl rfl (Req.log_calls ..) (by rw [hret]; rfl)
      · next hret => exact hl.wait h hlive trivial rfl rfl (Req.log_calls ..) (by rw [hret]; rfl)
      · next row hret =>
        obtain ⟨s₂, hs₂⟩ : ∃ s₂, s₂ = s₁.libCall k (.rowRead s₁.r.id env.row) := ⟨_, rfl⟩
        have hout₂ : s₂.r.out = s₁.r.out := by rw [hs₂]; rfl
        have hloc₂ : s₂.r.loc = s₁.r.loc := by rw [hs₂]; rfl
        have hcalls₂ : s₂.r.calls = .rowRead s₁.r.id env.row :: s₁.r.calls := by
          rw [hs₂]
          exact Req.log_calls ..
        have hstarted₂ : s₂.r.queryStarted := by
          rw [hs₂]
          exact hl.started.trans hstarted
        obtain ⟨hhands, hmoves⟩ : s₁.r.out.Hands s₁.r.loc
            (s₁.r.out.outputRow env.emit s₁.r.loc row).2 ∧ _ :=
          Out.emit_moves env.emit 1 (Rds.rowBytes row) (row = 0) s₁.r.out
        have hsame : (s₂.rowOk env k row).2.r.out =
              (s₁.r.out.outputRow env.emit s₁.r.loc row).2 ∧
            (s₂.rowOk env k row).2.r.calls = s₂.r.calls ∧
            (s₂.rowOk env k row).2.r.loc = s₂.r.loc ∧
            ((s₁.r.out.outputRow env.emit s₁.r.loc row).1.failed →
              ¬ (s₂.rowOk env k row).1.Whole (s₂.rowOk env k row).2.r) := by
          unfold rowOk
          rw [hout₂, hloc₂]
          dsimp only
          split
          · next hfailed =>
            exact ⟨rfl, rfl, hloc₂, fun _ hw => absurd (hw hfailed) (by simp [hstarted₂])⟩
          · next hok =>
            split
            · exact ⟨rfl, rfl, hloc₂, fun hf => absurd hf hok⟩
            · split <;> exact ⟨rfl, rfl, hloc₂, fun hf => absurd hf hok⟩
        obtain ⟨hout, hcalls, hloc, hfailed⟩ := hsame
        rw [← hs₂]
        refine hl.answer (a := .row row) h hlive trivial (hloc.trans hloc₂) (hcalls.trans hcalls₂)
          (by rw [hret]; rfl) (hout ▸ hhands) fun _ hw => ?_
        rw [hout]
        refine hmoves ?_
        cases hf : (s₁.r.out.outputRow env.emit s₁.r.loc row).1.failed with
        | true => exact absurd hw (hfailed hf)
        | false => exact hf

lemma emission_recvFields (env : Env) (h : Emission s.w.conf.endian .recvFields s.r)
    (hlive : s.r.live) (hstarted : s.r.queryStarted) (hk : s.r.connection = some k) :
    Emission s.w.conf.endian (s.recvFields env k k).1 (s.recvFields env k k).2.r := by
  obtain ⟨rc, s₁, hs₁⟩ : ∃ rc s₁, s.outputReady env.ready k = (rc, s₁) := ⟨_, _, rfl⟩
  have hl := outputReady_looked env.ready hk hs₁
  unfold recvFields
  simp only [hs₁]
  split
  · exact hl.stop h hlive trivial hstarted
  · next hrc =>
    obtain rfl := not_not.mp hrc
    split
    · next hret => exact hl.wait h hlive trivial rfl rfl (Req.log_calls ..) (by rw [hret]; rfl)
    · next hret =>
      exact hl.answer (a := .rowEnd) h hlive trivial rfl (Req.log_calls ..) (by rw [hret]; rfl)
        (.refl _ _) fun _ _ => .refl _ _
    · next hret => exact hl.wait h hlive trivial rfl rfl (Req.log_calls ..) (by rw [hret]; rfl)
    · next chunk hret =>
      obtain ⟨hhands, hmoves⟩ := Out.outputField_moves s₁.r.loc env.emit s₁.w.conf.endian chunk
        s₁.r.out
      refine hl.answer (a := .field chunk) h hlive trivial rfl (Req.log_calls ..)
        (by rw [hret]; rfl) hhands fun _ hw => ?_
      rw [← hl.conf]
      exact hmoves (failed_of_whole (hl.started.trans hstarted) hw)

/-- At the end of a step in which the library delivers nothing and the output is flushed. -/
lemma emission_flush {flush : FlushEnv} (h : Emission e p s.r) (hlive : s.r.live)
    (hw : p.Whole s.r) (hsent : s'.r.out.sent = (s.r.out.outputBufs flush s.r.loc).2.sent)
    (hloc : s'.r.loc = s.r.loc) (hcalls : s'.r.calls = s.r.calls)
    (hok : s'.r.live → p'.Whole s'.r → (s.r.out.outputBufs flush s.r.loc).1 = .ok ∧
      s'.r.out = (s.r.out.outputBufs flush s.r.loc).2) : Emission e p' s'.r := by
  refine h.goes hlive hw hloc (fun ps req hc => ?_)
    ((atoms_eq hcalls).trans (List.append_nil _).symm) fun hl hw' => ?_
  · exact (Out.outputBufs_hands flush ps req hc).congr hsent
  · obtain ⟨hrc, hout⟩ := hok hl hw'
    exact hout ▸ Out.outputBufs_moves hrc

lemma emission_processed (env : Env) {rc : Rc} (h : Emission e (.ret rc) s.r) (hlive : s.r.live) :
    Emission e (s.processed env rc).1 (s.processed env rc).2.r := by
  unfold processed
  split
  · next hrc =>
    exact h.move rfl rfl rfl fun hl hw => ⟨hl, fun _ => hw⟩
  · split
    · exact h.move rfl rfl rfl fun _ hw => hw.elim
    · next hfailed =>
      have hwhole : (Pos.ret rc).Whole s.r := fun hf => absurd hf hfailed
      split
      · simp only
        split
        · exact emission_flush h hlive hwhole rfl rfl rfl fun _ hw => hw.elim
        · next hne =>
          refine emission_flush h hlive hwhole rfl rfl rfl fun _ _ => ⟨?_, rfl⟩
          rcases Out.outputBufs_cases env.flush s.r.loc s.r.out with ⟨hok, _⟩ | ⟨hf, _⟩
          · exact hok
          · exfalso
            generalize (s.r.out.outputBufs env.flush s.r.loc).1 = rc' at hne hf
            cases rc' with
            | http status =>
              have : 300 ≤ status := by simpa [Rc.failed] using hf
              refine hne (.inr ?_)
              simp only [Rc.positive, decide_eq_true_eq]
              omega
            | error => exact hne (.inl rfl)
            | _ => cases hf
      · exact h.move rfl rfl rfl fun _ _ => ⟨hlive, hwhole⟩

lemma emission_done (env : Env) {rc : Rc} (h : Emission e (.done rc) s.r) (hlive : s.r.live) :
    Emission e (s.done env rc).1 (s.done env rc).2.r := by
  unfold done
  simp only
  split <;> exact emission_flush h hlive trivial rfl rfl rfl fun _ hw => hw.elim

lemma emission_drainOutput (env : Env) (timedout : Bool) {ev : Event}
    (h : Emission e (.event ev) s.r) (hlive : s.r.live) (hk : s.r.connection = some k)
    (hd : s.r.drizzleCon = some k) :
    Emission e (s.drainOutput env timedout).1 (s.drainOutput env timedout).2.r := by
  have hdelay : s.r.out.Moves s.r.loc [] (s.r.out.endDelay timedout) := Out.endDelay_moves timedout
  have hhands := hdelay.hands (Out.outputBufs_hands env.flush)
  have hsame : ∀ {p'} {r' : Req}, r'.out = s.r.out → r'.calls = s.r.calls → r'.loc = s.r.loc →
      Emission e p' r' :=
    fun hout hcalls hloc => h.move hout hcalls hloc fun _ _ => ⟨hlive, trivial⟩
  -- the output is flushed behind the delay
  have hflush : ∀ {p'} {r' : Req}, r'.out =
      ((s.r.out.endDelay timedout).outputBufs env.flush s.r.loc).2 → r'.calls = s.r.calls →
      r'.loc = s.r.loc → (p'.Whole r' →
        ((s.r.out.endDelay timedout).outputBufs env.flush s.r.loc).1 = .ok) → Emission e p' r' := by
    intro p' r' hout hcalls hloc hok
    refine h.goes hlive trivial hloc (hout ▸ hhands)
      ((atoms_eq hcalls).trans (List.append_nil _).symm) fun _ hw => ?_
    rw [hout]
    exact hdelay.trans (Out.outputBufs_moves (hok hw))
  unfold drainOutput
  split
  · exact hsame rfl rfl rfl
  · simp only
    split
    · exact hsame rfl rfl rfl
    · split
      · exact hflush rfl rfl rfl fun hw => hw.elim
      · next hrc =>
        have hrc := not_not.mp hrc
        split
        · exact hflush rfl rfl rfl fun _ => hrc
        · rw [onConn_of (s := s.setOut ((s.r.out.endDelay timedout).outputBufs env.flush
            s.r.loc).2) hk hd]
          unfold resume
          simp only
          split <;> exact hflush rfl rfl rfl fun _ => hrc

lemma emission_sendQuery (env : Env) (h : Emission s.w.conf.endian .sendQuery s.r)
    (hlive : s.r.live) :
    Emission s.w.conf.endian (s.sendQuery env k k).1 (s.sendQuery env k k).2.r := by
  have hcalls := (sendQuery_flags (s := s) (k := k) env).1
  -- whatever is not the header of the result adds nothing
  have hquiet : ∀ {p'}, (s.sendQuery env k k).2.r.out = s.r.out →
      (s.sendQuery env k k).2.r.loc = s.r.loc →
      (LibCall.query s.r.id s.r.sendsSetNames s.r.queryToSend env.query).answer = none →
      Emission s.w.conf.endian p' (s.sendQuery env k k).2.r := fun hout hloc hnone =>
    h.goes hlive trivial hloc (hout ▸ .refl _ _) (atoms_quiet hcalls hnone)
      fun _ _ => hout ▸ .refl _ _
  have hn : ((s.queried k env.query).modWrite k NgxEvent.delTimer).r.sendsSetNames =
      s.r.sendsSetNames := rfl
  cases hret : env.query with
  | ioWait =>
    rw [hret] at hquiet
    refine hquiet ?_ ?_ (by cases s.r.sendsSetNames <;> rfl) <;>
    · unfold sendQuery
      rw [hret]
      simp only
      split <;> rfl
  | fail err =>
    rw [hret] at hquiet
    refine hquiet ?_ ?_ (by cases s.r.sendsSetNames <;> rfl) <;>
    · unfold sendQuery
      rw [hret]
      simp only
      split
      · cases ‹QueryRet.fail err = .ioWait›
      · split <;> rfl
      · rfl
      · cases ‹QueryRet.fail err = .ok _›
  | ok header =>
    rw [hret] at hquiet hn hcalls
    cases hs : s.r.sendsSetNames with
    | true =>
      rw [hs] at hquiet
      refine hquiet ?_ ?_ rfl <;>
      · unfold sendQuery queryOk
        rw [hret]
        dsimp only
        rw [hn, if_pos hs]
        split <;> rfl
    | false =>
      rw [hs] at hcalls
      obtain ⟨hhands, hmoves⟩ : s.r.out.Hands s.r.loc
          (s.r.out.outputResultHeader env.emit s.w.conf.endian s.r.loc header).2 ∧ _ :=
        Out.emit_moves env.emit _ (Rds.resultHeaderBytes s.w.conf.endian header)
          (header.columnCount = 0) s.r.out
      obtain ⟨hout, hloc, hfailed⟩ : (s.sendQuery env k k).2.r.out =
            (s.r.out.outputResultHeader env.emit s.w.conf.endian s.r.loc header).2 ∧
          (s.sendQuery env k k).2.r.loc = s.r.loc ∧
          ((s.r.out.outputResultHeader env.emit s.w.conf.endian s.r.loc header).1.failed →
            ¬ (s.sendQuery env k k).1.Whole (s.sendQuery env k k).2.r) := by
        unfold sendQuery queryOk
        rw [hret]
        dsimp only
        rw [hn, if_neg (by simp [hs])]
        split
        · next hf => exact ⟨rfl, rfl, fun _ hw => Bool.noConfusion (hw hf)⟩
        · next hok => exact ⟨rfl, rfl, fun hf => absurd hf hok⟩
      refine h.goes hlive trivial hloc (hout ▸ hhands)
        (atoms_answer (a := .header header) hcalls rfl)
        fun _ hw => ?_
      rw [hout]
      refine hmoves ?_
      cases hf : (s.r.out.outputResultHeader env.emit s.w.conf.endian s.r.loc header).1.failed with
      | true => exact absurd hw (hfailed hf)
      | false => exact hf

/-- Where there is no output, a request of which nothing has failed had not failed before. -/
lemma whole_of_exec (env : Env) (hc : Custody p s) (hp : p.outputs = false)
    (hlive : (s.exec env p).2.r.live)
    (hw : (s.exec env p).1.Whole (s.exec env p).2.r) : p.Whole s.r := by
  cases p with
  | next ft =>
    obtain ⟨s₁, hs₁, hnext⟩ := next_cases (s := s) ft hc.queues
    have hstarted : s₁.r.queryStarted = s.r.queryStarted := by
      split at hs₁
      · rw [hs₁]
      · obtain ⟨_, _, _, hstarted, _⟩ := hs₁.session
        exact hstarted
    rw [exec] at hw
    generalize s.next ft = ps at hnext hw
    obtain ⟨p', s'⟩ := ps
    cases hnext with
    | stop => exact hw.elim
    | retry hno => exact hstarted.symm.trans hno
  | finalize rc => exact absurd ((exec_finalize env hc).2.symm.trans hlive) Bool.false_ne_true
  | crashed => exact hw
  | ret => cases hp
  | _ => trivial

/-- Every step moves the output by calls that succeed, or it fails. -/
theorem emission_exec (env : Env) (hc : Custody p s) (hs : Session p s.r t)
    (h : Emission s.w.conf.endian p s.r) :
    Emission s.w.conf.endian (s.exec env p).1 (s.exec env p).2.r := by
  cases hp : p.outputs with
  | false =>
    obtain ⟨hout, hcalls⟩ := exec_out env hc hp
    exact h.move hout hcalls (congrArg Req.loc (exec_given env hc) :) fun hlive hw =>
      ⟨live_of_exec env hc hlive, whole_of_exec env hc hp hlive hw⟩
  | true =>
    cases p with
    | event ev =>
      have hlive := hc.ok.1
      cases ev with
      | clientWrite timedout =>
        simp only [exec, handleEvent]
        split
        · next hdrain =>
          obtain ⟨k, hk⟩ := holds_of_event hc (hc.ordered.drains hdrain)
          exact emission_drainOutput env timedout h hlive hk.connection hk.drizzleCon
        · exact h.move rfl rfl rfl fun _ _ => ⟨hlive, trivial⟩
        · exact h.move rfl rfl rfl fun _ _ => ⟨hlive, trivial⟩
      | _ => cases hp
    | sendQuery =>
      obtain ⟨hlive, k, hk⟩ := hc.ok
      rw [exec, onConn_of hk.connection hk.drizzleCon]
      exact emission_sendQuery env h hlive
    | recvCols =>
      obtain ⟨hlive, k, hk⟩ := hc.ok
      rw [exec, onConn_of hk.connection hk.drizzleCon]
      exact emission_recvCols env h hlive (started_of_fits hs hlive (.inl rfl)) hk.connection
    | recvRows =>
      obtain ⟨hlive, k, hk⟩ := hc.ok
      rw [exec, onConn_of hk.connection hk.drizzleCon]
      exact emission_recvRows env h hlive (started_of_fits hs hlive (.inr (.inl rfl))) hk.connection
    | recvFields =>
      obtain ⟨hlive, k, hk⟩ := hc.ok
      rw [exec, onConn_of hk.connection hk.drizzleCon]
      exact emission_recvFields env h hlive (started_of_fits hs hlive (.inr (.inr rfl)))
        hk.connection
    | ret rc => exact emission_processed env h hc.ok.1
    | done rc =>
      have hlive : s.r.live := by
        have := hc.ok
        cases rc with
        | declined => exact this.elim
        | _ => exact this.1
      exact emission_done env h hlive
    | _ => cases hp

end St

/-! ## Runs -/

/-- The output of each request, as a claim about requests. -/
def Local.emission : Local where
  req conf p r _ := Emission conf.endian p r
  item _ _ _ := True

lemma Emission.settle (h : Emission e p r) : Emission e (p.after r) r := by
  cases p with
  | loop =>
    unfold Pos.after Pos.settle
    cases r.inHandler with
    | true => exact h.move rfl rfl rfl fun hl _ => ⟨hl, trivial⟩
    | false => exact h
  | _ => exact h

lemma Local.emission_kept : Local.emission.Kept fun _ p s => Known p s where
  init w id a _ _ := ⟨fun _ _ => ⟨none, .init⟩, ⟨[], List.prefix_rfl, [], rfl, rfl⟩⟩
  fire ev s _ _ h := by
    obtain ⟨⟨cw, hr⟩, _⟩ := St.fire_cases ev s
    rw [hr]
    exact h.move rfl rfl rfl fun hl _ => ⟨hl, trivial⟩
  client _ _ _ _ cc h := by
    refine ⟨fun hl hw => ?_, h.handed⟩
    obtain ⟨req, hcalls⟩ := h.whole hl hw
    have hcalls := hcalls.call (.delayed cc.delayed)
    rw [List.append_nil] at hcalls
    exact ⟨_, hcalls⟩
  exec env _ _ hc hd h _ := by
    obtain ⟨t, ht⟩ := hd.session
    exact (St.emission_exec env hc ht h).settle
  saved _ _ _ _ _ _ _ _ _ _ := trivial

namespace Out

/-- The pieces, with the sizes of the memory that is requested for them. -/
inductive Sized (e : Rds.Endian) : ℕ → Bytes → Prop
  | header (h : ResultHeader) :
      Sized e (1 + 4 + 1 + 2 + 2 + 2 + h.error.length % 2 ^ 16 + 8 + 8 + 2)
      (Rds.resultHeaderBytes e h)
  | col (col : Column) : Sized e (2 + 2 + 2 + col.name.length % 2 ^ 16) (Rds.colBytes e col)
  | row (row : UInt64) : Sized e 1 (Rds.rowBytes row)
  | field (f : FieldRead) : Sized e (Rds.fieldSize f) (Rds.fieldBytes e f)

/-- No more is written than has been requested. -/
lemma Sized.length_le {size : ℕ} {bytes : Bytes} (h : Sized e size bytes) :
    bytes.length ≤ size := by
  cases h with
  | header h =>
    have hmod := Nat.mod_le h.error.length (2 ^ 16)
    simp only [Rds.resultHeaderBytes, List.length_append, Rds.length_uintBytes, List.length_take,
      List.length_singleton]
    omega
  | col col =>
    have hmod := Nat.mod_le col.name.length (2 ^ 16)
    simp only [Rds.colBytes, List.length_append, Rds.length_uintBytes, List.length_take]
    omega
  | row row => exact Nat.le_refl 1
  | field f =>
    rw [Rds.fieldBytes, Rds.fieldSize]
    cases f.field with
    | none => split <;> simp
    | some d =>
      split <;> simp

/-- The memory that is returned is in a buffer with enough room, which is not in a chain. -/
lemma Calls.room {loc : LocConf} {ps : List Bytes} {req : Option ℕ} {o o' : Out} {env : EmitEnv}
    {size : ℕ} (h : Calls loc ps req o) (hr : o.requestMem env loc size = (true, o')) :
    ∃ b, o'.outBuf = some b ∧ b.data.length + size ≤ b.capacity ∧
      ∀ c ∈ o'.outBufs ++ o'.busyBufs, c.id ≠ b.id := by
  have ht := (h.call (.requestMem hr)).tidy
  obtain ⟨hsome, havail⟩ := ht.room size rfl
  obtain ⟨b, hb⟩ := Option.isSome_iff_exists.mp hsome
  obtain ⟨_, _, hcap⟩ := ht.measured.room b hb
  refine ⟨b, hb, by omega, fun c hc hid => ?_⟩
  have hnodup := ht.distinct.nodup
  simp only [bufs, hb, Option.toList_some, List.cons_append, List.nil_append, List.map_cons,
    List.nodup_cons] at hnodup
  refine hnodup.1 (hid ▸ List.mem_map_of_mem ?_)
  simp only [List.mem_append] at hc ⊢
  exact .inl hc.symm

end Out

namespace Sys

/-- **Whole pieces.**  In every run, each buffer that is handed to the output filter holds a group
of whole pieces of what the library has delivered, in their order.  As long as nothing has failed,
the output of a request has got where it is by calls that succeed; in such a sequence of calls, a
piece is written between the last byte and the end of its buffer, and this buffer is neither in the
queue nor in the busy chain. -/
theorem pieces_whole (conf : Conf) (ls : List Label) :
    (∀ r ∈ (run conf ls).reqs, ∃ groups : List (List Bytes),
      r.out.sent.flatten = groups.map List.flatten ∧
      groups.flatten <+: atoms conf.endian r.calls) ∧
    (∀ (i : ℕ) (r : Req), (run conf ls).reqs[i]? = some r → r.live →
      ((run conf ls).pos i).Whole r →
      ∃ req, Out.Calls r.loc (atoms conf.endian r.calls) req r.out) ∧
    ∀ (loc : LocConf) (ps : List Bytes) (req : Option ℕ) (o o' : Out) (env : EmitEnv) (size : ℕ)
      (bytes : Bytes), Out.Calls loc ps req o → Out.Sized conf.endian size bytes →
      o.requestMem env loc size = (true, o') → ∃ b, o'.outBuf = some b ∧
        b.data.length + bytes.length ≤ b.capacity ∧
        ∀ c ∈ o'.outBufs ++ o'.busyBufs, c.id ≠ b.id := by
  have hrun := Local.emission_kept.run conf (known_meets conf ls)
  refine ⟨fun r hr => ?_, fun i r hi hlive hw => ?_,
    fun loc ps req o o' env size bytes h hs hr => ?_⟩
  · obtain ⟨i, hi⟩ := List.mem_iff_getElem?.mp hr
    have hem : Emission conf.endian _ r := conf_run conf ls ▸ hrun.req i r hi
    obtain ⟨qs, hpre, groups, rfl, hmap⟩ := hem.handed
    exact ⟨groups, hmap.symm, hpre⟩
  · have hem : Emission conf.endian _ r := conf_run conf ls ▸ hrun.req i r hi
    exact hem.whole hlive hw
  · obtain ⟨b, hb, hroom, hne⟩ := h.room hr
    have hle := hs.length_le
    exact ⟨b, hb, by omega, hne⟩

/-- The header and a column of a result have been read, with buffers for a single byte. -/
def smallBufs : List Label := sampleArrival (.small [7] 1048575) ++
  [.run { query := .ok (.sample 1) }, .run { column := .ok (some ⟨3, [97]⟩) },
    .run { column := .ok none }]

theorem pieces_whole_smallBufs :
    ∃ r ∈ (run (.sample (.sample [1] []) []) smallBufs).reqs,
      (∃ groups : List (List Bytes), r.out.sent.flatten = groups.map List.flatten ∧
        groups.flatten <+: atoms .little r.calls) ∧
      r.out.sent.flatten.length = 1 ∧ r.out.outBufs.length = 1 ∧
      ∃ b, (r.out.requestMem {} r.loc 1).2.outBuf = some b ∧ b.data.length + 1 ≤ b.capacity := by
  have hget : (run (.sample (.sample [1] []) []) smallBufs).reqs[0]? =
    some ((run (.sample (.sample [1] []) []) smallBufs).reqs.get ⟨0, by decide⟩) := rfl
  obtain ⟨hgroups, hcalls, hroom⟩ := pieces_whole (.sample (.sample [1] []) []) smallBufs
  refine ⟨_, List.mem_of_getElem? hget, hgroups _ (List.mem_of_getElem? hget), by decide,
    by decide, ?_⟩
  have hpos : (run (.sample (.sample [1] []) []) smallBufs).pos 0 = .recvRows := by decide
  obtain ⟨req, hc⟩ := hcalls 0 _ hget (by decide) (hpos ▸ trivial)
  obtain ⟨b, hb, hle, _⟩ := hroom _ _ req _ _ {} 1 _ hc (.row 1) rfl
  exact ⟨b, hb, hle⟩

end Sys
end DrizzleNginx
