/-
# The time for receiving

While columns or rows are received, a read timer runs on the connection.  When the reading is
paused, what is left of it is saved, and when it is resumed, the timer is set to what was saved.
So a receive phase is a countdown: it starts with the timeout of the phase, time is charged while
the reading goes on, and none while it is paused.  The words in which nginx keeps its times wrap
around; they agree with the integers as long as no time is half their range or more.
-/
import DrizzleNginx.Lib.Countdown
import DrizzleNginx.Proofs.Backpressure

namespace DrizzleNginx

open Lib (Tick Gauge Countdown)

/-! ## Times -/

/-- A time as `ngx_msec_int_t`. -/
def Msec.signed (t : Msec) : ℤ := if t.toNat < 2 ^ 63 then t.toNat else t.toNat - 2 ^ 64

/-- How the module calculates with times: they wrap around, and a pause saves at least 1 ms. -/
def msecGauge : Gauge Msec where
  spend t d := t - UInt64.ofNat d
  save t := NgxEvent.timeLeft t 0

namespace Msec

/-- What a pause saves. -/
lemma signed_timeLeft (key now : Msec) :
    signed (NgxEvent.timeLeft key now) = max 1 (signed (key - now)) := by
  have hlt := (key - now).toNat_lt
  unfold NgxEvent.timeLeft
  generalize key - now = t at hlt ⊢
  split
  · next h =>
    have hmax : (max 1 t).toNat = max 1 t.toNat := by
      rw [show max 1 t = if 1 ≤ t then t else 1 from rfl, Nat.max_def]
      simp only [UInt64.le_iff_toNat_le, UInt64.toNat_one]
      split <;> rfl
    unfold signed
    rw [hmax, if_pos (by omega), if_pos h]
    omega
  · next h =>
    unfold signed
    rw [if_neg h]
    simp
    omega

lemma timeLeft_sub (key now : Msec) :
    NgxEvent.timeLeft key now = msecGauge.save (key - now) := by
  simp [msecGauge, NgxEvent.timeLeft]

lemma ofInt_toNat (t : Msec) : UInt64.ofInt t.toNat = t := by
  have hlt := t.toNat_lt
  refine UInt64.toNat_inj.mp ?_
  simp [UInt64.ofInt]
  omega

lemma ofInt_signed (t : Msec) : UInt64.ofInt (signed t) = t := by
  unfold signed
  split
  · exact ofInt_toNat t
  · have : UInt64.ofInt (t.toNat - 2 ^ 64) = UInt64.ofInt t.toNat := by
      rw [UInt64.ofInt, UInt64.ofInt, Int.sub_emod_right]
    rw [this, ofInt_toNat]

lemma signed_ofInt {x : ℤ} (hlow : -2 ^ 63 ≤ x) (hhigh : x < 2 ^ 63) :
    signed (UInt64.ofInt x) = x := by
  have hnat : (UInt64.ofInt x).toNat = (x % 2 ^ 64).toNat := by
    rw [UInt64.ofInt, UInt64.toNat_ofNat']
    omega
  unfold signed
  rw [hnat]
  split <;> omega

/-- On integers of at most half the range, the words calculate like integers. -/
lemma save_ofInt {x : ℤ} (hlow : -2 ^ 63 ≤ x) (hhigh : x < 2 ^ 63) :
    UInt64.ofInt (Gauge.int.save x) = msecGauge.save (UInt64.ofInt x) := by
  rw [← ofInt_signed (msecGauge.save (UInt64.ofInt x))]
  refine congrArg UInt64.ofInt ?_
  have h := signed_timeLeft (UInt64.ofInt x) 0
  rw [UInt64.sub_zero, signed_ofInt hlow hhigh] at h
  exact h.symm

lemma spend_ofInt (x : ℤ) (d : ℕ) :
    UInt64.ofInt (Gauge.int.spend x d) = msecGauge.spend (UInt64.ofInt x) d := by
  have hd : UInt64.ofInt (d : ℤ) = UInt64.ofNat d := by
    refine UInt64.toNat_inj.mp ?_
    rw [UInt64.ofInt, UInt64.toNat_ofNat', UInt64.toNat_ofNat']
    omega
  show UInt64.ofInt (x - d) = UInt64.ofInt x - UInt64.ofNat d
  rw [Int.sub_eq_add_neg, UInt64.ofInt_add, UInt64.ofInt_neg, hd, ← UInt64.sub_eq_add_neg]

/-- What is left of a phase, as an integer. -/
lemma signed_left {t : Msec} {ts : List Tick} (ht : t.toNat < 2 ^ 63)
    (hcharged : Countdown.charged false ts < 2 ^ 63) :
    signed (Countdown.run msecGauge t ts).left = (Countdown.run .int t.toNat ts).left := by
  have hone : (1 : ℤ) < 2 ^ 63 := by decide
  have hT : (t.toNat : ℤ) < 2 ^ 63 := by exact_mod_cast ht
  have hN : (Countdown.charged false ts : ℤ) < 2 ^ 63 := by exact_mod_cast hcharged
  have hpos : (0 : ℤ) ≤ t.toNat := Int.natCast_nonneg _
  have hrange := Countdown.meets_range hone ts { left := (t.toNat : ℤ) } (by simp only; omega) hT
  have hmap := Countdown.run_map UInt64.ofInt spend_ofInt
    (fun x (hx : -2 ^ 63 < x ∧ x < 2 ^ 63) => save_ofInt (Int.le_of_lt hx.1) hx.2) hrange
  have hbounds := Countdown.left_run_bounds hpos hT hone hN
  rw [ofInt_toNat] at hmap
  rw [hmap]
  exact signed_ofInt (Int.le_of_lt hbounds.1) hbounds.2

end Msec

/-! ## The clock -/

namespace St

variable {s s' : St} {p : Pos} {k : ℕ}

lemma TakeItem.now {w w' : Worker} {item : Item} {evicted : Option ℕ}
    (h : TakeItem w item evicted w') : w'.now = w.now := by
  cases h with
  | free => rfl
  | evict =>
    unfold Worker.freeConnection
    split <;> split <;> rfl

lemma freeConnection_now (w : Worker) (c dc : Option ℕ) : (w.freeConnection c dc).now = w.now := by
  unfold Worker.freeConnection
  split <;> split <;> rfl

lemma FreePeer.now {failed : Bool} (h : FreePeer failed s s') : s'.w.now = s.w.now := by
  cases h with
  | idle => rfl
  | saved hc hmax hfailed hr ht => exact ht.now
  | closed => exact freeConnection_now ..

lemma GetPeer.now {rc : Rc} (h : GetPeer s rc s') : s'.w.now = s.w.now := by
  cases h with
  | overflow getConn => cases getConn <;> rfl
  | create hroom h => cases h <;> rfl
  | _ => rfl

lemma outputReady_now (env : ReadyEnv) : (s.outputReady env k).2.w.now = s.w.now := by
  unfold outputReady
  split
  · rfl
  · simp only
    split
    · rfl
    · split
      · rfl
      · split
        · rfl
        · unfold pause delEvents
          simp only
          split <;> split <;> rfl

lemma enter_now (state : DbState) (timeout : Msec) : (s.enter state timeout k).w.now = s.w.now := by
  unfold enter
  split <;> rfl

lemma attach_now (env : Env) (rc : Rc) : (s.attach env rc k).2.w.now = s.w.now := by
  unfold attach
  simp only
  split
  · rfl
  · split
    · rfl
    · split <;> rfl

lemma drainOutput_now (env : Env) (timedout : Bool) :
    (s.drainOutput env timedout).2.w.now = s.w.now := by
  unfold drainOutput
  split
  · rfl
  · simp only
    split
    · rfl
    · split
      · rfl
      · split
        · rfl
        · unfold onConn
          split
          · unfold resume
            simp only
            split <;> rfl
          · rfl

lemma handleEvent_now (env : Env) (e : Event) : (s.handleEvent env e).2.w.now = s.w.now := by
  unfold handleEvent
  split
  · unfold dbHandler
    simp only
    split
    · rfl
    · split
      · rfl
      · split <;> rfl
  · split
    · exact drainOutput_now env _
    · rfl
    · rfl
  · unfold checkBrokenConnection
    split <;> rfl
  · rfl

lemma sendQuery_now (env : Env) : (s.sendQuery env k k).2.w.now = s.w.now := by
  unfold sendQuery
  simp only
  split
  · split <;> rfl
  · split <;> rfl
  · rfl
  · unfold queryOk
    split
    · split <;> rfl
    · simp only
      split <;> rfl

lemma recvCols_now (env : Env) : (s.recvCols env k k).2.w.now = s.w.now := by
  have hready := (outputReady_now (s := s.enter .recvCols s.r.loc.recvColsTimeout k) (k := k)
    env.ready).trans (enter_now .recvCols s.r.loc.recvColsTimeout)
  unfold recvCols
  simp only
  split
  · exact hready
  · split <;> exact hready

lemma recvRows_now (env : Env) : (s.recvRows env k k).2.w.now = s.w.now := by
  have hready := (outputReady_now (s := s.enter .recvRows s.r.loc.recvRowsTimeout k) (k := k)
    env.ready).trans (enter_now .recvRows s.r.loc.recvRowsTimeout)
  unfold recvRows
  simp only
  split
  · exact hready
  · split
    · exact hready
    · split
      · exact hready
      · exact hready
      · unfold rowOk
        simp only
        split
        · exact hready
        · split
          · exact hready
          · split <;> exact hready

lemma recvFields_now (env : Env) : (s.recvFields env k k).2.w.now = s.w.now := by
  have hready := outputReady_now (s := s) (k := k) env.ready
  unfold recvFields
  simp only
  split
  · exact hready
  · split <;> exact hready

/-- While the module runs, the clock stands still. -/
theorem exec_now (env : Env) (hc : Custody p s) : (s.exec env p).2.w.now = s.w.now := by
  have hon : ∀ f : ℕ → ℕ → Pos × St, (∀ j, (f j j).2.w.now = s.w.now) →
      (∃ j, s.Holds j) → (s.onConn f).2.w.now = s.w.now := by
    rintro f hf ⟨j, hj⟩
    rw [onConn_of hj.connection hj.drizzleCon]
    exact hf j
  cases p with
  | loop => rfl
  | crashed => rfl
  | handlerTail =>
    rcases handlerTail_cases s with ⟨heq, _⟩ | ⟨_, _, _, heq⟩ <;>
    · rw [exec, heq]
      rfl
  | dbdConnect =>
    rw [exec, dbdConnect]
    split
    · rfl
    · exact (getPeer_cases env.peer hc.ok.2.1.connection).now
  | dbdConnected rc =>
    rw [exec]
    unfold dbdConnected
    split
    · rfl
    · rfl
    · rfl
    · split
      · rfl
      · exact attach_now env rc
  | event ev => exact handleEvent_now env ev
  | processEvents =>
    rw [exec]
    unfold processEvents
    split
    · rfl
    · split <;> rfl
  | connect =>
    refine hon _ (fun j => ?_) hc.ok.2
    unfold connect
    simp only
    split <;> rfl
  | sendQuery => exact hon _ (fun _ => sendQuery_now env) hc.ok.2
  | recvCols => exact hon _ (fun _ => recvCols_now env) hc.ok.2
  | recvRows => exact hon _ (fun _ => recvRows_now env) hc.ok.2
  | recvFields => exact hon _ (fun _ => recvFields_now env) hc.ok.2
  | ret rc =>
    have h := processed_cases (s := s) env rc
    rw [exec]
    generalize s.processed env rc = ps at h ⊢
    obtain ⟨p', s'⟩ := ps
    cases h <;> rfl
  | done rc =>
    rw [exec]
    unfold done
    simp only
    split <;> rfl
  | next ft =>
    obtain ⟨s₁, hs₁, hnext⟩ := next_cases (s := s) ft hc.queues
    have hnow : s₁.w.now = s.w.now := by
      split at hs₁
      · rw [hs₁]
      · exact hs₁.now
    rw [exec]
    generalize s.next ft = ps at hnext ⊢
    obtain ⟨p', s'⟩ := ps
    cases hnext <;> exact hnow
  | finalize rc =>
    have hrc : rc ≠ .declined := by
      rintro rfl
      exact hc.ok
    obtain ⟨_, hfin⟩ := finalizeRequest_cases env hrc hc.queues
    obtain ⟨s₁, es, hfree, hs'⟩ := hfin.exists_freePeer
    rw [exec, hs']
    exact hfree.now

end St

/-! ## The read timer -/

/-- Whether the read timer runs for a request that is not paused when its processing stands at a
position; nothing is said if the request or the attempt is about to end. -/
def Pos.timing (p : Pos) (r : Req) : Option Bool :=
  match p with
  | .event (.db false true _) => none
  | .loop | .handlerTail | .event _ | .processEvents => some r.state.receives
  | .dbdConnect | .dbdConnected _ | .connect => some r.state.receives
  | .sendQuery => some false
  | .recvCols => some (r.state = .recvCols)
  | .recvRows => some (r.state = .recvRows)
  | .recvFields => some r.state.receives
  | .ret rc => if rc.failed then none else some r.state.receives
  | .done _ | .next _ | .finalize _ | .crashed => none

/-- The timeout of the phase. -/
def Req.receiveTimeout (r : Req) : Msec :=
  match r.state with
  | .recvCols => r.loc.recvColsTimeout
  | _ => r.loc.recvRowsTimeout

/-- The read timer runs if it has to, and only then. -/
structure Receiving (p : Pos) (r : Req) (c : Conn) : Prop where
  timer : ∀ on, p.timing r = some on → c.read.timer.isSome = on
  state : p = .sendQuery → r.state ≠ .recvCols

lemma Pos.timing_after (p : Pos) (r : Req) : (p.after r).timing r = p.timing r := by
  cases p with
  | loop =>
    unfold after settle
    cases r.inHandler <;> rfl
  | _ => rfl

namespace St

variable {s s' s₁ : St} {p : Pos} {k : ℕ} {rc : Rc}

/-- What the check of the output does to the read timer of the connection. -/
inductive Looks (s : St) (k : ℕ) : Rc → St → Prop
  | goes {rc : Rc} {s' : St} (hrc : rc = .ok ∨ rc = .error)
      (hpaused : s'.r.outputPaused = s.r.outputPaused)
      (htimer : (s'.w.conns k).read.timer = (s.w.conns k).read.timer) : Looks s k rc s'
  | pauses {rc : Rc} {s' : St} (hrc : rc = .again ∨ rc = .error) (hpaused : s'.r.outputPaused)
      (htimer : (s'.w.conns k).read.timer = none)
      (hleft : ∀ key, (s.w.conns k).read.timer = some key →
        s'.r.readTimeout = NgxEvent.timeLeft key s.w.now) : Looks s k rc s'

lemma delEvents_timer (env : ReadyEnv) :
    ((s.delEvents env k).2.w.conns k).read.timer = (s.w.conns k).read.timer ∧
      (s.delEvents env k).2.w.now = s.w.now := by
  unfold delEvents
  simp only
  split
  · exact ⟨rfl, rfl⟩
  · split <;> simp

lemma outputReady_looks (env : ReadyEnv) :
    Looks s k (s.outputReady env k).1 (s.outputReady env k).2 := by
  unfold outputReady
  split
  · exact .goes (.inl rfl) rfl rfl
  · simp only
    split
    · exact .goes (.inr rfl) rfl rfl
    · split
      · exact .goes (.inr rfl) rfl rfl
      · split
        · exact .goes (.inl rfl) rfl rfl
        · obtain ⟨s₁, hs₁⟩ : ∃ s₁, s₁ = s.setOut
            ((s.r.out.queueBuf env.link).2.outputBufs env.flush s.r.loc).2 := ⟨_, rfl⟩
          obtain ⟨htimer, hnow⟩ := delEvents_timer (s := s₁) (k := k) env
          have hr := delEvents_out (s := s₁) (k := k) env
          have hsame : (s₁.w.conns k).read.timer = (s.w.conns k).read.timer ∧ s₁.w.now = s.w.now ∧
              s₁.r.outputPaused = s.r.outputPaused := by
            rw [hs₁]
            exact ⟨rfl, rfl, rfl⟩
          rw [← hs₁]
          unfold pause
          simp only
          split
          · refine .goes (.inr rfl) ?_ (htimer.trans hsame.1)
            rw [hr]
            exact hsame.2.2
          · refine .pauses ?_ rfl ?_ fun key hkey => ?_
            · split <;> simp
            · simp [pauseReading, Conn.delTimers, NgxEvent.delTimer]
            · simp only [pauseReading, log_r, modReq_r, Req.log]
              rw [htimer, hsame.1, hkey, hnow, hsame.2.1]

/-- The state in which a function that reads the result looks at the output. -/
def looking (p : Pos) (k : ℕ) (s : St) : St :=
  match p with
  | .recvCols => s.enter .recvCols s.r.loc.recvColsTimeout k
  | .recvRows => s.enter .recvRows s.r.loc.recvRowsTimeout k
  | _ => s

/-- The read timer that runs in the phase of the second state: it has run before, or the phase has
been entered. -/
def Runs (s : St) (p : Pos) (s' : St) (key : Msec) : Prop :=
  p.timing s.r = some true ∧ s'.r.state = s.r.state ∧ s.conn.read.timer = some key ∨
  p.timing s.r = some false ∧ s'.r.state ≠ s.r.state ∧ key = s.w.now + s'.r.receiveTimeout

/-- What a step does to the time for receiving. -/
inductive Meters (s : St) (p : Pos) : Pos × St → Prop
  | ends {ps : Pos × St} (h : ps.1.timing ps.2.r = none) : Meters s p ps
  | off {ps : Pos × St} (h : ps.1.timing ps.2.r = some false)
      (hstate : ps.1 = .sendQuery → ps.2.r.state ≠ .recvCols)
      (hpaused' : ps.2.r.outputPaused = false) (htimer : ps.2.conn.read.timer = none)
      (hpaused : s.r.outputPaused = false) : Meters s p ps
  | on {ps : Pos × St} {key : Msec} (h : ps.1.timing ps.2.r = some true)
      (hpaused : s.r.outputPaused = false)
      (hpaused' : ps.2.r.outputPaused = false) (hruns : Runs s p ps.2 key)
      (htimer : ps.2.conn.read.timer = some key) : Meters s p ps
  | pauses {ps : Pos × St} {key : Msec} (h : ps.1.timing ps.2.r = some true)
      (hpaused : s.r.outputPaused = false) (hpaused' : ps.2.r.outputPaused)
      (hruns : Runs s p ps.2 key) (htimer : ps.2.conn.read.timer = none)
      (hleft : ps.2.r.readTimeout = NgxEvent.timeLeft key s.w.now) : Meters s p ps
  | waits {ps : Pos × St} (hbefore : p.timing s.r = some true)
      (h : ps.1.timing ps.2.r = some true)
      (hpaused : s.r.outputPaused) (hpaused' : ps.2.r.outputPaused)
      (hstate : ps.2.r.state = s.r.state) (htimer : ps.2.conn.read.timer = none)
      (hleft : ps.2.r.readTimeout = s.r.readTimeout) : Meters s p ps
  | resumes {ps : Pos × St} (hbefore : p.timing s.r = some true)
      (h : ps.1.timing ps.2.r = some true) (hpaused : s.r.outputPaused)
      (hpaused' : ps.2.r.outputPaused = false) (hstate : ps.2.r.state = s.r.state)
      (htimer : ps.2.conn.read.timer = some (s.w.now + s.r.readTimeout)) : Meters s p ps

/-- Nothing happens that matters for the read timer. -/
lemma Receiving.same (h : Receiving p s.r s.conn) (hpaused : s.r.outputPaused = false)
    {ps : Pos × St} (htiming : ps.1.timing ps.2.r = p.timing s.r)
    (hstate : ps.2.r.state = s.r.state) (hpaused' : ps.2.r.outputPaused = s.r.outputPaused)
    (htimer : ps.2.conn.read.timer = s.conn.read.timer) (hsend : ps.1 ≠ .sendQuery) :
    Meters s p ps := by
  have hpaused' := hpaused'.trans hpaused
  cases hon : p.timing s.r with
  | none => exact .ends (htiming.trans hon)
  | some on =>
    have hsome := h.timer on hon
    cases on with
    | false =>
      refine .off (htiming.trans hon) (fun hp => absurd hp hsend) hpaused' (htimer.trans ?_) hpaused
      simpa using hsome
    | true =>
      obtain ⟨key, hkey⟩ := Option.isSome_iff_exists.mp hsome
      exact .on (htiming.trans hon) hpaused hpaused' (.inl ⟨hon, hstate, hkey⟩) (htimer.trans hkey)

/-- Behind the check of the output, the read timer runs. -/
structure Ticking (s : St) (p : Pos) (k : ℕ) (key : Msec) (s₁ : St) : Prop where
  paused : s₁.r.outputPaused = false
  timer : (s₁.w.conns k).read.timer = some key
  connection : s₁.r.connection = some k
  state : s₁.r.state = (s.looking p k).r.state
  runs : ∀ s' : St, s'.r.state = (s.looking p k).r.state → s'.r.loc = s₁.r.loc → Runs s p s' key

/-- A phase whose read timer runs on is entered, or it goes on. -/
lemma enter_runs {state : DbState} (timeout : Msec) (hk : s.r.connection = some k)
    (hon : p.timing s.r = some (decide (s.r.state = state))) (h : Receiving p s.r s.conn) :
    ∃ key, ((s.enter state timeout k).w.conns k).read.timer = some key ∧ ∀ s' : St,
      s'.r.state = state → s'.r.receiveTimeout = timeout → Runs s p s' key := by
  have hsome := h.timer _ hon
  rw [conn_of hk] at hsome
  unfold enter
  by_cases hstate : s.r.state = state
  · rw [if_neg (not_not.mpr hstate)]
    obtain ⟨key, hkey⟩ := Option.isSome_iff_exists.mp (hsome.trans (decide_eq_true hstate))
    refine ⟨key, hkey, fun s' hs' _ => .inl ⟨?_, hs'.trans hstate.symm, (conn_of hk ▸ hkey)⟩⟩
    rw [hon, decide_eq_true hstate]
  · have hnone : (s.w.conns k).read.timer = none := by simpa [hstate] using hsome
    rw [if_pos hstate]
    refine ⟨s.w.now + timeout, ?_, fun s' hs' ht => .inr ⟨?_, fun heq => ?_, by rw [ht]⟩⟩
    · simp [NgxEvent.addTimer, hnone]
    · rw [hon, decide_eq_false hstate]
    · exact hstate (heq.symm.trans hs')

/-- Wherever the output is looked at, the read timer runs. -/
lemma looking_runs (hk : s.r.connection = some k)
    (hp : p = .recvCols ∨ p = .recvRows ∨ p = .recvFields ∧ s.r.state = .recvRows)
    (h : Receiving p s.r s.conn) : ∃ key, ((s.looking p k).w.conns k).read.timer = some key ∧
      (s.looking p k).r.state.receives ∧
      ∀ s' : St, s'.r.state = (s.looking p k).r.state → s'.r.loc = s.r.loc → Runs s p s' key := by
  rcases hp with rfl | rfl | ⟨rfl, hrows⟩
  · have hstate := enter_state (s := s) (k := k) .recvCols s.r.loc.recvColsTimeout
    obtain ⟨key, hkey, hruns⟩ := enter_runs s.r.loc.recvColsTimeout hk rfl h
    refine ⟨key, hkey, hstate ▸ rfl, fun s' hs' hloc => ?_⟩
    have hs' : s'.r.state = .recvCols := hs'.trans hstate
    exact hruns s' hs' (by rw [Req.receiveTimeout, hs', hloc])
  · have hstate := enter_state (s := s) (k := k) .recvRows s.r.loc.recvRowsTimeout
    obtain ⟨key, hkey, hruns⟩ := enter_runs s.r.loc.recvRowsTimeout hk rfl h
    refine ⟨key, hkey, hstate ▸ rfl, fun s' hs' hloc => ?_⟩
    have hs' : s'.r.state = .recvRows := hs'.trans hstate
    exact hruns s' hs' (by rw [Req.receiveTimeout, hs', hloc])
  · have hreceives : s.r.state.receives := by rw [hrows]; rfl
    obtain ⟨key, hkey⟩ := Option.isSome_iff_exists.mp (h.timer true (congrArg some hreceives))
    refine ⟨key, conn_of hk ▸ hkey, hreceives, fun s' hs' _ => .inl ⟨?_, hs', hkey⟩⟩
    exact congrArg some hreceives

lemma looking_same : (s.looking p k).r.outputPaused = s.r.outputPaused ∧
    (s.looking p k).w.now = s.w.now ∧ (s.looking p k).r.loc = s.r.loc ∧
    (s.looking p k).r.connection = s.r.connection := by
  unfold looking enter
  split
  · split <;> exact ⟨rfl, rfl, rfl, rfl⟩
  · split <;> exact ⟨rfl, rfl, rfl, rfl⟩
  · exact ⟨rfl, rfl, rfl, rfl⟩

/-- Reading stops, or the read timer runs on. -/
lemma looking_meters (env : Env) (hk : s.r.connection = some k)
    (hp : p = .recvCols ∨ p = .recvRows ∨ p = .recvFields ∧ s.r.state = .recvRows)
    (hpaused : s.r.outputPaused = false) (h : Receiving p s.r s.conn)
    (hout : (s.looking p k).outputReady env.ready k = (rc, s₁)) :
    rc = .ok ∧ (∃ key, Ticking s p k key s₁) ∨ rc ≠ .ok ∧ Meters s p (.ret rc, s₁) := by
  obtain ⟨key, hkey, hreceives, hruns⟩ := looking_runs hk hp h
  obtain ⟨hpaused₀, hnow, hloc, hconn⟩ := looking_same (s := s) (p := p) (k := k)
  have hq := quiet_outputReady env.ready (hconn.trans hk)
  have hlooks := outputReady_looks (s := s.looking p k) (k := k) env.ready
  rw [hout] at hq hlooks
  have hstate : s₁.r.state = (s.looking p k).r.state := (congrArg Req.state hq.req :)
  have hloc₁ : s₁.r.loc = s.r.loc := (congrArg Req.loc hq.req :).trans hloc
  have hconn₁ : s₁.r.connection = some k :=
    ((congrArg Req.connection hq.req :).trans hconn).trans hk
  cases hlooks with
  | goes hrc hp htimer =>
    rcases hrc with rfl | rfl
    · exact .inl ⟨rfl, key, (hp.trans hpaused₀).trans hpaused, htimer.trans hkey, hconn₁, hstate,
        fun s' hs' hl => hruns s' hs' (hl.trans hloc₁)⟩
    · exact .inr ⟨nofun, .ends rfl⟩
  | pauses hrc hp htimer hleft =>
    rcases hrc with rfl | rfl
    · have hruns₁ : Runs s p s₁ key := hruns s₁ hstate hloc₁
      refine .inr ⟨nofun, .pauses ?_ hpaused hp hruns₁ ?_ ?_⟩
      · exact congrArg some (hstate ▸ hreceives)
      · rw [conn_of hconn₁]
        exact htimer
      · rw [hleft key hkey, hnow]
    · exact .inr ⟨nofun, .ends rfl⟩

namespace Ticking

variable {key : Msec}

/-- The read timer runs on behind a call of the library. -/
lemma on (h : Ticking s p k key s₁) (hpaused : s.r.outputPaused = false) {ps : Pos × St}
    (hon : ps.1.timing ps.2.r = some true) (hstate : ps.2.r.state = s₁.r.state)
    (hloc : ps.2.r.loc = s₁.r.loc) (hconn : ps.2.r.connection = s₁.r.connection)
    (hpaused' : ps.2.r.outputPaused = s₁.r.outputPaused)
    (htimer : (ps.2.w.conns k).read.timer = (s₁.w.conns k).read.timer) : Meters s p ps := by
  refine .on hon hpaused (hpaused'.trans h.paused) (h.runs _ (hstate.trans h.state) hloc) ?_
  rw [conn_of (hconn.trans h.connection)]
  exact htimer.trans h.timer

/-- The read timer is deleted. -/
lemma off (h : Ticking s p k key s₁) (hpaused : s.r.outputPaused = false) {ps : Pos × St}
    (hoff : ps.1.timing ps.2.r = some false) (hstate : ps.1 = .sendQuery → ps.2.r.state ≠ .recvCols)
    (hconn : ps.2.r.connection = s₁.r.connection)
    (hpaused' : ps.2.r.outputPaused = s₁.r.outputPaused)
    (htimer : (ps.2.w.conns k).read.timer = none) : Meters s p ps := by
  refine .off hoff hstate (hpaused'.trans h.paused) ?_ hpaused
  rw [conn_of (hconn.trans h.connection)]
  exact htimer

end Ticking

lemma meters_recvCols (env : Env) (hk : s.r.connection = some k)
    (hpaused : s.r.outputPaused = false) (h : Receiving .recvCols s.r s.conn) :
    Meters s .recvCols (s.recvCols env k k) := by
  have hstate₀ := enter_state (s := s) (k := k) .recvCols s.r.loc.recvColsTimeout
  obtain ⟨rc, s₁, hs₁⟩ : ∃ rc s₁, (s.looking .recvCols k).outputReady env.ready k = (rc, s₁) :=
    ⟨_, _, rfl⟩
  have hlooks := looking_meters env hk (.inl rfl) hpaused h hs₁
  unfold looking at hs₁
  unfold recvCols
  simp only [hs₁]
  rcases hlooks with ⟨rfl, key, ht⟩ | ⟨hrc, hmeters⟩
  · have hstate : s₁.r.state = .recvCols := ht.state.trans hstate₀
    rw [if_neg (not_not.mpr rfl)]
    split
    · exact ht.on hpaused (congrArg (some ∘ DbState.receives) hstate :) rfl rfl rfl rfl (by simp)
    · exact .ends rfl
    · next col _ =>
      split
      · next hrc => exact .ends (if_pos hrc)
      · exact ht.on hpaused (congrArg some (decide_eq_true hstate)) rfl rfl rfl rfl (by simp)
    · refine ht.off hpaused (congrArg some (decide_eq_false ?_)) nofun rfl rfl
        (by simp [NgxEvent.delTimer])
      exact fun heq => absurd (heq.symm.trans hstate) nofun
  · rw [if_pos hrc]
    exact hmeters

lemma meters_recvRows (env : Env) (hk : s.r.connection = some k)
    (hpaused : s.r.outputPaused = false) (h : Receiving .recvRows s.r s.conn) :
    Meters s .recvRows (s.recvRows env k k) := by
  have hstate₀ := enter_state (s := s) (k := k) .recvRows s.r.loc.recvRowsTimeout
  obtain ⟨rc, s₁, hs₁⟩ : ∃ rc s₁, (s.looking .recvRows k).outputReady env.ready k = (rc, s₁) :=
    ⟨_, _, rfl⟩
  have hlooks := looking_meters env hk (.inr (.inl rfl)) hpaused h hs₁
  unfold looking at hs₁
  unfold recvRows
  simp only [hs₁]
  rcases hlooks with ⟨rfl, key, ht⟩ | ⟨hrc, hmeters⟩
  · have hstate : s₁.r.state = .recvRows := ht.state.trans hstate₀
    have hreceives : some s₁.r.state.receives = some true := by rw [hstate]; rfl
    rw [if_neg (not_not.mpr rfl)]
    split
    · exact ht.on hpaused hreceives rfl rfl rfl rfl rfl
    · split
      · exact ht.on hpaused hreceives rfl rfl rfl rfl (by simp)
      · exact .ends rfl
      · unfold rowOk
        simp only
        split
        · next hrc => exact .ends (if_pos hrc)
        · split
          · exact ht.on hpaused hreceives rfl rfl rfl rfl (by simp)
          · split
            · refine ht.off hpaused rfl (fun _ heq => ?_) rfl rfl (by simp [NgxEvent.delTimer])
              exact absurd (heq.symm.trans hstate) nofun
            · exact .ends rfl
  · rw [if_pos hrc]
    exact hmeters

lemma meters_recvFields (env : Env) (hk : s.r.connection = some k)
    (hpaused : s.r.outputPaused = false) (hrows : s.r.state = .recvRows)
    (h : Receiving .recvFields s.r s.conn) : Meters s .recvFields (s.recvFields env k k) := by
  obtain ⟨rc, s₁, hs₁⟩ : ∃ rc s₁, (s.looking .recvFields k).outputReady env.ready k = (rc, s₁) :=
    ⟨_, _, rfl⟩
  have hlooks := looking_meters env hk (.inr (.inr ⟨rfl, hrows⟩)) hpaused h hs₁
  unfold looking at hs₁
  unfold recvFields
  simp only [hs₁]
  rcases hlooks with ⟨rfl, key, ht⟩ | ⟨hrc, hmeters⟩
  · have hstate : s₁.r.state = .recvRows := ht.state.trans hrows
    have hreceives : some s₁.r.state.receives = some true := by rw [hstate]; rfl
    rw [if_neg (not_not.mpr rfl)]
    split
    · exact ht.on hpaused hreceives rfl rfl rfl rfl (by simp)
    · exact ht.on hpaused (congrArg some (decide_eq_true hstate)) rfl rfl rfl rfl (by simp)
    · exact .ends rfl
    · split
      · next hrc => exact .ends (if_pos hrc)
      · exact ht.on hpaused hreceives rfl rfl rfl rfl (by simp)
  · rw [if_pos hrc]
    exact hmeters

lemma conn_of_none (h : s.r.connection = none) : s.conn = {} := by simp [conn, h]

lemma modWrite_readTimer (f : NgxEvent → NgxEvent) :
    (s.modWrite k f).conn.read.timer = s.conn.read.timer := by
  cases hc : s.r.connection with
  | none => rw [conn_of_none hc, conn_of_none (s := s.modWrite k f) hc]
  | some j =>
    rw [conn_of hc, conn_of (s := s.modWrite k f) hc, modWrite_w, Worker.modConn_conns]
    split
    · next hj => rw [hj]
    · rfl

lemma modRead_conn_read (hk : s.r.connection = some k) (f : NgxEvent → NgxEvent) :
    (s.modRead k f).conn.read = f s.conn.read := by
  rw [conn_of hk, conn_of (s := s.modRead k f) hk, modRead_w, Worker.modConn_conns_self]

/-- Nothing is received yet, and the read timer does not run. -/
lemma Meters.idle {ps : Pos × St} (hbefore : s.r.outputPaused = false)
    (htiming : ps.1.timing ps.2.r = some ps.2.r.state.receives)
    (hstate : ps.2.r.state.receives = false) (hpaused : ps.2.r.outputPaused = false)
    (htimer : ps.2.conn.read.timer = none) (hsend : ps.1 ≠ .sendQuery) : Meters s p ps :=
  .off (htiming.trans (congrArg some hstate)) (fun hp => absurd hp hsend) hpaused htimer hbefore

lemma meters_dbdConnect (env : Env) (hc : Custody .dbdConnect s)
    (hpaused : s.r.outputPaused = false) (h : Receiving .dbdConnect s.r s.conn)
    (hitems : ∀ item ∈ s.w.pool.cache, ∀ j, item.connection = some j →
      (s.w.conns j).read.timer = none) : Meters s .dbdConnect (s.dbdConnect env) := by
  have hnone := hc.ok.2.1.connection
  have hstate : s.r.state.receives = false := by
    have := h.timer _ rfl
    simpa [conn, hnone] using this.symm
  unfold dbdConnect
  split
  · exact .ends rfl
  · have hget := getPeer_cases env.peer hnone
    generalize s.getPeer env.peer = ps at hget ⊢
    obtain ⟨rc, s'⟩ := ps
    -- a connection from the cache
    have hcached : ∀ {s₁ : St} {item : Item}, item ∈ s.w.pool.cache → s₁.w.conns = s.w.conns →
        s₁.r.connection = item.connection → s₁.conn.read.timer = none := by
      intro s₁ item hmem hconns hconn
      obtain ⟨j, hj⟩ := hc.items item hmem
      rw [conn_of (hconn.trans hj.connection), hconns]
      exact hitems item hmem j hj.connection
    have hfresh : ∀ {s₁ : St}, s₁.r.connection = none → s₁.conn.read.timer = none := fun h₁ => by
      rw [conn_of_none h₁]
    cases hget with
    | single hmax hsingle hcache =>
      exact .idle hpaused rfl hstate hpaused
        (hcached (hcache ▸ List.mem_cons_self) rfl rfl) (by simp)
    | multi hmax hmulti hcache =>
      exact .idle hpaused rfl hstate hpaused
        (hcached (hcache ▸ List.mem_append_right _ List.mem_cons_self) rfl rfl) (by simp)
    | busy => exact .idle hpaused rfl hstate hpaused (hfresh hnone) (by simp)
    | overflow getConn =>
      cases getConn with
      | true =>
        have hconn : (s.picked.rejectOverflow true).2.conn = { fd := some 0 } :=
          (conn_of rfl).trans (Function.update_self _ _ _)
        exact .idle hpaused rfl hstate hpaused
          (congrArg (fun c : Conn => c.read.timer) hconn :) (by simp)
      | false => exact .idle hpaused rfl hstate hpaused (hfresh rfl) (by simp)
    | create hroom hcreate =>
      cases hcreate with
      | noMemory => exact .idle hpaused rfl hstate hpaused (hfresh hnone) (by simp)
      | refused hrc hcon hs =>
        refine .idle hpaused rfl ?_ hpaused (hfresh rfl) (by simp)
        rcases hs with rfl | rfl | rfl
        · exact hstate
        · rfl
        · rfl
      | @fresh _ con state hrc hcon =>
        have hconn : (s.picked.addCon con 1 (some s.picked.w.nconns) (some s.picked.w.nconns)
            state).conn = con := (conn_of rfl).trans (Function.update_self _ _ _)
        refine .idle hpaused rfl ?_ hpaused ?_ (by simp)
        · rcases hrc with ⟨_, rfl⟩ | ⟨_, rfl⟩ <;> rfl
        · exact (congrArg (fun c : Conn => c.read.timer) hconn :).trans hcon.timer

lemma meters_dbdConnected (env : Env) {rc : Rc} (hpaused : s.r.outputPaused = false)
    (h : Receiving (.dbdConnected rc) s.r s.conn) :
    Meters s (.dbdConnected rc) (s.dbdConnected env rc) := by
  unfold dbdConnected
  split
  · exact .ends rfl
  · exact .ends rfl
  · exact .ends rfl
  · split
    · exact .ends rfl
    · next k hk =>
      unfold attach
      simp only
      split
      · exact .ends rfl
      · split
        · exact .ends rfl
        · split
          · exact Receiving.same h hpaused rfl rfl rfl (modWrite_readTimer _) nofun
          · exact Receiving.same h hpaused rfl rfl rfl rfl nofun

lemma meters_handleEvent (env : Env) {e : Event} (hk : s.r.connection = some k)
    (hpaused : s.r.outputPaused = false) (hhandler : s.r.writeHandler ≠ .drainOutput)
    (h : Receiving (.event e) s.r s.conn) : Meters s (.event e) (s.handleEvent env e) := by
  cases e with
  | db write timedout broken =>
    simp only [handleEvent, dbHandler, modReq_r, hk]
    split
    · exact .ends rfl
    · next htime =>
      obtain rfl : timedout = false := by simpa using htime
      split
      · exact .ends rfl
      · exact Receiving.same h hpaused (by cases write <;> rfl) rfl rfl rfl (by simp)
  | clientWrite timedout =>
    unfold handleEvent
    simp only
    split
    · next hdrain => exact absurd hdrain hhandler
    · exact Receiving.same h hpaused rfl rfl rfl rfl (by simp)
    · exact Receiving.same h hpaused rfl rfl rfl rfl (by simp)
  | clientClosed delEvent =>
    simp only [handleEvent, checkBrokenConnection]
    split <;> exact .ends rfl
  | cleanup => exact .ends rfl

lemma meters_processEvents (hpaused : s.r.outputPaused = false)
    (h : Receiving .processEvents s.r s.conn) :
    Meters s .processEvents s.processEvents := by
  have htimer : s.r.state.receives = false → s.conn.read.timer = none := fun hs => by
    simpa [hs] using h.timer _ rfl
  unfold processEvents
  rw [if_neg (by simp [hpaused])]
  split
  · exact Receiving.same h hpaused rfl rfl rfl rfl (by simp)
  · next hs => exact .off rfl (fun _ => by simp [hs]) hpaused (htimer (by rw [hs]; rfl)) hpaused
  · next hs => exact .off rfl (fun _ => by simp [hs]) hpaused (htimer (by rw [hs]; rfl)) hpaused
  · next hs =>
    refine Receiving.same h hpaused ?_ rfl rfl rfl (by simp)
    simp [Pos.timing, hs, DbState.receives]
  · next hs =>
    refine Receiving.same h hpaused ?_ rfl rfl rfl (by simp)
    simp [Pos.timing, hs, DbState.receives]

lemma meters_connect (env : Env) (hpaused : s.r.outputPaused = false)
    (hstate : s.r.state = .connect) (h : Receiving .connect s.r s.conn) :
    Meters s .connect (s.connect env k k) := by
  have htimer : s.conn.read.timer = none := by
    simpa [hstate, DbState.receives] using h.timer _ rfl
  unfold connect
  simp only
  split
  · exact Receiving.same h hpaused rfl rfl rfl rfl (by simp)
  · exact .ends rfl
  · exact .off rfl (fun _ heq => absurd (heq.symm.trans hstate) (by simp)) hpaused
      ((modWrite_readTimer _).trans htimer) hpaused

lemma meters_sendQuery (env : Env) (hk : s.r.connection = some k)
    (hpaused : s.r.outputPaused = false) (h : Receiving .sendQuery s.r s.conn) :
    Meters s .sendQuery (s.sendQuery env k k) := by
  have hstate := h.state rfl
  have htimer : (s.w.conns k).read.timer = none := by
    simpa [conn_of hk] using h.timer _ rfl
  -- the columns are going to be read, or the query is sent, perhaps another one
  have hoff : ∀ {ps : Pos × St}, ps.1.timing ps.2.r = some false →
      (ps.1 = .sendQuery → ps.2.r.state ≠ .recvCols) → ps.2.r.outputPaused = s.r.outputPaused →
      ps.2.r.connection = s.r.connection →
      (ps.2.w.conns k).read.timer = (s.w.conns k).read.timer → Meters s .sendQuery ps := by
    intro ps hoff hsend hp hconn ht
    refine .off hoff hsend (hp.trans hpaused) ?_ hpaused
    rw [conn_of (hconn.trans hk)]
    exact ht.trans htimer
  unfold sendQuery
  simp only
  split
  · split
    · next hs =>
      refine hoff ?_ nofun rfl rfl (by simp [queried])
      have : s.r.state = .sendQuery := hs
      exact congrArg (some ∘ DbState.receives) this
    · exact hoff rfl nofun rfl rfl (by simp [queried])
  · split
    · exact hoff rfl (fun _ => hstate) rfl rfl (by simp [queried])
    · exact .ends rfl
  · exact .ends rfl
  · unfold queryOk
    split
    · split
      · exact .ends rfl
      · exact hoff rfl (fun _ => nofun) rfl rfl (by simp [queried])
    · simp only
      split
      · next hrc => exact .ends (if_pos hrc)
      · split
        · exact .ends rfl
        · exact hoff (congrArg some (decide_eq_false hstate)) nofun rfl rfl (by simp [queried])

lemma meters_next {ft : Ft} (hc : Custody (.next ft) s) (hpaused : s.r.outputPaused = false) :
    Meters s (.next ft) (s.next ft) := by
  obtain ⟨s₁, hs₁, hnext⟩ := next_cases (s := s) ft hc.queues
  have hsame : s₁.r.outputPaused = s.r.outputPaused := by
    split at hs₁
    · rw [hs₁]
    · cases hs₁ <;> rfl
  have hnone := connection_next {} hc
  rw [exec] at hnone
  generalize s.next ft = ps at hnext hnone ⊢
  obtain ⟨p', s'⟩ := ps
  cases hnext with
  | stop => exact .ends rfl
  | retry =>
    refine .idle hpaused rfl rfl (hsame.trans hpaused) ?_ (by simp)
    rw [conn_of_none hnone]

/-- A step of a request that is not paused. -/
lemma meters_of_running (env : Env) (hc : Custody p s) {t : Talk} (hs : Session p s.r t)
    (hlive : (s.exec env p).2.r.live) (hpaused : s.r.outputPaused = false)
    (hhandler : s.r.writeHandler ≠ .drainOutput)
    (hitems : ∀ item ∈ s.w.pool.cache, ∀ j, item.connection = some j →
      (s.w.conns j).read.timer = none)
    (h : Receiving p s.r s.conn) : Meters s p (s.exec env p) := by
  have hfits := hs.fits (live_of_exec env hc hlive)
  cases p with
  | loop => exact Receiving.same h hpaused rfl rfl rfl rfl fun hp => Pos.noConfusion hp
  | crashed => exact .ends rfl
  | handlerTail =>
    rcases handlerTail_cases s with ⟨heq, _⟩ | ⟨_, _, _, heq⟩
    · rw [exec, heq]
      exact Receiving.same h hpaused rfl rfl rfl rfl (by simp)
    · rw [exec, heq]
      exact .ends rfl
  | dbdConnect => exact meters_dbdConnect env hc hpaused h hitems
  | dbdConnected rc => exact meters_dbdConnected env hpaused h
  | event e =>
    obtain ⟨j, hj⟩ := connection_of_event hc
    exact meters_handleEvent env hj hpaused hhandler h
  | processEvents => exact meters_processEvents hpaused h
  | connect =>
    obtain ⟨_, j, hj⟩ := hc.ok
    rw [exec, onConn_of hj.connection hj.drizzleCon]
    exact meters_connect env hpaused hfits.1 h
  | sendQuery =>
    obtain ⟨_, j, hj⟩ := hc.ok
    rw [exec, onConn_of hj.connection hj.drizzleCon]
    exact meters_sendQuery env hj.connection hpaused h
  | recvCols =>
    obtain ⟨_, j, hj⟩ := hc.ok
    rw [exec, onConn_of hj.connection hj.drizzleCon]
    exact meters_recvCols env hj.connection hpaused h
  | recvRows =>
    obtain ⟨_, j, hj⟩ := hc.ok
    rw [exec, onConn_of hj.connection hj.drizzleCon]
    exact meters_recvRows env hj.connection hpaused h
  | recvFields =>
    obtain ⟨_, j, hj⟩ := hc.ok
    rw [exec, onConn_of hj.connection hj.drizzleCon]
    exact meters_recvFields env hj.connection hpaused hfits.2.1 h
  | ret rc =>
    have hcases := processed_cases (s := s) env rc
    rw [exec]
    generalize s.processed env rc = ps at hcases ⊢
    obtain ⟨p', s'⟩ := ps
    cases hcases with
    | waits hrc =>
      refine Receiving.same h hpaused ?_ rfl rfl rfl (by simp)
      exact (if_neg (by simp [hrc])).symm
    | _ => exact .ends rfl
  | done rc =>
    obtain ⟨_, _, hpos, _⟩ := done_cases (s := s) env rc
    refine .ends ?_
    rw [exec, hpos]
    rfl
  | next ft => exact meters_next hc hpaused
  | finalize rc => exact absurd ((exec_finalize env hc).2.symm.trans hlive) Bool.false_ne_true

/-- A step of a request whose reading is paused. -/
lemma meters_of_paused (env : Env) (hc : Custody p s) {t : Talk} (hs : Session p s.r t)
    (hlive : (s.exec env p).2.r.live) (hpaused : s.r.outputPaused)
    (hwaiting : Waiting p s.r s.conn) : Meters s p (s.exec env p) := by
  have hstarted := hs.started hwaiting.called
  -- the request goes on waiting
  have hwaits : ∀ {ps : Pos × St}, p.timing s.r = some s.r.state.receives → p.ends = false →
      ps.1.timing ps.2.r = some ps.2.r.state.receives → ps.2.r.state = s.r.state →
      ps.2.r.outputPaused = s.r.outputPaused → ps.2.conn.read.timer = s.conn.read.timer →
      ps.2.r.readTimeout = s.r.readTimeout → Meters s p ps := by
    intro ps hbefore hends h hstate hp ht hleft
    refine .waits ?_ ?_ hpaused (hp.trans hpaused) hstate (ht.trans (hwaiting.suspended hends).read)
      hleft
    · rw [hbefore, hwaiting.state]
    · rw [h, hstate, hwaiting.state]
  have hpos := hwaiting.pos
  cases p with
  | loop => exact hwaits rfl rfl rfl rfl rfl rfl rfl
  | handlerTail =>
    rcases handlerTail_cases s with ⟨heq, _⟩ | ⟨_, _, _, heq⟩
    · rw [exec, heq]
      exact hwaits rfl rfl rfl rfl rfl rfl rfl
    · rw [exec, heq]
      exact .ends rfl
  | event e =>
    obtain ⟨j, hj⟩ := holds_of_event hc hstarted
    cases e with
    | db write timedout broken =>
      simp only [exec, handleEvent, dbHandler, modReq_r, hj.connection]
      split
      · exact .ends rfl
      · next htime =>
        obtain rfl : timedout = false := by simpa using htime
        split
        · exact .ends rfl
        · exact hwaits (by cases write <;> rfl) rfl rfl rfl rfl rfl rfl
    | clientWrite timedout =>
      have hsus := hwaiting.suspended rfl
      simp only [exec, handleEvent, hsus.handler]
      unfold drainOutput
      split
      · exact .ends rfl
      · simp only
        split
        · split
          · exact hwaits rfl rfl rfl rfl rfl rfl rfl
          · exact .ends rfl
        · split
          · exact .ends rfl
          · split
            · split
              · exact hwaits rfl rfl rfl rfl rfl rfl rfl
              · exact .ends rfl
            · -- the reading is resumed
              rw [onConn_of (s := s.setOut ((s.r.out.endDelay timedout).outputBufs env.flush
                s.r.loc).2) hj.connection hj.drizzleCon]
              unfold resume
              simp only
              split
              · exact .ends rfl
              · refine .resumes (congrArg some hwaiting.state) (congrArg some hwaiting.state)
                  hpaused rfl rfl ?_
                refine Eq.trans (congrArg NgxEvent.timer (modRead_conn_read ?_ _)) ?_
                · exact hj.connection
                · show (NgxEvent.addTimer { active := true, timer := s.conn.read.timer } s.w.now
                    s.r.readTimeout).timer = _
                  rw [hsus.read]
                  rfl
    | clientClosed delEvent =>
      simp only [exec, handleEvent, checkBrokenConnection]
      split <;> exact .ends rfl
    | cleanup => exact .ends rfl
  | processEvents =>
    rw [exec, processEvents, if_pos hpaused]
    exact hwaits rfl rfl rfl rfl rfl rfl rfl
  | ret rc =>
    have hcases := processed_cases (s := s) env rc
    rw [exec]
    generalize s.processed env rc = ps at hcases ⊢
    obtain ⟨p', s'⟩ := ps
    cases hcases with
    | waits hrc => exact hwaits (if_neg (by simp [hrc])) rfl rfl rfl rfl rfl rfl
    | _ => exact .ends rfl
  | next ft =>
    obtain ⟨s₁, hs₁, hnext⟩ := next_cases (s := s) ft hc.queues
    have hsame : s₁.r.queryStarted = s.r.queryStarted := by
      split at hs₁
      · rw [hs₁]
      · cases hs₁ <;> rfl
    rw [exec]
    generalize s.next ft = ps at hnext ⊢
    obtain ⟨p', s'⟩ := ps
    cases hnext with
    | stop => exact .ends rfl
    | retry hfalse => cases (hsame.trans hstarted).symm.trans hfalse
  | finalize rc => exact absurd ((exec_finalize env hc).2.symm.trans hlive) Bool.false_ne_true
  | _ => cases hpos

end St

/-! ## Runs -/

namespace St

variable {s : St}

/-- When an event is fired, the read timer is left alone, or it has expired. -/
lemma fire_readTimer (e : Event) (s : St) : (e.fire s).conn.read.timer = s.conn.read.timer ∨
    (∃ broken, e = .db false true broken) := by
  unfold Event.fire
  split
  · split
    · exact .inl rfl
    · next write broken _ k hk =>
      cases write with
      | true => exact .inl (modWrite_readTimer _)
      | false => exact .inr ⟨_, rfl⟩
  · exact .inl rfl
  · exact .inl rfl

end St

lemma Receiving.settle {p : Pos} {r : Req} {c : Conn} (h : Receiving p r c) :
    Receiving (p.after r) r c where
  timer on hon := h.timer on ((Pos.timing_after p r).symm.trans hon)
  state hp := h.state (Pos.eq_of_after hp nofun nofun)

/-- The read timer of requests that are not paused, as a claim about requests; the write event of
the client resumes the reading only when it is paused. -/
def Local.receiving : Local where
  req _ p r c := r.live →
    ((∀ rc, p ≠ .finalize rc) → r.writeHandler = .drainOutput → r.outputPaused) ∧
    (r.outputPaused = false → Receiving p r c)
  item _ _ c := c.read.timer = none

/-- What the steps may use about the reading. -/
structure ReadingKnown (p : Pos) (s : St) : Prop where
  known : Known p s
  backpressure : Local.backpressure.req s.w.conf p s.r s.conn

lemma Sys.readingKnown_meets (conf : Conf) (ls : List Label) :
    Lib.Meets Sys.step (RunsMeet fun _ p s => ReadingKnown p s) (init conf) ls := by
  have hknown := known_meets conf ls
  refine (RunsMeet.and hknown (Local.backpressure_kept.meets conf hknown)).mono
    fun s l h env i p r hl hact hi => ?_
  obtain ⟨hk, hb⟩ := h env i p r hl hact hi
  exact ⟨hk, hb.1⟩

namespace St

variable {s : St} {p : Pos}

/-- Behind a step that does not pause the reading, the write event of the client does not resume
it. -/
lemma handler_exec (env : Env) (hc : Custody p s) (hlive : (s.exec env p).2.r.live)
    (hd : ReadingKnown p s) (h : s.r.writeHandler = .drainOutput → s.r.outputPaused)
    (hfinal : ∀ rc, (s.exec env p).1 ≠ .finalize rc)
    (hdrain : (s.exec env p).2.r.writeHandler = .drainOutput) :
    (s.exec env p).2.r.outputPaused := by
  have hlive₀ := live_of_exec env hc hlive
  obtain ⟨t, hs⟩ := hd.known.session
  have hflows := hs.flows env hc hlive₀
  have hsame : ∀ {s' : St}, s'.r.flow = s.r.flow → s'.r.writeHandler = .drainOutput →
      s'.r.outputPaused := fun hf hdrain => by
    have hhandler : s.r.writeHandler = .drainOutput :=
      (congrArg (fun f : Bool × WriteHandler × NgxEvent => f.2.1) hf :).symm.trans hdrain
    exact (congrArg Prod.fst hf :).trans (h hhandler)
  cases hflows with
  | even hp heven => exact hsame heven.flow hdrain
  | released hp hflow => exact hsame hflow hdrain
  | reads hp hk hreads =>
    generalize s.exec env p = ps at hreads hdrain ⊢
    cases hreads with
    | even heven => exact hsame heven.flow hdrain
    | paused hpauses hwait => exact hwait.paused
    | failed hfail =>
      rcases hfail with hflow | hwait
      · exact hsame hflow hdrain
      · exact hwait.paused
  | @drains k timedout hp hk hhandler hdrains =>
    generalize s.exec env p = ps at hdrains hdrain hfinal ⊢
    obtain ⟨p', s'⟩ := ps
    cases hdrains with
    | @failed rc => exact absurd rfl (hfinal rc)
    | waits hq ho hw hpaused => exact hpaused.trans (h hhandler)
    | resumed hq ho hw hp htimer hempty => exact absurd (hempty.symm.trans hdrain) nofun

/-- What a step does to the time for receiving: there are no other cases. -/
theorem meters_exec (env : Env) (hc : Custody p s) (hlive : (s.exec env p).2.r.live)
    (hd : ReadingKnown p s) (h : Local.receiving.req s.w.conf p s.r s.conn)
    (hitems : Local.receiving.Items s.w) : Meters s p (s.exec env p) := by
  have hlive₀ := live_of_exec env hc hlive
  obtain ⟨t, hs⟩ := hd.known.session
  obtain ⟨hhandler, hreceiving⟩ := h hlive₀
  cases hpaused : s.r.outputPaused with
  | true => exact meters_of_paused env hc hs hlive hpaused (hd.backpressure hlive₀ hpaused)
  | false =>
    refine meters_of_running env hc hs hlive hpaused ?_ hitems (hreceiving hpaused)
    intro heq
    refine absurd (hpaused.symm.trans (hhandler ?_ heq)) Bool.false_ne_true
    rintro rc rfl
    exact absurd ((exec_finalize env hc).2.symm.trans hlive) Bool.false_ne_true

end St

lemma Local.receiving_kept : Local.receiving.Kept fun _ p s => ReadingKnown p s where
  init w id a p hp _ := by
    refine ⟨fun _ => nofun, fun _ => ⟨?_, ?_⟩⟩
    · rcases hp with rfl | rfl
      · rintro _ ⟨⟩
        rfl
      · nofun
    · rcases hp with rfl | rfl <;> nofun
  fire ev s _ _ h hlive := by
    obtain ⟨⟨cw, hr⟩, _⟩ := St.fire_cases ev s
    obtain ⟨hhandler, hreceiving⟩ := h ((congrArg Req.live hr :).symm.trans hlive)
    have hsame : (ev.fire s).r.writeHandler = s.r.writeHandler ∧
        (ev.fire s).r.outputPaused = s.r.outputPaused ∧ (ev.fire s).r.state = s.r.state :=
      ⟨(congrArg Req.writeHandler hr :), (congrArg Req.outputPaused hr :),
        (congrArg Req.state hr :)⟩
    rw [hsame.1, hsame.2.1]
    refine ⟨fun _ => hhandler nofun, fun hpaused => ⟨fun on hon => ?_, nofun⟩⟩
    have hloop := (hreceiving hpaused).timer _ rfl
    rcases St.fire_readTimer ev s with htimer | ⟨broken, rfl⟩
    · have hon : some (ev.fire s).r.state.receives = some on := by
        cases ev with
        | db write timedout broken =>
          cases write <;> cases timedout <;> first | exact hon | cases hon
        | _ => exact hon
      rw [htimer, hloop, ← hsame.2.2]
      exact Option.some.inj hon
    · cases hon
  client _ p _ _ _ h hlive := by
    obtain ⟨hhandler, hreceiving⟩ := h hlive
    refine ⟨hhandler, fun hpaused => ⟨fun on hon => ?_, (hreceiving hpaused).state⟩⟩
    refine (hreceiving hpaused).timer on ?_
    cases p <;> exact hon
  exec env p s hc hd h hitems hlive := by
    have hmeters := St.meters_exec env hc hlive hd h hitems
    have hfinalize : ∀ rc, p ≠ .finalize rc := by
      rintro rc rfl
      exact absurd ((St.exec_finalize env hc).2.symm.trans hlive) Bool.false_ne_true
    have hhandler := (h (St.live_of_exec env hc hlive)).1 hfinalize
    refine ⟨fun hfinal => St.handler_exec env hc hlive hd hhandler (Pos.ne_finalize_after hfinal),
      fun hpaused => Receiving.settle ?_⟩
    have hsend : ∀ {p' : Pos} {r' : Req}, p'.timing r' = some true → p' ≠ .sendQuery := by
      rintro _ _ hon rfl
      cases hon
    generalize s.exec env p = ps at hmeters hpaused ⊢
    cases hmeters with
    | ends h =>
      refine ⟨fun on hon => absurd (h.symm.trans hon) nofun, fun hp => ?_⟩
      rw [hp] at h
      cases h
    | off hoff hstate _ htimer _ =>
      refine ⟨fun on hon => ?_, hstate⟩
      rw [htimer, ← Option.some.inj (hoff.symm.trans hon)]
      rfl
    | on hon _ _ _ htimer =>
      refine ⟨fun on hon' => ?_, fun hp => absurd hp (hsend hon)⟩
      rw [htimer, ← Option.some.inj (hon.symm.trans hon')]
      rfl
    | pauses _ _ hpaused' => exact absurd (hpaused.symm.trans hpaused') Bool.false_ne_true
    | waits _ _ _ hpaused' => exact absurd (hpaused.symm.trans hpaused') Bool.false_ne_true
    | resumes _ hon _ _ _ htimer =>
      refine ⟨fun on hon' => ?_, fun hp => absurd hp (hsend hon)⟩
      rw [htimer, ← Option.some.inj (hon.symm.trans hon')]
      rfl
  saved env rc s item k s' hc hd h hsaved := rfl

/-! ## Pauses -/

namespace St

variable {s : St} {p : Pos} {k : ℕ}

/-- A function that reads the result pauses the reading only where it looks at the output. -/
lemma exists_looking (env : Env) (hk : s.Holds k)
    (hp : p = .recvCols ∨ p = .recvRows ∨ p = .recvFields) :
    ∃ rc s₁, (s.looking p k).outputReady env.ready k = (rc, s₁) ∧
      (rc ≠ .ok → (s.exec env p).2 = s₁) ∧
      (rc = .ok → (s.exec env p).2.r.outputPaused = s₁.r.outputPaused) := by
  obtain ⟨rc, s₁, h⟩ : ∃ rc s₁, (s.looking p k).outputReady env.ready k = (rc, s₁) := ⟨_, _, rfl⟩
  refine ⟨rc, s₁, h, ?_⟩
  rcases hp with rfl | rfl | rfl
  · rw [looking] at h
    rw [exec, onConn_of hk.connection hk.drizzleCon]
    unfold recvCols
    simp only [h]
    split
    · next hrc => exact ⟨fun _ => rfl, fun heq => absurd heq hrc⟩
    · next hrc =>
      refine ⟨fun hne => absurd hne hrc, fun _ => ?_⟩
      split <;> rfl
  · rw [looking] at h
    rw [exec, onConn_of hk.connection hk.drizzleCon]
    unfold recvRows
    simp only [h]
    split
    · next hrc => exact ⟨fun _ => rfl, fun heq => absurd heq hrc⟩
    · next hrc =>
      refine ⟨fun hne => absurd hne hrc, fun _ => ?_⟩
      split
      · rfl
      · split
        · rfl
        · rfl
        · unfold rowOk
          simp only
          split
          · rfl
          · split
            · rfl
            · split <;> rfl
  · have h : s.outputReady env.ready k = (rc, s₁) := h
    rw [exec, onConn_of hk.connection hk.drizzleCon]
    unfold recvFields
    simp only [h]
    split
    · next hrc => exact ⟨fun _ => rfl, fun heq => absurd heq hrc⟩
    · next hrc =>
      refine ⟨fun hne => absurd hne hrc, fun _ => ?_⟩
      split <;> rfl

/-- Every pause finds the read timer set, and saves what is left of it. -/
theorem pause_armed (env : Env) (hc : Custody p s) (hd : ReadingKnown p s)
    (h : Local.receiving.req s.w.conf p s.r s.conn) (hpaused : s.r.outputPaused = false)
    (hpaused' : (s.exec env p).2.r.outputPaused) :
    ∃ k key, s.r.connection = some k ∧ ((s.looking p k).w.conns k).read.timer = some key ∧
      (s.exec env p).2.r.readTimeout = NgxEvent.timeLeft key s.w.now ∧
      (s.exec env p).2.r.state = (s.looking p k).r.state ∧
      (s.looking p k).r.state.receives := by
  have hlive : s.r.live := by
    by_contra hdead
    rw [exec_ended env hc (by simpa using hdead)] at hpaused'
    exact absurd (hpaused.symm.trans hpaused') Bool.false_ne_true
  obtain ⟨t, hs⟩ := hd.known.session
  have hsame : ∀ {s' : St}, s'.r.flow = s.r.flow → s'.r.outputPaused → False := fun hf hp =>
    absurd ((hpaused.symm.trans (congrArg Prod.fst hf :).symm).trans hp) Bool.false_ne_true
  have hflows := hs.flows env hc hlive
  cases hflows with
  | even hp heven => exact (hsame heven.flow hpaused').elim
  | released hp hflow => exact (hsame hflow hpaused').elim
  | drains hp hk hhandler hdrains =>
    exfalso
    generalize s.exec env p = ps at hdrains hpaused'
    obtain ⟨p', s'⟩ := ps
    have hfalse : s'.r.outputPaused → s.r.outputPaused := by
      cases hdrains with
      | failed hrc hq ho hp => exact hp
      | waits hq ho hw hp => exact fun h => hp.symm.trans h
      | resumed hq ho hw hp => exact fun h => absurd (hp.symm.trans h) Bool.false_ne_true
    exact absurd (hpaused.symm.trans (hfalse hpaused')) Bool.false_ne_true
  | @reads k hp hk hreads =>
    have hfits := hs.fits hlive
    have hp' : p = .recvCols ∨ p = .recvRows ∨ p = .recvFields ∧ s.r.state = .recvRows := by
      rcases hp with rfl | rfl | rfl
      · exact .inl rfl
      · exact .inr (.inl rfl)
      · exact .inr (.inr ⟨rfl, hfits.2.1⟩)
    obtain ⟨key, hkey, hreceives, _⟩ := looking_runs hk.connection hp' ((h hlive).2 hpaused)
    obtain ⟨hpaused₀, hnow, _, hconn⟩ := looking_same (s := s) (p := p) (k := k)
    obtain ⟨rc, s₁, hout, hstop, hgo⟩ := exists_looking env hk hp
    have hq := quiet_outputReady env.ready (hconn.trans hk.connection)
    have hlooks := outputReady_looks (s := s.looking p k) (k := k) env.ready
    rw [hout] at hq hlooks
    cases hlooks with
    | goes hrc hp htimer =>
      exfalso
      have hpaused₁ : (s.exec env p).2.r.outputPaused = s₁.r.outputPaused := by
        rcases hrc with rfl | rfl
        · exact hgo rfl
        · rw [hstop nofun]
      rw [hpaused₁, hp, hpaused₀, hpaused] at hpaused'
      cases hpaused'
    | pauses hrc hp htimer hleft =>
      have hs' : (s.exec env p).2 = s₁ := hstop (by rcases hrc with rfl | rfl <;> nofun)
      rw [hs']
      exact ⟨k, key, hk.connection, hkey, hnow ▸ hleft key hkey, (congrArg Req.state hq.req :),
        hreceives⟩

/-- While the reading is paused, what was saved is kept, and when it is resumed, the read timer is
set to it. -/
lemma Meters.of_paused {ps : Pos × St} (h : Meters s p ps) (hpaused : s.r.outputPaused)
    (hgoes : ps.1.timing ps.2.r ≠ none) : ps.2.r.state = s.r.state ∧
      (ps.2.r.outputPaused → ps.2.r.readTimeout = s.r.readTimeout) ∧
      (ps.2.r.outputPaused = false → ∃ key, ps.2.conn.read.timer = some key ∧
        key - s.w.now = s.r.readTimeout) := by
  cases h with
  | ends h => exact absurd h hgoes
  | off _ _ _ _ hp => exact absurd (hp.symm.trans hpaused) Bool.false_ne_true
  | on _ hp => exact absurd (hp.symm.trans hpaused) Bool.false_ne_true
  | pauses _ hp => exact absurd (hp.symm.trans hpaused) Bool.false_ne_true
  | waits _ _ _ hpaused' hstate _ hleft =>
    exact ⟨hstate, fun _ => hleft, fun hp => absurd (hp.symm.trans hpaused') Bool.false_ne_true⟩
  | resumes _ _ _ hpaused' hstate htimer =>
    refine ⟨hstate, fun hp => absurd (hpaused'.symm.trans hp) Bool.false_ne_true, fun _ =>
      ⟨_, htimer, ?_⟩⟩
    rw [UInt64.add_comm, UInt64.add_sub_cancel]

end St

/-! ## Phases -/

/-- What happens to the time for receiving when the state of a request changes; when the request
enters another state, a new phase begins. -/
def Req.follow (r r' : Req) (ts : List Tick) : List Tick :=
  let ts := if r'.state = r.state then ts else []
  if r'.outputPaused = r.outputPaused then ts
  else ts ++ [if r'.outputPaused then .pause else .resume]

namespace Sys

/-- What happens to the time for receiving of request `i` in a step: pauses, resumes, and the time
that passes.  Only the state of the request is looked at, and the clock, but no timer. -/
def follow (i : ℕ) (s s' : Sys) (ts : List Tick) : List Tick :=
  match s.reqs[i]?, s'.reqs[i]? with
  | some r, some r' =>
    let ts := r.follow r' ts
    if s'.w.now = s.w.now then ts else ts ++ [.pass (s'.w.now - s.w.now).toNat]
  | _, _ => []

/-- A step of the worker process, with an observer of request `i`. -/
def observe (i : ℕ) (s : Sys × List Tick) (l : Label) : Sys × List Tick :=
  (s.1.step l, s.1.follow i (s.1.step l) s.2)

/-- What has happened to the time for receiving of request `i` in the phase in which it is. -/
def phase (conf : Conf) (i : ℕ) (ls : List Label) : List Tick :=
  (Lib.run (observe i) (init conf, []) ls).2

end Sys

/-- The countdown of a phase, and what nginx and the module have of it: the read timer while it
runs, and `read_timeout` while it is paused. -/
structure Counts (now : Msec) (r : Req) (c : Conn) (ts : List Tick) : Prop where
  paused : (Countdown.run msecGauge r.receiveTimeout ts).paused = r.outputPaused
  saved : r.outputPaused → r.readTimeout = (Countdown.run msecGauge r.receiveTimeout ts).left
  runs : r.outputPaused = false → ∃ key, c.read.timer = some key ∧
    key - now = (Countdown.run msecGauge r.receiveTimeout ts).left

namespace Counts

variable {now : Msec} {r r' : Req} {c c' : Conn} {ts : List Tick}

lemma follow_same (hstate : r'.state = r.state) (hpaused : r'.outputPaused = r.outputPaused) :
    r.follow r' ts = ts := by simp [Req.follow, hstate, hpaused]

/-- Nothing changes that matters. -/
lemma congr (h : Counts now r c ts) (hstate : r'.state = r.state) (hloc : r'.loc = r.loc)
    (hpaused : r'.outputPaused = r.outputPaused) (hleft : r'.readTimeout = r.readTimeout)
    (htimer : c'.read.timer = c.read.timer) : Counts now r' c' ts := by
  have ht : r'.receiveTimeout = r.receiveTimeout := by rw [Req.receiveTimeout, hstate, hloc]; rfl
  refine ⟨?_, fun hp => ?_, fun hp => ?_⟩
  · rw [ht, hpaused]
    exact h.paused
  · rw [ht, hleft]
    exact h.saved (hpaused.symm.trans hp)
  · rw [ht, htimer]
    exact h.runs (hpaused.symm.trans hp)

/-- Time passes. -/
lemma pass (h : Counts now r c ts) (now' : Msec) :
    Counts now' r c (ts ++ [.pass (now' - now).toNat]) := by
  have hp := h.paused
  refine ⟨?_, fun hpaused => ?_, fun hpaused => ?_⟩ <;> rw [Countdown.run_concat]
  · rw [Countdown.step]
    split <;> exact hp
  · rw [Countdown.step, if_pos (hp.trans hpaused)]
    exact h.saved hpaused
  · rw [Countdown.step, if_neg (by rw [hp, hpaused]; exact Bool.false_ne_true)]
    obtain ⟨key, hkey, hleft⟩ := h.runs hpaused
    refine ⟨key, hkey, ?_⟩
    rw [← hleft]
    show key - now' = key - now - UInt64.ofNat (now' - now).toNat
    rw [UInt64.ofNat_toNat]
    grind

/-- A step of the module. -/
lemma of_meters {s : St} {p : Pos} {ps : Pos × St} (hm : St.Meters s p ps)
    (hloc : ps.2.r.loc = s.r.loc) (hon : ps.1.timing ps.2.r = some true)
    (h : p.timing s.r = some true → Counts s.w.now s.r s.conn ts) :
    Counts s.w.now ps.2.r ps.2.conn (s.r.follow ps.2.r ts) := by
  have htimeout : ps.2.r.state = s.r.state → ps.2.r.receiveTimeout = s.r.receiveTimeout := by
    intro hstate
    rw [Req.receiveTimeout, hstate, hloc]
    rfl
  -- the time with which a pause or the timer begins, in the phase that has been entered before
  have hbefore : ∀ {key}, s.r.outputPaused = false → St.Runs s p ps.2 key →
      (∃ ts', s.r.follow ps.2.r ts = (if ps.2.r.outputPaused then ts' ++ [.pause] else ts') ∧
        (Countdown.run msecGauge ps.2.r.receiveTimeout ts').paused = false ∧
        key - s.w.now = (Countdown.run msecGauge ps.2.r.receiveTimeout ts').left) := by
    intro key hpaused hruns
    rcases hruns with ⟨hp, hstate, hkey⟩ | ⟨_, hstate, rfl⟩
    · have hc := h hp
      obtain ⟨key', hkey', hleft⟩ := hc.runs hpaused
      obtain rfl : key = key' := Option.some.inj (hkey.symm.trans hkey')
      refine ⟨ts, ?_, ?_, ?_⟩
      · cases hp' : ps.2.r.outputPaused <;> simp [Req.follow, hstate, hpaused, hp']
      · rw [htimeout hstate, hc.paused, hpaused]
      · rw [htimeout hstate, hleft]
    · refine ⟨[], ?_, rfl, ?_⟩
      · cases hp' : ps.2.r.outputPaused <;> simp [Req.follow, hstate, hpaused, hp']
      · rw [UInt64.add_comm, UInt64.add_sub_cancel]
        rfl
  cases hm with
  | ends hends => cases hends.symm.trans hon
  | off hoff => cases hoff.symm.trans hon
  | on _ hpaused hpaused' hruns htimer =>
    obtain ⟨ts', hts, hrun, hleft⟩ := hbefore hpaused hruns
    rw [hts, hpaused', if_neg Bool.false_ne_true]
    exact ⟨hrun.trans hpaused'.symm, fun hp => absurd (hpaused'.symm.trans hp) Bool.false_ne_true,
      fun _ => ⟨_, htimer, hleft⟩⟩
  | pauses _ hpaused hpaused' hruns htimer hsaved =>
    obtain ⟨ts', hts, _, hleft⟩ := hbefore hpaused hruns
    rw [hts, if_pos hpaused']
    refine ⟨?_, fun _ => ?_, fun hp => absurd (hp.symm.trans hpaused') Bool.false_ne_true⟩ <;>
      rw [Countdown.run_concat]
    · exact hpaused'.symm
    · rw [hsaved, Msec.timeLeft_sub, hleft]
      rfl
  | waits hp _ hpaused hpaused' hstate _ hleft =>
    rw [follow_same hstate (hpaused'.trans hpaused.symm)]
    have hc := h hp
    refine ⟨?_, fun _ => ?_, fun hp => absurd (hp.symm.trans hpaused') Bool.false_ne_true⟩ <;>
      rw [htimeout hstate]
    · exact hc.paused.trans (hpaused.trans hpaused'.symm)
    · exact hleft.trans (hc.saved hpaused)
  | resumes hp _ hpaused hpaused' hstate htimer =>
    have hts : s.r.follow ps.2.r ts = ts ++ [.resume] := by
      simp [Req.follow, hstate, hpaused, hpaused']
    have hc := h hp
    rw [hts]
    refine ⟨?_, fun hp => absurd (hpaused'.symm.trans hp) Bool.false_ne_true, fun _ =>
      ⟨_, htimer, ?_⟩⟩ <;> rw [htimeout hstate, Countdown.run_concat]
    · exact hpaused'.symm
    · rw [UInt64.add_comm, UInt64.add_sub_cancel]
      exact hc.saved hpaused

end Counts

namespace Sys

variable {s s' : Sys} {i : ℕ} {r r' : Req} {ts : List Tick}

/-- As long as the read timer has to run or the reading is paused, the count of request `i` is
kept. -/
def Timed (i : ℕ) (s : Sys) (ts : List Tick) : Prop :=
  ∀ r : Req, s.reqs[i]? = some r → r.live → (s.pos i).timing r = some true →
    Counts s.w.now r (s.view r).conn ts

lemma follow_of_now (hi : s.reqs[i]? = some r) (hi' : s'.reqs[i]? = some r')
    (hnow : s'.w.now = s.w.now) : s.follow i s' ts = r.follow r' ts := by
  simp [follow, hi, hi', hnow]

/-- Nothing happens to the request that matters for the count. -/
lemma Timed.same (h : s.Timed i ts) (hi : s.reqs[i]? = some r) (hi' : s'.reqs[i]? = some r')
    (hnow : s'.w.now = s.w.now) (hlive : r'.live = r.live)
    (htiming : (s'.pos i).timing r' = some true → (s.pos i).timing r = some true)
    (hstate : r'.state = r.state) (hloc : r'.loc = r.loc)
    (hpaused : r'.outputPaused = r.outputPaused) (hleft : r'.readTimeout = r.readTimeout)
    (htimer : (s'.pos i).timing r' = some true →
      (s'.view r').conn.read.timer = (s.view r).conn.read.timer) :
    s'.Timed i (s.follow i s' ts) := by
  intro q hq hqlive hon
  obtain rfl := Option.some.inj (hi'.symm.trans hq)
  rw [follow_of_now hi hi' hnow, Counts.follow_same hstate hpaused, hnow]
  exact (h r hi (hlive.symm.trans hqlive) (htiming hon)).congr hstate hloc hpaused hleft
    (htimer hon)

/-- A step of another request. -/
lemma Timed.put_of_ne {j : ℕ} {rj : Req} {c : Prop} {ps : Pos × St} (h : s.Timed i ts)
    (ho : s.Owned) (hj : s.reqs[j]? = some rj) (hne : i ≠ j) (hpos : s.pos i = .loop)
    (hm : Moves c (s.view rj) ps.2) (hnow : ps.2.w.now = s.w.now) :
    (s.put j ps).Timed i (s.follow i (s.put j ps) ts) := by
  cases hi : s.reqs[i]? with
  | none =>
    intro r hr
    have hnone : (s.put j ps).reqs[i]? = none := (List.getElem?_set_ne hne.symm).trans hi
    exact absurd (hnone.symm.trans hr) nofun
  | some r =>
    refine h.same hi ((List.getElem?_set_ne hne.symm).trans hi) hnow rfl (fun hon => ?_) rfl rfl rfl
      rfl fun _ => congrArg (fun c : Conn => c.read.timer) (Local.conn_put_of_ne ho hj hi hne hm)
    rwa [pos_put_of_ne ps hne, ← hpos] at hon

/-- Every step keeps the count. -/
lemma Timed.step (h : s.Timed i ts) (ho : s.Owned) (hreceiving : Local.receiving.Holds s)
    {l : Label} (hd : RunsMeet (fun _ p s => ReadingKnown p s) s l) :
    (s.step l).Timed i (s.follow i (s.step l) ts) := by
  have hstep := step_cases s l
  generalize s.step l = s' at hstep ⊢
  cases hstep with
  | skip =>
    intro r hr
    rw [follow_of_now hr hr rfl, Counts.follow_same rfl rfl]
    exact h r hr
  | arrive a hidle =>
    intro r hr hlive hon
    rcases Nat.lt_trichotomy i s.reqs.length with hlt | rfl | hgt
    · have hi := (List.getElem?_append_left hlt).symm.trans hr
      refine h.same hi hr rfl rfl (fun hon => ?_) rfl rfl rfl rfl (fun _ => rfl) r hr hlive hon
      rw [pos_of_active_ne rfl (by omega)] at hon
      rwa [pos_of_idle hidle]
    · obtain rfl := Option.some.inj (List.getElem?_concat_length.symm.trans hr)
      rw [pos_of_active rfl] at hon
      exfalso
      split at hon <;> cases hon
    · exact absurd (List.getElem?_eq_none (by simp; omega) |>.symm.trans hr) nofun
  | @event j e rj hidle hj he =>
    have hm := (stays_fire e (s.view rj)).moves (c := True) (ho.custody hj).holders_le
    have hnow : (e.fire (s.view rj)).w.now = s.w.now := by
      unfold Event.fire
      split
      · split
        · rfl
        · split <;> rfl
      · rfl
      · rfl
    rcases eq_or_ne i j with rfl | hne
    · have hi' := List.getElem?_set_self (a := (e.fire (s.view rj)).r)
        (List.getElem?_eq_some_iff.mp hj).1
      obtain ⟨⟨cw, hr⟩, _⟩ := St.fire_cases e (s.view rj)
      refine h.same hj hi' hnow (congrArg Req.live hr :) (fun hon => ?_) (congrArg Req.state hr :)
        (congrArg Req.loc hr :) (congrArg Req.outputPaused hr :) (congrArg Req.readTimeout hr :)
        fun hon => ?_
      · rw [pos_put] at hon
        have hstate : (e.fire (s.view rj)).r.state = rj.state := (congrArg Req.state hr :)
        rw [pos_of_idle hidle, Pos.timing, ← hstate]
        cases e with
        | db write timedout broken =>
          cases write <;> cases timedout <;> first | exact hon | cases hon
        | _ => exact hon
      · rcases St.fire_readTimer e (s.view rj) with htimer | ⟨broken, rfl⟩
        · exact htimer
        · rw [pos_put] at hon
          cases hon
    · exact h.put_of_ne ho hj hne (pos_of_idle hidle i) hm hnow
  | @client j rj cc hj =>
    rcases eq_or_ne i j with rfl | hne
    · refine h.same hj (List.getElem?_set_self (List.getElem?_eq_some_iff.mp hj).1) rfl rfl
        (fun hon => ?_) rfl rfl rfl rfl fun _ => rfl
      have hon : (s.pos i).timing { rj with connError := true } = some true := hon
      cases hp : s.pos i <;> rw [hp] at hon <;> exact hon
    · intro r hr
      have hi := (List.getElem?_set_ne hne.symm).symm.trans hr
      exact h.same hi hr rfl rfl (fun hon => hon) rfl rfl rfl rfl (fun _ => rfl) r hr
  | idle slot stale hidle =>
    intro r hr
    refine h.same hr hr ?_ rfl (fun hon => hon) rfl rfl rfl rfl (fun _ => ?_) r hr
    · rcases closeHandler_cases s.w slot stale with heq | ⟨item, l₁, l₂, hcache, heq⟩
      · exact congrArg Worker.now heq
      · exact (congrArg Worker.now heq).trans (St.freeConnection_now _ _ _)
    · exact congrArg (fun c : Conn => c.read.timer) (Local.conn_closeHandler ho slot stale hr)
  | tick now hidle =>
    intro r hr hlive hon
    have hc := h r hr hlive hon
    have hr' : s.reqs[i]? = some r := hr
    simp only [follow, hr', Counts.follow_same rfl rfl]
    split
    · next hnow => exact hnow ▸ hc
    · exact hc.pass now
  | @run env j p rj hact hj =>
    have hc := ho.custody hj
    rw [pos_of_active hact] at hc
    have hnow := St.exec_now env hc
    rcases eq_or_ne i j with rfl | hne
    · intro r' hr' hlive hon
      obtain ⟨hlt, _⟩ := List.getElem?_eq_some_iff.mp hj
      obtain rfl := Option.some.inj ((List.getElem?_set_self hlt).symm.trans hr')
      rw [pos_put, Pos.timing_after] at hon
      have hq := hreceiving.req i rj hj
      rw [pos_of_active hact] at hq
      have hmeters := St.meters_exec env hc hlive (hd env i p rj rfl hact hj) hq hreceiving.items
      have hloc : ((s.view rj).exec env p).2.r.loc = rj.loc :=
        (congrArg Req.loc (St.exec_given env hc) :)
      rw [follow_of_now hj hr' hnow]
      have hcount := Counts.of_meters hmeters hloc hon fun hon =>
        h rj hj (St.live_of_exec env hc hlive) (by rwa [pos_of_active hact])
      exact hnow.symm ▸ hcount
    · exact h.put_of_ne ho hj hne (pos_of_active_ne hact hne) (St.exec_advances env hc).moves hnow

/-- The observer only looks on. -/
lemma observe_fst (i : ℕ) (s : Sys) (ts : List Tick) (ls : List Label) :
    (Lib.run (observe i) (s, ts) ls).1 = Lib.run step s ls := by
  induction ls generalizing s ts with
  | nil => rfl
  | cons l ls ih => exact ih _ _

lemma meets_observe {C : Sys → Label → Prop} (i : ℕ) (ts : List Tick) {s : Sys} {ls : List Label}
    (h : Lib.Meets step C s ls) : Lib.Meets (observe i) (fun x l => C x.1 l) (s, ts) ls := by
  induction ls generalizing s ts with
  | nil => trivial
  | cons l ls ih => exact ⟨h.1, ih _ h.2⟩

/-- The count is kept in all runs. -/
lemma timed_run (conf : Conf) (ls : List Label) (i : ℕ) :
    (run conf ls).Timed i (phase conf i ls) := by
  have hmeets := meets_observe i [] (readingKnown_meets conf ls)
  have h := Lib.run_invariant_of
    (I := fun x : Sys × List Tick => x.1.Owned ∧ Local.receiving.Holds x.1)
    (J := fun x : Sys × List Tick => x.1.Timed i x.2)
    (fun x l hl h => ⟨h.1.step l, Local.receiving_kept.step h.2 h.1 hl⟩)
    (fun x l hl h hj => hj.step h.1 h.2 hl) ⟨owned_init conf, Local.holds_init _ conf⟩
    (fun r hr => by simp [init] at hr) hmeets
  rw [observe_fst] at h
  exact h

end Sys

/-- How a step of a request treats the time for receiving: a pause finds the read timer set and
saves what is left of it, or 1 ms if it has been used up; while the reading is paused, what was
saved is kept, and when it is resumed, the read timer is set to it. -/
structure St.Saves (s : St) (p : Pos) (ps : Pos × St) : Prop where
  pauses : s.r.outputPaused = false → ps.2.r.outputPaused → ∃ k key, s.r.connection = some k ∧
    ((s.looking p k).w.conns k).read.timer = some key ∧
    ps.2.r.state = (s.looking p k).r.state ∧ ps.2.r.state.receives ∧
    Msec.signed ps.2.r.readTimeout = max 1 (Msec.signed (key - s.w.now))
  waits : s.r.outputPaused → ps.2.r.live → ps.1.timing ps.2.r ≠ none → ps.2.r.outputPaused →
    ps.2.r.state = s.r.state ∧ ps.2.r.readTimeout = s.r.readTimeout
  resumes : s.r.outputPaused → ps.2.r.live → ps.1.timing ps.2.r ≠ none →
    ps.2.r.outputPaused = false → ps.2.r.state = s.r.state ∧
      ∃ key, ps.2.conn.read.timer = some key ∧ key - ps.2.w.now = s.r.readTimeout

namespace Sys

/-- **The time for receiving.**  In all runs, a pause finds the read timer set, and what it saves
is what the next resume restores.  So in every phase and after any number of pauses, what is left
is the timeout less the time that passed while the reading was not paused; the read timer has it,
or `read_timeout` while the reading is paused.  In integers, it differs from that only if it had
been used up at a pause, and then it is at most 1 ms. -/
theorem receive_time (conf : Conf) (ls : List Label) :
    (∀ (env : Env) (i : ℕ) (p : Pos) (r : Req), (run conf ls).active = some (i, p) →
      (run conf ls).reqs[i]? = some r →
        ((run conf ls).view r).Saves p (((run conf ls).view r).exec env p)) ∧
    ∀ (i : ℕ) (r : Req), (run conf ls).reqs[i]? = some r → r.live →
      ((run conf ls).pos i).timing r = some true →
        let ts := phase conf i ls
        let left := Msec.signed (Countdown.run msecGauge r.receiveTimeout ts).left
        let spent := Countdown.charged false ts
        Counts (run conf ls).w.now r ((run conf ls).view r).conn ts ∧
        (r.receiveTimeout.toNat < 2 ^ 63 → spent < 2 ^ 63 →
          left = (Countdown.run .int r.receiveTimeout.toNat ts).left ∧
          (left = r.receiveTimeout.toNat - spent ∨
            r.receiveTimeout.toNat - spent < left ∧ left ≤ 1)) := by
  have ho := owned_run conf ls
  have hreceiving := Local.receiving_kept.run conf (readingKnown_meets conf ls)
  refine ⟨fun env i p r hact hi => ?_,
    fun i r hi hlive hon => ⟨timed_run conf ls i r hi hlive hon, ?_⟩⟩
  · have hc := ho.custody hi
    rw [pos_of_active hact] at hc
    have hq := hreceiving.req i r hi
    rw [pos_of_active hact] at hq
    have hd : ReadingKnown p ((run conf ls).view r) := by
      have h := readingKnown_meets conf (ls ++ [.run env])
      exact (Lib.meets_append.mp h).2.1 env i p r rfl hact hi
    have hnow := St.exec_now env hc
    refine ⟨fun hpaused hpaused' => ?_, fun hpaused hlive hgoes => ?_,
      fun hpaused hlive hgoes => ?_⟩
    · obtain ⟨k, key, hk, hkey, hleft, hstate, hreceives⟩ :=
        St.pause_armed env hc hd hq hpaused hpaused'
      refine ⟨k, key, hk, hkey, hstate, hstate ▸ hreceives, ?_⟩
      rw [hleft, Msec.signed_timeLeft]
    · have hmeters := St.meters_exec env hc hlive hd hq hreceiving.items
      obtain ⟨hstate, hwaits, _⟩ := hmeters.of_paused hpaused hgoes
      exact fun hp => ⟨hstate, hwaits hp⟩
    · have hmeters := St.meters_exec env hc hlive hd hq hreceiving.items
      obtain ⟨hstate, _, hresumes⟩ := hmeters.of_paused hpaused hgoes
      exact fun hp => ⟨hstate, hnow.symm ▸ hresumes hp⟩
  · intro ht hspent
    have hleft := Msec.signed_left ht hspent
    exact ⟨hleft, hleft ▸ Countdown.left_run _ _⟩

/-- Columns are received for 10 ms, then the reading waits for the client. -/
def pausedColumns : List Label :=
  sampleArrival (.small [7] 39) ++
    [.run { query := .ok (.sample 2) }, .run { column := .ok (some ⟨2, [65]⟩) }, .run {}, .run {},
      .run {}, .tick 10, .event 0 (.db false false false), .run {}, .run {},
      .run { column := .ok (some ⟨2, [65]⟩) }, .run {}, .run {}, .run {}, .tick 70000,
      .event 0 (.clientWrite false)]

theorem receive_time_pausedColumns :
    ∃ r, (run (.sample (.sample [1] []) []) pausedColumns).reqs[0]? = some r ∧
      phase (.sample (.sample [1] []) []) 0 pausedColumns = [.pass 10, .pause, .pass 69990] ∧
      r.readTimeout = 59990 ∧
      (Countdown.run msecGauge r.receiveTimeout [.pass 10, .pause, .pass 69990]).left = 59990 ∧
      ∃ key, (((run (.sample (.sample [1] []) []) pausedColumns).view r).exec
        { flush := { filter := { consumed := 60 } } }
        (.event (.clientWrite false))).2.conn.read.timer =
          some key ∧ key - 70000 = 59990 := by
  have hi : (run (.sample (.sample [1] []) []) pausedColumns).reqs[0]? =
      some ((run (.sample (.sample [1] []) []) pausedColumns).reqs.get ⟨0, by decide⟩) := rfl
  have hphase : phase (.sample (.sample [1] []) []) 0 pausedColumns =
      [.pass 10, .pause, .pass 69990] := by decide
  obtain ⟨hsteps, hcounts⟩ := receive_time (.sample (.sample [1] []) []) pausedColumns
  have hcount := (hcounts 0 _ hi (by decide) (by decide)).1
  rw [hphase] at hcount
  have hleft := hcount.saved (by decide)
  have hsaves := hsteps { flush := { filter := { consumed := 60 } } } 0
    (.event (.clientWrite false)) _ (by decide) hi
  obtain ⟨key, hkey, hresumed⟩ := (hsaves.resumes (by decide) (by decide) (by decide) (by decide)).2
  have hsaved : 59990 = (Countdown.run msecGauge _ _).left := hleft
  exact ⟨_, hi, hphase, by decide, hsaved.symm, key, hkey, hresumed⟩

end Sys
end DrizzleNginx
