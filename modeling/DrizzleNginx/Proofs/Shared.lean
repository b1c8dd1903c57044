/-
# Paused requests that share a client connection

A request whose reading is paused waits for a write event of its client connection, which the timer
of the connection or the end of a delay brings about.  A subrequest waits for the same event with
the same timer.  So when one of them has drained its output, and goes on, it deletes the timer of
the others: they wait without one, as they do when the timer expires for another request.
-/
import DrizzleNginx.Model.Shared
import DrizzleNginx.Proofs.Backpressure
import DrizzleNginx.Proofs.Outputs

namespace DrizzleNginx

/-! ## Client connections -/

/-- The timer of the client is handled. -/
def Pos.expires : Pos → Bool
  | event (.clientWrite true) => true
  | _ => false

/-- The write event of the client is going to be handled: its timer runs, or a delay ends. -/
def ClientConn.Awaited (c : ClientConn) : Prop := c.write.timer.isSome ∨ c.delayed

instance (c : ClientConn) : Decidable c.Awaited :=
  inferInstanceAs (Decidable (c.write.timer.isSome ∨ c.delayed))

/-- The output filter says in all its answers that writing is delayed. -/
def Env.Delays (env : Env) : Prop := ∀ flush ∈ env.flushes, flush.filter.delayed

instance (env : Env) : Decidable env.Delays :=
  inferInstanceAs (Decidable (∀ flush ∈ env.flushes, flush.filter.delayed))

namespace Out

variable {o : Out} {env : Env}

/-- Writing is delayed; the buffer that is being filled starts with its first byte. -/
structure Delayed (o : Out) : Prop where
  start : ∀ b, o.outBuf = some b → b.pos = 0
  delayed : o.delayed

/-- The module does not end a delay, except in the handler of the client's write event. -/
lemma delayed_closed (h : env.Delays) (loc : LocConf) : Closed env loc Delayed := by
  have hqueue : ∀ link o, Delayed o → Delayed (o.queueBuf link).2 := by
    intro link o ho
    unfold queueBuf
    split
    · exact ho
    · split
      · exact ho
      · split
        · exact ho
        · exact ⟨nofun, ho.delayed⟩
  refine ⟨fun o b ho hb => ho.start b hb, hqueue, fun flush hmem o ho => ?_,
    fun o b avail free n last ho hb => ⟨hb, ho.delayed⟩⟩
  obtain ⟨o₁, ho₁, hparts⟩ := outputBufs_parts flush loc hqueue
    (fun o ho => ⟨ho.start, ho.delayed⟩) ho
  have hheader : Delayed (o₁.sendHeader flush loc).2 := by
    rw [sendHeader_stream]
    exact ⟨ho₁.start, ho₁.delayed⟩
  rcases hparts with heq | ⟨heq, _⟩ | ⟨_, heq⟩
  · rw [heq]
    exact ho₁
  · rw [heq]
    exact hheader
  · have hdelayed := h flush hmem
    rw [heq]
    unfold Out.flush
    split
    · exact ⟨hheader.start, hdelayed⟩
    · exact ⟨hheader.start, hdelayed⟩

end Out

namespace St

variable {s : St} {p : Pos} {env : Env} {k : ℕ}

lemma delayed_exec (hc : Custody p s) (hp : ∀ timedout, p ≠ .event (.clientWrite timedout))
    (hm : s.r.out.Measured) (hf : env.Delays) (hd : s.r.out.delayed) :
    (s.exec env p).2.r.out.delayed := by
  have hcl := Out.delayed_closed hf s.r.loc
  have ho : s.r.out.Delayed := ⟨fun b hb => (hm.room b hb).2.1, hd⟩
  by_cases hdone : ∃ rc, p = .done rc
  · obtain ⟨rc, rfl⟩ := hdone
    obtain ⟨o, _, ho, hout⟩ := closed_done hcl rc ho
    rw [exec, hout]
    exact ho.delayed
  · refine (output_exec hc hcl ho (fun rc heq => hdone ⟨rc, heq⟩) ?_).delayed
    exact fun timedout heq => absurd heq (hp timedout)

/-- A request that handles a write event, and does not go on, leaves a timer or a delay. -/
lemma awaited_drainOutput (hk : s.Holds k) (h : s.r.clientConn.Awaited)
    (hstill : (s.drainOutput env false).2.r.writeHandler = .drainOutput) :
    (s.drainOutput env false).2.r.clientConn.Awaited := by
  unfold drainOutput at hstill ⊢
  simp only [Bool.false_and, Bool.false_eq_true, if_false, Out.endDelay] at hstill ⊢
  split
  · exact h
  · next hdelayed =>
    -- without a delay it is the timer that runs
    have htimer : s.r.clientWrite.timer.isSome := h.resolve_right hdelayed
    rw [if_neg hdelayed] at hstill
    split
    · exact .inl htimer
    · next hok =>
      rw [if_neg hok] at hstill
      split
      · simp only [ClientConn.Awaited, Req.clientConn, modReq_r]
        split
        · next hdelay => exact .inr hdelay
        · exact .inl (isSome_addTimer ..)
      · next hready =>
        rw [if_neg hready] at hstill
        generalize (s.r.out.outputBufs env.flush s.r.loc).2 = o at hstill
        rw [onConn_of (s := s.setOut o) hk.connection hk.drizzleCon] at hstill
        unfold resume at hstill
        split at hstill
        · cases hstill
        · cases hstill

/-- What the handler of a write event leaves, unless the reading is resumed. -/
lemma awaited_clientWrite (hflows : Flows s (.event (.clientWrite false))
      (s.exec env (.event (.clientWrite false))))
    (hstill : s.r.writeHandler = .drainOutput →
      (s.exec env (.event (.clientWrite false))).2.r.writeHandler = .drainOutput)
    (h : s.r.clientConn.Awaited) :
    (s.exec env (.event (.clientWrite false))).2.r.clientConn.Awaited := by
  simp only [exec, handleEvent] at hflows hstill ⊢
  split
  · next hdrain =>
    simp only [hdrain] at hflows hstill
    cases hflows with
    | even _ _ hev => exact absurd hdrain (hev false rfl)
    | released hp => cases hp
    | reads hp => rcases hp with hp | hp | hp <;> cases hp
    | drains _ hk => exact awaited_drainOutput hk h (hstill trivial)
  · exact h
  · exact h

/-- What a step for another request leaves: as long as the timer does not expire and its reading is
not resumed, the timer is not deleted, and it is the filter that ends a delay. -/
lemma awaited_exec (hc : Custody p s) (hp : p ≠ .event (.clientWrite true))
    (hstill : s.r.writeHandler = .drainOutput →
      (s.exec env p).2.r.writeHandler = .drainOutput)
    (hflows : Flows s p (s.exec env p)) (hm : s.r.out.Measured)
    (hf : s.r.out.delayed → env.Delays) (h : s.r.clientConn.Awaited) :
    (s.exec env p).2.r.clientConn.Awaited := by
  by_cases hclient : p = .event (.clientWrite false)
  · subst hclient
    exact awaited_clientWrite hflows hstill h
  have hp : ∀ timedout, p ≠ .event (.clientWrite timedout) := by
    intro timedout
    cases timedout with
    | false => exact hclient
    | true => exact hp
  rcases h with htimer | hdelayed
  · -- the timer of the client is set again at most, where the reading is paused
    have hsame : ∀ {s' : St}, s'.r.flow = s.r.flow → s'.r.clientConn.Awaited := by
      intro s' hflow
      have hwrite : s'.r.clientWrite = s.r.clientWrite :=
        (congrArg (fun f : Bool × WriteHandler × NgxEvent => f.2.2) hflow :)
      left
      rw [Req.clientConn, hwrite]
      exact htimer
    cases hflows with
    | even _ heven => exact hsame heven.flow
    | released _ hflow => exact hsame hflow
    | reads _ _ hreads =>
      generalize s.exec env p = ps at hreads ⊢
      cases hreads with
      | even heven => exact hsame heven.flow
      | paused _ hwait => exact hwait.client
      | failed hfail => exact hfail.elim hsame fun hwait => hwait.client
    | @drains _ timedout heq => exact absurd heq (hp timedout)
  · exact .inr (delayed_exec hc hp hm (hf hdelayed) hdelayed)

/-- What a step for the request itself leaves: as long as its reading is paused, and it is not
being ended, it waits for the write event. -/
lemma awaited_exec_paused {t : Talk} (hc : Custody p s) (hs : Session p s.r t)
    (hw : s.r.live → s.r.outputPaused → Waiting p s.r s.conn)
    (h : s.r.live → s.r.outputPaused → p.rests → s.r.clientConn.Awaited)
    (hlive : (s.exec env p).2.r.live) (hpaused : (s.exec env p).2.r.outputPaused)
    (hrests : ((s.exec env p).1.after (s.exec env p).2.r).rests) :
    (s.exec env p).2.r.clientConn.Awaited := by
  have hlive₀ := live_of_exec env hc hlive
  have hflows := hs.flows env hc hlive₀
  have hrests := Pos.rests_after hrests
  -- nothing is paused or resumed
  have hold : (s.exec env p).2.r.flow = s.r.flow →
      (∀ timedout, p = .event (.clientWrite timedout) → s.r.writeHandler ≠ .drainOutput) →
      (s.exec env p).2.r.clientConn.Awaited := by
    intro hflow hev
    have hpaused₀ : s.r.outputPaused := (congrArg Prod.fst hflow :).symm.trans hpaused
    have hwait := hw hlive₀ hpaused₀
    have hne : ∀ timedout, p ≠ .event (.clientWrite timedout) := by
      rintro timedout rfl
      exact hev timedout rfl (hwait.suspended rfl).handler
    obtain ⟨_, _, hrest⟩ := suspends_exec env hc hwait.pos hpaused₀
      (hs.started hwait.called) hne hlive
    obtain ⟨_, hout, hback, _⟩ := hrest (Pos.ends_of_rests hrests)
    have hwrite : (s.exec env p).2.r.clientWrite = s.r.clientWrite :=
      (congrArg (fun f : Bool × WriteHandler × NgxEvent => f.2.2) hflow :)
    have hconn := h hlive₀ hpaused₀ (hback hrests)
    simp only [ClientConn.Awaited, Req.clientConn, hout, hwrite] at hconn ⊢
    exact hconn
  cases hflows with
  | even _ heven hev => exact hold heven.flow hev
  | released hp hflow =>
    refine hold hflow ?_
    rintro timedout rfl
    cases hp
  | reads hp _ hreads =>
    have hnot : s.r.outputPaused = false := by
      by_contra hpaused₀
      have hpos := (hw hlive₀ (by simpa using hpaused₀)).pos
      rcases hp with rfl | rfl | rfl <;> cases hpos
    generalize s.exec env p = ps at hreads hpaused ⊢
    cases hreads with
    | even heven => cases (heven.outputPaused.trans hnot).symm.trans hpaused
    | paused _ hwait => exact hwait.client
    | failed hfail =>
      refine hfail.elim (fun hflow => ?_) fun hwait => hwait.client
      cases ((congrArg Prod.fst hflow :).trans hnot).symm.trans hpaused
  | drains _ _ _ hdrain =>
    generalize s.exec env p = ps at hdrain hpaused hrests ⊢
    obtain ⟨p', s'⟩ := ps
    cases hdrain with
    | failed => cases hrests
    | waits _ _ _ _ _ _ hclient => exact hclient
    | resumed _ _ _ hp => cases hp.symm.trans hpaused

end St

/-- A write event of the client that is not its timer does not change its connection. -/
lemma Event.clientConn_fire {e : Event} (he : e ≠ .clientWrite true) (s : St) :
    (e.fire s).r.clientConn = s.r.clientConn := by
  unfold fire
  split
  · split
    · rfl
    · split <;> rfl
  · exact absurd rfl he
  · rfl

/-! ## Steps -/

/-- What is known of a worker process behind each run. -/
structure Sys.Regular (s : Sys) : Prop where
  recorded : s.Recorded
  paused : Local.backpressure.Holds s
  measured : Local.pending.Holds s

lemma Sys.regular_run (conf : Conf) (ls : List Label) : (Sys.run conf ls).Regular where
  recorded := recorded_run conf ls
  paused := Local.backpressure_kept.run conf (known_meets conf ls)
  measured := Local.pending_kept.run conf (known_meets conf ls)

namespace Shared

variable {client : ℕ → ℕ} {conf : Conf} {s : Shared} {i j : ℕ} {q r : Req} {l : Label}

/-- A step is a step of the worker process, in which a request may have found its client connection
before. -/
lemma sys_step (client : ℕ → ℕ) (s : Shared) (l : Label) :
    (s.step client l).sys = s.sys ∨ (s.step client l).sys = s.sys.step l ∨
      ∃ j, (s.step client l).sys = (s.load client j).step l := by
  cases l with
  | client i c => exact .inl rfl
  | event j e => exact .inr (.inr ⟨j, rfl⟩)
  | run env =>
    simp only [step, Label.request]
    cases s.sys.active with
    | none => exact .inr (.inl rfl)
    | some jp => exact .inr (.inr ⟨jp.1, rfl⟩)
  | arrive a => exact .inr (.inl rfl)
  | idle slot stale => exact .inr (.inl rfl)
  | tick now => exact .inr (.inl rfl)

lemma reached_step (h : ∃ ms, s.sys = Sys.run conf ms) (client : ℕ → ℕ) (l : Label) :
    ∃ ms, (s.step client l).sys = Sys.run conf ms := by
  obtain ⟨ms, hms⟩ := h
  have happend : ∀ ls, Lib.run Sys.step s.sys ls = Sys.run conf (ms ++ ls) := fun ls => by
    rw [hms, Sys.run, Sys.run, Lib.run_append]
  rcases sys_step client s l with heq | heq | ⟨j, heq⟩
  · exact ⟨ms, heq.trans hms⟩
  · exact ⟨_, heq.trans (happend [l])⟩
  · exact ⟨_, heq.trans (happend [.client j (s.clients (client j)), l])⟩

/-- **What is proved of the worker process holds here.**  Whichever requests share a client
connection, the worker process is in a state that its own runs reach. -/
theorem reached_run (client : ℕ → ℕ) (conf : Conf) (ls : List Label) :
    ∃ ms, (run client conf ls).sys = Sys.run conf ms :=
  Lib.run_invariant (C := fun _ _ => True) (I := fun s : Shared => ∃ ms, s.sys = Sys.run conf ms)
    (fun _ l _ h => reached_step h client l) ⟨[], rfl⟩
    (Lib.Meets.of_forall (fun _ _ => trivial) ls _)

lemma load_of (hj : s.sys.reqs[j]? = some q) : s.load client j =
    { s.sys with reqs := s.sys.reqs.set j (q.onClient (s.clients (client j))) } := by
  simp only [load, Sys.step, hj]

lemma load_of_none (hj : s.sys.reqs[j]? = none) : s.load client j = s.sys := by
  simp only [load, Sys.step, hj]

lemma load_reqs (client : ℕ → ℕ) (hj : s.sys.reqs[j]? = some q) :
    (s.load client j).reqs[j]? = some (q.onClient (s.clients (client j))) := by
  obtain ⟨hlt, _⟩ := List.getElem?_eq_some_iff.mp hj
  rw [load_of hj]
  exact List.getElem?_set_self hlt

/-- Other requests are not concerned. -/
lemma exists_load_reqs (hi : s.sys.reqs[i]? = some r) (client : ℕ → ℕ) (j : ℕ) :
    ∃ r', (s.load client j).reqs[i]? = some r' ∧ (r' = r ∨ ∃ c, r' = r.onClient c) := by
  rcases eq_or_ne j i with rfl | hne
  · exact ⟨_, load_reqs client hi, .inr ⟨_, rfl⟩⟩
  · cases hj : s.sys.reqs[j]? with
    | none => exact ⟨r, by rw [load_of_none hj, hi], .inl rfl⟩
    | some q => exact ⟨r, by rw [load_of hj, List.getElem?_set_ne hne, hi], .inl rfl⟩

lemma regular_load (h : ∃ ms, s.sys = Sys.run conf ms) (client : ℕ → ℕ) (j : ℕ) :
    (s.load client j).Regular := by
  obtain ⟨ms, hms⟩ := h
  have hload : s.load client j = Sys.run conf (ms ++ [.client j (s.clients (client j))]) := by
    rw [load, hms, Sys.run, Sys.run, Lib.run_append]
    rfl
  exact hload ▸ Sys.regular_run conf _

/-- What a step for request `j` can be: nothing but a look at the client connection, or an event,
or a step of the module. -/
inductive Works (client : ℕ → ℕ) (s : Shared) (j : ℕ) (q : Req) : Label → Shared → Prop
  | looks (l : Label) : Works client s j q l (s.store client j (s.load client j))
  | event (e : Event) (hidle : s.sys.active = none) : Works client s j q (.event j e)
      (s.store client j ((s.load client j).put j (.event e, e.fire ((s.load client j).view q))))
  | run (env : Env) {p : Pos} (hact : s.sys.active = some (j, p)) : Works client s j q (.run env)
      (s.store client j ((s.load client j).put j (((s.load client j).view q).exec env p)))

lemma works (hl : l.request s.sys = some j) (hj : s.sys.reqs[j]? = some q) :
    Works client s j (q.onClient (s.clients (client j))) l
      (s.store client j ((s.load client j).step l)) := by
  have hreq := load_reqs client hj
  have hactive : (s.load client j).active = s.sys.active := by rw [load_of hj]
  have hstep := Sys.step_cases (s.load client j) l
  generalize (s.load client j).step l = s' at hstep ⊢
  cases hstep with
  | skip => exact .looks l
  | @event i e r hidle hi _ =>
    obtain rfl : i = j := Option.some.inj hl
    obtain rfl : r = _ := Option.some.inj (hi.symm.trans hreq)
    exact .event e (hactive.symm.trans hidle)
  | @run env i p r hact hi =>
    have hact' : s.sys.active = some (i, p) := hactive.symm.trans hact
    obtain rfl : i = j := by
      simp only [Label.request, hact'] at hl
      exact Option.some.inj hl
    obtain rfl : r = _ := Option.some.inj (hi.symm.trans hreq)
    exact .run env hact'
  | arrive => cases hl
  | client => cases hl
  | idle => cases hl
  | tick => cases hl

/-- What is found behind a step of the module for request `j`. -/
lemma stepped_reqs (hj : s.sys.reqs[j]? = some q) {env : Env} {p : Pos}
    (hact : s.sys.active = some (j, p)) : (s.step client (.run env)).sys.reqs[j]? =
      some (((s.load client j).view (q.onClient (s.clients (client j)))).exec env p).2.r := by
  obtain ⟨hlt, _⟩ := List.getElem?_eq_some_iff.mp hj
  have hreq := load_reqs client hj
  have hactive : (s.load client j).active = some (j, p) := by
    rw [load_of hj]
    exact hact
  simp only [step, Label.request, hact, Option.map_some, store, Sys.step, hactive, hreq]
  exact List.getElem?_set_self ((List.getElem?_eq_some_iff.mp hreq).1)

/-- The reading of the request is paused. -/
def Pauses (s : Shared) (i : ℕ) : Prop := ∃ r ∈ s.sys.reqs[i]?, r.live ∧ r.outputPaused

instance (s : Shared) (i : ℕ) : Decidable (s.Pauses i) :=
  inferInstanceAs (Decidable (∃ r ∈ s.sys.reqs[i]?, r.live ∧ r.outputPaused))

/-- A request whose reading is paused, and that is not being ended, waits for a write event. -/
def Awaits (client : ℕ → ℕ) (i : ℕ) (s : Shared) : Prop :=
  ∀ r, s.sys.reqs[i]? = some r → r.live → r.outputPaused → (s.sys.pos i).rests →
    (s.clients (client i)).Awaited

/-- A step of the module resumes the reading of request `j`. -/
def Resumes (client : ℕ → ℕ) (s : Shared) (env : Env) (j : ℕ) : Prop :=
  (∃ r ∈ s.sys.reqs[j]?, r.writeHandler = .drainOutput) ∧
    ∃ r ∈ (s.step client (.run env)).sys.reqs[j]?, r.writeHandler ≠ .drainOutput

instance (client : ℕ → ℕ) (s : Shared) (env : Env) (j : ℕ) : Decidable (s.Resumes client env j) :=
  inferInstanceAs (Decidable ((∃ r ∈ s.sys.reqs[j]?, r.writeHandler = .drainOutput) ∧
    ∃ r ∈ (s.step client (.run env)).sys.reqs[j]?, r.writeHandler ≠ .drainOutput))

/-- What may happen while the reading of request `i` is paused.  For no other request on its client
connection the timer expires, or the reading is resumed; where another one writes, the filter ends
no delay; and nginx leaves a timer or a delay. -/
def Undisturbed (client : ℕ → ℕ) (i : ℕ) (s : Shared) : Label → Prop
  | .event j (.clientWrite timedout) => client j = client i → j = i ∨ timedout = false
  | .client j c => client j = client i → (s.clients (client i)).Awaited → c.Awaited
  | .run env => ∀ q ∈ s.sys.active, client q.1 = client i → q.1 = i ∨
      q.2.expires = false ∧ ¬ s.Resumes client env q.1 ∧
        ((s.clients (client i)).delayed → env.Delays)
  | _ => True

instance (client : ℕ → ℕ) (i : ℕ) (s : Shared) (l : Label) :
    Decidable (Undisturbed client i s l) :=
  match l with
  | .event j (.clientWrite timedout) =>
    inferInstanceAs (Decidable (client j = client i → j = i ∨ timedout = false))
  | .client j c => inferInstanceAs (Decidable (client j = client i →
      (s.clients (client i)).Awaited → c.Awaited))
  | .run env => inferInstanceAs (Decidable (∀ q ∈ s.sys.active, client q.1 = client i → q.1 = i ∨
      q.2.expires = false ∧ ¬ s.Resumes client env q.1 ∧
        ((s.clients (client i)).delayed → env.Delays)))
  | .event _ (.db ..) => .isTrue trivial
  | .event _ (.clientClosed _) => .isTrue trivial
  | .event _ .cleanup => .isTrue trivial
  | .arrive _ => .isTrue trivial
  | .idle _ _ => .isTrue trivial
  | .tick _ => .isTrue trivial

/-- A request that finds its client connection waits like the connection. -/
lemma awaited_onClient (c : ClientConn) (r : Req) :
    (r.onClient c).clientConn.Awaited ↔ c.Awaited := Iff.rfl

lemma clients_store {s' : Sys} (hj : s'.reqs[j]? = some q) : (s.store client j s').clients =
    Function.update s.clients (client j) q.clientConn := by
  simp only [store, hj]

/-- A look at the client connection changes nothing for anybody. -/
lemma awaits_looks (hj : s.sys.reqs[j]? = some q) (h : Awaits client i s) :
    Awaits client i (s.store client j (s.load client j)) := by
  obtain ⟨hlt, _⟩ := List.getElem?_eq_some_iff.mp hj
  intro r hi hlive hpaused hrests
  have hback : ∃ r₀, s.sys.reqs[i]? = some r₀ ∧ r₀.live ∧ r₀.outputPaused := by
    simp only [store, load_of hj] at hi
    rcases eq_or_ne i j with rfl | hne
    · rw [List.getElem?_set_self hlt] at hi
      obtain rfl := Option.some.inj hi
      exact ⟨q, hj, hlive, hpaused⟩
    · rw [List.getElem?_set_ne hne.symm] at hi
      exact ⟨r, hi, hlive, hpaused⟩
  obtain ⟨r₀, hi₀, hlive₀, hpaused₀⟩ := hback
  have hpos : (s.load client j).pos i = s.sys.pos i := by rw [load_of hj]; rfl
  have hwait := h r₀ hi₀ hlive₀ hpaused₀ (hpos ▸ hrests)
  rw [clients_store (load_reqs client hj)]
  rcases eq_or_ne (client i) (client j) with heq | hne
  · rw [heq, Function.update_self, awaited_onClient, ← heq]
    exact hwait
  · rw [Function.update_of_ne hne]
    exact hwait

/-- A step for a request: it waits itself, or leaves the connection as it has to for another. -/
lemma awaits_put (hj : s.sys.reqs[j]? = some q) {ps : Pos × St} (h : Awaits client i s)
    (hloop : j ≠ i → s.sys.pos i = .loop)
    (hself : j = i → ps.2.r.live → ps.2.r.outputPaused → (ps.1.after ps.2.r).rests →
      ps.2.r.clientConn.Awaited)
    (hother : j ≠ i → client j = client i → s.Pauses i →
      (q.onClient (s.clients (client j))).clientConn.Awaited → ps.2.r.clientConn.Awaited) :
    Awaits client i (s.store client j ((s.load client j).put j ps)) := by
  obtain ⟨hlt, _⟩ := List.getElem?_eq_some_iff.mp hj
  have hput : ((s.load client j).put j ps).reqs = s.sys.reqs.set j ps.2.r := by
    rw [load_of hj]
    exact List.set_set ..
  have hreq : ((s.load client j).put j ps).reqs[j]? = some ps.2.r := by
    rw [hput]
    exact List.getElem?_set_self hlt
  intro r hi hlive hpaused hrests
  change ((s.load client j).put j ps).reqs[i]? = some r at hi
  change (((s.load client j).put j ps).pos i).rests at hrests
  rw [clients_store hreq]
  rcases eq_or_ne i j with rfl | hne
  · obtain rfl := Option.some.inj (hreq.symm.trans hi)
    rw [Sys.pos_put] at hrests
    rw [Function.update_self]
    exact hself rfl hlive hpaused hrests
  · rw [hput, List.getElem?_set_ne hne.symm] at hi
    have hwait := h r hi hlive hpaused (by rw [hloop hne.symm]; rfl)
    rcases eq_or_ne (client i) (client j) with heq | hne'
    · rw [heq, Function.update_self]
      refine hother hne.symm heq.symm ⟨r, hi, hlive, hpaused⟩ ?_
      rw [awaited_onClient, ← heq]
      exact hwait
    · rw [Function.update_of_ne hne']
      exact hwait

/-- A step for a request leaves the others waiting, if they are not disturbed. -/
lemma awaits_works (hreach : ∃ ms, s.sys = Sys.run conf ms) (hj : s.sys.reqs[j]? = some q)
    (hl : s.Pauses i → Undisturbed client i s l) (h : Awaits client i s) {s' : Shared}
    (hw : Works client s j (q.onClient (s.clients (client j))) l s') : Awaits client i s' := by
  have hreg := regular_load hreach client j
  have hreq := load_reqs client hj
  have hpos : (s.load client j).pos j = s.sys.pos j := by rw [load_of hj]; rfl
  cases hw with
  | looks => exact awaits_looks hj h
  | event e hidle =>
    refine awaits_put hj h (fun _ => Sys.pos_of_idle hidle i) ?_ ?_
    · rintro rfl hlive hpaused hrests
      have he : e ≠ .clientWrite true := by
        rintro rfl
        cases hrests
      obtain ⟨⟨cw, hr⟩, _⟩ := St.fire_cases e ((s.load client j).view
        (q.onClient (s.clients (client j))))
      have hlive₀ : q.live := (congrArg Req.live hr :).symm.trans hlive
      have hpaused₀ : q.outputPaused := (congrArg Req.outputPaused hr :).symm.trans hpaused
      rw [Event.clientConn_fire he]
      exact h q hj hlive₀ hpaused₀ (by rw [Sys.pos_of_idle hidle]; rfl)
    · intro hne hclient hpauses hwait
      have he : e ≠ .clientWrite true := by
        rintro rfl
        cases (hl hpauses hclient).resolve_left hne
      rw [Event.clientConn_fire he]
      exact hwait
  | @run env p hact =>
    have hc := hreg.recorded.owned.custody hreq
    obtain ⟨t, hs⟩ := hreg.recorded.session.req j _ hreq
    have hpaused := hreg.paused.req j _ hreq
    have hmeasured := (hreg.measured.req j _ hreq).measured
    rw [hpos, Sys.pos_of_active hact] at hc hs hpaused
    refine awaits_put hj h (fun hne => Sys.pos_of_active_ne hact hne.symm) ?_ ?_
    · rintro rfl hlive hpaused' hrests
      refine St.awaited_exec_paused hc hs hpaused (fun hlive₀ hpaused₀ hrests₀ => ?_) hlive hpaused'
        hrests
      exact h q hj hlive₀ hpaused₀ (by rw [Sys.pos_of_active hact]; exact hrests₀)
    · -- the step is for another request on the same connection
      intro hne hclient hpauses hwait
      obtain ⟨hexpires, hnot, hfilter⟩ := (hl hpauses (j, p) hact hclient).resolve_left hne
      have hp : p ≠ .event (.clientWrite true) := by
        rintro rfl
        cases hexpires
      have hstill : q.writeHandler = .drainOutput →
          ((((s.load client j).view (q.onClient (s.clients (client j)))).exec env p).2.r
            ).writeHandler = .drainOutput := by
        intro hdrain
        by_contra hempty
        exact hnot ⟨⟨q, hj, hdrain⟩, _, stepped_reqs hj hact, hempty⟩
      cases hlive : q.live with
      | false =>
        rw [St.exec_ended env hc hlive]
        exact hwait
      | true =>
        refine St.awaited_exec hc hp hstill (hs.flows env hc hlive) hmeasured
          (fun hdelayed => ?_) hwait
        exact hfilter (hclient ▸ hdelayed)

/-- A step that is not for a request. -/
lemma awaits_idle (hl : l.request s.sys = none) (hne : ∀ j c, l ≠ .client j c)
    (h : Awaits client i s) : Awaits client i { s with sys := s.sys.step l } := by
  intro r hi hlive hpaused hrests
  change (s.sys.step l).reqs[i]? = some r at hi
  change ((s.sys.step l).pos i).rests at hrests
  have hstep := Sys.step_cases s.sys l
  generalize s.sys.step l = s' at hstep hi hrests
  cases hstep with
  | skip => exact h r hi hlive hpaused hrests
  | arrive a hidle =>
    rcases Nat.lt_or_ge i s.sys.reqs.length with hlt | hge
    · rw [List.getElem?_append_left hlt] at hi
      exact h r hi hlive hpaused (by rw [Sys.pos_of_idle hidle]; rfl)
    · -- the reading of a request that arrives is not paused
      rw [List.getElem?_append_right hge] at hi
      have hr := (List.getElem?_eq_some_iff.mp hi).2
      simp only [List.getElem_singleton] at hr
      rw [← hr] at hpaused
      cases hpaused
  | event => cases hl
  | client c => exact absurd rfl (hne _ c)
  | idle slot stale hidle => exact h r hi hlive hpaused hrests
  | tick now hidle => exact h r hi hlive hpaused hrests
  | run env hact =>
    rw [Label.request, hact] at hl
    cases hl

/-- nginx changes a client connection. -/
lemma awaits_client {c : ClientConn} (hl : s.Pauses i → Undisturbed client i s (.client j c))
    (h : Awaits client i s) : Awaits client i (s.step client (.client j c)) := by
  intro r hi hlive hpaused hrests
  have hwait := h r hi hlive hpaused hrests
  rcases eq_or_ne (client i) (client j) with heq | hne
  · have hc := hl ⟨r, hi, hlive, hpaused⟩ heq.symm hwait
    simp only [step, heq, Function.update_self]
    exact hc
  · simp only [step, Function.update_of_ne hne]
    exact hwait

lemma awaits_step (hreach : ∃ ms, s.sys = Sys.run conf ms)
    (hl : s.Pauses i → Undisturbed client i s l) (h : Awaits client i s) :
    Awaits client i (s.step client l) := by
  have hworks : ∀ j, l.request s.sys = some j →
      Awaits client i (s.store client j ((s.load client j).step l)) := by
    intro j hreq
    cases hj : s.sys.reqs[j]? with
    | some q => exact awaits_works hreach hj hl h (works hreq hj)
    | none =>
      -- there is no such request
      have hsame : s.sys.step l = s.sys := by
        cases l with
        | event =>
          obtain rfl := Option.some.inj hreq
          simp only [Sys.step]
          split
          · next hi => cases hj.symm.trans hi
          · rfl
        | run env =>
          obtain ⟨⟨_, p⟩, hact, rfl⟩ := Option.map_eq_some_iff.mp hreq
          simp only [Sys.step, hact, hj]
        | _ => cases hreq
      rw [load_of_none hj, hsame, store, hj]
      exact h
  cases hreq : l.request s.sys with
  | none =>
    by_cases hclient : ∃ j c, l = .client j c
    · obtain ⟨j, c, rfl⟩ := hclient
      exact awaits_client hl h
    · have hidle := awaits_idle hreq (fun j c heq => hclient ⟨j, c, heq⟩) h
      cases l with
      | client j c => exact absurd ⟨j, c, rfl⟩ hclient
      | event => cases hreq
      | _ =>
        simp only [step, hreq]
        exact hidle
  | some j =>
    cases l with
    | event =>
      obtain rfl := Option.some.inj hreq
      exact hworks _ rfl
    | run env =>
      simp only [step, hreq]
      exact hworks j hreq
    | _ => cases hreq

/-- No step makes a call for a request whose reading is paused. -/
lemma calls_step (hreach : ∃ ms, s.sys = Sys.run conf ms) (hi : s.sys.reqs[i]? = some r)
    (hlive : r.live) (hpaused : r.outputPaused) (client : ℕ → ℕ) (l : Label) :
    ∃ r', (s.step client l).sys.reqs[i]? = some r' ∧ r'.calls = r.calls := by
  have hcalls : ∀ {s' : Sys} {r' : Req}, s'.Regular → s'.reqs[i]? = some r' → r'.live →
      r'.outputPaused → ∃ r'', (s'.step l).reqs[i]? = some r'' ∧ r''.calls = r'.calls :=
    fun hreg hi hlive hpaused =>
      Sys.calls_of_paused hreg.recorded.owned hreg.paused hreg.recorded hi hlive hpaused l
  rcases sys_step client s l with heq | heq | ⟨j, heq⟩
  · exact ⟨r, by rw [heq, hi], rfl⟩
  · obtain ⟨ms, hms⟩ := hreach
    rw [heq]
    exact hcalls (hms ▸ Sys.regular_run conf ms) hi hlive hpaused
  · obtain ⟨r', hi', hr'⟩ := exists_load_reqs hi client j
    have hreg := regular_load hreach client j
    rw [heq]
    rcases hr' with rfl | ⟨c, rfl⟩
    · exact hcalls hreg hi' hlive hpaused
    · obtain ⟨r'', hi'', hsame⟩ := hcalls hreg hi' hlive hpaused
      exact ⟨r'', hi'', hsame⟩

/-- In all states of all runs, for a request whose reading is paused: no step makes a call of the
client library for it.  As long as it is not being ended, no timer runs on its database connection,
everything that was produced has been handed to the output filter, and the write handler drains the
output.  When the output is drained, without a timeout of the client, and the filter consumes
everything, then the reading is resumed.  And the timer of the client runs, or writing is delayed,
if that of no other request on its client connection has been resumed since, and neither the timer
has expired for another one nor the filter or nginx has ended the waiting. -/
theorem paused_waits (client : ℕ → ℕ) (conf : Conf) (ls : List Label)
    (hi : (run client conf ls).sys.reqs[i]? = some r) (hlive : r.live) (hpaused : r.outputPaused) :
    (∀ l, ∃ r', ((run client conf ls).step client l).sys.reqs[i]? = some r' ∧
      r'.calls = r.calls) ∧
    (((run client conf ls).sys.pos i).ends = false → r.out.Flushed ∧
      r.writeHandler = .drainOutput ∧ ∀ k, r.connection = some k →
        ((run client conf ls).sys.w.conns k).read.timer = none ∧
        ((run client conf ls).sys.w.conns k).write.timer = none) ∧
    (∀ timedout, (run client conf ls).sys.active = some (i, .event (.clientWrite timedout)) →
      (timedout ↔ ((run client conf ls).clients (client i)).delayed) →
      ∀ env : Env, Out.Drained env.flush.filter r.out → env.handleRead →
        ((run client conf ls).step client (.run env)).sys.pos i = .processEvents ∧
        ∃ r', ((run client conf ls).step client (.run env)).sys.reqs[i]? = some r' ∧
          r'.outputPaused = false) ∧
    (Lib.Meets (step client) (fun s l => s.Pauses i → Undisturbed client i s l) (init conf) ls →
      ((run client conf ls).sys.pos i).rests →
      ((run client conf ls).clients (client i)).Awaited) := by
  have hreach := reached_run client conf ls
  refine ⟨calls_step hreach hi hlive hpaused client, ?_, ?_, fun hls hrests => ?_⟩
  · obtain ⟨ms, hms⟩ := hreach
    rw [hms] at hi ⊢
    exact (Sys.paused_run conf ms hi hlive hpaused).2.1
  · intro timedout hact htime env hd hread
    obtain ⟨ms, hms⟩ := hreach
    generalize run client conf ls = s at hms hi hact htime ⊢
    have hload : s.load client i = Sys.run conf (ms ++ [.client i (s.clients (client i))]) := by
      rw [load, hms, Sys.run, Sys.run, Lib.run_append]
      rfl
    have hstep : (s.step client (.run env)).sys = (s.load client i).step (.run env) := by
      simp only [step, Label.request, hact]
      rfl
    have hi' := load_reqs client hi
    have hact' : (s.load client i).active = some (i, .event (.clientWrite timedout)) := by
      rw [load_of hi]
      exact hact
    rw [hload] at hi' hact'
    obtain ⟨_, _, hresume⟩ := Sys.paused_run conf _ hi' hlive hpaused
    rw [hstep, hload]
    exact hresume timedout hact' htime env ⟨hd.rc, hd.buffered, hd.delayed, hd.consumed⟩ hread
  · have hinv := Lib.run_invariant_of
      (C := fun s l => s.Pauses i → Undisturbed client i s l)
      (I := fun s : Shared => ∃ ms, s.sys = Sys.run conf ms) (J := Awaits client i)
      (fun _ l _ h => reached_step h client l) (fun _ _ hl hreach h => awaits_step hreach hl h)
      ⟨[], rfl⟩ (fun _ hi => by cases hi) hls
    exact hinv r hi hlive hpaused hrests

/-- Two requests with one client connection, whose reading is paused. -/
def twoPaused : List Label :=
  Sys.sampleArrival (.small [7] 0) ++
    [.run { query := .ok (.sample 1) }, .run {}, .run {}, .run {}, .run {}] ++
  Sys.sampleArrival (.small [8] 0) ++
    [.run { query := .ok (.sample 1) }, .run {}, .run {}, .run {}, .run {}]

theorem paused_waits_twoPaused :
    ((run (fun _ => 0) (.sample (.sample [1] []) []) twoPaused).clients 0).Awaited := by
  obtain ⟨_, _, _, hawaited⟩ := paused_waits (fun _ => 0) (.sample (.sample [1] []) []) twoPaused
    (i := 0) rfl (by decide) (by decide)
  exact hawaited (by decide) (by decide)

/-- The first of them drains its output and goes on. -/
def oneDrained : List Label := twoPaused ++
  [.event 0 (.clientWrite false), .run { flush := { filter := { consumed := 64 } } },
    .run {}, .run {}, .run {}]

/-- The second one waits without a timer. -/
theorem paused_without_timer : ¬ ∀ (client : ℕ → ℕ) (conf : Conf) (ls : List Label) (i : ℕ),
    ∀ r ∈ (run client conf ls).sys.reqs[i]?, r.live → r.outputPaused →
      ((run client conf ls).sys.pos i).rests →
        ((run client conf ls).clients (client i)).Awaited := by
  intro h
  have hawaited := h (fun _ => 0) (.sample (.sample [1] []) []) oneDrained 1 _ rfl
    (by decide) (by decide) (by decide)
  exact absurd hawaited (by decide)

end Shared
end DrizzleNginx
