/-
# The client gets the stream of what has been read

At every position at which nothing has failed, the bytes handed to the output filter, with
those that wait in buffers behind them, are the stream of the answers that the request has got
from the client library.  What has been handed to the filter is a beginning of that stream in
all states, also behind failures; and it is all of it when `ngx_http_upstream_drizzle_done`
has handed over the rest.
-/
import DrizzleNginx.Proofs.Histories

namespace DrizzleNginx

/-- The arguments and the results of the final flush that the event tells of. -/
def ReqEvent.ending : ReqEvent → Option (Rc × Rc)
  | done rc flush => some (rc, flush)
  | _ => none

/-- The final flushes of a request. -/
def Req.endings (r : Req) : List (Rc × Rc) := r.hist.filterMap ReqEvent.ending

/-- The stream of the answers that a request has got. -/
def Req.answered (e : Rds.Endian) (r : Req) : Bytes := Rds.stream e (answers r.calls)

/-- Nothing has failed, or it has failed before anything was sent to the database. -/
def Pos.Whole (p : Pos) (r : Req) : Prop :=
  match p with
  | .ret rc => rc.failed → r.queryStarted = false
  | .next _ => r.queryStarted = false
  | .finalize _ => False
  | .crashed => False
  | _ => True

/-- The request is not about to be finalized. -/
def Pos.running : Pos → Bool
  | finalize _ => false
  | _ => true

/-- What has become of the stream of a request. -/
structure Delivery (e : Rds.Endian) (p : Pos) (r : Req) : Prop where
  handed : r.out.handed <+: r.answered e
  whole : r.live → p.Whole r → r.out.Sound ∧ r.out.stream = r.answered e
  last : p = .done .done → r.out.seenStreamEnd
  unended : r.live → p.running → r.endings = []
  completed : p = .finalize .ok → ∃ flush, (.done, flush) ∈ r.endings
  ended : ∀ flush, (.done, flush) ∈ r.endings →
    Talk.after r.calls = some .finished ∧ (flush = .ok → r.out.handed = r.answered e)

variable {s s' : St} {p p' : Pos} {r r' : Req} {e : Rds.Endian} {bytes : Bytes} {o : Out} {k : ℕ}
  {t : Talk}

lemma Quiet.endings (hq : Quiet s s') : s'.r.endings = s.r.endings := by
  obtain ⟨es, hes, hp⟩ := hq.hist
  have hnil : es.filterMap ReqEvent.ending = [] := by
    refine List.filterMap_eq_nil_iff.mpr fun e he => ?_
    rcases hp e he with rfl | rfl <;> rfl
  rw [Req.endings, hes, List.filterMap_append, hnil]
  rfl

lemma Req.answered_eq (h : r'.calls = r.calls) : r'.answered e = r.answered e := by
  rw [answered, h, answered]

lemma Req.answered_cons {call : LibCall} (h : r'.calls = call :: r.calls) :
    r'.answered e = r.answered e ++ Rds.stream e call.answer.toList := by
  rw [answered, h, answers_cons, Rds.stream_append, answered]

namespace Delivery

/-- The processing goes on at another position, without output. -/
lemma move (h : Delivery e p r) (hout : r'.out = r.out) (hcalls : r'.calls = r.calls)
    (hends : r'.endings = r.endings) (hlive : r'.live → r.live)
    (hwhole : r'.live → p'.Whole r' → p.Whole r) (hrun : r'.live → p'.running → p.running)
    (hlast : p' ≠ .done .done) (hok : p' ≠ .finalize .ok) : Delivery e p' r' where
  handed := by
    rw [hout, Req.answered_eq hcalls]
    exact h.handed
  whole hl hw := by
    rw [hout, Req.answered_eq hcalls]
    exact h.whole (hlive hl) (hwhole hl hw)
  last heq := absurd heq hlast
  unended hl hr := hends.trans (h.unended (hlive hl) (hrun hl hr))
  completed heq := absurd heq hok
  ended flush hmem := by
    rw [hout, hcalls, Req.answered_eq hcalls]
    exact h.ended flush (hends ▸ hmem)

/-- The output side keeps what it has, and gets what has been read. -/
lemma adds (h : Delivery e p r) (hlive : r.live) (hw : p.Whole r) (hrun : p.running)
    (hadds : r.out.Adds bytes r'.out) (hread : r'.answered e = r.answered e ++ bytes)
    (hends : r'.endings = r.endings) (hlast : p' = .done .done → r'.out.seenStreamEnd)
    (hok : p' ≠ .finalize .ok) : Delivery e p' r' := by
  obtain ⟨hsound, hstream⟩ := h.whole hlive hw
  obtain ⟨hsound', hstream'⟩ := hadds hsound
  have hstream' : r'.out.stream = r'.answered e := by rw [hstream', hstream, hread]
  have hnil := hends.trans (h.unended hlive hrun)
  exact {
    handed := hstream' ▸ List.prefix_append _ _
    whole := fun _ _ => ⟨hsound', hstream'⟩
    last := hlast
    unended := fun _ _ => hnil
    completed := fun heq => absurd heq hok
    ended := fun flush hmem => by simp [hnil] at hmem }

/-- The output has failed; what has been handed to the filter is a beginning of the stream. -/
lemma breaks (h : Delivery e p r) (hlive : r.live) (hw : p.Whole r) (hrun : p.running)
    (hadds : r.out.Adds [] o) (hbreaks : o.Breaks r'.out)
    (hread : r.answered e <+: r'.answered e) (hends : r'.endings = r.endings)
    (hfail : ¬ p'.Whole r') (hlast : p' ≠ .done .done) (hok : p' ≠ .finalize .ok) :
    Delivery e p' r' := by
  obtain ⟨hsound, hstream⟩ := h.whole hlive hw
  have hhanded := hadds.breaks hbreaks hsound
  have hnil := hends.trans (h.unended hlive hrun)
  exact {
    handed := (hstream ▸ hhanded).trans hread
    whole := fun _ hw' => absurd hw' hfail
    last := fun heq => absurd heq hlast
    unended := fun _ _ => hnil
    completed := fun heq => absurd heq hok
    ended := fun flush hmem => by simp [hnil] at hmem }

/-- Back in the event loop, or in the handler. -/
lemma settle (h : Delivery e p r) : Delivery e (p.after r) r := by
  cases p with
  | loop =>
    unfold Pos.after Pos.settle
    cases r.inHandler with
    | true => exact h.move rfl rfl rfl id (fun _ _ => trivial) (fun _ _ => rfl) nofun nofun
    | false => exact h
  | _ => exact h

end Delivery

/-! ## One step -/

namespace St

lemma delivery_processEvents (h : Delivery e .processEvents s.r) :
    Delivery e s.processEvents.1 s.processEvents.2.r := by
  have hmove : ∀ {p'}, p' ≠ .done .done → p' ≠ .finalize .ok → Delivery e p' s.r :=
    h.move rfl rfl rfl id (fun _ _ => trivial) fun _ _ => rfl
  unfold processEvents
  split
  · exact hmove nofun nofun
  · split <;> exact hmove nofun nofun

lemma delivery_connect (env : Env) (h : Delivery e .connect s.r) :
    Delivery e (s.connect env k k).1 (s.connect env k k).2.r := by
  unfold connect
  simp only
  split <;>
    exact h.move rfl rfl rfl id (fun _ _ => trivial) (fun _ _ => rfl) nofun nofun

lemma delivery_sendQuery (env : Env) (h : Delivery s.w.conf.endian .sendQuery s.r)
    (hlive : s.r.live) :
    Delivery s.w.conf.endian (s.sendQuery env k k).1 (s.sendQuery env k k).2.r := by
  obtain ⟨s₂, hout, htimed⟩ := sendQuery_cases (s := s) (k := k) env
  rw [htimed.req]
  generalize (s.sendQuery env k k).1 = p' at hout ⊢
  have hread : ∀ ret, (s.queried k ret).r.answered s.w.conf.endian = s.r.answered s.w.conf.endian ++
      Rds.stream s.w.conf.endian (LibCall.query s.r.id s.r.sendsSetNames s.r.queryToSend
        ret).answer.toList := fun ret => Req.answered_cons rfl
  have hheader : ∀ h, s.r.sendsSetNames = false → (s.queried k (.ok h)).r.answered s.w.conf.endian =
      s.r.answered s.w.conf.endian ++ Rds.answerBytes s.w.conf.endian (.header h) := by
    intro h hn
    rw [hread, hn]
    simp [LibCall.answer]
  -- nothing has been read
  have hquiet : ∀ {p'} ret {r' : Req}, (LibCall.query s.r.id s.r.sendsSetNames s.r.queryToSend
      ret).answer = none → r'.out = s.r.out → r'.calls = (s.queried k ret).r.calls →
      r'.endings = s.r.endings → p' ≠ .done .done → p' ≠ .finalize .ok →
      Delivery s.w.conf.endian p' r' := by
    intro p' ret r' hnone hout hcalls hends hlast hok
    have hsame : s.r.out.Adds [] r'.out := hout ▸ .refl _
    refine h.adds hlive trivial rfl hsame ?_ hends (fun heq => absurd heq hlast) hok
    rw [Req.answered_eq hcalls, hread, hnone]
    rfl
  cases hout with
  | waits =>
    exact hquiet .ioWait (by cases s.r.sendsSetNames <;> rfl) rfl rfl rfl (by simp) (by simp)
  | namesGone hn =>
    exact hquiet (.fail (.errorCode 1146)) (by simp [hn, LibCall.answer]) rfl rfl rfl
      (by simp) (by simp)
  | gone hn =>
    exact hquiet (.fail (.errorCode 1146)) (by simp [hn, LibCall.answer]) rfl rfl rfl
      (by simp) (by simp)
  | @failed err herr =>
    exact hquiet (.fail err) (by cases s.r.sendsSetNames <;> rfl) rfl rfl rfl (by simp) (by simp)
  | @namesFailed h hn hcode =>
    exact hquiet (.ok h) (by simp [hn, LibCall.answer]) rfl rfl rfl (by simp) (by simp)
  | @names h hn hcode =>
    exact hquiet (.ok h) (by simp [hn, LibCall.answer]) rfl rfl rfl (by simp) (by simp)
  | broken hn ho =>
    refine h.breaks hlive trivial rfl (.refl _) ho ?_ rfl (fun hw => ?_) (by simp) (by simp)
    · exact (hread _) ▸ List.prefix_append _ _
    · cases hw rfl
  | header hn hcount ho =>
    exact h.adds hlive trivial rfl ho (hheader _ hn) rfl (by simp) (by simp)
  | empty hn hcount ho hend =>
    exact h.adds hlive trivial rfl ho (hheader _ hn) rfl (fun _ => hend) (by simp)

/-- Reading is stopped: it has been paused, or the output has failed. -/
lemma delivery_stop {rc : Rc} (h : Delivery e p s.r) (hlive : s.r.live) (hw : p.Whole s.r)
    (hrun : p.running) (hstarted : s.r.queryStarted) (hready : OutputReady s k rc s')
    (hrc : rc ≠ .ok) : Delivery e (.ret rc) s'.r := by
  cases hready with
  | ready ho => exact absurd rfl hrc
  | paused hq ho hpaused hpauses =>
    refine h.adds hlive hw hrun ho ?_ hq.endings nofun nofun
    rw [Req.answered_eq hq.calls, List.append_nil]
  | failed hq ho =>
    refine h.breaks hlive hw hrun (.refl _) ho ?_ hq.endings (fun hw' => ?_) nofun nofun
    · exact Req.answered_eq hq.calls ▸ List.prefix_refl _
    · have hstarted' : s'.r.queryStarted = s.r.queryStarted := (congrArg Req.queryStarted hq.req :)
      exact absurd (hw' rfl) (by rw [hstarted', hstarted]; simp)

lemma delivery_recvCols (env : Env) (h : Delivery s.w.conf.endian .recvCols s.r)
    (hlive : s.r.live) (hstarted : s.r.queryStarted) (hk : s.r.connection = some k) :
    Delivery s.w.conf.endian (s.recvCols env k k).1 (s.recvCols env k k).2.r := by
  obtain ⟨s₂, hout, htimed⟩ := recvCols_cases env hk
  rw [htimed.req]
  generalize (s.recvCols env k k).1 = p' at hout ⊢
  have hread : ∀ o ret, (s.columnCalled k o ret).r.answered s.w.conf.endian =
      s.r.answered s.w.conf.endian ++ Rds.stream s.w.conf.endian
        (LibCall.columnRead s.r.id ret).answer.toList := fun o ret => Req.answered_cons rfl
  cases hout with
  | stop hready hrc =>
    have hentered : Delivery s.w.conf.endian .recvCols (s.entered .recvCols).r :=
      h.move rfl rfl rfl id (fun _ _ => trivial) (fun _ _ => rfl) (by simp) (by simp)
    exact delivery_stop hentered hlive trivial rfl hstarted hready hrc
  | waits ho => exact h.adds hlive trivial rfl ho (hread _ _) rfl (by simp) (by simp)
  | failed ho err => exact h.adds hlive trivial rfl ho (hread _ _) rfl (by simp) (by simp)
  | broken ho col ho' =>
    refine h.breaks hlive trivial rfl ho ho' ?_ rfl (fun hw => ?_) (by simp) (by simp)
    · exact hread _ _ ▸ List.prefix_append _ _
    · exact absurd ((hw rfl).symm.trans hstarted) (by simp)
  | column ho col ho' =>
    refine h.adds hlive trivial rfl (ho.trans ho') ((hread _ _).trans ?_) rfl (by simp) (by simp)
    simp [LibCall.answer]
  | last ho =>
    refine h.adds hlive trivial rfl ho ((hread _ _).trans ?_) rfl (by simp) (by simp)
    simp [LibCall.answer, Rds.answerBytes]

lemma delivery_recvRows (env : Env) (h : Delivery s.w.conf.endian .recvRows s.r)
    (hlive : s.r.live) (hstarted : s.r.queryStarted) (hk : s.r.connection = some k) :
    Delivery s.w.conf.endian (s.recvRows env k k).1 (s.recvRows env k k).2.r := by
  obtain ⟨s₂, hout, htimed⟩ := recvRows_cases env hk
  rw [htimed.req]
  generalize (s.recvRows env k k).1 = p' at hout ⊢
  have hread : ∀ o ret, (s.rowCalled k o ret).r.answered s.w.conf.endian =
      s.r.answered s.w.conf.endian ++ Rds.stream s.w.conf.endian
        (LibCall.rowRead s.r.id ret).answer.toList := fun o ret => Req.answered_cons rfl
  have hrow : ∀ o row, (s.rowCalled k o (.ok row)).r.answered s.w.conf.endian =
      s.r.answered s.w.conf.endian ++ Rds.answerBytes s.w.conf.endian (.row row) := by
    intro o row
    rw [hread]
    simp [LibCall.answer]
  cases hout with
  | stop hready hrc =>
    have hentered : Delivery s.w.conf.endian .recvRows (s.entered .recvRows).r :=
      h.move rfl rfl rfl id (fun _ _ => trivial) (fun _ _ => rfl) (by simp) (by simp)
    exact delivery_stop hentered hlive trivial rfl hstarted hready hrc
  | inRow ho _ =>
    refine h.adds hlive trivial rfl ho ?_ rfl (by simp) (by simp)
    rw [List.append_nil]
    rfl
  | waits ho _ => exact h.adds hlive trivial rfl ho (hread _ _) rfl (by simp) (by simp)
  | failed ho _ err => exact h.adds hlive trivial rfl ho (hread _ _) rfl (by simp) (by simp)
  | broken ho _ row ho' =>
    refine h.breaks hlive trivial rfl ho ho' ?_ rfl (fun hw => ?_) (by simp) (by simp)
    · exact hrow _ row ▸ List.prefix_append _ _
    · exact absurd ((hw rfl).symm.trans hstarted) (by simp)
  | row ho _ hne ho' =>
    exact h.adds hlive trivial rfl (ho.trans ho') (hrow _ _) rfl (by simp) (by simp)
  | namesEnd ho _ hn ho' =>
    exact h.adds hlive trivial rfl (ho.trans ho') (hrow _ _) rfl (by simp) (by simp)
  | last ho _ hn ho' hend =>
    exact h.adds hlive trivial rfl (ho.trans ho') (hrow _ _) rfl (fun _ => hend) (by simp)

lemma delivery_recvFields (env : Env) (h : Delivery s.w.conf.endian .recvFields s.r)
    (hlive : s.r.live) (hstarted : s.r.queryStarted) (hk : s.r.connection = some k) :
    Delivery s.w.conf.endian (s.recvFields env k k).1 (s.recvFields env k k).2.r := by
  obtain ⟨s₂, hout, htimed⟩ := recvFields_cases env hk
  rw [htimed.req]
  generalize (s.recvFields env k k).1 = p' at hout ⊢
  have hread : ∀ o ret, (s.fieldCalled k o ret).r.answered s.w.conf.endian =
      s.r.answered s.w.conf.endian ++ Rds.stream s.w.conf.endian
        (LibCall.fieldRead s.r.id ret).answer.toList := fun o ret => Req.answered_cons rfl
  cases hout with
  | stop hready hrc => exact delivery_stop h hlive trivial rfl hstarted hready hrc
  | waits ho => exact h.adds hlive trivial rfl ho (hread _ _) rfl (by simp) (by simp)
  | failed ho err => exact h.adds hlive trivial rfl ho (hread _ _) rfl (by simp) (by simp)
  | rowEnd ho =>
    refine h.adds hlive trivial rfl ho ((hread _ .rowEnd).trans ?_) rfl (by simp) (by simp)
    simp [LibCall.answer, Rds.answerBytes]
  | broken ho chunk ho' =>
    refine h.breaks hlive trivial rfl ho ho' ?_ rfl (fun hw => ?_) (by simp) (by simp)
    · exact hread _ _ ▸ List.prefix_append _ _
    · exact absurd ((hw rfl).symm.trans hstarted) (by simp)
  | field ho chunk ho' =>
    refine h.adds hlive trivial rfl (ho.trans ho') ((hread _ _).trans ?_) rfl (by simp) (by simp)
    simp [LibCall.answer]

lemma delivery_processed (env : Env) {rc : Rc} (h : Delivery e (.ret rc) s.r) (hlive : s.r.live) :
    Delivery e (s.processed env rc).1 (s.processed env rc).2.r := by
  have hout := processed_cases (s := s) env rc
  generalize (s.processed env rc).1 = p', (s.processed env rc).2 = s' at hout ⊢
  have hwhole : rc.failed = false → (Pos.ret rc).Whole s.r := fun hrc hf => by simp [hrc] at hf
  cases hout with
  | error hrc =>
    exact h.move rfl rfl rfl id (fun _ hw _ => hw) (fun _ _ => rfl) nofun nofun
  | failed hrc hne =>
    refine h.move rfl rfl rfl id (fun _ hw => hw.elim) (fun _ _ => rfl) nofun ?_
    rintro ⟨⟩
    cases hrc
  | flushFailed hrc ho =>
    exact h.breaks hlive (hwhole hrc) rfl (.refl _) ho (List.prefix_refl _) rfl id nofun nofun
  | waits hrc ho =>
    exact h.adds hlive (hwhole hrc) rfl ho (List.append_nil _).symm rfl nofun nofun

lemma delivery_done (env : Env) {rc : Rc} (h : Delivery e (.done rc) s.r)
    (hs : Session (.done rc) s.r t) (hlive : s.r.live) :
    Delivery e (s.done env rc).1 (s.done env rc).2.r := by
  obtain ⟨flush, o, hp, hs', ho⟩ := done_cases (s := s) env rc
  have hends : (s.done env rc).2.r.endings = [(rc, flush)] := by
    have hnil := h.unended hlive rfl
    rw [hs']
    exact congrArg ((rc, flush) :: ·) hnil
  have hcalls : (s.done env rc).2.r.calls = s.r.calls := by rw [hs']; rfl
  have hhanded : (s.done env rc).2.r.out.handed = o.handed := by rw [hs']; rfl
  obtain ⟨hsound, hstream⟩ := h.whole hlive trivial
  obtain ⟨hpre, hwhole⟩ : o.handed <+: s.r.answered e ∧
      (rc = .done → flush = .ok → o.handed = s.r.answered e) := by
    rcases ho with ⟨_, hadds, hend⟩ | ⟨hfail, hbreaks⟩
    · have hstream' := (hadds hsound).2.trans ((List.append_nil _).trans hstream)
      refine ⟨hstream' ▸ List.prefix_append _ _, fun hrc _ => ?_⟩
      rw [← hstream', Out.stream, hend (h.last (congrArg Pos.done hrc)), List.append_nil]
    · exact ⟨hstream ▸ hbreaks hsound, fun _ hok => absurd hok hfail⟩
  rw [hp]
  constructor
  case handed =>
    rw [hhanded, Req.answered_eq hcalls]
    exact hpre
  case whole => exact fun _ hw => hw.elim
  case last => simp
  case unended => exact fun _ hrun => Bool.noConfusion hrun
  case completed =>
    intro heq
    refine ⟨flush, ?_⟩
    rw [hends]
    split at heq
    · next hrc => simp [hrc]
    · rcases hs.fits hlive with ⟨hrc, _⟩ | ⟨rfl, _⟩
      · contradiction
      · cases heq
  case ended =>
    intro flush' hmem
    rw [hends] at hmem
    obtain ⟨hrc, rfl⟩ : rc = .done ∧ flush' = flush := by
      obtain ⟨h₁, h₂⟩ := Prod.mk.inj (List.mem_singleton.mp hmem)
      exact ⟨h₁.symm, h₂⟩
    rw [hhanded, hcalls, Req.answered_eq hcalls]
    refine ⟨?_, hwhole hrc⟩
    rcases hs.fits hlive with ⟨_, rfl⟩ | ⟨hrc', _⟩
    · exact hs.talk
    · cases hrc.symm.trans hrc'

lemma delivery_handleEvent (env : Env) {ev : Event} (h : Delivery e (.event ev) s.r)
    (hlive : s.r.live) (hk : s.r.connection = some k) (hd : s.r.drizzleCon = some k) :
    Delivery e (s.handleEvent env ev).1 (s.handleEvent env ev).2.r := by
  have hmove : ∀ {p'} {r' : Req}, r'.out = s.r.out → r'.calls = s.r.calls →
      r'.endings = s.r.endings → p' ≠ .done .done → p' ≠ .finalize .ok → Delivery e p' r' :=
    fun hout hcalls hends => h.move hout hcalls hends (fun _ => hlive) (fun _ _ => trivial)
      fun _ _ => rfl
  unfold handleEvent
  split
  · unfold dbHandler
    simp only [modReq_r, hk]
    split
    · exact hmove rfl rfl rfl nofun nofun
    · split <;> exact hmove rfl rfl rfl nofun nofun
  · split
    · next timedout _ _ =>
      have hout := drainOutput_cases env timedout hk hd
      generalize (s.drainOutput env timedout).1 = p', (s.drainOutput env timedout).2 = s'
        at hout ⊢
      cases hout with
      | failed hrc hq ho =>
        refine h.breaks hlive trivial rfl (.refl _) ho ?_ hq.endings id nofun ?_
        · exact Req.answered_eq hq.calls ▸ List.prefix_refl _
        · rcases hrc with rfl | rfl | rfl <;> nofun
      | waits hq ho hw hpaused =>
        refine h.adds hlive trivial rfl ho ?_ hq.endings nofun nofun
        rw [Req.answered_eq hq.calls, List.append_nil]
      | resumed hq ho hw =>
        refine h.adds hlive trivial rfl ho ?_ hq.endings nofun nofun
        rw [Req.answered_eq hq.calls, List.append_nil]
    · exact hmove rfl rfl rfl nofun nofun
    · exact hmove rfl rfl rfl nofun nofun
  · unfold checkBrokenConnection
    split <;> exact hmove rfl rfl rfl nofun nofun
  · exact hmove rfl rfl rfl nofun nofun

lemma delivery_dbdConnected (env : Env) {rc : Rc} (h : Delivery e (.dbdConnected rc) s.r) :
    Delivery e (s.dbdConnected env rc).1 (s.dbdConnected env rc).2.r := by
  have hmove : ∀ {p'} {r' : Req}, r'.out = s.r.out → r'.calls = s.r.calls →
      r'.endings = s.r.endings → r'.live = s.r.live → p' ≠ .done .done → p' ≠ .finalize .ok →
      Delivery e p' r' :=
    fun hout hcalls hends hlive => h.move hout hcalls hends (fun hl => hlive.symm.trans hl)
      (fun _ _ => trivial) fun _ _ => rfl
  unfold dbdConnected
  split
  · exact hmove rfl rfl rfl rfl nofun nofun
  · exact hmove rfl rfl rfl rfl nofun nofun
  · exact hmove rfl rfl rfl rfl nofun nofun
  · split
    · exact hmove rfl rfl rfl rfl nofun nofun
    · unfold attach
      simp only
      split
      · exact hmove rfl rfl rfl rfl nofun nofun
      · split
        · exact hmove rfl rfl rfl rfl nofun nofun
        · split <;> exact hmove rfl rfl rfl rfl nofun nofun

/-- Getting a connection has nothing to do with output. -/
lemma GetPeer.output {rc : Rc} (h : GetPeer s rc s') :
    s'.r.out = s.r.out ∧ s'.r.endings = s.r.endings ∧ s'.r.live = s.r.live := by
  cases h with
  | single hmax hsingle hcache => exact ⟨rfl, rfl, rfl⟩
  | busy hleft => exact ⟨rfl, rfl, rfl⟩
  | multi hmax hmulti hcache haddr => exact ⟨rfl, rfl, rfl⟩
  | overflow getConn hfull => cases getConn <;> exact ⟨rfl, rfl, rfl⟩
  | create hroom h => cases h <;> exact ⟨rfl, rfl, rfl⟩

/-- Giving a connection away has nothing to do with output. -/
lemma FreePeer.output {failed : Bool} (h : FreePeer failed s s') :
    s'.r.out = s.r.out ∧ s'.r.endings = s.r.endings := by
  cases h <;> exact ⟨rfl, rfl⟩

lemma delivery_dbdConnect (env : Env) (h : Delivery e .dbdConnect s.r) (hc : s.r.connection = none)
    (hw : s.r.state = .connect ∨ s.r.state = .idle) :
    Delivery e (s.dbdConnect env).1 (s.dbdConnect env).2.r := by
  unfold dbdConnect
  split
  · exact h.move rfl rfl rfl id (fun _ _ => trivial) (fun _ _ => rfl) nofun nofun
  · have hget := getPeer_cases env.peer hc
    obtain ⟨hout, hends, hlive⟩ := hget.output
    exact h.move hout (hget.session hw).1 hends (fun hl => hlive.symm.trans hl)
      (fun _ _ => trivial) (fun _ _ => rfl) nofun nofun

lemma delivery_next {ft : Ft} (h : Delivery e (.next ft) s.r)
    (hq : s.w.pool.cache.length + s.w.pool.free.length = s.w.conf.maxCached) :
    Delivery e (s.next ft).1 (s.next ft).2.r := by
  obtain ⟨s₁, hs₁, hnext⟩ := next_cases (s := s) ft hq
  obtain ⟨hout, hcalls, hends, hlive, hstarted⟩ : s₁.r.out = s.r.out ∧ s₁.r.calls = s.r.calls ∧
      s₁.r.endings = s.r.endings ∧ s₁.r.live = s.r.live ∧
      s₁.r.queryStarted = s.r.queryStarted := by
    split at hs₁
    · exact hs₁ ▸ ⟨rfl, rfl, rfl, rfl, rfl⟩
    · obtain ⟨hcalls, _, _, hstarted, _⟩ := hs₁.session
      exact ⟨hs₁.output.1, hcalls, hs₁.output.2, hs₁.live, hstarted⟩
  generalize s.next ft = ps at hnext ⊢
  obtain ⟨p', s'⟩ := ps
  cases hnext with
  | stop hstatus =>
    exact h.move hout hcalls hends (fun hl => hlive.symm.trans hl) (fun _ hw => hw.elim)
      (fun _ _ => rfl) nofun nofun
  | retry hno hleft hft =>
    exact h.move hout hcalls hends (fun hl => hlive.symm.trans hl)
      (fun _ _ => hstarted.symm.trans hno) (fun _ _ => rfl) nofun nofun

lemma delivery_finalizeRequest (env : Env) {rc : Rc} (h : Delivery e (.finalize rc) s.r)
    (hrc : rc ≠ .declined)
    (hq : s.w.pool.cache.length + s.w.pool.free.length = s.w.conf.maxCached) :
    Delivery e (s.finalizeRequest env rc).1 (s.finalizeRequest env rc).2.r := by
  obtain ⟨hpos, hfin⟩ := finalizeRequest_cases env hrc hq
  generalize s.finalizeRequest env rc = ps at hpos hfin ⊢
  obtain ⟨p', s'⟩ := ps
  obtain rfl : p' = .loop := hpos
  cases hfin with
  | completed hfree hsend rc' =>
    exact h.move hfree.output.1 hfree.session.1 hfree.output.2
      (fun hl => absurd hl Bool.false_ne_true) (fun hl => absurd hl Bool.false_ne_true)
      (fun hl => absurd hl Bool.false_ne_true) nofun nofun
  | failed hfree hsend =>
    exact h.move hfree.output.1 hfree.session.1 hfree.output.2
      (fun hl => absurd hl Bool.false_ne_true) (fun hl => absurd hl Bool.false_ne_true)
      (fun hl => absurd hl Bool.false_ne_true) nofun nofun

lemma delivery_handlerTail (h : Delivery e .handlerTail s.r) :
    Delivery e s.handlerTail.1 s.handlerTail.2.r := by
  rcases handlerTail_cases s with ⟨heq, _⟩ | ⟨k, _, _, heq⟩ <;> rw [heq] <;>
    exact h.move rfl rfl rfl id (fun _ _ => trivial) (fun _ _ => rfl) nofun nofun

/-- A query has been started when there is something to read. -/
lemma started_of_fits (h : Session p s.r t) (hlive : s.r.live)
    (hp : p = .recvCols ∨ p = .recvRows ∨ p = .recvFields) : s.r.queryStarted := by
  refine h.started fun hnil => ?_
  have htalk := h.talk
  rw [hnil] at htalk
  obtain rfl : Talk.idle = t := Option.some.inj htalk
  rcases hp with rfl | rfl | rfl
  · cases (h.fits hlive).2
  · have := (h.fits hlive).2
    split at this <;> cases this
  · cases (h.fits hlive).2.2.2

/-- A step keeps the stream together. -/
theorem delivery_exec (env : Env) (hc : Custody p s) (hs : Session p s.r t)
    (h : Delivery s.w.conf.endian p s.r) :
    Delivery s.w.conf.endian ((s.exec env p).1.after (s.exec env p).2.r) (s.exec env p).2.r := by
  refine Delivery.settle ?_
  cases p with
  | loop => exact h
  | handlerTail => exact delivery_handlerTail h
  | crashed => exact h
  | dbdConnect =>
    have hlive : s.r.live := hc.ok.1
    obtain ⟨hstarted, hw⟩ := hs.fits hlive
    obtain rfl := hs.idle hstarted
    exact delivery_dbdConnect env h hc.ok.2.1.connection (Req.Waits.state hw)
  | dbdConnected rc => exact delivery_dbdConnected env h
  | next ft => exact delivery_next h hc.queues
  | finalize rc =>
    have hrc : rc ≠ .declined := by
      rintro rfl
      exact hc.ok
    exact delivery_finalizeRequest env h hrc hc.queues
  | event ev =>
    have hlive := hc.ok.1
    rcases hc.ok.2 with ⟨k, hk⟩ | ⟨he, hrej⟩
    · exact delivery_handleEvent env h hlive hk.connection hk.drizzleCon
    · obtain ⟨p', _, _, hp, heq⟩ := handleEvent_of_rejected env he hrej hc.ordered
      rw [exec, heq]
      refine h.move rfl rfl rfl (fun _ => hlive) (fun _ _ => trivial) (fun _ _ => rfl) ?_ ?_
      · rintro rfl
        cases hp
      · rintro rfl
        cases hp
  | processEvents => exact delivery_processEvents h
  | connect =>
    obtain ⟨_, k, hk⟩ := hc.ok
    rw [exec, onConn_of hk.connection hk.drizzleCon]
    exact delivery_connect env h
  | sendQuery =>
    obtain ⟨hlive, k, hk⟩ := hc.ok
    rw [exec, onConn_of hk.connection hk.drizzleCon]
    exact delivery_sendQuery env h hlive
  | recvCols =>
    obtain ⟨hlive, k, hk⟩ := hc.ok
    rw [exec, onConn_of hk.connection hk.drizzleCon]
    exact delivery_recvCols env h hlive (started_of_fits hs hlive (.inl rfl)) hk.connection
  | recvRows =>
    obtain ⟨hlive, k, hk⟩ := hc.ok
    rw [exec, onConn_of hk.connection hk.drizzleCon]
    exact delivery_recvRows env h hlive (started_of_fits hs hlive (.inr (.inl rfl))) hk.connection
  | recvFields =>
    obtain ⟨hlive, k, hk⟩ := hc.ok
    rw [exec, onConn_of hk.connection hk.drizzleCon]
    exact delivery_recvFields env h hlive (started_of_fits hs hlive (.inr (.inr rfl))) hk.connection
  | ret rc => exact delivery_processed env h hc.ok.1
  | done rc =>
    have hlive : s.r.live := by
      have := hc.ok
      cases rc with
      | declined => exact this.elim
      | _ => exact this.1
    exact delivery_done env h hs hlive

end St

/-! ## The end of the response -/

/-- A response is completed only behind the final flush, or when the request fails although the
header of the response has been sent. -/
structure Req.Closing (r : Req) : Prop where
  live : r.live → .sendSpecial ∉ r.hist
  closed : .sendSpecial ∈ r.hist → (∃ flush, (.done, flush) ∈ r.endings) ∨
    r.out.headerSent ∧ ∃ rc, rc.failed ∧ .finalize rc ∈ r.hist

lemma St.closing_finalizeRequest (env : Env) {rc : Rc} (h : s.r.Closing)
    (hdel : Delivery e (.finalize rc) s.r) (hlive : s.r.live) (hrc : rc ≠ .declined)
    (hq : s.w.pool.cache.length + s.w.pool.free.length = s.w.conf.maxCached) :
    (s.finalizeRequest env rc).2.r.Closing := by
  obtain ⟨_, hfin⟩ := finalizeRequest_cases env hrc hq
  have hno := h.live hlive
  generalize (s.finalizeRequest env rc).2 = s' at hfin
  -- giving the connection away completes no response
  have hfree : ∀ {s₁ : St}, FreePeer false (s.log (.finalize rc)) s₁ →
      .sendSpecial ∉ s₁.r.hist ∧ .finalize rc ∈ s₁.r.hist := by
    intro s₁ hfree
    rcases hfree.hist with ⟨_, heq⟩ | ⟨_, _, _, _, _, heq⟩ | ⟨_, _, heq, _⟩ <;> simp [heq, hno]
  cases hfin with
  | @completed s₁ hf hsend rc' =>
    refine ⟨fun hl => absurd hl Bool.false_ne_true, fun _ => ?_⟩
    rcases hsend with rfl | ⟨hsent, hfailed⟩
    · obtain ⟨flush, hmem⟩ := hdel.completed rfl
      exact .inl ⟨flush, (hf.output.2 ▸ hmem : _ ∈ s₁.r.endings)⟩
    · exact .inr ⟨hsent, rc, hfailed, List.mem_append_right _ (hfree hf).2⟩
  | @failed s₁ hf hsend =>
    refine ⟨fun hl => absurd hl Bool.false_ne_true, fun hmem => ?_⟩
    rcases List.mem_append.mp hmem with hnew | hold
    · simp at hnew
    · exact absurd hold (hfree hf).1

/-- A step completes the response only at the end of the request. -/
theorem St.closing_exec (env : Env) (hc : Custody p s) (hdel : Delivery e p s.r)
    (h : s.r.Closing) : (s.exec env p).2.r.Closing := by
  cases hlive : s.r.live with
  | false =>
    rcases hc.ok.loop_of_ended hlive with rfl | ⟨rfl, hnone⟩
    · exact h
    · rcases handlerTail_cases s with ⟨heq, _⟩ | ⟨k, hk, _⟩
      · rw [exec, heq]
        exact ⟨h.live, h.closed⟩
      · cases hnone.symm.trans hk
  | true =>
    by_cases hfin : ∃ rc, p = .finalize rc
    · obtain ⟨rc, rfl⟩ := hfin
      have hrc : rc ≠ .declined := by
        rintro rfl
        exact hc.ok
      exact closing_finalizeRequest env h hdel hlive hrc hc.queues
    · obtain ⟨es, hes, hlogs⟩ := exec_hist env hc
      have hno : .sendSpecial ∉ (s.exec env p).2.r.hist := by
        rw [hes, List.mem_append]
        rintro (hnew | hold)
        · have := hlogs _ hnew
          cases p <;> first | exact hfin ⟨_, rfl⟩ | simp [Pos.logs, ReqEvent.inner] at this
        · exact h.live hlive hold
      exact ⟨fun _ => hno, fun hmem => absurd hmem hno⟩

/-! ## Runs -/

lemma delivery_init (w : Worker) (id : ℕ) (a : Arrival)
    (hp : p = .dbdConnect ∨ p = .finalize (.http 500)) : Delivery e p (Req.init w id a) where
  handed := List.prefix_refl _
  whole _ _ := ⟨⟨rfl, nofun⟩, rfl⟩
  last heq := by rcases hp with rfl | rfl <;> cases heq
  unended _ _ := rfl
  completed heq := by rcases hp with rfl | rfl <;> cases heq
  ended flush hmem := nomatch hmem

/-- The stream of each request and the end of its response, as a claim about requests. -/
def Local.delivery : Local where
  req conf p r _ := Delivery conf.endian p r ∧ r.Closing
  item _ _ _ := True

lemma Local.delivery_kept : Local.delivery.Kept fun _ p s => Known p s where
  init w id a _ hp := ⟨delivery_init w id a hp, fun _ => List.not_mem_nil, nofun⟩
  fire ev s _ _ h := by
    obtain ⟨⟨cw, hr⟩, _⟩ := St.fire_cases ev s
    rw [hr]
    exact ⟨h.1.move rfl rfl rfl (fun hl => hl) (fun _ _ => trivial) (fun _ _ => rfl) nofun nofun,
      h.2.live, h.2.closed⟩
  client _ _ _ _ _ h := by
    refine ⟨⟨h.1.handed, fun hl hw => ?_, h.1.last, h.1.unended, h.1.completed, h.1.ended⟩,
      h.2.live, h.2.closed⟩
    obtain ⟨hs, hstream⟩ := h.1.whole hl hw
    exact ⟨⟨hs.lastOut, hs.pos⟩, hstream⟩
  exec env _ _ hc hd h _ := by
    obtain ⟨t, ht⟩ := hd.session
    exact ⟨St.delivery_exec env hc ht h.1, St.closing_exec env hc h.1 h.2⟩
  saved _ _ _ _ _ _ _ _ _ _ := trivial

namespace Sys

lemma delivery_run (conf : Conf) (ls : List Label) : ∀ r ∈ (run conf ls).reqs,
    (∃ p, Delivery conf.endian p r) ∧ r.Closing := by
  intro r hr
  obtain ⟨i, hi⟩ := List.mem_iff_getElem?.mp hr
  obtain ⟨hdel, hclose⟩ := (Local.delivery_kept.run conf (known_meets conf ls)).req i r hi
  rw [conf_run] at hdel
  exact ⟨⟨_, hdel⟩, hclose⟩

/-- **Every byte once.**  Whatever the client does, wherever the library waits and however it
cuts the fields into chunks: if it reports a result set, and
`ngx_http_upstream_drizzle_done` has handed over the rest of the stream, then the bytes handed
to the output filter, one chain after the other, are the encoding of the result set. -/
theorem result_delivered (conf : Conf) (ls : List Label) : ∀ r ∈ (run conf ls).reqs,
    ∀ (R : ResultSet) (as : List Answer), R.Representable → Reading R as → Reports as r.calls →
      .done .done .ok ∈ r.hist → r.out.sent.flatten.flatten = Rds.rds conf.endian R := by
  intro r hr R as hR has hrep hdone
  obtain ⟨⟨p, hdel⟩, _⟩ := delivery_run conf ls r hr
  obtain ⟨htalk, hwhole⟩ := hdel.ended .ok (List.mem_filterMap.mpr ⟨_, hdone, rfl⟩)
  have hanswers := Talk.answers_of_finished hR has hrep htalk
  have hhanded := hwhole rfl
  rw [Req.answered, hanswers, Rds.stream_reading has hR] at hhanded
  exact hhanded

/-- A result with one row is read without waiting. -/
def oneRow : List Label := sampleArrival (.sample [7]) ++ [.run { query := .ok (.sample 1) },
  .run { column := .ok (some ⟨3, [97]⟩) }, .run { column := .ok none }, .run { row := .ok 1 },
  .run { field := .ok ⟨0, 2, 2, some [1, 2]⟩ }, .run { field := .rowEnd }, .run { row := .ok 0 },
  .run {}]

set_option maxRecDepth 4000 in
theorem result_delivered_oneRow : ∃ r ∈ (run (.sample (.sample [1] []) []) oneRow).reqs,
    r.out.sent.flatten.flatten = Rds.rds .little ⟨0, [], 0, 0, [⟨3, [97]⟩], [[some [1, 2]]]⟩ := by
  refine ⟨_, List.get_mem _ ⟨0, by decide⟩, result_delivered _ _ _ (List.get_mem _ _) _
    [.header (.sample 1), .column (some ⟨3, [97]⟩), .column none, .row 1,
      .field ⟨0, 2, 2, some [1, 2]⟩, .rowEnd, .row 0] ?_ ?_ ?_ (by decide)⟩
  · exact ⟨by decide, by decide, by decide, by decide, by simp, nofun⟩
  · have hfields : FieldsReads [some [1, 2]] [.field ⟨0, 2, 2, some [1, 2]⟩] :=
      .cons (.chunks (by decide) (.cons [1, 2] (.nil 2))) .nil
    have hrows : RowsReads [[some [1, 2]]] [.row 1, .field ⟨0, 2, 2, some [1, 2]⟩, .rowEnd] :=
      .cons (by decide) hfields .nil
    exact Reading.columns (R := ⟨0, [], 0, 0, [⟨3, [97]⟩], [[some [1, 2]]]⟩) (by decide) hrows
  · have hcalls : ((run (.sample (.sample [1] []) []) oneRow).reqs.get ⟨0, by decide⟩).calls =
        [.rowRead 0 (.ok 0), .fieldRead 0 .rowEnd, .fieldRead 0 (.ok ⟨0, 2, 2, some [1, 2]⟩),
          .rowRead 0 (.ok 1), .columnRead 0 (.ok none), .columnRead 0 (.ok (some ⟨3, [97]⟩)),
          .query 0 false [7] (.ok (.sample 1))] := by decide
    rw [hcalls]
    simp [Reports, answers, LibCall.answer]

/-- **What a completed response contains.**  In every run, whatever fails: the bytes handed to the
output filter are a beginning of the stream of what has been read.  If the response has been
completed, then either the whole result has been read, and unless the final flush failed, all
of its stream has been handed over; or the request has failed after the header of the response
was sent. -/
theorem response_completed (conf : Conf) (ls : List Label) : ∀ r ∈ (run conf ls).reqs,
    r.out.handed <+: Rds.stream conf.endian (answers r.calls) ∧
    (.sendSpecial ∈ r.hist →
      (Complete (answers r.calls) ∧ ∃ flush, .done .done flush ∈ r.hist ∧
        (flush = .ok → r.out.handed = Rds.stream conf.endian (answers r.calls))) ∨
      r.out.headerSent ∧ ∃ rc, rc.failed ∧ .finalize rc ∈ r.hist) := by
  intro r hr
  obtain ⟨⟨p, hdel⟩, hclose⟩ := delivery_run conf ls r hr
  refine ⟨hdel.handed, fun hspecial => (hclose.closed hspecial).imp_left ?_⟩
  rintro ⟨flush, hmem⟩
  obtain ⟨htalk, hwhole⟩ := hdel.ended flush hmem
  have hcomplete : Talk.Shape .finished (answers r.calls) := Talk.shape_after htalk
  refine ⟨hcomplete, flush, ?_, hwhole⟩
  obtain ⟨ev, hev, heq⟩ := List.mem_filterMap.mp hmem
  cases ev with
  | done rc flush' =>
    obtain ⟨rfl, rfl⟩ := Prod.mk.inj (Option.some.inj heq)
    exact hev
  | _ => cases heq

/-- The connection breaks when the columns of a result are read, after the header of the response
has been sent. -/
def brokenColumns : List Label := sampleArrival (.small [7] 1048575) ++
  [.run { query := .ok (.sample 1) }, .run {}, .run {}, .run {}, .event 0 (.db false false false),
    .run {}, .run {}, .run { column := .fail (.other 1) }, .run {}, .run {}, .run {}]

/-- An upstream on a host that stores the most significant byte first. -/
def bigEndian : Conf := { Conf.sample (.sample [1] []) [] with endian := .big }

theorem response_completed_brokenColumns : ∃ r ∈ (run bigEndian brokenColumns).reqs,
    .sendSpecial ∈ r.hist ∧ r.out.handed <+: Rds.stream .big (answers r.calls) :=
  ⟨_, List.get_mem _ ⟨0, by decide⟩, by decide, (response_completed _ _ _ (List.get_mem _ _)).1⟩

/-- A complete stream goes on behind its header, or the header says that there are no columns. -/
lemma stream_of_complete {as : List Answer} (h : Complete as) :
    30 < (Rds.stream .big as).length ∨ (Rds.stream .big as).getLast? = some 0 := by
  cases h with
  | @noColumns h hcount =>
    right
    have hlast : Rds.uintBytes .big 2 h.columnCount.toNat = [0, 0] := by
      rw [hcount]
      decide
    rw [Rds.stream_cons, Rds.stream_nil, List.append_nil, Rds.answerBytes, Rds.resultHeaderBytes,
      hlast, List.getLast?_append]
    rfl
  | columns hcount cols rows =>
    left
    simp only [List.cons_append, Rds.stream_cons, Rds.stream_append, Rds.stream_nil,
      Rds.answerBytes, Rds.resultHeaderBytes, Rds.rowBytes, Rds.length_uintBytes,
      List.length_append, List.length_cons, List.length_nil]
    omega

/-- A response has been completed behind the header of a result with columns. -/
theorem response_cut_short : ¬ ∀ conf ls, ∀ r ∈ (run conf ls).reqs, .sendSpecial ∈ r.hist →
    ∃ as, Complete as ∧ r.out.handed = Rds.stream conf.endian as := by
  intro h
  obtain ⟨as, hcomplete, hstream⟩ :=
    h bigEndian brokenColumns _ (List.get_mem _ ⟨0, by decide⟩) (by decide)
  have hhanded : ((run bigEndian brokenColumns).reqs.get ⟨0, by decide⟩).out.handed.length = 30 ∧
      ((run bigEndian brokenColumns).reqs.get ⟨0, by decide⟩).out.handed.getLast? = some 1 := by
    decide
  rw [hstream] at hhanded
  rcases stream_of_complete hcomplete with hlt | hlast
  · exact absurd (hhanded.1 ▸ hlt) (by decide)
  · cases hlast.symm.trans hhanded.2

end Sys
end DrizzleNginx
