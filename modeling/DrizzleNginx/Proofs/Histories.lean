/-
# What the histories tell

The history of a request and the histories of the connections only grow.  Which events a step
may enter depends on its position alone, and a call of the client library enters the history
of the request that made it together with that of the connection on which it was made.
-/
import DrizzleNginx.Proofs.Local
import DrizzleNginx.Proofs.Session

namespace DrizzleNginx

variable {s s' : St} {p : Pos} {env : Env} {k : ℕ}

/-! ## The events of a request -/

/-- The events that a step from a position may enter into the history of the request. -/
def Pos.logs : Pos → ReqEvent → Bool
  | dbdConnect, .pick _ => true
  | dbdConnect, .overflow => true
  | dbdConnect, .getPeer .. => true
  | next _, .closed _ => true
  | finalize _, .closed _ => true
  | finalize _, .saved .. => true
  | finalize _, .finalize _ => true
  | finalize _, .sendSpecial => true
  | finalize _, .finalized _ => true
  | p, e => p.stays && e.inner

lemma Pos.Ok.loop_of_ended (h : p.Ok s) (hlive : s.r.live = false) :
    p = .loop ∨ p = .handlerTail ∧ s.r.connection = none := by
  cases p with
  | loop => exact .inl rfl
  | handlerTail =>
    rcases h with hended | ⟨hl, _⟩
    · exact .inr ⟨rfl, hended.connection⟩
    · exact absurd (hlive.symm.trans hl) (by simp)
  | dbdConnected rc =>
    cases rc <;> first | exact h.elim | exact absurd (hlive.symm.trans h.1) (by simp)
  | next ft => cases ft <;> exact absurd (hlive.symm.trans h.1) (by simp)
  | done rc => cases rc <;> first | exact h.elim | exact absurd (hlive.symm.trans h.1) (by simp)
  | finalize rc => cases rc <;> first | exact h.elim | exact absurd (hlive.symm.trans h.1) (by simp)
  | _ => exact absurd (hlive.symm.trans h.1) (by simp)

/-- What a request has been given when it arrived. -/
def Req.given (r : Req) : Req where
  id := r.id
  loc := r.loc
  query := r.query
  dbname := r.dbname
  bodyInFile := r.bodyInFile
  nextPeer := 0
  remainingPeers := 0

/-- A request without what its connection, its life and its history are about. -/
def Req.kept (r : Req) : Req :=
  { r with
    hist := []
    state := .connect
    hasSetNames := false
    failed := false
    connection := none
    drizzleCon := none
    live := true
    inHandler := true
    cached := false
    used := 0
    enableCharset := false
    setNamesQuery := none
    name := []
    sockaddr := []
    nextPeer := 0
    remainingPeers := 0 }

namespace St

lemma GetPeer.hist {rc : Rc} (h : GetPeer s rc s') :
    ∃ es, s'.r.hist = es ++ s.r.hist ∧ ∀ e ∈ es, e = .overflow ∨ ∃ i, e = .pick i := by
  cases h with
  | single hmax hsingle hcache => exact ⟨[], rfl, by simp⟩
  | busy hleft => exact ⟨[], rfl, by simp⟩
  | multi hmax hmulti hcache haddr => exact ⟨[.pick s.r.nextPeer], rfl, by simp⟩
  | overflow getConn hfull =>
    cases getConn <;> exact ⟨[.overflow, .pick s.r.nextPeer], rfl, by simp⟩
  | create hroom h => cases h <;> exact ⟨[.pick s.r.nextPeer], rfl, by simp⟩

lemma FreePeer.hist {failed : Bool} (h : FreePeer failed s s') :
    (s.r.connection = none ∧ s'.r.hist = s.r.hist) ∨
    (∃ k ev, s.r.connection = some k ∧ failed = false ∧ s.r.reusable ∧
      s'.r.hist = .saved k ev :: s.r.hist) ∨
    ∃ k, s.r.connection = some k ∧ s'.r.hist = .closed k :: s.r.hist ∧
      (s.r.drizzleCon = some k → (s'.w.conns k).freed = (s.w.conns k).freed + 1) := by
  cases h with
  | idle b hc => exact .inl ⟨hc, rfl⟩
  | @saved k _ ev _ hc hmax hfailed hr ht => exact .inr (.inl ⟨k, ev, hc, hfailed, hr, rfl⟩)
  | @closed b k hc hr =>
    refine .inr (.inr ⟨k, hc, rfl, fun hdc => ?_⟩)
    have hw : ((s.modReq fun r => { r with failed := b }).dropConnection k).w =
        s.w.freeConnection (some k) (some k) :=
      congrArg (fun dc => s.w.freeConnection (some k) dc) hdc
    rw [hw, Worker.freeConnection_conns, if_pos rfl]
    rfl

/-- The history of the request grows by events that the position allows. -/
theorem exec_hist (env : Env) (hc : Custody p s) :
    ∃ es, (s.exec env p).2.r.hist = es ++ s.r.hist ∧ ∀ e ∈ es, p.logs e := by
  cases hp : p.stays with
  | true =>
    obtain ⟨es, hes, hinner, _⟩ := (stays_exec env hc hp).hist
    refine ⟨es, hes, fun e he => ?_⟩
    have := hinner e he
    cases p <;> first | exact this | cases hp
  | false =>
    cases p with
    | handlerTail =>
      refine ⟨[], ?_, by simp⟩
      rcases handlerTail_cases s with ⟨heq, _⟩ | ⟨_, _, _, heq⟩ <;> (rw [exec, heq]; rfl)
    | dbdConnect =>
      simp only [exec, dbdConnect]
      split
      · exact ⟨[], rfl, by simp⟩
      · obtain ⟨es, hes, hlogs⟩ := (getPeer_cases env.peer hc.ok.2.1.connection).hist
        refine ⟨.getPeer (s.getPeer env.peer).1 (s.getPeer env.peer).2.r.connection :: es, ?_, ?_⟩
        · simp [hes]
        · simp only [List.mem_cons]
          rintro e (rfl | he)
          · rfl
          · rcases hlogs e he with rfl | ⟨i, rfl⟩ <;> rfl
    | next ft =>
      obtain ⟨s₁, hs₁, hnext⟩ := next_cases (s := s) ft hc.queues
      have hhist : (s.exec env (.next ft)).2.r.hist = s₁.r.hist := by
        rw [exec]
        generalize s.next ft = ps at hnext
        obtain ⟨p', s'⟩ := ps
        cases hnext <;> rfl
      rw [hhist]
      split at hs₁
      · exact ⟨[], hs₁ ▸ rfl, by simp⟩
      · rcases hs₁.hist with ⟨_, heq⟩ | ⟨_, _, _, hfailed, _⟩ | ⟨j, _, heq, _⟩
        · exact ⟨[], heq, by simp⟩
        · cases hfailed
        · exact ⟨[.closed j], heq, by simp [Pos.logs]⟩
    | finalize rc =>
      have hrc : rc ≠ .declined := by
        rintro rfl
        exact hc.ok
      obtain ⟨_, hfin⟩ := finalizeRequest_cases env hrc hc.queues
      obtain ⟨s₁, hfree, es, hes, hhist⟩ : ∃ s₁, FreePeer false (s.log (.finalize rc)) s₁ ∧
          ∃ es : List ReqEvent, (∀ e ∈ es, e = .sendSpecial ∨ ∃ rc, e = .finalized rc) ∧
            (s.exec env (.finalize rc)).2.r.hist = es ++ s₁.r.hist := by
        rw [exec]
        generalize (s.finalizeRequest env rc).2 = s' at hfin
        cases hfin with
        | completed hfree hsend rc' =>
          exact ⟨_, hfree, [.finalized rc', .sendSpecial], by simp, rfl⟩
        | failed hfree hsend => exact ⟨_, hfree, [.finalized rc], by simp, rfl⟩
      have hlogs : ∀ e ∈ es, (Pos.finalize rc).logs e := by
        intro e he
        rcases hes e he with rfl | ⟨_, rfl⟩ <;> rfl
      rw [hhist]
      rcases hfree.hist with ⟨_, heq⟩ | ⟨j, ev, _, _, _, heq⟩ | ⟨j, _, heq, _⟩
      · exact ⟨es ++ [.finalize rc], by simp [heq],
          by simpa [or_imp, forall_and] using ⟨hlogs, rfl⟩⟩
      · exact ⟨es ++ [.saved j ev, .finalize rc], by simp [heq],
          by simpa [or_imp, forall_and] using ⟨hlogs, rfl, rfl⟩⟩
      · exact ⟨es ++ [.closed j, .finalize rc], by simp [heq],
          by simpa [or_imp, forall_and] using ⟨hlogs, rfl, rfl⟩⟩
    | _ => cases hp

/-- Behind a failed attempt there is no connection. -/
lemma connection_next (env : Env) {ft : Ft} (hc : Custody (.next ft) s) :
    (s.exec env (.next ft)).2.r.connection = none := by
  obtain ⟨s₁, hs₁, hnext⟩ := next_cases (s := s) ft hc.queues
  have hnone : s₁.r.connection = none := by
    split at hs₁
    · next hft =>
      subst hft
      exact hs₁ ▸ hc.ok.2.connection
    · exact hs₁.connection
  rw [exec]
  generalize s.next ft = ps at hnext ⊢
  obtain ⟨p', s'⟩ := ps
  cases hnext <;> exact hnone

/-- Behind the end of a request, it has no connection and is not live. -/
lemma exec_finalize (env : Env) {rc : Rc} (hc : Custody (.finalize rc) s) :
    (s.exec env (.finalize rc)).2.r.connection = none ∧
      (s.exec env (.finalize rc)).2.r.live = false := by
  have hrc : rc ≠ .declined := by
    rintro rfl
    exact hc.ok
  obtain ⟨_, hfin⟩ := finalizeRequest_cases env hrc hc.queues
  obtain ⟨s₁, es, hfree, hs'⟩ := hfin.exists_freePeer
  rw [exec, hs']
  exact ⟨hfree.connection, rfl⟩

/-- A request gets a connection only where it goes to get one. -/
lemma connection_of_exec (env : Env) (hc : Custody p s) (hp : p ≠ .dbdConnect)
    (hk : (s.exec env p).2.r.connection = some k) : s.r.connection = some k := by
  cases hstays : p.stays with
  | true => exact (stays_exec env hc hstays).connection.symm.trans hk
  | false =>
    cases p with
    | handlerTail =>
      rcases handlerTail_cases s with ⟨heq, _⟩ | ⟨j, _, _, heq⟩
      · rw [exec, heq] at hk
        exact hk
      · rw [exec, heq] at hk
        cases hk
    | dbdConnect => exact absurd rfl hp
    | next ft => cases (connection_next env hc).symm.trans hk
    | finalize rc => cases (exec_finalize env hc).1.symm.trans hk
    | _ => cases hstays

/-- A request that has a connection, and neither stays with it nor got it, leaves the handler. -/
lemma exec_of_connection (env : Env) (hc : Custody p s) (hstays : p.stays = false)
    (hp : p ≠ .dbdConnect) (hk : (s.exec env p).2.r.connection = some k) :
    (s.exec env p).2 = s.modReq fun r => { r with inHandler := false } := by
  cases p with
  | handlerTail =>
    rcases handlerTail_cases s with ⟨heq, _⟩ | ⟨j, _, _, heq⟩
    · rw [exec, heq]
    · rw [exec, heq] at hk
      cases hk
  | dbdConnect => exact absurd rfl hp
  | next ft => cases (connection_next env hc).symm.trans hk
  | finalize rc => cases (exec_finalize env hc).1.symm.trans hk
  | _ => cases hstays

/-- A connection that a request keeps has the descriptor that it had. -/
lemma fd_of_exec (env : Env) (hc : Custody p s) (hp : p ≠ .dbdConnect)
    (hk : (s.exec env p).2.r.connection = some k) :
    ((s.exec env p).2.w.conns k).fd = (s.w.conns k).fd := by
  cases hstays : p.stays with
  | true => exact (stays_exec env hc hstays).fd k
  | false => rw [exec_of_connection env hc hstays hp hk, modReq_w]

/-- Only a request that stays with its connection makes calls. -/
lemma exec_calls (env : Env) (hc : Custody p s) (hp : p.stays = false) :
    (s.exec env p).2.r.calls = s.r.calls := by
  obtain ⟨es, hes, hlogs⟩ := exec_hist env hc
  have hnil : es.filterMap ReqEvent.call = [] := by
    refine List.filterMap_eq_nil_iff.mpr fun e he => ?_
    have hlog := hlogs e he
    cases e with
    | lib =>
      cases p <;> first
        | exact absurd hlog Bool.false_ne_true
        | exact absurd hp.symm Bool.false_ne_true
    | _ => rfl
  rw [Req.calls, hes, List.filterMap_append, hnil]
  rfl

/-- A request goes to get a connection again only behind `ngx_http_upstream_drizzle_next`, which
resets what it knows of the connection before. -/
lemma exec_dbdConnect (env : Env) (hc : Custody p s) (h : (s.exec env p).1 = .dbdConnect) :
    (∃ ft, p = .next ft) ∧ (s.exec env p).2.r.hasSetNames = false ∧
      (s.exec env p).2.r.used = 0 ∧ (s.exec env p).2.r.cached = false := by
  cases p with
  | crashed => cases h
  | handlerTail =>
    rcases handlerTail_cases s with ⟨heq, _⟩ | ⟨_, _, _, heq⟩ <;>
    · rw [exec, heq] at h
      cases h
  | dbdConnect =>
    simp only [exec, dbdConnect] at h
    split at h <;> cases h
  | dbdConnected rc =>
    rw [exec] at h
    unfold dbdConnected at h
    split at h
    · cases h
    · cases h
    · cases h
    · split at h
      · cases h
      · next k _ =>
        have honward := onward_attach (s := s) (k := k) env rc
        rw [h] at honward
        cases honward
  | next ft =>
    obtain ⟨s₁, hs₁, hnext⟩ := next_cases (s := s) ft hc.queues
    refine ⟨⟨ft, rfl⟩, ?_⟩
    rw [exec] at h ⊢
    generalize s.next ft = ps at hnext h ⊢
    obtain ⟨p', s'⟩ := ps
    cases hnext with
    | stop => cases h
    | retry => exact ⟨rfl, rfl, rfl⟩
  | finalize rc =>
    have hrc : rc ≠ .declined := by
      rintro rfl
      exact hc.ok
    exact absurd ((finalizeRequest_cases env hrc hc.queues).1.symm.trans h) (by simp)
  | _ =>
    have honward := exec_onward env hc rfl (by simp) (by simp)
    rw [h] at honward
    cases honward

/-- A request that does not stay with its connection changes in its connection and its life alone.
-/
theorem exec_kept (env : Env) (hc : Custody p s) (hp : p.stays = false) :
    (s.exec env p).2.r.kept = s.r.kept := by
  cases p with
  | handlerTail =>
    rcases handlerTail_cases s with ⟨heq, _⟩ | ⟨_, _, _, heq⟩ <;> (rw [exec, heq]; rfl)
  | dbdConnect =>
    simp only [exec, dbdConnect]
    split
    · rfl
    · have hget := getPeer_cases env.peer hc.ok.2.1.connection
      generalize s.getPeer env.peer = ps at hget ⊢
      obtain ⟨rc, s'⟩ := ps
      cases hget with
      | overflow getConn => cases getConn <;> rfl
      | create hroom h => cases h <;> rfl
      | _ => rfl
  | next ft =>
    obtain ⟨s₁, hs₁, hnext⟩ := next_cases (s := s) ft hc.queues
    have hsame : s₁.r.kept = s.r.kept := by
      split at hs₁
      · rw [hs₁]
      · cases hs₁ <;> rfl
    rw [exec, ← hsame]
    generalize s.next ft = ps at hnext ⊢
    obtain ⟨p', s'⟩ := ps
    cases hnext <;> rfl
  | finalize rc =>
    have hrc : rc ≠ .declined := by
      rintro rfl
      exact hc.ok
    obtain ⟨_, hfin⟩ := finalizeRequest_cases env hrc hc.queues
    obtain ⟨s₁, es, hfree, hs'⟩ := hfin.exists_freePeer
    rw [exec, hs']
    cases hfree <;> rfl
  | _ => cases hp

/-- A request keeps what it has been given. -/
theorem exec_given (env : Env) (hc : Custody p s) : (s.exec env p).2.r.given = s.r.given := by
  cases hp : p.stays with
  | true => exact (congrArg Req.given (stays_exec env hc hp).req :)
  | false => exact (congrArg Req.given (exec_kept env hc hp) :)

/-- Only the end of a request ends its life. -/
lemma exec_live (env : Env) (hc : Custody p s) (hfinal : ∀ rc, p ≠ .finalize rc) :
    (s.exec env p).2.r.live = s.r.live := by
  cases hp : p.stays with
  | true => exact (stays_exec env hc hp).live
  | false =>
    cases p with
    | handlerTail =>
      rcases handlerTail_cases s with ⟨heq, _⟩ | ⟨_, _, _, heq⟩ <;> (rw [exec, heq]; rfl)
    | dbdConnect =>
      simp only [exec, dbdConnect]
      split
      · rfl
      · have hget := getPeer_cases env.peer hc.ok.2.1.connection
        generalize s.getPeer env.peer = ps at hget ⊢
        obtain ⟨rc, s'⟩ := ps
        cases hget with
        | overflow getConn => cases getConn <;> rfl
        | create hroom h => cases h <;> rfl
        | _ => rfl
    | next ft =>
      obtain ⟨s₁, hs₁, hnext⟩ := next_cases (s := s) ft hc.queues
      have hsame : s₁.r.live = s.r.live := by
        split at hs₁
        · rw [hs₁]
        · exact hs₁.live
      rw [exec, ← hsame]
      generalize s.next ft = ps at hnext ⊢
      obtain ⟨p', s'⟩ := ps
      cases hnext <;> rfl
    | finalize rc => exact absurd rfl (hfinal rc)
    | _ => cases hp

/-- Nothing is done for a request that has been finalized. -/
lemma exec_ended (env : Env) (hc : Custody p s) (hlive : s.r.live = false) :
    (s.exec env p).2 = s.modReq fun r => { r with inHandler := false } := by
  rcases hc.ok.loop_of_ended hlive with rfl | ⟨rfl, hnone⟩
  · obtain ⟨hin, _⟩ := hc.ok
    rw [exec, ← hin]
    rfl
  · rcases handlerTail_cases s with ⟨heq, _⟩ | ⟨j, hj, _⟩
    · rw [exec, heq]
    · cases hnone.symm.trans hj

lemma live_of_exec (env : Env) (hc : Custody p s) (hlive : (s.exec env p).2.r.live) : s.r.live := by
  by_contra hdead
  have hdead : s.r.live = false := by simpa using hdead
  rw [exec_ended env hc hdead] at hlive
  exact absurd (hdead.symm.trans hlive) Bool.false_ne_true

/-! ## The flags of a request -/

/-- Which steps change the status of a request and what is known of the `set names` query, and
which ones call `drizzle_query`. -/
structure Flags (p : Pos) (s s' : St) : Prop where
  /-- Only `ngx_http_upstream_drizzle_done` gives a request its status. -/
  statusN : (∀ rc, p ≠ .done rc) → s'.r.statusN = 0 ∨ s'.r.statusN = s.r.statusN
  /-- Only the functions that read an answer to the `set names` query note that it was sent. -/
  hasSetNames : p.stays → p ≠ .sendQuery → s'.r.hasSetNames = s.r.hasSetNames ∨
    p = .recvRows ∧ s.r.sendsSetNames
  queries : p.stays → p ≠ .sendQuery →
    ∃ cs, s'.r.calls = cs ++ s.r.calls ∧ ∀ call ∈ cs, call.isQuery = false

lemma Flags.of_eq (h : s'.r.statusN = 0 ∨ s'.r.statusN = s.r.statusN)
    (h' : s'.r.hasSetNames = s.r.hasSetNames) (hcalls : s'.r.calls = s.r.calls) :
    Flags p s s' := ⟨fun _ => h, fun _ _ => .inl h', fun _ _ => ⟨[], hcalls, nofun⟩⟩

lemma Flags.quiet (hq : DrizzleNginx.Quiet s s') : Flags p s s' :=
  .of_eq (.inr (congrArg Req.statusN hq.req :)) (congrArg Req.hasSetNames hq.req :) hq.calls

lemma Flags.congr {s₁ : St} (heq : s'.r = s₁.r) (h : Flags p s s₁) : Flags p s s' where
  statusN := heq ▸ h.statusN
  hasSetNames := heq ▸ h.hasSetNames
  queries := heq ▸ h.queries

/-- A call to read the result. -/
lemma Flags.of_call {call : LibCall} (h : s'.r.statusN = s.r.statusN)
    (h' : s'.r.hasSetNames = s.r.hasSetNames) (hcalls : s'.r.calls = call :: s.r.calls)
    (hquery : call.isQuery = false) : Flags p s s' :=
  ⟨fun _ => .inr h, fun _ _ => .inl h', fun _ _ => ⟨[call], hcalls, by simpa using hquery⟩⟩

lemma Flags.outputReady {s₀ : St} {rc : Rc} (h : OutputReady s₀ k rc s')
    (hs : s₀.r.statusN = s.r.statusN) (hn : s₀.r.hasSetNames = s.r.hasSetNames)
    (hcalls : s₀.r.calls = s.r.calls) : Flags p s s' := by
  have hq := h.quiet
  exact .of_eq (.inr ((congrArg Req.statusN hq.req :).trans hs))
    ((congrArg Req.hasSetNames hq.req :).trans hn) (hq.calls.trans hcalls)

lemma FreePeer.statusN {failed : Bool} (h : FreePeer failed s s') :
    s'.r.statusN = s.r.statusN := by
  cases h <;> rfl

lemma GetPeer.statusN {rc : Rc} (h : GetPeer s rc s') : s'.r.statusN = s.r.statusN := by
  cases h with
  | overflow getConn hfull => cases getConn <;> rfl
  | create hroom h => cases h <;> rfl
  | _ => rfl

/-- What `sendQuery` calls, and when it notes that the `set names` query was sent. -/
lemma sendQuery_flags (env : Env) :
    (s.sendQuery env k k).2.r.calls =
      .query s.r.id s.r.sendsSetNames s.r.queryToSend env.query :: s.r.calls ∧
    ((s.sendQuery env k k).2.r.hasSetNames = s.r.hasSetNames ∧
        Talk.queried s.r.sendsSetNames s.r.queryToSend env.query ≠ .idle ∨
      (s.sendQuery env k k).2.r.hasSetNames ∧ s.r.sendsSetNames ∧
        (env.query = .fail (.errorCode 1146) ∨ ∃ h, env.query = .ok h ∧ h.errorCode = 0)) := by
  have hn : ((s.queried k env.query).modWrite k NgxEvent.delTimer).r.sendsSetNames =
      s.r.sendsSetNames := rfl
  unfold sendQuery
  split
  · next hret =>
    rw [hret]
    simp only
    split <;> exact ⟨rfl, .inl ⟨rfl, (by rintro ⟨⟩)⟩⟩
  · next hret =>
    rw [hret] at hn ⊢
    dsimp only
    rw [hn]
    split
    · next hs => exact ⟨rfl, .inr ⟨rfl, hs, .inl rfl⟩⟩
    · next hs => exact ⟨rfl, .inl ⟨rfl, by simp [Talk.queried, hs, LibCall.noSuchTable]⟩⟩
  · next err herr hret =>
    rw [hret]
    have hne : err ≠ .errorCode LibCall.noSuchTable := by
      rintro rfl
      exact herr rfl
    exact ⟨rfl, .inl ⟨rfl, by simp [Talk.queried, hne]⟩⟩
  · next h hret =>
    rw [hret] at hn ⊢
    unfold queryOk
    dsimp only
    rw [hn]
    split
    · next hs =>
      split
      · next hcode => exact ⟨rfl, .inl ⟨rfl, by simp [Talk.queried, hs, hcode]⟩⟩
      · next hcode => exact ⟨rfl, .inr ⟨rfl, hs, .inr ⟨h, rfl, not_not.mp hcode⟩⟩⟩
    · next hs =>
      have hne : Talk.queried s.r.sendsSetNames s.r.queryToSend (.ok h) ≠ .idle := by
        simp only [Talk.queried, hs, Bool.false_eq_true, if_false]
        split <;> simp
      split <;> exact ⟨rfl, .inl ⟨rfl, hne⟩⟩

/-- What a step does to the flags. -/
theorem exec_flags (env : Env) (hc : Custody p s) : Flags p s (s.exec env p).2 := by
  have hother : ∀ {p' : Pos} {s' : St}, p'.stays = false → s'.r.statusN = s.r.statusN →
      Flags p' s s' := fun hp h =>
    ⟨fun _ => .inr h, fun hs => by simp [hp] at hs, fun hs => by simp [hp] at hs⟩
  cases p with
  | loop => exact .of_eq (.inr rfl) rfl rfl
  | crashed => exact .of_eq (.inr rfl) rfl rfl
  | handlerTail =>
    rcases handlerTail_cases s with ⟨heq, _⟩ | ⟨_, _, _, heq⟩ <;>
      exact hother rfl (by rw [exec, heq]; rfl)
  | event ev =>
    obtain ⟨k, hk⟩ := connection_of_event hc
    simp only [exec, handleEvent]
    split
    · unfold dbHandler
      simp only [modReq_r, hk]
      split
      · exact .of_eq (.inr rfl) rfl rfl
      · split <;> exact .of_eq (.inr rfl) rfl rfl
    · split
      · next timedout _ hdrain =>
        obtain ⟨k, hk⟩ := holds_of_event hc (hc.ordered.drains hdrain)
        exact .quiet (quiet_drainOutput env timedout hk.connection hk.drizzleCon)
      · exact .of_eq (.inr rfl) rfl rfl
      · exact .of_eq (.inr rfl) rfl rfl
    · unfold checkBrokenConnection
      split <;> exact .of_eq (.inr rfl) rfl rfl
    · exact .of_eq (.inr rfl) rfl rfl
  | dbdConnect =>
    refine hother rfl ?_
    simp only [exec, dbdConnect]
    split
    · rfl
    · exact (getPeer_cases env.peer hc.ok.2.1.connection).statusN
  | dbdConnected rc =>
    -- the header of an earlier attempt is cleared
    have hclear : s.clearHeader.r.statusN = 0 ∨ s.clearHeader.r.statusN = s.r.statusN := by
      unfold clearHeader
      dsimp only [modReq_r]
      split
      · exact .inl rfl
      · exact .inr rfl
    simp only [exec, dbdConnected]
    split
    · exact .of_eq (.inr rfl) rfl rfl
    · exact .of_eq (.inr rfl) rfl rfl
    · exact .of_eq (.inr rfl) rfl rfl
    · split
      · exact .of_eq (.inr rfl) rfl rfl
      · unfold attach
        simp only
        split
        · exact .of_eq hclear rfl rfl
        · split
          · exact .of_eq hclear rfl rfl
          · split <;> exact .of_eq hclear rfl rfl
  | processEvents =>
    simp only [exec, processEvents]
    split
    · exact .of_eq (.inr rfl) rfl rfl
    · split <;> exact .of_eq (.inr rfl) rfl rfl
  | connect =>
    obtain ⟨_, k, hk⟩ := hc.ok
    rw [exec, onConn_of hk.connection hk.drizzleCon]
    unfold connect
    simp only
    split <;> exact .of_eq (.inr rfl) rfl rfl
  | sendQuery =>
    obtain ⟨_, k, hk⟩ := hc.ok
    rw [exec, onConn_of hk.connection hk.drizzleCon]
    obtain ⟨s₂, hout, ht⟩ := sendQuery_cases (s := s) (k := k) env
    refine ⟨fun _ => ?_, fun _ hne => absurd rfl hne, fun _ hne => absurd rfl hne⟩
    rw [ht.req]
    generalize (s.sendQuery env k k).1 = p' at hout
    cases hout <;> exact .inr rfl
  | recvCols =>
    obtain ⟨_, k, hk⟩ := hc.ok
    rw [exec, onConn_of hk.connection hk.drizzleCon]
    obtain ⟨s₂, hout, ht⟩ := recvCols_cases env hk.connection
    refine Flags.congr ht.req ?_
    generalize (s.recvCols env k k).1 = p' at hout
    cases hout with
    | stop h hrc => exact .outputReady h rfl rfl rfl
    | _ => exact .of_call rfl rfl rfl rfl
  | recvRows =>
    obtain ⟨_, k, hk⟩ := hc.ok
    rw [exec, onConn_of hk.connection hk.drizzleCon]
    obtain ⟨s₂, hout, ht⟩ := recvRows_cases env hk.connection
    refine Flags.congr ht.req ?_
    generalize (s.recvRows env k k).1 = p' at hout
    cases hout with
    | stop h hrc => exact .outputReady h rfl rfl rfl
    | namesEnd ho hrow hn ho' =>
      exact ⟨fun _ => .inr rfl, fun _ _ => .inr ⟨rfl, hn⟩, fun _ _ => ⟨[_], rfl, by simp; rfl⟩⟩
    | inRow ho hrow => exact .of_eq (.inr rfl) rfl rfl
    | _ => exact .of_call rfl rfl rfl rfl
  | recvFields =>
    obtain ⟨_, k, hk⟩ := hc.ok
    rw [exec, onConn_of hk.connection hk.drizzleCon]
    obtain ⟨s₂, hout, ht⟩ := recvFields_cases env hk.connection
    refine Flags.congr ht.req ?_
    generalize (s.recvFields env k k).1 = p' at hout
    cases hout with
    | stop h hrc => exact .outputReady h rfl rfl rfl
    | _ => exact .of_call rfl rfl rfl rfl
  | ret rc =>
    have hout := processed_cases (s := s) env rc
    rw [exec]
    generalize s.processed env rc = ps at hout ⊢
    obtain ⟨p', s'⟩ := ps
    cases hout <;> exact .of_eq (.inr rfl) rfl rfl
  | done rc =>
    obtain ⟨flush, o, _, hs', _⟩ := done_cases (s := s) env rc
    rw [exec, hs']
    exact ⟨fun hp => absurd rfl (hp rc), fun _ _ => .inl rfl, fun _ _ => ⟨[], rfl, (by simp)⟩⟩
  | next ft =>
    refine hother rfl ?_
    obtain ⟨s₁, hs₁, hnext⟩ := next_cases (s := s) ft hc.queues
    have hstatus : s₁.r.statusN = s.r.statusN := by
      split at hs₁
      · rw [hs₁]
      · exact hs₁.statusN
    rw [exec, ← hstatus]
    generalize s.next ft = ps at hnext ⊢
    obtain ⟨p', s'⟩ := ps
    cases hnext <;> rfl
  | finalize rc =>
    refine hother rfl ?_
    have hrc : rc ≠ .declined := by
      rintro rfl
      exact hc.ok
    obtain ⟨_, hfin⟩ := finalizeRequest_cases env hrc hc.queues
    obtain ⟨s₁, es, hfree, hs'⟩ := hfin.exists_freePeer
    rw [exec, hs']
    exact hfree.statusN

/-! ## The calls on connections -/

lemma modConn_record (w : Worker) (j : ℕ) {f : Conn → Conn}
    (hf : ∀ c, (f c).peer = c.peer ∧ (f c).hist = c.hist) (k : ℕ) :
    ((w.modConn j f).conns k).peer = (w.conns k).peer ∧
      ((w.modConn j f).conns k).hist = (w.conns k).hist := by
  rw [Worker.modConn_conns]
  split
  · next hk =>
    subst hk
    exact hf _
  · exact ⟨rfl, rfl⟩

lemma freeConnection_record (w : Worker) (c dc : Option ℕ) (k : ℕ) :
    ((w.freeConnection c dc).conns k).peer = (w.conns k).peer ∧
      ((w.freeConnection c dc).conns k).hist = (w.conns k).hist := by
  obtain ⟨w', hw', hk⟩ : ∃ w', w' = (w.freeConnection none dc) ∧
      (w'.conns k).peer = (w.conns k).peer ∧ (w'.conns k).hist = (w.conns k).hist := by
    refine ⟨_, rfl, ?_⟩
    cases dc with
    | none => exact ⟨rfl, rfl⟩
    | some dc => exact modConn_record _ dc (f := Conn.free) (fun _ => ⟨rfl, rfl⟩) k
  cases c with
  | none => exact hw' ▸ hk
  | some c =>
    have hclose := modConn_record w' c (f := Conn.close) (fun _ => ⟨rfl, rfl⟩) k
    rw [hk.1, hk.2, hw'] at hclose
    exact hclose

lemma FreePeer.record {failed : Bool} (h : FreePeer failed s s') (k : ℕ) :
    (s'.w.conns k).peer = (s.w.conns k).peer ∧ (s'.w.conns k).hist = (s.w.conns k).hist := by
  cases h with
  | idle b hc => exact ⟨rfl, rfl⟩
  | @saved j item ev w hc hmax hfailed hr ht =>
    have hw : (w.conns k).peer = (s.w.conns k).peer ∧ (w.conns k).hist = (s.w.conns k).hist := by
      cases ht with
      | free hfree => exact ⟨rfl, rfl⟩
      | evict hfree hcache => exact freeConnection_record _ _ _ k
    have hsave := modConn_record w j (f := Conn.delTimers) (fun _ => ⟨rfl, rfl⟩) k
    rwa [hw.1, hw.2] at hsave
  | @closed b j hc hr => exact freeConnection_record s.w (some j) s.r.drizzleCon k

lemma GetPeer.record {rc : Rc} (h : GetPeer s rc s') (k : ℕ) : (s'.w.conns k).hist = [] ∨
    (s'.w.conns k).peer = (s.w.conns k).peer ∧ (s'.w.conns k).hist = (s.w.conns k).hist := by
  have hupdate : ∀ (w : Worker) (con : Conn), con.hist = [] →
      (Function.update w.conns w.nconns con k).hist = [] ∨
        (Function.update w.conns w.nconns con k).peer = (w.conns k).peer ∧
          (Function.update w.conns w.nconns con k).hist = (w.conns k).hist := by
    intro w con hcon
    rw [Function.update_apply]
    split
    · exact .inl hcon
    · exact .inr ⟨rfl, rfl⟩
  cases h with
  | single hmax hsingle hcache => exact .inr ⟨rfl, rfl⟩
  | busy hleft => exact .inr ⟨rfl, rfl⟩
  | multi hmax hmulti hcache haddr => exact .inr ⟨rfl, rfl⟩
  | overflow getConn hfull =>
    cases getConn with
    | true => exact hupdate s.w _ rfl
    | false => exact .inr ⟨rfl, rfl⟩
  | create hroom h =>
    cases h with
    | noMemory => exact .inr ⟨rfl, rfl⟩
    | refused hrc hcon hstate => exact hupdate s.w _ hcon.hist
    | fresh hrc hcon => exact hupdate s.w _ hcon.hist

/-- Nothing is written into the history of a connection, except that of a request that keeps its
connection. -/
theorem exec_record (env : Env) (hc : Custody p s) (k : ℕ) :
    (p.stays ∧ s.r.connection = some k ∧ (s.exec env p).2.r.connection = some k) ∨
    ((s.exec env p).2.w.conns k).hist = [] ∨
    ((s.exec env p).2.w.conns k).peer = (s.w.conns k).peer ∧
      ((s.exec env p).2.w.conns k).hist = (s.w.conns k).hist := by
  cases hp : p.stays with
  | true =>
    have hstays := stays_exec env hc hp
    by_cases hk : s.r.connection = some k
    · exact .inl ⟨rfl, hk, hstays.connection.trans hk⟩
    · rw [hstays.conns_of_ne k hk]
      exact .inr (.inr ⟨rfl, rfl⟩)
  | false =>
    right
    cases p with
    | handlerTail =>
      right
      rcases handlerTail_cases s with ⟨heq, _⟩ | ⟨j, _, _, heq⟩
      · rw [exec, heq]
        exact ⟨rfl, rfl⟩
      · rw [exec, heq]
        exact modConn_record s.w j
          (f := fun c => { c with write := c.write.delTimer }) (fun _ => ⟨rfl, rfl⟩) k
    | dbdConnect =>
      simp only [exec, dbdConnect]
      split
      · exact .inr ⟨rfl, rfl⟩
      · exact (getPeer_cases env.peer hc.ok.2.1.connection).record k
    | next ft =>
      right
      obtain ⟨s₁, hs₁, hnext⟩ := next_cases (s := s) ft hc.queues
      have hw : (s.exec env (.next ft)).2.w = s₁.w := by
        rw [exec]
        generalize s.next ft = ps at hnext
        obtain ⟨p', s'⟩ := ps
        cases hnext <;> rfl
      rw [hw]
      split at hs₁
      · exact hs₁ ▸ ⟨rfl, rfl⟩
      · exact hs₁.record k
    | finalize rc =>
      right
      have hrc : rc ≠ .declined := by
        rintro rfl
        exact hc.ok
      obtain ⟨_, hfin⟩ := finalizeRequest_cases env hrc hc.queues
      obtain ⟨s₁, es, hfree, hs'⟩ := hfin.exists_freePeer
      rw [exec, hs']
      exact hfree.record k
    | _ => cases hp

/-- A call enters the history of the request that made it together with that of the
connection. -/
lemma Stays.hist_calls (h : Stays s s') (k : ℕ) : ∀ call ∈ (s'.w.conns k).hist,
    call ∈ (s.w.conns k).hist ∨ .lib k call ∈ s'.r.hist := by
  intro call hmem
  by_cases hk : s.r.connection = some k
  · obtain ⟨es, hes, _, hlib, hcalls⟩ := h.hist
    rw [hcalls k hk, List.mem_append] at hmem
    refine hmem.symm.imp_right fun hmem => ?_
    obtain ⟨e, he, hcall⟩ := List.mem_filterMap.mp hmem
    cases e with
    | lib j c =>
      obtain rfl : c = call := Option.some.inj hcall
      obtain rfl := Option.some.inj (hk.symm.trans (hlib j c he))
      rw [hes]
      exact List.mem_append_left _ he
    | _ => cases hcall
  · rw [h.conns_of_ne k hk] at hmem
    exact .inl hmem

lemma exec_hist_calls (env : Env) (hc : Custody p s) (k : ℕ) :
    ∀ call ∈ ((s.exec env p).2.w.conns k).hist,
      call ∈ (s.w.conns k).hist ∨ .lib k call ∈ (s.exec env p).2.r.hist := by
  intro call hmem
  rcases exec_record env hc k with ⟨hp, _⟩ | hnil | ⟨_, heq⟩
  · exact Stays.hist_calls (stays_exec env hc hp) k call hmem
  · simp [hnil] at hmem
  · exact .inl (heq ▸ hmem)

end St

/-! ## Known facts -/

/-- The conversation of each request with the client library, as a claim about requests. -/
def Local.session : Local where
  req _ p r _ := ∃ t, Session p r t
  item _ _ _ := True

lemma Local.session_kept (D : Env → Pos → St → Prop) : Local.session.Kept D where
  init w id a _ hp := ⟨_, session_init w id a hp⟩
  fire e _ _ _ h := h.imp fun _ => session_fire e
  client _ _ _ _ _ h := h.imp fun _ h => h.move rfl rfl rfl rfl h.fits h.status
  exec env _ _ hc _ h _ := h.elim fun _ => St.session_exec env hc
  saved _ _ _ _ _ _ _ _ _ _ := trivial

lemma Session.lib_req {t : Talk} {r : Req} (h : Session p r t) {call : LibCall}
    (hlib : .lib k call ∈ r.hist) : call.req = r.id :=
  h.req call (List.mem_filterMap.mpr ⟨_, hlib, rfl⟩)

namespace Sys

/-- The calls in the history of a connection were made by requests that know of them. -/
def Tagged (s : Sys) : Prop :=
  ∀ k, ∀ call ∈ (s.w.conns k).hist, ∃ r, s.reqs[call.req]? = some r ∧ .lib k call ∈ r.hist

variable {s : Sys} {i : ℕ} {r : Req}

/-- The request knows of its calls on connections. -/
lemma Tagged.view (h : s.Tagged) (ho : s.Owned) (hi : s.reqs[i]? = some r) (k : ℕ) :
    ∀ call ∈ (s.w.conns k).hist, call.req = r.id → .lib k call ∈ r.hist := by
  intro call hmem hreq
  obtain ⟨q, hq, hlib⟩ := h k call hmem
  rw [hreq, ho.id i r hi, hi] at hq
  exact Option.some.inj hq ▸ hlib

/-- A step of one request enters its calls into both histories. -/
lemma Tagged.put (h : s.Tagged) (hi : s.reqs[i]? = some r) {ps : Pos × St}
    (hgrow : ∃ es, ps.2.r.hist = es ++ r.hist)
    (hreq : ∀ k call, .lib k call ∈ ps.2.r.hist → call.req = i)
    (hcalls : ∀ k, ∀ call ∈ (ps.2.w.conns k).hist,
      call ∈ (s.w.conns k).hist ∨ .lib k call ∈ ps.2.r.hist) : (s.put i ps).Tagged := by
  obtain ⟨hlt, _⟩ := List.getElem?_eq_some_iff.mp hi
  intro k call hmem
  rcases hcalls k call hmem with hold | hnew
  · obtain ⟨q, hq, hlib⟩ := h k call hold
    rcases eq_or_ne call.req i with heq | hne
    · rw [heq, hi] at hq
      obtain rfl := Option.some.inj hq
      obtain ⟨es, hes⟩ := hgrow
      refine ⟨ps.2.r, ?_, ?_⟩
      · rw [heq]
        exact List.getElem?_set_self hlt
      · rw [hes]
        exact List.mem_append_right _ hlib
    · exact ⟨q, (List.getElem?_set_ne hne.symm).trans hq, hlib⟩
  · refine ⟨ps.2.r, ?_, hnew⟩
    rw [hreq k call hnew]
    exact List.getElem?_set_self hlt

lemma Tagged.step (h : s.Tagged) (ho : s.Owned) (hs : Local.session.Holds s) (l : Label) :
    (s.step l).Tagged := by
  have hstep := step_cases s l
  generalize s.step l = s' at hstep ⊢
  cases hstep with
  | skip => exact h
  | arrive a hidle =>
    intro k call hmem
    obtain ⟨r, hr, hlib⟩ := h k call hmem
    exact ⟨r, by rw [List.getElem?_append_left (List.getElem?_eq_some_iff.mp hr).1]; exact hr, hlib⟩
  | @event i e r hidle hi he =>
    have hstays := stays_fire e (s.view r)
    obtain ⟨es, hes, _⟩ := hstays.hist
    obtain ⟨t, ht⟩ := hs.req i r hi
    rw [pos_of_idle hidle] at ht
    exact h.put hi ⟨es, hes⟩
      (fun k call hlib => ((session_fire (s := s.view r) e ht).lib_req hlib).trans
        (hstays.id.trans (ho.id i r hi)))
      fun k => St.Stays.hist_calls hstays k
  | @client i r cc hi =>
    intro k call hmem
    obtain ⟨q, hq, hlib⟩ := h k call hmem
    obtain ⟨hlt, _⟩ := List.getElem?_eq_some_iff.mp hi
    rcases eq_or_ne call.req i with heq | hne
    · rw [heq, hi] at hq
      obtain rfl := Option.some.inj hq
      exact ⟨r.onClient cc, by rw [heq]; exact List.getElem?_set_self hlt, hlib⟩
    · exact ⟨q, (List.getElem?_set_ne hne.symm).trans hq, hlib⟩
  | idle slot stale hidle =>
    intro k call hmem
    have hrec : (((s.w.closeHandler slot stale)).conns k).hist = (s.w.conns k).hist := by
      rcases closeHandler_cases s.w slot stale with heq | ⟨item, l₁, l₂, _, heq⟩
      · rw [heq]
      · rw [heq]
        exact (St.freeConnection_record s.w item.connection item.drizzleCon k).2
    exact h k call (hrec ▸ hmem)
  | tick now hidle => exact h
  | @run env i p r hact hi =>
    have hc := ho.custody hi
    obtain ⟨t, ht⟩ := hs.req i r hi
    rw [pos_of_active hact] at hc ht
    obtain ⟨es, hes, _⟩ := St.exec_hist env hc
    obtain ⟨t', ht'⟩ := St.session_exec env hc ht
    have hid := (St.exec_advances env hc).moves.id.trans (ho.id i r hi)
    exact h.put hi ⟨es, hes⟩ (fun k call hlib => (ht'.lib_req hlib).trans hid)
      fun k => St.exec_hist_calls env hc k

/-- What is known of the histories in all states of all runs. -/
structure Recorded (s : Sys) : Prop where
  owned : s.Owned
  session : Local.session.Holds s
  tagged : s.Tagged

lemma Recorded.step (h : s.Recorded) (l : Label) : (s.step l).Recorded where
  owned := h.owned.step l
  session := (Local.session_kept fun _ _ _ => True).step h.session h.owned
    fun _ _ _ _ _ _ _ => trivial
  tagged := h.tagged.step h.owned h.session l

lemma recorded_init (conf : Conf) : (init conf).Recorded where
  owned := owned_init conf
  session := Local.holds_init _ conf
  tagged k call hmem := by simp [init] at hmem

/-- In all states of all runs the histories fit together. -/
theorem recorded_run (conf : Conf) (ls : List Label) : (run conf ls).Recorded :=
  Lib.run_invariant (C := fun _ _ => True) (fun _ l _ h => h.step l) (recorded_init conf)
    (Lib.Meets.of_forall (fun _ _ => trivial) ls _)

end Sys

/-! ## The histories of all connections -/

/-- A step writes into the history of a connection only for a request that holds the connection
afterwards. -/
lemma Sys.step_record {s : Sys} (ho : s.Owned) (l : Label) (k : ℕ) :
    (∃ (i : ℕ) (r : Req), (s.step l).reqs[i]? = some r ∧ r.connection = some k) ∨
    ((s.step l).w.conns k).hist = [] ∨
    ((s.step l).w.conns k).peer = (s.w.conns k).peer ∧
      ((s.step l).w.conns k).hist = (s.w.conns k).hist := by
  have hput : ∀ {i : ℕ} {r : Req} {ps : Pos × St}, s.reqs[i]? = some r →
      ps.2.r.connection = some k →
      ∃ (j : ℕ) (q : Req), (s.put i ps).reqs[j]? = some q ∧ q.connection = some k := by
    intro i r ps hi hk
    obtain ⟨hlt, _⟩ := List.getElem?_eq_some_iff.mp hi
    exact ⟨i, ps.2.r, List.getElem?_set_self hlt, hk⟩
  have hstep := step_cases s l
  generalize s.step l = s' at hstep ⊢
  cases hstep with
  | @event i e r hidle hi he =>
    have hstays := stays_fire e (s.view r)
    by_cases hk : r.connection = some k
    · exact .inl (hput hi (hstays.connection.trans hk))
    · have : (e.fire (s.view r)).w.conns k = s.w.conns k := hstays.conns_of_ne k hk
      exact .inr (.inr ⟨congrArg Conn.peer this, congrArg Conn.hist this⟩)
  | idle slot stale hidle =>
    right; right
    rcases closeHandler_cases s.w slot stale with heq | ⟨item, _, _, _, heq⟩
    · rw [heq]
      exact ⟨rfl, rfl⟩
    · rw [heq]
      exact St.freeConnection_record s.w item.connection item.drizzleCon k
  | @run env i p r hact hi =>
    have hc := ho.custody hi
    rw [pos_of_active hact] at hc
    exact (St.exec_record env hc k).imp_left fun h =>
      hput hi h.2.2
  | _ => exact .inr (.inr ⟨rfl, rfl⟩)

/-- What a claim says of the connections that requests hold, about the peer and the history, is
true of all connections, also of those that have been closed. -/
theorem Local.Kept.run_record {L : Local} {D : Env → Pos → St → Prop} (hL : L.Kept D)
    {G : Conf → ℕ → List LibCall → Prop} (hnil : ∀ conf i, G conf i [])
    (hG : ∀ conf p r c, L.req conf p r c → r.connection ≠ none → G conf c.peer c.hist)
    (conf : Conf) {ls : List Label}
    (hd : Lib.Meets Sys.step (Sys.RunsMeet D) (Sys.init conf) ls) (k : ℕ) :
    G conf ((Sys.run conf ls).w.conns k).peer ((Sys.run conf ls).w.conns k).hist := by
  refine Lib.run_invariant_of (I := fun s => s.Owned ∧ L.Holds s ∧ s.w.conf = conf)
    (J := fun s => ∀ k, G conf (s.w.conns k).peer (s.w.conns k).hist)
    (fun _ l hl h => ⟨h.1.step l, hL.step h.2.1 h.1 hl, (h.1.conf_step l).trans h.2.2⟩)
    (fun s l hl h hJ k => ?_) ⟨Sys.owned_init conf, holds_init L conf, rfl⟩
    (fun _ => hnil conf _) hd k
  rcases Sys.step_record h.1 l k with ⟨i, r, hi, hk⟩ | heq | ⟨hpeer, hhist⟩
  · have hreq := (hL.step h.2.1 h.1 hl).req i r hi
    rw [St.conn_of (s := (s.step l).view r) hk, h.1.conf_step l, h.2.2] at hreq
    exact hG _ _ _ _ hreq (by simp [hk])
  · rw [heq]
    exact hnil conf _
  · rw [hpeer, hhist]
    exact hJ k

/-! ## What a step may use -/

/-- What a step may use about the histories. -/
structure Known (p : Pos) (s : St) : Prop where
  session : ∃ t, Session p s.r t
  calls : ∀ k, ∀ call ∈ (s.w.conns k).hist, call.req = s.r.id → .lib k call ∈ s.r.hist

lemma Sys.known_meets (conf : Conf) (ls : List Label) :
    Lib.Meets Sys.step (RunsMeet fun _ p s => Known p s) (init conf) ls := by
  have h : Lib.Meets Sys.step (fun s _ => s.Recorded) (init conf) ls :=
    Lib.Meets.of_invariant (C := fun _ _ => True) (fun _ l _ h => h.step l) (recorded_init conf)
      (Lib.Meets.of_forall (fun _ _ => trivial) ls _)
  refine h.mono fun s l h env i p r _ hact hi => ⟨?_, h.tagged.view h.owned hi⟩
  rw [← pos_of_active hact]
  exact h.session.req i r hi

end DrizzleNginx
