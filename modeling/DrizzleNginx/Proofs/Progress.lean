/-
# Back to the event loop

The functions of the module call each other in cycles: queries are sent behind queries, rows are
read behind rows, and a failed connection leads to the next one.  A worker process that never came
back from them would serve nobody.  Here each position gets a number of steps.  A step of the module
lowers it, except when libdrizzle has delivered a piece of the result, or when the request goes to
the next peer or to the next connection of the cache.
-/
import DrizzleNginx.Lib.Ranking
import DrizzleNginx.Proofs.RoundRobin

namespace DrizzleNginx

open Talk

/-! ## The rank of a position -/

/-- The steps from a position to the end of an attempt, if libdrizzle delivers nothing. -/
def Pos.toGo (r : Req) : Pos → ℕ
  | loop => 0
  | crashed => 0
  | finalize _ => 1
  | handlerTail => 2
  | done _ => 2
  | next .nolive => 2
  | next _ => 5
  | dbdConnected .busy => 3
  | dbdConnect => 4
  | ret _ => 6
  | recvFields => 7
  | recvRows => 8
  | recvCols => 8
  | sendQuery => 9 + r.sendsSetNames.toNat
  | connect => 11
  | processEvents => 12
  | event _ => 13
  | dbdConnected _ => 13

/-- The attempts that a request can still make: with other peers, or with connections of the cache.
-/
def St.attemptsLeft (s : St) : ℕ :=
  if s.r.live then s.r.remainingPeers + s.w.pool.cache.length else 0

/-- The rank of a position.  The call of `ngx_http_drizzle_handler` has an end of its own. -/
def Pos.budget (p : Pos) (s : St) : ℕ :=
  p.toGo s.r + (if s.r.inHandler ∧ p ≠ .handlerTail then 2 else 0) + 10 * s.attemptsLeft

/-- The pieces of the result that libdrizzle has delivered for a request. -/
def Req.delivered (r : Req) : ℕ := (answers r.calls).length

/-- A step from one position to another lowers the rank, or libdrizzle has delivered something. -/
def Pos.Lowers (p : Pos) (s : St) (ps : Pos × St) : Prop :=
  ps.1.budget ps.2 + 1 + 2 * s.r.delivered ≤ p.budget s + 2 * ps.2.r.delivered

variable {s s' : St} {p q : Pos} {k : ℕ}

/-! ## Steps that stay with the connection -/

lemma Stays.attemptsLeft (h : Stays s s') : s'.attemptsLeft = s.attemptsLeft := by
  have hleft : s'.r.remainingPeers = s.r.remainingPeers := (congrArg Req.remainingPeers h.req :)
  rw [St.attemptsLeft, St.attemptsLeft, h.live, hleft, h.pool]

/-- Behind `ngx_http_drizzle_handler`, its end does not matter. -/
lemma Pos.lowers_of {ps : Pos × St} (hp : p ≠ .handlerTail) (hin : ps.2.r.inHandler = s.r.inHandler)
    (h : ps.1.toGo ps.2.r + 10 * ps.2.attemptsLeft + 1 + 2 * s.r.delivered ≤
      p.toGo s.r + 10 * s.attemptsLeft + 2 * ps.2.r.delivered) : p.Lowers s ps := by
  have hbonus : (if ps.2.r.inHandler ∧ ps.1 ≠ .handlerTail then 2 else 0) ≤
      if s.r.inHandler ∧ p ≠ .handlerTail then 2 else 0 := by
    rw [hin]
    split
    · next hin => rw [if_pos ⟨hin.1, hp⟩]
    · exact Nat.zero_le _
  rw [Pos.Lowers, Pos.budget, Pos.budget]
  omega

/-- If the request stays with its connection, it is enough to look at the positions. -/
lemma Stays.lowers {ps : Pos × St} (h : Stays s ps.2) (hp : p ≠ .handlerTail)
    (hsteps : ps.1.toGo ps.2.r + 1 + 2 * s.r.delivered ≤ p.toGo s.r + 2 * ps.2.r.delivered) :
    p.Lowers s ps := by
  refine Pos.lowers_of hp h.inHandler ?_
  rw [h.attemptsLeft]
  omega

namespace St

/-- What libdrizzle has delivered stays delivered. -/
lemma delivered_exec (env : Env) (hc : Custody p s) :
    s.r.delivered ≤ (s.exec env p).2.r.delivered := by
  obtain ⟨es, hes, _⟩ := exec_hist env hc
  have hcalls : (s.exec env p).2.r.calls = es.filterMap ReqEvent.call ++ s.r.calls := by
    rw [Req.calls, hes, List.filterMap_append]
    rfl
  rw [Req.delivered, Req.delivered, hcalls, answers_append, List.length_append]
  exact Nat.le_add_right _ _

lemma toGo_handleEvent (env : Env) {e : Event} (hc : Custody (.event e) s) :
    (s.handleEvent env e).1.toGo (s.handleEvent env e).2.r ≤ 12 := by
  obtain ⟨k, hk⟩ := connection_of_event hc
  unfold handleEvent
  split
  · unfold dbHandler
    simp only [modReq_r, hk]
    split
    · simp [Pos.toGo]
    · split
      · simp [Pos.toGo]
      · simp [Pos.toGo]
  · split
    · next hhandler =>
      obtain ⟨k, hk⟩ := holds_of_event hc (hc.ordered.drains hhandler)
      have hdrain := drainOutput_cases env ‹_› hk.connection hk.drizzleCon
      generalize s.drainOutput env _ = ps at hdrain ⊢
      obtain ⟨p', s'⟩ := ps
      cases hdrain with
      | failed => exact Nat.le_of_ble_eq_true rfl
      | waits => exact Nat.zero_le _
      | resumed => exact Nat.le_refl _
    · exact Nat.zero_le _
    · exact Nat.zero_le _
  · unfold checkBrokenConnection
    split
    · exact Nat.le_of_ble_eq_true rfl
    · exact Nat.le_of_ble_eq_true rfl
  · exact Nat.le_of_ble_eq_true rfl

lemma toGo_dbdConnected (env : Env) (rc : Rc) :
    (s.dbdConnected env rc).1.toGo (s.dbdConnected env rc).2.r + 1 ≤
      (Pos.dbdConnected rc).toGo s.r := by
  have hattach : ∀ rc c, (s.attach env rc c).1.toGo (s.attach env rc c).2.r ≤ 12 := by
    intro rc c
    unfold attach
    simp only
    split
    · exact Nat.le_of_ble_eq_true rfl
    · split
      · exact Nat.le_of_ble_eq_true rfl
      · split
        · exact Nat.zero_le _
        · exact Nat.le_refl _
  unfold dbdConnected
  cases rc with
  | error => exact Nat.le_of_ble_eq_true rfl
  | busy => exact Nat.le_refl _
  | declined => exact Nat.le_of_ble_eq_true rfl
  | _ =>
    simp only
    split
    · exact Nat.le_of_ble_eq_true rfl
    · exact Nat.succ_le_succ (hattach _ _)

/-- A state function is left, or libdrizzle has delivered something. -/
lemma toGo_sendQuery (env : Env) : (s.sendQuery env k k).1.toGo (s.sendQuery env k k).2.r + 1 ≤
    Pos.sendQuery.toGo s.r := by
  obtain ⟨s₂, hout, htimed⟩ := sendQuery_cases (s := s) (k := k) env
  rw [htimed.req]
  generalize (s.sendQuery env k k).1 = p' at hout ⊢
  have hnames : ∀ r : Req, r.hasSetNames → r.sendsSetNames = false := by
    intro r hr
    rw [Req.sendsSetNames, hr]
    exact Bool.and_false _
  cases hout with
  | namesGone hn =>
    rw [Pos.toGo, Pos.toGo, hnames _ rfl, hn]
    exact Nat.le_refl _
  | names hn hcode =>
    rw [Pos.toGo, Pos.toGo, hnames _ rfl, hn]
    exact Nat.le_refl _
  | _ =>
    simp only [Pos.toGo]
    omega

/-- The calls that read the result deliver one piece each. -/
lemma delivered_called {s₀ : St} {c : LibCall} (h : s'.r.calls = c :: s₀.r.calls)
    (hc : c.answer.isSome) : s'.r.delivered = s₀.r.delivered + 1 := by
  rw [Req.delivered, h, answers_cons, List.length_append, Req.delivered]
  obtain ⟨a, ha⟩ := Option.isSome_iff_exists.mp hc
  rw [ha]
  rfl

/-- A state function goes on only with something that libdrizzle has delivered. -/
lemma lowers_recvCols (env : Env) (hk : s.r.connection = some k) :
    (s.recvCols env k k).1.toGo (s.recvCols env k k).2.r ≤ 6 ∨
    (s.recvCols env k k).1.toGo (s.recvCols env k k).2.r ≤ 8 ∧
      (s.recvCols env k k).2.r.delivered = s.r.delivered + 1 := by
  obtain ⟨s₂, hout, htimed⟩ := recvCols_cases env hk
  rw [htimed.req]
  generalize (s.recvCols env k k).1 = p' at hout ⊢
  cases hout with
  | column ho col ho' =>
    exact .inr ⟨Nat.le_refl _, delivered_called (c := .columnRead s.r.id (.ok (some col))) rfl rfl⟩
  | last ho =>
    exact .inr ⟨Nat.le_refl _, delivered_called (c := .columnRead s.r.id (.ok none)) rfl rfl⟩
  | _ => exact .inl (Nat.le_refl _)

lemma lowers_recvRows (env : Env) (hk : s.r.connection = some k) :
    (s.recvRows env k k).1.toGo (s.recvRows env k k).2.r ≤ 7 ∨
    (s.recvRows env k k).1.toGo (s.recvRows env k k).2.r ≤ 9 ∧
      (s.recvRows env k k).2.r.delivered = s.r.delivered + 1 := by
  obtain ⟨s₂, hout, htimed⟩ := recvRows_cases env hk
  rw [htimed.req]
  generalize (s.recvRows env k k).1 = p' at hout ⊢
  cases hout with
  | namesEnd ho hrow hn ho' =>
    refine .inr ⟨?_, delivered_called (c := .rowRead s.r.id (.ok 0)) rfl rfl⟩
    simp [Pos.toGo, Req.sendsSetNames]
  | last ho hrow hn ho' hend => exact .inl (Nat.le_of_ble_eq_true rfl)
  | row => exact .inl (Nat.le_refl _)
  | inRow => exact .inl (Nat.le_refl _)
  | _ => exact .inl (Nat.le_of_ble_eq_true rfl)

lemma lowers_recvFields (env : Env) (hk : s.r.connection = some k) :
    (s.recvFields env k k).1.toGo (s.recvFields env k k).2.r ≤ 6 ∨
    (s.recvFields env k k).1.toGo (s.recvFields env k k).2.r ≤ 8 ∧
      (s.recvFields env k k).2.r.delivered = s.r.delivered + 1 := by
  obtain ⟨s₂, hout, htimed⟩ := recvFields_cases env hk
  rw [htimed.req]
  generalize (s.recvFields env k k).1 = p' at hout ⊢
  cases hout with
  | rowEnd ho =>
    exact .inr ⟨Nat.le_refl _, delivered_called (c := .fieldRead s.r.id .rowEnd) rfl rfl⟩
  | field ho chunk ho' =>
    exact .inr ⟨Nat.le_of_ble_eq_true rfl,
      delivered_called (c := .fieldRead s.r.id (.ok chunk)) rfl rfl⟩
  | _ => exact .inl (Nat.le_refl _)

/-- A step of a request that stays with its connection. -/
lemma lowers_stays (env : Env) (hc : Custody p s) (hstays : p.stays) (hloop : p ≠ .loop)
    (hcrash : p ≠ .crashed) : p.Lowers s (s.exec env p) := by
  have hle := delivered_exec env hc
  have hlowers : (s.exec env p).1.toGo (s.exec env p).2.r + 1 + 2 * s.r.delivered ≤
      p.toGo s.r + 2 * (s.exec env p).2.r.delivered → p.Lowers s (s.exec env p) :=
    (stays_exec env hc hstays).lowers (by rintro rfl; cases hstays)
  have hsimple : (s.exec env p).1.toGo (s.exec env p).2.r + 1 ≤ p.toGo s.r →
      p.Lowers s (s.exec env p) := fun hsteps => hlowers (by omega)
  cases p with
  | loop => exact absurd rfl hloop
  | crashed => exact absurd rfl hcrash
  | dbdConnected rc => exact hsimple (toGo_dbdConnected env rc)
  | event e =>
    exact hsimple (Nat.succ_le_succ (toGo_handleEvent env hc))
  | processEvents =>
    refine hsimple ?_
    rw [exec]
    unfold processEvents
    have hsend : Pos.sendQuery.toGo s.r ≤ 10 := Nat.add_le_add_left (Bool.toNat_le _) 9
    split
    · exact Nat.le_of_ble_eq_true rfl
    · split
      · exact Nat.le_refl _
      · exact Nat.succ_le_succ (Nat.le_succ_of_le hsend)
      · exact Nat.succ_le_succ (Nat.le_succ_of_le hsend)
      · exact Nat.le_of_ble_eq_true rfl
      · exact Nat.le_of_ble_eq_true rfl
  | connect =>
    obtain ⟨_, k, hk⟩ := hc.ok
    refine hsimple ?_
    rw [exec, onConn_of hk.connection hk.drizzleCon]
    unfold connect
    dsimp only
    split
    · exact Nat.le_of_ble_eq_true rfl
    · exact Nat.le_of_ble_eq_true rfl
    · exact Nat.succ_le_succ (Nat.add_le_add_left (Bool.toNat_le _) 9)
  | sendQuery =>
    obtain ⟨_, k, hk⟩ := hc.ok
    refine hsimple ?_
    rw [exec, onConn_of hk.connection hk.drizzleCon]
    exact toGo_sendQuery env
  | recvCols =>
    obtain ⟨_, k, hk⟩ := hc.ok
    refine hlowers ?_
    have hcases := lowers_recvCols env hk.connection
    rw [exec, onConn_of hk.connection hk.drizzleCon] at hle ⊢
    have height : Pos.recvCols.toGo s.r = 8 := rfl
    omega
  | recvRows =>
    obtain ⟨_, k, hk⟩ := hc.ok
    refine hlowers ?_
    have hcases := lowers_recvRows env hk.connection
    rw [exec, onConn_of hk.connection hk.drizzleCon] at hle ⊢
    have height : Pos.recvRows.toGo s.r = 8 := rfl
    omega
  | recvFields =>
    obtain ⟨_, k, hk⟩ := hc.ok
    refine hlowers ?_
    have hcases := lowers_recvFields env hk.connection
    rw [exec, onConn_of hk.connection hk.drizzleCon] at hle ⊢
    have hseven : Pos.recvFields.toGo s.r = 7 := rfl
    omega
  | ret rc =>
    refine hsimple ?_
    have hout := processed_cases (s := s) env rc
    rw [exec]
    generalize s.processed env rc = ps at hout ⊢
    obtain ⟨p', s'⟩ := ps
    cases hout with
    | error => exact Nat.le_refl _
    | _ => exact Nat.le_of_ble_eq_true rfl
  | done rc =>
    refine hsimple ?_
    obtain ⟨_, _, hp, _⟩ := done_cases (s := s) env rc
    rw [exec, hp]
    exact Nat.le_refl _
  | _ => cases hstays

/-! ## Getting and giving away connections -/

/-- Whoever gets a connection from the cache leaves one less there, and whoever goes to the next
peer has one less left. -/
lemma GetPeer.attempts {rc : Rc} (h : GetPeer s rc s') :
    s'.r.inHandler = s.r.inHandler ∧ s'.r.live = s.r.live ∧
    (rc = .busy ∧ s'.r.remainingPeers + s'.w.pool.cache.length ≤
        s.r.remainingPeers + s.w.pool.cache.length ∨
      s'.r.remainingPeers + s'.w.pool.cache.length + 1 ≤
        s.r.remainingPeers + s.w.pool.cache.length) := by
  have hpicked : s.r.remainingPeers ≠ 0 → s.picked.r.remainingPeers + 1 = s.r.remainingPeers :=
    Nat.succ_pred_eq_of_ne_zero
  cases h with
  | @single item cache hmax hsingle hcache =>
    refine ⟨rfl, rfl, .inr ?_⟩
    rw [hcache, List.length_cons]
    exact Nat.le_refl _
  | busy hleft hmiss => exact ⟨rfl, rfl, .inl ⟨rfl, Nat.le_refl _⟩⟩
  | @multi item l₁ l₂ hmax hmulti hcache haddr hfirst hleft =>
    refine ⟨rfl, rfl, .inr ?_⟩
    have hleft := hpicked hleft
    change s.picked.r.remainingPeers + (l₁ ++ l₂).length + 1 ≤ _
    simp only [hcache, List.length_append, List.length_cons]
    omega
  | overflow getConn hfull hmiss hleft =>
    have hleft := hpicked hleft
    cases getConn with
    | true =>
      refine ⟨rfl, rfl, .inr ?_⟩
      change s.picked.r.remainingPeers + s.w.pool.cache.length + 1 ≤ _
      omega
    | false =>
      refine ⟨rfl, rfl, .inr ?_⟩
      change s.picked.r.remainingPeers + s.w.pool.cache.length + 1 ≤ _
      omega
  | create hroom h hmiss hleft =>
    have hleft := hpicked hleft
    have hcreated : s'.r.inHandler = s.r.inHandler ∧ s'.r.live = s.r.live ∧
        s'.r.remainingPeers = s.picked.r.remainingPeers ∧ s'.w.pool.cache = s.w.pool.cache := by
      cases h with
      | noMemory => exact ⟨rfl, rfl, rfl, rfl⟩
      | refused => exact ⟨rfl, rfl, rfl, rfl⟩
      | fresh => exact ⟨rfl, rfl, rfl, rfl⟩
    obtain ⟨hin, hlive, hremaining, hcache⟩ := hcreated
    refine ⟨hin, hlive, .inr ?_⟩
    rw [hremaining, hcache]
    omega

lemma lowers_dbdConnect (env : Env) (hc : Custody .dbdConnect s) :
    Pos.dbdConnect.Lowers s (s.exec env .dbdConnect) := by
  have hle := delivered_exec env hc
  obtain ⟨hlive, hidle, _⟩ := hc.ok
  have hleft : s.attemptsLeft = s.r.remainingPeers + s.w.pool.cache.length := if_pos hlive
  have hfour : Pos.dbdConnect.toGo s.r = 4 := rfl
  rw [exec, dbdConnect] at hle ⊢
  split
  · next halloc =>
    rw [if_pos halloc] at hle
    refine Pos.lowers_of (by simp) rfl ?_
    have hone : (Pos.finalize (.http 500)).toGo s.r = 1 := rfl
    dsimp only at hle ⊢
    omega
  · next halloc =>
    rw [if_neg halloc] at hle
    obtain ⟨hin, hlive', hattempts⟩ := (getPeer_cases env.peer hidle.connection).attempts
    generalize s.getPeer env.peer = ps at hin hlive' hattempts hle ⊢
    obtain ⟨rc, s'⟩ := ps
    dsimp only at hin hlive' hattempts hle ⊢
    refine Pos.lowers_of (by simp) hin ?_
    have hleft' : (s'.log (.getPeer rc s'.r.connection)).attemptsLeft =
        s'.r.remainingPeers + s'.w.pool.cache.length := if_pos (hlive'.trans hlive)
    dsimp only
    rw [hleft, hleft']
    rcases hattempts with ⟨rfl, hattempts⟩ | hattempts
    · have hthree :
          (Pos.dbdConnected .busy).toGo (s'.log (.getPeer .busy s'.r.connection)).r = 3 := rfl
      omega
    · have hsteps : (Pos.dbdConnected rc).toGo (s'.log (.getPeer rc s'.r.connection)).r ≤ 13 := by
        cases rc <;> exact Nat.le_of_ble_eq_true rfl
      omega

/-- The connection of a failed attempt does not go to the cache. -/
lemma lowers_next (env : Env) {ft : Ft} (hc : Custody (.next ft) s) :
    (Pos.next ft).Lowers s (s.exec env (.next ft)) := by
  have hle := delivered_exec env hc
  obtain ⟨s₁, hs₁, hnext⟩ := next_cases (s := s) ft hc.queues
  have hsame : s₁.r.inHandler = s.r.inHandler ∧ s₁.attemptsLeft = s.attemptsLeft := by
    split at hs₁
    · rw [hs₁]
      exact ⟨rfl, rfl⟩
    · refine ⟨hs₁.inHandler, ?_⟩
      cases hs₁ with
      | idle => rfl
      | saved _ _ hfailed => cases hfailed
      | closed =>
        rw [attemptsLeft, attemptsLeft, dropConnection]
        simp only [log_w, log_r, Req.log, modReq_r, modReq_w, Worker.freeConnection_pool]
  rw [exec] at hle ⊢
  generalize s.next ft = ps at hnext hle ⊢
  obtain ⟨p', s'⟩ := ps
  cases hnext with
  | stop hstatus =>
    refine Pos.lowers_of (by simp) hsame.1 ?_
    have htwo : 2 ≤ (Pos.next ft).toGo s.r := by
      cases ft <;> exact Nat.le_of_ble_eq_true rfl
    change 1 + _ + _ + _ ≤ _
    dsimp only at hle ⊢
    rw [hsame.2]
    omega
  | retry hstarted hleft hft =>
    refine Pos.lowers_of (by simp) hsame.1 ?_
    have hfive : (Pos.next ft).toGo s.r = 5 := by
      cases ft with
      | nolive => exact absurd rfl hft
      | error => rfl
      | timeout => rfl
    change 4 + 10 * s₁.attemptsLeft + 1 + _ ≤ _
    rw [hsame.2, hfive]
    dsimp only at hle ⊢
    omega

/-- A request that has ended makes no attempts any more, even if its connection goes to the cache.
-/
lemma lowers_finalize (env : Env) {rc : Rc} (hc : Custody (.finalize rc) s) :
    (Pos.finalize rc).Lowers s (s.exec env (.finalize rc)) := by
  have hle := delivered_exec env hc
  have hrc : rc ≠ .declined := by
    rintro rfl
    exact hc.ok.elim
  obtain ⟨hpos, hfin⟩ := finalizeRequest_cases env hrc hc.queues
  obtain ⟨s₁, es, hfree, hs'⟩ := hfin.exists_freePeer
  have hin : s₁.r.inHandler = s.r.inHandler := hfree.inHandler
  rw [exec] at hle ⊢
  refine Pos.lowers_of (by simp) (by rw [hs']; exact hin) ?_
  have hnone : (s.finalizeRequest env rc).2.attemptsLeft = 0 := by
    rw [hs']
    rfl
  have hone : (Pos.finalize rc).toGo s.r = 1 := rfl
  rw [hpos, hnone, hone]
  have hzero : Pos.loop.toGo (s.finalizeRequest env rc).2.r = 0 := rfl
  omega

lemma lowers_handlerTail (env : Env) (hc : Custody .handlerTail s) :
    Pos.handlerTail.Lowers s (s.exec env .handlerTail) := by
  have hle := delivered_exec env hc
  have htwo : Pos.handlerTail.budget s = 2 + 10 * s.attemptsLeft := by
    rw [Pos.budget, if_neg fun h => h.2 rfl]
    rfl
  have hbudget : (s.exec env .handlerTail).1.budget (s.exec env .handlerTail).2 ≤
      1 + 10 * s.attemptsLeft := by
    rw [exec]
    rcases handlerTail_cases s with ⟨heq, _⟩ | ⟨k, _, _, heq⟩
    · rw [heq, Pos.budget, if_neg fun h => Bool.false_ne_true h.1]
      exact Nat.add_le_add_right (Nat.zero_le 1) _
    · rw [heq, Pos.budget, if_neg fun h => Bool.false_ne_true h.1]
      exact Nat.le_refl _
  rw [Pos.Lowers, htwo]
  omega

/-- Every step of the module lowers the rank, except for what libdrizzle delivers. -/
theorem exec_lowers (env : Env) (hc : Custody p s) (hloop : p ≠ .loop) (hcrash : p ≠ .crashed) :
    p.Lowers s (s.exec env p) := by
  cases hstays : p.stays with
  | true => exact lowers_stays env hc hstays hloop hcrash
  | false =>
    cases p with
    | handlerTail => exact lowers_handlerTail env hc
    | dbdConnect => exact lowers_dbdConnect env hc
    | next ft => exact lowers_next env hc
    | finalize rc => exact lowers_finalize env hc
    | _ => cases hstays

end St

/-! ## Runs of the module -/

lemma Pos.budget_settle (h : p.settle s.r = some q) : q.budget s ≤ p.budget s := by
  cases p with
  | loop =>
    simp only [Pos.settle, Option.ite_none_right_eq_some, Option.some.injEq] at h
    obtain ⟨hin, rfl⟩ := h
    rw [budget, budget, if_neg fun h => h.2 rfl, if_pos ⟨hin, by simp⟩]
    exact Nat.le_refl _
  | _ =>
    obtain rfl := Option.some.inj h
    exact Nat.le_refl _

lemma Pos.settle_ne_loop {r : Req} (h : p.settle r = some q) : q ≠ .loop := by
  rintro rfl
  cases p with
  | loop =>
    simp only [Pos.settle, Option.ite_none_right_eq_some] at h
    cases h.2
  | _ => cases Option.some.inj h

lemma Pos.budget_le (p : Pos) (s : St) {n m : ℕ} (hleft : s.r.remainingPeers ≤ n)
    (hcache : s.w.pool.cache.length ≤ m) : p.budget s ≤ 15 + 10 * (n + m) := by
  have hsteps : p.toGo s.r ≤ 13 := by
    cases p with
    | sendQuery => exact (Nat.add_le_add_left (Bool.toNat_le _) 9).trans (by decide)
    | next ft => cases ft <;> exact Nat.le_of_ble_eq_true rfl
    | dbdConnected rc => cases rc <;> exact Nat.le_of_ble_eq_true rfl
    | _ => exact Nat.le_of_ble_eq_true rfl
  have hbonus : (if s.r.inHandler ∧ p ≠ .handlerTail then 2 else 0) ≤ 2 := by
    split
    · exact Nat.le_refl _
    · exact Nat.zero_le _
  have hattempts : s.attemptsLeft ≤ n + m := by
    rw [St.attemptsLeft]
    split
    · exact Nat.add_le_add hleft hcache
    · exact Nat.zero_le _
  rw [budget]
  omega

namespace Sys

variable {s : Sys} {i j : ℕ} {r : Req}

/-- The module works for no other request. -/
structure WorksFor (i : ℕ) (s : Sys) : Prop where
  owned : s.Owned
  active : ∀ j p, s.active = some (j, p) → j = i ∧ p ≠ .loop ∧ ∃ r, s.reqs[i]? = some r

/-- The module works for a request, and has not dereferenced a null pointer. -/
def Busy (i : ℕ) (s : Sys) : Prop := ∃ p, s.active = some (i, p) ∧ p ≠ .crashed

/-- The rank of the position of a request. -/
def budget (i : ℕ) (s : Sys) : ℕ :=
  match s.active, s.reqs[i]? with
  | some (_, p), some r => p.budget (s.view r)
  | _, _ => 0

/-- The pieces that libdrizzle has delivered for a request. -/
def delivered (i : ℕ) (s : Sys) : ℕ := (s.reqs[i]?).elim 0 Req.delivered

lemma budget_of (hact : s.active = some (j, p)) (hi : s.reqs[i]? = some r) :
    s.budget i = p.budget (s.view r) := by
  rw [budget, hact, hi]

lemma delivered_of (hi : s.reqs[i]? = some r) : s.delivered i = r.delivered := by
  rw [delivered, hi]
  rfl

lemma getElem?_put (hi : s.reqs[i]? = some r) (ps : Pos × St) :
    (s.put i ps).reqs[i]? = some ps.2.r :=
  List.getElem?_set_self (List.getElem?_eq_some_iff.mp hi).1

lemma step_run (hact : s.active = some (i, p)) (hi : s.reqs[i]? = some r) (env : Env) :
    s.step (.run env) = s.put i ((s.view r).exec env p) := by
  simp only [step, hact, hi]

lemma step_run_of_idle (hidle : s.active = none) (env : Env) : s.step (.run env) = s := by
  simp only [step, hidle]

lemma WorksFor.step (h : s.WorksFor i) (env : Env) : (s.step (.run env)).WorksFor i := by
  refine ⟨h.owned.step _, fun j q hq => ?_⟩
  cases hact : s.active with
  | none =>
    rw [step_run_of_idle hact] at hq ⊢
    exact h.active j q hq
  | some jp =>
    obtain ⟨j', p⟩ := jp
    obtain ⟨rfl, _, r, hi⟩ := h.active j' p hact
    rw [step_run hact hi] at hq ⊢
    obtain ⟨q', hq', heq⟩ := Option.map_eq_some_iff.mp hq
    cases heq
    exact ⟨rfl, Pos.settle_ne_loop hq', _, getElem?_put hi _⟩

/-- Where the module works, it did so before. -/
lemma WorksFor.of_busy (h : s.WorksFor i) {env : Env} (hbusy : (s.step (.run env)).Busy i) :
    ∃ p r, s.active = some (i, p) ∧ s.reqs[i]? = some r ∧ p ≠ .loop ∧ p ≠ .crashed ∧
      ∃ q, ((s.view r).exec env p).1.settle ((s.view r).exec env p).2.r = some q ∧
        (s.step (.run env)).active = some (i, q) := by
  obtain ⟨q, hq, hcrash⟩ := hbusy
  cases hact : s.active with
  | none =>
    rw [step_run_of_idle hact, hact] at hq
    cases hq
  | some jp =>
    obtain ⟨j, p⟩ := jp
    obtain ⟨rfl, hloop, r, hi⟩ := h.active j p hact
    refine ⟨p, r, rfl, hi, hloop, ?_, ?_⟩
    · rintro rfl
      rw [step_run hact hi] at hq
      cases hq
      exact hcrash rfl
    · rw [step_run hact hi] at hq ⊢
      obtain ⟨q', hq', heq⟩ := Option.map_eq_some_iff.mp hq
      exact ⟨q', hq', by rw [hq, ← heq]⟩

/-- The steps of the module for one request. -/
lemma ranked_run (i : ℕ) : Lib.Ranked (fun (s : Sys) env => s.step (.run env)) (WorksFor i) (Busy i)
    (budget i) (fun s => 2 * s.delivered i) where
  keeps s env h := h.step env
  stops s env h hbusy := by
    obtain ⟨p, _, hact, _, _, hcrash, _⟩ := h.of_busy hbusy
    exact ⟨p, hact, hcrash⟩
  lowers s env h hbusy := by
    obtain ⟨p, r, hact, hi, hloop, hcrash, q, hq, hact'⟩ := h.of_busy hbusy
    have hc := h.owned.custody hi
    rw [pos_of_active hact] at hc
    have hlowers := St.exec_lowers env hc hloop hcrash
    have hsettle := Pos.budget_settle hq
    rw [step_run hact hi] at hact' ⊢
    rw [budget_of hact hi, delivered_of hi, delivered_of (getElem?_put hi _),
      budget_of hact' (getElem?_put hi _)]
    unfold Pos.Lowers at hlowers
    change _ + 1 + 2 * r.delivered ≤ _ at hlowers
    change q.budget ((s.view r).exec env p).2 + 1 + _ ≤ _
    omega

/-- The module works for a request that has arrived. -/
lemma active_run (conf : Conf) (ls : List Label) : ∀ j p, (run conf ls).active = some (j, p) →
    p ≠ .loop ∧ ∃ r, (run conf ls).reqs[j]? = some r := by
  refine Lib.run_invariant (C := fun _ _ => True)
    (I := fun s : Sys => ∀ j p, s.active = some (j, p) → p ≠ .loop ∧ ∃ r, s.reqs[j]? = some r)
    (fun s l _ h => ?_) (fun _ _ h => by cases h) (Lib.Meets.of_forall (fun _ _ => trivial) ls _)
  have hput : ∀ {i : ℕ} {r : Req} (ps : Pos × St), s.reqs[i]? = some r → ∀ j p,
      (s.put i ps).active = some (j, p) → p ≠ .loop ∧ ∃ r, (s.put i ps).reqs[j]? = some r := by
    intro i r ps hi j p hp
    obtain ⟨q, hq, heq⟩ := Option.map_eq_some_iff.mp hp
    cases heq
    exact ⟨Pos.settle_ne_loop hq, _, getElem?_put hi ps⟩
  have hstep := step_cases s l
  generalize s.step l = s' at hstep ⊢
  cases hstep with
  | skip => exact h
  | arrive a hidle =>
    intro j p hp
    cases hp
    refine ⟨?_, _, List.getElem?_concat_length⟩
    split
    · simp
    · simp
  | event e hidle hi he => exact hput _ hi
  | @client i r cc hi =>
    intro j p hp
    obtain ⟨hloop, q, hq⟩ := h j p hp
    obtain ⟨hlt, _⟩ := List.getElem?_eq_some_iff.mp hq
    exact ⟨hloop, _, List.getElem?_eq_getElem (by rwa [List.length_set])⟩
  | idle slot stale hidle => exact h
  | tick now hidle => exact h
  | run env hact hi => exact hput _ hi

/-- **The module comes back.**  In all states of all runs in which the module works for a request,
it returns to the event loop after a number of steps that is bounded by the number of peers and the
capacity of the pool, and by the pieces of the result that libdrizzle delivers in the meantime,
unless it dereferences a null pointer before. -/
theorem comes_back (conf : Conf) (ls : List Label) {i : ℕ} {p : Pos}
    (hact : (run conf ls).active = some (i, p)) (envs : List Env)
    (hbusy : (run conf (ls ++ envs.map .run)).Busy i) :
    envs.length + 2 * (run conf ls).delivered i ≤
      15 + 10 * (conf.peers.length + conf.maxCached) +
        2 * (run conf (ls ++ envs.map .run)).delivered i := by
  have ho := owned_run conf ls
  obtain ⟨hloop, r, hi⟩ := active_run conf ls i p hact
  have hworks : (run conf ls).WorksFor i := by
    refine ⟨ho, fun j q hq => ?_⟩
    cases hact.symm.trans hq
    exact ⟨rfl, hloop, r, hi⟩
  have hrun : run conf (ls ++ envs.map .run) =
      Lib.run (fun (s : Sys) env => s.step (.run env)) (run conf ls) envs := by
    rw [run, Lib.run_append]
    exact List.foldl_map
  rw [hrun] at hbusy ⊢
  have hlen := (ranked_run i).length_le envs hworks hbusy
  have hbudget : (run conf ls).budget i ≤ 15 + 10 * (conf.peers.length + conf.maxCached) := by
    rw [budget_of hact hi]
    refine p.budget_le _ ?_ ?_
    · have hcycles := ((turns_run conf ls).req i r hi).1.left
      rw [conf_run] at hcycles
      exact hcycles ▸ Nat.le_add_right _ _
    · have hqueues := ho.queues
      rw [conf_run] at hqueues
      exact hqueues ▸ Nat.le_add_right _ _
  omega

theorem comes_back_sampleArrival :
    2 + 2 * (run (.sample (.sample [1] []) []) [.arrive (.sample [7])]).delivered 0 ≤
      15 + 10 * ((Conf.sample (.sample [1] []) []).peers.length + 1) +
        2 * (run (.sample (.sample [1] []) []) ([.arrive (.sample [7])] ++
          [({} : Env), {}].map .run)).delivered 0 :=
  comes_back (.sample (.sample [1] []) []) [.arrive (.sample [7])] (i := 0) rfl [{}, {}]
    ⟨_, rfl, nofun⟩

end Sys
end DrizzleNginx
