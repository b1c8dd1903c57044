/-
# Peers in turn

A request goes through the peers of the upstream in cyclic order, from the one that it found in
`dscf->current` when it arrived; what other requests do to `dscf->current` does not matter to it.
It looks at each peer at most once.  If all its attempts to connect fail, it looks at all of them,
and is then ended with status 502 or 504.
-/
import DrizzleNginx.Lib.Cyclic
import DrizzleNginx.Proofs.Overflow

namespace DrizzleNginx

variable {s s' : St} {p : Pos} {k n : ℕ}

/-! ## The cursor of a request -/

/-- The peer that round robin selected, if the event is about that. -/
def ReqEvent.picked : ReqEvent → Option ℕ
  | pick i => some i
  | _ => none

/-- The peers that a request selected by round robin, the first one first. -/
def Req.picks (r : Req) : List ℕ := (r.hist.filterMap ReqEvent.picked).reverse

/-- The peer that was next when the request arrived. -/
def Req.firstPeer (n : ℕ) (r : Req) : ℕ := (r.nextPeer + (n - r.picks.length)) % n

/-- The request goes through `n` peers in cyclic order. -/
structure Req.Cycles (n : ℕ) (r : Req) : Prop where
  left : r.remainingPeers + r.picks.length = n
  next : r.nextPeer < n
  picks : r.picks = Lib.cyclic n (r.firstPeer n) r.picks.length

/-- What a step does to the cursor of a request. -/
inductive Turns (n : ℕ) (r r' : Req) : Prop
  | stays (hnext : r'.nextPeer = r.nextPeer) (hleft : r'.remainingPeers = r.remainingPeers)
      (hpicks : r'.picks = r.picks) : Turns n r r'
  | goes (hleft : r.remainingPeers = r'.remainingPeers + 1)
      (hnext : r'.nextPeer = (r.nextPeer + 1) % n) (hpicks : r'.picks = r.picks ++ [r.nextPeer]) :
      Turns n r r'

namespace Turns

variable {r r' : Req}

/-- Where the order starts does not change. -/
lemma firstPeer (h : Turns n r r') (hr : r.Cycles n) : r'.firstPeer n = r.firstPeer n := by
  have hleft := hr.left
  cases h with
  | stays hnext _ hpicks => rw [Req.firstPeer, hnext, hpicks, Req.firstPeer]
  | goes hleft' hnext hpicks =>
    have hlen : r'.picks.length = r.picks.length + 1 := by simp [hpicks]
    rw [Req.firstPeer, Req.firstPeer, hnext, hlen, Nat.mod_add_mod]
    congr 1
    omega

lemma cycles (h : Turns n r r') (hr : r.Cycles n) : r'.Cycles n := by
  have hfirst := h.firstPeer hr
  obtain ⟨hleft, hlt, hcyc⟩ := hr
  cases h with
  | stays hnext hleft' hpicks =>
    exact ⟨by rw [hleft', hpicks]; exact hleft, by rw [hnext]; exact hlt,
      by rw [hfirst, hpicks]; exact hcyc⟩
  | goes hleft' hnext hpicks =>
    have hlen : r'.picks.length = r.picks.length + 1 := by simp [hpicks]
    -- the peer that is selected is the next one in the order
    have hturn : (r.firstPeer n + r.picks.length) % n = r.nextPeer := by
      have hsum : r.nextPeer + (n - r.picks.length) + r.picks.length = r.nextPeer + n := by omega
      rw [Req.firstPeer, Nat.mod_add_mod, hsum, Nat.add_mod_right, Nat.mod_eq_of_lt hlt]
    refine ⟨by omega, by rw [hnext]; exact Nat.mod_lt _ (Nat.zero_lt_of_lt hlt), ?_⟩
    rw [hfirst, hlen, Lib.cyclic_succ, ← hcyc, hturn, hpicks]

end Turns

lemma Req.picks_append {r r' : Req} (es : List ReqEvent) (h : r'.hist = es ++ r.hist)
    (hes : ∀ e ∈ es, e.picked = none) : r'.picks = r.picks := by
  have hnil : es.filterMap ReqEvent.picked = [] := List.filterMap_eq_nil_iff.mpr hes
  rw [Req.picks, h, List.filterMap_append, hnil]
  rfl

namespace St

/-- Only a request that goes to get a connection moves its cursor. -/
lemma exec_cursor (env : Env) (hc : Custody p s) (hp : p ≠ .dbdConnect) :
    (s.exec env p).2.r.nextPeer = s.r.nextPeer ∧
      (s.exec env p).2.r.remainingPeers = s.r.remainingPeers := by
  cases hstays : p.stays with
  | true =>
    have hreq := (stays_exec env hc hstays).req
    exact ⟨(congrArg Req.nextPeer hreq :), (congrArg Req.remainingPeers hreq :)⟩
  | false =>
    cases p with
    | handlerTail =>
      rcases handlerTail_cases s with ⟨heq, _⟩ | ⟨_, _, _, heq⟩ <;>
        (rw [exec, heq]; exact ⟨rfl, rfl⟩)
    | dbdConnect => exact absurd rfl hp
    | next ft =>
      obtain ⟨s₁, hs₁, hnext⟩ := next_cases (s := s) ft hc.queues
      have hsame : s₁.r.nextPeer = s.r.nextPeer ∧ s₁.r.remainingPeers = s.r.remainingPeers := by
        split at hs₁
        · rw [hs₁]
          exact ⟨rfl, rfl⟩
        · cases hs₁ <;> exact ⟨rfl, rfl⟩
      rw [exec, ← hsame.1, ← hsame.2]
      generalize s.next ft = ps at hnext ⊢
      obtain ⟨p', s'⟩ := ps
      cases hnext <;> exact ⟨rfl, rfl⟩
    | finalize rc =>
      have hrc : rc ≠ .declined := by
        rintro rfl
        exact hc.ok
      obtain ⟨_, hfin⟩ := finalizeRequest_cases env hrc hc.queues
      obtain ⟨s₁, es, hfree, hs'⟩ := hfin.exists_freePeer
      rw [exec, hs']
      cases hfree <;> exact ⟨rfl, rfl⟩
    | _ => cases hstays

lemma picks_exec (env : Env) (hc : Custody p s) (hp : p ≠ .dbdConnect) :
    (s.exec env p).2.r.picks = s.r.picks := by
  obtain ⟨es, hes, hlogs⟩ := exec_hist env hc
  refine Req.picks_append es hes fun e he => ?_
  have hlog := hlogs e he
  cases e with
  | pick i =>
    cases p with
    | dbdConnect => exact absurd rfl hp
    | _ => cases hlog
  | _ => rfl

/-- `getPeer` selects the next peer, or none. -/
lemma GetPeer.turns {rc : Rc} (h : GetPeer s rc s') (e : ReqEvent) (he : e.picked = none) :
    Turns s.w.conf.peers.length s.r (s'.log e).r := by
  have hpicks : ∀ {r' : Req} (es : List ReqEvent), (∀ e ∈ es, e.picked = none) →
      r'.hist = es ++ .pick s.r.nextPeer :: s.r.hist → r'.picks = s.r.picks ++ [s.r.nextPeer] := by
    intro r' es hes hhist
    have hnil : es.filterMap ReqEvent.picked = [] := List.filterMap_eq_nil_iff.mpr hes
    rw [Req.picks, hhist, List.filterMap_append, hnil, List.nil_append]
    exact List.reverse_cons
  have hone : ∀ e' ∈ [e], e'.picked = none := by simpa using he
  have htwo : ∀ e' ∈ [e, .overflow], e'.picked = none := by
    rintro e' hmem
    rcases List.mem_cons.mp hmem with rfl | hmem
    · exact he
    · rw [List.mem_singleton.mp hmem]
      rfl
  cases h with
  | single => exact .stays rfl rfl (Req.picks_append [e] rfl hone)
  | busy => exact .stays rfl rfl (Req.picks_append [e] rfl hone)
  | multi _ _ _ _ _ hleft =>
    exact .goes (Nat.succ_pred_eq_of_ne_zero hleft).symm rfl (hpicks [e] hone rfl)
  | overflow getConn _ _ hleft =>
    have hgoes := (Nat.succ_pred_eq_of_ne_zero hleft).symm
    cases getConn
    · exact .goes hgoes rfl (hpicks [e, .overflow] htwo rfl)
    · exact .goes hgoes rfl (hpicks [e, .overflow] htwo rfl)
  | create hroom h _ hleft =>
    have hgoes := (Nat.succ_pred_eq_of_ne_zero hleft).symm
    cases h with
    | noMemory => exact .goes hgoes rfl (hpicks [e] hone rfl)
    | refused => exact .goes hgoes rfl (hpicks [e] hone rfl)
    | fresh => exact .goes hgoes rfl (hpicks [e] hone rfl)

theorem exec_turns (env : Env) (hc : Custody p s) :
    Turns s.w.conf.peers.length s.r (s.exec env p).2.r := by
  by_cases hp : p = .dbdConnect
  · subst hp
    simp only [exec, dbdConnect]
    split
    · exact .stays rfl rfl rfl
    · exact (getPeer_cases env.peer hc.ok.2.1.connection).turns _ rfl
  · obtain ⟨hnext, hleft⟩ := exec_cursor env hc hp
    exact .stays hnext hleft (picks_exec env hc hp)

/-- Another attempt is made only when there is a peer left. -/
lemma left_of_retry (env : Env) (hc : Custody p s) (h : (s.exec env p).1 = .dbdConnect) :
    (s.exec env p).2.r.remainingPeers ≠ 0 := by
  obtain ⟨⟨ft, rfl⟩, _⟩ := exec_dbdConnect env hc h
  obtain ⟨s₁, hs₁, hnext⟩ := next_cases (s := s) ft hc.queues
  rw [exec] at h ⊢
  generalize s.next ft = ps at hnext h ⊢
  obtain ⟨p', s'⟩ := ps
  cases hnext with
  | stop => cases h
  | retry hstarted hleft => exact hleft

/-- `NGX_BUSY` is returned only when no peer is left. -/
lemma busy_exec (env : Env) (hc : Custody p s) (hleft : p = .dbdConnect → s.r.remainingPeers ≠ 0)
    (h : ∀ c, .getPeer .busy c ∉ s.r.hist) (c : Option ℕ) :
    .getPeer .busy c ∉ (s.exec env p).2.r.hist := by
  intro hmem
  by_cases hp : p = .dbdConnect
  · subst hp
    have hleft := hleft rfl
    simp only [exec, dbdConnect] at hmem
    split at hmem
    · exact h c hmem
    · have hget := getPeer_cases env.peer hc.ok.2.1.connection
      generalize s.getPeer env.peer = ps at hget hmem
      obtain ⟨rc, s'⟩ := ps
      obtain ⟨es, hes, hlogs⟩ := hget.hist
      have hrc : rc ≠ .busy := by
        rintro rfl
        cases hget with
        | busy hzero => exact hleft hzero
        | create hroom hcreate =>
          cases hcreate with
          | refused hrc => rcases hrc with hrc | hrc <;> cases hrc
          | fresh hrc => rcases hrc with ⟨hrc, _⟩ | ⟨hrc, _⟩ <;> cases hrc
      rcases List.mem_cons.mp hmem with heq | hmem
      · exact hrc (ReqEvent.getPeer.inj heq).1.symm
      · rcases List.mem_append.mp (hes ▸ hmem) with hnew | hold
        · rcases hlogs _ hnew with heq | ⟨i, heq⟩ <;> cases heq
        · exact h c hold
  · obtain ⟨es, hes, hlogs⟩ := exec_hist env hc
    rcases List.mem_append.mp (hes ▸ hmem) with hnew | hold
    · have hlog := hlogs _ hnew
      cases p with
      | dbdConnect => exact hp rfl
      | _ => cases hlog
    · exact h c hold

end St

/-- The peers that a request goes through, as a claim about requests. -/
def Local.turns : Local where
  req conf p r _ := r.Cycles conf.peers.length ∧ (p = .dbdConnect → r.remainingPeers ≠ 0) ∧
    ∀ c, .getPeer .busy c ∉ r.hist
  item _ _ _ := True

lemma Req.cycles_init (w : Worker) (id : ℕ) (a : Arrival) :
    (Req.init w id a).Cycles w.conf.peers.length :=
  ⟨rfl, Nat.mod_lt _ w.conf.peers_pos, rfl⟩

lemma Local.turns_kept : Local.turns.Kept fun _ _ _ => True where
  init w id a p _ :=
    ⟨Req.cycles_init w id a, fun _ => Nat.ne_of_gt w.conf.peers_pos, fun _ => nofun⟩
  fire ev s _ _ h := by
    obtain ⟨⟨cw, hr⟩, _⟩ := St.fire_cases ev s
    rw [hr]
    exact ⟨⟨h.1.left, h.1.next, h.1.picks⟩, nofun, h.2.2⟩
  client _ _ _ _ _ h := ⟨⟨h.1.left, h.1.next, h.1.picks⟩, h.2⟩
  exec env p s hc _ h _ := by
    obtain ⟨hcyc, hleft, hbusy⟩ := h
    exact ⟨(St.exec_turns env hc).cycles hcyc,
      fun heq => St.left_of_retry env hc (Pos.eq_of_after heq nofun nofun),
      St.busy_exec env hc hleft hbusy⟩
  saved _ _ _ _ _ _ _ _ _ _ := trivial

namespace Sys

variable {s : Sys} {i : ℕ} {r : Req}

/-- No step changes where the order of the peers of a request starts. -/
lemma firstPeer_step (ho : s.Owned) (ht : Local.turns.Holds s) (hi : s.reqs[i]? = some r)
    (l : Label) : ∃ r', (s.step l).reqs[i]? = some r' ∧
      r'.firstPeer s.w.conf.peers.length = r.firstPeer s.w.conf.peers.length := by
  refine req_step hi l rfl (fun e => ?_) (fun _ => rfl) fun env p hact => ?_
  · obtain ⟨⟨cw, hr⟩, _⟩ := St.fire_cases e (s.view r)
    exact (congrArg (Req.firstPeer s.w.conf.peers.length) hr :)
  · have hc := ho.custody hi
    rw [pos_of_active hact] at hc
    exact (St.exec_turns env hc).firstPeer (ht.req i r hi).1

/-- Nor does a run. -/
lemma firstPeer_run (ho : s.Owned) (ht : Local.turns.Holds s) (hi : s.reqs[i]? = some r)
    (ls : List Label) : ∃ r', (Lib.run step s ls).reqs[i]? = some r' ∧
      r'.firstPeer s.w.conf.peers.length = r.firstPeer s.w.conf.peers.length := by
  induction ls generalizing s r with
  | nil => exact ⟨r, hi, rfl⟩
  | cons l ls ih =>
    obtain ⟨r₁, hi₁, hfirst₁⟩ := firstPeer_step ho ht hi l
    have ht₁ := Local.turns_kept.step (l := l) ht ho fun _ _ _ _ _ _ _ => trivial
    obtain ⟨r₂, hi₂, hfirst₂⟩ := ih (ho.step l) ht₁ hi₁
    rw [ho.conf_step l] at hfirst₂
    exact ⟨r₂, hi₂, hfirst₂.trans hfirst₁⟩

lemma turns_run (conf : Conf) (ls : List Label) : Local.turns.Holds (run conf ls) :=
  Local.turns_kept.run conf (.of_forall (fun _ _ _ _ _ _ _ _ _ => trivial) ls _)

/-- The order of the peers of a request starts with the one that was next when it arrived. -/
lemma firstPeer_of_arrive (conf : Conf) (before after : List Label) (a : Arrival)
    (hidle : (run conf before).active = none) :
    ∃ r, (run conf (before ++ .arrive a :: after)).reqs[(run conf before).reqs.length]? = some r ∧
      r.firstPeer conf.peers.length =
        (run conf before).w.pool.current % conf.peers.length := by
  obtain ⟨s, hs⟩ : ∃ s, s = run conf before := ⟨_, rfl⟩
  have hrun : run conf (before ++ [.arrive a]) = s.step (.arrive a) := by
    rw [run, Lib.run_append, hs]
    rfl
  have hconf : (run conf (before ++ [.arrive a])).w.conf = conf := conf_run conf _
  have hi : (run conf (before ++ [.arrive a])).reqs[s.reqs.length]? =
      some (Req.init s.w s.reqs.length a) := by
    rw [hrun, step, hs, hidle]
    exact List.getElem?_concat_length
  obtain ⟨r, hr, hfirst⟩ := firstPeer_run (owned_run conf _) (turns_run conf _) hi after
  rw [hconf] at hfirst
  refine ⟨r, ?_, hfirst.trans ?_⟩
  · rw [run, Lib.run_append] at hr ⊢
    rw [← hs]
    exact hr
  · have hpeers : s.w.conf = conf := hs ▸ conf_run conf before
    rw [← hs]
    simp [Req.firstPeer, Req.init, Req.picks, hpeers]

end Sys

/-! ## Attempts that fail -/

/-- An attempt to connect has failed: `getPeer` returned `NGX_DECLINED`, or the connection was
closed. -/
def ReqEvent.fails : ReqEvent → Bool
  | getPeer .declined _ => true
  | closed _ => true
  | _ => false

/-- The request is ended. -/
def ReqEvent.final : ReqEvent → Bool
  | finalize _ => true
  | finalized _ => true
  | _ => false

/-- The number of attempts of a request that have failed. -/
def Req.failures (r : Req) : ℕ := r.hist.countP ReqEvent.fails

/-- No call of nginx fails on the way to a connection. -/
def PeerEnv.sound (addConn : Bool) (env : PeerEnv) : Bool :=
  env.alloc && env.fd.isSome && env.getConn &&
    if addConn then env.addConn else env.addRead && env.addWrite

/-- What a step may do for a request whose attempts to connect all fail: no call of nginx fails
and nothing has failed before the first attempt, the pool neither has a connection for the request
nor rejects it, the client does not close its connection, and no connection is established. -/
def OnlyFails (env : Env) (p : Pos) (s : St) : Prop :=
  s.r.connError = false ∧
  (s.r.hist = [] → p = .dbdConnect) ∧
  (p = .dbdConnect → env.allocState ∧ env.peer.sound s.w.conf.addConn ∧ env.peer.con ≠ .ok ∧
    s.Misses ∧ ¬ s.w.Full) ∧
  (p = .dbdConnected .again → env.reinit ∧ env.allocBody) ∧
  (p = .connect → env.con ≠ .ok) ∧
  p ≠ .event (.clientClosed true) ∧ p ≠ .event (.clientClosed false) ∧ p ≠ .event .cleanup

instance (env : Env) (p : Pos) (s : St) : Decidable (OnlyFails env p s) :=
  inferInstanceAs (Decidable (s.r.connError = false ∧ (s.r.hist = [] → p = .dbdConnect) ∧
    (p = .dbdConnect → env.allocState ∧ env.peer.sound s.w.conf.addConn ∧ env.peer.con ≠ .ok ∧
      s.Misses ∧ ¬ s.w.Full) ∧
    (p = .dbdConnected .again → env.reinit ∧ env.allocBody) ∧ (p = .connect → env.con ≠ .ok) ∧
    p ≠ .event (.clientClosed true) ∧ p ≠ .event (.clientClosed false) ∧ p ≠ .event .cleanup))

/-- Nothing has been produced; writing to the client may be delayed. -/
def Out.Untouched (o : Out) : Prop := o = { delayed := o.delayed }

namespace Out.Untouched

variable {o : Out}

lemma headerSent (h : o.Untouched) : o.headerSent = false := (congrArg Out.headerSent h :)

lemma delay (h : o.Untouched) (delayed : Bool) : { o with delayed := delayed }.Untouched :=
  (congrArg (fun o : Out => { o with delayed := delayed }) h :)

lemma outputBufs (h : o.Untouched) (env : FlushEnv) (loc : LocConf) :
    o.outputBufs env loc = (.ok, o) := by
  rw [show o = { delayed := o.delayed } from h]
  rfl

end Out.Untouched

/-- Nothing has been sent or produced for the request. -/
structure Req.Unsent (r : Req) : Prop where
  out : r.out.Untouched
  started : r.queryStarted = false
  paused : r.outputPaused = false
  handler : r.writeHandler = .checkBroken
  state : r.state = .connect

/-- All attempts of the request have failed, except that with the connection that it has. -/
structure Req.Tries (r : Req) : Prop extends r.Unsent where
  count : r.picks.length = r.failures + if r.connection.isSome then 1 else 0
  unended : ∀ e ∈ r.hist, e.final = false

/-- All attempts of the request have failed, and it has been ended, once. -/
structure Req.GaveUp (n : ℕ) (r : Req) : Prop where
  tried : r.picks.length = n
  failed : r.failures = n
  ended : ∃ status, (status = 502 ∨ status = 504) ∧ ∃ rest, r.hist =
    .finalized (.http status) :: .finalize (.http status) :: rest ∧ ∀ e ∈ rest, e.final = false

/-- Where the processing of a request stands while its attempts fail. -/
def Pos.tries (p : Pos) (r : Req) : Prop :=
  match p with
  | .loop | .handlerTail | .dbdConnect | .event _ | .processEvents | .connect => True
  | .dbdConnected .again => r.connection ≠ none
  | .dbdConnected .declined | .ret .again | .ret .error | .next .error | .next .timeout => True
  | .finalize rc => r.hist = [] ∨
      (rc = .http 502 ∨ rc = .http 504) ∧ r.remainingPeers = 0 ∧ r.connection = none
  | _ => False

/-- How many steps there may be before the request waits again or is ended. -/
def Pos.rank (p : Pos) (r : Req) : ℕ :=
  match p with
  | .handlerTail => 1
  | .finalize _ => 2
  | .dbdConnect => 4 * r.remainingPeers + 3
  | .next _ => 4 * r.remainingPeers + 5
  | .dbdConnected _ => 4 * r.remainingPeers + 6
  | .ret _ => 4 * r.remainingPeers + 6
  | .connect => 4 * r.remainingPeers + 7
  | .processEvents => 4 * r.remainingPeers + 8
  | .event _ => 4 * r.remainingPeers + 9
  | _ => 0

namespace St

/-- A new connection, when nothing fails except the attempt to connect. -/
lemma createConnection_fails (env : PeerEnv) (i : ℕ) (hc : s.r.connection = none)
    (hsound : env.sound s.w.conf.addConn) (hcon : env.con ≠ .ok) :
    (∃ con, s.createConnection env i = (.declined, s.addCon con 0 none none s.r.state)) ∨
    ∃ con : Conn, con.fd ≠ some 0 ∧ s.createConnection env i =
      (.again, s.addCon con 1 (some s.w.nconns) (some s.w.nconns) .connect) := by
  simp only [PeerEnv.sound, Bool.and_eq_true] at hsound
  obtain ⟨⟨⟨halloc, hfd⟩, hgetConn⟩, hadd⟩ := hsound
  obtain ⟨fd, hfd⟩ := Option.isSome_iff_exists.mp hfd
  unfold createConnection
  simp only [halloc, Bool.not_true, Bool.false_eq_true, if_false]
  rw [openCon_eq hc]
  cases hret : env.con with
  | ok => exact absurd hret hcon
  | fail err =>
    rw [addCon_modConn]
    exact .inl ⟨_, rfl⟩
  | ioWait =>
    right
    have hcount : ∀ s' : St, s' = s.addCon (s.newCon i) 0 none (some s.w.nconns) s.r.state →
        ({ s' with w := { s'.w with pool :=
          { s'.w.pool with activeConns := s'.w.pool.activeConns + 1 } } } : St) =
        s.addCon (s.newCon i) 1 none (some s.w.nconns) s.r.state := by
      rintro _ rfl
      simp [addCon]
    obtain ⟨con, hcon, hreg⟩ : ∃ con : Conn, con.fd = some (fd + 1) ∧
        (s.addCon (s.newCon i) 0 none (some s.w.nconns) s.r.state).wrapConnection env s.w.nconns =
          (s.addCon con 1 (some s.w.nconns) (some s.w.nconns) .connect).registerConnection env
            s.w.nconns := by
      refine ⟨{ s.newCon i with fd := some (fd + 1) }, rfl, ?_⟩
      unfold wrapConnection
      simp only [hcount _ rfl, hfd, hgetConn, Bool.not_true, Bool.false_eq_true, if_false,
        addCon_modConn, hret, if_true]
      rfl
    simp only [hreg]
    unfold registerConnection
    have hconf : (s.addCon con 1 (some s.w.nconns) (some s.w.nconns) .connect).w.conf =
        s.w.conf := rfl
    cases hmodel : s.w.conf.addConn with
    | true =>
      rw [hmodel, if_pos rfl] at hadd
      simp only [hconf, hmodel, if_true, hadd, Bool.not_true, Bool.false_eq_true, if_false, hret,
        addCon_modConn]
      exact ⟨_, by simp [hcon], rfl⟩
    | false =>
      rw [hmodel, if_neg (by simp), Bool.and_eq_true] at hadd
      simp only [hconf, hmodel, Bool.false_eq_true, if_false, hadd.1, hadd.2, Bool.not_true, hret,
        if_true, addCon_modConn]
      exact ⟨_, by simp [hcon], rfl⟩

end St

namespace Req

variable {r r' : Req}

lemma failures_append (es : List ReqEvent) (h : r'.hist = es ++ r.hist) :
    r'.failures = es.countP ReqEvent.fails + r.failures := by
  rw [failures, h, List.countP_append, failures]

/-- A request that goes on with its attempt. -/
lemma Tries.move (h : r.Tries) (hu : r'.Unsent) (es : List ReqEvent)
    (hhist : r'.hist = es ++ r.hist)
    (hes : ∀ e ∈ es, e.picked = none ∧ e.fails = false ∧ e.final = false)
    (hconn : r'.connection = r.connection) : r'.Tries where
  toUnsent := hu
  count := by
    have hzero : es.countP ReqEvent.fails = 0 :=
      List.countP_eq_zero.mpr fun e he => by simp [(hes e he).2.1]
    rw [picks_append es hhist fun e he => (hes e he).1, failures_append es hhist, hzero,
      hconn, Nat.zero_add]
    exact h.count
  unended e he := by
    rcases List.mem_append.mp (hhist ▸ he) with hnew | hold
    · exact (hes e hnew).2.2
    · exact h.unended e hold

/-- A request that changes in nothing that matters for its attempts. -/
lemma Tries.congr (h : r.Tries) (hout : r'.out = { r.out with delayed := r'.out.delayed })
    (hstarted : r'.queryStarted = r.queryStarted)
    (hpaused : r'.outputPaused = r.outputPaused) (hhandler : r'.writeHandler = r.writeHandler)
    (hstate : r'.state = r.state) (hhist : r'.hist = r.hist)
    (hconn : r'.connection = r.connection) : r'.Tries :=
  h.move ⟨by rw [hout]; exact h.out.delay _, hstarted.trans h.started, hpaused.trans h.paused,
    hhandler.trans h.handler, hstate.trans h.state⟩ [] hhist (by simp) hconn

end Req

/-- What is claimed of a request whose attempts all fail. -/
structure Req.Failing (n : ℕ) (p : Pos) (r : Req) (c : Conn) : Prop where
  live : r.live → r.Tries ∧ p.tries r ∧ (r.connection ≠ none → c.fd ≠ some 0)
  ended : r.live = false → r.GaveUp n

lemma Pos.tries_after {r : Req} (h : p.tries r) : (p.after r).tries r := by
  cases p with
  | loop =>
    unfold after settle
    cases r.inHandler <;> exact trivial
  | _ => exact h

lemma Pos.rank_loop (r : Req) : (Pos.loop.after r).rank r ≤ 1 := by
  unfold after settle
  cases r.inHandler with
  | true => exact Nat.le_refl 1
  | false => exact Nat.zero_le 1

lemma Pos.rank_le (p : Pos) (r : Req) : p.rank r ≤ 4 * r.remainingPeers + 9 := by
  cases p <;> simp [rank]

namespace St

/-- The pieces of a step in which attempts fail. -/
structure FailStep (s : St) (p : Pos) (ps : Pos × St) : Prop where
  tries : ps.2.r.Tries
  pos : ps.1.tries ps.2.r
  rank : p ≠ .loop → (ps.1.after ps.2.r).rank ps.2.r < p.rank s.r

lemma failStep_handleEvent (env : Env) (e : Event) (hk : s.r.connection = some k) (h : s.r.Tries)
    (hfails : OnlyFails env (.event e) s) : FailStep s (.event e) (s.handleEvent env e) := by
  obtain ⟨_, _, _, _, _, hclosed, hbroken, hcleanup⟩ := hfails
  cases e with
  | db write timedout broken =>
    have hsent : (s.modReq fun r => { r with requestSent := true }).r.Tries :=
      h.congr rfl rfl rfl rfl rfl rfl rfl
    simp only [handleEvent, dbHandler, modReq_r, hk]
    split
    · exact ⟨hsent, trivial, fun _ => by simp [Pos.after, Pos.settle, Pos.rank]⟩
    · split
      · exact ⟨hsent, trivial, fun _ => by simp [Pos.after, Pos.settle, Pos.rank]⟩
      · exact ⟨hsent, trivial, fun _ => by simp [Pos.after, Pos.settle, Pos.rank]⟩
  | clientWrite timedout =>
    have hstep : s.handleEvent env (.clientWrite timedout) = (.loop, s) := by
      simp only [handleEvent, h.handler]
    rw [hstep]
    exact ⟨h, trivial, fun _ => Nat.lt_of_le_of_lt (Pos.rank_loop s.r) (by simp [Pos.rank])⟩
  | clientClosed delEvent => cases delEvent <;> contradiction
  | cleanup => contradiction

lemma failStep_processEvents (h : s.r.Tries) : FailStep s .processEvents s.processEvents := by
  have hstep : s.processEvents = (.connect, s) := by
    unfold processEvents
    rw [if_neg (by simp [h.paused]), h.state]
  rw [hstep]
  exact ⟨h, trivial, fun _ => by simp [Pos.after, Pos.settle, Pos.rank]⟩

lemma failStep_connect (env : Env) (h : s.r.Tries) (hfails : OnlyFails env .connect s) :
    FailStep s .connect (s.connect env k k) := by
  obtain ⟨_, _, _, _, hcon, _⟩ := hfails
  have hlog : (s.log (.connect k env.con)).r.Tries :=
    h.move ⟨h.out, h.started, h.paused, h.handler, h.state⟩ [.connect k env.con] rfl
      (by simp [ReqEvent.picked, ReqEvent.fails, ReqEvent.final]) rfl
  unfold connect
  simp only
  split
  · exact ⟨hlog, trivial, fun _ => by simp [Pos.after, Pos.settle, Pos.rank, Req.log]⟩
  · exact ⟨hlog, trivial, fun _ => by simp [Pos.after, Pos.settle, Pos.rank, Req.log]⟩
  · next hok => exact absurd hok (hcon rfl)

lemma failStep_processed (env : Env) {rc : Rc} (h : s.r.Tries) (hrc : (Pos.ret rc).tries s.r) :
    FailStep s (.ret rc) (s.processed env rc) := by
  cases rc with
  | again =>
    have hflush := h.out.outputBufs env.flush s.r.loc
    have hstep : s.processed env .again = (.loop, s) := by
      unfold processed
      simp only [hflush, h.paused]
      rfl
    rw [hstep]
    exact ⟨h, trivial, fun _ => Nat.lt_of_le_of_lt (Pos.rank_loop s.r) (by simp [Pos.rank])⟩
  | error => exact ⟨h, trivial, fun _ => by simp [processed, Pos.after, Pos.settle, Pos.rank]⟩
  | _ => exact hrc.elim

lemma failStep_dbdConnected (env : Env) {rc : Rc} (h : s.r.Tries)
    (hrc : (Pos.dbdConnected rc).tries s.r) (hfails : OnlyFails env (.dbdConnected rc) s) :
    FailStep s (.dbdConnected rc) (s.dbdConnected env rc) := by
  obtain ⟨_, _, _, henv, _⟩ := hfails
  cases rc with
  | declined =>
    exact ⟨h, trivial, fun _ => by simp [dbdConnected, Pos.after, Pos.settle, Pos.rank]⟩
  | again =>
    obtain ⟨k, hk⟩ := Option.ne_none_iff_exists'.mp hrc
    obtain ⟨hreinit, hbody⟩ := henv rfl
    have hstep : s.dbdConnected env .again = s.attach env .again k := by
      simp only [dbdConnected, hk]
    obtain ⟨r, g, hattach, hr⟩ := attach_waits (s := s) (k := k) env (fun _ => hreinit)
      fun _ => hbody
    rw [hstep, hattach]
    refine ⟨?_, trivial, fun _ => ?_⟩
    · rw [modWrite_r, hr]
      exact h.congr rfl rfl rfl rfl rfl rfl rfl
    · exact Nat.lt_of_le_of_lt (Pos.rank_loop _) (by simp [Pos.rank])
  | _ => exact hrc.elim

lemma failStep_dbdConnect (env : Env) (hc : Custody .dbdConnect s) (h : s.r.Tries)
    (hleft : s.r.remainingPeers ≠ 0) (hfails : OnlyFails env .dbdConnect s) :
    FailStep s .dbdConnect (s.dbdConnect env) ∧
      ((s.dbdConnect env).2.r.connection ≠ none → (s.dbdConnect env).2.conn.fd ≠ some 0) := by
  obtain ⟨_, _, henv, _⟩ := hfails
  obtain ⟨halloc, hsound, hcon, hmiss, hroom⟩ := henv rfl
  have hnone := hc.ok.2.1.connection
  have hget : s.getPeer env.peer = s.picked.createConnection env.peer s.r.nextPeer :=
    (getPeer_of_misses env.peer hmiss hleft).trans (if_neg hroom)
  have hcount := h.count
  rw [hnone] at hcount
  -- the peer has been selected
  have hpicks : ∀ {r' : Req} {e : ReqEvent}, e.picked = none →
      r'.hist = e :: .pick s.r.nextPeer :: s.r.hist → r'.picks.length = s.r.picks.length + 1 := by
    intro r' e he hhist
    rw [Req.picks, hhist, List.filterMap_cons_none he, List.length_reverse, Req.picks,
      List.length_reverse]
    rfl
  have hrank : 4 * (s.r.remainingPeers - 1) + 6 < 4 * s.r.remainingPeers + 3 := by omega
  simp only [dbdConnect, halloc, Bool.not_true, Bool.false_eq_true, if_false, hget]
  rcases createConnection_fails (s := s.picked) env.peer s.r.nextPeer hnone hsound hcon with
    ⟨con, heq⟩ | ⟨con, hfd, heq⟩
  · rw [heq]
    refine ⟨⟨⟨⟨h.out, h.started, h.paused, h.handler, h.state⟩, ?_, ?_⟩, trivial, fun _ => hrank⟩,
      fun hne => absurd rfl hne⟩
    · rw [hpicks rfl rfl, hcount]
      exact (Nat.add_comm s.r.failures 1).trans
        (Req.failures_append (r := s.r) [.getPeer .declined none, .pick s.r.nextPeer] rfl).symm
    · intro e he
      rcases List.mem_cons.mp he with rfl | he
      · rfl
      · rcases List.mem_cons.mp he with rfl | he
        · rfl
        · exact h.unended e he
  · rw [heq]
    refine ⟨⟨⟨⟨h.out, h.started, h.paused, h.handler, rfl⟩, ?_, ?_⟩, Option.some_ne_none _,
      fun _ => hrank⟩, fun _ => ?_⟩
    · rw [hpicks rfl rfl, hcount]
      exact congrArg (· + 1) ((Nat.zero_add s.r.failures).symm.trans
        (Req.failures_append (r := s.r)
          [.getPeer .again (some s.w.nconns), .pick s.r.nextPeer] rfl).symm)
    · intro e he
      rcases List.mem_cons.mp he with rfl | he
      · rfl
      · rcases List.mem_cons.mp he with rfl | he
        · rfl
        · exact h.unended e he
    · have hconn : (s.picked.addCon con 1 (some s.picked.w.nconns) (some s.picked.w.nconns)
          .connect).conn = con := by
        simp [conn, addCon]
      exact fun h => hfd ((congrArg Conn.fd hconn).symm.trans h)

lemma failStep_handlerTail (h : s.r.Tries)
    (hfd : s.r.connection ≠ none → s.conn.fd ≠ some 0) : FailStep s .handlerTail s.handlerTail := by
  rcases handlerTail_cases s with ⟨heq, _⟩ | ⟨k, hk, hzero, _⟩
  · rw [heq]
    refine ⟨h.congr rfl rfl rfl rfl rfl rfl rfl, trivial, fun _ => ?_⟩
    exact Nat.zero_lt_one
  · rw [conn_of hk] at hfd
    exact absurd hzero (hfd (by simp [hk]))

/-- The attempt has failed: the connection is closed, and there is another attempt if a peer is
left. -/
lemma failStep_next {ft : Ft} (hc : Custody (.next ft) s) (h : s.r.Tries)
    (hft : (Pos.next ft).tries s.r) (herror : s.r.connError = false) :
    FailStep s (.next ft) (s.next ft) ∧ (s.next ft).2.r.connection = none := by
  have hne : ft ≠ .nolive := by
    rintro rfl
    exact hft
  have hfree := freePeer_cases (s := s) true hc.queues
  obtain ⟨s₁, hs₁⟩ : ∃ s₁, s₁ = s.freePeer true := ⟨_, rfl⟩
  rw [← hs₁] at hfree
  -- the connection has been given away, and the attempt counts as failed
  obtain ⟨htries, hsame⟩ : s₁.r.Tries ∧ s₁.r.connError = false ∧
      s₁.r.remainingPeers = s.r.remainingPeers := by
    cases hfree with
    | idle b hnone => exact ⟨h.congr rfl rfl rfl rfl rfl rfl rfl, herror, rfl⟩
    | saved hconn hmax hfailed => cases hfailed
    | @closed b k hk =>
      refine ⟨⟨⟨h.out, h.started, h.paused, h.handler, h.state⟩, ?_, ?_⟩, herror, rfl⟩
      · have hcount := h.count
        rw [hk] at hcount
        refine (congrArg List.length (Req.picks_append (r := s.r) [.closed k] rfl
          (by simp [ReqEvent.picked]))).trans ?_
        rw [hcount]
        exact (Nat.add_comm s.r.failures 1).trans
          (Req.failures_append (r := s.r) [.closed k] rfl).symm
      · intro e he
        rcases List.mem_cons.mp he with rfl | he
        · rfl
        · exact h.unended e he
  have hnone := hfree.connection
  have hstarted : s₁.r.queryStarted = false := htries.started
  have hsent : s₁.r.out.headerSent = false := htries.out.headerSent
  have hretry : ft = .error ∨ ft = .timeout := by
    cases ft with
    | error => exact .inl rfl
    | timeout => exact .inr rfl
    | nolive => exact absurd rfl hne
  unfold next
  simp only [if_pos hne, ← hs₁, hsame.1, Bool.false_eq_true, if_false, hstarted, hsent,
    Bool.not_false, true_and, hretry, and_true]
  split
  · next hleft =>
    refine ⟨⟨⟨⟨htries.out, htries.started, htries.paused, htries.handler, rfl⟩, htries.count,
      htries.unended⟩, trivial, fun _ => ?_⟩, hnone⟩
    simp [Pos.after, Pos.settle, Pos.rank, hsame.2]
  · next hleft =>
    have hzero : s₁.r.remainingPeers = 0 := by simpa using hleft
    refine ⟨⟨htries, .inr ⟨?_, hzero, hnone⟩, fun _ => ?_⟩, hnone⟩
    · split
      · exact .inr rfl
      · exact .inl rfl
    · simp [Pos.after, Pos.settle, Pos.rank]

/-- A request whose attempts have all failed is ended. -/
lemma gaveUp_finalizeRequest (env : Env) {rc : Rc} (hc : Custody (.finalize rc) s) (h : s.r.Tries)
    (hcyc : s.r.Cycles n) (hpos : (Pos.finalize rc).tries s.r) (hhist : s.r.hist ≠ []) :
    (s.finalizeRequest env rc).2.r.GaveUp n := by
  obtain ⟨hstatus, hleft, hnone⟩ := hpos.resolve_left hhist
  have hrc : rc ≠ .declined := by
    rintro rfl
    exact hc.ok
  obtain ⟨_, hfin⟩ := finalizeRequest_cases env hrc hc.queues
  generalize (s.finalizeRequest env rc).2 = s' at hfin ⊢
  have hsent : s.r.out.headerSent = false := h.out.headerSent
  have hidle : ∀ {s₁ : St}, FreePeer false (s.log (.finalize rc)) s₁ →
      ∃ b, s₁ = (s.log (.finalize rc)).modReq fun r => { r with failed := b } := by
    intro s₁ hgive
    cases hgive with
    | idle b => exact ⟨b, rfl⟩
    | saved hk => cases hnone.symm.trans hk
    | closed b hk => cases hnone.symm.trans hk
  have hcount := h.count
  rw [hnone] at hcount
  have hall : s.r.picks.length = n := by
    have := hcyc.left
    omega
  have hfailures : s.r.failures = n := hcount.symm.trans hall
  cases hfin with
  | completed hgive hsend =>
    obtain ⟨b, rfl⟩ := hidle hgive
    rcases hsend with rfl | ⟨hheader, _⟩
    · rcases hstatus with heq | heq <;> cases heq
    · exact absurd (hsent.symm.trans hheader) Bool.false_ne_true
  | failed hgive hsend =>
    obtain ⟨b, rfl⟩ := hidle hgive
    refine ⟨?_, ?_, ?_⟩
    · exact (congrArg List.length (Req.picks_append (r := s.r) [.finalized rc, .finalize rc] rfl
        (by simp [ReqEvent.picked]))).trans hall
    · exact (Req.failures_append (r := s.r) [.finalized rc, .finalize rc] rfl).trans
        ((Nat.zero_add _).trans hfailures)
    · rcases hstatus with rfl | rfl
      · exact ⟨502, .inl rfl, s.r.hist, rfl, h.unended⟩
      · exact ⟨504, .inr rfl, s.r.hist, rfl, h.unended⟩

/-- A step of a request whose attempts fail. -/
theorem failing_exec (env : Env) (hc : Custody p s) (hlive : s.r.live) (hcyc : s.r.Cycles n)
    (hleft : p = .dbdConnect → s.r.remainingPeers ≠ 0) (hfails : OnlyFails env p s)
    (h : s.r.Failing n p s.conn) :
    (s.exec env p).2.r.Failing n ((s.exec env p).1.after (s.exec env p).2.r)
      (s.exec env p).2.conn ∧
    (p ≠ .loop → ((s.exec env p).1.after (s.exec env p).2.r).rank (s.exec env p).2.r <
      p.rank s.r) := by
  obtain ⟨htries, hpos, hfd⟩ := h.live hlive
  by_cases hfinal : ∃ rc, p = .finalize rc
  · obtain ⟨rc, rfl⟩ := hfinal
    have hdead := (exec_finalize env hc).2
    refine ⟨⟨fun hl => absurd (hdead.symm.trans hl) Bool.false_ne_true, fun _ => ?_⟩, fun _ => ?_⟩
    · exact gaveUp_finalizeRequest env hc htries hcyc hpos fun hnil => nomatch hfails.2.1 hnil
    · have hrc : rc ≠ .declined := by
        rintro rfl
        exact hc.ok
      rw [exec, (finalizeRequest_cases env hrc hc.queues).1]
      exact Nat.lt_of_le_of_lt (Pos.rank_loop _) (by simp [Pos.rank])
  · have hlive' := (exec_live env hc fun rc heq => hfinal ⟨rc, heq⟩).trans hlive
    obtain ⟨hstep, hfd'⟩ : FailStep s p (s.exec env p) ∧ ((s.exec env p).2.r.connection ≠ none →
        (s.exec env p).2.conn.fd ≠ some 0) := by
      by_cases hget : p = .dbdConnect
      · subst hget
        exact failStep_dbdConnect env hc htries (hleft rfl) hfails
      · refine ⟨?_, fun hconn => ?_⟩
        · cases p with
          | loop => exact ⟨htries, trivial, fun h => absurd rfl h⟩
          | handlerTail => exact failStep_handlerTail htries hfd
          | event e =>
            obtain ⟨k, hk⟩ := connection_of_event hc
            exact failStep_handleEvent env e hk htries hfails
          | dbdConnect => exact absurd rfl hget
          | dbdConnected rc => exact failStep_dbdConnected env htries hpos hfails
          | processEvents => exact failStep_processEvents htries
          | connect =>
            obtain ⟨_, k, hk⟩ := hc.ok
            rw [exec, onConn_of hk.connection hk.drizzleCon]
            exact failStep_connect env htries hfails
          | ret rc => exact failStep_processed env htries hpos
          | next ft => exact (failStep_next hc htries hpos hfails.1).1
          | finalize rc => exact absurd ⟨rc, rfl⟩ hfinal
          | _ => exact hpos.elim
        · -- the request has kept its connection
          obtain ⟨k, hk⟩ := Option.ne_none_iff_exists'.mp hconn
          have hk₀ := connection_of_exec env hc hget hk
          rw [conn_of hk, fd_of_exec env hc hget hk, ← conn_of hk₀]
          exact hfd (by simp [hk₀])
    exact ⟨⟨fun _ => ⟨hstep.tries, Pos.tries_after hstep.pos, hfd'⟩,
      fun hdead => absurd (hdead.symm.trans hlive') Bool.false_ne_true⟩, hstep.rank⟩

end St
/-- A request whose attempts all fail, as a claim about requests. -/
def Local.failing (i : ℕ) : Local where
  req conf p r c := r.id = i → r.Failing conf.peers.length p c
  item _ _ _ := True

/-- What the steps of such a request may use. -/
structure FailsFor (i : ℕ) (env : Env) (p : Pos) (s : St) : Prop where
  turns : Local.turns.req s.w.conf p s.r s.conn
  fails : s.r.id = i → OnlyFails env p s

lemma Local.failing_kept (i : ℕ) : (Local.failing i).Kept (FailsFor i) where
  init w id a p hp _ := by
    refine ⟨fun _ => ⟨⟨⟨rfl, rfl, rfl, rfl, rfl⟩, rfl, nofun⟩, ?_, fun h => absurd rfl h⟩, nofun⟩
    rcases hp with rfl | rfl
    · exact trivial
    · exact .inl rfl
  fire ev s _ _ h hid := by
    obtain ⟨⟨cw, hr⟩, rt, wt, hconn⟩ := St.fire_cases ev s
    have h := h ((congrArg Req.id hr :).symm.trans hid)
    rw [hr, hconn]
    refine ⟨fun hlive => ?_, fun hdead => ?_⟩
    · obtain ⟨htries, _, hfd⟩ := h.live hlive
      exact ⟨htries.congr rfl rfl rfl rfl rfl rfl rfl, trivial, hfd⟩
    · obtain ⟨htried, hfailed, hended⟩ := h.ended hdead
      exact ⟨htried, hfailed, hended⟩
  client _ p r _ _ h hid := by
    have h := h hid
    refine ⟨fun hlive => ?_, fun hdead => ?_⟩
    · obtain ⟨htries, hpos, hfd⟩ := h.live hlive
      exact ⟨htries.congr rfl rfl rfl rfl rfl rfl rfl, by cases p <;> exact hpos, hfd⟩
    · obtain ⟨htried, hfailed, hended⟩ := h.ended hdead
      exact ⟨htried, hfailed, hended⟩
  exec env p s hc hd h _ hid := by
    have hid : s.r.id = i := (congrArg Req.id (St.exec_given env hc) :).symm.trans hid
    cases hlive : s.r.live with
    | true => exact (St.failing_exec env hc hlive hd.turns.1 hd.turns.2.1 (hd.fails hid) (h hid)).1
    | false =>
      rw [St.exec_ended env hc hlive]
      refine ⟨fun hl => absurd (hlive.symm.trans hl) Bool.false_ne_true, fun _ => ?_⟩
      obtain ⟨htried, hfailed, hended⟩ := (h hid).ended hlive
      exact ⟨htried, hfailed, hended⟩
  saved _ _ _ _ _ _ _ _ _ _ := trivial

namespace Sys

variable {s : Sys} {i : ℕ} {r : Req}

/-- While nothing is running, nothing runs. -/
lemma run_of_idle (hidle : s.active = none) (envs : List Env) :
    Lib.run step s (envs.map .run) = s := by
  induction envs with
  | nil => rfl
  | cons env envs ih =>
    have hstep : s.step (.run env) = s := by simp only [step, hidle]
    rw [List.map_cons, Lib.run_cons, hstep]
    exact ih

/-- A request that has been finalized leaves the handler, and then nothing runs. -/
lemma settle_of_ended (env : Env) {s : St} (hc : Custody p s) (hdead : s.r.live = false) :
    (s.exec env p).1.settle (s.exec env p).2.r = none := by
  rcases hc.ok.loop_of_ended hdead with rfl | ⟨rfl, hnone⟩
  · have hin : s.r.inHandler = false := hc.ok.1
    simp only [St.exec, Pos.settle, hin]
    rfl
  · rcases St.handlerTail_cases s with ⟨heq, _⟩ | ⟨k, hk, _⟩
    · rw [St.exec, heq]
      rfl
    · cases hnone.symm.trans hk

/-- A request whose attempts fail comes to rest. -/
lemma rest_of_rank (ho : s.Owned) (ht : Local.turns.Holds s) (hf : (Local.failing i).Holds s)
    (hi : s.reqs[i]? = some r) (hact : s.active = some (i, p)) {envs : List Env}
    (hls : Lib.Meets step (RunsMeet fun env p s => s.r.id = i → OnlyFails env p s) s
      (envs.map .run)) (hrank : p.rank r < envs.length) :
    (Lib.run step s (envs.map .run)).active = none := by
  induction envs generalizing s p r with
  | nil => exact absurd hrank (Nat.not_lt_zero _)
  | cons env envs ih =>
    obtain ⟨hmeets, hls⟩ := hls
    have hc := ho.custody hi
    have hturns := ht.req i r hi
    have hfailing := hf.req i r hi (ho.id i r hi)
    rw [pos_of_active hact] at hc hturns hfailing
    have hfails := hmeets env i p r rfl hact hi (ho.id i r hi)
    have hd : RunsMeet (FailsFor i) s (.run env) := by
      intro env' j q r' hl hact' hi'
      have hclaim := ht.req j r' hi'
      rw [pos_of_active hact'] at hclaim
      exact ⟨hclaim, hmeets env' j q r' hl hact' hi'⟩
    have ho' := ho.step (.run env)
    have ht' := Local.turns_kept.step (l := .run env) ht ho fun _ _ _ _ _ _ _ => trivial
    have hf' := (Local.failing_kept i).step hf ho hd
    rw [List.map_cons, Lib.run_cons]
    have hstep : s.step (.run env) = s.put i ((s.view r).exec env p) := by
      simp only [step, hact, hi]
    cases hsettle : ((s.view r).exec env p).1.settle ((s.view r).exec env p).2.r with
    | none =>
      have hidle : (s.step (.run env)).active = none := by
        rw [hstep, put, hsettle]
        rfl
      rw [run_of_idle hidle]
      exact hidle
    | some q =>
      have hlive : r.live := by
        by_contra hdead
        have hdead : (s.view r).r.live = false := (Bool.not_eq_true _).mp hdead
        cases (settle_of_ended env hc hdead).symm.trans hsettle
      have hp : p ≠ .loop := by
        rintro rfl
        have hin : (s.view r).r.inHandler = false := hc.ok.1
        rw [St.exec, Pos.settle, hin] at hsettle
        cases hsettle
      have hlt := (St.failing_exec env hc hlive hturns.1 hturns.2.1 hfails hfailing).2 hp
      have hq : ((s.view r).exec env p).1.after ((s.view r).exec env p).2.r = q := by
        rw [Pos.after, hsettle]
        rfl
      rw [hq] at hlt
      obtain ⟨hbound, _⟩ := List.getElem?_eq_some_iff.mp hi
      refine ih ho' ht' hf' (r := ((s.view r).exec env p).2.r) (p := q) ?_ ?_ hls ?_
      · rw [hstep]
        exact List.getElem?_set_self hbound
      · rw [hstep, put, hsettle]
        rfl
      · have hrank : p.rank r < envs.length + 1 := hrank
        have hlt : q.rank ((s.view r).exec env p).2.r < p.rank r := hlt
        omega

/-- **Peers in turn.**  Let a request arrive.  In all states behind its arrival, whatever happens
meanwhile: the peers that it has selected by round robin are the first ones in cyclic order from the
index that was in `dscf->current` when it arrived; they are at most as many as there are peers, and
distinct; and `getPeer` has never returned `NGX_BUSY` for it.  As long as all its attempts to
connect fail, and nothing else fails: it has been finalized as soon as all peers have failed and
nothing runs; when it has been finalized, it has tried each peer once and all have failed, and it
was finalized once, with status 502 or 504; and when it is running, it runs no longer than a number
of steps. -/
theorem peers_in_turn (conf : Conf) (before after : List Label) (a : Arrival)
    (hidle : (run conf before).active = none) :
    ∃ r, (run conf (before ++ .arrive a :: after)).reqs[(run conf before).reqs.length]? = some r ∧
      r.picks = Lib.cyclic conf.peers.length (run conf before).w.pool.current r.picks.length ∧
      r.picks.length ≤ conf.peers.length ∧ r.picks.Nodup ∧ (∀ c, .getPeer .busy c ∉ r.hist) ∧
      (Lib.Meets step (RunsMeet fun env p s =>
          s.r.id = (run conf before).reqs.length → OnlyFails env p s) (init conf)
          (before ++ .arrive a :: after) →
        ((run conf (before ++ .arrive a :: after)).active = none →
          r.failures = conf.peers.length → r.live = false) ∧
        (r.live = false → r.picks.Perm (List.range conf.peers.length) ∧
          r.failures = conf.peers.length ∧ ∃ status, (status = 502 ∨ status = 504) ∧ ∃ rest,
            r.hist = .finalized (.http status) :: .finalize (.http status) :: rest ∧
              ∀ e ∈ rest, e.final = false) ∧
        ∀ (p : Pos) (envs : List Env), (run conf (before ++ .arrive a :: after)).active =
            some ((run conf before).reqs.length, p) → 4 * conf.peers.length + 10 ≤ envs.length →
          Lib.Meets step (RunsMeet fun env p s =>
            s.r.id = (run conf before).reqs.length → OnlyFails env p s)
            (run conf (before ++ .arrive a :: after)) (envs.map .run) →
          (run conf (before ++ .arrive a :: after ++ envs.map .run)).active = none) := by
  obtain ⟨r, hi, hfirst⟩ := firstPeer_of_arrive conf before after a hidle
  obtain ⟨i, hlen⟩ : ∃ i, i = (run conf before).reqs.length := ⟨_, rfl⟩
  obtain ⟨ls, hls⟩ : ∃ ls, ls = before ++ .arrive a :: after := ⟨_, rfl⟩
  rw [← hls, ← hlen] at hi ⊢
  have ho := owned_run conf ls
  have ht := turns_run conf ls
  have hconf : (run conf ls).w.conf = conf := conf_run conf ls
  obtain ⟨hcyc, _, hbusy⟩ := ht.req i r hi
  rw [hconf] at hcyc
  have hpicks := hcyc.picks
  rw [hfirst, Lib.cyclic_mod] at hpicks
  have hle : r.picks.length ≤ conf.peers.length := by
    have := hcyc.left
    omega
  refine ⟨r, hi, hpicks, hle, ?_, hbusy, fun hmeets => ?_⟩
  · rw [hpicks]
    exact Lib.nodup_cyclic hle
  · have hturns := Local.turns_kept.meets conf
      (.of_forall (fun _ _ _ _ _ _ _ _ _ => trivial) ls _)
    have hf : (Local.failing i).Holds (run conf ls) :=
      (Local.failing_kept i).run conf ((hturns.and hmeets).mono fun s l h env j p q hl hact hj =>
        ⟨(h.1 env j p q hl hact hj).1, h.2 env j p q hl hact hj⟩)
    have hfailing := hf.req i r hi (ho.id i r hi)
    rw [hconf] at hfailing
    refine ⟨fun hrest hall => ?_, fun hdead => ?_, fun p envs hact hbound hmeets' => ?_⟩
    · -- a request that waits has a connection, and this attempt has not failed yet
      by_contra hlive
      have hlive : r.live := (Bool.not_eq_false _).mp hlive
      have hcount := (hfailing.live hlive).1.count
      have hok := ho.ok i r hi
      rw [pos_of_idle hrest] at hok
      obtain ⟨k, hk⟩ : ∃ k, r.connection = some k := by
        rcases hok.2 with hended | ⟨_, ⟨k, hk⟩ | hrej⟩
        · exact absurd (hended.live.symm.trans hlive) Bool.false_ne_true
        · exact ⟨k, hk.connection⟩
        · exact hrej.holds.imp fun _ hk => hk.connection
      rw [hk] at hcount
      simp only [Option.isSome_some, if_true] at hcount
      omega
    · obtain ⟨htried, hfailed, hended⟩ := hfailing.ended hdead
      refine ⟨?_, hfailed, hended⟩
      rw [hpicks, htried]
      exact Lib.cyclic_perm
    · rw [run, Lib.run_append]
      refine rest_of_rank ho ht hf hi hact hmeets' ?_
      have hrank := p.rank_le r
      have hleft := hcyc.left
      omega

/-- An upstream with two servers. -/
def twoPeers : Conf := Conf.sample (Peer.sample [1] []) [Peer.sample [2] []]

/-- No attempt to connect succeeds. -/
def unreachable : Env where
  peer := { con := .fail (.other 1) }
  con := .fail (.other 1)

/-- The attempt with the first server fails when its connection is readable, the attempt with the
second one at once. -/
def twoFailures : List Label :=
  [.run { peer := { con := .ioWait } }, .run {}, .run {}, .event 0 (.db false false false)] ++
    List.replicate 9 (.run unreachable)

theorem peers_in_turn_twoPeers :
    (∃ r, (run twoPeers (.arrive { query := [7] } :: twoFailures)).reqs[0]? = some r ∧
      r.picks = Lib.cyclic 2 0 r.picks.length ∧ r.picks.Perm [0, 1] ∧ r.failures = 2 ∧
      ∃ status, (status = 502 ∨ status = 504) ∧ ∃ rest, r.hist =
        .finalized (.http status) :: .finalize (.http status) :: rest ∧
          ∀ e ∈ rest, e.final = false) ∧
    (run twoPeers (.arrive { query := [7] } ::
      (List.replicate 18 unreachable).map .run)).active = none := by
  constructor
  · obtain ⟨r, hi, hpicks, _, _, _, hfails⟩ :=
      peers_in_turn twoPeers [] twoFailures { query := [7] } rfl
    obtain ⟨_, hended, _⟩ := hfails (by decide)
    have hdead : ∀ q ∈ (run twoPeers (.arrive { query := [7] } :: twoFailures)).reqs,
        q.live = false := by decide
    obtain ⟨hperm, hfailures, hstatus⟩ := hended (hdead r (List.mem_of_getElem? hi))
    exact ⟨r, hi, hpicks, hperm, hfailures, hstatus⟩
  · obtain ⟨_, _, _, _, _, _, hfails⟩ := peers_in_turn twoPeers [] [] { query := [7] } rfl
    obtain ⟨_, _, hrest⟩ := hfails (by decide)
    exact hrest .dbdConnect (List.replicate 18 unreachable) rfl (by decide) (by decide)

end Sys
end DrizzleNginx
