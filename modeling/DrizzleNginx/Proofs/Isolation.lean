/-
# Requests use the upstream that their target names

The upstream of a target with variables is kept in the configuration of the location, where the next
request overwrites it.  It is read once, before anything else can happen, and from then on a request
works on the upstream in its peer data: all its connections, those of retries too, have been created
for this upstream or come from its pool, and go back there.  A request whose target names no
upstream leaves nothing behind that others could notice.
-/
import DrizzleNginx.Proofs.Histories
import DrizzleNginx.Proofs.Upstreams

namespace DrizzleNginx

variable {s s' : St} {p : Pos} {k : ℕ}

/-! ## Where connections go -/

/-- The server and the account of a connection, if there is a `drizzle_con_st`. -/
def Conn.dest (c : Conn) : Bool × Bytes × ℕ × Bytes × Bytes × Protocol :=
  (c.drizzle, c.host, c.port, c.user, c.password, c.protocol)

/-- The server and the account for connections to a peer. -/
def Peer.dest (p : Peer) : Bool × Bytes × ℕ × Bytes × Bytes × Protocol :=
  (true, p.host, p.port, p.user, p.password, p.protocol)

/-- The connections that exist, with where they go. -/
def Worker.dests (w : Worker) : Conf × ℕ × (ℕ → Bool × Bytes × ℕ × Bytes × Bytes × Protocol) :=
  (w.conf, w.nconns, fun k => (w.conns k).dest)

lemma Worker.dests_modConn (w : Worker) (k : ℕ) (f : Conn → Conn) (hf : ∀ c, (f c).dest = c.dest) :
    (w.modConn k f).dests = w.dests := by
  have hconns : (fun j => ((w.modConn k f).conns j).dest) = fun j => (w.conns j).dest := by
    funext j
    rw [modConn_conns]
    split
    · next hj => rw [hf, hj]
    · rfl
  unfold dests
  rw [hconns]
  rfl

lemma Worker.dests_freeConnection (w : Worker) (c dc : Option ℕ) :
    (w.freeConnection c dc).dests = w.dests := by
  unfold freeConnection
  cases c <;> cases dc <;> dsimp only
  · rfl
  · exact dests_modConn _ _ Conn.free fun _ => rfl
  · exact dests_modConn _ _ Conn.close fun _ => rfl
  · refine Eq.trans (dests_modConn _ _ Conn.close fun _ => rfl) ?_
    exact dests_modConn _ _ Conn.free fun _ => rfl

lemma Stays.dests (h : Stays s s') : s'.w.dests = s.w.dests := by
  have hconns : (fun k => (s'.w.conns k).dest) = fun k => (s.w.conns k).dest := by
    funext k
    exact (congrArg Conn.dest (h.ident k) :)
  unfold Worker.dests
  rw [hconns, h.conf, h.nconns]

namespace St

lemma FreePeer.dests {failed : Bool} (h : FreePeer failed s s') : s'.w.dests = s.w.dests := by
  cases h with
  | idle b hc => rfl
  | @saved k item ev w hc hmax hfailed hr ht =>
    have hw : w.dests = s.w.dests := by
      cases ht with
      | free hfree => rfl
      | evict hfree hcache => exact Worker.dests_freeConnection _ _ _
    exact (Worker.dests_modConn _ k Conn.delTimers fun _ => rfl).trans hw
  | @closed b k hc hr => exact Worker.dests_freeConnection s.w (some k) s.r.drizzleCon

lemma dests_invalid (dc : ℕ) : (s.invalid dc).2.w.dests = s.w.dests :=
  Worker.dests_freeConnection _ _ _

lemma dests_registerConnection (env : PeerEnv) (k : ℕ) :
    (s.registerConnection env k).2.w.dests = s.w.dests := by
  have hread : ∀ s : St,
      (s.modConn k fun c => { c with read := { c.read with active := true } }).w.dests =
        s.w.dests := fun s => Worker.dests_modConn s.w k _ fun _ => rfl
  have hwrite : ∀ s : St,
      (s.modConn k fun c => { c with write := { c.write with active := true } }).w.dests =
        s.w.dests := fun s => Worker.dests_modConn s.w k _ fun _ => rfl
  unfold registerConnection
  dsimp only
  split
  · split
    · exact dests_invalid k
    · exact Worker.dests_modConn s.w k _ fun _ => rfl
  · split
    · exact dests_invalid k
    · split
      · split
        · exact (dests_invalid k).trans (hread s)
        · exact (hwrite _).trans (hread s)
      · exact hread s

lemma dests_wrapConnection (env : PeerEnv) (k : ℕ) :
    (s.wrapConnection env k).2.w.dests = s.w.dests := by
  unfold wrapConnection
  dsimp only
  split
  · exact dests_invalid k
  · next fd _ =>
    split
    · exact dests_invalid k
    · refine (dests_registerConnection env k).trans ?_
      exact Worker.dests_modConn _ k (fun c => { c with fd := some (fd + 1) }) fun _ => rfl

lemma dests_createConnection (env : PeerEnv) (i : ℕ) :
    (s.createConnection env i).2.w.dests = s.w.dests ∨
      (s.createConnection env i).2.w.dests = (s.openCon i).w.dests := by
  unfold createConnection
  dsimp only
  split
  · exact .inl rfl
  · right
    split
    · exact Worker.dests_modConn _ _ Conn.free fun _ => rfl
    · exact dests_wrapConnection env _

/-- A step opens at most one connection, and to a peer of the upstream. -/
inductive Opens (w : Worker) : Worker → Prop
  | same {w' : Worker} (h : w'.dests = w.dests) : Opens w w'
  | opened {w' : Worker} (con : Conn)
      (hcon : con.drizzle → ∃ peer ∈ w.conf.peers, con.dest = peer.dest)
      (h : w'.dests = ({ w with
        conns := Function.update w.conns w.nconns con
        nconns := w.nconns + 1 } : Worker).dests) : Opens w w'

lemma Opens.of_dests {w w₁ w' : Worker} (h : Opens w₁ w') (hw : w₁.dests = w.dests) :
    Opens w w' := by
  have hconf : w₁.conf = w.conf := (congrArg Prod.fst hw :)
  have hn : w₁.nconns = w.nconns := (congrArg (fun d => d.2.1) hw :)
  have hconns : ∀ k, (w₁.conns k).dest = (w.conns k).dest := fun k =>
    congrFun (congrArg (fun d => d.2.2) hw) k
  cases h with
  | same h => exact .same (h.trans hw)
  | opened con hcon h =>
    refine .opened con (hconf ▸ hcon) (h.trans ?_)
    have hupdate : (fun k => (Function.update w₁.conns w₁.nconns con k).dest) =
        fun k => (Function.update w.conns w.nconns con k).dest := by
      funext k
      rw [hn, Function.update_apply, Function.update_apply]
      split
      · rfl
      · exact hconns k
    unfold Worker.dests
    dsimp only
    rw [hconf, hupdate, hn]

lemma opens_openCon (i : ℕ) {w' : Worker} (h : w'.dests = (s.openCon i).w.dests) : Opens s.w w' :=
  .opened (s.newCon i) (fun _ => ⟨s.w.conf.peer i, List.get_mem _ _, rfl⟩) h

lemma opens_rejectOverflow (getConn : Bool) : Opens s.w (s.rejectOverflow getConn).2.w := by
  unfold rejectOverflow
  split
  · exact .opened { fd := some 0 } (fun h => Bool.noConfusion h) rfl
  · exact .same rfl

lemma opens_getPeerRoundRobin (env : PeerEnv) : Opens s.w (s.getPeerRoundRobin env).2.w := by
  have hmulti : ∀ s : St, s.keepaliveGetPeerMulti.2.w.dests = s.w.dests := by
    intro s
    unfold keepaliveGetPeerMulti
    split <;> rfl
  unfold getPeerRoundRobin
  dsimp only
  split
  · exact .same rfl
  · obtain ⟨ps, hps⟩ : ∃ ps, ps = if s.w.conf.maxCached ≠ 0 ∧ !s.w.conf.single then
        s.selectPeer.keepaliveGetPeerMulti else (.declined, s.selectPeer) := ⟨_, rfl⟩
    have hdests : ps.2.w.dests = s.w.dests := by
      rw [hps]
      split
      · exact hmulti _
      · rfl
    rw [← hps]
    refine Opens.of_dests ?_ hdests
    split
    · exact .same rfl
    · split
      · exact opens_rejectOverflow _
      · rcases dests_createConnection (s := ps.2) env s.r.nextPeer with h | h
        · exact .same h
        · exact opens_openCon _ h

/-- What `getPeer` opens goes to a peer of the upstream. -/
lemma opens_getPeer (env : PeerEnv) : Opens s.w (s.getPeer env).2.w := by
  unfold getPeer
  dsimp only
  obtain ⟨ps, hps⟩ : ∃ ps, ps = if s.w.conf.maxCached ≠ 0 ∧ s.w.conf.single then
      (s.modReq fun r => { r with failed := false }).keepaliveGetPeerSingle
      else (.declined, s.modReq fun r => { r with failed := false }) := ⟨_, rfl⟩
  have hdests : ps.2.w.dests = s.w.dests := by
    rw [hps]
    unfold keepaliveGetPeerSingle
    split
    · split <;> rfl
    · rfl
  rw [← hps]
  split
  · exact .same hdests
  · exact (opens_getPeerRoundRobin env).of_dests hdests

end St

/-! ## What a step does with connections -/

/-- The connections that an event tells of. -/
def ReqEvent.conns : ReqEvent → List ℕ
  | getPeer _ c => c.toList
  | lib k _ => [k]
  | saved k evicted => k :: evicted.toList
  | closed k => [k]
  | _ => []

namespace St

/-- What a step does with connections: it works on those that the request or the pool of the
upstream holds, and opens at most one, to a peer of the upstream. -/
structure Touches (s s' : St) : Prop where
  hist : ∃ es, s'.r.hist = es ++ s.r.hist ∧
    ∀ e ∈ es, ∀ k ∈ e.conns, 1 ≤ s.holders k ∨ s'.r.connection = some k
  drizzleCon : s'.r.drizzleCon = s.r.drizzleCon ∨ s'.r.drizzleCon = none ∨
    s'.r.drizzleCon = s'.r.connection
  opens : Opens s.w s'.w

lemma holders_of_connection (hk : s.r.connection = some k) : 1 ≤ s.holders k := by
  rw [holders, if_pos hk]
  exact Nat.le_add_right 1 _

lemma holders_of_item {item : Item} (hmem : item ∈ s.w.pool.cache) (hk : item.connection = some k) :
    1 ≤ s.holders k :=
  Nat.le_trans (holders_of_mem hmem hk) (Nat.le_add_left _ _)

end St

lemma Stays.touches (h : Stays s s') : St.Touches s s' where
  hist := by
    obtain ⟨es, hes, hinner, hlib, _⟩ := h.hist
    refine ⟨es, hes, fun e he k hk => .inl ?_⟩
    cases e with
    | lib j call =>
      obtain rfl := List.mem_singleton.mp hk
      exact St.holders_of_connection (hlib _ call he)
    | getPeer => cases hinner _ he
    | saved => cases hinner _ he
    | closed => cases hinner _ he
    | _ => cases hk
  drizzleCon := .inl h.drizzleCon
  opens := .same h.dests

namespace St

lemma FreePeer.touches {failed : Bool} (h : FreePeer failed s s') : Touches s s' where
  hist := by
    cases h with
    | idle b hc => exact ⟨[], rfl, by simp⟩
    | @saved j item ev w hc hmax hfailed hr ht =>
      refine ⟨[.saved j ev], rfl, fun e he k hk => .inl ?_⟩
      obtain rfl := List.mem_singleton.mp he
      rcases List.mem_cons.mp hk with rfl | hev
      · exact holders_of_connection hc
      · cases ht with
        | free hfree => cases hev
        | evict hfree hcache =>
          exact holders_of_item (by rw [hcache]; simp) (Option.mem_toList.mp hev)
    | @closed b j hc hr =>
      refine ⟨[.closed j], rfl, fun e he k hk => .inl ?_⟩
      obtain rfl := List.mem_singleton.mp he
      obtain rfl := List.mem_singleton.mp hk
      exact holders_of_connection hc
  drizzleCon := by
    cases h with
    | idle b hc => exact .inl rfl
    | saved hc hmax hfailed hr ht => exact .inl rfl
    | closed b hc hr => exact .inr (.inl rfl)
  opens := .same h.dests

lemma GetPeer.touches {rc : Rc} (h : GetPeer s rc s')
    (hitems : ∀ item ∈ s.w.pool.cache, ∃ k, item.Pools s.w k) :
    s'.r.drizzleCon = s.r.drizzleCon ∨ s'.r.drizzleCon = none ∨
      s'.r.drizzleCon = s'.r.connection := by
  cases h with
  | @single item cache hmax hsingle hcache =>
    obtain ⟨k, hk⟩ := hitems item (by rw [hcache]; exact List.mem_cons_self)
    exact .inr (.inr (hk.drizzleCon.trans hk.connection.symm))
  | busy => exact .inl rfl
  | @multi item l₁ l₂ hmax hmulti hcache haddr =>
    obtain ⟨k, hk⟩ := hitems item (by rw [hcache]; simp)
    exact .inr (.inr (hk.drizzleCon.trans hk.connection.symm))
  | overflow getConn => cases getConn <;> exact .inl rfl
  | create hroom h =>
    cases h with
    | noMemory => exact .inl rfl
    | refused => exact .inr (.inl rfl)
    | fresh => exact .inr (.inr rfl)

/-- Every step works on connections of its upstream. -/
theorem exec_touches (env : Env) (hc : Custody p s) : Touches s (s.exec env p).2 := by
  cases hp : p.stays with
  | true => exact (stays_exec env hc hp).touches
  | false =>
    cases p with
    | handlerTail =>
      rcases handlerTail_cases s with ⟨heq, _⟩ | ⟨k, _, _, heq⟩
      · rw [exec, heq]
        exact ⟨⟨[], rfl, by simp⟩, .inl rfl, .same rfl⟩
      · rw [exec, heq]
        refine ⟨⟨[], rfl, by simp⟩, .inl rfl, .same ?_⟩
        exact Worker.dests_modConn s.w k
          (fun c => { c with write := c.write.delTimer }) fun _ => rfl
    | dbdConnect =>
      simp only [exec, dbdConnect]
      split
      · exact ⟨⟨[], rfl, by simp⟩, .inl rfl, .same rfl⟩
      · have hget := getPeer_cases env.peer hc.ok.2.1.connection
        obtain ⟨es, hes, hlogs⟩ := hget.hist
        refine ⟨⟨.getPeer (s.getPeer env.peer).1 (s.getPeer env.peer).2.r.connection :: es,
          by simp [hes], fun e he k hk => ?_⟩, hget.touches hc.items,
          opens_getPeer env.peer⟩
        rcases List.mem_cons.mp he with rfl | he
        · exact .inr (Option.mem_toList.mp hk)
        · rcases hlogs e he with rfl | ⟨i, rfl⟩ <;> cases hk
    | next ft =>
      obtain ⟨s₁, hs₁, hnext⟩ := next_cases (s := s) ft hc.queues
      have htouch : Touches s s₁ := by
        split at hs₁
        · exact hs₁ ▸ (Stays.refl s).touches
        · exact hs₁.touches
      rw [exec]
      generalize s.next ft = ps at hnext
      obtain ⟨p', s'⟩ := ps
      obtain ⟨es, hes, hlogs⟩ := htouch.hist
      cases hnext with
      | stop => exact htouch
      | retry =>
        exact ⟨⟨es, hes, hlogs⟩, htouch.drizzleCon, htouch.opens⟩
    | finalize rc =>
      have hrc : rc ≠ .declined := by
        rintro rfl
        exact hc.ok
      obtain ⟨_, hfin⟩ := finalizeRequest_cases env hrc hc.queues
      have hended : ∀ {s₁ : St} {es₁ : List ReqEvent}, (∀ e ∈ es₁, e.conns = []) →
          FreePeer false (s.log (.finalize rc)) s₁ → Touches s (s₁.ended es₁) := by
        intro s₁ es₁ hes₁ hfree
        obtain ⟨es, hes, hlogs⟩ := hfree.touches.hist
        refine ⟨⟨es₁ ++ es ++ [.finalize rc], by simp [ended, hes], fun e he k hk => ?_⟩,
          hfree.touches.drizzleCon, hfree.touches.opens⟩
        rw [List.append_assoc, List.mem_append, List.mem_append, List.mem_singleton] at he
        rcases he with he | he | rfl
        · rw [hes₁ e he] at hk
          cases hk
        · exact hlogs e he k hk
        · cases hk
      rw [exec]
      generalize (s.finalizeRequest env rc).2 = s' at hfin
      cases hfin with
      | completed hfree hsend rc' => exact hended (by simp [ReqEvent.conns]) hfree
      | failed hfree hsend => exact hended (by simp [ReqEvent.conns]) hfree
    | _ => cases hp

end St

/-! ## Targets -/

/-- The upstream that the target of a location names for a request: a target with variables is
evaluated, and looked up in the table. -/
def Location.target (l : Location) (upstreams : List UpstreamSrvConf) (q : Incoming) : Option ℕ :=
  match l.dlcf.complexTarget with
  | .unset => none
  | .null => l.dlcf.upstream
  | .value cv =>
    match q.env.complexValue cv with
    | none => none
    | some [] => none
    | some target => upstreamDrizzleAdd upstreams target 0

/-- A location without what requests may change. -/
def Location.fixed (l : Location) : Location :=
  match l.dlcf.complexTarget with
  | .value _ => { l with dlcf := { l.dlcf with upstream := none } }
  | _ => l

/-- The upstream that the target of a request names, in the configuration as it was read. -/
def SiteConf.target (conf : SiteConf) (q : Incoming) : Option ℕ :=
  conf.locs[q.loc]?.bind fun l => l.target conf.upstreams q

/-- A request that arrives at a location with variables in the target, and whose target names no
upstream: it is empty, or unknown, or cannot be evaluated. -/
def SiteConf.refuses (conf : SiteConf) (q : Incoming) : Bool :=
  match conf.locs[q.loc]? with
  | none => false
  | some l =>
    match l.dlcf.complexTarget with
    | .value _ => conf.target q = none
    | _ => false

section Targets

variable {l l' : Location} {q : Incoming} {upstreams : List UpstreamSrvConf}

lemma Location.complexTarget_fixed (l : Location) :
    l.fixed.dlcf.complexTarget = l.dlcf.complexTarget := by
  unfold fixed
  split <;> rfl

lemma Location.target_fixed (l : Location) : l.fixed.target upstreams q = l.target upstreams q := by
  unfold target
  rw [complexTarget_fixed]
  unfold fixed
  split
  · rfl
  · next h => rw [h]
  · rfl

/-- What a request finds in the configuration of its location behind the first part of the handler.
-/
lemma DrizzleLocConf.enter_cases (env : HandlerEnv) (method : ℕ) (conf : DrizzleLocConf) :
    (conf.enter env method).2 = conf ∧ ((∃ rc, (conf.enter env method).1 = .returned rc) ∨
      (conf.enter env method).1 = .badPointer ∧ conf.complexTarget = .unset ∨
      conf.complexTarget = .null) ∨
    ∃ cv b target, conf.complexTarget = .value cv ∧ env.complexValue cv = some (b :: target) ∧
      (conf.enter env method).2 = { conf with upstream := env.upstreamFind (b :: target) } ∧
      ((∃ rc, (conf.enter env method).1 = .returned rc) ∨
        (conf.enter env method).1 = .init ∧ env.upstreamFind (b :: target) ≠ none) := by
  unfold enter
  split
  · exact .inl ⟨rfl, .inl ⟨_, rfl⟩⟩
  · split
    · exact .inl ⟨rfl, .inl ⟨_, rfl⟩⟩
    · split
      · exact .inl ⟨rfl, .inl ⟨_, rfl⟩⟩
      · split
        · next h => exact .inl ⟨rfl, .inr (.inl ⟨rfl, h⟩)⟩
        · next h => exact .inl ⟨rfl, .inr (.inr h)⟩
        · next cv h =>
          split
          · exact .inl ⟨rfl, .inl ⟨_, rfl⟩⟩
          · exact .inl ⟨rfl, .inl ⟨_, rfl⟩⟩
          · next target hne hvalue =>
            right
            cases target with
            | nil => exact absurd rfl hne
            | cons b target =>
              refine ⟨cv, b, target, h, hvalue, ?_⟩
              dsimp only
              split
              · exact ⟨rfl, .inl ⟨_, rfl⟩⟩
              · next hfind =>
                split
                · exact ⟨rfl, .inl ⟨_, rfl⟩⟩
                · exact ⟨rfl, .inr ⟨rfl, hfind⟩⟩

/-- The location behind the first part of the handler. -/
def Location.entered (l : Location) (upstreams : List UpstreamSrvConf) (q : Incoming) : Location :=
  { l with dlcf := (l.dlcf.enter (q.answers upstreams) q.method).2 }

lemma Location.fixed_entered (l : Location) : (l.entered upstreams q).fixed = l.fixed := by
  unfold entered
  rcases l.dlcf.enter_cases (q.answers upstreams) q.method with
    ⟨heq, _⟩ | ⟨cv, b, target, hvalue, _, heq, _⟩
  · rw [heq]
  · rw [heq]
    unfold fixed
    simp only [hvalue]

/-- The request finds the upstream that its own target names. -/
lemma Location.upstream_entered {l : Location}
    (hinit : (l.dlcf.enter (q.answers upstreams) q.method).1 = .init) :
    (l.entered upstreams q).dlcf.upstream = l.target upstreams q := by
  unfold entered target
  rcases l.dlcf.enter_cases (q.answers upstreams) q.method with
    ⟨heq, ⟨rc, hrc⟩ | ⟨hbad, _⟩ | hnull⟩ | ⟨cv, b, target, hvalue, hcv, heq, _⟩
  · cases hinit.symm.trans hrc
  · cases hinit.symm.trans hbad
  · rw [heq, hnull]
  · have hcv : q.env.complexValue cv = some (b :: target) := hcv
    rw [heq, hvalue]
    dsimp only
    rw [hcv]
    rfl

/-- A request whose target names no upstream is turned away. -/
lemma Location.returned_of_target {l : Location} {cv : ComplexValue}
    (hvalue : l.dlcf.complexTarget = .value cv) (hnone : l.target upstreams q = none) :
    ∃ rc, (l.dlcf.enter (q.answers upstreams) q.method).1 = .returned rc := by
  rcases l.dlcf.enter_cases (q.answers upstreams) q.method with
    ⟨_, hret | ⟨_, hunset⟩ | hnull⟩ | ⟨cv', b, target, hvalue', hcv, _, hret | ⟨hinit, hfind⟩⟩
  · exact hret
  · cases hvalue.symm.trans hunset
  · cases hvalue.symm.trans hnull
  · exact hret
  · refine absurd ?_ hfind
    have hcv : q.env.complexValue cv' = some (b :: target) := hcv
    unfold Location.target at hnone
    rw [hvalue'] at hnone
    dsimp only at hnone
    rw [hcv] at hnone
    exact hnone

end Targets

namespace Site

variable {conf : SiteConf} {s t : Site}

lemma enter_eq (s : Site) (q : Incoming) (l : Location) : s.enter q l = { s with
    locs := s.locs.set q.loc (l.entered s.upstreams q)
    active := match (l.dlcf.enter (q.answers s.upstreams) q.method).1 with
      | .returned _ => none
      | .badPointer => some .crashed
      | .init => some (.entered q) } := rfl

/-- A request that is served has the upstream that its target names, and one that has entered finds
it. -/
structure Targets (conf : SiteConf) (s : Site) : Prop where
  upstreams : s.upstreams = conf.upstreams
  locs : s.locs.map Location.fixed = conf.locs.map Location.fixed
  entered : ∀ q l, s.active = some (.entered q) → s.locs[q.loc]? = some l →
    l.dlcf.upstream = l.target conf.upstreams q
  elsewhere : ∀ q v, s.active = some (.elsewhere q v) → conf.target q = some v
  reqs : ∀ q ∈ s.reqs, conf.target q.incoming = some q.upstream

lemma Targets.target (h : Targets conf s) {q : Incoming} {l : Location}
    (hl : s.locs[q.loc]? = some l) : conf.target q = l.target conf.upstreams q := by
  have hget := congrArg (fun ls => ls[q.loc]?) h.locs
  simp only [List.getElem?_map, hl, Option.map_some] at hget
  obtain ⟨l₀, hl₀, hfixed⟩ := Option.map_eq_some_iff.mp hget.symm
  rw [SiteConf.target, hl₀, Option.bind_some, ← Location.target_fixed l₀, hfixed,
    Location.target_fixed]

lemma Targets.named (h : Targets conf s) {q : Incoming} {l : Location} {v : ℕ}
    (hact : s.active = some (.entered q)) (hl : s.locs[q.loc]? = some l)
    (hv : l.dlcf.upstream = some v) : conf.target q = some v :=
  (h.target hl).trans ((h.entered q l hact hl).symm.trans hv)

/-- Nothing happens between the place where the upstream is written and the one where it is read. -/
lemma Targets.step (h : Targets conf s) (l : Label) : Targets conf (s.step l) where
  upstreams := (upstreams_step s l).trans h.upstreams
  locs := by
    have hstep := step_cases s l
    generalize s.step l = s' at hstep ⊢
    cases hstep with
    | @arrive q l hidle hl =>
      refine Eq.trans ?_ h.locs
      rw [enter_eq]
      dsimp only
      rw [List.map_set, Location.fixed_entered]
      have hmap : (s.locs.map Location.fixed)[q.loc]? = some l.fixed := by
        rw [List.getElem?_map, hl, Option.map_some]
      obtain ⟨hlt, hget⟩ := List.getElem?_eq_some_iff.mp hmap
      rw [← hget, List.set_getElem_self]
    | _ => exact h.locs
  entered := by
    have hstep := step_cases s l
    generalize s.step l = s' at hstep ⊢
    intro q l₁ hact' hl₁
    cases hstep with
    | skip => exact h.entered q l₁ hact' hl₁
    | client cc hi => exact h.entered q l₁ hact' hl₁
    | @arrive q₀ l₀ hidle hl =>
      rw [enter_eq] at hact' hl₁
      dsimp only at hact' hl₁
      split at hact'
      · cases hact'
      · cases hact'
      · next hinit =>
        obtain rfl : q₀ = q := by simpa using hact'
        obtain ⟨hlt, _⟩ := List.getElem?_eq_some_iff.mp hl
        rw [List.getElem?_set_self hlt, Option.some.injEq] at hl₁
        subst hl₁
        rw [Location.upstream_entered hinit, ← Location.target_fixed (l₀.entered _ _),
          Location.fixed_entered, Location.target_fixed, h.upstreams]
    | leave env hact ha =>
      rcases ha with rfl | rfl | ⟨v, l, rfl, _⟩ <;> cases hact'
    | serve env a hact hl hv hc => cases hact'
    | run env hact hi hc => simp [put] at hact'
    | event e hidle hi hc he => simp [put] at hact'
    | idle slot stale hidle hc => cases hidle.symm.trans hact'
    | tick now hidle => cases hidle.symm.trans hact'
  elsewhere := by
    have hstep := step_cases s l
    generalize s.step l = s' at hstep ⊢
    intro q v hact'
    cases hstep with
    | skip => exact h.elsewhere q v hact'
    | client cc hi => exact h.elsewhere q v hact'
    | @arrive q₀ l₀ hidle hl =>
      rw [enter_eq] at hact'
      dsimp only at hact'
      split at hact' <;> cases hact'
    | leave env hact ha =>
      rcases ha with rfl | rfl | ⟨v', l, rfl, hl, hv⟩
      · cases hact'
      · cases hact'
      · cases hact'
        exact h.named hact hl hv
    | serve env a hact hl hv hc => cases hact'
    | run env hact hi hc => simp [put] at hact'
    | event e hidle hi hc he => simp [put] at hact'
    | idle slot stale hidle hc => cases hidle.symm.trans hact'
    | tick now hidle => cases hidle.symm.trans hact'
  reqs := by
    intro q hq
    rcases upstream_step s l q hq with ⟨q₀, hq₀, hv, hi⟩ | ⟨l, hact, hl, hv, _⟩
    · rw [hv, hi]
      exact h.reqs q₀ hq₀
    · exact h.named hact hl hv

/-! ## Connections -/

/-- The connections that a request has had have been created for its upstream, and go to a peer of
it. -/
structure Apart (s : Site) : Prop where
  hist : ∀ q ∈ s.reqs, ∀ e ∈ q.req.hist, ∀ k ∈ e.conns, s.origin[k]? = some q.upstream
  drizzleCon : ∀ q ∈ s.reqs, ∀ k, q.req.drizzleCon = some k → s.origin[k]? = some q.upstream
  dest : ∀ (k v : ℕ), s.origin[k]? = some v → (s.conns k).drizzle →
    ∃ c, s.srvConf v = some c ∧ ∃ peer ∈ c.peers, (s.conns k).dest = peer.dest

lemma origin_of_owns {v k : ℕ} (h : s.owns v k) : s.origin[k]? = some v := of_decide_eq_true h

lemma origin_putWorker_of {u v k : ℕ} (w : Worker) (h : s.origin[k]? = some v) :
    (s.putWorker u w).origin[k]? = some v := by
  obtain ⟨hlt, _⟩ := List.getElem?_eq_some_iff.mp h
  unfold putWorker
  rw [List.getElem?_append_left hlt, h]

lemma Apart.dest_of_same (h : Apart s) {u v k : ℕ} {w : Worker} {c : Conf}
    (hw : w.dests = (s.worker u c).dests) (hk : (s.putWorker u w).origin[k]? = some v)
    (hd : (w.conns k).drizzle) :
    ∃ c, s.srvConf v = some c ∧ ∃ peer ∈ c.peers, (w.conns k).dest = peer.dest := by
  have hn : w.nconns = s.origin.length := (congrArg (fun d => d.2.1) hw :)
  have hconn : (w.conns k).dest = (s.conns k).dest := congrFun (congrArg (fun d => d.2.2) hw) k
  unfold putWorker at hk
  rw [hn, Nat.sub_self, List.replicate_zero, List.append_nil] at hk
  rw [hconn]
  exact h.dest k v hk ((congrArg Prod.fst hconn :).symm.trans hd)

lemma Apart.dest_putWorker (h : Apart s) {u v k : ℕ} {w : Worker} {c : Conf}
    (hc : s.srvConf u = some c) (hw : St.Opens (s.worker u c) w)
    (hk : (s.putWorker u w).origin[k]? = some v) (hd : (w.conns k).drizzle) :
    ∃ c, s.srvConf v = some c ∧ ∃ peer ∈ c.peers, (w.conns k).dest = peer.dest := by
  cases hw with
  | same hw => exact h.dest_of_same hw hk hd
  | opened con hcon hw =>
    have hn : w.nconns = s.origin.length + 1 := (congrArg (fun d => d.2.1) hw :)
    have hconn : (w.conns k).dest = (Function.update s.conns s.origin.length con k).dest :=
      congrFun (congrArg (fun d => d.2.2) hw) k
    have hd' := (congrArg Prod.fst hconn :).symm.trans hd
    unfold putWorker at hk
    rw [hn, Nat.add_sub_cancel_left, List.replicate_one] at hk
    rw [hconn]
    rcases Nat.lt_trichotomy k s.origin.length with hlt | rfl | hgt
    · rw [List.getElem?_append_left hlt] at hk
      rw [Function.update_of_ne hlt.ne] at hd' ⊢
      exact h.dest k v hk hd'
    · rw [List.getElem?_concat_length, Option.some.injEq] at hk
      subst hk
      rw [Function.update_self] at hd' ⊢
      exact ⟨c, hc, hcon hd'⟩
    · rw [List.getElem?_eq_none (by simp; omega)] at hk
      cases hk

/-- A step of a request that works on connections of its upstream. -/
lemma Apart.put (h : Apart s) (ho : s.Owned) {i : ℕ} {q : Served} {c : Conf} {d : Prop}
    {ps : Pos × St} (hi : s.reqs[i]? = some q) (hc : s.srvConf q.upstream = some c)
    (hm : Moves d (s.view c q) ps.2) (hlt : ∀ k, ps.2.r.connection = some k → k < ps.2.w.nconns)
    (ht : St.Touches (s.view c q) ps.2) : Apart (s.put i q ps) := by
  have hcustody := ho.custody hi hc
  have hheld : ∀ k, 1 ≤ (s.view c q).holders k → s.owns q.upstream k := fun _ hk => hcustody.own hk
  have hgrow : ∀ {k v}, s.origin[k]? = some v → (s.put i q ps).origin[k]? = some v := fun hk =>
    origin_putWorker_of ps.2.w hk
  have hconn : ∀ k, ps.2.r.connection = some k → (s.put i q ps).origin[k]? = some q.upstream := by
    intro k hk
    refine origin_of_owns (s := s.put i q ps) ?_
    exact hm.own (fun k hk => owns_putWorker_of_lt hk) (fun k hk hk' => owns_putWorker_of_le hk hk')
      hheld (hlt k hk) (St.holders_of_connection hk)
  constructor
  case hist =>
    intro q' hq' e he k hk
    rcases List.mem_or_eq_of_mem_set hq' with hmem | rfl
    · exact hgrow (h.hist q' hmem e he k hk)
    · obtain ⟨es, hes, hlogs⟩ := ht.hist
      rcases List.mem_append.mp (hes ▸ he) with hnew | hold
      · rcases hlogs e hnew k hk with hk | hk
        · exact hgrow (origin_of_owns (hheld k hk))
        · exact hconn k hk
      · exact hgrow (h.hist q (List.mem_of_getElem? hi) e hold k hk)
  case drizzleCon =>
    intro q' hq' k hk
    rcases List.mem_or_eq_of_mem_set hq' with hmem | rfl
    · exact hgrow (h.drizzleCon q' hmem k hk)
    · rcases ht.drizzleCon with hsame | hnone | hheld
      · exact hgrow (h.drizzleCon q (List.mem_of_getElem? hi) k (hsame.symm.trans hk))
      · cases hnone.symm.trans hk
      · exact hconn k (hheld.symm.trans hk)
  case dest =>
    intro k v hk hd
    exact h.dest_putWorker hc ht.opens hk hd

lemma dests_closeHandler (w : Worker) (slot : ℕ) (stale : Bool) :
    (w.closeHandler slot stale).dests = w.dests := by
  rcases Sys.closeHandler_cases w slot stale with heq | ⟨item, l₁, l₂, _, heq⟩
  · rw [heq]
  · rw [heq]
    exact Worker.dests_freeConnection w _ _

lemma Apart.step (h : Apart s) (ho : s.Owned) (l : Label) : Apart (s.step l) := by
  have hstep := step_cases s l
  generalize s.step l = s' at hstep ⊢
  cases hstep with
  | @serve env q₀ l₀ v c a hact hl hv hc =>
    refine ⟨fun q hq e he => ?_, fun q hq k hk => ?_, h.dest⟩
    · rcases List.mem_append.mp hq with hmem | hnew
      · exact h.hist q hmem e he
      · obtain rfl := List.mem_singleton.mp hnew
        cases he
    · rcases List.mem_append.mp hq with hmem | hnew
      · exact h.drizzleCon q hmem k hk
      · obtain rfl := List.mem_singleton.mp hnew
        cases hk
  | run env hact hi hc =>
    have hcustody := ho.custody_serving hi hc hact
    have hadv := St.exec_advances env hcustody
    exact h.put ho hi hc hadv.moves (fun k hk => hadv.ok.lt hk) (St.exec_touches env hcustody)
  | @event i e q c hidle hi hc he =>
    have hcustody := ho.custody_idle hi hc hidle
    have hstays := Sys.stays_fire e (s.view c q)
    refine h.put ho hi hc (hstays.moves (c := True) hcustody.holders_le)
      (fun k hk => ?_) hstays.touches
    have hk : q.req.connection = some k := hstays.connection.symm.trans hk
    exact hstays.nconns.symm ▸ hcustody.ok.lt hk
  | @client i q cc hi =>
    refine ⟨fun q' hq' e he => ?_, fun q' hq' k hk => ?_, h.dest⟩
    · rcases List.mem_or_eq_of_mem_set hq' with hmem | rfl
      · exact h.hist q' hmem e he
      · exact h.hist q (List.mem_of_getElem? hi) e he
    · rcases List.mem_or_eq_of_mem_set hq' with hmem | rfl
      · exact h.drizzleCon q' hmem k hk
      · exact h.drizzleCon q (List.mem_of_getElem? hi) k hk
  | @idle v c slot stale hidle hc =>
    refine ⟨fun q hq e he k hk => ?_, fun q hq k hk => ?_, fun k v' hk hd => ?_⟩
    · exact origin_putWorker_of _ (h.hist q hq e he k hk)
    · exact origin_putWorker_of _ (h.drizzleCon q hq k hk)
    · exact h.dest_putWorker hc (.same (dests_closeHandler _ slot stale)) hk hd
  | _ => exact ⟨h.hist, h.drizzleCon, h.dest⟩

/-! ## Pools -/

/-- A pool changes when a request of the upstream runs, or one of its idle connections is readable.
-/
lemma pools_step (s : Site) (l : Label) {v : ℕ} (hv : (s.step l).pools v ≠ s.pools v) :
    (∃ i p q, s.active = some (.serving i p) ∧ s.reqs[i]? = some q ∧ q.upstream = v) ∨
      ∃ slot stale, l = .idle v slot stale := by
  have hstep := step_cases s l
  generalize s.step l = s' at hstep hv
  cases hstep with
  | @run env i p q c hact hi hc =>
    refine .inl ⟨i, p, q, hact, hi, ?_⟩
    by_contra hne
    exact hv (Function.update_of_ne (Ne.symm hne) _ _)
  | @event i e q c hidle hi hc he =>
    refine absurd ?_ hv
    have hpool : (e.fire (s.view c q)).w.pool = s.pools q.upstream := (Sys.stays_fire e _).pool
    change Function.update s.pools q.upstream (e.fire (s.view c q)).w.pool v = s.pools v
    rw [hpool, Function.update_eq_self]
  | @idle u c slot stale hidle hc =>
    by_cases hu : u = v
    · exact .inr ⟨slot, stale, by rw [hu]⟩
    · exact absurd (Function.update_of_ne (Ne.symm hu) _ _) hv
  | _ => exact absurd rfl hv

/-- How many places of an upstream hold a connection: its requests and the items of its cache. -/
def holders (s : Site) (v k : ℕ) : ℕ :=
  s.reqs.countP (fun q => q.upstream = v ∧ q.req.connection = some k)
    + (s.pools v).cache.countP fun item => item.connection = some k

/-- The number of database connections that requests of an upstream hold. -/
def dbConns (s : Site) (v : ℕ) : ℕ :=
  s.reqs.countP fun q => q.upstream = v ∧ q.req.connection.any fun k => (s.conns k).drizzle

lemma countP_only (s : Site) (v : ℕ) (c : Conf) (f : Req → Bool) :
    (s.only v c).reqs.countP f = s.reqs.countP fun q => q.upstream = v ∧ f q.req := by
  rw [only, List.countP_map, Lib.lane, List.countP_filter]
  refine List.countP_congr fun q _ => ?_
  simp [and_comm]

lemma holders_only (s : Site) (v : ℕ) (c : Conf) (k : ℕ) :
    (s.only v c).holders k = s.holders v k := by
  rw [Sys.holders, countP_only]
  simp only [decide_eq_true_eq]
  rfl

lemma Owned.origin (h : s.Owned) {q : Served} {k : ℕ} (hq : q ∈ s.reqs)
    (hk : q.req.connection = some k) : s.origin[k]? = some q.upstream := by
  obtain ⟨c, hc⟩ := h.conf q hq
  obtain ⟨i, hi⟩ := List.mem_iff_getElem?.mp hq
  exact origin_of_owns ((h.custody hi hc).own (St.holders_of_connection (s := s.view c q) hk))

lemma dbConns_only (h : s.Owned) (v : ℕ) (c : Conf) : (s.only v c).dbConns = s.dbConns v := by
  rw [Sys.dbConns, countP_only]
  refine List.countP_congr fun q hq => ?_
  simp only [decide_eq_true_eq]
  refine and_congr_right fun hv => ?_
  cases hk : q.req.connection with
  | none => simp [St.onDb, Sys.view, hk]
  | some k =>
    have hown : s.owns v k := decide_eq_true (hv ▸ h.origin hq hk)
    simp only [St.onDb, Sys.view, hk, Option.any_some]
    rw [show (s.only v c).w.conns k = s.conns k from Worker.mask_conns hown]

end Site

/-! ## Requests that are turned away -/

/-- What the first part of the handler comes to does not depend on what other requests have left. -/
lemma DrizzleLocConf.enter_upstream (env : HandlerEnv) (method : ℕ) (conf : DrizzleLocConf)
    (upstream : Option ℕ) :
    ({ conf with upstream := upstream }.enter env method).1 = (conf.enter env method).1 := by
  have hrefuse : { conf with upstream := upstream }.refuse method = conf.refuse method := rfl
  unfold enter
  rw [hrefuse]
  split
  · rfl
  · split
    · rfl
    · split
      · rfl
      · dsimp only
        split
        · rfl
        · rfl
        · split
          · rfl
          · rfl
          · split
            · rfl
            · split <;> rfl

lemma Location.eq_or_of_fixed {l l' : Location} (h : l.fixed = l'.fixed) :
    l' = { l with dlcf := { l.dlcf with upstream := l'.dlcf.upstream } } := by
  have htarget : l.dlcf.complexTarget = l'.dlcf.complexTarget := by
    rw [← complexTarget_fixed l, h, complexTarget_fixed]
  unfold fixed at h
  rw [htarget] at h
  split at h
  · have hdlcf := congrArg Location.dlcf h
    have hsettings := congrArg Location.settings h
    obtain ⟨dlcf, settings⟩ := l
    obtain ⟨dlcf', settings'⟩ := l'
    dsimp only at hdlcf hsettings ⊢
    obtain ⟨⟩ := dlcf
    obtain ⟨⟩ := dlcf'
    simp only [DrizzleLocConf.mk.injEq] at hdlcf
    simp only [hdlcf, hsettings]
  · rw [h]

lemma SiteConf.refuses_cases {conf : SiteConf} {q : Incoming} (h : conf.refuses q) :
    ∃ l cv, conf.locs[q.loc]? = some l ∧ l.dlcf.complexTarget = .value cv ∧
      conf.target q = none := by
  unfold SiteConf.refuses at h
  split at h
  · cases h
  · next l hl =>
    split at h
    · next cv hvalue => exact ⟨l, cv, hl, hvalue, of_decide_eq_true h⟩
    · cases h

/-- The steps that are left when the requests whose target names no upstream do not arrive. -/
def SiteConf.admits (conf : SiteConf) : Site.Label → Bool
  | .arrive q => !conf.refuses q
  | _ => true

namespace Site

variable {conf : SiteConf} {s t : Site}

/-- Two states that differ only in what requests have left in the configuration of locations. -/
structure Alike (conf : SiteConf) (s t : Site) : Prop where
  left : Targets conf s
  right : Targets conf t
  eq : t = { s with locs := t.locs }

lemma Alike.fixed (h : Alike conf s t) (j : ℕ) :
    s.locs[j]?.map Location.fixed = t.locs[j]?.map Location.fixed := by
  rw [← List.getElem?_map, ← List.getElem?_map, h.left.locs, h.right.locs]

/-- A request that has entered finds the same. -/
lemma Alike.entered (h : Alike conf s t) {q : Incoming} (hact : s.active = some (.entered q)) :
    t.locs[q.loc]? = s.locs[q.loc]? := by
  have hfixed := h.fixed q.loc
  have hact' : t.active = some (.entered q) := (congrArg Site.active h.eq :).trans hact
  cases hl : s.locs[q.loc]? with
  | none =>
    rw [hl, Option.map_none, eq_comm, Option.map_eq_none_iff] at hfixed
    exact hfixed
  | some l =>
    rw [hl, Option.map_some, eq_comm, Option.map_eq_some_iff] at hfixed
    obtain ⟨l', hl', hfixed⟩ := hfixed
    have hupstream : l'.dlcf.upstream = l.dlcf.upstream := by
      rw [h.left.entered q l hact hl, h.right.entered q l' hact' hl', ← Location.target_fixed l',
        hfixed, Location.target_fixed]
    rw [hl', Location.eq_or_of_fixed hfixed.symm, hupstream]

lemma dbdInit_locs (s : Site) (locs : List Location) (q : Incoming) (l : Location) :
    ({ s with locs := locs } : Site).dbdInit q l = { s.dbdInit q l with locs := locs } := by
  have hsrvConf : ∀ v, ({ s with locs := locs } : Site).srvConf v = s.srvConf v := fun _ => rfl
  unfold dbdInit
  simp only [hsrvConf]
  split
  · rfl
  · split
    · rfl
    · split
      · rfl
      · unfold initPeer
        dsimp only
        split <;> rfl

/-- A step does the same in both. -/
lemma Alike.exists_locs (h : Alike conf s t) (l : Label) :
    ∃ locs, t.step l = { s.step l with locs := locs } := by
  have hfixed := h.fixed
  have hentered := fun q => h.entered (q := q)
  rw [h.eq]
  generalize t.locs = locs at hfixed hentered
  cases l with
  | arrive q =>
    cases hact : s.active with
    | some r => exact ⟨locs, by simp [step, hact]⟩
    | none =>
      have hfixed := hfixed q.loc
      cases hl : s.locs[q.loc]? with
      | none =>
        rw [hl, Option.map_none, eq_comm, Option.map_eq_none_iff] at hfixed
        exact ⟨locs, by simp [step, hact, hl, hfixed]⟩
      | some l =>
        rw [hl, Option.map_some, eq_comm, Option.map_eq_some_iff] at hfixed
        obtain ⟨l', hl', hfixed⟩ := hfixed
        refine ⟨locs.set q.loc (l'.entered s.upstreams q), ?_⟩
        have hentry : (l'.dlcf.enter (q.answers s.upstreams) q.method).1 =
            (l.dlcf.enter (q.answers s.upstreams) q.method).1 := by
          rw [Location.eq_or_of_fixed hfixed.symm]
          exact DrizzleLocConf.enter_upstream _ _ _ _
        simp only [step, hact, hl, hl', enter_eq, hentry]
  | run env =>
    refine ⟨locs, ?_⟩
    simp only [step]
    split
    · next q hact =>
      rw [hentered q hact]
      split
      · rfl
      · exact dbdInit_locs s locs q _
    · split
      · rfl
      · next q _ =>
        have hsrvConf :
            ({ s with locs := locs } : Site).srvConf q.upstream = s.srvConf q.upstream := rfl
        rw [hsrvConf]
        split <;> rfl
    · rfl
  | event i e =>
    refine ⟨locs, ?_⟩
    simp only [step]
    split
    · next q _ _ =>
      have hsrvConf :
          ({ s with locs := locs } : Site).srvConf q.upstream = s.srvConf q.upstream := rfl
      rw [hsrvConf]
      split
      · rfl
      · next c _ =>
        have hview : ({ s with locs := locs } : Site).view c q = s.view c q := rfl
        rw [hview]
        split <;> rfl
    · rfl
  | client i cc =>
    refine ⟨locs, ?_⟩
    simp only [step]
    split <;> rfl
  | idle v slot stale =>
    refine ⟨locs, ?_⟩
    have hsrvConf : ({ s with locs := locs } : Site).srvConf v = s.srvConf v := rfl
    simp only [step, hsrvConf]
    split <;> rfl
  | tick now =>
    refine ⟨locs, ?_⟩
    simp only [step]
    split <;> rfl

/-- A step that is taken in both. -/
lemma Alike.step (h : Alike conf s t) (l : Label) : Alike conf (s.step l) (t.step l) where
  left := h.left.step l
  right := h.right.step l
  eq := by
    obtain ⟨locs, heq⟩ := h.exists_locs l
    rw [heq]

/-- A request that is turned away leaves a trace in the configuration of its location alone. -/
lemma Alike.refused (h : Alike conf s t) {l : Label} (hl : ¬ conf.admits l) :
    Alike conf (s.step l) t where
  left := h.left.step l
  right := h.right
  eq := by
    have hlocs : ∃ locs, s.step l = { s with locs := locs } := by
      cases l with
      | arrive q =>
        have hrefuses : conf.refuses q := by simpa [SiteConf.admits] using hl
        obtain ⟨l₀, cv, hl₀, hvalue, hnone⟩ := SiteConf.refuses_cases hrefuses
        simp only [Site.step]
        split
        · next l hact hget =>
          refine ⟨s.locs.set q.loc (l.entered s.upstreams q), ?_⟩
          have hfixed : l.fixed = l₀.fixed := by
            have hmap := congrArg (fun ls => ls[q.loc]?) h.left.locs
            simpa [hget, hl₀] using hmap
          have hvalue : l.dlcf.complexTarget = .value cv := by
            rw [← Location.complexTarget_fixed, hfixed, Location.complexTarget_fixed, hvalue]
          have hnone : l.target s.upstreams q = none := by
            rw [h.left.upstreams, ← h.left.target hget, hnone]
          obtain ⟨rc, hrc⟩ := Location.returned_of_target hvalue hnone
          rw [enter_eq, hrc, hact]
        · exact ⟨s.locs, rfl⟩
      | _ => exact absurd rfl hl
    obtain ⟨locs, heq⟩ := hlocs
    rw [heq]
    exact h.eq

/-! ## Isolation -/

lemma targets_init (conf : SiteConf) : Targets conf (init conf) where
  upstreams := rfl
  locs := rfl
  entered q l hact := by cases hact
  elsewhere q v hact := by cases hact
  reqs q hq := by cases hq

lemma targets_run (conf : SiteConf) (ls : List Label) : Targets conf (run conf ls) :=
  Lib.run_invariant (C := fun _ _ => True) (fun _ l _ h => h.step l) (targets_init conf)
    (Lib.Meets.of_forall (fun _ _ => trivial) ls _)

lemma apart_init (conf : SiteConf) : Apart (init conf) where
  hist q hq := by simp [init] at hq
  drizzleCon q hq := by simp [init] at hq
  dest k v hk := by simp [init] at hk

lemma apart_run (conf : SiteConf) (ls : List Label) : Apart (run conf ls) :=
  Lib.run_invariant_of (C := fun _ _ => True) (I := Owned) (fun _ l _ h => h.step l)
    (fun _ l _ ho h => h.step ho l) (owned_init conf) (apart_init conf)
    (Lib.Meets.of_forall (fun _ _ => trivial) ls _)

lemma alike_run (conf : SiteConf) (ls : List Label) :
    Alike conf (run conf ls) (run conf (ls.filter conf.admits)) :=
  Lib.run_filter (fun _ _ l _ h => h.step l) (fun _ _ _ hl h => h.refused hl)
    ⟨targets_init conf, targets_init conf, rfl⟩ ls

/-- A request waits for the first server of its upstream, others name another upstream, an unknown
one and none, and then the first server fails. -/
def retry : List Label :=
  sampleArrival [97] ++ sampleArrival [98] ++ [.arrive (sampleIncoming [99]),
    .arrive (sampleIncoming []), .event 0 (.db true false true), .run {}, .run {}, .run {}]

/-- Two upstreams, the first one with two servers. -/
def twoUpstreams : SiteConf :=
  sampleConf (.sample (.sample [1] []) [.sample [2] []]) (.sample (.sample [3] []) [])

end Site
end DrizzleNginx
