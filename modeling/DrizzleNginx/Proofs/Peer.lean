/-
# Getting and giving away connections

What `getPeer` and `freePeer` can do, with all their guards, each as a list of cases.  The
proofs about the pool and about the reuse of connections use these cases and do not look at
the functions again.
-/
import DrizzleNginx.Proofs.Frame

namespace DrizzleNginx

/-- The pool is full and rejects requests that would need a new connection. -/
def Worker.Full (w : Worker) : Prop :=
  w.conf.maxCached ≠ 0 ∧ w.conf.overflow = .reject ∧ w.conf.maxCached ≤ w.pool.activeConns.toNat

namespace St

/-- The state in which `getPeer` goes on after round robin has selected a peer. -/
def picked (s : St) : St := (s.modReq fun r => { r with failed := false }).selectPeer

/-- A new connection enters the worker process; the request points to it as told. -/
def addCon (s : St) (con : Conn) (active : UInt64) (c dc : Option ℕ) (state : DbState) : St where
  w := { s.w with
    conns := Function.update s.w.conns s.w.nconns con
    nconns := s.w.nconns + 1
    pool := { s.w.pool with activeConns := s.w.pool.activeConns + active } }
  r := { s.r with connection := c, drizzleCon := dc, state := state }

/-- A connection that `createConnection` has set up and released again. -/
structure Refused (i : ℕ) (con : Conn) : Prop where
  drizzle : con.drizzle
  peer : con.peer = i
  freed : con.freed = 1
  hist : con.hist = []

/-- A connection that `createConnection` has handed to the request. -/
structure Fresh (s : St) (i : ℕ) (con : Conn) : Prop where
  drizzle : con.drizzle
  peer : con.peer = i
  freed : con.freed = 0
  hist : con.hist = []
  pauses : con.pauses = 0
  timer : con.read.timer = none
  fd : con.fd ≠ some 0
  active : s.w.conf.addConn → con.read.active ∧ con.write.active

/-- What `createConnection` does for a request without a connection. -/
inductive CreateConnection (s : St) (i : ℕ) : Rc → St → Prop
  | noMemory : CreateConnection s i .error s
  | refused {rc : Rc} {con : Conn} {state : DbState} (hrc : rc = .declined ∨ rc = .error)
      (hcon : Refused i con) (hstate : state = s.r.state ∨ state = .connect ∨ state = .idle) :
      CreateConnection s i rc (s.addCon con 0 none none state)
  | fresh {rc : Rc} {con : Conn} {state : DbState}
      (hrc : rc = .again ∧ state = .connect ∨ rc = .done ∧ state = .idle)
      (hcon : Fresh s i con) :
      CreateConnection s i rc (s.addCon con 1 (some s.w.nconns) (some s.w.nconns) state)

variable {s : St} {con : Conn} {active : UInt64} {c dc : Option ℕ} {state : DbState}

/-! ## Setting up a connection -/

lemma openCon_eq {i : ℕ} (hc : s.r.connection = none) :
    s.openCon i = s.addCon (s.newCon i) 0 none (some s.w.nconns) s.r.state := by
  simp [openCon, addCon, hc]

lemma addCon_modConn (f : Conn → Conn) :
    (s.addCon con active c dc state).modConn s.w.nconns f =
      s.addCon (f con) active c dc state := by
  simp [addCon, modConn, Worker.modConn]

lemma addCon_invalid_none :
    (s.addCon con 1 none dc state).invalid s.w.nconns =
      (.error, s.addCon con.free 0 none none state) := by
  simp [addCon, invalid, Worker.freeConnection, Worker.modConn]

lemma addCon_invalid_some :
    (s.addCon con 1 (some s.w.nconns) dc state).invalid s.w.nconns =
      (.error, s.addCon con.free.close 0 none none state) := by
  simp [addCon, invalid, Worker.freeConnection, Worker.modConn]

lemma registerConnection_cases {i fd : ℕ} (env : PeerEnv)
    (hcon : con = { s.newCon i with fd := some (fd + 1) })
    (hstate : state = if env.con = .ioWait then .connect else .idle) :
    CreateConnection s i
      ((s.addCon con 1 (some s.w.nconns) (some s.w.nconns) state).registerConnection env
        s.w.nconns).1
      ((s.addCon con 1 (some s.w.nconns) (some s.w.nconns) state).registerConnection env
        s.w.nconns).2 := by
  subst hcon
  have hstate' : state = s.r.state ∨ state = .connect ∨ state = .idle := by
    rw [hstate]
    split
    · exact .inr (.inl rfl)
    · exact .inr (.inr rfl)
  have hconf : (s.addCon { s.newCon i with fd := some (fd + 1) } 1 (some s.w.nconns)
      (some s.w.nconns) state).w.conf = s.w.conf := rfl
  unfold registerConnection
  simp only [addCon_modConn, hconf]
  split
  · split
    · rw [addCon_invalid_some]
      exact .refused (.inr rfl) ⟨rfl, rfl, rfl, rfl⟩ hstate'
    · refine .fresh ?_ ⟨rfl, rfl, rfl, rfl, rfl, rfl, by simp, fun _ => ⟨rfl, rfl⟩⟩
      split <;> simp_all
  · rename_i hadd
    split
    · rw [addCon_invalid_some]
      exact .refused (.inr rfl) ⟨rfl, rfl, rfl, rfl⟩ hstate'
    · split
      · split
        · rw [addCon_invalid_some]
          exact .refused (.inr rfl) ⟨rfl, rfl, rfl, rfl⟩ hstate'
        · refine .fresh (.inl ⟨rfl, ?_⟩)
            ⟨rfl, rfl, rfl, rfl, rfl, rfl, by simp, fun h => absurd h hadd⟩
          simp_all
      · refine .fresh (.inr ⟨rfl, ?_⟩)
          ⟨rfl, rfl, rfl, rfl, rfl, rfl, by simp, fun h => absurd h hadd⟩
        simp_all

lemma wrapConnection_cases {i : ℕ} (env : PeerEnv) (hstate : state = s.r.state) :
    CreateConnection s i
      ((s.addCon (s.newCon i) 0 none (some s.w.nconns) state).wrapConnection env s.w.nconns).1
      ((s.addCon (s.newCon i) 0 none (some s.w.nconns) state).wrapConnection env
        s.w.nconns).2 := by
  have hcount : ∀ s' : St, s' = s.addCon (s.newCon i) 0 none (some s.w.nconns) state →
      ({ s' with w := { s'.w with pool :=
        { s'.w.pool with activeConns := s'.w.pool.activeConns + 1 } } } : St) =
      s.addCon (s.newCon i) 1 none (some s.w.nconns) state := by
    rintro _ rfl
    simp [addCon]
  unfold wrapConnection
  simp only [hcount _ rfl]
  split
  · rw [addCon_invalid_none]
    exact .refused (.inr rfl) ⟨rfl, rfl, rfl, rfl⟩ (.inl hstate)
  · split
    · rw [addCon_invalid_none]
      exact .refused (.inr rfl) ⟨rfl, rfl, rfl, rfl⟩ (.inl hstate)
    · rw [addCon_modConn]
      exact registerConnection_cases env rfl rfl

lemma createConnection_cases (env : PeerEnv) (i : ℕ) (hc : s.r.connection = none) :
    CreateConnection s i (s.createConnection env i).1 (s.createConnection env i).2 := by
  unfold createConnection
  simp only
  split
  · exact .noMemory
  · rw [openCon_eq hc]
    split
    · rw [addCon_modConn]
      exact .refused (.inl rfl) ⟨rfl, rfl, rfl, rfl⟩ (.inl rfl)
    · exact wrapConnection_cases env rfl

/-! ## Getting a connection -/

/-- No connection in the cache can be handed to the request: in single mode any one could, else
only those to the address of the peer that is next. -/
def Misses (s : St) : Prop :=
  s.w.conf.maxCached ≠ 0 → if s.w.conf.single then s.w.pool.cache = []
    else ∀ item ∈ s.w.pool.cache, item.sockaddr ≠ (s.w.conf.peer s.r.nextPeer).sockaddr

/-- What `getPeer` does for a request without a connection. -/
inductive GetPeer (s : St) : Rc → St → Prop
  | single {item : Item} {cache : List Item} (hmax : s.w.conf.maxCached ≠ 0)
      (hsingle : s.w.conf.single) (hcache : s.w.pool.cache = item :: cache) :
      GetPeer s .done ((s.modReq fun r =>
        { r with failed := false, name := item.name, sockaddr := item.sockaddr }).resumeCached
          item cache)
  | busy (hleft : s.r.remainingPeers = 0)
      (hmiss : s.w.conf.maxCached ≠ 0 → s.w.conf.single → s.w.pool.cache = []) :
      GetPeer s .busy (s.modReq fun r => { r with failed := false })
  | multi {item : Item} {l₁ l₂ : List Item} (hmax : s.w.conf.maxCached ≠ 0)
      (hmulti : s.w.conf.single = false) (hcache : s.w.pool.cache = l₁ ++ item :: l₂)
      (haddr : item.sockaddr = (s.w.conf.peer s.r.nextPeer).sockaddr)
      (hfirst : ∀ it ∈ l₁, it.sockaddr ≠ (s.w.conf.peer s.r.nextPeer).sockaddr)
      (hleft : s.r.remainingPeers ≠ 0) :
      GetPeer s .done (s.picked.resumeCached item (l₁ ++ l₂))
  | overflow (getConn : Bool) (hfull : s.w.Full) (hmiss : s.Misses)
      (hleft : s.r.remainingPeers ≠ 0) :
      GetPeer s .again (s.picked.rejectOverflow getConn).2
  | create {rc : Rc} {s' : St} (hroom : ¬ s.w.Full)
      (h : CreateConnection s.picked s.r.nextPeer rc s') (hmiss : s.Misses)
      (hleft : s.r.remainingPeers ≠ 0) : GetPeer s rc s'

lemma keepaliveGetPeerMulti_cases (s : St) :
    (s.keepaliveGetPeerMulti = (.declined, s) ∧
      ∀ item ∈ s.w.pool.cache, item.sockaddr ≠ s.r.sockaddr) ∨
    ∃ item l₁ l₂, s.w.pool.cache = l₁ ++ item :: l₂ ∧ item.sockaddr = s.r.sockaddr ∧
      (∀ it ∈ l₁, it.sockaddr ≠ s.r.sockaddr) ∧
      s.keepaliveGetPeerMulti = (.done, s.resumeCached item (l₁ ++ l₂)) := by
  unfold keepaliveGetPeerMulti
  split
  case h_1 hfind => exact .inl ⟨rfl, by simpa using hfind⟩
  case h_2 item hfind =>
    right
    obtain ⟨haddr, l₁, l₂, hcache, hne⟩ := List.find?_eq_some_iff_append.mp hfind
    refine ⟨item, l₁, l₂, hcache, by simpa using haddr, by simpa using hne, ?_⟩
    rw [hcache, List.eraseP_append_right _ (by simpa using hne),
      List.eraseP_cons_of_pos (p := fun item : Item => item.sockaddr = s.r.sockaddr) haddr]

/-- The part of `getPeer` behind the pool in single mode. -/
lemma getPeerRoundRobin_cases (env : PeerEnv) (hc : s.r.connection = none) {s₀ : St}
    (hs₀ : s₀ = s.modReq fun r => { r with failed := false })
    (hempty : s.w.conf.maxCached ≠ 0 → s.w.conf.single → s.w.pool.cache = []) :
    GetPeer s (s₀.getPeerRoundRobin env).1 (s₀.getPeerRoundRobin env).2 := by
  have hpicked : s₀.selectPeer = s.picked := by rw [hs₀, picked]
  have hnext : s₀.r.nextPeer = s.r.nextPeer := by rw [hs₀]; rfl
  unfold getPeerRoundRobin
  simp only
  split
  · next h => exact hs₀ ▸ .busy (by rw [hs₀] at h; exact h) hempty
  · next h =>
    have hleft : s.r.remainingPeers ≠ 0 := by rw [hs₀] at h; exact h
    rw [hpicked, hnext]
    let new : Rc × St :=
      if s.w.conf.maxCached ≠ 0 ∧ s.w.conf.overflow = .reject ∧
          s.w.conf.maxCached ≤ s.w.pool.activeConns.toNat then s.picked.rejectOverflow env.getConn
      else s.picked.createConnection env s.r.nextPeer
    have hnew : s.Misses → GetPeer s new.1 new.2 := by
      intro hmiss
      by_cases hfull : s.w.Full
      · have hnew : new = s.picked.rejectOverflow env.getConn := if_pos hfull
        have hrc : (s.picked.rejectOverflow env.getConn).1 = .again := by
          unfold rejectOverflow
          split <;> rfl
        rw [hnew, hrc]
        exact .overflow env.getConn hfull hmiss hleft
      · have hnew : new = s.picked.createConnection env s.r.nextPeer := if_neg hfull
        rw [hnew]
        exact .create hfull (createConnection_cases env _ hc) hmiss hleft
    subst hs₀
    split
    · next hmulti =>
      have hmode : s.w.conf.single = false := by simpa using hmulti.2
      rcases keepaliveGetPeerMulti_cases s.picked with
        ⟨hdecl, hnone⟩ | ⟨item, l₁, l₂, hcache, haddr, hfirst, hdone⟩
      · rw [hdecl]
        exact hnew fun _ => by rw [hmode]; exact hnone
      · rw [hdone]
        exact .multi hmulti.1 hmode hcache haddr hfirst hleft
    · next hmulti =>
      refine hnew fun hmax => ?_
      have hmode : s.w.conf.single = true := by
        by_contra hmode
        exact hmulti ⟨hmax, by simpa using hmode⟩
      rw [if_pos hmode]
      exact hempty hmax hmode

/-- What `getPeer` does for a request without a connection: there are no other cases. -/
theorem getPeer_cases (env : PeerEnv) (hc : s.r.connection = none) :
    GetPeer s (s.getPeer env).1 (s.getPeer env).2 := by
  unfold getPeer
  simp only
  split
  · next hsingle =>
    unfold keepaliveGetPeerSingle
    split
    · next hcache => exact getPeerRoundRobin_cases env hc rfl fun _ _ => hcache
    · next item cache hcache => exact .single hsingle.1 hsingle.2 hcache
  · next hmode => exact getPeerRoundRobin_cases env hc rfl fun hmax hs => absurd ⟨hmax, hs⟩ hmode

/-- Without a connection from the cache, `getPeer` rejects the request or makes a new one. -/
lemma getPeer_of_misses (env : PeerEnv) (hmiss : s.Misses) (hleft : s.r.remainingPeers ≠ 0) :
    s.getPeer env = if s.w.conf.maxCached ≠ 0 ∧ s.w.conf.overflow = .reject ∧
      s.w.conf.maxCached ≤ s.w.pool.activeConns.toNat then s.picked.rejectOverflow env.getConn
      else s.picked.createConnection env s.r.nextPeer := by
  have hsingle : (if s.w.conf.maxCached ≠ 0 ∧ s.w.conf.single then
      (s.modReq fun r => { r with failed := false }).keepaliveGetPeerSingle
      else (.declined, s.modReq fun r => { r with failed := false })) =
      (.declined, s.modReq fun r => { r with failed := false }) := by
    split
    · next h =>
      have hcache := hmiss h.1
      rw [if_pos h.2] at hcache
      simp only [keepaliveGetPeerSingle, modReq_w, hcache]
    · rfl
  have hmulti : (if s.w.conf.maxCached ≠ 0 ∧ !s.w.conf.single then
      s.picked.keepaliveGetPeerMulti else (.declined, s.picked)) = (.declined, s.picked) := by
    split
    · next h =>
      have hcache := hmiss h.1
      rw [if_neg (by simpa using h.2)] at hcache
      rcases keepaliveGetPeerMulti_cases s.picked with ⟨hdecl, _⟩ | ⟨item, l₁, l₂, hmem, haddr, _⟩
      · exact hdecl
      · refine absurd haddr (hcache item ?_)
        have hmem : s.w.pool.cache = l₁ ++ item :: l₂ := hmem
        simp [hmem]
    · rfl
  have hleft : ¬ (s.modReq fun r => { r with failed := false }).r.remainingPeers = 0 := hleft
  have hpicked : (s.modReq fun r => { r with failed := false }).selectPeer = s.picked := rfl
  simp only [getPeer, getPeerRoundRobin] at hsingle hmulti ⊢
  simp only [hsingle, ne_eq, not_true_eq_false, if_false, hleft, hpicked, modReq_w, hmulti]
  rfl

/-! ## Giving a connection away -/

/-- What `takeItem` does. -/
inductive TakeItem (w : Worker) : Item → Option ℕ → Worker → Prop
  | free {item : Item} {free : List Item} (hfree : w.pool.free = item :: free) :
      TakeItem w item none { w with pool := { w.pool with free := free } }
  | evict {item : Item} {cache : List Item} (hfree : w.pool.free = [])
      (hcache : w.pool.cache = cache ++ [item]) :
      TakeItem w item item.connection
        (({ w with pool := { w.pool with cache := cache } } : Worker).freeConnection
          item.connection item.drizzleCon)

lemma takeItem_cases {w : Worker} (h : w.pool.cache ≠ [] ∨ w.pool.free ≠ []) :
    ∃ item evicted w', w.takeItem = (some item, evicted, w') ∧ TakeItem w item evicted w' := by
  unfold Worker.takeItem
  split
  case h_1 item free hfree => exact ⟨_, _, _, rfl, .free hfree⟩
  case h_2 hfree =>
    rcases List.eq_nil_or_concat w.pool.cache with hnil | ⟨cache, item, hcache⟩
    · simp_all
    · rw [List.concat_eq_append] at hcache
      refine ⟨item, _, _, ?_, .evict hfree hcache⟩
      simp [hcache]

/-- What `freePeer` does. -/
inductive FreePeer (failed : Bool) (s : St) : St → Prop
  | idle (b : Bool) (hc : s.r.connection = none) :
      FreePeer failed s (s.modReq fun r => { r with failed := b })
  | saved {k : ℕ} {item : Item} {evicted : Option ℕ} {w : Worker}
      (hc : s.r.connection = some k) (hmax : s.w.conf.maxCached ≠ 0) (hfailed : failed = false)
      (hr : s.r.reusable) (ht : TakeItem s.w item evicted w) :
      FreePeer failed s (({ s with w := w } : St).saveIn k item evicted)
  | closed (b : Bool) {k : ℕ} (hc : s.r.connection = some k)
      (hr : s.w.conf.maxCached = 0 ∨ failed ∨ ¬ s.r.reusable) :
      FreePeer failed s ((s.modReq fun r => { r with failed := b }).dropConnection k)

lemma modReq_failed (s : St) : s = s.modReq fun r => { r with failed := s.r.failed } := rfl

/-- What `freePeer` does: there are no other cases. -/
theorem freePeer_cases (failed : Bool)
    (hq : s.w.pool.cache.length + s.w.pool.free.length = s.w.conf.maxCached) :
    FreePeer failed s (s.freePeer failed) := by
  cases hc : s.r.connection with
  | none =>
    have h : ∃ b, s.freePeer failed = s.modReq fun r => { r with failed := b } := by
      unfold freePeer keepaliveFreePeer
      by_cases hmax : s.w.conf.maxCached = 0
      · exact ⟨s.r.failed, Eq.trans (by simp [hmax, hc]) (modReq_failed s)⟩
      · cases failed with
        | true => exact ⟨true, by simp [hmax, hc]⟩
        | false => exact ⟨s.r.failed, Eq.trans (by simp [hmax, hc]) (modReq_failed s)⟩
    obtain ⟨b, h⟩ := h
    exact h ▸ .idle b hc
  | some k =>
    by_cases hsave : s.w.conf.maxCached ≠ 0 ∧ failed = false ∧ s.r.reusable
    · -- the connection is saved
      obtain ⟨hmax, rfl, hr⟩ := hsave
      have hne : s.w.pool.cache ≠ [] ∨ s.w.pool.free ≠ [] := by
        by_contra hnil
        simp only [not_or, ne_eq, not_not] at hnil
        simp [hnil.1, hnil.2] at hq
        omega
      obtain ⟨item, evicted, w, htake, ht⟩ := takeItem_cases hne
      have h : s.freePeer false = ({ s with w := w } : St).saveIn k item evicted := by
        simp [freePeer, keepaliveFreePeer, hmax, hc, hr, saveConnection, htake, saveIn,
          Req.log]
      exact h ▸ .saved hc hmax rfl hr ht
    · have h : ∃ b, s.freePeer failed =
          (s.modReq fun r => { r with failed := b }).dropConnection k := by
        unfold freePeer keepaliveFreePeer
        by_cases hmax : s.w.conf.maxCached = 0
        · exact ⟨s.r.failed, Eq.trans (by simp [hmax, hc]) (congrArg _ (modReq_failed s))⟩
        · cases failed with
          | true => exact ⟨true, by simp [hmax, hc, Req.reusable]⟩
          | false =>
            have hr : s.r.reusable = false := by simpa [hmax] using hsave
            exact ⟨s.r.failed, Eq.trans (by simp [hmax, hc, hr]) (congrArg _ (modReq_failed s))⟩
      obtain ⟨b, h⟩ := h
      refine h ▸ .closed b hc ?_
      by_contra hne
      exact hsave (by simpa using hne)

lemma FreePeer.connection {failed : Bool} {s' : St} (h : FreePeer failed s s') :
    s'.r.connection = none := by
  cases h with
  | idle b hc => exact hc
  | saved => rfl
  | closed => rfl

lemma FreePeer.live {failed : Bool} {s' : St} (h : FreePeer failed s s') :
    s'.r.live = s.r.live := by
  cases h <;> rfl

lemma FreePeer.inHandler {failed : Bool} {s' : St} (h : FreePeer failed s s') :
    s'.r.inHandler = s.r.inHandler := by
  cases h <;> rfl

/-! ## Ending and retrying -/

/-- The end of a request: it is marked as finalized, and events are entered into its history. -/
def ended (es : List ReqEvent) (s : St) : St :=
  s.modReq fun r => { r with hist := es ++ r.hist, live := false }

/-- What `finalizeRequest` does: the connection is given away, and the response is completed or
not. -/
inductive FinalizeRequest (s : St) (rc : Rc) : St → Prop
  | completed {s₁ : St} (hfree : FreePeer false (s.log (.finalize rc)) s₁)
      (hrc : rc = .ok ∨ s₁.r.out.headerSent ∧ rc.failed) (rc' : Rc) :
      FinalizeRequest s rc (s₁.ended [.finalized rc', .sendSpecial])
  | failed {s₁ : St} (hfree : FreePeer false (s.log (.finalize rc)) s₁)
      (hrc : ¬ (rc = .ok ∨ s₁.r.out.headerSent ∧ rc.failed)) :
      FinalizeRequest s rc (s₁.ended [.finalized rc])

lemma finalizeRequest_cases (env : Env) {rc : Rc} (hrc : rc ≠ .declined)
    (hq : s.w.pool.cache.length + s.w.pool.free.length = s.w.conf.maxCached) :
    (s.finalizeRequest env rc).1 = .loop ∧ FinalizeRequest s rc (s.finalizeRequest env rc).2 := by
  have hfree := freePeer_cases (s := s.log (.finalize rc)) false hq
  generalize hs₁ : (s.log (.finalize rc)).freePeer false = s₁ at hfree
  have hrelease : (s.log (.finalize rc)).releasePeer = s₁ := by
    have hnone : s₁.modReq (fun r => { r with connection := none }) = s₁ := by
      rw [← hfree.connection]
      rfl
    unfold releasePeer
    simp only [hs₁, hfree.connection]
    exact hnone
  unfold finalizeRequest
  simp only [hrelease]
  by_cases hsend : rc = .ok ∨ s₁.r.out.headerSent ∧ rc.failed
  · have hok : (if s₁.r.out.headerSent && rc.failed then .ok else rc) = Rc.ok := by
      rcases hsend with rfl | ⟨hsent, hfailed⟩
      · exact ite_self _
      · simp [hsent, hfailed]
    rw [hok, if_neg (by simp)]
    exact ⟨rfl, .completed hfree hsend env.sendSpecial⟩
  · have hne : (if s₁.r.out.headerSent && rc.failed then .ok else rc) = rc := by
      rw [if_neg]
      simp only [Bool.and_eq_true]
      exact fun h => hsend (.inr h)
    rw [hne, if_neg hrc]
    refine ⟨rfl, ?_⟩
    have hend : s₁.endResponse env rc = s₁.ended [.finalized rc] := by
      unfold endResponse
      rw [if_neg fun h => hsend (.inl h)]
      rfl
    dsimp only
    rw [hend]
    exact .failed hfree hsend

/-- What `next` does behind the connection of the failed attempt: the request is ended, or there
is another attempt. -/
inductive Next (s : St) (ft : Ft) : Pos → St → Prop
  | stop {status : ℕ} (hstatus : status = 499 ∨ status = 502 ∨ status = 504) :
      Next s ft (.finalize (.http status)) s
  | retry (hstarted : s.r.queryStarted = false) (hleft : s.r.remainingPeers ≠ 0)
      (hft : ft ≠ .nolive) : Next s ft .dbdConnect (s.modReq fun r => { r with
        state := .connect, hasSetNames := false, used := 0, cached := false })

lemma next_cases (ft : Ft)
    (hq : s.w.pool.cache.length + s.w.pool.free.length = s.w.conf.maxCached) :
    ∃ s₁, (if ft = .nolive then s₁ = s else FreePeer true s s₁) ∧
      Next s₁ ft (s.next ft).1 (s.next ft).2 := by
  obtain ⟨s₁, hs₁⟩ : ∃ s₁, s₁ = if ft ≠ .nolive then s.freePeer true else s := ⟨_, rfl⟩
  refine ⟨s₁, ?_, ?_⟩
  · split
    · next hft => rw [hs₁, if_neg (not_not.mpr hft)]
    · next hft =>
      rw [hs₁, if_pos hft]
      exact freePeer_cases true hq
  · unfold next
    simp only [← hs₁]
    split
    · exact .stop (.inl rfl)
    · split
      · next hretry =>
        obtain ⟨hstarted, hleft, _, hft⟩ := hretry
        refine .retry (by simpa using hstarted) hleft ?_
        rintro rfl
        simp at hft
      · refine .stop ?_
        split
        · exact .inr (.inr rfl)
        · exact .inr (.inl rfl)

end St
end DrizzleNginx
