/-
# What the pool knows about its connections

Beside a connection, an item of the pool holds what the next request has to know about it: its
address and its name, whether the `set names` query has been sent on it, and how many requests have
used it.  These go from the item to the request that takes the connection and back to another item.
On the way they remain true of the connection.
-/
import DrizzleNginx.Proofs.Charset

namespace DrizzleNginx

/-! ## What is true of a connection -/

/-- The server has answered a `set names` query, if not with an error other than that of a missing
table. -/
def LibCall.setsNames : LibCall → Bool
  | query _ true _ (.ok h) => h.errorCode = 0
  | query _ true _ (.fail (.errorCode code)) => code = noSuchTable
  | _ => false

/-- The `set names` query has been sent on the connection. -/
def Conn.hasSetNames (c : Conn) : Bool := c.hist.any LibCall.setsNames

/-- The name is that of a server with the address of the connection.  In single mode it is that of
the server to which the connection was established. -/
structure Conf.Names (conf : Conf) (name : Bytes) (c : Conn) : Prop where
  exists_peer : ∃ i, (conf.peer i).sockaddr = (conf.peer c.peer).sockaddr ∧
    name = (conf.peer i).name
  single : conf.single → name = (conf.peer c.peer).name

/-- What a request notes about its connection is true of it. -/
structure Knows (conf : Conf) (r : Req) (c : Conn) : Prop where
  sockaddr : r.sockaddr = (conf.peer c.peer).sockaddr
  name : conf.Names r.name c
  hasSetNames : r.hasSetNames = c.hasSetNames

/-- What an item of the cache says about its connection is true of it. -/
structure Item.Knows (conf : Conf) (item : Item) (c : Conn) : Prop where
  sockaddr : item.sockaddr = (conf.peer c.peer).sockaddr
  name : conf.Names item.name c
  hasSetNames : item.hasSetNames = c.hasSetNames

variable {s s' : St} {p : Pos} {k : ℕ} {t : Talk} {calls cs : List LibCall} {conf : Conf}

lemma LibCall.setsNames_of_not_query {call : LibCall} (h : call.isQuery = false) :
    call.setsNames = false := by
  cases call with
  | query => cases h
  | _ => rfl

/-- Names depend on the peer of a connection alone. -/
lemma Conf.Names.congr {name : Bytes} {c c' : Conn} (h : conf.Names name c)
    (hpeer : c'.peer = c.peer) : conf.Names name c' :=
  ⟨hpeer ▸ h.exists_peer, hpeer ▸ h.single⟩

namespace St

/-! ## One step -/

/-- The answer to the `set names` query is noted. -/
lemma sendQuery_hasSetNames (env : Env) : (s.sendQuery env k k).2.r.hasSetNames =
    ((LibCall.query s.r.id s.r.sendsSetNames s.r.queryToSend env.query).setsNames ||
      s.r.hasSetNames) := by
  rcases (sendQuery_flags (s := s) (k := k) env).2 with
    ⟨heq, hidle⟩ | ⟨hset, hsends, herr | ⟨h, hok, hcode⟩⟩
  · rw [heq]
    cases hsends : s.r.sendsSetNames with
    | false => rfl
    | true =>
      rw [hsends] at hidle
      cases hret : env.query with
      | ioWait => rfl
      | ok h =>
        have hcode : h.errorCode ≠ 0 := by
          intro hcode
          simp [hret, Talk.queried, hcode] at hidle
        simp [LibCall.setsNames, hcode]
      | fail err =>
        have herr : err ≠ .errorCode LibCall.noSuchTable := by
          intro herr
          simp [hret, Talk.queried, herr] at hidle
        cases err with
        | errorCode code =>
          have hcode : code ≠ LibCall.noSuchTable := fun h => herr (congrArg _ h)
          simp [LibCall.setsNames, hcode]
        | other => rfl
  · rw [hset, hsends, herr]
    rfl
  · rw [hset, hsends, hok]
    simp [LibCall.setsNames, hcode]

/-- A request that stays with its connection. -/
lemma knows_of_stays (env : Env) (hc : Custody p s) (hs : Session p s.r t) (hp : p.stays)
    (hk : s.r.connection = some k) (hn : Knows s.w.conf s.r (s.w.conns k)) :
    Knows s.w.conf (s.exec env p).2.r ((s.exec env p).2.w.conns k) := by
  have hstays := stays_exec env hc hp
  have hpeer : ((s.exec env p).2.w.conns k).peer = (s.w.conns k).peer := hstays.peer k
  have haddr := (Stays.charset hstays).2.2
  have hname : (s.exec env p).2.r.name = s.r.name := (congrArg Req.name hstays.req :)
  refine ⟨haddr.trans (hpeer ▸ hn.sockaddr), hname ▸ hn.name.congr hpeer, ?_⟩
  by_cases hq : p = .sendQuery
  · subst hq
    obtain ⟨_, j, hj⟩ := hc.ok
    obtain rfl := Option.some.inj (hj.connection.symm.trans hk)
    rw [exec, onConn_of hj.connection hj.drizzleCon] at hstays ⊢
    have hcalls := (sendQuery_flags (s := s) (k := j) env).1
    rw [Conn.hasSetNames, Stays.hist_append hstays hk (show _ = [_] ++ s.r.calls from hcalls),
      sendQuery_hasSetNames, hn.hasSetNames]
    rfl
  · have hf := exec_flags env hc
    have hset : (s.exec env p).2.r.hasSetNames = s.r.hasSetNames := by
      refine (hf.hasSetNames hp hq).resolve_right ?_
      rintro ⟨rfl, hsends⟩
      -- rows belong to the query of the request
      cases (hs.fits hc.ok.1).1.symm.trans hsends
    obtain ⟨cs, hcs, hnot⟩ := hf.queries hp hq
    have hnone : cs.any LibCall.setsNames = false :=
      List.any_eq_false.mpr fun call hcall => by
        simp [LibCall.setsNames_of_not_query (hnot call hcall)]
    rw [hset, Conn.hasSetNames, Stays.hist_append hstays hk hcs, List.any_append, hnone]
    exact hn.hasSetNames

/-- A request gets a connection. -/
lemma knows_getPeer {rc : Rc} (hget : GetPeer s rc s') (hnone : s.r.connection = none)
    (hset : s.r.hasSetNames = false)
    (hitems : ∀ item ∈ s.w.pool.cache, ∀ k, item.connection = some k →
      item.Knows s.w.conf (s.w.conns k))
    (hk : s'.r.connection = some k) (hd : (s'.w.conns k).drizzle) :
    Knows s.w.conf s'.r (s'.w.conns k) := by
  cases hget with
  | @single item cache hmax hsingle hcache =>
    have hi := hitems item (by simp [hcache]) k hk
    exact ⟨hi.sockaddr, hi.name, hi.hasSetNames⟩
  | busy hleft => cases hnone.symm.trans hk
  | @multi item l₁ l₂ hmax hmulti hcache haddr =>
    -- the name is not resumed: it is that of the peer that was selected
    have hi := hitems item (by simp [hcache]) k hk
    have haddr' := haddr.symm.trans hi.sockaddr
    refine ⟨haddr', ⟨⟨_, haddr', rfl⟩, fun hsingle => ?_⟩, hi.hasSetNames⟩
    cases hsingle.symm.trans hmulti
  | overflow getConn hfull =>
    cases getConn with
    | true =>
      obtain rfl := Option.some.inj hk
      simp [rejectOverflow, St.log, picked, selectPeer] at hd
    | false => cases hk
  | create hroom h =>
    cases h with
    | noMemory => cases hnone.symm.trans hk
    | refused hrc hcon hstate => cases hk
    | @fresh rc con state hrc hcon =>
      obtain rfl := Option.some.inj hk
      have hconn : ((s.picked.addCon con 1 (some s.picked.w.nconns) (some s.picked.w.nconns)
          state).w.conns s.picked.w.nconns) = con := Function.update_self ..
      rw [hconn]
      refine ⟨by rw [hcon.peer]; rfl, ⟨⟨s.r.nextPeer, by rw [hcon.peer], rfl⟩, fun _ => ?_⟩, ?_⟩
      · rw [hcon.peer]
        rfl
      · rw [Conn.hasSetNames, hcon.hist]
        exact hset

/-- A step of the request keeps what it knows true of its connection. -/
theorem knows_exec (env : Env) (hc : Custody p s) (hs : Session p s.r t)
    (hset : p = .dbdConnect → s.r.hasSetNames = false)
    (hitems : ∀ item ∈ s.w.pool.cache, ∀ k, item.connection = some k →
      item.Knows s.w.conf (s.w.conns k))
    (h : ∀ k, s.r.connection = some k → (s.w.conns k).drizzle →
      Knows s.w.conf s.r (s.w.conns k))
    (hk : (s.exec env p).2.r.connection = some k) (hd : ((s.exec env p).2.w.conns k).drizzle) :
    Knows s.w.conf (s.exec env p).2.r ((s.exec env p).2.w.conns k) := by
  cases hp : p.stays with
  | true =>
    have hstays := stays_exec env hc hp
    have hk₀ := hstays.connection.symm.trans hk
    exact knows_of_stays env hc hs hp hk₀ (h k hk₀ ((hstays.drizzle k).symm.trans hd))
  | false =>
    by_cases hq : p = .dbdConnect
    · subst hq
      have hnone := hc.ok.2.1.connection
      simp only [exec, dbdConnect] at hk hd ⊢
      split at hk
      · cases hnone.symm.trans hk
      · next halloc =>
        rw [if_neg halloc] at hd ⊢
        have hn := knows_getPeer (getPeer_cases env.peer hnone) hnone (hset rfl) hitems hk hd
        exact ⟨hn.sockaddr, hn.name, hn.hasSetNames⟩
    · rw [exec_of_connection env hc hp hq hk] at hd ⊢
      have hn := h k (connection_of_exec env hc hq hk) hd
      exact ⟨hn.sockaddr, hn.name, hn.hasSetNames⟩

end St

/-! ## Runs -/

/-- Whether what requests and items say about their connections is true, as a claim.  A request that
goes to get a connection has no notes about another one. -/
def Local.entries : Local where
  req conf p r c := (p = .dbdConnect → r.hasSetNames = false ∧ r.used = 0) ∧
    (r.connection ≠ none → c.drizzle → Knows conf r c)
  item conf item c := item.Knows conf c

lemma Local.entries_kept : Local.entries.Kept fun _ p s => Known p s where
  init _ _ _ _ _ := ⟨fun _ => ⟨rfl, rfl⟩, fun h => absurd rfl h⟩
  fire ev s _ _ h := by
    obtain ⟨⟨cw, hr⟩, rt, wt, hcon⟩ := St.fire_cases ev s
    rw [hr, hcon]
    exact ⟨nofun, fun hconn hd => ⟨(h.2 hconn hd).sockaddr, (h.2 hconn hd).name.congr rfl,
      (h.2 hconn hd).hasSetNames⟩⟩
  client _ _ _ _ _ h := ⟨h.1, fun hconn hd => ⟨(h.2 hconn hd).sockaddr, (h.2 hconn hd).name,
    (h.2 hconn hd).hasSetNames⟩⟩
  exec env p s hc hd h hitems := by
    refine ⟨fun hp => ?_, fun hconn => ?_⟩
    · obtain ⟨_, hset, hused, _⟩ := St.exec_dbdConnect env hc (Pos.eq_of_after hp nofun nofun)
      exact ⟨hset, hused⟩
    · obtain ⟨t, hs⟩ := hd.session
      obtain ⟨k, hk⟩ := Option.ne_none_iff_exists'.mp hconn
      rw [St.conn_of hk]
      refine St.knows_exec env hc hs (fun hp => (h.1 hp).1) hitems (fun j hj hdj => ?_) hk
      have hn := h.2 (by simp [hj])
      rw [St.conn_of hj] at hn
      exact hn hdj
  saved env rc s item k s' hc hd h hsaved := by
    have hk := hsaved.holds.connection
    have hn := h.2 (by simp [hk])
    rw [St.conn_of hk] at hn
    have hn := hn hsaved.holds.drizzle
    exact ⟨hsaved.sockaddr.trans hn.sockaddr, hsaved.name ▸ hn.name.congr rfl,
      hsaved.hasSetNames.trans hn.hasSetNames⟩

/-! ## How often a connection has been used -/

/-- The connection was saved in the pool. -/
def ReqEvent.saves (k : ℕ) : ReqEvent → Bool
  | saved j _ => j = k
  | _ => false

/-- The request has been completed, and has saved the connection. -/
def Req.savedOn (k : ℕ) (r : Req) : Bool := r.hist.any (ReqEvent.saves k)

/-- The number of requests that have been completed on a connection and have saved it. -/
def Sys.saves (s : Sys) (k : ℕ) : ℕ := s.reqs.countP (Req.savedOn k)

/-- What a step does to the numbers of uses that are noted. -/
inductive St.Uses (s s' : St) : Prop
  | kept (hsaved : ∀ k, s'.r.savedOn k = s.r.savedOn k)
      (hcache : ∀ item ∈ s'.w.pool.cache, item ∈ s.w.pool.cache)
      (hconn : ∀ k, s'.r.connection = some k → s.r.connection = some k)
      (hused : s'.r.used = s.r.used ∨ s'.r.connection = none) : Uses s s'
  | hit {item : Item} (hsaved : ∀ k, s'.r.savedOn k = s.r.savedOn k)
      (hcache : ∀ item ∈ s'.w.pool.cache, item ∈ s.w.pool.cache)
      (hitem : item ∈ s.w.pool.cache) (hconn : s'.r.connection = item.connection)
      (hused : s'.r.used = item.used) : Uses s s'
  | fresh (hsaved : ∀ k, s'.r.savedOn k = s.r.savedOn k)
      (hcache : ∀ item ∈ s'.w.pool.cache, item ∈ s.w.pool.cache)
      (hconn : s'.r.connection = some s.w.nconns) (hused : s'.r.used = 0) : Uses s s'
  | saved {k : ℕ} {item : Item} (hk : s.r.connection = some k)
      (hsaved : ∀ j, s'.r.savedOn j = (decide (k = j) || s.r.savedOn j))
      (hcache : ∀ it ∈ s'.w.pool.cache, it = item ∨ it ∈ s.w.pool.cache)
      (hitem : item.connection = some k) (hused : item.used = s.r.used + 1)
      (hconn : s'.r.connection = none) : Uses s s'

namespace St

/-- Other events do not count. -/
lemma savedOn_append {r r' : Req} (es : List ReqEvent) (h : r'.hist = es ++ r.hist)
    (hes : ∀ e ∈ es, e.saves k = false) : r'.savedOn k = r.savedOn k := by
  have hnone : es.any (ReqEvent.saves k) = false :=
    List.any_eq_false.mpr fun e he => by simp [hes e he]
  rw [Req.savedOn, h, List.any_append, hnone]
  rfl

/-- It does not matter what else changes in the request. -/
lemma Uses.congr {s₁ : St} (h : Uses s s₁) (hsaved : ∀ k, s'.r.savedOn k = s₁.r.savedOn k)
    (hcache : s'.w.pool.cache = s₁.w.pool.cache) (hconn : s'.r.connection = s₁.r.connection)
    (hused : s'.r.used = s₁.r.used) : Uses s s' := by
  have hsaved' : (∀ k, s₁.r.savedOn k = s.r.savedOn k) → ∀ k, s'.r.savedOn k = s.r.savedOn k :=
    fun h k => (hsaved k).trans (h k)
  cases h with
  | kept h₁ h₂ h₃ h₄ =>
    exact .kept (hsaved' h₁) (hcache ▸ h₂) (hconn ▸ h₃) (by rwa [hused, hconn])
  | hit h₁ h₂ h₃ h₄ h₅ =>
    exact .hit (hsaved' h₁) (hcache ▸ h₂) h₃ (hconn.trans h₄) (hused.trans h₅)
  | fresh h₁ h₂ h₃ h₄ => exact .fresh (hsaved' h₁) (hcache ▸ h₂) (hconn.trans h₃) (hused.trans h₄)
  | saved h₁ h₂ h₃ h₄ h₅ h₆ =>
    exact .saved h₁ (fun j => (hsaved j).trans (h₂ j)) (hcache ▸ h₃) h₄ h₅ (hconn.trans h₆)

lemma Uses.of_finalize {rc : Rc} (h : Uses (s.log (.finalize rc)) s') : Uses s s' := by
  have hlog : ∀ k, (s.log (.finalize rc)).r.savedOn k = s.r.savedOn k := fun k =>
    savedOn_append [.finalize rc] rfl (by simp [ReqEvent.saves])
  cases h with
  | kept h₁ h₂ h₃ h₄ => exact .kept (fun k => (h₁ k).trans (hlog k)) h₂ h₃ h₄
  | hit h₁ h₂ h₃ h₄ h₅ => exact .hit (fun k => (h₁ k).trans (hlog k)) h₂ h₃ h₄ h₅
  | fresh h₁ h₂ h₃ h₄ => exact .fresh (fun k => (h₁ k).trans (hlog k)) h₂ h₃ h₄
  | saved h₁ h₂ h₃ h₄ h₅ h₆ =>
    exact .saved h₁ (fun j => (h₂ j).trans (congrArg _ (hlog j))) h₃ h₄ h₅ h₆

lemma GetPeer.uses {rc : Rc} (h : GetPeer s rc s')
    (hused : s.r.used = 0) : Uses s s' := by
  obtain ⟨es, hes, hpick⟩ := h.hist
  have hsaved : ∀ k, s'.r.savedOn k = s.r.savedOn k := fun k => savedOn_append es hes fun e he => by
    rcases hpick e he with rfl | ⟨i, rfl⟩ <;> rfl
  have hcache := h.cache
  cases h with
  | @single item cache hmax hsingle hc =>
    have hmem : item ∈ s.w.pool.cache := by simp [hc]
    exact .hit hsaved hcache hmem rfl rfl
  | busy hleft => exact .kept hsaved hcache (fun _ hk => hk) (.inl rfl)
  | @multi item l₁ l₂ hmax hmulti hc haddr =>
    have hmem : item ∈ s.w.pool.cache := by simp [hc]
    exact .hit hsaved hcache hmem rfl rfl
  | overflow getConn hfull =>
    cases getConn with
    | true => exact .fresh hsaved hcache rfl hused
    | false => exact .kept hsaved hcache nofun (.inl rfl)
  | create hroom h =>
    cases h with
    | noMemory => exact .kept hsaved hcache (fun _ hk => hk) (.inl rfl)
    | refused => exact .kept hsaved hcache nofun (.inl rfl)
    | fresh => exact .fresh hsaved hcache rfl hused

lemma FreePeer.uses {failed : Bool} (h : FreePeer failed s s') : Uses s s' := by
  cases h with
  | idle b hc => exact .kept (fun _ => rfl) (fun _ hmem => hmem) (fun _ hk => hk) (.inl rfl)
  | @saved k item evicted w hc hmax hfailed hr ht =>
    have hcache :=
      fun it (hmem : it ∈ (({ s with w := w } : St).saveIn k item evicted).w.pool.cache) =>
        (List.mem_cons.mp hmem).imp_right (ht.cache it)
    exact .saved hc (fun _ => rfl) hcache rfl rfl rfl
  | closed b hc hr =>
    refine .kept (fun k => savedOn_append [.closed _] rfl (by simp [ReqEvent.saves]))
      (fun it hmem => ?_) nofun (.inl rfl)
    simpa [dropConnection] using hmem

/-- A step of a request keeps count of the uses of its connection. -/
theorem exec_uses (env : Env) (hc : Custody p s) (hused : p = .dbdConnect → s.r.used = 0) :
    Uses s (s.exec env p).2 := by
  cases hp : p.stays with
  | true =>
    have h := stays_exec env hc hp
    obtain ⟨es, hes, hinner, _⟩ := h.hist
    refine .kept (fun k => savedOn_append es hes fun e he => ?_) (fun it hmem => ?_)
      (fun k hk => h.connection.symm.trans hk) (.inl (congrArg Req.used h.req :))
    · have hinner := hinner e he
      cases e with
      | saved => cases hinner
      | _ => rfl
    · rwa [h.pool] at hmem
  | false =>
    cases p with
    | handlerTail =>
      rw [exec]
      rcases handlerTail_cases s with ⟨heq, _⟩ | ⟨k, _, _, heq⟩
      · rw [heq]
        exact .kept (fun _ => rfl) (fun _ hmem => hmem) (fun _ hk => hk) (.inl rfl)
      · rw [heq]
        exact .kept (fun _ => rfl) (fun _ hmem => hmem)
          (fun j hk => absurd hk.symm (Option.some_ne_none j)) (.inl rfl)
    | dbdConnect =>
      have hnone := hc.ok.2.1.connection
      simp only [exec, dbdConnect]
      split
      · exact .kept (fun _ => rfl) (fun _ hmem => hmem) (fun _ hk => hk) (.inl rfl)
      · refine ((getPeer_cases env.peer hnone).uses (hused rfl)).congr (fun k => ?_) rfl rfl rfl
        exact savedOn_append [.getPeer _ _] rfl (by simp [ReqEvent.saves])
    | next ft =>
      obtain ⟨s₁, hs₁, hnext⟩ := next_cases (s := s) ft hc.queues
      have hs : Uses s s₁ := by
        split at hs₁
        · exact hs₁ ▸ .kept (fun _ => rfl) (fun _ hmem => hmem) (fun _ hk => hk) (.inl rfl)
        · exact hs₁.uses
      rw [exec]
      generalize s.next ft = ps at hnext ⊢
      obtain ⟨p', s'⟩ := ps
      cases hnext with
      | stop => exact hs
      | retry _ _ hft =>
        -- the count of the next attempt starts again, without a connection
        rw [if_neg hft] at hs₁
        have hnone := hs₁.connection
        cases hs with
        | kept h₁ h₂ h₃ h₄ => exact .kept h₁ h₂ h₃ (.inr hnone)
        | hit h₁ h₂ =>
          exact .kept h₁ h₂ (fun _ hk => absurd (hnone.symm.trans hk) (by simp)) (.inr hnone)
        | fresh h₁ h₂ h₃ h₄ => cases hnone.symm.trans h₃
        | saved h₁ h₂ h₃ h₄ h₅ h₆ => exact .saved h₁ h₂ h₃ h₄ h₅ hnone
    | finalize rc =>
      have hrc : rc ≠ .declined := by
        rintro rfl
        exact hc.ok
      obtain ⟨_, hfin⟩ := finalizeRequest_cases env hrc hc.queues
      rw [exec]
      generalize (s.finalizeRequest env rc).2 = s' at hfin ⊢
      cases hfin with
      | completed hfree =>
        exact hfree.uses.of_finalize.congr (fun k => savedOn_append [.finalized _, .sendSpecial] rfl
          (by simp [ReqEvent.saves]))
          rfl rfl rfl
      | failed hfree =>
        exact hfree.uses.of_finalize.congr (fun k => savedOn_append [.finalized _] rfl
          (by simp [ReqEvent.saves]))
          rfl rfl rfl
    | _ => cases hp

end St

namespace Sys

variable {s : Sys} {i j : ℕ} {r q : Req}

/-- The numbers of uses that are noted are right. -/
structure Counts (s : Sys) : Prop where
  items : ∀ item ∈ s.w.pool.cache, ∀ k, item.connection = some k → item.used = s.saves k
  reqs : ∀ (i : ℕ) (r : Req), s.reqs[i]? = some r → ∀ k, r.connection = some k → r.used = s.saves k
  fresh : ∀ k, s.w.nconns ≤ k → s.saves k = 0

/-- A connection that a request holds is not in the cache. -/
lemma Owned.not_cached (h : s.Owned) (hi : s.reqs[i]? = some r) (hk : r.connection = some k)
    {item : Item} (hmem : item ∈ s.w.pool.cache) : item.connection ≠ some k := by
  intro hitem
  have hle := h.holders_le k
  have hreq := Lib.countP_pos_of_getElem? (t := fun r => r.connection = some k) hi
    (decide_eq_true hk)
  have hpool : 0 < s.w.pool.cache.countP fun item => item.connection = some k :=
    List.countP_pos_iff.mpr ⟨item, hmem, decide_eq_true hitem⟩
  rw [holders] at hle
  omega

/-- No two requests hold the same connection. -/
lemma Owned.not_shared (h : s.Owned) (hij : i ≠ j) (hi : s.reqs[i]? = some r)
    (hj : s.reqs[j]? = some q) (hk : r.connection = some k) : q.connection ≠ some k := by
  intro hq
  have hle := h.holders_le k
  have htwo := Lib.two_le_countP (t := fun r => r.connection = some k) hij hi hj
    (decide_eq_true hk) (decide_eq_true hq)
  rw [holders] at hle
  omega

lemma saves_put (hi : s.reqs[i]? = some r) (ps : Pos × St) :
    (s.put i ps).saves k + (if r.savedOn k then 1 else 0) =
      s.saves k + (if ps.2.r.savedOn k then 1 else 0) :=
  Lib.countP_set_add hi

/-- A step that saves no connection. -/
lemma Counts.of_same (h : s.Counts) (hi : s.reqs[i]? = some r) (ps : Pos × St)
    (hn : s.w.nconns ≤ ps.2.w.nconns) (hsaved : ∀ k, ps.2.r.savedOn k = r.savedOn k)
    (hcache : ∀ item ∈ ps.2.w.pool.cache, item ∈ s.w.pool.cache)
    (hown : ∀ k, ps.2.r.connection = some k → ps.2.r.used = s.saves k) : (s.put i ps).Counts := by
  have hsame : ∀ k, (s.put i ps).saves k = s.saves k := by
    intro k
    have := saves_put (k := k) hi ps
    rw [hsaved] at this
    omega
  refine ⟨fun item hmem k hk => ?_, ?_, fun k hk => ?_⟩
  · exact (h.items item (hcache item hmem) k hk).trans (hsame k).symm
  · refine Lib.forall_set (P := fun _ q => ∀ k, q.connection = some k → q.used = s.saves k)
      h.reqs (fun k hk => (hown k hk).trans (hsame k).symm) fun _ q _ _ hq k hk => ?_
    exact (hq k hk).trans (hsame k).symm
  · exact (hsame k).trans (h.fresh k (Nat.le_trans hn hk))

/-- A step of one request keeps the numbers right, if it keeps its own count. -/
lemma Counts.put (h : s.Counts) (ho : s.Owned) (hi : s.reqs[i]? = some r) {ps : Pos × St}
    (hn : s.w.nconns ≤ ps.2.w.nconns) (hu : St.Uses (s.view r) ps.2)
    (hfirst : ∀ k, r.connection = some k → r.savedOn k = false) : (s.put i ps).Counts := by
  cases hu with
  | kept hsaved hcache hconn hused =>
    refine h.of_same hi _ hn hsaved hcache fun k hk => ?_
    rcases hused with heq | hnone
    · exact heq.trans (h.reqs i r hi k (hconn k hk))
    · cases hnone.symm.trans hk
  | hit hsaved hcache hmem hconn hused =>
    exact h.of_same hi _ hn hsaved hcache fun k hk =>
      hused.trans (h.items _ hmem k (hconn.symm.trans hk))
  | fresh hsaved hcache hconn hused =>
    refine h.of_same hi _ hn hsaved hcache fun k hk => ?_
    obtain rfl := Option.some.inj (hconn.symm.trans hk)
    exact hused.trans (h.fresh _ (Nat.le_refl _)).symm
  | @saved k item hk hsaved hcache hitem hused hconn =>
    have hput := fun j => saves_put (k := j) hi ps
    have hself : (s.put i ps).saves k = s.saves k + 1 := by
      have := hput k
      rw [hsaved, hfirst k hk] at this
      simpa [view, hfirst k hk] using this
    have hother : ∀ j, j ≠ k → (s.put i ps).saves j = s.saves j := by
      intro j hne
      have := hput j
      rw [hsaved, decide_eq_false hne.symm, Bool.false_or] at this
      exact Nat.add_right_cancel this
    refine ⟨fun it hmem j hj => ?_, ?_, fun j hj => ?_⟩
    · rcases hcache it hmem with rfl | hold
      · obtain rfl := Option.some.inj (hitem.symm.trans hj)
        rw [hself, hused]
        exact congrArg (· + 1) (h.reqs i r hi k hk)
      · have hne : j ≠ k := by
          rintro rfl
          exact ho.not_cached hi hk hold hj
        exact (h.items it hold j hj).trans (hother j hne).symm
    · refine Lib.forall_set (P := fun _ q => ∀ k, q.connection = some k → q.used = s.saves k)
        h.reqs (fun j hj => absurd (hconn.symm.trans hj) (by simp)) fun n q hni hn hq j hj => ?_
      have hne : j ≠ k := by
        rintro rfl
        exact ho.not_shared hni.symm hi hn hk hj
      exact (hq j hj).trans (hother j hne).symm
    · have hne : j ≠ k := by
        rintro rfl
        have := (ho.ok i r hi).lt hk
        exact absurd this (Nat.not_lt.mpr (Nat.le_trans hn hj))
      exact (hother j hne).trans (h.fresh j (Nat.le_trans hn hj))

lemma Counts.step (h : s.Counts) (ho : s.Owned) (hset : Local.settled.Holds s)
    (hent : Local.entries.Holds s) (l : Label) : (s.step l).Counts := by
  -- a request that has a connection has not saved one
  have hfirst : ∀ {i : ℕ} {r : Req}, s.reqs[i]? = some r → ∀ k, r.connection = some k →
      r.savedOn k = false := by
    intro i r hi k hk
    refine Bool.eq_false_iff.mpr fun hsaved => ?_
    obtain ⟨e, he, hek⟩ := List.any_eq_true.mp hsaved
    cases e with
    | saved j ev => cases ((hset.req i r hi).2 j ev he).1.symm.trans ((ho.ok i r hi).live hk)
    | _ => cases hek
  have hstep := step_cases s l
  generalize s.step l = s' at hstep ⊢
  cases hstep with
  | skip => exact h
  | arrive a hidle =>
    have hsame : ∀ k, (s.reqs ++ [Req.init s.w s.reqs.length a]).countP (Req.savedOn k) =
        s.saves k := by
      intro k
      rw [List.countP_append]
      rfl
    refine ⟨fun item hmem k hk => (h.items item hmem k hk).trans (hsame k).symm, ?_,
      fun k hk => (hsame k).trans (h.fresh k hk)⟩
    refine Lib.forall_concat (P := fun _ q => ∀ k, q.connection = some k → q.used = s.saves k)
      h.reqs nofun fun _ q _ hq k hk => (hq k hk).trans (hsame k).symm
  | @event i e r hidle hi he =>
    have hstays := stays_fire e (s.view r)
    obtain ⟨⟨cw, hr⟩, _⟩ := St.fire_cases e (s.view r)
    refine h.of_same hi _ (Nat.le_of_eq hstays.nconns.symm) (fun k => ?_) (fun item hmem => ?_)
      fun k hk => ?_
    · rw [hr]
      rfl
    · rwa [hstays.pool] at hmem
    · rw [hr] at hk ⊢
      exact h.reqs i r hi k hk
  | @client i r cc hi =>
    have h' := h.of_same hi (.loop, s.view (r.onClient cc)) (Nat.le_refl _)
      (fun _ => rfl) (fun _ hmem => hmem) fun k hk => h.reqs i r hi k hk
    exact ⟨h'.items, h'.reqs, h'.fresh⟩
  | idle slot stale hidle =>
    have hn : (s.w.closeHandler slot stale).nconns = s.w.nconns := by
      rcases closeHandler_cases s.w slot stale with heq | ⟨_, _, _, _, heq⟩ <;> simp [heq]
    exact ⟨fun item hmem => h.items item (Local.closeHandler_cache item hmem), h.reqs,
      fun k hk => h.fresh k (hn ▸ hk)⟩
  | tick now hidle => exact ⟨h.items, h.reqs, h.fresh⟩
  | @run env i p r hact hi =>
    have hc := ho.custody hi
    have hr := hent.req i r hi
    rw [pos_of_active hact] at hc hr
    exact h.put ho hi (St.exec_advances env hc).moves.nconns
      (St.exec_uses env hc fun hp => (hr.1 hp).2) (hfirst hi)

lemma counts_run (conf : Conf) (ls : List Label) : (run conf ls).Counts :=
  Lib.run_invariant_of (I := fun s => s.Owned ∧ Local.settled.Holds s ∧ Local.entries.Holds s)
    (fun _ l hl h => ⟨h.1.step l, Local.settled_kept.step h.2.1 h.1 hl,
      Local.entries_kept.step h.2.2 h.1 hl⟩)
    (fun _ l _ h hc => hc.step h.1 h.2.1 h.2.2 l)
    ⟨owned_init conf, Local.holds_init _ conf, Local.holds_init _ conf⟩
    ⟨nofun, fun i r hi => by simp [init] at hi, fun _ _ => rfl⟩ (known_meets conf ls)

/-- What an item of the cache says about its connection is true: it is a connection to a server
with this address and this name, on which the `set names` query has been sent or not, and which
that many requests have used. -/
structure Describes (s : Sys) (item : Item) (k : ℕ) : Prop where
  connection : item.connection = some k
  drizzleCon : item.drizzleCon = some k
  drizzle : (s.w.conns k).drizzle
  knows : item.Knows s.w.conf (s.w.conns k)
  used : item.used = s.saves k

/-- In all states of all runs, what the cache says about its connections is true. -/
theorem entries_run (conf : Conf) (ls : List Label) :
    ∀ item ∈ (run conf ls).w.pool.cache, ∃ k, (run conf ls).Describes item k := by
  intro item hmem
  obtain ⟨k, hk⟩ := (owned_run conf ls).items item hmem
  have hent := Local.entries_kept.run conf (known_meets conf ls)
  exact ⟨k, hk.connection, hk.drizzleCon, hk.drizzle, hent.items item hmem k hk.connection,
    (counts_run conf ls).items item hmem k hk.connection⟩

end Sys

end DrizzleNginx
