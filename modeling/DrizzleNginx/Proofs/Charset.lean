/-
# The query that sets the charset

A `set names` query is to be that of the peer to which the connection was established.  The
request copies the charset of a peer when round robin selects it, and whether the query has
been sent comes with a connection from the pool.  The two fit together, except that in single
mode a connection is taken from the pool before a peer is selected: what an earlier attempt of
the request has left behind then stands beside a connection to another peer.
-/
import DrizzleNginx.Proofs.Attempts
import DrizzleNginx.Proofs.Reuse

namespace DrizzleNginx

/-! ## The charset of a connection -/

/-- The query that sets the charset of connections to a peer; it is empty for a peer without a
charset. -/
def Conf.setNamesQuery (conf : Conf) (i : ℕ) : Bytes := (conf.peer i).setNamesQuery

/-- Servers with the same address have the same charset. -/
def Conf.CharsetByAddress (conf : Conf) : Prop :=
  ∀ i j, (conf.peer i).sockaddr = (conf.peer j).sockaddr →
    conf.setNamesQuery i = conf.setNamesQuery j

/-- The `set names` queries on a connection are those of a peer with a charset. -/
def NamesOf (q : Bytes) (hist : List LibCall) : Prop :=
  ∀ i sql ret, .query i true sql ret ∈ hist → q ≠ [] ∧ sql = q

/-- A request and its connection agree about the charset. -/
structure Named (conf : Conf) (r : Req) (c : Conn) : Prop where
  sockaddr : r.sockaddr = (conf.peer c.peer).sockaddr
  sends : r.sendsSetNames → conf.setNamesQuery c.peer ≠ [] ∧
    r.setNamesQuery = some (conf.setNamesQuery c.peer)
  /-- As long as the charset has not been set, nothing else has been sent. -/
  todo : conf.setNamesQuery c.peer ≠ [] → r.hasSetNames = false →
    r.enableCharset ∧ c.hist = r.calls ∧ (r.calls = [] ∨
      (∃ sql, Talk.after r.calls = some (.sent true sql)) ∨
        Talk.after r.calls = some .broken)
  hist : NamesOf (conf.setNamesQuery c.peer) c.hist

/-- An item of the cache and its connection agree about the charset. -/
structure Item.Named (conf : Conf) (item : Item) (c : Conn) : Prop where
  sockaddr : item.sockaddr = (conf.peer c.peer).sockaddr
  done : conf.setNamesQuery c.peer ≠ [] → item.hasSetNames
  hist : NamesOf (conf.setNamesQuery c.peer) c.hist

/-- In single mode, a request takes a connection from the cache only if the charset of an
earlier attempt does not make it send a `set names` query. -/
def St.HitFits (s : St) : Prop :=
  s.w.conf.maxCached ≠ 0 → s.w.conf.single → ∀ item, s.w.pool.cache.head? = some item →
    s.r.enableCharset → item.hasSetNames

instance (s : St) : Decidable s.HitFits :=
  inferInstanceAs (Decidable (s.w.conf.maxCached ≠ 0 → s.w.conf.single →
    ∀ item ∈ s.w.pool.cache.head?, s.r.enableCharset → item.hasSetNames))

/-- The fields of a request describe a peer whose charset is set by a query, or that has none. -/
structure Req.Describes (r : Req) (q : Bytes) : Prop where
  enable : r.enableCharset = decide (q ≠ [])
  query : q ≠ [] → r.setNamesQuery = some q

instance (r : Req) (q : Bytes) : Decidable (r.Describes q) :=
  decidable_of_iff (r.enableCharset = decide (q ≠ []) ∧ (q ≠ [] → r.setNamesQuery = some q))
    ⟨fun h => ⟨h.1, h.2⟩, fun h => ⟨h.enable, h.query⟩⟩

/-- In single mode, a request takes a connection from the cache only if what it has noted about
the charset describes the peer of that connection. -/
def St.HitDescribed (s : St) : Prop :=
  s.w.conf.maxCached ≠ 0 → s.w.conf.single → ∀ item k, s.w.pool.cache.head? = some item →
    item.connection = some k → s.r.Describes (s.w.conf.setNamesQuery (s.w.conns k).peer)

instance (s : St) : Decidable s.HitDescribed :=
  decidable_of_iff (s.w.conf.maxCached ≠ 0 → s.w.conf.single →
    ∀ item ∈ s.w.pool.cache.head?, ∀ k ∈ item.connection,
      s.r.Describes (s.w.conf.setNamesQuery (s.w.conns k).peer))
    ⟨fun h hmax hsingle item k hitem hk => h hmax hsingle item hitem k hk,
      fun h hmax hsingle item hitem k hk => h hmax hsingle item k hitem hk⟩

variable {s s' : St} {p : Pos} {k : ℕ} {t t' : Talk} {calls cs : List LibCall} {q : Bytes}

lemma NamesOf.append_of_not_query (h : NamesOf q calls)
    (hcs : ∀ call ∈ cs, call.isQuery = false) : NamesOf q (cs ++ calls) := by
  intro i sql ret hmem
  rcases List.mem_append.mp hmem with hnew | hold
  · cases hcs _ hnew
  · exact h i sql ret hold

/-- Nothing is read while the charset is being set. -/
lemma Talk.eq_nil_of_not_query (h : Talk.after (cs ++ calls) = some t)
    (hcs : ∀ call ∈ cs, call.isQuery = false) (h₀ : Talk.after calls = some t')
    (ht : t' = .idle ∨ (∃ b sql, t' = .sent b sql) ∨ t' = .broken) : cs = [] := by
  -- the first of the calls is not allowed
  rcases List.eq_nil_or_concat cs with rfl | ⟨cs, call, rfl⟩
  · rfl
  · exfalso
    have hnone : Talk.after (call :: calls) = none := by
      have hquery := hcs call (by simp)
      rw [Talk.after_cons, h₀, Option.bind_some]
      cases call with
      | query => cases hquery
      | _ => rcases ht with rfl | ⟨b, sql, rfl⟩ | rfl <;> rfl
    have hall : ∀ cs : List LibCall, Talk.after (cs ++ call :: calls) = none := by
      intro cs
      induction cs with
      | nil => exact hnone
      | cons c cs ih => rw [List.cons_append, Talk.after_cons, ih, Option.bind_none]
    rw [List.concat_append, hall] at h
    cases h

/-! ## One step -/

namespace St

/-- A request that stays with its connection keeps its charset. -/
lemma Stays.charset (h : Stays s s') : s'.r.enableCharset = s.r.enableCharset ∧
    s'.r.setNamesQuery = s.r.setNamesQuery ∧ s'.r.sockaddr = s.r.sockaddr :=
  ⟨(congrArg Req.enableCharset h.req :), (congrArg Req.setNamesQuery h.req :),
    (congrArg Req.sockaddr h.req :)⟩

/-- The calls enter the history of the connection. -/
lemma Stays.hist_append (h : Stays s s') (hk : s.r.connection = some k)
    (hcalls : s'.r.calls = cs ++ s.r.calls) :
    (s'.w.conns k).hist = cs ++ (s.w.conns k).hist := by
  obtain ⟨es, hes, _, _, hhist⟩ := h.hist
  have hcs : s'.r.calls = es.filterMap ReqEvent.call ++ s.r.calls := by
    rw [Req.calls, hes, List.filterMap_append]
    rfl
  rw [hhist k hk, List.append_cancel_right (hcs.symm.trans hcalls)]

/-- A step that does not call `drizzle_query`. -/
lemma named_of_stays {p' : Pos} (h : Stays s s') (hf : Flags p s s') (hp : p.stays)
    (hq : p ≠ .sendQuery)
    (hk : s.r.connection = some k) (hs : Session p s.r t) (hs' : Session p' s'.r t')
    (hrows : p = .recvRows → s.r.sendsSetNames = false)
    (hn : Named s.w.conf s.r (s.w.conns k)) : Named s.w.conf s'.r (s'.w.conns k) := by
  obtain ⟨henable, hquery, haddr⟩ := Stays.charset h
  have hset : s'.r.hasSetNames = s.r.hasSetNames := by
    refine (hf.hasSetNames hp hq).resolve_right ?_
    rintro ⟨hp', hsends⟩
    cases (hrows hp').symm.trans hsends
  obtain ⟨cs, hcs, hnot⟩ := hf.queries hp hq
  have hpeer : (s'.w.conns k).peer = (s.w.conns k).peer := h.peer k
  have hhist := Stays.hist_append h hk hcs
  constructor
  case sockaddr =>
    rw [haddr, hpeer]
    exact hn.sockaddr
  case sends =>
    rw [Req.sendsSetNames, henable, hset, hquery, hpeer]
    exact hn.sends
  case todo =>
    rw [hpeer, hset, henable]
    intro hne hset
    obtain ⟨henable, heq, htalk⟩ := hn.todo hne hset
    have hnil : cs = [] := by
      have hafter := hs'.talk
      rw [hcs] at hafter
      refine Talk.eq_nil_of_not_query hafter hnot hs.talk ?_
      rcases htalk with hnil | ⟨sql, ht⟩ | ht
      · left
        have := hs.talk
        rw [hnil] at this
        exact (Option.some.inj this).symm
      · exact .inr (.inl ⟨_, _, Option.some.inj (hs.talk.symm.trans ht)⟩)
      · exact .inr (.inr (Option.some.inj (hs.talk.symm.trans ht)))
    subst hnil
    rw [hhist, hcs]
    exact ⟨henable, heq, htalk⟩
  case hist =>
    rw [hpeer, hhist]
    exact hn.hist.append_of_not_query hnot

/-- A query is sent, or continued. -/
lemma named_sendQuery (env : Env) (hs : Session .sendQuery s.r t) (hlive : s.r.live)
    (hk : s.r.connection = some k) (hn : Named s.w.conf s.r (s.w.conns k)) :
    Named s.w.conf (s.sendQuery env k k).2.r ((s.sendQuery env k k).2.w.conns k) := by
  have hstays := stays_sendQuery (s := s) (k := k) env hk
  obtain ⟨henable, hquery, haddr⟩ := Stays.charset hstays
  obtain ⟨hcalls, hflag⟩ := sendQuery_flags (s := s) (k := k) env
  have hpeer := hstays.peer k
  have hhist := Stays.hist_append hstays hk (show _ = [_] ++ s.r.calls from hcalls)
  have hsame : (s.sendQuery env k k).2.r.hasSetNames = false →
      (s.sendQuery env k k).2.r.hasSetNames = s.r.hasSetNames ∧
        Talk.queried s.r.sendsSetNames s.r.queryToSend env.query ≠ .idle := by
    intro hset
    refine hflag.resolve_right ?_
    rintro ⟨hset', _⟩
    cases hset.symm.trans hset'
  constructor
  case sockaddr =>
    rw [haddr, hpeer]
    exact hn.sockaddr
  case sends =>
    intro hsends
    rw [Req.sendsSetNames, henable, Bool.and_eq_true, Bool.not_eq_true'] at hsends
    rw [hpeer, hquery]
    refine hn.sends ?_
    rw [Req.sendsSetNames, ← (hsame hsends.2).1, hsends.1, hsends.2]
    rfl
  case todo =>
    rw [hpeer, henable]
    intro hne hset
    obtain ⟨heq, hidle⟩ := hsame hset
    obtain ⟨hen, heq', _⟩ := hn.todo hne (heq.symm.trans hset)
    have hsends : s.r.sendsSetNames = true := by
      rw [Req.sendsSetNames, hen, ← heq, hset]
      rfl
    refine ⟨hen, by rw [hhist, hcalls, heq']; rfl, .inr ?_⟩
    rw [hcalls, Talk.after_cons, hs.talk, Option.bind_some, Talk.next_query (hs.fits hlive)]
    rw [hsends] at hidle ⊢
    cases hret : env.query with
    | ioWait => exact .inl ⟨_, rfl⟩
    | ok h =>
      rw [hret] at hidle
      simp only [Talk.queried, if_true] at hidle ⊢
      split
      · exact .inr rfl
      · next hcode => exact absurd (if_neg hcode) hidle
    | fail err =>
      rw [hret] at hidle
      simp only [Talk.queried, if_true] at hidle ⊢
      split
      · next herr => exact absurd (if_pos herr) hidle
      · exact .inr rfl
  case hist =>
    rw [hpeer, hhist]
    intro i sql ret hmem
    rcases List.mem_cons.mp hmem with heq | hold
    · obtain ⟨_, hsends, rfl, _⟩ := LibCall.query.inj heq
      obtain ⟨hne, hsql⟩ := hn.sends hsends.symm
      refine ⟨hne, ?_⟩
      rw [Req.queryToSend, ← hsends, if_pos rfl, hsql]
      rfl
    · exact hn.hist i sql ret hold

/-- A request gets a connection. -/
lemma named_getPeer {rc : Rc} (hget : GetPeer s rc s') (hconf : s.w.conf.CharsetByAddress)
    (hnone : s.r.connection = none) (hcalls : s.r.calls = [])
    (hfits : s.HitFits)
    (hitems : ∀ item ∈ s.w.pool.cache, ∀ k, item.connection = some k →
      item.Named s.w.conf (s.w.conns k))
    (hk : s'.r.connection = some k) (hd : (s'.w.conns k).drizzle) :
    Named s.w.conf s'.r (s'.w.conns k) := by
  have hcached : ∀ {item : Item} {r : Req} {c : Conn}, item.Named s.w.conf c → r.calls = [] →
      r.sockaddr = item.sockaddr → r.hasSetNames = item.hasSetNames →
      (r.enableCharset → item.hasSetNames) → Named s.w.conf r c := by
    intro item r c hi hr haddr hset hfits
    refine ⟨haddr.trans hi.sockaddr, fun hsends => ?_, fun hne hset' => ?_, hi.hist⟩
    · simp only [Req.sendsSetNames, Bool.and_eq_true, Bool.not_eq_true'] at hsends
      cases (hset.trans (hfits hsends.1)).symm.trans hsends.2
    · cases hset'.symm.trans (hset.trans (hi.done hne))
  cases hget with
  | @single item cache hmax hsingle hcache =>
    refine hcached (hitems item (by simp [hcache]) k hk) hcalls rfl rfl fun henable => ?_
    exact hfits hmax hsingle item (by simp [hcache]) henable
  | busy hleft => cases hnone.symm.trans hk
  | @multi item l₁ l₂ hmax hmulti hcache haddr =>
    have hi := hitems item (by simp [hcache]) k hk
    refine hcached hi hcalls haddr.symm rfl fun henable => ?_
    -- the peer that was selected has the charset of the peer of the connection
    have hsame := hconf _ _ (haddr.symm.trans hi.sockaddr)
    refine hi.done fun hnil => ?_
    rw [← hsame] at hnil
    have henable : 0 < (s.w.conf.setNamesQuery s.r.nextPeer).length := of_decide_eq_true henable
    simp [hnil] at henable
  | overflow getConn hfull =>
    cases getConn with
    | true =>
      obtain rfl := Option.some.inj hk
      simp [rejectOverflow, St.log, picked, selectPeer] at hd
    | false => cases hk
  | create hroom h =>
    cases h with
    | noMemory => cases hnone.symm.trans hk
    | refused hrc hcon hstate => cases hk
    | @fresh rc con state hrc hcon =>
      obtain rfl := Option.some.inj hk
      have hconn : ((s.picked.addCon con 1 (some s.picked.w.nconns) (some s.picked.w.nconns)
          state).w.conns s.picked.w.nconns) = con := Function.update_self ..
      rw [hconn]
      obtain ⟨hdrizzle, hpeer, _, hhist, _⟩ := hcon
      refine ⟨by rw [hpeer]; rfl, fun hsends => ?_, fun hne _ => ?_, by simp [NamesOf, hhist]⟩
      · rw [hpeer]
        refine ⟨fun hnil => ?_, rfl⟩
        have henable : 0 < (s.w.conf.setNamesQuery s.r.nextPeer).length :=
          of_decide_eq_true ((Bool.and_eq_true _ _).mp hsends).1
        simp [hnil] at henable
      · rw [hpeer] at hne
        exact ⟨decide_eq_true (List.length_pos_iff.mpr hne), hhist.trans hcalls.symm, .inl hcalls⟩

/-- A step of the request keeps it in agreement with its connection. -/
theorem named_exec (env : Env) (hc : Custody p s) (hs : Session p s.r t)
    (hconf : s.w.conf.CharsetByAddress) (hfits : p = .dbdConnect → s.HitFits)
    (hitems : ∀ item ∈ s.w.pool.cache, ∀ k, item.connection = some k →
      item.Named s.w.conf (s.w.conns k))
    (h : ∀ k, s.r.connection = some k → (s.w.conns k).drizzle →
      Named s.w.conf s.r (s.w.conns k))
    (hk : (s.exec env p).2.r.connection = some k) (hd : ((s.exec env p).2.w.conns k).drizzle) :
    Named s.w.conf (s.exec env p).2.r ((s.exec env p).2.w.conns k) := by
  obtain ⟨t', hs'⟩ := session_exec env hc hs
  cases hp : p.stays with
  | true =>
    have hstays := stays_exec env hc hp
    have hk₀ := hstays.connection.symm.trans hk
    have hn := h k hk₀ ((hstays.drizzle k).symm.trans hd)
    by_cases hq : p = .sendQuery
    · subst hq
      obtain ⟨hlive, j, hj⟩ := hc.ok
      obtain rfl := Option.some.inj (hj.connection.symm.trans hk₀)
      rw [exec, onConn_of hj.connection hj.drizzleCon]
      exact named_sendQuery env hs hlive hk₀ hn
    · refine named_of_stays hstays (exec_flags env hc) hp hq hk₀ hs hs' ?_ hn
      rintro rfl
      exact (hs.fits hc.ok.1).1
  | false =>
    by_cases hq : p = .dbdConnect
    · subst hq
      have hnone := hc.ok.2.1.connection
      have hcalls := hs.calls_nil (hs.fits hc.ok.1).1
      simp only [exec, dbdConnect] at hk hd ⊢
      split at hk
      · cases hnone.symm.trans hk
      · next halloc =>
        rw [if_neg halloc] at hd ⊢
        have hn := named_getPeer (getPeer_cases env.peer hnone) hconf hnone hcalls (hfits rfl)
          hitems hk hd
        exact ⟨hn.sockaddr, hn.sends, hn.todo, hn.hist⟩
    · rw [exec_of_connection env hc hp hq hk] at hd ⊢
      have hn := h k (connection_of_exec env hc hq hk) hd
      exact ⟨hn.sockaddr, hn.sends, hn.todo, hn.hist⟩

/-- No query is sent on the connection by which a request is rejected. -/
lemma hist_of_shadow (env : Env) (hc : Custody p s) {P : ℕ → List LibCall → Prop}
    (hnil : ∀ i, P i []) (happend : ∀ i cs hist, (∀ call ∈ cs, call.isQuery = false) → P i hist →
      P i (cs ++ hist))
    (h : ∀ k, s.r.connection = some k → (s.w.conns k).drizzle = false →
      P (s.w.conns k).peer (s.w.conns k).hist)
    (hk : (s.exec env p).2.r.connection = some k)
    (hd : ((s.exec env p).2.w.conns k).drizzle = false) :
    P ((s.exec env p).2.w.conns k).peer ((s.exec env p).2.w.conns k).hist := by
  cases hp : p.stays with
  | true =>
    have hstays := stays_exec env hc hp
    have hk₀ := hstays.connection.symm.trans hk
    have hd₀ := (hstays.drizzle k).symm.trans hd
    have hq : p ≠ .sendQuery := by
      rintro rfl
      obtain ⟨_, j, hj⟩ := hc.ok
      obtain rfl := Option.some.inj (hj.connection.symm.trans hk₀)
      cases hj.drizzle.symm.trans hd₀
    obtain ⟨cs, hcs, hnot⟩ := (exec_flags env hc).queries hp hq
    rw [Stays.hist_append hstays hk₀ hcs, hstays.peer k]
    exact happend _ _ _ hnot (h k hk₀ hd₀)
  | false =>
    by_cases hq : p = .dbdConnect
    · subst hq
      have hnone := hc.ok.2.1.connection
      simp only [exec, dbdConnect] at hk hd ⊢
      split at hk
      · cases hnone.symm.trans hk
      · next halloc =>
        rw [if_neg halloc] at hd ⊢
        rcases (getPeer_cases env.peer hnone).source hnone
          with hnone' | hhist | ⟨item, hmem, hi, hw⟩
        · cases hnone'.symm.trans hk
        · -- a new connection has no calls
          rw [conn_of (s := (s.getPeer env.peer).2) hk] at hhist
          rw [log_w, hhist]
          exact hnil _
        · -- the pool has connections to databases only
          obtain ⟨j, hj⟩ := hc.items item hmem
          obtain rfl := Option.some.inj (hj.connection.symm.trans (hi.symm.trans hk))
          cases ((congrArg Conn.drizzle (congrFun hw j)).trans hj.drizzle).symm.trans hd
    · rw [exec_of_connection env hc hp hq hk] at hd ⊢
      exact h k (connection_of_exec env hc hq hk) hd

/-- A request that gets a connection has noted the charset of its peer. -/
lemma describes_getPeer {rc : Rc} (hget : GetPeer s rc s') (hconf : s.w.conf.CharsetByAddress)
    (hnone : s.r.connection = none) (hhit : s.HitDescribed)
    (hitems : ∀ item ∈ s.w.pool.cache, ∀ k, item.connection = some k →
      item.Named s.w.conf (s.w.conns k))
    (hk : s'.r.connection = some k) (hd : (s'.w.conns k).drizzle) :
    s'.r.Describes (s.w.conf.setNamesQuery (s'.w.conns k).peer) := by
  have hpicked : s.picked.r.Describes (s.w.conf.setNamesQuery s.r.nextPeer) :=
    ⟨decide_eq_decide.mpr List.length_pos_iff, fun _ => rfl⟩
  cases hget with
  | @single item cache hmax hsingle hcache =>
    obtain ⟨henable, hquery⟩ := hhit hmax hsingle item k (by simp [hcache]) hk
    exact ⟨henable, hquery⟩
  | busy hleft => cases hnone.symm.trans hk
  | @multi item l₁ l₂ hmax hmulti hcache haddr =>
    have hi := hitems item (by simp [hcache]) k hk
    have hsame := hconf _ _ (haddr.symm.trans hi.sockaddr)
    rw [hsame] at hpicked
    exact ⟨hpicked.enable, hpicked.query⟩
  | overflow getConn hfull =>
    cases getConn with
    | true =>
      obtain rfl := Option.some.inj hk
      simp [rejectOverflow, St.log, picked, selectPeer] at hd
    | false => cases hk
  | create hroom h =>
    cases h with
    | noMemory => cases hnone.symm.trans hk
    | refused hrc hcon hstate => cases hk
    | @fresh rc con state hrc hcon =>
      obtain rfl := Option.some.inj hk
      have hconn : ((s.picked.addCon con 1 (some s.picked.w.nconns) (some s.picked.w.nconns)
          state).w.conns s.picked.w.nconns) = con := Function.update_self ..
      rw [hconn, hcon.peer]
      exact ⟨hpicked.enable, hpicked.query⟩

/-- A step of the request keeps what it has noted. -/
lemma describes_exec (env : Env) (hc : Custody p s) (hconf : s.w.conf.CharsetByAddress)
    (hhit : p = .dbdConnect → s.HitDescribed)
    (hitems : ∀ item ∈ s.w.pool.cache, ∀ k, item.connection = some k →
      item.Named s.w.conf (s.w.conns k))
    (h : ∀ k, s.r.connection = some k → (s.w.conns k).drizzle →
      s.r.Describes (s.w.conf.setNamesQuery (s.w.conns k).peer))
    (hk : (s.exec env p).2.r.connection = some k) (hd : ((s.exec env p).2.w.conns k).drizzle) :
    (s.exec env p).2.r.Describes
      (s.w.conf.setNamesQuery ((s.exec env p).2.w.conns k).peer) := by
  cases hp : p.stays with
  | true =>
    have hstays := stays_exec env hc hp
    obtain ⟨henable, hquery, _⟩ := Stays.charset hstays
    have hdesc := h k (hstays.connection.symm.trans hk) ((hstays.drizzle k).symm.trans hd)
    rw [hstays.peer k]
    exact ⟨henable.trans hdesc.enable, fun hne => hquery.trans (hdesc.query hne)⟩
  | false =>
    by_cases hq : p = .dbdConnect
    · subst hq
      have hnone := hc.ok.2.1.connection
      simp only [exec, dbdConnect] at hk hd ⊢
      split at hk
      · cases hnone.symm.trans hk
      · next halloc =>
        rw [if_neg halloc] at hd ⊢
        obtain ⟨henable, hquery⟩ := describes_getPeer (getPeer_cases env.peer hnone) hconf hnone
          (hhit rfl) hitems hk hd
        exact ⟨henable, hquery⟩
    · rw [exec_of_connection env hc hp hq hk] at hd ⊢
      obtain ⟨henable, hquery⟩ := h k (connection_of_exec env hc hq hk) hd
      exact ⟨henable, hquery⟩

end St

/-! ## Runs -/

/-- Whether requests, items and their connections agree about the charset, as a claim. -/
def Local.charset : Local where
  req conf _ r c := conf.CharsetByAddress → r.connection ≠ none →
    (c.drizzle → Named conf r c) ∧
      (c.drizzle = false → NamesOf (conf.setNamesQuery c.peer) c.hist)
  item conf item c := conf.CharsetByAddress → item.Named conf c

lemma Local.charset_kept : Local.charset.Kept fun _ p s =>
    Known p s ∧ (p = .dbdConnect → s.HitFits) where
  init _ _ _ _ _ _ h := absurd rfl h
  fire ev s _ _ h hconf hconn := by
    obtain ⟨⟨cw, hr⟩, rt, wt, hcon⟩ := St.fire_cases ev s
    rw [hr] at hconn ⊢
    rw [hcon]
    obtain ⟨hn, hshadow⟩ := h hconf hconn
    exact ⟨fun hd => ⟨(hn hd).sockaddr, (hn hd).sends, (hn hd).todo, (hn hd).hist⟩, hshadow⟩
  client _ _ _ _ _ h hconf hconn := by
    obtain ⟨hn, hshadow⟩ := h hconf hconn
    exact ⟨fun hd => ⟨(hn hd).sockaddr, (hn hd).sends, (hn hd).todo, (hn hd).hist⟩, hshadow⟩
  exec env p s hc hd h hitems hconf hconn := by
    obtain ⟨t, hs⟩ := hd.1.session
    obtain ⟨k, hk⟩ := Option.ne_none_iff_exists'.mp hconn
    have hold : ∀ j, s.r.connection = some j →
        ((s.w.conns j).drizzle → Named s.w.conf s.r (s.w.conns j)) ∧
          ((s.w.conns j).drizzle = false →
            NamesOf (s.w.conf.setNamesQuery (s.w.conns j).peer) (s.w.conns j).hist) := by
      intro j hj
      rw [← St.conn_of hj]
      exact h hconf (by simp [hj])
    rw [St.conn_of hk]
    refine ⟨St.named_exec env hc hs hconf hd.2
      (fun item hmem k hk => hitems item hmem k hk hconf) (fun j hj => (hold j hj).1) hk, ?_⟩
    exact St.hist_of_shadow env hc (P := fun i hist => NamesOf (s.w.conf.setNamesQuery i) hist)
      (fun _ => nofun) (fun _ _ _ hcs h => h.append_of_not_query hcs) (fun j hj => (hold j hj).2) hk
  saved env rc s item k s' hc hd h hsaved hconf := by
    obtain ⟨t, hs⟩ := hd.1.session
    have hk := hsaved.holds.connection
    have hn := h hconf (by simp [hk])
    rw [St.conn_of hk] at hn
    have hn := hn.1 hsaved.holds.drizzle
    refine ⟨hsaved.sockaddr.trans hn.sockaddr, fun hne => ?_, hn.hist⟩
    -- the reply to another query has been read
    rw [hsaved.hasSetNames]
    by_contra hset
    obtain ⟨_, _, htalk⟩ := hn.todo hne (by simpa using hset)
    have hended := hsaved.ended hc hs
    have hafter := hs.talk
    rcases htalk with hnil | ⟨sql, ht⟩ | ht
    · rw [hnil] at hafter
      obtain rfl : Talk.idle = t := Option.some.inj hafter
      cases hended
    · obtain rfl := Option.some.inj (hafter.symm.trans ht)
      cases hended
    · obtain rfl := Option.some.inj (hafter.symm.trans ht)
      cases hended

/-- What requests have noted about the charset of their connections, as a claim. -/
def Local.described : Local where
  req conf p r c := Local.charset.req conf p r c ∧ (conf.CharsetByAddress → r.connection ≠ none →
    c.drizzle → r.Describes (conf.setNamesQuery c.peer))
  item := Local.charset.item

lemma Local.described_kept : Local.described.Kept fun _ p s =>
    Known p s ∧ (p = .dbdConnect → s.HitDescribed) where
  init w id a p hp := ⟨Local.charset_kept.init w id a p hp, fun _ h => absurd rfl h⟩
  fire ev s he hok h := by
    refine ⟨Local.charset_kept.fire ev s he hok h.1, ?_⟩
    obtain ⟨⟨cw, hr⟩, rt, wt, hcon⟩ := St.fire_cases ev s
    rw [hr, hcon]
    intro hconf hconn hd
    exact ⟨(h.2 hconf hconn hd).enable, (h.2 hconf hconn hd).query⟩
  client conf p r c cc h := ⟨Local.charset_kept.client conf p r c cc h.1,
    fun hconf hconn hd => ⟨(h.2 hconf hconn hd).enable, (h.2 hconf hconn hd).query⟩⟩
  exec env p s hc hd h hitems := by
    by_cases hconf : s.w.conf.CharsetByAddress
    · -- what has been noted does not make the request send a query
      have hfits : p = .dbdConnect → s.HitFits := by
        intro hp hmax hsingle item hhead henable
        have hmem : item ∈ s.w.pool.cache := List.mem_of_mem_head? hhead
        obtain ⟨k, hk⟩ := hc.items item hmem
        have hdesc := hd.2 hp hmax hsingle item k hhead hk.connection
        exact (hitems item hmem k hk.connection hconf).done
          (of_decide_eq_true (hdesc.enable.symm.trans henable))
      refine ⟨Local.charset_kept.exec env p s hc ⟨hd.1, hfits⟩ h.1 hitems, fun _ hconn => ?_⟩
      obtain ⟨k, hk⟩ := Option.ne_none_iff_exists'.mp hconn
      rw [St.conn_of hk]
      refine St.describes_exec env hc hconf hd.2 (fun item hmem k hk => hitems item hmem k hk hconf)
        (fun j hj hdj => ?_) hk
      have hdesc := h.2 hconf (by simp [hj])
      rw [St.conn_of hj] at hdesc
      exact hdesc hdj
    · exact ⟨fun hc => absurd hc hconf, fun hc => absurd hc hconf⟩
  saved env rc s item k s' hc hd h := Local.charset_kept.saved env rc s item k s' hc
    ⟨hd.1, nofun⟩ h.1

namespace Conf

/-- Servers with distinct addresses. -/
lemma charsetByAddress_of_nodup {conf : Conf} (h : (conf.peers.map Peer.sockaddr).Nodup) :
    conf.CharsetByAddress := by
  intro i j haddr
  have hpeer : conf.peer i = conf.peer j :=
    List.inj_on_of_nodup_map h (List.get_mem _ _) (List.get_mem _ _) haddr
  rw [setNamesQuery, hpeer, setNamesQuery]

end Conf

namespace Sys

/-- **The charset of a connection.**  Let the servers have distinct addresses.  In every run in
which no connection is taken from the cache in single mode by a request that an earlier attempt
has told to set a charset, unless the charset of the connection has been set: all `set names`
queries on connections are those of the peer to which the connection was established, and it has
a charset.  If moreover what such a request has noted describes the peer of the connection it
takes, then what requests have noted describes the peers of the connections they hold, in all
states. -/
theorem set_names_of_peer (conf : Conf) (hconf : (conf.peers.map Peer.sockaddr).Nodup) :
    (∀ ls, Lib.Meets step (RunsMeet fun _ p s => p = .dbdConnect → s.HitFits) (init conf) ls →
      ∀ k, NamesOf (conf.setNamesQuery ((run conf ls).w.conns k).peer)
        ((run conf ls).w.conns k).hist) ∧
    ∀ ls, Lib.Meets step (RunsMeet fun _ p s => p = .dbdConnect → s.HitDescribed) (init conf) ls →
      (∀ k, NamesOf (conf.setNamesQuery ((run conf ls).w.conns k).peer)
        ((run conf ls).w.conns k).hist) ∧
      ∀ r ∈ (run conf ls).reqs, ∀ k, r.connection = some k → ((run conf ls).w.conns k).drizzle →
        r.Describes (conf.setNamesQuery ((run conf ls).w.conns k).peer) := by
  have hconf := Conf.charsetByAddress_of_nodup hconf
  have hG : ∀ conf' p r c, Local.charset.req conf' p r c → r.connection ≠ none →
      conf'.CharsetByAddress → NamesOf (conf'.setNamesQuery c.peer) c.hist := by
    intro conf' p r c h hconn hconf'
    obtain ⟨hn, hshadow⟩ := h hconf' hconn
    cases hd : c.drizzle with
    | true => exact (hn hd).hist
    | false => exact hshadow hd
  refine ⟨fun ls hls k => ?_, fun ls hls => ?_⟩
  · exact Local.charset_kept.run_record (G := fun conf' i hist => conf'.CharsetByAddress →
      NamesOf (conf'.setNamesQuery i) hist) (fun _ _ _ => nofun) hG conf
        (RunsMeet.and (known_meets conf ls) hls) k hconf
  · have hd := RunsMeet.and (known_meets conf ls) hls
    refine ⟨fun k => ?_, fun r hr k hk hdk => ?_⟩
    · exact Local.described_kept.run_record (G := fun conf' i hist => conf'.CharsetByAddress →
        NamesOf (conf'.setNamesQuery i) hist) (fun _ _ _ => nofun)
        (fun conf' p r c h => hG conf' p r c h.1) conf hd k hconf
    · obtain ⟨i, hi⟩ := List.mem_iff_getElem?.mp hr
      have h := ((Local.described_kept.run conf hd).req i r hi).2
      rw [conf_run, St.conn_of (s := (run conf ls).view r) hk] at h
      exact h hconf (by simp [hk]) hdk

/-- Two servers, the second one with a charset, and a pool that does not tell them apart. -/
def twoServers : Conf := Conf.sample (.sample [1] []) [.sample [2] [9]]

/-- The second request takes the connection to the first server from the pool. -/
theorem set_names_of_peer_twoServers :
    NamesOf [] ((run twoServers twoQueries).w.conns 0).hist ∧
    ∃ r ∈ (run twoServers twoQueries).reqs, .getPeer .done (some 0) ∈ r.hist ∧
      (∀ e ∈ r.hist, e ≠ .pick 0 ∧ e ≠ .pick 1) ∧ r.Describes [] := by
  obtain ⟨hfits, hdescribed⟩ := set_names_of_peer twoServers (by decide)
  obtain ⟨_, hdescribes⟩ := hdescribed twoQueries (by decide)
  have hmem := List.get_mem (run twoServers twoQueries).reqs ⟨1, by decide⟩
  exact ⟨hfits twoQueries (by decide) 0, _, hmem, by decide, by decide,
    hdescribes _ hmem 0 (by decide) (by decide)⟩

/-- Two requests wait for connections to different servers.  The first one saves its connection;
then the connection of the other one cannot be established, and it takes the one in the pool. -/
def crossedServers : List Label := [.arrive (.sample [7]), .run { peer := { con := .ioWait } },
  .run {}, .run {}, .arrive (.sample [8]), .run { peer := { con := .ioWait } }, .run {}, .run {},
  .event 0 (.db true false false), .run {}, .run {}, .run {}, .run { query := .ok (.sample 0) },
  .run {}, .run {}, .event 1 (.db true false false), .run {}, .run {},
  .run { con := .fail (.other 1) }, .run {}, .run {}, .run {}, .run {}, .run {}, .run {}, .run {}]

set_option maxRecDepth 4000 in
/-- The second request sets the charset of its first server on a connection to the other one. -/
theorem set_names_of_other_peer : ¬ ∀ conf : Conf, (conf.peers.map Peer.sockaddr).Nodup → ∀ ls k,
    NamesOf (conf.setNamesQuery ((run conf ls).w.conns k).peer) ((run conf ls).w.conns k).hist := by
  intro h
  have hnames := h (.sample (.sample [1] []) [.sample [2] [9]]) (by decide) crossedServers 0
  have hmem : LibCall.query 1 true [9] .ioWait ∈
      ((run (.sample (.sample [1] []) [.sample [2] [9]]) crossedServers).w.conns 0).hist := by
    decide
  exact (hnames _ _ _ hmem).1 (by decide)

end Sys
end DrizzleNginx
