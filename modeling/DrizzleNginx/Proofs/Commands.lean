/-
# The commands on a connection

When all servers have the same charset, or none has one, the commands that a connection sees in
its whole life, from all requests that use it, are in order: first the query that sets the
charset, if there is one, then the SQL of requests, each at most once.  A command is submitted
only when the one before it is complete, and while it is in flight it is continued with the same
text.
-/
import DrizzleNginx.Proofs.Charset

namespace DrizzleNginx

/-! ## Histories in order -/

/-- With this answer the command in flight is complete: the charset has been set, or the reply
has been read to its end. -/
def LibCall.completes : LibCall → Bool
  | query _ true _ (.ok h) => h.errorCode = 0
  | call => call.endsReply

/-- The charset of the connection has been set. -/
def NamesDone (hist : List LibCall) : Prop :=
  ∃ i sql h, .query i true sql (.ok h) ∈ hist ∧ h.errorCode = 0

/-- Nothing is in flight, and everything that was submitted is complete. -/
def AtRest (hist : List LibCall) : Prop := ∀ call ∈ hist.head?, call.completes

/-- When a query may be sent or continued on a connection to a server with a charset, given its
history. -/
structure MayQuery (q : Bytes) (older : List LibCall) (i : ℕ) (setNames : Bool) (sql : Bytes) :
    Prop where
  continues : inFlight older → ∃ rest, older = .query i setNames sql .ioWait :: rest
  rest : inFlight older = false → AtRest older
  names : inFlight older = false → setNames → commands older = [] ∧ q ≠ [] ∧ sql = q
  main : inFlight older = false → setNames = false → (q ≠ [] → NamesDone older) ∧
    ∀ c ∈ commands older, c.setNames = false → c.req ≠ i

/-- The queries in a history of calls were sent when they might be. -/
def Proper (q : Bytes) : List LibCall → Prop
  | [] => True
  | .query i setNames sql _ :: older => MayQuery q older i setNames sql ∧ Proper q older
  | _ :: older => Proper q older

/-- The commands are the SQL of requests, each at most once. -/
def OnlyMains (cs : List Command) : Prop :=
  (∀ c ∈ cs, c.setNames = false) ∧ (cs.map Command.req).Nodup

/-- The commands, the first one first, are a beginning of: the query that sets the charset, if
there is one, then the SQL of requests, each at most once. -/
def InOrder (q : Bytes) (cs : List Command) : Prop :=
  if q = [] then OnlyMains cs
  else cs = [] ∨ ∃ i mains, cs = ⟨i, true, q⟩ :: mains ∧ OnlyMains mains

variable {q : Bytes} {hist older cs calls : List LibCall} {call : LibCall}

lemma proper_cons_of_not_query (hcall : call.isQuery = false) (h : Proper q hist) :
    Proper q (call :: hist) := by
  cases call with
  | query => cases hcall
  | _ => exact h

lemma proper_append_of_not_query (hcs : ∀ call ∈ cs, call.isQuery = false) (h : Proper q hist) :
    Proper q (cs ++ hist) := by
  induction cs with
  | nil => exact h
  | cons call cs ih =>
    exact proper_cons_of_not_query (hcs call List.mem_cons_self)
      (ih fun c hc => hcs c (List.mem_cons_of_mem _ hc))

lemma Proper.of_append (h : Proper q (cs ++ hist)) : Proper q hist := by
  induction cs with
  | nil => exact h
  | cons call cs ih =>
    cases call with
    | query => exact ih h.2
    | _ => exact ih h

lemma OnlyMains.concat {cs : List Command} {c : Command} (h : OnlyMains cs)
    (hc : c.setNames = false) (hnew : ∀ c' ∈ cs, c'.req ≠ c.req) : OnlyMains (cs ++ [c]) := by
  constructor
  · intro c' hmem
    rcases List.mem_append.mp hmem with hold | hlast
    · exact h.1 c' hold
    · exact List.mem_singleton.mp hlast ▸ hc
  · rw [List.map_append, List.nodup_append]
    refine ⟨h.2, List.nodup_singleton _, ?_⟩
    intro i hi j hj
    obtain ⟨c', hc', rfl⟩ := List.mem_map.mp hi
    obtain ⟨d, hd, rfl⟩ := List.mem_map.mp hj
    exact List.mem_singleton.mp hd ▸ hnew c' hc'

lemma exists_query_of_inFlight (h : inFlight hist) : ∃ call ∈ hist, call.isQuery := by
  unfold inFlight at h
  split at h
  · exact ⟨_, List.mem_cons_self, rfl⟩
  · cases h

/-- There is a command if there is a query. -/
lemma commands_ne_nil (h : ∃ call ∈ hist, call.isQuery) : commands hist ≠ [] := by
  induction hist with
  | nil =>
    obtain ⟨_, hmem, _⟩ := h
    cases hmem
  | cons call hist ih =>
    cases call with
    | query i b sql ret =>
      simp only [commands]
      split
      · next hf => exact ih (exists_query_of_inFlight hf)
      · exact List.cons_ne_nil _ _
    | _ =>
      refine ih ?_
      obtain ⟨call, hmem, hquery⟩ := h
      rcases List.mem_cons.mp hmem with rfl | hold
      · cases hquery
      · exact ⟨call, hold, hquery⟩

lemma NamesDone.exists_query (h : NamesDone hist) : ∃ call ∈ hist, call.isQuery := by
  obtain ⟨i, sql, header, hmem, _⟩ := h
  exact ⟨_, hmem, rfl⟩

lemma NamesDone.append (h : NamesDone hist) : NamesDone (cs ++ hist) := by
  obtain ⟨i, sql, header, hmem, hcode⟩ := h
  exact ⟨i, sql, header, List.mem_append_right _ hmem, hcode⟩

/-- The commands of a proper history are in order. -/
theorem Proper.inOrder (h : Proper q hist) : InOrder q (commands hist).reverse := by
  induction hist with
  | nil =>
    unfold InOrder
    split
    · exact ⟨by simp [commands], List.nodup_nil⟩
    · exact .inl rfl
  | cons call hist ih =>
    cases call with
    | query i setNames sql ret =>
      obtain ⟨hmay, hold⟩ := h
      have ih := ih hold
      cases hf : inFlight hist with
      | true => simpa [commands, hf] using ih
      | false =>
        have hcs : (commands (.query i setNames sql ret :: hist)).reverse =
            (commands hist).reverse ++ [⟨i, setNames, sql⟩] := by simp [commands, hf]
        rw [hcs]
        cases setNames with
        | true =>
          obtain ⟨hnil, hne, rfl⟩ := hmay.names hf rfl
          rw [hnil, InOrder, if_neg hne]
          exact .inr ⟨i, [], rfl, (by simp), List.nodup_nil⟩
        | false =>
          obtain ⟨hdone, hnew⟩ := hmay.main hf rfl
          unfold InOrder at ih ⊢
          split
          · next hq =>
            rw [if_pos hq] at ih
            refine ih.concat rfl fun c hc => hnew c (by simpa using hc) (ih.1 c hc)
          · next hq =>
            rw [if_neg hq] at ih
            rcases ih with hnil | ⟨j, mains, heq, hmains⟩
            · exact absurd (by simpa using hnil) (commands_ne_nil (hdone hq).exists_query)
            · refine .inr ⟨j, mains ++ [⟨i, false, sql⟩], by rw [heq]; rfl, ?_⟩
              refine hmains.concat rfl fun c hc => ?_
              have hmem : c ∈ (commands hist).reverse := heq ▸ List.mem_cons_of_mem _ hc
              exact hnew c (by simpa using hmem) (hmains.1 c hc)
    | _ => exact ih h

lemma exists_query_of_command {c : Command} (h : c ∈ commands hist) :
    ∃ ret, .query c.req c.setNames c.sql ret ∈ hist := by
  induction hist with
  | nil => cases h
  | cons call hist ih =>
    cases call with
    | query i b sql ret =>
      simp only [commands] at h
      split at h
      · exact (ih h).imp fun _ hmem => List.mem_cons_of_mem _ hmem
      · rcases List.mem_cons.mp h with rfl | hold
        · exact ⟨ret, List.mem_cons_self⟩
        · exact (ih hold).imp fun _ hmem => List.mem_cons_of_mem _ hmem
    | _ => exact (ih h).imp fun _ hmem => List.mem_cons_of_mem _ hmem

/-- Before the SQL of the request, only the query that sets the charset is sent. -/
lemma Talk.setNames_of_beforeMain {t : Talk} (h : Talk.after calls = some t) (ht : t.beforeMain)
    {i : ℕ} {b : Bool} {sql : Bytes} {ret : QueryRet} (hmem : .query i b sql ret ∈ calls) : b := by
  induction calls generalizing t with
  | nil => cases hmem
  | cons call rest ih =>
    obtain ⟨t₀, h₀, hnext⟩ : ∃ t₀, after rest = some t₀ ∧ t₀.next call = some t := by
      simpa [Option.bind_eq_some_iff] using h
    have hcall := next_cases hnext
    cases hcall with
    | @query _ b' sql' hfrom j ret' =>
      cases b' with
      | false => cases ht.symm.trans beforeMain_queried
      | true =>
        rcases List.mem_cons.mp hmem with heq | hold
        · exact (LibCall.query.inj heq).2.1
        · refine ih h₀ ?_ hold
          rcases hfrom with rfl | rfl <;> rfl
    | _ => cases ht

/-- The last call of a conversation that has ended completes the command. -/
lemma Talk.Next.completes {t t' : Talk} (h : Talk.Next t call t') (ht : t'.ended) :
    call.completes := by
  cases h with
  | @query _ b sql _ i ret =>
    cases ret with
    | ok header =>
      cases b with
      | true =>
        simp only [Talk.queried] at ht
        split at ht
        · split at ht <;> cases ht
        · next hb => exact absurd trivial hb
      | false => exact Talk.Next.endsReply (.query (.inl rfl) i (.ok header)) ht
    | ioWait => cases ht
    | fail err =>
      have hends := Talk.Next.endsReply (.query (.inl rfl) i (.fail err)) ht
      cases b <;> exact hends
  | lastRow i => rfl
  | _ => cases ht

lemma Rested.atRest (h : Rested hist) : inFlight hist = false ∧ AtRest hist := by
  cases h with
  | nil => exact ⟨rfl, nofun⟩
  | append hold htalk hended hreq hother =>
    rename_i calls old t i
    obtain ⟨call, rest, rfl, hends⟩ := Talk.exists_last htalk hended
    obtain ⟨t₀, _, hnext⟩ : ∃ t₀, Talk.after rest = some t₀ ∧ t₀.next call = some t := by
      simpa [Option.bind_eq_some_iff] using htalk
    constructor
    · rcases call with ⟨i, b, sql, ret⟩ | _ | _ | _ <;> try rfl
      cases ret with
      | ioWait => cases hends
      | _ => rfl
    · rintro c hc
      obtain rfl : call = c := by simpa using hc
      exact (Talk.next_cases hnext).completes hended

/-- Nothing is in flight when a request is about to send a query. -/
lemma atRest_of_idle (h : Talk.after calls = some .idle) (hold : Rested older) :
    inFlight (calls ++ older) = false ∧ AtRest (calls ++ older) := by
  cases calls with
  | nil => exact hold.atRest
  | cons call rest =>
    obtain ⟨t₀, _, hnext⟩ : ∃ t₀, Talk.after rest = some t₀ ∧ t₀.next call = some .idle := by
      simpa [Option.bind_eq_some_iff] using h
    have hcall := Talk.next_cases hnext
    generalize ht : Talk.idle = t at hcall
    cases hcall with
    | @query _ b sql hfrom i ret =>
      have hdone : (LibCall.query i b sql ret).completes ∧ ret ≠ .ioWait := by
        cases ret with
        | ioWait => cases ht
        | ok header =>
          simp only [Talk.queried] at ht
          split at ht
          · next hb =>
            split at ht
            · cases ht
            · next hcode =>
              subst hb
              exact ⟨decide_eq_true (not_not.mp hcode), (by simp)⟩
          · split at ht <;> cases ht
        | fail err =>
          simp only [Talk.queried] at ht
          split at ht
          · next herr =>
            subst herr
            exact ⟨by cases b <;> rfl, (by simp)⟩
          · cases ht
      refine ⟨?_, ?_⟩
      · cases ret with
        | ioWait => exact absurd rfl hdone.2
        | _ => rfl
      · rintro c hc
        obtain rfl : LibCall.query i b sql ret = c := by simpa using hc
        exact hdone.1
    | _ => cases ht

/-! ## Upstreams with one charset -/

/-- All servers have the same charset, or none has one. -/
def Conf.Uniform (conf : Conf) (q : Bytes) : Prop := ∀ i, conf.setNamesQuery i = q

lemma Conf.Uniform.charsetByAddress {conf : Conf} (h : conf.Uniform q) : conf.CharsetByAddress :=
  fun i j _ => (h i).trans (h j).symm

/-- No server answers to the `set names` query that a table does not exist. -/
def NamesNotGone (env : Env) (p : Pos) (s : St) : Prop :=
  p = .sendQuery → s.r.sendsSetNames → env.query ≠ .fail (.errorCode 1146)

instance (env : Env) (p : Pos) (s : St) : Decidable (NamesNotGone env p s) :=
  inferInstanceAs (Decidable (p = .sendQuery → s.r.sendsSetNames →
    env.query ≠ .fail (.errorCode 1146)))

variable {s s' : St} {p : Pos} {k : ℕ} {t t' : Talk}

namespace St

lemma GetPeer.enableCharset {rc : Rc} (h : GetPeer s rc s') (hq : s.w.conf.Uniform q)
    (henable : s.r.enableCharset → q ≠ []) : s'.r.enableCharset → q ≠ [] := by
  have hpicked : s.picked.r.enableCharset → q ≠ [] := by
    intro hpos hnil
    have hpos : 0 < (s.w.conf.setNamesQuery s.r.nextPeer).length := of_decide_eq_true hpos
    rw [hq, hnil] at hpos
    cases hpos
  cases h with
  | single => exact henable
  | busy => exact henable
  | multi => exact hpicked
  | overflow getConn => cases getConn <;> exact hpicked
  | create hroom h => cases h <;> exact hpicked

/-- In an upstream whose servers have no charset, a request enables none. -/
lemma enableCharset_exec (env : Env) (hc : Custody p s) (hq : s.w.conf.Uniform q)
    (h : s.r.enableCharset → q ≠ []) : (s.exec env p).2.r.enableCharset → q ≠ [] := by
  cases hp : p.stays with
  | true =>
    rw [(Stays.charset (stays_exec env hc hp)).1]
    exact h
  | false =>
    cases p with
    | handlerTail =>
      rcases handlerTail_cases s with ⟨heq, _⟩ | ⟨_, _, _, heq⟩ <;> rw [exec, heq] <;> exact h
    | dbdConnect =>
      simp only [exec, dbdConnect]
      split
      · exact h
      · exact (getPeer_cases env.peer hc.ok.2.1.connection).enableCharset hq h
    | next ft =>
      obtain ⟨s₁, hs₁, hnext⟩ := next_cases (s := s) ft hc.queues
      have hsame : s₁.r.enableCharset = s.r.enableCharset := by
        split at hs₁
        · rw [hs₁]
        · cases hs₁ <;> rfl
      rw [← hsame] at h
      rw [exec]
      generalize s.next ft = ps at hnext ⊢
      obtain ⟨p', s'⟩ := ps
      cases hnext <;> exact h
    | finalize rc =>
      have hrc : rc ≠ .declined := by
        rintro rfl
        exact hc.ok
      obtain ⟨_, hfin⟩ := finalizeRequest_cases env hrc hc.queues
      obtain ⟨s₁, es, hfree, hs'⟩ := hfin.exists_freePeer
      have hsame : s₁.r.enableCharset = s.r.enableCharset := by cases hfree <;> rfl
      rw [exec, hs']
      exact fun henable => h (hsame ▸ henable)
    | _ => cases hp

end St

/-- The charset in an upstream whose servers all have the same, as a claim. -/
def Local.uniform (q : Bytes) : Local where
  req conf p r c := conf.Uniform q → Local.charset.req conf p r c ∧ (r.enableCharset → q ≠ [])
  item conf item c := conf.Uniform q → Local.charset.item conf item c

lemma Local.uniform_kept (q : Bytes) : (Local.uniform q).Kept fun _ p s => Known p s where
  init w id a p hp _ :=
    ⟨Local.charset_kept.init w id a p hp, fun h => absurd h (by simp [Req.init])⟩
  fire ev s he hok h hq := by
    refine ⟨Local.charset_kept.fire ev s he hok (h hq).1, ?_⟩
    obtain ⟨⟨cw, hr⟩, _⟩ := St.fire_cases ev s
    rw [hr]
    exact (h hq).2
  client conf p r c cc h hq := ⟨Local.charset_kept.client conf p r c cc (h hq).1, (h hq).2⟩
  exec env p s hc hd h hitems hq := by
    -- a connection in the cache has its charset
    have hfits : s.HitFits := by
      intro hmax hsingle item hhead henable
      have hmem : item ∈ s.w.pool.cache := List.mem_of_mem_head? hhead
      obtain ⟨k, hk⟩ := hc.items item hmem
      refine (hitems item hmem k hk.connection hq hq.charsetByAddress).done ?_
      rw [hq]
      exact (h hq).2 henable
    exact ⟨Local.charset_kept.exec env p s hc ⟨hd, fun _ => hfits⟩ (h hq).1
      (fun item hmem k hk => hitems item hmem k hk hq), St.enableCharset_exec env hc hq (h hq).2⟩
  saved env rc s item k s' hc hd h hsaved hq :=
    Local.charset_kept.saved env rc s item k s' hc ⟨hd, nofun⟩ (h hq).1 hsaved

/-! ## One step -/

/-- What a step may use about the charset and the past of the connection. -/
def CharsetKnown (q : Bytes) (p : Pos) (s : St) : Prop :=
  Known p s ∧ ((Local.uniform q).req s.w.conf p s.r s.conn ∧ (Local.uniform q).Items s.w) ∧
    Local.reuse.req s.w.conf p s.r s.conn ∧ Local.reuse.Items s.w

namespace St

variable {c : Conn}

/-- A query may be sent, or continued. -/
lemma mayQuery (hs : Session .sendQuery s.r t) (hlive : s.r.live)
    (hq : s.w.conf.Uniform q) (hn : Named s.w.conf s.r c) (hcont : s.r.Continues c)
    (hdone : q ≠ [] → s.r.hasSetNames → NamesDone c.hist) :
    MayQuery q c.hist s.r.id s.r.sendsSetNames s.r.queryToSend := by
  obtain ⟨old, hold, hhist, hreq, hother⟩ := hcont
  rcases hs.fits hlive with rfl | rfl
  · obtain ⟨hflight, hrest⟩ := atRest_of_idle hs.talk hold
    rw [← hhist] at hflight hrest
    refine ⟨fun hf => absurd (hflight.symm.trans hf) (by simp), fun _ => hrest, fun _ hsends => ?_,
      fun _ hsends => ⟨fun hne => ?_, fun d hd hb hid => ?_⟩⟩
    · -- the charset has not been set, so nothing has been sent
      obtain ⟨hne, hquery⟩ := hn.sends hsends
      have hunset : s.r.hasSetNames = false := by
        have hsends := hsends
        simp only [Req.sendsSetNames, Bool.and_eq_true, Bool.not_eq_true'] at hsends
        exact hsends.2
      obtain ⟨_, heq, htalk⟩ := hn.todo hne hunset
      have hnil : s.r.calls = [] := by
        rcases htalk with hnil | ⟨sql, ht⟩ | ht
        · exact hnil
        · cases hs.talk.symm.trans ht
        · cases hs.talk.symm.trans ht
      rw [hq] at hne hquery
      refine ⟨by rw [heq, hnil]; rfl, hne, ?_⟩
      rw [Req.queryToSend, if_pos hsends, hquery]
      rfl
    · refine hdone hne ?_
      by_contra hunset
      obtain ⟨henable, _⟩ := hn.todo (by rw [hq]; exact hne) (by simpa using hunset)
      rw [Req.sendsSetNames, henable, Bool.eq_false_iff.mpr hunset] at hsends
      cases hsends
    · obtain ⟨ret, hmem⟩ := exists_query_of_command hd
      rw [hhist] at hmem
      rcases List.mem_append.mp hmem with hnew | hpast
      · cases (Talk.setNames_of_beforeMain hs.talk rfl hnew).symm.trans hb
      · exact hother _ hpast hid
  · obtain ⟨i, rest, hcalls⟩ := Talk.exists_of_sent hs.talk
    have hi : i = s.r.id := hreq (.query i _ _ .ioWait) (hcalls ▸ List.mem_cons_self)
    subst hi
    have hflight : inFlight c.hist := by
      rw [hhist, hcalls]
      rfl
    have hnot : inFlight c.hist ≠ false := by
      rw [hflight]
      simp
    exact ⟨fun _ => ⟨rest ++ old, by rw [hhist, hcalls]; rfl⟩, fun hf => absurd hf hnot,
      fun hf => absurd hf hnot, fun hf => absurd hf hnot⟩

/-- A query is sent on a connection on which the charset has been set, or sets it. -/
lemma namesDone_sendQuery (env : Env) (hstays : Stays s (s.sendQuery env k k).2)
    (hk : s.r.connection = some k)
    (hnames : s.r.sendsSetNames → env.query ≠ .fail (.errorCode 1146))
    (hdone : s.r.hasSetNames → NamesDone (s.w.conns k).hist)
    (hset : (s.sendQuery env k k).2.r.hasSetNames) :
    NamesDone ((s.sendQuery env k k).2.w.conns k).hist := by
  obtain ⟨hcalls, hflag⟩ := sendQuery_flags (s := s) (k := k) env
  rw [Stays.hist_append hstays hk (show _ = [_] ++ s.r.calls from hcalls)]
  rcases hflag with ⟨hsame, _⟩ | ⟨_, hsends, hret⟩
  · exact (hdone (hsame ▸ hset)).append
  · rcases hret with hgone | ⟨header, hret, hcode⟩
    · exact absurd hgone (hnames hsends)
    · refine ⟨s.r.id, s.r.queryToSend, header, ?_, hcode⟩
      rw [hret, hsends]
      exact List.mem_cons_self

/-- A request gets a connection on which the commands are in order. -/
lemma ordered_getPeer {rc : Rc} (hget : GetPeer s rc s') (hc : Custody .dbdConnect s)
    (hunset : s.r.hasSetNames = false)
    (hitems : ∀ item ∈ s.w.pool.cache, ∀ k, item.connection = some k →
      Proper q (s.w.conns k).hist ∧ (q ≠ [] → NamesDone (s.w.conns k).hist))
    (hk : s'.r.connection = some k) : Proper q (s'.w.conns k).hist ∧
      ((s'.w.conns k).drizzle → q ≠ [] → s'.r.hasSetNames → NamesDone (s'.w.conns k).hist) := by
  have hnone := hc.ok.2.1.connection
  have hset : s'.r.hasSetNames = s.r.hasSetNames ∨ ∃ item ∈ s.w.pool.cache,
      s'.r.connection = item.connection ∧ s'.w.conns = s.w.conns := by
    cases hget with
    | @single item cache hmax hsingle hcache => exact .inr ⟨item, by simp [hcache], rfl, rfl⟩
    | busy hleft => exact .inl rfl
    | @multi item l₁ l₂ hmax hmulti hcache haddr => exact .inr ⟨item, by simp [hcache], rfl, rfl⟩
    | overflow getConn => cases getConn <;> exact .inl rfl
    | create hroom h => cases h <;> exact .inl rfl
  have hcached : (∃ item ∈ s.w.pool.cache,
      s'.r.connection = item.connection ∧ s'.w.conns = s.w.conns) →
      Proper q (s'.w.conns k).hist ∧ (q ≠ [] → NamesDone (s'.w.conns k).hist) := by
    rintro ⟨item, hmem, hi, hw⟩
    rw [hw]
    exact hitems item hmem k (hi.symm.trans hk)
  have hsource : Proper q (s'.w.conns k).hist := by
    rcases hget.source hnone with hnone' | hhist | hitem
    · cases hnone'.symm.trans hk
    · rw [conn_of hk] at hhist
      rw [hhist]
      exact trivial
    · exact (hcached hitem).1
  refine ⟨hsource, fun _ hne hset' => ?_⟩
  rcases hset with heq | hitem
  · cases (heq.trans hunset).symm.trans hset'
  · exact (hcached hitem).2 hne

end St

/-! ## Runs -/

/-- The commands on connections, as a claim about requests and items. -/
def Local.ordered (q : Bytes) : Local where
  req conf p r c := (p = .dbdConnect → r.hasSetNames = false) ∧
    (∀ i sql ret, .query i false sql ret ∈ r.calls → sql = r.query) ∧
    (conf.Uniform q → r.connection ≠ none → Proper q c.hist ∧
      (c.drizzle → q ≠ [] → r.hasSetNames → NamesDone c.hist))
  item conf _ c := conf.Uniform q → Proper q c.hist ∧ (q ≠ [] → NamesDone c.hist)

lemma Local.ordered_kept (q : Bytes) : (Local.ordered q).Kept fun env p s =>
    CharsetKnown q p s ∧ NamesNotGone env p s where
  init w id a p _ := ⟨fun _ => rfl, fun _ _ _ hmem => absurd hmem List.not_mem_nil,
    fun _ h => absurd rfl h⟩
  fire ev s _ _ h := by
    obtain ⟨⟨cw, hr⟩, rt, wt, hcon⟩ := St.fire_cases ev s
    rw [hr, hcon]
    exact ⟨(by simp), h.2⟩
  client conf p r c cc h := h
  exec env p s hc hd h hitems := by
    obtain ⟨hunset, htexts, h⟩ := h
    obtain ⟨⟨hknown, ⟨hcharset, hcitems⟩, hreuse, _⟩, hnames⟩ := hd
    obtain ⟨t, hs⟩ := hknown.session
    have hquery : (s.exec env p).2.r.query = s.r.query :=
      (congrArg Req.query (St.exec_given env hc) :)
    refine ⟨fun hp => ?_, fun i sql ret hmem => ?_, fun hq hconn => ?_⟩
    · refine (St.exec_dbdConnect env hc ?_).2.1
      generalize s.exec env p = ps at hp ⊢
      obtain ⟨p', s'⟩ := ps
      cases p' with
      | loop =>
        unfold Pos.after Pos.settle at hp
        cases hin : s'.r.inHandler <;> simp [hin] at hp
      | _ => exact hp
    · rw [hquery]
      cases hp : p.stays with
      | false =>
        rw [St.exec_calls env hc hp] at hmem
        exact htexts i sql ret hmem
      | true =>
        by_cases hpq : p = .sendQuery
        · subst hpq
          obtain ⟨_, k, hk⟩ := hc.ok
          rw [St.exec, St.onConn_of hk.connection hk.drizzleCon,
            (St.sendQuery_flags (s := s) (k := k) env).1] at hmem
          rcases List.mem_cons.mp hmem with heq | hold
          · obtain ⟨_, hsends, rfl, _⟩ := LibCall.query.inj heq
            rw [Req.queryToSend, ← hsends]
            rfl
          · exact htexts i sql ret hold
        · obtain ⟨cs, hcs, hnot⟩ := (St.exec_flags env hc).queries hp hpq
          rw [hcs] at hmem
          rcases List.mem_append.mp hmem with hnew | hold
          · cases hnot _ hnew
          · exact htexts i sql ret hold
    · obtain ⟨k, hk⟩ := Option.ne_none_iff_exists'.mp hconn
      have hold : ∀ j, s.r.connection = some j → Proper q (s.w.conns j).hist ∧
          ((s.w.conns j).drizzle → q ≠ [] → s.r.hasSetNames → NamesDone (s.w.conns j).hist) := by
        intro j hj
        rw [← St.conn_of hj]
        exact h hq (by simp [hj])
      rw [St.conn_of hk]
      cases hp : p.stays with
      | false =>
        by_cases hpd : p = .dbdConnect
        · subst hpd
          have hnone := hc.ok.2.1.connection
          simp only [St.exec, St.dbdConnect] at hk ⊢
          split at hk
          · cases hnone.symm.trans hk
          · next halloc =>
            rw [if_neg halloc]
            have hget := St.ordered_getPeer (St.getPeer_cases env.peer hnone) hc (hunset rfl)
              (fun item hmem j hj => hitems item hmem j hj hq) hk
            exact hget
        · rw [St.exec_of_connection env hc hp hpd hk]
          exact hold k (St.connection_of_exec env hc hpd hk)
      | true =>
        have hstays := St.stays_exec env hc hp
        have hk₀ := hstays.connection.symm.trans hk
        obtain ⟨hproper, hdone⟩ := hold k hk₀
        by_cases hpq : p = .sendQuery
        · subst hpq
          obtain ⟨hlive, j, hj⟩ := hc.ok
          obtain rfl := Option.some.inj (hj.connection.symm.trans hk₀)
          rw [St.exec, St.onConn_of hj.connection hj.drizzleCon] at hstays ⊢
          have hcalls := (St.sendQuery_flags (s := s) (k := j) env).1
          have hn := ((hcharset hq).1 hq.charsetByAddress (by simp [hk₀])).1
          have hcont := hreuse (by simp [hk₀])
          rw [St.conn_of hk₀] at hn hcont
          refine ⟨?_, fun _ hne => St.namesDone_sendQuery env hstays hk₀ (hnames rfl)
            (hdone hj.drizzle hne)⟩
          rw [St.Stays.hist_append hstays hk₀ (show _ = [_] ++ s.r.calls from hcalls)]
          exact ⟨St.mayQuery hs hlive hq (hn hj.drizzle) hcont (hdone hj.drizzle), hproper⟩
        · obtain ⟨cs, hcs, hnot⟩ := (St.exec_flags env hc).queries hp hpq
          rw [St.Stays.hist_append hstays hk₀ hcs]
          refine ⟨proper_append_of_not_query hnot hproper, fun hd hne hset => ?_⟩
          refine (hdone ((hstays.drizzle k).symm.trans hd) hne ?_).append
          -- a request that reads rows has nothing to note
          rcases (St.exec_flags env hc).hasSetNames hp hpq with hsame | ⟨rfl, hsends⟩
          · exact hsame ▸ hset
          · cases hsends.symm.trans (hs.fits hc.ok.1).1
  saved env rc s item k s' hc hd h hsaved hq := by
    obtain ⟨⟨hknown, ⟨hcharset, _⟩, _⟩, _⟩ := hd
    obtain ⟨t, hs⟩ := hknown.session
    have hk := hsaved.holds.connection
    obtain ⟨hproper, hdone⟩ := h.2.2 hq (by simp [hk])
    rw [St.conn_of hk] at hproper hdone
    refine ⟨hproper, fun hne => hdone hsaved.holds.drizzle hne ?_⟩
    have hitem := (Local.charset_kept.saved env rc s item k s' hc ⟨hknown, (by simp)⟩
      (hcharset hq).1 hsaved hq.charsetByAddress).done (by rw [hq]; exact hne)
    rwa [hsaved.hasSetNames] at hitem

namespace Sys

end Sys
end DrizzleNginx
