/-
# Connections are used again only at rest

A connection goes into the pool only if the server's reply to the last command on it has been
read to its end.  So the history of a connection consists of finished conversations, each of
another request, and on top the conversation of the request that holds the connection now.  A
request that ends in any other way has its connection closed.
-/
import DrizzleNginx.Proofs.Delivery

namespace DrizzleNginx

variable {s s' : St} {p : Pos} {env : Env} {k : ℕ}

/-! ## Histories at rest -/

/-- The history of a connection on which nothing is left to be read: finished conversations, each
of another request. -/
inductive Rested : List LibCall → Prop
  | nil : Rested []
  | append {calls old : List LibCall} {t : Talk} {i : ℕ} (hold : Rested old)
      (htalk : Talk.after calls = some t) (hended : t.ended) (hreq : ∀ call ∈ calls, call.req = i)
      (hother : ∀ call ∈ old, call.req ≠ i) : Rested (calls ++ old)

/-- When the request that makes the calls changes, the reply to the command before has been read
to its end. -/
def Handed (hist : List LibCall) : Prop :=
  hist.IsChain fun later earlier => later.req ≠ earlier.req → earlier.endsReply

variable {hist calls old : List LibCall} {t : Talk}

/-- The last call of a conversation that has ended. -/
lemma Talk.exists_last (htalk : Talk.after calls = some t) (hended : t.ended) :
    ∃ call rest, calls = call :: rest ∧ call.endsReply := by
  cases calls with
  | nil =>
    obtain rfl : Talk.idle = t := Option.some.inj htalk
    cases hended
  | cons call rest =>
    obtain ⟨t₀, h₀, hnext⟩ : ∃ t₀, Talk.after rest = some t₀ ∧ t₀.next call = some t := by
      simpa [Option.bind_eq_some_iff] using htalk
    exact ⟨call, rest, rfl, (Talk.next_cases hnext).endsReply hended⟩

lemma Rested.last (h : Rested hist) :
    hist = [] ∨ ∃ call rest, hist = call :: rest ∧ call.endsReply := by
  cases h with
  | nil => exact .inl rfl
  | append hold htalk hended hreq hother =>
    obtain ⟨call, rest, rfl, hcall⟩ := Talk.exists_last htalk hended
    exact .inr ⟨call, _, List.cons_append, hcall⟩

lemma handed_of_req {i : ℕ} (hreq : ∀ call ∈ calls, call.req = i) : Handed calls := by
  induction calls with
  | nil => exact .nil
  | cons call rest ih =>
    have hrest := ih fun c hc => hreq c (List.mem_cons_of_mem _ hc)
    cases rest with
    | nil => exact .singleton call
    | cons c rest =>
      refine .cons_cons (fun hne => absurd ?_ hne) hrest
      rw [hreq call List.mem_cons_self, hreq c (List.mem_cons_of_mem _ List.mem_cons_self)]

/-- A request takes over a connection at rest. -/
lemma Rested.handed_append {i : ℕ} (hold : Rested old) (h : Handed old)
    (hreq : ∀ call ∈ calls, call.req = i) : Handed (calls ++ old) := by
  refine List.isChain_append.mpr ⟨handed_of_req hreq, h, fun x _ y hy _ => ?_⟩
  rcases hold.last with rfl | ⟨call, rest, rfl, hcall⟩
  · cases hy
  · obtain rfl : call = y := by simpa using hy
    exact hcall

lemma Rested.handed (h : Rested hist) : Handed hist := by
  induction h with
  | nil => exact .nil
  | append hold _ _ hreq _ ih => exact hold.handed_append ih hreq

/-! ## One step -/

/-- The connection continues, for a request, a history at rest. -/
def Req.Continues (r : Req) (c : Conn) : Prop :=
  ∃ old, Rested old ∧ c.hist = r.calls ++ old ∧ (∀ call ∈ r.calls, call.req = r.id) ∧
    ∀ call ∈ old, call.req ≠ r.id

namespace St

/-- Where the connection comes from that `getPeer` has returned. -/
lemma GetPeer.source {rc : Rc} (h : GetPeer s rc s') (hc : s.r.connection = none) :
    s'.r.connection = none ∨ s'.conn.hist = [] ∨
    ∃ item ∈ s.w.pool.cache, s'.r.connection = item.connection ∧ s'.w.conns = s.w.conns := by
  cases h with
  | @single item cache hmax hsingle hcache =>
    exact .inr (.inr ⟨item, by simp [hcache], rfl, rfl⟩)
  | busy hleft => exact .inl hc
  | @multi item l₁ l₂ hmax hmulti hcache haddr =>
    exact .inr (.inr ⟨item, by simp [hcache], rfl, rfl⟩)
  | overflow getConn hfull =>
    cases getConn with
    | true =>
      refine .inr (.inl ?_)
      have hk : (s.picked.rejectOverflow true).2.r.connection = some s.w.nconns := rfl
      rw [conn_of hk]
      exact congrArg Conn.hist (Function.update_self (f := s.w.conns) ..)
    | false => exact .inl rfl
  | create hroom h =>
    cases h with
    | noMemory => exact .inl hc
    | refused hrc hcon hstate => exact .inl rfl
    | fresh hrc hcon =>
      refine .inr (.inl ?_)
      simpa [conn, addCon, picked, selectPeer] using hcon.hist

/-- A request that goes on with its connection goes on with the same past. -/
lemma Stays.continues (h : Stays s s') (hk : s.r.connection = some k) {t : Talk}
    (hs' : Session p s'.r t) (hold : s.r.Continues (s.w.conns k)) :
    s'.r.Continues (s'.w.conns k) := by
  obtain ⟨old, hrest, hhist, _, hother⟩ := hold
  obtain ⟨es, hes, _, _, hcalls⟩ := h.hist
  refine ⟨old, hrest, ?_, hs'.req, fun call hc => ?_⟩
  · have hcalls' : s'.r.calls = es.filterMap ReqEvent.call ++ s.r.calls := by
      rw [Req.calls, hes, List.filterMap_append]
      rfl
    rw [hcalls k hk, hhist, hcalls', List.append_assoc]
  · rw [h.id]
    exact hother call hc

lemma continues_dbdConnect (env : Env) (hc : Custody .dbdConnect s) (hd : Known .dbdConnect s)
    (hitems : ∀ item ∈ s.w.pool.cache, ∀ k, item.connection = some k → Rested (s.w.conns k).hist)
    (hconn : (s.dbdConnect env).2.r.connection ≠ none) :
    (s.dbdConnect env).2.r.Continues (s.dbdConnect env).2.conn := by
  obtain ⟨t, ht⟩ := hd.session
  obtain ⟨hstarted, hw⟩ := ht.fits hc.ok.1
  have hnil := ht.calls_nil hstarted
  obtain rfl := ht.idle hstarted
  have hnone := hc.ok.2.1.connection
  have hget := getPeer_cases env.peer hnone
  obtain ⟨hcalls, hid, _⟩ := hget.session (Req.Waits.state hw)
  have hsource := hget.source hnone
  unfold dbdConnect at hconn ⊢
  split at hconn
  · exact absurd hnone hconn
  · next halloc =>
    rw [if_neg halloc]
    generalize s.getPeer env.peer = ps at hcalls hid hsource hconn ⊢
    have hcalls' : (ps.2.log (.getPeer ps.1 ps.2.r.connection)).r.calls = [] :=
      hcalls.trans hnil
    unfold Req.Continues
    rw [hcalls']
    rcases hsource with h | h | ⟨item, hmem, h, hw'⟩
    · exact absurd h hconn
    · exact ⟨[], .nil, h, by simp, by simp⟩
    · obtain ⟨k, hk⟩ := Option.ne_none_iff_exists'.mp hconn
      have hconns : (ps.2.log (.getPeer ps.1 ps.2.r.connection)).conn = s.w.conns k := by
        rw [conn_of hk]
        exact congrFun hw' k
      have hik : item.connection = some k := h.symm.trans hk
      refine ⟨_, hitems item hmem k hik, by rw [hconns]; rfl, by simp, fun call hcall hreq => ?_⟩
      -- the request has not made any calls
      have hlib := hd.calls k call hcall (hreq.trans hid)
      have : call ∈ s.r.calls := List.mem_filterMap.mpr ⟨_, hlib, rfl⟩
      simp [hnil] at this

theorem continues_exec (env : Env) (hc : Custody p s) (hd : Known p s)
    (hitems : ∀ item ∈ s.w.pool.cache, ∀ k, item.connection = some k → Rested (s.w.conns k).hist)
    (h : s.r.connection ≠ none → s.r.Continues s.conn)
    (hconn : (s.exec env p).2.r.connection ≠ none) :
    (s.exec env p).2.r.Continues (s.exec env p).2.conn := by
  cases hp : p.stays with
  | true =>
    have hstays := stays_exec env hc hp
    obtain ⟨k, hk'⟩ := Option.ne_none_iff_exists'.mp hconn
    have hk := hstays.connection.symm.trans hk'
    obtain ⟨t, ht⟩ := hd.session
    obtain ⟨t', ht'⟩ := session_exec env hc ht
    rw [conn_of hk']
    exact Stays.continues hstays hk ht' (conn_of hk ▸ h (by simp [hk]))
  | false =>
    cases p with
    | handlerTail =>
      rcases handlerTail_cases s with ⟨heq, _⟩ | ⟨k, _, _, heq⟩
      · rw [exec, heq] at hconn ⊢
        exact h hconn
      · rw [exec, heq] at hconn
        exact absurd rfl hconn
    | dbdConnect => exact continues_dbdConnect env hc hd hitems hconn
    | next ft =>
      refine absurd ?_ hconn
      obtain ⟨s₁, hs₁, hnext⟩ := next_cases (s := s) ft hc.queues
      have hnone : s₁.r.connection = none := by
        split at hs₁
        · next hft =>
          subst hft
          exact hs₁ ▸ hc.ok.2.connection
        · exact hs₁.connection
      rw [exec]
      generalize s.next ft = ps at hnext
      obtain ⟨p', s'⟩ := ps
      cases hnext <;> exact hnone
    | finalize rc =>
      refine absurd ?_ hconn
      have hrc : rc ≠ .declined := by
        rintro rfl
        exact hc.ok
      obtain ⟨_, hfin⟩ := finalizeRequest_cases env hrc hc.queues
      obtain ⟨s₁, es, hfree, hs'⟩ := hfin.exists_freePeer
      rw [exec, hs']
      exact hfree.connection
    | _ => cases hp

/-- A connection is saved only when the conversation on it has ended. -/
lemma Saved.ended {rc : Rc} {item : Item} (h : s.Saved item s' k) (hc : Custody (.finalize rc) s)
    (hs : Session (.finalize rc) s.r t) : t.ended := by
  have hlive : s.r.live := hc.ok.live h.holds.connection
  refine (hs.fits hlive).resolve_left fun h0 => ?_
  have := h.reusable
  simp [Req.reusable, h0] at this

/-! ## The end of a request -/

/-- A connection is saved only at the end of a request that has a status. -/
lemma exec_saves (env : Env) (hc : Custody p s) {ev : Option ℕ}
    (hnew : .saved k ev ∈ (s.exec env p).2.r.hist) (hold : .saved k ev ∉ s.r.hist) :
    ∃ rc, p = .finalize rc ∧ s.r.reusable ∧ (s.exec env p).2.r.live = false ∧
      (s.exec env p).2.r.calls = s.r.calls := by
  obtain ⟨es, hes, hlogs⟩ := exec_hist env hc
  have hlog := hlogs _ ((List.mem_append.mp (hes ▸ hnew)).resolve_right hold)
  obtain ⟨rc, rfl⟩ : ∃ rc, p = .finalize rc := by
    cases p <;> first | exact ⟨_, rfl⟩ | simp [Pos.logs, ReqEvent.inner] at hlog
  have hrc : rc ≠ .declined := by
    rintro rfl
    exact hc.ok
  obtain ⟨_, hfin⟩ := finalizeRequest_cases env hrc hc.queues
  have hreusable : ∀ {s₁ : St} {es : List ReqEvent}, FreePeer false (s.log (.finalize rc)) s₁ →
      .saved k ev ∉ es → .saved k ev ∈ (s₁.ended es).r.hist → s.r.reusable := by
    intro s₁ es hfree hes hmem
    have hmem := (List.mem_append.mp hmem).resolve_left hes
    rcases hfree.hist with ⟨_, heq⟩ | ⟨_, _, _, _, hr, _⟩ | ⟨_, _, heq, _⟩
    · simp [heq, hold] at hmem
    · exact hr
    · simp [heq, hold] at hmem
  refine ⟨rc, rfl, ?_⟩
  rw [exec] at hnew ⊢
  generalize (s.finalizeRequest env rc).2 = s' at hfin hnew
  cases hfin with
  | completed hfree hsend rc' =>
    exact ⟨hreusable hfree (by simp) hnew, rfl, hfree.session.1⟩
  | failed hfree hsend => exact ⟨hreusable hfree (by simp) hnew, rfl, hfree.session.1⟩

/-- A step stays with the connection of the request, or saves it, or frees it. -/
lemma exec_connection (env : Env) (hc : Custody p s) (hk : s.Holds k) :
    (s.exec env p).2.r.connection = some k ∨ (∃ ev, .saved k ev ∈ (s.exec env p).2.r.hist) ∨
    .closed k ∈ (s.exec env p).2.r.hist ∧
      ((s.exec env p).2.w.conns k).freed = (s.w.conns k).freed + 1 := by
  have hconn := hk.connection
  -- giving the connection away
  have hgive : ∀ (es : List ReqEvent) {failed : Bool} {s₀ s₁ : St}, FreePeer failed s₀ s₁ →
      s₀.r.connection = some k → s₀.r.drizzleCon = some k →
      (∃ ev, .saved k ev ∈ es ++ s₁.r.hist) ∨ .closed k ∈ es ++ s₁.r.hist ∧
        (s₁.w.conns k).freed = (s₀.w.conns k).freed + 1 := by
    intro es failed s₀ s₁ hfree hc₀ hd₀
    rcases hfree.hist with ⟨hnone, _⟩ | ⟨j, ev, hj, _, _, heq⟩ | ⟨j, hj, heq, hfreed⟩
    · cases hnone.symm.trans hc₀
    · obtain rfl := Option.some.inj (hj.symm.trans hc₀)
      exact .inl ⟨ev, by simp [heq]⟩
    · obtain rfl := Option.some.inj (hj.symm.trans hc₀)
      exact .inr ⟨by simp [heq], hfreed hd₀⟩
  cases hp : p.stays with
  | true => exact .inl ((stays_exec env hc hp).connection.trans hconn)
  | false =>
    cases p with
    | handlerTail =>
      left
      rcases handlerTail_cases s with ⟨heq, _⟩ | ⟨j, hj, hfd, _⟩
      · rw [exec, heq]
        exact hconn
      · obtain rfl := Option.some.inj (hj.symm.trans hconn)
        exact absurd hfd hk.fd
    | dbdConnect => cases hc.ok.2.1.connection.symm.trans hconn
    | next ft =>
      obtain ⟨s₁, hs₁, hnext⟩ := next_cases (s := s) ft hc.queues
      have hsame : (s.exec env (.next ft)).2.r.hist = s₁.r.hist ∧
          (s.exec env (.next ft)).2.w = s₁.w := by
        rw [exec]
        generalize s.next ft = ps at hnext ⊢
        obtain ⟨p', s'⟩ := ps
        cases hnext <;> exact ⟨rfl, rfl⟩
      rw [hsame.1, hsame.2]
      split at hs₁
      · next hft =>
        subst hft
        cases hc.ok.2.connection.symm.trans hconn
      · exact .inr (hgive [] hs₁ hconn hk.drizzleCon)
    | finalize rc =>
      right
      have hrc : rc ≠ .declined := by
        rintro rfl
        exact hc.ok
      obtain ⟨_, hfin⟩ := finalizeRequest_cases env hrc hc.queues
      obtain ⟨s₁, es, hfree, hs'⟩ := hfin.exists_freePeer
      rw [exec, hs']
      exact (hgive _ hfree hconn hk.drizzleCon :)
    | _ => cases hp

end St

/-! ## Runs -/

/-- The histories of connections, as a claim about requests and items. -/
def Local.reuse : Local where
  req _ _ r c := r.connection ≠ none → r.Continues c
  item _ _ c := Rested c.hist ∧ ∃ call rest, c.hist = call :: rest ∧ call.endsReply

lemma Local.reuse_kept : Local.reuse.Kept fun _ p s => Known p s where
  init _ _ _ _ _ h := absurd rfl h
  fire ev s _ hok h hconn := by
    obtain ⟨⟨cw, hr⟩, rt, wt, hcon⟩ := St.fire_cases ev s
    rw [hr] at hconn ⊢
    rw [hcon]
    exact h hconn
  client _ _ _ _ _ h := h
  exec env _ _ hc hd h hitems := St.continues_exec env hc hd
    (fun item hmem k hk => (hitems item hmem k hk).1) h
  saved env rc s item k s' hc hd h hsaved := by
    obtain ⟨t, ht⟩ := hd.session
    have hended := hsaved.ended hc ht
    have hk := hsaved.holds.connection
    obtain ⟨old, hrest, hhist, hreq, hother⟩ := h (by simp [hk])
    rw [St.conn_of hk] at hhist
    obtain ⟨call, rest, hcalls, hcall⟩ := Talk.exists_last ht.talk hended
    have hdel : (s.w.conns k).delTimers.hist = s.r.calls ++ old := hhist
    refine ⟨hdel ▸ hrest.append ht.talk hended hreq hother, call, rest ++ old, ?_, hcall⟩
    rw [hdel, hcalls, List.cons_append]

/-- What a request that has saved its connection has done before. -/
def Req.Settled (r : Req) : Prop :=
  (∃ rc flush, .done rc flush ∈ r.hist) ∧ ∃ call rest, r.calls = call :: rest ∧ call.endsReply

/-- Status and saved connections, as a claim about requests. -/
def Local.settled : Local where
  req _ _ r _ := (r.statusN ≠ 0 → ∃ rc flush, .done rc flush ∈ r.hist) ∧
    ∀ k ev, .saved k ev ∈ r.hist → r.live = false ∧ r.Settled
  item _ _ _ := True

lemma Local.settled_kept : Local.settled.Kept fun _ p s => Known p s where
  init w id a _ _ := ⟨fun hne => absurd rfl hne, fun _ _ => nofun⟩
  fire ev s _ _ h := by
    obtain ⟨⟨cw, hr⟩, _⟩ := St.fire_cases ev s
    rw [hr]
    exact h
  client _ _ _ _ _ h := h
  exec env p s hc hd h _ := by
    obtain ⟨es, hes, hlogs⟩ := St.exec_hist env hc
    refine ⟨fun hne => ?_, fun k ev hmem => ?_⟩
    · by_cases hp : ∃ rc, p = .done rc
      · obtain ⟨rc, rfl⟩ := hp
        obtain ⟨flush, o, _, hs', _⟩ := St.done_cases (s := s) env rc
        rw [St.exec, hs']
        exact ⟨rc, flush, List.mem_cons_self⟩
      · rcases (St.exec_flags env hc).statusN fun rc heq => hp ⟨rc, heq⟩ with h0 | heq
        · exact absurd h0 hne
        · obtain ⟨rc, flush, hmem⟩ := h.1 (heq ▸ hne)
          exact ⟨rc, flush, hes ▸ List.mem_append_right _ hmem⟩
    · by_cases hold : .saved k ev ∈ s.r.hist
      · -- nothing happens any more
        obtain ⟨hlive, ⟨rc, flush, hdone⟩, hlast⟩ := h.2 k ev hold
        have hsame : (s.exec env p).2.r.live = false ∧
            (s.exec env p).2.r.calls = s.r.calls := by
          rcases hc.ok.loop_of_ended hlive with rfl | ⟨rfl, hnone⟩
          · exact ⟨hlive, rfl⟩
          · rcases St.handlerTail_cases s with ⟨heq, _⟩ | ⟨j, hj, _⟩
            · rw [St.exec, heq]
              exact ⟨hlive, rfl⟩
            · cases hnone.symm.trans hj
        exact ⟨hsame.1, ⟨rc, flush, hes ▸ List.mem_append_right _ hdone⟩, hsame.2.symm ▸ hlast⟩
      · obtain ⟨rc, rfl, hr, hlive, hcalls⟩ := St.exec_saves env hc hmem hold
        have hstatus : s.r.statusN ≠ 0 := by
          intro h0
          simp [Req.reusable, h0] at hr
        obtain ⟨rc', flush, hdone⟩ := h.1 hstatus
        obtain ⟨t, ht⟩ := hd.session
        have hl : s.r.live := by
          have hok := hc.ok
          cases rc with
          | declined => exact hok.elim
          | _ => exact hok.1
        have hended := (ht.fits hl).resolve_left hstatus
        exact ⟨hlive, ⟨rc', flush, hes ▸ List.mem_append_right _ hdone⟩,
          hcalls.symm ▸ Talk.exists_last ht.talk hended⟩
  saved _ _ _ _ _ _ _ _ _ _ := trivial

/-! ## Every connection is accounted for -/

/-- What has become of the database connections that a request has got. -/
def Req.Accounts (r : Req) (w : Worker) : Prop :=
  ∀ rc k, .getPeer rc (some k) ∈ r.hist → k < w.nconns ∧ ((w.conns k).drizzle →
    r.connection = some k ∨ (∃ ev, .saved k ev ∈ r.hist) ∨
      .closed k ∈ r.hist ∧ (w.conns k).freed = 1)

lemma Req.Accounts.frame {r : Req} {w w' : Worker} (h : r.Accounts w) (hn : w.nconns ≤ w'.nconns)
    (hdrizzle : ∀ k < w.nconns, (w'.conns k).drizzle = (w.conns k).drizzle)
    (hfreed : ∀ k < w.nconns, (w.conns k).drizzle → (w.conns k).freed = 1 →
      (w'.conns k).freed = 1) : r.Accounts w' := by
  intro rc k hmem
  obtain ⟨hlt, hacc⟩ := h rc k hmem
  refine ⟨Nat.lt_of_lt_of_le hlt hn, fun hd => ?_⟩
  have hd := (hdrizzle k hlt).symm.trans hd
  rcases hacc hd with hk | hsaved | ⟨hclosed, hf⟩
  · exact .inl hk
  · exact .inr (.inl hsaved)
  · exact .inr (.inr ⟨hclosed, hfreed k hlt hd hf⟩)

/-- A step of the request keeps account of its connections. -/
lemma St.accounts_exec (env : Env) (hc : Custody p s) (h : s.r.Accounts s.w)
    (hheld : ∀ k < s.w.nconns, (s.w.conns k).drizzle → s.r.connection = some k →
      (s.w.conns k).freed = 0)
    (hfreed : ∀ k < s.w.nconns, (s.w.conns k).drizzle → (s.w.conns k).freed = 1 →
      s.holders k = 0) : (s.exec env p).2.r.Accounts (s.exec env p).2.w := by
  obtain ⟨es, hes, hlogs⟩ := exec_hist env hc
  have hadv := exec_advances env hc
  have hgrow : ∀ {e}, e ∈ s.r.hist → e ∈ (s.exec env p).2.r.hist := fun he =>
    hes ▸ List.mem_append_right _ he
  intro rc k hmem
  by_cases hold : .getPeer rc (some k) ∈ s.r.hist
  · obtain ⟨hlt, hacc⟩ := h rc k hold
    refine ⟨Nat.lt_of_lt_of_le hlt hadv.moves.nconns, fun hd => ?_⟩
    have hd := (hadv.moves.drizzle k hlt).symm.trans hd
    rcases hacc hd with hk | ⟨ev, hsaved⟩ | ⟨hclosed, hf⟩
    · have hholds : s.Holds k := by
        rcases hc.ok.cases with hnone | ⟨j, hj⟩ | ⟨j, hj⟩
        · cases hnone.symm.trans hk
        · exact Option.some.inj (hj.connection.symm.trans hk) ▸ hj
        · obtain rfl := Option.some.inj (hj.connection.symm.trans hk)
          cases hj.drizzle.symm.trans hd
      rcases exec_connection env hc hholds with hk' | hsaved | ⟨hclosed, hf⟩
      · exact .inl hk'
      · exact .inr (.inl hsaved)
      · rw [hheld k hlt hd hk] at hf
        exact .inr (.inr ⟨hclosed, hf⟩)
    · exact .inr (.inl ⟨ev, hgrow hsaved⟩)
    · refine .inr (.inr ⟨hgrow hclosed, ?_⟩)
      rw [hadv.moves.frame k hlt (hfreed k hlt hd hf)]
      exact hf
  · -- `getPeer` has just returned
    have hlog := hlogs _ ((List.mem_append.mp (hes ▸ hmem)).resolve_right hold)
    obtain rfl : p = .dbdConnect := by
      cases p <;> first | rfl | simp [Pos.logs, ReqEvent.inner] at hlog
    have hk : (s.exec env .dbdConnect).2.r.connection = some k := by
      simp only [exec, dbdConnect] at hmem ⊢
      split at hmem
      · exact absurd hmem hold
      · next halloc =>
        rw [if_neg halloc]
        rcases List.mem_cons.mp hmem with heq | hmem
        · exact (ReqEvent.getPeer.inj heq).2.symm
        · obtain ⟨es, hes, hpick⟩ := (getPeer_cases env.peer hc.ok.2.1.connection).hist
          rw [hes] at hmem
          rcases hpick _ ((List.mem_append.mp hmem).resolve_right hold) with heq | ⟨i, heq⟩ <;>
            cases heq
    exact ⟨hadv.ok.lt hk, fun _ => .inl hk⟩

namespace Sys

variable {s : Sys} {i : ℕ} {r : Req}

/-- All database connections that requests have got are accounted for. -/
def Accounted (s : Sys) : Prop := ∀ r ∈ s.reqs, r.Accounts s.w

/-- A connection that has been freed is not touched any more. -/
lemma Owned.holders_of_freed (h : s.Owned) (hk : k < s.w.nconns) (hd : (s.w.conns k).drizzle)
    (hf : (s.w.conns k).freed = 1) : s.holders k = 0 := by
  have := h.drizzle k hk hd
  omega

lemma Accounted.put (h : s.Accounted) (ho : s.Owned) (hi : s.reqs[i]? = some r) {c : Prop}
    {ps : Pos × St} (hm : Moves c (s.view r) ps.2) (hr : ps.2.r.Accounts ps.2.w) :
    (s.put i ps).Accounted := by
  intro q hq
  rcases List.mem_or_eq_of_mem_set hq with hold | rfl
  · refine (h q hold).frame hm.nconns hm.drizzle fun k hk hd hf => ?_
    have hle := Owned.view_holders_le hi k
    rw [ho.holders_of_freed hk hd hf] at hle
    have hconn : ps.2.w.conns k = s.w.conns k := hm.frame k hk (Nat.le_zero.mp hle)
    exact (congrArg Conn.freed hconn).trans hf
  · exact hr

lemma Accounted.step (h : s.Accounted) (ho : s.Owned) (l : Label) : (s.step l).Accounted := by
  have hstep := step_cases s l
  generalize s.step l = s' at hstep ⊢
  cases hstep with
  | skip => exact h
  | arrive a hidle =>
    intro q hq
    rcases List.mem_append.mp hq with hold | hnew
    · exact h q hold
    · obtain rfl := List.mem_singleton.mp hnew
      exact fun _ _ => nofun
  | @event i e r hidle hi he =>
    have hstays := stays_fire e (s.view r)
    refine h.put ho hi (hstays.moves (c := True) (ho.custody hi).holders_le) ?_
    obtain ⟨⟨cw, hr⟩, _⟩ := St.fire_cases e (s.view r)
    rw [hr]
    refine (h r (List.mem_of_getElem? hi)).frame (Nat.le_of_eq hstays.nconns.symm)
      (fun k _ => hstays.drizzle k) fun k _ _ hf => (hstays.freed k).trans hf
  | @client i r cc hi =>
    intro q hq
    rcases List.mem_or_eq_of_mem_set hq with hold | rfl
    · exact h q hold
    · exact h r (List.mem_of_getElem? hi)
  | idle slot stale hidle =>
    have hconns : ∀ k, (s.w.closeHandler slot stale).conns k = s.w.conns k ∨
        (∃ item ∈ s.w.pool.cache, item.connection = some k) ∧
          (s.w.closeHandler slot stale).conns k = (s.w.conns k).free.close := by
      intro k
      rcases closeHandler_cases s.w slot stale with heq | ⟨item, l₁, l₂, hcache, heq⟩
      · rw [heq]
        exact .inl rfl
      · obtain ⟨j, hj⟩ := ho.items item (by rw [hcache]; simp)
        rw [heq, hj.connection, hj.drizzleCon]
        dsimp only
        rw [Worker.freeConnection_conns]
        split
        · next hk =>
          subst hk
          exact .inr ⟨⟨item, by rw [hcache]; simp, hj.connection⟩, rfl⟩
        · exact .inl rfl
    have hn : (s.w.closeHandler slot stale).nconns = s.w.nconns := by
      rcases closeHandler_cases s.w slot stale with heq | ⟨item, _, _, _, heq⟩ <;> simp [heq]
    intro q hq
    refine (h q hq).frame (Nat.le_of_eq hn.symm) (fun k _ => ?_) fun k hk hd hf => ?_
    · rcases hconns k with heq | ⟨_, heq⟩
      · exact congrArg Conn.drizzle heq
      · exact (congrArg Conn.drizzle heq :)
    · rcases hconns k with heq | ⟨⟨item, hmem, hk'⟩, _⟩
      · exact (congrArg Conn.freed heq).trans hf
      · have := ho.holders_of_freed hk hd hf
        have hpos : 0 < s.w.pool.cache.countP fun item => item.connection = some k :=
          List.countP_pos_iff.mpr ⟨item, hmem, by simpa using hk'⟩
        rw [holders] at this
        omega
  | tick now hidle => exact h
  | @run env i p r hact hi =>
    have hc := ho.custody hi
    rw [pos_of_active hact] at hc
    refine h.put ho hi (St.exec_advances env hc).moves
      (St.accounts_exec env hc (h r (List.mem_of_getElem? hi)) (fun k hk hd hconn => ?_)
        fun k hk hd hf => ?_)
    · have := ho.drizzle k hk hd
      have hpos : 0 < s.reqs.countP fun r => r.connection = some k :=
        List.countP_pos_iff.mpr ⟨r, List.mem_of_getElem? hi, decide_eq_true hconn⟩
      rw [holders] at this
      simp only [view]
      omega
    · have hle := Owned.view_holders_le hi k
      rw [ho.holders_of_freed hk hd hf] at hle
      exact Nat.le_zero.mp hle

lemma accounted_run (conf : Conf) (ls : List Label) : (run conf ls).Accounted :=
  Lib.run_invariant_of (C := fun _ _ => True) (I := Owned) (fun _ l _ h => h.step l)
    (fun _ l _ ho h => h.step ho l) (owned_init conf) (fun _ => nofun)
    (Lib.Meets.of_forall (fun _ _ => trivial) ls _)

/-- **Connections are used again only at rest.**  In all states of all runs: the last call on a
connection in the cache read the end of the server's reply.  A request saves a connection only
behind `ngx_http_upstream_drizzle_done`, and only if its last call read the end of the reply.
The database connection of a request that has ended in any other way has been closed, is freed,
once, and nobody has it.  So when the next call on a connection comes from another request,
then nothing is left of the reply to the one before. -/
theorem reused_at_rest (conf : Conf) (ls : List Label) :
    (∀ item ∈ (run conf ls).w.pool.cache, ∀ k, item.connection = some k →
      ∃ call rest, ((run conf ls).w.conns k).hist = call :: rest ∧ call.endsReply) ∧
    (∀ r ∈ (run conf ls).reqs, ∀ k ev, .saved k ev ∈ r.hist →
      (∃ rc flush, .done rc flush ∈ r.hist) ∧
        ∃ call rest, r.calls = call :: rest ∧ call.endsReply) ∧
    (∀ r ∈ (run conf ls).reqs, r.live = false → ∀ rc k, .getPeer rc (some k) ∈ r.hist →
      ((run conf ls).w.conns k).drizzle → (∀ ev, .saved k ev ∉ r.hist) →
        .closed k ∈ r.hist ∧ ((run conf ls).w.conns k).freed = 1 ∧ (run conf ls).holders k = 0) ∧
    (∀ k newer later earlier older,
      ((run conf ls).w.conns k).hist = newer ++ later :: earlier :: older →
        later.req ≠ earlier.req → earlier.endsReply) := by
  have ho := owned_run conf ls
  have hreuse := Local.reuse_kept.run conf (known_meets conf ls)
  have hsettled := Local.settled_kept.run conf (known_meets conf ls)
  have hacc := accounted_run conf ls
  have hhanded := fun k => Local.reuse_kept.run_record (G := fun _ _ hist => Handed hist)
    (fun _ _ => .nil) (fun _ _ r c h hconn => by
      obtain ⟨old, hold, hhist, hreq, _⟩ := h hconn
      rw [hhist]
      exact hold.handed_append hold.handed hreq) conf (known_meets conf ls) k
  generalize run conf ls = s at ho hreuse hsettled hacc hhanded ⊢
  refine ⟨fun item hmem k hk => (hreuse.items item hmem k hk).2, fun r hr k ev hmem => ?_,
    fun r hr hlive rc k hget hd hunsaved => ?_, fun k newer later earlier older hhist => ?_⟩
  · obtain ⟨i, hi⟩ := List.mem_iff_getElem?.mp hr
    exact ((hsettled.req i r hi).2 k ev hmem).2
  · obtain ⟨i, hi⟩ := List.mem_iff_getElem?.mp hr
    obtain ⟨hlt, hcases⟩ := hacc r hr rc k hget
    rcases hcases hd with hk | ⟨ev, hsaved⟩ | ⟨hclosed, hf⟩
    · cases hlive.symm.trans ((ho.ok i r hi).live hk)
    · exact absurd hsaved (hunsaved ev)
    · exact ⟨hclosed, hf, ho.holders_of_freed hlt hd hf⟩
  · have h := hhanded k
    rw [hhist] at h
    exact (List.isChain_append.mp h).2.1.rel

end Sys

end DrizzleNginx
