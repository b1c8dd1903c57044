/-
# Queries are never sent again

Once `drizzle_query` has been called for a request, the request never goes to get a connection
again: `ngx_http_upstream_drizzle_next` gives up.  So all commands of a request are submitted on
one connection, and none of them is submitted twice.  A command is a call of `drizzle_query`
that does not continue one that had to wait.
-/
import DrizzleNginx.Proofs.Histories

namespace DrizzleNginx

/-! ## Commands -/

/-- The last call was one of `drizzle_query`, and it has to be continued. -/
def inFlight : List LibCall → Bool
  | .query _ _ _ .ioWait :: _ => true
  | _ => false

/-- A command that has been submitted to a database. -/
structure Command where
  req : ℕ
  setNames : Bool
  sql : Bytes
deriving DecidableEq, Repr

/-- The commands submitted in a history of calls, the newest one first. -/
def commands : List LibCall → List Command
  | [] => []
  | .query i setNames sql _ :: calls =>
    if inFlight calls then commands calls else ⟨i, setNames, sql⟩ :: commands calls
  | _ :: calls => commands calls

/-- How often the SQL of the request has been submitted. -/
def mains (calls : List LibCall) : ℕ := (commands calls).countP fun c => !c.setNames

/-- How often the query that sets the charset has been submitted. -/
def names (calls : List LibCall) : ℕ := (commands calls).countP Command.setNames

variable {calls old cs : List LibCall} {call : LibCall} {t t' : Talk}

lemma commands_cons_of_not_query (h : call.isQuery = false) :
    commands (call :: calls) = commands calls := by
  cases call with
  | query => cases h
  | _ => rfl

lemma commands_append_of_not_query (h : ∀ call ∈ cs, call.isQuery = false) :
    commands (cs ++ calls) = commands calls := by
  induction cs with
  | nil => rfl
  | cons call cs ih =>
    rw [List.cons_append, commands_cons_of_not_query (h call List.mem_cons_self)]
    exact ih fun c hc => h c (List.mem_cons_of_mem _ hc)

namespace Talk

/-- While a query is in flight, it is the last call. -/
lemma exists_of_sent {setNames : Bool} {sql : Bytes} (h : after calls = some (sent setNames sql)) :
    ∃ i rest, calls = .query i setNames sql .ioWait :: rest := by
  cases calls with
  | nil => cases h
  | cons call rest =>
    obtain ⟨t₀, _, hnext⟩ :
        ∃ t₀, after rest = some t₀ ∧ t₀.next call = some (sent setNames sql) := by
      simpa [Option.bind_eq_some_iff] using h
    have hcall := next_cases hnext
    generalize ht : sent setNames sql = t' at hcall
    cases hcall with
    | @query _ b q hfrom i ret =>
      cases ret with
      | ioWait =>
        obtain ⟨rfl, rfl⟩ := sent.inj ht
        exact ⟨i, rest, rfl⟩
      | ok h =>
        simp only [queried] at ht
        split at ht
        · split at ht <;> cases ht
        · split at ht <;> cases ht
      | fail err =>
        simp only [queried] at ht
        split at ht
        · split at ht <;> cases ht
        · cases ht
    | _ => cases ht

/-- A query is in flight only in the state for it. -/
lemma sent_of_inFlight (h : after calls = some t) (hf : inFlight calls) :
    ∃ setNames sql, t = sent setNames sql := by
  cases calls with
  | nil => cases hf
  | cons call rest =>
    obtain ⟨t₀, _, hnext⟩ : ∃ t₀, after rest = some t₀ ∧ t₀.next call = some t := by
      simpa [Option.bind_eq_some_iff] using h
    have hcall := next_cases hnext
    cases hcall with
    | @query _ b q hfrom i ret =>
      cases ret with
      | ioWait => exact ⟨b, q, rfl⟩
      | _ => cases hf
    | _ => cases hf

/-- Only queries lead back to the beginning. -/
lemma isQuery_of_idle (h : after (call :: calls) = some idle) : call.isQuery := by
  obtain ⟨t₀, _, hnext⟩ : ∃ t₀, after calls = some t₀ ∧ t₀.next call = some idle := by
    simpa [Option.bind_eq_some_iff] using h
  have hcall := next_cases hnext
  generalize ht : idle = t' at hcall
  cases hcall with
  | query => rfl
  | _ => cases ht

/-- The SQL of the request has not been submitted. -/
def beforeMain : Talk → Bool
  | idle => true
  | sent true _ => true
  | _ => false

lemma beforeMain_queried {sql : Bytes} {ret : QueryRet} :
    (queried false sql ret).beforeMain = false := by
  cases ret with
  | ioWait => rfl
  | ok h =>
    simp only [queried, Bool.false_eq_true, if_false]
    split <;> rfl
  | fail err =>
    simp only [queried, Bool.false_eq_true, if_false]
    split <;> rfl

/-- In an allowed conversation the SQL of the request is submitted once. -/
lemma mains_le (h : after calls = some t) :
    mains calls ≤ 1 ∧ (t.beforeMain → mains calls = 0) := by
  induction calls generalizing t with
  | nil => exact ⟨Nat.zero_le 1, fun _ => rfl⟩
  | cons call rest ih =>
    obtain ⟨t₀, h₀, hnext⟩ : ∃ t₀, after rest = some t₀ ∧ t₀.next call = some t := by
      simpa [Option.bind_eq_some_iff] using h
    obtain ⟨hle, hzero⟩ := ih h₀
    have hcall := next_cases hnext
    cases hcall with
    | @query _ setNames sql hfrom i ret =>
      rcases hfrom with rfl | rfl
      · have hf : inFlight rest = false := by
          by_contra hf
          obtain ⟨_, _, heq⟩ := sent_of_inFlight h₀ (by simpa using hf)
          cases heq
        have h0 := hzero rfl
        rw [mains] at h0
        cases setNames with
        | true => simp [mains, commands, hf, h0]
        | false => simp [mains, commands, hf, h0, beforeMain_queried]
      · obtain ⟨j, rest', rfl⟩ := exists_of_sent h₀
        have hsame : mains (.query i setNames sql ret :: .query j setNames sql .ioWait :: rest') =
            mains (.query j setNames sql .ioWait :: rest') := rfl
        rw [hsame]
        refine ⟨hle, fun ht => ?_⟩
        cases setNames with
        | true => exact hzero rfl
        | false => simp [beforeMain_queried] at ht
    | _ => exact ⟨hle, nofun⟩

/-- A query that is sent, or continued. -/
lemma names_query {setNames : Bool} {sql : Bytes} (h : after calls = some t)
    (hfrom : t = idle ∨ t = sent setNames sql) (i : ℕ) (ret : QueryRet) :
    t = idle ∧ names (.query i setNames sql ret :: calls) = names calls + setNames.toNat ∨
      names (.query i setNames sql ret :: calls) = names calls := by
  rcases hfrom with rfl | rfl
  · left
    have hf : inFlight calls = false := by
      by_contra hf
      obtain ⟨_, _, heq⟩ := sent_of_inFlight h (by simpa using hf)
      cases heq
    cases setNames <;> simp [names, commands, hf]
  · right
    obtain ⟨j, rest, rfl⟩ := exists_of_sent h
    rfl

end Talk

/-! ## One step -/

/-- What a request does with the connections that it gets, one after the other. -/
structure Req.Attempts (r : Req) : Prop where
  /-- Nothing has been sent when it goes to get a connection. -/
  last : r.hist.Pairwise fun later earlier => later.isGetPeer → earlier.call = none
  one : ∀ j call j' call', .lib j call ∈ r.hist → .lib j' call' ∈ r.hist → j = j'
  own : ∀ k, r.connection = some k → ∀ j call, .lib j call ∈ r.hist → j = k
  names_le : names r.calls ≤ 1
  unnamed : r.live → r.sendsSetNames → Talk.after r.calls = some .idle → r.calls = []

variable {s s' : St} {p : Pos} {r r' : Req} {k : ℕ}

lemma Req.calls_eq_nil (h : r.calls = []) {e : ReqEvent} (he : e ∈ r.hist) : e.call = none := by
  cases hcall : e.call with
  | none => rfl
  | some call =>
    have : call ∈ r.calls := List.mem_filterMap.mpr ⟨e, he, hcall⟩
    simp [h] at this

namespace St

lemma attempts_sendQuery (env : Env) (hs : Session .sendQuery s.r t) (hlive : s.r.live)
    (h : s.r.Attempts) : names (s.sendQuery env k k).2.r.calls ≤ 1 ∧
      ((s.sendQuery env k k).2.r.sendsSetNames →
        Talk.after (s.sendQuery env k k).2.r.calls ≠ some .idle) := by
  obtain ⟨hcalls, hflag⟩ := sendQuery_flags (s := s) (k := k) env
  have hfits := hs.fits hlive
  rw [hcalls]
  constructor
  · rcases Talk.names_query hs.talk hfits s.r.id env.query with ⟨rfl, heq⟩ | heq
    · rw [heq]
      cases hn : s.r.sendsSetNames with
      | true =>
        rw [h.unnamed hlive hn hs.talk]
        exact Nat.le_refl 1
      | false => exact h.names_le
    · rw [heq]
      exact h.names_le
  · intro hn
    rw [Talk.after_cons, hs.talk, Option.bind_some, Talk.next_query hfits]
    rcases hflag with ⟨_, hne⟩ | ⟨hset, _⟩
    · exact fun heq => hne (Option.some.inj heq)
    · -- it has been noted that the query was sent
      simp [Req.sendsSetNames, hset] at hn

/-- Whether the `set names` query is to be sent, and what has been called, in a step that does
not go to get a connection. -/
lemma unnamed_exec (env : Env) (hc : Custody p s) (hs : Session p s.r t) (h : s.r.Attempts) :
    names (s.exec env p).2.r.calls ≤ 1 ∧
      ((s.exec env p).2.r.live → (s.exec env p).2.r.sendsSetNames →
        Talk.after (s.exec env p).2.r.calls = some .idle → (s.exec env p).2.r.calls = []) := by
  cases hp : p.stays with
  | false =>
    rw [exec_calls env hc hp]
    refine ⟨h.names_le, fun hlive hn hidle => ?_⟩
    cases p with
    | handlerTail =>
      have hsame : (s.exec env .handlerTail).2.r.live = s.r.live ∧
          (s.exec env .handlerTail).2.r.sendsSetNames = s.r.sendsSetNames := by
        rcases handlerTail_cases s with ⟨heq, _⟩ | ⟨_, _, _, heq⟩ <;> rw [exec, heq] <;>
          exact ⟨rfl, rfl⟩
      exact h.unnamed (hsame.1 ▸ hlive) (hsame.2 ▸ hn) hidle
    | dbdConnect => exact hs.calls_nil (hs.fits hc.ok.1).1
    | next ft =>
      obtain ⟨s₁, hs₁, hnext⟩ := next_cases (s := s) ft hc.queues
      have hsame : s₁.r.live = s.r.live ∧ s₁.r.sendsSetNames = s.r.sendsSetNames ∧
          s₁.r.queryStarted = s.r.queryStarted := by
        split at hs₁
        · exact hs₁ ▸ ⟨rfl, rfl, rfl⟩
        · cases hs₁ <;> exact ⟨rfl, rfl, rfl⟩
      rw [exec] at hlive hn
      generalize s.next ft = ps at hnext hlive hn
      obtain ⟨p', s'⟩ := ps
      cases hnext with
      | stop => exact h.unnamed (hsame.1 ▸ hlive) (hsame.2.1 ▸ hn) hidle
      | retry hstarted => exact hs.calls_nil (hsame.2.2.symm.trans hstarted)
    | finalize rc =>
      have hrc : rc ≠ .declined := by
        rintro rfl
        exact hc.ok
      obtain ⟨_, hfin⟩ := finalizeRequest_cases env hrc hc.queues
      obtain ⟨s₁, es, hfree, hs'⟩ := hfin.exists_freePeer
      rw [exec, hs'] at hlive
      cases hlive
    | _ => cases hp
  | true =>
    by_cases hq : p = .sendQuery
    · subst hq
      obtain ⟨hlive, k, hk⟩ := hc.ok
      rw [exec, onConn_of hk.connection hk.drizzleCon]
      obtain ⟨hle, hne⟩ := attempts_sendQuery (k := k) env hs hlive h
      exact ⟨hle, fun _ hn hidle => absurd hidle (hne hn)⟩
    · have hstays := stays_exec env hc hp
      have hflags := exec_flags env hc
      obtain ⟨cs, hcs, hquery⟩ := hflags.queries hp hq
      constructor
      · rw [names, hcs, commands_append_of_not_query hquery]
        exact h.names_le
      · intro hlive hn hidle
        have hl : s.r.live := hstays.live.symm.trans hlive
        have hcharset : (s.exec env p).2.r.enableCharset = s.r.enableCharset :=
          (congrArg Req.enableCharset hstays.req :)
        have hset : (s.exec env p).2.r.hasSetNames = s.r.hasSetNames := by
          refine (hflags.hasSetNames hp hq).resolve_right ?_
          rintro ⟨rfl, hsends⟩
          cases hsends.symm.trans (hs.fits hl).1
        have hsends : s.r.sendsSetNames := by
          rw [Req.sendsSetNames, hcharset, hset] at hn
          exact hn
        rw [hcs] at hidle ⊢
        cases cs with
        | nil => exact h.unnamed hl hsends hidle
        | cons call cs =>
          cases (Talk.isQuery_of_idle hidle).symm.trans (hquery call List.mem_cons_self)

/-- A step of a request keeps to what it may do with its connections. -/
theorem attempts_exec (env : Env) (hc : Custody p s) (hs : Session p s.r t) (h : s.r.Attempts) :
    (s.exec env p).2.r.Attempts := by
  obtain ⟨es, hes, hlogs⟩ := exec_hist env hc
  obtain ⟨hnames, hunnamed⟩ := unnamed_exec env hc hs h
  -- a request that goes to get a connection has not made any calls
  have hcalls : p = .dbdConnect → s.r.calls = [] := by
    rintro rfl
    exact hs.calls_nil (hs.fits hc.ok.1).1
  have hget : ∀ e ∈ es, e.isGetPeer → p = .dbdConnect := by
    intro e he hisget
    have hlog := hlogs e he
    cases e with
    | getPeer => cases p <;> first | rfl | simp [Pos.logs, ReqEvent.inner] at hlog
    | _ => cases hisget
  -- calls are made on the connection that the request holds
  have hlib : ∀ j call, .lib j call ∈ es → s.r.connection = some j ∧
      (s.exec env p).2.r.connection = some j := by
    intro j call he
    have hp : p.stays := by
      have hlog := hlogs _ he
      cases p <;> first | rfl | cases hlog
    have hstays := stays_exec env hc hp
    obtain ⟨es', hes', _, hlib, _⟩ := hstays.hist
    obtain rfl : es' = es := List.append_cancel_right (hes'.symm.trans hes)
    exact ⟨hlib j call he, hstays.connection.trans (hlib j call he)⟩
  have hold : ∀ {e}, e ∈ (s.exec env p).2.r.hist → e ∈ es ∨ e ∈ s.r.hist := fun he =>
    List.mem_append.mp (hes ▸ he)
  constructor
  case last =>
    rw [hes]
    refine List.pairwise_append.mpr ⟨List.pairwise_of_forall_mem_list fun a ha b hb hisget => ?_,
      h.last, fun a ha b hb hisget => Req.calls_eq_nil (hcalls (hget a ha hisget)) hb⟩
    obtain rfl := hget a ha hisget
    have hlog := hlogs b hb
    cases b with
    | lib => cases hlog
    | _ => rfl
  case one =>
    intro j call j' call' he he'
    rcases hold he with hnew | hmem <;> rcases hold he' with hnew' | hmem'
    · exact Option.some.inj ((hlib j call hnew).1.symm.trans (hlib j' call' hnew').1)
    · exact (h.own j (hlib j call hnew).1 j' call' hmem').symm
    · exact h.own j' (hlib j' call' hnew').1 j call hmem
    · exact h.one j call j' call' hmem hmem'
  case own =>
    intro k hk j call he
    rcases hold he with hnew | hmem
    · exact Option.some.inj ((hlib j call hnew).2.symm.trans hk)
    · refine h.own k (connection_of_exec env hc (fun hp => ?_) hk) j call hmem
      cases Req.calls_eq_nil (hcalls hp) hmem
  case names_le => exact hnames
  case unnamed => exact hunnamed

end St

/-! ## Runs -/

/-- The attempts of each request, as a claim about requests. -/
def Local.attempts : Local where
  req _ _ r _ := r.Attempts
  item _ _ _ := True

lemma Local.attempts_kept : Local.attempts.Kept fun _ p s => Known p s where
  init w id a _ _ := ⟨.nil, nofun, nofun, Nat.zero_le 1, fun _ _ _ => rfl⟩
  fire ev s _ _ h := by
    obtain ⟨⟨cw, hr⟩, _⟩ := St.fire_cases ev s
    rw [hr]
    exact ⟨h.last, h.one, h.own, h.names_le, h.unnamed⟩
  client _ _ _ _ _ h := ⟨h.last, h.one, h.own, h.names_le, h.unnamed⟩
  exec env _ _ hc hd h _ := hd.session.elim fun _ hs => St.attempts_exec env hc hs h
  saved _ _ _ _ _ _ _ _ _ _ := trivial

namespace Sys

/-- **No retry behind a query.**  In all states of all runs: when a request went to get a
connection, no call of the client library had been made for it, on any connection.  A request
submits its SQL at most once, and so it does the query that sets the charset; all its calls are
made on one connection, and every call on a connection is one that a request knows of. -/
theorem submitted_once (conf : Conf) (ls : List Label) :
    (∀ r ∈ (run conf ls).reqs,
      r.hist.Pairwise fun later earlier => later.isGetPeer → earlier.call = none) ∧
    (∀ r ∈ (run conf ls).reqs, mains r.calls ≤ 1 ∧ names r.calls ≤ 1) ∧
    (∀ k, ∀ call ∈ ((run conf ls).w.conns k).hist,
      ∃ r, (run conf ls).reqs[call.req]? = some r ∧ .lib k call ∈ r.hist) ∧
    ∀ k k', ∀ call ∈ ((run conf ls).w.conns k).hist, ∀ call' ∈ ((run conf ls).w.conns k').hist,
      call.req = call'.req → k = k' := by
  have hattempts := Local.attempts_kept.run conf (known_meets conf ls)
  have hrecorded := recorded_run conf ls
  generalize run conf ls = s at hattempts hrecorded ⊢
  refine ⟨fun r hr => ?_, fun r hr => ?_, hrecorded.tagged, ?_⟩
  · obtain ⟨i, hi⟩ := List.mem_iff_getElem?.mp hr
    exact (hattempts.req i r hi).last
  · obtain ⟨i, hi⟩ := List.mem_iff_getElem?.mp hr
    obtain ⟨t, ht⟩ := hrecorded.session.req i r hi
    exact ⟨(Talk.mains_le ht.talk).1, (hattempts.req i r hi).names_le⟩
  · intro k k' call hcall call' hcall' hreq
    obtain ⟨r, hr, hlib⟩ := hrecorded.tagged k call hcall
    obtain ⟨r', hr', hlib'⟩ := hrecorded.tagged k' call' hcall'
    obtain rfl : r = r' := Option.some.inj (hr.symm.trans (hreq ▸ hr'))
    exact (hattempts.req _ r hr).one k call k' call' hlib hlib'

end Sys
end DrizzleNginx
