/-
# The variable `$drizzle_thread_id`

When a query takes too long, the number of the thread that works on it is stored in a variable, and
can be used in a SQL statement that kills the query.  So it has to be the number of the connection
on which the query was submitted, and this connection must not serve other requests, whose queries
would be killed.  The variable is that of the main request: behind the timeouts of several
subrequests it holds the number that was stored last.
-/
import DrizzleNginx.Model.ThreadId
import DrizzleNginx.Proofs.Attempts
import DrizzleNginx.Proofs.Lifetime
import DrizzleNginx.Proofs.Status

namespace DrizzleNginx

/-! ## Values -/

namespace VariableValue

/-- The value that holds a number: its digits, and their count. -/
def stored (tid : UInt32) : VariableValue where
  len := (decimal tid.toNat).length
  valid := true
  data := some (decimal tid.toNat)

variable {env : ThreadIdEnv} {v : VariableValue} {dc : Option ℕ} {k : ℕ}

/-- The digits fill the memory that is allocated for them. -/
lemma setThreadId_stored (htid : env.tid ≠ 0) (hindexed : env.indexed) (halloc : env.alloc) :
    v.setThreadId env (some k) = (.ok, stored env.tid) := by
  have hlt : env.tid.toNat < 2 ^ 32 := env.tid.toNat_lt
  have htext : sprintfUD env.tid.toUInt64 = decimal env.tid.toNat := by
    rw [sprintfUD, UInt32.toNat_toUInt64, Nat.mod_eq_of_lt hlt]
  simp only [setThreadId, if_neg htid, hindexed, halloc, Bool.not_true, Bool.false_eq_true,
    if_false, htext, getNumSize_eq, UInt32.toNat_toUInt64, stored]

/-- The variable is set, or it is not set because something is missing. -/
lemma setThreadId_cases (env : ThreadIdEnv) (dc : Option ℕ) (v : VariableValue) :
    (v.setThreadId env dc).2 = v ∨ (v.setThreadId env dc).2.data = none ∨
      ∃ k, dc = some k ∧ env.tid ≠ 0 ∧ (v.setThreadId env dc).2 = stored env.tid := by
  cases dc with
  | none => exact .inl rfl
  | some k =>
    by_cases htid : env.tid = 0
    · exact .inl (by simp [setThreadId, htid])
    · cases hindexed : env.indexed with
      | false => exact .inl (by simp [setThreadId, htid, hindexed])
      | true =>
        cases halloc : env.alloc with
        | false => exact .inr (.inl (by simp [setThreadId, htid, hindexed, halloc]))
        | true =>
          exact .inr (.inr ⟨k, rfl, htid, by rw [setThreadId_stored htid hindexed halloc]⟩)

end VariableValue

/-! ## Connections that are given up -/

namespace St

variable {s s' : St} {k : ℕ}

/-- A connection whose timer has expired is closed. -/
lemma closed_of_timeout (env : Env) (hc : Custody (.next .timeout) s) (hk : s.Holds k) :
    .closed k ∈ (s.exec env (.next .timeout)).2.r.hist ∧
      ((s.exec env (.next .timeout)).2.w.conns k).freed ≠ 0 := by
  obtain ⟨s₁, hfree, hnext⟩ := next_cases (s := s) .timeout hc.queues
  rw [if_neg (by simp)] at hfree
  have hclosed : .closed k ∈ s₁.r.hist ∧ (s₁.w.conns k).freed ≠ 0 := by
    cases hfree with
    | idle b hnone => cases hnone.symm.trans hk.connection
    | saved _ _ hfailed => cases hfailed
    | @closed b j hj =>
      obtain rfl : j = k := Option.some.inj (hj.symm.trans hk.connection)
      refine ⟨List.mem_cons_self, ?_⟩
      have hconns : ((s.modReq fun r => { r with failed := b }).dropConnection j).w.conns j =
          ((s.w.conns j).free).close := by
        change (s.w.freeConnection (some j) s.r.drizzleCon).conns j = _
        rw [hk.drizzleCon, Worker.freeConnection_conns, if_pos rfl]
      rw [hconns]
      exact Nat.succ_ne_zero _
  rw [exec]
  generalize s.next .timeout = ps at hnext
  obtain ⟨p', s'⟩ := ps
  cases hnext with
  | stop => exact hclosed
  | retry => exact hclosed

/-- A request whose query has been submitted is not tried again. -/
lemma finalize_of_timeout (env : Env) (hc : Custody (.next .timeout) s)
    (hstarted : s.r.queryStarted) :
    (∃ rc, (s.exec env (.next .timeout)).1 = .finalize rc) ∧
      (s.exec env (.next .timeout)).2.r.queryStarted := by
  obtain ⟨s₁, hfree, hnext⟩ := next_cases (s := s) .timeout hc.queues
  rw [if_neg (by simp)] at hfree
  have hstarted₁ : s₁.r.queryStarted := by
    cases hfree <;> exact hstarted
  rw [exec]
  generalize s.next .timeout = ps at hnext
  obtain ⟨p', s'⟩ := ps
  cases hnext with
  | stop => exact ⟨⟨_, rfl⟩, hstarted₁⟩
  | retry hnot => cases hnot.symm.trans hstarted₁

end St

namespace Sys

variable {s : Sys} {i k : ℕ} {r : Req}

/-- The request is about to close a connection because a timer has expired, or it has closed it. -/
def GivesUp (s : Sys) (i k : ℕ) (r : Req) : Prop :=
  s.active = some (i, .next .timeout) ∧ (s.view r).Holds k ∨
    .closed k ∈ r.hist ∧ k < s.w.nconns ∧ (s.w.conns k).freed ≠ 0

/-- While the module works for a request, it takes the next step for it, or only a client connection
changes. -/
lemma step_of_active {p : Pos} (hact : s.active = some (i, p)) (hi : s.reqs[i]? = some r)
    (l : Label) :
    (∃ r', (s.step l).reqs[i]? = some r' ∧ (s.step l).active = s.active ∧ (s.step l).w = s.w ∧
      (r' = r ∨ ∃ cc, r' = r.onClient cc)) ∨
    ∃ env, s.step l = s.put i ((s.view r).exec env p) := by
  obtain ⟨hbound, _⟩ := List.getElem?_eq_some_iff.mp hi
  have hstep := step_cases s l
  generalize s.step l = s' at hstep ⊢
  cases hstep with
  | skip => exact .inl ⟨r, hi, rfl, rfl, .inl rfl⟩
  | arrive a hidle => cases hact.symm.trans hidle
  | event e hidle => cases hact.symm.trans hidle
  | idle slot stale hidle => cases hact.symm.trans hidle
  | tick now hidle => cases hact.symm.trans hidle
  | @client j q cc hj =>
    left
    rcases eq_or_ne j i with rfl | hne
    · obtain rfl : q = r := Option.some.inj (hj.symm.trans hi)
      exact ⟨_, List.getElem?_set_self hbound, rfl, rfl, .inr ⟨cc, rfl⟩⟩
    · exact ⟨r, (List.getElem?_set_ne hne).trans hi, rfl, rfl, .inl rfl⟩
  | @run env j q r' hact' hj =>
    obtain ⟨rfl, rfl⟩ := Prod.mk.inj (Option.some.inj (hact'.symm.trans hact))
    obtain rfl : r' = r := Option.some.inj (hj.symm.trans hi)
    exact .inr ⟨env, rfl⟩

lemma givesUp_step (ho : s.Owned) (hi : s.reqs[i]? = some r) (h : s.GivesUp i k r) (l : Label) :
    ∃ r', (s.step l).reqs[i]? = some r' ∧ (s.step l).GivesUp i k r' := by
  obtain ⟨hbound, _⟩ := List.getElem?_eq_some_iff.mp hi
  have hc := ho.custody hi
  rcases h with ⟨hact, hk⟩ | ⟨hclosed, hlt, hfreed⟩
  · rw [pos_of_active hact] at hc
    rcases step_of_active hact hi l with ⟨r', hi', hact', hw, hr'⟩ | ⟨env, hstep⟩
    · refine ⟨r', hi', .inl ⟨hact'.trans hact, ?_⟩⟩
      have hk' : (s.view r').Holds k := by
        rcases hr' with rfl | ⟨cc, rfl⟩ <;>
          exact ⟨hk.connection, hk.drizzleCon, hk.lt, hk.drizzle, hk.fd⟩
      simp only [view, hw] at hk' ⊢
      exact hk'
    · obtain ⟨hclosed, hfreed⟩ := St.closed_of_timeout env hc hk
      have hlt : k < s.w.nconns := hk.lt
      rw [hstep]
      exact ⟨_, List.getElem?_set_self hbound, .inr ⟨hclosed,
        Nat.lt_of_lt_of_le hlt (St.exec_advances env hc).moves.nconns, hfreed⟩⟩
  · obtain ⟨hlt', hconn⟩ := ho.conns_of_freed l hlt hfreed
    obtain ⟨r', hi', hclosed'⟩ := req_step (P := fun r' => .closed k ∈ r'.hist) hi l hclosed
      (fun e => by
        obtain ⟨⟨cw, hr⟩, _⟩ := St.fire_cases e (s.view r)
        rw [hr]
        exact hclosed) (fun _ => hclosed) fun env p hact => by
          rw [pos_of_active hact] at hc
          obtain ⟨es, hes, _⟩ := St.exec_hist env hc
          rw [hes]
          exact List.mem_append_right _ hclosed
    exact ⟨r', hi', .inr ⟨hclosed', hlt', hconn ▸ hfreed⟩⟩

/-- The request gives up for good: its query has been submitted, and it is not tried again. -/
def Doomed (s : Sys) (i : ℕ) (r : Req) : Prop :=
  r.live = false ∨ r.queryStarted ∧
    (s.active = some (i, .next .timeout) ∨ ∃ rc, s.active = some (i, .finalize rc))

lemma doomed_step (ho : s.Owned) (hi : s.reqs[i]? = some r) (h : s.Doomed i r) (l : Label) :
    ∃ r', (s.step l).reqs[i]? = some r' ∧ (s.step l).Doomed i r' := by
  obtain ⟨hbound, _⟩ := List.getElem?_eq_some_iff.mp hi
  have hc := ho.custody hi
  have hput : ∀ {ps : Pos × St}, s.step l = s.put i ps → (s.step l).reqs[i]? = some ps.2.r := by
    intro ps hstep
    rw [hstep]
    exact List.getElem?_set_self hbound
  rcases h with hdead | ⟨hstarted, hact | ⟨rc, hact⟩⟩
  · obtain ⟨r', hi', hdead'⟩ := req_step (P := fun r' => r'.live = false) hi l hdead
      (fun e => by
        obtain ⟨⟨cw, hr⟩, _⟩ := St.fire_cases e (s.view r)
        rw [hr]
        exact hdead) (fun _ => hdead) fun env p hact => by
          rw [pos_of_active hact] at hc
          rw [St.exec_ended env hc hdead]
          exact hdead
    exact ⟨r', hi', .inl hdead'⟩
  · rw [pos_of_active hact] at hc
    rcases step_of_active hact hi l with ⟨r', hi', hact', _, hr'⟩ | ⟨env, hstep⟩
    · refine ⟨r', hi', .inr ⟨?_, .inl (hact'.trans hact)⟩⟩
      rcases hr' with rfl | ⟨cc, rfl⟩ <;> exact hstarted
    · obtain ⟨⟨rc, hrc⟩, hstarted'⟩ := St.finalize_of_timeout env hc hstarted
      refine ⟨_, hput hstep, .inr ⟨hstarted', .inr ⟨rc, ?_⟩⟩⟩
      rw [hstep, put, hrc]
      rfl
  · rw [pos_of_active hact] at hc
    rcases step_of_active hact hi l with ⟨r', hi', hact', _, hr'⟩ | ⟨env, hstep⟩
    · refine ⟨r', hi', .inr ⟨?_, .inr ⟨rc, hact'.trans hact⟩⟩⟩
      rcases hr' with rfl | ⟨cc, rfl⟩ <;> exact hstarted
    · exact ⟨_, hput hstep, .inl (St.exec_finalize env hc).2⟩

end Sys

/-! ## Runs -/

namespace Tids

open VariableValue (stored)

variable {s : Tids} {main : ℕ → ℕ} {i : ℕ} {r : Req} {tid : ℕ → UInt32}

@[simp] lemma step_sys (main : ℕ → ℕ) (s : Tids) (l : Label × ThreadIdEnv) :
    (s.step main l).sys = s.sys.step l.1 := rfl

@[simp] lemma step_vars (main : ℕ → ℕ) (s : Tids) (l : Label × ThreadIdEnv) :
    (s.step main l).vars = s.varsStep main l.1 l.2 := rfl

lemma sys_run (main : ℕ → ℕ) (conf : Conf) (ls : List (Label × ThreadIdEnv)) :
    (run main conf ls).sys = Sys.run conf (ls.map Prod.fst) := by
  have hrun : ∀ (ls : List (Label × ThreadIdEnv)) (s : Tids),
      (Lib.run (step main) s ls).sys = Lib.run Sys.step s.sys (ls.map Prod.fst) := by
    intro ls
    induction ls with
    | nil => exact fun _ => rfl
    | cons l ls ih => exact fun s => ih (s.step main l)
  exact hrun ls (init conf)

/-- A variable is set only when a timer of a database connection has expired. -/
lemma varsStep_cases (main : ℕ → ℕ) (s : Tids) (l : Label) (env : ThreadIdEnv) :
    s.varsStep main l env = s.vars ∨ ∃ e i w b r, l = .run e ∧
      s.sys.active = some (i, .event (.db w true b)) ∧ s.sys.reqs[i]? = some r ∧
      s.varsStep main l env =
        Function.update s.vars (main i) ((s.vars (main i)).setThreadId env r.drizzleCon).2 := by
  unfold varsStep
  split
  · next hact =>
    split
    · exact .inl rfl
    · next hi => exact .inr ⟨_, _, _, _, _, rfl, hact, hi, rfl⟩
  · exact .inl rfl

/-- `drizzle_con_thread_id` answers with the number of the connection, or with 0 before it is
known. -/
def Told (tid : ℕ → UInt32) (s : Tids) (l : Label × ThreadIdEnv) : Prop :=
  ∀ i w b r k, s.sys.active = some (i, .event (.db w true b)) → s.sys.reqs[i]? = some r →
    r.drizzleCon = some k → l.2.tid = 0 ∨ l.2.tid = tid k

/-- What is in a variable is the number of a connection that one of the requests that share it
gives up. -/
def Named (main : ℕ → ℕ) (tid : ℕ → UInt32) (s : Tids) : Prop :=
  ∀ m, s.vars m = {} ∨ (s.vars m).data = none ∨
    ∃ i r k, main i = m ∧ s.sys.reqs[i]? = some r ∧ s.vars m = stored (tid k) ∧ s.sys.GivesUp i k r

/-- Behind the handling of the expiry, the request is about to give up its connection. -/
lemma expire (ho : s.sys.Owned) {w b : Bool}
    (hact : s.sys.active = some (i, .event (.db w true b))) (hi : s.sys.reqs[i]? = some r)
    (e : Env) :
    s.sys.step (.run e) = { s.sys with
      reqs := s.sys.reqs.set i { r with requestSent := true }
      active := some (i, .next .timeout) } := by
  have hc := ho.custody hi
  rw [Sys.pos_of_active hact] at hc
  obtain ⟨k, hconn⟩ := St.connection_of_event hc
  have hexec : (s.sys.view r).exec e (.event (.db w true b)) =
      (.next .timeout, s.sys.view { r with requestSent := true }) := by
    have hk : r.connection = some k := hconn
    simp only [St.exec, St.handleEvent, St.dbHandler, St.modReq, Sys.view, hk, if_true]
  simp only [Sys.step, hact, hi, hexec]
  rfl

/-- It holds the connection of its `dp->drizzle_con`, if there is one. -/
lemma holds_of_expire (ho : s.sys.Owned) {w b : Bool} {k : ℕ}
    (hact : s.sys.active = some (i, .event (.db w true b))) (hi : s.sys.reqs[i]? = some r)
    (hdc : r.drizzleCon = some k) : (s.sys.view r).Holds k := by
  have hc := ho.custody hi
  rw [Sys.pos_of_active hact] at hc
  rcases hc.ok.2 with ⟨j, hj⟩ | ⟨_, hrej⟩
  · obtain rfl : j = k := Option.some.inj (hj.drizzleCon.symm.trans hdc)
    exact hj
  · obtain ⟨j, hj⟩ := hrej.holds
    cases hj.drizzleCon.symm.trans hdc

lemma Named.step {l : Label × ThreadIdEnv} (h : s.Named main tid) (ho : s.sys.Owned)
    (htold : Told tid s l) : (s.step main l).Named main tid := by
  obtain ⟨l, env⟩ := l
  -- a variable that is left alone
  have hkept : ∀ m, s.vars m = {} ∨ (s.vars m).data = none ∨ ∃ i r k, main i = m ∧
      (s.sys.step l).reqs[i]? = some r ∧ s.vars m = stored (tid k) ∧
        (s.sys.step l).GivesUp i k r := by
    intro m
    rcases h m with hempty | hnone | ⟨i, r, k, hm, hi, hstored, hgives⟩
    · exact .inl hempty
    · exact .inr (.inl hnone)
    · obtain ⟨r', hi', hgives'⟩ := Sys.givesUp_step ho hi hgives l
      exact .inr (.inr ⟨i, r', k, hm, hi', hstored, hgives'⟩)
  intro m
  rcases varsStep_cases main s l env with hvars | ⟨e, i, w, b, r, rfl, hact, hi, hvars⟩
  · rw [step_vars, hvars]
    exact hkept m
  · rw [step_vars, hvars]
    rcases eq_or_ne m (main i) with rfl | hne
    · rw [Function.update_self]
      rcases VariableValue.setThreadId_cases env r.drizzleCon (s.vars (main i)) with
        hsame | hnone | ⟨k, hdc, htid, hstored⟩
      · rw [hsame]
        exact hkept (main i)
      · exact .inr (.inl hnone)
      · have heq : env.tid = tid k := (htold i w b r k hact hi hdc).resolve_left htid
        obtain ⟨hbound, _⟩ := List.getElem?_eq_some_iff.mp hi
        have hk := holds_of_expire ho hact hi hdc
        refine .inr (.inr ⟨i, { r with requestSent := true }, k, rfl, ?_, heq ▸ hstored, ?_⟩)
        · rw [step_sys, expire ho hact hi e]
          exact List.getElem?_set_self hbound
        · rw [step_sys, expire ho hact hi e]
          exact .inl ⟨rfl, hk.connection, hk.drizzleCon, hk.lt, hk.drizzle, hk.fd⟩
    · rw [Function.update_of_ne hne]
      exact hkept m

lemma named_run (main : ℕ → ℕ) (conf : Conf) {ls : List (Label × ThreadIdEnv)}
    (hls : Lib.Meets (step main) (Told tid) (init conf) ls) :
    (run main conf ls).Named main tid :=
  Lib.run_invariant_of (C := Told tid) (I := fun s => s.sys.Owned) (J := Named main tid)
    (fun _ l _ ho => Sys.Owned.step ho l.1) (fun _ _ hl ho h => h.step ho hl)
    (Sys.owned_init conf) (fun _ => .inl rfl) hls

/-- **The thread that is killed.**  Let libdrizzle, asked for the thread of a connection, answer
with a number that belongs to this connection, or with 0.  In all states of all runs, the
`$drizzle_thread_id` of a main request has not been set, or an allocation failed, or it is the
decimal number of a connection, in memory of exactly this size.  The main request or one of its
subrequests is about to close the connection; or it has closed it, and then no request ever works on
it again. -/
theorem thread_id_of_request (main : ℕ → ℕ) (conf : Conf) (tid : ℕ → UInt32)
    (ls : List (Label × ThreadIdEnv)) (hls : Lib.Meets (step main) (Told tid) (init conf) ls)
    (m : ℕ) :
    (run main conf ls).vars m = {} ∨ ((run main conf ls).vars m).data = none ∨
    ∃ i r k, main i = m ∧ (run main conf ls).sys.reqs[i]? = some r ∧
      (run main conf ls).vars m = stored (tid k) ∧
      ((run main conf ls).sys.active = some (i, .next .timeout) ∧ r.connection = some k ∧
          r.drizzleCon = some k ∨
        .closed k ∈ r.hist ∧ ((run main conf ls).sys.w.conns k).freed = 1 ∧
          (∀ ls', (Sys.run conf (ls.map Prod.fst ++ ls')).w.conns k =
            (run main conf ls).sys.w.conns k)) := by
  rcases named_run main conf hls m with hempty | hnone | ⟨i, r, k, hm, hi, hstored, hgives⟩
  · exact .inl hempty
  · exact .inr (.inl hnone)
  · refine .inr (.inr ⟨i, r, k, hm, hi, hstored, ?_⟩)
    rcases hgives with ⟨hact, hk⟩ | ⟨hclosed, hlt, hfreed⟩
    · exact .inl ⟨hact, hk.connection, hk.drizzleCon⟩
    · rw [sys_run] at hlt hfreed ⊢
      obtain ⟨_, hone, _⟩ :=
        (Sys.owned_run conf (ls.map Prod.fst)).holders_of_ne_zero hlt hfreed
      exact .inr ⟨hclosed, hone, fun ls' => Sys.freed_run conf (ls.map Prod.fst) ls' hlt hfreed⟩

/-- The query of a request takes too long. -/
def slowQuery : List (Label × ThreadIdEnv) :=
  (Sys.sampleArrival (.sample [7]) ++
    [Label.run { query := .ioWait }, .run {}, .run {}, .event 0 (.db true true false)]).map
    fun l => (l, {})

/-- The thread of the query is told, and the connection is given up. -/
def slowQueryTold : List (Label × ThreadIdEnv) :=
  slowQuery ++ [(.run {}, { tid := 42 }), (.run {}, { tid := 0 })]

theorem thread_id_of_request_slowQuery :
    ∃ k, (run id (.sample (.sample [1] []) []) slowQueryTold).vars 0 = stored 42 ∧
      ((run id (.sample (.sample [1] []) []) slowQueryTold).sys.w.conns k).freed = 1 := by
  have htold : ∀ l ∈ slowQueryTold, l.2.tid = 0 ∨ l.2.tid = 42 := by decide
  have hls : Lib.Meets (step id) (Told fun _ => 42) (init (.sample (.sample [1] []) []))
      slowQueryTold :=
    Lib.Meets.of_mem _ fun l hl _ _ _ _ _ _ _ _ _ => htold l hl
  rcases thread_id_of_request id _ _ _ hls 0 with
    hempty | hnone | ⟨i, r, k, _, _, hstored, ⟨hact, _⟩ | ⟨_, hfreed, _⟩⟩
  · exact absurd (congrArg VariableValue.valid hempty) (by decide)
  · exact absurd (congrArg Option.isSome hnone) (by decide)
  · cases hact
  · exact ⟨k, hstored, hfreed⟩

/-! ## The last timeout -/

/-- No timer expires of the database connection of another request with the same variables. -/
def Alone (main : ℕ → ℕ) (i : ℕ) (s : Tids) (l : Label × ThreadIdEnv) : Prop :=
  ∀ e j w b, l.1 = .run e → s.sys.active = some (j, .event (.db w true b)) → main j = main i →
    j = i

/-- The variable stays as it is behind a request that gives up for good. -/
lemma vars_of_doomed (ho : s.sys.Owned) (hi : s.sys.reqs[i]? = some r) (h : s.sys.Doomed i r)
    {l : Label × ThreadIdEnv} (halone : Alone main i s l) :
    (s.step main l).vars (main i) = s.vars (main i) := by
  rcases varsStep_cases main s l.1 l.2 with hvars | ⟨e, j, w, b, r', hl, hact, hj, hvars⟩
  · rw [step_vars, hvars]
  · have hne : main i ≠ main j := by
      intro hmain
      obtain rfl : j = i := halone e j w b hl hact hmain.symm
      obtain rfl : r' = r := Option.some.inj (hj.symm.trans hi)
      rcases h with hdead | ⟨_, hact' | ⟨rc, hact'⟩⟩
      · have hc := ho.custody hi
        rw [Sys.pos_of_active hact] at hc
        cases hdead.symm.trans hc.ok.1
      · cases hact.symm.trans hact'
      · cases hact.symm.trans hact'
    rw [step_vars, hvars, Function.update_of_ne hne]

/-- **The thread of a query that takes too long.**  In all states of all runs in which a timer of
the database connection of a request expires, and its query has been submitted: all calls for the
request have been made on this connection.  The number that libdrizzle tells for it, if it is not 0
and memory is not missing, is stored in `$drizzle_thread_id`, and stays there, whatever follows, as
long as no timer expires of the database connection of another request with the same variables. -/
theorem thread_id_of_timeout (main : ℕ → ℕ) (conf : Conf) (ls : List (Label × ThreadIdEnv))
    {w b : Bool} (hact : (run main conf ls).sys.active = some (i, .event (.db w true b)))
    (hi : (run main conf ls).sys.reqs[i]? = some r) (hstarted : r.queryStarted) :
    ∃ k, r.drizzleCon = some k ∧ (∀ j call, .lib j call ∈ r.hist → j = k) ∧
      ∀ e (env : ThreadIdEnv) ls', env.tid ≠ 0 → env.indexed → env.alloc →
        Lib.Meets (step main) (Alone main i) ((run main conf ls).step main (.run e, env)) ls' →
        (run main conf (ls ++ (.run e, env) :: ls')).vars (main i) = stored env.tid := by
  have ho : (run main conf ls).sys.Owned :=
    sys_run main conf ls ▸ Sys.owned_run conf (ls.map Prod.fst)
  have hattempts : r.Attempts := by
    rw [sys_run] at hi
    exact (Local.attempts_kept.run conf (Sys.known_meets conf (ls.map Prod.fst))).req i r hi
  have hc := ho.custody hi
  rw [Sys.pos_of_active hact] at hc
  obtain ⟨k, hk⟩ := St.holds_of_event hc hstarted
  have hdc : r.drizzleCon = some k := hk.drizzleCon
  refine ⟨k, hdc, hattempts.own k hk.connection,
    fun e env ls' htid hindexed halloc halone => ?_⟩
  have hrun : run main conf (ls ++ (.run e, env) :: ls') =
      Lib.run (step main) ((run main conf ls).step main (.run e, env)) ls' := Lib.run_append ..
  rw [hrun]
  generalize run main conf ls = s at ho hact hi halone
  obtain ⟨hbound, _⟩ := List.getElem?_eq_some_iff.mp hi
  have hvars : (s.step main (.run e, env)).vars (main i) = stored env.tid := by
    simp only [step_vars, varsStep, hact, hi, hdc,
      VariableValue.setThreadId_stored htid hindexed halloc, Function.update_self]
  have hdoomed : ∃ r', (s.step main (.run e, env)).sys.reqs[i]? = some r' ∧
      (s.step main (.run e, env)).sys.Doomed i r' := by
    rw [step_sys, expire ho hact hi e]
    exact ⟨_, List.getElem?_set_self hbound, .inr ⟨hstarted, .inl rfl⟩⟩
  refine (Lib.run_invariant_of (C := Alone main i) (I := fun s : Tids => s.sys.Owned)
    (J := fun s : Tids => s.vars (main i) = stored env.tid ∧
      ∃ r', s.sys.reqs[i]? = some r' ∧ s.sys.Doomed i r')
    (fun _ l _ ho => Sys.Owned.step ho l.1) (fun s l hl ho h => ?_)
    (Sys.Owned.step ho (.run e)) ⟨hvars, hdoomed⟩ halone).1
  obtain ⟨hval, r', hi', hd⟩ := h
  exact ⟨(vars_of_doomed ho hi' hd hl).trans hval, Sys.doomed_step ho hi' hd l.1⟩

theorem thread_id_of_timeout_slowQuery :
    (run id (.sample (.sample [1] []) []) (slowQuery ++ [(.run {}, { tid := 42 }),
      (.run {}, { tid := 43 })])).vars 0 = stored 42 := by
  obtain ⟨_, _, _, hset⟩ :=
    thread_id_of_timeout id (.sample (.sample [1] []) []) slowQuery (i := 0) rfl rfl (by decide)
  refine hset {} { tid := 42 } [(.run {}, { tid := 43 })] (by decide) rfl rfl ⟨?_, trivial⟩
  intro e j w b _ _ hmain
  exact hmain

end Tids
end DrizzleNginx
