/-
# Who owns the connections of a worker process

The steps of the module move the connections of one request in good order.  This file lifts
that to the worker process with all its requests: `Owned` says that every database connection
is owned by one request, or by one item of the cache, or has been freed, once.  It is an
invariant of all runs.  That the counter of active connections counts the owned ones is an
invariant of the runs in which no allocation fails while a request holds the connection by
which it is rejected.
-/
import DrizzleNginx.Proofs.Order

namespace DrizzleNginx

variable {s : Sys} {i j k : ℕ} {p : Pos} {q r : Req}

namespace Sys

/-- Where a request stands. -/
def pos (s : Sys) (i : ℕ) : Pos :=
  match s.active with
  | some (j, p) => if j = i then p else .loop
  | none => .loop

/-- How many places hold a connection: the requests and the items of the cache. -/
def holders (s : Sys) (k : ℕ) : ℕ :=
  s.reqs.countP (fun r => r.connection = some k)
    + s.w.pool.cache.countP fun item => item.connection = some k

/-- The number of database connections that requests hold. -/
def dbConns (s : Sys) : ℕ := s.reqs.countP fun r => (s.view r).onDb

/-- Every connection has its owner. -/
structure Owned (s : Sys) : Prop where
  id : ∀ (i : ℕ) (r : Req), s.reqs[i]? = some r → r.id = i
  ok : ∀ i r, s.reqs[i]? = some r → (s.pos i).Ok (s.view r)
  ordered : ∀ (i : ℕ) (r : Req), s.reqs[i]? = some r → r.Ordered (s.pos i)
  items : ∀ item ∈ s.w.pool.cache, ∃ k, item.Pools s.w k
  queues : s.w.pool.cache.length + s.w.pool.free.length = s.w.conf.maxCached
  drizzle : ∀ k < s.w.nconns, (s.w.conns k).drizzle → s.holders k + (s.w.conns k).freed = 1
  shadow : ∀ k < s.w.nconns, (s.w.conns k).drizzle = false →
    s.holders k ≤ 1 ∧ (s.w.conns k).freed = 0

/-- The counter of active connections counts those that are held; if the pool rejects requests
when it is full, then they are not more than it may hold. -/
structure Counted (s : Sys) : Prop where
  active : s.w.pool.activeConns = .ofNat (s.dbConns + s.w.pool.cache.length)
  le : s.w.conf.maxCached ≠ 0 → s.w.conf.overflow = .reject →
    s.dbConns + s.w.pool.cache.length ≤ s.w.conf.maxCached
  counts : ∀ i r, s.reqs[i]? = some r → (s.pos i).Counts (s.view r)

/-- A condition on the steps of the module, as a condition on the steps of the worker
process. -/
def RunsMeet (D : Env → Pos → St → Prop) (s : Sys) (l : Label) : Prop :=
  ∀ env i p r, l = .run env → s.active = some (i, p) → s.reqs[i]? = some r → D env p (s.view r)

lemma runsMeet_run {D : Env → Pos → St → Prop} {s : Sys} {env : Env} : RunsMeet D s (.run env) ↔
    ∀ q ∈ s.active, ∀ r ∈ s.reqs[q.1]?, D env q.2 (s.view r) := by
  constructor
  · rintro h ⟨i, p⟩ hact r hi
    exact h env i p r rfl hact hi
  · rintro h _ i p r ⟨⟩ hact hi
    exact h (i, p) hact r hi

instance (D : Env → Pos → St → Prop) [∀ env p s, Decidable (D env p s)] (s : Sys) (l : Label) :
    Decidable (RunsMeet D s l) :=
  match l with
  | .run _ => decidable_of_iff _ runsMeet_run.symm
  | .arrive _ => .isTrue fun _ _ _ _ h => nomatch h
  | .event _ _ => .isTrue fun _ _ _ _ h => nomatch h
  | .client _ _ => .isTrue fun _ _ _ _ h => nomatch h
  | .idle _ _ => .isTrue fun _ _ _ _ h => nomatch h
  | .tick _ => .isTrue fun _ _ _ _ h => nomatch h

/-- Two conditions on the steps of the module. -/
lemma RunsMeet.and {D E : Env → Pos → St → Prop} {ls : List Label}
    (hd : Lib.Meets step (RunsMeet D) s ls) (he : Lib.Meets step (RunsMeet E) s ls) :
    Lib.Meets step (RunsMeet fun env p s => D env p s ∧ E env p s) s ls :=
  (hd.and he).mono fun _ _ h env i p r hl hact hi =>
    ⟨h.1 env i p r hl hact hi, h.2 env i p r hl hact hi⟩

end Sys

/-! ## What a request holds -/

lemma Pos.Ok.cases {s : St} (h : p.Ok s) :
    s.r.connection = none ∨ (∃ k, s.Holds k) ∨ ∃ k, s.HoldsPlaceholder k := by
  cases p with
  | loop => exact h.2.imp (fun h => h.connection) fun h => h.2.imp_right St.Rejected.holds
  | handlerTail => exact h.imp (fun h => h.connection) fun h => h.2.imp_right St.Rejected.holds
  | event e => exact .inr (h.2.imp_right fun h => h.2.holds)
  | crashed => exact .inl h.2.connection
  | dbdConnect => exact .inl h.2.1.connection
  | dbdConnected rc =>
    cases rc with
    | again =>
      rcases h.2 with hk | hidle | hk
      · exact .inr (.inl hk)
      · exact .inl hidle.connection
      · exact .inr (.inr hk.holds)
    | done => exact .inr (.inl h.2)
    | declined => exact .inl h.2.connection
    | error => exact .inl h.2.connection
    | busy => exact .inl h.2.connection
    | ok => exact h.elim
    | http status => exact h.elim
  | next ft =>
    cases ft with
    | nolive => exact .inl h.2.connection
    | error => exact h.2.imp St.Idle.connection (Or.imp_right St.Rejected.holds)
    | timeout => exact h.2.imp St.Idle.connection (Or.imp_right St.Rejected.holds)
  | done rc =>
    cases rc with
    | declined => exact h.elim
    | _ => exact .inr (.inl h.2)
  | finalize rc =>
    cases rc with
    | declined => exact h.elim
    | _ => exact h.2.imp St.Idle.connection (Or.imp_right St.Rejected.holds)
  | _ => exact .inr (.inl h.2)

lemma Pos.Ok.lt {s : St} (h : p.Ok s) (hk : s.r.connection = some k) : k < s.w.nconns := by
  rcases h.cases with hnone | ⟨j, hj⟩ | ⟨j, hj⟩
  · simp [hnone] at hk
  · obtain rfl : j = k := by simpa [hj.connection] using hk
    exact hj.lt
  · obtain rfl : j = k := by simpa [hj.connection] using hk
    exact hj.lt

lemma Pos.Ok.live {s : St} (h : p.Ok s) (hk : s.r.connection = some k) : s.r.live := by
  cases p with
  | loop =>
    rcases h.2 with hended | h
    · simp [hended.connection] at hk
    · exact h.1
  | handlerTail =>
    rcases h with hended | h
    · simp [hended.connection] at hk
    · exact h.1
  | dbdConnected rc =>
    cases rc with
    | ok => exact h.elim
    | http status => exact h.elim
    | _ => exact h.1
  | next ft => cases ft <;> exact h.1
  | done rc =>
    cases rc with
    | declined => exact h.elim
    | _ => exact h.1
  | finalize rc =>
    cases rc with
    | declined => exact h.elim
    | _ => exact h.1
  | _ => exact h.1

/-- What a request at rest holds does not change when others move. -/
lemma Pos.Ok.loop_of_frame {s s' : St} (h : Pos.loop.Ok s) (hr : s'.r = s.r)
    (hn : s.w.nconns ≤ s'.w.nconns)
    (hconns : ∀ k, s.r.connection = some k → s'.w.conns k = s.w.conns k) : Pos.loop.Ok s' := by
  refine ⟨by rw [hr]; exact h.1, h.2.imp ?_ ?_⟩
  · exact fun he => ⟨by rw [hr]; exact he.live, by rw [hr]; exact he.connection⟩
  · rintro ⟨hlive, hs⟩
    refine ⟨by rw [hr]; exact hlive, hs.imp ?_ ?_⟩
    · rintro ⟨k, hk⟩
      refine ⟨k, by rw [hr]; exact hk.connection,
        by rw [hr]; exact hk.drizzleCon, Nat.lt_of_lt_of_le hk.lt hn, ?_, ?_⟩
      · rw [hconns k hk.connection]; exact hk.drizzle
      · rw [hconns k hk.connection]; exact hk.fd
    · rintro ⟨hstatus, hstarted, k, hk⟩
      refine ⟨by rw [hr]; exact hstatus, by rw [hr]; exact hstarted, k,
        by rw [hr]; exact hk.connection, by rw [hr]; exact hk.drizzleCon,
        Nat.lt_of_lt_of_le hk.lt hn, ?_, ?_⟩
      · rw [hconns k hk.connection]; exact hk.drizzle
      · rw [hconns k hk.connection]; exact hk.fd

/-- What a request holds does not depend on anything else. -/
lemma Pos.Ok.congr {s s' : St} (h : p.Ok s) (hw : s'.w = s.w) (hlive : s'.r.live = s.r.live)
    (hin : s'.r.inHandler = s.r.inHandler) (hstatus : s'.r.statusN = s.r.statusN)
    (hstarted : s'.r.queryStarted = s.r.queryStarted)
    (hc : s'.r.connection = s.r.connection) (hd : s'.r.drizzleCon = s.r.drizzleCon) : p.Ok s' := by
  have hholds : ∀ k, s'.Holds k ↔ s.Holds k := fun k =>
    ⟨fun hk => ⟨hc ▸ hk.connection, hd ▸ hk.drizzleCon, hw ▸ hk.lt, hw ▸ hk.drizzle, hw ▸ hk.fd⟩,
      fun hk => ⟨hc ▸ hk.connection, hd ▸ hk.drizzleCon, hw ▸ hk.lt, hw ▸ hk.drizzle, hw ▸ hk.fd⟩⟩
  have hrej : s'.Rejected ↔ s.Rejected :=
    ⟨fun h => h.congr hw.symm hstatus.symm hstarted.symm hc.symm hd.symm,
      fun h => h.congr hw hstatus hstarted hc hd⟩
  have hidle : s'.Idle ↔ s.Idle :=
    ⟨fun h => ⟨hc ▸ h.connection, hd ▸ h.drizzleCon⟩,
      fun h => ⟨hc ▸ h.connection, hd ▸ h.drizzleCon⟩⟩
  have hended : s'.Ended ↔ s.Ended :=
    ⟨fun h => ⟨hlive ▸ h.live, hc ▸ h.connection⟩, fun h => ⟨hlive ▸ h.live, hc ▸ h.connection⟩⟩
  unfold Pos.Ok
  simp only [hholds, hidle, hended, hrej, hlive, hin, hstarted]
  exact h

/-- A request at rest is not rejected by what others do. -/
lemma Pos.Counts.loop_of_frame {s s' : St} (h : Pos.loop.Counts s) (hok : Pos.loop.Ok s)
    (hr : s'.r = s.r)
    (hconns : ∀ k, s.r.connection = some k → s'.w.conns k = s.w.conns k) : Pos.loop.Counts s' := by
  rintro ⟨hstatus, hstarted, k, hk⟩
  have hc : s.r.connection = some k := hr ▸ hk.connection
  refine h ⟨hr ▸ hstatus, hr ▸ hstarted, k, hc, hr ▸ hk.drizzleCon, hok.lt hc, ?_, ?_⟩
  · rw [← hconns k hc]; exact hk.drizzle
  · rw [← hconns k hc]; exact hk.fd

/-- That the counter is right does not depend on anything else. -/
lemma Pos.Counts.congr {s s' : St} (h : p.Counts s) (hw : s'.w = s.w)
    (hin : s'.r.inHandler = s.r.inHandler) (hsent : s'.r.requestSent = s.r.requestSent)
    (hstatus : s'.r.statusN = s.r.statusN) (hstarted : s'.r.queryStarted = s.r.queryStarted)
    (hc : s'.r.connection = s.r.connection) (hd : s'.r.drizzleCon = s.r.drizzleCon)
    (hhist : s'.r.hist = s.r.hist) : p.Counts s' := by
  have hrej : s'.Rejected ↔ s.Rejected :=
    ⟨fun h => h.congr hw.symm hstatus.symm hstarted.symm hc.symm hd.symm,
      fun h => h.congr hw hstatus hstarted hc hd⟩
  have hidle : s'.Idle ↔ s.Idle :=
    ⟨fun h => ⟨hc ▸ h.connection, hd ▸ h.drizzleCon⟩,
      fun h => ⟨hc ▸ h.connection, hd ▸ h.drizzleCon⟩⟩
  have hfirst : s'.r.First ↔ s.r.First :=
    ⟨fun h => ⟨hin ▸ h.inHandler, hsent ▸ h.requestSent, hhist ▸ h.hist⟩,
      fun h => ⟨hin ▸ h.inHandler, hsent ▸ h.requestSent, hhist ▸ h.hist⟩⟩
  unfold Pos.Counts
  simp only [hidle, hrej, hfirst, hw, hin, hsent]
  exact h

namespace Sys

lemma pos_of_active (h : s.active = some (i, p)) : s.pos i = p := by simp [pos, h]

lemma pos_of_active_ne (h : s.active = some (i, p)) (hne : j ≠ i) : s.pos j = .loop := by
  simp [pos, h, hne.symm]

lemma pos_of_idle (h : s.active = none) (j : ℕ) : s.pos j = .loop := by simp [pos, h]

@[simp] lemma pos_put (s : Sys) (i : ℕ) (ps : Pos × St) :
    (s.put i ps).pos i = ps.1.after ps.2.r := by
  unfold pos put Pos.after
  cases ps.1.settle ps.2.r <;> simp

lemma pos_put_of_ne (ps : Pos × St) (hne : j ≠ i) : (s.put i ps).pos j = .loop := by
  unfold pos put
  cases ps.1.settle ps.2.r <;> simp [hne.symm]

namespace Owned

lemma holders_eq_zero (h : s.Owned) (hk : s.w.nconns ≤ k) : s.holders k = 0 := by
  have h₁ : s.reqs.countP (fun r => r.connection = some k) = 0 := by
    refine List.countP_eq_zero.mpr fun r hr => ?_
    obtain ⟨i, hi⟩ := List.mem_iff_getElem?.mp hr
    simp only [decide_eq_true_eq]
    intro hc
    exact absurd ((h.ok i r hi).lt hc) (Nat.not_lt.mpr hk)
  have h₂ : s.w.pool.cache.countP (fun item => item.connection = some k) = 0 := by
    refine List.countP_eq_zero.mpr fun item hmem => ?_
    obtain ⟨j, hj⟩ := h.items item hmem
    have := hj.lt
    simp only [hj.connection, Option.some.injEq, decide_eq_true_eq]
    omega
  rw [holders, h₁, h₂]

lemma holders_le (h : s.Owned) (k : ℕ) : s.holders k ≤ 1 := by
  rcases Nat.lt_or_ge k s.w.nconns with hk | hk
  · cases hd : (s.w.conns k).drizzle with
    | true =>
      have := h.drizzle k hk hd
      omega
    | false => exact (h.shadow k hk hd).1
  · rw [h.holders_eq_zero hk]
    exact Nat.zero_le _

lemma view_holders_le (hi : s.reqs[i]? = some r) (k : ℕ) : (s.view r).holders k ≤ s.holders k := by
  unfold St.holders holders
  refine Nat.add_le_add_right ?_ _
  by_cases hc : r.connection = some k
  · have := Lib.countP_pos_of_getElem? (t := fun r : Req => decide (r.connection = some k)) hi
      (by simpa using hc)
    simpa [view, hc] using this
  · simp [view, hc]

lemma custody (h : s.Owned) (hi : s.reqs[i]? = some r) : Custody (s.pos i) (s.view r) where
  ok := h.ok i r hi
  ordered := h.ordered i r hi
  items := h.items
  holders_le k := Nat.le_trans (view_holders_le hi k) (h.holders_le k)
  queues := h.queues

/-- A connection of another request is not held by this one, and not by the cache. -/
lemma view_holders_of_other (h : s.Owned) (hi : s.reqs[i]? = some r) (hj : s.reqs[j]? = some q)
    (hne : j ≠ i) (hk : q.connection = some k) : (s.view r).holders k = 0 := by
  have hle := h.holders_le k
  have hq := Lib.countP_pos_of_getElem? (t := fun r : Req => decide (r.connection = some k)) hj
    (by simpa using hk)
  have hr : r.connection ≠ some k := by
    intro hc
    have := Lib.two_le_countP (t := fun r : Req => decide (r.connection = some k)) hne hj hi
      (by simpa using hk) (by simpa using hc)
    rw [holders] at hle
    omega
  rw [holders] at hle
  simp only [St.holders, view, hr, if_false]
  omega

end Owned

/-! ## Steps of one request -/

lemma holders_put (hi : s.reqs[i]? = some r) (ps : Pos × St) (k : ℕ) :
    (s.put i ps).holders k + (s.view r).holders k = s.holders k + ps.2.holders k := by
  have := Lib.countP_set_add (u := ps.2.r) (t := fun r : Req => decide (r.connection = some k)) hi
  simp only [holders, St.holders, put, view]
  by_cases hr : r.connection = some k <;> by_cases hr' : ps.2.r.connection = some k <;>
    simp [hr, hr'] at this ⊢ <;> omega

/-- A step of a request that moves connections in good order keeps every connection in the
hands of an owner. -/
lemma Owned.put (h : s.Owned) (hi : s.reqs[i]? = some r) (hrest : ∀ j, j ≠ i → s.pos j = .loop)
    {c : Prop} {ps : Pos × St} (hm : Moves c (s.view r) ps.2)
    (hok : (ps.1.after ps.2.r).Ok ps.2) (hord : ps.2.r.Ordered (ps.1.after ps.2.r)) :
    (s.put i ps).Owned := by
  -- the others are at rest, and their connections are left alone
  have hframe : ∀ j q k, j ≠ i → s.reqs[j]? = some q → q.connection = some k →
      ps.2.w.conns k = s.w.conns k := by
    intro j q k hne hj hk
    have hlt : k < s.w.nconns := (h.ok j q hj).lt hk
    exact hm.frame k hlt (h.view_holders_of_other hi hj hne hk)
  have hholders := fun k => holders_put hi ps k
  constructor
  case id =>
    refine Lib.forall_set (P := fun j q => q.id = j) h.id ?_ fun _ _ _ _ hq => hq
    exact hm.id.trans (h.id i r hi)
  case ok =>
    refine Lib.forall_set (P := fun j q => (s.pos j).Ok (s.view q)) h.ok ?_ ?_
    · rw [pos_put]
      exact hok
    · intro j q hne hj hq
      rw [pos_put_of_ne ps hne]
      rw [hrest j hne] at hq
      exact hq.loop_of_frame rfl hm.nconns fun k hk => hframe j q k hne hj hk
  case ordered =>
    refine Lib.forall_set (P := fun j q => q.Ordered (s.pos j)) h.ordered ?_ fun j q hne hj hq => ?_
    · rw [pos_put]
      exact hord
    · rw [pos_put_of_ne ps hne]
      rwa [hrest j hne] at hq
  case items =>
    intro item hmem
    rcases hm.items item hmem with hold | ⟨k, _, hk⟩
    · obtain ⟨k, hk⟩ := h.items item hold
      have hconn : ps.2.w.conns k = s.w.conns k := hm.kept item hmem hold k hk.connection
      refine ⟨k, hk.connection, hk.drizzleCon, Nat.lt_of_lt_of_le hk.lt hm.nconns, ?_, ?_⟩
      · exact (congrArg Conn.drizzle hconn).trans hk.drizzle
      · exact fun hfd => hk.fd ((congrArg Conn.fd hconn).symm.trans hfd)
    · exact ⟨k, hk⟩
  case queues => exact hm.queues.trans (h.queues.trans (congrArg Conf.maxCached hm.conf).symm)
  case drizzle =>
    intro k hk hd
    have hkeep := hholders k
    rcases Nat.lt_or_ge k s.w.nconns with hold | hnew
    · have hd' : (s.w.conns k).drizzle := (hm.drizzle k hold).symm.trans hd
      have h₁ := hm.balance k hold hd'
      have h₂ := h.drizzle k hold hd'
      simp only [Sys.view] at h₁ hkeep
      simp only [Sys.put] at hkeep ⊢
      omega
    · have h₁ := (hm.new k hnew hk).2
      have h₂ := h.holders_eq_zero hnew
      have h₃ := Nat.le_trans (view_holders_le hi k) (Nat.le_of_eq h₂)
      have hd' : (ps.2.w.conns k).drizzle := hd
      rw [if_pos hd'] at h₁
      simp only [Sys.put] at hkeep ⊢
      omega
  case shadow =>
    intro k hk hd
    have hkeep := hholders k
    rcases Nat.lt_or_ge k s.w.nconns with hold | hnew
    · have hd' : (s.w.conns k).drizzle = false := (hm.drizzle k hold).symm.trans hd
      have h₁ := hm.shadow k hold hd'
      have h₂ := h.shadow k hold hd'
      simp only [Sys.view] at h₁ hkeep
      simp only [Sys.put] at hkeep ⊢
      omega
    · have h₁ := hm.new k hnew hk
      have h₂ := h.holders_eq_zero hnew
      have hd' : (ps.2.w.conns k).drizzle = false := hd
      rw [hd', if_neg (by simp)] at h₁
      simp only [Sys.put] at hkeep ⊢
      omega

/-- The number of held connections changes as that of the request does. -/
lemma dbConns_put (ho : s.Owned) (hi : s.reqs[i]? = some r) {c : Prop} {ps : Pos × St}
    (hm : Moves c (s.view r) ps.2) : (s.put i ps).dbConns + ps.2.w.pool.cache.length +
      (s.view r).counted = s.dbConns + s.w.pool.cache.length + ps.2.counted := by
  have hothers : ∀ j q, j ≠ i → s.reqs[j]? = some q →
      ((s.put i ps).view q).onDb = (s.view q).onDb := by
    intro j q hne hj
    cases hk : q.connection with
    | none => simp [St.onDb, view, hk]
    | some k =>
      have hlt : k < s.w.nconns := (ho.ok j q hj).lt hk
      simp only [St.onDb, view, hk, Option.any_some]
      exact congrArg Conn.drizzle (hm.frame k hlt (ho.view_holders_of_other hi hj hne hk))
  have hdb : (s.put i ps).dbConns + (s.view r).onDb.toNat = s.dbConns + ps.2.onDb.toNat := by
    have := Lib.countP_set_add_of (u := ps.2.r) hi hothers
    simp only [dbConns, Bool.toNat, cond_eq_ite]
    exact this
  simp only [St.counted, Sys.view] at hdb ⊢
  omega

/-- In a pool that rejects requests the counter does not wrap around. -/
lemma Counted.toNat (h : s.Counted) (hmax : s.w.conf.maxCached ≠ 0)
    (hrej : s.w.conf.overflow = .reject) :
    s.w.pool.activeConns.toNat = s.dbConns + s.w.pool.cache.length := by
  have hle := h.le hmax hrej
  have hlt := s.w.conf.maxCached_lt
  rw [h.active]
  exact UInt64.toNat_ofNat_of_lt' (show _ < 2 ^ 64 by omega)

/-- The counter of a request and of the worker process. -/
lemma Counted.bounded (h : s.Counted) (hi : s.reqs[i]? = some r) : (s.view r).Bounded := by
  intro hmax hrej
  have hle := h.le hmax hrej
  have hn := h.toNat hmax hrej
  have hdb : (s.view r).onDb.toNat ≤ s.dbConns := by
    cases hdb : (s.view r).onDb with
    | false => exact Nat.zero_le _
    | true => exact Lib.countP_pos_of_getElem? (t := fun r : Req => (s.view r).onDb) hi hdb
  refine ⟨?_, ?_⟩
  · simp only [St.counted, view] at hdb hn ⊢
    omega
  · simp only [view]
    omega

/-- The counter follows a step of a request that moves connections in good order. -/
lemma Counted.put (h : s.Counted) (ho : s.Owned) (hi : s.reqs[i]? = some r)
    (hrest : ∀ j, j ≠ i → s.pos j = .loop) {c : Prop} (hc : c)
    {ps : Pos × St} (hm : Moves c (s.view r) ps.2) (hcounts : (ps.1.after ps.2.r).Counts ps.2) :
    (s.put i ps).Counted where
  active := by
    have hdb := dbConns_put ho hi hm
    have hact := hm.active hc
    rw [show (s.view r).w.pool.activeConns = _ from h.active] at hact
    exact counter_eq hact hdb
  le hmax hrej := by
    have hconf : ps.2.w.conf = s.w.conf := hm.conf
    have hmax' : s.w.conf.maxCached ≠ 0 := hconf ▸ hmax
    have hrej' : s.w.conf.overflow = .reject := hconf ▸ hrej
    have hdb := dbConns_put ho hi hm
    have hle := h.le hmax' hrej'
    show (s.put i ps).dbConns + ps.2.w.pool.cache.length ≤ ps.2.w.conf.maxCached
    rw [hconf]
    by_cases hlt : (s.view r).counted < ps.2.counted
    · -- one more connection is held, and the pool was not full
      obtain ⟨hone, hroom⟩ := hm.room hlt
      obtain ⟨_, htop⟩ := h.bounded hi hmax' hrej'
      have hn := h.toNat hmax' hrej'
      have hnot : ¬ s.w.conf.maxCached ≤ s.w.pool.activeConns.toNat :=
        fun hfull => hroom ⟨hmax', hrej', hfull⟩
      omega
    · omega
  counts := by
    refine Lib.forall_set (P := fun j q => (s.pos j).Counts (s.view q)) h.counts ?_ ?_
    · rw [pos_put]
      exact hcounts
    · intro j q hne hj hq
      have hok := ho.ok j q hj
      rw [pos_put_of_ne ps hne]
      rw [hrest j hne] at hq hok
      exact hq.loop_of_frame hok rfl fun k hk =>
        hm.frame k (hok.lt hk) (ho.view_holders_of_other hi hj hne hk)

/-! ## Steps of the worker process -/

/-- What a step of the worker process does. -/
inductive Step (s : Sys) : Label → Sys → Prop
  | skip (l : Label) : Step s l s
  | arrive (a : Arrival) (hidle : s.active = none) : Step s (.arrive a) { s with
      reqs := s.reqs ++ [Req.init s.w s.reqs.length a]
      active := some (s.reqs.length, if a.initOk then .dbdConnect else .finalize (.http 500)) }
  | event {i : ℕ} (e : Event) {r : Req} (hidle : s.active = none) (hi : s.reqs[i]? = some r)
      (he : e.enabled (s.view r)) :
      Step s (.event i e) (s.put i (.event e, e.fire (s.view r)))
  | client {i : ℕ} {r : Req} (cc : ClientConn) (hi : s.reqs[i]? = some r) :
      Step s (.client i cc) { s with reqs := s.reqs.set i (r.onClient cc) }
  | idle (slot : ℕ) (stale : Bool) (hidle : s.active = none) :
      Step s (.idle slot stale) { s with w := s.w.closeHandler slot stale }
  | tick (now : Msec) (hidle : s.active = none) :
      Step s (.tick now) { s with w := { s.w with now := now } }
  | run (env : Env) {i : ℕ} {p : Pos} {r : Req} (hact : s.active = some (i, p))
      (hi : s.reqs[i]? = some r) : Step s (.run env) (s.put i ((s.view r).exec env p))

/-- What a step of the worker process does: there are no other cases. -/
lemma step_cases (s : Sys) (l : Label) : Step s l (s.step l) := by
  cases l with
  | arrive a =>
    simp only [step]
    split
    · exact .skip _
    · next hidle => exact .arrive a hidle
  | event i e =>
    simp only [step]
    split
    · next hidle hi =>
      split
      · next he => exact .event e hidle hi he
      · exact .skip _
    · exact .skip _
  | client i cc =>
    simp only [step]
    split
    · exact .skip _
    · next hi => exact .client cc hi
  | idle slot stale =>
    simp only [step]
    split
    · exact .skip _
    · next hidle => exact .idle slot stale hidle
  | tick now =>
    simp only [step]
    split
    · exact .skip _
    · next hidle => exact .tick now hidle
  | run env =>
    simp only [step]
    split
    · exact .skip _
    · next hact =>
      split
      · exact .skip _
      · next hi => exact .run env hact hi

/-- What becomes of one request in a step of the worker process. -/
lemma req_step (hi : s.reqs[i]? = some r) (l : Label) {P : Req → Prop} (hsame : P r)
    (hfire : ∀ e : Event, P (e.fire (s.view r)).r) (hclient : ∀ cc, P (r.onClient cc))
    (hexec : ∀ env p, s.active = some (i, p) → P ((s.view r).exec env p).2.r) :
    ∃ r', (s.step l).reqs[i]? = some r' ∧ P r' := by
  obtain ⟨hlt, _⟩ := List.getElem?_eq_some_iff.mp hi
  -- a step of some request
  have hset : ∀ {j : ℕ} {q q' : Req}, s.reqs[j]? = some q → (j = i → q = r → P q') →
      ∃ r', (s.reqs.set j q')[i]? = some r' ∧ P r' := by
    intro j q q' hj hq
    rcases eq_or_ne j i with rfl | hne
    · exact ⟨q', List.getElem?_set_self hlt, hq rfl (Option.some.inj (hj.symm.trans hi))⟩
    · exact ⟨r, (List.getElem?_set_ne hne).trans hi, hsame⟩
  have hstep := step_cases s l
  generalize s.step l = s' at hstep ⊢
  cases hstep with
  | skip => exact ⟨r, hi, hsame⟩
  | arrive a hidle => exact ⟨r, (List.getElem?_append_left hlt).trans hi, hsame⟩
  | event e hidle hj he => exact hset hj fun _ heq => heq ▸ hfire e
  | client cc hj => exact hset hj fun _ heq => heq ▸ hclient cc
  | idle slot stale hidle => exact ⟨r, hi, hsame⟩
  | tick now hidle => exact ⟨r, hi, hsame⟩
  | run env hact hj =>
    refine hset hj fun hji heq => ?_
    subst hji
    exact heq ▸ hexec env _ hact

lemma holders_set (hi : s.reqs[i]? = some r) (hc : q.connection = r.connection) (k : ℕ) :
    ({ s with reqs := s.reqs.set i q } : Sys).holders k = s.holders k := by
  have := Lib.countP_set_add (u := q) (t := fun r : Req => decide (r.connection = some k)) hi
  rw [hc] at this
  simp only [holders]
  omega

/-- Changing a request in what concerns neither its life nor its connection has no effect on
the owners. -/
lemma Owned.setReq (h : s.Owned) (hi : s.reqs[i]? = some r) (hid : q.id = r.id)
    (hok : (s.pos i).Ok (s.view q)) (hord : q.Ordered (s.pos i))
    (hc : q.connection = r.connection) :
    ({ s with reqs := s.reqs.set i q } : Sys).Owned where
  id := Lib.forall_set (P := fun j q => q.id = j) h.id (hid.trans (h.id i r hi))
    fun _ _ _ _ hq => hq
  ok := Lib.forall_set (P := fun j q => (s.pos j).Ok (s.view q)) h.ok hok fun _ _ _ _ hq => hq
  ordered := Lib.forall_set (P := fun j q => q.Ordered (s.pos j)) h.ordered hord
    fun _ _ _ _ hq => hq
  items := h.items
  queues := h.queues
  drizzle k hk hd := by
    rw [holders_set hi hc]
    exact h.drizzle k hk hd
  shadow k hk hd := by
    rw [holders_set hi hc]
    exact h.shadow k hk hd

/-- A request arrives without a connection. -/
lemma Owned.arrive (h : s.Owned) (hidle : s.active = none) (a : Arrival) (p : Pos)
    (hp : p = if a.initOk then .dbdConnect else .finalize (.http 500)) :
    ({ s with
      reqs := s.reqs ++ [Req.init s.w s.reqs.length a], active := some (s.reqs.length, p) } :
        Sys).Owned := by
  have hholders : ∀ k, ({ s with
      reqs := s.reqs ++ [Req.init s.w s.reqs.length a], active := some (s.reqs.length, p) } :
        Sys).holders k = s.holders k := by
    intro k
    simp [holders, Req.init]
  constructor
  case id => exact Lib.forall_concat (P := fun j q => q.id = j) h.id rfl fun _ _ _ hq => hq
  case ok =>
    refine Lib.forall_concat (P := fun j q => (s.pos j).Ok (s.view q)) h.ok ?_ fun j q hj hq => ?_
    · rw [pos_of_active rfl, hp]
      split
      · exact ⟨rfl, ⟨rfl, rfl⟩, rfl⟩
      · exact ⟨rfl, .inl ⟨rfl, rfl⟩⟩
    · have hlt : j < s.reqs.length := (List.getElem?_eq_some_iff.mp hj).1
      rw [pos_of_active_ne rfl (by omega)]
      rwa [pos_of_idle hidle] at hq
  case ordered =>
    refine Lib.forall_concat (P := fun j q => q.Ordered (s.pos j)) h.ordered ?_ fun j q hj hq => ?_
    · refine ⟨fun _ _ => rfl, fun hrecv => ?_, nofun, nofun⟩
      rw [pos_of_active rfl, hp] at hrecv
      split at hrecv <;> cases hrecv
    · have hlt : j < s.reqs.length := (List.getElem?_eq_some_iff.mp hj).1
      rw [pos_of_active_ne rfl (by omega)]
      rwa [pos_of_idle hidle] at hq
  case items => exact h.items
  case queues => exact h.queues
  case drizzle =>
    intro k hk hd
    rw [hholders]
    exact h.drizzle k hk hd
  case shadow =>
    intro k hk hd
    rw [hholders]
    exact h.shadow k hk hd

lemma stays_fire (e : Event) (s : St) : Stays s (e.fire s) := by
  unfold Event.fire
  split
  · split
    · exact .refl s
    · next k hk =>
      split
      · exact (Stays.refl s).modWrite hk _
      · exact (Stays.refl s).modRead hk _
  · exact (Stays.refl s).modReq rfl rfl
  · exact .refl s

lemma marks_fire (e : Event) (s : St) : (e.fire s).r.marks = s.r.marks := by
  unfold Event.fire
  split
  · split
    · rfl
    · split <;> rfl
  · rfl
  · rfl

/-- Of the connection by which a request is rejected only the timer expires. -/
lemma spares_of_enabled (e : Event) {s : St} (he : e.enabled s) (hrej : s.Rejected) : e.spares := by
  obtain ⟨k, hk⟩ := hrej.holds
  unfold Event.enabled at he
  cases e with
  | db write timedout broken =>
    cases timedout with
    | true => rfl
    | false => simp [hk.connection, hk.fd] at he
  | _ => rfl

/-- An event is handled for a request that is alive and at rest, and so holds a
connection. -/
lemma ok_fire {e : Event} {s : St} (hok : Pos.loop.Ok s) (he : e.enabled s) :
    (Pos.event e).Ok (e.fire s) := by
  have hstays := stays_fire e s
  have hlive : s.r.live := by
    simp only [Event.enabled, Bool.and_eq_true] at he
    exact he.1
  obtain ⟨_, hstatus, hstarted, _⟩ : _ ∧ _ ∧ _ ∧ _ := by
    simpa only [Req.marks, Prod.mk.injEq] using marks_fire e s
  refine ⟨hstays.live.trans hlive, ?_⟩
  rcases hok.2 with hended | ⟨_, ⟨k, hk⟩ | hrej⟩
  · exact absurd (hended.live.symm.trans hlive) (by simp)
  · exact .inl ⟨k, hstays.holds hk⟩
  · exact .inr ⟨spares_of_enabled e he hrej, hstays.rejected hrej hstatus hstarted⟩

/-- An event does not reject a request. -/
lemma counts_fire (e : Event) {s : St} (h : Pos.loop.Counts s) :
    (Pos.event e).Counts (e.fire s) := by
  obtain ⟨_, hstatus, hstarted, _⟩ : _ ∧ _ ∧ _ ∧ _ := by
    simpa only [Req.marks, Prod.mk.injEq] using marks_fire e s
  exact fun hrej => h ((stays_fire e s).rejected_of hrej hstatus hstarted)

/-- The handler of an event is entered. -/
lemma Owned.event (h : s.Owned) (hidle : s.active = none) (hi : s.reqs[i]? = some r) {e : Event}
    (he : e.enabled (s.view r)) : (s.put i (.event e, e.fire (s.view r))).Owned := by
  have hstays := stays_fire e (s.view r)
  have hok := h.ok i r hi
  have hord := h.ordered i r hi
  rw [pos_of_idle hidle] at hok hord
  exact h.put hi (fun j _ => pos_of_idle hidle j)
    (hstays.moves (c := True) (h.custody hi).holders_le) (ok_fire hok he)
    (hord.move (marks_fire e (s.view r)) nofun nofun)

/-- What `closeHandler` does. -/
lemma closeHandler_cases (w : Worker) (slot : ℕ) (stale : Bool) :
    w.closeHandler slot stale = w ∨
    ∃ item l₁ l₂, w.pool.cache = l₁ ++ item :: l₂ ∧ w.closeHandler slot stale =
      { w.freeConnection item.connection item.drizzleCon with pool := { w.pool with
          activeConns := w.pool.activeConns - 1
          cache := l₁ ++ l₂
          free := item :: w.pool.free } } := by
  unfold Worker.closeHandler
  split
  · exact .inl rfl
  · split
    case h_1 => exact .inl rfl
    case h_2 item hfind =>
      right
      obtain ⟨hslot, l₁, l₂, hcache, hne⟩ := List.find?_eq_some_iff_append.mp hfind
      refine ⟨item, l₁, l₂, hcache, ?_⟩
      have herase : (w.pool.cache.eraseP fun item => item.slot = slot) = l₁ ++ l₂ := by
        rw [hcache, List.eraseP_append_right _ (by simpa using hne),
          List.eraseP_cons_of_pos (p := fun item : Item => item.slot = slot) hslot]
      simp [herase]

/-- An idle connection is closed. -/
lemma Owned.idle (h : s.Owned) (hidle : s.active = none) (slot : ℕ) (stale : Bool) :
    ({ s with w := s.w.closeHandler slot stale } : Sys).Owned := by
  rcases closeHandler_cases s.w slot stale with heq | ⟨item, l₁, l₂, hcache, heq⟩
  · rw [heq]
    exact h
  · obtain ⟨k, hk⟩ := h.items item (by rw [hcache]; simp)
    rw [hk.connection, hk.drizzleCon] at heq
    obtain ⟨w, hw⟩ : ∃ w, w = s.w.closeHandler slot stale := ⟨_, rfl⟩
    rw [← hw]
    rw [heq] at hw
    have hconf : w.conf = s.w.conf := by simp [hw]
    have hn : w.nconns = s.w.nconns := by simp [hw]
    have hcache' : w.pool.cache = l₁ ++ l₂ := by simp [hw]
    have hconn : ∀ j, w.conns j = if j = k then (s.w.conns k).free.close else s.w.conns j := by
      intro j
      rw [hw]
      exact Worker.freeConnection_conns k j
    have hident : ∀ j, (w.conns j).drizzle = (s.w.conns j).drizzle := by
      intro j
      rw [hconn]
      split
      case isTrue hj => rw [hj]; rfl
      case isFalse => rfl
    have hholders : ∀ j, ({ s with w := w } : Sys).holders j + (if j = k then 1 else 0) =
        s.holders j := by
      intro j
      simp only [holders, hcache, hcache', List.countP_append, List.countP_cons, hk.connection,
        Option.some.injEq, eq_comm (a := j)]
      simp
      omega
    -- the connection was nowhere else
    have hfree : ({ s with w := w } : Sys).holders k = 0 := by
      have h₁ := h.holders_le k
      have h₂ := hholders k
      rw [if_pos rfl] at h₂
      omega
    have hne : ∀ (j : ℕ) (q : Req), s.reqs[j]? = some q → q.connection ≠ some k := by
      intro j q hj hc
      have := Lib.countP_pos_of_getElem? (t := fun r : Req => decide (r.connection = some k)) hj
        (by simpa using hc)
      simp only [holders] at hfree
      omega
    constructor
    case id => exact h.id
    case ok =>
      intro j q hj
      have hq := h.ok j q hj
      rw [pos_of_idle hidle] at hq
      rw [pos_of_idle (s := { s with w := w }) hidle]
      refine hq.loop_of_frame rfl (Nat.le_of_eq hn.symm) fun i hi => ?_
      have hik : i ≠ k := by
        rintro rfl
        exact hne j q hj hi
      exact (hconn i).trans (if_neg hik)
    case ordered =>
      intro j q hj
      have hq := h.ordered j q hj
      rw [pos_of_idle hidle] at hq
      rwa [pos_of_idle (s := { s with w := w }) hidle]
    case items =>
      intro it hmem
      have hmem' : it ∈ l₁ ++ l₂ := hcache' ▸ hmem
      obtain ⟨j, hj⟩ := h.items it (by
        rw [hcache]
        simp only [List.mem_append, List.mem_cons] at hmem' ⊢
        tauto)
      have hjk : j ≠ k := by
        rintro rfl
        have : 0 < w.pool.cache.countP fun it => it.connection = some j :=
          List.countP_pos_iff.mpr ⟨it, hmem, by simpa using hj.connection⟩
        simp only [holders] at hfree
        omega
      refine ⟨j, hj.connection, hj.drizzleCon, hn ▸ hj.lt, (hident j).trans hj.drizzle, ?_⟩
      have := hj.fd
      rwa [← (hconn j).trans (if_neg hjk)] at this
    case queues =>
      have := h.queues
      have hfree : w.pool.free = item :: s.w.pool.free := by simp [hw]
      simp only [hcache, hcache', hfree, hconf, List.length_append, List.length_cons] at this ⊢
      omega
    case drizzle =>
      intro j hj hd
      have h₁ := h.drizzle j (hn ▸ hj) ((hident j).symm.trans hd)
      have h₂ := hholders j
      rw [hconn]
      split
      case isTrue hjk =>
        rw [if_pos hjk] at h₂
        subst hjk
        simp only [Conn.free, Conn.close]
        omega
      case isFalse hjk =>
        rw [if_neg hjk] at h₂
        omega
    case shadow =>
      intro j hj hd
      have h₁ := h.shadow j (hn ▸ hj) ((hident j).symm.trans hd)
      have h₂ := hholders j
      have hjk : j ≠ k := by
        rintro rfl
        simp [hident, hk.drizzle] at hd
      rw [if_neg hjk] at h₂
      rw [hconn, if_neg hjk]
      omega

/-- Every step keeps every connection in the hands of an owner. -/
theorem Owned.step (h : s.Owned) (l : Label) : (s.step l).Owned := by
  have hstep := step_cases s l
  generalize s.step l = s' at hstep ⊢
  cases hstep with
  | skip => exact h
  | arrive a hidle => exact h.arrive hidle a _ rfl
  | event e hidle hi he => exact h.event hidle hi he
  | client cc hi =>
    have hord := h.ordered _ _ hi
    exact h.setReq hi rfl ((h.ok _ _ hi).congr rfl rfl rfl rfl rfl rfl rfl)
      ⟨hord.status, hord.receives, hord.state, hord.drains⟩ rfl
  | idle slot stale hidle => exact h.idle hidle slot stale
  | tick now hidle =>
    refine ⟨h.id, fun j q hj => ?_, fun j q hj => ?_, fun item hmem => ?_, h.queues, h.drizzle,
      h.shadow⟩
    · have hq := h.ok j q hj
      rw [pos_of_idle hidle] at hq
      rw [pos_of_idle (s := { s with w := { s.w with now := now } }) hidle]
      exact hq.loop_of_frame rfl (Nat.le_refl _) fun _ _ => rfl
    · have hq := h.ordered j q hj
      rw [pos_of_idle hidle] at hq
      rwa [pos_of_idle (s := { s with w := { s.w with now := now } }) hidle]
    · exact (h.items item hmem).imp fun k hk =>
        ⟨hk.connection, hk.drizzleCon, hk.lt, hk.drizzle, hk.fd⟩
  | run env hact hi =>
    have hc := h.custody hi
    rw [pos_of_active hact] at hc
    have hadv := St.exec_advances env hc
    exact h.put hi (fun j hne => pos_of_active_ne hact hne) hadv.moves hadv.ok
      (St.exec_ordered env hc)

/-- An idle connection that is closed is not counted any more. -/
lemma Counted.idle (h : s.Counted) (ho : s.Owned) (hidle : s.active = none) (slot : ℕ)
    (stale : Bool) : ({ s with w := s.w.closeHandler slot stale } : Sys).Counted := by
  rcases closeHandler_cases s.w slot stale with heq | ⟨item, l₁, l₂, hcache, heq⟩
  · rw [heq]
    exact h
  obtain ⟨k, hk⟩ := ho.items item (by rw [hcache]; simp)
  rw [hk.connection, hk.drizzleCon] at heq
  have hdrizzle : ∀ j, ((s.w.closeHandler slot stale).conns j).drizzle =
      (s.w.conns j).drizzle := by
    intro j
    rw [heq]
    refine (congrArg Conn.drizzle (Worker.freeConnection_conns k j)).trans ?_
    split
    case isTrue hj => rw [hj]; rfl
    case isFalse => rfl
  have hdb : ({ s with w := s.w.closeHandler slot stale } : Sys).dbConns = s.dbConns := by
    simp only [dbConns, St.onDb, view, hdrizzle]
  have hlen : s.w.pool.cache.length = (l₁ ++ l₂).length + 1 := by
    simp only [hcache, List.length_append, List.length_cons]
    omega
  constructor
  case active =>
    have hpred := counter_pred (n := s.w.pool.activeConns)
      (show s.dbConns + s.w.pool.cache.length = s.dbConns + (l₁ ++ l₂).length + 1 by omega)
    have heq' := counter_eq (n := s.w.pool.activeConns - 1)
      (m := s.dbConns + s.w.pool.cache.length) (hpred.trans (by rw [h.active])) (Nat.add_comm _ _)
    rw [hdb, heq]
    exact heq'
  case le =>
    intro hmax hrej
    rw [hdb]
    simp only [heq, Worker.freeConnection_conf] at hmax hrej ⊢
    have := h.le hmax hrej
    omega
  case counts =>
    intro j q (hj : s.reqs[j]? = some q)
    have hok := ho.ok j q hj
    have hq := h.counts j q hj
    rw [pos_of_idle hidle] at hok hq
    rw [pos_of_idle (s := { s with w := s.w.closeHandler slot stale }) hidle]
    refine hq.loop_of_frame hok rfl fun i hi => ?_
    -- a connection of the pool is not that of a request
    have hne : i ≠ k := by
      rintro rfl
      have := ho.holders_le i
      have hr := Lib.countP_pos_of_getElem? (t := fun r : Req => decide (r.connection = some i)) hj
        (decide_eq_true hi)
      have hpos : 0 < s.w.pool.cache.countP fun it => it.connection = some i :=
        List.countP_pos_iff.mpr ⟨item, by rw [hcache]; simp, by simpa using hk.connection⟩
      rw [holders] at this
      omega
    show (s.w.closeHandler slot stale).conns i = s.w.conns i
    rw [heq]
    exact (Worker.freeConnection_conns k i).trans (if_neg hne)

/-- Every step, unless an allocation fails while a request holds the connection by which it is
rejected, keeps the count. -/
theorem Counted.step (h : s.Counted) (ho : s.Owned) {l : Label}
    (hl : RunsMeet PlaceholderKept s l) : (s.step l).Counted := by
  have hstep := step_cases s l
  generalize s.step l = s' at hstep ⊢
  cases hstep with
  | skip => exact h
  | arrive a hidle =>
    have hdb : (s.reqs ++ [Req.init s.w s.reqs.length a]).countP (fun r => (s.view r).onDb) =
        s.dbConns := by
      simp [dbConns, List.countP_append, St.onDb, view, Req.init]
    refine ⟨?_, fun hmax hrej => ?_, ?_⟩
    · exact h.active.trans (congrArg (fun n => UInt64.ofNat (n + s.w.pool.cache.length)) hdb.symm)
    · exact Nat.le_trans (Nat.le_of_eq (congrArg (· + s.w.pool.cache.length) hdb))
        (h.le hmax hrej)
    · refine Lib.forall_concat (P := fun j q => (Sys.pos _ j).Counts (Sys.view _ q)) h.counts ?_
        fun j q hj hq => ?_
      · rw [pos_of_active rfl]
        split
        · exact .inl ⟨rfl, rfl, fun e he => absurd he List.not_mem_nil⟩
        · rintro ⟨_, _, k, hk⟩
          cases hk.connection
      · have hlt : j < s.reqs.length := (List.getElem?_eq_some_iff.mp hj).1
        rw [pos_of_active_ne rfl (by omega)]
        rwa [pos_of_idle hidle] at hq
  | @event i e r hidle hi he =>
    have hstays := stays_fire e (s.view r)
    refine h.put ho hi (fun j _ => pos_of_idle hidle j) trivial
      (hstays.moves (ho.custody hi).holders_le) (counts_fire e ?_)
    have hq := h.counts i r hi
    rwa [pos_of_idle hidle] at hq
  | @client i r cc hi =>
    have hcount := Lib.countP_set_add (u := r.onClient cc)
      (t := fun r : Req => (s.view r).onDb) hi
    have hdb : (s.reqs.set i (r.onClient cc)).countP (fun r => (s.view r).onDb) = s.dbConns :=
      Nat.add_right_cancel hcount
    refine ⟨?_, fun hmax hrej => ?_, ?_⟩
    · exact h.active.trans (congrArg (fun n => UInt64.ofNat (n + s.w.pool.cache.length)) hdb.symm)
    · exact Nat.le_trans (Nat.le_of_eq (congrArg (· + s.w.pool.cache.length) hdb))
        (h.le hmax hrej)
    · exact Lib.forall_set (P := fun j q => (s.pos j).Counts (s.view q)) h.counts
        ((h.counts i r hi).congr rfl rfl rfl rfl rfl rfl rfl rfl) fun _ _ _ _ hq => hq
  | idle slot stale hidle => exact h.idle ho hidle slot stale
  | tick now hidle =>
    refine ⟨h.active, h.le, fun j q hj => ?_⟩
    have hok := ho.ok j q hj
    have hq := h.counts j q hj
    rw [pos_of_idle hidle] at hok hq
    rw [pos_of_idle (s := { s with w := { s.w with now := now } }) hidle]
    exact hq.loop_of_frame hok rfl fun _ _ => rfl
  | @run env i p r hact hi =>
    have hc := ho.custody hi
    have hcounts := h.counts i r hi
    rw [pos_of_active hact] at hc hcounts
    exact h.put ho hi (fun j hne => pos_of_active_ne hact hne) hcounts
      (St.exec_advances env hc).moves
      (St.exec_counts hc (h.bounded hi) hcounts (hl env i p r rfl hact hi))

/-- Before the first request there is nothing to own. -/
lemma owned_init (conf : Conf) : (init conf).Owned where
  id i r hi := by simp [init] at hi
  ok i r hi := by simp [init] at hi
  ordered i r hi := by simp [init] at hi
  items item hmem := by simp [init, Pool.init] at hmem
  queues := by simp [init, Pool.init]
  drizzle k hk := absurd hk (Nat.not_lt_zero k)
  shadow k hk := absurd hk (Nat.not_lt_zero k)

lemma counted_init (conf : Conf) : (init conf).Counted where
  active := rfl
  le _ _ := Nat.zero_le _
  counts i r hi := by simp [init] at hi

/-- In every state of every run, every connection has its owner. -/
theorem owned_run (conf : Conf) (ls : List Label) : (run conf ls).Owned :=
  Lib.run_invariant (C := fun _ _ => True) (fun _ l _ h => h.step l) (owned_init conf)
    (Lib.Meets.of_forall (fun _ _ => trivial) ls _)

/-- The configuration does not change. -/
lemma Owned.conf_step (h : s.Owned) (l : Label) : (s.step l).w.conf = s.w.conf := by
  have hstep := step_cases s l
  generalize s.step l = s' at hstep ⊢
  cases hstep with
  | event e _ hi _ => exact (stays_fire e _).conf
  | idle slot stale hidle =>
    rcases closeHandler_cases s.w slot stale with heq | ⟨_, _, _, _, heq⟩ <;> simp [heq]
  | @run env i p r hact hi =>
    have hc := h.custody hi
    rw [pos_of_active hact] at hc
    exact (St.exec_advances env hc).moves.conf
  | _ => rfl

lemma conf_run (conf : Conf) (ls : List Label) : (run conf ls).w.conf = conf :=
  Lib.run_invariant_of (C := fun _ _ => True) (I := Sys.Owned) (J := fun s => s.w.conf = conf)
    (fun _ l _ h => h.step l) (fun _ l _ ho h => (ho.conf_step l).trans h) (owned_init conf) rfl
    (Lib.Meets.of_forall (fun _ _ => trivial) ls _)

/-- In every state of every run in which no allocation fails at the wrong time, the counter of
active connections is right. -/
theorem counted_run (conf : Conf) {ls : List Label}
    (hls : Lib.Meets Sys.step (RunsMeet PlaceholderKept) (init conf) ls) :
    (run conf ls).Counted :=
  Lib.run_invariant_of (I := Sys.Owned) (fun _ l _ h => h.step l)
    (fun _ _ hl ho h => h.step ho hl) (owned_init conf) (counted_init conf) hls

lemma Owned.drizzleCon (h : s.Owned) (hi : s.reqs[i]? = some r) (hk : r.connection = some k)
    (hd : (s.w.conns k).drizzle) : r.drizzleCon = some k := by
  rcases (h.ok i r hi).cases with hnone | ⟨j, hj⟩ | ⟨j, hj⟩
  · exact absurd (hnone.symm.trans hk) (by simp)
  · obtain rfl : j = k := Option.some.inj (hj.connection.symm.trans hk)
    exact hj.drizzleCon
  · obtain rfl : j = k := Option.some.inj (hj.connection.symm.trans hk)
    exact absurd (hj.drizzle.symm.trans hd) (by simp)

/-- Whatever libdrizzle, nginx and the clients do, in all states of all runs every database
connection that has been created is owned by exactly one request, or by exactly one item of the
cache, or it has been freed, once; the owner has both the connection and its `drizzle_con_st`.  The
counter of active connections is the number of database connections that live requests hold,
together with the length of the cache, if no allocation has failed while a request held the
connection by which it is rejected. -/
theorem every_connection_owned (conf : Conf) (ls : List Label) :
    (Lib.Meets Sys.step (RunsMeet PlaceholderKept) (init conf) ls →
      (run conf ls).w.pool.activeConns =
        .ofNat ((run conf ls).reqs.countP (fun r => r.live && ((run conf ls).view r).onDb)
          + (run conf ls).w.pool.cache.length)) ∧
    (∀ k < (run conf ls).w.nconns, ((run conf ls).w.conns k).drizzle →
      ((run conf ls).reqs.countP (fun r => r.connection = some k),
        (run conf ls).w.pool.cache.countP (fun item => item.connection = some k),
        ((run conf ls).w.conns k).freed) ∈ [(1, 0, 0), (0, 1, 0), (0, 0, 1)]) ∧
    (∀ r ∈ (run conf ls).reqs, ∀ k, r.connection = some k → ((run conf ls).w.conns k).drizzle →
      r.drizzleCon = some k) ∧
    (∀ item ∈ (run conf ls).w.pool.cache, ∃ k < (run conf ls).w.nconns,
      item.connection = some k ∧ item.drizzleCon = some k ∧
        ((run conf ls).w.conns k).drizzle) := by
  have h := owned_run conf ls
  have hcount := @counted_run conf ls
  generalize run conf ls = s at h hcount ⊢
  refine ⟨fun hls => ?_, fun k hk hd => ?_, fun r hr k hk hd => ?_, fun item hmem => ?_⟩
  · -- only live requests hold connections
    have hlive : s.reqs.countP (fun r => r.live && (s.view r).onDb) = s.dbConns := by
      refine List.countP_congr fun r hr => ?_
      obtain ⟨i, hi⟩ := List.mem_iff_getElem?.mp hr
      simp only [Bool.and_eq_true, and_iff_right_iff_imp, St.onDb, Option.any_eq_true]
      rintro ⟨k, hk, _⟩
      exact (h.ok i r hi).live hk
    rw [hlive]
    exact (hcount hls).active
  · have := h.drizzle k hk hd
    simp only [holders] at this
    simp only [List.mem_cons, Prod.mk.injEq, List.not_mem_nil, or_false]
    omega
  · obtain ⟨i, hi⟩ := List.mem_iff_getElem?.mp hr
    exact h.drizzleCon hi hk hd
  · obtain ⟨k, hk⟩ := h.items item hmem
    exact ⟨k, hk.lt, hk.connection, hk.drizzleCon, hk.drizzle⟩

/-- The charset of a new connection is set, a request sends its query, and a second one takes
the connection from the pool. -/
def twoQueries : List Label := sampleArrival (.sample [7]) ++ [.run { query := .ok (.sample 0) },
  .run { query := .ok (.sample 0) }, .run {}, .run {}, .run {}, .arrive (.sample [8]), .run {},
  .run {}, .run {}, .run {}, .run {}]

theorem every_connection_owned_twoQueries :
    (run (.sample (.sample [1] [9]) []) twoQueries).w.pool.activeConns = 1 ∧
    ((run (.sample (.sample [1] [9]) []) twoQueries).reqs.countP (fun r => r.connection = some 0),
      (run (.sample (.sample [1] [9]) []) twoQueries).w.pool.cache.countP
        (fun item => item.connection = some 0),
      ((run (.sample (.sample [1] [9]) []) twoQueries).w.conns 0).freed) ∈
        [(1, 0, 0), (0, 1, 0), (0, 0, 1)] := by
  obtain ⟨hcount, howned, _⟩ := every_connection_owned (.sample (.sample [1] [9]) []) twoQueries
  refine ⟨(hcount (by decide)).trans (by decide), howned 0 (by decide) (by decide)⟩

/-- An upstream with a pool for one connection, which rejects what goes beyond it. -/
def rejecting : Conf := { Conf.sample (.sample [1] []) [] with overflow := .reject }

/-- A request waits until its query is sent.  A second one, whose body is in a file, finds the pool
full, and there is no memory for the chain link of the body; then the first one times out. -/
def rejectedInFile : List Label := sampleArrival (.sample [7]) ++ [.run {}, .run {}, .run {},
  .arrive { Arrival.sample [8] with bodyInFile := true }, .run {}, .run { allocBody := false },
  .run {}, .run {}, .event 0 (.db true true false), .run {}, .run {}, .run {}]

/-- Without this, the connection by which a request is rejected is counted down: here the counter
wraps around. -/
theorem rejection_counted : ¬ ∀ conf ls, (run conf ls).active = none →
    (run conf ls).w.pool.activeConns =
      .ofNat ((run conf ls).reqs.countP (fun r => r.live && ((run conf ls).view r).onDb)
        + (run conf ls).w.pool.cache.length) := by
  intro h
  have hwrapped : (run rejecting rejectedInFile).w.pool.activeConns = .ofNat (2 ^ 64 - 1) := by
    decide
  have hnone : (run rejecting rejectedInFile).reqs.countP
        (fun r => r.live && ((run rejecting rejectedInFile).view r).onDb)
      + (run rejecting rejectedInFile).w.pool.cache.length = 0 := by decide
  have hcount := h rejecting rejectedInFile (by decide)
  rw [hwrapped, hnone] at hcount
  exact absurd hcount (by decide)

end Sys
end DrizzleNginx
