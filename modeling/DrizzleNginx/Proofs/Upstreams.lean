/-
# What an upstream sees of a worker process

The connections that have been created for an upstream, its pool and its requests are a worker
process with a single upstream, and every step of the worker process is a step of it, or none.  The
connections of other upstreams are masked: their numbers are taken, and that is all.

So what has been proved about connections and their owners holds for each upstream, and a connection
that one upstream owns is not with another.
-/
import DrizzleNginx.Model.Site
import DrizzleNginx.Proofs.Ownership

namespace DrizzleNginx

/-- A worker process without the connections of others. -/
def Worker.mask (mine : ℕ → Bool) (w : Worker) : Worker :=
  { w with conns := fun k => if mine k then w.conns k else {} }

/-- A state without the connections of others. -/
def St.mask (mine : ℕ → Bool) (s : St) : St := { s with w := s.w.mask mine }

/-! ## Masks -/

section Mask

variable {mine mine' : ℕ → Bool} {w : Worker} {s s' : St} {p : Pos} {c : Prop} {k : ℕ}

lemma Worker.mask_conns (hk : mine k) : (w.mask mine).conns k = w.conns k := if_pos hk

lemma Worker.mask_conns_of_not (hk : ¬ mine k) : (w.mask mine).conns k = {} := if_neg hk

lemma Worker.own_of_drizzle (h : ((w.mask mine).conns k).drizzle) : mine k := by
  by_contra hk
  rw [mask_conns_of_not hk] at h
  cases h

lemma Worker.own_of_fd (h : ((w.mask mine).conns k).fd = some 0) : mine k := by
  by_contra hk
  rw [mask_conns_of_not hk] at h
  cases h

/-- A request holds only connections that it can see. -/
lemma Pos.Ok.own (h : p.Ok (s.mask mine)) (hk : s.r.connection = some k) : mine k := by
  rcases h.cases with hnone | ⟨j, hj⟩ | ⟨j, hj⟩
  · cases hnone.symm.trans hk
  · obtain rfl := Option.some.inj (hj.connection.symm.trans hk)
    exact Worker.own_of_drizzle hj.drizzle
  · obtain rfl := Option.some.inj (hj.connection.symm.trans hk)
    exact Worker.own_of_fd hj.fd

/-- What a request holds depends on its own connection alone. -/
lemma Pos.Ok.congr_conns (h : p.Ok s) (hr : s'.r = s.r) (hn : s'.w.nconns = s.w.nconns)
    (hconns : ∀ k, s.r.connection = some k → s'.w.conns k = s.w.conns k) : p.Ok s' := by
  have hholds : ∀ k, s'.Holds k ↔ s.Holds k := by
    intro k
    constructor
    · intro hk
      have hc : s.r.connection = some k := hr ▸ hk.connection
      exact ⟨hc, hr ▸ hk.drizzleCon, hn ▸ hk.lt, hconns k hc ▸ hk.drizzle, hconns k hc ▸ hk.fd⟩
    · intro hk
      have heq := hconns k hk.connection
      exact ⟨hr ▸ hk.connection, hr ▸ hk.drizzleCon, hn ▸ hk.lt, heq ▸ hk.drizzle, heq ▸ hk.fd⟩
  have hplace : ∀ k, s'.HoldsPlaceholder k ↔ s.HoldsPlaceholder k := by
    intro k
    constructor
    · intro hk
      have hc : s.r.connection = some k := hr ▸ hk.connection
      exact ⟨hc, hr ▸ hk.drizzleCon, hn ▸ hk.lt, hconns k hc ▸ hk.drizzle, hconns k hc ▸ hk.fd⟩
    · intro hk
      have heq := hconns k hk.connection
      exact ⟨hr ▸ hk.connection, hr ▸ hk.drizzleCon, hn ▸ hk.lt, heq ▸ hk.drizzle, heq ▸ hk.fd⟩
  have hidle : s'.Idle ↔ s.Idle :=
    ⟨fun h => ⟨hr ▸ h.connection, hr ▸ h.drizzleCon⟩,
      fun h => ⟨hr ▸ h.connection, hr ▸ h.drizzleCon⟩⟩
  have hended : s'.Ended ↔ s.Ended :=
    ⟨fun h => ⟨hr ▸ h.live, hr ▸ h.connection⟩, fun h => ⟨hr ▸ h.live, hr ▸ h.connection⟩⟩
  have hrej : s'.Rejected ↔ s.Rejected :=
    ⟨fun h => ⟨hr ▸ h.status, hr ▸ h.started, h.holds.imp fun k => (hplace k).mp⟩,
      fun h => ⟨hr ▸ h.status, hr ▸ h.started, h.holds.imp fun k => (hplace k).mpr⟩⟩
  unfold Pos.Ok
  simp only [hholds, hrej, hidle, hended, hr]
  exact h

lemma Pos.Ok.mask (h : p.Ok s) (hheld : ∀ k, s.r.connection = some k → mine k) :
    p.Ok (s.mask mine) :=
  h.congr_conns rfl rfl fun k hk => Worker.mask_conns (hheld k hk)

lemma Pos.Ok.of_mask (h : p.Ok (s.mask mine)) : p.Ok s :=
  h.congr_conns rfl rfl fun _ hk => (Worker.mask_conns (h.own hk)).symm

lemma St.Rejected.mask (h : s.Rejected) (hheld : ∀ k, s.r.connection = some k → mine k) :
    (s.mask mine).Rejected := by
  obtain ⟨hstatus, hstarted, k, hk⟩ := h
  have heq := Worker.mask_conns (w := s.w) (hheld k hk.connection)
  exact ⟨hstatus, hstarted, k, hk.connection, hk.drizzleCon, hk.lt,
    (congrArg Conn.drizzle heq).trans hk.drizzle, (congrArg Conn.fd heq).trans hk.fd⟩

lemma St.Rejected.of_mask (h : (s.mask mine).Rejected) : s.Rejected := by
  obtain ⟨hstatus, hstarted, k, hk⟩ := h
  have heq := Worker.mask_conns (w := s.w) (Worker.own_of_fd hk.fd)
  exact ⟨hstatus, hstarted, k, hk.connection, hk.drizzleCon, hk.lt,
    (congrArg Conn.drizzle heq).symm.trans hk.drizzle, (congrArg Conn.fd heq).symm.trans hk.fd⟩

/-- That the counter is right depends on the connection of the request alone. -/
lemma Pos.counts_mask (hheld : ∀ k, s.r.connection = some k → mine k) :
    p.Counts (s.mask mine) ↔ p.Counts s := by
  have hrej : (s.mask mine).Rejected ↔ s.Rejected := ⟨.of_mask, fun h => h.mask hheld⟩
  have hidle : (s.mask mine).Idle ↔ s.Idle :=
    ⟨fun h => ⟨h.connection, h.drizzleCon⟩, fun h => ⟨h.connection, h.drizzleCon⟩⟩
  have hfull : (s.mask mine).w.Full ↔ s.w.Full := Iff.rfl
  unfold Pos.Counts
  simp only [hrej, hidle, hfull]
  exact Iff.rfl

lemma St.counted_mask (hheld : ∀ k, s.r.connection = some k → mine k) :
    (s.mask mine).counted = s.counted := by
  have hdb : (s.mask mine).onDb = s.onDb := by
    unfold onDb
    cases hk : s.r.connection with
    | none => simp [mask, hk]
    | some k => simp only [mask, hk, Option.any_some, Worker.mask_conns (hheld k hk)]
  rw [counted, counted, hdb]
  rfl

lemma St.Bounded.of_mask (h : (s.mask mine).Bounded)
    (hheld : ∀ k, s.r.connection = some k → mine k) : s.Bounded := by
  intro hmax hrej
  rw [← counted_mask hheld]
  exact h hmax hrej

lemma Item.Pools.own {item : Item} (h : item.Pools (w.mask mine) k) : mine k :=
  Worker.own_of_drizzle h.drizzle

lemma Item.Pools.of_mask {item : Item} (h : item.Pools (w.mask mine) k) : item.Pools w k where
  connection := h.connection
  drizzleCon := h.drizzleCon
  lt := h.lt
  drizzle := Worker.mask_conns (w := w) h.own ▸ h.drizzle
  fd := Worker.mask_conns (w := w) h.own ▸ h.fd

/-- Masking hides nothing that a step needs to know. -/
lemma Custody.of_mask (h : Custody p (s.mask mine)) : Custody p s where
  ok := h.ok.of_mask
  ordered := h.ordered
  items item hmem := (h.items item hmem).imp fun _ hk => hk.of_mask
  holders_le := h.holders_le
  queues := h.queues

lemma Custody.own (h : Custody p (s.mask mine)) (hk : 1 ≤ s.holders k) : mine k := by
  unfold St.holders at hk
  by_cases hc : s.r.connection = some k
  · exact h.ok.own hc
  · rw [if_neg hc, Nat.zero_add, Nat.one_le_iff_ne_zero, ← Nat.pos_iff_ne_zero,
      List.countP_pos_iff] at hk
    obtain ⟨item, hmem, hk⟩ := hk
    obtain ⟨j, hj⟩ := h.items item hmem
    obtain rfl := Option.some.inj (hj.connection.symm.trans (of_decide_eq_true hk))
    exact hj.own

/-- What is held behind a step is new, or was held before. -/
lemma Moves.held (h : Moves c s s') (hk : k < s.w.nconns) (hheld : 1 ≤ s'.holders k) :
    1 ≤ s.holders k := by
  by_contra hnone
  have hzero : s.holders k = 0 := by omega
  cases hd : (s.w.conns k).drizzle with
  | true =>
    have hbal := h.balance k hk hd
    rw [h.frame k hk hzero] at hbal
    omega
  | false =>
    have := (h.shadow k hk hd).1
    omega

variable (hold : ∀ k < s.w.nconns, mine' k = mine k)
  (hnew : ∀ k, s.w.nconns ≤ k → k < s'.w.nconns → mine' k)
  (hheld : ∀ k, 1 ≤ s.holders k → mine k)

include hold hnew hheld

/-- The connections behind a step belong to the upstream, like those before. -/
lemma Moves.own (h : Moves c s s') (hk : k < s'.w.nconns) (hk' : 1 ≤ s'.holders k) : mine' k := by
  rcases Nat.lt_or_ge k s.w.nconns with hlt | hge
  · rw [hold k hlt]
    exact hheld k (h.held hlt hk')
  · exact hnew k hge hk

/-- A step that moves connections in good order does so for one who sees only them. -/
lemma Moves.mask (h : Moves c s s') (hlt : ∀ k, 1 ≤ s.holders k → k < s.w.nconns)
    (hlt' : ∀ k, s'.r.connection = some k → k < s'.w.nconns) :
    Moves c (s.mask mine) (s'.mask mine') := by
  have hconns : ∀ k < s.w.nconns, mine k → ((s'.mask mine').w.conns k = s'.w.conns k ∧
      (s.mask mine).w.conns k = s.w.conns k) := fun k hk hown =>
    ⟨Worker.mask_conns ((hold k hk).trans hown), Worker.mask_conns hown⟩
  have hnone : ∀ k < s.w.nconns, ¬ mine k → s.holders k = 0 ∧ s'.holders k = 0 ∧
      (s'.mask mine').w.conns k = {} ∧ (s.mask mine).w.conns k = {} := by
    intro k hk hown
    have hzero : s.holders k = 0 := by
      by_contra hne
      exact hown (hheld k (Nat.one_le_iff_ne_zero.mpr hne))
    refine ⟨hzero, ?_, Worker.mask_conns_of_not (by rwa [hold k hk]), Worker.mask_conns_of_not hown⟩
    by_contra hne
    have := h.held hk (Nat.one_le_iff_ne_zero.mpr hne)
    omega
  have hconn : ∀ k, s.r.connection = some k → 1 ≤ s.holders k := by
    intro k hk
    rw [St.holders, if_pos hk]
    exact Nat.le_add_right 1 _
  have hconn' : ∀ k, s'.r.connection = some k → 1 ≤ s'.holders k := by
    intro k hk
    rw [St.holders, if_pos hk]
    exact Nat.le_add_right 1 _
  have hcounted : (s.mask mine).counted = s.counted :=
    St.counted_mask fun k hk => hheld k (hconn k hk)
  have hcounted' : (s'.mask mine').counted = s'.counted :=
    St.counted_mask fun k hk => h.own hold hnew hheld (hlt' k hk) (hconn' k hk)
  constructor
  case conf => exact h.conf
  case nconns => exact h.nconns
  case id => exact h.id
  case drizzle =>
    intro k hk
    by_cases hown : mine k
    · rw [(hconns k hk hown).1, (hconns k hk hown).2]
      exact h.drizzle k hk
    · rw [(hnone k hk hown).2.2.1, (hnone k hk hown).2.2.2]
  case balance =>
    intro k hk hd
    have hown : mine k := Worker.own_of_drizzle hd
    rw [(hconns k hk hown).2] at hd
    rw [(hconns k hk hown).1, (hconns k hk hown).2]
    exact h.balance k hk hd
  case shadow =>
    intro k hk hd
    by_cases hown : mine k
    · rw [(hconns k hk hown).2] at hd
      rw [(hconns k hk hown).1, (hconns k hk hown).2]
      exact h.shadow k hk hd
    · rw [(hnone k hk hown).2.2.1, (hnone k hk hown).2.2.2]
      exact ⟨Nat.le_of_eq ((hnone k hk hown).2.1.trans (hnone k hk hown).1.symm), rfl⟩
  case new =>
    intro k hk hk'
    rw [show (s'.mask mine').w.conns k = s'.w.conns k from Worker.mask_conns (hnew k hk hk')]
    exact h.new k hk hk'
  case frame =>
    intro k hk hzero
    by_cases hown : mine k
    · rw [(hconns k hk hown).1, (hconns k hk hown).2]
      exact h.frame k hk hzero
    · rw [(hnone k hk hown).2.2.1, (hnone k hk hown).2.2.2]
  case active =>
    rw [hcounted, hcounted']
    exact h.active
  case room =>
    rw [hcounted, hcounted']
    exact h.room
  case queues => exact h.queues
  case items =>
    intro item hmem
    refine (h.items item hmem).imp_right ?_
    rintro ⟨k, hk, hpools⟩
    have hown := hheld k (hconn k hk.connection)
    obtain ⟨heq', heq⟩ := hconns k hk.lt hown
    refine ⟨k, ⟨hk.connection, hk.drizzleCon, hk.lt, ?_, ?_⟩, hpools.connection, hpools.drizzleCon,
      hpools.lt, ?_, ?_⟩
    · rw [heq]
      exact hk.drizzle
    · rw [heq]
      exact hk.fd
    · exact (congrArg Conn.drizzle heq').trans hpools.drizzle
    · exact fun hfd => hpools.fd ((congrArg Conn.fd heq').symm.trans hfd)
  case kept =>
    intro item hmem hmem' k hk
    have hcount : 1 ≤ s.holders k :=
      Nat.le_trans (St.holders_of_mem hmem' hk) (Nat.le_add_left _ _)
    obtain ⟨heq', heq⟩ := hconns k (hlt k hcount) (hheld k hcount)
    rw [heq', heq]
    exact h.kept item hmem hmem' k hk

end Mask

section CloseHandler

variable {mine : ℕ → Bool} {w : Worker} {k : ℕ}

lemma Worker.mask_modConn (hk : mine k) (f : Conn → Conn) :
    (w.modConn k f).mask mine = (w.mask mine).modConn k f := by
  have hconns : ((w.modConn k f).mask mine).conns = ((w.mask mine).modConn k f).conns := by
    funext j
    rw [Worker.modConn_conns, mask_conns hk]
    unfold mask
    dsimp only
    rw [Worker.modConn_conns]
    by_cases hj : j = k
    · rw [if_pos hj, if_pos hj, if_pos (hj ▸ hk)]
    · rw [if_neg hj, if_neg hj]
  exact congrArg (fun conns => ({ w with conns := conns } : Worker)) hconns

/-- The handler of idle connections works on what the upstream can see. -/
lemma Worker.mask_closeHandler (slot : ℕ) (stale : Bool)
    (hitems : ∀ item ∈ w.pool.cache, ∃ k, item.Pools (w.mask mine) k) :
    (w.closeHandler slot stale).mask mine = (w.mask mine).closeHandler slot stale := by
  have hcache : (w.mask mine).pool.cache = w.pool.cache := rfl
  unfold closeHandler
  rw [hcache]
  split
  · rfl
  · split
    · rfl
    · next item hfind =>
      obtain ⟨k, hk⟩ := hitems item (List.mem_of_find?_eq_some hfind)
      have hfree : (w.freeConnection item.connection item.drizzleCon).mask mine =
          (w.mask mine).freeConnection item.connection item.drizzleCon := by
        rw [hk.connection, hk.drizzleCon]
        unfold freeConnection
        dsimp only
        rw [mask_modConn hk.own, mask_modConn hk.own]
        rfl
      rw [← hfree]
      rfl

lemma Worker.closeHandler_conf (w : Worker) (slot : ℕ) (stale : Bool) :
    (w.closeHandler slot stale).conf = w.conf := by
  rcases Sys.closeHandler_cases w slot stale with heq | ⟨item, l₁, l₂, hcache, heq⟩
  · rw [heq]
  · rw [heq, Worker.freeConnection_conf]

lemma Worker.closeHandler_nconns (w : Worker) (slot : ℕ) (stale : Bool) :
    (w.closeHandler slot stale).nconns = w.nconns := by
  rcases Sys.closeHandler_cases w slot stale with heq | ⟨item, l₁, l₂, hcache, heq⟩
  · rw [heq]
  · rw [heq, Worker.freeConnection_nconns]

end CloseHandler

namespace Site

variable {s : Site} {u v i k : ℕ} {c c' : Conf} {q : Served}

/-! ## The part of an upstream -/

/-- Whether a connection was created for an upstream. -/
def owns (s : Site) (v k : ℕ) : Bool := s.origin[k]? = some v

/-- What an upstream sees of the worker process. -/
def only (s : Site) (v : ℕ) (c : Conf) : Sys where
  w := (s.worker v c).mask (s.owns v)
  reqs := (Lib.lane Served.upstream v s.reqs).map Served.req
  active :=
    match s.active with
    | some (.serving i p) => s.reqs[i]?.bind fun q =>
      if q.upstream = v then some (Lib.place Served.upstream v s.reqs i, p) else none
    | _ => none

/-- What an upstream sees of a step.  The condition is one on the steps in which a request runs. -/
inductive Sees (kept : Prop) (t : Sys) : Sys → Prop
  | same : Sees kept t t
  /-- Another upstream takes connections. -/
  | apart (nconns : ℕ) (now : Msec) (hn : t.w.nconns ≤ nconns) (hidle : t.active = none) :
      Sees kept t { t with w := { t.w with nconns := nconns, now := now } }
  | step (l : DrizzleNginx.Label) (hl : ∀ env, l ≠ .run env) : Sees kept t (t.step l)
  | put {i : ℕ} {r : Req} {ps : Pos × St} {c : Prop} (hi : t.reqs[i]? = some r)
      (hrest : ∀ j, j ≠ i → t.pos j = .loop) (hc : t.Counted → c) (hm : Moves c (t.view r) ps.2)
      (hok : (ps.1.after ps.2.r).Ok ps.2) (hord : ps.2.r.Ordered (ps.1.after ps.2.r))
      (hcounts : kept → t.Counted → (ps.1.after ps.2.r).Counts ps.2) : Sees kept t (t.put i ps)

lemma only_getElem? (hi : s.reqs[i]? = some q) :
    (s.only q.upstream c).reqs[Lib.place Served.upstream q.upstream s.reqs i]? = some q.req := by
  rw [only, List.getElem?_map, Lib.getElem?_lane hi]
  rfl

lemma only_active (hi : s.reqs[i]? = some q) {p : Pos} (hact : s.active = some (.serving i p)) :
    (s.only q.upstream c).active =
      some (Lib.place Served.upstream q.upstream s.reqs i, p) := by
  simp only [only, hact, hi, Option.bind_some, if_true]

lemma only_idle (hact : ∀ i p, s.active ≠ some (.serving i p)) : (s.only v c).active = none := by
  unfold only
  dsimp only
  split
  · next i p h => exact absurd h (hact i p)
  · rfl

lemma only_active_of_ne (hi : s.reqs[i]? = some q) {p : Pos} (hact : s.active = some (.serving i p))
    (hne : q.upstream ≠ v) : (s.only v c).active = none := by
  simp only [only, hact, hi, Option.bind_some, if_neg hne]

/-- Every connection has its owner, and that is a request or the pool of the upstream for which it
was created. -/
structure Owned (s : Site) : Prop where
  only : ∀ v c, s.srvConf v = some c → (s.only v c).Owned
  conf : ∀ q ∈ s.reqs, ∃ c, s.srvConf q.upstream = some c

/-- The counters of active connections are right. -/
def Counted (s : Site) : Prop := ∀ v c, s.srvConf v = some c → (s.only v c).Counted

/-! ## Functions called for an upstream -/

section PutWorker

variable {w : Worker}

lemma owns_putWorker_of_lt (hk : k < s.origin.length) :
    (s.putWorker u w).owns v k = s.owns v k := by
  unfold owns putWorker
  rw [List.getElem?_append_left hk]

lemma owns_putWorker_of_le (hk : s.origin.length ≤ k) (hk' : k < w.nconns) :
    (s.putWorker v w).owns v k := by
  unfold owns putWorker
  rw [List.getElem?_append_right hk, List.getElem?_replicate, if_pos (by omega), decide_eq_true rfl]

/-- What was created for another upstream stays as it is. -/
lemma owns_putWorker_of_ne (huv : v ≠ u) : (s.putWorker v w).owns u k = s.owns u k := by
  rcases Nat.lt_or_ge k s.origin.length with hk | hk
  · exact owns_putWorker_of_lt hk
  · unfold owns putWorker
    rw [List.getElem?_append_right hk, List.getElem?_replicate, List.getElem?_eq_none hk]
    split
    · simp [huv]
    · rfl

lemma origin_putWorker (hn : s.origin.length ≤ w.nconns) :
    (s.putWorker v w).origin.length = w.nconns := by
  unfold putWorker
  rw [List.length_append, List.length_replicate]
  exact Nat.add_sub_cancel' hn

/-- The upstream sees the effect. -/
lemma worker_putWorker_self (hconf : w.conf = c) (hn : s.origin.length ≤ w.nconns) :
    (s.putWorker v w).worker v c = w := by
  unfold worker
  rw [origin_putWorker hn]
  simp only [putWorker, Function.update_self, ← hconf]

/-- Another upstream sees that connections have been taken. -/
lemma worker_putWorker_of_ne (huv : v ≠ u) (hn : s.origin.length ≤ w.nconns)
    (hframe : ∀ k, s.owns u k → w.conns k = s.conns k) :
    ((s.putWorker v w).worker u c).mask ((s.putWorker v w).owns u) =
      { (s.only u c).w with nconns := w.nconns, now := w.now } := by
  have hconns : (fun k => if (s.putWorker v w).owns u k then w.conns k else {}) =
      fun k => if s.owns u k then s.conns k else {} := by
    funext k
    rw [owns_putWorker_of_ne huv]
    split
    · next hk => exact hframe k hk
    · rfl
  change Worker.mk c (Function.update s.pools v w.pool u)
    (fun k => if (s.putWorker v w).owns u k then w.conns k else {}) (s.putWorker v w).origin.length
    w.now = _
  rw [hconns, origin_putWorker hn, Function.update_of_ne huv.symm]
  rfl

end PutWorker

/-! ## Steps of a request -/

section Put

variable {p : Pos} {ps : Pos × St} {d kept : Prop}

/-- What a request that moves has in custody. -/
lemma Owned.custody (h : s.Owned) (hi : s.reqs[i]? = some q) (hc : s.srvConf q.upstream = some c) :
    Custody ((s.only q.upstream c).pos (Lib.place Served.upstream q.upstream s.reqs i))
      ((s.view c q).mask (s.owns q.upstream)) :=
  (h.only _ c hc).custody (only_getElem? hi)

/-- What the running request has in custody. -/
lemma Owned.custody_serving (h : s.Owned) (hi : s.reqs[i]? = some q)
    (hc : s.srvConf q.upstream = some c) (hact : s.active = some (.serving i p)) :
    Custody p (s.view c q) := by
  have hcustody := h.custody hi hc
  rw [Sys.pos_of_active (only_active hi hact)] at hcustody
  exact hcustody.of_mask

/-- What a request at rest has in custody. -/
lemma Owned.custody_idle (h : s.Owned) (hi : s.reqs[i]? = some q)
    (hc : s.srvConf q.upstream = some c) (hidle : s.active = none) :
    Custody .loop (s.view c q) := by
  have hcustody := h.custody hi hc
  rw [Sys.pos_of_idle (only_idle (by simp [hidle]))] at hcustody
  exact hcustody.of_mask

variable (hi : s.reqs[i]? = some q) (hc : s.srvConf q.upstream = some c)
  (hm : Moves d (s.view c q) ps.2)

include hm in
/-- A step of a request is one of its upstream. -/
lemma only_put_self (hi : s.reqs[i]? = some q) : (s.put i q ps).only q.upstream c =
    (s.only q.upstream c).put (Lib.place Served.upstream q.upstream s.reqs i)
      (ps.1, ps.2.mask ((s.put i q ps).owns q.upstream)) := by
  have hw : (s.put i q ps).worker q.upstream c = ps.2.w := worker_putWorker_self hm.conf hm.nconns
  have hreqs : (Lib.lane Served.upstream q.upstream (s.put i q ps).reqs).map Served.req =
      ((Lib.lane Served.upstream q.upstream s.reqs).map Served.req).set
        (Lib.place Served.upstream q.upstream s.reqs i) ps.2.r := by
    have hlane : Lib.lane Served.upstream q.upstream (s.reqs.set i { q with req := ps.2.r }) = _ :=
      Lib.lane_set_self hi rfl
    rw [put, hlane, List.map_set]
  have hactive : ((s.put i q ps).only q.upstream c).active =
      (ps.1.settle ps.2.r).map fun p => (Lib.place Served.upstream q.upstream s.reqs i, p) := by
    obtain ⟨hlt, _⟩ := List.getElem?_eq_some_iff.mp hi
    unfold only put
    cases ps.1.settle ps.2.r with
    | none => rfl
    | some p =>
      have hplace :
          Lib.place Served.upstream q.upstream (s.reqs.set i { q with req := ps.2.r }) i = _ :=
        Lib.place_set hi rfl
      simp only [Option.map_some, List.getElem?_set_self hlt, Option.bind_some, if_true, hplace]
  unfold Sys.put
  rw [show (s.put i q ps).only q.upstream c =
    ⟨_, _, ((s.put i q ps).only q.upstream c).active⟩ from rfl,
    hactive]
  simp only [only, hw, hreqs]
  rfl

include hi hm in
/-- A step of a request does not concern other upstreams. -/
lemma only_put_of_ne (huv : q.upstream ≠ u) (hidle : (s.only u c').active = none)
    (hframe : ∀ k, s.owns u k → ps.2.w.conns k = s.conns k) : (s.put i q ps).only u c' =
      { s.only u c' with w :=
        { (s.only u c').w with nconns := ps.2.w.nconns, now := ps.2.w.now } } := by
  have hw : ((s.put i q ps).worker u c').mask ((s.put i q ps).owns u) = _ :=
    worker_putWorker_of_ne huv hm.nconns hframe
  have hlane : Lib.lane Served.upstream u (s.reqs.set i { q with req := ps.2.r }) = _ :=
    Lib.lane_set_of_ne hi rfl huv
  have hactive : ((s.put i q ps).only u c').active = none := by
    obtain ⟨hlt, _⟩ := List.getElem?_eq_some_iff.mp hi
    unfold only put
    cases ps.1.settle ps.2.r with
    | none => rfl
    | some p =>
      simp only [Option.map_some, List.getElem?_set_self hlt, Option.bind_some, if_neg huv]
  rw [show (s.put i q ps).only u c' = ⟨_, _, ((s.put i q ps).only u c').active⟩ from rfl, hactive,
    ← hidle, hw]
  simp only [only, put, hlane]

include hi hc hm in
/-- What an upstream sees of a step of a request. -/
lemma sees_put (h : s.Owned) (hact : s.active = none ∨ ∃ p, s.active = some (.serving i p))
    (hd : ((s.only q.upstream c).pos (Lib.place Served.upstream q.upstream s.reqs i)).Counts
      (s.view c q) → d)
    (hok : (ps.1.after ps.2.r).Ok ps.2) (hord : ps.2.r.Ordered (ps.1.after ps.2.r))
    (hcounts : kept →
      ((s.only q.upstream c).pos (Lib.place Served.upstream q.upstream s.reqs i)).Counts
        (s.view c q) → (s.view c q).Bounded → (ps.1.after ps.2.r).Counts ps.2)
    (hu : s.srvConf u = some c') : Sees kept (s.only u c') ((s.put i q ps).only u c') := by
  have ho := h.only _ c hc
  have hcustody := h.custody hi hc
  have hheld : ∀ k, 1 ≤ (s.view c q).holders k → s.owns q.upstream k := fun _ hk => hcustody.own hk
  have hlt : ∀ k, 1 ≤ (s.view c q).holders k → k < s.origin.length := by
    intro k hk
    by_contra hge
    have h₁ := ho.holders_eq_zero (Nat.le_of_not_lt hge)
    have h₂ := Sys.Owned.view_holders_le (only_getElem? (c := c) hi) k
    have h₃ : ((s.only q.upstream c).view q.req).holders k = (s.view c q).holders k := rfl
    omega
  by_cases huv : q.upstream = u
  · subst huv
    obtain rfl := Option.some.inj (hc.symm.trans hu)
    have hold : ∀ k < s.origin.length, (s.put i q ps).owns q.upstream k = s.owns q.upstream k :=
      fun k hk => owns_putWorker_of_lt hk
    have hnew : ∀ k, s.origin.length ≤ k → k < ps.2.w.nconns → (s.put i q ps).owns q.upstream k :=
      fun k hk hk' => owns_putWorker_of_le hk hk'
    have hmine : ∀ k, ps.2.r.connection = some k → (s.put i q ps).owns q.upstream k := by
      intro k hk
      refine hm.own hold hnew hheld (hok.lt hk) ?_
      rw [St.holders, if_pos hk]
      exact Nat.le_add_right 1 _
    have hmine₀ : ∀ k, (s.view c q).r.connection = some k → s.owns q.upstream k := by
      intro k hk
      refine hheld k ?_
      rw [St.holders, if_pos hk]
      exact Nat.le_add_right 1 _
    have hcounts₀ : (s.only q.upstream c).Counted → ((s.only q.upstream c).pos
        (Lib.place Served.upstream q.upstream s.reqs i)).Counts (s.view c q) := fun hcount =>
      (Pos.counts_mask hmine₀).mp (hcount.counts _ q.req (only_getElem? hi))
    rw [only_put_self hm hi]
    refine .put (only_getElem? hi) ?_ (fun hcount => hd (hcounts₀ hcount))
      (hm.mask hold hnew hheld hlt fun k hk => hok.lt hk) (hok.mask hmine) hord ?_
    · intro j hne
      rcases hact with hnone | ⟨p, hp⟩
      · exact Sys.pos_of_idle (by simp only [only, hnone]) j
      · exact Sys.pos_of_active_ne (only_active hi hp) hne
    · intro hkept hcount
      refine (Pos.counts_mask hmine).mpr (hcounts hkept (hcounts₀ hcount) ?_)
      have hb : ((s.view c q).mask (s.owns q.upstream)).Bounded :=
        hcount.bounded (only_getElem? hi)
      exact hb.of_mask hmine₀
  · have hframe : ∀ k, s.owns u k → ps.2.w.conns k = s.conns k := by
      intro k hk
      have hk' : k < s.origin.length := by
        by_contra hge
        simp [owns, List.getElem?_eq_none (Nat.le_of_not_lt hge)] at hk
      refine hm.frame k hk' ?_
      by_contra hne
      have hv := hheld k (Nat.one_le_iff_ne_zero.mpr hne)
      simp only [owns, decide_eq_true_eq] at hk hv
      exact huv (Option.some.inj (hv.symm.trans hk))
    have hidle : (s.only u c').active = none := by
      rcases hact with hnone | ⟨p, hp⟩
      · simp only [only, hnone]
      · exact only_active_of_ne hi hp huv
    rw [only_put_of_ne hi hm huv hidle hframe]
    exact .apart _ _ hm.nconns hidle

end Put

/-! ## Steps of the worker process -/

/-- What a step of the worker process does. -/
inductive Step (s : Site) : Label → Site → Prop
  | skip (l : Label) : Step s l s
  | arrive (q : Incoming) {l : Location} (hidle : s.active = none) (hl : s.locs[q.loc]? = some l) :
      Step s (.arrive q) (s.enter q l)
  /-- The request that has entered is not served. -/
  | leave (env : Env) {q : Incoming} {a : Option Running} (hact : s.active = some (.entered q))
      (ha : a = none ∨ a = some .crashed ∨ ∃ v l, a = some (.elsewhere q v) ∧
        s.locs[q.loc]? = some l ∧ l.dlcf.upstream = some v) :
      Step s (.run env) { s with active := a }
  | serve (env : Env) {q : Incoming} {l : Location} {v : ℕ} {c : Conf} (a : Arrival)
      (hact : s.active = some (.entered q)) (hl : s.locs[q.loc]? = some l)
      (hv : l.dlcf.upstream = some v) (hc : s.srvConf v = some c) :
      Step s (.run env) (s.serve q v c a)
  | run (env : Env) {i : ℕ} {p : Pos} {q : Served} {c : Conf}
      (hact : s.active = some (.serving i p)) (hi : s.reqs[i]? = some q)
      (hc : s.srvConf q.upstream = some c) : Step s (.run env) (s.put i q ((s.view c q).exec env p))
  | event {i : ℕ} (e : Event) {q : Served} {c : Conf} (hidle : s.active = none)
      (hi : s.reqs[i]? = some q) (hc : s.srvConf q.upstream = some c)
      (he : e.enabled (s.view c q)) :
      Step s (.event i e) (s.put i q (.event e, e.fire (s.view c q)))
  | client {i : ℕ} {q : Served} (cc : ClientConn) (hi : s.reqs[i]? = some q) :
      Step s (.client i cc) { s with reqs := s.reqs.set i { q with req := q.req.onClient cc } }
  | idle {v : ℕ} {c : Conf} (slot : ℕ) (stale : Bool) (hidle : s.active = none)
      (hc : s.srvConf v = some c) :
      Step s (.idle v slot stale) (s.putWorker v ((s.worker v c).closeHandler slot stale))
  | tick (now : Msec) (hidle : s.active = none) : Step s (.tick now) { s with now := now }

lemma dbdInit_cases (env : Env) {q : Incoming} {l : Location} (hact : s.active = some (.entered q))
    (hl : s.locs[q.loc]? = some l) : Step s (.run env) (s.dbdInit q l) := by
  unfold dbdInit
  split
  · exact .leave env hact (.inl rfl)
  · split
    · exact .leave env hact (.inr (.inl rfl))
    · next v hv =>
      split
      · exact .leave env hact (.inr (.inr ⟨v, l, rfl, hl, hv⟩))
      · next c hc =>
        unfold initPeer
        dsimp only
        split
        · exact .serve env _ hact hl hv hc
        · exact .serve env _ hact hl hv hc
        · exact .serve env _ hact hl hv hc
        · exact .leave env hact (.inr (.inl rfl))

/-- What a step of the worker process does: there are no other cases. -/
lemma step_cases (s : Site) (l : Label) : Step s l (s.step l) := by
  cases l with
  | arrive q =>
    simp only [step]
    split
    · next hidle hl => exact .arrive q hidle hl
    · exact .skip _
  | run env =>
    simp only [step]
    split
    · next q hact =>
      split
      · exact .skip _
      · next l hl => exact dbdInit_cases env hact hl
    · next i p hact =>
      split
      · exact .skip _
      · next hi =>
        split
        · exact .skip _
        · next hc => exact .run env hact hi hc
    · exact .skip _
  | event i e =>
    simp only [step]
    split
    · next hidle hi =>
      split
      · exact .skip _
      · next hc =>
        split
        · next he => exact .event e hidle hi hc he
        · exact .skip _
    · exact .skip _
  | client i cc =>
    simp only [step]
    split
    · exact .skip _
    · next hi => exact .client cc hi
  | idle v slot stale =>
    simp only [step]
    split
    · next hidle hc => exact .idle slot stale hidle hc
    · exact .skip _
  | tick now =>
    simp only [step]
    split
    · exact .skip _
    · next hidle => exact .tick now hidle

/-- No allocation fails while a request holds the connection by which it is rejected. -/
def Keeps (s : Site) (l : Label) : Prop :=
  ∀ env i p q c, l = .run env → s.active = some (.serving i p) → s.reqs[i]? = some q →
    s.srvConf q.upstream = some c → PlaceholderKept env p (s.view c q)

/-- A change that is not of this upstream. -/
lemma only_leave (hact : ∀ i p, s.active ≠ some (.serving i p)) {locs : List Location}
    {a : Option Running} (ha : ∀ i p, a ≠ some (.serving i p)) :
    ({ s with locs := locs, active := a } : Site).only v c = s.only v c := by
  have h₁ := only_idle (v := v) (c := c) hact
  have h₂ := only_idle (s := { s with locs := locs, active := a }) (v := v) (c := c) ha
  rw [show s.only v c = ⟨_, _, (s.only v c).active⟩ from rfl, h₁]
  rw [show ({ s with locs := locs, active := a } : Site).only v c =
    ⟨_, _, (({ s with locs := locs, active := a } : Site).only v c).active⟩ from rfl, h₂]
  rfl

lemma enter_active (q : Incoming) (l : Location) :
    ∀ i p, (s.enter q l).active ≠ some (.serving i p) := by
  intro i p
  unfold enter
  dsimp only
  split
  · simp
  · simp
  · simp

lemma only_serve_self {q : Incoming} (hact : s.active = some (.entered q)) (c : Conf)
    (a : Arrival) :
    (s.serve q v c a).only v c = (s.only v c).step (.arrive a) := by
  have hidle := only_idle (s := s) (v := v) (c := c) (by simp [hact])
  have hn : (Lib.lane Served.upstream v s.reqs).length = (s.only v c).reqs.length := by
    rw [only, List.length_map]
  unfold Sys.step
  rw [hidle]
  unfold serve
  simp only [only, worker, List.getElem?_concat_length, Option.bind_some, if_true, Lib.lane_concat,
    List.map_append, List.map_cons, List.map_nil, Lib.place_concat (Nat.le_refl _),
    Lib.place_length, List.length_map]
  rfl

lemma only_serve_of_ne {q : Incoming} (hact : s.active = some (.entered q)) (huv : v ≠ u)
    (c c' : Conf) (a : Arrival) : (s.serve q v c a).only u c' = s.only u c' := by
  have hidle := only_idle (s := s) (v := u) (c := c') (by simp [hact])
  rw [show s.only u c' = ⟨_, _, (s.only u c').active⟩ from rfl, hidle]
  unfold serve
  simp only [only, worker, List.getElem?_concat_length, Option.bind_some, if_neg huv,
    Lib.lane_concat, List.append_nil]
  rfl

/-- A change of a client connection is seen by the upstream of the request. -/
lemma only_setReq (hi : s.reqs[i]? = some q) {r : Req} :
    ({ s with reqs := s.reqs.set i { q with req := r } } : Site).only v c =
      if q.upstream = v then
        { s.only v c with
          reqs := (s.only v c).reqs.set (Lib.place Served.upstream v s.reqs i) r }
      else s.only v c := by
  have hactive : (({ s with reqs := s.reqs.set i { q with req := r } } : Site).only v c).active =
      (s.only v c).active := by
    unfold only
    dsimp only
    split
    · next j p _ =>
      have hplace : Lib.place Served.upstream v (s.reqs.set i { q with req := r }) j = _ :=
        Lib.place_set hi rfl
      rw [hplace]
      by_cases hij : i = j
      · subst hij
        obtain ⟨hlt, _⟩ := List.getElem?_eq_some_iff.mp hi
        simp only [List.getElem?_set_self hlt, hi, Option.bind_some]
      · rw [List.getElem?_set_ne hij]
    · rfl
  rw [show (({ s with reqs := s.reqs.set i { q with req := r } } : Site).only v c) =
    ⟨_, _, (({ s with reqs := s.reqs.set i { q with req := r } } : Site).only v c).active⟩ from rfl,
    hactive]
  split
  · next hv =>
    subst hv
    have hlane : Lib.lane Served.upstream q.upstream (s.reqs.set i { q with req := r }) = _ :=
      Lib.lane_set_self hi rfl
    rw [hlane, List.map_set]
    rfl
  · next hv =>
    have hlane : Lib.lane Served.upstream v (s.reqs.set i { q with req := r }) = _ :=
      Lib.lane_set_of_ne hi rfl hv
    rw [hlane]
    rfl

/-- An idle connection is one of the upstream in whose pool it is. -/
lemma only_idle_self (h : s.Owned) (hidle : s.active = none) (hc : s.srvConf v = some c) (slot : ℕ)
    (stale : Bool) : (s.putWorker v ((s.worker v c).closeHandler slot stale)).only v c =
      (s.only v c).step (.idle slot stale) := by
  have hnone : (s.only v c).active = none := only_idle (by simp [hidle])
  have hitems : ∀ item ∈ (s.worker v c).pool.cache,
      ∃ k, item.Pools ((s.worker v c).mask (s.owns v)) k :=
    (h.only v c hc).items
  obtain ⟨w, hw⟩ : ∃ w, w = (s.worker v c).closeHandler slot stale := ⟨_, rfl⟩
  have hconf : w.conf = c := hw ▸ Worker.closeHandler_conf _ slot stale
  have hn : w.nconns = s.origin.length := hw ▸ Worker.closeHandler_nconns _ slot stale
  have howns : (s.putWorker v w).owns v = s.owns v := by
    unfold owns putWorker
    rw [hn, Nat.sub_self, List.replicate_zero, List.append_nil]
  have hworker := worker_putWorker_self (s := s) (v := v) hconf hn.ge
  have hnone' : ((s.putWorker v w).only v c).active = none := only_idle (by simp [putWorker, hidle])
  rw [← hw, show (s.putWorker v w).only v c = ⟨_, _, ((s.putWorker v w).only v c).active⟩ from rfl,
    hnone', hworker, howns, hw, Worker.mask_closeHandler slot stale hitems]
  unfold Sys.step
  rw [hnone]
  unfold only
  rw [hidle]
  rfl

lemma sees_idle (h : s.Owned) (hidle : s.active = none) (hc : s.srvConf v = some c) (slot : ℕ)
    (stale : Bool) {kept : Prop} (hu : s.srvConf u = some c') : Sees kept (s.only u c')
      ((s.putWorker v ((s.worker v c).closeHandler slot stale)).only u c') := by
  by_cases huv : v = u
  · subst huv
    obtain rfl := Option.some.inj (hc.symm.trans hu)
    rw [only_idle_self h hidle hc]
    exact .step _ (by simp)
  · have hnone : (s.only u c').active = none := only_idle (by simp [hidle])
    obtain ⟨w, hw⟩ : ∃ w, w = (s.worker v c).closeHandler slot stale := ⟨_, rfl⟩
    have hn : w.nconns = s.origin.length := hw ▸ Worker.closeHandler_nconns _ slot stale
    have hframe : ∀ k, s.owns u k → w.conns k = s.conns k := by
      intro k hk
      rw [hw]
      rcases Sys.closeHandler_cases (s.worker v c) slot stale with heq | ⟨item, l₁, l₂, hcache, heq⟩
      · rw [heq]
        rfl
      · have hmem : item ∈ (s.worker v c).pool.cache := by
          rw [hcache]
          simp
        obtain ⟨e, he⟩ := (h.only v c hc).items item hmem
        have hne : k ≠ e := by
          rintro rfl
          have hv : s.owns v k := he.own
          simp only [owns, decide_eq_true_eq] at hk hv
          exact huv (Option.some.inj (hv.symm.trans hk))
        have hconns := congrArg (fun w : Worker => w.conns k) heq
        dsimp only at hconns
        rw [hconns, he.connection, he.drizzleCon]
        exact (Worker.freeConnection_conns e k).trans (if_neg hne)
    have hactive : ((s.putWorker v w).only u c').active = none :=
      only_idle (by simp [putWorker, hidle])
    have heq : (s.putWorker v w).only u c' =
        { s.only u c' with
          w := { (s.only u c').w with nconns := w.nconns, now := w.now } } := by
      rw [show (s.putWorker v w).only u c' = ⟨_, _, ((s.putWorker v w).only u c').active⟩ from rfl,
        hactive, ← hnone, worker_putWorker_of_ne huv hn.ge hframe]
      rfl
    rw [← hw, heq]
    exact .apart _ _ hn.ge hnone

/-- What an upstream sees of a step of the worker process. -/
theorem sees_step (h : s.Owned) (l : Label) (hu : s.srvConf u = some c') :
    Sees (s.Keeps l) (s.only u c') ((s.step l).only u c') := by
  have hstep := step_cases s l
  generalize s.step l = s' at hstep ⊢
  cases hstep with
  | skip => exact .same
  | @arrive q l hidle hl =>
    have heq : (s.enter q l).only u c' = s.only u c' :=
      only_leave (by simp [hidle]) (enter_active q l)
    rw [heq]
    exact .same
  | @leave env q a hact ha =>
    have hnot : ∀ i p, a ≠ some (.serving i p) := by
      rcases ha with rfl | rfl | ⟨v, l, rfl, _⟩ <;> simp
    have heq : ({ s with active := a } : Site).only u c' = s.only u c' :=
      only_leave (by simp [hact]) hnot
    rw [heq]
    exact .same
  | @serve env q l v c a hact hl hv hc =>
    by_cases huv : v = u
    · subst huv
      obtain rfl := Option.some.inj (hc.symm.trans hu)
      rw [only_serve_self hact]
      exact .step _ (by simp)
    · rw [only_serve_of_ne hact huv]
      exact .same
  | @run env i p q c hact hi hc =>
    have hcustody := h.custody_serving hi hc hact
    have hadv := St.exec_advances env hcustody
    have hpos := Sys.pos_of_active (only_active (c := c) hi hact)
    refine sees_put hi hc hadv.moves h (.inr ⟨p, hact⟩) (hpos ▸ fun h => h) hadv.ok
      (St.exec_ordered env hcustody) (fun hkept hcounts hb => ?_) hu
    exact St.exec_counts hcustody hb (hpos ▸ hcounts) (hkept env i p q c rfl hact hi hc)
  | @event i e q c hidle hi hc he =>
    have hcustody := h.custody_idle hi hc hidle
    have hstays := Sys.stays_fire e (s.view c q)
    have hm := Sys.marks_fire e (s.view c q)
    have hpos := Sys.pos_of_idle (only_idle (s := s) (v := q.upstream) (c := c) (by simp [hidle]))
      (Lib.place Served.upstream q.upstream s.reqs i)
    refine sees_put hi hc (hstays.moves (c := True) hcustody.holders_le) h (.inl hidle)
      (fun _ => trivial) (Sys.ok_fire hcustody.ok he) (hcustody.ordered.move hm nofun nofun)
      (fun _ hcounts _ => ?_) hu
    rw [hpos] at hcounts
    exact Sys.counts_fire e hcounts
  | @client i q cc hi =>
    rw [only_setReq hi]
    split
    · next hv =>
      subst hv
      have hget := only_getElem? (c := c') hi
      obtain ⟨j, hj⟩ : ∃ j, j = Lib.place Served.upstream q.upstream s.reqs i := ⟨_, rfl⟩
      rw [← hj] at hget ⊢
      have heq : { s.only q.upstream c' with
          reqs := (s.only q.upstream c').reqs.set j (q.req.onClient cc) } =
          (s.only q.upstream c').step (.client j cc) := by
        unfold Sys.step
        simp only [hget]
      rw [heq]
      exact .step _ (by simp)
    · exact .same
  | idle slot stale hidle hc => exact sees_idle h hidle hc slot stale hu
  | tick now hidle =>
    have hnone : (s.only u c').active = none := only_idle (by simp [hidle])
    have heq : ({ s with now := now } : Site).only u c' = (s.only u c').step (.tick now) := by
      unfold Sys.step
      rw [hnone]
      unfold only
      rw [hidle]
      rfl
    rw [heq]
    exact .step _ (by simp)

/-! ## Owners -/

/-- The connections that another upstream takes have no owner here. -/
lemma owned_apart {t : Sys} (h : t.Owned) {n : ℕ} (now : Msec) (hn : t.w.nconns ≤ n)
    (hidle : t.active = none) (hnew : ∀ k, t.w.nconns ≤ k → t.w.conns k = {}) :
    ({ t with w := { t.w with nconns := n, now := now } } : Sys).Owned where
  id := h.id
  ok i r hi := by
    have hok := h.ok i r hi
    rw [Sys.pos_of_idle hidle] at hok
    rw [Sys.pos_of_idle (s := { t with w := { t.w with nconns := n, now := now } }) hidle]
    exact hok.loop_of_frame rfl hn fun _ _ => rfl
  ordered i r hi := by
    have hord := h.ordered i r hi
    rw [Sys.pos_of_idle hidle] at hord
    rwa [Sys.pos_of_idle (s := { t with w := { t.w with nconns := n, now := now } }) hidle]
  items item hmem := (h.items item hmem).imp fun _ hk =>
    ⟨hk.connection, hk.drizzleCon, Nat.lt_of_lt_of_le hk.lt hn, hk.drizzle, hk.fd⟩
  queues := h.queues
  drizzle k _ hd := by
    rcases Nat.lt_or_ge k t.w.nconns with hlt | hge
    · exact h.drizzle k hlt hd
    · rw [hnew k hge] at hd
      cases hd
  shadow k _ hd := by
    rcases Nat.lt_or_ge k t.w.nconns with hlt | hge
    · exact h.shadow k hlt hd
    · have hzero := h.holders_eq_zero hge
      refine ⟨Nat.le_trans (Nat.le_of_eq hzero) (Nat.zero_le 1), ?_⟩
      rw [hnew k hge]

lemma Sees.owned {kept : Prop} {t t' : Sys} (h : Sees kept t t') (ho : t.Owned)
    (hnew : ∀ k, t.w.nconns ≤ k → t.w.conns k = {}) : t'.Owned := by
  cases h with
  | same => exact ho
  | apart n now hn hidle => exact owned_apart ho now hn hidle hnew
  | step l hl => exact ho.step l
  | put hi hrest hc hm hok hord hcounts => exact ho.put hi hrest hm hok hord

lemma Sees.counted {kept : Prop} {t t' : Sys} (h : Sees kept t t') (ho : t.Owned) (ht : t.Counted)
    (hkept : kept) : t'.Counted := by
  cases h with
  | same => exact ht
  | apart n now hn hidle =>
    refine ⟨ht.active, ht.le, fun i r hi => ?_⟩
    have hok := ho.ok i r hi
    have hq := ht.counts i r hi
    rw [Sys.pos_of_idle hidle] at hok hq
    rw [Sys.pos_of_idle (s := { t with w := { t.w with nconns := n, now := now } }) hidle]
    exact hq.loop_of_frame hok rfl fun _ _ => rfl
  | step l hl => exact ht.step ho fun env _ _ _ hrun => absurd hrun (hl env)
  | put hi hrest hc hm hok hord hcounts => exact ht.put ho hi hrest (hc ht) hm (hcounts hkept ht)

lemma only_new (s : Site) (v : ℕ) (c : Conf) :
    ∀ k, (s.only v c).w.nconns ≤ k → (s.only v c).w.conns k = {} := by
  intro k hk
  refine Worker.mask_conns_of_not ?_
  have hk : s.origin.length ≤ k := hk
  simp [owns, List.getElem?_eq_none hk]

/-- The upstreams do not change. -/
lemma upstreams_step (s : Site) (l : Label) : (s.step l).upstreams = s.upstreams := by
  have hstep := step_cases s l
  generalize s.step l = s' at hstep ⊢
  cases hstep <;> rfl

lemma srvConf_step (s : Site) (l : Label) (v : ℕ) : (s.step l).srvConf v = s.srvConf v := by
  rw [srvConf, srvConf, upstreams_step]

/-- A request keeps its upstream. -/
lemma upstream_step (s : Site) (l : Label) : ∀ q' ∈ (s.step l).reqs,
    (∃ q ∈ s.reqs, q'.upstream = q.upstream ∧ q'.incoming = q.incoming) ∨
    ∃ l, s.active = some (.entered q'.incoming) ∧ s.locs[q'.incoming.loc]? = some l ∧
      l.dlcf.upstream = some q'.upstream ∧ ∃ c, s.srvConf q'.upstream = some c := by
  have hset : ∀ {i : ℕ} {q : Served} (r : Req), s.reqs[i]? = some q →
      ∀ q' ∈ s.reqs.set i { q with req := r },
        ∃ q ∈ s.reqs, q'.upstream = q.upstream ∧ q'.incoming = q.incoming := by
    intro i q r hi q' hq'
    rcases List.mem_or_eq_of_mem_set hq' with hmem | rfl
    · exact ⟨q', hmem, rfl, rfl⟩
    · exact ⟨q, List.mem_of_getElem? hi, rfl, rfl⟩
  have hsame : ∀ q' ∈ s.reqs, ∃ q ∈ s.reqs, q'.upstream = q.upstream ∧ q'.incoming = q.incoming :=
    fun q' hq' => ⟨q', hq', rfl, rfl⟩
  have hstep := step_cases s l
  generalize s.step l = s' at hstep ⊢
  intro q' hq'
  cases hstep with
  | @serve env q l v c a hact hl hv hc =>
    rcases List.mem_append.mp hq' with hmem | hnew
    · exact .inl (hsame q' hmem)
    · obtain rfl := List.mem_singleton.mp hnew
      exact .inr ⟨l, hact, hl, hv, c, hc⟩
  | run env hact hi hc => exact .inl (hset _ hi q' hq')
  | event e hidle hi hc he => exact .inl (hset _ hi q' hq')
  | client cc hi => exact .inl (hset _ hi q' hq')
  | _ => exact .inl (hsame q' hq')

/-- Every step keeps every connection in the hands of an owner of its upstream. -/
theorem Owned.step (h : s.Owned) (l : Label) : (s.step l).Owned where
  only v c hc := by
    rw [srvConf_step] at hc
    exact (sees_step h l hc).owned (h.only v c hc) (only_new s v c)
  conf q hq := by
    rw [srvConf_step]
    rcases upstream_step s l q hq with ⟨q₀, hq₀, hv, _⟩ | ⟨_, _, _, _, hc⟩
    · exact hv ▸ h.conf q₀ hq₀
    · exact hc

lemma Counted.step (hcount : s.Counted) (h : s.Owned) {l : Label} (hkept : s.Keeps l) :
    (s.step l).Counted := by
  intro v c hc
  rw [srvConf_step] at hc
  exact (sees_step h l hc).counted (h.only v c hc) (hcount v c hc) hkept

/-- Before the first request, each upstream is a worker process before its first request. -/
lemma only_init {conf : SiteConf} (hc : (init conf).srvConf v = some c) :
    (init conf).only v c = Sys.init c := by
  have hpool : (init conf).pools v = Pool.init c.maxCached := by
    have hconf : conf.srvConf v = some c := hc
    simp only [init, hconf, Option.elim]
  have hconns : (((init conf).worker v c).mask ((init conf).owns v)).conns = fun _ => {} := by
    funext k
    exact Worker.mask_conns_of_not (by simp [owns, init])
  unfold only Sys.init
  rw [show ((init conf).worker v c).mask ((init conf).owns v) =
    ⟨_, _, (((init conf).worker v c).mask ((init conf).owns v)).conns, _, _⟩ from rfl,
    hconns, worker, hpool]
  rfl

lemma owned_init (conf : SiteConf) : (init conf).Owned where
  only v c hc := only_init hc ▸ Sys.owned_init c
  conf q hq := by simp [init] at hq

/-- In every state of every run, every connection has its owner, and that is one of the upstream for
which it was created. -/
theorem owned_run (conf : SiteConf) (ls : List Label) : (run conf ls).Owned :=
  Lib.run_invariant (C := fun _ _ => True) (fun _ l _ h => h.step l) (owned_init conf)
    (Lib.Meets.of_forall (fun _ _ => trivial) ls _)

/-- In every state of every run in which no allocation fails at the wrong time, the counters of
active connections are right. -/
theorem counted_run (conf : SiteConf) {ls : List Label}
    (hls : Lib.Meets step Keeps (init conf) ls) : (run conf ls).Counted :=
  Lib.run_invariant_of (I := Owned) (fun _ l _ h => h.step l) (fun _ _ hl ho h => h.step ho hl)
    (owned_init conf) (fun _ c hc => only_init hc ▸ Sys.counted_init c) hls

end Site

end DrizzleNginx
