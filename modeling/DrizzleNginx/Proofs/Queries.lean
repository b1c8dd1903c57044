/-
# The query of a request

Which SQL a request is answered with is decided by its method and the `drizzle_query` directives of
the blocks around it: the innermost block with any of them decides alone, and there the directive
that names the method goes before the one without a method.  The module keeps these directives in
three fields, which are read, inherited and searched in different places.
-/
import DrizzleNginx.Model.Site
import DrizzleNginx.Proofs.Directives

namespace DrizzleNginx

open Lib (innermost)

/-! ## The queries of a block -/

/-- The arguments of a `drizzle_query` directive. -/
def Directive.query? : Directive → Option QueryArgs
  | query args => some args
  | _ => none

/-- The `drizzle_query` directives of a block. -/
def Level.queries (level : Level) : List QueryArgs := level.directives.filterMap Directive.query?

/-- Two directives claim the same requests. -/
def QueryArgs.Conflicts (q q' : QueryArgs) : Prop :=
  q.isDefault ∧ q'.isDefault ∨ ∃ method, q.names method ∧ q'.names method

/-- The fields about queries hold some directives. -/
structure DrizzleLocConf.HasQueries (conf : DrizzleLocConf) (qs : List QueryArgs) : Prop where
  default : conf.defaultQuery = (qs.find? QueryArgs.isDefault).map QueryArgs.mixed
  queries : conf.queries.getD [] = (qs.filter fun q => !q.isDefault).map QueryArgs.mixed
  queries_none : conf.queries = none ↔ ∀ q ∈ qs, q.isDefault
  methodsSet : ∀ bit, conf.methodsSet.testBit bit = qs.any (QueryArgs.names (2 ^ bit))
  named : ∀ q ∈ qs, q.isDefault = false → ∃ bit, q.names (2 ^ bit)
  pairwise : qs.Pairwise fun q q' => ¬ q.Conflicts q'

/-- The `drizzle_query` directives of a block, if it has any. -/
def Level.ownQueries (level : Level) : Option (List QueryArgs) :=
  if level.queries = [] then none else some level.queries

/-- What is to become of a request. -/
inductive Selection
  | missing
  | notAllowed
  | sql (q : QueryArgs)
deriving DecidableEq, Repr

/-- What is to become of a request with a method, by the directives of the blocks around it, the
outermost one first. -/
def selection (method : ℕ) (levels : List Level) : Selection :=
  match innermost Level.ownQueries levels with
  | none => .missing
  | some qs =>
    match qs.find? (QueryArgs.names method) with
    | some q => .sql q
    | none =>
      match qs.find? QueryArgs.isDefault with
      | some q => .sql q
      | none => .notAllowed

variable {env : ConfEnv} {conf conf' prev : DrizzleLocConf} {b : Block} {q q' : QueryArgs}
  {qs : List QueryArgs} {level main : Level} {levels : List Level} {bit : ℕ}

/-! ## Masks -/

lemma and_two_pow_ne_zero {x : ℕ} : x &&& 2 ^ bit ≠ 0 ↔ x.testBit bit := by
  constructor
  · intro hne
    obtain ⟨i, hi⟩ := Nat.exists_testBit_of_ne_zero hne
    rw [Nat.testBit_and, Nat.testBit_two_pow, Bool.and_eq_true, decide_eq_true_iff] at hi
    exact hi.2 ▸ hi.1
  · intro hbit hzero
    have h := Nat.testBit_and x (2 ^ bit) bit
    rw [hzero, hbit, Nat.testBit_two_pow_self, Nat.zero_testBit] at h
    cases h

/-- The key of a method is a single bit. -/
lemma methodKey_two_pow {name : Bytes} {key : ℕ} (h : methodKey name = some key) :
    ∃ bit, key = 2 ^ bit := by
  have hkeys : ∀ m ∈ drizzleHttpMethods, ∃ bit < 15, m.key = 2 ^ bit := by decide
  obtain ⟨m, hm, rfl⟩ := Option.map_eq_some_iff.mp h
  obtain ⟨bit, _, hbit⟩ := hkeys m (List.mem_of_find?_eq_some hm)
  exact ⟨bit, hbit⟩

lemma methodKey_testBit (name : Bytes) :
    ((methodKey name).getD 0).testBit bit = decide (methodKey name = some (2 ^ bit)) := by
  cases h : methodKey name with
  | none => simp
  | some key =>
    obtain ⟨j, rfl⟩ := methodKey_two_pow h
    have hpow : 2 ^ j = 2 ^ bit ↔ j = bit := Nat.pow_right_inj (by decide)
    simp [Nat.testBit_two_pow, hpow]

namespace QueryArgs

/-- The bits of the key of a directive are the methods that it names. -/
lemma testBit_key : q.key.testBit bit = q.names (2 ^ bit) := by
  have hfold : ∀ (names : List Bytes) (acc : ℕ),
      (names.foldl (fun methods name => methods ||| (methodKey name).getD 0) acc).testBit bit =
        (acc.testBit bit || names.any fun name => methodKey name = some (2 ^ bit)) := by
    intro names
    induction names with
    | nil => simp
    | cons name names ih =>
      intro acc
      rw [List.foldl_cons, ih, Nat.testBit_or, methodKey_testBit, List.any_cons, Bool.or_assoc]
  rw [key, hfold, Nat.zero_testBit, Bool.false_or]
  rfl

lemma names_of_isDefault (h : q.isDefault) (method : ℕ) : q.names method = false := by
  have hm : q.methods = [] := of_decide_eq_true h
  rw [names, hm]
  rfl

/-- Only methods can be named. -/
lemma two_pow_of_names {method : ℕ} (h : q.names method) : ∃ bit, method = 2 ^ bit := by
  obtain ⟨name, _, hname⟩ := List.any_eq_true.mp h
  exact methodKey_two_pow (of_decide_eq_true hname)

lemma mixed_key (h : q.isDefault = false) : q.mixed.key = q.key := by
  rw [mixed, h, if_neg Bool.false_ne_true, Mixed.ofSql]
  split <;> rfl

lemma Conflicts.symm (h : q.Conflicts q') : q'.Conflicts q := by
  rcases h with ⟨h, h'⟩ | ⟨method, h, h'⟩
  · exact .inl ⟨h', h⟩
  · exact .inr ⟨method, h', h⟩

end QueryArgs

/-! ## Reading a block -/

namespace DrizzleLocConf

lemma hasQueries_create : create.HasQueries [] where
  default := rfl
  queries := rfl
  queries_none := ⟨fun _ => nofun, fun _ => rfl⟩
  methodsSet _ := Nat.zero_testBit _
  named := nofun
  pairwise := .nil

/-- Only the three fields matter. -/
lemma HasQueries.congr (h : conf.HasQueries qs) (hdefault : conf'.defaultQuery = conf.defaultQuery)
    (hset : conf'.methodsSet = conf.methodsSet) (hqueries : conf'.queries = conf.queries) :
    conf'.HasQueries qs :=
  ⟨hdefault.trans h.default, hqueries ▸ h.queries, hqueries ▸ h.queries_none, hset ▸ h.methodsSet,
    h.named, h.pairwise⟩

/-- A directive that is accepted conflicts with none before it. -/
lemma HasQueries.query (h : conf.HasQueries qs) (hq : conf.ReadsQuery q conf') :
    conf'.HasQueries (qs ++ [q]) := by
  cases hq with
  | default hdefault hnone =>
    have hfind : qs.find? QueryArgs.isDefault = none :=
      Option.map_eq_none_iff.mp (h.default.symm.trans hnone)
    refine ⟨?_, ?_, ?_, fun bit => ?_, ?_, ?_⟩
    · simp [List.find?_append, hfind, hdefault]
    · simpa [hdefault] using h.queries
    · simpa [hdefault, or_imp, forall_and] using h.queries_none
    · simpa [QueryArgs.names_of_isDefault hdefault] using h.methodsSet bit
    · intro x hx hxd
      rcases List.mem_append.mp hx with hx | hx
      · exact h.named x hx hxd
      · cases (List.mem_singleton.mp hx ▸ hdefault : x.isDefault = true).symm.trans hxd
    · refine List.pairwise_append.mpr ⟨h.pairwise, List.pairwise_singleton .., ?_⟩
      rintro x hx y hy (⟨hxd, _⟩ | ⟨method, _, hnames⟩)
      · exact absurd hxd (List.find?_eq_none.mp hfind x hx)
      · obtain rfl := List.mem_singleton.mp hy
        cases (QueryArgs.names_of_isDefault hdefault method).symm.trans hnames
  | specific hdefault hkeys =>
    refine ⟨?_, ?_, ?_, fun bit => ?_, ?_, ?_⟩
    · simpa [List.find?_append, hdefault] using h.default
    · rw [List.filter_append, List.map_append, ← h.queries, List.filter_singleton, hdefault]
      rfl
    · simp [hdefault]
    · simp [Nat.testBit_or, h.methodsSet, QueryArgs.testBit_key]
    · intro x hx hxd
      rcases List.mem_append.mp hx with hx | hx
      · exact h.named x hx hxd
      · obtain rfl := List.mem_singleton.mp hx
        obtain ⟨name, names, hnames⟩ := List.exists_cons_of_ne_nil (of_decide_eq_false hxd)
        obtain ⟨key, hkey, _⟩ := hkeys name (hnames ▸ List.mem_cons_self)
        obtain ⟨bit, rfl⟩ := methodKey_two_pow hkey
        exact ⟨bit, List.any_eq_true.mpr
          ⟨name, hnames ▸ List.mem_cons_self, decide_eq_true hkey⟩⟩
    · refine List.pairwise_append.mpr ⟨h.pairwise, List.pairwise_singleton .., ?_⟩
      rintro x hx y hy (⟨_, hyd⟩ | ⟨method, hxn, hyn⟩)
      · cases (List.mem_singleton.mp hy ▸ hyd : q.isDefault = true).symm.trans hdefault
      · -- the bit of the method has been set by the earlier directive
        obtain rfl := List.mem_singleton.mp hy
        obtain ⟨bit, rfl⟩ := QueryArgs.two_pow_of_names hxn
        obtain ⟨name, hname, hkey⟩ := List.any_eq_true.mp hyn
        obtain ⟨key, hkey', hset⟩ := hkeys name hname
        obtain rfl := Option.some.inj (hkey'.symm.trans (of_decide_eq_true hkey))
        refine and_two_pow_ne_zero.mpr ?_ hset
        rw [h.methodsSet]
        exact List.any_eq_true.mpr ⟨x, hx, hxn⟩

/-- The fields of a block hold its directives. -/
theorem hasQueries_read (h : Block.read env level = .ok b) : b.dlcf.HasQueries level.queries := by
  refine Lib.foldlM_induction (I := fun (ds : List Directive) (b : Block) =>
    b.dlcf.HasQueries (ds.filterMap Directive.query?)) hasQueries_create ?_ h
  intro ds b d b' hb hd
  rw [List.filterMap_append]
  cases Block.apply_cases hd with
  | query hq => exact hb.query hq
  | _ =>
    rw [List.filterMap_cons_none rfl, List.filterMap_nil, List.append_nil]
    exact hb.congr rfl rfl rfl

lemma HasQueries.eq_nil_iff (h : conf.HasQueries qs) :
    conf.defaultQuery = none ∧ conf.queries = none ↔ qs = [] := by
  rw [h.default, h.queries_none, Option.map_eq_none_iff, List.find?_eq_none]
  constructor
  · rintro ⟨hnone, hall⟩
    exact List.eq_nil_iff_forall_not_mem.mpr fun q hq => hnone q hq (hall q hq)
  · rintro rfl
    exact ⟨nofun, nofun⟩

/-- A block without queries of its own has those of the block around it. -/
lemma HasQueries.nest (hprev : prev.HasQueries qs) (h : nest env prev level = .ok conf) :
    conf.HasQueries (level.ownQueries.getD qs) := by
  obtain ⟨b, hb, hm⟩ := Lib.bind_eq_ok.mp h
  have hlevel := hasQueries_read hb
  have hmerge := merge_cases hm
  unfold Level.ownQueries
  split
  · next hnil =>
    obtain ⟨hd, hq⟩ := hlevel.eq_nil_iff.mpr hnil
    obtain ⟨hd, hset, hq⟩ := hmerge.inherits hd hq
    exact hprev.congr hd hset hq
  · next hne =>
    obtain ⟨hd, hset, hq⟩ := hmerge.keeps fun h => hne (hlevel.eq_nil_iff.mp h)
    exact hlevel.congr hd hset hq

/-- The fields of a block hold the directives of the innermost block that has any. -/
theorem hasQueries_load (h : load env main levels = .ok conf) :
    conf.HasQueries ((innermost Level.ownQueries (main :: levels)).getD []) := by
  obtain ⟨b, hb, h⟩ := Lib.bind_eq_ok.mp h
  refine Lib.foldlM_induction (I := fun levels (conf : DrizzleLocConf) =>
    conf.HasQueries ((innermost Level.ownQueries (main :: levels)).getD [])) ?_ ?_ h
  · have hmain := hasQueries_read hb
    rw [innermost, List.reverse_singleton, List.findSome?_singleton, Level.ownQueries]
    split
    · next hnil => exact hnil ▸ hmain
    · exact hmain
  · intro levels prev level conf hprev hn
    rw [← List.cons_append, Lib.innermost_concat]
    have hconf := hprev.nest hn
    cases hown : level.ownQueries with
    | none => rwa [hown] at hconf
    | some qs => rwa [hown] at hconf

/-! ## Choosing a query -/

/-- The fields are searched for the method of a request as the directives would be. -/
lemma HasQueries.find_queries (h : conf.HasQueries qs) (bit : ℕ) :
    ((conf.queries.getD []).find? fun m => m.key &&& 2 ^ bit ≠ 0) =
      (qs.find? (QueryArgs.names (2 ^ bit))).map QueryArgs.mixed := by
  rw [h.queries, List.find?_map, List.find?_filter]
  refine congrArg (fun p => (qs.find? p).map QueryArgs.mixed) (funext fun q => ?_)
  cases hd : q.isDefault with
  | true => simp [QueryArgs.names_of_isDefault hd]
  | false =>
    rw [← QueryArgs.testBit_key, Function.comp, QueryArgs.mixed_key hd]
    simp only [ne_eq, and_two_pow_ne_zero]
    simp

/-- A request for a method that is named gets the query that names it. -/
lemma HasQueries.named_method (h : conf.HasQueries qs)
    (hq : qs.find? (QueryArgs.names (2 ^ bit)) = some q) :
    conf.refuse (2 ^ bit) = none ∧ conf.choose (2 ^ bit) = .query q.mixed := by
  have hset : conf.methodsSet &&& 2 ^ bit ≠ 0 := by
    rw [and_two_pow_ne_zero, h.methodsSet]
    exact List.any_eq_true.mpr ⟨q, List.mem_of_find?_eq_some hq, List.find?_some hq⟩
  have hfind := h.find_queries bit
  rw [hq] at hfind
  refine ⟨if_neg fun h => hset h.2, ?_⟩
  rw [choose, if_pos hset]
  cases hqs : conf.queries with
  | none => simp [hqs] at hfind
  | some ms =>
    rw [hqs, Option.getD_some] at hfind
    simp only [hfind, Option.map_some]

/-- A request for another method gets the default. -/
lemma HasQueries.other_method (h : conf.HasQueries qs)
    (hnone : qs.find? (QueryArgs.names (2 ^ bit)) = none)
    (hq : qs.find? QueryArgs.isDefault = some q) :
    conf.refuse (2 ^ bit) = none ∧ conf.choose (2 ^ bit) = .query q.mixed := by
  have hset : ¬ conf.methodsSet &&& 2 ^ bit ≠ 0 := by
    rw [and_two_pow_ne_zero, h.methodsSet]
    simpa using hnone
  have hdefault := h.default
  rw [hq] at hdefault
  refine ⟨if_neg fun h => ?_, ?_⟩
  · cases h.1.symm.trans hdefault
  · rw [choose, if_neg hset, hdefault]
    rfl

/-- Without a default, the request is refused. -/
lemma HasQueries.no_query (h : conf.HasQueries qs)
    (hnone : qs.find? (QueryArgs.names (2 ^ bit)) = none)
    (hq : qs.find? QueryArgs.isDefault = none) :
    conf.refuse (2 ^ bit) = if qs = [] then some 500 else some 405 := by
  have hset : conf.methodsSet &&& 2 ^ bit = 0 := by
    refine not_not.mp fun hset => ?_
    rw [← ne_eq, and_two_pow_ne_zero, h.methodsSet] at hset
    simp only [List.find?_eq_none] at hnone
    obtain ⟨q, hmem, hq⟩ := List.any_eq_true.mp hset
    exact hnone q hmem hq
  have hdefault := h.default
  rw [hq] at hdefault
  rw [refuse, if_pos ⟨hdefault, hset⟩]
  by_cases hne : qs = []
  · subst hne
    rw [if_pos rfl]
    refine if_neg (not_not.mpr (Nat.eq_of_testBit_eq fun bit => ?_))
    rw [h.methodsSet, Nat.zero_testBit]
    rfl
  · rw [if_neg hne]
    -- each query names some method
    refine if_pos fun hzero => ?_
    obtain ⟨q, rest, rfl⟩ := List.exists_cons_of_ne_nil hne
    have hqd : q.isDefault = false := by simpa using List.find?_eq_none.mp hq q List.mem_cons_self
    obtain ⟨j, hj⟩ := h.named q List.mem_cons_self hqd
    have := h.methodsSet j
    rw [hzero, Nat.zero_testBit, List.any_cons, hj] at this
    cases this

/-- Nothing fails before the query of a request is evaluated: the request gets an upstream, and the
name of its database. -/
structure Serves (henv : HandlerEnv) (conf : DrizzleLocConf) (upstream : ℕ) (dbname : Bytes) :
    Prop where
  inMemory : henv.subrequestInMemory = false
  create : henv.create
  alloc : henv.alloc
  target : conf.complexTarget = .null ∧ conf.upstream = some upstream ∨
    ∃ cv target, conf.complexTarget = .value cv ∧ henv.complexValue cv = some target ∧
      target ≠ [] ∧ henv.upstreamFind target = some upstream
  dbname : conf.initDbname henv = some dbname

lemma handler_of_refuse {henv : HandlerEnv} {method status : ℕ}
    (hmemory : henv.subrequestInMemory = false) (h : conf.refuse method = some status) :
    conf.handler henv method = .status status := by
  have henter : (conf.enter henv method).1 = .returned (.http status) := by
    rw [enter, if_neg (by simp [hmemory]), h]
  rw [handler_eq, henter]

/-- The upstream that the handler finds is that of the configuration which it leaves. -/
lemma Serves.enter {henv : HandlerEnv} {method upstream : ℕ} {dbname : Bytes}
    (h : Serves henv conf upstream dbname) (hrefuse : conf.refuse method = none) :
    ∃ conf', conf.enter henv method = (.init, conf') ∧ conf'.upstream = some upstream ∧
      conf'.initPeer henv method = conf.initPeer henv method := by
  rw [DrizzleLocConf.enter, if_neg (by simp [h.inMemory]), hrefuse]
  dsimp only
  rw [if_neg (by simp [h.create])]
  rcases h.target with ⟨hnull, hup⟩ | ⟨cv, target, hvalue, hcv, hne, hfind⟩
  · rw [hnull]
    dsimp only
    rw [if_pos h.alloc]
    exact ⟨conf, rfl, hup, rfl⟩
  · rw [hvalue]
    dsimp only
    obtain ⟨b, rest, rfl⟩ := List.exists_cons_of_ne_nil hne
    rw [hcv]
    dsimp only
    rw [hfind, if_neg (by simp), if_neg (by simp [h.alloc])]
    exact ⟨_, rfl, rfl, rfl⟩

/-- A request whose query is chosen and can be evaluated is served with this query. -/
lemma handler_of_choose {henv : HandlerEnv} {method upstream : ℕ} {dbname sql : Bytes} {m : Mixed}
    (h : Serves henv conf upstream dbname) (hrefuse : conf.refuse method = none)
    (hchoose : conf.choose method = .query m) (hsql : m.sql henv = some sql) :
    conf.handler henv method = .init upstream (.ok dbname sql) := by
  obtain ⟨conf', henter, hup, hpeer⟩ := h.enter hrefuse
  have hinit : conf.initPeer henv method = .ok dbname sql := by
    rw [initPeer, if_neg (by simp [h.alloc]), h.dbname]
    dsimp only
    rw [hchoose]
    dsimp only
    rw [hsql]
  rw [handler_eq, henter]
  dsimp only
  rw [hup]
  dsimp only
  rw [hpeer, hinit]

/-- `ngx_http_upstream_drizzle_init_peer` is called only for a request that is not refused. -/
lemma handler_init {henv : HandlerEnv} {method upstream : ℕ} {peer : InitPeer}
    (h : conf.handler henv method = .init upstream peer) :
    conf.refuse method = none ∧ peer = conf.initPeer henv method := by
  unfold handler at h
  split at h
  · cases h
  · cases hr : conf.refuse method with
    | some status =>
      rw [hr] at h
      cases h
    | none =>
      refine ⟨rfl, ?_⟩
      rw [hr] at h
      dsimp only at h
      split at h
      · cases h
      · split at h
        · cases h
        · split at h
          · cases h
          · split at h
            · cases h
            · exact (HandlerRet.init.inj h).2.symm
        · split at h
          · cases h
          · cases h
          · split at h
            · cases h
            · split at h
              · cases h
              · exact (HandlerRet.init.inj h).2.symm

lemma initPeer_of_choose (henv : HandlerEnv) {method : ℕ} {m : Mixed}
    (h : conf.choose method = .query m) :
    conf.initPeer henv method = .failed ∨
      ∃ dbname sql, conf.initPeer henv method = .ok dbname sql ∧ m.sql henv = some sql := by
  unfold initPeer
  split
  · exact .inl rfl
  · split
    · exact .inl rfl
    · next dbname _ =>
      rw [h]
      dsimp only
      cases hsql : m.sql henv with
      | none => exact .inl rfl
      | some sql => exact .inr ⟨dbname, sql, rfl, rfl⟩

lemma read_of_load (h : load env main levels = .ok conf) :
    ∀ level ∈ main :: levels, ∃ b, Block.read env level = .ok b := by
  obtain ⟨b, hb, h⟩ := Lib.bind_eq_ok.mp h
  refine Lib.foldlM_induction (I := fun levels (_ : DrizzleLocConf) =>
    ∀ level ∈ main :: levels, ∃ b, Block.read env level = .ok b) ?_ ?_ h
  · intro level hmem
    exact List.mem_singleton.mp hmem ▸ ⟨b, hb⟩
  · intro levels prev level conf hprev hn l hl
    rw [← List.cons_append] at hl
    rcases List.mem_append.mp hl with hl | hl
    · exact hprev l hl
    · obtain ⟨b, hb, _⟩ := Lib.bind_eq_ok.mp hn
      exact List.mem_singleton.mp hl ▸ ⟨b, hb⟩

/-- A request is refused, or gets the query that the directives select. -/
lemma refuse_and_choose (h : load env main levels = .ok conf) (bit : ℕ) :
    match selection (2 ^ bit) (main :: levels) with
    | .missing => conf.refuse (2 ^ bit) = some 500
    | .notAllowed => conf.refuse (2 ^ bit) = some 405
    | .sql q => conf.refuse (2 ^ bit) = none ∧ conf.choose (2 ^ bit) = .query q.mixed := by
  have hq := hasQueries_load h
  unfold selection
  cases hinner : innermost Level.ownQueries (main :: levels) with
  | none =>
    rw [hinner] at hq
    exact hq.no_query rfl rfl
  | some qs =>
    rw [hinner] at hq
    have hne : qs ≠ [] := by
      obtain ⟨_, level, _, _, hown, _⟩ := Lib.innermost_eq_some.mp hinner
      unfold Level.ownQueries at hown
      split at hown
      · cases hown
      · next hne => exact Option.some.inj hown ▸ hne
    dsimp only
    cases hnamed : qs.find? (QueryArgs.names (2 ^ bit)) with
    | some q => exact hq.named_method hnamed
    | none =>
      dsimp only
      cases hdefault : qs.find? QueryArgs.isDefault with
      | some q => exact hq.other_method hnamed hdefault
      | none =>
        dsimp only
        rw [hq.no_query hnamed hdefault]
        exact if_neg hne

/-- A location with a query for one method, in a server with a default. -/
def getInServer : List Level :=
  [⟨.srv, [], [.query ⟨[], ascii "a"⟩]⟩,
    ⟨.loc, ascii "/", [.pass (ascii "db"), .query ⟨[ascii "get"], ascii "b"⟩]⟩]

end DrizzleLocConf

end DrizzleNginx
