/-
# What directives and merges do

What each function that reads a directive, and the merge of two blocks, can do to a configuration
that is not rejected, as lists of cases.  The proofs about queries and about inherited settings use
these cases and do not look at the functions again.
-/
import DrizzleNginx.Model.Config

namespace DrizzleNginx

open Lib (bind_eq_ok)

variable {env : ConfEnv} {conf conf' prev : DrizzleLocConf} {b b' : Block} {args : QueryArgs}

/-! ## `drizzle_query` -/

namespace QueryArgs

/-- The directive is for all methods that have no directive of their own. -/
def isDefault (args : QueryArgs) : Bool := args.methods = []

/-- The directive names a method. -/
def names (method : ℕ) (args : QueryArgs) : Bool :=
  args.methods.any fun name => methodKey name = some method

/-- The keys of the methods that the directive names. -/
def key (args : QueryArgs) : ℕ :=
  args.methods.foldl (fun methods name => methods ||| (methodKey name).getD 0) 0

/-- The entry for the directive. -/
def mixed (args : QueryArgs) : Mixed :=
  .ofSql (if args.isDefault then 0xFFFF else args.key) args.sql

end QueryArgs

lemma compileSql_ok {methods : ℕ} {sql : Bytes} {q : Mixed}
    (h : compileSql env methods sql = .ok q) : q = .ofSql methods sql := by
  unfold compileSql at h
  split at h
  · cases h
  · exact (Except.ok.inj h).symm

/-- All names are those of methods, none of which has a directive already. -/
lemma readMethods_ok {methodsSet methods result : ℕ} {names : List Bytes}
    (h : readMethods methodsSet methods names = .ok result) :
    result = names.foldl (fun methods name => methods ||| (methodKey name).getD 0) methods ∧
      ∀ name ∈ names, ∃ key, methodKey name = some key ∧ methodsSet &&& key = 0 := by
  induction names generalizing methods with
  | nil => exact ⟨(Except.ok.inj h).symm, nofun⟩
  | cons name names ih =>
    unfold readMethods at h
    split at h
    · cases h
    · next key hkey =>
      split at h
      · cases h
      · next hset =>
        obtain ⟨hresult, hnames⟩ := ih h
        refine ⟨by rw [hresult, List.foldl_cons, hkey]; rfl, fun n hn => ?_⟩
        rcases List.mem_cons.mp hn with rfl | hn
        · exact ⟨key, hkey, not_not.mp hset⟩
        · exact hnames n hn

namespace DrizzleLocConf

/-- What `ngx_http_drizzle_query` does. -/
inductive ReadsQuery (conf : DrizzleLocConf) (args : QueryArgs) : DrizzleLocConf → Prop
  | default (hdefault : args.isDefault) (hnone : conf.defaultQuery = none) :
      ReadsQuery conf args { conf with defaultQuery := some args.mixed }
  | specific (hdefault : args.isDefault = false)
      (hkeys : ∀ name ∈ args.methods, ∃ key, methodKey name = some key ∧
        conf.methodsSet &&& key = 0) :
      ReadsQuery conf args { conf with
        queries := some (conf.queries.getD [] ++ [args.mixed])
        methodsSet := conf.methodsSet ||| args.key }

lemma query_cases (h : conf.query env args = .ok conf') : ReadsQuery conf args conf' := by
  unfold query at h
  split at h
  · cases h
  · split at h
    · next hm =>
      split at h
      · cases h
      · next hnone =>
        split at h
        · cases h
        · obtain ⟨q, hq, h⟩ := bind_eq_ok.mp h
          have hdefault : args.isDefault := decide_eq_true hm
          have hmixed : q = args.mixed := by
            rw [compileSql_ok hq, QueryArgs.mixed, if_pos hdefault]
          obtain rfl := Except.ok.inj h
          rw [hmixed]
          exact .default hdefault (not_not.mp hnone)
    · next hm =>
      obtain ⟨methods, hmethods, h⟩ := bind_eq_ok.mp h
      obtain ⟨hkey, hkeys⟩ := readMethods_ok hmethods
      split at h
      · cases h
      · obtain ⟨q, hq, h⟩ := bind_eq_ok.mp h
        have hdefault : args.isDefault = false := decide_eq_false hm
        have hmixed : q = args.mixed := by
          rw [compileSql_ok hq, QueryArgs.mixed, hdefault, if_neg Bool.false_ne_true, hkey]
          rfl
        obtain rfl := Except.ok.inj h
        rw [hmixed, hkey]
        exact .specific hdefault hkeys

end DrizzleLocConf

/-! ## Other directives -/

/-- What the directives for single fields have in common. -/
lemma setSlot_bind {α : Type} {slot : Option α} {value : α} {f : Option α → Block}
    (h : (do let slot' ← setSlot slot value; return f slot') = (.ok b' : Except ConfError Block)) :
    slot = none ∧ b' = f (some value) := by
  obtain ⟨slot', hs, h⟩ := bind_eq_ok.mp h
  unfold setSlot at hs
  split at hs
  · cases hs
  · obtain rfl := Except.ok.inj hs
    exact ⟨rfl, (Except.ok.inj h).symm⟩

namespace Block

/-- What a directive does that is accepted. -/
inductive Applies (env : ConfEnv) (b : Block) : Directive → Block → Prop
  | query {args : QueryArgs} {dlcf : DrizzleLocConf} (h : b.dlcf.ReadsQuery args dlcf) :
      Applies env b (.query args) { b with dlcf := dlcf }
  | dbname {value : Bytes} (hnone : b.dlcf.dbname = none) : Applies env b (.dbname value)
      { b with dlcf := { b.dlcf with dbname := some ⟨value⟩ } }
  | passComplex {target : Bytes} {index : ℕ} {core : CoreLocConf}
      (hnone : b.dlcf.upstream = none) (hindex : env.tidVarIndex = some index)
      (hcore : core.handler = some .drizzle) : Applies env b (.pass target)
        { core := core
          dlcf := { b.dlcf with tidVarIndex := some index, complexTarget := .value ⟨target⟩ } }
  | pass {target : Bytes} {index upstream : ℕ} {core : CoreLocConf}
      (hnone : b.dlcf.upstream = none) (hindex : env.tidVarIndex = some index)
      (hcore : core.handler = some .drizzle) (hadd : env.upstreamAdd target = some upstream) :
      Applies env b (.pass target)
        { core := core
          dlcf := { b.dlcf with
            tidVarIndex := some index
            complexTarget := .null
            upstream := some upstream } }
  | connectTimeout {time : Msec} (hnone : b.dlcf.connectTimeout = none) :
      Applies env b (.connectTimeout time)
        { b with dlcf := { b.dlcf with connectTimeout := some time } }
  | sendQueryTimeout {time : Msec} (hnone : b.dlcf.sendTimeout = none) :
      Applies env b (.sendQueryTimeout time)
        { b with dlcf := { b.dlcf with sendTimeout := some time } }
  | recvColsTimeout {time : Msec} (hnone : b.dlcf.recvColsTimeout = none) :
      Applies env b (.recvColsTimeout time)
        { b with dlcf := { b.dlcf with recvColsTimeout := some time } }
  | recvRowsTimeout {time : Msec} (hnone : b.dlcf.recvRowsTimeout = none) :
      Applies env b (.recvRowsTimeout time)
        { b with dlcf := { b.dlcf with recvRowsTimeout := some time } }
  | moduleHeader {on : Bool} (hnone : b.dlcf.enableModuleHeader = none) :
      Applies env b (.moduleHeader on)
        { b with dlcf := { b.dlcf with enableModuleHeader := some on } }
  | bufferSize {size : ℕ} (hnone : b.dlcf.bufSize = none) : Applies env b (.bufferSize size)
      { b with dlcf := { b.dlcf with bufSize := some size } }
  | maxBuffered {size : ℕ} (hnone : b.dlcf.maxBuffered = none) : Applies env b (.maxBuffered size)
      { b with dlcf := { b.dlcf with maxBuffered := some size } }
  | status : Applies env b .status
      { b with core := { b.core with handler := some .drizzleStatus } }
  | otherHandler : Applies env b .otherHandler
      { b with core := { b.core with handler := some .other } }

lemma pass_cases {target : Bytes} (h : b.pass env target = .ok b') :
    Applies env b (.pass target) b' := by
  unfold pass at h
  split at h
  · cases h
  · next hnone =>
    have hnone := not_not.mp hnone
    split at h
    · cases h
    · split at h
      · cases h
      · next index hindex =>
        dsimp only at h
        split at h
        · split at h
          · cases h
          · obtain rfl := Except.ok.inj h
            exact .passComplex hnone hindex rfl
        · split at h
          · cases h
          · next upstream hadd =>
            obtain rfl := Except.ok.inj h
            exact .pass hnone hindex rfl hadd

/-- What a directive does that is accepted: there are no other cases. -/
theorem apply_cases {kind : BlockKind} {d : Directive} (h : apply env kind b d = .ok b') :
    Applies env b d b' := by
  unfold apply at h
  split at h
  · cases h
  · cases d with
    | query args =>
      obtain ⟨dlcf, hq, h⟩ := bind_eq_ok.mp h
      obtain rfl := Except.ok.inj h
      exact .query (DrizzleLocConf.query_cases hq)
    | dbname value =>
      obtain ⟨dlcf, hd, h⟩ := bind_eq_ok.mp h
      obtain rfl := Except.ok.inj h
      unfold DrizzleLocConf.setDbname at hd
      split at hd
      · cases hd
      · next hnone =>
        split at hd
        · cases hd
        · split at hd
          · cases hd
          · obtain rfl := Except.ok.inj hd
            exact .dbname (not_not.mp hnone)
    | pass target => exact pass_cases h
    | connectTimeout time =>
      obtain ⟨hnone, rfl⟩ := setSlot_bind h
      exact .connectTimeout hnone
    | sendQueryTimeout time =>
      obtain ⟨hnone, rfl⟩ := setSlot_bind h
      exact .sendQueryTimeout hnone
    | recvColsTimeout time =>
      obtain ⟨hnone, rfl⟩ := setSlot_bind h
      exact .recvColsTimeout hnone
    | recvRowsTimeout time =>
      obtain ⟨hnone, rfl⟩ := setSlot_bind h
      exact .recvRowsTimeout hnone
    | moduleHeader on =>
      obtain ⟨hnone, rfl⟩ := setSlot_bind h
      exact .moduleHeader hnone
    | bufferSize size =>
      obtain ⟨hnone, rfl⟩ := setSlot_bind h
      exact .bufferSize hnone
    | maxBuffered size =>
      obtain ⟨hnone, rfl⟩ := setSlot_bind h
      exact .maxBuffered hnone
    | status =>
      obtain rfl := Except.ok.inj h
      exact .status
    | otherHandler =>
      obtain rfl := Except.ok.inj h
      exact .otherHandler

end Block

/-! ## Merging -/

namespace DrizzleLocConf

/-- What `ngx_http_drizzle_merge_loc_conf` does to a block that is accepted. -/
structure Merges (env : ConfEnv) (prev conf conf' : DrizzleLocConf) : Prop where
  enableModuleHeader : conf'.enableModuleHeader =
    some (mergeValue conf.enableModuleHeader prev.enableModuleHeader true)
  connectTimeout : conf'.connectTimeout =
    some (mergeValue conf.connectTimeout prev.connectTimeout 60000)
  sendTimeout : conf'.sendTimeout = some (mergeValue conf.sendTimeout prev.sendTimeout 60000)
  recvColsTimeout : conf'.recvColsTimeout =
    some (mergeValue conf.recvColsTimeout prev.recvColsTimeout 60000)
  recvRowsTimeout : conf'.recvRowsTimeout =
    some (mergeValue conf.recvRowsTimeout prev.recvRowsTimeout 60000)
  dbname : conf'.dbname = if conf.dbname = none then prev.dbname else conf.dbname
  /-- A block without queries of its own gets those of the block around it. -/
  inherits : conf.defaultQuery = none → conf.queries = none →
    conf'.defaultQuery = prev.defaultQuery ∧ conf'.methodsSet = prev.methodsSet ∧
      conf'.queries = prev.queries
  keeps : ¬ (conf.defaultQuery = none ∧ conf.queries = none) →
    conf'.defaultQuery = conf.defaultQuery ∧ conf'.methodsSet = conf.methodsSet ∧
      conf'.queries = conf.queries
  bufSize : ∃ size, conf'.bufSize = some size ∧ 0 < size ∧
    size = mergeValue conf.bufSize prev.bufSize env.pagesize
  maxBuffered : ∃ size, conf'.maxBuffered = some size ∧ (∀ n ∈ conf'.bufSize, n ≤ size) ∧
    size = mergeValue conf.maxBuffered prev.maxBuffered (1024 * 1024)
  tidVarIndex : conf'.tidVarIndex =
    if conf.tidVarIndex = none then prev.tidVarIndex else conf.tidVarIndex
  /-- These fields are not merged. -/
  complexTarget : conf'.complexTarget = conf.complexTarget
  upstream : conf'.upstream = conf.upstream

lemma merge_cases (h : merge env prev conf = .ok conf') : Merges env prev conf conf' := by
  unfold merge at h
  dsimp only at h
  split at h
  · cases h
  · next hpos =>
    split at h
    · cases h
    · next hle =>
      obtain rfl := Except.ok.inj h
      constructor
      case inherits => exact fun hd hq => ⟨if_pos ⟨hd, hq⟩, if_pos ⟨hd, hq⟩, if_pos ⟨hd, hq⟩⟩
      case keeps => exact fun hne => ⟨if_neg hne, if_neg hne, if_neg hne⟩
      case bufSize => exact ⟨_, rfl, Nat.pos_of_ne_zero hpos, rfl⟩
      case maxBuffered =>
        refine ⟨_, rfl, fun n hn => ?_, rfl⟩
        obtain rfl := Option.some.inj hn
        exact Nat.not_lt.mp hle
      all_goals rfl

end DrizzleLocConf
end DrizzleNginx
