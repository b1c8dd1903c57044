/-
# The configuration of a location

The functions of `ngx_http_drizzle_module.c` that read the directives of a location and merge nested
blocks, and those parts of `ngx_http_drizzle_handler` and `ngx_http_upstream_drizzle_init_peer` that
look at the result.

A field that no directive has set holds one of the values `NGX_CONF_UNSET`, which no directive can
set; here it is `none`.  The fields for which the module has no directive are left out.
-/
import DrizzleNginx.Lib.Nested
import DrizzleNginx.Model.Data

namespace DrizzleNginx

/-! ## Data -/

/-- `ngx_http_complex_value_t`: a text with variables. -/
structure ComplexValue where
  value : Bytes
deriving DecidableEq, Repr

/-- `ngx_drizzle_mixed_t`: the SQL of a `drizzle_query` directive, with or without variables. -/
structure Mixed where
  key : ℕ
  sv : Bytes := []
  cv : Option ComplexValue := none
deriving DecidableEq, Repr

/-- The pointer `complex_target`. -/
inductive ComplexTarget
  /-- `NGX_CONF_UNSET_PTR` -/
  | unset
  | null
  | value (cv : ComplexValue)
deriving DecidableEq, Repr

/-- `ngx_http_drizzle_loc_conf_t`.  Upstreams and variables are their indices. -/
structure DrizzleLocConf where
  /-- `upstream.upstream` -/
  upstream : Option ℕ
  connectTimeout : Option Msec
  sendTimeout : Option Msec
  dbname : Option ComplexValue
  defaultQuery : Option Mixed
  methodsSet : ℕ
  queries : Option (List Mixed)
  recvColsTimeout : Option Msec
  recvRowsTimeout : Option Msec
  enableModuleHeader : Option Bool
  complexTarget : ComplexTarget
  bufSize : Option ℕ
  maxBuffered : Option ℕ
  tidVarIndex : Option ℕ
deriving DecidableEq, Repr

/-- The content handlers of a location: those of this module, and others. -/
inductive ContentHandler
  | drizzle
  | drizzleStatus
  | other
deriving DecidableEq, Repr

/-- `ngx_http_core_loc_conf_t` -/
structure CoreLocConf where
  name : Bytes
  handler : Option ContentHandler := none
  autoRedirect : Bool := false
deriving DecidableEq, Repr

/-- The configuration of a block. -/
structure Block where
  core : CoreLocConf
  dlcf : DrizzleLocConf
deriving DecidableEq, Repr

/-- The kinds of blocks: `NGX_HTTP_MAIN_CONF`, `NGX_HTTP_SRV_CONF`, `NGX_HTTP_LOC_CONF` and
`NGX_HTTP_LIF_CONF`. -/
inductive BlockKind
  | main
  | srv
  | loc
  | lif
deriving DecidableEq, Repr

/-- The arguments of `drizzle_query`. -/
structure QueryArgs where
  methods : List Bytes
  sql : Bytes
deriving DecidableEq, Repr

/-- The directives of a block, with arguments that nginx has read. -/
inductive Directive
  | query (args : QueryArgs)
  | dbname (value : Bytes)
  | pass (target : Bytes)
  | connectTimeout (time : Msec)
  | sendQueryTimeout (time : Msec)
  | recvColsTimeout (time : Msec)
  | recvRowsTimeout (time : Msec)
  | moduleHeader (on : Bool)
  | bufferSize (size : ℕ)
  | maxBuffered (size : ℕ)
  | status
  /-- A directive of another module that sets the content handler. -/
  | otherHandler
deriving DecidableEq, Repr

/-- A block as it is written. -/
structure Level where
  kind : BlockKind
  name : Bytes := []
  directives : List Directive
deriving DecidableEq, Repr

/-- Why a configuration is rejected: a directive is not allowed in the block, a function returned or
logged a text, or it returned `NGX_CONF_ERROR` after a failure of nginx. -/
inductive ConfError
  | notAllowed
  | returned (text : String)
  | logged (text : String) (arg : Bytes)
  | failed
deriving DecidableEq, Repr

/-- The answers of nginx while the configuration is read. -/
structure ConfEnv where
  /-- Memory is allocated. -/
  alloc : Bool := true
  /-- `ngx_http_compile_complex_value` -/
  compile : Bytes → Bool := fun _ => true
  /-- `ngx_http_add_variable` -/
  addVariable : Bool := true
  /-- `ngx_http_get_variable_index` -/
  tidVarIndex : Option ℕ := some 0
  /-- `ngx_http_upstream_add` -/
  upstreamAdd : Bytes → Option ℕ := fun _ => some 0
  /-- `ngx_pagesize` -/
  pagesize : ℕ := 4096

/-! ## Reading directives -/

/-- `ngx_drizzle_http_method_t` -/
structure DrizzleHttpMethod where
  name : Bytes
  key : ℕ

/-- The bytes of a text without other characters than those of ASCII. -/
def ascii (s : String) : Bytes := s.toList.map fun c => UInt8.ofNat c.toNat

/-- `sizeof(s) - 1` -/
def size (s : String) : ℕ := (ascii s).length

/-- `ngx_drizzle_http_methods`, for nginx 0.8.41 and later -/
def drizzleHttpMethods : List DrizzleHttpMethod := [
  ⟨ascii "GET", 0x0002⟩,
  ⟨ascii "HEAD", 0x0004⟩,
  ⟨ascii "POST", 0x0008⟩,
  ⟨ascii "PUT", 0x0010⟩,
  ⟨ascii "DELETE", 0x0020⟩,
  ⟨ascii "MKCOL", 0x0040⟩,
  ⟨ascii "COPY", 0x0080⟩,
  ⟨ascii "MOVE", 0x0100⟩,
  ⟨ascii "OPTIONS", 0x0200⟩,
  ⟨ascii "PROPFIND", 0x0400⟩,
  ⟨ascii "PROPPATCH", 0x0800⟩,
  ⟨ascii "LOCK", 0x1000⟩,
  ⟨ascii "UNLOCK", 0x2000⟩,
  ⟨ascii "PATCH", 0x4000⟩]

/-- The lower case letter for an upper case one. -/
def toLower (b : UInt8) : UInt8 := if 65 ≤ b ∧ b ≤ 90 then b ||| 0x20 else b

/-- `ngx_strcasecmp(s1, s2) == 0`: strings end at the first zero. -/
def strcasecmp (s₁ s₂ : Bytes) : Bool :=
  (s₁.takeWhile (· ≠ 0)).map toLower = (s₂.takeWhile (· ≠ 0)).map toLower

/-- The key of the method with a name. -/
def methodKey (name : Bytes) : Option ℕ :=
  (drizzleHttpMethods.find? fun method => strcasecmp name method.name).map DrizzleHttpMethod.key

/-- `ngx_http_script_variables_count` counts dollar signs. -/
def variablesCount (value : Bytes) : ℕ := value.count 36

/-- What becomes of the SQL of a `drizzle_query` directive. -/
def Mixed.ofSql (methods : ℕ) (sql : Bytes) : Mixed :=
  if variablesCount sql ≠ 0 then { key := methods, cv := some ⟨sql⟩ }
  else { key := methods, sv := sql }

/-- The end of `ngx_http_drizzle_query`. -/
def compileSql (env : ConfEnv) (methods : ℕ) (sql : Bytes) : Except ConfError Mixed :=
  if variablesCount sql ≠ 0 ∧ !(env.alloc && env.compile sql) then .error .failed
  else .ok (.ofSql methods sql)

/-- The loop of `ngx_http_drizzle_query` over the names of methods. -/
def readMethods (methodsSet : ℕ) : ℕ → List Bytes → Except ConfError ℕ
  | methods, [] => .ok methods
  | methods, name :: names =>
    match methodKey name with
    | none => .error (.logged "drizzle: invalid method \"%V\"" name)
    | some key =>
      if methodsSet &&& key ≠ 0 then
        .error (.logged "drizzle: \"drizzle_query\" directive for method \"%V\" is duplicate" name)
      else readMethods methodsSet (methods ||| key) names

/-- The slot functions of nginx reject a second directive. -/
def setSlot {α : Type} (slot : Option α) (value : α) : Except ConfError (Option α) :=
  match slot with
  | some _ => .error (.returned "is duplicate")
  | none => .ok (some value)

namespace DrizzleLocConf

/-- `ngx_http_drizzle_create_loc_conf` -/
def create : DrizzleLocConf where
  upstream := none
  connectTimeout := none
  sendTimeout := none
  dbname := none
  defaultQuery := none
  methodsSet := 0
  queries := none
  recvColsTimeout := none
  recvRowsTimeout := none
  enableModuleHeader := none
  complexTarget := .unset
  bufSize := none
  maxBuffered := none
  tidVarIndex := none

/-- `ngx_http_drizzle_query` -/
def query (env : ConfEnv) (args : QueryArgs) (conf : DrizzleLocConf) :
    Except ConfError DrizzleLocConf :=
  if args.sql = [] then
    .error (.logged "drizzle: empty value in \"%V\" directive" (ascii "drizzle_query"))
  else if args.methods = [] then
    if conf.defaultQuery ≠ none then .error (.returned "is duplicate")
    else if !env.alloc then .error .failed
    else do
      let query ← compileSql env 0xFFFF args.sql
      return { conf with defaultQuery := some query }
  else do
    let methods ← readMethods conf.methodsSet 0 args.methods
    if !env.alloc then .error .failed
    else do
      let query ← compileSql env methods args.sql
      return { conf with
        queries := some (conf.queries.getD [] ++ [query])
        methodsSet := conf.methodsSet ||| methods }

/-- `ngx_http_drizzle_set_complex_value_slot` for `drizzle_dbname` -/
def setDbname (env : ConfEnv) (value : Bytes) (conf : DrizzleLocConf) :
    Except ConfError DrizzleLocConf :=
  if conf.dbname ≠ none then .error (.returned "is duplicate")
  else if !env.alloc then .error .failed
  else if value ≠ [] ∧ !env.compile value then .error .failed
  else .ok { conf with dbname := some ⟨value⟩ }

/-- `ngx_conf_merge_value` and its like -/
def mergeValue {α : Type} (conf prev : Option α) (default : α) : α :=
  match conf with
  | some value => value
  | none => prev.getD default

/-- `ngx_http_drizzle_merge_loc_conf` -/
def merge (env : ConfEnv) (prev conf : DrizzleLocConf) : Except ConfError DrizzleLocConf :=
  let inherits := conf.defaultQuery = none ∧ conf.queries = none
  let bufSize := mergeValue conf.bufSize prev.bufSize env.pagesize
  let maxBuffered := mergeValue conf.maxBuffered prev.maxBuffered (1024 * 1024)
  if bufSize = 0 then .error (.logged "drizzle_buffer_size must be non-zero" [])
  else if maxBuffered < bufSize then
    .error (.logged "drizzle_max_buffered must be at least drizzle_buffer_size" [])
  else .ok { conf with
    enableModuleHeader := some (mergeValue conf.enableModuleHeader prev.enableModuleHeader true)
    connectTimeout := some (mergeValue conf.connectTimeout prev.connectTimeout 60000)
    sendTimeout := some (mergeValue conf.sendTimeout prev.sendTimeout 60000)
    recvColsTimeout := some (mergeValue conf.recvColsTimeout prev.recvColsTimeout 60000)
    recvRowsTimeout := some (mergeValue conf.recvRowsTimeout prev.recvRowsTimeout 60000)
    dbname := if conf.dbname = none then prev.dbname else conf.dbname
    defaultQuery := if inherits then prev.defaultQuery else conf.defaultQuery
    methodsSet := if inherits then prev.methodsSet else conf.methodsSet
    queries := if inherits then prev.queries else conf.queries
    bufSize := some bufSize
    maxBuffered := some maxBuffered
    tidVarIndex := if conf.tidVarIndex = none then prev.tidVarIndex else conf.tidVarIndex }

end DrizzleLocConf

namespace Block

/-- A block before its first directive. -/
def create (name : Bytes) : Block where
  core := { name := name }
  dlcf := .create

/-- `ngx_http_drizzle_pass` -/
def pass (env : ConfEnv) (target : Bytes) (b : Block) : Except ConfError Block :=
  if b.dlcf.upstream ≠ none then .error (.returned "is duplicate")
  else if !env.addVariable then .error .failed
  else
    match env.tidVarIndex with
    | none => .error .failed
    | some index =>
      let core := { b.core with
        handler := some .drizzle
        autoRedirect := b.core.autoRedirect || b.core.name.getLast? = some 47 }
      let dlcf := { b.dlcf with tidVarIndex := some index }
      if variablesCount target ≠ 0 then
        if !(env.alloc && env.compile target) then .error .failed
        else .ok { core := core, dlcf := { dlcf with complexTarget := .value ⟨target⟩ } }
      else
        match env.upstreamAdd target with
        | none => .error .failed
        | some upstream => .ok {
            core := core
            dlcf := { dlcf with complexTarget := .null, upstream := some upstream } }

end Block

/-- The blocks in which a directive is allowed: the entries of `ngx_http_drizzle_cmds`. -/
def Directive.allowed (kind : BlockKind) : Directive → Bool
  | pass _ | status | otherHandler => kind = .loc || kind = .lif
  | _ => true

namespace Block

/-- Read a directive. -/
def apply (env : ConfEnv) (kind : BlockKind) (b : Block) (d : Directive) :
    Except ConfError Block :=
  if !d.allowed kind then .error .notAllowed
  else match d with
    | .query args => do return { b with dlcf := ← b.dlcf.query env args }
    | .dbname value => do return { b with dlcf := ← b.dlcf.setDbname env value }
    | .pass target => b.pass env target
    | .connectTimeout time => do
      let slot ← setSlot b.dlcf.connectTimeout time
      return { b with dlcf := { b.dlcf with connectTimeout := slot } }
    | .sendQueryTimeout time => do
      let slot ← setSlot b.dlcf.sendTimeout time
      return { b with dlcf := { b.dlcf with sendTimeout := slot } }
    | .recvColsTimeout time => do
      let slot ← setSlot b.dlcf.recvColsTimeout time
      return { b with dlcf := { b.dlcf with recvColsTimeout := slot } }
    | .recvRowsTimeout time => do
      let slot ← setSlot b.dlcf.recvRowsTimeout time
      return { b with dlcf := { b.dlcf with recvRowsTimeout := slot } }
    | .moduleHeader on => do
      let slot ← setSlot b.dlcf.enableModuleHeader on
      return { b with dlcf := { b.dlcf with enableModuleHeader := slot } }
    | .bufferSize size => do
      let slot ← setSlot b.dlcf.bufSize size
      return { b with dlcf := { b.dlcf with bufSize := slot } }
    | .maxBuffered size => do
      let slot ← setSlot b.dlcf.maxBuffered size
      return { b with dlcf := { b.dlcf with maxBuffered := slot } }
    | .status => .ok { b with core := { b.core with handler := some .drizzleStatus } }
    | .otherHandler => .ok { b with core := { b.core with handler := some .other } }

/-- Read a block. -/
def read (env : ConfEnv) (level : Level) : Except ConfError Block :=
  level.directives.foldlM (apply env level.kind) (create level.name)

end Block

namespace DrizzleLocConf

/-- Read a block and merge it with the one around it.  (nginx reads all blocks first, so it may
report another one of several errors.) -/
def nest (env : ConfEnv) (prev : DrizzleLocConf) (level : Level) :
    Except ConfError DrizzleLocConf := do
  let b ← Block.read env level
  merge env prev b.dlcf

/-- The configuration of a block behind the blocks around it, the outermost one first.  That one is
not merged. -/
def load (env : ConfEnv) (main : Level) (levels : List Level) :
    Except ConfError DrizzleLocConf := do
  let b ← Block.read env main
  levels.foldlM (nest env) b.dlcf

end DrizzleLocConf

/-! ## Requests -/

/-- The way of a request to the block that serves it: a location, and then those `if` blocks in it
whose conditions hold, each with the `if` blocks around it.  The last one serves the request. -/
structure Route where
  main : Level
  /-- The server, and the locations around the location. -/
  outer : List Level
  loc : Level
  ifs : List (List Level × Level) := []
deriving DecidableEq, Repr

namespace Route

/-- The block that serves the request. -/
def block (r : Route) : Level :=
  match r.ifs.getLast? with
  | none => r.loc
  | some (_, level) => level

/-- The blocks around it, without the outermost one. -/
def around (r : Route) : List Level :=
  match r.ifs.getLast? with
  | none => r.outer
  | some (ifs, _) => r.outer ++ r.loc :: ifs

/-- `ngx_http_update_location_config`: each block sets the content handler, if it has one. -/
def update (env : ConfEnv) (handler : Option ContentHandler) (level : Level) :
    Option ContentHandler :=
  match Block.read env level with
  | .ok b => b.core.handler.or handler
  | .error _ => handler

/-- The content handler of the request. -/
def handler (env : ConfEnv) (r : Route) : Option ContentHandler :=
  (r.loc :: r.ifs.map Prod.snd).foldl (update env) none

end Route

/-- The answers of nginx to the calls made for a request. -/
structure HandlerEnv where
  subrequestInMemory : Bool := false
  /-- `ngx_http_upstream_create` -/
  create : Bool := true
  /-- `ngx_http_complex_value` -/
  complexValue : ComplexValue → Option Bytes := fun cv => some cv.value
  /-- `ngx_http_upstream_drizzle_add` -/
  upstreamFind : Bytes → Option ℕ := fun _ => some 0
  /-- Memory is allocated. -/
  alloc : Bool := true
  /-- `DRIZZLE_MAX_DB_SIZE` -/
  maxDbSize : ℕ := 64

/-- What `ngx_http_upstream_drizzle_init_peer` returns. -/
inductive InitPeer
  | ok (dbname query : Bytes)
  | failed
  /-- No query in the array has the method of the request. -/
  | notFound
  /-- A null pointer was dereferenced. -/
  | crashed
deriving DecidableEq, Repr

/-- Which query `ngx_http_upstream_drizzle_init_peer` chooses. -/
inductive QueryChoice
  | query (q : Mixed)
  | notFound
  | crashed
deriving DecidableEq, Repr

/-- What `ngx_http_drizzle_handler` comes to. -/
inductive HandlerRet
  | status (status : ℕ)
  | error
  /-- `NGX_CONF_UNSET_PTR` was dereferenced. -/
  | badPointer
  /-- The upstream is `NULL`. -/
  | noUpstream
  /-- `ngx_http_upstream_dbd_init` was called for an upstream. -/
  | init (upstream : ℕ) (peer : InitPeer)
deriving DecidableEq, Repr

/-- The SQL of a query; `none` if it cannot be evaluated or is empty. -/
def Mixed.sql (env : HandlerEnv) (q : Mixed) : Option Bytes :=
  match q.cv with
  | none => some q.sv
  | some cv =>
    match env.complexValue cv with
    | some [] => none
    | value => value

namespace DrizzleLocConf

/-- The part of `ngx_http_drizzle_handler` that refuses a request for which there is no query. -/
def refuse (conf : DrizzleLocConf) (method : ℕ) : Option ℕ :=
  if conf.defaultQuery = none ∧ conf.methodsSet &&& method = 0 then
    if conf.methodsSet ≠ 0 then some 405 else some 500
  else none

/-- The part of `ngx_http_upstream_drizzle_init_peer` that chooses the query. -/
def choose (conf : DrizzleLocConf) (method : ℕ) : QueryChoice :=
  if conf.methodsSet &&& method ≠ 0 then
    match conf.queries with
    | none => .crashed
    | some queries =>
      match queries.find? fun q => q.key &&& method ≠ 0 with
      | some q => .query q
      | none => .notFound
  else
    match conf.defaultQuery with
    | none => .crashed
    | some q => .query q

/-- The part of `ngx_http_upstream_drizzle_init_peer` that evaluates the name of the database;
`none` if that fails. -/
def initDbname (env : HandlerEnv) (conf : DrizzleLocConf) : Option Bytes :=
  match conf.dbname with
  | none => some []
  | some cv =>
    match env.complexValue cv with
    | none => none
    | some dbname => if env.maxDbSize ≤ dbname.length then none else some dbname

/-- `ngx_http_upstream_drizzle_init_peer` -/
def initPeer (env : HandlerEnv) (method : ℕ) (conf : DrizzleLocConf) : InitPeer :=
  if !env.alloc then .failed
  else
    match conf.initDbname env with
    | none => .failed
    | some dbname =>
      match conf.choose method with
      | .notFound => .notFound
      | .crashed => .crashed
      | .query q =>
        match q.sql env with
        | none => .failed
        | some sql => .ok dbname sql

/-- `ngx_http_drizzle_handler`, up to the call of `ngx_http_upstream_dbd_init`, which calls
`ngx_http_upstream_drizzle_init_peer` for the upstream. -/
def handler (env : HandlerEnv) (method : ℕ) (conf : DrizzleLocConf) : HandlerRet :=
  if env.subrequestInMemory then .status 500
  else
    match conf.refuse method with
    | some status => .status status
    | none =>
      if !env.create then .status 500
      else
        match conf.complexTarget with
        | .unset => .badPointer
        | .null =>
          if !env.alloc then .status 500
          else
            match conf.upstream with
            | none => .noUpstream
            | some upstream => .init upstream (conf.initPeer env method)
        | .value cv =>
          match env.complexValue cv with
          | none => .error
          | some [] => .status 500
          | some target =>
            match env.upstreamFind target with
            | none => .status 500
            | some upstream =>
              if !env.alloc then .status 500
              else .init upstream (conf.initPeer env method)

end DrizzleLocConf
end DrizzleNginx
