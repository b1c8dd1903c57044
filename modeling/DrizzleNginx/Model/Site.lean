/-
# A worker process with several upstreams

The upstream blocks and the locations of a configuration in one worker process.  A target with
variables is evaluated for each request, and `ngx_http_drizzle_handler` writes the upstream that it
finds into the configuration of the location, which all requests share;
`ngx_http_upstream_dbd_init_request` reads it from there.  What follows works on the
`ngx_http_upstream_drizzle_srv_conf_t` that `ngx_http_upstream_drizzle_init_peer` has put into the
peer data of the request.

All upstreams take connections from one supply, so that a connection could get into a wrong pool.
-/
import DrizzleNginx.Lib.Lanes
import DrizzleNginx.Model.Config
import DrizzleNginx.Model.System

namespace DrizzleNginx

/-! ## Upstreams and locations -/

/-- `ngx_http_upstream_srv_conf_t`: an upstream block.  For those with a `drizzle_server`,
`peer.init` is `ngx_http_upstream_drizzle_init_peer`, and there is a configuration of this module.
-/
structure UpstreamSrvConf where
  host : Bytes
  port : ℕ := 0
  conf : Option Conf

/-- A location: the record that its requests share, and the settings that nobody changes. -/
structure Location where
  dlcf : DrizzleLocConf
  settings : LocConf

/-- `ngx_strncasecmp(s1, s2, n) == 0` -/
def strncasecmp (s₁ s₂ : Bytes) (n : ℕ) : Bool := strcasecmp (s₁.take n) (s₂.take n)

/-- `ngx_http_upstream_drizzle_add`, for nginx 1.11.6 and later: the place of the first upstream
that has the host and the port. -/
def upstreamDrizzleAdd (upstreams : List UpstreamSrvConf) (host : Bytes) (port : ℕ) : Option ℕ :=
  upstreams.findIdx? fun u =>
    u.host.length = host.length && strncasecmp u.host host host.length && u.port = port

/-- What `ngx_http_drizzle_handler` comes to before `ngx_http_upstream_dbd_init` is called. -/
inductive Entry
  | returned (rc : Rc)
  /-- `NGX_CONF_UNSET_PTR` was dereferenced. -/
  | badPointer
  /-- `ngx_http_upstream_dbd_init` is called. -/
  | init
deriving DecidableEq, Repr

/-- `ngx_http_drizzle_handler`, up to the call of `ngx_http_upstream_dbd_init`, with what it leaves
in the configuration of the location. -/
def DrizzleLocConf.enter (env : HandlerEnv) (method : ℕ) (conf : DrizzleLocConf) :
    Entry × DrizzleLocConf :=
  if env.subrequestInMemory then (.returned (.http 500), conf)
  else
    match conf.refuse method with
    | some status => (.returned (.http status), conf)
    | none =>
      if !env.create then (.returned (.http 500), conf)
      else
        match conf.complexTarget with
        | .unset => (.badPointer, conf)
        | .null => (if env.alloc then .init else .returned (.http 500), conf)
        | .value cv =>
          match env.complexValue cv with
          | none => (.returned .error, conf)
          | some [] => (.returned (.http 500), conf)
          | some target =>
            let conf := { conf with upstream := env.upstreamFind target }
            if conf.upstream = none then (.returned (.http 500), conf)
            else if !env.alloc then (.returned (.http 500), conf)
            else (.init, conf)

/-- `handler` is the part up to the call of `ngx_http_upstream_dbd_init`, and then what it finds in
the configuration. -/
lemma DrizzleLocConf.handler_eq (env : HandlerEnv) (method : ℕ) (conf : DrizzleLocConf) :
    conf.handler env method =
      match (conf.enter env method).1 with
      | .returned (.http status) => .status status
      | .returned _ => .error
      | .badPointer => .badPointer
      | .init =>
        match (conf.enter env method).2.upstream with
        | none => .noUpstream
        | some upstream => .init upstream ((conf.enter env method).2.initPeer env method) := by
  unfold handler enter
  split
  · rfl
  · cases conf.refuse method with
    | some status => rfl
    | none =>
      dsimp only
      split
      · rfl
      · cases conf.complexTarget with
        | unset => rfl
        | null =>
          cases env.alloc with
          | true => rfl
          | false => rfl
        | value cv =>
          dsimp only
          rcases env.complexValue cv with _ | target
          · rfl
          · cases target with
            | nil => rfl
            | cons b target =>
              dsimp only
              rcases env.upstreamFind (b :: target) with _ | upstream
              · rfl
              · cases env.alloc with
                | true => rfl
                | false => rfl

/-! ## Requests -/

/-- A request that arrives at a location.  `setupOk` says that nothing fails between the call of
`ngx_http_upstream_dbd_init` and the place where the upstream is read. -/
structure Incoming where
  loc : ℕ
  method : ℕ := 0x0002
  env : HandlerEnv := {}
  bodyInFile : Bool := false
  setupOk : Bool := true

/-- The answers to the calls made for a request: upstreams are looked up in the table. -/
def Incoming.answers (q : Incoming) (upstreams : List UpstreamSrvConf) : HandlerEnv :=
  { q.env with upstreamFind := fun target => upstreamDrizzleAdd upstreams target 0 }

/-- A request for which `ngx_http_upstream_drizzle_init_peer` has been called: `dp->srv_conf` is
that of the upstream. -/
structure Served where
  incoming : Incoming
  upstream : ℕ
  req : Req

/-- What the worker process is doing. -/
inductive Running
  /-- `ngx_http_drizzle_handler` has called `ngx_http_upstream_dbd_init` for a request; the upstream
  has not been read. -/
  | entered (q : Incoming)
  | serving (i : ℕ) (p : Pos)
  /-- `peer.init` of the upstream is a function of another module, and so is what follows. -/
  | elsewhere (q : Incoming) (v : ℕ)
  /-- A bad pointer was dereferenced. -/
  | crashed

/-- A worker process with several upstreams.  Each has its part of
`ngx_http_upstream_drizzle_srv_conf_t` that changes. -/
structure Site where
  upstreams : List UpstreamSrvConf
  pools : ℕ → Pool
  locs : List Location
  conns : ℕ → Conn
  /-- The upstreams for which connections have been created, the first one first. -/
  origin : List ℕ
  now : Msec
  reqs : List Served
  active : Option Running

/-- A configuration: the upstreams and the locations. -/
structure SiteConf where
  upstreams : List UpstreamSrvConf
  locs : List Location

/-- The configuration of this module for an upstream. -/
def SiteConf.srvConf (conf : SiteConf) (v : ℕ) : Option Conf :=
  conf.upstreams[v]?.bind UpstreamSrvConf.conf

namespace Site

/-- A step of the worker process. -/
inductive Label
  | arrive (q : Incoming)
  | run (env : Env)
  | event (i : ℕ) (e : Event)
  | client (i : ℕ) (c : ClientConn)
  /-- The connection in a slot of the pool of an upstream is readable. -/
  | idle (v slot : ℕ) (stale : Bool)
  | tick (now : Msec)

/-- The worker process before the first request. -/
def init (conf : SiteConf) : Site where
  upstreams := conf.upstreams
  pools v := (conf.srvConf v).elim {} fun c => Pool.init c.maxCached
  locs := conf.locs
  conns := fun _ => {}
  origin := []
  now := 0
  reqs := []
  active := none

/-- The configuration of this module for an upstream. -/
def srvConf (s : Site) (v : ℕ) : Option Conf := s.upstreams[v]?.bind UpstreamSrvConf.conf

/-- What the functions of the module see when they are called for an upstream. -/
def worker (s : Site) (v : ℕ) (c : Conf) : Worker where
  conf := c
  pool := s.pools v
  conns := s.conns
  nconns := s.origin.length
  now := s.now

/-- What the functions of the module work on when they are called for a request. -/
def view (s : Site) (c : Conf) (q : Served) : St := { w := s.worker q.upstream c, r := q.req }

/-- The effect of functions that were called for an upstream. -/
def putWorker (s : Site) (v : ℕ) (w : Worker) : Site :=
  { s with
    pools := Function.update s.pools v w.pool
    conns := w.conns
    origin := s.origin ++ List.replicate (w.nconns - s.origin.length) v
    now := w.now }

/-- The effect of functions that were called for a request. -/
def put (s : Site) (i : ℕ) (q : Served) (p : Pos × St) : Site :=
  { s.putWorker q.upstream p.2.w with
    reqs := s.reqs.set i { q with req := p.2.r }
    active := (p.1.settle p.2.r).map fun p => .serving i p }

/-- `ngx_http_drizzle_handler`, up to the call of `ngx_http_upstream_dbd_init`, for a request at a
location. -/
def enter (s : Site) (q : Incoming) (l : Location) : Site :=
  let (entry, dlcf) := l.dlcf.enter (q.answers s.upstreams) q.method
  { s with
    locs := s.locs.set q.loc { l with dlcf := dlcf }
    active := match entry with
      | .returned _ => none
      | .badPointer => some .crashed
      | .init => some (.entered q) }

/-- A request gets its peer data. -/
def serve (s : Site) (q : Incoming) (v : ℕ) (c : Conf) (a : Arrival) : Site :=
  { s with
    reqs := s.reqs ++ [{
      incoming := q
      upstream := v
      req := Req.init (s.worker v c) (Lib.lane Served.upstream v s.reqs).length a }]
    active := some (.serving s.reqs.length
      (if a.initOk then .dbdConnect else .finalize (.http 500))) }

/-- `ngx_http_upstream_drizzle_init_peer` for an upstream of this module. -/
def initPeer (s : Site) (q : Incoming) (l : Location) (v : ℕ) (c : Conf) : Site :=
  let a : Arrival := { loc := l.settings, query := [], bodyInFile := q.bodyInFile }
  match l.dlcf.initPeer (q.answers s.upstreams) q.method with
  | .ok dbname query => s.serve q v c { a with dbname := dbname, query := query }
  | .failed => s.serve q v c { a with initOk := false }
  | .notFound => s.serve q v c { a with initOk := false }
  | .crashed => { s with active := some .crashed }

/-- `ngx_http_upstream_dbd_init`, up to the return of `peer.init`, for a request at a location: the
upstream is read from the configuration of the location. -/
def dbdInit (s : Site) (q : Incoming) (l : Location) : Site :=
  if !q.setupOk then { s with active := none }
  else
    match l.dlcf.upstream with
    | none => { s with active := some .crashed }
    | some v =>
      match s.srvConf v with
      | none => { s with active := some (.elsewhere q v) }
      | some c => s.initPeer q l v c

/-- A step of the worker process; a step that is not possible has no effect. -/
def step (s : Site) (l : Label) : Site :=
  match l with
  | .arrive q =>
    match s.active, s.locs[q.loc]? with
    | none, some l => s.enter q l
    | _, _ => s
  | .run env =>
    match s.active with
    | some (.entered q) =>
      match s.locs[q.loc]? with
      | none => s
      | some l => s.dbdInit q l
    | some (.serving i p) =>
      match s.reqs[i]? with
      | none => s
      | some q =>
        match s.srvConf q.upstream with
        | none => s
        | some c => s.put i q ((s.view c q).exec env p)
    | _ => s
  | .event i e =>
    match s.active, s.reqs[i]? with
    | none, some q =>
      match s.srvConf q.upstream with
      | none => s
      | some c => if e.enabled (s.view c q) then s.put i q (.event e, e.fire (s.view c q)) else s
    | _, _ => s
  | .client i c =>
    match s.reqs[i]? with
    | none => s
    | some q => { s with reqs := s.reqs.set i { q with req := q.req.onClient c } }
  | .idle v slot stale =>
    match s.active, s.srvConf v with
    | none, some c => s.putWorker v ((s.worker v c).closeHandler slot stale)
    | _, _ => s
  | .tick now =>
    match s.active with
    | some _ => s
    | none => { s with now := now }

/-- The state that a run of the worker process reaches. -/
def run (conf : SiteConf) (ls : List Label) : Site := Lib.run step (init conf) ls

/-! ## Samples -/

/-- A location with a variable as its target and two upstreams, `a` and `b`, for examples. -/
def sampleConf (a b : Conf) : SiteConf where
  upstreams := [⟨[97], 0, some a⟩, ⟨[98], 0, some b⟩]
  locs := [{
    dlcf := { DrizzleLocConf.create with
      complexTarget := .value ⟨[36]⟩
      defaultQuery := some { key := 0xFFFF, sv := [7] } }
    settings := (Arrival.sample []).loc }]

/-- A request whose target has that value, for examples. -/
def sampleIncoming (target : Bytes) : Incoming where
  loc := 0
  env := { complexValue := fun _ => some target }

/-- A request arrives and waits for a new connection, for examples. -/
def sampleArrival (target : Bytes) : List Label :=
  [.arrive (sampleIncoming target), .run {}, .run { peer := { con := .ioWait } }, .run {}, .run {}]

end Site
end DrizzleNginx
