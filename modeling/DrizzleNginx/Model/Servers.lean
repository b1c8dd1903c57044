/-
# The directives of an upstream block

`ngx_http_upstream_drizzle_server` and `ngx_http_upstream_drizzle_keepalive`, which read the
directives of an upstream block, and `ngx_http_upstream_drizzle_init`, which nginx calls behind them
and which is the first to set `peers`.

A text is bytes without the zero that nginx puts behind the arguments of a directive; the arguments
themselves can contain zeros.  `uscf->servers` is the array `dscf->servers`, and of the other fields
of `uscf` only those are kept that the module sets or shows.
-/
import DrizzleNginx.Model.Config

namespace DrizzleNginx

/-! ## Data -/

/-- `ngx_addr_t` -/
structure Addr where
  sockaddr : Bytes
  name : Bytes
deriving DecidableEq, Repr

/-- What `ngx_parse_url` leaves in an `ngx_url_t`: it has found an address. -/
structure Url where
  addrs : List Addr
  port : ℕ
  addrs_pos : 0 < addrs.length

/-- Memory of `ngx_palloc`, byte by byte: those that are `none` have not been written. -/
abbrev Cells := List (Option UInt8)

/-- An `ngx_str_t` that has memory of its own. -/
structure NgxStr where
  data : Cells := []
  len : ℕ := 0
deriving DecidableEq, Repr

/-- The bytes of a text that have been written. -/
def NgxStr.bytes (s : NgxStr) : Bytes := (s.data.take s.len).filterMap id

/-- `ngx_http_upstream_drizzle_server_t` -/
@[ext] structure DrizzleServer where
  addrs : List Addr
  port : ℕ
  user : Bytes
  password : Bytes
  dbname : Bytes
  setNamesQuery : NgxStr
  protocol : Protocol
  addrs_pos : 0 < addrs.length

/-- `ngx_http_upstream_drizzle_peers_t`; `number` is the length of the list. -/
structure Peers where
  name : Bytes
  peer : List Peer
  peer_pos : 0 < peer.length

/-- `ngx_http_upstream_drizzle_srv_conf_t`, while the configuration is read. -/
@[ext] structure DrizzleSrvConf where
  /-- `none` is `NULL`, also for `servers`. -/
  peers : Option Peers
  servers : Option (List DrizzleServer)
  single : Bool
  maxCached : UInt64
  overflow : Overflow
  /-- `uscf->peer.init_upstream` is `ngx_http_upstream_drizzle_init`. -/
  initUpstream : Bool

/-- `ngx_http_upstream_drizzle_create_srv_conf` -/
def DrizzleSrvConf.create : DrizzleSrvConf where
  peers := none
  servers := none
  single := false
  maxCached := 0
  overflow := .ignore
  initUpstream := false

/-- How a handler ends that does not return `NGX_CONF_OK`. -/
inductive ConfFailure
  | error (e : ConfError)
  /-- `dscf->peers` is `NULL`, and was dereferenced. -/
  | nullPeers
deriving DecidableEq, Repr

/-- The answers of nginx to the handlers, and the limits of libdrizzle. -/
structure ServersEnv where
  /-- `ngx_array_create` and `ngx_array_push` -/
  arrayCreate : Bool := true
  arrayPush : Bool := true
  /-- `ngx_palloc` for the argument with an index -/
  palloc : ℕ → Bool := fun _ => true
  /-- `ngx_parse_url`: where it fails, it can set `u.err`. -/
  parseUrl : Bytes → Except (Option String) Url
  /-- `ngx_atoi` -/
  atoi : Bytes → ℤ
  /-- `NGX_MAX_INT_T_VALUE` -/
  maxInt : ℕ := 2 ^ 63 - 1
  maxInt_lt : maxInt < 2 ^ 63 := by decide
  /-- `DRIZZLE_MAX_DB_SIZE`, `DRIZZLE_MAX_USER_SIZE` and `DRIZZLE_MAX_PASSWORD_SIZE` -/
  maxDbSize : ℕ := 64
  maxUserSize : ℕ := 64
  maxPasswordSize : ℕ := 32

/-- `ngx_strncmp(s1, s2, n) == 0`: strings end at the first zero. -/
def strncmp (s₁ s₂ : Bytes) (n : ℕ) : Bool :=
  (s₁.takeWhile (· ≠ 0)).take n = (s₂.takeWhile (· ≠ 0)).take n

/-! ## drizzle_server -/

/-- `ngx_copy` to a place in a block, with the place behind the copy.  A copy that does not fit
makes the block longer than it is. -/
def ngxCopy (p : Cells × ℕ) (src : Bytes) : Cells × ℕ :=
  (p.1.take p.2 ++ src.map some ++ p.1.drop (p.2 + src.length), p.2 + src.length)

/-- The query for a charset, in a block of the length that is allocated for it. -/
def setNamesQuery (charset : Bytes) : NgxStr :=
  let len := size "set names ''" + charset.length
  let p : Cells × ℕ := (List.replicate len none, 0)
  let p := ngxCopy p (ascii "set names '")
  let p := ngxCopy p charset
  let p := ngxCopy p (ascii "'")
  { data := p.1, len := len }

/-- What happens when a value is too large: the message names `dscf->peers->name`. -/
def DrizzleSrvConf.tooLarge (dscf : DrizzleSrvConf) (field : String) (limit : ℕ) : ConfFailure :=
  match dscf.peers with
  | none => .nullPeers
  | some peers => .error (.logged ("drizzle: \"" ++ field ++ "\" value too large in upstream \"%V\""
      ++ " (at most " ++ toString limit ++ " bytes)") peers.name)

/-- One pass of the loop of `ngx_http_upstream_drizzle_server`, for an argument and its index. -/
def readServerOption (env : ServersEnv) (dscf : DrizzleSrvConf) (ds : DrizzleServer)
    (arg : Bytes × ℕ) : Except ConfFailure DrizzleServer :=
  let value := arg.1
  if strncmp value (ascii "dbname=") (size "dbname=") then
    let dbname := value.drop (size "dbname=")
    if env.maxDbSize ≤ dbname.length then .error (dscf.tooLarge "dbname" env.maxDbSize)
    else .ok { ds with dbname := dbname }
  else if strncmp value (ascii "user=") (size "user=") then
    let user := value.drop (size "user=")
    if env.maxUserSize ≤ user.length then .error (dscf.tooLarge "user" env.maxUserSize)
    else .ok { ds with user := user }
  else if strncmp value (ascii "password=") (size "password=") then
    let password := value.drop (size "password=")
    if env.maxPasswordSize ≤ password.length then
      .error (dscf.tooLarge "password" env.maxPasswordSize)
    else .ok { ds with password := password }
  else if strncmp value (ascii "protocol=") (size "protocol=") then
    let protocol := value.drop (size "protocol=")
    if protocol.length = 5 ∧ strncmp protocol (ascii "mysql") 5 then
      .ok { ds with protocol := .mysql }
    else if protocol.length = 7 ∧ strncmp protocol (ascii "drizzle") 7 then
      .ok { ds with protocol := .drizzle }
    else .error (.error (.logged "drizzle: invalid protocol \"%V\" in drizzle_server" protocol))
  else if strncmp value (ascii "charset=") (size "charset=") then
    let charset := value.drop (size "charset=")
    if charset.length = 0 then .ok ds
    else if 39 ∈ charset then
      .error (.error (.logged "bad charste value \"%V\" in drizzle_server" charset))
    else if !env.palloc arg.2 then .error (.error .failed)
    else .ok { ds with setNamesQuery := setNamesQuery charset }
  else .error (.error (.logged "invalid parameter \"%V\" in drizzle_server" value))

/-- The server that `ngx_http_upstream_drizzle_server` has pushed when its loop begins. -/
def DrizzleServer.start (u : Url) : DrizzleServer where
  addrs := u.addrs
  port := u.port
  user := []
  password := []
  dbname := []
  setNamesQuery := {}
  protocol := .drizzle
  addrs_pos := u.addrs_pos

/-- `ngx_http_upstream_drizzle_server`, for the arguments behind the name of the directive -/
def drizzleServer (env : ServersEnv) (url : Bytes) (options : List Bytes) (dscf : DrizzleSrvConf) :
    Except ConfFailure DrizzleSrvConf :=
  if dscf.servers.isNone && !env.arrayCreate then .error (.error .failed)
  else if !env.arrayPush then .error (.error .failed)
  else
    match env.parseUrl url with
    | .error none => .error (.error .failed)
    | .error (some err) =>
      .error (.error (.logged ("drizzle: " ++ err ++ " in upstream \"%V\"") url))
    | .ok u => do
      let ds ← (options.zipIdx 2).foldlM (readServerOption env dscf) (.start u)
      .ok { dscf with servers := some (dscf.servers.getD [] ++ [ds]), initUpstream := true }

/-! ## drizzle_keepalive -/

/-- `ngx_http_drizzle_strcmp_const(s, key) == 0` -/
def strcmpConst (s : Bytes) (key : String) : Bool := strncmp s (ascii key) (size key)

/-- One pass of the loop of `ngx_http_upstream_drizzle_keepalive`. -/
def readKeepaliveOption (env : ServersEnv) (dscf : DrizzleSrvConf) (value : Bytes) :
    Except ConfFailure DrizzleSrvConf :=
  if strcmpConst value "max=" then
    let n := env.atoi (value.drop (size "max="))
    if n = -1 ∨ n < 0 then
      .error (.error (.logged "invalid \"max\" value \"%V\" in \"drizzle_keepalive\" directive"
        value))
    else .ok { dscf with maxCached := .ofNat n.toNat }
  else if strcmpConst value "mode=" then
    let data := value.drop (size "mode=")
    if data.length = 6 ∧ strncmp data (ascii "single") 6 then .ok { dscf with single := true }
    else if data.length = 5 ∧ strncmp data (ascii "multi") 5 then .ok { dscf with single := false }
    else .error (.error (.logged "drizzle: invalid parameter \"%V\"" value))
  else if strcmpConst value "overflow=" then
    let data := value.drop (size "overflow=")
    if data.length = 6 ∧ strncmp data (ascii "reject") 6 then
      .ok { dscf with overflow := .reject }
    else if data.length = 6 ∧ strncmp data (ascii "ignore") 6 then
      .ok { dscf with overflow := .ignore }
    else .error (.error (.logged "drizzle: invalid parameter \"%V\"" value))
  else
    .error (.error (.logged
      "drizzle: invalid parameter \"%V\" in \"drizzle_keepalive\" directive" value))

/-- `ngx_http_upstream_drizzle_keepalive`, for the arguments behind the name of the directive -/
def drizzleKeepalive (env : ServersEnv) (options : List Bytes) (dscf : DrizzleSrvConf) :
    Except ConfFailure DrizzleSrvConf :=
  if dscf.maxCached ≠ 0 then .error (.error (.returned "is duplicate"))
  else options.foldlM (readKeepaliveOption env) dscf

/-! ## Upstream blocks -/

/-- The directives of the module in an upstream block, with their arguments.  Of `drizzle_server`
the first one is the address. -/
inductive UpstreamDirective
  | server (url : Bytes) (options : List Bytes)
  | keepalive (options : List Bytes)
deriving DecidableEq, Repr

/-- The handlers of the directives. -/
def UpstreamDirective.handle (env : ServersEnv) (dscf : DrizzleSrvConf) :
    UpstreamDirective → Except ConfFailure DrizzleSrvConf
  | .server url options => drizzleServer env url options dscf
  | .keepalive options => drizzleKeepalive env options dscf

/-- The directives of an upstream block are read one after the other. -/
def readUpstream (env : ServersEnv) (directives : List UpstreamDirective) :
    Except ConfFailure DrizzleSrvConf :=
  directives.foldlM (UpstreamDirective.handle env) .create

/-! ## The end of a block -/

/-- The answers of nginx to `ngx_http_upstream_drizzle_init`. -/
structure InitEnv where
  /-- `ngx_pcalloc` of the peers -/
  peers : Bool := true
  /-- `ngx_palloc` of the host of the peer with an index -/
  host : ℕ → Bool := fun _ => true
  /-- `ngx_pcalloc` of the items, in `ngx_http_drizzle_keepalive_init` -/
  cached : Bool := true
  /-- `ngx_sock_ntop` -/
  sockNtop : Bytes → Bytes

/-- The peers of a server: one for each of its addresses. -/
def DrizzleServer.toPeers (env : InitEnv) (server : DrizzleServer) : List Peer :=
  server.addrs.map fun addr => {
    sockaddr := addr.sockaddr
    name := addr.name
    host := env.sockNtop addr.sockaddr
    port := server.port
    user := server.user
    password := server.password
    dbname := server.dbname
    protocol := server.protocol
    setNamesQuery := server.setNamesQuery.bytes }

/-- The loop of `ngx_http_upstream_drizzle_init` -/
def initPeers (env : InitEnv) (servers : List DrizzleServer) : List Peer :=
  servers.flatMap (DrizzleServer.toPeers env)

lemma initPeers_pos (env : InitEnv) (server : DrizzleServer) (servers : List DrizzleServer) :
    0 < (initPeers env (server :: servers)).length := by
  rw [initPeers, List.flatMap_cons, List.length_append, DrizzleServer.toPeers, List.length_map]
  exact Nat.add_pos_left server.addrs_pos _

/-- `ngx_http_upstream_drizzle_init`, with `ngx_http_drizzle_keepalive_init`, for an upstream with a
name.  (The queues that it sets up are those of `Pool.init`.) -/
def drizzleInit (env : InitEnv) (host : Bytes) (dscf : DrizzleSrvConf) :
    Except ConfFailure DrizzleSrvConf :=
  match dscf.servers with
  | some (server :: servers) =>
    let peer := initPeers env (server :: servers)
    if !env.peers then .error (.error .failed)
    else if (List.range peer.length).any fun n => !env.host n then .error (.error .failed)
    else
      let peers : Peers := {
        name := host, peer := peer, peer_pos := initPeers_pos env server servers }
      if dscf.maxCached ≠ 0 ∧ !env.cached then .error (.error .failed)
      else .ok { dscf with peers := some peers }
  | _ =>
    .error (.error (.logged "drizzle: no drizzle_server defined in upstream \"%V\" in %s:%ui" host))

/-- What the requests of a worker process find, with the event model and the byte order of the host.
-/
def DrizzleSrvConf.conf (dscf : DrizzleSrvConf) (addConn : Bool) (endian : Rds.Endian) :
    Option Conf :=
  dscf.peers.map fun peers => {
    peers := peers.peer
    single := dscf.single
    maxCached := dscf.maxCached.toNat
    overflow := dscf.overflow
    addConn := addConn
    endian := endian
    peers_pos := peers.peer_pos
    maxCached_lt := dscf.maxCached.toNat_lt }

/-! ## Samples -/

/-- Every address is that of one server, and no call fails, for examples. -/
def ServersEnv.sample (atoi : Bytes → ℤ) : ServersEnv where
  parseUrl _ := .ok {
    addrs := [⟨[1], ascii "127.0.0.1:3306"⟩], port := 3306, addrs_pos := Nat.one_pos }
  atoi := atoi

end DrizzleNginx
