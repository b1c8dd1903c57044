/-
# The data of a worker process

The records of the module and the parts of nginx's records that its functions read and
write: return codes, events, connections, output buffers, the keepalive pool, and the
request with its upstream and peer data.

Pointers to connections are numbers: a number stands for a database connection, that is a
`drizzle_con_st` together with the `ngx_connection_t` that wraps its descriptor, and is
never used twice.  Fields that only record what has happened are called histories; they
have the newest entry first, and no function of the module reads them.
-/
import DrizzleNginx.Model.Libdrizzle
import DrizzleNginx.Rds.Format

namespace DrizzleNginx

/-- `ngx_msec_t`: milliseconds, in wrapping arithmetic. -/
abbrev Msec := UInt64

/-- The values of `ngx_int_t` that the functions of the module return: the constants of
nginx, or the status of a response. -/
inductive Rc
  | ok
  | error
  | again
  | busy
  | done
  | declined
  | http (status : ℕ)
deriving DecidableEq, Repr

namespace Rc

/-- `rc == NGX_ERROR || rc >= NGX_HTTP_SPECIAL_RESPONSE` -/
def failed : Rc → Bool
  | error => true
  | http status => 300 ≤ status
  | _ => false

/-- `rc > NGX_OK` -/
def positive : Rc → Bool
  | http status => 0 < status
  | _ => false

end Rc

/-! ## Configuration -/

/-- `ngx_http_upstream_drizzle_protocol_t` -/
inductive Protocol
  | drizzle
  | mysql
deriving DecidableEq, Repr

/-- `ngx_http_drizzle_keepalive_overflow_t` -/
inductive Overflow
  | ignore
  | reject
deriving DecidableEq, Repr

/-- `ngx_http_upstream_drizzle_peer_t`.  The length of the socket address is that of the
list; the query is empty for a server without a charset. -/
structure Peer where
  sockaddr : Bytes
  name : Bytes
  host : Bytes
  port : ℕ
  user : Bytes
  password : Bytes
  dbname : Bytes
  protocol : Protocol
  setNamesQuery : Bytes
deriving DecidableEq, Repr

/-- What does not change while the worker runs: the peers of the upstream block, its
`drizzle_keepalive` settings, whether the event model has `ngx_add_conn`, and the byte order
of the host. -/
structure Conf where
  peers : List Peer
  single : Bool
  maxCached : ℕ
  overflow : Overflow
  addConn : Bool
  endian : Rds.Endian
  /-- `ngx_http_upstream_drizzle_init` rejects an upstream without servers. -/
  peers_pos : 0 < peers.length
  /-- `max_cached` is an `ngx_uint_t`. -/
  maxCached_lt : maxCached < 2 ^ 64 := by decide

/-- The peer at an index. -/
def Conf.peer (c : Conf) (i : ℕ) : Peer :=
  c.peers.get ⟨i % c.peers.length, Nat.mod_lt _ c.peers_pos⟩

/-- The settings of the location of a request: `ngx_http_drizzle_loc_conf_t`, and
`send_timeout` of the core module for the client.  `ngx_http_drizzle_merge_loc_conf` rejects a
`drizzle_buffer_size` of zero and a `drizzle_max_buffered` below it. -/
structure LocConf where
  connectTimeout : Msec := 60000
  sendTimeout : Msec := 60000
  recvColsTimeout : Msec := 60000
  recvRowsTimeout : Msec := 60000
  clientSendTimeout : Msec := 60000
  enableModuleHeader : Bool := true
  bufSize : ℕ := 4096
  maxBuffered : ℕ := 1048576
  bufSize_pos : 0 < bufSize := by decide
  bufSize_le : bufSize ≤ maxBuffered := by decide

/-! ## Events and connections -/

/-- `ngx_event_t`: whether the event is registered, and the key of its timer. -/
structure NgxEvent where
  active : Bool := false
  timer : Option Msec := none
deriving DecidableEq, Repr

/-- A timer that is moved by less than `NGX_TIMER_LAZY_DELAY` keeps its key. -/
def timerLazyDelay : ℕ := 300

namespace NgxEvent

/-- `ngx_add_timer` at time `now`. -/
def addTimer (ev : NgxEvent) (now timeout : Msec) : NgxEvent :=
  match ev.timer with
  | some key =>
    if (now + timeout - key).toNat < timerLazyDelay
      ∨ (key - (now + timeout)).toNat < timerLazyDelay then ev
    else { ev with timer := some (now + timeout) }
  | none => { ev with timer := some (now + timeout) }

/-- `ngx_del_timer` -/
def delTimer (ev : NgxEvent) : NgxEvent := { ev with timer := none }

end NgxEvent

/-- A database connection: the `ngx_connection_t` with its events, and the `drizzle_con_st`
it was made for, if any (the connection by which a request is rejected has descriptor 0 and
no `drizzle_con_st`).  The descriptor is `none` for −1. -/
structure Conn where
  fd : Option ℕ := none
  read : NgxEvent := {}
  write : NgxEvent := {}
  /-- There is a `drizzle_con_st`. -/
  drizzle : Bool := false
  /-- The configured peer it connects to. -/
  peer : ℕ := 0
  host : Bytes := []
  port : ℕ := 0
  user : Bytes := []
  password : Bytes := []
  dbname : Bytes := []
  protocol : Protocol := .drizzle
  /-- How often it has been passed to `drizzle_con_free`. -/
  freed : ℕ := 0
  /-- History: the number of times that reading from it was paused. -/
  pauses : ℕ := 0
  /-- History: the calls of the client library on it. -/
  hist : List LibCall := []

/-! ## Output buffers -/

/-- `ngx_buf_t`: the memory between `start` and `end` has `capacity` bytes, those up to `last`
hold `data`, and the first `pos` of them have been consumed. -/
structure Buf where
  id : ℕ
  capacity : ℕ
  data : Bytes := []
  pos : ℕ := 0
deriving DecidableEq, Repr

/-- The bytes of a buffer that have not been consumed. -/
def Buf.pending (b : Buf) : Bytes := b.data.drop b.pos

/-- The output side of a request: the fields of `ngx_http_upstream_drizzle_peer_data_t` that
concern output, the chains and `header_sent` of the upstream, and `delayed` of the client
connection. -/
structure Out where
  outBuf : Option Buf := none
  availOut : ℤ := 0
  bufferedOutput : ℕ := 0
  /-- The position of the link that `last_out` points to: 0 for `&u->out_bufs`. -/
  lastOut : ℕ := 0
  outBufs : List Buf := []
  busyBufs : List Buf := []
  freeBufs : List Buf := []
  seenStreamEnd : Bool := false
  outputBlocked : Bool := false
  headerSent : Bool := false
  delayed : Bool := false
  /-- The number of buffers created so far. -/
  nbufs : ℕ := 0
  /-- History: the answers of `ngx_http_send_header`, the last one first. -/
  headerCalls : List Rc := []
  /-- History: the chains handed to `ngx_http_output_filter`, the first one first, each as the
  unconsumed bytes of its buffers. -/
  sent : List (List Bytes) := []

/-! ## The pool -/

/-- `ngx_http_drizzle_keepalive_cache_t`; `slot` is the place of the item in the array that
`ngx_http_drizzle_keepalive_init` allocates. -/
structure Item where
  slot : ℕ
  connection : Option ℕ := none
  drizzleCon : Option ℕ := none
  sockaddr : Bytes := []
  name : Bytes := []
  used : ℕ := 0
  hasSetNames : Bool := false
deriving DecidableEq, Repr

/-- The part of `ngx_http_upstream_drizzle_srv_conf_t` that changes: the round robin cursor,
the number of active connections, which is an `ngx_uint_t` and wraps around, and the two
queues. -/
structure Pool where
  current : ℕ := 0
  activeConns : UInt64 := 0
  cache : List Item := []
  free : List Item := []

/-- The state that all requests of a worker process share. -/
structure Worker where
  conf : Conf
  pool : Pool
  conns : ℕ → Conn
  /-- The number of connections created so far. -/
  nconns : ℕ
  /-- `ngx_current_msec` -/
  now : Msec

/-! ## Requests -/

/-- `ngx_http_drizzle_state_t` -/
inductive DbState
  | connect
  | sendQuery
  | recvCols
  | recvRows
  | idle
deriving DecidableEq, Repr

/-- The values of `ft_type` of `ngx_http_upstream_drizzle_next`. -/
inductive Ft
  | error
  | timeout
  | nolive
deriving DecidableEq, Repr

/-- `r->write_event_handler` -/
inductive WriteHandler
  | checkBroken
  | drainOutput
  | empty
deriving DecidableEq, Repr

/-- What happens in the course of a request. -/
inductive ReqEvent
  /-- Round robin selected a peer. -/
  | pick (peer : ℕ)
  /-- The pool was full: `ngx_http_upstream_drizzle_get_peer` took the connection by which the
  request is rejected. -/
  | overflow
  /-- `ngx_http_upstream_drizzle_get_peer` returned. -/
  | getPeer (rc : Rc) (conn : Option ℕ)
  /-- `drizzle_con_connect` was called in `ngx_http_upstream_drizzle_connect`. -/
  | connect (conn : ℕ) (ret : ConnectRet)
  /-- A query or read function of the client library was called. -/
  | lib (conn : ℕ) (call : LibCall)
  | paused
  | resumed
  /-- `ngx_http_upstream_drizzle_done` ran, and its final `ngx_http_drizzle_output_bufs`
  returned `flush`. -/
  | done (rc flush : Rc)
  /-- The connection was saved in the pool, at the cost of another one. -/
  | saved (conn : ℕ) (evicted : Option ℕ)
  /-- The connection was closed. -/
  | closed (conn : ℕ)
  /-- `ngx_http_upstream_drizzle_finalize_request` was entered. -/
  | finalize (rc : Rc)
  /-- `ngx_http_send_special` with `NGX_HTTP_LAST` -/
  | sendSpecial
  /-- `ngx_http_finalize_request` -/
  | finalized (rc : Rc)
deriving DecidableEq, Repr

/-- A request: the fields of `ngx_http_request_t`, `ngx_http_upstream_t` and
`ngx_http_upstream_drizzle_peer_data_t` that the module uses, those that change most often
first. -/
structure Req where
  /-- History: the events of the request. -/
  hist : List ReqEvent := []
  out : Out := {}
  state : DbState := .connect
  drizzleRow : UInt64 := 0
  queryStarted : Bool := false
  hasSetNames : Bool := false
  outputPaused : Bool := false
  requestSent : Bool := false
  /-- `u->headers_in.status_n` -/
  statusN : ℕ := 0
  /-- `u->length` -/
  length : ℕ := 0
  failed : Bool := false
  /-- `u->peer.connection` -/
  connection : Option ℕ := none
  drizzleCon : Option ℕ := none
  /-- The request has not been finalized. -/
  live : Bool := true
  /-- The call of `ngx_http_drizzle_handler` has not returned. -/
  inHandler : Bool := true
  /-- `r->connection->error`.  The client connection is shared by a request and its subrequests:
  of `error`, of the write event and of `delayed` in `out` each has what it last saw. -/
  connError : Bool := false
  writeHandler : WriteHandler := .checkBroken
  /-- The timer of `r->connection->write`. -/
  clientWrite : NgxEvent := {}
  readTimeout : Msec := 0
  /-- `u->peer.cached` -/
  cached : Bool := false
  used : ℕ := 0
  enableCharset : Bool := false
  setNamesQuery : Option Bytes := none
  name : Bytes := []
  /-- `dp->sockaddr`, to which `u->peer.sockaddr` points. -/
  sockaddr : Bytes := []
  nextPeer : ℕ
  remainingPeers : ℕ
  /-- The number of the request. -/
  id : ℕ
  loc : LocConf
  query : Bytes
  dbname : Bytes
  /-- The request body is in a buffer and a temporary file of the main request. -/
  bodyInFile : Bool

/-- What the module uses of a client connection: `error`, the timer of the write event and its
`delayed`. -/
structure ClientConn where
  error : Bool := false
  write : NgxEvent := {}
  delayed : Bool := false
deriving DecidableEq, Repr

/-- The client connection as a request sees it. -/
def Req.clientConn (r : Req) : ClientConn where
  error := r.connError
  write := r.clientWrite
  delayed := r.out.delayed

/-- The request finds its client connection as others have left it; an error stays noted. -/
def Req.onClient (c : ClientConn) (r : Req) : Req :=
  { r with
    connError := r.connError || c.error
    clientWrite := c.write
    out := { r.out with delayed := c.delayed } }

/-- What a function that handles a request works on. -/
structure St where
  w : Worker
  r : Req

/-! ## Updates -/

/-- Change a connection. -/
def Worker.modConn (w : Worker) (k : ℕ) (f : Conn → Conn) : Worker :=
  { w with conns := Function.update w.conns k (f (w.conns k)) }

/-- Change the request. -/
def St.modReq (s : St) (f : Req → Req) : St := { s with r := f s.r }

/-- Add an event to the history of the request. -/
def Req.log (r : Req) (e : ReqEvent) : Req := { r with hist := e :: r.hist }

/-- Add an event to the history of the request. -/
def St.log (s : St) (e : ReqEvent) : St := { s with r := s.r.log e }

/-- Change a connection. -/
def St.modConn (s : St) (k : ℕ) (f : Conn → Conn) : St := { s with w := s.w.modConn k f }

/-- Enter a call of the client library into the histories of the connection and of the
request. -/
def St.libCall (s : St) (k : ℕ) (call : LibCall) : St :=
  (s.modConn k fun c => { c with hist := call :: c.hist }).log (.lib k call)

@[simp] lemma Worker.modConn_conf (w : Worker) (k : ℕ) (f : Conn → Conn) :
    (w.modConn k f).conf = w.conf := rfl

@[simp] lemma Worker.modConn_pool (w : Worker) (k : ℕ) (f : Conn → Conn) :
    (w.modConn k f).pool = w.pool := rfl

@[simp] lemma Worker.modConn_nconns (w : Worker) (k : ℕ) (f : Conn → Conn) :
    (w.modConn k f).nconns = w.nconns := rfl

@[simp] lemma Worker.modConn_now (w : Worker) (k : ℕ) (f : Conn → Conn) :
    (w.modConn k f).now = w.now := rfl

@[simp] lemma Worker.modConn_conns_self (w : Worker) (k : ℕ) (f : Conn → Conn) :
    (w.modConn k f).conns k = f (w.conns k) := by
  simp [Worker.modConn]

@[simp] lemma Worker.modConn_conns_of_ne {w : Worker} {k j : ℕ} (f : Conn → Conn) (h : j ≠ k) :
    (w.modConn k f).conns j = w.conns j := by
  simp [Worker.modConn, h]

lemma Worker.modConn_conns (w : Worker) (k j : ℕ) (f : Conn → Conn) :
    (w.modConn k f).conns j = if j = k then f (w.conns k) else w.conns j := by
  simp [Worker.modConn, Function.update_apply]

@[simp] lemma St.modReq_w (s : St) (f : Req → Req) : (s.modReq f).w = s.w := rfl

@[simp] lemma St.modReq_r (s : St) (f : Req → Req) : (s.modReq f).r = f s.r := rfl

@[simp] lemma St.modConn_r (s : St) (k : ℕ) (f : Conn → Conn) : (s.modConn k f).r = s.r := rfl

@[simp] lemma St.modConn_w (s : St) (k : ℕ) (f : Conn → Conn) :
    (s.modConn k f).w = s.w.modConn k f := rfl

@[simp] lemma St.libCall_w (s : St) (k : ℕ) (call : LibCall) :
    (s.libCall k call).w = s.w.modConn k fun c => { c with hist := call :: c.hist } := rfl

@[simp] lemma St.libCall_r (s : St) (k : ℕ) (call : LibCall) :
    (s.libCall k call).r = s.r.log (.lib k call) := rfl

@[simp] lemma Req.log_hist (r : Req) (e : ReqEvent) : (r.log e).hist = e :: r.hist := rfl

@[simp] lemma St.log_w (s : St) (e : ReqEvent) : (s.log e).w = s.w := rfl

@[simp] lemma St.log_r (s : St) (e : ReqEvent) : (s.log e).r = s.r.log e := rfl

end DrizzleNginx
