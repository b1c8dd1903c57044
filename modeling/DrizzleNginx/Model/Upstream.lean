/-
# The upstream and its keepalive pool

The functions of `ngx_http_drizzle_keepalive.c` and `ngx_http_drizzle_upstream.c` that hand
connections to requests and take them back: `ngx_http_upstream_drizzle_get_peer`,
`ngx_http_upstream_drizzle_free_peer` and what they call, and the handler of idle
connections.  The code is that for nginx 0.8.17 and later.
-/
import DrizzleNginx.Model.Data

namespace DrizzleNginx

/-- The answers of libdrizzle and nginx to the calls of `getPeer`. -/
structure PeerEnv where
  /-- `ngx_pcalloc` of the `drizzle_con_st` -/
  alloc : Bool := true
  /-- `drizzle_con_connect` -/
  con : ConnectRet := .ok
  /-- `drizzle_con_fd`: the descriptor is one more, since 0 is in use in a worker process. -/
  fd : Option ℕ := some 0
  /-- `ngx_get_connection` -/
  getConn : Bool := true
  /-- `ngx_add_conn` -/
  addConn : Bool := true
  /-- `ngx_add_event` for the read event and for the write event -/
  addRead : Bool := true
  addWrite : Bool := true

/-! ## Releasing connections -/

/-- `drizzle_con_free` -/
def Conn.free (c : Conn) : Conn := { c with freed := c.freed + 1 }

/-- Closing an `ngx_connection_t`: its timers and its events are removed. -/
def Conn.close (c : Conn) : Conn := { c with read := {}, write := {}, fd := none }

/-- Both timers of a connection are deleted. -/
def Conn.delTimers (c : Conn) : Conn :=
  { c with read := c.read.delTimer, write := c.write.delTimer }

namespace Worker

/-- `ngx_http_upstream_drizzle_free_connection` -/
def freeConnection (c dc : Option ℕ) (w : Worker) : Worker :=
  -- whatever connection this is, it is counted down; the counter wraps around below 0
  let w := { w with pool := { w.pool with activeConns := w.pool.activeConns - 1 } }
  let w := match dc with
    | some k => w.modConn k Conn.free
    | none => w
  match c with
  | some k => w.modConn k Conn.close
  | none => w

/-- `ngx_http_drizzle_keepalive_close_handler` for the item in a slot: the event is stale if
there is nothing to read. -/
def closeHandler (slot : ℕ) (stale : Bool) (w : Worker) : Worker :=
  if stale then w
  else match w.pool.cache.find? (fun item => item.slot = slot) with
    | none => w
    | some item =>
      let w := w.freeConnection item.connection item.drizzleCon
      { w with pool := { w.pool with
          cache := w.pool.cache.eraseP fun item => item.slot = slot
          free := item :: w.pool.free } }

/-- The item in which `ngx_http_drizzle_keepalive_free_peer` saves a connection, taken out of
its queue, and the connection that is closed for it: a free item or, when there is none, the
last one of the cache.  (The pool has items, so one of the queues is not empty.) -/
def takeItem (w : Worker) : Option Item × Option ℕ × Worker :=
  match w.pool.free with
  | item :: free => (some item, none, { w with pool := { w.pool with free := free } })
  | [] =>
    match w.pool.cache.getLast? with
    | some item =>
      let w := { w with pool := { w.pool with cache := w.pool.cache.dropLast } }
      (some item, item.connection, w.freeConnection item.connection item.drizzleCon)
    | none => (none, none, w)

end Worker

/-- The flags and the status with which `ngx_http_drizzle_keepalive_free_peer` saves a
connection. -/
def Req.reusable (r : Req) : Bool :=
  !r.failed && (r.statusN = 404 || r.statusN = 410
    || (r.statusN = 200 && r.out.headerSent && r.length = 0))

/-! ## Connections of a request -/

namespace St

/-- The connection of an item is handed to the request, and the item goes to the free queue:
what `ngx_http_drizzle_keepalive_get_peer_single` and
`ngx_http_drizzle_keepalive_get_peer_multi` have in common. -/
def resumeCached (item : Item) (cache : List Item) (s : St) : St where
  w := { s.w with pool := { s.w.pool with cache := cache, free := item :: s.w.pool.free } }
  r := { s.r with
    connection := item.connection
    cached := true
    drizzleCon := item.drizzleCon
    hasSetNames := item.hasSetNames
    used := item.used }

/-- `ngx_http_drizzle_keepalive_get_peer_single` -/
def keepaliveGetPeerSingle (s : St) : Rc × St :=
  match s.w.pool.cache with
  | [] => (.declined, s)
  | item :: cache =>
    let s := s.modReq fun r => { r with name := item.name, sockaddr := item.sockaddr }
    (.done, s.resumeCached item cache)

/-- `ngx_http_drizzle_keepalive_get_peer_multi` -/
def keepaliveGetPeerMulti (s : St) : Rc × St :=
  match s.w.pool.cache.find? (fun item => item.sockaddr = s.r.sockaddr) with
  | none => (.declined, s)
  | some item =>
    (.done, s.resumeCached item
      (s.w.pool.cache.eraseP fun item => item.sockaddr = s.r.sockaddr))

/-- The round robin part of `ngx_http_upstream_drizzle_get_peer`. -/
def selectPeer (s : St) : St :=
  let peer := s.w.conf.peer s.r.nextPeer
  let next := (s.r.nextPeer + 1) % s.w.conf.peers.length
  ({ w := { s.w with pool := { s.w.pool with current := next } }
     r := { s.r with
      nextPeer := next
      remainingPeers := s.r.remainingPeers - 1
      name := peer.name
      sockaddr := peer.sockaddr
      enableCharset := 0 < peer.setNamesQuery.length
      setNamesQuery := some peer.setNamesQuery
      cached := false } } : St).log (.pick s.r.nextPeer)

/-- The branch of `ngx_http_upstream_drizzle_get_peer` for a pool that is full: the request
takes a connection with descriptor 0. -/
def rejectOverflow (getConn : Bool) (s : St) : Rc × St :=
  if getConn then
    (.again,
      ({ w := { s.w with
          conns := Function.update s.w.conns s.w.nconns { fd := some 0 }
          nconns := s.w.nconns + 1 }
         r := { s.r with connection := some s.w.nconns } } : St).log .overflow)
  else
    -- the answer of `ngx_get_connection` is not checked
    (.again, (s.modReq fun r => { r with connection := none }).log .overflow)

/-- The label `invalid` of `ngx_http_upstream_drizzle_get_peer`. -/
def invalid (dc : ℕ) (s : St) : Rc × St :=
  (.error,
    { w := s.w.freeConnection s.r.connection (some dc)
      r := { s.r with connection := none, drizzleCon := none } })

/-- The part of `ngx_http_upstream_drizzle_get_peer` that registers the connection with the
event model. -/
def registerConnection (env : PeerEnv) (k : ℕ) (s : St) : Rc × St :=
  let connecting := env.con = .ioWait
  let addRead (c : Conn) : Conn := { c with read := { c.read with active := true } }
  let addWrite (c : Conn) : Conn := { c with write := { c.write with active := true } }
  if s.w.conf.addConn then
    -- both events are registered, whether the connection is established or not
    if !env.addConn then s.invalid k
    else (if connecting then .again else .done, s.modConn k fun c => addWrite (addRead c))
  else if !env.addRead then s.invalid k
  else
    let s := s.modConn k addRead
    if connecting then
      if !env.addWrite then s.invalid k else (.again, s.modConn k addWrite)
    else (.done, s)

/-- The part of `ngx_http_upstream_drizzle_get_peer` behind a call of `drizzle_con_connect` that
did not fail: the connection is counted and gets an `ngx_connection_t`. -/
def wrapConnection (env : PeerEnv) (k : ℕ) (s : St) : Rc × St :=
  -- from here on the connection is counted, so that all errors go to the label `invalid`
  let s := { s with w := { s.w with pool :=
    { s.w.pool with activeConns := s.w.pool.activeConns + 1 } } }
  match env.fd with
  | none => s.invalid k
  | some fd =>
    if !env.getConn then s.invalid k
    else
      let s := s.modConn k fun c => { c with fd := some (fd + 1) }
      (s.modReq fun r => { r with
        connection := some k
        state := if env.con = .ioWait then .connect else .idle }).registerConnection env k

/-- The `drizzle_con_st` for the peer at an index. -/
def newCon (i : ℕ) (s : St) : Conn where
  drizzle := true
  peer := i
  host := (s.w.conf.peer i).host
  port := (s.w.conf.peer i).port
  user := (s.w.conf.peer i).user
  password := (s.w.conf.peer i).password
  dbname := if s.r.dbname.length ≠ 0 then s.r.dbname else (s.w.conf.peer i).dbname
  protocol := (s.w.conf.peer i).protocol

/-- The part of `ngx_http_upstream_drizzle_get_peer` that sets up a `drizzle_con_st`. -/
def openCon (i : ℕ) (s : St) : St where
  w := { s.w with
    conns := Function.update s.w.conns s.w.nconns (s.newCon i)
    nconns := s.w.nconns + 1 }
  r := { s.r with drizzleCon := some s.w.nconns }

/-- The part of `ngx_http_upstream_drizzle_get_peer` that makes a new connection to the peer
at an index. -/
def createConnection (env : PeerEnv) (i : ℕ) (s : St) : Rc × St :=
  let k := s.w.nconns
  if !env.alloc then (.error, s)
  else
    let s := s.openCon i
    match env.con with
    | .fail _ =>
      -- not counted yet
      (.declined, (s.modConn k Conn.free).modReq fun r => { r with drizzleCon := none })
    | _ => s.wrapConnection env k

/-- The part of `ngx_http_upstream_drizzle_get_peer` behind the pool in single mode. -/
def getPeerRoundRobin (env : PeerEnv) (s : St) : Rc × St :=
  let conf := s.w.conf
  if s.r.remainingPeers = 0 then (.busy, s)
  else
    let i := s.r.nextPeer
    let s := s.selectPeer
    let (rc, s) :=
      if conf.maxCached ≠ 0 ∧ !conf.single then s.keepaliveGetPeerMulti else (.declined, s)
    if rc ≠ .declined then (rc, s)
    -- the limit is on all connections of the upstream, not only on those in the cache
    else if conf.maxCached ≠ 0 ∧ conf.overflow = .reject ∧
        conf.maxCached ≤ s.w.pool.activeConns.toNat then
      s.rejectOverflow env.getConn
    else s.createConnection env i

/-- `ngx_http_upstream_drizzle_get_peer` -/
def getPeer (env : PeerEnv) (s : St) : Rc × St :=
  let conf := s.w.conf
  let s := s.modReq fun r => { r with failed := false }
  let (rc, s) :=
    if conf.maxCached ≠ 0 ∧ conf.single then s.keepaliveGetPeerSingle else (.declined, s)
  if rc ≠ .declined then (rc, s) else s.getPeerRoundRobin env

/-- The part of `ngx_http_drizzle_keepalive_free_peer` that saves the connection, with an item
that has been taken out of its queue. -/
def saveIn (k : ℕ) (item : Item) (evicted : Option ℕ) (s : St) : St :=
  let item : Item := { item with
    connection := some k
    sockaddr := s.r.sockaddr
    drizzleCon := s.r.drizzleCon
    hasSetNames := s.r.hasSetNames
    name := s.r.name
    used := s.r.used + 1 }
  let w := { s.w with pool := { s.w.pool with cache := item :: s.w.pool.cache } }
  ({ w := w.modConn k Conn.delTimers
     r := { s.r with connection := none, used := s.r.used + 1 } } : St).log (.saved k evicted)

/-- The branch of `ngx_http_drizzle_keepalive_free_peer` for a connection that can be used
again. -/
def saveConnection (k : ℕ) (s : St) : St :=
  match s.w.takeItem with
  | (none, _, _) => s
  | (some item, evicted, w) => ({ s with w := w } : St).saveIn k item evicted

/-- `ngx_http_drizzle_keepalive_free_peer` -/
def keepaliveFreePeer (failed : Bool) (s : St) : St :=
  let s := if failed then s.modReq fun r => { r with failed := true } else s
  match s.r.connection with
  | none => s
  | some k => if s.r.reusable then s.saveConnection k else s

/-- The part of `ngx_http_upstream_drizzle_free_peer` that closes the connection. -/
def dropConnection (k : ℕ) (s : St) : St :=
  ({ w := s.w.freeConnection (some k) s.r.drizzleCon
     r := { s.r with drizzleCon := none, connection := none } } : St).log (.closed k)

/-- `ngx_http_upstream_drizzle_free_peer` -/
def freePeer (failed : Bool) (s : St) : St :=
  let s := if s.w.conf.maxCached ≠ 0 then s.keepaliveFreePeer failed else s
  -- a connection that has been saved is not that of the request any more
  match s.r.connection with
  | none => s
  | some k => s.dropConnection k

end St
end DrizzleNginx
