/-
# A worker process with its requests

The state of a worker process and its steps: requests arrive, events happen, connections in
the pool become readable, time passes, and the module runs from one position to the next.
While it runs, no event is handled: nginx calls the handlers one after the other.
-/
import DrizzleNginx.Lib.Run
import DrizzleNginx.Model.Request

namespace DrizzleNginx

/-- A worker process: the shared state, the requests so far, and the one that is being
processed, with the position. -/
structure Sys where
  w : Worker
  reqs : List Req
  active : Option (ℕ × Pos)

/-- A request that arrives at `ngx_http_drizzle_handler`.  `initOk` says that nothing fails
before `ngx_http_upstream_dbd_connect` is called for the first time. -/
structure Arrival where
  loc : LocConf := {}
  query : Bytes
  dbname : Bytes := []
  bodyInFile : Bool := false
  initOk : Bool := true

/-- A step of the worker process. -/
inductive Label
  | arrive (a : Arrival)
  | event (i : ℕ) (e : Event)
  /-- The client connection of a request has changed: an error was noted in it, or another request
  on the same connection has used it. -/
  | client (i : ℕ) (c : ClientConn)
  /-- The connection in a slot of the pool is readable. -/
  | idle (slot : ℕ) (stale : Bool)
  | tick (now : Msec)
  | run (env : Env)

/-- `ngx_http_drizzle_keepalive_init` -/
def Pool.init (maxCached : ℕ) : Pool where
  free := ((List.range maxCached).map fun i => { slot := i }).reverse

/-- The worker process before the first request. -/
def Sys.init (conf : Conf) : Sys where
  w := {
    conf := conf
    pool := Pool.init conf.maxCached
    conns := fun _ => {}
    nconns := 0
    now := 0 }
  reqs := []
  active := none

/-- `ngx_http_upstream_drizzle_init_peer` for the next request. -/
def Req.init (w : Worker) (id : ℕ) (a : Arrival) : Req where
  id := id
  loc := a.loc
  query := a.query
  dbname := a.dbname
  bodyInFile := a.bodyInFile
  nextPeer := w.pool.current % w.conf.peers.length
  remainingPeers := w.conf.peers.length

/-- A database event concerns a request that has a connection, and a timer that expires has
been set.  The connection by which a request is rejected is not registered with the event model:
only its timer can expire. -/
def Event.enabled (e : Event) (s : St) : Bool :=
  s.r.live && match e with
    | .db write timedout _ =>
      match s.r.connection with
      | none => false
      | some k =>
        let ev := if write then (s.w.conns k).write else (s.w.conns k).read
        if timedout then ev.timer.isSome else (s.w.conns k).fd ≠ some 0
    | .clientWrite timedout => !timedout || s.r.clientWrite.timer.isSome || s.r.out.delayed
    | _ => true

/-- A timer that expires is removed. -/
def Event.fire (e : Event) (s : St) : St :=
  match e with
  | .db write true _ =>
    match s.r.connection with
    | none => s
    | some k => if write then s.modWrite k NgxEvent.delTimer else s.modRead k NgxEvent.delTimer
  | .clientWrite true => s.modReq fun r => { r with clientWrite := r.clientWrite.delTimer }
  | _ => s

/-- Where the processing goes on after `ngx_http_upstream_dbd_init` or the handler of an event
has returned. -/
def Pos.settle (p : Pos) (r : Req) : Option Pos :=
  match p with
  | .loop => if r.inHandler then some .handlerTail else none
  | p => some p

namespace Sys

/-- The state on which the module works for a request. -/
def view (s : Sys) (r : Req) : St := { w := s.w, r := r }

/-- The effect of a step of the module for request `i`. -/
def put (s : Sys) (i : ℕ) (p : Pos × St) : Sys where
  w := p.2.w
  reqs := s.reqs.set i p.2.r
  active := (p.1.settle p.2.r).map fun q => (i, q)

/-- A step of the worker process; a step that is not possible has no effect. -/
def step (s : Sys) (l : Label) : Sys :=
  match l with
  | .arrive a =>
    match s.active with
    | some _ => s
    | none => { s with
        reqs := s.reqs ++ [Req.init s.w s.reqs.length a]
        active := some (s.reqs.length, if a.initOk then .dbdConnect else .finalize (.http 500)) }
  | .event i e =>
    match s.active, s.reqs[i]? with
    | none, some r =>
      if e.enabled (s.view r) then s.put i (.event e, e.fire (s.view r)) else s
    | _, _ => s
  | .client i c =>
    match s.reqs[i]? with
    | none => s
    | some r => { s with reqs := s.reqs.set i (r.onClient c) }
  | .idle slot stale =>
    match s.active with
    | some _ => s
    | none => { s with w := s.w.closeHandler slot stale }
  | .tick now =>
    match s.active with
    | some _ => s
    | none => { s with w := { s.w with now := now } }
  | .run env =>
    match s.active with
    | none => s
    | some (i, p) =>
      match s.reqs[i]? with
      | none => s
      | some r => s.put i ((s.view r).exec env p)

/-- The state that a run of the worker process reaches. -/
def run (conf : Conf) (ls : List Label) : Sys := Lib.run step (init conf) ls

end Sys

/-! ## Samples -/

/-- A server with an address and a charset, for examples. -/
def Peer.sample (addr setNamesQuery : Bytes) : Peer where
  sockaddr := addr
  name := addr
  host := addr
  port := 3306
  user := []
  password := []
  dbname := []
  protocol := .mysql
  setNamesQuery := setNamesQuery

/-- An upstream with some servers and a pool for one connection, for examples. -/
def Conf.sample (peer : Peer) (peers : List Peer) : Conf where
  peers := peer :: peers
  single := true
  maxCached := 1
  overflow := .ignore
  addConn := true
  endian := .little
  peers_pos := Nat.succ_pos _

/-- The header of a result with that many columns, for examples. -/
def ResultHeader.sample (columnCount : UInt16) : ResultHeader := ⟨0, [], 0, 0, columnCount⟩

/-- A request with the default settings, for examples. -/
def Arrival.sample (query : Bytes) : Arrival := { query := query }

/-- A request with output buffers of one byte, for examples; `1 + room` bytes may wait. -/
def Arrival.small (query : Bytes) (room : ℕ) : Arrival where
  query := query
  loc := { bufSize := 1, maxBuffered := 1 + room, bufSize_le := Nat.le_add_right 1 room }

/-- A request arrives and gets a new connection, which is established at once; its query is the
next thing to send. -/
def Sys.sampleArrival (a : Arrival) : List Label := [.arrive a, .run {}, .run {}, .run {}]

end DrizzleNginx
