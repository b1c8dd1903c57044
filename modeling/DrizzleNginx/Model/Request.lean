/-
# The life of a request

The functions of `ngx_http_drizzle_util.c` and `ngx_http_drizzle_handler.c` that connect a
request to the database, react to events and end the request, and the function `exec` that
runs the module from one position to the next.
-/
import DrizzleNginx.Model.Processor

namespace DrizzleNginx
namespace St

/-! ## Ending and retrying -/

/-- The part of `ngx_http_upstream_drizzle_finalize_request` that releases the connection. -/
def releasePeer (s : St) : St :=
  let s := s.freePeer false
  -- `ngx_close_connection`, if `free_peer` has left a connection
  let s := match s.r.connection with
    | some k => s.modConn k Conn.close
    | none => s
  s.modReq fun r => { r with connection := none }

/-- The end of `ngx_http_upstream_drizzle_finalize_request`: `ngx_http_send_special`, if the
response has been completed, and `ngx_http_finalize_request`. -/
def endResponse (env : Env) (rc : Rc) (s : St) : St :=
  let (rc, s) := if rc = .ok then (env.sendSpecial, s.log .sendSpecial) else (rc, s)
  (s.modReq fun r => { r with live := false }).log (.finalized rc)

/-- `ngx_http_upstream_drizzle_finalize_request` -/
def finalizeRequest (env : Env) (rc : Rc) (s : St) : Pos × St :=
  let s := (s.log (.finalize rc)).releasePeer
  -- behind the header an error can only be told by ending the response
  let rc := if s.r.out.headerSent && rc.failed then .ok else rc
  if rc = .declined then (.loop, s) else (.loop, s.endResponse env rc)

/-- `ngx_http_upstream_drizzle_next` -/
def next (ft : Ft) (s : St) : Pos × St :=
  let status := if ft = .timeout then 504 else 502
  let s := if ft ≠ .nolive then s.freePeer true else s
  if s.r.connError then (.finalize (.http 499), s)
  -- another peer is tried only as long as nothing has been sent to a database
  else if !s.r.queryStarted ∧ s.r.remainingPeers ≠ 0 ∧ !s.r.out.headerSent
      ∧ (ft = .error ∨ ft = .timeout) then
    (.dbdConnect, s.modReq fun r => { r with
      state := .connect, hasSetNames := false, used := 0, cached := false })
  else (.finalize (.http status), s)

/-! ## Connecting -/

/-- `ngx_http_upstream_dbd_connect`, up to the return of `ngx_event_connect_peer`. -/
def dbdConnect (env : Env) (s : St) : Pos × St :=
  if !env.allocState then (.finalize (.http 500), s)
  else
    let (rc, s) := s.getPeer env.peer
    (.dbdConnected rc, s.log (.getPeer rc s.r.connection))

/-- `ngx_http_upstream_dbd_reinit` clears the response header; it is called only for a request
that has reacted to an event before. -/
def clearHeader (s : St) : St :=
  s.modReq fun r => { r with statusN := if r.requestSent then 0 else r.statusN }

/-- The part of `ngx_http_upstream_dbd_connect` for a request that has a connection. -/
def attach (env : Env) (rc : Rc) (c : ℕ) (s : St) : Pos × St :=
  let s := s.clearHeader
  -- these errors finalize the request together with the connection by which it may be rejected
  if s.r.requestSent && !env.reinit then (.finalize (.http 500), s)
  else if s.r.bodyInFile && !env.allocBody then (.finalize (.http 500), s)
  else
    let s := s.modReq fun r => { r with requestSent := false }
    if rc = .again then (.loop, s.modWrite c fun ev => ev.addTimer s.w.now s.r.loc.connectTimeout)
    else (.processEvents, s)

/-- `ngx_http_upstream_dbd_connect`, behind the call of `ngx_event_connect_peer`. -/
def dbdConnected (env : Env) (rc : Rc) (s : St) : Pos × St :=
  match rc with
  | .error => (.finalize (.http 500), s)
  | .busy => (.next .nolive, s)
  | .declined => (.next .error, s)
  | rc =>
    match s.r.connection with
    | none => (.crashed, s)
    | some c => s.attach env rc c

/-- The part of `ngx_http_drizzle_handler` that takes the connection with descriptor 0 away
again. -/
def dropPlaceholder (k : ℕ) (s : St) : St :=
  (s.modConn k fun c => { c with write := c.write.delTimer }).modReq fun r =>
    { r with connection := none }

/-- `ngx_http_drizzle_handler`, behind the call of `ngx_http_upstream_dbd_init`. -/
def handlerTail (s : St) : Pos × St :=
  let s := s.modReq fun r => { r with inHandler := false }
  match s.r.connection with
  | none => (.loop, s)
  | some k =>
    -- the connection by which the request is rejected never gets to `free_peer` here
    if (s.w.conns k).fd = some 0 then (.finalize (.http 503), s.dropPlaceholder k) else (.loop, s)

/-! ## Events -/

/-- `ngx_http_drizzle_wev_handler` and `ngx_http_drizzle_rev_handler` -/
def dbHandler (timedout broken : Bool) (s : St) : Pos × St :=
  let s := s.modReq fun r => { r with requestSent := true }
  match s.r.connection with
  | none => (.crashed, s)
  | some _ =>
    if timedout then (.next .timeout, s)
    else if broken then (.next .error, s)
    else (.processEvents, s)

/-- `ngx_http_upstream_dbd_check_broken_connection` for a client that closed its
connection. -/
def checkBrokenConnection (delEvent : Bool) (s : St) : Pos × St :=
  if !delEvent then (.finalize (.http 500), s)
  else (.finalize (.http 499), s.modReq fun r => { r with connError := true })

/-- The handler of an event. -/
def handleEvent (env : Env) (e : Event) (s : St) : Pos × St :=
  match e with
  | .db _ timedout broken => s.dbHandler timedout broken
  | .clientWrite timedout =>
    match s.r.writeHandler with
    | .drainOutput => s.drainOutput env timedout
    | .checkBroken => (.loop, s)     -- the client is still there
    | .empty => (.loop, s)
  | .clientClosed delEvent => s.checkBrokenConnection delEvent
  | .cleanup => (.finalize .done, s)     -- `ngx_http_upstream_dbd_cleanup`

/-! ## From position to position -/

/-- Run the module from a position to the next one. -/
def exec (env : Env) (p : Pos) (s : St) : Pos × St :=
  match p with
  | .loop => (.loop, s)
  | .handlerTail => s.handlerTail
  | .crashed => (.crashed, s)
  | .event e => s.handleEvent env e
  | .dbdConnect => s.dbdConnect env
  | .dbdConnected rc => s.dbdConnected env rc
  | .processEvents => s.processEvents
  | .connect => s.onConn fun c dc => s.connect env c dc
  | .sendQuery => s.onConn fun c dc => s.sendQuery env c dc
  | .recvCols => s.onConn fun c dc => s.recvCols env c dc
  | .recvRows => s.onConn fun c dc => s.recvRows env c dc
  | .recvFields => s.onConn fun c dc => s.recvFields env c dc
  | .ret rc => s.processed env rc
  | .done rc => s.done env rc
  | .next ft => s.next ft
  | .finalize rc => s.finalizeRequest env rc

end St
end DrizzleNginx
