/-
# The query processor

The functions of `ngx_http_drizzle_processor.c`, and the two functions of
`ngx_http_drizzle_output.c` that stop and resume the reading of a result.

The functions of the module call each other in cycles, and they mostly do so at their end.
Here such a call is a jump: a function runs up to the call and returns the position at which
the processing of the request goes on.  What the caller does behind the call of a state
function of the processor is at the position `ret`; behind all other calls in the cycles the
callers do nothing but return.
-/
import DrizzleNginx.Model.Output
import DrizzleNginx.Model.Upstream

namespace DrizzleNginx

/-- An event that concerns a request. -/
inductive Event
  /-- The read or the write event of the database connection: its timer expired, or the socket
  is ready, and it may be broken. -/
  | db (write timedout broken : Bool)
  /-- The write event of the client connection: its timer expired, or the socket is ready. -/
  | clientWrite (timedout : Bool)
  /-- The client closed its connection; the answer is that of `ngx_del_event`. -/
  | clientClosed (delEvent : Bool)
  /-- The request is freed: its cleanup handlers run. -/
  | cleanup
deriving DecidableEq, Repr

/-- Where the processing of a request stands. -/
inductive Pos
  /-- Back in the event loop, or in `ngx_http_drizzle_handler`. -/
  | loop
  /-- In `ngx_http_drizzle_handler`, behind the call of `ngx_http_upstream_dbd_init`. -/
  | handlerTail
  /-- The worker process dereferenced a null pointer. -/
  | crashed
  | event (e : Event)
  | dbdConnect
  /-- In `ngx_http_upstream_dbd_connect`, behind the call of `ngx_event_connect_peer`. -/
  | dbdConnected (rc : Rc)
  | processEvents
  | connect
  | sendQuery
  | recvCols
  | recvRows
  /-- In the inner loop of `ngx_http_upstream_drizzle_recv_rows`. -/
  | recvFields
  /-- In `ngx_http_drizzle_process_events`, behind the call of a state function. -/
  | ret (rc : Rc)
  | done (rc : Rc)
  | next (ft : Ft)
  | finalize (rc : Rc)
deriving DecidableEq, Repr

/-- The answers of nginx to the calls of `outputReady`. -/
structure ReadyEnv where
  link : Bool := true
  flush : FlushEnv := {}
  /-- `ngx_del_event` for the read event and for the write event -/
  delRead : Bool := true
  delWrite : Bool := true
  /-- `ngx_handle_write_event` for the client connection -/
  handleWrite : Bool := true

/-- The answers of libdrizzle and nginx to the calls made between two positions; each position
looks only at those to the calls that it makes. -/
structure Env where
  peer : PeerEnv := {}
  /-- `ngx_array_push` of the upstream state -/
  allocState : Bool := true
  /-- `ngx_http_upstream_dbd_reinit` -/
  reinit : Bool := true
  /-- The chain link for the request body. -/
  allocBody : Bool := true
  con : ConnectRet := .ok
  query : QueryRet := .ioWait
  column : ColumnRet := .ioWait
  row : RowRet := .ioWait
  field : FieldRet := .ioWait
  ready : ReadyEnv := {}
  emit : EmitEnv := {}
  flush : FlushEnv := {}
  /-- `ngx_handle_write_event` for the client connection -/
  handleWrite : Bool := true
  /-- `ngx_handle_read_event` for the database connection -/
  handleRead : Bool := true
  /-- `ngx_http_send_special` -/
  sendSpecial : Rc := .ok

/-- The status that a return code stands for. -/
def Rc.status : Rc → ℕ
  | http status => status
  | _ => 0

namespace NgxEvent

/-- What is left of the timer for later: `ngx_max(1, (ngx_msec_int_t) (key - now))` -/
def timeLeft (key now : Msec) : Msec :=
  if (key - now).toNat < 2 ^ 63 then max 1 (key - now) else 1

end NgxEvent

/-- A delay of the client connection ends when its timer expires. -/
def Out.endDelay (timedout : Bool) (o : Out) : Out :=
  if timedout then { o with delayed := false } else o

/-- The query to send is the one that sets the charset of the connection. -/
def Req.sendsSetNames (r : Req) : Bool := r.enableCharset && !r.hasSetNames

/-- The query that `ngx_http_upstream_drizzle_send_query` passes to libdrizzle.  (The charset
is enabled only together with the pointer to the query that sets it.) -/
def Req.queryToSend (r : Req) : Bytes :=
  if r.sendsSetNames then r.setNamesQuery.getD [] else r.query

namespace St

/-- Replace the output side of the request. -/
def setOut (s : St) (o : Out) : St := { s with r := { s.r with out := o } }

@[simp] lemma setOut_w (s : St) (o : Out) : (s.setOut o).w = s.w := rfl

@[simp] lemma setOut_r (s : St) (o : Out) : (s.setOut o).r = { s.r with out := o } := rfl

/-- Change the read event of a connection. -/
def modRead (s : St) (c : ℕ) (f : NgxEvent → NgxEvent) : St :=
  s.modConn c fun con => { con with read := f con.read }

/-- Change the write event of a connection. -/
def modWrite (s : St) (c : ℕ) (f : NgxEvent → NgxEvent) : St :=
  s.modConn c fun con => { con with write := f con.write }

@[simp] lemma modRead_r (s : St) (c : ℕ) (f : NgxEvent → NgxEvent) : (s.modRead c f).r = s.r :=
  rfl

@[simp] lemma modWrite_r (s : St) (c : ℕ) (f : NgxEvent → NgxEvent) : (s.modWrite c f).r = s.r :=
  rfl

@[simp] lemma modRead_w (s : St) (c : ℕ) (f : NgxEvent → NgxEvent) :
    (s.modRead c f).w = s.w.modConn c fun con => { con with read := f con.read } := rfl

@[simp] lemma modWrite_w (s : St) (c : ℕ) (f : NgxEvent → NgxEvent) :
    (s.modWrite c f).w = s.w.modConn c fun con => { con with write := f con.write } := rfl

/-- Go on with the connection and the `drizzle_con_st` of the request. -/
def onConn (s : St) (f : ℕ → ℕ → Pos × St) : Pos × St :=
  match s.r.connection, s.r.drizzleCon with
  | some c, some dc => f c dc
  | _, _ => (.crashed, s)

lemma onConn_of {s : St} {k : ℕ} (hc : s.r.connection = some k) (hd : s.r.drizzleCon = some k)
    (f : ℕ → ℕ → Pos × St) : s.onConn f = f k k := by
  simp only [onConn, hc, hd]

/-! ## Backpressure -/

/-- The part of `ngx_http_drizzle_output_ready` that removes the events of the database
connection from the event model. -/
def delEvents (env : ReadyEnv) (c : ℕ) (s : St) : Bool × St :=
  let del (ev : NgxEvent) : NgxEvent := { ev with active := false }
  if (s.w.conns c).read.active && !env.delRead then (false, s)
  else
    let s := s.modRead c del
    if (s.w.conns c).write.active && !env.delWrite then (false, s)
    else (true, s.modWrite c del)

/-- The part of `ngx_http_drizzle_output_ready` that pauses the reading: the timers are
deleted and the write handler of the client is to resume it. -/
def pauseReading (c : ℕ) (s : St) : St :=
  let readTimeout := match (s.w.conns c).read.timer with
    | some key => NgxEvent.timeLeft key s.w.now     -- at least 1
    | none => s.r.readTimeout
  let clientWrite :=
    if s.r.out.delayed then s.r.clientWrite
    else s.r.clientWrite.addTimer s.w.now s.r.loc.clientSendTimeout
  let s := s.modConn c fun con => { con.delTimers with pauses := con.pauses + 1 }
  (s.modReq fun r => { r with
    readTimeout := readTimeout
    outputPaused := true
    writeHandler := .drainOutput
    clientWrite := clientWrite }).log .paused

/-- The part of `ngx_http_drizzle_output_ready` behind the second look at the output. -/
def pause (env : ReadyEnv) (c : ℕ) (s : St) : Rc × St :=
  let (deleted, s) := s.delEvents env c
  if !deleted then (.error, s)
  else (if env.handleWrite then .again else .error, s.pauseReading c)

/-- `ngx_http_drizzle_output_ready` -/
def outputReady (env : ReadyEnv) (c : ℕ) (s : St) : Rc × St :=
  if s.r.out.ready s.r.loc then (.ok, s)
  else
    let (rc, o) := s.r.out.queueBuf env.link
    if rc ≠ .ok then (.error, s.setOut o)
    else
      let (rc, o) := o.outputBufs env.flush s.r.loc
      let s := s.setOut o
      if rc ≠ .ok then (.error, s)
      else if o.ready s.r.loc then (.ok, s)
      else s.pause env c

/-- The end of `ngx_http_drizzle_drain_output`: reading is resumed. -/
def resume (env : Env) (c : ℕ) (s : St) : Pos × St :=
  let s := (s.modReq fun r => { r with
    clientWrite := r.clientWrite.delTimer
    outputPaused := false
    writeHandler := .empty }).log .resumed
  if !env.handleRead then (.finalize (.http 500), s)
  else
    -- the write event of the connection is not registered again
    let s := s.modRead c fun ev => { ev with active := true }.addTimer s.w.now s.r.readTimeout
    (.processEvents, s)

/-- `ngx_http_drizzle_drain_output` -/
def drainOutput (env : Env) (timedout : Bool) (s : St) : Pos × St :=
  if timedout && !s.r.out.delayed then (.finalize (.http 408), s)
  else
    -- a timer that expires during a delay ends the delay
    let o := s.r.out.endDelay timedout
    if o.delayed then (if env.handleWrite then .loop else .finalize (.http 500), s)
    else
      let (rc, o) := o.outputBufs env.flush s.r.loc
      let s := s.setOut o
      if rc ≠ .ok then (.finalize .error, s)
      else if !o.ready s.r.loc then
        let clientWrite :=
          if o.delayed then s.r.clientWrite
          else s.r.clientWrite.addTimer s.w.now s.r.loc.clientSendTimeout
        (if env.handleWrite then .loop else .finalize (.http 500),
          s.modReq fun r => { r with clientWrite := clientWrite })
      else s.onConn fun c _ => s.resume env c

/-! ## The state machine -/

/-- `ngx_http_drizzle_process_events`, up to the call of a state function. -/
def processEvents (s : St) : Pos × St :=
  if s.r.outputPaused then (.loop, s)
  else
    match s.r.state with
    | .connect => (.connect, s)
    | .idle => (.sendQuery, s)
    | .sendQuery => (.sendQuery, s)
    | .recvCols => (.recvCols, s)
    | .recvRows => (.recvRows, s)

/-- `ngx_http_drizzle_process_events`, behind the call of a state function that returned
`rc`. -/
def processed (env : Env) (rc : Rc) (s : St) : Pos × St :=
  if rc = .error then (.next .error, s)
  else if rc.failed then (.finalize rc, s)
  else if rc = .again ∧ !s.r.outputPaused then
    -- what there is goes to the client before the module waits for the database
    let (rc, o) := s.r.out.outputBufs env.flush s.r.loc
    if rc = .error ∨ rc.positive then (.finalize (.http 500), s.setOut o)
    else (.loop, s.setOut o)
  else (.loop, s)

/-- `ngx_http_upstream_drizzle_connect` -/
def connect (env : Env) (c dc : ℕ) (s : St) : Pos × St :=
  let s := s.log (.connect dc env.con)
  match env.con with
  | .ioWait => (.ret .again, s)
  | .fail _ => (.ret .error, s.modWrite c NgxEvent.delTimer)
  | .ok => (.sendQuery, s.modWrite c NgxEvent.delTimer)

/-- `ngx_http_upstream_drizzle_send_query` behind a query that succeeded, with
`ngx_http_drizzle_output_result_header`. -/
def queryOk (env : Env) (h : ResultHeader) (s : St) : Pos × St :=
  if s.r.sendsSetNames then
    if h.errorCode ≠ 0 then (.ret .error, s)
    else (.sendQuery, s.modReq fun r => { r with hasSetNames := true, state := .idle })
  else
    let (rc, o) := s.r.out.outputResultHeader env.emit s.w.conf.endian s.r.loc h
    let s := s.setOut o
    if rc.failed then (.ret rc, s)
    else (if h.columnCount = 0 then .done .done else .recvCols, s)

/-- The call of `drizzle_query`. -/
def queried (dc : ℕ) (ret : QueryRet) (s : St) : St :=
  (s.modReq fun r => { r with queryStarted := true }).libCall dc
    (.query s.r.id s.r.sendsSetNames s.r.queryToSend ret)

/-- `ngx_http_upstream_drizzle_send_query` -/
def sendQuery (env : Env) (c dc : ℕ) (s : St) : Pos × St :=
  let s := s.queried dc env.query
  match env.query with
  | .ioWait =>
    if s.r.state = .sendQuery then (.ret .again, s)
    else
      let s := s.modWrite c fun ev => ev.delTimer.addTimer s.w.now s.r.loc.sendTimeout
      (.ret .again, s.modReq fun r => { r with state := .sendQuery })
  | .fail (.errorCode 1146) =>
    -- the timer is deleted; the state is not reset, as it is behind a query that succeeds
    let s := s.modWrite c NgxEvent.delTimer
    if s.r.sendsSetNames then (.sendQuery, s.modReq fun r => { r with hasSetNames := true })
    else (.done (.http 410), s)
  | .fail _ => (.ret (.http 500), s.modWrite c NgxEvent.delTimer)
  | .ok h => (s.modWrite c NgxEvent.delTimer).queryOk env h

/-- The beginning of `ngx_http_upstream_drizzle_recv_cols` and of
`ngx_http_upstream_drizzle_recv_rows`: the state is entered, with a new timer. -/
def enter (state : DbState) (timeout : Msec) (c : ℕ) (s : St) : St :=
  if s.r.state ≠ state then
    (s.modRead c fun ev => ev.addTimer s.w.now timeout).modReq fun r => { r with state := state }
  else s

/-- `ngx_http_upstream_drizzle_recv_cols`, up to the end of one iteration. -/
def recvCols (env : Env) (c dc : ℕ) (s : St) : Pos × St :=
  let s := s.enter .recvCols s.r.loc.recvColsTimeout c
  let (rc, s) := s.outputReady env.ready c
  if rc ≠ .ok then (.ret rc, s)
  else
    let s := s.libCall dc (.columnRead s.r.id env.column)
    match env.column with
    | .ioWait => (.ret .again, s)
    | .fail _ => (.ret .error, s)
    | .ok (some col) =>
      let (rc, o) := s.r.out.outputCol env.emit s.w.conf.endian s.r.loc col
      (if rc.failed then .ret rc else .recvCols, s.setOut o)
    | .ok none => (.recvRows, s.modRead c NgxEvent.delTimer)

/-- `ngx_http_upstream_drizzle_recv_rows` behind a row that was read. -/
def rowOk (env : Env) (c : ℕ) (row : UInt64) (s : St) : Pos × St :=
  let (rc, o) := s.r.out.outputRow env.emit s.r.loc row
  let s := s.modReq fun r => { r with drizzleRow := row, out := o }
  if rc.failed then (.ret rc, s)
  else if row ≠ 0 then (.recvFields, s)
  else
    let s := s.modRead c NgxEvent.delTimer
    if s.r.sendsSetNames then (.sendQuery, s.modReq fun r => { r with hasSetNames := true })
    else (.done .done, s)

/-- `ngx_http_upstream_drizzle_recv_rows`, up to the inner loop or the end of the rows. -/
def recvRows (env : Env) (c dc : ℕ) (s : St) : Pos × St :=
  let s := s.enter .recvRows s.r.loc.recvRowsTimeout c
  let (rc, s) := s.outputReady env.ready c
  if rc ≠ .ok then (.ret rc, s)
  else if s.r.drizzleRow ≠ 0 then (.recvFields, s)
  else
    let s := s.libCall dc (.rowRead s.r.id env.row)
    match env.row with
    | .ioWait => (.ret .again, s)
    | .fail _ => (.ret .error, s)
    | .ok row => s.rowOk env c row

/-- The inner loop of `ngx_http_upstream_drizzle_recv_rows`, up to the end of one iteration or
of the row. -/
def recvFields (env : Env) (c dc : ℕ) (s : St) : Pos × St :=
  let (rc, s) := s.outputReady env.ready c
  if rc ≠ .ok then (.ret rc, s)
  else
    let s := s.libCall dc (.fieldRead s.r.id env.field)
    match env.field with
    | .ioWait => (.ret .again, s)
    | .rowEnd => (.recvRows, s.modReq fun r => { r with drizzleRow := 0 })
    | .fail _ => (.ret .error, s)
    | .ok chunk =>
      let (rc, o) := s.r.out.outputField env.emit s.w.conf.endian s.r.loc chunk
      (if rc.failed then .ret rc else .recvFields, s.setOut o)

/-- `ngx_http_upstream_drizzle_done`; it is called with `NGX_DONE` or with a status. -/
def done (env : Env) (rc : Rc) (s : St) : Pos × St :=
  -- whether this fails does not matter for what follows
  let (flush, o) := s.r.out.outputBufs env.flush s.r.loc
  let s := (s.setOut o).log (.done rc flush)
  if rc = .done then
    (.finalize .ok, s.modReq fun r => { r with
      length := 0
      out := { r.out with headerSent := true }
      statusN := 200
      state := .idle })
  else
    (.finalize rc, s.modReq fun r => { r with
      length := 0
      statusN := rc.status
      state := .idle })

end St
end DrizzleNginx
