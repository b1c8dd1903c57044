/-
# Output

The functions of `ngx_http_drizzle_output.c` that move bytes: they collect the pieces of the
stream in a buffer, queue full buffers in a chain, hand the chain to the output filter of
nginx and reuse the buffers that have been consumed.

Each function takes the answers of nginx to the calls it makes: whether an allocation
succeeds, what `ngx_http_send_header` returns, and what the output filter does with the
chain.
-/
import DrizzleNginx.Model.Data

namespace DrizzleNginx

/-! ## The answers of nginx -/

/-- What `ngx_http_output_filter` does: it returns `rc`, having consumed that many bytes, in
order, of the buffers it holds and of those it is given; afterwards the request or the
connection has buffered data or not, and writing to the client is delayed or not. -/
structure FilterAns where
  rc : Rc := .ok
  consumed : ℕ := 0
  buffered : Bool := false
  delayed : Bool := false
deriving DecidableEq, Repr

/-- The answers to one call of `outputBufs`: `link` is the allocation of a chain link and
`setHeader` that of a response header. -/
structure FlushEnv where
  link : Bool := true
  setHeader : Bool := true
  header : Rc := .ok
  filter : FilterAns := {}
deriving DecidableEq, Repr

/-- The answers to the emission of a piece of the stream: `link` and `submit` are the
allocations of chain links in `requestMem` and in `submitMem`, `mem` is that of memory for a
buffer. -/
structure EmitEnv where
  link : Bool := true
  flush : FlushEnv := {}
  mem : Bool := true
  submit : Bool := true
deriving DecidableEq, Repr

/-! ## Chains -/

/-- The filter consumes `n` bytes of a chain, the first buffer first. -/
def consume : ℕ → List Buf → List Buf
  | _, [] => []
  | n, b :: bs =>
    let m := min n (b.data.length - b.pos)
    { b with pos := b.pos + m } :: consume (n - m) bs

/-- The loop of `ngx_chain_update_chains`: buffers at the front of the busy chain that have
been consumed are emptied and go to the front of the free chain. -/
def updateChains (free : List Buf) : List Buf → List Buf × List Buf
  | [] => (free, [])
  | b :: busy =>
    if b.pos = b.data.length then updateChains ({ b with data := [], pos := 0 } :: free) busy
    else (free, b :: busy)

namespace Out

/-- `ngx_http_drizzle_queue_buf` -/
def queueBuf (link : Bool) (o : Out) : Rc × Out :=
  match o.outBuf with
  | none => (.ok, o)
  | some b =>
    if b.data.length = b.pos then (.ok, o)     -- nothing has been written
    else if !link then (.error, o)
    else
      (.ok, { o with
        outBufs := o.outBufs.take o.lastOut ++ [b]
        lastOut := o.lastOut + 1
        bufferedOutput := o.bufferedOutput + b.capacity
        outBuf := none
        availOut := 0 })

/-- The part of `ngx_http_drizzle_output_bufs` that sends the response header. -/
def sendHeader (env : FlushEnv) (loc : LocConf) (o : Out) : Rc × Out :=
  if o.headerSent || o.outBufs.isEmpty then (.ok, o)
  else if loc.enableModuleHeader && !env.setHeader then (.error, o)
  else
    let o := { o with headerCalls := env.header :: o.headerCalls }
    if env.header.failed then (env.header, o) else (.ok, { o with headerSent := true })

/-- The call of `ngx_http_output_filter`, with what it consumes. -/
def callFilter (f : FilterAns) (o : Out) : Out :=
  let bufs := consume f.consumed (o.busyBufs ++ o.outBufs)
  { o with
    busyBufs := bufs.take o.busyBufs.length
    outBufs := bufs.drop o.busyBufs.length
    delayed := f.delayed
    sent := o.sent ++ [o.outBufs.map Buf.pending] }

/-- The part of `ngx_http_drizzle_output_bufs` behind a successful call of the filter. -/
def recycle (f : FilterAns) (o : Out) : Out :=
  let chains := updateChains o.freeBufs (o.busyBufs ++ o.outBufs)
  { o with
    outputBlocked := f.rc = .again || f.buffered || f.delayed
    freeBufs := chains.1
    busyBufs := chains.2
    outBufs := []
    lastOut := 0
    bufferedOutput := (chains.2.map Buf.capacity).sum }

/-- The part of `ngx_http_drizzle_output_bufs` that hands the chain to the filter. -/
def flush (f : FilterAns) (o : Out) : Rc × Out :=
  if f.rc.failed then (f.rc, o.callFilter f) else (.ok, (o.callFilter f).recycle f)

/-- `ngx_http_drizzle_output_bufs` -/
def outputBufs (env : FlushEnv) (loc : LocConf) (o : Out) : Rc × Out :=
  let (rc, o) :=
    if o.seenStreamEnd then { o with seenStreamEnd := false }.queueBuf env.link else (.ok, o)
  if rc ≠ .ok then (.error, o)
  else
    let (rc, o) := o.sendHeader env loc
    if rc ≠ .ok then (rc, o)
    -- there is nothing to send yet, not even a header
    else if !o.headerSent then (.ok, o)
    else o.flush env.filter

/-- The buffer that `ngx_http_drizzle_request_mem` takes from the free chain or creates, with
room for `size` bytes; `none` when there is no memory. -/
def newBuf (mem : Bool) (size : ℕ) (o : Out) : Option Buf × Out :=
  match o.freeBufs with
  | b :: free =>
    if b.capacity < size then
      -- the buffer gets new memory; it has left the free chain already if there is none
      if mem then
        (some { b with capacity := size, data := [], pos := 0 }, { o with freeBufs := free })
      else (none, { o with freeBufs := free })
    else (some { b with data := [], pos := 0 }, { o with freeBufs := free })
  | [] =>
    if mem then (some { id := o.nbufs, capacity := size }, { o with nbufs := o.nbufs + 1 })
    else (none, o)

/-- `ngx_http_drizzle_request_mem`: whether `len` bytes are available behind the data of
`outBuf`. -/
def requestMem (env : EmitEnv) (loc : LocConf) (len : ℕ) (o : Out) : Bool × Out :=
  if o.outBuf.isSome ∧ (len : ℤ) ≤ o.availOut then (true, o)
  else
    let (rc, o) := o.queueBuf env.link
    if rc ≠ .ok then (false, o)
    else
      let (rc, o) := o.outputBufs env.flush loc
      if rc ≠ .ok then (false, o)
      else
        match o.newBuf env.mem (max len loc.bufSize) with
        | (none, o) => (false, o)
        | (some b, o) => (true, { o with outBuf := some b, availOut := b.capacity })

/-- `ngx_http_drizzle_submit_mem`, after the caller has written `bytes` behind the data of
`outBuf`. -/
def submitMem (link : Bool) (bytes : Bytes) (o : Out) : Rc × Out :=
  match o.outBuf with
  | none => (.error, o)
  | some b =>
    let o := { o with
      outBuf := some { b with data := b.data ++ bytes }
      availOut := o.availOut - bytes.length }
    if o.availOut = 0 then o.queueBuf link else (.ok, o)

/-- What the four functions that emit a piece of the stream have in common: they request
`size` bytes, write `bytes`, check that they have written as many bytes as they requested,
and submit them; the last piece of the stream is noted before it is submitted. -/
def emit (env : EmitEnv) (loc : LocConf) (size : ℕ) (bytes : Bytes) (last : Bool) (o : Out) :
    Rc × Out :=
  let (mem, o) := o.requestMem env loc size
  if !mem then (.error, o)
  else if bytes.length ≠ size then (.error, o)
  else
    let o := if last then { o with seenStreamEnd := true } else o
    o.submitMem env.submit bytes

/-- `ngx_http_drizzle_output_result_header` for the result of the request's SQL, up to the
call of `ngx_http_upstream_drizzle_done`. -/
def outputResultHeader (env : EmitEnv) (e : Rds.Endian) (loc : LocConf) (h : ResultHeader)
    (o : Out) : Rc × Out :=
  let size := 1 + 4 + 1 + 2 + 2 + 2 + h.error.length % 2 ^ 16 + 8 + 8 + 2
  o.emit env loc size (Rds.resultHeaderBytes e h) (h.columnCount = 0)

/-- `ngx_http_drizzle_output_col` -/
def outputCol (env : EmitEnv) (e : Rds.Endian) (loc : LocConf) (col : Column) (o : Out) :
    Rc × Out :=
  let size := 2 + 2 + 2 + col.name.length % 2 ^ 16
  o.emit env loc size (Rds.colBytes e col) false

/-- `ngx_http_drizzle_output_row` -/
def outputRow (env : EmitEnv) (loc : LocConf) (row : UInt64) (o : Out) : Rc × Out :=
  o.emit env loc 1 (Rds.rowBytes row) (row = 0)

/-- `ngx_http_drizzle_output_field` -/
def outputField (env : EmitEnv) (e : Rds.Endian) (loc : LocConf) (f : FieldRead) (o : Out) :
    Rc × Out :=
  if Rds.FieldRead.announces f then (.done, o)
  else o.emit env loc (Rds.fieldSize f) (Rds.fieldBytes e f) false

/-- `ngx_http_drizzle_pending_output` -/
def pendingOutput (o : Out) : ℕ :=
  o.bufferedOutput + match o.outBuf with
    | none => 0
    | some b => b.data.length - b.pos

/-- Neither the client nor the threshold stops the output. -/
def ready (loc : LocConf) (o : Out) : Bool :=
  !o.outputBlocked && o.pendingOutput < loc.maxBuffered

end Out

end DrizzleNginx
