/-
# The status page

`ngx_http_drizzle_status_handler` goes through the upstreams twice: the first time it adds up the
length of its answer, the second time it writes the answer into a buffer of this length.  In the
first pass the length of a number is that of the 64-bit number, in the second one the number is
written with `%uD`, which takes the low 32 bits of its argument.
-/
import DrizzleNginx.Model.Config

namespace DrizzleNginx

/-! ## Data -/

/-- The fields of `ngx_http_upstream_drizzle_srv_conf_t` that are shown. -/
structure StatusSrvConf where
  /-- `servers->nelts`; `none` if `servers` is `NULL`. -/
  servers : Option UInt64
  /-- `peers->number` -/
  peersNumber : UInt64
  activeConns : UInt64
  maxCached : UInt64
  /-- `none` stands for other values than those of the enumeration. -/
  overflow : Option Overflow
  /-- The fields `used` of the items of a queue. -/
  cache : List UInt64
  free : List UInt64
deriving DecidableEq, Repr

/-- `ngx_http_upstream_srv_conf_t` -/
structure StatusUpstream where
  host : Bytes
  /-- `srv_conf` is not `NULL`. -/
  srvConf : Bool := true
  dscf : Option StatusSrvConf
deriving DecidableEq, Repr

/-- What the handler reads. -/
structure StatusEnv where
  /-- `ngx_process` is `NGX_PROCESS_WORKER`. -/
  worker : Bool := true
  /-- `ngx_pid` -/
  pid : Int32
  /-- `ngx_create_temp_buf` -/
  alloc : Bool := true
  upstreams : List StatusUpstream
deriving DecidableEq, Repr

/-- What the handler comes to, before it sends the header. -/
inductive StatusRet
  | noMemory
  /-- "drizzle_status output buffer error", with the number of bytes written and the size of the
  buffer. -/
  | bufferError (last size : ℕ)
  | output (data : Bytes)
deriving DecidableEq, Repr

/-- The upstreams that are not skipped. -/
def StatusUpstream.shown (uscf : StatusUpstream) : Option (StatusSrvConf × UInt64) :=
  if !uscf.srvConf then none
  else
    match uscf.dscf with
    | none => none
    | some dscf =>
      match dscf.servers with
      | none => none
      | some servers => some (dscf, servers)

/-- `ngx_http_drizzle_queue_size` -/
def queueSize (queue : List UInt64) : UInt64 := queue.foldl (fun n _ => n + 1) 0

/-! ## The first pass -/

/-- The loop of `ngx_http_drizzle_get_num_size`. -/
def numSize (n i : ℕ) : ℕ :=
  if 0 < i / 10 then numSize (n + 1) (i / 10) else n + 1
termination_by i
decreasing_by omega

/-- `ngx_http_drizzle_get_num_size` -/
def getNumSize (i : UInt64) : ℕ := numSize 0 i.toNat

/-- Add the length of the part about the pool. -/
def StatusSrvConf.poolLen (dscf : StatusSrvConf) (len : ℕ) : ℕ :=
  let len := len + match dscf.overflow with
    | some .ignore => size "  overflow: ignore\n"
    | some .reject => size "  overflow: reject\n"
    | none => size "  overflow: N/A\n"
  let len := len + size "  cached connection queue: \n" + getNumSize (queueSize dscf.cache)
    + size "  free'd connection queue: \n" + getNumSize (queueSize dscf.free)
    + size "  cached connection successfully used count:\n"
  let len := dscf.cache.foldl (fun len used => len + size " " + getNumSize used) len
  let len := len + size "  free'd connection successfully used count:\n"
  dscf.free.foldl (fun len used => len + size " " + getNumSize used) len

/-- What an upstream adds to the length `len`, as the one after `n` others. -/
def StatusUpstream.addLen (acc : ℕ × ℕ) (uscf : StatusUpstream) : ℕ × ℕ :=
  match uscf.shown with
  | none => acc
  | some (dscf, servers) =>
    let (len, n) := acc
    let len := if n ≠ 0 then len + size "\n" else len
    let len := len + size "upstream \n" + uscf.host.length
      + size "  active connections: \n" + getNumSize dscf.activeConns
      + size "  connection pool capacity: \n" + getNumSize dscf.maxCached
    let len := if dscf.maxCached ≠ 0 then dscf.poolLen len else len
    let len := len + size "  servers: \n" + getNumSize servers
      + size "  peers: \n" + getNumSize dscf.peersNumber
    (len, n + 1)

/-- The length that the first pass computes. -/
def StatusEnv.len (env : StatusEnv) : ℕ :=
  let len := if env.worker then
    size "worker process: \n\n" + getNumSize (.ofInt env.pid.toInt) else 0
  (env.upstreams.foldl StatusUpstream.addLen (len, 0)).1

/-! ## The second pass -/

/-- The decimal digits of a number. -/
def decimal (n : ℕ) : Bytes := (Nat.toDigits 10 n).map fun c => UInt8.ofNat c.toNat

/-- The conversion `%uD` of `ngx_sprintf`. -/
def sprintfUD (n : UInt64) : Bytes := decimal (n.toNat % 2 ^ 32)

/-- The conversion `%P` of `ngx_sprintf`. -/
def sprintfP (pid : Int32) : Bytes :=
  if pid.toInt < 0 then ascii "-" ++ decimal pid.toInt.natAbs else decimal pid.toInt.natAbs

/-- Write the part about the pool. -/
def StatusSrvConf.writePool (dscf : StatusSrvConf) (last : Bytes) : Bytes :=
  let last := last ++ match dscf.overflow with
    | some .ignore => ascii "  overflow: ignore\n"
    | some .reject => ascii "  overflow: reject\n"
    | none => ascii "  overflow: N/A\n"
  let last := last ++ (ascii "  cached connection queue: " ++ sprintfUD (queueSize dscf.cache)
    ++ ascii "\n")
  let last := last ++ (ascii "  free'd connection queue: " ++ sprintfUD (queueSize dscf.free)
    ++ ascii "\n")
  let last := last ++ ascii "  cached connection successfully used count:"
  let last := dscf.cache.foldl (fun last used => last ++ (ascii " " ++ sprintfUD used)) last
  let last := last ++ ascii "\n"
  let last := last ++ ascii "  free'd connection successfully used count:"
  let last := dscf.free.foldl (fun last used => last ++ (ascii " " ++ sprintfUD used)) last
  last ++ ascii "\n"

/-- Write the part about an upstream behind `last`, as the one after `n` others. -/
def StatusUpstream.write (acc : Bytes × ℕ) (uscf : StatusUpstream) : Bytes × ℕ :=
  match uscf.shown with
  | none => acc
  | some (dscf, servers) =>
    let (last, n) := acc
    let last := if n ≠ 0 then last ++ ascii "\n" else last
    let last := last ++ ascii "upstream " ++ uscf.host ++ ascii "\n"
    let last := last ++ (ascii "  active connections: " ++ sprintfUD dscf.activeConns ++ ascii "\n")
    let last := last ++ (ascii "  connection pool capacity: " ++ sprintfUD dscf.maxCached
      ++ ascii "\n")
    let last := if dscf.maxCached ≠ 0 then dscf.writePool last else last
    let last := last ++ (ascii "  servers: " ++ sprintfUD servers ++ ascii "\n")
    let last := last ++ (ascii "  peers: " ++ sprintfUD dscf.peersNumber ++ ascii "\n")
    (last, n + 1)

/-- What the second pass writes. -/
def StatusEnv.write (env : StatusEnv) : Bytes :=
  let last := if env.worker then
    ascii "worker process: " ++ sprintfP env.pid ++ ascii "\n\n" else []
  (env.upstreams.foldl StatusUpstream.write (last, 0)).1

/-- `ngx_http_drizzle_status_handler`, up to the header. -/
def statusHandler (env : StatusEnv) : StatusRet :=
  if !env.alloc then .noMemory
  else if env.write.length ≠ env.len then .bufferError env.write.length env.len
  else .output env.write

end DrizzleNginx
