/-
# Looking whether the client is still there

`ngx_http_upstream_dbd_check_broken_connection` as a whole: while a request waits for the database,
it is called for the events of the client's connection.  The worker process of `Sys` has an event
instead for a client that has been found to be gone; here the function decides what is found.
-/
import DrizzleNginx.Model.System

namespace DrizzleNginx

/-- What `recv` answers when it is asked for one byte that stays where it is. -/
inductive Peek
  | byte
  | eof
  | again
  | failed
deriving DecidableEq, Repr

/-- `ngx_event_t` of the client's connection -/
structure ClientEvent where
  write : Bool := false
  active : Bool := true
  pendingEof : Bool := false
  kqErrno : Bool := false
  eof : Bool := false
  error : Bool := false
deriving DecidableEq, Repr

/-- The kind of the events, and what nginx and the system answer. -/
structure CheckEnv where
  levelEvent : Bool := false
  kqueue : Bool := false
  delEvent : Bool := true
  peek : Peek := .again
deriving DecidableEq, Repr

/-- An event that reports levels is removed: whether nothing has failed, and the event behind it. -/
def CheckEnv.delLevelEvent (env : CheckEnv) (ev : ClientEvent) : Bool × ClientEvent :=
  if env.levelEvent && ev.active then
    if env.delEvent then (true, { ev with active := false }) else (false, ev)
  else (true, ev)

namespace St

/-- The end of `ngx_http_upstream_dbd_check_broken_connection`, for a client that has just been
found to be gone.  The first part is the code with which the request is finalized, if it is. -/
def clientGone (cacheable : Bool) (s : St) : Option Rc × St :=
  let s := s.modReq fun r => { r with connError := true }
  if !cacheable && s.r.connection.isSome then (some (.http 499), s)
  else if s.r.connection = none then (some (.http 499), s)
  else (none, s)

/-- `ngx_http_upstream_dbd_check_broken_connection` -/
def checkClient (cacheable : Bool) (env : CheckEnv) (ev : ClientEvent) (s : St) :
    Option Rc × ClientEvent × St :=
  if s.r.connError then
    match env.delLevelEvent ev with
    | (false, ev) => (some (.http 500), ev, s)
    | (true, ev) => (if !cacheable then some (.http 499) else none, ev, s)
  else if env.kqueue then
    if !ev.pendingEof then (none, ev, s)
    else
      let (rc, s) := s.clientGone cacheable
      (rc, { ev with eof := true, error := ev.error || ev.kqErrno }, s)
  else if ev.write && env.peek ≠ .failed then (none, ev, s)     -- also at the end of the stream
  else
    match env.delLevelEvent ev with
    | (false, ev) => (some (.http 500), ev, s)
    | (true, ev) =>
      match env.peek with
      | .byte => (none, ev, s)
      | .again => (none, ev, s)
      | .failed =>
        let (rc, s) := s.clientGone cacheable
        (rc, { ev with eof := true, error := true }, s)
      | .eof =>
        let (rc, s) := s.clientGone cacheable
        (rc, { ev with eof := true }, s)

end St

/-- A step of the worker process, with the calls of the check. -/
inductive CheckLabel
  | other (l : Label)
  | check (i : ℕ) (env : CheckEnv) (ev : ClientEvent)

/-- The event for which the check stands. -/
def Label.isClientClosed : Label → Bool
  | .event _ (.clientClosed _) => true
  | _ => false

/-- The handlers of the client's connection call the check: for a write event, this is so as long as
there is nothing to send. -/
def Req.checks (r : Req) (ev : ClientEvent) : Bool :=
  r.live && (!ev.write || r.writeHandler == .checkBroken)

namespace Sys

/-- A step of the worker process.  `ngx_http_upstream_create` has set `u->cacheable` to 0, and
nothing sets it to anything else. -/
def stepChecked (s : Sys) (l : CheckLabel) : Sys :=
  match l with
  | .other l => if l.isClientClosed then s else s.step l
  | .check i env ev =>
    match s.active, s.reqs[i]? with
    | none, some r =>
      if r.checks ev then
        match (s.view r).checkClient false env ev with
        | (none, _, st) => { s with w := st.w, reqs := s.reqs.set i st.r }
        | (some rc, _, st) => s.put i (.finalize rc, st)
      else s
    | _, _ => s

/-- The state that a run of the worker process reaches. -/
def runChecked (conf : Conf) (ls : List CheckLabel) : Sys := Lib.run stepChecked (init conf) ls

end Sys
end DrizzleNginx
