/-
# Requests that share a client connection

A subrequest has the `r->connection` of its main request.  So requests that are paused at the same
time may wait for the same write event, with one timer and one `delayed` flag, and each finds them
as the others have left them.

In a worker process every request has its own view of its client connection, and a label tells
when others have changed it.  Here the client connections are kept beside the worker process, and
`client` says which one a request has: a request finds its connection as the last request has left
it, or nginx.
-/
import DrizzleNginx.Model.System

namespace DrizzleNginx

/-- The request for which a step is done. -/
def Label.request (s : Sys) : Label → Option ℕ
  | .event i _ => some i
  | .run _ => s.active.map Prod.fst
  | _ => none

/-- A worker process with the client connections. -/
structure Shared where
  sys : Sys
  clients : ℕ → ClientConn

namespace Shared

def init (conf : Conf) : Shared := ⟨.init conf, fun _ => {}⟩

/-- A request finds its client connection. -/
def load (client : ℕ → ℕ) (s : Shared) (i : ℕ) : Sys :=
  s.sys.step (.client i (s.clients (client i)))

/-- A request leaves its client connection. -/
def store (client : ℕ → ℕ) (s : Shared) (i : ℕ) (sys : Sys) : Shared where
  sys := sys
  clients :=
    match sys.reqs[i]? with
    | none => s.clients
    | some r => Function.update s.clients (client i) r.clientConn

/-- A step of the worker process.  The label that changes a client connection stands for nginx and
other modules here; an error stays noted. -/
def step (client : ℕ → ℕ) (s : Shared) (l : Label) : Shared :=
  match l with
  -- no request is concerned until it looks at the connection
  | .client i c => { s with
      clients := Function.update s.clients (client i)
        { c with error := (s.clients (client i)).error || c.error } }
  | l =>
    match l.request s.sys with
    | none => { s with sys := s.sys.step l }
    | some i => s.store client i ((s.load client i).step l)

/-- The state that a run reaches. -/
def run (client : ℕ → ℕ) (conf : Conf) (ls : List Label) : Shared :=
  Lib.run (step client) (init conf) ls

end Shared
end DrizzleNginx
