/-
# The thread id

`ngx_http_drizzle_wev_handler` and `ngx_http_drizzle_rev_handler` react to a timer of the database
connection that has expired: they store the number of the thread of the server in a variable of the
request, where it can be used to kill the query, and give the connection up.

The variables are kept beside the worker process: the module never reads them.  A subrequest has no
variables of its own, `r->variables` is that of the main request; so they are kept for each main
request, and `main` says which one a request belongs to.
-/
import DrizzleNginx.Model.Status
import DrizzleNginx.Model.System

namespace DrizzleNginx

/-- `ngx_http_variable_value_t`.  The data that a pointer leads to, `none` for `NULL`. -/
structure VariableValue where
  len : ℕ := 0
  valid : Bool := false
  noCacheable : Bool := false
  notFound : Bool := false
  data : Option Bytes := none
deriving DecidableEq, Repr

/-- The answers to the calls of `setThreadId`. -/
structure ThreadIdEnv where
  /-- `drizzle_con_thread_id`: 0 as long as the server has not told it. -/
  tid : UInt32 := 0
  /-- `ngx_http_get_indexed_variable` returns the variable. -/
  indexed : Bool := true
  /-- `ngx_palloc` -/
  alloc : Bool := true
deriving DecidableEq, Repr

namespace VariableValue

/-- `ngx_http_drizzle_tid_variable` -/
def tidVariable : VariableValue where
  len := 0
  valid := true
  noCacheable := false
  notFound := false
  data := some []

/-- What `ngx_http_get_indexed_variable` finds: the value of the request, or that of the handler of
the variable if there is none. -/
def getIndexed (v : VariableValue) : VariableValue :=
  if v.notFound || v.valid then v else tidVariable

/-- `ngx_http_drizzle_set_thread_id_variable` for a request with a certain `dp->drizzle_con`. -/
def setThreadId (env : ThreadIdEnv) (dc : Option ℕ) (v : VariableValue) : Rc × VariableValue :=
  match dc with
  | none => (.error, v)
  | some _ =>
    if env.tid = 0 then (.ok, v)     -- the thread is not known yet
    else
      let size := getNumSize env.tid.toUInt64
      if !env.indexed then (.error, v)
      else
        let vv := { v.getIndexed with notFound := false, valid := true, noCacheable := false }
        -- the variable is valid already when the allocation fails
        if !env.alloc then (.error, { vv with data := none })
        else (.ok, { vv with data := some (sprintfUD env.tid.toUInt64), len := size })

end VariableValue

/-- A worker process, and the variables `$drizzle_thread_id` of the main requests. -/
structure Tids where
  sys : Sys
  vars : ℕ → VariableValue

namespace Tids

def init (conf : Conf) : Tids := ⟨.init conf, fun _ => {}⟩

/-- The variables behind a step: that of a request, which it shares with all requests of its main
request, is set when the expiry of a timer of its database connection is handled. -/
def varsStep (main : ℕ → ℕ) (s : Tids) (l : Label) (env : ThreadIdEnv) : ℕ → VariableValue :=
  match l, s.sys.active with
  | .run _, some (i, .event (.db _ true _)) =>
    match s.sys.reqs[i]? with
    | none => s.vars
    | some r =>
      Function.update s.vars (main i) ((s.vars (main i)).setThreadId env r.drizzleCon).2
  | _, _ => s.vars

/-- A step of the worker process, with the answers to the calls about the thread id. -/
def step (main : ℕ → ℕ) (s : Tids) (l : Label × ThreadIdEnv) : Tids where
  sys := s.sys.step l.1
  vars := s.varsStep main l.1 l.2

/-- The state that a run of the worker process reaches. -/
def run (main : ℕ → ℕ) (conf : Conf) (ls : List (Label × ThreadIdEnv)) : Tids :=
  Lib.run (step main) (init conf) ls

end Tids
end DrizzleNginx
