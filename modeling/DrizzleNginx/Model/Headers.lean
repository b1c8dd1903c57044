/-
# Setting a response header

`ngx_http_drizzle_set_header`: the headers of a response are in an `ngx_list_t`, a chain of parts
each of which is an array.  A header with the same name is replaced, or switched off if the value is
empty; otherwise a header is appended with `ngx_list_push`.
-/
import DrizzleNginx.Model.Output

namespace DrizzleNginx

/-- `ngx_table_elt_t` -/
structure TableElt where
  hash : UInt64
  key : Bytes
  value : Bytes
deriving DecidableEq, Repr

/-- `ngx_list_t` with its elements: the first part and those behind it. -/
structure HeaderList where
  part : List TableElt
  next : List (List TableElt)
deriving DecidableEq, Repr

/-- A read access to an element that is not in its part. -/
inductive HeaderFault
  | outOfPart
deriving DecidableEq, Repr

/-- A call of `ngx_http_drizzle_set_header`.  `push` is `ngx_list_push` at this time: it appends an
element if there is memory. -/
structure HeaderCall where
  push : HeaderList → TableElt → Option HeaderList
  key : Bytes
  value : Bytes

/-- The comparison of the names of two headers.  `strncasecmp` says that two names of the same
length are the same up to the case of letters. -/
def sameName (strncasecmp : Bytes → Bytes → Bool) (key key' : Bytes) : Bool :=
  key.length = key'.length && strncasecmp key key'

/-- What is stored in a header with the name that is looked for. -/
def TableElt.store (value : Bytes) (h : TableElt) : TableElt :=
  { h with
    hash := if value.length = 0 then 0 else h.hash
    value := value }

section Loop

variable (strncasecmp : Bytes → Bytes → Bool) (key value : Bytes)

/-- The loop through the elements of a part: what is in the part behind it, if the header has been
found. -/
def setIn : List TableElt → Option (List TableElt)
  | [] => none
  | h :: hs =>
    if sameName strncasecmp h.key key then some (h.store value :: hs)
    else (setIn hs).map (h :: ·)

/-- The loop through the parts behind the first one.  When it goes on to a part, the first element
of this part is read, whether there is one or not. -/
def setNext : List (List TableElt) → Except HeaderFault (Option (List (List TableElt)))
  | [] => .ok none
  | [] :: _ => .error .outOfPart
  | (h :: hs) :: next =>
    match setIn strncasecmp key value (h :: hs) with
    | some part => .ok (some (part :: next))
    | none => (setNext next).map (Option.map ((h :: hs) :: ·))

/-- The whole loop: the list behind it, if the header has been found. -/
def setFound (l : HeaderList) : Except HeaderFault (Option HeaderList) :=
  match setIn strncasecmp key value l.part with
  | some part => .ok (some { l with part := part })
  | none =>
    (setNext strncasecmp key value l.next).map (Option.map fun next => { l with next := next })

end Loop

/-- `ngx_http_drizzle_set_header` -/
def setHeader (strncasecmp : Bytes → Bytes → Bool) (c : HeaderCall) (l : HeaderList) :
    Except HeaderFault (Rc × HeaderList) :=
  match setFound strncasecmp c.key c.value l with
  | .error e => .error e
  | .ok (some l) => .ok (.ok, l)
  | .ok none =>
    if c.value.length = 0 then .ok (.ok, l)
    else
      match c.push l { hash := 1, key := c.key, value := c.value } with
      | none => .ok (.http 500, l)
      | some l => .ok (.ok, l)

/-- Calls of `ngx_http_drizzle_set_header` one after another, up to the first one that fails. -/
def setHeaders (strncasecmp : Bytes → Bytes → Bool) (l : HeaderList) :
    List HeaderCall → Except HeaderFault (Rc × HeaderList)
  | [] => .ok (.ok, l)
  | c :: calls =>
    match setHeader strncasecmp c l with
    | .ok (.ok, l) => setHeaders strncasecmp l calls
    | .ok (rc, l) => .ok (rc, l)
    | .error e => .error e

end DrizzleNginx
