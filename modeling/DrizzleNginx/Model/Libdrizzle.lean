/-
# What libdrizzle reports

The module reads a query result through four calls of the client library: `drizzle_query`,
`drizzle_column_read`, `drizzle_row_read` and `drizzle_field_read`.  Each of them may say
that it has to wait for the socket.  This file has the values they return, the record that
a call leaves in the history of a connection, and the sequences of answers that make up the
report of one complete result set.
-/
import Mathlib

namespace DrizzleNginx

abbrev Bytes := List UInt8

/-! ## Results -/

/-- What the `drizzle_result_*` accessors say about a result: `drizzle_result_error_code`,
`drizzle_result_error`, `drizzle_result_affected_rows`, `drizzle_result_insert_id` and
`drizzle_result_column_count`. -/
structure ResultHeader where
  errorCode : UInt16
  error : Bytes
  affectedRows : UInt64
  insertId : UInt64
  columnCount : UInt16
deriving DecidableEq, Repr

/-- `drizzle_column_type` and `drizzle_column_name` of a column. -/
structure Column where
  type : UInt16
  name : Bytes
deriving DecidableEq, Repr

/-- What `drizzle_field_read` reports about a chunk of a field: the offset of the chunk, its
length, the length of the whole field, and the field pointer (`none` is `NULL`). -/
structure FieldRead where
  offset : ℕ
  len : ℕ
  total : ℕ
  field : Option Bytes
deriving DecidableEq, Repr

/-- The values of `drizzle_return_t` that are errors: the server answered with an error code,
or the client library failed. -/
inductive DrizzleError
  | errorCode (code : ℕ)
  | other (ret : ℕ)
deriving DecidableEq, Repr

/-- The outcome of `drizzle_con_connect`. -/
inductive ConnectRet
  | ok
  | ioWait
  | fail (err : DrizzleError)
deriving DecidableEq, Repr

/-- The outcome of `drizzle_query`. -/
inductive QueryRet
  | ioWait
  | ok (header : ResultHeader)
  | fail (err : DrizzleError)
deriving DecidableEq, Repr

/-- The outcome of `drizzle_column_read`; no column after the last one. -/
inductive ColumnRet
  | ioWait
  | ok (col : Option Column)
  | fail (err : DrizzleError)
deriving DecidableEq, Repr

/-- The outcome of `drizzle_row_read`; the row number is 0 after the last row. -/
inductive RowRet
  | ioWait
  | ok (row : UInt64)
  | fail (err : DrizzleError)
deriving DecidableEq, Repr

/-- The outcome of `drizzle_field_read`. -/
inductive FieldRet
  | ioWait
  | rowEnd
  | ok (chunk : FieldRead)
  | fail (err : DrizzleError)
deriving DecidableEq, Repr

/-- A call of the client library on a connection: the request that made it, what it passed,
and what the library answered.  A query is either the `set names` query of the connection
or the SQL of the request. -/
inductive LibCall
  | query (req : ℕ) (setNames : Bool) (sql : Bytes) (ret : QueryRet)
  | columnRead (req : ℕ) (ret : ColumnRet)
  | rowRead (req : ℕ) (ret : RowRet)
  | fieldRead (req : ℕ) (ret : FieldRet)
deriving DecidableEq, Repr

namespace LibCall

/-- The request that made the call. -/
def req : LibCall → ℕ
  | query i _ _ _ => i
  | columnRead i _ => i
  | rowRead i _ => i
  | fieldRead i _ => i

/-- The call was one of `drizzle_query`. -/
def isQuery : LibCall → Bool
  | query .. => true
  | _ => false

/-- The error code of a table that does not exist, `MYSQL_ER_NO_SUCH_TABLE`. -/
def noSuchTable : ℕ := 1146

/-- With this answer the server's reply to the last command has been consumed: a result
without columns, the end of the row list, or a finished error reply about a missing
table. -/
def endsReply : LibCall → Bool
  | query _ _ _ (.ok h) => h.columnCount = 0
  | query _ _ _ (.fail (.errorCode code)) => code = noSuchTable
  | rowRead _ (.ok row) => row = 0
  | _ => false

end LibCall

/-! ## The report of a result set -/

/-- A piece of the result of the request's SQL, as the library delivers it. -/
inductive Answer
  | header (header : ResultHeader)
  | column (col : Option Column)
  | row (row : UInt64)
  | field (chunk : FieldRead)
  | rowEnd
deriving DecidableEq, Repr

/-- The piece of the result of the request's SQL that a call delivered, if any: a call that
waits or fails delivers none, and neither does the `set names` query. -/
def LibCall.answer : LibCall → Option Answer
  | .query _ false _ (.ok h) => some (.header h)
  | .columnRead _ (.ok col) => some (.column col)
  | .rowRead _ (.ok row) => some (.row row)
  | .fieldRead _ (.ok chunk) => some (.field chunk)
  | .fieldRead _ .rowEnd => some .rowEnd
  | _ => none

/-- A result set: the header values, the columns, and rows of fields that may be `NULL`. -/
structure ResultSet where
  errorCode : UInt16
  error : Bytes
  affectedRows : UInt64
  insertId : UInt64
  columns : List Column
  rows : List (List (Option Bytes))
deriving DecidableEq, Repr

namespace ResultSet

/-- The header values of a result set. -/
def header (R : ResultSet) : ResultHeader where
  errorCode := R.errorCode
  error := R.error
  affectedRows := R.affectedRows
  insertId := R.insertId
  columnCount := UInt16.ofNat R.columns.length

/-- The result set can be represented: the column count and the lengths of the error string
and of the column names have 16 bits, each row has as many fields as there are columns, and
the length of a field has 32 bits and is not the mark of `NULL`.  A result without columns
has no rows. -/
structure Representable (R : ResultSet) : Prop where
  error_lt : R.error.length < 2 ^ 16
  columns_lt : R.columns.length < 2 ^ 16
  name_lt : ∀ c ∈ R.columns, c.name.length < 2 ^ 16
  fields_length : ∀ fs ∈ R.rows, fs.length = R.columns.length
  field_lt : ∀ fs ∈ R.rows, ∀ d, some d ∈ fs → d.length < 2 ^ 32 - 1
  rows_nil : R.columns = [] → R.rows = []

end ResultSet

/-- The chunks of the part of a field of length `total` that starts at `offset`: each chunk
starts where the one before it ended. -/
inductive ChunkReads (total : ℕ) : ℕ → Bytes → List FieldRead → Prop
  | nil (offset : ℕ) : ChunkReads total offset [] []
  | cons {offset : ℕ} (chunk : Bytes) {rest : Bytes} {rs : List FieldRead} :
      ChunkReads total (offset + chunk.length) rest rs →
      ChunkReads total offset (chunk ++ rest) (⟨offset, chunk.length, total, some chunk⟩ :: rs)

/-- The chunks in which a field is reported.  A `NULL` field has no pointer, an empty one
has; a field with data comes in chunks that may be preceded by the announcement of its
length. -/
inductive FieldReads : Option Bytes → List FieldRead → Prop
  | null : FieldReads none [⟨0, 0, 0, none⟩]
  | empty : FieldReads (some []) [⟨0, 0, 0, some []⟩]
  | chunks {d : Bytes} {rs : List FieldRead} (hd : d ≠ []) (h : ChunkReads d.length 0 d rs) :
      FieldReads (some d) rs
  | announced {d : Bytes} {rs : List FieldRead} (field : Option Bytes) (hd : d ≠ [])
      (h : ChunkReads d.length 0 d rs) : FieldReads (some d) (⟨0, 0, d.length, field⟩ :: rs)

/-- The answers that report the fields of a row. -/
inductive FieldsReads : List (Option Bytes) → List Answer → Prop
  | nil : FieldsReads [] []
  | cons {f : Option Bytes} {fs : List (Option Bytes)} {rs : List FieldRead} {as : List Answer} :
      FieldReads f rs → FieldsReads fs as → FieldsReads (f :: fs) (rs.map Answer.field ++ as)

/-- The answers that report rows, each with a nonzero row number. -/
inductive RowsReads : List (List (Option Bytes)) → List Answer → Prop
  | nil : RowsReads [] []
  | cons {row : UInt64} {fs : List (Option Bytes)} {rows : List (List (Option Bytes))}
      {as bs : List Answer} (hrow : row ≠ 0) :
      FieldsReads fs as → RowsReads rows bs →
      RowsReads (fs :: rows) (Answer.row row :: as ++ Answer.rowEnd :: bs)

/-- The answers that report a complete result set. -/
inductive Reading (R : ResultSet) : List Answer → Prop
  | noColumns (h : R.columns = []) : Reading R [.header R.header]
  | columns (h : R.columns ≠ []) {as : List Answer} : RowsReads R.rows as →
      Reading R (.header R.header :: R.columns.map (fun c => .column (some c)) ++
        .column none :: as ++ [.row 0])

end DrizzleNginx
