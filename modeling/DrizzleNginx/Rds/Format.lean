/-
# The Resty-DBD-Stream encoding

The bytes that `ngx_http_drizzle_output_result_header`, `ngx_http_drizzle_output_col`,
`ngx_http_drizzle_output_row` and `ngx_http_drizzle_output_field` write into the memory they
have requested.  Integers are stored in the byte order of the host, which the first byte of
the stream tells.
-/
import DrizzleNginx.Model.Libdrizzle

namespace DrizzleNginx
namespace Rds

/-- The byte order of the host, `NGX_HAVE_LITTLE_ENDIAN`. -/
inductive Endian
  | little
  | big
deriving DecidableEq, Repr

/-! ## Integers -/

/-- The lowest `w` bytes of an integer, the least significant one first. -/
def leBytes : ℕ → ℕ → Bytes
  | 0, _ => []
  | w + 1, n => UInt8.ofNat n :: leBytes w (n / 256)

/-- The integer with the given bytes, the least significant one first. -/
def leValue : Bytes → ℕ
  | [] => 0
  | b :: bs => b.toNat + 256 * leValue bs

@[simp] lemma length_leBytes (w n : ℕ) : (leBytes w n).length = w := by
  induction w generalizing n with
  | zero => rfl
  | succ w ih => simp [leBytes, ih]

lemma leValue_leBytes (w n : ℕ) : leValue (leBytes w n) = n % 256 ^ w := by
  induction w generalizing n with
  | zero => simp [leBytes, leValue, Nat.mod_one]
  | succ w ih =>
    have hb : (UInt8.ofNat n).toNat = n % 256 := by simp
    rw [leBytes, leValue, ih, hb, Nat.pow_succ', Nat.mod_mul]

/-- An integer of `w` bytes in host byte order. -/
def uintBytes (e : Endian) (w n : ℕ) : Bytes :=
  match e with
  | .little => leBytes w n
  | .big => (leBytes w n).reverse

/-- The integer stored in bytes in host byte order. -/
def uintValue (e : Endian) (bs : Bytes) : ℕ :=
  match e with
  | .little => leValue bs
  | .big => leValue bs.reverse

@[simp] lemma length_uintBytes (e : Endian) (w n : ℕ) : (uintBytes e w n).length = w := by
  cases e <;> simp [uintBytes]

lemma uintValue_uintBytes (e : Endian) (w n : ℕ) :
    uintValue e (uintBytes e w n) = n % 256 ^ w := by
  cases e <;> simp [uintBytes, uintValue, leValue_leBytes]

/-! ## The header -/

/-- `resty_dbd_stream_version`. -/
def restyDbdStreamVersion : ℕ := 3

/-- The endian type byte. -/
def endianByte : Endian → UInt8
  | .little => 0
  | .big => 1

/-- The bytes written by `ngx_http_drizzle_output_result_header`.  The length of the error
string is truncated to 16 bits before the string is copied. -/
def resultHeaderBytes (e : Endian) (h : ResultHeader) : Bytes :=
  let errstrLen := h.error.length % 2 ^ 16
  [endianByte e] ++ uintBytes e 4 restyDbdStreamVersion ++ [0]
    ++ uintBytes e 2 h.errorCode.toNat      -- standard error code
    ++ uintBytes e 2 h.errorCode.toNat      -- driver-specific error code
    ++ uintBytes e 2 errstrLen ++ h.error.take errstrLen
    ++ uintBytes e 8 h.affectedRows.toNat ++ uintBytes e 8 h.insertId.toNat
    ++ uintBytes e 2 h.columnCount.toNat

/-! ## Columns -/

/-- `rds_rough_col_type_t`. -/
inductive RoughColType
  | int
  | float
  | str
  | bool
deriving DecidableEq, Repr

/-- The two highest bits of a column type. -/
def RoughColType.bits : RoughColType → ℕ
  | .int => 0
  | .float => 1
  | .str => 2
  | .bool => 3

/-- A constant of `rds_col_type_t`: a number with the rough type in the highest bits. -/
def rdsColType (n : ℕ) (rough : RoughColType) : UInt16 :=
  UInt16.ofNat (n + rough.bits * 2 ^ 14)

/-- `ngx_http_drizzle_std_col_type`: the standard column type of a type code of the server,
the constants `DRIZZLE_COLUMN_TYPE_*`. -/
def stdColType (colType : UInt16) : UInt16 :=
  match colType.toNat with
  | 0 => rdsColType 11 .float     -- DECIMAL: decimal
  | 1 => rdsColType 13 .int       -- TINY: smallint
  | 2 => rdsColType 13 .int       -- SHORT: smallint
  | 3 => rdsColType 9 .int        -- LONG: integer
  | 4 => rdsColType 12 .float     -- FLOAT: real
  | 5 => rdsColType 8 .float      -- DOUBLE: double
  | 6 => rdsColType 0 .str        -- NULL: unknown
  | 7 => rdsColType 17 .str       -- TIMESTAMP: timestamp
  | 8 => rdsColType 1 .int        -- LONGLONG: bigint
  | 9 => rdsColType 9 .int        -- INT24: integer
  | 10 => rdsColType 17 .str      -- DATE: timestamp
  | 11 => rdsColType 15 .str      -- TIME: time
  | 12 => rdsColType 17 .str      -- DATETIME: timestamp
  | 13 => rdsColType 13 .int      -- YEAR: smallint
  | 14 => rdsColType 17 .str      -- NEWDATE: timestamp
  | 15 => rdsColType 6 .str       -- VARCHAR: varchar
  | 16 => rdsColType 2 .str       -- BIT: bit
  | 246 => rdsColType 11 .float   -- NEWDECIMAL: decimal
  | 247 => rdsColType 6 .str      -- ENUM: varchar
  | 248 => rdsColType 6 .str      -- SET: varchar
  | 249 => rdsColType 19 .str     -- TINY_BLOB: blob
  | 250 => rdsColType 19 .str     -- MEDIUM_BLOB: blob
  | 251 => rdsColType 19 .str     -- LONG_BLOB: blob
  | 252 => rdsColType 19 .str     -- BLOB: blob
  | 253 => rdsColType 6 .str      -- VAR_STRING: varchar
  | 254 => rdsColType 6 .str      -- STRING: varchar
  | 255 => rdsColType 6 .str      -- GEOMETRY: varchar
  | _ => rdsColType 0 .str        -- unknown

/-- The bytes written by `ngx_http_drizzle_output_col`. -/
def colBytes (e : Endian) (c : Column) : Bytes :=
  let colNameLen := c.name.length % 2 ^ 16
  uintBytes e 2 (stdColType c.type).toNat ++ uintBytes e 2 c.type.toNat
    ++ uintBytes e 2 colNameLen ++ c.name.take colNameLen

/-! ## Rows -/

/-- The byte written by `ngx_http_drizzle_output_row`: the row flag, or the terminator of
the row list. -/
def rowBytes (row : UInt64) : Bytes := [if row ≠ 0 then 1 else 0]

/-- `ngx_http_drizzle_output_field` has nothing to write yet: the chunk only announces the
length of the field. -/
def FieldRead.announces (f : FieldRead) : Bool :=
  f.offset = 0 && f.len = 0 && f.total ≠ 0

/-- The number of bytes that `ngx_http_drizzle_output_field` requests. -/
def fieldSize (f : FieldRead) : ℕ :=
  (if f.offset = 0 then 4 else 0) + f.len % 2 ^ 32

/-- The bytes written by `ngx_http_drizzle_output_field`: the length of the field in front of
its first chunk, and the data of the chunk. -/
def fieldBytes (e : Endian) (f : FieldRead) : Bytes :=
  let length := match f.field with
    | none => 2 ^ 32 - 1
    | some _ => f.total
  let data := match f.field with
    | none => []
    | some d => d.take (f.len % 2 ^ 32)
  (if f.offset = 0 then uintBytes e 4 length else []) ++ data

/-! ## The stream -/

/-- The bytes that the module emits for a piece of the result. -/
def answerBytes (e : Endian) : Answer → Bytes
  | .header h => resultHeaderBytes e h
  | .column (some c) => colBytes e c
  | .column none => []
  | .row row => rowBytes row
  | .field f => if FieldRead.announces f then [] else fieldBytes e f
  | .rowEnd => []

/-- The bytes that the module emits for a sequence of answers of the library. -/
def stream (e : Endian) (as : List Answer) : Bytes := as.flatMap (answerBytes e)

@[simp] lemma stream_nil (e : Endian) : stream e [] = [] := rfl

@[simp] lemma stream_cons (e : Endian) (a : Answer) (as : List Answer) :
    stream e (a :: as) = answerBytes e a ++ stream e as := rfl

@[simp] lemma stream_append (e : Endian) (as bs : List Answer) :
    stream e (as ++ bs) = stream e as ++ stream e bs := List.flatMap_append

/-- The encoding of a field. -/
def fieldRds (e : Endian) : Option Bytes → Bytes
  | none => uintBytes e 4 (2 ^ 32 - 1)
  | some d => uintBytes e 4 d.length ++ d

/-- The encoding of a row: the row flag and the fields. -/
def rowRds (e : Endian) (fs : List (Option Bytes)) : Bytes := 1 :: fs.flatMap (fieldRds e)

/-- The encoding of a result set: the header and, if there are columns, the columns, the rows
and the terminator of the row list. -/
def rds (e : Endian) (R : ResultSet) : Bytes :=
  resultHeaderBytes e R.header ++
    if R.columns = [] then []
    else R.columns.flatMap (colBytes e) ++ (R.rows.flatMap (rowRds e) ++ [0])

/-! ## Chunks do not show in the stream -/

variable {e : Endian}

/-- Behind the first chunk only data is written. -/
lemma stream_chunkReads {total offset : ℕ} {d : Bytes} {rs : List FieldRead}
    (h : ChunkReads total offset d rs) (hoff : offset ≠ 0) (hlen : d.length < 2 ^ 32) :
    stream e (rs.map Answer.field) = d := by
  induction h with
  | nil => rfl
  | @cons offset chunk rest rs _ ih =>
    have hc : chunk.length < 2 ^ 32 := by simp at hlen; omega
    have hr := ih (by omega) (by simp at hlen; omega)
    have hann : FieldRead.announces ⟨offset, chunk.length, total, some chunk⟩ = false := by
      simp [FieldRead.announces, hoff]
    have htake : chunk.take (chunk.length % 2 ^ 32) = chunk := by
      rw [Nat.mod_eq_of_lt hc, List.take_length]
    simp only [List.map_cons, stream_cons, hr, answerBytes, hann, Bool.false_eq_true, if_false,
      fieldBytes, if_neg hoff, htake, List.nil_append]

/-- The chunks of a field from its beginning: the length is written with the first chunk that
has data. -/
lemma stream_chunkReads_zero {d : Bytes} {rs : List FieldRead} {offset : ℕ}
    (h : ChunkReads d.length offset d rs) (hoff : offset = 0) (hd : d ≠ [])
    (hlen : d.length < 2 ^ 32) : stream e (rs.map Answer.field) = fieldRds e (some d) := by
  generalize htot : d.length = total at h
  induction h with
  | nil => exact absurd rfl hd
  | @cons offset chunk rest rs hrest ih =>
    subst hoff
    rcases eq_or_ne chunk [] with rfl | hchunk
    · -- an empty first chunk only announces the length
      have hpos : total ≠ 0 := by
        rw [← htot]
        simpa using hd
      have hann : FieldRead.announces ⟨0, 0, total, some []⟩ = true := by
        simp [FieldRead.announces, hpos]
      simp only [List.nil_append] at hd hlen htot ⊢
      simpa [answerBytes, hann] using ih (by simp) hd hlen htot
    · subst htot
      have hpos : chunk.length ≠ 0 := by simpa using hchunk
      have hc : chunk.length < 2 ^ 32 := by simp at hlen; omega
      have hann :
          FieldRead.announces ⟨0, chunk.length, (chunk ++ rest).length, some chunk⟩ = false := by
        simp [FieldRead.announces, hchunk]
      have hr : stream e (rs.map Answer.field) = rest :=
        stream_chunkReads hrest (by omega) (by simp at hlen; omega)
      have htake : chunk.take (chunk.length % 2 ^ 32) = chunk := by
        rw [Nat.mod_eq_of_lt hc, List.take_length]
      simp only [List.map_cons, stream_cons, hr, answerBytes, hann, Bool.false_eq_true, if_false,
        fieldBytes, if_true, htake, fieldRds, List.append_assoc]

/-- However a field is cut into chunks, the same bytes are written. -/
theorem stream_fieldReads {f : Option Bytes} {rs : List FieldRead} (h : FieldReads f rs)
    (hlen : ∀ d, f = some d → d.length < 2 ^ 32 - 1) :
    stream e (rs.map Answer.field) = fieldRds e f := by
  cases h with
  | null => simp [answerBytes, FieldRead.announces, fieldBytes, fieldRds]
  | empty => simp [answerBytes, FieldRead.announces, fieldBytes, fieldRds]
  | chunks hd h => exact stream_chunkReads_zero h rfl hd (by have := hlen _ rfl; omega)
  | @announced d rs field hd h =>
    have hann : FieldRead.announces ⟨0, 0, d.length, field⟩ = true := by
      simp [FieldRead.announces, hd]
    have := stream_chunkReads_zero (e := e) h rfl hd (by have := hlen _ rfl; omega)
    simpa [answerBytes, hann] using this

lemma stream_fieldsReads {fs : List (Option Bytes)} {as : List Answer} (h : FieldsReads fs as)
    (hlen : ∀ d, some d ∈ fs → d.length < 2 ^ 32 - 1) :
    stream e as = fs.flatMap (fieldRds e) := by
  induction h with
  | nil => rfl
  | @cons f fs rs as hf _ ih =>
    have h1 := stream_fieldReads (e := e) hf fun d hd => hlen d (by simp [hd])
    have h2 := ih fun d hd => hlen d (by simp [hd])
    simp [h1, h2]

lemma stream_rowsReads {rows : List (List (Option Bytes))} {as : List Answer}
    (h : RowsReads rows as) (hlen : ∀ fs ∈ rows, ∀ d, some d ∈ fs → d.length < 2 ^ 32 - 1) :
    stream e as = rows.flatMap (rowRds e) := by
  induction h with
  | nil => rfl
  | @cons row fs rows as bs hrow hfs _ ih =>
    have h1 := stream_fieldsReads (e := e) hfs (hlen fs (by simp))
    have h2 := ih fun gs hgs => hlen gs (by simp [hgs])
    simp [answerBytes, rowBytes, hrow, h1, h2, rowRds]

/-- Whatever the library reports about a result set, in whatever chunks, the bytes that the
module emits for it are the encoding of the result set. -/
theorem stream_reading {R : ResultSet} {as : List Answer} (h : Reading R as)
    (hR : R.Representable) : stream e as = rds e R := by
  cases h with
  | noColumns hc => simp [rds, hc, answerBytes]
  | columns hc hrows =>
    have hcols : ∀ cs : List Column,
        stream e (cs.map fun c => Answer.column (some c)) = cs.flatMap (colBytes e) := by
      intro cs
      induction cs with
      | nil => rfl
      | cons c cs ih => simp [ih, answerBytes]
    have hr := stream_rowsReads (e := e) hrows hR.field_lt
    simp [rds, hc, answerBytes, hcols, hr, rowBytes]

end Rds
end DrizzleNginx
