/-
# Reading a Resty-DBD-Stream while it arrives

The module hands a stream over in pieces, and only a beginning of it if the request fails
behind the header of the response.  This file has a consumer that does not wait for the end:
from the bytes that have arrived it takes the header, the columns and the rows that are
there, and it notices the end.  On a whole stream it finds what the decoder finds, and on a
beginning of a stream it finds a beginning of the rows.
-/
import DrizzleNginx.Rds.RoundTrip

namespace DrizzleNginx
namespace Rds

open Lib (Decoder)

/-! ## The consumer -/

/-- A stream up to its rows: the byte order, the column count, and what a consumer finds. -/
def head : Decoder UInt8 (Endian × ℕ × Decoded) :=
  endianType.bind fun e =>
  (uint e 4).bind fun version =>
  byte.bind fun resultType =>
  (uint e 2).bind fun std =>
  (uint e 2).bind fun code =>
  (string16 e).bind fun error =>
  (uint e 8).bind fun affected =>
  (uint e 8).bind fun insertId =>
  (uint e 2).bind fun count =>
  ((column e).replicate count).map fun cols => (e, count,
    { version := version
      resultType := resultType
      stdErrorCode := UInt16.ofNat std
      stdColTypes := cols.map Prod.fst
      result :=
        { errorCode := UInt16.ofNat code
          error := error
          affectedRows := UInt64.ofNat affected
          insertId := UInt64.ofNat insertId
          columns := cols.map Prod.snd
          rows := [] } })

/-- The rows behind the columns, up to their end. -/
def rowList (e : Endian) : ℕ → Decoder UInt8 (List (List (Option Bytes)))
  | 0 => Decoder.pure []
  | n + 1 => (row e (n + 1)).whileSome

/-- The rows behind the columns that are there in whole, and whether their end is there. -/
def rowsSofar (e : Endian) : ℕ → Bytes → List (List (Option Bytes)) × Bool
  | 0, _ => ([], true)
  | n + 1, l => (row e (n + 1)).sofar l

/-- What is found in a stream with the given rows. -/
def Decoded.withRows (D : Decoded) (rows : List (List (Option Bytes))) : Decoded :=
  { D with result := { D.result with rows := rows } }

/-- What a consumer finds in the bytes that have arrived, once the header and the columns are
among them, and whether the stream has arrived to its end. -/
def received (l : Bytes) : Option (Decoded × Bool) :=
  (head.run l).map fun p =>
    let q := rowsSofar p.1.1 p.1.2.1 p.2
    (p.1.2.2.withRows q.1, q.2)

variable {e : Endian}

/-! ## On a whole stream -/

lemma body_eq (e : Endian) (n : ℕ) :
    body e n =
      ((column e).replicate n).bind fun cols => (rowList e n).map fun rows => (cols, rows) := by
  cases n with
  | zero => rfl
  | succ n => rfl

lemma decoder_eq : decoder = head.bind fun p => (rowList p.1 p.2.1).map p.2.2.withRows := by
  simp only [decoder, head, body_eq, Decoder.bind_assoc, Decoder.map_bind, Decoder.bind_map,
    Decoder.map_map]
  rfl

/-- The consumer finds the end of a stream where the decoder finds it, and what the decoder finds.
-/
theorem received_eq_iff {l : Bytes} {D : Decoded} :
    received l = some (D, true) ↔ ∃ r, decoder.run l = some (D, r) := by
  have hrows : ∀ (e : Endian) (n : ℕ) (l : Bytes) (rows : List (List (Option Bytes))),
      rowsSofar e n l = (rows, true) ↔ ∃ r, (rowList e n).run l = some (rows, r) := by
    intro e n l rows
    cases n with
    | zero => simp [rowsSofar, rowList, Decoder.pure]
    | succ n => exact (row e (n + 1)).sofar_eq_iff
  rw [received, decoder_eq, Decoder.bind_run]
  rcases head.run l with _ | ⟨⟨e, n, D₀⟩, s⟩
  · simp
  · simp only [Option.map_some, Option.bind_some, Decoder.map_run, Option.some.injEq, Prod.mk.injEq,
      Option.map_eq_some_iff]
    constructor
    · rintro ⟨rfl, hend⟩
      obtain ⟨r, hr⟩ := (hrows e n s _).mp (Prod.ext rfl hend)
      exact ⟨r, _, hr, rfl, rfl⟩
    · rintro ⟨r, ⟨rows, r'⟩, hr, rfl, rfl⟩
      rw [(hrows e n s rows).mpr ⟨r', hr⟩]
      exact ⟨rfl, rfl⟩

/-! ## On a beginning of a stream -/

/-- The result set with its first `k` rows. -/
def firstRows (R : ResultSet) (k : ℕ) : ResultSet := { R with rows := R.rows.take k }

/-- The stream up to the end of row `k`. -/
def upToRow (e : Endian) (R : ResultSet) (k : ℕ) : Bytes :=
  resultHeaderBytes e R.header ++ R.columns.flatMap (colBytes e) ++
    (R.rows.take k).flatMap (rowRds e)

/-- The rows and the terminator, if there are columns. -/
def rowListRds (e : Endian) (R : ResultSet) : Bytes :=
  if R.columns = [] then [] else R.rows.flatMap (rowRds e) ++ [0]

lemma rds_eq (R : ResultSet) : rds e R = upToRow e R 0 ++ rowListRds e R := by
  rw [rds, upToRow, rowListRds]
  by_cases hc : R.columns = []
  · simp [hc]
  · simp [hc]

lemma head_decodes {R : ResultSet} (hR : R.Representable) :
    head.Decodes (upToRow e R 0) (e, R.columns.length, decoded (firstRows R 0)) := by
  have hcount : (R.header.columnCount).toNat = R.columns.length := by
    simpa [ResultSet.header] using Nat.mod_eq_of_lt hR.columns_lt
  have hcols := Decoder.Decodes.replicate (d := column e) (colBytes e)
    (fun c => (stdColType c.type, c)) R.columns fun c hc => column_decodes (hR.name_lt c hc)
  rw [← hcount] at hcols ⊢
  simp only [upToRow, List.take_zero, List.flatMap_nil, List.append_nil, resultHeaderBytes,
    List.append_assoc]
  unfold head
  refine endianType_decodes.bind ?_
  refine (uint_decodes 4 restyDbdStreamVersion (by decide)).bind ?_
  refine (byte_decodes 0).bind ?_
  refine (uint16_decodes R.errorCode).bind ?_
  refine (uint16_decodes R.errorCode).bind ?_
  simp only [← List.append_assoc (uintBytes e 2 (_ % _))]
  refine (string16_decodes hR.error_lt).bind ?_
  refine (uint64_decodes R.affectedRows).bind ?_
  refine (uint64_decodes R.insertId).bind ?_
  refine (uint16_decodes R.header.columnCount).bind ?_
  have h := hcols.map fun cols => (e, R.header.columnCount.toNat,
    ({ version := restyDbdStreamVersion
       resultType := 0
       stdErrorCode := UInt16.ofNat R.errorCode.toNat
       stdColTypes := cols.map Prod.fst
       result :=
        { errorCode := UInt16.ofNat R.errorCode.toNat
          error := R.error
          affectedRows := UInt64.ofNat R.affectedRows.toNat
          insertId := UInt64.ofNat R.insertId.toNat
          columns := cols.map Prod.snd
          rows := [] } } : Decoded))
  simpa only [decoded, firstRows, List.take_zero, UInt16.ofNat_toNat, UInt64.ofNat_toNat,
    List.map_map, Function.comp_def, List.map_id'] using h

/-- The rows of which all bytes have arrived are found, and the end when it has arrived. -/
lemma rowsSofar_of_prefix {R : ResultSet} (hR : R.Representable) {l : Bytes}
    (hl : l <+: rowListRds e R) :
    ∃ k, (rowsSofar e R.columns.length l).1 = R.rows.take k ∧
      ((rowsSofar e R.columns.length l).2 = true ↔ l = rowListRds e R) ∧
      ∀ j ≤ R.rows.length, j ≤ k ↔ ((R.rows.take j).flatMap (rowRds e)).length ≤ l.length := by
  rcases hn : R.columns.length with _ | n
  · have hnil : R.columns = [] := List.length_eq_zero_iff.mp hn
    rw [rowListRds, if_pos hnil] at hl ⊢
    obtain rfl := List.prefix_nil.mp hl
    rw [hR.rows_nil hnil]
    exact ⟨0, rfl, by simp [rowsSofar], fun j hj => by simpa using hj⟩
  · have hne : R.columns ≠ [] := by
      intro h
      simp [h] at hn
    rw [rowListRds, if_neg hne] at hl ⊢
    have h := Decoder.Decodes.sofar (d := row e (n + 1)) (rowRds e) id
      (row_decodes_none (n + 1)) R.rows (fun fs hfs => by
        have h := row_decodes (e := e) (hR.field_lt fs hfs)
        rw [hR.fields_length fs hfs, hn] at h
        exact ⟨h, by simp [rowRds]⟩) hl
    simp only [List.map_id] at h
    exact h

/-- **Reading what has arrived.**  Of the stream of a result set some beginning has arrived.  The
consumer finds nothing as long as the header and the columns have not arrived; then it finds them
and exactly those rows of which all bytes have arrived, and it finds the end when the whole stream
has. -/
theorem received_of_prefix {R : ResultSet} (hR : R.Representable) {l : Bytes} (hl : l <+: rds e R) :
    (received l = none ↔ l.length < (upToRow e R 0).length) ∧
    ∀ D whole, received l = some (D, whole) → (whole = true ↔ l = rds e R) ∧
      ∃ k, D = decoded (firstRows R k) ∧
        ∀ j ≤ R.rows.length, j ≤ k ↔ (upToRow e R j).length ≤ l.length := by
  have hhead := head_decodes (e := e) hR
  rw [rds_eq] at hl ⊢
  by_cases harrived : upToRow e R 0 <+: l
  · obtain ⟨rest, rfl⟩ := harrived
    have hrest := (List.prefix_append_right_inj _).mp hl
    obtain ⟨k, hrows, hend, hk⟩ := rowsSofar_of_prefix hR hrest
    rw [received, hhead.run_append]
    refine ⟨by simp, ?_⟩
    rintro D whole heq
    obtain ⟨rfl, rfl⟩ := Prod.mk.inj (Option.some.inj heq)
    refine ⟨by simpa using hend, k, ?_, fun j hj => ?_⟩
    · dsimp only
      rw [hrows]
      rfl
    · rw [hk j hj]
      simp only [upToRow, List.take_zero, List.flatMap_nil, List.append_nil, List.length_append]
      omega
  · have hcut : l <+: upToRow e R 0 :=
      (List.prefix_or_prefix_of_prefix hl (List.prefix_append _ _)).resolve_right harrived
    obtain ⟨hrun, hlt⟩ := hhead.run_prefix hcut fun heq => harrived (heq ▸ List.prefix_refl _)
    rw [received, hrun]
    exact ⟨by simpa using hlt, fun D whole heq => by simp at heq⟩

end Rds
end DrizzleNginx
