/-
# Reading a Resty-DBD-Stream back

The consumers of the stream are other programs; what they share with the module is only the
description of the format: a header part that ends with the column count, a body part that
is absent when that count is zero, as many columns as the count says, and rows that are
announced by a flag byte and end with a zero byte.  This file has a decoder written after
that description and shows that it reads back, off the front of any input, exactly the
result set that the module encoded.
-/
import DrizzleNginx.Lib.Decoder
import DrizzleNginx.Rds.Format

namespace DrizzleNginx
namespace Rds

open Lib (Decoder)

/-! ## The decoder -/

/-- What a consumer finds in a stream: the version and the codes that the header repeats, the
standard types of the columns, and the result set. -/
structure Decoded where
  version : ℕ
  resultType : UInt8
  stdErrorCode : UInt16
  stdColTypes : List UInt16
  result : ResultSet
deriving DecidableEq, Repr

/-- A single byte. -/
def byte : Decoder UInt8 UInt8 :=
  (Decoder.take 1).filterMap fun
    | [b] => some b
    | _ => none

/-- An integer of `w` bytes. -/
def uint (e : Endian) (w : ℕ) : Decoder UInt8 ℕ := (Decoder.take w).map (uintValue e)

/-- A string behind its 16-bit length. -/
def string16 (e : Endian) : Decoder UInt8 Bytes := (uint e 2).bind Decoder.take

/-- The endian type: 1 means big-endian, and little endian otherwise. -/
def endianType : Decoder UInt8 Endian := byte.map fun b => if b = 1 then .big else .little

/-- A column: its standard type, its driver-specific type and its name. -/
def column (e : Endian) : Decoder UInt8 (UInt16 × Column) :=
  (uint e 2).bind fun std =>
  (uint e 2).bind fun type =>
  (string16 e).map fun name => (UInt16.ofNat std, ⟨UInt16.ofNat type, name⟩)

/-- A field: the length `(uint32_t) -1` represents `NULL`. -/
def field (e : Endian) : Decoder UInt8 (Option Bytes) :=
  (uint e 4).bind fun len =>
    if len = 2 ^ 32 - 1 then Decoder.pure none else (Decoder.take len).map some

/-- The row flag: 1 means valid, and 0 means the row list terminator. -/
def rowFlag : Decoder UInt8 Bool :=
  byte.filterMap fun b => if b = 0 then some false else if b = 1 then some true else none

/-- A row of `n` fields, or the end of the row list. -/
def row (e : Endian) (n : ℕ) : Decoder UInt8 (Option (List (Option Bytes))) :=
  rowFlag.bind fun
    | true => ((field e).replicate n).map some
    | false => Decoder.pure none

/-- The columns and the rows behind a header with the given column count. -/
def body (e : Endian) : ℕ → Decoder UInt8 (List (UInt16 × Column) × List (List (Option Bytes)))
  | 0 => Decoder.pure ([], [])
  | n + 1 =>
    ((column e).replicate (n + 1)).bind fun cols =>
    (row e (n + 1)).whileSome.map fun rows => (cols, rows)

/-- A whole stream. -/
def decoder : Decoder UInt8 Decoded :=
  endianType.bind fun e =>
  (uint e 4).bind fun version =>
  byte.bind fun resultType =>
  (uint e 2).bind fun std =>
  (uint e 2).bind fun code =>
  (string16 e).bind fun error =>
  (uint e 8).bind fun affected =>
  (uint e 8).bind fun insertId =>
  (uint e 2).bind fun count =>
  (body e count).map fun p =>
    { version := version
      resultType := resultType
      stdErrorCode := UInt16.ofNat std
      stdColTypes := p.1.map Prod.fst
      result :=
        { errorCode := UInt16.ofNat code
          error := error
          affectedRows := UInt64.ofNat affected
          insertId := UInt64.ofNat insertId
          columns := p.1.map Prod.snd
          rows := p.2 } }

/-- What a consumer is to find in the stream of a result set. -/
def decoded (R : ResultSet) : Decoded where
  version := restyDbdStreamVersion
  resultType := 0
  stdErrorCode := R.errorCode
  stdColTypes := R.columns.map fun c => stdColType c.type
  result := R

/-! ## The parts of the stream -/

variable {e : Endian}

lemma byte_decodes (b : UInt8) : byte.Decodes [b] b :=
  Decoder.Decodes.filterMap (Decoder.Decodes.take [b]) rfl

lemma uint_decodes (w n : ℕ) (hn : n < 256 ^ w) : (uint e w).Decodes (uintBytes e w n) n := by
  have h := (Decoder.Decodes.take (uintBytes e w n)).map (uintValue e)
  rw [length_uintBytes, uintValue_uintBytes, Nat.mod_eq_of_lt hn] at h
  exact h

lemma string16_decodes {s : Bytes} (hs : s.length < 2 ^ 16) :
    (string16 e).Decodes
      (uintBytes e 2 (s.length % 2 ^ 16) ++ s.take (s.length % 2 ^ 16)) s := by
  rw [Nat.mod_eq_of_lt hs, List.take_length]
  exact (uint_decodes 2 s.length (by simpa using hs)).bind (Decoder.Decodes.take s)

lemma endianType_decodes : endianType.Decodes [endianByte e] e := by
  have h := (byte_decodes (endianByte e)).map (fun b => if b = 1 then Endian.big else .little)
  have he : (if endianByte e = 1 then Endian.big else .little) = e := by cases e <;> rfl
  rwa [he] at h

lemma uint16_decodes (n : UInt16) : (uint e 2).Decodes (uintBytes e 2 n.toNat) n.toNat :=
  uint_decodes 2 _ (by have := n.toNat_lt; simpa using this)

lemma uint64_decodes (n : UInt64) : (uint e 8).Decodes (uintBytes e 8 n.toNat) n.toNat :=
  uint_decodes 8 _ (by have := n.toNat_lt; simpa using this)

lemma column_decodes {c : Column} (hc : c.name.length < 2 ^ 16) :
    (column e).Decodes (colBytes e c) (stdColType c.type, c) := by
  simp only [colBytes, List.append_assoc]
  refine (uint16_decodes (stdColType c.type)).bind ?_
  refine (uint16_decodes c.type).bind ?_
  have h := (string16_decodes (e := e) hc).map fun name =>
    (UInt16.ofNat (stdColType c.type).toNat, (⟨UInt16.ofNat c.type.toNat, name⟩ : Column))
  simpa only [UInt16.ofNat_toNat] using h

lemma field_decodes (f : Option Bytes) (hf : ∀ d, f = some d → d.length < 2 ^ 32 - 1) :
    (field e).Decodes (fieldRds e f) f := by
  cases f with
  | none =>
    rw [fieldRds, ← List.append_nil (uintBytes e 4 _)]
    refine (uint_decodes 4 (2 ^ 32 - 1) (by decide)).bind ?_
    rw [if_pos rfl]
    exact Decoder.Decodes.pure none
  | some d =>
    have hd := hf d rfl
    refine (uint_decodes 4 d.length (by simp; omega)).bind ?_
    rw [if_neg (by omega)]
    exact (Decoder.Decodes.take d).map some

lemma rowFlag_decodes_true : rowFlag.Decodes [1] true :=
  Decoder.Decodes.filterMap (byte_decodes 1) rfl

lemma rowFlag_decodes_false : rowFlag.Decodes [0] false :=
  Decoder.Decodes.filterMap (byte_decodes 0) rfl

lemma row_decodes {fs : List (Option Bytes)}
    (hfs : ∀ d, some d ∈ fs → d.length < 2 ^ 32 - 1) :
    (row e fs.length).Decodes (rowRds e fs) (some fs) := by
  have hfields := Decoder.Decodes.replicate (d := field e) (fieldRds e) id fs
    fun f hf => field_decodes f fun d hd => hfs d (hd ▸ hf)
  rw [List.map_id] at hfields
  unfold row
  exact rowFlag_decodes_true.bind (hfields.map some)

lemma row_decodes_none (n : ℕ) : (row e n).Decodes [0] none := by
  unfold row
  exact rowFlag_decodes_false.bind (show Decoder.Decodes _ [] _ from Decoder.Decodes.pure none)

/-- The body of a result set: nothing when there are no columns. -/
lemma body_decodes {R : ResultSet} (hR : R.Representable) :
    (body e R.columns.length).Decodes
      (if R.columns = [] then []
        else R.columns.flatMap (colBytes e) ++ (R.rows.flatMap (rowRds e) ++ [0]))
      (R.columns.map (fun c => (stdColType c.type, c)), R.rows) := by
  have hcols := Decoder.Decodes.replicate (d := column e) (colBytes e)
    (fun c => (stdColType c.type, c)) R.columns fun c hc => column_decodes (hR.name_lt c hc)
  have hrows := Decoder.Decodes.whileSome (d := row e R.columns.length) (rowRds e) id
    (row_decodes_none R.columns.length) R.rows fun fs hfs => by
      have h := row_decodes (e := e) (hR.field_lt fs hfs)
      rw [hR.fields_length fs hfs] at h
      exact ⟨h, by simp [rowRds]⟩
  rw [List.map_id] at hrows
  rcases hn : R.columns.length with _ | n
  · have hnil : R.columns = [] := List.length_eq_zero_iff.mp hn
    rw [if_pos hnil, hnil, hR.rows_nil hnil]
    exact Decoder.Decodes.pure _
  · have hne : R.columns ≠ [] := by intro h; simp [h] at hn
    rw [hn] at hcols hrows
    rw [if_neg hne]
    unfold body
    exact hcols.bind (hrows.map _)

/-- The decoder reads a result set back from its encoding. -/
theorem decoder_decodes_rds {R : ResultSet} (hR : R.Representable) :
    decoder.Decodes (rds e R) (decoded R) := by
  have hcount : (R.header.columnCount).toNat = R.columns.length := by
    simpa [ResultSet.header] using Nat.mod_eq_of_lt hR.columns_lt
  have hbody := body_decodes (e := e) hR
  rw [← hcount] at hbody
  simp only [rds, resultHeaderBytes, List.append_assoc]
  unfold decoder
  refine endianType_decodes.bind ?_
  refine (uint_decodes 4 restyDbdStreamVersion (by decide)).bind ?_
  refine (byte_decodes 0).bind ?_
  refine (uint16_decodes R.errorCode).bind ?_
  refine (uint16_decodes R.errorCode).bind ?_
  simp only [← List.append_assoc (uintBytes e 2 (_ % _))]
  refine (string16_decodes hR.error_lt).bind ?_
  refine (uint64_decodes R.affectedRows).bind ?_
  refine (uint64_decodes R.insertId).bind ?_
  refine (uint16_decodes R.header.columnCount).bind ?_
  have h := hbody.map fun p =>
    ({ version := restyDbdStreamVersion
       resultType := 0
       stdErrorCode := UInt16.ofNat R.errorCode.toNat
       stdColTypes := p.1.map Prod.fst
       result :=
        { errorCode := UInt16.ofNat R.errorCode.toNat
          error := R.error
          affectedRows := UInt64.ofNat R.affectedRows.toNat
          insertId := UInt64.ofNat R.insertId.toNat
          columns := p.1.map Prod.snd
          rows := p.2 } } : Decoded)
  simpa only [decoded, UInt16.ofNat_toNat, UInt64.ofNat_toNat, List.map_map, Function.comp_def,
    List.map_id'] using h

/-! ## The stream as a whole -/

/-- **Round trip of the stream.**  Let the library report a representable result set, in any
chunks.  The decoder reads the result set off the front of any input that begins with the
emitted bytes, and leaves the rest of the input; the emitted bytes are a proper prefix of no
other stream; cut short anywhere, they are rejected; without columns they are the header
alone. -/
theorem decoder_stream {R : ResultSet} {as : List Answer} (h : Reading R as)
    (hR : R.Representable) :
    (∀ rest, decoder.run (stream e as ++ rest) = some (decoded R, rest)) ∧
    (∀ {e' : Endian} {R' : ResultSet} {as' : List Answer} (more : Bytes), Reading R' as' →
      R'.Representable → stream e' as' = stream e as ++ more → more = [] ∧ R' = R) ∧
    (∀ front back, stream e as = front ++ back → back ≠ [] → decoder.run front = none) ∧
    (R.columns = [] → stream e as = resultHeaderBytes e R.header) := by
  have hdec : decoder.Decodes (stream e as) (decoded R) := by
    rw [stream_reading h hR]
    exact decoder_decodes_rds hR
  refine ⟨hdec.run_append, ?_, ?_, ?_⟩
  · intro e' R' as' more h' hR' heq
    have hdec' : decoder.Decodes (stream e as ++ more) (decoded R') := by
      rw [← heq, stream_reading h' hR']
      exact decoder_decodes_rds hR'
    obtain ⟨hmore, hval⟩ := hdec.eq_of_prefix hdec'
    exact ⟨hmore, (congrArg Decoded.result hval).symm⟩
  · intro front back heq hne
    rw [heq] at hdec
    exact hdec.run_truncated hne
  · intro hc
    rw [stream_reading h hR]
    simp [rds, hc]

/-- A result set with a `NULL`, an empty and a longer field, the longer one in two chunks. -/
theorem decoder_stream_example :
    decoder.run (stream .little
      [.header ⟨0, [], 0, 0, 3⟩, .column (some ⟨253, [97]⟩), .column (some ⟨3, [98]⟩),
        .column (some ⟨3, []⟩), .column none, .row 1, .field ⟨0, 0, 0, none⟩,
        .field ⟨0, 0, 0, some []⟩, .field ⟨0, 0, 2, none⟩, .field ⟨0, 1, 2, some [7]⟩,
        .field ⟨1, 1, 2, some [8]⟩, .rowEnd, .row 0] ++ [42]) =
      some (decoded ⟨0, [], 0, 0, [⟨253, [97]⟩, ⟨3, [98]⟩, ⟨3, []⟩],
        [[none, some [], some [7, 8]]]⟩, [42]) := by
  refine (decoder_stream ?_ ?_).1 [42]
  · have hchunks : ChunkReads 2 0 [7, 8] [⟨0, 1, 2, some [7]⟩, ⟨1, 1, 2, some [8]⟩] :=
      .cons [7] (.cons [8] (.nil 2))
    have hfields := FieldsReads.cons .null (FieldsReads.cons .empty (FieldsReads.cons
      (.announced none (d := [7, 8]) (by decide) hchunks) .nil))
    have hrows : RowsReads [[none, some [], some [7, 8]]] [.row 1, .field ⟨0, 0, 0, none⟩,
        .field ⟨0, 0, 0, some []⟩, .field ⟨0, 0, 2, none⟩, .field ⟨0, 1, 2, some [7]⟩,
        .field ⟨1, 1, 2, some [8]⟩, .rowEnd] := .cons (by decide) hfields .nil
    exact Reading.columns (R := ⟨0, [], 0, 0, [⟨253, [97]⟩, ⟨3, [98]⟩, ⟨3, []⟩],
      [[none, some [], some [7, 8]]]⟩) (by decide) hrows
  · refine ⟨by decide, by decide, by decide, by decide, ?_, by decide⟩
    intro fs hfs d hd
    simp only [List.mem_singleton] at hfs
    subst hfs
    simp only [List.mem_cons, reduceCtorEq, Option.some.injEq, List.not_mem_nil, or_false,
      false_or] at hd
    rcases hd with rfl | rfl <;> decide

end Rds
end DrizzleNginx
