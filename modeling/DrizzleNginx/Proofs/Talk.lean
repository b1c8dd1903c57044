/-
# Conversations with the client library

What may be said on a database connection, independently of the module: the protocol by which
a request uses libdrizzle, as an automaton that reads the calls and their answers.  A call
that the protocol does not allow, such as a row that is asked for before the last column has
been read, or a pending query that is continued with another text, has no next state.

The answers that an allowed conversation collects have the form of a result set up to the
point that has been reached, and if the library reports a result set, they are a beginning of
its report.
-/
import DrizzleNginx.Model.Libdrizzle

namespace DrizzleNginx

/-- The state of the conversation of one request on a connection. -/
inductive Talk
  /-- No query is in flight. -/
  | idle
  /-- A query is in flight: the `set names` query, or the SQL of the request. -/
  | sent (setNames : Bool) (sql : Bytes)
  | columns
  | rows
  | fields
  /-- The whole result has been read. -/
  | finished
  /-- The table does not exist, and the server has said so. -/
  | gone
  /-- A call has failed. -/
  | broken
deriving DecidableEq

namespace Talk

/-- The state behind an answer to `drizzle_query`. -/
def queried (setNames : Bool) (sql : Bytes) : QueryRet → Talk
  | .ioWait => sent setNames sql
  | .ok h =>
    if setNames then if h.errorCode ≠ 0 then broken else idle
    else if h.columnCount = 0 then finished else columns
  | .fail err =>
    if err = .errorCode LibCall.noSuchTable then if setNames then idle else gone else broken

/-- The state behind a call, if the call is allowed. -/
def next : Talk → LibCall → Option Talk
  | idle, .query _ setNames sql ret => some (queried setNames sql ret)
  | sent setNames sql, .query _ setNames' sql' ret =>
    if setNames' = setNames ∧ sql' = sql then some (queried setNames sql ret) else none
  | columns, .columnRead _ ret =>
    match ret with
    | .ioWait => some columns
    | .ok (some _) => some columns
    | .ok none => some rows
    | .fail _ => some broken
  | rows, .rowRead _ ret =>
    match ret with
    | .ioWait => some rows
    | .ok row => some (if row = 0 then finished else fields)
    | .fail _ => some broken
  | fields, .fieldRead _ ret =>
    match ret with
    | .ioWait => some fields
    | .ok _ => some fields
    | .rowEnd => some rows
    | .fail _ => some broken
  | _, _ => none

/-- The state behind a history of calls, the newest call first, if all calls are allowed. -/
def after : List LibCall → Option Talk
  | [] => some idle
  | call :: calls => (after calls).bind fun t => t.next call

/-- Nothing of the server's reply to the last command is left to be read. -/
def ended (t : Talk) : Bool := t = finished || t = gone

@[simp] lemma after_nil : after [] = some idle := rfl

@[simp] lemma after_cons (call : LibCall) (calls : List LibCall) :
    after (call :: calls) = (after calls).bind fun t => t.next call := rfl

variable {t t' : Talk} {call : LibCall}

/-- The calls that are allowed. -/
inductive Next : Talk → LibCall → Talk → Prop
  | query {t : Talk} {setNames : Bool} {sql : Bytes} (ht : t = idle ∨ t = sent setNames sql)
      (i : ℕ) (ret : QueryRet) : Next t (.query i setNames sql ret) (queried setNames sql ret)
  | columnWait (i : ℕ) : Next columns (.columnRead i .ioWait) columns
  | columnFail (i : ℕ) (err : DrizzleError) : Next columns (.columnRead i (.fail err)) broken
  | column (i : ℕ) (col : Column) : Next columns (.columnRead i (.ok (some col))) columns
  | lastColumn (i : ℕ) : Next columns (.columnRead i (.ok none)) rows
  | rowWait (i : ℕ) : Next rows (.rowRead i .ioWait) rows
  | rowFail (i : ℕ) (err : DrizzleError) : Next rows (.rowRead i (.fail err)) broken
  | row (i : ℕ) {row : UInt64} (hrow : row ≠ 0) : Next rows (.rowRead i (.ok row)) fields
  | lastRow (i : ℕ) : Next rows (.rowRead i (.ok 0)) finished
  | fieldWait (i : ℕ) : Next fields (.fieldRead i .ioWait) fields
  | fieldFail (i : ℕ) (err : DrizzleError) : Next fields (.fieldRead i (.fail err)) broken
  | field (i : ℕ) (chunk : FieldRead) : Next fields (.fieldRead i (.ok chunk)) fields
  | rowEnd (i : ℕ) : Next fields (.fieldRead i .rowEnd) rows

lemma next_cases (h : t.next call = some t') : Next t call t' := by
  unfold next at h
  split at h
  · next i setNames sql ret =>
    obtain rfl := Option.some.inj h
    exact .query (.inl rfl) i ret
  · next setNames sql i setNames' sql' ret =>
    split at h
    · next heq =>
      obtain ⟨rfl, rfl⟩ := heq
      obtain rfl := Option.some.inj h
      exact .query (.inr rfl) i ret
    · cases h
  · next i ret =>
    split at h <;> obtain rfl := Option.some.inj h
    · exact .columnWait i
    · exact .column i _
    · exact .lastColumn i
    · exact .columnFail i _
  · next i ret =>
    split at h <;> obtain rfl := Option.some.inj h
    · exact .rowWait i
    · split
      · next hrow => exact hrow ▸ .lastRow i
      · next hrow => exact .row i hrow
    · exact .rowFail i _
  · next i ret =>
    split at h <;> obtain rfl := Option.some.inj h
    · exact .fieldWait i
    · exact .field i _
    · exact .rowEnd i
    · exact .fieldFail i _
  · cases h

/-- The last call of a conversation that has ended consumed the end of the reply. -/
lemma Next.endsReply (h : Next t call t') (ht : t'.ended) : call.endsReply := by
  cases h with
  | @query _ setNames sql _ i ret =>
    cases ret with
    | ioWait => simp [queried, ended] at ht
    | ok h =>
      simp only [queried] at ht
      split at ht
      · split at ht <;> simp [ended] at ht
      · split at ht
        · next hcount => simpa [LibCall.endsReply] using hcount
        · simp [ended] at ht
    | fail err =>
      simp only [queried] at ht
      split at ht
      · next herr =>
        subst herr
        simp [LibCall.endsReply]
      · simp [ended] at ht
  | lastRow i => simp [LibCall.endsReply]
  | _ => simp [ended] at ht

end Talk

/-! ## Answers -/

/-- The answers that calls have collected, the oldest one first. -/
def answers (calls : List LibCall) : List Answer := calls.reverse.filterMap LibCall.answer

@[simp] lemma answers_nil : answers [] = [] := rfl

@[simp] lemma answers_cons (call : LibCall) (calls : List LibCall) :
    answers (call :: calls) = answers calls ++ call.answer.toList := by
  cases h : call.answer <;> simp [answers, h]

lemma answers_append (new calls : List LibCall) :
    answers (new ++ calls) = answers calls ++ answers new := by
  simp [answers]

/-- The answers of a row that has been read: its number, its chunks and its end. -/
def rowAnswers (row : UInt64 × List FieldRead) : List Answer :=
  .row row.1 :: row.2.map .field ++ [.rowEnd]

/-- The answers that make up a complete result: a header without columns, or a header with
columns, columns and their end, rows, and the end of the rows. -/
inductive Complete : List Answer → Prop
  | noColumns {h : ResultHeader} (hcount : h.columnCount = 0) : Complete [.header h]
  | columns {h : ResultHeader} (hcount : h.columnCount ≠ 0) (cols : List Column)
      (rows : List (UInt64 × List FieldRead)) (hrows : ∀ row ∈ rows, row.1 ≠ 0) :
      Complete (.header h :: cols.map (fun c => .column (some c)) ++ .column none ::
        rows.flatMap rowAnswers ++ [.row 0])

namespace Talk

/-- The form of the answers that have been collected when a state is reached. -/
def Shape (t : Talk) (as : List Answer) : Prop :=
  match t with
  | idle => as = []
  | sent _ _ => as = []
  | gone => as = []
  | columns => ∃ h : ResultHeader, h.columnCount ≠ 0 ∧ ∃ cols : List Column,
      as = .header h :: cols.map (fun c => .column (some c))
  | rows => ∃ h : ResultHeader, h.columnCount ≠ 0 ∧ ∃ cols : List Column,
      ∃ rows : List (UInt64 × List FieldRead), (∀ row ∈ rows, row.1 ≠ 0) ∧
        as = .header h :: cols.map (fun c => .column (some c)) ++ .column none ::
          rows.flatMap rowAnswers
  | fields => ∃ h : ResultHeader, h.columnCount ≠ 0 ∧ ∃ cols : List Column,
      ∃ rows : List (UInt64 × List FieldRead), (∀ row ∈ rows, row.1 ≠ 0) ∧
        ∃ row : UInt64, row ≠ 0 ∧ ∃ chunks : List FieldRead,
          as = .header h :: cols.map (fun c => .column (some c)) ++ .column none ::
            rows.flatMap rowAnswers ++ .row row :: chunks.map .field
  | finished => Complete as
  | broken => True

variable {t t' : Talk} {call : LibCall} {calls : List LibCall} {as : List Answer}

lemma Shape.queried {setNames : Bool} {sql : Bytes} (hs : as = []) (i : ℕ) (ret : QueryRet) :
    (queried setNames sql ret).Shape (as ++ (LibCall.query i setNames sql ret).answer.toList) := by
  subst hs
  cases ret with
  | ioWait => cases setNames <;> rfl
  | fail err =>
    simp only [Talk.queried]
    split
    · cases setNames <;> rfl
    · trivial
  | ok h =>
    cases setNames with
    | true =>
      simp only [Talk.queried, if_true]
      split
      · trivial
      · rfl
    | false =>
      simp only [Talk.queried, Bool.false_eq_true, if_false]
      split
      · next hcount => exact .noColumns hcount
      · next hcount => exact ⟨h, hcount, [], rfl⟩

/-- An allowed call keeps the form. -/
lemma Shape.next (hs : t.Shape as) (h : Next t call t') :
    t'.Shape (as ++ call.answer.toList) := by
  cases h with
  | query ht i ret =>
    refine .queried ?_ i ret
    rcases ht with rfl | rfl <;> exact hs
  | columnWait i => simpa [LibCall.answer] using hs
  | column i col =>
    obtain ⟨h, hcount, cols, rfl⟩ := hs
    exact ⟨h, hcount, cols ++ [col], by simp [LibCall.answer]⟩
  | lastColumn i =>
    obtain ⟨h, hcount, cols, rfl⟩ := hs
    exact ⟨h, hcount, cols, [], by simp, by simp [LibCall.answer]⟩
  | rowWait i => simpa [LibCall.answer] using hs
  | row i hrow =>
    obtain ⟨h, hcount, cols, rows, hrows, rfl⟩ := hs
    exact ⟨h, hcount, cols, rows, hrows, _, hrow, [], by simp [LibCall.answer]⟩
  | lastRow i =>
    obtain ⟨h, hcount, cols, rows, hrows, rfl⟩ := hs
    exact .columns hcount cols rows hrows
  | fieldWait i => simpa [LibCall.answer] using hs
  | field i chunk =>
    obtain ⟨h, hcount, cols, rows, hrows, row, hrow, chunks, rfl⟩ := hs
    exact ⟨h, hcount, cols, rows, hrows, row, hrow, chunks ++ [chunk], by simp [LibCall.answer]⟩
  | rowEnd i =>
    obtain ⟨h, hcount, cols, rows, hrows, row, hrow, chunks, rfl⟩ := hs
    refine ⟨h, hcount, cols, rows ++ [(row, chunks)], ?_, by simp [LibCall.answer, rowAnswers]⟩
    simp only [List.mem_append, List.mem_singleton]
    rintro _ (hr | rfl)
    · exact hrows _ hr
    · exact hrow
  | _ => trivial

/-- The answers of an allowed conversation have the form of a result up to the state that has
been reached. -/
theorem shape_after (h : after calls = some t) : t.Shape (answers calls) := by
  induction calls generalizing t with
  | nil =>
    obtain rfl : idle = t := by simpa using h
    rfl
  | cons call calls ih =>
    obtain ⟨t₀, h₀, hnext⟩ : ∃ t₀, after calls = some t₀ ∧ t₀.next call = some t := by
      simpa [Option.bind_eq_some_iff] using h
    rw [answers_cons]
    exact (ih h₀).next (next_cases hnext)

end Talk

/-! ## The library reports a result set -/

/-- The call asks for a piece of this kind. -/
def LibCall.asks : LibCall → Answer → Bool
  | query _ false _ _, .header _ => true
  | columnRead .., .column _ => true
  | rowRead .., .row _ => true
  | fieldRead .., .field _ => true
  | fieldRead .., .rowEnd => true
  | _, _ => false

/-- The library reports a sequence of answers: a call that asks for the next one waits, or
fails, or gets it.  Nothing is known about a call that asks for anything else. -/
def Reports (as : List Answer) : List LibCall → Prop
  | [] => True
  | call :: calls => Reports as calls ∧
    ∀ a, as[(answers calls).length]? = some a → call.asks a →
      call.answer = none ∨ call.answer = some a

lemma FieldsReads.exists_chunks {fs : List (Option Bytes)} {as : List Answer}
    (h : FieldsReads fs as) : ∃ chunks : List FieldRead, as = chunks.map .field := by
  induction h with
  | nil => exact ⟨[], rfl⟩
  | @cons f fs rs as _ _ ih =>
    obtain ⟨chunks, rfl⟩ := ih
    exact ⟨rs ++ chunks, by simp⟩

namespace Talk

/-- What is left of the report of a result set when a state is reached. -/
def Left (R : ResultSet) (t : Talk) (rest : List Answer) : Prop :=
  match t with
  | columns => ∃ (cols : List Column) (rows : List (List (Option Bytes))) (as : List Answer),
      RowsReads rows as ∧
        rest = cols.map (fun c => .column (some c)) ++ .column none :: (as ++ [.row 0])
  | rows => ∃ (rows : List (List (Option Bytes))) (as : List Answer),
      RowsReads rows as ∧ rest = as ++ [.row 0]
  | fields => ∃ (chunks : List FieldRead) (rows : List (List (Option Bytes))) (as : List Answer),
      RowsReads rows as ∧ rest = chunks.map .field ++ .rowEnd :: (as ++ [.row 0])
  | finished => rest = []
  | broken => True
  | _ => Reading R rest

variable {R : ResultSet} {rest : List Answer}

lemma Left.queried {setNames : Bool} {sql : Bytes} {i : ℕ} {ret : QueryRet}
    (hR : R.Representable) (hl : Reading R rest)
    (hrep : ∀ a, rest.head? = some a → (LibCall.query i setNames sql ret).asks a →
      (LibCall.query i setNames sql ret).answer = none ∨
        (LibCall.query i setNames sql ret).answer = some a) :
    ∃ rest', rest = (LibCall.query i setNames sql ret).answer.toList ++ rest' ∧
      (queried setNames sql ret).Left R rest' := by
  cases ret with
  | ioWait => exact ⟨rest, by cases setNames <;> rfl, hl⟩
  | fail err =>
    refine ⟨rest, by cases setNames <;> rfl, ?_⟩
    simp only [Talk.queried]
    split
    · cases setNames <;> exact hl
    · trivial
  | ok h =>
    cases setNames with
    | true =>
      refine ⟨rest, rfl, ?_⟩
      simp only [Talk.queried, if_true]
      split
      · trivial
      · exact hl
    | false =>
      simp only [Talk.queried, Bool.false_eq_true, if_false]
      have hcount : R.header.columnCount = 0 ↔ R.columns = [] := by
        have := Nat.mod_eq_of_lt hR.columns_lt
        simp only [ResultSet.header, ← UInt16.toNat_inj, UInt16.toNat_ofNat', UInt16.toNat_zero]
        rw [this, List.length_eq_zero_iff]
      cases hl with
      | noColumns hc =>
        obtain rfl : h = R.header := by simpa [LibCall.answer] using hrep _ rfl rfl
        exact ⟨[], rfl, by rw [if_pos (hcount.mpr hc)]; rfl⟩
      | @columns hc as hrows =>
        obtain rfl : h = R.header := by simpa [LibCall.answer] using hrep _ rfl rfl
        refine ⟨_, rfl, ?_⟩
        rw [if_neg fun h => hc (hcount.mp h)]
        exact ⟨R.columns, R.rows, as, hrows, by simp⟩

/-- An allowed call asks for the next piece, and so the library delivers nothing else. -/
lemma Left.next (hR : R.Representable) (hl : t.Left R rest) (h : Next t call t')
    (hrep : ∀ a, rest.head? = some a → call.asks a →
      call.answer = none ∨ call.answer = some a) :
    ∃ rest', rest = call.answer.toList ++ rest' ∧ t'.Left R rest' := by
  cases h with
  | query ht i ret =>
    refine Left.queried hR ?_ hrep
    rcases ht with rfl | rfl <;> exact hl
  | columnWait i => exact ⟨rest, rfl, hl⟩
  | columnFail i err => exact ⟨rest, rfl, trivial⟩
  | column i col =>
    obtain ⟨cols, rows, as, hrows, rfl⟩ := hl
    cases cols with
    | nil => simpa [LibCall.answer] using hrep _ rfl rfl
    | cons c cols =>
      obtain rfl : col = c := by simpa [LibCall.answer] using hrep _ rfl rfl
      exact ⟨_, rfl, cols, rows, as, hrows, rfl⟩
  | lastColumn i =>
    obtain ⟨cols, rows, as, hrows, rfl⟩ := hl
    cases cols with
    | nil => exact ⟨_, rfl, rows, as, hrows, rfl⟩
    | cons c cols => simpa [LibCall.answer] using hrep _ rfl rfl
  | rowWait i => exact ⟨rest, rfl, hl⟩
  | rowFail i err => exact ⟨rest, rfl, trivial⟩
  | @row i row hrow =>
    obtain ⟨rows, as, hrows, rfl⟩ := hl
    cases hrows with
    | nil =>
      exact absurd (by simpa [LibCall.answer] using hrep _ rfl rfl) hrow
    | @cons row' fs rows as bs hrow' hfs hrows =>
      obtain rfl : row = row' := by simpa [LibCall.answer] using hrep _ rfl rfl
      obtain ⟨chunks, rfl⟩ := hfs.exists_chunks
      exact ⟨_, rfl, chunks, rows, bs, hrows, by simp⟩
  | lastRow i =>
    obtain ⟨rows, as, hrows, rfl⟩ := hl
    cases hrows with
    | nil => exact ⟨[], rfl, rfl⟩
    | @cons row' fs rows as bs hrow' hfs hrows =>
      exact absurd (by simpa [LibCall.answer, eq_comm] using hrep _ rfl rfl) hrow'
  | fieldWait i => exact ⟨rest, rfl, hl⟩
  | fieldFail i err => exact ⟨rest, rfl, trivial⟩
  | field i chunk =>
    obtain ⟨chunks, rows, as, hrows, rfl⟩ := hl
    cases chunks with
    | nil => simpa [LibCall.answer] using hrep _ rfl rfl
    | cons c chunks =>
      obtain rfl : chunk = c := by simpa [LibCall.answer] using hrep _ rfl rfl
      exact ⟨_, rfl, chunks, rows, as, hrows, rfl⟩
  | rowEnd i =>
    obtain ⟨chunks, rows, as, hrows, rfl⟩ := hl
    cases chunks with
    | nil => exact ⟨_, rfl, rows, as, hrows, rfl⟩
    | cons c chunks => simpa [LibCall.answer] using hrep _ rfl rfl

/-- If the library reports a result set, then an allowed conversation collects a beginning of
the report, and what is left fits the state that has been reached. -/
theorem left_after {as : List Answer} (hR : R.Representable) (has : Reading R as)
    (hrep : Reports as calls) (h : after calls = some t) :
    ∃ rest, as = answers calls ++ rest ∧ t.Left R rest := by
  induction calls generalizing t with
  | nil =>
    obtain rfl : idle = t := by simpa using h
    exact ⟨as, rfl, has⟩
  | cons call calls ih =>
    obtain ⟨t₀, h₀, hnext⟩ : ∃ t₀, after calls = some t₀ ∧ t₀.next call = some t := by
      simpa [Option.bind_eq_some_iff] using h
    obtain ⟨rest, heq, hl⟩ := ih hrep.1 h₀
    have hhead : as[(answers calls).length]? = rest.head? := by
      rw [heq, List.getElem?_append_right (Nat.le_refl _), Nat.sub_self, List.head?_eq_getElem?]
    obtain ⟨rest', rfl, hl'⟩ := hl.next hR (next_cases hnext) fun a ha hasks =>
      hrep.2 a (hhead.trans ha) hasks
    exact ⟨rest', by simpa using heq, hl'⟩

/-- When the conversation has finished, it has collected the whole report. -/
lemma answers_of_finished {as : List Answer} (hR : R.Representable) (has : Reading R as)
    (hrep : Reports as calls) (h : after calls = some finished) : answers calls = as := by
  obtain ⟨rest, heq, hl⟩ := left_after hR has hrep h
  obtain rfl : rest = [] := hl
  simpa using heq.symm

end Talk
end DrizzleNginx
