/-
# What the client reads

The response is read while it arrives, and it may end before the result does: when the request
fails behind the header of the response, nginx still closes the response as if it were complete.
So a client has to look at the stream.  At every moment, what it finds there is a beginning of the
result that the database has, and it finds the end of the stream only if the module has read the
whole result.
-/
import DrizzleNginx.Proofs.Delivery
import DrizzleNginx.Rds.Arriving

namespace DrizzleNginx

/-- The last piece of a result set has bytes in the stream. -/
lemma Reading.getLast? {R : ResultSet} {as : List Answer} (h : Reading R as) :
    as.getLast? = some (.header R.header) ∨ as.getLast? = some (.row 0) := by
  cases h with
  | noColumns hc => exact .inl rfl
  | columns hc hrows => exact .inr List.getLast?_concat

/-- What is left of the report of a result set shows in the stream. -/
lemma Reading.stream_left {e : Rds.Endian} {R : ResultSet} {front rest : List Answer}
    (h : Reading R (front ++ rest)) (hempty : Rds.stream e rest = []) : rest = [] := by
  rcases List.eq_nil_or_concat rest with rfl | ⟨init, last, rfl⟩
  · rfl
  · rw [List.concat_eq_append] at h hempty
    have hlast : Rds.answerBytes e last = [] := by
      rw [Rds.stream_append, List.append_eq_nil_iff] at hempty
      simpa using hempty.2
    have hget := h.getLast?
    rw [← List.append_assoc, List.getLast?_concat] at hget
    rcases hget with hget | hget
    · obtain rfl := Option.some.inj hget
      simp [Rds.answerBytes, Rds.resultHeaderBytes] at hlast
    · obtain rfl := Option.some.inj hget
      simp [Rds.answerBytes, Rds.rowBytes] at hlast

namespace Sys

/-- **The client's view.**  Let the library report the result set `R`.  In all states of all runs,
whatever fails, the client that reads the bytes handed to the output filter finds nothing until the
header and the columns are among them.  Then it finds these and the first rows of `R`, each as soon
as all its bytes have been handed over.  If it finds the end of the stream, then the whole result
has been read; and it does after a final flush that succeeds.  If the response has been completed
and it does not find the end, then the final flush or the request has failed. -/
theorem client_reads (conf : Conf) (ls : List Label) : ∀ r ∈ (run conf ls).reqs,
    ∀ (R : ResultSet) (as : List Answer), R.Representable → Reading R as → Reports as r.calls →
      (Rds.received r.out.handed = none ↔
        r.out.handed.length < (Rds.upToRow conf.endian R 0).length) ∧
      ∀ D whole, Rds.received r.out.handed = some (D, whole) →
        (∃ k, D = Rds.decoded (Rds.firstRows R k) ∧ ∀ j ≤ R.rows.length,
          j ≤ k ↔ (Rds.upToRow conf.endian R j).length ≤ r.out.handed.length) ∧
        (whole = true → answers r.calls = as ∧ D = Rds.decoded R) ∧
        (.done .done .ok ∈ r.hist → whole = true) ∧
        (.sendSpecial ∈ r.hist → whole = false →
          (∃ flush, flush ≠ .ok ∧ .done .done flush ∈ r.hist) ∨
            r.out.headerSent ∧ ∃ rc, rc.failed ∧ .finalize rc ∈ r.hist) := by
  intro r hr R as hR has hrep
  obtain ⟨⟨p, hdel⟩, hclose⟩ := delivery_run conf ls r hr
  obtain ⟨i, hi⟩ := List.mem_iff_getElem?.mp hr
  obtain ⟨t, hs⟩ := (recorded_run conf ls).session.req i r hi
  obtain ⟨rest, rfl, _⟩ := Talk.left_after hR has hrep hs.talk
  have hstream : r.answered conf.endian ++ Rds.stream conf.endian rest = Rds.rds conf.endian R := by
    rw [Req.answered, ← Rds.stream_append, Rds.stream_reading has hR]
  have hhanded : r.out.handed <+: Rds.rds conf.endian R :=
    hdel.handed.trans (hstream ▸ List.prefix_append _ _)
  obtain ⟨hnone, hsome⟩ := Rds.received_of_prefix hR hhanded
  refine ⟨hnone, fun D whole hD => ?_⟩
  obtain ⟨hwhole, hrows⟩ := hsome D whole hD
  have hdone : .done .done .ok ∈ r.hist → whole = true := by
    intro hmem
    obtain ⟨htalk, hall⟩ := hdel.ended .ok (List.mem_filterMap.mpr ⟨_, hmem, rfl⟩)
    have hanswers := Talk.answers_of_finished hR has hrep htalk
    rw [hwhole, hall rfl, Req.answered, hanswers, Rds.stream_reading has hR]
  refine ⟨hrows, fun htrue => ?_, hdone, fun hspecial hfalse => ?_⟩
  · have hend := hwhole.mp htrue
    have hnil : Rds.stream conf.endian rest = [] := by
      have hpre := hdel.handed.length_le
      rw [hend, ← hstream, List.length_append] at hpre
      exact List.length_eq_zero_iff.mp (by omega)
    obtain rfl := has.stream_left hnil
    refine ⟨(List.append_nil _).symm, ?_⟩
    obtain ⟨_, hrun⟩ := Rds.received_eq_iff.mp (htrue ▸ hD)
    rw [hend, Rds.decoder_decodes_rds hR] at hrun
    exact (Prod.mk.inj (Option.some.inj hrun)).1.symm
  · refine (hclose.closed hspecial).imp_left ?_
    rintro ⟨flush, hmem⟩
    obtain ⟨ev, hev, heq⟩ := List.mem_filterMap.mp hmem
    cases ev with
    | done rc flush' =>
      obtain ⟨rfl, rfl⟩ := Prod.mk.inj (Option.some.inj heq)
      refine ⟨flush', ?_, hev⟩
      rintro rfl
      cases hfalse.symm.trans (hdone hev)
    | _ => cases heq

/-- A result with two rows. -/
def twoRows : ResultSet := ⟨0, [], 0, 0, [⟨3, [97]⟩], [[some [1, 2]], [none]]⟩

/-- The connection breaks behind the first row, when this row has been handed over. -/
def rowLost : List Label := sampleArrival (.small [7] 1048575) ++
  [.run { query := .ok (.sample 1) }, .run { column := .ok (some ⟨3, [97]⟩) },
    .run { column := .ok none }, .run { row := .ok 1 },
    .run { field := .ok ⟨0, 2, 2, some [1, 2]⟩ }, .run { field := .rowEnd }, .run {}, .run {},
    .run {}, .event 0 (.db false false false), .run {}, .run {}, .run { row := .fail (.other 1) },
    .run {}, .run {}, .run {}]

set_option maxRecDepth 8000 in
theorem client_reads_rowLost : ∃ r ∈ (run (.sample (.sample [1] []) []) rowLost).reqs,
    Rds.received r.out.handed = some (Rds.decoded (Rds.firstRows twoRows 1), false) ∧
      .sendSpecial ∈ r.hist ∧
      ((∃ flush, flush ≠ .ok ∧ .done .done flush ∈ r.hist) ∨
        r.out.headerSent ∧ ∃ rc, rc.failed ∧ .finalize rc ∈ r.hist) := by
  have hmem := List.get_mem (run (.sample (.sample [1] []) []) rowLost).reqs ⟨0, by decide⟩
  have hview := (client_reads (.sample (.sample [1] []) []) rowLost _ hmem twoRows
    [.header (.sample 1), .column (some ⟨3, [97]⟩), .column none, .row 1,
      .field ⟨0, 2, 2, some [1, 2]⟩, .rowEnd, .row 2, .field ⟨0, 0, 0, none⟩, .rowEnd, .row 0]
    ?_ ?_ ?_).2 (Rds.decoded (Rds.firstRows twoRows 1)) false (by decide)
  · exact ⟨_, hmem, by decide, by decide, hview.2.2.2 (by decide) rfl⟩
  · exact ⟨by decide, by decide, by decide, by decide, by simp [twoRows], by simp [twoRows]⟩
  · have hfields : FieldsReads [some [1, 2]] [.field ⟨0, 2, 2, some [1, 2]⟩] :=
      .cons (.chunks (by decide) (.cons [1, 2] (.nil 2))) .nil
    have hnull : FieldsReads [none] [.field ⟨0, 0, 0, none⟩] := .cons .null .nil
    have hrows : RowsReads [[some [1, 2]], [none]] [.row 1, .field ⟨0, 2, 2, some [1, 2]⟩, .rowEnd,
        .row 2, .field ⟨0, 0, 0, none⟩, .rowEnd] :=
      .cons (by decide) hfields (.cons (by decide) hnull .nil)
    exact Reading.columns (R := twoRows) (by decide) hrows
  · have hcalls : ((run (.sample (.sample [1] []) []) rowLost).reqs.get ⟨0, by decide⟩).calls =
        [.rowRead 0 (.fail (.other 1)), .rowRead 0 .ioWait, .fieldRead 0 .rowEnd,
          .fieldRead 0 (.ok ⟨0, 2, 2, some [1, 2]⟩), .rowRead 0 (.ok 1), .columnRead 0 (.ok none),
          .columnRead 0 (.ok (some ⟨3, [97]⟩)), .query 0 false [7] (.ok (.sample 1))] := by decide
    rw [hcalls]
    simp [Reports, answers, LibCall.answer]

end Sys
end DrizzleNginx
