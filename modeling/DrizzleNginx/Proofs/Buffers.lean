/-
# The buffers of a request

A sequence of calls of the functions of the output side moves buffers between the places where they
can be: the one that is being filled, the queue, and the busy and the free chain.  No buffer is ever
in two places, the counters that the functions keep are right, and each buffer that is handed to the
output filter holds whole pieces of the stream.
-/
import DrizzleNginx.Lib.Pieces
import DrizzleNginx.Proofs.Pending

namespace DrizzleNginx

open Lib (Pieces)

/-! ## Places -/

variable {bs : List Buf} {b : Buf}

/-- How often a buffer is in a chain. -/
def chainCount (i : ℕ) (bs : List Buf) : ℕ := (bs.map Buf.id).count i

@[simp] lemma chainCount_nil (i : ℕ) : chainCount i [] = 0 := rfl

@[simp] lemma chainCount_append (i : ℕ) (bs bs' : List Buf) :
    chainCount i (bs ++ bs') = chainCount i bs + chainCount i bs' := by
  simp [chainCount]

@[simp] lemma chainCount_cons (i : ℕ) (b : Buf) (bs : List Buf) :
    chainCount i (b :: bs) = chainCount i bs + if b.id = i then 1 else 0 := by
  simp [chainCount, List.count_cons]

lemma consume_ids (n : ℕ) (bs : List Buf) : (consume n bs).map Buf.id = bs.map Buf.id := by
  induction bs generalizing n with
  | nil => rfl
  | cons b bs ih => simp [consume, ih]

lemma chainCount_consume (i n : ℕ) (bs : List Buf) :
    chainCount i (consume n bs) = chainCount i bs := by
  rw [chainCount, consume_ids, chainCount]

/-- A buffer that leaves the busy chain goes to the free one. -/
lemma chainCount_updateChains (i : ℕ) (free busy : List Buf) :
    chainCount i (updateChains free busy).1 + chainCount i (updateChains free busy).2 =
      chainCount i free + chainCount i busy := by
  induction busy generalizing free with
  | nil => rfl
  | cons b busy ih =>
    rw [updateChains]
    split
    · rw [ih]
      simp only [chainCount_cons]
      omega
    · rfl

namespace Out

/-- All buffers of a request. -/
def bufs (o : Out) : List Buf := o.outBuf.toList ++ (o.busyBufs ++ o.outBufs) ++ o.freeBufs

/-- The number of places in which a buffer is. -/
def places (i : ℕ) (o : Out) : ℕ := chainCount i o.bufs

/-- No buffer is in two places, and a new one is in none. -/
structure Distinct (o : Out) : Prop where
  le_one : ∀ i, o.places i ≤ 1
  fresh : ∀ i, o.nbufs ≤ i → o.places i = 0

variable {o o' : Out}

lemma Distinct.nodup (h : o.Distinct) : (o.bufs.map Buf.id).Nodup :=
  List.nodup_iff_count.mpr h.le_one

/-- The buffers are where they were, or in another place. -/
def Rearranged (o o' : Out) : Prop := o'.nbufs = o.nbufs ∧ ∀ i, o'.places i = o.places i

lemma Rearranged.refl (o : Out) : o.Rearranged o := ⟨rfl, fun _ => rfl⟩

lemma Rearranged.trans {o₁ o₂ : Out} (h : o.Rearranged o₁) (h' : o₁.Rearranged o₂) :
    o.Rearranged o₂ := ⟨h'.1.trans h.1, fun i => (h'.2 i).trans (h.2 i)⟩

lemma Distinct.rearranged (h : o.Distinct) (hr : o.Rearranged o') : o'.Distinct where
  le_one i := hr.2 i ▸ h.le_one i
  fresh i hi := (hr.2 i).trans (h.fresh i (hr.1 ▸ hi))

lemma queueBuf_rearranged (link : Bool) (hlast : o.lastOut = o.outBufs.length) :
    o.Rearranged (o.queueBuf link).2 := by
  unfold queueBuf
  split
  · exact .refl o
  · next b hb =>
    split
    · exact .refl o
    · split
      · exact .refl o
      · refine ⟨rfl, fun i => ?_⟩
        rw [hlast, List.take_length]
        simp only [places, bufs, hb, chainCount_append, chainCount_cons, chainCount_nil,
          Option.toList_none, Option.toList_some]
        omega

lemma sendHeader_rearranged (env : FlushEnv) (loc : LocConf) :
    o.Rearranged (o.sendHeader env loc).2 := by
  rw [sendHeader_stream]
  exact ⟨rfl, fun _ => rfl⟩

lemma callFilter_rearranged (f : FilterAns) : o.Rearranged (o.callFilter f) := by
  refine ⟨rfl, fun i => ?_⟩
  have hsplit : (o.callFilter f).busyBufs ++ (o.callFilter f).outBufs =
      consume f.consumed (o.busyBufs ++ o.outBufs) := List.take_append_drop ..
  simp only [places, bufs, hsplit, chainCount_append, chainCount_consume]
  rfl

lemma recycle_rearranged (f : FilterAns) : o.Rearranged (o.recycle f) := by
  refine ⟨rfl, fun i => ?_⟩
  have h := chainCount_updateChains i o.freeBufs (o.busyBufs ++ o.outBufs)
  rw [chainCount_append i o.busyBufs] at h
  simp only [places, bufs, recycle, chainCount_append, chainCount_nil]
  omega

lemma flush_rearranged (f : FilterAns) : o.Rearranged (o.flush f).2 := by
  unfold flush
  split
  · exact callFilter_rearranged f
  · exact (callFilter_rearranged f).trans (recycle_rearranged f)

lemma outputBufs_rearranged (env : FlushEnv) (loc : LocConf)
    (hlast : o.lastOut = o.outBufs.length) : o.Rearranged (o.outputBufs env loc).2 := by
  obtain ⟨q, hq⟩ : ∃ q, q = if o.seenStreamEnd then
    { o with seenStreamEnd := false }.queueBuf env.link else (.ok, o) := ⟨_, rfl⟩
  have hqueue : o.Rearranged q.2 := by
    rw [hq]
    split
    · exact queueBuf_rearranged (o := { o with seenStreamEnd := false }) env.link hlast
    · exact .refl o
  have hheader := hqueue.trans (sendHeader_rearranged env loc)
  unfold outputBufs
  simp only [← hq]
  split
  · exact hqueue
  · split
    · exact hheader
    · split
      · exact hheader
      · exact hheader.trans (flush_rearranged env.filter)

/-- The buffer for the next piece comes from the free chain, or it is new. -/
lemma newBuf_takes {mem : Bool} {size : ℕ} (hb : (o.newBuf mem size).1 = some b) :
    (∃ c free, o.freeBufs = c :: free ∧ c.id = b.id ∧
      (o.newBuf mem size).2 = { o with freeBufs := free }) ∨
    b.id = o.nbufs ∧ (o.newBuf mem size).2 = { o with nbufs := o.nbufs + 1 } := by
  unfold newBuf at hb ⊢
  split
  · next c free hfree =>
    refine .inl ⟨c, free, hfree, ?_⟩
    simp only [hfree] at hb
    split
    · next hlt =>
      rw [if_pos hlt] at hb
      split
      · next hmem =>
        rw [if_pos hmem] at hb
        obtain rfl := Option.some.inj hb
        exact ⟨rfl, rfl⟩
      · next hmem =>
        rw [if_neg hmem] at hb
        cases hb
    · next hlt =>
      rw [if_neg hlt] at hb
      obtain rfl := Option.some.inj hb
      exact ⟨rfl, rfl⟩
  · next hfree =>
    simp only [hfree] at hb
    split
    · next hmem =>
      rw [if_pos hmem] at hb
      exact .inr ⟨(congrArg Buf.id (Option.some.inj hb)).symm, rfl⟩
    · next hmem =>
      rw [if_neg hmem] at hb
      cases hb

/-- It takes the place of the one that is being filled. -/
lemma newBuf_distinct {mem : Bool} {size : ℕ} {avail : ℤ} (h : o.Distinct)
    (hb : (o.newBuf mem size).1 = some b) :
    ({ (o.newBuf mem size).2 with outBuf := some b, availOut := avail } : Out).Distinct := by
  have hle := h.le_one
  have hfresh := h.fresh
  simp only [places, bufs, chainCount_append] at hle hfresh
  rcases newBuf_takes hb with ⟨c, free, hfree, hid, heq⟩ | ⟨hid, heq⟩
  · rw [heq]
    simp only [hfree, chainCount_cons, hid] at hle hfresh
    constructor <;> intro i
    · have := hle i
      simp only [places, bufs, chainCount_append, chainCount_cons, chainCount_nil,
        Option.toList_some]
      omega
    · intro hi
      have := hfresh i hi
      simp only [places, bufs, chainCount_append, chainCount_cons, chainCount_nil,
        Option.toList_some]
      omega
  · rw [heq]
    constructor <;> intro i
    · have := hle i
      have := hfresh i
      simp only [places, bufs, chainCount_append, chainCount_cons, chainCount_nil,
        Option.toList_some, hid]
      split <;> omega
    · intro hi
      have := hfresh i (by simp only at hi; omega)
      simp only [places, bufs, chainCount_append, chainCount_cons, chainCount_nil,
        Option.toList_some, hid] at hi ⊢
      split <;> omega

/-! ## Segments -/

/-- The buffers that have been handed to the output filter, those in the queue and the one that is
being filled, as the bytes in them. -/
def segments (o : Out) : List Bytes :=
  o.sent.flatten ++ o.outBufs.map Buf.pending ++ [o.filling]

/-- Pieces that are whole stay whole. -/
def Carries (o o' : Out) : Prop := ∀ ps, Pieces ps o.segments → Pieces ps o'.segments

/-- What has been handed to the output filter holds a beginning of the pieces. -/
def HandedWhole (ps : List Bytes) (o : Out) : Prop := ∃ qs, qs <+: ps ∧ Pieces qs o.sent.flatten

variable {ps : List Bytes}

lemma Carries.refl (o : Out) : o.Carries o := fun _ h => h

lemma Carries.of_eq (h : o'.segments = o.segments) : o.Carries o' := fun _ hp => h.symm ▸ hp

lemma Carries.trans {o₁ o₂ : Out} (h : o.Carries o₁) (h' : o₁.Carries o₂) : o.Carries o₂ :=
  fun ps hp => h' ps (h ps hp)

lemma handedWhole_of_segments (h : Pieces ps o.segments) : o.HandedWhole ps := by
  rw [segments, List.append_assoc] at h
  exact h.front

lemma HandedWhole.congr (h : o.HandedWhole ps) (hsent : o'.sent = o.sent) : o'.HandedWhole ps := by
  rw [HandedWhole, hsent]
  exact h

/-- A buffer is queued, and the next one is opened. -/
lemma queueBuf_carries {link : Bool} (hlast : o.lastOut = o.outBufs.length)
    (h : (o.queueBuf link).1 = .ok) : o.Carries (o.queueBuf link).2 := by
  unfold queueBuf at h ⊢
  split
  · exact .refl o
  · next b hb =>
    split
    · exact .refl o
    · split
      · next hne hlink => simp [hb, hne, hlink] at h
      · intro ps hp
        rw [segments, filling, hb] at hp
        rw [segments, filling, hlast, List.take_length, List.map_append]
        simpa [List.append_assoc] using hp.next

lemma flush_carries {f : FilterAns} (h : (o.flush f).1 = .ok) : o.Carries (o.flush f).2 := by
  unfold flush at h ⊢
  split
  · next hfailed =>
    rw [if_pos hfailed] at h
    simp only at h
    simp [h, Rc.failed] at hfailed
  · exact .of_eq (by simp [segments, filling, recycle, callFilter])

lemma flush_handedWhole (f : FilterAns) (h : Pieces ps o.segments) :
    (o.flush f).2.HandedWhole ps := by
  have hsent : (o.flush f).2.sent.flatten = o.sent.flatten ++ o.outBufs.map Buf.pending := by
    unfold flush
    split <;> simp [recycle, callFilter]
  rw [HandedWhole, hsent]
  exact h.front

lemma outputBufs_carries {env : FlushEnv} {loc : LocConf} (hlast : o.lastOut = o.outBufs.length)
    (h : Pieces ps o.segments) : (o.outputBufs env loc).2.HandedWhole ps ∧
      ((o.outputBufs env loc).1 = .ok → Pieces ps (o.outputBufs env loc).2.segments) := by
  obtain ⟨q, hq⟩ : ∃ q, q = if o.seenStreamEnd then
    { o with seenStreamEnd := false }.queueBuf env.link else (.ok, o) := ⟨_, rfl⟩
  have hqueue : q.1 = .ok → Pieces ps q.2.segments := by
    rw [hq]
    split
    · exact fun hok => queueBuf_carries (o := { o with seenStreamEnd := false }) hlast hok ps h
    · exact fun _ => h
  have hqsent : q.2.sent = o.sent := by
    rw [hq]
    split
    · exact (queueBuf_fields env.link { o with seenStreamEnd := false }).1
    · rfl
  have hheader : (q.2.sendHeader env loc).2.segments = q.2.segments := by
    rw [sendHeader_stream]
    rfl
  unfold outputBufs
  simp only [← hq]
  split
  · exact ⟨(handedWhole_of_segments h).congr hqsent, nofun⟩
  · next hok =>
    have hp := hheader.symm ▸ hqueue (not_not.mp hok)
    split
    · next hrc => exact ⟨handedWhole_of_segments hp, fun h => absurd h hrc⟩
    · split
      · exact ⟨handedWhole_of_segments hp, fun _ => hp⟩
      · exact ⟨flush_handedWhole env.filter hp, fun hok => flush_carries hok ps hp⟩

/-! ## Memory for pieces -/

/-- What `ngx_http_drizzle_request_mem` does. -/
inductive RequestMem (env : EmitEnv) (loc : LocConf) (len : ℕ) (o : Out) : Bool → Out → Prop
  | available (h : o.outBuf.isSome ∧ (len : ℤ) ≤ o.availOut) : RequestMem env loc len o true o
  | notQueued (h : (o.queueBuf env.link).1 ≠ .ok) :
      RequestMem env loc len o false (o.queueBuf env.link).2
  | notSent {o₁ : Out} (hq : o.queueBuf env.link = (.ok, o₁))
      (h : (o₁.outputBufs env.flush loc).1 ≠ .ok) :
      RequestMem env loc len o false (o₁.outputBufs env.flush loc).2
  | noMemory {o₁ o₂ : Out} (hq : o.queueBuf env.link = (.ok, o₁))
      (ho : o₁.outputBufs env.flush loc = (.ok, o₂))
      (h : (o₂.newBuf env.mem (max len loc.bufSize)).1 = none) :
      RequestMem env loc len o false (o₂.newBuf env.mem (max len loc.bufSize)).2
  | newBuf {o₁ o₂ : Out} {b : Buf} (hq : o.queueBuf env.link = (.ok, o₁))
      (ho : o₁.outputBufs env.flush loc = (.ok, o₂))
      (h : (o₂.newBuf env.mem (max len loc.bufSize)).1 = some b) :
      RequestMem env loc len o true { (o₂.newBuf env.mem (max len loc.bufSize)).2 with
        outBuf := some b
        availOut := b.capacity }

variable {env : EmitEnv} {loc : LocConf} {len : ℕ}

lemma requestMem_outcome (env : EmitEnv) (loc : LocConf) (len : ℕ) (o : Out) :
    RequestMem env loc len o (o.requestMem env loc len).1 (o.requestMem env loc len).2 := by
  unfold requestMem
  split
  · next h => exact .available h
  · simp only
    split
    · next hq => exact .notQueued hq
    · next hq =>
      have hq := not_not.mp hq
      split
      · next ho => exact .notSent (Prod.ext hq rfl) ho
      · next ho =>
        have ho := not_not.mp ho
        split
        · next o' hnew =>
          have hnone := congrArg Prod.fst hnew
          have heq : o' = _ := (congrArg Prod.snd hnew).symm
          exact heq ▸ .noMemory (Prod.ext hq rfl) (Prod.ext ho rfl) hnone
        · next b o' hnew =>
          have hsome := congrArg Prod.fst hnew
          have heq : o' = _ := (congrArg Prod.snd hnew).symm
          exact heq ▸ .newBuf (Prod.ext hq rfl) (Prod.ext ho rfl) hsome

/-- What holds of the output side between two calls: `ps` are the pieces that have been submitted,
and `req` is the number of bytes that have been requested for the next one. -/
structure Tidy (ps : List Bytes) (req : Option ℕ) (o : Out) : Prop where
  measured : o.Measured
  distinct : o.Distinct
  /-- Where no buffer is being filled, no memory is available. -/
  idle : o.outBuf = none → o.availOut = 0
  room : ∀ len ∈ req, o.outBuf.isSome ∧ (len : ℤ) ≤ o.availOut
  pieces : Pieces ps o.segments

lemma queueBuf_idle (link : Bool) (h : o.outBuf = none → o.availOut = 0) :
    (o.queueBuf link).2.outBuf = none → (o.queueBuf link).2.availOut = 0 := by
  unfold queueBuf
  split
  · exact h
  · split
    · exact h
    · split
      · exact h
      · exact fun _ => rfl

lemma outputBufs_idle (env : FlushEnv) (loc : LocConf) (h : o.outBuf = none → o.availOut = 0) :
    (o.outputBufs env loc).2.outBuf = none → (o.outputBufs env loc).2.availOut = 0 := by
  obtain ⟨q, hq⟩ : ∃ q, q = if o.seenStreamEnd then
    { o with seenStreamEnd := false }.queueBuf env.link else (.ok, o) := ⟨_, rfl⟩
  have hqueue : q.2.outBuf = none → q.2.availOut = 0 := by
    rw [hq]
    split
    · exact queueBuf_idle (o := { o with seenStreamEnd := false }) env.link h
    · exact h
  have hheader : (q.2.sendHeader env loc).2.outBuf = none →
      (q.2.sendHeader env loc).2.availOut = 0 := by
    rw [sendHeader_stream]
    exact hqueue
  unfold outputBufs
  simp only [← hq]
  split
  · exact hqueue
  · split
    · exact hheader
    · split
      · exact hheader
      · unfold flush
        split <;> exact hheader

namespace Tidy

variable {req : Option ℕ}

lemma init : Tidy [] none {} where
  measured := ⟨rfl, nofun, nofun, rfl, fun _ => ⟨rfl, rfl⟩⟩
  distinct := ⟨fun _ => Nat.zero_le _, fun _ _ => rfl⟩
  idle _ := rfl
  room := nofun
  pieces := .single_nil

/-- `last_out` points to the end of the queue. -/
lemma lastOut (h : Tidy ps req o) : o.lastOut = o.outBufs.length := h.measured.lastOut

lemma queueBuf {link : Bool} (h : Tidy ps req o) (hq : o.queueBuf link = (.ok, o')) :
    Tidy ps none o' := by
  have hok : (o.queueBuf link).1 = .ok := congrArg Prod.fst hq
  obtain rfl : (o.queueBuf link).2 = o' := congrArg Prod.snd hq
  exact {
    measured := (queueBuf_grows link o h.measured).1
    distinct := h.distinct.rearranged (queueBuf_rearranged link h.lastOut)
    idle := queueBuf_idle link h.idle
    room := nofun
    pieces := queueBuf_carries h.lastOut hok ps h.pieces }

lemma outputBufs {env : FlushEnv} (h : Tidy ps req o) (ho : o.outputBufs env loc = (.ok, o')) :
    Tidy ps none o' := by
  have hok : (o.outputBufs env loc).1 = .ok := congrArg Prod.fst ho
  obtain rfl : (o.outputBufs env loc).2 = o' := congrArg Prod.snd ho
  exact {
    measured := (outputBufs_grows env loc o h.measured).1
    distinct := h.distinct.rearranged (outputBufs_rearranged env loc h.lastOut)
    idle := outputBufs_idle env loc h.idle
    room := nofun
    pieces := (outputBufs_carries h.lastOut h.pieces).2 hok }

/-- The memory that is returned is behind the data of a buffer. -/
lemma requestMem (h : Tidy ps req o) (hr : o.requestMem env loc len = (true, o')) :
    Tidy ps (some len) o' := by
  obtain ⟨hgrows, havail⟩ := requestMem_grows env loc len o
  have hout := requestMem_outcome env loc len o
  rw [hr] at hgrows havail hout
  cases hout with
  | available hsome =>
    exact ⟨h.measured, h.distinct, h.idle, fun _ hl => Option.some.inj hl ▸ hsome, h.pieces⟩
  | @newBuf o₁ o₂ b hq ho hb =>
    have h₂ := (h.queueBuf hq).outputBufs ho
    obtain ⟨heq, hempty⟩ := newBuf_cases env.mem (max len loc.bufSize) o₂
    refine ⟨(hgrows h.measured).1, newBuf_distinct h₂.distinct hb, nofun, fun _ hl => ?_, ?_⟩
    · exact Option.some.inj hl ▸ ⟨rfl, havail rfl⟩
    · -- the buffer that is replaced is empty, and so is the new one
      have hfill : o₂.filling = [] := by
        have hfill₁ := queueBuf_filling (show (o.queueBuf env.link).1 = .ok by rw [hq])
        rw [hq] at hfill₁
        rcases outputBufs_cases env.flush loc o₁ with ⟨_, _, _, hfill, _⟩ | ⟨hfailed, _⟩
        · rw [ho] at hfill
          exact hfill hfill₁
        · rw [ho] at hfailed
          cases hfailed
      have hp := h₂.pieces
      rw [segments, hfill] at hp
      rw [heq]
      simpa [segments, filling, Buf.pending, (hempty b hb).1] using hp

/-- The caller has written the bytes that it has requested memory for. -/
lemma write {bytes : Bytes} (h : Tidy ps (some bytes.length) o) (hb : o.outBuf = some b) :
    Tidy (ps ++ [bytes].filter (· ≠ [])) none { o with
      outBuf := some { b with data := b.data ++ bytes }
      availOut := o.availOut - bytes.length } := by
  obtain ⟨hfits, hpos, hcap⟩ := h.measured.room b hb
  have hroom := (h.room bytes.length rfl).2
  refine ⟨⟨h.measured.buffered, h.measured.fits, ?_, h.measured.lastOut, h.measured.opened⟩,
    ?_, nofun, nofun, ?_⟩
  · rintro _ ⟨⟩
    refine ⟨⟨by simp [hpos], ?_⟩, hpos, ?_⟩
    · simp only [List.length_append]
      omega
    · simp only [List.length_append]
      omega
  · refine h.distinct.rearranged ⟨rfl, fun i => ?_⟩
    simp [places, bufs, hb]
  · have hp := h.pieces
    rw [segments, filling, hb] at hp
    have hadd := hp.add bytes
    by_cases hnil : bytes = []
    · subst hnil
      simpa [segments, filling, Buf.pending] using hp
    · simpa [segments, filling, Buf.pending, hpos, hnil] using hadd

lemma submitMem {link : Bool} {bytes : Bytes} (h : Tidy ps (some bytes.length) o)
    (hs : o.submitMem link bytes = (.ok, o')) : Tidy (ps ++ [bytes].filter (· ≠ [])) none o' := by
  unfold Out.submitMem at hs
  split at hs
  · cases hs
  · next b hb =>
    have hw := h.write hb
    simp only at hs
    split at hs
    · exact hw.queueBuf hs
    · cases hs
      exact hw

/-- The output filter may take bytes of the busy chain at any time. -/
lemma consumed (h : Tidy ps req o) (n : ℕ) :
    Tidy ps req { o with busyBufs := consume n o.busyBufs } := by
  have hfits := h.measured.fits
  have hfits' : ∀ b ∈ o.busyBufs, b.Fits := fun b hb => hfits b (List.mem_append_left _ hb)
  obtain ⟨hbusy, hcap, _, _⟩ := consume_spec n hfits'
  refine ⟨⟨?_, ?_, h.measured.room, h.measured.lastOut, fun hsent => ?_⟩, ?_, h.idle, h.room,
    h.pieces⟩
  · have hbuf := h.measured.buffered
    rw [capacities_append] at hbuf ⊢
    rw [hcap]
    exact hbuf
  · intro b hb
    rcases List.mem_append.mp hb with hb | hb
    · exact hbusy b hb
    · exact hfits b (List.mem_append_right _ hb)
  · obtain ⟨hnil, hblocked⟩ := h.measured.opened hsent
    exact ⟨by simp [hnil, consume], hblocked⟩
  · refine h.distinct.rearranged ⟨rfl, fun i => ?_⟩
    simp [places, bufs, chainCount_consume]

end Tidy

/-! ## Sequences of calls -/

/-- A call that succeeds, with the piece that it adds to the stream.  The memory that has been
requested for a piece is submitted by the next call, with as many bytes. -/
inductive Call (loc : LocConf) : Option ℕ → Out → List Bytes → Option ℕ → Out → Prop
  | requestMem {req : Option ℕ} {o o' : Out} {env : EmitEnv} {len : ℕ}
      (h : o.requestMem env loc len = (true, o')) : Call loc req o [] (some len) o'
  | submitMem {o o' : Out} {link : Bool} {bytes : Bytes}
      (h : o.submitMem link bytes = (.ok, o')) :
      Call loc (some bytes.length) o ([bytes].filter (· ≠ [])) none o'
  | queueBuf {req : Option ℕ} {o o' : Out} {link : Bool} (h : o.queueBuf link = (.ok, o')) :
      Call loc req o [] none o'
  | outputBufs {req : Option ℕ} {o o' : Out} {env : FlushEnv}
      (h : o.outputBufs env loc = (.ok, o')) : Call loc req o [] none o'
  /-- The end of the stream is noted. -/
  | streamEnd {req : Option ℕ} {o : Out} : Call loc req o [] req { o with seenStreamEnd := true }
  /-- The client connection is delayed, or no longer so. -/
  | delayed {req : Option ℕ} {o : Out} (delayed : Bool) :
      Call loc req o [] req { o with delayed := delayed }
  /-- The output filter consumes bytes. -/
  | consumed {req : Option ℕ} {o : Out} (n : ℕ) :
      Call loc req o [] req { o with busyBufs := consume n o.busyBufs }

/-- A sequence of calls that succeed, from the beginning of a request. -/
inductive Calls (loc : LocConf) : List Bytes → Option ℕ → Out → Prop
  | init : Calls loc [] none {}
  | call {ps qs : List Bytes} {req req' : Option ℕ} {o o' : Out} (h : Calls loc ps req o)
      (c : Call loc req o qs req' o') : Calls loc (ps ++ qs) req' o'

variable {req req' : Option ℕ} {qs : List Bytes}

/-- Each call keeps the buffers in order. -/
theorem Tidy.call (h : Tidy ps req o) (c : Call loc req o qs req' o') :
    Tidy (ps ++ qs) req' o' := by
  cases c with
  | requestMem hr => exact (List.append_nil ps).symm ▸ h.requestMem hr
  | submitMem hs => exact h.submitMem hs
  | queueBuf hq => exact (List.append_nil ps).symm ▸ h.queueBuf hq
  | outputBufs ho => exact (List.append_nil ps).symm ▸ h.outputBufs ho
  | streamEnd =>
    rw [List.append_nil]
    obtain ⟨hm, hd, hi, hr, hp⟩ := h
    exact ⟨⟨hm.buffered, hm.fits, hm.room, hm.lastOut, hm.opened⟩,
      ⟨hd.le_one, hd.fresh⟩, hi, hr, hp⟩
  | delayed d =>
    rw [List.append_nil]
    obtain ⟨hm, hd, hi, hr, hp⟩ := h
    exact ⟨⟨hm.buffered, hm.fits, hm.room, hm.lastOut, hm.opened⟩,
      ⟨hd.le_one, hd.fresh⟩, hi, hr, hp⟩
  | consumed n => exact (List.append_nil ps).symm ▸ h.consumed n

/-- In every sequence of calls. -/
theorem Calls.tidy (h : Calls loc ps req o) : Tidy ps req o := by
  induction h with
  | init => exact .init
  | call _ c ih => exact ih.call c

/-- **The accounts of the output side.**  In every sequence of calls that succeed: `avail_out` is
what is left of the buffer that is being filled, and at least what has been requested; `last_out`
points to the end of the queue; `buffered_output` is the sum of the capacities of the buffers in the
queue and in the busy chain; and no buffer is in two places. -/
theorem accounts (h : Calls loc ps req o) :
    (∀ b, o.outBuf = some b → o.availOut = (b.capacity : ℤ) - b.data.length) ∧
    0 ≤ o.availOut ∧ (∀ len, req = some len → (len : ℤ) ≤ o.availOut) ∧
    o.lastOut = o.outBufs.length ∧ o.bufferedOutput = capacities (o.outBufs ++ o.busyBufs) ∧
    (o.bufs.map Buf.id).Nodup := by
  have ht := h.tidy
  have hroom : ∀ b, o.outBuf = some b → o.availOut = (b.capacity : ℤ) - b.data.length := by
    intro b hb
    obtain ⟨_, _, hcap⟩ := ht.measured.room b hb
    omega
  refine ⟨hroom, ?_, fun len hl => (ht.room len hl).2, ht.lastOut, ?_, ht.distinct.nodup⟩
  · cases hb : o.outBuf with
    | none => exact Int.le_of_eq (ht.idle hb).symm
    | some b =>
      have hfits := (ht.measured.room b hb).1.data
      rw [hroom b hb]
      omega
  · rw [ht.measured.buffered, capacities_append, capacities_append, Nat.add_comm]

/-- A buffer that is larger than `drizzle_buffer_size` is filled, consumed and used again. -/
theorem accounts_reused : ∃ o, Calls { bufSize := 2 } [[1, 2, 3], [4]] none o ∧
    o.outBuf = some ⟨0, 3, [4], 0⟩ ∧ o.availOut = 2 ∧ (o.bufs.map Buf.id).Nodup := by
  have h₁ := Calls.call .init
    (.requestMem (rfl : Out.requestMem {} { bufSize := 2 } 3 {} = (true, _)))
  have h₂ := h₁.call (.submitMem (rfl : Out.submitMem true [1, 2, 3] _ = (.ok, _)))
  have h₃ := h₂.call (.requestMem (rfl : Out.requestMem { flush := { filter := { consumed := 3 } } }
    { bufSize := 2 } 1 _ = (true, _)))
  have h₄ := h₃.call (.submitMem (rfl : Out.submitMem true [4] _ = (.ok, _)))
  obtain ⟨havail, _, _, _, _, hnodup⟩ := accounts h₄
  exact ⟨_, h₄, rfl, havail _ rfl, hnodup⟩

end Out
end DrizzleNginx
