/-
# What headers are set to

`ngx_http_drizzle_set_header` goes through the parts of the list of headers.  As long as no part
behind the first one is empty, this is the same as going through one array of all headers, and no
element is read that is not there.  What a client gets for a name after any calls is determined by
what was there for this name and by the values in the calls with this name, in their order.  A
header whose value has once been set to the empty one stays switched off: nothing restores its hash.
-/
import DrizzleNginx.Model.Headers

namespace DrizzleNginx

/-- What `ngx_strncasecmp` does is to compare the names up to the case of letters. -/
structure ComparesNames (strncasecmp : Bytes → Bytes → Bool) : Prop where
  refl : ∀ k, strncasecmp k k = true
  symm : ∀ k k', k.length = k'.length → strncasecmp k k' = true → strncasecmp k' k = true
  trans : ∀ k k' k'', k.length = k'.length → k'.length = k''.length →
    strncasecmp k k' = true → strncasecmp k' k'' = true → strncasecmp k k'' = true

section Names

variable {strncasecmp : Bytes → Bytes → Bool} {k k' k'' : Bytes}

lemma sameName_iff :
    sameName strncasecmp k k' = true ↔ k.length = k'.length ∧ strncasecmp k k' = true := by
  rw [sameName, Bool.and_eq_true, decide_eq_true_eq]

lemma ComparesNames.sameName_comm (hn : ComparesNames strncasecmp) :
    sameName strncasecmp k k' = sameName strncasecmp k' k := by
  rw [Bool.eq_iff_iff, sameName_iff, sameName_iff]
  constructor
  · rintro ⟨hlen, h⟩
    exact ⟨hlen.symm, hn.symm _ _ hlen h⟩
  · rintro ⟨hlen, h⟩
    exact ⟨hlen.symm, hn.symm _ _ hlen h⟩

lemma ComparesNames.sameName_trans (hn : ComparesNames strncasecmp)
    (h : sameName strncasecmp k k' = true) (h' : sameName strncasecmp k' k'' = true) :
    sameName strncasecmp k k'' = true := by
  rw [sameName_iff] at h h' ⊢
  exact ⟨h.1.trans h'.1, hn.trans _ _ _ h.1 h'.1 h.2 h'.2⟩

/-- Of two equal names, each is the same as a third one if and only if the other one is. -/
lemma ComparesNames.sameName_congr (hn : ComparesNames strncasecmp)
    (h : sameName strncasecmp k k' = true) :
    sameName strncasecmp k k'' = sameName strncasecmp k' k'' := by
  rw [Bool.eq_iff_iff]
  constructor
  · exact hn.sameName_trans (hn.sameName_comm ▸ h)
  · exact hn.sameName_trans h

end Names

namespace HeaderList

/-- All headers of a list, in their order. -/
def elts (l : HeaderList) : List TableElt := l.part ++ l.next.flatten

/-- No part behind the first one is empty. -/
def Sound (l : HeaderList) : Prop := ∀ part ∈ l.next, part ≠ []

/-- No two headers have the same name. -/
def Distinct (strncasecmp : Bytes → Bytes → Bool) (l : HeaderList) : Prop :=
  l.elts.Pairwise fun h h' => sameName strncasecmp h.key h'.key = false

end HeaderList

/-- What `ngx_list_push` does is to append an element in the last part or in a new one. -/
def HeaderCall.Appends (c : HeaderCall) : Prop :=
  ∀ l h l', c.push l h = some l' → l'.elts = l.elts ++ [h] ∧ (l.Sound → l'.Sound)

/-! ## What there is for a name -/

/-- What there is for a name: no header, one that is sent, or one that is switched off. -/
inductive Cell
  | absent
  | shown (value : Bytes)
  | hidden
deriving DecidableEq, Repr

namespace Cell

/-- What a header with a name is for this name. -/
def of (h : TableElt) : Cell := if h.hash = 0 then .hidden else .shown h.value

/-- A value is set. -/
def set (value : Bytes) : Cell → Cell
  | .absent => if value.length = 0 then .absent else .shown value
  | .shown _ => if value.length = 0 then .hidden else .shown value
  | .hidden => .hidden

lemma of_store (value : Bytes) (h : TableElt) : of (h.store value) = (of h).set value := by
  by_cases hhash : h.hash = 0
  · simp [of, set, TableElt.store, hhash]
  · by_cases hvalue : value.length = 0
    · simp [of, set, TableElt.store, hhash, hvalue]
    · simp [of, set, TableElt.store, hhash, hvalue]

end Cell

/-- The first header with a name decides what there is for it. -/
def cellIn (strncasecmp : Bytes → Bytes → Bool) (key : Bytes) (elts : List TableElt) : Cell :=
  match elts.find? fun h => sameName strncasecmp h.key key with
  | none => .absent
  | some h => .of h

/-- A call sets the value for its name. -/
def HeaderCall.over (strncasecmp : Bytes → Bytes → Bool) (key : Bytes) (cell : Cell)
    (c : HeaderCall) : Cell :=
  if sameName strncasecmp c.key key then cell.set c.value else cell

/-! ## The loop through one array -/

section OneArray

variable {strncasecmp : Bytes → Bytes → Bool} {key value : Bytes} {hs hs' : List TableElt}

lemma setIn_eq_none_iff :
    setIn strncasecmp key value hs = none ↔ ∀ h ∈ hs, sameName strncasecmp h.key key = false := by
  induction hs with
  | nil => simp [setIn]
  | cons h hs ih =>
    by_cases hsame : sameName strncasecmp h.key key = true
    · simp [setIn, hsame]
    · simp [setIn, hsame, ih]

/-- One header is replaced, the first one with the name. -/
lemma setIn_cases (h : setIn strncasecmp key value hs = some hs') :
    ∃ before h₀ behind, hs = before ++ h₀ :: behind ∧ hs' = before ++ h₀.store value :: behind ∧
      (∀ h' ∈ before, sameName strncasecmp h'.key key = false) ∧
      sameName strncasecmp h₀.key key = true := by
  induction hs generalizing hs' with
  | nil => cases h
  | cons h₁ hs ih =>
    rw [setIn] at h
    split at h
    · next hsame =>
      cases h
      exact ⟨[], h₁, hs, rfl, rfl, by simp, hsame⟩
    · next hsame =>
      obtain ⟨hs₁, hs₁eq, rfl⟩ := Option.map_eq_some_iff.mp h
      obtain ⟨before, h₀, behind, rfl, rfl, hbefore, h₀same⟩ := ih hs₁eq
      refine ⟨h₁ :: before, h₀, behind, rfl, rfl, ?_, h₀same⟩
      intro h' hh'
      rcases List.mem_cons.mp hh' with rfl | hh'
      · exact Bool.eq_false_iff.mpr hsame
      · exact hbefore h' hh'

/-- The names of the headers stay. -/
lemma setIn_keys (h : setIn strncasecmp key value hs = some hs') :
    hs'.map TableElt.key = hs.map TableElt.key := by
  obtain ⟨before, h₀, behind, rfl, rfl, _, _⟩ := setIn_cases h
  simp [TableElt.store]

lemma setIn_append (hs₁ hs₂ : List TableElt) :
    setIn strncasecmp key value (hs₁ ++ hs₂) =
      match setIn strncasecmp key value hs₁ with
      | some hs => some (hs ++ hs₂)
      | none => (setIn strncasecmp key value hs₂).map (hs₁ ++ ·) := by
  induction hs₁ with
  | nil => simp [setIn]
  | cons h hs₁ ih =>
    rw [List.cons_append, setIn, setIn]
    by_cases hsame : sameName strncasecmp h.key key = true
    · rw [if_pos hsame, if_pos hsame]
      rfl
    · rw [if_neg hsame, if_neg hsame, ih]
      cases setIn strncasecmp key value hs₁ with
      | some hs => rfl
      | none => simp [Function.comp_def]

/-! ## What there is for a name behind a call -/

lemma cellIn_eq_absent (h : ∀ h' ∈ hs, sameName strncasecmp h'.key key = false) :
    cellIn strncasecmp key hs = .absent := by
  rw [cellIn, List.find?_eq_none.mpr fun h' hh' => Bool.eq_false_iff.mp (h h' hh')]

/-- Headers with another name do not count. -/
lemma cellIn_append {before : List TableElt}
    (h : ∀ h' ∈ before, sameName strncasecmp h'.key key = false) :
    cellIn strncasecmp key (before ++ hs) = cellIn strncasecmp key hs := by
  have hfind : before.find? (fun h => sameName strncasecmp h.key key) = none :=
    List.find?_eq_none.mpr fun h' hh' => Bool.eq_false_iff.mp (h h' hh')
  rw [cellIn, cellIn, List.find?_append, hfind, Option.none_or]

lemma cellIn_cons (h : TableElt) :
    cellIn strncasecmp key (h :: hs) =
      if sameName strncasecmp h.key key then .of h else cellIn strncasecmp key hs := by
  rw [cellIn, List.find?_cons]
  cases sameName strncasecmp h.key key with
  | true => rfl
  | false => rfl

/-- A header that is replaced in front of others. -/
lemma cellIn_replaced {key' : Bytes} {before behind : List TableElt} {h₀ h₁ : TableElt}
    (hkey : h₁.key = h₀.key)
    (hcell : sameName strncasecmp h₀.key key' = true →
      (∀ h ∈ before, sameName strncasecmp h.key key' = false) ∧
      Cell.of h₁ = (Cell.of h₀).set value) :
    cellIn strncasecmp key' (before ++ h₁ :: behind) =
      if sameName strncasecmp h₀.key key' then
        (cellIn strncasecmp key' (before ++ h₀ :: behind)).set value
      else cellIn strncasecmp key' (before ++ h₀ :: behind) := by
  by_cases hsame : sameName strncasecmp h₀.key key' = true
  · obtain ⟨hbefore, hset⟩ := hcell hsame
    rw [if_pos hsame, cellIn_append hbefore, cellIn_append hbefore, cellIn_cons, cellIn_cons, hkey,
      if_pos hsame, if_pos hsame, hset]
  · rw [if_neg hsame, cellIn, cellIn, List.find?_append, List.find?_append, List.find?_cons,
      List.find?_cons, hkey, Bool.eq_false_iff.mpr hsame]

lemma cellIn_setIn (hn : ComparesNames strncasecmp) (key' : Bytes)
    (h : setIn strncasecmp key value hs = some hs') :
    cellIn strncasecmp key' hs' =
      if sameName strncasecmp key key' then (cellIn strncasecmp key' hs).set value
      else cellIn strncasecmp key' hs := by
  obtain ⟨before, h₀, behind, rfl, rfl, hbefore, hsame⟩ := setIn_cases h
  have hcongr : sameName strncasecmp h₀.key key' = sameName strncasecmp key key' :=
    hn.sameName_congr hsame
  rw [← hcongr]
  refine cellIn_replaced rfl fun hsame' => ⟨fun h hh => ?_, Cell.of_store value h₀⟩
  -- a header in front of it would have been found
  have hkey' : sameName strncasecmp key' key = true := by
    rw [hn.sameName_comm, ← hcongr]
    exact hsame'
  rw [hn.sameName_comm, hn.sameName_congr hkey', hn.sameName_comm]
  exact hbefore h hh

/-- A header behind those with other names. -/
lemma cellIn_pushed (hn : ComparesNames strncasecmp) (key' : Bytes) (hvalue : value.length ≠ 0)
    (h : ∀ h' ∈ hs, sameName strncasecmp h'.key key = false) :
    cellIn strncasecmp key' (hs ++ [{ hash := 1, key := key, value := value }]) =
      if sameName strncasecmp key key' then (cellIn strncasecmp key' hs).set value
      else cellIn strncasecmp key' hs := by
  by_cases hsame : sameName strncasecmp key key' = true
  · have habsent : ∀ h' ∈ hs, sameName strncasecmp h'.key key' = false := by
      intro h' hh'
      rw [hn.sameName_comm, ← hn.sameName_congr hsame, hn.sameName_comm]
      exact h h' hh'
    rw [if_pos hsame, cellIn_append habsent, cellIn_eq_absent habsent, cellIn_cons, if_pos hsame,
      Cell.set, if_neg hvalue]
    rfl
  · rw [if_neg hsame, cellIn, cellIn, List.find?_append, List.find?_cons,
      Bool.eq_false_iff.mpr hsame, List.find?_nil, Option.or_none]

end OneArray

/-! ## The loop through the parts -/

section Parts

variable (strncasecmp : Bytes → Bytes → Bool) (key value : Bytes) {l : HeaderList} {c : HeaderCall}

/-- The loop through parts that are not empty is the loop through one array. -/
lemma setNext_eq (next : List (List TableElt)) (hnext : ∀ part ∈ next, part ≠ []) :
    ∃ r, setNext strncasecmp key value next = .ok r ∧
      r.map List.flatten = setIn strncasecmp key value next.flatten ∧
      ∀ next', r = some next' → ∀ part ∈ next', part ≠ [] := by
  induction next with
  | nil => exact ⟨none, rfl, rfl, by simp⟩
  | cons part next ih =>
    obtain ⟨hpart, hbehind⟩ := List.forall_mem_cons.mp hnext
    obtain ⟨h, hs, rfl⟩ := List.exists_cons_of_ne_nil hpart
    rw [setNext, List.flatten_cons, setIn_append]
    cases hin : setIn strncasecmp key value (h :: hs) with
    | some part' =>
      refine ⟨some (part' :: next), rfl, rfl, ?_⟩
      rintro _ ⟨⟩
      refine List.forall_mem_cons.mpr ⟨?_, hbehind⟩
      rintro rfl
      cases setIn_keys hin
    | none =>
      obtain ⟨r, hr, hflat, hsound⟩ := ih hbehind
      refine ⟨r.map ((h :: hs) :: ·), by simp only [hr, Except.map], ?_, ?_⟩
      · rw [← hflat, Option.map_map, Option.map_map]
        rfl
      · intro next' hnext'
        obtain ⟨next₁, hnext₁, rfl⟩ := Option.map_eq_some_iff.mp hnext'
        exact List.forall_mem_cons.mpr ⟨hpart, hsound next₁ hnext₁⟩

lemma setFound_eq (hl : l.Sound) :
    ∃ r, setFound strncasecmp key value l = .ok r ∧
      r.map HeaderList.elts = setIn strncasecmp key value l.elts ∧
      ∀ l', r = some l' → l'.Sound := by
  rw [setFound, HeaderList.elts, setIn_append]
  cases setIn strncasecmp key value l.part with
  | some part =>
    refine ⟨_, rfl, rfl, ?_⟩
    rintro _ ⟨⟩
    exact hl
  | none =>
    obtain ⟨r, hr, hflat, hsound⟩ := setNext_eq strncasecmp key value l.next hl
    refine ⟨r.map fun next => { l with next := next }, by simp only [hr, Except.map], ?_, ?_⟩
    · rw [← hflat, Option.map_map, Option.map_map]
      rfl
    · intro l' hl'
      obtain ⟨next', hnext', rfl⟩ := Option.map_eq_some_iff.mp hl'
      exact hsound next' hnext'

/-- What a call can do: a header is replaced, there is nothing to switch off, a header is appended,
or there is no memory for it. -/
lemma setHeader_cases (hl : l.Sound) (hc : c.Appends) :
    (∃ l', setHeader strncasecmp c l = .ok (.ok, l') ∧ l'.Sound ∧
      setIn strncasecmp c.key c.value l.elts = some l'.elts) ∨
    (∀ h ∈ l.elts, sameName strncasecmp h.key c.key = false) ∧
      ((c.value.length = 0 ∧ setHeader strncasecmp c l = .ok (.ok, l)) ∨
        (c.value.length ≠ 0 ∧ ∃ l', setHeader strncasecmp c l = .ok (.ok, l') ∧ l'.Sound ∧
          l'.elts = l.elts ++ [{ hash := 1, key := c.key, value := c.value }]) ∨
        (c.value.length ≠ 0 ∧ setHeader strncasecmp c l = .ok (.http 500, l) ∧
          c.push l { hash := 1, key := c.key, value := c.value } = none)) := by
  obtain ⟨r, hr, hflat, hsound⟩ := setFound_eq strncasecmp c.key c.value hl
  rw [setHeader, hr]
  cases r with
  | some l' => exact .inl ⟨l', rfl, hsound l' rfl, hflat.symm⟩
  | none =>
    refine .inr ⟨setIn_eq_none_iff.mp hflat.symm, ?_⟩
    by_cases hvalue : c.value.length = 0
    · exact .inl ⟨hvalue, if_pos hvalue⟩
    simp only [if_neg hvalue]
    cases hpush : c.push l { hash := 1, key := c.key, value := c.value } with
    | none => exact .inr (.inr ⟨hvalue, rfl, rfl⟩)
    | some l' =>
      obtain ⟨helts, hsound'⟩ := hc l _ l' hpush
      exact .inr (.inl ⟨hvalue, l', rfl, hsound' hl, helts⟩)

end Parts

/-! ## Any calls -/

/-- What calls leave: the names that there were stay in front, no name comes twice if none did
before, and the first header with a name has what the calls with it make of what there was. -/
structure SetBy (strncasecmp : Bytes → Bytes → Bool) (l : HeaderList) (calls : List HeaderCall)
    (l' : HeaderList) : Prop where
  sound : l'.Sound
  keys : l.elts.map TableElt.key <+: l'.elts.map TableElt.key
  distinct : l.Distinct strncasecmp → l'.Distinct strncasecmp
  cell : ∀ key, cellIn strncasecmp key l'.elts =
    calls.foldl (HeaderCall.over strncasecmp key) (cellIn strncasecmp key l.elts)

section Calls

variable {strncasecmp : Bytes → Bytes → Bool} {l l' l'' : HeaderList} {c : HeaderCall}
  {calls : List HeaderCall}

lemma HeaderList.distinct_iff :
    l.Distinct strncasecmp ↔
      (l.elts.map TableElt.key).Pairwise fun k k' => sameName strncasecmp k k' = false := by
  rw [HeaderList.Distinct, List.pairwise_map]

namespace SetBy

lemma refl (hl : l.Sound) : SetBy strncasecmp l [] l :=
  ⟨hl, List.prefix_rfl, id, fun _ => rfl⟩

lemma cons (h : SetBy strncasecmp l [c] l') (h' : SetBy strncasecmp l' calls l'') :
    SetBy strncasecmp l (c :: calls) l'' := by
  refine ⟨h'.sound, h.keys.trans h'.keys, fun hl => h'.distinct (h.distinct hl), fun key => ?_⟩
  rw [h'.cell, h.cell]
  rfl

/-- A call that replaces a header. -/
lemma replaced (hn : ComparesNames strncasecmp) (hl' : l'.Sound)
    (h : setIn strncasecmp c.key c.value l.elts = some l'.elts) : SetBy strncasecmp l [c] l' := by
  have hkeys := setIn_keys h
  refine ⟨hl', hkeys ▸ List.prefix_rfl, fun hl => ?_, fun key => cellIn_setIn hn key h⟩
  rw [HeaderList.distinct_iff] at hl ⊢
  rw [hkeys]
  exact hl

/-- A call that finds nothing that it could switch off. -/
lemma unchanged (hl : l.Sound) (hvalue : c.value.length = 0)
    (hnone : ∀ h ∈ l.elts, sameName strncasecmp h.key c.key = false)
    (hn : ComparesNames strncasecmp) : SetBy strncasecmp l [c] l := by
  refine ⟨hl, List.prefix_rfl, id, fun key => ?_⟩
  rw [List.foldl_cons, List.foldl_nil, HeaderCall.over]
  split
  · next hsame =>
    have habsent : ∀ h ∈ l.elts, sameName strncasecmp h.key key = false := by
      intro h hh
      rw [hn.sameName_comm, ← hn.sameName_congr hsame, hn.sameName_comm]
      exact hnone h hh
    rw [cellIn_eq_absent habsent, Cell.set, if_pos hvalue]
  · rfl

/-- A call that appends a header. -/
lemma pushed (hn : ComparesNames strncasecmp) (hl' : l'.Sound) (hvalue : c.value.length ≠ 0)
    (hnone : ∀ h ∈ l.elts, sameName strncasecmp h.key c.key = false)
    (h : l'.elts = l.elts ++ [{ hash := 1, key := c.key, value := c.value }]) :
    SetBy strncasecmp l [c] l' := by
  refine ⟨hl', ?_, fun hl => ?_, fun key => ?_⟩
  · rw [h, List.map_append]
    exact List.prefix_append _ _
  · rw [HeaderList.Distinct, h, List.pairwise_append]
    refine ⟨hl, List.pairwise_singleton _ _, fun h₁ hh₁ h₂ hh₂ => ?_⟩
    rw [List.mem_singleton.mp hh₂]
    exact hnone h₁ hh₁
  · rw [h]
    exact cellIn_pushed hn key hvalue hnone

end SetBy

/-- One call does what it should, or there is no memory for a header that is not there. -/
lemma setHeader_outcome (hn : ComparesNames strncasecmp) (hc : c.Appends) (hl : l.Sound) :
    (∃ l', setHeader strncasecmp c l = .ok (.ok, l') ∧ SetBy strncasecmp l [c] l') ∨
    (setHeader strncasecmp c l = .ok (.http 500, l) ∧ c.value.length ≠ 0 ∧
      cellIn strncasecmp c.key l.elts = .absent ∧
      c.push l { hash := 1, key := c.key, value := c.value } = none) := by
  obtain ⟨l', hset, hl', hin⟩ | ⟨hnone, ⟨hvalue, hset⟩ | ⟨hvalue, l', hset, hl', hpush⟩ |
    ⟨hvalue, hset, hpush⟩⟩ := setHeader_cases strncasecmp hl hc
  · exact .inl ⟨l', hset, .replaced hn hl' hin⟩
  · exact .inl ⟨l, hset, .unchanged hl hvalue hnone hn⟩
  · exact .inl ⟨l', hset, .pushed hn hl' hvalue hnone hpush⟩
  · exact .inr ⟨hset, hvalue, cellIn_eq_absent hnone, hpush⟩

/-- **Headers behind any calls**: no element is read that is not there.  All calls have done what
they should, or the first one for which there was no memory has been answered with 500, those in
front of it have done what they should, and it itself nothing.  So the first header with a name, up
to the case of letters, is determined by what it was and the values in the calls with this name; the
headers that there were stay at their places; and if no name came twice, then none does, so that
this is all that a client gets for the name. -/
theorem setHeaders_outcome (hn : ComparesNames strncasecmp) (calls : List HeaderCall)
    (hcalls : ∀ c ∈ calls, c.Appends) (hl : l.Sound) :
    ∃ l' made rest, calls = made ++ rest ∧ SetBy strncasecmp l made l' ∧
      ((rest = [] ∧ setHeaders strncasecmp l calls = .ok (.ok, l')) ∨
        ∃ c later, rest = c :: later ∧ setHeaders strncasecmp l calls = .ok (.http 500, l') ∧
          c.value.length ≠ 0 ∧ cellIn strncasecmp c.key l'.elts = .absent ∧
          c.push l' { hash := 1, key := c.key, value := c.value } = none) := by
  induction calls generalizing l with
  | nil => exact ⟨l, [], [], rfl, .refl hl, .inl ⟨rfl, rfl⟩⟩
  | cons c calls ih =>
    obtain ⟨hc, hcalls⟩ := List.forall_mem_cons.mp hcalls
    rw [setHeaders]
    obtain ⟨l₁, hset, hl₁⟩ | ⟨hset, hvalue, habsent, hpush⟩ := setHeader_outcome hn hc hl
    · rw [hset]
      obtain ⟨l', made, rest, rfl, hmade, houtcome⟩ := ih hcalls hl₁.sound
      exact ⟨l', c :: made, rest, rfl, hl₁.cons hmade, houtcome⟩
    · rw [hset]
      exact ⟨l, [], c :: calls, rfl, .refl hl, .inr ⟨c, calls, rfl, rfl, hvalue, habsent, hpush⟩⟩

end Calls

/-! ## A header that is switched off -/

/-- A capital letter as a small one. -/
def lowercase (b : UInt8) : UInt8 := if 65 ≤ b ∧ b ≤ 90 then b + 32 else b

/-- The names are the same up to the case of letters. -/
def compareLowercase (k k' : Bytes) : Bool := k.map lowercase = k'.map lowercase

lemma compareLowercase_iff {k k' : Bytes} :
    compareLowercase k k' = true ↔ k.map lowercase = k'.map lowercase := by
  rw [compareLowercase, decide_eq_true_eq]

lemma compareLowercase_compares : ComparesNames compareLowercase where
  refl _ := compareLowercase_iff.mpr rfl
  symm _ _ _ h := compareLowercase_iff.mpr (compareLowercase_iff.mp h).symm
  trans _ _ _ _ _ h h' :=
    compareLowercase_iff.mpr ((compareLowercase_iff.mp h).trans (compareLowercase_iff.mp h'))

/-- A part of one element is added for each header. -/
def pushInPart (l : HeaderList) (h : TableElt) : Option HeaderList :=
  some { l with next := l.next ++ [[h]] }

lemma pushInPart_appends (key value : Bytes) :
    HeaderCall.Appends { push := pushInPart, key := key, value := value } := by
  rintro l h _ ⟨⟩
  refine ⟨by simp [HeaderList.elts], fun hl part hpart => ?_⟩
  rcases List.mem_append.mp hpart with hpart | hpart
  · exact hl part hpart
  · rw [List.mem_singleton.mp hpart]
    exact List.cons_ne_nil _ _

/-- The header `Age: 0`. -/
def sampleHeaders : HeaderList where
  part := [{ hash := 7, key := [65, 103, 101], value := [48] }]
  next := []

/-- `DB: a` is set, `age` is switched off, `db: b` and `AGE: 1` are set. -/
def sampleHeaderCalls : List HeaderCall :=
  [{ push := pushInPart, key := [68, 66], value := [97] },
    { push := pushInPart, key := [97, 103, 101], value := [] },
    { push := pushInPart, key := [100, 98], value := [98] },
    { push := pushInPart, key := [65, 71, 69], value := [49] }]

/-- The second value of `DB` is sent, and `Age` is not sent any more. -/
theorem setHeaders_outcome_switchedOff :
    ∃ l', setHeaders compareLowercase sampleHeaders sampleHeaderCalls = .ok (.ok, l') ∧
      l'.Distinct compareLowercase ∧
      cellIn compareLowercase [68, 66] l'.elts = .shown [98] ∧
      cellIn compareLowercase [65, 103, 101] l'.elts = .hidden := by
  have hcalls : ∀ c ∈ sampleHeaderCalls, c.Appends := by
    intro c hc
    simp only [sampleHeaderCalls, List.mem_cons, List.not_mem_nil, or_false] at hc
    rcases hc with rfl | rfl | rfl | rfl <;> exact pushInPart_appends _ _
  have hdistinct : sampleHeaders.Distinct compareLowercase := List.pairwise_singleton _ _
  obtain ⟨l', made, rest, hmade, hset, ⟨rfl, hok⟩ | ⟨c, later, rfl, hfull, _⟩⟩ :=
    setHeaders_outcome (l := sampleHeaders) compareLowercase_compares sampleHeaderCalls hcalls
      (by rintro _ ⟨⟩)
  · rw [List.append_nil] at hmade
    subst hmade
    refine ⟨l', hok, hset.distinct hdistinct, ?_, ?_⟩
    · rw [hset.cell]
      rfl
    · rw [hset.cell]
      rfl
  · have hok :
        (setHeaders compareLowercase sampleHeaders sampleHeaderCalls).map Prod.fst = .ok .ok :=
      rfl
    rw [hfull] at hok
    cases hok

end DrizzleNginx
