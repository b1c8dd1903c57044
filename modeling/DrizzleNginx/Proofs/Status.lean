/-
# The length of the status page

The second pass of `ngx_http_drizzle_status_handler` writes at most what the first pass has counted.
The texts of the two passes have the same length; a number is shorter by its *slack* if it has more
digits than its low 32 bits.  All numbers together fill the buffer if and only if none has a slack.
-/
import DrizzleNginx.Model.Status

namespace DrizzleNginx

/-! ## Numbers -/

lemma length_decimal (n : ℕ) : (decimal n).length = (Nat.toDigits 10 n).length := List.length_map ..

lemma length_decimal_le_iff {n k : ℕ} (hk : 0 < k) : (decimal n).length ≤ k ↔ n < 10 ^ k := by
  rw [length_decimal, Nat.length_toDigits_le_iff (by decide) hk]

/-- A smaller number has no more digits. -/
lemma length_decimal_mono {m n : ℕ} (h : m ≤ n) : (decimal m).length ≤ (decimal n).length := by
  have hpos : 0 < (decimal n).length := by
    rw [length_decimal]
    exact Nat.length_toDigits_pos
  have hn := (length_decimal_le_iff hpos).mp (Nat.le_refl _)
  exact (length_decimal_le_iff hpos).mpr (Nat.lt_of_le_of_lt h hn)

lemma numSize_eq (n i : ℕ) : numSize n i = n + (decimal i).length := by
  induction n, i using numSize.induct with
  | case1 n i h ih =>
    rw [numSize, if_pos h, ih, length_decimal, length_decimal,
      Nat.toDigits_eq_if (n := i) (by decide), if_neg (by omega),
      List.length_append, List.length_singleton]
    omega
  | case2 n i h =>
    rw [numSize, if_neg h, length_decimal, Nat.toDigits_of_lt_base (by omega),
      List.length_singleton]

lemma getNumSize_eq (i : UInt64) : getNumSize i = (decimal i.toNat).length := by
  rw [getNumSize, numSize_eq, Nat.zero_add]

/-- The number has as many digits as its low 32 bits. -/
def Narrow (i : UInt64) : Prop :=
  i.toNat < 2 ^ 32 ∨ i.toNat < 10 ^ 10 ∧ 10 ^ 9 ≤ i.toNat % 2 ^ 32

/-- By how much a number is shorter than the first pass assumes. -/
def slack (i : UInt64) : ℕ := getNumSize i - (sprintfUD i).length

lemma length_sprintfUD (i : UInt64) : (sprintfUD i).length + slack i = getNumSize i := by
  have hle : (sprintfUD i).length ≤ getNumSize i := by
    rw [getNumSize_eq]
    exact length_decimal_mono (Nat.mod_le ..)
  rw [slack, Nat.add_sub_cancel' hle]

lemma slack_eq_zero_iff {i : UInt64} : slack i = 0 ↔ Narrow i := by
  have hlen := length_sprintfUD i
  rw [getNumSize_eq, sprintfUD] at hlen
  by_cases hlt : i.toNat < 2 ^ 32
  · rw [Nat.mod_eq_of_lt hlt] at hlen
    exact ⟨fun _ => .inl hlt, fun _ => by omega⟩
  · -- the number has at least ten digits, its low 32 bits have at most ten
    have hlow : (decimal (i.toNat % 2 ^ 32)).length ≤ 10 :=
      (length_decimal_le_iff (by decide)).mpr (by omega)
    have hlow9 := length_decimal_le_iff (n := i.toNat % 2 ^ 32) (k := 9) (by decide)
    have hi9 := length_decimal_le_iff (n := i.toNat) (k := 9) (by decide)
    have hi10 := length_decimal_le_iff (n := i.toNat) (k := 10) (by decide)
    rw [Narrow, or_iff_right hlt]
    omega

/-- The slack of several numbers. -/
def slacks (numbers : List UInt64) : ℕ := (numbers.map slack).sum

@[simp] lemma slacks_nil : slacks [] = 0 := rfl

@[simp] lemma slacks_cons (i : UInt64) (is : List UInt64) :
    slacks (i :: is) = slack i + slacks is := by
  simp [slacks]

@[simp] lemma slacks_append (is js : List UInt64) : slacks (is ++ js) = slacks is + slacks js := by
  simp [slacks]

lemma slacks_eq_zero_iff {numbers : List UInt64} :
    slacks numbers = 0 ↔ ∀ i ∈ numbers, Narrow i := by
  induction numbers with
  | nil => simp
  | cons i is ih => simp [Nat.add_eq_zero_iff, slack_eq_zero_iff, ih]

/-! ## Upstreams -/

/-- The numbers that are shown for an upstream. -/
def StatusUpstream.numbers (uscf : StatusUpstream) : List UInt64 :=
  match uscf.shown with
  | none => []
  | some (dscf, servers) =>
    [dscf.activeConns, dscf.maxCached] ++
      (if dscf.maxCached ≠ 0 then
        [queueSize dscf.cache, queueSize dscf.free] ++ dscf.cache ++ dscf.free
      else []) ++ [servers, dscf.peersNumber]

/-- The length that the items of a queue add. -/
def usedLen (queue : List UInt64) : ℕ := (queue.map fun used => size " " + getNumSize used).sum

lemma foldl_usedLen (queue : List UInt64) (len : ℕ) :
    queue.foldl (fun len used => len + size " " + getNumSize used) len = len + usedLen queue := by
  induction queue generalizing len with
  | nil => rfl
  | cons used queue ih =>
    rw [List.foldl_cons, ih, usedLen, usedLen, List.map_cons, List.sum_cons]
    omega

lemma length_foldl_used (queue : List UInt64) (last : Bytes) :
    (queue.foldl (fun last used => last ++ (ascii " " ++ sprintfUD used)) last).length =
      last.length + (usedLen queue - slacks queue) ∧ slacks queue ≤ usedLen queue := by
  induction queue generalizing last with
  | nil => exact ⟨rfl, Nat.le_refl _⟩
  | cons used queue ih =>
    have hnum := length_sprintfUD used
    have hlen : usedLen (used :: queue) = size " " + getNumSize used + usedLen queue := by
      rw [usedLen, List.map_cons, List.sum_cons, usedLen]
    obtain ⟨ih, hle⟩ := ih (last ++ (ascii " " ++ sprintfUD used))
    rw [List.foldl_cons, ih, slacks_cons, hlen, List.length_append, List.length_append, size]
    omega

/-- In the part about the pool, the second pass falls behind by the slack of the numbers. -/
lemma StatusSrvConf.length_writePool (dscf : StatusSrvConf) (last : Bytes) (k : ℕ) :
    (dscf.writePool last).length + (k + slacks ([queueSize dscf.cache, queueSize dscf.free] ++
      dscf.cache ++ dscf.free)) = dscf.poolLen (last.length + k) := by
  have hcache := length_sprintfUD (queueSize dscf.cache)
  have hfree := length_sprintfUD (queueSize dscf.free)
  have hcacheItems := fun last => length_foldl_used dscf.cache last
  have hfreeItems := fun last => length_foldl_used dscf.free last
  have hq₁ :
      size "  cached connection queue: \n" = size "  cached connection queue: " + size "\n" := by
    decide
  have hq₂ :
      size "  free'd connection queue: \n" = size "  free'd connection queue: " + size "\n" := by
    decide
  have hu₁ : size "  cached connection successfully used count:\n" =
      size "  cached connection successfully used count:" + size "\n" := by decide
  have hu₂ : size "  free'd connection successfully used count:\n" =
      size "  free'd connection successfully used count:" + size "\n" := by decide
  have hcache' := (hcacheItems []).2
  have hfree' := (hfreeItems []).2
  rw [writePool, poolLen]
  simp only [foldl_usedLen, List.length_append, (hcacheItems _).1, (hfreeItems _).1, slacks_append,
    slacks_cons, slacks_nil, hq₁, hq₂, hu₁, hu₂]
  cases dscf.overflow with
  | none => simp only [size] at *; omega
  | some overflow => cases overflow <;> simp only [size] at * <;> omega

namespace StatusUpstream

/-- What both passes do for an upstream. -/
lemma length_write (uscf : StatusUpstream) (last : Bytes) (k n : ℕ) :
    (write (last, n) uscf).1.length + (k + slacks uscf.numbers) =
      (addLen (last.length + k, n) uscf).1 ∧
    (write (last, n) uscf).2 = (addLen (last.length + k, n) uscf).2 := by
  rw [write, addLen, numbers]
  cases uscf.shown with
  | none => exact ⟨rfl, rfl⟩
  | some shown =>
    obtain ⟨dscf, servers⟩ := shown
    refine ⟨?_, rfl⟩
    have ha := length_sprintfUD dscf.activeConns
    have hm := length_sprintfUD dscf.maxCached
    have hs := length_sprintfUD servers
    have hp := length_sprintfUD dscf.peersNumber
    have hhost : size "upstream \n" = size "upstream " + size "\n" := by decide
    have hactive : size "  active connections: \n" = size "  active connections: " + size "\n" := by
      decide
    have hcapacity : size "  connection pool capacity: \n" =
        size "  connection pool capacity: " + size "\n" := by decide
    have hservers : size "  servers: \n" = size "  servers: " + size "\n" := by decide
    have hpeers : size "  peers: \n" = size "  peers: " + size "\n" := by decide
    -- the text in front of the part about the pool
    obtain ⟨head, hhead⟩ : ∃ head, head = (if n ≠ 0 then last ++ ascii "\n" else last)
      ++ ascii "upstream " ++ uscf.host ++ ascii "\n"
      ++ (ascii "  active connections: " ++ sprintfUD dscf.activeConns ++ ascii "\n")
      ++ (ascii "  connection pool capacity: " ++ sprintfUD dscf.maxCached ++ ascii "\n") :=
      ⟨_, rfl⟩
    have hlen : head.length + (k + slack dscf.activeConns + slack dscf.maxCached) =
        (if n ≠ 0 then last.length + k + size "\n" else last.length + k) + size "upstream \n"
          + uscf.host.length + size "  active connections: \n" + getNumSize dscf.activeConns
          + size "  connection pool capacity: \n" + getNumSize dscf.maxCached := by
      rw [hhead]
      split <;> simp only [List.length_append, size] at * <;> omega
    have hpool := dscf.length_writePool head (k + slack dscf.activeConns + slack dscf.maxCached)
    dsimp only
    rw [← hhead, ← hlen]
    split <;>
      simp only [List.length_append, slacks_append, slacks_cons, slacks_nil, size] at * <;> omega

lemma length_foldl_write (uscfp : List StatusUpstream) (last : Bytes) (k n : ℕ) :
    (uscfp.foldl write (last, n)).1.length + (k + slacks (uscfp.flatMap numbers)) =
      (uscfp.foldl addLen (last.length + k, n)).1 := by
  induction uscfp generalizing last k n with
  | nil => rfl
  | cons uscf uscfp ih =>
    obtain ⟨hlen, hn⟩ := uscf.length_write last k n
    rw [List.foldl_cons, List.foldl_cons, List.flatMap_cons, slacks_append, ← Nat.add_assoc k,
      ← Prod.mk.eta (p := write (last, n) uscf), ih, hlen, hn]

end StatusUpstream

/-! ## The page -/

namespace StatusEnv

/-- The numbers that are shown, besides that of the process. -/
def numbers (env : StatusEnv) : List UInt64 := env.upstreams.flatMap StatusUpstream.numbers

/-- By how much the number of the process is shorter than the first pass assumes. -/
def pidSlack (env : StatusEnv) : ℕ :=
  if env.worker then getNumSize (.ofInt env.pid.toInt) - (sprintfP env.pid).length else 0

lemma length_sprintfP (pid : Int32) : (sprintfP pid).length ≤ getNumSize (.ofInt pid.toInt) ∧
    ((sprintfP pid).length = getNumSize (.ofInt pid.toInt) ↔ 0 ≤ pid.toInt) := by
  have hlo := pid.le_toInt
  have hhi := pid.toInt_lt
  have hof : (UInt64.ofInt pid.toInt).toNat = (pid.toInt % 2 ^ 64).toNat := by
    rw [UInt64.ofInt, UInt64.toNat_ofNat']
    omega
  rw [getNumSize_eq, hof, sprintfP]
  by_cases hneg : pid.toInt < 0
  · -- the argument of the first pass has twenty digits
    have habs : (decimal pid.toInt.natAbs).length ≤ 10 :=
      (length_decimal_le_iff (by decide)).mpr (by omega)
    have hbig : ¬ (decimal (pid.toInt % 2 ^ 64).toNat).length ≤ 19 := by
      rw [length_decimal_le_iff (by decide)]
      omega
    have hsign : (ascii "-").length = 1 := by decide
    rw [if_pos hneg, List.length_append]
    omega
  · have habs : (pid.toInt % 2 ^ 64).toNat = pid.toInt.natAbs := by omega
    rw [if_neg hneg, habs]
    omega

/-- The second pass falls behind the first one by the slack of the numbers. -/
lemma length_write (env : StatusEnv) :
    env.write.length + (env.pidSlack + slacks env.numbers) = env.len := by
  have htext : size "worker process: \n\n" = size "worker process: " + size "\n\n" := by decide
  have hpid := (length_sprintfP env.pid).1
  rw [write, len, numbers, StatusUpstream.length_foldl_write]
  congr 3
  rw [pidSlack]
  split
  · simp only [List.length_append, size] at *
    omega
  · rfl

/-- The numbers that are shown have as many digits as their low 32 bits, and that of the process is
not negative. -/
def Narrow (env : StatusEnv) : Prop :=
  (∀ i ∈ env.numbers, DrizzleNginx.Narrow i) ∧ (env.worker → 0 ≤ env.pid.toInt)

lemma length_write_eq_iff (env : StatusEnv) : env.write.length = env.len ↔ env.Narrow := by
  have hlen := env.length_write
  have hpid : env.pidSlack = 0 ↔ (env.worker → 0 ≤ env.pid.toInt) := by
    obtain ⟨hle, hiff⟩ := length_sprintfP env.pid
    rw [pidSlack, ← hiff]
    split
    · next hw => exact ⟨fun h _ => by omega, fun h => by have := h hw; omega⟩
    · next hw => exact ⟨fun _ h => absurd h hw, fun _ => rfl⟩
  rw [Narrow, ← hpid, ← slacks_eq_zero_iff]
  omega

end StatusEnv

/-- The second pass never writes more than the first pass has counted.  It writes as much, so that
the answer is not 500, if and only if each number has as many digits as its low 32 bits. -/
theorem status_length (env : StatusEnv) :
    env.write.length ≤ env.len ∧ (env.write.length = env.len ↔ env.Narrow) ∧
      ((∃ last size, statusHandler env = .bufferError last size) ↔ env.alloc ∧ ¬ env.Narrow) := by
  have hlen := env.length_write
  refine ⟨by omega, env.length_write_eq_iff, ?_⟩
  rw [← env.length_write_eq_iff, statusHandler]
  cases env.alloc with
  | false => simp
  | true =>
    by_cases heq : env.write.length = env.len
    · simp [heq]
    · simp [heq]

/-- A connection in the pool that has been used 2^32 times. -/
def StatusEnv.usedOften : StatusEnv where
  pid := 4242
  upstreams := [{
    host := ascii "backend"
    dscf := some {
      servers := some 1
      peersNumber := 1
      activeConns := 1
      maxCached := 1
      overflow := some .reject
      cache := [0x100000000]
      free := [] } }]

/-- Its number of uses is written as 0, and so the answer is shorter than its buffer. -/
theorem status_usedOften : ∃ last size, last < size ∧
    statusHandler .usedOften = .bufferError last size := by
  have hmem : (0x100000000 : UInt64) ∈ StatusEnv.usedOften.numbers := by decide
  have hne : StatusEnv.usedOften.write.length ≠ StatusEnv.usedOften.len := by
    intro h
    rcases (StatusEnv.length_write_eq_iff _).mp h |>.1 _ hmem with hlt | ⟨_, hlow⟩
    · exact absurd hlt (by decide)
    · exact absurd hlow (by decide)
  have hlen := StatusEnv.usedOften.length_write
  refine ⟨StatusEnv.usedOften.write.length, StatusEnv.usedOften.len, by omega, ?_⟩
  rw [statusHandler, if_neg (by decide), if_pos hne]

end DrizzleNginx
