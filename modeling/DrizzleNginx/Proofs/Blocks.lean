/-
# Upstream blocks

What the handler of `drizzle_keepalive` accepts and stores, what a whole upstream block comes to,
and the peers that `ngx_http_upstream_drizzle_init` makes of it for the worker processes.
-/
import DrizzleNginx.Proofs.Servers

namespace DrizzleNginx

open Lib

/-! ## The options of drizzle_keepalive -/

/-- The keys of the options of `drizzle_keepalive`. -/
inductive KeepaliveKey
  | max
  | mode
  | overflow
deriving DecidableEq, Repr

/-- A decimal number. -/
def Decimal (s : Bytes) : Prop := s ≠ [] ∧ ∀ b ∈ s, 48 ≤ b ∧ b ≤ 57

instance (s : Bytes) : Decidable (Decimal s) := inferInstanceAs (Decidable (_ ∧ _))

/-- The value of a decimal number. -/
def numberOf (s : Bytes) : ℕ := Nat.ofDigits 10 (s.reverse.map fun b => b.toNat - 48)

/-- What `ngx_atoi` is for: it reads decimal numbers up to `NGX_MAX_INT_T_VALUE`, and returns
`NGX_ERROR` for all other texts. -/
structure ServersEnv.Atoi (env : ServersEnv) : Prop where
  number : ∀ s, Decimal s → numberOf s ≤ env.maxInt → env.atoi s = numberOf s
  error : ∀ s, ¬ (Decimal s ∧ numberOf s ≤ env.maxInt) → env.atoi s = -1

/-- The overflow policy with a name. -/
def Overflow.named (name : Bytes) : Overflow := if name = ascii "reject" then .reject else .ignore

namespace KeepaliveKey

def text : KeepaliveKey → Bytes
  | max => ascii "max="
  | mode => ascii "mode="
  | overflow => ascii "overflow="

lemma text_separate (k k' : KeepaliveKey) (h : k.text <+: k'.text) : k = k' := by
  revert h
  cases k <;> cases k' <;> decide

lemma zero_notMem_text (k : KeepaliveKey) : 0 ∉ k.text := by
  cases k <;> decide

/-- The values that the grammar allows. -/
def Allows (env : ServersEnv) : KeepaliveKey → Bytes → Prop
  | max, v => Decimal v ∧ numberOf v ≤ env.maxInt
  | mode, v => v = ascii "single" ∨ v = ascii "multi"
  | overflow, v => v = ascii "reject" ∨ v = ascii "ignore"

/-- What a pass does once it has found the key. -/
def read (env : ServersEnv) (dscf : DrizzleSrvConf) (k : KeepaliveKey) (v : Bytes) :
    Except ConfFailure DrizzleSrvConf :=
  match k with
  | max =>
    if env.atoi v = -1 ∨ env.atoi v < 0 then
      .error (.error (.logged "invalid \"max\" value \"%V\" in \"drizzle_keepalive\" directive"
        (text max ++ v)))
    else .ok { dscf with maxCached := .ofNat (env.atoi v).toNat }
  | mode =>
    if v = ascii "single" then .ok { dscf with single := true }
    else if v = ascii "multi" then .ok { dscf with single := false }
    else .error (.error (.logged "drizzle: invalid parameter \"%V\"" (text mode ++ v)))
  | overflow =>
    if v = ascii "reject" then .ok { dscf with overflow := .reject }
    else if v = ascii "ignore" then .ok { dscf with overflow := .ignore }
    else .error (.error (.logged "drizzle: invalid parameter \"%V\"" (text overflow ++ v)))

/-- What an option changes. -/
def store (k : KeepaliveKey) (v : Bytes) (dscf : DrizzleSrvConf) : DrizzleSrvConf :=
  match k with
  | max => { dscf with maxCached := .ofNat (numberOf v) }
  | mode => { dscf with single := v = ascii "single" }
  | overflow => { dscf with overflow := .named v }

end KeepaliveKey

/-- The grammar of the options of `drizzle_keepalive`. -/
def keepaliveKeys : Keys KeepaliveKey UInt8 := ⟨KeepaliveKey.text, KeepaliveKey.text_separate⟩

/-- An option of the grammar of `drizzle_keepalive`. -/
def KeepaliveOption (env : ServersEnv) (option : Bytes) : Prop :=
  keepaliveKeys.Grammar (KeepaliveKey.Allows env) option

section ReadKeepalive

variable {env : ServersEnv} {dscf : DrizzleSrvConf} {k : KeepaliveKey} {v value : Bytes}

lemma strcmpConst_text : strncmp value k.text k.text.length = true ↔ k.text <+: value :=
  strncmp_iff_begins k.zero_notMem_text

lemma key_of_strcmpConst (k' : KeepaliveKey)
    (h : strncmp (k.text ++ v) k'.text k'.text.length = true) : k' = k := by
  obtain ⟨v', hv'⟩ := strcmpConst_text.mp h
  exact (keepaliveKeys.append_inj.mp hv').1

lemma zero_notMem_single : 0 ∉ ascii "single" := by decide

lemma zero_notMem_multi : 0 ∉ ascii "multi" := by decide

lemma zero_notMem_reject : 0 ∉ ascii "reject" := by decide

lemma zero_notMem_ignore : 0 ∉ ascii "ignore" := by decide

lemma readKeepaliveOption_text :
    readKeepaliveOption env dscf (k.text ++ v) = k.read env dscf v := by
  have hdrop : ∀ k : KeepaliveKey, (k.text ++ v).drop k.text.length = v := fun _ => List.drop_left
  have hself : strncmp (k.text ++ v) k.text k.text.length = true :=
    strcmpConst_text.mpr (List.prefix_append _ _)
  have hsingle : (v.length = 6 ∧ strncmp v (ascii "single") 6 = true) ↔ v = ascii "single" :=
    strncmp_iff_eq zero_notMem_single
  have hmulti : (v.length = 5 ∧ strncmp v (ascii "multi") 5 = true) ↔ v = ascii "multi" :=
    strncmp_iff_eq zero_notMem_multi
  have hreject : (v.length = 6 ∧ strncmp v (ascii "reject") 6 = true) ↔ v = ascii "reject" :=
    strncmp_iff_eq zero_notMem_reject
  have hignore : (v.length = 6 ∧ strncmp v (ascii "ignore") 6 = true) ↔ v = ascii "ignore" :=
    strncmp_iff_eq zero_notMem_ignore
  unfold readKeepaliveOption
  split
  · next hkey =>
    obtain rfl := key_of_strcmpConst .max hkey
    rw [show List.drop (size "max=") _ = v from hdrop .max]
    rfl
  · next hmax =>
    split
    · next hkey =>
      obtain rfl := key_of_strcmpConst .mode hkey
      rw [show List.drop (size "mode=") _ = v from hdrop .mode]
      simp only [hsingle, hmulti]
      rfl
    · next hmode =>
      split
      · next hkey =>
        obtain rfl := key_of_strcmpConst .overflow hkey
        rw [show List.drop (size "overflow=") _ = v from hdrop .overflow]
        simp only [hreject, hignore]
        rfl
      · next hoverflow =>
        -- one of the tests is that for the key
        cases k with
        | max => exact absurd hself hmax
        | mode => exact absurd hself hmode
        | overflow => exact absurd hself hoverflow

lemma readKeepaliveOption_unknown (h : ∀ k : KeepaliveKey, ¬ k.text <+: value) :
    readKeepaliveOption env dscf value = .error (.error (.logged
      "drizzle: invalid parameter \"%V\" in \"drizzle_keepalive\" directive" value)) := by
  have hne : ∀ k : KeepaliveKey, ¬ strncmp value k.text k.text.length = true :=
    fun k hk => h k (strcmpConst_text.mp hk)
  exact (if_neg (hne .max)).trans <| (if_neg (hne .mode)).trans (if_neg (hne .overflow))

lemma KeepaliveKey.read_allows (hatoi : env.Atoi) (h : k.Allows env v) :
    k.read env dscf v = .ok (k.store v dscf) := by
  cases k with
  | max =>
    have hn : env.atoi v = numberOf v := hatoi.number v h.1 h.2
    have hpos : ¬ (env.atoi v = -1 ∨ env.atoi v < 0) := by omega
    rw [read, if_neg hpos, hn, Int.toNat_natCast]
    rfl
  | mode =>
    rcases h with rfl | rfl
    · rfl
    · rfl
  | overflow =>
    rcases h with rfl | rfl
    · rfl
    · rfl

lemma KeepaliveKey.read_bad (hatoi : env.Atoi) (h : ¬ k.Allows env v) :
    ∃ e, k.read env dscf v = .error (.error e) := by
  cases k with
  | max => exact ⟨_, if_pos (.inl (hatoi.error v h))⟩
  | mode =>
    rw [Allows, not_or] at h
    exact ⟨_, (if_neg h.1).trans (if_neg h.2)⟩
  | overflow =>
    rw [Allows, not_or] at h
    exact ⟨_, (if_neg h.1).trans (if_neg h.2)⟩

lemma readKeepaliveOption_error (hatoi : env.Atoi) {f : ConfFailure}
    (h : readKeepaliveOption env dscf value = .error f) : ∃ e, f = .error e := by
  by_cases hkey : ∃ k : KeepaliveKey, k.text <+: value
  · obtain ⟨k, v, rfl⟩ := hkey
    rw [readKeepaliveOption_text] at h
    by_cases hallows : k.Allows env v
    · rw [k.read_allows hatoi hallows] at h
      cases h
    · obtain ⟨e, he⟩ : ∃ e, k.read env dscf v = .error (.error e) := k.read_bad hatoi hallows
      rw [he] at h
      cases h
      exact ⟨e, rfl⟩
  · rw [readKeepaliveOption_unknown fun k hk => hkey ⟨k, hk⟩] at h
    cases h
    exact ⟨_, rfl⟩

lemma readKeepaliveOption_reads (hatoi : env.Atoi) :
    keepaliveKeys.Reads id (readKeepaliveOption env) (fun _ => KeepaliveKey.Allows env)
      KeepaliveKey.store where
  ok := by
    rintro dscf _ k v rfl h
    exact readKeepaliveOption_text.trans (k.read_allows hatoi h)
  bad := by
    rintro dscf _ k v rfl h
    obtain ⟨e, he⟩ := k.read_bad hatoi h
    exact ⟨_, readKeepaliveOption_text.trans he⟩
  unknown := by
    rintro dscf value h
    exact ⟨_, readKeepaliveOption_unknown h⟩

end ReadKeepalive

/-! ## drizzle_keepalive -/

/-- The configuration with the settings that options give for the pool. -/
def DrizzleSrvConf.pooled (dscf : DrizzleSrvConf) (options : List Bytes) : DrizzleSrvConf :=
  { dscf with
    maxCached := ((keepaliveKeys.last .max options).map fun v =>
      .ofNat (numberOf v)).getD dscf.maxCached
    single := ((keepaliveKeys.last .mode options).map fun v =>
      decide (v = ascii "single")).getD dscf.single
    overflow := ((keepaliveKeys.last .overflow options).map Overflow.named).getD dscf.overflow }

lemma readKeepaliveOptions_stored {env : ServersEnv} (hatoi : env.Atoi) {options : List Bytes}
    {dscf dscf' : DrizzleSrvConf}
    (h : options.foldlM (readKeepaliveOption env) dscf = .ok dscf') :
    dscf' = dscf.pooled options := by
  have hreads := readKeepaliveOption_reads hatoi
  have hpeers := hreads.keeps (g := DrizzleSrvConf.peers) (fun b k v => by cases k <;> rfl) h
  have hservers := hreads.keeps (g := DrizzleSrvConf.servers) (fun b k v => by cases k <;> rfl) h
  have hinit := hreads.keeps (g := DrizzleSrvConf.initUpstream) (fun b k v => by cases k <;> rfl) h
  have hmax := hreads.get (g := DrizzleSrvConf.maxCached) (k := .max)
    (f := fun v => some (.ofNat (numberOf v)))
    (fun b k v hk => by cases k <;> first | rfl | exact absurd rfl hk) (fun _ _ _ _ => rfl) h
  have hmode := hreads.get (g := DrizzleSrvConf.single) (k := .mode)
    (f := fun v => some (decide (v = ascii "single")))
    (fun b k v hk => by cases k <;> first | rfl | exact absurd rfl hk) (fun _ _ _ _ => rfl) h
  have hoverflow := hreads.get (g := DrizzleSrvConf.overflow) (k := .overflow)
    (f := fun v => some (Overflow.named v))
    (fun b k v hk => by cases k <;> first | rfl | exact absurd rfl hk) (fun _ _ _ _ => rfl) h
  have hmap : ∀ {γ : Type} (k : KeepaliveKey) (g : Bytes → γ), innermost (fun option =>
      (keepaliveKeys.value k option).bind fun v => some (g v)) options =
        (keepaliveKeys.last k options).map g := by
    intro γ k g
    rw [Keys.last, ← innermost_map]
    exact congrArg (fun f => innermost f options) (funext fun _ => Option.map_eq_bind.symm)
  ext1
  case peers => exact hpeers
  case servers => exact hservers
  case initUpstream => exact hinit
  case maxCached => exact hmax.trans (congrArg (Option.getD · dscf.maxCached) (hmap .max _))
  case single =>
    exact hmode.trans (congrArg (Option.getD · dscf.single) (hmap .mode _))
  case overflow =>
    exact hoverflow.trans (congrArg (Option.getD · dscf.overflow) (hmap .overflow _))

section Keepalive

variable {env : ServersEnv} {options : List Bytes} {dscf dscf' : DrizzleSrvConf}

lemma drizzleKeepalive_isOk (hatoi : env.Atoi) :
    (∃ dscf', drizzleKeepalive env options dscf = .ok dscf') ↔
      dscf.maxCached = 0 ∧ ∀ option ∈ options, KeepaliveOption env option := by
  rw [drizzleKeepalive]
  split
  · next hmax =>
    constructor
    · rintro ⟨dscf', h⟩
      cases h
    · rintro ⟨h, _⟩
      exact absurd h hmax
  · next hmax =>
    rw [and_iff_right (not_not.mp hmax), foldlM_isOk (readKeepaliveOption_reads hatoi).step_isOk]
    rfl

lemma drizzleKeepalive_error (hatoi : env.Atoi) {f : ConfFailure}
    (h : drizzleKeepalive env options dscf = .error f) : ∃ e, f = .error e := by
  rw [drizzleKeepalive] at h
  split at h
  · cases h
    exact ⟨_, rfl⟩
  · obtain ⟨_, value, _, _, _, _, hvalue⟩ := foldlM_eq_error.mp h
    exact readKeepaliveOption_error hatoi hvalue

lemma drizzleKeepalive_stored (hatoi : env.Atoi)
    (h : drizzleKeepalive env options dscf = .ok dscf') : dscf' = dscf.pooled options := by
  rw [drizzleKeepalive] at h
  split at h
  · cases h
  · exact readKeepaliveOptions_stored hatoi h

end Keepalive

/-- **Reading the settings of a pool.**  `drizzle_keepalive` succeeds exactly when no capacity has
been set and all options are in the grammar; then each setting has its last value, and the others
stay.  It never dereferences `NULL`: in all other cases it returns an error. -/
theorem drizzleKeepalive_outcome (env : ServersEnv) (hatoi : env.Atoi) (options : List Bytes)
    (dscf : DrizzleSrvConf) :
    ((∃ dscf', drizzleKeepalive env options dscf = .ok dscf') ↔
      dscf.maxCached = 0 ∧ ∀ option ∈ options, KeepaliveOption env option) ∧
    drizzleKeepalive env options dscf ≠ .error .nullPeers ∧
    ∀ dscf', drizzleKeepalive env options dscf = .ok dscf' → dscf' = dscf.pooled options := by
  refine ⟨drizzleKeepalive_isOk hatoi, ?_, fun _ => drizzleKeepalive_stored hatoi⟩
  intro h
  obtain ⟨e, he⟩ := drizzleKeepalive_error hatoi h
  cases he

/-- `ngx_atoi` for 64 bits. -/
def sampleAtoi (s : Bytes) : ℤ := if Decimal s ∧ numberOf s ≤ 2 ^ 63 - 1 then numberOf s else -1

lemma sampleAtoi_spec : (ServersEnv.sample sampleAtoi).Atoi where
  number _ hs hle := if_pos ⟨hs, hle⟩
  error _ hs := if_neg hs

set_option maxRecDepth 4000 in
theorem drizzleKeepalive_outcome_reject : ∃ dscf',
    drizzleKeepalive (.sample sampleAtoi) [ascii "max=10", ascii "overflow=reject"] .create =
        .ok dscf' ∧
      dscf'.maxCached = 10 ∧ dscf'.overflow = .reject := by
  have h : drizzleKeepalive (.sample sampleAtoi) [ascii "max=10", ascii "overflow=reject"] .create =
      .ok { DrizzleSrvConf.create with maxCached := 10, overflow := .reject } := rfl
  have hpooled := (drizzleKeepalive_outcome _ sampleAtoi_spec _ _).2.2 _ h
  exact ⟨_, hpooled ▸ h, rfl, rfl⟩

/-! ## Upstream blocks -/

/-- The server that a directive describes. -/
def UpstreamDirective.server? (env : ServersEnv) : UpstreamDirective → Option DrizzleServer
  | server url options => (env.parseUrl url).toOption.map fun u => .described u options
  | keepalive _ => none

/-- The options that a directive has for the pool. -/
def UpstreamDirective.poolOptions : UpstreamDirective → List Bytes
  | server _ _ => []
  | keepalive options => options

/-- The options of a directive are in its grammar. -/
def UpstreamDirective.Grammatical (env : ServersEnv) : UpstreamDirective → Prop
  | server _ options => ∀ option ∈ options, ServerOption env option
  | keepalive options => ∀ option ∈ options, KeepaliveOption env option

/-- What has been read of a block. -/
structure ReadSoFar (env : ServersEnv) (directives : List UpstreamDirective)
    (dscf : DrizzleSrvConf) : Prop where
  peers : dscf.peers = none
  servers : dscf.servers.getD [] = directives.filterMap (UpstreamDirective.server? env)
  maxCached : dscf.maxCached = ((keepaliveKeys.last .max
    (directives.flatMap UpstreamDirective.poolOptions)).map fun v => .ofNat (numberOf v)).getD 0
  single : dscf.single = ((keepaliveKeys.last .mode
    (directives.flatMap UpstreamDirective.poolOptions)).map fun v =>
      decide (v = ascii "single")).getD false
  overflow : dscf.overflow = ((keepaliveKeys.last .overflow
    (directives.flatMap UpstreamDirective.poolOptions)).map Overflow.named).getD .ignore
  grammatical : ∀ d ∈ directives, d.Grammatical env

section Blocks

variable {env : ServersEnv} {directives : List UpstreamDirective} {d : UpstreamDirective}
  {dscf dscf' : DrizzleSrvConf}

lemma ReadSoFar.nil : ReadSoFar env [] .create where
  peers := rfl
  servers := rfl
  maxCached := rfl
  single := rfl
  overflow := rfl
  grammatical := by
    intro d hd
    cases hd

/-- The handler of a directive reads what the directive says. -/
lemma ReadSoFar.concat (hatoi : env.Atoi) (h : ReadSoFar env directives dscf)
    (hd : d.handle env dscf = .ok dscf') : ReadSoFar env (directives ++ [d]) dscf' := by
  cases d with
  | server url options =>
    obtain ⟨_, hgrammar, _⟩ := (drizzleServer_isOk h.peers).mp ⟨dscf', hd⟩
    obtain ⟨u, hu, rfl⟩ : ∃ u, env.parseUrl url = .ok u ∧
      dscf' = dscf.push (.described u options) := drizzleServer_stored h.peers hd
    have hoptions :
        (directives ++ [UpstreamDirective.server url options]).flatMap
          UpstreamDirective.poolOptions =
        directives.flatMap UpstreamDirective.poolOptions := by
      rw [List.flatMap_append]
      exact List.append_nil _
    constructor
    case peers => exact h.peers
    case servers =>
      rw [List.filterMap_append, ← h.servers]
      change dscf.servers.getD [] ++ [.described u options] = _
      rw [List.filterMap_cons, UpstreamDirective.server?, hu]
      rfl
    case maxCached => exact hoptions ▸ h.maxCached
    case single => exact hoptions ▸ h.single
    case overflow => exact hoptions ▸ h.overflow
    case grammatical =>
      intro d hmem
      rcases List.mem_append.mp hmem with hmem | hmem
      · exact h.grammatical d hmem
      · obtain rfl := List.mem_singleton.mp hmem
        exact hgrammar
  | keepalive options =>
    obtain ⟨_, hgrammar⟩ := (drizzleKeepalive_isOk hatoi).mp ⟨dscf', hd⟩
    obtain rfl : dscf' = dscf.pooled options := drizzleKeepalive_stored hatoi hd
    have hoptions : (directives ++ [UpstreamDirective.keepalive options]).flatMap
        UpstreamDirective.poolOptions =
          directives.flatMap UpstreamDirective.poolOptions ++ options := by
      rw [List.flatMap_append]
      exact congrArg (_ ++ ·) (List.append_nil options)
    constructor
    case peers => exact h.peers
    case servers =>
      rw [List.filterMap_append, ← h.servers]
      exact (List.append_nil _).symm
    case maxCached =>
      rw [hoptions, Keys.last_append, ← h.maxCached]
      rfl
    case single =>
      rw [hoptions, Keys.last_append, ← h.single]
      rfl
    case overflow =>
      rw [hoptions, Keys.last_append, ← h.overflow]
      rfl
    case grammatical =>
      intro d hmem
      rcases List.mem_append.mp hmem with hmem | hmem
      · exact h.grammatical d hmem
      · obtain rfl := List.mem_singleton.mp hmem
        exact hgrammar

/-- A block that is accepted has been read as a whole. -/
theorem readUpstream_reads (hatoi : env.Atoi) (h : readUpstream env directives = .ok dscf) :
    ReadSoFar env directives dscf :=
  foldlM_induction (I := fun directives dscf => ReadSoFar env directives dscf) .nil
    (fun _ _ _ _ hread hd => hread.concat hatoi hd) h

/-- The capacity of the pool is the number that is written. -/
lemma ReadSoFar.capacity (h : ReadSoFar env directives dscf) : dscf.maxCached.toNat =
    ((keepaliveKeys.last .max
      (directives.flatMap UpstreamDirective.poolOptions)).map numberOf).getD 0 := by
  rw [h.maxCached]
  cases hlast : keepaliveKeys.last .max (directives.flatMap UpstreamDirective.poolOptions) with
  | none => rfl
  | some v =>
    obtain ⟨before, option, after, hoptions, hv, _⟩ := innermost_eq_some.mp hlast
    obtain ⟨d, hd, hoption⟩ := List.mem_flatMap.mp (hoptions ▸
      List.mem_append_right before (List.mem_cons_self (a := option) (l := after)))
    have hallows : KeepaliveOption env option := by
      cases d with
      | server url options => cases hoption
      | keepalive options => exact h.grammatical _ hd option hoption
    rw [keepaliveKeys.value_eq_some.mp hv] at hallows
    obtain ⟨_, hle⟩ : Decimal v ∧ numberOf v ≤ env.maxInt := keepaliveKeys.grammar_append.mp hallows
    have hlt := env.maxInt_lt
    exact UInt64.toNat_ofNat_of_lt' (show numberOf v < 2 ^ 64 by omega)

end Blocks

/-! ## The peers of a block -/

/-- The limits of libdrizzle hold for a peer, and the query for its charset sets one charset. -/
structure Peer.Sound (env : ServersEnv) (p : Peer) : Prop where
  user : p.user = [] ∨ p.user.length < env.maxUserSize
  password : p.password = [] ∨ p.password.length < env.maxPasswordSize
  dbname : p.dbname = [] ∨ p.dbname.length < env.maxDbSize
  query : p.setNamesQuery = [] ∨ ∃ charset, charset ≠ [] ∧ 39 ∉ charset ∧
    p.setNamesQuery = ascii "set names '" ++ charset ++ ascii "'"

section Peers

variable {env : ServersEnv} {ienv : InitEnv} {options : List Bytes} {k : ServerKey} {u : Url}
  {v : Bytes} {p : Peer}

lemma last_allows (h : ∀ option ∈ options, ServerOption env option)
    (hlast : serverKeys.last k options = some v) : k.Allows env v := by
  obtain ⟨before, option, after, rfl, hv, _⟩ := innermost_eq_some.mp hlast
  have hoption := h option (List.mem_append_right _ List.mem_cons_self)
  rw [serverKeys.value_eq_some.mp hv] at hoption
  exact serverKeys.grammar_append.mp hoption

lemma last_getD_allows (h : ∀ option ∈ options, ServerOption env option) :
    (serverKeys.last k options).getD [] = [] ∨
      k.Allows env ((serverKeys.last k options).getD []) := by
  cases hlast : serverKeys.last k options with
  | none => exact .inl rfl
  | some v => exact .inr (last_allows h hlast)

@[simp] lemma NgxStr.bytes_full (bytes : Bytes) : (NgxStr.full bytes).bytes = bytes := by
  rw [NgxStr.bytes, NgxStr.full, List.take_of_length_le (by simp), List.filterMap_map]
  exact List.filterMap_some

/-- The peers of a server whose options are in the grammar. -/
lemma sound_of_described (h : ∀ option ∈ options, ServerOption env option)
    (hp : p ∈ (DrizzleServer.described u options).toPeers ienv) : p.Sound env := by
  obtain ⟨addr, _, rfl⟩ := List.mem_map.mp hp
  constructor
  case user => exact last_getD_allows h
  case password => exact last_getD_allows h
  case dbname => exact last_getD_allows h
  case query =>
    change (DrizzleServer.described u options).setNamesQuery.bytes = [] ∨ _
    rw [DrizzleServer.described]
    cases hlast : innermost charsetOf options with
    | none => exact .inl rfl
    | some charset =>
      right
      obtain ⟨before, option, after, rfl, hcharset, _⟩ := innermost_eq_some.mp hlast
      obtain ⟨hvalue, hne⟩ := Option.filter_eq_some_iff.mp hcharset
      have hoption := h option (List.mem_append_right _ List.mem_cons_self)
      rw [serverKeys.value_eq_some.mp hvalue] at hoption
      refine ⟨charset, by simpa using hne, serverKeys.grammar_append.mp hoption, ?_⟩
      exact NgxStr.bytes_full _

/-- **From the block to the worker process.**  If an upstream block is accepted, then its peers are
those of its servers, one for each address, in the order in which they are written; the pool has the
last setting of each kind that is written in the block.  All peers keep the limits of libdrizzle,
and a query for a charset has no quotes but those around it.  `peers` is `NULL` as long as
directives are read. -/
theorem upstream_conf (env : ServersEnv) (hatoi : env.Atoi) (ienv : InitEnv) (host : Bytes)
    (directives : List UpstreamDirective) (dscf dscf' : DrizzleSrvConf)
    (hread : readUpstream env directives = .ok dscf)
    (hinit : drizzleInit ienv host dscf = .ok dscf')
    (addConn : Bool) (endian : Rds.Endian) :
    dscf.peers = none ∧ ∃ conf, dscf'.conf addConn endian = some conf ∧
      conf.peers = initPeers ienv (directives.filterMap (UpstreamDirective.server? env)) ∧
      conf.maxCached = ((keepaliveKeys.last .max
        (directives.flatMap UpstreamDirective.poolOptions)).map numberOf).getD 0 ∧
      conf.single = ((keepaliveKeys.last .mode
        (directives.flatMap UpstreamDirective.poolOptions)).map fun v =>
          decide (v = ascii "single")).getD false ∧
      conf.overflow = ((keepaliveKeys.last .overflow
        (directives.flatMap UpstreamDirective.poolOptions)).map Overflow.named).getD .ignore ∧
      ∀ p ∈ conf.peers, p.Sound env := by
  have h := readUpstream_reads hatoi hread
  obtain ⟨server, servers, hservers, rfl⟩ :
      ∃ server servers, dscf.servers = some (server :: servers) ∧
      dscf' = { dscf with peers := some {
        name := host
        peer := initPeers ienv (server :: servers)
        peer_pos := initPeers_pos ienv server servers } } := by
    unfold drizzleInit at hinit
    split at hinit
    · next server servers hservers =>
      dsimp only at hinit
      split at hinit
      · cases hinit
      · split at hinit
        · cases hinit
        · split at hinit
          · cases hinit
          · exact ⟨server, servers, hservers, (Except.ok.inj hinit).symm⟩
    · cases hinit
  have hlist : server :: servers = directives.filterMap (UpstreamDirective.server? env) := by
    rw [← h.servers, hservers]
    rfl
  refine ⟨h.peers, _, rfl, congrArg (initPeers ienv) hlist, h.capacity, h.single, h.overflow, ?_⟩
  intro p hp
  change p ∈ initPeers ienv (server :: servers) at hp
  rw [hlist] at hp
  obtain ⟨ds, hds, hp⟩ := List.mem_flatMap.mp hp
  obtain ⟨d, hd, hdescribes⟩ := List.mem_filterMap.mp hds
  have hgrammar := h.grammatical d hd
  cases d with
  | keepalive options => cases hdescribes
  | server url options =>
    obtain ⟨u, _, rfl⟩ := Option.map_eq_some_iff.mp hdescribes
    exact sound_of_described hgrammar hp

/-- An upstream with one server and a pool. -/
def oneServer : List UpstreamDirective := [
  .server (ascii "127.0.0.1:3306") [ascii "protocol=mysql", ascii "user=u", ascii "charset=utf8"],
  .keepalive [ascii "max=2"]]

set_option maxRecDepth 4000 in
theorem upstream_conf_oneServer : ∃ conf : Conf, conf.maxCached = 2 ∧
    ∀ p ∈ conf.peers, p.Sound (.sample sampleAtoi) := by
  obtain ⟨_, conf, _, _, hmax, _, _, hsound⟩ := upstream_conf _ sampleAtoi_spec
    { sockNtop := id } (ascii "backend") oneServer _ _ rfl rfl true .little
  exact ⟨conf, hmax, hsound⟩

end Peers
end DrizzleNginx
