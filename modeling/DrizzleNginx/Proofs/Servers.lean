/-
# Servers of an upstream

What the handler of `drizzle_server` accepts, what it stores, and how it fails.  The grammar of the
options is written down without the handler: a key, and a value that the key allows.  No key begins
another one, so each pass of the loop does what the key of its option says.

The handler can fail in a way that is not an error in the configuration.  If a name or a password is
too long, it logs the name of the upstream from `dscf->peers`, which is `NULL` until all directives
have been read.
-/
import DrizzleNginx.Lib.Keyed
import DrizzleNginx.Model.Servers

namespace DrizzleNginx

open Lib

/-! ## Comparing texts -/

section Texts

variable {s word key : Bytes}

lemma takeWhile_of_zero_notMem (hkey : 0 ∉ key) : key.takeWhile (· ≠ 0) = key := by
  rw [List.takeWhile_eq_self_iff]
  intro b hb
  exact decide_eq_true fun h => hkey (h ▸ hb)

/-- A constant without zeros is compared with the beginning of a text. -/
lemma strncmp_iff_begins (hkey : 0 ∉ key) : strncmp s key key.length = true ↔ key <+: s := by
  rw [strncmp, decide_eq_true_iff, takeWhile_of_zero_notMem hkey, List.take_length]
  constructor
  · intro h
    rw [← h]
    exact (List.take_prefix _ _).trans (List.takeWhile_prefix _)
  · rintro ⟨v, rfl⟩
    rw [List.takeWhile_append_of_pos, List.take_left]
    intro b hb
    exact decide_eq_true fun h => hkey (h ▸ hb)

lemma strncmp_iff_eq (hword : 0 ∉ word) :
    (s.length = word.length ∧ strncmp s word word.length = true) ↔ s = word := by
  rw [strncmp_iff_begins hword]
  constructor
  · rintro ⟨hlen, hpre⟩
    exact (hpre.eq_of_length hlen.symm).symm
  · rintro rfl
    exact ⟨rfl, List.prefix_rfl⟩

end Texts

/-! ## The options of drizzle_server -/

/-- The keys of the options of `drizzle_server`. -/
inductive ServerKey
  | dbname
  | user
  | password
  | protocol
  | charset
deriving DecidableEq, Repr

namespace ServerKey

def text : ServerKey → Bytes
  | dbname => ascii "dbname="
  | user => ascii "user="
  | password => ascii "password="
  | protocol => ascii "protocol="
  | charset => ascii "charset="

lemma text_separate (k k' : ServerKey) (h : k.text <+: k'.text) : k = k' := by
  revert h
  cases k <;> cases k' <;> decide

lemma zero_notMem_text (k : ServerKey) : 0 ∉ k.text := by
  cases k <;> decide

/-- The values that the grammar allows. -/
def Allows (env : ServersEnv) : ServerKey → Bytes → Prop
  | dbname, v => v.length < env.maxDbSize
  | user, v => v.length < env.maxUserSize
  | password, v => v.length < env.maxPasswordSize
  | protocol, v => v = ascii "mysql" ∨ v = ascii "drizzle"
  | charset, v => 39 ∉ v

/-- A value that is not allowed because of its length. -/
def TooLong (env : ServersEnv) : ServerKey → Bytes → Prop
  | dbname, v => env.maxDbSize ≤ v.length
  | user, v => env.maxUserSize ≤ v.length
  | password, v => env.maxPasswordSize ≤ v.length
  | protocol, _ => False
  | charset, _ => False

/-- The argument with an index is accepted: there is memory for the query of a charset. -/
def Accepts (env : ServersEnv) (i : ℕ) (k : ServerKey) (v : Bytes) : Prop :=
  k.Allows env v ∧ (k = charset → v ≠ [] → env.palloc i = true)

/-- What a pass does once it has found the key. -/
def read (env : ServersEnv) (dscf : DrizzleSrvConf) (ds : DrizzleServer) (i : ℕ) :
    ServerKey → Bytes → Except ConfFailure DrizzleServer
  | dbname, v =>
    if env.maxDbSize ≤ v.length then .error (dscf.tooLarge "dbname" env.maxDbSize)
    else .ok { ds with dbname := v }
  | user, v =>
    if env.maxUserSize ≤ v.length then .error (dscf.tooLarge "user" env.maxUserSize)
    else .ok { ds with user := v }
  | password, v =>
    if env.maxPasswordSize ≤ v.length then .error (dscf.tooLarge "password" env.maxPasswordSize)
    else .ok { ds with password := v }
  | protocol, v =>
    if v = ascii "mysql" then .ok { ds with protocol := .mysql }
    else if v = ascii "drizzle" then .ok { ds with protocol := .drizzle }
    else .error (.error (.logged "drizzle: invalid protocol \"%V\" in drizzle_server" v))
  | charset, v =>
    if v.length = 0 then .ok ds
    else if 39 ∈ v then
      .error (.error (.logged "bad charste value \"%V\" in drizzle_server" v))
    else if !env.palloc i then .error (.error .failed)
    else .ok { ds with setNamesQuery := setNamesQuery v }

/-- What an option changes. -/
def store (k : ServerKey) (v : Bytes) (ds : DrizzleServer) : DrizzleServer :=
  match k with
  | dbname => { ds with dbname := v }
  | user => { ds with user := v }
  | password => { ds with password := v }
  | protocol => { ds with protocol := if v = ascii "mysql" then .mysql else .drizzle }
  | charset =>
    { ds with setNamesQuery := if v = [] then ds.setNamesQuery else setNamesQuery v }

end ServerKey

/-- The grammar of the options of `drizzle_server`. -/
def serverKeys : Keys ServerKey UInt8 := ⟨ServerKey.text, ServerKey.text_separate⟩

section ReadServer

variable {env : ServersEnv} {dscf : DrizzleSrvConf} {ds : DrizzleServer} {k : ServerKey}
  {v value : Bytes} {i : ℕ}

lemma strncmp_text : strncmp value k.text k.text.length = true ↔ k.text <+: value :=
  strncmp_iff_begins k.zero_notMem_text

/-- The test that succeeds is the one for the key of the option. -/
lemma key_of_strncmp (k' : ServerKey)
    (h : strncmp (k.text ++ v) k'.text k'.text.length = true) : k' = k := by
  obtain ⟨v', hv'⟩ := strncmp_text.mp h
  exact (serverKeys.append_inj.mp hv').1

lemma zero_notMem_mysql : 0 ∉ ascii "mysql" := by decide

lemma zero_notMem_drizzle : 0 ∉ ascii "drizzle" := by decide

lemma readServerOption_text :
    readServerOption env dscf ds (k.text ++ v, i) = k.read env dscf ds i v := by
  have hdrop : ∀ k : ServerKey, (k.text ++ v).drop k.text.length = v := fun _ => List.drop_left
  have hself : strncmp (k.text ++ v) k.text k.text.length = true :=
    strncmp_text.mpr (List.prefix_append _ _)
  unfold readServerOption
  dsimp only
  split
  · next hkey =>
    obtain rfl := key_of_strncmp .dbname hkey
    rw [show List.drop (size "dbname=") _ = v from hdrop .dbname]
    rfl
  · next hdbname =>
    split
    · next hkey =>
      obtain rfl := key_of_strncmp .user hkey
      rw [show List.drop (size "user=") _ = v from hdrop .user]
      rfl
    · next huser =>
      split
      · next hkey =>
        obtain rfl := key_of_strncmp .password hkey
        rw [show List.drop (size "password=") _ = v from hdrop .password]
        rfl
      · next hpassword =>
        split
        · next hkey =>
          obtain rfl := key_of_strncmp .protocol hkey
          have hmysql : (v.length = 5 ∧ strncmp v (ascii "mysql") 5 = true) ↔ v = ascii "mysql" :=
            strncmp_iff_eq zero_notMem_mysql
          have hdrizzle : (v.length = 7 ∧ strncmp v (ascii "drizzle") 7 = true) ↔
              v = ascii "drizzle" := strncmp_iff_eq zero_notMem_drizzle
          rw [show List.drop (size "protocol=") _ = v from hdrop .protocol]
          simp only [hmysql, hdrizzle]
          rfl
        · next hprotocol =>
          split
          · next hkey =>
            obtain rfl := key_of_strncmp .charset hkey
            rw [show List.drop (size "charset=") _ = v from hdrop .charset]
            rfl
          · next hcharset =>
            -- one of the tests is that for the key
            cases k with
            | dbname => exact absurd hself hdbname
            | user => exact absurd hself huser
            | password => exact absurd hself hpassword
            | protocol => exact absurd hself hprotocol
            | charset => exact absurd hself hcharset

lemma readServerOption_unknown (h : ∀ k : ServerKey, ¬ k.text <+: value) :
    readServerOption env dscf ds (value, i) =
      .error (.error (.logged "invalid parameter \"%V\" in drizzle_server" value)) := by
  have hne : ∀ k : ServerKey, ¬ strncmp value k.text k.text.length = true :=
    fun k hk => h k (strncmp_text.mp hk)
  exact (if_neg (hne .dbname)).trans <| (if_neg (hne .user)).trans <|
    (if_neg (hne .password)).trans <| (if_neg (hne .protocol)).trans (if_neg (hne .charset))

/-- The handler goes on exactly with the options that are accepted. -/
lemma ServerKey.read_accepts (h : k.Accepts env i v) :
    k.read env dscf ds i v = .ok (k.store v ds) := by
  obtain ⟨hallows, hmem⟩ := h
  cases k with
  | dbname => exact if_neg (Nat.not_le.mpr hallows)
  | user => exact if_neg (Nat.not_le.mpr hallows)
  | password => exact if_neg (Nat.not_le.mpr hallows)
  | protocol =>
    rcases hallows with rfl | rfl
    · rfl
    · rfl
  | charset =>
    by_cases hv : v = []
    · subst hv
      rfl
    · have hlen : v.length ≠ 0 := fun h => hv (List.length_eq_zero_iff.mp h)
      have hpalloc := hmem rfl hv
      simp only [read, store, hlen, hv, if_false, hpalloc]
      exact if_neg hallows

lemma ServerKey.read_tooLong (h : k.TooLong env v) (hnull : dscf.peers = none) :
    k.read env dscf ds i v = .error .nullPeers := by
  have hlarge : ∀ field limit, dscf.tooLarge field limit = .nullPeers := by
    intro field limit
    rw [DrizzleSrvConf.tooLarge, hnull]
  cases k with
  | dbname => exact (if_pos h).trans (congrArg Except.error (hlarge _ _))
  | user => exact (if_pos h).trans (congrArg Except.error (hlarge _ _))
  | password => exact (if_pos h).trans (congrArg Except.error (hlarge _ _))
  | protocol => exact h.elim
  | charset => exact h.elim

lemma ServerKey.read_bad (h : ¬ k.Accepts env i v) (hlong : ¬ k.TooLong env v) :
    ∃ e, k.read env dscf ds i v = .error (.error e) := by
  have hfree : ∀ k : ServerKey, k ≠ .charset → (k = .charset → v ≠ [] → env.palloc i = true) :=
    fun k hne hk => absurd hk hne
  cases k with
  | dbname => exact absurd ⟨Nat.not_le.mp hlong, hfree _ (by decide)⟩ h
  | user => exact absurd ⟨Nat.not_le.mp hlong, hfree _ (by decide)⟩ h
  | password => exact absurd ⟨Nat.not_le.mp hlong, hfree _ (by decide)⟩ h
  | protocol =>
    have hne : ¬ (v = ascii "mysql" ∨ v = ascii "drizzle") := fun hv => h ⟨hv, hfree _ (by decide)⟩
    rw [not_or] at hne
    exact ⟨_, (if_neg hne.1).trans (if_neg hne.2)⟩
  | charset =>
    have hv : v.length ≠ 0 := by
      intro hv
      obtain rfl := List.length_eq_zero_iff.mp hv
      exact h ⟨List.not_mem_nil, fun _ hne => absurd rfl hne⟩
    by_cases hquote : 39 ∈ v
    · exact ⟨_, (if_neg hv).trans (if_pos hquote)⟩
    · have hpalloc : env.palloc i = false := by
        rw [← Bool.not_eq_true]
        exact fun hp => h ⟨hquote, fun _ _ => hp⟩
      refine ⟨.failed, (if_neg hv).trans ((if_neg hquote).trans (if_pos ?_))⟩
      rw [hpalloc]
      rfl

lemma readServerOption_reads (hnull : dscf.peers = none) :
    serverKeys.Reads Prod.fst (readServerOption env dscf) (fun arg => ServerKey.Accepts env arg.2)
      ServerKey.store where
  ok := by
    rintro ds ⟨value, i⟩ k v rfl h
    exact readServerOption_text.trans (k.read_accepts h)
  bad := by
    rintro ds ⟨value, i⟩ k v rfl h
    rw [show readServerOption env dscf ds (serverKeys.text k ++ v, i) = _ from
      readServerOption_text]
    by_cases hlong : k.TooLong env v
    · exact ⟨_, k.read_tooLong hlong hnull⟩
    · obtain ⟨e, he⟩ := k.read_bad h hlong
      exact ⟨_, he⟩
  unknown := by
    rintro ds ⟨value, i⟩ h
    exact ⟨_, readServerOption_unknown h⟩

/-- The pointer is dereferenced exactly at an option that is too long. -/
lemma readServerOption_nullPeers (hnull : dscf.peers = none) (ds : DrizzleServer)
    (arg : Bytes × ℕ) : readServerOption env dscf ds arg = .error .nullPeers ↔
      serverKeys.Grammar (ServerKey.TooLong env) arg.1 := by
  obtain ⟨value, i⟩ := arg
  by_cases hkey : ∃ k : ServerKey, k.text <+: value
  · obtain ⟨k, v, rfl⟩ := hkey
    rw [readServerOption_text]
    refine Iff.trans ?_ (serverKeys.grammar_append (k := k)).symm
    constructor
    · intro h
      by_contra hlong
      by_cases haccepts : k.Accepts env i v
      · rw [k.read_accepts haccepts] at h
        cases h
      · obtain ⟨e, he⟩ : ∃ e, k.read env dscf ds i v = .error (.error e) :=
          k.read_bad haccepts hlong
        rw [he] at h
        cases h
    · intro hlong
      exact k.read_tooLong hlong hnull
  · rw [readServerOption_unknown fun k hk => hkey ⟨k, hk⟩]
    constructor
    · intro h
      cases h
    · rintro ⟨k, v, hv, _⟩
      exact absurd ⟨k, v, hv.symm⟩ hkey

end ReadServer

/-! ## The query for a charset -/

/-- A text that fills its memory. -/
def NgxStr.full (bytes : Bytes) : NgxStr := { data := bytes.map some, len := bytes.length }

/-- A copy behind what has been written. -/
lemma ngxCopy_written (written src : Bytes) (n : ℕ) :
    ngxCopy (written.map some ++ List.replicate n none, written.length) src =
      ((written ++ src).map some ++ List.replicate (n - src.length) none,
        (written ++ src).length) := by
  have htake : (written.map some ++ List.replicate n none).take written.length =
      written.map (some : UInt8 → _) := by
    rw [List.take_append_of_le_length (by simp), List.take_of_length_le (by simp)]
  have hdrop : (written.map some ++ List.replicate n (none : Option UInt8)).drop
      (written.length + src.length) = List.replicate (n - src.length) none := by
    rw [← List.drop_drop, List.drop_left' (by simp), List.drop_replicate]
  rw [ngxCopy, htake, hdrop, List.map_append, List.length_append]

/-- The query fills the memory that is allocated for it. -/
theorem setNamesQuery_eq (charset : Bytes) :
    setNamesQuery charset = .full (ascii "set names '" ++ charset ++ ascii "'") := by
  obtain ⟨head, hhead⟩ : ∃ head, head = ascii "set names '" := ⟨_, rfl⟩
  have hlen : size "set names ''" + charset.length = head.length + (charset.length + 1) := by
    rw [hhead, show size "set names ''" = (ascii "set names '").length + 1 from rfl]
    omega
  have hone : (ascii "'").length = 1 := rfl
  have h₁ : ngxCopy (List.replicate (head.length + (charset.length + 1)) none, 0) head =
      (head.map some ++ List.replicate (charset.length + 1) none, head.length) := by
    have h := ngxCopy_written [] head (head.length + (charset.length + 1))
    rwa [Nat.add_sub_cancel_left] at h
  have h₂ := ngxCopy_written head charset (charset.length + 1)
  have h₃ := ngxCopy_written (head ++ charset) (ascii "'") 1
  rw [Nat.add_sub_cancel_left] at h₂
  unfold setNamesQuery
  dsimp only
  rw [hlen, ← hhead, h₁, h₂, h₃, NgxStr.full, hone, Nat.sub_self, List.replicate_zero,
    List.append_nil]
  simp only [List.length_append, hone, Nat.add_assoc]

/-! ## drizzle_server -/

/-- An option of the grammar of `drizzle_server`. -/
def ServerOption (env : ServersEnv) (option : Bytes) : Prop :=
  serverKeys.Grammar (ServerKey.Allows env) option

/-- There is memory for the query, if the argument with this index is a charset. -/
def HasMemory (env : ServersEnv) (arg : Bytes × ℕ) : Prop :=
  ∀ charset, arg.1 = ascii "charset=" ++ charset → charset ≠ [] → env.palloc arg.2 = true

/-- There is memory for the server, and its address is found. -/
def Ready (env : ServersEnv) (dscf : DrizzleSrvConf) (url : Bytes) : Prop :=
  (dscf.servers.isSome ∨ env.arrayCreate) ∧ env.arrayPush ∧ ∃ u, env.parseUrl url = .ok u

/-- The protocol with a name. -/
def Protocol.named (name : Bytes) : Protocol := if name = ascii "mysql" then .mysql else .drizzle

/-- The charset in an option, unless it is empty. -/
def charsetOf (option : Bytes) : Option Bytes :=
  (serverKeys.value .charset option).filter (· ≠ [])

/-- The server that an address and options describe. -/
def DrizzleServer.described (u : Url) (options : List Bytes) : DrizzleServer where
  addrs := u.addrs
  port := u.port
  user := (serverKeys.last .user options).getD []
  password := (serverKeys.last .password options).getD []
  dbname := (serverKeys.last .dbname options).getD []
  setNamesQuery := ((innermost charsetOf options).map fun charset =>
    .full (ascii "set names '" ++ charset ++ ascii "'")).getD {}
  protocol := ((serverKeys.last .protocol options).map Protocol.named).getD .drizzle
  addrs_pos := u.addrs_pos

/-- There is an option that is not accepted, and the first one is a user, a database or a password
that is too long. -/
def TooLongFirst (env : ServersEnv) (options : List Bytes) : Prop :=
  ∃ before arg after, options.zipIdx 2 = before ++ arg :: after ∧
    (∀ a ∈ before, ServerOption env a.1 ∧ HasMemory env a) ∧
    serverKeys.Grammar (ServerKey.TooLong env) arg.1

section Server

variable {env : ServersEnv} {dscf dscf' : DrizzleSrvConf} {url : Bytes} {options : List Bytes}
  {u : Url} {ds ds' : DrizzleServer}

lemma grammar_accepts {arg : Bytes × ℕ} :
    serverKeys.Grammar (ServerKey.Accepts env arg.2) arg.1 ↔
      ServerOption env arg.1 ∧ HasMemory env arg := by
  constructor
  · rintro ⟨k, v, hv, hallows, hmem⟩
    refine ⟨⟨k, v, hv, hallows⟩, ?_⟩
    intro charset hcharset hne
    obtain ⟨rfl, rfl⟩ := serverKeys.append_inj.mp (hv.symm.trans hcharset :
      serverKeys.text k ++ v = serverKeys.text .charset ++ charset)
    exact hmem rfl hne
  · rintro ⟨⟨k, v, hv, hallows⟩, hmem⟩
    refine ⟨k, v, hv, hallows, ?_⟩
    rintro rfl hne
    exact hmem v hv hne

/-- The loop goes through all options that are accepted. -/
lemma loop_isOk (ds : DrizzleServer) (hnull : dscf.peers = none) :
    (∃ ds', (options.zipIdx 2).foldlM (readServerOption env dscf) ds = .ok ds') ↔
      (∀ option ∈ options, ServerOption env option) ∧
        ∀ arg ∈ options.zipIdx 2, HasMemory env arg := by
  rw [foldlM_isOk (readServerOption_reads hnull).step_isOk]
  simp only [grammar_accepts, forall_and]
  refine and_congr_left fun _ => ?_
  conv_rhs => rw [← List.zipIdx_map_fst 2 options]
  simp only [List.mem_map, forall_exists_index, and_imp, forall_apply_eq_imp_iff₂]

lemma loop_nullPeers (ds : DrizzleServer) (hnull : dscf.peers = none) :
    (options.zipIdx 2).foldlM (readServerOption env dscf) ds = .error .nullPeers ↔
      TooLongFirst env options := by
  rw [foldlM_eq_error_first (readServerOption_reads hnull).step_isOk
    (readServerOption_nullPeers hnull)]
  simp only [grammar_accepts]
  rfl

/-- The loop ends with the server that the options describe. -/
lemma loop_stored (hnull : dscf.peers = none)
    (h : (options.zipIdx 2).foldlM (readServerOption env dscf) (.start u) = .ok ds') :
    ds' = .described u options := by
  have hreads : serverKeys.Reads Prod.fst (readServerOption env dscf) _ _ :=
    readServerOption_reads hnull
  have haddrs : ds'.addrs = u.addrs :=
    hreads.keeps (g := DrizzleServer.addrs) (fun b k v => by cases k <;> rfl) h
  have hport : ds'.port = u.port :=
    hreads.keeps (g := DrizzleServer.port) (fun b k v => by cases k <;> rfl) h
  have huser := hreads.get (g := DrizzleServer.user) (k := .user) (f := some)
    (fun b k v hk => by cases k <;> first | rfl | exact absurd rfl hk) (fun _ _ _ _ => rfl) h
  have hpassword := hreads.get (g := DrizzleServer.password) (k := .password) (f := some)
    (fun b k v hk => by cases k <;> first | rfl | exact absurd rfl hk) (fun _ _ _ _ => rfl) h
  have hdbname := hreads.get (g := DrizzleServer.dbname) (k := .dbname) (f := some)
    (fun b k v hk => by cases k <;> first | rfl | exact absurd rfl hk) (fun _ _ _ _ => rfl) h
  have hprotocol := hreads.get (g := DrizzleServer.protocol) (k := .protocol)
    (f := fun v => some (Protocol.named v))
    (fun b k v hk => by cases k <;> first | rfl | exact absurd rfl hk) (fun _ _ _ _ => rfl) h
  have hquery := hreads.get (g := DrizzleServer.setNamesQuery) (k := .charset)
    (f := fun v => if v = [] then none else some (setNamesQuery v))
    (fun b k v hk => by cases k <;> first | rfl | exact absurd rfl hk) (fun b a v _ => by
      change (if v = [] then b.setNamesQuery else setNamesQuery v) = _
      split <;> rfl) h
  simp only [Option.bind_fun_some] at huser hpassword hdbname
  have hname : ∀ option,
      ((serverKeys.value .protocol option).bind fun v => some (Protocol.named v)) =
        (serverKeys.value .protocol option).map Protocol.named := fun _ => Option.map_eq_bind.symm
  have hcharset : ∀ option, ((serverKeys.value .charset option).bind fun v =>
      if v = [] then none else some (setNamesQuery v)) = (charsetOf option).map fun charset =>
        .full (ascii "set names '" ++ charset ++ ascii "'") := by
    intro option
    rw [charsetOf]
    cases serverKeys.value .charset option with
    | none => rfl
    | some v =>
      by_cases hv : v = []
      · subst hv
        rfl
      · rw [Option.filter_some_pos (by simpa using hv), Option.bind_some, if_neg hv,
          setNamesQuery_eq]
        rfl
  simp only [hname] at hprotocol
  simp only [hcharset] at hquery
  ext1
  case addrs => exact haddrs
  case port => exact hport
  case user => exact huser.trans (congrArg (Option.getD · []) innermost_zipIdx)
  case password => exact hpassword.trans (congrArg (Option.getD · []) innermost_zipIdx)
  case dbname => exact hdbname.trans (congrArg (Option.getD · []) innermost_zipIdx)
  case protocol =>
    exact hprotocol.trans <| congrArg (Option.getD · Protocol.drizzle) <|
      innermost_zipIdx.trans innermost_map
  case setNamesQuery =>
    exact hquery.trans <| congrArg (Option.getD · ({} : NgxStr)) <|
      innermost_zipIdx.trans innermost_map

/-- The configuration to which a server has been added. -/
def DrizzleSrvConf.push (dscf : DrizzleSrvConf) (ds : DrizzleServer) : DrizzleSrvConf :=
  { dscf with servers := some (dscf.servers.getD [] ++ [ds]), initUpstream := true }

lemma drizzleServer_ready (options : List Bytes) (h : Ready env dscf url) :
    ∃ u, env.parseUrl url = .ok u ∧ drizzleServer env url options dscf =
      (options.zipIdx 2).foldlM (readServerOption env dscf) (.start u) >>= fun ds =>
        .ok (dscf.push ds) := by
  obtain ⟨hcreate, hpush, u, hu⟩ := h
  refine ⟨u, hu, ?_⟩
  have hservers : ¬ (dscf.servers.isNone && !env.arrayCreate) = true := by
    rcases hcreate with hsome | hcreate
    · simp [Option.isNone_iff_eq_none, Option.isSome_iff_ne_none.mp hsome]
    · simp [hcreate]
  rw [drizzleServer, if_neg hservers, if_neg (by simp [hpush]), hu]
  rfl

lemma drizzleServer_notReady (options : List Bytes) (h : ¬ Ready env dscf url) :
    ∃ e, drizzleServer env url options dscf = .error (.error e) := by
  rw [drizzleServer]
  split
  · exact ⟨_, rfl⟩
  · next hcreate =>
    split
    · exact ⟨_, rfl⟩
    · next hpush =>
      split
      · exact ⟨_, rfl⟩
      · exact ⟨_, rfl⟩
      · next u hu =>
        refine absurd ⟨?_, by simpa using hpush, u, hu⟩ h
        cases hservers : dscf.servers with
        | none => exact .inr (by simpa [hservers] using hcreate)
        | some servers => exact .inl rfl

lemma drizzleServer_isOk (hnull : dscf.peers = none) :
    (∃ dscf', drizzleServer env url options dscf = .ok dscf') ↔
      Ready env dscf url ∧ (∀ option ∈ options, ServerOption env option) ∧
        ∀ arg ∈ options.zipIdx 2, HasMemory env arg := by
  by_cases hready : Ready env dscf url
  · obtain ⟨u, _, heq⟩ := drizzleServer_ready options hready
    rw [heq, and_iff_right hready, ← loop_isOk (.start u) hnull]
    constructor
    · rintro ⟨dscf', h⟩
      obtain ⟨ds, hds, _⟩ := bind_eq_ok.mp h
      exact ⟨ds, hds⟩
    · rintro ⟨ds, hds⟩
      exact ⟨_, bind_eq_ok.mpr ⟨ds, hds, rfl⟩⟩
  · obtain ⟨e, he⟩ := drizzleServer_notReady options hready
    rw [he]
    constructor
    · rintro ⟨dscf', h⟩
      cases h
    · rintro ⟨h, _⟩
      exact absurd h hready

lemma drizzleServer_nullPeers (hnull : dscf.peers = none) :
    drizzleServer env url options dscf = .error .nullPeers ↔
      Ready env dscf url ∧ TooLongFirst env options := by
  by_cases hready : Ready env dscf url
  · obtain ⟨u, _, heq⟩ := drizzleServer_ready options hready
    rw [heq, and_iff_right hready, ← loop_nullPeers (.start u) hnull]
    cases (options.zipIdx 2).foldlM (readServerOption env dscf) (.start u) with
    | error f =>
      constructor
      · intro h
        cases h
        rfl
      · intro h
        cases h
        rfl
    | ok ds =>
      constructor
      · intro h
        cases h
      · intro h
        cases h
  · obtain ⟨e, he⟩ := drizzleServer_notReady options hready
    rw [he]
    constructor
    · intro h
      cases h
    · rintro ⟨h, _⟩
      exact absurd h hready

lemma drizzleServer_stored (hnull : dscf.peers = none)
    (h : drizzleServer env url options dscf = .ok dscf') :
    ∃ u, env.parseUrl url = .ok u ∧ dscf' = dscf.push (.described u options) := by
  obtain ⟨hready, _⟩ := (drizzleServer_isOk hnull).mp ⟨dscf', h⟩
  obtain ⟨u, hu, heq⟩ := drizzleServer_ready options hready
  rw [heq] at h
  obtain ⟨ds, hds, hdscf⟩ := bind_eq_ok.mp h
  obtain rfl := loop_stored hnull hds
  exact ⟨u, hu, (Except.ok.inj hdscf).symm⟩

/-- **Reading a server.**  While `peers` is `NULL`, `drizzle_server` succeeds exactly when there is
memory, the address is found and all options are in the grammar.  Then it adds the server that its
arguments describe: each key has its last value, a charset its last one that is not empty, and the
query for the charset fills its memory.  It dereferences `NULL` exactly when the first option that
it does not accept is the name of a user or of a database, or a password, that is too long.  In all
other cases it returns an error. -/
theorem drizzleServer_outcome (env : ServersEnv) (url : Bytes) (options : List Bytes)
    (dscf : DrizzleSrvConf) (hnull : dscf.peers = none) :
    ((∃ dscf', drizzleServer env url options dscf = .ok dscf') ↔
      Ready env dscf url ∧ (∀ option ∈ options, ServerOption env option) ∧
        ∀ arg ∈ options.zipIdx 2, HasMemory env arg) ∧
    (drizzleServer env url options dscf = .error .nullPeers ↔
      Ready env dscf url ∧ TooLongFirst env options) ∧
    ∀ dscf', drizzleServer env url options dscf = .ok dscf' →
      ∃ u, env.parseUrl url = .ok u ∧ dscf' = dscf.push (.described u options) :=
  ⟨drizzleServer_isOk hnull, drizzleServer_nullPeers hnull, fun _ => drizzleServer_stored hnull⟩

/-- A user name of 64 bytes. -/
def longUser : Bytes := List.replicate 64 97

theorem drizzleServer_outcome_longUser :
    drizzleServer (.sample fun _ => 0) (ascii "127.0.0.1:3306") [ascii "user=" ++ longUser]
      .create = .error .nullPeers := by
  refine (drizzleServer_outcome _ _ _ _ rfl).2.1.mpr ⟨⟨.inr rfl, rfl, _, rfl⟩, ?_⟩
  refine ⟨[], (ascii "user=" ++ longUser, 2), [], rfl, ?_, .user, longUser, rfl, ?_⟩
  · intro a ha
    cases ha
  · exact Nat.le_refl 64

end Server

end DrizzleNginx
