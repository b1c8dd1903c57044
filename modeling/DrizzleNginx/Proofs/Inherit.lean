/-
# Inherited settings

Each setting of a location has the value that the innermost block around a request gives it, or else
its default.  So the settings that the functions of the module read for a request are set, except
for two: where a request goes to is not inherited.  A request that nginx has moved from a location
to an `if` block is handled with the settings of that block by the handler of the location, which
then reads a pointer that has not been set.
-/
import DrizzleNginx.Proofs.Directives

namespace DrizzleNginx

open Lib (innermost)

/-! ## Settings -/

/-- A setting: its field, the directive that gives it a value, and its default. -/
structure Setting (γ : Type) where
  field : DrizzleLocConf → Option γ
  value : ConfEnv → Directive → Option γ
  default : ConfEnv → Option γ

namespace Setting

def connectTimeout : Setting Msec where
  field := DrizzleLocConf.connectTimeout
  value
    | _, .connectTimeout time => some time
    | _, _ => none
  default _ := some 60000

def sendQueryTimeout : Setting Msec where
  field := DrizzleLocConf.sendTimeout
  value
    | _, .sendQueryTimeout time => some time
    | _, _ => none
  default _ := some 60000

def recvColsTimeout : Setting Msec where
  field := DrizzleLocConf.recvColsTimeout
  value
    | _, .recvColsTimeout time => some time
    | _, _ => none
  default _ := some 60000

def recvRowsTimeout : Setting Msec where
  field := DrizzleLocConf.recvRowsTimeout
  value
    | _, .recvRowsTimeout time => some time
    | _, _ => none
  default _ := some 60000

def dbname : Setting ComplexValue where
  field := DrizzleLocConf.dbname
  value
    | _, .dbname value => some ⟨value⟩
    | _, _ => none
  default _ := none

def moduleHeader : Setting Bool where
  field := DrizzleLocConf.enableModuleHeader
  value
    | _, .moduleHeader on => some on
    | _, _ => none
  default _ := some true

def bufferSize : Setting ℕ where
  field := DrizzleLocConf.bufSize
  value
    | _, .bufferSize size => some size
    | _, _ => none
  default env := some env.pagesize

def maxBuffered : Setting ℕ where
  field := DrizzleLocConf.maxBuffered
  value
    | _, .maxBuffered size => some size
    | _, _ => none
  default _ := some (1024 * 1024)

/-- The index of the variable `$drizzle_thread_id` is set by `drizzle_pass`. -/
def tidVarIndex : Setting ℕ where
  field := DrizzleLocConf.tidVarIndex
  value
    | env, .pass _ => env.tidVarIndex
    | _, _ => none
  default _ := none

variable {γ : Type} (S : Setting γ)

/-- The value that a block gives to a setting. -/
def given (env : ConfEnv) (level : Level) : Option γ := innermost (S.value env) level.directives

/-- A setting has the value that the innermost block gives it, or else its default. -/
def Effective (env : ConfEnv) (levels : List Level) (conf : DrizzleLocConf) : Prop :=
  S.field conf = (innermost (S.given env) levels).or (S.default env)

/-- What makes a setting effective: what directives and merges do to its field. -/
structure Inherited : Prop where
  create : S.field .create = none
  apply : ∀ env b d b', Block.Applies env b d b' →
    S.field b'.dlcf = (S.value env d).or (S.field b.dlcf)
  merge : ∀ env prev conf conf', DrizzleLocConf.Merges env prev conf conf' →
    S.field conf' = ((S.field conf).or (S.field prev)).or (S.default env)

end Setting

variable {env : ConfEnv} {conf conf' prev : DrizzleLocConf} {b : Block} {level main : Level}
  {levels : List Level}

open DrizzleLocConf (load nest merge_cases mergeValue)

/-- A block that is merged with another one has what it has itself, or what the other one has. -/
lemma some_mergeValue {α : Type} (conf prev : Option α) (default : α) :
    some (mergeValue conf prev default) = (conf.or prev).or (some default) := by
  cases conf <;> cases prev <;> rfl

lemma ite_none_eq_or {α : Type} [DecidableEq α] (conf prev : Option α) :
    (if conf = none then prev else conf) = (conf.or prev).or none := by
  cases conf with
  | none => exact (Option.or_none).symm
  | some a => rfl

namespace Setting

theorem Inherited.effective {γ : Type} {S : Setting γ} (hS : S.Inherited) (hne : levels ≠ [])
    (h : load env main levels = .ok conf) : S.Effective env (main :: levels) conf := by
  have hread : ∀ {level b}, Block.read env level = .ok b → S.field b.dlcf = S.given env level := by
    intro level b hb
    rw [Lib.get_foldlM (g := fun b : Block => S.field b.dlcf)
      (fun b d b' hd => hS.apply env b d b' (Block.apply_cases hd)) hb]
    exact (congrArg _ hS.create).trans Option.or_none
  obtain ⟨b, hb, h⟩ := Lib.bind_eq_ok.mp h
  have hmerge := Lib.get_merge (f := S.given env) (g := S.field) (d := S.default env)
    (fun prev level conf hn => by
      obtain ⟨b, hb, hm⟩ := Lib.bind_eq_ok.mp hn
      rw [hS.merge env prev b.dlcf conf (merge_cases hm), hread hb]) hne h
  rw [hread hb] at hmerge
  rw [Effective, hmerge, innermost, innermost, List.reverse_cons, List.findSome?_append,
    List.findSome?_singleton]

lemma inherited_connectTimeout : connectTimeout.Inherited where
  create := rfl
  apply _ _ _ _ h := by
    cases h with
    | query h => cases h <;> rfl
    | _ => rfl
  merge _ _ _ _ h := h.connectTimeout.trans (some_mergeValue ..)

lemma inherited_sendQueryTimeout : sendQueryTimeout.Inherited where
  create := rfl
  apply _ _ _ _ h := by
    cases h with
    | query h => cases h <;> rfl
    | _ => rfl
  merge _ _ _ _ h := h.sendTimeout.trans (some_mergeValue ..)

lemma inherited_recvColsTimeout : recvColsTimeout.Inherited where
  create := rfl
  apply _ _ _ _ h := by
    cases h with
    | query h => cases h <;> rfl
    | _ => rfl
  merge _ _ _ _ h := h.recvColsTimeout.trans (some_mergeValue ..)

lemma inherited_recvRowsTimeout : recvRowsTimeout.Inherited where
  create := rfl
  apply _ _ _ _ h := by
    cases h with
    | query h => cases h <;> rfl
    | _ => rfl
  merge _ _ _ _ h := h.recvRowsTimeout.trans (some_mergeValue ..)

lemma inherited_moduleHeader : moduleHeader.Inherited where
  create := rfl
  apply _ _ _ _ h := by
    cases h with
    | query h => cases h <;> rfl
    | _ => rfl
  merge _ _ _ _ h := h.enableModuleHeader.trans (some_mergeValue ..)

lemma inherited_dbname : dbname.Inherited where
  create := rfl
  apply _ _ _ _ h := by
    cases h with
    | query h => cases h <;> rfl
    | _ => rfl
  merge _ _ _ _ h := h.dbname.trans (ite_none_eq_or ..)

lemma inherited_bufferSize : bufferSize.Inherited where
  create := rfl
  apply _ _ _ _ h := by
    cases h with
    | query h => cases h <;> rfl
    | _ => rfl
  merge _ _ _ _ h := by
    obtain ⟨size, hsize, _, rfl⟩ := h.bufSize
    exact hsize.trans (some_mergeValue ..)

lemma inherited_maxBuffered : maxBuffered.Inherited where
  create := rfl
  apply _ _ _ _ h := by
    cases h with
    | query h => cases h <;> rfl
    | _ => rfl
  merge _ _ _ _ h := by
    obtain ⟨size, hsize, _, rfl⟩ := h.maxBuffered
    exact hsize.trans (some_mergeValue ..)

lemma inherited_tidVarIndex : tidVarIndex.Inherited where
  create := rfl
  apply _ _ _ _ h := by
    cases h with
    | query h => cases h <;> rfl
    | passComplex _ hindex => exact (congrArg (Option.or · _) hindex).symm
    | pass _ hindex => exact (congrArg (Option.or · _) hindex).symm
    | _ => rfl
  merge _ _ _ _ h := h.tidVarIndex.trans (ite_none_eq_or ..)

end Setting

namespace DrizzleLocConf

/-- Each inherited setting has the value of the innermost block that sets it, or else its default.
-/
structure Effective (env : ConfEnv) (levels : List Level) (conf : DrizzleLocConf) : Prop where
  connectTimeout : Setting.connectTimeout.Effective env levels conf
  sendQueryTimeout : Setting.sendQueryTimeout.Effective env levels conf
  recvColsTimeout : Setting.recvColsTimeout.Effective env levels conf
  recvRowsTimeout : Setting.recvRowsTimeout.Effective env levels conf
  dbname : Setting.dbname.Effective env levels conf
  moduleHeader : Setting.moduleHeader.Effective env levels conf
  bufferSize : Setting.bufferSize.Effective env levels conf
  maxBuffered : Setting.maxBuffered.Effective env levels conf
  tidVarIndex : Setting.tidVarIndex.Effective env levels conf

open Setting in
lemma effective (hne : levels ≠ []) (h : load env main levels = .ok conf) :
    conf.Effective env (main :: levels) where
  connectTimeout := inherited_connectTimeout.effective hne h
  sendQueryTimeout := inherited_sendQueryTimeout.effective hne h
  recvColsTimeout := inherited_recvColsTimeout.effective hne h
  recvRowsTimeout := inherited_recvRowsTimeout.effective hne h
  dbname := inherited_dbname.effective hne h
  moduleHeader := inherited_moduleHeader.effective hne h
  bufferSize := inherited_bufferSize.effective hne h
  maxBuffered := inherited_maxBuffered.effective hne h
  tidVarIndex := inherited_tidVarIndex.effective hne h

/-! ## Where a request goes to -/

/-- No field is unset that is read for a request. -/
structure Usable (conf : DrizzleLocConf) : Prop where
  connectTimeout : conf.connectTimeout ≠ none
  sendTimeout : conf.sendTimeout ≠ none
  recvColsTimeout : conf.recvColsTimeout ≠ none
  recvRowsTimeout : conf.recvRowsTimeout ≠ none
  enableModuleHeader : conf.enableModuleHeader ≠ none
  bufSize : conf.bufSize ≠ none
  maxBuffered : conf.maxBuffered ≠ none
  tidVarIndex : conf.tidVarIndex ≠ none
  complexTarget : conf.complexTarget ≠ .unset
  upstream : conf.complexTarget = .null → conf.upstream ≠ none

/-- What `drizzle_pass` leaves behind. -/
structure Targeted (conf : DrizzleLocConf) : Prop where
  tidVarIndex : conf.tidVarIndex ≠ none
  complexTarget : conf.complexTarget ≠ .unset
  upstream : conf.complexTarget = .null → conf.upstream ≠ none

end DrizzleLocConf

/-- The block has a `drizzle_pass` directive. -/
def Level.HasPass (level : Level) : Prop := ∃ target, .pass target ∈ level.directives

open DrizzleLocConf (Targeted Merges)

namespace Block

lemma Applies.targeted {d : Directive} {b' : Block} (h : Applies env b d b') :
    (∃ target, d = .pass target) ∧ b'.dlcf.Targeted ∨
      (∀ target, d ≠ .pass target) ∧ b'.dlcf.tidVarIndex = b.dlcf.tidVarIndex ∧
        b'.dlcf.complexTarget = b.dlcf.complexTarget ∧ b'.dlcf.upstream = b.dlcf.upstream := by
  cases h with
  | passComplex => exact .inl ⟨⟨_, rfl⟩, Option.some_ne_none _, nofun, nofun⟩
  | pass => exact .inl ⟨⟨_, rfl⟩, Option.some_ne_none _, nofun, fun _ => Option.some_ne_none _⟩
  | query h =>
    refine .inr ⟨nofun, ?_⟩
    cases h <;> exact ⟨rfl, rfl, rfl⟩
  | _ => exact .inr ⟨nofun, rfl, rfl, rfl⟩

/-- Only a `drizzle_pass` directive of the block itself says where requests go to. -/
theorem read_targeted (h : read env level = .ok b) :
    (level.HasPass → b.dlcf.Targeted) ∧ (¬ level.HasPass → b.dlcf.complexTarget = .unset) := by
  refine Lib.foldlM_induction (I := fun ds b =>
    ((∃ target, Directive.pass target ∈ ds) → b.dlcf.Targeted) ∧
      (¬ (∃ target, Directive.pass target ∈ ds) → b.dlcf.complexTarget = .unset))
    ⟨fun ⟨_, hmem⟩ => absurd hmem List.not_mem_nil, fun _ => rfl⟩ (fun ds b d b' hI hd => ?_) h
  rcases (apply_cases hd).targeted with ⟨⟨target, rfl⟩, ht⟩ | ⟨hne, htid, hcomplex, hup⟩
  · exact ⟨fun _ => ht, fun hno => absurd ⟨target, by simp⟩ hno⟩
  · have hmem : (∃ target, Directive.pass target ∈ ds ++ [d]) ↔
        ∃ target, Directive.pass target ∈ ds := by
      refine exists_congr fun target => ?_
      rw [List.mem_append, List.mem_singleton, or_iff_left (fun he => hne target he.symm)]
    rw [hmem]
    refine ⟨fun hp => ?_, fun hno => hcomplex.trans (hI.2 hno)⟩
    obtain ⟨h₁, h₂, h₃⟩ := hI.1 hp
    exact ⟨htid ▸ h₁, hcomplex ▸ h₂, hcomplex ▸ hup ▸ h₃⟩

end Block

namespace DrizzleLocConf

/-- Merging leaves it as it is. -/
lemma Merges.targeted (h : Merges env prev conf conf') (ht : conf.Targeted) : conf'.Targeted where
  tidVarIndex := by
    rw [h.tidVarIndex, if_neg ht.tidVarIndex]
    exact ht.tidVarIndex
  complexTarget := h.complexTarget ▸ ht.complexTarget
  upstream := h.complexTarget ▸ h.upstream ▸ ht.upstream

lemma Merges.usable (h : Merges env prev conf conf') (ht : conf'.Targeted) : conf'.Usable := by
  obtain ⟨_, hbuf, _⟩ := h.bufSize
  obtain ⟨_, hmax, _⟩ := h.maxBuffered
  refine ⟨?_, ?_, ?_, ?_, ?_, hbuf ▸ nofun, hmax ▸ nofun, ht.tidVarIndex, ht.complexTarget,
    ht.upstream⟩
  · exact h.connectTimeout ▸ nofun
  · exact h.sendTimeout ▸ nofun
  · exact h.recvColsTimeout ▸ nofun
  · exact h.recvRowsTimeout ▸ nofun
  · exact h.enableModuleHeader ▸ nofun

/-- The fields of a block are set if and only if it has a `drizzle_pass` directive of its own. -/
theorem usable_iff (h : load env main (levels ++ [level]) = .ok conf) :
    conf.Usable ↔ level.HasPass := by
  obtain ⟨_, _, h⟩ := Lib.bind_eq_ok.mp h
  obtain ⟨prev, _, h⟩ := Lib.foldlM_concat_eq_ok.mp h
  obtain ⟨b, hread, h⟩ := Lib.bind_eq_ok.mp h
  have hm := merge_cases h
  obtain ⟨hpass, hno⟩ := Block.read_targeted hread
  refine ⟨fun hu => ?_, fun hp => hm.usable (hm.targeted (hpass hp))⟩
  by_contra hnp
  exact hu.complexTarget (hm.complexTarget.trans (hno hnp))

variable {henv : HandlerEnv} {method : ℕ}

/-- A request for which the fields are set does not read a bad pointer. -/
lemma Usable.handler (h : conf.Usable) :
    conf.handler henv method ≠ .badPointer ∧ conf.handler henv method ≠ .noUpstream := by
  constructor <;> intro hret <;> unfold DrizzleLocConf.handler at hret
  · grind [h.complexTarget]
  · grind [h.upstream]

end DrizzleLocConf

/-! ## Requests -/

/-- The handler of the module is that of a block only if the block has a `drizzle_pass` directive.
-/
lemma Block.hasPass_of_read (h : read env level = .ok b) (hh : b.core.handler = some .drizzle) :
    level.HasPass := by
  refine Lib.foldlM_induction (I := fun ds b =>
    b.core.handler = some .drizzle → ∃ target, Directive.pass target ∈ ds)
    (by rintro ⟨⟩) (fun ds b d b' hI hd hh => ?_) h hh
  cases apply_cases hd with
  | passComplex => exact ⟨_, List.mem_append_right _ (List.mem_singleton_self _)⟩
  | pass => exact ⟨_, List.mem_append_right _ (List.mem_singleton_self _)⟩
  | status => cases hh
  | otherHandler => cases hh
  | _ =>
    obtain ⟨target, hmem⟩ := hI hh
    exact ⟨target, List.mem_append_left _ hmem⟩

/-- A request that the location serves itself is handled by the module only if the location has a
`drizzle_pass` directive. -/
lemma Route.hasPass_loc {r : Route} (hifs : r.ifs = []) (h : r.handler env = some .drizzle) :
    r.block.HasPass := by
  have hblock : r.block = r.loc := by rw [block, hifs, List.getLast?_nil]
  rw [handler, hifs, List.map_nil, List.foldl_cons, List.foldl_nil, update] at h
  rw [hblock]
  split at h
  · next b hread => exact Block.hasPass_of_read hread (Option.or_none.symm.trans h)
  · cases h

open DrizzleLocConf in
/-- The configuration that a request is served with: each inherited setting is that of the innermost
block that sets it, or the default.  If the module handles the request, then no field that it reads
is unset if and only if the block that serves the request has a `drizzle_pass` directive of its own;
only an `if` block can be without. -/
theorem settings_inherited (r : Route) (h : load env r.main (r.around ++ [r.block]) = .ok conf) :
    conf.Effective env (r.main :: (r.around ++ [r.block])) ∧
      (r.handler env = some .drizzle →
        ((conf.Usable ∧ ∀ henv method, conf.handler henv method ≠ .badPointer ∧
          conf.handler henv method ≠ .noUpstream) ↔ r.block.HasPass) ∧
        (¬ r.block.HasPass → r.ifs ≠ [])) := by
  refine ⟨effective (List.append_ne_nil_of_right_ne_nil _ (List.cons_ne_nil _ _)) h, fun hh =>
    ⟨⟨fun hu => (usable_iff h).mp hu.1, fun hp => ?_⟩, fun hno hifs => hno (r.hasPass_loc hifs hh)⟩⟩
  have hu := (usable_iff h).mpr hp
  exact ⟨hu, fun _ _ => hu.handler⟩

/-- A location with a query and a `drizzle_pass` directive, and an `if` block in it without
directives. -/
def Route.emptyIf : Route where
  main := ⟨.main, [], []⟩
  outer := [⟨.srv, [], []⟩]
  loc := ⟨.loc, ascii "/", [.query ⟨[], ascii "select 1"⟩, .pass (ascii "backend")]⟩
  ifs := [([], ⟨.lif, ascii "/", []⟩)]

/-- The fields of the empty `if` block are not all set. -/
theorem settings_inherited_emptyIf : ∃ conf,
    DrizzleLocConf.load {} Route.emptyIf.main (Route.emptyIf.around ++ [Route.emptyIf.block]) =
      .ok conf ∧ conf.Effective {} (Route.emptyIf.main ::
        (Route.emptyIf.around ++ [Route.emptyIf.block])) ∧ ¬ conf.Usable := by
  obtain ⟨conf, h⟩ : ∃ conf, DrizzleLocConf.load {} Route.emptyIf.main
      (Route.emptyIf.around ++ [Route.emptyIf.block]) = .ok conf := ⟨_, rfl⟩
  obtain ⟨heff, hiff⟩ := settings_inherited Route.emptyIf h
  refine ⟨conf, h, heff, fun hu => ?_⟩
  obtain ⟨target, hmem⟩ := ((hiff (by decide)).1.mp ⟨hu, fun _ _ => hu.handler⟩)
  exact List.not_mem_nil hmem

/-- The module handles the requests to the empty `if` block, and reads a pointer that has not been
set. -/
theorem empty_if_badPointer : Route.emptyIf.handler {} = some .drizzle ∧
    ∃ conf, DrizzleLocConf.load {} Route.emptyIf.main
      (Route.emptyIf.around ++ [Route.emptyIf.block]) = .ok conf ∧
      conf.complexTarget = .unset ∧ ¬ conf.Usable ∧ conf.handler {} 2 = .badPointer := by
  refine ⟨by decide, ?_⟩
  obtain ⟨conf, h⟩ : ∃ conf, DrizzleLocConf.load {} Route.emptyIf.main
      (Route.emptyIf.around ++ [Route.emptyIf.block]) = .ok conf := ⟨_, rfl⟩
  refine ⟨conf, h, ?_⟩
  obtain rfl := Except.ok.inj (h.symm.trans rfl)
  exact ⟨by decide, fun hu => hu.complexTarget (by decide), by decide⟩

end DrizzleNginx
