import ClickNBack.FeatureFlags.History
import ClickNBack.ReadCommitted.Guarantees
import ClickNBack.ReadCommitted.Registers

namespace ClickNBack.FeatureFlags

open Relational ReadCommitted Prog Function

def FeatureFlag.assign (enabled : Option Bool) (description : Option String) (f : FeatureFlag) :
    FeatureFlag :=
  { f with enabled := enabled.getD f.enabled, description := description <|> f.description }

theorem FeatureFlag.assign_keeps (enabled : Option Bool) (description : Option String) :
    ∀ g ∈ [FeatureFlag.indexKey], ∀ f, g (FeatureFlag.assign enabled description f) = g f := by
  simp [FeatureFlag.assign, FeatureFlag.indexKey]

namespace Async

/-- The statements that setting a flag flushes; an UPDATE sets the columns that
differ from those of the loaded row. -/
inductive Sql
  | insertFlag (row : FeatureFlag)
  | updateFlag (key : String) (scope : Scope) (enabled : Option Bool) (description : Option String)
deriving DecidableEq

inductive CallException
  | raised (e : FeatureFlagException)
  | staleData
deriving DecidableEq

inductive LockKey
  | index (indexKey : String × String × String)
  | row (key : String) (scope : Scope)
deriving DecidableEq

namespace Sql

/-- An UPDATE of no row is an error of the session that flushes it. -/
def exec : Sql → FeatureFlagTable → Except CallException FeatureFlagTable
  | .insertFlag row, t =>
    match t.insert row with
    | some t' => .ok t'
    | none => .error (.raised .integrityError)
  | .updateFlag key scope enabled description, t =>
    match flagOf t key scope with
    | some f => .ok (t.modify FeatureFlag.indexKey f.indexKey
        (FeatureFlag.assign enabled description) (FeatureFlag.assign_keeps enabled description))
    | none => .error .staleData

def keys : Sql → List LockKey
  | .insertFlag row => [.index row.indexKey, .row row.key row.scope]
  | .updateFlag .. => []

def needs : Sql → List LockKey
  | .insertFlag _ => []
  | .updateFlag key scope _ _ => [.row key scope]

instance : Statement Sql FeatureFlagTable CallException LockKey :=
  ⟨exec, fun s _ => s.keys ++ s.needs⟩

end Sql

abbrev Coroutine := Prog FeatureFlagTable Sql CallException

namespace FeatureFlagRepository

def getByKeyAndScope (key : String) (scope : Scope) : Coroutine (Option FeatureFlag) :=
  query (fun t => FeatureFlags.FeatureFlagRepository.getByKeyAndScope
    (CallException.raised .multipleResultsFound) t key scope.1 scope.2) >>= lift

/-- The flush of what the session has of the flag, and the row as `refresh` finds it. -/
def upsert (pending : Option Sql) (flag : FeatureFlag) : Coroutine FeatureFlag := do
  match pending with
  | some s => execute s
  | none => pure ()
  let refreshed ← query fun t => flagOf t flag.key flag.scope
  return refreshed.getD flag

end FeatureFlagRepository

def pendingUpdate (existing : FeatureFlag) (data : FeatureFlagSet) : Option Sql :=
  let enabled := if data.enabled = existing.enabled then none else some data.enabled
  let description := data.description.filter fun d => existing.description ≠ some d
  if enabled = none ∧ description = none then none
  else some (.updateFlag existing.key existing.scope enabled description)

def setFlag (key : String) (data : FeatureFlagSet) : Coroutine FeatureFlag := do
  let scope : Scope := (data.scopeType.value, data.scopeId.map Uuid.str)
  lift ((validateScopeIdRequired scope.1 scope.2).mapError .raised)
  match ← FeatureFlagRepository.getByKeyAndScope key scope with
  | some existing =>
    let flag ← FeatureFlagRepository.upsert (pendingUpdate existing data) { existing with
      enabled := data.enabled
      description := data.description <|> existing.description }
    commitTx
    return flag
  | none =>
    let row : FeatureFlag :=
      { key, enabled := data.enabled, scopeType := scope.1, scopeId := scope.2,
        description := data.description }
    let flag ← FeatureFlagRepository.upsert (some (.insertFlag row)) row
    commitTx
    return flag

theorem getByKeyAndScope_eq (key : String) (scope : Scope) :
    FeatureFlagRepository.getByKeyAndScope key scope = query fun t => flagOf t key scope := by
  change Prog.select _ = Prog.select _
  congr 1
  funext t
  change Prog.lift (FeatureFlags.FeatureFlagRepository.getByKeyAndScope _ _ _ _ _) = _
  rw [(FeatureFlags.getByKeyAndScope_eq t key _ scope).1]
  rfl

def settings (t : FeatureFlagTable) (k : String × Scope) : Option Bool :=
  (flagOf t k.1 k.2).map FeatureFlag.enabled

/-- What an evaluation makes of the settings: the scope's own, else the global one,
else True. -/
def evaluate (m : String × Scope → Option Bool) (key : String) (s : Scope) : Bool :=
  let own := if s.1 ≠ "global" ∧ s.2 ≠ none then m (key, s) else none
  (own <|> m (key, ("global", none))).getD true

theorem isEnabled_settings {E : Type} (e : E) (t : FeatureFlagTable) (key : String) (s : Scope) :
    isEnabled e t key s.1 s.2 = .ok (evaluate (settings t) key s) := by
  rw [isEnabled_eq, evaluate]
  by_cases hs : s.1 ≠ "global" ∧ s.2 ≠ none
  · rw [if_pos hs, if_pos hs, settings]
    cases flagOf t key s <;> rfl
  · rw [if_neg hs, if_neg hs]
    rfl

section

variable {t t' : FeatureFlagTable}

theorem exec_insertFlag {row : FeatureFlag} :
    Statement.exec (Sql.insertFlag row) t = .ok t' ↔ t.insert row = some t' := by
  simp only [Statement.exec, Sql.exec]
  cases t.insert row <;> simp

theorem exec_updateFlag {key : String} {scope : Scope} {enabled : Option Bool}
    {description : Option String} :
    Statement.exec (Sql.updateFlag key scope enabled description) t = .ok t' ↔
      ∃ f, flagOf t key scope = some f ∧ t' = t.modify FeatureFlag.indexKey f.indexKey
        (FeatureFlag.assign enabled description)
        (FeatureFlag.assign_keeps enabled description) := by
  simp only [Statement.exec, Sql.exec]
  cases flagOf t key scope with
  | none => simp
  | some f => simp [eq_comm]

theorem flagOf_insert {row : FeatureFlag} (h : t.insert row = some t') (key : String) (s : Scope) :
    flagOf t' key s = if (row.key, row.scope) = (key, s) then some row else flagOf t key s := by
  obtain ⟨hfree, hrows⟩ := t.insert_eq_some h
  apply Option.ext
  intro g
  rw [flagOf_eq_some, hrows, Multiset.mem_cons]
  by_cases hk : (row.key, row.scope) = (key, s)
  · obtain ⟨rfl, rfl⟩ := Prod.mk.inj hk
    rw [if_pos rfl, Option.some.injEq]
    constructor
    · rintro ⟨rfl | hg, hgk, hgs⟩
      · rfl
      · -- the index refuses a second row of the same key and scope
        refine absurd (Multiset.mem_map.mpr ⟨g, hg, ?_⟩) (hfree FeatureFlag.indexKey (by simp))
        obtain ⟨ht, hi⟩ := Prod.mk.inj hgs
        rw [FeatureFlag.indexKey, FeatureFlag.indexKey, hgk, ht, hi]
    · rintro rfl
      exact ⟨Or.inl rfl, rfl, rfl⟩
  · rw [if_neg hk, flagOf_eq_some]
    constructor
    · rintro ⟨rfl | hg, hgk, hgs⟩
      · exact absurd (by rw [hgk, hgs]) hk
      · exact ⟨hg, hgk, hgs⟩
    · rintro ⟨hg, hgk, hgs⟩
      exact ⟨Or.inr hg, hgk, hgs⟩

theorem flagOf_update {f : FeatureFlag} {key : String} {scope : Scope}
    (hf : flagOf t key scope = some f) (enabled : Option Bool) (description : Option String)
    (key' : String) (s : Scope) :
    flagOf (t.modify FeatureFlag.indexKey f.indexKey (FeatureFlag.assign enabled description)
        (FeatureFlag.assign_keeps enabled description)) key' s =
      if (key, scope) = (key', s) then some (f.assign enabled description)
      else flagOf t key' s := by
  obtain ⟨hmem, rfl, rfl⟩ := (flagOf_eq_some t key).mp hf
  obtain ⟨rest, hrows, hne⟩ := t.exists_cons (f := FeatureFlag.indexKey) (by simp) hmem
  have hrows' := t.modify_rows_of_cons (f := FeatureFlag.indexKey)
    (FeatureFlag.assign_keeps enabled description) (by simp) hrows rfl
  apply Option.ext
  intro g
  rw [flagOf_eq_some, hrows', Multiset.mem_cons]
  by_cases hk : (f.key, f.scope) = (key', s)
  · obtain ⟨rfl, rfl⟩ := Prod.mk.inj hk
    rw [if_pos rfl, Option.some.injEq]
    constructor
    · rintro ⟨rfl | hg, hgk, hgs⟩
      · rfl
      · refine absurd ?_ (hne g hg)
        obtain ⟨ht, hi⟩ := Prod.mk.inj hgs
        rw [FeatureFlag.indexKey, FeatureFlag.indexKey, hgk, ht, hi]
    · rintro rfl
      exact ⟨Or.inl rfl, rfl, rfl⟩
  · rw [if_neg hk, flagOf_eq_some, hrows, Multiset.mem_cons]
    constructor
    · rintro ⟨rfl | hg, hgk, hgs⟩
      · exact absurd (Prod.ext hgk hgs) hk
      · exact ⟨Or.inr hg, hgk, hgs⟩
    · rintro ⟨rfl | hg, hgk, hgs⟩
      · exact absurd (Prod.ext hgk hgs) hk
      · exact ⟨Or.inr hg, hgk, hgs⟩

end

theorem setsTo_insertFlag (row : FeatureFlag) :
    SetsTo settings (row.key, row.scope) (some row.enabled) (Sql.insertFlag row) := by
  intro t t' h
  funext k
  rw [settings, flagOf_insert (exec_insertFlag.mp h)]
  by_cases hk : (row.key, row.scope) = k
  · rw [if_pos hk, ← hk, update_self]
    rfl
  · rw [if_neg hk, update_of_ne (Ne.symm hk), settings]

theorem setsTo_updateFlag (key : String) (scope : Scope) (enabled : Bool)
    (description : Option String) : SetsTo settings (key, scope) (some enabled)
      (Sql.updateFlag key scope (some enabled) description) := by
  intro t t' h
  obtain ⟨f, hf, rfl⟩ := exec_updateFlag.mp h
  funext k
  rw [settings, flagOf_update hf]
  by_cases hk : (key, scope) = k
  · rw [if_pos hk, ← hk, update_self]
    rfl
  · rw [if_neg hk, update_of_ne (Ne.symm hk), settings]

theorem invisible_updateFlag (key : String) (scope : Scope) (description : Option String) :
    Invisible settings (Sql.updateFlag key scope none description) := by
  intro t t' h
  obtain ⟨f, hf, rfl⟩ := exec_updateFlag.mp h
  funext k
  rw [settings, flagOf_update hf, settings]
  by_cases hk : (key, scope) = k
  · rw [if_pos hk, ← hk, hf]
    rfl
  · rw [if_neg hk]

def Taken (t : FeatureFlagTable) : LockKey → Prop
  | .index k => ∃ f ∈ t.rows, f.indexKey = k
  | .row key scope => ∃ f ∈ t.rows, f.key = key ∧ f.scope = scope

theorem flagOf_isSome {t : FeatureFlagTable} {key : String} {scope : Scope} :
    (∃ f, flagOf t key scope = some f) ↔ Taken t (.row key scope) := by
  simp only [flagOf_eq_some, Taken]

theorem free_iff {t : FeatureFlagTable} {row : FeatureFlag} :
    t.Free row ↔ ∀ k ∈ (Sql.insertFlag row).keys, ¬ Taken t k := by
  constructor
  · intro h k hk htaken
    simp only [Sql.keys, List.mem_cons, List.not_mem_nil, or_false] at hk
    apply h FeatureFlag.indexKey (by simp)
    obtain rfl | rfl := hk
    · exact Multiset.mem_map.mpr htaken
    · obtain ⟨f, hf, hkey, hscope⟩ := htaken
      obtain ⟨ht, hi⟩ := Prod.mk.inj hscope
      refine Multiset.mem_map.mpr ⟨f, hf, ?_⟩
      rw [FeatureFlag.indexKey, FeatureFlag.indexKey, hkey, ht, hi]
  · intro h g hg hmem
    obtain rfl := List.mem_singleton.mp hg
    exact h (.index row.indexKey) (by simp [Sql.keys]) (Multiset.mem_map.mp hmem)

/-- A setting is refused for the sake of its flag only: one that is there already, or
one that is not. -/
theorem uniqueKeys : UniqueKeys Sql.keys Sql.needs Taken where
  locks s _ := List.subset_append_left s.keys s.needs
  ok_iff s t := by
    cases s with
    | insertFlag row =>
      rw [← free_iff, ← Table.insert_isSome]
      simp only [exec_insertFlag, Sql.needs, List.not_mem_nil, false_implies, implies_true,
        and_true, Option.isSome_iff_exists]
    | updateFlag key scope enabled description =>
      simp only [exec_updateFlag, Sql.keys, Sql.needs, List.not_mem_nil, false_implies,
        implies_true, true_and, List.mem_singleton, forall_eq, ← flagOf_isSome]
      constructor
      · rintro ⟨-, f, hf, -⟩
        exact ⟨f, hf⟩
      · rintro ⟨f, hf⟩
        exact ⟨_, f, hf, rfl⟩
  taken_of_ok s t t' h k := by
    cases s with
    | insertFlag row =>
      obtain ⟨-, hrows⟩ := t.insert_eq_some (exec_insertFlag.mp h)
      cases k with
      | index k => simp [Taken, Sql.keys, hrows, or_comm, eq_comm]
      | row key scope => simp [Taken, Sql.keys, hrows, or_comm, eq_comm]
    | updateFlag key scope enabled description =>
      obtain ⟨f, -, rfl⟩ := exec_updateFlag.mp h
      rw [Sql.keys, or_iff_left List.not_mem_nil]
      cases k with
      | index k =>
        have hkeys := t.map_modify (f := FeatureFlag.indexKey) (k := f.indexKey)
          (FeatureFlag.assign_keeps enabled description) (g := FeatureFlag.indexKey) fun _ => rfl
        simp only [Taken, ← Multiset.mem_map, hkeys]
      | row key' s =>
        have hkeys := t.map_modify (f := FeatureFlag.indexKey) (k := f.indexKey)
          (FeatureFlag.assign_keeps enabled description) (g := fun f => (f.key, f.scope))
          fun _ => rfl
        have htaken : ∀ u : FeatureFlagTable, Taken u (.row key' s) ↔
            (key', s) ∈ u.rows.map fun f => (f.key, f.scope) := fun u => by simp [Taken]
        rw [htaken, htaken, hkeys]

section

variable {flag : FeatureFlag} {k : String × Scope} {v : Option Bool}

theorem upsert_passes {pending : Option Sql} (h : ∀ s, pending = some s → Invisible settings s) :
    (FeatureFlagRepository.upsert pending flag >>= fun flag => commitTx >>= fun _ =>
      pure flag).Passes settings := by
  cases pending with
  | none => exact fun _ => ⟨_, rfl⟩
  | some s => exact ⟨h s rfl, fun _ => ⟨_, rfl⟩, fun e => ⟨e, rfl⟩⟩

theorem upsert_sets {s : Sql} (h : SetsTo settings k v s) :
    (FeatureFlagRepository.upsert (some s) flag >>= fun flag => commitTx >>= fun _ =>
      pure flag).Sets settings k v :=
  ⟨h, fun _ => ⟨_, rfl⟩, fun e => ⟨e, rfl⟩⟩

variable (key : String) (data : FeatureFlagSet)

theorem pendingUpdate_cases (existing : FeatureFlag) :
    (existing.enabled = data.enabled ∧
      ∀ s, pendingUpdate existing data = some s → Invisible settings s) ∨
    ∃ s, pendingUpdate existing data = some s ∧
      SetsTo settings (existing.key, existing.scope) (some data.enabled) s := by
  rw [pendingUpdate]
  by_cases henabled : data.enabled = existing.enabled
  · left
    refine ⟨henabled.symm, fun s hs => ?_⟩
    rw [if_pos henabled] at hs
    split at hs
    · cases hs
    · cases hs
      exact invisible_updateFlag _ _ _
  · right
    rw [if_neg henabled, if_neg (by simp)]
    exact ⟨_, rfl, setsTo_updateFlag _ _ _ _⟩

/-- A call sets its flag: it reads that the flag says so already, or flushes it. -/
theorem setFlag_sets :
    (setFlag key data).Sets settings (key, (data.scopeType.value, data.scopeId.map Uuid.str))
      (some data.enabled) := by
  rw [setFlag]
  refine sets_lift_bind fun _ _ => ?_
  rw [getByKeyAndScope_eq]
  refine sets_query_bind fun t => ?_
  cases hf : flagOf t key (data.scopeType.value, data.scopeId.map Uuid.str) with
  | none => exact Or.inl (upsert_sets (setsTo_insertFlag _))
  | some f =>
    obtain ⟨-, hkey, hscope⟩ := (flagOf_eq_some t key).mp hf
    obtain ⟨henabled, hpending⟩ | ⟨s, hs, hsets⟩ := pendingUpdate_cases data f
    · refine Or.inr ⟨?_, upsert_passes hpending⟩
      rw [settings, hf, Option.map_some, henabled]
    · rw [hkey, hscope] at hsets
      simp only [hs]
      exact Or.inl (upsert_sets hsets)

end

theorem setFlag_abides (key : String) (data : FeatureFlagSet) (t : FeatureFlagTable) :
    (setFlag key data).Abides (fun _ => True) (fun _ _ => True) (fun log _ =>
      validateScopeIdRequired data.scopeType.value (data.scopeId.map Uuid.str) = .ok () ∧
        ∀ s ∈ log, SetsTo settings (key, (data.scopeType.value, data.scopeId.map Uuid.str))
          (some data.enabled) s ∨ Invisible settings s) t [] := by
  cases hvalid : validateScopeIdRequired data.scopeType.value (data.scopeId.map Uuid.str) with
  | error e =>
    simp only [setFlag, hvalid]
    trivial
  | ok _ =>
    exact (setFlag_sets key data).emits.abides (by simp) (fun _ _ _ _ _ => trivial)
      fun _ _ _ _ _ hlog => ⟨rfl, hlog⟩

def prog (c : Call) : Coroutine FeatureFlag := setFlag c.key c.data

/-- Concurrent calls are linearizable: whatever the interleaving and the failures, there is
one order of the calls that return, and whenever an evaluation looks at the rows, it
answers as if a beginning of this order had been executed one after another, with the
calls that have returned and without those that have not begun. -/
theorem setFlag_linearizable {ι E : Type} [DecidableEq ι] [Fintype ι] (calls : ι → Call)
    (t₀ : FeatureFlagTable) {past : List (Sys ι FeatureFlagTable Sql CallException FeatureFlag)}
    {s : Sys ι FeatureFlagTable Sql CallException FeatureFlag}
    (h : Sys.Path (fun _ _ _ => True) (Sys.start t₀ fun i => prog (calls i)) past s) :
    ∃ order : List ι, order.Nodup ∧
      (∀ i, i ∈ order ↔ ∃ flag, (s.session i).prog = .ret flag) ∧
      ∀ t ∈ s :: past, ∃ before after, order = before ++ after ∧
        (∀ i flag, (t.session i).prog = .ret flag → i ∈ before) ∧
        (∀ i, ¬ (t.session i).prog.Done → (t.session i).reading = false → i ∉ before) ∧
        ∀ (e : E) key scope, isEnabled e t.db key scope.1 scope.2 = .ok (evaluate
          (setAll (fun i => ((calls i).key, (calls i).scope))
            (fun i => some (calls i).data.enabled) before (settings t₀)) key scope) := by
  have hsets : ∀ i, (prog (calls i)).Sets settings ((calls i).key, (calls i).scope)
      (some (calls i).data.enabled) := fun i => setFlag_sets (calls i).key (calls i).data
  obtain ⟨order, hnodup, hmem, hstates⟩ := Sys.linearizable_of_sets uniqueKeys hsets h
  refine ⟨order, hnodup, hmem, fun t ht => ?_⟩
  obtain ⟨before, after, horder, hbefore, hlater, hdb⟩ := hstates t ht
  refine ⟨before, after, horder, hbefore, hlater, fun e key scope => ?_⟩
  rw [isEnabled_settings, hdb]

def offAndOn (i : Fin 2) : Call :=
  ⟨"purchase_auto_confirm", ⟨decide (i = 1), .global, none, none⟩⟩

def noFlags : FeatureFlagTable := Table.empty

/-- The second call has not begun when the first returns. -/
def turnedOff : Sys (Fin 2) FeatureFlagTable Sql CallException FeatureFlag :=
  (Sys.play (fun _ _ => true) [0, 0, 0, 0]
    (Sys.start noFlags fun i => prog (offAndOn i))).get (by decide +kernel)

def turnedOn : Sys (Fin 2) FeatureFlagTable Sql CallException FeatureFlag :=
  (Sys.play (fun _ _ => true) [1, 1, 1, 1] turnedOff).get (by decide +kernel)

theorem setFlag_linearizable_turnedOn :
    turnedOn.returned.card = 2 ∧ ∃ before after : List (Fin 2), (before ++ after).Nodup ∧
      (∀ i flag, (turnedOff.session i).prog = .ret flag → i ∈ before) ∧
      (∀ i, ¬ (turnedOff.session i).prog.Done → (turnedOff.session i).reading = false →
        i ∉ before) ∧
      ∀ (e : Unit) key scope, isEnabled e turnedOff.db key scope.1 scope.2 = .ok (evaluate
        (setAll (fun i => ((offAndOn i).key, (offAndOn i).scope))
          (fun i => some (offAndOn i).data.enabled) before (settings noFlags)) key scope) := by
  obtain ⟨past, hoff, -⟩ := Sys.path_of_play (C := fun _ _ _ => True) (fun _ _ _ => trivial)
    Sys.Path.start (Option.some_get (x := Sys.play (fun _ _ => true) [0, 0, 0, 0]
      (Sys.start noFlags fun i => prog (offAndOn i))) (by decide +kernel)).symm
  obtain ⟨past', hon, hmem⟩ := Sys.path_of_play (C := fun _ _ _ => True) (fun _ _ _ => trivial)
    hoff (Option.some_get (x := Sys.play (fun _ _ => true) [1, 1, 1, 1] turnedOff)
      (by decide +kernel)).symm
  obtain ⟨order, hnodup, -, hstates⟩ := setFlag_linearizable offAndOn noFlags hon
  obtain ⟨before, after, rfl, hstate⟩ := hstates turnedOff (hmem turnedOff List.mem_cons_self)
  exact ⟨by decide +kernel, before, after, hnodup, hstate⟩

end Async

end ClickNBack.FeatureFlags
