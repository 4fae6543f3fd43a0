import ClickNBack.Relational.Table
import Mathlib.Data.List.Induction
import Mathlib.Logic.Function.Basic

namespace ClickNBack.FeatureFlags

open Relational Function

structure FeatureFlag where
  key : String
  enabled : Bool
  scopeType : String
  scopeId : Option String
  description : Option String
deriving DecidableEq

abbrev Scope := String × Option String

namespace FeatureFlag

def scope (f : FeatureFlag) : Scope := (f.scopeType, f.scopeId)

/-- The columns of `uq_feature_flags_key_scope`. -/
def indexKey (f : FeatureFlag) : String × String × String :=
  (f.key, f.scopeType, f.scopeId.getD "")

end FeatureFlag

abbrev FeatureFlagTable :=
  Table FeatureFlag (String × String × String) [FeatureFlag.indexKey]

variable {E : Type}

namespace FeatureFlagRepository

/-- `scope_id == None` is IS NULL; `e` is MultipleResultsFound. -/
def getByKeyAndScope (e : E) (t : FeatureFlagTable) (key scopeType : String)
    (scopeId : Option String) : Except E (Option FeatureFlag) :=
  scalarOneOrNone e
    (t.rows.filter fun f => f.key = key ∧ f.scopeType = scopeType ∧ f.scopeId = scopeId)

/-- The last condition is written `FeatureFlag.scope_id is None`, which is the
Python `False`. -/
def getMultipleByKeyAndScopes (t : FeatureFlagTable) (key : String) (scopeSpecs : List Scope) :
    Multiset FeatureFlag :=
  if scopeSpecs = [] then 0
  else t.rows.filter fun f => f.key = key ∧
    ((∃ s ∈ scopeSpecs, f.scopeType = s.1 ∧ f.scopeId = s.2) ∨ (f.scopeType = "global" ∧ False))

end FeatureFlagRepository

def isEnabled (e : E) (t : FeatureFlagTable) (key scopeType : String) (scopeId : Option String) :
    Except E Bool := do
  let scopedFlag ← if scopeType ≠ "global" ∧ scopeId ≠ none then
      FeatureFlagRepository.getByKeyAndScope e t key scopeType scopeId
    else pure none
  match scopedFlag with
  | some flag => return flag.enabled
  | none =>
    match ← FeatureFlagRepository.getByKeyAndScope e t key "global" none with
    | some globalFlag => return globalFlag.enabled
    | none => return true

/-- The fetched flags as `evaluate_scopes` sorts them: the global flag, and the
scoped flags by scope. -/
def separate (flags : List FeatureFlag) : Option FeatureFlag × (Scope → Option FeatureFlag) :=
  flags.foldl (fun (globalFlag, scopedFlags) flag =>
    if flag.scopeType = "global" then (some flag, scopedFlags)
    else (globalFlag, update scopedFlags flag.scope (some flag))) (none, fun _ => none)

/-- Scoped flag, else global flag, else True. -/
def resolve (flags : Option FeatureFlag × (Scope → Option FeatureFlag)) (scope : Scope) : Bool :=
  match flags.2 scope with
  | some flag => flag.enabled
  | none =>
    match flags.1 with
    | some globalFlag => globalFlag.enabled
    | none => true

/-- `FeatureFlagService.evaluate_scopes`; `rows` is the order in which the fetched
rows arrive. -/
def evaluateScopes (rows : Listing FeatureFlag) (t : FeatureFlagTable) (key : String)
    (scopes : List Scope) : Scope → Option Bool :=
  if scopes = [] then fun _ => none
  else
    let flags := separate (rows.list
      (FeatureFlagRepository.getMultipleByKeyAndScopes t key scopes))
    scopes.foldl (fun results scope => update results scope (some (resolve flags scope)))
      fun _ => none

section

variable {flags : List FeatureFlag} {scope : Scope} {f : FeatureFlag}

theorem separate_append (flags : List FeatureFlag) (f : FeatureFlag) :
    separate (flags ++ [f]) =
      if f.scopeType = "global" then (some f, (separate flags).2)
      else ((separate flags).1, update (separate flags).2 f.scope (some f)) := by
  simp only [separate, List.foldl_append, List.foldl_cons, List.foldl_nil]

theorem mem_of_separate_global (h : (separate flags).1 = some f) :
    f ∈ flags ∧ f.scopeType = "global" := by
  induction flags using List.reverseRecOn with
  | nil => cases h
  | append_singleton flags g ih =>
    rw [separate_append] at h
    by_cases hg : g.scopeType = "global"
    · rw [if_pos hg] at h
      cases h
      exact ⟨by simp, hg⟩
    · rw [if_neg hg] at h
      exact ⟨List.mem_append_left _ (ih h).1, (ih h).2⟩

theorem separate_global_isSome (hf : f ∈ flags) (hg : f.scopeType = "global") :
    (separate flags).1.isSome := by
  induction flags using List.reverseRecOn with
  | nil => cases hf
  | append_singleton flags g ih =>
    rw [separate_append]
    by_cases hgt : g.scopeType = "global"
    · rw [if_pos hgt]
      rfl
    · rw [if_neg hgt]
      obtain hf | hf := List.mem_append.mp hf
      · exact ih hf
      · exact absurd (List.mem_singleton.mp hf ▸ hg) hgt

theorem mem_of_separate_scoped (h : (separate flags).2 scope = some f) :
    f ∈ flags ∧ f.scopeType ≠ "global" ∧ f.scope = scope := by
  induction flags using List.reverseRecOn with
  | nil => cases h
  | append_singleton flags g ih =>
    have hlift : f ∈ flags ∧ f.scopeType ≠ "global" ∧ f.scope = scope →
        f ∈ flags ++ [g] ∧ f.scopeType ≠ "global" ∧ f.scope = scope :=
      fun hf => ⟨List.mem_append_left _ hf.1, hf.2⟩
    rw [separate_append] at h
    by_cases hg : g.scopeType = "global"
    · rw [if_pos hg] at h
      exact hlift (ih h)
    · rw [if_neg hg] at h
      by_cases hs : scope = g.scope
      · subst hs
        simp only [update_self, Option.some.injEq] at h
        subst h
        exact ⟨by simp, hg, rfl⟩
      · simp only [update_of_ne hs] at h
        exact hlift (ih h)

theorem separate_scoped_isSome (hf : f ∈ flags) (hg : f.scopeType ≠ "global") :
    ((separate flags).2 f.scope).isSome := by
  induction flags using List.reverseRecOn with
  | nil => cases hf
  | append_singleton flags g ih =>
    rw [separate_append]
    by_cases hgt : g.scopeType = "global"
    · rw [if_pos hgt]
      obtain hf | hf := List.mem_append.mp hf
      · exact ih hf
      · exact absurd (List.mem_singleton.mp hf ▸ hgt) hg
    · rw [if_neg hgt]
      by_cases hs : f.scope = g.scope
      · simp [hs]
      · obtain hf | hf := List.mem_append.mp hf
        · simpa [update_of_ne hs] using ih hf
        · exact absurd (List.mem_singleton.mp hf ▸ rfl) hs

end

section

variable (t : FeatureFlagTable) (key : String) {scopes : List Scope} {s : Scope}

theorem mem_getMultiple {f : FeatureFlag} :
    f ∈ FeatureFlagRepository.getMultipleByKeyAndScopes t key scopes ↔
      f ∈ t.rows ∧ f.key = key ∧ f.scope ∈ scopes := by
  rw [FeatureFlagRepository.getMultipleByKeyAndScopes]
  by_cases h : scopes = []
  · simp [h]
  · simp only [if_neg h, and_false, or_false, Multiset.mem_filter]
    constructor
    · rintro ⟨hf, hk, s, hs, ht, hi⟩
      exact ⟨hf, hk, by rw [FeatureFlag.scope, ht, hi]; exact hs⟩
    · rintro ⟨hf, hk, hs⟩
      exact ⟨hf, hk, f.scope, hs, rfl, rfl⟩

def flagOf (s : Scope) : Option FeatureFlag :=
  match FeatureFlagRepository.getByKeyAndScope () t key s.1 s.2 with
  | .ok f => f
  | .error _ => none

def globalDefault : Bool := ((flagOf t key ("global", none)).map FeatureFlag.enabled).getD true

theorem getByKeyAndScope_eq (e : E) (s : Scope) :
    FeatureFlagRepository.getByKeyAndScope e t key s.1 s.2 = .ok (flagOf t key s) ∧
      ∀ f, flagOf t key s = some f ↔ f ∈ t.rows ∧ f.key = key ∧ f.scope = s := by
  have hkey : ∀ f : FeatureFlag, f.key = key ∧ f.scopeType = s.1 ∧ f.scopeId = s.2 →
      f.indexKey = (key, s.1, s.2.getD "") := by
    rintro f ⟨rfl, ht, hi⟩
    rw [FeatureFlag.indexKey, ht, hi]
  obtain ⟨o, ho, hmem⟩ := t.scalarOneOrNone_filter_key (f := FeatureFlag.indexKey) (by simp) e hkey
  obtain ⟨o', ho', hmem'⟩ :=
    t.scalarOneOrNone_filter_key (f := FeatureFlag.indexKey) (by simp) () hkey
  have hflag : flagOf t key s = o' := by
    simp only [flagOf, FeatureFlagRepository.getByKeyAndScope, ho']
  have hoo : o = o' := Option.ext fun f => (hmem f).trans (hmem' f).symm
  refine ⟨by rw [hflag, ← hoo]; exact ho, fun f => ?_⟩
  rw [hflag, hmem' f]
  simp only [FeatureFlag.scope, Prod.ext_iff]

theorem flagOf_eq_some {f : FeatureFlag} :
    flagOf t key s = some f ↔ f ∈ t.rows ∧ f.key = key ∧ f.scope = s :=
  (getByKeyAndScope_eq t key () s).2 f

theorem isEnabled_eq (e : E) (s : Scope) :
    isEnabled e t key s.1 s.2 = .ok (if s.1 ≠ "global" ∧ s.2 ≠ none then
      ((flagOf t key s).map FeatureFlag.enabled).getD (globalDefault t key)
      else globalDefault t key) := by
  have hscoped := (getByKeyAndScope_eq t key e s).1
  have hglobal := (getByKeyAndScope_eq t key e ("global", none)).1
  have hdefault : (do
      match ← FeatureFlagRepository.getByKeyAndScope e t key "global" none with
      | some globalFlag => return globalFlag.enabled
      | none => return true : Except E Bool) = .ok (globalDefault t key) := by
    rw [hglobal]
    rw [globalDefault]
    cases flagOf t key ("global", none) <;> rfl
  rw [isEnabled]
  by_cases hs : s.1 ≠ "global" ∧ s.2 ≠ none
  · rw [if_pos hs, if_pos hs, hscoped]
    cases flagOf t key s with
    | none => exact hdefault
    | some f => rfl
  · rw [if_neg hs, if_neg hs]
    exact hdefault

def batchFlags (rows : Listing FeatureFlag) (scopes : List Scope) :
    Option FeatureFlag × (Scope → Option FeatureFlag) :=
  separate (rows.list (FeatureFlagRepository.getMultipleByKeyAndScopes t key scopes))

def batchDefault (rows : Listing FeatureFlag) (scopes : List Scope) : Bool :=
  ((batchFlags t key rows scopes).1.map FeatureFlag.enabled).getD true

def FallsBack (s : Scope) : Prop := s.1 = "global" ∨ flagOf t key s = none

theorem evaluateScopes_eq_resolve (rows : Listing FeatureFlag) (hs : s ∈ scopes) :
    evaluateScopes rows t key scopes s = some (resolve (batchFlags t key rows scopes) s) := by
  have hfold : ∀ (g : Scope → Bool) (l : List Scope) (r : Scope → Option Bool),
      l.foldl (fun r s => update r s (some (g s))) r s = if s ∈ l then some (g s) else r s := by
    intro g l
    induction l with
    | nil => simp
    | cons a l ih =>
      intro r
      rw [List.foldl_cons, ih]
      by_cases hsl : s ∈ l
      · simp [hsl]
      · by_cases hsa : s = a <;> simp [hsl, hsa]
  rw [evaluateScopes]
  rw [if_neg (List.ne_nil_of_mem hs)]
  simp only [hfold, if_pos hs]
  rfl

theorem mem_batch (rows : Listing FeatureFlag) {f : FeatureFlag} :
    f ∈ rows.list (FeatureFlagRepository.getMultipleByKeyAndScopes t key scopes) ↔
      f ∈ t.rows ∧ f.key = key ∧ f.scope ∈ scopes :=
  rows.mem_list.trans (mem_getMultiple t key)

/-- Of the requested scopes the batch query misses no flag but the global one. -/
theorem batchFlags_scoped (rows : Listing FeatureFlag) (hs : s ∈ scopes) :
    (batchFlags t key rows scopes).2 s = if s.1 = "global" then none else flagOf t key s := by
  refine Option.ext fun f => ⟨fun h => ?_, fun h => ?_⟩
  · obtain ⟨hmem, hg, rfl⟩ := mem_of_separate_scoped h
    obtain ⟨hf, hk, -⟩ := (mem_batch t key rows).mp hmem
    have hst : f.scope.1 ≠ "global" := hg
    rw [if_neg hst]
    exact (flagOf_eq_some t key).mpr ⟨hf, hk, rfl⟩
  · by_cases hg : s.1 = "global"
    · simp [hg] at h
    · rw [if_neg hg] at h
      obtain ⟨hf, hk, rfl⟩ := (flagOf_eq_some t key).mp h
      have hmem := (mem_batch t key rows).mpr ⟨hf, hk, hs⟩
      obtain ⟨f', hf'⟩ := Option.isSome_iff_exists.mp (separate_scoped_isSome hmem hg)
      obtain ⟨hmem', -, hscope⟩ := mem_of_separate_scoped hf'
      obtain ⟨hf'', hk', -⟩ := (mem_batch t key rows).mp hmem'
      have hsame := (flagOf_eq_some t key).mpr ⟨hf'', hk', hscope⟩
      exact hf'.trans (hsame.symm.trans h)

theorem evaluateScopes_eq (rows : Listing FeatureFlag) (hs : s ∈ scopes) :
    evaluateScopes rows t key scopes s = some
      (((if s.1 = "global" then none else flagOf t key s).map FeatureFlag.enabled).getD
        (batchDefault t key rows scopes)) := by
  rw [evaluateScopes_eq_resolve t key rows hs, Option.some.injEq]
  rw [resolve, batchDefault]
  rw [batchFlags_scoped t key rows hs]
  cases (if s.1 = "global" then none else flagOf t key s) with
  | some f => rfl
  | none => cases (batchFlags t key rows scopes).1 <;> rfl

theorem evaluateScopes_fallsBack (rows : Listing FeatureFlag) (hs : s ∈ scopes)
    (h : FallsBack t key s) :
    evaluateScopes rows t key scopes s = some (batchDefault t key rows scopes) := by
  rw [evaluateScopes_eq t key rows hs]
  obtain hg | hnone := h
  · simp [hg]
  · simp [hnone]

theorem isEnabled_fallsBack (e : E) (h : FallsBack t key s) :
    isEnabled e t key s.1 s.2 = .ok (globalDefault t key) := by
  rw [isEnabled_eq]
  obtain hg | hnone := h
  · simp [hg]
  · simp [hnone]

/-- In whatever order the rows arrive, each entry of the batch is what the single
evaluation of its scope returns. -/
def Agrees (e : E) (scopes : List Scope) : Prop :=
  ∀ (rows : Listing FeatureFlag), ∀ s ∈ scopes, ∃ enabled,
    evaluateScopes rows t key scopes s = some enabled ∧ isEnabled e t key s.1 s.2 = .ok enabled

structure Agreeable (scopes : List Scope) : Prop where
  unidentified : ∀ f ∈ t.rows, f.key = key → f.scope ∈ scopes → f.scopeType ≠ "global" →
    f.scopeId = none → f.enabled = globalDefault t key
  requested : (∃ s ∈ scopes, FallsBack t key s) →
    ∀ f ∈ t.rows, f.key = key → f.scope ∈ scopes → f.scopeType = "global" →
      f.enabled = globalDefault t key
  absent : (∃ s ∈ scopes, FallsBack t key s) →
    (∀ f ∈ t.rows, f.key = key → f.scope ∈ scopes → f.scopeType ≠ "global") →
      globalDefault t key = true

theorem Agrees.batchDefault_eq {e : E} (h : Agrees t key e scopes)
    (hback : ∃ s ∈ scopes, FallsBack t key s) (rows : Listing FeatureFlag) :
    batchDefault t key rows scopes = globalDefault t key := by
  obtain ⟨s, hs, hback⟩ := hback
  obtain ⟨b, hb, hsingle⟩ := h rows s hs
  rw [evaluateScopes_fallsBack t key rows hs hback, Option.some.injEq] at hb
  rw [isEnabled_fallsBack t key e hback, Except.ok.injEq] at hsingle
  exact hb.trans hsingle.symm

theorem Agrees.agreeable {e : E} (h : Agrees t key e scopes) : Agreeable t key scopes := by
  refine ⟨fun f hf hk hs hg hid => ?_, fun hback f hf hk hs hg => ?_, fun hback hnone => ?_⟩
  · obtain ⟨b, hb, hsingle⟩ := h default f.scope hs
    have hflag : flagOf t key f.scope = some f := (flagOf_eq_some t key).mpr ⟨hf, hk, rfl⟩
    have hst : f.scope.1 ≠ "global" := hg
    have hsi : f.scope.2 = none := hid
    rw [evaluateScopes_eq t key default hs, if_neg hst, hflag, Option.some.injEq] at hb
    rw [isEnabled_eq, if_neg (by simp [hsi]), Except.ok.injEq] at hsingle
    exact hb.trans hsingle.symm
  · -- the row may be the last to arrive, and then it is the fallback
    obtain ⟨rows, init, hrows⟩ := Listing.exists_last ((mem_getMultiple t key).mpr ⟨hf, hk, hs⟩)
    have hlast := h.batchDefault_eq t key hback rows
    rw [batchDefault, batchFlags] at hlast
    rw [hrows, separate_append, if_pos hg] at hlast
    exact hlast
  · have hempty : (batchFlags t key default scopes).1 = none := by
      refine Option.eq_none_iff_forall_ne_some.mpr fun f hf => ?_
      obtain ⟨hmem, hg⟩ := mem_of_separate_global hf
      obtain ⟨hf', hk, hs⟩ := (mem_batch t key default).mp hmem
      exact hnone f hf' hk hs hg
    have hdefault := h.batchDefault_eq t key hback default
    rw [batchDefault] at hdefault
    rw [hempty] at hdefault
    exact hdefault.symm

theorem Agreeable.batchDefault_eq (h : Agreeable t key scopes)
    (hback : ∃ s ∈ scopes, FallsBack t key s) (rows : Listing FeatureFlag) :
    batchDefault t key rows scopes = globalDefault t key := by
  rw [batchDefault]
  cases hglobal : (batchFlags t key rows scopes).1 with
  | some f =>
    obtain ⟨hmem, hg⟩ := mem_of_separate_global hglobal
    obtain ⟨hf, hk, hfs⟩ := (mem_batch t key rows).mp hmem
    exact h.requested hback f hf hk hfs hg
  | none =>
    refine (h.absent hback fun f hf hk hfs hg => ?_).symm
    have hsome := separate_global_isSome ((mem_batch t key rows).mpr ⟨hf, hk, hfs⟩) hg
    change (batchFlags t key rows scopes).1.isSome at hsome
    rw [hglobal] at hsome
    cases hsome

theorem Agreeable.agrees (h : Agreeable t key scopes) (e : E) : Agrees t key e scopes := by
  intro rows s hs
  refine ⟨_, evaluateScopes_eq t key rows hs, ?_⟩
  by_cases hback : FallsBack t key s
  · rw [isEnabled_fallsBack t key e hback, h.batchDefault_eq t key ⟨s, hs, hback⟩ rows]
    obtain hg | hnone := hback
    · simp [hg]
    · simp [hnone]
  · obtain ⟨hg, hsome⟩ := not_or.mp hback
    obtain ⟨f, hflag⟩ := Option.ne_none_iff_exists'.mp hsome
    rw [isEnabled_eq, if_neg hg, hflag]
    by_cases hid : s.2 = none
    · obtain ⟨hf, hk, rfl⟩ := (flagOf_eq_some t key).mp hflag
      have hdefault := h.unidentified f hf hk hs hg hid
      simp [hid, hdefault]
    · simp [hg, hid]

theorem agrees_iff_agreeable (e : E) : Agrees t key e scopes ↔ Agreeable t key scopes :=
  ⟨fun h => h.agreeable t key, fun h => h.agrees t key e⟩

end

end ClickNBack.FeatureFlags
