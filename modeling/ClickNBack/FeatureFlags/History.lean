import ClickNBack.FeatureFlags.Services
import ClickNBack.Transition.Runs

namespace ClickNBack.FeatureFlags

open Relational Transition

def runCalls (calls : List Call) : FeatureFlagTable := run Call.exec calls Table.empty

def accepted : List Call → FeatureFlagTable → List Call
  | [], _ => []
  | c :: calls, t =>
    if (setFlag c.key c.data t).isOk then c :: accepted calls (c.exec t)
    else accepted calls (c.exec t)

def latest (calls : List Call) (P : Call → Prop) [DecidablePred P] : Option Bool :=
  (calls.reverse.find? P).map fun c => c.data.enabled

def Call.Sets (key : String) (s : Scope) (c : Call) : Prop := c.key = key ∧ c.scope = s

def Call.SetsGlobal (key : String) (c : Call) : Prop := c.key = key ∧ c.data.scopeType = .global

instance (key : String) (s : Scope) : DecidablePred (Call.Sets key s) :=
  fun c => inferInstanceAs (Decidable (c.key = key ∧ c.scope = s))

instance (key : String) : DecidablePred (Call.SetsGlobal key) :=
  fun c => inferInstanceAs (Decidable (c.key = key ∧ c.data.scopeType = .global))

/-- The latest setting of the scope, else the latest global setting, else True. -/
def resolved (calls : List Call) (key : String) (s : Scope) : Bool :=
  let own := if s.1 ≠ "global" then latest calls (Call.Sets key s) else none
  (own <|> latest calls (Call.SetsGlobal key)).getD true

/-- Evaluations answer by the history of calls, there is one row for a key and
scope, and a call changes the row of its own key and scope only. -/
structure HistorySemantics (calls : List Call) : Prop where
  resolves : ∀ key scopeType scopeId, validateScopeIdRequired scopeType scopeId = .ok () →
    isEnabled FeatureFlagException.multipleResultsFound (runCalls calls) key scopeType scopeId =
      .ok (resolved (accepted calls Table.empty) key (scopeType, scopeId))
  unique : ∀ key s,
    ((runCalls calls).rows.filter fun f => f.key = key ∧ f.scope = s).card ≤ 1
  frame : ∀ pre c, pre ++ [c] <+: calls →
    (runCalls (pre ++ [c])).rows.filter (fun f => ¬ (f.key = c.key ∧ f.scope = c.scope)) =
      (runCalls pre).rows.filter fun f => ¬ (f.key = c.key ∧ f.scope = c.scope)

/-- For every key, the latest call of type 'global' sets what the latest one
without a scope_id sets. -/
def GlobalsVisible (calls : List Call) : Prop :=
  ∀ key, (latest calls (Call.SetsGlobal key)).getD true =
    (latest calls (Call.Sets key ("global", none))).getD true

/-- Identifiers are never empty, so the index tells them from NULL. -/
def Identified (t : FeatureFlagTable) : Prop := ∀ f ∈ t.rows, f.scopeId ≠ some ""

theorem str_ne_empty (u : Uuid) : u.str ≠ "" := by
  intro h
  have hlist := congrArg String.toList h
  simp [Uuid.str] at hlist

section

variable {t : FeatureFlagTable} {c : Call}

theorem scopeId_ne_empty (c : Call) : c.scope.2 ≠ some "" := by
  intro h
  obtain ⟨u, -, hu⟩ := Option.map_eq_some_iff.mp h
  exact str_ne_empty u hu

theorem indexKey_inj {f g : FeatureFlag} (hf : f.scopeId ≠ some "") (hg : g.scopeId ≠ some "")
    (h : f.indexKey = g.indexKey) : f.key = g.key ∧ f.scope = g.scope := by
  simp only [FeatureFlag.indexKey, Prod.mk.injEq] at h
  obtain ⟨hk, ht, hi⟩ := h
  have hid : f.scopeId = g.scopeId := by
    cases hf' : f.scopeId with
    | none =>
      cases hg' : g.scopeId with
      | none => rfl
      | some b =>
        rw [hf', hg'] at hi
        exact absurd (hg'.trans (congrArg some hi.symm)) hg
    | some a =>
      cases hg' : g.scopeId with
      | none =>
        rw [hf', hg'] at hi
        exact absurd (hf'.trans (congrArg some hi)) hf
      | some b =>
        rw [hf', hg'] at hi
        exact congrArg some hi
  exact ⟨hk, by rw [FeatureFlag.scope, FeatureFlag.scope, ht, hid]⟩

def others (t : FeatureFlagTable) (c : Call) : Multiset FeatureFlag :=
  t.rows.filter fun f => ¬ (f.key = c.key ∧ f.scope = c.scope)

theorem setFlag_eq (t : FeatureFlagTable)
    (hv : validateScopeIdRequired c.scope.1 c.scope.2 = .ok ()) :
    setFlag c.key c.data t =
      match flagOf t c.key c.scope with
      | some f => FeatureFlagRepository.upsert t true
          { f with enabled := c.data.enabled, description := c.data.description <|> f.description }
      | none => FeatureFlagRepository.upsert t false (c.row none) := by
  have hget := (getByKeyAndScope_eq t c.key FeatureFlagException.multipleResultsFound c.scope).1
  change (validateScopeIdRequired c.scope.1 c.scope.2 >>= fun _ =>
    FeatureFlagRepository.getByKeyAndScope FeatureFlagException.multipleResultsFound t c.key
      c.scope.1 c.scope.2 >>= _) = _
  rw [hv, hget]
  cases flagOf t c.key c.scope with
  | some f => rfl
  | none =>
    have hd : (c.data.description <|> none) = c.data.description := by
      cases c.data.description <;> rfl
    simp only [Call.row, Option.bind_none, hd]
    rfl

theorem setFlag_update {f : FeatureFlag} (hf : flagOf t c.key c.scope = some f)
    (hv : validateScopeIdRequired c.scope.1 c.scope.2 = .ok ()) :
    ∃ t', setFlag c.key c.data t = .ok (c.row (some f), t') ∧
      t'.rows = c.row (some f) ::ₘ others t c := by
  obtain ⟨hmem, hk, hs⟩ := (flagOf_eq_some t c.key).mp hf
  obtain ⟨rest, hrows, hne⟩ := t.exists_cons (f := FeatureFlag.indexKey) (by simp) hmem
  have hrest : others t c = rest := by
    rw [others]
    rw [hrows, Multiset.filter_cons_of_neg _ (by simp [hk, hs]), Multiset.filter_eq_self]
    intro x hx hsame
    apply hne x hx
    obtain ⟨ht, hi⟩ := Prod.mk.inj (hsame.2.trans hs.symm)
    rw [FeatureFlag.indexKey, FeatureFlag.indexKey, hsame.1.trans hk.symm, ht, hi]
  have hrow : c.row (some f) =
      { f with
        enabled := c.data.enabled
        description := c.data.description <|> f.description } := by
    rw [Call.row]
    rw [← hk, ← hs]
    rfl
  rw [setFlag_eq t hv, hf, hrest, hrow]
  exact ⟨_, rfl, t.modify_rows_of_cons _ (by simp) hrows rfl⟩

theorem setFlag_insert (ht : Identified t) (hf : flagOf t c.key c.scope = none)
    (hv : validateScopeIdRequired c.scope.1 c.scope.2 = .ok ()) :
    ∃ t', setFlag c.key c.data t = .ok (c.row none, t') ∧
      t'.rows = c.row none ::ₘ others t c := by
  have hnone : ∀ f ∈ t.rows, ¬ (f.key = c.key ∧ f.scope = c.scope) := by
    intro f hmem hsame
    have hsome := (flagOf_eq_some t c.key).mpr ⟨hmem, hsame⟩
    rw [hf] at hsome
    cases hsome
  have hothers : others t c = t.rows := Multiset.filter_eq_self.mpr hnone
  have hfree : t.Free (c.row none) := by
    intro g hg hmem
    obtain rfl := List.mem_singleton.mp hg
    obtain ⟨f, hf, hkey⟩ := Multiset.mem_map.mp hmem
    exact hnone f hf (indexKey_inj (ht f hf) (scopeId_ne_empty c) hkey)
  obtain ⟨t', ht'⟩ := Option.isSome_iff_exists.mp (t.insert_isSome.mpr hfree)
  rw [setFlag_eq t hv, hf, hothers]
  refine ⟨t', ?_, (t.insert_eq_some ht').2⟩
  simp only [FeatureFlagRepository.upsert, ht']
  rfl

theorem setFlag_accepted (ht : Identified t)
    (hv : validateScopeIdRequired c.scope.1 c.scope.2 = .ok ()) :
    ∃ flag t', setFlag c.key c.data t = .ok (flag, t') ∧
      t'.rows = c.row (flagOf t c.key c.scope) ::ₘ others t c := by
  cases hf : flagOf t c.key c.scope with
  | some f =>
    obtain ⟨t', h, hrows⟩ := setFlag_update hf hv
    exact ⟨_, t', h, hrows⟩
  | none =>
    obtain ⟨t', h, hrows⟩ := setFlag_insert ht hf hv
    exact ⟨_, t', h, hrows⟩

theorem setFlag_refused {e : FeatureFlagException}
    (hv : validateScopeIdRequired c.scope.1 c.scope.2 = .error e) :
    setFlag c.key c.data t = .error e := by
  change (validateScopeIdRequired c.scope.1 c.scope.2 >>= _) = _
  rw [hv]
  rfl

theorem flagOf_of_rows {t' : FeatureFlagTable} {f : FeatureFlag} (hk : f.key = c.key)
    (hs : f.scope = c.scope) (hrows : t'.rows = f ::ₘ others t c) (key : String) (s : Scope) :
    flagOf t' key s = if c.Sets key s then some f else flagOf t key s := by
  apply Option.ext
  intro g
  rw [flagOf_eq_some, hrows, Multiset.mem_cons, others, Multiset.mem_filter]
  by_cases hc : c.Sets key s
  · obtain ⟨rfl, rfl⟩ := hc
    rw [if_pos ⟨rfl, rfl⟩, Option.some.injEq]
    constructor
    · rintro ⟨hg | hg, hsame⟩
      · exact hg.symm
      · exact absurd hsame hg.2
    · rintro rfl
      exact ⟨Or.inl rfl, hk, hs⟩
  · rw [if_neg hc, flagOf_eq_some]
    constructor
    · rintro ⟨rfl | hg, hgk, hgs⟩
      · exact absurd ⟨hk.symm.trans hgk, hs.symm.trans hgs⟩ hc
      · exact ⟨hg.1, hgk, hgs⟩
    · rintro ⟨hg, hgk, hgs⟩
      refine ⟨Or.inr ⟨hg, fun hsame => hc ?_⟩, hgk, hgs⟩
      exact ⟨hsame.1.symm.trans hgk, hsame.2.symm.trans hgs⟩

end

theorem latest_append (calls : List Call) (c : Call) (P : Call → Prop) [DecidablePred P] :
    latest (calls ++ [c]) P = if P c then some c.data.enabled else latest calls P := by
  unfold latest
  rw [List.reverse_append, List.reverse_singleton, List.singleton_append, List.find?_cons]
  by_cases hc : P c
  · simp [hc]
  · simp [hc]

theorem accepted_append (calls : List Call) (c : Call) (t : FeatureFlagTable) :
    accepted (calls ++ [c]) t = accepted calls t ++
      if (setFlag c.key c.data (run Call.exec calls t)).isOk then [c] else [] := by
  induction calls generalizing t with
  | nil => rfl
  | cons d calls ih =>
    rw [List.cons_append]
    unfold accepted
    rw [ih]
    by_cases hd : (setFlag d.key d.data t).isOk
    · rw [if_pos hd, if_pos hd]
      rfl
    · rw [if_neg hd, if_neg hd]
      rfl

/-- Every row is the latest accepted setting of its scope. -/
structure Recorded (accepted : List Call) (t : FeatureFlagTable) : Prop where
  identified : Identified t
  enabled : ∀ key s, (flagOf t key s).map FeatureFlag.enabled = latest accepted (Call.Sets key s)

theorem Recorded.snoc {calls : List Call} {t : FeatureFlagTable} (h : Recorded calls t) (c : Call) :
    Recorded (calls ++ if (setFlag c.key c.data t).isOk then [c] else []) (c.exec t) ∧
      others (c.exec t) c = others t c := by
  cases hv : validateScopeIdRequired c.scope.1 c.scope.2 with
  | error e =>
    have hset := setFlag_refused (t := t) hv
    have hexec : c.exec t = t := by rw [Call.exec, hset]
    have hnot : (setFlag c.key c.data t).isOk = false := by rw [hset]; rfl
    rw [hexec, hnot, if_neg (by simp), List.append_nil]
    exact ⟨h, rfl⟩
  | ok u =>
    obtain ⟨flag, t', hset, hrows⟩ := setFlag_accepted h.identified hv
    have hexec : c.exec t = t' := by rw [Call.exec, hset]
    have hok : (setFlag c.key c.data t).isOk = true := by rw [hset]; rfl
    rw [hexec, hok, if_pos rfl]
    refine ⟨⟨?_, ?_⟩, ?_⟩
    · intro f hf
      rw [hrows, Multiset.mem_cons, others, Multiset.mem_filter] at hf
      obtain rfl | hf := hf
      · exact scopeId_ne_empty c
      · exact h.identified f hf.1
    · intro key s
      rw [flagOf_of_rows rfl rfl hrows, latest_append]
      by_cases hc : c.Sets key s
      · rw [if_pos hc, if_pos hc]
        rfl
      · rw [if_neg hc, if_neg hc]
        exact h.enabled key s
    · rw [others, hrows, Multiset.filter_cons_of_neg _ (by simp [Call.row, FeatureFlag.scope])]
      exact Multiset.filter_eq_self.mpr fun f hf => (Multiset.mem_filter.mp hf).2

theorem runCalls_append (calls : List Call) (c : Call) :
    runCalls (calls ++ [c]) = c.exec (runCalls calls) := run_append Call.exec calls [c] _

theorem recorded_runCalls (calls : List Call) :
    Recorded (accepted calls Table.empty) (runCalls calls) := by
  induction calls using List.reverseRecOn with
  | nil =>
    refine ⟨fun f hf => absurd hf (Multiset.notMem_zero f), fun key s => ?_⟩
    have hnone : flagOf (runCalls []) key s = none := by
      apply Option.eq_none_iff_forall_ne_some.mpr
      intro f hf
      exact Multiset.notMem_zero f ((flagOf_eq_some _ _).mp hf).1
    rw [hnone]
    rfl
  | append_singleton calls c ih =>
    rw [accepted_append, runCalls_append]
    exact (ih.snoc c).1

theorem latest_accepted (calls : List Call) (P : Call → Prop) [DecidablePred P]
    (hP : ∀ c, P c → c.data.scopeType = .global) :
    latest (accepted calls Table.empty) P = latest calls P := by
  induction calls using List.reverseRecOn with
  | nil => rfl
  | append_singleton calls c ih =>
    rw [accepted_append, latest_append]
    by_cases hc : P c
    · have hv : validateScopeIdRequired c.scope.1 c.scope.2 = .ok () := by
        rw [validateScopeIdRequired, Call.scope, hP c hc]
        rfl
      obtain ⟨flag, t', hset, -⟩ := setFlag_accepted (recorded_runCalls calls).identified hv
      have hok : (setFlag c.key c.data (runCalls calls)).isOk = true := by rw [hset]; rfl
      change latest (accepted calls Table.empty ++
        if (setFlag c.key c.data (runCalls calls)).isOk then [c] else []) P = _
      rw [hok, if_pos rfl, latest_append, if_pos hc, if_pos hc]
    · rw [if_neg hc]
      cases (setFlag c.key c.data (run Call.exec calls Table.empty)).isOk with
      | true => rw [if_pos rfl, latest_append, if_neg hc, ih]
      | false => rw [if_neg (by simp), List.append_nil, ih]

theorem setsGlobal_of_sets {key : String} {i : Option String} {c : Call}
    (h : c.Sets key ("global", i)) : c.data.scopeType = .global := by
  have ht : c.data.scopeType.value = "global" := (Prod.mk.inj h.2).1
  cases hc : c.data.scopeType with
  | global => rfl
  | merchant | user =>
    rw [hc] at ht
    exact absurd ht (by decide)

theorem globalDefault_runCalls (calls : List Call) (key : String) :
    globalDefault (runCalls calls) key =
      (latest calls (Call.Sets key ("global", none))).getD true := by
  rw [globalDefault, (recorded_runCalls calls).enabled,
    latest_accepted calls _ fun c hc => setsGlobal_of_sets hc]

theorem resolves_of_globalsVisible {calls : List Call} (h : GlobalsVisible calls)
    (key scopeType : String) (scopeId : Option String)
    (hv : validateScopeIdRequired scopeType scopeId = .ok ()) :
    isEnabled FeatureFlagException.multipleResultsFound (runCalls calls) key scopeType scopeId =
      .ok (resolved (accepted calls Table.empty) key (scopeType, scopeId)) := by
  have hglobal := latest_accepted calls (Call.SetsGlobal key) fun c hc => hc.2
  have hdefault := globalDefault_runCalls calls key
  rw [← h key, ← hglobal] at hdefault
  have heq := isEnabled_eq (runCalls calls) key FeatureFlagException.multipleResultsFound
    (scopeType, scopeId)
  rw [heq, resolved, (recorded_runCalls calls).enabled, hdefault]
  by_cases ht : scopeType = "global"
  · simp [ht]
  · have hi : scopeId ≠ none := by
      intro hi
      rw [validateScopeIdRequired, if_pos ⟨ht, hi⟩] at hv
      cases hv
    rw [if_pos ⟨ht, hi⟩, if_pos ht]
    cases latest (accepted calls Table.empty) (Call.Sets key (scopeType, scopeId)) <;> rfl

theorem card_filter_le_one (t : FeatureFlagTable) (key : String) (s : Scope) :
    (t.rows.filter fun f => f.key = key ∧ f.scope = s).card ≤ 1 := by
  have hle : t.rows.filter (fun f => f.key = key ∧ f.scope = s) ≤
      t.rows.filter fun f => f.indexKey = (key, s.1, s.2.getD "") := by
    apply Multiset.monotone_filter_right
    rintro f ⟨rfl, rfl⟩
    rfl
  have hcard := Multiset.card_le_card hle
  by_cases h : ∃ f ∈ t.rows, f.indexKey = (key, s.1, s.2.getD "")
  · obtain ⟨f, hf, hkey⟩ := h
    rw [← hkey, t.filter_of_mem (by simp) hf, Multiset.card_singleton] at hcard
    exact hcard
  · have hnone : ∀ f ∈ t.rows, f.indexKey ≠ (key, s.1, s.2.getD "") :=
      fun f hf hkey => h ⟨f, hf, hkey⟩
    rw [t.filter_of_not_mem hnone, Multiset.card_zero] at hcard
    exact hcard.trans (Nat.zero_le 1)

theorem historySemantics_iff_globalsVisible (calls : List Call) :
    HistorySemantics calls ↔ GlobalsVisible calls := by
  constructor
  · intro h key
    have hres := h.resolves key "global" none rfl
    have heq := isEnabled_eq (runCalls calls) key FeatureFlagException.multipleResultsFound
      ("global", none)
    rw [heq, if_neg (by simp), globalDefault_runCalls, Except.ok.injEq, resolved,
      if_neg (by simp), latest_accepted calls (Call.SetsGlobal key) fun c hc => hc.2] at hres
    exact hres.symm
  · intro h
    refine ⟨resolves_of_globalsVisible h, card_filter_le_one (runCalls calls), fun pre c _ => ?_⟩
    rw [runCalls_append]
    exact ((recorded_runCalls pre).snoc c).2

/-- A global flag with a scope_id is accepted, and no evaluation sees it. -/
theorem identifiedGlobal_unseen :
    ¬ HistorySemantics [⟨"purchase_confirmation_job", ⟨false, .global, some ⟨7⟩, none⟩⟩] := by
  intro h
  have hres := h.resolves "purchase_confirmation_job" "global" none rfl
  revert hres
  decide +kernel

end ClickNBack.FeatureFlags
