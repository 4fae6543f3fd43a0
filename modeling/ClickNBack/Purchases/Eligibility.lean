import ClickNBack.FeatureFlags.Evaluation
import ClickNBack.Purchases.Models

namespace ClickNBack.Purchases

open Relational FeatureFlags

def autoConfirmKey : String := "purchase_auto_confirm"

namespace Purchase

def userScope (p : Purchase) : Scope := ("user", some p.userId)

def merchantScope (p : Purchase) : Scope := ("merchant", some p.merchantId)

end Purchase

/-- The set `scope_specs` of `filter_eligible_purchases`. -/
def scopeSpecs (purchases : List Purchase) : Multiset Scope :=
  (purchases.flatMap fun p => [p.userScope, p.merchantScope] : Multiset Scope).dedup

/-- One round of the loop of `filter_eligible_purchases`; none is a KeyError. -/
def sortPurchase (scopeResults : Scope → Option Bool) :
    List Purchase × Nat → Purchase → Option (List Purchase × Nat)
  | (eligible, ineligible), purchase => do
    let userEnabled ← scopeResults purchase.userScope
    let merchantEnabled ← scopeResults purchase.merchantScope
    if userEnabled && merchantEnabled then return (eligible ++ [purchase], ineligible)
    else return (eligible, ineligible + 1)

/-- `FeatureFlagClient.filter_eligible_purchases`; `specs` is the order in which the
set of scopes is listed. -/
def filterEligiblePurchases (rows : Listing FeatureFlag) (specs : Listing Scope)
    (t : FeatureFlagTable) (purchases : List Purchase) : Option (List Purchase × Nat) :=
  if purchases = [] then some ([], 0)
  else
    let scopeResults := evaluateScopes rows t autoConfirmKey (specs.list (scopeSpecs purchases))
    purchases.foldlM (sortPurchase scopeResults) ([], 0)

/-- The purchase is eligible by single evaluations. -/
def AutoConfirms (t : FeatureFlagTable) (p : Purchase) : Prop :=
  isEnabled PurchaseException.multipleResultsFound t autoConfirmKey "user" (some p.userId) =
      .ok true ∧
    isEnabled PurchaseException.multipleResultsFound t autoConfirmKey "merchant"
      (some p.merchantId) = .ok true

def setting (t : FeatureFlagTable) (default : Bool) (s : Scope) : Bool :=
  ((flagOf t autoConfirmKey s).map FeatureFlag.enabled).getD default

section

variable (t : FeatureFlagTable) (p : Purchase) {purchases : List Purchase}

theorem autoConfirms_iff :
    AutoConfirms t p ↔ (setting t (globalDefault t autoConfirmKey) p.userScope &&
      setting t (globalDefault t autoConfirmKey) p.merchantScope) = true := by
  have huser := isEnabled_eq t autoConfirmKey PurchaseException.multipleResultsFound p.userScope
  have hmerchant :=
    isEnabled_eq t autoConfirmKey PurchaseException.multipleResultsFound p.merchantScope
  simp only [Purchase.userScope, Purchase.merchantScope] at huser hmerchant
  simp [AutoConfirms, huser, hmerchant, setting, Purchase.userScope, Purchase.merchantScope]

instance : DecidablePred (AutoConfirms t) := fun p => decidable_of_iff _ (autoConfirms_iff t p).symm

theorem mem_scopeSpecs {s : Scope} :
    s ∈ scopeSpecs purchases ↔ ∃ p ∈ purchases, s = p.userScope ∨ s = p.merchantScope := by
  simp [scopeSpecs]

/-- A batch of user and merchant scopes never sees the global flag. -/
theorem evaluateScopes_scopeSpecs (rows : Listing FeatureFlag) (specs : Listing Scope) {s : Scope}
    (hs : s ∈ scopeSpecs purchases) :
    evaluateScopes rows t autoConfirmKey (specs.list (scopeSpecs purchases)) s =
      some (setting t true s) := by
  have hscoped : ∀ s ∈ scopeSpecs purchases, s.1 ≠ "global" := by
    intro s hs
    obtain ⟨p, -, rfl | rfl⟩ := mem_scopeSpecs.mp hs <;>
      simp [Purchase.userScope, Purchase.merchantScope]
  have hnone : (batchFlags t autoConfirmKey rows (specs.list (scopeSpecs purchases))).1 = none := by
    refine Option.eq_none_iff_forall_ne_some.mpr fun f hf => ?_
    obtain ⟨hmem, hg⟩ := mem_of_separate_global hf
    obtain ⟨-, -, hfs⟩ := (mem_batch t autoConfirmKey rows).mp hmem
    exact hscoped f.scope (specs.mem_list.mp hfs) hg
  rw [evaluateScopes_eq t autoConfirmKey rows (specs.mem_list.mpr hs), if_neg (hscoped s hs)]
  rw [batchDefault]
  rw [hnone]
  rfl

def batchEligible : Bool := setting t true p.userScope && setting t true p.merchantScope

theorem sortPurchase_eq {scopeResults : Scope → Option Bool}
    (huser : scopeResults p.userScope = some (setting t true p.userScope))
    (hmerchant : scopeResults p.merchantScope = some (setting t true p.merchantScope))
    (eligible : List Purchase) (ineligible : Nat) :
    sortPurchase scopeResults (eligible, ineligible) p =
      some (if batchEligible t p then (eligible ++ [p], ineligible)
        else (eligible, ineligible + 1)) := by
  simp only [sortPurchase, huser, hmerchant, Option.bind_eq_bind, Option.bind_some]
  change (if batchEligible t p then _ else _) = _
  cases batchEligible t p <;> rfl

theorem foldlM_sortPurchase {scopeResults : Scope → Option Bool} {l : List Purchase}
    (h : ∀ p ∈ l, scopeResults p.userScope = some (setting t true p.userScope) ∧
      scopeResults p.merchantScope = some (setting t true p.merchantScope))
    (eligible : List Purchase) (ineligible : Nat) :
    l.foldlM (sortPurchase scopeResults) (eligible, ineligible) =
      some (eligible ++ l.filter (batchEligible t),
        ineligible + l.countP fun p => !batchEligible t p) := by
  induction l generalizing eligible ineligible with
  | nil => simp
  | cons p l ih =>
    obtain ⟨huser, hmerchant⟩ := h p List.mem_cons_self
    have hrest := ih fun q hq => h q (List.mem_cons_of_mem p hq)
    rw [List.foldlM_cons, sortPurchase_eq t p huser hmerchant, Option.bind_eq_bind,
      Option.bind_some]
    cases hb : batchEligible t p with
    | true =>
      rw [if_pos rfl, hrest]
      simp [hb]
    | false =>
      rw [if_neg (by simp), hrest]
      simp [hb, Nat.add_assoc, Nat.add_comm 1]

theorem filterEligiblePurchases_eq (rows : Listing FeatureFlag) (specs : Listing Scope)
    (purchases : List Purchase) :
    filterEligiblePurchases rows specs t purchases =
      some (purchases.filter (batchEligible t), purchases.countP fun p => !batchEligible t p) := by
  rw [filterEligiblePurchases]
  by_cases h : purchases = []
  · simp [h]
  · rw [if_neg h]
    refine (foldlM_sortPurchase t (fun p hp => ?_) [] 0).trans (by simp)
    exact ⟨evaluateScopes_scopeSpecs t rows specs (mem_scopeSpecs.mpr ⟨p, hp, Or.inl rfl⟩),
      evaluateScopes_scopeSpecs t rows specs (mem_scopeSpecs.mpr ⟨p, hp, Or.inr rfl⟩)⟩

def OwnFlags : Prop :=
  (∃ f, (flagOf t autoConfirmKey p.userScope = some f ∨
    flagOf t autoConfirmKey p.merchantScope = some f) ∧ f.enabled = false) ∨
  (flagOf t autoConfirmKey p.userScope).isSome ∧ (flagOf t autoConfirmKey p.merchantScope).isSome

theorem batchEligible_iff_autoConfirms :
    batchEligible t p = decide (AutoConfirms t p) ↔
      globalDefault t autoConfirmKey = true ∨ OwnFlags t p := by
  rw [Bool.eq_iff_iff, decide_eq_true_iff, autoConfirms_iff]
  unfold batchEligible OwnFlags setting
  cases flagOf t autoConfirmKey p.userScope with
  | none =>
    cases flagOf t autoConfirmKey p.merchantScope with
    | none => cases globalDefault t autoConfirmKey <;> simp
    | some g => cases globalDefault t autoConfirmKey <;> cases hg : g.enabled <;> simp [hg]
  | some f =>
    cases flagOf t autoConfirmKey p.merchantScope with
    | none => cases globalDefault t autoConfirmKey <;> cases hf : f.enabled <;> simp [hf]
    | some g => simp

theorem filter_countP_eq_iff {P Q : Purchase → Bool} (l : List Purchase) :
    (l.filter P, l.countP fun p => !P p) = (l.filter Q, l.countP fun p => !Q p) ↔
      ∀ p ∈ l, P p = Q p := by
  constructor
  · intro h p hp
    have hfilter : l.filter P = l.filter Q := congrArg Prod.fst h
    have hmem : p ∈ l.filter P ↔ p ∈ l.filter Q := by rw [hfilter]
    rw [Bool.eq_iff_iff]
    simpa [hp] using hmem
  · intro h
    refine Prod.ext (List.filter_congr h) (List.countP_congr fun p hp => ?_)
    simp [h p hp]

end

/-- The batch evaluations agree with the single ones exactly when the rows that
the batch query misses make no difference. -/
theorem batch_agrees_iff (t : FeatureFlagTable) :
    (∀ key scopes, Agrees t key PurchaseException.multipleResultsFound scopes ↔
      Agreeable t key scopes) ∧
    ∀ purchases, (∀ rows specs, filterEligiblePurchases rows specs t purchases =
        some (purchases.filter fun p => AutoConfirms t p,
          purchases.countP fun p => !decide (AutoConfirms t p))) ↔
      (globalDefault t autoConfirmKey = true ∨ ∀ p ∈ purchases, OwnFlags t p) := by
  refine ⟨fun key scopes => agrees_iff_agreeable t key _, fun purchases => ?_⟩
  have hpointwise : (∀ p ∈ purchases, batchEligible t p = decide (AutoConfirms t p)) ↔
      (globalDefault t autoConfirmKey = true ∨ ∀ p ∈ purchases, OwnFlags t p) := by
    simp only [batchEligible_iff_autoConfirms]
    by_cases h : globalDefault t autoConfirmKey = true <;> simp [h]
  rw [← hpointwise, ← filter_countP_eq_iff]
  constructor
  · intro h
    have hdefault := h default default
    rw [filterEligiblePurchases_eq] at hdefault
    exact Option.some.inj hdefault
  · intro h rows specs
    rw [filterEligiblePurchases_eq, h]

def switchedOff : FeatureFlagTable := ⟨{⟨autoConfirmKey, false, "global", none, none⟩}, by simp⟩

theorem switchedOff_ignored :
    ¬ Agrees switchedOff autoConfirmKey PurchaseException.multipleResultsFound
      [("user", some "ana")] := by
  intro h
  have habsent := (h.agreeable _ _).absent ⟨_, List.mem_singleton_self _, Or.inr (by decide)⟩
    (by decide)
  revert habsent
  decide

end ClickNBack.Purchases
