import ClickNBack.Offers.Services
import ClickNBack.Transition.Runs

namespace ClickNBack.Offers

open Numeric Relational Transition

section

variable {F E : Type}

def activeOffers (offers : OfferTable F) (merchantId : String) : Multiset (Offer F) :=
  offers.rows.filter fun o => o.merchantId = merchantId ∧ o.active

def AtMostOneActive (offers : OfferTable F) : Prop :=
  ∀ merchantId, (activeOffers offers merchantId).card ≤ 1

/-- With one active offer at most, the query of the purchases module never finds two. -/
theorem AtMostOneActive.getActiveOffer {offers : OfferTable F} (h : AtMostOneActive offers) (e : E)
    (merchantId : String) (today : Nat) :
    ∃ r, getActiveOfferForMerchant e offers merchantId today = .ok r := by
  refine scalarOneOrNone_ok ((Multiset.card_le_card ?_).trans (h merchantId))
  refine Multiset.monotone_filter_right _ fun o ho => ?_
  simp only [Offer.isAvailable, decide_eq_true_eq] at ho
  exact ⟨ho.1, ho.2.1⟩

theorem AtMostOneActive.getActiveOffer_eq_some {offers : OfferTable F} (h : AtMostOneActive offers)
    {e : E} {merchantId : String} {today : Nat} {o : Offer F} :
    getActiveOfferForMerchant e offers merchantId today = .ok (some o) ↔
      o ∈ offers.rows ∧ o.isAvailable merchantId today := by
  refine ⟨getActiveOfferForMerchant_some, fun ho => ?_⟩
  obtain ⟨r, hr⟩ := h.getActiveOffer e merchantId today
  rw [hr, scalarOneOrNone_of_mem (Multiset.mem_filter.mpr ho) hr]

theorem activeOffers_cons {offers : OfferTable F} {o : Offer F} {rest : Multiset (Offer F)}
    (hrows : offers.rows = o ::ₘ rest) (merchantId : String) :
    activeOffers offers merchantId =
      (if o.merchantId = merchantId ∧ o.active then {o} else 0) +
        rest.filter fun o => o.merchantId = merchantId ∧ o.active := by
  rw [activeOffers]
  rw [hrows, Multiset.filter_cons]

end

variable {d : OfferDatabase}

theorem AtMostOneActive.created (h : AtMostOneActive d.offers) {offer : Offer PyFloat}
    {d' : OfferDatabase} (hd : CreationOutcome d offer d') : AtMostOneActive d'.offers := by
  obtain hsame | ⟨hnone, hrows⟩ := hd
  · rw [hsame]
    exact h
  · intro m
    rw [activeOffers_cons hrows m]
    by_cases hm : offer.merchantId = m
    · subst hm
      rw [hnone, Multiset.add_zero]
      split <;> simp
    · simpa [hm, activeOffers] using h m

theorem updateOfferStatus_rows {o : Offer PyFloat} (ho : o ∈ d.offers.rows) (active : Bool) :
    ∃ rest, d.offers.rows = o ::ₘ rest ∧ (∀ x ∈ rest, x.id ≠ o.id) ∧
      (OfferRepository.updateOfferStatus d o active).2.offers.rows =
        o.withStatus active ::ₘ rest := by
  obtain ⟨rest, hrows, hne⟩ := d.offers.exists_cons (f := Offer.id) (by simp) ho
  exact ⟨rest, hrows, hne, Table.modify_rows_of_cons _ (by simp [Offer.withStatus]) (by simp)
    hrows rfl⟩

/-- The call does not activate an offer beside another active one. -/
def Call.KeepsApart (c : Call) (d : OfferDatabase) : Prop :=
  ∀ offerId, c = .setOfferStatus offerId true → ∀ o, d.offers.find Offer.id offerId = some o →
    ∀ o' ∈ d.offers.rows, o'.id ≠ o.id → o'.merchantId = o.merchantId → o'.active = false

theorem AtMostOneActive.exec (h : AtMostOneActive d.offers) {c : Call} (hc : c.KeepsApart d) :
    AtMostOneActive (c.exec d).offers := by
  cases c with
  | createOffer => exact h.created (createOffer_outcome d _ _ _ _)
  | setMerchantStatus merchantId active =>
    rw [setMerchantStatus_offers]
    exact h
  | setOfferStatus offerId active =>
    rw [setOfferStatus_exec]
    cases ho : d.offers.find Offer.id offerId with
    | none => exact h
    | some o =>
      obtain ⟨rest, hrows, hne, hrows'⟩ :=
        updateOfferStatus_rows ((d.offers.find_eq_some (by simp)).mp ho).1 active
      intro m
      have hbefore := h m
      rw [activeOffers_cons hrows m, Multiset.card_add] at hbefore
      rw [activeOffers_cons hrows' m]
      by_cases hon : o.merchantId = m ∧ active
      · obtain ⟨rfl, rfl⟩ := hon
        have hrest : rest.filter (fun x => x.merchantId = o.merchantId ∧ x.active) = 0 := by
          refine Multiset.filter_eq_nil.mpr fun x hx hactive => ?_
          have hoff := hc offerId rfl o ho x (by simp [hrows, hx]) (hne x hx) hactive.1
          rw [hoff] at hactive
          exact absurd hactive.2 (by simp)
        rw [hrest, Multiset.add_zero]
        split <;> simp
      · have hoff : ¬ ((o.withStatus active).merchantId = m ∧ (o.withStatus active).active) := hon
        rw [if_neg hoff, Multiset.zero_add]
        omega

theorem Call.not_keepsApart {c : Call} (hc : ¬ c.KeepsApart d) :
    ¬ AtMostOneActive (c.exec d).offers := by
  rw [Call.KeepsApart] at hc
  push Not at hc
  obtain ⟨offerId, rfl, o, ho, o', ho', hid, hmerchant, hactive⟩ := hc
  obtain ⟨rest, hrows, -, hrows'⟩ :=
    updateOfferStatus_rows ((d.offers.find_eq_some (by simp)).mp ho).1 true
  intro h
  have hcard := h o.merchantId
  rw [setOfferStatus_exec, ho] at hcard
  change (activeOffers (OfferRepository.updateOfferStatus d o true).2.offers o.merchantId).card ≤ 1
    at hcard
  rw [activeOffers_cons hrows' o.merchantId, if_pos ⟨rfl, rfl⟩, Multiset.card_add,
    Multiset.card_singleton] at hcard
  have hmem : o' ∈ rest.filter fun x => x.merchantId = o.merchantId ∧ x.active := by
    refine Multiset.mem_filter.mpr ⟨?_, hmerchant, by simpa using hactive⟩
    rw [hrows] at ho'
    exact (Multiset.mem_cons.mp ho').resolve_left fun e => hid (e ▸ rfl)
  have hpos := Multiset.card_pos_iff_exists_mem.mpr ⟨o', hmem⟩
  omega

def noOffers (merchants : MerchantTable) : OfferDatabase := ⟨merchants, Table.empty⟩

/-- No merchant has two active offers in any state of a run, and ingestion never
finds two, exactly when no call activates an offer beside another active one. -/
theorem atMostOneActive_iff_keepsApart (merchants : MerchantTable) (calls : List Call) :
    (∀ pre, pre <+: calls →
      AtMostOneActive (run Call.exec pre (noOffers merchants)).offers ∧
      ∀ merchantId today, ∃ r, getActiveOfferForMerchant OfferException.multipleResultsFound
        (run Call.exec pre (noOffers merchants)).offers merchantId today = .ok r) ↔
      ∀ pre c, pre ++ [c] <+: calls → c.KeepsApart (run Call.exec pre (noOffers merchants)) := by
  refine run_holds_iff (I := fun d : OfferDatabase => AtMostOneActive d.offers)
    (P := fun d : OfferDatabase => AtMostOneActive d.offers ∧ ∀ merchantId today, ∃ r,
      getActiveOfferForMerchant OfferException.multipleResultsFound d.offers merchantId today =
        .ok r)
    ?_ ?_ (fun c d h hc => h.exec hc) (fun c d _ hc h => c.not_keepsApart hc h.1) calls
  · exact fun m => Nat.zero_le 1
  · exact fun d h => ⟨h, h.getActiveOffer _⟩

/-- An offer is switched off, replaced and switched on again. -/
def reactivation : List Call :=
  let max := .ofNat 20 (by decide)
  let value := .ofNat 10 (by decide)
  let cap := .ofNat 100 (by decide)
  [.createOffer max "old" 1 ⟨"shop", .percent, value, 1, 30, cap⟩,
    .setOfferStatus "old" false,
    .createOffer max "new" 2 ⟨"shop", .percent, value, 2, 30, cap⟩,
    .setOfferStatus "old" true]

theorem reactivation_two_active :
    ¬ AtMostOneActive
      (run Call.exec reactivation (noOffers ⟨{⟨"shop", "Shop", true⟩}, by simp⟩)).offers ∧
    getActiveOfferForMerchant OfferException.multipleResultsFound
      (run Call.exec reactivation (noOffers ⟨{⟨"shop", "Shop", true⟩}, by simp⟩)).offers "shop" 3 =
        .error .multipleResultsFound := by
  refine ⟨fun h => ?_, by decide +kernel⟩
  have hshop := h "shop"
  revert hshop
  decide +kernel

end ClickNBack.Offers
