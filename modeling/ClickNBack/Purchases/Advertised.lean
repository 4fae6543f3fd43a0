import ClickNBack.Cashback.Calculator
import ClickNBack.Offers.Listing
import ClickNBack.Purchases.Admission
import ClickNBack.Purchases.Runs

namespace ClickNBack.Purchases

open Relational ReadCommitted Prog Numeric Offers

/-- What a request is refused with for the sake of its merchant or of the offer. -/
def PurchaseException.RefusesOffer : PurchaseException → Prop
  | .merchantNotFound _ | .merchantInactive _ | .offerNotAvailable _ | .multipleResultsFound => True
  | _ => False

/-- The cashback that an advertised offer promises, in cents. -/
def promised (out : ActiveOfferOut Decimal) (amount : Decimal) : Except PurchaseException Int :=
  match out.cashbackType with
  | .fixed => quantizeCents out.cashbackValue
  | .percent =>
    (calculate out.id out.cashbackValue none amount).map CashbackResult.cashbackAmount

def promisedFloat (out : ActiveOfferOut PyFloat) (amount : Decimal) : Option PyDecimal :=
  match out.cashbackType with
  | .fixed => (PyDecimal.ofStr out.cashbackValue).quantize (-2)
  | .percent => Cashback.CashbackCalculator.calculate out.cashbackValue none amount

theorem promised_mapToActiveOfferOut (o : Offer Decimal) (name : String) (amount : Decimal) :
    promised (mapToActiveOfferOut o name) amount =
      (calculate o.id o.percentage o.fixedAmount amount).map CashbackResult.cashbackAmount := by
  rw [promised, mapToActiveOfferOut]
  cases o.fixedAmount with
  | none => rfl
  | some fixed =>
    simp only [Option.isSome_some, if_true, Option.getD_some, calculate]
    cases quantizeCents fixed <;> rfl

theorem promisedFloat_mapToActiveOfferOut (o : Offer PyFloat) (name : String) (amount : Decimal) :
    promisedFloat (mapToActiveOfferOut o name) amount =
      Cashback.CashbackCalculator.calculate o.percentage o.fixedAmount amount := by
  rw [promisedFloat, mapToActiveOfferOut]
  cases o.fixedAmount <;> rfl

section

variable {d : Database} {data : PurchaseCreate} {user : User}

theorem admission_of_user (purchaseId : String) (today now : Nat)
    (huser : d.catalog.users.find User.id data.userId = some user) (hactive : user.active = true)
    (hfresh : d.purchases.find Purchase.externalId data.externalId = none)
    (hcurrency : enforceCurrencyEur data.currency = .ok ()) :
    admission purchaseId today now data data.userId d = (do
      enforceMerchantActive (d.catalog.merchants.find Offers.Merchant.id data.merchantId)
        data.merchantId
      let available ← Offers.getActiveOfferForMerchant .multipleResultsFound d.catalog.offers
        data.merchantId today
      let offer ← enforceOfferAvailable available data.merchantId
      let cashback ← calculate offer.id offer.percentage offer.fixedAmount data.amount
      return newPurchase purchaseId now data offer.id cashback.cashbackAmount) := by
  have howner : enforcePurchaseOwnership data.userId data.userId = .ok () := by
    simp [enforcePurchaseOwnership]
  have huserActive : enforceUserActive (some user) data.userId = .ok () := by
    simp [enforceUserActive, hactive]
  rw [admission, howner, hfresh, hcurrency, huser, huserActive]
  rfl

def Advertised (d : Database) (merchantId : String) (today : Nat) : Prop :=
  ∃ r ∈ OfferRepository.baseStmt d.catalog.offers d.catalog.merchants today,
    r.1.merchantId = merchantId

theorem advertised_iff {merchantId : String} {today : Nat} :
    Advertised d merchantId today ↔
      ∃ m, d.catalog.merchants.find Merchant.id merchantId = some m ∧ m.active = true ∧
        ∃ o ∈ d.catalog.offers.rows, o.isAvailable merchantId today = true := by
  constructor
  · rintro ⟨⟨o, name⟩, hmem, rfl⟩
    obtain ⟨ho, havailable, m, hm, hid, hactive, -⟩ := OfferRepository.mem_baseStmt.mp hmem
    exact ⟨m, (d.catalog.merchants.find_eq_some (by simp)).mpr ⟨hm, hid⟩, hactive, o, ho,
      havailable⟩
  · rintro ⟨m, hm, hactive, o, ho, havailable⟩
    obtain ⟨hmem, hid⟩ := (d.catalog.merchants.find_eq_some (by simp)).mp hm
    have hmerchant : o.merchantId = merchantId := by
      simp only [Offer.isAvailable, decide_eq_true_eq] at havailable
      exact havailable.1
    subst hmerchant
    exact ⟨(o, m.name), OfferRepository.mem_baseStmt.mpr ⟨ho, havailable, m, hmem, hid, hactive,
      rfl⟩, rfl⟩

theorem quantizeCents_error {x : Decimal} {e : PurchaseException}
    (h : quantizeCents x = .error e) : e = .invalidOperation := by
  rw [quantizeCents_eq] at h
  cases hx : x.quantize (-2) with
  | none =>
    rw [hx] at h
    cases h
    rfl
  | some cents =>
    rw [hx] at h
    cases h

theorem calculate_error {offerId : String} {percentage : Decimal} {fixedAmount : Option Decimal}
    {amount : Decimal} {e : PurchaseException}
    (h : calculate offerId percentage fixedAmount amount = .error e) : e = .invalidOperation := by
  have hmap : ∀ x : Decimal, (quantizeCents x).map (fun c => (⟨offerId, c⟩ : CashbackResult)) =
      .error e → e = .invalidOperation := by
    intro x hx
    cases hq : quantizeCents x with
    | ok cents =>
      rw [hq] at hx
      cases hx
    | error e' =>
      rw [hq] at hx
      cases hx
      exact quantizeCents_error hq
  cases fixedAmount with
  | none => exact hmap _ h
  | some fixed => exact hmap _ h

inductive Redemption (d : Database) (purchaseId transactionId : String) (today now : Nat)
    (data : PurchaseCreate) : Except PurchaseException Purchase × Database → Prop
  | refused {e : PurchaseException} (hno : ¬ Advertised d data.merchantId today)
      (he : e.RefusesOffer) : Redemption d purchaseId transactionId today now data (.error e, d)
  | failed {e : PurchaseException} (hyes : Advertised d data.merchantId today)
      (he : ¬ e.RefusesOffer) : Redemption d purchaseId transactionId today now data (.error e, d)
  | redeemed {o : Offer Decimal} {cashback : CashbackResult} {row : Purchase}
      (hyes : Advertised d data.merchantId today)
      (ho : getActiveOfferForMerchant PurchaseException.multipleResultsFound d.catalog.offers
        data.merchantId today = .ok (some o))
      (hc : calculate o.id o.percentage o.fixedAmount data.amount = .ok cashback)
      (hrow : row = newPurchase purchaseId now data o.id cashback.cashbackAmount) :
      Redemption d purchaseId transactionId today now data
        (.ok row, replay (ingestionWrites transactionId row) d)

theorem ingestPurchase_redemption (purchaseId transactionId : String) (today now : Nat)
    (hone : AtMostOneActive d.catalog.offers)
    (huser : d.catalog.users.find User.id data.userId = some user) (hactive : user.active = true)
    (hfresh : d.purchases.find Purchase.externalId data.externalId = none)
    (hcurrency : enforceCurrencyEur data.currency = .ok ()) :
    Redemption d purchaseId transactionId today now data
      ((ingestPurchase purchaseId transactionId today now data data.userId).run d []) := by
  rw [ingestPurchase_run, admission_of_user purchaseId today now huser hactive hfresh hcurrency]
  cases hm : d.catalog.merchants.find Merchant.id data.merchantId with
  | none =>
    refine Redemption.refused (fun hyes => ?_) trivial
    obtain ⟨m, hm', -⟩ := advertised_iff.mp hyes
    rw [hm] at hm'
    cases hm'
  | some m =>
    by_cases hmerchant : m.active = true
    · obtain ⟨r, hr⟩ := hone.getActiveOffer PurchaseException.multipleResultsFound data.merchantId
        today
      have hpass : enforceMerchantActive (some m) data.merchantId = .ok () := by
        simp [enforceMerchantActive, hmerchant]
      rw [hpass, hr]
      cases r with
      | none =>
        refine Redemption.refused (fun hyes => ?_) trivial
        obtain ⟨m', -, -, o, ho⟩ := advertised_iff.mp hyes
        rw [hone.getActiveOffer_eq_some.mpr ho] at hr
        cases hr
      | some o =>
        have hyes : Advertised d data.merchantId today :=
          advertised_iff.mpr ⟨m, hm, hmerchant, o, hone.getActiveOffer_eq_some.mp hr⟩
        change Redemption d purchaseId transactionId today now data (concluded d _
          (calculate o.id o.percentage o.fixedAmount data.amount >>= fun cashback =>
            .ok (newPurchase purchaseId now data o.id cashback.cashbackAmount)))
        cases hc : calculate o.id o.percentage o.fixedAmount data.amount with
        | error e =>
          apply Redemption.failed hyes
          rw [calculate_error hc]
          exact id
        | ok cashback =>
          change Redemption d purchaseId transactionId today now data (ite _ _ _)
          split
          · exact Redemption.redeemed hyes hr hc rfl
          · exact Redemption.failed hyes id
    · have hfail : enforceMerchantActive (some m) data.merchantId =
          .error (.merchantInactive data.merchantId) := by
        simp [enforceMerchantActive, hmerchant]
      rw [hfail]
      refine Redemption.refused (fun hyes => ?_) trivial
      obtain ⟨m', hm', hactive', -⟩ := advertised_iff.mp hyes
      rw [hm] at hm'
      cases hm'
      exact hmerchant hactive'

/-- What is advertised is what is redeemed: a request passes the merchant and the offer
policies exactly when the page that holds all of the list shows an offer of the merchant,
and then gets this offer and what it promises; the total is the length of that page. -/
theorem advertised_redeemed (purchaseId transactionId : String) (today now : Nat)
    (hone : AtMostOneActive d.catalog.offers)
    (huser : d.catalog.users.find User.id data.userId = some user) (hactive : user.active = true)
    (hfresh : d.purchases.find Purchase.externalId data.externalId = none)
    (hcurrency : enforceCurrencyEur data.currency = .ok ())
    (listing : Listing (Offer Decimal × String)) {limit : Nat}
    (hlimit : (OfferRepository.listActiveOffers d.catalog.offers d.catalog.merchants today listing
      0 limit).2 ≤ limit) :
    ((∀ e, ((ingestPurchase purchaseId transactionId today now data data.userId).run d []).1 =
        .error e → ¬ e.RefusesOffer) ↔
      ∃ r ∈ (OfferRepository.listActiveOffers d.catalog.offers d.catalog.merchants today listing
        0 limit).1, r.1.merchantId = data.merchantId) ∧
    (∀ p, ((ingestPurchase purchaseId transactionId today now data data.userId).run d []).1 =
        .ok p →
      ∀ r ∈ (OfferRepository.listActiveOffers d.catalog.offers d.catalog.merchants today listing
        0 limit).1, r.1.merchantId = data.merchantId →
          p.offerId = some r.1.id ∧
          promised (mapToActiveOfferOut r.1 r.2) data.amount = .ok p.cashbackAmount ∧
          ((ingestPurchase purchaseId transactionId today now data data.userId).run d []).2.wallets
            data.userId = some (credit p.cashbackAmount (d.wallets data.userId))) ∧
    (∀ offset limit', (OfferRepository.listActiveOffers d.catalog.offers d.catalog.merchants today
      listing offset limit').2 = (OfferRepository.listActiveOffers d.catalog.offers
        d.catalog.merchants today listing 0 limit).1.length) ∧
    ∀ (o : Offer PyFloat) (name : String),
      Cashback.CashbackCalculator.calculate o.percentage o.fixedAmount data.amount =
        promisedFloat (mapToActiveOfferOut o name) data.amount := by
  rw [OfferRepository.listActiveOffers_rows hlimit]
  have hadvertised : (∃ r ∈ listing.list (OfferRepository.baseStmt d.catalog.offers
      d.catalog.merchants today), r.1.merchantId = data.merchantId) ↔
      Advertised d data.merchantId today := by
    simp only [Listing.mem_list, Advertised]
  have hresult := ingestPurchase_redemption purchaseId transactionId today now hone huser hactive
    hfresh hcurrency
  generalize (ingestPurchase purchaseId transactionId today now data data.userId).run d [] =
    result at hresult ⊢
  refine ⟨?_, ?_, ?_, fun o name => (promisedFloat_mapToActiveOfferOut o name data.amount).symm⟩
  · rw [hadvertised]
    cases hresult with
    | refused hno he => exact iff_of_false (fun h => h _ rfl he) hno
    | failed hyes he =>
      refine iff_of_true (fun e heq => ?_) hyes
      cases heq
      exact he
    | redeemed hyes =>
      refine iff_of_true (fun e heq => ?_) hyes
      cases heq
  · intro p hp r hr hmerchant
    cases hresult with
    | refused => cases hp
    | failed => cases hp
    | redeemed hyes ho hc hrow =>
      cases hp
      obtain ⟨hmem, havailable, -⟩ := OfferRepository.mem_baseStmt.mp (listing.mem_list.mp hr)
      rw [hmerchant] at havailable
      rw [hone.getActiveOffer_eq_some.mpr ⟨hmem, havailable⟩] at ho
      cases ho
      subst hrow
      refine ⟨rfl, ?_, ?_⟩
      · rw [promised_mapToActiveOfferOut, hc]
        rfl
      · rw [replay_ingestionWrites]
        exact Function.update_self _ _ _
  · intro offset limit'
    have hlength := congrArg Multiset.card (listing.coe_list (OfferRepository.baseStmt
      d.catalog.offers d.catalog.merchants today))
    rw [Multiset.coe_card] at hlength
    exact OfferRepository.countStmt_eq_card.trans hlength.symm

end

def tenEuros : PurchaseCreate := oneRequest "ext" 1000 tenEuros_pos one_le_length_ext

theorem advertised_redeemed_oneOffer :
    ∃ r ∈ (OfferRepository.listActiveOffers oneOffer.offers oneOffer.merchants 1 default 0 10).1,
      r.1.merchantId = "shop" := by
  have hone : AtMostOneActive oneOffer.offers := fun m =>
    Multiset.card_le_card (Multiset.filter_le _ oneOffer.offers.rows)
  have huser : (noPurchases oneOffer noWallets 0).catalog.users.find User.id tenEuros.userId =
      some ⟨"ana", true⟩ := by decide +kernel
  have hfresh : (noPurchases oneOffer noWallets 0).purchases.find Purchase.externalId
      tenEuros.externalId = none := by decide +kernel
  have hok : ((ingestPurchase "p" "t" 1 0 tenEuros tenEuros.userId).run
      (noPurchases oneOffer noWallets 0) []).1 = .ok (newPurchase "p" 0 tenEuros "offer" 100) := by
    decide +kernel
  have hlimit : (OfferRepository.listActiveOffers oneOffer.offers oneOffer.merchants 1 default
      0 10).2 ≤ 10 := by decide +kernel
  refine (advertised_redeemed "p" "t" 1 0 hone huser rfl hfresh (by decide +kernel) default
    hlimit).1.mp ?_
  intro e he
  cases hok.symm.trans he

end ClickNBack.Purchases
