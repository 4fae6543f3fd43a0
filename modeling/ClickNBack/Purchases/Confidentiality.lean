import ClickNBack.Purchases.Admission
import ClickNBack.Purchases.Runs
import ClickNBack.Wallets.Api

namespace ClickNBack.Purchases

open Relational ReadCommitted Prog ClickNBack.Core Wallets

/-- What a user may learn of a purchase: everything of an own one, and of any
other one its ids and its owner. -/
inductive VisiblePurchase
  | own (purchase : Purchase)
  | other (id externalId userId : String)
deriving DecidableEq

namespace VisiblePurchase

def id : VisiblePurchase → String
  | .own p => p.id
  | .other id _ _ => id

def externalId : VisiblePurchase → String
  | .own p => p.externalId
  | .other _ externalId _ => externalId

def owned : VisiblePurchase → Option Purchase
  | .own p => some p
  | .other _ _ _ => none

end VisiblePurchase

def Purchase.visible (currentUserId : String) (p : Purchase) : VisiblePurchase :=
  if p.userId = currentUserId then .own p else .other p.id p.externalId p.userId

/-- Two states that differ for a user only in what is not the user's business. -/
structure AgreeFor (currentUserId : String) (d d' : Database) : Prop where
  catalog : d.catalog = d'.catalog
  purchases : d.purchases.rows.map (Purchase.visible currentUserId) =
    d'.purchases.rows.map (Purchase.visible currentUserId)
  transactions : d.transactions.rows.filter (fun t => t.userId = currentUserId) =
    d'.transactions.rows.filter fun t => t.userId = currentUserId
  wallets : d.wallets currentUserId = d'.wallets currentUserId

/-- The requests of a user about purchases and about the wallet, each with the ids,
the clocks and the order of rows that it is served with. -/
inductive UserRequest
  | ingestPurchase (purchaseId transactionId : String) (today now : Nat) (data : PurchaseCreate)
  | getPurchaseDetails (purchaseId : String)
  | listUserPurchases (listing : Listing Purchase) (status : Option String) (offset limit : Nat)
  | getWalletSummary
  | listWalletTransactions (listing : Listing CashbackTransaction) (limit offset : Nat)

inductive UserResponse
  | purchase (r : Except HttpError PurchaseOut)
  | purchaseDetails (r : Except HttpError PurchaseDetailsOut)
  | purchases (r : Except HttpError PaginatedUserPurchaseOut)
  | walletSummary (r : Except HttpError WalletSummaryOut)
  | walletTransactions (r : Except HttpError PaginatedWalletTransactionOut)

namespace UserRequest

def respond (clock : Nat) (currentUserId : String) (d : Database) : UserRequest → UserResponse
  | .ingestPurchase purchaseId transactionId today now data => .purchase
    (PublicApi.ingestPurchase clock purchaseId transactionId today now data currentUserId d)
  | .getPurchaseDetails purchaseId => .purchaseDetails
    (PublicApi.getPurchaseDetails clock purchaseId currentUserId d)
  | .listUserPurchases listing status offset limit => .purchases
    (PublicApi.listUserPurchases clock listing currentUserId status offset limit d)
  | .getWalletSummary => .walletSummary (Api.getWalletSummary clock currentUserId d)
  | .listWalletTransactions listing limit offset => .walletTransactions
    (Api.listWalletTransactions clock listing currentUserId limit offset d)

def Fresh (d : Database) : UserRequest → Prop
  | .ingestPurchase purchaseId transactionId _ _ _ =>
    ∀ t ∈ d.transactions.rows, t.id ≠ transactionId ∧ t.purchaseId ≠ purchaseId
  | _ => True

/-- The request is not an own ingestion whose external id is taken by a purchase of
another user that differs in its amount or in its time. -/
def Discreet (currentUserId : String) (d d' : Database) : UserRequest → Prop
  | .ingestPurchase _ _ _ _ data => data.userId = currentUserId →
    ∀ p ∈ d.purchases.rows, ∀ p' ∈ d'.purchases.rows, p.externalId = data.externalId →
      p'.externalId = data.externalId → p.userId ≠ currentUserId →
        p.createdAt = p'.createdAt ∧ p.amount = p'.amount
  | _ => True

end UserRequest

section

variable {currentUserId : String} {d d' : Database}

theorem Purchase.visible_id (p : Purchase) : (p.visible currentUserId).id = p.id := by
  rw [visible]
  split <;> rfl

theorem Purchase.visible_externalId (p : Purchase) :
    (p.visible currentUserId).externalId = p.externalId := by
  rw [visible]
  split <;> rfl

theorem Purchase.visible_eq {p p' : Purchase}
    (h : p.visible currentUserId = p'.visible currentUserId) :
    p = p' ∨ p.userId ≠ currentUserId ∧ p'.userId ≠ currentUserId ∧ p.userId = p'.userId := by
  unfold visible at h
  by_cases hp : p.userId = currentUserId
  · by_cases hp' : p'.userId = currentUserId
    · rw [if_pos hp, if_pos hp'] at h
      cases h
      exact Or.inl rfl
    · rw [if_pos hp, if_neg hp'] at h
      cases h
  · by_cases hp' : p'.userId = currentUserId
    · rw [if_neg hp, if_pos hp'] at h
      cases h
    · rw [if_neg hp, if_neg hp'] at h
      exact Or.inr ⟨hp, hp', by injection h⟩

namespace AgreeFor

theorem find_cases (h : AgreeFor currentUserId d d') {f : Purchase → String}
    {g : VisiblePurchase → String} (hf : f ∈ [Purchase.id, Purchase.externalId])
    (hg : ∀ p, g (p.visible currentUserId) = f p) (k : String) :
    d.purchases.find f k = d'.purchases.find f k ∨
      ∃ p p', d.purchases.find f k = some p ∧ d'.purchases.find f k = some p' ∧
        p.userId ≠ currentUserId ∧ p.userId = p'.userId := by
  have hfind := Table.find_map_congr hf hg h.purchases k
  cases hp : d.purchases.find f k with
  | none =>
    cases hp' : d'.purchases.find f k with
    | none => exact Or.inl rfl
    | some p' =>
      rw [hp, hp'] at hfind
      cases hfind
  | some p =>
    cases hp' : d'.purchases.find f k with
    | none =>
      rw [hp, hp'] at hfind
      cases hfind
    | some p' =>
      rw [hp, hp'] at hfind
      obtain rfl | ⟨hother, -, howner⟩ := Purchase.visible_eq (Option.some.inj hfind)
      · exact Or.inl rfl
      · exact Or.inr ⟨p, p', rfl, rfl, hother, howner⟩

theorem own_purchases (h : AgreeFor currentUserId d d') :
    d.purchases.rows.filter (fun p => p.userId = currentUserId) =
      d'.purchases.rows.filter fun p => p.userId = currentUserId := by
  have hown : ∀ rows : Multiset Purchase,
      (rows.map (Purchase.visible currentUserId)).filterMap VisiblePurchase.owned =
        rows.filter fun p => p.userId = currentUserId := by
    intro rows
    rw [Multiset.filterMap_map, ← Multiset.filterMap_eq_filter]
    congr 1
    funext p
    by_cases hp : p.userId = currentUserId <;>
      simp [Purchase.visible, VisiblePurchase.owned, Option.guard, hp]
  rw [← hown, ← hown, h.purchases]

theorem free_iff (h : AgreeFor currentUserId d d') (row : Purchase) :
    d.purchases.Free row ↔ d'.purchases.Free row := by
  have hkeys : ∀ f ∈ [Purchase.id, Purchase.externalId],
      d.purchases.rows.map f = d'.purchases.rows.map f := by
    have hmap : ∀ {f : Purchase → String} {g : VisiblePurchase → String},
        (∀ p : Purchase, g (p.visible currentUserId) = f p) →
          d.purchases.rows.map f = d'.purchases.rows.map f := by
      intro f g hg
      have heq := congrArg (Multiset.map g) h.purchases
      simpa only [Multiset.map_map, Function.comp_def, hg] using heq
    simp only [List.mem_cons, List.not_mem_nil, or_false, forall_eq_or_imp, forall_eq]
    exact ⟨hmap Purchase.visible_id, hmap Purchase.visible_externalId⟩
  rw [Table.Free]
  refine forall₂_congr fun f hf => ?_
  rw [hkeys f hf]

end AgreeFor

section

variable {α β : Type} (out : α → β) (error : PurchaseException → HttpError)

theorem respond_congr {p : Coroutine α} (h : (p.run d []).1 = (p.run d' []).1) :
    PublicApi.respond p out error d = PublicApi.respond p out error d' := by
  unfold PublicApi.respond
  rw [h]

end

theorem getPurchaseDetails_agree (h : AgreeFor currentUserId d d') (clock : Nat)
    (purchaseId : String) :
    PublicApi.getPurchaseDetails clock purchaseId currentUserId d =
      PublicApi.getPurchaseDetails clock purchaseId currentUserId d' := by
  apply respond_congr
  rw [getPurchaseDetails]
  rw [getById_eq, run_query_bind, run_query_bind, replay_nil, replay_nil]
  obtain hsame | ⟨p, p', hp, hp', hother, howner⟩ :=
    h.find_cases (by simp) Purchase.visible_id purchaseId
  · rw [hsame]
    cases d'.purchases.find Purchase.id purchaseId with
    | none => rfl
    | some p =>
      simp only
      cases enforcePurchaseViewOwnership currentUserId p.userId purchaseId with
      | error e => rfl
      | ok _ =>
        rw [lift_ok, pure_bind, getMerchantById_eq, run_query_bind, run_query_bind, replay_nil,
          replay_nil, h.catalog]
        rfl
  · have hforbidden : ∀ userId, userId ≠ currentUserId →
        enforcePurchaseViewOwnership currentUserId userId purchaseId =
          .error (.purchaseViewForbidden purchaseId userId currentUserId) :=
      fun _ hne => if_pos (Ne.symm hne)
    rw [hp, hp']
    simp only
    rw [hforbidden _ hother, hforbidden _ (howner ▸ hother), howner]
    rfl

def ownPurchases (currentUserId : String) (status : Option PurchaseStatus) (d : Database) :
    Multiset Purchase :=
  (d.purchases.rows.filter fun p => p.userId = currentUserId).filter fun p =>
    status.all (p.status = ·)

theorem listPurchases_run_bind {β : Type} (listing : Listing Purchase)
    (status : Option PurchaseStatus) (offset limit : Nat)
    (f : List Purchase × Nat → Coroutine β) :
    (PurchaseRepository.listPurchases listing status (some currentUserId) offset limit >>= f).run
        d [] =
      (f (page offset limit (newestFirst Purchase.createdAt
        (listing.list (ownPurchases currentUserId status d))),
          (ownPurchases currentUserId status d).card)).run d [] := by
  have hrows : d.purchases.rows.filter (fun p => (decide (status.all (p.status = ·) ∧
      (some currentUserId).all (p.userId = ·)) : Bool)) = ownPurchases currentUserId status d := by
    rw [ownPurchases]
    rw [Multiset.filter_filter]
    exact Multiset.filter_congr fun p _ => by simp
  rw [PurchaseRepository.listPurchases]
  rw [bind_assoc, run_query_bind, bind_assoc, run_query_bind, pure_bind, replay_nil, hrows]

theorem listPurchases_agree (h : AgreeFor currentUserId d d') (listing : Listing Purchase)
    (status : Option PurchaseStatus) (offset limit : Nat) {β : Type}
    {f : List Purchase × Nat → Coroutine β}
    (hf : ∀ r, ((f r).run d []).1 = ((f r).run d' []).1) :
    ((PurchaseRepository.listPurchases listing status (some currentUserId) offset limit >>=
        f).run d []).1 =
      ((PurchaseRepository.listPurchases listing status (some currentUserId) offset limit >>=
        f).run d' []).1 := by
  have hown : ownPurchases currentUserId status d = ownPurchases currentUserId status d' := by
    unfold ownPurchases
    rw [h.own_purchases]
  rw [listPurchases_run_bind, listPurchases_run_bind, hown]
  exact hf _

theorem getMerchantsByIds_agree (h : AgreeFor currentUserId d d') (merchantIds : List String)
    {β : Type} {f : (String → Option Offers.Merchant) → Coroutine β}
    (hf : ∀ r, ((f r).run d []).1 = ((f r).run d' []).1) :
    ((MerchantsClient.getMerchantsByIds merchantIds >>= f).run d []).1 =
      ((MerchantsClient.getMerchantsByIds merchantIds >>= f).run d' []).1 := by
  rw [MerchantsClient.getMerchantsByIds]
  rw [run_query_bind, run_query_bind, replay_nil, replay_nil, h.catalog]
  exact hf _

theorem listUserPurchases_agree (h : AgreeFor currentUserId d d') (clock : Nat)
    (listing : Listing Purchase) (status : Option String) (offset limit : Nat) :
    PublicApi.listUserPurchases clock listing currentUserId status offset limit d =
      PublicApi.listUserPurchases clock listing currentUserId status offset limit d' := by
  apply respond_congr
  unfold listUserPurchases
  have hlist : ∀ wanted, _ := fun wanted => listPurchases_agree h listing wanted offset limit
    fun r => getMerchantsByIds_agree h (r.1.map Purchase.merchantId)
      (f := fun m => pure (r.1.map fun p => (p, (m p.merchantId).elim "Unknown" (·.name)), r.2))
      fun _ => rfl
  cases status with
  | none => exact hlist none
  | some value =>
    by_cases hvalue : PurchaseStatus.ofValue value = none
    · simp only [if_pos hvalue]
      rfl
    · simp only [if_neg hvalue]
      exact hlist _

theorem getWalletSummary_agree (h : AgreeFor currentUserId d d') (clock : Nat) :
    Api.getWalletSummary clock currentUserId d = Api.getWalletSummary clock currentUserId d' := by
  apply respond_congr
  rw [Wallets.getWalletSummary, WalletsClient.getByUserId]
  rw [run_query_bind, run_query_bind, replay_nil, replay_nil, h.wallets]
  cases d'.wallets currentUserId <;> rfl

theorem listWalletTransactions_agree (h : AgreeFor currentUserId d d') (clock : Nat)
    (listing : Listing CashbackTransaction) (limit offset : Nat) :
    Api.listWalletTransactions clock listing currentUserId limit offset d =
      Api.listWalletTransactions clock listing currentUserId limit offset d' := by
  apply respond_congr
  rw [Wallets.listWalletTransactions, CashbackClient.listByUserId]
  simp only [bind_assoc, run_query_bind, replay_nil, h.transactions]
  rfl

theorem ingestPurchase_response (clock : Nat) (purchaseId transactionId : String)
    (today now : Nat) (data : PurchaseCreate) (d : Database) :
    PublicApi.ingestPurchase clock purchaseId transactionId today now data currentUserId d =
      match admission purchaseId today now data currentUserId d with
      | .error e => .error (PublicApi.ingestError clock e)
      | .ok row =>
        if Unused d transactionId row then .ok ⟨row.id, row.status, row.cashbackAmount⟩
        else .error (internalServerError clock) := by
  rw [PublicApi.ingestPurchase, PublicApi.respond]
  rw [ingestPurchase_run]
  cases admission purchaseId today now data currentUserId d with
  | error e => rfl
  | ok row =>
    simp only [concluded]
    by_cases hunused : Unused d transactionId row
    · rw [if_pos hunused, if_pos hunused]
    · rw [if_neg hunused, if_neg hunused]
      rfl

theorem unused_iff (h : AgreeFor currentUserId d d') {transactionId : String} {row : Purchase}
    (hd : ∀ t ∈ d.transactions.rows, t.id ≠ transactionId ∧ t.purchaseId ≠ row.id)
    (hd' : ∀ t ∈ d'.transactions.rows, t.id ≠ transactionId ∧ t.purchaseId ≠ row.id) :
    Unused d transactionId row ↔ Unused d' transactionId row := by
  have hfree : ∀ db : Database,
      (∀ t ∈ db.transactions.rows, t.id ≠ transactionId ∧ t.purchaseId ≠ row.id) →
        db.transactions.Free (newTransaction transactionId row) := by
    intro db hdb f hf hmem
    obtain ⟨t, ht, heq⟩ := Multiset.mem_map.mp hmem
    simp only [List.mem_cons, List.not_mem_nil, or_false] at hf
    obtain rfl | rfl := hf
    · exact (hdb t ht).1 heq
    · exact (hdb t ht).2 heq
  exact and_congr (h.free_iff row) (iff_of_true (hfree d hd) (hfree d' hd'))

theorem admission_of_duplicate (purchaseId : String) (today now : Nat) {data : PurchaseCreate}
    (howner : data.userId = currentUserId) {p : Purchase}
    (hp : d.purchases.find Purchase.externalId data.externalId = some p) :
    admission purchaseId today now data currentUserId d =
      .error (.duplicatePurchase data.externalId p.createdAt p.amount) := by
  have hpass : enforcePurchaseOwnership currentUserId data.userId = .ok () :=
    if_neg (not_not.mpr howner.symm)
  rw [admission]
  rw [hpass, hp]
  rfl

theorem ingestPurchase_agree (h : AgreeFor currentUserId d d') (clock : Nat)
    {purchaseId transactionId : String} (today now : Nat) (data : PurchaseCreate)
    (hd : ∀ t ∈ d.transactions.rows, t.id ≠ transactionId ∧ t.purchaseId ≠ purchaseId)
    (hd' : ∀ t ∈ d'.transactions.rows, t.id ≠ transactionId ∧ t.purchaseId ≠ purchaseId)
    (hsame : admission purchaseId today now data currentUserId d =
      admission purchaseId today now data currentUserId d') :
    PublicApi.ingestPurchase clock purchaseId transactionId today now data currentUserId d =
      PublicApi.ingestPurchase clock purchaseId transactionId today now data currentUserId d' := by
  rw [ingestPurchase_response, ingestPurchase_response, hsame]
  cases hrow : admission purchaseId today now data currentUserId d' with
  | error e => rfl
  | ok row =>
    obtain ⟨offer, cashback, hadmitted⟩ := admission_eq_ok.mp hrow
    have hid : row.id = purchaseId := by
      rw [hadmitted.result]
      rfl
    rw [← hid] at hd hd'
    simp only [unused_iff h hd hd']

/-- The responses of an own ingestion differ exactly in what the other user's
purchase under its external id shows. -/
theorem ingestPurchase_agree_iff (h : AgreeFor currentUserId d d') (clock : Nat)
    {purchaseId transactionId : String} (today now : Nat) (data : PurchaseCreate)
    (hd : ∀ t ∈ d.transactions.rows, t.id ≠ transactionId ∧ t.purchaseId ≠ purchaseId)
    (hd' : ∀ t ∈ d'.transactions.rows, t.id ≠ transactionId ∧ t.purchaseId ≠ purchaseId) :
    PublicApi.ingestPurchase clock purchaseId transactionId today now data currentUserId d =
        PublicApi.ingestPurchase clock purchaseId transactionId today now data currentUserId d' ↔
      (UserRequest.ingestPurchase purchaseId transactionId today now data).Discreet currentUserId
        d d' := by
  rw [UserRequest.Discreet]
  by_cases howner : data.userId = currentUserId
  · obtain hfind | ⟨p, p', hp, hp', hother, -⟩ :=
      h.find_cases (by simp) Purchase.visible_externalId data.externalId
    · refine iff_of_true (ingestPurchase_agree h clock today now data hd hd' ?_) ?_
      · unfold admission
        rw [hfind, h.catalog]
      · intro _ p hp p' hp' hext hext' _
        rw [(d.purchases.find_eq_some (by simp)).mpr ⟨hp, hext⟩,
          (d'.purchases.find_eq_some (by simp)).mpr ⟨hp', hext'⟩] at hfind
        cases hfind
        exact ⟨rfl, rfl⟩
    · rw [ingestPurchase_response, ingestPurchase_response,
        admission_of_duplicate purchaseId today now howner hp,
        admission_of_duplicate purchaseId today now howner hp']
      simp only [PublicApi.ingestError, businessRuleViolationError]
      constructor
      · intro heq _ q hq q' hq' hext hext' _
        rw [(d.purchases.find_eq_some (by simp)).mpr ⟨hq, hext⟩] at hp
        rw [(d'.purchases.find_eq_some (by simp)).mpr ⟨hq', hext'⟩] at hp'
        cases hp
        cases hp'
        simpa using heq
      · intro hdiscreet
        obtain ⟨hmem, hext⟩ := (d.purchases.find_eq_some (by simp)).mp hp
        obtain ⟨hmem', hext'⟩ := (d'.purchases.find_eq_some (by simp)).mp hp'
        obtain ⟨hcreated, hamount⟩ := hdiscreet howner p hmem p' hmem' hext hext' hother
        rw [hcreated, hamount]
  · refine iff_of_true (ingestPurchase_agree h clock today now data hd hd' ?_)
      fun howner' => absurd howner' howner
    have hrefused : enforcePurchaseOwnership currentUserId data.userId =
        .error (.purchaseOwnershipViolation currentUserId data.userId) :=
      if_pos (Ne.symm howner)
    unfold admission
    rw [hrefused]
    rfl

/-- A user's responses depend on nothing but what is the user's business, except for
the refusal of an external id that another user's purchase has taken. -/
theorem respond_eq_iff (h : AgreeFor currentUserId d d') (clock : Nat) (request : UserRequest)
    (hd : request.Fresh d) (hd' : request.Fresh d') :
    request.respond clock currentUserId d = request.respond clock currentUserId d' ↔
      request.Discreet currentUserId d d' := by
  cases request with
  | ingestPurchase purchaseId transactionId today now data =>
    rw [← ingestPurchase_agree_iff h clock today now data hd hd']
    exact UserResponse.purchase.injEq _ _ ▸ Iff.rfl
  | getPurchaseDetails purchaseId =>
    exact iff_of_true (congrArg _ (getPurchaseDetails_agree h clock purchaseId)) trivial
  | listUserPurchases listing status offset limit =>
    exact iff_of_true
      (congrArg _ (listUserPurchases_agree h clock listing status offset limit)) trivial
  | getWalletSummary => exact iff_of_true (congrArg _ (getWalletSummary_agree h clock)) trivial
  | listWalletTransactions listing limit offset =>
    exact iff_of_true
      (congrArg _ (listWalletTransactions_agree h clock listing limit offset)) trivial

end

def twoCustomers : Catalog :=
  { oneOffer with users := ⟨{⟨"ana", true⟩, ⟨"ben", true⟩}, by decide +kernel⟩ }

def bensPurchase (cents : Int) (hcents : 0 < cents) : Database :=
  ((ingestPurchase "p" "t" 1 0
    { oneRequest "ext" cents hcents one_le_length_ext with userId := "ben" } "ben").run
    (noPurchases twoCustomers noWallets 0) []).2

def tenOrTwenty (twenty : Bool) : Database :=
  if twenty then bensPurchase 2000 twentyEuros_pos else bensPurchase 1000 tenEuros_pos

theorem tenOrTwenty_agree : AgreeFor "ana" (tenOrTwenty false) (tenOrTwenty true) where
  catalog := (catalog_run _ _).trans (catalog_run _ _).symm
  purchases := by decide +kernel
  transactions := by decide +kernel
  wallets := by decide +kernel

theorem tenOrTwenty_fresh (twenty : Bool) (data : PurchaseCreate) :
    (UserRequest.ingestPurchase "q" "u" 1 0 data).Fresh (tenOrTwenty twenty) := by
  have hfresh : ∀ twenty, ∀ t ∈ (tenOrTwenty twenty).transactions.rows,
      t.id ≠ "u" ∧ t.purchaseId ≠ "q" := by decide +kernel
  exact hfresh twenty

theorem respond_eq_iff_otherId :
    (UserRequest.ingestPurchase "q" "u" 1 0 (oneRequest "other" 1000 (by decide))).respond 0 "ana"
        (tenOrTwenty false) =
      (UserRequest.ingestPurchase "q" "u" 1 0 (oneRequest "other" 1000 (by decide))).respond 0
        "ana" (tenOrTwenty true) := by
  have hdiscreet : ∀ p ∈ (tenOrTwenty false).purchases.rows,
      ∀ p' ∈ (tenOrTwenty true).purchases.rows, p.externalId = "other" →
        p'.externalId = "other" → p.userId ≠ "ana" →
          p.createdAt = p'.createdAt ∧ p.amount = p'.amount := by decide +kernel
  exact (respond_eq_iff tenOrTwenty_agree 0 _ (tenOrTwenty_fresh false _)
    (tenOrTwenty_fresh true _)).mpr fun _ => hdiscreet

/-- The refusal of ben's external id tells ana what ben has paid. -/
theorem duplicate_discloses_amount :
    ¬ ∀ (currentUserId : String) (d d' : Database), AgreeFor currentUserId d d' →
      ∀ (clock : Nat) (request : UserRequest), request.Fresh d → request.Fresh d' →
        request.respond clock currentUserId d = request.respond clock currentUserId d' := by
  intro h
  have heq := h "ana" _ _ tenOrTwenty_agree 0 _
    (tenOrTwenty_fresh false (oneRequest "ext" 1000 (by decide))) (tenOrTwenty_fresh true _)
  have hne : PublicApi.ingestPurchase 0 "q" "u" 1 0 (oneRequest "ext" 1000 (by decide)) "ana"
      (tenOrTwenty false) ≠
      PublicApi.ingestPurchase 0 "q" "u" 1 0 (oneRequest "ext" 1000 (by decide)) "ana"
        (tenOrTwenty true) := by decide +kernel
  exact hne (UserResponse.purchase.inj heq)

end ClickNBack.Purchases
