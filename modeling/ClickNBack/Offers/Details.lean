import ClickNBack.Core.Errors
import ClickNBack.Core.Result
import ClickNBack.Offers.Listing
import ClickNBack.Relational.Queries

namespace ClickNBack.Offers

open Numeric Relational Transition ClickNBack.Core

inductive OfferStatus
  | active
  | inactive
deriving DecidableEq

inductive DetailsException
  | offerNotFound (offerId : String)
  | inactiveOffer (offerId : String)
  | inactiveMerchantForOffer (offerId merchantId : String)
deriving DecidableEq

def enforceOfferVisibility (offerId : String) (isActive isAdmin : Bool) :
    Except DetailsException Unit :=
  if ¬ isAdmin ∧ ¬ isActive then .error (.inactiveOffer offerId) else .ok ()

def enforceOfferMerchantVisibility (offerId merchantId : String) (merchantActive isAdmin : Bool) :
    Except DetailsException Unit :=
  if ¬ isAdmin ∧ ¬ merchantActive then .error (.inactiveMerchantForOffer offerId merchantId)
  else .ok ()

structure OfferDetailsOut (F : Type) where
  id : String
  merchantName : String
  cashbackType : CashbackType
  cashbackValue : F
  monthlyCap : F
  startDate : Nat
  endDate : Nat
  status : OfferStatus
deriving DecidableEq

section

variable {F : Type}

def mapToOfferDetailsOut (offer : Offer F) (merchantName : String) : OfferDetailsOut F where
  id := offer.id
  merchantName
  cashbackType := if offer.fixedAmount.isSome then .fixed else .percent
  cashbackValue := offer.fixedAmount.getD offer.percentage
  monthlyCap := offer.monthlyCapPerUser
  startDate := offer.startDate
  endDate := offer.endDate
  status := if offer.active then .active else .inactive

variable (listing : Listing (Offer F × String × Bool)) (offers : OfferTable F)
  (merchants : MerchantTable)

/-- The first row of the join. -/
def OfferRepository.getOfferWithMerchantName (offerId : String) :
    Option (Offer F × String × Bool) :=
  first listing (((offers.rows ×ˢ merchants.rows).filter fun r =>
    r.1.merchantId = r.2.id ∧ r.1.id = offerId).map fun r => (r.1, r.2.name, r.2.active))

def getOfferDetails (offerId : String) (isAdmin : Bool) :
    Except DetailsException (Offer F × String) := do
  match OfferRepository.getOfferWithMerchantName listing offers merchants offerId with
  | none => throw (.offerNotFound offerId)
  | some (offer, merchantName, merchantActive) =>
    enforceOfferVisibility offerId offer.active isAdmin
    enforceOfferMerchantVisibility offerId offer.merchantId merchantActive isAdmin
    return (offer, merchantName)

namespace Api

/-- The `except` clauses of the endpoint `get_offer_details`. -/
def detailsError : DetailsException → HttpError
  | .offerNotFound offerId =>
    notFoundError ("Offer with ID '" ++ offerId ++ "' does not exist.")
      [("resource_type", .text "offer"), ("resource_id", .text offerId)]
  | .inactiveOffer offerId =>
    forbiddenError "You do not have permission to view this offer."
      [("resource_type", .text "offer"), ("resource_id", .text offerId), ("reason",
        .text "This offer is inactive. Only admin users can view inactive offers.")]
  | .inactiveMerchantForOffer offerId _ =>
    forbiddenError "You do not have permission to view this offer."
      [("resource_type", .text "offer"), ("resource_id", .text offerId), ("reason",
        .text ("The merchant for this offer is inactive. " ++
          "Only admin users can view offers from inactive merchants."))]

def getOfferDetails (offerId : String) (isAdmin : Bool) :
    Except HttpError (OfferDetailsOut F) :=
  match Offers.getOfferDetails listing offers merchants offerId isAdmin with
  | .ok (offer, merchantName) => .ok (mapToOfferDetailsOut offer merchantName)
  | .error e => .error (detailsError e)

end Api

variable {listing offers merchants}

theorem getOfferWithMerchantName_eq_some {offerId : String} {r : Offer F × String × Bool} :
    OfferRepository.getOfferWithMerchantName listing offers merchants offerId = some r ↔
      ∃ o m, offers.find Offer.id offerId = some o ∧
        merchants.find Merchant.id o.merchantId = some m ∧ (o, m.name, m.active) = r := by
  have hmem : ∀ r, r ∈ ((offers.rows ×ˢ merchants.rows).filter fun r =>
      r.1.merchantId = r.2.id ∧ r.1.id = offerId).map (fun r => (r.1, r.2.name, r.2.active)) ↔
      ∃ o m, offers.find Offer.id offerId = some o ∧
        merchants.find Merchant.id o.merchantId = some m ∧ (o, m.name, m.active) = r := by
    intro r
    simp only [Multiset.mem_map, Multiset.mem_filter, Multiset.mem_product, Prod.exists,
      offers.find_eq_some (f := Offer.id) (by simp),
      merchants.find_eq_some (f := Merchant.id) (by simp)]
    constructor
    · rintro ⟨o, m, ⟨⟨ho, hm⟩, hmerchant, hid⟩, hr⟩
      exact ⟨o, m, ⟨ho, hid⟩, ⟨hm, hmerchant.symm⟩, hr⟩
    · rintro ⟨o, m, ⟨ho, hid⟩, ⟨hm, hmerchant⟩, hr⟩
      exact ⟨o, m, ⟨⟨ho, hm⟩, hmerchant.symm, hid⟩, hr⟩
  rw [OfferRepository.getOfferWithMerchantName, first_eq_some, hmem]
  intro r hr r' hr'
  obtain ⟨o, m, ho, hm, rfl⟩ := (hmem r).mp hr
  obtain ⟨o', m', ho', hm', rfl⟩ := (hmem r').mp hr'
  cases ho.symm.trans ho'
  cases hm.symm.trans hm'
  rfl

def shown (offer : Offer F) (merchant : Merchant) (isAdmin : Bool) :
    Except HttpError (OfferDetailsOut F) :=
  if isAdmin = false ∧ offer.active = false then .error (Api.detailsError (.inactiveOffer offer.id))
  else if isAdmin = false ∧ merchant.active = false then
    .error (Api.detailsError (.inactiveMerchantForOffer offer.id offer.merchantId))
  else .ok (mapToOfferDetailsOut offer merchant.name)

theorem getOfferDetails_none {offerId : String} {isAdmin : Bool}
    (h : ∀ o, offers.find Offer.id offerId = some o →
      merchants.find Merchant.id o.merchantId = none) :
    Api.getOfferDetails listing offers merchants offerId isAdmin =
      .error (Api.detailsError (.offerNotFound offerId)) := by
  cases hr : OfferRepository.getOfferWithMerchantName listing offers merchants offerId with
  | none => simp only [Api.getOfferDetails, getOfferDetails, hr]; rfl
  | some r =>
    obtain ⟨o, m, ho, hm, -⟩ := getOfferWithMerchantName_eq_some.mp hr
    cases (h o ho).symm.trans hm

theorem getOfferDetails_some {offerId : String} {isAdmin : Bool} {o : Offer F} {m : Merchant}
    (ho : offers.find Offer.id offerId = some o)
    (hm : merchants.find Merchant.id o.merchantId = some m) :
    Api.getOfferDetails listing offers merchants offerId isAdmin = shown o m isAdmin := by
  have hid : o.id = offerId := ((offers.find_eq_some (by simp)).mp ho).2
  have hr : OfferRepository.getOfferWithMerchantName listing offers merchants offerId =
      some (o, m.name, m.active) := getOfferWithMerchantName_eq_some.mpr ⟨o, m, ho, hm, rfl⟩
  simp only [Api.getOfferDetails, getOfferDetails, hr, enforceOfferVisibility,
    enforceOfferMerchantVisibility, shown, hid, Bool.not_eq_true]
  by_cases hoffer : isAdmin = false ∧ o.active = false
  · rw [if_pos hoffer, if_pos hoffer]
    rfl
  · rw [if_neg hoffer, if_neg hoffer]
    by_cases hmerchant : isAdmin = false ∧ m.active = false
    · rw [if_pos hmerchant, if_pos hmerchant]
      rfl
    · rw [if_neg hmerchant, if_neg hmerchant]
      rfl

end

/-- A body that has been posted, and whether its offer is on. -/
structure Posting where
  data : OfferCreate
  active : Bool

namespace Posting

def row (offerId : String) (p : Posting) : Offer PyFloat :=
  (mapToDomainOffer offerId p.data).withStatus p.active

def page (offerId : String) (p : Posting) (merchant : Merchant) : OfferDetailsOut PyFloat :=
  ⟨offerId, merchant.name, p.data.cashbackType, p.data.cashbackValue, p.data.monthlyCap,
    p.data.startDate, p.data.endDate, if p.active then .active else .inactive⟩

/-- The page, unless the offer or its merchant is off. -/
def publicPage (offerId : String) (p : Posting) (merchant : Merchant) :
    Except HttpError (OfferDetailsOut PyFloat) :=
  if p.active = false then .error (Api.detailsError (.inactiveOffer offerId))
  else if merchant.active = false then
    .error (Api.detailsError (.inactiveMerchantForOffer offerId p.data.merchantId))
  else .ok (p.page offerId merchant)

theorem map_row (offerId : String) (p : Posting) (merchant : Merchant) :
    mapToOfferDetailsOut (p.row offerId) merchant.name = p.page offerId merchant := by
  rw [mapToOfferDetailsOut, row, mapToDomainOffer, Offer.withStatus, page]
  cases p.data.cashbackType <;> rfl

theorem shown_row (offerId : String) (p : Posting) (merchant : Merchant) :
    shown (p.row offerId) merchant true = .ok (p.page offerId merchant) ∧
      shown (p.row offerId) merchant false = p.publicPage offerId merchant := by
  rw [shown, shown, map_row, publicPage]
  constructor
  · rw [if_neg (by simp), if_neg (by simp)]
  · simp only [true_and]
    rfl

end Posting

/-- What the admins have posted and switched. -/
structure Shop where
  postings : String → Option Posting
  merchants : String → Option Merchant

namespace Shop

def opened (merchants : MerchantTable) : Shop := ⟨fun _ => none, merchants.find Merchant.id⟩

def exec (s : Shop) : Call → Shop
  | .createOffer _ offerId _ data =>
    { s with postings := Function.update s.postings offerId (some ⟨data, true⟩) }
  | .setOfferStatus offerId active =>
    { s with
      postings := Function.update s.postings offerId
        ((s.postings offerId).map fun p => { p with active }) }
  | .setMerchantStatus merchantId active =>
    { s with
      merchants := Function.update s.merchants merchantId
        ((s.merchants merchantId).map (Merchant.withStatus active)) }

def Known (s : Shop) : Prop :=
  ∀ id p, s.postings id = some p → ∃ m, s.merchants p.data.merchantId = some m

end Shop

namespace Shop.Known

variable {s : Shop}

theorem offerSwitched (h : s.Known) (offerId : String) (active : Bool) :
    (s.exec (.setOfferStatus offerId active)).Known := by
  intro id p hp
  by_cases hid : id = offerId
  · subst hid
    simp only [Shop.exec, Function.update_self, Option.map_eq_some_iff] at hp
    obtain ⟨q, hq, rfl⟩ := hp
    exact h id q hq
  · simp only [Shop.exec, Function.update_of_ne hid] at hp
    exact h id p hp

theorem merchantSwitched (h : s.Known) (merchantId : String) (active : Bool) :
    (s.exec (.setMerchantStatus merchantId active)).Known := by
  intro id p hp
  obtain ⟨m, hm⟩ := h id p hp
  by_cases hid : p.data.merchantId = merchantId
  · subst hid
    exact ⟨m.withStatus active, by simp [Shop.exec, hm]⟩
  · exact ⟨m, (Function.update_of_ne hid _ _).trans hm⟩

end Shop.Known

def Call.succeeds (d : OfferDatabase) : Call → Bool
  | .createOffer maxCashbackPercentage offerId today data =>
    (Offers.createOffer maxCashbackPercentage offerId today data d).isOk
  | .setOfferStatus offerId active => (Offers.setOfferStatus offerId active d).isOk
  | .setMerchantStatus merchantId active => (Offers.setMerchantStatus merchantId active d).isOk

def accepted : List Call → OfferDatabase → List Call
  | [], _ => []
  | c :: calls, d =>
    if c.succeeds d then c :: accepted calls (c.exec d) else accepted calls (c.exec d)

/-- What the calls of a history that return have posted and switched. -/
def Shop.after (merchants : MerchantTable) (calls : List Call) : Shop :=
  run (fun c s => Shop.exec s c) (accepted calls (noOffers merchants)) (Shop.opened merchants)

structure Holds (s : Shop) (d : OfferDatabase) : Prop where
  offers : ∀ id, d.offers.find Offer.id id = (s.postings id).map (Posting.row id)
  merchants : ∀ id, d.merchants.find Merchant.id id = s.merchants id
  known : s.Known

variable {s : Shop} {d : OfferDatabase}

theorem Holds.details_some (h : Holds s d) (listing : Listing (Offer PyFloat × String × Bool))
    {offerId : String} {p : Posting} (hp : s.postings offerId = some p) :
    ∃ m, s.merchants p.data.merchantId = some m ∧
      Api.getOfferDetails listing d.offers d.merchants offerId true = .ok (p.page offerId m) ∧
      Api.getOfferDetails listing d.offers d.merchants offerId false =
        p.publicPage offerId m := by
  obtain ⟨m, hm⟩ := h.known offerId p hp
  have hoffer := h.offers offerId
  rw [hp] at hoffer
  have hmerchant := (h.merchants p.data.merchantId).trans hm
  obtain ⟨hadmin, hpublic⟩ := p.shown_row offerId m
  refine ⟨m, hm, ?_, ?_⟩
  · exact (getOfferDetails_some (o := p.row offerId) hoffer hmerchant).trans hadmin
  · exact (getOfferDetails_some (o := p.row offerId) hoffer hmerchant).trans hpublic

theorem Holds.details_none (h : Holds s d) (listing : Listing (Offer PyFloat × String × Bool))
    {offerId : String} (hp : s.postings offerId = none) (isAdmin : Bool) :
    Api.getOfferDetails listing d.offers d.merchants offerId isAdmin =
      .error (Api.detailsError (.offerNotFound offerId)) := by
  have hoffer := h.offers offerId
  rw [hp] at hoffer
  exact getOfferDetails_none fun o ho => by cases hoffer.symm.trans ho

theorem holds_opened (merchants : MerchantTable) :
    Holds (Shop.opened merchants) (noOffers merchants) where
  offers _ := rfl
  merchants _ := rfl
  known _ _ hp := by cases hp

theorem isOk_cases {α : Type} {x : Except OfferException (α × OfferDatabase)} :
    (x.isOk = true ∧ ∃ r, x = .ok r) ∨ x.isOk = false ∧ committed d x = d := by
  cases x with
  | error e => exact Or.inr ⟨rfl, rfl⟩
  | ok r => exact Or.inl ⟨rfl, r, rfl⟩

theorem createOffer_ok {maxCashbackPercentage : PyFloat} {offerId : String} {today : Nat}
    {data : OfferCreate} {r : Offer PyFloat × OfferDatabase}
    (h : createOffer maxCashbackPercentage offerId today data d = .ok r) :
    (∃ m, d.merchants.find Merchant.id data.merchantId = some m) ∧
      d.offers.Free (mapToDomainOffer offerId data) ∧
      r.2 = { d with offers := d.offers.put (mapToDomainOffer offerId data) } := by
  obtain ⟨-, -, h⟩ := bind_eq_ok.mp h
  obtain ⟨-, -, h⟩ := bind_eq_ok.mp h
  obtain ⟨-, -, h⟩ := bind_eq_ok.mp h
  obtain ⟨merchant, hmerchant, h⟩ := bind_eq_ok.mp h
  rw [getMerchantById_eq, Except.ok.injEq] at hmerchant
  cases merchant with
  | none => cases h
  | some merchant =>
    obtain ⟨-, -, h⟩ := bind_eq_ok.mp h
    obtain ⟨-, -, h⟩ := bind_eq_ok.mp h
    rw [OfferRepository.addOffer] at h
    cases hinsert : d.offers.insert (mapToDomainOffer offerId data) with
    | none =>
      rw [hinsert] at h
      cases h
    | some offers =>
      rw [hinsert] at h
      cases h
      refine ⟨⟨merchant, hmerchant⟩, (d.offers.insert_eq_some hinsert).1, ?_⟩
      rw [Table.put, hinsert, Option.getD_some]

theorem Holds.created (h : Holds s d) {offerId : String} {data : OfferCreate}
    (hmerchant : ∃ m, d.merchants.find Merchant.id data.merchantId = some m)
    (hfree : d.offers.Free (mapToDomainOffer offerId data)) :
    Holds { s with postings := Function.update s.postings offerId (some ⟨data, true⟩) }
      { d with offers := d.offers.put (mapToDomainOffer offerId data) } where
  offers id := by
    dsimp only
    by_cases hid : id = offerId
    · subst hid
      rw [Function.update_self]
      exact Table.find_put_self _ hfree (by simp)
    · rw [Function.update_of_ne hid, ← h.offers id]
      exact Table.find_put_of_ne _ (Ne.symm hid)
  merchants := h.merchants
  known id p hp := by
    dsimp only at hp
    by_cases hid : id = offerId
    · subst hid
      rw [Function.update_self] at hp
      cases hp
      rwa [h.merchants] at hmerchant
    · rw [Function.update_of_ne hid] at hp
      exact h.known id p hp

theorem Holds.offerSwitched (h : Holds s d) (offerId : String) (active : Bool) :
    Holds (s.exec (.setOfferStatus offerId active))
      ((Call.setOfferStatus offerId active).exec d) := by
  have hoffer := h.offers offerId
  rw [setOfferStatus_exec, Shop.exec]
  cases hp : s.postings offerId with
  | none =>
    rw [hp] at hoffer
    rw [hoffer, Option.map_none, Option.map_none, ← hp, Function.update_eq_self]
    exact h
  | some p =>
    rw [hp] at hoffer
    rw [hoffer]
    refine ⟨fun id => ?_, h.merchants,
      by simpa only [Shop.exec, hp] using h.known.offerSwitched offerId active⟩
    refine (Table.find_modify _ (by simp [Offer.withStatus]) (by simp) id).trans ?_
    dsimp only
    by_cases hid : id = offerId
    · subst hid
      rw [hoffer, Function.update_self]
      exact congrArg some (if_pos rfl)
    · rw [h.offers id, Function.update_of_ne hid]
      cases s.postings id with
      | none => rfl
      | some q => exact congrArg some (if_neg hid)

theorem Holds.merchantSwitched (h : Holds s d) (merchantId : String) (active : Bool) :
    Holds (s.exec (.setMerchantStatus merchantId active))
      ((Call.setMerchantStatus merchantId active).exec d) := by
  refine ⟨fun id => ?_, fun id => ?_, h.known.merchantSwitched merchantId active⟩
  · rw [setMerchantStatus_offers]
    exact h.offers id
  · have hmerchant := h.merchants merchantId
    simp only [Call.exec, setMerchantStatus, getMerchantById_eq]
    cases hm : s.merchants merchantId with
    | none =>
      rw [hm] at hmerchant
      rw [Shop.exec, hm, Option.map_none, ← hm, Function.update_eq_self, hmerchant]
      exact h.merchants id
    | some m =>
      rw [hm] at hmerchant
      have hself : m.id = merchantId := ((d.merchants.find_eq_some (by simp)).mp hmerchant).2
      rw [hmerchant]
      refine (Table.find_modify _ (by simp [Merchant.withStatus]) (by simp) id).trans ?_
      rw [Shop.exec, hm]
      dsimp only
      by_cases hid : id = merchantId
      · subst hid
        rw [hmerchant, Function.update_self]
        exact congrArg some (if_pos rfl)
      · rw [Function.update_of_ne hid, ← h.merchants id]
        cases hfind : d.merchants.find Merchant.id id with
        | none => rfl
        | some n =>
          have hn : n.id = id := ((d.merchants.find_eq_some (by simp)).mp hfind).2
          refine congrArg some (if_neg ?_)
          rw [hn, hself]
          exact hid

/-- A call that returns does to the rows what it does to the shop. -/
theorem Holds.exec (h : Holds s d) {c : Call} (hc : c.succeeds d = true) :
    Holds (s.exec c) (c.exec d) := by
  cases c with
  | createOffer maxCashbackPercentage offerId today data =>
    obtain ⟨-, r, hr⟩ | ⟨hno, -⟩ := isOk_cases (d := d)
      (x := Offers.createOffer maxCashbackPercentage offerId today data d)
    · obtain ⟨hmerchant, hfree, hd'⟩ := createOffer_ok hr
      rw [Call.exec, hr, committed, hd']
      exact h.created hmerchant hfree
    · cases hno.symm.trans hc
  | setOfferStatus offerId active => exact h.offerSwitched offerId active
  | setMerchantStatus merchantId active => exact h.merchantSwitched merchantId active

theorem exec_of_not_succeeds {c : Call} (hc : c.succeeds d = false) : c.exec d = d := by
  cases c with
  | createOffer | setOfferStatus | setMerchantStatus =>
    obtain ⟨hok, -⟩ | ⟨-, hsame⟩ := isOk_cases (d := d)
    · cases hok.symm.trans hc
    · exact hsame

theorem Holds.run (h : Holds s d) (calls : List Call) :
    Holds (Transition.run (fun c s => Shop.exec s c) (accepted calls d) s)
      (Transition.run Call.exec calls d) := by
  induction calls generalizing s d with
  | nil => exact h
  | cons c calls ih =>
    rw [accepted]
    cases hc : c.succeeds d with
    | true => exact ih (h.exec hc)
    | false =>
      have hsame := exec_of_not_succeeds hc
      rw [if_neg (by simp)]
      exact ih (hsame.symm ▸ h)

/-- After any calls of admins, refused ones included, the page of an offer shows admins what
was posted for it, with the status that it was last set to, and the other users as well
while the offer and its merchant are on; nothing else has a page. -/
theorem details_after_calls (merchants : MerchantTable) (calls : List Call)
    (listing : Listing (Offer PyFloat × String × Bool)) (offerId : String) :
    (∀ p, (Shop.after merchants calls).postings offerId = some p →
      ∃ m, (Shop.after merchants calls).merchants p.data.merchantId = some m ∧
        Api.getOfferDetails listing (run Call.exec calls (noOffers merchants)).offers
          (run Call.exec calls (noOffers merchants)).merchants offerId true =
            .ok (p.page offerId m) ∧
        Api.getOfferDetails listing (run Call.exec calls (noOffers merchants)).offers
          (run Call.exec calls (noOffers merchants)).merchants offerId false =
            p.publicPage offerId m) ∧
    ((Shop.after merchants calls).postings offerId = none → ∀ isAdmin,
      Api.getOfferDetails listing (run Call.exec calls (noOffers merchants)).offers
        (run Call.exec calls (noOffers merchants)).merchants offerId isAdmin =
          .error (Api.detailsError (.offerNotFound offerId))) := by
  have hholds := (holds_opened merchants).run calls
  constructor
  · intro p hp
    exact hholds.details_some listing hp
  · intro hp isAdmin
    exact hholds.details_none listing hp isAdmin

def OfferDetailsOut.listed {F : Type} (out : OfferDetailsOut F) : ActiveOfferOut F :=
  ⟨out.id, out.merchantName, out.cashbackType, out.cashbackValue, out.monthlyCap, out.startDate,
    out.endDate⟩

section

variable {F : Type} {offers : OfferTable F} {merchants : MerchantTable} {today : Nat}

/-- The page of the offer opens for every user, shows the same, and the day is within
the dates. -/
def Opens (pages : Listing (Offer F × String × Bool)) (offers : OfferTable F)
    (merchants : MerchantTable) (today : Nat) (out : ActiveOfferOut F) : Prop :=
  ∃ page, Api.getOfferDetails pages offers merchants out.id false = .ok page ∧
    page.listed = out ∧ out.startDate ≤ today ∧ today ≤ out.endDate

theorem baseStmt_iff_opens (pages : Listing (Offer F × String × Bool)) (out : ActiveOfferOut F) :
    (∃ o name, (o, name) ∈ OfferRepository.baseStmt offers merchants today ∧
      mapToActiveOfferOut o name = out) ↔ Opens pages offers merchants today out := by
  simp only [OfferRepository.mem_baseStmt, Offer.isAvailable, decide_eq_true_eq]
  constructor
  · rintro ⟨o, name, ⟨ho, ⟨-, hactive, hstart, hend⟩, m, hm, hid, hmactive, rfl⟩, rfl⟩
    have hfind : offers.find Offer.id o.id = some o := (offers.find_eq_some (by simp)).mpr ⟨ho, rfl⟩
    have hfindm : merchants.find Merchant.id o.merchantId = some m :=
      (merchants.find_eq_some (by simp)).mpr ⟨hm, hid⟩
    refine ⟨mapToOfferDetailsOut o m.name, ?_, rfl, hstart, hend⟩
    refine (getOfferDetails_some hfind hfindm).trans ?_
    simp [shown, hactive, hmactive]
  · rintro ⟨page, hpage, rfl, hstart, hend⟩
    by_cases hfound : ∃ o m, offers.find Offer.id page.listed.id = some o ∧
        merchants.find Merchant.id o.merchantId = some m
    · obtain ⟨o, m, ho, hm⟩ := hfound
      rw [getOfferDetails_some ho hm, shown] at hpage
      split_ifs at hpage with hoffer hmerchant
      cases hpage
      obtain ⟨hmem, -⟩ := (offers.find_eq_some (by simp)).mp ho
      obtain ⟨hmemm, hidm⟩ := (merchants.find_eq_some (by simp)).mp hm
      refine ⟨o, m.name, ⟨hmem, ⟨trivial, by simpa using hoffer, hstart, hend⟩, m, hmemm, hidm,
        by simpa using hmerchant, rfl⟩, rfl⟩
    · rw [getOfferDetails_none fun o ho => ?_] at hpage
      · cases hpage
      · cases hm : merchants.find Merchant.id o.merchantId with
        | none => rfl
        | some m => exact absurd ⟨o, m, ho, hm⟩ hfound

/-- Every item of a listing of the active offers has a page that opens for every user and
shows the same, and a listing with room for all of them leaves out no offer that has. -/
theorem listed_iff_details (listing : Listing (Offer F × String))
    (pages : Listing (Offer F × String × Bool)) :
    (∀ offset limit,
      ∀ out ∈ (Api.listActiveOffers offers merchants today listing offset limit).1,
        Opens pages offers merchants today out) ∧
    ∀ limit, (Api.listActiveOffers offers merchants today listing 0 limit).2 ≤ limit →
      ∀ out, Opens pages offers merchants today out →
        out ∈ (Api.listActiveOffers offers merchants today listing 0 limit).1 := by
  constructor
  · intro offset limit out hout
    obtain ⟨⟨o, name⟩, hrow, hmap⟩ := List.mem_map.mp hout
    have hmem := List.mem_of_mem_drop (List.mem_of_mem_take hrow)
    exact (baseStmt_iff_opens pages out).mp ⟨o, name, listing.mem_list.mp hmem, hmap⟩
  · intro limit hlimit out hopens
    obtain ⟨o, name, hmem, hmap⟩ := (baseStmt_iff_opens pages out).mpr hopens
    refine List.mem_map.mpr ⟨(o, name), ?_, hmap⟩
    change (o, name) ∈
      (OfferRepository.listActiveOffers offers merchants today listing 0 limit).1
    rw [OfferRepository.listActiveOffers_rows hlimit]
    exact listing.mem_list.mpr hmem

end

end ClickNBack.Offers
