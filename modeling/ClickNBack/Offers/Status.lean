import ClickNBack.Offers.Creation
import ClickNBack.Relational.Persistence

namespace ClickNBack.Offers

open Numeric Relational ReadCommitted Prog

structure StatusUpdate where
  offerId : String
  active : Bool
deriving DecidableEq

theorem Offer.withStatus_keeps {F : Type} (active : Bool) :
    ∀ g ∈ [Offer.id], ∀ o : Offer F, g (Offer.withStatus active o) = g o := by
  simp [Offer.withStatus]

theorem Offer.eq_withStatus {F : Type} {o o' : Offer F}
    (h : o'.withStatus true = o.withStatus true) : o' = o.withStatus o'.active := by
  simp only [Offer.withStatus, Offer.mk.injEq, and_true] at h
  obtain ⟨hid, hmerchant, hpercentage, hfixed, hstart, hend, hcap⟩ := h
  rw [Offer.withStatus, ← hid, ← hmerchant, ← hpercentage, ← hfixed, ← hstart, ← hend, ← hcap]

namespace StatusUpdate

def exec (s : StatusUpdate) (d : OfferDatabase) : Except OfferException OfferDatabase :=
  .ok { d with
    offers := d.offers.modify Offer.id s.offerId (Offer.withStatus s.active)
      (Offer.withStatus_keeps s.active) }

def locks (s : StatusUpdate) (d : OfferDatabase) : List String :=
  if (d.offers.find Offer.id s.offerId).isSome then [s.offerId] else []

instance : Statement StatusUpdate OfferDatabase OfferException String := ⟨exec, locks⟩

end StatusUpdate

namespace Async

namespace OfferRepository

/-- The flush has an UPDATE only if the status changes. -/
def updateOfferStatus (offer : Offer PyFloat) (active : Bool) :
    Prog OfferDatabase StatusUpdate OfferException (Offer PyFloat) := do
  if offer.active ≠ active then
    execute ⟨offer.id, active⟩
  let refreshed ← selectOne .multipleResultsFound fun d =>
    d.offers.rows.filter fun o => o.id = offer.id
  return refreshed.getD (offer.withStatus active)

end OfferRepository

def setOfferStatus (offerId : String) (active : Bool) :
    Prog OfferDatabase StatusUpdate OfferException (Offer PyFloat) := do
  match ← selectOne .multipleResultsFound fun d => d.offers.rows.filter fun o => o.id = offerId with
  | none => raise (.offerNotFound offerId)
  | some offer =>
    let updated ← OfferRepository.updateOfferStatus offer active
    commitTx
    return updated

end Async

/-- What a request of an admin may rely on after it has read `d`. -/
def Later (d d' : OfferDatabase) : Prop :=
  d.merchants.Evolves (Same Merchant.id) d'.merchants

theorem Later.trans {d d' d'' : OfferDatabase} (h : Later d d') (h' : Later d' d'') :
    Later d d'' :=
  Table.Evolves.trans Same.trans h h'

def Taken (d : OfferDatabase) (id : String) : Prop := id ∈ d.offers.rows.map Offer.id

theorem exec_insertOffer {row : Offer PyFloat} {d d' : OfferDatabase} :
    Statement.exec (Sql.insertOffer row) d = .ok d' ↔
      ∃ t, d.offers.insert row = some t ∧ d' = { d with offers := t } := by
  simp only [Statement.exec, Sql.exec]
  cases d.offers.insert row <;> simp [eq_comm]

theorem uniqueKeys : UniqueKeys Sql.keys (fun _ => []) Taken where
  locks _ _ := List.Subset.refl _
  ok_iff s d := by
    cases s with
    | insertOffer row =>
      simp only [exec_insertOffer, Table.exists_insert]
      simp [Table.Free, Sql.keys, Taken]
  taken_of_ok s d d' h k := by
    cases s with
    | insertOffer row =>
      obtain ⟨t, ht, rfl⟩ := exec_insertOffer.mp h
      obtain ⟨-, hrows⟩ := d.offers.insert_eq_some ht
      simp [Taken, Sql.keys, hrows, or_comm, eq_comm]

namespace Async

section

variable (maxCashbackPercentage : PyFloat) (offerId : String) (today : Nat) (data : OfferCreate)

structure Checked : Prop where
  value : enforceCashbackValueValidity maxCashbackPercentage data.cashbackType
    data.cashbackValue = .ok ()
  dates : enforceDateRangeValidity today data.startDate data.endDate = .ok ()
  cap : enforceMonthlyCapValidity data.monthlyCap = .ok ()

/-- What a creation may commit: an offer with a valid body, of a merchant that exists. -/
def Creation (log : List Sql) (d : OfferDatabase) : Prop :=
  (∃ m ∈ d.merchants.rows, m.id = data.merchantId) ∧
    Checked maxCashbackPercentage today data ∧
    log = [.insertOffer (mapToDomainOffer offerId data)]

theorem createOffer_abides (d : OfferDatabase) :
    (createOffer maxCashbackPercentage offerId today data).Abides (fun _ => True) Later
      (Creation maxCashbackPercentage offerId today data) d [] := by
  rw [createOffer]
  refine abides_lift_bind fun _ hvalue => abides_lift_bind fun _ hdates => ?_
  refine abides_lift_bind fun _ hcap => ?_
  rw [getMerchantById_eq]
  refine abides_query_bind fun d₁ _ _ _ => ?_
  rw [replay_nil]
  cases hm : d₁.merchants.find Merchant.id data.merchantId with
  | none => trivial
  | some m =>
    obtain ⟨hmem, hid⟩ := (Table.find_eq_some _ (by simp)).mp hm
    refine abides_lift_bind fun _ _ => ?_
    rw [OfferRepository.hasActiveOfferForMerchant]
    refine abides_query_bind fun d₂ _ h₂ _ => abides_lift_bind fun _ _ => ?_
    simp only [OfferRepository.addOffer, getOfferById_eq, bind_assoc, pure_bind]
    apply abides_execute_bind
    refine abides_query_bind fun d₃ _ h₃ _ => ?_
    refine abides_commitTx_bind fun d₄ _ h₄ _ => ⟨?_, fun _ _ => trivial⟩
    obtain ⟨m', hmem', hid'⟩ := (h₂.trans (h₃.trans h₄)) m hmem
    exact ⟨⟨m', hmem', Eq.trans hid' hid⟩, ⟨hvalue, hdates, hcap⟩, rfl⟩

end

theorem setOfferStatus_emits (offerId : String) (active : Bool) :
    (setOfferStatus offerId active).Emits fun s => s = ⟨offerId, active⟩ := by
  have hfind : ∀ id, (selectOne OfferException.multipleResultsFound fun d : OfferDatabase =>
      d.offers.rows.filter fun o => o.id = id : Prog OfferDatabase StatusUpdate _ _) =
        query fun d => d.offers.find Offer.id id :=
    selectOne_eq_query _ OfferDatabase.offers (List.mem_singleton_self Offer.id)
  rw [setOfferStatus, hfind]
  refine emits_query_bind fun d => ?_
  cases ho : d.offers.find Offer.id offerId with
  | none => trivial
  | some o =>
    obtain ⟨-, rfl⟩ := (Table.find_eq_some _ (by simp)).mp ho
    by_cases hstatus : o.active ≠ active
    · simp only [OfferRepository.updateOfferStatus, if_pos hstatus, bind_assoc, pure_bind, hfind]
      refine emits_execute_bind ?_ (emits_query_bind fun _ => trivial)
      rfl
    · simp only [OfferRepository.updateOfferStatus, if_neg hstatus, bind_assoc, pure_bind, hfind]
      exact emits_query_bind fun _ => trivial

theorem offer_replay {offerId : String} {active : Bool} {log : List StatusUpdate}
    (hlog : ∀ s ∈ log, s = ⟨offerId, active⟩) (d : OfferDatabase) :
    ∀ o ∈ (replay log d).offers.rows, o ∈ d.offers.rows ∨
      o.id = offerId ∧ o.active = active ∧ ∃ o' ∈ d.offers.rows, o = o'.withStatus active := by
  refine replay_invariant (P := fun d' => ∀ o ∈ d'.offers.rows, o ∈ d.offers.rows ∨
    o.id = offerId ∧ o.active = active ∧ ∃ o' ∈ d.offers.rows, o = o'.withStatus active) log d
    (fun s hs d' ih o ho => ?_) fun o ho => Or.inl ho
  obtain rfl := hlog s hs
  obtain ho | ⟨o', hmem, hid, rfl⟩ := Table.mem_or_of_mem_modify (Offer.withStatus_keeps active) ho
  · exact ih o ho
  · refine Or.inr ⟨hid, rfl, ?_⟩
    obtain hold | ⟨-, -, o'', hold, rfl⟩ := ih o' hmem
    · exact ⟨o', hold, rfl⟩
    · exact ⟨o'', hold, rfl⟩

end Async

end ClickNBack.Offers
