import ClickNBack.Numeric.Rational
import ClickNBack.Purchases.Accounting
import ClickNBack.Purchases.Admission
import Mathlib.Data.Rat.Floor

namespace ClickNBack.Purchases

open Relational ReadCommitted Numeric
open Offers (Offer)

variable {μ : Type} [DecidableEq μ] (month : Nat → μ)

/-- The purchase uses up the user's allowance of the offer for the month `m`. -/
def Purchase.Counts (userId offerId : String) (m : μ) (p : Purchase) : Prop :=
  p.userId = userId ∧ p.offerId = some offerId ∧ month p.createdAt = m ∧
    p.status ≠ .rejected ∧ p.status ≠ .reversed

instance (userId offerId : String) (m : μ) :
    DecidablePred (Purchase.Counts month userId offerId m) :=
  fun _ => inferInstanceAs (Decidable (_ ∧ _))

/-- What a user has been granted of an offer in the month `m`, in cents. -/
def granted (rows : Multiset Purchase) (userId offerId : String) (m : μ) : Int :=
  ((rows.filter (Purchase.Counts month userId offerId m)).map Purchase.cashbackAmount).sum

def WithinCap (cents : Int) (cap : Decimal) : Prop := (cents : ℚ) ≤ cap.toRat * 100

/-- No user has been granted more of an offer in any month than its cap. -/
def Capped (d : Database) : Prop :=
  ∀ offer ∈ d.catalog.offers.rows, 0 < offer.monthlyCapPerUser.coeff → ∀ userId m,
    WithinCap (granted month d.purchases.rows userId offer.id m) offer.monthlyCapPerUser

/-- What an offer pays for an amount, in cents that are not rounded yet; the product has
the digits of the decimal context. -/
def worth (offer : Offer Decimal) (amount : Decimal) : ℚ :=
  match offer.fixedAmount with
  | some fixed => fixed.toRat * 100
  | none => (amount.mul offer.percentage).toRat

/-- The whole cents that are left to a user of the offer's cap in the month `m`. -/
def room (rows : Multiset Purchase) (userId : String) (offer : Offer Decimal) (m : μ) : Int :=
  ⌊offer.monthlyCapPerUser.toRat * 100⌋ - granted month rows userId offer.id m

/-- Half a cent more than there is room for is rounded down if the last cent is even. -/
def FitsIn (value : ℚ) (cents : Int) : Prop :=
  value ≤ cents + 1 / 2 ∧ (value = cents + 1 / 2 → cents % 2 = 0)

structure Cleared (purchaseId transactionId : String) (today now : Nat) (data : PurchaseCreate)
    (currentUserId : String) (d : Database) (offer : Offer Decimal) : Prop where
  owner : enforcePurchaseOwnership currentUserId data.userId = .ok ()
  fresh : refuseDuplicate data.externalId
    (d.purchases.find Purchase.externalId data.externalId) = .ok ()
  currency : enforceCurrencyEur data.currency = .ok ()
  user : enforceUserActive (d.catalog.users.find User.id data.userId) data.userId = .ok ()
  merchant : enforceMerchantActive (d.catalog.merchants.find Offers.Merchant.id data.merchantId)
    data.merchantId = .ok ()
  available : Offers.getActiveOfferForMerchant PurchaseException.multipleResultsFound
    d.catalog.offers data.merchantId today = .ok (some offer)
  unused : Unused d transactionId (newPurchase purchaseId now data offer.id 0)

/-- A request that its checks let through asks for no more than its user has left of the
offer in that month; one worth more than 28 digits raises. -/
def Operation.RespectsCap (o : Operation) (d : Database) : Prop :=
  ∀ purchaseId transactionId today now data currentUserId offer,
    o = .ingest purchaseId transactionId today now data currentUserId →
    Cleared purchaseId transactionId today now data currentUserId d offer →
    0 < offer.monthlyCapPerUser.coeff → worth offer data.amount < 10 ^ 28 - 1 / 2 →
    FitsIn (worth offer data.amount)
      (room month d.purchases.rows data.userId offer (month now))

def Purchase.grant (p : Purchase) (userId offerId : String) (m : μ) : Int :=
  if p.Counts month userId offerId m then p.cashbackAmount else 0

section

variable {month} {p : Purchase} {userId offerId : String} {m : μ}

theorem Purchase.Counts.grant (h : p.Counts month userId offerId m) :
    p.grant month userId offerId m = p.cashbackAmount := if_pos h

theorem grant_of_not_counts (h : ¬ p.Counts month userId offerId m) :
    p.grant month userId offerId m = 0 := if_neg h

end

theorem granted_cons (p : Purchase) (rows : Multiset Purchase) (userId offerId : String) (m : μ) :
    granted month (p ::ₘ rows) userId offerId m =
      p.grant month userId offerId m + granted month rows userId offerId m := by
  by_cases hp : p.Counts month userId offerId m
  · rw [hp.grant, granted, Multiset.filter_cons_of_pos _ hp, Multiset.map_cons, Multiset.sum_cons]
    rfl
  · rw [grant_of_not_counts hp, granted, Multiset.filter_cons_of_neg _ hp, Int.zero_add]
    rfl

theorem WithinCap.mono {a b : Int} {cap : Decimal} (h : WithinCap b cap) (hab : a ≤ b) :
    WithinCap a cap := (Int.cast_le.mpr hab).trans h

/-- The invariant behind the caps: every purchase has a non-negative cashback. -/
structure Allowances (d : Database) : Prop where
  capped : Capped month d
  nonneg : ∀ p ∈ d.purchases.rows, 0 ≤ p.cashbackAmount

section

variable {month} {d d' : Database} {p : Purchase}

theorem grant_on_le {u : PurchaseUpdate} (hc : 0 ≤ p.cashbackAmount)
    (hu : u = .status .confirmed ∧ p.status = .pending ∨ u = .status .rejected ∨ u = .reversed)
    (userId offerId : String) (m : μ) :
    (u.on p).grant month userId offerId m ≤ p.grant month userId offerId m := by
  have hnonneg : 0 ≤ p.grant month userId offerId m := by
    by_cases hp : p.Counts month userId offerId m
    · rw [hp.grant]
      exact hc
    · rw [grant_of_not_counts hp]
  obtain ⟨rfl, hs⟩ | rfl | rfl := hu
  · have hcounts : ((PurchaseUpdate.status .confirmed).on p).Counts month userId offerId m ↔
        p.Counts month userId offerId m := by
      simp [Purchase.Counts, PurchaseUpdate.on, hs]
    rw [Purchase.grant, if_congr hcounts rfl rfl]
    rfl
  · have hnot : ¬ ((PurchaseUpdate.status .rejected).on p).Counts month userId offerId m :=
      fun h => h.2.2.2.1 rfl
    rw [grant_of_not_counts hnot]
    exact hnonneg
  · have hnot : ¬ (PurchaseUpdate.reversed.on p).Counts month userId offerId m :=
      fun h => h.2.2.2.2 rfl
    rw [grant_of_not_counts hnot]
    exact hnonneg

theorem Allowances.settle (h : Allowances month d) {u : PurchaseUpdate}
    (hp : p ∈ d.purchases.rows)
    (hu : u = .status .confirmed ∧ p.status = .pending ∨ u = .status .rejected ∨ u = .reversed)
    (hpurchases : d'.purchases = PurchaseTable.update d.purchases p.id u)
    (hcatalog : d'.catalog = d.catalog) : Allowances month d' := by
  obtain ⟨rest, hrows⟩ := Multiset.exists_cons_of_mem hp
  have hc := h.nonneg p hp
  have hrows' : d'.purchases.rows = u.on p ::ₘ rest := by
    rw [hpurchases]
    exact Table.modify_rows_of_cons _ u.keeps (by simp) hrows rfl
  constructor
  · intro offer hoffer hcap userId m
    rw [hcatalog] at hoffer
    apply (h.capped offer hoffer hcap userId m).mono
    rw [hrows, hrows', granted_cons, granted_cons]
    exact Int.add_le_add_right (grant_on_le hc hu userId offer.id m) _
  · intro q hq
    rw [hrows', Multiset.mem_cons] at hq
    obtain rfl | hq := hq
    · cases u with
      | status s => exact hc
      | reversed => exact le_refl 0
    · exact h.nonneg q (hrows ▸ Multiset.mem_cons_of_mem hq)

theorem Allowances.confirmed (h : Allowances month d) (hp : p ∈ d.purchases.rows)
    (hs : p.status = .pending) : Allowances month (replay (confirmationWrites p) d) := by
  rw [replay_confirmationWrites d (h.nonneg p hp)]
  exact h.settle hp (Or.inl ⟨rfl, hs⟩) rfl rfl

theorem Allowances.rejected (h : Allowances month d) (hp : p ∈ d.purchases.rows) :
    Allowances month (replay (rejectionWrites p) d) := by
  rw [replay_rejectionWrites d (h.nonneg p hp)]
  exact h.settle hp (Or.inr (Or.inl rfl)) rfl rfl

theorem Allowances.reversed (h : Allowances month d) (hp : p ∈ d.purchases.rows) :
    Allowances month (replay (reversalWrites p) d) := by
  rw [replay_reversalWrites]
  exact h.settle hp (Or.inr (Or.inr rfl)) rfl rfl

theorem Allowances.audited {writes : List Sql} (h : Allowances month (replay writes d))
    (row : AuditLog) : Allowances month (replay (writes ++ [.insertAuditLog row]) d) := by
  rw [replay_audited]
  exact ⟨h.capped, h.nonneg⟩

end

theorem ingest_exec (purchaseId transactionId : String) (today now : Nat) (data : PurchaseCreate)
    (currentUserId : String) (d : Database) :
    (Operation.ingest purchaseId transactionId today now data currentUserId).exec d =
      match admission purchaseId today now data currentUserId d with
      | .ok row =>
        if Unused d transactionId row then replay (ingestionWrites transactionId row) d else d
      | .error _ => d := by
  rw [Operation.exec_eq_replay, Operation.prog, Operation.committed_discard, ← Prog.run_snd,
    ingestPurchase_run]
  cases admission purchaseId today now data currentUserId d with
  | error e => rfl
  | ok row =>
    by_cases h : Unused d transactionId row
    · simp only [Prog.concluded, if_pos h]
    · simp only [Prog.concluded, if_neg h]

theorem calculate_eq {offer : Offer Decimal} (hoffer : Accepted offer) {amount : Decimal}
    (hamount : 0 ≤ amount.coeff) :
    ∃ cents : ℤ, HalfEven (worth offer amount) cents ∧
      calculate offer.id offer.percentage offer.fixedAmount amount =
        if worth offer amount < 10 ^ 28 - 1 / 2 then .ok ⟨offer.id, cents⟩
        else .error .invalidOperation := by
  have hquantize : ∀ d : Decimal, 0 ≤ d.coeff → ∃ cents : ℤ, HalfEven (d.toRat * 100) cents ∧
      (quantizeCents d).map (fun c => (⟨offer.id, c⟩ : CashbackResult)) =
        if d.toRat * 100 < 10 ^ 28 - 1 / 2 then .ok ⟨offer.id, cents⟩
        else .error .invalidOperation := by
    intro d hd
    obtain ⟨z, hz, hquantize⟩ := Decimal.quantize_spec hd (-2)
    have hscale : d.toRat / 10 ^ (-2 : ℤ) = d.toRat * 100 := by
      norm_num [div_eq_mul_inv]
    rw [hscale] at hz
    have hnonneg : 0 ≤ z := by
      have hzero : HalfEven 0 0 := by exact_mod_cast HalfEven.of_int 0
      exact hzero.mono hz (mul_nonneg (Decimal.toRat_nonneg.mpr hd) (by norm_num))
    have hlt : z.natAbs < 10 ^ Decimal.prec ↔ d.toRat * 100 < 10 ^ 28 - 1 / 2 := by
      have hbound : z < 10 ^ 28 ↔ d.toRat * 100 < ((10 ^ 28 : ℤ) : ℚ) - 1 / 2 :=
        hz.lt_iff_of_even (by norm_num)
      rw [Int.cast_pow, Int.cast_ofNat] at hbound
      rw [← hbound, Decimal.prec]
      omega
    refine ⟨z, hz, ?_⟩
    rw [quantizeCents_eq, hquantize]
    by_cases h : z.natAbs < 10 ^ Decimal.prec
    · rw [if_pos h, if_pos (hlt.mp h)]
      rfl
    · rw [if_neg h, if_neg (mt hlt.mpr h)]
      rfl
  cases hfixed : offer.fixedAmount with
  | some fixed =>
    obtain ⟨cents, hcents, heq⟩ := hquantize fixed (hoffer.2 fixed hfixed)
    refine ⟨cents, ?_, ?_⟩ <;> simp only [worth, hfixed]
    · exact hcents
    · exact heq
  | none =>
    have hmul := Decimal.mul_nonneg hamount hoffer.1
    obtain ⟨hdiv, hnonneg, -⟩ := Decimal.div_hundred hmul (Decimal.fix_inContext _)
    obtain ⟨cents, hcents, heq⟩ := hquantize _ hnonneg
    rw [hdiv, div_mul_cancel₀ _ (by norm_num : (100 : ℚ) ≠ 0)] at hcents heq
    refine ⟨cents, ?_, ?_⟩ <;> simp only [worth, hfixed]
    · exact hcents
    · exact heq

section

variable {purchaseId transactionId : String} {today now : Nat} {data : PurchaseCreate}
  {currentUserId : String} {d : Database} {offer : Offer Decimal}

theorem unused_newPurchase (offerId : String) (cents : Int) :
    Unused d transactionId (newPurchase purchaseId now data offerId cents) ↔
      Unused d transactionId (newPurchase purchaseId now data offerId 0) := by
  simp [Unused, Table.Free, newPurchase, newTransaction]

theorem Cleared.admission (h : Cleared purchaseId transactionId today now data currentUserId d
    offer) (hworth : worth offer data.amount < 10 ^ 28 - 1 / 2) :
    ∃ cents : ℤ, HalfEven (worth offer data.amount) cents ∧
      Purchases.admission purchaseId today now data currentUserId d =
        .ok (newPurchase purchaseId now data offer.id cents) ∧
      Unused d transactionId (newPurchase purchaseId now data offer.id cents) := by
  have hmem := (Offers.getActiveOfferForMerchant_some h.available).1
  obtain ⟨cents, hcents, hcalc⟩ := calculate_eq (d.catalog.accepted offer hmem) data.amount_pos.le
  rw [if_pos hworth] at hcalc
  exact ⟨cents, hcents, admission_eq_ok.mpr ⟨offer, ⟨offer.id, cents⟩, h.owner, h.fresh, h.currency,
    h.user, h.merchant, h.available, hcalc, rfl⟩, (unused_newPurchase _ _).mpr h.unused⟩

theorem cleared_of_admission {row : Purchase}
    (h : admission purchaseId today now data currentUserId d = .ok row)
    (hunused : Unused d transactionId row) : ∃ offer, ∃ cents : ℤ,
      Cleared purchaseId transactionId today now data currentUserId d offer ∧
      worth offer data.amount < 10 ^ 28 - 1 / 2 ∧ HalfEven (worth offer data.amount) cents ∧
      row = newPurchase purchaseId now data offer.id cents := by
  obtain ⟨offer, cashback, h⟩ := admission_eq_ok.mp h
  have hmem := (Offers.getActiveOfferForMerchant_some h.available).1
  obtain ⟨cents, hcents, hcalc⟩ := calculate_eq (d.catalog.accepted offer hmem) data.amount_pos.le
  rw [h.computed] at hcalc
  by_cases hworth : worth offer data.amount < 10 ^ 28 - 1 / 2
  · rw [if_pos hworth] at hcalc
    obtain rfl := Except.ok.inj hcalc
    rw [h.result] at hunused
    exact ⟨offer, cents, ⟨h.owner, h.fresh, h.currency, h.user, h.merchant, h.available,
      (unused_newPurchase _ _).mp hunused⟩, hworth, hcents, h.result⟩
  · rw [if_neg hworth] at hcalc
    cases hcalc

variable {month} in
theorem fitsIn_room {cents : ℤ} (h : HalfEven (worth offer data.amount) cents)
    (rows : Multiset Purchase) (userId : String) (m : μ) :
    FitsIn (worth offer data.amount) (room month rows userId offer m) ↔
      WithinCap (granted month rows userId offer.id m + cents) offer.monthlyCapPerUser := by
  rw [FitsIn, ← h.le_iff, room, le_sub_iff_add_le, Int.add_comm, Int.le_floor]
  rfl

end

theorem admission_row {purchaseId : String} {today now : Nat} {data : PurchaseCreate}
    {currentUserId : String} {d : Database} {row : Purchase}
    (h : admission purchaseId today now data currentUserId d = .ok row) :
    0 ≤ row.cashbackAmount ∧ row.createdAt = now ∧ row.status = .pending ∧
      ∃ offer ∈ d.catalog.offers.rows, row.offerId = some offer.id := by
  obtain ⟨offer, cashback, h⟩ := admission_eq_ok.mp h
  have hmem := (Offers.getActiveOfferForMerchant_some h.available).1
  rw [h.result]
  exact ⟨calculate_nonneg (d.catalog.accepted offer hmem) data.amount_pos.le h.computed, rfl, rfl,
    offer, hmem, rfl⟩

section

variable {month} {d : Database}

theorem grant_new {row : Purchase} (hs : row.status = .pending) (userId offerId : String) (m : μ) :
    row.grant month userId offerId m =
      if row.userId = userId ∧ row.offerId = some offerId ∧ month row.createdAt = m then
        row.cashbackAmount else 0 := by
  have hcounts : row.Counts month userId offerId m ↔
      row.userId = userId ∧ row.offerId = some offerId ∧ month row.createdAt = m := by
    simp [Purchase.Counts, hs]
  rw [Purchase.grant, if_congr hcounts rfl rfl]

theorem Allowances.settled (h : Allowances month d) {o : Operation}
    (ho : ∀ purchaseId transactionId today now data currentUserId,
      o ≠ .ingest purchaseId transactionId today now data currentUserId) :
    Allowances month (o.exec d) := by
  have heffect := o.effect d
  rw [Operation.exec_eq_replay]
  generalize o.prog.committed d [] = writes at heffect
  cases heffect with
  | idle => exact h
  | ingested hrow => exact absurd rfl (ho _ _ _ _ _ _)
  | confirmed hp hpending => exact (h.confirmed (mem_of_find hp) hpending).audited _
  | rejected reason hp hpending => exact (h.rejected (mem_of_find hp)).audited _
  | exhausted hp hpending => exact (h.rejected (mem_of_find hp)).audited _
  | confirmedManually hp hpending => exact h.confirmed (mem_of_find hp) hpending
  | reversed hp hreversed => exact (h.reversed (mem_of_find hp)).audited _

theorem Allowances.exec (h : Allowances month d) {o : Operation} (ho : o.RespectsCap month d) :
    Allowances month (o.exec d) := by
  cases o with
  | ingest purchaseId transactionId today now data currentUserId =>
    rw [ingest_exec]
    cases hrow : admission purchaseId today now data currentUserId d with
    | error e => exact h
    | ok row =>
      by_cases hunused : Unused d transactionId row
      · obtain ⟨hc, hnow, hs, -⟩ := admission_row hrow
        obtain ⟨offer, cents, hcleared, hworth, hcents, heq⟩ := cleared_of_admission hrow hunused
        have hmem := (Offers.getActiveOfferForMerchant_some hcleared.available).1
        have hfits := ho _ _ _ _ _ _ offer rfl hcleared
        simp only [if_pos hunused]
        rw [replay_ingestionWrites]
        have hrows := Table.put_rows_of_free _ hunused.1
        constructor
        · intro offer' hoffer hpos userId m
          rw [hrows, granted_cons, grant_new hs, hnow]
          by_cases hg : row.userId = userId ∧ row.offerId = some offer'.id ∧ month now = m
          · rw [if_pos hg, Int.add_comm]
            obtain ⟨rfl, hid, rfl⟩ := hg
            subst heq
            obtain rfl := d.catalog.offers.eq_of_key (by simp) hmem hoffer (Option.some.inj hid)
            exact (fitsIn_room hcents _ _ _).mp (hfits hpos hworth)
          · rw [if_neg hg, Int.zero_add]
            exact h.capped offer' hoffer hpos userId m
        · intro q hq
          rw [hrows, Multiset.mem_cons] at hq
          obtain rfl | hq := hq
          · exact hc
          · exact h.nonneg q hq
      · simp only [if_neg hunused]
        exact h
  | attempt | forceReject | confirmManually | reverse => exact h.settled fun _ _ _ _ _ _ => nofun

end

end ClickNBack.Purchases
