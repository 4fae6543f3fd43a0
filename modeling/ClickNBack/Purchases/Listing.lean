import ClickNBack.Purchases.Repositories
import ClickNBack.Relational.Paging

namespace ClickNBack.Purchases

open Relational ReadCommitted

/-- The microseconds of a day, in which `created_at` is counted here. -/
def dayLength : Nat := 24 * 60 * 60 * 1000000

/-- `date.max.toordinal()` -/
def maxOrdinal : Nat := 3652059

/-- A Python date, by its `toordinal()`. -/
structure Date where
  ordinal : Nat
  pos : 1 ≤ ordinal
  le_max : ordinal ≤ maxOrdinal
deriving DecidableEq

def Purchase.day (p : Purchase) : Nat := p.createdAt / dayLength

def Date.midnight (d : Date) : Nat := d.ordinal * dayLength

inductive ListingException
  | purchases (e : PurchaseException)
  | overflowError
deriving DecidableEq

def Date.nextDay (d : Date) : Except ListingException Date :=
  if h : d.ordinal + 1 ≤ maxOrdinal then .ok ⟨d.ordinal + 1, Nat.le_add_left 1 d.ordinal, h⟩
  else .error .overflowError

structure Filters where
  status : Option String
  userId : Option String
  merchantId : Option String
  startDate : Option Date
  endDate : Option Date

namespace Admin

/-- `PurchaseRepository._build_conditions`; a date stands for its midnight. -/
def buildConditions (f : Filters) : Except ListingException (List (Purchase → Bool)) := do
  let status := f.status.toList.map fun s (p : Purchase) =>
    decide (PurchaseStatus.ofValue s = some p.status)
  let userId := f.userId.toList.map fun u (p : Purchase) => decide (p.userId = u)
  let merchantId := f.merchantId.toList.map fun m (p : Purchase) => decide (p.merchantId = m)
  let startDate := f.startDate.toList.map fun d (p : Purchase) =>
    decide (d.midnight ≤ p.createdAt)
  let nextDay ← f.endDate.mapM Date.nextDay
  let endDate := nextDay.toList.map fun d (p : Purchase) => decide (p.createdAt < d.midnight)
  return status ++ userId ++ merchantId ++ startDate ++ endDate

def select (purchases : PurchaseTable) (conditions : List (Purchase → Bool)) :
    Multiset Purchase :=
  purchases.rows.filter fun p => conditions.all (· p)

def PurchaseRepository.listPurchases (listing : Listing Purchase) (purchases : PurchaseTable)
    (f : Filters) (offset limit : Nat) : Except ListingException (List Purchase × Nat) := do
  let conditions ← buildConditions f
  let total := (select purchases conditions).card
  let items := page offset limit
    (newestFirst Purchase.createdAt (listing.list (select purchases conditions)))
  return (items, total)

def PurchaseService.listPurchases (listing : Listing Purchase) (purchases : PurchaseTable)
    (f : Filters) (offset limit : Nat) : Except ListingException (List Purchase × Nat) := do
  match f.status with
  | none => pure ()
  | some status =>
    if (PurchaseStatus.ofValue status).isNone then
      throw (.purchases (.invalidPurchaseStatus status))
  PurchaseRepository.listPurchases listing purchases f offset limit

end Admin

/-- What the filters ask for: each given value is matched, and the day of creation lies
between the given dates, both included. -/
def Filters.matches (f : Filters) (p : Purchase) : Bool :=
  f.status.all (fun s => PurchaseStatus.ofValue s = some p.status) ∧
    f.userId.all (p.userId = ·) ∧ f.merchantId.all (p.merchantId = ·) ∧
    f.startDate.all (·.ordinal ≤ p.day) ∧ f.endDate.all (p.day ≤ ·.ordinal)

def Filters.endsAtMax (f : Filters) : Prop := ∃ d, f.endDate = some d ∧ d.ordinal = maxOrdinal

section

variable {f : Filters}

theorem Date.midnight_le {d : Date} {p : Purchase} :
    d.midnight ≤ p.createdAt ↔ d.ordinal ≤ p.day :=
  (Nat.le_div_iff_mul_le (by decide)).symm

theorem Date.nextDay_eq_ok {d d' : Date} (h : d.nextDay = .ok d') {p : Purchase} :
    p.createdAt < d'.midnight ↔ p.day ≤ d.ordinal := by
  rw [Date.nextDay] at h
  split at h
  · cases h
    rw [← Nat.lt_succ_iff]
    exact (Nat.div_lt_iff_lt_mul (by decide)).symm
  · cases h

theorem Date.nextDay_ok {d : Date} (h : d.ordinal ≠ maxOrdinal) : ∃ d', d.nextDay = .ok d' := by
  have hle := d.le_max
  exact ⟨_, dif_pos (by omega)⟩

theorem Date.nextDay_eq_error {d : Date} :
    d.nextDay = .error .overflowError ↔ d.ordinal = maxOrdinal := by
  have hle := d.le_max
  rw [Date.nextDay]
  split
  · simp
    omega
  · simp
    omega

theorem all_toList_map {β : Type} (o : Option β) (g : β → Purchase → Bool) (p : Purchase) :
    (o.toList.map g).all (· p) = o.all (g · p) := by
  cases o <;> simp

theorem all_midnight (startDate : Option Date) (p : Purchase) :
    startDate.all (fun d => decide (d.midnight ≤ p.createdAt)) =
      startDate.all (·.ordinal ≤ p.day) := by
  cases startDate with
  | none => rw [Option.all_none, Option.all_none]
  | some d =>
    rw [Option.all_some, Option.all_some]
    exact decide_eq_decide.mpr Date.midnight_le

theorem mapM_nextDay {endDate : Option Date} (h : ∀ d, endDate = some d → d.ordinal ≠ maxOrdinal) :
    ∃ nextDay, endDate.mapM Date.nextDay = .ok nextDay ∧ ∀ p : Purchase,
      nextDay.all (fun d => decide (p.createdAt < d.midnight)) =
        endDate.all (p.day ≤ ·.ordinal) := by
  cases endDate with
  | none => exact ⟨none, rfl, fun p => by rw [Option.all_none, Option.all_none]⟩
  | some d =>
    obtain ⟨d', hd⟩ := Date.nextDay_ok (h d rfl)
    refine ⟨some d', by simp [hd], fun p => ?_⟩
    rw [Option.all_some, Option.all_some]
    exact decide_eq_decide.mpr (Date.nextDay_eq_ok hd)

theorem buildConditions_ok (h : ¬ f.endsAtMax) :
    ∃ conditions, Admin.buildConditions f = .ok conditions ∧
      ∀ p, conditions.all (· p) = f.matches p := by
  obtain ⟨nextDay, hnext, hend⟩ := mapM_nextDay fun d hend hd => h ⟨d, hend, hd⟩
  refine ⟨_, by simp only [Admin.buildConditions, hnext]; rfl, fun p => ?_⟩
  simp only [List.all_append, all_toList_map, all_midnight, hend, Filters.matches, Bool.decide_and,
    Bool.decide_eq_true, Bool.and_assoc]

theorem buildConditions_error (h : f.endsAtMax) :
    Admin.buildConditions f = .error .overflowError := by
  obtain ⟨d, hend, hd⟩ := h
  simp only [Admin.buildConditions, hend, Option.mapM_some, Date.nextDay_eq_error.mpr hd]
  rfl

theorem page_length {ρ : Type} (offset limit : Nat) (rows : List ρ) :
    (page offset limit rows).length = min limit (rows.length - offset) := by
  simp [page]

theorem listPurchases_eq (listing : Listing Purchase) (purchases : PurchaseTable)
    (h : ¬ f.endsAtMax) (offset limit : Nat) :
    Admin.PurchaseRepository.listPurchases listing purchases f offset limit =
      .ok (page offset limit (newestFirst Purchase.createdAt
        (listing.list (purchases.rows.filter (f.matches ·)))),
        (purchases.rows.filter (f.matches ·)).card) := by
  obtain ⟨conditions, hok, hmatches⟩ := buildConditions_ok h
  have hselect : Admin.select purchases conditions = purchases.rows.filter (f.matches ·) := by
    simp only [Admin.select, hmatches]
  simp only [Admin.PurchaseRepository.listPurchases, hok, ← hselect]
  rfl

theorem listPurchases_overflows (listing : Listing Purchase) (purchases : PurchaseTable)
    (h : f.endsAtMax) (offset limit : Nat) :
    Admin.PurchaseRepository.listPurchases listing purchases f offset limit =
      .error .overflowError := by
  simp only [Admin.PurchaseRepository.listPurchases, buildConditions_error h]
  rfl

theorem serviceListPurchases_eq (listing : Listing Purchase) (purchases : PurchaseTable)
    (hstatus : ∀ s ∈ f.status, (PurchaseStatus.ofValue s).isSome) (offset limit : Nat) :
    Admin.PurchaseService.listPurchases listing purchases f offset limit =
      Admin.PurchaseRepository.listPurchases listing purchases f offset limit := by
  rw [Admin.PurchaseService.listPurchases]
  cases hs : f.status with
  | none => rfl
  | some s =>
    obtain ⟨status, hvalue⟩ := Option.isSome_iff_exists.mp (hstatus s hs)
    simp [hvalue]

theorem listPurchases_own (listing : Listing Purchase) {status : Option String}
    {wanted : Option PurchaseStatus} (hstatus : wanted = status.bind PurchaseStatus.ofValue)
    (hvalid : ∀ s ∈ status, (PurchaseStatus.ofValue s).isSome) (userId : Option String)
    (offset limit : Nat) (d : Database) :
    ∃ r, Admin.PurchaseRepository.listPurchases listing d.purchases
        ⟨status, userId, none, none, none⟩ offset limit = .ok r ∧
      (PurchaseRepository.listPurchases listing wanted userId offset limit).run d [] =
        (.ok r, d) := by
  have hend : ¬ (⟨status, userId, none, none, none⟩ : Filters).endsAtMax := by
    rintro ⟨_, h, _⟩
    cases h
  refine ⟨_, listPurchases_eq listing d.purchases hend offset limit, ?_⟩
  have hsame : ∀ p : Purchase, (⟨status, userId, none, none, none⟩ : Filters).matches p =
      decide (wanted.all (p.status = ·) ∧ userId.all (p.userId = ·)) := by
    intro p
    subst hstatus
    cases status with
    | none => simp [Filters.matches]
    | some s =>
      obtain ⟨value, hvalue⟩ := Option.isSome_iff_exists.mp (hvalid s rfl)
      simp [Filters.matches, hvalue, @eq_comm _ value]
  simp only [hsame]
  rfl

end

/-- A page of the purchases that match the filters, newest first, with their number. -/
def Lists (purchases : PurchaseTable) (f : Filters) (offset limit : Nat) :
    Except ListingException (List Purchase × Nat) → Prop
  | .error _ => False
  | .ok (items, total) =>
    total = (purchases.rows.filter (f.matches ·)).card ∧
      (∀ p ∈ items, p ∈ purchases.rows ∧ f.matches p) ∧
      (items.Pairwise fun p p' => p'.createdAt ≤ p.createdAt) ∧
      items.length = min limit (total - offset)

/-- Unless they end at the last day that Python knows, the filters select by calendar
day with both bounds included; then they raise. -/
theorem listPurchases_lists_iff (listing : Listing Purchase) (purchases : PurchaseTable)
    (f : Filters) (hstatus : ∀ s ∈ f.status, (PurchaseStatus.ofValue s).isSome)
    (offset limit : Nat) :
    Lists purchases f offset limit
      (Admin.PurchaseService.listPurchases listing purchases f offset limit) ↔
        ¬ f.endsAtMax := by
  rw [serviceListPurchases_eq listing purchases hstatus]
  constructor
  · intro h hmax
    rw [listPurchases_overflows listing purchases hmax] at h
    exact h
  · intro h
    rw [listPurchases_eq listing purchases h]
    obtain ⟨hrows, hsorted⟩ := arranges_newestFirst Purchase.createdAt listing
      (purchases.rows.filter (f.matches ·))
    have hsub := (List.take_sublist limit _).trans (List.drop_sublist offset (newestFirst
      Purchase.createdAt (listing.list (purchases.rows.filter (f.matches ·)))))
    refine ⟨rfl, fun p hp => ?_, hsorted.sublist hsub, ?_⟩
    · have hmem := Multiset.mem_coe.mpr (hsub.subset hp)
      rw [hrows] at hmem
      exact Multiset.mem_filter.mp hmem
    · rw [page_length, ← Multiset.coe_card, hrows]

def purchaseAt (id : String) (createdAt : Nat) : Purchase :=
  ⟨id, id, "ana", "shop", none, 1000, 100, "EUR", .confirmed, createdAt⟩

theorem purchasesAt_unique : ∀ g ∈ [Purchase.id, Purchase.externalId],
    (({purchaseAt "first" dayLength, purchaseAt "last" (2 * dayLength - 1)} :
      Multiset Purchase).map g).Nodup := by
  simp [purchaseAt]

def firstDay : PurchaseTable :=
  ⟨{purchaseAt "first" dayLength, purchaseAt "last" (2 * dayLength - 1)}, purchasesAt_unique⟩

theorem one_le_maxOrdinal : 1 ≤ maxOrdinal := by decide

def onFirstDay : Filters where
  status := some "confirmed"
  userId := none
  merchantId := some "shop"
  startDate := some ⟨1, Nat.le_refl 1, one_le_maxOrdinal⟩
  endDate := some ⟨1, Nat.le_refl 1, one_le_maxOrdinal⟩

theorem listPurchases_lists_onFirstDay :
    (firstDay.rows.filter (onFirstDay.matches ·)).card = 2 ∧
    (Lists firstDay onFirstDay 0 10
      (Admin.PurchaseService.listPurchases default firstDay onFirstDay 0 10) ↔
        ¬ onFirstDay.endsAtMax) ∧ ¬ onFirstDay.endsAtMax :=
  ⟨by decide +kernel,
    listPurchases_lists_iff default firstDay onFirstDay (by decide +kernel) 0 10,
    by rintro ⟨d, hd, hmax⟩; cases hd; exact absurd hmax (by decide)⟩

def untilMax : Filters :=
  ⟨none, none, none, none, some ⟨maxOrdinal, one_le_maxOrdinal, Nat.le_refl _⟩⟩

theorem untilMax_not_lists :
    Admin.PurchaseService.listPurchases default firstDay untilMax 0 10 = .error .overflowError ∧
    ¬ Lists firstDay untilMax 0 10
      (Admin.PurchaseService.listPurchases default firstDay untilMax 0 10) := by
  have hraises : Admin.PurchaseService.listPurchases default firstDay untilMax 0 10 =
      .error .overflowError :=
    listPurchases_overflows default firstDay ⟨_, rfl, rfl⟩ 0 10
  exact ⟨hraises, by rw [hraises]; exact id⟩

end ClickNBack.Purchases
