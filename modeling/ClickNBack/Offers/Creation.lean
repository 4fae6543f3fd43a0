import ClickNBack.Offers.ActiveOffer
import ClickNBack.ReadCommitted.SingleWriter
import ClickNBack.Relational.Queries

namespace ClickNBack.Offers

open Numeric Relational ReadCommitted Prog

inductive Sql
  | insertOffer (row : Offer PyFloat)

namespace Sql

/-- The primary key is the only unique index of `offers`. -/
def exec : Sql → OfferDatabase → Except OfferException OfferDatabase
  | .insertOffer row, d =>
    match d.offers.insert row with
    | some offers => .ok { d with offers }
    | none => .error .integrityError

def keys : Sql → List String
  | .insertOffer row => [row.id]

instance : Statement Sql OfferDatabase OfferException String := ⟨exec, fun s _ => s.keys⟩

end Sql

namespace Async

abbrev Coroutine := Prog OfferDatabase Sql OfferException

def MerchantRepository.getMerchantById (merchantId : String) : Coroutine (Option Merchant) :=
  selectOne .multipleResultsFound fun d => d.merchants.rows.filter fun m => m.id = merchantId

namespace OfferRepository

def getOfferById (offerId : String) : Coroutine (Option (Offer PyFloat)) :=
  selectOne .multipleResultsFound fun d => d.offers.rows.filter fun o => o.id = offerId

def hasActiveOfferForMerchant (merchantId : String) : Coroutine Bool :=
  query fun d => Offers.OfferRepository.hasActiveOfferForMerchant d merchantId

def addOffer (offer : Offer PyFloat) : Coroutine (Offer PyFloat) := do
  execute (.insertOffer offer)
  let refreshed ← getOfferById offer.id
  return refreshed.getD offer

end OfferRepository

def createOffer (maxCashbackPercentage : PyFloat) (offerId : String) (today : Nat)
    (data : OfferCreate) : Coroutine (Offer PyFloat) := do
  lift (enforceCashbackValueValidity maxCashbackPercentage data.cashbackType data.cashbackValue)
  lift (enforceDateRangeValidity today data.startDate data.endDate)
  lift (enforceMonthlyCapValidity data.monthlyCap)
  match ← MerchantRepository.getMerchantById data.merchantId with
  | none => raise (.merchantNotFound data.merchantId)
  | some merchant =>
    lift (enforceMerchantIsActive data.merchantId merchant.active)
    let hasActive ← OfferRepository.hasActiveOfferForMerchant data.merchantId
    lift (enforceNoActiveOfferExists data.merchantId hasActive)
    let offer ← OfferRepository.addOffer (mapToDomainOffer offerId data)
    commitTx
    return offer

theorem getMerchantById_eq (merchantId : String) :
    MerchantRepository.getMerchantById merchantId =
      query fun d => d.merchants.find Merchant.id merchantId :=
  selectOne_eq_query _ OfferDatabase.merchants (by simp) merchantId

theorem getOfferById_eq (offerId : String) :
    OfferRepository.getOfferById offerId = query fun d => d.offers.find Offer.id offerId :=
  selectOne_eq_query _ OfferDatabase.offers (by simp) offerId

end Async

section

variable (d : OfferDatabase) (row : Offer PyFloat)

theorem insertOffer_exec :
    Statement.exec (Sql.insertOffer row) d =
      if d.offers.Free row then .ok { d with offers := d.offers.put row }
      else .error .integrityError := by
  simp only [Statement.exec, Sql.exec, Table.put, Table.insert]
  by_cases h : d.offers.Free row <;> simp [h]

theorem apply_insertOffer :
    apply (Sql.insertOffer row) d = { d with offers := d.offers.put row } := by
  rw [apply, insertOffer_exec]
  by_cases h : d.offers.Free row
  · rw [if_pos h]
  · rw [if_neg h, Table.put_of_not_free _ h]

theorem runs_insertOffer : Runs [Sql.insertOffer row] d ↔ d.offers.Free row := by
  simp only [Runs, and_true, insertOffer_exec]
  by_cases h : d.offers.Free row <;> simp [h]

end

namespace Async

section

variable (maxCashbackPercentage : PyFloat) (offerId : String) (today : Nat) (data : OfferCreate)

theorem addOffer_run (d : OfferDatabase) (offer : Offer PyFloat) :
    (OfferRepository.addOffer offer >>= fun o => commitTx >>= fun _ => pure o).run d [] =
      concluded d (fun r => (.ok r.1, r.2)) (Offers.OfferRepository.addOffer d offer) := by
  have hexec := insertOffer_exec d offer
  simp only [OfferRepository.addOffer, getOfferById_eq, bind_assoc, pure_bind]
  rw [execute_run_bind, replay_nil]
  rw [Offers.OfferRepository.addOffer]
  by_cases hfree : d.offers.Free offer
  · obtain ⟨offers, hoffers⟩ := Option.isSome_iff_exists.mp (d.offers.insert_isSome.mpr hfree)
    have hput : d.offers.put offer = offers := by simp [Table.put, hoffers]
    have hfind : offers.find Offer.id offer.id = some offer :=
      hput ▸ d.offers.find_put_self hfree (by simp)
    rw [if_pos hfree] at hexec
    simp only [hexec, hoffers, List.nil_append, run_query_bind, run_commitTx_bind, run_pure,
      replay_cons, replay_nil, apply_insertOffer, hfind, hput, Option.getD_some]
    rfl
  · have hnone : d.offers.insert offer = none :=
      Option.not_isSome_iff_eq_none.mp (mt d.offers.insert_isSome.mp hfree)
    rw [if_neg hfree] at hexec
    simp only [hexec, hnone]
    rfl

/-- Without other requests the coroutine does what the service does in one step. -/
theorem createOffer_run (d : OfferDatabase) :
    (createOffer maxCashbackPercentage offerId today data).run d [] =
      concluded d (fun r => (.ok r.1, r.2))
        (Offers.createOffer maxCashbackPercentage offerId today data d) := by
  rw [createOffer, Offers.createOffer]
  refine run_lift_bind fun _ => run_lift_bind fun _ => run_lift_bind fun _ => ?_
  rw [getMerchantById_eq, run_query_bind, Offers.getMerchantById_eq, replay_nil]
  change _ = concluded d _ (match d.merchants.find Merchant.id data.merchantId with
    | none => _
    | some merchant => _)
  cases d.merchants.find Merchant.id data.merchantId with
  | none => rfl
  | some merchant =>
    refine run_lift_bind fun _ => ?_
    rw [OfferRepository.hasActiveOfferForMerchant, run_query_bind, replay_nil]
    exact run_lift_bind fun _ => addOffer_run d _

theorem createOffer_follows :
    (createOffer maxCashbackPercentage offerId today data).Follows
      (fun offer => [Sql.insertOffer offer]) (· = mapToDomainOffer offerId data) [] := by
  rw [createOffer]
  refine follows_lift_bind fun _ _ => follows_lift_bind fun _ _ => follows_lift_bind fun _ _ => ?_
  rw [getMerchantById_eq]
  refine follows_query_bind fun _ _ => ?_
  split
  · trivial
  · refine follows_lift_bind fun _ _ => follows_query_bind fun _ _ => ?_
    refine follows_lift_bind fun _ _ => ?_
    simp only [OfferRepository.addOffer, getOfferById_eq, bind_assoc, pure_bind]
    refine follows_execute_bind ⟨_, rfl, List.prefix_refl _⟩ ?_
    refine follows_query_bind fun d hd => ?_
    have hfree := (runs_insertOffer d _).mp hd
    have hfind : (d.offers.put (mapToDomainOffer offerId data)).find Offer.id
        (mapToDomainOffer offerId data).id = some (mapToDomainOffer offerId data) :=
      d.offers.find_put_self hfree (by simp)
    rw [List.nil_append, replay_cons, replay_nil, apply_insertOffer, hfind]
    exact follows_commit rfl rfl

def HasActiveOffer (merchantId : String) (d : OfferDatabase) : Prop :=
  activeOffers d.offers merchantId ≠ 0

/-- A creation inserts its row right after it has read that the merchant has no
active offer. -/
theorem createOffer_checksFirst :
    (createOffer maxCashbackPercentage offerId today data).ChecksFirst
      (HasActiveOffer data.merchantId) := by
  rw [createOffer]
  refine checksFirst_lift_bind fun _ _ => checksFirst_lift_bind fun _ _ =>
    checksFirst_lift_bind fun _ _ => ?_
  rw [getMerchantById_eq]
  refine checksFirst_query_bind fun merchant => ?_
  cases merchant with
  | none => trivial
  | some merchant =>
    refine checksFirst_lift_bind fun _ _ => ?_
    simp only [OfferRepository.addOffer, bind_assoc]
    refine checksFirst_check (c := fun d => enforceNoActiveOfferExists data.merchantId
      (Offers.OfferRepository.hasActiveOfferForMerchant d data.merchantId)) fun d hd => ?_
    have hactive : Offers.OfferRepository.hasActiveOfferForMerchant d data.merchantId = true := by
      simpa [Offers.OfferRepository.hasActiveOfferForMerchant, HasActiveOffer, activeOffers]
        using hd
    exact ⟨_, by rw [hactive]; rfl⟩

end

theorem offers_of_runs {ι : Type} {order : List (ι × Offer PyFloat)} {d : OfferDatabase}
    (h : Runs (order.flatMap fun x => [Sql.insertOffer x.2]) d) :
    (replay (order.flatMap fun x => [Sql.insertOffer x.2]) d).merchants = d.merchants ∧
      (replay (order.flatMap fun x => [Sql.insertOffer x.2]) d).offers.rows =
        (order : Multiset (ι × Offer PyFloat)).map Prod.snd + d.offers.rows := by
  induction order generalizing d with
  | nil => exact ⟨rfl, (Multiset.zero_add _).symm⟩
  | cons x order ih =>
    rw [List.flatMap_cons, runs_append, runs_insertOffer] at h
    obtain ⟨hfree, hrest⟩ := h
    obtain ⟨hmerchants, hrows⟩ := ih hrest
    rw [replay_cons, replay_nil, apply_insertOffer] at hmerchants hrows
    rw [List.flatMap_cons, replay_append, replay_cons, replay_nil, apply_insertOffer]
    refine ⟨hmerchants, ?_⟩
    rw [hrows, Table.put_rows_of_free _ hfree, ← Multiset.cons_coe, Multiset.map_cons,
      Multiset.add_cons, Multiset.cons_add]

structure CreationRequests (ι : Type) where
  maxCashbackPercentage : PyFloat
  offerId : ι → String
  today : ι → Nat
  data : ι → OfferCreate

def CreationRequests.prog {ι : Type} (r : CreationRequests ι) (i : ι) :
    Coroutine (Offer PyFloat) :=
  createOffer r.maxCashbackPercentage (r.offerId i) (r.today i) (r.data i)

section

variable {ι : Type} [DecidableEq ι] [Fintype ι] {r : CreationRequests ι} {d₀ : OfferDatabase}
  {s : Sys ι OfferDatabase Sql OfferException (Offer PyFloat)} {merchantId : String}

theorem runs_after_insertOffer {a b : Offer PyFloat} {l : List Sql}
    (hl : l <+: [Sql.insertOffer a])
    (happ : ∀ t ∈ l, ∀ u ∈ [Sql.insertOffer b], List.Disjoint t.keys u.keys) {d : OfferDatabase}
    (hd : Runs l d) : Runs l (replay [Sql.insertOffer b] d) := by
  have hconcat : l <+: [] ++ [Sql.insertOffer a] := hl
  obtain hl | hl := List.prefix_concat_iff.mp hconcat
  · rw [List.nil_append] at hl
    subst hl
    have hne : b.id ≠ a.id := by
      simpa [Sql.keys] using happ _ (List.mem_singleton_self _) _ (List.mem_singleton_self _)
    rw [runs_insertOffer] at hd
    rw [runs_insertOffer, replay_cons, replay_nil, apply_insertOffer]
    exact (d.offers.free_put (by simpa using Ne.symm hne)).mpr hd
  · rw [List.prefix_nil.mp hl]
    trivial

theorem activeOffers_insertOffer {offer : Offer PyFloat} (hactive : offer.active = true)
    (hm : offer.merchantId = merchantId) {d : OfferDatabase}
    (hd : Runs [Sql.insertOffer offer] d) :
    activeOffers (replay [Sql.insertOffer offer] d).offers merchantId ≠ 0 := by
  rw [runs_insertOffer] at hd
  rw [replay_cons, replay_nil, apply_insertOffer]
  intro hzero
  apply Multiset.notMem_zero offer
  rw [← hzero]
  refine Multiset.mem_filter.mpr ⟨?_, hm, hactive⟩
  rw [Table.put_rows_of_free _ hd]
  exact Multiset.mem_cons_self _ _

variable (r d₀)

theorem creation_atomic {C : Sys ι OfferDatabase Sql OfferException (Offer PyFloat) → ι →
      Action OfferException → Prop} (hr : Sys.Reach C (Sys.start d₀ r.prog) s) :
    ∃ order, Sys.Atomic (fun _ offer => [Sql.insertOffer offer])
      (fun i offer => offer = mapToDomainOffer (r.offerId i) (r.data i)) Sql.keys d₀ s order :=
  Sys.atomic_of_follows _ _ _ (fun _ _ _ _ _ _ => rfl)
    (fun _ _ _ _ _ _ _ hl happ _ hd _ => runs_after_insertOffer hl happ hd)
    (fun _ => createOffer_follows _ _ _ _) hr

/-- As long as no creation commits while another one that has found no active offer
is still to end, one request at most succeeds: the merchant gets one active offer, and
every other request raises and leaves no row. -/
theorem creation_one_active (hm : ∀ i, (r.data i).merchantId = merchantId)
    (hnone : activeOffers d₀.offers merchantId = 0)
    (hr : Sys.Reach Sys.CommitsAlone (Sys.start d₀ r.prog) s) :
    (activeOffers s.db.offers merchantId).card ≤ 1 ∧ s.returned.card ≤ 1 ∧
    s.db.merchants = d₀.merchants ∧
    s.db.offers.rows = s.returned.map Prod.snd + d₀.offers.rows ∧
    ∀ x ∈ s.returned, x.2 = mapToDomainOffer (r.offerId x.1) (r.data x.1) ∧
      ∀ j, j ≠ x.1 → (s.session j).prog.Done → ∃ e, (s.session j).prog = .raise e := by
  obtain ⟨order, h⟩ := creation_atomic r d₀ hr
  have hone : s.returned.card ≤ 1 := by
    refine Sys.returned_le_one (fun _ _ _ _ _ _ => rfl)
      (fun _ _ _ _ _ _ _ hl happ _ hd _ => runs_after_insertOffer hl happ hd)
      (fun i => createOffer_follows r.maxCashbackPercentage (r.offerId i) (r.today i) (r.data i))
      (fun i => hm i ▸ createOffer_checksFirst _ _ _ (r.data i)) ?_ hr
    rintro i _ rfl d hd
    exact activeOffers_insertOffer rfl (hm i) hd
  have hreturned : s.returned = order := h.returned_eq
  obtain ⟨hmerchants, hrows⟩ := offers_of_runs h.runs
  rw [← h.db, ← hreturned] at hrows
  rw [← h.db] at hmerchants
  refine ⟨?_, hone, hmerchants, hrows, fun x hx => ⟨?_, fun j hj hdone => ?_⟩⟩
  · have hold : d₀.offers.rows.filter (fun o => o.merchantId = merchantId ∧ o.active) = 0 := hnone
    rw [activeOffers, hrows, Multiset.filter_add, hold, Multiset.add_zero]
    apply (Multiset.card_le_card (Multiset.filter_le _ _)).trans
    rwa [Multiset.card_map]
  · exact h.meets x (Multiset.mem_coe.mp (hreturned ▸ hx))
  · apply hdone.resolve_left
    rintro ⟨a, ha⟩
    have hja : (j, a) ∈ s.returned := Sys.mem_returned.mpr ha
    exact hj (congrArg Prod.fst (Sys.eq_of_returned_le_one hone hja hx))

end

theorem five_digits : 5 < 10 ^ 17 := by decide

def twoCreations : CreationRequests (Fin 2) where
  maxCashbackPercentage := .ofNat 5 five_digits
  offerId i := if i = 0 then "one" else "two"
  today _ := 1
  data _ := ⟨"shop", .percent, .ofNat 5 five_digits, 1, 30, .ofNat 5 five_digits⟩

theorem shop_unique : ∀ f ∈ [Merchant.id],
    (({⟨"shop", "Shop", true⟩} : Multiset Merchant).map f).Nodup := by simp

def twoCreationsStart : Sys (Fin 2) OfferDatabase Sql OfferException (Offer PyFloat) :=
  Sys.start (noOffers ⟨{⟨"shop", "Shop", true⟩}, shop_unique⟩) twoCreations.prog

/-- The second request looks for an active offer after the first has committed. -/
def oneCreated : Sys (Fin 2) OfferDatabase Sql OfferException (Offer PyFloat) :=
  (Sys.play Sys.unshared [0, 1, 0, 0, 0, 0, 1] twoCreationsStart).get (by decide +kernel)

theorem creation_one_active_oneCreated :
    (∀ i, (oneCreated.session i).prog.Done) ∧
    (activeOffers oneCreated.db.offers "shop").card ≤ 1 ∧ oneCreated.returned.card ≤ 1 ∧
    oneCreated.db.merchants = twoCreationsStart.db.merchants ∧
    oneCreated.db.offers.rows =
      oneCreated.returned.map Prod.snd + twoCreationsStart.db.offers.rows ∧
    ∀ x ∈ oneCreated.returned,
      x.2 = mapToDomainOffer (twoCreations.offerId x.1) (twoCreations.data x.1) ∧
      ∀ j, j ≠ x.1 → (oneCreated.session j).prog.Done →
        ∃ e, (oneCreated.session j).prog = .raise e :=
  ⟨by decide +kernel, creation_one_active twoCreations twoCreationsStart.db (fun _ => rfl) rfl
    (Sys.reach_of_play (fun _ _ => Sys.commitsAlone_of_unshared) Sys.Reach.refl
      (Option.some_get _).symm)⟩

/-- Both requests look for an active offer before either has committed its own. -/
def bothCreated : Sys (Fin 2) OfferDatabase Sql OfferException (Offer PyFloat) :=
  (Sys.play (fun _ _ => true) [0, 0, 1, 1, 0, 0, 0, 1, 1, 1] twoCreationsStart).get
    (by decide +kernel)

theorem bothCreated_two_active :
    ¬ ∀ s, Sys.Reach (fun _ _ a => a = .advance) twoCreationsStart s →
      (activeOffers s.db.offers "shop").card ≤ 1 := by
  intro h
  have hone := h bothCreated (Sys.reach_of_play (C := fun _ _ a => a = .advance)
    (fun _ _ _ => rfl) Sys.Reach.refl (Option.some_get _).symm)
  have htwo : (activeOffers bothCreated.db.offers "shop").card = 2 := by decide +kernel
  omega

end Async

end ClickNBack.Offers
