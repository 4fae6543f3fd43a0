import ClickNBack.Application.Provenance
import ClickNBack.Purchases.Runs

namespace ClickNBack.Application

open Numeric Relational ReadCommitted Purchases

/-- JWTs that name their type and their user; those of the two that act are known. -/
def marketJwt : Auth.Jwt where
  encode claims := claims.tokenType.getD "" ++ claims.userId.getD ""
  decode token := match token with
    | "accessana" => some ⟨some "ana", some "user", some 900, some "access", none⟩
    | "accessroot" => some ⟨some "root", some "admin", some 900, some "access", none⟩
    | _ => none

theorem ten_digits : 10 < 10 ^ 17 := by decide

theorem twenty_digits : 20 < 10 ^ 17 := by decide

theorem hundred_digits : 100 < 10 ^ 17 := by decide

def marketEnvironment : Environment where
  settings := Auth.oneMinute
  jwt := marketJwt
  hashRefreshToken token := "#" ++ token
  verifyPassword password hashedPassword := "*" ++ password = hashedPassword
  maxCashbackPercentage := .ofNat 20 twenty_digits

theorem marketUsers_unique : ∀ f ∈ [Users.User.id, Users.User.email],
    (({⟨"ana", "ana@mail", "*secret", .user, true⟩, ⟨"root", "root@mail", "*root", .admin, true⟩} :
      Multiset Users.User).map f).Nodup := by decide

theorem marketMerchants_unique : ∀ f ∈ [Merchants.Merchant.id],
    (({⟨"shop", "Shop", .ofNat 10 ten_digits, true⟩} :
      Multiset Merchants.Merchant).map f).Nodup := by
  simp

theorem marketOffers_unique : ∀ f ∈ [Offers.Offer.id],
    (({⟨"offer", "shop", .ofNat 10 ten_digits, none, 0, 30, .ofNat 100 hundred_digits, true⟩} :
      Multiset (Offers.Offer PyFloat)).map f).Nodup := by
  simp

def market : Database where
  users := ⟨_, marketUsers_unique⟩
  refreshTokens := Table.empty
  merchants := ⟨_, marketMerchants_unique⟩
  offers := ⟨_, marketOffers_unique⟩
  featureFlags := Table.empty
  purchases := Table.empty
  transactions := Table.empty
  wallets _ := none
  auditLogs := 0

theorem market_consistent : Consistent market where
  references :=
    { offers := by
        intro o ho
        obtain rfl := Multiset.mem_singleton.mp ho
        exact ⟨⟨_, Multiset.mem_singleton_self _, rfl⟩, by decide⟩
      refreshTokens := fun _ ht => absurd ht (Multiset.notMem_zero _)
      purchases := fun _ hp => absurd hp (Multiset.notMem_zero _)
      transactions := fun _ ht => absurd ht (Multiset.notMem_zero _)
      wallets := fun _ hw => absurd hw (by simp [market]) }
  booked := fun _ hp => absurd hp (Multiset.notMem_zero _)

def hundredEuros : PurchaseCreate :=
  oneRequest "ext" 10000 hundredEuros_pos one_le_length_ext

/-- A purchase and its verification, a registration, a login and an offer that ends. -/
def marketDay (i : Fin 5) : Request :=
  match i with
  | 0 => .user 0 (some "accessana") (.ingestPurchase "p" "t" 1 1 hundredEuros)
  | 1 => .job (.attempt (fun _ _ => ⟨.confirmed, none⟩) 2 "p" 1)
  | 2 => .register (fun password => "*" ++ password) "bo" "bo@mail" "Secret-1"
  | 3 => .login (Auth.drawnAt 1) "ana@mail" "secret"
  | 4 => .admin 0 (some "accessroot") (.setOfferStatus "offer" false)

/-- All but the verification interleave. -/
def marketDayEnd : Sys (Fin 5) Database Sql AppException Unit :=
  (Sys.play (fun _ _ => true) ([0, 2, 3, 4, 0, 2, 3, 4, 0, 2, 3, 4, 0, 2, 4, 0, 4, 0, 0, 0, 0, 0] ++
    List.replicate 10 1) (startRequests marketEnvironment marketDay market)).get (by decide +kernel)

theorem marketDayEnd_reach : Sys.Reach (fun _ _ _ => True)
    (startRequests marketEnvironment marketDay market) marketDayEnd :=
  Sys.reach_of_play (C := fun _ _ _ => True) (fun _ _ _ => trivial) Sys.Reach.refl
    (Option.some_get _).symm

section

variable {ι : Type} [DecidableEq ι] [Fintype ι] {env : Environment} {requests : ι → Request}
  {d₀ : Database} {C : Sys ι Database Sql AppException Unit → ι → Action AppException → Prop}
  {s : Sys ι Database Sql AppException Unit}

/-- However the sessions of any requests interleave and fail, the rows of the modules keep
fitting together. -/
theorem integrity (hd : Consistent d₀)
    (hr : Sys.Reach C (startRequests env requests d₀) s) : Consistent s.db := by
  obtain ⟨h, -, -, hconsistent, -⟩ := history hd hr
  exact hconsistent

theorem integrity_marketDayEnd :
    marketDayEnd.db.purchases.rows.card = 1 ∧ Consistent marketDayEnd.db :=
  ⟨by decide +kernel, integrity market_consistent marketDayEnd_reach⟩

/-- No row that is committed at any time is ever lost again, and of none does a column
change that nothing updates. -/
theorem durability (hd : Consistent d₀) (hr : Sys.Reach C (startRequests env requests d₀) s)
    {s' : Sys ι Database Sql AppException Unit} (hr' : Sys.Reach C s s') :
    Later s.db s'.db := by
  obtain ⟨h, -, -, -, hlater⟩ := Sys.history_between uniqueKeys (rules env requests) hd
    (fun i => (requests i).abides d₀) hr hr'
  exact hlater

def marketNoon : Sys (Fin 5) Database Sql AppException Unit :=
  (Sys.play (fun _ _ => true) [0, 2, 3, 4, 0, 2, 3, 4, 0, 2, 3, 4, 0, 2, 4, 0, 4, 0, 0, 0, 0, 0]
    (startRequests marketEnvironment marketDay market)).get (by decide +kernel)

def marketNight : Sys (Fin 5) Database Sql AppException Unit :=
  (Sys.play (fun _ _ => true) (List.replicate 10 1) marketNoon).get (by decide +kernel)

theorem durability_marketNight : marketNoon.db.purchases.rows.card = 1 ∧
    Later marketNoon.db marketNight.db :=
  ⟨by decide +kernel, durability market_consistent (C := fun _ _ _ => True)
    (Sys.reach_of_play (fun _ _ _ => trivial) Sys.Reach.refl (Option.some_get _).symm)
    (Sys.reach_of_play (fun _ _ _ => trivial) Sys.Reach.refl (Option.some_get _).symm)⟩

theorem exists_request (hd : Consistent d₀)
    (hr : Sys.Reach C (startRequests env requests d₀) s) {P : Database → Prop}
    (hstart : ¬ P d₀) (hend : P s.db) :
    ∃ i log d, (requests i).May env log d ∧ Runs log d ∧ Later d₀ d ∧ Later d (replay log d) ∧
      Later (replay log d) s.db ∧ ¬ P d ∧ P (replay log d) := by
  obtain ⟨h, hkept, hdb, -, -⟩ := history hd hr
  rw [hdb] at hend
  obtain ⟨i, log, d, hmay, hruns, hconsistent, hbefore, hafter, hnot, hholds⟩ :=
    (rules env requests).origin hd hkept hstart hend
  have hlater := ((rules env requests).keeps hconsistent hruns hmay).2
  exact ⟨i, log, d, hmay, hruns, hbefore, hlater, hdb ▸ hafter, hnot, hholds⟩

/-- Every user has been there from the start or has registered, and so is no admin. -/
theorem user_provenance (hd : Consistent d₀)
    (hr : Sys.Reach C (startRequests env requests d₀) s) {u : Users.User}
    (hu : u ∈ s.db.users.rows) :
    u ∈ d₀.users.rows ∨
    ∃ i hashPassword password, requests i = .register hashPassword u.id u.email password ∧
      Users.enforcePasswordComplexity password = .ok () ∧
      u = Users.newUser u.id u.email (hashPassword password) := by
  by_cases hold : u ∈ d₀.users.rows
  · exact Or.inl hold
  · obtain ⟨i, log, d, hmay, hruns, -, -, -, hnot, hnew⟩ :=
      exists_request (P := fun d => u ∈ d.users.rows) hd hr hold hu
    exact Or.inr ⟨i, hmay.user hruns hnot hnew⟩

def bo : Users.User := ⟨"bo", "bo@mail", "*Secret-1", .user, true⟩

theorem user_provenance_bo : bo ∉ market.users.rows ∧ (bo ∈ market.users.rows ∨
    ∃ i hashPassword password, marketDay i = .register hashPassword "bo" "bo@mail" password ∧
      Users.enforcePasswordComplexity password = .ok () ∧
      bo = Users.newUser "bo" "bo@mail" (hashPassword password)) :=
  ⟨by decide +kernel, user_provenance market_consistent marketDayEnd_reach (by decide +kernel)⟩

theorem row_provenance (hd : Consistent d₀) (hr : Sys.Reach C (startRequests env requests d₀) s)
    {R : Type} (rows : Database → Multiset R) {withStatus : Bool → R → R} {active : R → Bool}
    (Switches Creates : Request → Database → R → Prop)
    (hsame : ∀ {r r'}, withStatus true r' = withStatus true r → r' = withStatus (active r') r)
    (hstatus : ∀ b r, withStatus true (withStatus b r) = withStatus true r)
    (horigin : ∀ {r log d x}, Request.May env r log d → Runs log d → x ∉ rows d →
      x ∈ rows (replay log d) →
        (Switches r d x ∧ ∃ y ∈ rows d, x = withStatus (active x) y) ∨ Creates r d x)
    (hswitches : ∀ {r d x}, Later d₀ d → Switches r d x → Switches r d₀ x)
    (hcreates : ∀ {r d x}, Later d₀ d → Creates r d x → Creates r d₀ x) {x : R}
    (hx : x ∈ rows s.db) :
    ∃ y, (y ∈ rows d₀ ∨ ∃ i, Creates (requests i) d₀ y) ∧
      (x = y ∨ x = withStatus (active x) y ∧ ∃ i, Switches (requests i) d₀ x) := by
  by_cases hold : x ∈ rows d₀
  · exact ⟨x, Or.inl hold, Or.inl rfl⟩
  · obtain ⟨i, log, d, hmay, hruns, hbefore, -, -, hnot, hnew⟩ :=
      exists_request (P := fun d => x ∈ rows d) hd hr hold hx
    obtain ⟨hswitch, -⟩ | hcreate := horigin hmay hruns hnot hnew
    · -- the row that the status was set of is as old as its other columns
      have hset : ∃ i, Switches (requests i) d₀ x := ⟨i, hswitches hbefore hswitch⟩
      by_cases hfirst : ∃ y ∈ rows d₀, withStatus true x = withStatus true y
      · obtain ⟨y, hy, hxy⟩ := hfirst
        exact ⟨y, Or.inl hy, Or.inr ⟨hsame hxy, hset⟩⟩
      · obtain ⟨j, log', d', hmay', hruns', hbefore', -, -, hnot', y, hy, hxy⟩ :=
          exists_request (P := fun d => ∃ y ∈ rows d, withStatus true x = withStatus true y) hd hr
            hfirst ⟨x, hx, rfl⟩
        have hfresh : y ∉ rows d' := fun hmem => hnot' ⟨y, hmem, hxy⟩
        obtain ⟨-, z, hz, hyz⟩ | hcreate := horigin hmay' hruns' hfresh hy
        · refine absurd ⟨z, hz, hxy.trans ?_⟩ hnot'
          rw [hyz, hstatus]
        · exact ⟨y, Or.inr ⟨j, hcreates hbefore' hcreate⟩, Or.inr ⟨hsame hxy, hset⟩⟩
    · exact ⟨x, Or.inr ⟨i, hcreates hbefore hcreate⟩, Or.inl rfl⟩

/-- Merchants, offers and flags are as they have been at the start, or as admins of the
start have made them. -/
theorem catalog_provenance (hd : Consistent d₀)
    (hr : Sys.Reach C (startRequests env requests d₀) s) :
    (∀ m ∈ s.db.merchants.rows, ∃ m',
      (m' ∈ d₀.merchants.rows ∨ ∃ i, (requests i).CreatesMerchant env d₀ m') ∧
      (m = m' ∨ m = m'.withStatus m.active ∧
        ∃ i, (requests i).OfAdmin env d₀ (.setMerchantStatus m.id m.active))) ∧
    (∀ o ∈ s.db.offers.rows, ∃ o',
      (o' ∈ d₀.offers.rows ∨ ∃ i, (requests i).CreatesOffer env d₀ o') ∧
      (o = o' ∨ o = o'.withStatus o.active ∧
        ∃ i, (requests i).OfAdmin env d₀ (.setOfferStatus o.id o.active))) ∧
    ∀ k enabled, FeatureFlags.Async.settings s.db.featureFlags k = some enabled →
      FeatureFlags.Async.settings d₀.featureFlags k = some enabled ∨
      ∃ i, (requests i).SetsFlag env d₀ k enabled := by
  refine ⟨fun m hm => ?_, fun o ho => ?_, fun k enabled hk => ?_⟩
  · exact row_provenance hd hr (fun d => d.merchants.rows)
      (fun r d m => r.OfAdmin env d (.setMerchantStatus m.id m.active))
      (fun r d m => r.CreatesMerchant env d m) Merchants.Merchant.eq_withStatus
      (fun _ _ => rfl) (fun hmay hruns => hmay.merchant hruns)
      (fun hlater h => h.earlier hlater) (fun hlater h => h.earlier hlater) hm
  · exact row_provenance hd hr (fun d => d.offers.rows)
      (fun r d o => r.OfAdmin env d (.setOfferStatus o.id o.active))
      (fun r d o => r.CreatesOffer env d o) Offers.Offer.eq_withStatus
      (fun _ _ => rfl) (fun hmay hruns => hmay.offer hruns)
      (fun hlater h => h.earlier hlater) (fun hlater h => h.earlier hlater) ho
  · by_cases hold : FeatureFlags.Async.settings d₀.featureFlags k = some enabled
    · exact Or.inl hold
    · obtain ⟨i, log, d, hmay, hruns, hbefore, -, -, hnot, hnew⟩ := exists_request
        (P := fun d => FeatureFlags.Async.settings d.featureFlags k = some enabled) hd hr hold hk
      exact Or.inr ⟨i, (hmay.flag hruns hnot hnew).earlier hbefore⟩

def endedOffer : Offers.Offer PyFloat :=
  ⟨"offer", "shop", .ofNat 10 ten_digits, none, 0, 30, .ofNat 100 hundred_digits, false⟩

theorem catalog_provenance_endedOffer : endedOffer ∉ market.offers.rows ∧ ∃ o',
    (o' ∈ market.offers.rows ∨ ∃ i, (marketDay i).CreatesOffer marketEnvironment market o') ∧
    (endedOffer = o' ∨ endedOffer = o'.withStatus false ∧
      ∃ i, (marketDay i).OfAdmin marketEnvironment market (.setOfferStatus "offer" false)) :=
  ⟨by decide +kernel,
    (catalog_provenance market_consistent marketDayEnd_reach).2.1 endedOffer (by decide +kernel)⟩

/-- Every session has been there from the start, or a request has shown the password of
its user, or a token of his that is stored and used up. -/
theorem session_provenance (hd : Consistent d₀)
    (hr : Sys.Reach C (startRequests env requests d₀) s) {t : Auth.RefreshToken}
    (ht : t ∈ s.db.refreshTokens.rows) :
    (∃ t₀ ∈ d₀.refreshTokens.rows, t₀.Becomes t) ∨
    ∃ i, (requests i).ShowsPassword env s.db t.userId ∨
      (requests i).ShowsToken env s.db t.userId := by
  by_cases hold : ∃ t₀ ∈ d₀.refreshTokens.rows, t₀.Becomes t
  · exact Or.inl hold
  · obtain ⟨i, log, d, hmay, hruns, -, hlater, hafter, hnot, hnew⟩ := exists_request
      (P := fun d => ∃ t₀ ∈ d.refreshTokens.rows, t₀.Becomes t) hd hr hold
      ⟨t, ht, Auth.RefreshToken.Becomes.refl t⟩
    refine Or.inr ⟨i, (hmay.token hruns hnot hnew).imp (fun hshown => ?_) (·.later hafter)⟩
    exact (hshown.later hlater).later hafter

def anaSession : Auth.RefreshToken :=
  ⟨"1", "ana", "#refreshana", 1000000, 61000000, none, 0⟩

theorem session_provenance_anaSession :
    (∃ t₀ ∈ market.refreshTokens.rows, t₀.Becomes anaSession) ∨
    ∃ i, (marketDay i).ShowsPassword marketEnvironment marketDayEnd.db "ana" ∨
      (marketDay i).ShowsToken marketEnvironment marketDayEnd.db "ana" :=
  session_provenance market_consistent marketDayEnd_reach (t := anaSession) (by decide +kernel)

/-- Every purchase has been there from the start, or its user has ingested it. -/
theorem purchase_provenance (hd : Consistent d₀)
    (hr : Sys.Reach C (startRequests env requests d₀) s) {p : Purchase}
    (hp : p ∈ s.db.purchases.rows) :
    ∃ q, q.Becomes p ∧ (q ∈ d₀.purchases.rows ∨
      ∃ i transactionId today now data offerId cashbackAmount,
        (requests i).OfUser env s.db p.userId
          (.ingestPurchase p.id transactionId today now data) ∧
        q = newPurchase p.id now data offerId cashbackAmount) := by
  -- a row with the id of the purchase is the purchase
  have hbecomes : ∀ q q' : Purchase, q.Becomes q' → q' ∈ s.db.purchases.rows → q.id = p.id →
      q.Becomes p := by
    rintro q q' ⟨status, c, rfl, hc⟩ hmem hid
    have he := s.db.purchases.eq_of_key (f := Purchase.id) (by simp) hmem hp hid
    exact ⟨status, c, he.symm, hc⟩
  by_cases hold : Owner p.id d₀.ledger p.userId
  · obtain ⟨q, hq, hid, -⟩ := hold
    obtain ⟨q', hq', hbecome⟩ := (durability hd Sys.Reach.refl hr).purchases q hq
    exact ⟨q, hbecomes q q' hbecome hq' hid, Or.inl hq⟩
  · obtain ⟨i, log, d, hmay, hruns, -, hlater, hafter, hnot, hnew⟩ := exists_request
      (P := fun d => Owner p.id d.ledger p.userId) hd hr hold ⟨p, hp, rfl, rfl⟩
    obtain ⟨transactionId, today, now, data, offerId, cashbackAmount, huser, hmem⟩ :=
      hmay.purchase hruns hnot hnew
    obtain ⟨q', hq', hbecome⟩ := hafter.purchases _ hmem
    exact ⟨_, hbecomes _ q' hbecome hq' rfl, Or.inr ⟨i, transactionId, today, now, data, offerId,
      cashbackAmount, (huser.later hlater).later hafter, rfl⟩⟩

def confirmedPurchase : Purchase :=
  { newPurchase "p" 1 hundredEuros "offer" 1000 with status := .confirmed }

theorem purchase_provenance_confirmedPurchase :
    ∃ q, q.Becomes confirmedPurchase ∧ (q ∈ market.purchases.rows ∨
      ∃ i transactionId today now data offerId cashbackAmount,
        (marketDay i).OfUser marketEnvironment marketDayEnd.db "ana"
          (.ingestPurchase "p" transactionId today now data) ∧
        q = newPurchase "p" now data offerId cashbackAmount) :=
  purchase_provenance market_consistent marketDayEnd_reach (p := confirmedPurchase)
    (by decide +kernel)

/-- A purchase is pending, or as it has been at the start, or an admin of the start or
the job has settled it so. -/
theorem settlement_provenance (hd : Consistent d₀)
    (hr : Sys.Reach C (startRequests env requests d₀) s) {p : Purchase}
    (hp : p ∈ s.db.purchases.rows) :
    p ∈ d₀.purchases.rows ∨ p.status = .pending ∨
    ∃ i update q, (requests i).Settles env d₀ update p.id ∧ p = update.on q := by
  by_cases hold : p ∈ d₀.purchases.rows
  · exact Or.inl hold
  · obtain ⟨i, log, d, hmay, hruns, hbefore, -, -, hnot, hnew⟩ :=
      exists_request (P := fun d => p ∈ d.purchases.rows) hd hr hold hp
    refine Or.inr ((hmay.settled hruns hnot hnew).imp_right ?_)
    rintro ⟨update, q, hsettles, hq⟩
    exact ⟨i, update, q, hsettles.earlier hbefore, hq⟩

theorem settlement_provenance_confirmedPurchase :
    confirmedPurchase ∈ market.purchases.rows ∨ confirmedPurchase.status = .pending ∨
    ∃ i update q, (marketDay i).Settles marketEnvironment market update "p" ∧
      confirmedPurchase = update.on q :=
  settlement_provenance market_consistent marketDayEnd_reach (p := confirmedPurchase)
    (by decide +kernel)

/-- Nobody's money moves but by his own purchases: one that he has ingested, or one that an
admin of the start or the job has settled. -/
theorem wallet_provenance (hd : Consistent d₀)
    (hr : Sys.Reach C (startRequests env requests d₀) s) {userId : String}
    (hne : s.db.wallets userId ≠ d₀.wallets userId) :
    ∃ p ∈ s.db.purchases.rows, p.userId = userId ∧ ∃ i,
      ((∀ q ∈ d₀.purchases.rows, q.id ≠ p.id) ∧
        ∃ transactionId today now data offerId cashbackAmount,
          (requests i).OfUser env s.db userId
            (.ingestPurchase p.id transactionId today now data) ∧
          (newPurchase p.id now data offerId cashbackAmount).Becomes p) ∨
      p.status ≠ .pending ∧ ∃ update, (requests i).Settles env d₀ update p.id := by
  obtain ⟨i, log, d, hmay, hruns, hbefore, hlater, hafter, hnot, hnew⟩ := exists_request
    (P := fun d => d.wallets userId ≠ d₀.wallets userId) hd hr (not_not_intro rfl) hne
  rw [not_not] at hnot
  rw [← hnot] at hnew
  obtain ⟨purchaseId, transactionId, today, now, data, offerId, cashbackAmount, huser, hown,
    hfresh, hmem⟩ | ⟨update, purchaseId, hsettles, howner, hsettled⟩ := hmay.wallet hruns hnew
  · obtain ⟨p, hp, hbecomes⟩ := hafter.purchases _ hmem
    have hcolumns := hbecomes
    obtain ⟨status, c, rfl, -⟩ := hcolumns
    refine ⟨_, hp, hown, i, Or.inl ⟨fun q hq hid => ?_, transactionId, today, now, data, offerId,
      cashbackAmount, (huser.later hlater).later hafter, hbecomes⟩⟩
    obtain ⟨q', hq', s', c', rfl, -⟩ := hbefore.purchases q hq
    exact hfresh _ hq' hid
  · obtain ⟨p, hp, hid, hstatus⟩ := hsettled.later hafter.ledger
    obtain ⟨p', hp', hid', huser⟩ := howner.later (hlater.trans hafter).ledger
    obtain rfl := s.db.purchases.eq_of_key (f := Purchase.id) (by simp) hp' hp (hid'.trans hid.symm)
    exact ⟨p', hp, huser, i, Or.inr ⟨hstatus, update, hid ▸ hsettles.earlier hbefore⟩⟩

theorem wallet_provenance_ana :
    ∃ p ∈ marketDayEnd.db.purchases.rows, p.userId = "ana" ∧ ∃ i,
      ((∀ q ∈ market.purchases.rows, q.id ≠ p.id) ∧
        ∃ transactionId today now data offerId cashbackAmount,
          (marketDay i).OfUser marketEnvironment marketDayEnd.db "ana"
            (.ingestPurchase p.id transactionId today now data) ∧
          (newPurchase p.id now data offerId cashbackAmount).Becomes p) ∨
      p.status ≠ .pending ∧ ∃ update, (marketDay i).Settles marketEnvironment market update p.id :=
  wallet_provenance market_consistent marketDayEnd_reach (by decide +kernel)

/-- Every record of the audit trail is of the start, or of a purchase that has been settled,
and says what the request about it was and whose. -/
theorem audit_provenance (hd : Consistent d₀)
    (hr : Sys.Reach C (startRequests env requests d₀) s) {row : AuditLog}
    (hrow : row ∈ s.db.auditLogs) :
    row ∈ d₀.auditLogs ∨ row.resourceType = "purchase" ∧ row.outcome = .success ∧
      ∃ p ∈ s.db.purchases.rows, p.id = row.resourceId ∧ p.status ≠ .pending ∧
        ∃ i update, (requests i).Records env d₀ (update, row.actorType, row.actorId) p.id ∧
          update.action = some row.action := by
  by_cases hold : row ∈ d₀.auditLogs
  · exact Or.inl hold
  · obtain ⟨i, log, d, hmay, hruns, hbefore, hlater, hafter, hnot, hnew⟩ :=
      exists_request (P := fun d => row ∈ d.auditLogs) hd hr hold hrow
    obtain ⟨htype, houtcome, hsettled, update, hrecords, haction⟩ :=
      hmay.auditLog hruns hnot hnew
    obtain ⟨p, hp, hid, hstatus⟩ := hsettled.later (hlater.trans hafter).ledger
    exact Or.inr ⟨htype, houtcome, p, hp, hid, hstatus, i, update,
      hid ▸ hrecords.earlier hbefore, haction⟩

theorem audit_provenance_marketDayEnd :
    marketDayEnd.db.auditLogs.card = 1 ∧ ∀ row ∈ marketDayEnd.db.auditLogs,
      row ∈ market.auditLogs ∨ row.resourceType = "purchase" ∧ row.outcome = .success ∧
        ∃ p ∈ marketDayEnd.db.purchases.rows, p.id = row.resourceId ∧ p.status ≠ .pending ∧
          ∃ i update, (marketDay i).Records marketEnvironment market
              (update, row.actorType, row.actorId) p.id ∧
            update.action = some row.action :=
  ⟨by decide +kernel, fun _ hrow =>
    audit_provenance market_consistent marketDayEnd_reach hrow⟩

end

end ClickNBack.Application
