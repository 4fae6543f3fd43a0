import ClickNBack.Application.Consistency

namespace ClickNBack.Application

open Numeric Relational ReadCommitted Purchases

section

variable {env : Environment} {log : List Sql} {d d' : Database} {r : Request}

/-- Only the requests of a module change its tables. -/
theorem Request.May.part_of_ne {part : Part} (h : r.May env log d)
    (hne : (replay log d).tables part ≠ d.tables part) : r.part = part := by
  by_contra hpart
  exact hne (tables_replay (fun s hs => h.part s hs ▸ hpart) d)

theorem Request.May.user (h : r.May env log d) (hruns : Runs log d) {u : Users.User}
    (hold : u ∉ d.users.rows) (hnew : u ∈ (replay log d).users.rows) :
    ∃ hashPassword password, r = .register hashPassword u.id u.email password ∧
      Users.enforcePasswordComplexity password = .ok () ∧
      u = Users.newUser u.id u.email (hashPassword password) := by
  have hpart : r.part = .users := h.part_of_ne fun he =>
    hold ((congrArg (fun t : Users.UserTable => u ∈ t.rows) he).mp hnew)
  cases r with
  | register hashPassword userId email password =>
    obtain ⟨l, rfl, hcomplex, rfl⟩ := h
    obtain ⟨hinsert, hview⟩ := usersPart_faithful.runs hruns
    have hfree := (Users.runs_insertUser _ _).mp hinsert
    have hrows := congrArg Table.rows hview
    rw [replay_cons, replay_nil, Users.apply_insertUser, Table.put_rows_of_free _ hfree] at hrows
    obtain rfl | hu := Multiset.mem_cons.mp (hrows ▸ hnew)
    · exact ⟨hashPassword, password, rfl, hcomplex, rfl⟩
    · exact absurd hu hold
  | admin instant token call => cases call <;> cases hpart
  | login | refresh | user | job => cases hpart

def Request.CreatesMerchant (env : Environment) (d : Database) (m : Merchants.Merchant)
    (r : Request) : Prop :=
  ∃ data, r.OfAdmin env d (.createMerchant m.id data) ∧
    Merchants.enforceCashbackPercentageValidity env.maxCashbackPercentage
      data.defaultCashbackPercentage = .ok () ∧ m = Merchants.newMerchant m.id data

def Request.CreatesOffer (env : Environment) (d : Database) (o : Offers.Offer PyFloat)
    (r : Request) : Prop :=
  ∃ today data finite, r.OfAdmin env d (.createOffer o.id today data finite) ∧
    Offers.Async.Checked env.maxCashbackPercentage today data ∧
    o = Offers.mapToDomainOffer o.id data

def Request.SetsFlag (env : Environment) (d : Database) (k : String × FeatureFlags.Scope)
    (enabled : Bool) (r : Request) : Prop :=
  ∃ data, r.OfAdmin env d (.setFeatureFlag k.1 data) ∧
    FeatureFlags.validateScopeIdRequired data.scopeType.value
      (data.scopeId.map FeatureFlags.Uuid.str) = .ok () ∧
    (FeatureFlags.Call.mk k.1 data).scope = k.2 ∧ data.enabled = enabled

theorem Request.May.merchant (h : r.May env log d) (hruns : Runs log d) {m : Merchants.Merchant}
    (hold : m ∉ d.merchants.rows) (hnew : m ∈ (replay log d).merchants.rows) :
    (r.OfAdmin env d (.setMerchantStatus m.id m.active) ∧
      ∃ m' ∈ d.merchants.rows, m = m'.withStatus m.active) ∨ r.CreatesMerchant env d m := by
  have hpart : r.part = .merchants := h.part_of_ne fun he =>
    hold ((congrArg (fun t : Merchants.MerchantTable => m ∈ t.rows) he).mp hnew)
  cases r with
  | admin instant token call =>
    obtain ⟨u, hcaller, hrole, hmay⟩ := h
    cases call with
    | createMerchant merchantId data =>
      obtain ⟨l, rfl, hvalid, rfl⟩ := hmay
      obtain ⟨⟨t, ht, -⟩, hview⟩ := merchantsPart_faithful.runs hruns
      have hrows := congrArg Table.rows hview
      rw [replay_cons, replay_nil, apply_of_ok ht,
        (Table.insert_eq_some _ (Merchants.exec_insertMerchant.mp ht)).2] at hrows
      obtain rfl | hm := Multiset.mem_cons.mp (hrows ▸ hnew)
      · exact Or.inr ⟨data, ⟨instant, token, u, rfl, hcaller, hrole⟩, hvalid, rfl⟩
      · exact absurd hm hold
    | setMerchantStatus merchantId active =>
      obtain ⟨l, rfl, hl⟩ := hmay
      have hview := congrArg Table.rows (merchantsPart_faithful.runs hruns).2
      obtain hm | ⟨rfl, rfl, hmerchant⟩ := Merchants.merchant_replay hl d.merchants m (hview ▸ hnew)
      · exact absurd hm hold
      · exact Or.inl ⟨⟨instant, token, u, rfl, hcaller, hrole⟩, hmerchant⟩
    | createOffer | setOfferStatus | setFeatureFlag | confirmPurchase | reversePurchase =>
      cases hpart
  | register | login | refresh | user | job => cases hpart

theorem Request.May.offer (h : r.May env log d) (hruns : Runs log d) {o : Offers.Offer PyFloat}
    (hold : o ∉ d.offers.rows) (hnew : o ∈ (replay log d).offers.rows) :
    (r.OfAdmin env d (.setOfferStatus o.id o.active) ∧
      ∃ o' ∈ d.offers.rows, o = o'.withStatus o.active) ∨ r.CreatesOffer env d o := by
  have hpart : r.part = .offers := h.part_of_ne fun he =>
    hold ((congrArg (fun t : Offers.OfferTable PyFloat => o ∈ t.rows) he).mp hnew)
  cases r with
  | admin instant token call =>
    obtain ⟨u, hcaller, hrole, hmay⟩ := h
    cases call with
    | createOffer offerId today data finite =>
      obtain ⟨l, rfl, -, hvalid, rfl⟩ := hmay
      obtain ⟨⟨d', hexec, -⟩, hview⟩ := offersPart_faithful.runs hruns
      obtain ⟨t, ht, rfl⟩ := Offers.exec_insertOffer.mp hexec
      have hrows := congrArg (fun d => d.offers.rows) hview
      rw [replay_cons, replay_nil, apply_of_ok hexec] at hrows
      have hcons := hrows.trans (Table.insert_eq_some _ ht).2
      obtain rfl | ho := Multiset.mem_cons.mp (hcons ▸ hnew)
      · exact Or.inr ⟨today, data, finite, ⟨instant, token, u, rfl, hcaller, hrole⟩, hvalid, rfl⟩
      · exact absurd ho hold
    | setOfferStatus offerId active =>
      obtain ⟨l, rfl, hl⟩ := hmay
      have hview := congrArg (fun d => d.offers.rows) (offerStatusPart_faithful.runs hruns).2
      obtain ho | ⟨rfl, rfl, hoffer⟩ := Offers.Async.offer_replay hl d.shop o (hview ▸ hnew)
      · exact absurd ho hold
      · exact Or.inl ⟨⟨instant, token, u, rfl, hcaller, hrole⟩, hoffer⟩
    | createMerchant | setMerchantStatus | setFeatureFlag | confirmPurchase | reversePurchase =>
      cases hpart
  | register | login | refresh | user | job => cases hpart

theorem Request.May.flag (h : r.May env log d) (hruns : Runs log d)
    {k : String × FeatureFlags.Scope} {enabled : Bool}
    (hold : FeatureFlags.Async.settings d.featureFlags k ≠ some enabled)
    (hnew : FeatureFlags.Async.settings (replay log d).featureFlags k = some enabled) :
    r.SetsFlag env d k enabled := by
  have hpart : r.part = .featureFlags := h.part_of_ne fun he =>
    hold ((congrArg (FeatureFlags.Async.settings · k) he).symm.trans hnew)
  cases r with
  | admin instant token call =>
    obtain ⟨u, hcaller, hrole, hmay⟩ := h
    cases call with
    | setFeatureFlag key data =>
      obtain ⟨l, rfl, hvalid, hl⟩ := hmay
      obtain ⟨hwrites, hview⟩ := featureFlagsPart_faithful.runs hruns
      have hsettings := congrArg FeatureFlags.Async.settings hview
      obtain hsame | hset := obs_replay_of_setsTo hl hwrites
      · exact absurd ((congrFun (hsettings.trans hsame) k).symm.trans hnew) hold
      · have hk := (congrFun (hsettings.trans hset) k).symm.trans hnew
        by_cases hkey : k = (key, (FeatureFlags.Call.mk key data).scope)
        · subst hkey
          rw [Function.update_self, Option.some.injEq] at hk
          exact ⟨data, ⟨instant, token, u, rfl, hcaller, hrole⟩, hvalid, rfl, hk⟩
        · rw [Function.update_of_ne hkey] at hk
          exact absurd hk hold
    | createMerchant | setMerchantStatus | createOffer | setOfferStatus | confirmPurchase
    | reversePurchase => cases hpart
  | register | login | refresh | user | job => cases hpart

theorem Request.CreatesMerchant.earlier {m : Merchants.Merchant}
    (h : r.CreatesMerchant env d' m) (hlater : Later d d') : r.CreatesMerchant env d m := by
  obtain ⟨data, hadmin, hvalid, hm⟩ := h
  exact ⟨data, hadmin.earlier hlater, hvalid, hm⟩

theorem Request.CreatesOffer.earlier {o : Offers.Offer PyFloat} (h : r.CreatesOffer env d' o)
    (hlater : Later d d') : r.CreatesOffer env d o := by
  obtain ⟨today, data, finite, hadmin, hvalid, ho⟩ := h
  exact ⟨today, data, finite, hadmin.earlier hlater, hvalid, ho⟩

theorem Request.SetsFlag.earlier {k : String × FeatureFlags.Scope} {enabled : Bool}
    (h : r.SetsFlag env d' k enabled) (hlater : Later d d') : r.SetsFlag env d k enabled := by
  obtain ⟨data, hadmin, hvalid, hset⟩ := h
  exact ⟨data, hadmin.earlier hlater, hvalid, hset⟩

def Request.ShowsPassword (env : Environment) (d : Database) (userId : String) (r : Request) :
    Prop :=
  ∃ readings email password, r = .login readings email password ∧
    ∃ u ∈ d.users.rows, u.id = userId ∧ u.email = email ∧
      env.verifyPassword password u.hashedPassword = true

/-- The request has shown a refresh token of the user, which is stored and used up. -/
def Request.ShowsToken (env : Environment) (d : Database) (userId : String) (r : Request) : Prop :=
  ∃ readings refreshToken, r = .refresh readings refreshToken ∧
    (Auth.jwtProvider env.settings env.jwt readings).verifyRefreshToken refreshToken = .ok userId ∧
    ∃ t ∈ d.refreshTokens.rows, t.tokenHash = env.hashRefreshToken refreshToken ∧ t.isUsed

theorem Request.ShowsPassword.later {userId : String} (h : r.ShowsPassword env d userId)
    (hlater : Later d d') : r.ShowsPassword env d' userId := by
  obtain ⟨readings, email, password, hr, u, hu, hshown⟩ := h
  obtain ⟨u', hu', rfl⟩ := hlater.users u hu
  exact ⟨readings, email, password, hr, u, hu', hshown⟩

theorem Request.ShowsToken.later {userId : String} (h : r.ShowsToken env d userId)
    (hlater : Later d d') : r.ShowsToken env d' userId := by
  obtain ⟨readings, refreshToken, hr, hverified, t, ht, hhash, hused⟩ := h
  obtain ⟨t', ht', a, n, rfl, hkept⟩ := hlater.refreshTokens t ht
  exact ⟨readings, refreshToken, hr, hverified, _, ht', hhash, hkept hused⟩

theorem Request.May.token (h : r.May env log d) (hruns : Runs log d) {t : Auth.RefreshToken}
    (hold : ¬ ∃ t₀ ∈ d.refreshTokens.rows, t₀.Becomes t)
    (hnew : ∃ t₀ ∈ (replay log d).refreshTokens.rows, t₀.Becomes t) :
    r.ShowsPassword env d t.userId ∨ r.ShowsToken env (replay log d) t.userId := by
  have hpart : r.part = .auth := h.part_of_ne fun he => hold
    ((congrArg (fun x : Auth.RefreshTokenTable => ∃ t₀ ∈ x.rows, t₀.Becomes t) he).mp hnew)
  obtain ⟨t₁, ht₁, hbecomes⟩ := hnew
  have huser : t.userId = t₁.userId := by
    obtain ⟨a, n, rfl, -⟩ := hbecomes
    rfl
  cases r with
  | login readings email password =>
    obtain ⟨l, rfl, u, hu, hemail, hpassword, row, ⟨token, -, rfl⟩, rfl⟩ := h
    obtain ⟨hinsert, hview⟩ := authPart_faithful.runs hruns
    have hrows := congrArg (fun d => d.refreshTokens.rows) hview
    have hcons := hrows.trans (Auth.insertToken_rows hinsert)
    obtain rfl | hmem := Multiset.mem_cons.mp (hcons ▸ ht₁)
    · obtain ⟨v, hv, ⟨⟩⟩ := (d.users.mem_view authUser_keys).mp hu
      exact Or.inl ⟨readings, email, password, rfl, v, hv, huser.symm, hemail, hpassword⟩
    · exact absurd ⟨t₁, hmem, hbecomes⟩ hold
  | refresh readings refreshToken =>
    obtain ⟨l, rfl, u, hu, hverified, t', ht', hhash, row, n, ⟨token, -, rfl⟩, rfl⟩ := h
    obtain ⟨hrotates, hview⟩ := authPart_faithful.runs hruns
    have hrows := congrArg (fun d => d.refreshTokens.rows) hview
    have hcons := hrows.trans (Auth.rotation_rows hrotates)
    have hkeeps := Auth.RefreshToken.used_keeps readings.now n
    obtain rfl | hmem := Multiset.mem_cons.mp (hcons ▸ ht₁)
    · refine Or.inr ⟨readings, refreshToken, rfl, huser ▸ hverified, t'.used readings.now n,
        hcons ▸ Multiset.mem_cons_of_mem ?_, hhash, rfl⟩
      exact (Table.mem_modify hkeeps).mpr ⟨t', ht', if_pos rfl⟩
    · obtain hmem | ⟨t₀, ht₀, -, rfl⟩ := Table.mem_or_of_mem_modify hkeeps hmem
      · exact absurd ⟨t₁, hmem, hbecomes⟩ hold
      · have hused := Auth.RefreshToken.used_becomes readings.now n t₀
        exact absurd ⟨t₀, ht₀, hused.trans hbecomes⟩ hold
  | admin instant token call => cases call <;> cases hpart
  | register | user | job => cases hpart

theorem Request.May.purchase (h : r.May env log d) (hruns : Runs log d)
    {purchaseId userId : String} (hold : ¬ Owner purchaseId d.ledger userId)
    (hnew : Owner purchaseId (replay log d).ledger userId) :
    ∃ transactionId today now data offerId cashbackAmount,
      r.OfUser env d userId (.ingestPurchase purchaseId transactionId today now data) ∧
      newPurchase purchaseId now data offerId cashbackAmount ∈ (replay log d).purchases.rows := by
  have htouches := h.touches <| h.part_of_ne fun he =>
    hold ((congrArg (fun t : PurchaseTable => ∃ p ∈ t.rows, p.id = purchaseId ∧ p.userId = userId)
      (congrArg Prod.fst he)).mp hnew)
  cases htouches with
  | ingestion huser hl =>
    obtain ⟨rfl, offerId, cashbackAmount, row, rfl, hpurchases, -⟩ := ingestion_rows hl hruns
    obtain ⟨p, hp, rfl, rfl⟩ := hnew
    obtain rfl | hp := Multiset.mem_cons.mp (hpurchases ▸ hp)
    · exact ⟨_, _, _, _, offerId, cashbackAmount, huser, hpurchases ▸ Multiset.mem_cons_self _ _⟩
    · exact absurd ⟨p, hp, rfl, rfl⟩ hold
  | settlement hU hsettles hrecords hl =>
    rw [(ledger_replay hruns).2] at hnew
    exact absurd (owner_replay hl.about hnew) hold
  | nothing => exact absurd hnew hold

theorem Request.May.settled (h : r.May env log d) (hruns : Runs log d) {p : Purchase}
    (hold : p ∉ d.purchases.rows) (hnew : p ∈ (replay log d).purchases.rows) :
    p.status = .pending ∨ ∃ update q, r.Settles env d update p.id ∧ p = update.on q := by
  have htouches := h.touches <| h.part_of_ne fun he =>
    hold ((congrArg (fun t : PurchaseTable => p ∈ t.rows) (congrArg Prod.fst he)).mp hnew)
  cases htouches with
  | ingestion huser hl =>
    obtain ⟨-, offerId, cashbackAmount, row, rfl, hpurchases, -⟩ := ingestion_rows hl hruns
    obtain rfl | hp := Multiset.mem_cons.mp (hpurchases ▸ hnew)
    · exact Or.inl rfl
    · exact absurd hp hold
  | @settlement U V purchaseId l hU hsettles hrecords hl =>
    have hrows := congrArg (fun l => l.purchases.rows) (ledger_replay hruns).2
    obtain hp | ⟨rfl, update, hu, q, hq⟩ := purchase_replay hl.about p (hrows ▸ hnew)
    · exact absurd hp hold
    · exact Or.inr ⟨update, q, hsettles update hu, hq⟩
  | nothing => exact absurd hnew hold

theorem Request.May.wallet (h : r.May env log d) (hruns : Runs log d) {userId : String}
    (hne : (replay log d).wallets userId ≠ d.wallets userId) :
    (∃ purchaseId transactionId today now data offerId cashbackAmount,
      r.OfUser env d userId (.ingestPurchase purchaseId transactionId today now data) ∧
      data.userId = userId ∧ (∀ q ∈ d.purchases.rows, q.id ≠ purchaseId) ∧
      newPurchase purchaseId now data offerId cashbackAmount ∈ (replay log d).purchases.rows) ∨
    ∃ update purchaseId, r.Settles env d update purchaseId ∧ Owner purchaseId d.ledger userId ∧
      Settled purchaseId (replay log d).ledger := by
  have htouches := h.touches <| h.part_of_ne fun he =>
    hne (congrFun (congrArg (fun t => t.2.2.1) he) userId)
  cases htouches with
  | @ingestion owner purchaseId transactionId today now data l huser hl =>
    obtain ⟨rfl, offerId, cashbackAmount, row, rfl, hpurchases, -, hwallets, -⟩ :=
      ingestion_rows hl hruns
    by_cases hown : userId = data.userId
    · have hfresh := (replay (l.map Sql.purchases) d).purchases.key_ne (f := Purchase.id) (by simp)
        hpurchases
      exact Or.inl ⟨purchaseId, transactionId, today, now, data, offerId, cashbackAmount,
        hown ▸ huser, hown.symm, hfresh, hpurchases ▸ Multiset.mem_cons_self _ _⟩
    · exact absurd ((congrFun hwallets userId).trans (Function.update_of_ne hown _ _)) hne
  | @settlement U V purchaseId l hU hsettles hrecords hl =>
    obtain ⟨update, hu⟩ := hU
    obtain ⟨-, hledger⟩ := ledger_replay hruns
    have hwallets := congrArg (fun l => l.wallets userId) hledger
    obtain hsame | ⟨howner, hsettled⟩ := hl.wallets userId
    · exact absurd (hwallets.trans hsame) hne
    · exact Or.inr ⟨update, purchaseId, hsettles update hu, howner, hledger ▸ hsettled⟩
  | nothing => exact absurd rfl hne

theorem Request.May.auditLog (h : r.May env log d) (hruns : Runs log d) {row : AuditLog}
    (hold : row ∉ d.auditLogs) (hnew : row ∈ (replay log d).auditLogs) :
    row.resourceType = "purchase" ∧ row.outcome = .success ∧ Settled row.resourceId d.ledger ∧
      ∃ update, r.Records env d (update, row.actorType, row.actorId) row.resourceId ∧
        update.action = some row.action := by
  have htouches := h.touches <| h.part_of_ne fun he =>
    hold ((congrArg (fun rows : Multiset AuditLog => row ∈ rows)
      (congrArg (fun t => t.2.2.2) he)).mp hnew)
  cases htouches with
  | ingestion huser hl =>
    obtain ⟨-, -, -, -, -, -, -, -, hauditLogs⟩ := ingestion_rows hl hruns
    exact absurd (hauditLogs ▸ hnew) hold
  | @settlement U V purchaseId l hU hsettles hrecords hl =>
    have hauditLogs : (replay (l.map Sql.purchases) d).auditLogs = (replay l d.ledger).auditLogs :=
      congrArg Purchases.Database.auditLogs (ledger_replay hruns).2
    rw [hauditLogs] at hnew
    obtain hrow | ⟨⟨htype, rfl, houtcome, update, hu, haction⟩, hsettled⟩ :=
      auditLogs_replay (d := d.ledger) hl.about row hnew
    · exact absurd hrow hold
    · exact ⟨htype, houtcome, hsettled, update, hrecords _ hu, haction⟩
  | nothing => exact absurd hnew hold

end

end ClickNBack.Application
