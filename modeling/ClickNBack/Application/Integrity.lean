import ClickNBack.Application.Database

namespace ClickNBack.Application

open Numeric Relational ReadCommitted

/-- What becomes of the rows: none is lost, the columns that nothing updates stay as they
are, and who joins is no admin. -/
structure Later (d d' : Database) : Prop where
  users : d.users.Evolves Eq d'.users
  joined : ∀ u ∈ d'.users.rows, u ∈ d.users.rows ∨ u.role = .user
  refreshTokens : d.refreshTokens.Evolves Auth.RefreshToken.Becomes d'.refreshTokens
  merchants : d.merchants.Evolves (Same (Merchants.Merchant.withStatus true)) d'.merchants
  offers : d.offers.Evolves (Same (Offers.Offer.withStatus true)) d'.offers
  featureFlags : d.featureFlags.Evolves (Same fun f => (f.key, f.scope)) d'.featureFlags
  purchases : d.purchases.Evolves Purchases.Purchase.Becomes d'.purchases
  transactions : d.transactions.Evolves (Same (Purchases.CashbackTransaction.withStatus .pending))
    d'.transactions
  wallets : ∀ userId w, d.wallets userId = some w →
    ∃ w', d'.wallets userId = some w' ∧ w'.paidBalance = w.paidBalance
  auditLogs : d.auditLogs ≤ d'.auditLogs

theorem Later.refl (d : Database) : Later d d where
  users := Table.Evolves.refl (fun _ => rfl) _
  joined _ hu := Or.inl hu
  refreshTokens := Table.Evolves.refl Auth.RefreshToken.Becomes.refl _
  merchants := Table.Evolves.refl (Same.refl _) _
  offers := Table.Evolves.refl (Same.refl _) _
  featureFlags := Table.Evolves.refl (Same.refl _) _
  purchases := Table.Evolves.refl Purchases.Purchase.Becomes.refl _
  transactions := Table.Evolves.refl (Same.refl _) _
  wallets _ w hw := ⟨w, hw, rfl⟩
  auditLogs := le_refl _

theorem Later.trans {d d' d'' : Database} (h : Later d d') (h' : Later d' d'') : Later d d'' where
  users := h.users.trans (fun _ _ _ hr hr' => hr.trans hr') h'.users
  joined u hu := (h'.joined u hu).elim (h.joined u) Or.inr
  refreshTokens := h.refreshTokens.trans (fun _ _ _ hr hr' => hr.trans hr') h'.refreshTokens
  merchants := h.merchants.trans Same.trans h'.merchants
  offers := h.offers.trans Same.trans h'.offers
  featureFlags := h.featureFlags.trans Same.trans h'.featureFlags
  purchases := h.purchases.trans (fun _ _ _ hr hr' => hr.trans hr') h'.purchases
  transactions := h.transactions.trans Same.trans h'.transactions
  wallets userId w hw := by
    obtain ⟨w', hw', hpaid⟩ := h.wallets userId w hw
    obtain ⟨w'', hw'', hpaid'⟩ := h'.wallets userId w' hw'
    exact ⟨w'', hw'', hpaid'.trans hpaid⟩
  auditLogs := h.auditLogs.trans h'.auditLogs

section

variable {d d' : Database} (h : Later d d')

include h

theorem Later.auth : Auth.Later d.auth d'.auth where
  users := by
    refine Table.Evolves.view authUser_keys ?_ h.users
    rintro u u' v rfl hv
    exact ⟨v, hv, rfl⟩
  refreshTokens := h.refreshTokens

theorem Later.shop : Offers.Later d.shop d'.shop := by
  refine Table.Evolves.view shopMerchant_keys ?_ h.merchants
  rintro m m' n hm ⟨⟩
  have hid := congrArg Merchants.Merchant.id hm
  exact ⟨_, rfl, hid⟩

theorem Later.ledger : Purchases.Later d.ledger d'.ledger where
  users := by
    refine Table.Evolves.view purchaseUser_keys ?_ h.users
    rintro u u' v rfl hv
    exact ⟨v, hv, rfl⟩
  merchants := h.shop
  offers := by
    refine Table.Evolves.view payable_keys ?_ h.offers
    intro o o' p hsame hp
    rw [Offers.Offer.eq_withStatus hsame]
    exact ⟨_, payable_withStatus _ hp, rfl⟩
  purchases := h.purchases

end

def UserExists (d : Database) (userId : String) : Prop := ∃ u ∈ d.users.rows, u.id = userId

def MerchantExists (d : Database) (merchantId : String) : Prop :=
  ∃ m ∈ d.merchants.rows, m.id = merchantId

def OfferGrounded (d : Database) (o : Offers.Offer PyFloat) : Prop :=
  MerchantExists d o.merchantId ∧ (payable o).isSome

/-- What an offer yields for an amount that is stored as the cents `amount`. -/
def Yields (o : Offers.Offer PyFloat) (amount cashbackAmount : Int) : Prop :=
  ∃ p data, payable o = some p ∧ Purchases.PurchaseCreate.amountCents data = amount ∧
    Purchases.calculate p.id p.percentage p.fixedAmount data.amount = .ok ⟨p.id, cashbackAmount⟩

structure PurchaseGrounded (d : Database) (p : Purchases.Purchase) : Prop where
  user : UserExists d p.userId
  merchant : MerchantExists d p.merchantId
  offer : ∃ o ∈ d.offers.rows, p.offerId = some o.id ∧ o.merchantId = p.merchantId ∧
    (p.cashbackAmount = 0 ∨ Yields o p.amount p.cashbackAmount)

def TransactionGrounded (d : Database) (t : Purchases.CashbackTransaction) : Prop :=
  ∃ p ∈ d.purchases.rows, p.id = t.purchaseId ∧ p.userId = t.userId ∧
    (p.cashbackAmount = t.amount ∨ p.cashbackAmount = 0)

structure References (d : Database) : Prop where
  offers : ∀ o ∈ d.offers.rows, OfferGrounded d o
  refreshTokens : ∀ t ∈ d.refreshTokens.rows, UserExists d t.userId
  purchases : ∀ p ∈ d.purchases.rows, PurchaseGrounded d p
  transactions : ∀ t ∈ d.transactions.rows, TransactionGrounded d t
  wallets : ∀ userId, (d.wallets userId).isSome → UserExists d userId

/-- Every purchase is booked as a transaction, and its user has a wallet. -/
def Booked (d : Database) : Prop :=
  ∀ p ∈ d.purchases.rows,
    (∃ t ∈ d.transactions.rows, t.purchaseId = p.id) ∧ (d.wallets p.userId).isSome

section

variable {d d' : Database} (h : Later d d')

include h

theorem Later.userExists {userId : String} (hu : UserExists d userId) : UserExists d' userId := by
  obtain ⟨u, hu, hid⟩ := hu
  obtain ⟨u', hu', rfl⟩ := h.users u hu
  exact ⟨_, hu', hid⟩

theorem Later.merchantExists {merchantId : String} (hm : MerchantExists d merchantId) :
    MerchantExists d' merchantId := by
  obtain ⟨m, hm, rfl⟩ := hm
  obtain ⟨m', hm', hsame⟩ := h.merchants m hm
  have hid := congrArg Merchants.Merchant.id hsame
  exact ⟨m', hm', hid⟩

theorem Later.offerGrounded {o : Offers.Offer PyFloat} (ho : OfferGrounded d o) :
    OfferGrounded d' o := ⟨h.merchantExists ho.1, ho.2⟩

omit h in
theorem yields_withStatus {o : Offers.Offer PyFloat} {amount cashbackAmount : Int}
    (ho : Yields o amount cashbackAmount) (active : Bool) :
    Yields (o.withStatus active) amount cashbackAmount := by
  obtain ⟨p, data, hp, hamount, hcashback⟩ := ho
  exact ⟨_, data, payable_withStatus active hp, hamount, hcashback⟩

theorem Later.purchaseGrounded {p : Purchases.Purchase} (hp : PurchaseGrounded d p) :
    PurchaseGrounded d' p where
  user := h.userExists hp.user
  merchant := h.merchantExists hp.merchant
  offer := by
    obtain ⟨o, ho, hid, hmerchant, hyields⟩ := hp.offer
    obtain ⟨o', ho', hsame⟩ := h.offers o ho
    obtain hsame := Offers.Offer.eq_withStatus hsame
    refine ⟨o', ho', ?_, ?_, hyields.imp_right fun hy => ?_⟩ <;> rw [hsame]
    · exact hid
    · exact hmerchant
    · exact yields_withStatus hy _

theorem Later.transactionGrounded {t : Purchases.CashbackTransaction}
    (ht : TransactionGrounded d t) : TransactionGrounded d' t := by
  obtain ⟨p, hp, hid, huser, hamount⟩ := ht
  obtain ⟨p', hp', s, c, rfl, hc, -⟩ := h.purchases p hp
  refine ⟨_, hp', hid, huser, ?_⟩
  obtain rfl | rfl := hc
  · exact hamount
  · exact Or.inr rfl

end

/-- What a statement needs: that its new row refers to rows that exist, and that no
purchase gets pending again. -/
def Admissible : Sql → Database → Prop
  | .users (.insertUser row), _ => row.role = .user
  | .auth (.insertToken row), d => UserExists d row.userId
  | .offers (.insertOffer row), d => OfferGrounded d row
  | .purchases (.insertPurchase row), d => PurchaseGrounded d row
  | .purchases (.updatePurchase _ u), _ => u ≠ .status .pending
  | .purchases (.insertTransaction row), d => TransactionGrounded d row
  | .purchases (.upsertWallet userId _), d => UserExists d userId
  | _, _ => True

theorem exec_later {s : Sql} {d d' : Database} (h : Statement.exec s d = .ok d')
    (hs : Admissible s d) : Later d d' := by
  cases s with
  | users s =>
    obtain ⟨t, ht, rfl⟩ := exec_users.mp h
    cases s with
    | insertUser row =>
      obtain ⟨hfree, rfl⟩ := (Users.exec_ok_iff _ _ _).mp ht
      refine { Later.refl d with users := Table.evolves_put (fun _ => rfl) _ _, joined := ?_ }
      intro u hu
      rw [Table.put_rows_of_free _ hfree, Multiset.mem_cons] at hu
      exact hu.elim (fun he => Or.inr (he ▸ hs)) Or.inl
  | auth s =>
    obtain ⟨a, ha, rfl⟩ := exec_auth.mp h
    refine { Later.refl d with refreshTokens := ?_ }
    cases s with
    | markAsUsed id usedAt rotationCount =>
      cases ha
      exact Table.evolves_modify Auth.RefreshToken.Becomes.refl _
        (Auth.RefreshToken.used_keeps usedAt rotationCount)
        (Auth.RefreshToken.used_becomes usedAt rotationCount)
    | insertToken row =>
      obtain ⟨t, ht, rfl⟩ := Auth.exec_insertToken.mp ha
      exact Table.evolves_insert Auth.RefreshToken.Becomes.refl ht
  | merchants s =>
    obtain ⟨t, ht, rfl⟩ := exec_merchants.mp h
    refine { Later.refl d with merchants := ?_ }
    cases s with
    | insertMerchant row =>
      exact Table.evolves_insert (Same.refl _) (Merchants.exec_insertMerchant.mp ht)
    | updateMerchant id active =>
      cases ht
      exact Table.evolves_modify (Same.refl _) _ (Merchants.Merchant.withStatus_keeps active)
        fun _ => rfl
  | offers s =>
    obtain ⟨o, ho, rfl⟩ := exec_offers.mp h
    refine { Later.refl d with offers := ?_ }
    cases s with
    | insertOffer row =>
      obtain ⟨t, ht, rfl⟩ := Offers.exec_insertOffer.mp ho
      exact Table.evolves_insert (Same.refl _) ht
  | offerStatus s =>
    obtain rfl := exec_offerStatus.mp h
    refine { Later.refl d with offers := ?_ }
    exact Table.evolves_modify (Same.refl _) _ (Offers.Offer.withStatus_keeps s.active)
      fun _ => rfl
  | featureFlags s =>
    obtain ⟨t, ht, rfl⟩ := exec_featureFlags.mp h
    refine { Later.refl d with featureFlags := ?_ }
    cases s with
    | insertFlag row =>
      exact Table.evolves_insert (Same.refl _) (FeatureFlags.Async.exec_insertFlag.mp ht)
    | updateFlag key scope enabled description =>
      obtain ⟨f, -, rfl⟩ := FeatureFlags.Async.exec_updateFlag.mp ht
      exact Table.evolves_modify (Same.refl _) _
        (FeatureFlags.FeatureFlag.assign_keeps enabled description) fun _ => rfl
  | purchases s =>
    obtain ⟨l, hl, rfl⟩ := exec_purchases.mp h
    rw [← apply_of_ok hl, Purchases.apply_eq]
    exact { Later.refl d with
      purchases := Purchases.Sql.onPurchases_evolves (by rintro id rfl; exact hs rfl) d.purchases
      transactions := s.onTransactions_evolves d.transactions
      wallets := fun _ _ hw => s.onWallets_keeps hw
      auditLogs := s.le_onAuditLogs d.auditLogs }

inductive Part
  | users
  | auth
  | merchants
  | offers
  | featureFlags
  | purchases
deriving DecidableEq

def Sql.part : Sql → Part
  | .users _ => .users
  | .auth _ => .auth
  | .merchants _ => .merchants
  | .offers _ | .offerStatus _ => .offers
  | .featureFlags _ => .featureFlags
  | .purchases _ => .purchases

def Database.tables (d : Database) : (part : Part) → match part with
    | .users => Users.UserTable
    | .auth => Auth.RefreshTokenTable
    | .merchants => Merchants.MerchantTable
    | .offers => Offers.OfferTable PyFloat
    | .featureFlags => FeatureFlags.FeatureFlagTable
    | .purchases => Purchases.PurchaseTable × Purchases.TransactionTable ×
      (String → Option Purchases.Wallet) × Multiset Purchases.AuditLog
  | .users => d.users
  | .auth => d.refreshTokens
  | .merchants => d.merchants
  | .offers => d.offers
  | .featureFlags => d.featureFlags
  | .purchases => (d.purchases, d.transactions, d.wallets, d.auditLogs)

theorem tables_apply {s : Sql} {part : Part} (h : s.part ≠ part) (d : Database) :
    (apply s d).tables part = d.tables part := by
  rw [apply]
  cases hexec : Statement.exec s d with
  | error e => rfl
  | ok d' =>
    cases s with
    | users s =>
      obtain ⟨t, -, rfl⟩ := exec_users.mp hexec
      cases part <;> first | rfl | exact absurd rfl h
    | auth s =>
      obtain ⟨a, -, rfl⟩ := exec_auth.mp hexec
      cases part <;> first | rfl | exact absurd rfl h
    | merchants s =>
      obtain ⟨t, -, rfl⟩ := exec_merchants.mp hexec
      cases part <;> first | rfl | exact absurd rfl h
    | offers s =>
      obtain ⟨o, -, rfl⟩ := exec_offers.mp hexec
      cases part <;> first | rfl | exact absurd rfl h
    | offerStatus s =>
      obtain rfl := exec_offerStatus.mp hexec
      cases part <;> first | rfl | exact absurd rfl h
    | featureFlags s =>
      obtain ⟨t, -, rfl⟩ := exec_featureFlags.mp hexec
      cases part <;> first | rfl | exact absurd rfl h
    | purchases s =>
      obtain ⟨l, -, rfl⟩ := exec_purchases.mp hexec
      cases part <;> first | rfl | exact absurd rfl h

theorem tables_replay {log : List Sql} {part : Part} (h : ∀ s ∈ log, s.part ≠ part)
    (d : Database) : (replay log d).tables part = d.tables part :=
  replay_congr (fun d => d.tables part) log d fun _ hs d => tables_apply (h _ hs) d

theorem PurchaseGrounded.on {d : Database} {p : Purchases.Purchase} (hp : PurchaseGrounded d p)
    (u : Purchases.PurchaseUpdate) : PurchaseGrounded d (u.on p) := by
  cases u with
  | status s => exact ⟨hp.user, hp.merchant, hp.offer⟩
  | reversed =>
    obtain ⟨o, ho, hid, hmerchant, -⟩ := hp.offer
    exact ⟨hp.user, hp.merchant, o, ho, hid, hmerchant, Or.inl rfl⟩

theorem References.exec {s : Sql} {d d' : Database} (h : References d)
    (hexec : Statement.exec s d = .ok d') (hs : Admissible s d) : References d' := by
  have hlater := exec_later hexec hs
  -- the references of the rows that the statement leaves alone
  have hoffers : ∀ o ∈ d.offers.rows, OfferGrounded d' o :=
    fun o ho => hlater.offerGrounded (h.offers o ho)
  have htokens : ∀ t ∈ d.refreshTokens.rows, UserExists d' t.userId :=
    fun t ht => hlater.userExists (h.refreshTokens t ht)
  have hpurchases : ∀ p ∈ d.purchases.rows, PurchaseGrounded d' p :=
    fun p hp => hlater.purchaseGrounded (h.purchases p hp)
  have htransactions : ∀ t ∈ d.transactions.rows, TransactionGrounded d' t :=
    fun t ht => hlater.transactionGrounded (h.transactions t ht)
  have hwallets : ∀ userId, (d.wallets userId).isSome → UserExists d' userId :=
    fun userId hu => hlater.userExists (h.wallets userId hu)
  cases s with
  | users s =>
    obtain ⟨t, ht, rfl⟩ := exec_users.mp hexec
    exact ⟨hoffers, htokens, hpurchases, htransactions, hwallets⟩
  | auth s =>
    obtain ⟨a, ha, rfl⟩ := exec_auth.mp hexec
    refine ⟨hoffers, ?_, hpurchases, htransactions, hwallets⟩
    cases s with
    | markAsUsed id usedAt rotationCount =>
      cases ha
      exact Table.forall_modify (Auth.RefreshToken.used_keeps usedAt rotationCount) (fun _ ht => ht)
        htokens
    | insertToken row =>
      obtain ⟨t, ht, rfl⟩ := Auth.exec_insertToken.mp ha
      exact Table.forall_insert ht (hlater.userExists hs) htokens
  | merchants s =>
    obtain ⟨t, ht, rfl⟩ := exec_merchants.mp hexec
    exact ⟨hoffers, htokens, hpurchases, htransactions, hwallets⟩
  | offers s =>
    obtain ⟨o, ho, rfl⟩ := exec_offers.mp hexec
    refine ⟨?_, htokens, hpurchases, htransactions, hwallets⟩
    cases s with
    | insertOffer row =>
      obtain ⟨t, ht, rfl⟩ := Offers.exec_insertOffer.mp ho
      exact Table.forall_insert ht (hlater.offerGrounded hs) hoffers
  | offerStatus s =>
    obtain rfl := exec_offerStatus.mp hexec
    refine ⟨?_, htokens, hpurchases, htransactions, hwallets⟩
    refine Table.forall_modify (Offers.Offer.withStatus_keeps s.active) (fun o ho => ⟨ho.1, ?_⟩)
      hoffers
    obtain ⟨p, hp⟩ := Option.isSome_iff_exists.mp ho.2
    rw [payable_withStatus s.active hp]
    rfl
  | featureFlags s =>
    obtain ⟨t, ht, rfl⟩ := exec_featureFlags.mp hexec
    exact ⟨hoffers, htokens, hpurchases, htransactions, hwallets⟩
  | purchases s =>
    obtain ⟨l, hl, rfl⟩ := exec_purchases.mp hexec
    rw [← apply_of_ok hl, Purchases.apply_eq] at *
    have hopened : ∀ userId, (s.onWallets d.wallets userId).isSome → UserExists d userId := by
      intro userId hu
      obtain hu | ⟨amount, rfl⟩ := Purchases.Sql.isSome_of_onWallets hu
      · exact h.wallets userId hu
      · exact hs
    cases s with
    | insertPurchase row =>
      exact ⟨hoffers, htokens, Table.forall_put (hlater.purchaseGrounded hs) hpurchases,
        htransactions, hopened⟩
    | updatePurchase id u =>
      exact ⟨hoffers, htokens, Table.forall_modify u.keeps (fun _ hp => hp.on u) hpurchases,
        htransactions, hopened⟩
    | insertTransaction row =>
      exact ⟨hoffers, htokens, hpurchases,
        Table.forall_put (hlater.transactionGrounded hs) htransactions, hopened⟩
    | updateTransaction purchaseId status =>
      exact ⟨hoffers, htokens, hpurchases, Table.forall_modify
        (Purchases.CashbackTransaction.withStatus_keeps status) (fun _ ht => ht) htransactions,
        hopened⟩
    | upsertWallet | updateWallet | insertAuditLog =>
      exact ⟨hoffers, htokens, hpurchases, htransactions, hopened⟩

def AllAdmissible : List Sql → Database → Prop
  | [], _ => True
  | s :: log, d => Admissible s d ∧ AllAdmissible log (apply s d)

theorem References.replay {log : List Sql} {d : Database} (h : References d) (hruns : Runs log d)
    (hlog : AllAdmissible log d) :
    References (replay log d) ∧ Later d (ReadCommitted.replay log d) := by
  induction log generalizing d with
  | nil => exact ⟨h, Later.refl d⟩
  | cons s log ih =>
    obtain ⟨d', hexec, hrest⟩ := hruns
    rw [AllAdmissible, apply_of_ok hexec] at hlog
    obtain ⟨href, hlater⟩ := ih (h.exec hexec hlog.1) hrest hlog.2
    rw [replay_cons, apply_of_ok hexec]
    exact ⟨href, (exec_later hexec hlog.1).trans hlater⟩

end ClickNBack.Application
