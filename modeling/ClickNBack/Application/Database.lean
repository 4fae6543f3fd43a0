import ClickNBack.Auth.Promises
import ClickNBack.FeatureFlags.Concurrent
import ClickNBack.Merchants.Services
import ClickNBack.Offers.Status
import ClickNBack.Purchases.Promises
import ClickNBack.ReadCommitted.Embedding
import ClickNBack.Users.Registration

namespace ClickNBack.Application

open Numeric Relational ReadCommitted Prog

structure Database where
  users : Users.UserTable
  refreshTokens : Auth.RefreshTokenTable
  merchants : Merchants.MerchantTable
  offers : Offers.OfferTable PyFloat
  featureFlags : FeatureFlags.FeatureFlagTable
  purchases : Purchases.PurchaseTable
  transactions : Purchases.TransactionTable
  wallets : String → Option Purchases.Wallet
  auditLogs : Multiset Purchases.AuditLog

/-- `UserRoleEnum.value` -/
def roleValue : Auth.UserRole → String
  | .user => "user"
  | .admin => "admin"

/-- The user as `auth.clients.UsersClient` hands it on. -/
def authUser (u : Users.User) : Auth.User := ⟨u.id, u.email, u.hashedPassword, roleValue u.role⟩

/-- The user as `get_current_user` reads it. -/
def account (u : Users.User) : Auth.Account := ⟨u.id, u.role, u.active⟩

/-- The user as `purchases.clients.UsersClient` hands it on. -/
def purchaseUser (u : Users.User) : Purchases.User := ⟨u.id, u.active⟩

def shopMerchant (m : Merchants.Merchant) : Offers.Merchant := ⟨m.id, m.name, m.active⟩

/-- `Decimal(str(x))` of a finite float. -/
def decimal : PyFloat → Option Decimal
  | .finite p => some p.value
  | _ => none

def decimalAmount : Option PyFloat → Option (Option Decimal)
  | none => some none
  | some x => (decimal x).map some

/-- An offer with its floats as decimals, as purchases computes with it. -/
def payable (o : Offers.Offer PyFloat) : Option (Offers.Offer Decimal) :=
  match decimal o.percentage, decimalAmount o.fixedAmount, decimal o.monthlyCapPerUser with
  | some percentage, some fixedAmount, some monthlyCapPerUser =>
    if 0 ≤ percentage.coeff ∧ ∀ f ∈ fixedAmount, 0 ≤ f.coeff then
      some ⟨o.id, o.merchantId, percentage, fixedAmount, o.startDate, o.endDate,
        monthlyCapPerUser, o.active⟩
    else none
  | _, _, _ => none

section

variable {o : Offers.Offer PyFloat} {o' : Offers.Offer Decimal}

theorem payable_eq_some : payable o = some o' ↔ decimal o.percentage = some o'.percentage ∧
    decimalAmount o.fixedAmount = some o'.fixedAmount ∧
    decimal o.monthlyCapPerUser = some o'.monthlyCapPerUser ∧ Purchases.Accepted o' ∧
    o'.id = o.id ∧ o'.merchantId = o.merchantId ∧ o'.startDate = o.startDate ∧
    o'.endDate = o.endDate ∧ o'.active = o.active := by
  rw [payable]
  obtain ⟨id, merchantId, percentage, fixedAmount, startDate, endDate, cap, active⟩ := o'
  cases decimal o.percentage with
  | none => simp
  | some p =>
    cases decimalAmount o.fixedAmount with
    | none => simp
    | some f =>
      cases decimal o.monthlyCapPerUser with
      | none => simp
      | some c =>
        simp only [Option.some.injEq, Purchases.Accepted]
        split_ifs with h
        · grind
        · grind

theorem payable_id (h : payable o = some o') : o'.id = o.id := (payable_eq_some.mp h).2.2.2.2.1

theorem payable_accepted (h : payable o = some o') : Purchases.Accepted o' :=
  (payable_eq_some.mp h).2.2.2.1

theorem payable_withStatus (active : Bool) (h : payable o = some o') :
    payable (o.withStatus active) = some (o'.withStatus active) := by
  obtain ⟨hpercentage, hfixed, hcap, haccepted, hid, hmerchant, hstart, hend, -⟩ :=
    payable_eq_some.mp h
  exact payable_eq_some.mpr
    ⟨hpercentage, hfixed, hcap, haccepted, hid, hmerchant, hstart, hend, rfl⟩

end

theorem authUser_keys : ∀ g ∈ [Auth.User.id, Auth.User.email],
    ∃ g' ∈ [Users.User.id, Users.User.email], ∀ u v, some (authUser u) = some v → g v = g' u := by
  simp [authUser]

theorem account_keys : ∀ g ∈ [Auth.Account.id], ∃ g' ∈ [Users.User.id, Users.User.email],
    ∀ u v, some (account u) = some v → g v = g' u := by
  simp [account]

theorem purchaseUser_keys : ∀ g ∈ [Purchases.User.id],
    ∃ g' ∈ [Users.User.id, Users.User.email],
      ∀ u v, some (purchaseUser u) = some v → g v = g' u := by
  simp [purchaseUser]

theorem shopMerchant_keys : ∀ g ∈ [Offers.Merchant.id], ∃ g' ∈ [Merchants.Merchant.id],
    ∀ m n, some (shopMerchant m) = some n → g n = g' m := by
  simp [shopMerchant]

theorem payable_keys : ∀ g ∈ [Offers.Offer.id], ∃ g' ∈ [Offers.Offer.id],
    ∀ o o', payable o = some o' → g o' = g' o := by
  simp only [List.mem_singleton, forall_eq, exists_eq_left]
  exact fun _ _ => payable_id

namespace Database

variable (d : Database)

def accounts : Auth.AccountTable := d.users.view (fun u => some (account u)) account_keys

def auth : Auth.AuthDatabase :=
  ⟨d.users.view (fun u => some (authUser u)) authUser_keys, d.refreshTokens⟩

def shop : Offers.OfferDatabase :=
  ⟨d.merchants.view (fun m => some (shopMerchant m)) shopMerchant_keys, d.offers⟩

theorem accepted_payable :
    ∀ o ∈ (d.offers.view payable payable_keys : Offers.OfferTable Decimal).rows,
      Purchases.Accepted o := by
  intro o ho
  obtain ⟨r, -, hr⟩ := (d.offers.mem_view payable_keys).mp ho
  exact payable_accepted hr

/-- The rows that purchases reads of the other modules. -/
def catalog : Purchases.Catalog where
  users := d.users.view (fun u => some (purchaseUser u)) purchaseUser_keys
  merchants := d.merchants.view (fun m => some (shopMerchant m)) shopMerchant_keys
  offers := d.offers.view payable payable_keys
  accepted := d.accepted_payable

/-- The database of the purchases, cashback, wallets and audit modules. -/
def ledger : Purchases.Database :=
  ⟨d.catalog, d.purchases, d.transactions, d.wallets, d.auditLogs⟩

def withLedger (l : Purchases.Database) : Database :=
  { d with
    purchases := l.purchases
    transactions := l.transactions
    wallets := l.wallets
    auditLogs := l.auditLogs }

end Database

inductive Sql
  | users (s : Users.Sql)
  | auth (s : Auth.Sql)
  | merchants (s : Merchants.Sql)
  | offers (s : Offers.Sql)
  | offerStatus (s : Offers.StatusUpdate)
  | featureFlags (s : FeatureFlags.Async.Sql)
  | purchases (s : Purchases.Sql)

inductive AppException
  | access (e : Auth.AccessException)
  | users (e : Users.UserException)
  | auth (e : Auth.AuthException)
  | merchants (e : Merchants.MerchantException)
  | offers (e : Offers.OfferException)
  | featureFlags (e : FeatureFlags.Async.CallException)
  | purchases (e : Purchases.PurchaseException)

inductive LockKey
  | users (k : Users.LockKey)
  | auth (k : Auth.LockKey)
  | merchants (id : String)
  | offers (id : String)
  | featureFlags (k : FeatureFlags.Async.LockKey)
  | purchases (k : Purchases.LockKey)
deriving DecidableEq

def lifted {D' E' : Type} (raises : E' → AppException) (put : D' → Database) :
    Except E' D' → Except AppException Database
  | .ok d' => .ok (put d')
  | .error e => .error (raises e)

theorem lifted_ok {D' E' : Type} {raises : E' → AppException} {put : D' → Database}
    {x : Except E' D'} {d : Database} :
    lifted raises put x = .ok d ↔ ∃ d', x = .ok d' ∧ put d' = d := by
  cases x <;> simp [lifted]

namespace Sql

def exec : Sql → Database → Except AppException Database
  | .users s, d => lifted .users (fun t => { d with users := t }) (Statement.exec s d.users)
  | .auth s, d =>
    lifted .auth (fun a => { d with refreshTokens := a.refreshTokens }) (Statement.exec s d.auth)
  | .merchants s, d =>
    lifted .merchants (fun t => { d with merchants := t }) (Statement.exec s d.merchants)
  | .offers s, d =>
    lifted .offers (fun o => { d with offers := o.offers }) (Statement.exec s d.shop)
  | .offerStatus s, d =>
    lifted .offers (fun o => { d with offers := o.offers }) (Statement.exec s d.shop)
  | .featureFlags s, d =>
    lifted .featureFlags (fun t => { d with featureFlags := t }) (Statement.exec s d.featureFlags)
  | .purchases s, d => lifted .purchases d.withLedger (Statement.exec s d.ledger)

def locks : Sql → Database → List LockKey
  | .users s, d => (Statement.locks s d.users).map .users
  | .auth s, d => (Statement.locks s d.auth).map .auth
  | .merchants s, d => (Statement.locks s d.merchants).map .merchants
  | .offers s, d => (Statement.locks s d.shop).map .offers
  | .offerStatus s, d => (Statement.locks s d.shop).map .offers
  | .featureFlags s, d => (Statement.locks s d.featureFlags).map .featureFlags
  | .purchases s, d => (Statement.locks s d.ledger).map .purchases

instance : Statement Sql Database AppException LockKey := ⟨exec, locks⟩

def keys : Sql → List LockKey
  | .users s => s.keys.map .users
  | .auth s => s.keys.map .auth
  | .merchants s => s.keys.map .merchants
  | .offers s => s.keys.map .offers
  | .offerStatus _ => []
  | .featureFlags s => s.keys.map .featureFlags
  | .purchases s => s.newKeys.map .purchases

def needs : Sql → List LockKey
  | .featureFlags s => s.needs.map .featureFlags
  | _ => []

end Sql

def Taken (d : Database) : LockKey → Prop
  | .users k => Users.Taken d.users k
  | .auth k => Auth.Taken d.auth k
  | .merchants id => id ∈ d.merchants.rows.map Merchants.Merchant.id
  | .offers id => Offers.Taken d.shop id
  | .featureFlags k => FeatureFlags.Async.Taken d.featureFlags k
  | .purchases k => Purchases.Taken d.ledger k

section

variable {d d' : Database}

theorem exec_users {s : Users.Sql} : Statement.exec (Sql.users s) d = .ok d' ↔
    ∃ t, Statement.exec s d.users = .ok t ∧ { d with users := t } = d' := lifted_ok

theorem exec_auth {s : Auth.Sql} : Statement.exec (Sql.auth s) d = .ok d' ↔
    ∃ a, Statement.exec s d.auth = .ok a ∧ { d with refreshTokens := a.refreshTokens } = d' :=
  lifted_ok

theorem exec_merchants {s : Merchants.Sql} : Statement.exec (Sql.merchants s) d = .ok d' ↔
    ∃ t, Statement.exec s d.merchants = .ok t ∧ { d with merchants := t } = d' := lifted_ok

theorem exec_offers {s : Offers.Sql} : Statement.exec (Sql.offers s) d = .ok d' ↔
    ∃ o, Statement.exec s d.shop = .ok o ∧ { d with offers := o.offers } = d' := lifted_ok

theorem exec_offerStatus {s : Offers.StatusUpdate} :
    Statement.exec (Sql.offerStatus s) d = .ok d' ↔
      { d with
        offers := d.offers.modify Offers.Offer.id s.offerId (Offers.Offer.withStatus s.active)
          (Offers.Offer.withStatus_keeps s.active) } = d' :=
  ⟨Except.ok.inj, congrArg Except.ok⟩

theorem exec_featureFlags {s : FeatureFlags.Async.Sql} :
    Statement.exec (Sql.featureFlags s) d = .ok d' ↔
      ∃ t, Statement.exec s d.featureFlags = .ok t ∧ { d with featureFlags := t } = d' := lifted_ok

theorem exec_purchases {s : Purchases.Sql} : Statement.exec (Sql.purchases s) d = .ok d' ↔
    ∃ l, Statement.exec s d.ledger = .ok l ∧ d.withLedger l = d' := lifted_ok

theorem auth_of_exec {s : Auth.Sql} {a : Auth.AuthDatabase}
    (h : Statement.exec s d.auth = .ok a) :
    ({ d with refreshTokens := a.refreshTokens } : Database).auth = a := by
  cases s with
  | markAsUsed id usedAt rotationCount =>
    cases h
    rfl
  | insertToken row =>
    obtain ⟨t, -, rfl⟩ := Auth.exec_insertToken.mp h
    rfl

theorem shop_of_exec {s : Offers.Sql} {o : Offers.OfferDatabase}
    (h : Statement.exec s d.shop = .ok o) :
    ({ d with offers := o.offers } : Database).shop = o := by
  cases s with
  | insertOffer row =>
    obtain ⟨t, -, rfl⟩ := Offers.exec_insertOffer.mp h
    rfl

theorem ledger_of_exec {s : Purchases.Sql} {l : Purchases.Database}
    (h : Statement.exec s d.ledger = .ok l) : (d.withLedger l).ledger = l := by
  rw [← apply_of_ok h, Purchases.apply_eq]
  rfl

end

def usersPart :
    Embedding Users.UserTable Users.Sql Users.UserException Database Sql AppException where
  view := Database.users
  stmt := .users
  raises := .users
  catches
    | .users e => some e
    | _ => none

def authPart :
    Embedding Auth.AuthDatabase Auth.Sql Auth.AuthException Database Sql AppException where
  view := Database.auth
  stmt := .auth
  raises := .auth
  catches
    | .auth e => some e
    | _ => none

def merchantsPart : Embedding Merchants.MerchantTable Merchants.Sql Merchants.MerchantException
    Database Sql AppException where
  view := Database.merchants
  stmt := .merchants
  raises := .merchants
  catches
    | .merchants e => some e
    | _ => none

def offersPart :
    Embedding Offers.OfferDatabase Offers.Sql Offers.OfferException Database Sql AppException where
  view := Database.shop
  stmt := .offers
  raises := .offers
  catches
    | .offers e => some e
    | _ => none

def offerStatusPart : Embedding Offers.OfferDatabase Offers.StatusUpdate Offers.OfferException
    Database Sql AppException where
  view := Database.shop
  stmt := .offerStatus
  raises := .offers
  catches
    | .offers e => some e
    | _ => none

def featureFlagsPart : Embedding FeatureFlags.FeatureFlagTable FeatureFlags.Async.Sql
    FeatureFlags.Async.CallException Database Sql AppException where
  view := Database.featureFlags
  stmt := .featureFlags
  raises := .featureFlags
  catches
    | .featureFlags e => some e
    | _ => none

def purchasesPart : Embedding Purchases.Database Purchases.Sql Purchases.PurchaseException
    Database Sql AppException where
  view := Database.ledger
  stmt := .purchases
  raises := .purchases
  catches
    | .purchases e => some e
    | _ => none

theorem usersPart_faithful : usersPart.Faithful := by
  intro s d d' h
  obtain ⟨t, ht, rfl⟩ := exec_users.mp h
  exact ht

theorem authPart_faithful : authPart.Faithful := by
  intro s d d' h
  obtain ⟨a, ha, rfl⟩ := exec_auth.mp h
  exact ha.trans (congrArg Except.ok (auth_of_exec ha).symm)

theorem merchantsPart_faithful : merchantsPart.Faithful := by
  intro s d d' h
  obtain ⟨t, ht, rfl⟩ := exec_merchants.mp h
  exact ht

theorem offersPart_faithful : offersPart.Faithful := by
  intro s d d' h
  obtain ⟨o, ho, rfl⟩ := exec_offers.mp h
  exact ho.trans (congrArg Except.ok (shop_of_exec ho).symm)

theorem offerStatusPart_faithful : offerStatusPart.Faithful := by
  intro s d d' h
  obtain rfl := exec_offerStatus.mp h
  rfl

theorem featureFlagsPart_faithful : featureFlagsPart.Faithful := by
  intro s d d' h
  obtain ⟨t, ht, rfl⟩ := exec_featureFlags.mp h
  exact ht

theorem purchasesPart_faithful : purchasesPart.Faithful := by
  intro s d d' h
  obtain ⟨l, hl, rfl⟩ := exec_purchases.mp h
  exact hl.trans (congrArg Except.ok (ledger_of_exec hl).symm)

theorem ok_iff_of_part {D' S' E' K' : Type} [Statement S' D' E' K'] {keys needs : S' → List K'}
    {taken : D' → K' → Prop} (h : UniqueKeys keys needs taken) {s : S'} {x : D'} {d : Database}
    {k : K' → LockKey} {st : Sql} {put : D' → Database}
    (hexec : ∀ d', Statement.exec st d = .ok d' ↔ ∃ y, Statement.exec s x = .ok y ∧ put y = d')
    (hkeys : st.keys = (keys s).map k) (hneeds : st.needs = (needs s).map k)
    (htaken : ∀ k', Taken d (k k') ↔ taken x k') :
    (∃ d', Statement.exec st d = .ok d') ↔
      (∀ k ∈ st.keys, ¬ Taken d k) ∧ ∀ k ∈ st.needs, Taken d k := by
  rw [hkeys, hneeds]
  simp only [hexec, List.forall_mem_map, htaken, ← h.ok_iff s x]
  constructor
  · rintro ⟨-, y, hy, -⟩
    exact ⟨y, hy⟩
  · rintro ⟨y, hy⟩
    exact ⟨_, y, hy, rfl⟩

theorem taken_of_part {S' K' : Type} {keys : S' → List K'} {s : S'} {d d' : Database}
    {k : K' → LockKey} (hk : Function.Injective k) {st : Sql} (hkeys : st.keys = (keys s).map k)
    (hown : ∀ k', Taken d' (k k') ↔ Taken d (k k') ∨ k' ∈ keys s)
    (hother : ∀ l, (∀ k', l ≠ k k') → (Taken d' l ↔ Taken d l)) (l : LockKey) :
    Taken d' l ↔ Taken d l ∨ l ∈ st.keys := by
  rw [hkeys]
  by_cases hl : ∃ k', l = k k'
  · obtain ⟨k', rfl⟩ := hl
    rw [hown, List.mem_map_of_injective hk]
  · have hnot : l ∉ (keys s).map k := by
      rintro hmem
      obtain ⟨k', -, rfl⟩ := List.mem_map.mp hmem
      exact hl ⟨k', rfl⟩
    rw [hother l fun k' he => hl ⟨k', he⟩, or_iff_left hnot]

theorem uniqueKeys : UniqueKeys Sql.keys Sql.needs Taken where
  locks s d := by
    cases s with
    | users s => exact List.map_subset _ (Users.uniqueKeys.locks s _)
    | auth s => exact List.map_subset _ (Auth.uniqueKeys.locks s _)
    | merchants s => exact List.map_subset _ (Merchants.uniqueKeys.locks s _)
    | offers s => exact List.map_subset _ (Offers.uniqueKeys.locks s _)
    | offerStatus s => exact List.nil_subset _
    | featureFlags s => exact List.map_subset _ (FeatureFlags.Async.uniqueKeys.locks s _)
    | purchases s => exact List.map_subset _ (Purchases.uniqueKeys.locks s _)
  ok_iff s d := by
    cases s with
    | users s =>
      exact ok_iff_of_part Users.uniqueKeys (fun _ => exec_users) rfl rfl fun _ => Iff.rfl
    | auth s => exact ok_iff_of_part Auth.uniqueKeys (fun _ => exec_auth) rfl rfl fun _ => Iff.rfl
    | merchants s =>
      exact ok_iff_of_part Merchants.uniqueKeys (fun _ => exec_merchants) rfl rfl fun _ => Iff.rfl
    | offers s =>
      exact ok_iff_of_part Offers.uniqueKeys (fun _ => exec_offers) rfl rfl fun _ => Iff.rfl
    | offerStatus s => exact iff_of_true ⟨_, rfl⟩ ⟨by simp [Sql.keys], by simp [Sql.needs]⟩
    | featureFlags s =>
      exact ok_iff_of_part FeatureFlags.Async.uniqueKeys (fun _ => exec_featureFlags) rfl rfl
        fun _ => Iff.rfl
    | purchases s =>
      exact ok_iff_of_part Purchases.uniqueKeys (fun _ => exec_purchases) rfl rfl fun _ => Iff.rfl
  taken_of_ok s d d' h k := by
    cases s with
    | users s =>
      obtain ⟨t, ht, rfl⟩ := exec_users.mp h
      refine taken_of_part (fun _ _ => LockKey.users.inj) rfl
        (Users.uniqueKeys.taken_of_ok s _ _ ht) (fun l hl => ?_) k
      cases l with
      | users k => exact absurd rfl (hl k)
      | auth k | purchases k => cases k <;> rfl
      | merchants | offers | featureFlags => rfl
    | auth s =>
      obtain ⟨a, ha, rfl⟩ := exec_auth.mp h
      have hown := Auth.uniqueKeys.taken_of_ok s _ _ ha
      rw [← auth_of_exec ha] at hown
      refine taken_of_part (fun _ _ => LockKey.auth.inj) rfl hown (fun l hl => ?_) k
      cases l with
      | auth k => exact absurd rfl (hl k)
      | users | merchants | offers | featureFlags | purchases => rfl
    | merchants s =>
      obtain ⟨t, ht, rfl⟩ := exec_merchants.mp h
      refine taken_of_part (fun _ _ => LockKey.merchants.inj) rfl
        (Merchants.uniqueKeys.taken_of_ok s _ _ ht) (fun l hl => ?_) k
      cases l with
      | merchants k => exact absurd rfl (hl k)
      | purchases k => cases k <;> rfl
      | users | auth | offers | featureFlags => rfl
    | offers s =>
      obtain ⟨o, ho, rfl⟩ := exec_offers.mp h
      have hown := Offers.uniqueKeys.taken_of_ok s _ _ ho
      rw [← shop_of_exec ho] at hown
      refine taken_of_part (fun _ _ => LockKey.offers.inj) rfl hown (fun l hl => ?_) k
      cases l with
      | offers k => exact absurd rfl (hl k)
      | purchases k => cases k <;> rfl
      | users | auth | merchants | featureFlags => rfl
    | offerStatus s =>
      obtain rfl := exec_offerStatus.mp h
      simp only [Sql.keys, List.not_mem_nil, or_false]
      cases k with
      | offers k =>
        simp only [Taken, Offers.Taken, Database.shop]
        rw [d.offers.map_modify (Offers.Offer.withStatus_keeps s.active) fun _ => rfl]
      | purchases k => cases k <;> rfl
      | users | auth | merchants | featureFlags => rfl
    | featureFlags s =>
      obtain ⟨t, ht, rfl⟩ := exec_featureFlags.mp h
      refine taken_of_part (fun _ _ => LockKey.featureFlags.inj) rfl
        (FeatureFlags.Async.uniqueKeys.taken_of_ok s _ _ ht) (fun l hl => ?_) k
      cases l with
      | featureFlags k => exact absurd rfl (hl k)
      | users | auth | merchants | offers | purchases => rfl
    | purchases s =>
      obtain ⟨l, hexec, rfl⟩ := exec_purchases.mp h
      have hown := Purchases.uniqueKeys.taken_of_ok s _ _ hexec
      rw [← ledger_of_exec hexec] at hown
      refine taken_of_part (fun _ _ => LockKey.purchases.inj) rfl hown (fun l hl => ?_) k
      cases l with
      | purchases k => exact absurd rfl (hl k)
      | users | auth | merchants | offers | featureFlags => rfl

end ClickNBack.Application
