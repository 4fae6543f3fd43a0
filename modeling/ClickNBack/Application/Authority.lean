import ClickNBack.Application.Requests

namespace ClickNBack.Application

open Numeric Relational ReadCommitted Prog Purchases

/-- Who presents the token at the instant: an active user of the database. -/
def Caller (env : Environment) (instant : Nat) (token : Option String) (d : Database)
    (u : Users.User) : Prop :=
  u ∈ d.users.rows ∧ u.active = true ∧ ∃ t payload, token = some t ∧
    Auth.JwtOAuth2TokenProvider.verifyAccessToken instant env.jwt t = .ok payload ∧
    payload.userId = some u.id

def Lifted {D' S' E' : Type} (m : Embedding D' S' E' Database Sql AppException)
    (G : List S' → D' → Prop) (log : List Sql) (d : Database) : Prop :=
  ∃ l, log = l.map m.stmt ∧ G l (m.view d)

def AdminCall.May (env : Environment) (adminId : String) : AdminCall → List Sql → Database → Prop
  | .createMerchant merchantId data =>
    Lifted merchantsPart fun l _ =>
      Merchants.Creation env.maxCashbackPercentage merchantId data l
  | .setMerchantStatus merchantId active =>
    Lifted merchantsPart fun l _ => ∀ s ∈ l, s = .updateMerchant merchantId active
  | .createOffer offerId today data _ =>
    Lifted offersPart (Offers.Async.Creation env.maxCashbackPercentage offerId today data)
  | .setOfferStatus offerId active =>
    Lifted offerStatusPart fun l _ => ∀ s ∈ l, s = ⟨offerId, active⟩
  | .setFeatureFlag key data =>
    Lifted featureFlagsPart fun l _ => FeatureFlags.validateScopeIdRequired
        data.scopeType.value (data.scopeId.map FeatureFlags.Uuid.str) = .ok () ∧
      ∀ s ∈ l, SetsTo FeatureFlags.Async.settings (key, (FeatureFlags.Call.mk key data).scope)
        (some data.enabled) s ∨ Invisible FeatureFlags.Async.settings s
  | .confirmPurchase _ purchaseId =>
    Lifted purchasesPart (SettlesBy {.status .confirmed} ∅ purchaseId)
  | .reversePurchase _ purchaseId =>
    Lifted purchasesPart (SettlesBy {.reversed} {(.reversed, .admin, some adminId)} purchaseId)

/-- What a call of a user may commit: only an ingestion writes. -/
def UserCall.May (userId : String) : UserCall → List Sql → Database → Prop
  | .ingestPurchase purchaseId transactionId _ now data =>
    Lifted purchasesPart (Ingestion purchaseId transactionId now data userId)
  | _ => Lifted purchasesPart fun l _ => ∀ s ∈ l, False

def JobCall.updates : JobCall → Set PurchaseUpdate
  | .attempt .. => {.status .confirmed, .status .rejected}
  | .forceReject .. => {.status .rejected}

/-- What the audit trail records of the updates: the system makes them. -/
def JobCall.records : JobCall → Set SignedUpdate
  | .attempt .. => {(.status .confirmed, .system, none), (.status .rejected, .system, none)}
  | .forceReject .. => {(.status .rejected, .system, none)}

def JobCall.May (c : JobCall) : List Sql → Database → Prop :=
  Lifted purchasesPart (SettlesBy c.updates c.records c.operation.target)

def Request.May (env : Environment) : Request → List Sql → Database → Prop
  | .register hashPassword userId email password =>
    Lifted usersPart fun l _ => Users.Registration hashPassword userId email password l
  | .login readings email password =>
    Lifted authPart (Auth.Login env.hashRefreshToken
      (Auth.jwtProvider env.settings env.jwt readings) readings.now readings.newTokenId
      env.verifyPassword email password)
  | .refresh readings refreshToken =>
    Lifted authPart (Auth.Rotation env.hashRefreshToken
      (Auth.jwtProvider env.settings env.jwt readings) readings.now readings.newTokenId
      refreshToken)
  | .admin instant token call => fun log d =>
    ∃ u, Caller env instant token d u ∧ u.role = .admin ∧ call.May env u.id log d
  | .user instant token call => fun log d =>
    ∃ u, Caller env instant token d u ∧ call.May u.id log d
  | .job call => call.May

section

variable {I : Database → Prop} {env : Environment} {instant : Nat} {token : Option String}
  {d d' : Database}

theorem Caller.later {u : Users.User} (h : Caller env instant token d u) (hlater : Later d d') :
    Caller env instant token d' u := by
  obtain ⟨hu, hactive, htoken⟩ := h
  obtain ⟨u', hu', rfl⟩ := hlater.users u hu
  exact ⟨hu', hactive, htoken⟩

theorem verifyAccessToken_userId {jwt : Auth.Jwt} {t : String} {payload : Auth.TokenPayload}
    (h : Auth.JwtOAuth2TokenProvider.verifyAccessToken instant jwt t = .ok payload) :
    payload.userId = some (payload.userId.getD "") := by
  rw [Auth.JwtOAuth2TokenProvider.verifyAccessToken] at h
  split at h
  · cases h
  · rename_i claims _
    split at h
    · cases h
    · split at h
      · cases h
      · rename_i hpresent
        cases h
        cases hid : claims.userId with
        | none => exact absurd (Or.inl hid) hpresent
        | some id => rfl

theorem getCurrentUser_abides {β : Type} {G : List Sql → Database → Prop}
    {f : Auth.Account → Coroutine β}
    (h : ∀ u d', Later d d' → Caller env instant token d' u →
      (f (account u)).Abides I Later G d' []) :
    (getCurrentUser instant env.jwt token >>= f).Abides I Later G d [] := by
  cases token with
  | none => trivial
  | some t =>
    rw [getCurrentUser, bind_assoc]
    refine abides_lift_bind fun payload hpayload => ?_
    have hverified : Auth.JwtOAuth2TokenProvider.verifyAccessToken instant env.jwt t =
        .ok payload := by
      cases hv : Auth.JwtOAuth2TokenProvider.verifyAccessToken instant env.jwt t with
      | error e =>
        rw [hv] at hpayload
        cases hpayload
      | ok p =>
        rw [hv] at hpayload
        cases hpayload
        rfl
    rw [bind_assoc]
    refine abides_selectOne_bind fun d' _ hlater _ r hr => ?_
    rw [replay_nil, Table.scalarOneOrNone_filter _ (by simp), Except.ok.injEq] at hr
    cases hfind : d'.accounts.find Auth.Account.id (payload.userId.getD "") with
    | none =>
      rw [← hr, hfind]
      trivial
    | some a =>
      rw [← hr, hfind]
      obtain ⟨u, hu, ha, hid⟩ := d'.users.exists_of_find_view account_keys (by simp) hfind
      cases ha
      by_cases hactive : (account u).active = false
      · simp only [if_pos hactive]
        trivial
      · simp only [if_neg hactive]
        refine h u d' hlater ⟨hu, ?_, t, payload, rfl, hverified, ?_⟩
        · exact Bool.of_not_eq_false hactive
        · rw [verifyAccessToken_userId hverified, ← hid]
          rfl

theorem getCurrentAdminUser_abides {β : Type} {G : List Sql → Database → Prop}
    {f : Auth.Account → Coroutine β}
    (h : ∀ u d', Later d d' → Caller env instant token d' u → u.role = .admin →
      (f (account u)).Abides I Later G d' []) :
    (getCurrentAdminUser instant env.jwt token >>= f).Abides I Later G d [] := by
  rw [getCurrentAdminUser, bind_assoc]
  refine getCurrentUser_abides fun u d' hlater hcaller => abides_lift_bind fun a ha => ?_
  rw [Auth.getCurrentAdminUser] at ha
  by_cases hadmin : (account u).role = .admin
  · rw [if_neg (not_not_intro hadmin)] at ha
    cases ha
    exact h u d' hlater hcaller hadmin
  · rw [if_pos hadmin] at ha
    cases ha

section

variable {D' S' E' K' α : Type} [Statement S' D' E' K'] {m : Embedding D' S' E' Database Sql
  AppException} {G' : List S' → D' → Prop} {p : Prog D' S' E' α}

theorem lifted_abides (hm : m.Faithful) (Later' : D' → D' → Prop)
    (hlater : ∀ d d', Later d d' → Later' (m.view d) (m.view d'))
    (h : p.Abides (fun _ => True) Later' G' (m.view d) []) :
    (p.embed m discard).Abides I Later (Lifted m G') d [] :=
  Abides.embed hm (fun _ _ _ h h' => h.trans h') (fun _ _ => trivial) hlater h
    fun log _ _ _ _ hG => ⟨log, rfl, hG⟩

theorem emits_abides {P : S' → Prop} (hm : m.Faithful) (h : p.Emits P) :
    (p.embed m discard).Abides I Later (Lifted m fun l _ => ∀ s ∈ l, P s) d [] :=
  lifted_abides hm (fun _ _ => True) (fun _ _ _ => trivial)
    (h.abides (by simp) (fun _ _ _ _ _ => trivial) fun _ _ _ _ _ hlog => hlog)

end

theorem AdminCall.abides (adminId : String) (c : AdminCall) (d : Database) :
    (c.prog env adminId).Abides I Later (c.May env adminId) d [] := by
  cases c with
  | createMerchant merchantId data =>
    exact lifted_abides merchantsPart_faithful (fun _ _ => True) (fun _ _ _ => trivial)
      (Merchants.createMerchant_abides env.maxCashbackPercentage merchantId data _)
  | setMerchantStatus merchantId active =>
    exact emits_abides merchantsPart_faithful (Merchants.setMerchantStatus_emits merchantId active)
  | createOffer offerId today data finite =>
    exact lifted_abides offersPart_faithful Offers.Later (fun _ _ => Later.shop)
      (Offers.Async.createOffer_abides env.maxCashbackPercentage offerId today data _)
  | setOfferStatus offerId active =>
    exact emits_abides offerStatusPart_faithful (Offers.Async.setOfferStatus_emits offerId active)
  | setFeatureFlag key data =>
    exact lifted_abides featureFlagsPart_faithful (fun _ _ => True) (fun _ _ _ => trivial)
      (FeatureFlags.Async.setFlag_abides key data _)
  | confirmPurchase now purchaseId =>
    exact lifted_abides purchasesPart_faithful Purchases.Later (fun _ _ => Later.ledger)
      (confirmManually_settles now adminId)
  | reversePurchase now purchaseId =>
    exact lifted_abides purchasesPart_faithful Purchases.Later (fun _ _ => Later.ledger)
      (reverse_settles now adminId)

theorem UserCall.emits_nothing (userId : String) :
    (∀ purchaseId, (Purchases.getPurchaseDetails purchaseId userId).Emits fun _ => False) ∧
    (∀ listing status offset limit,
      (Purchases.listUserPurchases listing userId status offset limit).Emits fun _ => False) ∧
    ((Wallets.getWalletSummary userId).Emits fun _ => False) ∧
    ∀ listing limit offset,
      (Wallets.listWalletTransactions listing userId limit offset).Emits fun _ => False := by
  refine ⟨fun purchaseId => ?_, fun listing status offset limit => ?_, ?_,
    fun listing limit offset => ?_⟩
  · rw [Purchases.getPurchaseDetails, getById_eq]
    refine emits_query_bind fun d => ?_
    cases d.purchases.find Purchase.id purchaseId with
    | none => trivial
    | some p =>
      refine emits_lift_bind fun _ _ => ?_
      rw [getMerchantById_eq]
      exact emits_query_bind fun _ => trivial
  · have hlist : ∀ s, (PurchaseRepository.listPurchases listing s (some userId) offset limit >>=
        fun r => MerchantsClient.getMerchantsByIds (r.1.map Purchase.merchantId) >>=
        fun merchants => pure (r.1.map fun p =>
          (p, (merchants p.merchantId).elim "Unknown" (·.name)), r.2)).Emits fun _ => False :=
      fun s d d' d'' => trivial
    cases status with
    | none => exact hlist none
    | some value =>
      rw [Purchases.listUserPurchases]
      by_cases hvalue : PurchaseStatus.ofValue value = none
      · rw [if_pos hvalue]
        trivial
      · rw [if_neg hvalue]
        exact hlist _
  · rw [Wallets.getWalletSummary, WalletsClient.getByUserId]
    refine emits_query_bind fun d => ?_
    cases d.wallets userId <;> trivial
  · exact fun d d' => trivial

theorem UserCall.abides (userId : String) (c : UserCall) (d : Database) :
    (c.prog userId).Abides I Later (c.May userId) d [] := by
  cases c with
  | ingestPurchase purchaseId transactionId today now data =>
    exact lifted_abides purchasesPart_faithful Purchases.Later (fun _ _ => Later.ledger)
      (ingestPurchase_abides purchaseId transactionId today now data userId _)
  | getPurchaseDetails purchaseId =>
    exact emits_abides purchasesPart_faithful ((emits_nothing userId).1 purchaseId)
  | listUserPurchases listing status offset limit =>
    exact emits_abides purchasesPart_faithful
      ((emits_nothing userId).2.1 listing status offset limit)
  | getWalletSummary => exact emits_abides purchasesPart_faithful (emits_nothing userId).2.2.1
  | listWalletTransactions listing limit offset =>
    exact emits_abides purchasesPart_faithful ((emits_nothing userId).2.2.2 listing limit offset)

theorem JobCall.abides (c : JobCall) (d : Database) : c.prog.Abides I Later c.May d [] := by
  cases c with
  | attempt verify now purchaseId number =>
    exact lifted_abides purchasesPart_faithful Purchases.Later (fun _ _ => Later.ledger)
      (verificationAttempt_settles verify now number)
  | forceReject now purchaseId maxAttempts =>
    exact lifted_abides purchasesPart_faithful Purchases.Later (fun _ _ => Later.ledger)
      (forceReject_settles now maxAttempts)

theorem Request.abides (r : Request) (d : Database) :
    (r.prog env).Abides I Later (r.May env) d [] := by
  cases r with
  | register hashPassword userId email password =>
    exact lifted_abides usersPart_faithful (fun _ _ => True) (fun _ _ _ => trivial)
      (Users.createUser_abides hashPassword userId email password _)
  | login readings email password =>
    exact lifted_abides authPart_faithful Auth.Later (fun _ _ => Later.auth)
      (Auth.login_abides _ _ _ _ _ _ _ _)
  | refresh readings refreshToken =>
    exact lifted_abides authPart_faithful Auth.Later (fun _ _ => Later.auth)
      (Auth.refresh_abides _ _ _ _ _ _)
  | admin instant token call =>
    refine getCurrentAdminUser_abides fun u d' _ hcaller hadmin => ?_
    exact (call.abides u.id d').imp (fun _ _ _ h h' => h.trans h')
      fun log d'' hlater hmay => ⟨u, hcaller.later hlater, hadmin, hmay⟩
  | user instant token call =>
    refine getCurrentUser_abides fun u d' _ hcaller => ?_
    exact (call.abides u.id d').imp (fun _ _ _ h h' => h.trans h')
      fun log d'' hlater hmay => ⟨u, hcaller.later hlater, hmay⟩
  | job call => exact call.abides d

end

def Request.part : Request → Part
  | .register .. => .users
  | .login .. | .refresh .. => .auth
  | .admin _ _ call =>
    match call with
    | .createMerchant .. | .setMerchantStatus .. => .merchants
    | .createOffer .. | .setOfferStatus .. => .offers
    | .setFeatureFlag .. => .featureFlags
    | .confirmPurchase .. | .reversePurchase .. => .purchases
  | .user .. | .job _ => .purchases

namespace Request

variable (env : Environment) (d : Database)

def OfAdmin (call : AdminCall) (r : Request) : Prop :=
  ∃ instant token u, r = .admin instant token call ∧ Caller env instant token d u ∧ u.role = .admin

def OfUser (userId : String) (call : UserCall) (r : Request) : Prop :=
  ∃ instant token u, r = .user instant token call ∧ Caller env instant token d u ∧ u.id = userId

/-- The request may make such an update of the purchase: an admin does, or the job. -/
def Settles (update : PurchaseUpdate) (purchaseId : String) (r : Request) : Prop :=
  (update = .status .confirmed ∧ ∃ now, r.OfAdmin env d (.confirmPurchase now purchaseId)) ∨
  (update = .reversed ∧ ∃ now, r.OfAdmin env d (.reversePurchase now purchaseId)) ∨
  ∃ call, r = .job call ∧ call.operation.target = purchaseId ∧ update ∈ call.updates

/-- The request may leave a record of such an update, signed so, in the audit trail: the job
does for the system, and an admin for a reversal. -/
def Records (update : SignedUpdate) (purchaseId : String) (r : Request) : Prop :=
  (∃ now instant token u, r = .admin instant token (.reversePurchase now purchaseId) ∧
    Caller env instant token d u ∧ u.role = .admin ∧ update = (.reversed, .admin, some u.id)) ∨
  ∃ call, r = .job call ∧ call.operation.target = purchaseId ∧ update ∈ call.records

inductive Touches (r : Request) : List Sql → Prop
  | ingestion {userId purchaseId transactionId : String} {today now : Nat} {data : PurchaseCreate}
      {l : List Purchases.Sql}
      (huser : r.OfUser env d userId (.ingestPurchase purchaseId transactionId today now data))
      (hl : Ingestion purchaseId transactionId now data userId l d.ledger) :
      Touches r (l.map .purchases)
  | settlement {U : Set PurchaseUpdate} {V : Set SignedUpdate} {purchaseId : String}
      {l : List Purchases.Sql} (hU : U.Nonempty)
      (hsettles : ∀ update ∈ U, r.Settles env d update purchaseId)
      (hrecords : ∀ update ∈ V, r.Records env d update purchaseId)
      (hl : SettlesBy U V purchaseId l d.ledger) : Touches r (l.map .purchases)
  | nothing : Touches r []

end Request

section

variable {env : Environment} {d d' : Database} {log : List Sql} {r : Request}

theorem Request.OfAdmin.later {call : AdminCall} (h : r.OfAdmin env d call)
    (hlater : Later d d') : r.OfAdmin env d' call := by
  obtain ⟨instant, token, u, hr, hcaller, hrole⟩ := h
  exact ⟨instant, token, u, hr, hcaller.later hlater, hrole⟩

/-- Whoever is an admin has been one before. -/
theorem Later.admin {u : Users.User} (hlater : Later d d') (hu : u ∈ d'.users.rows)
    (hrole : u.role = .admin) : u ∈ d.users.rows := by
  obtain hold | hjoined := hlater.joined u hu
  · exact hold
  · rw [hjoined] at hrole
    cases hrole

theorem Request.OfAdmin.earlier {call : AdminCall} (h : r.OfAdmin env d' call)
    (hlater : Later d d') : r.OfAdmin env d call := by
  obtain ⟨instant, token, u, hr, ⟨hu, hactive, htoken⟩, hrole⟩ := h
  exact ⟨instant, token, u, hr, ⟨hlater.admin hu hrole, hactive, htoken⟩, hrole⟩

theorem Request.OfUser.later {userId : String} {call : UserCall} (h : r.OfUser env d userId call)
    (hlater : Later d d') : r.OfUser env d' userId call := by
  obtain ⟨instant, token, u, hr, hcaller, hid⟩ := h
  exact ⟨instant, token, u, hr, hcaller.later hlater, hid⟩

theorem Request.Settles.earlier {update : PurchaseUpdate} {purchaseId : String}
    (h : r.Settles env d' update purchaseId) (hlater : Later d d') :
    r.Settles env d update purchaseId := by
  obtain ⟨hu, now, hadmin⟩ | ⟨hu, now, hadmin⟩ | hjob := h
  · exact Or.inl ⟨hu, now, hadmin.earlier hlater⟩
  · exact Or.inr (Or.inl ⟨hu, now, hadmin.earlier hlater⟩)
  · exact Or.inr (Or.inr hjob)

theorem Request.Records.earlier {update : SignedUpdate} {purchaseId : String}
    (h : r.Records env d' update purchaseId) (hlater : Later d d') :
    r.Records env d update purchaseId := by
  obtain ⟨now, instant, token, u, hr, ⟨hu, hactive, htoken⟩, hrole, hupdate⟩ | hjob := h
  · have hold := hlater.admin hu hrole
    exact Or.inl ⟨now, instant, token, u, hr, ⟨hold, hactive, htoken⟩, hrole, hupdate⟩
  · exact Or.inr hjob

theorem Request.May.touches (h : r.May env log d) (hpart : r.part = .purchases) :
    r.Touches env d log := by
  cases r with
  | register | login | refresh => cases hpart
  | admin instant token call =>
    obtain ⟨u, hcaller, hrole, hmay⟩ := h
    cases call with
    | createMerchant | setMerchantStatus | createOffer | setOfferStatus | setFeatureFlag =>
      cases hpart
    | confirmPurchase now purchaseId =>
      obtain ⟨l, rfl, hl⟩ := hmay
      refine .settlement (Set.singleton_nonempty _) (fun update hu => ?_)
        (fun _ hnone => absurd hnone (Set.notMem_empty _)) hl
      exact Or.inl ⟨hu, now, instant, token, u, rfl, hcaller, hrole⟩
    | reversePurchase now purchaseId =>
      obtain ⟨l, rfl, hl⟩ := hmay
      refine .settlement (Set.singleton_nonempty _) (fun update hu => ?_)
        (fun update hu => ?_) hl
      · exact Or.inr (Or.inl ⟨hu, now, instant, token, u, rfl, hcaller, hrole⟩)
      · exact Or.inl ⟨now, instant, token, u, rfl, hcaller, hrole, hu⟩
  | user instant token call =>
    obtain ⟨u, hcaller, hmay⟩ := h
    cases call with
    | ingestPurchase purchaseId transactionId today now data =>
      obtain ⟨l, rfl, hl⟩ := hmay
      exact .ingestion ⟨instant, token, u, rfl, hcaller, rfl⟩ hl
    | getPurchaseDetails | listUserPurchases | getWalletSummary | listWalletTransactions =>
      obtain ⟨l, rfl, hl⟩ := hmay
      rw [List.eq_nil_iff_forall_not_mem.mpr hl]
      exact .nothing
  | job call =>
    obtain ⟨l, rfl, hl⟩ := h
    refine .settlement ?_ (fun update hu => Or.inr (Or.inr ⟨call, rfl, rfl, hu⟩))
      (fun update hu => Or.inr ⟨call, rfl, rfl, hu⟩) hl
    cases call with
    | attempt => exact Set.insert_nonempty _ _
    | forceReject => exact Set.singleton_nonempty _

end

end ClickNBack.Application
