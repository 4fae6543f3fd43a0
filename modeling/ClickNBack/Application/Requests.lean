import ClickNBack.Application.Integrity
import ClickNBack.Auth.Lifecycle
import ClickNBack.Wallets.Api

namespace ClickNBack.Application

open Numeric Relational ReadCommitted Prog Purchases

abbrev Coroutine := Prog Database Sql AppException

structure Environment extends Auth.Environment where
  maxCashbackPercentage : PyFloat

/-- The floats of the body are numbers; purchases of offers with a NaN or an infinity are left
out here. -/
def FiniteOffer (data : Offers.OfferCreate) : Prop :=
  (decimal data.cashbackValue).isSome ∧ (decimal data.monthlyCap).isSome

/-- The calls that only an admin may make and that write, each with what it reads from
outside the database. -/
inductive AdminCall
  | createMerchant (merchantId : String) (data : Merchants.MerchantCreate)
  | setMerchantStatus (merchantId : String) (active : Bool)
  | createOffer (offerId : String) (today : Nat) (data : Offers.OfferCreate)
      (finite : FiniteOffer data)
  | setOfferStatus (offerId : String) (active : Bool)
  | setFeatureFlag (key : String) (data : FeatureFlags.FeatureFlagSet)
  | confirmPurchase (now : Nat) (purchaseId : String)
  | reversePurchase (now : Nat) (purchaseId : String)

inductive UserCall
  | ingestPurchase (purchaseId transactionId : String) (today now : Nat) (data : PurchaseCreate)
  | getPurchaseDetails (purchaseId : String)
  | listUserPurchases (listing : Listing Purchase) (status : Option String) (offset limit : Nat)
  | getWalletSummary
  | listWalletTransactions (listing : Listing CashbackTransaction) (limit offset : Nat)

inductive JobCall
  | attempt (verify : Purchase → Nat → VerificationResult) (now : Nat) (purchaseId : String)
      (number : Nat)
  | forceReject (now : Nat) (purchaseId : String) (maxAttempts : Int)

/-- What opens a session: a request of somebody unknown, one with an access token, which
is checked at an instant, or the job. -/
inductive Request
  | register (hashPassword : String → String) (userId email password : String)
  | login (readings : Auth.Readings) (email password : String)
  | refresh (readings : Auth.Readings) (refreshToken : String)
  | admin (instant : Nat) (token : Option String) (call : AdminCall)
  | user (instant : Nat) (token : Option String) (call : UserCall)
  | job (call : JobCall)

def discard {α : Type} : α → Unit := fun _ => ()

def getCurrentUser (instant : Nat) (jwt : Auth.Jwt) (token : Option String) :
    Coroutine Auth.Account := do
  match token with
  | none => raise (.access .invalidToken)
  | some token =>
    let payload ← lift
      ((Auth.JwtOAuth2TokenProvider.verifyAccessToken instant jwt token).mapError .access)
    let user ← selectOne (.access .multipleResultsFound) fun d : Database =>
      d.accounts.rows.filter fun u => u.id = payload.userId.getD ""
    match user with
    | none => raise (.access .invalidToken)
    | some user =>
      if user.active = false then raise (.access (.userInactive payload.userId))
      else return user

def getCurrentAdminUser (instant : Nat) (jwt : Auth.Jwt) (token : Option String) :
    Coroutine Auth.Account := do
  let currentUser ← getCurrentUser instant jwt token
  lift ((Auth.getCurrentAdminUser currentUser).mapError .access)

def AdminCall.prog (env : Environment) (adminId : String) : AdminCall → Coroutine Unit
  | .createMerchant merchantId data =>
    (Merchants.createMerchant env.maxCashbackPercentage merchantId data).embed merchantsPart discard
  | .setMerchantStatus merchantId active =>
    (Merchants.setMerchantStatus merchantId active).embed merchantsPart discard
  | .createOffer offerId today data _ =>
    (Offers.Async.createOffer env.maxCashbackPercentage offerId today data).embed offersPart discard
  | .setOfferStatus offerId active =>
    (Offers.Async.setOfferStatus offerId active).embed offerStatusPart discard
  | .setFeatureFlag key data =>
    (FeatureFlags.Async.setFlag key data).embed featureFlagsPart discard
  | .confirmPurchase now purchaseId =>
    (Operation.confirmManually now purchaseId adminId).prog.embed purchasesPart discard
  | .reversePurchase now purchaseId =>
    (Operation.reverse now purchaseId adminId).prog.embed purchasesPart discard

def UserCall.prog (userId : String) : UserCall → Coroutine Unit
  | .ingestPurchase purchaseId transactionId today now data =>
    (Operation.ingest purchaseId transactionId today now data userId).prog.embed purchasesPart
      discard
  | .getPurchaseDetails purchaseId =>
    (Purchases.getPurchaseDetails purchaseId userId).embed purchasesPart discard
  | .listUserPurchases listing status offset limit =>
    (Purchases.listUserPurchases listing userId status offset limit).embed purchasesPart discard
  | .getWalletSummary => (Wallets.getWalletSummary userId).embed purchasesPart discard
  | .listWalletTransactions listing limit offset =>
    (Wallets.listWalletTransactions listing userId limit offset).embed purchasesPart discard

namespace JobCall

def operation : JobCall → Operation
  | .attempt verify now purchaseId number => .attempt verify now purchaseId number
  | .forceReject now purchaseId maxAttempts => .forceReject now purchaseId maxAttempts

def prog (c : JobCall) : Coroutine Unit := c.operation.prog.embed purchasesPart discard

end JobCall

/-- What a session does, the response left out. -/
def Request.prog (env : Environment) : Request → Coroutine Unit
  | .register hashPassword userId email password =>
    (Users.createUser hashPassword userId email password).embed usersPart discard
  | .login readings email password =>
    (Auth.login env.hashRefreshToken env.verifyPassword
      (Auth.jwtProvider env.settings env.jwt readings) readings.now readings.newTokenId email
      password).embed authPart discard
  | .refresh readings refreshToken =>
    (Auth.refresh env.hashRefreshToken (Auth.jwtProvider env.settings env.jwt readings)
      readings.now readings.newTokenId refreshToken).embed authPart discard
  | .admin instant token call => do
    let admin ← getCurrentAdminUser instant env.jwt token
    call.prog env admin.id
  | .user instant token call => do
    let user ← getCurrentUser instant env.jwt token
    call.prog user.id
  | .job call => call.prog

end ClickNBack.Application
