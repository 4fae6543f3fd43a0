import ClickNBack.Auth.Models
import ClickNBack.Relational.Queries

namespace ClickNBack.Auth

open Relational ReadCommitted Prog

abbrev Coroutine := Prog AuthDatabase Sql AuthException

def enforceUserExists (user : Option User) (email : String) : Except AuthException User :=
  match user with
  | none => .error (.userNotFound email)
  | some user => .ok user

def enforcePasswordValid (passwordCorrect : Bool) : Except AuthException Unit :=
  if ¬ passwordCorrect then .error .passwordVerification else .ok ()

def enforceRefreshTokenExists (token : Option RefreshToken) : Except AuthException RefreshToken :=
  match token with
  | none => .error (.invalidRefreshToken "Token not found.")
  | some token => .ok token

def enforceRefreshTokenNotExpired (token : RefreshToken) (now : Nat) : Except AuthException Unit :=
  if token.isExpired now then .error (.invalidRefreshToken "Refresh token has expired.")
  else .ok ()

def enforceRefreshTokenNotUsed (token : RefreshToken) : Except AuthException Unit :=
  if token.isUsed then .error (.refreshTokenAlreadyUsed token.id) else .ok ()

def enforceUserExistsForRefresh (user : Option User) : Except AuthException User :=
  match user with
  | none => .error (.invalidRefreshToken "User not found.")
  | some user => .ok user

namespace RefreshTokenRepository

def getByHash (tokenHash : String) : Coroutine (Option RefreshToken) :=
  selectOne .multipleResultsFound fun d =>
    d.refreshTokens.rows.filter fun t => t.tokenHash = tokenHash

def getById (tokenId : String) : Coroutine (Option RefreshToken) :=
  selectOne .multipleResultsFound fun d => d.refreshTokens.rows.filter fun t => t.id = tokenId

/-- The session holds one object per row, and the second SELECT of the row leaves
it as `get_by_hash` has loaded it. -/
def markAsUsed (loaded : RefreshToken) (usedAt : Nat) : Coroutine Unit := do
  match ← getById loaded.id with
  | none => return ()
  | some _ => execute (.markAsUsed loaded.id usedAt (loaded.rotationCount + 1))

/-- `id` is the generated key of the new row. -/
def create (id userId tokenHash : String) (issuedAt expiresAt : Nat) : Coroutine Unit :=
  execute (.insertToken ⟨id, userId, tokenHash, issuedAt, expiresAt, none, 0⟩)

end RefreshTokenRepository

def UsersClient.getUserByEmail (email : String) : Coroutine (Option User) :=
  selectOne .multipleResultsFound fun d => d.users.rows.filter fun u => u.email = email

def UsersClient.getUserById (userId : String) : Coroutine (Option User) :=
  selectOne .multipleResultsFound fun d => d.users.rows.filter fun u => u.id = userId

variable (hashRefreshToken : String → String)

def createRefreshTokenRecord (provider : TokenProvider) (newTokenId userId : String) (now : Nat) :
    Coroutine String := do
  let refreshToken ← lift (provider.createRefreshToken userId)
  RefreshTokenRepository.create newTokenId userId (hashRefreshToken refreshToken) now
    (now + provider.refreshTtl)
  return refreshToken

def login (verifyPassword : String → String → Bool) (provider : TokenProvider) (now : Nat)
    (newTokenId email password : String) : Coroutine TokenResponse := do
  let user ← UsersClient.getUserByEmail email
  let user ← lift (enforceUserExists user email)
  lift (enforcePasswordValid (verifyPassword password user.hashedPassword))
  let accessToken ← lift (provider.createAccessToken user.id user.role)
  let refreshToken ← createRefreshTokenRecord hashRefreshToken provider newTokenId user.id now
  commitTx
  return ⟨accessToken, refreshToken, "bearer"⟩

/-- The body of the `try` of `AuthService.refresh`. -/
def rotate (provider : TokenProvider) (now : Nat) (newTokenId refreshToken : String) :
    Coroutine TokenResponse := do
  let userId ← lift (provider.verifyRefreshToken refreshToken)
  let storedToken ← RefreshTokenRepository.getByHash (hashRefreshToken refreshToken)
  let storedToken ← lift (enforceRefreshTokenExists storedToken)
  lift (enforceRefreshTokenNotExpired storedToken now)
  lift (enforceRefreshTokenNotUsed storedToken)
  RefreshTokenRepository.markAsUsed storedToken now
  let user ← UsersClient.getUserById userId
  let user ← lift (enforceUserExistsForRefresh user)
  let newAccessToken ← lift (provider.createAccessToken userId user.role)
  let newRefreshToken ←
    createRefreshTokenRecord hashRefreshToken provider newTokenId userId now
  commitTx
  return ⟨newAccessToken, newRefreshToken, "bearer"⟩

/-- The `except` clauses of `AuthService.refresh`. -/
def failRefresh : AuthException → Coroutine TokenResponse
  | .invalidRefreshToken reason => raise (.invalidRefreshToken reason)
  | .refreshTokenAlreadyUsed tokenId => raise (.refreshTokenAlreadyUsed tokenId)
  | _ => raise (.invalidRefreshToken "Token refresh failed.")

def refresh (provider : TokenProvider) (now : Nat) (newTokenId refreshToken : String) :
    Coroutine TokenResponse :=
  tryCatch (rotate hashRefreshToken provider now newTokenId refreshToken) failRefresh

end ClickNBack.Auth
