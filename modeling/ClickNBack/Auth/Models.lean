import ClickNBack.ReadCommitted.Program
import ClickNBack.Relational.Table

namespace ClickNBack.Auth

open Relational ReadCommitted

/-- A row of `users`, without what a login and a refresh do not read. -/
structure User where
  id : String
  email : String
  hashedPassword : String
  role : String
deriving DecidableEq

structure RefreshToken where
  id : String
  userId : String
  tokenHash : String
  issuedAt : Nat
  expiresAt : Nat
  usedAt : Option Nat
  rotationCount : Nat
deriving DecidableEq

namespace RefreshToken

def isExpired (t : RefreshToken) (now : Nat) : Bool := t.expiresAt ≤ now

def isUsed (t : RefreshToken) : Bool := t.usedAt ≠ none

def used (usedAt rotationCount : Nat) (t : RefreshToken) : RefreshToken :=
  { t with usedAt := some usedAt, rotationCount }

end RefreshToken

structure TokenResponse where
  accessToken : String
  refreshToken : String
  tokenType : String
deriving DecidableEq

inductive AuthException
  | userNotFound (email : String)
  | passwordVerification
  | invalidToken
  | expiredRefreshToken
  | internalJwtError
  | invalidRefreshToken (reason : String)
  | refreshTokenAlreadyUsed (tokenId : String)
  | multipleResultsFound
  | integrityError
deriving DecidableEq

/-- What one call gets from the libraries behind `OAuth2TokenProviderABC`: they
sign, draw random ids and read the clock. -/
structure TokenProvider where
  verifyRefreshToken : String → Except AuthException String
  createAccessToken : (userId userRole : String) → Except AuthException String
  createRefreshToken : (userId : String) → Except AuthException String
  refreshTtl : Nat

abbrev RefreshTokenTable :=
  Table RefreshToken String [RefreshToken.id, RefreshToken.tokenHash]

abbrev UserTable := Table User String [User.id, User.email]

structure AuthDatabase where
  users : UserTable
  refreshTokens : RefreshTokenTable

inductive Sql
  | markAsUsed (id : String) (usedAt rotationCount : Nat)
  | insertToken (row : RefreshToken)
deriving DecidableEq

inductive LockKey
  | token (id : String)
  | tokenHash (tokenHash : String)
deriving DecidableEq

theorem RefreshToken.used_keeps (usedAt rotationCount : Nat) :
    ∀ g ∈ [RefreshToken.id, RefreshToken.tokenHash], ∀ t,
      g (RefreshToken.used usedAt rotationCount t) = g t := by
  simp [RefreshToken.used]

def RefreshTokenTable.markAsUsed (t : RefreshTokenTable) (id : String)
    (usedAt rotationCount : Nat) : RefreshTokenTable :=
  t.modify RefreshToken.id id (RefreshToken.used usedAt rotationCount)
    (RefreshToken.used_keeps usedAt rotationCount)

namespace Sql

def exec : Sql → AuthDatabase → Except AuthException AuthDatabase
  | .markAsUsed id usedAt rotationCount, d =>
    .ok { d with
      refreshTokens := RefreshTokenTable.markAsUsed d.refreshTokens id usedAt rotationCount }
  | .insertToken row, d =>
    match d.refreshTokens.insert row with
    | some t => .ok { d with refreshTokens := t }
    | none => .error .integrityError

theorem insert_of_exec_insertToken {row : RefreshToken} {d d' : AuthDatabase}
    (h : exec (.insertToken row) d = .ok d') :
    d.refreshTokens.insert row = some d'.refreshTokens := by
  cases ht : d.refreshTokens.insert row with
  | none => simp [exec, ht] at h
  | some t =>
    simp only [exec, ht, Except.ok.injEq] at h
    rw [← h]

def locks : Sql → AuthDatabase → List LockKey
  | .markAsUsed id _ _, d =>
    if (d.refreshTokens.find RefreshToken.id id).isSome then [.token id] else []
  | .insertToken row, _ => [.token row.id, .tokenHash row.tokenHash]

instance : Statement Sql AuthDatabase AuthException LockKey := ⟨exec, locks⟩

end Sql

end ClickNBack.Auth
