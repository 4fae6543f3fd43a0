import ClickNBack.Auth.Models

namespace ClickNBack.Auth

/-- The payload of a JWT; `exp` is in seconds. -/
structure Claims where
  userId : Option String
  userRole : Option String
  exp : Option Nat
  tokenType : Option String
  jti : Option String
deriving DecidableEq

/-- The JWTs that `jose` signs and reads with one key and algorithm; `decode` fails
where it raises a JWTError that is not about `exp`. -/
structure Jwt where
  encode : Claims → String
  decode : String → Option Claims

/-- What one call draws and reads off the clock, in microseconds, in order. -/
structure Readings where
  verifiedAt : Nat
  now : Nat
  accessAt : Nat
  refreshAt : Nat
  jti : String
  newTokenId : String

structure Settings where
  oauthAccessTokenTtl : Nat
  oauthRefreshTokenTtl : Nat

def seconds (instant : Nat) : Nat := instant / 1000000

def Claims.expired (claims : Claims) (instant : Nat) : Bool :=
  claims.exp.any fun exp => exp < seconds instant

namespace JwtOAuth2TokenProvider

variable (settings : Settings) (readings : Readings)

def accessClaims (userId userRole : String) : Claims :=
  ⟨some userId, some userRole, some (seconds (readings.accessAt + settings.oauthAccessTokenTtl)),
    some "access", none⟩

def refreshClaims (userId : String) : Claims :=
  ⟨some userId, none, some (seconds (readings.refreshAt + settings.oauthRefreshTokenTtl)),
    some "refresh", some readings.jti⟩

def verifyRefreshToken (jwt : Jwt) (token : String) : Except AuthException String :=
  match jwt.decode token with
  | none => .error .internalJwtError
  | some claims =>
    if claims.expired readings.verifiedAt then .error .expiredRefreshToken
    else match claims.userId with
      | none => .error .invalidToken
      | some userId =>
        if claims.tokenType ≠ some "refresh" then .error .invalidToken else .ok userId

def createAccessToken (jwt : Jwt) (userId userRole : String) : String :=
  jwt.encode (accessClaims settings readings userId userRole)

def createRefreshToken (jwt : Jwt) (userId : String) : String :=
  jwt.encode (refreshClaims settings readings userId)

variable {settings readings}

theorem verifyRefreshToken_of_decode {created : Readings} {jwt : Jwt} {token userId : String}
    (h : jwt.decode token = some (refreshClaims settings created userId)) :
    verifyRefreshToken readings jwt token =
      if (refreshClaims settings created userId).expired readings.verifiedAt then
        .error .expiredRefreshToken
      else .ok userId := by
  simp only [verifyRefreshToken, h, refreshClaims, ne_eq, not_true_eq_false, if_false]
  rfl

end JwtOAuth2TokenProvider

/-- `JwtOAuth2TokenProvider` during one call. -/
def jwtProvider (settings : Settings) (jwt : Jwt) (readings : Readings) : TokenProvider where
  verifyRefreshToken := JwtOAuth2TokenProvider.verifyRefreshToken readings jwt
  createAccessToken userId userRole :=
    .ok (JwtOAuth2TokenProvider.createAccessToken settings readings jwt userId userRole)
  createRefreshToken userId :=
    .ok (JwtOAuth2TokenProvider.createRefreshToken settings readings jwt userId)
  refreshTtl := settings.oauthRefreshTokenTtl

end ClickNBack.Auth
