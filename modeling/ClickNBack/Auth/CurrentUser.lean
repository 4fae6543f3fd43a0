import ClickNBack.Auth.TextJwt

namespace ClickNBack.Auth

open Relational

structure TokenPayload where
  userId : Option String
  userRole : Option String
deriving DecidableEq

inductive UserRole
  | user
  | admin
deriving DecidableEq

/-- A row of `users`, with what `get_current_user` reads. -/
structure Account where
  id : String
  role : UserRole
  active : Bool
deriving DecidableEq

abbrev AccountTable := Table Account String [Account.id]

inductive AccessException
  | invalidToken
  | expiredToken
  | internalJwtError
  | userInactive (userId : Option String)
  | multipleResultsFound
deriving DecidableEq

namespace JwtOAuth2TokenProvider

/-- `verify_access_token`, at the given instant; it does not read `token_type`. -/
def verifyAccessToken (instant : Nat) (jwt : Jwt) (token : String) :
    Except AccessException TokenPayload :=
  match jwt.decode token with
  | none => .error .internalJwtError
  | some claims =>
    if claims.expired instant then .error .expiredToken
    else if claims.userId = none ∨ claims.userRole = none then .error .invalidToken
    else .ok ⟨claims.userId, claims.userRole⟩

end JwtOAuth2TokenProvider

def UserRepository.getUserById (users : AccountTable) (userId : String) :
    Except AccessException (Option Account) :=
  scalarOneOrNone .multipleResultsFound (users.rows.filter fun u => u.id = userId)

open JwtOAuth2TokenProvider

def getCurrentUser (instant : Nat) (jwt : Jwt) (users : AccountTable) (token : Option String) :
    Except AccessException Account := do
  match token with
  | none => throw .invalidToken
  | some token =>
    let payload ← verifyAccessToken instant jwt token
    match ← UserRepository.getUserById users (payload.userId.getD "") with
    | none => throw .invalidToken
    | some user => if user.active = false then throw (.userInactive payload.userId) else return user

def getCurrentAdminUser (currentUser : Account) : Except AccessException Account :=
  if ¬ currentUser.role = .admin then .error .invalidToken else .ok currentUser

section

variable {settings : Settings} {created : Readings} {jwt : Jwt} {token userId userRole : String}

theorem accessClaims_expired (instant : Nat) :
    (accessClaims settings created userId userRole).expired instant =
      decide (seconds (created.accessAt + settings.oauthAccessTokenTtl) < seconds instant) := rfl

theorem refreshClaims_expired (instant : Nat) :
    (refreshClaims settings created userId).expired instant =
      decide (seconds (created.refreshAt + settings.oauthRefreshTokenTtl) < seconds instant) := rfl

theorem verifyAccessToken_of_access
    (h : jwt.decode token = some (accessClaims settings created userId userRole)) (instant : Nat) :
    verifyAccessToken instant jwt token =
      if (accessClaims settings created userId userRole).expired instant then
        .error .expiredToken
      else .ok ⟨some userId, some userRole⟩ := by
  have hpresent : ¬ ((accessClaims settings created userId userRole).userId = none ∨
      (accessClaims settings created userId userRole).userRole = none) := by simp [accessClaims]
  simp only [verifyAccessToken, h, if_neg hpresent]
  rfl

/-- A refresh token has no `user_role`. -/
theorem verifyAccessToken_of_refresh
    (h : jwt.decode token = some (refreshClaims settings created userId)) (instant : Nat) :
    verifyAccessToken instant jwt token =
      .error (if (refreshClaims settings created userId).expired instant then .expiredToken
        else .invalidToken) := by
  have hmissing : (refreshClaims settings created userId).userId = none ∨
      (refreshClaims settings created userId).userRole = none := Or.inr rfl
  simp only [verifyAccessToken, h, if_pos hmissing]
  split <;> rfl

theorem verifyRefreshToken_of_access
    (h : jwt.decode token = some (accessClaims settings created userId userRole))
    (readings : Readings) :
    verifyRefreshToken readings jwt token =
      .error (if (accessClaims settings created userId userRole).expired readings.verifiedAt then
        .expiredRefreshToken else .invalidToken) := by
  have hkind : (accessClaims settings created userId userRole).tokenType ≠ some "refresh" := by
    simp [accessClaims]
  simp only [verifyRefreshToken, h, if_pos hkind]
  split <;> rfl

theorem getCurrentUser_of_error {instant : Nat} {e : AccessException}
    (h : verifyAccessToken instant jwt token = .error e) (users : AccountTable) :
    getCurrentUser instant jwt users (some token) = .error e := by
  simp only [getCurrentUser, h]
  rfl

/-- The stored user counts, and neither the role in the token nor its kind. -/
theorem getCurrentUser_of_ok {instant : Nat} {payload : TokenPayload}
    (h : verifyAccessToken instant jwt token = .ok payload) (users : AccountTable) :
    getCurrentUser instant jwt users (some token) =
      match users.find Account.id (payload.userId.getD "") with
      | none => .error .invalidToken
      | some user => if user.active = false then .error (.userInactive payload.userId)
        else .ok user := by
  have hfind : UserRepository.getUserById users (payload.userId.getD "") =
      .ok (users.find Account.id (payload.userId.getD "")) :=
    users.scalarOneOrNone_filter (by simp) _ _
  simp only [getCurrentUser, h]
  change (UserRepository.getUserById users _ >>= _) = _
  rw [hfind]
  rfl

end

/-- Each kind of token is accepted by its own verifier until it expires, with what it
was made of, and by the other verifier never, nor by any route. -/
theorem tokens_never_cross {jwt : Jwt}
    (hdecode : ∀ claims, jwt.decode (jwt.encode claims) = some claims) (settings : Settings)
    (made made' : Readings) (userId userRole userId' : String) :
    (∀ instant, verifyAccessToken instant jwt
        (createAccessToken settings made jwt userId userRole) =
      if seconds (made.accessAt + settings.oauthAccessTokenTtl) < seconds instant then
        .error .expiredToken
      else .ok ⟨some userId, some userRole⟩) ∧
    (∀ readings, ∃ e, verifyRefreshToken readings jwt
      (createAccessToken settings made jwt userId userRole) = .error e) ∧
    (∀ readings, verifyRefreshToken readings jwt (createRefreshToken settings made' jwt userId') =
      if seconds (made'.refreshAt + settings.oauthRefreshTokenTtl) < seconds readings.verifiedAt
      then .error .expiredRefreshToken
      else .ok userId') ∧
    (∀ instant, ∃ e, verifyAccessToken instant jwt
      (createRefreshToken settings made' jwt userId') = .error e) ∧
    ∀ instant users, ∃ e, getCurrentUser instant jwt users
      (some (createRefreshToken settings made' jwt userId')) = .error e := by
  have haccess : jwt.decode (createAccessToken settings made jwt userId userRole) =
      some (accessClaims settings made userId userRole) := hdecode _
  have hrefresh : jwt.decode (createRefreshToken settings made' jwt userId') =
      some (refreshClaims settings made' userId') := hdecode _
  refine ⟨fun instant => ?_, fun readings => ⟨_, verifyRefreshToken_of_access haccess readings⟩,
    fun readings => ?_, fun instant => ⟨_, verifyAccessToken_of_refresh hrefresh instant⟩,
    fun instant users =>
      ⟨_, getCurrentUser_of_error (verifyAccessToken_of_refresh hrefresh instant) users⟩⟩
  · rw [verifyAccessToken_of_access haccess, accessClaims_expired]
    simp only [decide_eq_true_eq]
  · rw [verifyRefreshToken_of_decode hrefresh, refreshClaims_expired]
    simp only [decide_eq_true_eq]

def firstSecond : Readings := ⟨0, 0, 0, 0, "jti", "id"⟩

def minutes : Settings := ⟨60000000, 3600000000⟩

theorem tokens_never_cross_ana :
    verifyAccessToken 60999999 textJwt
        (createAccessToken minutes firstSecond textJwt "ana" "user") =
      .ok ⟨some "ana", some "user"⟩ ∧
    verifyAccessToken 61000000 textJwt
        (createAccessToken minutes firstSecond textJwt "ana" "user") =
      .error .expiredToken ∧
    ∀ instant users, ∃ e, getCurrentUser instant textJwt users
      (some (createRefreshToken minutes firstSecond textJwt "ana")) = .error e := by
  obtain ⟨haccess, -, -, -, hrefresh⟩ := tokens_never_cross textJwt_decode_encode minutes
    firstSecond firstSecond "ana" "user" "ana"
  exact ⟨(haccess 60999999).trans (by decide +kernel), (haccess 61000000).trans (by decide +kernel),
    hrefresh⟩

end ClickNBack.Auth
