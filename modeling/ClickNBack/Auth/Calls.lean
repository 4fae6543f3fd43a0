import ClickNBack.Auth.Services
import ClickNBack.Auth.TokenProvider
import ClickNBack.Core.Result

namespace ClickNBack.Auth

open Relational ReadCommitted Prog JwtOAuth2TokenProvider

def newRow (hashRefreshToken : String → String) (settings : Settings) (jwt : Jwt)
    (readings : Readings) (userId : String) : RefreshToken :=
  ⟨readings.newTokenId, userId,
    hashRefreshToken (createRefreshToken settings readings jwt userId), readings.now,
    readings.now + settings.oauthRefreshTokenTtl, none, 0⟩

def newResponse (settings : Settings) (jwt : Jwt) (readings : Readings)
    (userId userRole : String) : TokenResponse :=
  ⟨createAccessToken settings readings jwt userId userRole,
    createRefreshToken settings readings jwt userId, "bearer"⟩

def admittedUser (verifyPassword : String → String → Bool) (email password : String)
    (d : AuthDatabase) : Except AuthException User := do
  let user ← enforceUserExists (d.users.find User.email email) email
  enforcePasswordValid (verifyPassword password user.hashedPassword)
  return user

def admittedToken (hashRefreshToken : String → String) (jwt : Jwt) (readings : Readings)
    (refreshToken : String) (d : AuthDatabase) :
    Except AuthException (RefreshToken × String × User) := do
  let userId ← verifyRefreshToken readings jwt refreshToken
  let stored ← enforceRefreshTokenExists
    (d.refreshTokens.find RefreshToken.tokenHash (hashRefreshToken refreshToken))
  enforceRefreshTokenNotExpired stored readings.now
  enforceRefreshTokenNotUsed stored
  let user ← enforceUserExistsForRefresh (d.users.find User.id userId)
  return (stored, userId, user)

structure Redeems (hashRefreshToken : String → String) (jwt : Jwt) (readings : Readings)
    (refreshToken : String) (d : AuthDatabase) (stored : RefreshToken) (userId : String)
    (user : User) : Prop where
  verified : verifyRefreshToken readings jwt refreshToken = .ok userId
  found : d.refreshTokens.find RefreshToken.tokenHash (hashRefreshToken refreshToken) = some stored
  live : stored.isExpired readings.now = false
  unused : stored.isUsed = false
  user : d.users.find User.id userId = some user

section

variable {hashRefreshToken : String → String} {verifyPassword : String → String → Bool}
  {settings : Settings} {jwt : Jwt} {readings : Readings} {d : AuthDatabase}

theorem enforceRefreshTokenExists_eq_ok {token : Option RefreshToken} {t : RefreshToken}
    (h : enforceRefreshTokenExists token = .ok t) : token = some t := by
  cases token with
  | none => cases h
  | some t' => rw [Except.ok.inj h]

theorem enforceUserExistsForRefresh_eq_ok {user : Option User} {u : User}
    (h : enforceUserExistsForRefresh user = .ok u) : user = some u := by
  cases user with
  | none => cases h
  | some u' => rw [Except.ok.inj h]

theorem admittedUser_eq_ok {email password : String} {user : User} :
    admittedUser verifyPassword email password d = .ok user ↔
      d.users.find User.email email = some user ∧
        verifyPassword password user.hashedPassword = true := by
  rw [admittedUser]
  cases d.users.find User.email email with
  | none => exact iff_of_false (fun h => by cases h) fun h => by cases h.1
  | some u =>
    by_cases hp : verifyPassword password u.hashedPassword = true
    · have hvalid : enforcePasswordValid (verifyPassword password u.hashedPassword) = .ok () := by
        simp [enforcePasswordValid, hp]
      change (enforcePasswordValid _ >>= fun _ => Except.ok u) = _ ↔ _
      rw [hvalid]
      constructor
      · intro h
        cases h
        exact ⟨rfl, hp⟩
      · rintro ⟨h, -⟩
        cases h
        rfl
    · have hinvalid : enforcePasswordValid (verifyPassword password u.hashedPassword) =
          .error .passwordVerification := by
        simp [enforcePasswordValid, hp]
      change (enforcePasswordValid _ >>= fun _ => Except.ok u) = _ ↔ _
      rw [hinvalid]
      refine iff_of_false (fun h => by cases h) ?_
      rintro ⟨h, hvalid⟩
      cases h
      exact hp hvalid

theorem admittedToken_eq_ok {refreshToken userId : String} {stored : RefreshToken} {user : User} :
    admittedToken hashRefreshToken jwt readings refreshToken d = .ok (stored, userId, user) ↔
      Redeems hashRefreshToken jwt readings refreshToken d stored userId user := by
  rw [admittedToken]
  constructor
  · intro h
    obtain ⟨userId', hverified, h⟩ := Core.bind_eq_ok.mp h
    obtain ⟨stored', hfound, h⟩ := Core.bind_eq_ok.mp h
    obtain ⟨_, hlive, h⟩ := Core.bind_eq_ok.mp h
    obtain ⟨_, hunused, h⟩ := Core.bind_eq_ok.mp h
    obtain ⟨user', huser, h⟩ := Core.bind_eq_ok.mp h
    cases h
    refine ⟨hverified, enforceRefreshTokenExists_eq_ok hfound, ?_, ?_,
      enforceUserExistsForRefresh_eq_ok huser⟩
    · by_contra hexpired
      rw [Bool.not_eq_false] at hexpired
      simp [enforceRefreshTokenNotExpired, hexpired] at hlive
    · by_contra hused
      rw [Bool.not_eq_false] at hused
      simp [enforceRefreshTokenNotUsed, hused] at hunused
  · intro h
    rw [h.verified, h.found]
    change (enforceRefreshTokenNotExpired stored readings.now >>= fun _ =>
      enforceRefreshTokenNotUsed stored >>= fun _ =>
        enforceUserExistsForRefresh (d.users.find User.id userId) >>= fun user =>
          Except.ok (stored, userId, user)) = _
    rw [h.user]
    simp only [enforceRefreshTokenNotExpired, enforceRefreshTokenNotUsed, h.live, h.unused]
    rfl

end

theorem getUserByEmail_eq (email : String) :
    UsersClient.getUserByEmail email = query fun d => d.users.find User.email email :=
  selectOne_eq_query _ AuthDatabase.users (by simp) email

theorem getUserById_eq (userId : String) :
    UsersClient.getUserById userId = query fun d => d.users.find User.id userId :=
  selectOne_eq_query _ AuthDatabase.users (by simp) userId

theorem getByHash_eq (tokenHash : String) :
    RefreshTokenRepository.getByHash tokenHash =
      query fun d => d.refreshTokens.find RefreshToken.tokenHash tokenHash :=
  selectOne_eq_query _ AuthDatabase.refreshTokens (by simp) tokenHash

theorem getById_eq (tokenId : String) :
    RefreshTokenRepository.getById tokenId =
      query fun d => d.refreshTokens.find RefreshToken.id tokenId :=
  selectOne_eq_query _ AuthDatabase.refreshTokens (by simp) tokenId

theorem insertToken_exec (row : RefreshToken) (d : AuthDatabase) :
    Statement.exec (Sql.insertToken row) d =
      if d.refreshTokens.Free row then .ok { d with refreshTokens := d.refreshTokens.put row }
      else .error .integrityError := by
  simp only [Statement.exec, Sql.exec, Table.put]
  by_cases h : d.refreshTokens.Free row
  · obtain ⟨t, ht⟩ := Option.isSome_iff_exists.mp (d.refreshTokens.insert_isSome.mpr h)
    rw [if_pos h, ht]
    rfl
  · have hnone : d.refreshTokens.insert row = none :=
      Option.not_isSome_iff_eq_none.mp (mt d.refreshTokens.insert_isSome.mp h)
    rw [if_neg h, hnone]

section

variable (hashRefreshToken : String → String) (verifyPassword : String → String → Bool)
  (settings : Settings) (jwt : Jwt) (readings : Readings)

theorem createRefreshTokenRecord_run (userId userRole : String) (d : AuthDatabase)
    (log : List Sql) :
    (do
      let refreshToken ← createRefreshTokenRecord hashRefreshToken
        (jwtProvider settings jwt readings) readings.newTokenId userId readings.now
      commitTx
      return ⟨createAccessToken settings readings jwt userId userRole, refreshToken, "bearer"⟩ :
        Coroutine TokenResponse).run d log =
      let row := newRow hashRefreshToken settings jwt readings userId
      if (replay log d).refreshTokens.Free row then
        (.ok (newResponse settings jwt readings userId userRole),
          { replay log d with refreshTokens := (replay log d).refreshTokens.put row })
      else (.error .integrityError, d) := by
  have hexec := insertToken_exec (newRow hashRefreshToken settings jwt readings userId)
    (replay log d)
  unfold createRefreshTokenRecord RefreshTokenRepository.create
  simp only [jwtProvider, lift_ok, pure_bind, bind_assoc]
  change (execute (Sql.insertToken (newRow hashRefreshToken settings jwt readings userId)) >>=
    fun _ => commitTx >>= fun _ => pure (newResponse settings jwt readings userId userRole)).run
      d log = _
  rw [execute_run_bind]
  by_cases hfree :
      (replay log d).refreshTokens.Free (newRow hashRefreshToken settings jwt readings userId)
  · rw [if_pos hfree] at hexec
    simp only [hexec, if_pos hfree, run_commitTx_bind, run_pure, replay_snoc hexec]
  · rw [if_neg hfree] at hexec
    simp only [hexec, if_neg hfree]

theorem login_run (email password : String) (d : AuthDatabase) :
    (login hashRefreshToken verifyPassword (jwtProvider settings jwt readings) readings.now
      readings.newTokenId email password).run d [] =
      concluded d
        (fun user =>
          let row := newRow hashRefreshToken settings jwt readings user.id
          if d.refreshTokens.Free row then
            (.ok (newResponse settings jwt readings user.id user.role),
              { d with refreshTokens := d.refreshTokens.put row })
          else (.error .integrityError, d))
        (admittedUser verifyPassword email password d) := by
  rw [login, admittedUser]
  rw [getUserByEmail_eq, run_query_bind]
  apply run_lift_bind
  intro user
  apply run_lift_bind
  intro _
  exact createRefreshTokenRecord_run hashRefreshToken settings jwt readings user.id user.role d []

theorem markAsUsed_run_bind {β : Type} {d : AuthDatabase} {t : RefreshToken}
    (ht : t ∈ d.refreshTokens.rows) (usedAt : Nat) (f : Unit → Coroutine β) :
    (RefreshTokenRepository.markAsUsed t usedAt >>= f).run d [] =
      (f ()).run d [.markAsUsed t.id usedAt (t.rotationCount + 1)] := by
  have hfind : d.refreshTokens.find RefreshToken.id t.id = some t :=
    (d.refreshTokens.find_eq_some (by simp)).mpr ⟨ht, rfl⟩
  rw [RefreshTokenRepository.markAsUsed]
  rw [bind_assoc, getById_eq, run_query_bind, replay_nil, hfind, execute_run_bind]
  rfl

def refreshFailure : AuthException → AuthException
  | .invalidRefreshToken reason => .invalidRefreshToken reason
  | .refreshTokenAlreadyUsed tokenId => .refreshTokenAlreadyUsed tokenId
  | _ => .invalidRefreshToken "Token refresh failed."

theorem failRefresh_eq (e : AuthException) : failRefresh e = raise (refreshFailure e) := by
  cases e <;> rfl

def rotated (d : AuthDatabase) (stored row : RefreshToken) : RefreshTokenTable :=
  Table.put (RefreshTokenTable.markAsUsed d.refreshTokens stored.id readings.now
    (stored.rotationCount + 1)) row

theorem rotate_run (refreshToken : String) (d : AuthDatabase) :
    (rotate hashRefreshToken (jwtProvider settings jwt readings) readings.now
      readings.newTokenId refreshToken).run d [] =
      concluded d
        (fun r =>
          let row := newRow hashRefreshToken settings jwt readings r.2.1
          if d.refreshTokens.Free row then
            (.ok (newResponse settings jwt readings r.2.1 r.2.2.role),
              { d with refreshTokens := rotated readings d r.1 row })
          else (.error .integrityError, d))
        (admittedToken hashRefreshToken jwt readings refreshToken d) := by
  rw [rotate, admittedToken]
  apply run_lift_bind
  intro userId
  rw [getByHash_eq, run_query_bind, replay_nil]
  cases hfound : d.refreshTokens.find RefreshToken.tokenHash (hashRefreshToken refreshToken) with
  | none => rfl
  | some stored =>
    obtain ⟨hmem, -⟩ := (d.refreshTokens.find_eq_some (by simp)).mp hfound
    simp only [enforceRefreshTokenExists, lift_ok, pure_bind]
    apply run_lift_bind
    intro _
    apply run_lift_bind
    intro _
    rw [markAsUsed_run_bind hmem, getUserById_eq, run_query_bind]
    apply run_lift_bind
    intro user
    refine (createRefreshTokenRecord_run hashRefreshToken settings jwt readings userId user.role d
      _).trans ?_
    exact if_congr (Table.free_modify _ (RefreshToken.used_keeps _ _) _) rfl rfl

theorem refresh_run (refreshToken : String) (d : AuthDatabase) :
    (refresh hashRefreshToken (jwtProvider settings jwt readings) readings.now
      readings.newTokenId refreshToken).run d [] =
      match admittedToken hashRefreshToken jwt readings refreshToken d with
      | .error e => (.error (refreshFailure e), d)
      | .ok (stored, userId, user) =>
        let row := newRow hashRefreshToken settings jwt readings userId
        if d.refreshTokens.Free row then
          (.ok (newResponse settings jwt readings userId user.role),
            { d with refreshTokens := rotated readings d stored row })
        else (.error (refreshFailure .integrityError), d) := by
  rw [refresh]
  rw [run_tryCatch failRefresh_eq, rotate_run]
  cases admittedToken hashRefreshToken jwt readings refreshToken d with
  | error e => rfl
  | ok r =>
    obtain ⟨stored, userId, user⟩ := r
    simp only [concluded]
    by_cases hfree : d.refreshTokens.Free (newRow hashRefreshToken settings jwt readings userId)
    · simp only [if_pos hfree]
      rfl
    · simp only [if_neg hfree]
      rfl

end

end ClickNBack.Auth
