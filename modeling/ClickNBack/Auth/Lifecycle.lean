import ClickNBack.Auth.Calls
import ClickNBack.Auth.TextJwt
import ClickNBack.Transition.Runs

namespace ClickNBack.Auth

open Relational ReadCommitted Transition JwtOAuth2TokenProvider

inductive Request
  | login (email password : String)
  | refresh (refreshToken : String)

/-- A request, with the users that the other modules have left at its time. -/
structure Call where
  users : UserTable
  readings : Readings
  request : Request

structure Environment where
  settings : Settings
  jwt : Jwt
  hashRefreshToken : String → String
  verifyPassword : String → String → Bool

structure Entry where
  call : Call
  outcome : Except AuthException TokenResponse

/-- The committed tokens, and the calls that have led to them. -/
structure State where
  refreshTokens : RefreshTokenTable
  history : List Entry

def State.after (s : State) (t : RefreshTokenTable) (e : Entry) : State := ⟨t, s.history ++ [e]⟩

variable (env : Environment)

namespace Call

variable (c : Call)

def prog : Coroutine TokenResponse :=
  match c.request with
  | .login email password =>
    login env.hashRefreshToken env.verifyPassword (jwtProvider env.settings env.jwt c.readings)
      c.readings.now c.readings.newTokenId email password
  | .refresh refreshToken =>
    refresh env.hashRefreshToken (jwtProvider env.settings env.jwt c.readings) c.readings.now
      c.readings.newTokenId refreshToken

def result (t : RefreshTokenTable) : Except AuthException TokenResponse × AuthDatabase :=
  (c.prog env).run ⟨c.users, t⟩ []

def exec (s : State) : State :=
  s.after (c.result env s.refreshTokens).2.refreshTokens ⟨c, (c.result env s.refreshTokens).1⟩

abbrev newToken (userId : String) : String :=
  createRefreshToken env.settings c.readings env.jwt userId

abbrev row (userId : String) : RefreshToken :=
  newRow env.hashRefreshToken env.settings env.jwt c.readings userId

inductive Responds (t : RefreshTokenTable) :
    Except AuthException TokenResponse × AuthDatabase → Prop
  | failed (e : AuthException) : Responds t (.error e, ⟨c.users, t⟩)
  | loggedIn {email password : String} {user : User} (hc : c.request = .login email password)
      (huser : c.users.find User.email email = some user) (hfree : t.Free (c.row env user.id)) :
      Responds t (.ok (newResponse env.settings env.jwt c.readings user.id user.role),
        ⟨c.users, t.put (c.row env user.id)⟩)
  | refreshed {refreshToken userId : String} {stored : RefreshToken} {user : User}
      (hc : c.request = .refresh refreshToken)
      (h : Redeems env.hashRefreshToken env.jwt c.readings refreshToken ⟨c.users, t⟩ stored userId
        user)
      (hfree : t.Free (c.row env userId)) :
      Responds t (.ok (newResponse env.settings env.jwt c.readings userId user.role),
        ⟨c.users, rotated c.readings ⟨c.users, t⟩ stored (c.row env userId)⟩)

theorem responds (t : RefreshTokenTable) : c.Responds env t (c.result env t) := by
  cases hc : c.request with
  | login email password =>
    simp only [result, prog, hc, login_run]
    cases hadmitted : admittedUser env.verifyPassword email password ⟨c.users, t⟩ with
    | error e => exact Responds.failed e
    | ok user =>
      by_cases hfree : t.Free (c.row env user.id)
      · simp only [Prog.concluded]
        rw [if_pos hfree]
        exact Responds.loggedIn hc (admittedUser_eq_ok.mp hadmitted).1 hfree
      · simp only [Prog.concluded]
        rw [if_neg hfree]
        exact Responds.failed _
  | refresh refreshToken =>
    simp only [result, prog, hc, refresh_run]
    cases hadmitted : admittedToken env.hashRefreshToken env.jwt c.readings refreshToken
        ⟨c.users, t⟩ with
    | error e => exact Responds.failed _
    | ok r =>
      obtain ⟨stored, userId, user⟩ := r
      by_cases hfree : t.Free (c.row env userId)
      · simp only
        rw [if_pos hfree]
        exact Responds.refreshed hc (admittedToken_eq_ok.mp hadmitted) hfree
      · simp only
        rw [if_neg hfree]
        exact Responds.failed _

end Call

namespace Entry

def Issued (e : Entry) (token : String) : Prop :=
  ∃ r, e.outcome = .ok r ∧ r.refreshToken = token

def Redeemed (e : Entry) (token : String) : Prop :=
  e.call.request = .refresh token ∧ ∃ r, e.outcome = .ok r

def loggedIn (e : Entry) : Option String :=
  match e.call.request, e.outcome with
  | .login email _, .ok _ => (e.call.users.find User.email email).map User.id
  | _, _ => none

end Entry

namespace State

def start : State := ⟨Table.empty, []⟩

variable (s : State)

def Issued (token : String) : Prop := ∃ e ∈ s.history, e.Issued token

def Redeemed (token : String) : Prop := ∃ e ∈ s.history, e.Redeemed token

def unused (userId : String) : Nat :=
  s.refreshTokens.rows.countP fun t => t.userId = userId ∧ t.isUsed = false

def logins (userId : String) : Nat :=
  s.history.countP fun e => e.loggedIn = some userId

end State

namespace State

variable {s : State} {t : RefreshTokenTable} {e : Entry}

theorem issued_after {token : String} :
    (s.after t e).Issued token ↔ s.Issued token ∨ e.Issued token := by
  simp [Issued, after, or_and_right, exists_or]

theorem redeemed_after {token : String} :
    (s.after t e).Redeemed token ↔ s.Redeemed token ∨ e.Redeemed token := by
  simp [Redeemed, after, or_and_right, exists_or]

theorem logins_after {userId : String} :
    (s.after t e).logins userId = s.logins userId + if e.loggedIn = some userId then 1 else 0 := by
  simp [logins, after, List.countP_append, List.countP_singleton]

end State

def InPlay (calls : List Call) (token : String) : Prop :=
  ∃ c ∈ calls, c.request = .refresh token ∨ ∃ userId, token = c.newToken env userId

/-- JWTs decode to what was encoded, random ids never repeat, and the hash tells the
tokens in play apart. -/
structure Assumed (calls : List Call) : Prop where
  decodes : ∀ c ∈ calls, ∀ userId,
    env.jwt.decode (env.jwt.encode (refreshClaims env.settings c.readings userId)) =
      some (refreshClaims env.settings c.readings userId)
  jti : (calls.map fun c => c.readings.jti).Nodup
  newTokenId : (calls.map fun c => c.readings.newTokenId).Nodup
  hash : ∀ token token', InPlay env calls token → InPlay env calls token' →
    env.hashRefreshToken token = env.hashRefreshToken token' → token = token'

theorem Assumed.decode_newToken {env : Environment} {calls : List Call} (h : Assumed env calls)
    {c : Call} (hc : c ∈ calls) (userId : String) : env.jwt.decode (c.newToken env userId) =
      some (refreshClaims env.settings c.readings userId) := h.decodes c hc userId

structure Backs (s : State) (row : RefreshToken) (e : Entry) (token : String) : Prop where
  mem : e ∈ s.history
  issued : e.Issued token
  created : token = e.call.newToken env row.userId
  id : row.id = e.call.readings.newTokenId
  hash : row.tokenHash = env.hashRefreshToken token
  used : row.isUsed = true ↔ s.Redeemed token
  rotation : row.isUsed = false → row.rotationCount = 0

/-- Rows and returned tokens correspond. -/
structure Inv (s : State) : Prop where
  rows : ∀ row ∈ s.refreshTokens.rows, ∃ e token, Backs env s row e token
  issued : ∀ token, s.Issued token →
    ∃ row ∈ s.refreshTokens.rows, row.tokenHash = env.hashRefreshToken token
  redeemed : ∀ token, s.Redeemed token → s.Issued token
  count : ∀ userId, s.unused userId = s.logins userId

structure Fresh (calls : List Call) (c : Call) (s : State) : Prop where
  mem : c ∈ calls
  past : ∀ e ∈ s.history, e.call ∈ calls
  jti : ∀ e ∈ s.history, e.call.readings.jti ≠ c.readings.jti
  newTokenId : ∀ e ∈ s.history, e.call.readings.newTokenId ≠ c.readings.newTokenId

section

variable {env} {calls : List Call} {c : Call} {s : State}

theorem Assumed.newToken_ne (h : Assumed env calls) (hc : Fresh calls c s) {e : Entry}
    (he : e ∈ s.history) (userId userId' : String) :
    e.call.newToken env userId ≠ c.newToken env userId' := by
  intro heq
  have hdecoded := h.decode_newToken (hc.past e he) userId
  rw [heq, h.decode_newToken hc.mem] at hdecoded
  have hclaims := Option.some.inj hdecoded
  have hjti : some c.readings.jti = some e.call.readings.jti := congrArg Claims.jti hclaims
  exact hc.jti e he (Option.some.inj hjti).symm

theorem inPlay_newToken (hc : c ∈ calls) (userId : String) :
    InPlay env calls (c.newToken env userId) := ⟨c, hc, Or.inr ⟨userId, rfl⟩⟩

theorem Backs.inPlay {row : RefreshToken} {e : Entry} {token : String}
    (hb : Backs env s row e token) (hc : Fresh calls c s) : InPlay env calls token := by
  rw [hb.created]
  exact inPlay_newToken (hc.past e hb.mem) _

theorem Fresh.newToken_hash_ne (hc : Fresh calls c s) (h : Assumed env calls) {row : RefreshToken}
    {e : Entry} {token : String} (hb : Backs env s row e token) (userId : String) :
    row.tokenHash ≠ env.hashRefreshToken (c.newToken env userId) := by
  intro heq
  rw [hb.hash] at heq
  have htoken := h.hash _ _ (hb.inPlay hc) (inPlay_newToken hc.mem userId) heq
  rw [hb.created] at htoken
  exact h.newToken_ne hc hb.mem _ _ htoken

theorem Inv.free (hs : Inv env s) (h : Assumed env calls) (hc : Fresh calls c s)
    (userId : String) : s.refreshTokens.Free (c.row env userId) := by
  intro f hf hmem
  obtain ⟨row, hrow, heq⟩ := Multiset.mem_map.mp hmem
  obtain ⟨e, token, hb⟩ := hs.rows row hrow
  obtain rfl | rfl : f = RefreshToken.id ∨ f = RefreshToken.tokenHash := by simpa using hf
  · exact hc.newTokenId e hb.mem (hb.id.symm.trans heq)
  · exact hc.newToken_hash_ne h hb userId heq

theorem Inv.not_issued_newToken (hs : Inv env s) (h : Assumed env calls) (hc : Fresh calls c s)
    (userId : String) : ¬ s.Issued (c.newToken env userId) := by
  intro hissued
  obtain ⟨row, hrow, hhash⟩ := hs.issued _ hissued
  obtain ⟨e, token, hb⟩ := hs.rows row hrow
  exact hc.newToken_hash_ne h hb userId hhash

theorem Backs.after {row : RefreshToken} {e e' : Entry} {token : String}
    (hb : Backs env s row e token) (t : RefreshTokenTable) (he : ¬ e'.Redeemed token) :
    Backs env (s.after t e') row e token where
  mem := List.mem_append_left _ hb.mem
  issued := hb.issued
  created := hb.created
  id := hb.id
  hash := hb.hash
  used := by rw [hb.used, State.redeemed_after, or_iff_left he]
  rotation := hb.rotation

theorem Inv.failed (hs : Inv env s) (error : AuthException) :
    Inv env (s.after s.refreshTokens ⟨c, .error error⟩) := by
  have hissued : ∀ token, ¬ (⟨c, .error error⟩ : Entry).Issued token := by
    rintro token ⟨r, h, -⟩
    cases h
  have hredeemed : ∀ token, ¬ (⟨c, .error error⟩ : Entry).Redeemed token := by
    rintro token ⟨-, r, h⟩
    cases h
  constructor
  · intro row hrow
    obtain ⟨e, token, hb⟩ := hs.rows row hrow
    exact ⟨e, token, hb.after _ (hredeemed token)⟩
  · intro token h
    exact hs.issued token ((State.issued_after.mp h).resolve_right (hissued token))
  · intro token h
    exact State.issued_after.mpr
      (Or.inl (hs.redeemed token ((State.redeemed_after.mp h).resolve_right (hredeemed token))))
  · intro userId
    have hlogin : (⟨c, .error error⟩ : Entry).loggedIn = none := by
      rw [Entry.loggedIn]
      cases c.request <;> rfl
    rw [State.logins_after, hlogin, if_neg (by simp), Nat.add_zero, ← hs.count userId]
    rfl

theorem Inv.returned (hs : Inv env s) (h : Assumed env calls) (hc : Fresh calls c s)
    {userId : String} {r : TokenResponse} (hr : r.refreshToken = c.newToken env userId)
    {t : RefreshTokenTable} {rows : Multiset RefreshToken}
    (hrows : t.rows = c.row env userId ::ₘ rows)
    (hold : ∀ row ∈ rows, ∃ e token, Backs env (s.after t ⟨c, .ok r⟩) row e token)
    (hkept : ∀ token, s.Issued token → ∃ row ∈ rows, row.tokenHash = env.hashRefreshToken token)
    (hredeemed : ∀ token, (⟨c, .ok r⟩ : Entry).Redeemed token → s.Issued token)
    (hcount : ∀ userId, (s.after t ⟨c, .ok r⟩).unused userId =
      (s.after t ⟨c, .ok r⟩).logins userId) : Inv env (s.after t ⟨c, .ok r⟩) := by
  have hall : ∀ token, (s.after t ⟨c, .ok r⟩).Redeemed token → s.Issued token := by
    intro token htoken
    cases State.redeemed_after.mp htoken with
    | inl hpast => exact hs.redeemed token hpast
    | inr hnow => exact hredeemed token hnow
  refine ⟨?_, ?_, fun token htoken => State.issued_after.mpr (Or.inl (hall token htoken)), hcount⟩
  · intro row hrow
    change row ∈ t.rows at hrow
    rw [hrows, Multiset.mem_cons] at hrow
    cases hrow with
    | inl heq =>
      subst heq
      refine ⟨⟨c, .ok r⟩, c.newToken env userId, ?_, ⟨r, rfl, hr⟩, rfl, rfl, rfl, ?_, fun _ => rfl⟩
      · exact List.mem_append_right _ (List.mem_singleton_self _)
      · refine iff_of_false (by simp [newRow, RefreshToken.isUsed]) fun htoken => ?_
        exact hs.not_issued_newToken h hc userId (hall _ htoken)
    | inr hrest => exact hold row hrest
  · intro token htoken
    cases State.issued_after.mp htoken with
    | inl hpast =>
      obtain ⟨row, hrow, hhash⟩ := hkept token hpast
      refine ⟨row, ?_, hhash⟩
      change row ∈ t.rows
      rw [hrows]
      exact Multiset.mem_cons_of_mem hrow
    | inr hnow =>
      obtain ⟨r', hr', htoken'⟩ := hnow
      cases hr'
      refine ⟨c.row env userId, ?_, ?_⟩
      · change _ ∈ t.rows
        rw [hrows]
        exact Multiset.mem_cons_self _ _
      · rw [← htoken', hr]
        rfl

theorem unused_cons {t : RefreshTokenTable} {e : Entry} {row : RefreshToken}
    {rows : Multiset RefreshToken} (h : t.rows = row ::ₘ rows) (userId : String) :
    (s.after t e).unused userId = rows.countP (fun t => t.userId = userId ∧ t.isUsed = false) +
      if row.userId = userId ∧ row.isUsed = false then 1 else 0 := by
  rw [State.unused]
  change t.rows.countP _ = _
  rw [h, Multiset.countP_cons]

theorem Inv.loggedIn (hs : Inv env s) (h : Assumed env calls) (hc : Fresh calls c s)
    {email password : String} {user : User} (hreq : c.request = .login email password)
    (huser : c.users.find User.email email = some user) :
    Inv env (s.after (s.refreshTokens.put (c.row env user.id))
      ⟨c, .ok (newResponse env.settings env.jwt c.readings user.id user.role)⟩) := by
  have hrows := s.refreshTokens.put_rows_of_free (hs.free h hc user.id)
  have hredeemed : ∀ r token, ¬ (⟨c, .ok r⟩ : Entry).Redeemed token := by
    rintro r token ⟨hrefresh, -⟩
    rw [hreq] at hrefresh
    cases hrefresh
  refine hs.returned h hc rfl hrows ?_ hs.issued (fun token ht => absurd ht (hredeemed _ token)) ?_
  · intro row hrow
    obtain ⟨e, token, hb⟩ := hs.rows row hrow
    exact ⟨e, token, hb.after _ (hredeemed _ token)⟩
  · intro userId
    have hlogin : (⟨c, .ok (newResponse env.settings env.jwt c.readings user.id user.role)⟩ :
        Entry).loggedIn = some user.id := by
      simp only [Entry.loggedIn, hreq, huser, Option.map_some]
    rw [State.logins_after, hlogin, unused_cons hrows, ← hs.count userId]
    simp [State.unused, newRow, RefreshToken.isUsed]

theorem rotated_rows (readings : Readings) {d : AuthDatabase} {stored row : RefreshToken}
    (hstored : stored ∈ d.refreshTokens.rows) (hfree : d.refreshTokens.Free row) :
    ∃ rest, d.refreshTokens.rows = stored ::ₘ rest ∧
      (∀ x ∈ rest, x.tokenHash ≠ stored.tokenHash) ∧
      (rotated readings d stored row).rows =
        row ::ₘ stored.used readings.now (stored.rotationCount + 1) ::ₘ rest := by
  obtain ⟨rest, hrest⟩ := Multiset.exists_cons_of_mem hstored
  have hkeeps := RefreshToken.used_keeps readings.now (stored.rotationCount + 1)
  refine ⟨rest, hrest, d.refreshTokens.key_ne (by simp) hrest, ?_⟩
  have hmarked := d.refreshTokens.modify_rows_of_cons hkeeps (f := RefreshToken.id) (by simp) hrest
    rfl
  rw [rotated, RefreshTokenTable.markAsUsed]
  rw [Table.put_rows_of_free _ ((d.refreshTokens.free_modify hkeeps row).mpr hfree), hmarked]

theorem Inv.redeems (hs : Inv env s) (h : Assumed env calls) (hc : Fresh calls c s)
    {token userId : String} {stored : RefreshToken} {user : User}
    (hreq : c.request = .refresh token)
    (hr : Redeems env.hashRefreshToken env.jwt c.readings token ⟨c.users, s.refreshTokens⟩ stored
      userId user) :
    stored ∈ s.refreshTokens.rows ∧ stored.userId = userId ∧ ∃ e, Backs env s stored e token := by
  obtain ⟨hmem, hhash⟩ := (s.refreshTokens.find_eq_some (by simp)).mp hr.found
  obtain ⟨e, token', hb⟩ := hs.rows stored hmem
  have htoken : token' = token :=
    h.hash token' token (hb.inPlay hc) ⟨c, hc.mem, Or.inl hreq⟩ (hb.hash.symm.trans hhash)
  subst htoken
  refine ⟨hmem, ?_, e, hb⟩
  have hdecoded := h.decode_newToken (hc.past e hb.mem) stored.userId
  rw [← hb.created] at hdecoded
  have hverified := hr.verified
  rw [verifyRefreshToken_of_decode hdecoded] at hverified
  split at hverified
  · cases hverified
  · exact Except.ok.inj hverified

theorem Inv.refreshed (hs : Inv env s) (h : Assumed env calls) (hc : Fresh calls c s)
    {token userId : String} {stored : RefreshToken} {user : User}
    (hreq : c.request = .refresh token)
    (hr : Redeems env.hashRefreshToken env.jwt c.readings token ⟨c.users, s.refreshTokens⟩ stored
      userId user) :
    Inv env (s.after (rotated c.readings ⟨c.users, s.refreshTokens⟩ stored (c.row env userId))
      ⟨c, .ok (newResponse env.settings env.jwt c.readings userId user.role)⟩) := by
  obtain ⟨hmem, huserId, e, hb⟩ := hs.redeems h hc hreq hr
  obtain ⟨rest, hrest, hne, hrows⟩ := rotated_rows c.readings (d := ⟨c.users, s.refreshTokens⟩) hmem
    (hs.free h hc userId)
  change s.refreshTokens.rows = _ at hrest
  have hredeemed : ∀ r token', (⟨c, .ok r⟩ : Entry).Redeemed token' ↔ token' = token := by
    intro r token'
    apply (and_iff_left ⟨r, rfl⟩).trans
    change c.request = .refresh token' ↔ _
    rw [hreq, Request.refresh.injEq, eq_comm]
  refine hs.returned h hc rfl hrows ?_ ?_ ?_ ?_
  · intro row hrow
    cases Multiset.mem_cons.mp hrow with
    | inl heq =>
      subst heq
      refine ⟨e, token, List.mem_append_left _ hb.mem, hb.issued, hb.created, hb.id, hb.hash, ?_,
        fun hused => by cases hused⟩
      exact iff_of_true rfl (State.redeemed_after.mpr (Or.inr ((hredeemed _ _).mpr rfl)))
    | inr hold =>
      have hrow' : row ∈ s.refreshTokens.rows := by
        rw [hrest]
        exact Multiset.mem_cons_of_mem hold
      obtain ⟨e', token', hb'⟩ := hs.rows row hrow'
      refine ⟨e', token', hb'.after _ fun hnow => hne row hold ?_⟩
      rw [hb'.hash, hb.hash, (hredeemed _ _).mp hnow]
  · intro token' htoken'
    obtain ⟨row, hrow, hhash⟩ := hs.issued token' htoken'
    rw [hrest] at hrow
    cases Multiset.mem_cons.mp hrow with
    | inl heq =>
      subst heq
      exact ⟨_, Multiset.mem_cons_self _ _, hhash⟩
    | inr hold => exact ⟨row, Multiset.mem_cons_of_mem hold, hhash⟩
  · intro token' htoken'
    rw [(hredeemed _ _).mp htoken']
    exact ⟨e, hb.mem, hb.issued⟩
  · intro userId'
    have hlogin : (⟨c, .ok (newResponse env.settings env.jwt c.readings userId user.role)⟩ :
        Entry).loggedIn = none := by
      simp only [Entry.loggedIn, hreq]
    have hunused : stored.isUsed = false := hr.unused
    rw [State.logins_after, hlogin, if_neg (by simp), Nat.add_zero, ← hs.count userId',
      unused_cons hrows]
    have hbefore : s.unused userId' =
        rest.countP (fun t => t.userId = userId' ∧ t.isUsed = false) +
          if stored.userId = userId' ∧ stored.isUsed = false then 1 else 0 := by
      rw [State.unused]
      rw [hrest, Multiset.countP_cons]
    have hnew : (c.row env userId).isUsed = false := rfl
    have hused : (stored.used c.readings.now (stored.rotationCount + 1)).isUsed = true := rfl
    rw [hbefore, Multiset.countP_cons, hunused, hnew, hused, huserId]
    simp [newRow]

theorem Inv.exec (hs : Inv env s) (h : Assumed env calls) (hc : Fresh calls c s) :
    Inv env (c.exec env s) := by
  have hresult := c.responds env s.refreshTokens
  rw [Call.exec]
  generalize c.result env s.refreshTokens = result at hresult ⊢
  cases hresult with
  | failed e => exact hs.failed e
  | loggedIn hreq huser hfree => exact hs.loggedIn h hc hreq huser
  | refreshed hreq hr hfree => exact hs.refreshed h hc hreq hr

theorem Inv.start : Inv env State.start where
  rows := by simp [State.start, Table.empty]
  issued := by simp [State.start, State.Issued]
  redeemed := by simp [State.start, State.Redeemed]
  count := by simp [State.start, State.unused, State.logins, Table.empty]

theorem history_run (calls : List Call) :
    (run (Call.exec env) calls State.start).history.map Entry.call = calls := by
  induction calls using List.reverseRecOn with
  | nil => rfl
  | append_singleton calls c ih =>
    rw [run_append, run_singleton]
    change ((run (Call.exec env) calls State.start).history ++ [_]).map Entry.call = _
    rw [List.map_append, ih]
    rfl

theorem Assumed.fresh (h : Assumed env calls) {pre : List Call} (hpre : pre ++ [c] <+: calls) :
    Fresh calls c (run (Call.exec env) pre State.start) := by
  have hcall : ∀ e ∈ (run (Call.exec env) pre State.start).history, e.call ∈ pre := by
    intro e he
    have hmem := List.mem_map_of_mem (f := Entry.call) he
    rwa [history_run] at hmem
  have hnodup : ∀ f : Readings → String, (calls.map fun c => f c.readings).Nodup →
      ∀ c' ∈ pre, f c'.readings ≠ f c.readings := by
    intro f hf c' hc' heq
    have hsub := hf.sublist (hpre.sublist.map _)
    rw [List.map_append, List.nodup_append] at hsub
    exact hsub.2.2 _ (List.mem_map_of_mem hc') _ (List.mem_singleton_self _) heq
  exact ⟨hpre.subset (List.mem_append_right _ (List.mem_singleton_self _)),
    fun e he => hpre.subset (List.mem_append_left _ (hcall e he)),
    fun e he => hnodup Readings.jti h.jti _ (hcall e he),
    fun e he => hnodup Readings.newTokenId h.newTokenId _ (hcall e he)⟩

end

section

variable {env} {calls : List Call} {c : Call} {s : State}

theorem Backs.decodes {row : RefreshToken} {e : Entry} {token : String}
    (hb : Backs env s row e token) (h : Assumed env calls) (hc : Fresh calls c s) :
    env.jwt.decode token = some (refreshClaims env.settings e.call.readings row.userId) := by
  have hdecoded := h.decode_newToken (hc.past e hb.mem) row.userId
  rwa [← hb.created] at hdecoded

end

def oneMinute : Settings := ⟨60000000, 60000000⟩

def drawnAt (second : Nat) : Readings :=
  ⟨second * 1000000, second * 1000000, second * 1000000, second * 1000000, toString second,
    toString second⟩

end ClickNBack.Auth
