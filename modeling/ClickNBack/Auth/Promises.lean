import ClickNBack.Auth.Rotation
import ClickNBack.Relational.Persistence

namespace ClickNBack.Auth

open Relational ReadCommitted Prog

/-- Of a stored token only its use is recorded. -/
def RefreshToken.Becomes (t t' : RefreshToken) : Prop :=
  ∃ usedAt rotationCount, t' = { t with usedAt, rotationCount } ∧ (t.isUsed → t'.isUsed)

theorem RefreshToken.Becomes.refl (t : RefreshToken) : t.Becomes t :=
  ⟨t.usedAt, t.rotationCount, rfl, fun hused => hused⟩

theorem RefreshToken.Becomes.trans {t t' t'' : RefreshToken} (h : t.Becomes t')
    (h' : t'.Becomes t'') : t.Becomes t'' := by
  obtain ⟨a, n, rfl, hused⟩ := h
  obtain ⟨a', n', rfl, hused'⟩ := h'
  exact ⟨a', n', rfl, hused' ∘ hused⟩

theorem RefreshToken.used_becomes (usedAt rotationCount : Nat) (t : RefreshToken) :
    t.Becomes (t.used usedAt rotationCount) := ⟨some usedAt, rotationCount, rfl, fun _ => rfl⟩

structure Later (d d' : AuthDatabase) : Prop where
  users : d.users.Evolves Eq d'.users
  refreshTokens : d.refreshTokens.Evolves RefreshToken.Becomes d'.refreshTokens

theorem Later.trans {d d' d'' : AuthDatabase} (h : Later d d') (h' : Later d' d'') :
    Later d d'' where
  users := h.users.trans (fun _ _ _ hu hu' => hu.trans hu') h'.users
  refreshTokens := h.refreshTokens.trans (fun _ _ _ ht ht' => ht.trans ht') h'.refreshTokens

def Sql.keys : Sql → List LockKey
  | .markAsUsed .. => []
  | .insertToken row => [.token row.id, .tokenHash row.tokenHash]

def Taken (d : AuthDatabase) : LockKey → Prop
  | .token id => id ∈ d.refreshTokens.rows.map RefreshToken.id
  | .tokenHash tokenHash => tokenHash ∈ d.refreshTokens.rows.map RefreshToken.tokenHash

theorem exec_insertToken {row : RefreshToken} {d d' : AuthDatabase} :
    Statement.exec (Sql.insertToken row) d = .ok d' ↔
      ∃ t, d.refreshTokens.insert row = some t ∧ d' = { d with refreshTokens := t } := by
  simp only [Statement.exec, Sql.exec]
  cases d.refreshTokens.insert row <;> simp [eq_comm]

theorem uniqueKeys : UniqueKeys Sql.keys (fun _ => []) Taken where
  locks s d := by
    cases s with
    | markAsUsed => exact List.nil_subset _
    | insertToken row => exact List.Subset.refl _
  ok_iff s d := by
    cases s with
    | markAsUsed => exact iff_of_true ⟨_, rfl⟩ (by simp [Sql.keys])
    | insertToken row =>
      simp only [exec_insertToken, Table.exists_insert]
      simp [Table.Free, Sql.keys, Taken]
  taken_of_ok s d d' h k := by
    cases s with
    | insertToken row =>
      obtain ⟨t, ht, rfl⟩ := exec_insertToken.mp h
      obtain ⟨-, hrows⟩ := d.refreshTokens.insert_eq_some ht
      cases k <;> simp [Taken, Sql.keys, hrows, or_comm, eq_comm]
    | markAsUsed id usedAt rotationCount =>
      cases h
      have hkey : ∀ {g : RefreshToken → String}, g ∈ [RefreshToken.id, RefreshToken.tokenHash] →
          (RefreshTokenTable.markAsUsed d.refreshTokens id usedAt rotationCount).rows.map g =
            d.refreshTokens.rows.map g :=
        fun hg => d.refreshTokens.map_modify (RefreshToken.used_keeps usedAt rotationCount)
          (RefreshToken.used_keeps usedAt rotationCount _ hg)
      cases k with
      | token | tokenHash =>
        simp only [Taken, Sql.keys, List.not_mem_nil, or_false]
        rw [hkey (by simp)]

theorem insertToken_rows {row : RefreshToken} {d : AuthDatabase}
    (h : Runs [Sql.insertToken row] d) :
    (replay [Sql.insertToken row] d).refreshTokens.rows = row ::ₘ d.refreshTokens.rows := by
  obtain ⟨d', hexec, -⟩ := h
  obtain ⟨t, ht, rfl⟩ := exec_insertToken.mp hexec
  rw [replay_cons, replay_nil, apply_of_ok hexec]
  exact (Table.insert_eq_some _ ht).2

theorem rotation_rows {id : String} {usedAt rotationCount : Nat} {row : RefreshToken}
    {d : AuthDatabase} (h : Runs [Sql.markAsUsed id usedAt rotationCount, .insertToken row] d) :
    (replay [Sql.markAsUsed id usedAt rotationCount, .insertToken row] d).refreshTokens.rows =
      row ::ₘ (RefreshTokenTable.markAsUsed d.refreshTokens id usedAt rotationCount).rows := by
  obtain ⟨d', hmark, hrest⟩ := h
  cases hmark
  exact insertToken_rows hrest

section

variable (hashRefreshToken : String → String) (provider : TokenProvider) (now : Nat)
  (newTokenId : String)

def Issues (row : RefreshToken) (userId : String) : Prop :=
  ∃ token, provider.createRefreshToken userId = .ok token ∧
    row = ⟨newTokenId, userId, hashRefreshToken token, now, now + provider.refreshTtl, none, 0⟩

/-- What a login may commit: a token of the user who has the email and the password. -/
def Login (verifyPassword : String → String → Bool) (email password : String) (log : List Sql)
    (d : AuthDatabase) : Prop :=
  ∃ u ∈ d.users.rows, u.email = email ∧ verifyPassword password u.hashedPassword = true ∧
    ∃ row, Issues hashRefreshToken provider now newTokenId row u.id ∧ log = [.insertToken row]

/-- What a refresh may commit: the use of the token that was presented, and another token
of the user that it was made for. -/
def Rotation (refreshToken : String) (log : List Sql) (d : AuthDatabase) : Prop :=
  ∃ u ∈ d.users.rows, provider.verifyRefreshToken refreshToken = .ok u.id ∧
    ∃ t ∈ d.refreshTokens.rows, t.tokenHash = hashRefreshToken refreshToken ∧
    ∃ row rotationCount, Issues hashRefreshToken provider now newTokenId row u.id ∧
      log = [.markAsUsed t.id now rotationCount, .insertToken row]

theorem Later.user {d d' : AuthDatabase} (h : Later d d') {u : User} (hu : u ∈ d.users.rows) :
    u ∈ d'.users.rows := by
  obtain ⟨u', hu', rfl⟩ := h.users u hu
  exact hu'

theorem login_abides (verifyPassword : String → String → Bool) (email password : String)
    (d : AuthDatabase) :
    (login hashRefreshToken verifyPassword provider now newTokenId email password).Abides
      (fun _ => True) Later
      (Login hashRefreshToken provider now newTokenId verifyPassword email password) d [] := by
  rw [login, getUserByEmail_eq]
  refine abides_query_bind fun d₁ _ _ _ => abides_lift_bind fun u hu => ?_
  refine abides_lift_bind fun _ hpassword => abides_lift_bind fun _ _ => ?_
  rw [replay_nil] at hu
  obtain ⟨hmem, hemail⟩ : u ∈ d₁.users.rows ∧ u.email = email := by
    cases hfind : d₁.users.find User.email email with
    | none =>
      rw [hfind] at hu
      cases hu
    | some u' =>
      rw [hfind] at hu
      cases hu
      exact (Table.find_eq_some _ (by simp)).mp hfind
  have hverified : verifyPassword password u.hashedPassword = true := by
    by_contra hne
    rw [enforcePasswordValid, if_pos hne] at hpassword
    cases hpassword
  rw [createRefreshTokenRecord, bind_assoc]
  refine abides_lift_bind fun token htoken => ?_
  rw [RefreshTokenRepository.create, bind_assoc]
  apply abides_execute_bind
  refine abides_commitTx_bind fun d' _ hlater _ => ⟨?_, fun _ _ => trivial⟩
  exact ⟨u, hlater.user hmem, hemail, hverified, _, ⟨token, htoken, rfl⟩, rfl⟩

theorem rotate_abides (refreshToken : String) (d : AuthDatabase) :
    (rotate hashRefreshToken provider now newTokenId refreshToken).Abides (fun _ => True) Later
      (Rotation hashRefreshToken provider now newTokenId refreshToken) d [] := by
  rw [rotate]
  refine abides_lift_bind fun userId huserId => ?_
  rw [getByHash_eq]
  refine abides_query_bind fun d₁ _ _ _ => abides_lift_bind fun t ht => ?_
  refine abides_lift_bind fun _ _ => abides_lift_bind fun _ _ => ?_
  rw [replay_nil] at ht
  obtain ⟨hmem, hhash⟩ : t ∈ d₁.refreshTokens.rows ∧
      t.tokenHash = hashRefreshToken refreshToken := by
    cases hfind : d₁.refreshTokens.find RefreshToken.tokenHash (hashRefreshToken refreshToken) with
    | none =>
      rw [hfind] at ht
      cases ht
    | some t' =>
      rw [hfind] at ht
      cases ht
      exact (Table.find_eq_some _ (by simp)).mp hfind
  rw [RefreshTokenRepository.markAsUsed, getById_eq, bind_assoc]
  refine abides_query_bind fun d₂ _ h₂ _ => ?_
  -- the row is still there, so that its use is recorded
  obtain ⟨t₂, hmem₂, usedAt, rotationCount, ht₂, -⟩ := h₂.refreshTokens t hmem
  have hfind : d₂.refreshTokens.find RefreshToken.id t.id = some t₂ :=
    (Table.find_eq_some _ (by simp)).mpr ⟨hmem₂, by rw [ht₂]⟩
  rw [replay_nil, hfind]
  apply abides_execute_bind
  rw [getUserById_eq]
  refine abides_query_bind fun d₃ _ h₃ _ => abides_lift_bind fun u hu => ?_
  obtain ⟨hmemu, hid⟩ : u ∈ d₃.users.rows ∧ u.id = userId := by
    change enforceUserExistsForRefresh (d₃.users.find User.id userId) = .ok u at hu
    cases hfind : d₃.users.find User.id userId with
    | none =>
      rw [hfind] at hu
      cases hu
    | some u' =>
      rw [hfind] at hu
      cases hu
      exact (Table.find_eq_some _ (by simp)).mp hfind
  subst hid
  refine abides_lift_bind fun _ _ => ?_
  rw [createRefreshTokenRecord, bind_assoc]
  refine abides_lift_bind fun token htoken => ?_
  rw [RefreshTokenRepository.create, bind_assoc]
  apply abides_execute_bind
  refine abides_commitTx_bind fun d' _ hlater _ => ⟨?_, fun _ _ => trivial⟩
  obtain ⟨t', hmem', usedAt', rotationCount', ht', -⟩ :=
    (h₂.trans (h₃.trans hlater)).refreshTokens t hmem
  refine ⟨u, hlater.user hmemu, huserId, t', hmem', ?_, _, t.rotationCount + 1,
    ⟨token, htoken, rfl⟩, ?_⟩
  · rw [ht']
    exact hhash
  · rw [ht']
    rfl

theorem refresh_abides (refreshToken : String) (d : AuthDatabase) :
    (refresh hashRefreshToken provider now newTokenId refreshToken).Abides (fun _ => True) Later
      (Rotation hashRefreshToken provider now newTokenId refreshToken) d [] := by
  rw [refresh]
  exact (rotate_abides hashRefreshToken provider now newTokenId refreshToken d).tryCatch
    failRefresh_raises

end

end ClickNBack.Auth
