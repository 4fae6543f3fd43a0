import ClickNBack.Auth.Calls
import ClickNBack.ReadCommitted.SingleUse

namespace ClickNBack.Auth

open Relational ReadCommitted Prog

def Used (tokenHash : String) (d : AuthDatabase) : Prop :=
  ∃ t, d.refreshTokens.find RefreshToken.tokenHash tokenHash = some t ∧ t.isUsed

section

variable (hashRefreshToken : String → String) (provider : TokenProvider) (now : Nat)
  (newTokenId refreshToken : String)

theorem failRefresh_raises (e : AuthException) : ∃ e', failRefresh e = .raise e' := by
  cases e <;> exact ⟨_, rfl⟩

theorem markAsUsed_final {β : Type} (t : RefreshToken) (usedAt : Nat) {f : Unit → Coroutine β}
    (h : (f ()).Final) : (RefreshTokenRepository.markAsUsed t usedAt >>= f).Final := by
  rw [RefreshTokenRepository.markAsUsed]
  rw [bind_assoc, getById_eq]
  refine final_query_bind fun r => ?_
  cases r with
  | none => exact h
  | some _ => exact final_execute_bind h

theorem refresh_final :
    (refresh hashRefreshToken provider now newTokenId refreshToken).Final := by
  refine Final.tryCatch ?_ failRefresh_raises
  rw [rotate]
  refine final_lift_bind fun userId => ?_
  rw [getByHash_eq]
  refine final_query_bind fun _ => final_lift_bind fun _ => final_lift_bind fun _ => ?_
  refine final_lift_bind fun _ => markAsUsed_final _ _ ?_
  rw [getUserById_eq]
  refine final_query_bind fun _ => final_lift_bind fun _ => final_lift_bind fun _ => ?_
  simp only [createRefreshTokenRecord, RefreshTokenRepository.create, bind_assoc, pure_bind]
  exact final_lift_bind fun _ => final_execute_bind (final_commit _)

theorem raises_lift_bind {α : Type} {x : Except AuthException α} {f : α → Coroutine TokenResponse}
    (h : ∀ a, x = .ok a → ∃ e, tryCatch (f a) failRefresh = .raise e) :
    ∃ e, tryCatch (lift x >>= f) failRefresh = .raise e := by
  cases x with
  | error e => exact failRefresh_raises e
  | ok a => exact h a rfl

theorem refresh_first :
    (∃ e, refresh hashRefreshToken provider now newTokenId refreshToken = .raise e) ∨
      ∃ k, refresh hashRefreshToken provider now newTokenId refreshToken = .select k ∧
        ∀ d, Used (hashRefreshToken refreshToken) d → ∃ e, k d = .raise e := by
  rw [refresh, rotate]
  cases provider.verifyRefreshToken refreshToken with
  | error e => exact Or.inl (failRefresh_raises e)
  | ok userId =>
    rw [lift_ok, pure_bind, getByHash_eq]
    refine Or.inr ⟨_, rfl, ?_⟩
    rintro d ⟨t, ht, hused⟩
    change ∃ e, tryCatch (lift (enforceRefreshTokenExists (d.refreshTokens.find _ _)) >>= _)
      failRefresh = .raise e
    rw [ht]
    refine raises_lift_bind fun t' ht' => raises_lift_bind fun _ _ => ?_
    cases ht'
    refine raises_lift_bind fun _ hunused => ?_
    simp [enforceRefreshTokenNotUsed, hused] at hunused

variable {hashRefreshToken provider now newTokenId refreshToken}

theorem markAsUsed_returns {β : Type} {P : β → AuthDatabase → Prop} {d : AuthDatabase}
    {t : RefreshToken} (ht : t ∈ d.refreshTokens.rows) {usedAt : Nat} {f : Unit → Coroutine β}
    (h : (f ()).Returns P d [.markAsUsed t.id usedAt (t.rotationCount + 1)]) :
    (RefreshTokenRepository.markAsUsed t usedAt >>= f).Returns P d [] := by
  have hfind : d.refreshTokens.find RefreshToken.id t.id = some t :=
    (d.refreshTokens.find_eq_some (by simp)).mpr ⟨ht, rfl⟩
  rw [RefreshTokenRepository.markAsUsed]
  rw [bind_assoc, getById_eq]
  apply returns_query_bind
  rw [replay_nil, hfind]
  exact returns_execute_bind fun _ _ => h

theorem used_of_rotated {d d' : AuthDatabase} {t row : RefreshToken} {usedAt count : Nat}
    (ht : t ∈ d.refreshTokens.rows)
    (h : Statement.exec (Sql.insertToken row) (replay [Sql.markAsUsed t.id usedAt count] d) =
      .ok d') :
    Used t.tokenHash d' ∧ d'.refreshTokens.rows.card = d.refreshTokens.rows.card + 1 := by
  obtain ⟨hfree, hrows⟩ := Table.insert_eq_some _ (Sql.insert_of_exec_insertToken h)
  have hmarked : t.used usedAt count ∈
      (d.refreshTokens.markAsUsed t.id usedAt count).rows :=
    Multiset.mem_map.mpr ⟨t, ht, by simp⟩
  refine ⟨⟨t.used usedAt count, ?_, rfl⟩, ?_⟩
  · refine (Table.find_eq_some _ (by simp)).mpr ⟨?_, rfl⟩
    rw [hrows]
    exact Multiset.mem_cons_of_mem hmarked
  · rw [hrows, Multiset.card_cons]
    exact congrArg (· + 1) (Multiset.card_map _ _)

theorem refresh_returns {d : AuthDatabase} :
    (refresh hashRefreshToken provider now newTokenId refreshToken).Returns
      (fun _ d' => Used (hashRefreshToken refreshToken) d' ∧
        d'.refreshTokens.rows.card = d.refreshTokens.rows.card + 1) d [] := by
  refine Returns.tryCatch ?_ failRefresh_raises
  rw [rotate]
  refine returns_lift_bind fun userId _ => ?_
  rw [getByHash_eq]
  refine returns_query_bind (returns_lift_bind fun t ht => ?_)
  obtain ⟨hmem, hhash⟩ := (d.refreshTokens.find_eq_some (by simp)).mp
    (enforceRefreshTokenExists_eq_ok ht)
  refine returns_lift_bind fun _ _ => returns_lift_bind fun _ _ => markAsUsed_returns hmem ?_
  rw [getUserById_eq]
  refine returns_query_bind (returns_lift_bind fun _ _ => returns_lift_bind fun _ _ => ?_)
  simp only [createRefreshTokenRecord, RefreshTokenRepository.create, bind_assoc, pure_bind]
  refine returns_lift_bind fun _ _ => returns_execute_bind fun d' hd' => returns_commit ?_
  rw [replay_snoc hd', ← hhash]
  exact used_of_rotated hmem hd'

end

section

variable {ι : Type} [DecidableEq ι] [Fintype ι] {hashRefreshToken : String → String}
  {provider : ι → TokenProvider} {now : ι → Nat} {newTokenId : ι → String} {refreshToken : String}

/-- As long as no refresh commits while another one that has read the token is
still to end, one refresh at most returns, and it adds one row. -/
theorem refresh_single_use {d₀ : AuthDatabase} {stored : RefreshToken}
    (hstored : d₀.refreshTokens.find RefreshToken.tokenHash (hashRefreshToken refreshToken) =
      some stored) (hunused : stored.isUsed = false)
    {s : Sys ι AuthDatabase Sql AuthException TokenResponse}
    (hr : Sys.Reach (Sys.NotOvertaken id) (Sys.start d₀ fun i =>
      refresh hashRefreshToken (provider i) (now i) (newTokenId i) refreshToken) s) :
    s.returned.card ≤ 1 ∧
      s.db.refreshTokens.rows.card = d₀.refreshTokens.rows.card + s.returned.card := by
  have hfresh : ¬ Used (hashRefreshToken refreshToken) d₀ := by
    rintro ⟨t, ht, hused⟩
    obtain rfl := Option.some.inj (hstored.symm.trans ht)
    simp [hunused] at hused
  have honce := Sys.single_use
    (fun i => refresh_final hashRefreshToken (provider i) (now i) (newTokenId i) refreshToken)
    (fun i => refresh_first hashRefreshToken (provider i) (now i) (newTokenId i) refreshToken)
    (fun i a d h => (refresh_returns a d h).1) hfresh hr
  obtain ⟨hdb, hnone⟩ | ⟨i, a, hrun, hone⟩ := honce
  · simp [hdb, hnone]
  · have hrows := (refresh_returns a s.db hrun).2
    simp [hone, hrows]

end

def testProvider (i : Fin 2) : TokenProvider where
  verifyRefreshToken _ := .ok "ana"
  createAccessToken userId userRole := .ok (userId ++ userRole)
  createRefreshToken userId := .ok (userId ++ toString i.val)
  refreshTtl := 60

def oldToken : RefreshToken := ⟨"t", "ana", "#old", 0, 60, none, 0⟩

def oneToken : AuthDatabase where
  users := ⟨{⟨"ana", "ana@mail", "*", "user"⟩}, by decide⟩
  refreshTokens := ⟨{oldToken}, by decide⟩

def twoRefreshes (i : Fin 2) : Coroutine TokenResponse :=
  refresh (fun s => "#" ++ s) (testProvider i) 1 (toString i.val) "old"

def twoRefreshesStart : Sys (Fin 2) AuthDatabase Sql AuthException TokenResponse :=
  Sys.start oneToken twoRefreshes

/-- The second request looks the token up after the first has committed. -/
def oneRefreshed : Sys (Fin 2) AuthDatabase Sql AuthException TokenResponse :=
  (Sys.play Sys.undisturbed [0, 0, 0, 0, 0, 0, 1] twoRefreshesStart).get (by decide +kernel)

theorem refresh_single_use_oneRefreshed :
    (∀ i, (oneRefreshed.session i).prog.Done) ∧ oneRefreshed.returned.card ≤ 1 ∧
      oneRefreshed.db.refreshTokens.rows.card =
        oneToken.refreshTokens.rows.card + oneRefreshed.returned.card :=
  ⟨by decide +kernel, refresh_single_use
    (show oneToken.refreshTokens.find RefreshToken.tokenHash "#old" = some oldToken by
      decide +kernel) rfl
    (Sys.reach_of_play (fun _ _ => Sys.notOvertaken_of_undisturbed _) Sys.Reach.refl
      (Option.some_get _).symm)⟩

/-- The two requests look the token up before either has marked it. -/
def bothRefreshed : Sys (Fin 2) AuthDatabase Sql AuthException TokenResponse :=
  (Sys.play (fun _ _ => true) [0, 1, 0, 0, 0, 0, 0, 1, 1, 1, 1, 1] twoRefreshesStart).get
    (by decide +kernel)

theorem bothRefreshed_not_single_use :
    ¬ ∀ s, Sys.Reach (fun _ _ a => a = .advance) twoRefreshesStart s →
      s.returned.card ≤ 1 ∧
        s.db.refreshTokens.rows.card ≤ oneToken.refreshTokens.rows.card + 1 := by
  intro h
  have hone := (h bothRefreshed (Sys.reach_of_play (C := fun _ _ a => a = .advance)
    (fun _ _ _ => rfl) Sys.Reach.refl (Option.some_get _).symm)).1
  have htwo : bothRefreshed.returned.card = 2 := by decide +kernel
  omega

end ClickNBack.Auth
