import ClickNBack.ReadCommitted.Refusals
import ClickNBack.Users.Services

namespace ClickNBack.Users

open Relational ReadCommitted Prog Auth

def Taken (t : UserTable) : LockKey → Prop
  | .id id => ∃ u ∈ t.rows, u.id = id
  | .email email => ∃ u ∈ t.rows, u.email = email

section

variable (t : UserTable) (row : User)

theorem free_iff : t.Free row ↔ ∀ k ∈ (Sql.insertUser row).keys, ¬ Taken t k := by
  simp [Table.Free, Sql.keys, Taken]

theorem insertUser_exec :
    Statement.exec (Sql.insertUser row) t =
      if t.Free row then .ok (t.put row) else .error .integrityError := by
  simp only [Statement.exec, Sql.exec, Table.put, Table.insert]
  by_cases h : t.Free row <;> simp [h]

theorem apply_insertUser : apply (Sql.insertUser row) t = t.put row := by
  rw [apply, insertUser_exec]
  by_cases h : t.Free row
  · rw [if_pos h]
  · rw [if_neg h, Table.put_of_not_free _ h]

theorem exec_ok_iff (d' : UserTable) :
    Statement.exec (Sql.insertUser row) t = .ok d' ↔ t.Free row ∧ d' = t.put row := by
  rw [insertUser_exec]
  by_cases h : t.Free row
  · rw [if_pos h]
    simp only [Except.ok.injEq, h, true_and]
    exact eq_comm
  · rw [if_neg h]
    simp [h]

theorem runs_insertUser : Runs [Sql.insertUser row] t ↔ t.Free row := by
  simp only [Runs, and_true, exec_ok_iff]
  constructor
  · rintro ⟨-, h, -⟩
    exact h
  · exact fun h => ⟨_, h, rfl⟩

end

/-- A registration is refused for the sake of its id or its email only. -/
theorem uniqueKeys : UniqueKeys Sql.keys (fun _ => []) Taken where
  locks _ _ := List.Subset.refl _
  ok_iff s t := by
    cases s with
    | insertUser row =>
      rw [← free_iff]
      simp only [exec_ok_iff, List.not_mem_nil, false_implies, implies_true, and_true]
      constructor
      · rintro ⟨-, h, -⟩
        exact h
      · exact fun h => ⟨_, h, rfl⟩
  taken_of_ok s t t' h k := by
    cases s with
    | insertUser row =>
      obtain ⟨hfree, rfl⟩ := (exec_ok_iff t row t').mp h
      cases k with
      | id id => simp [Taken, Sql.keys, Table.put_rows_of_free _ hfree, or_comm, eq_comm]
      | email email => simp [Taken, Sql.keys, Table.put_rows_of_free _ hfree, or_comm, eq_comm]

section

variable (hashPassword : String → String) (userId email password : String)

def Registers (user : User) : Prop :=
  enforcePasswordComplexity password = .ok () ∧
    user = newUser userId email (hashPassword password)

theorem createUser_follows :
    (createUser hashPassword userId email password).Follows (fun user => [.insertUser user])
      (Registers hashPassword userId email password) [] := by
  rw [createUser]
  refine follows_lift_bind fun _ hcomplex => ?_
  simp only [enforceEmailUniqueness, getUserByEmail_eq, bind_assoc]
  refine follows_query_bind fun _ _ => follows_lift_bind fun _ _ => ?_
  have hrow : Registers hashPassword userId email password
      (newUser userId email (hashPassword password)) := ⟨hcomplex, rfl⟩
  simp only [UserRepository.addUser, getUserById_eq, bind_assoc, pure_bind]
  apply follows_execute_bind ⟨_, hrow, List.prefix_refl _⟩
  refine follows_query_bind fun t ht => ?_
  have hfree := (runs_insertUser t _).mp ht
  have hfind : (t.put (newUser userId email (hashPassword password))).find User.id
      (newUser userId email (hashPassword password)).id = some (newUser userId email _) :=
    t.find_put_self hfree (by simp)
  rw [List.nil_append, replay_cons, replay_nil, apply_insertUser, hfind]
  exact follows_commit hrow rfl

def Registration (log : List Sql) : Prop :=
  enforcePasswordComplexity password = .ok () ∧
    log = [.insertUser (newUser userId email (hashPassword password))]

theorem createUser_abides {I : UserTable → Prop} {Later : UserTable → UserTable → Prop}
    (t : UserTable) :
    (createUser hashPassword userId email password).Abides I Later
      (fun log _ => Registration hashPassword userId email password log) t [] := by
  refine (createUser_follows hashPassword userId email password).abides fun user _ hregisters => ?_
  obtain ⟨hcomplex, rfl⟩ := hregisters
  exact ⟨hcomplex, rfl⟩

def Unavailable (t : UserTable) : Prop := Taken t (.email email) ∨ Taken t (.id userId)

theorem createUser_raisesOnly (hcomplex : enforcePasswordComplexity password = .ok ()) :
    (createUser hashPassword userId email password).RaisesOnly (Unavailable userId email) [] := by
  rw [createUser, hcomplex, lift_ok, pure_bind]
  simp only [enforceEmailUniqueness, getUserByEmail_eq, bind_assoc]
  refine raisesOnly_query_bind fun t _ => ?_
  rw [replay_nil]
  cases hfind : t.find User.email email with
  | some u =>
    obtain ⟨hmem, hemail⟩ := (t.find_eq_some (by simp)).mp hfind
    exact Or.inl (Or.inl ⟨u, hmem, hemail⟩)
  | none =>
    right
    change (UserRepository.addUser _ >>= _).RaisesOnly _ _
    simp only [UserRepository.addUser, bind_assoc, getUserById_eq, pure_bind]
    refine raisesOnly_execute_bind (fun t e _ hrefused => ?_)
      (raisesOnly_query_bind fun _ _ => Or.inr trivial)
    have hnot : ¬ t.Free (newUser userId email (hashPassword password)) := by
      intro hfree
      rw [replay_nil, insertUser_exec, if_pos hfree] at hrefused
      cases hrefused
    rw [free_iff] at hnot
    push Not at hnot
    obtain ⟨k, hk, htaken⟩ := hnot
    simp only [Sql.keys, List.mem_cons, List.not_mem_nil, or_false] at hk
    obtain rfl | rfl := hk
    · exact Or.inr htaken
    · exact Or.inl htaken

theorem unavailable_stable (s : Sql) (t t' : UserTable) (h : Statement.exec s t = .ok t')
    (ht : Unavailable userId email t) : Unavailable userId email t' := by
  have htaken := uniqueKeys.taken_of_ok s t t' h
  exact ht.imp (fun hk => (htaken _).mpr (Or.inl hk)) fun hk => (htaken _).mpr (Or.inl hk)

end

/-- Registrations, each with the key that is generated for it and the salt of its hash. -/
structure Registrations (ι : Type) where
  hashPassword : ι → String → String
  userId : ι → String
  email : ι → String
  password : ι → String

namespace Registrations

variable {ι : Type}

def prog (r : Registrations ι) (i : ι) : Coroutine User :=
  createUser (r.hashPassword i) (r.userId i) (r.email i) (r.password i)

def row (r : Registrations ι) (i : ι) : User :=
  newUser (r.userId i) (r.email i) (r.hashPassword i (r.password i))

end Registrations

theorem rows_of_runs {ι : Type} {order : List (ι × User)} {t : UserTable}
    (h : Runs (order.flatMap fun x => [Sql.insertUser x.2]) t) :
    (replay (order.flatMap fun x => [Sql.insertUser x.2]) t).rows =
      (order : Multiset (ι × User)).map Prod.snd + t.rows := by
  induction order generalizing t with
  | nil => exact (Multiset.zero_add _).symm
  | cons x order ih =>
    rw [List.flatMap_cons, runs_append, runs_insertUser] at h
    obtain ⟨hfree, hrest⟩ := h
    have hrows := ih hrest
    rw [replay_cons, replay_nil, apply_insertUser] at hrows
    rw [List.flatMap_cons, replay_append, replay_cons, replay_nil, apply_insertUser, hrows,
      Table.put_rows_of_free _ hfree, ← Multiset.cons_coe, Multiset.map_cons, Multiset.add_cons,
      Multiset.cons_add]

section

variable {ι : Type} [DecidableEq ι] [Fintype ι] (r : Registrations ι) (t₀ : UserTable)
  {s : Sys ι UserTable Sql UserException User}

/-- However registrations interleave and fail, the users grow by the rows of those
that returned, which have complex passwords and emails that nobody else has. -/
theorem registration_safe (hr : Sys.Reach (fun _ _ _ => True) (Sys.start t₀ r.prog) s) :
    s.db.rows = s.returned.map Prod.snd + t₀.rows ∧
    (∀ x ∈ s.returned, x.2 = r.row x.1 ∧ enforcePasswordComplexity (r.password x.1) = .ok () ∧
      s.db.rows.filter (fun u => u.email = r.email x.1) = {r.row x.1}) ∧
    ∀ x ∈ s.returned, ∀ y ∈ s.returned, r.email x.1 = r.email y.1 → x.1 = y.1 := by
  obtain ⟨order, h⟩ := Sys.atomic_of_follows (fun _ user => [Sql.insertUser user])
    (fun i => Registers (r.hashPassword i) (r.userId i) (r.email i) (r.password i)) Sql.keys
    (fun _ _ _ _ _ _ => rfl)
    (fun i j a b _ _ l hl happ t hd hd' => uniqueKeys.runs_after hd hd' happ)
    (fun i => createUser_follows _ _ _ _) hr
  have hrows : s.db.rows = s.returned.map Prod.snd + t₀.rows := by
    rw [h.db, h.returned_eq]
    exact rows_of_runs h.runs
  have hmeets : ∀ x ∈ s.returned, enforcePasswordComplexity (r.password x.1) = .ok () ∧
      x.2 = r.row x.1 := fun x hx => h.meets x (Multiset.mem_coe.mp (h.returned_eq ▸ hx))
  have hmem : ∀ x ∈ s.returned, r.row x.1 ∈ s.db.rows := by
    intro x hx
    rw [hrows, Multiset.mem_add, ← (hmeets x hx).2]
    exact Or.inl (Multiset.mem_map_of_mem _ hx)
  refine ⟨hrows, fun x hx => ⟨(hmeets x hx).2, (hmeets x hx).1, ?_⟩, fun x hx y hy he => ?_⟩
  · exact s.db.filter_of_mem (f := User.email) (by simp) (hmem x hx)
  · -- two rows with one email would be two copies of one row, and the emails are distinct
    by_contra hne
    obtain ⟨rest, hrest⟩ := Multiset.exists_cons_of_mem hx
    have hy' : y ∈ rest := by
      rw [hrest, Multiset.mem_cons] at hy
      refine hy.resolve_left fun hxy => hne (congrArg Prod.fst hxy).symm
    have hdup := s.db.unique User.email (by simp)
    rw [hrows, hrest] at hdup
    simp only [Multiset.map_cons, Multiset.cons_add, Multiset.nodup_cons] at hdup
    apply hdup.1
    rw [Multiset.map_add, Multiset.mem_add, Multiset.map_map]
    refine Or.inl (Multiset.mem_map.mpr ⟨y, hy', ?_⟩)
    rw [Function.comp_apply, (hmeets x hx).2, (hmeets y hy).2]
    exact he.symm

/-- Without failures from outside, and with fresh keys, every email that is asked for
with a complex password is registered in the end, and for one user. -/
theorem registration_answered (hids : Function.Injective r.userId)
    (hfresh : ∀ i, ∀ u ∈ t₀.rows, u.id ≠ r.userId i)
    (hr : Sys.Reach (fun _ _ a => a = .advance) (Sys.start t₀ r.prog) s)
    (hdone : ∀ i, (s.session i).prog.Done) (i : ι)
    (hcomplex : enforcePasswordComplexity (r.password i) = .ok ()) :
    ∃ u, s.db.rows.filter (fun u => u.email = r.email i) = {u} ∧
      (u ∈ t₀.rows ∨ ∃ j, (s.session j).prog = .ret u ∧ u = r.row j) := by
  obtain ⟨hrows, hreturned, -⟩ :=
    registration_safe r t₀ (hr.mono fun _ _ _ _ => trivial)
  have horigin : ∀ u ∈ s.db.rows, u ∈ t₀.rows ∨ ∃ j, (s.session j).prog = .ret u ∧ u = r.row j := by
    intro u hu
    rw [hrows, Multiset.mem_add] at hu
    obtain hu | hu := hu
    · obtain ⟨x, hx, rfl⟩ := Multiset.mem_map.mp hu
      exact Or.inr ⟨x.1, Sys.mem_returned.mp hx, (hreturned x hx).1⟩
    · exact Or.inl hu
  obtain ⟨u, hu, hemail⟩ : ∃ u ∈ s.db.rows, u.email = r.email i := by
    obtain ⟨a, ha⟩ | ⟨e, he⟩ := hdone i
    · have hx : (i, a) ∈ s.returned := Sys.mem_returned.mpr ha
      have hone := (hreturned _ hx).2.2
      exact ⟨r.row i, (Multiset.mem_filter.mp (hone ▸ Multiset.mem_singleton_self _)).1, rfl⟩
    · have hraises : (r.prog i).RaisesOnly (Unavailable (r.userId i) (r.email i)) [] :=
        createUser_raisesOnly (r.hashPassword i) _ _ _ hcomplex
      obtain hemail | ⟨u, hu, hid⟩ := Sys.reason_of_raise uniqueKeys
        (unavailable_stable (r.userId i) (r.email i)) hraises hr he
      · exact hemail
      · -- its own key is taken by nobody else
        obtain hold | ⟨j, hj, rfl⟩ := horigin u hu
        · exact absurd hid (hfresh i u hold)
        · obtain rfl : j = i := hids hid
          rw [he] at hj
          cases hj
  refine ⟨u, ?_, horigin u hu⟩
  rw [← hemail]
  exact s.db.filter_of_mem (f := User.email) (by simp) hu

end

def twoRegistrations : Registrations (Fin 2) where
  hashPassword i password := password ++ toString i.val
  userId i := if i = 0 then "one" else "two"
  email _ := "ana@mail"
  password i := if i = 0 then "Secret-1" else "Secret-2"

def noUsers : UserTable := Table.empty

def twoRegistrationsStart : Sys (Fin 2) UserTable Sql UserException User :=
  Sys.start noUsers twoRegistrations.prog

/-- Both have found the email free; the second insertion waits for the first. -/
def oneRegistered : Sys (Fin 2) UserTable Sql UserException User :=
  (Sys.play (fun _ _ => true) [0, 1, 0, 0, 0, 1] twoRegistrationsStart).get (by decide +kernel)

theorem oneRegistered_reach : Sys.Reach (fun _ _ a => a = .advance) twoRegistrationsStart
    oneRegistered :=
  Sys.reach_of_play (C := fun _ _ a => a = .advance) (fun _ _ _ => rfl) Sys.Reach.refl
    (Option.some_get _).symm

theorem registration_safe_oneRegistered :
    oneRegistered.returned.card = 1 ∧
    oneRegistered.db.rows = oneRegistered.returned.map Prod.snd + noUsers.rows ∧
    (∀ x ∈ oneRegistered.returned, x.2 = twoRegistrations.row x.1 ∧
      enforcePasswordComplexity (twoRegistrations.password x.1) = .ok () ∧
      oneRegistered.db.rows.filter (fun u => u.email = twoRegistrations.email x.1) =
        {twoRegistrations.row x.1}) ∧
    ∀ x ∈ oneRegistered.returned, ∀ y ∈ oneRegistered.returned,
      twoRegistrations.email x.1 = twoRegistrations.email y.1 → x.1 = y.1 :=
  ⟨by decide +kernel, registration_safe twoRegistrations noUsers
    (oneRegistered_reach.mono fun _ _ _ _ => trivial)⟩

theorem twoRegistrations_ids : Function.Injective twoRegistrations.userId := by
  decide +kernel

theorem registration_answered_oneRegistered :
    ∃ u, oneRegistered.db.rows.filter (fun u => u.email = "ana@mail") = {u} ∧
      (u ∈ noUsers.rows ∨
        ∃ j, (oneRegistered.session j).prog = .ret u ∧ u = twoRegistrations.row j) :=
  registration_answered twoRegistrations noUsers twoRegistrations_ids
    (fun _ _ hu => absurd hu (Multiset.notMem_zero _)) oneRegistered_reach (by decide +kernel) 1
    (by decide +kernel)

end ClickNBack.Users
