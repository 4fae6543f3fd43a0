import ClickNBack.Auth.CurrentUser
import ClickNBack.ReadCommitted.Program
import ClickNBack.Relational.Queries

namespace ClickNBack.Users

open Relational ReadCommitted Prog Auth

structure User where
  id : String
  email : String
  hashedPassword : String
  role : UserRole
  active : Bool
deriving DecidableEq

abbrev UserTable := Table User String [User.id, User.email]

inductive UserException
  | emailAlreadyRegistered (email : String)
  | passwordNotComplexEnough (reason : String)
  | multipleResultsFound
  | integrityError
deriving DecidableEq

/-- `re.search` of a class of characters. -/
def search (c : Char → Bool) (s : String) : Bool := s.toList.any c

def enforcePasswordComplexity (password : String) : Except UserException Unit :=
  if password.length < 8 then
    .error (.passwordNotComplexEnough "Password must be at least 8 characters long.")
  else if ¬ search Char.isUpper password then
    .error (.passwordNotComplexEnough "Password must contain at least one uppercase letter.")
  else if ¬ search Char.isLower password then
    .error (.passwordNotComplexEnough "Password must contain at least one lowercase letter.")
  else if ¬ search Char.isDigit password then
    .error (.passwordNotComplexEnough "Password must contain at least one digit.")
  else if ¬ search (fun c => ¬ c.isAlphanum) password then
    .error (.passwordNotComplexEnough "Password must contain at least one special character.")
  else .ok ()

inductive Sql
  | insertUser (row : User)
deriving DecidableEq

inductive LockKey
  | id (id : String)
  | email (email : String)
deriving DecidableEq

namespace Sql

def exec : Sql → UserTable → Except UserException UserTable
  | .insertUser row, t =>
    match t.insert row with
    | some t' => .ok t'
    | none => .error .integrityError

def keys : Sql → List LockKey
  | .insertUser row => [.id row.id, .email row.email]

instance : Statement Sql UserTable UserException LockKey := ⟨exec, fun s _ => s.keys⟩

end Sql

abbrev Coroutine := Prog UserTable Sql UserException

namespace UserRepository

def getUserByEmail (email : String) : Coroutine (Option User) :=
  selectOne .multipleResultsFound fun t => t.rows.filter fun u => u.email = email

def getUserById (userId : String) : Coroutine (Option User) :=
  selectOne .multipleResultsFound fun t => t.rows.filter fun u => u.id = userId

def addUser (user : User) : Coroutine User := do
  execute (.insertUser user)
  let refreshed ← getUserById user.id
  return refreshed.getD user

end UserRepository

def refuseRegistered (email : String) (existing : Option User) : Except UserException Unit :=
  match existing with
  | some _ => .error (.emailAlreadyRegistered email)
  | none => .ok ()

def enforceEmailUniqueness (email : String) : Coroutine Unit := do
  let existing ← UserRepository.getUserByEmail email
  lift (refuseRegistered email existing)

/-- The row that `create_user` adds; the key and the role are what the defaults of
their columns generate. -/
def newUser (userId email hashedPassword : String) : User where
  id := userId
  email
  hashedPassword
  role := .user
  active := true

def createUser (hashPassword : String → String) (userId email password : String) :
    Coroutine User := do
  lift (enforcePasswordComplexity password)
  enforceEmailUniqueness email
  let result ← UserRepository.addUser (newUser userId email (hashPassword password))
  commitTx
  return result

theorem getUserByEmail_eq (email : String) :
    UserRepository.getUserByEmail email = query fun t => t.find User.email email :=
  selectOne_eq_query _ (fun t : UserTable => t) (by simp) email

theorem getUserById_eq (userId : String) :
    UserRepository.getUserById userId = query fun t => t.find User.id userId :=
  selectOne_eq_query _ (fun t : UserTable => t) (by simp) userId

theorem enforcePasswordComplexity_ok (password : String) :
    enforcePasswordComplexity password = .ok () ↔
      8 ≤ password.length ∧ (∃ c ∈ password.toList, c.isUpper) ∧
        (∃ c ∈ password.toList, c.isLower) ∧ (∃ c ∈ password.toList, c.isDigit) ∧
        ∃ c ∈ password.toList, ¬ c.isAlphanum := by
  rw [enforcePasswordComplexity]
  simp only [search, List.any_eq_true]
  split_ifs <;> simp_all

end ClickNBack.Users
