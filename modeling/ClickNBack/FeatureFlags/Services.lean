import ClickNBack.FeatureFlags.Evaluation
import Mathlib.Algebra.Group.Nat.Defs

namespace ClickNBack.FeatureFlags

open Relational

inductive ScopeType
  | global
  | merchant
  | user
deriving DecidableEq

def ScopeType.value : ScopeType → String
  | .global => "global"
  | .merchant => "merchant"
  | .user => "user"

structure Uuid where
  int : BitVec 128
deriving DecidableEq

/-- `UUID.__str__`: 32 hexadecimal digits in five groups. -/
def Uuid.str (u : Uuid) : String :=
  let hex := (List.range 32).map fun i => Nat.digitChar (u.int.toNat / 16 ^ (31 - i) % 16)
  String.ofList (hex.take 8 ++ ['-'] ++ (hex.drop 8).take 4 ++ ['-'] ++ (hex.drop 12).take 4 ++
    ['-'] ++ (hex.drop 16).take 4 ++ ['-'] ++ hex.drop 20)

structure FeatureFlagSet where
  enabled : Bool
  scopeType : ScopeType
  scopeId : Option Uuid
  description : Option String
deriving DecidableEq

inductive FeatureFlagException
  | scopeIdRequired (scopeType : String)
  | multipleResultsFound
  | integrityError
deriving DecidableEq

def validateScopeIdRequired (scopeType : String) (scopeId : Option String) :
    Except FeatureFlagException Unit :=
  if scopeType ≠ "global" ∧ scopeId = none then .error (.scopeIdRequired scopeType) else .ok ()

namespace FeatureFlagRepository

/-- An object that the session has loaded is updated in its row, and a new one is
inserted. -/
def upsert (t : FeatureFlagTable) (loaded : Bool) (flag : FeatureFlag) :
    Except FeatureFlagException (FeatureFlag × FeatureFlagTable) :=
  if loaded then
    .ok (flag, t.modify FeatureFlag.indexKey flag.indexKey
      (fun f => { f with enabled := flag.enabled, description := flag.description })
      (by simp [FeatureFlag.indexKey]))
  else
    match t.insert flag with
    | some t' => .ok (flag, t')
    | none => .error .integrityError

end FeatureFlagRepository

def setFlag (key : String) (data : FeatureFlagSet) (t : FeatureFlagTable) :
    Except FeatureFlagException (FeatureFlag × FeatureFlagTable) := do
  let scopeType := data.scopeType.value
  let scopeId := data.scopeId.map Uuid.str
  validateScopeIdRequired scopeType scopeId
  match ← FeatureFlagRepository.getByKeyAndScope .multipleResultsFound t key scopeType scopeId with
  | some existing =>
    FeatureFlagRepository.upsert t true { existing with
      enabled := data.enabled
      description := data.description <|> existing.description }
  | none =>
    FeatureFlagRepository.upsert t false {
      key
      enabled := data.enabled
      scopeType
      scopeId
      description := data.description }

structure Call where
  key : String
  data : FeatureFlagSet
deriving DecidableEq

namespace Call

def scope (c : Call) : Scope := (c.data.scopeType.value, c.data.scopeId.map Uuid.str)

/-- What a call that raises has flushed is rolled back. -/
def exec (c : Call) (t : FeatureFlagTable) : FeatureFlagTable :=
  match setFlag c.key c.data t with
  | .ok (_, t') => t'
  | .error _ => t

def row (c : Call) (existing : Option FeatureFlag) : FeatureFlag where
  key := c.key
  enabled := c.data.enabled
  scopeType := c.scope.1
  scopeId := c.scope.2
  description := c.data.description <|> existing.bind FeatureFlag.description

end Call

end ClickNBack.FeatureFlags
