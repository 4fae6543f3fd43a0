import ClickNBack.Numeric.PyFloat
import ClickNBack.Relational.Persistence

namespace ClickNBack.Merchants

open Numeric Relational ReadCommitted Prog

structure Merchant where
  id : String
  name : String
  defaultCashbackPercentage : PyFloat
  active : Bool
deriving DecidableEq

abbrev MerchantTable := Table Merchant String [Merchant.id]

structure MerchantCreate where
  name : String
  defaultCashbackPercentage : PyFloat
  active : Bool
deriving DecidableEq

/-- The exceptions of the merchants module, with their attributes, and those of the
libraries below it; the reason of the first one names the maximum. -/
inductive MerchantException
  | cashbackPercentageNotValid (maxPercentage : PyFloat)
  | merchantNameAlreadyExists (name : String)
  | merchantNotFound (merchantId : String)
  | multipleResultsFound
  | integrityError
deriving DecidableEq

def enforceCashbackPercentageValidity (maxPercentage percentage : PyFloat) :
    Except MerchantException Unit :=
  if ¬ (PyFloat.le 0 percentage ∧ percentage.le maxPercentage) then
    .error (.cashbackPercentageNotValid maxPercentage)
  else .ok ()

def Merchant.withStatus (active : Bool) (m : Merchant) : Merchant := { m with active }

theorem Merchant.eq_withStatus {m m' : Merchant} (h : m'.withStatus true = m.withStatus true) :
    m' = m.withStatus m'.active := by
  simp only [Merchant.withStatus, Merchant.mk.injEq, and_true] at h
  obtain ⟨hid, hname, hpercentage⟩ := h
  rw [Merchant.withStatus, ← hid, ← hname, ← hpercentage]

theorem Merchant.withStatus_keeps (active : Bool) :
    ∀ g ∈ [Merchant.id], ∀ m, g (Merchant.withStatus active m) = g m := by
  simp [Merchant.withStatus]

inductive Sql
  | insertMerchant (row : Merchant)
  | updateMerchant (id : String) (active : Bool)
deriving DecidableEq

namespace Sql

/-- The primary key is the only unique index of `merchants`. -/
def exec : Sql → MerchantTable → Except MerchantException MerchantTable
  | .insertMerchant row, t =>
    match t.insert row with
    | some t' => .ok t'
    | none => .error .integrityError
  | .updateMerchant id active, t =>
    .ok (t.modify Merchant.id id (Merchant.withStatus active) (Merchant.withStatus_keeps active))

def keys : Sql → List String
  | .insertMerchant row => [row.id]
  | .updateMerchant _ _ => []

def locks : Sql → MerchantTable → List String
  | .insertMerchant row, _ => [row.id]
  | .updateMerchant id _, t => if (t.find Merchant.id id).isSome then [id] else []

instance : Statement Sql MerchantTable MerchantException String := ⟨exec, locks⟩

end Sql

abbrev Coroutine := Prog MerchantTable Sql MerchantException

namespace MerchantRepository

def getMerchantByName (name : String) : Coroutine (Option Merchant) :=
  query (fun t => scalarOneOrNone MerchantException.multipleResultsFound
    (t.rows.filter fun m => m.name = name)) >>= lift

def getMerchantById (merchantId : String) : Coroutine (Option Merchant) :=
  selectOne .multipleResultsFound fun t => t.rows.filter fun m => m.id = merchantId

def addMerchant (merchant : Merchant) : Coroutine Merchant := do
  execute (.insertMerchant merchant)
  let refreshed ← getMerchantById merchant.id
  return refreshed.getD merchant

def updateMerchantStatus (merchant : Merchant) (active : Bool) : Coroutine Merchant := do
  if merchant.active ≠ active then
    execute (.updateMerchant merchant.id active)
  let refreshed ← getMerchantById merchant.id
  return refreshed.getD (merchant.withStatus active)

end MerchantRepository

def refuseNamesake (name : String) (existing : Option Merchant) : Except MerchantException Unit :=
  match existing with
  | some _ => .error (.merchantNameAlreadyExists name)
  | none => .ok ()

def enforceMerchantNameUniqueness (name : String) : Coroutine Unit := do
  let existing ← MerchantRepository.getMerchantByName name
  lift (refuseNamesake name existing)

/-- The row that `create_merchant` adds, with its generated key. -/
def newMerchant (merchantId : String) (data : MerchantCreate) : Merchant :=
  ⟨merchantId, data.name, data.defaultCashbackPercentage, data.active⟩

def createMerchant (maxPercentage : PyFloat) (merchantId : String) (data : MerchantCreate) :
    Coroutine Merchant := do
  lift (enforceCashbackPercentageValidity maxPercentage data.defaultCashbackPercentage)
  enforceMerchantNameUniqueness data.name
  let result ← MerchantRepository.addMerchant (newMerchant merchantId data)
  commitTx
  return result

def setMerchantStatus (merchantId : String) (active : Bool) : Coroutine Merchant := do
  match ← MerchantRepository.getMerchantById merchantId with
  | none => raise (.merchantNotFound merchantId)
  | some merchant =>
    let updated ← MerchantRepository.updateMerchantStatus merchant active
    commitTx
    return updated

theorem getMerchantById_eq (merchantId : String) :
    MerchantRepository.getMerchantById merchantId =
      query fun t => t.find Merchant.id merchantId :=
  selectOne_eq_query _ (fun t : MerchantTable => t) (by simp) merchantId

section

variable {t t' : MerchantTable}

theorem exec_insertMerchant {row : Merchant} :
    Statement.exec (Sql.insertMerchant row) t = .ok t' ↔ t.insert row = some t' := by
  simp only [Statement.exec, Sql.exec]
  cases t.insert row <;> simp

theorem uniqueKeys :
    UniqueKeys Sql.keys (fun _ => [])
      fun (t : MerchantTable) id => id ∈ t.rows.map Merchant.id where
  locks s t := by
    cases s with
    | insertMerchant row => exact List.Subset.refl _
    | updateMerchant id active => exact List.nil_subset _
  ok_iff s t := by
    cases s with
    | insertMerchant row =>
      simp only [exec_insertMerchant, ← Option.isSome_iff_exists, Table.insert_isSome, Table.Free,
        Sql.keys, List.mem_singleton, forall_eq, List.not_mem_nil, false_implies, implies_true,
        and_true]
    | updateMerchant id active =>
      exact iff_of_true ⟨_, rfl⟩ (by simp [Sql.keys])
  taken_of_ok s t t' h k := by
    cases s with
    | insertMerchant row =>
      rw [(t.insert_eq_some (exec_insertMerchant.mp h)).2, Multiset.map_cons, Multiset.mem_cons]
      simp [Sql.keys, or_comm]
    | updateMerchant id active =>
      cases h
      rw [t.map_modify (Merchant.withStatus_keeps active) (g := Merchant.id) fun _ => rfl]
      simp [Sql.keys]

end

section

variable {I : MerchantTable → Prop} {Later : MerchantTable → MerchantTable → Prop}

def Creation (maxPercentage : PyFloat) (merchantId : String) (data : MerchantCreate)
    (log : List Sql) : Prop :=
  enforceCashbackPercentageValidity maxPercentage data.defaultCashbackPercentage = .ok () ∧
    log = [.insertMerchant (newMerchant merchantId data)]

theorem createMerchant_abides (maxPercentage : PyFloat) (merchantId : String)
    (data : MerchantCreate) (t : MerchantTable) :
    (createMerchant maxPercentage merchantId data).Abides I Later
      (fun log _ => Creation maxPercentage merchantId data log) t [] := by
  rw [createMerchant]
  refine abides_lift_bind fun _ hvalid => ?_
  simp only [enforceMerchantNameUniqueness, MerchantRepository.getMerchantByName, bind_assoc]
  refine abides_query_bind fun t₁ _ _ _ => abides_lift_bind fun _ _ => ?_
  refine abides_lift_bind fun _ _ => ?_
  simp only [MerchantRepository.addMerchant, getMerchantById_eq, bind_assoc, pure_bind]
  apply abides_execute_bind
  refine abides_query_bind fun t₂ _ _ _ => ?_
  exact abides_commitTx_bind fun _ _ _ _ => ⟨⟨hvalid, rfl⟩, fun _ _ => trivial⟩

theorem setMerchantStatus_emits (merchantId : String) (active : Bool) :
    (setMerchantStatus merchantId active).Emits fun s => s = .updateMerchant merchantId active := by
  rw [setMerchantStatus, getMerchantById_eq]
  refine emits_query_bind fun t => ?_
  cases hm : t.find Merchant.id merchantId with
  | none => trivial
  | some m =>
    obtain ⟨-, rfl⟩ := (Table.find_eq_some _ (by simp)).mp hm
    by_cases hstatus : m.active ≠ active
    · simp only [MerchantRepository.updateMerchantStatus, if_pos hstatus, bind_assoc, pure_bind,
        getMerchantById_eq]
      refine emits_execute_bind ?_ (emits_query_bind fun _ => trivial)
      rfl
    · simp only [MerchantRepository.updateMerchantStatus, if_neg hstatus, bind_assoc, pure_bind,
        getMerchantById_eq]
      exact emits_query_bind fun _ => trivial

theorem merchant_replay {merchantId : String} {active : Bool} {log : List Sql}
    (hlog : ∀ s ∈ log, s = .updateMerchant merchantId active) (t : MerchantTable) :
    ∀ m ∈ (replay log t).rows, m ∈ t.rows ∨
      m.id = merchantId ∧ m.active = active ∧ ∃ m' ∈ t.rows, m = m'.withStatus active := by
  refine replay_invariant (P := fun t' => ∀ m ∈ t'.rows, m ∈ t.rows ∨
    m.id = merchantId ∧ m.active = active ∧ ∃ m' ∈ t.rows, m = m'.withStatus active) log t
    (fun s hs t' ih m hm => ?_) fun m hm => Or.inl hm
  obtain rfl := hlog s hs
  obtain hm | ⟨n, hmem, hid, rfl⟩ :=
    Table.mem_or_of_mem_modify (Merchant.withStatus_keeps active) hm
  · exact ih m hm
  · refine Or.inr ⟨hid, rfl, ?_⟩
    obtain hold | ⟨-, -, n', hold, rfl⟩ := ih n hmem
    · exact ⟨n, hold, rfl⟩
    · exact ⟨n', hold, rfl⟩

end

end ClickNBack.Merchants
