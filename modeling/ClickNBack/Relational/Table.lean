import Mathlib.Data.Multiset.Basic
import Mathlib.Data.Multiset.Filter
import Mathlib.Data.Multiset.Dedup

namespace ClickNBack.Relational

variable {ρ κ E : Type}

/-- The outcome of a query that may return one row at most: `e` is raised when
there are several. -/
def scalarOneOrNone (e : E) (rows : Multiset ρ) : Except E (Option ρ) :=
  Quotient.liftOn rows
    (fun | [] => .ok none | [r] => .ok (some r) | _ :: _ :: _ => .error e) <| by
      intro l l' h
      have hlen : l.length = l'.length := List.Perm.length_eq h
      match l, l' with
      | [], [] => rfl
      | [r], [r'] => rw [List.singleton_perm_singleton.mp h]
      | _ :: _ :: _, _ :: _ :: _ => rfl
      | [], _ :: _ | [_], [] | [_], _ :: _ :: _ | _ :: _ :: _, [] | _ :: _ :: _, [_] =>
        simp at hlen

@[simp] theorem scalarOneOrNone_zero (e : E) : scalarOneOrNone e (0 : Multiset ρ) = .ok none := rfl

@[simp] theorem scalarOneOrNone_singleton (e : E) (r : ρ) : scalarOneOrNone e {r} = .ok (some r) :=
  rfl

theorem scalarOneOrNone_ok {e : E} {rows : Multiset ρ} (h : rows.card ≤ 1) :
    ∃ r, scalarOneOrNone e rows = .ok r := by
  obtain h | h := Nat.le_one_iff_eq_zero_or_eq_one.mp h
  · exact ⟨none, by rw [Multiset.card_eq_zero.mp h]; rfl⟩
  · obtain ⟨r, rfl⟩ := Multiset.card_eq_one.mp h
    exact ⟨some r, rfl⟩

theorem mem_of_scalarOneOrNone {e : E} {rows : Multiset ρ} {r : ρ}
    (h : scalarOneOrNone e rows = .ok (some r)) : r ∈ rows := by
  induction rows using Quotient.inductionOn with
  | h l =>
    match l with
    | [] | _ :: _ :: _ => cases h
    | [x] =>
      cases h
      exact List.mem_singleton_self _

theorem scalarOneOrNone_of_mem {e : E} {rows : Multiset ρ} {r : ρ} {o : Option ρ} (hr : r ∈ rows)
    (h : scalarOneOrNone e rows = .ok o) : o = some r := by
  induction rows using Quotient.inductionOn with
  | h l =>
    match l with
    | [] => cases hr
    | [x] =>
      cases h
      rw [List.mem_singleton.mp hr]
    | _ :: _ :: _ => cases h

/-- The order in which the rows of a query without ORDER BY arrive. -/
structure Listing (ρ : Type) where
  list : Multiset ρ → List ρ
  coe_list : ∀ rows, (list rows : Multiset ρ) = rows

theorem Listing.mem_list (l : Listing ρ) {rows : Multiset ρ} {r : ρ} :
    r ∈ l.list rows ↔ r ∈ rows := by
  rw [← Multiset.mem_coe, l.coe_list]

noncomputable instance : Inhabited (Listing ρ) := ⟨⟨Multiset.toList, Multiset.coe_toList⟩⟩

theorem Listing.exists_last [DecidableEq ρ] {rows : Multiset ρ} {r : ρ} (h : r ∈ rows) :
    ∃ (l : Listing ρ) (init : List ρ), l.list rows = init ++ [r] := by
  refine ⟨⟨fun m => if r ∈ m then (m.erase r).toList ++ [r] else m.toList, fun m => ?_⟩,
    (rows.erase r).toList, if_pos h⟩
  by_cases hm : r ∈ m
  · rw [if_pos hm, ← Multiset.coe_add, Multiset.coe_toList, Multiset.coe_singleton,
      Multiset.add_comm, Multiset.singleton_add, Multiset.cons_erase hm]
  · rw [if_neg hm, Multiset.coe_toList]

/-- Rows under unique indexes. -/
@[ext] structure Table (ρ κ : Type) (indexes : List (ρ → κ)) where
  rows : Multiset ρ
  unique : ∀ f ∈ indexes, (rows.map f).Nodup

namespace Table

variable {indexes : List (ρ → κ)}

def empty : Table ρ κ indexes := ⟨0, by simp⟩

def Free (t : Table ρ κ indexes) (r : ρ) : Prop := ∀ f ∈ indexes, f r ∉ t.rows.map f

instance [DecidableEq κ] (t : Table ρ κ indexes) (r : ρ) : Decidable (t.Free r) :=
  inferInstanceAs (Decidable (∀ f ∈ indexes, f r ∉ t.rows.map f))

/-- INSERT; a unique index refuses a second row with the same key. -/
def insert [DecidableEq κ] (t : Table ρ κ indexes) (r : ρ) : Option (Table ρ κ indexes) :=
  if h : t.Free r then
    some ⟨r ::ₘ t.rows, fun f hf => by
      simpa using ⟨by simpa using h f hf, t.unique f hf⟩⟩
  else none

/-- UPDATE of the rows with a given key, by a change that keeps every key. -/
def modify [DecidableEq κ] (t : Table ρ κ indexes) (f : ρ → κ) (k : κ) (w : ρ → ρ)
    (hw : ∀ g ∈ indexes, ∀ r, g (w r) = g r) : Table ρ κ indexes :=
  ⟨t.rows.map fun r => if f r = k then w r else r, fun g hg => by
    have he : (g ∘ fun r => if f r = k then w r else r) = g := by
      funext r
      by_cases h : f r = k <;> simp [h, hw g hg]
    rw [Multiset.map_map, he]
    exact t.unique g hg⟩

def find [DecidableEq κ] (t : Table ρ κ indexes) (f : ρ → κ) (k : κ) : Option ρ :=
  match scalarOneOrNone () (t.rows.filter fun r => f r = k) with
  | .ok r => r
  | .error _ => none

section

variable (t : Table ρ κ indexes) {f : ρ → κ}

theorem key_ne (hf : f ∈ indexes) {r : ρ} {rest : Multiset ρ} (hrows : t.rows = r ::ₘ rest) :
    ∀ x ∈ rest, f x ≠ f r := by
  intro x hx he
  have hn := t.unique f hf
  rw [hrows, Multiset.map_cons, Multiset.nodup_cons] at hn
  exact hn.1 (Multiset.mem_map.mpr ⟨x, hx, he⟩)

theorem exists_cons (hf : f ∈ indexes) {r : ρ} (hr : r ∈ t.rows) :
    ∃ rest, t.rows = r ::ₘ rest ∧ ∀ x ∈ rest, f x ≠ f r := by
  obtain ⟨rest, hrest⟩ := Multiset.exists_cons_of_mem hr
  exact ⟨rest, hrest, t.key_ne hf hrest⟩

theorem nodup_rows (hf : f ∈ indexes) : t.rows.Nodup := (t.unique f hf).of_map f

theorem eq_of_key (hf : f ∈ indexes) {r r' : ρ} (hr : r ∈ t.rows) (hr' : r' ∈ t.rows)
    (he : f r = f r') : r = r' :=
  Multiset.inj_on_of_nodup_map (t.unique f hf) r hr r' hr' he

variable [DecidableEq κ]

theorem filter_of_mem (hf : f ∈ indexes) {r : ρ} (hr : r ∈ t.rows) :
    t.rows.filter (fun x => f x = f r) = {r} := by
  obtain ⟨rest, hrest, hne⟩ := t.exists_cons hf hr
  rw [hrest, Multiset.filter_cons_of_pos (p := fun x => f x = f r) _ rfl,
    Multiset.filter_eq_nil.mpr hne]
  rfl

theorem filter_of_not_mem {k : κ} (h : ∀ r ∈ t.rows, f r ≠ k) :
    t.rows.filter (fun x => f x = k) = 0 :=
  Multiset.filter_eq_nil.mpr h

theorem scalarOneOrNone_filter (hf : f ∈ indexes) (e : E) (k : κ) :
    scalarOneOrNone e (t.rows.filter fun r => f r = k) = .ok (t.find f k) := by
  by_cases h : ∃ r ∈ t.rows, f r = k
  · obtain ⟨r, hr, rfl⟩ := h
    simp [find, t.filter_of_mem hf hr]
  · have hn : ∀ r ∈ t.rows, f r ≠ k := fun r hr he => h ⟨r, hr, he⟩
    simp [find, t.filter_of_not_mem hn]

theorem find_eq_some (hf : f ∈ indexes) {k : κ} {r : ρ} :
    t.find f k = some r ↔ r ∈ t.rows ∧ f r = k := by
  constructor
  · intro h
    by_cases hex : ∃ x ∈ t.rows, f x = k
    · obtain ⟨x, hx, rfl⟩ := hex
      simp only [find, t.filter_of_mem hf hx, scalarOneOrNone_singleton, Option.some.injEq] at h
      exact h ▸ ⟨hx, rfl⟩
    · have hn : ∀ x ∈ t.rows, f x ≠ k := fun x hx he => hex ⟨x, hx, he⟩
      simp [find, t.filter_of_not_mem hn] at h
  · rintro ⟨hr, rfl⟩
    simp [find, t.filter_of_mem hf hr]

theorem find_eq_none (hf : f ∈ indexes) {k : κ} :
    t.find f k = none ↔ ∀ r ∈ t.rows, f r ≠ k := by
  constructor
  · intro h r hr he
    rw [(t.find_eq_some hf).mpr ⟨hr, he⟩] at h
    cases h
  · intro h
    cases hr : t.find f k with
    | none => rfl
    | some r => exact absurd ((t.find_eq_some hf).mp hr).2 (h r ((t.find_eq_some hf).mp hr).1)

theorem find_map_congr {σ : Type} {g : ρ → σ} {h : σ → κ} (hf : f ∈ indexes)
    (hg : ∀ r, h (g r) = f r) {t t' : Table ρ κ indexes}
    (hrows : t.rows.map g = t'.rows.map g) (k : κ) :
    (t.find f k).map g = (t'.find f k).map g := by
  cases hr : t.find f k with
  | none =>
    have hr' : t'.find f k = none := by
      rw [find_eq_none t' hf]
      intro r' hmem he
      obtain ⟨r, hmem', hgr⟩ := Multiset.mem_map.mp (hrows ▸ Multiset.mem_map_of_mem g hmem)
      apply (find_eq_none t hf).mp hr r hmem'
      rw [← hg, hgr, hg, he]
    rw [hr']
  | some r =>
    obtain ⟨hmem, he⟩ := (find_eq_some t hf).mp hr
    obtain ⟨r', hmem', hgr⟩ := Multiset.mem_map.mp (hrows ▸ Multiset.mem_map_of_mem g hmem)
    have hr' : t'.find f k = some r' := by
      refine (find_eq_some t' hf).mpr ⟨hmem', ?_⟩
      rw [← hg, hgr, hg, he]
    rw [hr', Option.map_some, Option.map_some, hgr]

/-- A condition that pins down a key leaves one row at most. -/
theorem scalarOneOrNone_filter_key (hf : f ∈ indexes) (e : E) {P : ρ → Prop} [DecidablePred P]
    {k : κ} (hP : ∀ r, P r → f r = k) :
    ∃ o, scalarOneOrNone e (t.rows.filter P) = .ok o ∧ ∀ r, o = some r ↔ r ∈ t.rows ∧ P r := by
  by_cases h : ∃ r ∈ t.rows, P r
  · obtain ⟨r, hr, hPr⟩ := h
    have hone : ∀ x ∈ t.rows, P x → x = r := by
      intro x hx hPx
      have hmem : x ∈ t.rows.filter fun y => f y = f r :=
        Multiset.mem_filter.mpr ⟨hx, (hP x hPx).trans (hP r hPr).symm⟩
      rw [t.filter_of_mem hf hr] at hmem
      exact Multiset.mem_singleton.mp hmem
    have hrows : t.rows.filter P = {r} := by
      rw [← t.filter_of_mem hf hr]
      refine Multiset.filter_congr fun x hx => ⟨fun hPx => ?_, fun hx' => ?_⟩
      · rw [hone x hx hPx]
      · have hmem : x ∈ t.rows.filter fun y => f y = f r := Multiset.mem_filter.mpr ⟨hx, hx'⟩
        rw [t.filter_of_mem hf hr] at hmem
        rwa [Multiset.mem_singleton.mp hmem]
    refine ⟨some r, by rw [hrows, scalarOneOrNone_singleton], fun x => ?_⟩
    constructor
    · rintro ⟨⟩
      exact ⟨hr, hPr⟩
    · rintro ⟨hx, hPx⟩
      rw [hone x hx hPx]
  · have hnone : ∀ r ∈ t.rows, ¬ P r := fun r hr hPr => h ⟨r, hr, hPr⟩
    refine ⟨none, by rw [Multiset.filter_eq_nil.mpr hnone, scalarOneOrNone_zero], fun x => ?_⟩
    constructor
    · rintro ⟨⟩
    · rintro ⟨hx, hPx⟩
      exact absurd hPx (hnone x hx)

theorem insert_eq_some {r : ρ} {t' : Table ρ κ indexes} (h : t.insert r = some t') :
    t.Free r ∧ t'.rows = r ::ₘ t.rows := by
  rw [insert] at h
  split at h
  · rename_i hfree
    exact ⟨hfree, (Option.some.inj h) ▸ rfl⟩
  · cases h

theorem insert_isSome {r : ρ} : (t.insert r).isSome ↔ t.Free r := by
  rw [insert]
  split <;> simp_all

/-- A table of a database takes a row that has no key in common with its rows. -/
theorem exists_insert {δ : Type} {r : ρ} {g : Table ρ κ indexes → δ} :
    (∃ d, ∃ t', t.insert r = some t' ∧ d = g t') ↔ t.Free r := by
  rw [← insert_isSome, Option.isSome_iff_exists]
  constructor
  · rintro ⟨-, t', ht, -⟩
    exact ⟨t', ht⟩
  · rintro ⟨t', ht⟩
    exact ⟨_, t', ht, rfl⟩

variable {k : κ} {w : ρ → ρ} (hw : ∀ g ∈ indexes, ∀ r, g (w r) = g r)

theorem modify_rows_of_cons (hf : f ∈ indexes) {r : ρ} {rest : Multiset ρ}
    (hrows : t.rows = r ::ₘ rest) (hk : f r = k) :
    (t.modify f k w hw).rows = w r ::ₘ rest := by
  have hne : ∀ x ∈ rest, f x ≠ f r := t.key_ne hf hrows
  have hrest : rest.map (fun x => if f x = k then w x else x) = rest := by
    rw [Multiset.map_congr rfl fun x hx => if_neg (hk ▸ hne x hx), Multiset.map_id']
  change t.rows.map _ = _
  rw [hrows, Multiset.map_cons, if_pos hk, hrest]

theorem find_modify {g : ρ → κ} (hg : g ∈ indexes) (k' : κ) :
    (t.modify f k w hw).find g k' =
      (t.find g k').map fun r => if f r = k then w r else r := by
  have hkeep : ∀ r, g (if f r = k then w r else r) = g r := by
    intro r
    by_cases h : f r = k <;> simp [h, hw g hg]
  cases hr : t.find g k' with
  | none =>
    rw [t.find_eq_none hg] at hr
    rw [Option.map_none, find_eq_none _ hg]
    intro x hx
    obtain ⟨r, hrm, rfl⟩ := Multiset.mem_map.mp hx
    rw [hkeep]
    exact hr r hrm
  | some r =>
    obtain ⟨hrm, hrk⟩ := (t.find_eq_some hg).mp hr
    refine (find_eq_some _ hg).mpr ⟨Multiset.mem_map_of_mem _ hrm, ?_⟩
    rw [hkeep]
    exact hrk

theorem map_modify {σ : Type} {g : ρ → σ} (hg : ∀ r, g (w r) = g r) :
    (t.modify f k w hw).rows.map g = t.rows.map g := by
  change (t.rows.map _).map g = _
  rw [Multiset.map_map]
  refine Multiset.map_congr rfl fun x _ => ?_
  by_cases h : f x = k <;> simp [h, hg]

theorem free_modify (r : ρ) : (t.modify f k w hw).Free r ↔ t.Free r := by
  have hkeys : ∀ g ∈ indexes, (t.modify f k w hw).rows.map g = t.rows.map g := by
    intro g hg
    change (t.rows.map _).map g = _
    rw [Multiset.map_map]
    refine Multiset.map_congr rfl fun x _ => ?_
    by_cases h : f x = k <;> simp [h, hw g hg]
  constructor
  · intro h g hg
    rw [← hkeys g hg]
    exact h g hg
  · intro h g hg
    rw [hkeys g hg]
    exact h g hg

theorem modify_comm (hf : f ∈ indexes) {k' : κ} (hne : k ≠ k') {w' : ρ → ρ}
    (hw' : ∀ g ∈ indexes, ∀ r, g (w' r) = g r) :
    (t.modify f k' w' hw').modify f k w hw = (t.modify f k w hw).modify f k' w' hw' := by
  ext1
  change (t.rows.map _).map _ = (t.rows.map _).map _
  rw [Multiset.map_map, Multiset.map_map]
  refine Multiset.map_congr rfl fun r _ => ?_
  simp only [Function.comp_apply]
  by_cases h : f r = k
  · have h' : f r ≠ k' := fun e => hne (h.symm.trans e)
    simp [h, hw f hf, hne]
  · by_cases h' : f r = k'
    · simp [h', hw' f hf, Ne.symm hne]
    · simp [h, h']

def put (t : Table ρ κ indexes) (r : ρ) : Table ρ κ indexes := (t.insert r).getD t

theorem put_rows_of_free {r : ρ} (h : t.Free r) : (t.put r).rows = r ::ₘ t.rows := by
  simp [put, insert, h]

theorem put_of_not_free {r : ρ} (h : ¬ t.Free r) : t.put r = t := by
  simp [put, insert, h]

theorem find_put_self {r : ρ} (h : t.Free r) {g : ρ → κ} (hg : g ∈ indexes) :
    (t.put r).find g (g r) = some r :=
  (find_eq_some _ hg).mpr ⟨by simp [put_rows_of_free _ h], rfl⟩

theorem find_put_of_ne {r : ρ} {g : ρ → κ} {k' : κ} (hr : g r ≠ k') :
    (t.put r).find g k' = t.find g k' := by
  by_cases h : t.Free r
  · simp [find, put_rows_of_free _ h, hr]
  · rw [put_of_not_free _ h]

theorem put_modify_comm {r : ρ} (hr : f r ≠ k) :
    (t.put r).modify f k w hw = (t.modify f k w hw).put r := by
  by_cases h : t.Free r
  · ext1
    rw [put_rows_of_free _ ((t.free_modify hw r).mpr h)]
    change (t.put r).rows.map _ = r ::ₘ t.rows.map _
    rw [put_rows_of_free _ h, Multiset.map_cons, if_neg hr]
  · rw [put_of_not_free _ h, put_of_not_free _ (mt (t.free_modify hw r).mp h)]

theorem free_put {r r' : ρ} (h : ∀ g ∈ indexes, g r ≠ g r') : (t.put r').Free r ↔ t.Free r := by
  by_cases hfree : t.Free r'
  · simp only [Free, put_rows_of_free _ hfree, Multiset.map_cons, Multiset.mem_cons, not_or]
    exact ⟨fun hr g hg => (hr g hg).2, fun hr g hg => ⟨h g hg, hr g hg⟩⟩
  · rw [put_of_not_free _ hfree]

theorem put_comm {r r' : ρ} (h : ∀ g ∈ indexes, g r ≠ g r') :
    (t.put r').put r = (t.put r).put r' := by
  have h' : ∀ g ∈ indexes, g r' ≠ g r := fun g hg => (h g hg).symm
  by_cases hr : t.Free r
  · by_cases hr' : t.Free r'
    · ext1
      rw [put_rows_of_free _ ((t.free_put h).mpr hr), put_rows_of_free _ ((t.free_put h').mpr hr'),
        put_rows_of_free _ hr, put_rows_of_free _ hr', Multiset.cons_swap]
    · rw [put_of_not_free _ hr', put_of_not_free _ (mt (t.free_put h').mp hr')]
  · rw [put_of_not_free _ hr, put_of_not_free _ (mt (t.free_put h).mp hr)]

end

end Table

end ClickNBack.Relational
