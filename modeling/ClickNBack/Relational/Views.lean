import ClickNBack.Relational.Table

namespace ClickNBack.Relational

variable {ρ σ κ : Type}

theorem mem_map_filterMap {f : ρ → Option σ} {g : σ → κ} {g' : ρ → κ}
    (h : ∀ r s, f r = some s → g s = g' r) {rows : Multiset ρ} {k : κ}
    (hk : k ∈ (rows.filterMap f).map g) : k ∈ rows.map g' := by
  obtain ⟨s, hs, rfl⟩ := Multiset.mem_map.mp hk
  obtain ⟨r, hr, hrs⟩ := (Multiset.mem_filterMap f _).mp hs
  exact Multiset.mem_map.mpr ⟨r, hr, (h r s hrs).symm⟩

theorem nodup_map_filterMap {f : ρ → Option σ} {g : σ → κ} {g' : ρ → κ}
    (h : ∀ r s, f r = some s → g s = g' r) {rows : Multiset ρ} (hrows : (rows.map g').Nodup) :
    ((rows.filterMap f).map g).Nodup := by
  induction rows using Multiset.induction with
  | empty => exact Multiset.nodup_zero
  | cons r rows ih =>
    rw [Multiset.map_cons, Multiset.nodup_cons] at hrows
    cases hr : f r with
    | none =>
      rw [Multiset.filterMap_cons_none _ _ hr]
      exact ih hrows.2
    | some s =>
      rw [Multiset.filterMap_cons_some f _ _ hr, Multiset.map_cons, Multiset.nodup_cons]
      refine ⟨fun hs => hrows.1 ?_, ih hrows.2⟩
      rw [← h r s hr]
      exact mem_map_filterMap h hs

namespace Table

variable {indexes : List (ρ → κ)} {indexes' : List (σ → κ)}

/-- The rows of a table as another module reads them, which does not see those that `f`
leaves out. -/
def view (t : Table ρ κ indexes) (f : ρ → Option σ)
    (h : ∀ g ∈ indexes', ∃ g' ∈ indexes, ∀ r s, f r = some s → g s = g' r) :
    Table σ κ indexes' where
  rows := t.rows.filterMap f
  unique g hg := by
    obtain ⟨g', hg', hsame⟩ := h g hg
    exact nodup_map_filterMap hsame (t.unique g' hg')

section

variable (t : Table ρ κ indexes) {f : ρ → Option σ}
  (h : ∀ g ∈ indexes', ∃ g' ∈ indexes, ∀ r s, f r = some s → g s = g' r)

theorem mem_view {s : σ} : s ∈ (t.view f h).rows ↔ ∃ r ∈ t.rows, f r = some s :=
  Multiset.mem_filterMap f _

theorem exists_of_find_view [DecidableEq κ] {g : σ → κ} (hg : g ∈ indexes') {k : κ} {s : σ}
    (hs : (t.view f h).find g k = some s) : ∃ r ∈ t.rows, f r = some s ∧ g s = k := by
  obtain ⟨hmem, hk⟩ := ((t.view f h).find_eq_some hg).mp hs
  obtain ⟨r, hr, hrs⟩ := (t.mem_view h).mp hmem
  exact ⟨r, hr, hrs, hk⟩

end

end Table

end ClickNBack.Relational
