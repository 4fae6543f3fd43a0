import ClickNBack.ReadCommitted.Guarantees
import ClickNBack.Relational.Queries
import ClickNBack.Relational.Views

namespace ClickNBack.Relational

open ReadCommitted

variable {ρ σ κ : Type}

def Same (g : ρ → σ) (r r' : ρ) : Prop := g r' = g r

theorem Same.refl (g : ρ → σ) (r : ρ) : Same g r r := rfl

theorem Same.trans {g : ρ → σ} (r r' r'' : ρ) (h : Same g r r') (h' : Same g r' r'') :
    Same g r r'' := Eq.trans h' h

namespace Table

variable {indexes : List (ρ → κ)} {indexes' : List (σ → κ)} {R : ρ → ρ → Prop}

/-- Every row is still there, as an `R` of what it was. -/
def Evolves (R : ρ → ρ → Prop) (t t' : Table ρ κ indexes) : Prop :=
  ∀ r ∈ t.rows, ∃ r' ∈ t'.rows, R r r'

theorem Evolves.refl (hR : ∀ r, R r r) (t : Table ρ κ indexes) : Evolves R t t :=
  fun r hr => ⟨r, hr, hR r⟩

theorem Evolves.trans (hR : ∀ r r' r'', R r r' → R r' r'' → R r r'') {t t' t'' : Table ρ κ indexes}
    (h : Evolves R t t') (h' : Evolves R t' t'') : Evolves R t t'' := by
  intro r hr
  obtain ⟨r', hr', hrr'⟩ := h r hr
  obtain ⟨r'', hr'', hrr''⟩ := h' r' hr'
  exact ⟨r'', hr'', hR _ _ _ hrr' hrr''⟩

theorem evolves_insert [DecidableEq κ] (hR : ∀ r, R r r) {t t' : Table ρ κ indexes} {r : ρ}
    (h : t.insert r = some t') : Evolves R t t' := by
  intro x hx
  refine ⟨x, ?_, hR x⟩
  rw [(t.insert_eq_some h).2]
  exact Multiset.mem_cons_of_mem hx

theorem evolves_put [DecidableEq κ] (hR : ∀ r, R r r) (t : Table ρ κ indexes) (r : ρ) :
    Evolves R t (t.put r) := by
  rw [put]
  cases h : t.insert r with
  | none => exact Evolves.refl hR t
  | some t' => exact evolves_insert hR h

theorem mem_modify [DecidableEq κ] {t : Table ρ κ indexes} {f : ρ → κ} {k : κ} {w : ρ → ρ}
    (hw : ∀ g ∈ indexes, ∀ r, g (w r) = g r) {r' : ρ} :
    r' ∈ (t.modify f k w hw).rows ↔ ∃ r ∈ t.rows, (if f r = k then w r else r) = r' :=
  Multiset.mem_map

theorem mem_or_of_mem_modify [DecidableEq κ] {t : Table ρ κ indexes} {f : ρ → κ} {k : κ}
    {w : ρ → ρ} (hw : ∀ g ∈ indexes, ∀ r, g (w r) = g r) {r' : ρ}
    (h : r' ∈ (t.modify f k w hw).rows) : r' ∈ t.rows ∨ ∃ r ∈ t.rows, f r = k ∧ r' = w r := by
  obtain ⟨r, hr, rfl⟩ := (mem_modify hw).mp h
  by_cases hk : f r = k
  · exact Or.inr ⟨r, hr, hk, if_pos hk⟩
  · rw [if_neg hk]
    exact Or.inl hr

theorem evolves_modify [DecidableEq κ] (hR : ∀ r, R r r) (t : Table ρ κ indexes) {f : ρ → κ}
    {k : κ} {w : ρ → ρ} (hw : ∀ g ∈ indexes, ∀ r, g (w r) = g r) (hwR : ∀ r, R r (w r)) :
    Evolves R t (t.modify f k w hw) := by
  intro r hr
  refine ⟨_, (mem_modify hw).mpr ⟨r, hr, rfl⟩, ?_⟩
  by_cases hk : f r = k
  · rw [if_pos hk]
    exact hwR r
  · rw [if_neg hk]
    exact hR r

section

variable [DecidableEq κ] {t t' : Table ρ κ indexes} {r : ρ} {P : ρ → Prop}

theorem forall_insert (h : t.insert r = some t') (hr : P r) (ht : ∀ x ∈ t.rows, P x) :
    ∀ x ∈ t'.rows, P x := by
  rw [(t.insert_eq_some h).2]
  exact fun x hx => (Multiset.mem_cons.mp hx).elim (fun he => he ▸ hr) (ht x)

theorem forall_put (hr : P r) (ht : ∀ x ∈ t.rows, P x) : ∀ x ∈ (t.put r).rows, P x := by
  rw [put]
  cases h : t.insert r with
  | none => exact ht
  | some t' => exact forall_insert h hr ht

theorem forall_modify {f : ρ → κ} {k : κ} {w : ρ → ρ} (hw : ∀ g ∈ indexes, ∀ r, g (w r) = g r)
    (hP : ∀ r, P r → P (w r)) (ht : ∀ x ∈ t.rows, P x) : ∀ x ∈ (t.modify f k w hw).rows, P x := by
  intro x hx
  obtain ⟨r, hr, rfl⟩ := (mem_modify hw).mp hx
  by_cases hk : f r = k
  · rw [if_pos hk]
    exact hP r (ht r hr)
  · rw [if_neg hk]
    exact ht r hr

end

theorem Evolves.view {R' : σ → σ → Prop} {t t' : Table ρ κ indexes} {f : ρ → Option σ}
    (hf : ∀ g ∈ indexes', ∃ g' ∈ indexes, ∀ r s, f r = some s → g s = g' r)
    (hR : ∀ r r' s, R r r' → f r = some s → ∃ s', f r' = some s' ∧ R' s s')
    (h : Evolves R t t') : Evolves R' (t.view f hf) (t'.view f hf) := by
  intro s hs
  obtain ⟨r, hr, hrs⟩ := (t.mem_view hf).mp hs
  obtain ⟨r', hr', hrr'⟩ := h r hr
  obtain ⟨s', hs', hss'⟩ := hR r r' s hrr' hrs
  exact ⟨s', (t'.mem_view hf).mpr ⟨r', hr', hs'⟩, hss'⟩

end Table

variable {D S E K β : Type} [Statement S D E K] {I : D → Prop} {Later : D → D → Prop}
  {G : List S → D → Prop} {d : D} {log : List S}

theorem abides_selectOne_bind {e : E} {rows : D → Multiset ρ} {f : Option ρ → Prog D S E β}
    (h : ∀ d', I d' → Later d d' → Runs log d' → ∀ r,
      scalarOneOrNone e (rows (replay log d')) = .ok r → (f r).Abides I Later G d' log) :
    (selectOne e rows >>= f).Abides I Later G d log := by
  rw [selectOne, bind_assoc]
  refine Prog.abides_query_bind fun d' hI hlater hruns => ?_
  exact Prog.abides_lift_bind fun r hr => h d' hI hlater hruns r hr

end ClickNBack.Relational
