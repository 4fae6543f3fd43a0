import ClickNBack.ReadCommitted.Program
import ClickNBack.Relational.Table

namespace ClickNBack.Relational

open ReadCommitted

variable {D S E ρ κ : Type}

/-- SELECT with `scalar_one_or_none`; `e` is its MultipleResultsFound. -/
def selectOne (e : E) (rows : D → Multiset ρ) : Prog D S E (Option ρ) :=
  Prog.query (fun d => scalarOneOrNone e (rows d)) >>= Prog.lift

/-- A unique index makes `scalar_one_or_none` a lookup. -/
theorem selectOne_eq_query [DecidableEq κ] {indexes : List (ρ → κ)} (e : E)
    (table : D → Table ρ κ indexes) {f : ρ → κ} (hf : f ∈ indexes) (k : κ) :
    (selectOne e fun d => (table d).rows.filter fun r => f r = k : Prog D S E (Option ρ)) =
      Prog.query fun d => (table d).find f k := by
  change Prog.select _ = Prog.select _
  congr 1
  funext d
  change Prog.lift (scalarOneOrNone _ _) = _
  rw [Table.scalarOneOrNone_filter _ hf]
  rfl

theorem committed_selectOne_bind {K β : Type} [Statement S D E K] {P : List S → Prop} {d : D}
    {log : List S} {e : E} {rows : D → Multiset ρ} {f : Option ρ → Prog D S E β} (hnil : P [])
    (hok : ∀ r, P ((f r).committed d log)) : P ((selectOne e rows >>= f).committed d log) := by
  rw [selectOne]
  rw [bind_assoc, Prog.committed_query_bind]
  exact Prog.committed_lift_bind hnil fun r _ => hok r

def newestFirst (createdAt : ρ → Nat) (rows : List ρ) : List ρ :=
  rows.mergeSort fun r r' => createdAt r' ≤ createdAt r

def page (offset limit : Nat) (rows : List ρ) : List ρ := (rows.drop offset).take limit

/-- `first()` of a query without ORDER BY. -/
def first (listing : Listing ρ) (rows : Multiset ρ) : Option ρ := (listing.list rows).head?

theorem first_eq_some {listing : Listing ρ} {rows : Multiset ρ}
    (h : ∀ r ∈ rows, ∀ r' ∈ rows, r = r') {r : ρ} : first listing rows = some r ↔ r ∈ rows := by
  constructor
  · intro hr
    exact listing.mem_list.mp (List.mem_of_head? hr)
  · intro hr
    cases hlist : listing.list rows with
    | nil =>
      have hmem := listing.mem_list.mpr hr
      rw [hlist] at hmem
      cases hmem
    | cons r' l =>
      have hr' : r' ∈ rows := listing.mem_list.mp (hlist ▸ List.mem_cons_self)
      rw [first, hlist, h r hr r' hr']
      rfl

end ClickNBack.Relational
