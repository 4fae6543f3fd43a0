import ClickNBack.Relational.Queries
import Mathlib.Data.List.Nodup
import Mathlib.Data.Multiset.Count

namespace ClickNBack.Relational

variable {ρ : Type}

theorem newestFirst_perm (createdAt : ρ → Nat) (rows : List ρ) :
    (newestFirst createdAt rows).Perm rows := List.mergeSort_perm _ _

theorem newestFirst_pairwise (createdAt : ρ → Nat) (rows : List ρ) :
    (newestFirst createdAt rows).Pairwise fun r r' => createdAt r' ≤ createdAt r := by
  have hsorted : (newestFirst createdAt rows).Pairwise fun r r' =>
      decide (createdAt r' ≤ createdAt r) = true := List.pairwise_mergeSort
    (fun a b c hab hbc => by simp only [decide_eq_true_eq] at hab hbc ⊢; omega)
    (fun a b => by simp only [Bool.or_eq_true, decide_eq_true_eq]; omega) rows
  exact hsorted.imp fun h => of_decide_eq_true h

theorem newestFirst_of_pairwise {createdAt : ρ → Nat} {rows : List ρ}
    (h : rows.Pairwise fun r r' => createdAt r' ≤ createdAt r) :
    newestFirst createdAt rows = rows :=
  List.mergeSort_of_pairwise (h.imp fun hle => decide_eq_true hle)

def Arranges (createdAt : ρ → Nat) (rows : Multiset ρ) (l : List ρ) : Prop :=
  (l : Multiset ρ) = rows ∧ l.Pairwise fun r r' => createdAt r' ≤ createdAt r

theorem exists_listing (l : List ρ) : ∃ listing : Listing ρ, listing.list l = l := by
  classical
  refine ⟨⟨fun rows => if (l : Multiset ρ) = rows then l else rows.toList, fun rows => ?_⟩,
    if_pos rfl⟩
  by_cases h : (l : Multiset ρ) = rows
  · rw [if_pos h, h]
  · rw [if_neg h, Multiset.coe_toList]

theorem arranges_newestFirst (createdAt : ρ → Nat) (listing : Listing ρ) (rows : Multiset ρ) :
    Arranges createdAt rows (newestFirst createdAt (listing.list rows)) :=
  ⟨(Multiset.coe_eq_coe.mpr (newestFirst_perm _ _)).trans (listing.coe_list rows),
    newestFirst_pairwise _ _⟩

section

variable {createdAt : ρ → Nat} {rows : Multiset ρ} {l l' : List ρ}

theorem Arranges.countP_eq (h : Arranges createdAt rows l) (p : ρ → Bool) :
    l.countP p = rows.countP (p ·) := by
  rw [← h.1, Multiset.coe_countP]
  simp

/-- Some of the rows with one timestamp come before position `m` and some after it. -/
def SplitsTies (createdAt : ρ → Nat) (rows : Multiset ρ) (m : Nat) : Prop :=
  ∃ t, (rows.countP (t < createdAt ·)) < m ∧ m < rows.countP (t ≤ createdAt ·)

theorem not_splitsTies_of_nodup (h : (rows.map createdAt).Nodup) (m : Nat) :
    ¬ SplitsTies createdAt rows m := by
  rintro ⟨t, hover, hunder⟩
  have hsplit : rows.countP (t ≤ createdAt ·) =
      rows.countP (t < createdAt ·) + (rows.map createdAt).count t := by
    have hboth : rows.filter (fun r => t < createdAt r ∧ t = createdAt r) = 0 :=
      Multiset.filter_eq_nil.mpr fun r _ => by omega
    rw [Multiset.count_map, Multiset.countP_eq_card_filter, Multiset.countP_eq_card_filter,
      ← Multiset.card_add, Multiset.filter_add_filter, hboth, Multiset.add_zero]
    exact congrArg _ (Multiset.filter_congr fun r _ => Nat.le_iff_lt_or_eq)
  have hone := Multiset.nodup_iff_count_le_one.mp h t
  omega

theorem filter_eq_take (h : l.Pairwise fun r r' => createdAt r' ≤ createdAt r) (t : Nat) :
    l.filter (t ≤ createdAt ·) = l.take (l.countP (t ≤ createdAt ·)) := by
  induction l with
  | nil => rfl
  | cons r l ih =>
    obtain ⟨hr, hl⟩ := List.pairwise_cons.mp h
    by_cases ht : t ≤ createdAt r
    · rw [List.filter_cons_of_pos (by simpa using ht), List.countP_cons_of_pos (by simpa using ht),
        List.take_succ_cons, ih hl]
    · have hnone : ∀ x ∈ r :: l, ¬ decide (t ≤ createdAt x) = true := by
        intro x hx
        have hle : createdAt x ≤ createdAt r := by
          obtain rfl | hx := List.mem_cons.mp hx
          · exact Nat.le_refl _
          · exact hr x hx
        simp only [decide_eq_true_eq]
        omega
      rw [List.filter_eq_nil_iff.mpr hnone, List.countP_eq_zero.mpr hnone, List.take_zero]

theorem Arranges.take_countP (h : Arranges createdAt rows l) (t : Nat) :
    (l.take (rows.countP (t ≤ createdAt ·)) : Multiset ρ) =
      rows.filter (t ≤ createdAt ·) := by
  have hcount : l.countP (t ≤ createdAt ·) = rows.countP (t ≤ createdAt ·) := by
    simpa using h.countP_eq (t ≤ createdAt ·)
  rw [← hcount, ← filter_eq_take h.2, ← h.1, Multiset.filter_coe]

theorem countP_of_pairwise {p q : List ρ} {r : ρ}
    (h : (p ++ r :: q).Pairwise fun r r' => createdAt r' ≤ createdAt r) :
    (p ++ r :: q).countP (createdAt r < createdAt ·) ≤ p.length ∧
      p.length < (p ++ r :: q).countP (createdAt r ≤ createdAt ·) := by
  obtain ⟨-, hrest, hcross⟩ := List.pairwise_append.mp h
  have hbefore : p.countP (createdAt r ≤ createdAt ·) = p.length :=
    List.countP_eq_length.mpr fun x hx => by simpa using hcross x hx r List.mem_cons_self
  have hafter : q.countP (createdAt r < createdAt ·) = 0 :=
    List.countP_eq_zero.mpr fun x hx => by simpa using (List.pairwise_cons.mp hrest).1 x hx
  constructor
  · rw [List.countP_append, List.countP_cons, hafter]
    simpa using List.countP_le_length
  · rw [List.countP_append, List.countP_cons, hbefore]
    simp

/-- Where a position does not split rows with one timestamp, the rows before it are
the same in every order. -/
theorem Arranges.take_eq (h : Arranges createdAt rows l) (h' : Arranges createdAt rows l') {m : Nat}
    (hm : ¬ SplitsTies createdAt rows m) : (l.take m : Multiset ρ) = l'.take m := by
  have hlength : l.length = l'.length := by
    rw [← Multiset.coe_card, ← Multiset.coe_card, h.1, h'.1]
  by_cases hend : m < l.length
  · cases m with
    | zero => rfl
    | succ m =>
      -- the timestamp of the last row before the position cuts the rows there
      have hsplit : l = l.take m ++ l[m] :: l.drop (m + 1) := by
        rw [List.getElem_cons_drop, List.take_append_drop]
      have hbefore : (l.take m).length = m := List.length_take_of_le (by omega)
      have hcounts := countP_of_pairwise (hsplit ▸ h.2)
      rw [← hsplit, hbefore, h.countP_eq, h.countP_eq] at hcounts
      simp only [decide_eq_true_eq] at hcounts
      have hcut : rows.countP (createdAt l[m] ≤ createdAt ·) = m + 1 := by
        by_contra hne
        exact hm ⟨createdAt l[m], by omega, by omega⟩
      rw [← hcut, h.take_countP, h'.take_countP]
  · rw [List.take_of_length_le (by omega), List.take_of_length_le (by omega), h.1, h'.1]

theorem pairwise_swap {p q : List ρ} {x y : ρ} (hxy : createdAt x ≤ createdAt y)
    (h : (p ++ x :: y :: q).Pairwise fun r r' => createdAt r' ≤ createdAt r) :
    (p ++ y :: x :: q).Pairwise fun r r' => createdAt r' ≤ createdAt r := by
  obtain ⟨hp, hrest, hcross⟩ := List.pairwise_append.mp h
  obtain ⟨hx, hrest⟩ := List.pairwise_cons.mp hrest
  obtain ⟨hy, hq⟩ := List.pairwise_cons.mp hrest
  have hxq : (x :: q).Pairwise fun r r' => createdAt r' ≤ createdAt r :=
    List.pairwise_cons.mpr ⟨fun r hr => hx r (List.mem_cons_of_mem y hr), hq⟩
  have hyxq : ∀ r ∈ x :: q, createdAt r ≤ createdAt y := by
    intro r hr
    obtain rfl | hr := List.mem_cons.mp hr
    · exact hxy
    · exact hy r hr
  refine List.pairwise_append.mpr ⟨hp, List.pairwise_cons.mpr ⟨hyxq, hxq⟩, ?_⟩
  intro a ha b hb
  apply hcross a ha b
  simp only [List.mem_cons] at hb ⊢
  tauto

theorem SplitsTies.exists_swap {m : Nat} (hm : SplitsTies createdAt rows m)
    (h : Arranges createdAt rows l) :
    ∃ p x y q, p.length + 1 = m ∧ l = p ++ x :: y :: q ∧
      Arranges createdAt rows (p ++ y :: x :: q) := by
  obtain ⟨t, hover, hunder⟩ := hm
  have hunder' := h.countP_eq (t ≤ createdAt ·)
  have hover' := h.countP_eq (t < createdAt ·)
  simp only [decide_eq_true_eq] at hunder' hover'
  have hlt : m < l.length :=
    Nat.lt_of_lt_of_le (hunder' ▸ hunder) List.countP_le_length
  obtain ⟨m, rfl⟩ : ∃ n, m = n + 1 := ⟨m - 1, by omega⟩
  have hsplit : l = l.take m ++ l[m] :: l[m + 1] :: l.drop (m + 1 + 1) := by
    rw [List.getElem_cons_drop, List.getElem_cons_drop, List.take_append_drop]
  have hlength : (l.take m).length = m := List.length_take_of_le (by omega)
  generalize l.take m = p, l[m] = x, l[m + 1] = y, l.drop (m + 1 + 1) = q at hsplit hlength
  subst hsplit
  -- both rows have the timestamp `t`
  have hlow : t ≤ createdAt y := by
    by_contra hlow
    have hsorted := h.2
    rw [List.append_cons] at hsorted hunder'
    have hbelow := (countP_of_pairwise hsorted).1
    have hmono : ((p ++ [x]) ++ y :: q).countP (t ≤ createdAt ·) ≤
        ((p ++ [x]) ++ y :: q).countP (createdAt y < createdAt ·) := by
      refine List.countP_mono_left fun r _ hr => ?_
      simp only [decide_eq_true_eq] at hr ⊢
      omega
    rw [List.length_append, List.length_singleton] at hbelow
    omega
  have hhigh : createdAt x ≤ t := by
    by_contra hhigh
    have habove := (countP_of_pairwise h.2).2
    have hmono : (p ++ x :: y :: q).countP (createdAt x ≤ createdAt ·) ≤
        (p ++ x :: y :: q).countP (t < createdAt ·) := by
      refine List.countP_mono_left fun r _ hr => ?_
      simp only [decide_eq_true_eq] at hr ⊢
      omega
    omega
  refine ⟨p, x, y, q, by omega, rfl, ?_, pairwise_swap (by omega) h.2⟩
  rw [← h.1]
  exact Multiset.coe_eq_coe.mpr (List.Perm.append_left p (List.Perm.swap x y q))

end

def pageCount (limit total : Nat) : Nat := (total + limit - 1) / limit

theorem lt_pageCount {limit total k : Nat} (hlimit : 0 < limit) :
    k < pageCount limit total ↔ k * limit < total := by
  rw [pageCount, ← Nat.succ_le_iff, Nat.le_div_iff_mul_le hlimit, Nat.succ_mul]
  omega

/-- What a client reads that fetches the pages at offsets 0, `limit`, 2 `limit`, … until
the total is reached; `fetch k` is the answer to its request for page `k`. -/
def readPages (limit : Nat) (fetch : Nat → List ρ × Nat) : List ρ :=
  (List.range (pageCount limit (fetch 0).2)).flatMap fun k => (fetch k).1

/-- Whatever order the database picks for each query, the requests for the pages
succeed and together return each of the rows once. -/
def ReadsOnce {E : Type} (list : Listing ρ → Nat → Nat → Except E (List ρ × Nat))
    (limit : Nat) (rows : Multiset ρ) : Prop :=
  ∀ listing : Nat → Listing ρ, ∃ answers : Nat → List ρ × Nat,
    (∀ k, list (listing k) (k * limit) limit = .ok (answers k)) ∧
      (readPages limit answers : Multiset ρ) = rows

section

variable {createdAt : ρ → Nat} {rows : Multiset ρ} {limit : Nat} {answers : Nat → List ρ}

/-- The pages so far hold the rows before the next one, if no page boundary splits
rows with one timestamp. -/
theorem pages_eq_take (hanswers : ∀ k, Arranges createdAt rows (answers k))
    (hsplit : ∀ k, ¬ SplitsTies createdAt rows (k * limit)) (n : Nat) :
    ((List.range n).flatMap fun k => page (k * limit) limit (answers k) : Multiset ρ) =
      (answers 0).take (n * limit) := by
  induction n with
  | zero => simp
  | succ n ih =>
    rw [List.range_succ, List.flatMap_append, List.flatMap_singleton, ← Multiset.coe_add, ih,
      (hanswers 0).take_eq (hanswers n) (hsplit n), (hanswers 0).take_eq (hanswers n) (hsplit _),
      Nat.succ_mul, List.take_add, ← Multiset.coe_add]
    rfl

/-- Two consecutive pages share a row when the rows at their boundary change places
between the two queries. -/
theorem pages_share_of_swap (hlimit : 0 < limit) {p q : List ρ} {x y : ρ} {k : Nat}
    (hp : p.length + 1 = (k + 1) * limit) :
    ¬ (page (k * limit) limit (p ++ x :: y :: q)).Disjoint
      (page ((k + 1) * limit) limit (p ++ y :: x :: q)) := by
  intro hdisjoint
  rw [Nat.succ_mul] at hp hdisjoint
  refine hdisjoint (a := x) ?_ ?_
  · have hx : (page (k * limit) limit (p ++ x :: y :: q))[limit - 1]? = some x := by
      rw [page, List.getElem?_take_of_lt (by omega), List.getElem?_drop,
        show k * limit + (limit - 1) = p.length by omega, List.getElem?_append_right (by omega)]
      simp
    exact List.mem_of_getElem? hx
  · have hx : (page (k * limit + limit) limit (p ++ y :: x :: q))[0]? = some x := by
      rw [page, List.getElem?_take_of_lt hlimit, List.getElem?_drop,
        List.getElem?_append_right (by omega), show k * limit + limit + 0 - p.length = 1 by omega]
      simp
    exact List.mem_of_getElem? hx

theorem readsOnce_iff_readPages {E : Type} {list : Listing ρ → Nat → Nat → Except E (List ρ × Nat)}
    {order : List ρ → List ρ}
    (hlist : ∀ listing offset limit, list listing offset limit =
      .ok (page offset limit (order (listing.list rows)), rows.card)) :
    ReadsOnce list limit rows ↔ ∀ listing : Nat → Listing ρ, (readPages limit fun k =>
      (page (k * limit) limit (order ((listing k).list rows)), rows.card) : Multiset ρ) = rows := by
  refine forall_congr' fun listing => ?_
  constructor
  · rintro ⟨answers, hanswers, hread⟩
    have heq : answers = fun k =>
        (page (k * limit) limit (order ((listing k).list rows)), rows.card) :=
      funext fun k => Except.ok.inj ((hanswers k).symm.trans (hlist _ _ _))
    rwa [heq] at hread
  · exact fun hread => ⟨_, fun k => hlist _ _ _, hread⟩

variable (createdAt) in
theorem readPages_newestFirst_iff (hnodup : rows.Nodup) (hlimit : 0 < limit) :
    (∀ listing : Nat → Listing ρ, (readPages limit fun k =>
        (page (k * limit) limit (newestFirst createdAt ((listing k).list rows)), rows.card) :
          Multiset ρ) = rows) ↔
      ∀ k, ¬ SplitsTies createdAt rows (k * limit) := by
  constructor
  · intro hpages k hsplit
    cases k with
    | zero =>
      obtain ⟨t, hover, -⟩ := hsplit
      omega
    | succ k =>
      obtain ⟨listing⟩ : Nonempty (Listing ρ) := ⟨default⟩
      have harranges := arranges_newestFirst createdAt listing rows
      obtain ⟨p, x, y, q, hp, hl, hswap⟩ := hsplit.exists_swap harranges
      obtain ⟨swapped, hswapped⟩ := exists_listing (p ++ y :: x :: q)
      rw [hswap.1] at hswapped
      -- the later page alone sees the two rows in the other order
      have hnew := hpages fun j => if j = k + 1 then swapped else listing
      rw [← hnew, Multiset.coe_nodup] at hnodup
      have hcount : k + 1 < pageCount limit rows.card := by
        rw [lt_pageCount hlimit, ← harranges.1, Multiset.coe_card, hl, ← hp]
        simp only [List.length_append, List.length_cons]
        omega
      have hdisjoint := List.pairwise_iff_getElem.mp (List.nodup_flatMap.mp hnodup).2 k (k + 1)
        (by simp; omega) (by simpa using hcount) (by omega)
      simp only [List.getElem_range, Function.onFun] at hdisjoint
      rw [if_neg (by omega), if_true, hl, hswapped, newestFirst_of_pairwise hswap.2] at hdisjoint
      exact pages_share_of_swap hlimit hp hdisjoint
  · intro hsplit listing
    have harranges := fun k => arranges_newestFirst createdAt (listing k) rows
    apply (pages_eq_take harranges hsplit _).trans
    rw [List.take_of_length_le, (harranges 0).1]
    rw [← Multiset.coe_card, (harranges 0).1, ← Nat.not_lt, ← lt_pageCount hlimit]
    exact Nat.lt_irrefl _

/-- Pages ordered by a timestamp return every row once, in whatever order each query
returns rows with one timestamp, exactly when no page boundary splits such rows. -/
theorem readsOnce_newestFirst_iff {E : Type}
    {list : Listing ρ → Nat → Nat → Except E (List ρ × Nat)}
    (hlist : ∀ listing offset limit, list listing offset limit =
      .ok (page offset limit (newestFirst createdAt (listing.list rows)), rows.card))
    (hnodup : rows.Nodup) (hlimit : 0 < limit) :
    ReadsOnce list limit rows ↔ ∀ k, ¬ SplitsTies createdAt rows (k * limit) :=
  (readsOnce_iff_readPages hlist).trans (readPages_newestFirst_iff createdAt hnodup hlimit)

/-- Without ORDER BY they do exactly when there is one page at most. -/
theorem readsOnce_unordered_iff {E : Type}
    {list : Listing ρ → Nat → Nat → Except E (List ρ × Nat)}
    (hlist : ∀ listing offset limit, list listing offset limit =
      .ok (page offset limit (listing.list rows), rows.card))
    (hnodup : rows.Nodup) (hlimit : 0 < limit) :
    ReadsOnce list limit rows ↔ rows.card ≤ limit := by
  -- without ORDER BY all rows count as equally old
  have hsame : ∀ l : List ρ, newestFirst (fun _ => 0) l = l :=
    fun l => newestFirst_of_pairwise (List.pairwise_of_forall fun _ _ => Nat.le_refl 0)
  have hlist' : ∀ listing offset limit, list listing offset limit =
      .ok (page offset limit (newestFirst (fun _ => 0) (listing.list rows)), rows.card) := by
    intro listing offset limit
    rw [hsame, hlist]
  rw [readsOnce_newestFirst_iff hlist' hnodup hlimit]
  constructor
  · intro hsplit
    by_contra hmore
    refine hsplit 1 ⟨0, ?_, ?_⟩ <;> simp <;> omega
  · rintro hone k ⟨t, hover, hunder⟩
    have hle : rows.countP (fun x => t ≤ (fun _ => 0) x) ≤ rows.card :=
      Multiset.countP_le_card _ _
    have hk : k ≠ 0 := by
      rintro rfl
      omega
    have hmul := Nat.le_mul_of_pos_left limit (Nat.pos_of_ne_zero hk)
    omega

end

end ClickNBack.Relational
