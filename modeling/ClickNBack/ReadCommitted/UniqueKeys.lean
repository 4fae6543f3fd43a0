import ClickNBack.ReadCommitted.Atomic

namespace ClickNBack.ReadCommitted

variable {D S E K : Type} [Statement S D E K]

/-- Nothing but a key makes the database refuse a statement: `keys` are those that
a statement adds, `needs` those of the rows that it updates, and `taken` those that
the rows have. -/
structure UniqueKeys (keys needs : S → List K) (taken : D → K → Prop) : Prop where
  locks : ∀ s d, keys s ⊆ Statement.locks s d
  ok_iff : ∀ s d, (∃ d', Statement.exec s d = .ok d') ↔
    (∀ k ∈ keys s, ¬ taken d k) ∧ ∀ k ∈ needs s, taken d k
  taken_of_ok : ∀ s d d', Statement.exec s d = .ok d' →
    ∀ k, taken d' k ↔ taken d k ∨ k ∈ keys s

namespace UniqueKeys

variable {keys needs : S → List K} {taken : D → K → Prop} {l l' : List S} {d : D}

theorem taken_replay (h : UniqueKeys keys needs taken) (hl : Runs l d) (k : K) :
    taken (replay l d) k ↔ taken d k ∨ ∃ s ∈ l, k ∈ keys s := by
  induction l generalizing d with
  | nil => simp
  | cons s l ih =>
    obtain ⟨d', hd, hrest⟩ := hl
    rw [replay_cons, apply_of_ok hd, ih hrest, h.taken_of_ok s d d' hd, or_assoc]
    simp

theorem runs_of_taken (h : UniqueKeys keys needs taken) {d' : D} (hl : Runs l d)
    (hkept : ∀ k, taken d k → taken d' k)
    (htaken : ∀ s ∈ l, ∀ k ∈ keys s, taken d' k → taken d k) : Runs l d' := by
  induction l generalizing d d' with
  | nil => trivial
  | cons s l ih =>
    obtain ⟨e, he, hrest⟩ := hl
    obtain ⟨hfree, hpresent⟩ := (h.ok_iff s d).mp ⟨e, he⟩
    obtain ⟨e', he'⟩ := (h.ok_iff s d').mpr
      ⟨fun k hk hk' => hfree k hk (htaken s List.mem_cons_self k hk hk'),
        fun k hk => hkept k (hpresent k hk)⟩
    have htakes := h.taken_of_ok s d e he
    have htakes' := h.taken_of_ok s d' e' he'
    refine ⟨e', he', ih hrest (fun k hk => ?_) fun t ht k hk hk' => ?_⟩
    · exact (htakes' k).mpr (((htakes k).mp hk).imp_left (hkept k))
    · exact (htakes k).mpr (((htakes' k).mp hk').imp_left
        (htaken t (List.mem_cons_of_mem s ht) k hk))

theorem runs_after (h : UniqueKeys keys needs taken) (hl : Runs l d) (hl' : Runs l' d)
    (happ : ∀ t ∈ l, ∀ u ∈ l', List.Disjoint (keys t) (keys u)) : Runs l (replay l' d) := by
  apply h.runs_of_taken hl fun k hk => (h.taken_replay hl' k).mpr (Or.inl hk)
  intro s hs k hk hk'
  obtain hd | ⟨u, hu, hku⟩ := (h.taken_replay hl' k).mp hk'
  · exact hd
  · exact absurd hku (happ s hs u hu hk)

theorem disjoint_of_not_blocked (h : UniqueKeys keys needs taken) {ι α : Type} {s : Sys ι D S E α}
    {i j : ι} {st u : S} (hfree : ¬ s.Blocked i st) (hj : j ≠ i) (hu : u ∈ (s.session j).log) :
    List.Disjoint (keys st) (keys u) := by
  intro k hk hku
  exact hfree ⟨j, hj, u, hu, k, h.locks st _ hk, h.locks u _ hku⟩

end UniqueKeys

end ClickNBack.ReadCommitted
