import ClickNBack.ReadCommitted.Guarantees

namespace ClickNBack.ReadCommitted

variable {D S E K D' S' E' K' α β γ : Type}

/-- How coroutines that know a part of a database act on the whole of it; `catches`
is what they see of an exception of a statement. -/
structure Embedding (D' S' E' D S E : Type) where
  view : D → D'
  stmt : S' → S
  raises : E' → E
  catches : E → Option E'

namespace Prog

def embed (m : Embedding D' S' E' D S E) (out : α → β) : Prog D' S' E' α → Prog D S E β
  | .ret a => .ret (out a)
  | .raise e => .raise (m.raises e)
  | .select k => .select fun d => (k (m.view d)).embed m out
  | .exec s k => .exec (m.stmt s) fun
    | .ok _ => (k (.ok ())).embed m out
    | .error e =>
      match m.catches e with
      | some e' => (k (.error e')).embed m out
      | none => .raise e
  | .commit k => .commit (k.embed m out)
  | .close k => .close (k.embed m out)

end Prog

variable [Statement S' D' E' K'] [Statement S D E K]

def Embedding.Faithful (m : Embedding D' S' E' D S E) : Prop :=
  ∀ s d d₁, Statement.exec (m.stmt s) d = .ok d₁ → Statement.exec s (m.view d) = .ok (m.view d₁)

section

variable {m : Embedding D' S' E' D S E}

theorem Embedding.Faithful.runs (hm : m.Faithful) {log : List S'} {d : D}
    (h : Runs (log.map m.stmt) d) :
    Runs log (m.view d) ∧ m.view (replay (log.map m.stmt) d) = replay log (m.view d) := by
  induction log generalizing d with
  | nil => exact ⟨trivial, rfl⟩
  | cons s log ih =>
    obtain ⟨d₁, hd₁, hrest⟩ := h
    obtain ⟨hruns, hview⟩ := ih hrest
    have hs := hm s d d₁ hd₁
    refine ⟨⟨_, hs, hruns⟩, ?_⟩
    rw [List.map_cons, replay_cons, replay_cons, apply_of_ok hd₁, apply_of_ok hs, hview]

variable {I : D → Prop} {Later : D → D → Prop} {G : List S → D → Prop} {I' : D' → Prop}
  {Later' : D' → D' → Prop} {G' : List S' → D' → Prop} {out : α → β}

/-- What a coroutine promises for its view, it promises for the whole database. -/
theorem Prog.Abides.embed (hm : m.Faithful)
    (htrans : ∀ d d' d'' : D, Later d d' → Later d' d'' → Later d d'')
    (hI : ∀ d, I d → I' (m.view d))
    (hlater : ∀ d d', Later d d' → Later' (m.view d) (m.view d')) {p : Prog D' S' E' α} {d : D}
    {log : List S'} (h : p.Abides I' Later' G' (m.view d) log)
    (hG : ∀ log d', I d' → Later d d' → Runs (log.map m.stmt) d' → G' log (m.view d') →
      G (log.map m.stmt) d') : (p.embed m out).Abides I Later G d (log.map m.stmt) := by
  induction p generalizing d log with
  | ret a | raise e => trivial
  | select k ih =>
    intro d' hI' hd' hruns
    obtain ⟨hruns', hview⟩ := hm.runs hruns
    change ((k (m.view (replay (log.map m.stmt) d'))).embed m out).Abides I Later G d' _
    rw [hview]
    exact ih _ (h _ (hI d' hI') (hlater d d' hd') hruns') fun log d'' hI'' hd'' =>
      hG log d'' hI'' (htrans _ _ _ hd' hd'')
  | exec s k ih =>
    rw [Prog.embed]
    refine ⟨?_, fun e => ?_⟩
    · have hok := ih _ h.1 hG
      rw [List.map_append] at hok
      exact hok
    · change (match m.catches e with
        | some e' => (k (.error e')).embed m out
        | none => .raise e).Abides I Later G d []
      cases m.catches e with
      | none => trivial
      | some e' => exact ih _ (h.2 e') hG
  | commit k ih =>
    rw [Prog.embed]
    intro d' hI' hd' hruns
    obtain ⟨hruns', hview⟩ := hm.runs hruns
    obtain ⟨hpromised, hk⟩ := h _ (hI d' hI') (hlater d d' hd') hruns'
    refine ⟨hG log d' hI' hd' hruns hpromised, fun hI'' hd'' => ?_⟩
    have hrest := hk (hview ▸ hI _ hI'') (hview ▸ hlater _ _ hd'')
    rw [← hview] at hrest
    exact ih hrest fun log d₁ hI₁ hd₁ =>
      hG log d₁ hI₁ (htrans _ _ _ (htrans _ _ _ hd' hd'') hd₁)
  | close k ih => exact ih h hG

end

end ClickNBack.ReadCommitted
