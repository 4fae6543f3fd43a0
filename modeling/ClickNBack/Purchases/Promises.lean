import ClickNBack.Offers.Services
import ClickNBack.Purchases.Independence
import ClickNBack.Relational.Persistence

namespace ClickNBack.Purchases

open Relational ReadCommitted Prog

/-- Of a purchase only the status changes, which is pending at first only, and its cashback
may be dropped. -/
def Purchase.Becomes (p p' : Purchase) : Prop :=
  ∃ s c, p' = { p with status := s, cashbackAmount := c } ∧ (c = p.cashbackAmount ∨ c = 0) ∧
    (s = .pending → p.status = .pending)

theorem Purchase.Becomes.refl (p : Purchase) : p.Becomes p :=
  ⟨p.status, _, rfl, Or.inl rfl, fun he => he⟩

theorem Purchase.Becomes.trans {p p' p'' : Purchase} (h : p.Becomes p') (h' : p'.Becomes p'') :
    p.Becomes p'' := by
  obtain ⟨s, c, rfl, hc, hs⟩ := h
  obtain ⟨s', c', rfl, hc', hs'⟩ := h'
  exact ⟨s', c', rfl, hc'.elim (fun h => h ▸ hc) Or.inr, fun he => hs (hs' he)⟩

theorem PurchaseUpdate.becomes {u : PurchaseUpdate} (hu : u ≠ .status .pending) (p : Purchase) :
    p.Becomes (u.on p) := by
  cases u with
  | status s => exact ⟨s, _, rfl, Or.inl rfl, fun he => absurd (congrArg status he) hu⟩
  | reversed => exact ⟨.reversed, 0, rfl, Or.inr rfl, fun he => by cases he⟩

def PurchaseUpdate.action : PurchaseUpdate → Option AuditAction
  | .status .confirmed => some .purchaseConfirmed
  | .status .rejected => some .purchaseRejected
  | .reversed => some .purchaseReversed
  | .status _ => none

theorem Sql.onPurchases_evolves {s : Sql} (hs : ∀ id, s ≠ .updatePurchase id (.status .pending))
    (t : PurchaseTable) : t.Evolves Purchase.Becomes (s.onPurchases t) := by
  cases s with
  | insertPurchase row => exact Table.evolves_put Purchase.Becomes.refl t row
  | updatePurchase id u =>
    refine Table.evolves_modify Purchase.Becomes.refl t u.keeps (PurchaseUpdate.becomes ?_)
    exact fun hu => hs id (hu ▸ rfl)
  | insertTransaction | updateTransaction | upsertWallet | updateWallet | insertAuditLog =>
    exact Table.Evolves.refl Purchase.Becomes.refl t

/-- What an operation may rely on after it has read `d`. -/
structure Later (d d' : Database) : Prop where
  users : d.catalog.users.Evolves (Same User.id) d'.catalog.users
  merchants : d.catalog.merchants.Evolves (Same Offers.Merchant.id) d'.catalog.merchants
  offers : d.catalog.offers.Evolves (Same (Offers.Offer.withStatus true)) d'.catalog.offers
  purchases : d.purchases.Evolves Purchase.Becomes d'.purchases

theorem Later.trans {d d' d'' : Database} (h : Later d d') (h' : Later d' d'') : Later d d'' where
  users := h.users.trans Same.trans h'.users
  merchants := h.merchants.trans Same.trans h'.merchants
  offers := h.offers.trans Same.trans h'.offers
  purchases := h.purchases.trans (fun _ _ _ hp hp' => hp.trans hp') h'.purchases

def Owner (id : String) (d : Database) (userId : String) : Prop :=
  ∃ p ∈ d.purchases.rows, p.id = id ∧ p.userId = userId

def Settled (id : String) (d : Database) : Prop :=
  ∃ p ∈ d.purchases.rows, p.id = id ∧ p.status ≠ .pending

/-- An update of a purchase, and who makes it. -/
abbrev SignedUpdate := PurchaseUpdate × AuditActorType × Option String

structure AuditLog.Records (row : AuditLog) (V : Set SignedUpdate) (id : String) : Prop where
  resourceType : row.resourceType = "purchase"
  resourceId : row.resourceId = id
  outcome : row.outcome = .success
  action : ∃ u, (u, row.actorType, row.actorId) ∈ V ∧ u.action = some row.action

/-- The statements that settle the purchase `id` by an update of `U`: no other purchase,
and no wallet but its owner's; what is recorded is of `V`, and the purchase is settled. -/
def About (U : Set PurchaseUpdate) (V : Set SignedUpdate) (id : String) (d : Database) : Sql → Prop
  | .updatePurchase id' u => id' = id ∧ u ∈ U ∧ u ≠ .status .pending
  | .updateTransaction id' _ => id' = id
  | .updateWallet userId _ _ => Owner id d userId
  | .insertAuditLog row => row.Records V id ∧ Settled id d
  | _ => False

/-- A transaction that settles the purchase `id` by an update of `U`: where money moves, the
purchase is updated. -/
structure SettlesBy (U : Set PurchaseUpdate) (V : Set SignedUpdate) (id : String)
    (log : List Sql) (d : Database) : Prop where
  about : ∀ s ∈ log, About U V id d s
  updates : (∀ u, Sql.updatePurchase id u ∉ log) →
    ∀ userId a b, Sql.updateWallet userId a b ∉ log

theorem Owner.later {id userId : String} {d d' : Database} (h : Owner id d userId)
    (hlater : Later d d') : Owner id d' userId := by
  obtain ⟨p, hp, hid, huser⟩ := h
  obtain ⟨p', hp', s, c, rfl, -⟩ := hlater.purchases p hp
  exact ⟨_, hp', hid, huser⟩

theorem Settled.later {id : String} {d d' : Database} (h : Settled id d) (hlater : Later d d') :
    Settled id d' := by
  obtain ⟨p, hp, hid, hs⟩ := h
  obtain ⟨p', hp', s, c, rfl, -, hpending⟩ := hlater.purchases p hp
  exact ⟨_, hp', hid, fun he => hs (hpending he)⟩

theorem About.later {U : Set PurchaseUpdate} {V : Set SignedUpdate} {id : String}
    {d d' : Database} {s : Sql} (h : About U V id d s) (hlater : Later d d') :
    About U V id d' s := by
  cases s with
  | updateWallet userId a b => exact Owner.later h hlater
  | insertAuditLog row => exact ⟨h.1, h.2.later hlater⟩
  | updatePurchase | updateTransaction => exact h
  | insertPurchase | insertTransaction | upsertWallet => exact h.elim

section

variable {U : Set PurchaseUpdate} {V : Set SignedUpdate} {id : String} {d : Database}
  {log : List Sql}

theorem owner_replay {e : Database} (hlog : ∀ s ∈ log, About U V id e s) {id' userId : String}
    (h : Owner id' (replay log d) userId) : Owner id' d userId := by
  induction log generalizing d with
  | nil => exact h
  | cons s log ih =>
    have hs := hlog s List.mem_cons_self
    rw [replay_cons] at h
    obtain ⟨p, hp, hid, huser⟩ := ih (fun t ht => hlog t (List.mem_cons_of_mem s ht)) h
    rw [apply_eq] at hp
    cases s with
    | updatePurchase id'' u =>
      obtain ⟨q, hq, rfl⟩ := (Table.mem_modify u.keeps).mp hp
      refine ⟨q, hq, ?_⟩
      by_cases hk : q.id = id''
      · rw [if_pos hk] at hid huser
        cases u <;> exact ⟨hid, huser⟩
      · rw [if_neg hk] at hid huser
        exact ⟨hid, huser⟩
    | updateTransaction | updateWallet | insertAuditLog => exact ⟨p, hp, hid, huser⟩
    | insertPurchase | insertTransaction | upsertWallet => exact hs.elim

theorem purchase_replay {e : Database} (hlog : ∀ s ∈ log, About U V id e s) :
    ∀ p ∈ (replay log d).purchases.rows,
      p ∈ d.purchases.rows ∨ p.id = id ∧ ∃ u ∈ U, ∃ q, p = u.on q := by
  refine replay_invariant (P := fun d' => ∀ p ∈ d'.purchases.rows,
    p ∈ d.purchases.rows ∨ p.id = id ∧ ∃ u ∈ U, ∃ q, p = u.on q) log d
    (fun s hs d' ih p hp => ?_) fun p hp => Or.inl hp
  have habout := hlog s hs
  rw [apply_eq] at hp
  cases s with
  | updatePurchase id' u =>
    obtain ⟨rfl, hu, -⟩ := habout
    obtain hp | ⟨q, -, hq, rfl⟩ := Table.mem_or_of_mem_modify u.keeps hp
    · exact ih p hp
    · refine Or.inr ⟨?_, u, hu, q, rfl⟩
      cases u <;> exact hq
  | updateTransaction | updateWallet | insertAuditLog => exact ih p hp
  | insertPurchase | insertTransaction | upsertWallet => exact habout.elim

theorem wallets_replay {e : Database} (hlog : ∀ s ∈ log, About U V id e s) (userId : String) :
    (replay log d).wallets userId = d.wallets userId ∨ Owner id e userId := by
  refine replay_invariant (P := fun d' => d'.wallets userId = d.wallets userId ∨
    Owner id e userId) log d (fun s hs d' ih => ?_) (Or.inl rfl)
  have habout := hlog s hs
  rw [apply_eq]
  cases s with
  | updateWallet v a b =>
    by_cases hv : userId = v
    · rw [hv]
      exact Or.inr habout
    · exact ih.imp_left (Function.update_of_ne hv _ _).trans
  | updatePurchase | updateTransaction | insertAuditLog => exact ih
  | insertPurchase | insertTransaction | upsertWallet => exact habout.elim

theorem auditLogs_replay {e : Database} (hlog : ∀ s ∈ log, About U V id e s) :
    ∀ row ∈ (replay log d).auditLogs, row ∈ d.auditLogs ∨ row.Records V id ∧ Settled id e := by
  refine replay_invariant (P := fun d' => ∀ row ∈ d'.auditLogs,
    row ∈ d.auditLogs ∨ row.Records V id ∧ Settled id e) log d
    (fun s hs d' ih row hrow => ?_) fun row hrow => Or.inl hrow
  have habout := hlog s hs
  rw [apply_eq] at hrow
  cases s with
  | insertAuditLog r =>
    obtain rfl | hrow := Multiset.mem_cons.mp hrow
    · exact Or.inr habout
    · exact ih row hrow
  | updatePurchase | updateTransaction | updateWallet => exact ih row hrow
  | insertPurchase | insertTransaction | upsertWallet => exact habout.elim

theorem about_evolves {e : Database} (hlog : ∀ s ∈ log, About U V id e s) :
    d.purchases.Evolves Purchase.Becomes (replay log d).purchases := by
  refine replay_invariant (P := fun d' => d.purchases.Evolves Purchase.Becomes d'.purchases) log d
    (fun s hs d' ih => ?_) (Table.Evolves.refl Purchase.Becomes.refl _)
  refine ih.trans (fun _ _ _ hp hp' => hp.trans hp') ?_
  rw [apply_eq]
  refine Sql.onPurchases_evolves ?_ _
  rintro id' rfl
  exact (hlog _ hs).2.2 rfl

theorem settled_replay {e : Database} (hlog : ∀ s ∈ log, About U V id e s) {u : PurchaseUpdate}
    (hu : Sql.updatePurchase id u ∈ log) {userId : String} (howner : Owner id d userId) :
    Settled id (replay log d) := by
  obtain ⟨before, after, rfl⟩ := List.append_of_mem hu
  have hbefore : ∀ s ∈ before, About U V id e s := fun s hs => hlog s (by simp [hs])
  have hafter : ∀ s ∈ after, About U V id e s := fun s hs => hlog s (by simp [hs])
  obtain ⟨-, -, hpending⟩ := hlog (.updatePurchase id u) (by simp)
  obtain ⟨p, hp, hid, -⟩ := howner
  obtain ⟨q, hq, s, c, rfl, -⟩ := about_evolves hbefore p hp
  rw [replay_append, replay_cons]
  have hupdated : u.on { p with status := s, cashbackAmount := c } ∈
      (apply (Sql.updatePurchase id u) (replay before d)).purchases.rows := by
    rw [apply_eq]
    exact (Table.mem_modify u.keeps).mpr ⟨_, hq, if_pos hid⟩
  obtain ⟨q', hq', s', c', rfl, -, hs'⟩ := about_evolves hafter _ hupdated
  refine ⟨_, hq', ?_, fun he => ?_⟩
  · cases u <;> exact hid
  · cases u with
    | status s => exact hpending (congrArg PurchaseUpdate.status (hs' he))
    | reversed => cases hs' he

/-- Money moves only together with a settlement, and only to or from its purchase's owner. -/
theorem SettlesBy.wallets (h : SettlesBy U V id log d) (userId : String) :
    (replay log d).wallets userId = d.wallets userId ∨
      Owner id d userId ∧ Settled id (replay log d) := by
  obtain hsame | howner := wallets_replay (d := d) h.about userId
  · exact Or.inl hsame
  · by_cases hupdated : ∃ u, Sql.updatePurchase id u ∈ log
    · obtain ⟨u, hu⟩ := hupdated
      exact Or.inr ⟨howner, settled_replay h.about hu howner⟩
    · have hmoves := h.updates (not_exists.mp hupdated)
      refine Or.inl (replay_congr (fun d => d.wallets userId) log d fun s hs d' => ?_)
      have habout := h.about s hs
      rw [apply_eq]
      cases s with
      | updateWallet v a b => exact absurd hs (hmoves v a b)
      | updatePurchase | updateTransaction | insertAuditLog => rfl
      | insertPurchase | insertTransaction | upsertWallet => exact habout.elim

def Loaded (id : String) (d : Database) (p : Purchase) : Prop := p.id = id ∧ Owner id d p.userId

theorem loaded_of_find (hlog : ∀ s ∈ log, About U V id d s) {p : Purchase}
    (h : (replay log d).purchases.find Purchase.id id = some p) : Loaded id d p := by
  obtain ⟨hp, hid⟩ := (Table.find_eq_some _ (by simp)).mp h
  exact ⟨hid, owner_replay hlog ⟨p, hp, hid, rfl⟩⟩

theorem Loaded.later {d' : Database} {p : Purchase} (h : Loaded id d p) (hlater : Later d d') :
    Loaded id d' p := ⟨h.1, h.2.later hlater⟩

theorem Loaded.find (hlog : ∀ s ∈ log, About U V id d s) {p : Purchase} (hp : Loaded id d p) :
    ∃ q, (replay log d).purchases.find Purchase.id id = some q ∧ Loaded id d q := by
  obtain ⟨r, hr, hid, -⟩ := hp.2
  obtain ⟨q, hq, s, c, rfl, -⟩ := about_evolves hlog r hr
  have hfind := (Table.find_eq_some (f := Purchase.id) _ (by simp)).mpr ⟨hq, hid⟩
  exact ⟨_, hfind, loaded_of_find hlog hfind⟩

variable {α β : Type}

/-- Whatever the others do, the coroutine commits settlements of `id` only. -/
abbrev Settles (U : Set PurchaseUpdate) (V : Set SignedUpdate) (id : String) (p : Coroutine α)
    (d : Database) (log : List Sql) : Prop :=
  p.Abides (fun _ => True) Later (SettlesBy U V id) d log

theorem getById_settles {f : Option Purchase → Coroutine β} (hlog : ∀ s ∈ log, About U V id d s)
    (h : ∀ d' r, Later d d' → (∀ p, r = some p → Loaded id d' p) → Settles U V id (f r) d' log) :
    Settles U V id (PurchaseRepository.getById id >>= f) d log := by
  rw [getById_eq]
  refine abides_query_bind fun d' _ hlater _ => h d' _ hlater fun p hp => ?_
  exact loaded_of_find (fun s hs => (hlog s hs).later hlater) hp

theorem reload_settles {f : Option Purchase → Coroutine β} (hlog : ∀ s ∈ log, About U V id d s)
    {p : Purchase} (hp : Loaded id d p)
    (h : ∀ d' q, Later d d' → Loaded id d' q → Settles U V id (f (some q)) d' log) :
    Settles U V id (PurchaseRepository.getById id >>= f) d log := by
  rw [getById_eq]
  refine abides_query_bind fun d' _ hlater _ => ?_
  obtain ⟨q, hq, hloaded⟩ := (hp.later hlater).find fun s hs => (hlog s hs).later hlater
  rw [hq]
  exact h d' q hlater hloaded

theorem execute_settles {s : Sql} {f : Unit → Coroutine β} (hlog : ∀ s ∈ log, About U V id d s)
    (hs : About U V id d s)
    (h : (∀ t ∈ log ++ [s], About U V id d t) → Settles U V id (f ()) d (log ++ [s])) :
    Settles U V id (execute s >>= f) d log :=
  abides_execute_bind (h (List.forall_mem_append.mpr ⟨hlog, List.forall_mem_singleton.mpr hs⟩))

theorem commitTx_settles {u : PurchaseUpdate} {p : Purchase} {f : Unit → Coroutine β}
    (hlog : ∀ s ∈ log, About U V id d s) (hu : Sql.updatePurchase id u ∈ log) (hp : Loaded id d p)
    (h : ∀ d', Later d d' → Settled id d' → Settles U V id (f ()) d' []) :
    Settles U V id (commitTx >>= f) d log := by
  refine abides_commitTx_bind fun d' _ hlater _ => ?_
  have hlog' : ∀ s ∈ log, About U V id d' s := fun s hs => (hlog s hs).later hlater
  refine ⟨⟨hlog', fun hno => absurd hu (hno u)⟩, fun _ hlater' => ?_⟩
  exact h _ (hlater.trans hlater') (settled_replay hlog' hu (hp.later hlater).2)

theorem updateReturning_settles {u : PurchaseUpdate} (hu : u ∈ U) (hs : u ≠ .status .pending)
    {p : Purchase} {f : Option Purchase → Coroutine β} (hlog : ∀ s ∈ log, About U V id d s)
    (hp : Loaded id d p)
    (h : ∀ d' log' q, Later d d' → (∀ s ∈ log', About U V id d' s) →
      Sql.updatePurchase id u ∈ log' → Loaded id d' q → Settles U V id (f (some q)) d' log') :
    Settles U V id (updateReturning id u >>= f) d log := by
  rw [updateReturning, bind_assoc]
  refine reload_settles hlog hp fun d' q hlater hq => ?_
  have hlog' : ∀ s ∈ log, About U V id d' s := fun s hs => (hlog s hs).later hlater
  change Settles U V id ((execute _ >>= fun _ => PurchaseRepository.getById id) >>= f) d' log
  rw [bind_assoc]
  refine execute_settles hlog' ⟨rfl, hu, hs⟩ fun hlog' => ?_
  refine reload_settles hlog' hq fun d'' r hlater' hr => ?_
  exact h d'' _ r (hlater.trans hlater') (fun s hs => (hlog' s hs).later hlater') (by simp) hr

theorem applyPurchaseConfirmation_settles (hU : .status .confirmed ∈ U) {p : Purchase}
    {f : Purchase → Coroutine β} (hlog : ∀ s ∈ log, About U V id d s) (hp : Loaded id d p)
    (h : ∀ d' log' p', Later d d' → (∀ s ∈ log', About U V id d' s) →
      Sql.updatePurchase id (.status .confirmed) ∈ log' → Loaded id d' p' →
      Settles U V id (f p') d' log') :
    Settles U V id (applyPurchaseConfirmation p >>= f) d log := by
  rw [applyPurchaseConfirmation, updateStatus_eq, hp.1, bind_assoc]
  refine updateReturning_settles hU (by simp) hlog hp fun d' log' q hlater hlog' hmem hq => ?_
  rw [Option.getD_some]
  by_cases hc : q.cashbackAmount > 0
  · rw [if_pos hc]
    simp only [CashbackClient.confirm, WalletsClient.confirmPending, bind_assoc, pure_bind]
    refine execute_settles hlog' hq.1 fun hlog' => ?_
    refine execute_settles hlog' hq.2 fun hlog' => ?_
    exact h d' _ q hlater hlog' (by simp [hmem]) hq
  · rw [if_neg hc]
    exact h d' log' q hlater hlog' hmem hq

theorem add_settles {row : AuditLog} {f : Unit → Coroutine β} (hrow : row.Records V id)
    (hsettled : Settled id d) (h : ∀ d', Later d d' → Settles U V id (f ()) d' []) :
    Settles U V id (AuditTrailRepository.add row >>= f) d [] := by
  rw [AuditTrailRepository.add, bind_assoc]
  refine execute_settles (by simp) ⟨hrow, hsettled⟩ fun hlog => ?_
  refine abides_commitTx_bind fun d' _ hlater _ => ⟨⟨fun s hs => (hlog s hs).later hlater, ?_⟩,
    fun _ hlater' => h _ (hlater.trans hlater')⟩
  simp

theorem confirmPurchase_settles (hU : .status .confirmed ∈ U)
    (hV : (.status .confirmed, .system, none) ∈ V) {p : Purchase} {f : Unit → Coroutine β}
    (now verifiedAt : Nat) (hp : Loaded id d p)
    (h : ∀ d', Later d d' → Settles U V id (f ()) d' []) :
    Settles U V id (confirmPurchase (auditedBroker now) p verifiedAt >>= f) d [] := by
  rw [confirmPurchase, bind_assoc]
  refine applyPurchaseConfirmation_settles hU (by simp) hp
    fun d' log' p' hlater hlog' hmem hp' => ?_
  rw [bind_assoc]
  refine commitTx_settles hlog' hmem hp' fun d'' hlater' hsettled => ?_
  rw [Core.Broker.publish_of_singleton _ (auditedBroker_confirmed now)]
  refine add_settles ⟨rfl, hp'.1, rfl, _, hV, rfl⟩ hsettled fun d₃ hlater'' => ?_
  exact h d₃ (hlater.trans (hlater'.trans hlater''))

theorem rejectPurchase_settles (hU : .status .rejected ∈ U)
    (hV : (.status .rejected, .system, none) ∈ V) {p : Purchase} {f : Unit → Coroutine β}
    (now failedAt : Nat) (reason : String) (hp : Loaded id d p)
    (h : ∀ d', Later d d' → Settles U V id (f ()) d' []) :
    Settles U V id (rejectPurchase (auditedBroker now) p reason failedAt >>= f) d [] := by
  rw [rejectPurchase, updateStatus_eq, hp.1, bind_assoc]
  refine updateReturning_settles hU (by simp) (by simp) hp
    fun d' log' q hlater hlog' hmem hq => ?_
  rw [Option.getD_some]
  have hend : ∀ log'', (∀ s ∈ log'', About U V id d' s) →
      Sql.updatePurchase id (.status .rejected) ∈ log'' → Settles U V id (commitTx >>= fun _ =>
        (auditedBroker now).publish (t := .purchaseRejected) ⟨q.id, q.userId, q.merchantId,
          q.amount, q.currency, failedAt, reason⟩ >>= f) d' log'' := by
    intro log'' hlog'' hmem
    refine commitTx_settles hlog'' hmem hq fun d'' hlater' hsettled => ?_
    rw [Core.Broker.publish_of_singleton _ (auditedBroker_rejected now)]
    refine add_settles ⟨rfl, hq.1, rfl, _, hV, rfl⟩ hsettled fun d₃ hlater'' => ?_
    exact h d₃ (hlater.trans (hlater'.trans hlater''))
  by_cases hc : q.cashbackAmount > 0
  · simp only [if_pos hc, CashbackClient.reverse, WalletsClient.reversePending, bind_assoc]
    refine execute_settles hlog' hq.1 fun hlog' => ?_
    exact execute_settles hlog' hq.2 fun hlog' => hend _ hlog' (by simp [hmem])
  · simp only [if_neg hc, bind_assoc]
    exact hend _ hlog' hmem

theorem closeSession_settles {f : Unit → Coroutine β} (h : Settles U V id (f ()) d []) :
    Settles U V id (closeSession >>= f) d log := h

theorem verificationAttempt_settles (verify : Purchase → Nat → VerificationResult)
    (now number : Nat) :
    Settles {.status .confirmed, .status .rejected}
      {(.status .confirmed, .system, none), (.status .rejected, .system, none)} id
      (Operation.attempt verify now id number).prog d [] := by
  rw [Operation.prog, verificationAttempt, bind_assoc]
  refine getById_settles (by simp) fun d' r _ hr => ?_
  cases r with
  | none => exact closeSession_settles trivial
  | some p =>
    by_cases hpending : p.status ≠ .pending
    · simp only [if_pos hpending]
      exact closeSession_settles trivial
    · simp only [if_neg hpending]
      cases (verify p number).disposition with
      | confirmed =>
        rw [bind_assoc]
        exact confirmPurchase_settles (by simp) (by simp) now now (hr p rfl)
          fun d' _ => closeSession_settles trivial
      | rejected =>
        rw [bind_assoc]
        exact rejectPurchase_settles (by simp) (by simp) now now _ (hr p rfl)
          fun d' _ => closeSession_settles trivial
      | pending => exact closeSession_settles trivial

theorem forceReject_settles (now : Nat) (maxAttempts : Int) :
    Settles {.status .rejected} {(.status .rejected, .system, none)} id
      (Operation.forceReject now id maxAttempts).prog d [] := by
  rw [Operation.prog, forceReject]
  refine getById_settles (by simp) fun d' r _ hr => ?_
  cases r with
  | none => trivial
  | some p =>
    by_cases hpending : p.status = .pending
    · simp only [if_pos hpending]
      exact rejectPurchase_settles (by simp) (by simp) now now _ (hr p rfl) fun d' _ => trivial
    · simp only [if_neg hpending]
      trivial

theorem confirmManually_settles (now : Nat) (adminId : String) :
    Settles {.status .confirmed} ∅ id (Operation.confirmManually now id adminId).prog d [] := by
  rw [Operation.prog, confirmPurchaseManually, bind_assoc]
  refine getById_settles (by simp) fun d' r _ hr => ?_
  cases r with
  | none => trivial
  | some p =>
    rw [bind_assoc]
    refine abides_lift_bind fun _ _ => ?_
    rw [bind_assoc]
    refine applyPurchaseConfirmation_settles (Set.mem_singleton _) (by simp) (hr p rfl)
      fun d'' log' p' _ hlog' hmem hp' => ?_
    rw [bind_assoc]
    refine commitTx_settles hlog' hmem hp' fun d₃ _ _ => ?_
    rw [Core.Broker.publish_of_nil _ (auditedBroker_confirmedByAdmin now)]
    trivial

theorem reverse_settles (now : Nat) (adminId : String) :
    Settles {.reversed} {(.reversed, .admin, some adminId)} id
      (Operation.reverse now id adminId).prog d [] := by
  rw [Operation.prog, reversePurchase, bind_assoc]
  refine getById_settles (by simp) fun d' r _ hr => ?_
  cases r with
  | none => trivial
  | some p =>
    have hp := hr p rfl
    rw [bind_assoc]
    refine abides_lift_bind fun _ _ => ?_
    simp only [CashbackClient.reverse, bind_assoc]
    refine execute_settles (by simp) rfl fun hlog => ?_
    have hend : ∀ log',
        (∀ s ∈ log', About {.reversed} {(.reversed, .admin, some adminId)} id d' s) →
        Settles {.reversed} {(.reversed, .admin, some adminId)} id
        (PurchaseRepository.reversePurchase id >>= fun r => commitTx >>= fun _ =>
          (auditedBroker now).publish (t := .purchaseReversed) ⟨id, (r.getD p).userId, adminId,
            (r.getD p).merchantId, (r.getD p).amount, (r.getD p).currency, p.status⟩ >>= fun _ =>
          pure (r.getD p) >>= fun _ => pure ()) d' log' := by
      intro log' hlog'
      rw [PurchaseRepository.reversePurchase_eq]
      refine updateReturning_settles (Set.mem_singleton _) (by simp) hlog' hp
        fun d'' log'' q _ hlog'' hmem hq => ?_
      refine commitTx_settles hlog'' hmem hq fun d₃ _ hsettled => ?_
      rw [Core.Broker.publish_of_singleton _ (auditedBroker_reversed now)]
      exact add_settles ⟨rfl, rfl, rfl, _, Set.mem_singleton _, rfl⟩ hsettled fun _ _ => trivial
    by_cases hpending : p.status = .pending
    · simp only [if_pos hpending, WalletsClient.reversePending, bind_assoc]
      exact execute_settles (s := .updateWallet _ _ _) hlog hp.2 fun hlog => hend _ hlog
    · simp only [if_neg hpending, WalletsClient.reverseAvailable, bind_assoc]
      exact execute_settles (s := .updateWallet _ _ _) hlog hp.2 fun hlog => hend _ hlog

end

/-- The user, the merchant and the offer behind a new purchase, whose cashback is that
of the offer. -/
structure Backed (d : Database) (data : PurchaseCreate) (row : Purchase) : Prop where
  user : ∃ u ∈ d.catalog.users.rows, u.id = data.userId
  merchant : ∃ m ∈ d.catalog.merchants.rows, m.id = data.merchantId
  offer : ∃ o ∈ d.catalog.offers.rows, row.offerId = some o.id ∧ o.merchantId = data.merchantId ∧
    calculate o.id o.percentage o.fixedAmount data.amount = .ok ⟨o.id, row.cashbackAmount⟩

theorem Backed.later {d d' : Database} {data : PurchaseCreate} {row : Purchase}
    (h : Backed d data row) (hlater : Later d d') : Backed d' data row where
  user := by
    obtain ⟨u, hu, hid⟩ := h.user
    obtain ⟨u', hu', hid'⟩ := hlater.users u hu
    exact ⟨u', hu', Eq.trans hid' hid⟩
  merchant := by
    obtain ⟨m, hm, hid⟩ := h.merchant
    obtain ⟨m', hm', hid'⟩ := hlater.merchants m hm
    exact ⟨m', hm', Eq.trans hid' hid⟩
  offer := by
    obtain ⟨o, ho, hoffer, hmerchant, hcashback⟩ := h.offer
    obtain ⟨o', ho', hsame⟩ := hlater.offers o ho
    simp only [Same, Offers.Offer.withStatus, Offers.Offer.mk.injEq, and_true] at hsame
    obtain ⟨hid, hmerchant', hpercentage, hfixed, -⟩ := hsame
    rw [← hid] at hoffer
    rw [← hid, ← hpercentage, ← hfixed] at hcashback
    exact ⟨o', ho', hoffer, hmerchant'.trans hmerchant, hcashback⟩

/-- What a request may commit for its user. -/
def Ingestion (purchaseId transactionId : String) (now : Nat) (data : PurchaseCreate)
    (currentUserId : String) (log : List Sql) (d : Database) : Prop :=
  currentUserId = data.userId ∧ ∃ offerId cashbackAmount,
    Backed d data (newPurchase purchaseId now data offerId cashbackAmount) ∧
    log = ingestionWrites transactionId (newPurchase purchaseId now data offerId cashbackAmount)

theorem calculate_offerId {offerId : String} {percentage amount : Numeric.Decimal}
    {fixedAmount : Option Numeric.Decimal} {r : CashbackResult}
    (h : calculate offerId percentage fixedAmount amount = .ok r) : r.offerId = offerId := by
  have hmap : ∀ x : Except PurchaseException Int, x.map (⟨offerId, ·⟩) = .ok r →
      r.offerId = offerId := by
    intro x hx
    cases x with
    | error e => cases hx
    | ok c =>
      cases hx
      rfl
  cases fixedAmount with
  | none => exact hmap _ h
  | some fixed => exact hmap _ h

theorem backed_of_checks {d d₁ d₂ : Database} {data : PurchaseCreate} {today : Nat}
    {available : Option (Offers.Offer Numeric.Decimal)} {offer : Offers.Offer Numeric.Decimal}
    {cashback : CashbackResult}
    (hactive : enforceUserActive (d₁.catalog.users.find User.id data.userId) data.userId = .ok ())
    (hmerchant : enforceMerchantActive
      (d₂.catalog.merchants.find Offers.Merchant.id data.merchantId) data.merchantId = .ok ())
    (havailable : Offers.getActiveOfferForMerchant PurchaseException.multipleResultsFound
      d.catalog.offers data.merchantId today = .ok available)
    (hoffer : enforceOfferAvailable available data.merchantId = .ok offer)
    (hcashback : calculate offer.id offer.percentage offer.fixedAmount data.amount = .ok cashback)
    (h₁ : Later d₁ d₂) (h₂ : Later d₂ d) (purchaseId : String) (now : Nat) :
    Backed d data (newPurchase purchaseId now data offer.id cashback.cashbackAmount) where
  user := by
    cases hu : d₁.catalog.users.find User.id data.userId with
    | none =>
      rw [hu] at hactive
      cases hactive
    | some u =>
      obtain ⟨hmem, hid⟩ := (Table.find_eq_some _ (by simp)).mp hu
      obtain ⟨u', hmem', hid'⟩ := (h₁.trans h₂).users u hmem
      exact ⟨u', hmem', Eq.trans hid' hid⟩
  merchant := by
    cases hm : d₂.catalog.merchants.find Offers.Merchant.id data.merchantId with
    | none =>
      rw [hm] at hmerchant
      cases hmerchant
    | some m =>
      obtain ⟨hmem, hid⟩ := (Table.find_eq_some _ (by simp)).mp hm
      obtain ⟨m', hmem', hid'⟩ := h₂.merchants m hmem
      exact ⟨m', hmem', Eq.trans hid' hid⟩
  offer := by
    cases available with
    | none => cases hoffer
    | some o =>
      cases hoffer
      obtain ⟨ho, ha⟩ := Offers.getActiveOfferForMerchant_some havailable
      simp only [Offers.Offer.isAvailable, decide_eq_true_eq] at ha
      refine ⟨offer, ho, rfl, ha.1, ?_⟩
      rw [hcashback, ← calculate_offerId hcashback]
      rfl

/-- A request commits the rows of one purchase, backed by rows that stay. -/
theorem ingestPurchase_abides (purchaseId transactionId : String) (today now : Nat)
    (data : PurchaseCreate) (currentUserId : String) (d : Database) :
    (Operation.ingest purchaseId transactionId today now data currentUserId).prog.Abides
      (fun _ => True) Later (Ingestion purchaseId transactionId now data currentUserId) d [] := by
  rw [Operation.prog, ingestPurchase, bind_assoc]
  refine abides_lift_bind fun _ howner => ?_
  have huser : currentUserId = data.userId := by
    by_contra hne
    rw [enforcePurchaseOwnership, if_pos hne] at howner
    cases howner
  simp only [getByExternalId_eq, bind_assoc]
  refine abides_query_bind fun d _ _ _ => abides_lift_bind fun _ _ => abides_lift_bind fun _ _ => ?_
  rw [getUserById_eq]
  refine abides_query_bind fun d₁ _ _ _ => abides_lift_bind fun _ hactive => ?_
  rw [getMerchantById_eq]
  refine abides_query_bind fun d₂ _ h₂ _ => abides_lift_bind fun _ hmerchant => ?_
  rw [OffersClient.getActiveOfferForMerchant, bind_assoc]
  refine abides_query_bind fun d₃ _ h₃ _ => abides_lift_bind fun available havailable => ?_
  refine abides_lift_bind fun offer hoffer => abides_lift_bind fun cashback hcashback => ?_
  rw [replay_nil] at hactive hmerchant havailable
  have hbacked :=
    backed_of_checks hactive hmerchant havailable hoffer hcashback h₂ h₃ purchaseId now
  simp only [PurchaseRepository.addPurchase, getById_eq, bind_assoc, pure_bind]
  apply abides_execute_bind
  refine abides_query_bind fun d₄ _ h₄ hruns => ?_
  -- the row that the session refreshes is the one that it has flushed
  obtain ⟨d', hexec, -⟩ := hruns
  have hfree := (exec_insertPurchase_iff d₄ _).mp ⟨d', hexec⟩
  rw [List.nil_append, replay_cons, replay_nil, apply_insertPurchase,
    Table.find_put_self _ hfree (by simp)]
  apply abides_execute_bind
  apply abides_execute_bind
  refine abides_commitTx_bind fun d₅ _ h₅ _ => ⟨?_, fun _ _ => trivial⟩
  exact ⟨huser, _, _, hbacked.later (h₄.trans h₅), rfl⟩

theorem Sql.onTransactions_evolves (s : Sql) (t : TransactionTable) :
    t.Evolves (Same (CashbackTransaction.withStatus .pending)) (s.onTransactions t) := by
  cases s with
  | insertTransaction row => exact Table.evolves_put (Same.refl _) t row
  | updateTransaction purchaseId status =>
    exact Table.evolves_modify (Same.refl _) t (CashbackTransaction.withStatus_keeps status)
      fun _ => rfl
  | insertPurchase | updatePurchase | upsertWallet | updateWallet | insertAuditLog =>
    exact Table.Evolves.refl (Same.refl _) t

theorem Sql.onWallets_keeps (s : Sql) {wallets : String → Option Wallet} {userId : String}
    {w : Wallet} (hw : wallets userId = some w) :
    ∃ w', s.onWallets wallets userId = some w' ∧ w'.paidBalance = w.paidBalance := by
  cases s with
  | upsertWallet v amount =>
    rw [onWallets]
    by_cases hv : userId = v
    · subst hv
      rw [Function.update_self, hw]
      exact ⟨_, rfl, rfl⟩
    · rw [Function.update_of_ne hv]
      exact ⟨w, hw, rfl⟩
  | updateWallet v a b =>
    rw [onWallets]
    by_cases hv : userId = v
    · subst hv
      rw [Function.update_self, hw]
      exact ⟨_, rfl, rfl⟩
    · rw [Function.update_of_ne hv]
      exact ⟨w, hw, rfl⟩
  | insertPurchase | updatePurchase | insertTransaction | updateTransaction | insertAuditLog =>
    exact ⟨w, hw, rfl⟩

theorem Sql.isSome_of_onWallets {s : Sql} {wallets : String → Option Wallet} {userId : String}
    (h : (s.onWallets wallets userId).isSome) :
    (wallets userId).isSome ∨ ∃ amount, s = .upsertWallet userId amount := by
  cases s with
  | upsertWallet v amount =>
    by_cases hv : userId = v
    · exact Or.inr ⟨amount, by rw [hv]⟩
    · rw [onWallets, Function.update_of_ne hv] at h
      exact Or.inl h
  | updateWallet v a b =>
    rw [onWallets] at h
    by_cases hv : userId = v
    · subst hv
      rw [Function.update_self, Option.isSome_map] at h
      exact Or.inl h
    · rw [Function.update_of_ne hv] at h
      exact Or.inl h
  | insertPurchase | updatePurchase | insertTransaction | updateTransaction | insertAuditLog =>
    exact Or.inl h

theorem Sql.le_onAuditLogs (s : Sql) (rows : Multiset AuditLog) : rows ≤ s.onAuditLogs rows := by
  cases s with
  | insertAuditLog row => exact Multiset.le_cons_self rows row
  | insertPurchase | updatePurchase | insertTransaction | updateTransaction | upsertWallet
  | updateWallet => exact le_refl rows

def Sql.newKeys : Sql → List LockKey
  | .insertPurchase row => [.purchase row.id, .externalId row.externalId]
  | .insertTransaction row => [.transaction row.id, .transactionOf row.purchaseId]
  | _ => []

/-- A row has the key; no statement is refused for the sake of a wallet. -/
def Taken (d : Database) : LockKey → Prop
  | .purchase id => id ∈ d.purchases.rows.map Purchase.id
  | .externalId externalId => externalId ∈ d.purchases.rows.map Purchase.externalId
  | .transaction id => id ∈ d.transactions.rows.map CashbackTransaction.id
  | .transactionOf purchaseId =>
    purchaseId ∈ d.transactions.rows.map CashbackTransaction.purchaseId
  | .wallet _ => False

theorem taken_insertPurchase {d : Database} {row : Purchase} (h : d.purchases.Free row)
    (k : LockKey) : Taken (apply (Sql.insertPurchase row) d) k ↔
      Taken d k ∨ k ∈ (Sql.insertPurchase row).newKeys := by
  rw [apply_insertPurchase]
  cases k <;> simp [Taken, Sql.newKeys, Table.put_rows_of_free _ h, or_comm, eq_comm]

theorem taken_insertTransaction {d : Database} {row : CashbackTransaction}
    (h : d.transactions.Free row) (k : LockKey) :
    Taken (apply (Sql.insertTransaction row) d) k ↔
      Taken d k ∨ k ∈ (Sql.insertTransaction row).newKeys := by
  rw [apply_insertTransaction]
  cases k <;> simp [Taken, Sql.newKeys, Table.put_rows_of_free _ h, or_comm, eq_comm]

theorem taken_of_not_refusable {d : Database} {s : Sql} (h : s.refusable = false) (k : LockKey) :
    Taken (apply s d) k ↔ Taken d k := by
  rw [apply_eq]
  cases s with
  | insertPurchase row | insertTransaction row => cases h
  | upsertWallet | updateWallet | insertAuditLog => cases k <;> rfl
  | updatePurchase id u =>
    have hkey : ∀ {g : Purchase → String}, g ∈ [Purchase.id, Purchase.externalId] →
        (PurchaseTable.update d.purchases id u).rows.map g = d.purchases.rows.map g :=
      fun hg => d.purchases.map_modify u.keeps (u.keeps _ hg)
    cases k with
    | purchase | externalId =>
      simp only [Taken, Sql.onPurchases]
      rw [hkey (by simp)]
    | transaction | transactionOf | wallet => rfl
  | updateTransaction id status =>
    have hkey : ∀ {g : CashbackTransaction → String},
        g ∈ [CashbackTransaction.id, CashbackTransaction.purchaseId] →
        (TransactionTable.update d.transactions id status).rows.map g =
          d.transactions.rows.map g :=
      fun hg => d.transactions.map_modify (CashbackTransaction.withStatus_keeps status)
        (CashbackTransaction.withStatus_keeps status _ hg)
    cases k with
    | transaction | transactionOf =>
      simp only [Taken, Sql.onTransactions]
      rw [hkey (by simp)]
    | purchase | externalId | wallet => rfl

theorem uniqueKeys : UniqueKeys Sql.newKeys (fun _ => []) Taken where
  locks s d := by
    cases s with
    | insertPurchase | insertTransaction => exact List.Subset.refl _
    | updatePurchase | updateTransaction | upsertWallet | updateWallet | insertAuditLog =>
      exact List.nil_subset _
  ok_iff s d := by
    cases s with
    | insertPurchase row =>
      rw [exec_insertPurchase_iff]
      simp [Table.Free, Sql.newKeys, Taken]
    | insertTransaction row =>
      rw [exec_insertTransaction_iff]
      simp [Table.Free, Sql.newKeys, Taken]
    | updatePurchase | updateTransaction | upsertWallet | updateWallet | insertAuditLog =>
      exact iff_of_true ⟨_, exec_eq_apply d rfl⟩ (by simp [Sql.newKeys])
  taken_of_ok s d d' h k := by
    rw [← apply_of_ok h]
    cases s with
    | insertPurchase row =>
      exact taken_insertPurchase ((exec_insertPurchase_iff d row).mp ⟨d', h⟩) k
    | insertTransaction row =>
      exact taken_insertTransaction ((exec_insertTransaction_iff d row).mp ⟨d', h⟩) k
    | updatePurchase | updateTransaction | upsertWallet | updateWallet | insertAuditLog =>
      rw [taken_of_not_refusable rfl]
      simp [Sql.newKeys]

end ClickNBack.Purchases
