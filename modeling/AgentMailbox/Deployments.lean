import AgentMailbox.Ownership

/-!
# Whatever is deployed

A mailbox or a house around it, over the dictionaries or over SQLite. What one operation may
change is the same in all four, so over any run identities stay, and what anyone is shown is
what somebody sent.
-/
namespace AgentMailbox

lemma Result.contents_cases (result : Result) :
    (∃ directory, result = .actors directory ∧ result.contents = .inr directory) ∨
      result.contents = .inl result := by
  cases result with
  | actors directory => exact Or.inl ⟨directory, rfl, rfl⟩
  | actor | found | message | messages | count => exact Or.inr rfl

/-- Results that are the same are equal, if they are not directories. -/
lemma sameOutcome_cases {x x' : Except Raised Result} (h : SameOutcome x x') :
    x' = x ∨ ∃ directory directory', x = .ok (.actors directory) ∧
      x' = .ok (.actors directory') := by
  cases x with
  | error e =>
    cases x' with
    | error e' => exact Or.inl (congrArg Except.error (Except.error.inj h).symm)
    | ok result => cases h
  | ok result =>
    cases x' with
    | error e => cases h
    | ok result' =>
      have hcontents : result.contents = result'.contents := Except.ok.inj h
      rcases result.contents_cases with ⟨directory, rfl, hin⟩ | hin <;>
        rcases result'.contents_cases with ⟨directory', rfl, hin'⟩ | hin'
      · exact Or.inr ⟨directory, directory', rfl, rfl⟩
      · rw [hin, hin'] at hcontents
        cases hcontents
      · rw [hin, hin'] at hcontents
        cases hcontents
      · rw [hin, hin'] at hcontents
        exact Or.inl (congrArg Except.ok (Sum.inl.inj hcontents).symm)

namespace Frame

variable {mb : Mailbox} {op : Operation} {x x' : Except Raised Result} {before after : Holdings}

/-- In which order a directory is listed makes no difference. -/
lemma congr (h : Frame mb op x before after) (hsame : SameOutcome x x') :
    Frame mb op x' before after := by
  rcases sameOutcome_cases hsame with rfl | ⟨directory, directory', rfl, rfl⟩
  · exact h
  · refine ⟨h.kept, fun id obj hnone hobj => ?_, h.actors, h.reads, fun obj hobj => ?_⟩
    · obtain ⟨hanswer, _⟩ := h.added id obj hnone hobj
      cases hanswer
    · cases hobj

end Frame

/-- An operation that is carried out as over the dictionaries, or raised at. -/
lemma frame_carriedOut {mb : Mailbox} {op : Operation} {good : Prop} {s s' : InMemoryStore}
    {x : Except Raised Result} (hfresh : ∀ id, op.minted = some id → id ∉ s.objects)
    (h : op.CarriedOut mb good s x s') : Frame mb op x s.holdings s'.holdings := by
  rcases h with ⟨hsame, rfl⟩ | ⟨-, ⟨e, rfl⟩, rfl⟩
  · exact (frame_step mb hfresh).congr hsame
  · exact frame_unchanged fun obj hobj => by cases hobj

/-- A mailbox or a house, over some store. -/
structure Deployment (σ : Type) where
  mailbox : Mailbox
  step : Operation → σ → Except Raised Result × σ
  holdings : σ → Holdings
  /-- The states it can be in: the store holds what some dictionaries can hold. -/
  Sound : σ → Prop
  /-- What callers may hand over. -/
  Given : Operation → Prop

namespace Deployment

/-! ## Runs -/

section
variable {σ : Type} (d : Deployment σ)

/-- What is handed over is well formed, and no stored message bears an id that is minted. -/
def Allowed (op : Operation) (t : σ) : Prop :=
  d.Given op ∧ ∀ id, op.minted = some id → (d.holdings t).object id = none

def AllowedAlong : σ → List Operation → Prop
  | _, [] => True
  | t, op :: ops => d.Allowed op t ∧ AllowedAlong (d.step op t).2 ops

def after (t : σ) (ops : List Operation) : σ := ops.foldl (fun t op => (d.step op t).2) t

/-- Every operation of a run, and what it came to. -/
def transcript : σ → List Operation → List (Operation × Except Raised Result)
  | _, [] => []
  | t, op :: ops => (op, (d.step op t).1) :: transcript (d.step op t).2 ops

/-- The message was sent by an operation of the run, from its caller and as it was given. -/
def SentIn (t : σ) (ops : List Operation) (obj : ObjectRecord) : Prop :=
  ∃ entry ∈ d.transcript t ops, entry.2 = .ok (.message obj) ∧ entry.1.Wrote d.mailbox obj

/-- Messages and identities are immutable except by their owner. -/
structure OwnersOnly : Prop where
  sound : ∀ t op, d.Sound t → d.Allowed op t → d.Sound (d.step op t).2
  /-- One operation changes what is its caller's. -/
  frame : ∀ t op, d.Sound t → d.Allowed op t →
    Frame d.mailbox op (d.step op t).1 (d.holdings t) (d.holdings (d.step op t).2)
  /-- Over any run an actor keeps its name, its type and its time of creation. -/
  identity : ∀ t ops, d.Sound t → d.AllowedAlong t ops → ∀ name actor,
    (d.holdings t).actor name = some actor →
      ∃ actor', (d.holdings (d.after t ops)).actor name = some actor' ∧
        actor'.name = actor.name ∧ actor'.actorType = actor.actorType ∧
        actor'.created = actor.created
  /-- Over any run what is shown was stored before it, or is what was sent in it. -/
  shown : ∀ t ops op, d.Sound t → d.AllowedAlong t (ops ++ [op]) →
    ∀ obj ∈ shown (d.step op (d.after t ops)).1,
      (d.holdings t).object obj.id = some obj ∨ d.SentIn t (ops ++ [op]) obj

@[simp] lemma after_concat (t : σ) (ops : List Operation) (op : Operation) :
    d.after t (ops ++ [op]) = (d.step op (d.after t ops)).2 := List.foldl_concat ..

lemma allowedAlong_concat {t : σ} {ops : List Operation} {op : Operation} :
    d.AllowedAlong t (ops ++ [op]) ↔ d.AllowedAlong t ops ∧ d.Allowed op (d.after t ops) := by
  induction ops generalizing t with
  | nil => simp [AllowedAlong, after]
  | cons first ops ih =>
    show _ ∧ d.AllowedAlong _ (ops ++ [op]) ↔ (_ ∧ _) ∧ _
    rw [ih, and_assoc]
    rfl

section
variable {d}
variable (hsound : ∀ t op, d.Sound t → d.Allowed op t → d.Sound (d.step op t).2)
  (hframe : ∀ t op, d.Sound t → d.Allowed op t →
    Frame d.mailbox op (d.step op t).1 (d.holdings t) (d.holdings (d.step op t).2))
include hsound

lemma sound_after {t : σ} {ops : List Operation} (ht : d.Sound t) (hops : d.AllowedAlong t ops) :
    d.Sound (d.after t ops) := by
  induction ops generalizing t with
  | nil => exact ht
  | cons op ops ih => exact ih (hsound t op ht hops.1) hops.2

include hframe

lemma identity_after {t : σ} {ops : List Operation} (ht : d.Sound t)
    (hops : d.AllowedAlong t ops) {name : String} {actor : ActorRecord}
    (hactor : (d.holdings t).actor name = some actor) :
    ∃ actor', (d.holdings (d.after t ops)).actor name = some actor' ∧
      actor'.name = actor.name ∧ actor'.actorType = actor.actorType ∧
      actor'.created = actor.created := by
  induction ops generalizing t actor with
  | nil => exact ⟨actor, hactor, rfl, rfl, rfl⟩
  | cons op ops ih =>
    obtain ⟨next, hnext, hsame⟩ := (hframe t op ht hops.1).actors name actor hactor
    obtain ⟨last, hlast, hname, htype, hcreated⟩ := ih (hsound t op ht hops.1) hops.2 hnext
    refine ⟨last, hlast, ?_⟩
    rcases hsame with rfl | ⟨_, _, _, _, _, rfl⟩
    · exact ⟨hname, htype, hcreated⟩
    · exact ⟨hname, htype, hcreated⟩

/-- What is stored after a run was stored before it, or was sent in it. -/
lemma stored_after {t : σ} {ops : List Operation} (ht : d.Sound t) (hops : d.AllowedAlong t ops)
    {id : String} {obj : ObjectRecord}
    (hobj : (d.holdings (d.after t ops)).object id = some obj) :
    (d.holdings t).object id = some obj ∨ d.SentIn t ops obj := by
  induction ops generalizing t with
  | nil => exact Or.inl hobj
  | cons op ops ih =>
    have hstep := hframe t op ht hops.1
    rcases ih (hsound t op ht hops.1) hops.2 hobj with hnext | ⟨entry, hentry, hsent⟩
    · cases hbefore : (d.holdings t).object id with
      | none =>
        obtain ⟨hanswer, hwrote⟩ := hstep.added id obj hbefore hnext
        exact Or.inr ⟨_, List.mem_cons_self, hanswer, hwrote⟩
      | some old =>
        rcases hstep.kept id old hbefore with hkept | ⟨-, hgone⟩
        · exact Or.inl (hkept.symm.trans hnext)
        · rw [hgone] at hnext
          cases hnext
    · exact Or.inr ⟨entry, List.mem_cons_of_mem _ hentry, hsent⟩

/-- The step decides about the runs. -/
theorem ownersOnly_of_frame : d.OwnersOnly where
  sound := hsound
  frame := hframe
  identity _ _ ht hops _ _ hactor := identity_after hsound hframe ht hops hactor
  shown t ops op ht hops obj hobj := by
    obtain ⟨hbefore, hop⟩ := d.allowedAlong_concat.mp hops
    have hstored := (hframe _ op (sound_after hsound ht hbefore) hop).shown obj hobj
    rw [← d.after_concat] at hstored
    exact stored_after hsound hframe ht hops hstored

end

end

/-! ## The four deployments -/

def inMemory (mb : Mailbox) : Deployment InMemoryStore where
  mailbox := mb
  step op s := op.step mb s
  holdings := InMemoryStore.holdings
  Sound _ := True
  Given _ := True

def inHouse {μ : Type} (house : House μ) : Deployment (HouseState μ) where
  mailbox := house.mailbox
  step op s := house.step op s
  holdings s := s.store.holdings
  Sound _ := True
  Given _ := True

def inSqlite (engine : Engine) (mb : Mailbox) : Deployment RowConnection where
  mailbox := mb
  step op rows := op.stepSqlite engine mb rows
  holdings rows := rows.holdings engine
  Sound rows := ∃ s, SqliteStore.Represents engine s rows
  Given op := op.IsJson engine.floats

def inSqliteHouse {μ : Type} (engine : Engine) (judges : Judges μ) (house : House μ) :
    Deployment (RowHouse μ) where
  mailbox := house.mailbox
  step op t := RowHouse.step engine judges house op t
  holdings t := t.rows.holdings engine
  Sound t := ∃ s, SqliteStore.Represents engine s t.rows
  Given op := op.IsJson engine.floats

lemma fresh_of_holdings {s : InMemoryStore} {op : Operation}
    (h : ∀ id, op.minted = some id → s.holdings.object id = none) :
    ∀ id, op.minted = some id → id ∉ s.objects :=
  fun id hid => AList.lookup_eq_none.mp (h id hid)

lemma inMemory_ownersOnly (mb : Mailbox) : (inMemory mb).OwnersOnly :=
  ownersOnly_of_frame (fun _ _ _ _ => trivial)
    fun _ _ _ hallowed => frame_step mb (fresh_of_holdings hallowed.2)

lemma inHouse_ownersOnly {μ : Type} (house : House μ) : (inHouse house).OwnersOnly := by
  apply ownersOnly_of_frame (fun _ _ _ _ => trivial)
  intro s op _ hallowed
  show Frame house.mailbox op (house.step op s).1 s.store.holdings
    (house.step op s).2.store.holdings
  rcases house.step_refusedOrDone op s with ⟨⟨e, he⟩, hstore⟩ | ⟨hresult, hstore⟩
  · rw [he, hstore]
    exact frame_unchanged fun obj hobj => by cases hobj
  · rw [hresult, hstore]
    exact frame_step house.mailbox (fresh_of_holdings hallowed.2)

lemma inSqlite_ownersOnly (engine : Engine) (mb : Mailbox) :
    (inSqlite engine mb).OwnersOnly := by
  apply ownersOnly_of_frame
  · rintro rows op ⟨s, hrep⟩ hallowed
    obtain ⟨s', hrep', -⟩ := stepSqlite_carriedOut mb hrep hallowed.1
    exact ⟨s', hrep'⟩
  · rintro rows op ⟨s, hrep⟩ ⟨hjson, hfresh⟩
    obtain ⟨s', hrep', hdone⟩ := stepSqlite_carriedOut mb hrep hjson
    simp only [inSqlite, hrep.holdings] at hfresh
    show Frame mb op _ (rows.holdings engine) ((op.stepSqlite engine mb rows).2.holdings engine)
    rw [hrep.holdings, hrep'.holdings]
    exact frame_carriedOut (fresh_of_holdings hfresh) hdone

lemma inSqliteHouse_ownersOnly {μ : Type} (engine : Engine) (judges : Judges μ)
    (house : House μ) : (inSqliteHouse engine judges house).OwnersOnly := by
  apply ownersOnly_of_frame
  · rintro t op ⟨s, hrep⟩ hallowed
    obtain ⟨s', hrep', -⟩ := RowHouse.step_carriedOut judges house hrep hallowed.1
    exact ⟨s', hrep'⟩
  · rintro t op ⟨s, hrep⟩ ⟨hjson, hfresh⟩
    obtain ⟨s', hrep', hdone⟩ := RowHouse.step_carriedOut judges house hrep hjson
    simp only [inSqliteHouse, hrep.holdings] at hfresh
    show Frame house.mailbox op _ (t.rows.holdings engine)
      ((RowHouse.step engine judges house op t).2.rows.holdings engine)
    rw [hrep.holdings, hrep'.holdings]
    exact frame_carriedOut (fresh_of_holdings hfresh) hdone

end Deployment

/-- In every deployment, whatever the policies of the house are and whatever they make of the
tables, messages and identities are immutable except by their owner. The tables of a deployment
over SQLite are sound when they are new, and stay sound when a house opens on them. -/
theorem only_owners_change {μ : Type} (mb : Mailbox) (house : House μ) (engine : Engine)
    (judges : Judges μ) :
    (Deployment.inMemory mb).OwnersOnly ∧ (Deployment.inHouse house).OwnersOnly ∧
      (Deployment.inSqlite engine mb).OwnersOnly ∧
      (Deployment.inSqliteHouse engine judges house).OwnersOnly ∧
      (Deployment.inSqlite engine mb).Sound (.opened .empty) ∧
      ∀ clock t, house.Orderly → (Deployment.inSqliteHouse engine judges house).Sound t →
        (Deployment.inSqliteHouse engine judges house).Sound
          (RowHouse.openAll engine clock house.policies t).2 := by
  refine ⟨Deployment.inMemory_ownersOnly mb, Deployment.inHouse_ownersOnly house,
    Deployment.inSqlite_ownersOnly engine mb,
    Deployment.inSqliteHouse_ownersOnly engine judges house,
    ⟨.empty, SqliteStore.represents_empty engine⟩, ?_⟩
  rintro clock t horderly ⟨s, hrep⟩
  exact RowHouse.openAll_represents clock horderly hrep

end AgentMailbox
