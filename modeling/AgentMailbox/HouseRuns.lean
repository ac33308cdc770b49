import AgentMailbox.House
import AgentMailbox.Invariants

/-!
# What a house adds to its mailbox

A policed operation either is refused before anything happens, or does to the store
what the mailbox's own operation does and tells its caller the same. So the stores a
house leads through are those its mailbox leads through.
-/
namespace AgentMailbox

namespace House

section
variable {μ α : Type}

theorem run_askCheck (policy : Policy μ) (attempt : Attempt) (s : HouseState μ) :
    (askCheck policy attempt).run handle s = (.ok (policy.check attempt s.store s.memory).1,
      { s with memory := (policy.check attempt s.store s.memory).2 }) := rfl

theorem run_askRecord (policy : Policy μ) (outcome : Outcome) (s : HouseState μ) :
    (askRecord policy outcome).run handle s = (.ok (policy.record outcome s.store s.memory).1,
      { s with memory := (policy.record outcome s.store s.memory).2 }) := rfl

theorem run_lifted (p : StoreProgram α) (s : HouseState μ) :
    (lift p).run handle s = ((runs p s.store).1, { s with store := (runs p s.store).2 }) := by
  have hask : ∀ c store (t : HouseState μ), t = ⟨store, s.memory⟩ →
      ∃ t', (ask (.store c)).run handle t = (.ok (InMemoryStore.handle c store).1, t') ∧
        t' = ⟨(InMemoryStore.handle c store).2, s.memory⟩ := by
    rintro c store t rfl
    exact ⟨_, rfl, rfl⟩
  obtain ⟨hanswer, hstate⟩ := Program.run_through hask p s.store s rfl
  exact Prod.ext hanswer hstate

/-- Checking leaves the store alone. -/
theorem run_check_store (attempt : Attempt) (policies : List (Policy μ)) (s : HouseState μ) :
    ((check attempt policies).run handle s).2.store = s.store := by
  induction policies generalizing s with
  | nil => rfl
  | cons policy rest ih =>
    simp only [check, Program.run_bind, run_askCheck, Program.run_ofExcept]
    cases (policy.check attempt s.store s.memory).1 with
    | error e => rfl
    | ok _ => exact ih _

/-- Observing neither raises nor touches the store. -/
theorem run_record (outcome : Outcome) (policies : List (Policy μ)) (s : HouseState μ) :
    ∃ m, (record outcome policies).run handle s = (.ok (), ⟨s.store, m⟩) := by
  induction policies generalizing s with
  | nil => exact ⟨s.memory, rfl⟩
  | cons policy rest ih =>
    simp only [record, Program.run_bind, run_askRecord]
    exact ih _

/-- What a policed action comes to: refused with nothing done, or the action itself. -/
def RefusedOrDone (result : Except Raised α × HouseState μ)
    (done : Except Raised α × InMemoryStore) (store : InMemoryStore) : Prop :=
  ((∃ e, result.1 = .error e) ∧ result.2.store = store) ∨
    (result.1 = done.1 ∧ result.2.store = done.2)

theorem run_policed (house : House μ) (attempt : Attempt) (onError : JsonObject)
    (onSuccess : α → JsonObject) (act : StoreProgram α) (s : HouseState μ) :
    RefusedOrDone ((house.policed attempt onError onSuccess act).run handle s)
      (runs act s.store) s.store := by
  unfold policed
  rw [Program.run_bind]
  have hstore := run_check_store attempt house.policies s
  generalize (check attempt house.policies).run handle s = checked at hstore
  obtain ⟨answer, checkedState⟩ := checked
  cases answer with
  | error e => exact Or.inl ⟨⟨e, rfl⟩, hstore⟩
  | ok _ =>
    right
    have hstore : checkedState.store = s.store := hstore
    simp only [Program.run_bind, Program.run_catchError, run_lifted, hstore]
    generalize runs act s.store = acted
    obtain ⟨result, store⟩ := acted
    cases result with
    | error e =>
      obtain ⟨m, hrecord⟩ := run_record ⟨attempt, false, some e, onError⟩ house.policies
        { checkedState with store := store }
      simp [hrecord]
    | ok a =>
      obtain ⟨m, hrecord⟩ := run_record ⟨attempt, true, none, onSuccess a⟩ house.policies
        { checkedState with store := store }
      simp [hrecord]

lemma RefusedOrDone.map {β : Type} {result : Except Raised α × HouseState μ}
    {done : Except Raised α × InMemoryStore} {store : InMemoryStore}
    (h : RefusedOrDone result done store) (f : α → β) :
    RefusedOrDone (result.1.map f, result.2) (done.1.map f, done.2) store := by
  rcases h with ⟨⟨e, he⟩, hstore⟩ | ⟨hresult, hstore⟩
  · exact Or.inl ⟨⟨e, by simp [he, Except.map]⟩, hstore⟩
  · exact Or.inr ⟨by simp [hresult], hstore⟩

theorem run_map {β : Type} (f : α → β) (p : HouseProgram μ α) (s : HouseState μ) :
    (f <$> p).run handle s = ((p.run handle s).1.map f, (p.run handle s).2) := by
  change (p >>= fun a => pure (f a)).run handle s = _
  rw [Program.run_bind]
  rcases p.run handle s with ⟨_ | _, s'⟩ <;> rfl

lemma run_reply (house : House μ) (caller objectId body : String) (subject : Option String)
    (stamp : Stamp) (s : HouseState μ) :
    RefusedOrDone ((house.reply caller objectId body subject stamp).run handle s)
      (runs (house.mailbox.reply caller objectId body subject stamp) s.store) s.store := by
  unfold reply Mailbox.reply Mailbox.view
  rw [Program.run_bind, runs_bind, run_lifted, Mailbox.runs_visibleObject]
  cases house.mailbox.visibleIn s.store caller objectId with
  | error e => exact Or.inr ⟨rfl, rfl⟩
  | ok original => exact run_policed house _ _ _ _ s

lemma run_view (house : House μ) (caller objectId : String) (s : HouseState μ) :
    RefusedOrDone ((house.view caller objectId).run handle s)
      (runs (house.mailbox.view caller objectId) s.store) s.store := by
  unfold view
  rw [Program.run_bind, run_lifted]
  generalize runs (house.mailbox.view caller objectId) s.store = viewed
  obtain ⟨result, store⟩ := viewed
  cases result with
  | error e => exact Or.inr ⟨rfl, rfl⟩
  | ok obj =>
    right
    simp only [Program.run_bind]
    obtain ⟨m, hrecord⟩ := run_record
      (⟨⟨"view", caller, [], none, "", Dict.ofList [("id", .str objectId)]⟩, true, none, ∅⟩)
      house.policies { s with store := store }
    simp [hrecord]

/-- Every operation of the house is refused with nothing done, or is the mailbox's. -/
theorem step_refusedOrDone (house : House μ) (op : Operation) (s : HouseState μ) :
    RefusedOrDone (house.step op s) (op.step house.mailbox s.store) s.store := by
  have hlift : RefusedOrDone ((lift (op.program house.mailbox)).run handle s)
      (op.step house.mailbox s.store) s.store := by
    rw [run_lifted]
    exact Or.inr ⟨rfl, rfl⟩
  unfold step
  rw [Operation.step_eq_runs] at hlift ⊢
  cases op with
  | join requestedName draw now =>
    rw [program, run_map, Operation.program, runs_map]
    exact (run_policed house _ _ _ _ s).map Result.actor
  | send caller draft stamp =>
    rw [program, run_map, Operation.program, runs_map]
    exact (run_policed house _ _ _ _ s).map Result.message
  | reply caller objectId body subject stamp =>
    rw [program, run_map, Operation.program, runs_map]
    exact (run_reply house caller objectId body subject stamp s).map Result.message
  | read caller objectId now =>
    rw [program, run_map, Operation.program, runs_map]
    exact (run_policed house _ _ _ _ s).map Result.message
  | view caller objectId =>
    rw [program, run_map, Operation.program, runs_map]
    exact (run_view house caller objectId s).map Result.message
  | whois | directory | updateProfile | installResident | peek | unreadCount | thread | expire =>
    exact hlift

theorem step_peek (house : House μ) (caller : String) (s : HouseState μ) :
    house.step (.peek caller) s =
      ((house.mailbox.unreadIn s.store caller).map .messages, s) := by
  change (lift ((Operation.peek caller).program house.mailbox)).run handle s = _
  rw [run_lifted, Operation.program, runs_map, Mailbox.runs_peek]

theorem step_thread (house : House μ) (caller rootId : String) (s : HouseState μ) :
    house.step (.thread caller rootId) s =
      ((house.mailbox.threadIn s.store caller rootId).map .messages, s) := by
  change (lift ((Operation.thread caller rootId).program house.mailbox)).run handle s = _
  rw [run_lifted, Operation.program, runs_map, Mailbox.runs_thread]

/-- A sending that succeeds stores what the mailbox would have, and answers with it. -/
theorem step_send_ok {house : House μ} {caller : String} {draft : Draft} {stamp : Stamp}
    {obj : ObjectRecord} {s s' : HouseState μ}
    (h : house.step (.send caller draft stamp) s = (.ok (.message obj), s')) :
    house.mailbox.sendIn s.store caller draft stamp = .ok obj ∧
      s'.store = s.store.addObject obj := by
  rcases house.step_refusedOrDone (.send caller draft stamp) s with
    ⟨⟨e, he⟩, _⟩ | ⟨hanswer, hstore⟩
  · rw [h] at he
    cases he
  · rw [h, Operation.step_send] at hanswer hstore
    cases hobj : house.mailbox.sendIn s.store caller draft stamp with
    | error e =>
      rw [hobj] at hanswer
      cases hanswer
    | ok sent =>
      rw [hobj] at hanswer hstore
      cases hanswer
      exact ⟨rfl, hstore⟩

/-- A house whose policies do nothing at startup other than install the residents. -/
def Orderly (house : House μ) : Prop :=
  ∀ policy ∈ house.policies, policy.onOpen = (standingResidents μ).onOpen ∨
    policy.onOpen = fun _ => pure ()

theorem reachable_install {mb : Mailbox} {s : InMemoryStore} (hs : Reachable mb s)
    (clock : ℕ → DateTime) (residents : List (String × String))
    (hnames : ∀ resident ∈ residents, resident.1 ∈ residentNames) :
    Reachable mb (runs (StandingResidents.install clock residents) s).2 := by
  induction residents generalizing s with
  | nil => exact hs
  | cons resident rest ih =>
    obtain ⟨name, purpose⟩ := resident
    have hrest := fun resident hmem => hnames resident (List.mem_cons_of_mem _ hmem)
    have hwhois : runs (Mailbox.whois name) s = (.ok (s.actors.lookup name), s) := rfl
    rw [StandingResidents.install, runs_bind, hwhois]
    cases s.actors.lookup name with
    | some actor => exact ih hs hrest
    | none =>
      have hprofile : "groups" ∉ StandingResidents.profile purpose := by
        simp [StandingResidents.profile, Dict.ofList, AList.notMem_empty]
      have hstep := Reachable.step
        (.installResident name (StandingResidents.profile purpose) (clock rest.length)) hs
        ⟨hnames _ (List.mem_cons_self), hprofile⟩
      rw [Operation.step_eq_runs, Operation.program, runs_map] at hstep
      simp only [runs_bind]
      generalize runs (Mailbox.installResident name (StandingResidents.profile purpose)
        (clock rest.length)) s = installed at hstep
      obtain ⟨result, store⟩ := installed
      cases result with
      | error e => exact hstep
      | ok actor => exact ih hstep hrest

theorem reachable_openAll {mb : Mailbox} {policies : List (Policy μ)} {s : HouseState μ}
    (hs : Reachable mb s.store) (clock : ℕ → DateTime)
    (horderly : ∀ policy ∈ policies, policy.onOpen = (standingResidents μ).onOpen ∨
      policy.onOpen = fun _ => pure ()) :
    Reachable mb ((openAll clock policies).run handle s).2.store := by
  induction policies generalizing s with
  | nil => exact hs
  | cons policy rest ih =>
    have hrest := fun p hp => horderly p (List.mem_cons_of_mem _ hp)
    have hopened : Reachable mb (runs (policy.onOpen clock) s.store).2 := by
      rcases horderly policy (List.mem_cons_self) with hopen | hopen
      · rw [hopen]
        exact reachable_install hs clock _ (by decide)
      · rw [hopen]
        exact hs
    rw [openAll, Program.run_bind, run_lifted]
    generalize runs (policy.onOpen clock) s.store = opened at hopened
    obtain ⟨result, store⟩ := opened
    cases result with
    | error e => exact hopened
    | ok _ => exact ih hopened hrest

/-- The store of an opened house is a reachable store of its mailbox. -/
theorem Opened.reachable {house : House μ} (horderly : house.Orderly) {s : HouseState μ}
    (h : house.Opened s) : Reachable house.mailbox s.store := by
  induction h with
  | first store memory clock hstore => exact reachable_openAll hstore clock horderly
  | again clock _ ih => exact reachable_openAll ih clock horderly
  | @step s op _ hop ih =>
    rcases house.step_refusedOrDone op s with ⟨_, hstore⟩ | ⟨_, hstore⟩
    · rw [hstore]
      exact ih
    · rw [hstore]
      exact .step op ih hop

end

end House

end AgentMailbox
