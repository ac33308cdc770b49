import AgentMailbox.Observation

/-!
# An observer among the policies

An observer keeps a memory of its own, which the policies around it neither see nor change. What
it remembers after a call is what it makes of the outcome it is told of, if it is told of one: so
it can be followed along a run whatever else the house insists on.
-/
namespace AgentMailbox

section
variable {μ ν α : Type}

namespace Policy

/-- A policy whose memory is kept in front of that of others. -/
def ahead (p : Policy μ) : Policy (μ × ν) where
  name := p.name
  onOpen := p.onOpen
  check attempt store m :=
    let (answer, kept) := p.check attempt store m.1
    (answer, kept, m.2)
  record outcome store m :=
    let (answer, kept) := p.record outcome store m.1
    (answer, kept, m.2)

/-- A policy whose memory is kept behind that of others. -/
def behind (p : Policy ν) : Policy (μ × ν) where
  name := p.name
  onOpen := p.onOpen
  check attempt store m :=
    let (answer, kept) := p.check attempt store m.2
    (answer, m.1, kept)
  record outcome store m :=
    let (answer, kept) := p.record outcome store m.2
    (answer, m.1, kept)

/-- It passes every attempt, and remembers none. -/
def LooksOn (p : Policy μ) : Prop := ∀ attempt store m, p.check attempt store m = (.ok (), m)

end Policy

namespace House

/-- A house with an observer, and other policies before and after it. -/
def watched (mailbox : Mailbox) (observer : Policy μ) (earlier later : List (Policy ν)) :
    House (μ × ν) :=
  ⟨mailbox, earlier.map .behind ++ observer.ahead :: later.map .behind⟩

/-- The state after a sequence of operations. -/
def after (house : House μ) (s : HouseState μ) (ops : List Operation) : HouseState μ :=
  ops.foldl (fun s op => (house.step op s).2) s

end House

/-- What observers are told when an attempt has come to a result. -/
def Attempt.outcome (attempt : Attempt) (onError : JsonObject) (onSuccess : α → JsonObject) :
    Except Raised α → Outcome
  | .ok a => ⟨attempt, true, none, onSuccess a⟩
  | .error e => ⟨attempt, false, some e, onError⟩

namespace House

/-! ## What each call tells -/

/-- What is told of a policed action. -/
def toldIf (house : House μ) (s : HouseState μ) (attempt : Attempt) (onError : JsonObject)
    (onSuccess : α → JsonObject) (act : StoreProgram α) : Option Outcome :=
  if Accepted attempt s.store house.policies s.memory then
    some (attempt.outcome onError onSuccess (runs act s.store).1)
  else none

/-- What is told of a sending. -/
def toldOfSend (house : House μ) (s : HouseState μ) (caller : String) (draft : Draft)
    (stamp : Stamp) : Option Outcome :=
  house.toldIf s (sendAttempt caller draft) ∅ (fun sent => Dict.ofList [("id", .str sent.id)])
    (house.mailbox.send caller draft stamp)

/-- What the observers of a house are told of an operation, if they are told of it. -/
def toldOf (house : House μ) (op : Operation) (s : HouseState μ) : Option Outcome :=
  match op with
  | .join requestedName draw now =>
    house.toldIf s (joinAttempt requestedName) ∅
      (fun actor => Dict.ofList [("name", .str actor.name)])
      (house.mailbox.join requestedName draw now)
  | .send caller draft stamp => house.toldOfSend s caller draft stamp
  | .read caller objectId now =>
    house.toldIf s (readAttempt caller objectId) (Dict.ofList [("not_yours", .bool true)])
      (fun _ => ∅) (house.mailbox.read caller objectId now)
  | .reply caller objectId body subject stamp =>
    match house.mailbox.visibleIn s.store caller objectId with
    | .ok original =>
      house.toldOfSend s caller (house.mailbox.replyDraft original body subject) stamp
    | .error _ => none
  | .view caller objectId =>
    match house.mailbox.visibleIn s.store caller objectId with
    | .ok _ => some (viewOutcome caller objectId)
    | .error _ => none
  | _ => none

/-- The checks pass the call, if it comes as far as being checked. -/
def Passes (house : House μ) (op : Operation) (s : HouseState μ) : Prop :=
  match op with
  | .join requestedName _ _ => Accepted (joinAttempt requestedName) s.store house.policies s.memory
  | .send caller draft _ => Accepted (sendAttempt caller draft) s.store house.policies s.memory
  | .read caller objectId _ =>
    Accepted (readAttempt caller objectId) s.store house.policies s.memory
  | .reply caller objectId body subject _ => ∀ original, house.Sees caller objectId s original →
      Accepted (sendAttempt caller (house.mailbox.replyDraft original body subject)) s.store
        house.policies s.memory
  | _ => True

instance (house : House μ) (op : Operation) (s : HouseState μ) : Decidable (house.Passes op s) :=
  match op with
  | .join _ _ _ | .send _ _ _ | .read _ _ _ => acceptedDecidable _ _ _ _
  | .reply caller objectId body subject _ =>
    match h : house.mailbox.visibleIn s.store caller objectId with
    | .ok original => decidable_of_iff
        (Accepted (sendAttempt caller (house.mailbox.replyDraft original body subject)) s.store
          house.policies s.memory)
        ⟨fun haccepted _ hother => Except.ok.inj (h.symm.trans hother) ▸ haccepted,
          fun hall => hall original h⟩
    | .error _ => isTrue fun _ hother => nomatch h.symm.trans hother
  | .whois _ | .directory | .updateProfile _ _ _ | .installResident _ _ _ | .peek _
  | .unreadCount _ | .thread _ _ | .view _ _ | .expire _ => isTrue trivial

/-! ## What a policed action leaves behind -/

/-- A call that the checks pass does what the mailbox does. -/
lemma run_policed_passed (house : House μ) {attempt : Attempt} (onError : JsonObject)
    (onSuccess : α → JsonObject) (act : StoreProgram α) {s : HouseState μ}
    (h : Accepted attempt s.store house.policies s.memory) :
    ∃ checked, ((check attempt house.policies).run handle s).2 = checked ∧
      checked.store = s.store ∧
      (house.policed attempt onError onSuccess act).run handle s =
        ((runs act s.store).1, ((record (attempt.outcome onError onSuccess (runs act s.store).1)
          house.policies).run handle { checked with store := (runs act s.store).2 }).2) := by
  have hok := (run_check_ok_iff attempt house.policies s).mpr h
  have hstore := run_check_store attempt house.policies s
  refine ⟨_, rfl, hstore, ?_⟩
  unfold policed
  rw [Program.run_bind]
  generalize (check attempt house.policies).run handle s = checked at hok hstore
  obtain ⟨answer, state⟩ := checked
  cases hok
  have hstore : state.store = s.store := hstore
  simp only [Program.run_bind, Program.run_catchError, run_lifted, hstore]
  generalize runs act s.store = acted
  obtain ⟨result, store⟩ := acted
  cases result with
  | error e =>
    obtain ⟨m, hrecord⟩ := run_record (attempt.outcome onError onSuccess (.error e))
      house.policies { state with store := store }
    simp only [Attempt.outcome] at hrecord ⊢
    simp [hrecord]
  | ok a =>
    obtain ⟨m, hrecord⟩ := run_record (attempt.outcome onError onSuccess (.ok a))
      house.policies { state with store := store }
    simp only [Attempt.outcome] at hrecord ⊢
    simp [hrecord]

/-- A call that a check stops goes no further. -/
lemma run_policed_stopped (house : House μ) {attempt : Attempt} (onError : JsonObject)
    (onSuccess : α → JsonObject) (act : StoreProgram α) {s : HouseState μ}
    (h : ¬ Accepted attempt s.store house.policies s.memory) :
    ∃ e, (house.policed attempt onError onSuccess act).run handle s =
      (.error e, ((check attempt house.policies).run handle s).2) := by
  rw [← run_check_ok_iff attempt house.policies s] at h
  unfold policed
  rw [Program.run_bind]
  generalize (check attempt house.policies).run handle s = checked at h
  obtain ⟨answer, state⟩ := checked
  cases answer with
  | error e => exact ⟨e, rfl⟩
  | ok _ => exact absurd rfl h

lemma record_store (outcome : Outcome) (policies : List (Policy μ)) (s : HouseState μ) :
    ((record outcome policies).run handle s).2.store = s.store := by
  obtain ⟨m, hrecord⟩ := run_record outcome policies s
  rw [hrecord]

/-- A reply is a sending to the writer of the message it answers. -/
lemma run_reply_eq (house : House μ) (caller objectId body : String) (subject : Option String)
    (stamp : Stamp) (s : HouseState μ) :
    (house.reply caller objectId body subject stamp).run handle s =
      match house.mailbox.visibleIn s.store caller objectId with
      | .ok original =>
        (house.send caller (house.mailbox.replyDraft original body subject) stamp).run handle s
      | .error e => (.error e, s) := by
  have hviewed : runs (house.mailbox.view caller objectId) s.store =
      (house.mailbox.visibleIn s.store caller objectId, s.store) :=
    Mailbox.runs_visibleObject _ _ _ _
  rw [reply, Program.run_bind, run_lifted, hviewed]
  cases house.mailbox.visibleIn s.store caller objectId <;> rfl

/-- Observers are told of a viewing that succeeds. -/
lemma run_view_eq (house : House μ) (caller objectId : String) (s : HouseState μ) :
    (house.view caller objectId).run handle s =
      match house.mailbox.visibleIn s.store caller objectId with
      | .ok obj =>
        (.ok obj, ((record (viewOutcome caller objectId) house.policies).run handle s).2)
      | .error e => (.error e, s) := by
  have hviewed : runs (house.mailbox.view caller objectId) s.store =
      (house.mailbox.visibleIn s.store caller objectId, s.store) :=
    Mailbox.runs_visibleObject _ _ _ _
  obtain ⟨m, hrecord⟩ := run_record (viewOutcome caller objectId) house.policies s
  rw [view_eq, Program.run_bind, run_lifted, hviewed]
  cases house.mailbox.visibleIn s.store caller objectId with
  | error e => rfl
  | ok obj => simp only [Program.run_bind, hrecord, Program.run_pure]

/-! ## Passed and stopped -/

/-- The house does what its mailbox does. -/
def Does (p : HouseProgram μ α) (q : StoreProgram α) (s : HouseState μ) : Prop :=
  (p.run handle s).1 = (runs q s.store).1 ∧ (p.run handle s).2.store = (runs q s.store).2

/-- The house raises, and stores nothing. -/
def Stops (p : HouseProgram μ α) (s : HouseState μ) : Prop :=
  (∃ e, (p.run handle s).1 = .error e) ∧ (p.run handle s).2.store = s.store

lemma Does.map {β : Type} {p : HouseProgram μ α} {q : StoreProgram α} {s : HouseState μ}
    (h : Does p q s) (f : α → β) : Does (f <$> p) (f <$> q) s := by
  unfold Does
  rw [run_map, runs_map]
  exact ⟨congrArg (Except.map f) h.1, h.2⟩

lemma Stops.map {β : Type} {p : HouseProgram μ α} {s : HouseState μ} (h : Stops p s)
    (f : α → β) : Stops (f <$> p) s := by
  obtain ⟨⟨e, he⟩, hstore⟩ := h
  unfold Stops
  rw [run_map, he]
  exact ⟨⟨e, rfl⟩, hstore⟩

lemma does_lift (p : StoreProgram α) (s : HouseState μ) : Does (lift p) p s := by
  unfold Does
  rw [run_lifted]
  exact ⟨rfl, rfl⟩

lemma does_policed (house : House μ) {attempt : Attempt} (onError : JsonObject)
    (onSuccess : α → JsonObject) (act : StoreProgram α) {s : HouseState μ}
    (h : Accepted attempt s.store house.policies s.memory) :
    Does (house.policed attempt onError onSuccess act) act s := by
  obtain ⟨checked, _, _, hrun⟩ := house.run_policed_passed onError onSuccess act h
  unfold Does
  rw [hrun]
  exact ⟨rfl, record_store _ _ _⟩

lemma stops_policed (house : House μ) {attempt : Attempt} (onError : JsonObject)
    (onSuccess : α → JsonObject) (act : StoreProgram α) {s : HouseState μ}
    (h : ¬ Accepted attempt s.store house.policies s.memory) :
    Stops (house.policed attempt onError onSuccess act) s := by
  obtain ⟨e, hrun⟩ := house.run_policed_stopped onError onSuccess act h
  unfold Stops
  rw [hrun]
  exact ⟨⟨e, rfl⟩, run_check_store _ _ _⟩

lemma does_reply (house : House μ) {caller objectId body : String} {subject : Option String}
    {stamp : Stamp} {s : HouseState μ}
    (h : house.Passes (.reply caller objectId body subject stamp) s) :
    Does (house.reply caller objectId body subject stamp)
      (house.mailbox.reply caller objectId body subject stamp) s := by
  unfold Does Mailbox.reply
  rw [run_reply_eq, runs_bind, Mailbox.runs_visibleObject]
  cases hvisible : house.mailbox.visibleIn s.store caller objectId with
  | error e => exact ⟨rfl, rfl⟩
  | ok original => exact house.does_policed _ _ _ (h original hvisible)

lemma stops_reply (house : House μ) {caller objectId body : String} {subject : Option String}
    {stamp : Stamp} {s : HouseState μ}
    (h : ¬ house.Passes (.reply caller objectId body subject stamp) s) :
    Stops (house.reply caller objectId body subject stamp) s := by
  have hseen : ∃ original, house.Sees caller objectId s original ∧
      ¬ Accepted (sendAttempt caller (house.mailbox.replyDraft original body subject)) s.store
        house.policies s.memory := by
    simpa [Passes] using h
  obtain ⟨original, hvisible, hstopped⟩ := hseen
  unfold Sees at hvisible
  unfold Stops
  rw [run_reply_eq, hvisible]
  exact house.stops_policed _ _ _ hstopped

lemma does_view (house : House μ) (caller objectId : String) (s : HouseState μ) :
    Does (house.view caller objectId) (house.mailbox.view caller objectId) s := by
  unfold Does Mailbox.view
  rw [run_view_eq, Mailbox.runs_visibleObject]
  cases house.mailbox.visibleIn s.store caller objectId with
  | error e => exact ⟨rfl, rfl⟩
  | ok obj => exact ⟨rfl, record_store _ _ _⟩

/-- What the checks pass is done as the mailbox does it. -/
theorem does_program (house : House μ) {op : Operation} {s : HouseState μ}
    (h : house.Passes op s) : Does (house.program op) (op.program house.mailbox) s := by
  cases op with
  | join requestedName draw now => exact (house.does_policed _ _ _ h).map _
  | send caller draft stamp => exact (house.does_policed _ _ _ h).map _
  | read caller objectId now => exact (house.does_policed _ _ _ h).map _
  | reply caller objectId body subject stamp => exact (house.does_reply h).map _
  | view caller objectId => exact (house.does_view caller objectId s).map _
  | whois | directory | updateProfile | installResident | peek | unreadCount | thread | expire =>
    exact does_lift _ s

/-- What the checks stop is not done at all. -/
theorem stops_program (house : House μ) {op : Operation} {s : HouseState μ}
    (h : ¬ house.Passes op s) : Stops (house.program op) s := by
  cases op with
  | join requestedName draw now => exact (house.stops_policed _ _ _ h).map _
  | send caller draft stamp => exact (house.stops_policed _ _ _ h).map _
  | read caller objectId now => exact (house.stops_policed _ _ _ h).map _
  | reply caller objectId body subject stamp => exact (house.stops_reply h).map _
  | whois | directory | updateProfile | installResident | peek | unreadCount | thread | view |
    expire => exact absurd trivial h

/-! ## What the observer remembers -/

section
variable {observer : Policy μ} (hlooks : observer.LooksOn) (mailbox : Mailbox)
  (earlier later : List (Policy ν))

lemma run_check_observer (hlooks : observer.LooksOn) (attempt : Attempt)
    (s : HouseState (μ × ν)) :
    ((check attempt (watched mailbox observer earlier later).policies).run handle s).2.memory.1 =
      s.memory.1 := by
  have hkeeps : ∀ policy ∈ (watched mailbox observer earlier later).policies, ∀ store m,
      (policy.check attempt store m).2.1 = m.1 := by
    intro policy hpolicy store m
    rcases List.mem_append.mp hpolicy with hbefore | hrest
    · obtain ⟨p, _, rfl⟩ := List.mem_map.mp hbefore
      rfl
    rcases List.mem_cons.mp hrest with rfl | hafter
    · exact congrArg Prod.snd (hlooks attempt store m.1)
    · obtain ⟨p, _, rfl⟩ := List.mem_map.mp hafter
      rfl
  generalize (watched mailbox observer earlier later).policies = policies at hkeeps
  induction policies generalizing s with
  | nil => rfl
  | cons policy rest ih =>
    obtain ⟨hfirst, hrest⟩ := List.forall_mem_cons.mp hkeeps
    simp only [check, Program.run_bind, run_askCheck, Program.run_ofExcept]
    cases (policy.check attempt s.store s.memory).1 with
    | error e => exact hfirst s.store s.memory
    | ok _ => exact (ih _ hrest).trans (hfirst s.store s.memory)

lemma run_record_behind (outcome : Outcome) (policies : List (Policy ν))
    (s : HouseState (μ × ν)) :
    ((record outcome (policies.map Policy.behind)).run handle s).2.memory.1 = s.memory.1 := by
  induction policies generalizing s with
  | nil => rfl
  | cons policy rest ih =>
    rw [List.map_cons, record, Program.run_bind, run_askRecord]
    exact ih _

lemma run_record_observer (outcome : Outcome) (s : HouseState (μ × ν)) :
    ((record outcome (watched mailbox observer earlier later).policies).run handle s).2.memory.1 =
      (observer.record outcome s.store s.memory.1).2 := by
  unfold watched
  dsimp only
  induction earlier generalizing s with
  | nil =>
    rw [List.map_nil, List.nil_append, record, Program.run_bind, run_askRecord]
    exact run_record_behind outcome later _
  | cons policy rest ih =>
    rw [List.map_cons, List.cons_append, record, Program.run_bind, run_askRecord]
    exact ih _

/-- The observer makes of the outcome what it makes of it, if it is told of one. -/
def remembers (observer : Policy μ) (store : InMemoryStore) (m : μ) : Option Outcome → μ
  | none => m
  | some outcome => (observer.record outcome store m).2

/-- What a program leaves in the observer's memory is what the observer makes of `told`. -/
def Remembers (observer : Policy μ) (p : HouseProgram (μ × ν) α) (s : HouseState (μ × ν))
    (told : Option Outcome) : Prop :=
  (p.run handle s).2.memory.1 = remembers observer (p.run handle s).2.store s.memory.1 told

lemma Remembers.map {β : Type} {p : HouseProgram (μ × ν) α} {s : HouseState (μ × ν)}
    {told : Option Outcome} (h : Remembers observer p s told) (f : α → β) :
    Remembers observer (f <$> p) s told := by
  unfold Remembers at h ⊢
  rw [run_map]
  exact h

lemma remembers_lift (p : StoreProgram α) (s : HouseState (μ × ν)) :
    Remembers observer (lift p) s none := by
  unfold Remembers
  rw [run_lifted]
  rfl

lemma remembers_policed (hlooks : observer.LooksOn) (attempt : Attempt) (onError : JsonObject)
    (onSuccess : α → JsonObject) (act : StoreProgram α) (s : HouseState (μ × ν)) :
    Remembers observer
      ((watched mailbox observer earlier later).policed attempt onError onSuccess act) s
      ((watched mailbox observer earlier later).toldIf s attempt onError onSuccess act) := by
  unfold Remembers toldIf
  split_ifs with hpassed
  · obtain ⟨checked, hchecked, _, hrun⟩ := run_policed_passed _ onError onSuccess act hpassed
    rw [hrun]
    have hmemory := run_check_observer mailbox earlier later hlooks attempt s
    rw [hchecked] at hmemory
    rw [record_store, run_record_observer, hmemory]
    rfl
  · obtain ⟨e, hrun⟩ := run_policed_stopped _ onError onSuccess act hpassed
    rw [hrun]
    exact run_check_observer mailbox earlier later hlooks attempt s

lemma remembers_send (hlooks : observer.LooksOn) (caller : String) (draft : Draft)
    (stamp : Stamp) (s : HouseState (μ × ν)) :
    Remembers observer ((watched mailbox observer earlier later).send caller draft stamp) s
      ((watched mailbox observer earlier later).toldOfSend s caller draft stamp) :=
  remembers_policed mailbox earlier later hlooks _ _ _ _ s

lemma remembers_reply (hlooks : observer.LooksOn) (caller objectId body : String)
    (subject : Option String) (stamp : Stamp) (s : HouseState (μ × ν)) :
    Remembers observer
      ((watched mailbox observer earlier later).reply caller objectId body subject stamp) s
      ((watched mailbox observer earlier later).toldOf
        (.reply caller objectId body subject stamp) s) := by
  unfold Remembers
  rw [run_reply_eq, toldOf]
  cases (watched mailbox observer earlier later).mailbox.visibleIn s.store caller objectId with
  | error e => rfl
  | ok original => exact remembers_send mailbox earlier later hlooks caller _ stamp s

lemma remembers_view (caller objectId : String) (s : HouseState (μ × ν)) :
    Remembers observer ((watched mailbox observer earlier later).view caller objectId) s
      ((watched mailbox observer earlier later).toldOf (.view caller objectId) s) := by
  unfold Remembers
  rw [run_view_eq, toldOf]
  cases (watched mailbox observer earlier later).mailbox.visibleIn s.store caller objectId with
  | error e => rfl
  | ok obj =>
    dsimp only
    rw [run_record_observer, record_store]
    rfl

/-- What an operation leaves in the observer's memory. -/
theorem remembers_program (hlooks : observer.LooksOn) (op : Operation)
    (s : HouseState (μ × ν)) :
    Remembers observer ((watched mailbox observer earlier later).program op) s
      ((watched mailbox observer earlier later).toldOf op s) := by
  cases op with
  | join requestedName draw now =>
    exact (remembers_policed mailbox earlier later hlooks _ _ _ _ s).map _
  | send caller draft stamp =>
    exact (remembers_send mailbox earlier later hlooks caller draft stamp s).map _
  | read caller objectId now =>
    exact (remembers_policed mailbox earlier later hlooks _ _ _ _ s).map _
  | reply caller objectId body subject stamp =>
    exact (remembers_reply mailbox earlier later hlooks caller objectId body subject stamp s).map _
  | view caller objectId =>
    exact (remembers_view mailbox earlier later caller objectId s).map _
  | whois | directory | updateProfile | installResident | peek | unreadCount | thread | expire =>
    exact remembers_lift _ s

end

end House

end

end AgentMailbox
