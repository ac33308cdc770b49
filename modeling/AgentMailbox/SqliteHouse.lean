import AgentMailbox.Interchange
import AgentMailbox.Observation

/-!
# A house over SQLite

Check, act and record, over a store whose statements can raise. What the act raises is told to
the observers like any other failure, and raised on. Whatever the policies make of the tables
they are shown, the tables come to hold what the mailbox's operation alone would leave, or what
they held before.
-/
namespace AgentMailbox

/-- The tables underneath, and what the policies remember. -/
structure RowHouse (μ : Type) where
  rows : RowConnection
  memory : μ

/-- What the policies say when it is the tables they look at. -/
structure Judges (μ : Type) where
  check : Policy μ → Attempt → RowConnection → μ → Except Raised Unit × μ
  record : Policy μ → Outcome → RowConnection → μ → Except Raised Unit × μ

namespace RowHouse

section
variable {μ α : Type} (engine : Engine) (judges : Judges μ)

/-- `for policy in policies: await policy.check(attempt, mailbox)`. -/
def check (attempt : Attempt) : List (Policy μ) → RowHouse μ → Except Raised Unit × RowHouse μ
  | [], t => (.ok (), t)
  | policy :: rest, t =>
    match judges.check policy attempt t.rows t.memory with
    | (.ok _, m) => check attempt rest { t with memory := m }
    | (.error e, m) => (.error e, { t with memory := m })

/-- Tell every observer; what one of them raises goes no further. -/
def record (outcome : Outcome) : List (Policy μ) → RowHouse μ → RowHouse μ
  | [], t => t
  | policy :: rest, t =>
    record outcome rest { t with memory := (judges.record policy outcome t.rows t.memory).2 }

/-- A program of the mailbox underneath, down to its statements. -/
def act (p : StoreProgram α) (t : RowHouse μ) : Except Raised α × RowHouse μ :=
  let done := (SqliteStore.statements p).exec (RowConnection.handle engine) t.rows
  (done.1, { t with rows := done.2 })

/-- Check, act, record. -/
def policed (house : House μ) (attempt : Attempt) (onError : JsonObject)
    (onSuccess : α → JsonObject) (p : StoreProgram α) (t : RowHouse μ) :
    Except Raised α × RowHouse μ :=
  match check judges attempt house.policies t with
  | (.error e, t) => (.error e, t)
  | (.ok _, t) => match act engine p t with
    | (.ok result, t) =>
      (.ok result, record judges ⟨attempt, true, none, onSuccess result⟩ house.policies t)
    | (.error e, t) =>
      (.error e, record judges ⟨attempt, false, some e, onError⟩ house.policies t)

/-- `House.open`, policy by policy. -/
def openAll (clock : ℕ → DateTime) :
    List (Policy μ) → RowHouse μ → Except Raised Unit × RowHouse μ
  | [], t => (.ok (), t)
  | policy :: rest, t => match act engine (policy.onOpen clock) t with
    | (.ok _, t) => openAll clock rest t
    | (.error e, t) => (.error e, t)

def send (house : House μ) (caller : String) (draft : Draft) (stamp : Stamp) (t : RowHouse μ) :
    Except Raised ObjectRecord × RowHouse μ :=
  policed engine judges house (House.sendAttempt caller draft) ∅
    (fun sent => Dict.ofList [("id", .str sent.id)]) (house.mailbox.send caller draft stamp) t

def read (house : House μ) (caller objectId : String) (now : DateTime) (t : RowHouse μ) :
    Except Raised ObjectRecord × RowHouse μ :=
  policed engine judges house (House.readAttempt caller objectId)
    (Dict.ofList [("not_yours", .bool true)]) (fun _ => ∅)
    (house.mailbox.read caller objectId now) t

def join (house : House μ) (requestedName : Option String) (draw : ℕ → Naming.Draw)
    (now : DateTime) (t : RowHouse μ) : Except Raised ActorRecord × RowHouse μ :=
  policed engine judges house (House.joinAttempt requestedName) ∅
    (fun actor => Dict.ofList [("name", .str actor.name)])
    (house.mailbox.join requestedName draw now) t

def reply (house : House μ) (caller objectId body : String) (subject : Option String)
    (stamp : Stamp) (t : RowHouse μ) : Except Raised ObjectRecord × RowHouse μ :=
  match act engine (house.mailbox.view caller objectId) t with
  | (.ok original, t) =>
    send engine judges house caller (house.mailbox.replyDraft original body subject) stamp t
  | (.error e, t) => (.error e, t)

def view (house : House μ) (caller objectId : String) (t : RowHouse μ) :
    Except Raised ObjectRecord × RowHouse μ :=
  match act engine (house.mailbox.view caller objectId) t with
  | (.ok got, t) =>
    (.ok got, record judges (House.viewOutcome caller objectId) house.policies t)
  | (.error e, t) => (.error e, t)

/-- What a method returns, as the result of an operation. -/
def returning (f : α → Result) (done : Except Raised α × RowHouse μ) :
    Except Raised Result × RowHouse μ := (done.1.map f, done.2)

/-- The house's operation for each operation of the mailbox. Those without a policy moment are
the mailbox's own. -/
def step (house : House μ) : Operation → RowHouse μ → Except Raised Result × RowHouse μ
  | .join requestedName draw now, t =>
    returning .actor (join engine judges house requestedName draw now t)
  | .send caller draft stamp, t =>
    returning .message (send engine judges house caller draft stamp t)
  | .reply caller objectId body subject stamp, t =>
    returning .message (reply engine judges house caller objectId body subject stamp t)
  | .read caller objectId now, t =>
    returning .message (read engine judges house caller objectId now t)
  | .view caller objectId, t => returning .message (view engine judges house caller objectId t)
  | op, t => act engine (op.program house.mailbox) t

end

/-! ## What it comes to -/

/-- As over the dictionaries, or raised at with everything as it was. -/
def DoneOrRaised {α : Type} (engine : Engine) (done : Except Raised α × InMemoryStore)
    (s : InMemoryStore) (x : Except Raised α) (rows : RowConnection) : Prop :=
  ∃ s', SqliteStore.Represents engine s' rows ∧ ComesTo False done s x s'

section
variable {μ α : Type} {engine : Engine} {judges : Judges μ} {s : InMemoryStore} {t : RowHouse μ}

lemma act_comes {p : StoreProgram α} (hrep : SqliteStore.Represents engine s t.rows)
    (hp : Follows engine False p s) :
    DoneOrRaised engine (runs p s) s (act engine p t).1 (act engine p t).2.rows := by
  unfold act
  rw [exec_statements]
  exact (SqliteStore.backend_meets_port engine).exec hrep hp

lemma check_rows (judges : Judges μ) (attempt : Attempt) (policies : List (Policy μ))
    (t : RowHouse μ) : (check judges attempt policies t).2.rows = t.rows := by
  induction policies generalizing t with
  | nil => rfl
  | cons policy rest ih =>
    unfold check
    rcases judges.check policy attempt t.rows t.memory with ⟨_ | _, m⟩
    · rfl
    · exact ih _

lemma record_rows (judges : Judges μ) (outcome : Outcome) (policies : List (Policy μ))
    (t : RowHouse μ) : (record judges outcome policies t).rows = t.rows := by
  induction policies generalizing t with
  | nil => rfl
  | cons policy rest ih => exact ih _

lemma policed_comes (house : House μ) (attempt : Attempt) (onError : JsonObject)
    (onSuccess : α → JsonObject) {p : StoreProgram α}
    (hrep : SqliteStore.Represents engine s t.rows) (hp : Follows engine False p s) :
    DoneOrRaised engine (runs p s) s
      (policed engine judges house attempt onError onSuccess p t).1
      (policed engine judges house attempt onError onSuccess p t).2.rows := by
  unfold policed
  have hrows := check_rows judges attempt house.policies t
  generalize check judges attempt house.policies t = outcome at hrows ⊢
  obtain ⟨_ | _, checked⟩ := outcome
  · exact ⟨s, hrows.symm ▸ hrep, Or.inr ⟨id, ⟨_, rfl⟩, rfl⟩⟩
  · have hacted := act_comes (t := checked) (hrows.symm ▸ hrep) hp
    dsimp only
    generalize act engine p checked = acted at hacted ⊢
    obtain ⟨_ | _, acted⟩ := acted
    all_goals
      show DoneOrRaised engine _ s _ (record judges _ _ _).rows
      rw [record_rows]
      exact hacted

lemma DoneOrRaised.map {β : Type} {done : Except Raised α × InMemoryStore}
    {x : Except Raised α} {rows : RowConnection} (h : DoneOrRaised engine done s x rows)
    (f : α → β) : DoneOrRaised engine (done.1.map f, done.2) s (x.map f) rows := by
  obtain ⟨s', hrep, ⟨rfl, hstate⟩ | ⟨hno, ⟨e, rfl⟩, hstate⟩⟩ := h
  · exact ⟨s', hrep, Or.inl ⟨rfl, hstate⟩⟩
  · exact ⟨s', hrep, Or.inr ⟨hno, ⟨e, rfl⟩, hstate⟩⟩

lemma send_comes (house : House μ) {caller : String} {draft : Draft} (stamp : Stamp)
    (hrep : SqliteStore.Represents engine s t.rows)
    (hjson : (Json.ofDict (draft.document.getD ∅)).isValue engine.floats = true) :
    DoneOrRaised engine (runs (house.mailbox.send caller draft stamp) s) s
      (send engine judges house caller draft stamp t).1
      (send engine judges house caller draft stamp t).2.rows :=
  policed_comes house _ _ _ hrep (follows_send house.mailbox False.elim hjson False.elim)

lemma view_acts (house : House μ) (caller objectId : String)
    (hrep : SqliteStore.Represents engine s t.rows) :
    DoneOrRaised engine (house.mailbox.visibleIn s caller objectId, s) s
      (act engine (house.mailbox.view caller objectId) t).1
      (act engine (house.mailbox.view caller objectId) t).2.rows := by
  have hfollows : Follows engine False (house.mailbox.visibleObject caller objectId) s :=
    follows_visibleObject house.mailbox False.elim
  have hacts := act_comes hrep hfollows
  rw [Mailbox.runs_visibleObject] at hacts
  exact hacts

lemma view_comes (judges : Judges μ) (house : House μ) (caller objectId : String)
    (hrep : SqliteStore.Represents engine s t.rows) :
    DoneOrRaised engine (house.mailbox.visibleIn s caller objectId, s) s
      (view engine judges house caller objectId t).1
      (view engine judges house caller objectId t).2.rows := by
  have hacts := view_acts house caller objectId hrep
  unfold view
  generalize act engine (house.mailbox.view caller objectId) t = acted at hacts ⊢
  obtain ⟨_ | got, acted⟩ := acted
  · exact hacts
  · show DoneOrRaised engine _ s _ (record judges _ _ _).rows
    rw [record_rows]
    exact hacts

lemma reply_comes (house : House μ) (caller objectId body : String) (subject : Option String)
    (stamp : Stamp) (hrep : SqliteStore.Represents engine s t.rows) :
    DoneOrRaised engine (runs (house.mailbox.reply caller objectId body subject stamp) s) s
      (reply engine judges house caller objectId body subject stamp t).1
      (reply engine judges house caller objectId body subject stamp t).2.rows := by
  have hacts := view_acts house caller objectId hrep
  have hreply := runs_bind s (house.mailbox.visibleObject caller objectId) fun original =>
    house.mailbox.send caller (house.mailbox.replyDraft original body subject) stamp
  rw [Mailbox.runs_visibleObject] at hreply
  unfold reply
  generalize act engine (house.mailbox.view caller objectId) t = acted at hacts ⊢
  obtain ⟨answer, acted⟩ := acted
  obtain ⟨s', hrep', ⟨hanswer, hstate⟩ | ⟨hno, ⟨e, hraised⟩, hstate⟩⟩ := hacts
  · have hanswer : answer = house.mailbox.visibleIn s caller objectId := hanswer
    have hstate : s' = s := hstate
    rw [← hanswer] at hreply
    rw [hstate] at hrep'
    unfold Mailbox.reply
    rw [hreply]
    cases answer with
    | error e => exact ⟨s, hrep', Or.inl ⟨rfl, rfl⟩⟩
    | ok original => exact send_comes house stamp hrep' rfl
  · have hraised : answer = .error e := hraised
    rw [hraised]
    exact ⟨s', hrep', Or.inr ⟨hno, ⟨e, rfl⟩, hstate⟩⟩

end

lemma returning_carriedOut {α : Type} {engine : Engine} {mb : Mailbox} {op : Operation}
    {f : α → Result} {p : StoreProgram α} {s : InMemoryStore} {μ : Type}
    {done : Except Raised α × RowHouse μ} (hop : op.program mb = f <$> p)
    (h : DoneOrRaised engine (runs p s) s done.1 done.2.rows) :
    ∃ s', SqliteStore.Represents engine s' (returning f done).2.rows ∧
      op.CarriedOut mb False s (returning f done).1 s' := by
  obtain ⟨s', hrep, hcomes⟩ := h.map f
  refine ⟨s', hrep, ComesTo.carriedOut ?_⟩
  rw [Operation.step_eq_runs, hop, runs_map]
  exact hcomes

/-- Every operation of a house over SQLite comes to what the mailbox's own comes to over the
dictionaries, or to an exception with nothing changed. -/
theorem step_carriedOut {μ : Type} {engine : Engine} (judges : Judges μ) (house : House μ)
    {op : Operation} {s : InMemoryStore} {t : RowHouse μ}
    (hrep : SqliteStore.Represents engine s t.rows) (hjson : op.IsJson engine.floats) :
    ∃ s', SqliteStore.Represents engine s' (step engine judges house op t).2.rows ∧
      op.CarriedOut house.mailbox False s (step engine judges house op t).1 s' := by
  have hpass : ∃ s',
      SqliteStore.Represents engine s' (act engine (op.program house.mailbox) t).2.rows ∧
        op.CarriedOut house.mailbox False s (act engine (op.program house.mailbox) t).1 s' := by
    obtain ⟨s', hrep', hdone⟩ := stepSqlite_carriedOut house.mailbox hrep hjson
    exact ⟨s', hrep', hdone.imp_right fun hraised => ⟨id, hraised.2⟩⟩
  cases op with
  | join requestedName draw now =>
    exact returning_carriedOut rfl (policed_comes house _ _ _ hrep (follows_join _ _ _ _))
  | send caller draft stamp => exact returning_carriedOut rfl (send_comes house stamp hrep hjson)
  | reply caller objectId body subject stamp =>
    exact returning_carriedOut rfl (reply_comes house caller objectId body subject stamp hrep)
  | read caller objectId now =>
    exact returning_carriedOut rfl
      (policed_comes house _ _ _ hrep (follows_read house.mailbox now False.elim))
  | view caller objectId =>
    have hview := view_comes judges house caller objectId hrep
    rw [← Mailbox.runs_visibleObject] at hview
    exact returning_carriedOut rfl hview
  | whois | directory | updateProfile | installResident | peek | unreadCount | thread | expire =>
    exact hpass

/-! ## Opening -/

/-- Installing the residents hands the store nothing it is not prepared for. -/
lemma wp_install (engine : Engine) (clock : ℕ → DateTime) (residents : List (String × String))
    (s : InMemoryStore) : (StandingResidents.install clock residents).wp
      (InMemoryStore.specification engine) (fun _ _ => True) s := by
  induction residents generalizing s with
  | nil => exact (Program.wp_pure ()).mpr trivial
  | cons resident rest ih =>
    obtain ⟨name, purpose⟩ := resident
    rw [StandingResidents.install, Program.wp_bind_iff]
    refine (Program.wp_perform_iff (S := messageStore) (.getActor name)).mpr
      ⟨⟨trivial, trivial⟩, False.elim, fun _ answer _ => ?_⟩
    cases answer with
    | some actor => exact ih s
    | none =>
      show (_ >>= _ : StoreProgram Unit).wp _ _ s
      rw [Program.wp_bind_iff]
      have hinstall : Follows engine False (Mailbox.installResident name
          (StandingResidents.profile purpose) (clock rest.length)) s :=
        follows_installResident name _ _ rfl False.elim
      apply Program.wp_mono hinstall
      intro x s' _
      cases x with
      | error e => trivial
      | ok actor => exact ih s'

/-- A house that opens leaves tables that hold what some dictionaries hold. -/
theorem openAll_represents {μ : Type} {engine : Engine} (clock : ℕ → DateTime)
    {policies : List (Policy μ)} {s : InMemoryStore} {t : RowHouse μ}
    (horderly : ∀ policy ∈ policies, policy.onOpen = (standingResidents μ).onOpen ∨
      policy.onOpen = fun _ => pure ())
    (hrep : SqliteStore.Represents engine s t.rows) :
    ∃ s', SqliteStore.Represents engine s' (openAll engine clock policies t).2.rows := by
  induction policies generalizing s t with
  | nil => exact ⟨s, hrep⟩
  | cons policy rest ih =>
    have hwp : (policy.onOpen clock).wp (InMemoryStore.specification engine)
        (fun _ _ => True) s := by
      rcases horderly policy List.mem_cons_self with hopen | hopen
      · rw [hopen]
        exact wp_install engine clock _ s
      · rw [hopen]
        exact (Program.wp_pure ()).mpr trivial
    obtain ⟨s', hrep', -⟩ := (SqliteStore.backend_meets_port engine).exec hrep hwp
    rw [← exec_statements] at hrep'
    have hrep' : SqliteStore.Represents engine s' (act engine (policy.onOpen clock) t).2.rows :=
      hrep'
    unfold openAll
    generalize act engine (policy.onOpen clock) t = opened at hrep' ⊢
    obtain ⟨_ | _, opened⟩ := opened
    · exact ⟨s', hrep'⟩
    · exact ih (fun policy hmem => horderly policy (List.mem_cons_of_mem _ hmem)) hrep'

end RowHouse

end AgentMailbox
