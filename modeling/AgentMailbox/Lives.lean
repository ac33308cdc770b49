import AgentMailbox.CrashSafety

/-!
# The life of a store

A store object is opened on a file, used and closed, by a process that may die at any moment.
Over its whole life it is a mailbox to which whole operations happen, one after the other.
-/
namespace AgentMailbox

/-! ## The store is opened, used and closed -/

/-- `SqliteStore`: a path, and the connection to what is there if it has been opened. -/
inductive SqliteObject
  | closed (file : RowTables)
  | opened (conn : RowConnection)

namespace SqliteObject

/-- What the file holds. -/
def file : SqliteObject → RowTables
  | closed file => file
  | opened conn => conn.committed

def isOpen : SqliteObject → Bool
  | closed _ => false
  | opened _ => true

/-- `__aenter__`: a new connection, and the tables that are not there yet. -/
def enter (store : SqliteObject) : SqliteObject := opened (.opened store.file)

/-- `__aexit__`: what is not committed is lost with the connection. -/
def exit (store : SqliteObject) : SqliteObject := closed store.file

/-- `self._db.execute(…)`, where `_db` raises if there is no connection. -/
def handle (engine : Engine) : Fallible sqlite Raised SqliteObject
  | _, closed file => (.error (.mailbox .storeNotOpen), closed file)
  | stmt, opened conn =>
    ((RowConnection.handle engine stmt conn).1, opened (RowConnection.handle engine stmt conn).2)

section
variable (engine : Engine) {α : Type}

lemma exec_opened (p : SqlProgram α) (conn : RowConnection) :
    p.exec (handle engine) (opened conn) =
      ((p.exec (RowConnection.handle engine) conn).1,
        opened (p.exec (RowConnection.handle engine) conn).2) := by
  induction p generalizing conn with
  | ret a => rfl
  | raise e => rfl
  | call stmt next ih =>
    rw [Program.exec_call, Program.exec_call]
    simp only [handle]
    rcases RowConnection.handle engine stmt conn with ⟨_ | answer, conn'⟩
    · rfl
    · exact ih answer conn'

lemma stopped_opened (n : ℕ) (p : SqlProgram α) (conn : RowConnection) :
    p.stopped (handle engine) n (opened conn) =
      opened (p.stopped (RowConnection.handle engine) n conn) := by
  induction p generalizing n conn with
  | ret a => rw [Program.stopped_ret, Program.stopped_ret]
  | raise e => rw [Program.stopped_raise, Program.stopped_raise]
  | call stmt next ih =>
    cases n with
    | zero => rfl
    | succ n =>
      simp only [Program.stopped, handle]
      rcases RowConnection.handle engine stmt conn with ⟨_ | answer, conn'⟩
      · rfl
      · exact ih answer n conn'

/-- Without a connection nothing happens to the file. -/
lemma exec_closed (p : SqlProgram α) (file : RowTables) :
    (p.exec (handle engine) (closed file)).2 = closed file := by
  cases p <;> rfl

lemma stopped_closed (n : ℕ) (p : SqlProgram α) (file : RowTables) :
    p.stopped (handle engine) n (closed file) = closed file := by
  cases p <;> cases n <;> rfl

end

end SqliteObject

/-- What happens to a store object. -/
inductive Incident
  | opens
  | closes
  | calls (op : Operation)
  /-- The process dies after so many statements of an operation. -/
  | dies (op : Operation) (statements : ℕ)

namespace Incident

/-- The operation carried out, or begun. -/
def operation : Incident → Option Operation
  | calls op | dies op _ => some op
  | opens | closes => none

/-- What comes of it: an answer, if an operation is carried out to its end. -/
def happen (engine : Engine) (mb : Mailbox) :
    Incident → SqliteObject → Option (Except Raised Result) × SqliteObject
  | opens, store => (none, store.enter)
  | closes, store => (none, store.exit)
  | calls op, store =>
    let done := (SqliteStore.statements (op.program mb)).exec (SqliteObject.handle engine) store
    (some done.1, done.2)
  | dies op n, store =>
    (none, ((SqliteStore.statements (op.program mb)).stopped (SqliteObject.handle engine) n
      store).exit)

/-- Whether there is a connection afterwards. -/
def leavesOpen (open_ : Bool) : Incident → Bool
  | opens => true
  | closes | dies _ _ => false
  | calls _ => open_

/-- What it means for the mailbox: nothing, an operation carried out, an operation refused
for want of a connection unless it comes to no statement, or an operation that has taken
place or not. -/
def Means (engine : Engine) (mb : Mailbox) (open_ : Bool) (s : InMemoryStore)
    (answer : Option (Except Raised Result)) (s' : InMemoryStore) : Incident → Prop
  | opens | closes => answer = none ∧ s' = s
  | calls op => ∃ x, answer = some x ∧
    if open_ then op.CarriedOut mb (op.Smooth engine mb s) s x s'
    else s' = s ∧ (x = .error (.mailbox .storeNotOpen) ∨ ∀ t, x = (op.step mb t).1)
  | dies op _ => answer = none ∧ (s' = s ∨ open_ = true ∧ s' = (op.step mb s).2)

end Incident

/-- The answers given over the life of a store object, and what becomes of it. -/
def life (engine : Engine) (mb : Mailbox) :
    List Incident → SqliteObject → List (Option (Except Raised Result)) × SqliteObject
  | [], store => ([], store)
  | incident :: rest, store =>
    let done := incident.happen engine mb store
    let later := life engine mb rest done.2
    (done.1 :: later.1, later.2)

/-- A history of the mailbox, one incident after the other. -/
def Chronicle (engine : Engine) (mb : Mailbox) :
    Bool → InMemoryStore → List Incident → List (Option (Except Raised Result)) →
      InMemoryStore → Prop
  | _, s, [], [], s' => s' = s
  | open_, s, incident :: rest, answer :: answers, s' =>
    ∃ middle, incident.Means engine mb open_ s answer middle ∧
      Chronicle engine mb (incident.leavesOpen open_) middle rest answers s'
  | _, _, _, _, _ => False

/-! ### Without a connection -/

/-- The calls that come to a statement whatever they are about. -/
def StoreCall.Executes : StoreCall → Prop
  | .removeObjects _ | .readsOf _ => False
  | _ => True

/-- The first call of a program comes to a statement. -/
def StartsExecuting {α : Type} : StoreProgram α → Prop
  | .call c _ => StoreCall.Executes c
  | _ => True

section
variable {α β : Type}

lemma startsExecuting_bind {p : StoreProgram α} {f : α → StoreProgram β}
    (hp : StartsExecuting p) (hf : ∀ a, StartsExecuting (f a)) : StartsExecuting (p >>= f) := by
  cases p with
  | ret a => exact hf a
  | raise e => exact trivial
  | call c next => exact hp

lemma startsExecuting_ofExcept (x : Except Raised α) {f : α → StoreProgram β}
    (hf : ∀ a, StartsExecuting (f a)) : StartsExecuting (.ofExcept x >>= f) := by
  cases x with
  | ok a => exact hf a
  | error e => exact trivial

lemma startsExecuting_map {p : StoreProgram α} (hp : StartsExecuting p) (f : α → β) :
    StartsExecuting (f <$> p) := startsExecuting_bind hp fun _ => trivial

lemma startsExecuting_ask (c : StoreCall) (hc : c.Executes) :
    StartsExecuting (MessageStore.ask c) := hc

/-- Whoever acts is looked up first. -/
lemma startsExecuting_requireActor (mb : Mailbox) (name : String)
    (f : ActorRecord → StoreProgram β) : StartsExecuting (mb.requireActor name >>= f) := by
  unfold Mailbox.requireActor
  cases mb.local_ name <;> exact trivial

lemma startsExecuting_joinIssued (draw : ℕ → Naming.Draw) (now : DateTime)
    (remaining attempt : ℕ) :
    StartsExecuting (Mailbox.joinIssued draw now remaining attempt) := by
  cases remaining <;> exact trivial

lemma startsExecuting_expire (mb : Mailbox) (now : DateTime) :
    StartsExecuting (mb.expire now) := by
  unfold Mailbox.expire
  split_ifs
  · exact trivial
  · exact startsExecuting_ofExcept _ fun cutoff => trivial

lemma startsExecuting_installResident (name : String) (profile : JsonObject) (now : DateTime) :
    StartsExecuting (Mailbox.installResident name profile now) := trivial

lemma startsExecuting_call_iff (c : StoreCall) (next : c.Answer → StoreProgram α) :
    StartsExecuting (.call c next) ↔ c.Executes := Iff.rfl

lemma startsExecuting_claim (actor : ActorRecord) (f : Bool → StoreProgram α) :
    StartsExecuting (MessageStore.claimName actor >>= f) := trivial

attribute [irreducible] StartsExecuting

lemma startsExecuting_join (mb : Mailbox) (requestedName : Option String)
    (draw : ℕ → Naming.Draw) (now : DateTime) :
    StartsExecuting (mb.join requestedName draw now) := by
  cases requestedName with
  | none => exact startsExecuting_joinIssued draw now nameAttempts 0
  | some requested =>
    exact startsExecuting_ofExcept _ fun name => startsExecuting_claim _ _

lemma startsExecuting_visibleObject (mb : Mailbox) (caller objectId : String) :
    StartsExecuting (mb.visibleObject caller objectId) :=
  startsExecuting_requireActor mb caller _

lemma startsExecuting_send (mb : Mailbox) (caller : String) (draft : Draft) (stamp : Stamp) :
    StartsExecuting (mb.send caller draft stamp) := startsExecuting_requireActor mb caller _

/-- Every operation comes to a statement first, if it comes to a call at all. -/
lemma startsExecuting_program (mb : Mailbox) (op : Operation) :
    StartsExecuting (op.program mb) := by
  cases op with
  | join requestedName draw now =>
    exact startsExecuting_map (startsExecuting_join mb requestedName draw now) _
  | whois name => exact startsExecuting_map (startsExecuting_ask (.getActor name) trivial) _
  | directory => exact startsExecuting_map (startsExecuting_ask .actors trivial) _
  | updateProfile caller profile now =>
    exact startsExecuting_map (startsExecuting_requireActor mb caller _) _
  | installResident name profile now =>
    exact startsExecuting_map (startsExecuting_installResident name profile now) _
  | send caller draft stamp => exact startsExecuting_map (startsExecuting_send mb _ _ _) _
  | reply caller objectId body subject stamp =>
    refine startsExecuting_map (startsExecuting_bind ?_ fun original => ?_) _
    · exact startsExecuting_visibleObject mb caller objectId
    · exact startsExecuting_send mb caller _ stamp
  | peek caller => exact startsExecuting_map (startsExecuting_requireActor mb caller _) _
  | unreadCount caller =>
    refine startsExecuting_map (startsExecuting_map ?_ List.length) _
    exact startsExecuting_requireActor mb caller _
  | read caller objectId now =>
    exact startsExecuting_map (startsExecuting_requireActor mb caller _) _
  | thread caller rootId =>
    exact startsExecuting_map (startsExecuting_requireActor mb caller _) _
  | view caller objectId =>
    exact startsExecuting_map (startsExecuting_visibleObject mb caller objectId) _
  | expire now => exact startsExecuting_map (startsExecuting_expire mb now) _

/-- A program that starts with a statement is refused, and one that makes no call does not
notice. -/
lemma closed_answer {engine : Engine} {p : StoreProgram α} (hp : StartsExecuting p)
    (file : RowTables) :
    ((SqliteStore.statements p).exec (SqliteObject.handle engine) (.closed file)).1 =
        .error (.mailbox .storeNotOpen) ∨
      ∀ t, ((SqliteStore.statements p).exec (SqliteObject.handle engine) (.closed file)).1 =
        (p.run InMemoryStore.handle t).1 := by
  cases p with
  | ret a => exact Or.inr fun _ => rfl
  | raise e => exact Or.inr fun _ => rfl
  | call c next =>
    have hexecutes := (startsExecuting_call_iff c next).mp hp
    cases c with
    | removeObjects | readsOf => exact absurd hexecutes id
    | _ => exact Or.inl rfl

end

/-! ### Histories -/

/-- The file holds what the mailbox holds, and nothing waits to be committed. -/
structure Keeps (engine : Engine) (s : InMemoryStore) (store : SqliteObject) : Prop where
  represents : SqliteStore.Represents engine s (.opened store.file)
  settled : ∀ conn, store = .opened conn → conn.Settled

lemma RowConnection.Settled.eq_opened {conn : RowConnection} (h : conn.Settled) :
    RowConnection.opened conn.committed = conn := by
  cases conn with
  | mk working committed => exact congrArg (RowConnection.mk · committed) h

lemma keeps_closed {engine : Engine} {s : InMemoryStore} {file : RowTables}
    (h : SqliteStore.Represents engine s (.opened file)) : Keeps engine s (.closed file) :=
  ⟨h, fun conn hconn => by cases hconn⟩

section
variable {engine : Engine} (mb : Mailbox) {s : InMemoryStore} {store : SqliteObject}

/-- An operation carried out over a connection. -/
lemma Keeps.calls {conn : RowConnection} (h : Keeps engine s (.opened conn)) {op : Operation}
    (hjson : op.IsJson engine.floats) : ∃ s',
    Keeps engine s' (.opened (op.stepSqlite engine mb conn).2) ∧
      op.CarriedOut mb (op.Smooth engine mb s) s (op.stepSqlite engine mb conn).1 s' := by
  have hsettled := h.settled conn rfl
  have hrep : SqliteStore.Represents engine s conn := hsettled.eq_opened ▸ h.represents
  obtain ⟨s', hrep', hdone⟩ := stepSqlite_carriedOut mb hrep hjson
  have hafter : (op.stepSqlite engine mb conn).2.Settled :=
    SqliteStore.settled_statements engine (op.program mb) hsettled
  refine ⟨s', ⟨?_, ?_⟩, hdone⟩
  · show SqliteStore.Represents engine s' (.opened (op.stepSqlite engine mb conn).2.committed)
    rwa [hafter.eq_opened]
  · rintro _ ⟨rfl⟩
    exact hafter

/-- An operation begun over a connection, and cut short. -/
lemma Keeps.dies {conn : RowConnection} (h : Keeps engine s (.opened conn)) {op : Operation}
    (hjson : op.IsJson engine.floats) (n : ℕ) : ∃ s',
    SqliteStore.Represents engine s' (.opened ((SqliteStore.statements (op.program mb)).stopped
        (RowConnection.handle engine) n conn).committed) ∧
      (s' = s ∨ s' = (op.step mb s).2) := by
  have hatomic := SqliteStore.atomic_statements engine (writesOnce_program mb op)
    (h.settled conn rfl) n
  rcases hatomic with hbefore | hafter
  · rw [hbefore]
    exact ⟨s, h.represents, Or.inl rfl⟩
  · rw [hafter]
    obtain ⟨s', hkeeps, ⟨_, rfl⟩ | ⟨_, _, rfl⟩⟩ := h.calls mb hjson
    · exact ⟨_, hkeeps.represents, Or.inr rfl⟩
    · exact ⟨_, hkeeps.represents, Or.inl rfl⟩

/-- One incident. -/
lemma Keeps.happen (h : Keeps engine s store) {incident : Incident}
    (hjson : ∀ op, incident.operation = some op → op.IsJson engine.floats) : ∃ s',
    Keeps engine s' (incident.happen engine mb store).2 ∧
      incident.Means engine mb store.isOpen s (incident.happen engine mb store).1 s' ∧
      (incident.happen engine mb store).2.isOpen = incident.leavesOpen store.isOpen := by
  cases incident with
  | opens =>
    refine ⟨s, ⟨h.represents, ?_⟩, ⟨rfl, rfl⟩, rfl⟩
    rintro _ ⟨rfl⟩
    exact RowConnection.settled_opened _
  | closes => exact ⟨s, keeps_closed h.represents, ⟨rfl, rfl⟩, rfl⟩
  | calls op =>
    cases store with
    | closed file =>
      have hsame := SqliteObject.exec_closed engine
        (SqliteStore.statements (op.program mb)) file
      simp only [Incident.happen, hsame]
      refine ⟨s, h, ⟨_, rfl, ?_⟩, rfl⟩
      exact ⟨rfl, closed_answer (startsExecuting_program mb op) file⟩
    | opened conn =>
      have hexec := SqliteObject.exec_opened engine
        (SqliteStore.statements (op.program mb)) conn
      obtain ⟨s', hkeeps, hdone⟩ := h.calls mb (hjson op rfl)
      simp only [Incident.happen, hexec]
      exact ⟨s', hkeeps, ⟨_, rfl, hdone⟩, rfl⟩
  | dies op n =>
    cases store with
    | closed file =>
      simp only [Incident.happen, SqliteObject.stopped_closed]
      exact ⟨s, keeps_closed h.represents, ⟨rfl, Or.inl rfl⟩, rfl⟩
    | opened conn =>
      simp only [Incident.happen, SqliteObject.stopped_opened]
      obtain ⟨s', hrep, hwhich⟩ := h.dies mb (hjson op rfl) n
      exact ⟨s', keeps_closed hrep, ⟨rfl, hwhich.imp id fun hs => ⟨rfl, hs⟩⟩, rfl⟩

lemma Keeps.life (h : Keeps engine s store) {incidents : List Incident}
    (hjson : ∀ incident ∈ incidents, ∀ op, incident.operation = some op →
      op.IsJson engine.floats) : ∃ s',
    Keeps engine s' (life engine mb incidents store).2 ∧
      Chronicle engine mb store.isOpen s incidents (life engine mb incidents store).1 s' := by
  induction incidents generalizing s store with
  | nil => exact ⟨s, h, rfl⟩
  | cons incident rest ih =>
    obtain ⟨middle, hkeeps, hmeans, hopen⟩ := h.happen mb
      (hjson incident List.mem_cons_self)
    obtain ⟨s', hend, hrest⟩ := ih hkeeps fun later hlater =>
      hjson later (List.mem_cons_of_mem _ hlater)
    rw [hopen] at hrest
    exact ⟨s', hend, middle, hmeans, hrest⟩

end

/-- Whatever happens to a store object on a new file, however often it is opened and closed and
at whatever statement the process dies: what the file holds at the end, and every answer given,
is what comes of a history of whole operations, in which an operation that was cut short has
taken place or has not. -/
theorem lives_are_histories (engine : Engine) (mb : Mailbox) (incidents : List Incident)
    (hjson : ∀ incident ∈ incidents, ∀ op, incident.operation = some op →
      op.IsJson engine.floats) : ∃ s',
    SqliteStore.Represents engine s'
        (.opened (life engine mb incidents (.closed .empty)).2.file) ∧
      Chronicle engine mb false .empty incidents
        (life engine mb incidents (.closed .empty)).1 s' := by
  obtain ⟨s', hkeeps, hchronicle⟩ :=
    (keeps_closed (SqliteStore.represents_empty engine)).life mb hjson
  exact ⟨s', hkeeps.represents, hchronicle⟩

/-- Two actors join; a letter is cut short before its commit, and the mailbox goes on. -/
def lostLetter : List Incident :=
  [.opens, .calls (joinAs "alice"), .calls (joinAs "bob"),
    .dies (.send "alice" { to_ := .one "bob", body := "hello" } ⟨"m1", january 2⟩) 3,
    .calls (.peek "bob"), .opens, .calls (.peek "bob")]

/-- The life in which a letter is lost is a history. -/
theorem lostLetter_is_history : ∃ s',
    SqliteStore.Represents plainEngine s'
        (.opened (life plainEngine asciiMailbox lostLetter (.closed .empty)).2.file) ∧
      Chronicle plainEngine asciiMailbox false .empty lostLetter
        (life plainEngine asciiMailbox lostLetter (.closed .empty)).1 s' :=
  lives_are_histories plainEngine asciiMailbox lostLetter (by
    intro incident hincident op hop
    simp only [lostLetter, List.mem_cons, List.not_mem_nil, or_false] at hincident
    rcases hincident with rfl | rfl | rfl | rfl | rfl | rfl | rfl
    all_goals simp only [Incident.operation, Option.some.injEq, reduceCtorEq] at hop
    all_goals
      subst hop
      decide)

end AgentMailbox
