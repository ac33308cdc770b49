import AgentMailbox.Mailbox

/-!
# The store in SQLite

An adapter: rows in and rows out. All tasks share one connection, so a statement sees
what any task has executed, committed or not, and a commit by any task makes all of it
durable. Between its statements a method can be overtaken by the statements of others.
-/
namespace AgentMailbox

/-- The tables of the schema, each filed under its primary key. A row is kept as the
record it spells: how lists and documents are written as text plays no part here. -/
structure Tables where
  actors : Dict String ActorRecord
  objects : Dict String ObjectRecord
  reads : Dict (String × String) ReadRecord

/-- What the connection is asked to execute. -/
inductive Statement
  | insertActor (actor : ActorRecord)
  | upsertActor (actor : ActorRecord)
  | selectActor (name : String)
  | selectActors
  | replaceObject (obj : ObjectRecord)
  | selectObject (objectId : String)
  | selectObjects
  | deleteReads (objectIds : List String)
  | deleteObjects (objectIds : List String)
  | insertRead (read : ReadRecord)
  | selectReads (objectIds : List String)
  | commit
  deriving DecidableEq

/-- The rows selected, or the number of rows written. -/
abbrev Statement.Answer : Statement → Type
  | insertActor _ => ℕ
  | upsertActor _ => ℕ
  | selectActor _ => Option ActorRecord
  | selectActors => List ActorRecord
  | replaceObject _ => ℕ
  | selectObject _ => Option ObjectRecord
  | selectObjects => List ObjectRecord
  | deleteReads _ => ℕ
  | deleteObjects _ => ℕ
  | insertRead _ => ℕ
  | selectReads _ => List ReadRecord
  | commit => Unit

abbrev sqlite : Signature := ⟨Statement, Statement.Answer⟩

namespace Tables

def empty : Tables := ⟨∅, ∅, ∅⟩

/-- `INSERT OR IGNORE INTO actors`. -/
def insertActor (t : Tables) (actor : ActorRecord) : ℕ × Tables :=
  if actor.name ∈ t.actors then (0, t)
  else (1, { t with actors := t.actors.set actor.name actor })

/-- `INSERT INTO actors … ON CONFLICT(name) DO UPDATE`, which leaves `created` alone. -/
def upsertActor (t : Tables) (actor : ActorRecord) : ℕ × Tables :=
  let row := match t.actors.lookup actor.name with
    | none => actor
    | some old => { actor with created := old.created }
  (1, { t with actors := t.actors.set actor.name row })

/-- `INSERT OR REPLACE INTO objects`. -/
def replaceObject (t : Tables) (obj : ObjectRecord) : ℕ × Tables :=
  (1, { t with objects := t.objects.set obj.id obj })

/-- `DELETE FROM reads WHERE object_id IN (…)`. -/
def deleteReads (t : Tables) (ids : List String) : ℕ × Tables :=
  ((t.reads.keys.filter fun key => key.1 ∈ ids).length,
    { t with reads := Dict.filterKeys (fun key => key.1 ∉ ids) t.reads })

/-- `DELETE FROM objects WHERE id IN (…)`. -/
def deleteObjects (t : Tables) (ids : List String) : ℕ × Tables :=
  ((t.objects.keys.filter fun id => id ∈ ids).length,
    { t with objects := Dict.filterKeys (fun id => id ∉ ids) t.objects })

/-- `INSERT OR IGNORE INTO reads`. -/
def insertRead (t : Tables) (read : ReadRecord) : ℕ × Tables :=
  if (read.objectId, read.reader) ∈ t.reads then (0, t)
  else (1, { t with reads := t.reads.set (read.objectId, read.reader) read })

/-- `SELECT * FROM reads WHERE object_id IN (…)`. -/
def selectReads (t : Tables) (ids : List String) : List ReadRecord :=
  t.reads.values.filter fun read => read.objectId ∈ ids

end Tables

namespace Tables

section
variable (t : Tables)

@[simp] theorem insertActor_objects (actor : ActorRecord) :
    (t.insertActor actor).2.objects = t.objects := by
  unfold insertActor
  split_ifs <;> rfl

@[simp] theorem insertActor_reads (actor : ActorRecord) :
    (t.insertActor actor).2.reads = t.reads := by
  unfold insertActor
  split_ifs <;> rfl

@[simp] theorem insertRead_objects (read : ReadRecord) :
    (t.insertRead read).2.objects = t.objects := by
  unfold insertRead
  split_ifs <;> rfl

theorem mem_replaceObject (obj : ObjectRecord) (id : String) :
    id ∈ (t.replaceObject obj).2.objects ↔ id = obj.id ∨ id ∈ t.objects := Dict.mem_set _ _ _ _

theorem lookup_deleteReads (ids : List String) (key : String × String) :
    (t.deleteReads ids).2.reads.lookup key = if key.1 ∉ ids then t.reads.lookup key else none :=
  (Dict.lookup_filterKeys _ _ _).trans (by simp)

theorem mem_deleteObjects (ids : List String) (id : String) :
    id ∈ (t.deleteObjects ids).2.objects ↔ id ∉ ids ∧ id ∈ t.objects := by
  unfold deleteObjects
  rw [Dict.mem_iff_lookup, Dict.mem_iff_lookup, Dict.lookup_filterKeys]
  by_cases hid : id ∈ ids <;> simp [hid]

theorem insertRead_reads (read : ReadRecord) :
    (t.insertRead read).2.reads = t.reads.setDefault (read.objectId, read.reader) read := by
  unfold insertRead Dict.setDefault
  split_ifs <;> rfl

/-- A read record that is there stays as it is. -/
theorem lookup_insertRead_of_some (read : ReadRecord) {key : String × String} {row : ReadRecord}
    (hrow : t.reads.lookup key = some row) :
    (t.insertRead read).2.reads.lookup key = some row := by
  rw [insertRead_reads, Dict.lookup_setDefault]
  split_ifs with hkey
  · rw [← hkey, hrow]
    rfl
  · exact hrow

theorem lookup_insertRead_of_ne (read : ReadRecord) {key : String × String}
    (hkey : key.1 ≠ read.objectId) :
    (t.insertRead read).2.reads.lookup key = t.reads.lookup key := by
  rw [insertRead_reads, Dict.lookup_setDefault, if_neg fun heq => hkey (congrArg Prod.fst heq)]

end

end Tables

/-- What the connection sees, and what a crash would leave. -/
structure Connection where
  working : Tables
  committed : Tables

namespace Connection

/-- A connection just opened on a database. -/
def opened (tables : Tables) : Connection := ⟨tables, tables⟩

/-- The answer to a statement, and the connection after it. -/
def handle : Handler sqlite Connection
  | .insertActor actor, conn =>
    ((conn.working.insertActor actor).1,
      { conn with working := (conn.working.insertActor actor).2 })
  | .upsertActor actor, conn =>
    ((conn.working.upsertActor actor).1,
      { conn with working := (conn.working.upsertActor actor).2 })
  | .selectActor name, conn => (conn.working.actors.lookup name, conn)
  | .selectActors, conn => (Sorting.sortBy ActorRecord.name conn.working.actors.values, conn)
  | .replaceObject obj, conn =>
    ((conn.working.replaceObject obj).1,
      { conn with working := (conn.working.replaceObject obj).2 })
  | .selectObject objectId, conn => (conn.working.objects.lookup objectId, conn)
  | .selectObjects, conn => (Sorting.sortBy ObjectRecord.age conn.working.objects.values, conn)
  | .deleteReads ids, conn =>
    ((conn.working.deleteReads ids).1, { conn with working := (conn.working.deleteReads ids).2 })
  | .deleteObjects ids, conn =>
    ((conn.working.deleteObjects ids).1,
      { conn with working := (conn.working.deleteObjects ids).2 })
  | .insertRead read, conn =>
    ((conn.working.insertRead read).1, { conn with working := (conn.working.insertRead read).2 })
  | .selectReads ids, conn => (conn.working.selectReads ids, conn)
  | .commit, conn => ((), { conn with committed := conn.working })

end Connection

/-! ## The methods of the store -/

abbrev SqlProgram (α : Type) : Type := Program sqlite Raised α

namespace SqliteStore

/-- `await self._db.execute(…)`, its rows fetched. -/
def execute (stmt : Statement) : SqlProgram stmt.Answer := @Program.perform sqlite Raised stmt

/-- `await self._db.commit()`. -/
def commit : SqlProgram Unit := execute .commit

def claimName (actor : ActorRecord) : SqlProgram Bool := do
  let rowcount ← execute (.insertActor actor)
  commit
  return decide (rowcount = 1)

def getActor (name : String) : SqlProgram (Option ActorRecord) := execute (.selectActor name)

def putActor (actor : ActorRecord) : SqlProgram Unit := do
  let _ ← execute (.upsertActor actor)
  commit

def actors : SqlProgram (List ActorRecord) := execute .selectActors

def addObject (obj : ObjectRecord) : SqlProgram Unit := do
  let _ ← execute (.replaceObject obj)
  commit

def getObject (objectId : String) : SqlProgram (Option ObjectRecord) :=
  execute (.selectObject objectId)

def objects : SqlProgram (List ObjectRecord) := execute .selectObjects

/-- Read-state goes with the objects. -/
def removeObjects (ids : List String) : SqlProgram ℕ :=
  match ids with
  | [] => return 0
  | ids => do
    let _ ← execute (.deleteReads ids)
    let rowcount ← execute (.deleteObjects ids)
    commit
    return rowcount

/-- Record a consumption, once. -/
def markRead (read : ReadRecord) : SqlProgram Bool := do
  let rowcount ← execute (.insertRead read)
  commit
  return decide (rowcount = 1)

def readsOf (ids : List String) : SqlProgram (Dict String (List ReadRecord)) :=
  match ids with
  | [] => return ∅
  | ids => do
    let rows ← execute (.selectReads ids)
    return Dict.ofList (ids.map fun id => (id, rows.filter fun row => row.objectId = id))

/-- `SqliteStore` as the storage port. -/
def port : (c : StoreCall) → SqlProgram c.Answer
  | .claimName actor => claimName actor
  | .getActor name => getActor name
  | .putActor actor => putActor actor
  | .actors => actors
  | .addObject obj => addObject obj
  | .getObject id => getObject id
  | .objects => objects
  | .removeObjects ids => removeObjects ids
  | .markRead read => markRead read
  | .readsOf ids => readsOf ids

/-- A program of store calls, down to its statements. -/
def statements {α : Type} (p : StoreProgram α) : SqlProgram α :=
  @Program.through messageStore sqlite Raised α port p

end SqliteStore

end AgentMailbox
