import AgentMailbox.JsonText
import AgentMailbox.Sqlite
import AgentMailbox.Library.Specification
import AgentMailbox.Library.Utf8Order

/-!
# Rows in and rows out

What the statements do to rows of text columns, and how records become rows and rows
become records. Profiles, documents and lists of names are written as JSON; text is compared by
its UTF-8 bytes; a statement with more parameters than the engine binds is refused. Seen through
the conversions, the statements do to the rows what they do to the records.
-/
namespace AgentMailbox

/-- The columns of `actors`. -/
structure ActorRow where
  name : String
  actorType : String
  profile : String
  created : String
  lastSeen : String
  deriving DecidableEq

/-- The columns of `objects`. -/
structure ObjectRow where
  id : String
  objectType : String
  attributedTo : String
  toNames : String
  ccNames : String
  inReplyTo : Option String
  summary : Option String
  content : String
  published : String
  document : String
  deriving DecidableEq

/-- The rows of the three tables, each filed under its primary key. The columns of `reads`
are those of the record. -/
structure RowTables where
  actors : Dict String ActorRow
  objects : Dict String ObjectRow
  reads : Dict (String × String) ReadRecord

/-- What the adapter takes from the database engine and the interpreter. -/
structure Engine where
  unicode : Unicode
  floats : Floats
  /-- `SQLITE_MAX_VARIABLE_NUMBER`, which no statement of fixed width comes near. -/
  maxVariables : ℕ
  /-- The order in which rows are visited when the statement does not give one. -/
  scan : List String → List ReadRecord → List ReadRecord
  scan_perm : ∀ ids rows, (scan ids rows).Perm rows

namespace ActorType

/-- `ActorType(value)`. -/
def ofValue (u : Unicode) (value : String) : Except Raised ActorType :=
  if value = "Service" then .ok .service
  else if value = "Group" then .ok .group
  else if value = "Person" then .ok .person
  else .error (.valueError (Text.repr u value ++ " is not a valid ActorType"))

@[simp] theorem ofValue_value (u : Unicode) (type : ActorType) :
    ofValue u type.value = .ok type := by
  cases type <;> simp [ofValue, value]

end ActorType

namespace ObjectType

/-- `ObjectType(value)`. -/
def ofValue (u : Unicode) (value : String) : Except Raised ObjectType :=
  if value = "Note" then .ok .note
  else .error (.valueError (Text.repr u value ++ " is not a valid ObjectType"))

@[simp] theorem ofValue_value (u : Unicode) (type : ObjectType) :
    ofValue u type.value = .ok type := by
  cases type
  simp [ofValue, value]

end ObjectType

/-! ## The columns -/

namespace Columns

section
variable (engine : Engine)

/-- `_loads(raw, fallback)`. -/
def loads (raw : String) (fallback : Json) : Except Raised Json :=
  if raw = "" then .ok fallback
  else match Json.loads engine.floats raw with
    | .ok v => .ok v
    | .error .decode => .ok fallback
    | .error (.digits n) => .error (.valueError ("Exceeds the limit (4300 digits) for integer " ++
        "string conversion: value has " ++ toString n ++
        " digits; use sys.set_int_max_str_digits() to increase the limit"))

/-- An element of a column of names. A record holds strings there. -/
def name : Json → Except Raised String
  | .str s => .ok s
  | v => .error (.typeError ("expected a name, found '" ++ v.typeName ++ "'"))

/-- `tuple(_loads(raw, []))`. -/
def names (raw : String) : Except Raised (List String) := do
  let v ← loads engine raw (.arr [])
  let items ← v.iter
  items.mapM name

/-- `_to_actor`. A profile is an object: a column that spells something else makes no record. -/
def toActor (row : ActorRow) : Except Raised ActorRecord := do
  let actorType ← ActorType.ofValue engine.unicode row.actorType
  let profile ← loads engine row.profile (.obj [])
  return { name := row.name, actorType, profile := ← profile.asObject, created := row.created,
           lastSeen := row.lastSeen }

/-- `_to_object`. -/
def toObject (row : ObjectRow) : Except Raised ObjectRecord := do
  let objectType ← ObjectType.ofValue engine.unicode row.objectType
  let to_ ← names engine row.toNames
  let cc ← names engine row.ccNames
  let document ← loads engine row.document (.obj [])
  return { id := row.id, objectType, attributedTo := row.attributedTo, to_, cc,
           inReplyTo := row.inReplyTo, summary := row.summary, content := row.content,
           published := row.published, document := ← document.asObject }

end

/-- The parameters bound for an actor. -/
def ofActor (actor : ActorRecord) : Except Raised ActorRow := do
  let profile ← (Json.ofDict actor.profile).dumps
  return { name := actor.name, actorType := actor.actorType.value, profile,
           created := actor.created, lastSeen := actor.lastSeen }

/-- The parameters bound for an object. -/
def ofObject (obj : ObjectRecord) : Except Raised ObjectRow := do
  let toNames ← (Json.strings obj.to_).dumps
  let ccNames ← (Json.strings obj.cc).dumps
  let document ← (Json.ofDict obj.document).dumps
  return { id := obj.id, objectType := obj.objectType.value, attributedTo := obj.attributedTo,
           toNames, ccNames, inReplyTo := obj.inReplyTo, summary := obj.summary,
           content := obj.content, published := obj.published, document }

end Columns

/-! ## The statements -/

namespace RowTables

def empty : RowTables := ⟨∅, ∅, ∅⟩

/-- `INSERT OR IGNORE INTO actors`. -/
def insertActor (t : RowTables) (row : ActorRow) : ℕ × RowTables :=
  if row.name ∈ t.actors then (0, t)
  else (1, { t with actors := t.actors.set row.name row })

/-- `INSERT INTO actors … ON CONFLICT(name) DO UPDATE SET …`. -/
def upsertActor (t : RowTables) (row : ActorRow) : ℕ × RowTables :=
  let row := match t.actors.lookup row.name with
    | none => row
    | some old =>
      { old with actorType := row.actorType, profile := row.profile, lastSeen := row.lastSeen }
  (1, { t with actors := t.actors.set row.name row })

/-- `INSERT OR REPLACE INTO objects`. -/
def replaceObject (t : RowTables) (row : ObjectRow) : ℕ × RowTables :=
  (1, { t with objects := t.objects.set row.id row })

/-- `DELETE FROM reads WHERE object_id IN (…)`. -/
def deleteReads (t : RowTables) (ids : List String) : ℕ × RowTables :=
  ((t.reads.keys.filter fun key => key.1 ∈ ids).length,
    { t with reads := Dict.filterKeys (fun key => key.1 ∉ ids) t.reads })

/-- `DELETE FROM objects WHERE id IN (…)`. -/
def deleteObjects (t : RowTables) (ids : List String) : ℕ × RowTables :=
  ((t.objects.keys.filter fun id => id ∈ ids).length,
    { t with objects := Dict.filterKeys (fun id => id ∉ ids) t.objects })

/-- `INSERT OR IGNORE INTO reads`. -/
def insertRead (t : RowTables) (read : ReadRecord) : ℕ × RowTables :=
  if (read.objectId, read.reader) ∈ t.reads then (0, t)
  else (1, { t with reads := t.reads.set (read.objectId, read.reader) read })

/-- `SELECT * FROM actors ORDER BY name`. -/
def selectActors (t : RowTables) : List ActorRow :=
  Sorting.sortBy (fun row => Utf8Order.bytes row.name) t.actors.values

/-- The columns `published, id`, as the engine compares them. -/
def ageBytes (row : ObjectRow) : List ℕ ×ₗ List ℕ :=
  toLex (Utf8Order.bytes row.published, Utf8Order.bytes row.id)

/-- `SELECT * FROM objects ORDER BY published ASC, id ASC`. -/
def selectObjects (t : RowTables) : List ObjectRow := Sorting.sortBy ageBytes t.objects.values

/-- `SELECT * FROM reads WHERE object_id IN (…)`. -/
def selectReads (engine : Engine) (t : RowTables) (ids : List String) : List ReadRecord :=
  engine.scan ids (t.reads.values.filter fun read => read.objectId ∈ ids)

end RowTables

/-- What the connection sees, and what a crash would leave. -/
structure RowConnection where
  working : RowTables
  committed : RowTables

namespace RowConnection

def opened (tables : RowTables) : RowConnection := ⟨tables, tables⟩

/-- The number of rows written, and the connection that sees them. -/
def written (conn : RowConnection) (result : ℕ × RowTables) : Except Raised ℕ × RowConnection :=
  (.ok result.1, { conn with working := result.2 })

/-- `sqlite3.OperationalError`. -/
def tooManyVariables : Raised := .foreign "OperationalError: too many SQL variables"

/-- A statement executed with its parameters, and the rows it fetches as records. -/
def handle (engine : Engine) : Fallible sqlite Raised RowConnection
  | .insertActor actor, conn => match Columns.ofActor actor with
    | .ok row => conn.written (conn.working.insertActor row)
    | .error e => (.error e, conn)
  | .upsertActor actor, conn => match Columns.ofActor actor with
    | .ok row => conn.written (conn.working.upsertActor row)
    | .error e => (.error e, conn)
  | .selectActor name, conn =>
    ((conn.working.actors.lookup name).mapM (Columns.toActor engine), conn)
  | .selectActors, conn => (conn.working.selectActors.mapM (Columns.toActor engine), conn)
  | .replaceObject obj, conn => match Columns.ofObject obj with
    | .ok row => conn.written (conn.working.replaceObject row)
    | .error e => (.error e, conn)
  | .selectObject objectId, conn =>
    ((conn.working.objects.lookup objectId).mapM (Columns.toObject engine), conn)
  | .selectObjects, conn => (conn.working.selectObjects.mapM (Columns.toObject engine), conn)
  | .deleteReads ids, conn =>
    if engine.maxVariables < ids.length then (.error tooManyVariables, conn)
    else conn.written (conn.working.deleteReads ids)
  | .deleteObjects ids, conn =>
    if engine.maxVariables < ids.length then (.error tooManyVariables, conn)
    else conn.written (conn.working.deleteObjects ids)
  | .insertRead read, conn => conn.written (conn.working.insertRead read)
  | .selectReads ids, conn =>
    if engine.maxVariables < ids.length then (.error tooManyVariables, conn)
    else (.ok (conn.working.selectReads engine ids), conn)
  | .commit, conn => (.ok (), { conn with committed := conn.working })

end RowConnection

end AgentMailbox
