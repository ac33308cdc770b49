import AgentMailbox.Library.Crashes
import AgentMailbox.Old.Tables

/-!
# The file of the older hub

A file says which version of the schema it has, and is brought up to the current one when it
is opened. The statements that do so are executed one at a time: those that write rows begin a
transaction, which ends at the next commit; the others, outside of a transaction, take effect
at once. A process that dies leaves what was committed.
-/
namespace AgentMailbox.Old

/-! ## The shapes the tables have had -/

/-- A row of `messages` in the first version: addresses have two parts, and an empty project
stands for any. -/
structure TwoPartRow where
  id : String
  from_ : String
  to_ : String
  kind : String
  toProject : String
  toAgent : Option String
  thread : Option String
  intent : Intent
  subject : String
  body : String
  created : DateTime
  ackedAt : Option DateTime
  deriving DecidableEq

/-- A row of `messages` in the second version: the columns of today, and the time at which the
message was claimed. -/
structure ClaimedRow extends MessageRow where
  ackedAt : Option DateTime
  deriving DecidableEq

/-- A row of `agents` in the first version. -/
structure DirectoryRow where
  project : String
  agent : String
  firstSeen : DateTime
  lastSeen : DateTime
  profile : AgentProfile
  deriving DecidableEq

def ClaimedRow.key (row : ClaimedRow) : String := row.id

def DirectoryRow.key (row : DirectoryRow) : String × String := (row.project, row.agent)

inductive StoredMessages
  | twoPart (rows : Table TwoPartRow.id)
  | claimed (rows : Table ClaimedRow.key)
  | current (rows : Table MessageRow.id)

inductive StoredAgents
  | twoPart (rows : Table DirectoryRow.key)
  | current (rows : Table AgentRow.key)

/-- `PRAGMA table_info`. -/
def StoredMessages.columns : StoredMessages → List String
  | .twoPart _ => ["id", "from_addr", "to_addr", "kind", "to_project", "to_agent", "thread",
      "intent", "subject", "body", "created", "acked_at"]
  | .claimed _ => ["id", "from_addr", "to_addr", "kind", "to_project", "to_agent", "to_role",
      "thread", "intent", "subject", "body", "created", "acked_at"]
  | .current _ => ["id", "from_addr", "to_addr", "kind", "to_project", "to_agent", "to_role",
      "thread", "intent", "subject", "body", "created"]

def StoredAgents.columns : StoredAgents → List String
  | .twoPart _ => ["project", "agent", "first_seen", "last_seen", "profile"]
  | .current _ => ["project", "agent", "role", "first_seen", "last_seen", "profile"]

/-- A file. A table that has not been created is absent; `messages_v2` and `agents_v2` are the
tables into which the rows of the first version are copied. -/
structure StoreFile where
  userVersion : ℤ := 0
  messages : Option StoredMessages := none
  messagesV2 : Option (Table ClaimedRow.key) := none
  agents : Option StoredAgents := none
  agentsV2 : Option (Table AgentRow.key) := none
  reads : Option (Table ReadRow.key) := none
  forwards : Option (Table ForwardRow.oldAddress) := none
  /-- `hub_meta`, of which `initialized_at` is the one key. -/
  hubMeta : Option (Option DateTime) := none

/-! ## Statements -/

/-- The tables whose shape is asked about. -/
inductive TableName
  | messages | agents

inductive FileStatement
  | hasTable (name : TableName)
  | columns (name : TableName)
  | userVersion
  | setUserVersion (version : ℤ)
  | createMessagesV2
  | copyMessages
  | dropMessages
  | renameMessagesV2
  | createAgentsV2
  | copyAgents
  | dropAgents
  | renameAgentsV2
  | dropRouteIndex
  | copyAcked
  | countUnattributable
  | setFanout
  | dropAckedAt
  | createMessages
  | createRouteIndex
  | createReads
  | createAgents
  | createHubMeta
  | createForwards
  | stampInitialized (now : DateTime)
  | commit

abbrev FileStatement.Answer : FileStatement → Type
  | hasTable _ => Bool
  | columns _ => List String
  | userVersion => ℤ
  | countUnattributable => ℕ
  | dropAckedAt => Bool
  | _ => Unit

abbrev fileSql : Signature := ⟨FileStatement, FileStatement.Answer⟩

/-- The five kinds of the first version, as two modes of delivery. -/
def deliveryMode (kind : String) : String :=
  if kind = "broadcast" ∨ kind = "public" then "fanout" else "claim"

/-- The row that `SELECT … FROM messages` makes of a row of the first version. -/
def TwoPartRow.widen (row : TwoPartRow) : ClaimedRow where
  id := row.id
  from_ := row.from_
  to_ := row.to_
  kind := deliveryMode row.kind
  toProject := Text.orNone row.toProject
  toAgent := row.toAgent
  toRole := none
  thread := row.thread
  intent := row.intent
  subject := some row.subject
  body := row.body
  created := row.created
  ackedAt := row.ackedAt

/-- The row that `SELECT … FROM agents` makes of a row of the first version. -/
def DirectoryRow.widen (row : DirectoryRow) : AgentRow :=
  ⟨row.project, row.agent, "", row.firstSeen, row.lastSeen, row.profile⟩

/-! `UPDATE messages SET kind = 'fanout'`, for a row of each shape. -/

def TwoPartRow.fanned (row : TwoPartRow) : TwoPartRow := { row with kind := "fanout" }

def ClaimedRow.fanned (row : ClaimedRow) : ClaimedRow := { row with kind := "fanout" }

def MessageRow.fanned (row : MessageRow) : MessageRow := { row with kind := "fanout" }

lemma TwoPartRow.id_fanned (row : TwoPartRow) : row.fanned.id = row.id := rfl

lemma ClaimedRow.key_fanned (row : ClaimedRow) : row.fanned.key = row.key := rfl

lemma MessageRow.id_fanned (row : MessageRow) : row.fanned.id = row.id := rfl

/-- The record of consumption that a claimed message of a named recipient becomes. -/
def ClaimedRow.acknowledgement (row : ClaimedRow) : Option ReadRow :=
  if row.toAgent.isSome then row.ackedAt.map fun ackedAt => ⟨row.id, row.to_, ackedAt⟩ else none

/-- Consumed, and nobody knows by whom. -/
def ClaimedRow.unattributable (row : ClaimedRow) : Bool := row.ackedAt.isSome && row.toAgent.isNone

lemma unique_withoutAckedAt (t : Table ClaimedRow.key) :
    ((t.rows.map ClaimedRow.toMessageRow).map MessageRow.id).Nodup := by
  rw [List.map_map]
  exact t.unique

/-- A table of the second version without the column `acked_at`. -/
def withoutAckedAt (t : Table ClaimedRow.key) : Table MessageRow.id :=
  ⟨t.rows.map ClaimedRow.toMessageRow, unique_withoutAckedAt t⟩

namespace StoreFile

variable (f : StoreFile)

def hasTable : TableName → Bool
  | .messages => f.messages.isSome
  | .agents => f.agents.isSome

def columns : TableName → List String
  | .messages => (f.messages.map StoredMessages.columns).getD []
  | .agents => (f.agents.map StoredAgents.columns).getD []

/-- `INSERT OR IGNORE INTO messages_v2 … SELECT … FROM messages`, from the first version. -/
def copyMessages : Except Failure StoreFile :=
  match f.messages, f.messagesV2 with
  | some (.twoPart rows), some copied =>
    .ok { f with messagesV2 := some (copied.insertAll (rows.rows.map TwoPartRow.widen)) }
  | _, _ => .error (.operationalError "no such table: messages")

/-- `ALTER TABLE messages_v2 RENAME TO messages`. -/
def renameMessagesV2 : Except Failure StoreFile :=
  match f.messages, f.messagesV2 with
  | none, some copied => .ok { f with messages := some (.claimed copied), messagesV2 := none }
  | _, _ => .error (.operationalError "no such table: messages_v2")

/-- `INSERT OR IGNORE INTO agents_v2 … SELECT … FROM agents`, from the first version. -/
def copyAgents : Except Failure StoreFile :=
  match f.agents, f.agentsV2 with
  | some (.twoPart rows), some copied =>
    .ok { f with agentsV2 := some (copied.insertAll (rows.rows.map DirectoryRow.widen)) }
  | _, _ => .error (.operationalError "no such table: agents")

/-- `ALTER TABLE agents_v2 RENAME TO agents`. -/
def renameAgentsV2 : Except Failure StoreFile :=
  match f.agents, f.agentsV2 with
  | none, some copied => .ok { f with agents := some (.current copied), agentsV2 := none }
  | _, _ => .error (.operationalError "no such table: agents_v2")

/-- The messages of the first two versions, which may have been claimed. -/
def claims : List ClaimedRow :=
  match f.messages with
  | some (.twoPart rows) => rows.rows.map TwoPartRow.widen
  | some (.claimed rows) => rows.rows
  | _ => []

/-- `INSERT OR IGNORE INTO broadcast_reads … SELECT … FROM messages WHERE …`. -/
def copyAcked : Except Failure StoreFile :=
  match f.messages, f.reads with
  | some (.twoPart _), some reads | some (.claimed _), some reads =>
    .ok { f with reads := some (reads.insertAll (f.claims.filterMap ClaimedRow.acknowledgement)) }
  | some (.current _), some _ => .error (.operationalError "no such column: acked_at")
  | none, some _ => .error (.operationalError "no such table: messages")
  | _, none => .error (.operationalError "no such table: broadcast_reads")

/-- `SELECT COUNT(*) FROM messages WHERE acked_at IS NOT NULL AND to_agent IS NULL`. -/
def countUnattributable : ℕ := f.claims.countP ClaimedRow.unattributable

/-- `UPDATE messages SET kind = 'fanout'`. -/
def setFanout : StoreFile :=
  match f.messages with
  | some (.claimed rows) =>
    { f with messages := some (.claimed (rows.update ClaimedRow.fanned ClaimedRow.key_fanned)) }
  | some (.twoPart rows) =>
    { f with messages := some (.twoPart (rows.update TwoPartRow.fanned TwoPartRow.id_fanned)) }
  | some (.current rows) =>
    { f with messages := some (.current (rows.update MessageRow.fanned MessageRow.id_fanned)) }
  | none => f

/-- `ALTER TABLE messages DROP COLUMN acked_at`, where SQLite can do it. -/
def dropAckedAt (canDrop : Bool) : Bool × StoreFile :=
  match canDrop, f.messages with
  | true, some (.claimed rows) =>
    (true, { f with messages := some (.current (withoutAckedAt rows)) })
  | _, _ => (false, f)

/-- `CREATE INDEX IF NOT EXISTS idx_messages_route ON messages (to_project, to_agent, to_role)`. -/
def createRouteIndex : Except Failure StoreFile :=
  match f.messages with
  | some (.twoPart _) => .error (.operationalError "no such column: to_role")
  | _ => .ok f

end StoreFile

/-! ## The connection -/

/-- What is committed, what has been executed, and whether a transaction is under way. -/
structure FileConnection where
  committed : StoreFile
  working : StoreFile
  inTransaction : Bool

namespace FileConnection

/-- A file that has just been opened. -/
def opened (f : StoreFile) : FileConnection := ⟨f, f, false⟩

variable (conn : FileConnection)

/-- After a statement that writes rows: a transaction is under way. -/
def written (f : StoreFile) : FileConnection := ⟨conn.committed, f, true⟩

/-- After a statement that defines something: outside of a transaction it is committed. -/
def defined (f : StoreFile) : FileConnection :=
  if conn.inTransaction then { conn with working := f } else opened f

/-- A statement that may be refused. -/
def attempt (store : StoreFile → FileConnection) :
    Except Failure StoreFile → Except Failure Unit × FileConnection
  | .ok f => (.ok (), store f)
  | .error e => (.error e, conn)

/-- What each statement answers, and what it does. Whether SQLite can drop a column depends on
its version. -/
def handle (canDrop : Bool) : Fallible fileSql Failure FileConnection
  | .hasTable name, conn => (.ok (conn.working.hasTable name), conn)
  | .columns name, conn => (.ok (conn.working.columns name), conn)
  | .userVersion, conn => (.ok conn.working.userVersion, conn)
  | .countUnattributable, conn => (.ok conn.working.countUnattributable, conn)
  | .setUserVersion version, conn =>
    (.ok (), conn.defined { conn.working with userVersion := version })
  | .createMessagesV2, conn => (.ok (), conn.defined
      { conn.working with messagesV2 := conn.working.messagesV2.or (some .empty) })
  | .copyMessages, conn => conn.attempt conn.written conn.working.copyMessages
  | .dropMessages, conn => (.ok (), conn.defined { conn.working with messages := none })
  | .renameMessagesV2, conn => conn.attempt conn.defined conn.working.renameMessagesV2
  | .createAgentsV2, conn => (.ok (), conn.defined
      { conn.working with agentsV2 := conn.working.agentsV2.or (some .empty) })
  | .copyAgents, conn => conn.attempt conn.written conn.working.copyAgents
  | .dropAgents, conn => (.ok (), conn.defined { conn.working with agents := none })
  | .renameAgentsV2, conn => conn.attempt conn.defined conn.working.renameAgentsV2
  | .dropRouteIndex, conn => (.ok (), conn)
  | .copyAcked, conn => conn.attempt conn.written conn.working.copyAcked
  | .setFanout, conn => (.ok (), conn.written conn.working.setFanout)
  | .dropAckedAt, conn =>
    (.ok (conn.working.dropAckedAt canDrop).1,
      conn.defined (conn.working.dropAckedAt canDrop).2)
  | .createMessages, conn => (.ok (), conn.defined
      { conn.working with messages := conn.working.messages.or (some (.current .empty)) })
  | .createRouteIndex, conn => conn.attempt conn.defined conn.working.createRouteIndex
  | .createReads, conn => (.ok (), conn.defined
      { conn.working with reads := conn.working.reads.or (some .empty) })
  | .createAgents, conn => (.ok (), conn.defined
      { conn.working with agents := conn.working.agents.or (some (.current .empty)) })
  | .createHubMeta, conn => (.ok (), conn.defined
      { conn.working with hubMeta := conn.working.hubMeta.or (some none) })
  | .createForwards, conn => (.ok (), conn.defined
      { conn.working with forwards := conn.working.forwards.or (some .empty) })
  | .stampInitialized now, conn => (.ok (), conn.written
      { conn.working with hubMeta := conn.working.hubMeta.map fun stamp => stamp.or (some now) })
  | .commit, conn => (.ok (), opened conn.working)

end FileConnection

/-! ## Opening a file -/

abbrev FileProgram (α : Type) : Type := Program fileSql Failure α

namespace StoreFile

def execute (statement : FileStatement) : FileProgram statement.Answer :=
  Program.perform (S := fileSql) statement

/-- The table must be rebuilt, not merely widened: its constraints cannot be relaxed. -/
def rebuildMessages : FileProgram Unit := do
  let columns ← execute (.columns .messages)
  if "to_role" ∈ columns then return ()
  else do
    execute .createMessagesV2
    execute .copyMessages
    execute .dropMessages
    execute .renameMessagesV2
    execute .commit

def rebuildAgents : FileProgram Unit := do
  let found ← execute (.hasTable .agents)
  if found then do
    let columns ← execute (.columns .agents)
    if "role" ∈ columns then return ()
    else do
      execute .createAgentsV2
      execute .copyAgents
      execute .dropAgents
      execute .renameAgentsV2
      execute .commit
  else return ()

/-- `_migrate_v1_to_v2`: addresses get a third part. -/
def migrateV1ToV2 : FileProgram Unit := do
  rebuildMessages
  rebuildAgents

/-- `_migrate_v2_to_v3`: one mode of delivery, and one record of who has consumed what. -/
def migrateV2ToV3 : FileProgram Unit := do
  execute .dropRouteIndex
  let columns ← execute (.columns .messages)
  if "acked_at" ∈ columns then do
    execute .copyAcked
    let count ← execute .countUnattributable
    if count ≠ 0 then throw (.unattributable count)
    else do
      execute .setFanout
      let _ ← execute .dropAckedAt
      execute .commit
  else return ()

/-- A step that is only taken where it is owed. -/
def ifOwed (owed : Bool) (step : FileProgram Unit) : FileProgram Unit :=
  if owed then step else pure ()

/-- What a file owes that has been written by some version. -/
def migrateFrom (version : ℤ) : FileProgram Unit :=
  if schemaVersion < version then throw (.schemaTooNew version)
  else do
    ifOwed (version < 2) migrateV1ToV2
    ifOwed (version < 3) migrateV2ToV3
    -- whatever the version was, it is the current one by now
    execute (.setUserVersion schemaVersion)
    execute .commit

/-- A file that predates versioning is of the first version. -/
def versionOf (stamped : ℤ) : ℤ := if stamped = 0 then 1 else stamped

/-- `_migrate`. -/
def migrate : FileProgram Unit := do
  let found ← execute (.hasTable .messages)
  if found then do
    let stamped ← execute .userVersion
    migrateFrom (versionOf stamped)
  else do
    execute (.setUserVersion schemaVersion)
    execute .commit

/-- `executescript(_SCHEMA)`: whatever is missing is created. -/
def createSchema : FileProgram Unit := do
  execute .createMessages
  execute .createRouteIndex
  execute .createReads
  execute .createAgents
  execute .createHubMeta
  execute .createForwards

/-- `connect`, up to the purge. -/
def openFile (now : DateTime) : FileProgram Unit := do
  migrate
  createSchema
  execute (.stampInitialized now)
  execute .commit

end StoreFile

end AgentMailbox.Old
