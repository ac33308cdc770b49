import AgentMailbox.Instants
import AgentMailbox.Library.Sorting
import AgentMailbox.Library.Table
import AgentMailbox.Old.AddressLaws

/-!
# The tables of the older hub

Messages, who has consumed which of them, the directory, and where renamed agents have gone.
Times are kept as the readings that are written down as text; they are compared as text.
-/
namespace AgentMailbox

namespace DateTime

lemma next_day_bounds {t : DateTime} (h : t.day < daysInMonth t.year t.month) :
    1 ≤ t.day + 1 ∧ t.day + 1 ≤ daysInMonth t.year t.month := ⟨by omega, h⟩

lemma next_month_bounds {t : DateTime} (h : t.month < 12) : 1 ≤ t.month + 1 ∧ t.month + 1 ≤ 12 :=
  ⟨by omega, h⟩

lemma next_year_bounds {t : DateTime} (h : t.year < 9999) : 1 ≤ t.year + 1 ∧ t.year + 1 ≤ 9999 :=
  ⟨by omega, h⟩

lemma first_month_bounds : 1 ≤ 1 ∧ 1 ≤ 12 := ⟨le_rfl, by omega⟩

lemma first_day_bounds (t : DateTime) : 1 ≤ 1 ∧ 1 ≤ daysInMonth t.year (t.month + 1) :=
  ⟨le_rfl, daysInMonth_pos _ _⟩

lemma new_year_bounds (t : DateTime) : 1 ≤ 1 ∧ 1 ≤ daysInMonth (t.year + 1) 1 :=
  ⟨le_rfl, daysInMonth_pos _ _⟩

/-- The same time on the day after, if there is one. -/
def nextDay (t : DateTime) : Option DateTime :=
  if hday : t.day < daysInMonth t.year t.month then
    some { t with
      day := t.day + 1
      day_bounds := next_day_bounds hday }
  else if hmonth : t.month < 12 then
    some { t with
      month := t.month + 1
      day := 1
      month_bounds := next_month_bounds hmonth
      day_bounds := first_day_bounds t }
  else if hyear : t.year < 9999 then
    some { t with
      year := t.year + 1
      month := 1
      day := 1
      year_bounds := next_year_bounds hyear
      month_bounds := first_month_bounds
      day_bounds := new_year_bounds t }
  else none

/-- `t + timedelta(days=days)`, for a number of days that is not negative. -/
def plusDays : ℕ → DateTime → Option DateTime
  | 0, t => some t
  | days + 1, t => t.nextDay.bind (plusDays days)

/-- `t + timedelta(days=days)`, for a number of days that is not negative, whatever its size. -/
def daysAfter (days : ℤ) (t : DateTime) : Except Raised DateTime :=
  match timedeltaDays days with
  | .error e => .error e
  | .ok delta =>
    match t.plusDays delta.toNat with
    | none => .error (.overflowError "date value out of range")
    | some later => .ok later

lemma daysAfter_ok {days : ℤ} {t later : DateTime} (h : t.daysAfter days = .ok later) :
    t.plusDays days.toNat = some later := by
  unfold daysAfter at h
  cases hdelta : timedeltaDays days with
  | error e => simp [hdelta] at h
  | ok delta =>
    rw [hdelta, timedeltaDays_ok hdelta] at h
    cases hlater : t.plusDays days.toNat with
    | none => simp [hlater] at h
    | some found =>
      simp only [hlater, Except.ok.injEq] at h
      rw [h]

end DateTime

namespace Old

/-- Why a message was sent. -/
inductive Intent
  | message | reply | ack | actioned
  deriving DecidableEq, Repr

/-- A message. One that is built without a thread threads on its own id. -/
structure Message where
  id : String
  from_ : String
  to_ : String
  thread : String
  intent : Intent := .message
  subject : Option String := none
  body : String
  created : DateTime
  reach : Option String := none
  forwardedTo : Option String := none
  deriving DecidableEq

/-- A row of `messages`. -/
structure MessageRow where
  id : String
  from_ : String
  to_ : String
  kind : String
  toProject : Option String
  toAgent : Option String
  toRole : Option String
  thread : Option String
  intent : Intent
  subject : Option String
  body : String
  created : DateTime
  deriving DecidableEq

/-- A row of `broadcast_reads`. -/
structure ReadRow where
  messageId : String
  reader : String
  ackedAt : DateTime
  deriving DecidableEq

/-- What an agent tells others about itself. -/
structure AgentProfile where
  model : Option String := none
  status : String := "available"
  offers : List String := []
  needs : List String := []
  workingDir : Option String := none
  hostname : Option String := none
  platform : Option String := none
  ide : Option String := none
  openToHelp : Option Bool := none
  objective : Option String := none
  charterSummary : Option String := none
  human : Option String := none
  deriving DecidableEq

/-- A row of `agents`; the empty role is that of an agent without one. -/
structure AgentRow where
  project : String
  agent : String
  role : String
  firstSeen : DateTime
  lastSeen : DateTime
  profile : AgentProfile := {}
  deriving DecidableEq

/-- A row of `forwards`. -/
structure ForwardRow where
  oldAddress : String
  newAddress : String
  createdAt : DateTime
  expiresAt : DateTime
  deriving DecidableEq

def ReadRow.key (row : ReadRow) : String × String := (row.messageId, row.reader)

def AgentRow.key (row : AgentRow) : String × String × String := (row.project, row.agent, row.role)

structure Tables where
  messages : Table MessageRow.id
  reads : Table ReadRow.key
  agents : Table AgentRow.key
  forwards : Table ForwardRow.oldAddress
  /-- `hub_meta`, of which this is the one key. -/
  initializedAt : Option DateTime

/-- The tables of a new file. -/
def Tables.empty : Tables := ⟨.empty, .empty, .empty, .empty, none⟩

/-- The configuration, the size of a message as JSON, and how many parameters SQLite binds in
one statement. -/
structure Hub where
  unicode : Unicode
  ttlDays : ℤ := 14
  maxMessageBytes : ℤ := 1048576
  onlineSeconds : ℤ := 300
  staleDays : ℤ := 7
  renameGraceDays : ℤ := 30
  jsonBytes : Message → ℕ
  maxVariables : ℕ := 32766

/-- The size of a message whose text needs no escapes. -/
def plainJsonBytes (message : Message) : ℕ :=
  let quoted := fun text : String => text.utf8ByteSize + 2
  let orNull := fun text : Option String => (text.map quoted).getD 4
  let intent := match message.intent with
    | .message => 7 | .reply => 5 | .ack => 3 | .actioned => 8
  96 + quoted message.id + quoted message.from_ + quoted message.to_ + quoted message.thread +
    (intent + 2) + orNull message.subject + quoted message.body +
    (quoted message.created.isoformat - 5) + orNull message.reach + orNull message.forwardedTo

/-- A hub with the default configuration, over ASCII. -/
def plainHub : Hub := { unicode := asciiUnicode, jsonBytes := plainJsonBytes }

/-! ## Reading rows -/

/-- `_reach`: how widely a message was addressed. -/
def MessageRow.reach (row : MessageRow) : String :=
  if row.toAgent.isSome then "direct"
  else if row.toProject.isSome then "project"
  else "broadcast"

/-- `_row_to_message`. -/
def MessageRow.toMessage (row : MessageRow) : Message where
  id := row.id
  from_ := row.from_
  to_ := row.to_
  thread := row.thread.getD row.id
  intent := row.intent
  subject := row.subject
  body := row.body
  created := row.created
  reach := some row.reach

/-- What the statements about one agent's mail are given. -/
structure Reader where
  proj : String
  agent : String
  role : String
  me : String
  deriving DecidableEq

/-- `_ROUTES_TO`: every position matches the reader's value or is open. -/
def MessageRow.routesTo (row : MessageRow) (reader : Reader) : Bool :=
  (row.toProject = none || row.toProject = some reader.proj) &&
    (row.toAgent = none || row.toAgent = some reader.agent) &&
    (row.toRole = none || row.toRole = some reader.role)

/-- `_NOT_MY_OWN_FANOUT`. -/
def MessageRow.notMyOwnFanout (row : MessageRow) (reader : Reader) : Bool :=
  !(row.kind = "fanout" && row.from_ = reader.me)

/-- `_party_clause`: sent by the reader, or routed to it. -/
def MessageRow.isParty (row : MessageRow) (reader : Reader) : Bool :=
  row.from_ = reader.me || row.routesTo reader

/-- `ORDER BY created ASC`; rows of the same time stay in the order of insertion. -/
def oldestFirst (rows : List MessageRow) : List MessageRow :=
  Sorting.sortBy (fun row => row.created.isoformat) rows

/-- `ORDER BY created DESC`. -/
def newestFirst (rows : List MessageRow) : List MessageRow :=
  Sorting.sortBy (fun row => OrderDual.toDual row.created.isoformat) rows

namespace Tables

/-- `SELECT message_id FROM broadcast_reads WHERE reader = …`. -/
def hasRead (t : Tables) (me id : String) : Bool :=
  t.reads.rows.any fun row => row.reader = me && row.messageId = id

/-- What waits for a reader. -/
def waits (t : Tables) (reader : Reader) (row : MessageRow) : Bool :=
  row.routesTo reader && row.notMyOwnFanout reader && !t.hasRead reader.me row.id

/-- `SELECT new_address FROM forwards WHERE old_address = …`. -/
def forwardOf (t : Tables) (address : String) : Option String :=
  (t.forwards.find? address).map ForwardRow.newAddress

/-- Where an address now delivers, and whether the forward has expired. -/
def resolveForward (t : Tables) (address : String) (now : DateTime) : Option (String × Bool) :=
  (t.forwards.find? address).map fun row =>
    (row.newAddress, decide (row.expiresAt.isoformat ≤ now.isoformat))

end Tables

/-! ## The directory -/

/-- A directory entry as it is reported. -/
structure AgentInfo where
  project : String
  agent : String
  address : String
  role : Option String
  firstSeen : DateTime
  lastSeen : DateTime
  online : Bool
  stale : Bool
  profile : AgentProfile
  deriving DecidableEq

/-- The time since an entry was last seen, in microseconds. -/
def AgentRow.idle (row : AgentRow) (now : DateTime) : ℤ := now.instant - row.lastSeen.instant

namespace Hub

variable (hub : Hub)

def reader (project agent : String) (role : Option String) : Except Failure Reader := do
  let me ← formatAddress hub.unicode project agent role
  return ⟨project, agent, role.getD "", me⟩

def isOnline (row : AgentRow) (now : DateTime) : Bool :=
  row.idle now ≤ hub.onlineSeconds * 1000000

def isStale (row : AgentRow) (now : DateTime) : Bool :=
  0 < hub.staleDays && hub.staleDays * 86400 * 1000000 < row.idle now

/-- `_row_to_agent_info`. -/
def agentInfo (row : AgentRow) (now : DateTime) : Except Failure AgentInfo := do
  let role := Text.orNone row.role
  let address ← formatAddress hub.unicode row.project row.agent role
  return {
    project := row.project
    agent := row.agent
    address := address
    role := role
    firstSeen := row.firstSeen
    lastSeen := row.lastSeen
    online := hub.isOnline row now
    stale := hub.isStale row now
    profile := row.profile }

/-- `ORDER BY last_seen DESC`. -/
def lastSeenFirst (rows : List AgentRow) : List AgentRow :=
  Sorting.sortBy (fun row => OrderDual.toDual row.lastSeen.isoformat) rows

/-- The entry asked about: the one with that role, or the one seen last of those with any. -/
def entryOf (t : Tables) (project agent : String) : Option String → Option AgentRow
  | none => (lastSeenFirst
      (t.agents.rows.filter fun row => row.project = project && row.agent = agent)).head?
  | some role => t.agents.find? (project, agent, role)

def whois (project agent : String) (role : Option String) (now : DateTime) (t : Tables) :
    Except Failure (Option AgentInfo) :=
  match entryOf t project agent role with
  | none => .ok none
  | some row => (hub.agentInfo row now).map some

def listAgents (project : Option String) (includeStale : Bool) (now : DateTime) (t : Tables) :
    Except Failure (List AgentInfo) := do
  let rows := match project with
    | some project => t.agents.rows.filter fun row => row.project = project
    | none => t.agents.rows
  let agents ← (lastSeenFirst rows).mapM fun row => hub.agentInfo row now
  return if includeStale then agents else agents.filter fun info => !info.stale

end Hub

end Old

end AgentMailbox
