import AgentMailbox.Library.Grouping
import AgentMailbox.Old.Moving

/-!
# What the older hub shows without consuming

The count of what waits, whole mailboxes, conversations, and the flow of mail between agents.
Where the source leaves the order of equals to the database, they stand in the order in which
they first occur.
-/
namespace AgentMailbox.Old

/-- A message of a thread, and whether it was read. -/
structure ThreadTurn where
  message : Message
  readAt : Option String
  mine : Bool
  deriving DecidableEq

/-- A thread that an agent is a party to. -/
structure ThreadSummary where
  thread : String
  subject : Option String
  counterparts : List String
  turns : ℕ
  lastAt : String
  lastFrom : String
  awaitingThem : Bool
  deriving DecidableEq

/-- What one address has sent to another. -/
structure FlowEdge where
  frm : String
  to_ : String
  count : ℕ
  last : String
  deriving DecidableEq

structure FlowGraph where
  edges : List FlowEdge
  nodes : List String
  online : List String
  broadcastCount : ℕ
  deriving DecidableEq

/-- `xs[:limit]`. -/
def sliceTo {α : Type} (limit : ℤ) (xs : List α) : List α :=
  if limit < 0 then xs.take (xs.length - limit.natAbs) else xs.take limit.toNat

/-- `created >= ?`, if there is a cutoff. -/
def MessageRow.inWindow (since : Option String) (row : MessageRow) : Bool :=
  since.all fun cutoff => cutoff ≤ row.created.isoformat

/-- Aimed at a named agent of a named project. -/
def MessageRow.isDirect (row : MessageRow) : Bool := row.toProject.isSome && row.toAgent.isSome

namespace Tables

/-- `MIN(acked_at)`: when a message was first consumed by anybody. -/
def firstRead (t : Tables) (id : String) : Option String :=
  ((t.reads.rows.filter fun read => read.messageId = id).map
    fun read => read.ackedAt.isoformat).min?

end Tables

namespace Hub

variable (hub : Hub)

/-! ## Mailboxes -/

/-- How many messages are waiting, and who they are from, those who sent most first. -/
def unreadCount (project agent : String) (role : Option String) (t : Tables) :
    Except Failure (ℕ × List String) := do
  let reader ← hub.reader project agent role
  let senders := Sorting.sortBy (fun group => OrderDual.toDual group.2.length)
    (Grouping.groups MessageRow.from_ (t.messages.rows.filter (t.waits reader)))
  return (Grouping.total (senders.map fun group => group.2.length), senders.map Prod.fst)

/-- Everything that is routed to an agent, newest first, and whether it is unread. -/
def browse (project agent : String) (role : Option String) (t : Tables) :
    Except Failure (List (Message × Bool)) := do
  let reader ← hub.reader project agent role
  return (newestFirst (t.messages.rows.filter fun row => row.routesTo reader)).map
    fun row => (row.toMessage, !t.hasRead reader.me row.id)

/-! ## Threads -/

/-- `_read_state`: when each of some messages was first consumed. The statement binds one
parameter for each of them. -/
def readState (messageIds : List String) (t : Tables) :
    Except Failure (String → Option String) :=
  if hub.maxVariables < messageIds.length then
    .error (.operationalError "too many SQL variables")
  else .ok fun id => if id ∈ messageIds then t.firstRead id else none

/-- `row["thread"] or row["id"]`. -/
def threadOf (row : MessageRow) : String := (row.thread.bind Text.orNone).getD row.id

/-- The other addresses on some turns. -/
def counterparts (me : String) (turns : List MessageRow) : List String :=
  Grouping.firsts ((turns.flatMap fun row => [row.from_, row.to_]).filter (· ≠ me))

/-- What is said about a thread; a thread has a turn at least. -/
def summary (readState : String → Option String) (me threadId : String)
    (turns : List MessageRow) : Option ThreadSummary :=
  turns.getLast?.map fun last => {
    thread := threadId
    subject := turns.findSome? fun row => row.subject.bind Text.orNone
    counterparts := counterparts me turns
    turns := turns.length
    lastAt := last.created.isoformat
    lastFrom := last.from_
    awaitingThem := last.from_ = me && ((readState last.id).bind Text.orNone).isNone }

/-- Threads an agent is a party to, those with the latest turn first. -/
def listThreads (project agent : String) (limit : ℤ) (role : Option String) (t : Tables) :
    Except Failure (List ThreadSummary) := do
  let reader ← hub.reader project agent role
  let rows := oldestFirst (t.messages.rows.filter fun row => row.isParty reader)
  let readState ← hub.readState (rows.map MessageRow.id) t
  let summaries := (Grouping.groups threadOf rows).filterMap fun group =>
    summary readState reader.me group.1 group.2
  return sliceTo limit (Sorting.sortBy (fun summary => OrderDual.toDual summary.lastAt) summaries)

/-- The turns of a thread that an agent is a party to; nothing, if there are none. -/
def readThread (project agent threadId : String) (role : Option String) (t : Tables) :
    Except Failure (Option (List ThreadTurn)) := do
  let reader ← hub.reader project agent role
  let rows := oldestFirst (t.messages.rows.filter fun row =>
    row.thread = some threadId && row.isParty reader)
  if rows.isEmpty then return none
  else do
    let readState ← hub.readState (rows.map MessageRow.id) t
    return some (rows.map fun row =>
      ⟨row.toMessage, readState row.id, row.from_ = reader.me⟩)

/-! ## The flow of mail -/

/-- `MAX(created)`. -/
def latest (rows : List MessageRow) : String :=
  ((rows.map fun row => row.created.isoformat).max?).getD ""

/-- The edges of the graph: how much direct mail goes from where to where. -/
def flowEdges (since : Option String) (t : Tables) : List FlowEdge :=
  Sorting.sortBy (fun edge => OrderDual.toDual edge.count)
    ((Grouping.groups (fun row => (row.from_, row.to_))
      (t.messages.rows.filter fun row => row.isDirect && row.inWindow since)).map
        fun group => ⟨group.1.1, group.1.2, group.2.length, latest group.2⟩)

def flowGraph (since : Option String) (now : DateTime) (t : Tables) :
    Except Failure FlowGraph := do
  let edges := flowEdges since t
  let broadcastCount := (t.messages.rows.filter fun row =>
    !row.isDirect && row.inWindow since).length
  let nodes := Grouping.firsts (edges.flatMap fun edge => [edge.frm, edge.to_])
  let agents ← hub.listAgents none false now t
  -- of several entries with one address, the last one counts
  let online := fun address => ((agents.filter fun info => info.address = address).getLast?).any
    AgentInfo.online
  return { edges := edges
           nodes := nodes
           online := nodes.filter online
           broadcastCount := broadcastCount }

/-- Mail to a named agent from one address to another, newest first. -/
def messagesBetween (frm to_ : String) (since : Option String) (t : Tables) : List Message :=
  (newestFirst (t.messages.rows.filter fun row =>
    row.toAgent.isSome && row.from_ = frm && row.to_ = to_ && row.inWindow since)).map
      MessageRow.toMessage

end Hub

end AgentMailbox.Old
