import AgentMailbox.Records
import AgentMailbox.Library.Sorting
import AgentMailbox.Library.ParentPointers
import Mathlib.Data.String.Basic

/-!
# The messaging rules

Pure functions from records to decisions. `all_actors` and `memberships` travel
together through every rule; they are one `Context` here, built from the directory.
-/
namespace AgentMailbox

/-- `EVERYONE`: the reserved audience meaning every actor on this mailbox. -/
def everyone : String := "everyone"

/-! ## Membership -/

/-- `profile.get("groups", ()) or ()`, iterated over and written as strings. -/
def declaredGroups (u : Unicode) (profile : JsonObject) : Except Raised (List String) :=
  match profile.lookup "groups" with
  | none => .ok []
  | some v =>
    if v.truthy then
      match v.iter with
      | .ok items => items.mapM (Json.toStr u)
      | .error e => .error e
    else .ok []

/-- `members.setdefault(group, set()).add(name)`. -/
def addMember (members : Dict String (Finset String)) (group name : String) :
    Dict String (Finset String) :=
  members.set group (insert name ((members.lookup group).getD ∅))

/-- One turn of the loop over the actors. -/
def addActor (u : Unicode) (members : Dict String (Finset String)) (actor : ActorRecord) :
    Except Raised (Dict String (Finset String)) :=
  let members := if actor.isGroup then members.setDefault actor.name ∅ else members
  match declaredGroups u actor.profile with
  | .ok groups => .ok (groups.foldl (fun acc group => addMember acc group actor.name) members)
  | .error e => .error e

/-- Group name to member names, derived from profiles. -/
def groupMemberships (u : Unicode) (actors : List ActorRecord) :
    Except Raised (Dict String (Finset String)) :=
  actors.foldlM (addActor u) ∅

/-- Who exists and which groups they are in: the inputs every rule needs. -/
structure Context where
  allActors : List String
  memberships : Dict String (Finset String)
  deriving DecidableEq

/-- What one addressed name expands to. -/
def expand (ctx : Context) (name : String) : Finset String :=
  if name = everyone then ctx.allActors.toFinset
  else match ctx.memberships.lookup name with
    | some members => members
    | none => if name ∈ ctx.allActors then {name} else ∅

/-- Expand addressed names into the actors that receive a copy. -/
def resolveAudience (ctx : Context) (names : List String) : Finset String :=
  names.foldl (fun resolved name => resolved ∪ expand ctx name) ∅

/-! ## Delivery -/

/-- Who receives a copy: everyone addressed, except its sender. -/
def recipientsOf (ctx : Context) (obj : ObjectRecord) : Finset String :=
  resolveAudience ctx (Sorting.sorted obj.audience) \ {obj.attributedTo}

def deliversTo (ctx : Context) (obj : ObjectRecord) (reader : String) : Bool :=
  reader ∈ recipientsOf ctx obj

/-- Whether `actor` sent `obj` or received it. -/
def isPartyTo (ctx : Context) (obj : ObjectRecord) (actor : String) : Bool :=
  obj.attributedTo = actor || deliversTo ctx obj actor

/-- What is waiting for `reader`. -/
def unread (ctx : Context) (objects : List ObjectRecord) (reader : String)
    (readObjectIds : Finset String) : List ObjectRecord :=
  objects.filter fun obj => obj.id ∉ readObjectIds && deliversTo ctx obj reader

/-! ## Threading -/

/-- `{obj.id: obj for obj in objects}`. -/
def byId (objects : List ObjectRecord) : Dict String ObjectRecord :=
  Dict.ofList (objects.map fun obj => (obj.id, obj))

/-- The parent that the walk moves to, if any: one that is itself in the collection. -/
def parentIn (index : Dict String ObjectRecord) (current : String) : Option String :=
  match index.lookup current with
  | none => none
  | some obj => match obj.inReplyTo with
    | none => none
    | some parent => if parent ∈ index then some parent else none

/-- Follow `inReplyTo` up to the conversation's first message. Each turn of the
loop either stops or passes one more stored message, which bounds the turns. -/
def threadRoot (objects : List ObjectRecord) (objectId : String) : String :=
  ParentPointers.walk (parentIn (byId objects)) (objects.length + 1) [] objectId

/-- Every message in the conversation rooted at `rootId`. -/
def threadMembers (objects : List ObjectRecord) (rootId : String) : List ObjectRecord :=
  objects.filter fun obj => threadRoot objects obj.id = rootId

/-- The turns of a thread that `viewer` is party to, never the whole thread. -/
def visibleTurns (ctx : Context) (objects : List ObjectRecord) (rootId viewer : String) :
    List ObjectRecord :=
  (threadMembers objects rootId).filter fun obj => isPartyTo ctx obj viewer

/-- Whether `sender` may reply to `parentId`. -/
def mayAttachTo (ctx : Context) (objects : List ObjectRecord) (sender : String)
    (parentId : Option String) : Bool :=
  match parentId with
  | none => true
  | some id => match objects.find? (fun obj => obj.id = id) with
    | none => false
    | some parent => isPartyTo ctx parent sender

/-! ## Expiry -/

/-- The most recent activity of each conversation. -/
def latestActivity (objects : List ObjectRecord) : Dict String String :=
  Dict.largest (fun obj => threadRoot objects obj.id) ObjectRecord.published "" objects

/-- Objects to delete: every message of every fully idle conversation. -/
def expiredObjectIds (objects : List ObjectRecord) (cutoff : String) : Finset String :=
  let latest := latestActivity objects
  let dead := (latest.entries.filter (fun entry => entry.2 < cutoff)).map Sigma.fst
  ((objects.filter fun obj => threadRoot objects obj.id ∈ dead).map ObjectRecord.id).toFinset

end AgentMailbox
