import AgentMailbox.Json
import AgentMailbox.Clock
import Mathlib.Data.Finset.Basic

/-!
# What the store persists

Plain records: typed fields for everything that is routed on, and the document.
-/
namespace AgentMailbox

/-- `ActorType`. -/
inductive ActorType
  | service | group | person
  deriving DecidableEq, Repr

/-- The vocabulary's word for the type. -/
def ActorType.value : ActorType → String
  | service => "Service"
  | group => "Group"
  | person => "Person"

/-- `ObjectType`. -/
inductive ObjectType
  | note
  deriving DecidableEq, Repr

def ObjectType.value : ObjectType → String
  | note => "Note"

structure ActorRecord where
  name : String
  actorType : ActorType := .service
  profile : JsonObject := ∅
  created : String := ""
  lastSeen : String := ""
  deriving DecidableEq

def ActorRecord.isGroup (actor : ActorRecord) : Bool := actor.actorType = .group

/-- One message. `to_` and `cc` hold names, of individual actors or of groups. -/
structure ObjectRecord where
  id : String
  attributedTo : String
  to_ : List String := []
  cc : List String := []
  inReplyTo : Option String := none
  summary : Option String := none
  content : String := ""
  published : String := ""
  objectType : ObjectType := .note
  document : JsonObject := ∅
  deriving DecidableEq

/-- Everyone this message names, however it names them. -/
def ObjectRecord.audience (obj : ObjectRecord) : Finset String :=
  obj.to_.toFinset ∪ obj.cc.toFinset

/-- That `reader` consumed `objectId` at `at_`. -/
structure ReadRecord where
  objectId : String
  reader : String
  at_ : String
  deriving DecidableEq

end AgentMailbox
