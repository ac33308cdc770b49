import AgentMailbox.House
import AgentMailbox.Wire

/-!
# The machine interface

HTTP in, records out, records in, HTTP out: every handler checks who is calling, asks
the house, and renders what the house hands over. The decoding of a body into the
typed structs is a parameter, and so are the clock, the minted ids and the random
choices of each request; the raw body is decoded a second time here, for storage.
-/
namespace AgentMailbox

/-- `msgspec.convert(_, _, strict=False)`, for the two structs it is asked for. -/
structure Msgspec where
  convertNote : JsonObject → Except Raised Note
  convertCreate : JsonObject → Except Raised Create

/-- Check that the caller is who the path says, or refuse. -/
def owns (name caller : String) (wire : Renderer) : Except Raised String := do
  let wanted ← wire.nameFrom name
  if wanted ≠ caller then
    throw (.http 403 ("this is " ++ wanted ++ "'s mailbox and you are " ++ caller ++
      " — use /actors/" ++ caller ++ "/… for your own"))
  else return caller

/-- Accept a bare note as well as an activity wrapping one. -/
def decodeActivity (msgspec : Msgspec) (raw : JsonObject) : Except Raised Create :=
  if raw.lookup "type" = some (.str "Create") || "object" ∈ raw then msgspec.convertCreate raw
  else do
    let note ← msgspec.convertNote raw
    return { object := note }

/-- Routes over a house. -/
structure Api (μ : Type) where
  house : House μ
  wire : Renderer
  msgspec : Msgspec

namespace Api

section
variable {μ : Type}

/-! ## Actors -/

/-- `data.get("preferredUsername") or data.get("name")`. -/
def requestedName (data : JsonObject) : Json :=
  let name := (data.lookup "name").getD .null
  match data.lookup "preferredUsername" with
  | some preferred => if preferred.truthy then preferred else name
  | none => name

/-- `house.join(v)` for a value that is not a string: the policies are asked about it,
and then it cannot be normalised. -/
def joinUnnameable (house : House μ) (v : Json) : HouseProgram μ ActorRecord :=
  let text := if v.truthy then v.shown house.mailbox.unicode else "<unnamed>"
  house.policed { action := "join", actor := text } ∅ (fun _ => ∅)
    (throw (.foreign ("AttributeError: '" ++ v.typeName ++ "' object has no attribute 'strip'")))

def join (api : Api μ) (data : JsonObject) (draw : ℕ → Naming.Draw) (now : DateTime) :
    HouseProgram μ Actor := do
  let actor ← match requestedName data with
    | .null => api.house.join none draw now
    | .str requested => api.house.join (some requested) draw now
    | v => joinUnnameable api.house v
  .ofExcept (api.wire.actor actor)

def directory (api : Api μ) : HouseProgram μ (Collection Actor) := do
  let actors ← House.directory
  let rendered ← .ofExcept (actors.mapM api.wire.actor)
  return Renderer.collection rendered

def actor (api : Api μ) (name : String) : HouseProgram μ Actor := do
  let wanted ← .ofExcept (api.wire.nameFrom name)
  match ← House.whois wanted with
  | none =>
    throw (.http 404 ("no actor named " ++ Text.repr api.house.mailbox.unicode name))
  | some record => .ofExcept (api.wire.actor record)

def updateProfile (api : Api μ) (name : String) (data : JsonObject) (caller : String)
    (now : DateTime) : HouseProgram μ Actor := do
  let _ ← .ofExcept (owns name caller api.wire)
  let profile ← .ofExcept ((data.lookup "profile").elim (.ok data) Json.toDict)
  let record ← api.house.updateProfile caller profile now
  .ofExcept (api.wire.actor record)

/-! ## Mail -/

/-- `wire.object_id_from(note.in_reply_to) if note.in_reply_to else None`. -/
def parentOf (api : Api μ) (note : Note) : Option String :=
  (note.inReplyTo.bind Text.orNone).map api.wire.objectIdFrom

/-- A note with a parent and no recipients is a reply; this is the parent. -/
def repliesTo (api : Api μ) (note : Note) : Option String :=
  if note.to_ = [] ∧ note.cc = [] then (api.parentOf note).bind Text.orNone else none

/-- What a note that is not a bare reply asks to be sent. -/
def draftOf (api : Api μ) (raw : JsonObject) (note : Note) : Except Raised Draft := do
  let recipients ← api.wire.recipients note.to_
  let copies ← api.wire.recipients note.cc
  let unknown := unknownProperties raw
  return {
    to_ := .many recipients
    body := note.content
    subject := note.summary
    cc := copies
    inReplyTo := api.parentOf note
    document := if unknown = ∅ then none else some unknown }

def outbox (api : Api μ) (name : String) (body : Json) (caller : String) (stamp : Stamp) :
    HouseProgram μ Note := do
  let _ ← .ofExcept (owns name caller api.wire)
  let raw ← .ofExcept body.asObject
  let activity ← .ofExcept (decodeActivity api.msgspec raw)
  let note := activity.object
  match api.repliesTo note with
  | some parent => do
    let replied ← api.house.reply caller parent note.content note.summary stamp
    .ofExcept (api.wire.note replied)
  | none => do
    let draft ← .ofExcept (api.draftOf raw note)
    let sent ← api.house.send caller draft stamp
    .ofExcept (api.wire.note sent)

def inbox (api : Api μ) (name caller : String) : HouseProgram μ (Collection Note) := do
  let _ ← .ofExcept (owns name caller api.wire)
  let waiting ← api.house.peek caller
  let notes ← .ofExcept (waiting.mapM api.wire.note)
  return Renderer.collection notes

def readObject (api : Api μ) (objectId caller : String) (now : DateTime) :
    HouseProgram μ Note := do
  let got ← api.house.read caller (api.wire.objectIdFrom objectId) now
  .ofExcept (api.wire.note got)

def viewObject (api : Api μ) (objectId caller : String) : HouseProgram μ Note := do
  let got ← api.house.view caller (api.wire.objectIdFrom objectId)
  .ofExcept (api.wire.note got)

def thread (api : Api μ) (objectId caller : String) : HouseProgram μ (Collection Note) := do
  let turns ← api.house.thread caller (api.wire.objectIdFrom objectId)
  if turns = [] then throw (.http 404 "no such thread")
  else do
    let notes ← .ofExcept (turns.mapM api.wire.note)
    return Renderer.collection notes

end

end Api

/-! ## Requests -/

/-- A call of a handler, with what it takes from its surroundings. -/
inductive Request
  | join (data : JsonObject) (draw : ℕ → Naming.Draw) (now : DateTime)
  | directory
  | actor (name : String)
  | updateProfile (name : String) (data : JsonObject) (caller : String) (now : DateTime)
  | outbox (name : String) (body : Json) (caller : String) (stamp : Stamp)
  | inbox (name caller : String)
  | readObject (objectId caller : String) (now : DateTime)
  | viewObject (objectId caller : String)
  | thread (objectId caller : String)

/-- What a handler returns. -/
inductive Response
  | actor (actor : Actor)
  | actors (actors : Collection Actor)
  | note (note : Note)
  | notes (notes : Collection Note)
  deriving DecidableEq

namespace Api

section
variable {μ : Type}

def program (api : Api μ) : Request → HouseProgram μ Response
  | .join data draw now => Response.actor <$> api.join data draw now
  | .directory => Response.actors <$> api.directory
  | .actor name => Response.actor <$> api.actor name
  | .updateProfile name data caller now =>
    Response.actor <$> api.updateProfile name data caller now
  | .outbox name body caller stamp => Response.note <$> api.outbox name body caller stamp
  | .inbox name caller => Response.notes <$> api.inbox name caller
  | .readObject objectId caller now => Response.note <$> api.readObject objectId caller now
  | .viewObject objectId caller => Response.note <$> api.viewObject objectId caller
  | .thread objectId caller => Response.notes <$> api.thread objectId caller

/-- The request, from start to finish. -/
def serve (api : Api μ) (request : Request) (s : HouseState μ) :
    Except Raised Response × HouseState μ := (api.program request).run House.handle s

/-- The state after a sequence of requests. -/
def after (api : Api μ) (s : HouseState μ) (requests : List Request) : HouseState μ :=
  requests.foldl (fun s request => (api.serve request s).2) s

/-- Every request of the run satisfies `p` in the state it arrives in. -/
def Throughout (api : Api μ) (p : HouseState μ → Request → Prop) :
    HouseState μ → List Request → Prop
  | _, [] => True
  | s, request :: rest => p s request ∧ Throughout api p (api.serve request s).2 rest

end

end Api

/-! ## A concrete hub -/

namespace Msgspec

/-- A field of a struct, with its default. -/
def field {α : Type} (document : JsonObject) (key : String) (convert : Json → Except Raised α)
    (default : α) : Except Raised α := (document.lookup key).elim (.ok default) convert

/-- The refusal of a value that is not of the declared type. -/
def expected (kind : String) (v : Json) : Raised :=
  .foreign ("ValidationError: Expected `" ++ kind ++ "`, got `" ++ v.typeName ++ "`")

def text : Json → Except Raised String
  | .str s => .ok s
  | v => .error (expected "str" v)

def texts : Json → Except Raised (List String)
  | .arr items => items.mapM text
  | v => .error (expected "array" v)

def object : Json → Except Raised JsonObject
  | .obj fields => .ok (Dict.ofList fields)
  | v => .error (expected "object" v)

/-- A union with `None`. -/
def optional {α : Type} (convert : Json → Except Raised α) : Json → Except Raised (Option α)
  | .null => .ok none
  | v => some <$> convert v

def noteOf (document : JsonObject) : Except Raised Note := do
  let audience ← field document "audience" (optional texts) none
  return {
    id := ← field document "id" (optional text) none
    type_ := ← field document "type" text "Note"
    attributedTo := ← field document "attributedTo" (optional text) none
    to_ := ← field document "to" texts []
    cc := ← field document "cc" texts []
    summary := ← field document "summary" (optional text) none
    content := ← field document "content" text ""
    inReplyTo := ← field document "inReplyTo" (optional text) none
    published := ← field document "published" (optional text) none
    audience := audience.map (List.map Json.str)
    extra := ← field document "extra" object ∅ }

def createOf (document : JsonObject) : Except Raised Create := do
  let inner ← match document.lookup "object" with
    | some v => object v
    | none => throw (.foreign "ValidationError: Object missing required field `object`")
  return {
    object := ← noteOf inner
    context := ← field document "@context" text as2Context
    type_ := ← field document "type" text "Create"
    actor := ← field document "actor" (optional text) none }

/-- The conversion of documents whose values have the declared types. -/
def plain : Msgspec := ⟨noteOf, createOf⟩

end Msgspec

/-- A mailbox with the default configuration and policies, over ASCII. -/
def asciiApi : Api Observations where
  house := ⟨asciiMailbox, defaultPolicies asciiUnicode⟩
  wire := .ofUrl "http://localhost:8080"
    { unicode := asciiUnicode, nfkc := id, checkBracketed := fun _ => .ok () }
  msgspec := .plain

/-- The house opened for the first time. -/
def firstOpening : HouseState Observations :=
  ((asciiApi.house.open_ fun _ => january 1).run House.handle ⟨.empty, {}⟩).2

/-- Joining under a chosen name on the first day. -/
def Request.joinAs (name : String) : Request :=
  .join (Dict.ofList [("preferredUsername", .str name)]) firstDraw (january 1)

end AgentMailbox
