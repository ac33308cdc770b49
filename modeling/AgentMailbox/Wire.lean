import AgentMailbox.Records
import AgentMailbox.Url

/-!
# The wire

ActivityStreams documents, and the one place that maps them to records. A stored
message is rendered with its unmodelled properties and its audience put back, so what
a sender's document carried under `audience` decides whether it can be rendered.
-/
namespace AgentMailbox

/-- `AS2_CONTEXT`. -/
def as2Context : String := "https://www.w3.org/ns/activitystreams"

/-- `MODELLED`. -/
def modelled : List String :=
  ["@context", "id", "type", "attributedTo", "actor", "object", "to", "cc", "summary",
    "content", "inReplyTo", "published"]

/-- A message, as ActivityStreams describes one. The elements of `audience` are strings
in a note that was decoded; rendering puts there whatever iteration gives. -/
structure Note where
  id : Option String := none
  type_ : String := "Note"
  attributedTo : Option String := none
  to_ : List String := []
  cc : List String := []
  summary : Option String := none
  content : String := ""
  inReplyTo : Option String := none
  published : Option String := none
  audience : Option (List Json) := none
  extra : JsonObject := ∅
  deriving DecidableEq

/-- The activity that wraps a new note. -/
structure Create where
  object : Note
  context : String := as2Context
  type_ : String := "Create"
  actor : Option String := none
  deriving DecidableEq

/-- An actor document. -/
structure Actor where
  id : String
  preferredUsername : String
  context : String := as2Context
  type_ : String := "Service"
  summary : Option String := none
  profile : JsonObject := ∅
  inbox : String := ""
  outbox : String := ""
  deriving DecidableEq

/-- A page of items. -/
structure Collection (α : Type) where
  items : List α
  context : String := as2Context
  type_ : String := "OrderedCollection"
  totalItems : ℕ := 0
  deriving DecidableEq

/-- Maps between records and the wire for one hub. -/
structure Renderer where
  base : String
  rules : UrlRules

namespace Renderer

/-- `Renderer(public_url)`. -/
def ofUrl (publicUrl : String) (rules : UrlRules) : Renderer :=
  ⟨Text.rstripChar '/' publicUrl, rules⟩

def actorUri (wire : Renderer) (name : String) : String := wire.base ++ "/actors/" ++ name

def objectUri (wire : Renderer) (objectId : String) : String :=
  wire.base ++ "/objects/" ++ objectId

/-- Accept a bare name, or one of our own actor URIs; another host's URI stays foreign. -/
def nameFrom (wire : Renderer) (value : String) : Except Raised String :=
  let text := Text.strip value
  let start := wire.base ++ "/actors/"
  if Text.startsWith text start then .ok (Text.stripChar '/' (Text.drop start.length text))
  else if Text.isIn "://" text then do
    let parsed ← Url.urlparse wire.rules text
    let leaf := String.ofList (Url.leaf (Text.rstripChar '/' parsed.path).toList)
    let host := (Text.partition ':' parsed.netloc).1
    return leaf ++ "@" ++ (if host = "" then "elsewhere" else host)
  else .ok text

def objectIdFrom (wire : Renderer) (value : String) : String :=
  let text := Text.strip value
  let start := wire.base ++ "/objects/"
  if Text.startsWith text start then Text.stripChar '/' (Text.drop start.length text) else text

/-! ## Records to the wire -/

/-- `list(record.document.get("audience", ()))`. -/
def audience (record : ObjectRecord) : Except Raised (List Json) :=
  match record.document.lookup "audience" with
  | none => .ok []
  | some v => v.iter

/-- Render a stored message. -/
def note (wire : Renderer) (record : ObjectRecord) : Except Raised Note := do
  let extras := record.document.filterKeys (· ≠ "audience")
  let audience ← audience record
  return {
    id := some (wire.objectUri record.id)
    attributedTo := some (wire.actorUri record.attributedTo)
    to_ := record.to_.map wire.actorUri
    cc := record.cc.map wire.actorUri
    summary := record.summary
    content := record.content
    inReplyTo := (record.inReplyTo.bind Text.orNone).map wire.objectUri
    published := Text.orNone record.published
    audience := if audience = [] then none else some audience
    extra := extras }

/-- `str(record.profile.get("purpose") or "") or None`. -/
def purpose (wire : Renderer) (record : ActorRecord) : Except Raised (Option String) := do
  match (record.profile.lookup "purpose").filter Json.truthy with
  | none => return none
  | some v => return Text.orNone (← v.toStr wire.rules.unicode)

def actor (wire : Renderer) (record : ActorRecord) : Except Raised Actor := do
  let uri := wire.actorUri record.name
  let purpose ← wire.purpose record
  return {
    id := uri
    preferredUsername := record.name
    type_ := record.actorType.value
    summary := purpose
    profile := record.profile
    inbox := uri ++ "/inbox"
    outbox := uri ++ "/outbox" }

def collection {α : Type} (items : List α) : Collection α :=
  { items, totalItems := items.length }

/-! ## The wire to arguments -/

def recipients (wire : Renderer) (values : List String) : Except Raised (List String) :=
  values.mapM wire.nameFrom

end Renderer

/-- Everything in an inbound document that we do not model: on the activity, and on
the object it wraps. -/
def unknownProperties (document : JsonObject) : JsonObject :=
  let found := document.filterKeys (· ∉ modelled)
  match document.lookup "object" with
  | some (.obj inner) => found.update ((Dict.ofList inner).filterKeys (· ∉ modelled))
  | _ => found

/-! ## Which messages can be rendered -/

/-- A message can be rendered exactly when what its document carries under `audience`,
if anything, can be iterated over. -/
theorem Renderer.note_ok_iff (wire : Renderer) (record : ObjectRecord) :
    (∃ note, wire.note record = .ok note) ↔
      ∀ v, record.document.lookup "audience" = some v → v.iterable = true := by
  unfold note audience
  cases hdocument : record.document.lookup "audience" with
  | none => simp
  | some v =>
    have hv := v.iter_ok_iff
    cases hiter : v.iter with
    | error e => simpa [hiter] using hv
    | ok items => simpa [hiter] using hv

/-- What a rendering holds. -/
theorem Renderer.note_ok {wire : Renderer} {record : ObjectRecord} {rendered : Note}
    (h : wire.note record = .ok rendered) :
    ∃ items, audience record = .ok items ∧ rendered =
      { id := some (wire.objectUri record.id)
        attributedTo := some (wire.actorUri record.attributedTo)
        to_ := record.to_.map wire.actorUri
        cc := record.cc.map wire.actorUri
        summary := record.summary
        content := record.content
        inReplyTo := (record.inReplyTo.bind Text.orNone).map wire.objectUri
        published := Text.orNone record.published
        audience := if items = [] then none else some items
        extra := record.document.filterKeys (· ≠ "audience") } := by
  unfold note at h
  cases haudience : audience record with
  | error e => simp [haudience] at h
  | ok items =>
    simp only [haudience, ok_bind, except_pure, Except.ok.injEq] at h
    exact ⟨items, rfl, h.symm⟩

/-- The audience a posted document brings along: the wrapped object's, or else its own. -/
def postedAudience (document : JsonObject) : Option Json :=
  match document.lookup "object" with
  | some (.obj inner) => ((Dict.ofList inner).lookup "audience").or (document.lookup "audience")
  | _ => document.lookup "audience"

theorem lookup_unknownProperties (document : JsonObject) :
    (unknownProperties document).lookup "audience" = postedAudience document := by
  have hfilter : ∀ d : JsonObject,
      (d.filterKeys (· ∉ modelled)).lookup "audience" = d.lookup "audience" := fun d => by
    rw [Dict.lookup_filterKeys]
    exact if_pos (by decide)
  unfold unknownProperties postedAudience
  split
  · rw [Dict.lookup_update, hfilter, hfilter]
  · exact hfilter document

end AgentMailbox
