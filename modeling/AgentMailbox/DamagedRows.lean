import AgentMailbox.Backends
import AgentMailbox.Rendering

/-!
# Damaged rows

What the listings of the SQLite store make of rows whose JSON columns hold any text at all. Text
that is no JSON reads as an empty value. Text that is JSON goes on to `tuple` or to `dict`, and
these take some values only: for the others the listing raises, whatever its other rows hold.
-/
namespace AgentMailbox

/-! ## Records from any text -/

namespace Json

/-- `dict(mapping or {})`. -/
def frozen (v : Json) : Except Raised JsonObject := if v.truthy then v.toDict else .ok ∅

lemma frozen_asObject {v : Json} {d : JsonObject} (h : v.asObject = .ok d) : v.frozen = .ok d := by
  cases v with
  | obj fields =>
    have hd : Dict.ofList fields = d := by simpa [asObject] using h
    unfold frozen
    cases fields with
    | nil => rw [← hd]; rfl
    | cons field fields => rw [← hd]; rfl
  | _ => simp [asObject] at h

end Json

/-- An `ObjectRecord` as `_to_object` makes it: its names are what the columns list. -/
structure LoadedObject where
  id : String
  objectType : ObjectType
  attributedTo : String
  to_ : List Json
  cc : List Json
  inReplyTo : Option String
  summary : Option String
  content : String
  published : String
  document : JsonObject
  deriving DecidableEq

/-- A record whose names are strings. -/
def ObjectRecord.loaded (obj : ObjectRecord) : LoadedObject where
  id := obj.id
  objectType := obj.objectType
  attributedTo := obj.attributedTo
  to_ := obj.to_.map .str
  cc := obj.cc.map .str
  inReplyTo := obj.inReplyTo
  summary := obj.summary
  content := obj.content
  published := obj.published
  document := obj.document

namespace Columns

section
variable (engine : Engine)

/-- `tuple(_loads(raw, []))`. -/
def tuple (raw : String) : Except Raised (List Json) := do
  let v ← loads engine raw (.arr [])
  v.iter

/-- `_to_actor`. -/
def loadActor (row : ActorRow) : Except Raised ActorRecord := do
  let actorType ← ActorType.ofValue engine.unicode row.actorType
  let profile ← loads engine row.profile (.obj [])
  return { name := row.name, actorType, profile := ← profile.frozen, created := row.created,
           lastSeen := row.lastSeen }

/-- `_to_object`. -/
def loadObject (row : ObjectRow) : Except Raised LoadedObject := do
  let objectType ← ObjectType.ofValue engine.unicode row.objectType
  let to_ ← tuple engine row.toNames
  let cc ← tuple engine row.ccNames
  let document ← loads engine row.document (.obj [])
  return { id := row.id, objectType, attributedTo := row.attributedTo, to_, cc,
           inReplyTo := row.inReplyTo, summary := row.summary, content := row.content,
           published := row.published, document := ← document.frozen }

end

end Columns

namespace RowTables

/-- `SqliteStore.actors()`. -/
def loadActors (engine : Engine) (t : RowTables) : Except Raised (List ActorRecord) :=
  t.selectActors.mapM (Columns.loadActor engine)

/-- `SqliteStore.objects()`. -/
def loadObjects (engine : Engine) (t : RowTables) : Except Raised (List LoadedObject) :=
  t.selectObjects.mapM (Columns.loadObject engine)

end RowTables

/-! ## Where the records are those of the model -/

namespace Columns

section
variable {engine : Engine}

lemma mapM_name_ok {items : List Json} {read : List String} (h : items.mapM name = .ok read) :
    items = read.map .str := by
  induction items generalizing read with
  | nil =>
    cases h
    rfl
  | cons item items ih =>
    rw [List.mapM_cons] at h
    cases item with
    | str s =>
      cases hrest : items.mapM name with
      | error e => simp [name, hrest] at h
      | ok rest =>
        have hread : s :: rest = read := by simpa [name, hrest, pure, Except.pure] using h
        rw [← hread, ih hrest, List.map_cons]
    | _ => simp [name] at h

lemma tuple_of_names {raw : String} {read : List String} (h : names engine raw = .ok read) :
    tuple engine raw = .ok (read.map .str) := by
  obtain ⟨v, hloads, hitems⟩ := bind_eq_ok.mp h
  obtain ⟨items, hiter, hread⟩ := bind_eq_ok.mp hitems
  unfold tuple
  rw [hloads, ok_bind, hiter, mapM_name_ok hread]

/-- What a row has to hold to make a record, and the record it makes. -/
lemma loadActor_eq_ok {row : ActorRow} {actor : ActorRecord} :
    loadActor engine row = .ok actor ↔ ∃ actorType profile,
      ActorType.ofValue engine.unicode row.actorType = .ok actorType ∧
      (loads engine row.profile (.obj []) >>= Json.frozen) = .ok profile ∧
      actor = { name := row.name, actorType, profile, created := row.created,
                lastSeen := row.lastSeen } := by
  simp only [loadActor, bind_eq_ok, except_pure, Except.ok.injEq]
  constructor
  · rintro ⟨actorType, htype, v, hloads, profile, hfrozen, rfl⟩
    exact ⟨actorType, profile, htype, ⟨v, hloads, hfrozen⟩, rfl⟩
  · rintro ⟨actorType, profile, htype, ⟨v, hloads, hfrozen⟩, rfl⟩
    exact ⟨actorType, htype, v, hloads, profile, hfrozen, rfl⟩

lemma loadObject_eq_ok {row : ObjectRow} {obj : LoadedObject} :
    loadObject engine row = .ok obj ↔ ∃ objectType to_ cc document,
      ObjectType.ofValue engine.unicode row.objectType = .ok objectType ∧
      tuple engine row.toNames = .ok to_ ∧ tuple engine row.ccNames = .ok cc ∧
      (loads engine row.document (.obj []) >>= Json.frozen) = .ok document ∧
      obj = { id := row.id, objectType, attributedTo := row.attributedTo, to_, cc,
              inReplyTo := row.inReplyTo, summary := row.summary, content := row.content,
              published := row.published, document } := by
  simp only [loadObject, bind_eq_ok, except_pure, Except.ok.injEq]
  constructor
  · rintro ⟨objectType, htype, to_, hto, cc, hcc, v, hloads, document, hfrozen, rfl⟩
    exact ⟨objectType, to_, cc, document, htype, hto, hcc, ⟨v, hloads, hfrozen⟩, rfl⟩
  · rintro ⟨objectType, to_, cc, document, htype, hto, hcc, ⟨v, hloads, hfrozen⟩, rfl⟩
    exact ⟨objectType, htype, to_, hto, cc, hcc, v, hloads, document, hfrozen, rfl⟩

theorem loadActor_of_toActor {row : ActorRow} {actor : ActorRecord}
    (h : toActor engine row = .ok actor) : loadActor engine row = .ok actor := by
  simp only [toActor, bind_eq_ok, except_pure, Except.ok.injEq] at h
  obtain ⟨actorType, htype, v, hloads, profile, hobject, rfl⟩ := h
  have hprofile := bind_eq_ok.mpr ⟨v, hloads, Json.frozen_asObject hobject⟩
  exact loadActor_eq_ok.mpr ⟨actorType, profile, htype, hprofile, rfl⟩

theorem loadObject_of_toObject {row : ObjectRow} {obj : ObjectRecord}
    (h : toObject engine row = .ok obj) : loadObject engine row = .ok obj.loaded := by
  simp only [toObject, bind_eq_ok, except_pure, Except.ok.injEq] at h
  obtain ⟨objectType, htype, to_, hto, cc, hcc, v, hloads, document, hobject, rfl⟩ := h
  have hdocument := bind_eq_ok.mpr ⟨v, hloads, Json.frozen_asObject hobject⟩
  exact loadObject_eq_ok.mpr ⟨objectType, _, _, document, htype, tuple_of_names hto,
    tuple_of_names hcc, hdocument, rfl⟩

end

end Columns

lemma mapM_ok_imp {ρ τ τ' : Type} {f : ρ → Except Raised τ} {f' : ρ → Except Raised τ'}
    {g : τ → τ'} (h : ∀ a b, f a = .ok b → f' a = .ok (g b)) {rows : List ρ} {made : List τ}
    (hmade : rows.mapM f = .ok made) : rows.mapM f' = .ok (made.map g) := by
  rw [mapM_eq_ok_iff] at hmade ⊢
  exact List.forall₂_map_right_iff.mpr (hmade.imp h)

theorem RowTables.loadActors_of_handle {engine : Engine} {conn : RowConnection}
    {actors : List ActorRecord}
    (h : (RowConnection.handle engine .selectActors conn).1 = .ok actors) :
    conn.working.loadActors engine = .ok actors := by
  have hloaded := mapM_ok_imp (g := id) (fun _ _ => Columns.loadActor_of_toActor) h
  rwa [List.map_id] at hloaded

theorem RowTables.loadObjects_of_handle {engine : Engine} {conn : RowConnection}
    {records : List ObjectRecord}
    (h : (RowConnection.handle engine .selectObjects conn).1 = .ok records) :
    conn.working.loadObjects engine = .ok (records.map ObjectRecord.loaded) :=
  mapM_ok_imp (fun _ _ => Columns.loadObject_of_toObject) h

/-! ## Which rows make a record -/

namespace Columns

section
variable {engine : Engine}

end

end Columns

/-! ## One damaged row -/

/-- A listing made after one row was damaged, against the listing made before: it does not
raise, and its records are those of before but for the one of the damaged row. -/
def Spares {τ : Type} (key : τ → String) (id : String) (before after : Except Raised (List τ)) :
    Prop :=
  ∃ made, after = .ok made ∧ ∀ kept, before = .ok kept →
    (made.filter fun record => key record ≠ id) = kept.filter fun record => key record ≠ id

section
variable {ρ τ : Type} {load : ρ → Except Raised τ} {key : τ → String} {rowKey : ρ → String}

end

namespace RowTables

section
variable (engine : Engine)

end

/-- An actor and two messages, as the store writes them. -/
def twoNotes : RowTables :=
  let alice : ActorRow :=
    { name := "alice", actorType := "Service", profile := "\x7b\x7d", created := "2026-01-01",
      lastSeen := "" }
  let note (id : String) : ObjectRow :=
    { id, objectType := "Note", attributedTo := "alice", toNames := "[\"bob\"]", ccNames := "[]",
      inReplyTo := none, summary := none, content := "hello", published := "2026-01-02",
      document := "\x7b\x7d" }
  ((empty.insertActor alice).2.replaceObject (note "m1")).2.replaceObject (note "m2") |>.2

end RowTables

end AgentMailbox
