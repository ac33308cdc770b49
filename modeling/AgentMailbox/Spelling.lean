import AgentMailbox.SqliteRows

/-!
# The rows spell the records

A record whose JSON can be written is read back from its row, whatever text it holds. So a
statement over the rows refuses what cannot be written or bound, and does to the rows what it
does to the records they spell.
-/
namespace AgentMailbox

/-- The profile is a JSON value. -/
def ActorRecord.IsJson (floats : Floats) (actor : ActorRecord) : Prop :=
  (Json.ofDict actor.profile).isValue floats = true

def ActorRecord.Writable (actor : ActorRecord) : Prop :=
  (Json.ofDict actor.profile).isWritable = true

/-- The document is a JSON value. -/
def ObjectRecord.IsJson (floats : Floats) (obj : ObjectRecord) : Prop :=
  (Json.ofDict obj.document).isValue floats = true

def ObjectRecord.Writable (obj : ObjectRecord) : Prop :=
  (Json.ofDict obj.document).isWritable = true

instance (floats : Floats) (actor : ActorRecord) : Decidable (actor.IsJson floats) :=
  inferInstanceAs (Decidable (_ = true))

instance (floats : Floats) (obj : ObjectRecord) : Decidable (obj.IsJson floats) :=
  inferInstanceAs (Decidable (_ = true))

instance (actor : ActorRecord) : Decidable actor.Writable :=
  inferInstanceAs (Decidable (_ = true))

instance (obj : ObjectRecord) : Decidable obj.Writable :=
  inferInstanceAs (Decidable (_ = true))

namespace Json

lemma strings_isValue (floats : Floats) (items : List String) :
    (strings items).isValue floats = true := by
  simp only [strings, isValue]
  induction items with
  | nil => rfl
  | cons s items ih => simpa [areValues, isValue] using ih

lemma strings_isWritable (items : List String) : (strings items).isWritable = true := by
  simp only [strings, isWritable]
  induction items with
  | nil => rfl
  | cons s items ih => simpa [areWritable, isWritable] using ih

lemma isValue_ofDict_iff (floats : Floats) (d : JsonObject) :
    (ofDict d).isValue floats = true ↔ ∀ k v, d.lookup k = some v → v.isValue floats = true := by
  have hfields : ∀ entries : List (Σ _ : String, Json),
      areFieldValues floats (entries.map fun entry => (entry.1, entry.2)) = true ↔
        ∀ entry ∈ entries, entry.2.isValue floats = true := by
    intro entries
    induction entries with
    | nil => simp [areFieldValues]
    | cons entry entries ih => simp [areFieldValues, ih]
  have hnodup : ((d.entries.map fun entry => (entry.1, entry.2)).map Prod.fst).Nodup := by
    rw [List.map_map]
    exact d.nodupKeys
  rw [ofDict, isValue, decide_eq_true hnodup, Bool.true_and, hfields]
  constructor
  · exact fun h k v hv => h ⟨k, v⟩ (AList.mem_lookup_iff.mp hv)
  · exact fun h entry hentry => h entry.1 entry.2 (AList.mem_lookup_iff.mpr hentry)

lemma isWritable_ofDict_iff (d : JsonObject) :
    (ofDict d).isWritable = true ↔ ∀ k v, d.lookup k = some v → v.isWritable = true := by
  have hfields : ∀ entries : List (Σ _ : String, Json),
      areFieldsWritable (entries.map fun entry => (entry.1, entry.2)) = true ↔
        ∀ entry ∈ entries, entry.2.isWritable = true := by
    intro entries
    induction entries with
    | nil => simp [areFieldsWritable]
    | cons entry entries ih => simp [areFieldsWritable, ih]
  rw [ofDict, isWritable, hfields]
  constructor
  · exact fun h k v hv => h ⟨k, v⟩ (AList.mem_lookup_iff.mp hv)
  · exact fun h entry hentry => h entry.1 entry.2 (AList.mem_lookup_iff.mpr hentry)

lemma iter_strings (items : List String) : (strings items).iter = .ok (items.map str) := rfl

lemma dumps_ok {v : Json} (h : v.isWritable = true) : v.dumps = .ok (String.ofList v.write) := by
  rw [dumps, if_pos h]

lemma dumps_error {v : Json} (h : ¬ v.isWritable = true) : ∃ e, v.dumps = .error e := by
  rw [dumps, if_neg h]
  exact ⟨_, rfl⟩

end Json

lemma mapM_map_ok {α β : Type} {f : α → β} {g : β → Except Raised α} {xs : List α}
    (h : ∀ a ∈ xs, g (f a) = .ok a) : (xs.map f).mapM g = .ok xs := by
  induction xs with
  | nil => rfl
  | cons a xs ih =>
    have hrest := ih fun b hb => h b (List.mem_cons_of_mem a hb)
    rw [List.map_cons, List.mapM_cons, h a List.mem_cons_self, hrest]
    rfl

lemma mapM_option_ok {α β : Type} {f : α → β} {g : β → Except Raised α} {o : Option α}
    (h : ∀ a, o = some a → g (f a) = .ok a) : (o.map f).mapM g = .ok o := by
  cases o with
  | none => rfl
  | some a =>
    show some <$> g (f a) = _
    rw [h a rfl]
    rfl

namespace Columns

section
variable (engine : Engine)

/-- The row of an actor whose profile can be written. -/
def spellActor (actor : ActorRecord) : ActorRow where
  name := actor.name
  actorType := actor.actorType.value
  profile := String.ofList (Json.ofDict actor.profile).write
  created := actor.created
  lastSeen := actor.lastSeen

/-- The row of an object whose document can be written. -/
def spellObject (obj : ObjectRecord) : ObjectRow where
  id := obj.id
  objectType := obj.objectType.value
  attributedTo := obj.attributedTo
  toNames := String.ofList (Json.strings obj.to_).write
  ccNames := String.ofList (Json.strings obj.cc).write
  inReplyTo := obj.inReplyTo
  summary := obj.summary
  content := obj.content
  published := obj.published
  document := String.ofList (Json.ofDict obj.document).write

lemma loads_write {v : Json} (hv : v.isValue engine.floats = true) (hwritable : v.isWritable = true)
    (fallback : Json) : loads engine (String.ofList v.write) fallback = .ok v := by
  unfold loads
  rw [if_neg (Json.write_ne_nil hv), Json.loads_dumps hv hwritable]

lemma names_write (items : List String) :
    names engine (String.ofList (Json.strings items).write) = .ok items := by
  have hread := loads_write engine (Json.strings_isValue engine.floats items)
    (Json.strings_isWritable items) (.arr [])
  have hmap : (items.map Json.str).mapM name = .ok items := mapM_map_ok fun _ _ => rfl
  unfold names
  rw [hread, ok_bind, Json.iter_strings, ok_bind, hmap]

theorem toActor_spell {actor : ActorRecord} (hjson : actor.IsJson engine.floats)
    (hwritable : actor.Writable) : toActor engine (spellActor actor) = .ok actor := by
  have hprofile := loads_write engine hjson hwritable (.obj [])
  unfold toActor spellActor
  rw [ActorType.ofValue_value, ok_bind, hprofile, ok_bind, Json.asObject_ofDict, ok_bind]
  rfl

theorem toObject_spell {obj : ObjectRecord} (hjson : obj.IsJson engine.floats)
    (hwritable : obj.Writable) : toObject engine (spellObject obj) = .ok obj := by
  have hdocument := loads_write engine hjson hwritable (.obj [])
  unfold toObject spellObject
  rw [ObjectType.ofValue_value, ok_bind, names_write, ok_bind, names_write, ok_bind, hdocument,
    ok_bind, Json.asObject_ofDict, ok_bind]
  rfl

end

theorem ofActor_ok {actor : ActorRecord} (h : actor.Writable) :
    ofActor actor = .ok (spellActor actor) := by
  unfold ofActor
  rw [Json.dumps_ok h, ok_bind]
  rfl

theorem ofActor_error {actor : ActorRecord} (h : ¬ actor.Writable) :
    ∃ e, ofActor actor = .error e := by
  obtain ⟨e, he⟩ := Json.dumps_error h
  unfold ofActor
  rw [he]
  exact ⟨e, rfl⟩

lemma dumps_strings (items : List String) :
    (Json.strings items).dumps = .ok (String.ofList (Json.strings items).write) :=
  Json.dumps_ok (Json.strings_isWritable items)

theorem ofObject_ok {obj : ObjectRecord} (h : obj.Writable) :
    ofObject obj = .ok (spellObject obj) := by
  unfold ofObject
  rw [dumps_strings, ok_bind, dumps_strings, ok_bind, Json.dumps_ok h, ok_bind]
  rfl

theorem ofObject_error {obj : ObjectRecord} (h : ¬ obj.Writable) :
    ∃ e, ofObject obj = .error e := by
  obtain ⟨e, he⟩ := Json.dumps_error h
  unfold ofObject
  rw [dumps_strings, ok_bind, dumps_strings, ok_bind, he]
  exact ⟨e, rfl⟩

end Columns

/-! ## What the tables hold -/

/-- Sorted by keys that compare alike, rows come in the order of what they spell. -/
lemma sortBy_values {κ ν ν' β γ : Type} [DecidableEq κ] [LinearOrder β] [LinearOrder γ]
    {f : ν → ν'} {d : Dict κ ν} {e : Dict κ ν'} (h : Dict.Maps f d e) {key : ν → β} {key' : ν' → γ}
    (hkey : ∀ a b, key' (f a) ≤ key' (f b) ↔ key a ≤ key b)
    (hapart : Sorting.KeyedApart key d.values) :
    Sorting.sortBy key' e.values = (Sorting.sortBy key d.values).map f := by
  have hrows : Sorting.KeyedApart key' e.values := by
    intro a ha b hb heq
    obtain ⟨x, hx, rfl⟩ := List.mem_map.mp (h.values_perm.mem_iff.mp ha)
    obtain ⟨y, hy, rfl⟩ := List.mem_map.mp (h.values_perm.mem_iff.mp hb)
    have hxy : key x ≤ key y := (hkey x y).mp heq.le
    have hyx : key y ≤ key x := (hkey y x).mp heq.ge
    rw [hapart x hx y hy (le_antisymm hxy hyx)]
  rw [Sorting.sortBy_eq_of_perm key' h.values_perm hrows, Sorting.sortBy_map hkey]

/-- The rows spell the records, each filed under its own key and fit to be written. -/
structure Spells (floats : Floats) (t : Tables) (r : RowTables) : Prop where
  actors : Dict.Maps Columns.spellActor t.actors r.actors
  objects : Dict.Maps Columns.spellObject t.objects r.objects
  reads : Dict.Maps id t.reads r.reads
  actor_key : ∀ name actor, t.actors.lookup name = some actor → actor.name = name
  object_key : ∀ key obj, t.objects.lookup key = some obj → obj.id = key
  actor_json : ∀ name actor, t.actors.lookup name = some actor →
    actor.IsJson floats ∧ actor.Writable
  object_json : ∀ key obj, t.objects.lookup key = some obj → obj.IsJson floats ∧ obj.Writable

/-- Both sides of the connection spell the records. -/
def RowConnection.Spells (floats : Floats) (conn : Connection) (rows : RowConnection) : Prop :=
  AgentMailbox.Spells floats conn.working rows.working ∧
    AgentMailbox.Spells floats conn.committed rows.committed

theorem spells_empty (floats : Floats) : Spells floats .empty .empty where
  actors _ := rfl
  objects _ := rfl
  reads _ := rfl
  actor_key name actor h := by simp [Tables.empty] at h
  object_key key obj h := by simp [Tables.empty] at h
  actor_json name actor h := by simp [Tables.empty] at h
  object_json key obj h := by simp [Tables.empty] at h

namespace Spells

section
variable {floats : Floats} {t : Tables} {r : RowTables} (h : Spells floats t r)
include h

/-- Filing an actor under its name. -/
lemma set_actor {actor : ActorRecord} (hjson : actor.IsJson floats) (hwritable : actor.Writable) :
    Spells floats { t with actors := t.actors.set actor.name actor }
      { r with actors := r.actors.set actor.name (Columns.spellActor actor) } where
  actors := h.actors.set _ _
  objects := h.objects
  reads := h.reads
  actor_key name found hfound := by
    rw [Dict.lookup_set] at hfound
    split_ifs at hfound with hname
    · cases hfound
      exact hname.symm
    · exact h.actor_key name found hfound
  object_key := h.object_key
  actor_json name found hfound := by
    rw [Dict.lookup_set] at hfound
    split_ifs at hfound
    · cases hfound
      exact ⟨hjson, hwritable⟩
    · exact h.actor_json name found hfound
  object_json := h.object_json

lemma insertActor {actor : ActorRecord} (hjson : actor.IsJson floats)
    (hwritable : actor.Writable) :
    (r.insertActor (Columns.spellActor actor)).1 = (t.insertActor actor).1 ∧
      Spells floats (t.insertActor actor).2 (r.insertActor (Columns.spellActor actor)).2 := by
  have hmem : (Columns.spellActor actor).name ∈ r.actors ↔ actor.name ∈ t.actors :=
    h.actors.mem_iff actor.name
  unfold RowTables.insertActor Tables.insertActor
  by_cases htaken : actor.name ∈ t.actors
  · rw [if_pos htaken, if_pos (hmem.mpr htaken)]
    exact ⟨rfl, h⟩
  · rw [if_neg htaken, if_neg fun hin => htaken (hmem.mp hin)]
    exact ⟨rfl, h.set_actor hjson hwritable⟩

lemma upsertActor {actor : ActorRecord} (hjson : actor.IsJson floats)
    (hwritable : actor.Writable) :
    (r.upsertActor (Columns.spellActor actor)).1 = (t.upsertActor actor).1 ∧
      Spells floats (t.upsertActor actor).2 (r.upsertActor (Columns.spellActor actor)).2 := by
  have hlookup : r.actors.lookup (Columns.spellActor actor).name =
      (t.actors.lookup actor.name).map Columns.spellActor := h.actors actor.name
  unfold RowTables.upsertActor Tables.upsertActor
  rw [hlookup]
  cases hold : t.actors.lookup actor.name with
  | none => exact ⟨rfl, h.set_actor hjson hwritable⟩
  | some old =>
    have hname : old.name = actor.name := h.actor_key _ old hold
    have hkept := @set_actor floats t r h { actor with created := old.created } hjson hwritable
    refine ⟨rfl, ?_⟩
    simpa [Columns.spellActor, hname] using hkept

lemma replaceObject {obj : ObjectRecord} (hjson : obj.IsJson floats) (hwritable : obj.Writable) :
    Spells floats (t.replaceObject obj).2 (r.replaceObject (Columns.spellObject obj)).2 where
  actors := h.actors
  objects := h.objects.set _ _
  reads := h.reads
  actor_key := h.actor_key
  object_key key found hfound := by
    simp only [Tables.replaceObject, Dict.lookup_set] at hfound
    split_ifs at hfound with hkey
    · cases hfound
      exact hkey.symm
    · exact h.object_key key found hfound
  actor_json := h.actor_json
  object_json key found hfound := by
    simp only [Tables.replaceObject, Dict.lookup_set] at hfound
    split_ifs at hfound
    · cases hfound
      exact ⟨hjson, hwritable⟩
    · exact h.object_json key found hfound

lemma deleteReads (ids : List String) :
    (r.deleteReads ids).1 = (t.deleteReads ids).1 ∧
      Spells floats (t.deleteReads ids).2 (r.deleteReads ids).2 :=
  ⟨(h.reads.keys_perm.filter _).length_eq, h.actors, h.objects, h.reads.filterKeys _,
    h.actor_key, h.object_key, h.actor_json, h.object_json⟩

lemma deleteObjects (ids : List String) :
    (r.deleteObjects ids).1 = (t.deleteObjects ids).1 ∧
      Spells floats (t.deleteObjects ids).2 (r.deleteObjects ids).2 := by
  have hlookup : ∀ key obj, (t.deleteObjects ids).2.objects.lookup key = some obj →
      t.objects.lookup key = some obj := by
    intro key obj hobj
    simp only [Tables.deleteObjects, Dict.lookup_filterKeys] at hobj
    split_ifs at hobj
    exact hobj
  exact ⟨(h.objects.keys_perm.filter _).length_eq, h.actors, h.objects.filterKeys _, h.reads,
    h.actor_key, fun key obj hobj => h.object_key key obj (hlookup key obj hobj), h.actor_json,
    fun key obj hobj => h.object_json key obj (hlookup key obj hobj)⟩

lemma insertRead (read : ReadRecord) :
    (r.insertRead read).1 = (t.insertRead read).1 ∧
      Spells floats (t.insertRead read).2 (r.insertRead read).2 := by
  have hmem : (read.objectId, read.reader) ∈ r.reads ↔ (read.objectId, read.reader) ∈ t.reads :=
    h.reads.mem_iff _
  unfold RowTables.insertRead Tables.insertRead
  by_cases hthere : (read.objectId, read.reader) ∈ t.reads
  · rw [if_pos hthere, if_pos (hmem.mpr hthere)]
    exact ⟨rfl, h⟩
  · rw [if_neg hthere, if_neg fun hin => hthere (hmem.mp hin)]
    exact ⟨rfl, h.actors, h.objects, h.reads.set _ read, h.actor_key, h.object_key, h.actor_json,
      h.object_json⟩

/-- Actors are listed in order of their names. -/
lemma selectActors :
    r.selectActors = (Sorting.sortBy ActorRecord.name t.actors.values).map Columns.spellActor := by
  apply sortBy_values h.actors
  · exact fun a b => Utf8Order.bytes_le_iff a.name b.name
  · exact fun a ha b hb hname => Dict.eq_of_key h.actor_key ha hb hname

/-- Objects are listed in order of age. -/
lemma selectObjects :
    r.selectObjects =
      (Sorting.sortBy ObjectRecord.age t.objects.values).map Columns.spellObject := by
  apply sortBy_values h.objects
  · intro a b
    show toLex (Utf8Order.bytes a.published, Utf8Order.bytes a.id) ≤
      toLex (Utf8Order.bytes b.published, Utf8Order.bytes b.id) ↔
        toLex (a.published, a.id) ≤ toLex (b.published, b.id)
    rw [Prod.Lex.toLex_le_toLex, Prod.Lex.toLex_le_toLex, Utf8Order.bytes_le_iff,
      Utf8Order.bytes_strictMono.lt_iff_lt, Utf8Order.bytes_strictMono.injective.eq_iff]
  · intro a ha b hb hage
    exact Dict.eq_of_key h.object_key ha hb (congrArg (fun age => (ofLex age).2) hage)

/-- Read records come in some order. -/
lemma selectReads (engine : Engine) (ids : List String) :
    (r.selectReads engine ids).Perm (t.selectReads ids) := by
  have hvalues := h.reads.values_perm
  rw [List.map_id] at hvalues
  exact (engine.scan_perm _ _).trans (hvalues.filter _)

end

section
variable {engine : Engine} {t : Tables} {r : RowTables} (h : Spells engine.floats t r)
include h

lemma toActor {name : String} {actor : ActorRecord} (hactor : t.actors.lookup name = some actor) :
    Columns.toActor engine (Columns.spellActor actor) = .ok actor :=
  Columns.toActor_spell engine (h.actor_json name actor hactor).1 (h.actor_json name actor hactor).2

lemma toObject {key : String} {obj : ObjectRecord} (hobj : t.objects.lookup key = some obj) :
    Columns.toObject engine (Columns.spellObject obj) = .ok obj :=
  Columns.toObject_spell engine (h.object_json key obj hobj).1 (h.object_json key obj hobj).2

lemma readActor (name : String) :
    (r.actors.lookup name).mapM (Columns.toActor engine) = .ok (t.actors.lookup name) := by
  rw [h.actors name]
  exact mapM_option_ok fun actor hactor => h.toActor hactor

lemma readObject (key : String) :
    (r.objects.lookup key).mapM (Columns.toObject engine) = .ok (t.objects.lookup key) := by
  rw [h.objects key]
  exact mapM_option_ok fun obj hobj => h.toObject hobj

lemma readActors : r.selectActors.mapM (Columns.toActor engine) =
    .ok (Sorting.sortBy ActorRecord.name t.actors.values) := by
  rw [h.selectActors]
  apply mapM_map_ok
  intro actor hactor
  obtain ⟨name, hname⟩ := (Dict.mem_values _ _).mp ((Sorting.mem_sortBy _ _ _).mp hactor)
  exact h.toActor hname

lemma readObjects : r.selectObjects.mapM (Columns.toObject engine) =
    .ok (Sorting.sortBy ObjectRecord.age t.objects.values) := by
  rw [h.selectObjects]
  apply mapM_map_ok
  intro obj hobj
  obtain ⟨key, hkey⟩ := (Dict.mem_values _ _).mp ((Sorting.mem_sortBy _ _ _).mp hobj)
  exact h.toObject hkey

end

end Spells

/-! ## The statements, over rows and over records -/

namespace Statement

/-- The records handed over are JSON values. -/
def IsJson (floats : Floats) : Statement → Prop
  | insertActor actor | upsertActor actor => actor.IsJson floats
  | replaceObject obj => obj.IsJson floats
  | selectActor _ | selectActors | selectObject _ | selectObjects | deleteReads _
  | deleteObjects _ | insertRead _ | selectReads _ | commit => True

/-- What cannot be written as text, or has more parameters than are bound. -/
def Refused (engine : Engine) : Statement → Prop
  | insertActor actor | upsertActor actor => ¬ actor.Writable
  | replaceObject obj => ¬ obj.Writable
  | deleteReads ids | deleteObjects ids | selectReads ids => engine.maxVariables < ids.length
  | selectActor _ | selectActors | selectObject _ | selectObjects | insertRead _ | commit => False

/-- The same answer, up to an order that no statement gives. -/
def SameAnswer : (stmt : Statement) → stmt.Answer → stmt.Answer → Prop
  | selectReads _, rows, rows' => rows.Perm rows'
  | _, answer, answer' => answer = answer'

end Statement

/-- The statements over records, as those over rows carry them out. -/
def Connection.specification (engine : Engine) : Specification sqlite Connection where
  proper stmt _ := stmt.IsJson engine.floats
  refused stmt _ := stmt.Refused engine
  answer stmt conn answer := stmt.SameAnswer (handle stmt conn).1 answer
  after stmt conn := (handle stmt conn).2

namespace RowConnection

variable {engine : Engine} {conn : Connection} {rows : RowConnection}

/-- Writing on both sides of the conversions. -/
lemma Spells.written (h : Spells engine.floats conn rows) {result : ℕ × RowTables}
    {expected : ℕ × Tables} (hresult : result.1 = expected.1 ∧
      AgentMailbox.Spells engine.floats expected.2 result.2) :
    ∃ answer rows', rows.written result = (.ok answer, rows') ∧ expected.1 = answer ∧
      Spells engine.floats { conn with working := expected.2 } rows' :=
  ⟨result.1, _, rfl, hresult.1.symm, hresult.2, h.2⟩

/-- Seen through the conversions, the statements over rows are those over records. -/
theorem rows_meet_records (engine : Engine) :
    (Connection.specification engine).Met (handle engine) (Spells engine.floats) := by
  intro stmt conn rows h hjson
  cases stmt with
  | insertActor actor =>
    refine ⟨fun href => ?_, fun href => ?_⟩
    · obtain ⟨e, he⟩ := Columns.ofActor_error href
      exact ⟨e, rows, by simp only [handle, he], h⟩
    · have hwritable : actor.Writable := not_not.mp href
      simp only [handle, Columns.ofActor_ok hwritable]
      exact h.written (h.1.insertActor hjson hwritable)
  | upsertActor actor =>
    refine ⟨fun href => ?_, fun href => ?_⟩
    · obtain ⟨e, he⟩ := Columns.ofActor_error href
      exact ⟨e, rows, by simp only [handle, he], h⟩
    · have hwritable : actor.Writable := not_not.mp href
      simp only [handle, Columns.ofActor_ok hwritable]
      exact h.written (h.1.upsertActor hjson hwritable)
  | replaceObject obj =>
    refine ⟨fun href => ?_, fun href => ?_⟩
    · obtain ⟨e, he⟩ := Columns.ofObject_error href
      exact ⟨e, rows, by simp only [handle, he], h⟩
    · have hwritable : obj.Writable := not_not.mp href
      simp only [handle, Columns.ofObject_ok hwritable]
      exact h.written ⟨rfl, h.1.replaceObject hjson hwritable⟩
  | selectActor name =>
    exact ⟨False.elim, fun _ => ⟨_, rows, congrArg (·, rows) (h.1.readActor name), rfl, h⟩⟩
  | selectActors =>
    exact ⟨False.elim, fun _ => ⟨_, rows, congrArg (·, rows) (h.1.readActors), rfl, h⟩⟩
  | selectObject key =>
    exact ⟨False.elim, fun _ => ⟨_, rows, congrArg (·, rows) (h.1.readObject key), rfl, h⟩⟩
  | selectObjects =>
    exact ⟨False.elim, fun _ => ⟨_, rows, congrArg (·, rows) (h.1.readObjects), rfl, h⟩⟩
  | deleteReads ids =>
    refine ⟨fun href => ⟨_, rows, if_pos href, h⟩, fun href => ?_⟩
    have hrun : handle engine (.deleteReads ids) rows =
        rows.written (rows.working.deleteReads ids) := if_neg href
    rw [hrun]
    exact h.written (h.1.deleteReads ids)
  | deleteObjects ids =>
    refine ⟨fun href => ⟨_, rows, if_pos href, h⟩, fun href => ?_⟩
    have hrun : handle engine (.deleteObjects ids) rows =
        rows.written (rows.working.deleteObjects ids) := if_neg href
    rw [hrun]
    exact h.written (h.1.deleteObjects ids)
  | insertRead read =>
    refine ⟨False.elim, fun _ => ?_⟩
    exact h.written (h.1.insertRead read)
  | selectReads ids =>
    refine ⟨fun href => ⟨_, rows, if_pos href, h⟩, fun href => ?_⟩
    exact ⟨_, rows, if_neg href, (h.1.selectReads engine ids).symm, h⟩
  | commit => exact ⟨False.elim, fun _ => ⟨(), _, rfl, rfl, h.1, h.1⟩⟩

end RowConnection

end AgentMailbox
