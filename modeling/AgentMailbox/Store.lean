import AgentMailbox.Records
import AgentMailbox.Library.Program
import AgentMailbox.Library.Sorting
import Mathlib.Data.Prod.Lex

/-!
# The storage port, and the store in memory

The port is ten calls that know nothing about messaging. `InMemoryStore` is the
reference implementation: three dictionaries. That every record is filed under its
own key is part of the type.
-/
namespace AgentMailbox

/-- The methods of `MessageStore`. -/
inductive StoreCall
  | claimName (actor : ActorRecord)
  | getActor (name : String)
  | putActor (actor : ActorRecord)
  | actors
  | addObject (obj : ObjectRecord)
  | getObject (objectId : String)
  | objects
  | removeObjects (objectIds : List String)
  | markRead (read : ReadRecord)
  | readsOf (objectIds : List String)
  deriving DecidableEq

/-- What each method returns. -/
abbrev StoreCall.Answer : StoreCall → Type
  | claimName _ => Bool
  | getActor _ => Option ActorRecord
  | putActor _ => Unit
  | actors => List ActorRecord
  | addObject _ => Unit
  | getObject _ => Option ObjectRecord
  | objects => List ObjectRecord
  | removeObjects _ => ℕ
  | markRead _ => Bool
  | readsOf _ => Dict String (List ReadRecord)

abbrev messageStore : Signature := ⟨StoreCall, StoreCall.Answer⟩

@[ext] structure InMemoryStore where
  actors : Dict String ActorRecord
  objects : Dict String ObjectRecord
  reads : Dict String (Dict String ReadRecord)
  actor_key : ∀ name actor, actors.lookup name = some actor → actor.name = name
  object_key : ∀ id obj, objects.lookup id = some obj → obj.id = id
  read_key : ∀ id readers, reads.lookup id = some readers →
    ∀ reader entry, readers.lookup reader = some entry →
      entry.objectId = id ∧ entry.reader = reader

/-- The order in which objects are listed: `(published, id)`. -/
def ObjectRecord.age (obj : ObjectRecord) : String ×ₗ String := toLex (obj.published, obj.id)

namespace InMemoryStore

def empty : InMemoryStore where
  actors := ∅
  objects := ∅
  reads := ∅
  actor_key := by simp
  object_key := by simp
  read_key := by simp

/-- `self._actors[actor.name] = actor`. -/
def putActor (s : InMemoryStore) (actor : ActorRecord) : InMemoryStore :=
  { s with
    actors := s.actors.set actor.name actor
    actor_key := by
      intro name found h
      rw [Dict.lookup_set] at h
      split_ifs at h with hname
      · cases h; exact hname.symm
      · exact s.actor_key name found h }

def claimName (s : InMemoryStore) (actor : ActorRecord) : Bool × InMemoryStore :=
  if actor.name ∈ s.actors then (false, s) else (true, s.putActor actor)

/-- `self._objects[obj.id] = obj`. -/
def addObject (s : InMemoryStore) (obj : ObjectRecord) : InMemoryStore :=
  { s with
    objects := s.objects.set obj.id obj
    object_key := by
      intro id found h
      rw [Dict.lookup_set] at h
      split_ifs at h with hid
      · cases h; exact hid.symm
      · exact s.object_key id found h }

/-- Every stored object, oldest first. -/
def objectList (s : InMemoryStore) : List ObjectRecord :=
  Sorting.sortBy ObjectRecord.age s.objects.values

/-- `self._objects.pop(id, None)` and `self._reads.pop(id, None)`. -/
def popObject (s : InMemoryStore) (id : String) : InMemoryStore :=
  { s with
    objects := s.objects.erase id
    reads := s.reads.erase id
    object_key := by
      intro id' found h
      rw [Dict.lookup_erase] at h
      split_ifs at h with hid
      exact s.object_key id' found h
    read_key := by
      intro id' readers h
      rw [Dict.lookup_erase] at h
      split_ifs at h with hid
      exact s.read_key id' readers h }

def removeObjects (s : InMemoryStore) : List String → ℕ × InMemoryStore
  | [] => (0, s)
  | id :: ids =>
    let rest := removeObjects (s.popObject id) ids
    ((if id ∈ s.objects then 1 else 0) + rest.1, rest.2)

/-- `readers[read.reader] = read`, where `readers` is the object's own dictionary. -/
def putRead (s : InMemoryStore) (read : ReadRecord) : InMemoryStore :=
  { s with
    reads := s.reads.set read.objectId
      (((s.reads.lookup read.objectId).getD ∅).set read.reader read)
    read_key := by
      intro id readers h reader entry hentry
      rw [Dict.lookup_set] at h
      split_ifs at h with hid
      · cases h
        rw [Dict.lookup_set] at hentry
        split_ifs at hentry with hreader
        · cases hentry; exact ⟨hid.symm, hreader.symm⟩
        · cases hold : s.reads.lookup read.objectId with
          | none => simp [hold] at hentry
          | some old =>
            rw [hold] at hentry
            have := s.read_key _ old hold reader entry hentry
            exact ⟨this.1.trans hid.symm, this.2⟩
      · exact s.read_key id readers h reader entry hentry }

/-- The record of `reader` having consumed `id`. -/
def readBy (s : InMemoryStore) (id reader : String) : Option ReadRecord :=
  (s.reads.lookup id).bind (AList.lookup reader)

def markRead (s : InMemoryStore) (read : ReadRecord) : Bool × InMemoryStore :=
  if (s.readBy read.objectId read.reader).isSome then (false, s) else (true, s.putRead read)

def readsOf (s : InMemoryStore) (ids : List String) : Dict String (List ReadRecord) :=
  Dict.ofList (ids.map fun id => (id, ((s.reads.lookup id).getD ∅).values))

/-- The store's answer to a call, and the store it leaves behind. -/
def handle : Handler messageStore InMemoryStore
  | .claimName actor, s => s.claimName actor
  | .getActor name, s => (s.actors.lookup name, s)
  | .putActor actor, s => ((), s.putActor actor)
  | .actors, s => (s.actors.values, s)
  | .addObject obj, s => ((), s.addObject obj)
  | .getObject id, s => (s.objects.lookup id, s)
  | .objects, s => (s.objectList, s)
  | .removeObjects ids, s => s.removeObjects ids
  | .markRead read, s => s.markRead read
  | .readsOf ids, s => (s.readsOf ids, s)

/-! ## What each write changes -/

section
variable (s : InMemoryStore)

@[simp] theorem putActor_actors (actor : ActorRecord) :
    (s.putActor actor).actors = s.actors.set actor.name actor := rfl
@[simp] theorem putActor_objects (actor : ActorRecord) :
    (s.putActor actor).objects = s.objects := rfl
@[simp] theorem putActor_reads (actor : ActorRecord) :
    (s.putActor actor).reads = s.reads := rfl
@[simp] theorem addObject_actors (obj : ObjectRecord) :
    (s.addObject obj).actors = s.actors := rfl
@[simp] theorem addObject_objects (obj : ObjectRecord) :
    (s.addObject obj).objects = s.objects.set obj.id obj := rfl
@[simp] theorem addObject_reads (obj : ObjectRecord) :
    (s.addObject obj).reads = s.reads := rfl
@[simp] theorem putRead_actors (read : ReadRecord) : (s.putRead read).actors = s.actors := rfl
@[simp] theorem putRead_objects (read : ReadRecord) : (s.putRead read).objects = s.objects := rfl

@[simp] theorem markRead_actors (read : ReadRecord) :
    (s.markRead read).2.actors = s.actors := by
  unfold markRead
  split_ifs <;> rfl

@[simp] theorem markRead_objects (read : ReadRecord) :
    (s.markRead read).2.objects = s.objects := by
  unfold markRead
  split_ifs <;> rfl

@[simp] theorem removeObjects_actors (ids : List String) :
    (s.removeObjects ids).2.actors = s.actors := by
  induction ids generalizing s with
  | nil => rfl
  | cons id ids ih => exact ih (s.popObject id)

theorem lookup_removeObjects (ids : List String) (id : String) :
    (s.removeObjects ids).2.objects.lookup id =
      if id ∈ ids then none else s.objects.lookup id := by
  induction ids generalizing s with
  | nil => simp [removeObjects]
  | cons first ids ih =>
    have hpop : (s.popObject first).objects.lookup id =
        if id = first then none else s.objects.lookup id := Dict.lookup_erase s.objects first id
    simp only [removeObjects, ih, hpop, List.mem_cons]
    by_cases hfirst : id = first <;> simp [hfirst]

theorem lookup_reads_removeObjects (ids : List String) (id : String) :
    (s.removeObjects ids).2.reads.lookup id =
      if id ∈ ids then none else s.reads.lookup id := by
  induction ids generalizing s with
  | nil => simp [removeObjects]
  | cons first ids ih =>
    have hpop : (s.popObject first).reads.lookup id =
        if id = first then none else s.reads.lookup id := Dict.lookup_erase s.reads first id
    simp only [removeObjects, ih, hpop, List.mem_cons]
    by_cases hfirst : id = first <;> simp [hfirst]

theorem mem_removeObjects (ids : List String) (id : String) :
    id ∈ (s.removeObjects ids).2.objects ↔ id ∉ ids ∧ id ∈ s.objects := by
  rw [Dict.mem_iff_lookup, Dict.mem_iff_lookup, lookup_removeObjects]
  split_ifs with hid <;> simp [hid]

/-- The number returned is that of the stored messages that went. -/
theorem removeObjects_keys (ids : List String) :
    (s.removeObjects ids).1 = (s.objects.keys.filter (· ∈ ids)).length := by
  induction ids generalizing s with
  | nil => simp [removeObjects]
  | cons id ids ih =>
    have hkeys : (s.popObject id).objects.keys = s.objects.keys.erase id := AList.keys_erase id _
    have hothers : (s.objects.keys.erase id).filter (· ∈ id :: ids) =
        (s.objects.keys.erase id).filter (· ∈ ids) := by
      apply List.filter_congr
      intro key hkey
      have hne : key ≠ id := ((List.Nodup.mem_erase_iff s.objects.nodupKeys).mp hkey).1
      simp [hne]
    simp only [removeObjects, ih, hkeys, ← hothers]
    by_cases hid : id ∈ s.objects
    · have hperm := (List.perm_cons_erase (AList.mem_keys.mp hid)).filter (· ∈ id :: ids)
      rw [if_pos hid, hperm.length_eq, List.filter_cons_of_pos (by simp), List.length_cons]
      omega
    · rw [if_neg hid, List.erase_of_not_mem fun hin => hid (AList.mem_keys.mpr hin)]
      omega

/-- The number returned counts the ids that were stored. -/
theorem removeObjects_count {ids : List String} (hnodup : ids.Nodup) :
    (s.removeObjects ids).1 = (ids.filter (· ∈ s.objects)).length := by
  induction ids generalizing s with
  | nil => rfl
  | cons id ids ih =>
    obtain ⟨hid, hrest⟩ := List.nodup_cons.mp hnodup
    have hkept : ids.filter (· ∈ (s.popObject id).objects) = ids.filter (· ∈ s.objects) := by
      refine List.filter_congr fun other hother => ?_
      have hne : other ≠ id := fun heq => hid (heq ▸ hother)
      simp [popObject, hne]
    simp only [removeObjects, ih (s.popObject id) hrest, hkept, List.filter_cons, decide_eq_true_eq]
    split_ifs <;> simp [Nat.add_comm]

/-- Marking adds one record, unless this reader has one for the object already. -/
theorem readBy_markRead (read : ReadRecord) (id reader : String) :
    (s.markRead read).2.readBy id reader =
      if id = read.objectId ∧ reader = read.reader then
        some ((s.readBy id reader).getD read) else s.readBy id reader := by
  have hput : (s.putRead read).readBy id reader =
      if id = read.objectId ∧ reader = read.reader then some read else s.readBy id reader := by
    simp only [readBy, putRead, Dict.lookup_set]
    by_cases hid : id = read.objectId
    · subst hid
      rw [if_pos rfl, Option.bind_some, Dict.lookup_set]
      by_cases hreader : reader = read.reader
      · simp [hreader]
      · cases s.reads.lookup read.objectId <;> simp [hreader]
    · simp [hid]
  unfold markRead
  split_ifs with hsome hboth hboth
  · obtain ⟨hid, hreader⟩ := hboth
    subst hid hreader
    obtain ⟨entry, hentry⟩ := Option.isSome_iff_exists.mp hsome
    simp [hentry]
  · rfl
  · obtain ⟨hid, hreader⟩ := hboth
    subst hid hreader
    rw [hput, if_pos ⟨rfl, rfl⟩, Option.not_isSome_iff_eq_none.mp hsome]
    rfl
  · rw [hput, if_neg hboth]

/-- The read records of one object are those its readers made. -/
theorem mem_readers (id : String) (entry : ReadRecord) :
    entry ∈ ((s.reads.lookup id).getD ∅).values ↔ s.readBy id entry.reader = some entry := by
  unfold readBy
  cases hreaders : s.reads.lookup id with
  | none => simp [Dict.values]
  | some readers =>
    rw [Option.getD_some, Option.bind_some, Dict.mem_values]
    constructor
    · rintro ⟨reader, hentry⟩
      rwa [(s.read_key id readers hreaders reader entry hentry).2]
    · exact fun hentry => ⟨entry.reader, hentry⟩

theorem readers_nodup (id : String) : ((s.reads.lookup id).getD ∅).values.Nodup := by
  cases hreaders : s.reads.lookup id with
  | none => simp [Dict.values]
  | some readers =>
    have hkeyed : ∀ reader entry, readers.lookup reader = some entry → entry.reader = reader :=
      fun reader entry hentry => (s.read_key id readers hreaders reader entry hentry).2
    exact Dict.values_nodup hkeyed

/-- A read record is filed under its own object and reader. -/
theorem readBy_key {id reader : String} {entry : ReadRecord}
    (h : s.readBy id reader = some entry) : entry.objectId = id ∧ entry.reader = reader := by
  obtain ⟨readers, hreaders, hentry⟩ := Option.bind_eq_some_iff.mp h
  exact s.read_key id readers hreaders reader entry hentry

/-- The listing holds exactly the stored messages. -/
@[simp] theorem mem_objectList (obj : ObjectRecord) :
    obj ∈ s.objectList ↔ s.objects.lookup obj.id = some obj := by
  rw [objectList, Sorting.mem_sortBy, Dict.mem_values]
  constructor
  · rintro ⟨id, hid⟩
    rwa [s.object_key id obj hid]
  · exact fun h => ⟨obj.id, h⟩

theorem mem_actorList (actor : ActorRecord) :
    actor ∈ s.actors.values ↔ s.actors.lookup actor.name = some actor := by
  rw [Dict.mem_values]
  constructor
  · rintro ⟨name, hname⟩
    rwa [s.actor_key name actor hname]
  · exact fun h => ⟨actor.name, h⟩

/-- The names in the directory are the keys it is filed under. -/
theorem mem_actorNames (name : String) :
    name ∈ s.actors.values.map ActorRecord.name ↔ name ∈ s.actors := by
  rw [Dict.map_values_eq_keys s.actors ActorRecord.name s.actor_key, AList.mem_keys]

/-- Stored messages never tie: their ids differ. -/
theorem age_apart : Sorting.KeyedApart ObjectRecord.age s.objects.values := by
  intro a ha b hb hage
  have hid : a.id = b.id := congrArg (fun key => (ofLex key).2) hage
  exact Dict.eq_of_key s.object_key ha hb hid

/-- No two listed messages bear the same id. -/
theorem objectIds_nodup : (s.objectList.map ObjectRecord.id).Nodup := by
  have hids : (s.objects.values.map ObjectRecord.id).Nodup := by
    rw [Dict.map_values_eq_keys s.objects ObjectRecord.id s.object_key]
    exact s.objects.nodupKeys
  exact (((Sorting.sortBy_perm _ _).map ObjectRecord.id).nodup_iff).mpr hids

theorem objectList_nodup : s.objectList.Nodup := List.Nodup.of_map _ s.objectIds_nodup

/-- The listing is in order of age, without ties. -/
theorem objectList_ordered : s.objectList.Pairwise fun a b => a.age < b.age := by
  have hboth := (Sorting.sortBy_pairwise ObjectRecord.age s.objects.values).and s.objectList_nodup
  refine hboth.imp_of_mem ?_
  intro a b ha hb ⟨hle, hne⟩
  refine lt_of_le_of_ne hle fun hage => hne ?_
  exact s.age_apart a ((Sorting.mem_sortBy _ _ _).mp ha) b ((Sorting.mem_sortBy _ _ _).mp hb) hage

/-- What a filter lists depends only on which stored messages it selects. -/
theorem filter_objectList_eq (t : InMemoryStore) (p q : ObjectRecord → Bool) :
    s.objectList.filter p = t.objectList.filter q ↔ ∀ obj,
      (s.objects.lookup obj.id = some obj ∧ p obj = true ↔
        t.objects.lookup obj.id = some obj ∧ q obj = true) := by
  have hmem : ∀ obj, (obj ∈ s.objectList.filter p ↔ obj ∈ t.objectList.filter q) ↔
      (s.objects.lookup obj.id = some obj ∧ p obj = true ↔
        t.objects.lookup obj.id = some obj ∧ q obj = true) := by
    intro obj
    rw [List.mem_filter, List.mem_filter, mem_objectList, mem_objectList]
  simp only [← hmem]
  constructor
  · intro heq obj
    rw [heq]
  · intro hiff
    refine Sorting.eq_of_mem_iff ObjectRecord.age hiff ?_ (s.objectList_nodup.filter p)
      (t.objectList_nodup.filter q) ((Sorting.sortBy_pairwise _ _).filter p)
      ((Sorting.sortBy_pairwise _ _).filter q)
    intro a ha b hb
    have hvalues : ∀ obj ∈ s.objectList.filter p, obj ∈ s.objects.values := by
      intro obj hobj
      exact (Sorting.mem_sortBy _ _ _).mp (List.mem_of_mem_filter hobj)
    exact s.age_apart a (hvalues a ha) b (hvalues b hb)

end

end InMemoryStore

end AgentMailbox
