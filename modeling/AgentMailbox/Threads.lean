import AgentMailbox.Store
import AgentMailbox.Rules

/-!
# Conversations

The walk of `threadRoot` follows the reply links of the store. Where every parent is
stored and the links form a forest, it leads to the one root of a conversation, and
the conversations are the connected components. What an expiry dooms is a function
of the roots alone.
-/
namespace AgentMailbox

namespace InMemoryStore

/-- The reply link of a stored message. -/
def replyTo (s : InMemoryStore) (id : String) : Option String :=
  (s.objects.lookup id).bind ObjectRecord.inReplyTo

/-- Every reply's parent is stored. -/
def ParentsStored (s : InMemoryStore) : Prop :=
  ∀ id parent, s.replyTo id = some parent → parent ∈ s.objects

/-- Replies to stored messages that lead nowhere in circles. -/
structure Forest (s : InMemoryStore) : Prop where
  parents : s.ParentsStored
  ranked : ParentPointers.Ranked s.replyTo

theorem replyTo_mem {s : InMemoryStore} {id parent : String} (h : s.replyTo id = some parent) :
    id ∈ s.objects := by
  obtain ⟨obj, hobj, _⟩ := Option.bind_eq_some_iff.mp h
  exact (Dict.mem_iff_lookup s.objects id).mpr ⟨obj, hobj⟩

theorem lookup_byId (s : InMemoryStore) (id : String) :
    (byId s.objectList).lookup id = s.objects.lookup id := by
  have hapart : ∀ k v w, (k, v) ∈ s.objectList.map (fun obj => (obj.id, obj)) →
      (k, w) ∈ s.objectList.map (fun obj => (obj.id, obj)) → v = w := by
    intro k v w hv hw
    simp only [List.mem_map, Prod.mk.injEq, mem_objectList] at hv hw
    obtain ⟨_, hv, rfl, rfl⟩ := hv
    obtain ⟨_, hw, hid, rfl⟩ := hw
    rw [hid, hv] at hw
    exact Option.some.inj hw
  ext obj
  rw [byId, Dict.lookup_ofList hapart]
  simp only [List.mem_map, Prod.mk.injEq, mem_objectList]
  constructor
  · rintro ⟨_, hobj, rfl, rfl⟩
    exact hobj
  · intro hobj
    have hid := s.object_key id obj hobj
    exact ⟨obj, by rw [hid, hobj], hid, rfl⟩

/-- The links the walk follows are the reply links. -/
theorem parentIn_byId {s : InMemoryStore} (h : s.ParentsStored) :
    parentIn (byId s.objectList) = s.replyTo := by
  funext id
  have hlookup := s.lookup_byId id
  unfold parentIn replyTo
  rw [hlookup]
  cases hobj : s.objects.lookup id with
  | none => rfl
  | some obj =>
    cases hparent : obj.inReplyTo with
    | none => simp [hparent]
    | some parent =>
      have hmem : parent ∈ s.objects := h id parent (by simp [replyTo, hobj, hparent])
      rw [Dict.mem_iff_lookup, ← lookup_byId, ← Dict.mem_iff_lookup] at hmem
      simp [hparent, hmem]

theorem objectList_length (s : InMemoryStore) :
    s.objectList.length = s.objects.keys.toFinset.card := by
  have hnodup : s.objects.keys.Nodup := s.objects.nodupKeys
  rw [List.toFinset_card_of_nodup hnodup, objectList, (Sorting.sortBy_perm _ _).length_eq]
  simp [Dict.values, AList.keys, List.keys]

lemma replyTo_mem_keys {s : InMemoryStore} (id parent : String) (h : s.replyTo id = some parent) :
    id ∈ s.objects.keys.toFinset := by
  exact List.mem_toFinset.mpr (AList.mem_keys.mp (replyTo_mem h))

/-- In a forest, `threadRoot` is the root. -/
theorem threadRoot_isRoot {s : InMemoryStore} (h : s.Forest) (id : String) :
    ParentPointers.IsRoot s.replyTo id (threadRoot s.objectList id) := by
  unfold threadRoot
  rw [parentIn_byId h.parents]
  refine ParentPointers.walk_isRoot h.ranked _ replyTo_mem_keys _ ?_ id
  rw [objectList_length]
  exact Nat.lt_succ_self _

/-- Two messages are of one conversation exactly when they have the same root. -/
theorem connected_iff_threadRoot {s : InMemoryStore} (h : s.Forest) (x y : String) :
    ParentPointers.Connected s.replyTo x y ↔
      threadRoot s.objectList x = threadRoot s.objectList y :=
  ParentPointers.connected_iff_isRoot (threadRoot_isRoot h x) (threadRoot_isRoot h y)

end InMemoryStore

/-! ## Expiry -/

lemma empty_le (text : String) : "" ≤ text := by
  rw [← not_lt, String.lt_iff_toList_lt]
  exact List.not_lt_nil _

/-- What is expired: the messages in whose conversation nothing reaches the cutoff. -/
theorem mem_expiredObjectIds (objects : List ObjectRecord) (cutoff id : String) :
    id ∈ expiredObjectIds objects cutoff ↔ (∃ obj ∈ objects, obj.id = id) ∧
      ∀ other ∈ objects, threadRoot objects other.id = threadRoot objects id →
        other.published < cutoff := by
  have hdead : ∀ obj ∈ objects,
      threadRoot objects obj.id ∈ ((latestActivity objects).entries.filter
        (fun entry => entry.2 < cutoff)).map Sigma.fst ↔
      ∀ other ∈ objects, threadRoot objects other.id = threadRoot objects obj.id →
        other.published < cutoff := by
    intro obj hobj
    set root := threadRoot objects obj.id with hroot
    have hmem : root ∈ latestActivity objects :=
      (Dict.mem_largest _ _ _ _ _).mpr ⟨obj, hobj, rfl⟩
    obtain ⟨last, hlast⟩ := (Dict.mem_iff_lookup _ _).mp hmem
    have hlisted : root ∈ ((latestActivity objects).entries.filter
        (fun entry => entry.2 < cutoff)).map Sigma.fst ↔ last < cutoff := by
      simp only [List.mem_map, List.mem_filter, decide_eq_true_eq]
      constructor
      · rintro ⟨⟨key, value⟩, ⟨hentry, hlt⟩, rfl⟩
        have hvalue := AList.mem_lookup_iff.mpr hentry
        rw [hlast] at hvalue
        cases hvalue
        exact hlt
      · exact fun hlt => ⟨⟨root, last⟩, ⟨AList.mem_lookup_iff.mp hlast, hlt⟩, rfl⟩
    have hbound : ∀ hbot : "" < cutoff, last < cutoff ↔
        ∀ other ∈ objects, threadRoot objects other.id = root → other.published < cutoff := by
      intro hbot
      have hiff := Dict.largest_lt_iff (fun obj => threadRoot objects obj.id)
        ObjectRecord.published hbot objects root
      change ((latestActivity objects).lookup root).getD "" < cutoff ↔ _ at hiff
      rwa [hlast, Option.getD_some] at hiff
    rw [hlisted]
    constructor
    · intro hlt
      exact (hbound ((empty_le last).trans_lt hlt)).mp hlt
    · intro hall
      exact (hbound ((empty_le _).trans_lt (hall obj hobj rfl))).mpr hall
  unfold expiredObjectIds
  rw [List.mem_toFinset, List.mem_map]
  constructor
  · rintro ⟨obj, hobj, rfl⟩
    obtain ⟨hobj, hroot⟩ := List.mem_filter.mp hobj
    exact ⟨⟨obj, hobj, rfl⟩, (hdead obj hobj).mp (of_decide_eq_true hroot)⟩
  · rintro ⟨⟨obj, hobj, rfl⟩, hall⟩
    exact ⟨obj, List.mem_filter.mpr ⟨hobj, decide_eq_true ((hdead obj hobj).mpr hall)⟩, rfl⟩

namespace InMemoryStore

/-- A conversation is doomed whole: a reply goes exactly when its parent goes. -/
theorem expired_replyTo {s : InMemoryStore} (h : s.Forest) {id parent cutoff : String}
    (hlink : s.replyTo id = some parent) :
    id ∈ expiredObjectIds s.objectList cutoff ↔
      parent ∈ expiredObjectIds s.objectList cutoff := by
  have hroot : threadRoot s.objectList id = threadRoot s.objectList parent :=
    (connected_iff_threadRoot h id parent).mp (.rel _ _ hlink)
  have hstored : ∀ x, (∃ obj ∈ s.objectList, obj.id = x) ↔ x ∈ s.objects := by
    intro x
    rw [Dict.mem_iff_lookup]
    constructor
    · rintro ⟨obj, hobj, rfl⟩
      exact ⟨obj, (s.mem_objectList obj).mp hobj⟩
    · rintro ⟨obj, hobj⟩
      have hid := s.object_key x obj hobj
      exact ⟨obj, (s.mem_objectList obj).mpr (by rw [hid, hobj]), hid⟩
  rw [mem_expiredObjectIds, mem_expiredObjectIds, hroot, hstored, hstored]
  simp [replyTo_mem hlink, h.parents id parent hlink]

theorem replyTo_addObject (s : InMemoryStore) (obj : ObjectRecord) :
    (s.addObject obj).replyTo =
      fun id => if id = obj.id then obj.inReplyTo else s.replyTo id := by
  funext id
  unfold replyTo
  rw [addObject_objects, Dict.lookup_set]
  split_ifs <;> rfl

/-- Filing a new message that replies to a stored one, or to none. -/
theorem Forest.addObject {s : InMemoryStore} (h : s.Forest) {obj : ObjectRecord}
    (hfresh : obj.id ∉ s.objects) (hparent : ∀ p, obj.inReplyTo = some p → p ∈ s.objects) :
    (s.addObject obj).Forest := by
  have hlinks := s.replyTo_addObject obj
  refine ⟨?_, ?_⟩
  · intro id parent hlink
    have hstored : parent ∈ s.objects := by
      rw [hlinks] at hlink
      by_cases hid : id = obj.id
      · exact hparent parent (by simpa [hid] using hlink)
      · exact h.parents id parent (by simpa [hid] using hlink)
    rw [addObject_objects, Dict.mem_set]
    exact Or.inr hstored
  · rw [hlinks]
    refine h.ranked.insert ?_ _ ?_
    · intro x hx
      exact hfresh (h.parents x obj.id hx)
    · intro heq
      exact hfresh (hparent obj.id heq)

/-- Filing a new message leaves every other message's root where it was. -/
theorem threadRoot_addObject_of_ne {s : InMemoryStore} (h : s.Forest) {obj : ObjectRecord}
    (hfresh : obj.id ∉ s.objects) (hparent : ∀ p, obj.inReplyTo = some p → p ∈ s.objects)
    {id : String} (hid : id ≠ obj.id) :
    threadRoot (s.addObject obj).objectList id = threadRoot s.objectList id := by
  have hroot := (threadRoot_isRoot h id).insert
    (fun x hx => hfresh (h.parents x obj.id hx)) hid obj.inReplyTo
  rw [← replyTo_addObject] at hroot
  exact ParentPointers.isRoot_unique (threadRoot_isRoot (h.addObject hfresh hparent) id) hroot

/-- A new reply has the root of the message it replies to. -/
theorem threadRoot_addObject_self {s : InMemoryStore} (h : s.Forest) {obj : ObjectRecord}
    (hfresh : obj.id ∉ s.objects) (hparent : ∀ p, obj.inReplyTo = some p → p ∈ s.objects)
    {parent : String} (hreply : obj.inReplyTo = some parent) :
    threadRoot (s.addObject obj).objectList obj.id = threadRoot s.objectList parent := by
  have hne : parent ≠ obj.id := fun heq => hfresh (heq ▸ hparent parent hreply)
  have hlink : (s.addObject obj).replyTo obj.id = some parent := by
    simp [replyTo_addObject, hreply]
  have hforest := h.addObject hfresh hparent
  rw [← threadRoot_addObject_of_ne h hfresh hparent hne]
  exact (connected_iff_threadRoot hforest obj.id parent).mp (.rel _ _ hlink)

/-- Removing a set of messages that is closed under replies. -/
theorem Forest.removeObjects {s : InMemoryStore} (h : s.Forest) {ids : List String}
    (hclosed : ∀ id parent, s.replyTo id = some parent → parent ∈ ids → id ∈ ids) :
    (s.removeObjects ids).2.Forest := by
  have hlinks : ∀ id parent, (s.removeObjects ids).2.replyTo id = some parent →
      id ∉ ids ∧ s.replyTo id = some parent := by
    intro id parent hlink
    unfold replyTo at hlink
    rw [lookup_removeObjects] at hlink
    by_cases hid : id ∈ ids
    · simp [hid] at hlink
    · exact ⟨hid, by simpa [replyTo, hid] using hlink⟩
  refine ⟨?_, h.ranked.mono fun id parent hlink => (hlinks id parent hlink).2⟩
  intro id parent hlink
  obtain ⟨hid, hlink⟩ := hlinks id parent hlink
  rw [mem_removeObjects]
  exact ⟨fun hparent => hid (hclosed id parent hlink hparent), h.parents id parent hlink⟩

end InMemoryStore

end AgentMailbox
