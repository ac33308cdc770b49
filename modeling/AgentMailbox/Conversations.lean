import AgentMailbox.Threads
import AgentMailbox.Operations
import AgentMailbox.Library.ParentCycles

/-!
# Conversations, whatever the links

A collection of messages with links to nothing, to themselves or in circles. Each message
still has one root, so its turns are found in one conversation and once. An expiry dooms
whole conversations as long as the branches that meet in a circle of replies are idle
together: the messages of the circle are roots of their own.
-/
namespace AgentMailbox

open ParentPointers

/-- The links the walk follows. -/
abbrev links (objects : List ObjectRecord) : String → Option String := parentIn (byId objects)

/-- `child` answers `parent`, and both are in the collection. -/
structure Linked (objects : List ObjectRecord) (child parent : ObjectRecord) : Prop where
  child_mem : child ∈ objects
  parent_mem : parent ∈ objects
  answers : child.inReplyTo = some parent.id

/-! ## The links of a collection -/

section
variable {objects : List ObjectRecord}

lemma mem_byId (objects : List ObjectRecord) (id : String) :
    id ∈ byId objects ↔ ∃ obj ∈ objects, obj.id = id := by
  induction objects using List.reverseRecOn with
  | nil => simp [byId, Dict.ofList]
  | append_singleton objects obj ih =>
    unfold byId at ih ⊢
    rw [List.map_append, List.map_cons, List.map_nil, Dict.ofList_append, Dict.mem_set, ih]
    simp only [List.mem_append, List.mem_singleton, or_and_right, exists_or, exists_eq_left]
    rw [or_comm, eq_comm]

lemma lookup_byId (hids : (objects.map ObjectRecord.id).Nodup) {obj : ObjectRecord}
    (hobj : obj ∈ objects) : (byId objects).lookup obj.id = some obj := by
  refine (Dict.lookup_ofList ?_ _ _).mpr (List.mem_map_of_mem hobj)
  intro id v w hv hw
  simp only [List.mem_map, Prod.mk.injEq] at hv hw
  obtain ⟨_, hv, hid, rfl⟩ := hv
  obtain ⟨_, hw, hid', rfl⟩ := hw
  exact List.inj_on_of_nodup_map hids hv hw (hid.trans hid'.symm)

lemma links_mem {id parent : String} (h : links objects id = some parent) :
    (∃ obj ∈ objects, obj.id = id) ∧ ∃ obj ∈ objects, obj.id = parent := by
  unfold links parentIn at h
  cases hobj : (byId objects).lookup id with
  | none => simp [hobj] at h
  | some obj =>
    cases hanswer : obj.inReplyTo with
    | none => simp [hobj, hanswer] at h
    | some wanted =>
      simp only [hobj, hanswer, Option.ite_none_right_eq_some, Option.some.injEq] at h
      obtain ⟨hmem, rfl⟩ := h
      exact ⟨(mem_byId objects id).mp ((Dict.mem_iff_lookup _ _).mpr ⟨obj, hobj⟩),
        (mem_byId objects wanted).mp hmem⟩

lemma Linked.links (hids : (objects.map ObjectRecord.id).Nodup) {child parent : ObjectRecord}
    (h : Linked objects child parent) : links objects child.id = some parent.id := by
  have hmem : parent.id ∈ byId objects := (mem_byId _ _).mpr ⟨parent, h.parent_mem, rfl⟩
  simp only [AgentMailbox.links, parentIn, lookup_byId hids h.child_mem, h.answers, hmem, if_true]

lemma linked_of_links (hids : (objects.map ObjectRecord.id).Nodup) {id parent : String}
    (h : links objects id = some parent) :
    ∃ child answered, Linked objects child answered ∧ child.id = id ∧ answered.id = parent := by
  obtain ⟨⟨child, hchild, rfl⟩, answered, hanswered, rfl⟩ := links_mem h
  refine ⟨child, answered, ⟨hchild, hanswered, ?_⟩, rfl, rfl⟩
  simp only [AgentMailbox.links, parentIn, lookup_byId hids hchild] at h
  cases hanswer : child.inReplyTo with
  | none => simp [hanswer] at h
  | some wanted =>
    simp only [hanswer, Option.ite_none_right_eq_some] at h
    exact h.2

/-- The fuel of the walk exceeds the number of messages with a parent. -/
lemma links_bounded (objects : List ObjectRecord) :
    (∀ x y, links objects x = some y → x ∈ (objects.map ObjectRecord.id).toFinset) ∧
      (objects.map ObjectRecord.id).toFinset.card < objects.length + 1 := by
  constructor
  · intro x y h
    obtain ⟨⟨obj, hobj, rfl⟩, _⟩ := links_mem h
    exact List.mem_toFinset.mpr (List.mem_map_of_mem hobj)
  · have hcard := List.toFinset_card_le (objects.map ObjectRecord.id)
    rw [List.length_map] at hcard
    omega

/-- `threadRoot` finds the end of the links. -/
theorem threadRoot_ends (objects : List ObjectRecord) (id : String) :
    Ends (links objects) id (threadRoot objects id) :=
  walk_ends (links_bounded objects).1 (links_bounded objects).2 id

/-- The loop of `threadRoot`, unbounded, returns what the bounded walk returns. -/
theorem returns_threadRoot (objects : List ObjectRecord) (id : String) :
    Returns (links objects) [] id (threadRoot objects id) :=
  returns_walk (links_bounded objects).1 _ [] id (by simpa using (links_bounded objects).2)

lemma threadRoot_eq_iff (objects : List ObjectRecord) (id root : String) :
    threadRoot objects id = root ↔ Ends (links objects) id root := by
  constructor
  · rintro rfl
    exact threadRoot_ends objects id
  · exact (threadRoot_ends objects id).unique

lemma threadRoot_threadRoot (objects : List ObjectRecord) (id : String) :
    threadRoot objects (threadRoot objects id) = threadRoot objects id :=
  (threadRoot_eq_iff _ _ _).mpr (threadRoot_ends objects id).end_self

/-- The root of a message of the collection is one. -/
lemma ends_mem {id root : String} (h : Ends (links objects) id root)
    (hid : ∃ obj ∈ objects, obj.id = id) : ∃ obj ∈ objects, obj.id = root := by
  induction h with
  | root => exact hid
  | cycle => exact hid
  | climb hx _ _ ih => exact ih (links_mem hx).2

end

/-! ## Every turn in one conversation -/

/-- Conversations share the messages out among them. -/
structure SharedOut (objects : List ObjectRecord) : Prop where
  /-- The loop stops, and the bounded walk returns what it returns. -/
  terminates : ∀ id root, Returns (links objects) [] id root ↔ root = threadRoot objects id
  stored : ∀ obj ∈ objects, ∃ root ∈ objects, root.id = threadRoot objects obj.id
  idempotent : ∀ id, threadRoot objects (threadRoot objects id) = threadRoot objects id
  /-- A viewer is shown its own turns of the conversation, in the order of the collection. -/
  turns : ∀ ctx root viewer, (visibleTurns ctx objects root viewer).Sublist objects ∧
    ∀ obj ∈ visibleTurns ctx objects root viewer,
      isPartyTo ctx obj viewer = true ∧ threadRoot objects obj.id = root
  /-- And each of its turns in one conversation, once. -/
  once : ∀ ctx viewer, ∀ obj ∈ objects, isPartyTo ctx obj viewer = true →
    ∃! root, obj ∈ visibleTurns ctx objects root viewer ∧
      (visibleTurns ctx objects root viewer).count obj = 1

lemma mem_visibleTurns (ctx : Context) (objects : List ObjectRecord) (root viewer : String)
    (obj : ObjectRecord) : obj ∈ visibleTurns ctx objects root viewer ↔
      obj ∈ objects ∧ threadRoot objects obj.id = root ∧ isPartyTo ctx obj viewer = true := by
  simp only [visibleTurns, threadMembers, List.mem_filter, decide_eq_true_eq, and_assoc]

lemma visibleTurns_sublist (ctx : Context) (objects : List ObjectRecord) (root viewer : String) :
    (visibleTurns ctx objects root viewer).Sublist objects :=
  List.filter_sublist.trans List.filter_sublist

/-- Whatever the links of a collection with distinct ids, its conversations share out
the messages. -/
theorem conversations_share_out {objects : List ObjectRecord}
    (hids : (objects.map ObjectRecord.id).Nodup) : SharedOut objects where
  terminates id root := by
    constructor
    · exact fun h => h.unique (returns_threadRoot objects id)
    · rintro rfl
      exact returns_threadRoot objects id
  stored obj hobj := ends_mem (threadRoot_ends objects obj.id) ⟨obj, hobj, rfl⟩
  idempotent id := threadRoot_threadRoot objects id
  turns ctx root viewer := by
    refine ⟨visibleTurns_sublist ctx objects root viewer, fun obj hobj => ?_⟩
    obtain ⟨_, hroot, hparty⟩ := (mem_visibleTurns ctx objects root viewer obj).mp hobj
    exact ⟨hparty, hroot⟩
  once ctx viewer obj hobj hparty := by
    have hmem := (mem_visibleTurns ctx objects _ viewer obj).mpr ⟨hobj, rfl, hparty⟩
    have hnodup := hids.of_map.sublist (visibleTurns_sublist ctx objects
      (threadRoot objects obj.id) viewer)
    refine ⟨threadRoot objects obj.id, ⟨hmem, List.count_eq_one_of_mem hnodup hmem⟩, ?_⟩
    intro root hroot
    exact ((mem_visibleTurns ctx objects root viewer obj).mp hroot.1).2.1.symm

/-- A message of alice's to bob, published on a day of January. -/
def turnOf (id : String) (parent : Option String) (day : ℕ) : ObjectRecord where
  id := id
  attributedTo := "alice"
  to_ := ["bob"]
  inReplyTo := parent
  published := (january day).isoformat

/-- Two messages that answer each other. -/
def circle : List ObjectRecord := [turnOf "m1" (some "m2") 2, turnOf "m2" (some "m1") 25]

/-- And one that answers the first of them. -/
def circleWithTail : List ObjectRecord := circle ++ [turnOf "m3" (some "m1") 26]

theorem circleWithTail_shared_out : SharedOut circleWithTail :=
  conversations_share_out (by decide +kernel)

/-! ## Expiry -/

/-- A reply goes exactly when what it answers goes. -/
def ExpiresWhole (objects : List ObjectRecord) (cutoff : String) : Prop :=
  ∀ child parent, Linked objects child parent →
    (child.id ∈ expiredObjectIds objects cutoff ↔ parent.id ∈ expiredObjectIds objects cutoff)

/-- Everything that hangs from the message was published before the cutoff. From a message
on a circle hangs what reaches the circle there. -/
def IdleBranch (objects : List ObjectRecord) (cutoff top : String) : Prop :=
  ∀ obj ∈ objects, Ends (links objects) obj.id top → obj.published < cutoff

/-- Along every circle of replies, all branches are idle or none is. -/
def CirclesAgree (objects : List ObjectRecord) (cutoff : String) : Prop :=
  ∀ child parent, Linked objects child parent → OnCycle (links objects) child.id →
    (IdleBranch objects cutoff child.id ↔ IdleBranch objects cutoff parent.id)

lemma expired_iff_idle {objects : List ObjectRecord} {obj : ObjectRecord} (hobj : obj ∈ objects)
    (cutoff : String) : obj.id ∈ expiredObjectIds objects cutoff ↔
      IdleBranch objects cutoff (threadRoot objects obj.id) := by
  rw [mem_expiredObjectIds, and_iff_right ⟨obj, hobj, rfl⟩]
  unfold IdleBranch
  simp only [threadRoot_eq_iff]

/-- Off the circles a reply and what it answers have one root. -/
lemma Linked.threadRoot_eq {objects : List ObjectRecord}
    (hids : (objects.map ObjectRecord.id).Nodup) {child parent : ObjectRecord}
    (h : Linked objects child parent) (hcycle : ¬ OnCycle (AgentMailbox.links objects) child.id) :
    threadRoot objects child.id = threadRoot objects parent.id := by
  rw [threadRoot_eq_iff, ends_step (h.links hids) hcycle]
  exact threadRoot_ends objects parent.id

lemma threadRoot_onCycle {objects : List ObjectRecord} {id : String}
    (h : OnCycle (links objects) id) : threadRoot objects id = id :=
  (threadRoot_eq_iff _ _ _).mpr (.cycle h)

/-- Replies go with what they answer exactly when the branches of every circle agree; and
then whatever is joined by replies goes together. -/
theorem expires_whole_iff {objects : List ObjectRecord}
    (hids : (objects.map ObjectRecord.id).Nodup) (cutoff : String) :
    (ExpiresWhole objects cutoff ↔ CirclesAgree objects cutoff) ∧
      (CirclesAgree objects cutoff → ∀ x y, Connected (links objects) x y →
        (x ∈ expiredObjectIds objects cutoff ↔ y ∈ expiredObjectIds objects cutoff)) := by
  have hiff : ExpiresWhole objects cutoff ↔ CirclesAgree objects cutoff := by
    refine forall₃_congr fun child parent hlinked => ?_
    rw [expired_iff_idle hlinked.child_mem, expired_iff_idle hlinked.parent_mem]
    by_cases hcycle : OnCycle (links objects) child.id
    · rw [threadRoot_onCycle hcycle, threadRoot_onCycle (hcycle.step (hlinked.links hids))]
      exact ⟨fun h _ => h, fun h => h hcycle⟩
    · rw [hlinked.threadRoot_eq hids hcycle]
      exact iff_of_true Iff.rfl fun h => absurd h hcycle
  refine ⟨hiff, fun hagree x y hxy => ?_⟩
  induction hxy with
  | rel x y hlink =>
    obtain ⟨child, parent, hlinked, rfl, rfl⟩ := linked_of_links hids hlink
    exact hiff.mpr hagree child parent hlinked
  | refl x => exact Iff.rfl
  | symm x y _ ih => exact ih.symm
  | trans x y z _ _ ih ih' => exact ih.trans ih'

/-- Of two messages that answer each other the older one goes, and the newer one stays. -/
theorem circle_expires_in_part :
    (circle.map ObjectRecord.id).Nodup ∧
      expiredObjectIds circle (january 17).isoformat = {"m1"} ∧
      ¬ ExpiresWhole circle (january 17).isoformat := by
  have hexpired : expiredObjectIds circle (january 17).isoformat = {"m1"} := by decide +kernel
  refine ⟨by decide +kernel, hexpired, fun hwhole => ?_⟩
  have hlink := hwhole (turnOf "m1" (some "m2") 2) (turnOf "m2" (some "m1") 25)
    ⟨List.mem_cons_self, List.mem_cons_of_mem _ List.mem_cons_self, rfl⟩
  rw [hexpired] at hlink
  exact absurd (hlink.mp (Finset.mem_singleton_self _)) (by decide)

/-- Where the whole circle is idle it goes whole, and what hangs from it goes too. -/
theorem idle_circle_expires_whole :
    ExpiresWhole circleWithTail (january 31).isoformat ∧
      ∀ x y, Connected (links circleWithTail) x y →
        (x ∈ expiredObjectIds circleWithTail (january 31).isoformat ↔
          y ∈ expiredObjectIds circleWithTail (january 31).isoformat) := by
  have hidle : ∀ obj ∈ circleWithTail, obj.published < (january 31).isoformat := by
    decide +kernel
  have hagree : CirclesAgree circleWithTail (january 31).isoformat := fun _ _ _ _ =>
    iff_of_true (fun obj hobj _ => hidle obj hobj) (fun obj hobj _ => hidle obj hobj)
  have hids : (circleWithTail.map ObjectRecord.id).Nodup := by decide +kernel
  obtain ⟨hiff, hwhole⟩ := expires_whole_iff hids (january 31).isoformat
  exact ⟨hiff.mpr hagree, hwhole hagree⟩

end AgentMailbox
