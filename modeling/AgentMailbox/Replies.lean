import AgentMailbox.HouseRuns
import AgentMailbox.Renaming

/-!
# Replies

A reply answers a message its caller is party to, and whoever is party to a message may
attach to it. So a reply that is sent is never detached: it joins the conversation of the
message it answers, and is one more turn of it for its sender.
-/
namespace AgentMailbox

namespace InMemoryStore

/-- Filing a new message puts it in its place among the selected ones. -/
theorem filter_objectList_addObject (s : InMemoryStore) {obj : ObjectRecord}
    (hfresh : obj.id ∉ s.objects) {p q : ObjectRecord → Bool} (hobj : q obj = true)
    (hsame : ∀ other ∈ s.objectList, q other = p other) :
    (s.addObject obj).objectList.filter q =
      (s.objectList.filter p).orderedInsert (fun a b => a.age ≤ b.age) obj := by
  have hnew : obj ∉ s.objectList := by
    rw [mem_objectList, AList.lookup_eq_none.mpr hfresh]
    exact Option.some_ne_none obj ∘ Eq.symm
  have hmem : ∀ other,
      other ∈ (s.addObject obj).objectList ↔ other = obj ∨ other ∈ s.objectList := by
    intro other
    rw [mem_objectList, mem_objectList, addObject_objects, Dict.lookup_set]
    split_ifs with hid
    · have hnone : s.objects.lookup other.id = none := by
        rw [hid]
        exact AList.lookup_eq_none.mpr hfresh
      simp [hnone, eq_comm]
    · have hne : other ≠ obj := fun heq => hid (congrArg ObjectRecord.id heq)
      simp [hne]
  refine Sorting.eq_of_mem_iff ObjectRecord.age (fun other => ?_) ?_ ?_ ?_ ?_ ?_
  · rw [List.mem_filter, hmem, List.mem_orderedInsert, List.mem_filter]
    constructor
    · rintro ⟨rfl | hother, hq⟩
      · exact .inl rfl
      · exact .inr ⟨hother, by rw [← hsame other hother, hq]⟩
    · rintro (rfl | ⟨hother, hp⟩)
      · exact ⟨.inl rfl, hobj⟩
      · exact ⟨.inr hother, by rw [hsame other hother, hp]⟩
  · intro a ha b hb
    have hlisted : ∀ x ∈ (s.addObject obj).objectList.filter q,
        x ∈ (s.addObject obj).objects.values := fun x hx =>
      (Sorting.mem_sortBy _ _ x).mp (List.mem_of_mem_filter hx)
    exact (s.addObject obj).age_apart a (hlisted a ha) b (hlisted b hb)
  · exact (s.addObject obj).objectList_nodup.filter q
  · refine (List.perm_orderedInsert _ obj _).nodup_iff.mpr (List.nodup_cons.mpr ⟨?_, ?_⟩)
    · exact fun hin => hnew (List.mem_of_mem_filter hin)
    · exact s.objectList_nodup.filter p
  · exact (Sorting.sortBy_pairwise _ _).filter q
  · exact ((Sorting.sortBy_pairwise ObjectRecord.age s.objects.values).filter p).orderedInsert obj _

end InMemoryStore

/-- The message `obj` was filed as a turn, by `caller`, of the conversation of `answered`. -/
structure Joins (mb : Mailbox) (s : InMemoryStore) (caller answered : String)
    (obj : ObjectRecord) (s' : InMemoryStore) : Prop where
  fresh : obj.id ∉ s.objects
  stored : s'.objects.lookup obj.id = some obj
  kept : ∀ id, id ≠ obj.id → s'.objects.lookup id = s.objects.lookup id
  attached : obj.inReplyTo = some answered
  root : threadRoot s'.objectList obj.id = threadRoot s.objectList answered
  roots : ∀ id, id ≠ obj.id → threadRoot s'.objectList id = threadRoot s.objectList id
  view : ∃ turns, obj ∉ turns ∧
    ((Operation.thread caller (threadRoot s.objectList answered)).step mb s).1 =
      .ok (.messages turns) ∧
    ((Operation.thread caller (threadRoot s.objectList answered)).step mb s').1 =
      .ok (.messages (turns.orderedInsert (fun a b => a.age ≤ b.age) obj))

/-- A reply is sent to be attached to what it answers, and is. -/
lemma Mailbox.replyIn_parent {mb : Mailbox} {s : InMemoryStore}
    {caller objectId body : String} {subject : Option String} {stamp : Stamp} {obj : ObjectRecord}
    (h : mb.replyIn s caller objectId body subject stamp = .ok obj) :
    obj.inReplyTo = some objectId := by
  unfold Mailbox.replyIn at h
  cases horiginal : mb.visibleIn s caller objectId with
  | error e => simp [horiginal] at h
  | ok original =>
    rw [horiginal, ok_bind] at h
    obtain ⟨actor, ctx, hactor, hstored, hctx, hparty⟩ :=
      (mb.visibleIn_ok_iff s caller objectId original).mp horiginal
    obtain ⟨actor', _, _, ctx', hactor', _, _, hctx', _, rfl⟩ :=
      (mb.sendIn_ok_iff s caller _ stamp obj).mp h
    -- The caller and the context are looked up again, in the same store.
    rw [hactor] at hactor'
    cases hactor'
    rw [hctx] at hctx'
    cases hctx'
    have hid : original.id = objectId := s.object_key objectId original hstored
    have hvisible : s.visibleAt ctx actor.name objectId = some original :=
      (s.visibleAt_eq_some ctx actor.name objectId original).mpr ⟨hstored, hparty⟩
    show Mailbox.attachIn s ctx actor.name (some original.id) = some objectId
    rw [Mailbox.attachIn_eq, hid, Option.filter_some, hvisible]
    rfl

/-- A new message is a turn of its own conversation, in its place among the others. -/
lemma visibleTurns_addObject {s : InMemoryStore} {obj : ObjectRecord} {ctx : Context}
    {viewer : String} (hfresh : obj.id ∉ s.objects)
    (hroots : ∀ id, id ≠ obj.id →
      threadRoot (s.addObject obj).objectList id = threadRoot s.objectList id)
    (hparty : isPartyTo ctx obj viewer = true) :
    visibleTurns ctx (s.addObject obj).objectList
        (threadRoot (s.addObject obj).objectList obj.id) viewer =
      (visibleTurns ctx s.objectList (threadRoot (s.addObject obj).objectList obj.id)
        viewer).orderedInsert (fun a b => a.age ≤ b.age) obj := by
  unfold visibleTurns threadMembers
  rw [List.filter_filter, List.filter_filter]
  refine s.filter_objectList_addObject hfresh (by simp [hparty]) fun other hother => ?_
  have hne : other.id ≠ obj.id := by
    intro heq
    rw [InMemoryStore.mem_objectList, heq, AList.lookup_eq_none.mpr hfresh] at hother
    cases hother
  rw [hroots other.id hne]

lemma Mailbox.replyIn_joins {mb : Mailbox} {s : InMemoryStore} (h : Consistent s)
    {caller objectId body : String} {subject : Option String} {stamp : Stamp} {obj : ObjectRecord}
    (hfresh : stamp.id ∉ s.objects)
    (hobj : mb.replyIn s caller objectId body subject stamp = .ok obj) :
    Joins mb s caller objectId obj (s.addObject obj) := by
  have hattached := mb.replyIn_parent hobj
  unfold Mailbox.replyIn at hobj
  cases horiginal : mb.visibleIn s caller objectId with
  | error e => simp [horiginal] at hobj
  | ok original =>
    rw [horiginal, ok_bind] at hobj
    have hspec := mb.sendIn_spec hobj
    have hnew : obj.id ∉ s.objects := by rwa [hspec.id_eq]
    have hroot := InMemoryStore.threadRoot_addObject_self h.forest hnew hspec.parent hattached
    have hroots : ∀ id, id ≠ obj.id →
        threadRoot (s.addObject obj).objectList id = threadRoot s.objectList id :=
      fun id hid => InMemoryStore.threadRoot_addObject_of_ne h.forest hnew hspec.parent hid
    obtain ⟨actor, _, _, ctx, hactor, _, _, hctx, _, hcompose⟩ :=
      (mb.sendIn_ok_iff s caller _ stamp obj).mp hobj
    refine ⟨hnew, by simp, fun id hid => ?_, hattached, hroot, hroots,
      visibleTurns ctx s.objectList (threadRoot s.objectList objectId) actor.name, ?_, ?_, ?_⟩
    · rw [InMemoryStore.addObject_objects, Dict.lookup_set, if_neg hid]
    · intro hin
      have hlisted := List.mem_of_mem_filter (List.mem_of_mem_filter hin)
      rw [InMemoryStore.mem_objectList, AList.lookup_eq_none.mpr hnew] at hlisted
      cases hlisted
    · simp [Operation.step_thread, Mailbox.threadIn, hactor, hctx, Except.map]
    · have hctx' : mb.contextIn (s.addObject obj) = .ok ctx := by
        rw [mb.contextIn_congr (s.addObject_actors obj), hctx]
      have hactor' : mb.actorIn (s.addObject obj) caller = .ok actor := by
        rw [mb.actorIn_congr (s.addObject_actors obj), hactor]
      have hparty : isPartyTo ctx obj actor.name = true := by
        rw [hcompose]
        simp [isPartyTo, Mailbox.compose]
      have hturns := visibleTurns_addObject hnew hroots hparty
      rw [hroot] at hturns
      simp [Operation.step_thread, Mailbox.threadIn, hactor', hctx', hturns, Except.map]

/-- A reply, of the mailbox or of a house, joins the conversation it answers. -/
theorem reply_joins_conversation (mb : Mailbox) (s : InMemoryStore) (hs : Reachable mb s)
    (caller objectId body : String) (subject : Option String) (stamp : Stamp)
    (hfresh : stamp.id ∉ s.objects) (obj : ObjectRecord) :
    (∀ s', (Operation.reply caller objectId body subject stamp).step mb s =
        (.ok (.message obj), s') → Joins mb s caller objectId obj s') ∧
    ∀ (μ : Type) (house : House μ) (t t' : HouseState μ), house.mailbox = mb → t.store = s →
      house.step (.reply caller objectId body subject stamp) t = (.ok (.message obj), t') →
      Joins mb s caller objectId obj t'.store ∧
        ∀ rootId, (house.step (.thread caller rootId) t').1 =
          ((Operation.thread caller rootId).step mb t'.store).1 := by
  have hmailbox : ∀ answer s',
      (Operation.reply caller objectId body subject stamp).step mb s = (answer, s') →
      answer = .ok (.message obj) → Joins mb s caller objectId obj s' := by
    intro answer s' hstep hanswer
    rw [Operation.step_reply, Prod.mk.injEq] at hstep
    cases hobj : mb.replyIn s caller objectId body subject stamp with
    | error e =>
      rw [hobj, hanswer] at hstep
      cases hstep.1
    | ok sent =>
      rw [hobj, hanswer] at hstep
      obtain ⟨hsent, rfl⟩ := hstep
      cases hsent
      exact mb.replyIn_joins hs.consistent hfresh hobj
  refine ⟨fun s' hstep => hmailbox _ s' hstep rfl, ?_⟩
  rintro μ house t t' rfl rfl hstep
  refine ⟨?_, fun rootId => by rw [house.step_thread, Operation.step_thread]⟩
  rcases house.step_refusedOrDone (.reply caller objectId body subject stamp) t with
    ⟨⟨e, he⟩, _⟩ | ⟨hanswer, hstore⟩
  · rw [hstep] at he
    cases he
  · rw [hstep] at hanswer hstore
    exact hmailbox _ _ (Prod.ext hanswer.symm hstore.symm) rfl

/-- Alice writes to bob and to carol. -/
def openingToTwo : List Operation :=
  [joinAs "alice", joinAs "bob", joinAs "carol",
    .send "alice" { to_ := .many ["bob", "carol"], body := "one" } ⟨"m1", january 2⟩]

/-- Bob's answer, under another spelling of his address, joins alice's conversation. -/
theorem answer_joins_opening : ∃ obj s',
    (Operation.reply "Bob@local" "m1" "two" none ⟨"m2", january 3⟩).step asciiMailbox
      (after asciiMailbox .empty openingToTwo) = (.ok (.message obj), s') ∧
    Joins asciiMailbox (after asciiMailbox .empty openingToTwo) "Bob@local" "m1" obj s' := by
  have hreach : Reachable asciiMailbox (after asciiMailbox .empty openingToTwo) :=
    reachable_after .empty (by decide +kernel)
  have hsent : ((Operation.reply "Bob@local" "m1" "two" none ⟨"m2", january 3⟩).step asciiMailbox
      (after asciiMailbox .empty openingToTwo)).1 = .ok (.message
        { id := "m2", attributedTo := "bob", to_ := ["alice"], inReplyTo := some "m1",
          content := "two", published := (january 3).isoformat,
          document := Mailbox.documentOf ["alice"] none }) := by decide +kernel
  have hjoins := reply_joins_conversation asciiMailbox _ hreach "Bob@local" "m1" "two" none
    ⟨"m2", january 3⟩ (by decide +kernel)
  exact ⟨_, _, Prod.ext hsent rfl, (hjoins _).1 _ (Prod.ext hsent rfl)⟩

end AgentMailbox
