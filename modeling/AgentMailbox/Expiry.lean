import AgentMailbox.Invariants

/-!
# Expiry

A conversation is a connected component of the reply links, and it is idle when
everything in it was published before the cutoff. Expiry removes exactly the idle
conversations, and removes them whole.
-/
namespace AgentMailbox

/-- Nothing in the conversation of `id` was published at or after the cutoff. -/
def IdleBefore (s : InMemoryStore) (cutoff id : String) : Prop :=
  ∀ other obj, ParentPointers.Connected s.replyTo id other →
    s.objects.lookup other = some obj → obj.published < cutoff

/-- What is left after the idle conversations have gone, and what has gone. -/
structure ExpiredBefore (s : InMemoryStore) (cutoff : String) (s' : InMemoryStore) : Prop where
  directory : s'.actors = s.actors
  gone : ∀ id ∈ s.objects, IdleBefore s cutoff id → id ∉ s'.objects ∧ id ∉ s'.reads
  kept : ∀ id, ¬ (id ∈ s.objects ∧ IdleBefore s cutoff id) →
    s'.objects.lookup id = s.objects.lookup id ∧ s'.reads.lookup id = s.reads.lookup id

/-- In a forest, the doomed messages are the stored ones whose conversation is idle. -/
theorem mem_expired_iff_idle {s : InMemoryStore} (h : s.Forest) (cutoff id : String) :
    id ∈ expiredObjectIds s.objectList cutoff ↔ id ∈ s.objects ∧ IdleBefore s cutoff id := by
  rw [mem_expiredObjectIds]
  have hstored : (∃ obj ∈ s.objectList, obj.id = id) ↔ id ∈ s.objects := by
    rw [Dict.mem_iff_lookup]
    constructor
    · rintro ⟨obj, hobj, rfl⟩
      exact ⟨obj, (s.mem_objectList obj).mp hobj⟩
    · rintro ⟨obj, hobj⟩
      have hid := s.object_key id obj hobj
      exact ⟨obj, (s.mem_objectList obj).mpr (by rw [hid, hobj]), hid⟩
  have hidle : (∀ other ∈ s.objectList,
      threadRoot s.objectList other.id = threadRoot s.objectList id → other.published < cutoff) ↔
      IdleBefore s cutoff id := by
    constructor
    · intro hall other obj hconnected hobj
      have hid := s.object_key other obj hobj
      have hroot := (InMemoryStore.connected_iff_threadRoot h id other).mp hconnected
      exact hall obj ((s.mem_objectList obj).mpr (by rw [hid, hobj])) (by rw [hid, hroot])
    · intro hidle obj hobj hroot
      have hconnected := (InMemoryStore.connected_iff_threadRoot h id obj.id).mpr hroot.symm
      exact hidle obj.id obj hconnected ((s.mem_objectList obj).mp hobj)
  rw [hstored, hidle]

lemma removeObjects_expiredBefore {s : InMemoryStore} (h : Consistent s) (cutoff : String) :
    ExpiredBefore s cutoff
      (s.removeObjects (Sorting.sorted (expiredObjectIds s.objectList cutoff))).2 := by
  have hdoomed := mem_expired_iff_idle h.forest cutoff
  refine ⟨s.removeObjects_actors _, fun id hid hidle => ?_, fun id hkept => ?_⟩
  · have hmem : id ∈ Sorting.sorted (expiredObjectIds s.objectList cutoff) :=
      (Sorting.mem_sorted _ id).mpr ((hdoomed id).mpr ⟨hid, hidle⟩)
    rw [Dict.mem_iff_lookup, Dict.mem_iff_lookup, InMemoryStore.lookup_removeObjects,
      InMemoryStore.lookup_reads_removeObjects, if_pos hmem, if_pos hmem]
    simp
  · have hmem : id ∉ Sorting.sorted (expiredObjectIds s.objectList cutoff) := by
      rw [Sorting.mem_sorted, hdoomed]
      exact hkept
    rw [InMemoryStore.lookup_removeObjects, InMemoryStore.lookup_reads_removeObjects,
      if_neg hmem, if_neg hmem]
    exact ⟨rfl, rfl⟩

/-- The number returned is the number of messages that were stored and are not any more. -/
lemma removeObjects_number (s : InMemoryStore) (cutoff : String) :
    (s.removeObjects (Sorting.sorted (expiredObjectIds s.objectList cutoff))).1 =
      (s.objects.keys.filter fun id => id ∉ (s.removeObjects
        (Sorting.sorted (expiredObjectIds s.objectList cutoff))).2.objects).length := by
  set ids := Sorting.sorted (expiredObjectIds s.objectList cutoff) with hids
  have hnodup : ids.Nodup := Sorting.sorted_nodup _
  have hkeys : s.objects.keys.Nodup := s.objects.nodupKeys
  have hgone : s.objects.keys.filter (fun id => id ∉ (s.removeObjects ids).2.objects) =
      s.objects.keys.filter (· ∈ ids) := by
    refine List.filter_congr fun id hid => ?_
    have hstored : id ∈ s.objects := AList.mem_keys.mpr hid
    simp [InMemoryStore.mem_removeObjects, hstored]
  have hperm : (ids.filter (· ∈ s.objects)).Perm (s.objects.keys.filter (· ∈ ids)) := by
    refine (List.perm_ext_iff_of_nodup (hnodup.filter _) (hkeys.filter _)).mpr fun id => ?_
    simp only [List.mem_filter, decide_eq_true_eq, ← AList.mem_keys]
    exact And.comm
  rw [s.removeObjects_count hnodup, hgone]
  exact hperm.length_eq

/-- An expiry removes exactly the idle conversations and says how many messages went;
when the cutoff is out of the calendar's range it raises and removes nothing. -/
theorem expire_removes_idle_conversations (mb : Mailbox) (hdays : 0 < mb.retentionDays)
    (s : InMemoryStore) (hs : Reachable mb s) (now : DateTime) :
    match mb.cutoff now with
    | .error e => (Operation.expire now).step mb s = (.error e, s)
    | .ok cutoff => ∃ s',
        (Operation.expire now).step mb s = (.ok (.count
          (s.objects.keys.filter fun id => id ∉ s'.objects).length), s') ∧
        ExpiredBefore s cutoff.isoformat s' ∧
        (s.ParentsStored ∧ ∀ id, id ∈ s.reads → id ∈ s.objects) ∧
        (s'.ParentsStored ∧ ∀ id, id ∈ s'.reads → id ∈ s'.objects) := by
  have hinv := hs.consistent
  have hstep : (Operation.expire now).step mb s = (((runs (mb.expire now) s).1).map Result.count,
      (runs (mb.expire now) s).2) := runs_map s Result.count (mb.expire now)
  rw [hstep, mb.runs_expire s now hdays]
  cases hcut : mb.cutoff now with
  | error e => simp [Mailbox.doomedIn, hcut, Except.map]
  | ok cutoff =>
    have hdoomed : mb.doomedIn s now = .ok (expiredObjectIds s.objectList cutoff.isoformat) := by
      simp [Mailbox.doomedIn, hcut]
    have hinv' : Consistent (s.removeObjects
        (Sorting.sorted (expiredObjectIds s.objectList cutoff.isoformat))).2 := by
      refine hinv.removeObjects fun id parent hlink hparent => ?_
      rw [Sorting.mem_sorted] at hparent ⊢
      exact (InMemoryStore.expired_replyTo hinv.forest hlink).mpr hparent
    simp only [hdoomed]
    refine ⟨_, ?_, removeObjects_expiredBefore hinv _, ⟨hinv.forest.parents, hinv.reads⟩,
      ⟨hinv'.forest.parents, hinv'.reads⟩⟩
    rw [Except.map, removeObjects_number]

/-- Two conversations, of which the second goes on after the middle of the month. -/
def twoConversations : List Operation :=
  [joinAs "alice", joinAs "bob",
    .send "alice" { to_ := .one "bob", body := "one" } ⟨"m1", january 2⟩,
    .send "alice" { to_ := .one "bob", body := "two" } ⟨"m2", january 3⟩,
    .reply "bob" "m2" "still here" none ⟨"m3", january 25⟩]

/-- At the end of the month the first of them goes, and the second stays whole. -/
theorem expire_removes_first_of_two :
    ∃ s', (Operation.expire (january 31)).step asciiMailbox
        (after asciiMailbox .empty twoConversations) = (.ok (.count 1), s') ∧
      ExpiredBefore (after asciiMailbox .empty twoConversations) (january 17).isoformat s' := by
  have hreach : Reachable asciiMailbox (after asciiMailbox .empty twoConversations) :=
    reachable_after .empty (by decide +kernel)
  have hcut : asciiMailbox.cutoff (january 31) = .ok (january 17) := by decide +kernel
  have hexpire := expire_removes_idle_conversations asciiMailbox (by decide) _ hreach (january 31)
  rw [hcut] at hexpire
  obtain ⟨s', hstep, hexpired, _⟩ := hexpire
  have hcount : ((Operation.expire (january 31)).step asciiMailbox
      (after asciiMailbox .empty twoConversations)).1 = .ok (.count 1) := by decide +kernel
  rw [hstep] at hcount
  exact ⟨s', by rw [hstep, ← hcount], hexpired⟩

end AgentMailbox
