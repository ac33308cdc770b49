import AgentMailbox.Changes
import AgentMailbox.Threads

/-!
# What holds in every reachable state

Names address actors, messages name actors, replies form a forest whose parents are
stored, and read-state belongs to stored messages. Each change keeps all of it.
-/
namespace AgentMailbox

/-! ## The record of a message -/

/-- An audience resolves to names in the directory. -/
theorem expand_stored {mb : Mailbox} {s : InMemoryStore} {ctx : Context}
    (hctx : mb.contextIn s = .ok ctx) {name n : String} (hn : n ∈ expand ctx name) :
    n ∈ s.actors := by
  obtain ⟨hnames, hmembers⟩ := (mb.contextIn_ok_iff s ctx).mp hctx
  have hactor : n ∈ ctx.allActors → n ∈ s.actors := by
    rw [hnames]
    exact (s.mem_actorNames n).mp
  unfold expand at hn
  by_cases heveryone : name = everyone
  · rw [if_pos heveryone] at hn
    exact hactor (List.mem_toFinset.mp hn)
  · rw [if_neg heveryone] at hn
    cases hgroup : ctx.memberships.lookup name with
    | some members =>
      have hmember : n ∈ membersOf ctx.memberships name := by simpa [membersOf, hgroup] using hn
      obtain ⟨actor, hdeclares, rfl, _⟩ := (mem_membersOf hmembers name n).mp hmember
      exact (s.mem_actorNames _).mp (List.mem_map_of_mem hdeclares)
    | none =>
      simp only [hgroup] at hn
      split_ifs at hn with hname
      · obtain rfl := Finset.mem_singleton.mp hn
        exact hactor hname
      · simp at hn

/-- Everyone a message is stored for: whom its addresses resolve to, less its sender. -/
theorem mem_compose (ctx : Context) (sender : String) (recipients copies : List String)
    (parent : Option String) (draft : Draft) (stamp : Stamp) (n : String) :
    (n ∈ (Mailbox.compose ctx sender recipients copies parent draft stamp).to_ ∨
      n ∈ (Mailbox.compose ctx sender recipients copies parent draft stamp).cc) ↔
      n ∈ resolveAudience ctx (recipients ++ copies) ∧ n ≠ sender := by
  have happend : n ∈ resolveAudience ctx (recipients ++ copies) ↔
      n ∈ resolveAudience ctx recipients ∨ n ∈ resolveAudience ctx copies := by
    simp only [mem_resolveAudience, List.mem_append, or_and_right, exists_or]
  simp only [Mailbox.compose, Sorting.mem_sorted, Finset.mem_sdiff, Finset.mem_singleton, happend]
  tauto

/-- A stored message names its sender and its addressees, all of them actors, and
its sender is not among its addressees. -/
structure Proper (actors : Dict String ActorRecord) (obj : ObjectRecord) : Prop where
  sender : obj.attributedTo ∈ actors
  addressee : ∀ n, n ∈ obj.to_ ∨ n ∈ obj.cc → n ∈ actors ∧ n ≠ obj.attributedTo

/-- What a sending stores. -/
structure SentAs (mb : Mailbox) (s : InMemoryStore) (caller : String) (draft : Draft)
    (stamp : Stamp) (obj : ObjectRecord) : Prop where
  id_eq : obj.id = stamp.id
  sender : mb.local_ caller = .ok obj.attributedTo
  proper : Proper s.actors obj
  parent : ∀ p, obj.inReplyTo = some p → p ∈ s.objects

theorem Mailbox.sendIn_spec {mb : Mailbox} {s : InMemoryStore} {caller : String} {draft : Draft}
    {stamp : Stamp} {obj : ObjectRecord} (h : mb.sendIn s caller draft stamp = .ok obj) :
    SentAs mb s caller draft stamp obj := by
  obtain ⟨actor, recipients, copies, ctx, hactor, _, _, hctx, _, rfl⟩ :=
    (mb.sendIn_ok_iff s caller draft stamp obj).mp h
  obtain ⟨hlocal, hstored⟩ := (mb.actorIn_ok_iff s caller actor).mp hactor
  refine ⟨rfl, hlocal, ⟨?_, ?_⟩, ?_⟩
  · exact (Dict.mem_iff_lookup _ _).mpr ⟨actor, hstored⟩
  · intro n hn
    obtain ⟨hn, hsender⟩ := (mem_compose ctx actor.name recipients copies _ draft stamp n).mp hn
    obtain ⟨name, _, hname⟩ := (mem_resolveAudience ctx _ n).mp hn
    exact ⟨expand_stored hctx hname, hsender⟩
  · intro p hp
    obtain ⟨_, parent, hparent, _⟩ := Mailbox.attachIn_some hp
    exact (Dict.mem_iff_lookup _ _).mpr ⟨parent, hparent⟩

/-! ## The invariant -/

structure Consistent (s : InMemoryStore) : Prop where
  usable : ∀ name ∈ s.actors, Usable name
  service : ∀ name actor, s.actors.lookup name = some actor → actor.actorType = .service
  proper : ∀ id obj, s.objects.lookup id = some obj → Proper s.actors obj
  forest : s.Forest
  reads : ∀ id, id ∈ s.reads → id ∈ s.objects

theorem consistent_empty : Consistent .empty where
  usable name h := absurd h (AList.notMem_empty name)
  service name actor h := by simp [InMemoryStore.empty] at h
  proper id obj h := by simp [InMemoryStore.empty] at h
  forest := ⟨fun id parent h => by simp [InMemoryStore.replyTo, InMemoryStore.empty] at h,
    fun _ => 0, fun x y h => by simp [InMemoryStore.replyTo, InMemoryStore.empty] at h⟩
  reads id h := absurd h (AList.notMem_empty id)

/-- More actors make no message less proper. -/
lemma Proper.mono {actors actors' : Dict String ActorRecord} {obj : ObjectRecord}
    (h : Proper actors obj) (hactors : ∀ name ∈ actors, name ∈ actors') : Proper actors' obj :=
  ⟨hactors _ h.sender, fun n hn => ⟨hactors n (h.addressee n hn).1, (h.addressee n hn).2⟩⟩

theorem Consistent.putActor {s : InMemoryStore} (h : Consistent s) {actor : ActorRecord}
    (hname : Usable actor.name) (htype : actor.actorType = .service) :
    Consistent (s.putActor actor) where
  usable name hmem := by
    rw [InMemoryStore.putActor_actors, Dict.mem_set] at hmem
    rcases hmem with rfl | hmem
    · exact hname
    · exact h.usable name hmem
  service name found hfound := by
    rw [InMemoryStore.putActor_actors, Dict.lookup_set] at hfound
    split_ifs at hfound with heq
    · cases hfound
      exact htype
    · exact h.service name found hfound
  proper id obj hobj := (h.proper id obj hobj).mono fun name hmem => by
    rw [InMemoryStore.putActor_actors, Dict.mem_set]
    exact Or.inr hmem
  forest := ⟨h.forest.parents, h.forest.ranked⟩
  reads := h.reads

theorem Consistent.addObject {s : InMemoryStore} (h : Consistent s) {obj : ObjectRecord}
    (hfresh : obj.id ∉ s.objects) (hproper : Proper s.actors obj)
    (hparent : ∀ p, obj.inReplyTo = some p → p ∈ s.objects) : Consistent (s.addObject obj) where
  usable := h.usable
  service := h.service
  proper id found hfound := by
    rw [InMemoryStore.addObject_objects, Dict.lookup_set] at hfound
    split_ifs at hfound with hid
    · cases hfound
      exact hproper
    · exact h.proper id found hfound
  forest := h.forest.addObject hfresh hparent
  reads id hid := by
    rw [InMemoryStore.addObject_objects, Dict.mem_set]
    exact Or.inr (h.reads id hid)

theorem Consistent.markRead {s : InMemoryStore} (h : Consistent s) {read : ReadRecord}
    (hstored : read.objectId ∈ s.objects) : Consistent (s.markRead read).2 := by
  unfold InMemoryStore.markRead
  split_ifs
  · exact h
  · refine ⟨h.usable, h.service, h.proper, ⟨h.forest.parents, h.forest.ranked⟩, fun id hid => ?_⟩
    have hcases : id = read.objectId ∨ id ∈ s.reads := (Dict.mem_set _ _ _ _).mp hid
    rcases hcases with rfl | hid
    · exact hstored
    · exact h.reads id hid

theorem Consistent.removeObjects {s : InMemoryStore} (h : Consistent s) {ids : List String}
    (hclosed : ∀ id parent, s.replyTo id = some parent → parent ∈ ids → id ∈ ids) :
    Consistent (s.removeObjects ids).2 where
  usable := by simpa using h.usable
  service := by simpa using h.service
  proper id obj hobj := by
    rw [InMemoryStore.lookup_removeObjects] at hobj
    split_ifs at hobj with hid
    exact (h.proper id obj hobj).mono fun name hmem => by simpa using hmem
  forest := h.forest.removeObjects hclosed
  reads id hid := by
    rw [Dict.mem_iff_lookup, InMemoryStore.lookup_reads_removeObjects] at hid
    split_ifs at hid with hmem
    · simp at hid
    · rw [InMemoryStore.mem_removeObjects]
      exact ⟨hmem, h.reads id ((Dict.mem_iff_lookup _ _).mpr hid)⟩

/-- What an expiry dooms is closed under replies. -/
theorem Mailbox.doomedIn_closed {mb : Mailbox} {s : InMemoryStore} (h : s.Forest) {now : DateTime}
    {doomed : Finset String} (hdoomed : mb.doomedIn s now = .ok doomed) (id parent : String)
    (hlink : s.replyTo id = some parent) : id ∈ doomed ↔ parent ∈ doomed := by
  unfold Mailbox.doomedIn at hdoomed
  cases hcutoff : mb.cutoff now with
  | error e => simp [hcutoff] at hdoomed
  | ok cutoff =>
    simp only [hcutoff, ok_bind, except_pure, Except.ok.injEq] at hdoomed
    subst hdoomed
    exact InMemoryStore.expired_replyTo h hlink

/-- Every change keeps the store consistent. -/
theorem Consistent.change {mb : Mailbox} {s s' : InMemoryStore} {op : Operation}
    {answer : Except Raised Result} (h : Consistent s) (hadm : op.Admissible s)
    (hchange : Change mb s op answer s') : Consistent s' := by
  cases hchange with
  | unchanged => exact h
  | created actor hname _ htype _ _ => exact h.putActor hname htype
  | profiled caller profile now actor _ hactor =>
    have hstored := ((mb.actorIn_ok_iff s caller actor).mp hactor).2
    have hname := h.usable actor.name ((Dict.mem_iff_lookup _ _).mpr ⟨actor, hstored⟩)
    have htype := h.service actor.name actor hstored
    exact h.putActor hname htype
  | sent caller draft stamp obj hmint _ hobj =>
    have hspec := mb.sendIn_spec hobj
    have hfresh : obj.id ∉ s.objects := by
      rw [hspec.id_eq]
      exact hadm.fresh hmint
    exact h.addObject hfresh hspec.proper hspec.parent
  | consumed caller objectId now actor obj _ _ hobj =>
    obtain ⟨_, _, _, hstored, _⟩ := (mb.visibleIn_ok_iff s caller objectId obj).mp hobj
    have hid := s.object_key objectId obj hstored
    exact h.markRead ((Dict.mem_iff_lookup _ _).mpr ⟨obj, by rw [hid, hstored]⟩)
  | expired now doomed _ _ hdoomed =>
    refine h.removeObjects fun id parent hlink hparent => ?_
    rw [Sorting.mem_sorted] at hparent ⊢
    exact (Mailbox.doomedIn_closed h.forest hdoomed id parent hlink).mpr hparent

theorem Consistent.step (mb : Mailbox) {s : InMemoryStore} {op : Operation} (h : Consistent s)
    (hadm : op.Admissible s) : Consistent (op.step mb s).2 := h.change hadm (step_change mb hadm)

theorem Reachable.consistent {mb : Mailbox} {s : InMemoryStore} (h : Reachable mb s) :
    Consistent s := by
  induction h with
  | empty => exact consistent_empty
  | step op _ hop ih => exact ih.step mb hop

/-- A message is in the store after a change because it was there before, or it is the one sent. -/
theorem Change.stored {mb : Mailbox} {s s' : InMemoryStore} {op : Operation}
    {answer : Except Raised Result} (h : Change mb s op answer s') {id : String}
    {obj : ObjectRecord} (hobj : s'.objects.lookup id = some obj) :
    s.objects.lookup id = some obj ∨ ∃ caller draft stamp, op.minted = some stamp.id ∧
      op.drafted mb s = .ok (some (caller, draft)) ∧
      mb.sendIn s caller draft stamp = .ok obj := by
  cases h with
  | unchanged => exact .inl hobj
  | created => exact .inl hobj
  | profiled => exact .inl hobj
  | sent caller draft stamp sent hmint hdraft hsent =>
    rw [InMemoryStore.addObject_objects, Dict.lookup_set] at hobj
    split_ifs at hobj
    · cases hobj
      exact .inr ⟨caller, draft, stamp, hmint, hdraft, hsent⟩
    · exact .inl hobj
  | consumed =>
    rw [InMemoryStore.markRead_objects] at hobj
    exact .inl hobj
  | expired =>
    rw [InMemoryStore.lookup_removeObjects] at hobj
    split_ifs at hobj
    exact .inl hobj

/-- What holds of every message sent holds of every message stored. -/
theorem Reachable.stored {mb : Mailbox} {P : ObjectRecord → Prop}
    (hsent : ∀ s (op : Operation) caller draft stamp obj, Reachable mb s → op.Admissible s →
      op.minted = some stamp.id → op.drafted mb s = .ok (some (caller, draft)) →
      mb.sendIn s caller draft stamp = .ok obj → P obj)
    {s : InMemoryStore} (h : Reachable mb s) {id : String} {obj : ObjectRecord}
    (hobj : s.objects.lookup id = some obj) : P obj := by
  induction h with
  | empty => simp [InMemoryStore.empty] at hobj
  | @step s op hs hop ih =>
    rcases (step_change mb hop).stored hobj with hold | ⟨caller, draft, stamp, hmint, hdraft, hnew⟩
    · exact ih hold
    · exact hsent s op caller draft stamp obj hs hop hmint hdraft hnew

end AgentMailbox
