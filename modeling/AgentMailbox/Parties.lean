import AgentMailbox.Invariants

/-!
# Who is party to a stored message

A message is stored with the names its audience resolved to, and every later
question resolves those names again. The second resolution gives the names back as
long as none of them has become the name of a group that somebody else declares.
-/
namespace AgentMailbox

/-- Nobody else declares a group of this name. -/
def OwnName (u : Unicode) (s : InMemoryStore) (name : String) : Prop :=
  ∀ actor ∈ s.actors.values, Declares u actor name → actor.name = name

instance (u : Unicode) (s : InMemoryStore) (name : String) : Decidable (OwnName u s name) :=
  inferInstanceAs (Decidable (∀ actor ∈ s.actors.values, _))

namespace Operation

/-- A call that is not refused. -/
def Accepted (mb : Mailbox) (op : Operation) (s : InMemoryStore) : Prop :=
  (op.step mb s).1.isOk = true

instance (mb : Mailbox) (op : Operation) (s : InMemoryStore) : Decidable (op.Accepted mb s) :=
  inferInstanceAs (Decidable (_ = true))

lemma accepted_of_ok {mb : Mailbox} {op : Operation} {s : InMemoryStore} {result : Result}
    (h : (op.step mb s).1 = .ok result) : op.Accepted mb s := by
  rw [Accepted, h]
  rfl

/-- A profile update brings groups that can be listed. -/
def GroupsUsable (op : Operation) : Prop :=
  match op with
  | updateProfile _ profile _ => usableGroups profile = true
  | _ => True

instance (op : Operation) : Decidable op.GroupsUsable :=
  match op with
  | updateProfile _ profile _ => inferInstanceAs (Decidable (usableGroups profile = true))
  | join _ _ _ | whois _ | directory | installResident _ _ _ | send _ _ _ | reply _ _ _ _ _
  | peek _ | unreadCount _ | read _ _ _ | thread _ _ | view _ _ | expire _ => isTrue trivial

/-- The actors other than its sender whom a sending would reach. -/
def reached (mb : Mailbox) (op : Operation) (s : InMemoryStore) :
    Except Raised (Finset String) := do
  match ← op.drafted mb s with
  | none => return ∅
  | some (caller, draft) =>
    let sender ← mb.local_ caller
    let recipients ← mb.localAll draft.to_.toList
    let copies ← mb.localAll draft.cc
    let ctx ← mb.contextIn s
    return resolveAudience ctx (recipients ++ copies) \ {sender}

/-- No update declares the name of another actor whom a stored message is addressed to. -/
def SparesStored (mb : Mailbox) (op : Operation) (s : InMemoryStore) : Prop :=
  match op with
  | updateProfile caller profile _ =>
    ∀ obj ∈ s.objectList, ∀ n ∈ obj.to_ ++ obj.cc,
      DeclaredIn mb.unicode profile n → mb.local_ caller = .ok n
  | _ => True

instance (mb : Mailbox) (op : Operation) (s : InMemoryStore) :
    Decidable (op.SparesStored mb s) :=
  match op with
  | updateProfile _ _ _ => inferInstanceAs (Decidable (∀ obj ∈ s.objectList, _))
  | join _ _ _ | whois _ | directory | installResident _ _ _ | send _ _ _ | reply _ _ _ _ _
  | peek _ | unreadCount _ | read _ _ _ | thread _ _ | view _ _ | expire _ => isTrue trivial

/-- No sending reaches an actor whose name another actor declares. -/
def SparesReached (mb : Mailbox) (op : Operation) (s : InMemoryStore) : Prop :=
  ∀ names, op.reached mb s = .ok names → ∀ n ∈ names, OwnName mb.unicode s n

instance (mb : Mailbox) (op : Operation) (s : InMemoryStore) :
    Decidable (op.SparesReached mb s) :=
  match h : op.reached mb s with
  | .error e => isTrue (by simp [SparesReached, h])
  | .ok names =>
    decidable_of_iff (∀ n ∈ names, OwnName mb.unicode s n) (by simp [SparesReached, h])

/-- A call that spares the addressees, unless it is refused. -/
def Spares (mb : Mailbox) (op : Operation) (s : InMemoryStore) : Prop :=
  op.Accepted mb s → op.GroupsUsable ∧ op.SparesStored mb s ∧ op.SparesReached mb s

instance (mb : Mailbox) (op : Operation) (s : InMemoryStore) : Decidable (op.Spares mb s) :=
  inferInstanceAs (Decidable (_ → _))

end Operation

/-- Every profile in the directory can be used. -/
def AllUsable (s : InMemoryStore) : Prop :=
  ∀ key actor, s.actors.lookup key = some actor → usableGroups actor.profile = true

/-- The context can be built exactly when every profile can be used. -/
theorem contextIn_ok_iff_usable (mb : Mailbox) (s : InMemoryStore) :
    (∃ ctx, mb.contextIn s = .ok ctx) ↔ AllUsable s := by
  constructor
  · rintro ⟨ctx, hctx⟩ key actor hactor
    have hmembers := ((mb.contextIn_ok_iff s ctx).mp hctx).2
    have hlist := (groupMemberships_ok_iff mb.unicode s.actors.values).mp ⟨_, hmembers⟩
    have hmem : actor ∈ s.actors.values := (Dict.mem_values _ _).mpr ⟨key, hactor⟩
    exact (listable_iff mb.unicode actor).mp (hlist actor hmem)
  · intro h
    have hlist : ∀ actor ∈ s.actors.values, Listable mb.unicode actor := by
      intro actor hactor
      have hfound := (s.mem_actorList actor).mp hactor
      exact (listable_iff mb.unicode actor).mpr (h actor.name actor hfound)
    obtain ⟨memberships, hmembers⟩ :=
      (groupMemberships_ok_iff mb.unicode s.actors.values).mpr hlist
    exact ⟨⟨_, memberships⟩, (mb.contextIn_ok_iff s _).mpr ⟨rfl, hmembers⟩⟩

/-- A consistent store in which every profile can be used and every addressee of a
stored message has its name to itself. -/
structure Faithful (mb : Mailbox) (s : InMemoryStore) : Prop where
  consistent : Consistent s
  usable : AllUsable s
  own : ∀ id obj, s.objects.lookup id = some obj →
    ∀ n, n ∈ obj.to_ ∨ n ∈ obj.cc → OwnName mb.unicode s n

/-- Whom an actor's name resolves to: whoever declares it, or the actor when nobody does. -/
theorem mem_expand_actor {mb : Mailbox} {s : InMemoryStore} (h : Consistent s) {ctx : Context}
    (hctx : mb.contextIn s = .ok ctx) {n : String} (hn : n ∈ s.actors) (x : String) :
    x ∈ expand ctx n ↔
      (∃ actor ∈ s.actors.values, actor.name = x ∧ Declares mb.unicode actor n) ∨
        (x = n ∧ ∀ actor ∈ s.actors.values, ¬ Declares mb.unicode actor n) := by
  obtain ⟨hnames, hmembers⟩ := (mb.contextIn_ok_iff s ctx).mp hctx
  have hkey : n ∈ ctx.memberships ↔
      ∃ actor ∈ s.actors.values, Declares mb.unicode actor n := by
    rw [mem_groupMemberships hmembers]
    constructor
    · rintro (⟨actor, hactor, hgroup, _⟩ | hdeclares)
      · have htype := h.service actor.name actor ((s.mem_actorList actor).mp hactor)
        simp [ActorRecord.isGroup, htype] at hgroup
      · exact hdeclares
    · exact Or.inr
  unfold expand
  rw [if_neg (h.usable n hn).not_everyone]
  cases hlookup : ctx.memberships.lookup n with
  | none =>
    have hnobody : ∀ actor ∈ s.actors.values, ¬ Declares mb.unicode actor n := by
      intro actor hactor hdeclares
      have hmem := hkey.mpr ⟨actor, hactor, hdeclares⟩
      rw [Dict.mem_iff_lookup, hlookup] at hmem
      simp at hmem
    have hlisted : n ∈ ctx.allActors := by
      rw [hnames]
      exact (s.mem_actorNames n).mpr hn
    simp only [hlisted, if_true, Finset.mem_singleton]
    constructor
    · exact fun hx => Or.inr ⟨hx, hnobody⟩
    · rintro (⟨actor, hactor, _, hdeclares⟩ | ⟨hx, _⟩)
      · exact absurd hdeclares (hnobody actor hactor)
      · exact hx
  | some members =>
    have hsomebody := hkey.mp ((Dict.mem_iff_lookup _ _).mpr ⟨members, hlookup⟩)
    have hof : x ∈ members ↔ x ∈ membersOf ctx.memberships n := by simp [membersOf, hlookup]
    change x ∈ members ↔ _
    rw [hof, mem_membersOf hmembers]
    constructor
    · rintro ⟨actor, hactor, hx, hdeclares⟩
      exact Or.inl ⟨actor, hactor, hx.symm, hdeclares⟩
    · rintro (⟨actor, hactor, hx, hdeclares⟩ | ⟨_, hnobody⟩)
      · exact ⟨actor, hactor, hx.symm, hdeclares⟩
      · obtain ⟨actor, hactor, hdeclares⟩ := hsomebody
        exact absurd hdeclares (hnobody actor hactor)

/-- An actor that has its name to itself is what its name resolves to. -/
theorem sound_of_ownName {mb : Mailbox} {s : InMemoryStore} (h : Consistent s) {ctx : Context}
    (hctx : mb.contextIn s = .ok ctx) {n : String} (hn : n ∈ s.actors)
    (hown : OwnName mb.unicode s n) : Sound ctx n := by
  unfold Sound
  ext x
  rw [mem_expand_actor h hctx hn, Finset.mem_singleton]
  constructor
  · rintro (⟨actor, hactor, rfl, hdeclares⟩ | ⟨hx, _⟩)
    · exact hown actor hactor hdeclares
    · exact hx
  · rintro rfl
    by_cases hnobody : ∀ actor ∈ s.actors.values, ¬ Declares mb.unicode actor x
    · exact Or.inr ⟨rfl, hnobody⟩
    · push Not at hnobody
      obtain ⟨actor, hactor, hdeclares⟩ := hnobody
      exact Or.inl ⟨actor, hactor, hown actor hactor hdeclares, hdeclares⟩

/-! ## One step -/

lemma ownName_putActor {u : Unicode} {s : InMemoryStore} {actor : ActorRecord} {n : String}
    (hown : OwnName u s n) (hactor : Declares u actor n → actor.name = n) :
    OwnName u (s.putActor actor) n := by
  intro found hfound hdeclares
  rw [InMemoryStore.mem_actorList, InMemoryStore.putActor_actors, Dict.lookup_set] at hfound
  split_ifs at hfound with hkey
  · cases hfound
    exact hactor hdeclares
  · exact hown found ((s.mem_actorList found).mpr hfound) hdeclares

lemma ownName_congr {u : Unicode} {s s' : InMemoryStore} (h : s'.actors = s.actors) {n : String} :
    OwnName u s' n ↔ OwnName u s n := by simp [OwnName, h]

/-- A record whose profile has no `groups` declares nothing, and can be used. -/
lemma no_groups (u : Unicode) {actor : ActorRecord} (h : "groups" ∉ actor.profile) :
    usableGroups actor.profile = true ∧ ∀ n, ¬ Declares u actor n := by
  have hnone : actor.profile.lookup "groups" = none := AList.lookup_eq_none.mpr h
  constructor
  · simp [usableGroups, hnone]
  · rintro n ⟨groups, hgroups, hn⟩
    simp [declaredGroups, hnone] at hgroups
    simp [hgroups] at hn

theorem Faithful.putActor {mb : Mailbox} {s : InMemoryStore} (h : Faithful mb s)
    {actor : ActorRecord} (hconsistent : Consistent (s.putActor actor))
    (hprofile : usableGroups actor.profile = true)
    (hspares : ∀ id obj, s.objects.lookup id = some obj →
      ∀ n, n ∈ obj.to_ ∨ n ∈ obj.cc → Declares mb.unicode actor n → actor.name = n) :
    Faithful mb (s.putActor actor) := by
  refine ⟨hconsistent, fun key found hfound => ?_, fun id obj hobj n hn => ?_⟩
  · rw [InMemoryStore.putActor_actors, Dict.lookup_set] at hfound
    split_ifs at hfound with hkey
    · cases hfound
      exact hprofile
    · exact h.usable key found hfound
  · exact ownName_putActor (h.own id obj hobj n hn) (hspares id obj hobj n hn)

/-- A step that spares the addressees keeps the store faithful. -/
theorem Faithful.step {mb : Mailbox} {s : InMemoryStore} {op : Operation} (h : Faithful mb s)
    (hadm : op.Admissible s) (hspares : op.Spares mb s) : Faithful mb (op.step mb s).2 := by
  have hconsistent := h.consistent.step mb hadm
  have hchange := step_change mb hadm
  generalize hanswer : (op.step mb s).1 = answer at hchange
  generalize (op.step mb s).2 = s' at hchange hconsistent ⊢
  cases hchange with
  | unchanged => exact h
  | created actor _ _ _ hgroups _ =>
    obtain ⟨hprofile, hdeclares⟩ := no_groups mb.unicode hgroups
    exact h.putActor hconsistent hprofile fun _ _ _ n _ hn => absurd hn (hdeclares n)
  | profiled caller profile now actor hop hactor =>
    subst hop
    obtain ⟨husable, hstored, _⟩ := hspares (Operation.accepted_of_ok hanswer)
    refine h.putActor hconsistent husable fun id obj hobj n hn hdeclares => ?_
    have hid := s.object_key id obj hobj
    have hlisted : obj ∈ s.objectList := (s.mem_objectList obj).mpr (by rw [hid, hobj])
    have hlocal := hstored obj hlisted n (List.mem_append.mpr hn) hdeclares
    rw [((mb.actorIn_ok_iff s caller actor).mp hactor).1] at hlocal
    exact Except.ok.inj hlocal
  | sent caller draft stamp obj hmint hdraft hobj =>
    refine ⟨hconsistent, h.usable, fun id found hfound n hn => ?_⟩
    rw [InMemoryStore.addObject_objects, Dict.lookup_set] at hfound
    split_ifs at hfound with hid
    · cases hfound
      obtain ⟨actor, recipients, copies, ctx, hactor, hto, hcc, hctx, _, rfl⟩ :=
        (mb.sendIn_ok_iff s caller draft stamp obj).mp hobj
      have hn := (mem_compose ctx _ recipients copies _ draft stamp n).mp hn
      have hlocal := ((mb.actorIn_ok_iff s caller actor).mp hactor).1
      have hnames : op.reached mb s =
          .ok (resolveAudience ctx (recipients ++ copies) \ {actor.name}) := by
        simp [Operation.reached, hdraft, hlocal, hto, hcc, hctx]
      obtain ⟨_, _, hreached⟩ := hspares (Operation.accepted_of_ok hanswer)
      exact hreached _ hnames n (by simpa using hn)
    · exact h.own id found hfound n hn
  | consumed caller objectId now actor obj _ _ _ =>
    refine ⟨hconsistent, by simpa [AllUsable] using h.usable, fun id found hfound n hn => ?_⟩
    rw [InMemoryStore.markRead_objects] at hfound
    exact (ownName_congr (s.markRead_actors _)).mpr (h.own id found hfound n hn)
  | expired now doomed _ _ _ =>
    refine ⟨hconsistent, by simpa [AllUsable] using h.usable, fun id found hfound n hn => ?_⟩
    rw [InMemoryStore.lookup_removeObjects] at hfound
    split_ifs at hfound with hid
    exact (ownName_congr (s.removeObjects_actors _)).mpr (h.own id found hfound n hn)

theorem faithful_empty (mb : Mailbox) : Faithful mb .empty where
  consistent := consistent_empty
  usable key actor h := by simp [InMemoryStore.empty] at h
  own id obj h := by simp [InMemoryStore.empty] at h

/-- A message that is stored before and after a step is the same record. -/
theorem lookup_step {mb : Mailbox} {s : InMemoryStore} {op : Operation} (hadm : op.Admissible s)
    {obj : ObjectRecord} (hobj : s.objects.lookup obj.id = some obj)
    (hstill : obj.id ∈ (op.step mb s).2.objects) :
    (op.step mb s).2.objects.lookup obj.id = some obj := by
  have hchange := step_change mb hadm
  generalize (op.step mb s).1 = answer at hchange
  generalize (op.step mb s).2 = s' at hchange hstill ⊢
  cases hchange with
  | unchanged => exact hobj
  | created => exact hobj
  | profiled => exact hobj
  | sent caller draft stamp new hmint _ hnew =>
    have hid : obj.id ≠ new.id := by
      intro heq
      rw [(mb.sendIn_spec hnew).id_eq] at heq
      exact hadm.fresh hmint ((Dict.mem_iff_lookup _ _).mpr ⟨obj, heq ▸ hobj⟩)
    rw [InMemoryStore.addObject_objects, Dict.lookup_set, if_neg hid]
    exact hobj
  | consumed => simpa using hobj
  | expired now doomed =>
    have hkept := ((InMemoryStore.mem_removeObjects s _ _).mp hstill).1
    rw [InMemoryStore.lookup_removeObjects, if_neg hkept]
    exact hobj

/-- A successful sending stores the record it returns. -/
theorem lookup_sent {mb : Mailbox} {s : InMemoryStore} {op : Operation} (hadm : op.Admissible s)
    (hsend : op.minted.isSome = true) {obj : ObjectRecord}
    (hok : (op.step mb s).1 = .ok (.message obj)) :
    (op.step mb s).2.objects.lookup obj.id = some obj := by
  have hchange := step_change mb hadm
  rw [hok] at hchange
  generalize (op.step mb s).2 = s' at hchange ⊢
  cases hchange with
  | unchanged _ hunchanged =>
    obtain ⟨e, he⟩ := hunchanged hsend
    simp at he
  | sent => simp
  | consumed caller objectId now actor obj hop _ _ =>
    subst hop
    simp [Operation.minted] at hsend

/-! ## Whole runs -/

lemma lookup_after {mb : Mailbox} {s : InMemoryStore} {ops : List Operation}
    (hadm : Throughout mb Operation.Admissible s ops) {obj : ObjectRecord}
    (hobj : s.objects.lookup obj.id = some obj)
    (hkept : Throughout mb (fun op s => obj.id ∈ (op.step mb s).2.objects) s ops) :
    (after mb s ops).objects.lookup obj.id = some obj := by
  induction ops generalizing s with
  | nil => exact hobj
  | cons op ops ih => exact ih hadm.2 (lookup_step hadm.1 hobj hkept.1) hkept.2

/-- While a message is stored it stays the record that was sent, and its parties are its
sender and the names it was stored with, in every run that spares the addressees. -/
theorem parties_frozen (mb : Mailbox) (before : List Operation) (op : Operation)
    (later : List Operation) (obj : ObjectRecord) (hsend : op.minted.isSome = true)
    (hok : (op.step mb (after mb .empty before)).1 = .ok (.message obj))
    (hrun : Throughout mb (fun op s => op.Admissible s ∧ op.Spares mb s) .empty
      (before ++ op :: later))
    (hkept : Throughout mb (fun op s => obj.id ∈ (op.step mb s).2.objects)
      (after mb .empty (before ++ [op])) later) :
    let s := after mb .empty (before ++ op :: later)
    s.objects.lookup obj.id = some obj ∧ ∃ ctx, mb.contextIn s = .ok ctx ∧
      ∀ n, isPartyTo ctx obj n = true ↔ n = obj.attributedTo ∨ n ∈ obj.to_ ∨ n ∈ obj.cc := by
  intro s
  have hfaithful : Faithful mb s := after_invariant
    (fun op s h hop => h.step hop.1 hop.2) (faithful_empty mb) hrun
  obtain ⟨_, hop, hlater⟩ := (throughout_append mb _ _ before (op :: later)).mp hrun
  have hsplit : before ++ op :: later = (before ++ [op]) ++ later := by simp
  have hobj : s.objects.lookup obj.id = some obj := by
    change (after mb .empty (before ++ op :: later)).objects.lookup obj.id = some obj
    rw [hsplit, after_append]
    rw [after_append] at hkept ⊢
    exact lookup_after (hlater.mono fun _ _ h => h.1) (lookup_sent hop.1 hsend hok) hkept
  obtain ⟨ctx, hctx⟩ := (contextIn_ok_iff_usable mb s).mpr hfaithful.usable
  refine ⟨hobj, ctx, hctx, isPartyTo_sound fun n hn => ?_⟩
  have hproper := hfaithful.consistent.proper obj.id obj hobj
  exact sound_of_ownName hfaithful.consistent hctx (hproper.addressee n hn).1
    (hfaithful.own obj.id obj hobj n hn)

/-- Three actors, and a message from the first to the second. -/
def noteToBob : List Operation :=
  [joinAs "alice", joinAs "bob", joinAs "carol",
    .send "alice" { to_ := .one "bob", body := "hi" } ⟨"m1", january 2⟩]

/-- The record of that message. -/
def noteToBobRecord : ObjectRecord where
  id := "m1"
  attributedTo := "alice"
  to_ := ["bob"]
  content := "hi"
  published := (january 2).isoformat
  document := Mailbox.documentOf ["bob"] none

/-- The third actor declares a group. -/
def carolDeclares (group : String) : Operation :=
  .updateProfile "carol" (Dict.ofList [("groups", Json.strings [group])]) (january 3)

/-- A group of an ordinary name leaves the parties as they were. -/
theorem parties_frozen_under_tools :
    ∃ ctx, asciiMailbox.contextIn (after asciiMailbox .empty
        (noteToBob ++ [carolDeclares "tools"])) = .ok ctx ∧
      ∀ n, isPartyTo ctx noteToBobRecord n = true ↔ n = "alice" ∨ n = "bob" := by
  have hfrozen := parties_frozen asciiMailbox [joinAs "alice", joinAs "bob", joinAs "carol"]
    (.send "alice" { to_ := .one "bob", body := "hi" } ⟨"m1", january 2⟩)
    [carolDeclares "tools"] noteToBobRecord (by decide) (by decide +kernel) (by decide +kernel)
    (by decide +kernel)
  obtain ⟨_, ctx, hctx, hparties⟩ := hfrozen
  refine ⟨ctx, hctx, fun n => ?_⟩
  rw [hparties n]
  simp [noteToBobRecord]

/-- A group bearing the addressee's name takes the message away from the addressee and
hands it to whoever declared the group. -/
theorem parties_change_under_captured_name :
    Throughout asciiMailbox (fun op s => op.Admissible s ∧ op.GroupsUsable) .empty
        (noteToBob ++ [carolDeclares "bob"]) ∧
      (after asciiMailbox .empty (noteToBob ++ [carolDeclares "bob"])).objects.lookup "m1" =
        some noteToBobRecord ∧
      (asciiMailbox.contextIn (after asciiMailbox .empty
          (noteToBob ++ [carolDeclares "bob"]))).map (fun ctx =>
        (isPartyTo ctx noteToBobRecord "bob", isPartyTo ctx noteToBobRecord "carol")) =
      .ok (false, true) := by
  refine ⟨?_, ?_, ?_⟩ <;> decide +kernel

end AgentMailbox
