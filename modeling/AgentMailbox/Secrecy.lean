import AgentMailbox.Parties

/-!
# What hidden messages can tell

Two states look the same to a caller when they have one directory and hold the same
messages that the caller is party to. A thread view lists those of them that belong to
one conversation, and which conversation a message belongs to is decided by a walk
through all that is stored. So a view tells where hidden links lead, and nothing else
about what is hidden.
-/
namespace AgentMailbox

/-- The caller sent the message or receives it. -/
def PartyIn (mb : Mailbox) (s : InMemoryStore) (caller : String) (obj : ObjectRecord) : Prop :=
  ∃ me ctx, mb.local_ caller = .ok me ∧ mb.contextIn s = .ok ctx ∧ isPartyTo ctx obj me = true

/-- The two states differ, if at all, in messages the caller is not party to, and in
read-state. -/
structure SameTo (mb : Mailbox) (caller : String) (s t : InMemoryStore) : Prop where
  directory : t.actors = s.actors
  messages : ∀ obj, PartyIn mb s caller obj →
    (s.objects.lookup obj.id = some obj ↔ t.objects.lookup obj.id = some obj)

/-- The same of the caller's messages belong to the conversation of `rootId`. -/
def SameConversation (mb : Mailbox) (caller rootId : String) (s t : InMemoryStore) : Prop :=
  ∀ obj, PartyIn mb s caller obj → s.objects.lookup obj.id = some obj →
    (threadRoot s.objectList obj.id = rootId ↔ threadRoot t.objectList obj.id = rootId)

/-- From `id` upwards, every reply link of `s` is one of `t`. -/
def LinksAbove (s t : InMemoryStore) (id : String) : Prop :=
  ∀ above, Relation.ReflTransGen (fun x y => s.replyTo x = some y) id above →
    t.replyTo above = s.replyTo above

namespace Mailbox

theorem contextIn_congr (mb : Mailbox) {s t : InMemoryStore} (h : t.actors = s.actors) :
    mb.contextIn t = mb.contextIn s := by
  unfold contextIn
  rw [h]

theorem actorIn_congr (mb : Mailbox) {s t : InMemoryStore} (h : t.actors = s.actors)
    (caller : String) : mb.actorIn t caller = mb.actorIn s caller := by
  unfold actorIn
  rw [h]

end Mailbox

/-- Only actors are party to what is stored. -/
theorem party_stored {mb : Mailbox} {s : InMemoryStore} (h : Consistent s) {ctx : Context}
    (hctx : mb.contextIn s = .ok ctx) {obj : ObjectRecord} {me : String}
    (hobj : s.objects.lookup obj.id = some obj) (hparty : isPartyTo ctx obj me = true) :
    me ∈ s.actors := by
  rw [isPartyTo, Bool.or_eq_true, decide_eq_true_eq] at hparty
  rcases hparty with rfl | hdelivered
  · exact (h.proper obj.id obj hobj).sender
  · rw [deliversTo, decide_eq_true_eq] at hdelivered
    obtain ⟨hresolved, _⟩ := Finset.mem_sdiff.mp hdelivered
    obtain ⟨name, _, hname⟩ := (mem_resolveAudience ctx _ me).mp hresolved
    exact expand_stored hctx hname

/-- A root reached by links that both states have is the root in both. -/
theorem threadRoot_of_linksAbove {s t : InMemoryStore} (hs : s.Forest) (ht : t.Forest)
    {id : String} (hlinks : LinksAbove s t id) :
    threadRoot t.objectList id = threadRoot s.objectList id := by
  obtain ⟨hpath, hroot⟩ := InMemoryStore.threadRoot_isRoot hs id
  refine ParentPointers.isRoot_unique (InMemoryStore.threadRoot_isRoot ht id) ⟨?_, ?_⟩
  · have hcarry : ∀ x, Relation.ReflTransGen (fun x y => s.replyTo x = some y) id x →
        Relation.ReflTransGen (fun x y => t.replyTo x = some y) id x := by
      intro x hx
      induction hx with
      | refl => exact .refl
      | tail hpre hstep ih => exact ih.tail ((hlinks _ hpre).trans hstep)
    exact hcarry _ hpath
  · rw [hlinks _ hpath]
    exact hroot

/-- Two views of a thread are the same exactly when the same visible messages belong to it. -/
theorem visibleTurns_eq_iff (ctx : Context) (me rootId : String) {s t : InMemoryStore}
    (hsame : ∀ obj, isPartyTo ctx obj me = true →
      (s.objects.lookup obj.id = some obj ↔ t.objects.lookup obj.id = some obj)) :
    visibleTurns ctx s.objectList rootId me = visibleTurns ctx t.objectList rootId me ↔
      ∀ obj, isPartyTo ctx obj me = true → s.objects.lookup obj.id = some obj →
        (threadRoot s.objectList obj.id = rootId ↔ threadRoot t.objectList obj.id = rootId) := by
  simp only [visibleTurns, threadMembers, List.filter_filter, InMemoryStore.filter_objectList_eq,
    Bool.and_eq_true, decide_eq_true_eq]
  constructor
  · intro hiff obj hparty hobj
    have hobj' := (hsame obj hparty).mp hobj
    constructor
    · intro hroot
      exact ((hiff obj).mp ⟨hobj, hparty, hroot⟩).2.2
    · intro hroot
      exact ((hiff obj).mpr ⟨hobj', hparty, hroot⟩).2.2
  · intro hconv obj
    constructor
    · rintro ⟨hobj, hparty, hroot⟩
      exact ⟨(hsame obj hparty).mp hobj, hparty, (hconv obj hparty hobj).mp hroot⟩
    · rintro ⟨hobj', hparty, hroot⟩
      have hobj := (hsame obj hparty).mpr hobj'
      exact ⟨hobj, hparty, (hconv obj hparty hobj).mpr hroot⟩

/-- Whom a caller's messages are judged for, when the caller has joined. -/
theorem partyIn_iff {mb : Mailbox} {s : InMemoryStore} {caller me : String} {ctx : Context}
    (hlocal : mb.local_ caller = .ok me) (hctx : mb.contextIn s = .ok ctx) (obj : ObjectRecord) :
    PartyIn mb s caller obj ↔ isPartyTo ctx obj me = true := by
  constructor
  · rintro ⟨me', ctx', hlocal', hctx', hparty⟩
    rw [hlocal] at hlocal'
    rw [hctx] at hctx'
    cases hlocal'
    cases hctx'
    exact hparty
  · exact fun hparty => ⟨me, ctx, hlocal, hctx, hparty⟩

/-- Sameness can be read off the two listings. -/
theorem sameTo_of_listings {mb : Mailbox} {s t : InMemoryStore} {caller : String}
    (me : String) (ctx : Context) (hdirectory : t.actors = s.actors)
    (hlocal : mb.local_ caller = .ok me) (hctx : mb.contextIn s = .ok ctx)
    (hlists : s.objectList.filter (isPartyTo ctx · me) = t.objectList.filter (isPartyTo ctx · me)) :
    SameTo mb caller s t := by
  refine ⟨hdirectory, fun obj hparty => ?_⟩
  have hparty := (partyIn_iff hlocal hctx obj).mp hparty
  have hiff := (InMemoryStore.filter_objectList_eq s t _ _).mp hlists obj
  constructor
  · exact fun hobj => (hiff.mp ⟨hobj, hparty⟩).1
  · exact fun hobj => (hiff.mpr ⟨hobj, hparty⟩).1

/-- Somebody who cannot be found is party to nothing that is stored. -/
theorem not_partyIn_of_error {mb : Mailbox} {s : InMemoryStore} (h : Consistent s)
    {caller : String} {e : Raised} (herror : mb.actorIn s caller = .error e) {obj : ObjectRecord}
    (hobj : s.objects.lookup obj.id = some obj) : ¬ PartyIn mb s caller obj := by
  rintro ⟨me, ctx, hlocal, hctx, hparty⟩
  obtain ⟨actor, hactor⟩ := (Dict.mem_iff_lookup _ _).mp (party_stored h hctx hobj hparty)
  have hname := s.actor_key me actor hactor
  have hfound := (mb.actorIn_ok_iff s caller actor).mpr (by rw [hname]; exact ⟨hlocal, hactor⟩)
  rw [herror] at hfound
  cases hfound

/-- Of two states that look the same to a caller, the caller's view of a thread is the same
exactly when the same of its messages belong to that thread; and they do whenever the links
above its messages are the same, however else the hidden messages differ. -/
theorem thread_same_iff (mb : Mailbox) (caller rootId : String) (s t : InMemoryStore)
    (hs : Reachable mb s) (ht : Reachable mb t) (hsame : SameTo mb caller s t) :
    (((Operation.thread caller rootId).step mb s).1 =
        ((Operation.thread caller rootId).step mb t).1 ↔
      SameConversation mb caller rootId s t) ∧
    ((∀ obj, PartyIn mb s caller obj → s.objects.lookup obj.id = some obj →
        LinksAbove s t obj.id) → SameConversation mb caller rootId s t) := by
  refine ⟨?_, fun hlinks obj hparty hobj => ?_⟩
  · rw [Operation.step_thread, Operation.step_thread, Mailbox.threadIn, Mailbox.threadIn,
      mb.actorIn_congr hsame.directory, mb.contextIn_congr hsame.directory]
    cases hactor : mb.actorIn s caller with
    | error e =>
      refine ⟨fun _ obj hparty hobj => ?_, fun _ => rfl⟩
      exact absurd hparty (not_partyIn_of_error hs.consistent hactor hobj)
    | ok actor =>
      have hme := ((mb.actorIn_ok_iff s caller actor).mp hactor).1
      cases hctx : mb.contextIn s with
      | error e =>
        refine ⟨fun _ => ?_, fun _ => rfl⟩
        rintro obj ⟨_, ctx, _, hctx', _⟩ _
        rw [hctx] at hctx'
        cases hctx'
      | ok ctx =>
        have hviews := visibleTurns_eq_iff ctx actor.name rootId (s := s) (t := t)
          fun obj hparty => hsame.messages obj ((partyIn_iff hme hctx obj).mpr hparty)
        simp only [ok_bind, except_pure, Except.map, Except.ok.injEq, Result.messages.injEq,
          hviews, SameConversation, partyIn_iff hme hctx]
  · rw [threadRoot_of_linksAbove hs.consistent.forest ht.consistent.forest
      (hlinks obj hparty hobj)]

/-- Alice writes to bob and carol, then to bob alone, and bob answers that to both. -/
def aside (attached : Option String) : InMemoryStore :=
  after asciiMailbox .empty [joinAs "alice", joinAs "bob", joinAs "carol",
    .send "alice" { to_ := .many ["bob", "carol"], body := "one" } ⟨"m0", january 2⟩,
    .send "alice" { to_ := .one "bob", body := "two", inReplyTo := attached } ⟨"m1", january 3⟩,
    .send "bob" { to_ := .many ["alice", "carol"], body := "three", inReplyTo := some "m1" }
      ⟨"m2", january 4⟩]

/-- The same, and one more message of bob's to alice. -/
def asideAnswered : InMemoryStore :=
  after asciiMailbox (aside (some "m0")) [.reply "bob" "m1" "four" none ⟨"m3", january 5⟩]

/-- The three of them, none in a group. -/
def threeActors : Context := ⟨["alice", "bob", "carol"], ∅⟩

/-- Carol's view of the first message's thread tells whether the message she does not see
replies to it. -/
theorem thread_tells_of_hidden_link :
    Reachable asciiMailbox (aside (some "m0")) ∧ Reachable asciiMailbox (aside none) ∧
      SameTo asciiMailbox "carol" (aside (some "m0")) (aside none) ∧
      ((Operation.thread "carol" "m0").step asciiMailbox (aside (some "m0"))).1 ≠
        ((Operation.thread "carol" "m0").step asciiMailbox (aside none)).1 := by
  refine ⟨reachable_after .empty (by decide +kernel), reachable_after .empty (by decide +kernel),
    sameTo_of_listings "carol" threeActors ?_ ?_ ?_ ?_, ?_⟩ <;> decide +kernel

/-- It does not tell that the message has an answer. -/
theorem thread_hides_answer :
    ((Operation.thread "carol" "m0").step asciiMailbox asideAnswered).1 =
      ((Operation.thread "carol" "m0").step asciiMailbox (aside (some "m0"))).1 := by
  have hreach : Reachable asciiMailbox (aside (some "m0")) :=
    reachable_after .empty (by decide +kernel)
  have hreach' : Reachable asciiMailbox asideAnswered := reachable_after hreach (by decide +kernel)
  have hlocal : asciiMailbox.local_ "carol" = .ok "carol" := by decide +kernel
  have hctx : asciiMailbox.contextIn asideAnswered = .ok threeActors := by decide +kernel
  have hsame : SameTo asciiMailbox "carol" asideAnswered (aside (some "m0")) :=
    sameTo_of_listings "carol" threeActors (by decide +kernel) hlocal hctx (by decide +kernel)
  have hroots : ∀ obj ∈ asideAnswered.objectList, isPartyTo threeActors obj "carol" = true →
      (threadRoot asideAnswered.objectList obj.id = "m0" ↔
        threadRoot (aside (some "m0")).objectList obj.id = "m0") := by decide +kernel
  refine (thread_same_iff asciiMailbox "carol" "m0" _ _ hreach' hreach hsame).1.mpr ?_
  intro obj hparty hobj
  exact hroots obj ((InMemoryStore.mem_objectList _ obj).mpr hobj)
    ((partyIn_iff hlocal hctx obj).mp hparty)

end AgentMailbox
