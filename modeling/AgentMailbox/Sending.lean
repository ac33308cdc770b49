import AgentMailbox.Parties

/-!
# What can be sent

A sending looks at its caller, then at each address in turn, then at whether the names
are known, and only then stores anything. So it succeeds exactly when all of them are
good, and the first that is not decides the class of the refusal.
-/
namespace AgentMailbox

namespace Mailbox

/-- `text` is a well-formed address in reach of this mailbox, and `name` the name in it. -/
def AddressOf (mb : Mailbox) (text name : String) : Prop :=
  ∃ address, parse mb.unicode text = .ok address ∧ address.isLocalTo mb.hubName = true ∧
    address.name = name

/-- What is wrong with an address, if anything. -/
def addressFault (mb : Mailbox) (text : String) : Option ErrorClass :=
  match parse mb.unicode text with
  | .error _ => some .malformedAddress
  | .ok address => if address.isLocalTo mb.hubName then none else some .remoteMailbox

end Mailbox

/-- A name that can be addressed: an actor's, a group's, or everyone. -/
def Known (s : InMemoryStore) (memberships : Dict String (Finset String)) (name : String) : Prop :=
  name ∈ s.actors ∨ name ∈ memberships ∨ name = everyone

section
variable (mb : Mailbox) (s : InMemoryStore) (memberships : Dict String (Finset String))

/-- The caller has joined, and every address is a known name's. -/
def Sendable (caller : String) (draft : Draft) : Prop :=
  (∃ me, mb.AddressOf caller me ∧ me ∈ s.actors) ∧
    ∀ text ∈ draft.to_.toList ++ draft.cc,
      ∃ name, mb.AddressOf text name ∧ Known s memberships name

/-- The class of the refusal: that of the first thing wrong. -/
inductive SendFault (caller : String) (draft : Draft) : ErrorClass → Prop
  | caller (c : ErrorClass) (h : mb.addressFault caller = some c) : SendFault caller draft c
  | unjoined (me : String) (hme : mb.AddressOf caller me) (h : me ∉ s.actors) :
    SendFault caller draft .unknownActor
  | address (me : String) (hme : mb.AddressOf caller me) (hjoined : me ∈ s.actors) (c : ErrorClass)
      (h : (draft.to_.toList ++ draft.cc).findSome? mb.addressFault = some c) :
    SendFault caller draft c
  | unknown (me : String) (hme : mb.AddressOf caller me) (hjoined : me ∈ s.actors)
      (hreach : (draft.to_.toList ++ draft.cc).findSome? mb.addressFault = none)
      (text : String) (htext : text ∈ draft.to_.toList ++ draft.cc) (name : String)
      (hname : mb.AddressOf text name) (h : ¬ Known s memberships name) :
    SendFault caller draft .unknownRecipient

/-- What a sending comes to. -/
structure AllOrNothing (caller : String) (draft : Draft) (stamp : Stamp) : Prop where
  succeeds_iff : (∃ obj, (Operation.send caller draft stamp).step mb s =
    (.ok (.message obj), s.addObject obj)) ↔ Sendable mb s memberships caller draft
  refused : ¬ Sendable mb s memberships caller draft → ∃ e : MailboxError,
    (Operation.send caller draft stamp).step mb s = (.error (.mailbox e), s) ∧
      SendFault mb s memberships caller draft e.errorClass
  expanded : ∀ obj, ((Operation.send caller draft stamp).step mb s).1 = .ok (.message obj) →
    ∀ text ∈ draft.to_.toList ++ draft.cc, ∀ name, mb.AddressOf text name →
      ∀ n ∈ expand ⟨s.actors.values.map ActorRecord.name, memberships⟩ name,
        n ≠ obj.attributedTo → n ∈ obj.to_ ∨ n ∈ obj.cc

end

/-! ## Addresses -/

namespace Mailbox

variable {mb : Mailbox}

theorem parse_error {u : Unicode} {text : String} {e : Raised} (h : parse u text = .error e) :
    ∃ m : MailboxError, e = .mailbox m ∧ m.errorClass = .malformedAddress := by
  simp only [parse] at h
  split_ifs at h <;> cases h <;> exact ⟨_, rfl, rfl⟩

theorem local_ok_iff (text name : String) :
    mb.local_ text = .ok name ↔ mb.AddressOf text name := by
  unfold local_ localName AddressOf
  cases parse mb.unicode text with
  | error e => simp
  | ok address =>
    by_cases hlocal : address.isLocalTo mb.hubName = true
    · simp [hlocal]
    · simp [hlocal]

/-- Resolving an address fails with the class of its fault. -/
theorem local_error {text : String} {e : Raised} (h : mb.local_ text = .error e) :
    ∃ m : MailboxError, e = .mailbox m ∧ mb.addressFault text = some m.errorClass := by
  unfold local_ localName at h
  unfold addressFault
  cases hparse : parse mb.unicode text with
  | error e' =>
    rw [hparse] at h
    cases h
    obtain ⟨m, rfl, hclass⟩ := parse_error hparse
    exact ⟨m, rfl, by rw [hclass]⟩
  | ok address =>
    simp only [hparse] at h
    split_ifs at h with hlocal
    cases h
    exact ⟨_, rfl, by simp only [hlocal, Bool.false_eq_true, if_false]; rfl⟩

theorem addressFault_eq_none (text : String) :
    mb.addressFault text = none ↔ ∃ name, mb.local_ text = .ok name := by
  unfold addressFault local_ localName
  cases parse mb.unicode text with
  | error e => simp
  | ok address =>
    by_cases hlocal : address.isLocalTo mb.hubName = true
    · simp [hlocal]
    · simp [hlocal]

variable (mb) in
/-- Resolving addresses one after the other: all of them, or the first fault. -/
theorem localAll_fault (texts : List String) :
    (∃ names, mb.localAll texts = .ok names ∧ texts.findSome? mb.addressFault = none ∧
      ∀ name, name ∈ names ↔ ∃ text ∈ texts, mb.AddressOf text name) ∨
    ∃ m : MailboxError, mb.localAll texts = .error (.mailbox m) ∧
      texts.findSome? mb.addressFault = some m.errorClass := by
  unfold localAll
  induction texts with
  | nil => exact Or.inl ⟨[], rfl, rfl, by simp⟩
  | cons text texts ih =>
    rw [List.mapM_cons, List.findSome?_cons]
    cases hname : mb.local_ text with
    | error e =>
      obtain ⟨m, rfl, hfault⟩ := local_error hname
      exact Or.inr ⟨m, rfl, by rw [hfault]⟩
    | ok name =>
      rw [(addressFault_eq_none text).mpr ⟨name, hname⟩]
      rcases ih with ⟨names, hnames, hfault, hmem⟩ | ⟨m, hm, hfault⟩
      · refine Or.inl ⟨name :: names, by rw [hnames]; rfl, hfault, fun other => ?_⟩
        have hother : mb.AddressOf text other ↔ other = name := by
          rw [← local_ok_iff, hname, Except.ok.injEq, eq_comm]
        simp only [List.mem_cons, hmem, exists_eq_or_imp, hother]
      · exact Or.inr ⟨m, by rw [hm]; rfl, hfault⟩

theorem addressOf_of_fault_none {text : String} (h : mb.addressFault text = none) :
    ∃ name, mb.AddressOf text name := by
  obtain ⟨name, hname⟩ := (addressFault_eq_none text).mp h
  exact ⟨name, (local_ok_iff text name).mp hname⟩

theorem AddressOf.unique {text first second : String} (hfirst : mb.AddressOf text first)
    (hsecond : mb.AddressOf text second) : first = second := by
  rw [← local_ok_iff] at hfirst hsecond
  rw [hfirst] at hsecond
  exact Except.ok.inj hsecond

theorem localAll_append {texts copies names others : List String}
    (htexts : mb.localAll texts = .ok names) (hcopies : mb.localAll copies = .ok others) :
    mb.localAll (texts ++ copies) = .ok (names ++ others) := by
  rw [localAll, List.mapM_append]
  simp only [localAll] at htexts hcopies
  rw [htexts, hcopies]
  rfl

theorem AddressOf.fault_none {text name : String} (h : mb.AddressOf text name) :
    mb.addressFault text = none :=
  (addressFault_eq_none text).mpr ⟨name, (local_ok_iff text name).mpr h⟩

variable (mb) in
/-- The caller is looked up by the name in its address. -/
theorem actorIn_fault (s : InMemoryStore) (caller : String) :
    (∃ actor, mb.actorIn s caller = .ok actor ∧ mb.AddressOf caller actor.name ∧
      actor.name ∈ s.actors) ∨
    ∃ m : MailboxError, mb.actorIn s caller = .error (.mailbox m) ∧
      (mb.addressFault caller = some m.errorClass ∨
        m.errorClass = .unknownActor ∧ ∃ me, mb.AddressOf caller me ∧ me ∉ s.actors) := by
  unfold actorIn
  cases hme : mb.local_ caller with
  | error e =>
    obtain ⟨m, rfl, hfault⟩ := local_error hme
    exact Or.inr ⟨m, rfl, Or.inl hfault⟩
  | ok me =>
    have haddress := (local_ok_iff caller me).mp hme
    rw [ok_bind]
    cases hactor : s.actors.lookup me with
    | none => exact Or.inr ⟨_, rfl, Or.inr ⟨rfl, me, haddress, AList.lookup_eq_none.mp hactor⟩⟩
    | some actor =>
      have hname := s.actor_key me actor hactor
      refine Or.inl ⟨actor, rfl, by rwa [hname], ?_⟩
      exact (Dict.mem_iff_lookup _ _).mpr ⟨actor, by rw [hname, hactor]⟩

theorem missingNames_eq_nil (names : List String) (s : InMemoryStore)
    (memberships : Dict String (Finset String)) :
    missingNames names ⟨s.actors.values.map ActorRecord.name, memberships⟩ = [] ↔
      ∀ name ∈ names, Known s memberships name := by
  simp only [missingNames, List.filter_eq_nil_iff, Bool.not_eq_true', Bool.not_eq_false,
    Bool.or_eq_true, decide_eq_true_eq, InMemoryStore.mem_actorNames, Known, or_assoc]

end Mailbox

/-! ## All or nothing -/

section
variable {mb : Mailbox} {s : InMemoryStore} {memberships : Dict String (Finset String)}

/-- Whether a sending raises, and what, is decided by three questions in a row. -/
lemma sendIn_checks {ctx : Context} (hctx : mb.contextIn s = .ok ctx) (caller : String)
    (draft : Draft) (stamp : Stamp) :
    (mb.sendIn s caller draft stamp).map (fun _ => ()) = (do
      let _ ← mb.actorIn s caller
      let names ← mb.localAll (draft.to_.toList ++ draft.cc)
      Mailbox.rejectUnknownRecipients names ctx) := by
  have happend : mb.localAll (draft.to_.toList ++ draft.cc) = (do
      let recipients ← mb.localAll draft.to_.toList
      let copies ← mb.localAll draft.cc
      return recipients ++ copies) := List.mapM_append ..
  rw [happend, Mailbox.sendIn]
  cases mb.actorIn s caller with
  | error e => rfl
  | ok actor =>
    cases mb.localAll draft.to_.toList with
    | error e => rfl
    | ok recipients =>
      cases mb.localAll draft.cc with
      | error e => rfl
      | ok copies =>
        simp only [ok_bind, hctx, except_pure]
        cases Mailbox.rejectUnknownRecipients (recipients ++ copies) ctx <;> rfl

/-- A draft with a fault is not sendable. -/
lemma SendFault.not_sendable {caller : String} {draft : Draft} {c : ErrorClass}
    (h : SendFault mb s memberships caller draft c) :
    ¬ Sendable mb s memberships caller draft := by
  rintro ⟨⟨me, hme, hjoined⟩, hknown⟩
  cases h with
  | caller _ hfault =>
    rw [hme.fault_none] at hfault
    cases hfault
  | unjoined other hother hunjoined => exact hunjoined (hother.unique hme ▸ hjoined)
  | address _ _ _ _ hfault =>
    obtain ⟨text, htext, hc⟩ := List.exists_of_findSome?_eq_some hfault
    obtain ⟨name, hname, _⟩ := hknown text htext
    rw [hname.fault_none] at hc
    cases hc
  | unknown _ _ _ _ text htext name hname hunknown =>
    obtain ⟨other, hother, h⟩ := hknown text htext
    exact hunknown (hname.unique hother ▸ h)

variable (mb s memberships) in
/-- The three questions are answered well exactly when the draft is sendable; otherwise
the answer is the draft's fault. -/
lemma checks_fault (caller : String) (draft : Draft) :
    let checks : Except Raised Unit := do
      let _ ← mb.actorIn s caller
      let names ← mb.localAll (draft.to_.toList ++ draft.cc)
      Mailbox.rejectUnknownRecipients names
        ⟨s.actors.values.map ActorRecord.name, memberships⟩
    (Sendable mb s memberships caller draft ∧ checks = .ok ()) ∨
      ¬ Sendable mb s memberships caller draft ∧ ∃ m : MailboxError,
        checks = .error (.mailbox m) ∧ SendFault mb s memberships caller draft m.errorClass := by
  intro checks
  have hrefused : ∀ m : MailboxError, checks = .error (.mailbox m) →
      SendFault mb s memberships caller draft m.errorClass →
      ¬ Sendable mb s memberships caller draft ∧ ∃ m : MailboxError,
        checks = .error (.mailbox m) ∧ SendFault mb s memberships caller draft m.errorClass :=
    fun m hm hfault => ⟨hfault.not_sendable, m, hm, hfault⟩
  rcases mb.actorIn_fault s caller with
    ⟨actor, hactor, hme, hjoined⟩ | ⟨m, hm, hfault⟩
  · rcases mb.localAll_fault (draft.to_.toList ++ draft.cc) with
      ⟨names, hnames, hreach, hmem⟩ | ⟨m, hm, hfault⟩
    · have hchecks : checks = Mailbox.rejectUnknownRecipients names
          ⟨s.actors.values.map ActorRecord.name, memberships⟩ := by
        simp only [checks, hactor, hnames, ok_bind]
      rw [Mailbox.rejectUnknownRecipients] at hchecks
      by_cases hknown : ∀ name ∈ names, Known s memberships name
      · refine Or.inl ⟨⟨⟨_, hme, hjoined⟩, fun text htext => ?_⟩, ?_⟩
        · have hfine : mb.addressFault text = none :=
            List.findSome?_eq_none_iff.mp hreach text htext
          obtain ⟨name, hname⟩ := Mailbox.addressOf_of_fault_none hfine
          exact ⟨name, hname, hknown name ((hmem name).mpr ⟨text, htext, hname⟩)⟩
        · simp only [hchecks, (Mailbox.missingNames_eq_nil names s memberships).mpr hknown,
            if_true]
      · refine Or.inr (hrefused (.unknownRecipient (Mailbox.missingNames names
          ⟨s.actors.values.map ActorRecord.name, memberships⟩)) ?_ ?_)
        · rw [← Mailbox.missingNames_eq_nil] at hknown
          simp only [hchecks, hknown, if_false]
        · push Not at hknown
          obtain ⟨name, hname, hunknown⟩ := hknown
          obtain ⟨text, htext, haddress⟩ := (hmem name).mp hname
          exact .unknown _ hme hjoined hreach text htext name haddress hunknown
    · refine Or.inr (hrefused m ?_ (.address _ hme hjoined _ hfault))
      simp only [checks, hactor, hm, ok_bind, error_bind]
  · refine Or.inr (hrefused m ?_ ?_)
    · simp only [checks, hm, error_bind]
    · rcases hfault with hfault | ⟨hclass, me, hme, hunjoined⟩
      · exact .caller _ hfault
      · rw [hclass]
        exact .unjoined me hme hunjoined

/-- What was addressed is what was delivered to, the sender apart. -/
lemma sendIn_expanded
    (hctx : mb.contextIn s = .ok ⟨s.actors.values.map ActorRecord.name, memberships⟩)
    {caller : String} {draft : Draft} {stamp : Stamp} {obj : ObjectRecord}
    (h : mb.sendIn s caller draft stamp = .ok obj) {text name n : String}
    (htext : text ∈ draft.to_.toList ++ draft.cc) (hname : mb.AddressOf text name)
    (hn : n ∈ expand ⟨s.actors.values.map ActorRecord.name, memberships⟩ name)
    (hother : n ≠ obj.attributedTo) : n ∈ obj.to_ ∨ n ∈ obj.cc := by
  obtain ⟨actor, recipients, copies, ctx, _, hrecipients, hcopies, hctx', _, rfl⟩ :=
    (mb.sendIn_ok_iff s caller draft stamp obj).mp h
  rw [hctx] at hctx'
  cases hctx'
  have happend := Mailbox.localAll_append hrecipients hcopies
  rcases mb.localAll_fault (draft.to_.toList ++ draft.cc) with
    ⟨names, hnames, _, hmem⟩ | ⟨m, hm, _⟩
  · rw [happend] at hnames
    cases hnames
    rw [mem_compose, mem_resolveAudience]
    exact ⟨⟨name, (hmem name).mpr ⟨text, htext, hname⟩, hn⟩, hother⟩
  · rw [happend] at hm
    cases hm

/-- A sending that can build its context stores one record or nothing. -/
lemma allOrNothing_of_context
    (hctx : mb.contextIn s = .ok ⟨s.actors.values.map ActorRecord.name, memberships⟩)
    (caller : String) (draft : Draft) (stamp : Stamp) :
    AllOrNothing mb s memberships caller draft stamp := by
  have hchecks := sendIn_checks hctx caller draft stamp
  have hstep := Operation.step_send mb s caller draft stamp
  rcases checks_fault mb s memberships caller draft with
    ⟨hsendable, hok⟩ | ⟨hnot, m, hm, hfault⟩
  · rw [hok] at hchecks
    cases hobj : mb.sendIn s caller draft stamp with
    | error e => simp [hobj, Except.map] at hchecks
    | ok obj =>
      rw [hobj] at hstep
      refine ⟨⟨fun _ => hsendable, fun _ => ⟨obj, hstep⟩⟩, fun h => absurd hsendable h, ?_⟩
      intro found hfound text htext name hname n hn hother
      rw [hstep] at hfound
      cases hfound
      exact sendIn_expanded hctx hobj htext hname hn hother
  · rw [hm] at hchecks
    cases hobj : mb.sendIn s caller draft stamp with
    | ok obj => simp [hobj, Except.map] at hchecks
    | error e =>
      rw [hobj] at hchecks hstep
      cases hchecks
      refine ⟨⟨?_, fun h => absurd h hnot⟩, fun _ => ⟨m, hstep, hfault⟩, ?_⟩
      · rintro ⟨obj, hobj'⟩
        rw [hstep] at hobj'
        cases hobj'
      · intro found hfound
        rw [hstep] at hfound
        cases hfound

end

/-- Every profile says nothing about groups, or lists them as strings. -/
def ListsGroups (s : InMemoryStore) : Prop :=
  ∀ name actor, s.actors.lookup name = some actor →
    actor.profile.lookup "groups" = none ∨
      ∃ groups, actor.profile.lookup "groups" = some (Json.strings groups)

theorem ListsGroups.usable {s : InMemoryStore} (h : ListsGroups s) : AllUsable s := by
  intro name actor hactor
  unfold usableGroups
  rcases h name actor hactor with hnone | ⟨groups, hgroups⟩
  · rw [hnone]
  · rw [hgroups]
    simp [Json.listable_strings]

/-- An operation that raises leaves the store as it was; and where profiles list their
groups as strings, a sending stores one record for all it addresses, or raises the
error of the first thing wrong with it. -/
theorem failed_operations_change_nothing (mb : Mailbox) (s : InMemoryStore) :
    (∀ (op : Operation) (e : Raised), (op.step mb s).1 = .error e → (op.step mb s).2 = s) ∧
      (ListsGroups s → ∃ memberships,
        groupMemberships mb.unicode s.actors.values = .ok memberships ∧
          ∀ caller draft stamp, AllOrNothing mb s memberships caller draft stamp) := by
  refine ⟨fun op e h => step_error mb h, fun hlists => ?_⟩
  obtain ⟨ctx, hctx⟩ := (contextIn_ok_iff_usable mb s).mpr hlists.usable
  obtain ⟨hnames, hmembers⟩ := (mb.contextIn_ok_iff s ctx).mp hctx
  refine ⟨ctx.memberships, hmembers, fun caller draft stamp => ?_⟩
  apply allOrNothing_of_context
  rw [hctx, ← hnames]

/-- Alice and bob have joined, and bob has declared the group of the tools. -/
def bobInTools : InMemoryStore :=
  after asciiMailbox .empty [joinAs "alice", joinAs "bob",
    .updateProfile "bob" (Dict.ofList [("groups", Json.strings ["tools"])]) (january 2)]

lemma bobInTools_listsGroups : ListsGroups bobInTools := by
  have hactors : bobInTools.actors.values =
      [Mailbox.newActor "alice" (january 1),
        { Mailbox.newActor "bob" (january 1) with
          profile := Dict.ofList [("groups", Json.strings ["tools"])]
          lastSeen := (january 2).isoformat }] := by decide +kernel
  intro name actor hactor
  have hmem : actor ∈ bobInTools.actors.values := (Dict.mem_values _ _).mpr ⟨name, hactor⟩
  rw [hactors, List.mem_cons, List.mem_singleton] at hmem
  rcases hmem with rfl | rfl
  · exact Or.inl rfl
  · exact Or.inr ⟨["tools"], by decide +kernel⟩

/-- A letter to a group, to an actor, and to a name nobody holds. -/
def letterToThree : Draft where
  to_ := .many ["tools", "bob@local", "carol"]
  body := "hi"

/-- Beside the name that nobody holds, the group and the actor get nothing either. -/
theorem letter_to_three_unsent : ∃ e : MailboxError,
    (Operation.send "alice" letterToThree ⟨"m1", january 3⟩).step asciiMailbox bobInTools =
      (.error (.mailbox e), bobInTools) := by
  obtain ⟨memberships, hmembers, hall⟩ :=
    (failed_operations_change_nothing asciiMailbox bobInTools).2 bobInTools_listsGroups
  have hnot : ¬ Sendable asciiMailbox bobInTools memberships "alice" letterToThree := by
    rintro ⟨_, hknown⟩
    obtain ⟨name, haddress, hname⟩ := hknown "carol" (by decide)
    have hcarol : asciiMailbox.local_ "carol" = .ok "carol" := by decide +kernel
    rw [← Mailbox.local_ok_iff, hcarol, Except.ok.injEq] at haddress
    subst haddress
    have hgroups : groupMemberships asciiMailbox.unicode bobInTools.actors.values =
        .ok (Dict.ofList [("tools", {"bob"})]) := by decide +kernel
    rw [hmembers, Except.ok.injEq] at hgroups
    subst hgroups
    revert hname
    unfold Known
    decide +kernel
  obtain ⟨e, hstep, _⟩ := (hall "alice" letterToThree ⟨"m1", january 3⟩).refused hnot
  exact ⟨e, hstep⟩

end AgentMailbox
