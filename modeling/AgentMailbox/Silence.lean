import AgentMailbox.Posting
import AgentMailbox.Sending

/-!
# No silent success

Who hears a message is decided by what its names resolve to, the sender apart. A name
that nobody holds is refused, so a success reaches nobody only where no name was given,
where only empty groups were, or where the sender was addressing itself.
-/
namespace AgentMailbox

/-- A key of the memberships: a group somebody has declared. -/
def IsGroup (mb : Mailbox) (s : InMemoryStore) (name : String) : Prop :=
  ∃ memberships, groupMemberships mb.unicode s.actors.values = .ok memberships ∧
    name ∈ memberships

/-- The names a sending operation addresses. -/
def Operation.addressed (mb : Mailbox) (op : Operation) (s : InMemoryStore) :
    Except Raised (List String) := do
  match ← op.drafted mb s with
  | none => return []
  | some (_, draft) => mb.localAll (draft.to_.toList ++ draft.cc)

section
variable (mb : Mailbox) (s : InMemoryStore) (op : Operation)

/-- Somebody receives the message, or it was addressed to groups alone. -/
def Heard (obj : ObjectRecord) : Prop :=
  (obj.to_ ≠ [] ∨ obj.cc ≠ []) ∨ ∃ names, op.addressed mb s = .ok names ∧ names ≠ [] ∧
    ∀ name ∈ names, name = everyone ∨ IsGroup mb s name

/-- A name is given; and the sender does not address itself by its own name, unless some
name given resolves to somebody else. -/
def AddressesOthers : Prop :=
  ∃ caller draft sender names ctx, op.drafted mb s = .ok (some (caller, draft)) ∧
    mb.local_ caller = .ok sender ∧ op.addressed mb s = .ok names ∧
    mb.contextIn s = .ok ctx ∧ names ≠ [] ∧
    ((sender ∈ names → sender = everyone ∨ IsGroup mb s sender) ∨
      ∃ name ∈ names, ∃ n ∈ expand ctx name, n ≠ sender)

variable {mb s op}

/-- What a sending that succeeds has resolved. -/
lemma sendIn_addressed {caller : String} {draft : Draft} {stamp : Stamp} {obj : ObjectRecord}
    (hdraft : op.drafted mb s = .ok (some (caller, draft)))
    (hobj : mb.sendIn s caller draft stamp = .ok obj) :
    ∃ sender names ctx, mb.local_ caller = .ok sender ∧ op.addressed mb s = .ok names ∧
      mb.contextIn s = .ok ctx ∧ (∀ name ∈ names, Known s ctx.memberships name) ∧
      ∀ n, (n ∈ obj.to_ ∨ n ∈ obj.cc) ↔ (∃ name ∈ names, n ∈ expand ctx name) ∧ n ≠ sender := by
  obtain ⟨actor, recipients, copies, ctx, hactor, hto, hcc, hctx, hknown, rfl⟩ :=
    (mb.sendIn_ok_iff s caller draft stamp obj).mp hobj
  have hnames := ((mb.contextIn_ok_iff s ctx).mp hctx).1
  refine ⟨actor.name, recipients ++ copies, ctx, ((mb.actorIn_ok_iff s caller actor).mp hactor).1,
    ?_, hctx, ?_, fun n => ?_⟩
  · simp only [Operation.addressed, hdraft, ok_bind]
    exact Mailbox.localAll_append hto hcc
  · apply (Mailbox.missingNames_eq_nil _ s ctx.memberships).mp
    rwa [← hnames]
  · rw [mem_compose, mem_resolveAudience]

/-- Somebody receives a message exactly when a name of it resolves to another than its
sender. -/
lemma received_iff {obj : ObjectRecord} {names : List String} {ctx : Context} {sender : String}
    (hreaches : ∀ n, (n ∈ obj.to_ ∨ n ∈ obj.cc) ↔
      (∃ name ∈ names, n ∈ expand ctx name) ∧ n ≠ sender) :
    (obj.to_ ≠ [] ∨ obj.cc ≠ []) ↔ ∃ name ∈ names, ∃ n ∈ expand ctx name, n ≠ sender := by
  constructor
  · intro hne
    obtain ⟨n, hn⟩ : ∃ n, n ∈ obj.to_ ∨ n ∈ obj.cc := by
      rcases hne with hne | hne
      · exact (List.exists_mem_of_ne_nil _ hne).imp fun n => Or.inl
      · exact (List.exists_mem_of_ne_nil _ hne).imp fun n => Or.inr
    obtain ⟨⟨name, hname, hexpand⟩, hother⟩ := (hreaches n).mp hn
    exact ⟨name, hname, n, hexpand, hother⟩
  · rintro ⟨name, hname, n, hexpand, hother⟩
    have hn := (hreaches n).mpr ⟨⟨name, hname, hexpand⟩, hother⟩
    exact hn.imp List.ne_nil_of_mem List.ne_nil_of_mem

/-- A known name that is nobody's group is an actor's, and resolves to it alone. -/
lemma expand_individual {ctx : Context} (hctx : mb.contextIn s = .ok ctx) {name : String}
    (hknown : Known s ctx.memberships name) (hone : ¬ (name = everyone ∨ IsGroup mb s name)) :
    expand ctx name = {name} := by
  obtain ⟨hnames, hmembers⟩ := (mb.contextIn_ok_iff s ctx).mp hctx
  push Not at hone
  have hgroup : name ∉ ctx.memberships := fun hmem => hone.2 ⟨_, hmembers, hmem⟩
  have hactor : name ∈ s.actors := (hknown.resolve_right fun h => h.elim hgroup hone.1)
  have hlisted : name ∈ ctx.allActors := by
    rw [hnames]
    exact (s.mem_actorNames name).mpr hactor
  simp only [expand, hone.1, if_false, AList.lookup_eq_none.mpr hgroup, hlisted, if_true]

/-- A sending that succeeds is heard exactly when it addresses others. -/
theorem heard_iff_of_sent {caller : String} {draft : Draft} {stamp : Stamp} {obj : ObjectRecord}
    (hdraft : op.drafted mb s = .ok (some (caller, draft)))
    (hobj : mb.sendIn s caller draft stamp = .ok obj) :
    Heard mb s op obj ↔ AddressesOthers mb s op := by
  obtain ⟨sender, names, ctx, hsender, hnames, hctx, hknown, hreaches⟩ :=
    sendIn_addressed hdraft hobj
  unfold Heard AddressesOthers
  rw [received_iff hreaches]
  constructor
  · rintro (⟨name, hname, hothers⟩ | ⟨names', hnames', hne, hgroups⟩)
    · exact ⟨caller, draft, sender, names, ctx, hdraft, hsender, hnames, hctx,
        List.ne_nil_of_mem hname, Or.inr ⟨name, hname, hothers⟩⟩
    · rw [hnames, Except.ok.injEq] at hnames'
      subst hnames'
      exact ⟨caller, draft, sender, names, ctx, hdraft, hsender, hnames, hctx, hne,
        Or.inl (hgroups sender)⟩
  · rintro ⟨caller', draft', sender', names', ctx', hdraft', hsender', hnames', hctx', hne, hcase⟩
    rw [hdraft, Except.ok.injEq, Option.some.injEq, Prod.mk.injEq] at hdraft'
    obtain ⟨rfl, rfl⟩ := hdraft'
    rw [hsender, Except.ok.injEq] at hsender'
    rw [hnames, Except.ok.injEq] at hnames'
    rw [hctx, Except.ok.injEq] at hctx'
    subst hsender' hnames' hctx'
    rcases hcase with hself | hothers
    · by_cases hall : ∀ name ∈ names, name = everyone ∨ IsGroup mb s name
      · exact Or.inr ⟨names, hnames, hne, hall⟩
      · -- an individual is addressed, and it is not the sender
        push Not at hall
        obtain ⟨name, hname, hone⟩ := hall
        have hexpand := expand_individual hctx (hknown name hname) (by push Not; exact hone)
        refine Or.inl ⟨name, hname, name, by rw [hexpand]; exact Finset.mem_singleton_self name, ?_⟩
        rintro rfl
        exact (hself hname).elim hone.1 hone.2
    · exact Or.inl hothers

/-- A successful call of a sending operation on the mailbox itself. -/
theorem heard_iff_of_step {obj : ObjectRecord} {s' : InMemoryStore}
    (hop : op.minted.isSome = true) (h : op.step mb s = (.ok (.message obj), s')) :
    (Heard mb s op obj ↔ AddressesOthers mb s op) ∧ s' = s.addObject obj := by
  obtain ⟨caller, draft, stamp, sent, hresult, hdraft, hobj, hstored⟩ := step_sends mb hop h
  cases hresult
  exact ⟨heard_iff_of_sent hdraft hobj, hstored⟩

end

/-- A success is heard exactly when it addresses others, whichever way the message came:
by a send or a reply of the mailbox, of the house, or through an outbox. -/
theorem heard_iff_addresses_others {μ : Type} (api : Api μ) (s : HouseState μ) :
    (∀ (op : Operation) (obj : ObjectRecord) (s' : InMemoryStore), op.minted.isSome = true →
      op.step api.house.mailbox s.store = (.ok (.message obj), s') →
      (Heard api.house.mailbox s.store op obj ↔ AddressesOthers api.house.mailbox s.store op) ∧
        s' = s.store.addObject obj) ∧
    (∀ (op : Operation) (obj : ObjectRecord) (s' : HouseState μ), op.minted.isSome = true →
      api.house.step op s = (.ok (.message obj), s') →
      (Heard api.house.mailbox s.store op obj ↔ AddressesOthers api.house.mailbox s.store op) ∧
        s'.store = s.store.addObject obj) ∧
    ∀ (name : String) (body : Json) (caller : String) (stamp : Stamp) (response : Response)
      (s' : HouseState μ), api.serve (.outbox name body caller stamp) s = (.ok response, s') →
      ∃ op obj note, api.posted name body caller stamp = .ok op ∧ api.wire.note obj = .ok note ∧
        response = .note note ∧
        (Heard api.house.mailbox s.store op obj ↔ AddressesOthers api.house.mailbox s.store op) ∧
        s'.store = s.store.addObject obj := by
  refine ⟨fun op obj s' hop h => heard_iff_of_step hop h,
    fun op obj s' hop h => heard_iff_of_step hop (House.step_ok h), ?_⟩
  intro name body caller stamp response s' h
  cases hposted : api.posted name body caller stamp with
  | error e =>
    rw [Api.serve_outbox_refused hposted] at h
    cases h
  | ok op =>
    obtain ⟨hstate, hanswer⟩ := Api.serve_outbox hposted s
    rw [h] at hstate hanswer
    obtain ⟨obj, note, hobj, hnote, hresponse⟩ := hanswer response rfl
    have hstep : api.house.step op s = (.ok (.message obj), s') := Prod.ext hobj hstate.symm
    have hop : op.minted.isSome = true := by simp [Api.posted_minted hposted]
    obtain ⟨hheard, hstored⟩ := heard_iff_of_step hop (House.step_ok hstep)
    exact ⟨op, obj, note, rfl, hnote, hresponse, hheard, hstored⟩

/-! ## Letters that nobody hears -/

/-- A letter of alice's to these names. -/
def letterTo (names : List String) : Operation :=
  .send "alice" { to_ := .many names, body := "hello?" } ⟨"m1", january 2⟩

/-- The record of the letter, stored for nobody. -/
def unheardLetter (names : List String) : ObjectRecord where
  id := "m1"
  attributedTo := "alice"
  content := "hello?"
  published := (january 2).isoformat
  document := Mailbox.documentOf names none

/-- Where only alice has joined. -/
def aliceAlone : InMemoryStore := after asciiMailbox .empty [joinAs "alice"]

/-- A letter without recipients, and one to oneself, are reported as sent and not heard. -/
theorem unheard_letters_succeed : Reachable asciiMailbox aliceAlone ∧
    ∀ names ∈ [[], ["alice"]],
      ((letterTo names).step asciiMailbox aliceAlone).1 = .ok (.message (unheardLetter names)) ∧
        ¬ Heard asciiMailbox aliceAlone (letterTo names) (unheardLetter names) := by
  refine ⟨reachable_after .empty ⟨trivial, trivial⟩, ?_⟩
  have hsent : ∀ names ∈ [[], ["alice"]],
      ((letterTo names).step asciiMailbox aliceAlone).1 = .ok (.message (unheardLetter names)) ∧
        (letterTo names).addressed asciiMailbox aliceAlone = .ok names := by decide +kernel
  have hgroups : groupMemberships asciiMailbox.unicode aliceAlone.actors.values = .ok ∅ := by
    decide +kernel
  intro names hnames
  refine ⟨(hsent names hnames).1, ?_⟩
  rintro ((hto | hcc) | ⟨names', hnames', hne, hall⟩)
  · exact hto rfl
  · exact hcc rfl
  · rw [(hsent names hnames).2, Except.ok.injEq] at hnames'
    subst hnames'
    have halone : names = ["alice"] := by simpa [hne] using hnames
    subst halone
    rcases hall "alice" (List.mem_singleton_self _) with heveryone | ⟨memberships, hmembers, hmem⟩
    · exact absurd heveryone (by decide)
    · rw [hgroups, Except.ok.injEq] at hmembers
      subst hmembers
      exact AList.notMem_empty _ hmem

/-- A letter to the group that bob has declared is heard. -/
theorem letter_to_tools_heard : ∃ obj,
    ((letterTo ["tools"]).step asciiMailbox bobInTools).1 = .ok (.message obj) ∧
      Heard asciiMailbox bobInTools (letterTo ["tools"]) obj := by
  set letter : ObjectRecord :=
    { unheardLetter ["tools"] with to_ := ["bob"] } with hletter
  have hsent : ((letterTo ["tools"]).step asciiMailbox bobInTools).1 = .ok (.message letter) := by
    decide +kernel
  have hiff := ((heard_iff_addresses_others asciiApi ⟨bobInTools, {}⟩).1 (letterTo ["tools"])
    letter _ rfl (Prod.ext hsent rfl)).1
  refine ⟨letter, hsent, hiff.mpr ?_⟩
  refine ⟨"alice", { to_ := .many ["tools"], body := "hello?" }, "alice", ["tools"],
    ⟨["alice", "bob"], Dict.ofList [("tools", {"bob"})]⟩, rfl, ?_, ?_, ?_, by decide, Or.inr ?_⟩
  · decide +kernel
  · decide +kernel
  · decide +kernel
  · exact ⟨"tools", by decide, "bob", by decide +kernel, by decide⟩

end AgentMailbox
