import AgentMailbox.Operations

/-!
# What each operation can call

Only a sending adds a message and only an expiry removes any. The programs of all other
operations make none of those calls, whatever they are answered.
-/
namespace AgentMailbox

/-- The calls that leave the messages alone. -/
def LeavesMessages : StoreCall → Prop
  | .addObject _ => False
  | .removeObjects _ => False
  | _ => True

lemma writes_or_leaves (c : StoreCall) :
    (∃ obj, c = .addObject obj) ∨ (∃ ids, c = .removeObjects ids) ∨ LeavesMessages c := by
  cases c with
  | addObject obj => exact Or.inl ⟨obj, rfl⟩
  | removeObjects ids => exact Or.inr (Or.inl ⟨ids, rfl⟩)
  | _ => exact Or.inr (Or.inr trivial)

lemma LeavesMessages.objects_eq {c : StoreCall} (hc : LeavesMessages c) (s : InMemoryStore) :
    (InMemoryStore.handle c s).2.objects = s.objects := by
  cases c with
  | claimName actor =>
    change (s.claimName actor).2.objects = s.objects
    unfold InMemoryStore.claimName
    split_ifs <;> rfl
  | addObject _ => exact absurd hc id
  | removeObjects _ => exact absurd hc id
  | markRead read => exact s.markRead_objects read
  | _ => rfl

/-- The calls that do not concern the messages. -/
def IgnoresMessages : StoreCall → Prop
  | .claimName _ | .getActor _ | .putActor _ | .actors => True
  | _ => False

lemma IgnoresMessages.leaves {c : StoreCall} (h : IgnoresMessages c) : LeavesMessages c := by
  cases c with
  | addObject obj => exact h
  | removeObjects ids => exact h
  | _ => trivial

lemma uses_ask {allowed : StoreCall → Prop} {c : StoreCall} (hc : allowed c) :
    (MessageStore.ask c).Uses allowed := Program.uses_perform hc

lemma ignores_requireActor (mb : Mailbox) (name : String) :
    (mb.requireActor name).Uses IgnoresMessages := by
  unfold Mailbox.requireActor
  refine Program.uses_bind (Program.uses_ofExcept _) fun resolved => ?_
  refine Program.uses_bind (uses_ask trivial) fun found => ?_
  cases found <;> simp

lemma uses_requireActor (mb : Mailbox) (name : String) :
    (mb.requireActor name).Uses LeavesMessages :=
  (ignores_requireActor mb name).mono fun _ => IgnoresMessages.leaves

lemma uses_context (mb : Mailbox) : mb.context.Uses LeavesMessages := by
  unfold Mailbox.context
  refine Program.uses_bind (uses_ask trivial) fun actors => ?_
  exact Program.uses_bind (Program.uses_ofExcept _) fun memberships => Program.uses_pure _

lemma uses_visibleObject (mb : Mailbox) (caller objectId : String) :
    (mb.visibleObject caller objectId).Uses LeavesMessages := by
  unfold Mailbox.visibleObject
  refine Program.uses_bind (uses_requireActor mb caller) fun actor => ?_
  refine Program.uses_bind (uses_ask trivial) fun found => ?_
  cases found with
  | none => exact Program.uses_throw _
  | some obj =>
    refine Program.uses_bind (uses_context mb) fun ctx => ?_
    by_cases hparty : isPartyTo ctx obj actor.name = true <;> simp [hparty]

lemma ignores_joinIssued (draw : ℕ → Naming.Draw) (now : DateTime) (remaining attempt : ℕ) :
    (Mailbox.joinIssued draw now remaining attempt).Uses IgnoresMessages := by
  induction remaining generalizing attempt with
  | zero => exact Program.uses_throw _
  | succ remaining ih =>
    unfold Mailbox.joinIssued
    refine Program.uses_bind (uses_ask trivial) fun claimed => ?_
    cases claimed with
    | true => exact Program.uses_pure _
    | false => exact ih (attempt + 1)

lemma ignores_join (mb : Mailbox) (requestedName : Option String) (draw : ℕ → Naming.Draw)
    (now : DateTime) : (mb.join requestedName draw now).Uses IgnoresMessages := by
  unfold Mailbox.join
  cases requestedName with
  | none => exact ignores_joinIssued draw now nameAttempts 0
  | some requested =>
    refine Program.uses_bind (Program.uses_ofExcept _) fun name => ?_
    refine Program.uses_bind (uses_ask trivial) fun claimed => ?_
    cases claimed <;> simp

lemma uses_join (mb : Mailbox) (requestedName : Option String) (draw : ℕ → Naming.Draw)
    (now : DateTime) : (mb.join requestedName draw now).Uses LeavesMessages :=
  (ignores_join mb requestedName draw now).mono fun _ => IgnoresMessages.leaves

lemma ignores_updateProfile (mb : Mailbox) (caller : String) (profile : JsonObject)
    (now : DateTime) : (mb.updateProfile caller profile now).Uses IgnoresMessages := by
  unfold Mailbox.updateProfile
  refine Program.uses_bind (ignores_requireActor mb caller) fun actor => ?_
  exact Program.uses_bind (uses_ask trivial) fun _ => Program.uses_pure _

lemma uses_updateProfile (mb : Mailbox) (caller : String) (profile : JsonObject)
    (now : DateTime) : (mb.updateProfile caller profile now).Uses LeavesMessages :=
  (ignores_updateProfile mb caller profile now).mono fun _ => IgnoresMessages.leaves

lemma ignores_installResident (name : String) (profile : JsonObject) (now : DateTime) :
    (Mailbox.installResident name profile now).Uses IgnoresMessages := by
  unfold Mailbox.installResident
  refine Program.uses_bind (uses_ask trivial) fun claimed => ?_
  cases claimed with
  | true => exact Program.uses_pure _
  | false =>
    refine Program.uses_bind (uses_ask trivial) fun found => ?_
    cases found <;> simp

lemma uses_installResident (name : String) (profile : JsonObject) (now : DateTime) :
    (Mailbox.installResident name profile now).Uses LeavesMessages :=
  (ignores_installResident name profile now).mono fun _ => IgnoresMessages.leaves

lemma uses_peek (mb : Mailbox) (caller : String) : (mb.peek caller).Uses LeavesMessages := by
  unfold Mailbox.peek Mailbox.readBy
  refine Program.uses_bind (uses_requireActor mb caller) fun actor => ?_
  refine Program.uses_bind (uses_context mb) fun ctx => ?_
  refine Program.uses_bind (uses_ask trivial) fun objects => ?_
  refine Program.uses_bind ?_ fun read => Program.uses_pure _
  exact Program.uses_bind (uses_ask trivial) fun reads => Program.uses_pure _

lemma uses_unreadCount (mb : Mailbox) (caller : String) :
    (mb.unreadCount caller).Uses LeavesMessages := by
  unfold Mailbox.unreadCount
  exact Program.uses_bind (uses_peek mb caller) fun _ => Program.uses_pure _

lemma uses_thread (mb : Mailbox) (caller rootId : String) :
    (mb.thread caller rootId).Uses LeavesMessages := by
  unfold Mailbox.thread
  refine Program.uses_bind (uses_requireActor mb caller) fun actor => ?_
  refine Program.uses_bind (uses_context mb) fun ctx => ?_
  exact Program.uses_bind (uses_ask trivial) fun objects => Program.uses_pure _

lemma uses_read (mb : Mailbox) (caller objectId : String) (now : DateTime) :
    (mb.read caller objectId now).Uses LeavesMessages := by
  unfold Mailbox.read
  refine Program.uses_bind (uses_requireActor mb caller) fun actor => ?_
  refine Program.uses_bind (uses_visibleObject mb caller objectId) fun obj => ?_
  exact Program.uses_bind (uses_ask trivial) fun _ => Program.uses_pure _

lemma uses_attach (ctx : Context) (sender : String) (inReplyTo : Option String) :
    (Mailbox.attach ctx sender inReplyTo).Uses LeavesMessages := by
  cases inReplyTo with
  | none => exact Program.uses_pure _
  | some parent => exact Program.uses_bind (uses_ask trivial) fun _ => Program.uses_pure _

/-- The calls that add no message. -/
def AddsNothing : StoreCall → Prop
  | .addObject _ => False
  | _ => True

lemma LeavesMessages.addsNothing {c : StoreCall} (h : LeavesMessages c) : AddsNothing c := by
  cases c with
  | addObject obj => exact absurd h id
  | _ => trivial

lemma uses_expire (mb : Mailbox) (now : DateTime) : (mb.expire now).Uses AddsNothing := by
  unfold Mailbox.expire
  split_ifs
  · exact Program.uses_pure _
  · refine Program.uses_bind (Program.uses_ofExcept _) fun cutoff => ?_
    refine Program.uses_bind (Program.uses_perform trivial) fun objects => ?_
    dsimp only
    split_ifs
    · exact Program.uses_pure _
    · exact Program.uses_perform trivial

/-- Everything but sending and expiry leaves the messages alone. -/
theorem uses_program (mb : Mailbox) {op : Operation} (hmint : op.minted = none)
    (hexpire : ∀ now, op ≠ .expire now) : (op.program mb).Uses LeavesMessages := by
  cases op with
  | join requestedName draw now => exact Program.uses_map (uses_join mb requestedName draw now) _
  | whois name => exact Program.uses_map (uses_ask (c := .getActor name) trivial) _
  | directory => exact Program.uses_map (uses_ask (c := .actors) trivial) _
  | updateProfile caller profile now =>
    exact Program.uses_map (uses_updateProfile mb caller profile now) _
  | installResident name profile now =>
    exact Program.uses_map (uses_installResident name profile now) _
  | send caller draft stamp => simp [Operation.minted] at hmint
  | reply caller objectId body subject stamp => simp [Operation.minted] at hmint
  | peek caller => exact Program.uses_map (uses_peek mb caller) _
  | unreadCount caller => exact Program.uses_map (uses_unreadCount mb caller) _
  | read caller objectId now => exact Program.uses_map (uses_read mb caller objectId now) _
  | thread caller rootId => exact Program.uses_map (uses_thread mb caller rootId) _
  | view caller objectId => exact Program.uses_map (uses_visibleObject mb caller objectId) _
  | expire now => exact absurd rfl (hexpire now)

/-- What leaves the messages alone leaves them all as they were. -/
theorem objects_of_uses {α : Type} {p : StoreProgram α} (hp : p.Uses LeavesMessages)
    (s : InMemoryStore) : (p.run InMemoryStore.handle s).2.objects = s.objects := by
  induction p generalizing s with
  | ret a => rfl
  | raise e => rfl
  | call c next ih =>
    obtain ⟨hc, hnext⟩ := (Program.uses_call_iff c next).mp hp
    exact (ih _ (hnext _) _).trans (hc.objects_eq s)

end AgentMailbox
