import AgentMailbox.Parties

/-!
# What one profile can do to everybody

Every rule-driven operation first folds over all profiles. As long as each of them
can be listed, an operation answers or refuses; one profile that cannot be listed
makes all of them raise `TypeError` or `ValueError`, whoever calls.
-/
namespace AgentMailbox

/-- An answer, or an instance of `MailboxError`. -/
def Mannered {α : Type} (x : Except Raised α) : Prop :=
  ∀ e, x = .error e → e.isMailboxError = true

section
variable {α β : Type}

lemma mannered_ok (a : α) : Mannered (.ok a : Except Raised α) := by simp [Mannered]

lemma mannered_mailbox (e : MailboxError) : Mannered (.error (.mailbox e) : Except Raised α) := by
  rintro _ ⟨⟩
  rfl

lemma mannered_bind {x : Except Raised α} {f : α → Except Raised β} (hx : Mannered x)
    (hf : ∀ a, x = .ok a → Mannered (f a)) : Mannered (x >>= f) := by
  cases x with
  | error e =>
    rintro _ ⟨⟩
    exact hx e rfl
  | ok a => exact hf a rfl

lemma mannered_map {x : Except Raised α} (hx : Mannered x) (f : α → β) : Mannered (x.map f) := by
  cases x with
  | error e =>
    rintro _ ⟨⟩
    exact hx e rfl
  | ok a => exact mannered_ok (f a)

end

/-! ## Refusals -/

section
variable (mb : Mailbox) (s : InMemoryStore)

lemma local_mannered (text : String) : Mannered (mb.local_ text) :=
  fun _ h => localName_error h

lemma localAll_mannered (texts : List String) : Mannered (mb.localAll texts) := by
  unfold Mailbox.localAll
  induction texts with
  | nil => exact mannered_ok []
  | cons text texts ih =>
    rw [List.mapM_cons]
    refine mannered_bind (local_mannered mb text) fun name _ => ?_
    exact mannered_bind ih fun names _ => mannered_ok _

lemma actorIn_mannered (caller : String) : Mannered (mb.actorIn s caller) := by
  refine mannered_bind (local_mannered mb caller) fun name _ => ?_
  cases s.actors.lookup name with
  | none => exact mannered_mailbox _
  | some actor => exact mannered_ok actor

variable {s}

lemma unreadIn_mannered (hctx : ∃ ctx, mb.contextIn s = .ok ctx) (caller : String) :
    Mannered (mb.unreadIn s caller) := by
  obtain ⟨ctx, hctx⟩ := hctx
  refine mannered_bind (actorIn_mannered mb s caller) fun actor _ => ?_
  rw [hctx]
  exact mannered_ok _

lemma threadIn_mannered (hctx : ∃ ctx, mb.contextIn s = .ok ctx) (caller rootId : String) :
    Mannered (mb.threadIn s caller rootId) := by
  obtain ⟨ctx, hctx⟩ := hctx
  refine mannered_bind (actorIn_mannered mb s caller) fun actor _ => ?_
  rw [hctx]
  exact mannered_ok _

lemma visibleIn_mannered (hctx : ∃ ctx, mb.contextIn s = .ok ctx) (caller objectId : String) :
    Mannered (mb.visibleIn s caller objectId) := by
  obtain ⟨ctx, hctx⟩ := hctx
  refine mannered_bind (actorIn_mannered mb s caller) fun actor _ => ?_
  cases s.objects.lookup objectId with
  | none => exact mannered_mailbox _
  | some obj =>
    rw [hctx]
    change Mannered (if isPartyTo ctx obj actor.name = true then _ else _)
    split_ifs
    · exact mannered_ok obj
    · exact mannered_mailbox _

lemma sendIn_mannered (hctx : ∃ ctx, mb.contextIn s = .ok ctx) (caller : String) (draft : Draft)
    (stamp : Stamp) : Mannered (mb.sendIn s caller draft stamp) := by
  obtain ⟨ctx, hctx⟩ := hctx
  refine mannered_bind (actorIn_mannered mb s caller) fun actor _ => ?_
  refine mannered_bind (localAll_mannered mb _) fun recipients _ => ?_
  refine mannered_bind (localAll_mannered mb _) fun copies _ => ?_
  rw [hctx]
  change Mannered (Mailbox.rejectUnknownRecipients (recipients ++ copies) ctx >>= _)
  refine mannered_bind ?_ fun _ _ => mannered_ok _
  change Mannered (if _ then _ else _)
  split_ifs
  · exact mannered_ok ()
  · exact mannered_mailbox _

lemma replyIn_mannered (hctx : ∃ ctx, mb.contextIn s = .ok ctx) (caller objectId body : String)
    (subject : Option String) (stamp : Stamp) :
    Mannered (mb.replyIn s caller objectId body subject stamp) :=
  mannered_bind (visibleIn_mannered mb hctx caller objectId) fun _ _ =>
    sendIn_mannered mb hctx caller _ stamp

end

/-! ## Every call -/

/-- The caller of a call on the mail. -/
def Operation.mailCaller : Operation → Option String
  | peek caller | unreadCount caller | read caller _ _ | view caller _ | thread caller _
  | send caller _ _ | reply caller _ _ _ _ => some caller
  | _ => none

/-- The context can be built, every call on the mail answers or refuses, and the calls
of a joined actor on its own mail succeed. -/
structure EveryCallAnswers (mb : Mailbox) (s : InMemoryStore) : Prop where
  context : ∃ ctx, mb.contextIn s = .ok ctx
  mannered : ∀ (op : Operation) (caller : String), op.mailCaller = some caller →
    Mannered (op.step mb s).1
  own : ∀ caller actor, mb.actorIn s caller = .ok actor →
    (∃ waiting, ((Operation.peek caller).step mb s).1 = .ok (.messages waiting)) ∧
    (∃ n, ((Operation.unreadCount caller).step mb s).1 = .ok (.count n)) ∧
    (∀ rootId, ∃ turns, ((Operation.thread caller rootId).step mb s).1 = .ok (.messages turns)) ∧
    ∀ id obj ctx, s.objects.lookup id = some obj → mb.contextIn s = .ok ctx →
      isPartyTo ctx obj actor.name = true →
      ((Operation.view caller id).step mb s).1 = .ok (.message obj)

/-- Where the context can be built, every call on the mail answers or refuses. -/
lemma step_mannered {mb : Mailbox} {s : InMemoryStore} (hctx : ∃ ctx, mb.contextIn s = .ok ctx)
    {op : Operation} {caller : String} (hcaller : op.mailCaller = some caller) :
    Mannered (op.step mb s).1 := by
  cases op <;> simp only [Operation.mailCaller, reduceCtorEq] at hcaller
  case peek caller =>
    simp only [Operation.step_peek]
    exact mannered_map (unreadIn_mannered mb hctx caller) _
  case unreadCount caller =>
    simp only [Operation.step_unreadCount]
    exact mannered_map (mannered_map (unreadIn_mannered mb hctx caller) _) _
  case thread caller rootId =>
    simp only [Operation.step_thread]
    exact mannered_map (threadIn_mannered mb hctx caller rootId) _
  case view caller objectId =>
    simp only [Operation.step_view]
    exact mannered_map (visibleIn_mannered mb hctx caller objectId) _
  case read caller objectId now =>
    rw [Operation.answer_read]
    exact mannered_map (visibleIn_mannered mb hctx caller objectId) _
  case send caller draft stamp =>
    simp only [Operation.step_send]
    exact mannered_map (sendIn_mannered mb hctx caller draft stamp) _
  case reply caller objectId body subject stamp =>
    simp only [Operation.step_reply]
    exact mannered_map (replyIn_mannered mb hctx caller objectId body subject stamp) _

/-- A joined actor lists what is waiting for it, and any thread. -/
lemma lists_of_context {mb : Mailbox} {s : InMemoryStore} (hctx : ∃ ctx, mb.contextIn s = .ok ctx)
    {caller : String} {actor : ActorRecord} (hactor : mb.actorIn s caller = .ok actor) :
    (∃ waiting, mb.unreadIn s caller = .ok waiting) ∧
      ∀ rootId, ∃ turns, mb.threadIn s caller rootId = .ok turns := by
  obtain ⟨ctx, hctx⟩ := hctx
  constructor
  · rw [Mailbox.unreadIn, hactor, ok_bind, hctx]
    exact ⟨_, rfl⟩
  · intro rootId
    rw [Mailbox.threadIn, hactor, ok_bind, hctx]
    exact ⟨_, rfl⟩

theorem everyCallAnswers_of_context {mb : Mailbox} {s : InMemoryStore}
    (hctx : ∃ ctx, mb.contextIn s = .ok ctx) : EveryCallAnswers mb s := by
  refine ⟨hctx, fun op caller hcaller => step_mannered hctx hcaller, fun caller actor hactor => ?_⟩
  obtain ⟨⟨waiting, hwaiting⟩, hturns⟩ := lists_of_context hctx hactor
  refine ⟨⟨waiting, ?_⟩, ⟨waiting.length, ?_⟩, fun rootId => ?_,
    fun id obj ctx hobj hctx hparty => ?_⟩
  · rw [Operation.step_peek, hwaiting]
    rfl
  · rw [Operation.step_unreadCount, hwaiting]
    rfl
  · obtain ⟨turns, hturns⟩ := hturns rootId
    rw [Operation.step_thread, hturns]
    exact ⟨turns, rfl⟩
  · have hvisible := (mb.visibleIn_ok_iff s caller id obj).mpr
      ⟨actor, ctx, hactor, hobj, hctx, hparty⟩
    rw [Operation.step_view, hvisible]
    rfl

theorem everyCallAnswers_iff (mb : Mailbox) (s : InMemoryStore) :
    EveryCallAnswers mb s ↔ AllUsable s :=
  ⟨fun h => (contextIn_ok_iff_usable mb s).mp h.context,
    fun h => everyCallAnswers_of_context ((contextIn_ok_iff_usable mb s).mpr h)⟩

/-- A profile that is accepted brings groups that can be listed. -/
def Operation.KeepsUsable (mb : Mailbox) (op : Operation) (s : InMemoryStore) : Prop :=
  ∀ caller profile now actor, op = .updateProfile caller profile now →
    mb.actorIn s caller = .ok actor → usableGroups profile = true

/-- Putting an actor keeps every profile usable exactly when its own is. -/
lemma allUsable_putActor {s : InMemoryStore} (h : AllUsable s) (actor : ActorRecord) :
    AllUsable (s.putActor actor) ↔ usableGroups actor.profile = true := by
  constructor
  · exact fun hall => hall actor.name actor (by simp)
  · intro hactor key found hfound
    rw [InMemoryStore.putActor_actors, Dict.lookup_set] at hfound
    split_ifs at hfound with hkey
    · cases hfound
      exact hactor
    · exact h key found hfound

lemma allUsable_updateProfile {mb : Mailbox} {s : InMemoryStore} (h : AllUsable s)
    (caller : String) (profile : JsonObject) (now : DateTime) :
    AllUsable ((Operation.updateProfile caller profile now).step mb s).2 ↔
      (Operation.updateProfile caller profile now).KeepsUsable mb s := by
  rw [Operation.step_updateProfile]
  cases hactor : mb.actorIn s caller with
  | error e =>
    refine ⟨fun _ caller' profile' now' actor hop hactor' => ?_, fun _ => h⟩
    cases hop
    simp [hactor] at hactor'
  | ok actor =>
    rw [allUsable_putActor h]
    constructor
    · intro husable caller' profile' now' actor' hop _
      cases hop
      exact husable
    · exact fun hkeeps => hkeeps caller profile now actor rfl hactor

/-- From a store in which every profile can be used, a step leads to another one exactly
when it accepts no profile that cannot. -/
theorem allUsable_step {mb : Mailbox} {s : InMemoryStore} {op : Operation}
    (hadm : op.Admissible s) (h : AllUsable s) :
    AllUsable (op.step mb s).2 ↔ op.KeepsUsable mb s := by
  by_cases hupdate : ∃ caller profile now, op = .updateProfile caller profile now
  · obtain ⟨caller, profile, now, rfl⟩ := hupdate
    exact allUsable_updateProfile h caller profile now
  · have hkeeps : op.KeepsUsable mb s := fun caller profile now _ hop _ =>
      absurd ⟨caller, profile, now, hop⟩ hupdate
    refine ⟨fun _ => hkeeps, fun _ => ?_⟩
    have hchange := step_change mb hadm
    generalize (op.step mb s).1 = answer at hchange
    generalize (op.step mb s).2 = s' at hchange ⊢
    cases hchange with
    | unchanged => exact h
    | created actor _ _ _ hgroups _ =>
      exact (allUsable_putActor h actor).mpr (no_groups mb.unicode hgroups).1
    | profiled caller profile now actor hop _ => exact absurd ⟨caller, profile, now, hop⟩ hupdate
    | sent => exact h
    | consumed => simpa [AllUsable] using h
    | expired => simpa [AllUsable] using h

/-- In every state of a run every call answers or refuses, exactly when the run accepts no
profile whose groups cannot be listed. -/
theorem every_call_answers_iff_usable (mb : Mailbox) (ops : List Operation)
    (hadm : Throughout mb Operation.Admissible .empty ops) :
    (∀ n, EveryCallAnswers mb (after mb .empty (ops.take n))) ↔
      Throughout mb (Operation.KeepsUsable mb) .empty ops := by
  have hempty : AllUsable .empty := fun key actor h => by simp [InMemoryStore.empty] at h
  simp only [everyCallAnswers_iff]
  rw [along_iff (fun op s hop hs => allUsable_step hop hs) hadm]
  exact and_iff_right hempty

/-- Two actors, of whom the second replaces its profile. -/
def bobDeclares (groups : Json) : List Operation :=
  [joinAs "alice", joinAs "bob",
    .updateProfile "bob" (Dict.ofList [("groups", groups)]) (january 2)]

/-- A list of group names leaves every call in working order. -/
theorem every_call_answers_beside_list :
    EveryCallAnswers asciiMailbox
      (after asciiMailbox .empty (bobDeclares (Json.strings ["tools"]))) := by
  have hiff := every_call_answers_iff_usable asciiMailbox
    (bobDeclares (Json.strings ["tools"])) (by decide +kernel)
  have hjoin : ∀ name s, (joinAs name).KeepsUsable asciiMailbox s := by
    intro name s caller profile now actor hop
    simp [joinAs] at hop
  refine hiff.mpr ⟨hjoin _ _, hjoin _ _, ?_, trivial⟩ 3
  intro caller profile now actor hop _
  cases hop
  decide

/-- A number under `groups` stops everybody's mail with `TypeError`. -/
theorem peek_raises_beside_number :
    Throughout asciiMailbox Operation.Admissible .empty (bobDeclares (.int 5)) ∧
      ((Operation.peek "alice").step asciiMailbox
        (after asciiMailbox .empty (bobDeclares (.int 5)))).1 =
        .error (.typeError "'int' object is not iterable") := by
  constructor <;> decide +kernel

end AgentMailbox
