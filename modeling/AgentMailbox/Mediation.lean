import AgentMailbox.HouseCalls
import AgentMailbox.Posting

/-!
# Every path to the store is policed

In the log of any call of a house, or of the interface around it, a message is added
only after every policy has passed an attempt that describes it. So what the policies
guarantee of attempts holds of the messages; for the limits on size and audience this
is carried through whole runs.
-/
namespace AgentMailbox

/-- The stored `to` and `cc` are what the names in these addresses resolve to. -/
def ResolvedFrom (mb : Mailbox) (s : InMemoryStore) (addresses : List String)
    (obj : ObjectRecord) : Prop :=
  ∃ texts copied recipients copies ctx, addresses = texts ++ copied ∧
    mb.localAll texts = .ok recipients ∧ mb.localAll copied = .ok copies ∧
    mb.contextIn s = .ok ctx ∧
    obj.to_ = Sorting.sorted (resolveAudience ctx recipients \ {obj.attributedTo}) ∧
    obj.cc = Sorting.sorted ((resolveAudience ctx copies \ {obj.attributedTo}) \
      (resolveAudience ctx recipients \ {obj.attributedTo}))

/-- The attempt is that of sending this message. -/
structure Describes (mb : Mailbox) (s : InMemoryStore) (attempt : Attempt) (obj : ObjectRecord) :
    Prop where
  action : attempt.action = "send"
  sender : mb.local_ attempt.actor = .ok obj.attributedTo
  body : attempt.body = obj.content
  recipients : ResolvedFrom mb s attempt.recipients obj

section
variable {μ : Type}

/-- A message added to the store. -/
def added (obj : ObjectRecord) : HouseEntry μ := ⟨.store (.addObject obj), ()⟩

/-- A policy asked about an attempt, which it refused. -/
def refused (attempt : Attempt) (policy : Policy μ) (e : Raised) : HouseEntry μ :=
  ⟨.check policy attempt, .error e⟩

/-- Before a message is added, every policy has passed an attempt that describes it. -/
def Mediated (house : House μ) (s : InMemoryStore) (log : List (HouseEntry μ)) : Prop :=
  EachAfter (fun before entry => ∀ obj, entry = added obj → ∃ attempt,
    Describes house.mailbox s attempt obj ∧
      ∀ policy ∈ house.policies, House.passed attempt policy ∈ before) log

/-- A program is policed when messages are added only after every policy has passed
them, and when the refusal of a policy ends it with nothing stored. -/
structure Policed {α : Type} (house : House μ) (p : HouseProgram μ α) (s : HouseState μ) :
    Prop where
  mediated : Mediated house s.store (p.log House.handle s)
  refuses : ∀ attempt policy e, refused attempt policy e ∈ p.log House.handle s →
    (∃ e, (p.run House.handle s).1 = .error e) ∧ (p.run House.handle s).2.store = s.store

end

/-! ## What a sending adds -/

/-- A part of a program that leaves the store alone, and what follows it. -/
lemma log_seq {α β : Type} {p : StoreProgram α} {f : α → StoreProgram β} {s : InMemoryStore}
    {x : Except Raised α} (hp : p.Uses LeavesMessages) (hrun : runs p s = (x, s))
    {entry : LogEntry messageStore} (hentry : entry ∈ (p >>= f).log InMemoryStore.handle s) :
    LeavesMessages entry.call ∨ ∃ a, x = .ok a ∧ entry ∈ (f a).log InMemoryStore.handle s := by
  have hrun : p.run InMemoryStore.handle s = (x, s) := hrun
  rw [Program.log_bind, hrun, List.mem_append] at hentry
  rcases hentry with hentry | hentry
  · exact Or.inl (Program.mem_log_of_uses InMemoryStore.handle hp hentry)
  · cases x with
    | error e => simp at hentry
    | ok a => exact Or.inr ⟨a, rfl, hentry⟩

/-- The one message a sending adds is the record of its draft. -/
theorem added_by_send {mb : Mailbox} {s : InMemoryStore} {caller : String} {draft : Draft}
    {stamp : Stamp} {entry : LogEntry messageStore}
    (hentry : entry ∈ (mb.send caller draft stamp).log InMemoryStore.handle s)
    {obj : ObjectRecord} (hadd : entry.call = .addObject obj) :
    mb.sendIn s caller draft stamp = .ok obj := by
  have hnot : ¬ LeavesMessages entry.call := by rw [hadd]; exact id
  unfold Mailbox.send at hentry
  obtain ⟨actor, hactor, hentry⟩ :=
    (log_seq (uses_requireActor mb caller) (mb.runs_requireActor s caller) hentry).resolve_left hnot
  obtain ⟨recipients, hto, hentry⟩ :=
    (log_seq (Program.uses_ofExcept _) (runs_ofExcept s _) hentry).resolve_left hnot
  obtain ⟨copies, hcc, hentry⟩ :=
    (log_seq (Program.uses_ofExcept _) (runs_ofExcept s _) hentry).resolve_left hnot
  obtain ⟨ctx, hctx, hentry⟩ :=
    (log_seq (uses_context mb) (mb.runs_context s) hentry).resolve_left hnot
  obtain ⟨_, hknown, hentry⟩ :=
    (log_seq (Program.uses_ofExcept _) (runs_ofExcept s _) hentry).resolve_left hnot
  obtain ⟨parent, hparent, hentry⟩ :=
    (log_seq (uses_attach ctx actor.name draft.inReplyTo) (Mailbox.runs_attach s ctx _ _)
      hentry).resolve_left hnot
  cases hparent
  have hlast : entry ∈ [⟨.addObject (Mailbox.compose ctx actor.name recipients copies
      (Mailbox.attachIn s ctx actor.name draft.inReplyTo) draft stamp), ()⟩] := hentry
  obtain rfl := List.mem_singleton.mp hlast
  cases hadd
  simp only [Mailbox.sendIn, hactor, hto, hcc, hctx, hknown, ok_bind, except_pure]

/-- What a house asks its policies about a draft. -/
def Draft.attempt (draft : Draft) (caller : String) : Attempt where
  action := "send"
  actor := caller
  recipients := draft.to_.toList ++ draft.cc
  subject := draft.subject
  body := draft.body

/-- The attempt describes the record that the draft is stored as. -/
theorem describes_sent {mb : Mailbox} {s : InMemoryStore} {caller : String} {draft : Draft}
    {stamp : Stamp} {obj : ObjectRecord} (h : mb.sendIn s caller draft stamp = .ok obj) :
    Describes mb s (draft.attempt caller) obj := by
  obtain ⟨actor, recipients, copies, ctx, hactor, hto, hcc, hctx, _, rfl⟩ :=
    (mb.sendIn_ok_iff s caller draft stamp obj).mp h
  refine ⟨rfl, ((mb.actorIn_ok_iff s caller actor).mp hactor).1, rfl, ?_⟩
  exact ⟨_, _, recipients, copies, ctx, rfl, hto, hcc, hctx, rfl, rfl⟩

/-! ## Policed programs -/

section
variable {μ α β : Type} {house : House μ} {s : HouseState μ}

/-- The calls that neither add a message nor ask a policy. -/
def HouseCall.Quiet : HouseCall μ → Prop := HouseCall.Within AddsNothing false

/-- Entries none of which adds a message need nothing before them. -/
lemma eachAfter_of_adds_nothing {P : List (HouseEntry μ) → ObjectRecord → Prop}
    {log : List (HouseEntry μ)} (h : ∀ obj, added obj ∉ log) :
    EachAfter (fun before entry => ∀ obj, entry = added obj → P before obj) log := by
  refine eachAfter_of_forall fun entry hentry before obj hobj => ?_
  subst hobj
  exact absurd hentry (h obj)

lemma added_notMem_of_uses {p : HouseProgram μ α} (hp : p.Uses HouseCall.Quiet)
    (t : HouseState μ) (obj : ObjectRecord) : added obj ∉ p.log House.handle t :=
  fun hmem => Program.mem_log_of_uses House.handle hp hmem

lemma added_notMem_passed (attempt : Attempt) (policies : List (Policy μ)) (obj : ObjectRecord) :
    added obj ∉ policies.map (House.passed attempt) := by
  simp [House.passed, added]

/-- A program that adds nothing and asks no policy is policed. -/
lemma policed_of_uses {p : HouseProgram μ α} (hp : p.Uses HouseCall.Quiet) :
    Policed house p s where
  mediated := eachAfter_of_adds_nothing (added_notMem_of_uses hp s)
  refuses attempt policy e hrefused := by
    have hcheck : false = true := Program.mem_log_of_uses House.handle hp hrefused
    cases hcheck

/-- A policed program may be followed by one that adds nothing and asks no policy. -/
lemma Policed.bind {p : HouseProgram μ α} {f : α → HouseProgram μ β} (hp : Policed house p s)
    (hf : ∀ a, (f a).Uses HouseCall.Quiet) : Policed house (p >>= f) s where
  mediated := by
    rw [Mediated, Program.log_bind, eachAfter_append]
    refine ⟨hp.mediated, eachAfter_of_adds_nothing fun obj => ?_⟩
    rcases p.run House.handle s with ⟨e | a, s'⟩
    · exact List.not_mem_nil
    · exact added_notMem_of_uses (hf a) s' obj
  refuses attempt policy e hrefused := by
    rw [Program.log_bind, List.mem_append] at hrefused
    rw [Program.run_bind]
    rcases hrefused with hrefused | hrefused
    · obtain ⟨⟨e', he⟩, hstore⟩ := hp.refuses attempt policy e hrefused
      rcases hrun : p.run House.handle s with ⟨e'' | a, s'⟩
      · rw [hrun] at hstore
        exact ⟨⟨e'', rfl⟩, hstore⟩
      · rw [hrun] at he
        cases he
    · rcases hrun : p.run House.handle s with ⟨e' | a, s'⟩
      · simp [hrun] at hrefused
      · rw [hrun] at hrefused
        have hcheck : false = true := Program.mem_log_of_uses House.handle (hf a) hrefused
        cases hcheck

lemma Policed.map {p : HouseProgram μ α} (hp : Policed house p s) (f : α → β) :
    Policed house (f <$> p) s :=
  hp.bind fun a => Program.uses_pure (f a)

/-- A program that leaves the store alone and asks no policy may come first. -/
lemma Policed.after {p : HouseProgram μ α} {f : α → HouseProgram μ β} {x : Except Raised α}
    (hp : p.Uses HouseCall.Quiet) (hrun : p.run House.handle s = (x, s))
    (hf : ∀ a, x = .ok a → Policed house (f a) s) : Policed house (p >>= f) s where
  mediated := by
    rw [Mediated, Program.log_bind, hrun, eachAfter_append]
    refine ⟨(policed_of_uses hp).mediated, ?_⟩
    cases x with
    | error e => exact eachAfter_of_forall (by simp)
    | ok a =>
      refine (hf a rfl).mediated.mono fun before entry _ h obj hobj => ?_
      obtain ⟨attempt, hdescribes, hpassed⟩ := h obj hobj
      exact ⟨attempt, hdescribes, fun policy hpolicy =>
        List.mem_append_right _ (hpassed policy hpolicy)⟩
  refuses attempt policy e hrefused := by
    rw [Program.log_bind, hrun, List.mem_append] at hrefused
    rw [Program.run_bind, hrun]
    rcases hrefused with hrefused | hrefused
    · have hcheck : false = true := Program.mem_log_of_uses House.handle hp hrefused
      cases hcheck
    · cases x with
      | error e' => simp at hrefused
      | ok a => exact (hf a rfl).refuses attempt policy e hrefused

/-- A policed action is policed, when what it adds is what was asked about. -/
lemma policed_policed {attempt : Attempt} (onError : JsonObject) (onSuccess : α → JsonObject)
    {act : StoreProgram α}
    (hact : ∀ entry ∈ act.log InMemoryStore.handle s.store, ∀ obj,
      entry.call = .addObject obj → Describes house.mailbox s.store attempt obj) :
    Policed house (house.policed attempt onError onSuccess act) s := by
  rcases house.log_policed attempt onError onSuccess act s with
    ⟨m, passing, policy, rest, e, hpolicies, _, hrun, hlog⟩ | ⟨m, told, _, hrun, hlog, htold⟩
  · constructor
    · rw [Mediated, hlog, eachAfter_append]
      exact ⟨eachAfter_of_adds_nothing (added_notMem_passed attempt passing),
        eachAfter_of_adds_nothing (by simp [added])⟩
    · intro _ _ _ _
      rw [hrun]
      exact ⟨⟨e, rfl⟩, rfl⟩
  · have hrecords : ∀ entry ∈ told, ∃ policy outcome, entry.call = .record policy outcome := by
      intro entry hentry
      have hcall := List.mem_map_of_mem (f := LogEntry.call) hentry
      rw [htold, List.mem_map] at hcall
      obtain ⟨policy, _, hcall⟩ := hcall
      exact ⟨policy, _, hcall.symm⟩
    constructor
    · rw [Mediated, hlog, eachAfter_append, eachAfter_append]
      refine ⟨?_, ?_, ?_⟩
      · exact eachAfter_of_adds_nothing (added_notMem_passed attempt house.policies)
      · refine eachAfter_of_forall fun entry hentry before obj hobj => ?_
        obtain ⟨below, hbelow, rfl⟩ := List.mem_map.mp hentry
        have hadd : below.call = .addObject obj := by
          have hcall := congrArg LogEntry.call hobj
          simpa [House.onStore, added] using hcall
        refine ⟨attempt, hact below hbelow obj hadd, fun policy hpolicy => ?_⟩
        exact List.mem_append_left _ (List.mem_map_of_mem hpolicy)
      · refine eachAfter_of_adds_nothing fun obj hobj => ?_
        obtain ⟨policy, outcome, hcall⟩ := hrecords _ hobj
        cases hcall
    · intro attempt' policy e hrefused
      exfalso
      rw [hlog] at hrefused
      simp only [List.mem_append, List.mem_map] at hrefused
      rcases hrefused with ⟨_, _, heq⟩ | ⟨_, _, heq⟩ | htold'
      · simp [House.passed, refused] at heq
      · simp [House.onStore, refused] at heq
      · obtain ⟨_, _, hcall⟩ := hrecords _ htold'
        cases hcall

lemma quiet_of_within {p : HouseProgram μ α} {checks : Bool}
    (hp : p.Uses (HouseCall.Within LeavesMessages checks)) (hchecks : checks = false) :
    p.Uses HouseCall.Quiet := by
  subst hchecks
  refine hp.mono fun c hc => ?_
  cases c with
  | store c => exact LeavesMessages.addsNothing hc
  | check policy attempt => exact hc
  | record policy outcome => trivial

/-- A policed action that leaves the messages alone. -/
lemma policed_quietly {attempt : Attempt} (onError : JsonObject) (onSuccess : α → JsonObject)
    {act : StoreProgram α} (hact : act.Uses LeavesMessages) :
    Policed house (house.policed attempt onError onSuccess act) s := by
  refine policed_policed onError onSuccess fun entry hentry obj hadd => ?_
  have hleaves := Program.mem_log_of_uses InMemoryStore.handle hact hentry
  rw [hadd] at hleaves
  exact absurd hleaves id

variable (house s)

lemma policed_send (caller : String) (draft : Draft) (stamp : Stamp) :
    Policed house (house.send caller draft stamp) s := by
  have hsend : house.send caller draft stamp = house.policed (draft.attempt caller) ∅
      (fun sent => Dict.ofList [("id", .str sent.id)])
      (house.mailbox.send caller draft stamp) := rfl
  rw [hsend]
  exact policed_policed _ _ fun entry hentry obj hadd =>
    describes_sent (added_by_send hentry hadd)

lemma policed_reply (caller objectId body : String) (subject : Option String) (stamp : Stamp) :
    Policed house (house.reply caller objectId body subject stamp) s := by
  unfold House.reply
  refine Policed.after (quiet_of_within (House.uses_lift (uses_visibleObject _ _ _)) rfl)
    (x := house.mailbox.visibleIn s.store caller objectId) ?_ fun original _ => ?_
  · rw [House.run_lifted, Mailbox.view, Mailbox.runs_visibleObject]
  · exact policed_send house s caller _ stamp

/-- Every operation of a house is policed. -/
theorem policed_program (op : Operation) : Policed house (house.program op) s := by
  cases op with
  | join requestedName draw now => exact (policed_quietly _ _ (uses_join _ _ _ _)).map _
  | send caller draft stamp => exact (policed_send house s caller draft stamp).map _
  | reply caller objectId body subject stamp =>
    exact (policed_reply house s caller objectId body subject stamp).map _
  | read caller objectId now => exact (policed_quietly _ _ (uses_read _ _ _ _)).map _
  | expire now =>
    exact policed_of_uses (House.uses_lift (Program.uses_map (uses_expire _ now) _))
  | view | whois | directory | updateProfile | installResident | peek | unreadCount | thread =>
    exact policed_of_uses (quiet_of_within (house.uses_program rfl (by simp)) rfl)

variable {house s}

lemma policed_of_map {p : HouseProgram μ α} {f : α → β} (h : Policed house (f <$> p) s) :
    Policed house p s := by
  have hlog := Program.log_map House.handle f p s
  have hrun := House.run_map f p s
  refine ⟨hlog ▸ h.mediated, fun attempt policy e hrefused => ?_⟩
  obtain ⟨⟨e', he⟩, hstore⟩ := h.refuses attempt policy e (hlog ▸ hrefused)
  rw [hrun] at he hstore
  refine ⟨?_, hstore⟩
  cases hanswer : (p.run House.handle s).1 with
  | error e'' => exact ⟨e'', rfl⟩
  | ok a => simp [hanswer, Except.map] at he

/-- Every request to the machine interface is policed. -/
theorem policed_request (api : Api μ) (request : Request) (s : HouseState μ) :
    Policed api.house (api.program request) s := by
  cases request with
  | join data draw now =>
    refine Policed.map ?_ _
    unfold Api.join Api.joinUnnameable
    split
    · exact (policed_quietly _ _ (uses_join _ _ _ _)).bind fun _ => Program.uses_ofExcept _
    · exact (policed_quietly _ _ (uses_join _ _ _ _)).bind fun _ => Program.uses_ofExcept _
    · exact (policed_quietly _ _ (Program.uses_throw _)).bind fun _ => Program.uses_ofExcept _
  | outbox name body caller stamp =>
    refine Policed.map ?_ _
    cases hposted : api.posted name body caller stamp with
    | error e =>
      rw [Api.outbox_refused hposted]
      exact policed_of_uses (Program.uses_throw e)
    | ok op =>
      obtain ⟨p, hprogram, houtbox⟩ := Api.outbox_eq hposted
      have hop : Policed api.house (Result.message <$> p) s := by
        rw [← hprogram]
        exact policed_program api.house s op
      rw [houtbox]
      exact (policed_of_map hop).bind fun _ => Program.uses_ofExcept _
  | readObject objectId caller now =>
    exact Policed.map (Policed.bind (policed_quietly _ _ (uses_read _ _ _ _))
      fun _ => Program.uses_ofExcept _) _
  | directory | actor | updateProfile | inbox | viewObject | thread =>
    exact policed_of_uses (quiet_of_within (api.uses_program _ (by simp)) rfl)

end

/-! ## Runs -/

/-- What can arrive at a hub: a call of the house, or a request. -/
inductive Visit
  | operation (op : Operation)
  | request (request : Request)

/-- The message of an entry that adds one. -/
def addedObject {μ : Type} : HouseEntry μ → Option ObjectRecord
  | ⟨.store (.addObject obj), _⟩ => some obj
  | _ => none

namespace Api

section
variable {μ : Type} (api : Api μ)

def visit : Visit → HouseProgram μ (Result ⊕ Response)
  | .operation op => Sum.inl <$> api.house.program op
  | .request request => Sum.inr <$> api.program request

/-- The state a sequence of visits leads to. -/
def afterVisits (s : HouseState μ) (visits : List Visit) : HouseState μ :=
  visits.foldl (fun s visit => ((api.visit visit).run House.handle s).2) s

/-- The messages a sequence of visits adds, each with the store it was addressed in. -/
def additions : HouseState μ → List Visit → List (InMemoryStore × ObjectRecord)
  | _, [] => []
  | s, visit :: rest =>
    (((api.visit visit).log House.handle s).filterMap addedObject).map
        (fun obj => (s.store, obj)) ++
      additions ((api.visit visit).run House.handle s).2 rest

end

end Api

section
variable {μ : Type}

lemma addedObject_eq_some {entry : HouseEntry μ} {obj : ObjectRecord} :
    addedObject entry = some obj ↔ entry = added obj := by
  constructor
  · intro h
    unfold addedObject at h
    split at h
    · cases h
      rfl
    · cases h
  · rintro rfl
    rfl

/-- What is stored after a program was stored before it, or is added in its log. -/
lemma stored_or_added {α : Type} (p : HouseProgram μ α) (s : HouseState μ) {id : String}
    {obj : ObjectRecord} (h : (p.run House.handle s).2.store.objects.lookup id = some obj) :
    s.store.objects.lookup id = some obj ∨ added obj ∈ p.log House.handle s := by
  induction p generalizing s with
  | ret a => exact Or.inl h
  | raise e => exact Or.inl h
  | call c next ih =>
    rcases ih _ _ h with hstored | hadded
    · cases c with
      | check policy attempt => exact Or.inl hstored
      | record policy outcome => exact Or.inl hstored
      | store c =>
        rcases writes_or_leaves c with ⟨new, rfl⟩ | ⟨ids, rfl⟩ | hleaves
        · have hset : (s.store.objects.set new.id new).lookup id = some obj := hstored
          rw [Dict.lookup_set] at hset
          split_ifs at hset with hid
          · cases hset
            exact Or.inr List.mem_cons_self
          · exact Or.inl hset
        · have hremoved : (s.store.removeObjects ids).2.objects.lookup id = some obj := hstored
          rw [InMemoryStore.lookup_removeObjects] at hremoved
          split_ifs at hremoved
          exact Or.inl hremoved
        · have hsame : (InMemoryStore.handle c s.store).2.objects.lookup id = some obj := hstored
          rw [hleaves.objects_eq] at hsame
          exact Or.inl hsame
    · exact Or.inr (List.mem_cons_of_mem _ hadded)

/-- What is stored after a run was stored before it, or is one of its additions. -/
lemma stored_or_addition (api : Api μ) (s : HouseState μ) (visits : List Visit) {id : String}
    {obj : ObjectRecord} (h : (api.afterVisits s visits).store.objects.lookup id = some obj) :
    s.store.objects.lookup id = some obj ∨ ∃ t, (t, obj) ∈ api.additions s visits := by
  induction visits generalizing s with
  | nil => exact Or.inl h
  | cons visit rest ih =>
    rcases ih _ h with hstored | ⟨t, ht⟩
    · refine (stored_or_added _ _ hstored).imp_right fun hadded => ⟨s.store, ?_⟩
      refine List.mem_append_left _ (List.mem_map_of_mem ?_)
      exact List.mem_filterMap.mpr ⟨_, hadded, addedObject_eq_some.mpr rfl⟩
    · exact Or.inr ⟨t, List.mem_append_right _ ht⟩

/-- Every visit is policed. -/
theorem policed_visit (api : Api μ) (visit : Visit) (s : HouseState μ) :
    Policed api.house (api.visit visit) s := by
  cases visit with
  | operation op => exact (policed_program api.house s op).map _
  | request request => exact (policed_request api request s).map _

/-- The message is within the limits: so many bytes, addressed to so many names. -/
def WithinLimits (mb : Mailbox) (maxBodyBytes maxRecipients : ℕ) (s : InMemoryStore)
    (obj : ObjectRecord) : Prop :=
  obj.content.utf8ByteSize ≤ maxBodyBytes ∧
    ∃ addresses, addresses.length ≤ maxRecipients ∧ ResolvedFrom mb s addresses obj

/-- What the limits have passed is within them. -/
lemma withinLimits_of_passed {maxBodyBytes maxRecipients : ℕ} {mb : Mailbox} {s : InMemoryStore}
    {attempt : Attempt} {obj : ObjectRecord} (hdescribes : Describes mb s attempt obj)
    (hpassed : MessageLimits.check "message_limits" maxBodyBytes maxRecipients attempt = .ok ()) :
    WithinLimits mb maxBodyBytes maxRecipients s obj := by
  unfold MessageLimits.check at hpassed
  rw [if_neg (not_not.mpr hdescribes.action)] at hpassed
  dsimp only at hpassed
  split_ifs at hpassed with hbytes hnames
  refine ⟨?_, attempt.recipients, not_lt.mp hnames, hdescribes.recipients⟩
  rw [← hdescribes.body]
  exact not_lt.mp hbytes

lemma withinLimits_of_added (api : Api μ) (visit : Visit) (s : HouseState μ)
    {maxBodyBytes maxRecipients : ℕ}
    (hinstalled : messageLimits μ maxBodyBytes maxRecipients ∈ api.house.policies)
    {obj : ObjectRecord} (hadded : added obj ∈ (api.visit visit).log House.handle s) :
    WithinLimits api.house.mailbox maxBodyBytes maxRecipients s.store obj := by
  obtain ⟨before, rest, hsplit⟩ := List.append_of_mem hadded
  obtain ⟨attempt, hdescribes, hpassed⟩ :=
    (policed_visit api visit s).mediated before (added obj) rest hsplit obj rfl
  have hentry : House.passed attempt (messageLimits μ maxBodyBytes maxRecipients) ∈
      (api.visit visit).log House.handle s := by
    rw [hsplit]
    exact List.mem_append_left _ (hpassed _ hinstalled)
  obtain ⟨t, ht⟩ := Program.answer_of_mem_log House.handle hentry
  exact withinLimits_of_passed hdescribes ht.symm

/-- Every path to the store is policed; and where the limits on messages are installed,
every message that a run has stored is within them. -/
theorem every_path_is_policed (api : Api μ) :
    (∀ visit s, Policed api.house (api.visit visit) s) ∧
      ∀ maxBodyBytes maxRecipients,
        messageLimits μ maxBodyBytes maxRecipients ∈ api.house.policies → ∀ s visits,
          (∀ id obj, (api.afterVisits s visits).store.objects.lookup id = some obj →
            s.store.objects.lookup id = some obj ∨ ∃ t, (t, obj) ∈ api.additions s visits) ∧
          ∀ t obj, (t, obj) ∈ api.additions s visits →
            WithinLimits api.house.mailbox maxBodyBytes maxRecipients t obj := by
  refine ⟨policed_visit api, fun maxBodyBytes maxRecipients hinstalled s visits =>
    ⟨fun id obj => stored_or_addition api s visits, fun t obj hadded => ?_⟩⟩
  induction visits generalizing s with
  | nil => simp [Api.additions] at hadded
  | cons visit rest ih =>
    rcases List.mem_append.mp hadded with hnow | hlater
    · simp only [List.mem_map, List.mem_filterMap, addedObject_eq_some, Prod.mk.injEq] at hnow
      obtain ⟨_, ⟨entry, hentry, rfl⟩, rfl, rfl⟩ := hnow
      exact withinLimits_of_added api visit s hinstalled hentry
    · exact ih _ hlater

end

/-! ## A letter under the default limits -/

/-- Alice and bob join through the interface, and alice writes to bob through the house. -/
def letterVisits : List Visit :=
  [.request (.joinAs "alice"), .request (.joinAs "bob"),
    .operation (.send "alice" { to_ := .one "bob", body := "hi" } ⟨"m1", january 2⟩)]

/-- The letter is stored, and within the limits. -/
theorem letter_within_limits : ∃ obj t,
    (asciiApi.afterVisits firstOpening letterVisits).store.objects.lookup "m1" = some obj ∧
      WithinLimits asciiMailbox (64 * 1024) 32 t obj := by
  have hinstalled : messageLimits Observations ∈ asciiApi.house.policies :=
    List.mem_cons_of_mem _ List.mem_cons_self
  obtain ⟨hstored, hlimits⟩ :=
    (every_path_is_policed asciiApi).2 _ _ hinstalled firstOpening letterVisits
  have hletter : ((asciiApi.afterVisits firstOpening letterVisits).store.objects.lookup
      "m1").isSome = true := by decide +kernel
  obtain ⟨obj, hobj⟩ := Option.isSome_iff_exists.mp hletter
  rcases hstored "m1" obj hobj with hbefore | ⟨t, ht⟩
  · have hnone : firstOpening.store.objects.lookup "m1" = none := by decide +kernel
    rw [hnone] at hbefore
    cases hbefore
  · exact ⟨obj, t, hobj, hlimits t obj ht⟩

end AgentMailbox
