import AgentMailbox.Delivery
import AgentMailbox.HouseCalls

/-!
# Who is told of what

Every policy is told once of a call, and told the truth, when the call comes as far as
being acted on: past the checks, and for a reply past the message it answers. A call
that is stopped before that is told to nobody, and neither is a view that fails.
-/
namespace AgentMailbox

/-- The operations of a house that have a moment for the policies. -/
def Operation.Watched : Operation → Prop
  | join _ _ _ | send _ _ _ | reply _ _ _ _ _ | read _ _ _ | view _ _ => True
  | whois _ | directory | updateProfile _ _ _ | installResident _ _ _ | peek _ | unreadCount _
  | thread _ _ | expire _ => False

namespace House

section
variable {μ α β : Type}

/-- The policy told of an outcome, and the outcome. -/
def telling : HouseCall μ → Option (Policy μ × Outcome)
  | .record policy outcome => some (policy, outcome)
  | .store _ | .check _ _ => none

/-- Who is told of what, in order. -/
def tellings (log : List (HouseEntry μ)) : List (Policy μ × Outcome) :=
  log.filterMap fun entry => telling entry.call

/-- Each policy of the house is told of one outcome, and it is the program's own. -/
def ObservedOnce (house : House μ) (p : HouseProgram μ α) (s : HouseState μ) : Prop :=
  ∃ outcome, tellings (p.log handle s) = house.policies.map (·, outcome) ∧
    (∀ a, (p.run handle s).1 = .ok a → outcome.ok = true) ∧
    ∀ e, (p.run handle s).1 = .error (.mailbox e) →
      outcome.ok = false ∧ outcome.error = some (.mailbox e)

/-- Every operation of the run satisfies `p` in the state it is applied to. -/
def Throughout (house : House μ) (p : Operation → HouseState μ → Prop) :
    HouseState μ → List Operation → Prop
  | _, [] => True
  | s, op :: ops => p op s ∧ house.Throughout p (house.step op s).2 ops

/-! ## When a call comes as far as being acted on -/

/-- No check refuses the attempt; each sees the memory the ones before it leave. -/
def Accepted (attempt : Attempt) (store : InMemoryStore) : List (Policy μ) → μ → Prop
  | [], _ => True
  | policy :: rest, m => (policy.check attempt store m).1 = .ok () ∧
      Accepted attempt store rest (policy.check attempt store m).2

instance acceptedDecidable (attempt : Attempt) (store : InMemoryStore) :
    (policies : List (Policy μ)) → (m : μ) → Decidable (Accepted attempt store policies m)
  | [], _ => isTrue trivial
  | policy :: rest, m =>
    have := acceptedDecidable attempt store rest (policy.check attempt store m).2
    inferInstanceAs (Decidable (_ ∧ _))

/-- What the policies are asked about a sending. -/
def sendAttempt (caller : String) (draft : Draft) : Attempt where
  action := "send"
  actor := caller
  recipients := draft.to_.toList ++ draft.cc
  subject := draft.subject
  body := draft.body

/-- What the policies are asked about a reading. -/
def readAttempt (caller objectId : String) : Attempt where
  action := "read"
  actor := caller
  detail := Dict.ofList [("id", .str objectId)]

/-- What the policies are asked about a joining. -/
def joinAttempt (requestedName : Option String) : Attempt where
  action := "join"
  actor := joinActor requestedName

/-- What the policies are told about a viewing. -/
def viewOutcome (caller objectId : String) : Outcome where
  attempt :=
    { action := "view", actor := caller, detail := Dict.ofList [("id", .str objectId)] }
  ok := true

/-- The message is there, and visible to the caller. -/
def Sees (house : House μ) (caller objectId : String) (s : HouseState μ) (obj : ObjectRecord) :
    Prop := house.mailbox.visibleIn s.store caller objectId = .ok obj

/-- Nothing stops the operation before it is acted on. -/
def ActedOn (house : House μ) (op : Operation) (s : HouseState μ) : Prop :=
  match op with
  | .join requestedName _ _ => Accepted (joinAttempt requestedName) s.store house.policies s.memory
  | .send caller draft _ => Accepted (sendAttempt caller draft) s.store house.policies s.memory
  | .read caller objectId _ =>
    Accepted (readAttempt caller objectId) s.store house.policies s.memory
  | .reply caller objectId body subject _ => ∃ original, house.Sees caller objectId s original ∧
      Accepted (sendAttempt caller (house.mailbox.replyDraft original body subject)) s.store
        house.policies s.memory
  | .view caller objectId => ∃ obj, house.Sees caller objectId s obj
  | _ => False

/-- A condition on the value of a computation can be decided by carrying it out. -/
def decidableOfValue (x : Except Raised α) (p : α → Prop) [DecidablePred p] :
    Decidable (∃ a, x = .ok a ∧ p a) :=
  match x with
  | .ok a => decidable_of_iff (p a) ⟨fun h => ⟨a, rfl, h⟩, fun ⟨_, ha, h⟩ => by cases ha; exact h⟩
  | .error _ => isFalse fun ⟨_, ha, _⟩ => by cases ha

instance (house : House μ) (op : Operation) (s : HouseState μ) : Decidable (house.ActedOn op s) :=
  match op with
  | .join _ _ _ | .send _ _ _ | .read _ _ _ => acceptedDecidable _ _ _ _
  | .reply caller _ body subject _ => decidableOfValue _ fun original =>
    Accepted (sendAttempt caller (house.mailbox.replyDraft original body subject)) s.store
      house.policies s.memory
  | .view caller objectId =>
    @decidable_of_iff _ _ (exists_congr fun _ => iff_of_eq (and_true _))
      (decidableOfValue (house.mailbox.visibleIn s.store caller objectId) fun _ => True)
  | .whois _ | .directory | .updateProfile _ _ _ | .installResident _ _ _ | .peek _
  | .unreadCount _ | .thread _ _ | .expire _ => isFalse id

/-- There is nobody to tell, or nothing stops the operation before it is acted on. -/
def Unhindered (house : House μ) (op : Operation) (s : HouseState μ) : Prop :=
  house.policies = [] ∨ house.ActedOn op s

/-! ## Tellings of the parts of a call -/

lemma tellings_append (first second : List (HouseEntry μ)) :
    tellings (first ++ second) = tellings first ++ tellings second :=
  List.filterMap_append

lemma tellings_passed (attempt : Attempt) (policies : List (Policy μ)) :
    tellings (policies.map (passed attempt)) = [] := by
  simp [tellings, passed, telling]

lemma tellings_onStore (log : List (LogEntry messageStore)) :
    tellings (log.map onStore : List (HouseEntry μ)) = [] := by
  simp [tellings, onStore, telling]

lemma tellings_of_record {told : List (HouseEntry μ)} {policies : List (Policy μ)}
    {outcome : Outcome}
    (h : told.map LogEntry.call = policies.map fun policy => HouseCall.record policy outcome) :
    tellings told = policies.map (·, outcome) := by
  have hcalls : tellings told = (told.map LogEntry.call).filterMap telling := by
    rw [List.filterMap_map]
    rfl
  rw [hcalls, h, List.filterMap_map]
  exact List.filterMap_eq_map.symm ▸ rfl

lemma run_check_ok_iff (attempt : Attempt) (policies : List (Policy μ)) (s : HouseState μ) :
    ((check attempt policies).run handle s).1 = .ok () ↔
      Accepted attempt s.store policies s.memory := by
  induction policies generalizing s with
  | nil => exact ⟨fun _ => trivial, fun _ => rfl⟩
  | cons policy rest ih =>
    simp only [check, Program.run_bind, run_askCheck, Program.run_ofExcept, Accepted]
    cases (policy.check attempt s.store s.memory).1 with
    | error e => simp
    | ok _ => simpa using ih ⟨s.store, (policy.check attempt s.store s.memory).2⟩

/-- A policed action is observed when its attempt is accepted, and otherwise only by
nobody. -/
theorem observedOnce_policed_iff (house : House μ) (attempt : Attempt) (onError : JsonObject)
    (onSuccess : α → JsonObject) (act : StoreProgram α) (s : HouseState μ) :
    house.ObservedOnce (house.policed attempt onError onSuccess act) s ↔
      house.policies = [] ∨ Accepted attempt s.store house.policies s.memory := by
  rw [← run_check_ok_iff]
  unfold ObservedOnce
  rcases house.log_policed attempt onError onSuccess act s with
    ⟨m, passing, policy, rest, e, hpolicies, hcheck, hrun, hlog⟩ |
      ⟨m, told, hcheck, hrun, hlog, htold⟩
  · have hnone : tellings ((house.policed attempt onError onSuccess act).log handle s) = [] := by
      rw [hlog, tellings_append, tellings_passed]
      rfl
    have hsome : house.policies ≠ [] := by simp [hpolicies]
    rw [hnone, hcheck]
    constructor
    · rintro ⟨outcome, htold, _⟩
      exact absurd (List.map_eq_nil_iff.mp htold.symm) hsome
    · rintro (hempty | hok)
      · exact absurd hempty hsome
      · cases hok
  · have htold := tellings_of_record htold
    rw [hrun, hlog, tellings_append, tellings_append, tellings_passed, tellings_onStore, htold]
    refine ⟨fun _ => Or.inr hcheck, fun _ => ⟨_, rfl, ?_, ?_⟩⟩
    · intro a ha
      rw [ha]
    · intro e he
      rw [he]
      exact ⟨rfl, rfl⟩

lemma observedOnce_map (house : House μ) (f : α → β) (p : HouseProgram μ α) (s : HouseState μ) :
    house.ObservedOnce (f <$> p) s ↔ house.ObservedOnce p s := by
  unfold ObservedOnce
  rw [Program.log_map, run_map]
  rcases p.run handle s with ⟨e | a, s'⟩ <;> simp [Except.map]

/-- A failing program that tells nobody is observed by nobody. -/
lemma observedOnce_untold {house : House μ} {p : HouseProgram μ α} {s : HouseState μ} {e : Raised}
    (hlog : tellings (p.log handle s) = []) (hrun : (p.run handle s).1 = .error e) :
    house.ObservedOnce p s ↔ house.policies = [] := by
  unfold ObservedOnce
  rw [hlog, hrun]
  constructor
  · rintro ⟨outcome, htold, _⟩
    exact List.map_eq_nil_iff.mp htold.symm
  · intro hempty
    refine ⟨⟨readAttempt "" "", false, some e, ∅⟩, by rw [hempty]; rfl, ?_, ?_⟩
    · intro a ha
      cases ha
    · intro e' he
      cases he
      exact ⟨rfl, rfl⟩

lemma view_eq (house : House μ) (caller objectId : String) :
    house.view caller objectId = (do
      let got ← lift (house.mailbox.view caller objectId)
      record (viewOutcome caller objectId) house.policies
      return got) := rfl

lemma observedOnce_view_iff (house : House μ) (caller objectId : String) (s : HouseState μ) :
    house.ObservedOnce (house.view caller objectId) s ↔
      house.policies = [] ∨ ∃ obj, house.Sees caller objectId s obj := by
  have hviewed : runs (house.mailbox.view caller objectId) s.store =
      (house.mailbox.visibleIn s.store caller objectId, s.store) :=
    Mailbox.runs_visibleObject _ _ _ _
  unfold Sees
  cases hvisible : house.mailbox.visibleIn s.store caller objectId with
  | error e =>
    rw [hvisible] at hviewed
    have hlog : tellings ((house.view caller objectId).log handle s) = [] := by
      rw [view, Program.log_bind, run_lifted, hviewed, log_lift, tellings_append, tellings_onStore]
      rfl
    have hrun : ((house.view caller objectId).run handle s).1 = .error e := by
      rw [view, Program.run_bind, run_lifted, hviewed]
    rw [observedOnce_untold hlog hrun]
    simp
  | ok obj =>
    rw [hvisible] at hviewed
    obtain ⟨m, hrecord⟩ := run_record (viewOutcome caller objectId) house.policies s
    have hlog : tellings ((house.view caller objectId).log handle s) =
        house.policies.map (·, viewOutcome caller objectId) := by
      rw [view_eq, Program.log_bind, run_lifted, hviewed, log_lift, tellings_append,
        tellings_onStore, List.nil_append]
      simp only [Program.log_bind, hrecord, Program.log_pure, List.append_nil]
      exact tellings_of_record (log_record _ _ s)
    have hrun : ((house.view caller objectId).run handle s).1 = .ok obj := by
      rw [view_eq, Program.run_bind, run_lifted, hviewed]
      simp only [Program.run_bind, hrecord, Program.run_pure]
    refine ⟨fun _ => Or.inr ⟨obj, rfl⟩, fun _ => ⟨viewOutcome caller objectId, hlog, ?_, ?_⟩⟩
    · exact fun _ _ => rfl
    · intro e he
      rw [hrun] at he
      cases he

lemma observedOnce_reply_iff (house : House μ) (caller objectId body : String)
    (subject : Option String) (stamp : Stamp) (s : HouseState μ) :
    house.ObservedOnce (house.reply caller objectId body subject stamp) s ↔
      house.policies = [] ∨ ∃ original, house.Sees caller objectId s original ∧
        Accepted (sendAttempt caller (house.mailbox.replyDraft original body subject)) s.store
          house.policies s.memory := by
  have hviewed : runs (house.mailbox.view caller objectId) s.store =
      (house.mailbox.visibleIn s.store caller objectId, s.store) :=
    Mailbox.runs_visibleObject _ _ _ _
  unfold Sees
  cases hvisible : house.mailbox.visibleIn s.store caller objectId with
  | error e =>
    rw [hvisible] at hviewed
    have hlog : tellings ((house.reply caller objectId body subject stamp).log handle s) = [] := by
      rw [reply, Program.log_bind, run_lifted, hviewed, log_lift, tellings_append,
        tellings_onStore]
      rfl
    have hrun : ((house.reply caller objectId body subject stamp).run handle s).1 = .error e := by
      rw [reply, Program.run_bind, run_lifted, hviewed]
    rw [observedOnce_untold hlog hrun]
    simp
  | ok original =>
    rw [hvisible] at hviewed
    have hsends : house.ObservedOnce (house.reply caller objectId body subject stamp) s ↔
        house.ObservedOnce
          (house.send caller (house.mailbox.replyDraft original body subject) stamp) s := by
      unfold ObservedOnce reply
      rw [Program.log_bind, Program.run_bind, run_lifted, hviewed, log_lift, tellings_append,
        tellings_onStore, List.nil_append]
    rw [hsends]
    refine (observedOnce_policed_iff house _ _ _ _ s).trans ?_
    simp [sendAttempt]

/-- An operation with a moment for the policies is observed once exactly when nothing
stops it before it is acted on. -/
theorem observedOnce_iff (house : House μ) {op : Operation} (hop : op.Watched) (s : HouseState μ) :
    house.ObservedOnce (house.program op) s ↔ house.Unhindered op s := by
  cases op with
  | join requestedName draw now =>
    exact (observedOnce_map _ _ _ _).trans (observedOnce_policed_iff _ _ _ _ _ _)
  | send caller draft stamp =>
    exact (observedOnce_map _ _ _ _).trans (observedOnce_policed_iff _ _ _ _ _ _)
  | read caller objectId now =>
    exact (observedOnce_map _ _ _ _).trans (observedOnce_policed_iff _ _ _ _ _ _)
  | reply caller objectId body subject stamp =>
    exact (observedOnce_map _ _ _ _).trans (observedOnce_reply_iff _ _ _ _ _ _ _)
  | view caller objectId =>
    exact (observedOnce_map _ _ _ _).trans (observedOnce_view_iff _ _ _ _)
  | whois | directory | updateProfile | installResident | peek | unreadCount | thread | expire =>
    exact hop.elim

end

end House

/-- In a run of a house every call is observed once, by every policy and as what it came
to, exactly when nothing stops a call before it is acted on. -/
theorem observed_throughout_iff {μ : Type} (house : House μ) (s : HouseState μ)
    (ops : List Operation) (hops : ∀ op ∈ ops, op.Watched) :
    house.Throughout (fun op s => house.ObservedOnce (house.program op) s) s ops ↔
      house.Throughout house.Unhindered s ops := by
  induction ops generalizing s with
  | nil => exact Iff.rfl
  | cons op ops ih =>
    obtain ⟨hop, hrest⟩ := List.forall_mem_cons.mp hops
    exact and_congr (house.observedOnce_iff hop s) (ih _ hrest)

/-! ## Observed, and not -/

/-- Alice's note to bob. -/
def watchedNote : Operation :=
  .send "alice" { to_ := .one "bob", body := "hi" } ⟨"m1", january 2⟩

/-- Alice and bob join, and bob looks at her letter, reads it and answers it. -/
def correspondence : List Operation :=
  [joinAs "alice", joinAs "bob", watchedNote, .view "bob" "m1", .read "bob" "m1" (january 3),
    .reply "bob" "m1" "hello" none ⟨"m2", january 3⟩]

/-- Every call of the correspondence is observed once. -/
theorem correspondence_observed :
    defaultHouse.Throughout
      (fun op s => defaultHouse.ObservedOnce (defaultHouse.program op) s) ⟨.empty, {}⟩
      correspondence := by
  have hwatched : ∀ op ∈ correspondence, op.Watched := by
    simp [correspondence, watchedNote, joinAs, Operation.Watched]
  refine (observed_throughout_iff defaultHouse ⟨.empty, {}⟩ correspondence hwatched).mpr ?_
  refine ⟨Or.inr ?_, Or.inr ?_, Or.inr ?_, Or.inr ?_, Or.inr ?_, Or.inr ?_, trivial⟩
  all_goals decide +kernel

/-- A house where alice and bob have joined, and alice has written to bob. -/
def afterNote : HouseState Observations :=
  [joinAs "alice", joinAs "bob", watchedNote].foldl (fun s op => (defaultHouse.step op s).2)
    ⟨.empty, {}⟩

/-- A letter to more readers than the limits allow, a look at a message that is not there,
and an answer to it; with what each is answered. -/
def refusedCalls : List (Operation × MailboxError) :=
  [(.send "alice" { to_ := .many (List.replicate 33 "bob"), body := "hi" } ⟨"m2", january 3⟩,
    .policyRefusal "message_limits" ("33 recipients named; this mailbox accepts up to 32" ++
      " — address a group instead of listing people")),
    (.view "alice" "m9", .noSuchMessage "m9"),
    (.reply "alice" "m9" "hello" none ⟨"m2", january 3⟩, .noSuchMessage "m9")]

/-- All are refused, and nobody is told. -/
theorem refused_calls_untold : refusedCalls.Forall fun call => call.1.Watched ∧
    (defaultHouse.step call.1 afterNote).1 = .error (.mailbox call.2) ∧
    House.tellings ((defaultHouse.program call.1).log House.handle afterNote) = [] ∧
    ¬ defaultHouse.Throughout (fun op s => defaultHouse.ObservedOnce (defaultHouse.program op) s)
      afterNote [call.1] := by
  rw [List.forall_iff_forall_mem]
  have hrefused : ∀ call ∈ refusedCalls,
      (defaultHouse.step call.1 afterNote).1 = .error (.mailbox call.2) ∧
        (House.tellings ((defaultHouse.program call.1).log House.handle afterNote)).isEmpty =
          true := by decide +kernel
  intro call hcall
  obtain ⟨hanswer, htellings⟩ := hrefused call hcall
  have hnone := List.isEmpty_iff.mp htellings
  refine ⟨?_, hanswer, hnone, ?_⟩
  · simp only [refusedCalls, List.mem_cons, List.not_mem_nil, or_false] at hcall
    rcases hcall with rfl | rfl | rfl <;> trivial
  · rintro ⟨⟨outcome, htold, _⟩, _⟩
    rw [hnone] at htold
    exact absurd htold (List.cons_ne_nil _ _).symm

end AgentMailbox
