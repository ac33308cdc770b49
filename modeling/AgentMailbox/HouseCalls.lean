import AgentMailbox.Calls
import AgentMailbox.Api
import AgentMailbox.HouseRuns
import AgentMailbox.Library.Log

/-!
# What the house asks of its surroundings

The log of a policed action has three parts: the policies checked one after the other,
the calls of the action itself, and the policies told of the outcome one after the
other. Nothing else of a house, or of the interface around it, reaches the store.
-/
namespace AgentMailbox

/-- A call on the store is one of these; the policies may be told of outcomes, and asked
whether to go on if `checks` says so. -/
def HouseCall.Within {μ : Type} (allowed : StoreCall → Prop) (checks : Bool) : HouseCall μ → Prop
  | .store c => allowed c
  | .check _ _ => checks = true
  | .record _ _ => True

/-- Whether the house asks its policies before it does this. -/
def Operation.policed : Operation → Bool
  | join _ _ _ | send _ _ _ | reply _ _ _ _ _ | read _ _ _ => true
  | whois _ | directory | updateProfile _ _ _ | installResident _ _ _ | peek _ | unreadCount _
  | thread _ _ | view _ _ | expire _ => false

/-- Whether a request makes the house ask its policies. -/
def Request.policed : Request → Bool
  | join _ _ _ | outbox _ _ _ _ | readObject _ _ _ => true
  | directory | actor _ | updateProfile _ _ _ _ | inbox _ _ | viewObject _ _ | thread _ _ => false

/-- An entry of the log of a house. -/
abbrev HouseEntry (μ : Type) : Type := LogEntry (houseSignature μ)

namespace House

section
variable {μ α : Type} {allowed : StoreCall → Prop} {checks : Bool}

/-! ## What it may call -/

lemma uses_lift {p : StoreProgram α} (hp : p.Uses allowed) :
    (lift p : HouseProgram μ α).Uses (HouseCall.Within allowed checks) := by
  have hask : ∀ c, allowed c → (ask (.store c) : HouseProgram μ c.Answer).Uses
      (HouseCall.Within allowed checks) := fun c hc => by
    exact Program.uses_perform (S := houseSignature μ) (c := HouseCall.store c) hc
  exact Program.uses_through hask hp

lemma uses_check (attempt : Attempt) (policies : List (Policy μ)) :
    (check attempt policies).Uses (HouseCall.Within allowed true) := by
  induction policies with
  | nil => exact Program.uses_pure _
  | cons policy rest ih =>
    refine Program.uses_bind (Program.uses_perform rfl) fun answer => ?_
    exact Program.uses_bind (Program.uses_ofExcept _) fun _ => ih

lemma uses_record (outcome : Outcome) (policies : List (Policy μ)) :
    (record outcome policies).Uses (HouseCall.Within allowed checks) := by
  induction policies with
  | nil => exact Program.uses_pure _
  | cons policy rest ih => exact Program.uses_bind (Program.uses_perform trivial) fun _ => ih

lemma uses_policed (house : House μ) (attempt : Attempt) (onError : JsonObject)
    (onSuccess : α → JsonObject) {act : StoreProgram α} (hact : act.Uses allowed) :
    (house.policed attempt onError onSuccess act).Uses (HouseCall.Within allowed true) := by
  unfold policed
  refine Program.uses_bind (uses_check attempt house.policies) fun _ => ?_
  refine Program.uses_bind (Program.uses_catchError (uses_lift hact) fun e => ?_) fun result => ?_
  · exact Program.uses_bind (uses_record _ _) fun _ => Program.uses_throw e
  · exact Program.uses_bind (uses_record _ _) fun _ => Program.uses_pure result

lemma uses_join (house : House μ) (requestedName : Option String) (draw : ℕ → Naming.Draw)
    (now : DateTime) :
    (house.join requestedName draw now).Uses (HouseCall.Within LeavesMessages true) :=
  house.uses_policed _ _ _ (AgentMailbox.uses_join house.mailbox requestedName draw now)

lemma uses_read (house : House μ) (caller objectId : String) (now : DateTime) :
    (house.read caller objectId now).Uses (HouseCall.Within LeavesMessages true) :=
  house.uses_policed _ _ _ (AgentMailbox.uses_read house.mailbox caller objectId now)

lemma uses_view (house : House μ) (caller objectId : String) :
    (house.view caller objectId).Uses (HouseCall.Within LeavesMessages checks) := by
  unfold view
  refine Program.uses_bind (uses_lift (uses_visibleObject _ _ _)) fun got => ?_
  exact Program.uses_bind (uses_record _ _) fun _ => Program.uses_pure got

/-- Everything but sending and expiry leaves the messages alone, in a house too. -/
theorem uses_program (house : House μ) {op : Operation} (hmint : op.minted = none)
    (hexpire : ∀ now, op ≠ .expire now) :
    (house.program op).Uses (HouseCall.Within LeavesMessages op.policed) := by
  cases op with
  | join requestedName draw now =>
    exact Program.uses_map (house.uses_join requestedName draw now) _
  | send caller draft stamp => simp [Operation.minted] at hmint
  | reply caller objectId body subject stamp => simp [Operation.minted] at hmint
  | read caller objectId now => exact Program.uses_map (house.uses_read caller objectId now) _
  | view caller objectId => exact Program.uses_map (house.uses_view caller objectId) _
  | whois | directory | updateProfile | installResident | peek | unreadCount | thread | expire =>
    exact uses_lift (AgentMailbox.uses_program house.mailbox hmint hexpire)

theorem objects_of_uses {p : HouseProgram μ α}
    (hp : p.Uses (HouseCall.Within LeavesMessages checks)) (s : HouseState μ) :
    (p.run handle s).2.store.objects = s.store.objects := by
  induction p generalizing s with
  | ret a => rfl
  | raise e => rfl
  | call c next ih =>
    obtain ⟨hc, hnext⟩ := (Program.uses_call_iff c next).mp hp
    refine (ih _ (hnext _) _).trans ?_
    cases c with
    | store c => exact LeavesMessages.objects_eq hc s.store
    | check policy attempt => rfl
    | record policy outcome => rfl

end

end House

namespace Api

variable {μ : Type} (api : Api μ)

/-- Every request but one to an outbox leaves the messages alone. -/
theorem uses_program (request : Request)
    (h : ∀ name body caller stamp, request ≠ .outbox name body caller stamp) :
    (api.program request).Uses (HouseCall.Within LeavesMessages request.policed) := by
  cases request with
  | join data draw now =>
    refine Program.uses_map ?_ _
    unfold join joinUnnameable
    split
    · exact Program.uses_bind (House.uses_join _ _ _ _) fun _ => Program.uses_ofExcept _
    · exact Program.uses_bind (House.uses_join _ _ _ _) fun _ => Program.uses_ofExcept _
    · exact Program.uses_bind (House.uses_policed _ _ _ _ (Program.uses_throw _))
        fun _ => Program.uses_ofExcept _
  | directory =>
    refine Program.uses_map ?_ _
    refine Program.uses_bind (House.uses_lift (uses_ask (c := .actors) trivial)) fun actors => ?_
    exact Program.uses_bind (Program.uses_ofExcept _) fun _ => Program.uses_pure _
  | actor name =>
    refine Program.uses_map (Program.uses_bind (Program.uses_ofExcept _) fun wanted => ?_) _
    refine Program.uses_bind (House.uses_lift (uses_ask (c := .getActor wanted) trivial)) ?_
    intro found
    cases found with
    | none => exact Program.uses_throw _
    | some record => exact Program.uses_ofExcept _
  | updateProfile name data caller now =>
    refine Program.uses_map (Program.uses_bind (Program.uses_ofExcept _) fun _ => ?_) _
    refine Program.uses_bind (Program.uses_ofExcept _) fun profile => ?_
    exact Program.uses_bind (House.uses_lift (uses_updateProfile _ _ _ _))
      fun _ => Program.uses_ofExcept _
  | outbox name body caller stamp => exact absurd rfl (h name body caller stamp)
  | inbox name caller =>
    refine Program.uses_map (Program.uses_bind (Program.uses_ofExcept _) fun _ => ?_) _
    refine Program.uses_bind (House.uses_lift (uses_peek _ _)) fun waiting => ?_
    exact Program.uses_bind (Program.uses_ofExcept _) fun _ => Program.uses_pure _
  | readObject objectId caller now =>
    exact Program.uses_map (Program.uses_bind (House.uses_read _ _ _ _) fun _ =>
      Program.uses_ofExcept _) _
  | viewObject objectId caller =>
    exact Program.uses_map (Program.uses_bind (House.uses_view _ _ _) fun _ =>
      Program.uses_ofExcept _) _
  | thread objectId caller =>
    refine Program.uses_map (Program.uses_bind (House.uses_lift (uses_thread _ _ _)) ?_) _
    intro turns
    split_ifs
    · exact Program.uses_throw _
    · exact Program.uses_bind (Program.uses_ofExcept _) fun _ => Program.uses_pure _

end Api

/-! ## What is asked, in order -/

namespace House

section
variable {μ α : Type}

/-- A call on the store, as the house makes it. -/
def onStore (entry : LogEntry messageStore) : HouseEntry μ := ⟨.store entry.call, entry.answer⟩

/-- A policy asked about an attempt, which it did not refuse. -/
def passed (attempt : Attempt) (policy : Policy μ) : HouseEntry μ :=
  ⟨.check policy attempt, .ok ()⟩

theorem log_lift (p : StoreProgram α) (s : HouseState μ) :
    (lift p).log handle s = (p.log InMemoryStore.handle s.store).map onStore := by
  induction p generalizing s with
  | ret a => rfl
  | raise e => rfl
  | call c next ih => exact congrArg (_ :: ·) (ih _ _)

lemma log_askCheck (policy : Policy μ) (attempt : Attempt) (s : HouseState μ) :
    (askCheck policy attempt).log handle s =
      [⟨.check policy attempt, (policy.check attempt s.store s.memory).1⟩] := rfl

lemma log_askRecord (policy : Policy μ) (outcome : Outcome) (s : HouseState μ) :
    (askRecord policy outcome).log handle s =
      [⟨.record policy outcome, (policy.record outcome s.store s.memory).1⟩] := rfl

/-- Either every policy passes the attempt, or one refuses it and the next are not asked. -/
theorem log_check (attempt : Attempt) (policies : List (Policy μ)) (s : HouseState μ) :
    (∃ m, (check attempt policies).run handle s = (.ok (), ⟨s.store, m⟩) ∧
      (check attempt policies).log handle s = policies.map (passed attempt)) ∨
    ∃ m passing policy rest e, (check attempt policies).run handle s = (.error e, ⟨s.store, m⟩) ∧
      policies = passing ++ policy :: rest ∧
      (check attempt policies).log handle s =
        passing.map (passed attempt) ++ [⟨.check policy attempt, .error e⟩] := by
  induction policies generalizing s with
  | nil => exact Or.inl ⟨s.memory, rfl, rfl⟩
  | cons policy policies ih =>
    simp only [check, Program.run_bind, Program.log_bind, run_askCheck, log_askCheck]
    generalize policy.check attempt s.store s.memory = answered
    obtain ⟨answer, m⟩ := answered
    cases answer with
    | error e => exact Or.inr ⟨m, [], policy, policies, e, rfl, rfl, rfl⟩
    | ok _ =>
      rcases ih ⟨s.store, m⟩ with
        ⟨m', hrun, hlog⟩ | ⟨m', passing, refusing, rest, e, hrun, rfl, hlog⟩
      · exact Or.inl ⟨m', hrun, congrArg (passed attempt policy :: ·) hlog⟩
      · exact Or.inr ⟨m', policy :: passing, refusing, rest, e, hrun, rfl,
          congrArg (passed attempt policy :: ·) hlog⟩

/-- Every policy is told of the outcome, once and in turn. -/
theorem log_record (outcome : Outcome) (policies : List (Policy μ)) (s : HouseState μ) :
    ((record outcome policies).log handle s).map LogEntry.call =
      policies.map fun policy => .record policy outcome := by
  induction policies generalizing s with
  | nil => rfl
  | cons policy rest ih =>
    simp only [record, Program.log_bind, run_askRecord, log_askRecord]
    exact congrArg (HouseCall.record policy outcome :: ·) (ih _)

/-- What policing an action leads to, and what is asked on the way: refused by a policy
before anything is done, or done and then told of. -/
theorem log_policed (house : House μ) (attempt : Attempt) (onError : JsonObject)
    (onSuccess : α → JsonObject) (act : StoreProgram α) (s : HouseState μ) :
    (∃ m passing policy rest e, house.policies = passing ++ policy :: rest ∧
      ((check attempt house.policies).run handle s).1 = .error e ∧
      (house.policed attempt onError onSuccess act).run handle s = (.error e, ⟨s.store, m⟩) ∧
      (house.policed attempt onError onSuccess act).log handle s =
        passing.map (passed attempt) ++ [⟨.check policy attempt, .error e⟩]) ∨
    ∃ m told, ((check attempt house.policies).run handle s).1 = .ok () ∧
      (house.policed attempt onError onSuccess act).run handle s =
        ((runs act s.store).1, ⟨(runs act s.store).2, m⟩) ∧
      (house.policed attempt onError onSuccess act).log handle s =
        house.policies.map (passed attempt) ++
          ((act.log InMemoryStore.handle s.store).map onStore ++ told) ∧
      told.map LogEntry.call = house.policies.map fun policy => .record policy
        (match (runs act s.store).1 with
          | .ok a => ⟨attempt, true, none, onSuccess a⟩
          | .error e => ⟨attempt, false, some e, onError⟩) := by
  unfold policed
  rcases log_check attempt house.policies s with
    ⟨m, hrun, hlog⟩ | ⟨m, passing, policy, rest, e, hrun, hpolicies, hlog⟩
  · right
    simp only [Program.run_bind, Program.log_bind, hrun, hlog, Program.run_catchError,
      Program.log_catchError, run_lifted, log_lift]
    generalize runs act s.store = acted
    obtain ⟨result, store⟩ := acted
    cases result with
    | error e =>
      obtain ⟨m', hrecord⟩ := run_record ⟨attempt, false, some e, onError⟩ house.policies
        ⟨store, m⟩
      refine ⟨m', _, trivial, ?_, ?_, log_record _ _ ⟨store, m⟩⟩
      · simp only [hrecord, Program.run_throw]
      · simp only [hrecord, Program.log_throw, Program.run_throw, List.append_nil]
    | ok a =>
      obtain ⟨m', hrecord⟩ := run_record ⟨attempt, true, none, onSuccess a⟩ house.policies
        ⟨store, m⟩
      refine ⟨m', _, trivial, ?_, ?_, log_record _ _ ⟨store, m⟩⟩
      · simp only [hrecord, Program.run_pure]
      · simp only [hrecord, Program.log_pure, List.append_nil]
  · left
    refine ⟨m, passing, policy, rest, e, hpolicies, by rw [hrun], ?_, ?_⟩
    · simp only [Program.run_bind, hrun]
    · simp only [Program.log_bind, hrun, hlog, List.append_nil]

end

end House

end AgentMailbox
