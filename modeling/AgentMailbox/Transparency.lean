import AgentMailbox.HouseCalls

/-!
# A house adds only refusal and observation

Where no policy refuses, a house answers as its mailbox does and leaves the same store
behind, operation after operation, whatever its observers do and raise.
-/
namespace AgentMailbox

/-- Each answer of a run of the mailbox, with the store it leaves. -/
def Mailbox.transcript (mb : Mailbox) (s : InMemoryStore) :
    List Operation → List (Except Raised Result × InMemoryStore)
  | [] => []
  | op :: ops => op.step mb s :: mb.transcript (op.step mb s).2 ops

namespace House

section
variable {μ : Type}

/-- Each answer of a run of the house, with the store it leaves. -/
def transcript (house : House μ) (s : HouseState μ) :
    List Operation → List (Except Raised Result × InMemoryStore)
  | [] => []
  | op :: ops => ((house.step op s).1, (house.step op s).2.store) ::
      house.transcript (house.step op s).2 ops

/-- No policy's check ever raises. -/
def Lenient (house : House μ) : Prop :=
  ∀ policy ∈ house.policies, ∀ attempt store m, (policy.check attempt store m).1 = .ok ()

variable {α : Type} {house : House μ}

/-- A policed action of a lenient house is the action. -/
lemma Lenient.run_policed (h : house.Lenient) (attempt : Attempt) (onError : JsonObject)
    (onSuccess : α → JsonObject) (act : StoreProgram α) (s : HouseState μ) :
    ∃ m, (house.policed attempt onError onSuccess act).run handle s =
      ((runs act s.store).1, ⟨(runs act s.store).2, m⟩) := by
  rcases house.log_policed attempt onError onSuccess act s with
    ⟨_, passing, policy, rest, e, hpolicies, _, _, hlog⟩ | ⟨m, _, _, hrun, _⟩
  · have hentry : ⟨.check policy attempt, .error e⟩ ∈
        (house.policed attempt onError onSuccess act).log handle s := by
      rw [hlog]
      exact List.mem_append_right _ (List.mem_singleton_self _)
    obtain ⟨t, ht⟩ := Program.answer_of_mem_log handle hentry
    have hpolicy : policy ∈ house.policies := by
      rw [hpolicies]
      exact List.mem_append_right _ List.mem_cons_self
    have haccepts : Except.error e = Except.ok () :=
      ht.trans (h policy hpolicy attempt t.store t.memory)
    cases haccepts
  · exact ⟨m, hrun⟩

/-- Viewing has no check to pass, so it is the mailbox's viewing in every house. -/
lemma run_view_done (house : House μ) (caller objectId : String) (s : HouseState μ) :
    ∃ m, (house.view caller objectId).run handle s =
      ((runs (house.mailbox.view caller objectId) s.store).1,
        ⟨(runs (house.mailbox.view caller objectId) s.store).2, m⟩) := by
  unfold view
  rw [Program.run_bind, run_lifted]
  generalize runs (house.mailbox.view caller objectId) s.store = viewed
  obtain ⟨result, store⟩ := viewed
  cases result with
  | error e => exact ⟨s.memory, rfl⟩
  | ok obj =>
    simp only [Program.run_bind]
    obtain ⟨m, hrecord⟩ := run_record
      ⟨⟨"view", caller, [], none, "", Dict.ofList [("id", .str objectId)]⟩, true, none, ∅⟩
      house.policies { s with store := store }
    exact ⟨m, by simp only [hrecord, Program.run_pure]⟩

lemma Lenient.run_reply (h : house.Lenient) (caller objectId body : String)
    (subject : Option String) (stamp : Stamp) (s : HouseState μ) :
    ∃ m, (house.reply caller objectId body subject stamp).run handle s =
      ((runs (house.mailbox.reply caller objectId body subject stamp) s.store).1,
        ⟨(runs (house.mailbox.reply caller objectId body subject stamp) s.store).2, m⟩) := by
  unfold reply Mailbox.reply Mailbox.view
  rw [Program.run_bind, runs_bind, run_lifted, Mailbox.runs_visibleObject]
  cases house.mailbox.visibleIn s.store caller objectId with
  | error e => exact ⟨s.memory, rfl⟩
  | ok original =>
    exact h.run_policed _ _ _ (house.mailbox.send caller _ stamp) s

/-- What a step of the house comes to when it does what the mailbox does. -/
def DoneBy (house : House μ) (op : Operation) (s : HouseState μ) : Prop :=
  (house.step op s).1 = (op.step house.mailbox s.store).1 ∧
    (house.step op s).2.store = (op.step house.mailbox s.store).2

lemma doneBy_of_run {op : Operation} {s : HouseState μ} {f : α → Result} {p : HouseProgram μ α}
    {act : StoreProgram α} (hprogram : house.program op = f <$> p)
    (hact : op.program house.mailbox = f <$> act)
    (hrun : ∃ m, p.run handle s = ((runs act s.store).1, ⟨(runs act s.store).2, m⟩)) :
    house.DoneBy op s := by
  obtain ⟨m, hrun⟩ := hrun
  unfold DoneBy step
  rw [Operation.step_eq_runs, hprogram, hact, run_map, runs_map, hrun]
  exact ⟨rfl, rfl⟩

lemma doneBy_of_lift {op : Operation} {s : HouseState μ}
    (hprogram : house.program op = lift (op.program house.mailbox)) : house.DoneBy op s := by
  unfold DoneBy step
  rw [Operation.step_eq_runs, hprogram, run_lifted]
  exact ⟨rfl, rfl⟩

/-- Each step of a lenient house is the mailbox's. -/
theorem Lenient.doneBy (h : house.Lenient) (op : Operation) (s : HouseState μ) :
    house.DoneBy op s := by
  cases op with
  | join requestedName draw now => exact doneBy_of_run rfl rfl (h.run_policed _ _ _ _ s)
  | send caller draft stamp => exact doneBy_of_run rfl rfl (h.run_policed _ _ _ _ s)
  | read caller objectId now => exact doneBy_of_run rfl rfl (h.run_policed _ _ _ _ s)
  | reply caller objectId body subject stamp =>
    exact doneBy_of_run rfl rfl (h.run_reply caller objectId body subject stamp s)
  | view caller objectId => exact doneBy_of_run rfl rfl (run_view_done house caller objectId s)
  | whois | directory | updateProfile | installResident | peek | unreadCount | thread | expire =>
    exact doneBy_of_lift rfl

end

end House

/-- A run of a house whose checks never raise is a run of its mailbox: the same answers
and the same stores, step by step. -/
theorem house_transcript_eq {μ : Type} (house : House μ) (h : house.Lenient) (s : HouseState μ)
    (ops : List Operation) :
    house.transcript s ops = house.mailbox.transcript s.store ops := by
  induction ops generalizing s with
  | nil => rfl
  | cons op ops ih =>
    obtain ⟨hanswer, hstore⟩ := h.doneBy op s
    rw [House.transcript, Mailbox.transcript, ih, hanswer, hstore]

/-! ## A house with a broken observer -/

/-- An observer that fails at every outcome. -/
def brokenObserver : Policy Observations where
  name := "broken"
  record _ _ m := (.error (.foreign "RuntimeError"), m)

/-- Nobody is refused here, and everything is observed, or meant to be. -/
def watchedHouse : House Observations :=
  ⟨asciiMailbox, [brokenObserver, auditLog asciiUnicode, probeDetector 1]⟩

/-- Alice writes to bob, who reads the letter and answers it; reading an unknown one and
writing to a stranger fail. -/
def watchedOperations : List Operation :=
  [joinAs "alice", joinAs "bob",
    .send "alice" { to_ := .one "bob", body := "hi" } ⟨"m1", january 2⟩,
    .read "bob" "m1" (january 3), .read "bob" "m2" (january 3),
    .reply "bob" "m1" "hello" none ⟨"m2", january 3⟩,
    .send "alice" { to_ := .one "carol", body := "hi" } ⟨"m3", january 4⟩]

theorem watched_operations_eq :
    watchedHouse.transcript ⟨.empty, {}⟩ watchedOperations =
      asciiMailbox.transcript .empty watchedOperations := by
  have hlenient : watchedHouse.Lenient := by
    intro policy hpolicy attempt store m
    simp only [watchedHouse, List.mem_cons, List.not_mem_nil, or_false] at hpolicy
    rcases hpolicy with rfl | rfl | rfl <;> rfl
  exact house_transcript_eq watchedHouse hlenient ⟨.empty, {}⟩ watchedOperations

end AgentMailbox
