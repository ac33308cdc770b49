import Mathlib.Data.Finset.Prod
import Mathlib.Data.Finset.Image

/-!
# Spools

What is waiting in the boxes of an office: copies, each of a message and for one reader. A
delivery puts in a copy for every reader of a message, a reader takes its own copy, and old
messages are cleared away whole. A copy is waiting exactly if it was delivered and nothing
that ends its wait has happened since.
-/

/-- What can happen in the office. -/
inductive SpoolEvent (M R : Type)
  | delivered (m : M) (readers : Finset R)
  | taken (m : M) (reader : R)
  | cleared (ms : Finset M)
  deriving DecidableEq

namespace SpoolEvent

variable {M R : Type}

/-- The event ends the wait of a copy. -/
def Ends (m : M) (r : R) : SpoolEvent M R → Prop
  | delivered _ _ => False
  | taken m' r' => m' = m ∧ r' = r
  | cleared ms => m ∈ ms

variable [DecidableEq M] [DecidableEq R]

/-- The copies waiting after an event. -/
def apply (copies : Finset (M × R)) : SpoolEvent M R → Finset (M × R)
  | delivered m readers => copies ∪ {m} ×ˢ readers
  | taken m r => copies.erase (m, r)
  | cleared ms => copies.filter fun copy => copy.1 ∉ ms

theorem mem_apply (copies : Finset (M × R)) (event : SpoolEvent M R) (m : M) (r : R) :
    (m, r) ∈ event.apply copies ↔
      ((m, r) ∈ copies ∧ ¬ event.Ends m r) ∨
        ∃ readers, event = delivered m readers ∧ r ∈ readers := by
  cases event with
  | delivered m' readers =>
    simp only [apply, Ends, Finset.mem_union, Finset.mem_product, Finset.mem_singleton,
      not_false_eq_true, and_true, delivered.injEq]
    constructor
    · rintro (hold | ⟨rfl, hr⟩)
      · exact Or.inl hold
      · exact Or.inr ⟨readers, ⟨rfl, rfl⟩, hr⟩
    · rintro (hold | ⟨_, ⟨rfl, rfl⟩, hr⟩)
      · exact Or.inl hold
      · exact Or.inr ⟨rfl, hr⟩
  | taken m' r' => simp [apply, Ends, and_comm, eq_comm]
  | cleared ms => simp [apply, Ends]

end SpoolEvent

namespace Spool

variable {M R : Type} [DecidableEq M] [DecidableEq R]

/-- The copies waiting after a history. -/
def after (events : List (SpoolEvent M R)) : Finset (M × R) :=
  events.foldl SpoolEvent.apply ∅

theorem after_append (first rest : List (SpoolEvent M R)) :
    after (first ++ rest) = rest.foldl SpoolEvent.apply (after first) := List.foldl_append

/-- A copy is waiting exactly if it was delivered, and nothing has ended its wait since. -/
theorem mem_after_iff (events : List (SpoolEvent M R)) (m : M) (r : R) :
    (m, r) ∈ after events ↔ ∃ before readers later,
      events = before ++ .delivered m readers :: later ∧ r ∈ readers ∧
        ∀ event ∈ later, ¬ event.Ends m r := by
  induction events using List.reverseRecOn with
  | nil => simp [after]
  | append_singleton events event ih =>
    rw [after_append, List.foldl_cons, List.foldl_nil, SpoolEvent.mem_apply, ih]
    constructor
    · rintro (⟨⟨before, readers, later, rfl, hr, hlater⟩, hevent⟩ | ⟨readers, rfl, hr⟩)
      · refine ⟨before, readers, later ++ [event], by simp, hr, fun other hother => ?_⟩
        rcases List.mem_append.mp hother with hold | hnew
        · exact hlater other hold
        · rwa [List.mem_singleton.mp hnew]
      · exact ⟨events, readers, [], rfl, hr, by simp⟩
    · rintro ⟨before, readers, later, heq, hr, hlater⟩
      cases later using List.reverseRecOn with
      | nil =>
        obtain ⟨_, hlast⟩ := List.append_inj' heq rfl
        exact Or.inr ⟨readers, List.singleton_inj.mp hlast, hr⟩
      | append_singleton later last =>
        rw [← List.cons_append, ← List.append_assoc] at heq
        obtain ⟨rfl, hlast⟩ := List.append_inj' heq rfl
        obtain rfl := List.singleton_inj.mp hlast
        refine Or.inl ⟨⟨before, readers, later, rfl, hr, fun other hother => ?_⟩, ?_⟩
        · exact hlater other (List.mem_append_left _ hother)
        · exact hlater event (List.mem_append_right _ (List.mem_singleton_self event))

end Spool
