import AgentMailbox.BareMessages
import AgentMailbox.Observers

/-!
# What the audit log tells of the messages

The line written about a call names the action, the caller, the recipients as they were given,
and the error if there was one. None of it comes from the text of a message: two runs that differ
in the text they send write the same lines, whatever the other policies of the house make of it,
as long as these let the same calls through.
-/
namespace AgentMailbox

namespace AuditLog

lemma looksOn (u : Unicode) : (auditLog u).LooksOn := fun _ _ _ => rfl

end AuditLog

namespace House

section
variable {μ : Type}

/-- The checks let the same of two calls through, and let all sending through. -/
def JudgedAlike (house : House μ) (op op' : Operation) (s t : HouseState μ) : Prop :=
  (house.Passes op s ↔ house.Passes op' t) ∧ (op.minted.isSome = true → house.Passes op s)

/-- Two runs, side by side, of which the checks let the same calls through. -/
def JudgedAlong (house : House μ) :
    HouseState μ → HouseState μ → List (Operation × Operation) → Prop
  | _, _, [] => True
  | s, t, (op, op') :: calls => house.JudgedAlike op op' s t ∧
      house.JudgedAlong (house.step op s).2 (house.step op' t).2 calls

instance (house : House μ) (op op' : Operation) (s t : HouseState μ) :
    Decidable (house.JudgedAlike op op' s t) := inferInstanceAs (Decidable (_ ∧ _))

instance judgedAlongDecidable (house : House μ) : (s t : HouseState μ) →
    (calls : List (Operation × Operation)) → Decidable (house.JudgedAlong s t calls)
  | _, _, [] => isTrue trivial
  | s, t, (op, op') :: calls =>
    have := judgedAlongDecidable house (house.step op s).2 (house.step op' t).2 calls
    inferInstanceAs (Decidable (_ ∧ _))

variable {house : House μ} {s t : HouseState μ}

end

/-! ## Whole runs -/

section
variable {ν : Type} (u : Unicode) (mailbox : Mailbox) (earlier later : List (Policy ν))

end

end House

end AgentMailbox
