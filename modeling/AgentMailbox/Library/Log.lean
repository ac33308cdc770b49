import AgentMailbox.Library.Program
import Mathlib.Data.List.Basic

/-!
# Logs

The calls a program makes when it runs alone, in order, each with the answer it was
given. What a program may call bounds its log; sequencing appends logs; and a
condition on every entry, given the entries before it, is checked part by part.
-/

/-- A call, and its answer. -/
structure LogEntry (S : Signature) where
  call : S.Call
  answer : S.Answer call

namespace Program

/-- The calls made in an uninterrupted run. -/
def log {S : Signature} {ε α σ : Type} (h : Handler S σ) : Program S ε α → σ → List (LogEntry S)
  | .ret _, _ => []
  | .raise _, _ => []
  | .call c next, s => ⟨c, (h c s).1⟩ :: log h (next (h c s).1) (h c s).2

section
variable {S : Signature} {ε α β σ : Type} (h : Handler S σ)

@[simp] theorem log_pure (a : α) (s : σ) : log h (pure a : Program S ε α) s = [] := rfl

@[simp] theorem log_throw (e : ε) (s : σ) : log h (throw e : Program S ε α) s = [] := rfl

@[simp] theorem log_perform (c : S.Call) (s : σ) :
    log h (perform c : Program S ε (S.Answer c)) s = [⟨c, (h c s).1⟩] := rfl

@[simp] theorem log_ofExcept (x : Except ε α) (s : σ) :
    log h (ofExcept x : Program S ε α) s = [] := by
  cases x <;> rfl

theorem log_bind (p : Program S ε α) (f : α → Program S ε β) (s : σ) :
    log h (p >>= f) s = log h p s ++ match run h p s with
      | (.ok a, s') => log h (f a) s'
      | (.error _, _) => [] := by
  induction p generalizing s with
  | ret a => rfl
  | raise e => rfl
  | call c next ih => exact congrArg (_ :: ·) (ih _ _)

theorem log_map (f : α → β) (p : Program S ε α) (s : σ) : log h (f <$> p) s = log h p s := by
  change log h (p >>= fun a => pure (f a)) s = _
  rw [log_bind]
  rcases run h p s with ⟨_ | _, s'⟩ <;> simp

theorem log_catchError (p : Program S ε α) (f : ε → Program S ε α) (s : σ) :
    log h (p.catchError f) s = log h p s ++ match run h p s with
      | (.ok _, _) => []
      | (.error e, s') => log h (f e) s' := by
  induction p generalizing s with
  | ret a => rfl
  | raise e => rfl
  | call c next ih => exact congrArg (_ :: ·) (ih _ _)

/-- A log holds allowed calls only. -/
theorem mem_log_of_uses {allowed : S.Call → Prop} {p : Program S ε α} (hp : p.Uses allowed) {s : σ}
    {entry : LogEntry S} (hentry : entry ∈ log h p s) : allowed entry.call := by
  induction p generalizing s with
  | ret a => simp [log] at hentry
  | raise e => simp [log] at hentry
  | call c next ih =>
    obtain ⟨hc, hnext⟩ := (uses_call_iff c next).mp hp
    rcases List.mem_cons.mp hentry with rfl | hrest
    · exact hc
    · exact ih _ (hnext _) hrest

/-- Every answer in a log is one the handler gives in some state. -/
theorem answer_of_mem_log {p : Program S ε α} {s : σ} {entry : LogEntry S}
    (hentry : entry ∈ log h p s) : ∃ t, entry.answer = (h entry.call t).1 := by
  induction p generalizing s with
  | ret a => simp [log] at hentry
  | raise e => simp [log] at hentry
  | call c next ih =>
    rcases List.mem_cons.mp hentry with rfl | hrest
    · exact ⟨s, rfl⟩
    · exact ih _ hrest

end

end Program

/-! ## Conditions on what came before -/

/-- Every entry satisfies `P` together with the entries before it. -/
def EachAfter {α : Type*} (P : List α → α → Prop) (log : List α) : Prop :=
  ∀ before entry rest, log = before ++ entry :: rest → P before entry

section
variable {α : Type*} {P Q : List α → α → Prop}

theorem eachAfter_of_forall {log : List α} (h : ∀ entry ∈ log, ∀ before, P before entry) :
    EachAfter P log := by
  rintro before entry rest rfl
  exact h entry (by simp) before

theorem EachAfter.mono {log : List α} (h : EachAfter P log)
    (himp : ∀ before, ∀ entry ∈ log, P before entry → Q before entry) : EachAfter Q log := by
  rintro before entry rest rfl
  exact himp before entry (by simp) (h before entry rest rfl)

theorem eachAfter_append (first second : List α) : EachAfter P (first ++ second) ↔
    EachAfter P first ∧ EachAfter (fun before => P (first ++ before)) second := by
  constructor
  · refine fun h => ⟨?_, ?_⟩
    · rintro before entry rest rfl
      exact h before entry (rest ++ second) (by simp)
    · rintro before entry rest rfl
      exact h (first ++ before) entry rest (by simp)
  · rintro ⟨hfirst, hsecond⟩ before entry rest heq
    rcases List.append_eq_append_iff.mp heq with ⟨between, rfl, heq'⟩ | ⟨between, rfl, heq'⟩
    · exact hsecond between entry rest heq'
    · cases between with
      | nil =>
        have h := hsecond [] entry rest heq'.symm
        simpa using h
      | cons head between =>
        obtain ⟨rfl, rfl⟩ := List.cons_eq_cons.mp heq'
        exact hfirst before entry between rfl

end
