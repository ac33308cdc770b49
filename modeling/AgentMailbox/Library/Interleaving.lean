import AgentMailbox.Library.Program
import Mathlib.Logic.Function.Basic
import Mathlib.Data.List.Basic

/-!
# Interleaved tasks

Any number of tasks share one object. A schedule names the task that moves next;
a move is that task's next call, carried out atomically. A task that is never
named again has stopped where it stands, which is how an abandoned task looks
from outside.

Invariants are proved by rely and guarantee. What a task poised at a call needs
of the shared state is its assertion; `Safe` says that the assertion is
established by the task's own calls, and survives whatever the other tasks are
allowed to do while it waits.
-/
namespace Interleaving

structure Config (S : Signature) (ε α ι σ : Type) where
  state : σ
  tasks : ι → Program S ε α

section
variable {S : Signature} {ε α ι σ : Type}

/-- The call a program is about to make. -/
def next? : Program S ε α → Option S.Call
  | .call c _ => some c
  | _ => none

/-- What a finished program has returned or raised. -/
def result? : Program S ε α → Option (Except ε α)
  | .ret a => some (.ok a)
  | .raise e => some (.error e)
  | .call _ _ => none

theorem result?_ok_iff (p : Program S ε α) (a : α) : result? p = some (.ok a) ↔ p = .ret a := by
  cases p <;> simp [result?]

theorem result?_error_iff (p : Program S ε α) (e : ε) :
    result? p = some (.error e) ↔ p = .raise e := by
  cases p <;> simp [result?]

/-- The program after its next call has been answered. -/
def resume (h : Handler S σ) : Program S ε α → σ → Program S ε α
  | .call c next, s => next (h c s).1
  | p, _ => p

/-- The shared state after the program's next call. -/
def effect (h : Handler S σ) : Program S ε α → σ → σ
  | .call c _, s => (h c s).2
  | _, s => s

/-- Task `i` makes its next call; a finished task does nothing. -/
def advance [DecidableEq ι] (h : Handler S σ) (cfg : Config S ε α ι σ) (i : ι) :
    Config S ε α ι σ :=
  ⟨effect h (cfg.tasks i) cfg.state,
    Function.update cfg.tasks i (resume h (cfg.tasks i) cfg.state)⟩

/-- A run under a schedule. -/
def run [DecidableEq ι] (h : Handler S σ) (cfg : Config S ε α ι σ) (schedule : List ι) :
    Config S ε α ι σ := schedule.foldl (advance h) cfg

/-- Every step of the run is taken in a configuration that meets the condition. -/
def Along [DecidableEq ι] (h : Handler S σ) (cond : Config S ε α ι σ → ι → Prop) :
    Config S ε α ι σ → List ι → Prop
  | _, [] => True
  | cfg, i :: schedule => cond cfg i ∧ Along h cond (advance h cfg i) schedule

def Along.decidable [DecidableEq ι] (h : Handler S σ) (cond : Config S ε α ι σ → ι → Prop)
    [∀ cfg i, Decidable (cond cfg i)] :
    (cfg : Config S ε α ι σ) → (schedule : List ι) → Decidable (Along h cond cfg schedule)
  | _, [] => isTrue trivial
  | cfg, i :: schedule =>
    have := Along.decidable h cond (advance h cfg i) schedule
    inferInstanceAs (Decidable (cond cfg i ∧ Along h cond (advance h cfg i) schedule))

instance [DecidableEq ι] (h : Handler S σ) (cond : Config S ε α ι σ → ι → Prop)
    [∀ cfg i, Decidable (cond cfg i)] (cfg : Config S ε α ι σ) (schedule : List ι) :
    Decidable (Along h cond cfg schedule) := Along.decidable h cond cfg schedule

variable [DecidableEq ι] {h : Handler S σ}

@[simp] theorem run_nil (cfg : Config S ε α ι σ) : run h cfg [] = cfg := rfl

theorem run_cons (cfg : Config S ε α ι σ) (i : ι) (schedule : List ι) :
    run h cfg (i :: schedule) = run h (advance h cfg i) schedule := rfl

theorem run_append (cfg : Config S ε α ι σ) (first rest : List ι) :
    run h cfg (first ++ rest) = run h (run h cfg first) rest := List.foldl_append

@[simp] theorem advance_self (cfg : Config S ε α ι σ) (i : ι) :
    (advance h cfg i).tasks i = resume h (cfg.tasks i) cfg.state := by simp [advance]

@[simp] theorem advance_other (cfg : Config S ε α ι σ) {i j : ι} (hij : j ≠ i) :
    (advance h cfg i).tasks j = cfg.tasks j := by simp [advance, hij]

theorem advance_state (cfg : Config S ε α ι σ) {i : ι} {c : S.Call}
    (hi : next? (cfg.tasks i) = some c) : (advance h cfg i).state = (h c cfg.state).2 := by
  cases hp : cfg.tasks i with
  | ret a => simp [hp, next?] at hi
  | raise e => simp [hp, next?] at hi
  | call d next =>
    rw [hp, next?, Option.some.injEq] at hi
    subst hi
    simp [advance, hp, effect]

/-- A finished task's turn changes nothing. -/
theorem advance_idle (cfg : Config S ε α ι σ) (i : ι) (hi : next? (cfg.tasks i) = none) :
    advance h cfg i = cfg := by
  have hsame : effect h (cfg.tasks i) cfg.state = cfg.state ∧
      resume h (cfg.tasks i) cfg.state = cfg.tasks i := by
    cases hp : cfg.tasks i with
    | ret a => exact ⟨rfl, rfl⟩
    | raise e => exact ⟨rfl, rfl⟩
    | call c next => simp [hp, next?] at hi
  rw [advance, hsame.1, hsame.2, Function.update_eq_self]

theorem along_append {cond : Config S ε α ι σ → ι → Prop} (cfg : Config S ε α ι σ)
    (first rest : List ι) : Along h cond cfg (first ++ rest) ↔
      Along h cond cfg first ∧ Along h cond (run h cfg first) rest := by
  induction first generalizing cfg with
  | nil => simp [Along]
  | cons i first ih => simp only [List.cons_append, Along, ih, run_cons, and_assoc]

/-- What every permitted step preserves, every permitted run preserves. -/
theorem run_invariant {I : Config S ε α ι σ → Prop} {cond : Config S ε α ι σ → ι → Prop}
    (hstep : ∀ cfg i, I cfg → cond cfg i → I (advance h cfg i))
    (cfg : Config S ε α ι σ) (schedule : List ι) (hinit : I cfg)
    (hcond : Along h cond cfg schedule) : I (run h cfg schedule) := by
  induction schedule generalizing cfg with
  | nil => exact hinit
  | cons i schedule ih => exact ih _ (hstep cfg i hinit hcond.1) hcond.2

/-- The calls made along a schedule: by whom, which, and in what state. -/
def trace (h : Handler S σ) :
    Config S ε α ι σ → List ι → List (ι × S.Call × σ)
  | _, [] => []
  | cfg, i :: schedule =>
    ((next? (cfg.tasks i)).map fun c => (i, c, cfg.state)).toList ++
      trace h (advance h cfg i) schedule

/-- What every call preserves, of the configuration and of the calls made so far, holds
at the end of every run. -/
theorem run_trace_invariant {I : Config S ε α ι σ → List (ι × S.Call × σ) → Prop}
    (hstep : ∀ cfg past i c next, I cfg past → cfg.tasks i = .call c next →
      I ⟨(h c cfg.state).2, Function.update cfg.tasks i (next (h c cfg.state).1)⟩
        (past ++ [(i, c, cfg.state)]))
    (cfg : Config S ε α ι σ) (past : List (ι × S.Call × σ)) (schedule : List ι)
    (hinit : I cfg past) : I (run h cfg schedule) (past ++ trace h cfg schedule) := by
  induction schedule generalizing cfg past with
  | nil => simpa [trace] using hinit
  | cons i schedule ih =>
    rw [run_cons, trace, ← List.append_assoc]
    cases hi : cfg.tasks i with
    | call c next =>
      have hadvance : advance h cfg i =
          ⟨(h c cfg.state).2, Function.update cfg.tasks i (next (h c cfg.state).1)⟩ := by
        simp only [advance, hi, effect, resume]
      rw [hadvance]
      exact ih _ _ (hstep cfg past i c next hinit hi)
    | ret a =>
      rw [advance_idle cfg i (by rw [hi]; rfl)]
      simpa [next?] using ih cfg past hinit
    | raise e =>
      rw [advance_idle cfg i (by rw [hi]; rfl)]
      simpa [next?] using ih cfg past hinit

end

/-! ## Rely and guarantee -/

section
variable {S T : Signature} {ε α β σ : Type}

/-- From this state on, whatever the others do within `rely`, the program makes
only calls that are `ok` when it makes them, and returns values that meet `post`. -/
def Safe (h : Handler S σ) (ok : σ → S.Call → Prop) (rely : S.Call → σ → σ → Prop)
    (post : α → σ → Prop) : Program S ε α → σ → Prop
  | .ret a, s => post a s
  | .raise _, _ => True
  | .call c next, s => ∀ s', rely c s s' →
      ok s' c ∧ Safe h ok rely post (next (h c s').1) (h c s').2

variable {h : Handler S σ} {ok : σ → S.Call → Prop} {rely : S.Call → σ → σ → Prop}

@[simp] theorem safe_ret {post : α → σ → Prop} (a : α) (s : σ) :
    Safe h ok rely post (.ret a : Program S ε α) s ↔ post a s := Iff.rfl

@[simp] theorem safe_pure {post : α → σ → Prop} (a : α) (s : σ) :
    Safe h ok rely post (pure a : Program S ε α) s ↔ post a s := Iff.rfl

@[simp] theorem safe_raise {post : α → σ → Prop} (e : ε) (s : σ) :
    Safe h ok rely post (.raise e : Program S ε α) s := trivial

theorem safe_call_iff {post : α → σ → Prop} (c : S.Call) (next : S.Answer c → Program S ε α)
    (s : σ) : Safe h ok rely post (.call c next) s ↔
      ∀ s', rely c s s' → ok s' c ∧ Safe h ok rely post (next (h c s').1) (h c s').2 := Iff.rfl

attribute [irreducible] Safe

theorem safe_bind {post : β → σ → Prop} {p : Program S ε α} {f : α → Program S ε β} {s : σ}
    (hp : Safe h ok rely (fun a s' => Safe h ok rely post (f a) s') p s) :
    Safe h ok rely post (p >>= f) s := by
  induction p generalizing s with
  | ret a => exact (safe_ret a s).mp hp
  | raise e => exact safe_raise e s
  | call c next ih =>
    refine (safe_call_iff c _ s).mpr fun s' hs => ?_
    obtain ⟨hc, hnext⟩ := (safe_call_iff c next s).mp hp s' hs
    exact ⟨hc, ih _ hnext⟩

theorem Safe.mono {post post' : α → σ → Prop} (himp : ∀ a s, post a s → post' a s)
    {p : Program S ε α} {s : σ} (hp : Safe h ok rely post p s) :
    Safe h ok rely post' p s := by
  induction p generalizing s with
  | ret a => exact (safe_ret a s).mpr (himp a s ((safe_ret a s).mp hp))
  | raise e => exact safe_raise e s
  | call c next ih =>
    refine (safe_call_iff c _ s).mpr fun s' hs => ?_
    obtain ⟨hc, hnext⟩ := (safe_call_iff c next s).mp hp s' hs
    exact ⟨hc, ih _ hnext⟩

/-- One call, made in a state where it is fine and stays fine. -/
theorem safe_perform {post : S.Answer c → σ → Prop} {s : σ}
    (hc : ∀ s', rely c s s' → ok s' c ∧ post (h c s').1 (h c s').2) :
    Safe h ok rely post (Program.perform c : Program S ε (S.Answer c)) s :=
  (safe_call_iff c _ s).mpr fun s' hs => ⟨(hc s' hs).1, (safe_ret _ _).mpr (hc s' hs).2⟩

/-- A program all of whose calls are unconditionally fine, and keep an assertion that
the others keep too, is safe and keeps it. -/
theorem safe_of_uses {allowed : S.Call → Prop} {ready : σ → Prop}
    (hok : ∀ s c, allowed c → ok s c) (hkeep : ∀ s c, allowed c → ready s → ready (h c s).2)
    (hrely : ∀ c s s', rely c s s' → ready s → ready s') {p : Program S ε α}
    (hp : p.Uses allowed) {s : σ} (hs : ready s) :
    Safe h ok rely (fun _ s' => ready s') p s := by
  induction p generalizing s with
  | ret a => exact (safe_ret a s).mpr hs
  | raise e => exact safe_raise e s
  | call c next ih =>
    obtain ⟨hc, hnext⟩ := (Program.uses_call_iff c next).mp hp
    refine (safe_call_iff c _ s).mpr fun s' hs' => ⟨hok s' c hc, ih _ (hnext _) ?_⟩
    exact hkeep s' c hc (hrely c s s' hs' hs)

/-- Waiting does not spoil safety, as long as the rely composes. -/
theorem Safe.wait {post : α → σ → Prop} (htrans : ∀ c s t u, rely c s t → rely c t u → rely c s u)
    {p : Program S ε α} {s s' : σ} (hp : Safe h ok rely post p s)
    (hpost : ∀ a, p = .ret a → post a s')
    (hs : ∀ c, next? p = some c → rely c s s') : Safe h ok rely post p s' := by
  cases p with
  | ret a => exact (safe_ret a s').mpr (hpost a rfl)
  | raise e => exact safe_raise e s'
  | call c next =>
    refine (safe_call_iff c next s').mpr fun t ht => ?_
    exact (safe_call_iff c next s).mp hp t (htrans c s s' t (hs c rfl) ht)

variable {ι : Type} [DecidableEq ι]

/-- One step of an interleaved run, seen by an invariant of the state and by every
task's safety. -/
theorem safe_step {ok : ι → σ → S.Call → Prop} {rely : ι → S.Call → σ → σ → Prop}
    {I : σ → Prop} {cond : Config S ε α ι σ → ι → Prop}
    (hrefl : ∀ i c s, rely i c s s)
    (htrans : ∀ i c s t u, rely i c s t → rely i c t u → rely i c s u)
    (hinv : ∀ cfg i c, cond cfg i → next? (cfg.tasks i) = some c → I cfg.state →
      ok i cfg.state c → I (h c cfg.state).2)
    (hrely : ∀ cfg i j c d, cond cfg i → j ≠ i → next? (cfg.tasks i) = some c →
      next? (cfg.tasks j) = some d → I cfg.state → ok i cfg.state c →
      rely j d cfg.state (h c cfg.state).2)
    (cfg : Config S ε α ι σ) (i : ι) (hcond : cond cfg i)
    (hI : I cfg.state)
    (hsafe : ∀ j, Safe h (ok j) (rely j) (fun _ _ => True) (cfg.tasks j) cfg.state) :
    I (advance h cfg i).state ∧
      ∀ j, Safe h (ok j) (rely j) (fun _ _ => True)
        ((advance h cfg i).tasks j) (advance h cfg i).state := by
  cases hi : cfg.tasks i with
  | ret a =>
    rw [advance_idle cfg i (by simp [hi, next?])]
    exact ⟨hI, hsafe⟩
  | raise e =>
    rw [advance_idle cfg i (by simp [hi, next?])]
    exact ⟨hI, hsafe⟩
  | call c next =>
    have hnext : next? (cfg.tasks i) = some c := by simp [hi, next?]
    have hstate := advance_state (h := h) cfg hnext
    have hown := hsafe i
    rw [hi] at hown
    obtain ⟨hokc, hrest⟩ := (safe_call_iff c next cfg.state).mp hown cfg.state
      (hrefl i c cfg.state)
    rw [hstate]
    refine ⟨hinv cfg i c hcond hnext hI hokc, fun j => ?_⟩
    by_cases hji : j = i
    · subst hji
      rw [advance_self, hi]
      exact hrest
    · rw [advance_other cfg hji]
      exact (hsafe j).wait (htrans j) (fun _ _ => trivial)
        fun d hd => hrely cfg i j c d hcond hji hnext hd hI hokc

/-- The rule for whole runs: an invariant that every permitted call preserves, by
tasks that each rely only on what the others guarantee, holds at the end of every
permitted run. -/
theorem safe_run (ok : ι → σ → S.Call → Prop) (rely : ι → S.Call → σ → σ → Prop)
    (I : σ → Prop) {cond : Config S ε α ι σ → ι → Prop}
    (hrefl : ∀ i c s, rely i c s s)
    (htrans : ∀ i c s t u, rely i c s t → rely i c t u → rely i c s u)
    (hinv : ∀ cfg i c, cond cfg i → next? (cfg.tasks i) = some c → I cfg.state →
      ok i cfg.state c → I (h c cfg.state).2)
    (hrely : ∀ cfg i j c d, cond cfg i → j ≠ i → next? (cfg.tasks i) = some c →
      next? (cfg.tasks j) = some d → I cfg.state → ok i cfg.state c →
      rely j d cfg.state (h c cfg.state).2)
    (cfg : Config S ε α ι σ) (schedule : List ι) (hI : I cfg.state)
    (hsafe : ∀ j, Safe h (ok j) (rely j) (fun _ _ => True) (cfg.tasks j) cfg.state)
    (hcond : Along h cond cfg schedule) : I (run h cfg schedule).state :=
  (run_invariant
    (I := fun cfg => I cfg.state ∧
      ∀ j, Safe h (ok j) (rely j) (fun _ _ => True) (cfg.tasks j) cfg.state)
    (fun cfg i hinit hc => safe_step hrefl htrans hinv hrely cfg i hc hinit.1 hinit.2)
    cfg schedule ⟨hI, hsafe⟩ hcond).1

end

end Interleaving
