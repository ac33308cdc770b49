import Mathlib.Logic.Basic
import Mathlib.Order.Basic

/-!
# Programs of atomic calls

A program is what a task still has to do: return, raise, or make one call and go
on with its answer. Between two calls nothing can be observed, so a call is the
unit of interleaving. The same program can be run from start to finish against a
handler, translated into calls of a lower level, or advanced one call at a time.
-/

/-- What may be asked of a shared object, and the type of each answer. -/
structure Signature where
  Call : Type
  Answer : Call → Type

inductive Program (S : Signature) (ε α : Type) : Type where
  | ret (a : α)
  | raise (e : ε)
  | call (c : S.Call) (next : S.Answer c → Program S ε α)

/-- How a shared object in state `σ` answers each call. -/
abbrev Handler (S : Signature) (σ : Type) : Type := (c : S.Call) → σ → S.Answer c × σ

namespace Program

def bind {S : Signature} {ε α β : Type} (p : Program S ε α) (f : α → Program S ε β) :
    Program S ε β :=
  match p with
  | .ret a => f a
  | .raise e => .raise e
  | .call c next => .call c (fun answer => (next answer).bind f)

/-- `try: p except e: f(e)`. -/
def catchError {S : Signature} {ε α : Type} (p : Program S ε α) (f : ε → Program S ε α) :
    Program S ε α :=
  match p with
  | .ret a => .ret a
  | .raise e => f e
  | .call c next => .call c (fun answer => (next answer).catchError f)

instance {S : Signature} {ε : Type} : Monad (Program S ε) where
  pure := .ret
  bind := bind

instance {S : Signature} {ε : Type} : MonadExcept ε (Program S ε) where
  throw := .raise
  tryCatch := catchError

/-- One call, whose answer is returned. -/
def perform {S : Signature} {ε : Type} (c : S.Call) : Program S ε (S.Answer c) :=
  .call c .ret

/-- A computation without calls. -/
def ofExcept {S : Signature} {ε α : Type} : Except ε α → Program S ε α
  | .ok a => .ret a
  | .error e => .raise e

/-- The whole program, uninterrupted. An exception leaves the state it was raised in. -/
def run {S : Signature} {ε α σ : Type} (h : Handler S σ) : Program S ε α → σ → Except ε α × σ
  | .ret a, s => (.ok a, s)
  | .raise e, s => (.error e, s)
  | .call c next, s => run h (next (h c s).1) (h c s).2

section
variable {S : Signature} {ε α β σ : Type} (h : Handler S σ)

@[simp] theorem run_ret (a : α) (s : σ) :
    run h (.ret a : Program S ε α) s = (.ok a, s) := rfl

@[simp] theorem run_pure (a : α) (s : σ) :
    run h (pure a : Program S ε α) s = (.ok a, s) := rfl

@[simp] theorem run_raise (e : ε) (s : σ) :
    run h (.raise e : Program S ε α) s = (.error e, s) := rfl

@[simp] theorem run_throw (e : ε) (s : σ) :
    run h (throw e : Program S ε α) s = (.error e, s) := rfl

@[simp] theorem run_call (c : S.Call) (next : S.Answer c → Program S ε α) (s : σ) :
    run h (.call c next) s = run h (next (h c s).1) (h c s).2 := rfl

@[simp] theorem run_perform (c : S.Call) (s : σ) :
    run h (perform c : Program S ε (S.Answer c)) s = (.ok (h c s).1, (h c s).2) := rfl

@[simp] theorem run_ofExcept (x : Except ε α) (s : σ) :
    run h (ofExcept x : Program S ε α) s = (x, s) := by
  cases x <;> rfl

@[simp] theorem ofExcept_ok_bind (a : α) (f : α → Program S ε β) :
    (ofExcept (.ok a) >>= f) = f a := rfl

@[simp] theorem ofExcept_error_bind (e : ε) (f : α → Program S ε β) :
    (ofExcept (.error e) >>= f) = throw e := rfl

theorem run_bind (p : Program S ε α) (f : α → Program S ε β) (s : σ) :
    run h (p >>= f) s = match run h p s with
      | (.ok a, s') => run h (f a) s'
      | (.error e, s') => (.error e, s') := by
  induction p generalizing s with
  | ret a => rfl
  | raise e => rfl
  | call c next ih => exact ih _ _

theorem run_bind_ok {p : Program S ε α} {f : α → Program S ε β} {s s' : σ} {a : α}
    (hp : run h p s = (.ok a, s')) : run h (p >>= f) s = run h (f a) s' := by
  rw [run_bind, hp]

theorem run_catchError (p : Program S ε α) (f : ε → Program S ε α) (s : σ) :
    run h (p.catchError f) s = match run h p s with
      | (.ok a, s') => (.ok a, s')
      | (.error e, s') => run h (f e) s' := by
  induction p generalizing s with
  | ret a => rfl
  | raise e => rfl
  | call c next ih => exact ih _ _

/-- What every call preserves, every program preserves. -/
theorem run_invariant {I : σ → Prop} (hcall : ∀ c s, I s → I (h c s).2) (p : Program S ε α)
    {s : σ} (hs : I s) : I (run h p s).2 := by
  induction p generalizing s with
  | ret a => exact hs
  | raise e => exact hs
  | call c next ih => exact ih _ (hcall c s hs)

end

/-- Every call the program can come to make is one of the allowed ones. -/
def Uses {S : Signature} {ε α : Type} (allowed : S.Call → Prop) : Program S ε α → Prop
  | .ret _ => True
  | .raise _ => True
  | .call c next => allowed c ∧ ∀ answer, Uses allowed (next answer)

section
variable {S : Signature} {ε α β σ : Type} {allowed : S.Call → Prop}

@[simp] theorem uses_ret (a : α) : (ret a : Program S ε α).Uses allowed := trivial

@[simp] theorem uses_raise (e : ε) : (raise e : Program S ε α).Uses allowed := trivial

@[simp] theorem uses_pure (a : α) : (pure a : Program S ε α).Uses allowed := trivial

@[simp] theorem uses_throw (e : ε) : (throw e : Program S ε α).Uses allowed := trivial

@[simp] theorem uses_call_iff (c : S.Call) (next : S.Answer c → Program S ε α) :
    (call c next).Uses allowed ↔ allowed c ∧ ∀ answer, (next answer).Uses allowed := Iff.rfl

-- From here on the lemmas above are all there is to know: a program is never unfolded
-- in search of what it uses.
attribute [irreducible] Uses

theorem uses_bind {p : Program S ε α} {f : α → Program S ε β} (hp : p.Uses allowed)
    (hf : ∀ a, (f a).Uses allowed) : (p >>= f).Uses allowed := by
  induction p with
  | ret a => exact hf a
  | raise e => exact uses_raise e
  | call c next ih =>
    obtain ⟨hc, hnext⟩ := (uses_call_iff c next).mp hp
    exact (uses_call_iff c _).mpr ⟨hc, fun answer => ih answer (hnext answer)⟩

theorem uses_map {p : Program S ε α} (hp : p.Uses allowed) (f : α → β) :
    (f <$> p).Uses allowed := uses_bind hp fun a => uses_pure (f a)

theorem uses_catchError {p : Program S ε α} {f : ε → Program S ε α} (hp : p.Uses allowed)
    (hf : ∀ e, (f e).Uses allowed) : (p.catchError f).Uses allowed := by
  induction p with
  | ret a => exact uses_ret a
  | raise e => exact hf e
  | call c next ih =>
    obtain ⟨hc, hnext⟩ := (uses_call_iff c next).mp hp
    exact (uses_call_iff c _).mpr ⟨hc, fun answer => ih answer (hnext answer)⟩

theorem Uses.mono {p : Program S ε α} (hp : p.Uses allowed) {wider : S.Call → Prop}
    (h : ∀ c, allowed c → wider c) : p.Uses wider := by
  induction p with
  | ret a => exact uses_ret a
  | raise e => exact uses_raise e
  | call c next ih =>
    obtain ⟨hc, hnext⟩ := (uses_call_iff c next).mp hp
    exact (uses_call_iff c _).mpr ⟨h c hc, fun answer => ih answer (hnext answer)⟩

theorem uses_ofExcept (x : Except ε α) : (ofExcept x : Program S ε α).Uses allowed := by
  cases x with
  | ok a => exact uses_ret a
  | error e => exact uses_raise e

theorem uses_perform {c : S.Call} (hc : allowed c) :
    (perform c : Program S ε (S.Answer c)).Uses allowed :=
  (uses_call_iff c _).mpr ⟨hc, uses_ret⟩

end

/-- Each call carried out by a program over a lower level. -/
def through {S T : Signature} {ε α : Type} (impl : (c : S.Call) → Program T ε (S.Answer c)) :
    Program S ε α → Program T ε α
  | .ret a => .ret a
  | .raise e => .raise e
  | .call c next => (impl c).bind (fun answer => through impl (next answer))

section
variable {S T : Signature} {ε α β σ τ : Type}

/-- What the calls are carried out with is all that the program uses below. -/
theorem uses_through {impl : (c : S.Call) → Program T ε (S.Answer c)} {allowed : S.Call → Prop}
    {below : T.Call → Prop} (himpl : ∀ c, allowed c → (impl c).Uses below) {p : Program S ε α}
    (hp : p.Uses allowed) : (p.through impl).Uses below := by
  induction p with
  | ret a => exact uses_ret a
  | raise e => exact uses_raise e
  | call c next ih =>
    obtain ⟨hc, hnext⟩ := (uses_call_iff c next).mp hp
    exact uses_bind (himpl c hc) fun answer => ih answer (hnext answer)

/-- Refinement of calls lifts to refinement of programs: if every call, carried
out below, answers as above and keeps the representation relation, so does every
program. -/
theorem run_through {impl : (c : S.Call) → Program T ε (S.Answer c)} {hs : Handler S σ}
    {ht : Handler T τ} {rep : σ → τ → Prop}
    (himpl : ∀ c s t, rep s t → ∃ t', run ht (impl c) t = (.ok (hs c s).1, t') ∧
      rep (hs c s).2 t')
    (p : Program S ε α) (s : σ) (t : τ) (hrep : rep s t) :
    (run ht (p.through impl) t).1 = (run hs p s).1 ∧
      rep (run hs p s).2 (run ht (p.through impl) t).2 := by
  induction p generalizing s t with
  | ret a => exact ⟨rfl, hrep⟩
  | raise e => exact ⟨rfl, hrep⟩
  | call c next ih =>
    obtain ⟨t', hrun, hrep'⟩ := himpl c s t hrep
    have hstep : run ht ((Program.call c next).through impl) t =
        run ht ((next (hs c s).1).through impl) t' := run_bind_ok ht hrun
    rw [hstep]
    exact ih _ _ _ hrep'

end

end Program
