import AgentMailbox.Library.Specification

/-!
# Programs cut short

A crash stops a program between two of its calls, and of the state it leaves only a
part survives. A program is atomic when what survives is, wherever it is cut short,
either what there was before it or what there is after it; and it is silent when what
survives is what there was before. Of a program of several transactions it is said what holds
wherever it is cut short, beside what it comes to.
-/

namespace Program

section
variable {S : Signature} {ε α β σ δ : Type}

/-- The state after so many calls, or after fewer if the program ends sooner. -/
def stopped (h : Fallible S ε σ) : ℕ → Program S ε α → σ → σ
  | n + 1, .call c next, s => match h c s with
    | (.ok answer, s') => stopped h n (next answer) s'
    | (.error _, s') => s'
  | _, _, s => s

/-- Wherever the program is cut short, what survives is what there was. -/
def Silent (h : Fallible S ε σ) (durable : σ → δ) (p : Program S ε α) (s : σ) : Prop :=
  ∀ n, durable (stopped h n p s) = durable s

/-- Wherever the program is cut short, what survives is what there was or what there
will be. -/
def Atomic (h : Fallible S ε σ) (durable : σ → δ) (p : Program S ε α) (s : σ) : Prop :=
  ∀ n, durable (stopped h n p s) = durable s ∨ durable (stopped h n p s) = durable (p.exec h s).2

variable {h : Fallible S ε σ} {durable : σ → δ}

@[simp] theorem stopped_ret (n : ℕ) (a : α) (s : σ) :
    stopped h n (.ret a : Program S ε α) s = s := by cases n <;> rfl

@[simp] theorem stopped_raise (n : ℕ) (e : ε) (s : σ) :
    stopped h n (.raise e : Program S ε α) s = s := by cases n <;> rfl

@[simp] theorem stopped_zero (p : Program S ε α) (s : σ) : stopped h 0 p s = s := by
  cases p <;> rfl

theorem stopped_call_ok (n : ℕ) {c : S.Call} (next : S.Answer c → Program S ε α) {s s' : σ}
    {answer : S.Answer c} (hc : h c s = (.ok answer, s')) :
    stopped h (n + 1) (.call c next) s = stopped h n (next answer) s' := by
  simp only [stopped, hc]

theorem stopped_call_error (n : ℕ) {c : S.Call} (next : S.Answer c → Program S ε α) {s s' : σ}
    {e : ε} (hc : h c s = (.error e, s')) : stopped h (n + 1) (.call c next) s = s' := by
  simp only [stopped, hc]

/-- A program that is left enough time comes to its end. -/
theorem exists_stopped (p : Program S ε α) (s : σ) : ∃ n, stopped h n p s = (p.exec h s).2 := by
  induction p generalizing s with
  | ret a => exact ⟨0, rfl⟩
  | raise e => exact ⟨0, rfl⟩
  | call c next ih =>
    rw [exec_call]
    cases hc : h c s with
    | mk x s' =>
      cases x with
      | error e => exact ⟨1, stopped_call_error 0 next hc⟩
      | ok answer =>
        obtain ⟨n, hn⟩ := ih answer s'
        exact ⟨n + 1, (stopped_call_ok n next hc).trans hn⟩

/-- A sequence is cut short in its first part, or after it in its second. -/
theorem stopped_bind (n : ℕ) (p : Program S ε α) (f : α → Program S ε β) (s : σ) :
    stopped h n (p >>= f) s = stopped h n p s ∨
      ∃ a s' m, p.exec h s = (.ok a, s') ∧ stopped h n (p >>= f) s = stopped h m (f a) s' := by
  induction p generalizing n s with
  | ret a => exact Or.inr ⟨a, s, n, rfl, rfl⟩
  | raise e => exact Or.inl (by rw [stopped_raise]; exact stopped_raise n e s)
  | call c next ih =>
    show stopped h n (.call c fun answer => next answer >>= f) s = _ ∨ ∃ a s' m, _ ∧
      stopped h n (.call c fun answer => next answer >>= f) s = _
    cases n with
    | zero => exact Or.inl (by simp)
    | succ n =>
      rw [exec_call]
      cases hc : h c s with
      | mk x s' =>
        cases x with
        | error e => exact Or.inl (by rw [stopped_call_error n _ hc, stopped_call_error n _ hc])
        | ok answer =>
          rw [stopped_call_ok n _ hc, stopped_call_ok n _ hc]
          exact ih answer n s'

theorem Silent.exec {p : Program S ε α} {s : σ} (hp : Silent h durable p s) :
    durable (p.exec h s).2 = durable s := by
  obtain ⟨n, hn⟩ := exists_stopped (h := h) p s
  rw [← hn]
  exact hp n

theorem Silent.atomic {p : Program S ε α} {s : σ} (hp : Silent h durable p s) :
    Atomic h durable p s := fun n => Or.inl (hp n)

/-- A step that in the end leaves what survives alone does so throughout. -/
theorem Atomic.silent {p : Program S ε α} {s : σ} (hp : Atomic h durable p s)
    (hend : durable (p.exec h s).2 = durable s) : Silent h durable p s := by
  intro n
  rcases hp n with hn | hn
  · exact hn
  · exact hn.trans hend

/-- What nothing has come of yet may be followed by one atomic step. -/
theorem atomic_after {p : Program S ε α} {f : α → Program S ε β} {s : σ}
    (hp : Silent h durable p s)
    (hf : ∀ a s', p.exec h s = (.ok a, s') → Atomic h durable (f a) s') :
    Atomic h durable (p >>= f) s := by
  intro n
  rcases stopped_bind n p f s with hstop | ⟨a, s', m, hexec, hstop⟩
  · exact Or.inl (by rw [hstop, hp n])
  · have hkept := hp.exec
    rw [hexec] at hkept
    have hend : ((p >>= f).exec h s).2 = ((f a).exec h s').2 := by rw [exec_bind, hexec]
    rw [hstop, hend, ← hkept]
    exact hf a s' hexec m

/-- After one atomic step nothing more may come of the rest. -/
theorem atomic_before {p : Program S ε α} {f : α → Program S ε β} {s : σ}
    (hp : Atomic h durable p s)
    (hf : ∀ a s', p.exec h s = (.ok a, s') → Silent h durable (f a) s') :
    Atomic h durable (p >>= f) s := by
  have hend : durable ((p >>= f).exec h s).2 = durable (p.exec h s).2 := by
    rw [exec_bind]
    cases hexec : p.exec h s with
    | mk x s' =>
      cases x with
      | error e => rfl
      | ok a => exact (hf a s' hexec).exec
  intro n
  rcases stopped_bind n p f s with hstop | ⟨a, s', m, hexec, hstop⟩
  · rw [hstop, hend]
    exact hp n
  · rw [hstop, hend, hf a s' hexec m, hexec]
    exact Or.inr rfl

/-- Calls that leave what survives alone. -/
theorem silent_of_uses {allowed : S.Call → Prop}
    (hkeep : ∀ c s, allowed c → durable (h c s).2 = durable s) {p : Program S ε α}
    (hp : p.Uses allowed) (s : σ) : Silent h durable p s := by
  induction p generalizing s with
  | ret a => exact fun n => congrArg durable (stopped_ret n a s)
  | raise e => exact fun n => congrArg durable (stopped_raise n e s)
  | call c next ih =>
    obtain ⟨hc, hnext⟩ := (uses_call_iff c next).mp hp
    intro n
    have hkept := hkeep c s hc
    cases n with
    | zero => rw [stopped_zero]
    | succ n =>
      cases hanswer : h c s with
      | mk x s' =>
        rw [hanswer] at hkept
        cases x with
        | error e => rw [stopped_call_error n next hanswer, hkept]
        | ok answer => rw [stopped_call_ok n next hanswer, ih answer (hnext answer) s' n, hkept]

/-- Calls that leave the state alone. -/
theorem exec_of_uses {allowed : S.Call → Prop} (hkeep : ∀ c s, allowed c → (h c s).2 = s)
    {p : Program S ε α} (hp : p.Uses allowed) (s : σ) : (p.exec h s).2 = s :=
  Silent.exec (silent_of_uses (fun c s hc => congrArg id (hkeep c s hc)) hp s)

/-! ## What holds wherever a program is cut short -/

/-- Wherever the program is cut short `C` holds of the state, and `Q` of what it comes to. -/
def Guarded (h : Fallible S ε σ) (C : σ → Prop) (Q : Except ε α → σ → Prop) :
    Program S ε α → σ → Prop
  | .ret a, s => C s ∧ Q (.ok a) s
  | .raise e, s => C s ∧ Q (.error e) s
  | .call c next, s => C s ∧ match h c s with
    | (.ok answer, s') => Guarded h C Q (next answer) s'
    | (.error e, s') => C s' ∧ Q (.error e) s'

variable {C : σ → Prop} {Q : Except ε α → σ → Prop}

theorem guarded_call_ok {c : S.Call} (next : S.Answer c → Program S ε α) {s s' : σ}
    {answer : S.Answer c} (hc : h c s = (.ok answer, s')) :
    (call c next).Guarded h C Q s ↔ C s ∧ (next answer).Guarded h C Q s' := by
  rw [Guarded, hc]

theorem guarded_call_error {c : S.Call} (next : S.Answer c → Program S ε α) {s s' : σ} {e : ε}
    (hc : h c s = (.error e, s')) :
    (call c next).Guarded h C Q s ↔ C s ∧ C s' ∧ Q (.error e) s' := by
  rw [Guarded, hc]

theorem Guarded.stopped {p : Program S ε α} {s : σ} (hp : p.Guarded h C Q s) (n : ℕ) :
    C (p.stopped h n s) := by
  induction p generalizing n s with
  | ret a =>
    rw [stopped_ret]
    exact hp.1
  | raise e =>
    rw [stopped_raise]
    exact hp.1
  | call c next ih =>
    cases hc : h c s with
    | mk x s' =>
      cases x with
      | error e =>
        rw [guarded_call_error next hc] at hp
        cases n with
        | zero => exact (stopped_zero (h := h) (.call c next) s).symm ▸ hp.1
        | succ n => exact (stopped_call_error n next hc).symm ▸ hp.2.1
      | ok answer =>
        rw [guarded_call_ok next hc] at hp
        cases n with
        | zero => exact (stopped_zero (h := h) (.call c next) s).symm ▸ hp.1
        | succ n => exact (stopped_call_ok n next hc).symm ▸ ih answer hp.2 n

theorem Guarded.exec {p : Program S ε α} {s : σ} (hp : p.Guarded h C Q s) :
    Q (p.exec h s).1 (p.exec h s).2 := by
  induction p generalizing s with
  | ret a => exact hp.2
  | raise e => exact hp.2
  | call c next ih =>
    rw [exec_call]
    cases hc : h c s with
    | mk x s' =>
      cases x with
      | error e => exact ((guarded_call_error next hc).mp hp).2.2
      | ok answer => exact ih answer ((guarded_call_ok next hc).mp hp).2

theorem Guarded.bind {R : Except ε α → σ → Prop} {Q : Except ε β → σ → Prop}
    {p : Program S ε α} {f : α → Program S ε β} {s : σ} (hp : p.Guarded h C R s)
    (hf : ∀ a s', R (.ok a) s' → (f a).Guarded h C Q s')
    (herror : ∀ e s', R (.error e) s' → Q (.error e) s') : (p >>= f).Guarded h C Q s := by
  induction p generalizing s with
  | ret a => exact hf a s hp.2
  | raise e => exact ⟨hp.1, herror e s hp.2⟩
  | call c next ih =>
    show (Program.call c fun answer => next answer >>= f).Guarded h C Q s
    cases hc : h c s with
    | mk x s' =>
      cases x with
      | error e =>
        obtain ⟨hs, hs', he⟩ := (guarded_call_error next hc).mp hp
        exact (guarded_call_error _ hc).mpr ⟨hs, hs', herror e s' he⟩
      | ok answer =>
        obtain ⟨hs, hnext⟩ := (guarded_call_ok next hc).mp hp
        exact (guarded_call_ok _ hc).mpr ⟨hs, ih answer hnext⟩

/-- One call that is answered, and the rest. -/
theorem Guarded.step {c : S.Call} {f : S.Answer c → Program S ε α} {s s' : σ}
    {answer : S.Answer c} (hs : C s) (hc : h c s = (.ok answer, s'))
    (hf : (f answer).Guarded h C Q s') : (perform c >>= f).Guarded h C Q s :=
  (guarded_call_ok f hc).mpr ⟨hs, hf⟩

/-- One call that raises. -/
theorem Guarded.fail {c : S.Call} {f : S.Answer c → Program S ε α} {s s' : σ} {e : ε} (hs : C s)
    (hc : h c s = (.error e, s')) (hs' : C s') (he : Q (.error e) s') :
    (perform c >>= f).Guarded h C Q s :=
  (guarded_call_error f hc).mpr ⟨hs, hs', he⟩

/-- One call that is answered, at the end. -/
theorem Guarded.last {c : S.Call} {Q : Except ε (S.Answer c) → σ → Prop} {s s' : σ}
    {answer : S.Answer c} (hs : C s) (hc : h c s = (.ok answer, s')) (hs' : C s')
    (hQ : Q (.ok answer) s') : (perform c : Program S ε (S.Answer c)).Guarded h C Q s :=
  (guarded_call_ok .ret hc).mpr ⟨hs, hs', hQ⟩

end

end Program
