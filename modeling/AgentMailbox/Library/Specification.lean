import AgentMailbox.Library.Program

/-!
# Programs against a specification

A shared object that may refuse a call, and what is known of it without knowing the object:
which calls it is prepared for, which of those it refuses, what it may answer to the others
and what they lead to. What is proved of a program from this much alone holds over every
object that meets the specification, however far below the calls are carried out.
-/

/-- How a shared object in state `σ` answers each call, or raises. -/
abbrev Fallible (S : Signature) (ε σ : Type) : Type :=
  (c : S.Call) → σ → Except ε (S.Answer c) × σ

structure Specification (S : Signature) (σ : Type) where
  /-- The calls the specification speaks of. -/
  proper : S.Call → σ → Prop
  /-- The calls that are raised at, and change nothing. -/
  refused : S.Call → σ → Prop
  answer : (c : S.Call) → σ → S.Answer c → Prop
  after : S.Call → σ → σ

namespace Program

/-- The whole program, uninterrupted, up to the first call that raises. -/
def exec {S : Signature} {ε α σ : Type} (h : Fallible S ε σ) :
    Program S ε α → σ → Except ε α × σ
  | .ret a, s => (.ok a, s)
  | .raise e, s => (.error e, s)
  | .call c next, s => match h c s with
    | (.ok answer, s') => exec h (next answer) s'
    | (.error e, s') => (.error e, s')

section
variable {S T : Signature} {ε α β σ : Type} (h : Fallible S ε σ)

@[simp] theorem exec_ret (a : α) (s : σ) :
    exec h (.ret a : Program S ε α) s = (.ok a, s) := rfl

@[simp] theorem exec_raise (e : ε) (s : σ) :
    exec h (.raise e : Program S ε α) s = (.error e, s) := rfl

theorem exec_call (c : S.Call) (next : S.Answer c → Program S ε α) (s : σ) :
    exec h (.call c next) s = match h c s with
      | (.ok answer, s') => exec h (next answer) s'
      | (.error e, s') => (.error e, s') := by rw [exec]

theorem exec_bind (p : Program S ε α) (f : α → Program S ε β) (s : σ) :
    exec h (p >>= f) s = match exec h p s with
      | (.ok a, s') => exec h (f a) s'
      | (.error e, s') => (.error e, s') := by
  induction p generalizing s with
  | ret a => rfl
  | raise e => rfl
  | call c next ih =>
    show exec h (.call c fun answer => next answer >>= f) s = _
    rw [exec_call, exec_call]
    rcases h c s with ⟨_ | answer, s'⟩
    · rfl
    · exact ih answer s'

/-- Calls carried out below are calls on the object that carries them out. -/
theorem exec_through {h : Fallible T ε σ} (impl : (c : S.Call) → Program T ε (S.Answer c))
    (p : Program S ε α) (s : σ) :
    exec h (p.through impl) s = exec (fun c => exec h (impl c)) p s := by
  induction p generalizing s with
  | ret a => rfl
  | raise e => rfl
  | call c next ih =>
    show exec h (impl c >>= fun answer => (next answer).through impl) s = _
    rw [exec_bind, exec_call]
    rcases exec h (impl c) s with ⟨_ | answer, s'⟩
    · rfl
    · exact ih answer s'

end

/-! ## Weakest preconditions -/

/-- Started in `s` on any object that meets the specification, the program makes proper calls
only, and `Q` holds of what it comes to. -/
def wp {S : Signature} {ε α σ : Type} (spec : Specification S σ) (Q : Except ε α → σ → Prop) :
    Program S ε α → σ → Prop
  | .ret a, s => Q (.ok a) s
  | .raise e, s => Q (.error e) s
  | .call c next, s => spec.proper c s ∧ (spec.refused c s → ∀ e, Q (.error e) s) ∧
      (¬ spec.refused c s → ∀ answer, spec.answer c s answer →
        wp spec Q (next answer) (spec.after c s))

/-- The condition on a first program that makes `Q` hold after the second. -/
def Next {S : Signature} {ε α β σ : Type} (spec : Specification S σ) (f : α → Program S ε β)
    (Q : Except ε β → σ → Prop) : Except ε α → σ → Prop
  | .ok a, s => (f a).wp spec Q s
  | .error e, s => Q (.error e) s

section
variable {S : Signature} {ε α β σ τ : Type} {spec : Specification S σ}
  {Q : Except ε α → σ → Prop} {s : σ}

@[simp] theorem wp_ret (a : α) : (ret a : Program S ε α).wp spec Q s ↔ Q (.ok a) s := Iff.rfl

@[simp] theorem wp_raise (e : ε) : (raise e : Program S ε α).wp spec Q s ↔ Q (.error e) s :=
  Iff.rfl

@[simp] theorem wp_pure (a : α) : (pure a : Program S ε α).wp spec Q s ↔ Q (.ok a) s := Iff.rfl

@[simp] theorem wp_throw (e : ε) : (throw e : Program S ε α).wp spec Q s ↔ Q (.error e) s :=
  Iff.rfl

theorem wp_call_iff (c : S.Call) (next : S.Answer c → Program S ε α) :
    (call c next).wp spec Q s ↔ spec.proper c s ∧ (spec.refused c s → ∀ e, Q (.error e) s) ∧
      (¬ spec.refused c s → ∀ answer, spec.answer c s answer →
        (next answer).wp spec Q (spec.after c s)) := Iff.rfl

@[simp] theorem wp_ofExcept (x : Except ε α) :
    (ofExcept x : Program S ε α).wp spec Q s ↔ Q x s := by
  cases x <;> rfl

@[simp] theorem next_ok (f : α → Program S ε β) (Q : Except ε β → σ → Prop) (a : α) (s : σ) :
    Next spec f Q (.ok a) s ↔ (f a).wp spec Q s := Iff.rfl

@[simp] theorem next_error (f : α → Program S ε β) (Q : Except ε β → σ → Prop) (e : ε) (s : σ) :
    Next spec f Q (.error e) s ↔ Q (.error e) s := Iff.rfl

-- From here on a program is taken apart by the rules above and below only.
attribute [irreducible] wp

theorem wp_perform_iff (c : S.Call) {Q : Except ε (S.Answer c) → σ → Prop} :
    (perform c : Program S ε (S.Answer c)).wp spec Q s ↔
      spec.proper c s ∧ (spec.refused c s → ∀ e, Q (.error e) s) ∧
        (¬ spec.refused c s → ∀ answer, spec.answer c s answer →
          Q (.ok answer) (spec.after c s)) := by
  unfold perform
  simp only [wp_call_iff, wp_ret]

theorem wp_bind_iff (p : Program S ε α) (f : α → Program S ε β) (Q : Except ε β → σ → Prop) :
    (p >>= f).wp spec Q s ↔ p.wp spec (Next spec f Q) s := by
  induction p generalizing s with
  | ret a =>
    rw [wp_ret, next_ok]
    exact Iff.rfl
  | raise e =>
    rw [wp_raise, next_error]
    exact wp_raise e
  | call c next ih =>
    show (call c fun answer => next answer >>= f).wp spec Q s ↔ _
    simp only [wp_call_iff, ih, next_error]

theorem wp_map_iff (f : α → β) (p : Program S ε α) (Q : Except ε β → σ → Prop) :
    (f <$> p).wp spec Q s ↔ p.wp spec (fun x => Q (x.map f)) s := by
  show (p >>= fun a => pure (f a)).wp spec Q s ↔ _
  rw [wp_bind_iff]
  have hpost : Next spec (fun a => pure (f a)) Q = fun x : Except ε α => Q (x.map f) := by
    funext x s'
    cases x with
    | ok a => exact propext (wp_pure (f a))
    | error e => rfl
  rw [hpost]

theorem wp_mono {p : Program S ε α} {R : Except ε α → σ → Prop} (hp : p.wp spec Q s)
    (h : ∀ x s', Q x s' → R x s') : p.wp spec R s := by
  induction p generalizing s with
  | ret a => exact (wp_ret a).mpr (h _ _ ((wp_ret a).mp hp))
  | raise e => exact (wp_raise e).mpr (h _ _ ((wp_raise e).mp hp))
  | call c next ih =>
    obtain ⟨hproper, hrefused, hanswer⟩ := (wp_call_iff c next).mp hp
    rw [wp_call_iff]
    refine ⟨hproper, fun href e => h _ _ (hrefused href e), fun href answer ha => ?_⟩
    exact ih answer (hanswer href answer ha)

end

end Program

/-! ## Objects that meet a specification -/

namespace Specification

/-- The object in state `t` that stands for `s` refuses what the specification refuses, and
answers everything else in accordance with it. -/
def Met {S : Signature} {ε σ τ : Type} (spec : Specification S σ) (h : Fallible S ε τ)
    (rep : σ → τ → Prop) : Prop :=
  ∀ c s t, rep s t → spec.proper c s →
    (spec.refused c s → ∃ e t', h c t = (.error e, t') ∧ rep s t') ∧
    (¬ spec.refused c s → ∃ answer t', h c t = (.ok answer, t') ∧ spec.answer c s answer ∧
      rep (spec.after c s) t')

section
variable {S T : Signature} {ε α σ ρ τ : Type} {spec : Specification S σ}

/-- What is proved against the specification holds over every object that meets it. -/
theorem Met.exec {h : Fallible S ε τ} {rep : σ → τ → Prop} (hmet : spec.Met h rep)
    {p : Program S ε α} {Q : Except ε α → σ → Prop} {s : σ} {t : τ} (hrep : rep s t)
    (hp : p.wp spec Q s) :
    ∃ s', rep s' (p.exec h t).2 ∧ Q (p.exec h t).1 s' := by
  induction p generalizing s t with
  | ret a => exact ⟨s, hrep, (Program.wp_ret a).mp hp⟩
  | raise e => exact ⟨s, hrep, (Program.wp_raise e).mp hp⟩
  | call c next ih =>
    obtain ⟨hproper, hrefused, hanswer⟩ := (Program.wp_call_iff c next).mp hp
    obtain ⟨hraises, hanswers⟩ := hmet c s t hrep hproper
    unfold Program.exec
    by_cases href : spec.refused c s
    · obtain ⟨e, t', heq, hrep'⟩ := hraises href
      rw [heq]
      exact ⟨s, hrep', hrefused href e⟩
    · obtain ⟨answer, t', heq, ha, hrep'⟩ := hanswers href
      rw [heq]
      exact ih answer hrep' (hanswer href answer ha)

/-- What one call has to come to, for the object to meet the specification. -/
def Outcome (spec : Specification S σ) (rel : σ → ρ → Prop) (c : S.Call) (s : σ)
    (x : Except ε (S.Answer c)) (m : ρ) : Prop :=
  (spec.refused c s ∧ (∃ e, x = .error e) ∧ rel s m) ∨
    (¬ spec.refused c s ∧ ∃ answer, x = .ok answer ∧ spec.answer c s answer ∧
      rel (spec.after c s) m)

/-- A specification is met by programs over an object that meets another one, if each of
them comes to what it should. -/
theorem met_through {below : Specification T ρ} {h : Fallible T ε τ} {rep : ρ → τ → Prop}
    (hmet : below.Met h rep) {impl : (c : S.Call) → Program T ε (S.Answer c)} {rel : σ → ρ → Prop}
    (himpl : ∀ c s m, rel s m → spec.proper c s →
      (impl c).wp below (spec.Outcome rel c s) m) :
    spec.Met (fun c => (impl c).exec h) fun s t => ∃ m, rel s m ∧ rep m t := by
  intro c s t hrep hproper
  obtain ⟨m, hrel, hrep⟩ := hrep
  obtain ⟨m', hrep', houtcome⟩ := hmet.exec hrep (himpl c s m hrel hproper)
  have hpair : (impl c).exec h t = (((impl c).exec h t).1, ((impl c).exec h t).2) := rfl
  rcases houtcome with ⟨href, ⟨e, he⟩, hrel'⟩ | ⟨href, answer, ha, hanswer, hrel'⟩
  · rw [he] at hpair
    exact ⟨fun _ => ⟨e, _, hpair, m', hrel', hrep'⟩, fun hnot => absurd href hnot⟩
  · rw [ha] at hpair
    exact ⟨fun hyes => absurd hyes href, fun _ => ⟨answer, _, hpair, hanswer, m', hrel', hrep'⟩⟩

end

end Specification
