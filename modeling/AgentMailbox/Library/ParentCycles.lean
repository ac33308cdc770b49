import AgentMailbox.Library.ParentPointers

/-!
# Parent pointers with cycles

In a finite collection every chain of pointers either stops or runs into a cycle. The
walk ends at the element that points nowhere, or at the first element on a cycle; so
all of a tree that hangs from a cycle shares its end, and each element of the cycle is
an end of its own.
-/
namespace ParentPointers

/-- Leads, in at least one step, back to itself. -/
def OnCycle {α : Type*} (up : α → Option α) (x : α) : Prop :=
  Relation.TransGen (fun a b => up a = some b) x x

/-- Where the pointers lead from an element: to one that points nowhere, or to the
first on a cycle. -/
inductive Ends {α : Type*} (up : α → Option α) : α → α → Prop
  | root {x : α} (hx : up x = none) : Ends up x x
  | cycle {x : α} (hx : OnCycle up x) : Ends up x x
  | climb {x y r : α} (hx : up x = some y) (hcycle : ¬ OnCycle up x) (hy : Ends up y r) :
    Ends up x r

/-- What the loop returns when it is run without a bound. -/
inductive Returns {α : Type*} (up : α → Option α) : List α → α → α → Prop
  | again {seen : List α} {x : α} (hx : x ∈ seen) : Returns up seen x x
  | root {seen : List α} {x : α} (hnew : x ∉ seen) (hx : up x = none) : Returns up seen x x
  | climb {seen : List α} {x y r : α} (hnew : x ∉ seen) (hx : up x = some y)
    (hy : Returns up (x :: seen) y r) : Returns up seen x r

section
variable {α : Type*} {up : α → Option α}

theorem Returns.unique {seen : List α} {x r r' : α} (h : Returns up seen x r)
    (h' : Returns up seen x r') : r = r' := by
  induction h with
  | again hx =>
    cases h' with
    | again => rfl
    | root hnew => exact absurd hx hnew
    | climb hnew => exact absurd hx hnew
  | root hnew hx =>
    cases h' with
    | again hseen => exact absurd hseen hnew
    | root => rfl
    | climb _ hy => rw [hx] at hy; cases hy
  | climb hnew hx _ ih =>
    cases h' with
    | again hseen => exact absurd hseen hnew
    | root _ hnone => rw [hx] at hnone; cases hnone
    | climb _ hx' hy =>
      rw [hx, Option.some.injEq] at hx'
      subst hx'
      exact ih hy

theorem Ends.unique {x r r' : α} (h : Ends up x r) (h' : Ends up x r') : r = r' := by
  induction h with
  | root hx =>
    cases h' with
    | root => rfl
    | cycle => rfl
    | climb hy => rw [hx] at hy; cases hy
  | cycle hx =>
    cases h' with
    | root => rfl
    | cycle => rfl
    | climb _ hcycle => exact absurd hx hcycle
  | climb hx hcycle _ ih =>
    cases h' with
    | root hnone => rw [hx] at hnone; cases hnone
    | cycle honcycle => exact absurd honcycle hcycle
    | climb hx' _ hy =>
      rw [hx, Option.some.injEq] at hx'
      subst hx'
      exact ih hy

/-- An end is its own end. -/
theorem Ends.end_self {x r : α} (h : Ends up x r) : Ends up r r := by
  induction h with
  | root hx => exact .root hx
  | cycle hx => exact .cycle hx
  | climb _ _ _ ih => exact ih

/-- Off the cycles an element and its parent have one end. -/
theorem ends_step {x y r : α} (hx : up x = some y) (hcycle : ¬ OnCycle up x) :
    Ends up x r ↔ Ends up y r := by
  constructor
  · intro h
    cases h with
    | root hnone => rw [hx] at hnone; cases hnone
    | cycle honcycle => exact absurd honcycle hcycle
    | climb hx' _ hy =>
      rw [hx, Option.some.injEq] at hx'
      subst hx'
      exact hy
  · exact Ends.climb hx hcycle

/-- What a cycle leads to is on it. -/
theorem OnCycle.step {x y : α} (h : OnCycle up x) (hx : up x = some y) : OnCycle up y := by
  obtain ⟨z, hz, hback⟩ := Relation.TransGen.head'_iff.mp h
  rw [hx, Option.some.injEq] at hz
  subst hz
  exact Relation.TransGen.tail' hback hx

/-! ## The way back -/

/-- The elements passed on the way from `x` to the first arrival at `c`. -/
inductive Way (up : α → Option α) (c : α) : α → List α → Prop
  | here : Way up c c []
  | next {x y : α} {passed : List α} (hx : up x = some y) (hc : x ≠ c) (hy : Way up c y passed) :
    Way up c x (x :: passed)

lemma way_exists {c x : α} (h : Relation.ReflTransGen (fun a b => up a = some b) x c) :
    ∃ passed, Way up c x passed := by
  induction h using Relation.ReflTransGen.head_induction_on with
  | refl => exact ⟨[], .here⟩
  | @head x y hstep _ ih =>
    obtain ⟨passed, hpassed⟩ := ih
    by_cases hx : x = c
    · subst hx
      exact ⟨[], .here⟩
    · exact ⟨x :: passed, .next hstep hx hpassed⟩

lemma Way.length_eq {c x : α} {passed passed' : List α} (h : Way up c x passed)
    (h' : Way up c x passed') : passed.length = passed'.length := by
  induction h generalizing passed' with
  | here =>
    cases h' with
    | here => rfl
    | next _ hc => exact absurd rfl hc
  | next hx hc _ ih =>
    cases h' with
    | here => exact absurd rfl hc
    | next hx' _ hy =>
      rw [hx, Option.some.injEq] at hx'
      subst hx'
      simp only [List.length_cons, ih hy]

/-- From each element passed there is a way that is no longer. -/
lemma Way.of_mem {c x z : α} {passed : List α} (h : Way up c x passed) (hz : z ∈ passed) :
    ∃ rest, Way up c z rest ∧ rest.length ≤ passed.length ∧
      Relation.ReflTransGen (fun a b => up a = some b) x z ∧ z ≠ c := by
  induction h with
  | here => cases hz
  | next hx hc hy ih =>
    rcases List.mem_cons.mp hz with rfl | hz
    · exact ⟨_, .next hx hc hy, le_rfl, .refl, hc⟩
    · obtain ⟨rest, hrest, hlength, hreach, hne⟩ := ih hz
      exact ⟨rest, hrest, hlength.trans (Nat.le_succ _), .head hx hreach, hne⟩

/-- Nothing is passed twice. -/
lemma Way.notMem {c x y : α} {passed : List α} (hx : up x = some y) (hc : x ≠ c)
    (hy : Way up c y passed) : x ∉ passed := by
  intro hmem
  obtain ⟨rest, hrest, hlength, _⟩ := hy.of_mem hmem
  have heq := hrest.length_eq (.next hx hc hy)
  rw [List.length_cons] at heq
  omega

/-! ## The loop -/

/-- A loop that has passed `c` and comes back to it returns it. -/
lemma Way.returns {c x : α} {passed : List α} (h : Way up c x passed) {seen : List α}
    (hc : c ∈ seen) (hnew : ∀ z ∈ passed, z ∉ seen) : Returns up seen x c := by
  induction h generalizing seen with
  | here => exact .again hc
  | @next x y passed hx hne hy ih =>
    have hnotMem := hy.notMem hx hne
    refine .climb (hnew x List.mem_cons_self) hx (ih (List.mem_cons_of_mem _ hc) ?_)
    intro z hz hmem
    rcases List.mem_cons.mp hmem with rfl | hmem
    · exact hnotMem hz
    · exact hnew z (List.mem_cons_of_mem _ hz) hmem

/-- A loop that starts on a cycle comes back to where it started. -/
lemma OnCycle.returns {x : α} (h : OnCycle up x) {seen : List α}
    (hseen : ∀ z ∈ seen, ¬ Relation.ReflTransGen (fun a b => up a = some b) x z) :
    Returns up seen x x := by
  obtain ⟨y, hx, hback⟩ := Relation.TransGen.head'_iff.mp h
  obtain ⟨passed, hway⟩ := way_exists hback
  refine .climb (fun hmem => hseen x hmem .refl) hx (hway.returns List.mem_cons_self ?_)
  intro z hz hmem
  obtain ⟨_, _, _, hreach, hne⟩ := hway.of_mem hz
  rcases List.mem_cons.mp hmem with rfl | hmem
  · exact hne rfl
  · exact hseen z hmem (.head hx hreach)

/-- What the loop returns is the end, as long as nothing it can reach was passed before. -/
lemma Returns.ends {seen : List α} {x r : α} (h : Returns up seen x r)
    (hseen : ∀ z ∈ seen, ¬ Relation.ReflTransGen (fun a b => up a = some b) x z) :
    Ends up x r := by
  induction h with
  | again hx => exact absurd .refl (hseen _ hx)
  | root _ hx => exact .root hx
  | @climb seen x y r hnew hx hy ih =>
    by_cases hcycle : OnCycle up x
    · have hself := hcycle.returns hseen
      rw [(Returns.climb hnew hx hy).unique hself]
      exact .cycle hcycle
    · refine .climb hx hcycle (ih fun z hz hreach => ?_)
      rcases List.mem_cons.mp hz with rfl | hz
      · exact hcycle (Relation.TransGen.head' hx hreach)
      · exact hseen z hz (.head hx hreach)

end

/-! ## The walk -/

section
variable {α : Type*} [DecidableEq α] {up : α → Option α} {s : Finset α}

/-- The walk returns what the loop returns. -/
theorem returns_walk (hs : ∀ x y, up x = some y → x ∈ s) (fuel : ℕ) (seen : List α) (x : α)
    (hfuel : (s \ seen.toFinset).card < fuel) : Returns up seen x (walk up fuel seen x) := by
  induction fuel generalizing seen x with
  | zero => omega
  | succ fuel ih =>
    by_cases hseen : x ∈ seen
    · simp only [walk, if_pos hseen]
      exact .again hseen
    · cases hx : up x with
      | none =>
        simp only [walk, if_neg hseen, hx]
        exact .root hseen hx
      | some y =>
        have hcard := card_sdiff_cons hs hx hseen
        simp only [walk, if_neg hseen, hx]
        exact .climb hseen hx (ih (x :: seen) y (by omega))

/-- The walk finds the end of the pointers, whatever cycles they make. -/
theorem walk_ends (hs : ∀ x y, up x = some y → x ∈ s) {fuel : ℕ} (hfuel : s.card < fuel)
    (x : α) : Ends up x (walk up fuel [] x) :=
  (returns_walk hs fuel [] x (by simpa using hfuel)).ends (by simp)

end

end ParentPointers
