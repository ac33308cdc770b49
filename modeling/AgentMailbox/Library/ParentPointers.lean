import Mathlib.Logic.Relation
import Mathlib.Data.Finset.Card
import Mathlib.Data.Finset.SDiff

/-!
# Parent pointers

A finite collection in which each element may point to one parent. Following the
pointers leads to a root; two elements are connected when the pointers join them
in either direction. In a forest the walk finds the root, and being connected is
having the same root.
-/
namespace ParentPointers

/-- Follow the pointers, giving up on an element seen before. -/
def walk {α : Type*} [DecidableEq α] (up : α → Option α) : ℕ → List α → α → α
  | 0, _, x => x
  | fuel + 1, seen, x =>
    if x ∈ seen then x
    else match up x with
      | none => x
      | some y => walk up fuel (x :: seen) y

/-- Reached from `x` by following pointers, and itself without one. -/
def IsRoot {α : Type*} (up : α → Option α) (x r : α) : Prop :=
  Relation.ReflTransGen (fun a b => up a = some b) x r ∧ up r = none

/-- Joined by pointers, whichever way they point. -/
def Connected {α : Type*} (up : α → Option α) (x y : α) : Prop :=
  Relation.EqvGen (fun a b => up a = some b) x y

/-- Pointers lead strictly downwards in some rank, so there are no cycles. -/
def Ranked {α : Type*} (up : α → Option α) : Prop :=
  ∃ rank : α → ℕ, ∀ x y, up x = some y → rank y < rank x

/-- Dropping pointers makes no cycles. -/
theorem Ranked.mono {α : Type*} {up up' : α → Option α} (h : Ranked up)
    (hsub : ∀ x y, up' x = some y → up x = some y) : Ranked up' := by
  obtain ⟨rank, hrank⟩ := h
  exact ⟨rank, fun x y hxy => hrank x y (hsub x y hxy)⟩

/-- A new element, to which nothing points, may point to any older one. -/
theorem Ranked.insert {α : Type*} [DecidableEq α] {up : α → Option α} (h : Ranked up) {z : α}
    (hz : ∀ x, up x ≠ some z) (parent : Option α) (hparent : parent ≠ some z) :
    Ranked (fun x => if x = z then parent else up x) := by
  obtain ⟨rank, hrank⟩ := h
  refine ⟨fun x => if x = z then (parent.elim 0 rank) + 1 else rank x, fun x y hxy => ?_⟩
  dsimp only at hxy
  have hyz : y ≠ z := by
    rintro rfl
    by_cases hx : x = y
    · rw [if_pos hx] at hxy
      exact hparent hxy
    · rw [if_neg hx] at hxy
      exact hz x hxy
  simp only [if_neg hyz]
  by_cases hx : x = z
  · rw [if_pos hx] at hxy ⊢
    rw [hxy]
    exact Nat.lt_succ_self _
  · rw [if_neg hx] at hxy ⊢
    exact hrank x y hxy

theorem isRoot_step {α : Type*} {up : α → Option α} {x y r : α} (h : up x = some y) :
    IsRoot up x r ↔ IsRoot up y r := by
  constructor
  · rintro ⟨hpath, hr⟩
    refine ⟨?_, hr⟩
    rcases hpath.cases_head with rfl | ⟨z, hz, hrest⟩
    · simp [h] at hr
    · rw [h] at hz
      cases hz
      exact hrest
  · rintro ⟨hpath, hr⟩
    exact ⟨hpath.head h, hr⟩

theorem isRoot_self {α : Type*} {up : α → Option α} {x : α} (h : up x = none) :
    IsRoot up x x := ⟨.refl, h⟩

theorem isRoot_unique {α : Type*} {up : α → Option α} {x r r' : α} (h : IsRoot up x r)
    (h' : IsRoot up x r') : r = r' := by
  obtain ⟨hpath, hr⟩ := h
  induction hpath using Relation.ReflTransGen.head_induction_on with
  | refl =>
    rcases h'.1.cases_head with heq | ⟨z, hz, _⟩
    · exact heq
    · simp [hr] at hz
  | head hstep _ ih => exact ih ((isRoot_step hstep).mp h')

/-- A new element, to which nothing points, changes no root of the older ones. -/
theorem IsRoot.insert {α : Type*} [DecidableEq α] {up : α → Option α} {x r z : α}
    (h : IsRoot up x r) (hz : ∀ y, up y ≠ some z) (hx : x ≠ z) (parent : Option α) :
    IsRoot (fun y => if y = z then parent else up y) x r := by
  obtain ⟨hpath, hr⟩ := h
  induction hpath using Relation.ReflTransGen.head_induction_on with
  | refl => exact isRoot_self (by rw [if_neg hx, hr])
  | @head x y hstep _ ih =>
    have hy : y ≠ z := fun heq => hz x (heq ▸ hstep)
    exact (isRoot_step (by rw [if_neg hx]; exact hstep)).mpr (ih hy)

theorem isRoot_connected {α : Type*} {up : α → Option α} {x r : α} (h : IsRoot up x r) :
    Connected up x r := by
  obtain ⟨hpath, _⟩ := h
  induction hpath using Relation.ReflTransGen.head_induction_on with
  | refl => exact .refl _
  | head hstep _ ih => exact .trans _ _ _ (.rel _ _ hstep) ih

theorem Connected.isRoot_iff {α : Type*} {up : α → Option α} {x y : α} (h : Connected up x y)
    (r : α) : IsRoot up x r ↔ IsRoot up y r := by
  induction h with
  | rel x y hstep => exact isRoot_step hstep
  | refl x => exact Iff.rfl
  | symm x y _ ih => exact ih.symm
  | trans x y z _ _ ih ih' => exact ih.trans ih'

/-- Having one root each, two elements are connected exactly when it is the same. -/
theorem connected_iff_isRoot {α : Type*} {up : α → Option α} {x y r r' : α}
    (hx : IsRoot up x r) (hy : IsRoot up y r') : Connected up x y ↔ r = r' := by
  constructor
  · intro h
    exact isRoot_unique hx ((h.isRoot_iff r').mpr hy)
  · rintro rfl
    exact .trans _ _ _ (isRoot_connected hx) (.symm _ _ (isRoot_connected hy))

/-- Passing an element with a parent uses up one unit of fuel. -/
lemma card_sdiff_cons {α : Type*} [DecidableEq α] {up : α → Option α} {s : Finset α} {x y : α}
    (hs : ∀ x y, up x = some y → x ∈ s) (hx : up x = some y) {seen : List α} (hnew : x ∉ seen) :
    (s \ (x :: seen).toFinset).card < (s \ seen.toFinset).card := by
  apply Finset.card_lt_card
  rw [Finset.ssubset_iff_of_subset]
  · exact ⟨x, by simp [hs x y hx, hnew], by simp⟩
  · intro z
    simp only [Finset.mem_sdiff, List.mem_toFinset, List.mem_cons, not_or]
    exact fun h => ⟨h.1, h.2.2⟩

/-- In a forest the walk has enough fuel when it exceeds the number of elements
that have a parent and have not been passed. -/
theorem walk_isRoot_of_fuel {α : Type*} [DecidableEq α] {up : α → Option α} {rank : α → ℕ}
    (hrank : ∀ x y, up x = some y → rank y < rank x) (s : Finset α)
    (hs : ∀ x y, up x = some y → x ∈ s) (fuel : ℕ) (seen : List α) (x : α)
    (hseen : ∀ z ∈ seen, rank x < rank z) (hfuel : (s \ seen.toFinset).card < fuel) :
    IsRoot up x (walk up fuel seen x) := by
  induction fuel generalizing seen x with
  | zero => omega
  | succ fuel ih =>
    have hx : x ∉ seen := fun hmem => lt_irrefl _ (hseen x hmem)
    simp only [walk, if_neg hx]
    cases hup : up x with
    | none => exact isRoot_self hup
    | some y =>
      refine (isRoot_step hup).mpr (ih (x :: seen) y ?_ ?_)
      · intro z hz
        rcases List.mem_cons.mp hz with rfl | hz
        · exact hrank z y hup
        · exact (hrank x y hup).trans (hseen z hz)
      · have hcard := card_sdiff_cons hs hup hx
        omega

theorem walk_isRoot {α : Type*} [DecidableEq α] {up : α → Option α} (h : Ranked up)
    (s : Finset α) (hs : ∀ x y, up x = some y → x ∈ s) (fuel : ℕ) (hfuel : s.card < fuel)
    (x : α) : IsRoot up x (walk up fuel [] x) := by
  obtain ⟨rank, hrank⟩ := h
  exact walk_isRoot_of_fuel hrank s hs fuel [] x (by simp) (by simpa using hfuel)

end ParentPointers
