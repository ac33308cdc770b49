import AgentMailbox.Library.ParentPointers
import Mathlib.Data.Finset.Dedup

/-!
# Redirecting pointers

Pointers that may lead on from one place to the next, and that are redirected when what was
at one place moves to another: the old place points at the new one, and so does whatever
pointed at the old place. This makes no cycle unless the new place leads back to the old one,
which a walk along the pointers finds out.
-/
namespace ParentPointers

variable {α : Type*}

/-- Whether the pointers lead from `x` to `target`, giving up on a place seen before. -/
def leads [DecidableEq α] (up : α → Option α) (target : α) : ℕ → List α → α → Bool
  | 0, _, _ => false
  | fuel + 1, seen, x =>
    if x ∈ seen then false
    else match up x with
      | none => false
      | some y => if y = target then true else leads up target fuel (x :: seen) y

/-- The pointers after what was at `old` has moved to `new_`. -/
def redirect [DecidableEq α] (up : α → Option α) (old new_ : α) (x : α) : Option α :=
  if x = old then some new_ else (up x).map fun y => if y = old then new_ else y

/-- One or more pointers lead from `x` to `y`. -/
def LeadsTo (up : α → Option α) (x y : α) : Prop :=
  Relation.TransGen (fun a b => up a = some b) x y

theorem leadsTo_of_leads [DecidableEq α] {up : α → Option α} {target : α} {fuel : ℕ}
    {seen : List α} {x : α} (h : leads up target fuel seen x = true) : LeadsTo up x target := by
  induction fuel generalizing seen x with
  | zero => cases h
  | succ fuel ih =>
    unfold leads at h
    split_ifs at h with hseen
    cases hx : up x with
    | none => simp [hx] at h
    | some y =>
      simp only [hx] at h
      split_ifs at h with hy
      · subst hy
        exact .single hx
      · exact .head hx (ih h)

lemma rank_lt_of_leadsTo {up : α → Option α} {rank : α → ℕ}
    (hrank : ∀ x y, up x = some y → rank y < rank x) {x y : α} (h : LeadsTo up x y) :
    rank y < rank x := by
  induction h with
  | single hstep => exact hrank _ _ hstep
  | tail _ hstep ih => exact (hrank _ _ hstep).trans ih

theorem Ranked.not_leadsTo_self {up : α → Option α} (h : Ranked up) (x : α) : ¬ LeadsTo up x x := by
  obtain ⟨rank, hrank⟩ := h
  exact fun hcircle => lt_irrefl _ (rank_lt_of_leadsTo hrank hcircle)

theorem leads_of_leadsTo [DecidableEq α] {up : α → Option α} {rank : α → ℕ}
    (hrank : ∀ x y, up x = some y → rank y < rank x) {s : Finset α}
    (hs : ∀ x y, up x = some y → x ∈ s) {target : α} (fuel : ℕ) (seen : List α) (x : α)
    (hseen : ∀ z ∈ seen, rank x < rank z) (hfuel : (s \ seen.toFinset).card < fuel)
    (h : LeadsTo up x target) : leads up target fuel seen x = true := by
  induction fuel generalizing seen x with
  | zero => omega
  | succ fuel ih =>
    have hnew : x ∉ seen := fun hmem => lt_irrefl _ (hseen x hmem)
    obtain ⟨y, hy, hrest⟩ := (Relation.TransGen.head'_iff).mp h
    simp only [leads, if_neg hnew, hy]
    split_ifs with htarget
    · rfl
    · have honward : LeadsTo up y target := by
        rcases hrest.cases_head with heq | ⟨z, hz, hrest⟩
        · exact absurd heq htarget
        · exact .head' hz hrest
      refine ih (x :: seen) y (fun z hz => ?_) ?_ honward
      · rcases List.mem_cons.mp hz with rfl | hz
        · exact hrank _ _ hy
        · exact (hrank _ _ hy).trans (hseen z hz)
      · have hcard := card_sdiff_cons hs hy hnew
        omega

/-- With no cycles about, the walk finds out where the pointers lead. -/
theorem leads_iff [DecidableEq α] {up : α → Option α} (h : Ranked up) {s : Finset α}
    (hs : ∀ x y, up x = some y → x ∈ s) {fuel : ℕ} (hfuel : s.card < fuel) (x target : α) :
    leads up target fuel [] x = true ↔ LeadsTo up x target := by
  obtain ⟨rank, hrank⟩ := h
  refine ⟨leadsTo_of_leads, leads_of_leadsTo hrank hs fuel [] x (by simp) ?_⟩
  simpa using hfuel

/-- No cycle is made by moving to a place that does not lead back. -/
theorem Ranked.redirect [DecidableEq α] {up : α → Option α} (h : Ranked up) {old new_ : α}
    (hne : new_ ≠ old) (hback : ¬ LeadsTo up new_ old) :
    Ranked (redirect up old new_) := by
  classical
  obtain ⟨rank, hrank⟩ := h
  -- what the new place leads to keeps its rank; everything else is lifted above the new place
  let below : α → Prop := fun x => Relation.ReflTransGen (fun a b => up a = some b) new_ x
  have hold : ∀ x, below x → up x ≠ some old := by
    intro x hx hstep
    exact hback (Relation.TransGen.tail' hx hstep)
  have hnotOld : ¬ below old := by
    intro hbelow
    rcases hbelow.cases_tail with heq | ⟨z, hz, hstep⟩
    · exact hne heq.symm
    · exact hold z hz hstep
  refine ⟨fun x => if below x then rank x else rank x + rank new_ + 1, fun x y hxy => ?_⟩
  have hnew : below new_ := .refl
  unfold ParentPointers.redirect at hxy
  dsimp only
  split_ifs at hxy with hx
  · cases hxy
    subst hx
    rw [if_pos hnew, if_neg hnotOld]
    omega
  · obtain ⟨z, hz, hy⟩ := Option.map_eq_some_iff.mp hxy
    have hstep := hrank x z hz
    by_cases hbelow : below x
    · have hzold : z ≠ old := fun heq => hold x hbelow (heq ▸ hz)
      rw [if_neg hzold] at hy
      subst hy
      rw [if_pos hbelow, if_pos (hbelow.tail hz)]
      exact hstep
    · rw [if_neg hbelow]
      split_ifs at hy with hzold
      · subst hy
        rw [if_pos hnew]
        omega
      · subst hy
        split_ifs <;> omega

/-- Pointers lead to places from which no pointer leads on. -/
def OneHop (up : α → Option α) : Prop := ∀ x y, up x = some y → up y = none

/-- Redirecting keeps pointers to one hop exactly if no pointer leads on from the new place. -/
theorem OneHop.redirect_iff [DecidableEq α] {up : α → Option α} (h : OneHop up) {old new_ : α}
    (hne : new_ ≠ old) : OneHop (redirect up old new_) ↔ up new_ = none := by
  have hold : redirect up old new_ old = some new_ := if_pos rfl
  constructor
  · intro hflat
    have hnew := hflat old new_ hold
    rw [redirect, if_neg hne, Option.map_eq_none_iff] at hnew
    exact hnew
  · intro hnew x y hxy
    have hnone : redirect up old new_ new_ = none := by
      rw [redirect, if_neg hne, hnew]
      rfl
    unfold redirect at hxy
    split_ifs at hxy with hx
    · cases hxy
      exact hnone
    · obtain ⟨z, hz, hy⟩ := Option.map_eq_some_iff.mp hxy
      split_ifs at hy with hzold
      · rw [← hy]
        exact hnone
      · rw [← hy, redirect, if_neg hzold, h x z hz]
        rfl

end ParentPointers
