import Mathlib.Data.Finset.Sort
import Mathlib.Data.List.Sort

/-!
# Sorting by a key, and listing a finite set in order

Both are structural, so that a run on concrete data evaluates. A list whose
elements have distinct keys has exactly one sorted arrangement, so what sorting
returns depends only on which elements there are, and commutes with filtering.
-/
namespace Sorting

/-- `sorted(xs, key=key)`. -/
def sortBy {α β : Type*} [LinearOrder β] (key : α → β) (xs : List α) : List α :=
  xs.insertionSort (fun a b => key a ≤ key b)

/-- Ties of the key between distinct elements of `xs` do not occur. -/
def KeyedApart {α β : Type*} (key : α → β) (xs : List α) : Prop :=
  ∀ a ∈ xs, ∀ b ∈ xs, key a = key b → a = b

instance total_key {α β : Type*} [LinearOrder β] (key : α → β) :
    Std.Total (fun a b => key a ≤ key b) := ⟨fun a b => le_total (key a) (key b)⟩

instance trans_key {α β : Type*} [LinearOrder β] (key : α → β) :
    IsTrans α (fun a b => key a ≤ key b) := ⟨fun _ _ _ hab hbc => le_trans hab hbc⟩

theorem sortBy_perm {α β : Type*} [LinearOrder β] (key : α → β) (xs : List α) :
    (sortBy key xs).Perm xs := List.perm_insertionSort _ xs

@[simp] theorem mem_sortBy {α β : Type*} [LinearOrder β] (key : α → β) (xs : List α) (a : α) :
    a ∈ sortBy key xs ↔ a ∈ xs := (sortBy_perm key xs).mem_iff

theorem sortBy_pairwise {α β : Type*} [LinearOrder β] (key : α → β) (xs : List α) :
    (sortBy key xs).Pairwise (fun a b => key a ≤ key b) := List.pairwise_insertionSort _ xs

/-- Sorted arrangements of the same elements are equal when no two keys tie. -/
theorem eq_of_perm_of_sorted {α β : Type*} [LinearOrder β] (key : α → β) {xs ys : List α}
    (hperm : xs.Perm ys) (hapart : KeyedApart key xs)
    (hx : xs.Pairwise (fun a b => key a ≤ key b))
    (hy : ys.Pairwise (fun a b => key a ≤ key b)) : xs = ys := by
  refine hperm.eq_of_pairwise ?_ hx hy
  intro a b ha hb hab hba
  exact hapart a ha b (hperm.mem_iff.mpr hb) (le_antisymm hab hba)

theorem sortBy_eq_of_perm {α β : Type*} [LinearOrder β] (key : α → β) {xs ys : List α}
    (hperm : xs.Perm ys) (hapart : KeyedApart key xs) : sortBy key xs = sortBy key ys := by
  apply eq_of_perm_of_sorted key _ _ (sortBy_pairwise key xs) (sortBy_pairwise key ys)
  · exact (sortBy_perm key xs).trans (hperm.trans (sortBy_perm key ys).symm)
  · intro a ha b hb
    exact hapart a ((mem_sortBy key xs a).mp ha) b ((mem_sortBy key xs b).mp hb)

/-- Sorting what `f` makes of the elements, when `f` keeps their order. -/
theorem sortBy_map {α β γ δ : Type*} [LinearOrder β] [LinearOrder δ] {key : α → β} {f : α → γ}
    {key' : γ → δ} (hf : ∀ a b, key' (f a) ≤ key' (f b) ↔ key a ≤ key b) (xs : List α) :
    sortBy key' (xs.map f) = (sortBy key xs).map f :=
  (List.map_insertionSort _ _ f xs fun a _ b _ => (hf a b).symm).symm

/-- An element that comes before all others is put first. -/
lemma orderedInsert_of_forall_le {α β : Type*} [LinearOrder β] {key : α → β} {a : α} {xs : List α}
    (h : ∀ b ∈ xs, key a ≤ key b) : xs.orderedInsert (fun a b => key a ≤ key b) a = a :: xs := by
  cases xs with
  | nil => rfl
  | cons b xs => rw [List.orderedInsert_cons, if_pos (h b List.mem_cons_self)]

lemma filter_orderedInsert {α β : Type*} [LinearOrder β] {key : α → β} {p : α → Bool} {a : α}
    {xs : List α} (hxs : xs.Pairwise fun a b => key a ≤ key b) :
    (xs.orderedInsert (fun a b => key a ≤ key b) a).filter p =
      if p a then (xs.filter p).orderedInsert (fun a b => key a ≤ key b) a else xs.filter p := by
  induction xs with
  | nil => simp [List.filter_cons]
  | cons b xs ih =>
    obtain ⟨hb, hxs⟩ := List.pairwise_cons.mp hxs
    have ih := ih hxs
    rw [List.orderedInsert_cons]
    by_cases hab : key a ≤ key b
    · have hfirst : ((b :: xs).filter p).orderedInsert (fun a b => key a ≤ key b) a =
          a :: (b :: xs).filter p := by
        refine orderedInsert_of_forall_le fun c hc => ?_
        rcases List.mem_cons.mp (List.mem_filter.mp hc).1 with rfl | hc
        · exact hab
        · exact hab.trans (hb c hc)
      rw [if_pos hab, List.filter_cons, hfirst]
    · rw [if_neg hab, List.filter_cons, List.filter_cons, ih]
      cases p a with
      | false => simp
      | true =>
        cases p b with
        | false => simp
        | true => simp [List.orderedInsert_cons, hab]

/-- Sorting is stable: what is filtered out does not matter to the others. -/
theorem filter_sortBy {α β : Type*} [LinearOrder β] (key : α → β) (p : α → Bool) (xs : List α) :
    (sortBy key xs).filter p = sortBy key (xs.filter p) := by
  induction xs with
  | nil => rfl
  | cons a xs ih =>
    have hcons : sortBy key (a :: xs) =
        (sortBy key xs).orderedInsert (fun a b => key a ≤ key b) a := rfl
    rw [hcons, filter_orderedInsert (sortBy_pairwise key xs), ih, List.filter_cons]
    split_ifs <;> rfl

/-- Keys that order the elements alike sort them alike. -/
theorem sortBy_congr {α β γ : Type*} [LinearOrder β] [LinearOrder γ] {key : α → β} {key' : α → γ}
    {xs : List α} (h : ∀ a ∈ xs, ∀ b ∈ xs, key a ≤ key b ↔ key' a ≤ key' b) :
    sortBy key xs = sortBy key' xs := by
  have hmap := List.map_insertionSort (fun a b => key a ≤ key b) (fun a b => key' a ≤ key' b)
    id xs h
  rwa [List.map_id, List.map_id] at hmap

/-- Sorted listings without repetition are equal when they list the same elements. -/
theorem eq_of_mem_iff {α β : Type*} [LinearOrder β] (key : α → β) {xs ys : List α}
    (hmem : ∀ a, a ∈ xs ↔ a ∈ ys) (hapart : KeyedApart key xs) (hnx : xs.Nodup) (hny : ys.Nodup)
    (hx : xs.Pairwise (fun a b => key a ≤ key b))
    (hy : ys.Pairwise (fun a b => key a ≤ key b)) : xs = ys :=
  eq_of_perm_of_sorted key ((List.perm_ext_iff_of_nodup hnx hny).mpr hmem) hapart hx hy

/-- `tuple(sorted(s))` of a finite set. -/
def sorted {α : Type*} [LinearOrder α] (s : Finset α) : List α :=
  Quot.liftOn s.val (sortBy id) fun _ _ hperm =>
    sortBy_eq_of_perm id hperm fun _ _ _ _ h => h

/-- The set read back from its sorted listing is the same set. -/
theorem sorted_perm {α : Type*} [LinearOrder α] (s : Finset α) :
    (↑(sorted s) : Multiset α) = s.val := by
  obtain ⟨m, hm⟩ := s
  induction m using Quot.ind with
  | mk xs => exact Multiset.coe_eq_coe.mpr (sortBy_perm id xs)

@[simp] theorem mem_sorted {α : Type*} [LinearOrder α] (s : Finset α) (a : α) :
    a ∈ sorted s ↔ a ∈ s := by
  rw [← Multiset.mem_coe, sorted_perm, Finset.mem_val]

theorem sorted_nodup {α : Type*} [LinearOrder α] (s : Finset α) : (sorted s).Nodup := by
  rw [← Multiset.coe_nodup, sorted_perm]
  exact s.nodup

theorem length_sorted {α : Type*} [LinearOrder α] (s : Finset α) :
    (sorted s).length = s.card := by
  rw [Finset.card, ← sorted_perm, Multiset.coe_card]

@[simp] theorem toFinset_sorted {α : Type*} [LinearOrder α] (s : Finset α) :
    (sorted s).toFinset = s := by
  ext a
  simp

end Sorting
