import Mathlib.Data.List.Dedup
import Mathlib.Data.List.Perm.Basic

/-!
# Grouping rows by a key

The keys in the order in which they first occur, each with its rows in the order in which they
stand. Every row is in exactly one group, so that what is counted group by group adds up.
-/
namespace Grouping

variable {κ ρ : Type*} [DecidableEq κ]

/-- Each key once, in the order of the first occurrences. -/
def firsts : List κ → List κ
  | [] => []
  | k :: ks => k :: (firsts ks).filter (· ≠ k)

@[simp] theorem mem_firsts (ks : List κ) (k : κ) : k ∈ firsts ks ↔ k ∈ ks := by
  induction ks with
  | nil => rfl
  | cons first ks ih =>
    simp only [firsts, List.mem_cons, List.mem_filter, ih, decide_eq_true_eq]
    by_cases h : k = first
    · simp [h]
    · simp [h]

theorem nodup_firsts (ks : List κ) : (firsts ks).Nodup := by
  induction ks with
  | nil => exact List.nodup_nil
  | cons k ks ih =>
    rw [firsts, List.nodup_cons]
    exact ⟨by simp, ih.filter _⟩

theorem length_firsts_le (ks : List κ) : (firsts ks).length ≤ ks.length := by
  induction ks with
  | nil => exact Nat.le_refl _
  | cons k ks ih =>
    have hfilter := List.length_filter_le (· ≠ k) (firsts ks)
    rw [firsts, List.length_cons, List.length_cons]
    omega

/-- The rows of some keys. -/
def groupsOver (key : ρ → κ) (rows : List ρ) (ks : List κ) : List (κ × List ρ) :=
  ks.map fun k => (k, rows.filter fun row => key row = k)

/-- `GROUP BY`: the keys that occur, each with its rows. -/
def groups (key : ρ → κ) (rows : List ρ) : List (κ × List ρ) :=
  groupsOver key rows (firsts (rows.map key))

variable {key : ρ → κ} {rows : List ρ}

theorem mem_groups {group : κ × List ρ} : group ∈ groups key rows ↔
    (∃ row ∈ rows, key row = group.1) ∧ group.2 = rows.filter fun row => key row = group.1 := by
  obtain ⟨k, members⟩ := group
  simp only [groups, groupsOver, List.mem_map, mem_firsts, Prod.mk.injEq]
  constructor
  · rintro ⟨k', ⟨row, hrow, rfl⟩, rfl, rfl⟩
    exact ⟨⟨row, hrow, rfl⟩, rfl⟩
  · rintro ⟨⟨row, hrow, rfl⟩, hmembers⟩
    exact ⟨key row, ⟨row, hrow, rfl⟩, rfl, hmembers.symm⟩

@[simp] theorem map_fst_groups : (groups key rows).map Prod.fst = firsts (rows.map key) := by
  simp [groups, groupsOver, Function.comp_def]

/-- No group is empty. -/
theorem ne_nil_of_mem_groups {group : κ × List ρ} (h : group ∈ groups key rows) :
    group.2 ≠ [] := by
  obtain ⟨⟨row, hrow, hkey⟩, hmembers⟩ := mem_groups.mp h
  rw [hmembers]
  exact List.ne_nil_of_mem (List.mem_filter.mpr ⟨hrow, decide_eq_true hkey⟩)

/-- The groups of keys among which there are those of all rows hold the rows. -/
theorem groupsOver_perm {ks : List κ} (hks : ks.Nodup) (hall : ∀ row ∈ rows, key row ∈ ks) :
    ((groupsOver key rows ks).flatMap Prod.snd).Perm rows := by
  induction ks generalizing rows with
  | nil =>
    have hnil : rows = [] := List.eq_nil_iff_forall_not_mem.mpr fun row hrow =>
      absurd (hall row hrow) List.not_mem_nil
    rw [hnil]
    rfl
  | cons k ks ih =>
    obtain ⟨hk, hks⟩ := List.nodup_cons.mp hks
    -- the rows of the first key, and all the others
    have hsplit := List.filter_append_perm (fun row => decide (key row = k)) rows
    have hrest : groupsOver key rows ks =
        groupsOver key (rows.filter fun row => !decide (key row = k)) ks := by
      refine List.map_congr_left fun k' hk' => ?_
      have hne : k' ≠ k := by
        rintro rfl
        exact hk hk'
      rw [List.filter_filter]
      congr 1
      refine List.filter_congr fun other _ => ?_
      by_cases h : key other = k'
      · simp [h, hne]
      · simp [h]
    have hothers : ∀ row ∈ rows.filter fun row => !decide (key row = k), key row ∈ ks := by
      intro row hrow
      obtain ⟨hin, hne⟩ := List.mem_filter.mp hrow
      have hother : key row ≠ k := by simpa using hne
      exact (List.mem_cons.mp (hall row hin)).resolve_left hother
    have hcons : (groupsOver key rows (k :: ks)).flatMap Prod.snd =
        (rows.filter fun row => decide (key row = k)) ++
          (groupsOver key rows ks).flatMap Prod.snd := rfl
    rw [hcons, hrest]
    exact ((ih hks hothers).append_left _).trans hsplit

theorem groups_perm : ((groups key rows).flatMap Prod.snd).Perm rows :=
  groupsOver_perm (nodup_firsts _) fun _ hrow =>
    (mem_firsts _ _).mpr (List.mem_map_of_mem hrow)

/-- The sum of some counts. -/
def total : List ℕ → ℕ
  | [] => 0
  | n :: ns => n + total ns

theorem total_eq_of_perm {ns ns' : List ℕ} (h : ns.Perm ns') : total ns = total ns' := by
  induction h with
  | nil => rfl
  | cons n _ ih => rw [total, total, ih]
  | swap n m ns =>
    rw [total, total, total, total]
    omega
  | trans _ _ ih ih' => rw [ih, ih']

omit [DecidableEq κ] in
theorem total_lengths (gs : List (κ × List ρ)) :
    total (gs.map fun group => group.2.length) = (gs.flatMap Prod.snd).length := by
  induction gs with
  | nil => rfl
  | cons group gs ih => rw [List.map_cons, total, ih, List.flatMap_cons, List.length_append]

/-- Counting group by group counts every row. -/
theorem total_groups :
    total ((groups key rows).map fun group => group.2.length) = rows.length := by
  rw [total_lengths, groups_perm.length_eq]

end Grouping
