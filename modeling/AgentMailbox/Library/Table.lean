import Mathlib.Data.List.Basic
import Mathlib.Data.List.Nodup

/-!
# Tables

Rows in the order in which they were inserted, no two of them with the same primary key, and
the statements that write to them. That the key is unique is part of the type; what each
statement does is said by the rows it leaves, and by what is found under a key afterwards.
-/

structure Table {κ ρ : Type} (key : ρ → κ) where
  rows : List ρ
  unique : (rows.map key).Nodup

namespace Table

variable {κ ρ : Type} {key : ρ → κ}

@[ext] theorem ext {t t' : Table key} (h : t.rows = t'.rows) : t = t' := by
  cases t
  cases t'
  simp only [mk.injEq]
  exact h

def empty : Table key := ⟨[], List.nodup_nil⟩

@[simp] theorem rows_empty : (empty : Table key).rows = [] := rfl

/-- Two rows with the same key are the same row. -/
theorem eq_of_key (t : Table key) {a b : ρ} (ha : a ∈ t.rows) (hb : b ∈ t.rows)
    (h : key a = key b) : a = b := List.inj_on_of_nodup_map t.unique ha hb h

theorem rows_nodup (t : Table key) : t.rows.Nodup := List.Nodup.of_map key t.unique

/-- `DELETE FROM t WHERE …`: the rows for which the condition does not hold. -/
def delete (t : Table key) (p : ρ → Bool) : Table key :=
  ⟨t.rows.filter fun row => !p row, t.unique.sublist (List.filter_sublist.map key)⟩

@[simp] theorem mem_delete (t : Table key) (p : ρ → Bool) (row : ρ) :
    row ∈ (t.delete p).rows ↔ row ∈ t.rows ∧ p row = false := by simp [delete]

/-- `UPDATE t SET …`, where the key stays what it is. -/
def update (t : Table key) (f : ρ → ρ) (hf : ∀ row, key (f row) = key row) : Table key :=
  ⟨t.rows.map f, by
    rw [List.map_map, show key ∘ f = key from funext hf]
    exact t.unique⟩

@[simp] theorem mem_update (t : Table key) (f : ρ → ρ) (hf : ∀ row, key (f row) = key row)
    (row : ρ) : row ∈ (t.update f hf).rows ↔ ∃ old ∈ t.rows, f old = row := by simp [update]

/-- `UPDATE OR IGNORE t SET … WHERE …`, where it is the key that is set: a row whose new key
is taken is left alone. -/
def rekey [DecidableEq κ] (t : Table key) (p : ρ → Bool) (f : ρ → ρ)
    (hf : ∀ a b, p a = true → p b = true → key (f a) = key (f b) → key a = key b) : Table key :=
  ⟨t.rows.map fun row => if p row ∧ key (f row) ∉ t.rows.map key then f row else row, by
    rw [List.map_map]
    refine List.Nodup.map_on (fun a ha b hb hab => ?_) t.rows_nodup
    simp only [Function.comp_apply] at hab
    split_ifs at hab with hpa hpb hpb
    · exact t.eq_of_key ha hb (hf a b hpa.1 hpb.1 hab)
    · exact absurd (List.mem_map_of_mem hb) (hab ▸ hpa.2)
    · exact absurd (List.mem_map_of_mem ha) (hab ▸ hpb.2)
    · exact t.eq_of_key ha hb hab⟩

theorem mem_rekey [DecidableEq κ] (t : Table key) (p : ρ → Bool) (f : ρ → ρ)
    (hf : ∀ a b, p a = true → p b = true → key (f a) = key (f b) → key a = key b) (row : ρ) :
    row ∈ (t.rekey p f hf).rows ↔ ∃ old ∈ t.rows,
      (if p old ∧ key (f old) ∉ t.rows.map key then f old else old) = row := by simp [rekey]

section
variable [DecidableEq κ]

/-- The row with a key. -/
def find? (t : Table key) (k : κ) : Option ρ := t.rows.find? fun row => key row = k

theorem find?_eq_some (t : Table key) (k : κ) (row : ρ) :
    t.find? k = some row ↔ row ∈ t.rows ∧ key row = k := by
  constructor
  · intro h
    exact ⟨List.mem_of_find?_eq_some h, by simpa using List.find?_some h⟩
  · rintro ⟨hrow, hkey⟩
    have hsome : (t.find? k).isSome = true :=
      List.find?_isSome.mpr ⟨row, hrow, decide_eq_true hkey⟩
    obtain ⟨found, hfound⟩ := Option.isSome_iff_exists.mp hsome
    have hkey' : key found = k := by simpa using List.find?_some hfound
    rw [hfound, t.eq_of_key (List.mem_of_find?_eq_some hfound) hrow (hkey'.trans hkey.symm)]

theorem find?_eq_none (t : Table key) (k : κ) :
    t.find? k = none ↔ ∀ row ∈ t.rows, key row ≠ k := by simp [find?]

/-- Two tables in which the same rows are found under a key. -/
theorem find?_congr {t t' : Table key} {k : κ}
    (h : ∀ row, key row = k → (row ∈ t.rows ↔ row ∈ t'.rows)) : t.find? k = t'.find? k := by
  refine Option.ext fun row => ?_
  rw [find?_eq_some, find?_eq_some]
  constructor <;> rintro ⟨hrow, hkey⟩
  · exact ⟨(h row hkey).mp hrow, hkey⟩
  · exact ⟨(h row hkey).mpr hrow, hkey⟩

@[simp] theorem find?_update (t : Table key) (f : ρ → ρ) (hf : ∀ row, key (f row) = key row)
    (k : κ) : (t.update f hf).find? k = (t.find? k).map f := by
  refine Option.ext fun row => ?_
  rw [find?_eq_some, mem_update, Option.map_eq_some_iff]
  constructor
  · rintro ⟨⟨old, hold, rfl⟩, hkey⟩
    exact ⟨old, (t.find?_eq_some k old).mpr ⟨hold, (hf old).symm.trans hkey⟩, rfl⟩
  · rintro ⟨old, hold, rfl⟩
    obtain ⟨hin, hkey⟩ := (t.find?_eq_some k old).mp hold
    exact ⟨⟨old, hin, rfl⟩, (hf old).trans hkey⟩

/-- A row added at the end, when its key is not taken. -/
def push (t : Table key) (row : ρ) (h : t.find? (key row) = none) : Table key :=
  ⟨t.rows ++ [row], by
    rw [List.map_append, List.map_singleton, List.nodup_append]
    refine ⟨t.unique, by simp, fun k hk k' hk' heq => ?_⟩
    obtain ⟨other, hother, rfl⟩ := List.mem_map.mp hk
    rw [List.mem_singleton.mp hk'] at heq
    exact (t.find?_eq_none _).mp h other hother heq⟩

/-- `INSERT INTO t`, unless the key is taken. -/
def insert (t : Table key) (row : ρ) : Option (Table key) :=
  if h : t.find? (key row) = none then some (t.push row h) else none

theorem insert_eq_some {t t' : Table key} {row : ρ} (h : t.insert row = some t') :
    t.find? (key row) = none ∧ t'.rows = t.rows ++ [row] := by
  unfold insert at h
  split_ifs at h with hnone
  cases h
  exact ⟨hnone, rfl⟩

theorem insert_eq_none (t : Table key) (row : ρ) :
    t.insert row = none ↔ ∃ other ∈ t.rows, key other = key row := by
  unfold insert
  split_ifs with hnone
  · rw [find?_eq_none] at hnone
    simpa using hnone
  · rw [find?_eq_none] at hnone
    simpa using hnone

/-- `INSERT OR IGNORE INTO t`: the number of rows inserted, and the table. -/
def insertOrIgnore (t : Table key) (row : ρ) : ℕ × Table key :=
  match t.insert row with
  | some inserted => (1, inserted)
  | none => (0, t)

/-- Either nothing is inserted, or the row is inserted at the end. -/
theorem rows_insertOrIgnore (t : Table key) (row : ρ) :
    (t.insertOrIgnore row).2 = t ∨ (t.insertOrIgnore row).2.rows = t.rows ++ [row] := by
  unfold insertOrIgnore
  cases h : t.insert row with
  | none => exact Or.inl rfl
  | some inserted => exact Or.inr (insert_eq_some h).2

theorem mem_insertOrIgnore (t : Table key) (row other : ρ) :
    other ∈ (t.insertOrIgnore row).2.rows ↔
      other ∈ t.rows ∨ other = row ∧ t.find? (key row) = none := by
  unfold insertOrIgnore insert
  split_ifs with hnone
  · simp [push, hnone]
  · simp [hnone]

theorem insertOrIgnore_eq_one (t : Table key) (row : ρ) :
    (t.insertOrIgnore row).1 = 1 ↔ t.find? (key row) = none := by
  unfold insertOrIgnore insert
  split_ifs with hnone <;> simp [hnone]

/-- `INSERT OR IGNORE INTO t SELECT …`: the selected rows, one after the other. -/
def insertAll (t : Table key) (rows : List ρ) : Table key :=
  rows.foldl (fun t row => (t.insertOrIgnore row).2) t

theorem insertAll_cons (t : Table key) (row : ρ) (rows : List ρ) :
    t.insertAll (row :: rows) = (t.insertOrIgnore row).2.insertAll rows := rfl

/-- A key is taken afterwards if it was, or if a selected row has it. -/
theorem key_mem_insertAll (t : Table key) (rows : List ρ) (k : κ) :
    k ∈ (t.insertAll rows).rows.map key ↔ k ∈ t.rows.map key ∨ k ∈ rows.map key := by
  induction rows generalizing t with
  | nil => simp [insertAll]
  | cons row rows ih =>
    have hone : k ∈ (t.insertOrIgnore row).2.rows.map key ↔ k ∈ t.rows.map key ∨ k = key row := by
      simp only [List.mem_map, mem_insertOrIgnore]
      constructor
      · rintro ⟨other, hother | ⟨rfl, _⟩, rfl⟩
        · exact Or.inl ⟨other, hother, rfl⟩
        · exact Or.inr rfl
      · rintro (⟨other, hother, rfl⟩ | rfl)
        · exact ⟨other, Or.inl hother, rfl⟩
        · by_cases hfree : t.find? (key row) = none
          · exact ⟨row, Or.inr ⟨rfl, hfree⟩, rfl⟩
          · obtain ⟨other, hother⟩ := Option.ne_none_iff_exists'.mp hfree
            obtain ⟨hin, hkey⟩ := (t.find?_eq_some _ _).mp hother
            exact ⟨other, Or.inl hin, hkey⟩
    rw [insertAll_cons, ih, hone, List.map_cons, List.mem_cons, or_assoc]

/-- Rows whose keys are all taken are all ignored. -/
theorem insertAll_of_taken (t : Table key) {rows : List ρ}
    (h : ∀ row ∈ rows, key row ∈ t.rows.map key) : t.insertAll rows = t := by
  induction rows with
  | nil => rfl
  | cons row rows ih =>
    have htaken : t.insert row = none :=
      (t.insert_eq_none row).mpr (List.mem_map.mp (h row List.mem_cons_self))
    rw [insertAll_cons, show (t.insertOrIgnore row).2 = t by simp [insertOrIgnore, htaken]]
    exact ih fun other hother => h other (List.mem_cons_of_mem _ hother)

/-- What has been inserted is not inserted again. -/
theorem insertAll_twice (t : Table key) (rows : List ρ) :
    (t.insertAll rows).insertAll rows = t.insertAll rows :=
  insertAll_of_taken _ fun row hrow =>
    (t.key_mem_insertAll rows (key row)).mpr (Or.inr (List.mem_map_of_mem hrow))

/-- Rows with keys of their own are all inserted. -/
theorem rows_insertAll (t : Table key) {rows : List ρ} (h : (rows.map key).Nodup)
    (hfree : ∀ row ∈ rows, key row ∉ t.rows.map key) :
    (t.insertAll rows).rows = t.rows ++ rows := by
  induction rows generalizing t with
  | nil => exact (List.append_nil _).symm
  | cons row rows ih =>
    rw [List.map_cons, List.nodup_cons] at h
    have hnone : t.find? (key row) = none := by
      rw [find?_eq_none]
      intro other hother hkey
      exact hfree row List.mem_cons_self (hkey ▸ List.mem_map_of_mem hother)
    have hpush : (t.insertOrIgnore row).2.rows = t.rows ++ [row] := by
      simp [insertOrIgnore, insert, hnone, push]
    rw [insertAll_cons, ih _ h.2, hpush, List.append_assoc, List.singleton_append]
    intro other hother
    rw [hpush, List.map_append, List.mem_append, not_or]
    refine ⟨hfree other (List.mem_cons_of_mem _ hother), ?_⟩
    simp only [List.map_cons, List.map_nil, List.mem_singleton]
    intro hkey
    exact h.1 (hkey ▸ List.mem_map_of_mem hother)

/-- `INSERT OR REPLACE INTO t`: a row with the same key is deleted first. -/
def insertOrReplace (t : Table key) (row : ρ) : Table key :=
  (t.delete fun other => key other = key row).push row (by
    rw [find?_eq_none]
    intro other hother
    simpa using ((t.mem_delete _ other).mp hother).2)

@[simp] theorem mem_insertOrReplace (t : Table key) (row other : ρ) :
    other ∈ (t.insertOrReplace row).rows ↔
      other = row ∨ other ∈ t.rows ∧ key other ≠ key row := by
  simp [insertOrReplace, push, delete, or_comm]

@[simp] theorem find?_insertOrReplace (t : Table key) (row : ρ) (k : κ) :
    (t.insertOrReplace row).find? k = if k = key row then some row else t.find? k := by
  split_ifs with hk
  · rw [find?_eq_some, mem_insertOrReplace]
    exact ⟨Or.inl rfl, hk.symm⟩
  · refine find?_congr fun other hother => ?_
    rw [mem_insertOrReplace]
    subst hother
    constructor
    · rintro (rfl | ⟨hin, _⟩)
      · exact absurd rfl hk
      · exact hin
    · exact fun hin => Or.inr ⟨hin, hk⟩

/-- `INSERT INTO t … ON CONFLICT DO UPDATE SET …`. -/
def upsert (t : Table key) (row : ρ) (f : ρ → ρ) (hf : ∀ old, key (f old) = key old) : Table key :=
  if h : t.find? (key row) = none then t.push row h
  else t.update (fun old => if key old = key row then f old else old) (by
    intro old
    split_ifs
    · exact hf old
    · rfl)

theorem mem_upsert (t : Table key) (row : ρ) (f : ρ → ρ) (hf : ∀ old, key (f old) = key old)
    (other : ρ) : other ∈ (t.upsert row f hf).rows ↔
      other ∈ t.rows ∧ key other ≠ key row ∨
        other = (t.find? (key row)).elim row f := by
  unfold upsert
  split_ifs with hnone
  · rw [hnone, Option.elim_none]
    have hkeys := (t.find?_eq_none _).mp hnone
    simp only [push, List.mem_append, List.mem_singleton]
    constructor
    · rintro (hin | rfl)
      · exact Or.inl ⟨hin, hkeys other hin⟩
      · exact Or.inr rfl
    · rintro (⟨hin, _⟩ | rfl)
      · exact Or.inl hin
      · exact Or.inr rfl
  · obtain ⟨found, hfound⟩ := Option.ne_none_iff_exists'.mp hnone
    obtain ⟨hin, hkey⟩ := (t.find?_eq_some _ _).mp hfound
    rw [hfound, Option.elim_some, mem_update]
    constructor
    · rintro ⟨old, hold, rfl⟩
      by_cases hsame : key old = key row
      · rw [if_pos hsame, t.eq_of_key hold hin (hsame.trans hkey.symm)]
        exact Or.inr rfl
      · rw [if_neg hsame]
        exact Or.inl ⟨hold, hsame⟩
    · rintro (⟨hold, hne⟩ | rfl)
      · exact ⟨other, hold, if_neg hne⟩
      · exact ⟨found, hin, if_pos hkey⟩

end

end Table
