import Mathlib.Data.List.AList
import Mathlib.Data.List.Induction
import Mathlib.Order.MinMax

/-!
# Insertion-ordered dictionaries

Association lists with distinct keys, used the way a scripting language uses its
dictionaries: assigning to a key that is present keeps its place, a new key goes
to the end, and deleting closes the gap. The distinctness of the keys is a field
of `AList`, so no value with a repeated key can be built.
-/
abbrev Dict (κ : Type*) (ν : Type*) := AList (fun _ : κ => ν)

namespace Dict

/-- Equality of the entries, decided in a way that evaluates. -/
instance {κ ν : Type*} [DecidableEq κ] [DecidableEq ν] : DecidableEq (Dict κ ν) :=
  fun _ _ => decidable_of_iff _ AList.ext_iff.symm

/-- The stored values, oldest key first. -/
def values {κ ν : Type*} (d : Dict κ ν) : List ν := d.entries.map Sigma.snd

/-- `d[k] = v`. -/
def set {κ ν : Type*} [DecidableEq κ] (d : Dict κ ν) (k : κ) (v : ν) : Dict κ ν :=
  if k ∈ d then d.replace k v else d ∪ AList.singleton k v

/-- `d.setdefault(k, v)`, as a statement: the dictionary it leaves behind. -/
def setDefault {κ ν : Type*} [DecidableEq κ] (d : Dict κ ν) (k : κ) (v : ν) : Dict κ ν :=
  if k ∈ d then d else d.set k v

/-- `{**d, **e}`. -/
def update {κ ν : Type*} [DecidableEq κ] (d e : Dict κ ν) : Dict κ ν :=
  e.entries.foldl (fun acc entry => acc.set entry.1 entry.2) d

/-- A dictionary display; a repeated key keeps its last value. -/
def ofList {κ ν : Type*} [DecidableEq κ] (entries : List (κ × ν)) : Dict κ ν :=
  entries.foldl (fun acc entry => acc.set entry.1 entry.2) ∅

/-- `{k: v for k, v in d.items() if p(k)}`. -/
def filterKeys {κ ν : Type*} (p : κ → Bool) (d : Dict κ ν) : Dict κ ν :=
  ⟨d.entries.filter (fun entry => p entry.1),
    d.nodupKeys.sublist List.filter_sublist⟩

/-- `{k: f(v) for k, v in d.items()}`. -/
def mapValues {κ ν ν' : Type*} (f : ν → ν') (d : Dict κ ν) : Dict κ ν' :=
  ⟨d.entries.map fun entry => ⟨entry.1, f entry.2⟩, by
    unfold List.NodupKeys List.keys
    rw [List.map_map]
    exact d.nodupKeys⟩

lemma dlookup_kreplace {κ ν : Type*} [DecidableEq κ] (k k' : κ) (v : ν)
    (l : List (Σ _ : κ, ν)) (h : k ∈ l.keys) :
    (l.kreplace k v).dlookup k' = if k' = k then some v else l.dlookup k' := by
  induction l with
  | nil => simp at h
  | cons entry l ih =>
    obtain ⟨a, b⟩ := entry
    by_cases hk : k = a
    · subst a
      have hstep : List.kreplace k v (⟨k, b⟩ :: l) = ⟨k, v⟩ :: l :=
        List.lookmap_cons_some _ _ (by simp)
      rw [hstep]
      by_cases hk' : k' = k
      · subst hk'
        simp
      · rw [List.dlookup_cons_ne l ⟨k, v⟩ hk', List.dlookup_cons_ne l ⟨k, b⟩ hk', if_neg hk']
    · have hstep : List.kreplace k v (⟨a, b⟩ :: l) = ⟨a, b⟩ :: List.kreplace k v l :=
        List.lookmap_cons_none _ _ (by simp [hk])
      have hl : k ∈ l.keys := by simpa [hk] using h
      rw [hstep]
      by_cases ha : k' = a
      · subst ha
        simp [Ne.symm hk]
      · have hskip : ∀ rest : List (Σ _ : κ, ν),
            (⟨a, b⟩ :: rest : List (Σ _ : κ, ν)).dlookup k' = rest.dlookup k' :=
          fun rest => List.dlookup_cons_ne rest ⟨a, b⟩ ha
        rw [hskip, hskip]
        exact ih hl

@[simp] theorem lookup_set {κ ν : Type*} [DecidableEq κ] (d : Dict κ ν) (k k' : κ) (v : ν) :
    (d.set k v).lookup k' = if k' = k then some v else d.lookup k' := by
  unfold set
  split_ifs with hk hk' hk'
  · exact (dlookup_kreplace k k' v d.entries hk).trans (if_pos hk')
  · exact (dlookup_kreplace k k' v d.entries hk).trans (if_neg hk')
  · subst hk'
    rw [AList.lookup_union_right hk, ← AList.insert_empty, AList.lookup_insert]
  · by_cases hd : k' ∈ d
    · exact AList.lookup_union_left hd
    · rw [AList.lookup_union_right hd, AList.lookup_eq_none.mpr hd]
      exact AList.lookup_eq_none.mpr (by simpa [AList.mem_keys] using hk')

theorem lookup_set_self {κ ν : Type*} [DecidableEq κ] (d : Dict κ ν) (k : κ) (v : ν) :
    (d.set k v).lookup k = some v := by simp

theorem mem_iff_lookup {κ ν : Type*} [DecidableEq κ] (d : Dict κ ν) (k : κ) :
    k ∈ d ↔ ∃ v, d.lookup k = some v := by
  rw [← AList.lookup_isSome, Option.isSome_iff_exists]

@[simp] theorem mem_set {κ ν : Type*} [DecidableEq κ] (d : Dict κ ν) (k k' : κ) (v : ν) :
    k' ∈ d.set k v ↔ k' = k ∨ k' ∈ d := by
  rw [mem_iff_lookup, mem_iff_lookup, lookup_set]
  split_ifs with h <;> simp [h]

theorem lookup_erase {κ ν : Type*} [DecidableEq κ] (d : Dict κ ν) (k k' : κ) :
    AList.lookup k' (d.erase k) = if k' = k then none else d.lookup k' := by
  split_ifs with h
  · rw [h, AList.lookup_erase]
  · exact AList.lookup_erase_ne h

@[simp] theorem lookup_setDefault {κ ν : Type*} [DecidableEq κ] (d : Dict κ ν) (k k' : κ) (v : ν) :
    (d.setDefault k v).lookup k' = if k' = k then some ((d.lookup k).getD v) else d.lookup k' := by
  unfold setDefault
  by_cases hk : k ∈ d
  · obtain ⟨w, hw⟩ := (mem_iff_lookup d k).mp hk
    rw [if_pos hk]
    split_ifs with h
    · rw [h, hw]; rfl
    · rfl
  · rw [if_neg hk, lookup_set, AList.lookup_eq_none.mpr hk]
    simp

theorem mem_values {κ ν : Type*} [DecidableEq κ] (d : Dict κ ν) (v : ν) :
    v ∈ d.values ↔ ∃ k, d.lookup k = some v := by
  simp only [values, List.mem_map]
  constructor
  · rintro ⟨⟨k, w⟩, hmem, rfl⟩
    exact ⟨k, AList.mem_lookup_iff.mpr hmem⟩
  · rintro ⟨k, hk⟩
    exact ⟨⟨k, v⟩, AList.mem_lookup_iff.mp hk, rfl⟩

/-- When every value knows its own key, the keys can be read off the values. -/
theorem map_values_eq_keys {κ ν : Type*} [DecidableEq κ] (d : Dict κ ν) (key : ν → κ)
    (h : ∀ k v, d.lookup k = some v → key v = k) : d.values.map key = d.keys := by
  simp only [values, AList.keys, List.keys, List.map_map]
  apply List.map_congr_left
  rintro ⟨k, v⟩ hmem
  exact h k v (AList.mem_lookup_iff.mpr hmem)

theorem values_nodup {κ ν : Type*} [DecidableEq κ] {d : Dict κ ν} {key : ν → κ}
    (h : ∀ k v, d.lookup k = some v → key v = k) : d.values.Nodup := by
  have hkeys : (d.values.map key).Nodup := by
    rw [map_values_eq_keys d key h]
    exact d.nodupKeys
  exact List.Nodup.of_map key hkeys

/-- Values that know their keys are told apart by them. -/
theorem eq_of_key {κ ν : Type*} [DecidableEq κ] {d : Dict κ ν} {key : ν → κ}
    (h : ∀ k v, d.lookup k = some v → key v = k) {v w : ν} (hv : v ∈ d.values) (hw : w ∈ d.values)
    (heq : key v = key w) : v = w := by
  obtain ⟨k, hk⟩ := (mem_values d v).mp hv
  obtain ⟨l, hl⟩ := (mem_values d w).mp hw
  rw [← h k v hk, heq, h l w hl, hl] at hk
  exact (Option.some.inj hk).symm

theorem lookup_filterKeys {κ ν : Type*} [DecidableEq κ] (p : κ → Bool) (d : Dict κ ν) (k : κ) :
    (filterKeys p d).lookup k = if p k then d.lookup k else none := by
  ext v
  have hmem : (filterKeys p d).lookup k = some v ↔
      (⟨k, v⟩ : Σ _ : κ, ν) ∈ d.entries ∧ p k = true :=
    AList.mem_lookup_iff.trans List.mem_filter
  split_ifs with hp
  · exact hmem.trans (by simpa [hp] using AList.mem_lookup_iff.symm)
  · simpa [hp] using hmem

theorem lookup_update {κ ν : Type*} [DecidableEq κ] (d e : Dict κ ν) (k : κ) :
    (d.update e).lookup k = (e.lookup k).or (d.lookup k) := by
  obtain ⟨l, hl⟩ := e
  simp only [update, AList.lookup]
  induction l generalizing d with
  | nil => simp
  | cons entry l ih =>
    obtain ⟨a, b⟩ := entry
    have hnodup := List.nodupKeys_cons.mp hl
    rw [List.foldl_cons, ih (d.set a b) hnodup.2]
    change (List.dlookup k l).or ((d.set a b).lookup k) = _
    rw [lookup_set]
    by_cases hk : k = a
    · subst hk
      have hnone : List.dlookup k l = none := List.dlookup_eq_none.mpr hnodup.1
      simp [hnone]
    · rw [if_neg hk, List.dlookup_cons_ne l ⟨a, b⟩ hk]
      rfl

theorem ofList_append {κ ν : Type*} [DecidableEq κ] (entries : List (κ × ν)) (entry : κ × ν) :
    ofList (entries ++ [entry]) = (ofList entries).set entry.1 entry.2 := by
  simp [ofList]

lemma kunion_singleton {κ ν : Type*} [DecidableEq κ] (k : κ) (v : ν) (l : List (Σ _ : κ, ν))
    (h : k ∉ l.keys) : l.kunion [⟨k, v⟩] = l ++ [⟨k, v⟩] := by
  induction l with
  | nil => rfl
  | cons entry l ih =>
    have hne : k ≠ entry.1 := fun heq => h (by simp [heq])
    have hrest : k ∉ l.keys := fun hmem => h (by simp [hmem])
    rw [List.kunion_cons, List.kerase_cons_ne (Ne.symm hne)]
    exact congrArg (entry :: ·) (ih hrest)

/-- A new key goes to the end. -/
theorem entries_set_of_notMem {κ ν : Type*} [DecidableEq κ] {d : Dict κ ν} {k : κ} (h : k ∉ d)
    (v : ν) : (d.set k v).entries = d.entries ++ [⟨k, v⟩] := by
  unfold set
  rw [if_neg h]
  exact kunion_singleton k v d.entries h

/-- A display without repeated keys has its entries in the order given. -/
theorem entries_ofList {κ ν : Type*} [DecidableEq κ] {entries : List (κ × ν)}
    (h : (entries.map Prod.fst).Nodup) :
    (ofList entries).entries = entries.map fun entry => ⟨entry.1, entry.2⟩ := by
  induction entries using List.reverseRecOn with
  | nil => rfl
  | append_singleton entries entry ih =>
    rw [List.map_append, List.nodup_append] at h
    obtain ⟨hentries, _, hdisjoint⟩ := h
    have hnew : entry.1 ∉ ofList entries := by
      intro hmem
      have hkey : entry.1 ∈ (ofList entries).entries.map Sigma.fst := hmem
      rw [ih hentries, List.map_map] at hkey
      exact hdisjoint entry.1 hkey entry.1 (by simp) rfl
    rw [ofList_append, entries_set_of_notMem hnew, ih hentries, List.map_append]
    rfl

@[simp] theorem empty_update {κ ν : Type*} [DecidableEq κ] (d : Dict κ ν) :
    (∅ : Dict κ ν).update d = d := by
  have hupdate : (∅ : Dict κ ν).update d =
      ofList (d.entries.map fun entry => (entry.1, entry.2)) := by
    simp only [update, ofList, List.foldl_map]
  have hkeys : ((d.entries.map fun entry => (entry.1, entry.2)).map Prod.fst).Nodup := by
    rw [List.map_map]
    exact d.nodupKeys
  apply AList.ext
  rw [hupdate, entries_ofList hkeys, List.map_map]
  exact List.map_id _


/-- A display in which repeated keys have equal values holds exactly its entries. -/
theorem lookup_ofList {κ ν : Type*} [DecidableEq κ] {entries : List (κ × ν)}
    (h : ∀ k v w, (k, v) ∈ entries → (k, w) ∈ entries → v = w) (k : κ) (v : ν) :
    (ofList entries).lookup k = some v ↔ (k, v) ∈ entries := by
  induction entries using List.reverseRecOn with
  | nil => simp [ofList]
  | append_singleton entries entry ih =>
    obtain ⟨a, b⟩ := entry
    have hrest := ih fun k v w hv hw => h k v w (by simp [hv]) (by simp [hw])
    rw [ofList_append, lookup_set]
    by_cases hk : k = a
    · subst hk
      simp only [if_true, Option.some.injEq]
      constructor
      · rintro rfl
        simp
      · exact fun hv => h k b v (by simp) hv
    · simp [hk, hrest]

/-- A display whose values are functions of their keys. -/
theorem lookup_ofList_map {κ ν : Type*} [DecidableEq κ] (f : κ → ν) (keys : List κ) (k : κ) :
    (ofList (keys.map fun key => (key, f key))).lookup k =
      if k ∈ keys then some (f k) else none := by
  induction keys using List.reverseRecOn with
  | nil => simp [ofList]
  | append_singleton keys key ih =>
    rw [List.map_append, List.map_singleton, ofList_append, lookup_set, ih]
    by_cases hk : k = key
    · subst hk
      simp
    · simp [hk]

/-! ## The same keys with other values -/

/-- `e` holds what `f` makes of each value of `d`, under the same key. -/
def Maps {κ ν ν' : Type*} [DecidableEq κ] (f : ν → ν') (d : Dict κ ν) (e : Dict κ ν') : Prop :=
  ∀ k, e.lookup k = (d.lookup k).map f

section
variable {κ ν ν' : Type*} [DecidableEq κ] {f : ν → ν'} {d : Dict κ ν} {e : Dict κ ν'}

theorem Maps.mem_iff (h : Maps f d e) (k : κ) : k ∈ e ↔ k ∈ d := by
  rw [← AList.lookup_isSome, ← AList.lookup_isSome, h k, Option.isSome_map]

theorem maps_mapValues (f : ν → ν') (d : Dict κ ν) : Maps f d (d.mapValues f) := by
  intro k
  exact List.dlookup_map₂ (f := fun _ => f) k

theorem Maps.set (h : Maps f d e) (k : κ) (v : ν) : Maps f (d.set k v) (e.set k (f v)) := by
  intro k'
  rw [lookup_set, lookup_set, h k']
  split_ifs <;> rfl

theorem Maps.ofList (f : ν → ν') (entries : List (κ × ν)) :
    Maps f (ofList entries) (ofList (entries.map fun entry => (entry.1, f entry.2))) := by
  induction entries using List.reverseRecOn with
  | nil => exact fun k => rfl
  | append_singleton entries entry ih =>
    rw [List.map_append, List.map_singleton, ofList_append, ofList_append]
    exact ih.set entry.1 entry.2

theorem Maps.filterKeys (h : Maps f d e) (p : κ → Bool) :
    Maps f (filterKeys p d) (filterKeys p e) := by
  intro k
  rw [lookup_filterKeys, lookup_filterKeys, h k]
  split_ifs <;> rfl

theorem Maps.lookup_eq {d e : Dict κ ν} (h : Maps id d e) (k : κ) : e.lookup k = d.lookup k := by
  rw [h k, Option.map_id, id]

theorem Maps.keys_perm (h : Maps f d e) : e.keys.Perm d.keys := by
  apply (List.perm_ext_iff_of_nodup e.nodupKeys d.nodupKeys).mpr
  exact h.mem_iff

theorem Maps.values_perm (h : Maps f d e) : e.values.Perm (d.values.map f) := by
  have hentries : e.entries.Perm (d.entries.map (Sigma.map id fun _ => f)) := by
    apply List.lookup_ext e.nodupKeys (List.NodupKeys.map₂ (fun _ => f) _ d.nodupKeys)
    intro k w
    rw [List.dlookup_map₂]
    show w ∈ e.lookup k ↔ w ∈ (d.lookup k).map f
    rw [h k]
  have hvalues := hentries.map Sigma.snd
  rw [List.map_map] at hvalues
  unfold values
  rw [List.map_map]
  exact hvalues

end

/-! ## The largest value of each key -/

/-- `d[key(x)] = max(d.get(key(x), bot), value(x))`, for every `x` in turn. -/
def largest {κ ν α : Type*} [DecidableEq κ] [Max ν] (key : α → κ) (value : α → ν) (bot : ν)
    (xs : List α) : Dict κ ν :=
  xs.foldl (fun acc x => acc.set (key x) (max ((acc.lookup (key x)).getD bot) (value x))) ∅

theorem largest_map {κ ν α β : Type*} [DecidableEq κ] [Max ν] (key : β → κ) (value : β → ν)
    (bot : ν) (f : α → β) (xs : List α) : largest key value bot (xs.map f) =
      largest (fun x => key (f x)) (fun x => value (f x)) bot xs := by
  unfold largest
  rw [List.foldl_map]

theorem largest_append {κ ν α : Type*} [DecidableEq κ] [Max ν] (key : α → κ) (value : α → ν)
    (bot : ν) (xs : List α) (x : α) : largest key value bot (xs ++ [x]) =
      (largest key value bot xs).set (key x)
        (max (((largest key value bot xs).lookup (key x)).getD bot) (value x)) := by
  simp [largest]

theorem mem_largest {κ ν α : Type*} [DecidableEq κ] [Max ν] (key : α → κ) (value : α → ν)
    (bot : ν) (xs : List α) (k : κ) :
    k ∈ largest key value bot xs ↔ ∃ x ∈ xs, key x = k := by
  induction xs using List.reverseRecOn with
  | nil => simp [largest, AList.notMem_empty]
  | append_singleton xs x ih =>
    rw [largest_append, mem_set, ih]
    constructor
    · rintro (rfl | ⟨y, hy, rfl⟩)
      · exact ⟨x, by simp, rfl⟩
      · exact ⟨y, by simp [hy], rfl⟩
    · rintro ⟨y, hy, rfl⟩
      rcases List.mem_append.mp hy with hy | hy
      · exact Or.inr ⟨y, hy, rfl⟩
      · exact Or.inl (by rw [List.mem_singleton.mp hy])

/-- What a key holds is the value of one of its elements, and none of them has a larger. -/
theorem lookup_largest {κ ν α : Type*} [DecidableEq κ] [LinearOrder ν] {key : α → κ}
    {value : α → ν} {bot : ν} (hbot : ∀ v, bot ≤ v) {xs : List α} {k : κ} {last : ν}
    (h : (largest key value bot xs).lookup k = some last) :
    (∃ x ∈ xs, key x = k ∧ value x = last) ∧ ∀ x ∈ xs, key x = k → value x ≤ last := by
  induction xs using List.reverseRecOn generalizing last with
  | nil => simp [largest] at h
  | append_singleton xs x ih =>
    rw [largest_append, lookup_set] at h
    simp only [List.mem_append, List.mem_singleton, or_imp, forall_and, forall_eq]
    split_ifs at h with hk
    · subst hk
      cases hold : (largest key value bot xs).lookup (key x) with
      | none =>
        have hfirst : key x ∉ largest key value bot xs := fun hmem => by
          obtain ⟨v, hv⟩ := (mem_iff_lookup _ _).mp hmem
          simp [hv] at hold
        rw [hold, Option.getD_none, max_eq_right (hbot _), Option.some.injEq] at h
        refine ⟨⟨x, .inr rfl, rfl, h⟩, fun y hy hkey => ?_, fun _ => h.le⟩
        exact absurd ((mem_largest key value bot xs (key x)).mpr ⟨y, hy, hkey⟩) hfirst
      | some old =>
        obtain ⟨⟨y, hy, hkey, hvalue⟩, hle⟩ := ih hold
        rw [hold, Option.getD_some, Option.some.injEq] at h
        subst h
        refine ⟨?_, fun z hz hkz => (hle z hz hkz).trans (le_max_left _ _),
          fun _ => le_max_right _ _⟩
        rcases max_choice old (value x) with hmax | hmax
        · exact ⟨y, .inl hy, hkey, by rw [hmax, hvalue]⟩
        · exact ⟨x, .inr rfl, rfl, hmax.symm⟩
    · obtain ⟨⟨y, hy, hkey, hvalue⟩, hle⟩ := ih h
      exact ⟨⟨y, .inl hy, hkey, hvalue⟩, hle, fun hkx => absurd hkx.symm hk⟩

theorem largest_lt_iff {κ ν α : Type*} [DecidableEq κ] [LinearOrder ν] (key : α → κ)
    (value : α → ν) {bot bound : ν} (hbot : bot < bound) (xs : List α) (k : κ) :
    ((largest key value bot xs).lookup k).getD bot < bound ↔
      ∀ x ∈ xs, key x = k → value x < bound := by
  induction xs using List.reverseRecOn with
  | nil => simpa [largest] using hbot
  | append_singleton xs x ih =>
    rw [largest_append, lookup_set]
    simp only [List.mem_append, List.mem_singleton, or_imp, forall_and, forall_eq]
    by_cases hk : k = key x
    · subst hk
      rw [if_pos rfl, Option.getD_some, max_lt_iff, ih]
      simp
    · rw [if_neg hk, ih]
      simp [Ne.symm hk]

end Dict
