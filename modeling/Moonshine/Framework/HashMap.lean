import Mathlib.Data.List.AList

/-!
# Hash maps

`HashMap κ α` is a finite map, as Mathlib's `AList` of entries with distinct
keys. Nothing here depends on the order of the entries: an operation is known by
what a lookup finds afterwards (`get?_insert`, `get?_erase`, `get?_modify`,
`get?_mapValues`), by the keys it leaves (`mem_modify` …), and by the values it leaves,
in any order (`values_insert`, `values_erase`, `values_modify`, `values_retain`).
-/

namespace Moonshine.Framework

open scoped List

abbrev HashMap (κ α : Type) := AList fun _ : κ => α

namespace HashMap

variable {κ α : Type} [DecidableEq κ]

def get? (m : HashMap κ α) (k : κ) : Option α := m.lookup k

/-- `get_mut`, and `f` on what it finds. -/
def modify (m : HashMap κ α) (k : κ) (f : α → α) : HashMap κ α :=
  match m.get? k with
  | some v => m.insert k (f v)
  | none => m

omit [DecidableEq κ] in
/-- `iter_mut`, and `f` on every value. -/
def mapValues (m : HashMap κ α) (f : κ → α → α) : HashMap κ α where
  entries := m.entries.map fun e => ⟨e.1, f e.1 e.2⟩
  nodupKeys := by
    have h : (m.entries.map fun e => (⟨e.1, f e.1 e.2⟩ : Sigma fun _ : κ => α)).keys = m.entries.keys := by
      rw [List.keys, List.map_map]
      rfl
    rw [List.NodupKeys, h]
    exact m.nodupKeys

omit [DecidableEq κ] in
/-- `retain`. -/
def retain (p : κ → α → Bool) (m : HashMap κ α) : HashMap κ α where
  entries := m.entries.filter fun e => p e.1 e.2
  nodupKeys := m.nodupKeys.sublist List.filter_sublist

omit [DecidableEq κ] in
def values (m : HashMap κ α) : List α := m.entries.map Sigma.snd

variable (m : HashMap κ α) (k k' : κ)

theorem mem_iff {m : HashMap κ α} {k : κ} : k ∈ m ↔ ∃ v, m.get? k = some v := by
  rw [← AList.lookup_isSome, Option.isSome_iff_exists]
  rfl

theorem mem_of_get? {m : HashMap κ α} {k : κ} {v : α} (h : m.get? k = some v) : k ∈ m :=
  mem_iff.mpr ⟨v, h⟩

@[simp] theorem get?_insert (v : α) :
    get? (m.insert k v) k' = if k' = k then some v else m.get? k' := by
  by_cases h : k' = k
  · subst h
    rw [if_pos rfl]
    exact AList.lookup_insert m
  · rw [if_neg h]
    exact AList.lookup_insert_ne h

@[simp] theorem get?_erase : get? (m.erase k) k' = if k' = k then none else m.get? k' := by
  by_cases h : k' = k
  · subst h
    rw [if_pos rfl]
    exact AList.lookup_erase k' m
  · rw [if_neg h]
    exact AList.lookup_erase_ne h

@[simp] theorem get?_modify (f : α → α) :
    (m.modify k f).get? k' = if k' = k then (m.get? k').map f else m.get? k' := by
  unfold modify
  cases hk : m.get? k with
  | none =>
    by_cases h : k' = k
    · subst h
      simp [hk]
    · simp [h]
  | some v =>
    by_cases h : k' = k
    · subst h
      simp [hk]
    · simp [h]

@[simp] theorem mem_modify (f : α → α) : k' ∈ m.modify k f ↔ k' ∈ m := by
  rw [mem_iff, mem_iff, get?_modify]
  by_cases h : k' = k
  · simp [h]
  · simp [h]

@[simp] theorem get?_mapValues (f : κ → α → α) :
    (m.mapValues f).get? k = (m.get? k).map (f k) := by
  show List.dlookup k (m.entries.map fun e => (⟨e.1, f e.1 e.2⟩ : Sigma fun _ : κ => α)) =
    (List.dlookup k m.entries).map (f k)
  induction m.entries with
  | nil => rfl
  | cons e es ih =>
    by_cases h : e.1 = k
    · obtain ⟨k, v⟩ := e
      subst h
      rw [List.map_cons, List.dlookup_cons_eq, List.dlookup_cons_eq, Option.map_some]
    · have hne (v : α) (l : List (Sigma fun _ : κ => α)) :
          List.dlookup k (⟨e.1, v⟩ :: l) = List.dlookup k l :=
        List.dlookup_cons_ne l ⟨e.1, v⟩ (Ne.symm h)
      rw [List.map_cons, hne, ih, ← hne e.2 es]

@[simp] theorem mem_mapValues (f : κ → α → α) : k ∈ m.mapValues f ↔ k ∈ m := by
  rw [mem_iff, mem_iff, get?_mapValues]
  simp

variable {m k}

omit [DecidableEq κ] in
theorem values_retain (p : α → Bool) : (m.retain fun _ => p).values = m.values.filter p := by
  simp [values, retain, List.filter_map, Function.comp_def]

theorem get?_retain {p : κ → α → Bool} {v : α} (h : m.get? k = some v) (hp : p k v) :
    (m.retain p).get? k = some v := by
  have hmem : (⟨k, v⟩ : Sigma fun _ => α) ∈ m.entries := AList.mem_lookup_iff.mp h
  exact AList.mem_lookup_iff.mpr (List.mem_filter.mpr ⟨hmem, hp⟩)

theorem values_erase {v : α} (h : m.get? k = some v) : m.values ~ v :: values (m.erase k) := by
  obtain ⟨v', before, after, -, hentries, herase⟩ := List.exists_of_kerase (AList.mem_keys.mp (mem_of_get? h))
  have hmem : (⟨k, v⟩ : Sigma fun _ => α) ∈ m.entries := AList.mem_lookup_iff.mp h
  have hmem' : (⟨k, v'⟩ : Sigma fun _ => α) ∈ m.entries := by
    rw [hentries]
    exact List.mem_append_right _ List.mem_cons_self
  obtain rfl := m.nodupKeys.eq_of_mk_mem hmem hmem'
  show m.entries.map Sigma.snd ~ v :: (List.kerase k m.entries).map Sigma.snd
  rw [herase, hentries, List.map_append, List.map_cons, List.map_append]
  exact List.perm_middle

theorem values_insert {v : α} (h : m.get? k = none) : values (m.insert k v) = v :: m.values := by
  have hnot : k ∉ m := AList.lookup_eq_none.mp h
  show (m.insert k v).entries.map Sigma.snd = _
  rw [AList.entries_insert_of_notMem hnot]
  rfl

theorem values_modify {v : α} (h : m.get? k = some v) (f : α → α) :
    (m.modify k f).values = f v :: values (m.erase k) := by
  unfold modify
  rw [h]
  show (m.insert k (f v)).entries.map Sigma.snd = _
  rw [AList.entries_insert]
  rfl

end HashMap

end Moonshine.Framework
