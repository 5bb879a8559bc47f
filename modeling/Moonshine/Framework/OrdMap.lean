import Mathlib.Data.List.Pairwise
import Moonshine.Framework.Outcome

/-!
# Ordered maps

`OrdMap κ α` is an ordered map, as a list of entries with ascending keys. A
lookup finds a value exactly if it is an entry (`get?_eq_some`); that the keys
ascend, so that there is at most one entry of a key, is part of the type.

* `modify`, `insert`, `erase`, `filterMap` and `mapM` are the operations, each
  with what a lookup finds afterwards (`get?_modify` …);
* `exists_split` takes the entries apart at a key, for statements about all of
  them.
-/

namespace Moonshine.Framework

section MapValues

variable {κ α β : Type}

/-- A call on every value, in order. -/
def mapValuesM (f : κ → α → Outcome β) : List (κ × α) → Outcome (List (κ × β))
  | [] => .ok []
  | e :: es => do
    let b ← f e.1 e.2
    let bs ← mapValuesM f es
    return (e.1, b) :: bs

theorem mapValuesM_cons_eq_ok {f : κ → α → Outcome β} {e : κ × α} {es : List (κ × α)}
    {l : List (κ × β)} : mapValuesM f (e :: es) = .ok l ↔
      ∃ b, f e.1 e.2 = .ok b ∧ ∃ bs, mapValuesM f es = .ok bs ∧ (e.1, b) :: bs = l := by
  simp only [mapValuesM, Outcome.bind_eq_ok, Outcome.pure_eq, Outcome.ok.injEq]

theorem mem_mapValuesM {f : κ → α → Outcome β} {es : List (κ × α)} {l : List (κ × β)}
    (h : mapValuesM f es = .ok l) {k : κ} {b : β} :
    (k, b) ∈ l ↔ ∃ v, (k, v) ∈ es ∧ f k v = .ok b := by
  induction es generalizing l with
  | nil =>
    cases h
    simp
  | cons e es ih =>
    obtain ⟨c, hc, bs, hbs, rfl⟩ := mapValuesM_cons_eq_ok.mp h
    rw [List.mem_cons, ih hbs]
    constructor
    · rintro (heq | ⟨v, hv, hb⟩)
      · rw [Prod.mk.injEq] at heq
        obtain ⟨rfl, rfl⟩ := heq
        exact ⟨e.2, List.mem_cons_self, hc⟩
      · exact ⟨v, List.mem_cons_of_mem _ hv, hb⟩
    · rintro ⟨v, hv, hb⟩
      rcases List.mem_cons.mp hv with rfl | hv
      · rw [hc] at hb
        cases hb
        exact .inl rfl
      · exact .inr ⟨v, hv, hb⟩

theorem sorted_mapValuesM [LT κ] {f : κ → α → Outcome β} {es : List (κ × α)} {l : List (κ × β)}
    (hs : es.Pairwise fun a b => a.1 < b.1) (h : mapValuesM f es = .ok l) :
    l.Pairwise (fun a b => a.1 < b.1) ∧ l.map Prod.fst = es.map Prod.fst := by
  induction es generalizing l with
  | nil =>
    cases h
    exact ⟨List.Pairwise.nil, rfl⟩
  | cons e es ih =>
    obtain ⟨b, -, bs, hbs, rfl⟩ := mapValuesM_cons_eq_ok.mp h
    obtain ⟨hlt, hs⟩ := List.pairwise_cons.mp hs
    obtain ⟨hbs, hkeys⟩ := ih hs hbs
    refine ⟨List.pairwise_cons.mpr ⟨fun d hd => ?_, hbs⟩, congrArg (e.1 :: ·) hkeys⟩
    have hmem : d.1 ∈ es.map Prod.fst := hkeys ▸ List.mem_map_of_mem hd
    obtain ⟨c, hc, hcd⟩ := List.mem_map.mp hmem
    rw [← hcd]
    exact hlt c hc

end MapValues

@[ext]
structure OrdMap (κ α : Type) [LT κ] where
  entries : List (κ × α)
  sorted : entries.Pairwise fun a b => a.1 < b.1

namespace OrdMap

variable {κ α β : Type} [LT κ] [LE κ] [DecidableEq κ] [Std.LawfulOrderLT κ]

def empty : OrdMap κ α := ⟨[], List.Pairwise.nil⟩

def get? (m : OrdMap κ α) (k : κ) : Option α :=
  (m.entries.find? fun e => e.1 = k).map Prod.snd

def modify (m : OrdMap κ α) (k : κ) (f : α → α) : OrdMap κ α where
  entries := m.entries.map fun e => if e.1 = k then (e.1, f e.2) else e
  sorted := by
    refine List.pairwise_map.mpr (m.sorted.imp fun {a b} h => ?_)
    split <;> split <;> exact h

def insert [DecidableLT κ] [Std.IsLinearOrder κ] (m : OrdMap κ α) (k : κ) (v : α) : OrdMap κ α where
  entries := m.entries.filter (fun e => e.1 < k) ++ (k, v) :: m.entries.filter fun e => k < e.1
  sorted := by
    refine List.pairwise_append.mpr ⟨m.sorted.filter _, List.pairwise_cons.mpr
      ⟨fun e he => ?_, m.sorted.filter _⟩, fun e he e' he' => ?_⟩
    · simpa using (List.mem_filter.mp he).2
    · have hlt : e.1 < k := by simpa using (List.mem_filter.mp he).2
      rcases List.mem_cons.mp he' with rfl | he'
      · exact hlt
      · exact Std.lt_trans hlt (by simpa using (List.mem_filter.mp he').2)

def erase (m : OrdMap κ α) (k : κ) : OrdMap κ α where
  entries := m.entries.filter fun e => e.1 ≠ k
  sorted := m.sorted.filter _

/-- The values on which `f` is defined, replaced by what it gives. -/
def filterMap (m : OrdMap κ α) (f : α → Option β) : OrdMap κ β where
  entries := m.entries.filterMap fun e => (f e.2).map (e.1, ·)
  sorted := by
    refine List.pairwise_filterMap.mpr (m.sorted.imp fun {a b} h c hc d hd => ?_)
    obtain ⟨_, -, rfl⟩ := Option.map_eq_some_iff.mp hc
    obtain ⟨_, -, rfl⟩ := Option.map_eq_some_iff.mp hd
    exact h

/-- All values, replaced by a call on each in the order of the keys. -/
def mapM (m : OrdMap κ α) (f : κ → α → Outcome β) : Outcome (OrdMap κ β) :=
  match h : mapValuesM f m.entries with
  | .ok l => .ok ⟨l, (sorted_mapValuesM m.sorted h).1⟩
  | .err => .err
  | .panic => .panic

variable {m : OrdMap κ α} {k k' : κ} {v w : α}

omit [DecidableEq κ] in
theorem unique (hv : (k, v) ∈ m.entries) (hw : (k, w) ∈ m.entries) : v = w := by
  have hne : m.entries.Pairwise fun a b => a.1 ≠ b.1 :=
    m.sorted.imp fun h => Std.ne_of_lt h
  have : Std.Symm fun a b : κ × α => a.1 ≠ b.1 := ⟨fun _ _ h => h.symm⟩
  by_contra hvw
  exact hne.forall hv hw (fun heq => hvw (congrArg Prod.snd heq)) rfl

theorem get?_eq_some : m.get? k = some v ↔ (k, v) ∈ m.entries := by
  constructor
  · intro h
    obtain ⟨e, he, rfl⟩ := Option.map_eq_some_iff.mp h
    have hk : e.1 = k := by simpa using List.find?_some he
    exact hk ▸ List.mem_of_find?_eq_some he
  · intro h
    cases hf : m.entries.find? fun e => e.1 = k with
    | none => exact absurd (List.find?_eq_none.mp hf _ h) (by simp)
    | some e =>
      have hk : e.1 = k := by simpa using List.find?_some hf
      have hv : (k, e.2) ∈ m.entries := hk ▸ List.mem_of_find?_eq_some hf
      rw [get?, hf, Option.map_some, unique hv h]

omit [LE κ] [Std.LawfulOrderLT κ] in
theorem get?_eq_none : m.get? k = none ↔ k ∉ m.entries.map Prod.fst := by
  rw [get?, Option.map_eq_none_iff, List.find?_eq_none, List.mem_map]
  simp only [decide_eq_true_eq, not_exists, not_and]

theorem ext_get? {o : Option α} (h : ∀ v, (k, v) ∈ m.entries ↔ o = some v) : m.get? k = o :=
  Option.ext fun v => by rw [get?_eq_some, h v]

theorem get?_modify (m : OrdMap κ α) (k k' : κ) (f : α → α) :
    (m.modify k f).get? k' = if k' = k then (m.get? k').map f else m.get? k' := by
  refine ext_get? fun v => ?_
  rw [modify, List.mem_map]
  by_cases hk : k' = k
  · subst hk
    rw [if_pos rfl, Option.map_eq_some_iff]
    constructor
    · rintro ⟨⟨a, u⟩, he, heq⟩
      by_cases ha : a = k'
      · subst ha
        rw [if_pos rfl, Prod.mk.injEq] at heq
        exact ⟨u, get?_eq_some.mpr he, heq.2⟩
      · rw [if_neg ha, Prod.mk.injEq] at heq
        exact absurd heq.1 ha
    · rintro ⟨u, hu, rfl⟩
      exact ⟨(k', u), get?_eq_some.mp hu, if_pos rfl⟩
  · rw [if_neg hk, get?_eq_some]
    constructor
    · rintro ⟨⟨a, u⟩, he, heq⟩
      by_cases ha : a = k
      · rw [if_pos ha, Prod.mk.injEq] at heq
        exact absurd (heq.1.symm.trans ha) hk
      · rw [if_neg ha] at heq
        exact heq ▸ he
    · exact fun he => ⟨_, he, if_neg hk⟩

theorem get?_insert [DecidableLT κ] [Std.IsLinearOrder κ] (m : OrdMap κ α) (k k' : κ) (v : α) :
    (m.insert k v).get? k' = if k' = k then some v else m.get? k' := by
  refine ext_get? fun w => ?_
  simp only [insert, List.mem_append, List.mem_cons, List.mem_filter, decide_eq_true_eq,
    Prod.mk.injEq]
  by_cases hk : k' = k
  · subst hk
    rw [if_pos rfl, Option.some.injEq]
    constructor
    · rintro (⟨-, hlt⟩ | ⟨-, rfl⟩ | ⟨-, hlt⟩)
      · exact absurd hlt Std.lt_irrefl
      · rfl
      · exact absurd hlt Std.lt_irrefl
    · rintro rfl
      exact .inr (.inl ⟨rfl, rfl⟩)
  · rw [if_neg hk, get?_eq_some]
    constructor
    · rintro (⟨he, -⟩ | ⟨heq, -⟩ | ⟨he, -⟩)
      · exact he
      · exact absurd heq hk
      · exact he
    · intro he
      rcases Std.lt_trichotomy k' k with hlt | heq | hlt
      · exact .inl ⟨he, hlt⟩
      · exact absurd heq hk
      · exact .inr (.inr ⟨he, hlt⟩)

theorem get?_erase (m : OrdMap κ α) (k k' : κ) :
    (m.erase k).get? k' = if k' = k then none else m.get? k' := by
  refine ext_get? fun v => ?_
  rw [erase, List.mem_filter, decide_eq_true_eq]
  by_cases hk : k' = k
  · simp [hk]
  · rw [if_neg hk, get?_eq_some]
    exact and_iff_left hk

theorem get?_filterMap (m : OrdMap κ α) (f : α → Option β) (k : κ) :
    (m.filterMap f).get? k = (m.get? k).bind f := by
  refine ext_get? fun b => ?_
  rw [filterMap, List.mem_filterMap, Option.bind_eq_some_iff]
  constructor
  · rintro ⟨⟨a, v⟩, he, heq⟩
    obtain ⟨b', hb, heq⟩ := Option.map_eq_some_iff.mp heq
    rw [Prod.mk.injEq] at heq
    obtain ⟨rfl, rfl⟩ := heq
    exact ⟨v, get?_eq_some.mpr he, hb⟩
  · rintro ⟨v, hv, hb⟩
    exact ⟨(k, v), get?_eq_some.mp hv, by rw [hb]; rfl⟩

omit [LE κ] [DecidableEq κ] [Std.LawfulOrderLT κ] in
theorem mapM_eq_ok {f : κ → α → Outcome β} {m' : OrdMap κ β} :
    m.mapM f = .ok m' ↔ mapValuesM f m.entries = .ok m'.entries := by
  unfold mapM
  constructor
  · intro h
    split at h
    · rename_i l hl
      cases h
      exact hl
    · cases h
    · cases h
  · intro h
    split
    · rename_i l hl
      rw [h] at hl
      cases hl
      rfl
    · rename_i hl
      rw [h] at hl
      cases hl
    · rename_i hl
      rw [h] at hl
      cases hl

/-- What a lookup finds after a call on every value. -/
theorem get?_mapM {f : κ → α → Outcome β} {m' : OrdMap κ β} (h : m.mapM f = .ok m') {b : β} :
    m'.get? k = some b ↔ ∃ v, m.get? k = some v ∧ f k v = .ok b := by
  rw [get?_eq_some, mem_mapValuesM (mapM_eq_ok.mp h)]
  simp only [get?_eq_some]

omit [LE κ] [Std.LawfulOrderLT κ] in
theorem get?_mapM_eq_none {f : κ → α → Outcome β} {m' : OrdMap κ β} (h : m.mapM f = .ok m') :
    m'.get? k = none ↔ m.get? k = none := by
  rw [get?_eq_none, get?_eq_none, (sorted_mapValuesM m.sorted (mapM_eq_ok.mp h)).2]

/-- The entries around the one of a key, and what is left of them. -/
theorem exists_split (h : m.get? k = some v) :
    ∃ l₁ l₂, m.entries = l₁ ++ (k, v) :: l₂ ∧ (m.erase k).entries = l₁ ++ l₂ ∧
      ∀ f, (m.modify k f).entries = l₁ ++ (k, f v) :: l₂ := by
  obtain ⟨l₁, l₂, hl⟩ := List.append_of_mem (get?_eq_some.mp h)
  have hs := m.sorted
  rw [hl, List.pairwise_append, List.pairwise_cons] at hs
  obtain ⟨-, ⟨h₂, -⟩, h₁⟩ := hs
  have hne₁ : ∀ e ∈ l₁, e.1 ≠ k := fun e he heq =>
    Std.lt_irrefl (heq ▸ h₁ e he (k, v) List.mem_cons_self : k < k)
  have hne₂ : ∀ e ∈ l₂, e.1 ≠ k := fun e he heq => Std.lt_irrefl (heq ▸ h₂ e he : k < k)
  refine ⟨l₁, l₂, hl, ?_, fun f => ?_⟩
  · show m.entries.filter (fun e => e.1 ≠ k) = _
    rw [hl, List.filter_append, List.filter_cons_of_neg (by simp),
      List.filter_eq_self.mpr (by simpa using hne₁), List.filter_eq_self.mpr (by simpa using hne₂)]
  · have hid : ∀ l : List (κ × α), (∀ e ∈ l, e.1 ≠ k) →
        l.map (fun e => if e.1 = k then (e.1, f e.2) else e) = l := fun l hl =>
      (List.map_congr_left fun e he => if_neg (hl e he)).trans (List.map_id l)
    show m.entries.map (fun e => if e.1 = k then (e.1, f e.2) else e) = _
    rw [hl, List.map_append, List.map_cons, if_pos rfl, hid l₁ hne₁, hid l₂ hne₂]

/-- The entries around the one that an insertion puts in. -/
theorem insert_split [DecidableLT κ] [Std.IsLinearOrder κ] (m : OrdMap κ α) (k : κ) (v : α) :
    ∃ l₁ l₂, (m.insert k v).entries = l₁ ++ (k, v) :: l₂ ∧ (l₁ ++ l₂).Perm (m.erase k).entries := by
  refine ⟨_, _, rfl, ?_⟩
  have hlt : (m.erase k).entries.filter (fun e => e.1 < k) = m.entries.filter fun e => e.1 < k := by
    rw [erase, List.filter_filter]
    refine List.filter_congr fun e _ => ?_
    by_cases h : e.1 < k
    · simp [h, Std.ne_of_lt h]
    · simp [h]
  have hgt : (m.erase k).entries.filter (fun e => !decide (e.1 < k)) =
      m.entries.filter fun e => k < e.1 := by
    rw [erase, List.filter_filter]
    refine List.filter_congr fun e _ => ?_
    rcases Std.lt_trichotomy e.1 k with h | h | h
    · simp [h, Std.not_gt_of_lt h]
    · simp [h, Std.lt_irrefl]
    · simp [h, Std.not_gt_of_lt h, (Std.ne_of_lt h).symm]
  rw [← hlt, ← hgt]
  exact List.filter_append_perm _ _

theorem modify_of_get?_none (h : m.get? k = none) (f : α → α) : m.modify k f = m := by
  have hne : ∀ e ∈ m.entries, e.1 ≠ k := fun e he heq => by
    rw [get?_eq_some.mpr (show (k, e.2) ∈ m.entries from heq ▸ he)] at h
    cases h
  exact OrdMap.ext ((List.map_congr_left fun e he => if_neg (hne e he)).trans (List.map_id _))

/-- Where only the entry of one key contributes. -/
theorem flatMap_entries {γ : Type} (g : κ × α → List γ) (hg : ∀ e ∈ m.entries, e.1 ≠ k → g e = []) :
    m.entries.flatMap g = match m.get? k with
      | some v => g (k, v)
      | none => [] := by
  cases h : m.get? k with
  | none =>
    refine List.flatMap_eq_nil_iff.mpr fun e he => hg e he fun heq => ?_
    rw [get?_eq_some.mpr (show (k, e.2) ∈ m.entries from heq ▸ he)] at h
    cases h
  | some v =>
    obtain ⟨l₁, l₂, hl, her, -⟩ := exists_split h
    have hout : ∀ e ∈ l₁ ++ l₂, g e = [] := fun e he => by
      rw [← her, erase, List.mem_filter, decide_eq_true_eq] at he
      exact hg e he.1 he.2
    rw [hl, List.flatMap_append, List.flatMap_cons,
      List.flatMap_eq_nil_iff.mpr fun e he => hout e (List.mem_append_left _ he),
      List.flatMap_eq_nil_iff.mpr fun e he => hout e (List.mem_append_right _ he),
      List.nil_append, List.append_nil]

end OrdMap

end Moonshine.Framework
