import Moonshine.Framework.Choice

/-!
# Which of several

Where several members of a list have the greatest key, a search takes one of them by
its place. `StandsOut` says what a member has before and after it; each search is
characterised by that: the first with a property (`find?_eq_some_iff`), the first or
the last of the greatest key (`foldl_improve_eq_some_iff`,
`head?_reverse_insertionSort_eq_some_iff`), and the first of the least
(`head?_insertionSort_eq_some_iff`).
-/

namespace Moonshine.Framework

variable {α κ : Type*} {l : List α} {a b : α}

/-- A member of the list, by what is before it and what after. -/
def StandsOut (before after : α → Prop) (l : List α) (a : α) : Prop :=
  ∃ l₁ l₂, l = l₁ ++ a :: l₂ ∧ (∀ b ∈ l₁, before b) ∧ ∀ b ∈ l₂, after b

section StandsOut

variable {before after before' after' : α → Prop}

theorem StandsOut.mem (h : StandsOut before after l a) : a ∈ l := by
  obtain ⟨l₁, l₂, rfl, -, -⟩ := h
  exact List.mem_append_right _ List.mem_cons_self

theorem StandsOut.head (h : ∀ b ∈ l, after b) : StandsOut before after (a :: l) a :=
  ⟨[], l, rfl, nofun, h⟩

theorem StandsOut.cons (h : StandsOut before after l a) (hb : before b) : StandsOut before after (b :: l) a := by
  obtain ⟨l₁, l₂, rfl, h₁, h₂⟩ := h
  exact ⟨b :: l₁, l₂, rfl, List.forall_mem_cons.mpr ⟨hb, h₁⟩, h₂⟩

theorem StandsOut.last (h : ∀ b ∈ l, before b) : StandsOut before after (l ++ [a]) a :=
  ⟨l, [], rfl, h, nofun⟩

theorem StandsOut.append (h : StandsOut before after l a) (hb : after b) :
    StandsOut before after (l ++ [b]) a := by
  obtain ⟨l₁, l₂, rfl, h₁, h₂⟩ := h
  refine ⟨l₁, l₂ ++ [b], by simp, h₁, fun c hc => ?_⟩
  rcases List.mem_append.mp hc with hc | hc
  · exact h₂ c hc
  · exact List.mem_singleton.mp hc ▸ hb

/-- Two members stand at one place, or one is before the other. -/
theorem StandsOut.eq_or (h : StandsOut before after l a) (h' : StandsOut before' after' l b) :
    a = b ∨ (before' a ∧ after b) ∨ (before b ∧ after' a) := by
  obtain ⟨l₁, l₂, rfl, h₁, h₂⟩ := h
  obtain ⟨m₁, m₂, heq, h₁', h₂'⟩ := h'
  rcases List.append_eq_append_iff.mp heq with ⟨as, rfl, hrest⟩ | ⟨bs, rfl, hrest⟩
  · cases as with
    | nil => exact .inl (List.cons.inj hrest).1
    | cons c as =>
      obtain ⟨rfl, rfl⟩ := List.cons.inj hrest
      exact .inr (.inl ⟨h₁' a (by simp), h₂ b (by simp)⟩)
  · cases bs with
    | nil => exact .inl (List.cons.inj hrest).1.symm
    | cons c bs =>
      obtain ⟨rfl, rfl⟩ := List.cons.inj hrest
      exact .inr (.inr ⟨h₁ b (by simp), h₂' a (by simp)⟩)

end StandsOut

/-- A search that finds what has a property, of which there is at most one, finds
exactly that. -/
theorem eq_some_iff_of_unique {o : Option α} {P : α → Prop} (hmem : ∀ a, o = some a → P a)
    (hnone : o = none → ∀ a, ¬P a) (hunique : ∀ a b, P a → P b → a = b) : o = some a ↔ P a := by
  refine ⟨hmem a, fun ha => ?_⟩
  cases ho : o with
  | none => exact absurd ha (hnone ho a)
  | some b => exact congrArg some (hunique b a (hmem b ho) ha)

theorem picks_of_iff {o : Option α} {s : Set α} (h : ∀ a, o = some a ↔ a ∈ s) : Picks o s where
  mem a := (h a).mp
  empty hnone := Set.eq_empty_of_forall_notMem fun a ha => nomatch hnone.symm.trans ((h a).mpr ha)

theorem FirstOf.unique {ss : List (Set α)} (hss : ∀ s ∈ ss, s.Subsingleton) (h : FirstOf ss a)
    (h' : FirstOf ss b) : a = b := by
  induction h with
  | @here s ss a ha =>
    cases h' with
    | here hb => exact hss s List.mem_cons_self ha hb
    | later hs _ => exact absurd ha (hs ▸ Set.notMem_empty a)
  | @later s ss a hs _ ih =>
    cases h' with
    | here hb => exact absurd hb (hs ▸ Set.notMem_empty b)
    | later _ hb => exact ih (fun t ht => hss t (List.mem_cons_of_mem s ht)) hb

/-- Where each of the sets has at most one member, a choice is that of the first. -/
theorem Chooses.eq_some_iff {o : Option α} {ss : List (Set α)} (h : Chooses o ss)
    (hss : ∀ s ∈ ss, s.Subsingleton) : o = some a ↔ FirstOf ss a := by
  refine eq_some_iff_of_unique h.first (fun hnone a ha => ?_) fun _ _ => FirstOf.unique hss
  have hempty := h.empty hnone
  clear h hss hnone
  induction ha with
  | here ha => exact Set.notMem_empty _ (hempty _ List.mem_cons_self ▸ ha)
  | later _ _ ih => exact ih fun t ht => hempty t (List.mem_cons_of_mem _ ht)

def FirstWith (p : α → Bool) (l : List α) (a : α) : Prop := p a ∧ StandsOut (fun b => ¬p b) (fun _ => True) l a

theorem FirstWith.unique {p : α → Bool} (h : FirstWith p l a) (h' : FirstWith p l b) : a = b := by
  rcases h.2.eq_or h'.2 with heq | ⟨hnot, -⟩ | ⟨hnot, -⟩
  · exact heq
  · exact absurd h.1 hnot
  · exact absurd h'.1 hnot

theorem find?_eq_some_iff {p : α → Bool} : l.find? p = some a ↔ FirstWith p l a := by
  rw [List.find?_eq_some_iff_append]
  simp [FirstWith, StandsOut]

variable [LinearOrder κ] (key : α → κ) (p : α → Bool)

/-- The first of those with the property that has the greatest key. -/
def FirstMax (l : List α) (a : α) : Prop :=
  p a ∧ StandsOut (fun b => p b → key b < key a) (fun b => p b → key b ≤ key a) l a

/-- The last of those with the property that has the greatest key. -/
def LastMax (l : List α) (a : α) : Prop :=
  p a ∧ StandsOut (fun b => p b → key b ≤ key a) (fun b => p b → key b < key a) l a

def FirstMin (l : List α) (a : α) : Prop := StandsOut (fun b => key a < key b) (fun b => key a ≤ key b) l a

variable {key p}

theorem FirstMax.unique (h : FirstMax key p l a) (h' : FirstMax key p l b) : a = b := by
  rcases h.2.eq_or h'.2 with heq | ⟨hlt, hle⟩ | ⟨hlt, hle⟩
  · exact heq
  · exact absurd (hlt h.1) (not_lt.mpr (hle h'.1))
  · exact absurd (hlt h'.1) (not_lt.mpr (hle h.1))

theorem LastMax.unique (h : LastMax key p l a) (h' : LastMax key p l b) : a = b := by
  rcases h.2.eq_or h'.2 with heq | ⟨hle, hlt⟩ | ⟨hle, hlt⟩
  · exact heq
  · exact absurd (hlt h'.1) (not_lt.mpr (hle h.1))
  · exact absurd (hlt h.1) (not_lt.mpr (hle h'.1))

theorem FirstMin.unique (h : FirstMin key l a) (h' : FirstMin key l b) : a = b := by
  rcases StandsOut.eq_or h h' with heq | ⟨hlt, hle⟩ | ⟨hlt, hle⟩
  · exact heq
  · exact absurd hlt (not_lt.mpr hle)
  · exact absurd hlt (not_lt.mpr hle)

theorem firstMax_foldl_improve (h : l.foldl (improve key p) none = some a) : FirstMax key p l a := by
  induction l using List.reverseRecOn generalizing a with
  | nil => cases h
  | append_singleton l c ih =>
    have hbest := bestOf_foldl_improve key p l
    rw [List.foldl_append, List.foldl_cons, List.foldl_nil, improve] at h
    split at h
    · rename_i hc
      obtain rfl : c = a := Option.some.inj h
      refine ⟨hc.1, .last fun b hb hp => ?_⟩
      cases ho : l.foldl (improve key p) none with
      | none =>
        have hmem : b ∈ {b | b ∈ l ∧ p b} := ⟨hb, hp⟩
        rw [hbest.empty ho] at hmem
        exact absurd hmem (Set.notMem_empty b)
      | some m =>
        have hlt : key m < key c := by simpa [ho] using hc.2
        exact ((hbest.mem m ho).2 b ⟨hb, hp⟩).trans_lt hlt
    · rename_i hc
      obtain ⟨hp, hout⟩ := ih h
      refine ⟨hp, hout.append fun hpc => le_of_not_gt fun hlt => hc ⟨hpc, ?_⟩⟩
      simpa [h] using hlt

theorem foldl_improve_eq_some_iff : l.foldl (improve key p) none = some a ↔ FirstMax key p l a := by
  refine eq_some_iff_of_unique (fun _ => firstMax_foldl_improve) (fun hnone a ha => ?_) fun _ _ => FirstMax.unique
  have hmem : a ∈ {b | b ∈ l ∧ p b} := ⟨ha.2.mem, ha.1⟩
  rw [(bestOf_foldl_improve key p l).empty hnone] at hmem
  exact Set.notMem_empty a hmem

theorem firstMin_insertionSort (h : (l.insertionSort fun a b => key a ≤ key b).head? = some a) :
    FirstMin key l a := by
  induction l generalizing a with
  | nil => cases h
  | cons c l ih =>
    rw [List.insertionSort_cons] at h
    cases hs : l.insertionSort fun a b => key a ≤ key b with
    | nil =>
      have hnil : l = [] := List.eq_nil_iff_forall_not_mem.mpr fun b hb => by
        have := (List.mem_insertionSort fun a b => key a ≤ key b).mpr hb
        rw [hs] at this
        exact List.not_mem_nil this
      rw [hs] at h
      obtain rfl : c = a := Option.some.inj h
      exact hnil ▸ StandsOut.head nofun
    | cons m ms =>
      have hmin := ih (a := m) (by rw [hs]; rfl)
      rw [hs, List.orderedInsert_cons] at h
      split at h
      · rename_i hle
        obtain rfl : c = a := Option.some.inj h
        refine StandsOut.head fun b hb => ?_
        obtain ⟨l₁, l₂, rfl, h₁, h₂⟩ := hmin
        rcases List.mem_append.mp hb with hb | hb
        · exact hle.trans (h₁ b hb).le
        · rcases List.mem_cons.mp hb with rfl | hb
          · exact hle
          · exact hle.trans (h₂ b hb)
      · rename_i hle
        obtain rfl : m = a := Option.some.inj h
        exact hmin.cons (lt_of_not_ge hle)

theorem head?_insertionSort_eq_some_iff :
    (l.insertionSort fun a b => key a ≤ key b).head? = some a ↔ FirstMin key l a := by
  refine eq_some_iff_of_unique (fun _ => firstMin_insertionSort) (fun hnone a ha => ?_) fun _ _ => FirstMin.unique
  have hmem := (List.mem_insertionSort fun a b => key a ≤ key b).mpr (StandsOut.mem ha)
  rw [List.head?_eq_none_iff.mp hnone] at hmem
  exact List.not_mem_nil hmem

/-- The last after an insertion: the last there was, unless what is inserted is greater. -/
theorem getLast?_orderedInsert {s : List α} (hs : s.Pairwise fun a b => key a ≤ key b) (c : α) :
    (s.orderedInsert (fun a b => key a ≤ key b) c).getLast? =
      some ((s.getLast?.filter fun m => key c ≤ key m).getD c) := by
  induction s with
  | nil => rfl
  | cons m ms ih =>
    obtain ⟨hm, hms⟩ := List.pairwise_cons.mp hs
    rw [List.orderedInsert_cons]
    by_cases hle : key c ≤ key m
    · have hlast : ∀ z ∈ (m :: ms).getLast?, key c ≤ key z := fun z hz => by
        rcases List.mem_cons.mp (List.mem_of_getLast? hz) with rfl | hz
        · exact hle
        · exact hle.trans (hm z hz)
      obtain ⟨z, hz⟩ := Option.ne_none_iff_exists'.mp
        fun h => List.cons_ne_nil m ms (List.getLast?_eq_none_iff.mp h)
      rw [if_pos hle, List.getLast?_cons_cons, hz, Option.filter_some, decide_eq_true (hlast z hz)]
      rfl
    · rw [if_neg hle]
      cases ms with
      | nil =>
        show some c = some (((some m).filter fun m => decide (key c ≤ key m)).getD c)
        rw [Option.filter_some, decide_eq_false hle]
        rfl
      | cons m' ms =>
        have hne : (m' :: ms).orderedInsert (fun a b => key a ≤ key b) c ≠ [] := by
          rw [List.orderedInsert_cons]
          split <;> simp
        rw [List.getLast?_cons_of_ne_nil hne, ih hms, List.getLast?_cons_cons]

/-- The last of a sorted list. -/
theorem lastMax_insertionSort (h : (l.insertionSort fun a b => key a ≤ key b).getLast? = some a) :
    LastMax key (fun _ => true) l a := by
  have htotal : Std.Total fun a b => key a ≤ key b := ⟨fun a b => le_total (key a) (key b)⟩
  have htrans : IsTrans α fun a b => key a ≤ key b := ⟨fun _ _ _ => le_trans⟩
  refine ⟨rfl, ?_⟩
  induction l generalizing a with
  | nil => cases h
  | cons c l ih =>
    rw [List.insertionSort_cons, getLast?_orderedInsert (List.pairwise_insertionSort _ l), Option.some.injEq] at h
    cases hs : (l.insertionSort fun a b => key a ≤ key b).getLast? with
    | none =>
      have hnil : l = [] := List.eq_nil_iff_forall_not_mem.mpr fun b hb => by
        have hb := (List.mem_insertionSort fun a b => key a ≤ key b).mpr hb
        rw [List.getLast?_eq_none_iff.mp hs] at hb
        exact List.not_mem_nil hb
      rw [hs] at h
      obtain rfl : c = a := h
      exact hnil ▸ StandsOut.head nofun
    | some m =>
      have hmax := ih hs
      rw [hs, Option.filter_some] at h
      by_cases hle : key c ≤ key m
      · rw [decide_eq_true hle] at h
        obtain rfl : m = a := h
        exact hmax.cons fun _ => hle
      · rw [decide_eq_false hle] at h
        obtain rfl : c = a := h
        have hlt := lt_of_not_ge hle
        refine StandsOut.head fun b hb _ => ?_
        obtain ⟨l₁, l₂, rfl, h₁, h₂⟩ := hmax
        rcases List.mem_append.mp hb with hb | hb
        · exact (h₁ b hb rfl).trans_lt hlt
        · rcases List.mem_cons.mp hb with rfl | hb
          · exact hlt
          · exact (h₂ b hb rfl).trans hlt

theorem head?_reverse_insertionSort_eq_some_iff :
    (l.insertionSort fun a b => key a ≤ key b).reverse.head? = some a ↔ LastMax key (fun _ => true) l a := by
  rw [List.head?_reverse]
  refine eq_some_iff_of_unique (fun _ => lastMax_insertionSort) (fun hnone a ha => ?_) fun _ _ => LastMax.unique
  have hmem := (List.mem_insertionSort fun a b => key a ≤ key b).mpr ha.2.mem
  rw [List.getLast?_eq_none_iff.mp hnone] at hmem
  exact List.not_mem_nil hmem

/-- A search that keeps the best so far with its key, and takes what is as good. -/
theorem lastMax_foldl {zero : κ} (hzero : ∀ a, zero ≤ key a) (p : α → Bool) (l : List α) :
    let best := l.foldl (fun best a => if p a ∧ best.2 ≤ key a then (some a, key a) else best) (none, zero)
    (∀ a, best.1 = some a → LastMax key p l a ∧ best.2 = key a) ∧
      (best.1 = none → best.2 = zero ∧ ∀ a ∈ l, ¬p a) := by
  induction l using List.reverseRecOn with
  | nil => exact ⟨nofun, fun _ => ⟨rfl, nofun⟩⟩
  | append_singleton l c ih =>
    obtain ⟨hsome, hnone⟩ := ih
    dsimp only at hsome hnone ⊢
    rw [List.foldl_append, List.foldl_cons, List.foldl_nil]
    generalize l.foldl (fun best a => if p a ∧ best.2 ≤ key a then (some a, key a) else best) (none, zero) = best
      at hsome hnone ⊢
    obtain ⟨m, k⟩ := best
    split
    · rename_i hc
      refine ⟨fun a ha => ?_, fun h => absurd h (Option.some_ne_none c)⟩
      obtain rfl : c = a := Option.some.inj ha
      refine ⟨⟨hc.1, .last fun b hb hp => ?_⟩, rfl⟩
      cases m with
      | none => exact absurd hp ((hnone rfl).2 b hb)
      | some m =>
        obtain ⟨hmax, rfl⟩ := hsome m rfl
        obtain ⟨l₁, l₂, rfl, h₁, h₂⟩ := hmax.2
        rcases List.mem_append.mp hb with hb | hb
        · exact (h₁ b hb hp).trans hc.2
        · rcases List.mem_cons.mp hb with rfl | hb
          · exact hc.2
          · exact (h₂ b hb hp).le.trans hc.2
    · rename_i hc
      refine ⟨fun a ha => ?_, fun h => ?_⟩
      · obtain ⟨hmax, rfl⟩ := hsome a ha
        exact ⟨⟨hmax.1, hmax.2.append fun hp => lt_of_not_ge fun hle => hc ⟨hp, hle⟩⟩, rfl⟩
      · obtain ⟨rfl, hl⟩ := hnone h
        refine ⟨rfl, fun a ha => ?_⟩
        rcases List.mem_append.mp ha with ha | ha
        · exact hl a ha
        · obtain rfl := List.mem_singleton.mp ha
          exact fun hp => hc ⟨hp, hzero a⟩

end Moonshine.Framework
