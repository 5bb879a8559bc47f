import Mathlib.Data.List.Induction
import Mathlib.Data.List.Sort
import Mathlib.Data.Set.Basic

/-!
# Choices in an order of preference

A choice goes through sets of things to choose from, the preferred ones first:
`FirstOf` is a member of the first set that is not empty. `Picks` says that an
option is a member of a set, and `none` where the set is empty; options tried one
after another are such a choice (`Chooses.or`). A set may be that of the things
with the greatest key of another (`Maxima`).
-/

namespace Moonshine.Framework

variable {α κ : Type*}

/-- A member of the first of the sets that has any. -/
inductive FirstOf : List (Set α) → α → Prop
  | here {s : Set α} {ss : List (Set α)} {a : α} (h : a ∈ s) : FirstOf (s :: ss) a
  | later {s : Set α} {ss : List (Set α)} {a : α} (hs : s = ∅) (h : FirstOf ss a) : FirstOf (s :: ss) a

structure Picks (o : Option α) (s : Set α) : Prop where
  mem : ∀ a, o = some a → a ∈ s
  empty : o = none → s = ∅

structure Chooses (o : Option α) (ss : List (Set α)) : Prop where
  first : ∀ a, o = some a → FirstOf ss a
  empty : o = none → ∀ s ∈ ss, s = ∅

theorem Picks.chooses {o : Option α} {s : Set α} (h : Picks o s) : Chooses o [s] where
  first a ha := .here (h.mem a ha)
  empty ho t ht := by
    obtain rfl := List.mem_singleton.mp ht
    exact h.empty ho

theorem FirstOf.append {ss : List (Set α)} {a : α} (h : FirstOf ss a) (ss' : List (Set α)) :
    FirstOf (ss ++ ss') a := by
  induction h with
  | here h => exact .here h
  | later hs _ ih => exact .later hs ih

theorem firstOf_append_of_empty {ss ss' : List (Set α)} {a : α} (hss : ∀ s ∈ ss, s = ∅)
    (h : FirstOf ss' a) : FirstOf (ss ++ ss') a := by
  induction ss with
  | nil => exact h
  | cons s ss ih =>
    exact .later (hss s List.mem_cons_self) (ih fun t ht => hss t (List.mem_cons_of_mem s ht))

/-- One choice, and another where it finds nothing. -/
theorem Chooses.or {o o' : Option α} {ss ss' : List (Set α)} (h : Chooses o ss) (h' : Chooses o' ss') :
    Chooses (o.or o') (ss ++ ss') where
  first a ha := by
    rcases Option.or_eq_some_iff.mp ha with ho | ⟨ho, ha⟩
    · exact (h.first a ho).append ss'
    · exact firstOf_append_of_empty (h.empty ho) (h'.first a ha)
  empty ho t ht := by
    obtain ⟨ho, ho'⟩ := Option.or_eq_none_iff.mp ho
    rcases List.mem_append.mp ht with ht | ht
    · exact h.empty ho t ht
    · exact h'.empty ho' t ht

theorem picks_find? (l : List α) (p : α → Bool) : Picks (l.find? p) {a | a ∈ l ∧ p a} where
  mem a h := ⟨List.mem_of_find?_eq_some h, List.find?_some h⟩
  empty h := by
    ext a
    refine iff_of_false (fun ⟨ha, hp⟩ => ?_) (Set.notMem_empty a)
    exact List.find?_eq_none.mp h a ha hp

/-- Where there may be nothing to look for. -/
theorem picks_bind {β : Type*} {o : Option β} {f : β → Option α} {s : β → Set α} (h : ∀ b, Picks (f b) (s b)) :
    Picks (o.bind f) {a | ∃ b, o = some b ∧ a ∈ s b} where
  mem a ha := by
    obtain ⟨b, hb, ha⟩ := Option.bind_eq_some_iff.mp ha
    exact ⟨b, hb, (h b).mem a ha⟩
  empty ho := by
    ext a
    refine iff_of_false (fun ⟨b, hb, ha⟩ => ?_) (Set.notMem_empty a)
    rw [hb, Option.bind_some] at ho
    rw [(h b).empty ho] at ha
    exact ha

section Maxima

variable [LinearOrder κ]

def Maxima (key : α → κ) (s : Set α) : Set α := {a | a ∈ s ∧ ∀ b ∈ s, key b ≤ key a}

/-- The last of a sorted list. -/
theorem picks_head?_reverse_insertionSort (key : α → κ) (l : List α) :
    Picks (l.insertionSort fun a b => key a ≤ key b).reverse.head? (Maxima key {a | a ∈ l}) := by
  have hmem (a : α) : a ∈ (l.insertionSort fun a b => key a ≤ key b).reverse ↔ a ∈ l := by
    rw [List.mem_reverse, List.mem_insertionSort]
  have htotal : Std.Total fun a b => key a ≤ key b := ⟨fun a b => le_total (key a) (key b)⟩
  have htrans : IsTrans α fun a b => key a ≤ key b := ⟨fun _ _ _ => le_trans⟩
  have hsorted := List.pairwise_reverse.mpr (List.pairwise_insertionSort (fun a b => key a ≤ key b) l)
  revert hmem hsorted
  cases (l.insertionSort fun a b => key a ≤ key b).reverse with
  | nil =>
    intro hmem _
    refine ⟨fun a h => ?_, fun _ => Set.eq_empty_of_forall_notMem fun a ha => ?_⟩
    · cases h
    · exact List.not_mem_nil ((hmem a).mpr ha.1)
  | cons top rest =>
    intro hmem hsorted
    refine ⟨fun a h => ?_, fun h => absurd h (Option.some_ne_none top)⟩
    obtain rfl : top = a := Option.some.inj h
    refine ⟨(hmem top).mp List.mem_cons_self, fun b hb => ?_⟩
    rcases List.mem_cons.mp ((hmem b).mpr hb) with rfl | hrest
    · exact le_refl _
    · exact List.rel_of_pairwise_cons hsorted hrest

/-- One step of a search for the first greatest key: a thing that is looked for
takes the place of the best so far if its key is greater. -/
def improve (key : α → κ) (p : α → Bool) (best : Option α) (a : α) : Option α :=
  if p a ∧ best.all (fun b => key b < key a) then some a else best

/-- The best so far has the greatest key among those that are looked for, and is
missing only if there are none. -/
structure BestOf (key : α → κ) (best : Option α) (s : Set α) : Prop where
  mem : ∀ a, best = some a → a ∈ Maxima key s
  empty : best = none → s = ∅

theorem BestOf.picks {key : α → κ} {best : Option α} {s : Set α} (h : BestOf key best s) :
    Picks best (Maxima key s) where
  mem := h.mem
  empty hnone := Set.eq_empty_of_forall_notMem fun a ha => Set.notMem_empty a (h.empty hnone ▸ ha.1)

theorem BestOf.improve {key : α → κ} {p : α → Bool} {best : Option α} {l : List α}
    (h : BestOf key best {b | b ∈ l ∧ p b}) (a : α) :
    BestOf key (improve key p best a) {b | b ∈ l ++ [a] ∧ p b} := by
  have hmem (b : α) : b ∈ l ++ [a] ↔ b ∈ l ∨ b = a := by simp
  unfold Framework.improve
  split
  · rename_i hc
    refine ⟨fun c hca => ?_, fun hnone => absurd hnone (Option.some_ne_none a)⟩
    obtain rfl : a = c := Option.some.inj hca
    refine ⟨⟨(hmem a).mpr (.inr rfl), hc.1⟩, fun b hb => ?_⟩
    rcases (hmem b).mp hb.1 with hl | rfl
    · cases best with
      | none => exact absurd ⟨hl, hb.2⟩ (h.empty rfl ▸ Set.notMem_empty b)
      | some c =>
        have hlt : key c < key a := by simpa using hc.2
        exact ((h.mem c rfl).2 b ⟨hl, hb.2⟩).trans hlt.le
    · exact le_refl _
  · rename_i hc
    refine ⟨fun c hbest => ?_, fun hnone => Set.eq_empty_of_forall_notMem fun b hb => ?_⟩
    · have hmax := h.mem c hbest
      refine ⟨⟨(hmem c).mpr (.inl hmax.1.1), hmax.1.2⟩, fun b hb => ?_⟩
      rcases (hmem b).mp hb.1 with hl | rfl
      · exact hmax.2 b ⟨hl, hb.2⟩
      · refine le_of_not_gt fun hlt => hc ⟨hb.2, ?_⟩
        simpa [hbest] using hlt
    · rcases (hmem b).mp hb.1 with hl | rfl
      · exact Set.notMem_empty b (h.empty hnone ▸ (⟨hl, hb.2⟩ : b ∈ {b | b ∈ l ∧ p b}))
      · exact hc ⟨hb.2, by rw [hnone]; rfl⟩

theorem bestOf_foldl_improve (key : α → κ) (p : α → Bool) (l : List α) :
    BestOf key (l.foldl (improve key p) none) {a | a ∈ l ∧ p a} := by
  induction l using List.reverseRecOn with
  | nil =>
    refine ⟨fun a h => ?_, fun _ => Set.eq_empty_of_forall_notMem fun a ha => List.not_mem_nil ha.1⟩
    cases h
  | append_singleton l a ih =>
    rw [List.foldl_append]
    exact ih.improve a

end Maxima

end Moonshine.Framework
