import Mathlib.Data.Multiset.UnionInter
import Mathlib.Logic.Function.Basic

/-!
# Slots and their holders

A slot of a pool is free or taken, and whoever holds a taken slot is to free it.
`NoLeak` says that every taken slot is held. The accounts of a pool are in order
(`Accounted`) if also no free slot is held and no slot is held twice. They stay
so when a slot is taken or released; slots that are let go of without that are
leaked, all of them (`Accounted.noLeak_iff`).
-/

namespace Moonshine.Framework

variable {ι : Type*} {free : ι → Bool} {holders dropped : Multiset ι} {i : ι}

def NoLeak (free : ι → Bool) (holders : Multiset ι) : Prop := ∀ i, free i = false → i ∈ holders

structure Accounted (free : ι → Bool) (holders : Multiset ι) : Prop where
  mem_iff : ∀ i, i ∈ holders ↔ free i = false
  nodup : holders.Nodup

namespace Accounted

theorem noLeak (h : Accounted free holders) : NoLeak free holders := fun i => (h.mem_iff i).mpr

theorem empty : Accounted (fun _ : ι => true) 0 where
  mem_iff i := by simp
  nodup := Multiset.nodup_zero

theorem take [DecidableEq ι] (h : Accounted free holders) (hi : free i = true) :
    Accounted (Function.update free i false) (i ::ₘ holders) where
  mem_iff j := by
    rw [Multiset.mem_cons, Function.update_apply]
    by_cases hj : j = i
    · simp [hj]
    · simp [hj, h.mem_iff]
  nodup := by
    refine Multiset.nodup_cons.mpr ⟨fun hmem => ?_, h.nodup⟩
    have hfalse := (h.mem_iff i).mp hmem
    rw [hi] at hfalse
    cases hfalse

theorem release [DecidableEq ι] (h : Accounted free (i ::ₘ holders)) :
    Accounted (Function.update free i true) holders where
  mem_iff j := by
    have hnot := (Multiset.nodup_cons.mp h.nodup).1
    rw [Function.update_apply]
    by_cases hj : j = i
    · simp [hj, hnot]
    · rw [if_neg hj, ← h.mem_iff, Multiset.mem_cons, or_iff_right hj]
  nodup := (Multiset.nodup_cons.mp h.nodup).2

/-- What is dropped without being released is leaked. -/
theorem noLeak_iff (h : Accounted free (dropped + holders)) : NoLeak free holders ↔ dropped = 0 := by
  constructor
  · intro hheld
    by_contra hne
    obtain ⟨i, hi⟩ := Multiset.exists_mem_of_ne_zero hne
    have hfree := (h.mem_iff i).mp (Multiset.mem_add.mpr (.inl hi))
    have hdisjoint := Multiset.disjoint_of_nodup_add h.nodup
    exact Multiset.disjoint_left.mp hdisjoint hi (hheld i hfree)
  · rintro rfl
    rw [Multiset.zero_add] at h
    exact h.noLeak

end Accounted

end Moonshine.Framework
