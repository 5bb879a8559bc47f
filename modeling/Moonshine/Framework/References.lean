import Mathlib.Data.Set.Basic

/-!
# References into a registry

A component holds references `refs : ι → Option α` to objects that others
create and destroy. None dangles if each refers to a registered object. What a
removal may not touch is exactly what is referenced (`noDangling_sdiff_iff`).
-/

namespace Moonshine.Framework

variable {ι α : Type*} {registered registered' gone : Set α} {refs refs' : ι → Option α}

def NoDangling (registered : Set α) (refs : ι → Option α) : Prop :=
  ∀ i, ∀ a ∈ refs i, a ∈ registered

/-- Objects are added, references are dropped. -/
theorem NoDangling.mono (h : NoDangling registered refs) (hsub : registered ⊆ registered')
    (hrefs : ∀ i, ∀ a ∈ refs' i, a ∈ refs i) : NoDangling registered' refs' :=
  fun i a ha => hsub (h i a (hrefs i a ha))

theorem noDangling_sdiff_iff : NoDangling (registered \ gone) refs ↔
    NoDangling registered refs ∧ ∀ i, ∀ a ∈ refs i, a ∉ gone :=
  ⟨fun h => ⟨fun i a ha => (h i a ha).1, fun i a ha => (h i a ha).2⟩,
    fun h i a ha => ⟨h.1 i a ha, h.2 i a ha⟩⟩

end Moonshine.Framework
