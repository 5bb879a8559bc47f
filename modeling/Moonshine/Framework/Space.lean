import Mathlib.Data.List.Basic

/-!
# A plane of stacked elements

A `SpaceModel` says what a plane of elements does: it maps elements of type `ε` at
places in `ρ`, unmaps them, and drops those that are dead. Nothing is said of the
order of the elements. `stacked` is a plane that lists them bottom to top.
-/

namespace Moonshine.Framework

/-- The operations of a plane, and what they leave mapped. -/
structure SpaceModel (ε ρ : Type) where
  Carrier : Type
  empty : Carrier
  elements : Carrier → List ε
  mapElement : Carrier → ε → ρ → Carrier
  unmapElem : Carrier → ε → Carrier
  /-- What is left of a plane of which some elements are alive. -/
  refresh : Carrier → (ε → Bool) → Carrier
  elements_empty : elements empty = []
  mem_mapElement : ∀ s e loc e', e' ∈ elements (mapElement s e loc) ↔ e' ∈ elements s ∨ e' = e
  mem_unmapElem : ∀ s e e', e' ∈ elements (unmapElem s e) ↔ e' ∈ elements s ∧ e' ≠ e
  mem_refresh : ∀ s alive e, e ∈ elements (refresh s alive) ↔ e ∈ elements s ∧ alive e

variable {ε ρ : Type}

def Space (M : SpaceModel ε ρ) : Type := M.Carrier

namespace Space

variable {M : SpaceModel ε ρ}

def empty : Space M := M.empty

def elements (s : Space M) : List ε := M.elements s

def mapElement (s : Space M) (e : ε) (loc : ρ) : Space M := M.mapElement s e loc

def unmapElem (s : Space M) (e : ε) : Space M := M.unmapElem s e

def refresh (s : Space M) (alive : ε → Bool) : Space M := M.refresh s alive

variable {s : Space M} {e e' : ε}

@[simp] theorem elements_empty : (empty : Space M).elements = [] := M.elements_empty

@[simp] theorem mem_elements_mapElement {loc : ρ} :
    e' ∈ (s.mapElement e loc).elements ↔ e' ∈ s.elements ∨ e' = e := M.mem_mapElement s e loc e'

@[simp] theorem mem_elements_unmapElem : e' ∈ (s.unmapElem e).elements ↔ e' ∈ s.elements ∧ e' ≠ e :=
  M.mem_unmapElem s e e'

@[simp] theorem mem_elements_refresh {alive : ε → Bool} :
    e ∈ (s.refresh alive).elements ↔ e ∈ s.elements ∧ alive e := M.mem_refresh s alive e

end Space

/-- Bottom to top: what is mapped goes on top, wherever it was before. -/
def stacked (ε ρ : Type) [DecidableEq ε] : SpaceModel ε ρ where
  Carrier := List (ε × ρ)
  empty := []
  elements s := s.map Prod.fst
  mapElement s e loc := (s.filter fun e' => e'.1 ≠ e) ++ [(e, loc)]
  unmapElem s e := s.filter fun e' => e'.1 ≠ e
  refresh s alive := s.filter fun e => alive e.1
  elements_empty := rfl
  mem_mapElement s e loc e' := by
    by_cases h : e' = e
    · simp [h]
    · simp [h]
  mem_unmapElem s e e' := by simp
  mem_refresh s alive e := by simp

end Moonshine.Framework
