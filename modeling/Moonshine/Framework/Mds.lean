import Mathlib.Data.Finset.Card
import Mathlib.Data.List.Induction

/-!
# Systematic MDS codes

A codeword is `d` data symbols followed by `p` parity symbols, and any `d` of
its symbols determine the others (`MdsCode.determined`). The decoder looks for
the data whose codeword has the symbols it was given (`decode_eq_some`).
-/

namespace Moonshine.Framework

variable {α : Type*} {d p : Nat}

/-- A systematic code that is maximum distance separable. -/
structure MdsCode (α : Type*) (d p : Nat) where
  parity : List α → List α
  length_parity : ∀ u, u.length = d → (parity u).length = p
  determined : ∀ u v, u.length = d → v.length = d → ∀ I ⊆ Finset.range (d + p), I.card = d →
    (∀ i ∈ I, (u ++ parity u)[i]? = (v ++ parity v)[i]?) → u = v

namespace MdsCode

/-- The data followed by its parity. -/
def codeword (code : MdsCode α d p) (u : List α) : List α := u ++ code.parity u

theorem codeword_data (code : MdsCode α d p) {u : List α} {i : Nat} (hi : i < u.length) :
    (code.codeword u)[i]? = u[i]? := List.getElem?_append_left hi

open Classical in
/-- The data whose codeword has the symbols `y` at the positions `I`, if there is any. -/
noncomputable def decode (code : MdsCode α d p) (I : Finset Nat) (y : Nat → Option α) :
    Option (List α) :=
  if h : ∃ u : List α, u.length = d ∧ ∀ i ∈ I, y i = (code.codeword u)[i]? then some h.choose else none

/-- Any `d` symbols of a codeword decode to its data. -/
theorem decode_eq_some (code : MdsCode α d p) {I : Finset Nat} (hI : I ⊆ Finset.range (d + p))
    (hcard : I.card = d) {u : List α} (hu : u.length = d) {y : Nat → Option α}
    (hy : ∀ i ∈ I, y i = (code.codeword u)[i]?) : code.decode I y = some u := by
  have h : ∃ u : List α, u.length = d ∧ ∀ i ∈ I, y i = (code.codeword u)[i]? := ⟨u, hu, hy⟩
  obtain ⟨hlen, hsymbols⟩ := h.choose_spec
  rw [decode, dif_pos h, Option.some.injEq]
  exact code.determined _ u hlen hu I hI hcard fun i hi => (hsymbols i hi).symm.trans (hy i hi)

/-- One data symbol, repeated. -/
def repeated (p : Nat) : MdsCode α 1 p where
  parity u := (u.head?.map (List.replicate p)).getD []
  length_parity u hu := by
    obtain ⟨x, rfl⟩ := List.length_eq_one_iff.mp hu
    exact List.length_replicate
  determined := by
    intro u v hu hv I hI hcard h
    obtain ⟨x, rfl⟩ := List.length_eq_one_iff.mp hu
    obtain ⟨y, rfl⟩ := List.length_eq_one_iff.mp hv
    obtain ⟨i, rfl⟩ := Finset.card_eq_one.mp hcard
    have hword : ∀ z : α, [z] ++ ([z].head?.map (List.replicate p)).getD [] =
        List.replicate (1 + p) z := fun z => by rw [Nat.add_comm]; rfl
    have hi : i < 1 + p := Finset.mem_range.mp (hI (Finset.mem_singleton_self i))
    have hxy := h i (Finset.mem_singleton_self i)
    rw [hword, hword, List.getElem?_replicate_of_lt hi, List.getElem?_replicate_of_lt hi] at hxy
    rw [Option.some.inj hxy]

end MdsCode

end Moonshine.Framework
