import Mathlib.Data.List.Perm.Basic
import Mathlib.Data.List.Nodup

/-!
# Ledgers

A log of effects, some of which acquire a resource and some of which release one
(`Ledger`). `Leaves log rs` says that no resource is acquired twice and that those
which are acquired are `rs` and those which are released, each once. More effects
leave other resources open (`Leaves.append`). Every resource is released exactly
once where `rs` is empty, and only there (`Leaves.settled_iff`).
-/

namespace Moonshine.Framework

open scoped List

variable {ε ρ : Type*}

structure Ledger (ε ρ : Type*) where
  acquires : ε → Option ρ
  releases : ε → Option ρ

namespace Ledger

variable (L : Ledger ε ρ)

def acquired (log : List ε) : List ρ := log.filterMap L.acquires

def released (log : List ε) : List ρ := log.filterMap L.releases

@[simp] theorem acquired_append (log es : List ε) : L.acquired (log ++ es) = L.acquired log ++ L.acquired es :=
  List.filterMap_append

@[simp] theorem released_append (log es : List ε) : L.released (log ++ es) = L.released log ++ L.released es :=
  List.filterMap_append

structure Leaves (log : List ε) (rs : List ρ) : Prop where
  nodup : (L.acquired log).Nodup
  perm : L.acquired log ~ rs ++ L.released log

namespace Leaves

variable {L} {log es : List ε} {rs rs' : List ρ}

theorem nil : L.Leaves [] [] := ⟨List.nodup_nil, .nil⟩

/-- Effects that acquire new resources, and leave others open than before. -/
theorem append (h : L.Leaves log rs) (hnew : (L.acquired es).Nodup)
    (hfresh : ∀ r ∈ L.acquired es, r ∉ L.acquired log)
    (hperm : rs ++ L.acquired es ~ rs' ++ L.released es) : L.Leaves (log ++ es) rs' := by
  refine ⟨?_, ?_⟩
  · rw [acquired_append]
    refine List.nodup_append.mpr ⟨h.nodup, hnew, fun r hr r' hr' heq => ?_⟩
    exact hfresh r' hr' (heq ▸ hr)
  · rw [acquired_append, released_append]
    calc L.acquired log ++ L.acquired es
      _ ~ (rs ++ L.released log) ++ L.acquired es := h.perm.append_right _
      _ ~ L.released log ++ (rs ++ L.acquired es) := by
        rw [← List.append_assoc]
        exact List.perm_append_comm.append_right _
      _ ~ L.released log ++ (rs' ++ L.released es) := hperm.append_left _
      _ ~ rs' ++ (L.released log ++ L.released es) := by
        rw [← List.append_assoc, ← List.append_assoc]
        exact List.perm_append_comm.append_right _

/-- A resource that is open is not released, and one that is not open is, once. -/
theorem settled_iff [DecidableEq ρ] (h : L.Leaves log rs) :
    (∀ r ∈ L.acquired log, (L.released log).count r = 1) ↔ rs = [] := by
  have hcount (r : ρ) : (L.acquired log).count r = rs.count r + (L.released log).count r := by
    rw [h.perm.count_eq r, List.count_append]
  constructor
  · intro hsettled
    refine List.eq_nil_iff_forall_not_mem.mpr fun r hr => ?_
    have hmem : r ∈ L.acquired log := h.perm.mem_iff.mpr (List.mem_append_left _ hr)
    have hopen := List.count_pos_iff.mpr hr
    have honce := List.nodup_iff_count_le_one.mp h.nodup r
    have hreleased := hsettled r hmem
    have hsum := hcount r
    omega
  · rintro rfl r hr
    have honce := List.count_eq_one_of_mem h.nodup hr
    rw [hcount r, List.count_nil] at honce
    omega

end Leaves

end Ledger

end Moonshine.Framework
