import Mathlib.Data.List.Nodup
import Mathlib.Logic.Function.Basic

/-!
# A lock of one writer or many readers

`RwLock ι` is held by one writer or by any readers, which are of the type `ι`. Taking
it is not enabled while it is held the other way. `Held W R` names its holders by
predicates, which each operation changes in one place (`Held.write` …); no reader
holds it beside a writer (`Held.not_read`), and no second writer (`Held.write_unique`).
-/

namespace Moonshine.Framework

variable {ι : Type*}

structure RwLock (ι : Type*) where
  writer : Option ι
  readers : List ι
  exclusive : writer ≠ none → readers = []

namespace RwLock

def free : RwLock ι := ⟨none, [], fun _ => rfl⟩

/-- Enabled while nobody holds the lock. -/
def write (t : ι) (l : RwLock ι) : Option (RwLock ι) :=
  if l.writer.isNone && l.readers.isEmpty then some ⟨some t, [], fun _ => rfl⟩ else none

/-- Enabled while nobody holds the lock for writing. -/
def read (t : ι) (l : RwLock ι) : Option (RwLock ι) :=
  if l.writer.isNone then some ⟨none, t :: l.readers, fun h => absurd rfl h⟩ else none

def unlockWrite (l : RwLock ι) : RwLock ι := ⟨none, l.readers, fun h => absurd rfl h⟩

def unlockRead [DecidableEq ι] (t : ι) (l : RwLock ι) : RwLock ι :=
  ⟨l.writer, l.readers.erase t, fun h => by rw [l.exclusive h]; rfl⟩

/-- Who holds the lock for writing, and who for reading. -/
structure Held (l : RwLock ι) (W R : ι → Bool) : Prop where
  writer : ∀ t, l.writer = some t ↔ W t = true
  readers : ∀ t, t ∈ l.readers ↔ R t = true
  nodup : l.readers.Nodup

theorem held_free : (free : RwLock ι).Held (fun _ => false) fun _ => false :=
  ⟨fun t => by simp [free], fun t => by simp [free], List.nodup_nil⟩

namespace Held

variable {l l' : RwLock ι} {W R : ι → Bool} {t u : ι}

theorem write_unique (h : l.Held W R) (ht : W t = true) (hu : W u = true) : t = u :=
  Option.some.inj (((h.writer t).mpr ht).symm.trans ((h.writer u).mpr hu))

theorem not_read (h : l.Held W R) (ht : W t = true) (u : ι) : R u = false := by
  have hwriter := (h.writer t).mpr ht
  have hnone : l.readers = [] := l.exclusive (by rw [hwriter]; simp)
  rw [Bool.eq_false_iff, Ne, ← h.readers u, hnone]
  exact List.not_mem_nil

theorem not_write (h : l.Held W R) (hwriter : l.writer = none) (u : ι) : W u = false := by
  rw [Bool.eq_false_iff, Ne, ← h.writer u, hwriter]
  simp

variable [DecidableEq ι]

theorem write (h : l.Held W R) (hl : l.write t = some l') : l'.Held (Function.update W t true) R := by
  unfold RwLock.write at hl
  split at hl
  · rename_i hfree
    obtain ⟨hwriter, hreaders⟩ := Bool.and_eq_true_iff.mp hfree
    rw [Option.isNone_iff_eq_none] at hwriter
    rw [List.isEmpty_iff] at hreaders
    obtain rfl := Option.some.inj hl
    refine ⟨fun u => ?_, fun u => ?_, List.nodup_nil⟩
    · rw [Function.update_apply, Option.some.injEq]
      by_cases hu : u = t
      · simp [hu]
      · simp [hu, Ne.symm hu, h.not_write hwriter u]
    · rw [← h.readers u, hreaders]
  · cases hl

theorem read (h : l.Held W R) (ht : R t = false) (hl : l.read t = some l') :
    l'.Held W (Function.update R t true) := by
  unfold RwLock.read at hl
  split at hl
  · rename_i hfree
    rw [Option.isNone_iff_eq_none] at hfree
    obtain rfl := Option.some.inj hl
    refine ⟨fun u => ?_, fun u => ?_, List.nodup_cons.mpr ⟨?_, h.nodup⟩⟩
    · rw [← h.writer u, hfree]
    · rw [Function.update_apply, List.mem_cons, h.readers u]
      by_cases hu : u = t
      · simp [hu]
      · simp [hu]
    · rw [h.readers t, ht]
      simp
  · cases hl

theorem unlockWrite (h : l.Held W R) (ht : W t = true) : l.unlockWrite.Held (Function.update W t false) R := by
  refine ⟨fun u => ?_, h.readers, h.nodup⟩
  rw [Function.update_apply]
  by_cases hu : u = t
  · simp [RwLock.unlockWrite, hu]
  · have hnot : W u ≠ true := fun hW => hu (h.write_unique hW ht)
    simp [RwLock.unlockWrite, hu, hnot]

theorem unlockRead (h : l.Held W R) (t : ι) : (l.unlockRead t).Held W (Function.update R t false) := by
  refine ⟨h.writer, fun u => ?_, h.nodup.erase t⟩
  show u ∈ l.readers.erase t ↔ _
  rw [Function.update_apply, h.nodup.mem_erase_iff, h.readers u]
  by_cases hu : u = t
  · simp [hu]
  · simp [hu]

end Held

end RwLock

end Moonshine.Framework
