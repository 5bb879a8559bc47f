import Mathlib.Data.List.Basic
import Mathlib.Data.List.Perm.Subperm
import Mathlib.Logic.Function.Basic
import Moonshine.Framework.Outcome

/-!
# Enumeration in two calls

A list is handed over through a count and a buffer of the caller's: called with no
buffer, the enumeration returns how many elements there are (`Counts`); called with
one and its capacity, it fills in as many elements as fit and returns how many those
are, `incomplete` if some are left (`Fills`). The elements of a fill are distinct ones
of the list, in any order, and nothing is stored beyond the capacity. `serve` is the
plain enumeration of a list.
-/

namespace Moonshine.Framework

variable {T : Type*}

inductive Status
  | success | incomplete | error (code : Int)
  deriving DecidableEq, Repr

/-- A buffer's memory from its start on, with the count that is passed along. -/
structure Buffer (T : Type*) where
  count : UInt32
  elements : Nat → T

structure Enumeration (T : Type*) where
  /-- Without a buffer, over the count. -/
  query : Prog UInt32 Status
  fill : Prog (Buffer T) Status

/-- The elements of a list, one after another from `base` on. -/
def store (m : Nat → T) (base : Nat) : List T → Nat → T
  | [] => m
  | x :: l => store (Function.update m base x) (base + 1) l

theorem store_of_le {m : Nat → T} {base i : Nat} {l : List T} (h : base + l.length ≤ i) :
    store m base l i = m i := by
  induction l generalizing m base with
  | nil => rfl
  | cons x l ih =>
    rw [List.length_cons] at h
    rw [store, ih (by omega), Function.update_of_ne (by omega)]

/-- What is stored follows what was there before it. -/
theorem map_store_range (m : Nat → T) (base : Nat) (l : List T) :
    (List.range (base + l.length)).map (store m base l) = (List.range base).map m ++ l := by
  induction l generalizing m base with
  | nil => simp [store]
  | cons x l ih =>
    have hlen : base + (x :: l).length = base + 1 + l.length := by rw [List.length_cons]; omega
    have hhead : (List.range base).map (Function.update m base x) = (List.range base).map m :=
      List.map_congr_left fun i hi => Function.update_of_ne (Nat.ne_of_lt (List.mem_range.mp hi)) x m
    rw [hlen, store, ih, List.range_succ, List.map_append, hhead, List.append_assoc]
    simp

/-- Without a buffer: the number of elements. -/
def Counts (l : List T) (e : Enumeration T) : Prop :=
  ∀ c, ∃ n : UInt32, e.query c = (.ok .success, n) ∧ n.toNat = l.length

/-- What a fill of a buffer with room for `b.count` elements leaves. -/
structure Filled (l : List T) (b b' : Buffer T) : Prop where
  count : b'.count.toNat = min b.count.toNat l.length
  elements : ((List.range b'.count.toNat).map b'.elements).Subperm l
  outside : ∀ i, b.count.toNat ≤ i → b'.elements i = b.elements i

/-- With a buffer: as many elements as there is room for. -/
def Fills (l : List T) (e : Enumeration T) : Prop :=
  ∀ b, ∃ b', e.fill b = (.ok (if l.length ≤ b.count.toNat then .success else .incomplete), b') ∧ Filled l b b'

structure Enumerates (l : List T) (e : Enumeration T) : Prop where
  counts : Counts l e
  fills : Fills l e

/-- The number of elements is a count. -/
theorem Counts.length_lt {l : List T} {e : Enumeration T} (h : Counts l e) : l.length < UInt32.size := by
  obtain ⟨n, -, hn⟩ := h 0
  exact hn ▸ n.toNat_lt_size

/-- The first elements of the list. -/
def serve (l : List T) : Enumeration T where
  query := do
    Prog.modify fun _ => UInt32.ofNat l.length
    return .success
  fill := do
    let c ← Prog.gets fun b => b.count.toNat
    Prog.modify fun b => ⟨UInt32.ofNat (min c l.length), store b.elements 0 (l.take c)⟩
    return if l.length ≤ c then .success else .incomplete

theorem enumerates_serve {l : List T} (h : l.length < UInt32.size) : Enumerates l (serve l) := by
  refine ⟨fun _ => ⟨_, rfl, UInt32.toNat_ofNat_of_lt' h⟩, fun b => ⟨_, rfl, ?_⟩⟩
  have hcount : (UInt32.ofNat (min b.count.toNat l.length)).toNat = (l.take b.count.toNat).length := by
    rw [List.length_take, UInt32.toNat_ofNat_of_lt' (by omega)]
  refine ⟨by rw [hcount, List.length_take], ?_, fun i hi => store_of_le ?_⟩
  · have hmap := map_store_range b.elements 0 (l.take b.count.toNat)
    rw [Nat.zero_add] at hmap
    rw [hcount, hmap]
    simpa using (List.take_sublist _ l).subperm
  · exact Nat.le_trans (Nat.le_of_eq (Nat.zero_add _)) (Nat.le_trans (List.length_take_le _ l) hi)

end Moonshine.Framework
