import Mathlib.Data.List.Basic

/-!
# Chunks of a list

`chunks n l` is `l` cut into pieces of `n`, the last of which may be shorter
(`slice::chunks`). Everything follows from the equation `chunks_of_ne_nil`:

* `flatten_chunks`, `length_le_of_mem_chunks`, `ne_nil_of_mem_chunks`: the pieces
  make up the list, and each has between one and `n` elements;
* `chunks_take`, `chunks_drop`: cutting at a multiple of `n` first;
* `chunks_mul`: chunks of `m * n` are groups of `m` chunks of `n`, and cutting them
  again gives those (`flatMap_chunks_mul`);
* `length_of_mem_chunks`: of a whole number of chunks none is short.
-/

namespace Moonshine.Framework

variable {α : Type*}

/-- The first argument is fuel. -/
def chunksFrom (n : Nat) : Nat → List α → List (List α)
  | 0, _ => []
  | _ + 1, [] => []
  | fuel + 1, a :: l => (a :: l).take n :: chunksFrom n fuel ((a :: l).drop n)

def chunks (n : Nat) (l : List α) : List (List α) := chunksFrom n l.length l

@[simp] theorem chunks_nil (n : Nat) : chunks n ([] : List α) = [] := rfl

theorem chunksFrom_nil (n fuel : Nat) : chunksFrom n fuel ([] : List α) = [] := by
  cases fuel <;> rfl

/-- Fuel for every element is enough. -/
theorem chunksFrom_eq {n : Nat} (hn : 0 < n) {fuel fuel' : Nat} {l : List α} (h : l.length ≤ fuel)
    (h' : l.length ≤ fuel') : chunksFrom n fuel l = chunksFrom n fuel' l := by
  induction fuel generalizing fuel' l with
  | zero =>
    obtain rfl : l = [] := List.length_eq_zero_iff.mp (by omega)
    rw [chunksFrom_nil, chunksFrom_nil]
  | succ fuel ih =>
    cases l with
    | nil => rw [chunksFrom_nil, chunksFrom_nil]
    | cons a l =>
      cases fuel' with
      | zero => simp at h'
      | succ fuel' =>
        have hlen : ((a :: l).drop n).length ≤ l.length := by
          rw [List.length_drop, List.length_cons]
          omega
        rw [List.length_cons] at h h'
        rw [chunksFrom, chunksFrom, ih (by omega) (show _ ≤ fuel' by omega)]

theorem chunks_of_ne_nil {n : Nat} (hn : 0 < n) {l : List α} (h : l ≠ []) :
    chunks n l = l.take n :: chunks n (l.drop n) := by
  cases l with
  | nil => exact absurd rfl h
  | cons a l =>
    have hlen : ((a :: l).drop n).length ≤ l.length := by
      rw [List.length_drop, List.length_cons]
      omega
    rw [chunks, List.length_cons, chunksFrom, chunks, chunksFrom_eq hn hlen (Nat.le_refl _)]

/-- The induction that the chunks follow. -/
theorem chunks_induction {n : Nat} (hn : 0 < n) {P : List α → Prop} (nil : P [])
    (step : ∀ l, l ≠ [] → P (l.drop n) → P l) (l : List α) : P l := by
  induction hlen : l.length using Nat.strongRecOn generalizing l with
  | ind len ih =>
    by_cases h : l = []
    · rw [h]
      exact nil
    · have hpos := List.length_pos_iff.mpr h
      exact step l h (ih _ (by rw [List.length_drop]; omega) _ rfl)

section

variable {n : Nat} (hn : 0 < n)
include hn

theorem flatten_chunks (l : List α) : (chunks n l).flatten = l := by
  induction l using chunks_induction hn with
  | nil => rfl
  | step l h ih => rw [chunks_of_ne_nil hn h, List.flatten_cons, ih, List.take_append_drop]

theorem length_le_of_mem_chunks {l c : List α} (hc : c ∈ chunks n l) : c.length ≤ n := by
  induction l using chunks_induction hn with
  | nil => cases hc
  | step l h ih =>
    rw [chunks_of_ne_nil hn h] at hc
    obtain rfl | hc := List.mem_cons.mp hc
    · exact List.length_take_le n l
    · exact ih hc

theorem ne_nil_of_mem_chunks {l c : List α} (hc : c ∈ chunks n l) : c ≠ [] := by
  induction l using chunks_induction hn with
  | nil => cases hc
  | step l h ih =>
    rw [chunks_of_ne_nil hn h] at hc
    obtain rfl | hc := List.mem_cons.mp hc
    · refine List.length_pos_iff.mp ?_
      have hpos := List.length_pos_iff.mpr h
      rw [List.length_take]
      omega
    · exact ih hc

theorem chunks_drop (m : Nat) (l : List α) : chunks n (l.drop (m * n)) = (chunks n l).drop m := by
  induction m generalizing l with
  | zero => rw [Nat.zero_mul, List.drop_zero, List.drop_zero]
  | succ m ih =>
    by_cases h : l = []
    · rw [h, List.drop_nil, chunks_nil, List.drop_nil]
    · rw [Nat.succ_mul, Nat.add_comm, ← List.drop_drop, ih, chunks_of_ne_nil hn h, List.drop_succ_cons]

theorem chunks_take (m : Nat) (l : List α) : chunks n (l.take (m * n)) = (chunks n l).take m := by
  induction m generalizing l with
  | zero => rw [Nat.zero_mul, List.take_zero, List.take_zero, chunks_nil]
  | succ m ih =>
    by_cases h : l = []
    · rw [h, List.take_nil, chunks_nil, List.take_nil]
    · have hpos := List.length_pos_iff.mpr h
      have hle : n ≤ (m + 1) * n := Nat.le_mul_of_pos_left n (Nat.succ_pos m)
      have hne : l.take ((m + 1) * n) ≠ [] := by
        refine List.length_pos_iff.mp ?_
        rw [List.length_take]
        omega
      have hdrop : (l.take ((m + 1) * n)).drop n = (l.drop n).take (m * n) := by
        rw [List.drop_take, Nat.succ_mul, Nat.add_sub_cancel]
      rw [chunks_of_ne_nil hn hne, chunks_of_ne_nil hn h, List.take_take, Nat.min_eq_left hle, hdrop, ih,
        List.take_succ_cons]

/-- Chunks of `m * n` are the chunks of `n`, `m` at a time. -/
theorem chunks_mul {m : Nat} (hm : 0 < m) (l : List α) :
    chunks (m * n) l = (chunks m (chunks n l)).map List.flatten := by
  have hmn : 0 < m * n := Nat.mul_pos hm hn
  induction l using chunks_induction hmn with
  | nil => rfl
  | step l h ih =>
    have hne : chunks n l ≠ [] := by
      rw [chunks_of_ne_nil hn h]
      exact List.cons_ne_nil _ _
    rw [chunks_of_ne_nil hmn h, chunks_of_ne_nil hm hne, List.map_cons, ← chunks_take hn, ← chunks_drop hn,
      flatten_chunks hn, ih]

theorem flatMap_chunks_mul {m : Nat} (hm : 0 < m) (l : List α) :
    (chunks (m * n) l).flatMap (chunks n) = chunks n l := by
  have hmn : 0 < m * n := Nat.mul_pos hm hn
  induction l using chunks_induction hmn with
  | nil => rfl
  | step l h ih =>
    rw [chunks_of_ne_nil hmn h, List.flatMap_cons, ih, chunks_take hn, chunks_drop hn, List.take_append_drop]

/-- Of a list that is a whole number of chunks, every chunk is whole. -/
theorem length_of_mem_chunks {k : Nat} {l c : List α} (hl : l.length = k * n) (hc : c ∈ chunks n l) :
    c.length = n := by
  induction l using chunks_induction hn generalizing k with
  | nil => cases hc
  | step l h ih =>
    have hpos := List.length_pos_iff.mpr h
    cases k with
    | zero => omega
    | succ k =>
      rw [Nat.succ_mul] at hl
      rw [chunks_of_ne_nil hn h] at hc
      obtain rfl | hc := List.mem_cons.mp hc
      · rw [List.length_take]
        omega
      · exact ih (k := k) (by rw [List.length_drop]; omega) hc

end

end Moonshine.Framework
