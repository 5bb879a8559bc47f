import Mathlib.Order.Lattice

/-!
# Timelines

A timeline lists values, each with the time at which it comes into force, in the
order in which they do. At a time the value in force is that of the last event no
later (`valueAt`).
-/

namespace Moonshine.Framework

variable {τ α : Type*} [LinearOrder τ]

/-- The value in force at `t`, `none` before the first event. -/
def valueAt (t : τ) : List (τ × α) → Option α
  | [] => none
  | e :: es => (valueAt t es).or (if e.1 ≤ t then some e.2 else none)

variable {t : τ} {e : τ × α} {es fs : List (τ × α)}

@[simp] theorem valueAt_nil : valueAt t ([] : List (τ × α)) = none := rfl

theorem valueAt_cons_of_le (h : e.1 ≤ t) : valueAt t (e :: es) = (valueAt t es).or (some e.2) := by
  rw [valueAt, if_pos h]

theorem valueAt_cons_of_lt (h : t < e.1) : valueAt t (e :: es) = valueAt t es := by
  rw [valueAt, if_neg (not_le.mpr h), Option.or_none]

theorem valueAt_append : valueAt t (es ++ fs) = (valueAt t fs).or (valueAt t es) := by
  induction es with
  | nil => simp
  | cons e es ih => rw [List.cons_append, valueAt, ih, valueAt, Option.or_assoc]

/-- Before all of the events. -/
theorem valueAt_eq_none (h : ∀ e ∈ es, t < e.1) : valueAt t es = none := by
  induction es with
  | nil => rfl
  | cons e es ih =>
    rw [valueAt_cons_of_lt (h e List.mem_cons_self)]
    exact ih fun e he => h e (List.mem_cons_of_mem _ he)

/-- After one of them. -/
theorem isSome_valueAt (he : e ∈ es) (h : e.1 ≤ t) : (valueAt t es).isSome = true := by
  induction es with
  | nil => exact absurd he List.not_mem_nil
  | cons f es ih =>
    rw [valueAt, Option.isSome_or]
    rcases List.mem_cons.mp he with rfl | he
    · simp [h]
    · simp [ih he]

/-- What is in force is what some event brought. -/
theorem mem_of_valueAt {v : α} (h : valueAt t es = some v) : ∃ e ∈ es, e.1 ≤ t ∧ e.2 = v := by
  induction es with
  | nil => cases h
  | cons e es ih =>
    rw [valueAt, Option.or_eq_some_iff] at h
    rcases h with h | ⟨-, h⟩
    · obtain ⟨f, hf, hle, hv⟩ := ih h
      exact ⟨f, List.mem_cons_of_mem _ hf, hle, hv⟩
    · split at h
      · next hle => exact ⟨e, List.mem_cons_self, hle, Option.some.inj h⟩
      · cases h

/-- What came earlier does not count. -/
theorem valueAt_append_of_le (he : e ∈ fs) (h : e.1 ≤ t) : valueAt t (es ++ fs) = valueAt t fs := by
  rw [valueAt_append, Option.or_of_isSome (isSome_valueAt he h)]

end Moonshine.Framework
