import Moonshine.Framework.Integers

/-!
# Rounding up

`roundUp a b` is the least multiple of `b` that is at least `a`
(`le_roundUp`, `dvd_roundUp`, `roundUp_lt`). The checked operations panic where
the result does not fit; `checkedMul_eq_ok` and its kin say when they return and
what.
-/

namespace Moonshine.Framework

def roundUp (a b : Nat) : Nat := if a % b = 0 then a else a + (b - a % b)

theorem le_roundUp (a b : Nat) : a ≤ roundUp a b := by
  unfold roundUp
  split <;> omega

theorem dvd_roundUp {b : Nat} (hb : 0 < b) (a : Nat) : b ∣ roundUp a b := by
  unfold roundUp
  split
  · rename_i h
    exact Nat.dvd_of_mod_eq_zero h
  · have hmod := Nat.mod_lt a hb
    have hsum : a + (b - a % b) = b * (a / b + 1) := by
      have := Nat.div_add_mod a b
      rw [Nat.mul_add, Nat.mul_one]
      omega
    rw [hsum]
    exact Nat.dvd_mul_right b _

theorem roundUp_lt {b : Nat} (hb : 0 < b) (a : Nat) : roundUp a b < a + b := by
  unfold roundUp
  split <;> omega

/-- A cast to `w` bits that must not lose any. -/
def checkedCast (w n : Nat) : Outcome Nat := if n < 2 ^ w then .ok n else .panic

/-- `next_multiple_of` on `w` bits. -/
def checkedNextMultipleOf (w a b : Nat) : Outcome Nat := if b = 0 then .panic else checkedCast w (roundUp a b)

theorem checkedCast_eq_ok {w n v : Nat} : checkedCast w n = .ok v ↔ n < 2 ^ w ∧ v = n := by
  unfold checkedCast
  split_ifs with h
  · exact ⟨fun he => ⟨h, (Outcome.ok.inj he).symm⟩, fun he => by rw [he.2]⟩
  · exact iff_of_false nofun fun he => h he.1

theorem checkedMul_eq_ok {w a b v : Nat} : checkedMul w a b = .ok v ↔ a * b < 2 ^ w ∧ v = a * b := by
  unfold checkedMul
  split_ifs with h
  · exact ⟨fun he => ⟨h, (Outcome.ok.inj he).symm⟩, fun he => by rw [he.2]⟩
  · exact iff_of_false nofun fun he => h he.1

theorem checkedNextMultipleOf_eq_ok {w a b v : Nat} :
    checkedNextMultipleOf w a b = .ok v ↔ 0 < b ∧ roundUp a b < 2 ^ w ∧ v = roundUp a b := by
  unfold checkedNextMultipleOf
  split_ifs with h
  · exact iff_of_false nofun fun he => Nat.ne_of_gt he.1 h
  · rw [checkedCast_eq_ok]
    exact ⟨fun he => ⟨Nat.pos_of_ne_zero h, he⟩, fun he => he.2⟩

end Moonshine.Framework
