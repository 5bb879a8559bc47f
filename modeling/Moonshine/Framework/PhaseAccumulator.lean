import Mathlib.Tactic.Ring

/-!
# Phase accumulators

An accumulator steps by `step` in units of `unit`: a tick takes the whole units
of the phase off it and adds a step. `taken` is what `n` ticks take together, and
`taken_succ` gives it in closed form: the rests of the divisions never get lost.
Hence `taken_le`: from a phase of less than a unit and a step, `n` ticks take at
most `n` steps' worth, rounded up.
-/

namespace Moonshine.Framework.PhaseAccumulator

def tick (unit step phase : Nat) : Nat := phase % unit + step

/-- The units that `n` ticks take. -/
def taken (unit step : Nat) : Nat → Nat → Nat
  | 0, _ => 0
  | n + 1, phase => phase / unit + taken unit step n (tick unit step phase)

variable {unit step : Nat}

theorem tick_lt (hunit : 0 < unit) (phase : Nat) : tick unit step phase < unit + step :=
  Nat.add_lt_add_right (Nat.mod_lt phase hunit) step

theorem div_add_tick_div (hunit : 0 < unit) (phase n : Nat) :
    phase / unit + (tick unit step phase + n) / unit = (phase + step + n) / unit := by
  have hphase : phase + step + n = tick unit step phase + n + unit * (phase / unit) := by
    have := Nat.div_add_mod phase unit
    unfold tick
    omega
  rw [hphase, Nat.add_mul_div_left _ _ hunit, Nat.add_comm]

theorem taken_succ (hunit : 0 < unit) (n phase : Nat) :
    taken unit step (n + 1) phase = (phase + n * step) / unit := by
  induction n generalizing phase with
  | zero => simp only [taken, Nat.add_zero, Nat.zero_mul]
  | succ n ih =>
    rw [taken, ih, div_add_tick_div hunit]
    congr 1
    ring

theorem taken_le (hunit : 0 < unit) {phase : Nat} (hphase : phase < unit + step) (n : Nat) :
    taken unit step n phase ≤ (step * n + unit - 1) / unit := by
  cases n with
  | zero => exact Nat.zero_le _
  | succ n =>
    rw [taken_succ hunit]
    apply Nat.div_le_div_right
    have hmul : step * (n + 1) = n * step + step := by ring
    omega

end Moonshine.Framework.PhaseAccumulator
