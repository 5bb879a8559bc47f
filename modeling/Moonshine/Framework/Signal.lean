import Moonshine.Framework.Outcome

/-!
# Signals

A signal over the state `σ` gives its next frame, and may panic over it. A
`Drain` lends a signal out for so many frames: whoever reads it gets the frames
of the signal, and then silence; what was not read when it is dropped is taken
from the signal then. `readThenDrop_state`: however much is read of it, the
signal ends where as many calls of its own leave it.
-/

namespace Moonshine.Framework

abbrev Signal (σ φ : Type) := σ → Outcome (φ × σ)

namespace Signal

variable {σ φ : Type} (sig : Signal σ φ)

/-- The state after `n` calls. -/
def nexts : Nat → σ → Outcome σ
  | 0, s => .ok s
  | n + 1, s => do
    let (_, s) ← sig s
    nexts n s

/-- What `f` sees of a signal steps along `step`, from states with `Inv`. -/
theorem map_nexts {τ : Type} (f : σ → τ) (Inv : σ → Prop) (step : τ → Outcome τ)
    (steps : Nat → τ → Outcome τ) (hzero : ∀ t, steps 0 t = .ok t)
    (hsucc : ∀ n t, steps (n + 1) t = step t >>= steps n)
    (hinv : ∀ s fr s', Inv s → sig s = .ok (fr, s') → Inv s')
    (hstep : ∀ s, Inv s → (fun res => f res.2) <$> sig s = step (f s)) (n : Nat) {s : σ} (h : Inv s) :
    f <$> nexts sig n s = steps n (f s) := by
  induction n generalizing s with
  | zero => rw [hzero, nexts, map_eq_pure_bind, Outcome.ok_bind, Outcome.pure_eq]
  | succ n ih =>
    rw [hsucc, ← hstep s h, nexts]
    cases hs : sig s with
    | ok res => exact ih (hinv s res.1 res.2 h hs)
    | err => rfl
    | panic => rfl

structure Drain (σ : Type) where
  state : σ
  remaining : Nat

variable (silence : φ)

def Drain.next (d : Drain σ) : Outcome (φ × Drain σ) :=
  if d.remaining = 0 then .ok (silence, d)
  else do
    let (f, s) ← sig d.state
    return (f, ⟨s, d.remaining - 1⟩)

/-- The next `k` frames. -/
def Drain.read : Nat → Drain σ → Outcome (List φ × Drain σ)
  | 0, d => .ok ([], d)
  | k + 1, d => do
    let (f, d) ← d.next sig silence
    let (fs, d) ← Drain.read k d
    return (f :: fs, d)

/-- A drop takes what was not read. -/
def Drain.drop (d : Drain σ) : Outcome σ := nexts sig d.remaining d.state

def Drain.readThenDrop (k : Nat) (d : Drain σ) : Outcome (List φ × σ) := do
  let (fs, d) ← d.read sig silence k
  let s ← d.drop sig
  return (fs, s)

theorem Drain.readThenDrop_succ (k : Nat) (d : Drain σ) :
    d.readThenDrop sig silence (k + 1) = do
      let (f, d) ← d.next sig silence
      let (fs, s) ← d.readThenDrop sig silence k
      return (f :: fs, s) := by
  show (do
    let (fs, d') ← (do
      let (f, d') ← d.next sig silence
      let (fs, d') ← d'.read sig silence k
      pure (f :: fs, d'))
    let s ← d'.drop sig
    pure (fs, s)) = _
  cases d.next sig silence with
  | ok res =>
    simp only [Outcome.ok_bind, Drain.readThenDrop]
    cases res.2.read sig silence k with
    | ok res' =>
      simp only [Outcome.ok_bind, Outcome.pure_eq]
      cases res'.2.drop sig <;> rfl
    | err => rfl
    | panic => rfl
  | err => rfl
  | panic => rfl

/-- However much is read, the signal ends where `remaining` calls leave it. -/
theorem Drain.readThenDrop_state (k : Nat) (d : Drain σ) :
    (do let (_, s) ← d.readThenDrop sig silence k; pure s) = nexts sig d.remaining d.state := by
  induction k generalizing d with
  | zero =>
    show (do
      let (_, s) ← (do
        let s ← nexts sig d.remaining d.state
        pure (([] : List φ), s))
      pure s) = _
    cases nexts sig d.remaining d.state <;> rfl
  | succ k ih =>
    rw [Drain.readThenDrop_succ]
    by_cases hrem : d.remaining = 0
    · rw [Drain.next, if_pos hrem, Outcome.ok_bind, ← ih d]
      dsimp only
      cases d.readThenDrop sig silence k <;> rfl
    · obtain ⟨n, hn⟩ := Nat.exists_eq_succ_of_ne_zero hrem
      rw [Drain.next, if_neg hrem, hn, nexts]
      cases sig d.state with
      | ok res =>
        have hrest := ih ⟨res.2, n⟩
        simp only [Outcome.ok_bind, Outcome.pure_eq, Nat.succ_sub_one] at hrest ⊢
        rw [← hrest]
        cases Drain.readThenDrop sig silence k ⟨res.2, n⟩ <;> rfl
      | err => rfl
      | panic => rfl

theorem Drain.map_readThenDrop {τ : Type} (f : σ → τ) (k : Nat) (d : Drain σ) :
    (fun res => f res.2) <$> d.readThenDrop sig silence k = f <$> nexts sig d.remaining d.state := by
  rw [← d.readThenDrop_state sig silence k]
  cases d.readThenDrop sig silence k <;> rfl

/-- Where the calls return, so does the loan, whoever reads it. -/
theorem Drain.readThenDrop_of_nexts (k : Nat) {d : Drain σ} {s : σ}
    (h : nexts sig d.remaining d.state = .ok s) :
    ∃ fs, d.readThenDrop sig silence k = .ok (fs, s) := by
  rw [← d.readThenDrop_state sig silence k] at h
  obtain ⟨res, hres, hs⟩ := Outcome.bind_eq_ok.mp h
  exact ⟨res.1, hres.trans (congrArg Outcome.ok (Prod.ext rfl (Outcome.ok.inj hs)))⟩

theorem Drain.readThenDrop_of_panic (k : Nat) {d : Drain σ} (h : nexts sig d.remaining d.state = .panic) :
    d.readThenDrop sig silence k = .panic := by
  rw [← d.readThenDrop_state sig silence k] at h
  cases hres : d.readThenDrop sig silence k with
  | panic => rfl
  | ok res =>
    rw [hres] at h
    cases h
  | err =>
    rw [hres] at h
    cases h

end Signal

end Moonshine.Framework
