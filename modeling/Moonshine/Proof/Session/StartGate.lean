import Moonshine.Framework.Run
import Moonshine.Impl.Session.StartGate

/-!
# Whose port stays in use

A packet handler that nobody can wake any more keeps the port (`Stuck`), whatever happens. In
every other state a session can be initialized again (`initializable_iff`).
-/

namespace Moonshine.Proof.StartGate

open Moonshine.Framework Moonshine.Impl.StartGate

variable {M : NotifyModel Task} {g g' : Gate M}

/-! ## A port that stays in use -/

/-- The packet handler is before the gate, and nothing is left that lets a task through. -/
structure Stuck (g : Gate M) : Prop where
  before : g.Before .packetHandler
  permit : g.startNotify.waiters.permit = false
  woken : g.startNotify.waiters.woken = []

/-- The session is gone and with it everybody who could let the packet handler through. -/
structure Locked (s : Stream M) : Prop where
  phase : s.phase = none
  held : s.held = false
  stuck : ∃ g, s.gate = some g ∧ Stuck g

theorem stuck_new : Stuck (.new : Gate M) :=
  ⟨.inl rfl, congrArg Waiters.permit Notify.waiters_new, congrArg Waiters.woken Notify.waiters_new⟩

theorem Stuck.poll {n : Waiters Task} (hpermit : n.permit = false) (hwoken : n.woken = []) (t : Task) :
    (n.poll t).1 = false ∧ (n.poll t).2.permit = false ∧ (n.poll t).2.woken = [] := by
  unfold Waiters.poll
  rw [if_neg (by simp [hwoken])]
  split
  next => exact ⟨rfl, hpermit, hwoken⟩
  next =>
    rw [if_neg (by simp [hpermit])]
    exact ⟨rfl, hpermit, hwoken⟩

theorem Stuck.step {a : Action} (h : Stuck g) (ha : a ≠ .notifyOne) (hs : step g a = some g') : Stuck g' := by
  cases a with
  | notifyOne => exact absurd rfl ha
  | triggerShutdown =>
    cases hs
    exact ⟨h.before, h.permit, h.woken⟩
  | poll t =>
    rw [Impl.StartGate.step] at hs
    split at hs
    next =>
      cases hs
      obtain ⟨hready, hpermit, hwoken⟩ := Stuck.poll h.permit h.woken t
      refine ⟨?_, by rw [Notify.waiters_poll, hpermit], by rw [Notify.waiters_poll, hwoken]⟩
      by_cases ht : t = .packetHandler
      · subst ht
        exact .inr (by simp [hready])
      · simpa [Gate.Before, Function.update_of_ne (Ne.symm ht)] using h.before
    next => cases hs
  | cancel =>
    rw [Impl.StartGate.step] at hs
    split at hs
    next =>
      cases hs
      have hdrop : (g.startNotify.drop .encoder).waiters =
          { g.startNotify.waiters with waiting := g.startNotify.waiters.waiting.erase .encoder } :=
        (Notify.waiters_drop _ _).trans (if_neg (by simp [h.woken]))
      exact ⟨h.before, by rw [hdrop, h.permit], by rw [hdrop, h.woken]⟩
    next => cases hs
  | finish t =>
    rw [Impl.StartGate.step] at hs
    split at hs
    next hrunning =>
      cases hs
      refine ⟨?_, h.permit, h.woken⟩
      have ht : t ≠ .packetHandler := by
        rintro rfl
        rcases h.before with hbefore | hbefore <;> cases hbefore.symm.trans hrunning
      simpa [Gate.Before, Function.update_of_ne (Ne.symm ht)] using h.before
    next => cases hs

variable {s s' : Stream M}

theorem Stuck.not_portFree (h : Stuck g) (hgate : s.gate = some g) : ¬ s.PortFree := fun hfree => by
  have hended := hfree.2 g hgate
  rcases h.before with hbefore | hbefore <;> cases hbefore.symm.trans hended

/-- A step of the gate, as one of the stream. -/
theorem gate_step {a : Action} (hgate : s.gate = some g) (ha : a = .notifyOne → s.held = true)
    (h : step g a = some g') : s.step (.gate a) = some { s with gate := some g' } := by
  rw [Stream.step, if_neg fun hno => hno.2 (ha hno.1), hgate]
  simp only
  rw [h]
  rfl

theorem of_gate_step {a : Action} (hgate : s.gate = some g) (hs : s.step (.gate a) = some s') :
    (a = .notifyOne → s.held = true) ∧ ∃ g', step g a = some g' ∧ s' = { s with gate := some g' } := by
  rw [Stream.step] at hs
  split at hs
  next => cases hs
  next hheld =>
    rw [hgate] at hs
    obtain ⟨g', hg', rfl⟩ := Option.map_eq_some_iff.mp hs
    exact ⟨fun ha => Decidable.not_not.mp fun hno => hheld ⟨ha, hno⟩, g', hg', rfl⟩

/-- A gate that nobody notifies stays as it is, with the session or without it. -/
theorem stuck_step {a : StreamAction} (hphase : s.phase ≠ some .bound) (hstuck : ∃ g, s.gate = some g ∧ Stuck g)
    (ha : a ≠ .gate .notifyOne) (hs : s.step a = some s') :
    s'.phase ≠ some .bound ∧ ∃ g, s'.gate = some g ∧ Stuck g := by
  obtain ⟨g, hgate, hg⟩ := hstuck
  cases a with
  | initializeSession =>
    rw [Stream.step] at hs
    split at hs
    next =>
      rw [if_neg (hg.not_portFree hgate)] at hs
      cases hs
      exact ⟨hphase, g, hgate, hg⟩
    next => cases hs
  | startSession =>
    rw [Stream.step, if_neg hphase] at hs
    cases hs
  | resetSession =>
    rw [Stream.step] at hs
    split at hs
    next => cases hs
    next =>
      cases hs
      exact ⟨nofun, g, hgate, hg⟩
  | dropHandles =>
    rw [Stream.step] at hs
    split at hs
    next =>
      cases hs
      exact ⟨hphase, g, hgate, hg⟩
    next => cases hs
  | gate a =>
    obtain ⟨-, g', hg', rfl⟩ := of_gate_step hgate hs
    exact ⟨hphase, g', rfl, hg.step (fun heq => ha (heq ▸ rfl)) hg'⟩

theorem Locked.step {a : StreamAction} (h : Locked s) (hs : s.step a = some s') : Locked s' := by
  have hphase : s.phase ≠ some .bound := by
    rw [h.phase]
    exact nofun
  have hnot : a ≠ .gate .notifyOne := by
    rintro rfl
    obtain ⟨g, hgate, -⟩ := h.stuck
    have hheld := (of_gate_step hgate hs).1 rfl
    rw [h.held] at hheld
    cases hheld
  have hstuck := (stuck_step hphase h.stuck hnot hs).2
  cases a with
  | initializeSession =>
    obtain ⟨g, hgate, hg⟩ := h.stuck
    rw [Stream.step, if_pos h.phase, if_neg (hg.not_portFree hgate)] at hs
    cases hs
    exact h
  | startSession =>
    rw [Stream.step, if_neg hphase] at hs
    cases hs
  | resetSession =>
    rw [Stream.step, if_pos h.phase] at hs
    cases hs
  | dropHandles =>
    rw [Stream.step, if_pos h.phase] at hs
    cases hs
    exact ⟨h.phase, rfl, hstuck⟩
  | gate a =>
    obtain ⟨g, hgate, -⟩ := h.stuck
    obtain ⟨-, g', -, rfl⟩ := of_gate_step hgate hs
    exact ⟨h.phase, h.held, hstuck⟩

/-! ## What the tasks are at the gate -/

structure Inv (g : Gate M) : Prop where
  sound : g.startNotify.waiters.Sound
  waiting : ∀ t, t ∈ g.startNotify.waiters.waiting ∨ t ∈ g.startNotify.waiters.woken ↔ g.stage t = .waiting

theorem inv_new : Inv (.new : Gate M) where
  sound := by rw [Gate.new, Notify.waiters_new]; exact Waiters.sound_new
  waiting t := by
    rw [Gate.new, Notify.waiters_new]
    exact iff_of_false (by rintro (h | h) <;> cases h) nofun

/-- Who is at the `Notify` after a poll. -/
theorem mem_poll {n : Waiters Task} (h : n.Sound) (t u : Task) :
    u ∈ (n.poll t).2.waiting ∨ u ∈ (n.poll t).2.woken ↔
      if u = t then (n.poll t).1 = false else u ∈ n.waiting ∨ u ∈ n.woken := by
  have hnodup := List.nodup_append.mp h.nodup
  unfold Waiters.poll
  split
  next hwoken =>
    have hnot : t ∉ n.waiting := fun hmem => hnodup.2.2 t hmem t hwoken rfl
    by_cases hu : u = t
    · subst hu
      simp [hnot, hnodup.2.1.mem_erase_iff]
    · simp [hu, hnodup.2.1.mem_erase_iff]
  next hwoken =>
  split
  next hwaiting => by_cases hu : u = t <;> simp [hu, hwaiting]
  next hwaiting =>
  split
  next => by_cases hu : u = t <;> simp [hu, hwaiting, hwoken]
  next => by_cases hu : u = t <;> simp [hu]

theorem mem_notifyOne (n : Waiters Task) (u : Task) :
    u ∈ n.notifyOne.waiting ∨ u ∈ n.notifyOne.woken ↔ u ∈ n.waiting ∨ u ∈ n.woken := by
  cases hw : n.waiting with
  | nil =>
    rw [Waiters.notifyOne_of_nil hw]
    simp [hw]
  | cons t waiting =>
    rw [Waiters.notifyOne_of_cons hw]
    simp only [List.mem_append, List.mem_cons, List.not_mem_nil, or_false]
    tauto

theorem mem_drop {n : Waiters Task} (h : n.Sound) (t u : Task) :
    u ∈ (n.drop t).waiting ∨ u ∈ (n.drop t).woken ↔ u ≠ t ∧ (u ∈ n.waiting ∨ u ∈ n.woken) := by
  have hnodup := List.nodup_append.mp h.nodup
  unfold Waiters.drop
  split
  next hwoken =>
    have hnot : t ∉ n.waiting := fun hmem => hnodup.2.2 t hmem t hwoken rfl
    rw [mem_notifyOne]
    by_cases hu : u = t
    · subst hu
      simp [hnot, hnodup.2.1.mem_erase_iff]
    · simp [hu, hnodup.2.1.mem_erase_iff]
  next hwoken =>
    by_cases hu : u = t
    · subst hu
      simp [hwoken, hnodup.1.mem_erase_iff]
    · simp [hu, hnodup.1.mem_erase_iff]

theorem Inv.step {a : Action} (h : Inv g) (hs : step g a = some g') : Inv g' := by
  cases a with
  | notifyOne =>
    cases hs
    refine ⟨?_, fun t => ?_⟩
    · rw [Notify.waiters_notifyOne]
      exact h.sound.notifyOne
    · rw [Notify.waiters_notifyOne]
      exact (mem_notifyOne _ t).trans (h.waiting t)
  | triggerShutdown =>
    cases hs
    exact ⟨h.sound, h.waiting⟩
  | poll t =>
    rw [Impl.StartGate.step] at hs
    split at hs
    next =>
      cases hs
      refine ⟨Notify.waiters_poll g.startNotify t ▸ h.sound.poll t, fun u => ?_⟩
      rw [Notify.waiters_poll, Notify.ready_poll]
      refine (mem_poll h.sound t u).trans ?_
      by_cases hu : u = t
      · subst hu
        simp only [↓reduceIte, Function.update_self]
        split <;> simp_all
      · simp only [if_neg hu, Function.update_of_ne hu]
        exact h.waiting u
    next => cases hs
  | cancel =>
    rw [Impl.StartGate.step] at hs
    split at hs
    next =>
      cases hs
      refine ⟨Notify.waiters_drop g.startNotify _ ▸ h.sound.drop _, fun u => ?_⟩
      rw [Notify.waiters_drop]
      refine (mem_drop h.sound _ u).trans ?_
      by_cases hu : u = .encoder
      · simp [hu]
      · simp only [Function.update_of_ne hu]
        exact (and_iff_right hu).trans (h.waiting u)
    next => cases hs
  | finish t =>
    rw [Impl.StartGate.step] at hs
    split at hs
    next hrunning =>
      cases hs
      refine ⟨h.sound, fun u => (h.waiting u).trans ?_⟩
      by_cases hu : u = t
      · subst hu
        simp [hrunning]
      · simp only [Function.update_of_ne hu]
    next => cases hs

structure StreamInv (s : Stream M) : Prop where
  gate : ∀ g, s.gate = some g → Inv g
  started : s.phase = some .started → s.held = true ∧ s.gate.isSome = true

theorem StreamInv.new : StreamInv (.new : Stream M) := ⟨nofun, nofun⟩

theorem StreamInv.step {a : StreamAction} (h : StreamInv s) (hs : s.step a = some s') : StreamInv s' := by
  cases a with
  | initializeSession =>
    rw [Stream.step] at hs
    split at hs
    next =>
      cases hs
      split
      · exact ⟨nofun, nofun⟩
      · exact h
    next => cases hs
  | startSession =>
    rw [Stream.step] at hs
    split at hs
    next =>
      cases hs
      exact ⟨fun g hg => Option.some.inj hg ▸ inv_new, fun _ => ⟨rfl, rfl⟩⟩
    next => cases hs
  | resetSession =>
    rw [Stream.step] at hs
    split at hs
    next => cases hs
    next =>
      cases hs
      exact ⟨h.gate, nofun⟩
  | dropHandles =>
    rw [Stream.step] at hs
    split at hs
    next hphase =>
      cases hs
      exact ⟨h.gate, fun hstarted => by cases hphase.symm.trans hstarted⟩
    next => cases hs
  | gate a =>
    cases hgate : s.gate with
    | none =>
      rw [Stream.step, hgate] at hs
      split at hs <;> cases hs
    | some g =>
      obtain ⟨-, g', hg', rfl⟩ := of_gate_step hgate hs
      refine ⟨fun k hk => Option.some.inj hk ▸ (h.gate g hgate).step hg', fun hstarted => ?_⟩
      exact ⟨(h.started hstarted).1, rfl⟩

/-! ## Every other port can be bound again -/

def CanInitialize (s : Stream M) : Prop := ∃ as s', exec Stream.step s as = some s' ∧ s'.phase = some .bound

theorem CanInitialize.of_step {a : StreamAction} (hs : s.step a = some s') (h : CanInitialize s') :
    CanInitialize s := by
  obtain ⟨as, m, has, hm⟩ := h
  exact ⟨a :: as, m, exec_cons.mpr ⟨s', hs, has⟩, hm⟩

theorem canInitialize_of_portFree (hphase : s.phase = none) (h : s.PortFree) : CanInitialize s :=
  .of_step (a := .initializeSession) (by rw [Stream.step, if_pos hphase, if_pos h]) ⟨[], _, rfl, rfl⟩

theorem canInitialize_of_ended (hgate : s.gate = some g) (h : g.stage .packetHandler = .ended) :
    CanInitialize s := by
  have hfree : ∀ k ∈ s.gate, k.stage .packetHandler = .ended := fun k hk =>
    Option.some.inj (hgate.symm.trans hk) ▸ h
  rcases hphase : s.phase with _ | _ | _
  · exact canInitialize_of_portFree hphase ⟨by simp [hphase], hfree⟩
  · exact ⟨[], s, rfl, hphase⟩
  · refine .of_step (a := .resetSession) (by rw [Stream.step, if_neg (by simp [hphase])]) ?_
    exact canInitialize_of_portFree rfl ⟨nofun, hfree⟩

theorem canInitialize_of_running (hgate : s.gate = some g) (h : g.stage .packetHandler = .running) :
    CanInitialize s :=
  .of_step (gate_step (a := .finish .packetHandler) hgate nofun (if_pos h))
    (canInitialize_of_ended rfl (by simp))

/-- A poll that finds the packet handler woken, or a permit, takes it past the gate. -/
theorem canInitialize_of_ready (hgate : s.gate = some g) (hbefore : g.Before .packetHandler)
    (h : (g.startNotify.poll .packetHandler).1 = true) : CanInitialize s := by
  refine .of_step (gate_step (a := .poll .packetHandler) hgate nofun (if_pos hbefore))
    (canInitialize_of_running rfl (by simp only [Function.update_self, h, ↓reduceIte]))

theorem canInitialize_of_woken (hgate : s.gate = some g) (hbefore : g.Before .packetHandler)
    (h : .packetHandler ∈ g.startNotify.waiters.woken) : CanInitialize s :=
  canInitialize_of_ready hgate hbefore (by rw [Notify.ready_poll, Waiters.poll, if_pos h])

theorem canInitialize_of_permit (hinv : Inv g) (hgate : s.gate = some g) (hbefore : g.Before .packetHandler)
    (h : g.startNotify.waiters.permit = true) : CanInitialize s := by
  by_cases hwoken : .packetHandler ∈ g.startNotify.waiters.woken
  · exact canInitialize_of_woken hgate hbefore hwoken
  · refine canInitialize_of_ready hgate hbefore ?_
    rw [Notify.ready_poll, Waiters.poll, if_neg hwoken, if_neg (by simp [hinv.sound.permit h]), if_pos h]

/-- Calls wake everybody who waits, in their order. -/
theorem canInitialize_of_waiting {waiting : List Task} (hheld : s.held = true) (hgate : s.gate = some g)
    (hbefore : g.Before .packetHandler) (hwaiting : g.startNotify.waiters.waiting = waiting)
    (h : .packetHandler ∈ waiting) : CanInitialize s := by
  induction waiting generalizing s g with
  | nil => cases h
  | cons t waiting ih =>
    refine .of_step (gate_step (a := .notifyOne) hgate (fun _ => hheld) rfl) ?_
    have hnotify := Waiters.notifyOne_of_cons hwaiting
    rcases List.mem_cons.mp h with rfl | h
    · exact canInitialize_of_woken rfl hbefore (by simp [hnotify])
    · exact ih hheld rfl hbefore (by simp [hnotify]) h

theorem canInitialize_of_held (hinv : Inv g) (hheld : s.held = true) (hgate : s.gate = some g)
    (hbefore : g.Before .packetHandler) : CanInitialize s := by
  cases hpoll : (g.startNotify.poll .packetHandler).1 with
  | true => exact canInitialize_of_ready hgate hbefore hpoll
  | false =>
    have hs : step g (.poll .packetHandler) = some _ := if_pos hbefore
    have hinv' := hinv.step hs
    have hstage : Function.update g.stage .packetHandler
        (if (g.startNotify.poll .packetHandler).1 then Stage.running else .waiting) .packetHandler = .waiting := by
      rw [Function.update_self, hpoll]
      rfl
    refine .of_step (gate_step (a := .poll .packetHandler) hgate nofun hs) ?_
    rcases (hinv'.waiting .packetHandler).mpr hstage with hmem | hmem
    · exact canInitialize_of_waiting hheld rfl (.inr hstage) rfl hmem
    · exact canInitialize_of_woken rfl (.inr hstage) hmem

/-- If the encoder is woken and then cancelled, the packet handler is woken for it. -/
theorem canInitialize_of_encoder (hinv : Inv g) (hgate : s.gate = some g) (hbefore : g.Before .packetHandler)
    (h : .encoder ∈ g.startNotify.waiters.woken) : CanInitialize s := by
  have hencoder : g.Before .encoder := .inr ((hinv.waiting .encoder).mp (.inr h))
  have hinv' : Inv { g with stop := true } := hinv.step (a := .triggerShutdown) rfl
  have hcancel : step { g with stop := true } .cancel = some _ := if_pos ⟨rfl, hencoder⟩
  have hbefore' : ∀ stage : Stage, (Function.update g.stage .encoder stage) .packetHandler =
      g.stage .packetHandler := fun stage => Function.update_of_ne (by decide) ..
  refine .of_step (gate_step (a := .triggerShutdown) hgate nofun rfl) (.of_step (gate_step (a := .cancel) rfl nofun hcancel) ?_)
  have hnext := hinv'.step hcancel
  by_cases hpermit : (g.startNotify.drop .encoder).waiters.permit = true
  · exact canInitialize_of_permit hnext rfl (by simpa [Gate.Before, hbefore'] using hbefore) hpermit
  · refine canInitialize_of_woken rfl (by simpa [Gate.Before, hbefore'] using hbefore) ?_
    cases hw : g.startNotify.waiters.waiting with
    | nil => exact absurd (Notify.waiters_drop g.startNotify _ ▸ Waiters.permit_drop h hw) hpermit
    | cons t waiting =>
      -- The encoder has been woken, so it is the packet handler that waits.
      have ht : t = .packetHandler := by
        cases t with
        | packetHandler => rfl
        | encoder =>
          have hnodup := List.nodup_append.mp hinv.sound.nodup
          exact absurd rfl (hnodup.2.2 .encoder (hw ▸ List.mem_cons_self) .encoder h)
      exact ht ▸ Notify.waiters_drop g.startNotify _ ▸ Waiters.mem_woken_drop h hw

theorem canInitialize_of_not_locked (h : StreamInv s) (hlocked : ¬ Locked s) : CanInitialize s := by
  cases hgate : s.gate with
  | none =>
    rcases hphase : s.phase with _ | _ | _
    · exact canInitialize_of_portFree hphase ⟨by simp [hphase], by simp [hgate]⟩
    · exact ⟨[], s, rfl, hphase⟩
    · have hgate' := (h.started hphase).2
      rw [hgate] at hgate'
      cases hgate'
  | some g =>
    have hinv := h.gate g hgate
    cases hstage : g.stage .packetHandler with
    | ended => exact canInitialize_of_ended hgate hstage
    | running => exact canInitialize_of_running hgate hstage
    | spawned | waiting =>
      have hbefore : g.Before .packetHandler := by simp [Gate.Before, hstage]
      cases hheld : s.held with
      | true => exact canInitialize_of_held hinv hheld hgate hbefore
      | false =>
        cases hpermit : g.startNotify.waiters.permit with
        | true => exact canInitialize_of_permit hinv hgate hbefore hpermit
        | false =>
          rcases hwoken : g.startNotify.waiters.woken with _ | ⟨t, woken⟩
          · rcases hphase : s.phase with _ | _ | _
            · exact absurd ⟨hphase, hheld, g, hgate, hbefore, hpermit, hwoken⟩ hlocked
            · exact ⟨[], s, rfl, hphase⟩
            · cases hheld.symm.trans (h.started hphase).1
          · have hmem : t ∈ g.startNotify.waiters.woken := hwoken ▸ List.mem_cons_self
            cases t with
            | packetHandler => exact canInitialize_of_woken hgate hbefore hmem
            | encoder => exact canInitialize_of_encoder hinv hgate hbefore hmem

theorem stuck_run {as : List StreamAction} (hphase : s.phase ≠ some .bound)
    (hstuck : ∃ g, s.gate = some g ∧ Stuck g) (ha : .gate .notifyOne ∉ as) (h : exec Stream.step s as = some s') :
    ∃ g, s'.gate = some g ∧ Stuck g := by
  induction as generalizing s with
  | nil =>
    cases h
    exact hstuck
  | cons a as ih =>
    rw [List.mem_cons, not_or] at ha
    obtain ⟨m, hm, h⟩ := exec_cons.mp h
    obtain ⟨hphase', hstuck'⟩ := stuck_step hphase hstuck (Ne.symm ha.1) hm
    exact ih hphase' hstuck' ha.2 h

/-- The session that starts its streams last is over before anybody has triggered them. -/
theorem locked_of_silent {before after : List StreamAction}
    (h : exec Stream.step .new (before ++ .startSession :: after) = some s) (hsilent : .gate .notifyOne ∉ after)
    (hphase : s.phase = none) (hheld : s.held = false) : Locked s := by
  obtain ⟨m, -, h⟩ := exec_append.mp h
  obtain ⟨started, hstart, h⟩ := exec_cons.mp h
  rw [Stream.step] at hstart
  split at hstart
  next =>
    cases hstart
    exact ⟨hphase, hheld, stuck_run (by simp) ⟨.new, rfl, stuck_new⟩ hsilent h⟩
  next => cases hstart

/-- From every state, either a session can still be initialized or the packet handler of one
that is over keeps the port for good. The second is so of every session that has started its
streams and has come to its end without a call of `notify_one`. -/
theorem initializable_iff {as : List StreamAction} (h : exec Stream.step .new as = some s) :
    (CanInitialize s ↔ ¬ Locked s) ∧
      ∀ before after, as = before ++ .startSession :: after → .gate .notifyOne ∉ after → s.phase = none →
        s.held = false → Locked s := by
  have hinv : StreamInv s := exec_inv (fun _ _ _ hi hs => hi.step hs) .new h
  refine ⟨⟨?_, canInitialize_of_not_locked hinv⟩, fun before after heq hsilent => locked_of_silent (heq ▸ h) hsilent⟩
  rintro ⟨more, s', hmore, hbound⟩ hlocked
  have hphase := (exec_inv (fun _ _ _ hi hs => hi.step hs) hlocked hmore : Locked s').phase
  cases hphase.symm.trans hbound

/-- A session whose client never sends `StartB`, up to its end. -/
def silentSession : List StreamAction :=
  [.initializeSession, .startSession, .gate (.poll .packetHandler), .gate (.poll .encoder), .resetSession,
    .gate .triggerShutdown, .gate .cancel, .dropHandles]

theorem silent_session_locked : ∃ s : Stream (queued Task),
    exec Stream.step .new silentSession = some s ∧ ¬ CanInitialize s := by
  obtain ⟨s, hs, hphase, hheld⟩ : ∃ s : Stream (queued Task),
      exec Stream.step .new silentSession = some s ∧ s.phase = none ∧ s.held = false := ⟨_, rfl, rfl, rfl⟩
  have hiff := initializable_iff hs
  have hlocked : Locked s := hiff.2 [.initializeSession] _ rfl (by decide) hphase hheld
  exact ⟨s, hs, fun hcan => hiff.1.mp hcan hlocked⟩

end Moonshine.Proof.StartGate
