import Moonshine.Proof.Session.Steps

/-!
# The keys channels of the session manager

A channel gets its first value from the call of `initialize_session` that makes
it, and every other from a call of `update_keys` (`keysMoves_of_step`). A step
gives no session a channel but that of a session that was there, or the one it
makes (`holds_of_step`).
-/

namespace Moonshine.Proof.SessionManager

open Moonshine.Framework Moonshine.Impl Moonshine.Impl.SessionManager

/-- The channel is that of a session in the state, or out with a call, or of one
that is being initialized. -/
inductive HoldsChannel (w : World) : KeysChannel → Prop
  | present {s : Session} (h : Present w s) : HoldsChannel w s.keysRx
  | taken {s : Session} (h : Taken w s) : HoldsChannel w s.keysRx
  | initializing {c : CallId} {channel : KeysChannel} {stop : StopId}
      (h : w.calls c = .initializing channel stop) : HoldsChannel w channel

/-- What a step does to the channels. -/
inductive KeysMoves (w : World) (a : Action) (w' : World) : Prop
  | kept (hkeys : w'.keys = w.keys) (hnext : w'.nextChannel = w.nextChannel)
      (hcalls : ∀ c channel stop, w'.calls c = .initializing channel stop →
        w.calls c = .initializing channel stop)
  | opened (c : CallId) (data : SessionKeyData) (ha : a = .initializeSession c (.keys data))
      (hkeys : w'.keys = Function.update w.keys w.nextChannel (some data))
      (hnext : w'.nextChannel = w.nextChannel + 1)
      (hcalls : ∀ c channel stop, w'.calls c = .initializing channel stop →
        w.calls c = .initializing channel stop ∨ channel = w.nextChannel)
  | replaced (c : CallId) (data : SessionKeyData) (tx : KeysChannel) (ha : a = .updateKeys c data)
      (hkeys : w'.keys = Function.update w.keys tx (some data)) (hnext : w'.nextChannel = w.nextChannel)
      (hcalls : ∀ c channel stop, w'.calls c = .initializing channel stop →
        w.calls c = .initializing channel stop)

theorem initializing_of_update {w w' : World} {c : CallId} {k : Call}
    (hcalls : w'.calls = Function.update w.calls c k) (hk : ∀ channel stop, k ≠ .initializing channel stop)
    (c' : CallId) (channel : KeysChannel) (stop : StopId) (h : w'.calls c' = .initializing channel stop) :
    w.calls c' = .initializing channel stop := by
  rcases call_of_update hcalls h with ⟨-, heq⟩ | ⟨-, heq⟩
  · exact absurd heq (hk channel stop)
  · exact heq

theorem KeysMoves.of_call {w w' : World} {a : Action} {c : CallId} {k : Call}
    (hcalls : w'.calls = Function.update w.calls c k) (hk : ∀ channel stop, k ≠ .initializing channel stop)
    (hkeys : w'.keys = w.keys) (hnext : w'.nextChannel = w.nextChannel) : KeysMoves w a w' :=
  .kept hkeys hnext (initializing_of_update hcalls hk)

theorem resetSession_keys (w : World) :
    w.resetSession.keys = w.keys ∧ w.resetSession.nextChannel = w.nextChannel := by
  rw [World.resetSession, World.abortWatcher]
  split <;> exact ⟨rfl, rfl⟩

theorem spawnSessionWatchdog_keys (w : World) :
    w.spawnSessionWatchdog.keys = w.keys ∧ w.spawnSessionWatchdog.nextChannel = w.nextChannel := by
  unfold World.spawnSessionWatchdog
  split <;> exact ⟨rfl, rfl⟩

theorem initializeReturned_keys (w : World) (c : CallId) (keysRx : KeysChannel) (stop : StopId) (ok : Bool) :
    (w.initializeReturned c keysRx stop ok).keys = w.keys ∧
      (w.initializeReturned c keysRx stop ok).nextChannel = w.nextChannel := by
  cases ok with
  | false => exact ⟨rfl, rfl⟩
  | true => exact spawnSessionWatchdog_keys { w with
      inner := { w.inner with session := some (.initialized ⟨keysRx, stop, w.initialized + 1⟩) }
      initialized := w.initialized + 1 }

theorem keysMoves_of_step {w w' : World} {a : Action} (hs : step w a = some w') : KeysMoves w a w' := by
  have hreset := resetSession_keys w
  cases a <;> simp only [SessionManager.step] at hs
  case initializeSession c keys =>
    split at hs <;> cases hs
    unfold World.initializeSession
    split
    · exact .of_call rfl (by simp) rfl rfl
    · cases keys with
      | rx channel => exact .of_call rfl (by simp) rfl rfl
      | keys data =>
        refine .opened c data rfl rfl rfl fun c' channel stop h => ?_
        rcases call_of_update rfl h with ⟨-, heq⟩ | ⟨-, heq⟩
        · exact .inr (Call.initializing.inj heq).1.symm
        · exact .inl heq
  case initializeReturned c ok =>
    split at hs <;> cases hs
    rename_i keysRx stop hc
    obtain ⟨hkeys, hnext⟩ := initializeReturned_keys w c keysRx stop ok
    exact .of_call (calls_initializeReturned w c keysRx stop ok) (by simp) hkeys hnext
  case launchSession c =>
    split at hs <;> cases hs
    rw [World.launchSession]
    split <;> exact .of_call rfl (by simp) rfl rfl
  case launchReturned c ok =>
    split at hs <;> cases hs
    exact .of_call rfl (by simp) rfl rfl
  case launchLock c =>
    split at hs <;> cases hs
    rename_i s ok hl hc
    refine .of_call (calls_launchLock w c s ok) (by simp) ?_ ?_
    · cases ok with
      | true => rfl
      | false => exact hreset.1
    · cases ok with
      | true => rfl
      | false => exact hreset.2
  case setStreamContext c v a =>
    split at hs <;> cases hs
    rw [World.setStreamContext]
    split <;> exact .of_call rfl (by simp) rfl rfl
  case startSession c =>
    split at hs <;> cases hs
    rw [World.startSession]
    split
    · refine .of_call rfl ?_ rfl rfl
      split <;> simp
    all_goals exact .of_call rfl (by simp) rfl rfl
  case startLock c =>
    split at hs <;> cases hs
    exact .of_call rfl (by simp) rfl rfl
  case startReturned c ok =>
    split at hs <;> cases hs
    rename_i s v a stop hc
    refine .of_call (calls_startReturned w c s ok) (by simp) ?_ ?_
    · cases ok with
      | true => rfl
      | false => exact hreset.1
    · cases ok with
      | true => rfl
      | false => exact hreset.2
  case stopSession c =>
    split at hs <;> cases hs
    rw [World.stopSession]
    split
    · exact .of_call rfl (by simp) rfl rfl
    · exact .of_call (calls_reset w c _) (by simp) hreset.1 hreset.2
  case stopTrigger c =>
    split at hs <;> cases hs
    exact .of_call rfl (by simp) rfl rfl
  case stopReturned c complete =>
    split at hs <;> cases hs
    exact .of_call rfl (by simp) rfl rfl
  case updateKeys c keys =>
    split at hs <;> cases hs
    rw [World.updateKeys]
    split
    · exact .of_call rfl (by simp) rfl rfl
    · split
      · exact .replaced c keys _ rfl rfl rfl (initializing_of_update rfl (by simp))
      · exact .of_call rfl (by simp) rfl rfl
  case cancel c =>
    split at hs <;> cases hs
    exact .of_call rfl (by simp) rfl rfl
  case componentTrigger stop reason =>
    split at hs <;> cases hs
    exact .kept rfl rfl fun _ _ _ => id
  case shutdownTrigger =>
    cases hs
    exact .kept rfl rfl fun _ _ _ => id
  case watchdogWake i =>
    split at hs
    · split at hs
      · cases hs; exact .kept rfl rfl fun _ _ _ => id
      · split at hs <;> cases hs
        exact .kept rfl rfl fun _ _ _ => id
    · cases hs
  case watchdogQueue i =>
    split at hs <;> cases hs
    exact .kept rfl rfl fun _ _ _ => id
  case watchdogLock i =>
    split at hs <;> cases hs
    all_goals
      refine .kept hreset.1 hreset.2 fun c channel stop h => ?_
      rwa [← congrFun (resetSession_others w).2.1 c]

theorem holds_of_step {w w' : World} {a : Action} (hs : step w a = some w') {channel : KeysChannel}
    (h : HoldsChannel w' channel) : HoldsChannel w channel ∨
      (channel = w.nextChannel ∧ w'.nextChannel ≠ w.nextChannel ∧
        ∃ c data, a = .initializeSession c (.keys data)) := by
  cases h with
  | present h =>
    obtain (h | h) | ⟨c, hc, -⟩ := present_of_step hs h
    · exact .inl (.present h)
    · exact .inl (.taken h)
    · exact .inl (.initializing hc)
  | taken h => exact .inl ((taken_of_step hs h).elim .present .taken)
  | initializing h =>
    cases keysMoves_of_step hs with
    | kept hkeys hnext hcalls => exact .inl (.initializing (hcalls _ _ _ h))
    | opened c data ha hkeys hnext hcalls =>
      exact (hcalls _ _ _ h).imp .initializing fun heq => ⟨heq, by simp [hnext], c, data, ha⟩
    | replaced c data tx ha hkeys hnext hcalls => exact .inl (.initializing (hcalls _ _ _ h))

end Moonshine.Proof.SessionManager
