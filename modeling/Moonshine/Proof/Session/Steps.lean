import Moonshine.Proof.Session.Coherence

/-!
# What a step does to the state of the session manager

Whatever the calls and the watchdogs do, a step does one of five things to
`SessionManagerInner` (`Effect`), and a call that has returned or was dropped
stays so (`calls_of_ended`).
-/

namespace Moonshine.Proof.SessionManager

open Moonshine.Framework Moonshine.Impl Moonshine.Impl.SessionManager

/-- A call that runs no more. -/
def Ended (k : Call) : Prop := k = .dropped ∨ ∃ ok, k = .returned ok

/-- The session that a call is about to put back into the state. -/
def putsBack (w : World) : Action → Option Session
  | .launchLock c => match w.calls c with
    | .launchLocking session true => some session
    | _ => none
  | .startReturned c true => match w.calls c with
    | .starting session .. => some session
    | _ => none
  | _ => none

/-- What a step does to the session, the keys sender and the `ShutdownManager`
of the state. -/
inductive Effect (w : World) (a : Action) (w' : World) : Prop
  | kept (hsession : w'.inner.session = w.inner.session) (hkeys : w'.inner.keysTx = w.inner.keysTx)
      (hstop : w'.inner.stop = w.inner.stop) (hnext : w'.nextStop = w.nextStop)
      (hini : w'.initialized = w.initialized)
  | removed (hsession : w'.inner.session = none) (hkeys : w'.inner.keysTx = w.inner.keysTx)
      (hstop : w'.inner.stop = w.inner.stop) (hnext : w'.nextStop = w.nextStop)
      (hini : w'.initialized = w.initialized)
  /-- A call puts back the session it has taken. -/
  | put (st : SessionState) (hputs : putsBack w a = some st.session)
      (hsession : w'.inner.session = some st) (hkeys : w'.inner.keysTx = w.inner.keysTx)
      (hstop : w'.inner.stop = w.inner.stop) (hnext : w'.nextStop = w.nextStop)
      (hini : w'.initialized = w.initialized)
  | reset (hlock : w.lock = none ∨ ∃ c s v a stop, w.calls c = .starting s v a stop)
      (hsession : w'.inner.session = none) (hkeys : w'.inner.keysTx = none)
      (hstop : w'.inner.stop = w.nextStop) (hnext : w'.nextStop = w.nextStop + 1)
      (hini : w'.initialized = w.initialized)
  | installed (c : CallId) (keysRx : KeysChannel) (stop : StopId)
      (hcall : w.calls c = .initializing keysRx stop) (hreturned : w'.calls c = .returned true)
      (hsession : w'.inner.session = some (.initialized ⟨keysRx, stop, w.initialized + 1⟩))
      (hkeys : w'.inner.keysTx = some keysRx) (hstop : w'.inner.stop = w.inner.stop)
      (hnext : w'.nextStop = w.nextStop) (hini : w'.initialized = w.initialized + 1)

theorem resetSession_others (w : World) : w.resetSession.initialized = w.initialized ∧
    w.resetSession.calls = w.calls ∧ w.resetSession.lock = w.lock := by
  rw [World.resetSession, World.abortWatcher]
  split <;> exact ⟨rfl, rfl, rfl⟩

theorem spawnSessionWatchdog_others (w : World) :
    w.spawnSessionWatchdog.inner.session = w.inner.session ∧
    w.spawnSessionWatchdog.inner.stop = w.inner.stop ∧ w.spawnSessionWatchdog.nextStop = w.nextStop ∧
    w.spawnSessionWatchdog.initialized = w.initialized ∧ w.spawnSessionWatchdog.calls = w.calls := by
  unfold World.spawnSessionWatchdog
  split <;> exact ⟨rfl, rfl, rfl, rfl, rfl⟩

theorem calls_initializeReturned (w : World) (c : CallId) (keysRx : KeysChannel) (stop : StopId) (ok : Bool) :
    (w.initializeReturned c keysRx stop ok).calls = Function.update w.calls c (.returned ok) := by
  cases ok with
  | false => rfl
  | true =>
    obtain ⟨-, -, -, -, hcalls⟩ := spawnSessionWatchdog_others { w with
      inner := { w.inner with session := some (.initialized ⟨keysRx, stop, w.initialized + 1⟩) }
      initialized := w.initialized + 1 }
    exact congrArg (Function.update · c _) hcalls

theorem calls_reset (w : World) (c : CallId) (k : Call) :
    (w.resetSession.setCall c k).calls = Function.update w.calls c k := by
  obtain ⟨-, hcalls, -⟩ := resetSession_others w
  show Function.update w.resetSession.calls c k = Function.update w.calls c k
  rw [hcalls]

theorem calls_launchLock (w : World) (c : CallId) (session : Session) (ok : Bool) :
    (w.launchLock c session ok).calls = Function.update w.calls c (.returned ok) := by
  cases ok with
  | false => exact calls_reset w c _
  | true => rfl

theorem calls_startReturned (w : World) (c : CallId) (session : Session) (ok : Bool) :
    (w.startReturned c session ok).calls = Function.update w.calls c (.returned ok) := by
  cases ok with
  | false => exact calls_reset w c _
  | true => rfl

theorem effect_of_step {w w' : World} {a : Action} (hs : step w a = some w') : Effect w a w' := by
  cases a <;> simp only [SessionManager.step] at hs
  case initializeSession c keys =>
    split at hs <;> cases hs
    unfold World.initializeSession
    split
    · exact .kept rfl rfl rfl rfl rfl
    · cases keys <;> exact .kept rfl rfl rfl rfl rfl
  case initializeReturned c ok =>
    split at hs <;> cases hs
    rename_i keysRx stop hc
    cases ok with
    | true =>
      obtain ⟨hsession, hstop, hnext, hini, -⟩ := spawnSessionWatchdog_others { w with
        inner := { w.inner with session := some (.initialized ⟨keysRx, stop, w.initialized + 1⟩) }
        initialized := w.initialized + 1 }
      exact .installed c keysRx stop hc (Function.update_self ..) hsession rfl hstop hnext hini
    | false => exact .kept rfl rfl rfl rfl rfl
  case launchSession c =>
    split at hs <;> cases hs
    rw [World.launchSession]
    split
    · exact .removed rfl rfl rfl rfl rfl
    all_goals exact .kept rfl rfl rfl rfl rfl
  case launchReturned c ok =>
    split at hs <;> cases hs
    exact .kept rfl rfl rfl rfl rfl
  case launchLock c =>
    split at hs <;> cases hs
    rename_i s ok hl hc
    cases ok with
    | true => exact .put (.launched s) (by rw [putsBack, hc]; rfl) rfl rfl rfl rfl rfl
    | false => exact .reset (.inl hl) rfl rfl rfl rfl (resetSession_others w).1
  case setStreamContext c v a =>
    split at hs <;> cases hs
    rw [World.setStreamContext]
    split <;> exact .kept (by simp_all [World.setCall]) rfl rfl rfl rfl
  case startSession c =>
    split at hs <;> cases hs
    rw [World.startSession]
    split
    · exact .removed rfl rfl rfl rfl rfl
    all_goals exact .kept (by simp_all) rfl rfl rfl rfl
  case startLock c =>
    split at hs <;> cases hs
    exact .kept rfl rfl rfl rfl rfl
  case startReturned c ok =>
    split at hs <;> cases hs
    rename_i s v a stop hc
    cases ok with
    | true => exact .put (.active s) (by rw [putsBack, hc]; rfl) rfl rfl rfl rfl rfl
    | false => exact .reset (.inr ⟨c, s, v, a, stop, hc⟩) rfl rfl rfl rfl (resetSession_others w).1
  case stopSession c =>
    split at hs <;> cases hs
    rw [World.stopSession]
    split
    · exact .kept rfl rfl rfl rfl rfl
    · exact .reset (.inl ‹_›) rfl rfl rfl rfl (resetSession_others w).1
  case stopTrigger c =>
    split at hs <;> cases hs
    exact .kept rfl rfl rfl rfl rfl
  case stopReturned c complete =>
    split at hs <;> cases hs
    exact .kept rfl rfl rfl rfl rfl
  case updateKeys c keys =>
    split at hs <;> cases hs
    rw [World.updateKeys]
    split
    · exact .kept rfl rfl rfl rfl rfl
    · split <;> exact .kept rfl rfl rfl rfl rfl
  case cancel c =>
    split at hs <;> cases hs
    exact .kept rfl rfl rfl rfl rfl
  case componentTrigger stop reason =>
    split at hs <;> cases hs
    exact .kept rfl rfl rfl rfl rfl
  case shutdownTrigger =>
    cases hs
    exact .kept rfl rfl rfl rfl rfl
  case watchdogWake i =>
    split at hs
    · split at hs
      · cases hs; exact .kept rfl rfl rfl rfl rfl
      · split at hs <;> cases hs
        exact .kept rfl rfl rfl rfl rfl
    · cases hs
  case watchdogQueue i =>
    split at hs <;> cases hs
    exact .kept rfl rfl rfl rfl rfl
  case watchdogLock i =>
    split at hs <;> cases hs
    all_goals exact .reset (.inl ‹_›) rfl rfl rfl rfl (resetSession_others w).1

/-- The session that a call may still put back into the state: it has taken it out, and its
`launch()` has not failed. -/
def Call.returning : Call → Option Session
  | .launching s | .launchLocking s true | .startLocking s .. | .starting s .. => some s
  | _ => none

def Returning (w : World) (s : Session) : Prop := ∃ c, Call.returning (w.calls c) = some s

theorem taken_of_returning {k : Call} {s : Session} (h : Call.returning k = some s) : k.taken = some s := by
  cases k with
  | launching | startLocking | starting => exact h
  | launchLocking session ok => cases ok <;> first | exact h | cases h
  | notStarted | initializing | stopTriggering | stopping | returned | dropped => cases h

/-- A step moves at most one call, which was still running, and that call takes
out of the state no other session than the one that is there. -/
def Moves (w w' : World) : Prop :=
  w'.calls = w.calls ∨ ∃ c k, w'.calls = Function.update w.calls c k ∧ ¬ Ended (w.calls c) ∧
    ∀ s, k.taken = some s → Present w s ∨ (w.calls c).taken = some s ∧
      (Call.returning k = some s → Call.returning (w.calls c) = some s)

theorem Moves.of_call {w w' : World} {c : CallId} {x k : Call} (hc : w.calls c = x)
    (hcalls : w'.calls = Function.update w.calls c k) (hx : ¬ Ended x)
    (htaken : ∀ s, k.taken = some s → Present w s ∨ x.taken = some s ∧
      (Call.returning k = some s → Call.returning x = some s)) : Moves w w' :=
  .inr ⟨c, k, hcalls, hc ▸ hx, hc ▸ htaken⟩

theorem moves_of_step {w w' : World} {a : Action} (hs : step w a = some w') : Moves w w' := by
  cases a <;> simp only [SessionManager.step] at hs
  case initializeSession c keys =>
    split at hs <;> cases hs
    unfold World.initializeSession
    split
    · exact .of_call ‹_› rfl (by simp [Ended]) (by simp [Call.taken])
    · cases keys <;> exact .of_call ‹_› rfl (by simp [Ended]) (by simp [Call.taken])
  case initializeReturned c ok =>
    split at hs <;> cases hs
    rename_i keysRx stop hc
    exact .of_call hc (calls_initializeReturned w c keysRx stop ok) (by simp [Ended]) (by simp [Call.taken])
  case launchSession c =>
    split at hs <;> cases hs
    rw [World.launchSession]
    split
    next s hsession =>
      refine .of_call ‹_› rfl (by simp [Ended]) fun t ht => .inl ?_
      rw [Present, hsession, ← ht]
      rfl
    all_goals exact .of_call ‹_› rfl (by simp [Ended]) (by simp [Call.taken])
  case launchReturned c ok =>
    split at hs <;> cases hs
    rename_i hc
    exact .of_call hc rfl (by simp [Ended]) fun s h => .inr ⟨h, fun _ => h⟩
  case launchLock c =>
    split at hs <;> cases hs
    rename_i s ok hl hc
    exact .of_call hc (calls_launchLock w c s ok) (by simp [Ended]) (by simp [Call.taken])
  case setStreamContext c v a =>
    split at hs <;> cases hs
    rw [World.setStreamContext]
    split <;> exact .of_call ‹_› rfl (by simp [Ended]) (by simp [Call.taken])
  case startSession c =>
    split at hs <;> cases hs
    rw [World.startSession]
    split
    next launched hsession =>
      refine .of_call ‹_› rfl (by simp [Ended]) fun t ht => .inl ?_
      rw [Present, hsession]
      split at ht
      · exact ht
      · cases ht
    all_goals exact .of_call ‹_› rfl (by simp [Ended]) (by simp [Call.taken])
  case startLock c =>
    split at hs <;> cases hs
    rename_i hc
    exact .of_call hc rfl (by simp [Ended]) fun s h => .inr ⟨h, fun _ => h⟩
  case startReturned c ok =>
    split at hs <;> cases hs
    rename_i s v a stop hc
    exact .of_call hc (calls_startReturned w c s ok) (by simp [Ended]) (by simp [Call.taken])
  case stopSession c =>
    split at hs <;> cases hs
    rw [World.stopSession]
    split
    · exact .of_call ‹_› rfl (by simp [Ended]) (by simp [Call.taken])
    · exact .of_call ‹_› (calls_reset w c _) (by simp [Ended]) (by simp [Call.taken])
  case stopTrigger c =>
    split at hs <;> cases hs
    exact .of_call ‹_› rfl (by simp [Ended]) (by simp [Call.taken])
  case stopReturned c complete =>
    split at hs <;> cases hs
    exact .of_call ‹_› rfl (by simp [Ended]) (by simp [Call.taken])
  case updateKeys c keys =>
    split at hs <;> cases hs
    rw [World.updateKeys]
    split
    · exact .of_call ‹_› rfl (by simp [Ended]) (by simp [Call.taken])
    · split <;> exact .of_call ‹_› rfl (by simp [Ended]) (by simp [Call.taken])
  case cancel c =>
    split at hs <;> cases hs
    rename_i hnew hreturned hdropped
    refine .inr ⟨c, .dropped, rfl, ?_, by simp [Call.taken]⟩
    rintro (h | ⟨ok, h⟩)
    · exact hdropped h
    · exact hreturned ok h
  case componentTrigger stop reason =>
    split at hs <;> cases hs
    exact .inl rfl
  case shutdownTrigger =>
    cases hs
    exact .inl rfl
  case watchdogWake i =>
    split at hs
    · split at hs
      · cases hs; exact .inl rfl
      · split at hs <;> cases hs
        exact .inl rfl
    · cases hs
  case watchdogQueue i =>
    split at hs <;> cases hs
    exact .inl rfl
  case watchdogLock i =>
    split at hs <;> cases hs
    all_goals exact .inl (resetSession_others w).2.1

/-! ## Where a session comes from -/

theorem returning_of_putsBack {w : World} {a : Action} {s : Session} (h : putsBack w a = some s) :
    Returning w s := by
  unfold putsBack at h
  split at h
  next c =>
    split at h
    next s' hc => exact ⟨c, hc ▸ h⟩
    next => cases h
  next c =>
    split at h
    next s' v a stop hc => exact ⟨c, hc ▸ h⟩
    next => cases h
  next => cases h

/-- A session that was in the state or with a call before, or was initialized by the step. -/
theorem present_of_step {w w' : World} {a : Action} (hs : step w a = some w') {s : Session}
    (h : Present w' s) : (Present w s ∨ Taken w s) ∨ ∃ c, w.calls c = .initializing s.keysRx s.stop ∧
      w'.inner.keysTx = some s.keysRx ∧ w'.inner.stop = w.inner.stop ∧ w'.nextStop = w.nextStop := by
  cases effect_of_step hs with
  | kept hsession =>
    rw [Present, hsession] at h
    exact .inl (.inl h)
  | removed hsession => exact absurd h (by simp [Present, hsession])
  | put st hputs hsession =>
    rw [Present, hsession, Option.map_some, Option.some.injEq] at h
    exact .inl (.inr ((returning_of_putsBack (h ▸ hputs)).imp fun _ => taken_of_returning))
  | reset hlock hsession => exact absurd h (by simp [Present, hsession])
  | installed c keysRx stop hcall hreturned hsession hkeys hstop hnext =>
    rw [Present, hsession, Option.map_some, Option.some.injEq] at h
    rw [← h]
    exact .inr ⟨c, hcall, hkeys, hstop, hnext⟩

theorem taken_of_step {w w' : World} {a : Action} (hs : step w a = some w') {s : Session}
    (h : Taken w' s) : Present w s ∨ Taken w s := by
  obtain ⟨c, hc⟩ := h
  rcases moves_of_step hs with heq | ⟨c', k, heq, -, hk⟩
  · exact .inr ⟨c, heq ▸ hc⟩
  · rw [heq] at hc
    by_cases hcc : c = c'
    · rw [hcc, Function.update_self] at hc
      exact (hk s hc).imp id fun h => ⟨c', h.1⟩
    · rw [Function.update_of_ne hcc] at hc
      exact .inr ⟨c, hc⟩

theorem returning_of_step {w w' : World} {a : Action} (hs : step w a = some w') {s : Session}
    (h : Returning w' s) : Present w s ∨ Returning w s := by
  obtain ⟨c, hc⟩ := h
  rcases moves_of_step hs with heq | ⟨c', k, heq, -, hk⟩
  · exact .inr ⟨c, heq ▸ hc⟩
  · rw [heq] at hc
    by_cases hcc : c = c'
    · rw [hcc, Function.update_self] at hc
      exact (hk s (taken_of_returning hc)).imp id fun h => ⟨c', h.2 hc⟩
    · rw [Function.update_of_ne hcc] at hc
      exact .inr ⟨c, hc⟩

/-! ## The lock -/

/-- A call that awaits under the lock. -/
def Holding : Call → Prop
  | .initializing .. | .starting .. => True
  | _ => False

/-- What a step does to the lock. -/
inductive LockMoves (w w' : World) : Prop
  | kept (hlock : w'.lock = w.lock) (hcalls : ∀ c, Holding (w'.calls c) → w'.calls c = w.calls c)
  | acquired (c : CallId) (hfree : w.lock = none) (hlock : w'.lock = some c)
      (hcalls : ∀ c' ≠ c, w'.calls c' = w.calls c')
      (hinit : ∀ keysRx stop, w'.calls c = .initializing keysRx stop →
        w'.inner.keysTx = none ∧ stop = w'.inner.stop)
  | released (c : CallId) (hheld : Holding (w.calls c) ∨ w.lock = some c)
      (hcalls : ∀ c', Holding (w'.calls c') → c' ≠ c ∧ w'.calls c' = w.calls c')

theorem holding_of_update {calls : CallId → Call} {c : CallId} {k : Call} (hk : ¬ Holding k) (c' : CallId)
    (h : Holding (Function.update calls c k c')) : c' ≠ c ∧ Function.update calls c k c' = calls c' := by
  by_cases hc : c' = c
  · rw [hc, Function.update_self] at h
    exact absurd h hk
  · exact ⟨hc, Function.update_of_ne hc ..⟩

theorem LockMoves.of_call {w w' : World} {c : CallId} {k : Call}
    (hcalls : w'.calls = Function.update w.calls c k) (hlock : w'.lock = w.lock) (hk : ¬ Holding k) :
    LockMoves w w' := by
  refine .kept hlock fun c' h => ?_
  rw [hcalls] at h ⊢
  exact (holding_of_update hk c' h).2

theorem lockMoves_of_step {w w' : World} {a : Action} (hs : step w a = some w') : LockMoves w w' := by
  cases a <;> simp only [SessionManager.step] at hs
  case initializeSession c keys =>
    split at hs <;> cases hs
    unfold World.initializeSession
    split
    · exact .of_call rfl rfl id
    next hidle =>
      cases keys with
      | rx channel => exact .of_call rfl rfl id
      | keys data =>
        have hkeys : w.inner.keysTx = none := by
          simp only [Bool.or_eq_true, not_or, Bool.not_eq_true, Option.isSome_eq_false_iff,
            Option.isNone_iff_eq_none] at hidle
          exact hidle.2
        refine .acquired c ‹_› rfl (fun c' hc => Function.update_of_ne hc ..) fun keysRx stop hc => ?_
        have heq : Call.initializing w.nextChannel w.inner.stop = .initializing keysRx stop :=
          (Function.update_self ..).symm.trans hc
        exact ⟨hkeys, (Call.initializing.inj heq).2.symm⟩
  case initializeReturned c ok =>
    split at hs <;> cases hs
    rename_i keysRx stop hc
    refine .released c (.inl (hc ▸ trivial)) fun c' h => ?_
    rw [calls_initializeReturned] at h ⊢
    exact holding_of_update id c' h
  case launchSession c =>
    split at hs <;> cases hs
    rw [World.launchSession]
    split <;> exact .of_call rfl rfl id
  case launchReturned c ok =>
    split at hs <;> cases hs
    exact .of_call rfl rfl id
  case launchLock c =>
    split at hs <;> cases hs
    rename_i s ok hl hc
    cases ok with
    | true => exact .of_call rfl rfl id
    | false => exact .of_call (calls_reset w c _) (resetSession_others w).2.2 id
  case setStreamContext c v a =>
    split at hs <;> cases hs
    rw [World.setStreamContext]
    split <;> exact .of_call rfl rfl id
  case startSession c =>
    split at hs <;> cases hs
    rw [World.startSession]
    split
    next launched hsession =>
      refine .of_call rfl rfl ?_
      split <;> exact id
    all_goals exact .of_call rfl rfl id
  case startLock c =>
    split at hs <;> cases hs
    refine .acquired c ‹_› rfl (fun c' hc => Function.update_of_ne hc ..) fun keysRx stop hc => ?_
    exact absurd ((Function.update_self ..).symm.trans hc) (by simp)
  case startReturned c ok =>
    split at hs <;> cases hs
    rename_i s v a stop hc
    refine .released c (.inl (hc ▸ trivial)) fun c' h => ?_
    rw [calls_startReturned] at h ⊢
    exact holding_of_update id c' h
  case stopSession c =>
    split at hs <;> cases hs
    rw [World.stopSession]
    split
    · exact .of_call rfl rfl id
    · exact .of_call (calls_reset w c _) (resetSession_others w).2.2 id
  case stopTrigger c =>
    split at hs <;> cases hs
    exact .of_call rfl rfl id
  case stopReturned c complete =>
    split at hs <;> cases hs
    exact .of_call rfl rfl id
  case updateKeys c keys =>
    split at hs <;> cases hs
    rw [World.updateKeys]
    split
    · exact .of_call rfl rfl id
    · split <;> exact .of_call rfl rfl id
  case cancel c =>
    split at hs <;> cases hs
    by_cases hl : w.lock = some c
    · exact .released c (.inr hl) fun c' h => holding_of_update id c' h
    · exact .of_call rfl (if_neg hl) id
  case componentTrigger stop reason =>
    split at hs <;> cases hs
    exact .kept rfl fun _ _ => rfl
  case shutdownTrigger =>
    cases hs
    exact .kept rfl fun _ _ => rfl
  case watchdogWake i =>
    split at hs
    · split at hs
      · cases hs; exact .kept rfl fun _ _ => rfl
      · split at hs <;> cases hs
        exact .kept rfl fun _ _ => rfl
    · cases hs
  case watchdogQueue i =>
    split at hs <;> cases hs
    exact .kept rfl fun _ _ => rfl
  case watchdogLock i =>
    obtain ⟨-, hcalls, hlock⟩ := resetSession_others w
    split at hs <;> cases hs
    all_goals exact .kept hlock fun c _ => congrFun hcalls c

theorem holding_step {w w' : World} {a : Action} (h : ∀ c, Holding (w.calls c) → w.lock = some c)
    (hs : step w a = some w') (c : CallId) (hc : Holding (w'.calls c)) : w'.lock = some c := by
  cases lockMoves_of_step hs with
  | kept hlock hcalls => rw [hlock, h c (hcalls c hc ▸ hc)]
  | acquired c' hfree hlock hcalls hinit =>
    by_cases hcc : c = c'
    · rw [hlock, hcc]
    · rw [hcalls c hcc] at hc
      rw [hfree] at h
      exact absurd (h c hc) (by simp)
  | released c' hheld hcalls =>
    obtain ⟨hne, heq⟩ := hcalls c hc
    have hlock := h c (heq ▸ hc)
    rcases hheld with hheld | hheld
    · exact absurd (Option.some.inj (hlock.symm.trans (h c' hheld))) hne
    · exact absurd (Option.some.inj (hlock.symm.trans hheld)) hne

/-- A call that has ended stays so. -/
theorem calls_of_ended {w w' : World} {a : Action} (hs : step w a = some w') {c : CallId}
    (hc : Ended (w.calls c)) : w'.calls c = w.calls c := by
  rcases moves_of_step hs with heq | ⟨c', k, heq, hrunning, -⟩
  · rw [heq]
  · rw [heq, Function.update_of_ne]
    rintro rfl
    exact hrunning hc

end Moonshine.Proof.SessionManager
