import Moonshine.Proof.Session.Steps

/-!
# Whether a stop is final

After `stop_session` has returned `Ok`, the state should hold no session that
was initialized before it (`Final`). `launch_session` and `start_session` keep
the session outside the state while they run: a stop that gets the lock then does
not find it there, and they put it back. Where no call has a session to put back when
a stop gets the lock, nothing else brings back a session that the stop has seen gone;
where one has, the stop and the call can go on such that it does (`stop_final`).
-/

namespace Moonshine.Proof.SessionManager

open Moonshine.Framework Moonshine.Impl Moonshine.Impl.SessionManager

/-- The session manager, with how many sessions were initialized when each
`stop_session` got the lock. -/
structure Watched where
  world : World
  stops : CallId → Option Nat

def Watched.new : Watched := ⟨World.new, fun _ => none⟩

def stopCall : Action → Option CallId
  | .stopSession c => some c
  | _ => none

def watch (m : Watched) (a : Action) : Option Watched :=
  (step m.world a).map fun w => ⟨w, match stopCall a with
    | some c => Function.update m.stops c (some m.world.initialized)
    | none => m.stops⟩

/-- No session that was initialized before a stop that has returned `Ok` is in
the state. -/
def Final (m : Watched) : Prop :=
  ∀ c n, m.stops c = some n → m.world.calls c = .returned true →
    ∀ s, Present m.world s → n < s.number

/-- A stop gets the lock only while no call has a session that it may still put back. -/
def StopsNoneReturning (m : Watched) (a : Action) (_ : Watched) : Prop :=
  (stopCall a).isSome → ∀ s, ¬ Returning m.world s

/-- The session was initialized after every stop. -/
def LaterThanStops (m : Watched) (s : Session) : Prop := ∀ c n, m.stops c = some n → n < s.number

structure Cleared (m : Watched) : Prop where
  count : ∀ c n, m.stops c = some n → n ≤ m.world.initialized
  later : ∀ s, Present m.world s ∨ Returning m.world s → LaterThanStops m s

theorem Cleared.final {m : Watched} (h : Cleared m) : Final m := fun c n hn _ s hs => h.later s (.inl hs) c n hn

theorem Cleared.new : Cleared Watched.new :=
  ⟨nofun, fun _ _ => nofun⟩

theorem not_present_of_none {w : World} (h : w.inner.session = none) (s : Session) : ¬ Present w s := by
  simp [Present, h]

/-- A stop that gets the lock leaves no session in the state, and moves no other call. -/
theorem stopSession_step {w w' : World} {c : CallId} (hs : step w (.stopSession c) = some w') :
    w'.inner.session = none ∧ w'.lock = none ∧ w'.initialized = w.initialized ∧ w.calls c = .notStarted ∧
      ∃ k, w'.calls = Function.update w.calls c k ∧
        (k = .returned true ∨ ∃ stop, k = .stopTriggering stop) := by
  simp only [SessionManager.step] at hs
  split at hs
  next hlock hc =>
    cases hs
    rw [World.stopSession]
    split
    next hnone => exact ⟨hnone, hlock, rfl, hc, _, rfl, .inl rfl⟩
    next =>
      obtain ⟨hini, -, hlock'⟩ := resetSession_others w
      exact ⟨rfl, hlock'.trans hlock, hini, hc, _, calls_reset w c _, .inr ⟨_, rfl⟩⟩
  next => cases hs

theorem not_returning_of_stop {w w' : World} {c : CallId} (hs : step w (.stopSession c) = some w') {s : Session}
    (h : ¬ Returning w s) : ¬ Returning w' s := by
  obtain ⟨-, -, -, -, k, hcalls, hk⟩ := stopSession_step hs
  rintro ⟨d, hd⟩
  rw [hcalls] at hd
  by_cases hdc : d = c
  · rw [hdc, Function.update_self] at hd
    rcases hk with rfl | ⟨stop, rfl⟩ <;> cases hd
  · rw [Function.update_of_ne hdc] at hd
    exact h ⟨d, hd⟩

theorem initialized_le {w w' : World} {a : Action} (hs : step w a = some w') :
    w.initialized ≤ w'.initialized := by
  cases effect_of_step hs <;> omega

/-- A session in the state was there or returning before, or is the next of those initialized. -/
theorem present_or_next {w w' : World} {a : Action} (hs : step w a = some w') {s : Session} (h : Present w' s) :
    (Present w s ∨ Returning w s) ∨ s.number = w.initialized + 1 ∧ w'.initialized = w.initialized + 1 := by
  cases effect_of_step hs with
  | kept hsession =>
    rw [Present, hsession] at h
    exact .inl (.inl h)
  | removed hsession => exact absurd h (not_present_of_none hsession s)
  | put st hputs hsession =>
    rw [Present, hsession] at h
    rw [← Option.some.inj h]
    exact .inl (.inr (returning_of_putsBack hputs))
  | reset hlock hsession => exact absurd h (not_present_of_none hsession s)
  | installed c keysRx stop hc hreturned hsession hkeys hstop hnext hini =>
    rw [Present, hsession] at h
    rw [← Option.some.inj h]
    exact .inr ⟨rfl, hini⟩

theorem Cleared.step (m : Watched) (a : Action) (m' : Watched) (h : Cleared m)
    (hs : watch m a = some m') (hnone : StopsNoneReturning m a m') : Cleared m' := by
  obtain ⟨w', hw, rfl⟩ := Option.map_eq_some_iff.mp hs
  have hle := initialized_le hw
  have hcount (c : CallId) (n : Nat) (hn : m.stops c = some n) : n ≤ w'.initialized :=
    (h.count c n hn).trans hle
  cases a with
  | stopSession c =>
    refine ⟨fun d n hn => ?_, fun s hs => ?_⟩
    · by_cases hd : d = c
      · simp only [hd, stopCall, Function.update_self, Option.some.injEq] at hn
        exact hn ▸ hle
      · simp only [stopCall, ne_eq, hd, not_false_eq_true, Function.update_of_ne] at hn
        exact hcount d n hn
    · rcases hs with hs | hs
      · exact absurd hs (not_present_of_none (stopSession_step hw).1 s)
      · exact absurd hs (not_returning_of_stop hw (hnone rfl s))
  | _ =>
    refine ⟨hcount, fun s hs c n hn => ?_⟩
    have hbefore : (Present m.world s ∨ Returning m.world s) ∨
        s.number = m.world.initialized + 1 ∧ w'.initialized = m.world.initialized + 1 :=
      hs.elim (present_or_next hw) fun hs => .inl (returning_of_step hw hs)
    rcases hbefore with hbefore | ⟨hnumber, -⟩
    · exact h.later s hbefore c n hn
    · rw [hnumber]
      exact Nat.lt_succ_of_le (h.count c n hn)

/-- A session is numbered by how many there were with it, and whoever awaits under the lock holds it. -/
structure Numbered (w : World) : Prop where
  number_le : ∀ s, Present w s ∨ Returning w s → s.number ≤ w.initialized
  holding : ∀ c, Holding (w.calls c) → w.lock = some c

theorem Numbered.new : Numbered World.new where
  number_le _ h := by
    rcases h with h | ⟨c, h⟩
    · cases h
    · cases h
  holding := by simp [World.new, Holding]

theorem Numbered.step (w : World) (a : Action) (w' : World) (h : Numbered w) (hs : step w a = some w') :
    Numbered w' := by
  refine ⟨fun s hsession => ?_, holding_step h.holding hs⟩
  have hbefore : (Present w s ∨ Returning w s) ∨ s.number = w.initialized + 1 ∧ w'.initialized = w.initialized + 1 :=
    hsession.elim (present_or_next hs) fun h => .inl (returning_of_step hs h)
  rcases hbefore with hbefore | ⟨hnumber, hini⟩
  · exact (h.number_le s hbefore).trans (initialized_le hs)
  · exact (hnumber.trans hini.symm).le

theorem numbered_of_exec {as : List Action} {m : Watched} (h : exec watch Watched.new as = some m) :
    Numbered m.world := by
  have hkeep (m : Watched) (a : Action) (m' : Watched) (hm : Numbered m.world) (hs : watch m a = some m') :
      Numbered m'.world := by
    obtain ⟨w', hw, rfl⟩ := Option.map_eq_some_iff.mp hs
    exact hm.step _ _ _ hw
  exact exec_inv hkeep Numbered.new h

theorem watch_of_step {m : Watched} {a : Action} {w' : World} (hs : step m.world a = some w')
    (ha : stopCall a = none) : watch m a = some ⟨w', m.stops⟩ := by
  rw [watch, hs, ha]
  rfl

/-- The stop goes on to return `Ok`. -/
theorem exec_stopReturns {m : Watched} {c : CallId}
    (hc : m.world.calls c = .returned true ∨ ∃ stop, m.world.calls c = .stopTriggering stop) :
    ∃ bs m', exec watch m bs = some m' ∧ m'.world.calls c = .returned true ∧ m'.stops = m.stops ∧
      m'.world.lock = m.world.lock ∧ ∀ d ≠ c, m'.world.calls d = m.world.calls d := by
  rcases hc with hc | ⟨stop, hc⟩
  · exact ⟨[], m, rfl, hc, rfl, rfl, fun _ _ => rfl⟩
  · have htrigger : step m.world (.stopTrigger c) =
        some ((m.world.trigger stop .userStopped).setCall c (.stopping stop)) := by
      simp only [SessionManager.step, hc]
    have hreturned : ∃ w', step ((m.world.trigger stop .userStopped).setCall c (.stopping stop)) (.stopReturned c true)
        = some w' ∧ w'.calls = Function.update (Function.update m.world.calls c (.stopping stop)) c (.returned true) ∧
        w'.lock = m.world.lock := by
      simp [SessionManager.step, World.setCall, World.trigger]
    obtain ⟨w', hw', hcalls, hlock⟩ := hreturned
    refine ⟨[.stopTrigger c, .stopReturned c true], ⟨w', m.stops⟩, ?_, ?_, rfl, hlock, fun d hd => ?_⟩
    · exact exec_cons.mpr ⟨_, watch_of_step htrigger rfl, exec_cons.mpr ⟨_, watch_of_step hw' rfl, rfl⟩⟩
    · rw [hcalls, Function.update_self]
    · rw [hcalls, Function.update_of_ne hd, Function.update_of_ne hd]

/-- A call that is not under the lock can put its session back, where the lock is free. -/
theorem exec_putBack {m : Watched} {d : CallId} {s : Session} (hlock : m.world.lock = none)
    (hholding : ¬ Holding (m.world.calls d)) (hd : Call.returning (m.world.calls d) = some s) :
    ∃ bs m', exec watch m bs = some m' ∧ Present m'.world s ∧ m'.stops = m.stops ∧
      ∀ c ≠ d, m'.world.calls c = m.world.calls c := by
  have hlaunched (m : Watched) (hlock : m.world.lock = none) (hcall : m.world.calls d = .launchLocking s true) :
      ∃ m', exec watch m [.launchLock d] = some m' ∧ Present m'.world s ∧ m'.stops = m.stops ∧
        ∀ c ≠ d, m'.world.calls c = m.world.calls c := by
    have hs : step m.world (.launchLock d) = some (m.world.launchLock d s true) := by
      simp only [SessionManager.step, hlock, hcall]
    exact ⟨⟨_, m.stops⟩, exec_cons.mpr ⟨_, watch_of_step hs rfl, rfl⟩, rfl, rfl,
      fun c hc => Function.update_of_ne hc ..⟩
  cases hcall : m.world.calls d with
  | launching session =>
    rw [hcall] at hd
    cases hd
    have hs : step m.world (.launchReturned d true) = some (m.world.setCall d (.launchLocking s true)) := by
      simp only [SessionManager.step, hcall]
    obtain ⟨m', hexec, hpresent, hstops, hcalls⟩ :=
      hlaunched ⟨m.world.setCall d (.launchLocking s true), m.stops⟩ hlock (Function.update_self ..)
    refine ⟨[.launchReturned d true, .launchLock d], m', ?_, hpresent, hstops, fun c hc => ?_⟩
    · exact exec_cons.mpr ⟨_, watch_of_step hs rfl, hexec⟩
    · exact (hcalls c hc).trans (Function.update_of_ne hc ..)
  | launchLocking session ok =>
    rw [hcall] at hd
    cases ok with
    | true =>
      cases hd
      obtain ⟨m', hexec, hrest⟩ := hlaunched m hlock hcall
      exact ⟨[.launchLock d], m', hexec, hrest⟩
    | false => cases hd
  | startLocking session video audio stop =>
    rw [hcall] at hd
    cases hd
    let w₁ : World := { m.world.setCall d (.starting s video audio stop) with lock := some d }
    have hs₁ : step m.world (.startLock d) = some w₁ := by
      simp only [SessionManager.step, hlock, hcall]
      rfl
    have hcall₁ : w₁.calls d = .starting s video audio stop := Function.update_self ..
    have hs₂ : step w₁ (.startReturned d true) = some (w₁.startReturned d s true) := by
      simp only [SessionManager.step, hcall₁]
    refine ⟨[.startLock d, .startReturned d true], ⟨w₁.startReturned d s true, m.stops⟩, ?_, rfl, rfl, fun c hc => ?_⟩
    · exact exec_cons.mpr ⟨_, watch_of_step hs₁ rfl, exec_cons.mpr ⟨_, watch_of_step hs₂ rfl, rfl⟩⟩
    · exact (Function.update_of_ne hc ..).trans (Function.update_of_ne hc ..)
  | starting =>
    rw [hcall] at hholding
    exact absurd trivial hholding
  | notStarted | initializing | stopTriggering | stopping | returned | dropped =>
    rw [hcall] at hd
    cases hd

/-- A stop that gets the lock while a call has a session is not final, if the two go on well. -/
theorem not_final_of_returning {m m' : Watched} {c : CallId} (hm : Numbered m.world)
    (hs : watch m (.stopSession c) = some m') {s : Session} (h : Returning m.world s) :
    ∃ bs m'', exec watch m' bs = some m'' ∧ ¬ Final m'' := by
  obtain ⟨w', hw, rfl⟩ := Option.map_eq_some_iff.mp hs
  obtain ⟨hnone, hlock, hini, hc, k, hcalls, hk⟩ := stopSession_step hw
  obtain ⟨d, hd⟩ := h
  have hdc : d ≠ c := by
    rintro rfl
    rw [hc] at hd
    cases hd
  have hfree : m.world.lock = none := by
    simp only [SessionManager.step] at hw
    split at hw
    · assumption
    · cases hw
  let m' : Watched := ⟨w', Function.update m.stops c (some m.world.initialized)⟩
  have hstop : m'.world.calls c = .returned true ∨ ∃ stop, m'.world.calls c = .stopTriggering stop := by
    show w'.calls c = _ ∨ ∃ stop, w'.calls c = _
    rw [hcalls, Function.update_self]
    exact hk
  obtain ⟨bs, m₁, hbs, hreturned, hstops, hlock₁, hcalls₁⟩ := exec_stopReturns hstop
  have hd₁ : m₁.world.calls d = m.world.calls d := by
    rw [hcalls₁ d hdc]
    show w'.calls d = _
    rw [hcalls, Function.update_of_ne hdc]
  have hholding : ¬ Holding (m₁.world.calls d) := by
    rw [hd₁]
    intro hh
    cases hfree.symm.trans (hm.holding d hh)
  obtain ⟨bs', m₂, hbs', hpresent, hstops₂, hcalls₂⟩ := exec_putBack (hlock₁.trans hlock) hholding (hd₁ ▸ hd)
  refine ⟨bs ++ bs', m₂, exec_append.mpr ⟨_, hbs, hbs'⟩, fun hfinal => ?_⟩
  have hn : m₂.stops c = some m.world.initialized := by
    rw [hstops₂, hstops]
    exact Function.update_self ..
  have hlt := hfinal c _ hn ((hcalls₂ c hdc.symm).trans hreturned) s hpresent
  have hle := hm.number_le s (.inr ⟨d, hd⟩)
  omega

/-- In a run in which no stop gets the lock while a call may still put a session back, every
stop is final. A stop that does so in any run is not, whatever happened before it, if it and
the call go on well. -/
theorem stop_final (as : List Action) :
    (EveryStep watch StopsNoneReturning Watched.new as →
      EveryStep watch (fun _ _ m' => Final m') Watched.new as) ∧
    ∀ m c m', exec watch Watched.new as = some m → watch m (.stopSession c) = some m' →
      ¬ StopsNoneReturning m (.stopSession c) m' → ∃ bs m'', exec watch m' bs = some m'' ∧ ¬ Final m'' := by
  refine ⟨?_, fun m c m' has hs hreturning => ?_⟩
  · exact EveryStep.of_keeps Cleared.step (fun m a m' hc hs hp => (Cleared.step m a m' hc hs hp).final) Cleared.new
  · simp only [StopsNoneReturning, not_forall, not_not] at hreturning
    obtain ⟨-, s, hreturning⟩ := hreturning
    exact not_final_of_returning (numbered_of_exec has) hs hreturning

/-- A stop after the launch has returned. -/
def stoppedRun : List Action :=
  [.initializeSession 0 (.keys ⟨[], 0⟩), .initializeReturned 0 true, .launchSession 1,
    .launchReturned 1 true, .launchLock 1, .stopSession 2, .stopTrigger 2, .stopReturned 2 true]

theorem stoppedRun_final : EveryStep watch (fun _ _ m' => Final m') Watched.new stoppedRun := by
  refine (stop_final stoppedRun).1 ?_
  refine fun m hm => ⟨nofun, ?_⟩
  cases hm
  refine fun m hm => ⟨nofun, ?_⟩
  cases hm
  refine fun m hm => ⟨nofun, ?_⟩
  cases hm
  refine fun m hm => ⟨nofun, ?_⟩
  cases hm
  refine fun m hm => ⟨nofun, ?_⟩
  cases hm
  refine fun m hm => ⟨fun _ s h => ?_, ?_⟩
  · obtain ⟨d, hd⟩ := h
    by_cases h1 : d = 1
    · rw [h1] at hd
      cases hd
    · by_cases h0 : d = 0
      · rw [h0] at hd
        cases hd
      · have hcalls : Call.returning (Function.update (Function.update (Function.update (Function.update
            (Function.update (fun _ => Call.notStarted) 0 (.initializing 0 0)) 0 (.returned true))
            1 (.launching ⟨0, 0, 1⟩)) 1 (.launchLocking ⟨0, 0, 1⟩ true)) 1 (.returned true) d) = some s := hd
        simp only [Function.update_of_ne h1, Function.update_of_ne h0] at hcalls
        cases hcalls
  cases hm
  refine fun m hm => ⟨nofun, ?_⟩
  cases hm
  exact fun m hm => ⟨nofun, trivial⟩

/-- A stop during the launch does not find the session, and the launch puts it
back. -/
theorem stop_during_launch : ¬ EveryStep watch (fun _ _ m' => Final m') Watched.new
    [.initializeSession 0 (.keys ⟨[], 0⟩), .initializeReturned 0 true, .launchSession 1,
      .stopSession 2, .launchReturned 1 true, .launchLock 1] := by
  intro h
  obtain ⟨h, -⟩ := h.drop 5 rfl _ rfl
  exact absurd (h 2 1 rfl rfl _ rfl) (by decide)

end Moonshine.Proof.SessionManager
