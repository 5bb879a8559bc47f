import Moonshine.Framework.Run
import Moonshine.Impl.Session.Manager

/-!
# Coherence of the session manager

`Coherent` states what `SessionManagerInner` promises of a session it holds:
the sender in `keys_tx` is paired with the session's receiver, a watchdog is
registered, and `stop` is the `ShutdownManager` the session was initialized
with. `launch_session` and `start_session` take the session out, release the
lock, and later put it back or reset the state without looking at it again; a
watchdog resets the state once it gets the lock. `Owned` is the check they
leave out: the state still has the `ShutdownManager` of the session the step
acts for. Along a run, coherence holds exactly as long as every step is owned
(`holds_iff_owned`, one step under the invariant `Inv`).
-/

namespace Moonshine.Proof.SessionManager

open Moonshine.Framework Moonshine.Impl Moonshine.Impl.SessionManager

/-- What a session held by the state implies for the rest of it. -/
def Coherent (g : SessionManagerInner) : Prop :=
  ∀ s, g.session.map SessionState.session = some s →
    g.keysTx = some s.keysRx ∧ g.stopWatcher.isSome ∧ g.stop = s.stop

/-- The session a step acts for: the one its call took out of the state, or
the one its watchdog was spawned for. -/
def actsFor (w : World) : Action → Option Nat
  | .launchLock c | .startReturned c _ => (w.calls c).taken.map Session.number
  | .watchdogLock i => (w.watchdogs i).map Watchdog.session
  | _ => none

/-- The state after the step is coherent when the lock is free, and the step
left alone a session initialized later than the one it acts for. -/
def Holds (w : World) (a : Action) (w' : World) : Prop :=
  (w'.lock = none → Coherent w'.inner) ∧
    ∀ n ∈ actsFor w a, ∀ st, w.inner.session = some st → n < st.session.number →
      w'.inner.session = some st

/-- The step puts a session back only into the state it took it from, and
resets a state that holds a session only for that session. -/
def Owned (w : World) (a : Action) (_ : World) : Prop :=
  match a with
  | .launchLock c =>
    match w.calls c with
    | .launchLocking s true => w.inner.stop = s.stop
    | .launchLocking s false => w.inner.session = none ∨ w.inner.stop = s.stop
    | _ => True
  | .startReturned c ok =>
    match w.calls c, ok with
    | .starting s _ _ _, true => w.inner.stop = s.stop
    | .starting s _ _ _, false => w.inner.session = none ∨ w.inner.stop = s.stop
    | _, _ => True
  | .watchdogLock i => ∀ d ∈ w.watchdogs i, w.inner.session = none ∨ w.inner.stop = d.stop
  | _ => True

/-! ## The invariant -/

/-- The session in the state. -/
def Present (w : World) (s : Session) : Prop :=
  w.inner.session.map SessionState.session = some s

/-- A session some call has taken out of the state. -/
def Taken (w : World) (s : Session) : Prop := ∃ c, (w.calls c).taken = some s

/-- A session, or the watchdog of one, still bound to the `ShutdownManager`
`stop` as the `n`th session. -/
def Bound (w : World) (stop : StopId) (n : Nat) : Prop :=
  (∃ s, (Present w s ∨ Taken w s) ∧ s.stop = stop ∧ s.number = n) ∨
    ∃ i, ∃ d ∈ w.watchdogs i, d.stop = stop ∧ d.session = n

structure Inv (w : World) : Prop where
  present : ∀ s, Present w s → w.inner.keysTx = some s.keysRx ∧ w.inner.stop = s.stop
  taken : ∀ s, Taken w s → s.stop = w.inner.stop → w.inner.keysTx = some s.keysRx
  watcher : w.inner.stopWatcher.isSome = w.inner.keysTx.isSome
  /-- Who is bound to the state's `ShutdownManager` is the session initialized
  last, -/
  current : ∀ n, Bound w w.inner.stop n → w.inner.keysTx.isSome ∧ n = w.initialized
  /-- and who is bound to another was initialized before it. -/
  older : ∀ stop n, Bound w stop n → stop < w.nextStop ∧ n ≤ w.initialized ∧
    (stop ≠ w.inner.stop → w.inner.keysTx.isSome → n < w.initialized)
  nextStop : w.inner.stop < w.nextStop
  /-- `initialize_session` awaits under the lock in an empty state. -/
  initializing : ∀ c keysRx stop, w.calls c = .initializing keysRx stop →
    w.lock = some c ∧ w.inner.session = none ∧ w.inner.keysTx = none ∧ stop = w.inner.stop
  starting : ∀ c s v a stop, w.calls c = .starting s v a stop → w.lock = some c

theorem Inv.coherent {w : World} (h : Inv w) : Coherent w.inner := fun s hs =>
  ⟨(h.present s hs).1, by rw [h.watcher, (h.present s hs).1]; rfl, (h.present s hs).2⟩

theorem Inv.new : Inv World.new where
  present := by simp [Present, World.new]
  taken := by simp [Taken, World.new, Call.taken]
  watcher := rfl
  current := by simp [Bound, Present, Taken, World.new, Call.taken]
  older := by simp [Bound, Present, Taken, World.new, Call.taken]
  nextStop := by decide
  initializing := by simp [World.new]
  starting := by simp [World.new]

/-! ## What a step may do to the invariant -/

/-- A step that leaves the manager's handles alone keeps the invariant if it
only moves sessions between the state and the calls, and puts a session only
into a state that has its `ShutdownManager`. -/
theorem Inv.frame {w w' : World} (h : Inv w) (hstop : w'.inner.stop = w.inner.stop)
    (hkeys : w'.inner.keysTx = w.inner.keysTx) (hwatch : w'.inner.stopWatcher = w.inner.stopWatcher)
    (hini : w'.initialized = w.initialized) (hnext : w'.nextStop = w.nextStop)
    (hpresent : ∀ s, Present w' s → Present w s ∨ (Taken w s ∧ s.stop = w.inner.stop))
    (htaken : ∀ s, Taken w' s → Present w s ∨ Taken w s)
    (hdogs : ∀ i, ∀ d ∈ w'.watchdogs i, ∃ d' ∈ w.watchdogs i, d'.stop = d.stop ∧ d'.session = d.session)
    (hinit : ∀ c keysRx stop, w'.calls c = .initializing keysRx stop →
      w'.lock = some c ∧ w'.inner.session = none ∧ w'.inner.keysTx = none ∧ stop = w'.inner.stop)
    (hstart : ∀ c s v a stop, w'.calls c = .starting s v a stop → w'.lock = some c) : Inv w' := by
  have hbound : ∀ stop n, Bound w' stop n → Bound w stop n := by
    rintro stop n (⟨s, hs, e⟩ | ⟨i, d, hd, e⟩)
    · refine .inl ⟨s, ?_, e⟩
      rcases hs with hs | hs
      · exact (hpresent s hs).imp id And.left
      · exact htaken s hs
    · obtain ⟨d', hd', e₁, e₂⟩ := hdogs i d hd
      exact .inr ⟨i, d', hd', e₁.trans e.1, e₂.trans e.2⟩
  refine ⟨fun s hs => ?_, fun s hs e => ?_, ?_, fun n hn => ?_, fun stop n hn => ?_, ?_, hinit, hstart⟩
  · rw [hkeys, hstop]
    rcases hpresent s hs with hs | ⟨hs, e⟩
    · exact h.present s hs
    · exact ⟨h.taken s hs e, e.symm⟩
  · rw [hkeys]
    rcases htaken s hs with hs | hs
    · exact (h.present s hs).1
    · exact h.taken s hs (e.trans hstop)
  · rw [hwatch, hkeys]; exact h.watcher
  · rw [hkeys, hini]; exact h.current n (hstop ▸ hbound _ _ hn)
  · rw [hnext, hini, hstop, hkeys]; exact h.older stop n (hbound stop n hn)
  · rw [hstop, hnext]; exact h.nextStop

/-- A reset starts over with a `ShutdownManager` nobody is bound to. -/
theorem Inv.reset {w w' : World} (h : Inv w) (hlock : w.lock = none ∨ ∃ c s v a st,
      w.calls c = .starting s v a st)
    (hinner : w'.inner = ⟨none, w.nextStop, none, none, none, none, none, none⟩)
    (hini : w'.initialized = w.initialized) (hnext : w'.nextStop = w.nextStop + 1)
    (htaken : ∀ s, Taken w' s → Taken w s)
    (hdogs : ∀ i, ∀ d ∈ w'.watchdogs i, ∃ d' ∈ w.watchdogs i, d'.stop = d.stop ∧ d'.session = d.session)
    (hinit : ∀ c keysRx stop, w'.calls c = .initializing keysRx stop → w.calls c = .initializing keysRx stop)
    (hstart : ∀ c s v a stop, w'.calls c = .starting s v a stop → w'.lock = some c) : Inv w' := by
  have hpresent : ∀ s, ¬ Present w' s := by simp [Present, hinner]
  have hbound : ∀ stop n, Bound w' stop n → Bound w stop n := by
    rintro stop n (⟨s, hs | hs, e⟩ | ⟨i, d, hd, e⟩)
    · exact (hpresent s hs).elim
    · exact .inl ⟨s, .inr (htaken s hs), e⟩
    · obtain ⟨d', hd', e₁, e₂⟩ := hdogs i d hd
      exact .inr ⟨i, d', hd', e₁.trans e.1, e₂.trans e.2⟩
  have hfresh : ∀ stop n, Bound w' stop n → stop < w.nextStop := fun stop n hn =>
    (h.older stop n (hbound stop n hn)).1
  refine ⟨fun s hs => (hpresent s hs).elim, fun s hs e => ?_, ?_, fun n hn => ?_, fun stop n hn => ?_,
    ?_, fun c k st hc => ?_, hstart⟩
  · have := hfresh _ _ (.inl ⟨s, .inr hs, rfl, rfl⟩)
    rw [e, hinner] at this
    exact absurd this (Nat.lt_irrefl _)
  · rw [hinner]
  · have := hfresh _ _ hn
    rw [hinner] at this
    exact absurd this (Nat.lt_irrefl _)
  · obtain ⟨h₁, h₂, -⟩ := h.older stop n (hbound stop n hn)
    rw [hnext, hini, hinner]
    exact ⟨Nat.lt_succ_of_lt h₁, h₂, by simp⟩
  · rw [hinner, hnext]; simp
  · have hc := (h.initializing c k st (hinit c k st hc)).1
    rcases hlock with hl | ⟨c', s, v, a, st', hs⟩
    · rw [hl] at hc; cases hc
    · have := h.starting c' s v a st' hs
      rw [hc, Option.some.injEq] at this
      subst this
      have := hinit c k st ‹_›
      rw [hs] at this; cases this

/-- A session initialized in a state without keys sender is the only one bound
to the state's `ShutdownManager`. -/
theorem Inv.install {w w' : World} (h : Inv w) {s : Session} (hk : w.inner.keysTx = none)
    (hs : s.stop = w.inner.stop) (hn : s.number = w.initialized + 1)
    (hsession : w'.inner.session.map SessionState.session = some s)
    (hstop : w'.inner.stop = w.inner.stop) (hkeys : w'.inner.keysTx = some s.keysRx)
    (hwatch : w'.inner.stopWatcher.isSome) (hini : w'.initialized = w.initialized + 1)
    (hnext : w'.nextStop = w.nextStop) (htaken : ∀ s, Taken w' s → Taken w s)
    (hdogs : ∀ i, ∀ d ∈ w'.watchdogs i,
      (d.stop = w.inner.stop ∧ d.session = w.initialized + 1) ∨ d ∈ w.watchdogs i)
    (hinit : ∀ c keysRx stop, w'.calls c = .initializing keysRx stop →
      w'.lock = some c ∧ w'.inner.session = none ∧ w'.inner.keysTx = none ∧ stop = w'.inner.stop)
    (hstart : ∀ c s v a stop, w'.calls c = .starting s v a stop → w'.lock = some c) : Inv w' := by
  have hpresent : ∀ t, Present w' t → t = s := fun t ht => by
    rw [Present, hsession, Option.some.injEq] at ht
    exact ht.symm
  have hnobody : ∀ n, ¬ Bound w w.inner.stop n := fun n hb => by
    have := (h.current n hb).1
    rw [hk] at this; cases this
  have hbound : ∀ stop n, Bound w' stop n →
      (stop = w.inner.stop ∧ n = w.initialized + 1) ∨ Bound w stop n := by
    rintro stop n (⟨t, ht | ht, e₁, e₂⟩ | ⟨i, d, hd, e₁, e₂⟩)
    · rw [hpresent t ht] at e₁ e₂; exact .inl ⟨e₁ ▸ hs, e₂ ▸ hn⟩
    · exact .inr (.inl ⟨t, .inr (htaken t ht), e₁, e₂⟩)
    · rcases hdogs i d hd with ⟨f₁, f₂⟩ | hd
      · exact .inl ⟨e₁ ▸ f₁, e₂ ▸ f₂⟩
      · exact .inr (.inr ⟨i, d, hd, e₁, e₂⟩)
  refine ⟨fun t ht => ?_, fun t ht e => ?_, by rw [hkeys]; simp [hwatch], fun n hb => ?_,
    fun stop n hb => ?_, by rw [hstop, hnext]; exact h.nextStop, hinit, hstart⟩
  · rw [hpresent t ht, hkeys, hstop]; exact ⟨rfl, hs.symm⟩
  · exact (hnobody _ (.inl ⟨t, .inr (htaken t ht), e.trans hstop, rfl⟩)).elim
  · rw [hstop] at hb
    rcases hbound _ _ hb with ⟨-, rfl⟩ | hb
    · rw [hkeys, hini]; exact ⟨rfl, rfl⟩
    · exact (hnobody n hb).elim
  · rw [hstop, hini, hnext]
    rcases hbound _ _ hb with ⟨rfl, rfl⟩ | hb
    · exact ⟨h.nextStop, Nat.le_refl _, fun hne => (hne rfl).elim⟩
    · obtain ⟨h₁, h₂, -⟩ := h.older stop n hb
      exact ⟨h₁, Nat.le_succ_of_le h₂, fun _ _ => Nat.lt_succ_of_le h₂⟩

theorem call_of_update {w w' : World} {c c' : CallId} {k x : Call}
    (hcalls : w'.calls = Function.update w.calls c k) (h : w'.calls c' = x) :
    (c' = c ∧ k = x) ∨ (c' ≠ c ∧ w.calls c' = x) := by
  rw [hcalls] at h
  by_cases e : c' = c
  · subst e; exact .inl ⟨rfl, by simpa using h⟩
  · exact .inr ⟨e, by simpa [e] using h⟩

theorem taken_of_update {w w' : World} {c : CallId} {k : Call}
    (hcalls : w'.calls = Function.update w.calls c k) {s : Session} (h : Taken w' s) :
    k.taken = some s ∨ Taken w s := by
  obtain ⟨c', hc⟩ := h
  rcases call_of_update hcalls rfl with ⟨-, e⟩ | ⟨-, e⟩
  · exact .inl (e ▸ hc)
  · exact .inr ⟨c', e ▸ hc⟩

/-- A call that holds no lock across an await. -/
def Lockless (k : Call) : Prop := (∀ keysRx stop, k ≠ .initializing keysRx stop) ∧
  ∀ s v a stop, k ≠ .starting s v a stop

/-- The lock's holders after a call moved on to `k`: nobody else's claim is
touched, since the lock was free, or its own, or left alone. -/
theorem Inv.holders {w w' : World} (h : Inv w) {c : CallId} {k : Call}
    (hcalls : w'.calls = Function.update w.calls c k) (hk : Lockless k)
    (hfree : (∀ c', w.lock = some c' → c' = c) ∨ (w'.inner = w.inner ∧ w'.lock = w.lock)) :
    (∀ c keysRx stop, w'.calls c = .initializing keysRx stop →
      w'.lock = some c ∧ w'.inner.session = none ∧ w'.inner.keysTx = none ∧ stop = w'.inner.stop) ∧
    ∀ c s v a stop, w'.calls c = .starting s v a stop → w'.lock = some c := by
  constructor
  · intro c' keysRx stop hc
    rcases call_of_update hcalls hc with ⟨-, e⟩ | ⟨hne, e⟩
    · exact (hk.1 _ _ e).elim
    · have hi := h.initializing _ _ _ e
      rcases hfree with hf | ⟨e₁, e₂⟩
      · exact (hne (hf _ hi.1)).elim
      · rw [e₁, e₂]; exact hi
  · intro c' s v a stop hc
    rcases call_of_update hcalls hc with ⟨-, e⟩ | ⟨hne, e⟩
    · exact (hk.2 _ _ _ _ e).elim
    · have hi := h.starting _ _ _ _ _ e
      rcases hfree with hf | ⟨-, e₂⟩
      · exact (hne (hf _ hi)).elim
      · rw [e₂]; exact hi

theorem free_of_none {w : World} (c : CallId) (h : w.lock = none) : ∀ c', w.lock = some c' → c' = c := by
  simp [h]

theorem free_of_own {w : World} {c : CallId} (h : w.lock = some c) : ∀ c', w.lock = some c' → c' = c := by
  simp only [h, Option.some.injEq]
  exact fun _ e => e.symm

/-- A call that leaves the state and the lock's holders alone and takes no
session keeps the invariant. -/
theorem Inv.move {w w' : World} (h : Inv w) {c : CallId} {k : Call}
    (hcalls : w'.calls = Function.update w.calls c k) (hk : Lockless k)
    (hfree : (∀ c', w.lock = some c' → c' = c) ∨ (w'.inner = w.inner ∧ w'.lock = w.lock))
    (hstop : w'.inner.stop = w.inner.stop) (hkeys : w'.inner.keysTx = w.inner.keysTx)
    (hwatch : w'.inner.stopWatcher = w.inner.stopWatcher) (hini : w'.initialized = w.initialized)
    (hnext : w'.nextStop = w.nextStop)
    (hpresent : ∀ s, Present w' s → Present w s ∨ (Taken w s ∧ s.stop = w.inner.stop))
    (htaken : ∀ s, k.taken = some s → Present w s ∨ Taken w s)
    (hdogs : w'.watchdogs = w.watchdogs) : Inv w' :=
  have hh := h.holders hcalls hk hfree
  h.frame hstop hkeys hwatch hini hnext hpresent
    (fun s hs => (taken_of_update hcalls hs).elim (htaken s) .inr)
    (fun _ d hd => ⟨d, hdogs ▸ hd, rfl, rfl⟩) hh.1 hh.2

/-! ## The steps of each function -/

theorem lockless_returned (ok : Bool) : Lockless (.returned ok) := by simp [Lockless]

theorem Inv.initializeSession {w : World} (h : Inv w) (c : CallId) (keys : SessionKeys)
    (hl : w.lock = none) : Inv (w.initializeSession c keys) := by
  unfold World.initializeSession
  split
  · exact h.move rfl (lockless_returned _) (.inl (free_of_none c hl)) rfl rfl rfl rfl rfl
      (fun s hs => .inl hs) (by simp [Call.taken]) rfl
  rename_i he
  simp only [Bool.or_eq_true, not_or, Bool.not_eq_true, Option.isSome_eq_false_iff,
    Option.isNone_iff_eq_none] at he
  cases keys with
  | rx _ =>
    exact h.move rfl (lockless_returned _) (.inl (free_of_none c hl)) rfl rfl rfl rfl rfl
      (fun s hs => .inl hs) (by simp [Call.taken]) rfl
  | keys data =>
    refine h.frame rfl rfl rfl rfl rfl (fun s hs => .inl hs) (fun s hs => ?_)
      (fun i d hd => ⟨d, hd, rfl, rfl⟩) (fun c' keysRx stop hc => ?_) (fun c' s v a stop hc => ?_)
    · rcases taken_of_update rfl hs with e | hs
      · cases e
      · exact .inr hs
    · rcases call_of_update rfl hc with ⟨e, e'⟩ | ⟨-, e⟩
      · cases e'; exact ⟨by rw [e], he.1, he.2, rfl⟩
      · have := (h.initializing _ _ _ e).1
        rw [hl] at this; cases this
    · rcases call_of_update rfl hc with ⟨-, e⟩ | ⟨-, e⟩
      · cases e
      · have := h.starting _ _ _ _ _ e
        rw [hl] at this; cases this


/-- `initialize_session` on an empty state installs the session, its watchdog
and its keys sender together. -/
theorem initializeReturned_true {w : World} (hnone : w.inner.stopWatcher = none) (c : CallId)
    (keysRx : KeysChannel) (stop : StopId) :
    w.initializeReturned c keysRx stop true =
      { w with
        inner := { w.inner with
          session := some (.initialized ⟨keysRx, stop, w.initialized + 1⟩)
          keysTx := some keysRx
          stopWatcher := some w.nextWatchdog }
        lock := none
        calls := Function.update w.calls c (.returned true)
        watchdogs := Function.update w.watchdogs w.nextWatchdog
          (some ⟨w.inner.stop, w.initialized + 1, .waiting⟩)
        initialized := w.initialized + 1
        nextWatchdog := w.nextWatchdog + 1 } := by
  simp only [World.initializeReturned, ↓reduceIte, World.spawnSessionWatchdog, hnone,
    Option.isSome_none, Bool.false_eq_true, World.setCall]

theorem Inv.initializeReturned {w : World} (h : Inv w) {c : CallId} {keysRx : KeysChannel}
    {stop : StopId} (hc : w.calls c = .initializing keysRx stop) (ok : Bool) :
    Inv (w.initializeReturned c keysRx stop ok) := by
  obtain ⟨hl, hs, hk, rfl⟩ := h.initializing c keysRx stop hc
  have hnone : w.inner.stopWatcher = none := by
    have := h.watcher
    rwa [hk, Option.isSome_none, Option.isSome_eq_false_iff, Option.isNone_iff_eq_none] at this
  cases ok with
  | false =>
    exact h.move rfl (lockless_returned _) (.inl (free_of_own hl)) rfl rfl rfl rfl rfl
      (fun s hs => .inl hs) (by simp [Call.taken]) rfl
  | true =>
    rw [initializeReturned_true hnone]
    refine h.install (s := ⟨keysRx, w.inner.stop, w.initialized + 1⟩) hk rfl rfl rfl rfl rfl rfl rfl
      rfl (fun s hs => (taken_of_update rfl hs).elim (by simp [Call.taken]) id) (fun i d hd => ?_) ?_ ?_
    · by_cases hi : i = w.nextWatchdog
      · subst hi
        simp only [Function.update_self, Option.mem_def, Option.some.injEq] at hd
        subst hd; exact .inl ⟨rfl, rfl⟩
      · exact .inr (by simpa [hi] using hd)
    · exact fun c' x st hx => (h.holders rfl (lockless_returned _) (.inl (free_of_own hl))).1 c' x st hx
    · exact fun c' x v a st hx =>
        (h.holders rfl (lockless_returned _) (.inl (free_of_own hl))).2 c' x v a st hx

theorem Inv.launchSession {w : World} (h : Inv w) (c : CallId) (hl : w.lock = none) :
    Inv (w.launchSession c) := by
  unfold World.launchSession
  split
  · rename_i s hs
    exact h.move (k := .launching s) rfl (by simp [Lockless]) (.inl (free_of_none c hl)) rfl rfl rfl
      rfl rfl (by simp [Present]) (by simp [Call.taken, Present, hs, SessionState.session]) rfl
  all_goals
    exact h.move rfl (lockless_returned _) (.inl (free_of_none c hl)) rfl rfl rfl rfl rfl
      (fun s hs => .inl hs) (by simp [Call.taken]) rfl

theorem Inv.setStreamContext {w : World} (h : Inv w) (c : CallId) (v : VideoStreamContext)
    (a : AudioStreamContext) (hl : w.lock = none) : Inv (w.setStreamContext c v a) := by
  unfold World.setStreamContext
  split <;>
    exact h.move rfl (lockless_returned _) (.inl (free_of_none c hl)) rfl rfl rfl rfl rfl
      (fun s hs => .inl hs) (by simp [Call.taken]) rfl

theorem Inv.startSession {w : World} (h : Inv w) (c : CallId) (hl : w.lock = none) :
    Inv (w.startSession c) := by
  unfold World.startSession
  split
  · rename_i s hs
    have hp : Present w s := by simp [Present, hs, SessionState.session]
    refine h.move rfl ?_ (.inl (free_of_none c hl)) rfl rfl rfl rfl rfl (by simp [Present])
      (fun s' => ?_) rfl
    · split <;> simp [Lockless]
    · split
      · rintro e; cases e; exact .inl hp
      · simp [Call.taken]
  all_goals
    exact h.move rfl (lockless_returned _) (.inl (free_of_none c hl)) rfl rfl rfl rfl rfl
      (fun s hs => .inl hs) (by simp [Call.taken]) rfl

theorem Inv.updateKeys {w : World} (h : Inv w) (c : CallId) (keys : SessionKeyData)
    (hl : w.lock = none) : Inv (w.updateKeys c keys) := by
  unfold World.updateKeys
  split
  · exact h.move rfl (lockless_returned _) (.inl (free_of_none c hl)) rfl rfl rfl rfl rfl
      (fun s hs => .inl hs) (by simp [Call.taken]) rfl
  · split <;>
      exact h.move rfl (lockless_returned _) (.inl (free_of_none c hl)) rfl rfl rfl rfl rfl
        (fun s hs => .inl hs) (by simp [Call.taken]) rfl

/-! ### Resets -/

@[simp] theorem abortWatcher_calls (w : World) : w.abortWatcher.calls = w.calls := by
  unfold World.abortWatcher; split <;> rfl

@[simp] theorem abortWatcher_lock (w : World) : w.abortWatcher.lock = w.lock := by
  unfold World.abortWatcher; split <;> rfl

@[simp] theorem abortWatcher_initialized (w : World) :
    w.abortWatcher.initialized = w.initialized := by
  unfold World.abortWatcher; split <;> rfl

/-- Aborting a watchdog changes neither whom it was spawned for nor its
`ShutdownManager`. -/
theorem resetSession_watchdogs {w : World} {i : WatchdogId} {d : Watchdog}
    (hd : d ∈ w.resetSession.watchdogs i) :
    ∃ d' ∈ w.watchdogs i, d'.stop = d.stop ∧ d'.session = d.session := by
  simp only [World.resetSession, World.abortWatcher] at hd
  split at hd
  · rename_i j _
    by_cases e : i = j
    · subst e
      simp only [Function.update_self, Option.mem_def, Option.map_eq_some_iff] at hd
      obtain ⟨d', hd', rfl⟩ := hd
      exact ⟨d', hd', rfl, rfl⟩
    · exact ⟨d, by simpa [e] using hd, rfl, rfl⟩
  · exact ⟨d, hd, rfl, rfl⟩

/-- A call that resets the state, with the lock free or its own. -/
theorem Inv.resetCall {w w' : World} (h : Inv w) {c : CallId} {k : Call} (hk : Lockless k)
    (htaken : k.taken = none)
    (hlock : w.lock = none ∨ ∃ s v a st, w.calls c = .starting s v a st)
    (hw : w' = { w.resetSession.setCall c k with lock := none }) : Inv w' := by
  have hcalls : w'.calls = Function.update w.calls c k := by
    subst hw; simp [World.setCall, World.resetSession]
  have hfree : ∀ c', w.lock = some c' → c' = c := by
    rcases hlock with hl | ⟨s, v, a, st, hs⟩
    · exact free_of_none c hl
    · exact free_of_own (h.starting c s v a st hs)
  have hh := h.holders hcalls hk (.inl hfree)
  refine h.reset (hlock.imp id fun hs => ⟨c, hs⟩) (by subst hw; rfl)
    (by subst hw; simp [World.setCall, World.resetSession]) (by subst hw; rfl)
    (fun s hs => (taken_of_update hcalls hs).elim (by simp [htaken]) id)
    (fun i d hd => resetSession_watchdogs (by subst hw; exact hd)) (fun c' x st hc => ?_) hh.2
  rcases call_of_update hcalls hc with ⟨-, e⟩ | ⟨-, e⟩
  · exact (hk.1 _ _ e).elim
  · exact e

theorem Inv.launchLock {w : World} (h : Inv w) {c : CallId} {s : Session} {ok : Bool}
    (hl : w.lock = none) (hc : w.calls c = .launchLocking s ok)
    (ho : ok = true → w.inner.stop = s.stop) : Inv (w.launchLock c s ok) := by
  cases ok with
  | false =>
    refine h.resetCall (c := c) (lockless_returned false) rfl (.inl hl) ?_
    simp [World.launchLock, World.setCall, World.resetSession, hl]
  | true =>
    refine h.move rfl (lockless_returned _) (.inl (free_of_none c hl)) rfl rfl rfl rfl rfl
      (fun t ht => ?_) (by simp [Call.taken]) rfl
    have e : s = t := by simpa [Present, World.launchLock, SessionState.session] using ht
    exact .inr ⟨⟨c, by rw [hc, ← e]; rfl⟩, e ▸ (ho rfl).symm⟩

theorem Inv.startReturned {w : World} (h : Inv w) {c : CallId} {s : Session}
    {v : VideoStreamContext} {a : AudioStreamContext} {stop : StopId} {ok : Bool}
    (hc : w.calls c = .starting s v a stop) (ho : ok = true → w.inner.stop = s.stop) :
    Inv (w.startReturned c s ok) := by
  have hl := h.starting c s v a stop hc
  cases ok with
  | false => exact h.resetCall (lockless_returned false) rfl (.inr ⟨s, v, a, stop, hc⟩) rfl
  | true =>
    refine h.move rfl (lockless_returned _) (.inl (free_of_own hl)) rfl rfl rfl rfl rfl
      (fun t ht => ?_) (by simp [Call.taken]) rfl
    have e : s = t := by simpa [Present, World.startReturned, SessionState.session] using ht
    exact .inr ⟨⟨c, by rw [hc, ← e]; rfl⟩, e ▸ (ho rfl).symm⟩

theorem Inv.stopSession {w : World} (h : Inv w) (c : CallId) (hl : w.lock = none) :
    Inv (w.stopSession c) := by
  unfold World.stopSession
  split
  · exact h.move rfl (lockless_returned _) (.inl (free_of_none c hl)) rfl rfl rfl rfl rfl
      (fun s hs => .inl hs) (by simp [Call.taken]) rfl
  · refine h.resetCall (c := c) (k := .stopTriggering w.inner.stop) (by simp [Lockless]) rfl (.inl hl) ?_
    simp [World.setCall, World.resetSession, hl]

theorem Inv.startLock {w : World} (h : Inv w) {c : CallId} {s : Session} {v : VideoStreamContext}
    {a : AudioStreamContext} {stop : StopId} (hl : w.lock = none)
    (hc : w.calls c = .startLocking s v a stop) :
    Inv { w.setCall c (.starting s v a stop) with lock := some c } := by
  refine h.frame rfl rfl rfl rfl rfl (fun s hs => .inl hs) (fun t ht => ?_)
    (fun _ d hd => ⟨d, hd, rfl, rfl⟩) (fun c' x st hx => ?_) (fun c' t v' a' st hx => ?_)
  · rcases taken_of_update rfl ht with e | ht
    · exact .inr ⟨c, by rw [hc]; exact e⟩
    · exact .inr ht
  · rcases call_of_update rfl hx with ⟨-, e⟩ | ⟨-, e⟩
    · cases e
    · have := (h.initializing _ _ _ e).1
      rw [hl] at this; cases this
  · rcases call_of_update rfl hx with ⟨e, -⟩ | ⟨-, e⟩
    · rw [e]
    · have := h.starting _ _ _ _ _ e
      rw [hl] at this; cases this

theorem Inv.cancel {w : World} (h : Inv w) (c : CallId) :
    Inv { w.setCall c .dropped with lock := if w.lock = some c then none else w.lock } := by
  by_cases hl : w.lock = some c
  · exact h.move rfl (by simp [Lockless]) (.inl (free_of_own hl)) rfl rfl rfl rfl rfl
      (fun s hs => .inl hs) (by simp [Call.taken]) rfl
  · exact h.move rfl (by simp [Lockless]) (.inr ⟨rfl, if_neg hl⟩) rfl rfl rfl rfl rfl
      (fun s hs => .inl hs) (by simp [Call.taken]) rfl

/-- A watchdog that moves on, in a world that differs in nothing but the
shutdown triggers. -/
theorem Inv.setWatchdog {w w' : World} (h : Inv w) {i : WatchdogId} {stop : StopId} {n : Nat}
    {x y : WatchState} (hi : w.watchdogs i = some ⟨stop, n, x⟩)
    (hw : w' = { w with
      triggered := w'.triggered
      shutdown := w'.shutdown
      watchdogs := Function.update w.watchdogs i (some ⟨stop, n, y⟩) }) : Inv w' := by
  rw [hw]
  refine h.frame rfl rfl rfl rfl rfl (fun s hs => .inl hs) (fun s hs => .inr hs)
    (fun j d hd => ?_) h.initializing h.starting
  by_cases e : j = i
  · subst e
    simp only [Function.update_self, Option.mem_def, Option.some.injEq] at hd
    subst hd; exact ⟨_, hi, rfl, rfl⟩
  · exact ⟨d, by simpa [e] using hd, rfl, rfl⟩

theorem Inv.watchdogLock {w : World} (h : Inv w) {i : WatchdogId} {stop : StopId} {n : Nat}
    {x : WatchState} (hl : w.lock = none) (hi : w.watchdogs i = some ⟨stop, n, x⟩) :
    Inv (w.resetSession.setWatchdog i ⟨stop, n, .ended⟩) := by
  have hcalls : (w.resetSession.setWatchdog i ⟨stop, n, .ended⟩).calls = w.calls := by
    simp [World.setWatchdog, World.resetSession]
  refine h.reset (.inl hl) rfl (by simp [World.setWatchdog, World.resetSession]) rfl
    (fun s ⟨c, hs⟩ => ⟨c, hcalls ▸ hs⟩) (fun j d hd => ?_) (fun c x st hx => hcalls ▸ hx)
    (fun c s v a st hx => ?_)
  · by_cases e : j = i
    · subst e
      simp only [World.setWatchdog, Function.update_self, Option.mem_def, Option.some.injEq] at hd
      subst hd; exact ⟨_, hi, rfl, rfl⟩
    · exact resetSession_watchdogs (by simpa [World.setWatchdog, e] using hd)
  · rw [hcalls] at hx
    have := h.starting _ _ _ _ _ hx
    rw [hl] at this; cases this

/-! ## One step -/

/-- Owned steps keep the invariant. -/
theorem Inv.step {w w' : World} (h : Inv w) {a : Action} (hs : step w a = some w')
    (ho : Owned w a w') : Inv w' := by
  cases a <;> simp only [SessionManager.step] at hs
  case initializeSession c keys =>
    split at hs <;> cases hs
    exact h.initializeSession c keys ‹_›
  case initializeReturned c ok =>
    split at hs <;> cases hs
    exact h.initializeReturned ‹_› ok
  case launchSession c =>
    split at hs <;> cases hs
    exact h.launchSession c ‹_›
  case launchReturned c ok =>
    split at hs <;> cases hs
    rename_i s hc
    exact h.move rfl (by simp [Lockless]) (.inr ⟨rfl, rfl⟩) rfl rfl rfl rfl rfl (fun t ht => .inl ht)
      (fun t ht => .inr ⟨c, by rw [hc]; exact ht⟩) rfl
  case launchLock c =>
    split at hs <;> cases hs
    rename_i s ok hl hc
    refine h.launchLock hl hc fun hok => ?_
    subst hok
    simpa [Owned, hc] using ho
  case setStreamContext c v a =>
    split at hs <;> cases hs
    exact h.setStreamContext c v a ‹_›
  case startSession c =>
    split at hs <;> cases hs
    exact h.startSession c ‹_›
  case startLock c =>
    split at hs <;> cases hs
    exact h.startLock ‹_› ‹_›
  case startReturned c ok =>
    split at hs <;> cases hs
    rename_i s v a st hc
    refine h.startReturned hc fun hok => ?_
    subst hok
    simpa [Owned, hc] using ho
  case stopSession c =>
    split at hs <;> cases hs
    exact h.stopSession c ‹_›
  case stopTrigger c =>
    split at hs <;> cases hs
    exact h.move rfl (by simp [Lockless]) (.inr ⟨rfl, rfl⟩) rfl rfl rfl rfl rfl (fun t ht => .inl ht)
      (by simp [Call.taken]) rfl
  case stopReturned c complete =>
    split at hs <;> cases hs
    exact h.move rfl (lockless_returned _) (.inr ⟨rfl, rfl⟩) rfl rfl rfl rfl rfl
      (fun t ht => .inl ht) (by simp [Call.taken]) rfl
  case updateKeys c keys =>
    split at hs <;> cases hs
    exact h.updateKeys c keys ‹_›
  case cancel c =>
    split at hs <;> cases hs
    exact h.cancel c
  case componentTrigger stop reason =>
    split at hs <;> cases hs
    exact h.frame rfl rfl rfl rfl rfl (fun t ht => .inl ht) (fun t ht => .inr ht)
      (fun i d hd => ⟨d, hd, rfl, rfl⟩) h.initializing h.starting
  case shutdownTrigger =>
    cases hs
    exact h.frame rfl rfl rfl rfl rfl (fun t ht => .inl ht) (fun t ht => .inr ht)
      (fun i d hd => ⟨d, hd, rfl, rfl⟩) h.initializing h.starting
  case watchdogWake i =>
    split at hs
    · rename_i hi
      split at hs
      · cases hs; exact h.setWatchdog hi rfl
      · split at hs <;> cases hs
        exact h.setWatchdog hi rfl
    · cases hs
  case watchdogQueue i =>
    split at hs <;> cases hs
    exact h.setWatchdog ‹_› rfl
  case watchdogLock i =>
    split at hs <;> cases hs
    all_goals exact h.watchdogLock ‹_› ‹_›

/-- A session bound to the state's `ShutdownManager` is not older than the one
the state holds. -/
theorem Inv.not_later {w : World} (h : Inv w) {n : Nat} (hb : Bound w w.inner.stop n)
    {st : SessionState} (hst : w.inner.session = some st) : ¬ n < st.session.number := by
  have hp : Present w st.session := by simp [Present, hst]
  have hn := (h.current n hb).2
  have hm := (h.current _ (.inl ⟨_, .inl hp, (h.present _ hp).2.symm, rfl⟩)).2
  rw [hn, hm]
  exact Nat.lt_irrefl _

/-- One bound to another is older. -/
theorem Inv.later {w : World} (h : Inv w) {stop : StopId} {n : Nat} (hb : Bound w stop n)
    (hne : w.inner.stop ≠ stop) {st : SessionState} (hst : w.inner.session = some st) :
    n < st.session.number := by
  have hp : Present w st.session := by simp [Present, hst]
  have hk : w.inner.keysTx.isSome := by rw [(h.present _ hp).1]; rfl
  have hm := (h.current _ (.inl ⟨_, .inl hp, (h.present _ hp).2.symm, rfl⟩)).2
  rw [hm]
  exact (h.older stop n hb).2.2 hne.symm hk

/-- A reset on behalf of a bound session leaves later sessions alone exactly if
it is owned. -/
theorem Inv.reset_iff {w : World} (h : Inv w) {stop : StopId} {n : Nat} (hb : Bound w stop n)
    (w' : World) (hw : w'.inner.session = none) :
    (∀ st, w.inner.session = some st → n < st.session.number → w'.inner.session = some st) ↔
      (w.inner.session = none ∨ w.inner.stop = stop) := by
  constructor
  · intro hl
    by_contra hno
    simp only [not_or] at hno
    obtain ⟨st, hst⟩ := Option.ne_none_iff_exists'.mp hno.1
    have := hl st hst (h.later hb hno.2 hst)
    rw [hw] at this; cases this
  · rintro (hn | rfl) st hst hlt
    · rw [hn] at hst; cases hst
    · exact (h.not_later hb hst hlt).elim

theorem Inv.bound_taken {w : World} {c : CallId} {s : Session} (hc : (w.calls c).taken = some s) :
    Bound w s.stop s.number :=
  .inl ⟨s, .inr ⟨c, hc⟩, rfl, rfl⟩

theorem Inv.bound_watchdog {w : World} {i : WatchdogId} {d : Watchdog} (hi : w.watchdogs i = some d) :
    Bound w d.stop d.session :=
  .inr ⟨i, d, hi, rfl, rfl⟩

/-- Where the invariant holds, a step is right exactly if it is owned. -/
theorem holds_iff_owned (w : World) (a : Action) (w' : World) (h : Inv w)
    (hs : SessionManager.step w a = some w') : Holds w a w' ↔ Owned w a w' := by
  have hcoh : Owned w a w' → Coherent w'.inner := fun ho => (h.step hs ho).coherent
  cases a
  case launchLock c =>
    simp only [SessionManager.step] at hs
    split at hs <;> cases hs
    rename_i s ok hl hc
    have hb : Bound w s.stop s.number := Inv.bound_taken (c := c) (by rw [hc]; rfl)
    cases ok
    · have hiff := h.reset_iff hb (w.launchLock c s false) rfl
      simp only [Holds, actsFor, hc, Call.taken, Option.map_some, Option.mem_def,
        Option.some.injEq, forall_eq', Owned, hiff] at hcoh ⊢
      exact ⟨And.right, fun ho => ⟨fun _ => hcoh ho, ho⟩⟩
    · simp only [Holds, actsFor, hc, Call.taken, Option.map_some, Option.mem_def,
        Option.some.injEq, forall_eq', Owned] at hcoh ⊢
      refine ⟨fun hh => ?_, fun ho => ⟨fun _ => hcoh ho, fun st hst hlt => ?_⟩⟩
      · exact (hh.1 (by simpa [World.launchLock, World.setCall] using hl) s rfl).2.2
      · exact (h.not_later (ho ▸ hb) hst hlt).elim
  case startReturned c ok =>
    simp only [SessionManager.step] at hs
    split at hs <;> cases hs
    rename_i s v a st hc
    have hb : Bound w s.stop s.number := Inv.bound_taken (c := c) (by rw [hc]; rfl)
    cases ok
    · have hiff := h.reset_iff hb (w.startReturned c s false) rfl
      simp only [Holds, actsFor, hc, Call.taken, Option.map_some, Option.mem_def,
        Option.some.injEq, forall_eq', Owned, hiff] at hcoh ⊢
      exact ⟨And.right, fun ho => ⟨fun _ => hcoh ho, ho⟩⟩
    · simp only [Holds, actsFor, hc, Call.taken, Option.map_some, Option.mem_def,
        Option.some.injEq, forall_eq', Owned] at hcoh ⊢
      refine ⟨fun hh => (hh.1 rfl s rfl).2.2, fun ho => ⟨fun _ => hcoh ho, fun st hst hlt => ?_⟩⟩
      exact (h.not_later (ho ▸ hb) hst hlt).elim
  case watchdogLock i =>
    have hnone : w'.inner.session = none := by
      simp only [SessionManager.step] at hs
      split at hs <;> cases hs <;> rfl
    obtain ⟨d, hd⟩ : ∃ d, w.watchdogs i = some d := by
      simp only [SessionManager.step] at hs
      split at hs
      · exact ⟨_, ‹_›⟩
      · exact ⟨_, ‹_›⟩
      · cases hs
    have hiff := h.reset_iff (Inv.bound_watchdog hd) w' hnone
    simp only [Holds, actsFor, hd, Option.map_some, Option.mem_def, Option.some.injEq, forall_eq',
      Owned, hiff] at hcoh ⊢
    exact ⟨And.right, fun ho => ⟨fun _ => hcoh ho, ho⟩⟩
  all_goals exact iff_of_true ⟨fun _ => hcoh trivial, by simp [actsFor]⟩ trivial

/-- A run of the session manager stays coherent, and no step of it touches a
session later than the one it acts for, exactly if every step of the run is
owned. -/
theorem coherent_iff_owned (as : List Action) :
    EveryStep SessionManager.step Holds World.new as ↔
      EveryStep SessionManager.step Owned World.new as :=
  EveryStep.iff_of_inv holds_iff_owned (fun _ _ _ h hs ho => h.step hs ho) Inv.new as

/-- The compositor stops while its session is being launched: the watchdog
resets the state, and `launch_session` puts the session back into it, without
keys sender, without watchdog and under another `ShutdownManager`. -/
theorem launch_over_reset :
    ¬ EveryStep SessionManager.step Holds World.new
      [.initializeSession 0 (.keys ⟨[], 0⟩), .initializeReturned 0 true, .launchSession 1,
        .componentTrigger 0 .compositorStopped, .watchdogWake 0, .watchdogLock 0,
        .launchReturned 1 true, .launchLock 1] := by
  intro h
  obtain ⟨⟨h, -⟩, -⟩ := h.drop 7 rfl _ rfl
  have := (h rfl _ rfl).1
  cases this

end Moonshine.Proof.SessionManager
