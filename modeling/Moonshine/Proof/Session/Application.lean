import Moonshine.Framework.Run
import Moonshine.Impl.Session.Application

/-!
# The end of the application is noticed

The monitor subscribes to the signals of the unit before it asks for its state. What the answer
cannot tell of is then in the streams: from the answer on, an end of the unit is in what the
monitor has not yet read. It has come to the end of what it can do only after it has read that.
-/

namespace Moonshine.Proof.Application

open Moonshine.Framework Moonshine.Impl.Application

variable {unitName : String} {leftover : Option String} {w w' : World} {as : List Action}

/-- `spawn` has returned the application. -/
def Phase.Monitored : Phase → Prop
  | .starting | .launching | .gettingUnit | .checking | .subscribing | .settling | .launchFailed => False
  | _ => True

/-- The monitor is subscribed to a stream. -/
def Phase.Listening : Phase → Prop
  | .removedSubscribed | .stateSubscribed | .asked _ | .watching => True
  | _ => False

/-- systemd has not yet answered it. -/
def Phase.Early : Phase → Prop
  | .asked _ | .watching | .launchFailed | .exitNoticed | .monitorFailed | .monitorStopped => False
  | _ => True

/-- systemd has answered the monitor. -/
def Phase.Answered : Phase → Prop
  | .asked _ | .watching => True
  | _ => False

/-- What the task itself does, with its answers. -/
def Action.OfTask : Action → Prop
  | .setActiveState _ | .properties _ | .unload | .unloadOther _ | .stateFails _ | .unitRemovedFails _
  | .triggerShutdown | .abort => False
  | _ => True

/-- The bus does not do what it is asked for. -/
def Action.Fault : Action → Prop
  | .stateFails _ | .unitRemovedFails _ => True
  | .subscribeUnitRemoved ok | .subscribeState ok | .get ok => ok = false
  | _ => False

/-- Nothing is left for the task to do, until something else happens. -/
def Settled (unitName : String) (w : World) : Prop := ∀ a, Action.OfTask a → step unitName w a = none

/-! ## What tells of the end -/

def Tells (reply : Option Value) : Prop := ∀ state, currentUnitState reply = some state → (terminalState state).isSome

def TellsItem : Item PropertiesChanged → Prop
  | .body p => p.terminal.isSome
  | _ => False

/-- The monitor has something before it that tells of the end of the unit. -/
structure Held (unitName : String) (w : World) : Prop where
  listening : Phase.Listening w.phase
  tells : (∃ reply, w.phase = .asked reply ∧ Tells reply) ∨ (∃ item ∈ w.stateStream.getD [], TellsItem item) ∨
    .body unitName ∈ w.unitRemovedStream.getD []

theorem tells_answer : Tells (w.answer true) ↔ w.Ended := by
  rw [Tells, World.Ended, World.answer, if_pos rfl]
  cases w.unit <;> simp [currentUnitState]

/-! ## What the monitor does with what it reads -/

theorem settle_cases (w : World) (item : Item PropertiesChanged) :
    w.settle item = { w with phase := .monitoring, stateStream := none } ∨
      w.settle item = { w with phase := .launchFailed } ∨ w.settle item = w := by
  cases item with
  | broken => exact .inl rfl
  | malformed => exact .inr (.inl rfl)
  | body p =>
    rw [World.settle]
    split
    · exact .inr (.inl rfl)
    · exact .inr (.inr rfl)

theorem watchState_cases (w : World) (item : Item PropertiesChanged) :
    TellsItem item ∧ w.watchState item = w.notice ∨ ¬ TellsItem item ∧ w.watchState item = w ∨
      (∀ p, item ≠ .body p) ∧ w.watchState item = { w with phase := .monitorFailed } := by
  cases item with
  | broken | malformed => exact .inr (.inr ⟨by simp, rfl⟩)
  | body p =>
    by_cases hterminal : p.terminal.isSome
    · exact .inl ⟨hterminal, if_pos hterminal⟩
    · exact .inr (.inl ⟨hterminal, if_neg hterminal⟩)

theorem watchUnitRemoved_cases (unitName : String) (w : World) (item : Item String) :
    item = .body unitName ∧ w.watchUnitRemoved unitName item = w.notice ∨
      item ≠ .body unitName ∧ w.watchUnitRemoved unitName item = w ∨
      (∀ id, item ≠ .body id) ∧ w.watchUnitRemoved unitName item = { w with phase := .monitorFailed } := by
  cases item with
  | broken | malformed => exact .inr (.inr ⟨by simp, rfl⟩)
  | body id =>
    by_cases hid : id = unitName
    · exact .inl ⟨congrArg _ hid, if_pos hid⟩
    · exact .inr (.inl ⟨by simp [hid], if_neg hid⟩)

theorem step_reply (hs : step unitName w .reply = some w') : ∃ reply, w.phase = .asked reply ∧
    (Tells reply ∧ w' = w.notice ∨ ¬ Tells reply ∧ w' = { w with phase := .watching }) := by
  simp only [step] at hs
  split at hs
  next reply hphase =>
    refine ⟨reply, hphase, ?_⟩
    split at hs
    next hreply =>
      cases hs
      exact .inl ⟨by simp [Tells, hreply], rfl⟩
    next state hreply =>
      cases hs
      by_cases hterminal : (terminalState state).isSome
      · exact .inl ⟨by simp [Tells, hreply, hterminal], if_pos hterminal⟩
      · exact .inr ⟨by simp [Tells, hreply, hterminal], if_neg hterminal⟩
  next => cases hs

theorem step_nextState (hs : step unitName w .nextState = some w') : ∃ item items,
    w.stateStream = some (item :: items) ∧
      (w.phase = .settling ∧ w' = { w with stateStream := some items }.settle item ∨
        w.phase = .watching ∧ w' = { w with stateStream := some items }.watchState item) := by
  simp only [step] at hs
  split at hs
  next item items hphase hstream => cases hs; exact ⟨item, items, hstream, .inl ⟨hphase, rfl⟩⟩
  next item items hphase hstream => cases hs; exact ⟨item, items, hstream, .inr ⟨hphase, rfl⟩⟩
  next => cases hs

theorem step_nextUnitRemoved (hs : step unitName w .nextUnitRemoved = some w') : ∃ item items,
    w.phase = .watching ∧ w.unitRemovedStream = some (item :: items) ∧
      w' = { w with unitRemovedStream := some items }.watchUnitRemoved unitName item := by
  simp only [step] at hs
  split at hs
  next item items hphase hstream => cases hs; exact ⟨item, items, hphase, hstream, rfl⟩
  next => cases hs

/-! ## The task comes to rest -/

def Phase.rank : Phase → Nat
  | .starting => 11
  | .launching => 10
  | .gettingUnit => 9
  | .checking => 8
  | .subscribing => 7
  | .settling => 6
  | .monitoring => 5
  | .removedSubscribed => 4
  | .stateSubscribed => 3
  | .asked _ => 2
  | .watching => 1
  | .launchFailed | .exitNoticed | .monitorFailed | .monitorStopped => 0

def left (w : World) : Nat :=
  Phase.rank w.phase + (w.stateStream.getD []).length + (w.unitRemovedStream.getD []).length

theorem left_lt {a : Action} (ha : Action.OfTask a) (hs : step unitName w a = some w') : left w' < left w := by
  cases a with
  | setActiveState | properties | unload | unloadOther | stateFails | unitRemovedFails | triggerShutdown | abort =>
    exact ha.elim
  | nextState =>
    obtain ⟨item, items, hstream, ⟨hphase, rfl⟩ | ⟨hphase, rfl⟩⟩ := step_nextState hs
    · rcases settle_cases { w with stateStream := some items } item with h | h | h
      all_goals rw [h]; simp [left, hphase, hstream, Phase.rank] <;> omega
    · rcases watchState_cases { w with stateStream := some items } item with ⟨-, h⟩ | ⟨-, h⟩ | ⟨-, h⟩
      all_goals rw [h]; simp [left, hphase, hstream, Phase.rank, World.notice] <;> omega
  | nextUnitRemoved =>
    obtain ⟨item, items, hphase, hstream, rfl⟩ := step_nextUnitRemoved hs
    rcases watchUnitRemoved_cases unitName { w with unitRemovedStream := some items } item with
      ⟨-, h⟩ | ⟨-, h⟩ | ⟨-, h⟩
    all_goals rw [h]; simp [left, hphase, hstream, Phase.rank, World.notice] <;> omega
  | reply =>
    obtain ⟨reply, hphase, ⟨-, rfl⟩ | ⟨-, rfl⟩⟩ := step_reply hs
    all_goals simp [left, hphase, Phase.rank, World.notice]
  | _ =>
    obtain ⟨unit, stateStream, unitRemovedStream, phase, shutdown⟩ := w
    simp only [step] at hs
    repeat' split at hs
    all_goals cases hs
    all_goals simp [left, Phase.rank] <;> omega

/-- A step of systemd and the bus. What it adds to the streams tells of the end if the unit is
then at its end, and it does tell of it if the unit was not before. -/
structure Sends (unitName : String) (a : Action) (w w' : World) (items : List (Item PropertiesChanged))
    (removed : List (Item String)) : Prop where
  phase : w'.phase = w.phase
  stateStream : w'.stateStream = w.stateStream.map (· ++ items)
  unitRemovedStream : w'.unitRemovedStream = w.unitRemovedStream.map (· ++ removed)
  shutdown : w'.shutdown = true → w.shutdown = true ∨ a = .triggerShutdown
  sound : (∃ item ∈ items, TellsItem item) ∨ .body unitName ∈ removed → w'.Ended
  complete : w'.Ended → w.Ended ∨ (∃ item ∈ items, TellsItem item) ∨ .body unitName ∈ removed
  faults : (∃ item ∈ items, ∀ p, item ≠ .body p) ∨ (∃ item ∈ removed, ∀ id, item ≠ .body id) → Action.Fault a

theorem terminal_activeState (state : String) :
    (PropertiesChanged.terminal ⟨unitInterface, some (.str state)⟩) = terminalState state := by
  simp [PropertiesChanged.terminal]

theorem map_append_nil {α : Type} (stream : Option (List α)) : stream = stream.map (· ++ []) := by
  cases stream <;> simp

theorem sends_of_step {a : Action} (ha : ¬ Action.OfTask a) (habort : a ≠ .abort) (hs : step unitName w a = some w') :
    ∃ items removed, Sends unitName a w w' items removed := by
  cases a with
  | setActiveState state =>
    simp only [step] at hs
    split at hs
    next =>
      cases hs
      refine ⟨[.body ⟨unitInterface, some (.str state)⟩], [], rfl, rfl, map_append_nil _, .inl, ?_, ?_, by simp⟩
      · simp [TellsItem, terminal_activeState, World.Ended, World.sendState]
      · simpa [TellsItem, terminal_activeState, World.Ended, World.sendState] using fun h => .inr h
    next => cases hs
  | properties p =>
    simp only [step] at hs
    split at hs
    next state hunit =>
      split at hs
      next hsame =>
        cases hs
        refine ⟨[.body p], [], rfl, rfl, map_append_nil _, .inl, ?_, .inl, by simp⟩
        -- It does not change the state, so what it tells is so.
        simp only [List.mem_singleton, exists_eq_left, List.not_mem_nil, or_false, TellsItem]
        intro hterminal s hs
        cases hunit.symm.trans hs
        unfold PropertiesChanged.terminal at hterminal
        split at hterminal
        · cases hterminal
        next hinterface =>
          split at hterminal
          next value hvalue =>
            cases hsame (not_not.mp hinterface) _ hvalue
            exact hterminal
          next => cases hterminal
      next => cases hs
    next => cases hs
  | unload =>
    simp only [step] at hs
    split at hs
    next =>
      cases hs
      refine ⟨[], [.body unitName], rfl, map_append_nil _, rfl, .inl, fun _ state hstate => ?_, fun _ => by simp,
        by simp⟩
      cases (hstate : none = some state)
    next => cases hs
  | unloadOther id =>
    simp only [step] at hs
    split at hs
    next hid =>
      cases hs
      exact ⟨[], [.body id], rfl, map_append_nil _, rfl, .inl, by simp [Ne.symm hid], .inl, by simp⟩
    next => cases hs
  | stateFails item =>
    simp only [step] at hs
    split at hs
    next => cases hs
    next hitem =>
      cases hs
      refine ⟨[item], [], rfl, rfl, map_append_nil _, .inl, ?_, .inl, fun _ => trivial⟩
      cases item with
      | body p => exact absurd rfl (hitem p)
      | _ => simp [TellsItem]
  | unitRemovedFails item =>
    simp only [step] at hs
    split at hs
    next => cases hs
    next hitem =>
      cases hs
      exact ⟨[], [item], rfl, map_append_nil _, rfl, .inl, by simp [Ne.symm (hitem unitName)], .inl, fun _ => trivial⟩
  | triggerShutdown =>
    cases hs
    exact ⟨[], [], rfl, map_append_nil _, map_append_nil _, fun _ => .inr rfl, by simp, .inl, by simp⟩
  | abort => exact absurd rfl habort
  | _ => exact absurd trivial ha

/-! ## The invariant -/

/-- In some state of the run the unit was at its end, and the phase as said. -/
def Since (unitName : String) (leftover : Option String) (phase : Phase → Prop) (as : List Action) : Prop :=
  Once (step unitName) (.start leftover) (fun m => phase m.phase ∧ m.Ended) as

def Faulty (as : List Action) : Prop := ∃ a ∈ as, Action.Fault a

structure Inv (unitName : String) (leftover : Option String) (as : List Action) (w : World) : Prop where
  unsubscribed : w.phase = .monitoring ∨ w.phase = .removedSubscribed → w.stateStream = none
  subscribed : Phase.Answered w.phase ∨ w.phase = .stateSubscribed → w.stateStream.isSome
  removedSubscribed : Phase.Listening w.phase → w.unitRemovedStream.isSome
  early : Phase.Early w.phase → ¬ Since unitName leftover Phase.Answered as
  sound : Held unitName w ∨ w.phase = .exitNoticed → Since unitName leftover Phase.Monitored as ∨ .get false ∈ as
  complete : Phase.Answered w.phase → Since unitName leftover Phase.Answered as → Held unitName w
  stateFaults : (∃ item ∈ w.stateStream.getD [], ∀ p, item ≠ .body p) → Faulty as
  removedFaults : (∃ item ∈ w.unitRemovedStream.getD [], ∀ id, item ≠ .body id) → Faulty as
  failed : w.phase = .monitorFailed → Faulty as
  shutdown : w.shutdown = true → w.phase = .exitNoticed ∨ .triggerShutdown ∈ as
  stopped : w.phase = .monitorStopped → .triggerShutdown ∈ as ∨ .abort ∈ as

theorem Faulty.append (h : Faulty as) (a : Action) : Faulty (as ++ [a]) :=
  h.imp fun _ h => ⟨List.mem_append_left _ h.1, h.2⟩

theorem faulty_of_last {a : Action} (ha : Action.Fault a) : Faulty (as ++ [a]) := ⟨a, by simp, ha⟩

theorem Phase.Answered.listening {phase : Phase} (h : Phase.Answered phase) : Phase.Listening phase := by
  cases phase <;> first | exact h.elim | trivial

theorem Phase.Listening.monitored {phase : Phase} (h : Phase.Listening phase) : Phase.Monitored phase := by
  cases phase <;> first | exact h.elim | trivial

theorem Phase.Early.not_answered {phase : Phase} (h : Phase.Early phase) : ¬ Phase.Answered phase := by
  cases phase <;> first | exact h.elim | exact id

theorem Inv.start (unitName : String) (leftover : Option String) : Inv unitName leftover [] (.start leftover) where
  unsubscribed _ := rfl
  subscribed h := by rcases h with h | h <;> cases h
  removedSubscribed h := h.elim
  early _ h := (once_nil.mp h).1
  sound h := by rcases h with h | h; exacts [h.listening.elim, nomatch h]
  complete h := h.elim
  stateFaults h := by simp [World.start] at h
  removedFaults h := by simp [World.start] at h
  failed h := nomatch h
  shutdown h := nomatch h
  stopped h := nomatch h

theorem mem_getD_map_append {α : Type} {stream : Option (List α)} {items : List α} {item : α} :
    item ∈ (stream.map (· ++ items)).getD [] ↔ item ∈ stream.getD [] ∨ stream.isSome ∧ item ∈ items := by
  cases stream <;> simp

variable {a : Action} {items : List (Item PropertiesChanged)} {removed : List (Item String)}

theorem Sends.held (hsend : Sends unitName a w w' items removed) (h : Held unitName w) : Held unitName w' := by
  refine ⟨hsend.phase ▸ h.listening, ?_⟩
  rw [hsend.phase, hsend.stateStream, hsend.unitRemovedStream]
  refine h.tells.imp_right (Or.imp (fun h => ?_) fun h => ?_)
  · exact h.imp fun _ h => ⟨mem_getD_map_append.mpr (.inl h.1), h.2⟩
  · exact mem_getD_map_append.mpr (.inl h)

/-- What the monitor has before it after that, it had, or it was sent. -/
theorem Sends.held_or (hsend : Sends unitName a w w' items removed) (h : Held unitName w') :
    Held unitName w ∨ w'.Ended := by
  have hlistening : Phase.Listening w.phase := hsend.phase ▸ h.listening
  have htells := h.tells
  rw [hsend.phase, hsend.stateStream, hsend.unitRemovedStream, mem_getD_map_append] at htells
  rcases htells with hasked | ⟨item, hitem, htells⟩ | hremoved | ⟨-, hremoved⟩
  · exact .inl ⟨hlistening, .inl hasked⟩
  · rcases mem_getD_map_append.mp hitem with hitem | ⟨-, hitem⟩
    · exact .inl ⟨hlistening, .inr (.inl ⟨item, hitem, htells⟩)⟩
    · exact .inr (hsend.sound (.inl ⟨item, hitem, htells⟩))
  · exact .inl ⟨hlistening, .inr (.inr hremoved)⟩
  · exact .inr (hsend.sound (.inr hremoved))

theorem Inv.send (h : Inv unitName leftover as w) (hw : exec (step unitName) (.start leftover) as = some w)
    (hw' : exec (step unitName) (.start leftover) (as ++ [a]) = some w')
    (hsend : Sends unitName a w w' items removed) : Inv unitName leftover (as ++ [a]) w' where
  unsubscribed hphase := by rw [hsend.stateStream, h.unsubscribed (hsend.phase ▸ hphase), Option.map_none]
  subscribed hphase := by
    rw [hsend.stateStream, Option.isSome_map]
    exact h.subscribed (hsend.phase ▸ hphase)
  removedSubscribed hphase := by
    rw [hsend.unitRemovedStream, Option.isSome_map]
    exact h.removedSubscribed (hsend.phase ▸ hphase)
  early hphase hsince := by
    rcases (once_append_singleton hw').mp hsince with hsince | ⟨hanswered, -⟩
    · exact h.early (hsend.phase ▸ hphase) hsince
    · exact hphase.not_answered hanswered
  sound hor := by
    rcases hor with hheld | hnoticed
    · rcases hsend.held_or hheld with hheld | hended
      · exact (h.sound (.inl hheld)).imp (·.append _) (List.mem_append_left _)
      · exact .inl (.now hw' ⟨hheld.listening.monitored, hended⟩)
    · exact (h.sound (.inr (hsend.phase ▸ hnoticed))).imp (·.append _) (List.mem_append_left _)
  complete hanswered hsince := by
    have hanswered' : Phase.Answered w.phase := hsend.phase ▸ hanswered
    rcases (once_append_singleton hw').mp hsince with hsince | ⟨-, hended⟩
    · exact hsend.held (h.complete hanswered' hsince)
    · rcases hsend.complete hended with hended | hsent
      · exact hsend.held (h.complete hanswered' (.now hw ⟨hanswered', hended⟩))
      · refine ⟨hanswered.listening, .inr (hsent.imp (fun hsent => ?_) fun hsent => ?_)⟩
        · rw [hsend.stateStream]
          exact hsent.imp fun _ hsent => ⟨mem_getD_map_append.mpr (.inr ⟨h.subscribed (.inl hanswered'), hsent.1⟩),
            hsent.2⟩
        · rw [hsend.unitRemovedStream]
          exact mem_getD_map_append.mpr (.inr ⟨h.removedSubscribed hanswered'.listening, hsent⟩)
  stateFaults hitem := by
    obtain ⟨item, hitem, hfault⟩ := hitem
    rw [hsend.stateStream] at hitem
    rcases mem_getD_map_append.mp hitem with hitem | ⟨-, hitem⟩
    · exact (h.stateFaults ⟨item, hitem, hfault⟩).append a
    · exact faulty_of_last (hsend.faults (.inl ⟨item, hitem, hfault⟩))
  removedFaults hitem := by
    obtain ⟨item, hitem, hfault⟩ := hitem
    rw [hsend.unitRemovedStream] at hitem
    rcases mem_getD_map_append.mp hitem with hitem | ⟨-, hitem⟩
    · exact (h.removedFaults ⟨item, hitem, hfault⟩).append a
    · exact faulty_of_last (hsend.faults (.inr ⟨item, hitem, hfault⟩))
  failed hphase := (h.failed (hsend.phase ▸ hphase)).append a
  shutdown hshutdown := by
    rw [hsend.phase]
    rcases hsend.shutdown hshutdown with hshutdown | rfl
    · exact (h.shutdown hshutdown).imp_right (List.mem_append_left _)
    · exact .inr (by simp)
  stopped hphase := (h.stopped (hsend.phase ▸ hphase)).imp (List.mem_append_left _) (List.mem_append_left _)

/-- A step of the task that does not leave it listening, and puts nothing into the streams. -/
theorem Inv.quiet (h : Inv unitName leftover as w)
    (hw' : exec (step unitName) (.start leftover) (as ++ [a]) = some w') (hlistening : ¬ Phase.Listening w'.phase)
    (hearly : Phase.Early w'.phase → Phase.Early w.phase) (hstate : w'.stateStream.getD [] ⊆ w.stateStream.getD [])
    (hremoved : w'.unitRemovedStream.getD [] ⊆ w.unitRemovedStream.getD [])
    (hunsubscribed : w'.phase = .monitoring → w'.stateStream = none)
    (hnoticed : w'.phase = .exitNoticed → Held unitName w)
    (hfailed : w'.phase = .monitorFailed → Faulty (as ++ [a]))
    (hstopped : w'.phase = .monitorStopped → w.shutdown = true ∧ w.phase ≠ .exitNoticed ∨ a = .abort)
    (hshutdown : w'.phase = .exitNoticed ∨ w'.shutdown = w.shutdown ∧ w.phase ≠ .exitNoticed) :
    Inv unitName leftover (as ++ [a]) w' where
  unsubscribed hphase := hphase.elim hunsubscribed fun hphase => (hlistening (hphase ▸ trivial)).elim
  subscribed hphase := (hlistening (hphase.elim (·.listening) (· ▸ trivial))).elim
  removedSubscribed hphase := (hlistening hphase).elim
  early hphase hsince := by
    rcases (once_append_singleton hw').mp hsince with hsince | ⟨hanswered, -⟩
    · exact h.early (hearly hphase) hsince
    · exact hlistening hanswered.listening
  sound hor := by
    rcases hor with hheld | hphase
    · exact (hlistening hheld.listening).elim
    · exact (h.sound (.inl (hnoticed hphase))).imp (·.append _) (List.mem_append_left _)
  complete hanswered := (hlistening hanswered.listening).elim
  stateFaults hitem := (h.stateFaults (hitem.imp fun _ hitem => ⟨hstate hitem.1, hitem.2⟩)).append a
  removedFaults hitem := (h.removedFaults (hitem.imp fun _ hitem => ⟨hremoved hitem.1, hitem.2⟩)).append a
  failed := hfailed
  shutdown hs := by
    rcases hshutdown with hphase | ⟨hsame, hphase⟩
    · exact .inl hphase
    · exact .inr (List.mem_append_left _ ((h.shutdown (hsame ▸ hs)).resolve_left hphase))
  stopped hphase := by
    rcases hstopped hphase with ⟨hs, hphase⟩ | rfl
    · exact .inl (List.mem_append_left _ ((h.shutdown hs).resolve_left hphase))
    · exact .inr (by simp)

/-- A step of the task that leaves it listening. -/
theorem Inv.listen (h : Inv unitName leftover as w)
    (hw' : exec (step unitName) (.start leftover) (as ++ [a]) = some w') (hlistening : Phase.Listening w'.phase)
    (hbefore : Phase.Early w.phase ∨ Phase.Answered w'.phase ∧ Phase.Answered w.phase)
    (hshutdown : w'.shutdown = w.shutdown) (hunsubscribed : w'.phase = .removedSubscribed → w'.stateStream = none)
    (hsubscribed : Phase.Answered w'.phase ∨ w'.phase = .stateSubscribed → w'.stateStream.isSome)
    (hremovedSubscribed : w'.unitRemovedStream.isSome) (hstate : w'.stateStream.getD [] ⊆ w.stateStream.getD [])
    (hremoved : w'.unitRemovedStream.getD [] ⊆ w.unitRemovedStream.getD [])
    (hsound : Held unitName w' →
      Since unitName leftover Phase.Monitored (as ++ [a]) ∨ Action.get false ∈ as ++ [a])
    (hcomplete : Phase.Answered w'.phase → Since unitName leftover Phase.Answered (as ++ [a]) → Held unitName w') :
    Inv unitName leftover (as ++ [a]) w' where
  unsubscribed hphase := hphase.elim (fun hphase => by rw [hphase] at hlistening; exact hlistening.elim) hunsubscribed
  subscribed := hsubscribed
  removedSubscribed _ := hremovedSubscribed
  early hphase hsince := by
    rcases (once_append_singleton hw').mp hsince with hsince | ⟨hanswered, -⟩
    · rcases hbefore with hearly | ⟨hanswered, -⟩
      · exact h.early hearly hsince
      · exact hphase.not_answered hanswered
    · exact hphase.not_answered hanswered
  sound hor := hor.elim hsound fun hphase => by rw [hphase] at hlistening; exact hlistening.elim
  complete := hcomplete
  stateFaults hitem := (h.stateFaults (hitem.imp fun _ hitem => ⟨hstate hitem.1, hitem.2⟩)).append a
  removedFaults hitem := (h.removedFaults (hitem.imp fun _ hitem => ⟨hremoved hitem.1, hitem.2⟩)).append a
  failed hphase := by rw [hphase] at hlistening; exact hlistening.elim
  shutdown hs := by
    refine .inr (List.mem_append_left _ ((h.shutdown (hshutdown ▸ hs)).resolve_left fun hphase => ?_))
    rw [hphase] at hbefore
    exact hbefore.elim id And.right
  stopped hphase := by rw [hphase] at hlistening; exact hlistening.elim

/-- A step of the monitor after the answer, that notices nothing: what it has read does not tell of the end. -/
theorem Inv.goOn (h : Inv unitName leftover as w) (hw : exec (step unitName) (.start leftover) as = some w)
    (hw' : exec (step unitName) (.start leftover) (as ++ [a]) = some w') (hbefore : Phase.Answered w.phase)
    (hafter : Phase.Answered w'.phase) (hunit : w'.unit = w.unit) (hshutdown : w'.shutdown = w.shutdown)
    (hsubscribed : w'.stateStream.isSome) (hremovedSubscribed : w'.unitRemovedStream.isSome)
    (hstate : w'.stateStream.getD [] ⊆ w.stateStream.getD [])
    (hremoved : w'.unitRemovedStream.getD [] ⊆ w.unitRemovedStream.getD [])
    (hheld : Held unitName w' ↔ Held unitName w) : Inv unitName leftover (as ++ [a]) w' := by
  refine h.listen hw' hafter.listening (.inr ⟨hafter, hbefore⟩) hshutdown (fun hphase => ?_) (fun _ => hsubscribed)
    hremovedSubscribed hstate hremoved (fun hheld' => ?_) fun _ hsince => hheld.mpr ?_
  · rw [hphase] at hafter
    exact hafter.elim
  · exact (h.sound (.inl (hheld.mp hheld'))).imp (·.append _) (List.mem_append_left _)
  · rcases (once_append_singleton hw').mp hsince with hsince | ⟨-, hended⟩
    · exact h.complete hbefore hsince
    · refine h.complete hbefore (.now hw ⟨hbefore, fun state hstate => hended state ?_⟩)
      rw [hunit, hstate]

/-- The monitor notices what was before it. -/
theorem Inv.notice (h : Inv unitName leftover as w)
    (hw' : exec (step unitName) (.start leftover) (as ++ [a]) = some w') (hheld : Held unitName w)
    (hphase : w'.phase = .exitNoticed) (hstate : w'.stateStream.getD [] ⊆ w.stateStream.getD [])
    (hremoved : w'.unitRemovedStream.getD [] ⊆ w.unitRemovedStream.getD []) :
    Inv unitName leftover (as ++ [a]) w' := by
  have hne (phase : Phase) (h : phase ≠ .exitNoticed) : w'.phase ≠ phase := fun heq => h (heq.symm.trans hphase)
  refine h.quiet hw' (hphase ▸ id) (fun hearly => ?_) hstate hremoved (absurd · (hne .monitoring nofun))
    (fun _ => hheld) (absurd · (hne .monitorFailed nofun)) (absurd · (hne .monitorStopped nofun)) (.inl hphase)
  rw [hphase] at hearly
  exact hearly.elim

/-- A step of the launch. -/
theorem Inv.launch (h : Inv unitName leftover as w)
    (hw' : exec (step unitName) (.start leftover) (as ++ [a]) = some w') (hearly : Phase.Early w.phase)
    (hphase : ¬ Phase.Monitored w'.phase) (hstate : w'.stateStream.getD [] ⊆ w.stateStream.getD [])
    (hremoved : w'.unitRemovedStream = w.unitRemovedStream) (hshutdown : w'.shutdown = w.shutdown) :
    Inv unitName leftover (as ++ [a]) w' := by
  have hne (phase : Phase) (hmonitored : Phase.Monitored phase) : w'.phase ≠ phase := fun heq =>
    hphase (heq ▸ hmonitored)
  refine h.quiet hw' (fun hlistening => hphase hlistening.monitored) (fun _ => hearly) hstate
    (hremoved ▸ List.Subset.refl _) (absurd · (hne .monitoring trivial)) (absurd · (hne .exitNoticed trivial))
    (absurd · (hne .monitorFailed trivial)) (absurd · (hne .monitorStopped trivial))
    (.inr ⟨hshutdown, fun heq => ?_⟩)
  rw [heq] at hearly
  exact hearly

/-- The monitor goes through what systemd has answered. -/
theorem Inv.reply (h : Inv unitName leftover as w) (hw : exec (step unitName) (.start leftover) as = some w)
    (hw' : exec (step unitName) (.start leftover) (as ++ [.reply]) = some w')
    (hs : step unitName w .reply = some w') : Inv unitName leftover (as ++ [.reply]) w' := by
  obtain ⟨reply, hphase, ⟨htells, rfl⟩ | ⟨htells, rfl⟩⟩ := step_reply hs
  · exact h.notice hw' ⟨hphase ▸ trivial, .inl ⟨reply, hphase, htells⟩⟩ rfl (List.Subset.refl _) (List.Subset.refl _)
  · have hanswered : Phase.Answered w.phase := hphase ▸ trivial
    refine h.goOn hw hw' hanswered trivial rfl rfl (h.subscribed (.inl hanswered))
      (h.removedSubscribed hanswered.listening) (List.Subset.refl _) (List.Subset.refl _)
      ⟨fun hheld => ?_, fun hheld => ?_⟩
    · refine ⟨hanswered.listening, hheld.tells.imp_left fun hasked => ?_⟩
      obtain ⟨_, hasked, -⟩ := hasked
      cases hasked
    · rcases hheld.tells with ⟨_, hasked, hreply⟩ | hitem
      · cases hphase.symm.trans hasked
        exact absurd hreply htells
      · exact ⟨trivial, .inr hitem⟩

theorem Inv.nextState (h : Inv unitName leftover as w) (hw : exec (step unitName) (.start leftover) as = some w)
    (hw' : exec (step unitName) (.start leftover) (as ++ [.nextState]) = some w')
    (hs : step unitName w .nextState = some w') : Inv unitName leftover (as ++ [.nextState]) w' := by
  obtain ⟨item, items, hstream, hor⟩ := step_nextState hs
  have hpopped : items ⊆ w.stateStream.getD [] := by rw [hstream]; exact List.subset_cons_self ..
  have hfirst : item ∈ w.stateStream.getD [] := by rw [hstream]; exact List.mem_cons_self
  rcases hor with ⟨hphase, rfl⟩ | ⟨hphase, rfl⟩
  · have hearly : Phase.Early w.phase := hphase ▸ trivial
    rcases settle_cases { w with stateStream := some items } item with heq | heq | heq
    · rw [heq] at hw' ⊢
      exact h.quiet hw' id (fun _ => hearly) (List.nil_subset _) (List.Subset.refl _) (fun _ => rfl) nofun nofun nofun
        (.inr ⟨rfl, by simp [hphase]⟩)
    · rw [heq] at hw' ⊢
      exact h.launch hw' hearly id hpopped rfl rfl
    · rw [heq] at hw' ⊢
      exact h.launch hw' hearly (by simp [hphase, Phase.Monitored]) hpopped rfl rfl
  · have hanswered : Phase.Answered w.phase := hphase ▸ trivial
    rcases watchState_cases { w with stateStream := some items } item with
      ⟨htells, heq⟩ | ⟨htells, heq⟩ | ⟨hfault, heq⟩
    · rw [heq] at hw' ⊢
      exact h.notice hw' ⟨hanswered.listening, .inr (.inl ⟨item, hfirst, htells⟩)⟩ rfl hpopped (List.Subset.refl _)
    · rw [heq] at hw' ⊢
      refine h.goOn hw hw' hanswered hanswered rfl rfl rfl (h.removedSubscribed hanswered.listening) hpopped
        (List.Subset.refl _) ⟨fun hheld => ?_, fun hheld => ?_⟩
      · refine ⟨hanswered.listening, hheld.tells.imp_right (Or.imp_left ?_)⟩
        exact fun ⟨item, hitem, htells⟩ => ⟨item, hpopped hitem, htells⟩
      · refine ⟨hanswered.listening, hheld.tells.imp_right (Or.imp_left ?_)⟩
        rintro ⟨other, hitem, hother⟩
        rw [hstream] at hitem
        rcases List.mem_cons.mp hitem with rfl | hitem
        · exact absurd hother htells
        · exact ⟨other, hitem, hother⟩
    · rw [heq] at hw' ⊢
      exact h.quiet hw' id nofun hpopped (List.Subset.refl _) nofun nofun
        (fun _ => (h.stateFaults ⟨item, hfirst, hfault⟩).append _) nofun (.inr ⟨rfl, by simp [hphase]⟩)

theorem Inv.nextUnitRemoved (h : Inv unitName leftover as w)
    (hw : exec (step unitName) (.start leftover) as = some w)
    (hw' : exec (step unitName) (.start leftover) (as ++ [.nextUnitRemoved]) = some w')
    (hs : step unitName w .nextUnitRemoved = some w') : Inv unitName leftover (as ++ [.nextUnitRemoved]) w' := by
  obtain ⟨item, items, hphase, hstream, rfl⟩ := step_nextUnitRemoved hs
  have hpopped : items ⊆ w.unitRemovedStream.getD [] := by rw [hstream]; exact List.subset_cons_self ..
  have hfirst : item ∈ w.unitRemovedStream.getD [] := by rw [hstream]; exact List.mem_cons_self
  have hanswered : Phase.Answered w.phase := hphase ▸ trivial
  rcases watchUnitRemoved_cases unitName { w with unitRemovedStream := some items } item with
    ⟨rfl, heq⟩ | ⟨hne, heq⟩ | ⟨hfault, heq⟩
  · rw [heq] at hw' ⊢
    exact h.notice hw' ⟨hanswered.listening, .inr (.inr hfirst)⟩ rfl (List.Subset.refl _) hpopped
  · rw [heq] at hw' ⊢
    refine h.goOn hw hw' hanswered hanswered rfl rfl (h.subscribed (.inl hanswered)) rfl (List.Subset.refl _) hpopped
      ⟨fun hheld => ?_, fun hheld => ?_⟩
    · exact ⟨hanswered.listening, hheld.tells.imp_right (Or.imp_right (hpopped ·))⟩
    · refine ⟨hanswered.listening, hheld.tells.imp_right (Or.imp_right fun hremoved => ?_)⟩
      rw [hstream] at hremoved
      exact (List.mem_cons.mp hremoved).resolve_left hne.symm
  · rw [heq] at hw' ⊢
    exact h.quiet hw' id nofun (List.Subset.refl _) hpopped nofun nofun
      (fun _ => (h.removedFaults ⟨item, hfirst, hfault⟩).append _) nofun (.inr ⟨rfl, by simp [hphase]⟩)

theorem Inv.task (h : Inv unitName leftover as w) (hw : exec (step unitName) (.start leftover) as = some w)
    (hw' : exec (step unitName) (.start leftover) (as ++ [a]) = some w') (ha : Action.OfTask a ∨ a = .abort)
    (hs : step unitName w a = some w') : Inv unitName leftover (as ++ [a]) w' := by
  obtain ⟨unit, stateStream, unitRemovedStream, phase, shutdown⟩ := w
  cases a with
  | setActiveState | properties | unload | unloadOther | stateFails | unitRemovedFails | triggerShutdown =>
    exact (ha.elim id nofun).elim
  | abort =>
    simp only [step] at hs
    split at hs
    all_goals first
      | cases hs
        exact h.quiet hw' nofun nofun (List.Subset.refl _) (List.Subset.refl _) nofun nofun nofun (fun _ => .inr rfl)
          (.inr ⟨rfl, nofun⟩)
      | cases hs
  | stopMonitor =>
    simp only [step] at hs
    split at hs
    all_goals try (split at hs)
    all_goals first
      | cases hs
        exact h.quiet hw' nofun nofun (List.Subset.refl _) (List.Subset.refl _) nofun nofun nofun
          (fun _ => .inl ⟨by assumption, nofun⟩) (.inr ⟨rfl, nofun⟩)
      | cases hs
  | startTransientUnit active =>
    simp only [step] at hs
    split at hs
    next => cases hs; exact h.launch hw' trivial id (List.Subset.refl _) rfl rfl
    next =>
      split at hs
      next => cases hs; exact h.launch hw' trivial id (List.Subset.refl _) rfl rfl
      next => cases hs
    next => cases hs
  | jobRemoved done =>
    simp only [step] at hs
    split at hs
    next => cases hs; exact h.launch hw' trivial (by cases done <;> exact id) (List.Subset.refl _) rfl rfl
    next => cases hs
  | getUnit answered =>
    simp only [step] at hs
    split at hs
    next => cases hs; exact h.launch hw' trivial (by dsimp only; split <;> exact id) (List.Subset.refl _) rfl rfl
    next => cases hs
  | check answered =>
    simp only [step] at hs
    split at hs
    next =>
      split at hs
      next => cases hs; exact h.launch hw' trivial id (List.Subset.refl _) rfl rfl
      next => cases hs; exact h.launch hw' trivial (by dsimp only; split <;> exact id) (List.Subset.refl _) rfl rfl
    next => cases hs
  | subscribe ok =>
    simp only [step] at hs
    split at hs
    next =>
      cases hs
      cases ok with
      | true => exact h.launch hw' trivial id (List.nil_subset _) rfl rfl
      | false => exact h.launch hw' trivial id (List.Subset.refl _) rfl rfl
    next => cases hs
  | launchTimeout =>
    simp only [step] at hs
    split at hs
    next =>
      cases hs
      exact h.quiet hw' id (fun _ => trivial) (List.nil_subset _) (List.Subset.refl _) (fun _ => rfl) nofun nofun
        nofun (.inr ⟨rfl, nofun⟩)
    next => cases hs
  | subscribeUnitRemoved ok =>
    simp only [step] at hs
    split at hs
    next =>
      cases hs
      cases ok with
      | true =>
        have hnone : stateStream = none := h.unsubscribed (.inl rfl)
        refine h.listen hw' trivial (.inl trivial) rfl (fun _ => hnone) (fun hor => hor.elim False.elim nofun) rfl
          (List.Subset.refl _) (List.nil_subset _) (fun hheld => ?_) False.elim
        subst hnone
        rcases hheld.tells with ⟨_, hphase, -⟩ | ⟨_, hitem, -⟩ | hitem
        · cases hphase
        · cases hitem
        · cases hitem
      | false =>
        exact h.quiet hw' id (fun _ => trivial) (List.Subset.refl _) (List.Subset.refl _) nofun nofun
          (fun _ => faulty_of_last rfl) nofun (.inr ⟨rfl, nofun⟩)
    next => cases hs
  | subscribeState ok =>
    simp only [step] at hs
    split at hs
    next =>
      cases hs
      cases ok with
      | true =>
        refine h.listen hw' trivial (.inl trivial) rfl nofun (fun _ => rfl) (h.removedSubscribed trivial)
          (List.nil_subset _) (List.Subset.refl _) (fun hheld => ?_) False.elim
        rcases hheld.tells with ⟨_, hphase, -⟩ | ⟨_, hitem, -⟩ | hitem
        · cases hphase
        · cases hitem
        · exact (h.sound (.inl ⟨trivial, .inr (.inr hitem)⟩)).imp (·.append _) (List.mem_append_left _)
      | false =>
        exact h.quiet hw' id (fun _ => trivial) (List.Subset.refl _) (List.Subset.refl _) nofun nofun
          (fun _ => faulty_of_last rfl) nofun (.inr ⟨rfl, nofun⟩)
    next => cases hs
  | get answered =>
    simp only [step] at hs
    split at hs
    next =>
      cases hs
      refine h.listen hw' trivial (.inl trivial) rfl nofun (fun _ => h.subscribed (.inr rfl))
        (h.removedSubscribed trivial) (List.Subset.refl _) (List.Subset.refl _) (fun hheld => ?_) fun _ hsince => ?_
      · rcases hheld.tells with ⟨reply, hphase, htells⟩ | hitem
        · cases hphase
          cases answered with
          | true => exact .inl (.now hw' ⟨trivial, tells_answer.mp htells⟩)
          | false => exact .inr (by simp)
        · exact (h.sound (.inl ⟨trivial, .inr hitem⟩)).imp (·.append _) (List.mem_append_left _)
      · refine ⟨trivial, .inl ⟨_, rfl, ?_⟩⟩
        cases answered with
        | true =>
          refine tells_answer.mpr ?_
          rcases (once_append_singleton hw').mp hsince with hsince | ⟨-, hended⟩
          · exact (h.early trivial hsince).elim
          · exact hended
        | false => exact fun _ => nofun
    next => cases hs
  | reply => exact h.reply hw hw' hs
  | nextState => exact h.nextState hw hw' hs
  | nextUnitRemoved => exact h.nextUnitRemoved hw hw' hs

theorem inv_run (h : exec (step unitName) (.start leftover) as = some w) : Inv unitName leftover as w := by
  refine exec_history (.start unitName leftover) (fun as w a w' hw hinv hs => ?_) h
  have hw' := exec_append_singleton.mpr ⟨w, hw, hs⟩
  by_cases ha : Action.OfTask a ∨ a = .abort
  · exact hinv.task hw hw' ha hs
  · obtain ⟨hnot, habort⟩ := not_or.mp ha
    obtain ⟨items, removed, hsend⟩ := sends_of_step hnot habort hs
    exact hinv.send hw hw' hsend

/-! ## Every end is noticed -/

theorem exists_cons_of_mem_getD {α : Type} {stream : Option (List α)} {item : α} (h : item ∈ stream.getD []) :
    ∃ first items, stream = some (first :: items) := by
  cases stream with
  | none => cases h
  | some items =>
    obtain ⟨first, items, rfl⟩ := List.exists_cons_of_ne_nil (List.ne_nil_of_mem h)
    exact ⟨first, items, rfl⟩

/-- A monitor with something before it is not at rest. -/
theorem not_settled_of_held (hphase : w.phase = .watching) (h : Held unitName w) : ¬ Settled unitName w := by
  intro hsettled
  rcases h.tells with ⟨_, hasked, -⟩ | ⟨item, hitem, -⟩ | hitem
  · cases hphase.symm.trans hasked
  · have hnext := hsettled .nextState trivial
    obtain ⟨first, items, hstream⟩ := exists_cons_of_mem_getD hitem
    rw [step, hphase, hstream] at hnext
    cases hnext
  · have hnext := hsettled .nextUnitRemoved trivial
    obtain ⟨first, items, hstream⟩ := exists_cons_of_mem_getD hitem
    rw [step, hphase, hstream] at hnext
    cases hnext

theorem phase_of_settled (hsettled : Settled unitName w) (hmonitored : Phase.Monitored w.phase) :
    w.phase = .watching ∨ w.phase = .exitNoticed ∨ w.phase = .monitorFailed ∨ w.phase = .monitorStopped := by
  obtain ⟨unit, stateStream, unitRemovedStream, phase, shutdown⟩ := w
  cases phase with
  | monitoring => exact nomatch hsettled (.subscribeUnitRemoved true) trivial
  | removedSubscribed => exact nomatch hsettled (.subscribeState true) trivial
  | stateSubscribed => exact nomatch hsettled (.get true) trivial
  | asked reply =>
    have hreply := hsettled .reply trivial
    simp only [step] at hreply
    split at hreply <;> cases hreply
  | watching => exact .inl rfl
  | exitNoticed => exact .inr (.inl rfl)
  | monitorFailed => exact .inr (.inr (.inl rfl))
  | monitorStopped => exact .inr (.inr (.inr rfl))
  | _ => exact hmonitored.elim

structure Noticed (unitName : String) (leftover : Option String) (as : List Action) (w : World) : Prop where
  /-- The session is stopped for it only if the unit was at its end, or systemd could not be asked. -/
  sound : w.phase = .exitNoticed → Since unitName leftover Phase.Monitored as ∨ .get false ∈ as
  /-- Once the monitor is at rest, an end of the unit is noticed, whenever it was. -/
  complete : Settled unitName w → Phase.Monitored w.phase →
    w.Ended ∨ Since unitName leftover Phase.Answered as →
      w.phase = .exitNoticed ∨ w.phase = .monitorFailed ∨ w.phase = .monitorStopped
  failed : w.phase = .monitorFailed → Faulty as
  stopped : w.phase = .monitorStopped → .triggerShutdown ∈ as ∨ .abort ∈ as
  /-- And it does come to rest. -/
  rests : ∀ more w', (∀ a ∈ more, Action.OfTask a) → exec (step unitName) w more = some w' → more.length ≤ left w

theorem exit_noticed (h : exec (step unitName) (.start leftover) as = some w) : Noticed unitName leftover as w := by
  have hinv := inv_run h
  refine ⟨fun hphase => hinv.sound (.inr hphase), fun hsettled hmonitored hended => ?_, hinv.failed, hinv.stopped, ?_⟩
  · refine (phase_of_settled hsettled hmonitored).resolve_left fun hphase => ?_
    have hanswered : Phase.Answered w.phase := hphase ▸ trivial
    have hsince : Since unitName leftover Phase.Answered as :=
      hended.elim (fun hended => .now h ⟨hanswered, hended⟩) id
    exact not_settled_of_held hphase (hinv.complete hanswered hsince) hsettled
  · clear h hinv
    intro more
    induction more generalizing w with
    | nil => exact fun _ _ _ => Nat.zero_le _
    | cons a more ih =>
      intro w' hall hexec
      obtain ⟨m, hm, hexec⟩ := exec_cons.mp hexec
      obtain ⟨ha, hall⟩ := List.forall_mem_cons.mp hall
      have hlt := left_lt ha hm
      have hlen := ih w' hall hexec
      rw [List.length_cons]
      omega

/-- The unit comes to its end between the launch and the monitor's subscription to it. -/
def quickExit : List Action :=
  [.startTransientUnit (some "active"), .jobRemoved true, .getUnit true, .check true, .subscribe true, .launchTimeout,
    .setActiveState "inactive", .unload, .subscribeUnitRemoved true, .subscribeState true, .get true, .reply]

instance : (a : Action) → Decidable (Action.Fault a)
  | .stateFails _ | .unitRemovedFails _ => .isTrue trivial
  | .subscribeUnitRemoved ok | .subscribeState ok | .get ok => inferInstanceAs (Decidable (ok = false))
  | .setActiveState _ | .properties _ | .unload | .unloadOther _ | .triggerShutdown | .startTransientUnit _
  | .jobRemoved _ | .getUnit _ | .check _ | .subscribe _ | .launchTimeout | .reply | .nextState | .nextUnitRemoved
  | .stopMonitor | .abort => .isFalse id

theorem quickExit_noticed : ∃ w, exec (step "app.service") (.start none) quickExit = some w ∧ w.unit = none ∧
    w.phase = .exitNoticed ∧ (Since "app.service" none Phase.Monitored quickExit ∨ .get false ∈ quickExit) := by
  obtain ⟨w, hw, hunit, hmonitored, hsettled⟩ : ∃ w, exec (step "app.service") (.start none) quickExit = some w ∧
      w.unit = none ∧ Phase.Monitored w.phase ∧ Settled "app.service" w := by
    refine ⟨_, rfl, rfl, trivial, fun a ha => ?_⟩
    cases a with
    | startTransientUnit active => cases active <;> rfl
    | setActiveState _ | properties _ | unload | unloadOther _ | stateFails _ | unitRemovedFails _
    | triggerShutdown | abort => exact ha.elim
    | _ => rfl
  have hnoticed := exit_noticed hw
  have hended : w.Ended := fun state hstate => by cases hunit.symm.trans hstate
  have hnofault : ¬ Faulty quickExit := by
    unfold Faulty
    decide
  have hphase : w.phase = .exitNoticed := by
    rcases hnoticed.complete hsettled hmonitored (.inl hended) with hphase | hfailed | hstopped
    · exact hphase
    · exact absurd (hnoticed.failed hfailed) hnofault
    · exact absurd (hnoticed.stopped hstopped) (by decide)
  exact ⟨w, hw, hunit, hphase, hnoticed.sound hphase⟩

end Moonshine.Proof.Application
