import Moonshine.Impl.Session.Manager
import Moonshine.Framework.Run

/-!
# Rejected operations

An operation that is called in the wrong state returns from its first lock
section. `launch_session` puts the session it took back before it does;
`start_session` does not put back the stream contexts, nor a launched session
that lacks one of them (`rejection_unchanged_iff`). All others look before they
take anything.
-/

namespace Moonshine.Proof.SessionManager

open Moonshine.Framework Moonshine.Impl Moonshine.Impl.SessionManager

/-- The call whose first lock section an action is. -/
def operation : Action → Option CallId
  | .initializeSession c _ | .launchSession c | .setStreamContext c _ _ | .startSession c
  | .updateKeys c _ => some c
  | _ => none

/-- The operation returns `Err` at once: it was called in the wrong state. -/
def Rejected (a : Action) (w' : World) : Prop := ∃ c, operation a = some c ∧ w'.calls c = .returned false

structure Unchanged (g g' : SessionManagerInner) : Prop where
  session : g'.session = g.session
  keysTx : g'.keysTx = g.keysTx
  videoStreamContext : g'.videoStreamContext = g.videoStreamContext
  audioStreamContext : g'.audioStreamContext = g.audioStreamContext
  stop : g'.stop = g.stop
  stopWatcher : g'.stopWatcher = g.stopWatcher

theorem Unchanged.of_eq {g g' : SessionManagerInner} (h : g' = g) : Unchanged g g' :=
  h ▸ ⟨rfl, rfl, rfl, rfl, rfl, rfl⟩

/-- There is nothing for a rejected `start_session` to lose. -/
structure NothingTaken (g : SessionManagerInner) : Prop where
  session : ∀ launched, g.session ≠ some (.launched launched)
  videoStreamContext : g.videoStreamContext = none
  audioStreamContext : g.audioStreamContext = none

@[simp] theorem setCall_calls (w : World) (c : CallId) (k : Call) : (w.setCall c k).calls c = k :=
  Function.update_self ..

theorem initializeSession_rejected {w : World} {c : CallId} {keys : SessionKeys}
    (h : (w.initializeSession c keys).calls c = .returned false) :
    (w.initializeSession c keys).inner = w.inner := by
  unfold World.initializeSession at h ⊢
  split
  · rfl
  · cases keys <;> rfl

theorem launchSession_rejected {w : World} {c : CallId}
    (h : (w.launchSession c).calls c = .returned false) : (w.launchSession c).inner = w.inner := by
  unfold World.launchSession at h ⊢
  split
  next session hs =>
    rw [hs] at h
    simp at h
  all_goals rfl

theorem setStreamContext_rejected {w : World} {c : CallId} {video : VideoStreamContext}
    {audio : AudioStreamContext} (h : (w.setStreamContext c video audio).calls c = .returned false) :
    (w.setStreamContext c video audio).inner = w.inner := by
  unfold World.setStreamContext at h ⊢
  split
  next launched hs =>
    rw [hs] at h
    simp at h
  all_goals rfl

theorem updateKeys_inner (w : World) (c : CallId) (keys : SessionKeyData) :
    (w.updateKeys c keys).inner = w.inner := by
  unfold World.updateKeys
  split
  · rfl
  · split <;> rfl

/-- A rejected `start_session` leaves the state without a launched session and
without stream contexts. -/
theorem startSession_rejected {w : World} {c : CallId}
    (h : (w.startSession c).calls c = .returned false) :
    Unchanged w.inner (w.startSession c).inner ↔ NothingTaken w.inner := by
  constructor
  · intro hsame
    have hsession := hsame.session
    have hvideo := hsame.videoStreamContext
    have haudio := hsame.audioStreamContext
    unfold World.startSession at hsession hvideo haudio
    refine ⟨fun launched hl => ?_, ?_, ?_⟩
    · rw [hl] at hsession
      contradiction
    · rw [← hvideo]
      split <;> rfl
    · rw [← haudio]
      split <;> rfl
  · rintro ⟨hsession, hvideo, haudio⟩
    unfold World.startSession at h ⊢
    split
    next launched hs => exact absurd hs (hsession launched)
    next => exact ⟨rfl, rfl, hvideo.symm, haudio.symm, rfl, rfl⟩
    next => exact ⟨rfl, rfl, hvideo.symm, haudio.symm, rfl, rfl⟩
    next active hs =>
      rw [hs] at h
      simp [World.setCall] at h

/-- For every state: a rejected operation leaves it as it was exactly if it is
no `start_session`, or one that has nothing to lose. -/
theorem rejection_unchanged_iff {w w' : World} {a : Action} (hs : step w a = some w')
    (h : Rejected a w') :
    Unchanged w.inner w'.inner ↔ ∀ c, a = .startSession c → NothingTaken w.inner := by
  obtain ⟨c, hc, h⟩ := h
  have hother : (∀ c, a ≠ .startSession c) → w'.inner = w.inner →
      (Unchanged w.inner w'.inner ↔ ∀ c, a = .startSession c → NothingTaken w.inner) :=
    fun hne heq => ⟨fun _ c ha => absurd ha (hne c), fun _ => .of_eq heq⟩
  cases a <;> simp only [operation, reduceCtorEq] at hc <;> cases hc <;>
    simp only [SessionManager.step] at hs <;> split at hs <;> cases hs
  next keys hfree hcall => exact hother nofun (initializeSession_rejected h)
  next hfree hcall => exact hother nofun (launchSession_rejected h)
  next video audio hfree hcall => exact hother nofun (setStreamContext_rejected h)
  next hfree hcall =>
    rw [startSession_rejected h]
    exact ⟨fun hn _ _ => hn, fun hn => hn c rfl⟩
  next keys hfree hcall => exact hother nofun (updateKeys_inner ..)

/-- A session that is launched, with its stream contexts set. -/
def announced : List Action :=
  [.initializeSession 0 (.keys ⟨[], 0⟩), .initializeReturned 0 true, .launchSession 1, .launchReturned 1 true,
    .launchLock 1,
    .setStreamContext 2 ⟨1280, 720, 60, 1024, 10000000, 2, false, .hevc, .sdr, .yuv420, 1, false, false⟩
      ⟨5, false, ⟨.stereo, 3, false, ⟨.stereo, 1, 1, [0, 1], 96000⟩⟩, false⟩]

/-- A second launch of it is rejected. -/
theorem rejection_unchanged_announced : ∃ w w', exec step World.new announced = some w ∧
    w.inner.session = some (.launched ⟨0, 0, 1⟩) ∧ w.inner.videoStreamContext.isSome ∧
    w.inner.audioStreamContext.isSome ∧ step w (.launchSession 3) = some w' ∧ Unchanged w.inner w'.inner :=
  ⟨_, _, rfl, rfl, rfl, rfl, rfl, (rejection_unchanged_iff (a := .launchSession 3) rfl ⟨3, rfl, rfl⟩).mpr fun _ => nofun⟩

/-- PLAY without an ANNOUNCE before it: the launched session is gone. -/
theorem start_without_contexts :
    ¬ EveryStep step (fun w a w' => Rejected a w' → Unchanged w.inner w'.inner) World.new
      [.initializeSession 0 (.keys ⟨[], 0⟩), .initializeReturned 0 true, .launchSession 1,
        .launchReturned 1 true, .launchLock 1, .startSession 2] := by
  intro h
  obtain ⟨h, -⟩ := h.drop 5 rfl _ rfl
  exact absurd (h ⟨2, rfl, rfl⟩).session (by decide)

end Moonshine.Proof.SessionManager
