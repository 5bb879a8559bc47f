import Mathlib.Data.List.Nodup
import Mathlib.Data.List.Perm.Basic

/-!
# A notification with one permit

Tasks wait at a notification: `notify_one` wakes the one that has waited for
longest, or leaves a permit if nobody waits, but never a second one. A task that
finds the permit takes it and does not wait. What had woken a task that goes
without being polled again wakes the next one.

A `NotifyModel` is a notification whose `Waiters` change in this way. `queued` is
one that consists of nothing else.
-/

namespace Moonshine.Framework

/-- What there is to see of a notification. -/
structure Waiters (τ : Type) where
  permit : Bool
  /-- In the order in which they came. -/
  waiting : List τ
  /-- Woken, and not polled since. -/
  woken : List τ
  deriving DecidableEq, Repr

namespace Waiters

variable {τ : Type}

def new : Waiters τ := ⟨false, [], []⟩

def notifyOne (n : Waiters τ) : Waiters τ :=
  match n.waiting with
  | [] => { n with permit := true }
  | t :: waiting => { n with waiting, woken := n.woken ++ [t] }

section Polling

variable [DecidableEq τ]

/-- `poll` of a task's `notified()`, with whether it is ready. -/
def poll (n : Waiters τ) (t : τ) : Bool × Waiters τ :=
  if t ∈ n.woken then (true, { n with woken := n.woken.erase t })
  else if t ∈ n.waiting then (false, n)
  else if n.permit then (true, { n with permit := false })
  else (false, { n with waiting := n.waiting ++ [t] })

/-- `drop` of a task's `notified()`: what had woken it wakes the next one. -/
def drop (n : Waiters τ) (t : τ) : Waiters τ :=
  if t ∈ n.woken then { n with woken := n.woken.erase t }.notifyOne
  else { n with waiting := n.waiting.erase t }

end Polling

/-- Nobody waits while there is a permit, or waits twice. -/
structure Sound (n : Waiters τ) : Prop where
  permit : n.permit = true → n.waiting = []
  nodup : (n.waiting ++ n.woken).Nodup

theorem sound_new : Sound (new : Waiters τ) := ⟨fun _ => rfl, List.nodup_nil⟩

theorem notifyOne_of_nil {n : Waiters τ} (h : n.waiting = []) : n.notifyOne = { n with permit := true } := by
  unfold notifyOne
  split
  next => rfl
  next heq => cases h.symm.trans heq

theorem notifyOne_of_cons {n : Waiters τ} {t : τ} {waiting : List τ} (h : n.waiting = t :: waiting) :
    n.notifyOne = { n with waiting, woken := n.woken ++ [t] } := by
  unfold notifyOne
  split
  next heq => cases h.symm.trans heq
  next heq =>
    cases h.symm.trans heq
    rfl

variable {n : Waiters τ}

theorem Sound.notifyOne (h : Sound n) : Sound n.notifyOne := by
  cases hw : n.waiting with
  | nil =>
    rw [notifyOne_of_nil hw]
    exact ⟨fun _ => hw, h.nodup⟩
  | cons t waiting =>
    rw [notifyOne_of_cons hw]
    have hperm : (t :: waiting ++ n.woken).Perm (waiting ++ (n.woken ++ [t])) := by
      rw [← List.append_assoc]
      exact List.perm_append_singleton t (waiting ++ n.woken) |>.symm
    refine ⟨fun hp => ?_, hperm.nodup (hw ▸ h.nodup)⟩
    cases hw.symm.trans (h.permit hp)

variable [DecidableEq τ]

theorem Sound.erase_woken (h : Sound n) (t : τ) : Sound { n with woken := n.woken.erase t } :=
  ⟨h.permit, h.nodup.sublist ((List.Sublist.refl _).append List.erase_sublist)⟩

theorem Sound.poll (h : Sound n) (t : τ) : Sound (n.poll t).2 := by
  unfold Waiters.poll
  split
  next => exact h.erase_woken t
  next hwoken =>
  split
  next => exact h
  next hwaiting =>
  split
  next => exact ⟨nofun, h.nodup⟩
  next hp =>
    refine ⟨fun hpermit => absurd hpermit hp, ?_⟩
    have hperm : (t :: (n.waiting ++ n.woken)).Perm (n.waiting ++ [t] ++ n.woken) := by
      rw [List.append_assoc]
      exact List.perm_middle.symm
    refine hperm.nodup (List.nodup_cons.mpr ⟨fun hmem => ?_, h.nodup⟩)
    exact (List.mem_append.mp hmem).elim hwaiting hwoken

theorem drop_of_woken {t : τ} (h : t ∈ n.woken) :
    n.drop t = (⟨n.permit, n.waiting, n.woken.erase t⟩ : Waiters τ).notifyOne := if_pos h

/-- What a woken task leaves when nobody waits. -/
theorem permit_drop {t : τ} (h : t ∈ n.woken) (hw : n.waiting = []) : (n.drop t).permit = true := by
  rw [drop_of_woken h, notifyOne_of_nil (n := ⟨n.permit, n.waiting, n.woken.erase t⟩) hw]

/-- A woken task that goes wakes the next one. -/
theorem mem_woken_drop {t u : τ} {waiting : List τ} (h : t ∈ n.woken) (hw : n.waiting = u :: waiting) :
    u ∈ (n.drop t).woken := by
  rw [drop_of_woken h, notifyOne_of_cons (n := ⟨n.permit, n.waiting, n.woken.erase t⟩) hw]
  exact List.mem_append_right _ List.mem_cons_self

theorem Sound.drop (h : Sound n) (t : τ) : Sound (n.drop t) := by
  unfold Waiters.drop
  split
  next => exact (h.erase_woken t).notifyOne
  next =>
    refine ⟨fun hp => ?_, h.nodup.sublist (List.erase_sublist.append (List.Sublist.refl _))⟩
    rw [h.permit hp]
    rfl

end Waiters

/-- The operations of a notification, and what they do to its waiters. -/
structure NotifyModel (τ : Type) [DecidableEq τ] where
  Carrier : Type
  new : Carrier
  notifyOne : Carrier → Carrier
  poll : Carrier → τ → Bool × Carrier
  drop : Carrier → τ → Carrier
  waiters : Carrier → Waiters τ
  waiters_new : waiters new = .new
  waiters_notifyOne : ∀ n, waiters (notifyOne n) = (waiters n).notifyOne
  ready_poll : ∀ n t, (poll n t).1 = ((waiters n).poll t).1
  waiters_poll : ∀ n t, waiters (poll n t).2 = ((waiters n).poll t).2
  waiters_drop : ∀ n t, waiters (drop n t) = (waiters n).drop t

variable {τ : Type} [DecidableEq τ]

def Notify (M : NotifyModel τ) : Type := M.Carrier

namespace Notify

variable {M : NotifyModel τ}

def new : Notify M := M.new

def notifyOne (n : Notify M) : Notify M := M.notifyOne n

def poll (n : Notify M) (t : τ) : Bool × Notify M := M.poll n t

def drop (n : Notify M) (t : τ) : Notify M := M.drop n t

def waiters (n : Notify M) : Waiters τ := M.waiters n

variable (n : Notify M) (t : τ)

@[simp] theorem waiters_new : (new : Notify M).waiters = .new := M.waiters_new

@[simp] theorem waiters_notifyOne : n.notifyOne.waiters = n.waiters.notifyOne := M.waiters_notifyOne n

@[simp] theorem ready_poll : (n.poll t).1 = (n.waiters.poll t).1 := M.ready_poll n t

@[simp] theorem waiters_poll : (n.poll t).2.waiters = (n.waiters.poll t).2 := M.waiters_poll n t

@[simp] theorem waiters_drop : (n.drop t).waiters = n.waiters.drop t := M.waiters_drop n t

end Notify

def queued (τ : Type) [DecidableEq τ] : NotifyModel τ where
  Carrier := Waiters τ
  new := .new
  notifyOne := Waiters.notifyOne
  poll := Waiters.poll
  drop := Waiters.drop
  waiters := id
  waiters_new := rfl
  waiters_notifyOne _ := rfl
  ready_poll _ _ := rfl
  waiters_poll _ _ := rfl
  waiters_drop _ _ := rfl

end Moonshine.Framework
