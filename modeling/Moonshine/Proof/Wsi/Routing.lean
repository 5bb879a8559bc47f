import Moonshine.Framework.Run
import Moonshine.Impl.Wsi.Swapchain

/-!
# Swapchains and their protocol objects

An event changes the record under the handle that its object was created with, whichever
swapchain has the handle by then (`event_changes_iff`), and nothing in the layer ever sends
an object's destroy request (`Inv.undestroyed`). So the object of a destroyed swapchain
stays, with a handle that the driver may return again, and along a run destroyed
swapchains' objects have been sent destroy and events change only their own swapchain's
record exactly if no swapchain that has an object is destroyed: `routed_iff`.
-/

namespace Moonshine.Proof.Wsi

open Moonshine.Framework Moonshine.Impl.Wsi

inductive Action
  | createSwapchain (env : CreateEnv) (info : CreateInfo)
  | destroySwapchain (forwarded : Bool) (swapchain : SwapchainKey)
  | event (object : Nat) (event : Event)

/-- The driver's handle is none of those it has given out and not destroyed; an event is for an
object that has not been sent destroy. -/
def step (s : Layer) : Action → Option Layer
  | .createSwapchain env info => match env.callDriver info with
    | .ok key => if key ∈ s.live then none else some (Layer.createSwapchain env info s).2
    | .error _ => some (Layer.createSwapchain env info s).2
  | .destroySwapchain forwarded swapchain => some (Layer.destroySwapchain forwarded swapchain s).2
  | .event object event => match s.objects[object]? with
    | some key => if .destroy object ∈ s.requests then none else some (dispatchEvent event key s).2
    | none => none

def initial : Layer := ⟨∅, [], [], []⟩

/-- The object of the swapchain under a handle. -/
def objectAt (s : Layer) (key : SwapchainKey) : Option Nat := (s.swapchains.get? key).bind SwapchainData.msSwapchain

/-- A destroyed swapchain's object has been sent destroy, and an event changes no record but that
of the swapchain it was sent for. -/
def Routed (s : Layer) : Action → Layer → Prop
  | .createSwapchain .., _ => True
  | .destroySwapchain _ swapchain, s' => ∀ object, objectAt s swapchain = some object →
    .destroy object ∈ s'.requests
  | .event object _, s' => ∀ key d, s.swapchains.get? key = some d → d.msSwapchain ≠ some object →
    s'.swapchains.get? key = some d

/-- The action destroys no swapchain that has an object. -/
def keepsObjects (s : Layer) : Action → Bool
  | .createSwapchain .. => true
  | .destroySwapchain _ swapchain => (objectAt s swapchain).isNone
  | .event .. => true

variable {s s' : Layer} {env : CreateEnv} {info : CreateInfo} {key : SwapchainKey}

theorem createSwapchain_of_error {code : Int} (h : env.callDriver info = .error code) :
    (Layer.createSwapchain env info s).2 = s := by
  rw [Layer.createSwapchain, h]
  rfl

theorem not_destroy_announce (object n : Nat) (wlSurface : UInt64) (xcbWindow : Option UInt32) :
    .destroy n ∉ env.announce info object wlSurface xcbWindow := by
  cases xcbWindow with
  | none => simp [CreateEnv.announce]
  | some xid => cases h : env.bypassAllowed <;> simp [CreateEnv.announce, h]

/-- No object, or the next one, with requests that destroy none. -/
theorem createObject_run : Layer.createObject env info key s = (.ok none, s) ∨
    ∃ requests, (∀ n, .destroy n ∉ requests) ∧ Layer.createObject env info key s =
      (.ok (some s.objects.length),
        { s with objects := s.objects ++ [key], requests := s.requests ++ requests }) := by
  rw [Layer.createObject]
  cases env.instanceKey.bind id with
  | none => exact .inl rfl
  | some hdrSupported =>
    cases env.wlSurface with
    | none => exact .inl rfl
    | some surface => exact .inr ⟨_, fun n => not_destroy_announce _ n _ _, rfl⟩

/-- What a created swapchain adds: its record and, if it has an object, that with its user data. -/
structure Created (s : Layer) (key : SwapchainKey) (object : Option Nat) (s' : Layer) : Prop where
  swapchains : ∃ d, d.msSwapchain = object ∧ s'.swapchains = s.swapchains.insert key d
  objects : object = none ∧ s'.objects = s.objects ∨
    object = some s.objects.length ∧ s'.objects = s.objects ++ [key]
  requests : ∃ requests, (∀ n, .destroy n ∉ requests) ∧ s'.requests = s.requests ++ requests
  live : s'.live = key :: s.live

theorem createSwapchain_of_ok (h : env.callDriver info = .ok key) :
    ∃ object, Created s key object (Layer.createSwapchain env info s).2 := by
  rw [Layer.createSwapchain, h]
  simp only [Prog.modify_bind]
  cases env.instanceKey with
  | none => exact ⟨none, ⟨_, rfl, rfl⟩, .inl ⟨rfl, rfl⟩, ⟨[], by simp, (List.append_nil _).symm⟩, rfl⟩
  | some connection =>
    obtain hnone | ⟨requests, hrequests, hsome⟩ :
        Layer.createObject env info key { s with live := key :: s.live } = (.ok none, _) ∨ _ := createObject_run
    · simp only [Prog.bind_of_ok hnone]
      exact ⟨none, ⟨_, rfl, rfl⟩, .inl ⟨rfl, rfl⟩, ⟨[], by simp, (List.append_nil _).symm⟩, rfl⟩
    · simp only [Prog.bind_of_ok hsome]
      exact ⟨some s.objects.length, ⟨_, rfl, rfl⟩, .inr ⟨rfl, rfl⟩, ⟨requests, hrequests, rfl⟩, rfl⟩

theorem destroySwapchain_swapchains (forwarded : Bool) :
    (Layer.destroySwapchain forwarded key s).2.swapchains = s.swapchains.erase key := by
  cases forwarded <;> rfl

theorem destroySwapchain_objects (forwarded : Bool) :
    (Layer.destroySwapchain forwarded key s).2.objects = s.objects := by
  cases forwarded <;> rfl

theorem destroySwapchain_requests (forwarded : Bool) :
    (Layer.destroySwapchain forwarded key s).2.requests = s.requests := by
  cases forwarded <;> rfl

theorem mem_live_destroySwapchain {forwarded : Bool} {key' : SwapchainKey} (hne : key' ≠ key) (h : key' ∈ s.live) :
    key' ∈ (Layer.destroySwapchain forwarded key s).2.live := by
  cases forwarded with
  | false => exact h
  | true => exact (List.mem_erase_of_ne hne).mpr h

@[simp] theorem msSwapchain_apply (event : Event) (d : SwapchainData) :
    (event.apply d).msSwapchain = d.msSwapchain := by
  cases event <;> rfl

theorem objectAt_dispatchEvent (event : Event) (key' : SwapchainKey) :
    objectAt (dispatchEvent event key s).2 key' = objectAt s key' := by
  simp only [objectAt, dispatchEvent, Layer.withSwapchainMut, Prog.modify_run, HashMap.get?_modify]
  split
  next heq =>
    subst heq
    cases s.swapchains.get? key' with
    | none => rfl
    | some d => simp
  next => rfl

structure Inv (s : Layer) : Prop where
  /-- An object's swapchain is there, under its user data. -/
  own : ∀ object key, s.objects[object]? = some key → objectAt s key = some object
  live : ∀ key ∈ s.swapchains, key ∈ s.live
  undestroyed : ∀ object, .destroy object ∉ s.requests

theorem inv_initial : Inv initial := ⟨by simp [initial], by simp [initial], by simp [initial]⟩

theorem Inv.created {object : Option Nat} (h : Inv s) (hkey : key ∉ s.live) (hc : Created s key object s') :
    Inv s' := by
  obtain ⟨⟨d, hd, hswapchains⟩, hobjects, ⟨requests, hrequests, hreq⟩, hlive⟩ := hc
  -- The new handle is nobody else's.
  have hother : ∀ key', objectAt s key' ≠ none → objectAt s' key' = objectAt s key' := by
    intro key' hne
    have hne' : key' ≠ key := by
      rintro rfl
      cases hget : s.swapchains.get? key' with
      | none => exact hne (by simp [objectAt, hget])
      | some d' => exact hkey (h.live key' (HashMap.mem_of_get? hget))
    simp [objectAt, hswapchains, hne']
  refine ⟨fun n key' hn => ?_, fun key' hmem => ?_, fun n hn => ?_⟩
  · obtain ⟨-, hsame⟩ | ⟨rfl, hnew⟩ := hobjects
    · rw [hsame] at hn
      have hold := h.own n key' hn
      rw [hother key' (by simp [hold]), hold]
    · rw [hnew, List.getElem?_append] at hn
      split at hn
      next =>
        have hold := h.own n key' hn
        rw [hother key' (by simp [hold]), hold]
      next hlen =>
        obtain ⟨hzero, rfl⟩ : n - s.objects.length = 0 ∧ key = key' := by
          simpa [List.getElem?_singleton] using hn
        have hn : n = s.objects.length := by omega
        simp [objectAt, hswapchains, hd, hn]
  · rw [hswapchains, AList.mem_insert] at hmem
    rw [hlive, List.mem_cons]
    exact hmem.imp id (h.live key')
  · rw [hreq, List.mem_append] at hn
    exact hn.elim (h.undestroyed n) (hrequests n)

/-- A destroyed swapchain without an object. -/
theorem Inv.destroyed {forwarded : Bool} (h : Inv s) (hnone : objectAt s key = none) :
    Inv (Layer.destroySwapchain forwarded key s).2 := by
  refine ⟨fun n key' hn => ?_, fun key' hmem => ?_, fun n => ?_⟩
  · rw [destroySwapchain_objects] at hn
    have hold := h.own n key' hn
    have hne : key' ≠ key := by
      rintro rfl
      exact absurd (hnone.symm.trans hold) (by simp)
    rw [objectAt] at hold
    simp [objectAt, destroySwapchain_swapchains, hne, hold]
  · rw [destroySwapchain_swapchains, AList.mem_erase] at hmem
    exact mem_live_destroySwapchain hmem.1 (h.live key' hmem.2)
  · rw [destroySwapchain_requests]
    exact h.undestroyed n

theorem Inv.dispatched (h : Inv s) (event : Event) : Inv (dispatchEvent event key s).2 := by
  refine ⟨fun n key' hn => ?_, fun key' hmem => ?_, h.undestroyed⟩
  · rw [objectAt_dispatchEvent]
    exact h.own n key' hn
  · exact h.live key' ((HashMap.mem_modify _ _ _ _).mp hmem)

theorem step_createSwapchain : step s (.createSwapchain env info) = some s' ↔
    s' = (Layer.createSwapchain env info s).2 ∧ ∀ key, env.callDriver info = .ok key → key ∉ s.live := by
  simp only [step]
  cases h : env.callDriver info with
  | error code => simp [eq_comm]
  | ok key => by_cases hkey : key ∈ s.live <;> simp [hkey, eq_comm]

theorem step_event {object : Nat} {event : Event} : step s (.event object event) = some s' ↔
    ∃ key, s.objects[object]? = some key ∧ .destroy object ∉ s.requests ∧ s' = (dispatchEvent event key s).2 := by
  simp only [step]
  cases s.objects[object]? with
  | none => simp
  | some key => by_cases hkey : .destroy object ∈ s.requests <;> simp [hkey, eq_comm]

/-- Where an event lands: a record other than that of its object's swapchain can change only if
it has the handle that the object was created with. -/
theorem event_changes_iff {event : Event} {key' : SwapchainKey} {d : SwapchainData}
    (hd : s.swapchains.get? key' = some d) :
    (dispatchEvent event key s).2.swapchains.get? key' ≠ some d ↔ key' = key ∧ event.apply d ≠ d := by
  simp only [dispatchEvent, Layer.withSwapchainMut, Prog.modify_run, HashMap.get?_modify]
  by_cases h : key' = key
  · subst h
    simp [hd]
  · simp [h, hd]

theorem Inv.next {a : Action} (h : Inv s) (hstep : step s a = some s') (hkeeps : keepsObjects s a = true) :
    Inv s' := by
  cases a with
  | createSwapchain env info =>
    obtain ⟨rfl, hfree⟩ := step_createSwapchain.mp hstep
    cases hdriver : env.callDriver info with
    | error code => rwa [createSwapchain_of_error hdriver]
    | ok key =>
      obtain ⟨object, hcreated⟩ : ∃ object, Created s key object _ := createSwapchain_of_ok hdriver
      exact h.created (hfree key hdriver) hcreated
  | destroySwapchain forwarded swapchain =>
    obtain rfl := Option.some.inj hstep
    exact h.destroyed (Option.isNone_iff_eq_none.mp hkeeps)
  | event object event =>
    obtain ⟨key, -, -, rfl⟩ := step_event.mp hstep
    exact h.dispatched event

theorem routed_step_iff {a : Action} (h : Inv s) (hstep : step s a = some s') :
    Routed s a s' ↔ keepsObjects s a = true := by
  cases a with
  | createSwapchain env info => exact iff_of_true trivial rfl
  | destroySwapchain forwarded swapchain =>
    obtain rfl := Option.some.inj hstep
    simp only [Routed, keepsObjects, destroySwapchain_requests, Option.isNone_iff_eq_none]
    cases objectAt s swapchain with
    | none => simp
    | some object => simp [h.undestroyed object]
  | event object event =>
    refine iff_of_true ?_ rfl
    intro key' d hd hne
    obtain ⟨key, hobject, -, rfl⟩ := step_event.mp hstep
    by_contra hchange
    obtain ⟨rfl, -⟩ := (event_changes_iff hd).mp hchange
    have hown := h.own object key' hobject
    rw [objectAt, hd] at hown
    exact hne hown

theorem routed_iff (es : List Action) : EveryStep step Routed initial es ↔
    EveryStep step (fun s a _ => keepsObjects s a = true) initial es := by
  refine EveryStep.iff_of_inv ?_ ?_ inv_initial es
  · exact fun _ _ _ h hstep => routed_step_iff h hstep
  · exact fun _ _ _ h hstep hkeeps => h.next hstep hkeeps

/-- The driver gives out the handle 7, for a surface that the compositor knows. -/
def sevenEnv : CreateEnv where
  deviceKey := 1
  instanceKey := some (some false)
  bypassAllowed := false
  driver := some fun _ => .ok 7
  wlSurface := some (3, none)
  isForcingFifo := false

def sevenInfo : CreateInfo := ⟨3, 3, 44, 0, (1920, 1080), 1, 1, 1, 2⟩

/-- A swapchain is destroyed and another is created under its handle, with an object of its own,
before the first one's `retired` arrives. -/
def reuse : List Action :=
  [.createSwapchain sevenEnv sevenInfo, .destroySwapchain true 7, .createSwapchain sevenEnv sevenInfo,
    .event 0 .retired]

/-- The first object is never sent destroy, and its event retires the second swapchain. -/
theorem not_routed_reuse : ¬ EveryStep step Routed initial reuse ∧
    ∃ s, exec step initial reuse = some s ∧ .destroy 0 ∉ s.requests ∧
      (s.swapchains.get? 7).map (fun d => (d.msSwapchain, d.retired)) = some (some 1, true) := by
  refine ⟨fun h => ?_, _, rfl, by decide, by decide⟩
  have hdestroyed := ((h _ rfl).2 _ rfl).1 0 rfl
  exact absurd hdestroyed (by decide)

end Moonshine.Proof.Wsi
