import Mathlib.Data.List.Induction
import Moonshine.Impl.Compositor.Color

/-!
# The colours of a surface follow its messages

What a run of the compositor means for one surface is a list of `SurfaceEvent`s
(`events`), and the record of the surface is their fold (`recordOf_run`). The
fold has a closed form (`foldl_apply`): the colour space of the last event that
says anything about it, and the last metadata since the record was last
cleared. From it:

* `describe_run`: the description of a surface after any run;
* `run_swap`: a metadata message and a colour space may change places;
* `description_of_other`: other surfaces matter only where one is evicted.
-/

namespace Moonshine.Proof.ColorManagement

open Moonshine.Framework Moonshine.Impl.Compositor Moonshine.Impl.ColorManagement

abbrev Colorspace := TransferFunction × Primaries

/-- What a message means for one surface. -/
inductive SurfaceEvent
  | cleared
  | colorspace (space : Colorspace)
  | metadata (m : MasteringMetadata)
  deriving DecidableEq

namespace SurfaceEvent

/-- What the event says about the colour space; metadata says nothing. -/
def space? : SurfaceEvent → Option (Option Colorspace)
  | .cleared => some none
  | .colorspace space => some (some space)
  | .metadata _ => none

def metadata? : SurfaceEvent → Option MasteringMetadata
  | .metadata m => some m
  | _ => none

def apply (c : SwapchainColor) : SurfaceEvent → SwapchainColor
  | .cleared => .default
  | .colorspace space => { c with colorspace := some space }
  | .metadata m => { c with metadata := some m }

end SurfaceEvent

/-- The colour space named by the last event that is not metadata. -/
def lastColorspace (es : List SurfaceEvent) : Option Colorspace :=
  (es.filterMap SurfaceEvent.space?).getLast?.join

def sinceCleared (es : List SurfaceEvent) : List SurfaceEvent :=
  (es.reverse.takeWhile (· ≠ .cleared)).reverse

def lastMetadata (es : List SurfaceEvent) : Option MasteringMetadata :=
  ((sinceCleared es).filterMap SurfaceEvent.metadata?).getLast?

/-- The description of a colour space with metadata, or without. -/
def describe (m : Option MasteringMetadata) (space : Colorspace) : ImageDescription where
  transferFunction := space.1
  primaries := space.2
  maxCll := m.map (·.maxCll)
  maxFall := m.map (·.maxFall)
  masteringLuminance := m.map (·.masteringLuminance)
  masteringPrimaries := m.map (·.masteringPrimaries)
  whitePoint := m.map (·.whitePoint)

section Fold

variable (es : List SurfaceEvent) (e : SurfaceEvent)

theorem lastColorspace_concat : lastColorspace (es ++ [e]) = e.space?.getD (lastColorspace es) := by
  unfold lastColorspace
  rw [List.filterMap_append]
  cases h : e.space? with
  | none => simp [h]
  | some space => simp [h]

theorem lastMetadata_concat :
    lastMetadata (es ++ [e]) = if e = .cleared then none else e.metadata?.or (lastMetadata es) := by
  unfold lastMetadata sinceCleared
  rw [List.reverse_append, List.reverse_singleton, List.singleton_append, List.takeWhile_cons]
  by_cases he : e = .cleared
  · simp [he]
  · rw [if_neg he, if_pos (decide_eq_true he), List.reverse_cons, List.filterMap_append]
    cases h : e.metadata? with
    | none => simp [h]
    | some m => simp [h]

theorem foldl_apply : es.foldl SurfaceEvent.apply .default = ⟨lastColorspace es, lastMetadata es⟩ := by
  induction es using List.reverseRecOn with
  | nil => rfl
  | append_singleton es e ih =>
    rw [List.foldl_concat, ih, lastColorspace_concat, lastMetadata_concat]
    cases e with
    | cleared => rfl
    | colorspace space => rfl
    | metadata m => rfl

end Fold

theorem toImageDescription_eq (c : SwapchainColor) :
    c.toImageDescription = c.colorspace.map (describe c.metadata) := by
  unfold SwapchainColor.toImageDescription
  cases c.colorspace with
  | none => rfl
  | some space => cases c.metadata <;> rfl

/-- What a colour space of the swapchain says; others are ignored. -/
def feedbackEvent (vkColorspace : UInt32) : Option SurfaceEvent :=
  if vkColorspace = vkColorSpaceHdr10St2084 then some (.colorspace (.st2084Pq, .bt2020))
  else if vkColorspace = vkColorSpaceExtendedSrgbLinear ∨ vkColorspace = vkColorSpaceExtendedSrgbNonlinear then
    some (.colorspace (.scrgbLinear, .srgb))
  else if vkColorspace = vkColorSpaceSrgbNonlinear then some .cleared
  else none

/-- What an action means for the surface: as the one it is on, or as the
override that another surface evicts. -/
def eventOn (w : World) (surface : Surface) : Action → Option SurfaceEvent
  | .createSwapchain s => if s = surface then some .cleared else none
  | .swapchainFeedback s vkColorspace _ => if s = surface then feedbackEvent vkColorspace else none
  | .setHdrMetadata s request =>
    if s = surface ∧ request.metadata.isPlausible then some (.metadata request.metadata) else none
  | .overrideWindowContent s _ =>
    if w.overrideSurface.map Prod.fst = some surface ∧ s ≠ surface then some .cleared else none
  | .destroyed s => if s = surface then some .cleared else none
  | _ => none

def events (surface : Surface) : World → List Action → List SurfaceEvent
  | _, [] => []
  | w, a :: as => (eventOn w surface a).toList ++ events surface (w.act a) as

section Events

variable (surface : Surface) (w : World) (as bs : List Action)

theorem events_append : events surface w (as ++ bs) = events surface w as ++ events surface (w.run as) bs := by
  induction as generalizing w with
  | nil => rfl
  | cons a as ih =>
    have hrun : w.run (a :: as) = (w.act a).run as := rfl
    rw [List.cons_append, events, events, ih, List.append_assoc, hrun]

end Events

def recordIn (cm : ColorManagementState) (surface : Surface) : SwapchainColor :=
  (HashMap.get? cm.gamescopeCurrent surface).getD .default

section Record

variable (cm : ColorManagementState) (s surface : Surface)

theorem recordIn_updateEntry (f : SwapchainColor → SwapchainColor) :
    recordIn (cm.updateEntry s f) surface =
      if s = surface then f (recordIn cm surface) else recordIn cm surface := by
  unfold recordIn ColorManagementState.updateEntry
  dsimp only
  rw [HashMap.get?_insert]
  by_cases h : s = surface
  · subst h
    rw [if_pos rfl, if_pos rfl]
    rfl
  · rw [if_neg (Ne.symm h), if_neg h]

theorem recordIn_clearGamescopeCurrent :
    recordIn (cm.clearGamescopeCurrent s) surface = if s = surface then .default else recordIn cm surface := by
  unfold recordIn ColorManagementState.clearGamescopeCurrent
  dsimp only
  rw [HashMap.get?_erase]
  by_cases h : s = surface
  · rw [if_pos h.symm, if_pos h]
    rfl
  · rw [if_neg (Ne.symm h), if_neg h]

theorem recordIn_surfaceDestroyed :
    recordIn (cm.surfaceDestroyed s) surface = if s = surface then .default else recordIn cm surface :=
  recordIn_clearGamescopeCurrent cm s surface

theorem recordIn_commit : recordIn (cm.commit s) surface = recordIn cm surface := by
  unfold ColorManagementState.commit
  split <;> rfl

theorem swapchainDescription_eq : cm.swapchainDescription surface = (recordIn cm surface).toImageDescription := by
  unfold ColorManagementState.swapchainDescription recordIn
  cases HashMap.get? cm.gamescopeCurrent surface <;> rfl

end Record

/-- The record of a surface; nothing is declared where there is no state. -/
def recordOf (w : World) (surface : Surface) : SwapchainColor :=
  (w.colorManagement.map (recordIn · surface)).getD .default

theorem description_eq (w : World) (surface : Surface) :
    w.swapchainDescription surface = (recordOf w surface).toImageDescription := by
  unfold World.swapchainDescription recordOf
  cases w.colorManagement with
  | none => rfl
  | some cm => exact swapchainDescription_eq cm surface

/-- One step: the record changes as the event on its surface says. -/
theorem recordOf_act {w : World} (h : w.colorManagement.isSome) (a : Action) (surface : Surface) :
    recordOf (w.act a) surface = (eventOn w surface a).toList.foldl SurfaceEvent.apply (recordOf w surface) := by
  obtain ⟨cm, hcm⟩ := Option.isSome_iff_exists.mp h
  have hmodify (f : ColorManagementState → ColorManagementState) :
      recordOf (w.modifyColors f) surface = recordIn (f cm) surface := by
    simp only [recordOf, World.modifyColors, hcm, Option.map_some, Option.getD_some]
  have hw : recordOf w surface = recordIn cm surface := by
    simp only [recordOf, hcm, Option.map_some, Option.getD_some]
  rw [hw]
  cases a with
  | createSwapchain s =>
    show recordOf (w.modifyColors _) surface = _
    rw [hmodify, recordIn_clearGamescopeCurrent, eventOn]
    split <;> rfl
  | destroyed s =>
    show recordOf (w.modifyColors _) surface = _
    rw [hmodify, recordIn_surfaceDestroyed, eventOn]
    split <;> rfl
  | swapchainFeedback s vkColorspace vkFormat =>
    show recordOf (w.modifyColors _) surface = _
    rw [hmodify, eventOn, feedbackEvent]
    split
    · rw [ColorManagementState.setGamescopeColorspace, recordIn_updateEntry]
      split <;> rfl
    · split
      · rw [ColorManagementState.setGamescopeColorspace, recordIn_updateEntry]
        split <;> rfl
      · split
        · rw [recordIn_clearGamescopeCurrent]
          split <;> rfl
        · split <;> rfl
  | setHdrMetadata s request =>
    show recordOf (w.modifyColors _) surface = _
    rw [hmodify, eventOn, ColorManagementState.setGamescopeHdrMetadata]
    by_cases hp : request.metadata.isPlausible
    · rw [if_pos hp, recordIn_updateEntry]
      simp only [hp, and_true]
      split <;> rfl
    · rw [if_neg hp, if_neg fun hs => hp hs.2]
      rfl
  | overrideWindowContent s x11Window =>
    show recordOf (w.evict s) surface = _
    rw [eventOn, World.evict, World.evicted]
    cases w.overrideSurface.map Prod.fst with
    | none => exact hw
    | some old =>
      rw [Option.filter_some]
      by_cases hs : old = s
      · -- the override surface is set again
        have hnot : ¬(some old = some surface ∧ s ≠ surface) := fun h => h.2 (hs ▸ Option.some.inj h.1)
        rw [if_neg (by simp [hs]), if_neg hnot]
        exact hw
      · rw [if_pos (by simp [hs])]
        show recordOf (w.modifyColors _) surface = _
        rw [hmodify, recordIn_clearGamescopeCurrent]
        by_cases ho : old = surface
        · rw [if_pos ho, if_pos ⟨congrArg some ho, fun h => hs (ho.trans h.symm)⟩]
          rfl
        · rw [if_neg ho, if_neg fun h => ho (Option.some.inj h.1)]
          rfl
  | setImageDescription s desc => exact hmodify _
  | unsetImageDescription s => exact hmodify _
  | commit s => exact (hmodify _).trans (recordIn_commit cm s surface)
  | dropOverride => exact hw
  | focus windowId => exact hw

theorem isSome_act (w : World) (a : Action) :
    (w.act a).colorManagement.isSome = w.colorManagement.isSome := by
  have hmodify (f : ColorManagementState → ColorManagementState) :
      (w.modifyColors f).colorManagement.isSome = w.colorManagement.isSome := Option.isSome_map
  cases a with
  | overrideWindowContent s x11Window =>
    show (w.evict s).colorManagement.isSome = _
    unfold World.evict
    cases w.evicted s with
    | none => rfl
    | some old => exact hmodify _
  | dropOverride => rfl
  | focus windowId => rfl
  | _ => exact hmodify _

theorem isSome_run (w : World) (as : List Action) :
    (w.run as).colorManagement.isSome = w.colorManagement.isSome := by
  induction as generalizing w with
  | nil => rfl
  | cons a as ih => exact (ih (w.act a)).trans (isSome_act w a)

theorem recordOf_run {w : World} (h : w.colorManagement.isSome) (as : List Action) (surface : Surface) :
    recordOf (w.run as) surface = (events surface w as).foldl SurfaceEvent.apply (recordOf w surface) := by
  induction as generalizing w with
  | nil => rfl
  | cons a as ih =>
    rw [events, List.foldl_append, ← recordOf_act h a surface]
    exact ih ((isSome_act w a).trans h)

/-- Without HDR nothing is recorded, and nothing described. -/
theorem describe_run (hdr : Bool) (refresh : Option Int32) (as : List Action) (surface : Surface) :
    ((World.start hdr refresh).run as).swapchainDescription surface =
      let es := events surface (World.start hdr refresh) as
      if hdr then (lastColorspace es).map (describe (lastMetadata es)) else none := by
  have hsome := isSome_run (World.start hdr refresh) as
  cases hdr with
  | false =>
    have hnone : ((World.start false refresh).run as).colorManagement = none :=
      Option.isNone_iff_eq_none.mp (Option.isSome_eq_false_iff.mp hsome)
    simp only [World.swapchainDescription, hnone, Option.bind_none, Bool.false_eq_true, if_false]
  | true =>
    have hstart : recordOf (World.start true refresh) surface = .default := rfl
    rw [description_eq, recordOf_run rfl, hstart, foldl_apply, toImageDescription_eq]
    rfl

/-- What a surface sees of a run depends on the override surface alone. -/
theorem events_congr (surface : Surface) {w w' : World} (hover : w.overrideSurface = w'.overrideSurface)
    (hfocus : w.focusedX11Window = w'.focusedX11Window) (as : List Action) :
    events surface w as = events surface w' as := by
  induction as generalizing w w' with
  | nil => rfl
  | cons a as ih =>
    have hevent : eventOn w surface a = eventOn w' surface a := by
      cases a with
      | overrideWindowContent s x11Window => simp only [eventOn, hover]
      | _ => rfl
    have hover' : (w.act a).overrideSurface = (w'.act a).overrideSurface := by
      cases a with
      | overrideWindowContent s x11Window =>
        exact congrArg (fun focus => some (s, focus.getD x11Window)) hfocus
      | dropOverride => rfl
      | _ => exact hover
    have hfocus' : (w.act a).focusedX11Window = (w'.act a).focusedX11Window := by
      cases a with
      | overrideWindowContent s x11Window =>
        have hevict (w : World) : (w.evict s).focusedX11Window = w.focusedX11Window := by
          unfold World.evict
          split <;> rfl
        exact ((hevict w).trans hfocus).trans (hevict w').symm
      | focus windowId => rfl
      | _ => exact hfocus
    rw [events, events, hevent, ih hover' hfocus']

/-- Metadata and a colour space are kept apart in the record. -/
theorem apply_comm (c : SwapchainColor) (m : MasteringMetadata) (space : Colorspace) :
    SurfaceEvent.apply (SurfaceEvent.apply c (.metadata m)) (.colorspace space) =
      SurfaceEvent.apply (SurfaceEvent.apply c (.colorspace space)) (.metadata m) := rfl

section Order

variable {hdr : Bool} {refresh : Option Int32}

theorem description_run (as : List Action) (surface : Surface) :
    ((World.start hdr refresh).run as).swapchainDescription surface =
      if hdr then
        ((events surface (World.start hdr refresh) as).foldl SurfaceEvent.apply .default).toImageDescription
      else none := by
  rw [describe_run, foldl_apply, toImageDescription_eq]

theorem run_swap (as bs : List Action) (s t : Surface) (request : HdrMetadataRequest) {vkColorspace : UInt32}
    (vkFormat : UInt32) {space : Colorspace} (hspace : feedbackEvent vkColorspace = some (.colorspace space))
    (surface : Surface) :
    let m := Action.setHdrMetadata s request
    let f := Action.swapchainFeedback t vkColorspace vkFormat
    ((World.start hdr refresh).run (as ++ m :: f :: bs)).swapchainDescription surface =
      ((World.start hdr refresh).run (as ++ f :: m :: bs)).swapchainDescription surface := by
  intro m f
  rw [description_run, description_run]
  refine congrArg (fun c : SwapchainColor => if hdr then c.toImageDescription else none) ?_
  rw [events_append, events_append, List.foldl_append, List.foldl_append]
  generalize (events surface (World.start hdr refresh) as).foldl SurfaceEvent.apply .default = c
  generalize (World.start hdr refresh).run as = w
  have hrest : events surface ((w.act m).act f) bs = events surface ((w.act f).act m) bs := by
    refine events_congr surface ?_ ?_ bs <;> rfl
  simp only [events, List.foldl_append, hrest]
  refine congrArg (List.foldl SurfaceEvent.apply · _) ?_
  simp only [m, f, eventOn, hspace]
  by_cases ht : t = surface
  · rw [if_pos ht]
    by_cases hs : s = surface ∧ request.metadata.isPlausible
    · rw [if_pos hs]
      exact apply_comm c _ space
    · rw [if_neg hs]
      rfl
  · rw [if_neg ht]
    rfl

end Order

/-- The surface that a message is on. -/
def surface? : Action → Option Surface
  | .createSwapchain s => some s
  | .swapchainFeedback s _ _ => some s
  | .setHdrMetadata s _ => some s
  | .overrideWindowContent s _ => some s
  | .setImageDescription s _ => some s
  | .unsetImageDescription s => some s
  | .commit s => some s
  | .destroyed s => some s
  | .dropOverride => none
  | .focus _ => none

/-- The action takes the place of the override `surface`. -/
def Evicts (w : World) (a : Action) (surface : Surface) : Prop :=
  ∃ s x11Window, a = .overrideWindowContent s x11Window ∧ s ≠ surface ∧
    w.overrideSurface.map Prod.fst = some surface

theorem eventOn_of_other {w : World} {a : Action} {surface : Surface} (hother : surface? a ≠ some surface)
    (hevicts : ¬Evicts w a surface) : eventOn w surface a = none := by
  have hne {s : Surface} (h : some s ≠ some surface) : s ≠ surface := fun hs => h (congrArg some hs)
  cases a with
  | createSwapchain s => exact if_neg (hne hother)
  | swapchainFeedback s vkColorspace vkFormat => exact if_neg (hne hother)
  | setHdrMetadata s request => exact if_neg fun h => hne hother h.1
  | overrideWindowContent s x11Window => exact if_neg fun h => hevicts ⟨s, x11Window, rfl, h.2, h.1⟩
  | destroyed s => exact if_neg (hne hother)
  | _ => rfl

structure FollowsFeedback (w : World) (hdr : Bool) : Prop where
  description : ∀ as surface, (w.run as).swapchainDescription surface =
    let es := events surface w as
    if hdr then (lastColorspace es).map (describe (lastMetadata es)) else none
  /-- Metadata alone gives no description. -/
  metadataAlone : ∀ as surface, (∀ space, .colorspace space ∉ events surface w as) →
    (w.run as).swapchainDescription surface = none
  /-- Metadata and a colour space may come in either order. -/
  swap : ∀ as bs s t request vkColorspace vkFormat space surface,
    feedbackEvent vkColorspace = some (.colorspace space) →
    let m := Action.setHdrMetadata s request
    let f := Action.swapchainFeedback t vkColorspace vkFormat
    (w.run (as ++ m :: f :: bs)).swapchainDescription surface =
      (w.run (as ++ f :: m :: bs)).swapchainDescription surface
  /-- Other surfaces matter only where one takes the place of the override. -/
  other : ∀ as a surface, surface? a ≠ some surface → ¬Evicts (w.run as) a surface →
    (w.run (as ++ [a])).swapchainDescription surface = (w.run as).swapchainDescription surface

theorem lastColorspace_of_notMem {es : List SurfaceEvent} (h : ∀ space, .colorspace space ∉ es) :
    lastColorspace es = none := by
  have hnone : ∀ o ∈ es.filterMap SurfaceEvent.space?, o = none := by
    intro o ho
    obtain ⟨e, he, heo⟩ := List.mem_filterMap.mp ho
    cases e with
    | cleared => exact (Option.some.inj heo).symm
    | colorspace space => exact absurd he (h space)
    | metadata m => cases heo
  unfold lastColorspace
  cases hlast : (es.filterMap SurfaceEvent.space?).getLast? with
  | none => rfl
  | some o =>
    rw [hnone o (List.mem_of_getLast? hlast)]
    rfl

/-- In a session with HDR, and none is described in one without. -/
theorem description_follows_feedback (hdr : Bool) (refresh : Option Int32) :
    FollowsFeedback (World.start hdr refresh) hdr where
  description := describe_run hdr refresh
  metadataAlone as surface h := by
    rw [describe_run]
    dsimp only
    rw [lastColorspace_of_notMem h]
    split <;> rfl
  swap as bs s t request vkColorspace vkFormat space surface hspace :=
    run_swap as bs s t request vkFormat hspace surface
  other as a surface hother hevicts := by
    rw [description_run, description_run, events_append, List.foldl_append]
    have hnone := eventOn_of_other hother hevicts
    simp only [events, hnone, Option.toList_none, List.append_nil, List.foldl_nil]

/-- An HDR10 swapchain in a session without HDR. -/
theorem sdr_never_described : ¬∀ (hdr : Bool) (as : List Action) (surface : Surface),
    ((World.start hdr none).run as).swapchainDescription surface =
      let es := events surface (World.start hdr none) as
      (lastColorspace es).map (describe (lastMetadata es)) := fun h =>
  absurd (h false [.createSwapchain 1, .swapchainFeedback 1 vkColorSpaceHdr10St2084 0] 1) (by decide)

end Moonshine.Proof.ColorManagement
