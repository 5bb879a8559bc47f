import Moonshine.Impl.Compositor.Handlers
import Moonshine.Proof.Compositor.Promotion
import Moonshine.Proof.Compositor.Reevaluation

/-!
# Which window gets the focus

`Selects` is what a re-evaluation of the focus is to do. That the base is chosen
in the order of preference, and that the focus is cleared exactly if there is no
candidate, holds in every state (`bestCandidate_chooses`); that the window which
gets the focus is itself a candidate and stays in the space depends on where the
promotion leads (`selects_iff`).
-/

namespace Moonshine.Proof.Compositor

open Moonshine.Framework Moonshine.Impl.Compositor

variable {M : SpaceModel Window (Int × Int)} {s s' : MoonshineCompositor M} {o : Outside} {w best : Window}

/-- The candidate with the ID that a client requested. -/
def requested (s : MoonshineCompositor M) (ws : List Window) : Set Window :=
  {w | ∃ id, s.focusState.requestedFocusWindow = some id ∧ w ∈ ws ∧ w.x11Surface = some id}

/-- The candidate with the ID in Steam's focus control. -/
def steamWindow (o : Outside) (ws : List Window) : Set Window :=
  {w | ∃ fc, focusControl o = some fc ∧ ∃ id, fc.window = some id ∧ w ∈ ws ∧ w.x11Surface = some id}

/-- The candidates with an app ID that Steam lists. -/
def steamApps (s : MoonshineCompositor M) (o : Outside) (ws : List Window) : Set Window :=
  {w | w ∈ ws ∧ ∃ fc m, focusControl o = some fc ∧ s.windowMetadata.get? w = some m ∧ m.appId ∈ fc.appIds}

def preferences (s : MoonshineCompositor M) (o : Outside) (ws : List Window) : List (Set Window) :=
  [requested s ws, steamWindow o ws, Maxima s.priorityKey (steamApps s o ws), Maxima s.priorityKey {w | w ∈ ws}]

/-- What a re-evaluation in `s` that ends in `s'` is to do: without a candidate
there is no focus; else the focus goes to a candidate, which stays in the space
and is what the base is promoted to. -/
structure Selects (s : MoonshineCompositor M) (o : Outside) (s' : MoonshineCompositor M) : Prop where
  none_iff : s'.focusedWindow = none ↔ (s.evaluated o).candidates = []
  some_imp : ∀ w, s'.focusedWindow = some w → w ∈ (s.evaluated o).candidates ∧ w ∈ s'.space.elements ∧
    ∃ base, FirstOf (preferences (s.evaluated o) o (s.evaluated o).candidates) base ∧
      w = (s.evaluated o).promoteTransientChild base

theorem picks_find?_x11Surface (ws : List Window) (id : UInt32) :
    Picks (ws.find? fun w => w.x11Surface = some id) {w | w ∈ ws ∧ w.x11Surface = some id} := by
  simpa using picks_find? ws fun w => w.x11Surface = some id

theorem picks_requested (s : MoonshineCompositor M) (ws : List Window) :
    Picks (s.focusState.requestedFocusWindow.bind fun id => ws.find? fun w => w.x11Surface = some id)
      (requested s ws) :=
  picks_bind fun id => picks_find?_x11Surface ws id

theorem chooses_steamBest (s : MoonshineCompositor M) (o : Outside) (ws : List Window) :
    Chooses (s.steamBest o ws) [steamWindow o ws, Maxima s.priorityKey (steamApps s o ws)] := by
  have hsteam : s.steamBest o ws = (focusControl o).bind fun fc =>
      (fc.window.bind fun id => ws.find? fun w => w.x11Surface = some id).or (s.bestOfApps fc.appIds ws) := rfl
  rw [hsteam]
  cases hfc : focusControl o with
  | none =>
    refine ⟨fun w hw => ?_, fun _ t ht => Set.eq_empty_of_forall_notMem fun w hw => ?_⟩
    · cases hw
    · simp only [List.mem_cons, List.not_mem_nil, or_false] at ht
      rcases ht with rfl | rfl
      · simp [steamWindow, hfc] at hw
      · simp [Maxima, steamApps, hfc] at hw
  | some fc =>
    have hwindow : steamWindow o ws =
        {w | ∃ id, fc.window = some id ∧ w ∈ {w | w ∈ ws ∧ w.x11Surface = some id}} := by
      ext w
      simp [steamWindow, hfc]
    have happs : steamApps s o ws = {w | w ∈ ws ∧ hasApp s fc.appIds w} := by
      ext w
      simp [steamApps, hfc, hasApp, Option.any_eq_true]
    rw [Option.bind_some, hwindow, happs, bestOfApps_eq]
    exact (picks_bind fun id => picks_find?_x11Surface ws id).chooses.or
      (bestOf_foldl_improve s.priorityKey (hasApp s fc.appIds) ws).picks.chooses

theorem bestCandidate_chooses (s : MoonshineCompositor M) (o : Outside) (ws : List Window) :
    Chooses (s.bestCandidate o ws) (preferences s o ws) := by
  rw [bestCandidate_eq]
  exact (picks_requested s ws).chooses.or
    ((chooses_steamBest s o ws).or (picks_head?_reverse_insertionSort s.priorityKey ws).chooses)

/-- What the selection relies on: a child that the base is promoted to is not barred
from the focus, and a focus that moves does not go to the open dropdown. -/
structure StaysCandidate (s : MoonshineCompositor M) (o : Outside) : Prop where
  child : ∀ base w, IsBase (s.refreshMetadata o) o base → PromotedTo s base w → ¬Barred (s.refreshMetadata o) w
  dropdown : ∀ best, Chosen s o best → s.focusChanged o best → s.overrideWindow ≠ some best

theorem mem_space_clearDropdowns :
    w ∈ s.clearDropdowns.space.elements ↔ w ∈ s.space.elements ∧ s.overrideWindow ≠ some w := by
  cases hd : s.overrideWindow with
  | none =>
    rw [clearDropdowns_none hd]
    simp
  | some d =>
    obtain ⟨t, ht⟩ := clearDropdowns_eq s d hd
    rw [ht, Space.mem_elements_unmapElem]
    simp [eq_comm]

theorem mem_space_moveFocus :
    w ∈ (s.moveFocus o best).space.elements ↔
      w ∈ s.space.elements ∧ (s.focusChanged o best → s.overrideWindow ≠ some w) := by
  unfold MoonshineCompositor.moveFocus
  by_cases h : s.focusChanged o best
  · simp only [h, if_true, true_imp_iff]
    exact mem_space_clearDropdowns
  · simp [h]

/-- What a re-evaluation does with a window that it chooses. -/
theorem selects_iff_of_chosen (hchosen : Chosen s o best) :
    Selects s o (s.reevaluateFocus o) ↔ best ∈ (s.evaluated o).candidates ∧
      (s.focusChanged o best → s.overrideWindow ≠ some best) := by
  have htarget := (focusTarget_evaluated_eq_some_iff s o).mpr hchosen
  obtain ⟨base, hbase, hbest⟩ := Option.map_eq_some_iff.mp htarget
  have hne : (s.evaluated o).candidates ≠ [] := fun hnil => by
    rw [bestCandidate_eq_none_iff.mpr hnil] at hbase
    cases hbase
  have hfirst := (bestCandidate_chooses (s.evaluated o) o (s.evaluated o).candidates).first base hbase
  obtain ⟨f, hf⟩ := reevaluateFocus_of_target htarget
  rw [hf]
  have hfocused : (MoonshineCompositor.applyFocus { s.evaluated o with focusState := f } o best).focusedWindow =
      some best := reference_moveFocus { s.evaluated o with focusState := f } o best .focused
  have hspace : best ∈ (MoonshineCompositor.applyFocus { s.evaluated o with focusState := f } o best).space.elements ↔
      best ∈ (s.evaluated o).space.elements ∧ (s.focusChanged o best → s.overrideWindow ≠ some best) := by
    have hoverride : (s.evaluated o).overrideWindow = s.overrideWindow :=
      reference_evaluated s o (r := .override) (by decide)
    rw [← hoverride, ← focusChanged_evaluated s o o best]
    exact mem_space_moveFocus
  constructor
  · intro h
    obtain ⟨hcand, hstays, -⟩ := h.some_imp best hfocused
    exact ⟨hcand, (hspace.mp hstays).2⟩
  · rintro ⟨hcand, hstays⟩
    refine ⟨?_, fun w hw => ?_⟩
    · rw [hfocused]
      exact iff_of_false (Option.some_ne_none best) hne
    · obtain rfl : best = w := Option.some.inj (hfocused.symm.trans hw)
      exact ⟨hcand, hspace.mpr ⟨(mem_candidates.mp hcand).1, hstays⟩, base, hfirst, hbest.symm⟩

/-- A chosen window is a candidate exactly if no child that is not one is promoted. -/
theorem mem_candidates_of_chosen (hchosen : Chosen s o best) : best ∈ (s.evaluated o).candidates ↔
    ∀ base w, IsBase (s.refreshMetadata o) o base → PromotedTo s base w → ¬Barred (s.refreshMetadata o) w := by
  obtain ⟨-, -, -, hcandidates, -⟩ := live_evaluated s o
  constructor
  · intro hcand base w hbase hw
    obtain rfl := hchosen.unique ⟨base, hbase, .inl hw⟩
    rw [hcandidates] at hcand
    exact (mem_candidates_iff.mp hcand).2
  · intro hchildren
    obtain ⟨base, hbase, hbest⟩ := id hchosen
    rcases hbest with hbest | ⟨rfl, -⟩
    · have hmeta := mem_metadata_of_focusTarget ((focusTarget_evaluated_eq_some_iff s o).mpr hchosen)
      obtain ⟨hlive, -⟩ := live_evaluated s o
      rw [hlive] at hmeta
      rw [hcandidates]
      exact mem_candidates_iff.mpr ⟨hmeta, hchildren base best hbase hbest⟩
    · rw [hcandidates]
      exact mem_of_bestCandidate (bestCandidate_eq_some_iff.mpr hbase)

/-- In every state: the focus goes where it should exactly if the promotion leads
to no window that is barred from it, and the focus does not move to the dropdown
that its move clears. -/
theorem selects_iff (s : MoonshineCompositor M) (o : Outside) :
    Selects s o (s.reevaluateFocus o) ↔ StaysCandidate s o := by
  cases htarget : (s.evaluated o).focusTarget o with
  | none =>
    have hnot (best : Window) : ¬Chosen s o best := fun hbest => by
      rw [(focusTarget_evaluated_eq_some_iff s o).mpr hbest] at htarget
      cases htarget
    have hbase := Option.map_eq_none_iff.mp htarget
    rw [reevaluateFocus_of_none htarget]
    refine iff_of_true ⟨?_, fun w hw => ?_⟩
      ⟨fun base w hb hw => absurd ⟨base, hb, .inl hw⟩ (hnot w), fun best hbest => absurd hbest (hnot best)⟩
    · exact iff_of_true rfl (bestCandidate_eq_none_iff.mp hbase)
    · cases hw
  | some best =>
    have hchosen := (focusTarget_evaluated_eq_some_iff s o).mp htarget
    rw [selects_iff_of_chosen hchosen, mem_candidates_of_chosen hchosen]
    constructor
    · rintro ⟨hchild, hdropdown⟩
      exact ⟨hchild, fun best' hbest' => hchosen.unique hbest' ▸ hdropdown⟩
    · exact fun h => ⟨h.child, h.dropdown best hchosen⟩

/-- An X11 connection on which the window 2 has `STEAM_OVERLAY` set. -/
def steamNotification : Outside where
  x11Focus := some {
    readFocusControl := none
    getWindowPid := fun _ => 0
    getInputFocusMode := fun _ => 0
    getSteamOverlayValue := fun id => if id = 2 then 1 else 0
    getWindowOpacity := fun _ => 0
    isSteamStreamingClient := fun _ => false
    isSteamStreamingClientVideo := fun _ => false
    isGamescopeExternalOverlay := fun _ => false
    getVrOverlayTarget := fun _ => 0
    isSteamBigPicture := fun _ => false
    getWindowStyle := fun _ => 0
    getNetWmStateSkipFlags := fun _ => (false, false) }
  x11WlSurface := fun _ => none
  getAppIdFromPid := fun _ => 0
  metadataValues := fun m => m.values

def exampleWindow (windowId : UInt32) (isTransientFor : Option UInt32) : X11Surface :=
  ⟨windowId, ⟨0, 0, 300, 100⟩, none, none, isTransientFor, false, false⟩

/-- A window and a notification of it are mapped, and the focus is re-evaluated. -/
def notificationMapped : MoonshineCompositor (stacked Window (Int × Int)) :=
  (((MoonshineCompositor.new 1920 1080 none).react
    ⟨.mapWindowRequest (exampleWindow 1 none) true, steamNotification, steamNotification⟩).handle
      steamNotification (.mapWindowRequest (exampleWindow 2 (some 1)) true)).state

/-- The notification gets the focus. -/
theorem notification_focused : ¬ ∀ (s : MoonshineCompositor (stacked Window (Int × Int))) (o : Outside),
    Selects s o (s.reevaluateFocus o) := by
  intro h
  have hfocused := (h notificationMapped steamNotification).some_imp ⟨1, .x11 2⟩ (by decide +kernel)
  exact absurd hfocused.1 (by decide +kernel)

end Moonshine.Proof.Compositor
