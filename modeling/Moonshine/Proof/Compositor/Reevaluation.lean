import Moonshine.Framework.References
import Moonshine.Proof.Compositor.Promotion

/-!
# Re-evaluating the focus

The compositor refers to windows in six ways (`reference`); what it may refer to
is registered: in the space, and with an entry in the metadata. A re-evaluation
leaves no reference dangling exactly if the state `Settles`: where nothing can
have the focus, the pointer focus is still registered; where the focus moves, the
dropdown that is cleared for it is not referred to in any other way.
-/

namespace Moonshine.Proof.Compositor

open Moonshine.Framework Moonshine.Impl.Compositor

inductive Reference
  | focused | override | overlay | notification | externalOverlay | pointerFocus
  deriving DecidableEq, Repr

def reference (s : MoonshineCompositor M) : Reference → Option Window
  | .focused => s.focusedWindow
  | .override => s.overrideWindow
  | .overlay => s.overlayWindow
  | .notification => s.notificationWindow
  | .externalOverlay => s.externalOverlayWindow
  | .pointerFocus => s.pointerFocusWindow

/-- Whether a reference is to a window that Steam or others overlay. -/
def Reference.special : Reference → Bool
  | .overlay => true
  | .notification => true
  | .externalOverlay => true
  | .focused => false
  | .override => false
  | .pointerFocus => false

def registered (s : MoonshineCompositor M) : Set Window :=
  {w | w ∈ s.space.elements ∧ w ∈ s.windowMetadata}

/-- Each reference is `none`, or to a window that is in the space and has an entry
in the metadata. -/
def FocusSound (s : MoonshineCompositor M) : Prop := NoDangling (registered s) (reference s)

variable {s : MoonshineCompositor M} {o : Outside} {w best : Window}

/-! ## Clearing -/

theorem forgetChild_eq (s : MoonshineCompositor M) (p : Option UInt32) (w : Window) :
    ∃ t, s.forgetChild p w = { s with transientChildren := t } := by
  unfold MoonshineCompositor.forgetChild
  cases p with
  | none => exact ⟨_, rfl⟩
  | some p =>
    cases h : s.transientChildren.get? p with
    | none => exact ⟨s.transientChildren, by simp only [h]⟩
    | some children => exact ⟨_, by simp only [h]; rfl⟩

theorem unregisterWindow_eq (s : MoonshineCompositor M) (w : Window) : ∃ t, s.unregisterWindow w =
    { s with transientChildren := t, windowMetadata := s.windowMetadata.erase w } := by
  unfold MoonshineCompositor.unregisterWindow
  obtain ⟨t, ht⟩ := forgetChild_eq s ((s.windowMetadata.get? w).bind (·.transientFor)) w
  exact ⟨t, by rw [ht]⟩

theorem clearDropdowns_eq (s : MoonshineCompositor M) (d : Window) (h : s.overrideWindow = some d) :
    ∃ t, s.clearDropdowns = { s with
      overrideWindow := none
      focusState := s.focusState.markDirty
      space := s.space.unmapElem d
      transientChildren := t
      windowMetadata := s.windowMetadata.erase d } := by
  unfold MoonshineCompositor.clearDropdowns
  rw [h]
  obtain ⟨t, ht⟩ := unregisterWindow_eq (MoonshineCompositor.unmapElem
    { s with overrideWindow := none, focusState := s.focusState.markDirty } d) d
  exact ⟨t, ht⟩

theorem clearDropdowns_none (h : s.overrideWindow = none) : s.clearDropdowns = s := by
  unfold MoonshineCompositor.clearDropdowns
  rw [h]

theorem registered_unmapped (s : MoonshineCompositor M) (w : Window) :
    {w' | w' ∈ (s.space.unmapElem w).elements ∧ w' ∈ s.windowMetadata.erase w} = registered s \ {w} := by
  ext w'
  simp only [Set.mem_ofPred_eq, Space.mem_elements_unmapElem, AList.mem_erase, registered, Set.mem_sdiff,
    Set.mem_singleton_iff]
  tauto

theorem registered_clearDropdowns (s : MoonshineCompositor M) :
    registered s.clearDropdowns = registered s \ {d | s.overrideWindow = some d} := by
  cases h : s.overrideWindow with
  | none =>
    rw [clearDropdowns_none h]
    simp
  | some d =>
    obtain ⟨t, ht⟩ := clearDropdowns_eq s d h
    rw [ht]
    show {w' | w' ∈ (s.space.unmapElem d).elements ∧ w' ∈ s.windowMetadata.erase d} = _
    rw [registered_unmapped]
    congr 1
    ext w'
    simp [eq_comm]

theorem reference_clearDropdowns (s : MoonshineCompositor M) (r : Reference) :
    reference s.clearDropdowns r = if r = .override then none else reference s r := by
  cases h : s.overrideWindow with
  | none =>
    rw [clearDropdowns_none h]
    split
    · subst r
      exact h
    · rfl
  | some d =>
    obtain ⟨t, ht⟩ := clearDropdowns_eq s d h
    rw [ht]
    cases r <;> rfl

/-! ## The special windows -/

def overlaid (f : WindowFlags) : Bool := f.overlay || f.notification || f.externalOverlay

/-- A window whose unmapping has the focus re-evaluated. -/
def Flagged (s : MoonshineCompositor M) (w : Window) : Prop :=
  ∃ m, s.windowMetadata.get? w = some m ∧ overlaid m.flags

theorem mem_of_mostOpaque {windows : List Window} {flag : WindowFlags → Bool}
    (h : s.mostOpaque windows flag = some w) :
    w ∈ windows ∧ ∃ m, s.windowMetadata.get? w = some m ∧ flag m.flags := by
  refine List.foldlRecOn windows _ (motive := fun best : Option Window × UInt32 => ∀ w, best.1 = some w →
    w ∈ windows ∧ ∃ m, s.windowMetadata.get? w = some m ∧ flag m.flags) (by simp)
    (fun best ih v hv w hw => ?_) w h
  split at hw
  · rename_i m hm
    split at hw
    · rename_i hflag
      obtain rfl : v = w := Option.some.inj hw
      exact ⟨hv, m, hm, hflag.1⟩
    · exact ih w hw
  · exact ih w hw

theorem refreshMetadata_eq (s : MoonshineCompositor M) (o : Outside) : ∃ md, s.refreshMetadata o =
    { s with windowMetadata := md } ∧ ∀ w, w ∈ md ↔ w ∈ s.windowMetadata := by
  unfold MoonshineCompositor.refreshMetadata
  cases o.x11Focus with
  | none => exact ⟨_, rfl, fun _ => Iff.rfl⟩
  | some xf => exact ⟨_, rfl, fun w => HashMap.mem_mapValues _ _ _⟩

theorem special_classified {windows : List Window} {r : Reference} (hr : r.special)
    (h : reference (s.classifySpecialWindows windows) r = some w) :
    w ∈ windows ∧ Flagged (s.classifySpecialWindows windows) w := by
  match r, hr with
  | .overlay, _ =>
    obtain ⟨hw, m, hm, hflag⟩ := mem_of_mostOpaque h
    exact ⟨hw, m, hm, by simp [overlaid, hflag]⟩
  | .notification, _ =>
    obtain ⟨hw, m, hm, hflag⟩ := mem_of_mostOpaque h
    exact ⟨hw, m, hm, by simp [overlaid, hflag]⟩
  | .externalOverlay, _ =>
    obtain ⟨hw, m, hm, hflag⟩ := mem_of_mostOpaque h
    exact ⟨hw, m, hm, by simp [overlaid, hflag]⟩

theorem Flagged.mem (h : Flagged s w) : w ∈ s.windowMetadata :=
  HashMap.mem_of_get? h.choose_spec.1

/-! ## The state in which the focus is chosen -/

theorem evaluated_eq (s : MoonshineCompositor M) (o : Outside) : ∃ (md : _) (f : FocusState) (r₁ r₂ r₃ : _),
    s.evaluated o = { s with
      windowMetadata := md
      focusState := f
      overlayWindow := r₁
      notificationWindow := r₂
      externalOverlayWindow := r₃ } ∧ ∀ w, w ∈ md ↔ w ∈ s.windowMetadata := by
  obtain ⟨md, hmd, hmem⟩ := refreshMetadata_eq { s with focusState := s.focusState.markDirty } o
  refine ⟨md, (s.evaluated o).focusState, (s.evaluated o).overlayWindow, (s.evaluated o).notificationWindow,
    (s.evaluated o).externalOverlayWindow, ?_, hmem⟩
  unfold MoonshineCompositor.evaluated
  rw [hmd]
  rfl

theorem registered_evaluated (s : MoonshineCompositor M) (o : Outside) :
    registered (s.evaluated o) = registered s := by
  obtain ⟨md, f, r₁, r₂, r₃, heq, hmem⟩ := evaluated_eq s o
  rw [heq]
  ext w
  exact and_congr_right fun _ => hmem w

theorem reference_evaluated (s : MoonshineCompositor M) (o : Outside) {r : Reference} (hr : ¬ r.special) :
    reference (s.evaluated o) r = reference s r := by
  obtain ⟨md, f, r₁, r₂, r₃, heq, -⟩ := evaluated_eq s o
  rw [heq]
  cases r <;> first | rfl | exact absurd rfl hr

theorem focusChanged_evaluated (s : MoonshineCompositor M) (o o' : Outside) (best : Window) :
    (s.evaluated o).focusChanged o' best = s.focusChanged o' best := by
  obtain ⟨md, f, r₁, r₂, r₃, heq, -⟩ := evaluated_eq s o
  rw [heq]
  rfl

/-- The special windows are chosen from the space, by a flag in their metadata. -/
theorem special_evaluated {r : Reference} (hr : r.special)
    (h : reference (s.evaluated o) r = some w) : w ∈ registered s ∧ Flagged (s.evaluated o) w := by
  obtain ⟨hspace, hflagged⟩ := special_classified hr h
  rw [← registered_evaluated s o]
  exact ⟨⟨hspace, hflagged.mem⟩, hflagged⟩

/-! ## The choice -/

theorem mem_metadata_of_any {p : WindowMetadata → Bool} (h : (s.windowMetadata.get? w).any p) :
    w ∈ s.windowMetadata :=
  HashMap.mem_iff.mpr (Option.isSome_iff_exists.mp (Option.isSome_of_any h))

theorem mem_metadata_of_candidate (h : w ∈ s.candidates) : w ∈ s.windowMetadata := by
  have hc := (mem_candidates.mp h).2
  unfold MoonshineCompositor.isCandidate at hc
  exact mem_metadata_of_any (Bool.and_eq_true_iff.mp hc).2

theorem mem_of_bestOfApps {appIds : List UInt32} {ws : List Window} (h : s.bestOfApps appIds ws = some w) :
    w ∈ ws := by
  refine List.foldlRecOn ws _ (motive := fun best : Option Window => ∀ w, best = some w → w ∈ ws) (by simp)
    (fun best ih v hv w hw => ?_) w h
  split at hw
  · split at hw
    · obtain rfl : v = w := Option.some.inj hw
      exact hv
    · exact ih w hw
  · exact ih w hw

theorem mem_of_steamBest {ws : List Window} (h : s.steamBest o ws = some w) : w ∈ ws := by
  obtain ⟨fc, -, h⟩ := Option.bind_eq_some_iff.mp h
  rcases Option.or_eq_some_iff.mp h with h | ⟨-, h⟩
  · obtain ⟨target, -, h⟩ := Option.bind_eq_some_iff.mp h
    exact List.mem_of_find?_eq_some h
  · exact mem_of_bestOfApps h

theorem mem_of_pickBestCandidate {ws : List Window} (h : (s.pickBestCandidate o ws).1 = some w) : w ∈ ws := by
  unfold MoonshineCompositor.pickBestCandidate at h
  split at h
  · rename_i v hv
    obtain rfl : v = w := Option.some.inj h
    obtain ⟨requestedId, -, hv⟩ := Option.bind_eq_some_iff.mp hv
    exact List.mem_of_find?_eq_some hv
  · exact mem_of_steamBest h

theorem mem_byPriority {ws : List Window} : w ∈ s.byPriority ws ↔ w ∈ ws := by
  rw [MoonshineCompositor.byPriority, List.mem_reverse, List.mem_insertionSort]

theorem mem_of_bestCandidate {ws : List Window} (h : s.bestCandidate o ws = some w) : w ∈ ws := by
  rcases Option.or_eq_some_iff.mp h with h | ⟨-, h⟩
  · exact mem_of_pickBestCandidate h
  · exact mem_byPriority.mp (List.mem_of_head? h)

theorem bestCandidate_eq_none_iff {ws : List Window} : s.bestCandidate o ws = none ↔ ws = [] := by
  constructor
  · intro h
    rw [MoonshineCompositor.bestCandidate, Option.or_eq_none_iff, List.head?_eq_none_iff] at h
    refine List.eq_nil_iff_forall_not_mem.mpr fun w hw => ?_
    exact List.not_mem_nil (h.2 ▸ mem_byPriority.mpr hw)
  · rintro rfl
    exact Option.eq_none_iff_forall_ne_some.mpr fun w hw => List.not_mem_nil (mem_of_bestCandidate hw)

/-- A promoted window has an entry in the metadata, if the one has it that it is
promoted from. -/
theorem mem_metadata_of_promoteFrom (hw : w ∈ s.windowMetadata) (n : ℕ) (currentId : UInt32)
    (visited : List UInt32) : s.promoteFrom w n currentId visited ∈ s.windowMetadata := by
  induction n generalizing currentId visited with
  | zero => exact hw
  | succ n ih =>
    unfold MoonshineCompositor.promoteFrom
    split
    · exact hw
    · split
      · rename_i hany
        exact mem_metadata_of_any hany
      · split
        · split
          · exact hw
          · exact ih _ _
        · exact hw

theorem mem_metadata_of_focusTarget (h : s.focusTarget o = some best) : best ∈ s.windowMetadata := by
  obtain ⟨base, hbase, rfl⟩ := Option.map_eq_some_iff.mp h
  have hmem := mem_metadata_of_candidate (mem_of_bestCandidate hbase)
  unfold MoonshineCompositor.promoteTransientChild
  split
  · exact mem_metadata_of_promoteFrom hmem _ _ _
  · exact hmem

/-! ## Its application -/

/-- The dropdown that an application of the focus clears. -/
def cleared (s : MoonshineCompositor M) (o : Outside) (best : Window) : Set Window :=
  {d | s.focusChanged o best ∧ s.overrideWindow = some d}

theorem registered_moveFocus (s : MoonshineCompositor M) (o : Outside) (best : Window) :
    registered (s.moveFocus o best) = registered s \ cleared s o best := by
  unfold MoonshineCompositor.moveFocus cleared
  by_cases h : s.focusChanged o best
  · simp only [h, true_and]
    exact registered_clearDropdowns _
  · simp only [h, Bool.false_eq_true, false_and]
    exact (Set.sdiff_empty).symm

theorem reference_moveFocus (s : MoonshineCompositor M) (o : Outside) (best : Window) (r : Reference) :
    reference (s.moveFocus o best) r =
      if r = .focused then some best
      else if r = .override ∧ s.focusChanged o best then none
      else reference s r := by
  unfold MoonshineCompositor.moveFocus
  by_cases h : s.focusChanged o best
  · rw [if_pos h, reference_clearDropdowns]
    cases r <;> simp [h, reference]
  · rw [if_neg h]
    cases r <;> simp [h, reference]

theorem mem_of_overlayWithInputFocus (h : s.overlayWithInputFocus = some w) : s.overlayWindow = some w :=
  (Option.filter_eq_some_iff.mp h).1

/-- The pointer goes to the focused window, or to an overlay. -/
theorem pointer_applyFocus (s : MoonshineCompositor M) (o : Outside) (best : Window) :
    ∃ p, (s.applyFocus o best).pointerFocusWindow = some p ∧ (p = best ∨ s.overlayWindow = some p) := by
  refine ⟨_, rfl, ?_⟩
  cases h : (s.moveFocus o best).overlayWithInputFocus with
  | none => exact .inl rfl
  | some p =>
    have hover := reference_moveFocus s o best .overlay
    exact .inr (hover.symm.trans (mem_of_overlayWithInputFocus h))

/-- An application keeps the references that are not its own. -/
theorem reference_applyFocus_special (s : MoonshineCompositor M) (o : Outside) (best : Window) {r : Reference}
    (hr : r.special) : reference (s.applyFocus o best) r = reference s r := by
  have h := reference_moveFocus s o best r
  cases r <;> first | exact h | exact absurd hr (by decide)

theorem focusSound_applyFocus_iff
    (hspecial : ∀ r, r.special → ∀ w, reference s r = some w → w ∈ registered s)
    (hdropdown : ∀ d, s.overrideWindow = some d → d ∈ registered s) :
    FocusSound (s.applyFocus o best) ↔ best ∈ registered s ∧
      ∀ d ∈ cleared s o best, d ≠ best ∧ ∀ r, r.special → reference s r ≠ some d := by
  have hreg : registered (s.applyFocus o best) = registered s \ cleared s o best := registered_moveFocus s o best
  have hfocused : reference (s.applyFocus o best) .focused = some best := reference_moveFocus s o best .focused
  unfold FocusSound
  rw [hreg]
  constructor
  · intro h
    have hbest := h .focused best hfocused
    refine ⟨hbest.1, fun d hd => ⟨fun heq => hbest.2 (heq ▸ hd), fun r hr hw => ?_⟩⟩
    exact (h r d ((reference_applyFocus_special s o best hr).trans hw)).2 hd
  · rintro ⟨hbest, hcleared⟩
    have hspecial' {r : Reference} (hr : r.special) {w : Window} (hw : reference s r = some w) :
        w ∈ registered s \ cleared s o best :=
      ⟨hspecial r hr w hw, fun hd => (hcleared w hd).2 r hr hw⟩
    have hbest' : best ∈ registered s \ cleared s o best := ⟨hbest, fun hd => (hcleared best hd).1 rfl⟩
    intro r w hw
    by_cases hr : r.special
    · exact hspecial' hr ((reference_applyFocus_special s o best hr).symm.trans hw)
    · match r, hr with
      | .focused, _ =>
        obtain rfl : best = w := Option.some.inj (hfocused.symm.trans hw)
        exact hbest'
      | .override, _ =>
        have hover := (reference_moveFocus s o best .override).symm.trans hw
        by_cases hc : s.focusChanged o best
        · simp [hc] at hover
        · have hw : s.overrideWindow = some w := by simpa [hc, reference] using hover
          exact ⟨hdropdown w hw, fun hd => hc hd.1⟩
      | .pointerFocus, _ =>
        obtain ⟨p, hp, hcase⟩ := pointer_applyFocus s o best
        obtain rfl : p = w := Option.some.inj (hp.symm.trans hw)
        rcases hcase with rfl | hover
        · exact hbest'
        · exact hspecial' (r := .overlay) rfl hover

/-! ## A re-evaluation -/

/-- What a re-evaluation relies on: windows to come are new, and the dropdown, an
X11 window, is registered. -/
structure Base (s : MoonshineCompositor M) : Prop where
  fresh : ∀ w ∈ s.windowMetadata, w.id < s.nextWindow
  dropdown : ∀ d, s.overrideWindow = some d → d ∈ registered s ∧ d.x11Surface.isSome

/-- The flags of the windows that are shown over the others. -/
def specialFlags : List (WindowFlags → Bool) := [(·.overlay), (·.notification), (·.externalOverlay)]

/-- The state in which the focus is re-evaluated, after an event that has removed the
window `gone`: where every window is barred, the pointer focus is not on that one; a
child that the base is promoted to has not left the space; and where the focus moves
with a dropdown open, the dropdown is not what it moves to, and not the last of the
most opaque windows with a special flag. -/
structure Settles (s : MoonshineCompositor M) (o : Outside) (gone : Option Window) : Prop where
  pointer : (∀ w ∈ registered s, Barred (s.refreshMetadata o) w) →
    ∀ w, s.pointerFocusWindow = some w → gone ≠ some w
  child : ∀ base w, IsBase (s.refreshMetadata o) o base → PromotedTo s base w → w ∈ s.space.elements
  dropdown : ∀ best, Chosen s o best → s.focusChanged o best → ∀ d, s.overrideWindow = some d →
    d ≠ best ∧ ∀ flag ∈ specialFlags, ¬LastMax (opacityOf s) (hasFlag s flag) s.space.elements d

/-- Nothing can have the focus exactly if every window is barred. -/
theorem focusTarget_evaluated_eq_none_iff : (s.evaluated o).focusTarget o = none ↔
    ∀ w ∈ registered s, Barred (s.refreshMetadata o) w := by
  obtain ⟨-, -, -, hcandidates, -⟩ := live_evaluated s o
  obtain ⟨md, heq, hmem⟩ := refreshMetadata_eq s o
  rw [MoonshineCompositor.focusTarget, Option.map_eq_none_iff, bestCandidate_eq_none_iff, hcandidates,
    List.eq_nil_iff_forall_not_mem]
  simp only [mem_candidates_iff, not_and, not_not]
  refine forall_congr' fun w => ?_
  have hmeta : w ∈ (s.refreshMetadata o).windowMetadata ↔ w ∈ s.windowMetadata := by
    rw [heq]
    exact hmem w
  have hspace : (s.refreshMetadata o).space = s.space := by rw [heq]
  rw [hmeta]
  constructor
  · exact fun h hw => h hw.2
  · intro h hw
    by_cases hin : w ∈ s.space.elements
    · exact h ⟨hin, hw⟩
    · exact .inl (hspace ▸ hin)

/-- The state with the live properties, marked dirty. -/
def live (s : MoonshineCompositor M) (o : Outside) : MoonshineCompositor M :=
  MoonshineCompositor.refreshMetadata { s with focusState := s.focusState.markDirty } o

/-- The special windows of the state in which the focus is chosen. -/
theorem special_evaluated_iff {d : Window} : (∀ r, r.special → reference (s.evaluated o) r ≠ some d) ↔
    ∀ flag ∈ specialFlags, ¬LastMax (opacityOf s) (hasFlag s flag) s.space.elements d := by
  have hmost (flag : WindowFlags → Bool) :
      MoonshineCompositor.mostOpaque (live s o) (live s o).space.elements flag = some d ↔
        LastMax (opacityOf s) (hasFlag s flag) s.space.elements d := by
    obtain ⟨md, heq, -⟩ := refreshMetadata_eq { s with focusState := s.focusState.markDirty } o
    have hspace : (live s o).space = s.space := by rw [live, heq]
    rw [hspace]
    exact mostOpaque_refreshMetadata { s with focusState := s.focusState.markDirty } o _ flag
  constructor
  · intro h flag hflag hlast
    simp only [specialFlags, List.mem_cons, List.not_mem_nil, or_false] at hflag
    rcases hflag with rfl | rfl | rfl
    · exact h .overlay rfl ((hmost _).mpr hlast)
    · exact h .notification rfl ((hmost _).mpr hlast)
    · exact h .externalOverlay rfl ((hmost _).mpr hlast)
  · intro h r hr hd
    match r, hr with
    | .overlay, _ => exact h (·.overlay) (by simp [specialFlags]) ((hmost _).mp hd)
    | .notification, _ => exact h (·.notification) (by simp [specialFlags]) ((hmost _).mp hd)
    | .externalOverlay, _ => exact h (·.externalOverlay) (by simp [specialFlags]) ((hmost _).mp hd)

theorem reevaluateFocus_of_target (h : (s.evaluated o).focusTarget o = some best) : ∃ f,
    s.reevaluateFocus o = MoonshineCompositor.applyFocus { s.evaluated o with focusState := f } o best := by
  unfold MoonshineCompositor.reevaluateFocus
  simp only [h]
  exact ⟨_, rfl⟩

theorem reevaluateFocus_of_none (h : (s.evaluated o).focusTarget o = none) :
    s.reevaluateFocus o = (s.evaluated o).clearFocus := by
  unfold MoonshineCompositor.reevaluateFocus
  simp only [h]

theorem focusSound_clearFocus_iff (hspecial : ∀ r, r.special → ∀ w, reference s r = some w → w ∈ registered s)
    (hdropdown : ∀ d, s.overrideWindow = some d → d ∈ registered s) :
    FocusSound s.clearFocus ↔ ∀ w, s.pointerFocusWindow = some w → w ∈ registered s := by
  refine ⟨fun h w hw => h .pointerFocus w hw, fun h r w hw => ?_⟩
  by_cases hr : r.special
  · have heq : reference s.clearFocus r = reference s r := by
      cases r <;> first | rfl | exact absurd hr (by decide)
    exact hspecial r hr w (heq.symm.trans hw)
  · match r, hr with
    | .focused, _ => exact nomatch (show none = some w from hw)
    | .override, _ => exact hdropdown w hw
    | .pointerFocus, _ => exact h w hw

theorem Base.reevaluateFocus_iff (h : Base s) {gone : Option Window}
    (hgone : ∀ w, s.pointerFocusWindow = some w → (w ∈ registered s ↔ gone ≠ some w)) :
    FocusSound (s.reevaluateFocus o) ↔ Settles s o gone := by
  have hspecial (r : Reference) (hr : r.special) (w : Window)
      (hw : reference (s.evaluated o) r = some w) : w ∈ registered (s.evaluated o) := by
    rw [registered_evaluated]
    exact (special_evaluated hr hw).1
  have hoverride : (s.evaluated o).overrideWindow = s.overrideWindow := reference_evaluated s o (r := .override) nofun
  have hdropdown (d : Window) (hd : (s.evaluated o).overrideWindow = some d) : d ∈ registered (s.evaluated o) := by
    rw [registered_evaluated]
    exact (h.dropdown d (hoverride.symm.trans hd)).1
  cases ht : (s.evaluated o).focusTarget o with
  | none =>
    have hpointer : (s.evaluated o).pointerFocusWindow = s.pointerFocusWindow :=
      reference_evaluated s o (r := .pointerFocus) nofun
    have hnot (best : Window) : ¬Chosen s o best := fun hbest => by
      rw [(focusTarget_evaluated_eq_some_iff s o).mpr hbest] at ht
      cases ht
    rw [reevaluateFocus_of_none ht, focusSound_clearFocus_iff hspecial hdropdown, hpointer, registered_evaluated]
    constructor
    · exact fun hsound => ⟨fun _ w hw => (hgone w hw).mp (hsound w hw),
        fun base w hbase hw => absurd ⟨base, hbase, .inl hw⟩ (hnot w), fun best hbest => absurd hbest (hnot best)⟩
    · exact fun hsettles w hw => (hgone w hw).mpr
        (hsettles.pointer (focusTarget_evaluated_eq_none_iff.mp ht) w hw)
  | some best =>
    have hchosen := (focusTarget_evaluated_eq_some_iff s o).mp ht
    have hmeta : best ∈ (s.evaluated o).windowMetadata := mem_metadata_of_focusTarget ht
    have hbest : best ∈ registered (s.evaluated o) ↔ best ∈ s.space.elements := by
      obtain ⟨-, -, hspace, -⟩ := live_evaluated s o
      rw [← hspace]
      exact and_iff_left hmeta
    have hcleared (d : Window) : d ∈ cleared (s.evaluated o) o best ↔
        s.focusChanged o best ∧ s.overrideWindow = some d := by
      rw [← focusChanged_evaluated s o o best, ← hoverride]
      rfl
    have hnone : ¬∀ w ∈ registered s, Barred (s.refreshMetadata o) w := fun hall => by
      rw [focusTarget_evaluated_eq_none_iff.mpr hall] at ht
      cases ht
    obtain ⟨f, hf⟩ := reevaluateFocus_of_target ht
    rw [hf]
    refine (focusSound_applyFocus_iff (s := { s.evaluated o with focusState := f }) hspecial hdropdown).trans ?_
    constructor
    · rintro ⟨hreg, hall⟩
      refine ⟨fun h => absurd h hnone, fun base w hbase hw => ?_, fun best' hbest' hc d hd => ?_⟩
      · obtain rfl := hchosen.unique ⟨base, hbase, .inl hw⟩
        exact hbest.mp hreg
      · obtain rfl := hchosen.unique hbest'
        obtain ⟨hne, hspecial⟩ := hall d ((hcleared d).mpr ⟨hc, hd⟩)
        exact ⟨hne, special_evaluated_iff.mp hspecial⟩
    · intro hsettles
      refine ⟨hbest.mpr ?_, fun d hd => ?_⟩
      · obtain ⟨base, hbase, hw | ⟨rfl, -⟩⟩ := hchosen
        · exact hsettles.child base best hbase hw
        · have hcand := mem_of_bestCandidate (bestCandidate_eq_some_iff.mpr hbase)
          obtain ⟨-, -, hspace, hcandidates, -⟩ := live_evaluated s o
          rw [← hcandidates] at hcand
          exact hspace ▸ (mem_candidates.mp hcand).1
      · obtain ⟨hc, hd⟩ := (hcleared d).mp hd
        obtain ⟨hne, hflags⟩ := hsettles.dropdown best hchosen hc d hd
        exact ⟨hne, special_evaluated_iff.mpr hflags⟩

end Moonshine.Proof.Compositor
