import Moonshine.Framework.Run
import Moonshine.Impl.Compositor.Handlers
import Moonshine.Proof.Compositor.Reevaluation

/-!
# Dangling references to windows

`Inv` says that no reference dangles, and what the handlers need for that: which
references an unmapped window can have without the focus being re-evaluated.
A handler that only adds to what is registered keeps it (`Inv.grow`); after a
removal the re-evaluation decides (`Base.reevaluateFocus_iff`).
-/

namespace Moonshine.Proof.Compositor

open Moonshine.Framework Moonshine.Impl.Compositor

variable {M : SpaceModel Window (Int × Int)} {s s' : MoonshineCompositor M} {o : Outside} {w best : Window}

/-! ## The invariant -/

structure Inv (s : MoonshineCompositor M) : Prop extends Base s where
  sound : FocusSound s
  focusedX11 : s.focusedX11Window = s.focusedWindow.bind Window.x11Surface
  special : ∀ r w, r.special → reference s r = some w → Flagged s w
  pointer : ∀ p, s.pointerFocusWindow = some p →
    s.focusedWindow = none ∨ s.focusedWindow = some p ∨ Flagged s p

theorem Inv.new (width height : Int) (currentMode : Option (Int × Int)) :
    Inv (.new width height currentMode : MoonshineCompositor M) where
  fresh := fun w hw => absurd hw (AList.notMem_empty w)
  dropdown := nofun
  sound := fun r w hw => by cases r <;> cases hw
  focusedX11 := rfl
  special := fun r w _ hw => by cases r <;> cases hw
  pointer := nofun

/-! ## After a re-evaluation -/

theorem Flagged.of_get? (h : Flagged s w) (hget : s'.windowMetadata.get? w = s.windowMetadata.get? w) :
    Flagged s' w := by
  obtain ⟨m, hm, hflags⟩ := h
  exact ⟨m, hget.trans hm, hflags⟩

theorem clearDropdowns_kept (s : MoonshineCompositor M) :
    s.clearDropdowns.nextWindow = s.nextWindow ∧
      s.clearDropdowns.focusedX11Window = s.focusedX11Window ∧
      ∀ w ∈ s.clearDropdowns.windowMetadata,
        s.clearDropdowns.windowMetadata.get? w = s.windowMetadata.get? w := by
  cases hd : s.overrideWindow with
  | none =>
    rw [clearDropdowns_none hd]
    exact ⟨rfl, rfl, fun _ _ => rfl⟩
  | some d =>
    obtain ⟨t, ht⟩ := clearDropdowns_eq s d hd
    rw [ht]
    refine ⟨rfl, rfl, fun w hw => ?_⟩
    rw [HashMap.get?_erase, if_neg (AList.mem_erase.mp hw).1]

theorem moveFocus_kept (s : MoonshineCompositor M) (o : Outside) (best : Window) :
    (s.moveFocus o best).nextWindow = s.nextWindow ∧
      (s.moveFocus o best).focusedX11Window = best.x11Surface ∧
      ∀ w ∈ (s.moveFocus o best).windowMetadata,
        (s.moveFocus o best).windowMetadata.get? w = s.windowMetadata.get? w := by
  unfold MoonshineCompositor.moveFocus
  by_cases h : s.focusChanged o best
  · simp only [h, if_true]
    exact clearDropdowns_kept _
  · simp [h]

/-- What an application of the focus leaves, where it leaves no reference dangling. -/
theorem Base.inv_applyFocus (h : Base s) (hspecial : ∀ r w, r.special → reference s r = some w → Flagged s w)
    (hsound : FocusSound (s.applyFocus o best)) : Inv (s.applyFocus o best) := by
  obtain ⟨hnext, hx11, hget⟩ := moveFocus_kept s o best
  have hflagged {w : Window} (hw : Flagged s w) (hreg : w ∈ registered (s.applyFocus o best)) :
      Flagged (s.applyFocus o best) w := hw.of_get? (hget w hreg.2)
  refine ⟨⟨fun w hw => ?_, fun d hd => ⟨hsound .override d hd, ?_⟩⟩, hsound, ?_, fun r w hr hw => ?_,
    fun p hp => ?_⟩
  · obtain ⟨m, hm⟩ := HashMap.mem_iff.mp hw
    show w.id < (s.moveFocus o best).nextWindow
    rw [hnext]
    exact h.fresh w (HashMap.mem_of_get? ((hget w hw).symm.trans hm))
  · have hover := (reference_moveFocus s o best .override).symm.trans hd
    by_cases hc : s.focusChanged o best
    · simp [hc] at hover
    · exact (h.dropdown d (by simpa [hc, reference] using hover)).2
  · have hfocused : (s.applyFocus o best).focusedWindow = some best := reference_moveFocus s o best .focused
    rw [hfocused]
    exact hx11
  · exact hflagged (hspecial r w hr ((reference_applyFocus_special s o best hr).symm.trans hw)) (hsound r w hw)
  · obtain ⟨p', hp', hcase⟩ := pointer_applyFocus s o best
    obtain rfl : p' = p := Option.some.inj (hp'.symm.trans hp)
    rcases hcase with rfl | hover
    · exact .inr (.inl (reference_moveFocus s o p' .focused))
    · exact .inr (.inr (hflagged (hspecial .overlay p' rfl hover) (hsound .pointerFocus p' hp)))

theorem Base.evaluated (h : Base s) (o : Outside) : Base (s.evaluated o) := by
  have hreg := registered_evaluated s o
  obtain ⟨md, f, r₁, r₂, r₃, heq, hmem⟩ := evaluated_eq s o
  rw [heq] at hreg ⊢
  refine ⟨fun w hw => h.fresh w ((hmem w).mp hw), fun d hd => ?_⟩
  rw [hreg]
  exact h.dropdown d hd

theorem Base.inv_reevaluateFocus (h : Base s) (hsound : FocusSound (s.reevaluateFocus o)) :
    Inv (s.reevaluateFocus o) := by
  have hbase := h.evaluated o
  have hspecial (r : Reference) (w : Window) (hr : r.special) (hw : reference (s.evaluated o) r = some w) :
      Flagged (s.evaluated o) w := (special_evaluated hr hw).2
  cases ht : (s.evaluated o).focusTarget o with
  | none =>
    rw [reevaluateFocus_of_none ht] at hsound ⊢
    refine ⟨⟨hbase.fresh, hbase.dropdown⟩, hsound, rfl, fun r w hr hw => ?_, fun _ _ => .inl rfl⟩
    have heq : reference (s.evaluated o).clearFocus r = reference (s.evaluated o) r := by
      cases r <;> first | rfl | exact absurd hr (by decide)
    exact hspecial r w hr (heq.symm.trans hw)
  | some best =>
    obtain ⟨f, hf⟩ := reevaluateFocus_of_target ht
    rw [hf] at hsound ⊢
    exact Base.inv_applyFocus (s := { s.evaluated o with focusState := f }) ⟨hbase.fresh, hbase.dropdown⟩
      hspecial hsound

/-! ## Handlers that only add windows -/

/-- What no reference depends on. -/
theorem Inv.other (h : Inv s) (m : Option (Int × Int)) (n : HashMap Window NativeWindowMapping) (d k : ℕ)
    (l : Option UInt32) (f : FocusState) (t : HashMap UInt32 (List Window)) (i : List UInt32) :
    Inv { s with
      currentMode := m
      nativeMapping := n
      damageSequenceCounter := d
      mapSequenceCounter := k
      lastKeyboardFocusWindow := l
      focusState := f
      transientChildren := t
      sysTrayIcons := i } :=
  ⟨⟨h.fresh, h.dropdown⟩, h.sound, h.focusedX11, h.special, h.pointer⟩

/-- More windows are registered, with the flags they had. -/
theorem Inv.grow (h : Inv s) (hrefs : reference s' = reference s)
    (hx11 : s'.focusedX11Window = s.focusedX11Window) (hreg : registered s ⊆ registered s')
    (hflagged : ∀ w, Flagged s w → Flagged s' w) (hfresh : ∀ w ∈ s'.windowMetadata, w.id < s'.nextWindow) :
    Inv s' := by
  have hfocused : s'.focusedWindow = s.focusedWindow := congrFun hrefs .focused
  refine ⟨⟨hfresh, fun d hd => ?_⟩, ?_, ?_, fun r w hr hw => ?_, fun p hp => ?_⟩
  · obtain ⟨hd, hx⟩ := h.dropdown d ((congrFun hrefs .override).symm.trans hd)
    exact ⟨hreg hd, hx⟩
  · exact NoDangling.mono h.sound hreg fun r w hw => (congrFun hrefs r) ▸ hw
  · rw [hx11, hfocused]
    exact h.focusedX11
  · exact hflagged w (h.special r w hr ((congrFun hrefs r).symm.trans hw))
  · rw [hfocused]
    exact (h.pointer p ((congrFun hrefs .pointerFocus).symm.trans hp)).imp_right (Or.imp_right (hflagged p))

theorem Inv.modifyMetadata (h : Inv s) (w : Window) {f : WindowMetadata → WindowMetadata}
    (hf : ∀ m, overlaid m.flags → overlaid (f m).flags) : Inv (s.modifyMetadata w f) := by
  refine h.grow rfl rfl (fun v hv => ⟨hv.1, (HashMap.mem_modify _ _ _ f).mpr hv.2⟩) (fun v hv => ?_)
    fun v hv => h.fresh v ((HashMap.mem_modify _ _ _ f).mp hv)
  obtain ⟨m, hm, hflags⟩ := hv
  have hget : (s.modifyMetadata w f).windowMetadata.get? v = _ := HashMap.get?_modify _ _ _ f
  by_cases hvw : v = w
  · exact ⟨f m, by rw [hget, if_pos hvw, hm]; rfl, hf m hflags⟩
  · exact ⟨m, by rw [hget, if_neg hvw, hm], hflags⟩

theorem Inv.mapElement (h : Inv s) (w : Window) (loc : Int × Int) : Inv (s.mapElement w loc) :=
  h.grow rfl rfl (fun _ hv => ⟨Space.mem_elements_mapElement.mpr (.inl hv.1), hv.2⟩) (fun _ hv => hv) h.fresh

theorem next_notMem (hfresh : ∀ w ∈ s.windowMetadata, w.id < s.nextWindow) (surface : WindowSurface) :
    (⟨s.nextWindow, surface⟩ : Window) ∉ s.windowMetadata := fun hmem =>
  absurd (hfresh _ hmem) (lt_irrefl s.nextWindow)

theorem fresh_register (hfresh : ∀ w ∈ s.windowMetadata, w.id < s.nextWindow) (surface : WindowSurface)
    (loc : Int × Int) (m : WindowMetadata) :
    ∀ w ∈ (s.register surface loc m).windowMetadata, w.id < (s.register surface loc m).nextWindow := by
  intro w hw
  rcases (AList.mem_insert _).mp hw with rfl | hw
  · exact Nat.lt_succ_self _
  · exact Nat.lt_succ_of_lt (hfresh w hw)

theorem Inv.register (h : Inv s) (surface : WindowSurface) (loc : Int × Int) (m : WindowMetadata) :
    Inv (s.register surface loc m) := by
  have hnew := next_notMem h.fresh surface
  refine h.grow rfl rfl (fun v hv => ⟨Space.mem_elements_mapElement.mpr (.inl hv.1),
    (AList.mem_insert _).mpr (.inr hv.2)⟩) (fun v hv => hv.of_get? ?_) (fresh_register h.fresh surface loc m)
  have hne : v ≠ ⟨s.nextWindow, surface⟩ := fun heq => hnew (heq ▸ hv.mem)
  exact (HashMap.get?_insert _ _ _ m).trans (if_neg hne)

theorem mem_registered_register (s : MoonshineCompositor M) (surface : WindowSurface) (loc : Int × Int)
    (m : WindowMetadata) : ⟨s.nextWindow, surface⟩ ∈ registered (s.register surface loc m) :=
  ⟨Space.mem_elements_mapElement.mpr (.inr rfl), (AList.mem_insert _).mpr (.inl rfl)⟩

theorem Inv.forgetChild (h : Inv s) (p : Option UInt32) (w : Window) : Inv (s.forgetChild p w) := by
  obtain ⟨t, ht⟩ := forgetChild_eq s p w
  rw [ht]
  exact h.other ..

theorem adoptChild_eq (s : MoonshineCompositor M) (p : Option UInt32) (w : Window) :
    ∃ t, s.adoptChild p w = { s with transientChildren := t } := by
  cases p with
  | none => exact ⟨_, rfl⟩
  | some p => exact ⟨_, rfl⟩

theorem Inv.adoptChild (h : Inv s) (p : Option UInt32) (w : Window) : Inv (s.adoptChild p w) := by
  obtain ⟨t, ht⟩ := adoptChild_eq s p w
  rw [ht]
  exact h.other ..

theorem Inv.classify (h : Inv s) : Inv (s.classifySpecialWindows s.space.elements) := by
  have hspecial (r : Reference) (w : Window) (hr : r.special)
      (hw : reference (s.classifySpecialWindows s.space.elements) r = some w) := special_classified hr hw
  refine ⟨⟨h.fresh, h.dropdown⟩, fun r w hw => ?_, h.focusedX11, fun r w hr hw => (hspecial r w hr hw).2, h.pointer⟩
  by_cases hr : r.special
  · exact ⟨(hspecial r w hr hw).1, (hspecial r w hr hw).2.mem⟩
  · refine h.sound r w ?_
    cases r <;> first | exact hw | exact absurd rfl hr

theorem Inv.notifyDropdown (h : Inv s) (hw : w ∈ registered s) (hx : w.x11Surface.isSome) :
    Inv (s.notifyDropdown w) := by
  unfold MoonshineCompositor.notifyDropdown
  split
  · exact h
  · refine ⟨⟨h.fresh, fun d hd => ?_⟩, fun r v hv => ?_, h.focusedX11, fun r v hr hv => ?_, h.pointer⟩
    · obtain rfl : w = d := Option.some.inj hd
      exact ⟨hw, hx⟩
    · by_cases hr : r = .override
      · subst r
        obtain rfl : w = v := Option.some.inj hv
        exact hw
      · refine h.sound r v ?_
        cases r <;> first | exact hv | exact absurd rfl hr
    · refine h.special r v hr ?_
      cases r <;> first | exact hv | exact absurd hr (by decide)

theorem Inv.countDamage (h : Inv s) (w : Window) : Inv (s.countDamage w) := by
  unfold MoonshineCompositor.countDamage
  split
  · exact (h.modifyMetadata w (f := fun m => { m with damageSequence := s.damageSequenceCounter + 1 })
      fun _ hf => hf).other ..
  · exact h

theorem Inv.commit (h : Inv s) (surface : Surface) (mapped : Bool) : Inv (s.commit surface mapped).state := by
  unfold MoonshineCompositor.commit
  split
  · exact Inv.countDamage (h.other ..) _
  · exact h

theorem Inv.newToplevel (h : Inv s) (surface : Surface) (appId : UInt32) (fullscreen : Bool) :
    Inv (s.newToplevel surface appId fullscreen).state := Inv.register (h.other ..) _ _ _

theorem Inv.setFullscreen (h : Inv s) (surface : Surface) (fullscreen : Bool) :
    Inv (s.setFullscreen surface fullscreen).state := by
  unfold MoonshineCompositor.setFullscreen
  split
  · exact h.modifyMetadata _ fun _ hf => hf
  · exact h

theorem Inv.appIdChanged (h : Inv s) (surface : Surface) (appId : Option UInt32) :
    Inv (s.appIdChanged surface appId).state := by
  unfold MoonshineCompositor.appIdChanged
  split
  · exact h.modifyMetadata _ fun _ hf => hf
  · exact h
  · exact h

theorem Inv.reparent (h : Inv s) (w : Window) (old new : WindowMetadata) : Inv (s.reparent w old new) := by
  refine Inv.adoptChild (Inv.forgetChild (h.modifyMetadata w ?_) _ _) _ _
  exact fun _ hf => hf

theorem Inv.propertyNotify (h : Inv s) (o : Outside) (window : X11Surface) (property : WmWindowProperty) :
    Inv (s.propertyNotify o window property).state := by
  unfold MoonshineCompositor.propertyNotify
  split
  · exact h
  · split
    · dsimp only
      split
      · exact h.modifyMetadata _ fun _ hf => hf
      · exact h.reparent _ _ _
      · exact h.modifyMetadata _ fun _ hf => hf
      · exact h
      · exact h
      · exact h
    · exact h

theorem Inv.mapWindowRequest (h : Inv s) (o : Outside) (window : X11Surface) (granted : Bool) :
    Inv (s.mapWindowRequest o window granted).state := by
  unfold MoonshineCompositor.mapWindowRequest
  split
  · exact (Inv.register (h.other ..) _ _ _).adoptChild _ _
  · exact h

theorem Inv.mappedOverrideRedirectWindow (h : Inv s) (o : Outside) (window : X11Surface) :
    Inv (s.mappedOverrideRedirectWindow o window).state := by
  unfold MoonshineCompositor.mappedOverrideRedirectWindow
  have hadopted := (h.register (.x11 window.windowId) (window.geometry.x, window.geometry.y)
    (s.x11SurfaceMetadata o window)).adoptChild (s.x11SurfaceMetadata o window).transientFor
      ⟨s.nextWindow, .x11 window.windowId⟩
  dsimp only
  split
  · split
    · refine hadopted.classify.notifyDropdown ?_ rfl
      obtain ⟨t, ht⟩ := adoptChild_eq (s.register (.x11 window.windowId) (window.geometry.x, window.geometry.y)
        (s.x11SurfaceMetadata o window)) (s.x11SurfaceMetadata o window).transientFor
          ⟨s.nextWindow, .x11 window.windowId⟩
      rw [ht]
      exact mem_registered_register s _ _ _
    · exact hadopted
  · exact hadopted

/-- A resized window may change between overlay and notification. -/
theorem overlaid_reclassify (f : WindowFlags) (v : UInt32) (geometry : Rectangle) :
    overlaid f → overlaid (MoonshineCompositor.reclassify f v geometry) := by
  intro h
  unfold MoonshineCompositor.reclassify
  split
  · by_cases hw : geometry.w > 1200
    · simp [overlaid, hw]
    · simp [overlaid, hw]
  · exact h

theorem Inv.configureNotify (h : Inv s) (o : Outside) (window : X11Surface) (geometry : Rectangle) :
    Inv (s.configureNotify o window geometry).state := by
  unfold MoonshineCompositor.configureNotify
  split
  · rename_i elem _
    exact ((h.mapElement elem (geometry.x, geometry.y)).modifyMetadata elem fun m =>
      overlaid_reclassify m.flags _ geometry).other ..
  · exact h

theorem Inv.setX11Fullscreen (h : Inv s) (window : X11Surface) (fullscreen granted : Bool) :
    Inv (s.setX11Fullscreen window fullscreen granted).state := by
  unfold MoonshineCompositor.setX11Fullscreen
  split
  · split
    · exact h.modifyMetadata _ fun _ hf => hf
    · exact h
  · exact h

/-! ## Handlers that remove windows -/

/-- Whether a request has windows removed. -/
def removes : Request → Bool
  | .toplevelDestroyed _ => true
  | .unmappedWindow _ => true
  | .destroyedWindow _ => true
  | .refreshPopups _ => true
  | .commit _ _ => false
  | .newToplevel _ _ _ => false
  | .fullscreenRequest _ => false
  | .unfullscreenRequest _ => false
  | .appIdChanged _ _ => false
  | .propertyNotify _ _ => false
  | .activeWindowRequest _ => false
  | .mapWindowRequest _ _ => false
  | .mappedOverrideRedirectWindow _ => false
  | .configureNotify _ _ => false
  | .x11FullscreenRequest _ _ => false
  | .x11UnfullscreenRequest _ _ => false

theorem Inv.handle (h : Inv s) (o : Outside) (r : Request) (hr : ¬ removes r) : Inv (s.handle o r).state := by
  cases r with
  | commit surface mapped => exact h.commit surface mapped
  | newToplevel surface appId fullscreen => exact h.newToplevel surface appId fullscreen
  | toplevelDestroyed surface => exact absurd rfl hr
  | fullscreenRequest surface => exact h.setFullscreen surface true
  | unfullscreenRequest surface => exact h.setFullscreen surface false
  | appIdChanged surface appId => exact h.appIdChanged surface appId
  | propertyNotify window property => exact h.propertyNotify o window property
  | activeWindowRequest window => exact h.other ..
  | mapWindowRequest window granted => exact h.mapWindowRequest o window granted
  | mappedOverrideRedirectWindow window => exact h.mappedOverrideRedirectWindow o window
  | unmappedWindow window => exact absurd rfl hr
  | destroyedWindow window => exact absurd rfl hr
  | configureNotify window geometry => exact h.configureNotify o window geometry
  | x11FullscreenRequest window granted => exact h.setX11Fullscreen window true granted
  | x11UnfullscreenRequest window granted => exact h.setX11Fullscreen window false granted
  | refreshPopups alive => exact absurd rfl hr

/-- A handler drops windows, and references to them. -/
theorem Inv.shrink (h : Inv s) (hfocused : s'.focusedWindow = s.focusedWindow)
    (hx11 : s'.focusedX11Window = s.focusedX11Window) (hnext : s'.nextWindow = s.nextWindow)
    (hrefs : ∀ r, ∀ w ∈ reference s' r, w ∈ reference s r)
    (hget : ∀ w ∈ s'.windowMetadata, s'.windowMetadata.get? w = s.windowMetadata.get? w)
    (hsound : FocusSound s') : Inv s' := by
  refine ⟨⟨fun w hw => ?_, fun d hd => ⟨hsound .override d hd, (h.dropdown d (hrefs .override d hd)).2⟩⟩, hsound,
    ?_, fun r w hr hw => ?_, fun p hp => ?_⟩
  · obtain ⟨m, hm⟩ := HashMap.mem_iff.mp hw
    rw [hnext]
    exact h.fresh w (HashMap.mem_of_get? ((hget w hw).symm.trans hm))
  · rw [hx11, hfocused]
    exact h.focusedX11
  · exact (h.special r w hr (hrefs r w hw)).of_get? (hget w (hsound r w hw).2)
  · rw [hfocused]
    exact (h.pointer p (hrefs .pointerFocus p hp)).imp_right
      (Or.imp_right fun hf => hf.of_get? (hget p (hsound .pointerFocus p hp).2))

theorem Base.remove (h : Base s) (hne : s.overrideWindow ≠ some w) :
    Base ((s.unregisterWindow w).unmapElem w) := by
  obtain ⟨t, ht⟩ := unregisterWindow_eq s w
  rw [ht]
  refine ⟨fun v hv => h.fresh v (AList.mem_erase.mp hv).2, fun d hd => ?_⟩
  obtain ⟨hreg, hx⟩ := h.dropdown d hd
  have hdw : d ≠ w := fun heq => hne (heq ▸ hd)
  exact ⟨(registered_unmapped s w).symm.subset ⟨hreg, hdw⟩, hx⟩

theorem toplevel_of_findWindowBySurface {surface : Surface} (h : s.findWindowBySurface surface = some w) :
    w.toplevel = some surface := by
  simpa using List.find?_some h

theorem x11Surface_of_findWindowByX11Surface {windowId : UInt32}
    (h : s.findWindowByX11Surface windowId = some w) : w.x11Surface = some windowId := by
  simpa using List.find?_some h

theorem Inv.toplevelDestroyed (h : Inv s) (surface : Surface) : Base (s.toplevelDestroyed surface).state := by
  unfold MoonshineCompositor.toplevelDestroyed
  split
  · rename_i window hw
    refine h.toBase.remove fun hd => ?_
    have hx := (h.dropdown window hd).2
    have htop := toplevel_of_findWindowBySurface hw
    cases hsurf : window.underlyingSurface with
    | wayland t => simp [Window.x11Surface, hsurf] at hx
    | x11 id => simp [Window.toplevel, hsurf] at htop
  · exact h.toBase

theorem dropWindow_eq (s : MoonshineCompositor M) (w : Window) : ∃ (f : FocusState) (sp : _) (t : _) (md : _),
    s.dropWindow w = { s with
      overrideWindow := if s.overrideWindow = some w then none else s.overrideWindow
      focusState := f
      space := sp
      transientChildren := t
      windowMetadata := md } ∧
    (∀ v, v ∈ sp.elements ↔ v ∈ s.space.elements ∧ v ≠ w) ∧
    ∀ v, md.get? v = if v = w then none else s.windowMetadata.get? v := by
  obtain ⟨t, ht⟩ := unregisterWindow_eq s w
  unfold MoonshineCompositor.dropWindow
  rw [ht]
  by_cases hd : s.overrideWindow = some w
  · obtain ⟨t', ht'⟩ := clearDropdowns_eq (MoonshineCompositor.unmapElem
      { s with transientChildren := t, windowMetadata := s.windowMetadata.erase w } w) w hd
    refine ⟨s.focusState.markDirty, (s.space.unmapElem w).unmapElem w, t', (s.windowMetadata.erase w).erase w,
      ?_, fun v => ?_, fun v => ?_⟩
    · refine (if_pos hd).trans (ht'.trans ?_)
      rw [if_pos hd]
      rfl
    · rw [Space.mem_elements_unmapElem, Space.mem_elements_unmapElem, and_assoc, and_self_iff]
    · rw [HashMap.get?_erase, HashMap.get?_erase]
      split <;> rfl
  · refine ⟨s.focusState, s.space.unmapElem w, t, s.windowMetadata.erase w, ?_,
      fun v => Space.mem_elements_unmapElem, fun v => HashMap.get?_erase _ _ _⟩
    refine (if_neg hd).trans ?_
    rw [if_neg hd]
    rfl

theorem Base.dropWindow (h : Base s) (w : Window) : Base (s.dropWindow w) := by
  obtain ⟨f, sp, t, md, heq, hspace, hget⟩ := dropWindow_eq s w
  have hmem (v : Window) : v ∈ md ↔ v ∈ s.windowMetadata ∧ v ≠ w := by
    rw [HashMap.mem_iff, HashMap.mem_iff, hget]
    by_cases hv : v = w
    · simp [hv]
    · simp [hv]
  rw [heq]
  refine ⟨fun v hv => h.fresh v ((hmem v).mp hv).1, fun d hd => ?_⟩
  by_cases hw : s.overrideWindow = some w
  · rw [if_pos hw] at hd
    contradiction
  · rw [if_neg hw] at hd
    have hne : d ≠ w := fun heq => hw (heq ▸ hd)
    obtain ⟨hreg, hx⟩ := h.dropdown d hd
    exact ⟨⟨(hspace d).mpr ⟨hreg.1, hne⟩, (hmem d).mpr ⟨hreg.2, hne⟩⟩, hx⟩

/-- A window is dropped to which no other reference is than that to the dropdown. -/
theorem Inv.dropWindow (h : Inv s) (hw : ∀ r, r ≠ .override → reference s r ≠ some w) : Inv (s.dropWindow w) := by
  obtain ⟨f, sp, t, md, heq, hspace, hget⟩ := dropWindow_eq s w
  have hrefs (r : Reference) (v : Window) (hv : v ∈ reference (s.dropWindow w) r) :
      v ∈ reference s r ∧ v ≠ w := by
    rw [heq] at hv
    by_cases hr : r = .override
    · subst r
      by_cases hd : s.overrideWindow = some w
      · have hv : (if s.overrideWindow = some w then none else s.overrideWindow) = some v := hv
        rw [if_pos hd] at hv
        contradiction
      · have hv : (if s.overrideWindow = some w then none else s.overrideWindow) = some v := hv
        rw [if_neg hd] at hv
        exact ⟨hv, fun heq => hd (heq ▸ hv)⟩
    · have hv : v ∈ reference s r := by
        cases r <;> first | exact hv | exact absurd rfl hr
      exact ⟨hv, fun heq => hw r hr (heq ▸ hv)⟩
  refine h.shrink (by rw [heq]) (by rw [heq]) (by rw [heq]) (fun r v hv => (hrefs r v hv).1) (fun v hv => ?_)
    fun r v hv => ?_
  · rw [heq] at hv ⊢
    obtain ⟨m, hm⟩ := HashMap.mem_iff.mp hv
    have hne : v ≠ w := by
      rintro rfl
      rw [hget, if_pos rfl] at hm
      contradiction
    rw [hget, if_neg hne]
  · obtain ⟨hv, hne⟩ := hrefs r v hv
    have hreg := h.sound r v hv
    rw [heq]
    refine ⟨(hspace v).mpr ⟨hreg.1, hne⟩, HashMap.mem_iff.mpr ?_⟩
    rw [hget, if_neg hne]
    exact HashMap.mem_iff.mp hreg.2

theorem special_of_overlaid {f : WindowFlags} (h : overlaid f) : MoonshineCompositor.isSpecial f := by
  simp only [overlaid, Bool.or_eq_true] at h
  simp only [MoonshineCompositor.isSpecial, Bool.or_eq_true]
  tauto

/-- An unmapped window is either not referred to, or the focus is re-evaluated. -/
theorem Inv.unmappedWindow (h : Inv s) (window : X11Surface) : Base (s.unmappedWindow window).state ∧
    (¬ (s.unmappedWindow window).reevaluates → Inv (s.unmappedWindow window).state) := by
  unfold MoonshineCompositor.unmappedWindow
  have hother : Inv { s with sysTrayIcons := s.sysTrayIcons.filter (· ≠ window.windowId) } := h.other ..
  dsimp only
  cases hmaybe : s.findWindowByX11Surface window.windowId with
  | none =>
    dsimp only
    split
    · exact ⟨⟨h.fresh, h.dropdown⟩, fun hn => absurd rfl hn⟩
    · exact ⟨⟨h.fresh, h.dropdown⟩, fun _ => hother⟩
  | some elem =>
    have hx := x11Surface_of_findWindowByX11Surface hmaybe
    dsimp only
    split
    · have hbase := hother.toBase.dropWindow elem
      exact ⟨⟨hbase.fresh, hbase.dropdown⟩, fun hn => absurd rfl hn⟩
    · rename_i hnot
      refine ⟨hother.toBase.dropWindow elem, fun hn => hother.dropWindow fun r hr hw => ?_⟩
      obtain ⟨hfocus, hspecial⟩ := not_or.mp fun hor => hn (Bool.or_eq_true_iff.mpr hor)
      have hfocused : s.focusedWindow ≠ some elem := fun hf => by
        have := h.focusedX11
        rw [hf, Option.bind_some, hx] at this
        simp [this] at hnot
      have hflagged : ¬ Flagged s elem := fun hf => by
        obtain ⟨m, hm, hflags⟩ := hf
        refine hspecial ?_
        rw [Option.bind_some, hm, Option.any_some]
        exact special_of_overlaid hflags
      cases r with
      | focused => exact hfocused hw
      | override => exact hr rfl
      | overlay => exact hflagged (h.special .overlay elem rfl hw)
      | notification => exact hflagged (h.special .notification elem rfl hw)
      | externalOverlay => exact hflagged (h.special .externalOverlay elem rfl hw)
      | pointerFocus =>
        rcases h.pointer elem hw with hf | hf | hf
        · refine hfocus ?_
          obtain ⟨f, sp, t, md, heq, -, -⟩ := dropWindow_eq
            { s with sysTrayIcons := s.sysTrayIcons.filter (· ≠ window.windowId) } elem
          rw [heq]
          show s.focusedX11Window.isNone
          rw [h.focusedX11, hf]
          rfl
        · exact hfocused hf
        · exact hflagged hf

/-- What a destroyed window is, in the space until the next refresh but without an
entry in the metadata. -/
theorem destroyedWindow_eq (s : MoonshineCompositor M) (window : X11Surface) : ∃ i t md,
    s.destroyedWindow window = ⟨{ s with sysTrayIcons := i, transientChildren := t, windowMetadata := md }, false⟩ ∧
      ∀ v, md.get? v = if s.findWindowByX11Surface window.windowId = some v then none else s.windowMetadata.get? v := by
  have hfind (i : List UInt32) : MoonshineCompositor.findWindowByX11Surface { s with sysTrayIcons := i }
      window.windowId = s.findWindowByX11Surface window.windowId := rfl
  unfold MoonshineCompositor.destroyedWindow
  simp only [hfind]
  cases s.findWindowByX11Surface window.windowId with
  | none => exact ⟨_, _, _, rfl, fun v => rfl⟩
  | some elem =>
    obtain ⟨t, ht⟩ := unregisterWindow_eq
      { s with sysTrayIcons := s.sysTrayIcons.filter (· ≠ window.windowId) } elem
    refine ⟨_, t, _, by simp only [ht]; rfl, fun v => ?_⟩
    rw [HashMap.get?_erase]
    simp [eq_comm]

/-- What leaves the registry is what no reference may be to. -/
theorem Inv.focusSound_removed (h : Inv s) {gone : Set Window} (hrefs : ∀ r, reference s' r = reference s r)
    (hreg : registered s' = registered s \ gone) :
    FocusSound s' ↔ ∀ r w, reference s r = some w → w ∉ gone := by
  have hrefs : reference s' = reference s := funext hrefs
  rw [FocusSound, hrefs, hreg, noDangling_sdiff_iff]
  exact and_iff_right h.sound

/-- A destroyed window leaves the metadata. -/
theorem Inv.destroyedWindow (h : Inv s) (window : X11Surface) :
    (FocusSound (s.destroyedWindow window).state ↔
      ∀ r w, reference s r = some w → s.findWindowByX11Surface window.windowId ≠ some w) ∧
    (FocusSound (s.destroyedWindow window).state → Inv (s.destroyedWindow window).state) := by
  obtain ⟨i, t, md, heq, hget⟩ := destroyedWindow_eq s window
  have hmem (v : Window) : v ∈ md ↔ v ∈ s.windowMetadata ∧ s.findWindowByX11Surface window.windowId ≠ some v := by
    rw [HashMap.mem_iff, HashMap.mem_iff, hget]
    by_cases hv : s.findWindowByX11Surface window.windowId = some v
    · simp [hv]
    · simp [hv]
  have hrefs (r : Reference) : reference (s.destroyedWindow window).state r = reference s r := by
    rw [heq]
    cases r <;> rfl
  have hreg : registered (s.destroyedWindow window).state =
      registered s \ {v | s.findWindowByX11Surface window.windowId = some v} := by
    rw [heq]
    ext v
    exact (and_congr_right fun _ => hmem v).trans and_assoc.symm
  refine ⟨h.focusSound_removed hrefs hreg, fun hs => ?_⟩
  refine h.shrink (by rw [heq]) (by rw [heq]) (by rw [heq]) (fun r w hw => (hrefs r) ▸ hw) (fun v hv => ?_) hs
  rw [heq] at hv ⊢
  rw [hget, if_neg ((hmem v).mp hv).2]

/-- A refresh takes windows out of the space. -/
theorem Inv.refreshPopups (h : Inv s) (alive : Window → Bool) :
    (FocusSound (s.refreshPopups alive).state ↔ ∀ r w, reference s r = some w → alive w) ∧
    (FocusSound (s.refreshPopups alive).state → Inv (s.refreshPopups alive).state) := by
  have hrefs (r : Reference) : reference (s.refreshPopups alive).state r = reference s r := by
    cases r <;> rfl
  have hreg : registered (s.refreshPopups alive).state = registered s \ {w | ¬ alive w} := by
    ext w
    show w ∈ (s.space.refresh alive).elements ∧ w ∈ s.windowMetadata ↔ w ∈ registered s ∧ ¬ ¬ alive w
    rw [Space.mem_elements_refresh, not_not, registered, Set.mem_ofPred_eq, and_right_comm]
  refine ⟨(h.focusSound_removed hrefs hreg).trans ?_, fun hs => ?_⟩
  · simp only [Set.mem_ofPred_eq, not_not]
  · exact h.shrink rfl rfl rfl (fun r w hw => (hrefs r) ▸ hw) (fun _ _ => rfl) hs

/-! ## Runs -/

/-- What a request that removes windows without a re-evaluation may not touch. -/
def SparesReferences (s : MoonshineCompositor M) : Request → Prop
  | .destroyedWindow window =>
    ∀ r w, reference s r = some w → s.findWindowByX11Surface window.windowId ≠ some w
  | .refreshPopups alive => ∀ r w, reference s r = some w → alive w
  | _ => True

/-- The window that a request removes before the focus is re-evaluated. -/
def removed (s : MoonshineCompositor M) : Request → Option Window
  | .toplevelDestroyed surface => s.findWindowBySurface surface
  | .unmappedWindow window => s.findWindowByX11Surface window.windowId
  | _ => none

/-- The event removes no window that is referred to without a re-evaluation, and
the re-evaluation that it makes settles. -/
def LeavesSound (s : MoonshineCompositor M) (e : Event) : Prop :=
  SparesReferences s e.request ∧ ((s.handle e.outside e.request).reevaluates →
    Settles (s.handle e.outside e.request).state e.later (removed s e.request))

/-- The pointer focus is registered after a removal unless it is what was removed. -/
theorem Inv.pointer_of_removal (h : Inv s) {gone : Option Window}
    (hpointer : s'.pointerFocusWindow = s.pointerFocusWindow)
    (hreg : registered s' = registered s \ {w | gone = some w}) (hw : s'.pointerFocusWindow = some w) :
    w ∈ registered s' ↔ gone ≠ some w := by
  rw [hreg]
  exact and_iff_right (h.sound .pointerFocus w (hpointer.symm.trans hw))

theorem Inv.pointer_toplevelDestroyed (h : Inv s) (surface : Surface)
    (hw : (s.toplevelDestroyed surface).state.pointerFocusWindow = some w) :
    w ∈ registered (s.toplevelDestroyed surface).state ↔ s.findWindowBySurface surface ≠ some w := by
  unfold MoonshineCompositor.toplevelDestroyed at hw ⊢
  cases hfind : s.findWindowBySurface surface with
  | none =>
    simp only [hfind] at hw ⊢
    exact iff_of_true (h.sound .pointerFocus w hw) (Option.some_ne_none w).symm
  | some window =>
    simp only [hfind] at hw ⊢
    obtain ⟨t, ht⟩ := unregisterWindow_eq s window
    rw [ht] at hw ⊢
    refine h.pointer_of_removal rfl ?_ hw
    have hset : {w | some window = some w} = {window} := by
      ext v
      simp [eq_comm]
    rw [hset]
    exact registered_unmapped s window

theorem Inv.pointer_dropWindow (h : Inv s) (i : List UInt32) (elem : Window)
    (hw : (MoonshineCompositor.dropWindow { s with sysTrayIcons := i } elem).pointerFocusWindow = some w) :
    w ∈ registered (MoonshineCompositor.dropWindow { s with sysTrayIcons := i } elem) ↔ some elem ≠ some w := by
  obtain ⟨f, sp, t, md, heq, hspace, hget⟩ := dropWindow_eq { s with sysTrayIcons := i } elem
  rw [heq] at hw ⊢
  refine h.pointer_of_removal rfl ?_ hw
  ext v
  have hmem : v ∈ md ↔ v ∈ s.windowMetadata ∧ v ≠ elem := by
    rw [HashMap.mem_iff, HashMap.mem_iff, hget]
    by_cases hv : v = elem <;> simp [hv]
  show v ∈ sp.elements ∧ v ∈ md ↔ v ∈ registered s ∧ some elem ≠ some v
  have hne : some elem ≠ some v ↔ v ≠ elem := not_congr (Option.some_inj.trans eq_comm)
  rw [hspace, hmem, hne]
  constructor
  · rintro ⟨⟨hs, hne⟩, hm, -⟩
    exact ⟨⟨hs, hm⟩, hne⟩
  · rintro ⟨⟨hs, hm⟩, hne⟩
    exact ⟨⟨hs, hne⟩, hm, hne⟩

theorem Inv.pointer_unmappedWindow (h : Inv s) (window : X11Surface)
    (hw : (s.unmappedWindow window).state.pointerFocusWindow = some w) :
    w ∈ registered (s.unmappedWindow window).state ↔ s.findWindowByX11Surface window.windowId ≠ some w := by
  unfold MoonshineCompositor.unmappedWindow at hw ⊢
  cases hfind : s.findWindowByX11Surface window.windowId with
  | none =>
    simp only [hfind] at hw ⊢
    split at hw <;> split <;> exact iff_of_true (h.sound .pointerFocus w hw) (Option.some_ne_none w).symm
  | some elem =>
    simp only [hfind] at hw ⊢
    split at hw <;> split <;> exact h.pointer_dropWindow _ elem hw

theorem sparesReferences_of_not_removes {r : Request} (hr : ¬ removes r) : SparesReferences s r := by
  cases r <;> first | exact trivial | exact absurd rfl hr

theorem removed_of_not_removes {r : Request} (hr : ¬ removes r) : removed s r = none := by
  cases r <;> first | rfl | exact absurd rfl hr

/-- A handler that re-evaluates the focus. -/
theorem Base.react (e : Event) (hbase : Base (s.handle e.outside e.request).state)
    (hpointer : ∀ w, (s.handle e.outside e.request).state.pointerFocusWindow = some w →
      (w ∈ registered (s.handle e.outside e.request).state ↔ removed s e.request ≠ some w))
    (hspares : SparesReferences s e.request) (hr : (s.handle e.outside e.request).reevaluates) :
    (FocusSound (s.react e) ↔ LeavesSound s e) ∧ (FocusSound (s.react e) → Inv (s.react e)) := by
  unfold MoonshineCompositor.react LeavesSound
  simp only [hr, if_true, hspares, true_and, true_imp_iff]
  exact ⟨hbase.reevaluateFocus_iff hpointer, hbase.inv_reevaluateFocus⟩

/-- A handler that does not, and that may only be wrong in what it removes. -/
theorem Inv.react_of_not (e : Event) (hr : ¬ (s.handle e.outside e.request).reevaluates)
    (h : (FocusSound (s.handle e.outside e.request).state ↔ SparesReferences s e.request) ∧
      (FocusSound (s.handle e.outside e.request).state → Inv (s.handle e.outside e.request).state)) :
    (FocusSound (s.react e) ↔ LeavesSound s e) ∧ (FocusSound (s.react e) → Inv (s.react e)) := by
  have hreact : s.react e = (s.handle e.outside e.request).state := if_neg hr
  have hleaves : LeavesSound s e ↔ SparesReferences s e.request := and_iff_left fun h => absurd h hr
  rw [hreact, hleaves]
  exact h

theorem Inv.react_unmappedWindow (h : Inv s) (e : Event) {window : X11Surface}
    (he : e.request = .unmappedWindow window) :
    (FocusSound (s.react e) ↔ LeavesSound s e) ∧ (FocusSound (s.react e) → Inv (s.react e)) := by
  have hspares : SparesReferences s e.request := he ▸ trivial
  have hhandle : s.handle e.outside e.request = s.unmappedWindow window := by rw [he]; rfl
  obtain ⟨hbase, hinv⟩ := h.unmappedWindow window
  rw [← hhandle] at hbase hinv
  by_cases hr : (s.handle e.outside e.request).reevaluates
  · refine Base.react e hbase (fun w hw => ?_) hspares hr
    rw [hhandle] at hw ⊢
    rw [he]
    exact h.pointer_unmappedWindow window hw
  · exact Inv.react_of_not e hr ⟨iff_of_true (hinv hr).sound hspares, fun _ => hinv hr⟩

theorem toplevelDestroyed_reevaluates (s : MoonshineCompositor M) (surface : Surface) :
    (s.toplevelDestroyed surface).reevaluates := by
  unfold MoonshineCompositor.toplevelDestroyed
  split <;> rfl

theorem destroyedWindow_not_reevaluates (s : MoonshineCompositor M) (window : X11Surface) :
    ¬ (s.destroyedWindow window).reevaluates := by
  obtain ⟨i, t, md, hd, -⟩ := destroyedWindow_eq s window
  rw [hd]
  exact Bool.false_ne_true

/-- What one event does: references stay sound exactly if it leaves them so, and
then the invariant holds again. -/
theorem Inv.react (h : Inv s) (e : Event) :
    (FocusSound (s.react e) ↔ LeavesSound s e) ∧ (FocusSound (s.react e) → Inv (s.react e)) := by
  by_cases hrem : removes e.request
  · cases he : e.request with
    | toplevelDestroyed surface =>
      have hhandle : s.handle e.outside e.request = s.toplevelDestroyed surface := by rw [he]; rfl
      refine Base.react e (hhandle ▸ h.toplevelDestroyed surface) (fun w hw => ?_) (he ▸ trivial)
        (hhandle ▸ toplevelDestroyed_reevaluates s surface)
      rw [hhandle] at hw ⊢
      rw [he]
      exact h.pointer_toplevelDestroyed surface hw
    | unmappedWindow window => exact h.react_unmappedWindow e he
    | destroyedWindow window =>
      have hhandle : s.handle e.outside e.request = s.destroyedWindow window := by rw [he]; rfl
      refine Inv.react_of_not e (hhandle ▸ destroyedWindow_not_reevaluates s window) ?_
      rw [hhandle, he]
      exact h.destroyedWindow window
    | refreshPopups alive =>
      have hhandle : s.handle e.outside e.request = s.refreshPopups alive := by rw [he]; rfl
      refine Inv.react_of_not e (hhandle ▸ Bool.false_ne_true) ?_
      rw [hhandle, he]
      exact h.refreshPopups alive
    | _ => simp [he, removes] at hrem
  · have hinv := h.handle e.outside e.request hrem
    have hspares := sparesReferences_of_not_removes (s := s) hrem
    by_cases hr : (s.handle e.outside e.request).reevaluates
    · have hremoved : removed s e.request = none := removed_of_not_removes hrem
      refine Base.react e hinv.toBase (fun w hw => ?_) hspares hr
      rw [hremoved]
      exact iff_of_true (hinv.sound .pointerFocus w hw) (Option.some_ne_none w).symm
    · exact Inv.react_of_not e hr ⟨iff_of_true hinv.sound hspares, fun _ => hinv⟩

def step (s : MoonshineCompositor M) (e : Event) : Option (MoonshineCompositor M) := some (s.react e)

/-- No reference dangles in any state of a run exactly if every event of it leaves
the references sound. -/
theorem focusSound_iff (width height : Int) (currentMode : Option (Int × Int)) (events : List Event) :
    EveryStep step (fun _ _ s' => FocusSound s') (.new width height currentMode : MoonshineCompositor M) events ↔
      EveryStep step (fun s e _ => LeavesSound s e)
        (.new width height currentMode : MoonshineCompositor M) events := by
  refine EveryStep.iff_of_inv (fun s e s' (h : Inv s) hs => ?_) (fun s e s' h hs hC => ?_) (Inv.new ..) events
  · obtain rfl : s.react e = s' := Option.some.inj hs
    exact (h.react e).1
  · obtain rfl : s.react e = s' := Option.some.inj hs
    exact (h.react e).2 ((h.react e).1.mpr hC)

/-- Nothing outside: no X11 connection. -/
def bare : Outside := ⟨none, fun _ => none, fun _ => 0, fun m => m.values⟩

/-- The pointer focus stays on the only window when its client destroys it. -/
theorem pointerFocus_dangles : ¬ ∀ events : List Event,
    EveryStep step (fun _ _ s' => FocusSound s')
      (.new 1920 1080 (some (1920, 1080)) : MoonshineCompositor (stacked _ _)) events := by
  intro h
  have hrun := h [⟨.newToplevel 0 0 false, bare, bare⟩, ⟨.toplevelDestroyed 0, bare, bare⟩]
  have hsound := ((hrun _ rfl).2 _ rfl).1
  have hspace := (hsound .pointerFocus ⟨0, .wayland 0⟩ (by decide +kernel)).1
  exact absurd hspace (by decide +kernel)

end Moonshine.Proof.Compositor
