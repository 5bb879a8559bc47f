import Moonshine.Framework.ChildIndex
import Moonshine.Proof.Compositor.Dangling

/-!
# The index of transient windows

`transientChildren` mirrors the metadata after every run of the handlers
(`transientIndex_mirrors`). A handler changes both sides in one of three ways:
a window leaves (`Indexed.unregister`), a new window comes (`Indexed.enter`), or
a window changes its parent (`Indexed.reparent`); all others keep the parents.
-/

namespace Moonshine.Proof.Compositor

open Moonshine.Framework Moonshine.Impl.Compositor

variable {M : SpaceModel Window (Int × Int)} {s s' : MoonshineCompositor M} {o : Outside} {w : Window}

/-- The parent of a window in the metadata. -/
def parentOf (s : MoonshineCompositor M) (w : Window) : Option UInt32 :=
  (s.windowMetadata.get? w).bind (·.transientFor)

structure Indexed (s : MoonshineCompositor M) : Prop where
  inverts : Inverts s.transientChildren (parentOf s)
  fresh : ∀ w ∈ s.windowMetadata, w.id < s.nextWindow

theorem Indexed.new (width height : Int) (currentMode : Option (Int × Int)) :
    Indexed (.new width height currentMode : MoonshineCompositor M) where
  inverts := inverts_empty
  fresh w hw := absurd hw (AList.notMem_empty w)

/-- What the two sides of the index are read off. -/
def parentEntry (s : MoonshineCompositor M) (w : Window) : Option (Option UInt32) :=
  (s.windowMetadata.get? w).map (·.transientFor)

theorem parentOf_eq (s : MoonshineCompositor M) (w : Window) : parentOf s w = (parentEntry s w).join := by
  unfold parentOf parentEntry
  cases s.windowMetadata.get? w <;> rfl

theorem mem_iff_parentEntry : w ∈ s.windowMetadata ↔ (parentEntry s w).isSome := by
  rw [parentEntry, Option.isSome_map, ← AList.lookup_isSome]
  rfl

theorem Indexed.congr (h : Indexed s) (hchildren : s'.transientChildren = s.transientChildren)
    (hparents : parentEntry s' = parentEntry s) (hnext : s'.nextWindow = s.nextWindow) : Indexed s' where
  inverts := by
    have hparent : parentOf s' = parentOf s := by
      funext w
      rw [parentOf_eq, parentOf_eq, hparents]
    rw [hchildren, hparent]
    exact h.inverts
  fresh w hw := by
    rw [mem_iff_parentEntry, hparents, ← mem_iff_parentEntry] at hw
    rw [hnext]
    exact h.fresh w hw

theorem parentEntry_modifyMetadata (s : MoonshineCompositor M) (w : Window) {f : WindowMetadata → WindowMetadata}
    (hf : ∀ m, (f m).transientFor = m.transientFor) : parentEntry (s.modifyMetadata w f) = parentEntry s := by
  funext v
  show ((s.windowMetadata.modify w f).get? v).map _ = (s.windowMetadata.get? v).map _
  rw [HashMap.get?_modify]
  split
  · subst v
    rw [Option.map_map]
    exact congrArg (Option.map · _) (funext hf)
  · rfl

theorem Indexed.modifyMetadata (h : Indexed s) (w : Window) {f : WindowMetadata → WindowMetadata}
    (hf : ∀ m, (f m).transientFor = m.transientFor) : Indexed (s.modifyMetadata w f) :=
  h.congr rfl (parentEntry_modifyMetadata s w hf) rfl

theorem forgetChild_leaves (s : MoonshineCompositor M) (p : Option UInt32) (w : Window) :
    s.forgetChild p w = { s with transientChildren := leaveParent s.transientChildren p w } := by
  unfold MoonshineCompositor.forgetChild leaveParent
  cases p with
  | none => rfl
  | some p =>
    dsimp only
    unfold dropChild
    cases hp : s.transientChildren.get? p with
    | none => rfl
    | some children => rfl

theorem adoptChild_enters (s : MoonshineCompositor M) (p : Option UInt32) (w : Window) :
    s.adoptChild p w = { s with transientChildren := enterParent s.transientChildren p w } := by
  cases p with
  | none => rfl
  | some p => rfl

/-- Both sides of the index are changed at one window. -/
theorem Indexed.of_update {p : Option UInt32}
    (hinverts : Inverts s'.transientChildren (Function.update (parentOf s) w p))
    (hparents : ∀ v, parentOf s' v = if v = w then p else parentOf s v)
    (hfresh : ∀ v ∈ s'.windowMetadata, v.id < s'.nextWindow) : Indexed s' where
  inverts := by
    have hparent : parentOf s' = Function.update (parentOf s) w p := by
      funext v
      rw [hparents, Function.update_apply]
    rw [hparent]
    exact hinverts
  fresh := hfresh

theorem Indexed.unregister (h : Indexed s) (w : Window) : Indexed (s.unregisterWindow w) := by
  have heq : s.unregisterWindow w = { s with
      transientChildren := leaveParent s.transientChildren (parentOf s w) w
      windowMetadata := s.windowMetadata.erase w } :=
    congrArg (fun s' : MoonshineCompositor M => { s' with windowMetadata := s.windowMetadata.erase w })
      (forgetChild_leaves s (parentOf s w) w)
  rw [heq]
  refine Indexed.of_update (h.inverts.leave w) (fun v => ?_) fun v hv => h.fresh v (AList.mem_erase.mp hv).2
  show (HashMap.get? (s.windowMetadata.erase w) v).bind _ = _
  rw [HashMap.get?_erase]
  split <;> rfl

theorem Indexed.clearDropdowns (h : Indexed s) : Indexed s.clearDropdowns := by
  unfold MoonshineCompositor.clearDropdowns
  split
  · rename_i d _
    exact Indexed.unregister (s := MoonshineCompositor.unmapElem { s with
      overrideWindow := none, focusState := s.focusState.markDirty } d) (h.congr rfl rfl rfl) d
  · exact h

theorem Indexed.dropWindow (h : Indexed s) (w : Window) : Indexed (s.dropWindow w) := by
  have hgone : Indexed ((s.unregisterWindow w).unmapElem w) := (h.unregister w).congr rfl rfl rfl
  unfold MoonshineCompositor.dropWindow
  dsimp only
  split
  · exact hgone.clearDropdowns
  · exact hgone

/-- A window that is new, registered and put under its parent. -/
theorem Indexed.enter (h : Indexed s) (surface : WindowSurface) (loc : Int × Int) (m : WindowMetadata) :
    Indexed ((s.register surface loc m).adoptChild m.transientFor ⟨s.nextWindow, surface⟩) := by
  have hnew := next_notMem h.fresh surface
  have hnone : parentOf s ⟨s.nextWindow, surface⟩ = none := by
    rw [parentOf_eq, Option.not_isSome_iff_eq_none.mp (mem_iff_parentEntry.not.mp hnew)]
    rfl
  rw [adoptChild_enters]
  refine Indexed.of_update (h.inverts.enter hnone m.transientFor) (fun v => ?_) (fresh_register h.fresh surface loc m)
  show (HashMap.get? (s.windowMetadata.insert _ m) v).bind _ = _
  rw [HashMap.get?_insert]
  split <;> rfl

theorem Indexed.reparent (h : Indexed s) {old : WindowMetadata} (hold : s.windowMetadata.get? w = some old)
    (new : WindowMetadata) : Indexed (s.reparent w old new) := by
  have hparent : old.transientFor = parentOf s w := by
    rw [parentOf, hold]
    rfl
  unfold MoonshineCompositor.reparent
  dsimp only
  rw [hparent, forgetChild_leaves, adoptChild_enters]
  refine Indexed.of_update (h.inverts.move w new.transientFor) (fun v => ?_) fun v hv =>
    h.fresh v ((HashMap.mem_modify _ _ _ _).mp hv)
  show (HashMap.get? (s.windowMetadata.modify w _) v).bind _ = _
  rw [HashMap.get?_modify]
  split
  · subst v
    rw [hold]
    rfl
  · rfl

theorem Indexed.commit (h : Indexed s) (surface : Surface) (mapped : Bool) :
    Indexed (s.commit surface mapped).state := by
  unfold MoonshineCompositor.commit
  split
  · rename_i window _
    have hrecord : Indexed (s.recordMapping window mapped) := h.congr rfl rfl rfl
    unfold MoonshineCompositor.countDamage
    dsimp only
    split
    · exact (hrecord.modifyMetadata window (f := fun m => { m with
        damageSequence := (s.recordMapping window mapped).damageSequenceCounter + 1 }) fun _ => rfl).congr rfl rfl rfl
    · exact hrecord
  · exact h

theorem Indexed.newToplevel (h : Indexed s) (surface : Surface) (appId : UInt32) (fullscreen : Bool) :
    Indexed (s.newToplevel surface appId fullscreen).state := by
  have hcounted : Indexed { s with mapSequenceCounter := s.mapSequenceCounter + 1 } := h.congr rfl rfl rfl
  exact hcounted.enter (.wayland surface) (0, 0) {
    appId := appId
    mapSequence := s.mapSequenceCounter + 1
    geometry := s.outputRect
    fullscreen := fullscreen }

theorem Indexed.toplevelDestroyed (h : Indexed s) (surface : Surface) :
    Indexed (s.toplevelDestroyed surface).state := by
  unfold MoonshineCompositor.toplevelDestroyed
  split
  · exact (h.unregister _).congr rfl rfl rfl
  · exact h

theorem Indexed.setFullscreen (h : Indexed s) (surface : Surface) (fullscreen : Bool) :
    Indexed (s.setFullscreen surface fullscreen).state := by
  unfold MoonshineCompositor.setFullscreen
  split
  · exact h.modifyMetadata _ fun _ => rfl
  · exact h

theorem Indexed.appIdChanged (h : Indexed s) (surface : Surface) (appId : Option UInt32) :
    Indexed (s.appIdChanged surface appId).state := by
  unfold MoonshineCompositor.appIdChanged
  split
  · exact h.modifyMetadata _ fun _ => rfl
  · exact h
  · exact h

theorem Indexed.propertyNotify (h : Indexed s) (o : Outside) (window : X11Surface) (property : WmWindowProperty) :
    Indexed (s.propertyNotify o window property).state := by
  unfold MoonshineCompositor.propertyNotify
  split
  · exact h
  · split
    · rename_i elem _
      dsimp only
      cases hold : s.windowMetadata.get? elem with
      | none => exact h
      | some old =>
        cases property with
        | hints => exact h.modifyMetadata _ fun _ => rfl
        | transientFor => exact h.reparent hold _
        | windowType => exact h.modifyMetadata _ fun _ => rfl
        | pid => exact h
        | other => exact h
    · exact h

theorem Indexed.mapWindowRequest (h : Indexed s) (o : Outside) (window : X11Surface) (granted : Bool) :
    Indexed (s.mapWindowRequest o window granted).state := by
  have hcounted (k : Nat) (f : FocusState) : Indexed { s with mapSequenceCounter := k, focusState := f } :=
    h.congr rfl rfl rfl
  unfold MoonshineCompositor.mapWindowRequest
  split
  · exact (hcounted _ _).enter _ _ _
  · exact h

theorem Indexed.mappedOverrideRedirectWindow (h : Indexed s) (o : Outside) (window : X11Surface) :
    Indexed (s.mappedOverrideRedirectWindow o window).state := by
  unfold MoonshineCompositor.mappedOverrideRedirectWindow
  have hadopted := h.enter (.x11 window.windowId) (window.geometry.x, window.geometry.y)
    (s.x11SurfaceMetadata o window)
  dsimp only
  split
  · split
    · unfold MoonshineCompositor.notifyDropdown
      split
      · exact hadopted.congr rfl rfl rfl
      · exact hadopted.congr rfl rfl rfl
    · exact hadopted
  · exact hadopted

theorem Indexed.unmappedWindow (h : Indexed s) (window : X11Surface) :
    Indexed (s.unmappedWindow window).state := by
  have hother : Indexed { s with sysTrayIcons := s.sysTrayIcons.filter (· ≠ window.windowId) } :=
    h.congr rfl rfl rfl
  unfold MoonshineCompositor.unmappedWindow
  dsimp only
  cases hmaybe : s.findWindowByX11Surface window.windowId with
  | none =>
    dsimp only
    split
    · exact hother.congr rfl rfl rfl
    · exact hother
  | some elem =>
    dsimp only
    split
    · exact (hother.dropWindow elem).congr rfl rfl rfl
    · exact hother.dropWindow elem

theorem Indexed.destroyedWindow (h : Indexed s) (window : X11Surface) :
    Indexed (s.destroyedWindow window).state := by
  have hother : Indexed { s with sysTrayIcons := s.sysTrayIcons.filter (· ≠ window.windowId) } :=
    h.congr rfl rfl rfl
  unfold MoonshineCompositor.destroyedWindow
  dsimp only
  split
  · exact hother.unregister _
  · exact hother

theorem Indexed.configureNotify (h : Indexed s) (o : Outside) (window : X11Surface) (geometry : Rectangle) :
    Indexed (s.configureNotify o window geometry).state := by
  unfold MoonshineCompositor.configureNotify
  split
  · rename_i elem _
    have hmapped : Indexed (s.mapElement elem (geometry.x, geometry.y)) := h.congr rfl rfl rfl
    have hresized := hmapped.modifyMetadata elem (f := fun m => { m with
      geometry := geometry
      flags := MoonshineCompositor.reclassify m.flags
        (MoonshineCompositor.withX11Focus o 0 (·.getSteamOverlayValue window.windowId)) geometry }) fun _ => rfl
    exact hresized.congr rfl rfl rfl
  · exact h

theorem Indexed.setX11Fullscreen (h : Indexed s) (window : X11Surface) (fullscreen granted : Bool) :
    Indexed (s.setX11Fullscreen window fullscreen granted).state := by
  unfold MoonshineCompositor.setX11Fullscreen
  split
  · split
    · exact h.modifyMetadata _ fun _ => rfl
    · exact h
  · exact h

theorem Indexed.handle (h : Indexed s) (o : Outside) (r : Request) : Indexed (s.handle o r).state := by
  cases r with
  | commit surface mapped => exact h.commit surface mapped
  | newToplevel surface appId fullscreen => exact h.newToplevel surface appId fullscreen
  | toplevelDestroyed surface => exact h.toplevelDestroyed surface
  | fullscreenRequest surface => exact h.setFullscreen surface true
  | unfullscreenRequest surface => exact h.setFullscreen surface false
  | appIdChanged surface appId => exact h.appIdChanged surface appId
  | propertyNotify window property => exact h.propertyNotify o window property
  | activeWindowRequest window => exact h.congr rfl rfl rfl
  | mapWindowRequest window granted => exact h.mapWindowRequest o window granted
  | mappedOverrideRedirectWindow window => exact h.mappedOverrideRedirectWindow o window
  | unmappedWindow window => exact h.unmappedWindow window
  | destroyedWindow window => exact h.destroyedWindow window
  | configureNotify window geometry => exact h.configureNotify o window geometry
  | x11FullscreenRequest window granted => exact h.setX11Fullscreen window true granted
  | x11UnfullscreenRequest window granted => exact h.setX11Fullscreen window false granted
  | refreshPopups alive => exact h.congr rfl rfl rfl

theorem transientFor_refreshEntry (o : Outside) (xf : X11Focus) (w : Window) (m : WindowMetadata) :
    (MoonshineCompositor.refreshEntry o xf w m).transientFor = m.transientFor := by
  unfold MoonshineCompositor.refreshEntry
  split
  · dsimp only
    split
    · split <;> rfl
    · split <;> rfl
  · rfl

theorem Indexed.evaluated (h : Indexed s) (o : Outside) : Indexed (s.evaluated o) := by
  have hrefreshed : Indexed
      (MoonshineCompositor.refreshMetadata { s with focusState := s.focusState.markDirty } o) := by
    unfold MoonshineCompositor.refreshMetadata
    split
    · rename_i xf _
      refine h.congr rfl (funext fun w => ?_) rfl
      show (HashMap.get? (s.windowMetadata.mapValues _) w).map _ = (s.windowMetadata.get? w).map _
      rw [HashMap.get?_mapValues, Option.map_map]
      exact congrArg (Option.map · _) (funext (transientFor_refreshEntry o xf w))
    · exact h.congr rfl rfl rfl
  exact hrefreshed.congr rfl rfl rfl

theorem Indexed.reevaluateFocus (h : Indexed s) (o : Outside) : Indexed (s.reevaluateFocus o) := by
  have heval := h.evaluated o
  unfold MoonshineCompositor.reevaluateFocus
  dsimp only
  split
  · rename_i best _
    have hmoved (f : FocusState) : Indexed (MoonshineCompositor.moveFocus { s.evaluated o with focusState := f } o best) := by
      unfold MoonshineCompositor.moveFocus
      dsimp only
      split
      · exact Indexed.clearDropdowns (heval.congr rfl rfl rfl)
      · exact heval.congr rfl rfl rfl
    exact (hmoved _).congr rfl rfl rfl
  · exact heval.congr rfl rfl rfl

theorem Indexed.react (h : Indexed s) (e : Event) : Indexed (s.react e) := by
  unfold MoonshineCompositor.react
  dsimp only
  split
  · exact (h.handle e.outside e.request).reevaluateFocus e.later
  · exact h.handle e.outside e.request

/-- The windows that the index has under a parent. -/
def transientChildrenOf (s : MoonshineCompositor M) (p : UInt32) : List Window := (s.transientChildren.get? p).getD []

structure MirrorsMetadata (s : MoonshineCompositor M) : Prop where
  occurs : ∀ p w, w ∈ transientChildrenOf s p ↔ ∃ m, s.windowMetadata.get? w = some m ∧ m.transientFor = some p
  once : ∀ p w, w ∈ transientChildrenOf s p → (transientChildrenOf s p).count w = 1
  nonempty : ∀ p, s.transientChildren.get? p ≠ some []

theorem Indexed.mirrors (h : Indexed s) : MirrorsMetadata s where
  occurs p w := (h.inverts.mem_iff p w).trans Option.bind_eq_some_iff
  once p _ hw := List.count_eq_one_of_mem (h.inverts.nodup p) hw
  nonempty := h.inverts.nonempty

/-- After every event of every run the index mirrors the metadata. -/
theorem transientIndex_mirrors (width height : Int) (currentMode : Option (Int × Int)) (events : List Event) :
    EveryStep step (fun _ _ s' => MirrorsMetadata s')
      (.new width height currentMode : MoonshineCompositor M) events := by
  have hkeep : ∀ (s : MoonshineCompositor M) e s', Indexed s → step s e = some s' → True → Indexed s' := by
    intro s e s' h hs _
    obtain rfl : s.react e = s' := Option.some.inj hs
    exact h.react e
  refine EveryStep.of_keeps hkeep (fun s e s' h hs hc => (hkeep s e s' h hs hc).mirrors)
    (Indexed.new width height currentMode) (everyStep_of_forall (fun _ _ => trivial) _)

end Moonshine.Proof.Compositor
