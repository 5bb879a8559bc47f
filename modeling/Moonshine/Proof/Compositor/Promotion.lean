import Moonshine.Framework.Place
import Moonshine.Impl.Compositor.Focus

/-!
# Where the focus is to go

What a re-evaluation chooses, told from the windows and their metadata: the base by
its place among the candidates (`IsBase`), the child that it is promoted to by the
index of children and their flags (`PromotedTo`), and so the window that is to have
the focus (`focusTarget_evaluated_eq_some_iff`). The special windows are told by flag
and opacity (`mostOpaque_eq_some_iff`).
-/

namespace Moonshine.Proof.Compositor

open Moonshine.Framework Moonshine.Impl.Compositor

variable {M : SpaceModel Window (Int × Int)} {s : MoonshineCompositor M} {o : Outside} {w best base : Window}

def focusControl (o : Outside) : Option FocusControl := o.x11Focus.bind (·.readFocusControl)

/-- Whether the metadata of a window has one of the app IDs. -/
def hasApp (s : MoonshineCompositor M) (appIds : List UInt32) (w : Window) : Bool :=
  (s.windowMetadata.get? w).any fun m => m.appId ∈ appIds

theorem bestOfApps_eq (s : MoonshineCompositor M) (appIds : List UInt32) (ws : List Window) :
    s.bestOfApps appIds ws = ws.foldl (improve s.priorityKey (hasApp s appIds)) none := by
  unfold MoonshineCompositor.bestOfApps
  congr 1
  funext best w
  unfold improve hasApp
  cases s.windowMetadata.get? w with
  | none => simp
  | some m => simp

theorem bestCandidate_eq (s : MoonshineCompositor M) (o : Outside) (ws : List Window) :
    s.bestCandidate o ws =
      (s.focusState.requestedFocusWindow.bind fun id => ws.find? fun w => w.x11Surface = some id).or
        ((s.steamBest o ws).or (s.byPriority ws).head?) := by
  unfold MoonshineCompositor.bestCandidate MoonshineCompositor.pickBestCandidate
  rw [← Option.or_assoc]
  congr 1
  split
  · rename_i heq
    rw [heq]
    rfl
  · rename_i heq
    rw [heq]
    rfl

/-- The window that a client requested. -/
def firstRequested (s : MoonshineCompositor M) : Set Window :=
  {w | ∃ id, s.focusState.requestedFocusWindow = some id ∧
    FirstWith (fun w => w.x11Surface = some id) s.candidates w}

/-- The window in Steam's focus control. -/
def firstSteamWindow (s : MoonshineCompositor M) (o : Outside) : Set Window :=
  {w | ∃ fc id, focusControl o = some fc ∧ fc.window = some id ∧
    FirstWith (fun w => w.x11Surface = some id) s.candidates w}

/-- Of the windows with an app ID that Steam lists the first of highest priority. -/
def firstSteamApp (s : MoonshineCompositor M) (o : Outside) : Set Window :=
  {w | ∃ fc, focusControl o = some fc ∧ FirstMax s.priorityKey (hasApp s fc.appIds) s.candidates w}

/-- Of all candidates the last of highest priority. -/
def lastOfAll (s : MoonshineCompositor M) : Set Window := {w | LastMax s.priorityKey (fun _ => true) s.candidates w}

/-- The sets to choose from, with at most one member each. -/
def places (s : MoonshineCompositor M) (o : Outside) : List (Set Window) :=
  [firstRequested s, firstSteamWindow s o, firstSteamApp s o, lastOfAll s]

def IsBase (s : MoonshineCompositor M) (o : Outside) (w : Window) : Prop := FirstOf (places s o) w

theorem subsingleton_places : ∀ t ∈ places s o, t.Subsingleton := by
  intro t ht
  simp only [places, List.mem_cons, List.not_mem_nil, or_false] at ht
  rcases ht with rfl | rfl | rfl | rfl
  · rintro a ⟨id, hid, ha⟩ b ⟨id', hid', hb⟩
    cases hid.symm.trans hid'
    exact ha.unique hb
  · rintro a ⟨fc, id, hfc, hid, ha⟩ b ⟨fc', id', hfc', hid', hb⟩
    cases hfc.symm.trans hfc'
    cases hid.symm.trans hid'
    exact ha.unique hb
  · rintro a ⟨fc, hfc, ha⟩ b ⟨fc', hfc', hb⟩
    cases hfc.symm.trans hfc'
    exact ha.unique hb
  · intro a ha b hb
    have ha : LastMax s.priorityKey (fun _ => true) s.candidates a := ha
    exact ha.unique hb

theorem chooses_places : Chooses (s.bestCandidate o s.candidates) (places s o) := by
  have hfind {id : UInt32} {a : Window} : (s.candidates.find? fun w => w.x11Surface = some id) = some a ↔
      FirstWith (fun w => w.x11Surface = some id) s.candidates a := find?_eq_some_iff
  have hsteam : s.steamBest o s.candidates = ((focusControl o).bind fun fc => fc.window.bind fun id =>
      s.candidates.find? fun w => w.x11Surface = some id).or
        ((focusControl o).bind fun fc => s.bestOfApps fc.appIds s.candidates) := by
    show (focusControl o).bind _ = _
    cases focusControl o <;> rfl
  rw [bestCandidate_eq, hsteam, Option.or_assoc]
  refine (picks_of_iff fun a => ?_).chooses.or ((picks_of_iff fun a => ?_).chooses.or
    ((picks_of_iff fun a => ?_).chooses.or (picks_of_iff fun a => ?_).chooses))
  · simp only [Option.bind_eq_some_iff, hfind]
    rfl
  · simp only [Option.bind_eq_some_iff, hfind]
    exact ⟨fun ⟨fc, hfc, id, hid, h⟩ => ⟨fc, id, hfc, hid, h⟩, fun ⟨fc, id, hfc, hid, h⟩ => ⟨fc, hfc, id, hid, h⟩⟩
  · simp only [Option.bind_eq_some_iff, bestOfApps_eq, foldl_improve_eq_some_iff]
    rfl
  · exact head?_reverse_insertionSort_eq_some_iff

theorem bestCandidate_eq_some_iff : s.bestCandidate o s.candidates = some w ↔ IsBase s o w :=
  chooses_places.eq_some_iff subsingleton_places

/-- The children of an X11 window, as the index and their metadata have it, but for
those visited. -/
def childrenOf (s : MoonshineCompositor M) (id : UInt32) (visited : List UInt32) : List Window :=
  ((s.transientChildren.get? id).getD []).filter fun w =>
    ((s.windowMetadata.get? w).any fun m => m.transientFor == some id) &&
      w.x11Surface.all fun windowId => windowId ∉ visited

/-- The first child that is no dropdown, in `n` levels from an X11 window; where all
are dropdowns, the first of them is gone through. -/
inductive PromotedFrom (s : MoonshineCompositor M) : Nat → UInt32 → List UInt32 → Window → Prop
  | child {n : Nat} {id : UInt32} {visited : List UInt32} {w : Window}
      (hw : FirstMin s.isDropdown (childrenOf s id visited) w) (hdropdown : s.isDropdown w = false) :
      PromotedFrom s (n + 1) id visited w
  | through {n : Nat} {id childId : UInt32} {visited : List UInt32} {d w : Window}
      (hd : FirstMin s.isDropdown (childrenOf s id visited) d) (hdropdown : s.isDropdown d = true)
      (hid : d.x11Surface = some childId) (h : PromotedFrom s n childId (childId :: visited) w) :
      PromotedFrom s (n + 1) id visited w

/-- What a base is promoted to, in ten levels. -/
def PromotedTo (s : MoonshineCompositor M) (base w : Window) : Prop :=
  ∃ id, base.x11Surface = some id ∧ PromotedFrom s 10 id [id] w

section PromotedFrom

variable {n : Nat} {id : UInt32} {visited : List UInt32} {window : Window}

theorem head?_unvisitedChildren :
    (s.unvisitedChildren id visited).head? = some w ↔ FirstMin s.isDropdown (childrenOf s id visited) w :=
  head?_insertionSort_eq_some_iff

/-- Where an X11 window has a child that it leads to. -/
theorem promoteFrom_succ (hw : FirstMin s.isDropdown (childrenOf s id visited) w) :
    s.promoteFrom window (n + 1) id visited = if s.isDropdown w then
      match w.x11Surface with
      | some childId => s.promoteFrom window n childId (childId :: visited)
      | none => window
    else w := by
  obtain ⟨children, hchildren⟩ := List.head?_eq_some_iff.mp (head?_unvisitedChildren.mpr hw)
  have hmem := (List.mem_filter.mp (StandsOut.mem hw)).2
  obtain ⟨hany, hall⟩ := Bool.and_eq_true_iff.mp hmem
  obtain ⟨m, hm, -⟩ := (Option.any_eq_true ..).mp hany
  rw [MoonshineCompositor.promoteFrom, hchildren]
  simp only [MoonshineCompositor.isDropdown, hm, Option.any_some]
  cases m.isDropdown with
  | false => rfl
  | true =>
    cases hid : w.x11Surface with
    | none => rfl
    | some childId =>
      rw [hid, Option.all_some, decide_eq_true_eq] at hall
      simp only [Bool.not_true, Bool.false_eq_true, if_false, if_neg hall, if_true]

theorem PromotedFrom.eq (h : PromotedFrom s n id visited w) : s.promoteFrom window n id visited = w := by
  induction h with
  | child hw hdropdown =>
    rw [promoteFrom_succ hw, hdropdown]
    rfl
  | through hd hdropdown hid _ ih =>
    rw [promoteFrom_succ hd, hdropdown, hid]
    exact ih

theorem promoteFrom_of_not (h : ∀ w, ¬PromotedFrom s n id visited w) :
    s.promoteFrom window n id visited = window := by
  induction n generalizing id visited with
  | zero => rfl
  | succ n ih =>
    cases hhead : (s.unvisitedChildren id visited).head? with
    | none =>
      rw [MoonshineCompositor.promoteFrom, List.head?_eq_none_iff.mp hhead]
    | some w =>
      have hw := head?_unvisitedChildren.mp hhead
      rw [promoteFrom_succ hw]
      cases hdropdown : s.isDropdown w with
      | false => exact absurd (.child hw hdropdown) (h w)
      | true =>
        cases hid : w.x11Surface with
        | none => rfl
        | some childId => exact ih fun w' hw' => h w' (.through hw hdropdown hid hw')

end PromotedFrom

theorem promoteTransientChild_eq_iff :
    s.promoteTransientChild base = best ↔ PromotedTo s base best ∨ best = base ∧ ∀ w, ¬PromotedTo s base w := by
  have hpromoted {w : Window} (h : PromotedTo s base w) : s.promoteTransientChild base = w := by
    obtain ⟨id, hid, h⟩ := h
    rw [MoonshineCompositor.promoteTransientChild, hid]
    exact h.eq
  have hnot (h : ∀ w, ¬PromotedTo s base w) : s.promoteTransientChild base = base := by
    rw [MoonshineCompositor.promoteTransientChild]
    cases hid : base.x11Surface with
    | none => rfl
    | some id => exact promoteFrom_of_not fun w hw => h w ⟨id, hid, hw⟩
  constructor
  · rintro rfl
    by_cases h : ∃ w, PromotedTo s base w
    · obtain ⟨w, hw⟩ := h
      rw [hpromoted hw]
      exact .inl hw
    · have h := not_exists.mp h
      exact .inr ⟨hnot h, h⟩
  · rintro (h | ⟨rfl, h⟩)
    · exact hpromoted h
    · exact hnot h

theorem PromotedFrom.congr {s' : MoonshineCompositor M} {n : Nat} {id : UInt32} {visited : List UInt32}
    (hchildren : childrenOf s' = childrenOf s) (hdropdown : s'.isDropdown = s.isDropdown)
    (h : PromotedFrom s n id visited w) : PromotedFrom s' n id visited w := by
  induction h with
  | child hw hd => exact .child (by rw [hchildren, hdropdown]; exact hw) (by rw [hdropdown]; exact hd)
  | through hw hd hid _ ih =>
    exact .through (by rw [hchildren, hdropdown]; exact hw) (by rw [hdropdown]; exact hd) hid ih

theorem promotedTo_congr {s' : MoonshineCompositor M} (hchildren : childrenOf s' = childrenOf s)
    (hdropdown : s'.isDropdown = s.isDropdown) : PromotedTo s' base w ↔ PromotedTo s base w :=
  exists_congr fun _ => and_congr_right fun _ =>
    ⟨fun h => h.congr hchildren.symm hdropdown.symm, fun h => h.congr hchildren hdropdown⟩

def hasFlag (s : MoonshineCompositor M) (flag : WindowFlags → Bool) (w : Window) : Bool :=
  (s.windowMetadata.get? w).any fun m => flag m.flags

def opacityOf (s : MoonshineCompositor M) (w : Window) : Nat :=
  ((s.windowMetadata.get? w).map (·.opacity.toNat)).getD 0

theorem mostOpaque_eq_some_iff {windows : List Window} {flag : WindowFlags → Bool} :
    s.mostOpaque windows flag = some w ↔ LastMax (opacityOf s) (hasFlag s flag) windows w := by
  let value (best : Option Window × UInt32) : Option Window × Nat := (best.1, best.2.toNat)
  have hmost : s.mostOpaque windows flag = (windows.foldl (fun best a =>
      if hasFlag s flag a ∧ best.2 ≤ opacityOf s a then (some a, opacityOf s a) else best) (none, 0)).1 := by
    refine (congrArg Prod.fst (@List.foldl_hom _ _ _ value _ _ windows (none, 0) fun best w => ?_)).symm
    unfold hasFlag opacityOf
    cases s.windowMetadata.get? w with
    | none => simp [value]
    | some m =>
      simp only [value, Option.any_some, Option.map_some, Option.getD_some, UInt32.le_iff_toNat_le]
      split <;> rfl
  obtain ⟨hsome, hnone⟩ := lastMax_foldl (fun w => Nat.zero_le (opacityOf s w)) (hasFlag s flag) windows
  rw [hmost]
  exact eq_some_iff_of_unique (fun a ha => (hsome a ha).1) (fun h a ha => (hnone h).2 a ha.2.mem ha.1)
    fun _ _ => LastMax.unique

theorem refreshEntry_eq (o : Outside) (xf : X11Focus) (w : Window) (m : WindowMetadata) : ∃ appId mode,
    MoonshineCompositor.refreshEntry o xf w m = { m with appId := appId, inputFocusMode := mode } := by
  unfold MoonshineCompositor.refreshEntry
  split
  · dsimp only
    split <;> split <;> exact ⟨_, _, rfl⟩
  · exact ⟨m.appId, m.inputFocusMode, rfl⟩

/-- What the live properties leave of an entry: all but its app ID and input mode. -/
theorem map_refreshMetadata {β : Type} (s : MoonshineCompositor M) (o : Outside) (w : Window)
    {f : WindowMetadata → β} (hf : ∀ m appId mode, f { m with appId := appId, inputFocusMode := mode } = f m) :
    ((s.refreshMetadata o).windowMetadata.get? w).map f = (s.windowMetadata.get? w).map f := by
  unfold MoonshineCompositor.refreshMetadata
  cases o.x11Focus with
  | none => rfl
  | some xf =>
    show ((s.windowMetadata.mapValues (MoonshineCompositor.refreshEntry o xf)).get? w).map f = _
    rw [HashMap.get?_mapValues, Option.map_map]
    congr 1
    funext m
    obtain ⟨appId, mode, heq⟩ := refreshEntry_eq o xf w m
    rw [Function.comp_apply, heq, hf]

theorem any_refreshMetadata (s : MoonshineCompositor M) (o : Outside) (w : Window) {f : WindowMetadata → Bool}
    (hf : ∀ m appId mode, f { m with appId := appId, inputFocusMode := mode } = f m) :
    ((s.refreshMetadata o).windowMetadata.get? w).any f = (s.windowMetadata.get? w).any f := by
  have hany (x : Option WindowMetadata) : x.any f = (x.map f).getD false := by cases x <;> rfl
  rw [hany, hany, map_refreshMetadata s o w hf]

section Evaluated

variable (s : MoonshineCompositor M) (o : Outside)

/-- The state in which the focus is chosen has the live properties. -/
theorem live_evaluated : (s.evaluated o).windowMetadata = (s.refreshMetadata o).windowMetadata ∧
    (s.evaluated o).transientChildren = s.transientChildren ∧ (s.evaluated o).space = s.space ∧
    (s.evaluated o).candidates = (s.refreshMetadata o).candidates ∧
    (s.evaluated o).focusState.requestedFocusWindow = s.focusState.requestedFocusWindow := by
  unfold MoonshineCompositor.evaluated MoonshineCompositor.refreshMetadata
  cases o.x11Focus with
  | none =>
    refine ⟨rfl, rfl, rfl, rfl, ?_⟩
    simp only [MoonshineCompositor.classifySpecialWindows]
    split <;> rfl
  | some xf =>
    refine ⟨rfl, rfl, rfl, rfl, ?_⟩
    simp only [MoonshineCompositor.classifySpecialWindows]
    split <;> rfl

theorem isBase_evaluated : IsBase (s.evaluated o) o w ↔ IsBase (s.refreshMetadata o) o w := by
  obtain ⟨hmeta, -, -, hcandidates, hrequested⟩ := live_evaluated s o
  have hlive : (s.refreshMetadata o).focusState = s.focusState := by
    unfold MoonshineCompositor.refreshMetadata
    cases o.x11Focus <;> rfl
  have hkey : (s.evaluated o).priorityKey = (s.refreshMetadata o).priorityKey := by
    unfold MoonshineCompositor.priorityKey
    rw [hmeta]
  unfold IsBase places firstRequested firstSteamWindow firstSteamApp lastOfAll hasApp
  rw [hcandidates, hrequested, hkey, hmeta, hlive]

theorem promotedTo_evaluated : PromotedTo (s.evaluated o) base w ↔ PromotedTo s base w := by
  obtain ⟨hmeta, hindex, -⟩ := live_evaluated s o
  refine promotedTo_congr ?_ ?_
  · funext id visited
    unfold childrenOf
    rw [hindex, hmeta]
    refine List.filter_congr fun w _ => ?_
    rw [any_refreshMetadata s o w fun _ _ _ => rfl]
  · funext w
    unfold MoonshineCompositor.isDropdown
    rw [hmeta]
    exact any_refreshMetadata s o w fun _ _ _ => rfl

theorem mostOpaque_refreshMetadata (windows : List Window) (flag : WindowFlags → Bool) :
    (s.refreshMetadata o).mostOpaque windows flag = some w ↔
      LastMax (opacityOf s) (hasFlag s flag) windows w := by
  have hopacity : opacityOf (s.refreshMetadata o) = opacityOf s := by
    funext w
    unfold opacityOf
    rw [map_refreshMetadata s o w fun _ _ _ => rfl]
  have hflag : hasFlag (s.refreshMetadata o) flag = hasFlag s flag := by
    funext w
    exact any_refreshMetadata s o w fun _ _ _ => rfl
  rw [mostOpaque_eq_some_iff, hopacity, hflag]

/-- The window that is to have the focus: what the base is promoted to, or the base. -/
def Chosen (s : MoonshineCompositor M) (o : Outside) (best : Window) : Prop :=
  ∃ base, IsBase (s.refreshMetadata o) o base ∧
    (PromotedTo s base best ∨ best = base ∧ ∀ w, ¬PromotedTo s base w)

theorem focusTarget_evaluated_eq_some_iff : (s.evaluated o).focusTarget o = some best ↔ Chosen s o best := by
  simp only [MoonshineCompositor.focusTarget, Option.map_eq_some_iff, bestCandidate_eq_some_iff,
    promoteTransientChild_eq_iff, isBase_evaluated, promotedTo_evaluated, Chosen]

variable {s o} in
theorem Chosen.unique {best' : Window} (h : Chosen s o best) (h' : Chosen s o best') : best = best' :=
  Option.some.inj (((focusTarget_evaluated_eq_some_iff s o).mpr h).symm.trans
    ((focusTarget_evaluated_eq_some_iff s o).mpr h'))

end Evaluated

/-- The window is off the space, was mapped and no longer is, has a flag that keeps
the focus from it, or is override-redirect and of no app. -/
def Barred (s : MoonshineCompositor M) (w : Window) : Prop :=
  w ∉ s.space.elements ∨ (∃ state, s.nativeMapping.get? w = some state ∧ state.everMapped ∧ ¬state.mapped) ∨
    ∃ m, s.windowMetadata.get? w = some m ∧ (m.flags.skipFocus ∨ m.overrideRedirect ∧ m.appId = 0)

theorem mem_candidates : w ∈ s.candidates ↔ w ∈ s.space.elements ∧ s.isCandidate w := List.mem_filter

theorem mem_candidates_iff : w ∈ s.candidates ↔ w ∈ s.windowMetadata ∧ ¬Barred s w := by
  rw [mem_candidates, HashMap.mem_iff, Barred, MoonshineCompositor.isCandidate]
  cases s.windowMetadata.get? w with
  | none => simp
  | some m =>
    cases s.nativeMapping.get? w with
    | none => cases hr : m.overrideRedirect <;> simp [hr]
    | some state => cases hr : m.overrideRedirect <;> cases he : state.everMapped <;> simp [hr, he]

end Moonshine.Proof.Compositor
