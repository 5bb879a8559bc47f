import Mathlib.Tactic.Linarith
import Moonshine.Framework.Run
import Moonshine.Impl.Compositor.Pointer
import Moonshine.Proof.Session.Negotiated

/-!
# A locked pointer

The handler of a relative motion moves the cursor and clamps it before it looks at the
lock. The cursor stays where it is exactly if the clamp takes the motion back, in each
coordinate (`clamp_eq_self_iff`), and so a run of motions leaves the cursor of a locked
pointer alone exactly if the clamp does so for each of them: `unmoved_iff`.
-/

namespace Moonshine.Proof.Compositor

open Moonshine.Framework Moonshine.Impl.Compositor Moonshine.Impl.Threads Moonshine.Impl.Negotiation
open Moonshine.Framework.Outcome Moonshine.Proof.Threads

/-- The coordinate is within the bounds and does not move, or is at the bound it is pushed against. -/
def Absorbed (lo hi : Int) (v : ℚ) (d : Int16) : Prop :=
  (lo : ℚ) ≤ v ∧ v ≤ hi ∧ (d.toInt = 0 ∨ 0 < d.toInt ∧ v = hi ∨ d.toInt < 0 ∧ v = lo)

theorem clamp_eq_self_iff {lo hi : Int} {v v' : ℚ} {d : Int16} (h : clamp (v + d.toInt) lo hi = .ok v') :
    v' = v ↔ Absorbed lo hi v d := by
  have hle : (lo : ℚ) ≤ hi := clamp_ne_panic.mp (by rw [h]; simp)
  rw [clamp, if_pos hle, ok.injEq] at h
  subst h
  simp only [Absorbed, ← Int.cast_pos (R := ℚ), ← Int.cast_lt_zero (R := ℚ), ← Int.cast_eq_zero (α := ℚ)]
  generalize (d.toInt : ℚ) = δ
  grind

/-- In both coordinates. -/
def AbsorbedBy (b : Bounds) (cursor : Position) (dx dy : Int16) : Prop :=
  Absorbed b.minX b.maxX cursor.1 dx ∧ Absorbed b.minY b.maxY cursor.2 dy

/-- The bounds of the cursor: the output's, with those of the override window if it has a geometry. -/
def cursorBounds (session : SessionContext) (overrideWindow : Option Geometry) : Bounds :=
  let (w, h) := outputSize session
  match overrideWindow with
  | none => ⟨0, 0, w - 1, h - 1⟩
  | some geo => ⟨min 0 geo.x, min 0 geo.y, max (w - 1) (geo.x + geo.w - 1), max (h - 1) (geo.y + geo.h - 1)⟩

theorem expand_eq {session : SessionContext} {overrideWindow : Option Geometry} :
    Bounds.expand ⟨0, 0, (outputSize session).1 - 1, (outputSize session).2 - 1⟩ overrideWindow =
      .ok (cursorBounds session overrideWindow) := by
  cases overrideWindow with
  | none => rfl
  | some geo =>
    have hgeo : ∀ m ∈ [geo.x + geo.w, geo.x + geo.w - 1, geo.y + geo.h, geo.y + geo.h - 1],
        checkedI32 m = .ok m := fun m hm => checkedI32_of_mem (geo.fits m hm)
    rw [Bounds.expand, hgeo _ (by simp), ok_bind, hgeo _ (by simp), ok_bind, hgeo _ (by simp), ok_bind,
      hgeo _ (by simp), ok_bind]
    rfl

theorem clampCursor_eq_ok {session : SessionContext} {overrideWindow : Option Geometry} {cursor cursor' : ℚ × ℚ}
    (h : clampCursor session overrideWindow cursor = .ok cursor') :
    let b := cursorBounds session overrideWindow
    clamp cursor.1 b.minX b.maxX = .ok cursor'.1 ∧ clamp cursor.2 b.minY b.maxY = .ok cursor'.2 := by
  rw [clampCursor, bind_eq_ok] at h
  obtain ⟨w, hw, h⟩ := h
  obtain ⟨v, hv, h⟩ := bind_eq_ok.mp h
  rw [ok_of_checkedI32 (by rw [hw]; simp), ok.injEq] at hw
  rw [ok_of_checkedI32 (by rw [hv]; simp), ok.injEq] at hv
  subst hw hv
  rw [expand_eq, ok_bind] at h
  obtain ⟨x, hx, h⟩ := bind_eq_ok.mp h
  obtain ⟨y, hy, h⟩ := bind_eq_ok.mp h
  obtain rfl := ok.inj h
  exact ⟨hx, hy⟩

/-- A relative motion, in the scene that it finds. -/
structure Motion where
  scene : Scene
  dx : Int16
  dy : Int16

/-- The cursor after a motion, as long as nothing panics. -/
def moveCursor (session : SessionContext) (cursor : Position) (m : Motion) : Option Position :=
  match mouseMoveRelative session m.scene m.dx m.dy cursor with
  | .ok (cursor', _) => some cursor'
  | .err => none
  | .panic => none

/-- A locked pointer's cursor stays, and with it the surface under it and the lock. -/
def Unmoved (cursor : Position) (m : Motion) (cursor' : Position) : Prop :=
  m.scene.pointerLocked cursor = true → cursor' = cursor ∧
    m.scene.findSurfaceAt cursor' = m.scene.findSurfaceAt cursor ∧ m.scene.pointerLocked cursor' = true

/-- The clamp takes the motion of a locked pointer back. -/
def AbsorbedIfLocked (session : SessionContext) (cursor : Position) (m : Motion) : Prop :=
  m.scene.pointerLocked cursor = true →
    AbsorbedBy (cursorBounds session (m.scene.overrideWindow.bind SceneWindow.geometry)) cursor m.dx m.dy

theorem moveCursor_eq_some {session : SessionContext} {cursor cursor' : Position} {m : Motion} :
    moveCursor session cursor m = some cursor' ↔
      clampCursor session (m.scene.overrideWindow.bind SceneWindow.geometry)
        (cursor.add (m.dx.toInt, m.dy.toInt)) = .ok cursor' := by
  rw [moveCursor, mouseMoveRelative]
  cases clampCursor session (m.scene.overrideWindow.bind SceneWindow.geometry)
    (cursor.add (m.dx.toInt, m.dy.toInt)) with
  | ok c => cases m.scene.pointerLocked cursor <;> simp
  | err => simp
  | panic => simp

theorem unmoved_step_iff {session : SessionContext} {cursor cursor' : Position} {m : Motion}
    (h : moveCursor session cursor m = some cursor') :
    Unmoved cursor m cursor' ↔ AbsorbedIfLocked session cursor m := by
  obtain ⟨hx, hy⟩ := clampCursor_eq_ok (moveCursor_eq_some.mp h)
  refine forall_congr' fun hlocked => ?_
  rw [AbsorbedBy, ← clamp_eq_self_iff hx, ← clamp_eq_self_iff hy]
  constructor
  · rintro ⟨rfl, -, -⟩
    exact ⟨rfl, rfl⟩
  · rintro ⟨hx', hy'⟩
    obtain rfl : cursor' = cursor := Prod.ext hx' hy'
    exact ⟨rfl, rfl, hlocked⟩

theorem unmoved_iff (session : SessionContext) (cursor : Position) (ms : List Motion) :
    EveryStep (moveCursor session) Unmoved cursor ms ↔
      EveryStep (moveCursor session) (fun cursor m _ => AbsorbedIfLocked session cursor m) cursor ms := by
  refine EveryStep.congr ?_ cursor ms
  exact fun _ _ _ h => unmoved_step_iff h

/-- A fullscreen surface above the bypassed window, with an active lock. -/
def lockedScene : Scene where
  overrideWindow := none
  isOverrideActive := true
  overrideSurface := some 5
  popupSurfaces := []
  focusedX11Window := none
  elements := []
  elementUnder _ := none
  locked surface := surface = 5

/-- 1920 by 1080. -/
def wideSession : SessionContext where
  applicationId := 1
  resolution := (1920, 1080)
  refreshRate := 60
  keys := ⟨List.replicate 16 0, 0⟩
  audioChannels := .stereo
  audioChannelMask := 3
  hdr := false

/-- From the middle of the output the motion (1, 0) moves the locked cursor by a pixel. -/
theorem not_unmoved_lockedScene :
    ¬ EveryStep (moveCursor wideSession) Unmoved (960, 540) [⟨lockedScene, 1, 0⟩] := by
  intro h
  have hstep : moveCursor wideSession (960, 540) ⟨lockedScene, 1, 0⟩ = some (961, 540) := by
    decide +kernel
  have heq := ((h _ hstep).1 rfl).1
  exact absurd heq (by decide +kernel)

end Moonshine.Proof.Compositor
