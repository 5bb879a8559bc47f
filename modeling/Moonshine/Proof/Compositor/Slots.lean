import Moonshine.Framework.Accounts
import Moonshine.Impl.Compositor.Export
import Moonshine.Proof.Video.ColorLabels

/-!
# The slots of the buffer pool

The frames that hold slots are the one being rendered, those in the channel and
the one that the encode loop has received. The slots that are not free are
exactly theirs (`Inv`): a slot is taken when its frame begins, a frame passes
from one place to the next, and its flag is stored when it is let go of, but for
the exits named by `Leaks`. Each of these loses the slots of the frames that it
lets go of (`Accounted.noLeak_iff`), so a run leaks nothing exactly if none of
its steps is one of them (`no_slot_leaked_iff`).
-/

namespace Moonshine.Proof.Export

open Moonshine.Framework Moonshine.Impl Moonshine.Impl.Export
open Moonshine.Impl.EncodeLoop (Pixelforge PixelForgeError Gpu Locals Config InputFormat ColorConverter
  drmFourccToInput frameColors)
open Moonshine.Impl.Pipeline (maxFramesInFlight)
open Moonshine.Impl.Packetizer (Crates)
open Moonshine.Proof.EncodeLoop (chosen)

variable {x : Crates} {pf : Pixelforge} {frame : ExportedFrame}

/-! ## The slots of frames -/

def slot? : ConsumedFlag → Option (Fin bufferPoolSize)
  | .slot index => some index
  | .scanout _ => none

/-- The slots that the frames hold. -/
def slots (fs : List ExportedFrame) : Multiset (Fin bufferPoolSize) := fs.filterMap fun f => slot? f.consumed

theorem slots_append (fs gs : List ExportedFrame) : slots (fs ++ gs) = slots fs + slots gs := by
  rw [slots, List.filterMap_append, ← Multiset.coe_add]
  rfl

theorem slots_cons (f : ExportedFrame) (fs : List ExportedFrame) : slots (f :: fs) = slots [f] + slots fs :=
  slots_append [f] fs

theorem slots_slot {i : Fin bufferPoolSize} (h : frame.consumed = .slot i) : slots [frame] = {i} := by
  rw [slots, List.filterMap_cons, h]
  rfl

theorem slots_scanout {n : Nat} (h : frame.consumed = .scanout n) : slots [frame] = 0 := by
  rw [slots, List.filterMap_cons, h]
  rfl

theorem mem_slots {fs : List ExportedFrame} {i : Fin bufferPoolSize} :
    i ∈ slots fs ↔ ∃ f ∈ fs, f.consumed = .slot i := by
  rw [slots, Multiset.mem_coe, List.mem_filterMap]
  refine exists_congr fun f => and_congr_right fun _ => ?_
  cases f.consumed <;> simp [slot?]

theorem slots_eq_zero_iff {fs : List ExportedFrame} : slots fs = 0 ↔ ¬∃ f ∈ fs, ∃ i, f.consumed = .slot i := by
  rw [Multiset.eq_zero_iff_forall_notMem]
  constructor
  · rintro h ⟨f, hf, i, hi⟩
    exact h i (mem_slots.mpr ⟨f, hf, hi⟩)
  · intro h i hi
    obtain ⟨f, hf, hi⟩ := mem_slots.mp hi
    exact h ⟨f, hf, i, hi⟩

/-! ## The accounts of the pool -/

/-- The frames that are being rendered, sent or encoded. -/
def frames (w : World x pf) : List ExportedFrame :=
  (w.compositor.rendering.map (·.frame)).toList ++ (w.inHand.toList ++ w.channel)

def free (w : World x pf) (i : Fin bufferPoolSize) : Bool := w.consumed (.slot i)

/-- What is rendered has a slot of the pool. -/
structure Inv (w : World x pf) : Prop where
  accounted : Accounted (free w) (slots (frames w))
  rendering : ∀ rendering, w.compositor.rendering = some rendering → ∃ i, rendering.frame.consumed = .slot i

theorem free_store (w : World x pf) (i : Fin bufferPoolSize) (value : Bool) :
    free (w.store (.slot i) value) = Function.update (free w) i value := by
  funext j
  simp only [free, World.consumed, World.store, Function.update_apply, ConsumedFlag.slot.injEq]

theorem free_store_scanout (w : World x pf) (n : Nat) (value : Bool) :
    free (w.store (.scanout n) value) = free w := by
  funext j
  have hne : ConsumedFlag.slot j ≠ .scanout n := fun h => by cases h
  exact Function.update_of_ne hne value w.encoder.consumed

/-- A frame that is let go of with its flag stored. -/
theorem accounted_store {w : World x pf} {rest : Multiset (Fin bufferPoolSize)}
    (h : Accounted (free w) (slots [frame] + rest)) : Accounted (free (w.store frame.consumed true)) rest := by
  cases hflag : frame.consumed with
  | slot i =>
    rw [slots_slot hflag, Multiset.singleton_add] at h
    rw [free_store]
    exact h.release
  | scanout n =>
    rw [slots_scanout hflag, Multiset.zero_add] at h
    rw [free_store_scanout]
    exact h

theorem accounted_sendFrame {w : World x pf} (halive : w.receiverAlive = true)
    (h : Accounted (free w) (slots [frame] + slots (frames w))) :
    Accounted (free (w.sendFrame frame)) (slots (frames (w.sendFrame frame))) := by
  unfold World.sendFrame
  rw [if_neg (by simp [halive])]
  split
  · rw [Multiset.add_comm, ← slots_append] at h
    unfold frames at h ⊢
    rw [List.append_assoc, List.append_assoc] at h
    exact h
  · exact accounted_store h

theorem sendFrame_gone {w : World x pf} (hgone : w.receiverAlive = false) : w.sendFrame frame = w := if_pos hgone

theorem rendering_sendFrame (w : World x pf) (frame : ExportedFrame) :
    (w.sendFrame frame).compositor.rendering = w.compositor.rendering := by
  unfold World.sendFrame
  split
  · rfl
  · split <;> rfl

/-- The state after a step that leaks a slot exactly if `leaks`. -/
structure Settled (w : World x pf) (leaks : Prop) : Prop where
  noLeak_iff : NoLeak (free w) (slots (frames w)) ↔ ¬leaks
  inv : ¬leaks → Inv w

theorem Settled.of_inv {w : World x pf} {leaks : Prop} (h : Inv w) (hleaks : ¬leaks) : Settled w leaks :=
  ⟨⟨fun _ => hleaks, fun _ => h.accounted.noLeak⟩, fun _ => h⟩

/-- The frame had a slot, and is let go of as it is. -/
theorem Settled.of_dropped {w : World x pf} {leaks : Prop}
    (h : Accounted (free w) (slots [frame] + slots (frames w))) (hslot : ∃ i, frame.consumed = .slot i)
    (hleaks : leaks) : Settled w leaks := by
  have hleaked : ¬NoLeak (free w) (slots (frames w)) := by
    obtain ⟨i, hi⟩ := hslot
    rw [h.noLeak_iff, slots_slot hi]
    exact Multiset.singleton_ne_zero i
  exact ⟨⟨fun hno => absurd hno hleaked, fun hno => absurd hleaks hno⟩, fun hno => absurd hleaks hno⟩

/-! ## The compositor's side -/

section Compositor

variable {w : World x pf}

/-- Only the flags, the frames and the frame that is rendered matter. -/
theorem Inv.congr {w' : World x pf} (h : Inv w) (hflags : w'.encoder.consumed = w.encoder.consumed)
    (hrendering : w'.compositor.rendering = w.compositor.rendering) (hhand : w'.inHand = w.inHand)
    (hchannel : w'.channel = w.channel) : Inv w' where
  accounted := by
    have hfree : free w' = free w := funext fun i => congrFun hflags (.slot i)
    have hframes : frames w' = frames w := by
      unfold frames
      rw [hrendering, hhand, hchannel]
    rw [hfree, hframes]
    exact h.accounted
  rendering r hr := h.rendering r (hrendering.symm.trans hr)

theorem scanoutIndex_rendering (c : Compositor) (id : ObjectId) :
    (c.scanoutIndex id).2.rendering = c.rendering := by
  unfold Compositor.scanoutIndex
  split <;> rfl

theorem Inv.exportScanout (h : Inv w) (scene : Scene) (id : ObjectId) (dmabuf : Dmabuf) :
    Inv (w.exportScanout scene id dmabuf) := by
  unfold World.exportScanout
  dsimp only
  generalize hm : ({ w with compositor := _ } : World x pf) = m
  have hinv : Inv m := by
    rw [← hm]
    exact h.congr rfl (scanoutIndex_rendering w.compositor id) rfl rfl
  generalize hframe : exportDmabuf _ _ _ _ = frame
  have hslots : slots [frame] = 0 := by
    rw [← hframe]
    exact slots_scanout rfl
  refine ⟨?_, fun r hr => hinv.rendering r ((rendering_sendFrame m frame).symm.trans hr)⟩
  cases halive : m.receiverAlive with
  | false =>
    rw [sendFrame_gone halive]
    exact hinv.accounted
  | true =>
    refine accounted_sendFrame halive ?_
    rw [hslots, Multiset.zero_add]
    exact hinv.accounted

theorem Inv.beginRender (h : Inv w) (hnone : w.compositor.rendering = none) (scene : Scene) :
    Inv (w.beginRender scene) := by
  unfold World.beginRender
  dsimp only
  split
  · exact h
  · rename_i hfree
    have hfree : free w w.compositor.nextBufferIndex = true := Bool.eq_true_of_not_eq_false hfree
    refine ⟨?_, fun r hr => ?_⟩
    · have htaken := h.accounted.take hfree
      rw [← free_store w _ false, ← Multiset.singleton_add] at htaken
      unfold frames at htaken ⊢
      rw [hnone] at htaken
      exact htaken
    · cases hr
      exact ⟨_, rfl⟩

theorem Inv.renderAndExport (h : Inv w) (hnone : w.compositor.rendering = none) (scene : Scene) :
    Inv (w.renderAndExport scene) := by
  have hnoted : Inv (w.noteCursor scene) := h.congr rfl rfl rfl rfl
  have hreleased : Inv (w.noteCursor scene).releaseHeld := h.congr rfl rfl rfl rfl
  unfold World.renderAndExport
  dsimp only
  split
  · exact hnoted
  · split
    · exact hreleased.exportScanout scene _ _
    · exact hreleased.beginRender hnone scene

/-- The renderer gives up a bound frame, or nobody receives it. -/
def RenderLeaks (w : World x pf) (results : RenderResults) : Prop :=
  results.bind = true ∧
    (results.spaceElements = false ∨ results.renderOutput = .failed ∨ w.receiverAlive = false)

theorem overrideSurface_of_isOverrideActive {scene : Scene} (h : scene.isOverrideActive = true) :
    scene.overrideSurface.isNone = false := by
  unfold Scene.isOverrideActive at h
  cases hs : scene.overrideSurface with
  | none =>
    rw [hs] at h
    cases h
  | some s => rfl

/-- The rendered frame is sent. -/
theorem Settled.sendFrame {m : World x pf} {results : RenderResults}
    (h : Accounted (free m) (slots [frame] + slots (frames m))) (hslot : ∃ i, frame.consumed = .slot i)
    (hnone : m.compositor.rendering = none) (halive : m.receiverAlive = w.receiverAlive)
    (hb : results.bind = true) (hs : results.spaceElements = true) (ho : results.renderOutput ≠ .failed) :
    Settled (m.sendFrame frame) (RenderLeaks w results) := by
  cases hw : w.receiverAlive with
  | false =>
    rw [sendFrame_gone (halive.trans hw)]
    exact .of_dropped h hslot ⟨hb, .inr (.inr hw)⟩
  | true =>
    refine .of_inv ⟨accounted_sendFrame (halive.trans hw) h, fun r hr => ?_⟩ ?_
    · cases (rendering_sendFrame m frame).symm.trans hr |>.symm.trans hnone
    · rintro ⟨-, hleaks | hleaks | hleaks⟩
      · cases hs.symm.trans hleaks
      · exact ho hleaks
      · cases hw.symm.trans hleaks

theorem Inv.finishRender (h : Inv w) {r : Rendering} (hr : w.compositor.rendering = some r)
    (results : RenderResults) : Settled (w.finishRender r results) (RenderLeaks w results) := by
  have hslot := h.rendering r hr
  have haccounted := h.accounted
  unfold World.finishRender
  generalize hm : ({ w with compositor := { w.compositor with rendering := none } } : World x pf) = m
  have hnone : m.compositor.rendering = none := by rw [← hm]
  have halive : m.receiverAlive = w.receiverAlive := by rw [← hm]
  have hdropped : Accounted (free m) (slots [r.frame] + slots (frames m)) := by
    rw [← slots_cons, ← hm]
    unfold frames at haccounted ⊢
    rw [hr] at haccounted
    exact haccounted
  dsimp only
  cases hb : results.bind with
  | false =>
    refine .of_inv ⟨accounted_store hdropped, fun r' hr' => ?_⟩ fun hleaks => ?_
    · cases hnone.symm.trans hr'
    · cases hb.symm.trans hleaks.1
  | true =>
    cases hs : results.spaceElements with
    | false => exact .of_dropped hdropped hslot ⟨hb, .inl hs⟩
    | true =>
      have hsome : (r.scene.isOverrideActive && r.scene.overrideSurface.isNone) = false := by
        cases ha : r.scene.isOverrideActive with
        | false => rfl
        | true => exact overrideSurface_of_isOverrideActive ha
      rw [hsome]
      cases ho : results.renderOutput with
      | failed => exact .of_dropped hdropped hslot ⟨hb, .inr (.inl ho)⟩
      | rendered => exact .sendFrame hdropped hslot hnone halive hb hs (by rw [ho]; decide)
      | noMode => exact .sendFrame hdropped hslot hnone halive hb hs (by rw [ho]; decide)

end Compositor

/-! ## The encode loop's side -/

section EncodeLoop

variable {cfg : Config} {gpu : Gpu} {l : Locals pf} {ctx : VideoStreamContext}

/-- A converter for the frame is there, or can be made. -/
def HasConverter (l : Locals pf) (gpu : Gpu) (frame : ExportedFrame) : Prop :=
  (∃ converter, l.colorConverter = some converter ∧ converter.inputFormat = (drmFourccToInput frame.format).1) ∨
    gpu.converterNew = true

/-- The frame gets to a switch of the encoder's description, which fails; or it
has no planes. -/
def AbandonsFrame (ctx : VideoStreamContext) (l : Locals pf) (gpu : Gpu) (frame : ExportedFrame) : Prop :=
  (l.dmabufImporter = true ∨ gpu.importerNew = true) ∧
    (frame.planes = [] ∨
      gpu.importOrReuse.isSome ∧ HasConverter l gpu frame ∧ ctx.dynamicRange = .hdr ∧
        l.encoderColorDesc ≠ some (chosen pf ctx frame.colorSpace) ∧ gpu.setColorDescription = false)

theorem ensureImporter_eq_none :
    l.ensureImporter gpu = none ↔ ¬(l.dmabufImporter = true ∨ gpu.importerNew = true) := by
  unfold Locals.ensureImporter
  split
  · simp [*]
  · split <;> simp [*]

theorem ensureConverter_eq_none {inputFormat : InputFormat} :
    (l.dropConverter inputFormat).ensureConverter ctx gpu inputFormat = none ↔
      ¬((∃ converter, l.colorConverter = some converter ∧ converter.inputFormat = inputFormat) ∨
        gpu.converterNew = true) := by
  unfold Locals.ensureConverter Locals.dropConverter
  cases hc : l.colorConverter with
  | none => cases hn : gpu.converterNew <;> simp [hc]
  | some converter =>
    by_cases hf : converter.inputFormat = inputFormat
    · simp [hc, hf]
    · cases hn : gpu.converterNew <;> simp [hf]

theorem encoderColorDesc_dropConverter (inputFormat : InputFormat) :
    (l.dropConverter inputFormat).encoderColorDesc = l.encoderColorDesc := by
  obtain ⟨converter, hdrop⟩ := EncodeLoop.dropConverter_eq (l := l) inputFormat
  rw [hdrop]

theorem switchColors_eq_none {converter : ColorConverter} : l.switchColors ctx gpu frame converter = none ↔
    ctx.dynamicRange = .hdr ∧ l.encoderColorDesc ≠ some (chosen pf ctx frame.colorSpace) ∧
      gpu.setColorDescription = false := by
  unfold Locals.switchColors
  cases ctx.dynamicRange with
  | sdr => simp
  | hdr =>
    by_cases hdesc : l.encoderColorDesc = some (frameColors pf ctx frame.colorSpace).description
    · simp [chosen, hdesc]
    · cases hset : gpu.setColorDescription <;> simp [chosen, hdesc]

theorem consumed_convertFrame (converter : ColorConverter) :
    (l.convertFrame ctx gpu frame converter).2.consumed = true := by
  unfold Locals.convertFrame
  split
  · rfl
  · unfold Locals.submitFrame
    split <;> rfl

/-- The exits that leave the flag of the frame as it is. -/
theorem consumed_eq_false : (l.processFrame ctx gpu frame).2.consumed = false ↔ AbandonsFrame ctx l gpu frame := by
  unfold Locals.processFrame AbandonsFrame
  cases himporter : l.ensureImporter gpu with
  | none => simp [ensureImporter_eq_none.mp himporter]
  | some l₁ =>
    have hnew : l.dmabufImporter = true ∨ gpu.importerNew = true := by
      by_contra hnew
      cases himporter.symm.trans (ensureImporter_eq_none.mpr hnew)
    obtain ⟨importer, rfl⟩ := EncodeLoop.ensureImporter_cases himporter
    rw [and_iff_right hnew]
    cases frame.planes with
    | nil => simp
    | cons plane planes =>
      cases gpu.importOrReuse with
      | none => simp
      | some needsTransition =>
        dsimp only
        cases hensure : Locals.ensureConverter ctx gpu ({ l with dmabufImporter := importer }.dropConverter
            (drmFourccToInput frame.format).1) (drmFourccToInput frame.format).1 with
        | none =>
          have hno := ensureConverter_eq_none.mp hensure
          replace hno : ¬HasConverter l gpu frame := hno
          simp [hno]
        | some result =>
          have hhas : HasConverter l gpu frame := by
            by_contra hno
            cases hensure.symm.trans (ensureConverter_eq_none.mpr hno)
          obtain ⟨converter, l₂⟩ := result
          have hdesc : l₂.encoderColorDesc = l.encoderColorDesc := by
            rw [EncodeLoop.ensureConverter_cases hensure]
            exact encoderColorDesc_dropConverter _
          dsimp only
          cases hswitch : Locals.switchColors ctx gpu frame l₂ converter with
          | none =>
            have hfails := switchColors_eq_none.mp hswitch
            rw [hdesc] at hfails
            simp [hhas, hfails]
          | some switched =>
            have hfails := mt switchColors_eq_none.mpr (by rw [hswitch]; simp)
            rw [hdesc] at hfails
            simp [consumed_convertFrame, hhas, hfails]

theorem consumed_withPipeline {w w' : EncodeLoop.World x pf} {a : Pipeline.Action}
    (h : w.withPipeline cfg a = some w') : w'.consumed = w.consumed := by
  obtain ⟨p, -, rfl⟩ := EncodeLoop.withPipeline_eq_some h
  rfl

theorem consumed_step {w w' : EncodeLoop.World x pf} {a : EncodeLoop.Action}
    (ha : ∀ frame gpu, a ≠ .frame frame gpu) (h : EncodeLoop.step cfg w a = some w') : w'.consumed = w.consumed := by
  cases a with
  | pipeline a =>
    cases a with
    | receive received => cases h
    | _ => exact consumed_withPipeline h
  | timeout encode =>
    have h : w.timeout cfg encode = some w' := h
    unfold EncodeLoop.World.timeout at h
    dsimp only at h
    obtain ⟨p, -, rfl⟩ := EncodeLoop.withPipeline_eq_some h
    rfl
  | disconnected => exact consumed_withPipeline h
  | frame frame gpu => exact absurd rfl (ha frame gpu)

/-- The flag of a frame is stored unless the loop ends without. -/
theorem consumed_frame {w w' : EncodeLoop.World x pf} (h : w.frame cfg frame gpu = some w') :
    (w.pipeline.inFlight < maxFramesInFlight ∧ AbandonsFrame cfg.context w.locals gpu frame ∧
        w'.consumed = w.consumed) ∨
      ¬(w.pipeline.inFlight < maxFramesInFlight ∧ AbandonsFrame cfg.context w.locals gpu frame) ∧
        w'.consumed = Function.update w.consumed frame.consumed true := by
  unfold EncodeLoop.World.frame at h
  split at h
  · rename_i hfull
    exact .inr ⟨fun hno => absurd hno.1 (Nat.not_lt.mpr hfull), consumed_withPipeline h⟩
  · rename_i hroom
    dsimp only at h
    have hkept := consumed_withPipeline h
    split at hkept
    · rename_i hstored
      refine .inr ⟨fun hno => ?_, hkept⟩
      cases hstored.symm.trans (consumed_eq_false.mpr hno.2)
    · rename_i hnot
      exact .inl ⟨Nat.not_le.mp hroom, consumed_eq_false.mp (Bool.eq_false_of_not_eq_true hnot), hkept⟩

variable {w w' : World x pf}

theorem Inv.withEncoder (h : Inv w) {a : EncodeLoop.Action} (ha : ∀ frame gpu, a ≠ .frame frame gpu)
    (hw : w.withEncoder cfg a = some w') : Inv w' := by
  obtain ⟨e, he, rfl⟩ := Option.map_eq_some_iff.mp hw
  exact h.congr (consumed_step ha he) rfl rfl rfl

/-- The frame in the loop's hands is let go of. -/
theorem Inv.accounted_inHand (h : Inv w) (hhand : w.inHand = some frame) :
    Accounted (free w) (slots [frame] + slots (frames { w with inHand := none })) := by
  have haccounted := h.accounted
  unfold frames at haccounted ⊢
  rw [hhand, Option.toList_some, slots_append, slots_append, ← Multiset.add_assoc,
    Multiset.add_comm _ (slots [frame]), Multiset.add_assoc, ← slots_append] at haccounted
  exact haccounted

def ofPool (frame : ExportedFrame) : Prop := ∃ i, frame.consumed = .slot i

/-- The loop ends with a frame of the pool in its hands. -/
def ProcessLeaks (cfg : Config) (w : World x pf) (gpu : Gpu) : Prop :=
  ∃ frame, w.inHand = some frame ∧ ofPool frame ∧
    w.encoder.pipeline.inFlight < maxFramesInFlight ∧ AbandonsFrame cfg.context w.encoder.locals gpu frame

theorem Inv.processFrame (h : Inv w) (hhand : w.inHand = some frame) {e : EncodeLoop.World x pf}
    (he : w.encoder.frame cfg frame gpu = some e) :
    Settled { w with encoder := e, inHand := none } (ProcessLeaks cfg w gpu) := by
  have haccounted := h.accounted_inHand hhand
  rcases consumed_frame he with ⟨hroom, habandons, hkept⟩ | ⟨hnot, hstored⟩
  · have hfree : free { w with encoder := e, inHand := none } = free w :=
      funext fun i => congrFun hkept (.slot i)
    rw [← hfree] at haccounted
    cases hflag : frame.consumed with
    | slot i => exact .of_dropped haccounted ⟨i, hflag⟩ ⟨frame, hhand, ⟨i, hflag⟩, hroom, habandons⟩
    | scanout n =>
      rw [slots_scanout hflag, Multiset.zero_add] at haccounted
      refine .of_inv ⟨haccounted, h.rendering⟩ ?_
      rintro ⟨frame', hhand', ⟨i, hi⟩, -⟩
      cases hhand.symm.trans hhand'
      cases hflag.symm.trans hi
  · have hfree : free { w with encoder := e, inHand := none } = free (w.store frame.consumed true) :=
      funext fun i => congrFun hstored (.slot i)
    refine .of_inv ⟨?_, h.rendering⟩ ?_
    · rw [hfree]
      exact accounted_store haccounted
    · rintro ⟨frame', hhand', -, hleaks⟩
      cases hhand.symm.trans hhand'
      exact hnot hleaks

theorem Inv.dropReceiver (h : Inv w) (hhand : w.inHand = none) :
    Settled { w with channel := [], receiverAlive := false } (∃ frame ∈ w.channel, ofPool frame) := by
  have haccounted := h.accounted
  unfold frames at haccounted
  rw [hhand, Option.toList_none, List.nil_append, slots_append, Multiset.add_comm] at haccounted
  have hrest : frames { w with channel := [], receiverAlive := false } =
      (w.compositor.rendering.map (·.frame)).toList := by
    unfold frames
    rw [hhand]
    exact List.append_nil _
  have hfree : free { w with channel := [], receiverAlive := false } = free w := rfl
  refine ⟨?_, fun hno => ⟨?_, h.rendering⟩⟩
  · rw [hfree, hrest, haccounted.noLeak_iff]
    exact slots_eq_zero_iff
  · rw [slots_eq_zero_iff.mpr hno, Multiset.zero_add] at haccounted
    rw [hfree, hrest]
    exact haccounted

end EncodeLoop

/-! ## Runs -/

section Runs

variable {cfg : Config} {w w' : World x pf}

/-- The steps that let go of a frame of the pool and leave its flag as it is. -/
def Leaks (cfg : Config) (w : World x pf) : Action → Prop
  | .finishRender results => RenderLeaks w results
  | .processFrame gpu => ProcessLeaks cfg w gpu
  | .dropReceiver => ∃ frame ∈ w.channel, ofPool frame
  | _ => False

theorem Inv.step (h : Inv w) {a : Action} (hw : step cfg w a = some w') : Settled w' (Leaks cfg w a) := by
  cases a with
  | renderAndExport scene =>
    obtain ⟨hidle, ⟨⟩⟩ := Option.ite_none_right_eq_some.mp hw
    exact .of_inv (h.renderAndExport (Option.isNone_iff_eq_none.mp hidle.2) scene) id
  | finishRender results =>
    obtain ⟨r, hr, rfl⟩ := Option.map_eq_some_iff.mp hw
    exact h.finishRender hr results
  | stopCompositor =>
    obtain ⟨-, ⟨⟩⟩ := Option.ite_none_right_eq_some.mp hw
    exact .of_inv (h.congr rfl rfl rfl rfl) id
  | pipeline a => exact .of_inv (h.withEncoder (fun _ _ hc => by cases hc) hw) id
  | receiveFrame =>
    obtain ⟨hready, hw⟩ := Option.ite_none_right_eq_some.mp hw
    split at hw <;> cases hw
    rename_i frame channel hchannel
    refine .of_inv ⟨?_, h.rendering⟩ id
    have haccounted := h.accounted
    unfold frames at haccounted ⊢
    rw [hready.2.2, hchannel] at haccounted
    exact haccounted
  | processFrame gpu =>
    obtain ⟨frame, hhand, hw⟩ := Option.bind_eq_some_iff.mp hw
    obtain ⟨e, he, rfl⟩ := Option.map_eq_some_iff.mp hw
    exact h.processFrame hhand he
  | timeout encode =>
    obtain ⟨-, hw⟩ := Option.ite_none_right_eq_some.mp hw
    exact .of_inv (h.withEncoder (fun _ _ hc => by cases hc) hw) id
  | disconnected =>
    obtain ⟨-, hw⟩ := Option.ite_none_right_eq_some.mp hw
    exact .of_inv (h.withEncoder (fun _ _ hc => by cases hc) hw) id
  | dropReceiver =>
    obtain ⟨hstopped, ⟨⟩⟩ := Option.ite_none_right_eq_some.mp hw
    exact h.dropReceiver hstopped.2

end Runs

/-! ## The result -/

/-- Every slot that is not free is held by a frame. -/
def NoSlotLeaked (w : World x pf) : Prop :=
  ∀ i, w.consumed (.slot i) = false → ∃ f ∈ frames w, f.consumed = .slot i

/-- If the next slot is busy, it is for a frame that holds it. -/
def SkipsForFrame (w : World x pf) : Action → Prop
  | .renderAndExport _ => w.consumed (.slot w.compositor.nextBufferIndex) = false →
      ∃ f ∈ frames w, f.consumed = .slot w.compositor.nextBufferIndex
  | _ => True

theorem noSlotLeaked_iff {w : World x pf} : NoSlotLeaked w ↔ NoLeak (free w) (slots (frames w)) :=
  forall_congr' fun _ => imp_congr_right fun _ => mem_slots.symm

theorem inv_start (cfg : Config) (width height : UInt32) (bufferPool : Fin bufferPoolSize → Dmabuf) :
    Inv (World.start x pf cfg (.new width height bufferPool)) where
  accounted := .empty
  rendering r hr := by cases hr

/-- A run of the compositor and the encode loop leaks no slot exactly if none of
its steps lets go of a frame of the pool and leaves its flag as it is. -/
theorem no_slot_leaked_iff (cfg : Config) (width height : UInt32) (bufferPool : Fin bufferPoolSize → Dmabuf)
    (as : List Action) :
    EveryStep (step cfg) (fun w a w' => NoSlotLeaked w' ∧ SkipsForFrame w a)
        (World.start x pf cfg (.new width height bufferPool)) as ↔
      EveryStep (step cfg) (fun w a _ => ¬Leaks cfg w a)
        (World.start x pf cfg (.new width height bufferPool)) as := by
  refine EveryStep.iff_of_inv (fun w a w' h hw => ?_) (fun w a w' h hw => (h.step hw).inv)
    (inv_start cfg width height bufferPool) as
  have hskips : SkipsForFrame w a := by
    cases a with
    | renderAndExport scene => exact noSlotLeaked_iff.mpr h.accounted.noLeak _
    | _ => trivial
  rw [and_iff_left hskips, noSlotLeaked_iff]
  exact (h.step hw).noLeak_iff

/-- Nothing to scan out, and a renderer that cannot list the elements. -/
def composed : Scene := ⟨false, false, false, false, [], none, none⟩

def noElements : RenderResults := ⟨true, false, .rendered⟩

def plainDmabuf : Dmabuf := ⟨[⟨3, 0, 64⟩], 0x34324241, 0, 16, 16⟩

/-- The first slot is neither free nor held once the elements were not to be had. -/
theorem elements_leak_slot :
    ∃ w, exec (step EncodeLoop.hdrConfig)
        (World.start Packetizer.repetition EncodeLoop.pqAndRange EncodeLoop.hdrConfig
          (.new 16 16 fun _ => plainDmabuf))
        [.renderAndExport composed, .finishRender noElements] = some w ∧ ¬NoSlotLeaked w := by
  refine ⟨_, rfl, fun h => ?_⟩
  obtain ⟨f, hf, -⟩ := h 0 rfl
  cases hf

end Moonshine.Proof.Export
