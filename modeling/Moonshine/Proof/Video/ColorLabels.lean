import Moonshine.Impl.Video.EncodeLoop
import Moonshine.Proof.Video.Epochs

/-!
# The colours of an encoded frame

In a session with HDR the encoder's description is switched for a frame before
its pixels are converted. So the description is that of the last frame that came
to the converter (`described`), the input image that of the last one that was
converted (`imageSpace`), and the two differ while a conversion has failed since.
What a frame does to the locals is said once (`processFrame_cases`); `Tracks` is
kept by each of its cases. A re-encode of the input image is labelled with its
colours exactly if the frame whose conversion failed needs the same description
(`encoded_labelled_iff`).
-/

namespace Moonshine.Proof.EncodeLoop

open Moonshine.Framework Moonshine.Impl Moonshine.Impl.EncodeLoop
open Moonshine.Impl.Packetizer (Crates)

variable {x : Crates} {pf : Pixelforge} {ctx : VideoStreamContext} {gpu : Gpu} {frame : ExportedFrame}
  {l : Locals pf}

/-! ## Descriptions -/

/-- The description for frames of a colour space. -/
def chosen (pf : Pixelforge) (ctx : VideoStreamContext) (space : FrameColorSpace) : pf.ColorDescription :=
  (frameColors pf ctx space).description

theorem isHdr_chosen (space : FrameColorSpace) : pf.isHdr (chosen pf ctx space) = decide (space ≠ .srgb) := by
  cases space with
  | srgb => exact pf.isHdr_bt709 _
  | bt2020Pq => exact pf.isHdr_bt2020Pq _
  | scrgbLinear => exact pf.isHdr_bt2020Pq _

theorem chosen_eq_iff {space space' : FrameColorSpace} :
    chosen pf ctx space = chosen pf ctx space' ↔ (space = .srgb ↔ space' = .srgb) := by
  constructor
  · intro h
    have h := congrArg pf.isHdr h
    rw [isHdr_chosen, isHdr_chosen, decide_eq_decide] at h
    exact not_iff_not.mp h
  · intro h
    cases space <;> cases space' <;> first | rfl | simp at h

/-- The colour space that the converter is set to for them. -/
def convertedTo (pf : Pixelforge) (ctx : VideoStreamContext) (space : FrameColorSpace) : ColorSpace :=
  (frameColors pf ctx space).colorSpace

/-! ## What a frame does -/

/-- After the colour switch. -/
def switched (ctx : VideoStreamContext) (frame : ExportedFrame) (l : Locals pf) (importer : Bool)
    (converter : ColorConverter) : Locals pf :=
  { l with
    dmabufImporter := importer
    colorConverter := some converter
    encoderColorDesc := some (chosen pf ctx frame.colorSpace)
    description := chosen pf ctx frame.colorSpace }

/-- After the conversion. -/
def convertedLocals (ctx : VideoStreamContext) (frame : ExportedFrame) (l : Locals pf) (importer : Bool)
    (converter : ColorConverter) : Locals pf :=
  { switched ctx frame l importer converter with
    inputImage := some ⟨frame, converter⟩
    failedConversion := none }

/-- The frame does not get as far as the colours, or its conversion fails, or it
is converted and encoded. -/
inductive Processed (ctx : VideoStreamContext) (gpu : Gpu) (frame : ExportedFrame) (l : Locals pf) :
    Locals pf × Exit → Prop
  | early (importer : Bool) (converter : Option ColorConverter) (exit : Exit)
      (hexit : exit.captured = .skipped ∨ exit.captured = .fatal) :
      Processed ctx gpu frame l ({ l with dmabufImporter := importer, colorConverter := converter }, exit)
  | failed (importer : Bool) (converter : ColorConverter) (exit : Exit)
      (hexit : exit.captured = .skipped ∨ exit.captured = .fatal) :
      Processed ctx gpu frame l
        ({ switched ctx frame l importer converter with failedConversion := some frame.colorSpace }, exit)
  | converted (importer : Bool) (converter : ColorConverter)
      (hset : converter.colorSpace = convertedTo pf ctx frame.colorSpace) :
      Processed ctx gpu frame l ((convertedLocals ctx frame l importer converter).submitFrame ctx gpu frame)

theorem ensureImporter_cases {l' : Locals pf} (h : l.ensureImporter gpu = some l') :
    ∃ importer, l' = { l with dmabufImporter := importer } := by
  unfold Locals.ensureImporter at h
  split at h
  · exact ⟨l.dmabufImporter, (Option.some.inj h).symm⟩
  · split at h
    · exact ⟨true, (Option.some.inj h).symm⟩
    · cases h

theorem dropConverter_eq (inputFormat : InputFormat) :
    ∃ converter, l.dropConverter inputFormat = { l with colorConverter := converter } := by
  unfold Locals.dropConverter
  split
  · split
    · exact ⟨none, rfl⟩
    · exact ⟨l.colorConverter, rfl⟩
  · exact ⟨l.colorConverter, rfl⟩

theorem ensureConverter_cases {inputFormat : InputFormat} {converter : ColorConverter} {l' : Locals pf}
    (h : l.ensureConverter ctx gpu inputFormat = some (converter, l')) :
    l' = { l with colorConverter := some converter } := by
  unfold Locals.ensureConverter at h
  split at h
  · rename_i hconverter
    cases h
    rw [← hconverter]
  · split at h
    · cases h
      rfl
    · cases h

/-- In HDR mode the switch sets both sides for the frame, or ends the loop. -/
theorem switchColors_cases {converter converter' : ColorConverter} {l' : Locals pf}
    (h : l.switchColors ctx gpu frame converter = some (converter', l')) (hhdr : ctx.dynamicRange = .hdr)
    (hdesc : l.encoderColorDesc = some l.description) :
    l' = switched ctx frame l l.dmabufImporter converter' ∧
      converter'.colorSpace = convertedTo pf ctx frame.colorSpace := by
  unfold Locals.switchColors at h
  rw [hhdr] at h
  dsimp only at h
  split at h
  · split at h
    · cases h
      exact ⟨rfl, rfl⟩
    · cases h
  · rename_i hsame
    have hsame := not_not.mp hsame
    cases h
    refine ⟨?_, rfl⟩
    have hchosen : l.description = chosen pf ctx frame.colorSpace := Option.some.inj (hdesc.symm.trans hsame)
    unfold switched
    rw [← hchosen, ← hdesc]

/-- Everything that the handling of a frame can do. -/
theorem processFrame_cases (gpu : Gpu) (frame : ExportedFrame) (hhdr : ctx.dynamicRange = .hdr)
    (hdesc : l.encoderColorDesc = some l.description) :
    Processed ctx gpu frame l (l.processFrame ctx gpu frame) := by
  unfold Locals.processFrame
  cases himporter : l.ensureImporter gpu with
  | none => exact .early l.dmabufImporter l.colorConverter _ (.inl rfl)
  | some l₁ =>
    obtain ⟨importer, rfl⟩ := ensureImporter_cases himporter
    cases frame.planes with
    | nil => exact .early importer l.colorConverter _ (.inr rfl)
    | cons plane planes =>
      cases gpu.importOrReuse with
      | none => exact .early importer l.colorConverter _ (.inl rfl)
      | some needsTransition =>
        dsimp only
        obtain ⟨kept, hkept⟩ := dropConverter_eq (l := { l with dmabufImporter := importer })
          (drmFourccToInput frame.format).1
        rw [hkept]
        split
        · exact .early importer kept _ (.inl rfl)
        · rename_i converter l₂ hensure
          obtain rfl := ensureConverter_cases hensure
          split
          · exact .early importer (some converter) _ (.inr rfl)
          · rename_i converter' l₃ hswitch
            obtain ⟨rfl, hset⟩ := switchColors_cases hswitch hhdr hdesc
            unfold Locals.convertFrame
            split
            · refine .failed importer converter' _ ?_
              dsimp only
              split
              · exact .inr rfl
              · exact .inl rfl
            · exact .converted importer converter' hset

theorem submitFrame_fst : (l.submitFrame ctx gpu frame).1 =
    (l.publish ctx frame).encode (some frame.bufferIndex) gpu.encode := by
  unfold Locals.submitFrame
  split <;> rfl

theorem publish_kept (ctx : VideoStreamContext) (frame : ExportedFrame) (l : Locals pf) :
    (l.publish ctx frame).inputImage = l.inputImage ∧ (l.publish ctx frame).description = l.description := by
  unfold Locals.publish
  split
  · exact ⟨rfl, rfl⟩
  · dsimp only
    split <;> exact ⟨rfl, rfl⟩

/-! ## Labels -/

/-- A call of `encode` whose image, context and published state agree with the
encoder's description. -/
structure Labelled (ctx : VideoStreamContext) (call : EncodeCall pf) : Prop where
  description : call.image.map (fun image => chosen pf ctx image.frame.colorSpace) = some call.description
  converted : call.image.map (·.converter.colorSpace) =
    call.image.map fun image => convertedTo pf ctx image.frame.colorSpace
  context : ∀ context ∈ call.context, context.injectHdr = pf.isHdr call.description
  published : call.published.enabled = pf.isHdr call.description

def imageSpace (l : Locals pf) : Option FrameColorSpace := l.inputImage.map (·.frame.colorSpace)

theorem imageSpace_publish (importer : Bool) (converter : ColorConverter) :
    imageSpace ((convertedLocals ctx frame l importer converter).publish ctx frame) = some frame.colorSpace := by
  rw [imageSpace, (publish_kept ctx frame _).1]
  rfl

/-- The colour space of the last frame that came to the converter. -/
def described (l : Locals pf) : Option FrameColorSpace := l.failedConversion.or (imageSpace l)

/-- Before the first conversion the loop takes for published what the session
was negotiated with. -/
structure Tracks (cfg : Config) (l : Locals pf) : Prop where
  encoderColorDesc : l.encoderColorDesc = some l.description
  description : l.description = (described l).elim (initialDescription pf cfg.context) (chosen pf cfg.context)
  converted : l.inputImage.map (·.converter.colorSpace) =
    l.inputImage.map fun image => convertedTo pf cfg.context image.frame.colorSpace
  unpublished : imageSpace l = none → l.lastHdrState = .new true ∧ l.published = .new cfg.launchedHdr
  published : ∀ space, imageSpace l = some space →
    l.published = l.lastHdrState ∧ l.published.enabled = pf.isHdr (chosen pf cfg.context space)
  calls : ∀ call ∈ l.encodeCalls, Labelled cfg.context call

section Tracks

variable {cfg : Config}

theorem tracks_start (hhdr : cfg.context.dynamicRange = .hdr) :
    Tracks cfg (Locals.start pf cfg.context cfg.launchedHdr) where
  encoderColorDesc := rfl
  description := rfl
  converted := rfl
  unpublished _ := ⟨by simp only [Locals.start, hhdr]; rfl, rfl⟩
  published space h := by cases h
  calls call h := absurd h List.not_mem_nil

theorem isHdr_eq (h : l.encoderColorDesc = some l.description) : l.isHdr = pf.isHdr l.description := by
  unfold Locals.isHdr
  rw [h]
  rfl

/-- A call is labelled if the description is that of the image. -/
theorem Tracks.labelled_iff (h : Tracks cfg l) {space : FrameColorSpace} (hspace : imageSpace l = some space)
    (bufferIndex : Option Nat) (result : Except PixelForgeError Unit) :
    Labelled cfg.context (l.encodeCall bufferIndex result) ↔ l.description = chosen pf cfg.context space := by
  have himage : l.inputImage.map (fun image => chosen pf cfg.context image.frame.colorSpace) =
      some (chosen pf cfg.context space) := by
    have := congrArg (Option.map (chosen pf cfg.context)) hspace
    rwa [imageSpace, Option.map_map] at this
  constructor
  · intro hl
    exact Option.some.inj (hl.description.symm.trans himage)
  · intro hdesc
    refine ⟨himage.trans (congrArg some hdesc.symm), h.converted, fun context hcontext => ?_, ?_⟩
    · have hsome : some (l.frameContext bufferIndex) = some context := by
        simp only [Locals.encodeCall, Option.mem_def] at hcontext
        split at hcontext
        · exact hcontext
        · cases hcontext
      cases hsome
      exact isHdr_eq h.encoderColorDesc
    · exact (h.published space hspace).2.trans (congrArg pf.isHdr hdesc.symm)

theorem Tracks.encode (h : Tracks cfg l) {bufferIndex : Option Nat} {result : Except PixelForgeError Unit}
    (hl : Labelled cfg.context (l.encodeCall bufferIndex result)) : Tracks cfg (l.encode bufferIndex result) where
  encoderColorDesc := h.encoderColorDesc
  description := h.description
  converted := h.converted
  unpublished := h.unpublished
  published := h.published
  calls call hcall := by
    rcases List.mem_append.mp hcall with hcall | hcall
    · exact h.calls call hcall
    · rw [List.mem_singleton.mp hcall]
      exact hl

/-- After the publication the control stream has the state of the frame. -/
theorem publish_eq (hhdr : ctx.dynamicRange = .hdr)
    (h : l.published = l.lastHdrState ∨ l.isHdr ≠ l.lastHdrState.enabled) :
    l.publish ctx frame =
      { l with lastHdrState := ⟨l.isHdr, frame.hdrMetadata⟩, published := ⟨l.isHdr, frame.hdrMetadata⟩ } := by
  unfold Locals.publish
  rw [hhdr]
  dsimp only
  split
  · rfl
  · rename_i hsame
    have hsame := not_not.mp hsame
    have hpublished : l.published = l.lastHdrState := by
      rcases h with h | h
      · exact h
      · exact absurd (congrArg HdrModeState.enabled hsame) h
    rw [hsame]
    exact congrArg (fun state : HdrModeState => { l with published := state }) hpublished

/-- A converted frame, before it is encoded. -/
theorem Tracks.convert (h : Tracks cfg l) (hhdr : cfg.context.dynamicRange = .hdr) (hexports : cfg.exports frame)
    (importer : Bool) {converter : ColorConverter}
    (hset : converter.colorSpace = convertedTo pf cfg.context frame.colorSpace) :
    Tracks cfg ((convertedLocals cfg.context frame l importer converter).publish cfg.context frame) := by
  rw [publish_eq hhdr]
  · refine ⟨rfl, rfl, congrArg some hset, fun hnone => (by cases hnone), fun space hspace => ?_, h.calls⟩
    cases hspace
    exact ⟨rfl, rfl⟩
  · cases hspace : imageSpace l with
    | some space => exact .inl (h.published space hspace).1
    | none =>
      obtain ⟨hlast, hpublished⟩ := h.unpublished hspace
      cases hlaunched : cfg.launchedHdr with
      | true => exact .inl (hpublished.trans (hlast.trans (congrArg _ hlaunched.symm)).symm)
      | false =>
        have hsrgb : frame.colorSpace = .srgb := by
          simpa [Config.exports, hlaunched] using hexports
        refine .inr ?_
        show pf.isHdr (chosen pf cfg.context frame.colorSpace) ≠ l.lastHdrState.enabled
        rw [isHdr_chosen, hsrgb, hlast]
        decide

theorem Tracks.processFrame (h : Tracks cfg l) (hhdr : cfg.context.dynamicRange = .hdr)
    (hexports : cfg.exports frame) : Tracks cfg (l.processFrame cfg.context gpu frame).1 := by
  have hcases := processFrame_cases gpu frame hhdr h.encoderColorDesc
  generalize l.processFrame cfg.context gpu frame = result at hcases ⊢
  cases hcases with
  | early importer converter exit hexit =>
    exact ⟨h.encoderColorDesc, h.description, h.converted, h.unpublished, h.published, h.calls⟩
  | failed importer converter exit hexit =>
    exact ⟨rfl, rfl, h.converted, h.unpublished, h.published, h.calls⟩
  | converted importer converter hset =>
    rw [submitFrame_fst]
    have hconvert := h.convert hhdr hexports importer hset
    have hdesc := (publish_kept cfg.context frame (convertedLocals cfg.context frame l importer converter)).2
    exact hconvert.encode ((hconvert.labelled_iff (imageSpace_publish importer converter) _ _).mpr hdesc)

/-- An image of the frame is there before it counts as encoded. -/
theorem imageSpace_processFrame (gpu : Gpu) (frame : ExportedFrame) (hhdr : ctx.dynamicRange = .hdr)
    (hdesc : l.encoderColorDesc = some l.description) :
    ((l.processFrame ctx gpu frame).2.captured = .skipped ∨ (l.processFrame ctx gpu frame).2.captured = .fatal) ∧
        imageSpace (l.processFrame ctx gpu frame).1 = imageSpace l ∨
      imageSpace (l.processFrame ctx gpu frame).1 = some frame.colorSpace := by
  have hcases := processFrame_cases gpu frame hhdr hdesc
  generalize l.processFrame ctx gpu frame = result at hcases ⊢
  cases hcases with
  | early importer converter exit hexit => exact .inl ⟨hexit, rfl⟩
  | failed importer converter exit hexit => exact .inl ⟨hexit, rfl⟩
  | converted importer converter hset =>
    rw [submitFrame_fst]
    exact .inr (imageSpace_publish importer converter)

end Tracks

/-! ## Runs -/

theorem hasEncoded_foldl_invalidate (requests : List (Option (UInt32 × UInt32))) (s : Pipeline.State x) :
    (requests.foldl Pipeline.invalidate s).loop.hasEncoded = s.loop.hasEncoded := by
  induction requests generalizing s with
  | nil => rfl
  | cons request requests ih =>
    rw [List.foldl_cons, ih]
    cases request <;> rfl

section Pipeline

variable {s s' : Pipeline.State x}

/-- Only a frame that came to the encoder changes it. -/
theorem hasEncoded_receive (received : Pipeline.Received) :
    (Pipeline.receive s received).loop.hasEncoded = s.loop.hasEncoded ∨
      ∃ captured, received = .frame captured ∧ captured ≠ .skipped ∧ captured ≠ .fatal := by
  cases received with
  | timeout encoded =>
    unfold Pipeline.receive
    dsimp only
    split <;> exact .inl rfl
  | disconnected => exact .inl rfl
  | frame captured =>
    cases captured with
    | skipped | fatal =>
      unfold Pipeline.receive
      dsimp only
      split <;> exact .inl rfl
    | encodeFailed | encoded => exact .inr ⟨_, rfl, by decide, by decide⟩

theorem hasEncoded_send (hs : Pipeline.send s = some s') : s'.loop.hasEncoded = s.loop.hasEncoded := by
  unfold Pipeline.send at hs
  split at hs
  · cases hs
  · dsimp only at hs
    split at hs
    · cases hs
      split <;> rfl
    · obtain ⟨-, ⟨⟩⟩ := Option.ite_none_right_eq_some.mp hs
      rfl

theorem hasEncoded_take (hs : Pipeline.take s = some s') : s'.loop.hasEncoded = s.loop.hasEncoded := by
  unfold Pipeline.take at hs
  split at hs <;> cases hs <;> rfl

theorem hasEncoded_finish {cfg : Pipeline.Config} {readBack : Pipeline.ReadBack} {keys : SessionKeyData}
    {latency : UInt16} {networkOpen : Bool}
    (hs : Pipeline.finish cfg readBack keys latency networkOpen s = some s') :
    s'.loop.hasEncoded = s.loop.hasEncoded := by
  unfold Pipeline.finish at hs
  split at hs
  · dsimp only at hs
    split at hs <;> cases hs <;> rfl
  · cases hs

theorem hasEncoded_step {cfg : Pipeline.Config} {a : Pipeline.Action} (hs : Pipeline.step cfg s a = some s') :
    s'.loop.hasEncoded = s.loop.hasEncoded ∨
      ∃ captured, a = .receive (.frame captured) ∧ captured ≠ .skipped ∧ captured ≠ .fatal := by
  cases a with
  | shutdown =>
    obtain ⟨-, rfl⟩ := Pipeline.atPhase_eq_some hs
    exact .inl rfl
  | drainResets pending =>
    obtain ⟨-, rfl⟩ := Pipeline.atPhase_eq_some hs
    cases pending <;> exact .inl rfl
  | drainIdrRequests pending =>
    obtain ⟨-, rfl⟩ := Pipeline.atPhase_eq_some hs
    cases pending <;> exact .inl rfl
  | drainInvalidations requests =>
    obtain ⟨-, rfl⟩ := Pipeline.atPhase_eq_some hs
    exact .inl (hasEncoded_foldl_invalidate requests s)
  | receive received =>
    obtain ⟨-, rfl⟩ := Pipeline.atPhase_eq_some hs
    refine (hasEncoded_receive received).imp_right ?_
    rintro ⟨captured, rfl, hcaptured⟩
    exact ⟨captured, rfl, hcaptured⟩
  | send => exact .inl (hasEncoded_send hs)
  | take => exact .inl (hasEncoded_take hs)
  | finish readBack keys latency networkOpen => exact .inl (hasEncoded_finish hs)

end Pipeline

section Runs

variable {cfg : Config} {w w' : World x pf}

structure Inv (cfg : Config) (w : World x pf) : Prop where
  tracks : Tracks cfg w.locals
  encoded : w.pipeline.loop.hasEncoded = true → (imageSpace w.locals).isSome

theorem withPipeline_eq_some {a : Pipeline.Action} (h : w.withPipeline cfg a = some w') :
    ∃ p, Pipeline.step cfg.pipeline w.pipeline a = some p ∧ w' = { w with pipeline := p } := by
  obtain ⟨p, hp, hw⟩ := Option.map_eq_some_iff.mp h
  exact ⟨p, hp, hw.symm⟩

theorem Inv.withPipeline (h : Inv cfg w) {a : Pipeline.Action} (hw : w.withPipeline cfg a = some w')
    (ha : ∀ captured, a = .receive (.frame captured) → captured = .skipped ∨ captured = .fatal) : Inv cfg w' := by
  obtain ⟨p, hp, rfl⟩ := withPipeline_eq_some hw
  refine ⟨h.tracks, fun hencoded => ?_⟩
  rcases hasEncoded_step hp with hsame | ⟨captured, hframe, hskipped, hfatal⟩
  · exact h.encoded (hsame.symm.trans hencoded)
  · rcases ha captured hframe with hc | hc
    · exact absurd hc hskipped
    · exact absurd hc hfatal

/-- The end of the body, for a frame that was handled. -/
theorem Inv.processed (h : Inv cfg w) (hhdr : cfg.context.dynamicRange = .hdr) (hexports : cfg.exports frame)
    {m : World x pf} (hpipeline : m.pipeline = w.pipeline)
    (hlocals : m.locals = (w.locals.processFrame cfg.context gpu frame).1)
    (hw : m.withPipeline cfg (.receive (.frame (w.locals.processFrame cfg.context gpu frame).2.captured)) =
      some w') : Inv cfg w' := by
  obtain ⟨p, hp, rfl⟩ := withPipeline_eq_some hw
  rw [hpipeline] at hp
  refine ⟨hlocals ▸ h.tracks.processFrame hhdr hexports, fun hencoded => ?_⟩
  show (imageSpace m.locals).isSome
  rw [hlocals]
  rcases imageSpace_processFrame gpu frame hhdr h.tracks.encoderColorDesc with ⟨hexit, hsame⟩ | hframe
  · rw [hsame]
    rcases hasEncoded_step hp with hkept | ⟨captured, hc, hskipped, hfatal⟩
    · exact h.encoded (hkept.symm.trans hencoded)
    · cases hc
      exact (hexit.elim hskipped hfatal).elim
  · rw [hframe]
    rfl

theorem Inv.captured (h : Inv cfg w) (hhdr : cfg.context.dynamicRange = .hdr) (hexports : cfg.exports frame)
    (hw : w.frame cfg frame gpu = some w') : Inv cfg w' := by
  unfold World.frame at hw
  split at hw
  · have hstored : Inv cfg (w.store frame.consumed) := ⟨h.tracks, h.encoded⟩
    exact hstored.withPipeline hw fun captured hc => .inl (by cases hc; rfl)
  · dsimp only at hw
    refine h.processed hhdr hexports ?_ ?_ hw
    · split <;> rfl
    · split <;> rfl

/-- A re-encode does not come after a frame that needs another description and
was not converted. -/
def Steady (w : World x pf) : Action → Prop
  | .timeout _ => w.reencodes → ∀ space ∈ w.locals.failedConversion, ∀ image ∈ w.locals.inputImage,
      (space = .srgb ↔ image.frame.colorSpace = .srgb)
  | _ => True

/-- Every call so far is labelled. -/
def AllLabelled (cfg : Config) (w : World x pf) : Prop := ∀ call ∈ w.locals.encodeCalls, Labelled cfg.context call

/-- The description is that of the image unless a conversion for another one has
failed since. -/
theorem Tracks.description_eq_iff {l : Locals pf} (h : Tracks cfg l) {space : FrameColorSpace}
    (hspace : imageSpace l = some space) : l.description = chosen pf cfg.context space ↔
      ∀ failed ∈ l.failedConversion, ∀ image ∈ l.inputImage,
        (failed = .srgb ↔ image.frame.colorSpace = .srgb) := by
  obtain ⟨image, himage, hs⟩ := Option.map_eq_some_iff.mp hspace
  rw [h.description, described, hspace]
  cases hfailed : l.failedConversion with
  | none => simp
  | some failed =>
    rw [himage]
    simp only [Option.some_or, Option.elim_some, Option.mem_some_iff, forall_eq', hs]
    exact chosen_eq_iff

theorem Inv.timeout_iff (h : Inv cfg w) {encode : Except PixelForgeError Unit}
    (hw : w.timeout cfg encode = some w') :
    (AllLabelled cfg w' ↔ Steady w (.timeout encode)) ∧ (Steady w (.timeout encode) → Inv cfg w') := by
  unfold World.timeout at hw
  cases hre : w.reencodes with
  | false =>
    rw [hre] at hw
    have hinv := Inv.withPipeline h hw fun captured hc => by cases hc
    have hsteady : Steady w (.timeout encode) := fun hr => absurd (hre.symm.trans hr) (by decide)
    exact ⟨⟨fun _ => hsteady, fun _ => hinv.tracks.calls⟩, fun _ => hinv⟩
  | true =>
    rw [hre] at hw
    have hencoded : w.pipeline.loop.hasEncoded = true := (Bool.and_eq_true_iff.mp hre).2
    obtain ⟨space, hspace⟩ := Option.isSome_iff_exists.mp (h.encoded hencoded)
    have hiff : Labelled cfg.context (w.locals.encodeCall none encode) ↔ Steady w (.timeout encode) := by
      rw [h.tracks.labelled_iff hspace, h.tracks.description_eq_iff hspace]
      exact ⟨fun hl _ => hl, fun hs => hs hre⟩
    have hlocals : w'.locals = w.locals.encode none encode := by
      obtain ⟨p, -, rfl⟩ := withPipeline_eq_some hw
      rfl
    refine ⟨⟨fun hall => hiff.mp (hall _ ?_), fun hs call hcall => ?_⟩, fun hs => ?_⟩
    · rw [hlocals]
      exact List.mem_append_right _ List.mem_cons_self
    · rw [hlocals] at hcall
      exact (h.tracks.encode (hiff.mpr hs)).calls call hcall
    · have hnext : Inv cfg { w with locals := w.locals.encode none encode } :=
        ⟨h.tracks.encode (hiff.mpr hs), h.encoded⟩
      exact hnext.withPipeline hw fun captured hc => by cases hc

/-- One step: under the invariant it is labelled exactly if it is steady. -/
theorem Inv.step (h : Inv cfg w) (hhdr : cfg.context.dynamicRange = .hdr) {a : Action}
    (hw : step cfg w a = some w') :
    (AllLabelled cfg w' ↔ Steady w a) ∧ (Steady w a → Inv cfg w') := by
  have hof (hinv : Inv cfg w') (hsteady : Steady w a) :
      (AllLabelled cfg w' ↔ Steady w a) ∧ (Steady w a → Inv cfg w') :=
    ⟨⟨fun _ => hsteady, fun _ => hinv.tracks.calls⟩, fun _ => hinv⟩
  cases a with
  | pipeline a =>
    cases a with
    | receive received => cases hw
    | _ => exact hof (h.withPipeline hw fun captured hc => by cases hc) trivial
  | timeout encode => exact h.timeout_iff hw
  | disconnected => exact hof (h.withPipeline hw fun captured hc => by cases hc) trivial
  | frame frame gpu =>
    simp only [EncodeLoop.step] at hw
    split at hw
    · rename_i hexports
      exact hof (h.captured hhdr hexports hw) trivial
    · cases hw

end Runs

/-! ## The result -/

/-- In a session with HDR every encoded frame is labelled, in every run, unless
an IDR re-encodes the input image after a failed switch of the colours. -/
theorem encoded_labelled_iff (cfg : Config) (hhdr : cfg.context.dynamicRange = .hdr) (as : List Action) :
    EveryStep (step cfg) (fun _ _ w' => AllLabelled cfg w') (World.start x pf cfg) as ↔
      EveryStep (step cfg) (fun w a _ => Steady w a) (World.start x pf cfg) as := by
  have hstart : Inv cfg (World.start x pf cfg) := ⟨tracks_start hhdr, fun h => by cases h⟩
  exact EveryStep.iff_of_inv (fun _ _ _ h hs => (h.step hhdr hs).1)
    (fun _ _ _ h hs => (h.step hhdr hs).2) hstart as

/-! ## Runs of three frames -/

instance (w : World x pf) : (a : Action) → Decidable (Steady w a)
  | .pipeline _ => .isTrue trivial
  | .timeout _ => inferInstanceAs (Decidable (_ → ∀ space ∈ w.locals.failedConversion,
      ∀ image ∈ w.locals.inputImage, (space = .srgb ↔ image.frame.colorSpace = .srgb)))
  | .disconnected => .isTrue trivial
  | .frame _ _ => .isTrue trivial

/-- Descriptions by their two flags. -/
def pqAndRange : Pixelforge where
  ColorDescription := Bool × Bool
  decidableEq := inferInstance
  bt709 := (false, false)
  bt2020Pq := (true, false)
  withFullRange description fullRange := (description.1, fullRange)
  isHdr := Prod.fst
  isHdr_bt709 _ := rfl
  isHdr_bt2020Pq _ := rfl

def hdrConfig : Config where
  pipeline :=
    { context := { (default : VideoStreamContext) with fps := 60, packetSize := 32, dynamicRange := .hdr }
      fecPercentage := 0 }
  launchedHdr := true

def frameIn (space : FrameColorSpace) : ExportedFrame where
  planes := [⟨3, 0, 64⟩]
  format := 0x34324241
  modifier := 0
  width := 16
  height := 16
  bufferIndex := 0
  consumed := .slot 0
  colorSpace := space
  hdrMetadata := none

def working : Gpu := ⟨true, some true, true, true, .ok (), .ok ()⟩

/-- The conversion fails, but not for the loss of the device. -/
def notConverting : Gpu := { working with convert := .error (.vulkan (-3)) }

/-- One turn of the loop. -/
def turn (idr : Bool) (a : Action) : List Action :=
  [.pipeline (.drainResets false), .pipeline (.drainIdrRequests idr), .pipeline (.drainInvalidations []), a]

/-- A PQ frame, a frame that is not converted, and an IDR that re-encodes. -/
def reencodeAfter (space : FrameColorSpace) : List Action :=
  turn false (.frame (frameIn .bt2020Pq) working) ++ [.pipeline .send] ++
    turn false (.frame (frameIn space) notConverting) ++ turn true (.timeout (.ok ()))

theorem encoded_labelled_scrgb :
    EveryStep (step hdrConfig) (fun _ _ w' => AllLabelled hdrConfig w')
      (World.start Packetizer.repetition pqAndRange hdrConfig) (reencodeAfter .scrgbLinear) :=
  (encoded_labelled_iff hdrConfig rfl (reencodeAfter .scrgbLinear)).mpr (by decide)

/-- The key frame has the pixels of the PQ frame and the label of the other. -/
theorem keyframe_mislabelled :
    ∃ w, exec (step hdrConfig) (World.start Packetizer.repetition pqAndRange hdrConfig)
        (reencodeAfter .srgb) = some w ∧
      ∃ call ∈ w.locals.encodeCalls, call.context.isSome ∧ ¬Labelled hdrConfig.context call :=
  ⟨_, rfl, _, List.mem_cons_of_mem _ List.mem_cons_self, rfl, fun h => absurd h.description (by decide)⟩

end Moonshine.Proof.EncodeLoop
