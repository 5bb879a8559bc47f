import Moonshine.Impl.Video.ImportLoop
import Moonshine.Proof.Video.ColorLabels
import Moonshine.Proof.Video.ImageCache

/-!
# The layouts of imported images

The importer takes an image to be in the general layout where it is cached, but only
a conversion that succeeds brings it there. Each image is imported by one frame
(`Inv`). Where that frame was given up, and the loop went on (`Strands`), a frame that
reuses the image is converted from the wrong layout. Where no frame does so, images
are converted from the layout that they are in: `layouts_unless_stranded`.
-/

namespace Moonshine.Proof.ImportLoop

open Moonshine.Framework Moonshine.Impl Moonshine.Impl.ImportLoop
open Moonshine.Impl.DmaBuf (CachedImport DmaBufImporter Device)
open Moonshine.Impl.EncodeLoop (PixelForgeError Pixelforge Locals Gpu InputFormat ColorConverter drmFourccToInput
  frameColors isDeviceLost)
open Moonshine.Impl.Packetizer (Crates)
open Moonshine.Impl.Pipeline (Captured maxFramesInFlight)
open Moonshine.Proof.DmaBuf (cached_of_importOrReuse importNew_eq importOrReuse_spec touches_of_perm noProperties)
open Moonshine.Proof.EncodeLoop (ensureImporter_cases dropConverter_eq ensureConverter_cases pqAndRange hdrConfig
  withPipeline_eq_some frameIn working notConverting)

variable {x : Crates} {pf : Pixelforge}

/-- The frame was converted from the undefined layout. -/
def Converted (f : ImportedFrame) : Prop := f.layout = .undefined ∧ f.convert = some (.ok ())

/-- What is claimed of the frame of a step, if it comes to `convert`. -/
structure FromItsLayout (frames : List ImportedFrame) (f : ImportedFrame) : Prop where
  general : f.layout = .general → ∃ g ∈ frames, g.image = f.image ∧ Converted g
  undefined : f.layout = .undefined → ∀ g ∈ frames, g.image = f.image → g.convert ≠ some (.ok ())

def InLayouts (w : World x pf) (_ : Action) (w' : World x pf) : Prop :=
  ∀ f, w'.frames = w.frames ++ [f] → f.convert.isSome = true → FromItsLayout w.frames f

/-- The frame that the image was imported for was given up, or its conversion failed. -/
def GivenUp (frames : List ImportedFrame) (image : Nat) : Prop :=
  ∃ g ∈ frames, g.image = image ∧ g.layout = .undefined ∧ g.convert ≠ some (.ok ())

/-- A frame comes to `convert` with a cached image that was given up before. -/
def ReusesGivenUp (cfg : EncodeLoop.Config) (w : World x pf) : Action → Prop
  | .loop _ => False
  | .frame frame gpu call => w.loop.pipeline.inFlight < maxFramesInFlight ∧
      ∃ l plane rest c, w.loop.locals.ensureImporter gpu = some l ∧ frame.planes = plane :: rest ∧
        (w.importer.sweep call.sweepAt w.device).1.reusable (request frame plane call) = some c ∧
        (convertCall cfg.context gpu frame l).isSome = true ∧ GivenUp w.frames c.image

/-- There is no converter for the frame, and none can be created. -/
def LacksConverter (gpu : Gpu) (frame : ExportedFrame) (l : Locals pf) : Prop :=
  (l.dropConverter (drmFourccToInput frame.format).1).colorConverter = none ∧ gpu.converterNew = false

/-- The encoder's description is another one than that of the frame, and cannot be changed: the loop ends. -/
def SwitchFails (ctx : VideoStreamContext) (gpu : Gpu) (frame : ExportedFrame) (l : Locals pf) : Prop :=
  ctx.dynamicRange = .hdr ∧ l.encoderColorDesc ≠ some (frameColors pf ctx frame.colorSpace).description ∧
    gpu.setColorDescription = false

/-- A frame for which a new image is imported is given up, and the loop goes on: no converter can be
created, or `convert` fails, but not because the device is lost. -/
def Strands (cfg : EncodeLoop.Config) (w : World x pf) : Action → Prop
  | .loop _ => False
  | .frame frame gpu call => w.loop.pipeline.inFlight < maxFramesInFlight ∧
      ∃ l plane rest image, w.loop.locals.ensureImporter gpu = some l ∧ frame.planes = plane :: rest ∧
        (w.importer.importOrReuse (request frame plane call) w.device).1 = .ok (image, true) ∧
        (LacksConverter gpu frame l ∨
          ¬SwitchFails cfg.context gpu frame l ∧ ∃ e, gpu.convert = .error e ∧ isDeviceLost e = false)

/-! ## The calls of `convert` -/

section Calls

variable {ctx : VideoStreamContext} {gpu : Gpu} {frame : ExportedFrame} {l l' : Locals pf}

theorem ensureConverter_eq_none {inputFormat : InputFormat} :
    l.ensureConverter ctx gpu inputFormat = none ↔ l.colorConverter = none ∧ gpu.converterNew = false := by
  unfold Locals.ensureConverter
  cases l.colorConverter with
  | some converter => simp
  | none => cases gpu.converterNew <;> simp

theorem switchColors_eq_none {converter : ColorConverter} :
    l.switchColors ctx gpu frame converter = none ↔ SwitchFails ctx gpu frame l := by
  unfold Locals.switchColors SwitchFails
  cases ctx.dynamicRange with
  | sdr => simp
  | hdr =>
    dsimp only
    by_cases hsame : l.encoderColorDesc = some (frameColors pf ctx frame.colorSpace).description
    · simp [hsame]
    · cases gpu.setColorDescription <;> simp [hsame]

/-- How far a frame that is imported gets, and what becomes of the loop. -/
inductive Handled (ctx : VideoStreamContext) (gpu : Gpu) (frame : ExportedFrame) (l : Locals pf) : Captured → Prop
  | lacksConverter (h : LacksConverter gpu frame l) (hcall : convertCall ctx gpu frame l = none) :
    Handled ctx gpu frame l .skipped
  | switchFails (hlacks : ¬LacksConverter gpu frame l) (h : SwitchFails ctx gpu frame l)
      (hcall : convertCall ctx gpu frame l = none) : Handled ctx gpu frame l .fatal
  | failed {e : PixelForgeError} (hlacks : ¬LacksConverter gpu frame l) (hswitch : ¬SwitchFails ctx gpu frame l)
      (hconvert : gpu.convert = .error e) (hcall : convertCall ctx gpu frame l = some (.error e)) :
    Handled ctx gpu frame l (if isDeviceLost e then .fatal else .skipped)
  | converted (captured : Captured) (hlacks : ¬LacksConverter gpu frame l) (hconvert : gpu.convert = .ok ())
      (hcall : convertCall ctx gpu frame l = some (.ok ())) : Handled ctx gpu frame l captured

/-- A frame that is imported is converted as `convertCall` says. -/
theorem handled_processFrame {needsTransition : Bool} (himporter : l.ensureImporter gpu = some l')
    (hplanes : frame.planes ≠ []) (himport : gpu.importOrReuse = some needsTransition) :
    Handled ctx gpu frame l' (l.processFrame ctx gpu frame).2.captured := by
  unfold Locals.processFrame
  rw [himporter]
  cases hp : frame.planes with
  | nil => exact absurd hp hplanes
  | cons plane planes =>
    rw [himport]
    dsimp only
    obtain ⟨kept, hkept⟩ := dropConverter_eq (l := l') (drmFourccToInput frame.format).1
    cases hensure : (l'.dropConverter (drmFourccToInput frame.format).1).ensureConverter ctx gpu
        (drmFourccToInput frame.format).1 with
    | none =>
      refine .lacksConverter (ensureConverter_eq_none.mp hensure) ?_
      rw [convertCall]
      dsimp only
      rw [hensure]
      rfl
    | some made =>
      obtain ⟨converter, l₂⟩ := made
      have hlacks : ¬LacksConverter gpu frame l' := fun h => by
        rw [ensureConverter_eq_none.mpr h] at hensure
        cases hensure
      obtain rfl := ensureConverter_cases hensure
      have hdesc : SwitchFails ctx gpu frame
          { l'.dropConverter (drmFourccToInput frame.format).1 with colorConverter := some converter } ↔
            SwitchFails ctx gpu frame l' := by
        rw [hkept]
        exact Iff.rfl
      dsimp only
      cases hswitch : Locals.switchColors ctx gpu frame
          { l'.dropConverter (drmFourccToInput frame.format).1 with colorConverter := some converter } converter with
      | none =>
        refine .switchFails hlacks (hdesc.mp (switchColors_eq_none.mp hswitch)) ?_
        rw [convertCall]
        dsimp only
        rw [hensure, Option.bind_eq_bind, Option.bind_some]
        dsimp only
        rw [hswitch]
        rfl
      | some switched =>
        have hcall : convertCall ctx gpu frame l' = some gpu.convert := by
          rw [convertCall]
          dsimp only
          rw [hensure, Option.bind_eq_bind, Option.bind_some]
          dsimp only
          rw [hswitch]
          rfl
        have hswitches : ¬SwitchFails ctx gpu frame l' := fun h => by
          rw [switchColors_eq_none.mpr (hdesc.mpr h)] at hswitch
          cases hswitch
        dsimp only
        cases hconvert : gpu.convert with
        | error e =>
          rw [hconvert] at hcall
          have hcaptured := Handled.failed hlacks hswitches hconvert hcall
          rw [Locals.convertFrame, hconvert]
          exact hcaptured
        | ok u => exact .converted _ hlacks hconvert (hconvert ▸ hcall)

end Calls

/-! ## What an import returns -/

section Import

variable {i : DmaBufImporter} {d : Device} {q : DmaBuf.Request} {image : Nat}

/-- An image that is not cached was not there. -/
theorem fresh_of_importOrReuse (h : (i.importOrReuse q d).1 = .ok (image, true)) :
    image = d.images ∧ image < (i.importOrReuse q d).2.2.images ∧
      (i.sweep q.sweepAt d).1.reusable q = none := by
  obtain ⟨gone, hs, hcase⟩ := importOrReuse_spec q i d
  rcases hcase with ⟨c, rest, -, -, -, hout, -⟩ | ⟨hreusable, entries, -, hf⟩
  · rw [hout] at h
    cases h
  · rcases hf.out with ⟨⟨e, hout⟩, -⟩ | ⟨c, hout, hentries, himage, -⟩
    · rw [hout] at h
      cases h
    · rw [hout] at h
      obtain ⟨rfl, -⟩ := Prod.mk.inj (Except.ok.inj h)
      obtain ⟨es, made, -, -, himages, hacquired, -, hperm⟩ := hf.log
      have hlen := hperm.length_eq
      simp only [hentries, hacquired, List.length_append, List.length_map, List.length_cons,
        List.length_replicate] at hlen
      rw [hs.images] at himage himages
      exact ⟨himage, by omega, hreusable⟩

theorem importOrReuse_of_reusable {c : CachedImport} (h : (i.sweep q.sweepAt d).1.reusable q = some c) :
    (i.importOrReuse q d).1 = .ok (c.image, false) := by
  obtain ⟨gone, -, hcase⟩ := importOrReuse_spec q i d
  rcases hcase with ⟨c', rest, hreusable, -, -, hout, -⟩ | ⟨hreusable, -⟩
  · obtain rfl := Option.some.inj (h.symm.trans hreusable)
    exact hout
  · rw [h] at hreusable
    cases hreusable

/-- What was imported is in the cache under its file descriptor. -/
theorem get?_of_importOrReuse (h : (i.importOrReuse q d).1 = .ok (image, true)) :
    ∃ c, (i.importOrReuse q d).2.1.cache.get? q.fd = some c ∧ c.image = image ∧ c.params = q.params ∧
      c.file = q.file ∧ c.lastUsed = q.now := by
  obtain ⟨-, -, hnone⟩ := fresh_of_importOrReuse h
  rw [DmaBufImporter.importOrReuse] at h ⊢
  generalize i.sweep q.sweepAt d = swept at h hnone ⊢
  obtain ⟨i, d⟩ := swept
  dsimp only at h hnone ⊢
  rw [hnone] at h ⊢
  dsimp only at h ⊢
  cases hclone : q.tryClone with
  | error e =>
    rw [DmaBufImporter.importNew, hclone] at h
    cases h
  | ok u =>
    rw [importNew_eq hclone] at h ⊢
    split at h
    · cases h
    · cases h
      exact ⟨_, (HashMap.get?_insert ..).trans (if_pos rfl), rfl, rfl, rfl, rfl⟩

/-- The same buffer again, before the entry has expired. -/
theorem reusable_of_importOrReuse {q' : DmaBuf.Request} (h : (i.importOrReuse q d).1 = .ok (image, true))
    (hfd : q'.fd = q.fd) (hparams : q'.params = q.params) (hfile : q'.file = q.file) (hsweep : q'.sweepAt ≤ q.now)
    (d' : Device) : ∃ c, ((i.importOrReuse q d).2.1.sweep q'.sweepAt d').1.reusable q' = some c ∧ c.image = image := by
  obtain ⟨c, hget, himage, hparams', hfile', hlast⟩ := get?_of_importOrReuse h
  generalize (i.importOrReuse q d).2.1 = i' at hget ⊢
  have hkept : (i'.sweep q'.sweepAt d').1.cache.get? q'.fd = some c := by
    rw [hfd]
    unfold DmaBufImporter.sweep
    dsimp only
    split
    · refine HashMap.get?_retain hget ?_
      rw [DmaBufImporter.isExpired, hlast, decide_eq_false (by omega)]
      rfl
    · exact hget
  refine ⟨c, ?_, himage⟩
  rw [DmaBufImporter.reusable, hkept, Option.filter_some, if_pos]
  simp [hparams, hparams', hfile, hfile', CachedImport.isSameBuffer]

/-- Every entry was there before, or is what the import returns. -/
theorem entries_importOrReuse (q : DmaBuf.Request) (i : DmaBufImporter) (d : Device) :
    d.images ≤ (i.importOrReuse q d).2.2.images ∧ ∀ c' ∈ (i.importOrReuse q d).2.1.entries,
      (∃ c ∈ i.entries, c.image = c'.image) ∨ (i.importOrReuse q d).1 = .ok (c'.image, true) := by
  obtain ⟨gone, hs, hcase⟩ := importOrReuse_spec q i d
  rw [← hs.images]
  rcases hcase with ⟨c, rest, -, hold, hnew, -, hdevice⟩ | ⟨-, entries, ht, hf⟩
  · rw [hdevice]
    refine ⟨le_rfl, fun c' hc' => .inl ?_⟩
    obtain ⟨c₀, hc₀, himage, -⟩ := (touches_of_perm hold hnew).mem c' hc'
    exact ⟨c₀, hs.mem c₀ hc₀, himage.symm⟩
  · obtain ⟨es, made, -, -, himages, -⟩ := hf.log
    refine ⟨by omega, fun c' hc' => ?_⟩
    have hkept : c' ∈ entries → ∃ c ∈ i.entries, c.image = c'.image := fun hmem => by
      obtain ⟨c₀, hc₀, himage, -⟩ := ht.mem c' hmem
      exact ⟨c₀, hs.mem c₀ hc₀, himage.symm⟩
    rcases hf.out with ⟨-, hentries⟩ | ⟨c, hout, hentries, -⟩
    · rw [hentries] at hc'
      exact .inl (hkept hc')
    · rw [hentries] at hc'
      rcases List.mem_cons.mp hc' with rfl | hmem
      · exact .inr hout
      · exact .inl (hkept hmem)

end Import

theorem srcLayout_eq_undefined {needsTransition : Bool} :
    srcLayout needsTransition = .undefined ↔ needsTransition = true := by
  cases needsTransition <;> simp [srcLayout]

/-! ## Runs of the loop -/

/-- Each image was imported by one frame, and what the importer has was imported. -/
structure Inv (w : World x pf) : Prop where
  lt : ∀ f ∈ w.frames, f.image < w.device.images
  once : w.frames.Pairwise fun f g => f.layout = .undefined → g.layout = .undefined → f.image ≠ g.image
  imported : ∀ c ∈ w.importer.entries, ∃ f ∈ w.frames, f.image = c.image ∧ f.layout = .undefined

theorem inv_start (cfg : EncodeLoop.Config) : Inv (World.start x pf cfg) where
  lt _ h := absurd h List.not_mem_nil
  once := .nil
  imported _ h := absurd h List.not_mem_nil

section Step

variable {cfg : EncodeLoop.Config} {w w' : World x pf} {a : Action}

/-- A step imports no frame, or one. -/
inductive Stepped (cfg : EncodeLoop.Config) (w : World x pf) (a : Action) (w' : World x pf) : Prop
  | quiet (hnot : ¬ReusesGivenUp cfg w a) (himages : w.device.images ≤ w'.device.images)
      (hentries : ∀ c' ∈ w'.importer.entries, ∃ c ∈ w.importer.entries, c.image = c'.image)
      (hframes : w'.frames = w.frames)
  | imported {frame : ExportedFrame} {gpu : Gpu} {call : ImportCall} {l : Locals pf} {plane : ExportedPlane}
      {rest : List ExportedPlane} {image : Nat} {needsTransition : Bool} (hact : a = .frame frame gpu call)
      (hroom : w.loop.pipeline.inFlight < maxFramesInFlight)
      (hensure : w.loop.locals.ensureImporter gpu = some l) (hplanes : frame.planes = plane :: rest)
      (hout : (w.importer.importOrReuse (request frame plane call) w.device).1 = .ok (image, needsTransition))
      (himporter : w'.importer = (w.importer.importOrReuse (request frame plane call) w.device).2.1)
      (hdevice : w'.device = (w.importer.importOrReuse (request frame plane call) w.device).2.2)
      (hframes : w'.frames =
        w.frames ++ [⟨image, srcLayout needsTransition, convertCall cfg.context gpu frame l⟩])
      {captured : Captured} (hidle : w.loop.pipeline.loop.phase = .receive ∧ w.loop.pipeline.loop.outbox = none)
      (hhandled : Handled cfg.context { gpu with importOrReuse := some needsTransition } frame l captured)
      (hpipeline : w'.loop.pipeline = Pipeline.receive w.loop.pipeline (.frame captured))

/-- The end of the loop's body, for a frame that is not dropped for backpressure. -/
theorem frame_eq_some {loop loop' : EncodeLoop.World x pf} {frame : ExportedFrame} {gpu : Gpu}
    (hroom : loop.pipeline.inFlight < maxFramesInFlight) (h : loop.frame cfg frame gpu = some loop') :
    (loop.pipeline.loop.phase = .receive ∧ loop.pipeline.loop.outbox = none) ∧ loop'.pipeline =
      Pipeline.receive loop.pipeline (.frame (loop.locals.processFrame cfg.context gpu frame).2.captured) := by
  rw [EncodeLoop.World.frame, if_neg (by omega)] at h
  dsimp only at h
  obtain ⟨p, hp, rfl⟩ := withPipeline_eq_some h
  split at hp <;> exact (Option.ite_none_right_eq_some.mp hp).imp_right fun heq => (Option.some.inj heq).symm

theorem stepped_withLoop {loop : Option (EncodeLoop.World x pf)} (hnot : ¬ReusesGivenUp cfg w a)
    (h : w.withLoop loop = some w') : Stepped cfg w a w' := by
  obtain ⟨m, -, rfl⟩ := Option.map_eq_some_iff.mp h
  exact .quiet hnot le_rfl (fun c hc => ⟨c, hc, rfl⟩) rfl

theorem stepped_importFrame {frame : ExportedFrame} {gpu : Gpu} {call : ImportCall} {l : Locals pf}
    {plane : ExportedPlane} {rest : List ExportedPlane} (hroom : w.loop.pipeline.inFlight < maxFramesInFlight)
    (hensure : w.loop.locals.ensureImporter gpu = some l) (hplanes : frame.planes = plane :: rest)
    (h : w.importFrame cfg frame gpu l (request frame plane call) = some w') :
    Stepped cfg w (.frame frame gpu call) w' := by
  obtain ⟨himages, hentries⟩ := entries_importOrReuse (request frame plane call) w.importer w.device
  obtain ⟨m, hm, rfl⟩ := Option.map_eq_some_iff.mp h
  cases hout : (w.importer.importOrReuse (request frame plane call) w.device).1 with
  | error e =>
    refine .quiet ?_ himages (fun c' hc' => ?_) ?_
    · rintro ⟨-, l', plane', rest', c, -, hplanes', hreusable, -⟩
      obtain ⟨rfl, -⟩ := List.cons.inj (hplanes.symm.trans hplanes')
      rw [importOrReuse_of_reusable hreusable] at hout
      cases hout
    · rcases hentries c' hc' with hold | hnew
      · exact hold
      · rw [hout] at hnew
        cases hnew
    · exact List.append_nil w.frames
  | ok returned =>
    obtain ⟨image, needsTransition⟩ := returned
    rw [hout] at hm
    obtain ⟨hidle, hpipeline⟩ := frame_eq_some hroom hm
    have hplanes' : frame.planes ≠ [] := by rw [hplanes]; exact List.cons_ne_nil _ _
    exact .imported rfl hroom hensure hplanes hout rfl rfl rfl hidle (handled_processFrame hensure hplanes' rfl) hpipeline

theorem stepped_of_step (h : step cfg w a = some w') : Stepped cfg w a w' := by
  cases a with
  | loop a =>
    cases a with
    | frame frame gpu => cases h
    | pipeline a => exact stepped_withLoop (fun hnot => hnot) h
    | timeout encode => exact stepped_withLoop (fun hnot => hnot) h
    | disconnected => exact stepped_withLoop (fun hnot => hnot) h
  | frame frame gpu call =>
    have hframe : w.frame cfg frame gpu call = some w' := (Option.ite_none_right_eq_some.mp h).2
    unfold World.frame at hframe
    split at hframe
    · rename_i hfull
      refine stepped_withLoop ?_ hframe
      rintro ⟨hroom, -⟩
      omega
    · rename_i hroom
      split at hframe
      · rename_i l plane rest hensure hplanes
        exact stepped_importFrame (by omega) hensure hplanes hframe
      · rename_i hnone
        refine stepped_withLoop ?_ hframe
        rintro ⟨-, l, plane, rest, c, hensure, hplanes, -⟩
        exact hnone l plane rest hensure hplanes

theorem inv_step (h : Inv w) (hs : step cfg w a = some w') : Inv w' := by
  cases stepped_of_step hs with
  | quiet _ himages hentries hframes =>
    refine ⟨?_, ?_, fun c' hc' => ?_⟩
    · rw [hframes]
      exact fun f hf => lt_of_lt_of_le (h.lt f hf) himages
    · rw [hframes]
      exact h.once
    · obtain ⟨c, hc, himage⟩ := hentries c' hc'
      rw [hframes, ← himage]
      exact h.imported c hc
  | @imported frame gpu call l plane rest image needsTransition _ _ _ _ hout himporter hdevice hframes =>
    obtain ⟨himages, hentries⟩ := entries_importOrReuse (request frame plane call) w.importer w.device
    rw [← hdevice] at himages
    rw [← himporter] at hentries
    have hfresh : needsTransition = true → image = w.device.images ∧ image < w'.device.images := by
      rintro rfl
      rw [hdevice]
      exact ⟨(fresh_of_importOrReuse hout).1, (fresh_of_importOrReuse hout).2.1⟩
    have hlt : image < w'.device.images := by
      cases needsTransition with
      | true => exact (hfresh rfl).2
      | false =>
        obtain ⟨c, hc, -, rfl⟩ := cached_of_importOrReuse hout
        obtain ⟨f, hf, himage, -⟩ := h.imported c hc
        have hold := h.lt f hf
        omega
    refine ⟨?_, ?_, fun c' hc' => ?_⟩
    · rw [hframes]
      refine List.forall_mem_append.mpr ⟨fun f hf => ?_, List.forall_mem_singleton.mpr hlt⟩
      exact lt_of_lt_of_le (h.lt f hf) himages
    · rw [hframes]
      refine List.pairwise_append.mpr ⟨h.once, List.pairwise_singleton _ _, fun f hf g hg _ hundefined' => ?_⟩
      obtain rfl := List.mem_singleton.mp hg
      have himage := (hfresh (srcLayout_eq_undefined.mp hundefined')).1
      have hold := h.lt f hf
      show f.image ≠ image
      omega
    · rw [hframes]
      rcases hentries c' hc' with ⟨c, hc, himage⟩ | hnew
      · obtain ⟨f, hf, hf'⟩ := h.imported c hc
        exact ⟨f, List.mem_append_left _ hf, hf'.1.trans himage, hf'.2⟩
      · rw [hout] at hnew
        obtain ⟨rfl, rfl⟩ := Prod.mk.inj (Except.ok.inj hnew)
        exact ⟨_, List.mem_append_right _ List.mem_cons_self, rfl, rfl⟩

/-- The frame that an image was imported for is the only one. -/
theorem converted_iff (h : Inv w) {c : CachedImport} (hc : c ∈ w.importer.entries) :
    (∃ g ∈ w.frames, g.image = c.image ∧ Converted g) ↔ ¬GivenUp w.frames c.image := by
  obtain ⟨f, hf, himage, hundefined⟩ := h.imported c hc
  have honly : ∀ g ∈ w.frames, g.image = c.image → g.layout = .undefined → g = f := by
    intro g hg himage' hundefined'
    by_contra hne
    have hsymm : Std.Symm fun f g : ImportedFrame =>
        f.layout = .undefined → g.layout = .undefined → f.image ≠ g.image :=
      ⟨fun _ _ h hg hf => (h hf hg).symm⟩
    exact h.once.forall hg hf hne hundefined' hundefined (himage'.trans himage.symm)
  constructor
  · rintro ⟨g, hg, himage', hundefined', hconvert⟩ ⟨g', hg', himage'', hundefined'', hfailed⟩
    rw [honly g' hg' himage'' hundefined'', ← honly g hg himage' hundefined'] at hfailed
    exact hfailed hconvert
  · intro hkept
    refine ⟨f, hf, himage, hundefined, ?_⟩
    by_contra hfailed
    exact hkept ⟨f, hf, himage, hundefined, hfailed⟩

theorem inLayouts_step_iff (h : Inv w) (hs : step cfg w a = some w') :
    InLayouts w a w' ↔ ¬ReusesGivenUp cfg w a := by
  cases stepped_of_step hs with
  | quiet hnot _ _ hframes =>
    refine iff_of_true (fun f hnew => ?_) hnot
    rw [hframes] at hnew
    exact absurd hnew (by simp)
  | @imported frame gpu call l plane rest image needsTransition hact hroom hensure hplanes hout _ _ hframes =>
    subst hact
    have hnew : InLayouts w (.frame frame gpu call) w' ↔ ((convertCall cfg.context gpu frame l).isSome = true →
        FromItsLayout w.frames ⟨image, srcLayout needsTransition, convertCall cfg.context gpu frame l⟩) := by
      unfold InLayouts
      rw [hframes]
      simp
    rw [hnew]
    cases needsTransition with
    | true =>
      obtain ⟨himage, -, hnone⟩ := fresh_of_importOrReuse hout
      refine iff_of_true (fun _ => ⟨fun hgeneral => (by cases hgeneral), fun _ g hg hsame => ?_⟩) ?_
      · have hold := h.lt g hg
        have hsame : g.image = image := hsame
        omega
      · rintro ⟨-, l', plane', rest', c, -, hplanes', hreusable, -⟩
        obtain ⟨rfl, -⟩ := List.cons.inj (hplanes.symm.trans hplanes')
        rw [show (w.importer.sweep call.sweepAt w.device).1.reusable (request frame plane call) = none from hnone]
          at hreusable
        cases hreusable
    | false =>
      obtain ⟨c, hc, hreusable, himage⟩ := cached_of_importOrReuse hout
      have hreuses : ReusesGivenUp cfg w (.frame frame gpu call) ↔
          (convertCall cfg.context gpu frame l).isSome = true ∧ GivenUp w.frames image := by
        constructor
        · rintro ⟨-, l', plane', rest', c', hensure', hplanes', hreusable', hconvert, hgiven⟩
          obtain ⟨rfl, -⟩ := List.cons.inj (hplanes.symm.trans hplanes')
          obtain rfl := Option.some.inj (hensure.symm.trans hensure')
          obtain rfl := Option.some.inj (hreusable.symm.trans hreusable')
          exact ⟨hconvert, himage ▸ hgiven⟩
        · rintro ⟨hconvert, hgiven⟩
          exact ⟨hroom, l, plane, rest, c, hensure, hplanes, hreusable, hconvert, himage.symm ▸ hgiven⟩
      rw [hreuses, ← himage, not_and, ← converted_iff h hc]
      refine imp_congr_right fun _ =>
        ⟨fun hlayout => ?_, fun hconverted => ⟨fun _ => ?_, fun hundefined => ?_⟩⟩
      · exact hlayout.general rfl
      · exact hconverted
      · cases hundefined

end Step

/-! ## Runs that strand no image -/

/-- Every image was converted by the frame that it was imported for, or the loop has ended. -/
def AllConverted (w : World x pf) : Prop :=
  (∀ f ∈ w.frames, f.layout = .undefined → f.convert = some (.ok ())) ∨ w.loop.pipeline.loop.phase = .stopped

section Strands

variable {cfg : EncodeLoop.Config} {w w' : World x pf} {a : Action}

theorem pipeline_of_frame {loop loop' : EncodeLoop.World x pf} {frame : ExportedFrame} {gpu : Gpu}
    (h : loop.frame cfg frame gpu = some loop') :
    ∃ captured, Pipeline.step cfg.pipeline loop.pipeline (.receive (.frame captured)) = some loop'.pipeline := by
  rw [EncodeLoop.World.frame] at h
  split at h
  · obtain ⟨p, hp, rfl⟩ := withPipeline_eq_some h
    exact ⟨_, hp⟩
  · dsimp only at h
    obtain ⟨p, hp, rfl⟩ := withPipeline_eq_some h
    split at hp <;> exact ⟨_, hp⟩

theorem pipeline_of_loop {loop loop' : EncodeLoop.World x pf} {a : EncodeLoop.Action}
    (h : EncodeLoop.step cfg loop a = some loop') :
    ∃ b, Pipeline.step cfg.pipeline loop.pipeline b = some loop'.pipeline := by
  have hstep (b : Pipeline.Action) (h : loop.withPipeline cfg b = some loop') :
      ∃ b, Pipeline.step cfg.pipeline loop.pipeline b = some loop'.pipeline := by
    obtain ⟨p, hp, rfl⟩ := withPipeline_eq_some h
    exact ⟨b, hp⟩
  cases a with
  | pipeline a =>
    cases a with
    | receive received => cases h
    | shutdown => exact hstep .shutdown h
    | drainResets pending => exact hstep (.drainResets pending) h
    | drainIdrRequests pending => exact hstep (.drainIdrRequests pending) h
    | drainInvalidations requests => exact hstep (.drainInvalidations requests) h
    | send => exact hstep .send h
    | take => exact hstep .take h
    | finish readBack keys latency networkOpen => exact hstep (.finish readBack keys latency networkOpen) h
  | timeout encode =>
    have htimeout : loop.timeout cfg encode = some loop' := h
    rw [EncodeLoop.World.timeout] at htimeout
    obtain ⟨p, hp, rfl⟩ := withPipeline_eq_some htimeout
    exact ⟨_, hp⟩
  | disconnected => exact hstep (.receive .disconnected) h
  | frame frame gpu =>
    obtain ⟨captured, hp⟩ := pipeline_of_frame (Option.ite_none_right_eq_some.mp h).2
    exact ⟨_, hp⟩

/-- A step is one of the pipeline, and a frame is received at the end of the loop's body. -/
theorem pipeline_of_step (h : step cfg w a = some w') :
    ∃ b, Pipeline.step cfg.pipeline w.loop.pipeline b = some w'.loop.pipeline ∧
      ∀ frame gpu call, a = .frame frame gpu call → ∃ captured, b = .receive (.frame captured) := by
  cases a with
  | loop a =>
    have hwith : w.withLoop (EncodeLoop.step cfg w.loop a) = some w' := by
      cases a with
      | frame frame gpu => cases h
      | pipeline | timeout | disconnected => exact h
    obtain ⟨loop, hloop, rfl⟩ := Option.map_eq_some_iff.mp hwith
    obtain ⟨b, hb⟩ := pipeline_of_loop hloop
    refine ⟨b, hb, fun frame gpu call heq => ?_⟩
    cases heq
  | frame frame gpu call =>
    have hframe : w.frame cfg frame gpu call = some w' := (Option.ite_none_right_eq_some.mp h).2
    have hloop : ∃ gpu, w.loop.frame cfg frame gpu = some w'.loop := by
      unfold World.frame at hframe
      split at hframe
      · obtain ⟨loop, hloop, rfl⟩ := Option.map_eq_some_iff.mp hframe
        exact ⟨gpu, hloop⟩
      · split at hframe
        · obtain ⟨loop, hloop, rfl⟩ := Option.map_eq_some_iff.mp hframe
          exact ⟨_, hloop⟩
        · obtain ⟨loop, hloop, rfl⟩ := Option.map_eq_some_iff.mp hframe
          exact ⟨gpu, hloop⟩
    obtain ⟨gpu', hloop⟩ := hloop
    obtain ⟨captured, hp⟩ := pipeline_of_frame hloop
    exact ⟨_, hp, fun _ _ _ _ => ⟨captured, rfl⟩⟩

/-- The loop does not begin again. -/
theorem stopped_of_step {cfg : Pipeline.Config} {p p' : Pipeline.State x} {b : Pipeline.Action}
    (h : p.loop.phase = .stopped) (hs : Pipeline.step cfg p b = some p') :
    p'.loop.phase = .stopped ∧ ∀ received, b ≠ .receive received := by
  have hphase {phase : Pipeline.Phase} {next : Pipeline.State x} (hs : Pipeline.atPhase phase p next = some p') :
      phase = .stopped := (Option.ite_none_right_eq_some.mp hs).1.1.symm.trans h
  cases b with
  | shutdown | drainResets | drainIdrRequests | drainInvalidations | receive => cases hphase hs
  | send =>
    refine ⟨?_, nofun⟩
    simp only [Pipeline.step, Pipeline.send] at hs
    split at hs
    · cases hs
    · split at hs
      · split at hs
        · cases hs
          rfl
        · cases hs
          exact h
      · split at hs <;> cases hs
        exact h
  | take =>
    refine ⟨?_, nofun⟩
    simp only [Pipeline.step, Pipeline.take] at hs
    split at hs <;> cases hs <;> exact h
  | finish readBack keys latency networkOpen =>
    refine ⟨?_, nofun⟩
    simp only [Pipeline.step, Pipeline.finish] at hs
    split at hs
    · split at hs <;> cases hs <;> exact h
    · cases hs

theorem allConverted_step (h : AllConverted w) (hs : step cfg w a = some w') (hstrands : ¬Strands cfg w a) :
    AllConverted w' := by
  cases stepped_of_step hs with
  | quiet _ _ _ hframes =>
    refine h.imp (fun h => hframes ▸ h) fun h => ?_
    obtain ⟨b, hb, -⟩ := pipeline_of_step hs
    exact (stopped_of_step h hb).1
  | @imported frame gpu call l plane rest image needsTransition hact hroom hensure hplanes hout _ _ hframes captured
      hidle hhandled hpipeline =>
    subst hact
    have hrunning : w.loop.pipeline.loop.phase ≠ .stopped := fun h => by
      rw [hidle.1] at h
      cases h
    have hold := h.resolve_right hrunning
    have hnew (hconverted : srcLayout needsTransition = .undefined →
        convertCall cfg.context gpu frame l = some (.ok ())) : AllConverted w' := by
      refine .inl ?_
      rw [hframes]
      exact List.forall_mem_append.mpr ⟨hold, List.forall_mem_singleton.mpr hconverted⟩
    have hstopped (hfatal : captured = .fatal) : AllConverted w' := by
      refine .inr ?_
      rw [hpipeline, hfatal, Pipeline.receive, if_neg (by omega)]
      rfl
    cases needsTransition with
    | false => exact hnew nofun
    | true =>
      cases hhandled with
      | lacksConverter hlacks => exact absurd ⟨hroom, l, plane, rest, image, hensure, hplanes, hout, .inl hlacks⟩ hstrands
      | switchFails => exact hstopped rfl
      | @failed e _ hswitch hconvert =>
        cases hlost : isDeviceLost e with
        | true => exact hstopped (if_pos hlost)
        | false =>
          exact absurd ⟨hroom, l, plane, rest, image, hensure, hplanes, hout, .inr ⟨hswitch, e, hconvert, hlost⟩⟩ hstrands
      | converted captured _ _ hcall => exact hnew fun _ => hcall

theorem not_reusesGivenUp (h : AllConverted w) (hs : step cfg w a = some w') : ¬ReusesGivenUp cfg w a := by
  cases a with
  | loop a => exact id
  | frame frame gpu call =>
    rintro ⟨-, l, plane, rest, c, -, -, -, -, g, hg, -, hundefined, hfailed⟩
    rcases h with hall | hstopped
    · exact hfailed (hall g hg hundefined)
    · obtain ⟨b, hb, hreceive⟩ := pipeline_of_step hs
      obtain ⟨captured, rfl⟩ := hreceive frame gpu call rfl
      exact (stopped_of_step hstopped hb).2 _ rfl

/-! ## The next frame with the same buffer -/

/-- The beginning of a turn of the loop. -/
def drains : List Action :=
  [.loop (.pipeline (.drainResets false)), .loop (.pipeline (.drainIdrRequests false)),
    .loop (.pipeline (.drainInvalidations []))]

theorem exec_drains (cfg : EncodeLoop.Config) (hphase : w.loop.pipeline.loop.phase = .resets)
    (hidle : w.loop.pipeline.loop.outbox = none) :
    ∃ p, exec (step cfg) w drains = some { w with loop := { w.loop with pipeline := p } } ∧
      p.loop.phase = .receive ∧ p.loop.outbox = none ∧ p.inFlight = w.loop.pipeline.inFlight := by
  have hdrain {w : World x pf} {p : Pipeline.State x} {b : Pipeline.Action} (hb : ∀ received, b ≠ .receive received)
      (hs : Pipeline.step cfg.pipeline w.loop.pipeline b = some p) :
      step cfg w (.loop (.pipeline b)) = some { w with loop := { w.loop with pipeline := p } } := by
    have hloop : EncodeLoop.step cfg w.loop (.pipeline b) = w.loop.withPipeline cfg b := by
      cases b with
      | receive received => exact absurd rfl (hb received)
      | _ => rfl
    show w.withLoop (EncodeLoop.step cfg w.loop (.pipeline b)) = _
    rw [hloop, EncodeLoop.World.withPipeline, hs]
    rfl
  have hphases {phase : Pipeline.Phase} {p next : Pipeline.State x} (h : p.loop.phase = phase)
      (hidle : p.loop.outbox = none) : Pipeline.atPhase phase p next = some next := if_pos ⟨h, hidle⟩
  refine ⟨_, exec_cons.mpr ⟨_, hdrain nofun (hphases hphase hidle), exec_cons.mpr ⟨_, hdrain nofun (hphases rfl hidle),
    exec_cons.mpr ⟨_, hdrain nofun (hphases rfl hidle), rfl⟩⟩⟩, rfl, hidle, rfl⟩

/-- The call with the same buffer behind the file descriptor, right after the other one. -/
def again (call : ImportCall) : ImportCall := { call with sweepAt := call.now }

/-- The GPU does everything that it is asked for. -/
def allWorks : Gpu := ⟨true, none, true, true, .ok (), .ok ()⟩

theorem convertCall_allWorks (ctx : VideoStreamContext) (frame : ExportedFrame) (l : Locals pf) :
    (convertCall ctx allWorks frame l).isSome = true := by
  rw [convertCall]
  dsimp only
  cases hensure : (l.dropConverter (drmFourccToInput frame.format).1).ensureConverter ctx allWorks
      (drmFourccToInput frame.format).1 with
  | none => cases (ensureConverter_eq_none.mp hensure).2
  | some made =>
    rw [Option.bind_eq_bind, Option.bind_some]
    cases hswitch : made.2.switchColors ctx allWorks frame made.1 with
    | none => cases (switchColors_eq_none.mp hswitch).2.2
    | some switched => rfl

theorem frame_enabled {frame : ExportedFrame} (gpu : Gpu) (call : ImportCall) (hexports : cfg.exports frame = true)
    (hphase : w.loop.pipeline.loop.phase = .receive) (hidle : w.loop.pipeline.loop.outbox = none) :
    ∃ w', step cfg w (.frame frame gpu call) = some w' := by
  have hpipeline {loop : EncodeLoop.World x pf} (captured : Captured) (h : loop.pipeline = w.loop.pipeline) :
      ∃ loop', loop.withPipeline cfg (.receive (.frame captured)) = some loop' := by
    refine ⟨_, Option.map_eq_some_iff.mpr ⟨_, if_pos ?_, rfl⟩⟩
    rw [h]
    exact ⟨hphase, hidle⟩
  have hloop (gpu : Gpu) : ∃ loop', w.loop.frame cfg frame gpu = some loop' := by
    rw [EncodeLoop.World.frame]
    split
    · exact hpipeline _ rfl
    · dsimp only
      split <;> exact hpipeline _ rfl
  have hframe : ∃ w', w.frame cfg frame gpu call = some w' := by
    rw [World.frame]
    split
    · obtain ⟨loop, hloop⟩ := hloop gpu
      exact ⟨_, Option.map_eq_some_iff.mpr ⟨loop, hloop, rfl⟩⟩
    · split
      · obtain ⟨loop, hloop⟩ := hloop _
        exact ⟨_, Option.map_eq_some_iff.mpr ⟨loop, hloop, rfl⟩⟩
      · obtain ⟨loop, hloop⟩ := hloop gpu
        exact ⟨_, Option.map_eq_some_iff.mpr ⟨loop, hloop, rfl⟩⟩
  obtain ⟨w', hw'⟩ := hframe
  exact ⟨w', (if_pos hexports).trans hw'⟩

/-- A frame that strands an image leaves the loop at the beginning of its next turn. -/
theorem of_strands {frame : ExportedFrame} {gpu : Gpu} {call : ImportCall}
    (hs : step cfg w (.frame frame gpu call) = some w') (hstrands : Strands cfg w (.frame frame gpu call)) :
    w'.loop.pipeline.loop.phase = .resets ∧ w'.loop.pipeline.loop.outbox = none ∧
      w'.loop.pipeline.inFlight < maxFramesInFlight ∧ ∃ plane rest c, frame.planes = plane :: rest ∧
        (w'.importer.sweep (again call).sweepAt w'.device).1.reusable (request frame plane (again call)) = some c ∧
        GivenUp w'.frames c.image := by
  obtain ⟨hroom, l, plane, rest, image, hensure, hplanes, hout, hfails⟩ := hstrands
  have hframe : w.frame cfg frame gpu call = some w' := (Option.ite_none_right_eq_some.mp hs).2
  rw [World.frame, if_neg (by omega), hensure, hplanes] at hframe
  obtain ⟨m, hm, rfl⟩ := Option.map_eq_some_iff.mp hframe
  rw [hout] at hm
  have hloop : w.loop.frame cfg frame { gpu with importOrReuse := some true } = some m := hm
  obtain ⟨hidle, hpipeline⟩ := frame_eq_some hroom hloop
  have hplanes' : frame.planes ≠ [] := by rw [hplanes]; exact List.cons_ne_nil _ _
  have hhandled : Handled cfg.context { gpu with importOrReuse := some true } frame l
    (w.loop.locals.processFrame cfg.context { gpu with importOrReuse := some true } frame).2.captured :=
      handled_processFrame hensure hplanes' rfl
  generalize (w.loop.locals.processFrame _ _ frame).2.captured = captured at hpipeline hhandled
  have hskipped : captured = .skipped ∧ convertCall cfg.context gpu frame l ≠ some (.ok ()) := by
    cases hhandled with
    | lacksConverter _ hcall => exact ⟨rfl, fun h => nomatch hcall.symm.trans h⟩
    | switchFails hlacks hswitch => exact absurd hfails (not_or.mpr ⟨hlacks, fun h => h.1 hswitch⟩)
    | @failed e hlacks _ hconvert hcall =>
      obtain ⟨-, e', he', hlost⟩ := hfails.resolve_left hlacks
      obtain rfl : e = e' := Except.error.inj (hconvert.symm.trans he')
      refine ⟨by rw [hlost]; rfl, fun h => ?_⟩
      cases hcall.symm.trans h
    | converted _ hlacks hconvert =>
      obtain ⟨-, e, he, -⟩ := hfails.resolve_left hlacks
      cases hconvert.symm.trans he
  obtain ⟨rfl, hcall⟩ := hskipped
  have hnext : m.pipeline = Pipeline.goto .resets w.loop.pipeline := by
    rw [hpipeline, Pipeline.receive, if_neg (by omega)]
  let q' := request frame plane (again call)
  have hsweep : q'.sweepAt ≤ (request frame plane call).now := le_refl call.now
  obtain ⟨c, hreusable, himage⟩ := reusable_of_importOrReuse hout (show q'.fd = _ from rfl) rfl rfl hsweep
    (w.importer.importOrReuse (request frame plane call) w.device).2.2
  refine ⟨?_, ?_, ?_, plane, rest, c, hplanes, hreusable, ?_⟩
  · show m.pipeline.loop.phase = _
    rw [hnext]
    rfl
  · show m.pipeline.loop.outbox = _
    rw [hnext]
    exact hidle.2
  · show m.pipeline.inFlight < _
    rw [hnext]
    exact hroom
  · rw [hout, himage]
    exact ⟨_, List.mem_append_right _ List.mem_cons_self, rfl, rfl, hcall⟩

/-- A frame with the buffer of one that was given up is converted from the wrong layout. -/
theorem not_inLayouts_of_strands (h : Inv w) (hs : step cfg w a = some w') (hstrands : Strands cfg w a) :
    ∃ bs, ¬EveryStep (step cfg) InLayouts w' bs := by
  cases a with
  | loop a => exact hstrands.elim
  | frame frame gpu call =>
    have hexports : cfg.exports frame = true := (Option.ite_none_right_eq_some.mp hs).1
    obtain ⟨hphase, hidle, hroom, plane, rest, c, hplanes, hreusable, hgiven⟩ := of_strands hs hstrands
    obtain ⟨p, hdrains, hreceive, hidle', hsame⟩ := exec_drains cfg hphase hidle
    refine ⟨drains ++ [.frame frame allWorks (again call)], fun hlayouts => ?_⟩
    have hlast := hlayouts.of_append hdrains
    have hinv := exec_inv (fun _ _ _ => inv_step) (inv_step h hs) hdrains
    obtain ⟨w'', hs''⟩ : ∃ w'', step cfg { w' with loop := { w'.loop with pipeline := p } }
        (.frame frame allWorks (again call)) = some w'' := frame_enabled _ _ hexports hreceive hidle'
    refine absurd ((inLayouts_step_iff hinv hs'').mp (hlast w'' hs'').1) (not_not_intro ⟨?_, ?_⟩)
    · exact hsame ▸ hroom
    · obtain ⟨l, hl⟩ : ∃ l, w'.loop.locals.ensureImporter allWorks = some l := by
        rw [Locals.ensureImporter]
        split
        · exact ⟨_, rfl⟩
        · exact ⟨_, rfl⟩
      exact ⟨l, plane, rest, c, hl, hplanes, hreusable, convertCall_allWorks .., hgiven⟩

end Strands

/-- Images are converted from the layout that they are in, in every run in which no frame strands
an image. Where a frame of any run does, the frames after it can be such that one is not. -/
theorem layouts_unless_stranded (x : Crates) (pf : Pixelforge) (cfg : EncodeLoop.Config) :
    (∀ as, EveryStep (step cfg) (fun w a _ => ¬Strands cfg w a) (World.start x pf cfg) as →
      EveryStep (step cfg) InLayouts (World.start x pf cfg) as) ∧
    ∀ as w a w', exec (step cfg) (World.start x pf cfg) as = some w → step cfg w a = some w' → Strands cfg w a →
      ∃ bs, ¬EveryStep (step cfg) InLayouts w' bs := by
  constructor
  · intro as
    let Kept (w : World x pf) : Prop := Inv w ∧ AllConverted w
    have hstart : Kept (World.start x pf cfg) :=
      ⟨inv_start cfg, .inl fun _ hf => absurd hf List.not_mem_nil⟩
    refine EveryStep.of_keeps ?_ ?_ hstart
    · exact fun w a w' h hs hstrands => ⟨inv_step h.1 hs, allConverted_step h.2 hs hstrands⟩
    · exact fun w a w' h hs _ => (inLayouts_step_iff h.1 hs).mpr (not_reusesGivenUp h.2 hs)
  · intro as w a w' has hs hstrands
    exact not_inLayouts_of_strands (exec_inv (fun _ _ _ => inv_step) (inv_start cfg) has) hs hstrands

/-! ## A run -/

/-- The imports work. -/
def workingCall : ImportCall where
  file := 0
  sweepAt := 0
  now := 0
  tryClone := .ok ()
  results := { noProperties with fdProperties := .ok 1 }

/-- The conversion of a frame fails. -/
def failedRun : List Action := drains ++ [.frame (frameIn .srgb) notConverting workingCall] ++ drains

/-- A frame with the same buffer. -/
def nextFrame : Action := .frame (frameIn .srgb) working workingCall

/-- The image is converted from the general layout, in which it is not. -/
theorem failedRun_wrong_layout :
    ¬EveryStep (step hdrConfig) InLayouts (World.start Packetizer.repetition pqAndRange hdrConfig)
        (failedRun ++ [nextFrame]) ∧
      (exec (step hdrConfig) (World.start Packetizer.repetition pqAndRange hdrConfig)
        (failedRun ++ [nextFrame])).map World.frames =
          some [⟨0, .undefined, some (.error (.vulkan (-3)))⟩, ⟨0, .general, some (.ok ())⟩] := by
  have hrun : (exec (step hdrConfig) (World.start Packetizer.repetition pqAndRange hdrConfig)
      (failedRun ++ [nextFrame])).map World.frames =
        some [⟨0, .undefined, some (.error (.vulkan (-3)))⟩, ⟨0, .general, some (.ok ())⟩] := by decide
  have hfailed : (exec (step hdrConfig) (World.start Packetizer.repetition pqAndRange hdrConfig)
      failedRun).map World.frames = some [⟨0, .undefined, some (.error (.vulkan (-3)))⟩] := by decide
  refine ⟨fun h => ?_, hrun⟩
  obtain ⟨w', hw', hframes'⟩ := Option.map_eq_some_iff.mp hrun
  obtain ⟨w, hw, hframes⟩ := Option.map_eq_some_iff.mp hfailed
  obtain ⟨m, hm, hlayouts⟩ := h.of_exec hw'
  obtain rfl := Option.some.inj (hw.symm.trans hm)
  obtain ⟨g, hg, -, -, hconvert⟩ :=
    (hlayouts ⟨0, .general, some (.ok ())⟩ (by rw [hframes, hframes']; rfl) rfl).general rfl
  rw [hframes] at hg
  obtain rfl := List.mem_singleton.mp hg
  cases hconvert

end Moonshine.Proof.ImportLoop
