import Moonshine.Framework.Run
import Moonshine.Proof.Video.Import

/-!
# The lifetimes of imported images

The importer over any requests, with a clock that does not go back. Its entries, in
the cache and in the retired list, are the images that it has made and not destroyed
(`Held`), and none is touched later than the last request that it was returned for
(`Known`). A sweep, a hit, a retirement and a first import each keep that. An image
that a first import leaves behind is in no entry and is never destroyed; where no
request leaves one behind, every image is destroyed exactly once by the time the
importer is dropped, and only there: `lifetimes_iff`.
-/

namespace Moonshine.Proof.DmaBuf

open Moonshine.Framework Moonshine.Impl.DmaBuf

open scoped List

/-- Images alone. -/
def images : Ledger Effect Nat where
  acquires
    | .createImage image _ => some image
    | .destroyImage _ | .allocateMemory _ _ | .freeMemory _ | .dupFd _ | .closeFd _ => none
  releases
    | .destroyImage image => some image
    | .createImage _ _ | .allocateMemory _ _ | .freeMemory _ | .dupFd _ | .closeFd _ => none

/-! ## Runs -/

/-- The importer and its device, and for the images what they were imported for and when
they were returned. -/
structure World where
  importer : DmaBufImporter
  device : Device
  clock : Nat
  imported : List (Nat × ImportParams × Nat)
  returned : List (Nat × Nat)

namespace World

def start : World := ⟨.new, .new, 0, [], []⟩

/-- What the request returns. -/
def result (w : World) (q : Request) : Except String (Nat × Bool) := (w.importer.importOrReuse q w.device).1

def step (w : World) (q : Request) : Option World :=
  if w.clock ≤ q.sweepAt ∧ q.sweepAt ≤ q.now then
    some { importer := (w.importer.importOrReuse q w.device).2.1
           device := (w.importer.importOrReuse q w.device).2.2
           clock := q.now
           imported := match w.result q with
             | .ok (image, true) => w.imported ++ [(image, q.params, q.file)]
             | _ => w.imported
           returned := match w.result q with
             | .ok (image, _) => w.returned ++ [(image, q.now)]
             | .error _ => w.returned }
  else none

/-- The log of the whole life, where the importer is dropped now. -/
def life (w : World) : List Effect := (w.importer.drop w.device).log

end World

/-- What is claimed of a request, and of the life of the importer if it ends after it. -/
structure Lifetimes (w : World) (q : Request) (w' : World) : Prop where
  /-- What is returned has not been destroyed. -/
  alive : ∀ image needsTransition, w.result q = .ok (image, needsTransition) →
    image ∉ images.released w'.device.log
  /-- What is destroyed now was not returned in the last `CACHE_TTL`. -/
  kept : ∀ image t, (image, t) ∈ w.returned → image ∉ images.released w.device.log →
    image ∈ images.released w'.device.log → t + cacheTtl ≤ q.sweepAt
  /-- A hit is an image imported with the same parameters from the same open file. -/
  hit : ∀ image, w.result q = .ok (image, false) → (image, q.params, q.file) ∈ w.imported
  /-- No image is in two entries. -/
  distinct : (w'.importer.entries.map CachedImport.image).Nodup
  once : ∀ image ∈ images.acquired w'.life, (images.released w'.life).count image = 1

/-- The first import gets an image, but not the properties of the file descriptor, its
duplicate or a memory type. -/
def AbandonsImage (w : World) (q : Request) : Prop :=
  ((w.importer.sweep q.sweepAt w.device).1.reusable q = none) ∧ q.tryClone = .ok () ∧
    q.planes ≠ [] ∧ q.results.createImage = .ok () ∧
    ∀ fdTypeBits, q.results.fdProperties = .ok fdTypeBits → q.results.dup = .ok () →
      q.results.findMemoryType (q.results.memRequirements.2 &&& fdTypeBits) = none

/-! ## What the entries are -/

/-- The images of the entries, and `abandoned`, are those that were made and not destroyed. -/
structure Held (entries : List CachedImport) (abandoned : List Nat) (d : Device) : Prop where
  leaves : images.Leaves d.log (entries.map CachedImport.image ++ abandoned)
  lt : ∀ image ∈ images.acquired d.log, image < d.images

/-- When the entries were returned last, and what they were imported for. -/
structure Known (entries : List CachedImport) (imported : List (Nat × ImportParams × Nat))
    (returned : List (Nat × Nat)) : Prop where
  lastUsed : ∀ c ∈ entries, ∀ t, (c.image, t) ∈ returned → t ≤ c.lastUsed
  origin : ∀ c ∈ entries, (c.image, c.params, c.file) ∈ imported

section Entries

variable {entries entries' : List CachedImport} {abandoned : List Nat} {d : Device}
  {imported : List (Nat × ImportParams × Nat)} {returned : List (Nat × Nat)}

theorem Held.perm (h : Held entries abandoned d)
    (hperm : entries.map CachedImport.image ~ entries'.map CachedImport.image) : Held entries' abandoned d :=
  ⟨⟨h.leaves.nodup, h.leaves.perm.trans ((hperm.append_right _).append_right _)⟩, h.lt⟩

theorem Held.nodup (h : Held entries abandoned d) :
    (entries.map CachedImport.image ++ abandoned ++ images.released d.log).Nodup :=
  h.leaves.perm.nodup_iff.mp h.leaves.nodup

theorem Held.lt_of_mem (h : Held entries abandoned d) {c : CachedImport} (hc : c ∈ entries) :
    c.image < d.images :=
  h.lt _ (h.leaves.perm.mem_iff.mpr
    (List.mem_append_left _ (List.mem_append_left _ (List.mem_map_of_mem hc))))

theorem Held.not_released (h : Held entries abandoned d) {c : CachedImport} (hc : c ∈ entries) :
    c.image ∉ images.released d.log := fun hmem =>
  (List.nodup_append.mp h.nodup).2.2 _ (List.mem_append_left _ (List.mem_map_of_mem hc)) _ hmem rfl

theorem Known.subset (h : Known entries imported returned) (hsub : ∀ c ∈ entries', c ∈ entries) :
    Known entries' imported returned :=
  ⟨fun c hc => h.lastUsed c (hsub c hc), fun c hc => h.origin c (hsub c hc)⟩

end Entries

/-! ## Sweeps -/

section Sweep

/-- Entries that are released: their images are destroyed, and nothing is made. -/
theorem foldl_release (cs : List CachedImport) (d : Device) :
    ∃ es, (cs.foldl DmaBufImporter.release d).log = d.log ++ es ∧ images.acquired es = [] ∧
      images.released es = cs.map CachedImport.image ∧ (cs.foldl DmaBufImporter.release d).images = d.images := by
  induction cs generalizing d with
  | nil => exact ⟨[], (List.append_nil _).symm, rfl, rfl, rfl⟩
  | cons c cs ih =>
    obtain ⟨es, hlog, hacquired, hreleased, himages⟩ := ih (DmaBufImporter.release d c)
    refine ⟨[.destroyImage c.image, .freeMemory c.memory, .closeFd c.fd] ++ es, ?_, ?_, ?_, himages⟩
    · rw [List.foldl_cons, hlog]
      simp [DmaBufImporter.release, Device.destroyImage, Device.freeMemory, Device.closeFd]
    · rw [Ledger.acquired_append, hacquired]
      rfl
    · rw [Ledger.released_append, hreleased]
      rfl

/-- A sweep lets go of entries that have not been touched for `CACHE_TTL`. -/
structure Swept (now : Nat) (entries entries' : List CachedImport) (d d' : Device) (gone : List CachedImport) :
    Prop where
  entries : entries ~ entries' ++ gone
  expired : ∀ c ∈ gone, c.lastUsed + cacheTtl < now
  log : ∃ es, d'.log = d.log ++ es ∧ images.acquired es = [] ∧
    images.released es = gone.map CachedImport.image
  images : d'.images = d.images

theorem swept_evictStale (now : Nat) (i : DmaBufImporter) (d : Device) :
    Swept now i.entries (i.evictStale now d).1.entries d (i.evictStale now d).2
      (i.entries.filter (DmaBufImporter.isExpired now)) := by
  obtain ⟨es, hlog, hacquired, hreleased, himages⟩ :=
    foldl_release (i.entries.filter (DmaBufImporter.isExpired now)) d
  refine ⟨?_, fun c hc => ?_, ⟨es, hlog, hacquired, hreleased⟩, himages⟩
  · have hkept : (i.evictStale now d).1.entries = i.entries.filter fun c => !DmaBufImporter.isExpired now c := by
      show HashMap.values (i.cache.retain fun _ c => !DmaBufImporter.isExpired now c) ++ _ = _
      rw [HashMap.values_retain, DmaBufImporter.entries, List.filter_append]
      rfl
    rw [hkept]
    exact (List.filter_append_perm (DmaBufImporter.isExpired now) i.entries).symm.trans List.perm_append_comm
  · simpa [DmaBufImporter.isExpired] using (List.mem_filter.mp hc).2

theorem swept_sweep (now : Nat) (i : DmaBufImporter) (d : Device) :
    ∃ gone, Swept now i.entries (i.sweep now d).1.entries d (i.sweep now d).2 gone := by
  unfold DmaBufImporter.sweep
  dsimp only
  split
  · exact ⟨_, swept_evictStale now { i with callsSinceSweep := 0 } d⟩
  · exact ⟨[], by simp [DmaBufImporter.entries], by simp, ⟨[], by simp, rfl, rfl⟩, rfl⟩

end Sweep

section Stages

variable {i : DmaBufImporter} {entries entries' gone : List CachedImport} {d d' : Device} {now : Nat}
  {abandoned : List Nat} {q : Request}

theorem Held.sweep (h : Held entries abandoned d) (hs : Swept now entries entries' d d' gone) :
    Held entries' abandoned d' := by
  obtain ⟨es, hlog, hacquired, hreleased⟩ := hs.log
  have hentries := hs.entries.map CachedImport.image
  rw [List.map_append] at hentries
  refine ⟨?_, fun image hmem => ?_⟩
  · rw [hlog]
    refine h.leaves.append (by rw [hacquired]; exact List.nodup_nil) (by simp [hacquired]) ?_
    rw [hacquired, hreleased, List.append_nil]
    calc entries.map CachedImport.image ++ abandoned
      _ ~ entries'.map CachedImport.image ++ gone.map CachedImport.image ++ abandoned := hentries.append_right _
      _ ~ entries'.map CachedImport.image ++ abandoned ++ gone.map CachedImport.image := by
        rw [List.append_assoc, List.append_assoc]
        exact List.perm_append_comm.append_left _
  · rw [hlog, Ledger.acquired_append, hacquired, List.append_nil] at hmem
    rw [hs.images]
    exact h.lt image hmem

theorem Swept.mem (hs : Swept now entries entries' d d' gone) : ∀ c ∈ entries', c ∈ entries := fun _ hc =>
  hs.entries.mem_iff.mpr (List.mem_append_left _ hc)

/-! ## Hits and retirements -/

/-- The same images, some of them touched at `now`. -/
structure Touches (now : Nat) (entries entries' : List CachedImport) : Prop where
  images : entries.map CachedImport.image ~ entries'.map CachedImport.image
  mem : ∀ c' ∈ entries', ∃ c ∈ entries, c'.image = c.image ∧ c'.params = c.params ∧ c'.file = c.file ∧
    (c'.lastUsed = c.lastUsed ∨ c'.lastUsed = now)

theorem touches_refl (now : Nat) (entries : List CachedImport) : Touches now entries entries :=
  ⟨.refl _, fun c hc => ⟨c, hc, rfl, rfl, rfl, .inl rfl⟩⟩

/-- One entry is touched, and may change its place. -/
theorem touches_of_perm {rest : List CachedImport} {c : CachedImport}
    (hold : entries ~ c :: rest) (hnew : entries' ~ { c with lastUsed := now } :: rest) :
    Touches now entries entries' := by
  have hsame : (c :: rest).map CachedImport.image ~ entries'.map CachedImport.image :=
    (hnew.map CachedImport.image).symm
  refine ⟨(hold.map CachedImport.image).trans hsame, fun c' hc' => ?_⟩
  rcases List.mem_cons.mp (hnew.mem_iff.mp hc') with rfl | hmem
  · exact ⟨c, hold.mem_iff.mpr List.mem_cons_self, rfl, rfl, rfl, .inr rfl⟩
  · exact ⟨c', hold.mem_iff.mpr (List.mem_cons_of_mem _ hmem), rfl, rfl, rfl, .inl rfl⟩

theorem Known.touches {imported : List (Nat × ImportParams × Nat)}
    {returned : List (Nat × Nat)} (h : Known entries imported returned) (ht : Touches now entries entries')
    (hnow : ∀ r ∈ returned, r.2 ≤ now) : Known entries' imported returned := by
  refine ⟨fun c' hc' t hmem => ?_, fun c' hc' => ?_⟩
  · obtain ⟨c, hc, himage, -, -, hlast⟩ := ht.mem c' hc'
    rw [himage] at hmem
    rcases hlast with hlast | hlast
    · rw [hlast]
      exact h.lastUsed c hc t hmem
    · rw [hlast]
      exact hnow _ hmem
  · obtain ⟨c, hc, himage, hparams, hfile, -⟩ := ht.mem c' hc'
    rw [himage, hparams, hfile]
    exact h.origin c hc

theorem of_reusable {c : CachedImport} (h : i.reusable q = some c) :
    i.cache.get? q.fd = some c ∧ c.params = q.params ∧ c.file = q.file := by
  obtain ⟨hget, hsame⟩ := Option.filter_eq_some_iff.mp h
  simp only [CachedImport.isSameBuffer, decide_eq_true_eq] at hsame
  exact ⟨hget, hsame⟩

/-- The entries, apart from what the cache has of the file descriptor. -/
theorem entries_of_get? {c : CachedImport} (h : i.cache.get? q.fd = some c) :
    i.entries ~ c :: (HashMap.values (i.cache.erase q.fd) ++ i.retired) :=
  (HashMap.values_erase h).append_right _

theorem entries_modify {c : CachedImport} (h : i.cache.get? q.fd = some c) :
    { i with cache := i.cache.modify q.fd fun c => { c with lastUsed := q.now } }.entries ~
      { c with lastUsed := q.now } :: (HashMap.values (i.cache.erase q.fd) ++ i.retired) := by
  show HashMap.values (i.cache.modify q.fd _) ++ i.retired ~ _
  rw [HashMap.values_modify h]
  exact .refl _

theorem touches_retire (q : Request) (i : DmaBufImporter) : Touches q.now i.entries (i.retire q).entries := by
  unfold DmaBufImporter.retire
  cases hget : i.cache.get? q.fd with
  | none => exact touches_refl q.now i.entries
  | some stale =>
    refine touches_of_perm (entries_of_get? hget) ?_
    show HashMap.values (i.cache.erase q.fd) ++ (i.retired ++ [{ stale with lastUsed := q.now }]) ~ _
    rw [← List.append_assoc]
    exact List.perm_append_comm

theorem get?_retire (q : Request) (i : DmaBufImporter) : (i.retire q).cache.get? q.fd = none := by
  unfold DmaBufImporter.retire
  cases hget : i.cache.get? q.fd with
  | none => exact hget
  | some stale => simp

end Stages

/-! ## First imports -/

/-- The image is not destroyed, and not returned. -/
def Ending.abandons : Ending → Bool
  | noFd | noMemoryType => true
  | refused | noMemory | notBound | imported => false

theorem abandons_iff (planes : List DmaBufPlane) (r : Results) : (ending planes r).abandons = true ↔
    planes ≠ [] ∧ r.createImage = .ok () ∧
      ∀ fdTypeBits, r.fdProperties = .ok fdTypeBits → r.dup = .ok () →
        r.findMemoryType (r.memRequirements.2 &&& fdTypeBits) = none := by
  unfold ending
  cases planes with
  | nil => simp [Ending.abandons]
  | cons plane planes =>
    cases r.createImage with
    | error e => simp [Ending.abandons]
    | ok u =>
      cases r.fdProperties with
      | error e => simp [Ending.abandons]
      | ok fdTypeBits =>
        cases r.dup with
        | error e => simp [Ending.abandons]
        | ok u =>
          cases hmemory : r.findMemoryType (r.memRequirements.2 &&& fdTypeBits) with
          | none => simp [Ending.abandons, hmemory]
          | some memoryTypeIndex =>
            cases r.allocateMemory with
            | error e => simp [Ending.abandons, hmemory]
            | ok u => cases r.bindImageMemory <;> simp [Ending.abandons, hmemory]

/-- The image that the request leaves behind, if it is a first import. -/
def abandonedBy (q : Request) (d : Device) : List Nat :=
  match q.tryClone with
  | .error _ => []
  | .ok () => if (ending q.planes q.results).abandons then [d.images] else []

theorem abandonedBy_eq_nil_iff (q : Request) (d : Device) : abandonedBy q d = [] ↔
    ¬(q.tryClone = .ok () ∧ (ending q.planes q.results).abandons = true) := by
  unfold abandonedBy
  cases q.tryClone with
  | error e => simp
  | ok u => simp

section FirstImport

variable {d d' : Device} {image : ImageCreateInfo} {memory : MemoryAllocateInfo}

theorem images_acquired_effects (e : Ending) :
    images.acquired (e.effects d image memory) = List.replicate e.images d.images := by
  cases e <;> rfl

/-- Where the image goes. -/
theorem images_effects (e : Ending) : List.replicate e.images d.images =
    (if e = .imported then [d.images] else []) ++ (if e.abandons then [d.images] else []) ++
      images.released (e.effects d image memory) := by
  cases e <;> rfl

theorem Ending.Returns.ne_imported {e : Ending} {text : String} (h : e.Returns d (.error text)) :
    e ≠ .imported := by
  rintro rfl
  cases h

theorem Ending.Returns.eq_imported {e : Ending} {made : Nat × Nat} (h : e.Returns d (.ok made)) :
    e = .imported ∧ made = (d.images, d.memories) := by
  cases e with
  | imported => exact ⟨rfl, Except.ok.inj h⟩
  | refused => obtain ⟨text, h⟩ := h; cases h
  | noFd => obtain ⟨text, h⟩ := h; cases h
  | noMemoryType => obtain ⟨text, h⟩ := h; cases h
  | noMemory => obtain ⟨text, h⟩ := h; cases h
  | notBound => obtain ⟨text, h⟩ := h; cases h

/-- A first import makes an image or none. The image goes into a new entry, is destroyed
or is left behind. -/
structure FirstImport (q : Request) (entries entries' : List CachedImport) (d d' : Device) (left : List Nat)
    (out : Except String (Nat × Bool)) : Prop where
  log : ∃ es made, d'.log = d.log ++ es ∧ made ≤ 1 ∧ d'.images = d.images + made ∧
    images.acquired es = List.replicate made d.images ∧ (∀ image ∈ images.released es, image = d.images) ∧
    entries.map CachedImport.image ++ images.acquired es ~
      entries'.map CachedImport.image ++ left ++ images.released es
  out : ((∃ e, out = .error e) ∧ entries' = entries) ∨
    ∃ c, out = .ok (c.image, true) ∧ entries' = c :: entries ∧ c.image = d.images ∧ c.params = q.params ∧
      c.file = q.file ∧ c.lastUsed = q.now

theorem importNew_eq {q : Request} (hclone : q.tryClone = .ok ()) (i : DmaBufImporter) (d : Device) :
    i.importNew q d =
      match importInternal q.width q.height q.format q.planes q.results d.dupFd.2 with
      | (.error e, d') => (.error e, i, d'.closeFd d.fds)
      | (.ok (image, memory), d') =>
        (.ok (image, true),
          { i with cache := i.cache.insert q.fd ⟨image, memory, q.params, d.fds, q.file, q.now⟩ }, d') := by
  rw [DmaBufImporter.importNew, hclone]
  rfl

theorem firstImport_importNew {i : DmaBufImporter} {q : Request} (hget : i.cache.get? q.fd = none) (d : Device) :
    FirstImport q i.entries (i.importNew q d).2.1.entries d (i.importNew q d).2.2 (abandonedBy q d)
      (i.importNew q d).1 := by
  unfold abandonedBy
  cases hclone : q.tryClone with
  | error e =>
    rw [DmaBufImporter.importNew, hclone]
    exact ⟨⟨[], 0, (List.append_nil _).symm, by omega, rfl, rfl, fun _ h => absurd h List.not_mem_nil,
      by simp [Ledger.acquired, Ledger.released]⟩,
      .inl ⟨⟨_, rfl⟩, rfl⟩⟩
  | ok u =>
    rw [importNew_eq hclone]
    obtain ⟨image, memory, -, -, hlog, himages, hreturns⟩ :=
      importInternal_spec q.width q.height q.format q.planes q.results d.dupFd.2
    generalize importInternal q.width q.height q.format q.planes q.results d.dupFd.2 = call
      at hlog himages hreturns ⊢
    cases call with
    | mk out d' =>
      have hacquired : images.acquired ((ending q.planes q.results).effects d.dupFd.2 image memory) =
          List.replicate (ending q.planes q.results).images d.images := images_acquired_effects _
      have hgoes : List.replicate (ending q.planes q.results).images d.images = _ :=
        @images_effects d.dupFd.2 image memory _
      cases out with
      | error e =>
        have hmade : (ending q.planes q.results).images ≤ 1 := by
          cases ending q.planes q.results <;> simp [Ending.images]
        refine ⟨⟨[.dupFd d.fds] ++ (ending q.planes q.results).effects d.dupFd.2 image memory ++
            [.closeFd d.fds],
          (ending q.planes q.results).images, ?_, hmade, himages, ?_, fun image hmem => ?_, ?_⟩,
          .inl ⟨⟨e, rfl⟩, rfl⟩⟩
        · show d'.log ++ [.closeFd d.fds] = _
          rw [show d'.log = _ from hlog]
          simp [Device.dupFd]
        · rw [Ledger.acquired_append, Ledger.acquired_append, hacquired]
          exact List.append_nil _
        · refine List.eq_of_mem_replicate (n := (ending q.planes q.results).images) ?_
          rw [hgoes]
          rw [Ledger.released_append, Ledger.released_append] at hmem
          exact List.mem_append_right _ (by simpa [images, Ledger.released] using hmem)
        · rw [Ledger.acquired_append, Ledger.acquired_append, hacquired, hgoes, if_neg hreturns.ne_imported,
            Ledger.released_append, Ledger.released_append]
          simp [images, Ledger.acquired, Ledger.released, Device.dupFd]
      | ok made =>
        obtain ⟨hending, rfl⟩ := hreturns.eq_imported
        rw [hending] at hlog himages hacquired hgoes ⊢
        have hentries (c : CachedImport) : { i with cache := i.cache.insert q.fd c }.entries = c :: i.entries := by
          show HashMap.values (i.cache.insert q.fd c) ++ i.retired = _
          rw [HashMap.values_insert hget]
          rfl
        refine ⟨⟨[.dupFd d.fds] ++ Ending.imported.effects d.dupFd.2 image memory, 1, ?_, by omega, himages,
            ?_, ?_, ?_⟩,
          .inr ⟨_, rfl, hentries _, rfl, rfl, rfl, rfl⟩⟩
        · show d'.log = _
          rw [show d'.log = _ from hlog]
          simp [Device.dupFd]
        · exact hacquired
        · simp [images, Ledger.released, Ending.effects]
        · show _ ~ List.map _ (DmaBufImporter.entries _) ++ _ ++ _
          rw [hentries]
          simp [images, Ledger.acquired, Ledger.released, Ending.effects, Ending.abandons, Device.dupFd]

end FirstImport

section Requests

variable {q : Request} {entries entries' gone : List CachedImport} {d d' : Device} {abandoned left : List Nat}
  {out : Except String (Nat × Bool)} {imported : List (Nat × ImportParams × Nat)} {returned : List (Nat × Nat)}

theorem Held.firstImport (h : Held entries abandoned d) (hf : FirstImport q entries entries' d d' left out) :
    Held entries' (abandoned ++ left) d' := by
  obtain ⟨es, made, hlog, hmade, himages, hacquired, -, hperm⟩ := hf.log
  refine ⟨?_, fun image hmem => ?_⟩
  · rw [hlog]
    refine h.leaves.append ?_ (fun image hnew hold => ?_) ?_
    · rw [hacquired]
      exact List.nodup_replicate.mpr hmade
    · rw [hacquired] at hnew
      have hlt := h.lt image hold
      have heq := List.eq_of_mem_replicate hnew
      omega
    · calc entries.map CachedImport.image ++ abandoned ++ images.acquired es
        _ ~ abandoned ++ (entries.map CachedImport.image ++ images.acquired es) := by
          rw [← List.append_assoc]
          exact List.perm_append_comm.append_right _
        _ ~ abandoned ++ (entries'.map CachedImport.image ++ left ++ images.released es) := hperm.append_left _
        _ ~ entries'.map CachedImport.image ++ (abandoned ++ left) ++ images.released es := by
          rw [← List.append_assoc, ← List.append_assoc, ← List.append_assoc]
          exact (List.perm_append_comm.append_right _).append_right _
  · rw [hlog, Ledger.acquired_append, List.mem_append] at hmem
    rw [himages]
    rcases hmem with hold | hnew
    · have hlt := h.lt image hold
      omega
    · rw [hacquired] at hnew
      obtain ⟨hne, rfl⟩ := List.mem_replicate.mp hnew
      omega

/-- An entry that is returned again. -/
theorem Known.hit (h : Known entries imported returned) (hheld : Held entries abandoned d)
    {c : CachedImport} {rest : List CachedImport} (hold : entries ~ c :: rest)
    (hnew : entries' ~ { c with lastUsed := q.now } :: rest) (hnow : ∀ r ∈ returned, r.2 ≤ q.now) :
    Known entries' imported (returned ++ [(c.image, q.now)]) := by
  have htouched := h.touches (touches_of_perm hold hnew) hnow
  refine ⟨fun c' hc' t hmem => ?_, htouched.origin⟩
  rcases List.mem_append.mp hmem with hmem | hmem
  · exact htouched.lastUsed c' hc' t hmem
  · obtain ⟨himage, rfl⟩ := Prod.mk.inj (List.mem_singleton.mp hmem)
    rcases List.mem_cons.mp (hnew.mem_iff.mp hc') with rfl | hrest
    · exact le_rfl
    · -- no other entry has that image
      have hnodup : ((c :: rest).map CachedImport.image).Nodup :=
        (hold.map _).nodup_iff.mp (List.nodup_append.mp (List.nodup_append.mp hheld.nodup).1).1
      exact absurd (List.mem_map.mpr ⟨c', hrest, himage⟩) (List.nodup_cons.mp hnodup).1

/-- A first import that gets an image. -/
theorem Known.cons (h : Known entries imported returned) {c : CachedImport} (hlast : c.lastUsed = q.now)
    (hparams : c.params = q.params) (hfile : c.file = q.file) (hfresh : ∀ r ∈ returned, r.1 < c.image)
    (hlt : ∀ c' ∈ entries, c'.image < c.image) :
    Known (c :: entries) (imported ++ [(c.image, q.params, q.file)]) (returned ++ [(c.image, q.now)]) := by
  refine ⟨fun c' hc' t hmem => ?_, fun c' hc' => ?_⟩
  · rcases List.mem_cons.mp hc', List.mem_append.mp hmem with ⟨rfl | hc', hmem | hmem⟩
    · exact absurd (hfresh _ hmem) (lt_irrefl _)
    · obtain ⟨-, rfl⟩ := Prod.mk.inj (List.mem_singleton.mp hmem)
      omega
    · exact h.lastUsed c' hc' t hmem
    · obtain ⟨himage, -⟩ := Prod.mk.inj (List.mem_singleton.mp hmem)
      exact absurd himage (Nat.ne_of_lt (hlt c' hc'))
  · rcases List.mem_cons.mp hc' with rfl | hc'
    · rw [hparams, hfile]
      exact List.mem_append_right _ List.mem_cons_self
    · exact List.mem_append_left _ (h.origin c' hc')

/-- A request is a sweep and then a hit or a first import. -/
theorem importOrReuse_spec (q : Request) (i : DmaBufImporter) (d : Device) : ∃ gone,
    Swept q.sweepAt i.entries (i.sweep q.sweepAt d).1.entries d (i.sweep q.sweepAt d).2 gone ∧
      ((∃ c rest, (i.sweep q.sweepAt d).1.reusable q = some c ∧ (i.sweep q.sweepAt d).1.entries ~ c :: rest ∧
          (i.importOrReuse q d).2.1.entries ~ { c with lastUsed := q.now } :: rest ∧
          (i.importOrReuse q d).1 = .ok (c.image, false) ∧
          (i.importOrReuse q d).2.2 = (i.sweep q.sweepAt d).2) ∨
        ((i.sweep q.sweepAt d).1.reusable q = none ∧ ∃ entries,
          Touches q.now (i.sweep q.sweepAt d).1.entries entries ∧
          FirstImport q entries (i.importOrReuse q d).2.1.entries (i.sweep q.sweepAt d).2 (i.importOrReuse q d).2.2
            (abandonedBy q (i.sweep q.sweepAt d).2) (i.importOrReuse q d).1)) := by
  obtain ⟨gone, hs⟩ := swept_sweep q.sweepAt i d
  refine ⟨gone, hs, ?_⟩
  rw [DmaBufImporter.importOrReuse]
  generalize i.sweep q.sweepAt d = swept
  obtain ⟨i, d⟩ := swept
  dsimp only
  cases hreusable : i.reusable q with
  | some c =>
    obtain ⟨hget, -⟩ := of_reusable hreusable
    exact .inl ⟨c, _, rfl, entries_of_get? hget, entries_modify hget, rfl, rfl⟩
  | none => exact .inr ⟨rfl, _, touches_retire q i, firstImport_importNew (get?_retire q i) d⟩

/-- A cached image is that of an entry. -/
theorem cached_of_importOrReuse {i : DmaBufImporter} {image : Nat}
    (h : (i.importOrReuse q d).1 = .ok (image, false)) :
    ∃ c ∈ i.entries, (i.sweep q.sweepAt d).1.reusable q = some c ∧ c.image = image := by
  obtain ⟨gone, hs, hcase⟩ := importOrReuse_spec q i d
  rcases hcase with ⟨c, rest, hreusable, hold, -, hout, -⟩ | ⟨-, entries, -, hf⟩
  · rw [hout] at h
    obtain ⟨rfl, -⟩ := Prod.mk.inj (Except.ok.inj h)
    exact ⟨c, hs.mem c (hold.mem_iff.mpr List.mem_cons_self), hreusable, rfl⟩
  · rcases hf.out with ⟨⟨e, hout⟩, -⟩ | ⟨c, hout, -⟩
    · rw [hout] at h
      cases h
    · rw [hout] at h
      cases h

end Requests

/-! ## Runs of requests -/

/-- What holds of the importer between requests. -/
structure Inv (abandoned : List Nat) (w : World) : Prop where
  held : Held w.importer.entries abandoned w.device
  known : Known w.importer.entries w.imported w.returned
  past : ∀ r ∈ w.returned, r.2 ≤ w.clock
  lt : ∀ r ∈ w.returned, r.1 < w.device.images

namespace World

theorem inv_start : Inv [] start where
  held := ⟨.nil, fun _ h => absurd h List.not_mem_nil⟩
  known := ⟨fun _ h => absurd h List.not_mem_nil, fun _ h => absurd h List.not_mem_nil⟩
  past _ h := absurd h List.not_mem_nil
  lt _ h := absurd h List.not_mem_nil

variable {w w' : World} {q : Request} {abandoned : List Nat}

theorem of_step (h : w.step q = some w') : w.clock ≤ q.sweepAt ∧ q.sweepAt ≤ q.now ∧
    w'.importer = (w.importer.importOrReuse q w.device).2.1 ∧
    w'.device = (w.importer.importOrReuse q w.device).2.2 ∧ w'.clock = q.now ∧
    w'.imported = (match w.result q with
      | .ok (image, true) => w.imported ++ [(image, q.params, q.file)]
      | _ => w.imported) ∧
    w'.returned = (match w.result q with
      | .ok (image, _) => w.returned ++ [(image, q.now)]
      | .error _ => w.returned) := by
  simp only [step, Option.ite_none_right_eq_some, Option.some.injEq] at h
  obtain ⟨⟨hclock, hsweep⟩, rfl⟩ := h
  exact ⟨hclock, hsweep, rfl, rfl, rfl, rfl, rfl⟩

/-- What the request leaves behind. -/
def left (w : World) (q : Request) : List Nat :=
  match (w.importer.sweep q.sweepAt w.device).1.reusable q with
  | some _ => []
  | none => abandonedBy q (w.importer.sweep q.sweepAt w.device).2

theorem left_eq_nil_iff (w : World) (q : Request) : w.left q = [] ↔ ¬AbandonsImage w q := by
  unfold left AbandonsImage
  cases (w.importer.sweep q.sweepAt w.device).1.reusable q with
  | some c => simp
  | none =>
    rw [abandonedBy_eq_nil_iff, abandons_iff]
    simp

theorem inv_step (h : Inv abandoned w) (hstep : w.step q = some w') : Inv (abandoned ++ w.left q) w' := by
  obtain ⟨hclock, hsweep, himporter, hdevice, hclock', himported, hreturned⟩ := of_step hstep
  obtain ⟨gone, hs, hcase⟩ := importOrReuse_spec q w.importer w.device
  have hheld := h.held.sweep hs
  have hknown := h.known.subset hs.mem
  have hpast : ∀ r ∈ w.returned, r.2 ≤ q.now := fun r hr => by
    have hle := h.past r hr
    omega
  have hlt := h.lt
  rw [← hs.images] at hlt
  rw [result] at himported hreturned
  rcases hcase with ⟨c, rest, hreusable, hold, hnew, hout, hdevice'⟩ | ⟨hreusable, entries, ht, hf⟩
  · -- a hit
    rw [hout] at himported hreturned
    rw [left, hreusable, List.append_nil]
    have hmem : c ∈ (w.importer.sweep q.sweepAt w.device).1.entries := hold.mem_iff.mpr List.mem_cons_self
    constructor
    · rw [himporter, hdevice, hdevice']
      exact hheld.perm (touches_of_perm hold hnew).images
    · rw [himporter, himported, hreturned]
      exact hknown.hit hheld hold hnew hpast
    · rw [hreturned, hclock']
      exact List.forall_mem_append.mpr ⟨hpast, List.forall_mem_singleton.mpr le_rfl⟩
    · rw [hreturned, hdevice, hdevice']
      exact List.forall_mem_append.mpr ⟨hlt, List.forall_mem_singleton.mpr (hheld.lt_of_mem hmem)⟩
  · have hheld' := hheld.perm ht.images
    have hknown' := hknown.touches ht hpast
    have himages : (w.importer.sweep q.sweepAt w.device).2.images ≤ w'.device.images := by
      obtain ⟨es, made, -, -, himages, -⟩ := hf.log
      rw [hdevice, himages]
      omega
    have hlt' : ∀ r ∈ w.returned, r.1 < w'.device.images := fun r hr => lt_of_lt_of_le (hlt r hr) himages
    have hheld'' : Held w'.importer.entries (abandoned ++ w.left q) w'.device := by
      rw [himporter, hdevice, left, hreusable]
      exact hheld'.firstImport hf
    rcases hf.out with ⟨⟨e, hout⟩, hentries⟩ | ⟨c, hout, hentries, himage, hparams, hfile, hlast⟩
    · -- the import fails
      rw [hout] at himported hreturned
      refine ⟨hheld'', ?_, ?_, ?_⟩
      · rw [himporter, hentries, himported, hreturned]
        exact hknown'
      · rw [hreturned, hclock']
        exact hpast
      · rw [hreturned]
        exact hlt'
    · -- the image has not been returned before
      rw [hout] at himported hreturned
      have hmem : c ∈ w'.importer.entries := by
        rw [himporter, hentries]
        exact List.mem_cons_self
      refine ⟨hheld'', ?_, ?_, ?_⟩
      · rw [himporter, hentries, himported, hreturned]
        refine hknown'.cons hlast hparams hfile (fun r hr => ?_) (fun c' hc' => ?_)
        · rw [himage]
          exact hlt r hr
        · rw [himage]
          exact hheld'.lt_of_mem hc'
      · rw [hreturned, hclock']
        exact List.forall_mem_append.mpr ⟨hpast, List.forall_mem_singleton.mpr le_rfl⟩
      · rw [hreturned]
        exact List.forall_mem_append.mpr ⟨hlt', List.forall_mem_singleton.mpr (hheld''.lt_of_mem hmem)⟩

/-- What is returned is the image of an entry. -/
theorem mem_entries_of_result (hstep : w.step q = some w') {image : Nat} {needsTransition : Bool}
    (hout : w.result q = .ok (image, needsTransition)) : ∃ c ∈ w'.importer.entries, c.image = image := by
  obtain ⟨-, -, himporter, -⟩ := of_step hstep
  obtain ⟨gone, hs, hcase⟩ := importOrReuse_spec q w.importer w.device
  rw [himporter]
  rw [result] at hout
  rcases hcase with ⟨c, rest, -, -, hnew, hout', -⟩ | ⟨-, entries, -, hf⟩
  · rw [hout'] at hout
    obtain ⟨rfl, -⟩ := Prod.mk.inj (Except.ok.inj hout)
    exact ⟨{ c with lastUsed := q.now }, hnew.mem_iff.mpr List.mem_cons_self, rfl⟩
  · rcases hf.out with ⟨⟨e, hout'⟩, -⟩ | ⟨c, hout', hentries, -⟩
    · rw [hout'] at hout
      cases hout
    · rw [hout'] at hout
      obtain ⟨rfl, -⟩ := Prod.mk.inj (Except.ok.inj hout)
      rw [hentries]
      exact ⟨c, List.mem_cons_self, rfl⟩

/-- A hit is an entry of the same parameters and the same open file. -/
theorem hit_imported (h : Inv abandoned w) {image : Nat} (hout : w.result q = .ok (image, false)) :
    (image, q.params, q.file) ∈ w.imported := by
  obtain ⟨c, hc, hreusable, rfl⟩ := cached_of_importOrReuse hout
  obtain ⟨-, hparams, hfile⟩ := of_reusable hreusable
  rw [← hparams, ← hfile]
  exact h.known.origin c hc

/-- What the request destroys is an entry that the sweep has let go of, or an image that
has not been returned. -/
theorem destroyed_expired (h : Inv abandoned w) (hstep : w.step q = some w') {image t : Nat}
    (hreturned : (image, t) ∈ w.returned) (hbefore : image ∉ images.released w.device.log)
    (hafter : image ∈ images.released w'.device.log) : t + cacheTtl ≤ q.sweepAt := by
  obtain ⟨-, -, -, hdevice, -⟩ := of_step hstep
  obtain ⟨gone, hs, hcase⟩ := importOrReuse_spec q w.importer w.device
  obtain ⟨es, hlog, -, hreleased⟩ := hs.log
  have hswept : image ∈ images.released (w.importer.sweep q.sweepAt w.device).2.log := by
    rw [hdevice] at hafter
    rcases hcase with ⟨c, rest, -, -, -, -, hdevice'⟩ | ⟨-, entries, ht, hf⟩
    · rwa [hdevice'] at hafter
    · obtain ⟨es, made, hlog', -, -, -, hnew, -⟩ := hf.log
      rw [hlog', Ledger.released_append, List.mem_append] at hafter
      rcases hafter with hafter | hafter
      · exact hafter
      · have hlt := h.lt _ hreturned
        have heq := hnew image hafter
        rw [hs.images] at heq
        omega
  rw [hlog, Ledger.released_append, List.mem_append] at hswept
  rcases hswept with hold | hgone
  · exact absurd hold hbefore
  · rw [hreleased] at hgone
    obtain ⟨c, hc, rfl⟩ := List.mem_map.mp hgone
    have hlast := h.known.lastUsed c (hs.entries.mem_iff.mpr (List.mem_append_right _ hc)) t hreturned
    have hexpired := hs.expired c hc
    omega

theorem leaves_life (h : Inv abandoned w) : images.Leaves w.life abandoned := by
  obtain ⟨es, hlog, hacquired, hreleased, -⟩ := foldl_release w.importer.entries w.device
  show images.Leaves (w.importer.entries.foldl DmaBufImporter.release w.device).log abandoned
  rw [hlog]
  refine h.held.leaves.append (by rw [hacquired]; exact List.nodup_nil) (by simp [hacquired]) ?_
  rw [hacquired, hreleased, List.append_nil]
  exact List.perm_append_comm

/-- One request, where none before it has left an image behind. -/
theorem lifetimes_step_iff (h : Inv [] w) (hstep : w.step q = some w') :
    Lifetimes w q w' ↔ ¬AbandonsImage w q := by
  have hinv : Inv (w.left q) w' := inv_step h hstep
  rw [← left_eq_nil_iff, ← (leaves_life hinv).settled_iff]
  refine ⟨Lifetimes.once, fun honce =>
    ⟨fun image needsTransition hout => ?_, fun image t => ?_, ?_, ?_, honce⟩⟩
  · obtain ⟨c, hc, rfl⟩ := mem_entries_of_result hstep hout
    exact hinv.held.not_released hc
  · exact destroyed_expired h hstep
  · exact fun image => hit_imported h
  · exact (List.nodup_append.mp (List.nodup_append.mp hinv.held.nodup).1).1

end World

/-- The images that the importer returns live as long as is claimed, over the requests,
exactly if no request leaves an image behind. -/
theorem lifetimes_iff (qs : List Request) : EveryStep World.step Lifetimes .start qs ↔
    EveryStep World.step (fun w q _ => ¬AbandonsImage w q) .start qs := by
  refine EveryStep.iff_of_inv ?_ ?_ World.inv_start qs
  · exact fun w q w' h hstep => World.lifetimes_step_iff h hstep
  · intro w q w' h hstep hkept
    have hinv := World.inv_step h hstep
    rwa [(World.left_eq_nil_iff w q).mpr hkept] at hinv

/-- One plane of a file descriptor whose properties cannot be had. -/
def lostRequest : Request where
  fd := 5
  width := 1920
  height := 1080
  format := 44
  planes := [⟨5, 0, 7680, 0⟩]
  file := 0
  sweepAt := 0
  now := 0
  tryClone := .ok ()
  results := noProperties

/-- The image is made, and is not destroyed by the drop. -/
theorem lostRequest_never_destroyed : ¬EveryStep World.step Lifetimes .start [lostRequest] := by
  intro h
  have honce := (h _ rfl).1.once 0 (by decide)
  exact absurd honce (by decide)

end Moonshine.Proof.DmaBuf
