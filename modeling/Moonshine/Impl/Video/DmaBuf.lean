import Moonshine.Framework.HashMap

/-!
# The DMA-BUF importer, `session/stream/video/pipeline/dmabuf.rs`

The importer with its cache, and the calls it makes of Vulkan and the kernel, which
are put into a log. An image, a block of memory or a duplicated file descriptor is
the number of its kind that was made before it; how a call ends is chosen by the
request. The file descriptors of a request are open, and what `kcmp` compares is
the open file that they refer to. Instants are in nanoseconds. The lines that only
write to the log of the server are left out.
-/

namespace Moonshine.Impl.DmaBuf

open Moonshine.Framework

abbrev RawFd := Int32

/-- `vk::Format`. -/
abbrev Format := Int32

/-- `CACHE_TTL`, two seconds. -/
def cacheTtl : Nat := 2000000000

/-- `SWEEP_INTERVAL_CALLS`. -/
def sweepIntervalCalls : Nat := 60

structure DmaBufPlane where
  fd : RawFd
  offset : UInt32
  stride : UInt32
  modifier : UInt64
  deriving DecidableEq, Repr

structure ImportParams where
  width : UInt32
  height : UInt32
  format : Format
  modifier : UInt64
  planeCount : Nat
  /-- Offset and stride of four planes. -/
  planeLayouts : List (UInt32 × UInt32)
  deriving DecidableEq, Repr

def ImportParams.new (width height : UInt32) (format : Format) (planes : List DmaBufPlane) : ImportParams where
  width
  height
  format
  modifier := (planes.head?.map DmaBufPlane.modifier).getD 0
  planeCount := min planes.length 4
  planeLayouts := (planes.take 4).map (fun p => (p.offset, p.stride)) ++
    List.replicate (4 - min planes.length 4) (0, 0)

structure ImageCreateInfo where
  width : UInt32
  height : UInt32
  format : Format
  modifier : UInt64
  planeLayouts : List (UInt32 × UInt32)
  deriving DecidableEq, Repr

/-- A dedicated allocation, which imports a file descriptor. -/
structure MemoryAllocateInfo where
  allocationSize : UInt64
  memoryTypeIndex : UInt32
  fd : Nat
  image : Nat
  deriving DecidableEq, Repr

inductive Effect
  | createImage (image : Nat) (info : ImageCreateInfo)
  | destroyImage (image : Nat)
  /-- The file descriptor belongs to the memory from here on. -/
  | allocateMemory (memory : Nat) (info : MemoryAllocateInfo)
  | freeMemory (memory : Nat)
  | dupFd (fd : Nat)
  | closeFd (fd : Nat)
  deriving DecidableEq, Repr

structure Device where
  images : Nat
  memories : Nat
  fds : Nat
  log : List Effect

namespace Device

def new : Device := ⟨0, 0, 0, []⟩

def createImage (info : ImageCreateInfo) (d : Device) : Nat × Device :=
  (d.images, { d with images := d.images + 1, log := d.log ++ [.createImage d.images info] })

def allocateMemory (info : MemoryAllocateInfo) (d : Device) : Nat × Device :=
  (d.memories, { d with memories := d.memories + 1, log := d.log ++ [.allocateMemory d.memories info] })

def dupFd (d : Device) : Nat × Device := (d.fds, { d with fds := d.fds + 1, log := d.log ++ [.dupFd d.fds] })

def destroyImage (image : Nat) (d : Device) : Device := { d with log := d.log ++ [.destroyImage image] }

def freeMemory (memory : Nat) (d : Device) : Device := { d with log := d.log ++ [.freeMemory memory] }

def closeFd (fd : Nat) (d : Device) : Device := { d with log := d.log ++ [.closeFd fd] }

end Device

/-- How the calls of `import_internal` end, as far as they are made: an error with its
text, or what they return. -/
structure Results where
  createImage : Except String Unit
  /-- Size and type bits of the image. -/
  memRequirements : UInt64 × UInt32
  /-- The type bits of the file descriptor. -/
  fdProperties : Except String UInt32
  dup : Except String Unit
  /-- `find_memory_type` of the context, of any type bits. -/
  findMemoryType : UInt32 → Option UInt32
  allocateMemory : Except String Unit
  bindImageMemory : Except String Unit

/-- `import_internal`. The duplicate of the file descriptor is a raw one, which nothing
closes. -/
def importInternal (width height : UInt32) (format : Format) (planes : List DmaBufPlane) (r : Results)
    (d : Device) : Except String (Nat × Nat) × Device :=
  match planes with
  | [] => (.error "At least one DMA-BUF plane is required", d)
  | plane :: _ =>
    match r.createImage with
    | .error e => (.error ("DMA-BUF image creation: " ++ e), d)
    | .ok () =>
      let (image, d) := d.createImage
        ⟨width, height, format, plane.modifier, planes.map fun p => (p.offset, p.stride)⟩
      match r.fdProperties with
      | .error e => (.error ("Failed to get memory FD properties: " ++ e), d)
      | .ok fdTypeBits =>
        match r.dup with
        | .error e => (.error ("Failed to duplicate DMA-BUF FD: " ++ e), d)
        | .ok () =>
          let (fd, d) := d.dupFd
          match r.findMemoryType (r.memRequirements.2 &&& fdTypeBits) with
          | none => (.error "No suitable memory type for DMA-BUF import", d)
          | some memoryTypeIndex =>
            match r.allocateMemory with
            | .error e => (.error ("DMA-BUF memory import: " ++ e), d.destroyImage image)
            | .ok () =>
              let (memory, d) := d.allocateMemory ⟨r.memRequirements.1, memoryTypeIndex, fd, image⟩
              match r.bindImageMemory with
              | .error e => (.error ("DMA-BUF memory bind: " ++ e), (d.freeMemory memory).destroyImage image)
              | .ok () => (.ok (image, memory), d)

structure CachedImport where
  image : Nat
  memory : Nat
  params : ImportParams
  /-- The duplicate that is held, and the open file that it refers to. -/
  fd : Nat
  file : Nat
  lastUsed : Nat
  deriving DecidableEq, Repr

/-- `is_same_buffer`, of a file descriptor that refers to `file`. -/
def CachedImport.isSameBuffer (file : Nat) (c : CachedImport) : Bool := c.file = file

structure DmaBufImporter where
  cache : HashMap RawFd CachedImport
  retired : List CachedImport
  callsSinceSweep : Nat

/-- A call of `import_or_reuse`, with what it reads off the clock: at the sweep, if there
is one, and after it. -/
structure Request where
  fd : RawFd
  width : UInt32
  height : UInt32
  format : Format
  planes : List DmaBufPlane
  /-- The open file that `fd` refers to. -/
  file : Nat
  sweepAt : Nat
  now : Nat
  /-- How the duplication for the cache ends. -/
  tryClone : Except String Unit
  results : Results

def Request.params (q : Request) : ImportParams := .new q.width q.height q.format q.planes

namespace DmaBufImporter

def new : DmaBufImporter := ⟨∅, [], 0⟩

/-- Destroys the image and frees the memory; the duplicate is closed when the entry goes. -/
def release (d : Device) (c : CachedImport) : Device :=
  ((d.destroyImage c.image).freeMemory c.memory).closeFd c.fd

/-- The entry has not been touched for longer than `CACHE_TTL`. -/
def isExpired (now : Nat) (c : CachedImport) : Bool := c.lastUsed + cacheTtl < now

/-- All that the importer has imported and not destroyed. -/
def entries (i : DmaBufImporter) : List CachedImport := i.cache.values ++ i.retired

def evictStale (now : Nat) (i : DmaBufImporter) (d : Device) : DmaBufImporter × Device :=
  ({ i with
      cache := i.cache.retain fun _ c => !isExpired now c
      retired := i.retired.filter fun c => !isExpired now c },
    (i.entries.filter (isExpired now)).foldl release d)

/-- The sweep that is due every so many calls. -/
def sweep (now : Nat) (i : DmaBufImporter) (d : Device) : DmaBufImporter × Device :=
  let callsSinceSweep := i.callsSinceSweep + 1
  if callsSinceSweep ≥ sweepIntervalCalls then { i with callsSinceSweep := 0 }.evictStale now d
  else ({ i with callsSinceSweep }, d)

/-- The cached import that may be reused: the same file descriptor, with the same
parameters and the same open file behind it. -/
def reusable (q : Request) (i : DmaBufImporter) : Option CachedImport :=
  (i.cache.get? q.fd).filter fun c => c.params = q.params ∧ c.isSameBuffer q.file

/-- What the cache has of the file descriptor is for another buffer. -/
def retire (q : Request) (i : DmaBufImporter) : DmaBufImporter :=
  match i.cache.get? q.fd with
  | some stale => { i with cache := i.cache.erase q.fd, retired := i.retired ++ [{ stale with lastUsed := q.now }] }
  | none => i

/-- A first import. -/
def importNew (q : Request) (i : DmaBufImporter) (d : Device) :
    Except String (Nat × Bool) × DmaBufImporter × Device :=
  match q.tryClone with
  | .error e => (.error ("Failed to duplicate DMA-BUF FD for the import cache: " ++ e), i, d)
  | .ok () =>
    let (fd, d) := d.dupFd
    match importInternal q.width q.height q.format q.planes q.results d with
    | (.error e, d) => (.error e, i, d.closeFd fd)
    | (.ok (image, memory), d) =>
      (.ok (image, true), { i with cache := i.cache.insert q.fd ⟨image, memory, q.params, fd, q.file, q.now⟩ }, d)

/-- `import_or_reuse`: the image, and whether it needs a transition. -/
def importOrReuse (q : Request) (i : DmaBufImporter) (d : Device) :
    Except String (Nat × Bool) × DmaBufImporter × Device :=
  let (i, d) := i.sweep q.sweepAt d
  match i.reusable q with
  | some cached =>
    (.ok (cached.image, false), { i with cache := i.cache.modify q.fd fun c => { c with lastUsed := q.now } }, d)
  | none => (i.retire q).importNew q d

def drop (i : DmaBufImporter) (d : Device) : Device := i.entries.foldl release d

end DmaBufImporter

end Moonshine.Impl.DmaBuf
