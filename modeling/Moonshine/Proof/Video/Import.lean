import Moonshine.Framework.Ledger
import Moonshine.Impl.Video.DmaBuf

/-!
# Failed imports

What `import_internal` acquires and releases: images, blocks of memory, and duplicated
file descriptors, which belong to the memory once it is allocated. There are six ways
in which the call ends (`Ending`), and each has its effects (`importInternal_spec`).
Where the properties of the file descriptor, its duplicate or a memory type cannot be
had, the image is left behind; where the memory cannot be allocated or has no type,
the duplicate is. The call leaks nothing exactly where it ends otherwise:
`importInternal_leaks_nothing_iff`.
-/

namespace Moonshine.Proof.DmaBuf

open Moonshine.Framework Moonshine.Impl.DmaBuf

open scoped List

inductive Resource
  | image (n : Nat)
  | memory (n : Nat)
  | fd (n : Nat)
  deriving DecidableEq, Repr

def resources : Ledger Effect Resource where
  acquires
    | .createImage image _ => some (.image image)
    | .allocateMemory memory _ => some (.memory memory)
    | .dupFd fd => some (.fd fd)
    | .destroyImage _ | .freeMemory _ | .closeFd _ => none
  releases
    | .destroyImage image => some (.image image)
    | .freeMemory memory => some (.memory memory)
    | .closeFd fd => some (.fd fd)
    | .allocateMemory _ info => some (.fd info.fd)
    | .createImage _ _ | .dupFd _ => none

/-- The call releases once what it acquires, where it fails; otherwise all but the image
that it returns and its memory, which it does not release. -/
structure LeaksNothing (es : List Effect) (out : Except String (Nat × Nat)) : Prop where
  failed : ∀ e, out = .error e → ∀ r ∈ resources.acquired es, (resources.released es).count r = 1
  returned : ∀ image memory, out = .ok (image, memory) →
    resources.Leaves es [.image image, .memory memory] ∧
      ∃ info, .allocateMemory memory info ∈ es ∧ info.image = image

/-- The call ends before it has an image, or gets as far as the memory. -/
def CleansUp (planes : List DmaBufPlane) (r : Results) : Prop :=
  planes = [] ∨ (∃ e, r.createImage = .error e) ∨ ∃ fdTypeBits, r.fdProperties = .ok fdTypeBits ∧
    r.dup = .ok () ∧ (r.findMemoryType (r.memRequirements.2 &&& fdTypeBits)).isSome = true ∧
    r.allocateMemory = .ok ()

inductive Ending
  /-- Before there is an image. -/
  | refused
  /-- With the image, before there is a duplicate. -/
  | noFd
  | noMemoryType
  | noMemory
  | notBound
  | imported
  deriving DecidableEq, Repr

def ending (planes : List DmaBufPlane) (r : Results) : Ending :=
  match planes, r.createImage with
  | [], _ => .refused
  | _ :: _, .error _ => .refused
  | _ :: _, .ok () =>
    match r.fdProperties, r.dup with
    | .error _, _ => .noFd
    | .ok _, .error _ => .noFd
    | .ok fdTypeBits, .ok () =>
      match r.findMemoryType (r.memRequirements.2 &&& fdTypeBits), r.allocateMemory, r.bindImageMemory with
      | none, _, _ => .noMemoryType
      | some _, .error _, _ => .noMemory
      | some _, .ok (), .error _ => .notBound
      | some _, .ok (), .ok () => .imported

/-- What the call does on its way to the ending. -/
def Ending.effects (d : Device) (image : ImageCreateInfo) (memory : MemoryAllocateInfo) : Ending → List Effect
  | refused => []
  | noFd => [.createImage d.images image]
  | noMemoryType => [.createImage d.images image, .dupFd d.fds]
  | noMemory => [.createImage d.images image, .dupFd d.fds, .destroyImage d.images]
  | notBound => [.createImage d.images image, .dupFd d.fds, .allocateMemory d.memories memory,
      .freeMemory d.memories, .destroyImage d.images]
  | imported => [.createImage d.images image, .dupFd d.fds, .allocateMemory d.memories memory]

/-- What the call returns. -/
def Ending.Returns (d : Device) (out : Except String (Nat × Nat)) : Ending → Prop
  | imported => out = .ok (d.images, d.memories)
  | refused => ∃ e, out = .error e
  | noFd => ∃ e, out = .error e
  | noMemoryType => ∃ e, out = .error e
  | noMemory => ∃ e, out = .error e
  | notBound => ∃ e, out = .error e

/-- What is acquired on the way and not released. -/
def Ending.left (d : Device) : Ending → List Resource
  | refused => []
  | noFd => [.image d.images]
  | noMemoryType => [.image d.images, .fd d.fds]
  | noMemory => [.fd d.fds]
  | notBound => []
  | imported => [.image d.images, .memory d.memories]

/-- The images that are made on the way. -/
def Ending.images : Ending → Nat
  | refused => 0
  | noFd => 1
  | noMemoryType => 1
  | noMemory => 1
  | notBound => 1
  | imported => 1

section Import

variable (width height : UInt32) (format : Format) (planes : List DmaBufPlane) (r : Results) (d : Device)

/-- The effects and the result of `import_internal`. -/
theorem importInternal_spec : ∃ image memory, memory.fd = d.fds ∧ memory.image = d.images ∧
    (importInternal width height format planes r d).2.log =
      d.log ++ (ending planes r).effects d image memory ∧
    (importInternal width height format planes r d).2.images = d.images + (ending planes r).images ∧
    (ending planes r).Returns d (importInternal width height format planes r d).1 := by
  unfold importInternal ending
  cases planes with
  | nil =>
    exact ⟨⟨0, 0, 0, 0, []⟩, ⟨0, 0, d.fds, d.images⟩, rfl, rfl, (List.append_nil _).symm, rfl, _, rfl⟩
  | cons plane planes =>
    let info : ImageCreateInfo :=
      ⟨width, height, format, plane.modifier, (plane :: planes).map fun p => (p.offset, p.stride)⟩
    cases r.createImage with
    | error e => exact ⟨info, ⟨0, 0, d.fds, d.images⟩, rfl, rfl, (List.append_nil _).symm, rfl, _, rfl⟩
    | ok u =>
      cases r.fdProperties with
      | error e => exact ⟨info, ⟨0, 0, d.fds, d.images⟩, rfl, rfl, rfl, rfl, _, rfl⟩
      | ok fdTypeBits =>
        cases r.dup with
        | error e => exact ⟨info, ⟨0, 0, d.fds, d.images⟩, rfl, rfl, rfl, rfl, _, rfl⟩
        | ok u =>
          dsimp only
          cases r.findMemoryType (r.memRequirements.2 &&& fdTypeBits) with
          | none => exact ⟨info, ⟨0, 0, d.fds, d.images⟩, rfl, rfl, List.append_assoc .., rfl, _, rfl⟩
          | some memoryTypeIndex =>
            have hlog (es : List Effect) : d.log ++ [.createImage d.images info] ++ [.dupFd d.fds] ++ es =
                d.log ++ (.createImage d.images info :: .dupFd d.fds :: es) := by simp
            let memory : MemoryAllocateInfo := ⟨r.memRequirements.1, memoryTypeIndex, d.fds, d.images⟩
            refine ⟨info, memory, rfl, rfl, ?_⟩
            cases r.allocateMemory with
            | error e => exact ⟨hlog [.destroyImage d.images], rfl, _, rfl⟩
            | ok u =>
              cases r.bindImageMemory with
              | error e =>
                refine ⟨?_, rfl, _, rfl⟩
                show d.log ++ [.createImage d.images info] ++ [.dupFd d.fds] ++
                  [.allocateMemory d.memories memory] ++ [.freeMemory d.memories] ++ [.destroyImage d.images] = _
                simp [Ending.effects]
              | ok u => exact ⟨hlog [.allocateMemory d.memories memory], rfl, rfl⟩

theorem cleansUp_iff : CleansUp planes r ↔
    ending planes r ≠ .noFd ∧ ending planes r ≠ .noMemoryType ∧ ending planes r ≠ .noMemory := by
  unfold CleansUp ending
  cases planes with
  | nil => simp
  | cons plane planes =>
    cases r.createImage with
    | error e => simp
    | ok u =>
      cases r.fdProperties with
      | error e => simp
      | ok fdTypeBits =>
        cases r.dup with
        | error e => simp
        | ok u =>
          simp only [Except.ok.injEq, exists_eq_left']
          cases r.findMemoryType (r.memRequirements.2 &&& fdTypeBits) with
          | none => simp
          | some memoryTypeIndex =>
            cases r.allocateMemory with
            | error e => simp
            | ok u => cases r.bindImageMemory <;> simp

variable {d} {image : ImageCreateInfo} {memory : MemoryAllocateInfo} {out : Except String (Nat × Nat)}

theorem leaves_effects (hfd : memory.fd = d.fds) (e : Ending) :
    resources.Leaves (e.effects d image memory) (e.left d) := by
  cases e with
  | refused => exact .nil
  | noFd => exact ⟨List.nodup_singleton _, .refl _⟩
  | noMemoryType => exact ⟨by simp [resources, Ledger.acquired, Ending.effects], .refl _⟩
  | noMemory => exact ⟨by simp [resources, Ledger.acquired, Ending.effects], .swap ..⟩
  | notBound =>
    refine ⟨by simp [resources, Ledger.acquired, Ending.effects], ?_⟩
    show [Resource.image d.images, .fd d.fds, .memory d.memories] ~
      [Resource.fd memory.fd, .memory d.memories, .image d.images]
    rw [hfd]
    exact @List.perm_append_comm _ [Resource.image d.images] [.fd d.fds, .memory d.memories]
  | imported =>
    refine ⟨by simp [resources, Ledger.acquired, Ending.effects], ?_⟩
    show [Resource.image d.images, .fd d.fds, .memory d.memories] ~
      [Resource.image d.images, .memory d.memories, .fd memory.fd]
    rw [hfd]
    exact (List.Perm.swap ..).cons _

/-- Each ending, and whether something is left behind. -/
theorem leaksNothing_effects_iff (hfd : memory.fd = d.fds) (himage : memory.image = d.images) {e : Ending}
    (hreturns : e.Returns d out) :
    LeaksNothing (e.effects d image memory) out ↔ e ≠ .noFd ∧ e ≠ .noMemoryType ∧ e ≠ .noMemory := by
  have hleaves : resources.Leaves (e.effects d image memory) (e.left d) := leaves_effects hfd e
  by_cases himported : e = .imported
  · subst himported
    obtain rfl := hreturns
    refine iff_of_true ⟨fun _ h => (by cases h), fun i m h => ?_⟩ (by decide)
    cases h
    exact ⟨hleaves, memory, by simp [Ending.effects], himage⟩
  · -- the call fails, and leaves what is open
    obtain ⟨text, rfl⟩ : ∃ text, out = .error text := by
      cases e with
      | imported => exact absurd rfl himported
      | refused => exact hreturns
      | noFd => exact hreturns
      | noMemoryType => exact hreturns
      | noMemory => exact hreturns
      | notBound => exact hreturns
    have hsettled : LeaksNothing (e.effects d image memory) (.error text) ↔ e.left d = [] := by
      rw [← hleaves.settled_iff]
      exact ⟨fun h => h.failed text rfl, fun h => ⟨fun _ _ => h, fun _ _ h => (by cases h)⟩⟩
    rw [hsettled]
    cases e <;> simp_all [Ending.left]

end Import

/-- `import_internal` leaks nothing exactly if it ends before it has an image, or gets as
far as the memory. -/
theorem importInternal_leaks_nothing_iff (width height : UInt32) (format : Format) (planes : List DmaBufPlane)
    (r : Results) (d : Device) :
    ∃ es, (importInternal width height format planes r d).2.log = d.log ++ es ∧
      (LeaksNothing es (importInternal width height format planes r d).1 ↔ CleansUp planes r) := by
  obtain ⟨image, memory, hfd, himage, hlog, -, hreturns⟩ := importInternal_spec width height format planes r d
  exact ⟨_, hlog, (leaksNothing_effects_iff hfd himage hreturns).trans (cleansUp_iff planes r).symm⟩

/-- Everything works, but the properties of the file descriptor cannot be had. -/
def noProperties : Results where
  createImage := .ok ()
  memRequirements := (8294400, 1)
  fdProperties := .error "ERROR_INVALID_EXTERNAL_HANDLE"
  dup := .ok ()
  findMemoryType bits := if bits &&& 1 = 0 then none else some 0
  allocateMemory := .ok ()
  bindImageMemory := .ok ()

/-- The image is left behind. -/
theorem noProperties_leaks_image :
    ∃ es, (importInternal 1920 1080 44 [⟨5, 0, 7680, 0⟩] noProperties .new).2.log = Device.new.log ++ es ∧
      ¬LeaksNothing es (importInternal 1920 1080 44 [⟨5, 0, 7680, 0⟩] noProperties .new).1 := by
  refine ⟨_, rfl, fun h => ?_⟩
  have himage := h.failed _ rfl (.image 0) (by decide)
  exact absurd himage (by decide)

end Moonshine.Proof.DmaBuf
