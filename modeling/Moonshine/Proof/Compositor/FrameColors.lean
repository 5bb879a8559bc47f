import Moonshine.Impl.Compositor.Color

/-!
# The colours of a frame and map order

The frame's colour space is the same for every iteration order (`frameColorSpace_eq`).
The metadata is that of the first HDR surface that declares some, among the swapchains'
if there is one there and among the other surfaces' otherwise: for every order, any of
these may be the first (`exists_iteration`). So it depends on no order and belongs to a
surface with the frame's colour space exactly if these all declare the same metadata, and
so does a PQ surface where there is one: `consistent_iff`.
-/

namespace Moonshine.Proof.Compositor

open Moonshine.Framework Moonshine.Impl Moonshine.Impl.ColorManagement

variable {cm : ColorManagementState}

/-- What the surfaces are described as. -/
def descriptions (cm : ColorManagementState) : List ImageDescription :=
  cm.gamescopeCurrent.values.filterMap (·.toImageDescription) ++ cm.current.values

theorem descriptions_perm (i : Iteration cm) : i.descriptions.Perm (descriptions cm) :=
  (i.gamescopeCurrent_perm.filterMap _).append i.current_perm

/-- PQ before scRGB. -/
def preferred (l : List ImageDescription) : FrameColorSpace :=
  if ∃ desc ∈ l, desc.toFrameColorSpace = .bt2020Pq then .bt2020Pq
  else if ∃ desc ∈ l, desc.toFrameColorSpace = .scrgbLinear then .scrgbLinear
  else .srgb

theorem preferred_congr {l l' : List ImageDescription} (h : ∀ desc, desc ∈ l ↔ desc ∈ l') :
    preferred l = preferred l' := by
  simp only [preferred, h]

theorem preferred_of_mem {l : List ImageDescription} {desc : ImageDescription} (h : desc ∈ l)
    (hhdr : desc.toFrameColorSpace ≠ .srgb) (hpq : ∀ e ∈ l, e.toFrameColorSpace ≠ .bt2020Pq) :
    preferred l = desc.toFrameColorSpace := by
  have hsc : desc.toFrameColorSpace = .scrgbLinear := by
    cases hcs : desc.toFrameColorSpace with
    | srgb => exact absurd hcs hhdr
    | bt2020Pq => exact absurd hcs (hpq desc h)
    | scrgbLinear => rfl
  rw [preferred, if_neg fun ⟨e, he, hcs⟩ => hpq e he hcs, if_pos ⟨desc, h, hsc⟩, hsc]

theorem preferred_of_pq {l : List ImageDescription} {desc : ImageDescription} (h : desc ∈ l)
    (hpq : desc.toFrameColorSpace = .bt2020Pq) : preferred l = .bt2020Pq :=
  if_pos ⟨desc, h, hpq⟩

theorem frameColorSpace_eq (i : Iteration cm) : i.frameColorSpace = preferred (descriptions cm) := by
  rw [preferred_congr fun _ => (descriptions_perm i).mem_iff.symm, Iteration.frameColorSpace, preferred]
  by_cases hpq : ∃ desc ∈ i.descriptions, desc.toFrameColorSpace = .bt2020Pq
  · rw [if_pos hpq, if_pos (by simpa using hpq)]
  · rw [if_neg hpq, if_neg (by simpa using hpq)]
    cases hfind : (i.descriptions.map (·.toFrameColorSpace)).find? (· ≠ .srgb) with
    | none =>
      rw [List.find?_eq_none] at hfind
      refine (if_neg ?_).symm
      rintro ⟨desc, hdesc, hsc⟩
      have hsrgb := hfind _ (List.mem_map_of_mem hdesc)
      simp [hsc] at hsrgb
    | some cs =>
      obtain ⟨desc, hdesc, rfl⟩ := List.mem_map.mp (List.mem_of_find?_eq_some hfind)
      have hne : desc.toFrameColorSpace ≠ .srgb := by simpa using List.find?_some hfind
      have hsc : desc.toFrameColorSpace = .scrgbLinear := by
        cases hcs : desc.toFrameColorSpace with
        | srgb => exact absurd hcs hne
        | bt2020Pq => exact absurd ⟨desc, hdesc, hcs⟩ hpq
        | scrgbLinear => rfl
      rw [if_pos ⟨desc, hdesc, hsc⟩, hsc]
      rfl

/-- HDR descriptions that carry metadata. -/
def withMetadata (l : List ImageDescription) : List ImageDescription :=
  l.filter fun desc => desc.toFrameColorSpace ≠ .srgb && desc.hasMetadata

/-- Those of the map that is searched first. -/
def sources (cm : ColorManagementState) : List ImageDescription :=
  let swapchains := withMetadata (cm.gamescopeCurrent.values.filterMap (·.toImageDescription))
  if swapchains = [] then withMetadata cm.current.values else swapchains

theorem hdrDescription_eq (i : Iteration cm) : i.hdrDescription =
    (withMetadata (i.gamescopeCurrent.filterMap (·.toImageDescription)) ++ withMetadata i.current).head? := by
  rw [Iteration.hdrDescription, ← List.head?_filter, List.filter_filter, Iteration.descriptions, withMetadata,
    withMetadata, ← List.filter_append]
  simp only [Bool.and_comm]

theorem mem_withMetadata {l : List ImageDescription} {desc : ImageDescription} : desc ∈ withMetadata l ↔
    desc ∈ l ∧ desc.toFrameColorSpace ≠ .srgb ∧ desc.hasMetadata = true := by
  simp [withMetadata]

theorem withMetadata_perm {l l' : List ImageDescription} (h : l.Perm l') :
    (withMetadata l).Perm (withMetadata l') :=
  h.filter _

theorem withMetadata_cons {l : List ImageDescription} {desc : ImageDescription}
    (hhdr : desc.toFrameColorSpace ≠ .srgb) (hmeta : desc.hasMetadata = true) :
    withMetadata (desc :: l) = desc :: withMetadata l :=
  List.filter_cons_of_pos (by simp [hhdr, hmeta])

theorem mem_descriptions_of_mem_sources {desc : ImageDescription} (h : desc ∈ sources cm) :
    desc ∈ withMetadata (descriptions cm) := by
  rw [withMetadata, descriptions, List.filter_append, List.mem_append]
  simp only [sources] at h
  split at h
  next => exact .inr h
  next => exact .inl h

/-- What is found is a source, and where nothing is found there is none. -/
theorem hdrDescription_sources (i : Iteration cm) :
    (∀ desc, i.hdrDescription = some desc → desc ∈ sources cm) ∧ (i.hdrDescription = none → sources cm = []) := by
  have hswapchains := withMetadata_perm (i.gamescopeCurrent_perm.filterMap (·.toImageDescription))
  have hcurrent := withMetadata_perm i.current_perm
  rw [hdrDescription_eq]
  simp only [sources]
  split
  next hnil =>
    rw [hnil] at hswapchains
    rw [hswapchains.eq_nil, List.nil_append]
    constructor
    · exact fun desc hdesc => hcurrent.mem_iff.mp (List.mem_of_head? hdesc)
    · intro hnone
      rw [List.head?_eq_none_iff] at hnone
      rw [hnone] at hcurrent
      exact hcurrent.nil_eq.symm
  next hne =>
    have hne' : withMetadata (i.gamescopeCurrent.filterMap (·.toImageDescription)) ≠ [] := by
      intro hnil
      rw [hnil] at hswapchains
      exact hne hswapchains.nil_eq.symm
    rw [List.head?_append_of_ne_nil _ hne']
    constructor
    · exact fun desc hdesc => hswapchains.mem_iff.mp (List.mem_of_head? hdesc)
    · exact fun hnone => absurd (List.head?_eq_none_iff.mp hnone) hne'

/-- Any source can be the one that is found. -/
theorem exists_iteration {desc : ImageDescription} (h : desc ∈ sources cm) :
    ∃ i : Iteration cm, i.hdrDescription = some desc := by
  obtain ⟨-, hhdr, hmeta⟩ := mem_withMetadata.mp (mem_descriptions_of_mem_sources h)
  simp only [sources] at h
  split at h
  next hnil =>
    have hmem := (mem_withMetadata.mp h).1
    refine ⟨⟨cm.gamescopeCurrent.values, desc :: cm.current.values.erase desc, .refl _,
      (List.perm_cons_erase hmem).symm⟩, ?_⟩
    rw [hdrDescription_eq]
    simp only
    rw [hnil, withMetadata_cons hhdr hmeta]
    rfl
  next =>
    obtain ⟨c, hc, hdesc⟩ := List.mem_filterMap.mp (mem_withMetadata.mp h).1
    refine ⟨⟨c :: cm.gamescopeCurrent.values.erase c, cm.current.values, (List.perm_cons_erase hc).symm,
      .refl _⟩, ?_⟩
    rw [hdrDescription_eq]
    simp only
    rw [List.filterMap_cons_some hdesc, withMetadata_cons hhdr hmeta]
    rfl

/-- Both functions return the same for every order. -/
def OrderFree (cm : ColorManagementState) : Prop :=
  ∀ i j : Iteration cm, i.frameColorSpace = j.frameColorSpace ∧ i.hdrMetadata = j.hdrMetadata

/-- Metadata that is returned is declared by a surface with the frame's colour space. -/
def Belongs (cm : ColorManagementState) : Prop :=
  ∀ (i : Iteration cm) (m : HdrMetadata), i.hdrMetadata = some m → ∃ desc ∈ descriptions cm,
    desc.toFrameColorSpace = i.frameColorSpace ∧ desc.hasMetadata = true ∧ desc.toHdrMetadata = m

/-- The sources declare the same metadata, and so does a PQ surface if there is one. -/
def Agreed (cm : ColorManagementState) : Prop :=
  ∀ d ∈ sources cm, (∀ d' ∈ sources cm, d'.toHdrMetadata = d.toHdrMetadata) ∧
    ((∀ e ∈ descriptions cm, e.toFrameColorSpace ≠ .bt2020Pq) ∨
      ∃ e ∈ descriptions cm, e.toFrameColorSpace = .bt2020Pq ∧ e.hasMetadata = true ∧
        e.toHdrMetadata = d.toHdrMetadata)

theorem orderFree_iff : OrderFree cm ↔
    ∀ d ∈ sources cm, ∀ d' ∈ sources cm, d'.toHdrMetadata = d.toHdrMetadata := by
  constructor
  · intro h d hd d' hd'
    obtain ⟨i, hi⟩ := exists_iteration hd
    obtain ⟨j, hj⟩ := exists_iteration hd'
    have hsame := (h j i).2
    rwa [Iteration.hdrMetadata, Iteration.hdrMetadata, hi, hj, Option.map_some, Option.map_some,
      Option.some.injEq] at hsame
  · intro h i j
    refine ⟨(frameColorSpace_eq i).trans (frameColorSpace_eq j).symm, ?_⟩
    rw [Iteration.hdrMetadata, Iteration.hdrMetadata]
    obtain ⟨hi, hi'⟩ := hdrDescription_sources i
    obtain ⟨hj, hj'⟩ := hdrDescription_sources j
    cases hdi : i.hdrDescription with
    | none =>
      cases hdj : j.hdrDescription with
      | none => rfl
      | some d' => exact absurd (hj d' hdj) (by simp [hi' hdi])
    | some d =>
      cases hdj : j.hdrDescription with
      | none => exact absurd (hi d hdi) (by simp [hj' hdj])
      | some d' => rw [Option.map_some, Option.map_some, h d' (hj d' hdj) d (hi d hdi)]

theorem belongs_iff : Belongs cm ↔ ∀ d ∈ sources cm,
    (∀ e ∈ descriptions cm, e.toFrameColorSpace ≠ .bt2020Pq) ∨
      ∃ e ∈ descriptions cm, e.toFrameColorSpace = .bt2020Pq ∧ e.hasMetadata = true ∧
        e.toHdrMetadata = d.toHdrMetadata := by
  constructor
  · intro h d hd
    by_cases hpq : ∃ e ∈ descriptions cm, e.toFrameColorSpace = .bt2020Pq
    · obtain ⟨i, hi⟩ := exists_iteration hd
      obtain ⟨e, he, hcs, hmeta, heq⟩ := h i d.toHdrMetadata (by rw [Iteration.hdrMetadata, hi]; rfl)
      obtain ⟨e', he', hpq⟩ := hpq
      rw [frameColorSpace_eq, preferred_of_pq he' hpq] at hcs
      exact .inr ⟨e, he, hcs, hmeta, heq⟩
    · exact .inl fun e he hcs => hpq ⟨e, he, hcs⟩
  · intro h i m hm
    rw [Iteration.hdrMetadata, Option.map_eq_some_iff] at hm
    obtain ⟨d, hd, rfl⟩ := hm
    have hsource := (hdrDescription_sources i).1 d hd
    obtain ⟨hmem, hhdr, hmeta⟩ := mem_withMetadata.mp (mem_descriptions_of_mem_sources hsource)
    rw [frameColorSpace_eq]
    obtain hpq | ⟨e, he, hcs, hemeta, heq⟩ := h d hsource
    · exact ⟨d, hmem, (preferred_of_mem hmem hhdr hpq).symm, hmeta, rfl⟩
    · exact ⟨e, he, by rw [preferred_of_pq he hcs, hcs], hemeta, heq⟩

theorem consistent_iff (cm : ColorManagementState) : OrderFree cm ∧ Belongs cm ↔ Agreed cm := by
  rw [orderFree_iff, belongs_iff]
  exact ⟨fun h d hd => ⟨h.1 d hd, h.2 d hd⟩, fun h => ⟨fun d hd => (h d hd).1, fun d hd => (h d hd).2⟩⟩

def masteredAt (maxCll : UInt32) : MasteringMetadata where
  maxCll := maxCll
  maxFall := 500
  masteringLuminance := (1, 10000000)
  masteringPrimaries := #v[(34000, 16000), (13250, 34500), (7500, 3000)]
  whitePoint := (15635, 16450)

def pqMasteredAt (maxCll : UInt32) : ImageDescription :=
  (masteredAt maxCll).applyTo { ImageDescription.srgb with transferFunction := .st2084Pq, primaries := .bt2020 }

/-- Two PQ swapchains, with metadata of their own. -/
def twoPq : ColorManagementState :=
  let first := (ColorManagementState.new.setGamescopeColorspace 1 .st2084Pq .bt2020).setGamescopeHdrMetadata 1
    (masteredAt 1000)
  (first.setGamescopeColorspace 2 .st2084Pq .bt2020).setGamescopeHdrMetadata 2 (masteredAt 4000)

/-- An scRGB swapchain with metadata and a PQ one that has sent none. -/
def scrgbAndPq : ColorManagementState :=
  let first := (ColorManagementState.new.setGamescopeColorspace 1 .scrgbLinear .srgb).setGamescopeHdrMetadata 1
    (masteredAt 1000)
  first.setGamescopeColorspace 2 .st2084Pq .bt2020

theorem not_consistent_swapchains : ¬ OrderFree twoPq ∧ ¬ Belongs scrgbAndPq := by
  rw [orderFree_iff, belongs_iff]
  refine ⟨fun h => ?_, by decide⟩
  have hsame := h (pqMasteredAt 1000) (by decide) (pqMasteredAt 4000) (by decide)
  exact absurd (congrArg HdrMetadata.maxCll hsame) (by decide)

end Moonshine.Proof.Compositor
