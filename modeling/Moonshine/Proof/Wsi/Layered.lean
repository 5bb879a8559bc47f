import Moonshine.Impl.Wsi.Enumerate

/-!
# Enumerations with the layer's elements

Over a driver that enumerates a list, the layer enumerates that list with its own
elements after it: a fill takes `min c n` of the driver's elements into the capacity `c`
that is left for them and as many of its own as still fit (`fills_appendExtras`), and the
number of elements is the sum, as long as that is a count (`counts_appendExtras`). Over
any driver that stays within its capacity the layer stays within the caller's
(`within_appendExtras`).
-/

namespace Moonshine.Proof.Wsi

open Moonshine.Framework Moonshine.Impl.Wsi

variable {T : Type*} {checks : Bool} {extras l : List T} {next : Enumeration T}

theorem query_appendExtras {c n : UInt32} (h : next.query c = (.ok .success, n))
    (hfits : n.toNat + extras.length < UInt32.size) :
    (appendExtras checks extras next).query c = (.ok .success, n + UInt32.ofNat extras.length) := by
  have hextras : (UInt32.ofNat extras.length).toNat = extras.length :=
    UInt32.toNat_ofNat_of_lt' (by omega)
  have hadd : addCount checks n (UInt32.ofNat extras.length) = .ok (n + UInt32.ofNat extras.length) := by
    rw [addCount, if_neg (by simp only [hextras, Bool.and_eq_true, decide_eq_true_eq]; omega)]
  simp only [appendExtras]
  rw [Prog.bind_of_ok h]
  simp [hadd, Prog.liftM_bind_ok]

/-- How many of the layer's elements fit after the driver's `base`. -/
def copied (extras : List T) (b : Buffer T) (base : UInt32) : Nat :=
  min (b.count.toNat - base.toNat) extras.length

/-- The driver's buffer. -/
def reserved (extras : List T) (b : Buffer T) : Buffer T :=
  { b with count := UInt32.ofNat (b.count.toNat - extras.length) }

theorem fill_appendExtras {b m : Buffer T} {result : Status} (h : next.fill (reserved extras b) = (.ok result, m))
    (hresult : result = .success ∨ result = .incomplete) :
    (appendExtras checks extras next).fill b =
      (.ok (if copied extras b m.count < extras.length then .incomplete else result),
        ⟨UInt32.ofNat (m.count.toNat + copied extras b m.count),
          store m.elements m.count.toNat (extras.take (copied extras b m.count))⟩) := by
  have hgo : ¬ (result ≠ .success && result ≠ .incomplete) = true := by
    obtain rfl | rfl := hresult <;> simp
  simp only [appendExtras, Prog.gets_bind, Prog.modify_bind]
  rw [← reserved, Prog.bind_of_ok h]
  rw [if_neg hgo]
  rfl

theorem counts_appendExtras (h : Counts l next) (hfits : (l ++ extras).length < UInt32.size) :
    Counts (l ++ extras) (appendExtras checks extras next) := by
  intro c
  obtain ⟨n, hquery, hn⟩ := h c
  rw [List.length_append] at hfits
  have hsum : n.toNat + extras.length < UInt32.size := by omega
  refine ⟨_, query_appendExtras hquery hsum, ?_⟩
  rw [UInt32.toNat_add, UInt32.toNat_ofNat_of_lt' (by omega), List.length_append, hn]
  exact Nat.mod_eq_of_lt (by rwa [hn] at hsum)

/-- What the layer adds to what the driver filled in. -/
theorem filled_appendExtras {b m : Buffer T} (h : Filled l (reserved extras b) m) : Filled (l ++ extras) b
    ⟨UInt32.ofNat (m.count.toNat + copied extras b m.count),
      store m.elements m.count.toNat (extras.take (copied extras b m.count))⟩ := by
  obtain ⟨hcount, helements, houtside⟩ := h
  have hb := b.count.toNat_lt_size
  have hreserved : (reserved extras b).count.toNat = b.count.toNat - extras.length :=
    UInt32.toNat_ofNat_of_lt' (by omega)
  rw [hreserved] at hcount houtside
  have hcopied : copied extras b m.count = min (b.count.toNat - m.count.toNat) extras.length := rfl
  have htake : (extras.take (copied extras b m.count)).length = copied extras b m.count := by
    rw [List.length_take]
    omega
  have hsum : (UInt32.ofNat (m.count.toNat + copied extras b m.count)).toNat =
      m.count.toNat + copied extras b m.count := UInt32.toNat_ofNat_of_lt' (by omega)
  refine ⟨?_, ?_, fun i hi => ?_⟩
  · -- The driver's share and the layer's add up to what fits of both.
    rw [hsum, List.length_append]
    omega
  · have hmap := map_store_range m.elements m.count.toNat (extras.take (copied extras b m.count))
    rw [htake] at hmap
    rw [hsum, hmap]
    have hdriver := (List.subperm_append_right (extras.take (copied extras b m.count))).mpr helements
    exact hdriver.trans ((List.subperm_append_left l).mpr (List.take_sublist _ _).subperm)
  · have hfar : m.count.toNat + (extras.take (copied extras b m.count)).length ≤ i := by
      rw [htake]
      omega
    exact (store_of_le hfar).trans (houtside i (by omega))

theorem fills_appendExtras (h : Fills l next) : Fills (l ++ extras) (appendExtras checks extras next) := by
  intro b
  obtain ⟨m, hfill, hfilled⟩ := h (reserved extras b)
  refine ⟨_, ?_, filled_appendExtras hfilled⟩
  rw [fill_appendExtras hfill (by split <;> simp)]
  have hb := b.count.toNat_lt_size
  have hreserved : (reserved extras b).count.toNat = b.count.toNat - extras.length :=
    UInt32.toNat_ofNat_of_lt' (by omega)
  have hcount := hfilled.count
  rw [hreserved] at hcount
  have hcopied : copied extras b m.count = min (b.count.toNat - m.count.toNat) extras.length := rfl
  rw [hreserved, List.length_append]
  congr 2
  split_ifs <;> first | rfl | omega

/-- Over any driver that stays within its capacity, whatever it fills in and returns, the layer
stays within the caller's. -/
theorem within_appendExtras {b m b' : Buffer T} {result result' : Status}
    (hfill : next.fill (reserved extras b) = (.ok result, m)) (hresult : result = .success ∨ result = .incomplete)
    (hcount : m.count.toNat ≤ b.count.toNat - extras.length)
    (houtside : ∀ i, b.count.toNat - extras.length ≤ i → m.elements i = b.elements i)
    (h : (appendExtras checks extras next).fill b = (.ok result', b')) :
    b'.count.toNat ≤ b.count.toNat ∧ ∀ i, b.count.toNat ≤ i → b'.elements i = b.elements i := by
  rw [fill_appendExtras hfill hresult] at h
  obtain ⟨-, rfl⟩ := Prod.mk.inj h
  have hb := b.count.toNat_lt_size
  have hcopied : copied extras b m.count = min (b.count.toNat - m.count.toNat) extras.length := rfl
  have hsum : (UInt32.ofNat (m.count.toNat + copied extras b m.count)).toNat =
      m.count.toNat + copied extras b m.count := UInt32.toNat_ofNat_of_lt' (by omega)
  refine ⟨by rw [hsum]; omega, fun i hi => ?_⟩
  have hfar : m.count.toNat + (extras.take (copied extras b m.count)).length ≤ i := by
    rw [List.length_take]
    omega
  exact (store_of_le hfar).trans (houtside i (by omega))

/-- A fill meets the protocol, and so does the number of elements where it is a count. -/
def Layered (l : List T) (e : Enumeration T) : Prop :=
  Fills l e ∧ (l.length < UInt32.size → Counts l e)

theorem layered_appendExtras (h : Enumerates l next) : Layered (l ++ extras) (appendExtras checks extras next) :=
  ⟨fills_appendExtras h.fills, counts_appendExtras h.counts⟩

/-- The formats of `append_hdr_formats`, as its caller stores them. -/
def hdrElements (writeElement : Format → ColorSpace → T) : List T :=
  hdrFormats.map fun (fmt, cs) => writeElement fmt cs

theorem layered_enumerations (checks : Bool) {writeElement : Format → ColorSpace → T} {formats : List T}
    {icd : Enumeration T} (hformats : Enumerates formats icd) {extensions : List ExtensionProperties}
    {next : Option String → Enumeration ExtensionProperties} (hextensions : Enumerates extensions (next none)) :
    Layered (formats ++ hdrElements writeElement) (appendHdrFormats checks icd writeElement) ∧
      Layered (extensions ++ layerExtensions) (enumerateDeviceExtensionProperties checks (some (some next)) none) :=
  ⟨layered_appendExtras hformats, layered_appendExtras hextensions⟩

/-- A driver with one format and none of the extensions. -/
theorem layered_enumerations_serve :
    Layered ([⟨.other 44, .other 0⟩] ++ hdrElements SurfaceFormat.mk)
        (appendHdrFormats true (serve [⟨.other 44, .other 0⟩]) SurfaceFormat.mk) ∧
      Layered ([] ++ layerExtensions)
        (enumerateDeviceExtensionProperties true (some (some fun _ => serve [])) none) :=
  layered_enumerations true (enumerates_serve (by decide)) (enumerates_serve (by decide))

/-- As many formats as a count can say. -/
def fullList : List SurfaceFormat := List.replicate (UInt32.size - 1) ⟨.other 44, .other 0⟩

theorem length_fullList : fullList.length = UInt32.size - 1 := List.length_replicate

/-- There is no count left for the layer's. -/
theorem not_counts_fullList : Enumerates fullList (serve fullList) ∧ ∀ checks,
    ¬ Counts (fullList ++ hdrElements SurfaceFormat.mk)
      (appendHdrFormats checks (serve fullList) SurfaceFormat.mk) := by
  refine ⟨enumerates_serve (by rw [length_fullList]; decide), fun checks h => ?_⟩
  have hlt := h.length_lt
  rw [List.length_append, length_fullList] at hlt
  exact absurd hlt (by decide)

end Moonshine.Proof.Wsi
