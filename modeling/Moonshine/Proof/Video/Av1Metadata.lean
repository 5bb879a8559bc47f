import Mathlib.Data.List.TakeWhile
import Moonshine.Framework.Obu
import Moonshine.Impl.Video.HdrSei

/-!
# Metadata OBUs in a temporal unit

`find_first_frame_obu` walks the OBUs by their sizes and stops at the first with
a frame or a frame header (`findFirstFrameObuFrom_eq`). Where there is none, it
ends at the end of the data, which is inside the last OBU if that has no size:
the metadata appended there is not read as OBUs of their own
(`parse_misplaced`).
-/

namespace Moonshine.Proof.HdrSei

open Moonshine.Framework Moonshine.Impl Moonshine.Impl.HdrSei

theorem low_bits (b : Byte) : (b &&& 0x7F).toUInt64.toNat = b.toNat % 128 := by
  rw [UInt8.toNat_toUInt64, UInt8.toNat_and]
  exact Nat.and_two_pow_sub_one_eq_mod b.toNat 7

/-- A group of seven bits, as much of it as 64 bits have room for, is added. -/
theorem or_shift_wrap {value : UInt64} {shift : Nat} (hvalue : value.toNat < 2 ^ shift) (hshift : shift < 64)
    (b : Byte) : value ||| (b &&& 0x7F).toUInt64 <<< UInt64.ofNat shift =
      UInt64.ofNat (value.toNat + 2 ^ shift * (b.toNat % 128)) := by
  have hmod : (UInt64.ofNat shift).toNat % 64 = shift := by
    rw [UInt64.toNat_ofNat_of_lt' (by show shift < 2 ^ 64; omega)]
    omega
  have hpow : 2 ^ shift * 2 ^ (64 - shift) = 2 ^ 64 := by
    rw [← Nat.pow_add]
    congr 1
    omega
  have hbits : 2 ^ shift * (b.toNat % 128) % 2 ^ 64 = 2 ^ shift * (b.toNat % 128 % 2 ^ (64 - shift)) := by
    rw [← hpow, Nat.mul_mod_mul_left]
  have hroom : value.toNat + 2 ^ shift * (b.toNat % 128 % 2 ^ (64 - shift)) < 2 ^ 64 := by
    have hlt : b.toNat % 128 % 2 ^ (64 - shift) < 2 ^ (64 - shift) := Nat.mod_lt _ (Nat.two_pow_pos _)
    calc value.toNat + 2 ^ shift * (b.toNat % 128 % 2 ^ (64 - shift))
        < 2 ^ shift + 2 ^ shift * (b.toNat % 128 % 2 ^ (64 - shift)) := Nat.add_lt_add_right hvalue _
      _ = 2 ^ shift * (b.toNat % 128 % 2 ^ (64 - shift) + 1) := by ring
      _ ≤ 2 ^ shift * 2 ^ (64 - shift) := Nat.mul_le_mul_left _ hlt
      _ = 2 ^ 64 := hpow
  have hor (y : Nat) : value.toNat ||| 2 ^ shift * y = value.toNat + 2 ^ shift * y := by
    rw [Nat.or_comm, Nat.mul_comm, ← Nat.shiftLeft_eq, ← Nat.shiftLeft_add_eq_or_of_lt hvalue, Nat.add_comm]
  have hsmall : value.toNat % 2 ^ 64 = value.toNat := Nat.mod_eq_of_lt value.toNat_lt
  apply UInt64.toNat_inj.mp
  rw [UInt64.toNat_or, UInt64.toNat_shiftLeft, hmod, low_bits, Nat.shiftLeft_eq, Nat.mul_comm (b.toNat % 128),
    hbits, hor, UInt64.toNat_ofNat', Nat.add_mod, hbits, hsmall, Nat.mod_eq_of_lt hroom]

/-- A group of seven bits above those that are there is added. -/
theorem or_shift {value : UInt64} {shift : Nat} (hvalue : value.toNat < 2 ^ shift) (hshift : shift ≤ 56)
    (b : Byte) : (value ||| (b &&& 0x7F).toUInt64 <<< UInt64.ofNat shift).toNat =
      value.toNat + 2 ^ shift * (b.toNat % 128) := by
  have hfits : value.toNat + 2 ^ shift * (b.toNat % 128) < 2 ^ 64 := by
    have hpow : 2 ^ shift ≤ 2 ^ 56 := Nat.pow_le_pow_right (by decide) hshift
    have hb : b.toNat % 128 < 128 := Nat.mod_lt _ (by decide)
    calc value.toNat + 2 ^ shift * (b.toNat % 128) < 2 ^ 56 + 2 ^ 56 * 127 :=
          Nat.add_lt_add_of_lt_of_le (Nat.lt_of_lt_of_le hvalue hpow) (Nat.mul_le_mul hpow (by omega))
      _ < 2 ^ 64 := by decide
  rw [or_shift_wrap hvalue (by omega), UInt64.toNat_ofNat', Nat.mod_eq_of_lt hfits]

theorem leb128DecodeFrom_append {front : List Byte} {last : Byte} (hfront : ∀ b ∈ front, b &&& 0x80 ≠ 0)
    (hlast : last &&& 0x80 = 0) (rest : List Byte) {value : UInt64} {shift : Nat} (consumed : Nat)
    (hvalue : value.toNat < 2 ^ shift) (hshift : shift + 7 * front.length ≤ 56) :
    (leb128DecodeFrom value shift consumed (front ++ [last] ++ rest)).1.toNat =
        value.toNat + 2 ^ shift * Obu.lebValue (front ++ [last]) ∧
      (leb128DecodeFrom value shift consumed (front ++ [last] ++ rest)).2 =
        consumed + (front.length + 1) := by
  induction front generalizing value shift consumed with
  | nil =>
    have h := or_shift hvalue (by simpa using hshift) last
    simp only [List.nil_append, List.singleton_append, leb128DecodeFrom, hlast, if_true]
    rw [h]
    exact ⟨rfl, rfl⟩
  | cons b front ih =>
    rw [List.length_cons] at hshift
    have h := or_shift hvalue (by omega) b
    have hb : b.toNat % 128 < 128 := Nat.mod_lt _ (by decide)
    have hnext : (value ||| (b &&& 0x7F).toUInt64 <<< UInt64.ofNat shift).toNat < 2 ^ (shift + 7) := by
      have hle : 2 ^ shift * (b.toNat % 128) ≤ 2 ^ shift * 127 := Nat.mul_le_mul_left _ (by omega)
      rw [h, Nat.pow_add]
      omega
    obtain ⟨h₁, h₂⟩ := ih (fun b' hb' => hfront b' (List.mem_cons_of_mem b hb')) (consumed + 1) hnext
      (by omega)
    simp only [List.cons_append, leb128DecodeFrom, if_neg (hfront b List.mem_cons_self)]
    rw [List.append_assoc] at h₁ h₂ ⊢
    rw [h₁, h₂, h, Obu.lebValue, Nat.pow_add, List.length_cons]
    refine ⟨by ring, by omega⟩

theorem leb128Decode_append {l : List Byte} (h : Obu.IsLeb128 l) (rest : List Byte) :
    (leb128Decode (l ++ rest)).1.toNat = Obu.lebValue l ∧ (leb128Decode (l ++ rest)).2 = l.length := by
  obtain ⟨front, last, rfl, hfront, hlast⟩ := h.shape
  have hlen := h.length_le
  rw [List.length_append, List.length_singleton] at hlen
  have hzero : (0 : UInt64).toNat < 2 ^ 0 := by decide
  obtain ⟨h₁, h₂⟩ := leb128DecodeFrom_append hfront hlast rest 0 hzero (by omega)
  rw [leb128Decode, h₁, h₂]
  simp

theorem size_flag (header : Byte) : (header >>> 1) &&& 0x01 = 1 ↔ header &&& 0x02 ≠ 0 := by
  have h : ∀ i : Fin 256, (UInt8.ofNat i >>> 1) &&& 0x01 = 1 ↔ UInt8.ofNat i &&& 0x02 ≠ 0 := by
    decide +kernel
  have hi := h ⟨header.toNat, header.toNat_lt⟩
  rwa [UInt8.ofNat_toNat] at hi

theorem extension_flag (header : Byte) : (header >>> 2) &&& 0x01 = 1 ↔ header &&& 0x04 ≠ 0 := by
  have h : ∀ i : Fin 256, (UInt8.ofNat i >>> 2) &&& 0x01 = 1 ↔ UInt8.ofNat i &&& 0x04 ≠ 0 := by
    decide +kernel
  have hi := h ⟨header.toNat, header.toNat_lt⟩
  rwa [UInt8.ofNat_toNat] at hi

/-- One round of the search, at a unit. -/
theorem findFirstFrameObuFrom_unit {u : Obu} (h : u.Valid) (front rest : List Byte) (rounds : Nat) :
    findFirstFrameObuFrom (front ++ (u.bytes ++ rest)) (rounds + 1) front.length =
      if isFrameObu u.header then front.length
      else if u.size.isSome then
        findFirstFrameObuFrom (front ++ (u.bytes ++ rest)) rounds (front.length + u.bytes.length)
      else (front ++ (u.bytes ++ rest)).length := by
  obtain ⟨header, extension, size, payload⟩ := u
  have hheader : (front ++ (Obu.bytes ⟨header, extension, size, payload⟩ ++ rest)).getD front.length 0 =
      header := by
    rw [List.getD_eq_getElem?_getD, List.getElem?_append_right (Nat.le_refl _), Nat.sub_self]
    rfl
  have hlt : front.length < (front ++ (Obu.bytes ⟨header, extension, size, payload⟩ ++ rest)).length := by
    simp [Obu.bytes]
  have hoffset : (if (header >>> 2) &&& 0x01 = 1 then front.length + 1 + 1 else front.length + 1) =
      front.length + (1 + extension.toList.length) := by
    have hflag := (extension_flag header).trans h.extension.symm
    cases extension with
    | none => rw [if_neg (fun hf => by simpa using hflag.mp hf)]; rfl
    | some e => rw [if_pos (hflag.mpr rfl)]; rfl
  have hnext : ¬ (front ++ (Obu.bytes ⟨header, extension, size, payload⟩ ++ rest)).length <
      front.length + (1 + extension.toList.length) := by
    simp only [Obu.bytes, List.length_append, List.length_cons]
    omega
  rw [findFirstFrameObuFrom, if_pos hlt]
  simp only [hheader, hoffset]
  by_cases hframe : isFrameObu header
  · rw [if_pos hframe, if_pos hframe]
  rw [if_neg hframe, if_neg hframe, if_neg hnext]
  have hflag := (size_flag header).trans h.hasSize.symm
  cases size with
  | none => rw [if_neg (fun hf => by simpa using hflag.mp hf), if_neg (by simp)]
  | some l =>
    obtain ⟨hleb, hvalue⟩ := h.size l rfl
    have hdrop : (front ++ (Obu.bytes ⟨header, extension, some l, payload⟩ ++ rest)).drop
        (front.length + (1 + extension.toList.length)) = l ++ (payload ++ rest) := by
      rw [List.drop_append, Nat.add_comm 1]
      simp [Obu.bytes]
    obtain ⟨h₁, h₂⟩ := leb128Decode_append hleb (payload ++ rest)
    rw [if_pos (hflag.mpr rfl), if_pos (Option.isSome_some), hdrop, h₁, h₂, hvalue]
    congr 1
    simp only [Obu.bytes, Option.getD_some, List.length_append, List.length_cons]
    omega

/-- Where the search ends: before the first unit with a frame, or at the end. -/
theorem findFirstFrameObuFrom_eq {us : List Obu} (h : Obu.WellFormed us) (front : List Byte) {rounds : Nat}
    (hrounds : us.length ≤ rounds) :
    findFirstFrameObuFrom (front ++ Obu.stream us) rounds front.length =
      front.length + (Obu.stream (us.takeWhile fun u => !isFrameObu u.header)).length := by
  induction us generalizing front rounds with
  | nil =>
    rw [Obu.stream_nil, List.append_nil]
    cases rounds with
    | zero => rfl
    | succ rounds => rw [findFirstFrameObuFrom, if_neg (Nat.lt_irrefl _)]; rfl
  | cons u us ih =>
    obtain ⟨hvalid, hlast, hrest⟩ := h
    obtain ⟨rounds, rfl⟩ : ∃ n, rounds = n + 1 := ⟨rounds - 1, by rw [List.length_cons] at hrounds; omega⟩
    rw [Obu.stream_cons, findFirstFrameObuFrom_unit hvalid]
    by_cases hframe : isFrameObu u.header
    · rw [if_pos hframe, List.takeWhile_cons_of_neg (by simpa using hframe)]
      rfl
    · rw [if_neg hframe, List.takeWhile_cons_of_pos (by simpa using hframe), Obu.stream_cons]
      by_cases hsize : u.size.isSome
      · have hnext := ih hrest (front ++ u.bytes) (Nat.le_of_succ_le_succ hrounds)
        simp only [List.append_assoc, List.length_append] at hnext ⊢
        rw [if_pos hsize, hnext, Nat.add_assoc]
      · obtain rfl : us = [] := hlast.resolve_left hsize
        rw [if_neg hsize]
        simp

theorem findFirstFrameObu_eq {us : List Obu} (h : Obu.WellFormed us) :
    findFirstFrameObu (Obu.stream us) =
      (Obu.stream (us.takeWhile fun u => !isFrameObu u.header)).length := by
  have hfind := findFirstFrameObuFrom_eq h [] (Obu.length_le_stream us)
  rwa [List.nil_append, List.length_nil, Nat.zero_add] at hfind

/-- A metadata OBU: its size counts the stop byte. -/
def metadataObu (payload : List Byte) : Obu where
  header := obuMetadataHeader
  extension := none
  size := some [UInt8.ofNat (payload.length + 1)]
  payload := payload ++ [0x80]

/-- Sizes below 128 are one byte. -/
theorem leb128_small {n : Nat} (h : n < 128) : leb128Encode (UInt64.ofNat n) = [UInt8.ofNat n] ∧
    UInt8.ofNat n &&& 0x80 = 0 ∧ Obu.lebValue [UInt8.ofNat n] = n := by
  have hall : ∀ i : Fin 128, leb128Encode (UInt64.ofNat i) = [UInt8.ofNat i] ∧
      UInt8.ofNat i &&& 0x80 = 0 ∧ Obu.lebValue [UInt8.ofNat i] = i := by
    decide +kernel
  exact hall ⟨n, h⟩

theorem metadataObu_valid {payload : List Byte} (h : payload.length + 1 < 128) :
    (metadataObu payload).Valid where
  extension := by
    show (none : Option Byte).isSome ↔ obuMetadataHeader &&& 0x04 ≠ 0
    decide
  hasSize := by
    have hflag : obuMetadataHeader &&& 0x02 ≠ 0 := by decide
    exact ⟨fun _ => hflag, fun _ => rfl⟩
  size := by
    rintro bytes hbytes
    obtain rfl : [UInt8.ofNat (payload.length + 1)] = bytes := Option.some.inj hbytes
    obtain ⟨-, hlast, hvalue⟩ := leb128_small h
    refine ⟨⟨by simp, [], _, rfl, by simp, hlast⟩, ?_⟩
    rw [hvalue, metadataObu, List.length_append, List.length_singleton]

theorem buildAv1MetadataObu_eq {payload : List Byte} (h : payload.length + 1 < 128) :
    buildAv1MetadataObu payload = (metadataObu payload).bytes := by
  rw [buildAv1MetadataObu, (leb128_small h).1]
  simp [metadataObu, Obu.bytes]

/-- The two payloads. -/
def mdcvPayload (m : HdrMetadata) : List Byte :=
  [2] ++ m.displayPrimaries.toList.flatMap av1PrimaryBytes ++ av1PrimaryBytes m.whitePoint ++
    beBytes 4 (av1LuminanceMax m.maxLuminance).toNat ++ beBytes 4 (av1LuminanceMin m.minLuminance).toNat

def cllPayload (m : HdrMetadata) : List Byte :=
  [1] ++ beBytes 2 m.maxCll.toNat ++ beBytes 2 m.maxFall.toNat

theorem length_mdcvPayload (m : HdrMetadata) : (mdcvPayload m).length = 25 := by
  simp [mdcvPayload, av1PrimaryBytes, primaryBytes]

theorem length_cllPayload (m : HdrMetadata) : (cllPayload m).length = 5 := by
  simp [cllPayload]

/-- The OBUs that are inserted. -/
def metadataObus (m : HdrMetadata) : List Obu := [metadataObu (mdcvPayload m), metadataObu (cllPayload m)]

theorem mdcvPayload_small (m : HdrMetadata) : (mdcvPayload m).length + 1 < 128 := by
  rw [length_mdcvPayload]
  decide

theorem cllPayload_small (m : HdrMetadata) : (cllPayload m).length + 1 < 128 := by
  rw [length_cllPayload]
  decide

theorem metadataObus_valid (m : HdrMetadata) : ∀ u ∈ metadataObus m, u.Valid ∧ u.size.isSome := by
  intro u hu
  obtain rfl | rfl : u = metadataObu (mdcvPayload m) ∨ u = metadataObu (cllPayload m) := by
    simpa [metadataObus] using hu
  · exact ⟨metadataObu_valid (mdcvPayload_small m), rfl⟩
  · exact ⟨metadataObu_valid (cllPayload_small m), rfl⟩

theorem buildObus_eq (m : HdrMetadata) : buildAv1MdcvObu m ++ buildAv1CllObu m = Obu.stream (metadataObus m) := by
  have hmdcv : buildAv1MdcvObu m = (metadataObu (mdcvPayload m)).bytes :=
    buildAv1MetadataObu_eq (mdcvPayload_small m)
  have hcll : buildAv1CllObu m = (metadataObu (cllPayload m)).bytes :=
    buildAv1MetadataObu_eq (cllPayload_small m)
  rw [hmdcv, hcll]
  simp [metadataObus, Obu.stream]

/-- The units before the first with a frame, the metadata, and the other units. -/
def insertedObus (us : List Obu) (m : HdrMetadata) : List Obu :=
  (us.takeWhile fun u => !isFrameObu u.header) ++ metadataObus m ++
    us.dropWhile fun u => !isFrameObu u.header

theorem injectAv1Metadata_eq {us : List Obu} (h : Obu.WellFormed us) (m : HdrMetadata) :
    injectAv1Metadata (Obu.stream us) m = Obu.stream (insertedObus us m) := by
  have hsplit : Obu.stream us = Obu.stream (us.takeWhile fun u => !isFrameObu u.header) ++
      Obu.stream (us.dropWhile fun u => !isFrameObu u.header) := by
    rw [← Obu.stream_append, List.takeWhile_append_dropWhile]
  rw [injectAv1Metadata, findFirstFrameObu_eq h, hsplit, List.take_left' rfl, List.drop_left' rfl,
    List.append_assoc _ (buildAv1MdcvObu m), buildObus_eq, insertedObus, Obu.stream_append,
    Obu.stream_append]

/-- A unit with a frame, or no unit without a size. -/
def Placeable (us : List Obu) : Prop :=
  (∃ u ∈ us, isFrameObu u.header) ∨ ∀ u ∈ us, u.size.isSome

theorem insertedObus_wellFormed {us : List Obu} (h : Obu.WellFormed us) (hplace : Placeable us)
    (m : HdrMetadata) : Obu.WellFormed (insertedObus us m) := by
  have hsplit : Obu.WellFormed ((us.takeWhile fun u => !isFrameObu u.header) ++
      us.dropWhile fun u => !isFrameObu u.header) := by
    rwa [List.takeWhile_append_dropWhile]
  have hsized : ∀ u ∈ us.takeWhile fun u => !isFrameObu u.header, u.size.isSome := by
    obtain ⟨v, hv, hframe⟩ | hall := hplace
    · -- The unit with the frame comes behind.
      refine hsplit.sized fun hnil => ?_
      have hnone := List.dropWhile_eq_nil_iff.mp hnil v hv
      rw [hframe] at hnone
      contradiction
    · exact fun u hu => hall u (List.takeWhile_prefix _ |>.mem hu)
  rw [insertedObus, List.append_assoc]
  exact Obu.WellFormed.append (fun u hu => ⟨hsplit.left.valid u hu, hsized u hu⟩)
    (Obu.WellFormed.append (metadataObus_valid m) hsplit.right)

/-- Without a frame, the metadata goes behind a unit without a size, into its payload. -/
theorem parse_misplaced {us : List Obu} (h : Obu.WellFormed us) (hplace : ¬ Placeable us) (m : HdrMetadata) :
    Obu.parseStream (injectAv1Metadata (Obu.stream us) m) ≠ some (insertedObus us m) := by
  obtain ⟨hnoFrame, hunsized⟩ := not_or.mp hplace
  have hnone : ∀ u ∈ us, (!isFrameObu u.header) = true := by
    intro u hu
    rw [Bool.not_eq_true', Bool.eq_false_iff]
    exact fun hframe => hnoFrame ⟨u, hu, hframe⟩
  have htake : us.takeWhile (fun u => !isFrameObu u.header) = us := List.takeWhile_eq_self_iff.mpr hnone
  have hdrop : us.dropWhile (fun u => !isFrameObu u.header) = [] := List.dropWhile_eq_nil_iff.mpr hnone
  have hinserted : insertedObus us m = us ++ metadataObus m := by
    rw [insertedObus, htake, hdrop, List.append_nil]
  obtain rfl | ⟨init, last, hus⟩ := us.eq_nil_or_concat
  · simp at hunsized
  obtain rfl : us = init ++ [last] := hus.trans List.concat_eq_append
  have hsize : last.size = none := by
    by_contra hsome
    refine hunsized fun u hu => ?_
    obtain hu | rfl : u ∈ init ∨ u = last := by simpa using hu
    · exact h.sized (by simp) u hu
    · exact Option.isSome_iff_ne_none.mpr hsome
  rw [injectAv1Metadata_eq h, hinserted, Obu.stream_append, Obu.parseStream_absorb h hsize]
  intro heq
  have hlen := congrArg List.length (Option.some.inj heq)
  simp [metadataObus] at hlen

/-- The OBUs are read with the metadata before the first with a frame, or at the
end, exactly where there is a frame or every OBU has a size. -/
theorem metadata_placed_iff (tu : TemporalUnit) (m : HdrMetadata) :
    Obu.parseStream (injectAv1Metadata tu.bytes m) = some (insertedObus tu.obus m) ↔
      Placeable tu.obus := by
  constructor
  · intro hparse
    by_contra hplace
    exact parse_misplaced tu.wellFormed hplace m hparse
  · intro hplace
    rw [TemporalUnit.bytes, injectAv1Metadata_eq tu.wellFormed]
    exact Obu.parseStream_stream (insertedObus_wellFormed tu.wellFormed hplace m)

/-- A temporal delimiter, and a sequence header without a size. -/
def headerOnly : TemporalUnit where
  obus := [⟨0x12, none, some [0], []⟩, ⟨0x08, none, none, [0xC0, 0xDE]⟩]
  wellFormed := by
    refine ⟨⟨by decide, by decide, ?_⟩, Or.inl rfl, ⟨by decide, by decide, ?_⟩, Or.inr rfl, trivial⟩
    · rintro l hl
      obtain rfl : [0] = l := Option.some.inj hl
      exact ⟨⟨by decide, [], 0, rfl, by simp, by decide⟩, by decide⟩
    · rintro l hl
      contradiction

/-- The two metadata OBUs end up in the sequence header. -/
theorem metadata_in_sequence_header :
    Obu.parseStream (injectAv1Metadata headerOnly.bytes .fallback) ≠
        some (insertedObus headerOnly.obus .fallback) ∧
      (Obu.parseStream (injectAv1Metadata headerOnly.bytes .fallback)).map List.length = some 2 := by
  decide +kernel

end Moonshine.Proof.HdrSei
