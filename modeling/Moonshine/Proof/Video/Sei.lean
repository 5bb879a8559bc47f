import Moonshine.Framework.AnnexB
import Moonshine.Impl.Video.HdrSei

/-!
# SEI NAL units in an access unit

The SEI messages are escaped (`emulation_prevented`), so that they are NAL units like
the others (`seiNalUnit`). `find_first_vcl_nal` stops at the start code of the first unit
with a coded slice, because it walks the units one after another
(`findFirstVclNalFrom_eq`); what is inserted there stands between two units.
-/

namespace Moonshine.Proof.HdrSei

open Moonshine.Framework Moonshine.Framework.AnnexB Moonshine.Impl Moonshine.Impl.HdrSei

section Free

variable {last : Byte}

theorem free_cons {b : Byte} {l : List Byte} (hb : b ≠ 0) (h : ¬[0, 0, last] <:+: l) :
    ¬[0, 0, last] <:+: b :: l := by
  rw [List.infix_cons_iff, List.cons_prefix_cons]
  rintro (⟨h0, -⟩ | hin)
  · exact hb h0.symm
  · exact h hin

theorem free_zero_cons {b : Byte} {l : List Byte} (hb : b ≠ 0) (h : ¬[0, 0, last] <:+: l) :
    ¬[0, 0, last] <:+: 0 :: b :: l := by
  rw [List.infix_cons_iff, List.cons_prefix_cons, List.cons_prefix_cons]
  rintro (⟨-, h0, -⟩ | hin)
  · exact hb h0.symm
  · exact free_cons hb h hin

theorem free_zero_zero_cons {b : Byte} {l : List Byte} (hb : b ≠ 0) (hlast : b ≠ last)
    (h : ¬[0, 0, last] <:+: l) : ¬[0, 0, last] <:+: 0 :: 0 :: b :: l := by
  rw [List.infix_cons_iff, List.cons_prefix_cons, List.cons_prefix_cons, List.cons_prefix_cons]
  rintro (⟨-, -, h0, -⟩ | hin)
  · exact hlast h0.symm
  · exact free_zero_cons hb h hin

/-- After `zeros` zeros, of which there are at most two, no two zeros of the escaped bytes
stand before a byte of up to 2. -/
theorem rbspEscapeFrom_free (hlast : last ≤ 2) (data : List Byte) : ∀ zeros ≤ 2,
    ¬[0, 0, last] <:+: List.replicate zeros 0 ++ rbspEscapeFrom zeros data := by
  induction data with
  | nil =>
    intro zeros hz h
    have hlen : 3 ≤ zeros := by simpa [rbspEscapeFrom] using h.length_le
    omega
  | cons byte data ih =>
    intro zeros hz
    rw [rbspEscapeFrom]
    by_cases hesc : zeros ≥ 2 ∧ byte ≤ 3
    · obtain rfl : zeros = 2 := by omega
      rw [if_pos hesc]
      refine free_zero_zero_cons (by decide) ?_ ?_
      · rintro rfl
        exact absurd hlast (by decide)
      · by_cases hb : byte = 0
        · rw [if_pos hb, hb]
          exact ih 1 (by omega)
        · rw [if_neg hb]
          exact free_cons hb (ih 0 (by omega))
    · rw [if_neg hesc]
      by_cases hb : byte = 0
      · have hz' : zeros < 2 := by
          by_contra hge
          exact hesc ⟨by omega, by rw [hb]; decide⟩
        rw [if_pos hb, hb, List.append_cons, ← List.replicate_succ']
        exact ih (zeros + 1) (by omega)
      · rw [if_neg hb]
        have hrest := ih 0 (by omega)
        match zeros with
        | 0 => exact free_cons hb hrest
        | 1 => exact free_zero_cons hb hrest
        | 2 =>
          refine free_zero_zero_cons hb (fun heq => hesc ⟨by omega, ?_⟩) hrest
          rw [heq]
          exact UInt8.le_trans hlast (by decide)

theorem rbspEscape_free (hlast : last ≤ 2) (data : List Byte) : ¬[0, 0, last] <:+: rbspEscape data :=
  rbspEscapeFrom_free hlast data 0 (by omega)

/-- Nor do two zeros of a unit, with its header. -/
theorem seiHeader_free (hlast : last ≤ 2) (data : List Byte) (isHevc : Bool) :
    ¬[0, 0, last] <:+: seiHeader isHevc ++ rbspEscape data := by
  cases isHevc with
  | false => exact free_cons (by decide) (rbspEscape_free hlast _)
  | true => exact free_cons (by decide) (free_cons (by decide) (rbspEscape_free hlast _))

end Free

/-- The last byte stays the last. -/
theorem rbspEscapeFrom_concat (data : List Byte) (last : Byte) (zeros : Nat) :
    ∃ front, rbspEscapeFrom zeros (data ++ [last]) = front ++ [last] := by
  induction data generalizing zeros with
  | nil =>
    rw [List.nil_append, rbspEscapeFrom]
    split
    · exact ⟨[3], rfl⟩
    · exact ⟨[], rfl⟩
  | cons byte data ih =>
    rw [List.cons_append, rbspEscapeFrom]
    split
    · obtain ⟨front, hfront⟩ := ih (if byte = 0 then 1 else 0)
      exact ⟨3 :: byte :: front, by rw [hfront]; rfl⟩
    · obtain ⟨front, hfront⟩ := ih (if byte = 0 then zeros + 1 else 0)
      exact ⟨byte :: front, by rw [hfront]; rfl⟩

/-- The unit that `build_sei_nal` makes, after its start code. -/
def seiNalUnit (payloadType : Byte) (payload : List Byte) (isHevc : Bool) : NalUnit where
  bytes := seiHeader isHevc ++ rbspEscape (seiMessage payloadType payload)
  free := seiHeader_free (by decide) _ isHevc
  ends := by
    obtain ⟨front, hfront⟩ := rbspEscapeFrom_concat
      (seiNumber payloadType.toNat ++ seiNumber payload.length ++ payload) 0x80 0
    refine ⟨0x80, ?_, by decide⟩
    rw [rbspEscape, seiMessage, hfront, ← List.append_assoc, List.getLast?_concat]

theorem buildSeiNal_eq (payloadType : Byte) (payload : List Byte) (isHevc : Bool) :
    buildSeiNal payloadType payload isHevc = bytestream [(true, seiNalUnit payloadType payload isHevc)] := by
  rw [bytestream_cons, bytestream_nil, List.append_nil, buildSeiNal, List.append_assoc]
  rfl

/-- A decoder drops the bytes of emulation prevention. -/
def rbspUnescapeFrom : (consecutiveZeros : Nat) → List Byte → List Byte
  | _, [] => []
  | consecutiveZeros, byte :: data =>
    if consecutiveZeros ≥ 2 ∧ byte = 0x03 then rbspUnescapeFrom 0 data
    else byte :: rbspUnescapeFrom (if byte = 0 then consecutiveZeros + 1 else 0) data

theorem rbspUnescapeFrom_rbspEscapeFrom (data : List Byte) (zeros : Nat) :
    rbspUnescapeFrom zeros (rbspEscapeFrom zeros data) = data := by
  induction data generalizing zeros with
  | nil => rfl
  | cons byte data ih =>
    rw [rbspEscapeFrom]
    by_cases hesc : zeros ≥ 2 ∧ byte ≤ 3
    · rw [if_pos hesc, rbspUnescapeFrom, if_pos ⟨hesc.1, rfl⟩, rbspUnescapeFrom, if_neg (by omega)]
      simp only [Nat.zero_add, ih]
    · have hnot : ¬ (zeros ≥ 2 ∧ byte = 3) := fun h => hesc ⟨h.1, by rw [h.2]; decide⟩
      rw [if_neg hesc, rbspUnescapeFrom, if_neg hnot, ih]

/-- A decoder reads the message of an SEI unit behind its header. -/
theorem seiNalUnit_message (payloadType : Byte) (payload : List Byte) (isHevc : Bool) :
    rbspUnescapeFrom 0 ((seiNalUnit payloadType payload isHevc).bytes.drop (seiHeader isHevc).length) =
      seiMessage payloadType payload := by
  have hdrop : (seiNalUnit payloadType payload isHevc).bytes.drop (seiHeader isHevc).length =
      rbspEscape (seiMessage payloadType payload) := List.drop_left
  rw [hdrop]
  exact rbspUnescapeFrom_rbspEscapeFrom _ 0

/-- In what is escaped, two zeros never stand before a byte of up to 2, and without the
bytes of emulation prevention it is the data. So it is with the body of an SEI unit, of
the metadata as of any payload: it is the message. -/
theorem emulation_prevented :
    (∀ data, (∀ last ≤ 2, ¬[0, 0, last] <:+: rbspEscape data) ∧
      rbspUnescapeFrom 0 (rbspEscape data) = data) ∧
      ∀ payloadType payload isHevc, ∃ body,
        buildSeiNal payloadType payload isHevc = [0] ++ startCodePrefix ++ seiHeader isHevc ++ body ∧
          (∀ last ≤ 2, ¬[0, 0, last] <:+: seiHeader isHevc ++ body) ∧
          rbspUnescapeFrom 0 body = seiMessage payloadType payload := by
  refine ⟨fun data => ⟨fun last hlast => rbspEscape_free hlast data,
    rbspUnescapeFrom_rbspEscapeFrom data 0⟩, ?_⟩
  intro payloadType payload isHevc
  refine ⟨rbspEscape (seiMessage payloadType payload), rfl, fun last hlast => ?_, ?_⟩
  · exact seiHeader_free hlast _ isHevc
  · exact rbspUnescapeFrom_rbspEscapeFrom _ 0

/-- A unit with a coded slice. -/
def isVclUnit (isHevc : Bool) (u : Bool × NalUnit) : Bool := isVcl isHevc (u.2.bytes.getD 0 0)

theorem slice_eq_iff_prefix (front rest code : List Byte) :
    front.length + code.length ≤ (front ++ rest).length ∧
      slice (front ++ rest) front.length code.length = code ↔ code <+: rest := by
  rw [slice_append_right (Nat.le_refl _), Nat.sub_self, slice, List.drop_zero, List.prefix_iff_eq_take,
    List.length_append]
  constructor
  · exact fun h => h.2.symm
  · intro h
    have hlen := congrArg List.length h
    rw [List.length_take] at hlen
    exact ⟨by omega, h.symm⟩

theorem startCodeLen_append (front rest : List Byte) : startCodeLen (front ++ rest) front.length =
    if 0 :: startCodePrefix <+: rest then 4 else if startCodePrefix <+: rest then 3 else 0 := by
  have hlong := slice_eq_iff_prefix front rest (0 :: startCodePrefix)
  have hshort := slice_eq_iff_prefix front rest startCodePrefix
  unfold startCodeLen
  exact if_congr hlong rfl (if_congr hshort rfl rfl)

theorem startCodeLen_startCode (front : List Byte) (long : Bool) (rest : List Byte) :
    startCodeLen (front ++ (startCode long ++ rest)) front.length = (startCode long).length := by
  rw [startCodeLen_append]
  cases long with
  | false =>
    have hlong : ¬ 0 :: startCodePrefix <+: startCode false ++ rest := by simp [startCode, startCodePrefix]
    have hshort : startCodePrefix <+: startCode false ++ rest := List.prefix_append startCodePrefix rest
    rw [if_neg hlong, if_pos hshort]
    rfl
  | true =>
    have hlong : 0 :: startCodePrefix <+: startCode true ++ rest :=
      List.prefix_append (0 :: startCodePrefix) rest
    rw [if_pos hlong]
    rfl

/-- The search passes over the rest of a unit byte by byte. -/
theorem findFirstVclNalFrom_unit (isHevc : Bool) (n : NalUnit) (tail : List Byte) (rounds : Nat)
    {s : List Byte} (hs : s <:+ n.bytes) (front : List Byte) :
    findFirstVclNalFrom (front ++ (s ++ tail)) isHevc (s.length + rounds) front.length =
      findFirstVclNalFrom (front ++ (s ++ tail)) isHevc rounds (front.length + s.length) := by
  induction s generalizing front with
  | nil => rw [List.length_nil, Nat.zero_add, Nat.add_zero]
  | cons b s ih =>
    have hlen : startCodeLen (front ++ (b :: s ++ tail)) front.length = 0 := by
      rw [startCodeLen_append, if_neg (no_longCode n hs (by simp)),
        if_neg (no_startCode n hs (by simp))]
    have hnext := ih ((List.suffix_cons b s).trans hs) (front ++ [b])
    rw [List.append_assoc, List.singleton_append, List.length_append, List.length_singleton] at hnext
    rw [List.length_cons, Nat.add_right_comm, findFirstVclNalFrom, if_pos (by simp)]
    simp only [hlen, if_true]
    rw [Nat.add_right_comm, Nat.add_assoc] at hnext
    exact hnext

/-- Where the search ends: before the first unit with a coded slice, or at the end. -/
theorem findFirstVclNalFrom_eq (isHevc : Bool) (units : List (Bool × NalUnit)) (front : List Byte)
    {rounds : Nat} (hrounds : (bytestream units).length ≤ rounds) :
    findFirstVclNalFrom (front ++ bytestream units) isHevc rounds front.length =
      front.length + (bytestream (units.takeWhile fun u => !isVclUnit isHevc u)).length := by
  induction units generalizing front rounds with
  | nil =>
    rw [bytestream_nil, List.append_nil]
    cases rounds with
    | zero => rfl
    | succ rounds => rw [findFirstVclNalFrom, if_neg (Nat.lt_irrefl _)]; rfl
  | cons u units ih =>
    obtain ⟨last, hlast, -⟩ := u.2.ends
    have hunit : 0 < u.2.bytes.length := by
      rw [List.length_pos_iff_ne_nil]
      rintro hnil
      simp [hnil] at hlast
    have hcode : 3 ≤ (startCode u.1).length := by
      cases u.1 <;> decide
    rw [bytestream_cons] at hrounds ⊢
    simp only [List.length_append] at hrounds
    obtain ⟨rounds, rfl⟩ : ∃ n, rounds = u.2.bytes.length + n + 1 :=
      ⟨rounds - u.2.bytes.length - 1, by omega⟩
    have hheader : (front ++ (startCode u.1 ++ (u.2.bytes ++ bytestream units))).getD
        (front.length + (startCode u.1).length) 0 = u.2.bytes.getD 0 0 := by
      rw [List.getD_eq_getElem?_getD, List.getElem?_append_right (Nat.le_add_right _ _),
        Nat.add_sub_cancel_left, List.getElem?_append_right (Nat.le_refl _), Nat.sub_self,
        List.getElem?_append_left hunit, List.getD_eq_getElem?_getD]
    have hlt : front.length < (front ++ (startCode u.1 ++ (u.2.bytes ++ bytestream units))).length := by
      simp only [List.length_append]
      omega
    have hnal : ¬ (front ++ (startCode u.1 ++ (u.2.bytes ++ bytestream units))).length ≤
        front.length + (startCode u.1).length := by
      simp only [List.length_append]
      omega
    have htype : isVcl isHevc (u.2.bytes.getD 0 0) = isVclUnit isHevc u := rfl
    rw [findFirstVclNalFrom, if_pos hlt]
    simp only [startCodeLen_startCode, hheader, htype]
    rw [if_neg (by omega), if_neg hnal]
    by_cases hvcl : isVclUnit isHevc u
    · rw [if_pos hvcl, List.takeWhile_cons_of_neg (by simpa using hvcl)]
      rfl
    · rw [if_neg hvcl, List.takeWhile_cons_of_pos (by simpa using hvcl), bytestream_cons]
      have hskip := findFirstVclNalFrom_unit isHevc u.2 (bytestream units) rounds (List.suffix_refl _)
        (front ++ startCode u.1)
      have hrest := ih (front ++ startCode u.1 ++ u.2.bytes)
        (show (bytestream units).length ≤ rounds by omega)
      simp only [List.append_assoc, List.length_append] at hskip hrest ⊢
      rw [← Nat.add_assoc] at hrest
      rw [hskip, hrest]
      omega

theorem findFirstVclNal_eq (isHevc : Bool) (units : List (Bool × NalUnit)) :
    findFirstVclNal (bytestream units) isHevc =
      (bytestream (units.takeWhile fun u => !isVclUnit isHevc u)).length := by
  have h := findFirstVclNalFrom_eq isHevc units [] (Nat.le_refl _)
  rwa [List.nil_append, List.length_nil, Nat.zero_add] at h

/-- The two units that are inserted. -/
def seiUnits (isHevc : Bool) (m : HdrMetadata) : List NalUnit :=
  [seiNalUnit 137 (buildMdcvSeiPayload m isHevc) isHevc, seiNalUnit 144 (buildClliSeiPayload m) isHevc]

/-- The units of an access unit with others inserted before its first coded
slice, at the end if there is none. -/
def insertedUnits (isHevc : Bool) (units : List (Bool × NalUnit)) (inserted : List NalUnit) :
    List (List Byte) :=
  (units.takeWhile fun u => !isVclUnit isHevc u).map (fun u => u.2.bytes) ++
    inserted.map NalUnit.bytes ++
    (units.dropWhile fun u => !isVclUnit isHevc u).map fun u => u.2.bytes

theorem injectSei_eq (isHevc : Bool) (units : List (Bool × NalUnit)) (m : HdrMetadata) :
    injectSei isHevc (bytestream units) m =
      bytestream ((units.takeWhile fun u => !isVclUnit isHevc u) ++
        (seiUnits isHevc m).map (true, ·) ++ units.dropWhile fun u => !isVclUnit isHevc u) := by
  have hsplit : bytestream units = bytestream (units.takeWhile fun u => !isVclUnit isHevc u) ++
      bytestream (units.dropWhile fun u => !isVclUnit isHevc u) := by
    rw [← bytestream_append, List.takeWhile_append_dropWhile]
  rw [injectSei, findFirstVclNal_eq, hsplit, List.take_left' rfl, List.drop_left' rfl, buildSeiNal_eq,
    buildSeiNal_eq,
    List.append_assoc _ (bytestream _) (bytestream [(true, _)]), ← bytestream_append, ← bytestream_append,
    ← bytestream_append]
  rfl

theorem nalUnits_injectSei (isHevc : Bool) (units : List (Bool × NalUnit)) (m : HdrMetadata) :
    nalUnits (injectSei isHevc (bytestream units) m) = insertedUnits isHevc units (seiUnits isHevc m) := by
  rw [injectSei_eq, nalUnits_bytestream, List.map_append, List.map_append, List.map_map, insertedUnits]
  rfl

/-- The output of either injector is the access unit with the MDCV unit and the
CLLI unit before its first coded slice: splitting it at the start codes gives
these units, byte for byte. -/
theorem sei_injected (units : List (Bool × NalUnit)) (m : HdrMetadata) :
    nalUnits (injectH264Sei (bytestream units) m) = insertedUnits false units (seiUnits false m) ∧
      nalUnits (injectH265Sei (bytestream units) m) = insertedUnits true units (seiUnits true m) :=
  ⟨nalUnits_injectSei false units m, nalUnits_injectSei true units m⟩

end Moonshine.Proof.HdrSei
