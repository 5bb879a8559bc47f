import Moonshine.Proof.Video.Av1Metadata

/-!
# The walk over OBUs, with overflow checks

`leb128_decode` gives the value of the bytes up to the first without the continuation bit,
in 64 bits, as long as that is among the first ten; an eleventh byte is shifted by 70
(`leb128DecodeChecked_eq`). What `leb128_encode` writes of a `u64` has ten bytes at most and
is read back (`decode_encode`). `find_first_frame_obu` reads a size at some places of the data
(`ReadsSize`) and goes on behind each OBU (`walk_sized`): where none of the sizes has an eleventh
byte, the walk comes to an end within the data (`walk_returns`), and where one has, it panics
(`walk_panics`). A walk that returns ends at the same offset without the checks
(`findFirstFrameObu_of_checked`).
-/

namespace Moonshine.Proof.HdrSei

open Moonshine.Framework Moonshine.Framework.Obu Moonshine.Impl Moonshine.Impl.HdrSei

/-! ## LEB128 -/

theorem ofNat_toNat_add (x y : Nat) : UInt64.ofNat ((UInt64.ofNat x).toNat + y) = UInt64.ofNat (x + y) := by
  apply UInt64.toNat_inj.mp
  rw [UInt64.toNat_ofNat', UInt64.toNat_ofNat', UInt64.toNat_ofNat', Nat.mod_add_mod]

/-- The value with the group of a byte above its own `k` groups. -/
def withGroup (value : UInt64) (k : Nat) (b : Byte) : UInt64 :=
  UInt64.ofNat (value.toNat + 2 ^ (7 * k) * (b.toNat % 128))

variable {k n : Nat} {value : UInt64} {b : Byte}

/-- One round, while the shift has room. -/
theorem leb128DecodeCheckedFrom_cons (hroom : k < 10) (hvalue : value.toNat < 2 ^ (7 * k)) (data : List Byte) :
    leb128DecodeCheckedFrom value (7 * k) k (b :: data) =
      if b &&& 0x80 = 0 then .ok (withGroup value k b, k + 1)
      else leb128DecodeCheckedFrom (withGroup value k b) (7 * (k + 1)) (k + 1) data := by
  have hshift : 7 * k < 64 := by omega
  have hnext : 7 * k + 7 < 2 ^ 31 := by omega
  have hcount : k + 1 < 2 ^ 64 := by omega
  rw [leb128DecodeCheckedFrom, checkedShl, if_pos hshift, Outcome.ok_bind, checkedAdd_of_lt hnext,
    Outcome.ok_bind, checkedAdd_of_lt hcount, Outcome.ok_bind, or_shift_wrap hvalue hshift]
  rfl

theorem withGroup_lt (hvalue : value.toNat < 2 ^ (7 * k)) : (withGroup value k b).toNat < 2 ^ (7 * (k + 1)) := by
  have hb : b.toNat % 128 < 128 := Nat.mod_lt _ (by decide)
  rw [withGroup, UInt64.toNat_ofNat']
  calc (value.toNat + 2 ^ (7 * k) * (b.toNat % 128)) % 2 ^ 64
      ≤ value.toNat + 2 ^ (7 * k) * (b.toNat % 128) := Nat.mod_le _ _
    _ < 2 ^ (7 * k) + 2 ^ (7 * k) * (b.toNat % 128) := Nat.add_lt_add_right hvalue _
    _ = 2 ^ (7 * k) * (b.toNat % 128 + 1) := by ring
    _ ≤ 2 ^ (7 * k) * 128 := Nat.mul_le_mul_left _ hb
    _ = 2 ^ (7 * (k + 1)) := by ring

/-- `n` groups of bits have room above the `k` groups that are there. -/
theorem leb128DecodeCheckedFrom_eq (hroom : k + n = 10) (hvalue : 0 < n → value.toNat < 2 ^ (7 * k))
    (data : List Byte) :
    leb128DecodeCheckedFrom value (7 * k) k data =
      if Continues n data then .panic
      else .ok
        (UInt64.ofNat (value.toNat + 2 ^ (7 * k) * lebValue (lebBytes data)), k + (lebBytes data).length) := by
  induction data generalizing k n value with
  | nil => simp [leb128DecodeCheckedFrom, lebBytes, lebValue, not_continues_nil]
  | cons b data ih =>
    cases n with
    | zero =>
      obtain rfl : k = 10 := hroom
      rw [if_pos (continues_zero b data)]
      rfl
    | succ n =>
      have hlow := hvalue (Nat.succ_pos n)
      rw [leb128DecodeCheckedFrom_cons (by omega) hlow, lebBytes]
      by_cases hlast : b &&& 0x80 = 0
      · have hnot : ¬ Continues (n + 1) (b :: data) := fun h => (continues_succ.mp h).1 hlast
        simp [hlast, hnot, lebValue, withGroup]
      · have hcontinues : Continues (n + 1) (b :: data) ↔ Continues n data := by simp [continues_succ, hlast]
        have hsum : value.toNat + 2 ^ (7 * k) * (b.toNat % 128) + 2 ^ (7 * (k + 1)) * lebValue (lebBytes data) =
            value.toNat + 2 ^ (7 * k) * lebValue (b :: lebBytes data) := by
          rw [lebValue]
          ring
        have hlength : k + 1 + (lebBytes data).length = k + (b :: lebBytes data).length := by
          rw [List.length_cons]
          omega
        have hroom' : k + 1 + n = 10 := by omega
        simp only [if_neg hlast, hcontinues]
        rw [ih hroom' fun _ => withGroup_lt hlow, withGroup, ofNat_toNat_add, hsum, hlength]

theorem leb128DecodeChecked_eq (data : List Byte) :
    leb128DecodeChecked data =
      if Continues 10 data then .panic
      else .ok (UInt64.ofNat (lebValue (lebBytes data)), (lebBytes data).length) := by
  have hzero : 0 < 10 → (0 : UInt64).toNat < 2 ^ (7 * 0) := fun _ => by decide
  have heq := leb128DecodeCheckedFrom_eq rfl hzero data
  simpa [leb128DecodeChecked] using heq

/-- The three facts about a byte of the encoding: what it adds, and the bit that says whether there is more. -/
theorem encoded_byte (value : UInt64) :
    (value &&& 0x7F).toUInt8.toNat % 128 = value.toNat % 128 ∧ (value &&& 0x7F).toUInt8 &&& 0x80 = 0 ∧
      ((value &&& 0x7F).toUInt8 ||| 0x80).toNat % 128 = value.toNat % 128 ∧
      ((value &&& 0x7F).toUInt8 ||| 0x80) &&& 0x80 ≠ 0 := by
  have hall : ∀ i : Fin 128, (UInt8.ofNat i).toNat % 128 = i ∧ UInt8.ofNat i &&& 0x80 = 0 ∧
      (UInt8.ofNat i ||| 0x80).toNat % 128 = i ∧ (UInt8.ofNat i ||| 0x80) &&& 0x80 ≠ 0 := by
    decide +kernel
  have hlow : (value &&& 0x7F).toUInt8 = UInt8.ofNat (value.toNat % 128) := by
    apply UInt8.toNat_inj.mp
    rw [UInt64.toNat_toUInt8, UInt64.toNat_and, UInt8.toNat_ofNat']
    exact congrArg (· % 256) (Nat.and_two_pow_sub_one_eq_mod value.toNat 7)
  rw [hlow]
  exact hall ⟨value.toNat % 128, Nat.mod_lt _ (by decide)⟩

theorem toNat_shiftRight_seven (value : UInt64) : (value >>> 7).toNat = value.toNat / 128 := by
  rw [UInt64.toNat_shiftRight]
  exact Nat.shiftRight_eq_div_pow value.toNat 7

/-- Nothing is left to encode exactly if the value has seven bits. -/
theorem shiftRight_seven_eq_zero_iff : value >>> 7 = 0 ↔ value.toNat < 128 := by
  rw [← UInt64.toNat_inj, toNat_shiftRight_seven]
  show value.toNat / 128 = 0 ↔ value.toNat < 128
  omega

/-- The encoding is what is read, its value is the number, and it ends in time. -/
theorem leb128EncodeFrom_append (hpos : 0 < n) (hvalue : value.toNat < 2 ^ (7 * n)) (suffix : List Byte) :
    lebBytes (leb128EncodeFrom n value ++ suffix) = leb128EncodeFrom n value ∧
      lebValue (leb128EncodeFrom n value) = value.toNat ∧
      ¬ Continues n (leb128EncodeFrom n value ++ suffix) := by
  induction n generalizing value with
  | zero => exact absurd hpos (Nat.lt_irrefl 0)
  | succ n ih =>
    obtain ⟨hlast, hend, hmore, hflag⟩ := encoded_byte value
    by_cases hzero : value >>> 7 = 0
    · have hsmall := shiftRight_seven_eq_zero_iff.mp hzero
      have henc : leb128EncodeFrom (n + 1) value = [(value &&& 0x7F).toUInt8] := if_pos hzero
      rw [henc]
      refine ⟨if_pos hend, ?_, fun h => (continues_succ.mp h).1 hend⟩
      rw [lebValue, hlast, lebValue, Nat.mod_eq_of_lt hsmall]
      omega
    · have henc : leb128EncodeFrom (n + 1) value =
          ((value &&& 0x7F).toUInt8 ||| 0x80) :: leb128EncodeFrom n (value >>> 7) := if_neg hzero
      have hpos' : 0 < n := by
        by_contra hn
        obtain rfl : n = 0 := by omega
        exact hzero (shiftRight_seven_eq_zero_iff.mpr hvalue)
      have hvalue' : (value >>> 7).toNat < 2 ^ (7 * n) := by
        rw [toNat_shiftRight_seven]
        apply Nat.div_lt_of_lt_mul
        calc value.toNat < 2 ^ (7 * (n + 1)) := hvalue
          _ = 128 * 2 ^ (7 * n) := by ring
      obtain ⟨hbytes, hrest, hcontinues⟩ := ih hpos' hvalue'
      rw [henc, List.cons_append]
      refine ⟨by rw [lebBytes, if_neg hflag, hbytes], ?_, fun h => hcontinues (continues_succ.mp h).2⟩
      rw [lebValue, hmore, hrest, toNat_shiftRight_seven]
      omega

theorem decode_encode (value : UInt64) (suffix : List Byte) :
    leb128DecodeChecked (leb128Encode value ++ suffix) = .ok (value, (leb128Encode value).length) := by
  have hvalue : value.toNat < 2 ^ (7 * 10) := Nat.lt_trans value.toNat_lt (by decide)
  obtain ⟨hbytes, hnumber, hcontinues⟩ := leb128EncodeFrom_append (by decide : 0 < 10) hvalue suffix
  have hof : UInt64.ofNat value.toNat = value := UInt64.ofNat_toNat
  rw [leb128DecodeChecked_eq, leb128Encode, if_neg hcontinues, hbytes, hnumber, hof]

/-! ## The walk -/

/-- The data from the size of the first OBU on, if the walk reads one there. -/
def sizeField : List Byte → Option (List Byte)
  | [] => none
  | header :: data =>
    if isFrameObu header then none
    else (parseExtension header data).bind fun e => if header &&& 0x02 = 0 then none else some e.2

/-- What is behind a size and as many bytes as its low 64 bits say. -/
def behind (sized : List Byte) : List Byte :=
  sized.drop ((lebBytes sized).length + lebValue (lebBytes sized) % 2 ^ 64)

/-- A size is read at `sized` on a walk from the front of the data. -/
inductive ReadsSize : List Byte → List Byte → Prop
  | first {data sized : List Byte} : sizeField data = some sized → ReadsSize data sized
  | later {data sized sized' : List Byte} :
    sizeField data = some sized → ReadsSize (behind sized) sized' → ReadsSize data sized'

/-- Where the OBU that begins at `i` goes on behind its header and extension. -/
def afterHeader (data : List Byte) (i : Nat) : Nat :=
  if (data.getD i 0 >>> 2) &&& 0x01 = 1 then i + 1 + 1 else i + 1

/-- Where the walk goes on behind an OBU with its size at `sized`. -/
def nextObu (data sized : List Byte) : Nat :=
  saturatingAdd 64 (data.length - sized.length + (lebBytes sized).length) (lebValue (lebBytes sized) % 2 ^ 64)

variable {data sized : List Byte} {i : Nat}

theorem lt_afterHeader (data : List Byte) (i : Nat) : i < afterHeader data i := by
  unfold afterHeader
  split
  · omega
  · omega

theorem drop_eq_cons (hi : i < data.length) : data.drop i = data.getD i 0 :: data.drop (i + 1) := by
  rw [List.getD_eq_getElem?_getD, List.getElem?_eq_getElem hi, Option.getD_some]
  exact List.drop_eq_getElem_cons hi

theorem sizeField_drop (hi : i < data.length) (hframe : ¬ isFrameObu (data.getD i 0)) :
    sizeField (data.drop i) =
      if data.length < afterHeader data i then none
      else if (data.getD i 0 >>> 1) &&& 0x01 = 1 then some (data.drop (afterHeader data i))
      else none := by
  unfold afterHeader
  rw [drop_eq_cons hi, sizeField, if_neg hframe]
  generalize data.getD i 0 = header
  simp only [size_flag, extension_flag, parseExtension, ite_not]
  by_cases hext : header &&& 0x04 = 0
  · have hfits : ¬ data.length < i + 1 := by omega
    simp [hext, hfits]
  · by_cases hlast : data.length ≤ i + 1
    · have hshort : data.length < i + 1 + 1 := by omega
      simp [hext, hshort, List.drop_eq_nil_of_le hlast]
    · have hfits : ¬ data.length < i + 1 + 1 := by omega
      rw [drop_eq_cons (show i + 1 < data.length by omega)]
      simp [hext, hfits]

theorem of_sizeField (h : sizeField (data.drop i) = some sized) :
    i < data.length ∧ ¬ isFrameObu (data.getD i 0) := by
  have hi : i < data.length := by
    by_contra hge
    rw [List.drop_eq_nil_of_le (Nat.not_lt.mp hge)] at h
    cases h
  refine ⟨hi, fun hframe => ?_⟩
  rw [drop_eq_cons hi, sizeField, if_pos hframe] at h
  cases h

theorem sizeField_suffix (h : sizeField (data.drop i) = some sized) :
    i < data.length - sized.length ∧ data.drop (data.length - sized.length) = sized := by
  obtain ⟨hi, hframe⟩ := of_sizeField h
  rw [sizeField_drop hi hframe] at h
  by_cases hend : data.length < afterHeader data i
  · rw [if_pos hend] at h
    cases h
  · by_cases hsize : (data.getD i 0 >>> 1) &&& 0x01 = 1
    · rw [if_neg hend, if_pos hsize] at h
      obtain rfl : data.drop (afterHeader data i) = sized := Option.some.inj h
      have hoffset : data.length - (data.drop (afterHeader data i)).length = afterHeader data i := by
        rw [List.length_drop]
        omega
      rw [hoffset]
      exact ⟨lt_afterHeader data i, rfl⟩
    · rw [if_neg hend, if_neg hsize] at h
      cases h

/-- Where the sum saturates, it is behind the end of the data both ways. -/
theorem nextObu_eq_or (hfits : data.length < 2 ^ 63) (sized : List Byte) :
    nextObu data sized =
        data.length - sized.length + (lebBytes sized).length + lebValue (lebBytes sized) % 2 ^ 64 ∨
      data.length ≤ data.length - sized.length + (lebBytes sized).length + lebValue (lebBytes sized) % 2 ^ 64 ∧
        data.length ≤ nextObu data sized := by
  unfold nextObu saturatingAdd
  omega

theorem drop_nextObu (hfits : data.length < 2 ^ 63) (hsized : data.drop (data.length - sized.length) = sized) :
    data.drop (nextObu data sized) = behind sized := by
  have hbehind : behind sized = data.drop (data.length - sized.length + (lebBytes sized).length +
      lebValue (lebBytes sized) % 2 ^ 64) := by
    rw [Nat.add_assoc, ← List.drop_drop, hsized]
    rfl
  rw [hbehind]
  rcases nextObu_eq_or hfits sized with heq | ⟨hend, hend'⟩
  · rw [heq]
  · rw [List.drop_eq_nil_of_le hend, List.drop_eq_nil_of_le hend']

theorem lt_nextObu (hfits : data.length < 2 ^ 63) (hi : i < data.length - sized.length) :
    i < nextObu data sized := by
  unfold nextObu saturatingAdd
  omega

theorem skipHeaderChecked_eq (hfits : data.length < 2 ^ 63) (hi : i < data.length) :
    skipHeaderChecked (data.getD i 0) i = .ok (afterHeader data i) := by
  have hnext : i + 1 < 2 ^ 64 := by omega
  have hnext' : i + 1 + 1 < 2 ^ 64 := by omega
  rw [skipHeaderChecked, checkedAdd_of_lt hnext, Outcome.ok_bind, checkedAdd_of_lt hnext', afterHeader]
  split
  · rfl
  · rfl

/-- One round, at an OBU. -/
theorem walk_step (hfits : data.length < 2 ^ 63) (hi : i < data.length) (rounds : Nat) :
    findFirstFrameObuCheckedFrom data (rounds + 1) i =
      if isFrameObu (data.getD i 0) then .ok (some i)
      else
        match sizeField (data.drop i) with
        | none => .ok (some data.length)
        | some sized =>
          if Continues 10 sized then .panic
          else findFirstFrameObuCheckedFrom data rounds (nextObu data sized) := by
  rw [findFirstFrameObuCheckedFrom, if_pos hi]
  by_cases hframe : isFrameObu (data.getD i 0)
  · simp only [hframe, if_true]
    rfl
  simp only [if_neg hframe, skipHeaderChecked_eq hfits hi, Outcome.ok_bind, sizeField_drop hi hframe]
  by_cases hend : data.length < afterHeader data i
  · simp only [if_pos hend]
    rfl
  by_cases hsize : (data.getD i 0 >>> 1) &&& 0x01 = 1
  · have hlength : data.length - (data.drop (afterHeader data i)).length = afterHeader data i := by
      rw [List.length_drop]
      omega
    have hread := length_lebBytes_le (data.drop (afterHeader data i))
    rw [List.length_drop] at hread
    simp only [if_neg hend, if_pos hsize, leb128DecodeChecked_eq]
    by_cases hcontinues : Continues 10 (data.drop (afterHeader data i))
    · simp only [if_pos hcontinues]
      rfl
    · have hsum : afterHeader data i + (lebBytes (data.drop (afterHeader data i))).length < 2 ^ 64 := by omega
      simp only [if_neg hcontinues, Outcome.ok_bind, checkedAdd_of_lt hsum, nextObu, hlength, UInt64.toNat_ofNat']
  · simp only [if_neg hend, if_neg hsize]
    rfl

/-- One round, where a size is read. -/
theorem walk_sized (hfits : data.length < 2 ^ 63) (h : sizeField (data.drop i) = some sized) :
    i < data.length ∧ ∀ rounds, findFirstFrameObuCheckedFrom data (rounds + 1) i =
      if Continues 10 sized then .panic else findFirstFrameObuCheckedFrom data rounds (nextObu data sized) := by
  obtain ⟨hi, hframe⟩ := of_sizeField h
  refine ⟨hi, fun rounds => ?_⟩
  rw [walk_step hfits hi, if_neg hframe, h]

/-- Where a walk that reads no size at `i` ends. -/
def stop (data : List Byte) (i : Nat) : Nat :=
  if i < data.length ∧ isFrameObu (data.getD i 0) then i else data.length

theorem stop_le (data : List Byte) (i : Nat) : stop data i ≤ data.length := by
  unfold stop
  split
  · omega
  · exact le_refl _

/-- One round, where no size is read. -/
theorem walk_stops (hfits : data.length < 2 ^ 63) (h : sizeField (data.drop i) = none) (rounds : Nat) :
    findFirstFrameObuCheckedFrom data (rounds + 1) i = .ok (some (stop data i)) := by
  by_cases hi : i < data.length
  · rw [walk_step hfits hi, h, stop]
    by_cases hframe : isFrameObu (data.getD i 0)
    · rw [if_pos hframe, if_pos ⟨hi, hframe⟩]
    · rw [if_neg hframe, if_neg fun h => hframe h.2]
  · rw [findFirstFrameObuCheckedFrom, if_neg hi, stop, if_neg fun h => hi h.1]
    rfl

/-- Each round moves on, so that the walk comes to its end before there are as many as bytes are left. -/
theorem walk_returns (hfits : data.length < 2 ^ 63)
    (h : ∀ sized, ReadsSize (data.drop i) sized → ¬ Continues 10 sized) :
    ∃ offset ≤ data.length, ∀ rounds, data.length - i < rounds →
      findFirstFrameObuCheckedFrom data rounds i = .ok (some offset) := by
  induction hleft : data.length - i using Nat.strong_induction_on generalizing i with
  | _ left ih =>
    subst hleft
    have hrounds {rounds : Nat} (hlt : data.length - i < rounds) : rounds = rounds - 1 + 1 := by omega
    cases hs : sizeField (data.drop i) with
    | none =>
      refine ⟨stop data i, stop_le data i, fun rounds hlt => ?_⟩
      rw [hrounds hlt, walk_stops hfits hs]
    | some sized =>
      obtain ⟨hi, hstep⟩ := walk_sized hfits hs
      obtain ⟨hlt, hdrop⟩ := sizeField_suffix hs
      have hnext := lt_nextObu hfits hlt
      have hlater : ∀ sized', ReadsSize (data.drop (nextObu data sized)) sized' → ¬ Continues 10 sized' := by
        intro sized' hreads
        rw [drop_nextObu hfits hdrop] at hreads
        exact h sized' (.later hs hreads)
      obtain ⟨offset, hle, hwalk⟩ := ih (data.length - nextObu data sized) (by omega) hlater rfl
      refine ⟨offset, hle, fun rounds hlt => ?_⟩
      rw [hrounds hlt, hstep, if_neg (h sized (.first hs))]
      exact hwalk (rounds - 1) (by omega)

theorem walk_panics (hfits : data.length < 2 ^ 63) {rest : List Byte} (h : ReadsSize rest sized)
    (hcontinues : Continues 10 sized) {rounds : Nat} (hrest : rest = data.drop i)
    (hrounds : data.length - i < rounds) : findFirstFrameObuCheckedFrom data rounds i = .panic := by
  induction h generalizing i rounds with
  | first hs =>
    subst hrest
    obtain ⟨rounds, rfl⟩ : ∃ n, rounds = n + 1 := ⟨rounds - 1, by omega⟩
    rw [(walk_sized hfits hs).2, if_pos hcontinues]
  | @later rest sized sized' hs _ ih =>
    subst hrest
    obtain ⟨hi, hstep⟩ := walk_sized hfits hs
    obtain ⟨hlt, hdrop⟩ := sizeField_suffix hs
    have hnext := lt_nextObu hfits hlt
    obtain ⟨rounds, rfl⟩ : ∃ n, rounds = n + 1 := ⟨rounds - 1, by omega⟩
    rw [hstep]
    by_cases hfirst : Continues 10 sized
    · rw [if_pos hfirst]
    · rw [if_neg hfirst]
      exact ih hcontinues (drop_nextObu hfits hdrop).symm (by omega)

/-! ## Without the checks -/

theorem leb128DecodeFrom_of_checked {value : UInt64} {shift consumed : Nat} {p : UInt64 × Nat}
    (h : leb128DecodeCheckedFrom value shift consumed data = .ok p) :
    leb128DecodeFrom value shift consumed data = p := by
  induction data generalizing value shift consumed with
  | nil => exact Outcome.ok.inj h
  | cons b data ih =>
    obtain ⟨bits, hbits, h⟩ := Outcome.bind_eq_ok.mp h
    obtain ⟨shift', hshift, h⟩ := Outcome.bind_eq_ok.mp h
    obtain ⟨consumed', hconsumed, h⟩ := Outcome.bind_eq_ok.mp h
    obtain ⟨-, rfl⟩ := checkedShl_eq_ok.mp hbits
    obtain ⟨-, rfl⟩ := checkedAdd_eq_ok.mp hshift
    obtain ⟨-, rfl⟩ := checkedAdd_eq_ok.mp hconsumed
    rw [leb128DecodeFrom]
    by_cases hlast : b &&& 0x80 = 0
    · simp only [if_pos hlast] at h ⊢
      exact Outcome.ok.inj h
    · simp only [if_neg hlast] at h ⊢
      exact ih h

/-- One round, at an OBU. -/
theorem unchecked_step (hi : i < data.length) (rounds : Nat) :
    findFirstFrameObuFrom data (rounds + 1) i =
      if isFrameObu (data.getD i 0) then i
      else
        match sizeField (data.drop i) with
        | none => data.length
        | some sized =>
          findFirstFrameObuFrom data rounds
            (data.length - sized.length + (leb128Decode sized).2 + (leb128Decode sized).1.toNat) := by
  rw [findFirstFrameObuFrom, if_pos hi]
  by_cases hframe : isFrameObu (data.getD i 0)
  · simp only [if_pos hframe]
  simp only [if_neg hframe, sizeField_drop hi hframe]
  show (if data.length < afterHeader data i then data.length else _) = _
  by_cases hend : data.length < afterHeader data i
  · simp only [if_pos hend]
  by_cases hsize : (data.getD i 0 >>> 1) &&& 0x01 = 1
  · have hlength : data.length - (data.drop (afterHeader data i)).length = afterHeader data i := by
      rw [List.length_drop]
      omega
    simp only [if_neg hend, if_pos hsize, hlength]
    rfl
  · simp only [if_neg hend, if_neg hsize]

theorem unchecked_end (hi : data.length ≤ i) (rounds : Nat) :
    findFirstFrameObuFrom data rounds i = data.length := by
  cases rounds with
  | zero => rfl
  | succ rounds => exact if_neg (Nat.not_lt.mpr hi)

theorem unchecked_stops (h : sizeField (data.drop i) = none) {rounds : Nat} (hrounds : data.length - i ≤ rounds) :
    findFirstFrameObuFrom data rounds i = stop data i := by
  by_cases hi : i < data.length
  · obtain ⟨rounds, rfl⟩ : ∃ n, rounds = n + 1 := ⟨rounds - 1, by omega⟩
    rw [unchecked_step hi, h, stop]
    by_cases hframe : isFrameObu (data.getD i 0)
    · rw [if_pos hframe, if_pos ⟨hi, hframe⟩]
    · rw [if_neg hframe, if_neg fun h => hframe h.2]
  · rw [unchecked_end (Nat.not_lt.mp hi), stop, if_neg fun h => hi h.1]

theorem unchecked_sized (hfits : data.length < 2 ^ 63) (h : sizeField (data.drop i) = some sized)
    (hcontinues : ¬ Continues 10 sized) (rounds : Nat) :
    findFirstFrameObuFrom data (rounds + 1) i = findFirstFrameObuFrom data rounds (nextObu data sized) := by
  obtain ⟨hi, hframe⟩ := of_sizeField h
  have hchecked := leb128DecodeChecked_eq sized
  rw [if_neg hcontinues] at hchecked
  have hread : leb128Decode sized = (UInt64.ofNat (lebValue (lebBytes sized)), (lebBytes sized).length) :=
    leb128DecodeFrom_of_checked hchecked
  rw [unchecked_step hi, if_neg hframe, h]
  simp only [hread, UInt64.toNat_ofNat']
  rcases nextObu_eq_or hfits sized with heq | ⟨hend, hend'⟩
  · rw [heq]
  · rw [unchecked_end hend, unchecked_end hend']

/-- Where the walk returns with the checks, it returns the same without. -/
theorem unchecked_of_checked (hfits : data.length < 2 ^ 63) {rounds rounds' offset : Nat}
    (h : findFirstFrameObuCheckedFrom data rounds i = .ok (some offset)) (hrounds : data.length - i ≤ rounds') :
    findFirstFrameObuFrom data rounds' i = offset := by
  induction rounds generalizing i rounds' with
  | zero => cases h
  | succ rounds ih =>
    cases hs : sizeField (data.drop i) with
    | none =>
      rw [walk_stops hfits hs] at h
      rw [unchecked_stops hs hrounds]
      exact Option.some.inj (Outcome.ok.inj h)
    | some sized =>
      obtain ⟨hi, hstep⟩ := walk_sized hfits hs
      have hnext := lt_nextObu hfits (sizeField_suffix hs).1
      obtain ⟨rounds', rfl⟩ : ∃ n, rounds' = n + 1 := ⟨rounds' - 1, by omega⟩
      rw [hstep] at h
      by_cases hcontinues : Continues 10 sized
      · rw [if_pos hcontinues] at h
        cases h
      · rw [if_neg hcontinues] at h
        rw [unchecked_sized hfits hs hcontinues]
        exact ih h (by omega)

theorem findFirstFrameObu_of_checked {data : MemSlice} {rounds offset : Nat}
    (h : findFirstFrameObuChecked data rounds = .ok (some offset)) : findFirstFrameObu data.bytes = offset :=
  unchecked_of_checked data.fits h (Nat.le_refl _)

/-! ## Total -/

/-- `leb128_decode` returns, and has read no more than there is. -/
def DecodeReturns (data : List Byte) : Prop :=
  ∃ value bytesRead, leb128DecodeChecked data = .ok (value, bytesRead) ∧ bytesRead ≤ data.length

/-- `find_first_frame_obu` returns, in one round for each byte and one at the end, an offset within the data. -/
def WalkReturns (data : MemSlice) : Prop :=
  ∃ offset ≤ data.bytes.length, ∀ rounds, data.bytes.length < rounds →
    findFirstFrameObuChecked data rounds = .ok (some offset)

theorem decodeReturns_iff (data : List Byte) : DecodeReturns data ↔ ¬ Continues 10 data := by
  unfold DecodeReturns
  rw [leb128DecodeChecked_eq]
  by_cases h : Continues 10 data
  · simp [h]
  · rw [if_neg h]
    exact iff_of_true ⟨_, _, rfl, length_lebBytes_le data⟩ h

theorem walkReturns_iff (data : MemSlice) :
    WalkReturns data ↔ ∀ sized, ReadsSize data.bytes sized → ¬ Continues 10 sized := by
  constructor
  · rintro ⟨offset, -, hwalk⟩ sized hreads hcontinues
    have hpanic : findFirstFrameObuChecked data (data.bytes.length + 1) = .panic :=
      walk_panics data.fits hreads hcontinues rfl (Nat.lt_succ_self _)
    rw [hwalk (data.bytes.length + 1) (Nat.lt_succ_self _)] at hpanic
    cases hpanic
  · exact walk_returns (i := 0) data.fits

/-- Without an eleventh byte of a size, and only so, nothing overflows. -/
theorem total_iff (value : UInt64) (suffix : List Byte) (data : MemSlice) :
    leb128DecodeChecked (leb128Encode value ++ suffix) = .ok (value, (leb128Encode value).length) ∧
      (DecodeReturns data.bytes ↔ ¬ Continues 10 data.bytes) ∧
      (WalkReturns data ↔ ∀ sized, ReadsSize data.bytes sized → ¬ Continues 10 sized) :=
  ⟨decode_encode value suffix, decodeReturns_iff data.bytes, walkReturns_iff data⟩

/-- A temporal delimiter whose size has eleven bytes. -/
def longSize : MemSlice := ⟨0x12 :: List.replicate 11 0x80, by decide⟩

theorem not_total_longSize : ¬ DecodeReturns (List.replicate 11 0x80) ∧ ¬ WalkReturns longSize := by
  have hdecode : leb128DecodeChecked (List.replicate 11 0x80) = .panic := by decide +kernel
  have hwalk : findFirstFrameObuChecked longSize 13 = .panic := by decide +kernel
  constructor
  · rintro ⟨value, bytesRead, hok, -⟩
    rw [hdecode] at hok
    cases hok
  · rintro ⟨offset, -, hreturns⟩
    have hok := hreturns 13 (by decide)
    rw [hwalk] at hok
    cases hok

end Moonshine.Proof.HdrSei
