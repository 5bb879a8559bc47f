import Mathlib.Data.List.Basic

/-!
# Sequences of OBUs

An open bitstream unit has a header byte, an extension byte if bit 2 of the
header says so, its size in LEB128 if bit 1 does, and a payload. One without a
size reaches to the end of the data, so that only the last of a sequence may
omit it (`WellFormed`). Parsing the bytes of a well-formed sequence gives the
sequence back (`parseStream_stream`).
-/

namespace Moonshine.Framework

namespace Obu

/-- The value of bytes of seven bits each, the lowest first. -/
def lebValue : List UInt8 → Nat
  | [] => 0
  | b :: bs => b.toNat % 128 + 128 * lebValue bs

/-- Up to eight bytes, with the continuation bit in all but the last. -/
structure IsLeb128 (bytes : List UInt8) : Prop where
  length_le : bytes.length ≤ 8
  shape : ∃ front last, bytes = front ++ [last] ∧ (∀ b ∈ front, b &&& 0x80 ≠ 0) ∧ last &&& 0x80 = 0

/-- Splits off the bytes of one value. -/
def splitLeb128 : List UInt8 → Option (List UInt8 × List UInt8)
  | [] => none
  | b :: data =>
    if b &&& 0x80 = 0 then some ([b], data) else (splitLeb128 data).map fun s => (b :: s.1, s.2)

theorem splitLeb128_append {bytes : List UInt8} (h : IsLeb128 bytes) (rest : List UInt8) :
    splitLeb128 (bytes ++ rest) = some (bytes, rest) := by
  obtain ⟨front, last, rfl, hfront, hlast⟩ := h.shape
  clear h
  induction front with
  | nil => exact if_pos hlast
  | cons b front ih =>
    rw [List.cons_append, List.cons_append, splitLeb128, if_neg (hfront b List.mem_cons_self),
      ih fun b' hb' => hfront b' (List.mem_cons_of_mem b hb')]
    rfl

/-- The bytes of the value at the front: up to the first without the continuation bit. -/
def lebBytes : List UInt8 → List UInt8
  | [] => []
  | b :: data => if b &&& 0x80 = 0 then [b] else b :: lebBytes data

theorem length_lebBytes_le (data : List UInt8) : (lebBytes data).length ≤ data.length := by
  induction data with
  | nil => exact Nat.le_refl _
  | cons b data ih =>
    rw [lebBytes]
    split
    · simp
    · exact Nat.succ_le_succ ih

/-- More than `n` bytes, of which the first `n` have the continuation bit. -/
def Continues (n : Nat) (data : List UInt8) : Prop := n < data.length ∧ ∀ b ∈ data.take n, b &&& 0x80 ≠ 0

instance (n : Nat) (data : List UInt8) : Decidable (Continues n data) :=
  letI : Decidable (∀ b ∈ data.take n, b &&& 0x80 ≠ 0) := List.decidableBAll _ _
  inferInstanceAs (Decidable (_ ∧ _))

theorem not_continues_nil (n : Nat) : ¬ Continues n [] := fun h => Nat.not_lt_zero n h.1

theorem continues_zero (b : UInt8) (data : List UInt8) : Continues 0 (b :: data) := ⟨Nat.succ_pos _, by simp⟩

theorem continues_succ {n : Nat} {b : UInt8} {data : List UInt8} :
    Continues (n + 1) (b :: data) ↔ b &&& 0x80 ≠ 0 ∧ Continues n data := by
  rw [Continues, List.take_succ_cons, List.forall_mem_cons, List.length_cons, Nat.add_lt_add_iff_right]
  exact and_left_comm

end Obu

structure Obu where
  header : UInt8
  extension : Option UInt8
  /-- The LEB128 bytes of the size. -/
  size : Option (List UInt8)
  payload : List UInt8
  deriving DecidableEq, Repr

namespace Obu

/-- The flags of the header agree with what is there, and so does the size. -/
structure Valid (u : Obu) : Prop where
  extension : u.extension.isSome ↔ u.header &&& 0x04 ≠ 0
  hasSize : u.size.isSome ↔ u.header &&& 0x02 ≠ 0
  size : ∀ bytes, u.size = some bytes → IsLeb128 bytes ∧ lebValue bytes = u.payload.length

def bytes (u : Obu) : List UInt8 := u.header :: (u.extension.toList ++ (u.size.getD [] ++ u.payload))

/-- Only the last unit may omit its size. -/
def WellFormed : List Obu → Prop
  | [] => True
  | u :: us => u.Valid ∧ (u.size.isSome ∨ us = []) ∧ WellFormed us

def stream (us : List Obu) : List UInt8 := us.flatMap bytes

theorem WellFormed.left {us vs : List Obu} (h : WellFormed (us ++ vs)) : WellFormed us := by
  induction us with
  | nil => trivial
  | cons u us ih =>
    obtain ⟨hvalid, hlast, hrest⟩ := h
    exact ⟨hvalid, hlast.imp id fun hnil => (List.append_eq_nil_iff.mp hnil).1, ih hrest⟩

theorem WellFormed.right {us vs : List Obu} (h : WellFormed (us ++ vs)) : WellFormed vs := by
  induction us with
  | nil => exact h
  | cons u us ih => exact ih h.2.2

/-- What is not the last has a size. -/
theorem WellFormed.sized {us vs : List Obu} (h : WellFormed (us ++ vs)) (hvs : vs ≠ []) :
    ∀ u ∈ us, u.size.isSome := by
  induction us with
  | nil => simp
  | cons u us ih =>
    obtain ⟨-, hlast, hrest⟩ := h
    have hsize : u.size.isSome :=
      hlast.resolve_right fun hnil => hvs (List.append_eq_nil_iff.mp hnil).2
    exact List.forall_mem_cons.mpr ⟨hsize, ih hrest⟩

theorem WellFormed.append {us vs : List Obu} (hus : ∀ u ∈ us, u.Valid ∧ u.size.isSome)
    (hvs : WellFormed vs) : WellFormed (us ++ vs) := by
  induction us with
  | nil => exact hvs
  | cons u us ih =>
    obtain ⟨hu, hus⟩ := List.forall_mem_cons.mp hus
    exact ⟨hu.1, Or.inl hu.2, ih hus⟩

theorem WellFormed.valid {us : List Obu} (h : WellFormed us) : ∀ u ∈ us, u.Valid := by
  induction us with
  | nil => simp
  | cons u us ih => exact List.forall_mem_cons.mpr ⟨h.1, ih h.2.2⟩

/-- The extension byte, if the header announces one. -/
def parseExtension (header : UInt8) (data : List UInt8) : Option (Option UInt8 × List UInt8) :=
  if header &&& 0x04 = 0 then some (none, data)
  else match data with
    | [] => none
    | e :: data => some (some e, data)

/-- The unit with these first bytes and the rest of the data. -/
def parseSized (header : UInt8) (extension : Option UInt8) (data : List UInt8) : Option (Obu × List UInt8) :=
  if header &&& 0x02 = 0 then some (⟨header, extension, none, data⟩, [])
  else (splitLeb128 data).bind fun s =>
    if s.1.length ≤ 8 ∧ lebValue s.1 ≤ s.2.length then
      some (⟨header, extension, some s.1, s.2.take (lebValue s.1)⟩, s.2.drop (lebValue s.1))
    else none

/-- The first unit of the data. -/
def parse : List UInt8 → Option (Obu × List UInt8)
  | [] => none
  | header :: data => (parseExtension header data).bind fun e => parseSized header e.1 e.2

/-- The units of the data, at most as many as given. -/
def parseStreamFrom : Nat → List UInt8 → Option (List Obu)
  | _, [] => some []
  | 0, _ :: _ => none
  | n + 1, b :: data => (parse (b :: data)).bind fun p => (parseStreamFrom n p.2).map (p.1 :: ·)

/-- Every unit has a byte at least. -/
def parseStream (data : List UInt8) : Option (List Obu) := parseStreamFrom data.length data

@[simp] theorem stream_nil : stream [] = [] := rfl

theorem stream_cons (u : Obu) (us : List Obu) : stream (u :: us) = u.bytes ++ stream us := rfl

theorem stream_append (us vs : List Obu) : stream (us ++ vs) = stream us ++ stream vs :=
  List.flatMap_append

theorem length_le_stream (us : List Obu) : us.length ≤ (stream us).length := by
  induction us with
  | nil => exact Nat.le_refl _
  | cons u us ih =>
    rw [stream_cons, bytes, List.length_append, List.length_cons, List.length_cons]
    omega

theorem parseExtension_append {u : Obu} (h : u.Valid) (data : List UInt8) :
    parseExtension u.header (u.extension.toList ++ data) = some (u.extension, data) := by
  unfold parseExtension
  cases hext : u.extension with
  | none =>
    have hflag : u.header &&& 0x04 = 0 := by
      by_contra hne
      have := h.extension.mpr hne
      simp [hext] at this
    rw [if_pos hflag]
    rfl
  | some e =>
    rw [if_neg (h.extension.mp (by rw [hext]; rfl))]
    rfl

theorem parse_append {u : Obu} (h : u.Valid) {rest : List UInt8} (hlast : u.size.isSome ∨ rest = []) :
    parse (u.bytes ++ rest) = some (u, rest) := by
  obtain ⟨header, extension, size, payload⟩ := u
  have hext := parseExtension_append h (size.getD [] ++ payload ++ rest)
  rw [bytes, List.cons_append, parse, List.append_assoc, hext, Option.bind_some, parseSized]
  cases size with
  | none =>
    have hflag : header &&& 0x02 = 0 := by
      by_contra hne
      have := h.hasSize.mpr hne
      simp at this
    obtain rfl : rest = [] := hlast.resolve_left (by simp)
    rw [if_pos hflag, List.append_nil]
    rfl
  | some l =>
    obtain ⟨hleb, hvalue⟩ := h.size l rfl
    have hflag : header &&& 0x02 ≠ 0 := h.hasSize.mp rfl
    rw [if_neg hflag, Option.getD_some, List.append_assoc, splitLeb128_append hleb, Option.bind_some]
    dsimp only at hvalue ⊢
    rw [if_pos ⟨hleb.length_le, by rw [hvalue]; simp⟩, hvalue, List.take_left' rfl, List.drop_left' rfl]

theorem parseStreamFrom_stream {us : List Obu} (h : WellFormed us) {n : Nat} (hn : us.length ≤ n) :
    parseStreamFrom n (stream us) = some us := by
  induction us generalizing n with
  | nil => cases n <;> rfl
  | cons u us ih =>
    obtain ⟨hvalid, hlast, hrest⟩ := h
    obtain ⟨n, rfl⟩ : ∃ m, n = m + 1 := ⟨n - 1, by rw [List.length_cons] at hn; omega⟩
    have hparse := parse_append hvalid (hlast.imp id fun hnil => by rw [hnil]; rfl : _ ∨ stream us = [])
    rw [stream_cons]
    show (parse (u.bytes ++ stream us)).bind _ = _
    rw [hparse, Option.bind_some, ih hrest (Nat.le_of_succ_le_succ hn)]
    rfl

/-- Parsing the bytes of a sequence gives the sequence back. -/
theorem parseStream_stream {us : List Obu} (h : WellFormed us) : parseStream (stream us) = some us :=
  parseStreamFrom_stream h (length_le_stream us)

/-- A last unit without a size, with more data in its payload. -/
def absorb (u : Obu) (data : List UInt8) : Obu := { u with payload := u.payload ++ data }

theorem bytes_absorb (u : Obu) (data : List UInt8) : (u.absorb data).bytes = u.bytes ++ data := by
  simp [absorb, bytes]

theorem absorb_valid {u : Obu} (h : u.Valid) (hsize : u.size = none) (data : List UInt8) :
    (u.absorb data).Valid where
  extension := h.extension
  hasSize := h.hasSize
  size := by
    intro l hl
    have hl : u.size = some l := hl
    rw [hsize] at hl
    contradiction

/-- What follows a unit without a size is read as its payload. -/
theorem parseStream_absorb {us : List Obu} {u : Obu} (h : WellFormed (us ++ [u])) (hsize : u.size = none)
    (data : List UInt8) : parseStream (stream (us ++ [u]) ++ data) = some (us ++ [u.absorb data]) := by
  have hus : ∀ v ∈ us, v.Valid ∧ v.size.isSome := fun v hv =>
    ⟨h.left.valid v hv, h.sized (by simp) v hv⟩
  have hwell : WellFormed (us ++ [u.absorb data]) :=
    WellFormed.append hus ⟨absorb_valid h.right.1 hsize data, Or.inr rfl, trivial⟩
  have hstream : stream (us ++ [u]) ++ data = stream (us ++ [u.absorb data]) := by
    rw [stream_append, stream_append, List.append_assoc]
    simp [stream, bytes_absorb]
  rw [hstream, parseStream_stream hwell]

end Obu

/-- A sequence of OBUs whose last only may omit its size. -/
structure TemporalUnit where
  obus : List Obu
  wellFormed : Obu.WellFormed obus

def TemporalUnit.bytes (tu : TemporalUnit) : List UInt8 := Obu.stream tu.obus

end Moonshine.Framework
