import Mathlib.Data.List.DropRight
import Mathlib.Data.List.Infix

/-!
# Byte streams of NAL units

A byte stream is a sequence of NAL units, each after a start code of three or
four bytes. `nalUnits` splits one at the start codes: the zeros that stand
before a start code belong to no unit. Splitting what was joined gives the units
back (`nalUnits_bytestream`), because no start code begins inside a unit
(`no_startCode`).
-/

namespace Moonshine.Framework.AnnexB

/-- What a unit must not contain. -/
def startCodePrefix : List UInt8 := [0, 0, 1]

/-- The bytes of a NAL unit: they hold no start code, and the last is not zero. -/
structure NalUnit where
  bytes : List UInt8
  free : ¬ startCodePrefix <:+: bytes
  ends : ∃ last, bytes.getLast? = some last ∧ last ≠ 0

def startCode (long : Bool) : List UInt8 := if long then 0 :: startCodePrefix else startCodePrefix

/-- The units, each with whether its start code is the long one. -/
def bytestream (units : List (Bool × NalUnit)) : List UInt8 :=
  units.flatMap fun u => startCode u.1 ++ u.2.bytes

/-- The segments before, between and after the start codes. -/
def segments : List UInt8 → List (List UInt8)
  | [] => [[]]
  | 0 :: 0 :: 1 :: rest => [] :: segments rest
  | b :: rest => (segments rest).modifyHead (b :: ·)

/-- The units of a byte stream. -/
def nalUnits (data : List UInt8) : List (List UInt8) :=
  (segments data).tail.map (List.rdropWhile (· == 0))

@[simp] theorem bytestream_nil : bytestream [] = [] := rfl

theorem bytestream_cons (u : Bool × NalUnit) (units : List (Bool × NalUnit)) :
    bytestream (u :: units) = startCode u.1 ++ (u.2.bytes ++ bytestream units) := by
  rw [bytestream, List.flatMap_cons, List.append_assoc]
  rfl

theorem bytestream_append (us vs : List (Bool × NalUnit)) :
    bytestream (us ++ vs) = bytestream us ++ bytestream vs := List.flatMap_append

/-- A suffix of a unit, continued in any way, does not begin with a start code. -/
theorem no_startCode (n : NalUnit) {s tail : List UInt8} (hs : s <:+ n.bytes) (hne : s ≠ []) :
    ¬ startCodePrefix <+: s ++ tail := by
  obtain ⟨last, hlast, hzero⟩ := n.ends
  obtain ⟨front, hfront⟩ := hs
  rw [← hfront, List.getLast?_append_of_ne_nil _ hne] at hlast
  intro hprefix
  match s with
  | [x] =>
    have hx : x = 0 := (List.cons_prefix_cons.mp hprefix).1.symm
    exact hzero (Option.some.inj hlast ▸ hx)
  | [x, y] =>
    have hy : y = 0 := (List.cons_prefix_cons.mp (List.cons_prefix_cons.mp hprefix).2).1.symm
    exact hzero (Option.some.inj hlast ▸ hy)
  | x :: y :: z :: s =>
    have hstart : startCodePrefix <+: x :: y :: z :: s :=
      List.prefix_of_prefix_length_le hprefix (List.prefix_append _ tail) (by simp [startCodePrefix])
    exact n.free (hfront ▸ hstart.isInfix.trans (List.suffix_append front _).isInfix)

/-- Nor does it with the long one. -/
theorem no_longCode (n : NalUnit) {s tail : List UInt8} (hs : s <:+ n.bytes) (hne : s ≠ []) :
    ¬ 0 :: startCodePrefix <+: s ++ tail := by
  intro hprefix
  obtain ⟨last, hlast, hzero⟩ := n.ends
  match s with
  | [x] =>
    obtain ⟨front, hfront⟩ := hs
    rw [← hfront, List.getLast?_append_of_ne_nil _ hne] at hlast
    have hx : x = 0 := (List.cons_prefix_cons.mp hprefix).1.symm
    exact hzero (Option.some.inj hlast ▸ hx)
  | x :: y :: s =>
    have hrest : y :: s <:+ n.bytes := (List.suffix_cons x _).trans hs
    exact no_startCode n hrest (by simp) (List.cons_prefix_cons.mp hprefix).2

theorem segments_startCode (long : Bool) (rest : List UInt8) :
    segments (startCode long ++ rest) = (if long then [0] else []) :: segments rest := by
  cases long with
  | false => rfl
  | true =>
    show segments (0 :: 0 :: 0 :: 1 :: rest) = _
    rw [segments, segments]
    · rfl
    all_goals simp

theorem segments_cons {b : UInt8} {rest : List UInt8} (h : ¬ startCodePrefix <+: b :: rest) :
    segments (b :: rest) = (segments rest).modifyHead (b :: ·) := by
  rw [segments]
  rintro rest' rfl rfl
  exact h (by simp [startCodePrefix])

theorem segments_unit (n : NalUnit) {s : List UInt8} (hs : s <:+ n.bytes) (tail : List UInt8) :
    segments (s ++ tail) = (segments tail).modifyHead (s ++ ·) := by
  induction s with
  | nil =>
    rw [List.nil_append]
    cases segments tail <;> rfl
  | cons b s ih =>
    have hcons : ¬ startCodePrefix <+: b :: (s ++ tail) := no_startCode n hs (by simp)
    rw [List.cons_append, segments_cons hcons, ih ((List.suffix_cons b s).trans hs),
      List.modifyHead_modifyHead]
    rfl

theorem rdropWhile_unit (n : NalUnit) {zeros : List UInt8} (h : zeros = [] ∨ zeros = [0]) :
    (n.bytes ++ zeros).rdropWhile (· == 0) = n.bytes := by
  obtain ⟨last, hlast, hzero⟩ := n.ends
  obtain ⟨front, hbytes⟩ := List.getLast?_eq_some_iff.mp hlast
  have hunit : (front ++ [last]).rdropWhile (· == 0) = front ++ [last] :=
    List.rdropWhile_concat_neg _ _ _ (by simpa using hzero)
  rw [hbytes]
  rcases h with rfl | rfl
  · rwa [List.append_nil]
  · rwa [List.rdropWhile_concat_pos _ _ _ (by rfl)]

/-- What stands before the first start code is nothing but a zero. -/
theorem segments_bytestream (units : List (Bool × NalUnit)) : ∃ zeros segs,
    segments (bytestream units) = zeros :: segs ∧ (zeros = [] ∨ zeros = [0]) ∧
      segs.map (List.rdropWhile (· == 0)) = units.map fun u => u.2.bytes := by
  induction units with
  | nil => exact ⟨[], [], rfl, .inl rfl, rfl⟩
  | cons u units ih =>
    obtain ⟨zeros, segs, hsegs, hzeros, hunits⟩ := ih
    rw [bytestream_cons, segments_startCode, segments_unit u.2 (List.suffix_refl _), hsegs]
    refine ⟨_, _, rfl, by cases u.1 <;> simp, ?_⟩
    rw [List.modifyHead_cons, List.map_cons, rdropWhile_unit u.2 hzeros, hunits, List.map_cons]

/-- Splitting what was joined gives the units back. -/
theorem nalUnits_bytestream (units : List (Bool × NalUnit)) :
    nalUnits (bytestream units) = units.map fun u => u.2.bytes := by
  obtain ⟨zeros, segs, hsegs, -, hunits⟩ := segments_bytestream units
  rw [nalUnits, hsegs, List.tail_cons, hunits]

end Moonshine.Framework.AnnexB
