import Mathlib.Tactic.Ring
import Moonshine.Framework.Outcome

/-!
# Bytes: words and slices

`leBytes` and `beBytes` are `to_le_bytes` and `to_be_bytes` of a word of any
width, `ofLe` and `ofBe` read one back. `slice` reads a range of a buffer and
`splice` overwrites one; `readAt` and `writeAt` are the two with the bounds
check of a slice index, which panics.
-/

namespace Moonshine.Framework

/-- The `n` little-endian bytes of `x`, which drop what does not fit. -/
def leBytes : Nat → Nat → List UInt8
  | 0, _ => []
  | n + 1, x => UInt8.ofNat x :: leBytes n (x / 256)

def beBytes (n x : Nat) : List UInt8 := (leBytes n x).reverse

def ofLe : List UInt8 → Nat
  | [] => 0
  | b :: bs => b.toNat + 256 * ofLe bs

def ofBe (bs : List UInt8) : Nat := ofLe bs.reverse

@[simp] theorem length_leBytes (n x : Nat) : (leBytes n x).length = n := by
  induction n generalizing x with
  | zero => rfl
  | succ n ih => rw [leBytes, List.length_cons, ih]

@[simp] theorem length_beBytes (n x : Nat) : (beBytes n x).length = n := by
  rw [beBytes, List.length_reverse, length_leBytes]

theorem ofLe_leBytes (n x : Nat) : ofLe (leBytes n x) = x % 256 ^ n := by
  induction n generalizing x with
  | zero => rw [leBytes, ofLe, Nat.pow_zero, Nat.mod_one]
  | succ n ih =>
    have hb : (UInt8.ofNat x).toNat = x % 256 := rfl
    rw [leBytes, ofLe, ih, hb, Nat.pow_succ', Nat.mod_mul]

theorem ofBe_beBytes (n x : Nat) : ofBe (beBytes n x) = x % 256 ^ n := by
  rw [ofBe, beBytes, List.reverse_reverse, ofLe_leBytes]

/-- Two words of one width with the same bytes agree up to that width. -/
theorem leBytes_inj {n x y : Nat} : leBytes n x = leBytes n y ↔ x % 256 ^ n = y % 256 ^ n := by
  constructor
  · intro h
    rw [← ofLe_leBytes, ← ofLe_leBytes, h]
  · induction n generalizing x y with
    | zero => intro _; rfl
    | succ n ih =>
      intro h
      rw [Nat.pow_succ', Nat.mod_mul, Nat.mod_mul] at h
      have hx := Nat.mod_lt x (show 256 > 0 by decide)
      have hy := Nat.mod_lt y (show 256 > 0 by decide)
      have hd : x / 256 % 256 ^ n = y / 256 % 256 ^ n := by omega
      have hm : x % 256 = y % 256 := by omega
      rw [leBytes, leBytes, ih hd]
      congr 1
      exact UInt8.toNat_inj.mp (show x % 256 = y % 256 from hm)

/-- Bytes in memory: no object has more than `isize::MAX` of them. -/
structure MemSlice where
  bytes : List UInt8
  fits : bytes.length < 2 ^ 63

variable {α : Type*}

/-- The `n` elements of `l` from `off` on, as many of them as there are. -/
def slice (l : List α) (off n : Nat) : List α := (l.drop off).take n

/-- `l` with `x` written over it from `off` on. -/
def splice (l : List α) (off : Nat) (x : List α) : List α :=
  l.take off ++ x ++ l.drop (off + x.length)

theorem length_slice {l : List α} {o n : Nat} (h : o + n ≤ l.length) :
    (slice l o n).length = n := by
  rw [slice, List.length_take, List.length_drop]
  omega

theorem length_splice {l x : List α} {o : Nat} (h : o + x.length ≤ l.length) :
    (splice l o x).length = l.length := by
  simp only [splice, List.length_append, List.length_take, List.length_drop]
  omega

theorem getElem?_slice (l : List α) (off n i : Nat) :
    (slice l off n)[i]? = if i < n then l[off + i]? else none := by
  rw [slice, List.getElem?_take]
  split
  · rw [List.getElem?_drop]
  · rfl

theorem getElem?_splice {l x : List α} {off : Nat} (h : off + x.length ≤ l.length) (i : Nat) :
    (splice l off x)[i]? = if off ≤ i ∧ i < off + x.length then x[i - off]? else l[i]? := by
  have ht : (l.take off).length = off := by rw [List.length_take]; omega
  rw [splice, List.append_assoc]
  by_cases h₁ : i < off
  · rw [if_neg (by omega), List.getElem?_append_left (by rw [ht]; exact h₁), List.getElem?_take,
      if_pos h₁]
  by_cases h₂ : i < off + x.length
  · rw [if_pos ⟨by omega, h₂⟩, List.getElem?_append_right (by rw [ht]; omega), ht,
      List.getElem?_append_left (by omega)]
  · rw [if_neg (by omega), List.getElem?_append_right (by rw [ht]; omega), ht,
      List.getElem?_append_right (by omega), List.getElem?_drop]
    congr 1
    omega

theorem take_splice_zero {l x : List α} : (splice l 0 x).take x.length = x := by
  rw [splice, List.take_zero, List.nil_append, List.take_left' rfl]

/-- Two writes, the second right behind the first. -/
theorem splice_splice_append {l x y : List α} {o : Nat} (h : o + x.length + y.length ≤ l.length) :
    splice (splice l o x) (o + x.length) y = splice l o (x ++ y) := by
  refine List.ext_getElem? fun i => ?_
  rw [getElem?_splice (by rw [length_splice (by omega)]; exact h), getElem?_splice (by omega),
    getElem?_splice (by rw [List.length_append]; omega), List.length_append, List.getElem?_append]
  grind

/-- Reading back a part of what was written. -/
theorem slice_splice_within {l x : List α} {off o n : Nat} (h : off + x.length ≤ l.length)
    (h₁ : off ≤ o) (h₂ : o + n ≤ off + x.length) :
    slice (splice l off x) o n = slice x (o - off) n := by
  refine List.ext_getElem? fun i => ?_
  rw [getElem?_slice, getElem?_slice]
  by_cases hi : i < n
  · rw [if_pos hi, if_pos hi, getElem?_splice h, if_pos ⟨by omega, by omega⟩]
    congr 1
    omega
  · rw [if_neg hi, if_neg hi]

@[simp] theorem slice_zero_length (l : List α) : slice l 0 l.length = l := by
  rw [slice, List.drop_zero, List.take_length]

theorem slice_splice_self {l x : List α} {off : Nat} (h : off + x.length ≤ l.length) :
    slice (splice l off x) off x.length = x := by
  rw [slice_splice_within h (Nat.le_refl _) (Nat.le_refl _), Nat.sub_self, slice_zero_length]

/-- A write leaves the ranges before and after it alone. -/
theorem slice_splice_of_disjoint {l x : List α} {off o n : Nat} (h : off + x.length ≤ l.length)
    (hd : o + n ≤ off ∨ off + x.length ≤ o) : slice (splice l off x) o n = slice l o n := by
  refine List.ext_getElem? fun i => ?_
  rw [getElem?_slice, getElem?_slice]
  by_cases hi : i < n
  · rw [if_pos hi, if_pos hi, getElem?_splice h, if_neg (by omega)]
  · rw [if_neg hi, if_neg hi]

theorem slice_append_left {l m : List α} {off n : Nat} (h : off + n ≤ l.length) :
    slice (l ++ m) off n = slice l off n := by
  rw [slice, slice, List.drop_append_of_le_length (by omega), List.take_append_of_le_length]
  rw [List.length_drop]
  omega

theorem slice_append_right {l m : List α} {off n : Nat} (h : l.length ≤ off) :
    slice (l ++ m) off n = slice m (off - l.length) n := by
  rw [slice, slice, List.drop_append, List.drop_of_length_le h, List.nil_append]

theorem slice_middle {front mid back : List α} {off n : Nat} (ho : off = front.length) (hn : n = mid.length) :
    slice (front ++ mid ++ back) off n = mid := by
  subst ho hn
  rw [slice_append_left (by rw [List.length_append]), slice_append_right (Nat.le_refl _), Nat.sub_self,
    slice, List.drop_zero, List.take_length]

/-- A slice in front of the rest. -/
theorem slice_append_drop (l : List α) (off n : Nat) :
    slice l off n ++ l.drop (off + n) = l.drop off := by
  rw [slice, ← List.drop_drop, List.take_append_drop]

theorem drop_slice (l : List α) (off n k : Nat) : (slice l off n).drop k = slice l (off + k) (n - k) := by
  rw [slice, slice, List.drop_take, List.drop_drop]

theorem take_slice (l : List α) (off n k : Nat) : (slice l off n).take k = slice l off (min k n) := by
  rw [slice, slice, List.take_take]

theorem slice_replicate {off n m : Nat} (x : α) (h : off + n ≤ m) :
    slice (List.replicate m x) off n = List.replicate n x := by
  rw [slice, List.drop_replicate, List.take_replicate, Nat.min_eq_left (by omega)]

/-- Consecutive slices make up the range they cover. -/
theorem slice_append_slice (l : List α) (off m n : Nat) :
    slice l off m ++ slice l (off + m) n = slice l off (m + n) := by
  rw [slice, slice, slice, ← List.drop_drop, List.take_add]

/-- `&l[off..off + n]`. -/
def readAt (l : List α) (off n : Nat) : Outcome (List α) :=
  if off + n ≤ l.length then .ok (slice l off n) else .panic

/-- `l[off..off + x.len()].copy_from_slice(x)`. -/
def writeAt (l : List α) (off : Nat) (x : List α) : Outcome (List α) :=
  if off + x.length ≤ l.length then .ok (splice l off x) else .panic

/-- `f` on the slice `l[off..off + n]`. -/
def onSlice (l : List α) (off n : Nat) (f : List α → Outcome (List α)) : Outcome (List α) := do
  let s ← readAt l off n
  let s ← f s
  writeAt l off s

theorem readAt_of_le {l : List α} {off n : Nat} (h : off + n ≤ l.length) :
    readAt l off n = .ok (slice l off n) := if_pos h

theorem readAt_of_lt {l : List α} {off n : Nat} (h : l.length < off + n) :
    readAt l off n = .panic := if_neg (by omega)

theorem writeAt_of_le {l x : List α} {off : Nat} (h : off + x.length ≤ l.length) :
    writeAt l off x = .ok (splice l off x) := if_pos h

/-- A write right after a part `l` of the buffer. -/
theorem writeAt_append {l m x : List α} {off : Nat} (h : off = l.length) (hx : x.length ≤ m.length) :
    writeAt (l ++ m) off x = .ok (l ++ x ++ m.drop x.length) := by
  subst h
  rw [writeAt_of_le (by rw [List.length_append]; omega), splice, List.take_left' rfl,
    List.drop_append, List.drop_of_length_le (Nat.le_add_right _ _), List.nil_append,
    Nat.add_sub_cancel_left]

theorem writeAt_zero {m x : List α} (hx : x.length ≤ m.length) :
    writeAt m 0 x = .ok (x ++ m.drop x.length) :=
  writeAt_append (l := []) rfl hx

/-- A write further on in the rest of the buffer. -/
theorem writeAt_append_gap {l m x : List α} {off : Nat} (h : l.length ≤ off)
    (hx : off - l.length + x.length ≤ m.length) :
    writeAt (l ++ m) off x =
      .ok (l ++ m.take (off - l.length) ++ x ++ m.drop (off - l.length + x.length)) := by
  have hm : l ++ m = l ++ m.take (off - l.length) ++ m.drop (off - l.length) := by
    rw [List.append_assoc, List.take_append_drop]
  rw [hm, writeAt_append, List.drop_drop]
  · rw [List.length_append, List.length_take]
    omega
  · rw [List.length_drop]
    omega

/-- Work on a middle part of the buffer that keeps its length. -/
theorem onSlice_middle {front mid back y : List α} {off n : Nat} {f : List α → Outcome (List α)}
    (ho : off = front.length) (hn : n = mid.length) (hf : f mid = .ok y) (hy : y.length = n) :
    onSlice (front ++ mid ++ back) off n f = .ok (front ++ y ++ back) := by
  subst ho hn
  have hs : slice (front ++ mid ++ back) front.length mid.length = mid := by
    rw [List.append_assoc, slice_append_right (Nat.le_refl _), Nat.sub_self,
      slice_append_left (Nat.le_of_eq (Nat.zero_add _)), slice_zero_length]
  have hm := writeAt_append (l := front) (m := mid ++ back) (x := y) rfl (by simp [hy])
  rw [List.append_assoc] at hs ⊢
  unfold onSlice
  rw [readAt_of_le (by simp), Outcome.ok_bind, hs, hf, Outcome.ok_bind, hm, hy, List.drop_left]

end Moonshine.Framework
