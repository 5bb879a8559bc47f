import Mathlib.Tactic.Ring
import Moonshine.Framework.Outcome

/-!
# Machine integers

Arithmetic that panics where the result does not fit (`checkedAdd`,
`checkedMul`, `checkedI32`) or the divisor is zero (`checkedDiv`), or stops at
the bound (`saturatingAdd`), and `from_str` of the integer types. Unsigned integers of `w` bits are natural
numbers, signed ones integers; the flags of a mask are `UInt32`.
-/

namespace Moonshine.Framework

def checkedAdd (w a b : Nat) : Outcome Nat := if a + b < 2 ^ w then .ok (a + b) else .panic

def checkedMul (w a b : Nat) : Outcome Nat := if a * b < 2 ^ w then .ok (a * b) else .panic

def checkedDiv (a b : Nat) : Outcome Nat := if b = 0 then .panic else .ok (a / b)

def saturatingAdd (w a b : Nat) : Nat := min (a + b) (2 ^ w - 1)

/-- The result of an operation on `i32`. -/
def checkedI32 (n : Int) : Outcome Int := if -2 ^ 31 ≤ n ∧ n < 2 ^ 31 then .ok n else .panic

theorem checkedAdd_of_lt {w a b : Nat} (h : a + b < 2 ^ w) : checkedAdd w a b = .ok (a + b) := if_pos h

theorem checkedAdd_of_ge {w a b : Nat} (h : 2 ^ w ≤ a + b) : checkedAdd w a b = .panic :=
  if_neg (Nat.not_lt.mpr h)

theorem checkedAdd_eq_ok {w a b v : Nat} : checkedAdd w a b = .ok v ↔ a + b < 2 ^ w ∧ v = a + b := by
  unfold checkedAdd
  by_cases h : a + b < 2 ^ w
  · rw [if_pos h]
    exact ⟨fun he => ⟨h, (Outcome.ok.inj he).symm⟩, fun he => by rw [he.2]⟩
  · rw [if_neg h]
    exact iff_of_false nofun fun he => h he.1

theorem checkedMul_of_lt {w a b : Nat} (h : a * b < 2 ^ w) : checkedMul w a b = .ok (a * b) := if_pos h

theorem checkedMul_of_ge {w a b : Nat} (h : 2 ^ w ≤ a * b) : checkedMul w a b = .panic :=
  if_neg (Nat.not_lt.mpr h)

theorem checkedDiv_of_ne {a b : Nat} (h : b ≠ 0) : checkedDiv a b = .ok (a / b) := if_neg h

@[simp] theorem checkedDiv_zero (a : Nat) : checkedDiv a 0 = .panic := rfl

theorem checkedI32_of_mem {n : Int} (h : -2 ^ 31 ≤ n ∧ n < 2 ^ 31) : checkedI32 n = .ok n := if_pos h

def digitValue (c : Char) : Option Nat := if '0' ≤ c ∧ c ≤ '9' then some (c.toNat - '0'.toNat) else none

/-- The loop of `from_str`, from the value of the digits before. -/
def parseDigitsFrom : Nat → List Char → Option Nat
  | value, [] => some value
  | value, c :: cs => (digitValue c).bind fun digit => parseDigitsFrom (10 * value + digit) cs

/-- Decimal digits, at least one. -/
def parseDigits (cs : List Char) : Option Nat := if cs = [] then none else parseDigitsFrom 0 cs

/-- `from_str` of the unsigned type of `w` bits. -/
def parseUnsigned (w : Nat) (cs : List Char) : Option Nat :=
  (parseDigits (if cs.head? = some '+' then cs.tail else cs)).filter (· < 2 ^ w)

/-- `from_str` of the signed type of `w + 1` bits. -/
def parseSigned (w : Nat) (cs : List Char) : Option Int :=
  if cs.head? = some '-' then
    ((parseDigits cs.tail).filter (· ≤ 2 ^ w)).map fun n => -(n : Int)
  else (parseUnsigned w cs).map fun n => (n : Int)

section Masks

variable (f m n : UInt32)

theorem or_and_self : (f ||| m) &&& m = m := by
  apply UInt32.eq_of_toBitVec_eq
  ext i hi
  simp only [UInt32.toBitVec_and, UInt32.toBitVec_or, BitVec.getElem_and, BitVec.getElem_or]
  cases f.toBitVec[i] <;> cases m.toBitVec[i] <;> rfl

theorem and_not_and_self : f &&& ~~~m &&& m = 0 := by
  rw [UInt32.and_assoc, UInt32.not_and_self, UInt32.and_zero]

/-- Taking the mask out changes nothing exactly if nothing of it is set. -/
theorem and_not_eq_self_iff : f &&& ~~~m = f ↔ f &&& m = 0 := by
  constructor
  · intro h
    rw [← h]
    exact and_not_and_self f m
  · intro h
    have hparts : (f &&& ~~~m) ||| (f &&& m) = f := by
      apply UInt32.eq_of_toBitVec_eq
      ext i hi
      simp only [UInt32.toBitVec_and, UInt32.toBitVec_or, UInt32.toBitVec_not, BitVec.getElem_and,
        BitVec.getElem_or, BitVec.getElem_not]
      cases f.toBitVec[i] <;> cases m.toBitVec[i] <;> rfl
    rwa [h, UInt32.or_zero] at hparts

theorem or_and_distrib : (f ||| m) &&& n = (f &&& n) ||| (m &&& n) :=
  UInt32.eq_of_toBitVec_eq (by simp [BitVec.and_or_distrib_right])

theorem complement_or : ~~~(m ||| n) = ~~~m &&& ~~~n :=
  UInt32.eq_of_toBitVec_eq (by simp [BitVec.not_or])

theorem or_and_not_or_left : (f ||| m) &&& ~~~(m ||| n) = f &&& ~~~(m ||| n) := by
  rw [or_and_distrib]
  have hnone : m &&& ~~~(m ||| n) = 0 := by
    rw [complement_or, ← UInt32.and_assoc, UInt32.and_not_self, UInt32.zero_and]
  rw [hnone, UInt32.or_zero]

theorem and_not_and_not_or_left : f &&& ~~~m &&& ~~~(m ||| n) = f &&& ~~~(m ||| n) := by
  rw [complement_or, UInt32.and_assoc, ← UInt32.and_assoc (~~~m), UInt32.and_self]

end Masks

end Moonshine.Framework
