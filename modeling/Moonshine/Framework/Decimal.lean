import Moonshine.Framework.Integers

/-!
# Decimal numbers

`decimal` writes an integer the way `Display` of the integer types does, and
`from_str` of a type that holds the integer reads it back (`parseUnsigned_decimal`,
`parseSigned_decimal`).
-/

namespace Moonshine.Framework

def decimal (n : Int) : List Char := if n < 0 then '-' :: Nat.toDigits 10 n.natAbs else Nat.toDigits 10 n.natAbs

theorem digitValue_of_isDigit {c : Char} (h : c.isDigit = true) : digitValue c = some (c.toNat - '0'.toNat) := by
  refine if_pos ?_
  simpa [Char.isDigit, Char.le_def] using h

theorem parseDigitsFrom_of_isDigit {cs : List Char} (h : ∀ c ∈ cs, c.isDigit = true) (value : Nat) :
    parseDigitsFrom value cs = some (Nat.ofDigitChars 10 cs value) := by
  induction cs generalizing value with
  | nil => rw [parseDigitsFrom, Nat.ofDigitChars_nil]
  | cons c cs ih =>
    rw [parseDigitsFrom, digitValue_of_isDigit (h c List.mem_cons_self), Option.bind_some,
      ih (fun d hd => h d (List.mem_cons_of_mem c hd)), Nat.ofDigitChars_cons]

theorem isDigit_toDigits {c : Char} {n : Nat} (h : c ∈ Nat.toDigits 10 n) : c.isDigit = true :=
  Nat.isDigit_of_mem_toDigits (by decide) (by decide) h

theorem parseDigits_toDigits (n : Nat) : parseDigits (Nat.toDigits 10 n) = some n := by
  rw [parseDigits, if_neg Nat.toDigits_ne_nil, parseDigitsFrom_of_isDigit (fun c => isDigit_toDigits),
    Nat.ofDigitChars_toDigits (by decide) (by decide)]

/-- Digits do not begin with a sign. -/
theorem head_toDigits {c : Char} (h : c.isDigit = false) (n : Nat) : (Nat.toDigits 10 n).head? ≠ some c := by
  intro hhead
  have hdigit := isDigit_toDigits (List.mem_of_head? hhead)
  rw [h] at hdigit
  cases hdigit

theorem parseUnsigned_toDigits {w n : Nat} (h : n < 2 ^ w) : parseUnsigned w (Nat.toDigits 10 n) = some n := by
  rw [parseUnsigned, if_neg (head_toDigits (by decide) n), parseDigits_toDigits]
  exact Option.filter_eq_some_iff.mpr ⟨rfl, decide_eq_true h⟩

theorem parseSigned_neg {w n : Nat} (h : n ≤ 2 ^ w) :
    parseSigned w ('-' :: Nat.toDigits 10 n) = some (-(n : Int)) := by
  have hfilter : (some n).filter (· ≤ 2 ^ w) = some n :=
    Option.filter_eq_some_iff.mpr ⟨rfl, decide_eq_true h⟩
  have hhead : ('-' :: Nat.toDigits 10 n).head? = some '-' := rfl
  rw [parseSigned, if_pos hhead, List.tail_cons, parseDigits_toDigits, hfilter]
  rfl

theorem parseSigned_nonneg {w n : Nat} (h : n < 2 ^ w) : parseSigned w (Nat.toDigits 10 n) = some (n : Int) := by
  rw [parseSigned, if_neg (head_toDigits (by decide) n), parseUnsigned_toDigits h]
  rfl

theorem parseSigned_decimal {w : Nat} {n : Int} (hmin : -2 ^ w ≤ n) (hmax : n < 2 ^ w) :
    parseSigned w (decimal n) = some n := by
  have hcast : ((2 ^ w : Nat) : Int) = 2 ^ w := by push_cast; rfl
  by_cases hneg : n < 0
  · rw [decimal, if_pos hneg, parseSigned_neg (by omega), Int.ofNat_natAbs_of_nonpos hneg.le, neg_neg]
  · rw [decimal, if_neg hneg, parseSigned_nonneg (by omega), Int.natAbs_of_nonneg (not_lt.mp hneg)]

/-- The characters of a number. -/
theorem mem_decimal {c : Char} {n : Int} (h : c ∈ decimal n) : c = '-' ∨ c.isDigit = true := by
  unfold decimal at h
  split at h
  · exact (List.mem_cons.mp h).imp_right isDigit_toDigits
  · exact .inr (isDigit_toDigits h)

end Moonshine.Framework
