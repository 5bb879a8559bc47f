import Mathlib.Data.Finset.Powerset
import Mathlib.Data.Fintype.Basic
import Mathlib.Tactic.FinCases
import Moonshine.Framework.Mds

/-!
# Bytes as a field, and codes over them

Bytes are added by exclusive or and multiplied modulo the polynomial `0x11d`. A product is additive
in its second factor (`mul_xor`), so that a code with two rows of coefficients for its parity is
linear, and what two words of it differ by is a word of it. `Independent.eq_zero` solves for the
lost symbols of such a word, and `code` is the code as one that determines any two lost symbols.
-/

namespace Moonshine.Framework.Galois

/-- The product with the generator, reduced by the polynomial. -/
def double (a : UInt8) : UInt8 := if a < 0x80 then a <<< 1 else (a <<< 1) ^^^ 0x1d

/-- The product: `a` is added wherever `b` has a bit. -/
def mulBits (a b : UInt8) (bits : List Nat) : UInt8 :=
  bits.foldr (fun i acc => if b.toNat.testBit i then double acc ^^^ a else double acc) 0

def mul (a b : UInt8) : UInt8 := mulBits a b (List.range 8)

theorem forall_byte {P : UInt8 → Prop} (h : ∀ n < 256, P (UInt8.ofNat n)) (a : UInt8) : P a := by
  have ha := h a.toNat a.toNat_lt
  rwa [UInt8.ofNat_toNat] at ha

theorem lt_iff_testBit (a : UInt8) : a < 0x80 ↔ a.toNat.testBit 7 = false :=
  forall_byte (P := fun a => a < 0x80 ↔ a.toNat.testBit 7 = false) (by decide +kernel) a

theorem double_eq (a : UInt8) : double a = (a <<< 1) ^^^ (if a.toNat.testBit 7 then 0x1d else 0) := by
  cases h : a.toNat.testBit 7 with
  | false => simp [double, (lt_iff_testBit a).mpr h]
  | true =>
    have hlt : ¬ a < 0x80 := fun hlt => Bool.noConfusion (h.symm.trans ((lt_iff_testBit a).mp hlt))
    simp [double, hlt]

theorem xor_swap (a b c d : UInt8) : (a ^^^ b) ^^^ (c ^^^ d) = (a ^^^ c) ^^^ (b ^^^ d) := by
  rw [UInt8.xor_assoc, ← UInt8.xor_assoc b, UInt8.xor_comm b c, UInt8.xor_assoc c, ← UInt8.xor_assoc a]

theorem double_xor (a b : UInt8) : double (a ^^^ b) = double a ^^^ double b := by
  rw [double_eq, double_eq, double_eq, xor_swap, UInt8.toNat_xor, Nat.testBit_xor, ← UInt8.shiftLeft_xor]
  congr 1
  cases a.toNat.testBit 7 <;> cases b.toNat.testBit 7 <;> simp

theorem mulBits_xor (a b c : UInt8) (bits : List Nat) :
    mulBits a (b ^^^ c) bits = mulBits a b bits ^^^ mulBits a c bits := by
  induction bits with
  | nil => exact UInt8.xor_self.symm
  | cons i bits ih =>
    have hcons (b : UInt8) : mulBits a b (i :: bits) =
        double (mulBits a b bits) ^^^ if b.toNat.testBit i then a else 0 := by
      rw [mulBits, List.foldr_cons]
      split
      · rfl
      · exact UInt8.xor_zero.symm
    rw [hcons, hcons, hcons, ih, double_xor, xor_swap, UInt8.toNat_xor, Nat.testBit_xor]
    congr 1
    cases b.toNat.testBit i <;> cases c.toNat.testBit i <;> simp

theorem mul_xor (a b c : UInt8) : mul a (b ^^^ c) = mul a b ^^^ mul a c := mulBits_xor a b c _

@[simp] theorem mul_zero (a : UInt8) : mul a 0 = 0 := by
  have h := mul_xor a 0 0
  rwa [UInt8.xor_self, UInt8.xor_self] at h

def Additive (f : UInt8 → UInt8) : Prop := ∀ a b, f (a ^^^ b) = f a ^^^ f b

theorem additive_mul (a : UInt8) : Additive (mul a) := mul_xor a

theorem Additive.comp {f g : UInt8 → UInt8} (hf : Additive f) (hg : Additive g) : Additive (fun x => f (g x)) :=
  fun a b => by
    show f (g (a ^^^ b)) = f (g a) ^^^ f (g b)
    rw [hg, hf]

theorem Additive.xor {f g : UInt8 → UInt8} (hf : Additive f) (hg : Additive g) :
    Additive (fun x => f x ^^^ g x) := fun a b => by
  show f (a ^^^ b) ^^^ g (a ^^^ b) = (f a ^^^ g a) ^^^ (f b ^^^ g b)
  rw [hf, hg, xor_swap]

theorem Additive.zero {f : UInt8 → UInt8} (hf : Additive f) : f 0 = 0 := by
  have h := hf 0 0
  rwa [UInt8.xor_self, UInt8.xor_self] at h

def bit (x : UInt8) (k : Nat) : UInt8 := if x.toNat.testBit k then UInt8.ofNat (2 ^ k) else 0

theorem eq_bits (x : UInt8) :
    x = bit x 0 ^^^ (bit x 1 ^^^ (bit x 2 ^^^ (bit x 3 ^^^ (bit x 4 ^^^ (bit x 5 ^^^ (bit x 6 ^^^ bit x 7)))))) :=
  forall_byte (P := fun x => x = bit x 0 ^^^ (bit x 1 ^^^ (bit x 2 ^^^ (bit x 3 ^^^ (bit x 4 ^^^ (bit x 5 ^^^
    (bit x 6 ^^^ bit x 7))))))) (by decide +kernel) x

/-- Two additive functions are the same if they are on the powers of the generator. -/
theorem Additive.ext {f g : UInt8 → UInt8} (hf : Additive f) (hg : Additive g)
    (h : ∀ k < 8, f (UInt8.ofNat (2 ^ k)) = g (UInt8.ofNat (2 ^ k))) (x : UInt8) : f x = g x := by
  have hbit (k : Nat) (hk : k < 8) : f (bit x k) = g (bit x k) := by
    unfold bit
    split
    · exact h k hk
    · rw [hf.zero, hg.zero]
  rw [eq_bits x, hf, hf, hf, hf, hf, hf, hf, hg, hg, hg, hg, hg, hg, hg, hbit 0 (by decide), hbit 1 (by decide),
    hbit 2 (by decide), hbit 3 (by decide), hbit 4 (by decide), hbit 5 (by decide), hbit 6 (by decide),
    hbit 7 (by decide)]

/-- A factor that takes it back makes an additive function one to one. -/
theorem Additive.eq_zero {f : UInt8 → UInt8} (hf : Additive f) (c : UInt8)
    (h : ∀ k < 8, mul c (f (UInt8.ofNat (2 ^ k))) = UInt8.ofNat (2 ^ k)) {x : UInt8} (hx : f x = 0) : x = 0 := by
  have hid := ((additive_mul c).comp hf).ext (g := id) (fun _ _ => rfl) h x
  rw [hx, mul_zero] at hid
  exact hid.symm

def combine (row e : Fin 4 → UInt8) : UInt8 :=
  mul (row 0) (e 0) ^^^ mul (row 1) (e 1) ^^^ mul (row 2) (e 2) ^^^ mul (row 3) (e 3)

theorem combine_xor (row e f : Fin 4 → UInt8) :
    combine row (fun i => e i ^^^ f i) = combine row e ^^^ combine row f := by
  simp only [combine, mul_xor, xor_swap]

theorem combine_single {row e : Fin 4 → UInt8} {i : Fin 4} (h : ∀ k, k ≠ i → e k = 0) :
    combine row e = mul (row i) (e i) := by
  fin_cases i <;> simp [combine, h]

theorem combine_pair {row e : Fin 4 → UInt8} {i j : Fin 4} (hij : i < j) (h : ∀ k, k ≠ i → k ≠ j → e k = 0) :
    combine row e = mul (row i) (e i) ^^^ mul (row j) (e j) := by
  fin_cases i <;> fin_cases j <;> first | exact absurd hij (by decide) | simp [combine, h]

/-- No coefficient is zero, and no minor of two columns. -/
structure Independent (p q : Fin 4 → UInt8) : Prop where
  left : ∀ i x, mul (p i) x = 0 → x = 0
  right : ∀ i x, mul (q i) x = 0 → x = 0
  comm : ∀ i x, mul (q i) (mul (p i) x) = mul (p i) (mul (q i) x)
  minor : ∀ i j, i < j → ∀ x, mul (q j) (mul (p i) x) ^^^ mul (p j) (mul (q i) x) = 0 → x = 0

variable {p q : Fin 4 → UInt8}

/-- Two lost symbols are determined by the two parities: the second is eliminated. -/
theorem Independent.pair (h : Independent p q) {i j : Fin 4} (hij : i < j) {x y : UInt8}
    (hp : mul (p i) x ^^^ mul (p j) y = 0) (hq : mul (q i) x ^^^ mul (q j) y = 0) : x = 0 ∧ y = 0 := by
  have hx : x = 0 := by
    refine h.minor i j hij x ?_
    have hp' := congrArg (mul (q j)) hp
    have hq' := congrArg (mul (p j)) hq
    rw [mul_xor, mul_zero, UInt8.xor_eq_zero_iff] at hp' hq'
    rw [hp', hq', h.comm, UInt8.xor_self]
  subst hx
  rw [mul_zero, UInt8.zero_xor] at hp
  exact ⟨rfl, h.left j y hp⟩

/-- Of the six symbols, four that are known leave at most two unknown. -/
theorem known_symbols : ∀ I ∈ Finset.powersetCard 4 (Finset.range 6), (∀ k : Fin 4, k.val ∈ I) ∨
    (∃ i : Fin 4, (∀ k, k ≠ i → k.val ∈ I) ∧ (4 ∈ I ∨ 5 ∈ I)) ∨
    ∃ i j : Fin 4, i < j ∧ (∀ k, k ≠ i → k ≠ j → k.val ∈ I) ∧ 4 ∈ I ∧ 5 ∈ I := by
  decide +kernel

theorem Independent.eq_zero (h : Independent p q) {e : Fin 4 → UInt8} {I : Finset Nat}
    (hI : I ⊆ Finset.range 6) (hcard : I.card = 4) (hdata : ∀ k : Fin 4, k.val ∈ I → e k = 0)
    (hp : 4 ∈ I → combine p e = 0) (hq : 5 ∈ I → combine q e = 0) (k : Fin 4) : e k = 0 := by
  rcases known_symbols I (Finset.mem_powersetCard.mpr ⟨hI, hcard⟩) with hall | ⟨i, hmost, hparity⟩ |
    ⟨i, j, hij, hmost, h4, h5⟩
  · exact hdata k (hall k)
  · have hzero : ∀ k, k ≠ i → e k = 0 := fun k hk => hdata k (hmost k hk)
    by_cases hk : k = i
    · subst hk
      rcases hparity with h4 | h5
      · exact h.left k _ ((combine_single hzero).symm.trans (hp h4))
      · exact h.right k _ ((combine_single hzero).symm.trans (hq h5))
    · exact hzero k hk
  · have hzero : ∀ k, k ≠ i → k ≠ j → e k = 0 := fun k hi hj => hdata k (hmost k hi hj)
    obtain ⟨hi, hj⟩ := h.pair hij ((combine_pair hij hzero).symm.trans (hp h4))
      ((combine_pair hij hzero).symm.trans (hq h5))
    by_cases hki : k = i
    · exact hki ▸ hi
    · by_cases hkj : k = j
      · exact hkj ▸ hj
      · exact hzero k hki hkj

/-- The symbols of a list. -/
def symbols (u : List UInt8) (i : Fin 4) : UInt8 := u.getD i.val 0

/-- The code with these two rows of parity. -/
def code (p q : Fin 4 → UInt8) (h : Independent p q) : MdsCode UInt8 4 2 where
  parity u := [combine p (symbols u), combine q (symbols u)]
  length_parity _ _ := rfl
  determined := by
    intro u v hu hv I hI hcard hsame
    have hdata (k : Fin 4) (hk : k.val ∈ I) : symbols u k = symbols v k := by
      have hk4 := k.isLt
      have hget := hsame k.val hk
      rw [List.getElem?_append_left (by omega), List.getElem?_append_left (by omega)] at hget
      rw [symbols, symbols, List.getD_eq_getElem?_getD, List.getD_eq_getElem?_getD, hget]
    have hp (h4 : 4 ∈ I) : combine p (symbols u) = combine p (symbols v) := by
      have hget := hsame 4 h4
      rw [List.getElem?_append_right (by omega), List.getElem?_append_right (by omega), hu, hv] at hget
      exact Option.some.inj hget
    have hq (h5 : 5 ∈ I) : combine q (symbols u) = combine q (symbols v) := by
      have hget := hsame 5 h5
      rw [List.getElem?_append_right (by omega), List.getElem?_append_right (by omega), hu, hv] at hget
      exact Option.some.inj hget
    have hzero := h.eq_zero (e := fun i => symbols u i ^^^ symbols v i) hI hcard
      (fun k hk => UInt8.xor_eq_zero_iff.mpr (hdata k hk))
      (fun h4 => by rw [combine_xor, hp h4, UInt8.xor_self]) (fun h5 => by rw [combine_xor, hq h5, UInt8.xor_self])
    refine List.ext_getElem (hu.trans hv.symm) fun k hku hkv => ?_
    have hk := UInt8.xor_eq_zero_iff.mp (hzero ⟨k, by omega⟩)
    simpa [symbols, List.getD_eq_getElem?_getD, hku, hkv] using hk

end Moonshine.Framework.Galois
