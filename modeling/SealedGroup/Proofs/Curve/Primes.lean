import Mathlib.Data.List.Prime
import Mathlib.NumberTheory.LucasPrimality
import Mathlib.Tactic.NormNum.Prime
import SealedGroup.Curve.Scalar

/-!
# The two primes of the curve

The order of the base field and the order of the group are primes. Everything else about the
curve rests on these two facts: without the first there are no inverses, and without the second
a secret could annihilate a point.

For numbers of this size that is Lucas's test: `p` is prime if some residue has the order `p -
1`, which is seen from its powers once the prime factors of `p - 1` are known. Those are tested
in the same way, down to numbers small enough for trial division. A `LucasData` holds what the
test needs of one number, and a list of them is tested from its front, so that each may count
the ones before it among the known primes (`LucasData.prime_of_passAll`). The list itself,
`LucasData.chain`, is data: nobody has to believe it, since a wrong residue or a missing factor
fails the test, and the test is what the kernel evaluates. There is one such evaluation, and it
is the most expensive step of the development.

The powers are computed by repeated squaring, which is what the program does as well, twice: for
powers of coordinates and for multiples of points. `foldl_bits` says what every such computation
gives, over whatever values and with whatever meaning. It takes a relation between values and
numbers, asks of a step that it doubles the number and adds the bit, and concludes that the
result stands for the number whose bits were run over.
-/

namespace SealedGroup

/-! ## Repeated squaring -/

/-- A run over the low bits of `n` prepends what it was started with: if each
step doubles the number that a value stands for and adds the bit, then the result
stands for the number that the bits spell. -/
theorem foldl_testBit {α : Type} {R : α → ℕ → Prop} {step : α → Bool → α}
    (hstep : ∀ a k bit, R a k → R (step a bit) (2 * k + bit.toNat)) (n width : ℕ) {a : α} {k : ℕ}
    (h : R a k) :
    R (((List.range width).reverse.map n.testBit).foldl step a)
      (k * 2 ^ width + n % 2 ^ width) := by
  induction width generalizing a k with
  | zero => simpa [Nat.mod_one] using h
  | succ width ih =>
    rw [List.range_succ, List.reverse_append, List.reverse_singleton, List.singleton_append,
      List.map_cons, List.foldl_cons]
    have hnext := ih (hstep a k (n.testBit width) h)
    have hvalue : (2 * k + (n.testBit width).toNat) * 2 ^ width + n % 2 ^ width =
        k * 2 ^ (width + 1) + n % 2 ^ (width + 1) := by
      rw [Nat.mod_pow_succ, ← Nat.toNat_testBit, pow_succ]
      ring
    rwa [hvalue] at hnext

/-- **Repeated squaring** gives what stands for the number whose bits it ran
over, if it starts with what stands for zero. -/
theorem foldl_bits {α : Type} {R : α → ℕ → Prop} {step : α → Bool → α}
    (hstep : ∀ a k bit, R a k → R (step a bit) (2 * k + bit.toNat)) {a : α} (h : R a 0) {n : ℕ}
    (hn : n < 2 ^ 256) : R ((bits n).foldl step a) n := by
  have hfold := foldl_testBit hstep n 256 h
  rwa [Nat.zero_mul, Nat.zero_add, Nat.mod_eq_of_lt hn] at hfold

/-- The power of a residue, for exponents below `2 ^ 256`. -/
def powMod (modulus base exponent : ℕ) : ℕ :=
  (bits exponent).foldl (fun acc bit =>
    if bit then acc * acc % modulus * base % modulus else acc * acc % modulus) 1

theorem powMod_eq (modulus base : ℕ) {exponent : ℕ} (h : exponent < 2 ^ 256) :
    (powMod modulus base exponent : ZMod modulus) = (base : ZMod modulus) ^ exponent := by
  have hstep : ∀ (acc k : ℕ) (bit : Bool), (acc : ZMod modulus) = (base : ZMod modulus) ^ k →
      ((if bit then acc * acc % modulus * base % modulus else acc * acc % modulus : ℕ) :
        ZMod modulus) = (base : ZMod modulus) ^ (2 * k + bit.toNat) := by
    intro acc k bit hacc
    cases bit
    · simp [hacc, ← pow_add, two_mul]
    · simp [hacc, ← pow_add, two_mul, pow_succ]
  exact foldl_bits (R := fun (acc : ℕ) k => (acc : ZMod modulus) = (base : ZMod modulus) ^ k)
    hstep (by simp) h

/-! ## Lucas's test -/

/-- **What Lucas's test needs** to know of a number: a residue of full order, and
the factors of the number less one, each as often as it divides. -/
structure LucasData where
  number : ℕ
  base : ℕ
  factors : List ℕ

namespace LucasData

/-- The number passes the test, given numbers that are known to be prime. -/
def passes (known : List ℕ) (d : LucasData) : Bool :=
  decide (1 < d.number ∧ d.number < 2 ^ 256) && d.factors.prod == d.number - 1 &&
    d.factors.all (fun q => known.contains q) &&
    powMod d.number d.base (d.number - 1) % d.number == 1 &&
    d.factors.all fun q => powMod d.number d.base ((d.number - 1) / q) % d.number != 1

/-- The power of the residue is one exactly if the computed one leaves one. -/
theorem pow_eq_one_iff {d : LucasData} (hone : 1 < d.number) {exponent : ℕ}
    (h : exponent < 2 ^ 256) :
    (d.base : ZMod d.number) ^ exponent = 1 ↔ powMod d.number d.base exponent % d.number = 1 := by
  rw [← powMod_eq d.number d.base h, ← Nat.cast_one, ZMod.natCast_eq_natCast_iff',
    Nat.mod_eq_of_lt hone]

/-- **A number that passes is prime.** -/
theorem prime_of_passes {known : List ℕ} (hknown : ∀ q ∈ known, q.Prime) {d : LucasData}
    (h : d.passes known = true) : d.number.Prime := by
  simp only [passes, Bool.and_eq_true, decide_eq_true_eq, beq_iff_eq, List.all_eq_true,
    List.contains_iff_mem, bne_iff_ne, ne_eq] at h
  obtain ⟨⟨⟨⟨⟨hone, hlt⟩, hprod⟩, hfactors⟩, hfull⟩, hproper⟩ := h
  have hbound : ∀ n, n ≤ d.number - 1 → n < 2 ^ 256 := fun n hn => by omega
  refine lucas_primality d.number d.base ((pow_eq_one_iff hone (hbound _ le_rfl)).mpr hfull) ?_
  intro q hq hdvd
  rw [← hprod, hq.prime.dvd_prod_iff] at hdvd
  obtain ⟨factor, hmem, hdvd⟩ := hdvd
  -- a prime that divides a prime factor is that factor
  obtain rfl := (Nat.prime_dvd_prime_iff_eq hq (hknown factor (hfactors factor hmem))).mp hdvd
  rw [ne_eq, pow_eq_one_iff hone (hbound _ (Nat.div_le_self _ _))]
  exact hproper q hmem

/-- The numbers pass the test one after the other, each given those before. -/
def passAll (known : List ℕ) : List LucasData → Bool
  | [] => true
  | d :: rest => d.passes known && passAll (d.number :: known) rest

/-- **All numbers of a list that passes are prime.** -/
theorem prime_of_passAll {known : List ℕ} (hknown : ∀ q ∈ known, q.Prime) {ds : List LucasData}
    (h : passAll known ds = true) : ∀ d ∈ ds, d.number.Prime := by
  induction ds generalizing known with
  | nil => exact fun d hd => absurd hd List.not_mem_nil
  | cons d rest ih =>
    rw [passAll, Bool.and_eq_true] at h
    have hprime := prime_of_passes hknown h.1
    exact List.forall_mem_cons.mpr
      ⟨hprime, ih (List.forall_mem_cons.mpr ⟨hprime, hknown⟩) h.2⟩

/-! ## The primes below the two orders -/

/-- The factors that are small enough for trial division. -/
def small : List ℕ :=
  [2, 3, 5, 7, 11, 17, 29, 31, 41, 53, 59, 97, 109, 149, 293, 461, 631, 797, 971, 1373, 1627,
    1871, 2011, 2621, 2657, 4051, 4423, 5323, 7723, 9349, 13441, 16699, 20113, 24809, 28181,
    41201, 85831, 96557, 120233, 305873]

theorem prime_of_mem_small : ∀ q ∈ small, q.Prime := by
  unfold small
  norm_num

/-- The other factors, smaller ones first, and at the end the two orders. -/
def chain : List LucasData :=
  [⟨1206781, 10, [2, 2, 3, 5, 20113]⟩,
    ⟨1627771, 3, [2, 3, 5, 29, 1871]⟩,
    ⟨4681609, 23, [2, 2, 2, 3, 97, 2011]⟩,
    ⟨7240687, 3, [2, 3, 1206781]⟩,
    ⟨13331831, 13, [2, 5, 971, 1373]⟩,
    ⟨44706919, 6, [2, 3, 797, 9349]⟩,
    ⟨107590001, 3, [2, 2, 2, 2, 5, 5, 5, 5, 7, 29, 53]⟩,
    ⟨545358713, 5, [2, 2, 2, 41, 59, 28181]⟩,
    ⟨297159362677, 2, [2, 2, 3, 3, 11, 461, 1627771]⟩,
    ⟨107361793816595537, 3, [2, 2, 2, 2, 16699, 85831, 4681609]⟩,
    ⟨173378833005251801, 6, [2, 2, 2, 5, 5, 2621, 24809, 13331831]⟩,
    ⟨174723607534414371449, 3, [2, 2, 2, 17, 59, 4051, 120233, 44706919]⟩,
    ⟨22149492674086928081353, 5, [2, 2, 2, 3, 5323, 173378833005251801]⟩,
    ⟨132896956044521568488119, 6, [2, 3, 22149492674086928081353]⟩,
    ⟨29047611873442575647497758179, 2, [2, 293, 305873, 545358713, 297159362677]⟩,
    ⟨341948486974166000522343609283189, 2, [2, 2, 3, 3, 3, 109, 29047611873442575647497758179]⟩,
    ⟨255515944373312847190720520512484175977, 3,
      [2, 2, 2, 7, 7, 11, 1627, 2657, 4423, 41201, 96557, 7240687, 107590001]⟩,
    ⟨205115282021455665897114700593932402728804164701536103180137503955397371, 10,
      [2, 3, 5, 29, 29, 31, 7723, 132896956044521568488119,
        255515944373312847190720520512484175977]⟩,
    ⟨groupOrder, 7, [2, 2, 2, 2, 2, 2, 3, 149, 631, 107361793816595537, 174723607534414371449,
      341948486974166000522343609283189]⟩,
    ⟨fieldOrder, 3, [2, 3, 7, 13441,
      205115282021455665897114700593932402728804164701536103180137503955397371]⟩]

theorem prime_of_mem_chain {n : ℕ} (h : n ∈ chain.map number) : n.Prime := by
  obtain ⟨d, hd, rfl⟩ := List.mem_map.mp h
  have hpass : passAll small chain = true := by decide +kernel
  exact prime_of_passAll prime_of_mem_small hpass d hd

end LucasData

/-- **The order of the base field is a prime.** -/
theorem prime_fieldOrder : fieldOrder.Prime :=
  LucasData.prime_of_mem_chain (by decide +kernel)

/-- **The order of the group is a prime.** -/
theorem prime_groupOrder : groupOrder.Prime :=
  LucasData.prime_of_mem_chain (by decide +kernel)

end SealedGroup
