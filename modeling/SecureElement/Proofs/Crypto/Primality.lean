import Mathlib.Data.List.Prime
import Mathlib.Data.Nat.Prime.Basic
import Mathlib.FieldTheory.Finite.Basic
import Mathlib.Tactic.NormNum.Prime
import SecureElement.Crypto.P256

/-!
The two numbers of P-256 are prime: the number of elements of its field, and the number of its points.

A number is prime if a large part of its predecessor is a product of primes, and powers of two modulo the number
are as they must be then (`Shown.prime`, which is the criterion of Pocklington). So primes are shown one after the
other, from small ones on.
-/

namespace SecureElement.Crypto

namespace Modular

/-! ### Powers modulo a number -/

/-- The power of a number modulo another, for exponents of at most `bits` binary digits. -/
def power (m : Nat) : (bits x n : Nat) → Nat
  | 0, _, _ => 1 % m
  | bits + 1, x, n =>
      let half := power m bits (x * x % m) (n / 2)
      if n % 2 = 1 then x * half % m else half

theorem cast_mod {r m : Nat} (divides : r ∣ m) (x : Nat) : ((x % m : Nat) : ZMod r) = x :=
  (ZMod.natCast_eq_natCast_iff' _ _ _).2 (Nat.mod_mod_of_dvd x divides)

/-- What is computed is the power modulo any divisor of the number. -/
theorem cast_power {r m : Nat} (divides : r ∣ m) {bits x n : Nat} (small : n < 2 ^ bits) :
    (power m bits x n : ZMod r) = (x : ZMod r) ^ n := by
  induction bits generalizing x n with
  | zero =>
      obtain rfl : n = 0 := by simpa using small
      rw [power, cast_mod divides, Nat.cast_one, pow_zero]
  | succ bits ih =>
      have half : n / 2 < 2 ^ bits := by
        rw [Nat.pow_succ] at small
        omega
      have square : ((x * x % m : Nat) : ZMod r) ^ (n / 2) = (x : ZMod r) ^ (2 * (n / 2)) := by
        rw [cast_mod divides, Nat.cast_mul, ← pow_two, ← pow_mul]
      have whole := Nat.div_add_mod n 2
      simp only [power]
      split
      case isTrue odd =>
        rw [cast_mod divides, Nat.cast_mul, ih half, square, ← pow_succ', ← odd, whole]
      case isFalse even =>
        rw [ih half, square]
        congr 1
        omega

/-! ### Primes -/

/-- A number of about 256 binary digits at most is shown to be prime by some prime factors of its predecessor: their
product exceeds its square root; the power of two to its predecessor is one; and the powers to the predecessor
divided by one of the factors differ from one modulo every divisor of the number. -/
structure Shown (n : Nat) (factors : List Nat) : Prop where
  one_lt : 1 < n
  small : n ≤ 2 ^ 256
  large : n < factors.prod * factors.prod
  divides : factors.prod ∣ n - 1
  power_eq : power n 256 2 (n - 1) = 1
  coprime : ∀ q ∈ factors, Nat.gcd (power n 256 2 ((n - 1) / q) + (n - 1)) n = 1

instance (n : Nat) (factors : List Nat) : Decidable (Shown n factors) :=
  decidable_of_iff (1 < n ∧ n ≤ 2 ^ 256 ∧ n < factors.prod * factors.prod ∧ factors.prod ∣ n - 1 ∧
      power n 256 2 (n - 1) = 1 ∧
        ∀ q ∈ factors, Nat.gcd (power n 256 2 ((n - 1) / q) + (n - 1)) n = 1)
    ⟨fun ⟨a, b, c, d, e, f⟩ => ⟨a, b, c, d, e, f⟩, fun ⟨a, b, c, d, e, f⟩ => ⟨a, b, c, d, e, f⟩⟩

section

variable {n : Nat} {factors : List Nat}

/-- Powers of two modulo the least prime factor of a number that is shown to be prime: the one to the predecessor is
one, and those to the predecessor divided by a factor are not. -/
theorem Shown.powers (shown : Shown n factors) :
    (2 : ZMod n.minFac) ^ (n - 1) = 1 ∧ ∀ q ∈ factors, (2 : ZMod n.minFac) ^ ((n - 1) / q) ≠ 1 := by
  obtain ⟨one_lt, small, -, -, power_eq, coprime⟩ := shown
  have powers : ∀ k ≤ n - 1, (power n 256 2 k : ZMod n.minFac) = 2 ^ k := fun k le => by
    rw [cast_power (Nat.minFac_dvd n) (by omega), Nat.cast_ofNat]
  constructor
  · rw [← powers _ (Nat.le_refl _), power_eq, Nat.cast_one]
  · intro q member one
    have zero : ((power n 256 2 ((n - 1) / q) + (n - 1) : Nat) : ZMod n.minFac) = 0 := by
      rw [Nat.cast_add, powers _ (Nat.div_le_self _ _), one, ← Nat.cast_one, ← Nat.cast_add,
        Nat.add_sub_cancel' (Nat.le_of_lt one_lt), ZMod.natCast_eq_zero_iff]
      exact Nat.minFac_dvd n
    have common := Nat.dvd_gcd ((ZMod.natCast_eq_zero_iff _ _).1 zero) (Nat.minFac_dvd n)
    rw [coprime q member, Nat.dvd_one] at common
    exact (Nat.minFac_prime (Nat.ne_of_gt one_lt)).ne_one common

/-- The least prime factor of a number that is shown to be prime by primes exceeds their product: in its field a power
of two has the product as its order. -/
theorem Shown.prod_lt_minFac (shown : Shown n factors) (primes : ∀ q ∈ factors, q.Prime) :
    factors.prod < n.minFac := by
  obtain ⟨whole, part⟩ := shown.powers
  obtain ⟨one_lt, -, large, divides, -, -⟩ := shown
  have : Fact n.minFac.Prime := ⟨Nat.minFac_prime (Nat.ne_of_gt one_lt)⟩
  have positive : 0 < factors.prod := Nat.pos_of_ne_zero fun zero => by simp [zero] at large
  obtain ⟨k, cut⟩ := divides
  have order : orderOf ((2 : ZMod n.minFac) ^ k) = factors.prod := by
    refine orderOf_eq_of_pow_and_pow_div_prime positive ?_ fun q prime divides => ?_
    · rw [← pow_mul, Nat.mul_comm, ← cut, whole]
    · have exponent : k * (factors.prod / q) = (n - 1) / q := by
        rw [cut, Nat.mul_comm factors.prod, Nat.mul_div_assoc _ divides]
      have member : q ∈ factors :=
        mem_list_primes_of_dvd_prod prime.prime (fun p member => (primes p member).prime) divides
      rw [← pow_mul, exponent]
      exact part q member
  have unit : (2 : ZMod n.minFac) ^ k ≠ 0 := by
    intro zero
    have one := pow_orderOf_eq_one ((2 : ZMod n.minFac) ^ k)
    rw [order, zero, zero_pow (Nat.ne_of_gt positive)] at one
    exact zero_ne_one one
  have one_lt_minFac : 1 < n.minFac := (Fact.out : n.minFac.Prime).one_lt
  have le : factors.prod ≤ n.minFac - 1 := by
    rw [← order]
    exact Nat.le_of_dvd (Nat.sub_pos_of_lt one_lt_minFac) (ZMod.orderOf_dvd_card_sub_one unit)
  omega

/-- What is shown to be prime by primes is prime. -/
theorem Shown.prime (shown : Shown n factors) (primes : ∀ q ∈ factors, q.Prime) : n.Prime := by
  by_contra composite
  have one_lt := shown.one_lt
  have lt := shown.prod_lt_minFac primes
  refine Nat.lt_irrefl n ?_
  calc n < factors.prod * factors.prod := shown.large
    _ ≤ n.minFac * n.minFac := Nat.mul_le_mul (Nat.le_of_lt lt) (Nat.le_of_lt lt)
    _ = n.minFac ^ 2 := (pow_two _).symm
    _ ≤ n := Nat.minFac_sq_le_self (by omega) composite

end

end Modular

namespace P256

/-- The number of elements of the field is prime. -/
theorem prime_prime : Nat.Prime prime := by
  have first : Nat.Prime 46076956964474543 :=
    (by decide +kernel : Modular.Shown 46076956964474543 [18169, 78283]).prime (by norm_num)
  have second : Nat.Prime 66417393611 :=
    (by decide +kernel : Modular.Shown 66417393611 [53, 173, 197]).prime (by norm_num)
  have third : Nat.Prime 11290956913871 :=
    (by decide +kernel : Modular.Shown 11290956913871 [66417393611]).prime (by simpa using second)
  have fourth : Nat.Prime 774023187263532362759620327192479577272145303 :=
    (by decide +kernel : Modular.Shown 774023187263532362759620327192479577272145303
      [46076956964474543, 11290956913871]).prime (by simpa using ⟨first, third⟩)
  have fifth : Nat.Prime 835945042244614951780389953367877943453916927241 :=
    (by decide +kernel : Modular.Shown 835945042244614951780389953367877943453916927241
      [774023187263532362759620327192479577272145303]).prime (by simpa using fourth)
  exact (by decide +kernel : Modular.Shown prime [835945042244614951780389953367877943453916927241]).prime
    (by simpa using fifth)

/-- The number of points of the curve is prime. -/
theorem prime_order : Nat.Prime order := by
  have first : Nat.Prime 191039911 :=
    (by decide +kernel : Modular.Shown 191039911 [155317]).prime (by norm_num)
  have second : Nat.Prime 208150935158385979 :=
    (by decide +kernel : Modular.Shown 208150935158385979 [191039911, 3023]).prime
      (by simpa using ⟨first, by norm_num⟩)
  have third : Nat.Prime 2624747550333869278416773953 :=
    (by decide +kernel : Modular.Shown 2624747550333869278416773953 [208150935158385979]).prime
      (by simpa using second)
  have fourth : Nat.Prime 3969899 :=
    (by decide +kernel : Modular.Shown 3969899 [104471]).prime (by norm_num)
  have fifth : Nat.Prime 1002328039319 :=
    (by decide +kernel : Modular.Shown 1002328039319 [3969899]).prime (by simpa using fourth)
  exact (by decide +kernel : Modular.Shown order [2624747550333869278416773953, 1002328039319]).prime
    (by simpa using ⟨third, fifth⟩)

end P256

end SecureElement.Crypto
