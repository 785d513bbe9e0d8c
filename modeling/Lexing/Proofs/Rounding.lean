import Lexing.Binary64
import Mathlib.Algebra.Group.Nat.Even
import Mathlib.Algebra.Order.Field.Basic
import Mathlib.Data.Rat.Cast.Order
import Mathlib.Tactic.FieldSimp
import Mathlib.Tactic.Linarith
import Mathlib.Tactic.Positivity
import Mathlib.Tactic.Ring

/-! Rounding. A quotient becomes the number nearest to it, of two equally near the one with the even
significand, and infinity from halfway beyond the largest on. The bits of a number are an exponent and a
significand, which count its units of 2^-1074. Seen from the numbers around a quotient, any other number is
on their grid or lies below all of them. -/
namespace Lexing.Binary64

def significand (bits : Nat) : Nat := if bits < 2 ^ 52 then bits else 2 ^ 52 + bits % 2 ^ 52

/-- What some bits count in units of 2^-1074. -/
def units (bits : Nat) : Nat := significand bits * 2 ^ (bits / 2 ^ 52 - 1)

def IsFinite (x : Binary64) : Prop := x.bits.toNat < infinity.bits.toNat

def value (x : Binary64) : ℚ := units x.bits.toNat / 2 ^ 1074

/-- A number is the nearest to `q`, a tie being settled by the significands. It is zero up to half the
least number, and infinity from halfway beyond the largest on. -/
structure Nearest (q : ℚ) (x : Binary64) : Prop where
  proper : x.IsFinite ∨ x = infinity
  nearest : x.IsFinite → ∀ y : Binary64, y.IsFinite → |q - x.value| ≤ |q - y.value|
  even : x.IsFinite → ∀ y : Binary64, y.IsFinite → y.value ≠ x.value →
    |q - x.value| = |q - y.value| → Even (significand x.bits.toNat)
  infinite : x = infinity ↔ 2 ^ 1024 - 2 ^ 970 ≤ q
  zero : x = ⟨0⟩ ↔ q ≤ 1 / 2 ^ 1075

/-! The nearest natural number. -/

theorem cast_div_eq (n : Nat) {d : Nat} (pos : 0 < d) :
    (n : ℚ) / d = (n / d : Nat) + (n % d : Nat) / (d : ℚ) := by
  have whole : (n : ℚ) = d * (n / d : Nat) + (n % d : Nat) := by
    exact_mod_cast (Nat.div_add_mod n d).symm
  have nonzero : (d : ℚ) ≠ 0 := by positivity
  rw [whole]
  field_simp

theorem divNearest_cases (n : Nat) {d : Nat} (pos : 0 < d) :
    let part : ℚ := (n % d : Nat) / d
    (divNearest n d = n / d ∧ part ≤ 1 / 2 ∧ (part = 1 / 2 → Even (n / d))) ∨
    (divNearest n d = n / d + 1 ∧ 1 / 2 ≤ part ∧ (part = 1 / 2 → Even (n / d + 1))) := by
  intro part
  have positive : (0 : ℚ) < d := by exact_mod_cast pos
  have low : part ≤ 1 / 2 ↔ (n % d) * 2 ≤ d := by
    rw [div_le_div_iff₀ positive two_pos, one_mul]
    exact_mod_cast Iff.rfl
  have high : 1 / 2 ≤ part ↔ d ≤ (n % d) * 2 := by
    rw [div_le_div_iff₀ two_pos positive, one_mul]
    exact_mod_cast Iff.rfl
  unfold divNearest
  split
  · rename_i down
    refine .inl ⟨rfl, low.mpr (by omega), fun tie => ?_⟩
    have half := high.mp tie.ge
    exact Nat.even_iff.mpr (by omega)
  · rename_i up
    refine .inr ⟨rfl, high.mpr (by omega), fun tie => ?_⟩
    have half := low.mp tie.le
    exact Nat.even_iff.mpr (by omega)

theorem halves_divNearest (n : Nat) {d : Nat} (pos : 0 < d) :
    |(n : ℚ) / d - divNearest n d| ≤ 1 / 2 ∧
      (|(n : ℚ) / d - divNearest n d| = 1 / 2 → Even (divNearest n d)) := by
  have none_below : (0 : ℚ) ≤ (n % d : Nat) / d := by positivity
  have below : ((n % d : Nat) : ℚ) / d ≤ 1 := by
    rw [div_le_one (by exact_mod_cast pos)]
    exact_mod_cast (Nat.mod_lt n pos).le
  rw [cast_div_eq n pos]
  rcases divNearest_cases n pos with ⟨down, half, even⟩ | ⟨up, half, even⟩
  · rw [down, add_sub_cancel_left, abs_of_nonneg none_below]
    exact ⟨half, even⟩
  · have off : ((n / d : Nat) : ℚ) + (n % d : Nat) / d - (n / d + 1 : Nat) =
        -(1 - (n % d : Nat) / d) := by
      push_cast
      ring
    rw [up, off, abs_neg, abs_of_nonneg (by linarith)]
    exact ⟨by linarith, fun tie => even (by linarith)⟩

theorem half_le_of_ne {r : ℚ} {m : Nat} (half : |r - m| ≤ 1 / 2) {k : Nat} (other : k ≠ m) :
    1 / 2 ≤ |r - k| := by
  have apart : (1 : ℚ) ≤ |(k : ℚ) - m| := by
    have distinct : (k : ℤ) - m ≠ 0 := by omega
    exact_mod_cast Int.one_le_abs distinct
  have triangle := abs_sub_le (k : ℚ) r m
  rw [abs_sub_comm (k : ℚ) r] at triangle
  linarith

/-! The grid of the numbers. -/

theorem significand_lt (bits : Nat) : significand bits < 2 ^ 53 := by
  have low := Nat.mod_lt bits (Nat.two_pow_pos 52)
  unfold significand
  split <;> omega

theorem units_eq {e m : Nat} (reach : m ≤ 2 ^ 53) (full : e = 0 ∨ 2 ^ 52 ≤ m) :
    units (e * 2 ^ 52 + m) = m * 2 ^ e := by
  by_cases small : m < 2 ^ 52
  · have least : e = 0 := full.resolve_right (by omega)
    rw [least, Nat.zero_mul, Nat.zero_add, units, significand, if_pos small, Nat.div_eq_of_lt small,
      Nat.zero_sub]
  · have large : ¬ e * 2 ^ 52 + m < 2 ^ 52 := by omega
    rw [units, significand, if_neg large]
    rcases Nat.lt_or_eq_of_le reach with inner | rfl
    · have exponent : (e * 2 ^ 52 + m) / 2 ^ 52 - 1 = e := by omega
      have whole : 2 ^ 52 + (e * 2 ^ 52 + m) % 2 ^ 52 = m := by omega
      rw [exponent, whole]
    · have exponent : (e * 2 ^ 52 + 2 ^ 53) / 2 ^ 52 - 1 = e + 1 := by omega
      have whole : 2 ^ 52 + (e * 2 ^ 52 + 2 ^ 53) % 2 ^ 52 = 2 ^ 52 := by omega
      have steps : 52 + (e + 1) = 53 + e := by omega
      rw [exponent, whole, ← Nat.pow_add, ← Nat.pow_add, steps]

theorem even_significand {m : Nat} (e : Nat) (even : Even m) :
    Even (significand (e * 2 ^ 52 + m)) := by
  rw [Nat.even_iff] at even ⊢
  unfold significand
  split <;> omega

theorem units_cases (e bits : Nat) :
    (∃ k, units bits = k * 2 ^ e) ∨ 0 < e ∧ units bits < 2 ^ 52 * 2 ^ e := by
  by_cases coarse : e ≤ bits / 2 ^ 52 - 1
  · left
    refine ⟨significand bits * 2 ^ (bits / 2 ^ 52 - 1 - e), ?_⟩
    rw [units, Nat.mul_assoc, ← Nat.pow_add, Nat.sub_add_cancel coarse]
  · right
    have finer : bits / 2 ^ 52 - 1 ≤ e - 1 := by omega
    refine ⟨by omega, ?_⟩
    calc units bits < 2 ^ 53 * 2 ^ (bits / 2 ^ 52 - 1) :=
          Nat.mul_lt_mul_of_pos_right (significand_lt bits) (Nat.two_pow_pos _)
      _ ≤ 2 ^ 53 * 2 ^ (e - 1) := Nat.mul_le_mul_left _ (Nat.pow_le_pow_right two_pos finer)
      _ = 2 ^ 52 * 2 ^ e := by rw [← Nat.pow_add, ← Nat.pow_add]; congr 1; omega

theorem abs_sub_steps (a k : ℚ) (e : Nat) : |a - k * 2 ^ e| = 2 ^ e * |a / 2 ^ e - k| := by
  have long : (0 : ℚ) < 2 ^ e := by positivity
  have scaled : a - k * 2 ^ e = 2 ^ e * (a / 2 ^ e - k) := by
    field_simp
  rw [scaled, abs_mul, abs_of_pos long]

/-- A quotient of `a` units, rounded to `m` steps of `2 ^ e` units each. The steps are as long as they
can be while there are 2^52 of them, and none is shorter than a unit. -/
structure Steps (a : ℚ) (e m : Nat) : Prop where
  below : a / 2 ^ e < 2 ^ 53
  full : e = 0 ∨ 2 ^ 52 ≤ a / 2 ^ e
  half : |a / 2 ^ e - m| ≤ 1 / 2
  tie : |a / 2 ^ e - m| = 1 / 2 → Even m

namespace Steps

variable {a : ℚ} {e m : Nat} (steps : Steps a e m)
include steps

theorem reach : m ≤ 2 ^ 53 := by
  have near := (abs_le.mp steps.half).1
  have below := steps.below
  have less : (m : ℚ) < (2 ^ 53 : Nat) + 1 := by
    push_cast
    linarith
  exact Nat.le_of_lt_succ (by exact_mod_cast less)

theorem many : e = 0 ∨ 2 ^ 52 ≤ m := by
  refine steps.full.imp_right fun full => ?_
  have near := (abs_le.mp steps.half).2
  have more : ((2 ^ 52 : Nat) : ℚ) < m + 1 := by
    push_cast
    linarith
  exact Nat.le_of_lt_succ (by exact_mod_cast more)

theorem units_eq : (units (e * 2 ^ 52 + m) : ℚ) = m * 2 ^ e := by
  rw [Binary64.units_eq steps.reach steps.many]
  push_cast
  rfl

theorem half_le {k : Nat} (other : k ≠ m) : |a / 2 ^ e - m| ≤ |a / 2 ^ e - k| ∧
    (|a / 2 ^ e - m| = |a / 2 ^ e - k| → Even m) := by
  have far := half_le_of_ne steps.half other
  refine ⟨steps.half.trans far, fun same => steps.tie ?_⟩
  exact le_antisymm steps.half (same ▸ far)

theorem nearest (bits : Nat) :
    |a - units (e * 2 ^ 52 + m)| ≤ |a - units bits| ∧
      (units bits ≠ units (e * 2 ^ 52 + m) →
        |a - units (e * 2 ^ 52 + m)| = |a - units bits| → Even m) := by
  have long : (0 : ℚ) < 2 ^ e := by positivity
  by_cases same : units bits = units (e * 2 ^ 52 + m)
  · rw [same]
    exact ⟨le_refl _, fun other => absurd rfl other⟩
  rw [steps.units_eq, abs_sub_steps]
  rcases units_cases e bits with ⟨k, whole⟩ | ⟨more, low⟩
  · have other : k ≠ m := by
      rintro rfl
      exact same (whole.trans (Binary64.units_eq steps.reach steps.many).symm)
    obtain ⟨near, tie⟩ := steps.half_le other
    have count : (units bits : ℚ) = k * 2 ^ e := by
      rw [whole]
      push_cast
      rfl
    rw [count, abs_sub_steps]
    refine ⟨mul_le_mul_of_nonneg_left near long.le, fun _ even => tie ?_⟩
    exact mul_left_cancel₀ long.ne' even
  · -- The first number of whole steps lies between this one and the quotient.
    have full := steps.full.resolve_left (by omega)
    have count : (units bits : ℚ) < (2 ^ 52 : Nat) * 2 ^ e := by exact_mod_cast low
    have first : |a / 2 ^ e - m| ≤ |a / 2 ^ e - (2 ^ 52 : Nat)| := by
      by_cases least : 2 ^ 52 = m
      · rw [least]
      · exact (steps.half_le least).1
    have between : |a - (2 ^ 52 : Nat) * 2 ^ e| < |a - units bits| := by
      have above : ((2 ^ 52 : Nat) : ℚ) * 2 ^ e ≤ a := by
        push_cast
        exact (le_div_iff₀ long).mp full
      rw [abs_of_nonneg (by linarith), abs_of_nonneg (by linarith)]
      linarith
    have less : 2 ^ e * |a / 2 ^ e - m| < |a - units bits| := by
      rw [abs_sub_steps] at between
      exact lt_of_le_of_lt (mul_le_mul_of_nonneg_left first long.le) between
    exact ⟨less.le, fun _ even => absurd even less.ne⟩

theorem eq_zero_iff (some_units : 0 ≤ a) : e * 2 ^ 52 + m = 0 ↔ a ≤ 1 / 2 := by
  constructor
  · intro nothing
    obtain ⟨rfl, rfl⟩ : e = 0 ∧ m = 0 := by omega
    have near := (abs_le.mp steps.half).2
    simpa using near
  · intro little
    have least : e = 0 := by
      rcases steps.full with least | full
      · exact least
      · have shrunk : a / 2 ^ e ≤ a := div_le_self some_units (one_le_pow₀ one_le_two)
        linarith
    subst least
    have near := steps.half
    have tie := steps.tie
    rw [pow_zero, div_one] at near tie
    -- One step more than nothing is as near at best, and it is odd.
    by_contra more
    have one : (1 : ℚ) ≤ m := by exact_mod_cast (by omega : 1 ≤ m)
    have low := (abs_le.mp near).1
    have whole : m = 1 := by
      have less : (m : ℚ) < (2 : Nat) := by
        push_cast
        linarith
      have fewer : m < 2 := by exact_mod_cast less
      omega
    subst whole
    have half : a = 1 / 2 := by
      push_cast at low
      linarith
    have odd := tie (by rw [half]; norm_num [abs_of_neg])
    exact absurd odd (by decide)

/-- The last step but one is odd, so a tie with it goes up. -/
theorem all_steps_iff : 2 ^ 53 ≤ m ↔ 2 ^ 53 - 1 / 2 ≤ a / 2 ^ e := by
  obtain ⟨low, high⟩ := abs_le.mp steps.half
  constructor
  · intro all
    have most : ((2 ^ 53 : Nat) : ℚ) ≤ m := by exact_mod_cast all
    push_cast at most
    linarith
  · intro near
    by_contra fewer
    have last : m + 1 ≤ 2 ^ 53 := by omega
    have bound : (m : ℚ) + 1 ≤ 2 ^ 53 := by exact_mod_cast last
    have tie : |a / 2 ^ e - m| = 1 / 2 := by
      rw [abs_of_nonneg (by linarith)]
      linarith
    have odd : m + 1 = 2 ^ 53 := by
      have count : (m : ℚ) + 1 = 2 ^ 53 := by linarith
      exact_mod_cast count
    have even := Nat.even_iff.mp (steps.tie tie)
    omega

theorem overflows_iff : 2047 * 2 ^ 52 ≤ e * 2 ^ 52 + m ↔ (2 ^ 53 - 1 / 2) * 2 ^ 2045 ≤ a := by
  have long : (0 : ℚ) < 2 ^ e := by positivity
  have reach := steps.reach
  rcases lt_trichotomy e 2045 with small | same | large
  · have shorter : (2 : ℚ) ^ (e + 1) ≤ 2 ^ 2045 := pow_le_pow_right₀ one_le_two (by omega)
    have positive : (0 : ℚ) < 2 ^ 2045 := by positivity
    have less : a < 2 ^ 53 * 2 ^ e := (div_lt_iff₀ long).mp steps.below
    rw [pow_succ] at shorter
    generalize (2 : ℚ) ^ 2045 = largest at shorter positive
    constructor
    · intro beyond
      omega
    · intro beyond
      linarith
  · have all := steps.all_steps_iff
    rw [le_div_iff₀ long, same] at all
    rw [← all, same]
    omega
  · have full := (le_div_iff₀ long).mp (steps.full.resolve_left (by omega))
    have many := steps.many
    have longer : (2 : ℚ) ^ (2045 + 1) ≤ 2 ^ e := pow_le_pow_right₀ one_le_two large
    rw [pow_succ] at longer
    have positive : (0 : ℚ) < 2 ^ 2045 := by positivity
    generalize (2 : ℚ) ^ 2045 = largest at longer positive
    constructor
    · intro _
      linarith
    · intro _
      omega

end Steps

theorem steps_divNearest (n : Nat) {d : Nat} (pos : 0 < d) :
    Steps (n / d) ((n / d).log2 - 52) (divNearest n (d * 2 ^ ((n / d).log2 - 52))) := by
  have top := Nat.lt_log2_self (n := n / d)
  generalize exponent : (n / d).log2 - 52 = e
  have scaled : ((n : ℚ) / d) / 2 ^ e = n / (d * 2 ^ e : Nat) := by
    push_cast
    rw [div_div]
  have positive : 0 < d * 2 ^ e := Nat.mul_pos pos (Nat.two_pow_pos e)
  obtain ⟨half, tie⟩ := halves_divNearest n positive
  have cast_pos : (0 : ℚ) < (d * 2 ^ e : Nat) := by exact_mod_cast positive
  constructor
  · rw [scaled, div_lt_iff₀ cast_pos]
    have reach : n / d < 2 ^ e * 2 ^ 53 := by
      rw [← Nat.pow_add]
      exact Nat.lt_of_lt_of_le top (Nat.pow_le_pow_right two_pos (by omega))
    have below := (Nat.div_lt_iff_lt_mul pos).mp reach
    have less : n < 2 ^ 53 * (d * 2 ^ e) := by
      rwa [Nat.mul_comm, Nat.mul_comm (2 ^ e), Nat.mul_left_comm] at below
    exact_mod_cast less
  · by_cases least : e = 0
    · exact .inl least
    · right
      rw [scaled, le_div_iff₀ cast_pos]
      have some_bits : n / d ≠ 0 := by
        intro nothing
        rw [nothing] at exponent
        exact least exponent.symm
      have bottom := Nat.log2_self_le some_bits
      have full : 2 ^ e * 2 ^ 52 ≤ n / d := by
        rw [← Nat.pow_add]
        exact Nat.le_trans (Nat.pow_le_pow_right two_pos (by omega)) bottom
      have above := (Nat.le_div_iff_mul_le pos).mp full
      have more : 2 ^ 52 * (d * 2 ^ e) ≤ n := by
        rwa [Nat.mul_comm, Nat.mul_comm (2 ^ e), Nat.mul_left_comm] at above
      exact_mod_cast more
  · rw [scaled]
    exact half
  · rw [scaled]
    exact tie

theorem bits_infinity : infinity.bits.toNat = 2047 * 2 ^ 52 := by decide

theorem abs_sub_value (q : ℚ) (x : Binary64) :
    |q - x.value| = |q * 2 ^ 1074 - units x.bits.toNat| / 2 ^ 1074 := by
  have unit : (0 : ℚ) < 2 ^ 1074 := by positivity
  have scaled : q - x.value = (q * 2 ^ 1074 - units x.bits.toNat) / 2 ^ 1074 := by
    rw [value, sub_div, mul_div_cancel_right₀ q unit.ne']
  rw [scaled, abs_div, abs_of_pos unit]

theorem overflow_iff (q : ℚ) :
    (2 ^ 53 - 1 / 2) * 2 ^ 2045 ≤ q * 2 ^ 1074 ↔ 2 ^ 1024 - 2 ^ 970 ≤ q := by
  have unit : (0 : ℚ) < 2 ^ 1074 := by positivity
  have whole : (2 : ℚ) ^ 53 * 2 ^ 2045 = 2 ^ 1024 * 2 ^ 1074 := by rw [← pow_add, ← pow_add]
  have half : (2 : ℚ) ^ 2045 = 2 * (2 ^ 970 * 2 ^ 1074) := by rw [← pow_add, ← pow_succ']
  have scaled : ((2 : ℚ) ^ 53 - 1 / 2) * 2 ^ 2045 = (2 ^ 1024 - 2 ^ 970) * 2 ^ 1074 := by
    rw [sub_mul, sub_mul, whole, half, ← mul_assoc (1 / 2), one_div_mul_cancel two_ne_zero, one_mul]
  rw [scaled, mul_le_mul_iff_left₀ unit]

theorem underflow_iff (q : ℚ) : q * 2 ^ 1074 ≤ 1 / 2 ↔ q ≤ 1 / 2 ^ 1075 := by
  have unit : (0 : ℚ) < 2 ^ 1074 := by positivity
  rw [← le_div_iff₀ unit, div_div, ← pow_succ']

theorem Steps.nearest_number {q : ℚ} {e m : Nat} (some_units : 0 ≤ q)
    (steps : Steps (q * 2 ^ 1074) e m) :
    Nearest q (if e * 2 ^ 52 + m < infinity.bits.toNat then ⟨.ofNat (e * 2 ^ 52 + m)⟩
      else infinity) := by
  have unit : (0 : ℚ) < 2 ^ 1074 := by positivity
  have overflow := steps.overflows_iff.trans (overflow_iff q)
  have underflow := (steps.eq_zero_iff (mul_nonneg some_units unit.le)).trans (underflow_iff q)
  split
  · rename_i within
    have word : (UInt64.ofNat (e * 2 ^ 52 + m)).toNat = e * 2 ^ 52 + m :=
      UInt64.toNat_ofNat_of_lt' (Nat.lt_trans within infinity.bits.toNat_lt)
    have same : ∀ y : Binary64, (⟨.ofNat (e * 2 ^ 52 + m)⟩ : Binary64) = y ↔
        e * 2 ^ 52 + m = y.bits.toNat := by
      rintro ⟨bits⟩
      rw [mk.injEq, ← UInt64.toNat_inj, word]
    constructor
    case proper =>
      left
      rwa [IsFinite, word]
    case nearest =>
      intro _ y _
      rw [abs_sub_value, abs_sub_value, word]
      exact div_le_div_of_nonneg_right (steps.nearest _).1 unit.le
    case even =>
      intro _ y _ other tie
      rw [abs_sub_value, abs_sub_value, word] at tie
      rw [word]
      refine even_significand e ((steps.nearest y.bits.toNat).2 (fun count => other ?_) ?_)
      · rw [value, value, word, count]
      · exact (div_left_inj' unit.ne').mp tie
    case infinite =>
      rw [same, ← overflow, ← bits_infinity]
      exact ⟨Nat.le_of_eq ∘ Eq.symm, fun beyond => absurd within (Nat.not_lt_of_le beyond)⟩
    case zero =>
      rw [same, ← underflow]
      rfl
  · rename_i beyond
    have large := Nat.le_of_not_lt beyond
    rw [bits_infinity] at large
    constructor
    case proper => exact .inr rfl
    case nearest => exact fun finite => absurd finite (Nat.lt_irrefl _)
    case even => exact fun finite => absurd finite (Nat.lt_irrefl _)
    case infinite => exact iff_of_true rfl (overflow.mp large)
    case zero =>
      refine iff_of_false (by decide) fun little => ?_
      have nothing := underflow.mpr little
      omega

/-- The number of a quotient is the nearest to it. -/
theorem nearest_ofRatio (n : Nat) {d : Nat} (pos : 0 < d) : Nearest (n / d) (ofRatio n d) := by
  have scaled : ∀ k, ((n * Nat.pow 2 k : Nat) : ℚ) / d = n / d * 2 ^ k := by
    intro k
    change ((n * 2 ^ k : Nat) : ℚ) / d = n / d * 2 ^ k
    push_cast
    rw [div_mul_eq_mul_div]
  have some_units : (0 : ℚ) ≤ n / d := by positivity
  have steps := steps_divNearest (n * Nat.pow 2 1074) pos
  rw [scaled 1074] at steps
  exact steps.nearest_number some_units

end Lexing.Binary64
