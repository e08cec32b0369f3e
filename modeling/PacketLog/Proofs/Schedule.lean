import Mathlib.Algebra.Order.Field.Basic
import Mathlib.Algebra.Order.Field.Power
import Mathlib.Tactic.FieldSimp
import Mathlib.Tactic.NormNum
import Mathlib.Tactic.Ring
import PacketLog.Proofs.Attempts
import PacketLog.Proofs.Validation

/-!
# Proofs — Schedule

The waits of a configured schedule without random variation, in exact numbers.  The number of the
repetition is read as a signed one of thirty-two bits, so the waits first grow to their limit, and
from repetition 2³¹ on they begin anew far below the first wait.

* `Backoff.Doubles`: a schedule that doubles each wait, and `Backoff.doubles_of_resolve`: the
  schedule of a configuration is one.
* `Backoff.Doubles.delay?_of_lt`, `Backoff.Doubles.delay?_of_le`: the waits before repetition 2³¹,
  and from there on.
* `Backoff.delay_doubles`: all waits of a configured schedule.
* `Backoff.delay_falls`: a configuration may well have so many repetitions.
-/

namespace PacketLog

/-! ### Exact numbers -/

namespace Arithmetic

theorem seconds_mono : Monotone exact.seconds := fun _ _ h =>
  div_le_div_of_nonneg_right (Nat.cast_le.2 h) (by norm_num)

theorem seconds_nonneg (n : ℕ) : 0 ≤ exact.seconds n :=
  div_nonneg n.cast_nonneg (by norm_num)

theorem seconds_mul (n k : ℕ) : exact.seconds (n * k) = exact.seconds n * k := by
  change ((n * k : ℕ) : ℚ) / 1000000000 = (n : ℚ) / 1000000000 * k
  rw [Nat.cast_mul, div_mul_eq_mul_div]

/-- A fraction of a time that is not too long is rounded to a nanosecond. -/
theorem nanos?_seconds_div {n d : ℕ} (hd : 0 < d) (h : exact.seconds n / d < 2 ^ 64) :
    exact.nanos? (exact.seconds n / d) = some (roundDiv .even n d) := by
  set x : ℚ := exact.seconds n / d with hx
  have hx0 : 0 ≤ x := div_nonneg (seconds_nonneg n) d.cast_nonneg
  have hnum : ((x.num.toNat : ℕ) : ℚ) = x * x.den := by
    rw [Rat.mul_den_eq_num, ← Int.cast_natCast, Int.toNat_of_nonneg (Rat.num_nonneg.2 hx0)]
  have hn : (n : ℚ) = x * (1000000000 * d) := by
    have hd' : (d : ℚ) ≠ 0 := Nat.cast_ne_zero.2 hd.ne'
    change (n : ℚ) = n / 1000000000 / d * (1000000000 * d)
    field_simp
  have hcross : ((x.num.toNat * 1000000000 * d : ℕ) : ℚ) = (n * x.den : ℕ) := by
    rw [Nat.cast_mul, Nat.cast_mul, Nat.cast_mul, hnum, hn]
    ring
  have hr : roundDiv .even (x.num.toNat * 1000000000) x.den = roundDiv .even n d :=
    roundDiv_congr .even x.den_pos hd (Nat.cast_injective hcross)
  change (if x < 0 ∨ 2 ^ 64 ≤ x then none
    else some (roundDiv .even (x.num.toNat * 1000000000) x.den)) = _
  rw [if_neg (not_or.2 ⟨not_lt.2 hx0, not_le.2 h⟩), hr]

theorem nanos?_seconds {n : ℕ} (h : exact.seconds n < 2 ^ 64) :
    exact.nanos? (exact.seconds n) = some n := by
  have h1 := nanos?_seconds_div (n := n) Nat.one_pos (by rwa [Nat.cast_one, div_one])
  rwa [Nat.cast_one, div_one, roundDiv_one] at h1

end Arithmetic

/-! ### Exponents -/

theorem toInt_toInt32_of_lt {n : UInt32} (h : n.toNat < 2 ^ 31) : n.toInt32.toInt = n.toNat := by
  have hc := BitVec.toInt_eq_toNat_cond n.toBitVec
  rw [if_pos (by rw [UInt32.toNat_toBitVec]; omega)] at hc
  exact hc

theorem toInt_toInt32_of_le {n : UInt32} (h : 2 ^ 31 ≤ n.toNat) :
    n.toInt32.toInt = -((UInt32.size - n.toNat : ℕ) : ℤ) := by
  have hc := BitVec.toInt_eq_toNat_cond n.toBitVec
  rw [if_neg (by rw [UInt32.toNat_toBitVec]; omega), UInt32.toNat_toBitVec] at hc
  have hn : n.toNat < UInt32.size := n.toNat_lt_size
  calc n.toInt32.toInt
      = n.toNat - ((2 ^ 32 : ℕ) : ℤ) := hc
    _ = -((UInt32.size - n.toNat : ℕ) : ℤ) := by
        rw [Nat.cast_sub hn.le]
        exact (neg_sub _ _).symm

/-! ### Schedules that double -/

namespace Backoff

/-- The first wait doubled `k` times, or the limit where that is less. -/
def doubled {α : Type} (b : Backoff α) (k : Nat) : Nat := min (b.baseDelay * 2 ^ k) b.maxDelay

/-- Every wait is twice the one before it, no wait varies, and the limit is neither below the first
wait nor too long for a time. -/
structure Doubles (b : Backoff ℚ) : Prop where
  factor  : b.factor = 2
  steady  : b.jitter = false
  ordered : b.baseDelay ≤ b.maxDelay
  short   : Arithmetic.exact.seconds b.maxDelay < 2 ^ 64

variable {b : Backoff ℚ} {m n : UInt32}

theorem doubled_mono {α : Type} (b : Backoff α) : Monotone b.doubled := fun _ _ h =>
  min_le_min_right _ (Nat.mul_le_mul_left _ (Nat.pow_le_pow_right Nat.two_pos h))

namespace Doubles

theorem baseDelay_le (hb : b.Doubles) (k : Nat) : b.baseDelay ≤ b.doubled k :=
  le_min (Nat.le_mul_of_pos_right _ (Nat.two_pow_pos k)) hb.ordered

/-- The wait before it is rounded. -/
theorem delay?_eq (hb : b.Doubles) (draw : ℚ) (n : UInt32) :
    b.delay? .exact draw n = Arithmetic.exact.nanos?
      (min (Arithmetic.exact.seconds b.baseDelay * 2 ^ n.toInt32.toInt)
        (Arithmetic.exact.seconds b.maxDelay)) := by
  simp only [delay?, hb.steady, ← hb.factor]
  rfl

/-- **The waits double up to the limit.** -/
theorem delay?_of_lt (hb : b.Doubles) (draw : ℚ) (h : n.toNat < 2 ^ 31) :
    b.delay? .exact draw n = some (b.doubled n.toNat) := by
  have hpow : Arithmetic.exact.seconds b.baseDelay * 2 ^ n.toInt32.toInt =
      Arithmetic.exact.seconds (b.baseDelay * 2 ^ n.toNat) := by
    rw [toInt_toInt32_of_lt h, zpow_natCast, Arithmetic.seconds_mul, Nat.cast_pow, Nat.cast_ofNat]
  have hshort : Arithmetic.exact.seconds (b.doubled n.toNat) < 2 ^ 64 :=
    (Arithmetic.seconds_mono (min_le_right _ _)).trans_lt hb.short
  rw [hb.delay?_eq, hpow, ← Arithmetic.seconds_mono.map_min]
  exact Arithmetic.nanos?_seconds hshort

/-- **From repetition 2³¹ on the waits are fractions of the first.** -/
theorem delay?_of_le (hb : b.Doubles) (draw : ℚ) (h : 2 ^ 31 ≤ n.toNat) :
    b.delay? .exact draw n = some (roundDiv .even b.baseDelay (2 ^ (UInt32.size - n.toNat))) := by
  set k := UInt32.size - n.toNat
  have hpow : Arithmetic.exact.seconds b.baseDelay * 2 ^ n.toInt32.toInt =
      Arithmetic.exact.seconds b.baseDelay / (2 ^ k : ℕ) := by
    rw [toInt_toInt32_of_le h, zpow_neg, zpow_natCast, div_eq_mul_inv, Nat.cast_pow, Nat.cast_ofNat]
  have hle : Arithmetic.exact.seconds b.baseDelay / (2 ^ k : ℕ) ≤
      Arithmetic.exact.seconds b.maxDelay :=
    (div_le_self (Arithmetic.seconds_nonneg _)
      (Nat.one_le_cast.2 (Nat.one_le_two_pow))).trans (Arithmetic.seconds_mono hb.ordered)
  rw [hb.delay?_eq, hpow, min_eq_left hle]
  exact Arithmetic.nanos?_seconds_div (Nat.two_pow_pos k) (hle.trans_lt hb.short)

/-- Almost all of those are rounded to nothing. -/
theorem delay?_eq_zero (hb : b.Doubles) (draw : ℚ) (h : 2 ^ 31 ≤ n.toNat)
    (hn : n.toNat + 95 ≤ UInt32.size) : b.delay? .exact draw n = some 0 := by
  have hmax : b.maxDelay < 2 ^ 64 * 1000000000 := by
    have hs : (b.maxDelay : ℚ) / 1000000000 < 2 ^ 64 := hb.short
    rw [div_lt_iff₀ (by norm_num)] at hs
    exact_mod_cast hs
  have hlt : 2 * b.baseDelay < 2 ^ (UInt32.size - n.toNat) :=
    calc 2 * b.baseDelay
        ≤ 2 * b.maxDelay := Nat.mul_le_mul_left 2 hb.ordered
      _ < 2 ^ 95 := by omega
      _ ≤ 2 ^ (UInt32.size - n.toNat) :=
          Nat.pow_le_pow_right Nat.two_pos (Nat.le_sub_of_add_le' hn)
  rw [hb.delay?_of_le draw h, roundDiv_eq_zero .even hlt]

end Doubles

/-! ### Configured schedules -/

section Configured

variable {l : Config.PipelineLayer} {s : Config.PipelineSettings}

/-- **The schedule of a configuration doubles**, unless it is to vary. -/
theorem doubles_of_resolve (h : l.resolve = .ok s) (hl : ∀ ms ∈ l.maxDelay, ms < UInt64.size)
    (hj : s.jitter = false) : (ofSettings 2 s : Backoff ℚ).Doubles where
  factor  := rfl
  steady  := hj
  ordered := by
    obtain rfl := Config.PipelineLayer.of_resolve h
    have hr := (l.checks_resolve.exists_ok_iff).1 ⟨_, h⟩ (.orderedDelays l.baseDelay l.maxDelay)
      (by simp)
    exact Nat.mul_le_mul_right _ hr
  short   := by
    obtain rfl := Config.PipelineLayer.of_resolve h
    have hm : l.maxDelay.getD 2000 < UInt64.size := by
      cases hd : l.maxDelay with
      | none => exact by decide
      | some ms => exact hl ms hd
    change ((l.maxDelay.getD 2000 * nanosPerMilli : ℕ) : ℚ) / 1000000000 < 2 ^ 64
    have hq : ((l.maxDelay.getD 2000 : ℕ) : ℚ) < 2 ^ 64 := by exact_mod_cast hm
    rw [div_lt_iff₀ (by norm_num), Nat.cast_mul]
    calc ((l.maxDelay.getD 2000 : ℕ) : ℚ) * (nanosPerMilli : ℕ)
        ≤ 2 ^ 64 * (nanosPerMilli : ℕ) := by gcongr
      _ < 2 ^ 64 * 1000000000 := by norm_num [nanosPerMilli]

/-- A configured wait is a whole number of milliseconds, so half of it is one of nanoseconds. -/
theorem roundDiv_baseDelay_le (s : Config.PipelineSettings) {k : Nat} (hk : 0 < k) :
    2 * roundDiv .even (ofSettings (2 : ℚ) s).baseDelay (2 ^ k) ≤
      (ofSettings (2 : ℚ) s).baseDelay := by
  obtain ⟨j, rfl⟩ : ∃ j, k = j + 1 := ⟨k - 1, by omega⟩
  have hb : (ofSettings (2 : ℚ) s).baseDelay = 2 * (s.baseDelay * 500000) := by
    simp only [ofSettings, nanosPerMilli]
    omega
  rw [hb, Nat.pow_succ', roundDiv_mul_left .even Nat.two_pos]
  exact Nat.mul_le_mul_left 2
    (roundDiv_le .even (Nat.two_pow_pos j) (Nat.le_mul_of_pos_right _ (Nat.two_pow_pos j)))

/-- **All waits of a configured schedule.**  Before repetition 2³¹ each wait is twice the one before
it, up to the limit; so no wait is below the first, above a later one or above the limit.  From
there on a wait is a fraction of the first, at most half of it, and but for the last few
repetitions there is no wait at all. -/
theorem delay_doubles (h : l.resolve = .ok s) (hl : ∀ ms ∈ l.maxDelay, ms < UInt64.size)
    (hj : s.jitter = false) (draw : ℚ) :
    let b : Backoff ℚ := ofSettings 2 s
    (∀ n : UInt32, n.toNat < 2 ^ 31 → b.delay? .exact draw n = some (b.doubled n.toNat)) ∧
      (∀ m n : UInt32, m ≤ n → b.baseDelay ≤ b.doubled m.toNat ∧
        b.doubled m.toNat ≤ b.doubled n.toNat ∧ b.doubled n.toNat ≤ b.maxDelay) ∧
      (∀ n : UInt32, 2 ^ 31 ≤ n.toNat → ∃ nanos, b.delay? .exact draw n = some nanos ∧
        nanos = roundDiv .even b.baseDelay (2 ^ (UInt32.size - n.toNat)) ∧
        2 * nanos ≤ b.baseDelay) ∧
      ∀ n : UInt32, 2 ^ 31 ≤ n.toNat → n.toNat + 95 ≤ UInt32.size →
        b.delay? .exact draw n = some 0 := by
  intro b
  have hb : b.Doubles := doubles_of_resolve h hl hj
  refine ⟨fun n hn => hb.delay?_of_lt draw hn, ?_, ?_, fun n hn => hb.delay?_eq_zero draw hn⟩
  · intro m n hmn
    exact ⟨hb.baseDelay_le _, b.doubled_mono hmn, min_le_right _ _⟩
  · intro n hn
    have hk : 0 < UInt32.size - n.toNat := Nat.sub_pos_of_lt n.toNat_lt_size
    exact ⟨_, hb.delay?_of_le draw hn, rfl, roundDiv_baseDelay_le s hk⟩

/-- Of eleven calls that begin with a wait of fifty milliseconds, the fourth is followed by one of
four hundred. -/
theorem delay_doubles_eleven :
    let l : Config.PipelineLayer := { maxAttempts := some 11, jitter := some false }
    l.resolve = .ok l.withDefaults ∧ (∀ ms ∈ l.maxDelay, ms < UInt64.size) ∧
      l.withDefaults.jitter = false ∧
      (ofSettings 2 l.withDefaults).delay? .exact 0 3 = some 400000000 := by
  intro l
  have h : l.resolve = .ok l.withDefaults := by decide
  have hl : ∀ ms ∈ l.maxDelay, ms < UInt64.size := nofun
  refine ⟨h, hl, rfl, ?_⟩
  rw [(delay_doubles h hl rfl 0).1 3 (by decide)]
  decide

/-- **A configuration may well have so many repetitions that a wait is below the first**: here
repetition 2³¹ is made at once. -/
theorem delay_falls :
    let l : Config.PipelineLayer := { maxAttempts := some 4294967295, jitter := some false }
    let b : Backoff ℚ := ofSettings 2 l.withDefaults
    l.resolve = .ok l.withDefaults ∧ b.jitter = false ∧
      (2147483648 : UInt32) < b.maxAttempts - 1 ∧
      b.delay? .exact 0 2147483648 = some 0 ∧ 0 < b.baseDelay := by
  intro l b
  have h : l.resolve = .ok l.withDefaults := by decide
  have hb : b.Doubles := doubles_of_resolve h nofun rfl
  exact ⟨h, rfl, by decide, hb.delay?_eq_zero 0 (by decide) (by decide), by decide⟩

end Configured

end Backoff

end PacketLog
