import Mathlib
import Tdms.Timestamp

/-!
Nanoseconds since the start of 1970, exactly.

`exactNanos` counts them by rational arithmetic and rounds down once, at the
end. `unixNanos?` rounds the fraction of the second alone and comes to the same
number, which it gives up to the last nanosecond that a signed 64-bit number
holds. It does not go back to the first one: the second in which that lies
starts before all nanoseconds that such a number holds.
-/

namespace Tdms.Timestamp

/-- Nanoseconds since the start of 1970, rounded down to a whole number. -/
def exactNanos (moment : Timestamp) : Int :=
  ⌊((moment.seconds.toInt - epochSeconds : ℚ) + moment.fractions.toNat / 2 ^ 64) * 10 ^ 9⌋

/-- The earliest whole second, in nanoseconds, that a signed 64-bit number holds. -/
def earliestSecond : Int :=
  Int64.minValue.toInt.tdiv nanosPerSecond * nanosPerSecond

theorem earliestSecond_eq : earliestSecond = -9223372036000000000 := by
  decide

theorem subsecNanos_lt (moment : Timestamp) : moment.subsecNanos < nanosPerSecond := by
  have fraction := moment.fractions.toNat_lt_size
  unfold subsecNanos nanosPerSecond
  unfold UInt64.size at fraction ⊢
  omega

/-- Only the fraction of the second has to be rounded. -/
theorem exactNanos_eq (moment : Timestamp) :
    moment.exactNanos =
      (moment.seconds.toInt - epochSeconds) * nanosPerSecond + moment.subsecNanos := by
  have parts : ((moment.seconds.toInt - epochSeconds : ℚ) + moment.fractions.toNat / 2 ^ 64) *
      10 ^ 9 =
        ((moment.seconds.toInt - epochSeconds) * nanosPerSecond : ℤ) +
          ((moment.fractions.toNat * nanosPerSecond : ℕ) : ℚ) / (UInt64.size : ℕ) := by
    unfold nanosPerSecond UInt64.size
    push_cast
    ring
  rw [exactNanos, parts, Int.floor_intCast_add, Rat.floor_natCast_div_natCast, subsecNanos,
    Int.natCast_div]

/-- The whole seconds fit a signed 64-bit number in nanoseconds from the earliest such second on,
and the sum fits up to the last nanosecond. Seconds that are held at the least such number lie far
before that. -/
theorem fits_iff (moment : Timestamp) :
    (FitsInt64 (moment.unixSeconds * nanosPerSecond) ∧
        FitsInt64 (moment.unixSeconds * nanosPerSecond + moment.subsecNanos)) ↔
      earliestSecond ≤ moment.exactNanos ∧ moment.exactNanos ≤ Int64.maxValue.toInt := by
  have below := moment.subsecNanos_lt
  have least : Int64.minValue.toInt = -9223372036854775808 := rfl
  have most : Int64.maxValue.toInt = 9223372036854775807 := rfl
  rw [exactNanos_eq, earliestSecond_eq]
  unfold FitsInt64 unixSeconds
  unfold nanosPerSecond at below ⊢
  rw [least, most]
  omega

/-- Whole seconds that fit in nanoseconds are not held back. -/
theorem sum_eq_exactNanos {moment : Timestamp} (late : earliestSecond ≤ moment.exactNanos) :
    moment.unixSeconds * nanosPerSecond + moment.subsecNanos = moment.exactNanos := by
  have below := moment.subsecNanos_lt
  have least : Int64.minValue.toInt = -9223372036854775808 := rfl
  rw [exactNanos_eq, earliestSecond_eq] at late
  rw [exactNanos_eq, unixSeconds, least]
  unfold nanosPerSecond at below late ⊢
  omega

theorem unixNanos?_eq (moment : Timestamp) :
    moment.unixNanos? =
      if earliestSecond ≤ moment.exactNanos ∧ moment.exactNanos ≤ Int64.maxValue.toInt then
        some moment.exactNanos
      else none := by
  unfold unixNanos?
  by_cases counted : earliestSecond ≤ moment.exactNanos ∧
      moment.exactNanos ≤ Int64.maxValue.toInt
  · rw [if_pos counted, if_pos (moment.fits_iff.2 counted), sum_eq_exactNanos counted.1]
  · rw [if_neg counted, if_neg (mt moment.fits_iff.1 counted)]

/-- Nanoseconds that are counted fit a signed 64-bit number. -/
theorem toInt_ofInt_unixNanos {moment : Timestamp} {nanos : Int}
    (known : moment.unixNanos? = some nanos) : (Int64.ofInt nanos).toInt = nanos := by
  unfold unixNanos? at known
  dsimp only at known
  split at known
  · rename_i fits
    cases known
    exact Int64.toInt_ofInt_of_le fits.2.1 (Int.lt_add_one_of_le fits.2.2)
  · cases known

/-- Nanoseconds are counted exactly, from the earliest whole second on and as far as they fit a
signed 64-bit number. So all moments are counted whose exact number fits, but for those of the part
of a second that lies before the earliest whole one. -/
theorem unixNanos?_exact (moment : Timestamp) :
    (∀ nanos, moment.unixNanos? = some nanos ↔
      nanos = moment.exactNanos ∧ earliestSecond ≤ nanos ∧ nanos ≤ Int64.maxValue.toInt) ∧
    ((moment.unixNanos? =
        if FitsInt64 moment.exactNanos then some moment.exactNanos else none) ↔
      ¬ (Int64.minValue.toInt ≤ moment.exactNanos ∧ moment.exactNanos < earliestSecond)) := by
  have order : Int64.minValue.toInt ≤ earliestSecond := by decide
  have room : earliestSecond ≤ Int64.maxValue.toInt := by decide
  rw [unixNanos?_eq]
  constructor
  · intro nanos
    split
    · rename_i counted
      rw [Option.some.injEq]
      constructor
      · intro same
        subst same
        exact ⟨rfl, counted⟩
      · intro ⟨same, _⟩
        exact same.symm
    · rename_i uncounted
      simp only [reduceCtorEq, false_iff]
      rintro ⟨rfl, counted⟩
      exact uncounted counted
  · by_cases fits : FitsInt64 moment.exactNanos
    · rw [if_pos fits]
      by_cases late : earliestSecond ≤ moment.exactNanos
      · rw [if_pos ⟨late, fits.2⟩]
        exact iff_of_true rfl fun early => not_lt.2 late early.2
      · rw [if_neg fun counted => late counted.1]
        exact iff_of_false nofun (not_not.2 ⟨fits.1, not_le.1 late⟩)
    · rw [if_neg fits, if_neg fun counted => fits ⟨order.trans counted.1, counted.2⟩]
      exact iff_of_true rfl fun early => fits ⟨early.1, early.2.le.trans room⟩

/-- Half a second after the last whole second whose nanoseconds do not fit, the nanoseconds fit
again and are not counted. -/
theorem not_unixNanos?_fits :
    ¬ ∀ moment : Timestamp, moment.unixNanos? =
      if FitsInt64 moment.exactNanos then some moment.exactNanos else none := by
  intro exact
  have number : exactNanos ⟨-7140527237, 9223372036854775808⟩ = -9223372036500000000 := by
    rw [exactNanos_eq]
    decide
  have missing : unixNanos? ⟨-7140527237, 9223372036854775808⟩ = none := by decide
  have given := exact ⟨-7140527237, 9223372036854775808⟩
  rw [missing, number, if_pos (by decide)] at given
  cases given

end Tdms.Timestamp
