import PackedLedger.Envelope
import PackedLedger.Proofs.Octaves
import PackedLedger.Proofs.Series

namespace PackedLedger

/-!
# What a logarithm, an exponential and a yield are made of

The functions of a grid are short chains of attempts.  Each is taken apart here
once, into the values it passed through, and what is later said about its result
is said about these: the two parts of a logarithm, the reduced exponent and the
sum of its series, the logarithm and the factor behind a largest yield.
-/

namespace FixedPoint

def Octave.argument (octave : Octave) (scale : Nat) : Int :=
  (((octave.mantissa : Int) - scale) * scale).tdiv ((octave.mantissa : Int) + scale)

/-- The argument of a fitting octave is between zero and a third. -/
theorem Octave.Fits.argument_spec {octave : Octave} {scale : Nat} {value : Rat}
    (fits : octave.Fits scale value) (someScale : 0 < scale) :
    0 ≤ octave.argument scale ∧ 3 * octave.argument scale ≤ scale := by
  have least := fits.scale_le
  have below := fits.lt_two_mul_scale someScale
  have numerator : 0 ≤ ((octave.mantissa : Int) - scale) * scale :=
    Int.mul_nonneg (by omega) (Int.natCast_nonneg _)
  have denominator : 0 < (octave.mantissa : Int) + scale := by omega
  refine ⟨Int.tdiv_nonneg numerator denominator.le, ?_⟩
  have exact : ((octave.mantissa : Int) + scale) * octave.argument scale ≤
      ((octave.mantissa : Int) - scale) * scale := Int.mul_tdiv_self_le numerator
  have part : 3 * ((octave.mantissa : Int) - scale) * scale ≤ (octave.mantissa + scale) * scale :=
    Int.mul_le_mul_of_nonneg_right (by omega) (Int.natCast_nonneg _)
  apply Int.le_of_mul_le_mul_right _ denominator
  linarith

namespace Grid

variable {grid : Grid} {Reason : Type}

/-- The logarithm of two on the grid is twice the inverse hyperbolic tangent of
a third, rounded down to the grid. -/
def HasThird (grid : Grid) : Prop :=
  ∃ half, (inverseTangent grid.scale ((grid.scale / 3 : Nat) : Int) : Verdict Int) = .ok half ∧
    grid.ln2 = half * 2

theorem ofDigits_eq_ok {digits : Nat} (found : (ofDigits digits : Verdict Grid) = .ok grid) :
    grid.scale = powerOfTen (digits + guardDigits) ∧ grid.HasThird := by
  rcases Attempt.bind_eq_ok.mp found with ⟨carried, sum, rest⟩
  rcases Attempt.bind_eq_ok.mp rest with ⟨half, third, same⟩
  have total : carried = digits + guardDigits := by
    unfold Checked.wordSum at sum
    split at sum
    · cases sum
      rfl
    · cases sum
  cases same
  rw [← total]
  exact ⟨rfl, half, third, rfl⟩

theorem value_mono (grid : Grid) {low high : Int} (ordered : low ≤ high) :
    grid.value low ≤ grid.value high := by
  rw [value, value, Rat.mkRat_eq_div, Rat.mkRat_eq_div]
  exact div_le_div_of_nonneg_right (Int.cast_le.mpr ordered) (Nat.cast_nonneg _)

theorem HasThird.ln2_bounds (third : grid.HasThird) (least : 3 ≤ grid.scale) :
    0 < grid.ln2 ∧ 4 * grid.ln2 ≤ 3 * grid.scale := by
  rcases third with ⟨half, found, twice⟩
  rcases inverseTangent_bounds grid.scale_pos (Int.natCast_nonneg _) (by omega) found with
    ⟨above, below⟩
  omega

theorem ln_eq_bind {value : Rat} (positive : 0 < value) :
    grid.ln value =
      (inverseTangent grid.scale ((Octave.of grid.scale value).argument grid.scale) >>= fun half =>
        pure (grid.ln2 * (Octave.of grid.scale value).exponent + half * 2)) := by
  have denominator : ((Octave.of grid.scale value).mantissa : Int) + grid.scale ≠ 0 := by
    have someScale := grid.scale_pos
    omega
  simp [ln, not_le.mpr (Rat.num_pos.mpr positive), denominator, Octave.argument]

theorem ln_eq_ok {value : Rat} (positive : 0 < value) {steps : Int} :
    grid.ln value = .ok steps ↔
      ∃ half, (inverseTangent grid.scale ((Octave.of grid.scale value).argument grid.scale) :
          Verdict Int) = .ok half ∧
        grid.ln2 * (Octave.of grid.scale value).exponent + half * 2 = steps := by
  simp [ln_eq_bind positive]

theorem ln_refuses_nonpos {value : Rat} (nonpos : value ≤ 0) {steps : Int} :
    grid.ln value ≠ .ok steps := by
  rw [ln, if_pos (Rat.num_nonpos.mpr nonpos)]
  intro impossible
  cases impossible

/-- The sum of the series, moved by so many octaves and rounded down. -/
def moved (sum : Int) : Int -> Int
  | .ofNat shift => sum * powerOfTwo shift
  | .negSucc shift => sum >>> (shift + 1)

theorem moved_natCast (sum : Int) (octaves : Nat) : moved sum octaves = sum * 2 ^ octaves := by
  simp [show moved sum octaves = sum * powerOfTwo octaves from rfl]

/-- The reduction is exact and leaves at most half a logarithm of two. -/
theorem reduce_spec (Reason : Type) (positive : 0 < grid.ln2) (steps : Int) :
    ∃ reduced, (grid.reduce steps : Attempt Reason Reduced) = .ok reduced ∧
      steps = reduced.multiple * grid.ln2 + reduced.rest ∧
      -grid.ln2 ≤ 2 * reduced.rest ∧ 2 * reduced.rest < grid.ln2 := by
  have double : 0 < grid.ln2 * 2 := by omega
  simp only [reduce, Checked.floorQuotient, Checked.unlessZero_of_ne (ne_of_gt double),
    Attempt.ok_bind, Int.fdiv_eq_ediv_of_nonneg _ double.le]
  have exact := Int.emod_add_mul_ediv (steps * 2 + grid.ln2) (grid.ln2 * 2)
  have rest := Int.emod_nonneg (steps * 2 + grid.ln2) (ne_of_gt double)
  have below := Int.emod_lt_of_pos (steps * 2 + grid.ln2) double
  refine ⟨_, rfl, ?_, ?_, ?_⟩
  · dsimp only
    omega
  · dsimp only
    linarith
  · dsimp only
    linarith

/-- The exponential of a number of steps is the sum of the series at the rest
that the reduction leaves, moved by the octaves that it takes off. -/
theorem exp_spec (Reason : Type) (positive : 0 < grid.ln2) (steps : Int) :
    ∃ reduced : Reduced, steps = reduced.multiple * grid.ln2 + reduced.rest ∧
      -grid.ln2 ≤ 2 * reduced.rest ∧ 2 * reduced.rest < grid.ln2 ∧
      ∀ factor, (grid.exp steps : Attempt Reason Int) = .ok factor ↔
        ∃ sum, (exponentialTail grid.scale reduced.rest grid.scale grid.scale 1 :
            Attempt Reason Int) = .ok sum ∧
          moved sum reduced.multiple = factor := by
  rcases reduce_spec Reason positive steps with ⟨reduced, found, exact, above, below⟩
  refine ⟨reduced, exact, above, below, ?_⟩
  intro factor
  simp only [exp, found, Attempt.ok_bind, Attempt.bind_eq_ok]
  cases reduced.multiple <;> simp [moved]

end Grid

end FixedPoint

def Scaling.indexGrowth (scaling : Scaling) : Rat :=
  (scaling.largestIndex : Rat) / scaling.initialIndex

/-- A largest yield is the exponential, less one, of the logarithm of the growth
over the years. -/
theorem largestYield_eq_ok {grid : FixedPoint.Grid} {scaling : Scaling} {horizon : Horizon}
    (someInitial : 0 < scaling.initialIndex) (someYears : 0 < horizon.years)
    {largest : LargestYield} :
    largestYield scaling horizon grid = .ok largest ↔
      ∃ logarithm factor, grid.ln scaling.indexGrowth = .ok logarithm ∧
        (grid.exp ((logarithm * horizon.years.den).tdiv horizon.years.num) : Verdict Int) =
          .ok factor ∧
        LargestYield.mk (grid.value ((logarithm * horizon.years.den).tdiv horizon.years.num))
          (grid.value (factor - grid.scale)) = largest := by
  have denominator : (scaling.initialIndex : Int) ≠ 0 := by omega
  have years : horizon.years.num ≠ 0 := ne_of_gt (Rat.num_pos.mpr someYears)
  have growth : Rat.divInt scaling.largestIndex scaling.initialIndex = scaling.indexGrowth := by
    rw [Rat.divInt_eq_div, Int.cast_natCast, Int.cast_natCast, Scaling.indexGrowth]
  simp only [largestYield, Checked.fraction, Checked.truncatedQuotient,
    Checked.unlessZero_of_ne denominator, Checked.unlessZero_of_ne years, Attempt.ok_bind,
    Attempt.bind_eq_ok, Attempt.pure_eq_ok, growth]
  constructor
  · intro found
    rcases found with ⟨logarithm, foundLogarithm, factor, foundFactor, same⟩
    exact ⟨logarithm, factor, foundLogarithm, foundFactor, same⟩
  · intro found
    rcases found with ⟨logarithm, factor, foundLogarithm, foundFactor, same⟩
    exact ⟨logarithm, foundLogarithm, factor, foundFactor, same⟩

end PackedLedger
