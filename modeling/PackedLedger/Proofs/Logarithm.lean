import PackedLedger.Proofs.GridStages

namespace PackedLedger

namespace FixedPoint

/-!
# Logarithms and exponentials have values

On a grid of a million digits or fewer the counters of both series are far from
the end of their word, and the logarithm of two is positive and at most three
quarters.  The first makes the logarithm of every positive rational exist.  The
second makes the reduction of an exponent leave at most three eighths of one, so
that every exponential exists too.
-/

variable {Reason : Type}

/-- A grid on which both series end in time and the reduction by the logarithm
of two leaves a small rest. -/
structure Grid.Sound (grid : Grid) : Prop where
  ln2_pos : 0 < grid.ln2
  ln2_le : 4 * grid.ln2 ≤ 3 * grid.scale
  ends : ∃ rounds, grid.scale < 9 ^ rounds ∧ 4 * rounds + 3 < Checked.wordLimit

theorem powerOfTen_lt_nine_pow {digits : Nat} (someDigits : 0 < digits) :
    powerOfTen digits < 9 ^ (2 * digits) := by
  rw [powerOfTen_eq, Nat.pow_mul]
  exact Nat.pow_lt_pow_left (by decide) (Nat.ne_of_gt someDigits)

/-- Up to a thousand million digits the series of the logarithm of two ends before
its counter does. -/
theorem Grid.ofDigits_total (Reason : Type) {digits : Nat} (few : digits ≤ 10 ^ 9) :
    ∃ grid, (Grid.ofDigits digits : Attempt Reason Grid) = .ok grid ∧
      grid.scale = powerOfTen (digits + guardDigits) ∧
      0 < grid.ln2 ∧ 4 * grid.ln2 ≤ 3 * grid.scale := by
  have carried : digits + guardDigits < Checked.wordLimit := by
    unfold guardDigits Checked.wordLimit
    omega
  have rounds : 2 * (2 * (digits + guardDigits)) + 3 < Checked.wordLimit := by
    unfold guardDigits Checked.wordLimit
    omega
  have ends := powerOfTen_lt_nine_pow (Nat.add_pos_right digits (by decide : 0 < guardDigits))
  have ten : 10 ^ 1 ≤ powerOfTen (digits + guardDigits) :=
    Nat.pow_le_pow_right (by decide) (Nat.le_add_left 1 (digits + 9))
  have third : 3 * ((powerOfTen (digits + guardDigits) / 3 : Nat) : Int) ≤
      powerOfTen (digits + guardDigits) := by omega
  rcases inverseTangent_spec Reason ends rounds (Int.natCast_nonneg _) third with
    ⟨half, found, above, below⟩
  refine ⟨⟨powerOfTen (digits + guardDigits), half * 2, powerOfTen_pos _⟩, ?_, rfl, ?_, ?_⟩
  · rw [ofDigits, Checked.wordSum_of_lt carried]
    exact Attempt.bind_eq_ok.mpr ⟨_, rfl, Attempt.bind_eq_ok.mpr ⟨half, found, rfl⟩⟩
  · dsimp only
    omega
  · dsimp only
    omega

theorem Grid.ofDigits_sound (Reason : Type) {digits : Nat} (few : digits ≤ 10 ^ 6) :
    ∃ grid, (Grid.ofDigits digits : Attempt Reason Grid) = .ok grid ∧ grid.Sound := by
  rcases ofDigits_total Reason (few.trans (by decide)) with ⟨grid, found, scale, someLn2, part⟩
  have ends := powerOfTen_lt_nine_pow (Nat.add_pos_right digits (by decide : 0 < guardDigits))
  rw [← scale] at ends
  refine ⟨grid, found, someLn2, part, _, ends, ?_⟩
  unfold guardDigits Checked.wordLimit
  omega

namespace Grid

variable {grid : Grid}

/-! ## Logarithms -/

theorem ln_spec (sound : grid.Sound) {value : Rat} (positive : 0 < value) :
    ∃ steps, grid.ln value = .ok steps ∧
      grid.ln2 * (Octave.of grid.scale value).exponent ≤ steps := by
  have fits := Octave.of_fits grid.scale_pos positive
  rcases fits.argument_spec grid.scale_pos with ⟨nonneg, small⟩
  rcases sound.ends with ⟨rounds, ends, word⟩
  rcases inverseTangent_spec Rejection ends (by omega) nonneg small with ⟨half, found, above, _⟩
  exact ⟨_, (ln_eq_ok positive).mpr ⟨half, found, rfl⟩, by omega⟩

/-- The decimal logarithm of a positive rational exists, since that of ten is
not zero. -/
theorem log10_total (sound : grid.Sound) {value : Rat} (positive : 0 < value) :
    ∃ logarithm, grid.log10 value = .ok logarithm := by
  have ten : (0 : Rat) < 10 := by norm_num
  rcases ln_spec sound positive with ⟨numerator, found, _⟩
  rcases ln_spec sound ten with ⟨denominator, foundTen, above⟩
  have exponent : 1 ≤ (Octave.of grid.scale 10).exponent := by
    rw [(Octave.of_fits grid.scale_pos ten).le_exponent_iff]
    norm_num
  have someDenominator : denominator ≠ 0 := by
    have product : grid.ln2 * 1 ≤ grid.ln2 * (Octave.of grid.scale 10).exponent :=
      Int.mul_le_mul_of_nonneg_left exponent sound.ln2_pos.le
    have positiveLn2 := sound.ln2_pos
    omega
  exact ⟨_, by simp [log10, found, foundTen, someDenominator]; rfl⟩

/-! ## Exponentials -/

/-- The series of an exponential ends in time at every exponent of at most a half. -/
theorem exponentialTail_of_sound (Reason : Type) (sound : grid.Sound) {exponent : Int}
    (small : 2 * exponent.natAbs ≤ grid.scale) :
    ∃ sum, (exponentialTail grid.scale exponent grid.scale grid.scale 1 : Attempt Reason Int) =
      .ok sum := by
  rcases sound.ends with ⟨rounds, ends, word⟩
  have bounded : (grid.scale : Int).natAbs < 2 ^ (4 * rounds) := by
    rw [Int.natAbs_natCast, Nat.pow_mul]
    exact Nat.lt_of_lt_of_le ends (Nat.pow_le_pow_left (by decide) rounds)
  exact exponentialTail_total Reason grid.scale_pos small (4 * rounds) grid.scale grid.scale 1
    Nat.one_pos bounded (by omega)

theorem exp_total (Reason : Type) (sound : grid.Sound) (steps : Int) :
    ∃ factor, (grid.exp steps : Attempt Reason Int) = .ok factor := by
  rcases exp_spec Reason sound.ln2_pos steps with ⟨reduced, _, above, below, foundIff⟩
  have part := sound.ln2_le
  have small : 2 * reduced.rest.natAbs ≤ grid.scale := by omega
  rcases exponentialTail_of_sound Reason sound small with ⟨sum, foundSum⟩
  exact ⟨_, (foundIff _).mpr ⟨sum, foundSum, rfl⟩⟩

end Grid

end FixedPoint

/-- The largest yield of an index that holds anything exists, over any horizon
that is not over. -/
theorem largestYield_total {grid : FixedPoint.Grid} (sound : grid.Sound) {scaling : Scaling}
    {horizon : Horizon} (someInitial : 0 < scaling.initialIndex)
    (someLargest : 0 < scaling.largestIndex) (someYears : 0 < horizon.years) :
    ∃ largest, largestYield scaling horizon grid = .ok largest := by
  have growth : 0 < scaling.indexGrowth :=
    div_pos (Nat.cast_pos.mpr someLargest) (Nat.cast_pos.mpr someInitial)
  rcases FixedPoint.Grid.ln_spec sound growth with ⟨logarithm, found, _⟩
  rcases FixedPoint.Grid.exp_total Rejection sound
    ((logarithm * horizon.years.den).tdiv horizon.years.num) with ⟨factor, foundFactor⟩
  exact ⟨_, (largestYield_eq_ok someInitial someYears).mpr
    ⟨logarithm, factor, found, foundFactor, rfl⟩⟩

/-!
## The order of logarithms

Every number on the way to a logarithm is rounded: the mantissa, the argument of
the series, each power and each term.  Where the series ends depends on the
argument as well.  None of this disturbs the order.  Of two series the one with
the larger argument has the larger terms, and where it ends the other one has
ended.  So no series outlasts that of the logarithm of two, and every logarithm
of a grid exists, whatever its digits.  At the seam of two octaves the lower one
adds at most one logarithm of two, and the upper one takes none away.  A power of
two only moves the octave, so it adds its logarithms of two exactly.
-/

namespace FixedPoint

variable {scale : Nat}

/-! ### The order of two sums -/

section Tangent

variable {Reason : Type} {lowSquare highSquare : Int}

/-- One round keeps the order of two powers, and with it that of their terms. -/
theorem nextTerm_mono (positive : 0 < scale) (nonneg : 0 ≤ lowSquare)
    (squares : lowSquare ≤ highSquare) {lowPower highPower : Int} (count : Nat)
    (somePower : 0 ≤ lowPower) (powers : lowPower ≤ highPower) :
    0 ≤ (lowPower * lowSquare).tdiv scale ∧
      (lowPower * lowSquare).tdiv scale ≤ (highPower * highSquare).tdiv scale ∧
      0 ≤ ((lowPower * lowSquare).tdiv scale).tdiv ((count + 2 : Nat) : Int) ∧
      ((lowPower * lowSquare).tdiv scale).tdiv ((count + 2 : Nat) : Int) ≤
        ((highPower * highSquare).tdiv scale).tdiv ((count + 2 : Nat) : Int) := by
  have steps : (0 : Int) < scale := Int.natCast_pos.mpr positive
  have products : lowPower * lowSquare ≤ highPower * highSquare :=
    Int.mul_le_mul powers squares nonneg (Int.le_trans somePower powers)
  have someNext : 0 ≤ (lowPower * lowSquare).tdiv scale :=
    Int.tdiv_nonneg (Int.mul_nonneg somePower nonneg) steps.le
  have nexts := Int.tdiv_le_tdiv steps products
  exact ⟨someNext, nexts, Int.tdiv_nonneg someNext (Int.natCast_nonneg _),
    Int.tdiv_le_tdiv (Int.natCast_pos.mpr (Nat.succ_pos _)) nexts⟩

/-- Where the larger sum has no further term, the smaller one has none either, and
until then each of its terms is at most the term of the other.  So it exists as
soon as the larger one does. -/
theorem tangentTail_mono (positive : 0 < scale) (nonneg : 0 ≤ lowSquare)
    (squares : lowSquare ≤ highSquare) (small : 9 * highSquare ≤ scale)
    (highPower highSum : Int) (count : Nat) {highResult : Int}
    (highFound : (tangentTail scale highSquare highPower highSum count : Attempt Reason Int) =
      .ok highResult) :
    ∀ lowPower lowSum : Int, 0 ≤ lowPower -> lowPower ≤ highPower -> lowSum ≤ highSum ->
      ∃ lowResult,
        (tangentTail scale lowSquare lowPower lowSum count : Attempt Reason Int) = .ok lowResult ∧
          lowResult ≤ highResult := by
  have someSquare : 0 ≤ highSquare := Int.le_trans nonneg squares
  induction highPower, highSum, count using tangentTail.induct scale highSquare with
  | case1 highPower highSum count next fits term zero =>
      intro lowPower lowSum somePower powers sums
      rcases nextTerm_mono positive nonneg squares count somePower powers with
        ⟨_, _, someTerm, terms⟩
      rw [tangentTail, if_pos fits, if_pos zero] at highFound
      cases highFound
      rw [tangentTail, if_pos fits, if_pos (Int.le_antisymm (terms.trans zero.le) someTerm)]
      exact ⟨lowSum, rfl, sums⟩
  | case2 highPower highSum count next fits term moves inductionHypothesis =>
      intro lowPower lowSum somePower powers sums
      rcases nextTerm_mono positive nonneg squares count somePower powers with
        ⟨someNext, nexts, someTerm, terms⟩
      rw [tangentTail, if_pos fits, if_neg moves] at highFound
      rw [tangentTail, if_pos fits]
      dsimp only
      split
      · rcases tangentTail_bounds positive someSquare small _ _ _ (someNext.trans nexts)
          highFound with ⟨above, _⟩
        exact ⟨lowSum, rfl, by omega⟩
      · exact inductionHypothesis highFound _ _ someNext nexts (Int.add_le_add sums terms)
  | case3 highPower highSum count overflow =>
      rw [tangentTail, if_neg overflow] at highFound
      cases highFound

/-- Up to a third the inverse hyperbolic tangent on the grid keeps the order of
its arguments, and exists below every argument that has one. -/
theorem inverseTangent_mono (positive : 0 < scale) {low high highResult : Int}
    (nonneg : 0 ≤ low) (ordered : low ≤ high) (small : 3 * high ≤ scale)
    (highFound : (inverseTangent scale high : Attempt Reason Int) = .ok highResult) :
    ∃ lowResult, (inverseTangent scale low : Attempt Reason Int) = .ok lowResult ∧
      lowResult ≤ highResult := by
  have steps : (0 : Int) < scale := Int.natCast_pos.mpr positive
  have products : low * low ≤ high * high :=
    Int.mul_le_mul ordered ordered nonneg (nonneg.trans ordered)
  exact tangentTail_mono positive (tangentSquare_spec positive nonneg (by omega)).1
    (Int.tdiv_le_tdiv steps products)
    (tangentSquare_spec positive (nonneg.trans ordered) small).2 high high 1 highFound low low
    nonneg ordered ordered

theorem inverseTangent_zero (scale : Nat) :
    (inverseTangent scale 0 : Attempt Reason Int) = .ok 0 := by
  rw [inverseTangent, Int.mul_zero, Int.zero_tdiv, tangentTail, if_pos (by decide), Int.mul_zero,
    Int.zero_tdiv, Int.zero_tdiv, if_pos rfl]

end Tangent

/-! ### Octaves and arguments -/

namespace Octave

/-- Only one octave fits a value. -/
theorem Fits.unique {first second : Octave} {value : Rat} (fits : first.Fits scale value)
    (also : second.Fits scale value) : first = second := by
  have exponent : first.exponent = second.exponent :=
    Int.le_antisymm (also.le_exponent_iff.mpr fits.reaches)
      (fits.le_exponent_iff.mpr also.reaches)
  have mantissa : first.mantissa = second.mantissa := by
    rw [fits.mantissa, also.mantissa, exponent]
  cases first
  cases second
  cases exponent
  cases mantissa
  rfl

theorem of_two_zpow (someScale : 0 < scale) (exponent : Int) :
    of scale (2 ^ exponent) = ⟨exponent, scale⟩ := by
  have power : (0 : Rat) < 2 ^ exponent := zpow_pos two_pos _
  apply (of_fits someScale power).unique
  refine ⟨le_refl _, zpow_lt_zpow_right₀ one_lt_two (Int.lt_succ _), ?_⟩
  rw [mul_div_cancel_left₀ _ power.ne', Nat.floor_natCast]

/-- A power of two moves the octave of a value and keeps its mantissa. -/
theorem of_mul_two_zpow (someScale : 0 < scale) {value : Rat} (positive : 0 < value)
    (shift : Int) :
    of scale (value * 2 ^ shift) =
      ⟨(of scale value).exponent + shift, (of scale value).mantissa⟩ := by
  have power : (0 : Rat) < 2 ^ shift := zpow_pos two_pos _
  have fits := of_fits someScale positive
  generalize of scale value = octave at fits ⊢
  apply (of_fits someScale (mul_pos positive power)).unique
  refine ⟨?_, ?_, ?_⟩
  · rw [zpow_add₀ two_ne_zero]
    exact mul_le_mul_of_nonneg_right fits.reaches power.le
  · rw [add_right_comm, zpow_add₀ two_ne_zero]
    exact mul_lt_mul_of_pos_right fits.below power
  · rw [fits.mantissa, zpow_add₀ two_ne_zero, mul_right_comm, mul_div_mul_right _ _ power.ne']

/-- A larger mantissa has the larger argument. -/
theorem argument_mono {low high : Octave} (positive : 0 < scale) (least : scale ≤ low.mantissa)
    (ordered : low.mantissa ≤ high.mantissa) : low.argument scale ≤ high.argument scale := by
  have lowNumerator : 0 ≤ ((low.mantissa : Int) - scale) * scale :=
    Int.mul_nonneg (by omega) (Int.natCast_nonneg _)
  have highNumerator : 0 ≤ ((high.mantissa : Int) - scale) * scale :=
    Int.mul_nonneg (by omega) (Int.natCast_nonneg _)
  have lowSum : 0 < (low.mantissa : Int) + scale := by omega
  have highSum : 0 < (high.mantissa : Int) + scale := by omega
  have fits : ((low.mantissa : Int) + scale) * low.argument scale ≤
      ((low.mantissa : Int) - scale) * scale := Int.mul_tdiv_self_le lowNumerator
  unfold argument at fits ⊢
  rw [Int.tdiv_eq_ediv_of_nonneg highNumerator,
    Int.le_ediv_iff_mul_le highSum]
  apply Int.le_of_mul_le_mul_right _ lowSum
  have crossed : ((low.mantissa : Int) - scale) * scale * (high.mantissa + scale) ≤
      ((high.mantissa : Int) - scale) * scale * (low.mantissa + scale) := by
    have product : 0 ≤ ((high.mantissa : Int) - low.mantissa) * (scale * scale) :=
      Int.mul_nonneg (by omega) (Int.natCast_nonneg _)
    linarith
  have widened := Int.mul_le_mul_of_nonneg_right fits highSum.le
  linarith

end Octave

/-! ### Logarithms -/

namespace Grid

variable {grid : Grid}

section Third

variable (third : grid.HasThird)
include third

theorem HasThird.ln2_nonneg : 0 ≤ grid.ln2 := by
  rcases third with ⟨half, found, twice⟩
  rcases inverseTangent_bounds grid.scale_pos (Int.natCast_nonneg _) (by omega) found with
    ⟨above, _⟩
  omega

theorem HasThird.exists_half {argument : Int} (nonneg : 0 ≤ argument)
    (small : 3 * argument ≤ grid.scale) :
    ∃ half, (inverseTangent grid.scale argument : Verdict Int) = .ok half ∧
      half * 2 ≤ grid.ln2 := by
  rcases third with ⟨whole, found, twice⟩
  have ordered : argument ≤ ((grid.scale / 3 : Nat) : Int) := by omega
  rcases inverseTangent_mono grid.scale_pos nonneg ordered (by omega) found with
    ⟨half, foundHalf, halves⟩
  exact ⟨half, foundHalf, by omega⟩

theorem HasThird.ln_total {value : Rat} (positive : 0 < value) :
    ∃ steps, grid.ln value = .ok steps := by
  have fits := Octave.of_fits grid.scale_pos positive
  rcases fits.argument_spec grid.scale_pos with ⟨nonneg, small⟩
  rcases third.exists_half nonneg small with ⟨half, found, _⟩
  exact ⟨_, (ln_eq_ok positive).mpr ⟨half, found, rfl⟩⟩

/-- A logarithm on the grid lies in its octave: the mantissa adds something
between nothing and one logarithm of two. -/
theorem ln_octave_bounds {value : Rat} (positive : 0 < value) {steps : Int}
    (found : grid.ln value = .ok steps) :
    grid.ln2 * (Octave.of grid.scale value).exponent ≤ steps ∧
      steps ≤ grid.ln2 * ((Octave.of grid.scale value).exponent + 1) := by
  have fits := Octave.of_fits grid.scale_pos positive
  rcases (ln_eq_ok positive).mp found with ⟨half, foundHalf, rfl⟩
  rcases fits.argument_spec grid.scale_pos with ⟨nonneg, small⟩
  rcases inverseTangent_bounds grid.scale_pos nonneg small foundHalf with ⟨above, _⟩
  rcases third.exists_half nonneg small with ⟨same, foundSame, most⟩
  cases foundHalf.symm.trans foundSame
  rw [Int.mul_add, Int.mul_one]
  omega

theorem ln_mono {low high : Rat} (positive : 0 < low) (ordered : low ≤ high)
    {lowSteps highSteps : Int} (lowFound : grid.ln low = .ok lowSteps)
    (highFound : grid.ln high = .ok highSteps) : lowSteps ≤ highSteps := by
  have highPositive : 0 < high := positive.trans_le ordered
  have lowFits := Octave.of_fits grid.scale_pos positive
  have highFits := Octave.of_fits grid.scale_pos highPositive
  have exponents := highFits.le_exponent_iff.mpr (lowFits.reaches.trans ordered)
  rcases lt_or_eq_of_le exponents with below | same
  · -- The seam: the whole of the lower octave is below the start of the upper one.
    calc
      lowSteps ≤ grid.ln2 * ((Octave.of grid.scale low).exponent + 1) :=
        (ln_octave_bounds third positive lowFound).2
      _ ≤ grid.ln2 * (Octave.of grid.scale high).exponent :=
        Int.mul_le_mul_of_nonneg_left below third.ln2_nonneg
      _ ≤ highSteps := (ln_octave_bounds third highPositive highFound).1
  · have mantissas :
        (Octave.of grid.scale low).mantissa ≤ (Octave.of grid.scale high).mantissa := by
      rw [lowFits.mantissa, highFits.mantissa, same]
      apply Nat.floor_le_floor
      apply div_le_div_of_nonneg_right _ (zpow_pos two_pos _).le
      exact mul_le_mul_of_nonneg_right ordered (Nat.cast_nonneg _)
    have arguments := Octave.argument_mono grid.scale_pos lowFits.scale_le mantissas
    rcases (ln_eq_ok positive).mp lowFound with ⟨lowHalf, foundLow, rfl⟩
    rcases (ln_eq_ok highPositive).mp highFound with ⟨highHalf, foundHigh, rfl⟩
    rcases inverseTangent_mono grid.scale_pos (lowFits.argument_spec grid.scale_pos).1 arguments
      (highFits.argument_spec grid.scale_pos).2 foundHigh with ⟨again, foundAgain, halves⟩
    cases foundLow.symm.trans foundAgain
    rw [same]
    omega

end Third

theorem ln_two_zpow (grid : Grid) (exponent : Int) :
    grid.ln (2 ^ exponent) = .ok (grid.ln2 * exponent) := by
  have octave := Octave.of_two_zpow grid.scale_pos exponent
  rw [ln_eq_ok (zpow_pos two_pos exponent), octave, Octave.argument, Int.sub_self, Int.zero_mul,
    Int.zero_tdiv]
  exact ⟨0, inverseTangent_zero _, Int.add_zero _⟩

theorem ln_one (grid : Grid) : grid.ln 1 = .ok 0 := by
  have power := grid.ln_two_zpow 0
  rwa [zpow_zero, Int.mul_zero] at power

theorem ln_two (grid : Grid) : grid.ln 2 = .ok grid.ln2 := by
  have power := grid.ln_two_zpow 1
  rwa [zpow_one, Int.mul_one] at power

theorem ln_mul_two_zpow {value : Rat} (positive : 0 < value) {steps : Int}
    (found : grid.ln value = .ok steps) (shift : Int) :
    grid.ln (value * 2 ^ shift) = .ok (steps + shift * grid.ln2) := by
  rcases (ln_eq_ok positive).mp found with ⟨half, foundHalf, rfl⟩
  have power : (0 : Rat) < 2 ^ shift := zpow_pos two_pos _
  rw [ln_eq_ok (mul_pos positive power), Octave.of_mul_two_zpow grid.scale_pos positive]
  refine ⟨half, foundHalf, ?_⟩
  dsimp only
  ring

/-- The logarithms of a grid exist, keep the order of their arguments, vanish at one
and are exact on octaves, all as whole numbers of steps. -/
structure OrdersLogarithms (grid : Grid) : Prop where
  mono : ∀ low high : Rat, 0 < low -> low ≤ high ->
    ∃ lowSteps highSteps, grid.ln low = .ok lowSteps ∧ grid.ln high = .ok highSteps ∧
      lowSteps ≤ highSteps
  one : grid.ln 1 = .ok 0
  octaves : ∀ (value : Rat) (shift : Int), 0 < value ->
    ∃ steps two, grid.ln value = .ok steps ∧ grid.ln 2 = .ok two ∧
      grid.ln (value * 2 ^ shift) = .ok (steps + shift * two)
  nonpos : ∀ value : Rat, 0 < value -> value ≤ 1 -> ∃ steps, grid.ln value = .ok steps ∧ steps ≤ 0
  nonneg : ∀ value : Rat, 1 ≤ value -> ∃ steps, grid.ln value = .ok steps ∧ 0 ≤ steps

/-- Whatever its digits, every grid that can be built orders its logarithms, and up
to a thousand million digits one can be. -/
theorem ofDigits_orders_logarithms (digits : Nat) :
    (digits ≤ 10 ^ 9 -> ∃ grid, (ofDigits digits : Verdict Grid) = .ok grid) ∧
      ∀ grid, (ofDigits digits : Verdict Grid) = .ok grid -> grid.OrdersLogarithms := by
  constructor
  · intro few
    rcases ofDigits_total Rejection few with ⟨grid, found, _⟩
    exact ⟨grid, found⟩
  · intro grid found
    rcases ofDigits_eq_ok found with ⟨_, third⟩
    refine ⟨?_, grid.ln_one, ?_, ?_, ?_⟩
    · intro low high positive ordered
      rcases third.ln_total positive with ⟨lowSteps, lowFound⟩
      rcases third.ln_total (positive.trans_le ordered) with ⟨highSteps, highFound⟩
      exact ⟨lowSteps, highSteps, lowFound, highFound,
        ln_mono third positive ordered lowFound highFound⟩
    · intro value shift positive
      rcases third.ln_total positive with ⟨steps, foundSteps⟩
      exact ⟨steps, grid.ln2, foundSteps, grid.ln_two, ln_mul_two_zpow positive foundSteps shift⟩
    · intro value positive atMostOne
      rcases third.ln_total positive with ⟨steps, foundSteps⟩
      exact ⟨steps, foundSteps, ln_mono third positive atMostOne foundSteps grid.ln_one⟩
    · intro value atLeastOne
      rcases third.ln_total (zero_lt_one.trans_le atLeastOne) with ⟨steps, foundSteps⟩
      exact ⟨steps, foundSteps, ln_mono third zero_lt_one atLeastOne grid.ln_one foundSteps⟩

/-- On twenty digits the logarithm of a third is below zero, and that of eight thirds
is exactly three octaves above it. -/
theorem ofDigits_orders_logarithms_thirds :
    ∃ grid third eight two, (ofDigits 20 : Verdict Grid) = .ok grid ∧
      grid.ln (1 / 3) = .ok third ∧ third ≤ 0 ∧ grid.ln 2 = .ok two ∧
      grid.ln (8 / 3) = .ok eight ∧ eight = third + 3 * two ∧ 0 ≤ eight := by
  rcases ofDigits_orders_logarithms 20 with ⟨existsGrid, orders⟩
  rcases existsGrid (by decide) with ⟨grid, built⟩
  have ordered := orders grid built
  have eightThirds : (1 / 3 : Rat) * 2 ^ (3 : Int) = 8 / 3 := by norm_num
  rcases ordered.octaves (1 / 3) 3 (by norm_num) with ⟨third, two, found, foundTwo, moved⟩
  rcases ordered.nonpos (1 / 3) (by norm_num) (by norm_num) with ⟨_, again, nonpos⟩
  cases found.symm.trans again
  rcases ordered.nonneg (8 / 3) (by norm_num) with ⟨eight, foundEight, nonneg⟩
  rw [eightThirds] at moved
  cases moved.symm.trans foundEight
  exact ⟨grid, third, _, two, built, found, nonpos, foundTwo, foundEight, rfl, nonneg⟩

end Grid

end FixedPoint

end PackedLedger
