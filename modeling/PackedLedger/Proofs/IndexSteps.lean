import Mathlib.Tactic.Linarith
import Mathlib.Tactic.Ring
import PackedLedger.Allocation.Basic
import PackedLedger.Proofs.Compounding
import PackedLedger.Proofs.EnvelopeStages
import PackedLedger.Proofs.Visibility

namespace PackedLedger

/-!
# Steps between the ends of the index range

A sweep checks its ends and a sample, so whether the steps in between all
separate is a question of its own.  They never lose an index or gain base
units.  They separate wherever the scaler over the index falls by one whole
unit, which a bound on the index alone guarantees.  Where the fall is smaller
a step can stay between the same two whole numbers: passing ends do not exclude
that, and the second built-in layout has some such steps at its very top.
-/

namespace Scaling

/-- A fall by one whole unit shows in the rounded quotients. -/
theorem quotient_lt_of_fall {scaler index next : Nat} (positive : 0 < index)
    (later : 0 < next) (fall : index * next + scaler * index ≤ scaler * next) :
    scaler / next < scaler / index := by
  rw [← Nat.succ_le_iff, Nat.le_div_iff_mul_le positive]
  have quotient : scaler / next * next ≤ scaler := Nat.div_mul_le_self _ _
  apply Nat.le_of_mul_le_mul_right _ later
  calc
    (scaler / next).succ * index * next = scaler / next * next * index + index * next := by
      rw [Nat.succ_eq_add_one]
      ring
    _ ≤ scaler * index + index * next := Nat.add_le_add_right (Nat.mul_le_mul_right _ quotient) _
    _ ≤ scaler * next := by rw [Nat.add_comm]; exact fall

/-- Below this bound the scaler over the index falls by one whole unit. -/
theorem quotient_grow_lt {scaling : Scaling} {scaler index : Nat}
    (moves : scaling.accrualScaler ≤ index)
    (room : index * (scaling.accrualScaler + 1) +
      2 * scaling.accrualScaler * scaling.accrualScaler ≤ scaler) :
    scaler / scaling.grow index < scaler / index := by
  have positive : 0 < index := Nat.lt_of_lt_of_le scaling.accrualScaler_pos moves
  have least : 1 ≤ scaling.increment index := Nat.div_pos moves scaling.accrualScaler_pos
  have below := scaling.lt_nextMultiple index
  apply quotient_lt_of_fall positive (Nat.lt_trans positive (lt_grow moves))
  unfold grow
  generalize scaling.increment index = increment at least below
  generalize scaling.accrualScaler = accrual at room below
  have rest : index * index ≤
      index * (accrual * increment) + 2 * accrual * accrual * increment := by
    have next : index ≤ accrual * increment + accrual := by linarith
    have twice : index ≤ 2 * accrual * increment := by nlinarith
    nlinarith
  have paid := Nat.mul_le_mul_right increment room
  nlinarith

theorem shrink_mul_le (scaling : Scaling) (index : Nat) :
    scaling.shrink index * (scaling.accrualScaler + 1) ≤ index * scaling.accrualScaler :=
  Nat.div_mul_le_self _ _

end Scaling

namespace Sweep

variable {sweep : Sweep} {index : Nat}

/-- The indices that a sweep can draw. -/
def InDomain (sweep : Sweep) (index : Nat) : Prop :=
  sweep.scaling.initialIndex ≤ index ∧ index ≤ sweep.penultimateIndex

instance (sweep : Sweep) (index : Nat) : Decidable (sweep.InDomain index) :=
  inferInstanceAs (Decidable (_ ∧ _))

/-- What an envelope settles about its sweep. -/
structure Derived (sweep : Sweep) : Prop where
  nonneg : 0 ≤ sweep.scaling.borrowsScaler
  moves : sweep.scaling.accrualScaler ≤ sweep.scaling.initialIndex
  penultimate : sweep.scaling.shrink sweep.scaling.largestIndex = sweep.penultimateIndex

theorem ofAllocation_eq_ok {allocation : Allocation} {envelope : Envelope} :
    ofAllocation allocation envelope = .ok sweep ↔
      ∃ index account, allocation.withRole .borrowIndex = [index] ∧
        allocation.withRole .accountBorrows = [account] ∧
        Sweep.mk envelope.scaling index.name account.name envelope.secondIndex
          envelope.penultimateIndex = sweep := by
  simp [ofAllocation]

theorem derived_of_envelope {allocation : Allocation} {assetDecimals : Nat}
    {parameters : Parameters} {horizon : Horizon} {envelope : Envelope}
    (derived : Envelope.ofAllocation allocation assetDecimals parameters horizon = .ok envelope)
    (found : ofAllocation allocation envelope = .ok sweep) :
    Derived sweep ∧ Scaling.ofAllocation allocation = .ok sweep.scaling := by
  rcases Envelope.ofAllocation_eq_ok.mp derived with
    ⟨grid, field, total, floor, ceiling, blocks, stages⟩
  rcases ofAllocation_eq_ok.mp found with ⟨_, _, _, _, rfl⟩
  exact ⟨⟨Scaling.borrowsScaler_nonneg stages.scaling_found, stages.accrualScaler_le,
    stages.penultimate_found⟩, stages.scaling_found⟩

namespace Derived

theorem moves_inside (derived : Derived sweep) (inside : sweep.InDomain index) :
    sweep.scaling.accrualScaler ≤ index :=
  Nat.le_trans derived.moves inside.1

theorem positive_inside (derived : Derived sweep) (inside : sweep.InDomain index) : 0 < index :=
  Nat.lt_of_lt_of_le sweep.scaling.accrualScaler_pos (derived.moves_inside inside)

theorem separates_iff (derived : Derived sweep) (inside : sweep.InDomain index) :
    sweep.Separates index (sweep.scaling.grow index) ↔
      sweep.scaling.borrowsScalerFloor / sweep.scaling.grow index <
        sweep.scaling.borrowsScalerFloor / index := by
  rw [Sweep.separates_iff derived.nonneg (derived.positive_inside inside)]
  exact and_iff_right (Scaling.lt_grow (derived.moves_inside inside))

/-- A step separates exactly when a whole number of base units fits at the index
and no longer at its successor. -/
theorem separates_iff_exists_units (derived : Derived sweep) (inside : sweep.InDomain index) :
    sweep.Separates index (sweep.scaling.grow index) ↔
      ∃ units, units * index ≤ sweep.scaling.borrowsScalerFloor ∧
        sweep.scaling.borrowsScalerFloor < units * sweep.scaling.grow index := by
  have positive := derived.positive_inside inside
  have later := Nat.lt_trans positive (Scaling.lt_grow (derived.moves_inside inside))
  rw [derived.separates_iff inside]
  constructor
  · intro fewer
    exact ⟨_, Nat.div_mul_le_self _ _, (Nat.div_lt_iff_lt_mul later).mp fewer⟩
  · intro between
    rcases between with ⟨units, fits, outgrown⟩
    exact Nat.lt_of_lt_of_le ((Nat.div_lt_iff_lt_mul later).mpr outgrown)
      ((Nat.le_div_iff_mul_le positive).mpr fits)

/-- Inside the domain of a sweep whose ends separate, a step goes up, and one
amount unit is at least one base unit and never becomes more of them. -/
theorem step_weak (derived : Derived sweep) (ends : sweep.checkBoundaries = .ok ())
    (inside : sweep.InDomain index) :
    index < sweep.scaling.grow index ∧ ∃ before after, sweep.unitBase index = .ok before ∧
      sweep.unitBase (sweep.scaling.grow index) = .ok after ∧ after ≤ before ∧ 1 ≤ before := by
  have positive := derived.positive_inside inside
  have larger := Scaling.lt_grow (derived.moves_inside inside)
  have last := (checkBoundaries_eq_ok.mp ends).2
  have top := ((Sweep.separates_iff derived.nonneg last.positive).mp last).2
  have falls : sweep.scaling.borrowsScalerFloor / sweep.penultimateIndex ≤
      sweep.scaling.borrowsScalerFloor / index := Nat.div_le_div_left inside.2 positive
  exact ⟨larger, _, _, unitBase_eq derived.nonneg positive,
    unitBase_eq derived.nonneg (Nat.lt_trans positive larger),
    Nat.div_le_div_left (Nat.le_of_lt larger) positive, Nat.lt_of_lt_of_le
      (Nat.lt_of_le_of_lt (Nat.zero_le _) top) falls⟩

theorem separates_of_room (derived : Derived sweep) (inside : sweep.InDomain index)
    (room : index * (sweep.scaling.accrualScaler + 1) +
      2 * sweep.scaling.accrualScaler * sweep.scaling.accrualScaler ≤
        sweep.scaling.borrowsScalerFloor) :
    sweep.Separates index (sweep.scaling.grow index) :=
  (derived.separates_iff inside).mpr
    (Scaling.quotient_grow_lt (derived.moves_inside inside) room)

/-- A scaler with room for the largest index has room for the whole domain. -/
theorem separates_everywhere (derived : Derived sweep)
    (room : sweep.scaling.accrualScaler * sweep.scaling.largestIndex +
      2 * sweep.scaling.accrualScaler * sweep.scaling.accrualScaler ≤
        sweep.scaling.borrowsScalerFloor) (inside : sweep.InDomain index) :
    sweep.Separates index (sweep.scaling.grow index) := by
  apply derived.separates_of_room inside
  have top := sweep.scaling.shrink_mul_le sweep.scaling.largestIndex
  rw [derived.penultimate, Nat.mul_comm sweep.scaling.largestIndex] at top
  have below : index * (sweep.scaling.accrualScaler + 1) ≤
      sweep.penultimateIndex * (sweep.scaling.accrualScaler + 1) :=
    Nat.mul_le_mul_right _ inside.2
  omega

theorem run_of_everywhere (ends : sweep.checkBoundaries = .ok ())
    (everywhere : ∀ index, sweep.InDomain index ->
      sweep.Separates index (sweep.scaling.grow index)) (samples seed : Nat) :
    ∃ summary, (sweep.run samples seed).result = .ok summary := by
  apply run_eq_ok_iff.mpr
  refine ⟨ends, fun ordered position _ => ?_⟩
  have positive := (checkBoundaries_eq_ok.mp ends).1.positive
  rcases drawnAt_spec positive ordered position (.ofSeed seed) with ⟨index, drawn, inside⟩
  exact ⟨index, drawn, everywhere index inside⟩

/-- A sweep whose ends pass fails only by drawing a step that keeps its base
units, and says so. -/
theorem refused_at_kept_units (derived : Derived sweep) (ends : sweep.checkBoundaries = .ok ())
    {samples seed : Nat} {failure : Failure Rejection}
    (refused : (sweep.run samples seed).result = .error failure) :
    ∃ ordinal index before, ordinal < samples ∧ sweep.InDomain index ∧
      drawnAt sweep.scaling.initialIndex sweep.penultimateIndex ordinal (.ofSeed seed) =
        .ok index ∧
      sweep.unitBase index = .ok before ∧
      sweep.unitBase (sweep.scaling.grow index) = .ok before ∧
      failure = .refused (.quantization sweep.borrowsField
        (.baseUnits (.sample ordinal seed) index (sweep.scaling.grow index) before)) := by
  rcases exists_draw_of_refused ends refused with ⟨ordinal, index, less, above, below, drawn, check⟩
  have inside : sweep.InDomain index := ⟨above, below⟩
  have positive := derived.positive_inside inside
  have larger := Scaling.lt_grow (derived.moves_inside inside)
  rcases kept_of_checkStep_refused derived.nonneg positive larger check with
    ⟨base, before, after, reason⟩
  exact ⟨ordinal, index, base, less, inside, drawn, before, after, reason⟩

end Derived

/-! ## Steps that are lost -/

/-- The steps of a sweep that do not separate are those at the listed indices,
each of which can be drawn and is listed once. -/
structure LosesExactly (sweep : Sweep) (lost : List Nat) : Prop where
  inDomain : ∀ index ∈ lost, sweep.InDomain index
  nodup : lost.Nodup
  separates_iff : ∀ index, sweep.InDomain index ->
    (sweep.Separates index (sweep.scaling.grow index) ↔ index ∉ lost)

/-- The lowest index at which one amount unit is at most so many base units. -/
def lowestWith (scaler units : Nat) : Nat :=
  scaler / (units + 1) + 1

theorem lowestWith_le {scaler : Nat} (positive : 0 < index) :
    lowestWith scaler (scaler / index) ≤ index := by
  apply Nat.div_lt_of_lt_mul
  rw [Nat.mul_comm]
  exact Nat.lt_mul_div_succ scaler positive

/-- Where only the lowest index with its number of base units can keep them
over a step, an index that keeps them is that one. -/
theorem eq_lowestWith_of_kept {scaling : Scaling} {scaler : Nat} (positive : 0 < index)
    (kept : scaler / index ≤ scaler / scaling.grow index) (someUnits : 0 < scaler / index)
    (leaves : scaler / (scaler / index) <
      scaling.grow (lowestWith scaler (scaler / index) + 1)) :
    index = lowestWith scaler (scaler / index) := by
  apply Nat.le_antisymm _ (lowestWith_le positive)
  apply Nat.le_of_not_lt
  intro above
  have later : 0 < scaling.grow index := Nat.lt_of_lt_of_le positive (Nat.le_add_right _ _)
  have inside : scaling.grow index ≤ scaler / (scaler / index) := by
    rw [Nat.le_div_iff_mul_le someUnits, Nat.mul_comm]
    exact (Nat.le_div_iff_mul_le later).mp kept
  have outside := scaling.grow_mono (Nat.succ_le_of_lt above)
  exact absurd (Nat.lt_of_lt_of_le leaves (Nat.le_trans outside inside)) (Nat.lt_irrefl _)

/-! ## The built-in layouts -/

private def stepNumbers (scaling : Scaling) : Nat × Nat × Nat × Nat :=
  (scaling.accrualScaler, scaling.initialIndex, scaling.largestIndex, scaling.borrowsScalerFloor)

private theorem stepNumbers_of_computed {scaling : Scaling} {allocation : Allocation}
    {accrual initial largest scaler : Nat}
    (computed : (Scaling.ofAllocation allocation).map stepNumbers =
      .ok (accrual, initial, largest, scaler))
    (found : Scaling.ofAllocation allocation = .ok scaling) :
    scaling.accrualScaler = accrual ∧ scaling.initialIndex = initial ∧
      scaling.largestIndex = largest ∧ scaling.borrowsScalerFloor = scaler := by
  rw [found] at computed
  cases computed
  exact ⟨rfl, rfl, rfl, rfl⟩

/-- The scaler of the first generation has room for its whole index range. -/
theorem v1_room {scaling : Scaling}
    (found : Scaling.ofAllocation Generation.v1.allocation = .ok scaling) :
    scaling.accrualScaler * scaling.largestIndex +
      2 * scaling.accrualScaler * scaling.accrualScaler ≤ scaling.borrowsScalerFloor := by
  have computed : (Scaling.ofAllocation Generation.v1.allocation).map stepNumbers =
      .ok (1000000000000, 1000000000000, 1208925819614629174706175,
        5192296858534827628530496329220096000000000232) := by decide +kernel
  rcases stepNumbers_of_computed computed found with ⟨accrual, _, largest, scaler⟩
  rw [accrual, largest, scaler]
  decide

def v2Scaler : Nat := 4722366482869645213696000000000000

/-- The indices of the second generation whose step keeps its base units. -/
def v2Lost : List Nat :=
  ((List.range 500).map fun offset => lowestWith v2Scaler (1000000000000 + offset)).filter
    fun index => index ≤ 4722366482864922847212 ∧
      v2Scaler / index ≤ v2Scaler / (index + index / 1000000000000)

theorem v2Lost_length : v2Lost.length = 41 := by decide +kernel

theorem v2Lost_nodup : v2Lost.Nodup := by decide +kernel

theorem v2Lost_high : ∀ index ∈ v2Lost, 4722366481948783749716 ≤ index := by decide +kernel

theorem v2Lost_low (listed : index ∈ v2Lost) : index ≤ 4722366482864922847212 :=
  (of_decide_eq_true (List.mem_filter.mp listed).2).1

private theorem v2_leaves : ∀ offset, offset < 500 ->
    v2Scaler / (1000000000000 + offset) <
      lowestWith v2Scaler (1000000000000 + offset) + 1 +
        (lowestWith v2Scaler (1000000000000 + offset) + 1) / 1000000000000 := by
  decide +kernel

private theorem v2_numbers {scaling : Scaling}
    (found : Scaling.ofAllocation Generation.v2.allocation = .ok scaling) :
    scaling.accrualScaler = 1000000000000 ∧ scaling.initialIndex = 1000000000000 ∧
      scaling.largestIndex = 4722366482869645213695 ∧ scaling.borrowsScalerFloor = v2Scaler :=
  stepNumbers_of_computed (by decide +kernel) found

private theorem v2_inDomain_iff (derived : Derived sweep)
    (found : Scaling.ofAllocation Generation.v2.allocation = .ok sweep.scaling) :
    sweep.InDomain index ↔ 1000000000000 ≤ index ∧ index ≤ 4722366482864922847212 := by
  rcases v2_numbers found with ⟨accrual, initial, largest, _⟩
  have last : sweep.penultimateIndex = 4722366482864922847212 := by
    rw [← derived.penultimate, Scaling.shrink, accrual, largest]
  rw [InDomain, initial, last]

/-- An index of the second generation that keeps its base units is so high that
they exceed the accrual scaler by less than five hundred. -/
private theorem v2_units_of_kept (derived : Derived sweep)
    (found : Scaling.ofAllocation Generation.v2.allocation = .ok sweep.scaling)
    (inside : sweep.InDomain index)
    (kept : v2Scaler / index ≤ v2Scaler / sweep.scaling.grow index) :
    1000000000000 ≤ v2Scaler / index ∧ v2Scaler / index < 1000000000500 := by
  have accrual := (v2_numbers found).1
  have top := ((v2_inDomain_iff derived found).mp inside).2
  have high : v2Scaler < index * 1000000000001 + 2000000000000000000000000 := by
    apply Nat.lt_of_not_le
    intro room
    have fewer : v2Scaler / sweep.scaling.grow index < v2Scaler / index :=
      Scaling.quotient_grow_lt (derived.moves_inside inside) (by rw [accrual]; exact room)
    exact Nat.not_le_of_lt fewer kept
  constructor
  · rw [Nat.le_div_iff_mul_le (derived.positive_inside inside), v2Scaler]
    linarith
  · apply Nat.div_lt_of_lt_mul
    rw [v2Scaler] at high ⊢
    linarith

theorem v2_not_separates_iff (derived : Derived sweep)
    (found : Scaling.ofAllocation Generation.v2.allocation = .ok sweep.scaling)
    (inside : sweep.InDomain index) :
    ¬ sweep.Separates index (sweep.scaling.grow index) ↔ index ∈ v2Lost := by
  rcases v2_numbers found with ⟨accrual, _, _, scaler⟩
  have grow : ∀ index, sweep.scaling.grow index = index + index / 1000000000000 := by
    intro index
    rw [Scaling.grow, Scaling.increment, accrual]
  have top := ((v2_inDomain_iff derived found).mp inside).2
  have positive := derived.positive_inside inside
  rw [derived.separates_iff inside, Nat.not_lt, scaler]
  constructor
  · intro kept
    rcases v2_units_of_kept derived found inside kept with ⟨least, most⟩
    have units : 1000000000000 + (v2Scaler / index - 1000000000000) = v2Scaler / index :=
      Nat.add_sub_cancel' least
    have leaves := v2_leaves (v2Scaler / index - 1000000000000) (by omega)
    rw [units, ← grow] at leaves
    have lowest := eq_lowestWith_of_kept positive kept (by omega) leaves
    apply List.mem_filter.mpr
    constructor
    · apply List.mem_map.mpr
      refine ⟨v2Scaler / index - 1000000000000, List.mem_range.mpr (by omega), ?_⟩
      rw [units]
      exact lowest.symm
    · rw [grow] at kept
      exact decide_eq_true ⟨top, kept⟩
  · intro listed
    have kept := of_decide_eq_true (List.mem_filter.mp listed).2
    rw [grow]
    exact kept.2

theorem v2_losesExactly (derived : Derived sweep)
    (found : Scaling.ofAllocation Generation.v2.allocation = .ok sweep.scaling) :
    sweep.LosesExactly v2Lost where
  inDomain index listed := by
    apply (v2_inDomain_iff derived found).mpr
    exact ⟨Nat.le_trans (by decide) (v2Lost_high index listed), v2Lost_low listed⟩
  nodup := v2Lost_nodup
  separates_iff index inside := by
    rw [← v2_not_separates_iff derived found inside, Classical.not_not]

/-! ## Passing ends and the steps between them -/

/-- The sweep of an allocation for an asset, seen from a reference time. -/
def ofCandidate (allocation : Allocation) (assetDecimals : Nat) (parameters : Parameters)
    (now : Nat) : Verdict Sweep := do
  let horizon ← Horizon.ofAllocation allocation now parameters
  let envelope ← Envelope.ofAllocation allocation assetDecimals parameters horizon
  ofAllocation allocation envelope

theorem exists_of_ofCandidate {allocation : Allocation} {assetDecimals now : Nat}
    {parameters : Parameters} {test : Sweep -> Prop}
    (holds : Attempt.Holds (ofCandidate allocation assetDecimals parameters now) test) :
    ∃ horizon envelope sweep,
      Envelope.ofAllocation allocation assetDecimals parameters horizon = .ok envelope ∧
        ofAllocation allocation envelope = .ok sweep ∧ test sweep := by
  rcases holds with ⟨sweep, value, passes⟩
  rcases Attempt.bind_eq_ok.mp value with ⟨horizon, _, rest⟩
  rcases Attempt.bind_eq_ok.mp rest with ⟨envelope, derived, found⟩
  exact ⟨horizon, envelope, sweep, derived, found, passes⟩

/-- A pool whose index has four bits.  Four of its steps can be drawn. -/
def narrowAllocation : Allocation where
  name := "narrow"
  slots :=
    [⟨"pool", 40,
       [⟨"totalBorrows", 4, some 1, .totalBorrows⟩, ⟨"borrowIndex", 4, some 1, .borrowIndex⟩,
        ⟨"time", 32, none, .timestamp⟩]⟩,
     ⟨"accounts", 6, [⟨"borrows", 6, none, .accountBorrows⟩]⟩]
  accrualPrecision := 1

/-- Requirements that the narrow pool meets, with one block a year. -/
def narrowParameters : Parameters where
  minOrder := 0
  apyFloor := ⟨0, 1⟩
  apyCeiling := ⟨1, 1⟩
  secondsPerBlock := 31536000

/-- Ends that separate do not make the steps between them separate.  The second
generation passes at both ends, and yet one of its indices and the successor
stand for the same base units.  On a narrow pool the second draw already finds
such a step. -/
theorem passing_ends_leave_lost_steps :
    (∃ horizon envelope sweep,
      Envelope.ofAllocation Generation.v2.allocation 18 {} horizon = .ok envelope ∧
        ofAllocation Generation.v2.allocation envelope = .ok sweep ∧
        sweep.checkBoundaries = .ok () ∧
        sweep.InDomain 4722366482860200480731 ∧
        sweep.unitBase 4722366482860200480731 = .ok 1000000000001 ∧
        sweep.unitBase (sweep.scaling.grow 4722366482860200480731) = .ok 1000000000001) ∧
    ∃ horizon envelope sweep,
      Envelope.ofAllocation narrowAllocation 0 narrowParameters horizon = .ok envelope ∧
        ofAllocation narrowAllocation envelope = .ok sweep ∧
        sweep.checkBoundaries = .ok () ∧
        (sweep.run 10 0).result = .error (.refused (.quantization "borrows"
          (.baseUnits (.sample 1 0) 13 14 3))) := by
  have wide : Attempt.Holds (ofCandidate Generation.v2.allocation 18 {} 1700000000)
      fun sweep => sweep.checkBoundaries = .ok () ∧ sweep.InDomain 4722366482860200480731 ∧
        sweep.unitBase 4722366482860200480731 = .ok 1000000000001 ∧
        sweep.unitBase (sweep.scaling.grow 4722366482860200480731) = .ok 1000000000001 := by
    decide +kernel
  have narrow : Attempt.Holds (ofCandidate narrowAllocation 0 narrowParameters 1700000000)
      fun sweep => sweep.checkBoundaries = .ok () ∧
        (sweep.run 10 0).result = .error (.refused (.quantization "borrows"
          (.baseUnits (.sample 1 0) 13 14 3))) := by
    decide +kernel
  exact ⟨exists_of_ofCandidate wide, exists_of_ofCandidate narrow⟩

/-- What ends that separate settle about the steps between them. -/
structure InteriorSteps (allocation : Allocation) (sweep : Sweep) : Prop where
  /-- A step goes up. -/
  rises : ∀ index, sweep.InDomain index -> index < sweep.scaling.grow index
  /-- It never gains base units, of which one amount unit always is at least one. -/
  never_gains : ∀ index, sweep.InDomain index -> ∃ before after,
    sweep.unitBase index = .ok before ∧ sweep.unitBase (sweep.scaling.grow index) = .ok after ∧
      after ≤ before ∧ 1 ≤ before
  /-- It separates exactly when a whole number of base units fits at the index
  and not at its successor, -/
  separates_iff : ∀ index, sweep.InDomain index ->
    (sweep.Separates index (sweep.scaling.grow index) ↔
      ∃ units, units * index ≤ sweep.scaling.borrowsScalerFloor ∧
        sweep.scaling.borrowsScalerFloor < units * sweep.scaling.grow index)
  /-- and so wherever the index leaves room under the scaler. -/
  separates_of_room : ∀ index, sweep.InDomain index ->
    index * (sweep.scaling.accrualScaler + 1) +
        2 * sweep.scaling.accrualScaler * sweep.scaling.accrualScaler ≤
      sweep.scaling.borrowsScalerFloor ->
    sweep.Separates index (sweep.scaling.grow index)
  /-- With room for the largest index, as on the first generation, no step is
  lost and no sweep can fail. -/
  all_pass_of_room :
    sweep.scaling.accrualScaler * sweep.scaling.largestIndex +
        2 * sweep.scaling.accrualScaler * sweep.scaling.accrualScaler ≤
      sweep.scaling.borrowsScalerFloor ∨ allocation = Generation.v1.allocation ->
    (∀ index, sweep.InDomain index -> sweep.Separates index (sweep.scaling.grow index)) ∧
      ∀ samples seed, ∃ summary, (sweep.run samples seed).result = .ok summary
  /-- The second generation loses forty-one steps at the top of its domain and no other. -/
  second_generation : allocation = Generation.v2.allocation ->
    ∃ lost : List Nat, sweep.LosesExactly lost ∧ lost.length = 41 ∧
      ∀ index ∈ lost, 4722366481948783749716 ≤ index
  /-- A sweep that fails has drawn a step that keeps its base units, and names it. -/
  fails_at_kept_units : ∀ samples seed failure,
    (sweep.run samples seed).result = .error failure ->
    ∃ ordinal index before, ordinal < samples ∧ sweep.InDomain index ∧
      drawnAt sweep.scaling.initialIndex sweep.penultimateIndex ordinal (.ofSeed seed) =
        .ok index ∧
      sweep.unitBase index = .ok before ∧
      sweep.unitBase (sweep.scaling.grow index) = .ok before ∧
      failure = .refused (.quantization sweep.borrowsField
        (.baseUnits (.sample ordinal seed) index (sweep.scaling.grow index) before))

/-- Between ends that separate, the steps of a derived sweep are not all visible,
but they rise, never gain base units, and are lost only where the scaler is short. -/
theorem interior_steps_separate {allocation : Allocation} {assetDecimals : Nat}
    {parameters : Parameters} {horizon : Horizon} {envelope : Envelope} {sweep : Sweep}
    (derived : Envelope.ofAllocation allocation assetDecimals parameters horizon = .ok envelope)
    (found : ofAllocation allocation envelope = .ok sweep)
    (ends : sweep.checkBoundaries = .ok ()) : InteriorSteps allocation sweep := by
  rcases derived_of_envelope derived found with ⟨settled, constants⟩
  constructor
  case rises =>
    intro index inside
    exact (settled.step_weak ends inside).1
  case never_gains =>
    intro index inside
    exact (settled.step_weak ends inside).2
  case separates_iff =>
    intro index inside
    exact settled.separates_iff_exists_units inside
  case separates_of_room =>
    intro index inside
    exact settled.separates_of_room inside
  case all_pass_of_room =>
    intro roomy
    have room : sweep.scaling.accrualScaler * sweep.scaling.largestIndex +
        2 * sweep.scaling.accrualScaler * sweep.scaling.accrualScaler ≤
          sweep.scaling.borrowsScalerFloor := by
      rcases roomy with room | firstGeneration
      · exact room
      · rw [firstGeneration] at constants
        exact v1_room constants
    have everywhere := fun index => @Derived.separates_everywhere sweep index settled room
    exact ⟨everywhere, Derived.run_of_everywhere ends everywhere⟩
  case second_generation =>
    intro secondGeneration
    rw [secondGeneration] at constants
    exact ⟨v2Lost, v2_losesExactly settled constants, v2Lost_length, v2Lost_high⟩
  case fails_at_kept_units =>
    intro samples seed failure refused
    exact settled.refused_at_kept_units ends refused

/-- Both built-in layouts have a sweep whose ends separate at the default
parameters. -/
theorem interior_steps_separate_builtin :
    (∃ horizon envelope sweep,
      Envelope.ofAllocation Generation.v1.allocation 18 {} horizon = .ok envelope ∧
        ofAllocation Generation.v1.allocation envelope = .ok sweep ∧
        sweep.checkBoundaries = .ok () ∧
        ∀ samples seed, ∃ summary, (sweep.run samples seed).result = .ok summary) ∧
    ∃ horizon envelope sweep,
      Envelope.ofAllocation Generation.v2.allocation 18 {} horizon = .ok envelope ∧
        ofAllocation Generation.v2.allocation envelope = .ok sweep ∧
        sweep.checkBoundaries = .ok () ∧
        ∃ lost : List Nat, sweep.LosesExactly lost ∧ lost.length = 41 ∧
          ∀ index ∈ lost, 4722366481948783749716 ≤ index := by
  have first : Attempt.Holds (ofCandidate Generation.v1.allocation 18 {} 1700000000)
      fun sweep => sweep.checkBoundaries = .ok () := by decide +kernel
  have second : Attempt.Holds (ofCandidate Generation.v2.allocation 18 {} 1700000000)
      fun sweep => sweep.checkBoundaries = .ok () := by decide +kernel
  rcases exists_of_ofCandidate first with ⟨horizon, envelope, sweep, derived, found, ends⟩
  rcases exists_of_ofCandidate second with ⟨horizon', envelope', sweep', derived', found', ends'⟩
  refine ⟨⟨horizon, envelope, sweep, derived, found, ends, ?_⟩,
    ⟨horizon', envelope', sweep', derived', found', ends', ?_⟩⟩
  · exact ((interior_steps_separate derived found ends).all_pass_of_room (.inr rfl)).2
  · exact (interior_steps_separate derived' found' ends').second_generation rfl

end Sweep

end PackedLedger
