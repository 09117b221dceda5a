import PackedLedger.Proofs.Coherence
import PackedLedger.Proofs.IndexMoves

namespace PackedLedger

/-!
# A scaler with room for twice the largest index

A sample is evidence and no proof, except where the scaler is so large that no
step can be lost.  Twice the largest index, in steps of the accrual scaler, is
enough.  A step up from an index pays for itself when the scaler, times what the
step adds, covers the product of the two indices: then the quotients differ by a
whole unit.  Inside the domain the product is covered because the successor stays
below the largest index; at the lower end because the first index is a multiple
of the accrual scaler; at the upper end because the last step adds at least its
share of the largest index.
-/

namespace Scaling

variable {scaling : Scaling} {scaler index : Nat}

/-- The scaler is at least twice the largest index, in steps of the accrual
scaler. -/
def HasRoom (scaling : Scaling) : Prop :=
  ((2 * scaling.accrualScaler * scaling.largestIndex : Nat) : Rat) ≤ scaling.borrowsScaler

instance (scaling : Scaling) : Decidable scaling.HasRoom :=
  inferInstanceAs (Decidable (_ ≤ _))

theorem HasRoom.le_floor (room : scaling.HasRoom) :
    2 * scaling.accrualScaler * scaling.largestIndex ≤ scaling.borrowsScalerFloor := by
  rw [borrowsScalerFloor_eq]
  exact Nat.le_floor room

theorem v1_hasRoom (found : ofAllocation Generation.v1.allocation = .ok scaling) :
    scaling.HasRoom := by
  have computed : Attempt.Holds (ofAllocation Generation.v1.allocation) HasRoom := by
    decide +kernel
  rcases computed with ⟨other, also, room⟩
  cases found.symm.trans also
  exact room

theorem quotient_lt_of_paid {next : Nat} (positive : 0 < index) (ordered : index ≤ next)
    (paid : index * next ≤ scaler * (next - index)) : scaler / next < scaler / index := by
  apply quotient_lt_of_fall positive (Nat.lt_of_lt_of_le positive ordered)
  rw [Nat.mul_sub] at paid
  have whole := Nat.mul_le_mul_left scaler ordered
  omega

theorem quotient_grow_lt_of_paid (moves : scaling.accrualScaler ≤ index)
    (paid : index * scaling.grow index ≤ scaler * scaling.increment index) :
    scaler / scaling.grow index < scaler / index := by
  have positive : 0 < index := Nat.lt_of_lt_of_le scaling.accrualScaler_pos moves
  have added : scaling.grow index - index = scaling.increment index :=
    Nat.add_sub_cancel_left _ _
  apply quotient_lt_of_paid positive (scaling.le_grow index)
  rw [added]
  exact paid

theorem le_double_increment (moves : scaling.accrualScaler ≤ index) :
    index ≤ 2 * scaling.accrualScaler * scaling.increment index := by
  have least : 1 ≤ scaling.increment index := Nat.div_pos moves scaling.accrualScaler_pos
  have below := scaling.lt_nextMultiple index
  have again : scaling.accrualScaler * 1 ≤ scaling.accrualScaler * scaling.increment index :=
    Nat.mul_le_mul_left _ least
  linarith

variable (room : 2 * scaling.accrualScaler * scaling.largestIndex ≤ scaler)
include room

theorem quotient_grow_lt_of_room (moves : scaling.accrualScaler ≤ index)
    (inside : index ≤ scaling.shrink scaling.largestIndex) :
    scaler / scaling.grow index < scaler / index := by
  apply quotient_grow_lt_of_paid moves
  calc
    index * scaling.grow index ≤
        2 * scaling.accrualScaler * scaling.increment index * scaling.largestIndex :=
      Nat.mul_le_mul (le_double_increment moves) (grow_le_of_le_shrink inside)
    _ = 2 * scaling.accrualScaler * scaling.largestIndex * scaling.increment index :=
      Nat.mul_right_comm _ _ _
    _ ≤ scaler * scaling.increment index := Nat.mul_le_mul_right _ room

/-- A multiple of the accrual scaler may step beyond the domain, up to twice the
largest index. -/
theorem quotient_grow_lt_of_dvd (moves : scaling.accrualScaler ≤ index)
    (multiple : scaling.accrualScaler ∣ index) (below : index ≤ scaling.largestIndex) :
    scaler / scaling.grow index < scaler / index := by
  have exact : scaling.accrualScaler * scaling.increment index = index :=
    Nat.mul_div_cancel' multiple
  have double : scaling.grow index ≤ 2 * scaling.largestIndex :=
    (scaling.grow_le_double index).trans (Nat.mul_le_mul_left 2 below)
  apply quotient_grow_lt_of_paid moves
  calc
    index * scaling.grow index ≤
        scaling.accrualScaler * scaling.increment index * (2 * scaling.largestIndex) := by
      rw [exact]
      exact Nat.mul_le_mul_left _ double
    _ = 2 * scaling.accrualScaler * scaling.largestIndex * scaling.increment index := by ring
    _ ≤ scaler * scaling.increment index := Nat.mul_le_mul_right _ room

theorem quotient_lt_shrink_of_room (two : 2 ≤ scaling.largestIndex) :
    scaler / scaling.largestIndex < scaler / scaling.shrink scaling.largestIndex := by
  have less := scaling.shrink_lt (Nat.lt_of_lt_of_le Nat.two_pos two)
  have accrual := scaling.accrualScaler_pos
  apply quotient_lt_of_paid (scaling.shrink_pos two) less.le
  have share : scaling.largestIndex ≤
      (scaling.accrualScaler + 1) *
        (scaling.largestIndex - scaling.shrink scaling.largestIndex) := by
    have top := scaling.shrink_mul_le scaling.largestIndex
    have whole := Nat.sub_add_cancel less.le
    generalize scaling.largestIndex - scaling.shrink scaling.largestIndex = gap at whole
    generalize scaling.shrink scaling.largestIndex = before at top whole
    rw [← whole] at top ⊢
    linarith
  calc
    scaling.shrink scaling.largestIndex * scaling.largestIndex ≤
        scaling.largestIndex * scaling.largestIndex := Nat.mul_le_mul_right _ less.le
    _ ≤ scaling.largestIndex * ((scaling.accrualScaler + 1) *
          (scaling.largestIndex - scaling.shrink scaling.largestIndex)) :=
      Nat.mul_le_mul_left _ share
    _ ≤ 2 * scaling.accrualScaler * scaling.largestIndex *
          (scaling.largestIndex - scaling.shrink scaling.largestIndex) := by
      rw [← Nat.mul_assoc, Nat.mul_comm scaling.largestIndex]
      exact Nat.mul_le_mul_right _ (Nat.mul_le_mul_right _ (by omega))
    _ ≤ scaler * (scaling.largestIndex - scaling.shrink scaling.largestIndex) :=
      Nat.mul_le_mul_right _ room

end Scaling

namespace Envelope

variable {allocation : Allocation} {assetDecimals bits now : Nat}
  {parameters lifetime : Parameters} {horizon : Horizon} {envelope : Envelope}

theorem Coherent.scaler_dvd_initial (coherent : envelope.Coherent)
    (constants : Scaling.ofAllocation allocation = .ok envelope.scaling) :
    envelope.scaling.accrualScaler ∣ envelope.scaling.initialIndex := by
  rcases Scaling.ofAllocation_eq_ok.mp constants with ⟨index, _, _, _, _, _, _, same⟩
  have ordered := coherent.scaler_le_initial
  rw [← same] at ordered ⊢
  exact Nat.pow_dvd_pow 10 ((Nat.pow_le_pow_iff_right (by decide)).mp ordered)

/-- With room for twice the largest index, every step of a derived envelope
separates: the first, the last and all between them. -/
theorem Coherent.separates_of_room (coherent : envelope.Coherent)
    (constants : Scaling.ofAllocation allocation = .ok envelope.scaling)
    (second : envelope.scaling.grow envelope.scaling.initialIndex = envelope.secondIndex)
    (penultimate : envelope.scaling.shrink envelope.scaling.largestIndex =
      envelope.penultimateIndex) (room : envelope.scaling.HasRoom) {sweep : Sweep}
    (found : Sweep.ofAllocation allocation envelope = .ok sweep) :
    sweep.Separates sweep.scaling.initialIndex sweep.secondIndex ∧
      sweep.Separates sweep.penultimateIndex sweep.scaling.largestIndex ∧
      ∀ index, sweep.InDomain index -> sweep.Separates index (sweep.scaling.grow index) := by
  have nonneg := Scaling.borrowsScaler_nonneg constants
  have enough := room.le_floor
  have moves := coherent.scaler_le_initial
  have someInitial := Nat.lt_of_lt_of_le envelope.scaling.accrualScaler_pos moves
  rcases Sweep.ofAllocation_eq_ok.mp found with ⟨_, _, _, _, rfl⟩
  refine ⟨?_, ?_, ?_⟩
  · apply (Sweep.separates_iff nonneg someInitial).mpr
    refine ⟨coherent.initial_lt_second, ?_⟩
    dsimp only
    rw [← second]
    exact Scaling.quotient_grow_lt_of_dvd enough moves (coherent.scaler_dvd_initial constants)
      coherent.initial_lt_largest.le
  · apply (Sweep.separates_iff nonneg coherent.penultimate_pos).mpr
    refine ⟨coherent.penultimate_lt_largest, ?_⟩
    dsimp only
    rw [← penultimate]
    have least := coherent.initial_lt_largest
    exact Scaling.quotient_lt_shrink_of_room enough (by omega)
  · intro index inside
    rcases inside with ⟨above, below⟩
    dsimp only at above below
    rw [← penultimate] at below
    apply (Sweep.separates_iff nonneg (Nat.lt_of_lt_of_le someInitial above)).mpr
    exact ⟨Scaling.lt_grow (moves.trans above),
      Scaling.quotient_grow_lt_of_room enough (moves.trans above) below⟩

/-- The first generation has room for twice its largest index, and with such
room the sweep of an envelope passes, whatever it draws: each of its steps, and
each step that it could draw, is visible. -/
theorem sweep_passes_of_room (built : Horizon.ofBits bits now lifetime = .ok horizon)
    (derived : ofAllocation allocation assetDecimals parameters horizon = .ok envelope) :
    (allocation = Generation.v1.allocation -> envelope.scaling.HasRoom) ∧
    (envelope.scaling.HasRoom ->
      ∃ sweep, Sweep.ofAllocation allocation envelope = .ok sweep ∧
        sweep.checkStep .lowerBoundary envelope.scaling.initialIndex envelope.secondIndex =
          .ok () ∧
        sweep.checkStep .upperBoundary envelope.penultimateIndex envelope.scaling.largestIndex =
          .ok () ∧
        (∀ origin index, envelope.scaling.initialIndex ≤ index ->
          index ≤ envelope.penultimateIndex ->
          sweep.checkStep origin index (envelope.scaling.grow index) = .ok ()) ∧
        ∀ samples seed, ∃ summary, (sweep.run samples seed).result = .ok summary) := by
  rcases ofAllocation_eq_ok.mp derived with ⟨grid, field, total, floor, ceiling, blocks, stages⟩
  have coherent := stages.coherent (Horizon.years_pos built)
  constructor
  · rintro rfl
    exact Scaling.v1_hasRoom stages.scaling_found
  · intro room
    rcases exists_sweep derived with ⟨index, account, _, found⟩
    rcases coherent.separates_of_room stages.scaling_found stages.second_found
      stages.penultimate_found room found with ⟨first, last, inside⟩
    refine ⟨_, found, Sweep.checkStep_eq_ok.mpr first, Sweep.checkStep_eq_ok.mpr last, ?_, ?_⟩
    · intro origin index above below
      exact Sweep.checkStep_eq_ok.mpr (inside index ⟨above, below⟩)
    · exact Sweep.Derived.run_of_everywhere
        (Sweep.checkBoundaries_eq_ok.mpr ⟨first, last⟩) inside

/-- The first generation at the default parameters. -/
theorem sweep_passes_of_room_first_generation :
    ∃ horizon envelope sweep, Horizon.ofBits 32 1700000000 {} = .ok horizon ∧
      ofAllocation Generation.v1.allocation 18 {} horizon = .ok envelope ∧
      envelope.scaling.HasRoom ∧
      Sweep.ofAllocation Generation.v1.allocation envelope = .ok sweep ∧
      ∀ samples seed, ∃ summary, (sweep.run samples seed).result = .ok summary := by
  have found : Attempt.Holds (Horizon.ofBits 32 1700000000 {}) fun horizon =>
      Attempt.Holds (ofAllocation Generation.v1.allocation 18 {} horizon) fun _ => True := by
    decide +kernel
  rcases found with ⟨horizon, built, envelope, derived, _⟩
  rcases sweep_passes_of_room built derived with ⟨first, passes⟩
  rcases passes (first rfl) with ⟨sweep, found, _, _, _, run⟩
  exact ⟨horizon, envelope, sweep, built, derived, first rfl, found, run⟩

end Envelope

end PackedLedger
