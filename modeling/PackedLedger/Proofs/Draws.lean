import PackedLedger.Proofs.Attempt
import PackedLedger.Proofs.Magnitude
import PackedLedger.Sweep

namespace PackedLedger

/-!
# Draws stay in their range

A draw takes as many words off the stream as it needs, and after the last
attempt the lowest value stands in, so a draw from a range that is not empty
has a value, and that value lies in the range.  For the index of a sweep this
holds whenever the domain is not empty: the octave of a bit length between those
of the ends meets the domain.
-/

namespace Random

variable {Reason : Type}

theorem WordStream.nextDouble_lt (stream : WordStream) :
    stream.nextDouble.1 < powerOfTwo 64 := by
  have low := stream.next.1.toNat_lt
  have high := stream.next.2.next.1.toNat_lt
  simp [WordStream.nextDouble]
  omega

theorem multiplyHigh_lt {span : Nat} (positive : 0 < span) (zone left : Nat)
    (stream : WordStream) : (multiplyHigh span zone left stream).1 < span := by
  induction left generalizing stream with
  | zero => exact positive
  | succ left inductionHypothesis =>
      simp only [multiplyHigh]
      split
      · have word := stream.nextDouble_lt
        apply Nat.div_lt_of_lt_mul
        exact Nat.mul_lt_mul_of_pos_right word positive
      · exact inductionHypothesis _

theorem drawBetween_spec (Reason : Type) {low high : Nat} (ordered : low ≤ high)
    (stream : WordStream) :
    ∃ value rest, (drawBetween low high stream : Attempt Reason _) = .ok (value, rest) ∧
      low ≤ value ∧ value ≤ high := by
  have inside := multiplyHigh_lt (Nat.succ_pos (high - low))
    ((high - low + 1) * powerOfTwo (64 - bitLength (high - low + 1)) - 1) attempts stream
  rw [drawBetween, if_pos ordered]
  dsimp only
  generalize multiplyHigh (high - low + 1) _ attempts stream = drawn at inside ⊢
  exact ⟨low + drawn.1, drawn.2, rfl, Nat.le_add_right _ _, by omega⟩

theorem rejectAbove_lt {bound : Nat} (positive : 0 < bound) (left : Nat) (stream : WordStream) :
    (rejectAbove bound left stream).1 < bound := by
  induction left generalizing stream with
  | zero => exact positive
  | succ left inductionHypothesis =>
      simp only [rejectAbove]
      split
      · assumption
      · exact inductionHypothesis _

theorem drawBelow_spec (Reason : Type) {low high : Nat} (nonempty : low < high)
    (stream : WordStream) :
    ∃ value rest, (drawBelow low high stream : Attempt Reason _) = .ok (value, rest) ∧
      low ≤ value ∧ value < high := by
  have inside := rejectAbove_lt (Nat.sub_pos_of_lt nonempty) attempts stream
  rw [drawBelow, if_pos nonempty]
  generalize rejectAbove (high - low) attempts stream = drawn at inside ⊢
  exact ⟨low + drawn.1, drawn.2, rfl, Nat.le_add_right _ _, by omega⟩

theorem drawBelow_inside {low high value : Nat} {stream rest : WordStream}
    (found : (drawBelow low high stream : Attempt Reason _) = .ok (value, rest)) :
    low ≤ value ∧ value < high := by
  by_cases nonempty : low < high
  · rcases drawBelow_spec Reason nonempty stream with ⟨same, _, again, inside⟩
    cases found.symm.trans again
    exact inside
  · rw [drawBelow, if_neg nonempty] at found
    cases found

end Random

namespace Sweep

variable {Reason : Type}

theorem le_octaveLow (low bits : Nat) : low ≤ octaveLow low bits :=
  Nat.le_max_left _ _

theorem octaveHigh_le (high bits : Nat) : octaveHigh high bits ≤ high :=
  Nat.min_le_left _ _

/-- The octave of a bit length between those of the ends meets the domain. -/
theorem octaveLow_le_octaveHigh {low high bits : Nat} (positive : 0 < low) (ordered : low ≤ high)
    (lower : bitLength low ≤ bits) (upper : bits ≤ bitLength high) :
    octaveLow low bits ≤ octaveHigh high bits := by
  have length : 0 < bits := Nat.lt_of_lt_of_le (bitLength_pos positive) lower
  have fits : low < powerOfTwo bits := bitLength_le_iff.mp lower
  have reaches : powerOfTwo (bits - 1) ≤ high := lt_bitLength_iff.mp (by omega)
  have grows : powerOfTwo (bits - 1) < powerOfTwo bits :=
    Nat.pow_lt_pow_right (by decide) (by omega)
  have top := fieldMaximum_add_one bits
  unfold octaveLow octaveHigh
  omega

/-- A draw from a domain that is not empty has an index, and the index is one of
the domain. -/
theorem drawIndex_spec (Reason : Type) {low high : Nat} (positive : 0 < low)
    (ordered : low ≤ high) (stream : Random.WordStream) :
    ∃ index rest, (drawIndex low high stream : Attempt Reason _) = .ok (index, rest) ∧
      low ≤ index ∧ index ≤ high := by
  rcases Random.drawBetween_spec Reason (bitLength_mono ordered) stream with
    ⟨bits, middle, length, lower, upper⟩
  have meets := octaveLow_le_octaveHigh positive ordered lower upper
  rcases Random.drawBelow_spec Reason (Nat.lt_succ_of_le meets) middle with
    ⟨index, rest, found, above, below⟩
  have least : 1 ≤ bits := Nat.le_trans (bitLength_pos positive) lower
  refine ⟨index, rest, ?_, ?_, ?_⟩
  · simpa [drawIndex, length, least] using found
  · exact Nat.le_trans (le_octaveLow low bits) above
  · exact Nat.le_trans (Nat.le_of_lt_succ below) (octaveHigh_le high bits)

theorem drawIndex_inside {low high index : Nat} {stream rest : Random.WordStream}
    (found : (drawIndex low high stream : Attempt Reason _) = .ok (index, rest)) :
    low ≤ index ∧ index ≤ high := by
  rcases Attempt.bind_eq_ok.mp found with ⟨⟨bits, middle⟩, _, others⟩
  rcases Attempt.bind_eq_ok.mp others with ⟨_, _, drawn⟩
  rcases Random.drawBelow_inside drawn with ⟨above, below⟩
  exact ⟨Nat.le_trans (le_octaveLow low bits) above,
    Nat.le_trans (Nat.le_of_lt_succ below) (octaveHigh_le high bits)⟩

/-- The index of the draw at `position` of a stream. -/
def drawnAt (low high : Nat) : Nat -> Random.WordStream -> Verdict Nat
  | 0, stream => do
    let (index, _) ← drawIndex low high stream
    return index
  | position + 1, stream => do
    let (_, stream) ← drawIndex low high stream
    drawnAt low high position stream

theorem drawnAt_zero {low high index : Nat} {stream rest : Random.WordStream}
    (found : (drawIndex low high stream : Verdict _) = .ok (index, rest)) :
    drawnAt low high 0 stream = .ok index := by
  rw [drawnAt, found]
  rfl

theorem drawnAt_succ {low high index : Nat} {stream rest : Random.WordStream}
    (found : (drawIndex low high stream : Verdict _) = .ok (index, rest)) (position : Nat) :
    drawnAt low high (position + 1) stream = drawnAt low high position rest := by
  rw [drawnAt, found]
  rfl

/-- What a stream draws at any position lies in the domain. -/
theorem drawnAt_inside {low high position index : Nat} {stream : Random.WordStream}
    (drawn : drawnAt low high position stream = .ok index) : low ≤ index ∧ index ≤ high := by
  induction position generalizing stream with
  | zero =>
      rcases Attempt.bind_eq_ok.mp drawn with ⟨⟨first, rest⟩, found, same⟩
      cases Attempt.pure_eq_ok.mp same
      exact drawIndex_inside found
  | succ position inductionHypothesis =>
      rcases Attempt.bind_eq_ok.mp drawn with ⟨⟨first, rest⟩, _, later⟩
      exact inductionHypothesis later

/-- Every draw of a stream has an index of the domain. -/
theorem drawnAt_spec {low high : Nat} (positive : 0 < low) (ordered : low ≤ high)
    (position : Nat) (stream : Random.WordStream) :
    ∃ index, drawnAt low high position stream = .ok index ∧ low ≤ index ∧ index ≤ high := by
  induction position generalizing stream with
  | zero =>
      rcases drawIndex_spec Rejection positive ordered stream with ⟨index, rest, found, inside⟩
      exact ⟨index, drawnAt_zero found, inside⟩
  | succ position inductionHypothesis =>
      rcases drawIndex_spec Rejection positive ordered stream with ⟨index, rest, found, _⟩
      rw [drawnAt_succ found]
      exact inductionHypothesis rest

end Sweep

end PackedLedger
