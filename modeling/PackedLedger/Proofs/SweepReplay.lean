import Mathlib.Logic.ExistsUnique
import Mathlib.Order.Bounds.Basic
import PackedLedger.Proofs.IndexSteps

namespace PackedLedger

/-!
# A sweep can be replayed from its seed

The stream of a sweep runs through all its draws, and one draw may take any number of
words off it.  Still the index at a position depends on the seed and the domain alone:
neither the number of samples nor the checks before it have a part in it.  So the verdict
on a draw is a function of the seed and the position, a sweep ends after the first draw
that is refused, and a longer sweep repeats a shorter one.  What the observer hears is
settled by two numbers, those of all draws and of the draws that passed.
-/

/-! ## What a refusal says -/

/-- Where the tested index of a lost step came from, if one was tested. -/
def LostStep.origin? : LostStep -> Option Origin
  | initialIndex _ | interest => none
  | flatIndex origin _ | baseUnits origin _ _ _ => some origin

/-- A lost step is told from the origin of its index on. -/
theorem LostStep.exists_text {step : LostStep} {origin : Origin}
    (tested : step.origin? = some origin) : ∃ closing, step.text = origin.text ++ closing := by
  cases step with
  | initialIndex index => cases tested
  | interest => cases tested
  | flatIndex same index =>
      cases tested
      refine ⟨s!" index {index} does not grow", ?_⟩
      simp only [text, String.append_assoc]
      rfl
  | baseUnits same index next before =>
      cases tested
      refine ⟨s!" index {index} -> {next} leaves base units at {before}", ?_⟩
      simp only [text, String.append_assoc]
      rfl

/-- The message of a rejection contains a text. -/
def Rejection.Mentions (text : String) (reason : Rejection) : Prop :=
  ∃ opening closing, reason.message = opening ++ text ++ closing

theorem Rejection.mentions_origin (field : String) {step : LostStep} {origin : Origin}
    (tested : step.origin? = some origin) : (quantization field step).Mentions origin.text := by
  rcases LostStep.exists_text tested with ⟨closing, told⟩
  have whole : (quantization field step).message =
      "`" ++ field ++ "` should change with the smallest change in borrow index (" ++ step.text ++
        ")" := rfl
  refine ⟨"`" ++ field ++ "` should change with the smallest change in borrow index (",
    closing ++ ")", ?_⟩
  simp only [whole, told, String.append_assoc]

namespace Sweep

variable {sweep : Sweep} {seed samples passed position : Nat}

/-- A step from a positive index passes, or is refused with the origin of the index. -/
theorem refused_with_origin {origin : Origin} {index next : Nat} {failure : Failure Rejection}
    (positive : 0 < index) (refused : sweep.checkStep origin index next = .error failure) :
    ∃ field step, failure = .refused (.quantization field step) ∧ step.origin? = some origin := by
  unfold checkStep at refused
  by_cases flat : next ≤ index
  · rw [if_pos flat] at refused
    cases refused
    exact ⟨_, _, rfl, rfl⟩
  · rw [if_neg flat] at refused
    rcases sweep.unitBase_total positive with ⟨before, first⟩
    rcases sweep.unitBase_total (positive.trans (Nat.lt_of_not_le flat)) with ⟨after, second⟩
    simp only [first, second, Attempt.ok_bind] at refused
    by_cases kept : before ≤ after
    · rw [if_pos kept] at refused
      cases refused
      exact ⟨_, _, rfl, rfl⟩
    · rw [if_neg kept] at refused
      cases refused

/-! ## Draws and their verdicts -/

/-- The verdict on the draw at a position of the stream of a seed. -/
def checkDraw (sweep : Sweep) (seed position : Nat) : Verdict Unit := do
  let index ← drawnAt sweep.scaling.initialIndex sweep.penultimateIndex position (.ofSeed seed)
  sweep.checkStep (.sample position seed) index (sweep.scaling.grow index)

theorem checkDraw_eq_ok :
    sweep.checkDraw seed position = .ok () ↔ sweep.DrawSeparates (.ofSeed seed) position := by
  simp [checkDraw, DrawSeparates]

/-- A sweep of so many samples ends after so many of them have passed: after all, or
before the first that does not pass. -/
structure EndsAfter (sweep : Sweep) (seed samples passed : Nat) : Prop where
  le_samples : passed ≤ samples
  before : ∀ position, position < passed -> sweep.checkDraw seed position = .ok ()
  ended : passed = samples ∨ sweep.checkDraw seed passed ≠ .ok ()

/-- The positions of a sweep of so many samples that do not pass. -/
def failing (sweep : Sweep) (seed samples : Nat) : Set Nat :=
  {position | position < samples ∧ sweep.checkDraw seed position ≠ .ok ()}

theorem failing_isLeast_of_le {fewer more : Nat} (fewerLe : fewer ≤ more)
    (first : IsLeast (failing sweep seed fewer) position) :
    IsLeast (failing sweep seed more) position := by
  refine ⟨⟨first.1.1.trans_le fewerLe, first.1.2⟩, ?_⟩
  intro other failed
  rcases Nat.lt_or_ge other fewer with less | beyond
  · exact first.2 ⟨less, failed.2⟩
  · exact first.1.1.le.trans beyond

namespace EndsAfter

theorem le_of_ended {other : Nat} (left : EndsAfter sweep seed samples passed)
    (right : EndsAfter sweep seed samples other) : passed ≤ other := by
  apply Nat.le_of_not_lt
  intro less
  rcases right.ended with all | failed
  · exact absurd left.le_samples (Nat.not_le.mpr (all ▸ less))
  · exact failed (left.before other less)

theorem unique {other : Nat} (left : EndsAfter sweep seed samples passed)
    (right : EndsAfter sweep seed samples other) : passed = other :=
  Nat.le_antisymm (left.le_of_ended right) (right.le_of_ended left)

theorem isLeast (stops : EndsAfter sweep seed samples passed) (less : passed < samples) :
    IsLeast (failing sweep seed samples) passed := by
  refine ⟨⟨less, stops.ended.resolve_left (Nat.ne_of_lt less)⟩, ?_⟩
  intro position failed
  apply Nat.le_of_not_lt
  intro earlier
  exact failed.2 (stops.before position earlier)

theorem of_isLeast (first : IsLeast (failing sweep seed samples) position) :
    EndsAfter sweep seed samples position where
  le_samples := first.1.1.le
  before := by
    intro earlier less
    by_contra failed
    exact absurd (first.2 ⟨less.trans first.1.1, failed⟩) (Nat.not_le.mpr less)
  ended := .inr first.1.2

end EndsAfter

/-! ## Notes to the observer -/

/-- The notes after so many draws: one on every multiple of the interval, and one on the
last of all draws where that is no multiple. -/
def notesAfter (total passed : Nat) : List Progress :=
  (List.range (passed / progressInterval)).map
      (fun earlier => ⟨progressInterval * (earlier + 1), total⟩) ++
    if passed = total ∧ ¬ progressInterval ∣ passed then [⟨total, total⟩] else []

theorem notesAfter_zero (total : Nat) : notesAfter total 0 = [] := by
  simp [notesAfter]

/-- One more draw adds a note when one is due. -/
theorem notesAfter_succ {total : Nat} (less : passed < total) :
    notesAfter total (passed + 1) =
      notesAfter total passed ++
        if noteDue (passed + 1) total then [⟨passed + 1, total⟩] else [] := by
  have unfinished : ¬ (passed = total ∧ ¬ progressInterval ∣ passed) :=
    fun both => absurd both.1 (Nat.ne_of_lt less)
  rw [notesAfter, notesAfter, if_neg unfinished, List.append_nil]
  by_cases multiple : progressInterval ∣ passed + 1
  · have due : noteDue (passed + 1) total = true := by
      simp [noteDue, Nat.mod_eq_zero_of_dvd multiple]
    have next : progressInterval * (passed / progressInterval + 1) = passed + 1 := by
      rw [← Nat.succ_div_of_dvd multiple]
      exact Nat.mul_div_cancel' multiple
    rw [if_neg (fun both => both.2 multiple), if_pos due, Nat.succ_div_of_dvd multiple,
      List.range_succ, List.map_append, List.map_singleton, next, List.append_nil]
  · have rest : (passed + 1) % progressInterval ≠ 0 :=
      fun zero => multiple (Nat.dvd_of_mod_eq_zero zero)
    rw [Nat.succ_div_of_not_dvd multiple]
    congr 1
    by_cases last : passed + 1 = total
    · subst last
      simp [noteDue, multiple]
    · simp [noteDue, last, rest]

/-- The notes of the remaining draws continue those of the earlier ones.  They are kept
latest first. -/
theorem drawSamples_notes (sweep : Sweep) (seed total : Nat)
    (positive : 0 < sweep.scaling.initialIndex)
    (ordered : sweep.scaling.initialIndex ≤ sweep.penultimateIndex)
    (remaining ordinal : Nat) (whole : ordinal + remaining = total) (stream : Random.WordStream)
    (within : passed ≤ remaining)
    (before : ∀ earlier, earlier < passed -> sweep.DrawSeparates stream earlier)
    (ended : passed = remaining ∨ ¬ sweep.DrawSeparates stream passed) :
    (sweep.drawSamples seed total remaining ordinal stream (notesAfter total ordinal).reverse).1 =
      (notesAfter total (ordinal + passed)).reverse := by
  -- What carries the induction is that the notes kept so far are those of the draws before.
  induction remaining generalizing ordinal stream passed with
  | zero =>
      have noneLeft : passed = 0 := Nat.le_zero.mp within
      rw [noneLeft]
      rfl
  | succ remaining inductionHypothesis =>
      rcases drawIndex_spec Rejection positive ordered stream with ⟨index, rest, found, _⟩
      rw [drawSamples, found]
      dsimp only
      cases passed with
      | zero =>
          have failed : ¬ sweep.Separates index (sweep.scaling.grow index) := by
            intro separates
            exact ended.resolve_left (Nat.succ_ne_zero remaining).symm
              (drawSeparates_zero found separates)
          cases verdict :
              sweep.checkStep (.sample ordinal seed) index (sweep.scaling.grow index) with
          | error failure => rfl
          | ok passed => exact absurd (checkStep_eq_ok.mp verdict) failed
      | succ passed =>
          have separates : sweep.Separates index (sweep.scaling.grow index) := by
            rcases before 0 (Nat.succ_pos passed) with ⟨same, drawn, separates⟩
            rw [drawnAt_zero found] at drawn
            cases drawn
            exact separates
          have noted : (if noteDue (ordinal + 1) total
                then ⟨ordinal + 1, total⟩ :: (notesAfter total ordinal).reverse
                else (notesAfter total ordinal).reverse) =
              (notesAfter total (ordinal + 1)).reverse := by
            rw [notesAfter_succ (by omega), List.reverse_append]
            split <;> rfl
          rw [checkStep_eq_ok.mpr separates]
          dsimp only
          rw [noted, inductionHypothesis (ordinal + 1) (by omega) rest
            (Nat.le_of_succ_le_succ within), Nat.add_assoc, Nat.add_comm 1]
          · intro earlier less
            exact (drawSeparates_succ found earlier).mp (before _ (Nat.succ_lt_succ less))
          · rw [← drawSeparates_succ found]
            exact ended.imp_left Nat.succ.inj

/-! ## Whole runs -/

section

variable (ends : sweep.checkBoundaries = .ok ())
  (ordered : sweep.scaling.initialIndex ≤ sweep.penultimateIndex)
include ends ordered

/-- A run ends after some of its draws, with their notes.  It has a summary when these are
all draws, and else the failure of the next one. -/
theorem run_ends (samples seed : Nat) :
    ∃ passed, EndsAfter sweep seed samples passed ∧
      (sweep.run samples seed).progress = notesAfter samples passed ∧
      ((passed = samples ∧ (sweep.run samples seed).result =
          .ok ⟨samples, seed, sweep.scaling.initialIndex, sweep.penultimateIndex⟩) ∨
        ∃ failure, passed < samples ∧ sweep.checkDraw seed passed = .error failure ∧
          (sweep.run samples seed).result = .error failure) := by
  have positive := (checkBoundaries_eq_ok.mp ends).1.positive
  have notes : ∀ passed, EndsAfter sweep seed samples passed ->
      (sweep.drawSamples seed samples samples 0 (.ofSeed seed) []).1 =
        (notesAfter samples passed).reverse := by
    intro passed stops
    have continued := sweep.drawSamples_notes seed samples positive ordered samples 0
      (Nat.zero_add samples) (.ofSeed seed) stops.le_samples
      (fun earlier less => checkDraw_eq_ok.mp (stops.before earlier less))
      (stops.ended.imp_right (mt checkDraw_eq_ok.mpr))
    rwa [notesAfter_zero, Nat.zero_add] at continued
  rw [run_of_ordered ends ordered]
  rcases sweep.drawSamples_spec seed samples positive ordered samples 0 (.ofSeed seed) [] with
    ⟨value, all⟩ | ⟨passed, index, failure, less, drawn, before, refused, value⟩
  · have stops : EndsAfter sweep seed samples samples :=
      ⟨Nat.le_refl _, fun position less => checkDraw_eq_ok.mpr (all position less), .inl rfl⟩
    rw [notes samples stops, value]
    exact ⟨samples, stops, List.reverse_reverse _, .inl ⟨rfl, rfl⟩⟩
  · rw [Nat.zero_add] at refused
    have verdict : sweep.checkDraw seed passed = .error failure := by
      simpa [checkDraw, drawn] using refused
    have failed : sweep.checkDraw seed passed ≠ .ok () := by
      rw [verdict]
      intro impossible
      cases impossible
    have stops : EndsAfter sweep seed samples passed :=
      ⟨less.le, fun position less => checkDraw_eq_ok.mpr (before position less), .inr failed⟩
    rw [notes passed stops, value]
    exact ⟨passed, stops, List.reverse_reverse _, .inr ⟨failure, less, verdict, rfl⟩⟩

theorem result_eq_ok_iff :
    (sweep.run samples seed).result =
        .ok ⟨samples, seed, sweep.scaling.initialIndex, sweep.penultimateIndex⟩ ↔
      ∀ position, position < samples -> sweep.checkDraw seed position = .ok () := by
  rcases run_ends ends ordered samples seed with
    ⟨passed, stops, _, ⟨all, result⟩ | ⟨failure, less, refused, result⟩⟩
  · rw [result, ← all]
    exact iff_of_true rfl stops.before
  · rw [result]
    refine iff_of_false (fun impossible => by cases impossible) ?_
    intro all
    exact (stops.isLeast less).1.2 (all passed less)

theorem summary_eq_of_ok {summary : Summary}
    (succeeded : (sweep.run samples seed).result = .ok summary) :
    summary = ⟨samples, seed, sweep.scaling.initialIndex, sweep.penultimateIndex⟩ := by
  rcases run_ends ends ordered samples seed with ⟨_, _, _, ⟨_, result⟩ | ⟨_, _, _, result⟩⟩
  · cases succeeded.symm.trans result
    rfl
  · cases succeeded.symm.trans result

theorem result_eq_error_iff {failure : Failure Rejection} :
    (sweep.run samples seed).result = .error failure ↔
      ∃ position, IsLeast (failing sweep seed samples) position ∧
        sweep.checkDraw seed position = .error failure := by
  rcases run_ends ends ordered samples seed with
    ⟨passed, stops, _, ⟨all, result⟩ | ⟨other, less, refused, result⟩⟩
  · rw [result]
    refine iff_of_false (fun impossible => by cases impossible) ?_
    intro failed
    rcases failed with ⟨position, first, _⟩
    exact first.1.2 (stops.before position (all ▸ first.1.1))
  · rw [result]
    constructor
    · intro same
      cases same
      exact ⟨passed, stops.isLeast less, refused⟩
    · intro failed
      rcases failed with ⟨position, first, also⟩
      rw [← stops.unique (.of_isLeast first), refused] at also
      cases also
      rfl

end

/-- What the seed of a sweep settles about its runs, whatever their number of samples. -/
structure Replays (sweep : Sweep) (seed : Nat) : Prop where
  /-- Every position has an index of the domain. -/
  drawn : ∀ position, ∃ index,
    drawnAt sweep.scaling.initialIndex sweep.penultimateIndex position (.ofSeed seed) =
      .ok index ∧ sweep.InDomain index
  /-- A run succeeds with all its samples exactly when every draw among them passes. -/
  succeeds_iff : ∀ samples,
    (sweep.run samples seed).result =
        .ok ⟨samples, seed, sweep.scaling.initialIndex, sweep.penultimateIndex⟩ ↔
      ∀ position, position < samples -> sweep.checkDraw seed position = .ok ()
  /-- There is no other success. -/
  summary_eq : ∀ samples summary, (sweep.run samples seed).result = .ok summary ->
    summary = ⟨samples, seed, sweep.scaling.initialIndex, sweep.penultimateIndex⟩
  /-- A run fails exactly as the first draw among its samples that does not pass. -/
  fails_iff : ∀ samples failure, (sweep.run samples seed).result = .error failure ↔
    ∃ position, IsLeast (failing sweep seed samples) position ∧
      sweep.checkDraw seed position = .error failure
  /-- The failure of a draw is a refusal that names its position and the seed. -/
  named : ∀ position failure, sweep.checkDraw seed position = .error failure ->
    ∃ reason, failure = .refused reason ∧ reason.Mentions s!"sample #{position} (seed {seed})"
  /-- Success with more samples is success with fewer. -/
  with_fewer : ∀ fewer more summary, fewer ≤ more ->
    (sweep.run more seed).result = .ok summary ->
      (sweep.run fewer seed).result = .ok { summary with samples := fewer }
  /-- A failure with fewer samples is the same failure with more. -/
  with_more : ∀ fewer more failure, fewer ≤ more ->
    (sweep.run fewer seed).result = .error failure ->
      (sweep.run more seed).result = .error failure
  /-- The number of draws that pass before the end is settled, -/
  ends : ∀ samples, ∃! passed, EndsAfter sweep seed samples passed
  /-- and with it the notes. -/
  notes : ∀ samples passed, EndsAfter sweep seed samples passed ->
    (sweep.run samples seed).progress = notesAfter samples passed

/-- A sweep whose ends pass and whose domain is not empty can be replayed from any seed. -/
theorem replays_from_seed (ends : sweep.checkBoundaries = .ok ())
    (ordered : sweep.scaling.initialIndex ≤ sweep.penultimateIndex) (seed : Nat) :
    Replays sweep seed where
  drawn position :=
    drawnAt_spec (checkBoundaries_eq_ok.mp ends).1.positive ordered position (.ofSeed seed)
  succeeds_iff _ := result_eq_ok_iff ends ordered
  summary_eq _ _ := summary_eq_of_ok ends ordered
  fails_iff _ _ := result_eq_error_iff ends ordered
  named := by
    intro position failure refused
    rcases drawnAt_spec (checkBoundaries_eq_ok.mp ends).1.positive ordered position
      (.ofSeed seed) with ⟨index, drawn, above, _⟩
    simp only [checkDraw, drawn, Attempt.ok_bind] at refused
    have positive : 0 < index := (checkBoundaries_eq_ok.mp ends).1.positive.trans_le above
    rcases refused_with_origin positive refused with ⟨field, step, rfl, tested⟩
    have told := Rejection.mentions_origin field tested
    exact ⟨_, rfl, told⟩
  with_fewer := by
    intro fewer more summary fewerLe succeeded
    cases summary_eq_of_ok ends ordered succeeded
    apply (result_eq_ok_iff ends ordered).mpr
    intro position less
    exact (result_eq_ok_iff ends ordered).mp succeeded position (less.trans_le fewerLe)
  with_more := by
    intro fewer more failure fewerLe failed
    rcases (result_eq_error_iff ends ordered).mp failed with ⟨position, first, refused⟩
    exact (result_eq_error_iff ends ordered).mpr
      ⟨position, failing_isLeast_of_le fewerLe first, refused⟩
  ends := by
    intro samples
    rcases run_ends ends ordered samples seed with ⟨passed, stops, _⟩
    exact ⟨passed, stops, fun other also => also.unique stops⟩
  notes := by
    intro samples passed stops
    rcases run_ends ends ordered samples seed with ⟨other, also, noted, _⟩
    rw [noted, stops.unique also]

/-- On the narrow pool the second draw is refused, and so it is with more samples.  In the
first generation every draw passes, and the notes say so. -/
theorem replays_from_seed_narrow :
    (∃ horizon envelope sweep,
      Envelope.ofAllocation narrowAllocation 0 narrowParameters horizon = .ok envelope ∧
        ofAllocation narrowAllocation envelope = .ok sweep ∧
        sweep.checkBoundaries = .ok () ∧
        sweep.scaling.initialIndex ≤ sweep.penultimateIndex ∧
        ∀ more, 2 ≤ more -> (sweep.run more 0).result = .error (.refused (.quantization "borrows"
          (.baseUnits (.sample 1 0) 13 14 3)))) ∧
    ∃ horizon envelope sweep,
      Envelope.ofAllocation Generation.v1.allocation 18 {} horizon = .ok envelope ∧
        ofAllocation Generation.v1.allocation envelope = .ok sweep ∧
        sweep.checkBoundaries = .ok () ∧
        sweep.scaling.initialIndex ≤ sweep.penultimateIndex ∧
        ∀ seed, (sweep.run 2500 seed).progress = [⟨1024, 2500⟩, ⟨2048, 2500⟩, ⟨2500, 2500⟩] := by
  have narrow : Attempt.Holds (ofCandidate narrowAllocation 0 narrowParameters 1700000000)
      fun sweep => sweep.checkBoundaries = .ok () ∧
        sweep.scaling.initialIndex ≤ sweep.penultimateIndex ∧
        (sweep.run 2 0).result = .error (.refused (.quantization "borrows"
          (.baseUnits (.sample 1 0) 13 14 3))) := by
    decide +kernel
  have first : Attempt.Holds (ofCandidate Generation.v1.allocation 18 {} 1700000000)
      fun sweep => sweep.checkBoundaries = .ok () ∧
        sweep.scaling.initialIndex ≤ sweep.penultimateIndex := by
    decide +kernel
  constructor
  · rcases exists_of_ofCandidate narrow with
      ⟨horizon, envelope, sweep, derived, found, ends, ordered, refused⟩
    refine ⟨horizon, envelope, sweep, derived, found, ends, ordered, ?_⟩
    intro more larger
    exact (replays_from_seed ends ordered 0).with_more 2 more _ larger refused
  · rcases exists_of_ofCandidate first with
      ⟨horizon, envelope, sweep, derived, found, ends, ordered⟩
    refine ⟨horizon, envelope, sweep, derived, found, ends, ordered, ?_⟩
    intro seed
    rcases derived_of_envelope derived found with ⟨settled, constants⟩
    have everywhere := fun index => @Derived.separates_everywhere sweep index settled
      (v1_room constants)
    have replays := replays_from_seed ends ordered seed
    rcases Derived.run_of_everywhere ends everywhere 2500 seed with ⟨summary, succeeded⟩
    cases replays.summary_eq 2500 summary succeeded
    have noted := replays.notes 2500 2500
      ⟨Nat.le_refl _, (replays.succeeds_iff 2500).mp succeeded, .inl rfl⟩
    rw [noted]
    decide

end Sweep

end PackedLedger
