import Mathlib.Tactic.ByContra
import PackedLedger.Command.Run

namespace PackedLedger

/-!
# Going on after a rejection

A survey can stop at its first rejection or go on with the candidates that are left.  Only
its report depends on that.  Whatever the mode, the outcomes reported are a prefix of the
outcomes of all candidates, and an outcome that cuts the prefix short is one with which no
survey passes.  So a survey passes on its report exactly when it would on all outcomes.
-/

namespace Survey

/-- The elements of a list up to and including the first that ends it, or all of them
if none does. -/
inductive UpTo (ends : Outcome -> Bool) : List Outcome -> List Outcome -> Prop where
  | whole (judged : List Outcome) (goesOn : ∀ outcome ∈ judged, ends outcome = false) :
      UpTo ends judged judged
  | cut (before : List Outcome) (last : Outcome) (after : List Outcome)
      (goesOn : ∀ outcome ∈ before, ends outcome = false) (stops : ends last = true) :
      UpTo ends (before ++ last :: after) (before ++ [last])

namespace UpTo

variable {ends : Outcome -> Bool} {judged shown : List Outcome}

theorem cons {outcome : Outcome} (goesOn : ends outcome = false) (rest : UpTo ends judged shown) :
    UpTo ends (outcome :: judged) (outcome :: shown) := by
  cases rest with
  | whole _ rest => exact .whole _ (List.forall_mem_cons.mpr ⟨goesOn, rest⟩)
  | cut before last after rest stops =>
      exact .cut (outcome :: before) last after (List.forall_mem_cons.mpr ⟨goesOn, rest⟩) stops

theorem eq_of_goes_on (shows : UpTo ends judged shown)
    (goesOn : ∀ outcome ∈ judged, ends outcome = false) : shown = judged := by
  cases shows with
  | whole => rfl
  | cut before last after _ stops =>
      have goes := goesOn last (List.mem_append_right before List.mem_cons_self)
      rw [stops] at goes
      cases goes

/-- Tests that agree on every outcome cut at the same place. -/
theorem congr {other : Outcome -> Bool} (shows : UpTo ends judged shown)
    (same : ∀ outcome ∈ judged, ends outcome = other outcome) : UpTo other judged shown := by
  cases shows with
  | whole _ goesOn =>
      refine .whole _ fun outcome member => ?_
      rw [← same outcome member]
      exact goesOn outcome member
  | cut before last after goesOn stops =>
      rw [List.forall_mem_append, List.forall_mem_cons] at same
      refine .cut before last after (fun outcome member => ?_) (same.2.1.symm.trans stops)
      rw [← same.1 outcome member]
      exact goesOn outcome member

/-- A test that every outcome has to pass is passed by the report exactly when it is
passed by all outcomes, if no outcome that passes it ends the survey. -/
theorem forall_iff (shows : UpTo ends judged shown) {test : Outcome -> Prop}
    (fails : ∀ outcome, ends outcome = true -> ¬ test outcome) :
    (∀ outcome ∈ shown, test outcome) ↔ ∀ outcome ∈ judged, test outcome := by
  cases shows with
  | whole => exact Iff.rfl
  | cut before last after _ stops =>
      have failsWith : ∀ rest, ¬ ∀ outcome ∈ before ++ last :: rest, test outcome := by
        intro rest passed
        exact fails last stops (passed last (List.mem_append_right before List.mem_cons_self))
      exact iff_of_false (failsWith []) (failsWith after)

end UpTo

/-- A survey reports its outcomes up to the one that ends it. -/
theorem outcomes_upTo (judge : Nat -> Outcome) (keepGoing : Bool) (candidates : List Nat) :
    UpTo (Outcome.endsSurvey keepGoing) (candidates.map judge)
      (outcomes judge keepGoing candidates) := by
  induction candidates with
  | nil => exact .whole [] (List.forall_mem_nil _)
  | cons candidate rest inductionHypothesis =>
      rw [List.map_cons, outcomes]
      by_cases stops : (judge candidate).endsSurvey keepGoing = true
      · rw [if_pos stops]
        exact .cut [] (judge candidate) (rest.map judge) (List.forall_mem_nil _) stops
      · rw [if_neg stops]
        exact inductionHypothesis.cons (Bool.eq_false_iff.mpr stops)

theorem not_passes_of_endsSurvey {keepGoing : Bool} {outcome : Outcome}
    (stops : outcome.endsSurvey keepGoing = true) :
    ¬ (outcome.isRejected = false ∧ outcome.isBroken = false) := by
  cases outcome with
  | accepted report => cases stops
  | rejected assetDecimals reason => exact fun passes => Bool.noConfusion passes.1
  | broken assetDecimals step => exact fun passes => Bool.noConfusion passes.2

theorem passed_outcomes_iff (judge : Nat -> Outcome) (keepGoing : Bool) (candidates : List Nat) :
    Passed (outcomes judge keepGoing candidates) ↔ Passed (candidates.map judge) :=
  (outcomes_upTo judge keepGoing candidates).forall_iff fun _ => not_passes_of_endsSurvey

/-- Every candidate has an outcome, none broke down. -/
def Answered (outcomes : List Outcome) : Prop :=
  ∀ outcome ∈ outcomes, outcome.isBroken = false

def Rejects (outcomes : List Outcome) : Prop :=
  ∃ outcome ∈ outcomes, outcome.isRejected = true

theorem rejectedCount_pos {outcomes : List Outcome} :
    0 < rejectedCount outcomes ↔ Rejects outcomes :=
  List.countP_pos_iff

/-- A survey with an answer to every candidate fails by a rejection alone. -/
theorem Answered.not_passed_iff {outcomes : List Outcome} (answered : Answered outcomes) :
    ¬ Passed outcomes ↔ Rejects outcomes := by
  constructor
  · intro notPassed
    by_contra noneRejected
    apply notPassed
    intro outcome member
    refine ⟨Bool.eq_false_iff.mpr fun rejected => ?_, answered outcome member⟩
    exact noneRejected ⟨outcome, member, rejected⟩
  · rintro ⟨outcome, member, rejected⟩ passed
    cases rejected.symm.trans (passed outcome member).1

theorem endsSurvey_eq {keepGoing : Bool} {outcome : Outcome} (answered : outcome.isBroken = false) :
    outcome.endsSurvey keepGoing = (!keepGoing && outcome.isRejected) := by
  cases outcome with
  | accepted report => exact (Bool.and_false _).symm
  | rejected assetDecimals reason => exact (Bool.and_true _).symm
  | broken assetDecimals step => cases answered

/-- A report up to the first rejection counts one, if there is one to be counted. -/
theorem UpTo.rejectedCount_eq_one {judged shown : List Outcome}
    (shows : UpTo Outcome.isRejected judged shown) (rejects : Rejects judged) :
    rejectedCount shown = 1 := by
  cases shows with
  | whole _ goesOn =>
      rcases rejects with ⟨outcome, member, rejected⟩
      cases (goesOn outcome member).symm.trans rejected
  | cut before last after goesOn stops =>
      have noneBefore : before.countP Outcome.isRejected = 0 := by
        rw [List.countP_eq_zero]
        intro outcome member rejected
        cases (goesOn outcome member).symm.trans rejected
      rw [rejectedCount, List.countP_append, noneBefore, List.countP_singleton, if_pos stops]

/-- A report holds nothing but outcomes of candidates. -/
theorem UpTo.answered {ends : Outcome -> Bool} {judged shown : List Outcome}
    (shows : UpTo ends judged shown) (answered : Answered judged) : Answered shown := by
  cases shows with
  | whole => exact answered
  | cut before last after _ _ =>
      intro outcome member
      apply answered outcome
      rcases List.mem_append.mp member with early | late
      · exact List.mem_append_left _ early
      · rw [List.mem_singleton.mp late]
        exact List.mem_append_right before List.mem_cons_self

end Survey

namespace Command

/-! ## The end of the command -/

variable {outcomes : List Outcome} {total : Nat} {json : Bool}

theorem any_isBroken_eq_true :
    outcomes.any Outcome.isBroken = true ↔ ¬ Survey.Answered outcomes := by
  rw [List.any_eq_true, Survey.Answered]
  simp

theorem surveyResponse_of_broken (broken : ¬ Survey.Answered outcomes) :
    (surveyResponse outcomes total json).status = 101 := by
  unfold surveyResponse
  rw [if_pos (any_isBroken_eq_true.mpr broken)]
  rfl

/-- With an answer to every candidate, rejections end in a complaint that counts them. -/
theorem surveyResponse_of_rejects (answered : Survey.Answered outcomes)
    (rejects : Survey.Rejects outcomes) :
    ∃ output, surveyResponse outcomes total json =
      .complaint ⟨s!"{Survey.rejectedCount outcomes} of {total} candidates rejected", []⟩
        output := by
  unfold surveyResponse
  rw [if_neg (fun broken => any_isBroken_eq_true.mp broken answered)]
  dsimp only
  rw [if_pos (Survey.rejectedCount_pos.mpr rejects)]
  exact ⟨_, rfl⟩

theorem surveyResponse_of_not_rejects (answered : Survey.Answered outcomes)
    (noneRejected : ¬ Survey.Rejects outcomes) :
    (surveyResponse outcomes total json).status = 0 := by
  unfold surveyResponse
  rw [if_neg (fun broken => any_isBroken_eq_true.mp broken answered)]
  dsimp only
  rw [if_neg (mt Survey.rejectedCount_pos.mp noneRejected)]

/-- The command succeeds exactly when every outcome that it reports passes. -/
theorem surveyResponse_status_eq_zero :
    (surveyResponse outcomes total json).status = 0 ↔ Survey.Passed outcomes := by
  by_cases answered : Survey.Answered outcomes
  · by_cases rejects : Survey.Rejects outcomes
    · have complains : ∃ output, surveyResponse outcomes total json = .complaint _ output :=
        surveyResponse_of_rejects answered rejects
      rcases complains with ⟨output, found⟩
      rw [found]
      exact iff_of_false Nat.one_ne_zero (answered.not_passed_iff.mpr rejects)
    · rw [surveyResponse_of_not_rejects answered rejects]
      exact iff_of_true rfl (not_not.mp (mt answered.not_passed_iff.mp rejects))
  · rw [surveyResponse_of_broken answered]
    refine iff_of_false (by decide) fun passed => answered ?_
    exact fun outcome member => (passed outcome member).2

namespace CheckOptions

def inMode (options : CheckOptions) (keepGoing : Bool) : CheckOptions :=
  { options with keepGoing }

def judged (options : CheckOptions) (settings : Settings) (now : Nat) : List Outcome :=
  (options.candidates settings).map (options.judge settings now)

/-- The command ends with a complaint that counts so many rejections among all candidates. -/
def Complains (options : CheckOptions) (settings : Settings) (now rejected : Nat) : Prop :=
  ∃ output, options.response settings now = .complaint
    ⟨s!"{rejected} of {(options.candidates settings).length} candidates rejected", []⟩ output

/-- How a check ends in its two modes.  A check that breaks down ends the survey in either
of them, so where a report is compared with the rejections of all candidates, every
candidate has an answer. -/
structure ModesAgree (options : CheckOptions) (settings : Settings) (now : Nat) : Prop where
  /-- Neither mode succeeds where the other fails, whatever becomes of the candidates. -/
  succeeds_iff : ∀ keepGoing, ((options.inMode keepGoing).response settings now).status = 0 ↔
    Survey.Passed (options.judged settings now)
  /-- The outcomes reported are those up to the one that ends the survey in its mode. -/
  reported : ∀ keepGoing, Survey.UpTo (Outcome.endsSurvey keepGoing)
    (options.judged settings now) ((options.inMode keepGoing).outcomes settings now)
  fails_iff : Survey.Answered (options.judged settings now) -> ∀ keepGoing,
    ((options.inMode keepGoing).response settings now).status ≠ 0 ↔
      Survey.Rejects (options.judged settings now)
  going_on : Survey.Answered (options.judged settings now) ->
    (options.inMode true).outcomes settings now = options.judged settings now
  stopping : Survey.Answered (options.judged settings now) ->
    Survey.UpTo Outcome.isRejected (options.judged settings now)
      ((options.inMode false).outcomes settings now)
  /-- What a complaint counts is what was reported. -/
  complaints : Survey.Answered (options.judged settings now) ->
    Survey.Rejects (options.judged settings now) ->
    (options.inMode true).Complains settings now
        (Survey.rejectedCount (options.judged settings now)) ∧
      (options.inMode false).Complains settings now 1

section Modes

variable {options : CheckOptions} {settings : Settings} {now : Nat} {keepGoing : Bool}

theorem outcomes_inMode_upTo (options : CheckOptions) (settings : Settings) (now : Nat)
    (keepGoing : Bool) :
    Survey.UpTo (Outcome.endsSurvey keepGoing) (options.judged settings now)
      ((options.inMode keepGoing).outcomes settings now) :=
  Survey.outcomes_upTo _ _ _

theorem response_status_eq_zero (options : CheckOptions) (settings : Settings) (now : Nat)
    (keepGoing : Bool) :
    ((options.inMode keepGoing).response settings now).status = 0 ↔
      Survey.Passed (options.judged settings now) :=
  surveyResponse_status_eq_zero.trans (Survey.passed_outcomes_iff _ _ _)

variable (answered : Survey.Answered (options.judged settings now))
include answered

theorem outcomes_upTo_rejection :
    Survey.UpTo (fun outcome => !keepGoing && outcome.isRejected) (options.judged settings now)
      ((options.inMode keepGoing).outcomes settings now) :=
  (outcomes_inMode_upTo options settings now keepGoing).congr
    fun outcome member => Survey.endsSurvey_eq (answered outcome member)

theorem complains_of_rejects (rejects : Survey.Rejects (options.judged settings now)) :
    (options.inMode keepGoing).Complains settings now
      (Survey.rejectedCount ((options.inMode keepGoing).outcomes settings now)) := by
  have shows := outcomes_inMode_upTo options settings now keepGoing
  have answeredShown := shows.answered answered
  apply surveyResponse_of_rejects answeredShown
  rw [← answeredShown.not_passed_iff, inMode, outcomes, Survey.passed_outcomes_iff]
  exact answered.not_passed_iff.mpr rejects

end Modes

/-- Whether a check goes on after a rejection decides what it reports, and has no part in
its verdict. -/
theorem modes_agree (options : CheckOptions) (settings : Settings) (now : Nat) :
    options.ModesAgree settings now := by
  have going : Survey.Answered (options.judged settings now) ->
      (options.inMode true).outcomes settings now = options.judged settings now := by
    intro answered
    exact (outcomes_upTo_rejection answered).eq_of_goes_on fun _ _ => rfl
  have stopping : Survey.Answered (options.judged settings now) ->
      Survey.UpTo Outcome.isRejected (options.judged settings now)
        ((options.inMode false).outcomes settings now) :=
    fun answered => (outcomes_upTo_rejection answered).congr fun _ _ => rfl
  refine ⟨response_status_eq_zero options settings now, outcomes_inMode_upTo options settings now,
    ?_, going, stopping, ?_⟩
  · intro answered keepGoing
    rw [Ne, response_status_eq_zero, answered.not_passed_iff]
  · intro answered rejects
    have every : (options.inMode true).Complains settings now _ :=
      complains_of_rejects answered rejects
    have first : (options.inMode false).Complains settings now _ :=
      complains_of_rejects answered rejects
    rw [going answered] at every
    rw [(stopping answered).rejectedCount_eq_one rejects] at first
    exact ⟨every, first⟩

/-- An asset that is accepted and two that have too many decimals. -/
def mixed : CheckOptions where
  assetDecimals := [6, 19, 19]
  samples := some 0

theorem modes_agree_mixed :
    ((mixed.judged {} 1700000000).map Outcome.isRejected = [false, true, true]) ∧
      (mixed.inMode true).Complains {} 1700000000 2 ∧
      (mixed.inMode false).Complains {} 1700000000 1 := by
  have rejections : (mixed.judged {} 1700000000).map Outcome.isRejected = [false, true, true] := by
    decide +kernel
  have answered : Survey.Answered (mixed.judged {} 1700000000) := by
    unfold Survey.Answered
    decide +kernel
  have count : Survey.rejectedCount (mixed.judged {} 1700000000) = 2 := by decide +kernel
  have rejects := Survey.rejectedCount_pos.mp (Nat.lt_of_lt_of_eq Nat.two_pos count.symm)
  have complaints := (modes_agree mixed {} 1700000000).complaints answered rejects
  rw [count] at complaints
  exact ⟨rejections, complaints⟩

end CheckOptions

end Command

end PackedLedger
