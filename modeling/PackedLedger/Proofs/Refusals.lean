import PackedLedger.Proofs.Requirements

namespace PackedLedger

/-!
# What each stage of an envelope is refused for

An envelope is refused by the first stage that misses its requirement, and the classes
of requirement are kept apart: a range is refused for its magnitude, a largest yield
for the floor, an index step or an interest that rounding swallows for quantization,
and a smallest yield for the ceiling.  Everything else that can be wrong is a matter of
configuration.  So a refusal tells which stages were passed before it.  Arithmetic
itself never refuses: where it has no result, the attempt breaks down without a reason.
-/

/-! ## Chains of attempts -/

namespace Attempt

variable {Value Result : Type} {requirements : List Requirement}

/-- Whether a failure is the outcome can be decided without comparing values. -/
instance {Reason : Type} [DecidableEq Reason] (attempt : Attempt Reason Value)
    (failure : Failure Reason) : Decidable (attempt = .error failure) :=
  match attempt with
  | .ok _ => .isFalse (by intro equal; cases equal)
  | .error other =>
    if same : other = failure then .isTrue (by rw [same])
    else .isFalse (by intro equal; cases equal; exact same rfl)

/-- Whatever an attempt is refused for is one of these requirements. -/
def RefusesFor (requirements : List Requirement) (attempt : Verdict Value) : Prop :=
  ∀ reason, attempt = .error (.refused reason) -> reason.requirement ∈ requirements

theorem refusesFor_ok (value : Value) : RefusesFor requirements (.ok value) := by
  intro reason impossible
  cases impossible

theorem refusesFor_breakDown (step : Breakdown) :
    RefusesFor requirements (breakDown step : Verdict Value) := by
  intro reason impossible
  cases impossible

theorem refusesFor_refuse {reason : Rejection} (listed : reason.requirement ∈ requirements) :
    RefusesFor requirements (refuse reason : Verdict Value) := by
  intro other same
  cases same
  exact listed

theorem refusesFor_bind {attempt : Verdict Value} {next : Value -> Verdict Result}
    (first : RefusesFor requirements attempt)
    (rest : ∀ value, RefusesFor requirements (next value)) :
    RefusesFor requirements (attempt >>= next) := by
  intro reason refused
  cases attempt with
  | ok value => exact rest value reason refused
  | error failure =>
      cases refused
      exact first reason rfl

theorem refusesFor_ite_refuse {condition : Prop} [Decidable condition] {reason : Rejection}
    {attempt : Verdict Value} (listed : reason.requirement ∈ requirements)
    (rest : RefusesFor requirements attempt) :
    RefusesFor requirements (if condition then refuse reason else attempt) := by
  split
  · exact refusesFor_refuse listed
  · exact rest

theorem refusesFor_ite_breakDown {condition : Prop} [Decidable condition] {step : Breakdown}
    {value : Value} :
    RefusesFor requirements (if condition then breakDown step else .ok value) := by
  split
  · exact refusesFor_breakDown step
  · exact refusesFor_ok value

theorem refusesFor_mapM {Element : Type} {change : Element -> Verdict Value}
    (every : ∀ element, RefusesFor requirements (change element)) (list : List Element) :
    RefusesFor requirements (list.mapM change) := by
  induction list with
  | nil => exact refusesFor_ok []
  | cons head rest inductionHypothesis =>
      rw [List.mapM_cons]
      apply refusesFor_bind (every head)
      intro first
      apply refusesFor_bind inductionHypothesis
      intro others
      exact refusesFor_ok _

/-- A stage that is not refused for a requirement has been passed when the chain is. -/
theorem passed_of_refused {attempt : Verdict Value} {next : Value -> Verdict Result}
    {reason : Rejection} (first : RefusesFor requirements attempt)
    (refused : (attempt >>= next) = .error (.refused reason))
    (other : reason.requirement ∉ requirements) :
    ∃ value, attempt = .ok value ∧ next value = .error (.refused reason) := by
  cases attempt with
  | ok value => exact ⟨value, rfl, refused⟩
  | error failure =>
      cases refused
      exact absurd (first reason rfl) other

end Attempt

open Attempt

variable {requirements : List Requirement}

/-! ## Arithmetic -/

namespace Checked

theorem wordSum_refusesFor (left right : Nat) : RefusesFor requirements (wordSum left right) := by
  unfold wordSum
  split
  · exact refusesFor_ok _
  · exact refusesFor_breakDown _

theorem unlessZero_refusesFor {Number Result : Type} [OfNat Number 0] [DecidableEq Number]
    (divisor : Number) (result : Result) :
    RefusesFor requirements (unlessZero divisor result) := refusesFor_ite_breakDown

end Checked

namespace FixedPoint

/-- The series of the inverse hyperbolic tangent ends or leaves its word. -/
theorem inverseTangent_refusesFor (scale : Nat) (argument : Int) :
    RefusesFor requirements (inverseTangent scale argument) := by
  have tail : ∀ (square power sum : Int) (count : Nat),
      RefusesFor requirements (tangentTail scale square power sum count) := by
    intro square power sum count
    fun_induction @tangentTail Rejection scale square power sum count with
    | case1 => exact refusesFor_ok _
    | case2 => assumption
    | case3 => exact refusesFor_breakDown _
  exact tail _ _ _ _

theorem exponentialTail_refusesFor (scale : Nat) (exponent term sum : Int) (count : Nat) :
    RefusesFor requirements (exponentialTail scale exponent term sum count) := by
  fun_induction @exponentialTail Rejection scale exponent term sum count with
  | case1 => exact refusesFor_ok _
  | case2 => assumption
  | case3 => exact refusesFor_breakDown _

namespace Grid

theorem ofDigits_refusesFor (digits : Nat) : RefusesFor requirements (ofDigits digits) := by
  apply refusesFor_bind (Checked.wordSum_refusesFor _ _)
  intro carried
  apply refusesFor_bind (inverseTangent_refusesFor _ _)
  intro half
  exact refusesFor_ok _

theorem exp_refusesFor (grid : Grid) (steps : Int) :
    RefusesFor requirements (grid.exp steps) := by
  apply refusesFor_bind
  · apply refusesFor_bind (Checked.unlessZero_refusesFor _ _)
    intro multiple
    exact refusesFor_ok _
  · intro reduced
    apply refusesFor_bind (exponentialTail_refusesFor _ _ _ _ _)
    intro sum
    split <;> exact refusesFor_ok _

theorem ln_refusesFor (grid : Grid) (value : Rat) : RefusesFor [.config] (grid.ln value) := by
  apply refusesFor_ite_refuse (List.mem_singleton_self _)
  apply refusesFor_bind (Checked.unlessZero_refusesFor _ _)
  intro argument
  apply refusesFor_bind (inverseTangent_refusesFor _ _)
  intro half
  exact refusesFor_ok _

theorem log10_refusesFor (grid : Grid) (value : Rat) :
    RefusesFor [.config] (grid.log10 value) := by
  apply refusesFor_bind (grid.ln_refusesFor value)
  intro numerator
  apply refusesFor_bind (grid.ln_refusesFor 10)
  intro denominator
  exact Checked.unlessZero_refusesFor _ _

end Grid

end FixedPoint

/-! ## Stages -/

theorem Parameters.check_refusesFor (parameters : Parameters) :
    RefusesFor [.config] parameters.check := by
  unfold check
  split
  · exact refusesFor_refuse (List.mem_singleton_self _)
  · exact refusesFor_ok _

theorem Allocation.requireRole_refusesFor (allocation : Allocation) (role : Role) :
    RefusesFor [.config] (allocation.requireRole role) := by
  apply refusesFor_bind
  · unfold findRole
    split
    · exact refusesFor_ok _
    · exact refusesFor_ok _
    · exact refusesFor_refuse (List.mem_singleton_self _)
  · intro found
    cases found with
    | none => exact refusesFor_refuse (List.mem_singleton_self _)
    | some field => exact refusesFor_ok _

theorem Scaling.ofAllocation_refusesFor (allocation : Allocation) :
    RefusesFor [.config] (ofAllocation allocation) := by
  apply refusesFor_bind (allocation.requireRole_refusesFor .borrowIndex)
  intro index
  apply refusesFor_bind (allocation.requireRole_refusesFor .totalBorrows)
  intro total
  apply refusesFor_bind (allocation.requireRole_refusesFor .accountBorrows)
  intro account
  apply refusesFor_bind (Checked.unlessZero_refusesFor _ _)
  intro borrowsScaler
  exact refusesFor_ok _

theorem FieldRange.of_refusesFor (field : Field) (assetDecimals : Nat) (parameters : Parameters)
    (grid : FixedPoint.Grid) :
    RefusesFor [.config, .range] (FieldRange.of field assetDecimals parameters grid) := by
  apply refusesFor_bind (Checked.wordSum_refusesFor _ _)
  intro shift
  apply refusesFor_bind
  · intro reason refused
    exact List.mem_append_left [.range] (grid.log10_refusesFor _ reason refused)
  · intro log10
    apply refusesFor_ite_refuse (List.mem_cons_of_mem _ (List.mem_singleton_self _))
    exact refusesFor_ok _

theorem largestYield_refusesFor (scaling : Scaling) (horizon : Horizon)
    (grid : FixedPoint.Grid) : RefusesFor [.config] (largestYield scaling horizon grid) := by
  apply refusesFor_bind (Checked.unlessZero_refusesFor _ _)
  intro growth
  apply refusesFor_bind (grid.ln_refusesFor growth)
  intro logarithm
  apply refusesFor_bind (Checked.unlessZero_refusesFor _ _)
  intro rate
  apply refusesFor_bind (grid.exp_refusesFor rate)
  intro factor
  exact refusesFor_ok _

namespace Envelope

variable {allocation : Allocation} {assetDecimals : Nat} {parameters : Parameters}
  {horizon : Horizon}

theorem checkFloor_refusesFor (indexField : String) (apy floor : Rat) :
    RefusesFor [.rateCeiling] (checkFloor indexField apy floor) :=
  refusesFor_ite_refuse (List.mem_singleton_self _) (refusesFor_ok _)

theorem secondIndexOf_refusesFor (indexField : String) (scaling : Scaling) :
    RefusesFor [.quantization] (secondIndexOf indexField scaling) :=
  refusesFor_ite_refuse (List.mem_singleton_self _) (refusesFor_ok _)

theorem leastInterestOf_refusesFor (total : Field) (scaling : Scaling) :
    RefusesFor [.quantization] (leastInterestOf total scaling) :=
  refusesFor_ite_refuse (List.mem_singleton_self _) (refusesFor_ok _)

/-- An envelope refused for the rate floor has passed every stage but the last.  Its
smallest yield came up to the ceiling, and both are in the refusal, with the name of the
index. -/
theorem reached_of_rateFloor {indexField : String} {reached required : Rat}
    (refused : ofAllocation allocation assetDecimals parameters horizon =
      .error (.refused (.rateFloor indexField reached required))) :
    ∃ index scaling blocks, allocation.withRole .borrowIndex = [index] ∧ index.name = indexField ∧
      Scaling.ofAllocation allocation = .ok scaling ∧
      parameters.apyCeiling.value = .ok required ∧ parameters.blocksPerYear = .ok blocks ∧
      smallestYield scaling blocks required = .ok reached ∧ required ≤ reached := by
  have notConfig : Requirement.rateFloor ∉ [Requirement.config] := by decide
  have notRange : Requirement.rateFloor ∉ [Requirement.config, .range] := by decide
  have notCeiling : Requirement.rateFloor ∉ [Requirement.rateCeiling] := by decide
  have notQuantization : Requirement.rateFloor ∉ [Requirement.quantization] := by decide
  have notRefused : Requirement.rateFloor ∉ [] := List.not_mem_nil
  rcases passed_of_refused parameters.check_refusesFor refused notConfig with ⟨_, _, refused⟩
  by_cases many : parameters.maxAssetDecimals < assetDecimals
  · rw [if_pos many] at refused
    cases refused
  rw [if_neg many] at refused
  rcases passed_of_refused (FixedPoint.Grid.ofDigits_refusesFor _) refused notRefused with
    ⟨grid, _, refused⟩
  rcases passed_of_refused (allocation.requireRole_refusesFor _) refused notConfig with
    ⟨index, foundIndex, refused⟩
  rcases passed_of_refused (allocation.requireRole_refusesFor _) refused notConfig with
    ⟨total, _, refused⟩
  rcases passed_of_refused (Scaling.ofAllocation_refusesFor _) refused notConfig with
    ⟨scaling, constants, refused⟩
  rcases passed_of_refused (FieldRange.of_refusesFor _ _ _ _) refused notRange with
    ⟨_, _, refused⟩
  rcases passed_of_refused
    (refusesFor_mapM (fun field => FieldRange.of_refusesFor field _ _ _) _) refused notRange with
    ⟨_, _, refused⟩
  rcases passed_of_refused (largestYield_refusesFor _ _ _) refused notConfig with
    ⟨largest, _, refused⟩
  rcases passed_of_refused (Checked.unlessZero_refusesFor _ _) refused notRefused with
    ⟨floor, _, refused⟩
  rcases passed_of_refused (checkFloor_refusesFor _ _ _) refused notCeiling with
    ⟨_, _, refused⟩
  rcases passed_of_refused (secondIndexOf_refusesFor _ _) refused notQuantization with
    ⟨_, _, refused⟩
  rcases passed_of_refused (leastInterestOf_refusesFor _ _) refused notQuantization with
    ⟨_, _, refused⟩
  rcases passed_of_refused (Checked.unlessZero_refusesFor _ _) refused notRefused with
    ⟨ceiling, foundCeiling, refused⟩
  rcases passed_of_refused (Checked.unlessZero_refusesFor _ _) refused notRefused with
    ⟨blocks, foundBlocks, refused⟩
  rcases smallestYield_spec (Scaling.initialIndex_pos constants) blocks ceiling with
    ⟨taken, _, foundYield⟩
  simp only [foundYield, ok_bind, checkCeiling] at refused
  by_cases enough : ceiling ≤ scaling.yieldAfter taken
  · rw [if_pos enough] at refused
    cases refused
    exact ⟨index, scaling, blocks, Allocation.requireRole_eq_ok.mp foundIndex, rfl, constants,
      foundCeiling, foundBlocks, foundYield, enough⟩
  · rw [if_neg enough] at refused
    cases refused

end Envelope

end PackedLedger
