import PackedLedger.Attempt

namespace PackedLedger

/-!
# Taking an attempt apart

A stage of a check is a sequence of attempts, and it has a value exactly when
every one of them has.  `bind_eq_ok` says so for one step, in a form that
rewrites a whole sequence into the values it passed through.  The checked
operators are inverted the same way: a value comes with the condition under
which the operator has one.  A sequence is answered when each step is, and there
`answered_bind` lets a step rely on the values before it.
-/

namespace Attempt

variable {Reason Value Result : Type}

/-- Attempts at comparable values are comparable, so that a run on fixed data
can be decided. -/
instance [DecidableEq Reason] [DecidableEq Value] : DecidableEq (Attempt Reason Value)
  | .ok left, .ok right =>
    if same : left = right then .isTrue (by rw [same])
    else .isFalse (by intro equal; injection equal with equal; exact same equal)
  | .error left, .error right =>
    if same : left = right then .isTrue (by rw [same])
    else .isFalse (by intro equal; injection equal with equal; exact same equal)
  | .ok _, .error _ => .isFalse (by intro equal; cases equal)
  | .error _, .ok _ => .isFalse (by intro equal; cases equal)

@[simp] theorem bind_eq_ok {attempt : Attempt Reason Value} {next : Value -> Attempt Reason Result}
    {result : Result} :
    (attempt >>= next) = .ok result ↔ ∃ value, attempt = .ok value ∧ next value = .ok result := by
  cases attempt with
  | error failure => simp [bind, Except.bind]
  | ok value => simp [bind, Except.bind]

@[simp] theorem map_eq_ok {attempt : Attempt Reason Value} {change : Value -> Result}
    {result : Result} :
    change <$> attempt = .ok result ↔ ∃ value, attempt = .ok value ∧ change value = result := by
  cases attempt with
  | error failure => simp [Functor.map, Except.map]
  | ok value => simp

@[simp] theorem refuse_ne_ok {reason : Reason} {value : Value} :
    (refuse reason : Attempt Reason Value) ≠ .ok value := by
  intro impossible
  cases impossible

@[simp] theorem ite_refuse_eq_ok {condition : Prop} [Decidable condition] {reason : Reason}
    {attempt : Attempt Reason Value} {value : Value} :
    (if condition then refuse reason else attempt) = .ok value ↔
      ¬ condition ∧ attempt = .ok value := by
  by_cases holds : condition
  · simp [holds, refuse]
  · simp [holds]

theorem refuse_or_ok_eq_ok (test : Value -> Prop) [DecidablePred test] {reason : Reason}
    {value result : Value} :
    (if test value then refuse reason else .ok value : Attempt Reason Value) = .ok result ↔
      ¬ test result ∧ value = result := by
  rw [ite_refuse_eq_ok, Except.ok.injEq]
  apply and_congr_left
  intro same
  rw [same]

/-- Whether there is a value that passes a test. -/
def Holds (attempt : Attempt Reason Value) (test : Value -> Prop) : Prop :=
  ∃ value, attempt = .ok value ∧ test value

instance (attempt : Attempt Reason Value) (test : Value -> Prop) [DecidablePred test] :
    Decidable (Holds attempt test) :=
  match attempt with
  | .ok value =>
    if passes : test value then .isTrue ⟨value, rfl, passes⟩
    else .isFalse (by rintro ⟨_, ⟨⟩, holds⟩; exact passes holds)
  | .error _ => .isFalse (by rintro ⟨_, impossible, _⟩; cases impossible)

/-- A walk through a list has an end exactly when every element passes. -/
theorem forM_eq_ok {Element : Type} {check : Element -> Attempt Reason Unit} {list : List Element} :
    list.forM check = .ok () ↔ ∀ element ∈ list, check element = .ok () := by
  induction list with
  | nil => simp [List.forM_eq_forM, pure, Except.pure]
  | cons head rest inductionHypothesis =>
      rw [List.forM_eq_forM] at inductionHypothesis ⊢
      rw [List.forM_cons, bind_eq_ok]
      constructor
      · rintro ⟨_, first, others⟩ element member
        rcases List.mem_cons.mp member with same | later
        · rw [same]
          exact first
        · exact inductionHypothesis.mp others element later
      · intro all
        exact ⟨(), all head List.mem_cons_self, inductionHypothesis.mpr
          fun element member => all element (List.mem_cons_of_mem head member)⟩

/-- A walk through a list ends with a failure exactly when some element fails with it
and all before it pass.  What comes after that element is never looked at. -/
theorem forM_eq_error {Element : Type} {check : Element -> Attempt Reason Unit}
    {list : List Element} {failure : Failure Reason} :
    list.forM check = .error failure ↔ ∃ before element after,
      list = before ++ element :: after ∧ (∀ earlier ∈ before, check earlier = .ok ()) ∧
        check element = .error failure := by
  constructor
  · intro failed
    induction list with
    | nil => cases failed
    | cons head rest inductionHypothesis =>
        cases verdict : check head with
        | error other =>
            rw [List.forM_eq_forM, List.forM_cons, verdict] at failed
            injection failed with same
            rw [← same]
            exact ⟨[], head, rest, rfl, List.forall_mem_nil _, verdict⟩
        | ok =>
            rw [List.forM_eq_forM, List.forM_cons, verdict, ok_bind, ← List.forM_eq_forM] at failed
            rcases inductionHypothesis failed with ⟨before, element, after, parts, passed, fails⟩
            refine ⟨head :: before, element, after, by rw [parts, List.cons_append], ?_, fails⟩
            exact List.forall_mem_cons.mpr ⟨verdict, passed⟩
  · rintro ⟨before, element, after, rfl, passed, fails⟩
    have walked : forM before check = .ok () := forM_eq_ok.mpr passed
    rw [List.forM_eq_forM, List.forM_append, walked, ok_bind, List.forM_cons, fails]
    rfl

/-- Every element of a list can be turned into a value exactly when the list
can. -/
theorem exists_mapM_eq_ok {Element : Type} {change : Element -> Attempt Reason Value}
    {list : List Element} :
    (∃ values, list.mapM change = .ok values) ↔
      ∀ element ∈ list, ∃ value, change element = .ok value := by
  induction list with
  | nil => simp [pure, Except.pure]
  | cons head rest inductionHypothesis =>
      rw [List.mapM_cons]
      constructor
      · rintro ⟨values, whole⟩ element member
        rcases bind_eq_ok.mp whole with ⟨first, found, others⟩
        rcases bind_eq_ok.mp others with ⟨tail, later, _⟩
        rcases List.mem_cons.mp member with same | inside
        · rw [same]
          exact ⟨first, found⟩
        · exact inductionHypothesis.mp ⟨tail, later⟩ element inside
      · intro all
        rcases all head List.mem_cons_self with ⟨first, found⟩
        rcases inductionHypothesis.mpr
          fun element member => all element (List.mem_cons_of_mem head member) with ⟨tail, later⟩
        exact ⟨first :: tail, bind_eq_ok.mpr ⟨first, found, bind_eq_ok.mpr ⟨tail, later, rfl⟩⟩⟩

/-! ## Answers -/

theorem answered_of_eq_ok {attempt : Attempt Reason Value} {value : Value}
    (found : attempt = .ok value) : attempt.Answered := by
  rw [found]
  trivial

theorem answered_bind {attempt : Attempt Reason Value} {next : Value -> Attempt Reason Result}
    (first : attempt.Answered) (rest : ∀ value, attempt = .ok value -> (next value).Answered) :
    Answered (attempt >>= next) := by
  cases attempt with
  | ok value => exact rest value rfl
  | error failure =>
      cases failure with
      | refused reason => trivial
      | undefined step => exact first

theorem answered_ite_refuse {condition : Prop} [Decidable condition] {reason : Reason}
    {attempt : Attempt Reason Value} (rest : ¬ condition -> attempt.Answered) :
    Answered (if condition then refuse reason else attempt) := by
  by_cases holds : condition
  · rw [if_pos holds]
    trivial
  · rw [if_neg holds]
    exact rest holds

theorem answered_forM {Element : Type} {check : Element -> Attempt Reason Unit}
    {list : List Element} (every : ∀ element ∈ list, (check element).Answered) :
    Answered (list.forM check) := by
  induction list with
  | nil => trivial
  | cons head rest inductionHypothesis =>
      apply answered_bind (every head List.mem_cons_self)
      intro _ _
      exact inductionHypothesis fun element member =>
        every element (List.mem_cons_of_mem head member)

theorem answered_mapM {Element : Type} {change : Element -> Attempt Reason Value}
    {list : List Element} (every : ∀ element ∈ list, (change element).Answered) :
    Answered (list.mapM change) := by
  induction list with
  | nil => trivial
  | cons head rest inductionHypothesis =>
      rw [List.mapM_cons]
      apply answered_bind (every head List.mem_cons_self)
      intro first _
      apply answered_bind
      · exact inductionHypothesis fun element member =>
          every element (List.mem_cons_of_mem head member)
      · intro _ _
        trivial

end Attempt

namespace Checked

variable {Reason : Type}

@[simp] theorem difference_eq_ok {left right result : Nat} :
    (difference left right : Attempt Reason Nat) = .ok result ↔
      right ≤ left ∧ left - right = result := by
  unfold difference Attempt.breakDown
  by_cases ordered : right ≤ left
  · simp [ordered]
  · simp [ordered]

@[simp] theorem unlessZero_eq_ok {Number Result : Type} [OfNat Number 0] [DecidableEq Number]
    {divisor : Number} {value result : Result} :
    (unlessZero divisor value : Attempt Reason Result) = .ok result ↔
      divisor ≠ 0 ∧ value = result := by
  unfold unlessZero Attempt.breakDown
  by_cases zero : divisor = 0
  · simp [zero]
  · simp [zero]

end Checked

end PackedLedger
