import PackedLedger.Allocation.Basic
import PackedLedger.Proofs.Draws
import PackedLedger.Proofs.Rearrangement

namespace PackedLedger

/-!
# The order of slots does not matter

A check of a rearranged allocation runs through the same stages with the same
values.  The one place where order shows is the list of supply-side ranges, which is
filled field by field.  Total borrows are pulled out of it in front, so the first
entry of a report, and with it the headline of what can be borrowed, stays where it
is.  The sweep sees nothing of the order at all: it is the same sweep, so from the
same seed it draws the same indices, gives the same notes and comes to the same end.
-/

namespace Attempt

variable {Reason Element Value : Type}

/-- The values of a list are those of its elements, one by one. -/
theorem mapM_eq_ok {change : Element -> Attempt Reason Value} {list : List Element}
    {values : List Value} :
    list.mapM change = .ok values ↔
      List.Forall₂ (fun element value => change element = .ok value) list values := by
  induction list generalizing values with
  | nil =>
      rw [List.mapM_nil, pure_eq_ok, List.forall₂_nil_left_iff, eq_comm]
  | cons head rest inductionHypothesis =>
      rw [List.mapM_cons, bind_eq_ok]
      simp only [bind_eq_ok, pure_eq_ok, inductionHypothesis]
      constructor
      · intro found
        rcases found with ⟨first, thisOne, others, later, rfl⟩
        exact .cons thisOne later
      · intro pairs
        cases pairs with
        | cons thisOne later => exact ⟨_, thisOne, _, later, rfl⟩

theorem mapM_perm {change : Element -> Attempt Reason Value} {list other : List Element}
    {values : List Value} (order : list.Perm other) (found : list.mapM change = .ok values) :
    ∃ others, other.mapM change = .ok others ∧ values.Perm others := by
  rcases List.perm_comp_forall₂ order.symm (mapM_eq_ok.mp found) with ⟨others, pairs, same⟩
  exact ⟨others, mapM_eq_ok.mpr pairs, same.symm⟩

end Attempt

/-! ## Stages -/

theorem FieldRange.of_role {field : Field} {assetDecimals : Nat} {parameters : Parameters}
    {grid : FixedPoint.Grid} {range : FieldRange}
    (found : FieldRange.of field assetDecimals parameters grid = .ok range) :
    range.role = field.role := by
  simp only [FieldRange.of, Attempt.bind_eq_ok, Attempt.ite_refuse_eq_ok, Attempt.pure_eq_ok]
    at found
  rcases found with ⟨_, _, _, _, _, rfl⟩
  rfl

/-- The first range of an envelope is that of total borrows. -/
theorem Envelope.totalRange_role {allocation : Allocation} {assetDecimals : Nat}
    {parameters : Parameters} {horizon : Horizon} {envelope : Envelope}
    (derived : ofAllocation allocation assetDecimals parameters horizon = .ok envelope) :
    envelope.totalRange.role = .totalBorrows := by
  rcases ofAllocation_eq_ok.mp derived with ⟨grid, index, total, floor, ceiling, blocks, stages⟩
  have held : total ∈ allocation.withRole .totalBorrows := by
    rw [stages.one_total]
    exact List.mem_singleton_self total
  rw [FieldRange.of_role stages.total_range]
  exact (Allocation.mem_of_withRole held).2

namespace Allocation.ReadAlike

variable {allocation other : Allocation} {assetDecimals now : Nat} {parameters : Parameters}
  {horizon : Horizon} {envelope : Envelope} (alike : allocation.ReadAlike other)
include alike

theorem horizon_eq_ok (found : Horizon.ofAllocation allocation now parameters = .ok horizon) :
    Horizon.ofAllocation other now parameters = .ok horizon := by
  rcases Attempt.bind_eq_ok.mp found with ⟨timestamp, required, lasting⟩
  exact Attempt.bind_eq_ok.mpr
    ⟨timestamp, alike.requireRole_eq_ok (by decide) required, lasting⟩

theorem scaling_eq_ok {scaling : Scaling} (found : Scaling.ofAllocation allocation = .ok scaling) :
    Scaling.ofAllocation other = .ok scaling := by
  rcases Scaling.ofAllocation_eq_ok.mp found with
    ⟨index, total, account, oneIndex, oneTotal, oneAccount, wide, same⟩
  rw [← alike.accrualPrecision] at same
  exact Scaling.ofAllocation_eq_ok.mpr
    ⟨index, total, account, alike.withRole_eq_singleton (by decide) oneIndex,
      alike.withRole_eq_singleton (by decide) oneTotal,
      alike.withRole_eq_singleton (by decide) oneAccount, wide, same⟩

/-- Only the list of supply-side ranges of an envelope follows the order of the
fields. -/
theorem envelope_eq_ok
    (derived : Envelope.ofAllocation allocation assetDecimals parameters horizon = .ok envelope) :
    ∃ ranges, envelope.supplyRanges.Perm ranges ∧
      Envelope.ofAllocation other assetDecimals parameters horizon =
        .ok { envelope with supplyRanges := ranges } := by
  rcases Envelope.ofAllocation_eq_ok.mp derived with
    ⟨grid, index, total, floor, ceiling, blocks, stages⟩
  rcases Attempt.mapM_perm alike.supplyFields_perm stages.supply_ranges with ⟨ranges, found, order⟩
  refine ⟨ranges, order, Envelope.ofAllocation_eq_ok.mpr
    ⟨grid, index, total, floor, ceiling, blocks, ?_⟩⟩
  exact { stages with
    one_index := alike.withRole_eq_singleton (by decide) stages.one_index
    one_total := alike.withRole_eq_singleton (by decide) stages.one_total
    scaling_found := alike.scaling_eq_ok stages.scaling_found
    supply_ranges := found }

theorem sweep_eq_ok {sweep : Sweep} (ranges : List FieldRange)
    (found : Sweep.ofAllocation allocation envelope = .ok sweep) :
    Sweep.ofAllocation other { envelope with supplyRanges := ranges } = .ok sweep := by
  rcases Attempt.bind_eq_ok.mp found with ⟨index, oneIndex, rest⟩
  rcases Attempt.bind_eq_ok.mp rest with ⟨account, oneAccount, same⟩
  exact Attempt.bind_eq_ok.mpr ⟨index, alike.requireRole_eq_ok (by decide) oneIndex,
    Attempt.bind_eq_ok.mpr ⟨account, alike.requireRole_eq_ok (by decide) oneAccount, same⟩⟩

theorem reserveGrowth_eq_ok {growth : Option Reserve.Growth}
    (found : Candidate.reserveGrowth allocation assetDecimals parameters = .ok growth) :
    Candidate.reserveGrowth other assetDecimals parameters = .ok growth := by
  rcases Attempt.bind_eq_ok.mp found with ⟨supply, lookedUp, rest⟩
  exact Attempt.bind_eq_ok.mpr ⟨supply, alike.findRole_eq_ok (by decide) lookedUp, rest⟩

end Allocation.ReadAlike

/-! ## The two runs -/

namespace Candidate

/-- The first half of a check: the envelope of a candidate and the sweep over it. -/
def prepare (allocation : Allocation) (assetDecimals : Nat) (parameters : Parameters)
    (now : Nat) : Verdict (Envelope × Sweep) := do
  parameters.check
  allocation.checkFilled
  let horizon ← Horizon.ofAllocation allocation now parameters
  let envelope ← Envelope.ofAllocation allocation assetDecimals parameters horizon
  let sweep ← Sweep.ofAllocation allocation envelope
  return (envelope, sweep)

theorem prepare_eq_ok {allocation : Allocation} {assetDecimals : Nat} {parameters : Parameters}
    {now : Nat} {envelope : Envelope} {sweep : Sweep} :
    prepare allocation assetDecimals parameters now = .ok (envelope, sweep) ↔
      parameters.check = .ok () ∧ allocation.checkFilled = .ok () ∧ ∃ horizon,
        Horizon.ofAllocation allocation now parameters = .ok horizon ∧
        Envelope.ofAllocation allocation assetDecimals parameters horizon = .ok envelope ∧
        Sweep.ofAllocation allocation envelope = .ok sweep := by
  simp [prepare, Unique.exists_iff]

theorem check_eq_prepare_bind (allocation : Allocation) (assetDecimals : Nat)
    (parameters : Parameters) (now : Nat) :
    check allocation assetDecimals parameters now =
      (prepare allocation assetDecimals parameters now >>= fun (envelope, sweep) => do
        let monotonicity ← (sweep.run parameters.samples parameters.seed).result
        let growth ← reserveGrowth allocation assetDecimals parameters
        return .ofEnvelope allocation.name assetDecimals envelope monotonicity growth) := by
  simp only [check, prepare, bind_assoc, pure_bind]

/-- The index that the sweep of a check draws at a position. -/
def drawn (allocation : Allocation) (assetDecimals : Nat) (parameters : Parameters) (now : Nat)
    (position : Nat) : Verdict Nat := do
  let (_, sweep) ← prepare allocation assetDecimals parameters now
  Sweep.drawnAt sweep.scaling.initialIndex sweep.penultimateIndex position (.ofSeed parameters.seed)

end Candidate

/-- Two reports that agree in everything but the order of the supply-side maxima.
Both begin with the maximum of total borrows. -/
structure Report.SameButSupplyOrder (report other : Report) : Prop where
  maxima : ∃ total supply otherSupply, report.maxima = total :: supply ∧
    other.maxima = total :: otherSupply ∧ total.role = .totalBorrows ∧ supply.Perm otherSupply
  rest : { report with supplyRanges := other.supplyRanges } = other

namespace Allocation.ReadAlike

variable {allocation other : Allocation} {assetDecimals now : Nat} {parameters : Parameters}
  (alike : allocation.ReadAlike other)
include alike

theorem prepare_eq_ok {envelope : Envelope} {sweep : Sweep}
    (found : Candidate.prepare allocation assetDecimals parameters now = .ok (envelope, sweep)) :
    ∃ ranges, envelope.supplyRanges.Perm ranges ∧
      Candidate.prepare other assetDecimals parameters now =
        .ok ({ envelope with supplyRanges := ranges }, sweep) := by
  rcases Candidate.prepare_eq_ok.mp found with
    ⟨sound, filled, horizon, lasts, derived, sweepFound⟩
  rcases alike.envelope_eq_ok derived with ⟨ranges, order, also⟩
  exact ⟨ranges, order, Candidate.prepare_eq_ok.mpr ⟨sound, alike.filled.mp filled, horizon,
    alike.horizon_eq_ok lasts, also, alike.sweep_eq_ok ranges sweepFound⟩⟩

theorem drawn_eq_ok {position index : Nat}
    (found : Candidate.drawn allocation assetDecimals parameters now position = .ok index) :
    Candidate.drawn other assetDecimals parameters now position = .ok index := by
  rcases Attempt.bind_eq_ok.mp found with ⟨⟨envelope, sweep⟩, prepared, draw⟩
  rcases alike.prepare_eq_ok prepared with ⟨ranges, _, also⟩
  exact Attempt.bind_eq_ok.mpr ⟨_, also, draw⟩

/-- An accepted candidate is accepted with its slots in another order, too, and the
report says the same. -/
theorem check_eq_ok {report : Report}
    (accepted : Candidate.check allocation assetDecimals parameters now = .ok report) :
    ∃ second, Candidate.check other assetDecimals parameters now = .ok second ∧
      report.SameButSupplyOrder second := by
  rw [Candidate.check_eq_prepare_bind] at accepted ⊢
  rcases Attempt.bind_eq_ok.mp accepted with ⟨⟨envelope, sweep⟩, prepared, rest⟩
  rcases Attempt.bind_eq_ok.mp rest with ⟨monotonicity, swept, rest⟩
  rcases Attempt.bind_eq_ok.mp rest with ⟨growth, grown, same⟩
  cases same
  rcases Candidate.prepare_eq_ok.mp prepared with ⟨_, _, horizon, _, derived, _⟩
  rcases alike.prepare_eq_ok prepared with ⟨ranges, order, also⟩
  refine ⟨_, Attempt.bind_eq_ok.mpr ⟨_, also, Attempt.bind_eq_ok.mpr ⟨monotonicity, swept,
    Attempt.bind_eq_ok.mpr ⟨growth, alike.reserveGrowth_eq_ok grown, rfl⟩⟩⟩, ?_⟩
  refine ⟨⟨envelope.totalRange, _, ranges, rfl, rfl, Envelope.totalRange_role derived, order⟩, ?_⟩
  rw [alike.name]
  rfl

theorem accepted
    (passed : ∃ report, Candidate.check allocation assetDecimals parameters now = .ok report) :
    ∃ report, Candidate.check other assetDecimals parameters now = .ok report := by
  rcases passed with ⟨report, found⟩
  rcases alike.check_eq_ok found with ⟨second, also, _⟩
  exact ⟨second, also⟩

theorem swept {sweep : Sweep} (prepared : ∃ envelope,
      Candidate.prepare allocation assetDecimals parameters now = .ok (envelope, sweep)) :
    ∃ envelope, Candidate.prepare other assetDecimals parameters now = .ok (envelope, sweep) := by
  rcases prepared with ⟨envelope, found⟩
  rcases alike.prepare_eq_ok found with ⟨ranges, _, also⟩
  exact ⟨_, also⟩

end Allocation.ReadAlike

namespace Candidate

/-- The checks of two allocations come to the same: both accept or neither does,
accepted ones are reported alike, and the sweeps are one sweep with one sequence of
draws. -/
structure JudgedAlike (allocation other : Allocation) (assetDecimals : Nat)
    (parameters : Parameters) (now : Nat) : Prop where
  accepted : (∃ report, check allocation assetDecimals parameters now = .ok report) ↔
    ∃ report, check other assetDecimals parameters now = .ok report
  reports : ∀ report second, check allocation assetDecimals parameters now = .ok report ->
    check other assetDecimals parameters now = .ok second -> report.SameButSupplyOrder second
  sweeps : ∀ sweep, (∃ envelope, prepare allocation assetDecimals parameters now =
      .ok (envelope, sweep)) ↔
    ∃ envelope, prepare other assetDecimals parameters now = .ok (envelope, sweep)
  draws : ∀ position index, drawn allocation assetDecimals parameters now position = .ok index ↔
    drawn other assetDecimals parameters now position = .ok index

/-- Neither the order of slots, nor that of the fields in a slot, nor slots filled by
fields without a role make a difference to a check. -/
theorem check_ignores_slot_order {allocation other : Allocation}
    (rearranged : allocation.Rearranged other) (assetDecimals : Nat) (parameters : Parameters)
    (now : Nat) : JudgedAlike allocation other assetDecimals parameters now := by
  have alike := rearranged.readAlike
  refine ⟨⟨alike.accepted, alike.symm.accepted⟩, ?_, fun sweep => ⟨alike.swept, alike.symm.swept⟩,
    fun position index => ⟨alike.drawn_eq_ok, alike.symm.drawn_eq_ok⟩⟩
  intro report second found also
  rcases alike.check_eq_ok found with ⟨same, again, agree⟩
  cases also.symm.trans again
  exact agree

/-- Two flags without a role that fill eight bits. -/
def flagSlot : Slot where
  name := "flags"
  capacity := 8
  fields := [⟨"paused", 1, none, .other⟩, ⟨"kind", 7, none, .other⟩]

/-- The second layout read backwards, slots and fields, with a slot of flags in front. -/
def backwardSecond : Allocation :=
  let slots := Generation.v2.allocation.slots.map fun slot =>
    { slot with fields := slot.fields.reverse }
  { Generation.v2.allocation with slots := (slots ++ [flagSlot]).reverse }

/-- The second layout is accepted, so it is accepted backwards, too, and judged alike. -/
theorem check_ignores_slot_order_backward :
    Generation.v2.allocation.Rearranged backwardSecond ∧
      (∃ report, check backwardSecond 6 { samples := 16 } 1700000000 = .ok report) ∧
      JudgedAlike Generation.v2.allocation backwardSecond 6 { samples := 16 } 1700000000 := by
  have rearranged : Generation.v2.allocation.Rearranged backwardSecond := by
    refine ⟨rfl, rfl, _, [flagSlot], ?_, ?_, (List.reverse_perm _).symm⟩
    · rw [List.forall₂_map_right_iff, List.forall₂_same]
      intro slot _
      exact ⟨rfl, rfl, (List.reverse_perm slot.fields).symm⟩
    · intro filler member
      rw [List.mem_singleton.mp member]
      exact ⟨by decide, by decide, by decide⟩
  have accepted : Attempt.Holds (check Generation.v2.allocation 6 { samples := 16 } 1700000000)
      fun _ => True := by decide +kernel
  rcases accepted with ⟨report, found, _⟩
  have judged := check_ignores_slot_order rearranged 6 { samples := 16 } 1700000000
  exact ⟨rearranged, judged.accepted.mp ⟨report, found⟩, judged⟩

end Candidate

end PackedLedger
