import PackedLedger.Proofs.Requirements

namespace PackedLedger

namespace Reserve

/-!
# The eroded scenario decides the reserve check

An interest grows a supply when the reserve's part of it, multiplied by the supply
and one more, covers the inventory and the interest.  A larger supply, a smaller
inventory and a smaller divisor each leave that inequality true at the same interest,
although the closed form that finds the first such interest moves in steps of the
divisor and has several cases.  So neither of them puts the first growth off.  The
eroded supply is never the larger one of the two scenarios.  An interest that grows
it in time grows the full supply in time too, and the check passes exactly when the
eroded scenario does.
-/

variable {totalSupply larger inventory smaller divisor lower interest : Nat}

/-! ## Growth with more supply, less inventory or a smaller divisor -/

theorem Grows.of_larger_supply (positive : 0 < divisor) (supplies : totalSupply ≤ larger)
    (grows : Grows totalSupply inventory divisor interest) :
    Grows larger inventory divisor interest := by
  rcases (grows_iff positive).mp grows with ⟨left, enough⟩
  have more : interest / divisor * (totalSupply + 1) ≤ interest / divisor * (larger + 1) :=
    Nat.mul_le_mul_left _ (Nat.succ_le_succ supplies)
  exact (grows_iff positive).mpr ⟨left, enough.trans more⟩

/-- A smaller divisor leaves the reserve a larger part, and a smaller inventory takes
less of it to cover.  Some inventory has to be held, or a divisor of one would leave
nothing beside the reserve. -/
theorem Grows.of_smaller_divisor (someDivisor : 0 < lower) (divisors : lower ≤ divisor)
    (held : 0 < smaller) (inventories : smaller ≤ inventory)
    (grows : Grows totalSupply inventory divisor interest) :
    Grows totalSupply smaller lower interest := by
  rcases (grows_iff (someDivisor.trans_le divisors)).mp grows with ⟨_, enough⟩
  have part : interest / lower ≤ interest := Nat.div_le_self _ _
  have more : interest / divisor * (totalSupply + 1) ≤ interest / lower * (totalSupply + 1) :=
    Nat.mul_le_mul_right _ (Nat.div_le_div_left divisors someDivisor)
  rw [grows_iff someDivisor]
  exact ⟨by omega, by omega⟩

/-! ## The first growth -/

theorem isLeast_of_firstGrowth (positive : 0 < divisor)
    (found : (firstGrowth totalSupply inventory divisor : Verdict (Option Nat)) =
      .ok (some interest)) :
    IsLeast {candidate | 1 ≤ candidate ∧ Grows totalSupply inventory divisor candidate}
      interest := by
  rcases firstGrowth_spec totalSupply inventory positive with
    ⟨first, value, least⟩ | ⟨value, _⟩
  · cases found.symm.trans value
    exact least
  · cases found.symm.trans value

theorem exists_firstGrowth_le (positive : 0 < divisor) (someInterest : 1 ≤ interest)
    (grows : Grows totalSupply inventory divisor interest) :
    ∃ first, (firstGrowth totalSupply inventory divisor : Verdict (Option Nat)) =
      .ok (some first) ∧ first ≤ interest := by
  rcases firstGrowth_spec totalSupply inventory positive with
    ⟨first, value, least⟩ | ⟨_, never⟩
  · exact ⟨first, value, least.2 ⟨someInterest, grows⟩⟩
  · exact absurd grows (never interest)

/-- A supply field with at least the width and the precision of another. -/
structure Extends (extended supply : Field) : Prop where
  bits : supply.bits ≤ extended.bits
  digits : supply.digits ≤ extended.digits

theorem Extends.mintedSupply_le {extended supply : Field} (extendsSupply : Extends extended supply)
    (inventory : Nat) : mintedSupply supply inventory ≤ mintedSupply extended inventory := by
  have minted : inventory * powerOfTen supply.digits ≤ inventory * powerOfTen extended.digits :=
    Nat.mul_le_mul_left _ (Nat.pow_le_pow_right (by decide) extendsSupply.digits)
  exact min_le_min minted (fieldMaximum_mono extendsSupply.bits)

/-- A larger supply, a smaller inventory and a smaller divisor, alone or together, keep
a first growth and put it off to no later interest. -/
theorem exists_firstGrowth_le_of_eased (supplies : totalSupply ≤ larger) (held : 0 < smaller)
    (inventories : smaller ≤ inventory) (someDivisor : 0 < lower) (divisors : lower ≤ divisor)
    (found : (firstGrowth totalSupply inventory divisor : Verdict (Option Nat)) =
      .ok (some interest)) :
    ∃ earlier, (firstGrowth larger smaller lower : Verdict (Option Nat)) = .ok (some earlier) ∧
      earlier ≤ interest := by
  rcases isLeast_of_firstGrowth (someDivisor.trans_le divisors) found with
    ⟨⟨someInterest, grows⟩, _⟩
  have eased := grows.of_smaller_divisor someDivisor divisors held inventories
  exact exists_firstGrowth_le someDivisor someInterest
    (eased.of_larger_supply someDivisor supplies)

/-- No remedy for a stalled reserve makes matters worse.  A first growth stays and comes
no later when the supply grows, the inventory falls or the divisor falls, and so it does
when the supply field gets wider or more precise, whatever the erosion. -/
theorem remedies_never_delay_growth :
    (∀ {totalSupply larger inventory smaller divisor lower interest : Nat},
      totalSupply ≤ larger -> 1 ≤ smaller -> smaller ≤ inventory -> 1 ≤ lower ->
      lower ≤ divisor ->
      (firstGrowth totalSupply inventory divisor : Verdict (Option Nat)) = .ok (some interest) ->
      ∃ earlier, (firstGrowth larger smaller lower : Verdict (Option Nat)) =
        .ok (some earlier) ∧ earlier ≤ interest) ∧
    ∀ {supply extended : Field} {inventory erosion divisor lower interest : Nat},
      Extends extended supply -> 1 ≤ inventory -> 1 ≤ lower -> lower ≤ divisor ->
      (firstGrowth (mintedSupply supply inventory / erosion) inventory divisor :
        Verdict (Option Nat)) = .ok (some interest) ->
      ∃ earlier, (firstGrowth (mintedSupply extended inventory / erosion) inventory lower :
        Verdict (Option Nat)) = .ok (some earlier) ∧ earlier ≤ interest := by
  constructor
  · intro totalSupply larger inventory smaller divisor lower interest supplies held inventories
      someDivisor divisors found
    exact exists_firstGrowth_le_of_eased supplies held inventories someDivisor divisors found
  · intro supply extended inventory erosion divisor lower interest extendsSupply held
      someDivisor divisors found
    have supplies : mintedSupply supply inventory / erosion ≤
        mintedSupply extended inventory / erosion :=
      Nat.div_le_div_right (extendsSupply.mintedSupply_le inventory)
    exact exists_firstGrowth_le_of_eased supplies held le_rfl someDivisor divisors found

/-- A tenth of a supply as large as its inventory first grows at eighty-eight.  It does so
no later with ten times the supply and half the inventory, nor with six digits more for
the field, and half the divisor each time. -/
theorem remedies_never_delay_growth_millions :
    (∃ earlier, (firstGrowth 1000000 500000 4 : Verdict (Option Nat)) = .ok (some earlier) ∧
      earlier ≤ 88) ∧
    ∃ earlier, (firstGrowth (mintedSupply ⟨"totalSupply", 112, some 6, .totalSupply⟩
        1000000000000 / 10) 1000000000000 4 : Verdict (Option Nat)) = .ok (some earlier) ∧
      earlier ≤ 88 := by
  rcases remedies_never_delay_growth with ⟨numbers, fields⟩
  constructor
  · exact numbers (show 100000 ≤ 1000000 by decide) (by decide) (show 500000 ≤ 1000000 by decide)
      (by decide) (show 4 ≤ 8 by decide) (by decide +kernel)
  · have wider : Extends ⟨"totalSupply", 112, some 6, .totalSupply⟩
        ⟨"totalSupply", 112, none, .totalSupply⟩ := ⟨by decide, by decide⟩
    exact fields wider (by decide) (by decide) (show 4 ≤ 8 by decide) (by decide +kernel)

/-! ## Scenarios -/

variable {parameters : Parameters} {assetUnit : Nat}

theorem timely_subset (positive : 0 < parameters.reserveDivisor) (supplies : totalSupply ≤ larger) :
    Timely totalSupply inventory assetUnit parameters ⊆
      Timely larger inventory assetUnit parameters := by
  intro interest timely
  rcases timely with ⟨someInterest, early, grows⟩
  exact ⟨someInterest, early, grows.of_larger_supply positive supplies⟩

/-! ## The two scenarios of a field -/

section Field

variable {supply : Field} {assetDecimals : Nat}

theorem erodedSupply_le (supply : Field) (assetDecimals : Nat) (parameters : Parameters) :
    erodedSupply supply assetDecimals parameters ≤ fullSupply supply assetDecimals parameters :=
  Nat.div_le_self _ _

/-- The check of a supply field ends with the least timely interests of both scenarios,
or it stalls and so does the eroded scenario. -/
theorem check_spec (positive : 0 < parameters.reserveDivisor)
    (erodes : 0 < parameters.reserveErosionFactor) (supply : Field) (assetDecimals : Nat) :
    (∃ growth, check supply assetDecimals parameters = .ok growth ∧
      IsLeast (Timely (fullSupply supply assetDecimals parameters)
        (inventoryOf assetDecimals parameters) (10 ^ assetDecimals) parameters) growth.full ∧
      IsLeast (Timely (erodedSupply supply assetDecimals parameters)
        (inventoryOf assetDecimals parameters) (10 ^ assetDecimals) parameters) growth.eroded) ∨
    ((∃ scenario stall, check supply assetDecimals parameters =
        .error (.refused (.reserveStall scenario stall))) ∧
      (∃ stall, checkScenario .eroded (erodedSupply supply assetDecimals parameters)
          (inventoryOf assetDecimals parameters) (10 ^ assetDecimals) parameters =
        .error (.refused (.reserveStall .eroded stall))) ∧
      ∀ interest, interest ∉ Timely (erodedSupply supply assetDecimals parameters)
        (inventoryOf assetDecimals parameters) (10 ^ assetDecimals) parameters) := by
  rw [check_eq_scenarios erodes]
  rcases checkScenario_spec .full (fullSupply supply assetDecimals parameters)
      (inventoryOf assetDecimals parameters) (10 ^ assetDecimals) positive with
    ⟨full, foundFull, fullLeast⟩ | ⟨⟨stall, fullStalls⟩, noneFull⟩ <;>
  rcases checkScenario_spec .eroded (erodedSupply supply assetDecimals parameters)
      (inventoryOf assetDecimals parameters) (10 ^ assetDecimals) positive with
    ⟨eroded, foundEroded, erodedLeast⟩ | ⟨⟨also, erodedStalls⟩, noneEroded⟩
  · left
    exact ⟨_, by simp [foundFull, foundEroded]; rfl, fullLeast, erodedLeast⟩
  · right
    rw [foundFull, Attempt.ok_bind, erodedStalls]
    exact ⟨⟨.eroded, also, rfl⟩, ⟨also, rfl⟩, noneEroded⟩
  · have timely := timely_subset positive (erodedSupply_le supply assetDecimals parameters)
      erodedLeast.1
    exact absurd timely (noneFull eroded)
  · right
    rw [fullStalls, erodedStalls]
    exact ⟨⟨.full, stall, rfl⟩, ⟨also, rfl⟩, noneEroded⟩

/-- What the check of a supply field answers, by the interests that are timely in its
two scenarios. -/
structure DecidedByErosion (supply : Field) (assetDecimals : Nat) (parameters : Parameters) :
    Prop where
  /-- The eroded scenario alone decides. -/
  passes_iff : (∃ growth, check supply assetDecimals parameters = .ok growth) ↔
    ∃ interest, 1 ≤ interest ∧ interest * parameters.reserveGrowthLimit < 10 ^ assetDecimals ∧
      Grows (erodedSupply supply assetDecimals parameters) (inventoryOf assetDecimals parameters)
        parameters.reserveDivisor interest
  /-- Both answers are the least interests of their scenarios, the full one first. -/
  least : ∀ growth, check supply assetDecimals parameters = .ok growth ->
    IsLeast (Timely (fullSupply supply assetDecimals parameters)
        (inventoryOf assetDecimals parameters) (10 ^ assetDecimals) parameters) growth.full ∧
      IsLeast (Timely (erodedSupply supply assetDecimals parameters)
        (inventoryOf assetDecimals parameters) (10 ^ assetDecimals) parameters) growth.eroded ∧
      growth.full ≤ growth.eroded
  /-- Whatever does not pass is refused as a stall. -/
  stalls : ∀ failure, check supply assetDecimals parameters = .error failure ->
    ∃ scenario stall, failure = .refused (.reserveStall scenario stall)
  /-- A stall of the full supply is one of the eroded supply as well. -/
  full_stalls : ∀ stall, check supply assetDecimals parameters =
      .error (.refused (.reserveStall .full stall)) ->
    ∃ also, checkScenario .eroded (erodedSupply supply assetDecimals parameters)
        (inventoryOf assetDecimals parameters) (10 ^ assetDecimals) parameters =
      .error (.refused (.reserveStall .eroded also))

/-- With something to divide by, the check of a supply field passes exactly when some
interest grows the eroded supply in time. -/
theorem check_decided_by_erosion (positive : 0 < parameters.reserveDivisor)
    (erodes : 0 < parameters.reserveErosionFactor) (supply : Field) (assetDecimals : Nat) :
    DecidedByErosion supply assetDecimals parameters := by
  rcases check_spec positive erodes supply assetDecimals with
    ⟨growth, passes, fullLeast, erodedLeast⟩ | ⟨⟨scenario, stall, fails⟩, stalls, noneTimely⟩
  · have ordered := fullLeast.2
      (timely_subset positive (erodedSupply_le supply assetDecimals parameters) erodedLeast.1)
    refine ⟨⟨fun _ => ⟨_, erodedLeast.1⟩, fun _ => ⟨_, passes⟩⟩, ?_, ?_, ?_⟩ <;>
      intro result found <;> cases found.symm.trans passes
    exact ⟨fullLeast, erodedLeast, ordered⟩
  · refine ⟨⟨?_, ?_⟩, ?_, ?_, fun _ _ => stalls⟩
    · intro passed
      rcases passed with ⟨growth, passes⟩
      cases passes.symm.trans fails
    · intro timely
      rcases timely with ⟨interest, timely⟩
      exact absurd timely (noneTimely interest)
    · intro growth passes
      cases passes.symm.trans fails
    · intro failure found
      cases found.symm.trans fails
      exact ⟨scenario, stall, rfl⟩

/-- The supply of the second layout at six decimals starts to grow at sixteen raw units,
and at eighty-eight once it is eroded. -/
theorem check_decided_by_erosion_second_generation :
    check ⟨"totalSupply", 112, none, .totalSupply⟩ 6 {} = .ok ⟨8, 16, 88⟩ ∧
      IsLeast (Timely (erodedSupply ⟨"totalSupply", 112, none, .totalSupply⟩ 6 {})
        (inventoryOf 6 {}) (10 ^ 6) {}) 88 := by
  have decided : DecidedByErosion ⟨"totalSupply", 112, none, .totalSupply⟩ 6 {} :=
    check_decided_by_erosion (by decide) (by decide) _ _
  have passes : check ⟨"totalSupply", 112, none, .totalSupply⟩ 6 {} = .ok ⟨8, 16, 88⟩ := by
    decide +kernel
  exact ⟨passes, (decided.least _ passes).2.1⟩

end Field

end Reserve

end PackedLedger
