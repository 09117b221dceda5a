import Mathlib.Order.Bounds.Basic
import PackedLedger.Proofs.Attempt
import PackedLedger.Reserve

namespace PackedLedger

namespace Reserve

/-!
# The closed form of reserve growth is exact

The supply after a mint rises with the reserve's part of the interest and falls
with the rest, so as a function of the interest it is a sawtooth.  Where it is
above the supply before the mint is decided by one inequality, `grows_iff`, in
which the interest occurs only through itself and its reserve part.  At a given
reserve part the least interest is the best one, and there the inequality is a
bound on the reserve part alone, `Covers`.  The least reserve part that covers
is the answer, and when none does no interest whatsoever grows the supply.
-/

variable {totalSupply inventory interest divisor : Nat}

/-- The mint for an interest leaves more than the supply it began with. -/
def Grows (totalSupply inventory divisor interest : Nat) : Prop :=
  ∃ supply, (mint totalSupply inventory interest divisor : Verdict Nat) = .ok supply ∧
    totalSupply < supply

theorem mint_of_pos (positive : 0 < divisor) :
    (mint totalSupply inventory interest divisor : Verdict Nat) =
      if inventory + interest - interest / divisor = 0 then .ok totalSupply
      else .ok (totalSupply * (inventory + interest) /
        (inventory + interest - interest / divisor)) := by
  have part : interest / divisor ≤ inventory + interest :=
    Nat.le_trans (Nat.div_le_self _ _) (Nat.le_add_left _ _)
  by_cases exhausted : inventory + interest - interest / divisor = 0
  · simp [mint, Nat.ne_of_gt positive, part, exhausted]
  · simp [mint, Nat.ne_of_gt positive, part, exhausted]

theorem mint_total (totalSupply inventory interest : Nat) (positive : 0 < divisor) :
    ∃ supply, (mint totalSupply inventory interest divisor : Verdict Nat) = .ok supply := by
  rw [mint_of_pos positive]
  split
  · exact ⟨_, rfl⟩
  · exact ⟨_, rfl⟩

theorem grows_iff (positive : 0 < divisor) :
    Grows totalSupply inventory divisor interest ↔
      0 < inventory + interest - interest / divisor ∧
        inventory + interest ≤ interest / divisor * (totalSupply + 1) := by
  have part : interest / divisor ≤ inventory + interest :=
    Nat.le_trans (Nat.div_le_self _ _) (Nat.le_add_left _ _)
  rw [Grows, mint_of_pos positive]
  by_cases exhausted : inventory + interest - interest / divisor = 0
  · simp [exhausted]
  · have left : 0 < inventory + interest - interest / divisor := Nat.pos_of_ne_zero exhausted
    have payment : (totalSupply + 1) * (inventory + interest - interest / divisor) +
        interest / divisor * (totalSupply + 1) =
          totalSupply * (inventory + interest) + (inventory + interest) := by
      rw [Nat.mul_comm (interest / divisor), ← Nat.mul_add, Nat.sub_add_cancel part,
        Nat.add_mul, Nat.one_mul]
    have fits : totalSupply < totalSupply * (inventory + interest) /
          (inventory + interest - interest / divisor) ↔
        (totalSupply + 1) * (inventory + interest - interest / divisor) ≤
          totalSupply * (inventory + interest) :=
      Nat.le_div_iff_mul_le left
    constructor
    · intro grows
      rcases grows with ⟨supply, value, more⟩
      rw [if_neg exhausted] at value
      cases value
      exact ⟨left, by have enough := fits.mp more; omega⟩
    · intro paid
      rcases paid with ⟨_, enough⟩
      exact ⟨_, if_neg exhausted, fits.mpr (by omega)⟩

/-! ## Reserve parts that cover the inventory -/

/-- A reserve part pays for one unit of supply at the least interest that has
it, which is that many divisors. -/
def Covers (totalSupply inventory divisor multiple : Nat) : Prop :=
  inventory + multiple * divisor ≤ multiple * (totalSupply + 1)

/-- An interest that grows the supply has a positive reserve part that covers. -/
theorem Grows.covers (positive : 0 < divisor)
    (grows : Grows totalSupply inventory divisor interest) :
    1 ≤ interest / divisor ∧ Covers totalSupply inventory divisor (interest / divisor) := by
  rcases (grows_iff positive).mp grows with ⟨left, enough⟩
  have multiple : interest / divisor * divisor ≤ interest := Nat.div_mul_le_self _ _
  constructor
  · apply Nat.pos_of_ne_zero
    intro nothing
    rw [nothing, Nat.zero_mul] at enough
    omega
  · exact Nat.le_trans (Nat.add_le_add_left multiple inventory) enough

theorem not_grows_of_exhausted : ¬ Grows totalSupply 0 1 interest := by
  rw [grows_iff Nat.one_pos, Nat.div_one]
  omega

theorem grows_of_covers {multiple : Nat} (positive : 0 < divisor) (least : 1 ≤ multiple)
    (covers : Covers totalSupply inventory divisor multiple)
    (backed : ¬ (inventory = 0 ∧ divisor = 1)) :
    Grows totalSupply inventory divisor (multiple * divisor) := by
  rw [grows_iff positive, Nat.mul_div_cancel _ positive]
  refine ⟨?_, covers⟩
  rcases Nat.eq_zero_or_pos inventory with noneHeld | held
  · have two : 2 ≤ divisor := by omega
    have double : multiple * 2 ≤ multiple * divisor := Nat.mul_le_mul_left multiple two
    omega
  · have whole : multiple * 1 ≤ multiple * divisor := Nat.mul_le_mul_left multiple positive
    omega

theorem covers_iff_needed_le {multiple : Nat} (room : divisor < totalSupply + 1) :
    Covers totalSupply inventory divisor multiple ↔
      (inventory + (totalSupply + 1 - divisor) - 1) / (totalSupply + 1 - divisor) ≤ multiple := by
  have gap : 0 < totalSupply + 1 - divisor := by omega
  have split : multiple * (totalSupply + 1) =
      multiple * (totalSupply + 1 - divisor) + multiple * divisor := by
    rw [← Nat.mul_add, Nat.sub_add_cancel (Nat.le_of_lt room)]
  rw [Covers, ← Nat.lt_succ_iff (n := multiple), Nat.div_lt_iff_lt_mul gap, Nat.succ_mul]
  omega

theorem leastMultiple_spec (totalSupply inventory divisor : Nat) :
    (∃ multiple, (leastMultiple totalSupply inventory divisor : Verdict (Option Nat)) =
        .ok (some multiple) ∧
      1 ≤ multiple ∧ Covers totalSupply inventory divisor multiple ∧
      ∀ other, 1 ≤ other -> Covers totalSupply inventory divisor other -> multiple ≤ other) ∨
    ((leastMultiple totalSupply inventory divisor : Verdict (Option Nat)) = .ok none ∧
      ∀ other, 1 ≤ other -> ¬ Covers totalSupply inventory divisor other) := by
  simp only [leastMultiple]
  by_cases room : divisor < totalSupply + 1
  · left
    have gap : 0 < totalSupply + 1 - divisor := by omega
    refine ⟨_, ?_, le_max_right _ 1, (covers_iff_needed_le room).mpr (le_max_left _ 1), ?_⟩
    · have rounds : 1 ≤ inventory + (totalSupply + 1 - divisor) := by omega
      simp [room, Nat.le_of_lt room, rounds, Nat.ne_of_gt gap]
    · intro other least covers
      exact max_le ((covers_iff_needed_le room).mp covers) least
  · rw [if_neg room]
    by_cases level : totalSupply + 1 = divisor ∧ inventory = 0
    · left
      rw [if_pos level]
      refine ⟨1, rfl, Nat.le_refl 1, ?_, fun other least _ => least⟩
      unfold Covers
      omega
    · right
      rw [if_neg level]
      refine ⟨rfl, ?_⟩
      intro other least covers
      unfold Covers at covers
      have wide : totalSupply + 1 ≤ divisor := Nat.le_of_not_lt room
      have outgrown : other * (totalSupply + 1) ≤ other * divisor :=
        Nat.mul_le_mul_left other wide
      have noneHeld : inventory = 0 := by omega
      have narrow : divisor ≤ totalSupply + 1 :=
        Nat.le_of_mul_le_mul_left (by omega) least
      exact level ⟨Nat.le_antisymm wide narrow, noneHeld⟩

/-! ## The first growth -/

/-- The interest before the first growth does not grow the supply. -/
theorem stalledBefore_of_first (positive : 0 < divisor)
    (first : ∀ earlier, 1 ≤ earlier -> earlier < interest ->
      ¬ Grows totalSupply inventory divisor earlier) (least : 1 ≤ interest) :
    (stalledBefore totalSupply inventory interest divisor : Verdict Bool) = .ok true := by
  unfold stalledBefore
  by_cases one : interest = 1
  · rw [if_pos one]
  · rcases mint_total totalSupply inventory (interest - 1) positive with ⟨supply, value⟩
    have flat : supply ≤ totalSupply := by
      apply Nat.le_of_not_lt
      intro more
      exact first (interest - 1) (by omega) (by omega) ⟨supply, value, more⟩
    simp [one, least, value, flat]

theorem not_grows_of_no_supply (positive : 0 < divisor) :
    ¬ Grows 0 inventory divisor interest := by
  rw [grows_iff positive]
  omega

/-- `firstGrowth` answers either with the least interest that grows the supply,
or with none when no interest grows it. -/
theorem firstGrowth_spec (totalSupply inventory : Nat) (positive : 0 < divisor) :
    (∃ interest, (firstGrowth totalSupply inventory divisor : Verdict (Option Nat)) =
        .ok (some interest) ∧
      IsLeast {candidate | 1 ≤ candidate ∧ Grows totalSupply inventory divisor candidate}
        interest) ∨
    ((firstGrowth totalSupply inventory divisor : Verdict (Option Nat)) = .ok none ∧
      ∀ interest, ¬ Grows totalSupply inventory divisor interest) := by
  unfold firstGrowth
  rcases Nat.eq_zero_or_pos totalSupply with noSupply | supplied
  · right
    subst noSupply
    exact ⟨rfl, fun interest => not_grows_of_no_supply positive⟩
  rw [if_neg (Nat.ne_of_gt supplied)]
  rcases leastMultiple_spec totalSupply inventory divisor with
    ⟨multiple, found, least, covers, minimal⟩ | ⟨found, never⟩
  · rcases mint_total totalSupply inventory (multiple * divisor) positive with ⟨supply, value⟩
    by_cases backed : inventory = 0 ∧ divisor = 1
    · right
      rcases backed with ⟨rfl, rfl⟩
      have flat : supply ≤ totalSupply :=
        Nat.le_of_not_lt fun more => not_grows_of_exhausted ⟨supply, value, more⟩
      rw [Nat.mul_one] at value
      exact ⟨by simp [found, value, flat], fun interest => not_grows_of_exhausted⟩
    · left
      have grows := grows_of_covers positive least covers backed
      have one : 1 ≤ multiple * divisor := Nat.mul_pos least positive
      have first : ∀ interest, Grows totalSupply inventory divisor interest ->
          multiple * divisor ≤ interest := by
        intro interest other
        rcases other.covers positive with ⟨part, paid⟩
        exact (Nat.le_div_iff_mul_le positive).mp (minimal _ part paid)
      have more : ¬ supply ≤ totalSupply := by
        rcases grows with ⟨same, again, larger⟩
        rw [value] at again
        cases again
        exact Nat.not_le_of_lt larger
      have stalled := stalledBefore_of_first positive
        (fun earlier _ less other => Nat.not_le_of_lt less (first earlier other)) one
      exact ⟨multiple * divisor, by simp [found, value, more, stalled], ⟨one, grows⟩,
        fun interest other => first interest other.2⟩
  · right
    refine ⟨by simp [found], fun interest grows => ?_⟩
    rcases grows.covers positive with ⟨part, paid⟩
    exact never _ part paid

/-- The closed form gives an interest exactly when that is the least positive
one whose mint grows the supply, and none exactly when no positive interest
does, however large.  Every mint it speaks about has a result. -/
theorem firstGrowth_exact (totalSupply inventory : Nat) (positive : 0 < divisor) :
    (∀ interest, (firstGrowth totalSupply inventory divisor : Verdict (Option Nat)) =
        .ok (some interest) ↔
      IsLeast {candidate | 1 ≤ candidate ∧ Grows totalSupply inventory divisor candidate}
        interest) ∧
    ((firstGrowth totalSupply inventory divisor : Verdict (Option Nat)) = .ok none ↔
      ∀ interest, 1 ≤ interest -> ¬ Grows totalSupply inventory divisor interest) ∧
    ∀ interest, ∃ supply,
      (mint totalSupply inventory interest divisor : Verdict Nat) = .ok supply := by
  refine ⟨?_, ?_, fun interest => mint_total totalSupply inventory interest positive⟩
  · intro interest
    rcases firstGrowth_spec totalSupply inventory positive with
      ⟨found, value, least⟩ | ⟨value, never⟩
    · rw [value]
      constructor
      · intro same
        cases same
        exact least
      · intro other
        rw [least.unique other]
    · rw [value]
      constructor
      · intro impossible
        cases impossible
      · intro least
        exact absurd least.1.2 (never interest)
  · rcases firstGrowth_spec totalSupply inventory positive with
      ⟨found, value, least⟩ | ⟨value, never⟩
    · rw [value]
      constructor
      · intro impossible
        cases impossible
      · intro noneGrows
        exact absurd least.1.2 (noneGrows found least.1.1)
    · rw [value]
      exact ⟨fun _ interest _ => never interest, fun _ => rfl⟩

/-- Eight raw units of a supply that is as large as its inventory are not yet
enough; sixteen are. -/
theorem firstGrowth_exact_millions :
    0 < 8 ∧ IsLeast {candidate | 1 ≤ candidate ∧ Grows 1000000 1000000 8 candidate} 16 :=
  ⟨by decide, ((firstGrowth_exact 1000000 1000000 (by decide)).1 16).mp (by decide +kernel)⟩

/-! ## Scenarios -/

variable {parameters : Parameters} {assetUnit : Nat}

/-- The interests below one asset unit over the limit that grow a supply. -/
def Timely (totalSupply inventory assetUnit : Nat) (parameters : Parameters) : Set Nat :=
  {interest | 1 ≤ interest ∧ interest * parameters.reserveGrowthLimit < assetUnit ∧
    Grows totalSupply inventory parameters.reserveDivisor interest}

/-- A scenario ends with the least timely interest, or there is none and it is refused
under its own name. -/
theorem checkScenario_spec (scenario : Scenario) (totalSupply inventory assetUnit : Nat)
    (positive : 0 < parameters.reserveDivisor) :
    (∃ interest, checkScenario scenario totalSupply inventory assetUnit parameters = .ok interest ∧
      IsLeast (Timely totalSupply inventory assetUnit parameters) interest) ∨
    ((∃ stall, checkScenario scenario totalSupply inventory assetUnit parameters =
        .error (.refused (.reserveStall scenario stall))) ∧
      ∀ interest, interest ∉ Timely totalSupply inventory assetUnit parameters) := by
  rcases firstGrowth_spec totalSupply inventory positive with
    ⟨first, found, ⟨someFirst, grows⟩, minimal⟩ | ⟨found, never⟩
  · by_cases late : assetUnit ≤ first * parameters.reserveGrowthLimit
    · right
      refine ⟨⟨_, by simp [checkScenario, found, late]; rfl⟩, ?_⟩
      intro interest timely
      rcases timely with ⟨someInterest, early, other⟩
      have later := Nat.mul_le_mul_right parameters.reserveGrowthLimit
        (minimal ⟨someInterest, other⟩)
      omega
    · left
      refine ⟨first, by simp [checkScenario, found, late],
        ⟨someFirst, Nat.lt_of_not_le late, grows⟩, ?_⟩
      intro interest timely
      exact minimal ⟨timely.1, timely.2.2⟩
  · right
    refine ⟨⟨_, by simp [checkScenario, found]; rfl⟩, ?_⟩
    intro interest timely
    exact never interest timely.2.2

/-- A scenario passes exactly when some interest is timely. -/
theorem exists_checkScenario_iff {scenario : Scenario}
    (positive : 0 < parameters.reserveDivisor) :
    (∃ interest, checkScenario scenario totalSupply inventory assetUnit parameters =
      .ok interest) ↔ (Timely totalSupply inventory assetUnit parameters).Nonempty := by
  rcases checkScenario_spec scenario totalSupply inventory assetUnit positive with
    ⟨interest, found, least⟩ | ⟨⟨stall, refused⟩, never⟩
  · exact iff_of_true ⟨interest, found⟩ ⟨interest, least.1⟩
  · rw [refused]
    constructor
    · intro passed
      rcases passed with ⟨interest, impossible⟩
      cases impossible
    · intro timely
      rcases timely with ⟨interest, timely⟩
      exact absurd timely (never interest)

end Reserve

end PackedLedger
