import PackedLedger.Proofs.ReserveGrowth

namespace PackedLedger

namespace Reserve

/-!
# The supply after a mint as a sawtooth

Over the interest the supply after a mint rises and falls.  Between two multiples of the
divisor the reserve's part stays and the rest grows, so a mint yields less and less; from
one multiple to the next the reserve gains a unit, and a mint there yields no less than at
the multiple before.  It is never below the supply it began with, and above it just where
the reserve's part pays for one more unit.  The one irregular place is where nothing is left
beside the reserve.  That takes an empty inventory, and then either no interest or a divisor
of one; the supply stays what it was, which is the least that it ever is.
-/

variable {totalSupply inventory divisor : Nat}

/-- The supply after a mint of which `reserve` of `gross` goes to the reserve. -/
def supplyAfter (totalSupply gross reserve : Nat) : Nat :=
  if gross - reserve = 0 then totalSupply else totalSupply * gross / (gross - reserve)

theorem mint_eq_supplyAfter (positive : 0 < divisor) (interest : Nat) :
    (mint totalSupply inventory interest divisor : Verdict Nat) =
      .ok (supplyAfter totalSupply (inventory + interest) (interest / divisor)) := by
  rw [mint_of_pos positive, supplyAfter]
  split <;> rfl

theorem supplyAfter_of_exhausted {gross reserve : Nat} (exhausted : gross ≤ reserve) :
    supplyAfter totalSupply gross reserve = totalSupply :=
  if_pos (Nat.sub_eq_zero_of_le exhausted)

theorem supplyAfter_of_lt {gross reserve : Nat} (left : reserve < gross) :
    supplyAfter totalSupply gross reserve = totalSupply * gross / (gross - reserve) :=
  if_neg (Nat.sub_ne_zero_of_lt left)

theorem le_supplyAfter (totalSupply gross reserve : Nat) :
    totalSupply ≤ supplyAfter totalSupply gross reserve := by
  rcases Nat.lt_or_ge reserve gross with left | exhausted
  · rw [supplyAfter_of_lt left, Nat.le_div_iff_mul_le (Nat.sub_pos_of_lt left)]
    exact Nat.mul_le_mul_left totalSupply (Nat.sub_le gross reserve)
  · rw [supplyAfter_of_exhausted exhausted]

theorem div_le_div_of_across {top bottom above below : Nat} (someBottom : 0 < bottom)
    (someBelow : 0 < below) (across : top * below ≤ above * bottom) :
    top / bottom ≤ above / below := by
  rw [Nat.le_div_iff_mul_le someBelow]
  apply Nat.le_of_mul_le_mul_right _ someBottom
  calc
    top / bottom * below * bottom = top / bottom * bottom * below := Nat.mul_right_comm _ _ _
    _ ≤ top * below := Nat.mul_le_mul_right below (Nat.div_mul_le_self top bottom)
    _ ≤ above * bottom := across

/-- The mint whose reserve part is the smaller share of its gross inventory yields no more,
as long as something is left beside the larger share. -/
theorem supplyAfter_le_of_share_le {gross reserve other part : Nat} (left : part < other)
    (share : reserve * other ≤ part * gross) :
    supplyAfter totalSupply gross reserve ≤ supplyAfter totalSupply other part := by
  rcases Nat.lt_or_ge reserve gross with someLeft | exhausted
  · rw [supplyAfter_of_lt someLeft, supplyAfter_of_lt left]
    apply div_le_div_of_across (Nat.sub_pos_of_lt someLeft) (Nat.sub_pos_of_lt left)
    have across : gross * (other - part) ≤ other * (gross - reserve) := by
      rw [Nat.mul_sub, Nat.mul_sub, Nat.mul_comm other gross, Nat.mul_comm gross part,
        Nat.mul_comm other reserve]
      exact Nat.sub_le_sub_left share _
    rw [Nat.mul_assoc, Nat.mul_assoc]
    exact Nat.mul_le_mul_left totalSupply across
  · rw [supplyAfter_of_exhausted exhausted]
    exact le_supplyAfter totalSupply other part

@[simp] theorem supplyAfter_zero (totalSupply gross : Nat) :
    supplyAfter totalSupply gross 0 = totalSupply := by
  rcases Nat.eq_zero_or_pos gross with noneHeld | held
  · rw [noneHeld]
    exact supplyAfter_of_exhausted (Nat.le_refl 0)
  · rw [supplyAfter_of_lt held, Nat.sub_zero, Nat.mul_div_cancel _ held]

/-! ## From one multiple of the divisor to the next, and between two of them -/

theorem divisor_le_one {part : Nat} (paid : 0 < part)
    (exhausted : inventory + part * divisor ≤ part) : divisor ≤ 1 := by
  apply Nat.le_of_mul_le_mul_left _ paid
  rw [Nat.mul_one]
  exact (Nat.le_add_left _ inventory).trans exhausted

/-- Over the multiples of the divisor the reserve's share of the gross inventory rises. -/
theorem supplyAfter_multiple_le {fewer more : Nat} (positive : 0 < divisor)
    (ordered : fewer ≤ more) :
    supplyAfter totalSupply (inventory + fewer * divisor) fewer ≤
      supplyAfter totalSupply (inventory + more * divisor) more := by
  rcases Nat.lt_or_ge more (inventory + more * divisor) with left | exhausted
  · apply supplyAfter_le_of_share_le left
    rw [Nat.mul_add, Nat.mul_add, Nat.mul_left_comm fewer more]
    exact Nat.add_le_add_right (Nat.mul_le_mul_right inventory ordered) _
  · rcases Nat.eq_zero_or_pos more with nonePaid | paid
    · have noneBefore : fewer = 0 := by omega
      rw [noneBefore, nonePaid]
    · have one := divisor_le_one paid exhausted
      have exhaustedBefore : inventory + fewer * divisor ≤ fewer := by
        have same : divisor = 1 := Nat.le_antisymm one positive
        rw [same, Nat.mul_one] at exhausted ⊢
        omega
      rw [supplyAfter_of_exhausted exhaustedBefore]
      exact le_supplyAfter totalSupply _ more

/-- Between two multiples of the divisor the reserve's share of the gross inventory falls. -/
theorem supplyAfter_band_le {reserve less more : Nat} (fromMultiple : reserve * divisor ≤ less)
    (ordered : less ≤ more) (toMultiple : more < (reserve + 1) * divisor) :
    supplyAfter totalSupply (inventory + more) reserve ≤
      supplyAfter totalSupply (inventory + less) reserve := by
  rcases Nat.lt_or_ge reserve (inventory + less) with left | exhausted
  · apply supplyAfter_le_of_share_le left
    exact Nat.mul_le_mul_left reserve (Nat.add_le_add_left ordered inventory)
  · rcases Nat.eq_zero_or_pos reserve with nonePaid | paid
    · rw [nonePaid, supplyAfter_zero, supplyAfter_zero]
    · have one : divisor ≤ 1 := by
        apply divisor_le_one paid
        exact (Nat.add_le_add_left fromMultiple inventory).trans exhausted
      have next : (reserve + 1) * divisor ≤ reserve * divisor + 1 := by
        rw [Nat.succ_mul]
        exact Nat.add_le_add_left one _
      have same : more = less := by omega
      rw [same]

/-- How the supply after a mint depends on the interest. -/
structure Sawtooth (totalSupply inventory divisor : Nat) (supply : Nat -> Nat) : Prop where
  never_shrinks : ∀ interest, totalSupply ≤ supply interest
  grows_iff : ∀ interest, totalSupply < supply interest ↔
    0 < inventory + interest - interest / divisor ∧
      inventory + interest ≤ interest / divisor * (totalSupply + 1)
  /-- Over the multiples of the divisor. -/
  rises : ∀ fewer more, fewer ≤ more -> supply (fewer * divisor) ≤ supply (more * divisor)
  /-- From one multiple of the divisor up to the next. -/
  falls : ∀ reserve less more, reserve * divisor ≤ less -> less ≤ more ->
    more < (reserve + 1) * divisor -> supply more ≤ supply less

/-- By a positive divisor every mint has a result, and over all interests the results form
a sawtooth. -/
theorem mint_sawtooth (totalSupply inventory : Nat) (positive : 0 < divisor) :
    ∃ supply : Nat -> Nat,
      (∀ interest, (mint totalSupply inventory interest divisor : Verdict Nat) =
        .ok (supply interest)) ∧
      Sawtooth totalSupply inventory divisor supply := by
  refine ⟨fun interest => supplyAfter totalSupply (inventory + interest) (interest / divisor),
    mint_eq_supplyAfter positive, ?_, ?_, ?_, ?_⟩
  · intro interest
    exact le_supplyAfter totalSupply _ _
  · intro interest
    rw [← grows_iff positive, Grows, mint_eq_supplyAfter positive]
    constructor
    · intro more
      exact ⟨_, rfl, more⟩
    · rintro ⟨supply, same, more⟩
      cases same
      exact more
  · intro fewer more ordered
    simp only [Nat.mul_div_cancel _ positive]
    exact supplyAfter_multiple_le positive ordered
  · intro reserve less more fromMultiple ordered toMultiple
    have lessPart : less / divisor = reserve :=
      Nat.div_eq_of_lt_le fromMultiple (ordered.trans_lt toMultiple)
    have morePart : more / divisor = reserve :=
      Nat.div_eq_of_lt_le (fromMultiple.trans ordered) toMultiple
    simp only [lessPart, morePart]
    exact supplyAfter_band_le fromMultiple ordered toMultiple

/-- A supply of a hundred over an inventory of five and by a divisor of three jumps at an
interest of three, gives way up to five and is higher than ever at six. -/
theorem mint_sawtooth_hundred :
    0 < 3 ∧ ∃ supply : Nat -> Nat,
      (∀ interest, (mint 100 5 interest 3 : Verdict Nat) = .ok (supply interest)) ∧
      100 < supply 3 ∧ supply 5 ≤ supply 3 ∧ supply 3 ≤ supply 6 := by
  have positive : 0 < 3 := by decide
  rcases mint_sawtooth 100 5 positive with ⟨supply, minted, sawtooth⟩
  refine ⟨positive, supply, minted, ?_, ?_, ?_⟩
  · exact (sawtooth.grows_iff 3).mpr (by decide)
  · exact sawtooth.falls 1 3 5 (by decide) (by decide) (by decide)
  · exact sawtooth.rises 1 2 (by decide)

end Reserve

end PackedLedger
