import Mathlib.Logic.ExistsUnique
import PackedLedger.Proofs.Draws

namespace PackedLedger

/-!
# Draws cover their domain

An index is drawn in two parts, its bit length and then its place in the octave of that
length, where both ends of the domain cut the octave off.  What can be drawn depends on
where the cuts fall: an octave cut too short would leave indices out, one cut to nothing
would end the sweep, and one cut too long would lead out of the domain.  The cut octaves
lie side by side and fill the domain, each holding just the indices of its length, so the
draw of an index is as good as its two parts.  It covers the domain if each part covers
the range it is given.

Words of a cipher never come in every order, so this is said of any two ways to draw from
a range.  The draw of a sweep is the one through the words of its stream.
-/

namespace Random

variable {Reason Source : Type}

/-- The two ways to draw from a range of numbers, up to its end and up to but not including
it.  Each takes what it needs off a source and leaves the rest. -/
structure Generators (Reason Source : Type) where
  between : Nat -> Nat -> Source -> Attempt Reason (Nat × Source)
  below : Nat -> Nat -> Source -> Attempt Reason (Nat × Source)

/-- The generators that read the words of a stream. -/
def Generators.ofWords : Generators Reason WordStream where
  between := drawBetween
  below := drawBelow

/-- A draw covers a range when it always has a value, and its values are those of the
range, in front of whatever the source holds after them. -/
structure Covers (draw : Source -> Attempt Reason (Nat × Source)) (low high : Nat) : Prop where
  answers : ∀ source, ∃ value rest, draw source = .ok (value, rest)
  values : ∀ value rest,
    (∃ source, draw source = .ok (value, rest)) ↔ low ≤ value ∧ value ≤ high

/-- Generators that return every value of a range they are given, and nothing else.  Of a
range without a value nothing is said. -/
structure Generators.Exhaustive (generators : Generators Reason Source) : Prop where
  between : ∀ {low high}, low ≤ high -> Covers (generators.between low high) low high
  below : ∀ {low high}, low ≤ high -> Covers (generators.below low (high + 1)) low high

theorem Covers.inside {draw : Source -> Attempt Reason (Nat × Source)} {low high value : Nat}
    {source rest : Source} (covers : Covers draw low high)
    (drawn : draw source = .ok (value, rest)) : low ≤ value ∧ value ≤ high :=
  (covers.values value rest).mp ⟨source, drawn⟩

/-! ## Free choices -/

/-- Take the next choice modulo the size of a range, or the lowest value when none is left. -/
def choose (low high : Nat) : List Nat -> Nat × List Nat
  | [] => (low, [])
  | choice :: rest => (low + choice % (high - low + 1), rest)

/-- The generators that read free choices. -/
def Generators.ofChoices : Generators Reason (List Nat) where
  between low high choices :=
    if low ≤ high then .ok (choose low high choices) else .breakDown .emptyRange
  below low high choices :=
    if low < high then .ok (choose low (high - 1) choices) else .breakDown .emptyRange

theorem choose_inside {low high : Nat} (ordered : low ≤ high) (choices : List Nat) :
    low ≤ (choose low high choices).1 ∧ (choose low high choices).1 ≤ high := by
  cases choices with
  | nil => exact ⟨Nat.le_refl low, ordered⟩
  | cons choice rest =>
      have small : choice % (high - low + 1) < high - low + 1 :=
        Nat.mod_lt _ (Nat.succ_pos _)
      simp only [choose]
      omega

theorem choose_distance {low high value : Nat} (above : low ≤ value) (below : value ≤ high)
    (rest : List Nat) : choose low high ((value - low) :: rest) = (value, rest) := by
  have small : value - low < high - low + 1 := by omega
  rw [choose, Nat.mod_eq_of_lt small, Nat.add_sub_cancel' above]

theorem covers_of_choose {low high : Nat} {draw : List Nat -> Attempt Reason (Nat × List Nat)}
    (ordered : low ≤ high) (reads : ∀ choices, draw choices = .ok (choose low high choices)) :
    Covers draw low high := by
  constructor
  · intro choices
    exact ⟨_, _, reads choices⟩
  · intro value rest
    constructor
    · rintro ⟨choices, drawn⟩
      rw [reads] at drawn
      injection drawn with same
      have inside := choose_inside ordered choices
      rwa [same] at inside
    · rintro ⟨above, below⟩
      exact ⟨(value - low) :: rest, by rw [reads, choose_distance above below]⟩

theorem Generators.ofChoices_exhaustive :
    (ofChoices : Generators Reason (List Nat)).Exhaustive where
  between ordered := covers_of_choose ordered fun _ => if_pos ordered
  below ordered := covers_of_choose ordered fun _ => if_pos (Nat.lt_succ_of_le ordered)

end Random

namespace Sweep

variable {Reason Source : Type} {low high index bits : Nat}

/-! ## The octaves of a domain -/

/-- An index of the domain lies in the octave of its own length and in no other. -/
theorem mem_octave_iff (someBits : 0 < bits) (above : low ≤ index) (below : index ≤ high) :
    octaveLow low bits ≤ index ∧ index ≤ octaveHigh high bits ↔ bits = bitLength index := by
  have top := fieldMaximum_add_one bits
  unfold octaveLow octaveHigh
  constructor
  · intro inside
    have longer : bits - 1 < bitLength index :=
      lt_bitLength_iff.mpr ((Nat.le_max_right _ _).trans inside.1)
    have within : index ≤ fieldMaximum bits := inside.2.trans (Nat.min_le_right _ _)
    have shorter : bitLength index ≤ bits := bitLength_le_iff.mpr (by omega)
    omega
  · intro length
    have reaches : powerOfTwo (bits - 1) ≤ index := lt_bitLength_iff.mp (by omega)
    have fits : index < powerOfTwo bits := bitLength_le_iff.mp (Nat.le_of_eq length.symm)
    exact ⟨Nat.max_le.mpr ⟨above, reaches⟩, Nat.le_min.mpr ⟨below, by omega⟩⟩

theorem existsUnique_octave (positive : 0 < low) (above : low ≤ index) (below : index ≤ high) :
    ∃! bits, (bitLength low ≤ bits ∧ bits ≤ bitLength high) ∧
      octaveLow low bits ≤ index ∧ index ≤ octaveHigh high bits := by
  have someLow := bitLength_pos positive
  have shortest := bitLength_mono above
  refine ⟨bitLength index, ⟨⟨shortest, bitLength_mono below⟩, ?_⟩, ?_⟩
  · exact (mem_octave_iff (someLow.trans_le shortest) above below).mpr rfl
  · intro bits other
    exact (mem_octave_iff (someLow.trans_le other.1.1) above below).mp other.2

/-! ## Drawing through generators -/

/-- Draw an index through given generators: a bit length between those of the ends, and
then an index of that length between the ends. -/
def drawIndexFrom (generators : Random.Generators Reason Source) (low high : Nat)
    (source : Source) : Attempt Reason (Nat × Source) := do
  let (bits, source) ← generators.between (bitLength low) (bitLength high) source
  let _ ← Checked.difference bits 1
  generators.below (octaveLow low bits) (octaveHigh high bits + 1) source

theorem drawIndex_eq_drawIndexFrom (low high : Nat) :
    (drawIndex low high : Random.WordStream -> Attempt Reason _) =
      drawIndexFrom Random.Generators.ofWords low high := rfl

theorem drawIndexFrom_eq_ok {generators : Random.Generators Reason Source}
    {source rest : Source} :
    drawIndexFrom generators low high source = .ok (index, rest) ↔
      ∃ bits middle,
        generators.between (bitLength low) (bitLength high) source = .ok (bits, middle) ∧
          1 ≤ bits ∧
          generators.below (octaveLow low bits) (octaveHigh high bits + 1) middle =
            .ok (index, rest) := by
  simp [drawIndexFrom]

/-- An index drawn through exhaustive generators covers the domain as they cover their
ranges. -/
theorem drawIndexFrom_covers {generators : Random.Generators Reason Source}
    (exhaustive : generators.Exhaustive) (positive : 0 < low) (ordered : low ≤ high) :
    Random.Covers (drawIndexFrom generators low high) low high := by
  have lengths := exhaustive.between (bitLength_mono ordered)
  have someLow := bitLength_pos positive
  have octave : ∀ bits, bitLength low ≤ bits ∧ bits ≤ bitLength high ->
      Random.Covers (generators.below (octaveLow low bits) (octaveHigh high bits + 1))
        (octaveLow low bits) (octaveHigh high bits) := by
    intro bits between
    exact exhaustive.below (octaveLow_le_octaveHigh positive ordered between.1 between.2)
  constructor
  · intro source
    rcases lengths.answers source with ⟨bits, middle, length⟩
    have between := lengths.inside length
    rcases (octave bits between).answers middle with ⟨index, rest, drawn⟩
    exact ⟨index, rest,
      drawIndexFrom_eq_ok.mpr ⟨bits, middle, length, someLow.trans_le between.1, drawn⟩⟩
  · intro index rest
    constructor
    · rintro ⟨source, found⟩
      rcases drawIndexFrom_eq_ok.mp found with ⟨bits, middle, length, _, drawn⟩
      have inside := (octave bits (lengths.inside length)).inside drawn
      exact ⟨(le_octaveLow low bits).trans inside.1, inside.2.trans (octaveHigh_le high bits)⟩
    · rintro ⟨above, below⟩
      have between : bitLength low ≤ bitLength index ∧ bitLength index ≤ bitLength high :=
        ⟨bitLength_mono above, bitLength_mono below⟩
      have least := someLow.trans_le between.1
      rcases ((octave _ between).values index rest).mpr
          ((mem_octave_iff least above below).mpr rfl) with ⟨middle, drawn⟩
      rcases (lengths.values _ middle).mpr between with ⟨source, length⟩
      exact ⟨source, drawIndexFrom_eq_ok.mpr ⟨_, middle, length, least, drawn⟩⟩

/-- The octaves of a domain are not empty, lie inside it, and hold each of its indices
exactly once.  So through generators that return every value of their ranges and nothing
else, a draw always has an index, and the indices that it can have are those of the domain.
The draw of a sweep is that draw through the words of its stream; it always has an index of
the domain. -/
theorem draws_cover_domain {generators : Random.Generators Reason Source}
    (exhaustive : generators.Exhaustive) (positive : 0 < low) (ordered : low ≤ high) :
    (∀ bits, bitLength low ≤ bits -> bits ≤ bitLength high ->
      low ≤ octaveLow low bits ∧ octaveLow low bits ≤ octaveHigh high bits ∧
        octaveHigh high bits ≤ high) ∧
    (∀ index, low ≤ index -> index ≤ high ->
      ∃! bits, (bitLength low ≤ bits ∧ bits ≤ bitLength high) ∧
        octaveLow low bits ≤ index ∧ index ≤ octaveHigh high bits) ∧
    (∀ source, ∃ index rest,
      drawIndexFrom generators low high source = .ok (index, rest)) ∧
    (∀ index rest, (∃ source, drawIndexFrom generators low high source = .ok (index, rest)) ↔
      low ≤ index ∧ index ≤ high) ∧
    ∀ stream, (drawIndex low high stream : Attempt Reason _) =
        drawIndexFrom Random.Generators.ofWords low high stream ∧
      ∃ index rest, (drawIndex low high stream : Attempt Reason _) = .ok (index, rest) ∧
        low ≤ index ∧ index ≤ high := by
  have covers := drawIndexFrom_covers exhaustive positive ordered
  refine ⟨?_, ?_, covers.answers, covers.values, ?_⟩
  · intro bits lower upper
    exact ⟨le_octaveLow low bits, octaveLow_le_octaveHigh positive ordered lower upper,
      octaveHigh_le high bits⟩
  · intro index above below
    exact existsUnique_octave positive above below
  · intro stream
    exact ⟨congrFun (drawIndex_eq_drawIndexFrom low high) stream,
      drawIndex_spec Reason positive ordered stream⟩

/-- Free choices draw the indices of the first generation's domain, both ends included, and
no others. -/
theorem draws_cover_domain_first_generation :
    0 < 1000000000000 ∧ 1000000000000 ≤ 1208925819613420248886561 ∧
      (Random.Generators.ofChoices : Random.Generators Rejection _).Exhaustive ∧
      (∀ index rest,
        (∃ choices, (drawIndexFrom Random.Generators.ofChoices 1000000000000
            1208925819613420248886561 choices : Verdict _) = .ok (index, rest)) ↔
          1000000000000 ≤ index ∧ index ≤ 1208925819613420248886561) ∧
      (drawIndexFrom Random.Generators.ofChoices 1000000000000 1208925819613420248886561
        [0, 0] : Verdict _) = .ok (1000000000000, []) ∧
      (drawIndexFrom Random.Generators.ofChoices 1000000000000 1208925819613420248886561
        [40, 604462909806105661533473] : Verdict _) = .ok (1208925819613420248886561, []) := by
  have positive : 0 < 1000000000000 := by decide
  have ordered : 1000000000000 ≤ 1208925819613420248886561 := by decide
  have exhaustive : (Random.Generators.ofChoices : Random.Generators Rejection _).Exhaustive :=
    Random.Generators.ofChoices_exhaustive
  rcases draws_cover_domain exhaustive positive ordered with ⟨_, _, _, values, _⟩
  exact ⟨positive, ordered, exhaustive, values, by decide +kernel, by decide +kernel⟩

end Sweep

end PackedLedger
