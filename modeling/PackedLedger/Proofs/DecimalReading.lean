import Mathlib.Data.List.TakeDrop
import Mathlib.Data.List.TakeWhile
import PackedLedger.Proofs.Attempt
import PackedLedger.Proofs.Magnitude
import PackedLedger.Proofs.Numerals

namespace PackedLedger

/-!
# Reading accepts exactly the written numbers

The reader cuts a text at the sign, at the first exponent mark and at the first point,
and then looks at what is left in between.  Each cut is undone by writing the parts
next to each other again, and on a numeral each cut is the right one: a mark is no digit
and no point, a point is no digit, and nothing in a numeral is blank.  So a text is
read exactly when a numeral was written there, and the value is that of the numeral.
-/

/-! ## Cutting lists -/

theorem dropWhile_spec {Element : Type} (keep : Element -> Bool) (list : List Element) :
    ∃ front, list = front ++ list.dropWhile keep ∧ (∀ element ∈ front, keep element) ∧
      ∀ element ∈ (list.dropWhile keep).head?, keep element = false := by
  refine ⟨list.takeWhile keep, List.takeWhile_append_dropWhile.symm,
    fun element => List.mem_takeWhile_imp, ?_⟩
  intro element first
  have stopped := List.head?_dropWhile_not keep list
  rw [Option.mem_def.mp first] at stopped
  simpa using stopped

theorem dropWhile_append {Element : Type} {keep : Element -> Bool} {front rest : List Element}
    (kept : ∀ element ∈ front, keep element)
    (stops : ∀ element ∈ rest.head?, keep element = false) :
    (front ++ rest).dropWhile keep = rest := by
  rw [List.dropWhile_append_of_pos kept]
  cases rest with
  | nil => rfl
  | cons first others => exact List.dropWhile_cons_of_neg (by simp [stops first rfl])

theorem span_append {Element : Type} {keep : Element -> Bool} {front rest : List Element}
    (kept : ∀ element ∈ front, keep element)
    (stops : ∀ element ∈ rest.head?, keep element = false) :
    (front ++ rest).span keep = (front, rest) := by
  have whole := List.takeWhile_append_dropWhile (p := keep) (l := front ++ rest)
  rw [dropWhile_append kept stops] at whole
  rw [List.span_eq_takeWhile_dropWhile, dropWhile_append kept stops,
    List.append_cancel_right whole]

theorem span_spec {Element : Type} {keep : Element -> Bool} {list front rest : List Element}
    (cut : list.span keep = (front, rest)) :
    list = front ++ rest ∧ (∀ element ∈ front, keep element) ∧
      ∀ element ∈ rest.head?, keep element = false := by
  rw [List.span_eq_takeWhile_dropWhile] at cut
  cases cut
  rcases dropWhile_spec keep list with ⟨_, _, _, stops⟩
  exact ⟨List.takeWhile_append_dropWhile.symm, fun _ => List.mem_takeWhile_imp, stops⟩

namespace Text

open Position

/-! ## Trimming -/

/-- The core is what is left of the characters without the blanks around it. -/
structure Trimmed (characters core : List Char) : Prop where
  padded : ∃ before after, characters = before ++ core ++ after ∧
    (∀ character ∈ before, isBlank character) ∧ ∀ character ∈ after, isBlank character
  first : ∀ character ∈ core.head?, isBlank character = false
  last : ∀ character ∈ core.getLast?, isBlank character = false

theorem trimmed_trim (characters : List Char) : Trimmed characters (trim characters) := by
  rcases dropWhile_spec isBlank characters with ⟨before, front, blankBefore, first⟩
  rcases dropWhile_spec isBlank (characters.dropWhile isBlank).reverse with
    ⟨after, back, blankAfter, last⟩
  rw [List.reverse_eq_iff, List.reverse_append] at back
  change characters.dropWhile isBlank = trim characters ++ after.reverse at back
  refine ⟨⟨before, after.reverse, ?_, blankBefore, ?_⟩, ?_, ?_⟩
  · rw [List.append_assoc, ← back]
    exact front
  · intro character member
    exact blankAfter character (List.mem_reverse.mp member)
  · intro character head
    apply first
    rw [back, Option.mem_def, List.head?_append, Option.mem_def.mp head]
    rfl
  · intro character endOfCore
    apply last
    rwa [trim, List.getLast?_reverse] at endOfCore

theorem Trimmed.trim_eq {characters core : List Char} (trimmed : Trimmed characters core) :
    trim characters = core := by
  rcases trimmed with ⟨⟨before, after, rfl, blankBefore, blankAfter⟩, first, last⟩
  cases core with
  | nil =>
      have blank : ∀ character ∈ before ++ [] ++ after, isBlank character := by
        simp only [List.append_nil, List.forall_mem_append]
        exact ⟨blankBefore, blankAfter⟩
      rw [trim, List.dropWhile_eq_nil_iff.mpr blank]
      rfl
  | cons head rest =>
      have blankReversed : ∀ character ∈ after.reverse, isBlank character :=
        fun character member => blankAfter character (List.mem_reverse.mp member)
      rw [← List.head?_reverse] at last
      have front : (before ++ (head :: rest ++ after)).dropWhile isBlank = head :: rest ++ after :=
        dropWhile_append blankBefore first
      rw [trim, List.append_assoc, front, List.reverse_append, dropWhile_append blankReversed last,
        List.reverse_reverse]

theorem trim_eq_iff {characters core : List Char} :
    trim characters = core ↔ Trimmed characters core := by
  constructor
  · intro same
    rw [← same]
    exact trimmed_trim characters
  · exact Trimmed.trim_eq

theorem trim_of_no_blank {characters : List Char}
    (plain : ∀ character ∈ characters, isBlank character = false) :
    trim characters = characters := by
  apply Trimmed.trim_eq
  refine ⟨⟨[], [], by simp, by simp, by simp⟩, ?_, ?_⟩
  · intro character first
    exact plain character (List.mem_of_mem_head? first)
  · intro character last
    exact plain character (List.mem_of_getLast? last)

theorem isBlank_of_isDigit {character : Char} (digit : character.isDigit) :
    isBlank character = false := by
  have bounds := Char.isDigit_iff_toNat.mp digit
  have low : '0'.toNat = 48 := rfl
  have high : '9'.toNat = 57 := rfl
  simp [isBlank, blankRanges]
  omega

/-! ## Integers -/

theorem natural?_eq_some {characters : List Char} {value : Nat} :
    natural? characters = some value ↔
      ∃ digits : Digits, digits.characters = characters ∧ characters ≠ [] ∧
        digits.number = value := by
  unfold natural?
  constructor
  · intro found
    split at found
    · rename_i digits
      simp only [Bool.and_eq_true, Bool.not_eq_true', List.isEmpty_eq_false_iff, List.all_eq_true]
        at digits
      cases found
      exact ⟨⟨characters, digits.2⟩, rfl, digits.1, rfl⟩
    · cases found
  · intro written
    rcases written with ⟨digits, rfl, someDigit, rfl⟩
    have all : (!digits.characters.isEmpty && digits.characters.all Char.isDigit) = true := by
      simp only [Bool.and_eq_true, Bool.not_eq_true', List.isEmpty_eq_false_iff, List.all_eq_true]
      exact ⟨someDigit, digits.all_digits⟩
    rw [if_pos all]
    rfl

theorem exists_sign (characters : List Char) :
    ∃ sign, characters = Sign.written sign ++ (splitSign characters).2 ∧
      (splitSign characters).1 = decide (sign = some .minus) := by
  unfold splitSign
  split
  · exact ⟨some .minus, rfl, rfl⟩
  · exact ⟨some .plus, rfl, rfl⟩
  · exact ⟨none, rfl, rfl⟩

theorem splitSign_written (sign : Option Sign) {first : Char} (rest : List Char)
    (noPlus : first ≠ '+') (noMinus : first ≠ '-') :
    splitSign (Sign.written sign ++ first :: rest) =
      (decide (sign = some .minus), first :: rest) := by
  cases sign with
  | none =>
      unfold splitSign Sign.written
      split
      · rename_i same
        cases same
        exact absurd rfl noMinus
      · rename_i same
        cases same
        exact absurd rfl noPlus
      · rfl
  | some sign => cases sign <;> rfl

theorem integer?_eq (characters : List Char) :
    integer? characters = (natural? (splitSign characters).2).map fun value : Nat =>
      if (splitSign characters).1 then -(value : Int) else value := by
  rcases parts : splitSign characters with ⟨negative, digits⟩
  rw [integer?, parts]
  cases found : natural? digits <;> simp [found]

/-- An integer is read exactly when it is an optional sign and digits. -/
theorem integer?_eq_some {characters : List Char} {value : Int} :
    integer? characters = some value ↔
      ∃ (sign : Option Sign) (digits : Digits), digits.characters ≠ [] ∧
        characters = Sign.written sign ++ digits.characters ∧
        Sign.apply sign (digits.number : Int) = value := by
  rw [integer?_eq]
  constructor
  · intro found
    rcases Option.map_eq_some_iff.mp found with ⟨magnitude, digitsRead, signed⟩
    rcases natural?_eq_some.mp digitsRead with ⟨digits, same, someDigit, rfl⟩
    rcases exists_sign characters with ⟨sign, parts, negative⟩
    rw [← same] at someDigit parts
    refine ⟨sign, digits, someDigit, parts, ?_⟩
    rw [← signed, negative]
    simp only [Sign.apply, decide_eq_true_eq]
  · intro written
    rcases written with ⟨sign, digits, someDigit, rfl, rfl⟩
    rcases List.exists_cons_of_ne_nil someDigit with ⟨first, rest, parts⟩
    have digit : first.isDigit := digits.all_digits first (by rw [parts]; exact List.mem_cons_self)
    rw [parts, splitSign_written sign rest (ne_of_isDigit digit rfl) (ne_of_isDigit digit rfl),
      ← parts]
    refine Option.map_eq_some_iff.mpr
      ⟨digits.number, natural?_eq_some.mpr ⟨digits, rfl, someDigit, rfl⟩, ?_⟩
    simp only [Sign.apply, decide_eq_true_eq]

end Text

namespace Position

namespace Numeral

/-! ## A numeral is cut where its parts meet -/

theorem splitSign_characters (numeral : Numeral) :
    Text.splitSign numeral.characters =
      (decide (numeral.sign = some .minus), numeral.unsigned) := by
  rcases numeral.exists_unsigned_eq_cons with ⟨first, rest, parts, digit | point⟩
  · rw [characters, parts]
    exact Text.splitSign_written _ _ (ne_of_isDigit digit rfl) (ne_of_isDigit digit rfl)
  · rw [characters, parts, point]
    exact Text.splitSign_written _ _ (by decide) (by decide)

def exponentDigits (numeral : Numeral) : Option (List Char) :=
  numeral.exponent.map fun exponent => Sign.written exponent.sign ++ exponent.digits.characters

theorem splitExponent_append {front : List Char}
    (unmarked : ∀ character ∈ front, DecimalText.isExponentMark character = false)
    (exponent : Option Exponent) :
    DecimalText.splitExponent (front ++ exponent.elim [] Exponent.characters) =
      (front, exponent.map fun exponent =>
        Sign.written exponent.sign ++ exponent.digits.characters) := by
  have kept : ∀ character ∈ front, !DecimalText.isExponentMark character := by
    intro character member
    rw [unmarked character member]
    rfl
  unfold DecimalText.splitExponent
  cases exponent with
  | none => rw [span_append kept (by simp)]; rfl
  | some exponent =>
      have marked : DecimalText.isExponentMark exponent.mark := by
        rcases exponent.marks with small | capital
        · rw [small]; rfl
        · rw [capital]; rfl
      rw [span_append kept (by simp [Exponent.characters, marked])]
      rfl

theorem splitExponent_unsigned (numeral : Numeral) :
    DecimalText.splitExponent numeral.unsigned = (numeral.mantissa, numeral.exponentDigits) := by
  apply splitExponent_append
  intro character member
  rcases numeral.mantissa_spec character member with digit | point
  · have small : character ≠ 'e' := ne_of_isDigit digit rfl
    have capital : character ≠ 'E' := ne_of_isDigit digit rfl
    simp [DecimalText.isExponentMark, small, capital]
  · rw [point]
    rfl

theorem integer_exponentDigits (numeral : Numeral) :
    (numeral.exponentDigits.map Text.integer?).getD (some 0) = some numeral.power := by
  unfold exponentDigits power
  cases numeral.exponent with
  | none => rfl
  | some exponent =>
      exact Text.integer?_eq_some.mpr
        ⟨exponent.sign, exponent.digits, exponent.some_digit, rfl, rfl⟩

theorem splitPoint_mantissa (numeral : Numeral) :
    DecimalText.splitPoint numeral.mantissa =
      (numeral.whole.characters, (numeral.fraction.getD .empty).characters) := by
  have unpointed : ∀ character ∈ numeral.whole.characters, character != '.' := by
    intro character member
    exact bne_iff_ne.mpr (ne_of_isDigit (numeral.whole.all_digits character member) rfl)
  unfold DecimalText.splitPoint mantissa
  cases numeral.fraction with
  | none => rw [span_append unpointed (by simp)]; rfl
  | some fraction => rw [span_append unpointed (by simp)]; rfl

/-- One text is not the writing of two different numbers. -/
theorem value_eq_of_characters_eq {numeral other : Numeral}
    (same : numeral.characters = other.characters) : numeral.value = other.value := by
  have signs := numeral.splitSign_characters
  rw [same, other.splitSign_characters, Prod.mk.injEq] at signs
  have exponents := numeral.splitExponent_unsigned
  rw [← signs.2, other.splitExponent_unsigned, Prod.mk.injEq] at exponents
  have points := numeral.splitPoint_mantissa
  rw [← exponents.1, other.splitPoint_mantissa, Prod.mk.injEq] at points
  have powers := numeral.integer_exponentDigits
  rw [← exponents.2, other.integer_exponentDigits, Option.some_inj] at powers
  have numbers : numeral.digits.number = other.digits.number := by
    simp only [Digits.number, digits, Digits.append, points.1, points.2]
  have counts : numeral.places = other.places := by
    simp only [places, points.2]
  have minus : numeral.sign = some .minus ↔ other.sign = some .minus :=
    (decide_eq_decide.mp signs.1).symm
  simp only [value, magnitude, Sign.apply, numbers, counts, powers, minus]

/-- Nothing in a numeral is blank. -/
theorem no_blank (numeral : Numeral) :
    ∀ character ∈ numeral.characters, Text.isBlank character = false := by
  have signPlain (sign : Option Sign) :
      ∀ character ∈ Sign.written sign, Text.isBlank character = false := by
    cases sign with
    | none => exact fun _ impossible => absurd impossible List.not_mem_nil
    | some sign => exact List.forall_mem_singleton.mpr (by cases sign <;> rfl)
  have digitsPlain (digits : Digits) :
      ∀ character ∈ digits.characters, Text.isBlank character = false :=
    fun character member => Text.isBlank_of_isDigit (digits.all_digits character member)
  refine List.forall_mem_append.mpr ⟨signPlain _, List.forall_mem_append.mpr ⟨?_, ?_⟩⟩
  · intro character member
    rcases numeral.mantissa_spec character member with digit | rfl
    · exact Text.isBlank_of_isDigit digit
    · rfl
  · cases numeral.exponent with
    | none => exact fun _ impossible => absurd impossible List.not_mem_nil
    | some exponent =>
        refine List.forall_mem_cons.mpr
          ⟨?_, List.forall_mem_append.mpr ⟨signPlain _, digitsPlain _⟩⟩
        rcases exponent.marks with small | capital
        · rw [small]
          rfl
        · rw [capital]
          rfl

end Numeral

namespace DecimalText

/-! ## Every numeral is read -/

theorem fitsSigned_of_small {value : Int} (small : value.natAbs ≤ exponentLimit) :
    Text.FitsSigned 64 value := by
  have limit : exponentLimit = 4096 := rfl
  have word : (powerOfTwo (64 - 1) : Int) = 9223372036854775808 := rfl
  unfold Text.FitsSigned
  omega

theorem exponentMagnitude_of_small {value : Int} (small : value.natAbs ≤ exponentLimit) :
    exponentMagnitude value = .ok value.natAbs := by
  have limit : exponentLimit = 4096 := rfl
  have word : (powerOfTwo 63 : Int) = 9223372036854775808 := rfl
  rw [exponentMagnitude, if_neg (by omega)]

theorem scaled_eq (digits : Nat) (exponent : Int) :
    scaled digits exponent = (digits : Rat) * 10 ^ exponent := by
  cases exponent with
  | ofNat shift => simp [scaled]
  | negSucc shift => simp [scaled, Rat.mkRat_eq_div, zpow_negSucc, div_eq_mul_inv]

/-- The exponent of a numeral is read, or nothing when it is left out. -/
theorem exponent_read {numeral : Numeral} (small : numeral.power.natAbs ≤ exponentLimit) :
    (numeral.exponentDigits.map Text.signedWord?).getD (some 0) = some numeral.power := by
  have value := numeral.integer_exponentDigits
  cases found : numeral.exponentDigits with
  | none =>
      rw [found] at value
      exact value
  | some digits =>
      rw [found] at value
      change Text.integer? digits = some numeral.power at value
      change Option.filter _ (Text.integer? digits) = _
      rw [value]
      exact if_pos (decide_eq_true (fitsSigned_of_small small))

/-- What is read where a numeral with a small exponent was written. -/
theorem read_numeral {text : String} {numeral : Numeral}
    (written : Text.trim text.toList = numeral.characters)
    (small : numeral.power.natAbs ≤ exponentLimit) :
    read text =
      if numeral.sign = some .minus ∧ numeral.digits.number ≠ 0 then .refuse (.negative text)
      else .ok numeral.magnitude := by
  have digits : Text.natural? (numeral.whole.characters ++
      (numeral.fraction.getD .empty).characters) = some numeral.digits.number :=
    Text.natural?_eq_some.mpr ⟨numeral.digits, rfl, numeral.some_digit, rfl⟩
  unfold read
  rw [written, numeral.splitSign_characters]
  dsimp only
  rw [numeral.splitExponent_unsigned]
  dsimp only
  rw [exponent_read small]
  dsimp only
  rw [exponentMagnitude_of_small small, Attempt.ok_bind, if_neg (Nat.not_lt.mpr small),
    numeral.splitPoint_mantissa]
  dsimp only
  rw [digits]
  dsimp only
  rw [scaled_eq]
  simp only [decide_eq_true_eq]
  rfl

/-! ## Nothing else is read -/

/-- What is read as an exponent was written as one, or was left out. -/
theorem exists_exponent {unsigned mantissa : List Char} {written : Option (List Char)} {power : Int}
    (cut : splitExponent unsigned = (mantissa, written))
    (found : (written.map Text.signedWord?).getD (some 0) = some power) :
    ∃ exponent : Option Exponent,
      unsigned = mantissa ++ exponent.elim [] Exponent.characters ∧
      exponent.elim 0 Exponent.value = power := by
  unfold splitExponent at cut
  split at cut
  · rename_i front mark rest marked
    cases cut
    rcases span_spec marked with ⟨parts, -, stops⟩
    have marks : mark = 'e' ∨ mark = 'E' := by
      have stop := stops mark rfl
      rwa [Bool.not_eq_false', isExponentMark, Bool.or_eq_true, beq_iff_eq, beq_iff_eq] at stop
    have word : Text.signedWord? rest = some power := found
    rcases Text.integer?_eq_some.mp (Option.filter_eq_some_iff.mp word).1 with
      ⟨sign, digits, someDigit, rfl, signed⟩
    exact ⟨some ⟨mark, sign, digits, marks, someDigit⟩, parts, signed⟩
  · rename_i front unmarked
    cases cut
    cases found
    exact ⟨none, (span_spec unmarked).1, rfl⟩

/-- What is read as the digits of a number was written with a point or without one. -/
theorem exists_fraction {mantissa whole fraction : List Char} {number : Nat}
    (cut : splitPoint mantissa = (whole, fraction))
    (found : Text.natural? (whole ++ fraction) = some number) :
    ∃ (front : Digits) (back : Option Digits),
      mantissa = front.characters ++ (back.elim [] fun back => '.' :: back.characters) ∧
      (front.append (back.getD .empty)).characters ≠ [] := by
  rcases Text.natural?_eq_some.mp found with ⟨⟨_, allDigits⟩, rfl, someDigit, -⟩
  rcases List.forall_mem_append.mp allDigits with ⟨frontDigits, backDigits⟩
  unfold splitPoint at cut
  split at cut
  · rename_i front point rest pointed
    cases cut
    rcases span_spec pointed with ⟨parts, -, stops⟩
    have same : point = '.' := by
      simpa using stops point rfl
    rw [same] at parts
    exact ⟨⟨whole, frontDigits⟩, some ⟨fraction, backDigits⟩, parts, someDigit⟩
  · rename_i front unpointed
    cases cut
    exact ⟨⟨whole, frontDigits⟩, none, (span_spec unpointed).1, someDigit⟩

theorem splitExponent_unmarked {unsigned mantissa : List Char} {written : Option (List Char)}
    (cut : splitExponent unsigned = (mantissa, written)) :
    ∀ character ∈ mantissa, isExponentMark character = false := by
  have kept : ∀ character ∈ mantissa, !isExponentMark character := by
    unfold splitExponent at cut
    split at cut
    · rename_i marked
      cases cut
      exact (span_spec marked).2.1
    · rename_i unmarked
      cases cut
      exact (span_spec unmarked).2.1
  intro character member
  simpa using kept character member

/-- After its first exponent mark the text goes on with the least integer of a signed
word, whatever stands in front of the mark. -/
def LeastExponent (text : String) : Prop :=
  ∃ (front : List Char) (exponent : Exponent),
    Text.Trimmed text.toList (front ++ exponent.characters) ∧
    (∀ character ∈ front, isExponentMark character = false) ∧
    exponent.value = -(2 ^ 63)

theorem leastExponent_of_cut {text : String} {sign : Option Sign} {unsigned mantissa : List Char}
    {written : Option (List Char)} {exponent : Option Exponent}
    (signed : Text.trim text.toList = Sign.written sign ++ unsigned)
    (cut : splitExponent unsigned = (mantissa, written))
    (parts : unsigned = mantissa ++ exponent.elim [] Exponent.characters)
    (least : exponent.elim 0 Exponent.value = -(2 ^ 63)) : LeastExponent text := by
  cases exponent with
  | none => cases least
  | some exponent =>
      have trimmed := Text.trimmed_trim text.toList
      rw [signed, parts, ← List.append_assoc] at trimmed
      refine ⟨_, exponent, trimmed, List.forall_mem_append.mpr ⟨?_, ?_⟩, least⟩
      · cases sign with
        | none => exact fun _ impossible => absurd impossible List.not_mem_nil
        | some sign => exact List.forall_mem_singleton.mpr (by cases sign <;> rfl)
      · exact splitExponent_unmarked cut

/-- A text is malformed unless a numeral with a small exponent was written, or the one
exponent whose magnitude does not fit its word. -/
theorem read_cases (text : String) :
    (∃ numeral : Numeral, Text.trim text.toList = numeral.characters ∧
      numeral.power.natAbs ≤ exponentLimit) ∨
    read text = .refuse (.malformed text) ∨
    (LeastExponent text ∧ read text = .breakDown .wordOverflow) := by
  unfold read
  rcases Text.exists_sign (Text.trim text.toList) with ⟨sign, signed, -⟩
  rcases signCut : Text.splitSign (Text.trim text.toList) with ⟨negative, unsigned⟩
  rcases exponentCut : splitExponent unsigned with ⟨mantissa, written⟩
  rcases pointCut : splitPoint mantissa with ⟨whole, fraction⟩
  rw [signCut] at signed
  dsimp only at signed ⊢
  rw [exponentCut]
  dsimp only
  split
  · exact .inr (.inl rfl)
  · rename_i power powerRead
    rcases exists_exponent exponentCut powerRead with ⟨exponent, unsignedParts, rfl⟩
    unfold exponentMagnitude
    split
    · rename_i least
      exact .inr (.inr ⟨leastExponent_of_cut signed exponentCut unsignedParts least, rfl⟩)
    · rw [Attempt.ok_bind]
      split
      · exact .inr (.inl rfl)
      · rename_i limited
        rw [pointCut]
        dsimp only
        split
        · exact .inr (.inl rfl)
        · rename_i number digitsRead
          rcases exists_fraction pointCut digitsRead with
            ⟨front, back, mantissaParts, someDigit⟩
          refine .inl ⟨⟨sign, front, back, exponent, someDigit⟩, ?_, Nat.le_of_not_lt limited⟩
          rw [signed, unsignedParts, mantissaParts]
          rfl

theorem exists_numeral {text : String} {value : Rat} (accepted : read text = .ok value) :
    ∃ numeral : Numeral, Text.trim text.toList = numeral.characters ∧
      numeral.power.natAbs ≤ exponentLimit := by
  rcases read_cases text with written | malformed | ⟨-, broken⟩
  · exact written
  · cases malformed.symm.trans accepted
  · cases broken.symm.trans accepted

/-- A text is read exactly when, without the blanks around it, it is a numeral whose
exponent is at most 4096 in magnitude and which has a minus in front of zeros only.
The value is the one that its digits and its exponent say. -/
theorem read_accepts_numerals {text : String} {value : Rat} :
    read text = .ok value ↔ ∃ numeral : Numeral,
      Text.Trimmed text.toList numeral.characters ∧
      numeral.power.natAbs ≤ 4096 ∧
      (numeral.sign = some .minus -> ∀ character ∈ numeral.digits.characters, character = '0') ∧
      (numeral.digits.number : Rat) * 10 ^ (numeral.power - numeral.places) = value := by
  constructor
  · intro accepted
    rcases exists_numeral accepted with ⟨numeral, written, small⟩
    rw [read_numeral written small] at accepted
    rcases Attempt.ite_refuse_eq_ok.mp accepted with ⟨noNegative, same⟩
    refine ⟨numeral, Text.trim_eq_iff.mp written, small, ?_, ?_⟩
    · intro minus
      by_contra someOther
      exact noNegative ⟨minus, fun zero => someOther (Digits.number_eq_zero_iff.mp zero)⟩
    · injection same
  · intro described
    rcases described with ⟨numeral, trimmed, small, zeros, same⟩
    have noNegative : ¬ (numeral.sign = some .minus ∧ numeral.digits.number ≠ 0) :=
      fun negative => negative.2 (Digits.number_eq_zero_iff.mpr (zeros negative.1))
    rw [read_numeral trimmed.trim_eq small, if_neg noNegative, ← same]
    rfl

/-!
## Why a text is not read

A text without a value is malformed or negative, and the fault quotes it as it was
given, blanks included.  Negative is what is left for a text that has passed every other
test: a numeral with a small exponent and a minus in front of some digit that counts.
There is one gap.  Before the exponent is compared with its limit its magnitude is
taken, and the least integer of a signed word has none, so a text with that exponent is
not answered at all, whatever stands in front of it.
-/

/-- A sign is no exponent mark, so splitting it off leaves an exponent where it is. -/
theorem exists_splitSign_eq {front : List Char} (exponent : Exponent)
    (unmarked : ∀ character ∈ front, isExponentMark character = false) :
    ∃ negative rest, Text.splitSign (front ++ exponent.characters) =
        (negative, rest ++ exponent.characters) ∧
      ∀ character ∈ rest, isExponentMark character = false := by
  rcases Text.exists_sign (front ++ exponent.characters) with ⟨sign, parts, -⟩
  cases sign with
  | none => exact ⟨_, front, Prod.ext rfl parts.symm, unmarked⟩
  | some sign =>
      cases front with
      | nil =>
          injection parts with same _
          have marks := exponent.marks
          rw [same] at marks
          cases sign <;> exact absurd marks (by decide)
      | cons first rest =>
          injection parts with _ others
          exact ⟨_, rest, Prod.ext rfl others.symm, (List.forall_mem_cons.mp unmarked).2⟩

theorem read_of_leastExponent {text : String} (least : LeastExponent text) :
    read text = .breakDown .wordOverflow := by
  rcases least with ⟨front, exponent, trimmed, unmarked, value⟩
  rcases exists_splitSign_eq exponent unmarked with ⟨negative, rest, signCut, restUnmarked⟩
  have exponentCut := Numeral.splitExponent_append restUnmarked (some exponent)
  change splitExponent (rest ++ exponent.characters) = _ at exponentCut
  have word : Text.signedWord? (Sign.written exponent.sign ++ exponent.digits.characters) =
      some (-(2 ^ 63)) := by
    have integer := Text.integer?_eq_some.mpr
      ⟨exponent.sign, exponent.digits, exponent.some_digit, rfl, value⟩
    rw [Text.signedWord?, integer]
    decide
  unfold read
  rw [trimmed.trim_eq, signCut]
  dsimp only
  rw [exponentCut]
  simp only [Option.map_some, Option.getD_some, word]
  rfl

theorem read_eq_breakDown {text : String} :
    read text = .breakDown .wordOverflow ↔ LeastExponent text := by
  constructor
  · intro broken
    rcases read_cases text with ⟨numeral, written, small⟩ | malformed | ⟨least, -⟩
    · rw [read_numeral written small] at broken
      split at broken <;> cases broken
    · cases malformed.symm.trans broken
    · exact least
  · exact read_of_leastExponent

theorem read_eq_negative {text : String} :
    read text = .refuse (.negative text) ↔ ∃ numeral : Numeral,
      Text.Trimmed text.toList numeral.characters ∧
      numeral.power.natAbs ≤ exponentLimit ∧
      numeral.sign = some .minus ∧
      ∃ character ∈ numeral.digits.characters, character ≠ '0' := by
  constructor
  · intro refused
    rcases read_cases text with ⟨numeral, written, small⟩ | malformed | ⟨-, broken⟩
    · rw [read_numeral written small] at refused
      split at refused
      · rename_i negative
        refine ⟨numeral, Text.trim_eq_iff.mp written, small, negative.1, ?_⟩
        by_contra noneCounts
        push Not at noneCounts
        exact negative.2 (Digits.number_eq_zero_iff.mpr noneCounts)
      · cases refused
    · cases malformed.symm.trans refused
    · cases broken.symm.trans refused
  · intro described
    rcases described with ⟨numeral, trimmed, small, minus, character, member, counts⟩
    have someNumber : numeral.digits.number ≠ 0 :=
      fun zero => counts (Digits.number_eq_zero_iff.mp zero character member)
    rw [read_numeral trimmed.trim_eq small, if_pos ⟨minus, someNumber⟩]

/-- A text is refused as negative exactly when it is a numeral with a small exponent, a
minus and some digit other than zero.  Every other text that has no value is refused as
malformed, unless its exponent is the least integer of a signed word.  Of that one the
magnitude does not fit, and reading breaks down there and nowhere else. -/
theorem read_refuses_but_leastExponent (text : String) :
    (read text = .refuse (.negative text) ↔ ∃ numeral : Numeral,
      Text.Trimmed text.toList numeral.characters ∧
      numeral.power.natAbs ≤ 4096 ∧
      numeral.sign = some .minus ∧
      ∃ character ∈ numeral.digits.characters, character ≠ '0') ∧
    (¬ LeastExponent text ->
      (∃ value, read text = .ok value) ∨
      read text = .refuse (.negative text) ∨ read text = .refuse (.malformed text)) ∧
    (read text = .breakDown .wordOverflow ↔ LeastExponent text) := by
  refine ⟨read_eq_negative, ?_, read_eq_breakDown⟩
  intro other
  rcases read_cases text with ⟨numeral, written, small⟩ | malformed | ⟨least, -⟩
  · rw [read_numeral written small]
    split
    · exact .inr (.inl rfl)
    · exact .inl ⟨_, rfl⟩
  · exact .inr (.inr malformed)
  · exact absurd least other

/-- An exponent this far below the limit has no answer, while both of its neighbours are
malformed. -/
theorem least_exponent_breaks_down :
    read "1e-9223372036854775808" = .breakDown .wordOverflow ∧
      read "1e-9223372036854775807" = .refuse (.malformed "1e-9223372036854775807") ∧
      read "1e-9223372036854775809" = .refuse (.malformed "1e-9223372036854775809") := by
  decide +kernel

end DecimalText

end Position

end PackedLedger
