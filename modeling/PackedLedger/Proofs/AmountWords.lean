import PackedLedger.Proofs.Valuation

namespace PackedLedger

/-!
# What the text of amounts says

Amounts are written as two words of hexadecimal digits without anything in between.  That
they can be read back hangs on the limit which each amount was held to before: a word
never takes more than its 64 digits, so the place where the second one starts is known.
The digits are read here by their place in a list, without the writer's table.
-/

namespace Position

/-! ## Hexadecimal digits -/

def hexDigits : List Char := "0123456789abcdef".toList

/-- The number that hexadecimal digits continue from the digits in front of them.  It is
none when one of the characters is no digit. -/
def hexContinue? (number : Nat) (characters : List Char) : Option Nat :=
  characters.foldlM (fun number character =>
    (hexDigits.idxOf? character).map fun digit => 16 * number + digit) number

/-- The number that hexadecimal digits stand for, the first one the most significant. -/
def hexNumber? (characters : List Char) : Option Nat :=
  hexContinue? 0 characters

theorem idxOf?_digitChar {digit : Nat} (small : digit < 16) :
    hexDigits.idxOf? (Nat.digitChar digit) = some digit := by
  have every : ∀ digit < 16, hexDigits.idxOf? (Nat.digitChar digit) = some digit := by decide
  exact every digit small

theorem hexContinue?_cons (number : Nat) (first : Char) (rest : List Char) :
    hexContinue? number (first :: rest) =
      (hexDigits.idxOf? first).bind fun digit => hexContinue? (16 * number + digit) rest := by
  rw [hexContinue?, List.foldlM_cons]
  cases hexDigits.idxOf? first <;> rfl

theorem hexNumber?_append_digit {characters : List Char} {number digit : Nat}
    (front : hexNumber? characters = some number) (small : digit < 16) :
    hexNumber? (characters ++ [Nat.digitChar digit]) = some (16 * number + digit) := by
  unfold hexNumber? hexContinue? at front ⊢
  rw [List.foldlM_append, front]
  simp [idxOf?_digitChar small]

theorem hexNumber?_toDigits (number : Nat) : hexNumber? (Nat.toDigits 16 number) = some number := by
  induction number using Nat.strongRecOn with
  | ind number inductionHypothesis =>
      by_cases oneDigit : number < 16
      · have nothing : hexNumber? [] = some 0 := rfl
        have digit := hexNumber?_append_digit nothing oneDigit
        rwa [Nat.mul_zero, Nat.zero_add, ← Nat.toDigits_of_lt_base oneDigit] at digit
      · have baseLe := Nat.le_of_not_lt oneDigit
        have front := inductionHypothesis (number / 16) (by omega)
        rw [Nat.toDigits_of_base_le (by decide) baseLe,
          hexNumber?_append_digit front (Nat.mod_lt _ (by decide)), Nat.div_add_mod]

theorem hexNumber?_leftpad (width : Nat) (characters : List Char) :
    hexNumber? (characters.leftpad width '0') = hexNumber? characters := by
  unfold List.leftpad
  induction width - characters.length with
  | zero => rfl
  | succ count inductionHypothesis =>
      rw [List.replicate_succ, List.cons_append, hexNumber?, hexContinue?_cons]
      exact inductionHypothesis

/-- Only digits are read. -/
theorem mem_hexDigits_of_read {characters : List Char} {start number : Nat}
    (read : hexContinue? start characters = some number) :
    ∀ character ∈ characters, character ∈ hexDigits := by
  induction characters generalizing start with
  | nil => simp
  | cons first rest inductionHypothesis =>
      rw [hexContinue?_cons] at read
      rcases Option.bind_eq_some_iff.mp read with ⟨digit, found, others⟩
      refine List.forall_mem_cons.mpr ⟨?_, inductionHypothesis others⟩
      by_contra absent
      rw [List.idxOf?_eq_none_iff.mpr absent] at found
      cases found

/-! ## Words -/

namespace Amounts

theorem hexNumber?_wordDigits (amount : Nat) : hexNumber? (wordDigits amount) = some amount := by
  rw [wordDigits, hexNumber?_leftpad, hexNumber?_toDigits]

theorem length_wordDigits {amount : Nat} (fits : amount < 2 ^ 256) :
    (wordDigits amount).length = 64 := by
  have digits : (Nat.toDigits 16 amount).length ≤ 64 := by
    rw [Nat.length_toDigits_le_iff (by decide) (by decide)]
    exact fits
  rw [wordDigits, List.length_leftpad, Nat.max_eq_left digits]

/-- Two words of 64 digits each, one amount in each of them. -/
structure Words (characters : List Char) (amounts : Amounts) : Prop where
  length_eq : characters.length = 128
  all_digits : ∀ character ∈ characters, character ∈ hexDigits
  first : hexNumber? (characters.take 64) = some amounts.first
  second : hexNumber? (characters.drop 64) = some amounts.second

theorem Words.unique {characters : List Char} {amounts other : Amounts}
    (words : Words characters amounts) (wordsOther : Words characters other) :
    amounts = other := by
  have first := words.first.symm.trans wordsOther.first
  have second := words.second.symm.trans wordsOther.second
  cases amounts
  cases other
  cases first
  cases second
  rfl

/-- The text of amounts that fit is a mark and their two words. -/
theorem hex_words {amounts : Amounts} (fits : ∀ token, amounts.of token < 2 ^ 256) :
    ∃ characters, amounts.hex = String.ofList ('0' :: 'x' :: characters) ∧
      Words characters amounts := by
  have first : (wordDigits amounts.first).length = 64 := length_wordDigits (fits .first)
  have second : (wordDigits amounts.second).length = 64 := length_wordDigits (fits .second)
  refine ⟨_, rfl, ?_, ?_, ?_, ?_⟩
  · rw [List.length_append]
    exact congrArg₂ _ first second
  · exact List.forall_mem_append.mpr ⟨mem_hexDigits_of_read (hexNumber?_wordDigits _),
      mem_hexDigits_of_read (hexNumber?_wordDigits _)⟩
  · rw [List.take_left' first]
    exact hexNumber?_wordDigits _
  · rw [List.drop_left' first]
    exact hexNumber?_wordDigits _

end Amounts

/-- A query is always answered, and with amounts exactly when it is sound and the exact
values, which then are natural, fit a word.  The text of amounts that were found is a
mark and 128 hexadecimal digits, of which each half says one amount, so no two different
answers have the same text. -/
theorem amounts_found_iff_sound_and_fit (query : Query) :
    query.amounts.Answered ∧
    ((∃ found, query.amounts = .ok found) ↔
      query.Sound ∧ ∀ token, query.value token < 2 ^ 256) ∧
    (query.Sound ->
      query.exactValues = .ok (query.value .first, query.value .second) ∧
        ∀ token, 0 ≤ query.value token) ∧
    ∀ found, query.amounts = .ok found ->
      (∃ characters, found.hex = String.ofList ('0' :: 'x' :: characters) ∧
        Amounts.Words characters found) ∧
      ∀ (other : Query) (result : Amounts), other.amounts = .ok result ->
        result.hex = found.hex -> result = found := by
  refine ⟨query.amounts_answered, Query.exists_amounts_iff, ?_, ?_⟩
  · intro sound
    exact ⟨sound.exactValues_eq, sound.value_nonneg⟩
  · intro found answer
    rcases Amounts.hex_words (Query.amounts_fit answer) with ⟨characters, text, words⟩
    refine ⟨⟨characters, text, words⟩, ?_⟩
    intro other result answerOther same
    rcases Amounts.hex_words (Query.amounts_fit answerOther) with
      ⟨charactersOther, textOther, wordsOther⟩
    have marked := String.ofList_injective (textOther.symm.trans (same.trans text))
    injection marked with _ marked
    injection marked with _ sameCharacters
    rw [sameCharacters] at wordsOther
    exact wordsOther.unique words

/-- A position above its range that takes the whole second word. -/
def fullQuery : Query where
  price := priceScale * 3
  lower := priceScale
  upper := priceScale * 2
  liquidity := 2 ^ 256 - 1

/-- One more unit of liquidity does not fit. -/
theorem amounts_found_iff_sound_and_fit_full :
    fullQuery.Sound ∧ fullQuery.amounts = .ok ⟨0, 2 ^ 256 - 1⟩ ∧
      fullQuery.exactValues = .ok (0, 2 ^ 256 - 1) ∧
      (∃ characters, (⟨0, 2 ^ 256 - 1⟩ : Amounts).hex = String.ofList ('0' :: 'x' :: characters) ∧
        Amounts.Words characters ⟨0, 2 ^ 256 - 1⟩) ∧
      ¬ ∃ found, { fullQuery with liquidity := 2 ^ 256 }.amounts = .ok found := by
  have sound : fullQuery.Sound :=
    ⟨by decide +kernel, by decide +kernel, by decide +kernel, by decide +kernel⟩
  have answer : fullQuery.amounts = .ok ⟨0, 2 ^ 256 - 1⟩ := by decide +kernel
  have first : fullQuery.value .first = 0 := by decide +kernel
  have second : fullQuery.value .second = 2 ^ 256 - 1 := by decide +kernel
  rcases amounts_found_iff_sound_and_fit fullQuery with ⟨_, _, values, texts⟩
  rcases amounts_found_iff_sound_and_fit { fullQuery with liquidity := 2 ^ 256 } with
    ⟨_, found, _, _⟩
  rw [first, second] at values
  refine ⟨sound, answer, (values sound).1, (texts _ answer).1, ?_⟩
  intro someAmounts
  have fits := (found.mp someAmounts).2 .second
  revert fits
  decide +kernel

end Position

end PackedLedger
