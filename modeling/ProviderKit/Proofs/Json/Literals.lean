import Mathlib.Tactic.SplitIfs
import ProviderKit.Json.Parser
import ProviderKit.Json.Printer
import ProviderKit.Proofs.Success

/-!
# Strings and numbers in a text

A printed string is read up to its closing quote, whatever follows it.  A number has no closing
character, so what follows has to be something that a number cannot go on with.  In a document
that is a comma, a closing bracket or brace, or the end.

An integer is read back when it fits into 64 bits.  A double is printed with the fewest digits
that are nearest to it, but read with two roundings, so it is read back or it is not.
-/

namespace ProviderKit

theorem Digit.ofChar?_toChar : ∀ digit : Digit, Digit.ofChar? digit.toChar = some digit := by
  decide

theorem Digit.eq_toChar {c : Char} {digit : Digit} (isDigit : Digit.ofChar? c = some digit) :
    c = digit.toChar := by
  have written : ∀ place < 10, Char.ofNat (place + 48) = Nat.digitChar place := by decide
  unfold Digit.ofChar? at isDigit
  simp only [Option.dite_none_right_eq_some] at isDigit
  rcases isDigit with ⟨⟨inRange, small⟩, same⟩
  have least : '0'.toNat ≤ c.toNat := (Char.isDigit_iff_toNat.mp inRange).1
  have place : c.toNat - '0'.toNat + 48 = c.toNat := Nat.sub_add_cancel least
  have found := written _ small
  rw [place, Char.ofNat_toNat] at found
  cases same
  exact found

/-- Characters that are no digits end the digits of a text. -/
theorem spanDigits_append {rest : List Char} (ended : spanDigits rest = ([], rest))
    (text : List Char) :
    spanDigits (text ++ rest) = ((spanDigits text).1, (spanDigits text).2 ++ rest) := by
  induction text with
  | nil => exact ended
  | cons c text inductionHypothesis =>
      rw [List.cons_append, spanDigits, spanDigits]
      cases Digit.ofChar? c with
      | none => rfl
      | some digit => rw [inductionHypothesis]

theorem spanDigits_map_toChar (digits : List Digit) :
    spanDigits (digits.map Digit.toChar) = (digits, []) := by
  induction digits with
  | nil => rfl
  | cons digit digits inductionHypothesis =>
      rw [List.map_cons, spanDigits, Digit.ofChar?_toChar, inductionHypothesis]

theorem natOfDigits_concat (digits : List Digit) (last : Digit) :
    natOfDigits (digits ++ [last]) = 10 * natOfDigits digits + last.val :=
  List.foldl_append

/-- The decimal digits of a natural number spell it, and do not start with a zero unless it is
the only one. -/
theorem toDigits_eq_map_toChar (n : Nat) : ∃ first more,
    Nat.toDigits 10 n = (first :: more).map Digit.toChar ∧ natOfDigits (first :: more) = n ∧
      (first = 0 → more = []) := by
  induction n using Nat.strongRecOn with
  | ind n inductionHypothesis =>
      rcases Nat.lt_or_ge n 10 with small | large
      · refine ⟨⟨n, small⟩, [], Nat.toDigits_of_lt_base small, ?_, fun _ => rfl⟩
        exact Nat.zero_add n
      · have smaller : n / 10 < n := Nat.div_lt_self (by omega) (by decide)
        rcases inductionHypothesis (n / 10) smaller with ⟨first, more, text, spells, leading⟩
        have bounded : n % 10 < 10 := Nat.mod_lt n (by decide)
        refine ⟨first, more ++ [⟨n % 10, bounded⟩], ?_, ?_, ?_⟩
        · rw [Nat.toDigits_of_base_le (by decide) large, text, ← List.cons_append,
            List.map_append]
          rfl
        · rw [← List.cons_append, natOfDigits_concat, spells]
          exact Nat.div_add_mod n 10
        · intro isZero
          have positive : 1 ≤ n / 10 := by omega
          rw [leading isZero, isZero] at spells
          have zero : n / 10 = 0 := spells.symm
          omega

namespace Json

/-! ## Strings -/

theorem hexUnit?_hexDigit :
    ∀ n < 32, hexUnit? '0' '0' (hexDigit (n / 16)) (hexDigit n) = some n := by
  decide

/-- An escaped character is read as the character. -/
theorem readString_escapeChar (c : Char) (read rest : List Char) :
    readString read (escapeChar c ++ rest) = readString (c :: read) rest := by
  unfold escapeChar
  split_ifs with isQuote isBackslash isBackspace isFeed isNewline isReturn isTab isControl
  · subst isQuote
    rfl
  · subst isBackslash
    rfl
  · subst isBackspace
    rfl
  · subst isFeed
    rfl
  · subst isNewline
    rfl
  · subst isReturn
    rfl
  · subst isTab
    rfl
  · have small : c.toNat < 32 := isControl
    have noLeading : isLeadingHalf c.toNat = false := by
      simp only [isLeadingHalf, Bool.and_eq_false_iff, decide_eq_false_iff_not]
      omega
    have noTrailing : isTrailingHalf c.toNat = false := by
      simp only [isTrailingHalf, Bool.and_eq_false_iff, decide_eq_false_iff_not]
      omega
    simp only [List.cons_append, List.nil_append]
    rw [readString, hexUnit?_hexDigit c.toNat small]
    simp only [noLeading, noTrailing, Char.ofNat_toNat]
    rfl
  · rw [List.singleton_append, readString, if_neg isControl]
    · exact isQuote
    · intro _ _ _ _ _ isBackslash' _
      exact isBackslash isBackslash'
    · intro _ _ isBackslash' _
      exact isBackslash isBackslash'
    · intro isBackslash' _
      exact isBackslash isBackslash'

/-- A printed string is read back, up to its closing quote. -/
theorem readString_flatMap_escapeChar (characters read rest : List Char) :
    readString read (characters.flatMap escapeChar ++ '"' :: rest) =
      .ok (String.ofList (read.reverse ++ characters), rest) := by
  induction characters generalizing read with
  | nil =>
      rw [List.append_nil]
      rfl
  | cons c characters inductionHypothesis =>
      rw [List.flatMap_cons, List.append_assoc, readString_escapeChar, inductionHypothesis,
        List.reverse_cons, List.append_assoc, List.singleton_append]

theorem readString_render (s : String) (rest : List Char) :
    readString [] (s.toList.flatMap escapeChar ++ '"' :: rest) = .ok (s, rest) := by
  rw [readString_flatMap_escapeChar, List.reverse_nil, List.nil_append, String.ofList_toList]

/-! ## Numbers -/

/-- What stands behind a number in a printed document. -/
def EndsNumber : List Char → Prop
  | [] => True
  | c :: _ => c = ',' ∨ c = ']' ∨ c = '\x7d'

variable {text text' rest : List Char}

theorem EndsNumber.spanDigits (ends : EndsNumber rest) : spanDigits rest = ([], rest) := by
  cases rest with
  | nil => rfl
  | cons c rest => rcases ends with rfl | rfl | rfl <;> rfl

theorem EndsNumber.readFraction (ends : EndsNumber rest) : readFraction rest = .ok ([], rest) := by
  cases rest with
  | nil => rfl
  | cons c rest => rcases ends with rfl | rfl | rfl <;> rfl

theorem EndsNumber.readExponent (ends : EndsNumber rest) :
    readExponent rest = .ok (none, rest) := by
  cases rest with
  | nil => rfl
  | cons c rest => rcases ends with rfl | rfl | rfl <;> rfl

section Extension

variable (ends : EndsNumber rest)
include ends

theorem readWhole_append {digits : List Digit} (read : readWhole text = .ok (digits, text')) :
    readWhole (text ++ rest) = .ok (digits, text' ++ rest) := by
  unfold readWhole at read ⊢
  rw [spanDigits_append ends.spanDigits]
  rcases spanned : spanDigits text with ⟨found, remaining⟩
  rw [spanned] at read
  cases found with
  | nil => cases read
  | cons first more =>
      simp only at read ⊢
      split at read
      · cases read
      · next fine =>
        cases read
        rw [if_neg fine]

theorem readFraction_append {digits : List Digit} (read : readFraction text = .ok (digits, text')) :
    readFraction (text ++ rest) = .ok (digits, text' ++ rest) := by
  unfold readFraction at read
  split at read
  · next text =>
    rw [List.cons_append, readFraction, spanDigits_append ends.spanDigits]
    rcases spanned : spanDigits text with ⟨found, remaining⟩
    rw [spanned] at read
    cases found with
    | nil => cases read
    | cons first more =>
        cases read
        rfl
  · next noPoint =>
    cases read
    cases text with
    | nil => exact ends.readFraction
    | cons c text =>
        rw [List.cons_append, readFraction]
        intro _ same
        exact noPoint _ (congrArg (· :: text) (List.cons.inj same).1)

omit ends in
theorem readWhole_eq_cons {digits : List Digit} (read : readWhole text = .ok (digits, text')) :
    ∃ digit more, text = Digit.toChar digit :: more := by
  cases text with
  | nil => cases read
  | cons c more =>
      cases isDigit : Digit.ofChar? c with
      | some digit => exact ⟨digit, more, congrArg (· :: more) (Digit.eq_toChar isDigit)⟩
      | none =>
          rw [readWhole, spanDigits, isDigit] at read
          cases read

theorem readExponentDigits_append {n : Nat} (read : readExponentDigits text = .ok (n, text')) :
    readExponentDigits (text ++ rest) = .ok (n, text' ++ rest) := by
  unfold readExponentDigits at read ⊢
  rw [spanDigits_append ends.spanDigits]
  rcases spanned : spanDigits text with ⟨found, remaining⟩
  rw [spanned] at read
  cases found with
  | nil => cases read
  | cons first more =>
      cases read
      rfl

theorem readSignedExponent_append {n : Int} (read : readSignedExponent text = .ok (n, text')) :
    readSignedExponent (text ++ rest) = .ok (n, text' ++ rest) := by
  unfold readSignedExponent at read
  split at read
  all_goals
    rcases bind_eq_ok read with ⟨⟨magnitude, remaining⟩, digits, same⟩
    cases same
    have extended := readExponentDigits_append ends digits
  · rw [List.cons_append, readSignedExponent, extended]
    rfl
  · rw [List.cons_append, readSignedExponent, extended]
    rfl
  · next noPlus noMinus =>
    cases text with
    | nil => cases digits
    | cons c text =>
        rw [List.cons_append] at extended ⊢
        rw [readSignedExponent, extended]
        · rfl
        · intro _ same
          exact noPlus _ (congrArg (· :: text) (List.cons.inj same).1)
        · intro _ same
          exact noMinus _ (congrArg (· :: text) (List.cons.inj same).1)

theorem readExponent_append {exponent : Option Int}
    (read : readExponent text = .ok (exponent, text')) :
    readExponent (text ++ rest) = .ok (exponent, text' ++ rest) := by
  unfold readExponent at read
  split at read
  · rcases bind_eq_ok read with ⟨⟨n, remaining⟩, signed, same⟩
    cases same
    rw [List.cons_append, readExponent, readSignedExponent_append ends signed]
    rfl
  · rcases bind_eq_ok read with ⟨⟨n, remaining⟩, signed, same⟩
    cases same
    rw [List.cons_append, readExponent, readSignedExponent_append ends signed]
    rfl
  · next noSmall noLarge =>
    cases read
    cases text with
    | nil => exact ends.readExponent
    | cons c text =>
        rw [List.cons_append, readExponent]
        · intro _ same
          exact noSmall _ (congrArg (· :: text) (List.cons.inj same).1)
        · intro _ same
          exact noLarge _ (congrArg (· :: text) (List.cons.inj same).1)

theorem readMagnitude_append {negative : Bool} {literal : DecimalLiteral}
    (read : readMagnitude negative text = .ok (literal, text')) :
    readMagnitude negative (text ++ rest) = .ok (literal, text' ++ rest) := by
  unfold readMagnitude at read
  rcases bind_eq_ok read with ⟨⟨whole, afterWhole⟩, first, read⟩
  rcases bind_eq_ok read with ⟨⟨fraction, afterFraction⟩, second, read⟩
  rcases bind_eq_ok read with ⟨⟨exponent, afterExponent⟩, third, same⟩
  cases same
  rw [readMagnitude, readWhole_append ends first]
  simp only [bind, Except.bind]
  rw [readFraction_append ends second]
  simp only
  rw [readExponent_append ends third]

theorem readLiteral_append {literal : DecimalLiteral}
    (read : readLiteral text = .ok (literal, text')) :
    readLiteral (text ++ rest) = .ok (literal, text' ++ rest) := by
  unfold readLiteral at read
  split at read
  · rw [List.cons_append, readLiteral]
    exact readMagnitude_append ends read
  · next noSign =>
    have extended := readMagnitude_append ends read
    cases text with
    | nil => cases read
    | cons c text =>
        rw [List.cons_append] at extended ⊢
        rw [readLiteral, extended]
        intro _ same
        exact noSign _ (congrArg (· :: text) (List.cons.inj same).1)

theorem readNumber_append {document : Json} (read : readNumber text = .ok (document, text')) :
    readNumber (text ++ rest) = .ok (document, text' ++ rest) := by
  unfold readNumber at read
  rcases bind_eq_ok read with ⟨⟨literal, remaining⟩, spelled, read⟩
  unfold readNumber
  rw [readLiteral_append ends spelled]
  simp only at read
  simp only [bind, Except.bind]
  split at read
  · cases read
    simp only [*]
  · cases read

end Extension

/-- The first character of a number is a sign or a digit. -/
theorem readNumber_eq_cons {document : Json} (read : readNumber text = .ok (document, text')) :
    ∃ c more, text = c :: more ∧ (c = '-' ∨ ∃ digit, c = Digit.toChar digit) := by
  rcases bind_eq_ok read with ⟨⟨literal, remaining⟩, spelled, _⟩
  unfold readLiteral at spelled
  split at spelled
  · exact ⟨_, _, rfl, .inl rfl⟩
  · rcases bind_eq_ok spelled with ⟨⟨whole, afterWhole⟩, first, _⟩
    rcases readWhole_eq_cons first with ⟨digit, more, same⟩
    exact ⟨_, more, same, .inr ⟨digit, rfl⟩⟩

/-- The text of the number is read as the number itself. -/
def Number.ReadsBack (n : Number) : Prop :=
  readNumber n.text.toList = .ok (.number n, [])

theorem Digit.toChar_ne_sign : ∀ digit : Digit, digit.toChar ≠ '-' := by
  decide

/-- The integer literal of digits, with a sign or without one, is read as its digits. -/
theorem readLiteral_digits {first : Digit} {more : List Digit} (leading : first = 0 → more = [])
    (negative : Bool) :
    readLiteral ((if negative then ['-'] else []) ++ (first :: more).map Digit.toChar) =
      .ok (⟨negative, first :: more, [], none⟩, []) := by
  have noZero : ¬ (first = 0 ∧ more ≠ []) := fun ⟨isZero, longer⟩ => longer (leading isZero)
  have whole : readWhole ((first :: more).map Digit.toChar) = .ok (first :: more, []) := by
    rw [readWhole, spanDigits_map_toChar]
    simp only [if_neg noZero]
  have magnitude : readMagnitude negative ((first :: more).map Digit.toChar) =
      .ok (⟨negative, first :: more, [], none⟩, []) := by
    rw [readMagnitude, whole]
    rfl
  cases negative with
  | true => exact magnitude
  | false =>
      rw [if_neg Bool.false_ne_true, List.nil_append, List.map_cons, readLiteral]
      · exact magnitude
      · intro _ same
        exact Digit.toChar_ne_sign first (List.cons.inj same).1

/-- An integer is read back exactly when it has 64 bits, with or without a sign. -/
@[simp] theorem Number.readsBack_int_iff {n : Int} :
    (Number.int n).ReadsBack ↔ minInt64 ≤ n ∧ n ≤ maxUInt64 := by
  rcases toDigits_eq_map_toChar n.natAbs with ⟨first, more, text, spells, leading⟩
  have written : (Number.int n).text.toList =
      (if decide (n < 0) then ['-'] else []) ++ (first :: more).map Digit.toChar := by
    have digits : (Nat.repr n.natAbs).toList = Nat.toDigits 10 n.natAbs := String.toList_ofList
    rw [Number.text, decimalText, ← text]
    by_cases negative : n < 0
    · rw [if_pos negative, if_pos (decide_eq_true negative), String.toList_append, digits]
      rfl
    · rw [if_neg negative, if_neg (by simpa using negative), digits, List.nil_append]
  let literal : DecimalLiteral := ⟨decide (n < 0), first :: more, [], none⟩
  have value : literal.wholeValue = n := by
    simp only [literal, DecimalLiteral.wholeValue, spells, decide_eq_true_eq]
    split <;> omega
  have fits : (if literal.negative then minInt64 ≤ n ∧ n < 0 else n ≤ maxUInt64) ↔
      minInt64 ≤ n ∧ n ≤ maxUInt64 := by
    simp only [literal, decide_eq_true_eq, minInt64, maxUInt64]
    split <;> omega
  have number : ofLiteral? literal =
      if minInt64 ≤ n ∧ n ≤ maxUInt64 then some (.int n) else literal.scaled?.map float := by
    have isInteger : literal.isInteger = true := rfl
    unfold ofLiteral?
    simp only [value, isInteger, fits, true_and]
  rw [ReadsBack, written, readNumber, readLiteral_digits leading]
  simp only [bind, Except.bind]
  rw [number]
  by_cases inRange : minInt64 ≤ n ∧ n ≤ maxUInt64
  · rw [if_pos inRange]
    exact iff_of_true rfl inRange
  · rw [if_neg inRange]
    refine iff_of_false ?_ inRange
    cases literal.scaled? with
    | none => nofun
    | some double => nofun

end Json
end ProviderKit
