import Mathlib.Data.List.Basic
import ProviderKit.Number.Decimal
import ProviderKit.Text.Quoted

/-!
# Where a text ends

Texts that are written one behind the other can be told apart when each of them shows where it
ends.  A number ends before the first character that cannot belong to it.  A quoted text ends at
the first quote that is not escaped: every character between the quotes is written in a way of its
own, none of which is the beginning of another, and none of which starts with a quote.
-/

namespace ProviderKit

/-- Two texts that hold only characters of one kind, and are followed by another kind or by
nothing, end at the same place. -/
theorem append_inj_of_kind {p : Char → Prop} {word other more rest : List Char}
    (here : ∀ c ∈ word, p c) (there : ∀ c ∈ other, p c) (moreEnds : ∀ c ∈ more.head?, ¬ p c)
    (restEnds : ∀ c ∈ rest.head?, ¬ p c) (same : word ++ more = other ++ rest) :
    word = other ∧ more = rest := by
  rcases List.append_eq_append_iff.mp same with ⟨between, rfl, rfl⟩ | ⟨between, rfl, rfl⟩
  · cases between with
    | nil => exact ⟨(List.append_nil word).symm, rfl⟩
    | cons c between => exact absurd (there c (by simp)) (moreEnds c rfl)
  · cases between with
    | nil => exact ⟨List.append_nil other, rfl⟩
    | cons c between => exact absurd (here c (by simp)) (restEnds c rfl)

/-! ## Digits -/

section Digits

variable {base m n : Nat}

theorem digitChar_inj : ∀ d < 16, ∀ e < 16, Nat.digitChar d = Nat.digitChar e → d = e := by
  decide

/-- The last digit, behind the digits of what is left. -/
private theorem exists_toDigits_eq_concat (proper : 1 < base) (n : Nat) :
    ∃ front, Nat.toDigits base n = front ++ [Nat.digitChar (n % base)] ∧
      (n < base ∧ front = [] ∨ base ≤ n ∧ front = Nat.toDigits base (n / base)) := by
  rcases Nat.lt_or_ge n base with small | large
  · refine ⟨[], ?_, .inl ⟨small, rfl⟩⟩
    rw [Nat.toDigits_of_lt_base small, Nat.mod_eq_of_lt small, List.nil_append]
  · exact ⟨_, Nat.toDigits_of_base_le proper large, .inr ⟨large, rfl⟩⟩

/-- Numbers are told apart by their digits. -/
theorem toDigits_inj (proper : 1 < base) (small : base ≤ 16)
    (same : Nat.toDigits base m = Nat.toDigits base n) : m = n := by
  induction m using Nat.strongRecOn generalizing n with
  | ind m inductionHypothesis =>
      rcases exists_toDigits_eq_concat proper m with ⟨front, left, frontCases⟩
      rcases exists_toDigits_eq_concat proper n with ⟨other, right, otherCases⟩
      rw [left, right] at same
      rcases List.append_inj' same rfl with ⟨fronts, lasts⟩
      have bounded (k : Nat) : k % base < 16 := Nat.lt_of_lt_of_le (Nat.mod_lt k (by omega)) small
      have last : m % base = n % base :=
        digitChar_inj _ (bounded m) _ (bounded n) (List.singleton_inj.mp lasts)
      -- Either both numbers have one digit, or what is left of both has the same digits.
      rcases frontCases with ⟨smallM, rfl⟩ | ⟨largeM, rfl⟩ <;>
        rcases otherCases with ⟨smallN, rfl⟩ | ⟨largeN, rfl⟩
      · rwa [Nat.mod_eq_of_lt smallM, Nat.mod_eq_of_lt smallN] at last
      · exact absurd fronts.symm Nat.toDigits_ne_nil
      · exact absurd fronts Nat.toDigits_ne_nil
      · have smaller : m / base < m := Nat.div_lt_self (by omega) proper
        have quotients := inductionHypothesis (m / base) smaller fronts
        rw [← Nat.div_add_mod m base, ← Nat.div_add_mod n base, quotients, last]

theorem exists_digit_of_mem_toDigits (proper : 1 < base) {c : Char}
    (member : c ∈ Nat.toDigits base n) : ∃ d < base, c = Nat.digitChar d := by
  induction n using Nat.strongRecOn with
  | ind n inductionHypothesis =>
      rcases exists_toDigits_eq_concat proper n with ⟨front, digits, frontCases⟩
      rw [digits] at member
      rcases List.mem_append.mp member with inFront | isLast
      · rcases frontCases with ⟨_, rfl⟩ | ⟨large, rfl⟩
        · cases inFront
        · exact inductionHypothesis _ (Nat.div_lt_self (by omega) proper) inFront
      · exact ⟨n % base, Nat.mod_lt n (by omega), List.mem_singleton.mp isLast⟩

/-- No digit is a sign, a closing bracket or brace, or a quote. -/
theorem ne_of_mem_toDigits (proper : 1 < base) (small : base ≤ 16) {c : Char}
    (member : c ∈ Nat.toDigits base n) : c ≠ '-' ∧ c ≠ ']' ∧ c ≠ '\x7d' ∧ c ≠ '"' := by
  have plain : ∀ d < 16, Nat.digitChar d ≠ '-' ∧ Nat.digitChar d ≠ ']' ∧
      Nat.digitChar d ≠ '\x7d' ∧ Nat.digitChar d ≠ '"' := by decide
  rcases exists_digit_of_mem_toDigits proper member with ⟨d, isDigit, rfl⟩
  exact plain d (Nat.lt_of_lt_of_le isDigit small)

end Digits

section Integers

variable {m n : Int}

theorem toList_decimalText (n : Int) : (decimalText n).toList =
    if n < 0 then '-' :: Nat.toDigits 10 n.natAbs else Nat.toDigits 10 n.natAbs := by
  unfold decimalText
  split
  · rw [String.toList_append, Nat.toList_repr]
    rfl
  · rw [Nat.toList_repr]

theorem decimalText_inj (same : (decimalText m).toList = (decimalText n).toList) : m = n := by
  have unsigned {k : Nat} (more : List Char) : Nat.toDigits 10 k ≠ '-' :: more := by
    intro signed
    have sign : '-' ∈ Nat.toDigits 10 k := signed ▸ List.mem_cons_self
    exact (ne_of_mem_toDigits (by decide) (by decide) sign).1 rfl
  have digits {k l : Nat} (same : Nat.toDigits 10 k = Nat.toDigits 10 l) : k = l :=
    toDigits_inj (by decide) (by decide) same
  rw [toList_decimalText, toList_decimalText] at same
  split at same <;> split at same
  · have sizes := digits (List.cons.inj same).2
    omega
  · exact absurd same.symm (unsigned _)
  · exact absurd same (unsigned _)
  · have sizes := digits same
    omega

/-- No number holds the bracket behind an index, or starts as a key does. -/
theorem ne_of_mem_decimalText {c : Char} (member : c ∈ (decimalText n).toList) :
    c ≠ ']' ∧ c ≠ '"' := by
  have digit {c : Char} (member : c ∈ Nat.toDigits 10 n.natAbs) : c ≠ ']' ∧ c ≠ '"' := by
    have ⟨_, bracket, _, quote⟩ := ne_of_mem_toDigits (by decide) (by decide) member
    exact ⟨bracket, quote⟩
  rw [toList_decimalText] at member
  split at member
  · rcases List.mem_cons.mp member with rfl | member
    · decide
    · exact digit member
  · exact digit member

end Integers

/-! ## Between quotes -/

namespace Text

/-- The characters with an escape of two characters, and the second one of these. -/
def letterEscapes : List (Char × Char) :=
  [('\x00', '0'), ('\t', 't'), ('\n', 'n'), ('\r', 'r'), ('"', '"'), ('\\', '\\')]

/-- The ways to write a character between quotes. -/
inductive Spells : List Char → Char → Prop
  | letter {c letter : Char} (escaped : (c, letter) ∈ letterEscapes) : Spells ['\\', letter] c
  | itself {c : Char} (plain : c ≠ '\\') (inside : c ≠ '"') : Spells [c] c
  | codePoint (c : Char) :
      Spells ('\\' :: 'u' :: '\x7b' :: Nat.toDigits 16 c.toNat ++ ['\x7d']) c

theorem spells_quoteChar (c : Char) : Spells (quoteChar c) c := by
  unfold quoteChar
  split_ifs with isNull isTab isNewline isReturn isQuote isBackslash isShown
  · exact .letter (by simp [letterEscapes, isNull])
  · exact .letter (by simp [letterEscapes, isTab])
  · exact .letter (by simp [letterEscapes, isNewline])
  · exact .letter (by simp [letterEscapes, isReturn])
  · exact .letter (by simp [letterEscapes, isQuote])
  · exact .letter (by simp [letterEscapes, isBackslash])
  · exact .itself isBackslash isQuote
  · exact .codePoint c

/-- A spelling shows which character it stands for and where it ends. -/
theorem Spells.append_inj {word other more rest : List Char} {c d : Char} (spells : Spells word c)
    (spellsToo : Spells other d) (same : word ++ more = other ++ rest) : c = d ∧ more = rest := by
  have unique : ∀ x ∈ letterEscapes, ∀ y ∈ letterEscapes, x.2 = y.2 → x.1 = y.1 := by decide
  have reserved : ∀ x ∈ letterEscapes, x.2 ≠ 'u' := by decide
  cases spells with
  | letter escaped =>
      cases spellsToo with
      | letter escapedToo =>
          rcases List.cons.inj (List.cons.inj same).2 with ⟨letters, rests⟩
          exact ⟨unique _ escaped _ escapedToo letters, rests⟩
      | itself plain => exact absurd (List.cons.inj same).1.symm plain
      | codePoint => exact absurd (List.cons.inj (List.cons.inj same).2).1 (reserved _ escaped)
  | itself plain =>
      cases spellsToo with
      | letter | codePoint => exact absurd (List.cons.inj same).1 plain
      | itself => exact List.cons.inj same
  | codePoint =>
      cases spellsToo with
      | letter escapedToo =>
          exact absurd (List.cons.inj (List.cons.inj same).2).1.symm (reserved _ escapedToo)
      | itself plain => exact absurd (List.cons.inj same).1.symm plain
      | codePoint =>
          have digits {n : Nat} : ∀ c ∈ Nat.toDigits 16 n, c ≠ '\x7d' := fun c member =>
            (ne_of_mem_toDigits (by decide) (by decide) member).2.2.1
          simp only [List.cons_append, List.cons.injEq, true_and, List.append_assoc,
            List.nil_append] at same
          rcases append_inj_of_kind (p := fun c => c ≠ '\x7d') digits digits (by simp) (by simp)
            same with ⟨codes, rests⟩
          exact ⟨Char.toNat_inj.mp (toDigits_inj (by decide) (by decide) codes),
            (List.cons.inj rests).2⟩

/-- No spelling starts with a quote. -/
theorem Spells.ne_quote {word more rest : List Char} {c : Char} (spells : Spells word c) :
    word ++ more ≠ '"' :: rest := by
  intro same
  cases spells with
  | letter | codePoint => exact absurd (List.cons.inj same).1 (by decide)
  | itself _ inside => exact inside (List.cons.inj same).1

private theorem flatMap_quoteChar_inj {text other more rest : List Char}
    (same : text.flatMap quoteChar ++ '"' :: more = other.flatMap quoteChar ++ '"' :: rest) :
    text = other ∧ more = rest := by
  induction text generalizing other with
  | nil =>
      cases other with
      | nil => exact ⟨rfl, (List.cons.inj same).2⟩
      | cons d other =>
          rw [List.flatMap_cons, List.append_assoc] at same
          exact absurd same.symm (spells_quoteChar d).ne_quote
  | cons c text inductionHypothesis =>
      rw [List.flatMap_cons, List.append_assoc] at same
      cases other with
      | nil => exact absurd same (spells_quoteChar c).ne_quote
      | cons d other =>
          rw [List.flatMap_cons, List.append_assoc] at same
          rcases (spells_quoteChar c).append_inj (spells_quoteChar d) same with ⟨rfl, further⟩
          rcases inductionHypothesis further with ⟨rfl, rests⟩
          exact ⟨rfl, rests⟩

/-- A quoted text shows what is quoted and where it ends. -/
theorem quoted_append_inj {text other : String} {more rest : List Char}
    (same : (quoted text).toList ++ more = (quoted other).toList ++ rest) :
    text = other ∧ more = rest := by
  simp only [quoted, String.toList_ofList, List.cons_append, List.append_assoc, List.nil_append,
    List.cons.injEq, true_and] at same
  rcases flatMap_quoteChar_inj same with ⟨texts, rests⟩
  exact ⟨String.toList_inj.mp texts, rests⟩

end Text

end ProviderKit
