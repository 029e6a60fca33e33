import ProviderKit.Proofs.Json.RoundTrip

/-!
# The text of null

Numbers are not always read as they were written, and a document that has been printed may come
back as another one.  But it never comes back as null when it was something else.  A text means
null by its first letter, and no other document is printed with this letter in front.
-/

namespace ProviderKit

theorem Digit.toChar_plain :
    ∀ digit : Digit, digit.toChar ≠ 'n' ∧ Json.isSpace digit.toChar = false := by
  decide

namespace Json

/-- The text starts with a character that is neither a space nor the first letter of null. -/
def StartsPlain (text : List Char) : Prop :=
  ∃ c more, text = c :: more ∧ c ≠ 'n' ∧ isSpace c = false

theorem StartsPlain.cons {c : Char} (plain : c ≠ 'n' ∧ isSpace c = false) (more : List Char) :
    StartsPlain (c :: more) :=
  ⟨c, more, rfl, plain⟩

/-! ## Numbers -/

/-- The digits of a double with its sign left out, whether or not there are any. -/
theorem startsPlain_render (format : DecimalFormat) {digits : List Char}
    (plain : ∀ c ∈ digits, c ≠ 'n' ∧ isSpace c = false) (place : Int) :
    StartsPlain (format.render digits place).toList := by
  unfold DecimalFormat.render
  split
  · simp only [String.toList_append, String.toList_ofList]
    cases digits with
    | nil => exact .cons (by decide) _
    | cons first more => exact .cons (plain first List.mem_cons_self) _
  · split
    · rw [String.toList_append]
      exact .cons (by decide) _
    · simp only [String.toList_ofList]
      cases digits with
      | nil => exact .cons (by decide) _
      | cons first more => exact .cons (plain first List.mem_cons_self) _

theorem plain_of_mem_toDigits (n : Nat) :
    ∀ c ∈ Nat.toDigits 10 n, c ≠ 'n' ∧ isSpace c = false := by
  rcases toDigits_eq_map_toChar n with ⟨first, more, text, _⟩
  rw [text]
  exact List.forall_mem_map.mpr fun digit _ => digit.toChar_plain

theorem startsPlain_toDigits (n : Nat) : StartsPlain (Nat.toDigits 10 n) := by
  rcases toDigits_eq_map_toChar n with ⟨first, more, text, _⟩
  rw [text]
  exact .cons first.toChar_plain _

theorem Number.startsPlain_text (n : Number) : StartsPlain n.text.toList := by
  cases n with
  | int n =>
      have digits : (Nat.repr n.natAbs).toList = Nat.toDigits 10 n.natAbs := String.toList_ofList
      rw [text, decimalText]
      split
      · rw [String.toList_append]
        exact .cons (by decide) _
      · rw [digits]
        exact startsPlain_toDigits n.natAbs
  | float x =>
      rw [text, DecimalFormat.text]
      have signed {digits : List Char} (plain : ∀ c ∈ digits, c ≠ 'n' ∧ isSpace c = false)
          (place : Int) :
          StartsPlain ((if x.negative then "-" else "") ++
            doubleFormat.render digits place).toList := by
        rw [String.toList_append]
        cases x.negative with
        | true => exact .cons (by decide) _
        | false => exact startsPlain_render doubleFormat plain place
      split
      · exact signed (List.forall_mem_singleton.mpr (by decide)) 0
      · refine signed (fun c member => ?_) _
        have kept := (List.dropWhile_sublist _).subset (List.mem_reverse.mp member)
        exact plain_of_mem_toDigits _ c (List.mem_reverse.mp kept)

/-! ## Documents -/

theorem startsPlain_render_document {document : Json} (present : document ≠ .null) :
    StartsPlain document.render := by
  cases document with
  | null => exact absurd rfl present
  | bool b => cases b <;> exact .cons (by decide) _
  | number n => exact n.startsPlain_text
  | string s => exact .cons (by decide) _
  | array items => cases items <;> exact .cons (by decide) _
  | object members => cases members <;> exact .cons (by decide) _

/-- Null is read where its first letter comes next. -/
theorem of_readValue_null {fuel depth : Nat} {text rest : List Char}
    (read : readValue fuel depth text = .ok (.null, rest)) :
    ∃ more, skipSpace text = 'n' :: more := by
  unfold readValue at read
  split at read
  · cases read
  split at read
  · next here => exact ⟨_, here⟩
  · cases read
  · cases read
  · rcases bind_eq_ok read with ⟨_, _, same⟩
    cases same
  · split at read
    · cases read
    · split at read
      · cases read
      · rcases bind_eq_ok read with ⟨_, _, same⟩
        cases same
  · split at read
    · cases read
    · split at read
      · cases read
      · rcases bind_eq_ok read with ⟨_, _, same⟩
        cases same
  · rcases bind_eq_ok read with ⟨_, _, same⟩
    simp only at same
    split at same <;> cases same

/-- A document that becomes null in key order was null before. -/
theorem eq_null_of_inKeyOrder {document : Json} (ordered : document.inKeyOrder = .null) :
    document = .null := by
  cases document with
  | null => rfl
  | _ => cases ordered

/-- A printed document is read as null only when it is null. -/
theorem eq_null_of_parse_compact {document : Json}
    (read : parse document.compact = .ok .null) : document = .null := by
  by_contra present
  rcases startsPlain_render_document present with ⟨c, more, text, noLetter, noSpace⟩
  unfold parse at read
  cases written : parseAsWritten document.compact with
  | error cause =>
      rw [written] at read
      cases read
  | ok found =>
      rw [written] at read
      cases eq_null_of_inKeyOrder (Except.ok.inj read)
      rcases bind_eq_ok written with ⟨⟨first, rest⟩, readFirst, ended⟩
      simp only at ended
      split at ended
      · cases ended
        rcases of_readValue_null readFirst with ⟨others, here⟩
        rw [compact, String.toList_ofList, text, skipSpace_cons noSpace] at here
        exact noLetter (List.cons.inj here).1
      · cases ended

/-- A printed document has a text. -/
theorem compact_ne_empty (document : Json) : document.compact ≠ "" := by
  intro empty
  have noText : document.render = [] := by
    rw [← String.toList_ofList (l := document.render), ← compact, empty]
    rfl
  by_cases absent : document = .null
  · subst absent
    cases noText
  · rcases startsPlain_render_document absent with ⟨_, _, text, _⟩
    cases text.symm.trans noText

end Json
end ProviderKit
