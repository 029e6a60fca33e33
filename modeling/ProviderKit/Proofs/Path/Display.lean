import ProviderKit.Path
import ProviderKit.Proofs.Text.Boundaries

/-!
# The text of a path

A path is shown in messages as the texts of its steps, one behind the other.  This text identifies
the path as long as the names in it are not empty and hold neither a dot nor an opening bracket:
a name ends where the next step starts, and a key or an index is closed by a bracket that cannot
be part of it, whatever characters the key has.

The first step is the only one whose name has no dot before it.  But a text that does not start
with a bracket starts with a name, so the dot can be put back.
-/

namespace ProviderKit

/-- The names in a path are not empty, and hold no character that starts a step. -/
def Path.PlainNames (path : Path) : Prop :=
  ∀ word, .name word ∈ path → word ≠ "" ∧ ∀ c ∈ word.toList, c ≠ '.' ∧ c ≠ '['

variable {path other : Path} {step : PathStep}

namespace PathStep

/-- Every step starts with a dot or a bracket, so a name in front of it ends there. -/
private theorem starts_flatMap_text (path : Path) :
    ∀ c ∈ (path.flatMap text).head?, ¬ (c ≠ '.' ∧ c ≠ '[') := by
  cases path with
  | nil => exact nofun
  | cons first rest =>
      cases first <;> simp [text]

private theorem text_key_append (word : String) (more : List Char) :
    (key word).text ++ more = '[' :: ((Text.quoted word).toList ++ ']' :: more) := by
  simp [text]

private theorem text_index_append (number : Int) (more : List Char) :
    (index number).text ++ more = '[' :: ((decimalText number).toList ++ ']' :: more) := by
  simp [text]

/-- A key in brackets is told from an index by its quote. -/
private theorem quoted_ne_decimalText {key : String} {index : Int} {more rest : List Char} :
    (Text.quoted key).toList ++ more ≠ (decimalText index).toList ++ ']' :: rest := by
  intro same
  have opened : ∃ inside, (Text.quoted key).toList = '"' :: inside :=
    ⟨_, String.toList_ofList⟩
  rcases opened with ⟨inside, opened⟩
  rw [opened] at same
  cases digits : (decimalText index).toList with
  | nil =>
      rw [digits] at same
      exact absurd (List.cons.inj same).1 (by decide)
  | cons c more =>
      rw [digits] at same
      have member : c ∈ (decimalText index).toList := digits ▸ List.mem_cons_self
      exact (ne_of_mem_decimalText member).2 (List.cons.inj same).1.symm

/-- A step that is followed by others shows what it is and where it ends. -/
theorem text_append_inj {other : PathStep} {more rest : Path}
    (plain : Path.PlainNames [step]) (plainToo : Path.PlainNames [other])
    (same : step.text ++ more.flatMap text = other.text ++ rest.flatMap text) :
    step = other ∧ more.flatMap text = rest.flatMap text := by
  cases step with
  | name word =>
      cases other with
      | name otherWord =>
          have here := (plain word List.mem_cons_self).2
          have there := (plainToo otherWord List.mem_cons_self).2
          rcases append_inj_of_kind (p := fun c => c ≠ '.' ∧ c ≠ '[') here there
            (starts_flatMap_text more) (starts_flatMap_text rest) (List.cons.inj same).2 with
            ⟨words, rests⟩
          exact ⟨congrArg name (String.toList_inj.mp words), rests⟩
      | key | index => exact absurd (List.cons.inj same).1 (by decide)
  | key word =>
      rw [text_key_append] at same
      cases other with
      | name => exact absurd (List.cons.inj same).1 (by decide)
      | key otherWord =>
          rw [text_key_append] at same
          rcases Text.quoted_append_inj (List.cons.inj same).2 with ⟨rfl, rests⟩
          exact ⟨rfl, (List.cons.inj rests).2⟩
      | index number =>
          rw [text_index_append] at same
          exact absurd (List.cons.inj same).2 quoted_ne_decimalText
  | index number =>
      rw [text_index_append] at same
      cases other with
      | name => exact absurd (List.cons.inj same).1 (by decide)
      | key otherWord =>
          rw [text_key_append] at same
          exact absurd (List.cons.inj same).2.symm quoted_ne_decimalText
      | index otherNumber =>
          rw [text_index_append] at same
          have inside {n : Int} : ∀ c ∈ (decimalText n).toList, c ≠ ']' := fun c member =>
            (ne_of_mem_decimalText member).1
          rcases append_inj_of_kind (p := fun c => c ≠ ']') inside inside (by simp) (by simp)
            (List.cons.inj same).2 with ⟨numbers, rests⟩
          exact ⟨congrArg index (decimalText_inj numbers), (List.cons.inj rests).2⟩

end PathStep

namespace Path

theorem PlainNames.head {rest : Path} (plain : PlainNames (step :: rest)) : PlainNames [step] :=
  fun word member => plain word (List.mem_singleton.mp member ▸ List.mem_cons_self)

theorem PlainNames.tail {rest : Path} (plain : PlainNames (step :: rest)) : PlainNames rest :=
  fun word member => plain word (List.mem_cons_of_mem _ member)

private theorem text_ne_nil (step : PathStep) : step.text ≠ [] := by
  cases step <;> exact List.cons_ne_nil _ _

private theorem flatMap_text_inj (plain : path.PlainNames) (plainToo : other.PlainNames)
    (same : path.flatMap PathStep.text = other.flatMap PathStep.text) : path = other := by
  induction path generalizing other with
  | nil =>
      cases other with
      | nil => rfl
      | cons step rest =>
          rw [List.flatMap_cons] at same
          exact absurd (List.append_eq_nil_iff.mp same.symm).1 (text_ne_nil step)
  | cons step rest inductionHypothesis =>
      rw [List.flatMap_cons] at same
      cases other with
      | nil => exact absurd (List.append_eq_nil_iff.mp same).1 (text_ne_nil step)
      | cons otherStep otherRest =>
          rw [List.flatMap_cons] at same
          rcases PathStep.text_append_inj plain.head plainToo.head same with ⟨rfl, rests⟩
          rw [inductionHypothesis plain.tail plainToo.tail rests]

/-- The text of a path with a dot before a name at its start as well. -/
def dotted : List Char → List Char
  | [] => []
  | c :: rest => if c = '[' then c :: rest else '.' :: c :: rest

theorem dotted_display (plain : path.PlainNames) :
    dotted path.display.toList = path.flatMap PathStep.text := by
  cases path with
  | nil => rfl
  | cons first rest =>
      rw [display, String.toList_ofList, List.flatMap_cons]
      cases first with
      | key | index => rfl
      | name word =>
          have ⟨filled, inside⟩ := plain word List.mem_cons_self
          cases letters : word.toList with
          | nil => exact absurd (String.toList_eq_nil_iff.mp letters) filled
          | cons c more =>
              have begins : c ≠ '[' := (inside c (letters ▸ List.mem_cons_self)).2
              rw [PathStep.leadingText, PathStep.text, letters]
              exact if_neg begins

/-- Paths with the same text are the same. -/
theorem display_inj (plain : path.PlainNames) (plainToo : other.PlainNames) :
    path.display = other.display ↔ path = other := by
  refine ⟨fun same => flatMap_text_inj plain plainToo ?_, congrArg display⟩
  rw [← dotted_display plain, ← dotted_display plainToo, same]

/-- A key that has been made to look like two keys is shown in another way than these. -/
theorem key_like_two_keys :
    let path : Path := [.name "tags", .key "a\"][\"b", .index 0]
    let other : Path := [.name "tags", .key "a", .key "b", .index 0]
    path.PlainNames ∧ other.PlainNames ∧ path.display = "tags[\"a\\\"][\\\"b\"][0]" ∧
      other.display = "tags[\"a\"][\"b\"][0]" ∧ path.display ≠ other.display := by
  intro path other
  have tags : "tags" ≠ "" ∧ ∀ c ∈ "tags".toList, c ≠ '.' ∧ c ≠ '[' := ⟨by decide, by simp⟩
  have named {keys : Path} (others : ∀ word, .name word ∉ keys) :
      PlainNames (.name "tags" :: keys) := by
    intro word member
    rcases List.mem_cons.mp member with same | member
    · exact PathStep.name.inj same ▸ tags
    · exact absurd member (others word)
  have plain : path.PlainNames := named (by simp)
  have plainToo : other.PlainNames := named (by simp)
  exact ⟨plain, plainToo, by rfl, by rfl, (display_inj plain plainToo).not.mpr (by decide)⟩

/-! The names must not look like other steps. -/

example : Path.display [.name "a.b"] = Path.display [.name "a", .name "b"] := by
  rfl

end Path
end ProviderKit
