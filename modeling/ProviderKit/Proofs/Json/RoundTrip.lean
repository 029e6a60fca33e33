import ProviderKit.Proofs.Entries
import ProviderKit.Proofs.Induction
import ProviderKit.Proofs.Json.Literals

/-!
# Documents that are read back

What a program reads from a text has the members of its objects in key order.  A document
that is read back from its own text therefore is in key order.  Conversely a document in key
order is read back when it nests no deeper than a reader allows and its numbers are read back.

Reading descends on a fuel.  A document needs no more than two steps for each character of its
text: one for the value, and one for its place in an array or an object.
-/

namespace ProviderKit
namespace Json

/-- The members of every object inside are in strictly increasing key order. -/
inductive KeyOrdered : Json → Prop
  | null : KeyOrdered .null
  | bool (b : Bool) : KeyOrdered (.bool b)
  | number (n : Number) : KeyOrdered (.number n)
  | string (s : String) : KeyOrdered (.string s)
  | array {items : List Json} (inner : ∀ item ∈ items, KeyOrdered item) : KeyOrdered (.array items)
  | object {members : List (String × Json)} (sorted : Entries.Sorted members)
      (inner : ∀ member ∈ members, KeyOrdered member.2) : KeyOrdered (.object members)

/-- Arrays and objects nest at most so deep, and every number inside is read back. -/
inductive Readable : Nat → Json → Prop
  | null (depth : Nat) : Readable depth .null
  | bool (depth : Nat) (b : Bool) : Readable depth (.bool b)
  | number (depth : Nat) {n : Number} (readsBack : n.ReadsBack) : Readable depth (.number n)
  | string (depth : Nat) (s : String) : Readable depth (.string s)
  | array {depth : Nat} {items : List Json} (inner : ∀ item ∈ items, Readable depth item) :
      Readable (depth + 1) (.array items)
  | object {depth : Nat} {members : List (String × Json)}
      (inner : ∀ member ∈ members, Readable depth member.2) :
      Readable (depth + 1) (.object members)

attribute [simp] Readable.null Readable.bool Readable.string

@[simp] theorem readable_number_iff {depth : Nat} {n : Number} :
    Readable depth (.number n) ↔ n.ReadsBack := by
  constructor
  · rintro ⟨⟩
    assumption
  · exact .number depth

@[simp] theorem readable_array_iff {depth : Nat} {items : List Json} :
    Readable (depth + 1) (.array items) ↔ ∀ item ∈ items, Readable depth item := by
  constructor
  · rintro ⟨⟩
    assumption
  · exact .array

@[simp] theorem readable_object_iff {depth : Nat} {members : List (String × Json)} :
    Readable (depth + 1) (.object members) ↔ ∀ member ∈ members, Readable depth member.2 := by
  constructor
  · rintro ⟨⟩
    assumption
  · exact .object

/-- The text of the document is read as the document itself. -/
def ReadsBack (document : Json) : Prop :=
  parse document.compact = .ok document

/-! ## Key order -/

theorem inKeyOrderItems_eq_map (items : List Json) :
    inKeyOrderItems items = items.map inKeyOrder := by
  induction items with
  | nil => rfl
  | cons item rest inductionHypothesis => simp [inKeyOrderItems, inductionHypothesis]

theorem inKeyOrderMembers_eq_mapValues (members : List (String × Json)) :
    inKeyOrderMembers members = Entries.mapValues inKeyOrder members := by
  induction members with
  | nil => rfl
  | cons member rest inductionHypothesis =>
      simpa [inKeyOrderMembers, Entries.mapValues] using inductionHypothesis

theorem keyOrdered_inKeyOrder (document : Json) : document.inKeyOrder.KeyOrdered := by
  induction document using Json.induct with
  | null => exact .null
  | bool b => exact .bool b
  | number n => exact .number n
  | string s => exact .string s
  | array items inductionHypothesis =>
      rw [inKeyOrder, inKeyOrderItems_eq_map]
      exact .array (List.forall_mem_map.mpr inductionHypothesis)
  | object members inductionHypothesis =>
      rw [inKeyOrder, inKeyOrderMembers_eq_mapValues]
      refine .object (Entries.sorted_ofPairs _) fun member isMember => ?_
      rcases List.mem_map.mp (Entries.mem_of_mem_ofPairs isMember) with ⟨source, isSource, rfl⟩
      exact inductionHypothesis source isSource

theorem KeyOrdered.inKeyOrder_eq {document : Json} (ordered : document.KeyOrdered) :
    document.inKeyOrder = document := by
  induction ordered with
  | null => rfl
  | bool b => rfl
  | number n => rfl
  | string s => rfl
  | array inner inductionHypothesis =>
      rw [inKeyOrder, inKeyOrderItems_eq_map, List.map_congr_left inductionHypothesis, List.map_id']
  | @object members sorted inner inductionHypothesis =>
      have unchanged : Entries.mapValues inKeyOrder members = members := by
        refine (List.map_congr_left fun member isMember => ?_).trans (List.map_id' members)
        exact Prod.ext rfl (inductionHypothesis member isMember)
      rw [inKeyOrder, inKeyOrderMembers_eq_mapValues, unchanged, Entries.ofPairs_of_sorted sorted]

/-- Key order is what reading leaves alone. -/
theorem keyOrdered_iff {document : Json} : document.KeyOrdered ↔ document.inKeyOrder = document :=
  ⟨KeyOrdered.inKeyOrder_eq, fun same => same ▸ keyOrdered_inKeyOrder document⟩

theorem keyOrdered_of_parse {text : String} {document : Json}
    (read : parse text = .ok document) : document.KeyOrdered := by
  unfold parse at read
  cases written : parseAsWritten text with
  | error cause =>
      rw [written] at read
      cases read
  | ok found =>
      rw [written] at read
      cases read
      exact keyOrdered_inKeyOrder found

theorem ReadsBack.keyOrdered {document : Json} (readsBack : document.ReadsBack) :
    document.KeyOrdered :=
  keyOrdered_of_parse readsBack

/-! ## Reading a printed document -/

theorem skipSpace_cons {c : Char} (noSpace : isSpace c = false) (text : List Char) :
    skipSpace (c :: text) = c :: text :=
  List.dropWhile_cons_of_neg (Bool.eq_false_iff.mp noSpace)

/-- The printed document is read as the document itself, whatever stands behind it. -/
def ReadAt (depth : Nat) (document : Json) : Prop :=
  ∀ fuel rest, 2 * document.render.length ≤ fuel → EndsNumber rest →
    readValue fuel depth (document.render ++ rest) = .ok (document, rest)

/-- A printed document has a character, and so there is fuel to start with. -/
theorem readAt_of_succ {depth : Nat} {document : Json} {c : Char} {more : List Char}
    (text : document.render = c :: more)
    (step : ∀ fuel rest, 2 * document.render.length ≤ fuel + 1 → EndsNumber rest →
      readValue (fuel + 1) depth (document.render ++ rest) = .ok (document, rest)) :
    ReadAt depth document := by
  intro fuel rest enough
  cases fuel with
  | zero =>
      rw [text] at enough
      cases enough
  | succ fuel => exact step fuel rest enough

theorem readAt_string (depth : Nat) (s : String) : ReadAt depth (.string s) := by
  refine readAt_of_succ rfl fun fuel rest _ _ => ?_
  simp only [render, renderString, List.cons_append, List.append_assoc, List.nil_append]
  rw [readValue, skipSpace_cons rfl]
  simp only [readString_render]
  rfl

/-- A text that starts with a sign or a digit is read as a number. -/
theorem readValue_eq_readNumber {c : Char} (starts : c = '-' ∨ ∃ digit, c = Digit.toChar digit)
    (fuel depth : Nat) (text : List Char) :
    readValue (fuel + 1) depth (c :: text) = readNumber (c :: text) := by
  rcases starts with rfl | ⟨digit, rfl⟩
  · rfl
  · match digit with
    | 0 | 1 | 2 | 3 | 4 | 5 | 6 | 7 | 8 | 9 => rfl

theorem readAt_number (depth : Nat) {n : Number} (readsBack : n.ReadsBack) :
    ReadAt depth (.number n) := by
  rcases readNumber_eq_cons readsBack with ⟨c, more, text, starts⟩
  refine readAt_of_succ text fun fuel rest _ ends => ?_
  rw [render, text, List.cons_append, readValue_eq_readNumber starts, ← List.cons_append, ← text]
  exact readNumber_append ends readsBack

/-- The items of an array are read one after the other, up to the bracket. -/
theorem readItems_render {depth : Nat} {item : Json} {items : List Json}
    (inner : ∀ each ∈ item :: items, ReadAt depth each) {fuel : Nat}
    (enough : 2 * (item.render ++ renderItems items).length ≤ fuel) (rest : List Char) :
    readItems fuel depth (item.render ++ (renderItems items ++ rest)) =
      .ok (item :: items, rest) := by
  rcases List.forall_mem_cons.mp inner with ⟨first, later⟩
  rw [List.length_append] at enough
  induction items generalizing item fuel with
  | nil =>
      simp only [renderItems, List.length_singleton] at enough
      cases fuel with
      | zero => omega
      | succ fuel =>
          have read := first fuel (']' :: rest) (by omega) (.inr (.inl rfl))
          rw [readItems, renderItems, List.singleton_append, read]
          rfl
  | cons next items inductionHypothesis =>
      rcases List.forall_mem_cons.mp later with ⟨second, others⟩
      simp only [renderItems, List.length_cons, List.length_append] at enough
      cases fuel with
      | zero => omega
      | succ fuel =>
          have read := first fuel (',' :: next.render ++ renderItems items ++ rest) (by omega)
            (.inl rfl)
          have readRest := inductionHypothesis later (show _ ≤ fuel by omega) second others
          rw [readItems, renderItems, read]
          simp only [bind, Except.bind, List.cons_append, List.append_assoc]
          rw [skipSpace_cons rfl]
          simp only [readRest]

/-- The name of a member is read up to its colon. -/
theorem readMembers_succ {depth fuel : Nat} (name : String) (text : List Char) :
    readMembers (fuel + 1) depth (renderString name ++ ':' :: text) = (do
      let (value, rest) ← readValue fuel depth text
      match skipSpace rest with
      | '\x7d' :: rest => .ok ([(name, value)], rest)
      | ',' :: rest => do
        let (members, rest) ← readMembers fuel depth rest
        .ok ((name, value) :: members, rest)
      | _ => .error .malformed) := by
  simp only [renderString, List.cons_append, List.append_assoc, List.nil_append]
  rw [readMembers, skipSpace_cons rfl]
  simp only [readString_render]
  rfl

/-- The members of an object are read one after the other, up to the brace. -/
theorem readMembers_render {depth : Nat} {name : String} {value : Json}
    {members : List (String × Json)}
    (inner : ∀ each ∈ (name, value) :: members, ReadAt depth each.2) {fuel : Nat}
    (enough : 2 * (renderString name ++ ':' :: (value.render ++ renderMembers members)).length ≤
      fuel) (rest : List Char) :
    readMembers fuel depth
        (renderString name ++ ':' :: (value.render ++ (renderMembers members ++ rest))) =
      .ok ((name, value) :: members, rest) := by
  rcases List.forall_mem_cons.mp inner with ⟨first, later⟩
  induction members generalizing name value fuel with
  | nil =>
      simp only [renderMembers, List.length_append, List.length_cons, List.length_nil] at enough
      cases fuel with
      | zero => omega
      | succ fuel =>
          have read := first fuel ('\x7d' :: rest) (by simp only; omega) (.inr (.inr rfl))
          rw [readMembers_succ, renderMembers, List.singleton_append, read]
          rfl
  | cons next members inductionHypothesis =>
      rcases next with ⟨nextName, nextValue⟩
      rcases List.forall_mem_cons.mp later with ⟨second, others⟩
      simp only [renderMembers, List.length_append, List.length_cons] at enough
      cases fuel with
      | zero => omega
      | succ fuel =>
          have read := first fuel (',' :: renderString nextName ++ ':' :: nextValue.render ++
            renderMembers members ++ rest) (by simp only; omega) (.inl rfl)
          have enoughRest : 2 * (renderString nextName ++ ':' :: (nextValue.render ++
              renderMembers members)).length ≤ fuel := by
            simp only [List.length_append, List.length_cons]
            omega
          have readRest := inductionHypothesis later enoughRest second others
          rw [readMembers_succ, renderMembers, read]
          simp only [bind, Except.bind, List.cons_append, List.append_assoc]
          rw [skipSpace_cons rfl]
          simp only [readRest]

/-- A printed document starts neither with a space nor with a closing bracket. -/
theorem Readable.render_eq_cons {depth : Nat} {document : Json}
    (readable : Readable depth document) :
    ∃ c more, document.render = c :: more ∧ isSpace c = false ∧ c ≠ ']' := by
  cases readable with
  | null => exact ⟨_, _, rfl, rfl, by decide⟩
  | bool depth b => cases b <;> exact ⟨_, _, rfl, rfl, by decide⟩
  | number depth readsBack =>
      rcases readNumber_eq_cons readsBack with ⟨c, more, text, starts⟩
      refine ⟨c, more, text, ?_⟩
      have digits : ∀ digit, isSpace (Digit.toChar digit) = false ∧ Digit.toChar digit ≠ ']' := by
        decide
      rcases starts with rfl | ⟨digit, rfl⟩
      · decide
      · exact digits digit
  | string depth s => exact ⟨_, _, rfl, rfl, by decide⟩
  | @array depth items inner => cases items <;> exact ⟨_, _, rfl, rfl, by decide⟩
  | @object depth members inner => cases members <;> exact ⟨_, _, rfl, rfl, by decide⟩

/-- The items of an array are read where it does not end at once. -/
theorem readValue_array {c : Char} (noSpace : isSpace c = false) (noBracket : c ≠ ']')
    (fuel depth : Nat) (text : List Char) :
    readValue (fuel + 1) (depth + 1) ('[' :: c :: text) = (do
      let (items, rest) ← readItems fuel depth (c :: text)
      .ok (.array items, rest)) := by
  rw [readValue, skipSpace_cons rfl]
  simp only [skipSpace_cons noSpace]
  split
  · next same => exact absurd (List.cons.inj same).1 noBracket
  · rfl

/-- The members of an object are read where a name comes next. -/
theorem readValue_object (fuel depth : Nat) (name : String) (text : List Char) :
    readValue (fuel + 1) (depth + 1) ('\x7b' :: (renderString name ++ text)) = (do
      let (members, rest) ← readMembers fuel depth (renderString name ++ text)
      .ok (.object members, rest)) := by
  rfl

/-- A printed document is read at the depth that it needs. -/
theorem Readable.readAt {depth : Nat} {document : Json} (readable : Readable depth document) :
    ReadAt depth document := by
  induction readable with
  | null depth => exact readAt_of_succ rfl fun _ _ _ _ => rfl
  | bool depth b => cases b <;> exact readAt_of_succ rfl fun _ _ _ _ => rfl
  | number depth readsBack => exact readAt_number depth readsBack
  | string depth s => exact readAt_string depth s
  | @array depth items inner inductionHypothesis =>
      cases items with
      | nil => exact readAt_of_succ rfl fun _ _ _ _ => rfl
      | cons item items =>
          refine readAt_of_succ rfl fun fuel rest enough _ => ?_
          rcases (inner item List.mem_cons_self).render_eq_cons with
            ⟨c, more, text, noSpace, noBracket⟩
          simp only [render, List.cons_append, List.append_assoc, List.length_cons] at enough ⊢
          have read := readItems_render inductionHypothesis (show _ ≤ fuel by omega) rest
          rw [text, List.cons_append] at read ⊢
          rw [readValue_array noSpace noBracket, read]
          rfl
  | @object depth members inner inductionHypothesis =>
      cases members with
      | nil => exact readAt_of_succ rfl fun _ _ _ _ => rfl
      | cons member members =>
          rcases member with ⟨name, value⟩
          refine readAt_of_succ rfl fun fuel rest enough _ => ?_
          simp only [render, List.cons_append, List.append_assoc, List.length_cons] at enough ⊢
          rw [readValue_object, readMembers_render inductionHypothesis (by omega) rest]
          rfl

/-- A document that nests no deeper than a reader allows is read as it was printed, when its
numbers are. -/
theorem Readable.parseAsWritten_compact {document : Json} (readable : Readable maxDepth document) :
    parseAsWritten document.compact = .ok document := by
  have read := readable.readAt (2 * document.render.length + 2) [] (Nat.le_add_right _ 2) trivial
  rw [List.append_nil] at read
  rw [parseAsWritten, parseToDepth, compact, String.toList_ofList, read]
  rfl

/-- If it is in key order as well, it is read back. -/
theorem KeyOrdered.readsBack {document : Json} (ordered : document.KeyOrdered)
    (readable : Readable maxDepth document) : document.ReadsBack := by
  rw [ReadsBack, parse, readable.parseAsWritten_compact]
  exact congrArg Except.ok ordered.inKeyOrder_eq

end Json
end ProviderKit
