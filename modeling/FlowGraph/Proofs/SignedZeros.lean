/-
This file says when JSON values are equal. Numbers are compared as numbers, so the one thing that
comparing values overlooks is the sign of a zero: values are equal exactly if they are the same
once every zero has lost its sign. Their texts show the sign. So equal values have the same text
only if they are the same.
-/

import FlowGraph.Proofs.Decoders

namespace FlowGraph

/-! ### Numbers -/

namespace Binary64

/-- The number, without its sign if it is a zero. -/
def unsignedZero (number : Binary64) : Binary64 :=
  { number with negative := number.negative && number.word != 0 }

theorem sameNumber_iff {left right : Binary64} :
    left.sameNumber right = true ↔ left.unsignedZero = right.unsignedZero := by
  obtain ⟨leftSign, leftWord, _⟩ := left
  obtain ⟨rightSign, rightWord, _⟩ := right
  simp only [sameNumber, unsignedZero, Bool.and_eq_true, Bool.or_eq_true, beq_iff_eq,
    Binary64.mk.injEq]
  by_cases same : leftWord = rightWord
  · subst same
    by_cases zero : leftWord = 0
    · simp [zero]
    · have nonzero : (leftWord != 0) = true := bne_iff_ne.mpr zero
      simp [zero, nonzero]
  · simp [same]

end Binary64

namespace Json

/-- The number, without its sign if it is a zero. -/
def Number.unsignedZero : Number → Number
  | .integer value => .integer value
  | .real value => .real value.unsignedZero

theorem sameNumber_iff {left right : Number} :
    Value.sameNumber left right = true ↔ left.unsignedZero = right.unsignedZero := by
  cases left <;> cases right <;>
    simp [Value.sameNumber, Number.unsignedZero, Binary64.sameNumber_iff]

/-- A zero is written with its sign. -/
theorem Number.numeral_zero_ne :
    (Number.real ⟨false, 0, by decide⟩).numeral ≠ (Number.real ⟨true, 0, by decide⟩).numeral := by
  decide

theorem Number.eq_of_numeral_eq {left right : Number}
    (alike : left.unsignedZero = right.unsignedZero) (written : left.numeral = right.numeral) :
    left = right := by
  cases left with
  | integer value =>
    cases right with
    | integer other => exact alike
    | real other => cases alike
  | real value =>
    cases right with
    | integer other => cases alike
    | real other =>
      obtain ⟨sign, word, _⟩ := value
      obtain ⟨otherSign, otherWord, _⟩ := other
      simp only [unsignedZero, Binary64.unsignedZero, real.injEq, Binary64.mk.injEq] at alike
      obtain ⟨signs, rfl⟩ := alike
      by_cases zero : word = 0
      · subst zero
        cases sign <;> cases otherSign
        · rfl
        · exact absurd written numeral_zero_ne
        · exact absurd written.symm numeral_zero_ne
        · rfl
      · have nonzero : (word != 0) = true := bne_iff_ne.mpr zero
        rw [nonzero, Bool.and_true, Bool.and_true] at signs
        rw [signs]

/-! ### Values -/

namespace Value

mutual

/-- The value, every zero without its sign. -/
def unsigned : Value → Value
  | .null => .null
  | .boolean truth => .boolean truth
  | .number content => .number content.unsignedZero
  | .text content => .text content
  | .list items => .list (unsignedItems items)
  | .record fields => .record (unsignedFields fields)

/-- The items, every zero without its sign. -/
def unsignedItems : List Value → List Value
  | [] => []
  | item :: rest => unsigned item :: unsignedItems rest

/-- The fields, every zero without its sign. -/
def unsignedFields : List (String × Value) → List (String × Value)
  | [] => []
  | (name, value) :: rest => (name, unsigned value) :: unsignedFields rest

end

theorem unsignedFields_eq_map (fields : List (String × Value)) :
    unsignedFields fields = fields.map fun field => (field.1, field.2.unsigned) := by
  induction fields with
  | nil => rfl
  | cons field rest inductionHypothesis => rw [unsignedFields, inductionHypothesis, List.map_cons]

mutual

/-- Values are equal if they are the same but for the signs of zeros. -/
theorem same_iff : ∀ {left right : Value}, same left right = true ↔ left.unsigned = right.unsigned
  | .null, right => by cases right <;> simp [same, unsigned]
  | .boolean _, right => by cases right <;> simp [same, unsigned]
  | .number _, right => by cases right <;> simp [same, unsigned, sameNumber_iff]
  | .text _, right => by cases right <;> simp [same, unsigned]
  | .list items, right => by
    cases right <;> simp [same, unsigned, @sameItems_iff items]
  | .record fields, right => by
    cases right <;> simp [same, unsigned, @sameFields_iff fields]

theorem sameItems_iff : ∀ {left right : List Value},
    sameItems left right = true ↔ unsignedItems left = unsignedItems right
  | [], right => by cases right <;> simp [sameItems, unsignedItems]
  | item :: rest, right => by
    cases right <;>
      simp [sameItems, unsignedItems, @same_iff item, @sameItems_iff rest]

theorem sameFields_iff : ∀ {left right : List (String × Value)},
    sameFields left right = true ↔ unsignedFields left = unsignedFields right
  | [], right => by cases right <;> simp [sameFields, unsignedFields]
  | (name, value) :: rest, right => by
    cases right <;>
      simp [sameFields, unsignedFields, @same_iff value, @sameFields_iff rest]

end

/-! ### Texts -/

mutual

theorem eq_of_ofValue_eq : ∀ {left right : Value}, left.unsigned = right.unsigned →
    Document.ofValue left = Document.ofValue right → left = right
  | .null, right, alike, _ => by
    cases right with
    | null => rfl
    | _ => cases alike
  | .boolean truth, right, alike, _ => by
    cases right with
    | boolean other => exact alike
    | _ => cases alike
  | .text content, right, alike, _ => by
    cases right with
    | text other => exact alike
    | _ => cases alike
  | .number content, right, alike, written => by
    cases right with
    | number other =>
      rw [unsigned, unsigned, number.injEq] at alike
      rw [Document.ofValue, Document.ofValue, Document.numeral.injEq] at written
      rw [Number.eq_of_numeral_eq alike written]
    | _ => cases alike
  | .list items, right, alike, written => by
    cases right with
    | list others =>
      rw [unsigned, unsigned, list.injEq] at alike
      rw [Document.ofValue, Document.ofValue, Document.list.injEq] at written
      rw [eq_of_ofItems_eq alike written]
    | _ => cases alike
  | .record fields, right, alike, written => by
    cases right with
    | record others =>
      rw [unsigned, unsigned, record.injEq] at alike
      rw [Document.ofValue, Document.ofValue, Document.record.injEq] at written
      rw [eq_of_ofFields_eq alike written]
    | _ => cases alike

theorem eq_of_ofItems_eq : ∀ {left right : List Value}, unsignedItems left = unsignedItems right →
    Document.ofItems left = Document.ofItems right → left = right
  | [], [], _, _ => rfl
  | [], _ :: _, alike, _ => by cases alike
  | _ :: _, [], alike, _ => by cases alike
  | item :: rest, other :: others, alike, written => by
    rw [unsignedItems, unsignedItems, List.cons.injEq] at alike
    rw [Document.ofItems, Document.ofItems, List.cons.injEq] at written
    rw [eq_of_ofValue_eq alike.1 written.1, eq_of_ofItems_eq alike.2 written.2]

theorem eq_of_ofFields_eq : ∀ {left right : List (String × Value)},
    unsignedFields left = unsignedFields right →
    Document.ofFields left = Document.ofFields right → left = right
  | [], [], _, _ => rfl
  | [], _ :: _, alike, _ => by cases alike
  | _ :: _, [], alike, _ => by cases alike
  | (name, value) :: rest, (otherName, other) :: others, alike, written => by
    rw [unsignedFields, unsignedFields, List.cons.injEq, Prod.mk.injEq] at alike
    rw [Document.ofFields, Document.ofFields, List.cons.injEq, Prod.mk.injEq] at written
    rw [alike.1.1, eq_of_ofValue_eq alike.1.2 written.1.2, eq_of_ofFields_eq alike.2 written.2]

end

/-- Equal values with one text are the same. -/
theorem eq_of_same_of_toText_eq {left right : Value} (alike : left.same right = true)
    (written : left.toText = right.toText) : left = right := by
  have read := read?_toText left
  rw [written, read?_toText, Option.some.injEq] at read
  exact eq_of_ofValue_eq (same_iff.mp alike) read.symm

end Value

end Json

/-! ### Tables -/

namespace Metadata

/-- The table, every zero without its sign. -/
def unsigned (metadata : Metadata) : Metadata := metadata.map fun _ value => value.unsigned

theorem same_iff {left right : Metadata} :
    left.same right = true ↔ left.unsigned = right.unsigned := by
  rw [same, Json.Value.sameFields_iff, Json.Value.unsignedFields_eq_map,
    Json.Value.unsignedFields_eq_map, ← Std.ExtTreeMap.toList_inj, unsigned, unsigned,
    Std.ExtTreeMap.toList_map, Std.ExtTreeMap.toList_map]

theorem eq_of_same_of_toText_eq {left right : Metadata} (alike : left.same right = true)
    (written : left.toJson.toText = right.toJson.toText) : left = right := by
  have alike : left.toJson.same right.toJson = true := by
    rwa [toJson, toJson, Json.Value.same]
  have same := Json.Value.eq_of_same_of_toText_eq alike written
  rw [toJson, toJson, Json.Value.record.injEq] at same
  exact Std.ExtTreeMap.toList_inj.mp same

end Metadata

end FlowGraph
