/-
This file proves that the columns of compact graphs come back from their texts.
An array is written as a record whose only name is its width, and it is read
back if its elements fit in this width, which those of built arrays and of
arrays that were read do. Of a run-length list the counts and the tables cannot
be mistaken for each other, and a dictionary is the dictionary of its tokens.
-/

import FlowGraph.Compact.Format
import FlowGraph.Proofs.Columns
import FlowGraph.Proofs.Decoders
import FlowGraph.Proofs.Runs
import FlowGraph.Proofs.TokenTables

namespace FlowGraph

namespace Json.Decoder

variable {Content : Type} {decoder : Decoder Content} {depth : Nat} {document : Document}

/-! ### What was read -/

theorem integer_bounds {least greatest value : Int}
    (read : integer least greatest depth document = some value) :
    least ≤ value ∧ value ≤ greatest := by
  unfold integer at read
  split at read
  · split at read
    · split at read
      · rename_i inside
        cases read
        exact inside
      · cases read
    · cases read
  · cases read

theorem natural_le {greatest value : Nat} (read : natural greatest depth document = some value) :
    value ≤ greatest := by
  obtain ⟨number, found, rfl⟩ := Option.map_eq_some_iff.mp read
  have bounds := integer_bounds found
  omega

theorem exists_of_mapM {Item : Type} {step : Item → Option Content} {items : List Item}
    {contents : List Content} (read : items.mapM step = some contents) {content : Content}
    (member : content ∈ contents) : ∃ item ∈ items, step item = some content := by
  induction items generalizing contents with
  | nil =>
    cases read
    exact absurd member List.not_mem_nil
  | cons item rest inductionHypothesis =>
    rw [List.mapM_cons] at read
    obtain ⟨first, here, read⟩ := Option.bind_eq_some_iff.mp read
    obtain ⟨others, later, read⟩ := Option.bind_eq_some_iff.mp read
    cases read
    rcases List.mem_cons.mp member with rfl | member
    · exact ⟨item, List.mem_cons_self, here⟩
    · obtain ⟨other, listed, found⟩ := inductionHypothesis later member
      exact ⟨other, List.mem_cons_of_mem _ listed, found⟩

/-- Each content of a list was read by the decoder of the list. -/
theorem exists_of_list {contents : List Content}
    (read : list decoder depth document = some contents) {content : Content}
    (member : content ∈ contents) : ∃ depth document, decoder depth document = some content := by
  unfold list at read
  split at read
  · rename_i items
    unfold inside at read
    split at read
    · cases read
    · rename_i depth
      obtain ⟨item, _, found⟩ := exists_of_mapM read member
      exact ⟨depth, item, found⟩
  · cases read

/-- Each content of a record was read by the decoder of its fields. -/
theorem exists_of_fields {entries : List (String × Content)}
    (read : fields decoder depth document = some entries) {entry : String × Content}
    (member : entry ∈ entries) : ∃ depth document, decoder depth document = some entry.2 := by
  unfold fields at read
  split at read
  · rename_i written
    unfold inside at read
    split at read
    · cases read
    · rename_i depth
      obtain ⟨field, _, found⟩ := exists_of_mapM read member
      obtain ⟨name, _, found⟩ := Option.bind_eq_some_iff.mp found
      obtain ⟨content, here, found⟩ := Option.bind_eq_some_iff.mp found
      cases found
      exact ⟨depth, field.2, here⟩
  · cases read

/-- A record with known fields was built from something that was found. -/
theorem exists_of_known {names : List String} {build : Known → Option Content} {content : Content}
    (read : known names build depth document = some content) :
    ∃ record, build record = some content := by
  unfold known at read
  split at read
  · unfold inside at read
    split at read
    · cases read
    · obtain ⟨found, _, built⟩ := Option.bind_eq_some_iff.mp read
      exact ⟨_, built⟩
  · unfold inside at read
    split at read
    · cases read
    · split at read
      · exact ⟨_, read⟩
      · cases read
  · cases read

theorem exists_of_required {record : Known} {name : String} {content : Content}
    (read : record.required name decoder = some content) :
    ∃ depth document, decoder depth document = some content := by
  obtain ⟨document, _, found⟩ := Option.bind_eq_some_iff.mp read
  exact ⟨record.depth, document, found⟩

theorem exists_of_optional {record : Known} {name : String} {content : Content}
    (read : record.optional name decoder = some (some content)) :
    ∃ depth document, decoder depth document = some content := by
  unfold Known.optional at read
  split at read
  · unfold nullable at read
    split at read
    · cases read
    · obtain ⟨present, found, same⟩ := Option.map_eq_some_iff.mp read
      cases same
      exact ⟨_, _, found⟩
  · split at read
    · cases read
    · cases read

/-! ### Elements under the name of their width -/

/-- Reads the elements of an array from a record whose only name is that of a width. -/
def underWidth (typeName : Width → String) (element : Width → Decoder Content) :
    Decoder (Width × List Content)
  | depth, .record [(units, document)] => inside depth fun depth => do
    let name ← TextUnit.text? units
    let width ← Width.all.find? fun width => typeName width = name
    let elements ← list (element width) depth document
    return (width, elements)
  | _, _ => none

variable {typeName : Width → String} {element : Width → Decoder Content} {width : Width}
  {elements : List Content}

theorem exists_of_underWidth
    (read : underWidth typeName element depth document = some (width, elements))
    {content : Content} (member : content ∈ elements) :
    ∃ depth document, element width depth document = some content := by
  unfold underWidth at read
  split at read
  · unfold inside at read
    split at read
    · cases read
    · obtain ⟨_, _, read⟩ := Option.bind_eq_some_iff.mp read
      obtain ⟨_, _, read⟩ := Option.bind_eq_some_iff.mp read
      obtain ⟨_, found, read⟩ := Option.bind_eq_some_iff.mp read
      cases read
      exact exists_of_list found member
  · cases read

/-- Elements that are read back at their width are read back under its name. -/
theorem underWidth_ofValue {write : Content → Value}
    (named : (Width.all.find? fun other => typeName other = typeName width) = some width)
    (each : ∀ content ∈ elements,
      element width depth (.ofValue (write content)) = some content) :
    underWidth typeName element (depth + 2)
      (.ofValue (.record [(typeName width, .list (elements.map write))])) =
        some (width, elements) := by
  have read : list (element width) (depth + 1) (.ofValue (.list (elements.map write))) =
      some elements := list_ofValue each
  have name := text?_writtenUnits (typeName width)
  simp only [Document.ofValue, Document.ofFields, underWidth, inside, name, named,
    Option.bind_eq_bind, Option.bind_some] at read ⊢
  rw [read]
  rfl

end Json.Decoder

/-! ### Arrays -/

namespace Width

theorem unsignedMax_lt (width : Width) : width.unsignedMax < 2 ^ 64 := by
  cases width <;> decide

theorem signed_bounds (width : Width) :
    -2 ^ 63 ≤ width.signedMin ∧ width.signedMin ≤ width.signedMax ∧ width.signedMax < 2 ^ 63 := by
  cases width <;> decide

end Width

namespace UnsignedArray

variable {array : UnsignedArray}

/-- Whether all elements can be stored at the width. -/
def Fits (array : UnsignedArray) : Prop :=
  ∀ element ∈ array.elements, element ≤ array.width.unsignedMax

theorem fits_ofWidth (width : Width) (values : List Nat) : (ofWidth width values).Fits := by
  intro element member
  obtain ⟨value, _, rfl⟩ := List.mem_map.mp member
  exact Nat.min_le_right value _

theorem decode_eq (depth : Nat) (document : Json.Document) :
    decode depth document = (Json.Decoder.underWidth typeName
      (fun width => Json.Decoder.natural width.unsignedMax) depth document).map fun read =>
        ⟨read.1, read.2⟩ := by
  cases document with
  | record fields =>
    match depth, fields with
    | depth + 1, [(units, elements)] =>
      simp only [decode, Json.Decoder.underWidth, Json.Decoder.inside, Option.bind_eq_bind,
        Option.map_bind, Option.pure_def, Function.comp_def, Option.map_some]
    | 0, [(units, elements)] => rfl
    | _, [] => rfl
    | _, _ :: _ :: _ => rfl
  | _ => rfl

theorem fits_of_decode {depth : Nat} {document : Json.Document}
    (read : decode depth document = some array) : array.Fits := by
  rw [decode_eq] at read
  obtain ⟨⟨width, elements⟩, found, rfl⟩ := Option.map_eq_some_iff.mp read
  intro element member
  obtain ⟨_, _, here⟩ := Json.Decoder.exists_of_underWidth found member
  exact Json.Decoder.natural_le here

/-- An array whose elements fit is read back. -/
theorem decode_toJson (fits : array.Fits) (depth : Nat) :
    decode (depth + 2) (.ofValue array.toJson) = some array := by
  have named : (Width.all.find? fun other => typeName other = typeName array.width) =
      some array.width := by
    cases array.width <;> decide +kernel
  have each : ∀ element ∈ array.elements,
      Json.Decoder.natural array.width.unsignedMax depth (.ofValue (.natural element)) =
        some element := by
    intro element member
    have inside := fits element member
    exact Json.Decoder.natural_ofValue (Nat.lt_of_le_of_lt inside array.width.unsignedMax_lt)
      inside depth
  have read : Json.Decoder.underWidth typeName
      (fun width => Json.Decoder.natural width.unsignedMax) (depth + 2)
      (.ofValue (.record [(typeName array.width, .list (array.elements.map .natural))])) =
        some (array.width, array.elements) :=
    Json.Decoder.underWidth_ofValue named each
  rw [decode_eq, toJson, read]
  rfl

/-- An array that may be missing is read back if it fits. -/
theorem nullable_decode_toJson {array : Option UnsignedArray}
    (fits : ∀ present, array = some present → present.Fits) (depth : Nat) :
    Json.Decoder.nullable decode (depth + 2) (.ofValue (.optional toJson array)) = some array :=
  Json.Decoder.nullable_ofValue fun present same =>
    ⟨Json.Document.noConfusion, decode_toJson (fits present same) depth⟩

end UnsignedArray

namespace SignedArray

variable {array : SignedArray}

/-- Whether all elements can be stored at the width. -/
def Fits (array : SignedArray) : Prop :=
  ∀ element ∈ array.elements,
    array.width.signedMin ≤ element ∧ element ≤ array.width.signedMax

theorem fits_ofWidth (width : Width) (values : List Int) : (ofWidth width values).Fits := by
  intro element member
  obtain ⟨value, _, rfl⟩ := List.mem_map.mp member
  have ordered := width.signed_bounds.2.1
  dsimp only [ofWidth]
  omega

theorem decode_eq (depth : Nat) (document : Json.Document) :
    decode depth document = (Json.Decoder.underWidth typeName
      (fun width => Json.Decoder.integer width.signedMin width.signedMax) depth document).map
        fun read => ⟨read.1, read.2⟩ := by
  cases document with
  | record fields =>
    match depth, fields with
    | depth + 1, [(units, elements)] =>
      simp only [decode, Json.Decoder.underWidth, Json.Decoder.inside, Option.bind_eq_bind,
        Option.map_bind, Option.pure_def, Function.comp_def, Option.map_some]
    | 0, [(units, elements)] => rfl
    | _, [] => rfl
    | _, _ :: _ :: _ => rfl
  | _ => rfl

theorem fits_of_decode {depth : Nat} {document : Json.Document}
    (read : decode depth document = some array) : array.Fits := by
  rw [decode_eq] at read
  obtain ⟨⟨width, elements⟩, found, rfl⟩ := Option.map_eq_some_iff.mp read
  intro element member
  obtain ⟨_, _, here⟩ := Json.Decoder.exists_of_underWidth found member
  exact Json.Decoder.integer_bounds here

/-- An array whose elements fit is read back. -/
theorem decode_toJson (fits : array.Fits) (depth : Nat) :
    decode (depth + 2) (.ofValue array.toJson) = some array := by
  have bounds := array.width.signed_bounds
  have named : (Width.all.find? fun other => typeName other = typeName array.width) =
      some array.width := by
    cases array.width <;> decide +kernel
  have each : ∀ element ∈ array.elements,
      Json.Decoder.integer array.width.signedMin array.width.signedMax depth
        (.ofValue (.number (.integer element))) = some element := by
    intro element member
    have inside := fits element member
    exact Json.Decoder.integer_ofValue (by omega) (by omega) inside depth
  have read : Json.Decoder.underWidth typeName
      (fun width => Json.Decoder.integer width.signedMin width.signedMax) (depth + 2)
      (.ofValue (.record [(typeName array.width, .list (array.elements.map fun value =>
        .number (.integer value)))])) = some (array.width, array.elements) :=
    Json.Decoder.underWidth_ofValue named each
  rw [decode_eq, toJson, read]
  rfl

/-- An array that may be missing is read back if it fits. -/
theorem nullable_decode_toJson {array : Option SignedArray}
    (fits : ∀ present, array = some present → present.Fits) (depth : Nat) :
    Json.Decoder.nullable decode (depth + 2) (.ofValue (.optional toJson array)) = some array :=
  Json.Decoder.nullable_ofValue fun present same =>
    ⟨Json.Document.noConfusion, decode_toJson (fits present same) depth⟩

end SignedArray

/-! ### Run-length lists -/

namespace RunLength

variable {encoded : RunLength}

/-- Whether a machine word can hold every count. -/
def Counted (encoded : RunLength) : Prop := ∀ count, RunEntry.run count ∈ encoded → count < 2 ^ 64

theorem le_tableCount {count : Nat} (member : RunEntry.run count ∈ encoded) :
    count ≤ encoded.tableCount := by
  induction encoded with
  | nil => exact absurd member List.not_mem_nil
  | cons entry rest inductionHypothesis =>
    have total : tableCount (entry :: rest) = entry.span + tableCount rest := rfl
    rw [total]
    rcases List.mem_cons.mp member with rfl | later
    · exact Nat.le_add_right _ _
    · exact Nat.le_trans (inductionHypothesis later) (Nat.le_add_left _ _)

theorem counted_encode {tables : List Metadata} (word : tables.length < 2 ^ 64) :
    (encode tables).Counted := by
  intro count member
  have total := le_tableCount member
  rw [tableCount_encode] at total
  exact Nat.lt_of_le_of_lt total word

theorem counted_of_ofJson {depth : Nat} {document : Json.Document}
    (read : ofJson depth document = some encoded) : encoded.Counted := by
  intro count member
  obtain ⟨_, document, found⟩ := Json.Decoder.exists_of_list read member
  unfold RunEntry.decode at found
  split at found
  · obtain ⟨_, _, other⟩ := Option.map_eq_some_iff.mp found
    cases other
  · obtain ⟨number, here, same⟩ := Option.map_eq_some_iff.mp found
    cases same
    have small := Json.Decoder.natural_le here
    exact Nat.lt_of_le_of_lt small (by decide)

/-- Whether all tables are read back at a place that allows the given depth. -/
def TablesReadBack (depth : Nat) (encoded : RunLength) : Prop :=
  ∀ table, RunEntry.table table ∈ encoded → table.ReadsBack depth

/-- A run-length list is read back if its tables are: counts are numbers and tables records. -/
theorem ofJson_toJson {depth : Nat} (counted : encoded.Counted)
    (readBack : encoded.TablesReadBack depth) :
    ofJson (depth + 2) (.ofValue encoded.toJson) = some encoded := by
  refine Json.Decoder.list_ofValue fun entry member => ?_
  cases entry with
  | run count =>
    have word : count < UInt64.size := counted count member
    have read := Json.Decoder.natural_ofValue word (Nat.le_sub_one_of_lt word) (depth + 1)
    change (Json.Decoder.natural (UInt64.size - 1) (depth + 1) (.ofValue (.natural count))).map
      RunEntry.run = some (.run count)
    rw [read, Option.map_some]
  | table metadata =>
    exact congrArg (Option.map RunEntry.table)
      (Json.Decoder.metadata_ofValue (readBack metadata member))

end RunLength

end FlowGraph
