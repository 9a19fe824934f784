/-
This file proves what the decoders make of written values. Texts, truth values
and integers of 64 bits come back as they are, lists item by item, and records
with known fields field by field, in whatever order the fields were written and
whether or not empty ones were left out.

What a free-form value is read as depends on how deep it is nested and on its
doubles, so that a value is read back is a property of the value and its place.
-/

import FlowGraph.Json.Decoder
import FlowGraph.Proofs.Documents
import FlowGraph.Snapshot

namespace FlowGraph

namespace Json

/-! ### Tables and sets from their lists -/

/-- A table is made up of its own entries. -/
theorem ofList_toList_table {Content : Type} (table : Std.ExtTreeMap String Content) :
    Std.ExtTreeMap.ofList table.toList = table := by
  refine Std.ExtTreeMap.ext_getElem? fun name => ?_
  cases found : table[name]? with
  | some content =>
    exact Std.ExtTreeMap.getElem?_ofList_of_mem (Std.compare_eq_iff_eq.mpr rfl)
      table.distinct_keys_toList (Std.ExtTreeMap.mem_toList_iff_getElem?_eq_some.mpr found)
  | none =>
    refine Std.ExtTreeMap.getElem?_ofList_of_contains_eq_false ?_
    rw [Std.ExtTreeMap.map_fst_toList_eq_keys, Std.ExtTreeMap.contains_keys,
      Std.ExtTreeMap.contains_eq_isSome_getElem?, found]
    rfl

/-- A set is made up of its own members. -/
theorem ofList_toList_set (members : Std.ExtTreeSet String) :
    Std.ExtTreeSet.ofList members.toList = members := by
  refine Std.ExtTreeSet.ext_mem fun member => ?_
  rw [Std.ExtTreeSet.mem_ofList, List.contains_iff_mem, Std.ExtTreeSet.mem_toList]

/-! ### Whole texts -/

/-- A written text is decoded as the document of its value. -/
theorem Decoder.read_toText {Content : Type} (decoder : Decoder Content) (value : Value) :
    decoder.read value.toText = decoder nestingLimit (.ofValue value) := by
  rw [read, read?_toText, Option.bind_some]

/-- Whether a value is read back from its text at a place that allows the given depth of
nesting. -/
def Value.ReadsBack (depth : Nat) (value : Value) : Prop :=
  (Document.read? value.toText).bind (Decoder.value depth) = some value

theorem Value.readsBack_iff {depth : Nat} {value : Value} :
    value.ReadsBack depth ↔ Decoder.value depth (.ofValue value) = some value := by
  rw [ReadsBack, read?_toText, Option.bind_some]

/-- A text is read back wherever it stands. -/
theorem Value.readsBack_text (depth : Nat) (content : String) :
    (Value.text content).ReadsBack depth :=
  Value.readsBack_iff.mpr (congrArg (Option.map Value.text) (text?_writtenUnits content))

end Json

/-- Whether every value of a table is read back at a place that allows the given depth of
nesting. -/
def Metadata.ReadsBack (depth : Nat) (table : Metadata) : Prop :=
  ∀ entry ∈ table.toList, entry.2.ReadsBack depth

namespace Json

namespace Decoder

variable {Content : Type} {decoder : Decoder Content} {depth : Nat}

/-! ### Single values -/

theorem text_ofValue (depth : Nat) (content : String) :
    text depth (.ofValue (.text content)) = some content := text?_writtenUnits content

theorem boolean_ofValue (depth : Nat) (truth : Bool) :
    boolean depth (.ofValue (.boolean truth)) = some truth := rfl

theorem numeral_integer (value : Int) :
    (Number.integer value).numeral = Numeral.ofInteger value := by
  have read := (Number.integer value).ofMarks?_toText
  rw [Number.toText, Numeral.ofMarks?_integer, Option.some.injEq] at read
  exact read.symm

theorem integer_ofValue {least greatest value : Int} (above : -2 ^ 63 ≤ value)
    (below : value < 2 ^ 64) (inside : least ≤ value ∧ value ≤ greatest) (depth : Nat) :
    integer least greatest depth (.ofValue (.number (.integer value))) = some value := by
  rw [Document.ofValue, integer, numeral_integer, Numeral.number?_ofInteger above below]
  exact if_pos inside

theorem natural_ofValue {greatest value : Nat} (below : value < 2 ^ 64) (inside : value ≤ greatest)
    (depth : Nat) : natural greatest depth (.ofValue (.natural value)) = some value := by
  rw [natural, Value.natural, integer_ofValue (by omega) (by omega) (by omega)]
  rfl

theorem word_ofValue (depth : Nat) (value : UInt64) :
    word depth (.ofValue (.address value)) = some value := by
  have small := value.toNat_lt
  rw [word, Value.address, natural_ofValue small (by rw [UInt64.size]; omega), Option.map_some,
    UInt64.ofNat_toNat]

/-! ### Lists and absent values -/

/-- A list whose items are read back is read back. -/
theorem list_ofValue {write : Content → Value} {contents : List Content}
    (each : ∀ content ∈ contents, decoder depth (.ofValue (write content)) = some content) :
    list decoder (depth + 1) (.ofValue (.list (contents.map write))) = some contents := by
  rw [Document.ofValue, Document.ofItems_eq_map, list, inside, List.map_map]
  induction contents with
  | nil => rfl
  | cons content rest inductionHypothesis =>
    rw [List.forall_mem_cons] at each
    rw [List.map_cons, List.mapM_cons, Function.comp_apply, each.1, inductionHypothesis each.2]
    rfl

theorem texts_ofValue (depth : Nat) (contents : List String) :
    list text (depth + 1) (.ofValue (textsToJson contents)) = some contents :=
  list_ofValue fun content _ => text_ofValue depth content

theorem addresses_ofValue (depth : Nat) (addresses : List Address) :
    list word (depth + 1) (.ofValue (addressesToJson addresses)) = some addresses :=
  list_ofValue fun address _ => word_ofValue depth address

/-- A content that is not written as null is read back if it is there, and absence is. -/
theorem nullable_ofValue {write : Content → Value} {content : Option Content}
    (written : ∀ present, content = some present →
      Document.ofValue (write present) ≠ .null ∧
        decoder depth (.ofValue (write present)) = some present) :
    nullable decoder depth (.ofValue (.optional write content)) = some content := by
  cases content with
  | none => rfl
  | some present =>
    obtain ⟨notNull, read⟩ := written present rfl
    rw [Value.optional]
    unfold nullable
    split
    · rename_i null
      exact absurd null notNull
    · rw [read, Option.map_some]

theorem nullable_text_ofValue (depth : Nat) (content : Option String) :
    nullable text depth (.ofValue (.optional .text content)) = some content :=
  nullable_ofValue fun present _ => ⟨Document.noConfusion, text_ofValue depth present⟩

/-! ### Tables -/

/-- The fields of a record whose contents are read back are read back in order. -/
theorem fields_ofValue {write : Content → Value} {entries : List (String × Content)}
    (each : ∀ entry ∈ entries, decoder depth (.ofValue (write entry.2)) = some entry.2) :
    fields decoder (depth + 1)
      (.ofValue (.record (entries.map fun entry => (entry.1, write entry.2)))) = some entries := by
  rw [Document.ofValue, Document.ofFields_eq_map, fields, inside, List.map_map]
  induction entries with
  | nil => rfl
  | cons entry rest inductionHypothesis =>
    rw [List.forall_mem_cons] at each
    rw [List.map_cons, List.mapM_cons, Function.comp_apply, text?_writtenUnits, each.1,
      inductionHypothesis each.2]
    rfl

/-- A table of values that are read back is read back. -/
theorem metadata_ofValue {table : Metadata} (each : table.ReadsBack depth) :
    metadata (depth + 1) (.ofValue table.toJson) = some table := by
  have unchanged : (table.toList.map fun entry => (entry.1, id entry.2)) = table.toList :=
    List.map_id _
  have read : fields value (depth + 1) (.ofValue (.record
      (table.toList.map fun entry => (entry.1, id entry.2)))) = some table.toList :=
    fields_ofValue fun entry member => Value.readsBack_iff.mp (each entry member)
  rw [unchanged] at read
  rw [metadata, Metadata.toJson, read, Option.map_some, Metadata.ofFields, ofList_toList_table]

/-! ### Records without their empty fields -/

theorem mem_presentFields {fields : List (Bool × String × Value)}
    {field : String × Value} : field ∈ presentFields fields ↔ (true, field) ∈ fields := by
  rw [presentFields, List.mem_map]
  constructor
  · rintro ⟨⟨shown, _⟩, listed, rfl⟩
    obtain ⟨member, rfl⟩ := List.mem_filter.mp listed
    exact member
  · exact fun member => ⟨_, List.mem_filter.mpr ⟨member, rfl⟩, rfl⟩

/-- The names of the present fields stand among those of all fields, in the same order. -/
theorem sublist_presentFields (fields : List (Bool × String × Value)) :
    ((presentFields fields).map Prod.fst).Sublist (fields.map fun field => field.2.1) := by
  rw [presentFields, List.map_map]
  exact List.filter_sublist.map _

/-- A field whose name is not repeated is found exactly if it is present. -/
theorem lookup_presentFields {fields : List (Bool × String × Value)} {shown : Bool}
    {name : String} {value : Value} (distinct : (fields.map fun field => field.2.1).Nodup)
    (listed : (shown, name, value) ∈ fields) :
    (presentFields fields).lookup name = if shown then some value else none := by
  induction fields with
  | nil => exact absurd listed List.not_mem_nil
  | cons field rest inductionHypothesis =>
    rw [List.map_cons, List.nodup_cons] at distinct
    rcases List.mem_cons.mp listed with rfl | later
    · cases shown with
      | true => exact (List.lookup_cons).trans (by rw [beq_self_eq_true]; rfl)
      | false =>
        have absent : (presentFields rest).lookup name = none := by
          rw [List.lookup_eq_none_iff]
          intro present member
          rw [bne_iff_ne]
          exact fun equal => distinct.1
            (List.mem_map.mpr ⟨_, mem_presentFields.mp member, equal.symm⟩)
        exact absent
    · have other : name ≠ field.2.1 := fun equal =>
        distinct.1 (List.mem_map.mpr ⟨_, later, equal⟩)
      have skipped : (presentFields (field :: rest)).lookup name =
          (presentFields rest).lookup name := by
        rw [presentFields, List.filter_cons]
        split
        · rw [List.map_cons, List.lookup_cons, beq_false_of_ne other]
          rfl
        · rfl
      rw [skipped, inductionHypothesis distinct.2 later]

/-! ### Records with known fields -/

/-- Known fields without repetition are all found under their names. -/
theorem named_ofFields {names : List String} (fields : List (String × Value))
    (all : ∀ field ∈ fields, field.1 ∈ names) (distinct : (fields.map Prod.fst).Nodup)
    (found : List (String × Document)) (fresh : ∀ field ∈ fields, found.lookup field.1 = none) :
    ∃ next, named names found (Document.ofFields fields) = some next ∧
      ∀ name, next.lookup name =
        ((fields.lookup name).map Document.ofValue).or (found.lookup name) := by
  induction fields generalizing found with
  | nil => exact ⟨found, rfl, fun name => rfl⟩
  | cons field rest inductionHypothesis =>
    obtain ⟨name, value⟩ := field
    rw [List.forall_mem_cons] at all fresh
    rw [List.map_cons, List.nodup_cons] at distinct
    have stillFresh : ∀ field ∈ rest,
        ((name, Document.ofValue value) :: found).lookup field.1 = none := by
      intro field member
      have other : field.1 ≠ name := fun equal =>
        distinct.1 (List.mem_map.mpr ⟨field, member, equal⟩)
      rw [List.lookup_cons, beq_false_of_ne other]
      exact fresh.2 field member
    obtain ⟨next, read, lookups⟩ := inductionHypothesis all.2 distinct.2 _ stillFresh
    refine ⟨next, ?_, fun asked => ?_⟩
    · rw [Document.ofFields, named, text?_writtenUnits, Option.bind_eq_bind, Option.bind_some,
        if_pos all.1, fresh.1]
      exact read
    · rw [lookups, List.lookup_cons, List.lookup_cons]
      cases same : asked == name with
      | false => rfl
      | true =>
        have absent : rest.lookup asked = none := by
          rw [List.lookup_eq_none_iff]
          intro field member
          rw [eq_of_beq same, bne_iff_ne]
          exact fun equal => distinct.1 (List.mem_map.mpr ⟨field, member, equal.symm⟩)
        rw [absent]
        rfl

/-- What is found of a record that was written by name: those fields that were present. -/
structure Known.Holds (record : Known) (depth : Nat) (fields : List (Bool × String × Value)) :
    Prop where
  depth : record.depth = depth
  byName : record.positional = false
  lookup {shown : Bool} {name : String} {value : Value} : (shown, name, value) ∈ fields →
    record.found.lookup name = (if shown then some value else none).map Document.ofValue

/-- A record without its empty fields is read as what is built from its fields. -/
theorem known_presentFields {names : List String} {build : Known → Option Content}
    {fields : List (Bool × String × Value)} {content : Content}
    (named : fields.map (fun field => field.2.1) = names) (distinct : names.Nodup)
    (built : ∀ record : Known, record.Holds depth fields → build record = some content) :
    known names build (depth + 1) (.ofValue (.record (presentFields fields))) = some content := by
  subst named
  have stated := sublist_presentFields fields
  have all : ∀ field ∈ presentFields fields, field.1 ∈ fields.map fun field => field.2.1 :=
    fun field member => stated.subset (List.mem_map_of_mem member)
  obtain ⟨found, read, lookups⟩ :=
    named_ofFields (presentFields fields) all (stated.nodup distinct) [] fun _ _ => rfl
  have holds : Known.Holds ⟨depth, false, found⟩ depth fields :=
    ⟨rfl, rfl, fun listed => by
      rw [lookups, List.lookup_nil, Option.or_none, lookup_presentFields distinct listed]⟩
  rw [Document.ofValue, known, inside, read, Option.bind_eq_bind, Option.bind_some, built _ holds]

/-- A record with known fields is read as what is built from its fields. -/
theorem known_fields {names : List String} {build : Known → Option Content}
    {fields : List (String × Value)} {content : Content}
    (named : fields.map Prod.fst = names) (distinct : names.Nodup)
    (built : ∀ record : Known, record.Holds depth (fields.map fun field => (true, field)) →
      build record = some content) :
    known names build (depth + 1) (.ofValue (.record fields)) = some content := by
  have whole : presentFields (fields.map fun field => (true, field)) = fields := by
    rw [presentFields, List.filter_map, List.map_map]
    exact (List.map_id _).trans (List.filter_true fields)
  refine (congrArg (fun fields => known names build (depth + 1) (.ofValue (.record fields)))
    whole.symm).trans (known_presentFields ?_ distinct built)
  rw [List.map_map]
  exact named

namespace Known.Holds

variable {record : Known} {fields : List (Bool × String × Value)} {value : Value}
  {content : Content}

theorem required (holds : record.Holds depth fields) (name : String)
    (listed : (true, name, value) ∈ fields)
    (read : decoder depth (.ofValue value) = some content) :
    record.required name decoder = some content := by
  rw [Known.required, holds.lookup listed, holds.depth]
  exact read

theorem optional {content : Option Content} (holds : record.Holds depth fields) (name : String)
    (listed : (true, name, value) ∈ fields)
    (read : nullable decoder depth (.ofValue value) = some content) :
    record.optional name decoder = some content := by
  rw [Known.optional, holds.lookup listed, holds.depth]
  exact read

theorem defaulted {absent : Content} (holds : record.Holds depth fields) (name : String)
    (listed : (true, name, value) ∈ fields)
    (read : decoder depth (.ofValue value) = some content) :
    record.defaulted name decoder absent = some content := by
  rw [Known.defaulted, holds.lookup listed, holds.depth]
  exact read

/-- A field that is left out if it has its default is read either way. -/
theorem omittable {absent : Content} {left : Bool} (holds : record.Holds depth fields)
    (name : String) (listed : (!left, name, value) ∈ fields)
    (read : decoder depth (.ofValue value) = some content)
    (empty : left = true → content = absent) :
    record.defaulted name decoder absent = some content := by
  rw [Known.defaulted, holds.lookup listed, holds.depth]
  cases left with
  | false => exact read
  | true => exact congrArg some (empty rfl).symm

end Known.Holds

end Decoder

end Json

end FlowGraph
