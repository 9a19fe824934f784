/-
This file defines JSON values. A number is an integer or a double, and the two are kept apart:
`1` and `1.0` are different values. The fields of a record stand in the order in which they
are written; a value that was read has them in ascending order of their names, each name once.
Metadata is a table of values by name.
-/

import Std.Data.ExtTreeMap
import FlowGraph.Binary64

namespace FlowGraph

namespace Json

/-- A number as a value holds it. Integers reach from `-2 ^ 63` to `2 ^ 64 - 1`. -/
inductive Number where
  | integer (value : Int)
  | real (value : Binary64)
  deriving DecidableEq

/-- A JSON value. -/
inductive Value where
  | null
  | boolean (truth : Bool)
  | number (number : Number)
  | text (content : String)
  | list (items : List Value)
  | record (fields : List (String × Value))

instance : Inhabited Value := ⟨.null⟩

namespace Value

/-- A natural number as a value. -/
def natural (value : Nat) : Value := .number (.integer value)

/-- An address as a value. -/
def address (value : UInt64) : Value := .natural value.toNat

/-- An optional value, absence being null. -/
def optional {Content : Type} (write : Content → Value) : Option Content → Value
  | none => .null
  | some content => write content

/-- The fields in ascending order of their names; of a repeated name the last field counts. -/
def canonicalFields (fields : List (String × Value)) : List (String × Value) :=
  (Std.ExtTreeMap.ofList fields).toList

/-- Whether two numbers are equal: integers and doubles never are, the two zeros are. -/
def sameNumber : Number → Number → Bool
  | .integer left, .integer right => left == right
  | .real left, .real right => left.sameNumber right
  | _, _ => false

mutual

/-- Whether two values are equal, numbers being compared as numbers. -/
def same : Value → Value → Bool
  | .null, .null => true
  | .boolean left, .boolean right => left == right
  | .number left, .number right => sameNumber left right
  | .text left, .text right => left == right
  | .list left, .list right => sameItems left right
  | .record left, .record right => sameFields left right
  | _, _ => false

/-- Whether two lists hold equal values in the same order. -/
def sameItems : List Value → List Value → Bool
  | [], [] => true
  | left :: leftRest, right :: rightRest => same left right && sameItems leftRest rightRest
  | _, _ => false

/-- Whether two lists hold the same names with equal values in the same order. -/
def sameFields : List (String × Value) → List (String × Value) → Bool
  | [], [] => true
  | (leftName, left) :: leftRest, (rightName, right) :: rightRest =>
    leftName == rightName && same left right && sameFields leftRest rightRest
  | _, _ => false

end

theorem sameNumber_self (content : Number) : sameNumber content content = true := by
  cases content with
  | integer value => exact beq_self_eq_true value
  | real value => exact Binary64.sameNumber_self value

mutual

theorem same_self : ∀ value : Value, same value value = true
  | .null => rfl
  | .boolean truth => by rw [same, beq_self_eq_true]
  | .number content => sameNumber_self content
  | .text content => by rw [same, beq_self_eq_true]
  | .list items => sameItems_self items
  | .record fields => sameFields_self fields

theorem sameItems_self : ∀ items : List Value, sameItems items items = true
  | [] => rfl
  | item :: rest => by rw [sameItems, same_self item, sameItems_self rest, Bool.and_self]

theorem sameFields_self : ∀ fields : List (String × Value), sameFields fields fields = true
  | [] => rfl
  | (name, value) :: rest => by
    rw [sameFields, beq_self_eq_true, same_self value, sameFields_self rest, Bool.and_self,
      Bool.and_self]

end

end Value

end Json

/-- Free-form facts about a graph, a function or a block, by name. -/
abbrev Metadata := Std.ExtTreeMap String Json.Value

namespace Metadata

/-- The table of a list of fields; of a repeated name the last field counts. -/
def ofFields (fields : List (String × Json.Value)) : Metadata := Std.ExtTreeMap.ofList fields

/-- Whether two tables hold the same names with equal values. -/
def same (left right : Metadata) : Bool := Json.Value.sameFields left.toList right.toList

theorem same_self (metadata : Metadata) : metadata.same metadata = true :=
  Json.Value.sameFields_self metadata.toList

/-- The table as a JSON record, in ascending order of the names. -/
def toJson (metadata : Metadata) : Json.Value := .record metadata.toList

/-- The entries of the second table are put into the first one, replacing those of the same
name. -/
def extend (metadata additions : Metadata) : Metadata :=
  additions.toList.foldl (fun table entry => table.insert entry.1 entry.2) metadata

end Metadata

end FlowGraph
