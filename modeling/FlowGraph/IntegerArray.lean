/-
This file defines arrays of integers that are stored at one of four widths. The width belongs
to the array: it is what a file names, and its greatest value serves as a separator in columns
of targets. Values that do not fit are stored as the nearest value that does.
-/

import FlowGraph.Json.Decoder

namespace FlowGraph

/-- The number of bits of an element. -/
inductive Width where
  | w8
  | w16
  | w32
  | w64
  deriving DecidableEq

namespace Width

/-- The number of bits. -/
def bits : Width → Nat
  | .w8 => 8
  | .w16 => 16
  | .w32 => 32
  | .w64 => 64

/-- The greatest unsigned value. -/
def unsignedMax (width : Width) : Nat := 1 <<< width.bits - 1

/-- The least signed value. -/
def signedMin (width : Width) : Int := -((1 <<< (width.bits - 1) : Nat) : Int)

/-- The greatest signed value. -/
def signedMax (width : Width) : Int := ((1 <<< (width.bits - 1) : Nat) : Int) - 1

/-- All widths, narrowest first. -/
def all : List Width := [.w8, .w16, .w32, .w64]

/-- The narrowest width whose greatest unsigned value is at least the given one. -/
def fitUnsigned (value : Nat) : Width :=
  (all.find? fun width => value ≤ width.unsignedMax).getD .w64

/-- The narrowest width with the given value in its signed range. -/
def fitSigned (value : Int) : Width :=
  (all.find? fun width => width.signedMin ≤ value ∧ value ≤ width.signedMax).getD .w64

/-- The width with a number of bits. -/
def ofBits? (bits : Nat) : Option Width := all.find? fun width => width.bits = bits

end Width

/-- The elements from `start` up to `stop`, or none if those are not positions of the list. -/
def sliceOf {Content : Type} (elements : List Content) (start stop : Nat) : List Content :=
  if start ≤ stop ∧ stop ≤ elements.length then (elements.drop start).take (stop - start) else []

/-- An array of unsigned integers. -/
structure UnsignedArray where
  width : Width
  elements : List Nat
  deriving DecidableEq

namespace UnsignedArray

/-- The array of values at a width; greater values become the greatest one. -/
def ofWidth (width : Width) (values : List Nat) : UnsignedArray :=
  ⟨width, values.map fun value => min value width.unsignedMax⟩

/-- The array of values at the narrowest width for a greatest value. -/
def fitting (greatest : Nat) (values : List Nat) : UnsignedArray :=
  ofWidth (Width.fitUnsigned greatest) values

/-- The array of values at the narrowest width that holds them. -/
def ofValues (values : List Nat) : UnsignedArray := fitting (values.max?.getD 0) values

/-- The greatest value that can be stored. -/
def maxValue (array : UnsignedArray) : Nat := array.width.unsignedMax

/-- The number of elements. -/
def size (array : UnsignedArray) : Nat := array.elements.length

/-- The element at a position. -/
def get? (array : UnsignedArray) (position : Nat) : Option Nat := array.elements[position]?

/-- The elements from one position up to another. -/
def slice (array : UnsignedArray) (start stop : Nat) : List Nat :=
  sliceOf array.elements start stop

/-- How often a value occurs. -/
def count (array : UnsignedArray) (value : Nat) : Nat := array.elements.count value

/-- The name of an element type in files. -/
def typeName (width : Width) : String := "u" ++ toString width.bits

/-- The array as JSON. -/
def toJson (array : UnsignedArray) : Json.Value :=
  .record [(typeName array.width, .list (array.elements.map .natural))]

/-- Reads an array from JSON: a record whose only name is the element type. -/
def decode : Json.Decoder UnsignedArray
  | depth, .record [(units, document)] => Json.Decoder.inside depth fun depth => do
    let name ← Json.TextUnit.text? units
    let width ← Width.all.find? fun width => typeName width = name
    let elements ←
      Json.Decoder.list (Json.Decoder.natural width.unsignedMax) depth document
    return ⟨width, elements⟩
  | _, _ => none

end UnsignedArray

/-- An array of signed integers. -/
structure SignedArray where
  width : Width
  elements : List Int
  deriving DecidableEq

namespace SignedArray

/-- The array of values at a width; values outside its range become the nearest one inside. -/
def ofWidth (width : Width) (values : List Int) : SignedArray :=
  ⟨width, values.map fun value => max width.signedMin (min value width.signedMax)⟩

/-- The array of values at the narrowest width for a greatest value. -/
def fitting (greatest : Int) (values : List Int) : SignedArray :=
  ofWidth (Width.fitSigned greatest) values

/-- The number of elements. -/
def size (array : SignedArray) : Nat := array.elements.length

/-- The element at a position. -/
def get? (array : SignedArray) (position : Nat) : Option Int := array.elements[position]?

/-- The elements from one position up to another. -/
def slice (array : SignedArray) (start stop : Nat) : List Int := sliceOf array.elements start stop

/-- The name of an element type in files. -/
def typeName (width : Width) : String := "i" ++ toString width.bits

/-- The array as JSON. -/
def toJson (array : SignedArray) : Json.Value :=
  .record [(typeName array.width, .list (array.elements.map fun value =>
    .number (.integer value)))]

/-- Reads an array from JSON: a record whose only name is the element type. -/
def decode : Json.Decoder SignedArray
  | depth, .record [(units, document)] => Json.Decoder.inside depth fun depth => do
    let name ← Json.TextUnit.text? units
    let width ← Width.all.find? fun width => typeName width = name
    let elements ←
      Json.Decoder.list (Json.Decoder.integer width.signedMin width.signedMax) depth document
    return ⟨width, elements⟩
  | _, _ => none

end SignedArray

end FlowGraph
