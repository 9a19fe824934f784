/-
This file writes compact graphs as JSON and reads them back. Of a token store only the tokens
are written, and a store that is read is never shared.
-/

import FlowGraph.Compact

namespace FlowGraph.Compact

/-- The names of the fields in the order in which they are written. -/
def fieldNames : List String :=
  ["normalizer", "tokens", "function_name_to_idx", "asm_lines", "block_asm_idx",
    "block_func_idx", "block_flags", "block_memory_addresses", "asm_memory_addresses",
    "block_asm_mem_addr_idx", "graph_c", "graph_r", "function_metadata", "block_metadata",
    "metadata"]

/-- The compact graph as JSON. -/
def toJson (compact : Compact) (pool : Pool) : Json.Value :=
  .record (fieldNames.zip [
    .optional .text compact.normalizer,
    (compact.tokens.contents pool).toJson,
    .record (compact.functionNumbers.toList.map fun entry => (entry.1, .natural entry.2)),
    compact.lines.toJson,
    compact.lineOffsets.toJson,
    compact.functionOfBlock.toJson,
    .list (compact.flags.map fun flags => .natural flags.bits.toNat),
    .optional SignedArray.toJson compact.blockAddresses,
    .optional SignedArray.toJson compact.lineAddresses,
    .optional UnsignedArray.toJson compact.lineAddressOffsets,
    compact.targets.toJson,
    compact.targetOffsets.toJson,
    compact.functionMetadata.toJson,
    compact.blockMetadata.toJson,
    compact.metadata.toJson])

/-- The compact graph as the text of a file. -/
def toText (compact : Compact) (pool : Pool) : String := (compact.toJson pool).toText

/-- Reads a compact graph from JSON. -/
def decode : Json.Decoder Compact :=
  Json.Decoder.known fieldNames fun record => do
    let normalizer ← record.optional "normalizer" Json.Decoder.text
    let tokens ← record.required "tokens" Dictionary.decode
    let functionNumbers ← record.required "function_name_to_idx"
      (Json.Decoder.fields (Json.Decoder.natural (UInt64.size - 1)))
    let lines ← record.required "asm_lines" UnsignedArray.decode
    let lineOffsets ← record.required "block_asm_idx" UnsignedArray.decode
    let functionOfBlock ← record.required "block_func_idx" UnsignedArray.decode
    let flags ← record.required "block_flags" (Json.Decoder.list (Json.Decoder.natural 255))
    let blockAddresses ← record.optional "block_memory_addresses" SignedArray.decode
    let lineAddresses ← record.optional "asm_memory_addresses" SignedArray.decode
    let lineAddressOffsets ← record.optional "block_asm_mem_addr_idx" UnsignedArray.decode
    let targets ← record.required "graph_c" UnsignedArray.decode
    let targetOffsets ← record.required "graph_r" UnsignedArray.decode
    let functionMetadata ← record.required "function_metadata" RunLength.ofJson
    let blockMetadata ← record.required "block_metadata" RunLength.ofJson
    let metadata ← record.required "metadata" Json.Decoder.metadata
    return { normalizer, tokens := .own tokens,
             functionNumbers := Std.ExtTreeMap.ofList functionNumbers, lines, lineOffsets,
             functionOfBlock, flags := flags.map fun bits => ⟨UInt8.ofNat bits⟩, blockAddresses,
             lineAddresses, lineAddressOffsets, targets, targetOffsets, functionMetadata,
             blockMetadata, metadata }

/-- Reads a compact graph from the text of a file. -/
def ofText (text : String) : Except CompactError Compact :=
  match decode.read text with
  | some compact => .ok compact
  | none => .error (.graph .unreadableText)

end FlowGraph.Compact
