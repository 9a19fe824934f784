/-
This file says what the name of a normalizer on a graph is worth. Rewriting all
lines records the name, but functions and libraries that come in later do not
take it off, and as long as it stands the same normalizer leaves the lines
alone. So the record is true of exactly those graphs whose late lines, the ones
that came in since the last rewriting, happen to be outputs of the normalizer;
and a build that trusts the record puts late lines into columns as they are.
-/

import FlowGraph.Proofs.Faithful
import Mathlib.Data.List.TakeWhile

namespace FlowGraph

/-! ### Outputs of a normalizer -/

namespace Normalizer

/-- Whether a line is an output of a normalizer. -/
def Produces (normalizer : Normalizer) (line : String) : Prop :=
  ∃ raw, normalizer.normalizeLine raw = line

theorem append_safe_ne (word : String) (suffix : Nat) (short : word.length ≤ 4) :
    word ≠ "safe_" ++ toString suffix := by
  intro equal
  have lengths := congrArg String.length equal
  rw [String.length_append] at lengths
  have prefixLength : "safe_".length = 5 := by decide
  omega

/-- Normalizers of the same name are the same. -/
theorem name_injective : Function.Injective name := by
  have numbered {threshold : UInt64} (other : threshold ≠ safeThreshold) :
      name ⟨some threshold⟩ = "safe_" ++ toString threshold.toNat := if_neg other
  have usual : name ⟨some safeThreshold⟩ = "safe" := by rfl
  rintro ⟨_ | first⟩ ⟨_ | second⟩ same
  · rfl
  · by_cases atUsual : second = safeThreshold
    · rw [atUsual, usual] at same
      exact absurd same (by decide)
    · rw [numbered atUsual] at same
      exact absurd same (append_safe_ne "base" _ (by decide))
  · by_cases atUsual : first = safeThreshold
    · rw [atUsual, usual] at same
      exact absurd same (by decide)
    · rw [numbered atUsual] at same
      exact absurd same.symm (append_safe_ne "base" _ (by decide))
  · by_cases firstUsual : first = safeThreshold <;> by_cases secondUsual : second = safeThreshold
    · rw [firstUsual, secondUsual]
    · rw [firstUsual, usual, numbered secondUsual] at same
      exact absurd same (append_safe_ne "safe" _ (by decide))
    · rw [secondUsual, usual, numbered firstUsual] at same
      exact absurd same.symm (append_safe_ne "safe" _ (by decide))
    · rw [numbered firstUsual, numbered secondUsual] at same
      have digits : first.toNat = second.toNat :=
        Nat.repr_injective ((String.append_right_inj _).mp same)
      rw [UInt64.toNat_inj.mp digits]

theorem isSeparator_of_mem_operands {text word : List Char} (member : word ∈ operands text) :
    ∀ character ∈ word, isSeparator character = false := by
  fun_induction operands text with
  | case1 => cases member
  | case2 character rest separates inductionHypothesis => exact inductionHypothesis member
  | case3 character rest stays first inductionHypothesis =>
    rcases List.mem_cons.mp member with rfl | later
    · intro other otherMember
      rcases List.mem_cons.mp otherMember with rfl | inside
      · exact Bool.eq_false_iff.mpr stays
      · simpa using List.mem_takeWhile_imp inside
    · exact inductionHypothesis later

theorem mem_intersperse {Item : Type} {items : List Item} {between item : Item}
    (member : item ∈ items.intersperse between) : item = between ∨ item ∈ items := by
  induction items with
  | nil => exact Or.inr member
  | cons first rest inductionHypothesis =>
    cases rest with
    | nil => exact Or.inr member
    | cons next others =>
      rw [List.intersperse_cons_cons, List.mem_cons, List.mem_cons] at member
      rcases member with rfl | same | later
      · exact Or.inr List.mem_cons_self
      · exact Or.inl same
      · exact (inductionHypothesis later).imp_right (List.mem_cons_of_mem _)

/-- Outputs have no commas: these only stand between operands. -/
theorem Produces.no_comma {normalizer : Normalizer} {line : String}
    (produces : normalizer.Produces line) : ',' ∉ line.toList := by
  obtain ⟨raw, rfl⟩ := produces
  intro member
  rw [normalizeLine, String.toList_ofList, List.intercalate, List.mem_flatten] at member
  obtain ⟨part, partMember, inside⟩ := member
  rcases mem_intersperse partMember with rfl | word
  · exact absurd inside (by decide)
  obtain ⟨operand, operandMember, rfl⟩ := List.mem_map.mp word
  have kept : normalizer.normalizeOperand operand = operand ∨
      normalizer.normalizeOperand operand = immediateMark := by
    unfold normalizeOperand
    split
    · split
      · exact Or.inr rfl
      · exact Or.inl rfl
    · exact Or.inl rfl
  rcases kept with same | hidden
  · rw [same] at inside
    exact absurd (isSeparator_of_mem_operands operandMember _ inside) (by decide)
  · rw [hidden] at inside
    exact absurd inside (by decide)

end Normalizer

/-! ### Lines that come in -/

namespace Graph

variable {graph library next : Graph} {line : String}

/-- The lines of a graph, block by block. -/
def lines (graph : Graph) : List String := graph.blockList.flatMap Block.lines

/-- The lines of a batch of functions. -/
def linesOfBatch (drafts : List FunctionDraft) : List String :=
  (drafts.flatMap FunctionDraft.blocks).flatMap Block.lines

theorem mem_lines : line ∈ graph.lines ↔
    ∃ (address : Address) (block : Block), graph.blocks[address]? = some block ∧
      line ∈ block.lines := by
  simp only [lines, blockList, List.mem_flatMap, AddressMap.mem_contents]
  constructor
  · rintro ⟨block, ⟨address, found⟩, member⟩
    exact ⟨address, block, found, member⟩
  · rintro ⟨address, block, found, member⟩
    exact ⟨block, ⟨address, found⟩, member⟩

theorem mem_lines_foldl_connect (graph : Graph) (edges : List Edge) :
    line ∈ (edges.foldl connect graph).lines ↔ line ∈ graph.lines := by
  simp only [mem_lines, getElem?_foldl_connect, Option.map_eq_some_iff]
  constructor
  · rintro ⟨address, _, ⟨block, found, rfl⟩, member⟩
    exact ⟨address, block, found, member⟩
  · rintro ⟨address, block, found, member⟩
    exact ⟨address, _, ⟨block, found, rfl⟩, member⟩

/-- Adding functions adds their lines. -/
theorem mem_lines_addFunctions {drafts : List FunctionDraft} {override : Bool}
    (added : graph.addFunctions drafts override = .ok next) :
    line ∈ next.lines ↔ line ∈ graph.lines ∨ line ∈ linesOfBatch drafts := by
  obtain ⟨addresses, admitted, rfl⟩ := addFunctions_eq_ok_iff.mp added
  refine (mem_lines_foldl_connect (graph.placeAll addresses drafts) _).trans ?_
  rw [mem_lines, mem_lines, linesOfBatch, List.mem_flatMap]
  constructor
  · rintro ⟨address, block, found, member⟩
    rcases admitted.getElem?_blocks.mp found with ⟨adopted, _⟩ | ⟨_, old⟩
    · obtain ⟨home, draft, entry, own, ownMember, rfl⟩ := mem_adoptedBlocks.mp adopted
      exact Or.inr ⟨own, mem_blocks_of_mem_zip entry ownMember, member⟩
    · exact Or.inl ⟨address, block, old, member⟩
  · rintro (⟨address, block, found, member⟩ | ⟨own, ownMember, member⟩)
    · exact ⟨address, block, admitted.blocks_kept found, member⟩
    · obtain ⟨home, adopted⟩ := admitted.exists_adopted ownMember
      exact ⟨own.address, _, admitted.getElem?_blocks.mpr (Or.inl ⟨adopted, rfl⟩), member⟩

/-- Inserting a library adds its lines. -/
theorem mem_lines_insertLibrary (laid : library.Laid) {mapping : Std.ExtTreeMap String Address}
    {requested : Option Address} {offset : Address}
    (inserted : graph.insertLibrary library mapping requested = .ok (offset, next)) :
    line ∈ next.lines ↔ line ∈ graph.lines ∨ line ∈ library.lines := by
  obtain ⟨_, _, links, merged, _, _, _, added, _, rfl⟩ := insertLibrary_eq_ok_iff.mp inserted
  rw [mem_lines_foldl_connect, mem_lines_addFunctions added]
  refine or_congr_right ?_
  rw [linesOfBatch, lines, List.mem_flatMap, List.mem_flatMap]
  constructor
  · rintro ⟨block, moved, member⟩
    obtain ⟨old, listed, rfl⟩ := (laid.mem_blocks_relocated offset).mp moved
    exact ⟨old, listed, member⟩
  · rintro ⟨old, listed, member⟩
    exact ⟨_, (laid.mem_blocks_relocated offset).mpr ⟨old, listed, rfl⟩, member⟩

theorem lines_reline (graph : Graph) (rewrite : String → String) (name : String) :
    (graph.reline rewrite name).lines = graph.lines.map rewrite := by
  rw [lines, blockList_reline, List.flatMap_map, lines, List.map_flatMap]

theorem applied_normalize (graph : Graph) (pool : Pool) (normalizer : Normalizer)
    (store : Option TokenStore) (force : Bool) :
    (graph.normalize pool normalizer store force).applied =
      (force || graph.normalizer != some normalizer.name) := by
  unfold normalize
  dsimp only
  split <;> rfl

/-! ### Late lines -/

/-- The graphs that calls lead to, each with its late lines. These are the lines that came in
after all lines were last rewritten by a normalizer of ours; those of a library count only as
far as they were late there, if the library has the same record. A normalizer of another make
leaves nothing but late lines. Calls that fail change nothing. -/
inductive Grown : Graph → List String → Prop
  | withMetadata (metadata : Metadata) : Grown (withMetadata metadata) []
  | addFunctions {graph next : Graph} {late : List String} {drafts : List FunctionDraft}
      (override : Bool) : Grown graph late →
        (∀ draft ∈ drafts, ∀ block ∈ draft.blocks, block.Built) →
        graph.addFunctions drafts override = .ok next → Grown next (late ++ linesOfBatch drafts)
  | addEdge {graph next : Graph} {late : List String} (edge : Edge) : Grown graph late →
      graph.addEdge edge = .ok next → Grown next late
  | insertLibrary {graph library next : Graph} {late libraryLate : List String}
      (mapping : Std.ExtTreeMap String Address) (requested : Option Address) {offset : Address} :
      Grown graph late → Grown library libraryLate →
        graph.insertLibrary library mapping requested = .ok (offset, next) →
        Grown next
          (late ++ if library.normalizer = graph.normalizer then libraryLate else library.lines)
  | normalize {graph : Graph} {late : List String} (pool : Pool) (normalizer : Normalizer)
      (store : Option TokenStore) (force : Bool) : Grown graph late →
        Grown (graph.normalize pool normalizer store force).graph
          (if (graph.normalize pool normalizer store force).applied then [] else late)
  | reline {graph : Graph} {late : List String} (rewrite : String → String) (name : String) :
      Grown graph late →
        Grown (graph.reline rewrite name) (graph.reline rewrite name).lines

theorem Grown.reachable {late : List String} (grown : Grown graph late) : Reachable graph := by
  induction grown with
  | withMetadata metadata => exact .withMetadata metadata
  | addFunctions override _ built added reachable =>
    have next := reachable.addFunctions override built
    rw [added] at next
    exact next
  | addEdge edge _ added reachable =>
    have next := reachable.addEdge edge
    rw [added] at next
    exact next
  | insertLibrary mapping requested _ _ inserted reachable libraryReachable =>
    have next := reachable.insertLibrary mapping requested libraryReachable
    rw [inserted] at next
    exact next
  | normalize pool normalizer store force _ reachable =>
    exact reachable.normalize pool normalizer store force
  | reline rewrite name _ reachable => exact reachable.reline rewrite name

/-- Whether late lines are in a graph, and all its others are outputs of the normalizer that it
records. -/
structure Vouches (graph : Graph) (late : List String) : Prop where
  present : ∀ line ∈ late, line ∈ graph.lines
  others : ∀ {normalizer : Normalizer}, graph.normalizer = some normalizer.name →
    ∀ line ∈ graph.lines, line ∈ late ∨ normalizer.Produces line

namespace Vouches

variable {late libraryLate : List String}

theorem addFunctions {drafts : List FunctionDraft} {override : Bool}
    (vouches : graph.Vouches late) (added : graph.addFunctions drafts override = .ok next) :
    next.Vouches (late ++ linesOfBatch drafts) where
  present line member := (mem_lines_addFunctions added).mpr
    ((List.mem_append.mp member).imp_left (vouches.present line))
  others {normalizer} recorded line member := by
    rw [(addFunctions_records added).1] at recorded
    rw [List.mem_append, or_right_comm]
    exact ((mem_lines_addFunctions added).mp member).imp_left (vouches.others recorded line)

theorem addEdge {edge : Edge} (vouches : graph.Vouches late)
    (added : graph.addEdge edge = .ok next) : next.Vouches late := by
  obtain ⟨_, rfl⟩ := addEdge_eq_ok_iff.mp added
  have lines (line : String) : line ∈ (graph.connect edge).lines ↔ line ∈ graph.lines :=
    mem_lines_foldl_connect graph [edge]
  refine ⟨fun line member => (lines line).mpr (vouches.present line member),
    fun recorded line member => vouches.others ?_ line ((lines line).mp member)⟩
  rwa [connect_eq] at recorded

/-- Lines of a library are vouched for by its own record, if the host has the same one. -/
theorem insertLibrary (vouches : graph.Vouches late) (libraryVouches : library.Vouches libraryLate)
    (laid : library.Laid) {mapping : Std.ExtTreeMap String Address} {requested : Option Address}
    {offset : Address}
    (inserted : graph.insertLibrary library mapping requested = .ok (offset, next)) :
    next.Vouches
      (late ++ if library.normalizer = graph.normalizer then libraryLate else library.lines) := by
  have lines (line : String) : line ∈ next.lines ↔ line ∈ graph.lines ∨ line ∈ library.lines :=
    mem_lines_insertLibrary laid inserted
  refine ⟨fun line member => (lines line).mpr ((List.mem_append.mp member).imp
    (vouches.present line) fun libraryMember => ?_), fun {normalizer} recorded line member => ?_⟩
  · split at libraryMember
    · exact libraryVouches.present line libraryMember
    · exact libraryMember
  · rw [(insertLibrary_records inserted).1] at recorded
    rw [List.mem_append, or_right_comm]
    rcases (lines line).mp member with old | new
    · exact Or.inl (vouches.others recorded line old)
    · split
      · rename_i same
        rw [or_right_comm, or_assoc]
        exact Or.inr (libraryVouches.others (same.trans recorded) line new)
      · exact Or.inr new

theorem normalize (vouches : graph.Vouches late) (pool : Pool) (normalizer : Normalizer)
    (store : Option TokenStore) (force : Bool) :
    (graph.normalize pool normalizer store force).graph.Vouches
      (if (graph.normalize pool normalizer store force).applied then [] else late) := by
  obtain ⟨tokens, same⟩ := exists_graph_normalize graph pool normalizer store force
  rw [same, applied_normalize]
  split
  · refine ⟨fun _ member => (List.not_mem_nil member).elim, fun {other} recorded line member => ?_⟩
    obtain rfl := Normalizer.name_injective (Option.some.inj recorded)
    have rewritten : line ∈ graph.lines.map normalizer.normalizeLine :=
      lines_reline graph normalizer.normalizeLine normalizer.name ▸ member
    obtain ⟨raw, _, equal⟩ := List.mem_map.mp rewritten
    exact Or.inr ⟨raw, equal⟩
  · exact ⟨vouches.present, vouches.others⟩

end Vouches

/-- Every step keeps account of the late lines, so every run does. -/
theorem Grown.vouches {late : List String} (grown : Grown graph late) : graph.Vouches late := by
  induction grown with
  | withMetadata metadata =>
    exact ⟨fun _ member => (List.not_mem_nil member).elim, fun recorded => (nomatch recorded)⟩
  | addFunctions _ _ _ added vouches => exact vouches.addFunctions added
  | addEdge _ _ added vouches => exact vouches.addEdge added
  | insertLibrary _ _ _ libraryGrown inserted vouches libraryVouches =>
    exact vouches.insertLibrary libraryVouches libraryGrown.reachable.sound.toLaid inserted
  | normalize pool normalizer store force _ vouches =>
    exact vouches.normalize pool normalizer store force
  | reline rewrite name _ _ => exact ⟨fun _ member => member, fun _ _ member => Or.inl member⟩

/-- The record of a normalizer is true exactly if all late lines are its outputs. -/
theorem Vouches.produces_iff {late : List String} (vouches : graph.Vouches late)
    {normalizer : Normalizer} (recorded : graph.normalizer = some normalizer.name) :
    (∀ line ∈ graph.lines, normalizer.Produces line) ↔
      ∀ line ∈ late, normalizer.Produces line := by
  constructor
  · exact fun all line member => all line (vouches.present line member)
  · exact fun all line member => (vouches.others recorded line member).elim (all line) id

/-! ### A late function -/

/-- A function with a line as a disassembler writes it. -/
def rawFunction : FunctionDraft :=
  ⟨none, none, false, ∅, [{ Block.new 16 with lines := ["mov ebx, 2"] }]⟩

/-- The function in a graph that was normalized before. -/
def lateGraph : Graph :=
  let normalized := (empty.normalize [] .base none false).graph
  normalized.unlessFails (normalized.addFunctions [rawFunction] false)

theorem grown_lateGraph : Grown lateGraph ["mov ebx, 2"] := by
  have added : (empty.normalize [] .base none false).graph.addFunctions [rawFunction] false =
      .ok lateGraph := by rfl
  refine ((Grown.withMetadata ∅).normalize [] .base none false).addFunctions false ?_ added
  refine List.forall_mem_singleton.mpr (List.forall_mem_singleton.mpr ?_)
  exact (Block.Built.new 16).fill ∅ ["mov ebx, 2"] [] ∅

end Graph

/-! ### Builds that trust the record -/

namespace Compact

variable {pool after : Pool} {graph : Graph} {normalizer : Normalizer} {compact : Compact}

theorem lt_blockCount_of_blockLines {number : Nat} {lines : List String}
    (read : compact.blockLines pool number = .ok lines) : number < compact.blockCount := by
  obtain ⟨_, tokens, _⟩ := Outcome.bind_eq_ok_iff.mp read
  obtain ⟨_, inside, _⟩ := Outcome.bind_eq_ok_iff.mp tokens
  unfold checkBlock at inside
  split at inside
  · assumption
  · cases inside

/-- The compact graph of the graph with the late function. -/
def lateColumns : Compact := columnsOf [] Graph.lateGraph .empty false

theorem ofGraph_lateGraph :
    ofGraph [] Graph.lateGraph (some .base) none ⟨false, false⟩ = (.ok lateColumns, []) := by
  have laid := Graph.grown_lateGraph.reachable.sound.toLaid
  refine ofGraph_eq_ok_iff.mpr ⟨_, _, source_of_normalizer [] rfl,
    (ofNormalized_eq_ok_iff laid).mpr ⟨by decide, ?_, rfl, rfl⟩⟩
  exact fun keeps => (nomatch keeps)

/-- The record of a normalizer is true exactly if all late lines are outputs of it, and then only
do the columns of a build that trusts the record hold nothing but outputs. -/
theorem trusted_lines_iff {late : List String} (grown : graph.Grown late)
    (recorded : graph.normalizer = some normalizer.name) {store : Option TokenStore}
    {keepAddresses : Bool}
    (built : ofGraph pool graph (some normalizer) store ⟨keepAddresses, false⟩ =
      (.ok compact, after))
    (lives : (store.getD .empty).LivesIn pool)
    (few : (compact.tokens.contents after).size ≤ 2 ^ 32) (sized : compact.WordSized) :
    ((∀ line ∈ graph.lines, normalizer.Produces line) ↔
        ∀ line ∈ late, normalizer.Produces line) ∧
      ((∀ number lines, compact.blockLines after number = .ok lines →
          ∀ line ∈ lines, normalizer.Produces line) ↔
        ∀ line ∈ late, normalizer.Produces line) := by
  have produces := grown.vouches.produces_iff recorded
  refine ⟨produces, Iff.trans ?_ produces⟩
  obtain ⟨_, _, prepared, columns⟩ := ofGraph_eq_ok_iff.mp built
  cases (source_of_normalizer pool recorded).symm.trans prepared
  have laid := grown.reachable.sound.toLaid
  obtain ⟨_, _, rfl, rfl⟩ := (ofNormalized_eq_ok_iff laid).mp columns
  have known : (columnsOf pool graph (store.getD .empty) keepAddresses).tokens.contents
      (poolAfter pool graph (store.getD .empty)) = tokensAfter pool graph (store.getD .empty) :=
    contents_tokens_columnsOf lives
  rw [known] at few
  have read {number : Nat} {block : Block} (found : graph.blockList[number]? = some block) :=
    blockLines_columnsOf lives few sized known found
  constructor
  · intro all line member
    obtain ⟨block, listed, inside⟩ := List.mem_flatMap.mp member
    obtain ⟨number, found⟩ := List.getElem?_of_mem listed
    exact all number block.lines (read found) line inside
  · intro all number lines succeeds line member
    have inside := lt_blockCount_of_blockLines succeeds
    rw [blockCount_columnsOf] at inside
    have found := List.getElem?_eq_getElem inside
    rw [read found] at succeeds
    cases succeeds
    exact all line (List.mem_flatMap.mpr ⟨_, List.mem_of_getElem? found, member⟩)

theorem lateColumns_produced_iff :
    Graph.lateGraph.normalizer = some Normalizer.base.name ∧
      ((∀ line ∈ Graph.lateGraph.lines, Normalizer.base.Produces line) ↔
        ∀ line ∈ ["mov ebx, 2"], Normalizer.base.Produces line) ∧
      ((∀ number lines, lateColumns.blockLines [] number = .ok lines →
          ∀ line ∈ lines, Normalizer.base.Produces line) ↔
        ∀ line ∈ ["mov ebx, 2"], Normalizer.base.Produces line) :=
  ⟨rfl, trusted_lines_iff Graph.grown_lateGraph rfl ofGraph_lateGraph trivial (by decide)
    ⟨by decide, by decide, by decide, by decide⟩⟩

/-- The record of the graph with the late function is false, and the build that trusts it puts the
raw line into its columns. -/
theorem raw_line_under_record :
    Graph.Grown Graph.lateGraph ["mov ebx, 2"] ∧
      Graph.lateGraph.normalizer = some Normalizer.base.name ∧
      (¬ ∀ line ∈ Graph.lateGraph.lines, Normalizer.base.Produces line) ∧
      ofGraph [] Graph.lateGraph (some .base) none ⟨false, false⟩ = (.ok lateColumns, []) ∧
      lateColumns.blockLines [] 0 = .ok ["mov ebx, 2"] := by
  refine ⟨Graph.grown_lateGraph, rfl, fun all => ?_, ofGraph_lateGraph, by rfl⟩
  have produced : Normalizer.base.Produces "mov ebx, 2" := all _ (by decide)
  exact produced.no_comma (by decide)

end Compact

end FlowGraph
