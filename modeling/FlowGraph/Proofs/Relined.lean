/-
This file proves that a compact graph can be expanded as long as its tokens are known, however
many tokens there are. Beyond the greatest token number all lines share one number and come
back as one and the same line; so what is expanded is the graph with these lines, and that
graph has few enough lines to be expanded faithfully.
-/

import FlowGraph.Proofs.Queries
import FlowGraph.Proofs.Restored
import FlowGraph.Proofs.TokenTables

namespace FlowGraph

/-! ### Few lines -/

namespace Dictionary

/-- Only so many tokens can be read back as there are token numbers. -/
theorem readBack_mem_take {dictionary : Dictionary} {token : String}
    (member : token ∈ dictionary.tokens) :
    dictionary.readBack token ∈ dictionary.tokens.take (2 ^ 32) := by
  have there := token?_of_grown (List.prefix_refl dictionary.tokens) member
  have low : numberAt (dictionary.tokens.idxOf token) < 2 ^ 32 :=
    Nat.lt_of_le_of_lt (numberAt_le_greatestNumber _) (by decide)
  refine List.mem_of_getElem? (i := numberAt (dictionary.tokens.idxOf token)) ?_
  rw [List.getElem?_take_of_lt low]
  exact there

theorem size_extended_map_readBack {dictionary : Dictionary} {tokens : List String}
    (known : ∀ token ∈ tokens, token ∈ dictionary.tokens) :
    (empty.extended (tokens.map dictionary.readBack)).size ≤ 2 ^ 32 := by
  have inside : (empty.extended (tokens.map dictionary.readBack)).tokens ⊆
      dictionary.tokens.take (2 ^ 32) := by
    intro line member
    have listed : empty.extended (tokens.map dictionary.readBack) =
        ofList (tokens.map dictionary.readBack) := rfl
    rw [listed, tokens_ofList, List.mem_eraseDups] at member
    obtain ⟨token, given, rfl⟩ := List.mem_map.mp member
    exact readBack_mem_take (known token given)
  have shorter := (empty.extended (tokens.map dictionary.readBack)).nodup.length_le_of_subset inside
  exact Nat.le_trans shorter (List.length_take_le _ _)

end Dictionary

/-! ### Other lines -/

/-- The graph with other lines, one for each. -/
def Graph.withLines (graph : Graph) (rewrite : String → String) : Graph :=
  { graph with
    blocks := graph.blocks.map fun _ block => { block with lines := block.lines.map rewrite } }

theorem Graph.rewrites_withLines (graph : Graph) (rewrite : String → String) :
    graph.Rewrites rewrite (graph.withLines rewrite) := ⟨rfl, rfl, rfl⟩

theorem Graph.Sound.withLines {graph : Graph} (sound : graph.Sound) (rewrite : String → String) :
    (graph.withLines rewrite).Sound :=
  (sound.reline rewrite "").withRecords graph.normalizer graph.tokens graph.metadata

namespace Graph.Rewrites

variable {rewrite : String → String} {graph next : Graph}

/-- Rewriting lines does not change what else a block contributes to the columns. -/
theorem plainRow (rewrites : Rewrites rewrite graph next) (keepAddresses : Bool) (block : Block) :
    next.plainRow keepAddresses { block with lines := block.lines.map rewrite } =
      graph.plainRow keepAddresses block := by
  have jumps : next.jumpsAway { block with lines := block.lines.map rewrite } =
      graph.jumpsAway block := by
    unfold Graph.jumpsAway
    congr 1
    funext edge
    rw [rewrites.getElem?_blocks]
    cases graph.blocks[edge.target]? <;> rfl
  have external : BlockFlags.inExternal next { block with lines := block.lines.map rewrite } =
      BlockFlags.inExternal graph block := by
    rw [BlockFlags.inExternal, rewrites.functions, BlockFlags.inExternal]
  have lines : Block.signedLines { block with lines := block.lines.map rewrite } =
      block.signedLines := by
    rw [Block.signedLines, List.length_map]
    rfl
  have calls : next.callRanks { block with lines := block.lines.map rewrite } =
      graph.callRanks block := by
    rw [Graph.callRanks, rewrites.rank, Graph.callRanks]
  have normals : next.normalRanks { block with lines := block.lines.map rewrite } =
      graph.normalRanks block := by
    rw [Graph.normalRanks, rewrites.rank, Graph.normalRanks]
  have parent : next.parentRank { block with lines := block.lines.map rewrite } =
      graph.parentRank block := by
    rw [Graph.parentRank, rewrites.functions, Graph.parentRank]
  unfold Graph.plainRow BlockFlags.ofBlock
  rw [jumps, external, lines, calls, normals, parent, List.length_map]
  rfl

theorem lineCount (rewrites : Rewrites rewrite graph next) :
    (next.blockList.flatMap Block.lines).length = (graph.blockList.flatMap Block.lines).length := by
  rw [rewrites.blockList, List.flatMap_map, List.length_flatMap, List.length_flatMap]
  simp only [List.length_map]

/-- Rewriting lines only changes the tokens and the column of their numbers. -/
theorem columnsOf_eq (rewrites : Rewrites rewrite graph next)
    (normalizer : next.normalizer = graph.normalizer) (pool other : Pool)
    (store otherStore : TokenStore) (keepAddresses : Bool) :
    Compact.columnsOf other next otherStore keepAddresses =
      { Compact.columnsOf pool graph store keepAddresses with
        tokens := (Compact.columnsOf other next otherStore keepAddresses).tokens
        lines := (Compact.columnsOf other next otherStore keepAddresses).lines } := by
  have rows : next.blockList.map (next.plainRow keepAddresses) =
      graph.blockList.map (graph.plainRow keepAddresses) := by
    rw [rewrites.blockList, List.map_map]
    exact List.map_congr_left fun block _ => rewrites.plainRow keepAddresses block
  have functions : next.functionList = graph.functionList := by
    rw [Graph.functionList, rewrites.functions, Graph.functionList]
  have functionCount : next.functionCount = graph.functionCount := by
    rw [Graph.functionCount, rewrites.functions, Graph.functionCount]
  have numbers (pool : Pool) (store : TokenStore) (lines : List String) :
      (store.register pool lines).numbers.length = lines.length := by
    rw [TokenStore.numbers_register, Dictionary.numbersOf, List.length_map]
  unfold Compact.columnsOf Compact.ofRows
  simp only [rows, functions, functionCount, numbers, rewrites.lineCount, normalizer,
    rewrites.metadata]

end Graph.Rewrites

namespace Compact

/-! ### Expanding -/

/-- Expanding only depends on tokens and their numbers through the lines of the blocks. -/
theorem toGraph_congr {left right : Compact} {leftPool rightPool : Pool}
    (same : left = { right with tokens := left.tokens, lines := left.lines })
    (alike : ∀ number, left.blockLines leftPool number = right.blockLines rightPool number) :
    left.toGraph leftPool = right.toGraph rightPool := by
  obtain ⟨tokens, lines, rfl⟩ : ∃ tokens lines, left = { right with tokens, lines } :=
    ⟨_, _, same⟩
  have blocks (addresses : List Address) (number : Nat) (metadata : Metadata) :
      rebuiltBlock { right with tokens, lines } leftPool addresses number metadata =
        right.rebuiltBlock rightPool addresses number metadata := by
    unfold rebuiltBlock
    rw [alike]
    rfl
  have steps (addresses : List Address) :
      rebuildInto { right with tokens, lines } leftPool addresses =
        right.rebuildInto rightPool addresses := by
    funext drafts entry
    unfold rebuildInto
    dsimp only
    rw [blocks]
    rfl
  unfold toGraph
  simp only [steps]
  rfl

variable {pool current : Pool} {graph : Graph} {store : TokenStore} {keepAddresses : Bool}

/-- The graph with the lines that the numbers of its lines stand for. -/
def rereadGraph (pool : Pool) (graph : Graph) (store : TokenStore) : Graph :=
  graph.withLines (tokensAfter pool graph store).readBack

theorem rewrites_rereadGraph (pool : Pool) (graph : Graph) (store : TokenStore) :
    graph.Rewrites (tokensAfter pool graph store).readBack (rereadGraph pool graph store) :=
  graph.rewrites_withLines _

/-- The graph with the lines that are read back can be expanded faithfully. -/
theorem fits_rereadGraph (sound : graph.Sound) (closed : graph.danglingEdges = [])
    (signed : keepAddresses = true → ∀ block ∈ graph.blockList, block.Signed)
    (sized : (columnsOf pool graph store keepAddresses).WordSized) :
    Fits [] (rereadGraph pool graph store) .empty keepAddresses := by
  have rewrites := rewrites_rereadGraph pool graph store
  refine ⟨(sound.withLines _).toLaid, rewrites.danglingEdges.trans closed,
    fun keeps => rewrites.signed (signed keeps), trivial, ?_, ?_⟩
  · have lines : (rereadGraph pool graph store).blockList.flatMap Block.lines =
        (graph.blockList.flatMap Block.lines).map (tokensAfter pool graph store).readBack := by
      rw [rewrites.blockList, List.flatMap_map, List.map_flatMap]
    rw [tokensAfter, lines]
    exact Dictionary.size_extended_map_readBack fun token member =>
      Dictionary.mem_tokens_extended member
  · have lineCount : (columnsOf [] (rereadGraph pool graph store) .empty
        keepAddresses).lines.size < 2 ^ 64 := by
      have word := sized.lines
      rwa [size_lines_columnsOf, ← rewrites.lineCount, ← size_lines_columnsOf] at word
    rw [rewrites.columnsOf_eq rfl pool [] store .empty keepAddresses]
    exact ⟨sized.functions, sized.blocks, lineCount, sized.targets⟩

/-- Both graphs have the same lines in their columns. -/
theorem blockLines_rereadGraph
    (fits : Fits [] (rereadGraph pool graph store) .empty keepAddresses)
    (lives : store.LivesIn pool) (sized : (columnsOf pool graph store keepAddresses).WordSized)
    (grown : (tokensAfter pool graph store).tokens <+:
      ((columnsOf pool graph store keepAddresses).tokens.contents current).tokens)
    (number : Nat) :
    (columnsOf [] (rereadGraph pool graph store) .empty keepAddresses).blockLines [] number =
      (columnsOf pool graph store keepAddresses).blockLines current number := by
  have rewrites := rewrites_rereadGraph pool graph store
  cases found : graph.blockList[number]? with
  | some block =>
    have nextFound : (rereadGraph pool graph store).blockList[number]? =
        some { block with lines := block.lines.map (tokensAfter pool graph store).readBack } := by
      rw [rewrites.blockList, List.getElem?_map, found, Option.map_some]
    rw [blockLines_of_grown lives sized grown found]
    exact blockLines_columnsOf fits.lives fits.few fits.sized
      (contents_tokens_own [] [] (rereadGraph pool graph store) keepAddresses) nextFound
  | none =>
    have outside := List.getElem?_eq_none_iff.mp found
    have counts : (rereadGraph pool graph store).blockList.length = graph.blockList.length := by
      rw [rewrites.blockList, List.length_map]
    have nextOutside : (rereadGraph pool graph store).blockList.length ≤ number := counts ▸ outside
    rw [blockLines_of_le _ (blockCount_columnsOf ▸ nextOutside),
      blockLines_of_le _ (blockCount_columnsOf ▸ outside), blockCount_columnsOf,
      blockCount_columnsOf, counts]

/-- A compact graph can be expanded as long as its tokens are known. -/
theorem exists_toGraph (sound : graph.Sound) (closed : graph.danglingEdges = [])
    (signed : keepAddresses = true → ∀ block ∈ graph.blockList, block.Signed)
    (lives : store.LivesIn pool)
    (sized : (columnsOf pool graph store keepAddresses).MemorySized)
    (grown : (tokensAfter pool graph store).tokens <+:
      ((columnsOf pool graph store keepAddresses).tokens.contents current).tokens) :
    ∃ expanded, (columnsOf pool graph store keepAddresses).toGraph current = .ok expanded := by
  have fits := fits_rereadGraph sound closed signed sized.toWordSized
  have same := (rewrites_rereadGraph pool graph store).columnsOf_eq rfl pool [] store .empty
    keepAddresses
  have held : (columnsOf [] (rereadGraph pool graph store) .empty keepAddresses).MemorySized := by
    refine ⟨fits.sized, ?_, ?_⟩ <;> rw [same]
    · exact sized.functionDrafts
    · exact sized.blockTables
  have alike := toGraph_congr same (blockLines_rereadGraph fits lives sized.toWordSized grown)
  exact ⟨_, alike.symm.trans (toGraph_restored fits held [])⟩

end Compact

end FlowGraph
