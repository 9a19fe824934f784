/-
This file says what a graph is after a library was inserted. Functions and
blocks are those of the host together with those of the library, moved by the
offset. So are the listed edges, and besides them there is one link for every
function of the host whose symbol is mapped. Edge lists change in one more way:
an edge that waited for its other end may find it now, in either graph, and
then stands on both ends. So blocks are compared without their edges, and what
they list is said by the edges that the graph lists.

The moved functions are placed and wired, and the links are connected
afterwards. Both is connecting edges, so that the result is the graph of the
placed functions with one list of edges connected.
-/

import FlowGraph.Proofs.Operations
import FlowGraph.Proofs.Reachable
import FlowGraph.Proofs.Rows

namespace FlowGraph

/-! ### Moved functions and blocks -/

/-- The function moved by an offset, with all its blocks. -/
def Function.shifted (function : Function) (delta : Address) : Function :=
  { function with
    address := function.address + delta
    blocks := function.blocks.map (· + delta) }

/-- The block moved by an offset, within its function that was moved as well. -/
def Block.shiftedWithin (block : Block) (delta : Address) : Block :=
  { block.shifted delta with parent := block.parent.map (· + delta) }

/-- What of a block does not depend on edges. -/
def Block.withoutEdges (block : Block) : Block := { block with edgesOut := [], edgesIn := [] }

/-! ### Links -/

/-- The address that the symbol of a function is mapped to. -/
def Function.mapped? (mapping : Std.ExtTreeMap String Address) (function : Function) :
    Option Address :=
  function.symbol?.bind fun name => mapping[name]?

/-- The edge from the only block of a function to where the library function is that its symbol
is mapped to. -/
def Function.link? (mapping : Std.ExtTreeMap String Address) (offset : Address)
    (function : Function) : Option Edge :=
  match function.mapped? mapping, function.blocks with
  | some target, [stub] => some ⟨stub, target + offset, .normal⟩
  | _, _ => none

namespace Graph

variable {graph host library next : Graph} {mapping : Std.ExtTreeMap String Address}
  {requested : Option Address} {offset : Address} {links : List Edge}

/-- Whether a function can be linked if it is mapped: there is a library function with an entry
block, and the function has a single block. -/
def Linkable (library : Graph) (mapping : Std.ExtTreeMap String Address) (function : Function) :
    Prop :=
  ∀ target, function.mapped? mapping = some target →
    (∃ called entry, library.function target = .ok called ∧
      library.entryBlock called = .ok entry) ∧ ∃ stub, function.blocks = [stub]

theorem stubEdge?_eq_ok_iff {function : Function} {link : Option Edge} :
    stubEdge? library mapping offset function = .ok link ↔
      library.Linkable mapping function ∧ function.link? mapping offset = link := by
  unfold stubEdge? Linkable Function.link? Function.mapped?
  cases function.symbol? with
  | none =>
    exact ⟨fun equal => ⟨fun _ known => (nomatch known), Except.ok.inj equal⟩,
      fun both => congrArg Except.ok both.2⟩
  | some name =>
    simp only [Option.bind_some]
    cases mapping[name]? with
    | none =>
      exact ⟨fun equal => ⟨fun _ known => (nomatch known), Except.ok.inj equal⟩,
        fun both => congrArg Except.ok both.2⟩
    | some target =>
      simp only [Option.map_some, Option.some.injEq, forall_eq', Outcome.bind_eq_ok_iff]
      constructor
      · rintro ⟨called, found, entry, begins, continued⟩
        split at continued
        · rename_i stub single
          rw [single]
          exact ⟨⟨⟨called, entry, found, begins⟩, stub, rfl⟩, Except.ok.inj continued⟩
        · cases continued
      · rintro ⟨⟨⟨called, entry, found, begins⟩, stub, single⟩, equal⟩
        refine ⟨called, found, entry, begins, ?_⟩
        rw [single] at equal ⊢
        exact congrArg Except.ok equal

/-- The links are those of all functions of the host, provided that each can be linked. -/
theorem stubEdges_eq_ok_iff :
    host.stubEdges library mapping offset = .ok links ↔
      (∀ function ∈ host.functionList, library.Linkable mapping function) ∧
        host.functionList.filterMap (Function.link? mapping offset) = links := by
  have each (results : List (Option Edge)) :
      host.functionList.mapM (stubEdge? library mapping offset) = .ok results ↔ _ :=
    Outcome.mapM_eq_ok_iff_map fun function _ link => stubEdge?_eq_ok_iff
  rw [stubEdges, Outcome.map_eq_ok_iff]
  simp only [each]
  constructor
  · rintro ⟨results, ⟨linkable, rfl⟩, rfl⟩
    rw [List.filterMap_map]
    exact ⟨linkable, rfl⟩
  · rintro ⟨linkable, rfl⟩
    refine ⟨_, ⟨linkable, rfl⟩, ?_⟩
    rw [List.filterMap_map]
    rfl

/-! ### The batch of a moved library -/

/-- A function of a library as the batch has it. -/
def movedDraft (library : Graph) (offset : Address) (function : Function) : FunctionDraft :=
  ⟨some (function.address + offset), function.name, function.isExternal, function.metadata,
    (library.blocksOf function).map fun block => block.shifted offset⟩

/-- The functions of a moved library stand under their moved addresses. -/
theorem zip_relocated {addresses : List Address}
    (admitted : host.Admits (library.relocated offset) addresses) :
    addresses.zip (library.relocated offset) = library.functionList.map fun function =>
      (function.address + offset, library.movedDraft offset function) := by
  have resolved : (library.functionList.map fun function => function.address + offset).map some =
      addresses.map some := by
    rw [← admitted.resolved, relocated, List.map_map, List.map_map]
    rfl
  rw [← List.map_injective_iff.mpr (fun _ _ => Option.some.inj) resolved, relocated, List.zip_map']
  rfl

theorem adoptedBlocks_relocated (laid : library.Laid) {addresses : List Address}
    (admitted : host.Admits (library.relocated offset) addresses) :
    (adoptedBlocks addresses (library.relocated offset)).Perm
      (library.blockList.map fun block => block.shiftedWithin offset) := by
  have whole : adoptedBlocks addresses (library.relocated offset) =
      (library.functionList.flatMap library.blocksOf).map fun block =>
        block.shiftedWithin offset := by
    rw [adoptedBlocks, zip_relocated admitted, List.flatMap_map, List.map_flatMap]
    refine List.flatMap_congr fun function listed => ?_
    rw [FunctionDraft.adopted, movedDraft, List.map_map]
    refine List.map_congr_left fun block own => ?_
    rw [Block.shiftedWithin,
      laid.parent_of_mem_blocksOf (laid.mem_functionList.mp listed) own]
    rfl
  rw [whole]
  exact laid.flatMap_blocksOf_perm.map _

/-- A block of the library is moved to one of the graph. -/
theorem exists_moved (laid : library.Laid) {addresses : List Address}
    (admitted : host.Admits (library.relocated offset) addresses) {address : Address}
    {block : Block} (found : library.blocks[address]? = some block) : ∃ other,
      (host.placeAll addresses (library.relocated offset)).blocks[address + offset]? =
        some other := by
  refine ⟨block.shiftedWithin offset, admitted.getElem?_blocks.mpr (Or.inl
    ⟨(adoptedBlocks_relocated laid admitted).mem_iff.mpr ?_, ?_⟩)⟩
  · exact List.mem_map_of_mem (AddressMap.mem_contents_of_getElem? found)
  · exact congrArg (· + offset) (laid.blockKey found)

/-- A link leads from a block of the host to a moved block, so both of its ends are in the graph
as soon as the moved functions are. -/
theorem spans_of_stubEdges (hostLaid : host.Laid) (libraryLaid : library.Laid)
    {addresses : List Address} (admitted : host.Admits (library.relocated offset) addresses)
    (linked : host.stubEdges library mapping offset = .ok links) :
    ∀ edge ∈ links, (host.placeAll addresses (library.relocated offset)).spans edge = true := by
  obtain ⟨linkable, rfl⟩ := stubEdges_eq_ok_iff.mp linked
  intro edge member
  obtain ⟨function, listed, link⟩ := List.mem_filterMap.mp member
  cases mapped : function.mapped? mapping with
  | none =>
    rw [Function.link?, mapped] at link
    cases link
  | some target =>
    obtain ⟨⟨called, entry, found, begins⟩, stub, single⟩ := linkable function listed target mapped
    rw [Function.link?, mapped, single, Option.some.injEq] at link
    obtain ⟨stubBlock, stubFound, _⟩ := hostLaid.member (hostLaid.mem_functionList.mp listed) stub
      (single ▸ List.mem_singleton_self stub)
    have home := libraryLaid.functionKey (function_eq_ok_iff.mp found)
    have entryFound := (entryBlock_eq_ok_iff.mp begins).1
    rw [home] at entryFound
    rw [← link]
    exact (spans_iff _ _).mpr
      ⟨⟨stubBlock, admitted.blocks_kept stubFound⟩, exists_moved libraryLaid admitted entryFound⟩

/-- The links of a library find both of their ends in the graph that its functions were added
to. -/
theorem spans_of_added {merged : Graph} (hostLaid : host.Laid) (libraryLaid : library.Laid)
    (linked : host.stubEdges library mapping offset = .ok links)
    (added : host.addFunctions (library.relocated offset) false = .ok merged) :
    ∀ edge ∈ links, merged.spans edge = true := by
  obtain ⟨addresses, admitted, rfl⟩ := addFunctions_eq_ok_iff.mp added
  intro edge member
  rw [wire, spans_foldl_connect]
  exact spans_of_stubEdges hostLaid libraryLaid admitted linked edge member

/-! ### The graph after an insertion -/

/-- An insertion places the moved functions and then connects the listed edges and the links. -/
theorem exists_placed_of_insertLibrary
    (inserted : host.insertLibrary library mapping requested = .ok (offset, next)) :
    ∃ addresses links placed, host.Admits (library.relocated offset) addresses ∧
      host.placeAll addresses (library.relocated offset) = placed ∧
      host.stubEdges library mapping offset = .ok links ∧
      (∀ edge ∈ links, placed.spans edge = true) ∧
      (placed.listedEdges ++ links).foldl connect placed = next := by
  obtain ⟨_, _, links, merged, _, _, linked, added, within, rfl⟩ :=
    insertLibrary_eq_ok_iff.mp inserted
  obtain ⟨addresses, admitted, rfl⟩ := addFunctions_eq_ok_iff.mp added
  refine ⟨addresses, links, _, admitted, rfl, linked, fun edge member => ?_, ?_⟩
  · rw [← within edge member, wire, spans_foldl_connect]
    rfl
  · rw [List.foldl_append]
    rfl

/-- Connecting edges changes nothing of a block but its edges. -/
theorem withoutEdges_foldl_connect (graph : Graph) (edges : List Edge) (address : Address) :
    ((edges.foldl connect graph).blocks[address]?).map Block.withoutEdges =
      (graph.blocks[address]?).map Block.withoutEdges := by
  rw [getElem?_foldl_connect, Option.map_map]
  rfl

theorem blockList_foldl_connect (graph : Graph) (edges : List Edge) :
    (edges.foldl connect graph).blockList.map Block.withoutEdges =
      graph.blockList.map Block.withoutEdges := by
  have same : ((edges.foldl connect graph).blocks.map fun _ block => block.withoutEdges) =
      graph.blocks.map fun _ block => block.withoutEdges := by
    refine Std.ExtTreeMap.ext_getElem? fun address => ?_
    rw [Std.ExtTreeMap.getElem?_map, Std.ExtTreeMap.getElem?_map]
    exact withoutEdges_foldl_connect graph edges address
  rw [blockList, ← AddressMap.contents_map, same, AddressMap.contents_map]
  rfl

/-- The blocks of a graph after an insertion, edges apart. -/
theorem blockList_insertLibrary (laid : library.Laid)
    (inserted : host.insertLibrary library mapping requested = .ok (offset, next)) :
    (next.blockList.map Block.withoutEdges).Perm
      ((host.blockList ++ library.blockList.map fun block => block.shiftedWithin offset).map
        Block.withoutEdges) := by
  obtain ⟨addresses, links, placed, admitted, rfl, _, _, rfl⟩ :=
    exists_placed_of_insertLibrary inserted
  rw [blockList_foldl_connect]
  exact (admitted.blockList_perm.trans
    ((adoptedBlocks_relocated laid admitted).append_left host.blockList)).map _

/-- A stub that was to call a function that is not there yet. -/
def callingStub : List FunctionDraft :=
  [⟨none, some "callee", true, ∅,
    [({ Block.new 8 with lines := ["call"] }).addOut 56 .functionCall]⟩]

/-- The graph of the stub, which waits for the function. -/
def stubGraph : Graph := empty.unlessFails (empty.addFunctions callingStub false)

theorem reachable_stubGraph : Reachable stubGraph := by
  refine (Reachable.withMetadata ∅).addFunctions false ?_
  refine List.forall_mem_singleton.mpr (List.forall_mem_singleton.mpr ?_)
  exact ((Block.Built.new 8).fill ∅ ["call"] [] ∅).addOut 56 .functionCall

/-- Maps the symbol of the stub to the loop. -/
def calleeMapping : Std.ExtTreeMap String Address := .ofList [("callee", (16 : Address))]

end Graph

end FlowGraph
