/-
This file says which block a lookup of an address finds. An index is built in
address order, and from then on blocks are put into it as they arrive. Each block
takes over all addresses that it holds. So the blocks of a graph have an order in
which they went into the index, or would go into it, and a lookup finds the last
block of that order that holds the address.

A copy has no index, so that its order is that of addresses again. A graph and its
copy therefore agree on an address that only one block holds. Where blocks share
an address they agree only if the last of them to arrive is also the one with the
highest address.
-/

import FlowGraph.Proofs.Reachable

namespace FlowGraph

namespace Graph

variable {graph changed : Graph} {order : List Address} {address : Address}

/-! ### Blocks that hold an address -/

/-- The addresses in a list whose blocks hold an address. -/
def holders (graph : Graph) (order : List Address) (address : Address) : List Address :=
  order.filter fun home => graph.blocks[home]?.any fun block => block.Holds address

theorem mem_holders {home : Address} : home ∈ graph.holders order address ↔
    home ∈ order ∧ ∃ block, graph.blocks[home]? = some block ∧ block.Holds address := by
  rw [holders, List.mem_filter, Option.any_eq_true]
  simp only [decide_eq_true_eq]

theorem holders_append (first second : List Address) :
    graph.holders (first ++ second) address =
      graph.holders first address ++ graph.holders second address :=
  List.filter_append ..

/-- Only the frames of blocks matter for what they hold. -/
theorem holders_congr (frame : ∀ home ∈ order,
      (changed.blocks[home]?).map Block.frame = (graph.blocks[home]?).map Block.frame) :
    changed.holders order address = graph.holders order address := by
  refine List.filter_congr fun home member => ?_
  have holdsOf (found : Option Block) : found.any (fun block => block.Holds address) =
      (found.map Block.frame).any fun frame =>
        decide (address = frame.1 ∨ address ∈ frame.2.2.1) := by
    rw [Option.any_map]
    rfl
  rw [holdsOf, holdsOf, frame home member]

/-- The holders among blocks that stand in the graph, but for what frames leave open. -/
theorem holders_map_address {blocks : List Block} (there : ∀ block ∈ blocks,
      (graph.blocks[block.address]?).map Block.frame = some block.frame) :
    graph.holders (blocks.map Block.address) address =
      (blocks.filter fun block => block.Holds address).map Block.address := by
  rw [holders, List.filter_map]
  refine congrArg (List.map Block.address) (List.filter_congr fun block member => ?_)
  obtain ⟨stored, found, same⟩ := Option.map_eq_some_iff.mp (there block member)
  obtain ⟨own, _, lines, _⟩ := Block.frame_eq_iff.mp same
  rw [Function.comp_apply, found, Option.any_some, decide_eq_decide, Block.Holds, own, lines]
  exact Iff.rfl

/-- Of blocks that are indexed in turn, the last one that holds an address has it. -/
theorem getElem?_foldl_indexBlock (index : AddressMap Address) (blocks : List Block)
    (address : Address) :
    (blocks.foldl indexBlock index)[address]? =
      ((blocks.filter fun block => block.Holds address).getLast?.map Block.address).or
        index[address]? := by
  induction blocks generalizing index with
  | nil => rfl
  | cons block rest inductionHypothesis =>
    rw [List.foldl_cons, inductionHypothesis, getElem?_indexBlock, List.filter_cons]
    by_cases here : block.Holds address
    · rw [if_pos here, if_pos (decide_eq_true here), List.getLast?_cons]
      cases (rest.filter fun block => block.Holds address).getLast? <;> rfl
    · rw [if_neg here, if_neg (by rwa [decide_eq_true_eq])]

/-! ### Changes that leave frames as they are -/

theorem addresses_of_frame (frame : ∀ address : Address,
      (changed.blocks[address]?).map Block.frame = (graph.blocks[address]?).map Block.frame) :
    changed.blocks.addresses = graph.blocks.addresses := by
  refine AddressMap.addresses_eq_of_ascending graph.blocks.addresses_ascend fun address => ?_
  simp only [AddressMap.mem_addresses, ← Option.isSome_iff_exists]
  rw [← Option.isSome_map (f := Block.frame), frame, Option.isSome_map]

theorem frame_foldl_connect (edges : List Edge) (address : Address) :
    ((edges.foldl connect graph).blocks[address]?).map Block.frame =
      (graph.blocks[address]?).map Block.frame := by
  rw [getElem?_foldl_connect, Option.map_map]
  rfl

theorem addresses_foldl_connect (edges : List Edge) :
    (edges.foldl connect graph).blocks.addresses = graph.blocks.addresses :=
  addresses_of_frame (frame_foldl_connect edges)

/-! ### The order of an index -/

/-- Whether a list is the order in which the blocks of a graph, which stand under their addresses,
went into its index, or would go into it if it was built now. -/
structure IndexedInOrder (graph : Graph) (order : List Address) : Prop where
  blockKey : ∀ {address : Address} {block : Block},
    graph.blocks[address]? = some block → block.address = address
  perm : order.Perm graph.blocks.addresses
  ascending : graph.index = none → order = graph.blocks.addresses
  last : ∀ {index : AddressMap Address}, graph.index = some index → ∀ address : Address,
    index[address]? = (graph.holders order address).getLast?

/-- Without an index the order is that of addresses. -/
theorem indexedInOrder_addresses (blockKey : ∀ {address : Address} {block : Block},
      graph.blocks[address]? = some block → block.address = address)
    (unbuilt : graph.index = none) : graph.IndexedInOrder graph.blocks.addresses :=
  ⟨blockKey, .refl _, fun _ => rfl, fun built => nomatch unbuilt.symm.trans built⟩

namespace IndexedInOrder

/-- An index that is built takes blocks in the order of their addresses. -/
theorem getElem?_indexOf (ordered : graph.IndexedInOrder order) (address : Address) :
    (indexOf graph.blockList)[address]? =
      (graph.holders graph.blocks.addresses address).getLast? := by
  have held : graph.holders graph.blocks.addresses address =
      (graph.blockList.filter fun block => block.Holds address).map Block.address := by
    rw [AddressMap.addresses_eq_map_contents ordered.blockKey]
    refine holders_map_address fun block listed => ?_
    obtain ⟨home, found⟩ := (AddressMap.mem_contents _ _).mp listed
    rw [ordered.blockKey found, found, Option.map_some]
  rw [indexOf, getElem?_foldl_indexBlock, held, List.getLast?_map, Std.ExtTreeMap.getElem?_empty,
    Option.or_none]

theorem ensureIndex (ordered : graph.IndexedInOrder order) :
    graph.ensureIndex.IndexedInOrder order := by
  unfold Graph.ensureIndex
  split
  · exact ordered
  · rename_i unbuilt
    obtain rfl := ordered.ascending unbuilt
    refine ⟨ordered.blockKey, .refl _, fun _ => rfl, fun built address => ?_⟩
    cases built
    exact ordered.getElem?_indexOf address

/-- The order of blocks does not depend on what frames leave open. -/
theorem of_frame (ordered : graph.IndexedInOrder order) (index : changed.index = graph.index)
    (frame : ∀ address : Address,
      (changed.blocks[address]?).map Block.frame = (graph.blocks[address]?).map Block.frame) :
    changed.IndexedInOrder order := by
  have addresses := addresses_of_frame frame
  refine ⟨fun found => ?_, addresses ▸ ordered.perm, fun unbuilt => ?_, fun built address => ?_⟩
  · obtain ⟨old, oldFound, same⟩ := exists_of_frame (fun address => (frame address).symm) found
    rw [← (Block.frame_eq_iff.mp same).1, ordered.blockKey oldFound]
  · rw [addresses]
    exact ordered.ascending (index ▸ unbuilt)
  · rw [holders_congr fun home _ => frame home]
    exact ordered.last (index ▸ built) address

theorem foldl_connect (ordered : graph.IndexedInOrder order) (edges : List Edge) :
    (edges.foldl connect graph).IndexedInOrder order :=
  ordered.of_frame (by rw [foldl_connect_eq]) (frame_foldl_connect edges)

theorem withRecords (ordered : graph.IndexedInOrder order) (normalizer : Option String)
    (tokens : Option TokenStore) (metadata : Metadata) :
    IndexedInOrder { graph with normalizer, tokens, metadata } order :=
  ⟨ordered.blockKey, ordered.perm, ordered.ascending, ordered.last⟩

theorem reline (ordered : graph.IndexedInOrder order) (rewrite : String → String)
    (name : String) : (graph.reline rewrite name).IndexedInOrder order := by
  refine ordered.of_frame rfl fun address => ?_
  rw [Graph.reline, Std.ExtTreeMap.getElem?_map, Option.map_map]
  refine congrArg (Option.map · graph.blocks[address]?) (funext fun block => ?_)
  simp only [Function.comp_apply, Block.frame, List.length_map]

/-- The blocks of a batch go behind those that an index already has. -/
theorem placeAll {drafts : List FunctionDraft} {addresses : List Address}
    (ordered : graph.IndexedInOrder order) (admitted : graph.Admits drafts addresses) :
    (graph.placeAll addresses drafts).IndexedInOrder
      (if graph.index.isSome then
        order ++ (drafts.flatMap FunctionDraft.blocks).map Block.address
      else (graph.placeAll addresses drafts).blocks.addresses) := by
  have blockKey {address : Address} {block : Block}
      (found : (graph.placeAll addresses drafts).blocks[address]? = some block) :
      block.address = address := by
    rcases admitted.getElem?_blocks.mp found with ⟨_, same⟩ | ⟨_, old⟩
    · exact same
    · exact ordered.blockKey old
  have later : (graph.placeAll addresses drafts).index =
      graph.index.map fun index => (adoptedBlocks addresses drafts).foldl indexBlock index := by
    rw [placeAll_eq]
  cases built : graph.index with
  | none => exact indexedInOrder_addresses blockKey (by rw [later, built, Option.map_none])
  | some index =>
    rw [built, Option.map_some] at later
    rw [Option.isSome_some, if_pos rfl]
    refine ⟨blockKey, ?_, fun unbuilt => (nomatch later.symm.trans unbuilt),
      fun there address => ?_⟩
    · have whole := admitted.blockList_perm.map Block.address
      rw [List.map_append, blockList, blockList, ← AddressMap.addresses_eq_map_contents blockKey,
        ← AddressMap.addresses_eq_map_contents ordered.blockKey,
        admitted.map_address_adoptedBlocks] at whole
      exact (ordered.perm.append_right _).trans whole.symm
    · obtain rfl := Option.some.inj (later.symm.trans there)
      have old : (graph.placeAll addresses drafts).holders order address =
          graph.holders order address := by
        refine holders_congr fun home member => ?_
        obtain ⟨block, found⟩ :=
          (AddressMap.mem_addresses _ _).mp (ordered.perm.mem_iff.mp member)
        rw [found, admitted.blocks_kept found]
      have new : (graph.placeAll addresses drafts).holders
          ((drafts.flatMap FunctionDraft.blocks).map Block.address) address =
            ((adoptedBlocks addresses drafts).filter fun block =>
              block.Holds address).map Block.address := by
        rw [← admitted.map_address_adoptedBlocks]
        refine holders_map_address fun block adopted => ?_
        rw [admitted.getElem?_blocks.mpr (Or.inl ⟨adopted, rfl⟩), Option.map_some]
      rw [getElem?_foldl_indexBlock, holders_append, old, new, List.getLast?_append,
        List.getLast?_map, ordered.last built address]

theorem addFunctions {drafts : List FunctionDraft} {override : Bool} {next : Graph}
    (ordered : graph.IndexedInOrder order)
    (added : graph.addFunctions drafts override = .ok next) :
    next.IndexedInOrder
      (if graph.index.isSome then
        order ++ (drafts.flatMap FunctionDraft.blocks).map Block.address
      else next.blocks.addresses) := by
  obtain ⟨addresses, admitted, rfl⟩ := addFunctions_eq_ok_iff.mp added
  have wired := (ordered.placeAll admitted).foldl_connect
    (graph.placeAll addresses drafts).listedEdges
  rwa [← addresses_foldl_connect] at wired

theorem insertLibrary {library next : Graph} {mapping : Std.ExtTreeMap String Address}
    {requested : Option Address} {offset : Address} (ordered : graph.IndexedInOrder order)
    (inserted : graph.insertLibrary library mapping requested = .ok (offset, next)) :
    next.IndexedInOrder
      (if graph.index.isSome then
        order ++ ((library.relocated offset).flatMap FunctionDraft.blocks).map Block.address
      else next.blocks.addresses) := by
  obtain ⟨_, _, links, merged, _, _, _, added, _, rfl⟩ := insertLibrary_eq_ok_iff.mp inserted
  have linked := (ordered.addFunctions added).foldl_connect links
  rwa [← addresses_foldl_connect] at linked

end IndexedInOrder

/-- Whether a graph has its blocks in some order. -/
def Ordered (graph : Graph) : Prop := ∃ order, graph.IndexedInOrder order

/-- Every graph that can come about has its blocks in some order. -/
theorem Reachable.ordered (reachable : Reachable graph) : graph.Ordered := by
  induction reachable with
  | withMetadata metadata =>
    exact ⟨_, indexedInOrder_addresses sound_of_empty.blockKey rfl⟩
  | ofSnapshot read =>
    exact ⟨_, (indexedInOrder_addresses sound_of_empty.blockKey rfl).addFunctions read⟩
  | ofExchange read =>
    obtain ⟨_, _, read⟩ := Outcome.bind_eq_ok_iff.mp read
    obtain ⟨⟨_, _⟩, _, read⟩ := Outcome.bind_eq_ok_iff.mp read
    dsimp only at read
    split at read
    · cases read
    · exact ⟨_, (indexedInOrder_addresses sound_of_empty.blockKey rfl).addFunctions read⟩
  | ofCompact read =>
    obtain ⟨_, _, added⟩ := Compact.exists_drafts_of_toGraph read
    exact ⟨_, (indexedInOrder_addresses sound_of_empty.blockKey rfl).addFunctions added⟩
  | addFunctions override _ _ before =>
    obtain ⟨order, ordered⟩ := before
    exact unlessFails_keeps ⟨order, ordered⟩ fun next added => ⟨_, ordered.addFunctions added⟩
  | addEdge edge _ before =>
    obtain ⟨order, ordered⟩ := before
    refine unlessFails_keeps ⟨order, ordered⟩ fun next added => ?_
    obtain ⟨_, rfl⟩ := addEdge_eq_ok_iff.mp added
    exact ⟨order, ordered.foldl_connect [edge]⟩
  | insertLibrary mapping requested _ _ before =>
    obtain ⟨order, ordered⟩ := before
    refine unlessFails_keeps ⟨order, ordered⟩ fun next result => ?_
    obtain ⟨⟨offset, merged⟩, inserted, rfl⟩ := Outcome.map_eq_ok_iff.mp result
    exact ⟨_, ordered.insertLibrary inserted⟩
  | normalize pool normalizer store force _ before =>
    obtain ⟨order, ordered⟩ := before
    obtain ⟨tokens, same⟩ := exists_graph_normalize _ pool normalizer store force
    rw [same]
    refine ⟨order, ?_⟩
    split
    · exact (ordered.reline normalizer.normalizeLine normalizer.name).withRecords _ _ _
    · exact ordered.withRecords _ _ _
  | reline rewrite name _ before => exact before.imp fun _ ordered => ordered.reline rewrite name
  | withRecords normalizer tokens metadata _ before =>
    exact before.imp fun _ ordered => ordered.withRecords normalizer tokens metadata
  | ensureIndex _ before => exact before.imp fun _ ordered => ordered.ensureIndex
  | copy _ before =>
    obtain ⟨_, ordered⟩ := before
    exact ⟨_, indexedInOrder_addresses ordered.blockKey rfl⟩

/-! ### Calls -/

/-- A call that adds blocks to a graph or makes use of its index. -/
inductive Call
  | addFunctions (drafts : List FunctionDraft) (override : Bool)
  | insertLibrary (library : Graph) (mapping : Std.ExtTreeMap String Address)
      (requested : Option Address)
  | ensureIndex
  | blockContaining (address : Address)

/-- The graph after a call. -/
def after (graph : Graph) : Call → Graph
  | .addFunctions drafts override => graph.unlessFails (graph.addFunctions drafts override)
  | .insertLibrary library mapping requested =>
    graph.unlessFails ((graph.insertLibrary library mapping requested).map Prod.snd)
  | .ensureIndex => graph.ensureIndex
  | .blockContaining address => (graph.blockContaining? address).2

/-- The addresses of the blocks that a call adds, in the order in which they arrive. -/
def arrivals (graph : Graph) : Call → List Address
  | .addFunctions drafts override =>
    match graph.addFunctions drafts override with
    | .ok _ => (drafts.flatMap FunctionDraft.blocks).map Block.address
    | .error _ => []
  | .insertLibrary library mapping requested =>
    match graph.insertLibrary library mapping requested with
    | .ok (offset, _) =>
      ((library.relocated offset).flatMap FunctionDraft.blocks).map Block.address
    | .error _ => []
  | .ensureIndex | .blockContaining _ => []

/-- The order of blocks after a call. Only an index keeps them in the order of their arrival. -/
def orderAfter (graph : Graph) (order : List Address) (call : Call) : List Address :=
  if graph.index.isSome then order ++ graph.arrivals call
  else (graph.after call).blocks.addresses

/-- The graph after calls in turn. -/
def run (graph : Graph) (calls : List Call) : Graph := calls.foldl after graph

/-- The order of blocks after calls in turn. -/
def orderAlong (graph : Graph) (order : List Address) : List Call → List Address
  | [] => order
  | call :: rest => (graph.after call).orderAlong (graph.orderAfter order call) rest

theorem blocks_ensureIndex (graph : Graph) : graph.ensureIndex.blocks = graph.blocks := by
  unfold ensureIndex
  split <;> rfl

theorem exists_index_ensureIndex (graph : Graph) :
    ∃ index, graph.ensureIndex.index = some index := by
  unfold ensureIndex
  split
  · exact ⟨_, ‹_›⟩
  · exact ⟨_, rfl⟩

/-- The block that is found if the last holder in a list has the address. -/
def lastHolder? (graph : Graph) (order : List Address) (address : Address) : Option Block :=
  (graph.holders order address).getLast?.bind fun home => graph.blocks[home]?

namespace IndexedInOrder

/-- A call keeps the blocks in the order that is known from the graph before. -/
theorem after (ordered : graph.IndexedInOrder order) (call : Call) :
    (graph.after call).IndexedInOrder (graph.orderAfter order call) := by
  have unchanged : graph.IndexedInOrder
      (if graph.index.isSome then order ++ [] else graph.blocks.addresses) := by
    cases unbuilt : graph.index with
    | none => exact indexedInOrder_addresses ordered.blockKey unbuilt
    | some index => simpa using ordered
  unfold orderAfter
  cases call with
  | addFunctions drafts override =>
    simp only [Graph.after, arrivals]
    cases added : graph.addFunctions drafts override with
    | ok next => exact ordered.addFunctions added
    | error cause => exact unchanged
  | insertLibrary library mapping requested =>
    simp only [Graph.after, arrivals]
    cases inserted : graph.insertLibrary library mapping requested with
    | ok result => exact ordered.insertLibrary inserted
    | error cause => exact unchanged
  | ensureIndex | blockContaining =>
    simp only [Graph.after, arrivals, Graph.blockContaining?, blocks_ensureIndex]
    exact unchanged.ensureIndex

/-- So do calls in turn. -/
theorem run (ordered : graph.IndexedInOrder order) (calls : List Call) :
    (graph.run calls).IndexedInOrder (graph.orderAlong order calls) := by
  induction calls generalizing graph order with
  | nil => exact ordered
  | cons call rest inductionHypothesis => exact inductionHypothesis (ordered.after call)

/-- A lookup finds the last block that holds the address. -/
theorem blockContaining? (ordered : graph.IndexedInOrder order) (address : Address) :
    (graph.blockContaining? address).1 = graph.lastHolder? order address := by
  obtain ⟨index, built⟩ := exists_index_ensureIndex graph
  have found := ordered.ensureIndex.last built address
  rw [holders, blocks_ensureIndex, ← holders] at found
  unfold Graph.blockContaining? lastHolder?
  dsimp only
  rw [built, blocks_ensureIndex, Option.bind_some, found]

/-- The order of a copy is that of addresses. -/
theorem copy (ordered : graph.IndexedInOrder order) :
    graph.copy.IndexedInOrder graph.blocks.addresses :=
  indexedInOrder_addresses ordered.blockKey rfl

/-- The block that is found in an order is the last holder in it. -/
theorem map_lastHolder? (ordered : graph.IndexedInOrder order) (other : List Address)
    (address : Address) :
    (graph.lastHolder? other address).map Block.address =
      (graph.holders other address).getLast? := by
  unfold lastHolder?
  cases last : (graph.holders other address).getLast? with
  | none => rfl
  | some home =>
    obtain ⟨_, block, found, _⟩ := mem_holders.mp (List.mem_of_getLast? last)
    rw [Option.bind_some, found, Option.map_some, ordered.blockKey found]

/-- Two orders lead to the same block exactly if the same block is the last holder in both. -/
theorem lastHolder?_eq_iff (ordered : graph.IndexedInOrder order) {first second : List Address} :
    graph.lastHolder? first address = graph.lastHolder? second address ↔
      (graph.holders first address).getLast? = (graph.holders second address).getLast? := by
  constructor
  · intro same
    rw [← ordered.map_lastHolder?, same, ordered.map_lastHolder?]
  · intro same
    rw [lastHolder?, same, lastHolder?]

/-- The block at an address is found there exactly if it is the last holder. -/
theorem lastHolder?_eq_some_iff (ordered : graph.IndexedInOrder order) {block : Block}
    (found : graph.blocks[address]? = some block) :
    graph.lastHolder? order address = some block ↔
      (graph.holders order address).getLast? = some address := by
  constructor
  · intro last
    rw [← ordered.map_lastHolder?, last, Option.map_some, ordered.blockKey found]
  · intro last
    rw [lastHolder?, last, Option.bind_some, found]

/-- If a single block holds an address, it is found in whatever order the blocks are. -/
theorem lastHolder?_of_single (ordered : graph.IndexedInOrder order) {other : List Address}
    (perm : other.Perm graph.blocks.addresses) {block : Block}
    (listed : block ∈ graph.blockList) (held : block.Holds address)
    (single : ∀ another ∈ graph.blockList, another.Holds address → another = block) :
    graph.lastHolder? other address = some block := by
  obtain ⟨home, found⟩ := (AddressMap.mem_contents _ _).mp listed
  have last : (graph.holders other address).getLast? = some home := by
    have holds : home ∈ graph.holders other address := mem_holders.mpr
      ⟨perm.mem_iff.mpr (AddressMap.mem_addresses_of_getElem? found), block, found, held⟩
    obtain ⟨last, there⟩ := Option.ne_none_iff_exists'.mp fun none =>
      List.ne_nil_of_mem holds (List.getLast?_eq_none_iff.mp none)
    obtain ⟨_, another, anotherFound, anotherHeld⟩ := mem_holders.mp (List.mem_of_getLast? there)
    obtain rfl := single another (AddressMap.mem_contents_of_getElem? anotherFound) anotherHeld
    rw [there, ← ordered.blockKey found, ordered.blockKey anotherFound]
  rw [lastHolder?, last, Option.bind_some, found]

end IndexedInOrder

/-- Whatever calls a graph goes through, its blocks are in an order that is known from these
calls, and a lookup finds the last block of that order that holds the address. On a copy it finds
the last one in the order of addresses. The two are the same if just one block holds the address,
and otherwise if the same block is last in both orders; the block that has the address as its own
is found if no other one that holds it comes later. -/
theorem lookups_follow_arrivals (reachable : Reachable graph) :
    ∃ order, graph.IndexedInOrder order ∧ ∀ (calls : List Call) (address : Address),
      let later := graph.run calls
      let arrived := graph.orderAlong order calls
      later.IndexedInOrder arrived ∧
        (later.blockContaining? address).1 = later.lastHolder? arrived address ∧
        (later.copy.blockContaining? address).1 =
          later.lastHolder? later.blocks.addresses address ∧
        ((later.blockContaining? address).1 = (later.copy.blockContaining? address).1 ↔
          (later.holders arrived address).getLast? =
            (later.holders later.blocks.addresses address).getLast?) ∧
        (∀ block, later.blocks[address]? = some block →
          ((later.blockContaining? address).1 = some block ↔
            (later.holders arrived address).getLast? = some address)) ∧
        ∀ block ∈ later.blockList, block.Holds address →
          (∀ another ∈ later.blockList, another.Holds address → another = block) →
            (later.blockContaining? address).1 = some block ∧
              (later.copy.blockContaining? address).1 = some block := by
  obtain ⟨order, before⟩ := reachable.ordered
  refine ⟨order, before, fun calls address => ?_⟩
  have ordered := before.run calls
  have lookup := ordered.blockContaining? address
  have copied : ((graph.run calls).copy.blockContaining? address).1 =
      (graph.run calls).lastHolder? (graph.run calls).blocks.addresses address :=
    ordered.copy.blockContaining? address
  dsimp only
  rw [lookup, copied]
  exact ⟨ordered, rfl, rfl, ordered.lastHolder?_eq_iff,
    fun block found => ordered.lastHolder?_eq_some_iff found, fun block listed held single =>
      ⟨ordered.lastHolder?_of_single ordered.perm listed held single,
        ordered.lastHolder?_of_single (.refl _) listed held single⟩⟩

/-- A function that consists of one block with one line. -/
def lineAt (block line : Address) : FunctionDraft :=
  ⟨none, none, false, ∅, [{ Block.new block with lines := ["ret"], lineAddresses := [line] }]⟩

/-- Two blocks with a line at the same address, the lower one of which arrives after the index was
built. -/
def sharedLine : List Call :=
  [.addFunctions [lineAt 32 40] false, .ensureIndex, .addFunctions [lineAt 16 40] false]

/-- The two blocks in the order of their arrival: the lower one is found, and on a copy the upper
one. Both lookups find the upper one under its own address. -/
theorem sharedLine_follows_arrivals :
    empty.orderAlong [] sharedLine = [32, 16] ∧
      ((empty.run sharedLine).blockContaining? 40).1 =
        (empty.run sharedLine).lastHolder? [32, 16] 40 ∧
      ((empty.run sharedLine).copy.blockContaining? 40).1 =
        (empty.run sharedLine).lastHolder? [16, 32] 40 ∧
      ((empty.run sharedLine).blockContaining? 32).1 =
        ((empty.run sharedLine).copy.blockContaining? 32).1 := by
  have reachable : Reachable empty := .withMetadata ∅
  obtain ⟨order, ordered, follows⟩ := lookups_follow_arrivals reachable
  obtain rfl : order = [] := ordered.ascending rfl
  have arrived : empty.orderAlong [] sharedLine = [32, 16] := by decide +kernel
  have addresses : (empty.run sharedLine).blocks.addresses = [16, 32] := by decide +kernel
  have shared := follows sharedLine 40
  have own := follows sharedLine 32
  dsimp only at shared own
  rw [arrived, addresses] at shared own
  have last : ((empty.run sharedLine).holders [32, 16] 32).getLast? =
      ((empty.run sharedLine).holders [16, 32] 32).getLast? := by decide +kernel
  exact ⟨arrived, shared.2.1, shared.2.2.1, own.2.2.2.1.mpr last⟩

/-- A block with a line at the address of another block, which came before it. -/
def overlaidBlock : List Call :=
  [.addFunctions [lineAt 16 16] false, .addFunctions [lineAt 32 16] false]

/-- Which of two blocks with a line at the same address is found depends on when the index was
built, and a block is not found under its own address if a later one has a line there. -/
theorem lookup_depends_on_build_time :
    ((empty.run sharedLine).blockContaining? 40).1.map Block.address = some 16 ∧
      ((empty.run sharedLine).copy.blockContaining? 40).1.map Block.address = some 32 ∧
      (empty.run overlaidBlock).blocks[(16 : Address)]?.map Block.address = some 16 ∧
      ((empty.run overlaidBlock).blockContaining? 16).1.map Block.address = some 32 := by
  decide +kernel

end Graph

end FlowGraph
