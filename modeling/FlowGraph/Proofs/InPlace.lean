/-
This file carries an insertion out on a graph that is held in memory. There a
failure ends an operation, but what was written before stays. That a failed
insertion leaves the host as it was is a matter of order then: a batch is
checked as a whole before it is written, and the links, which are added one by
one after the batch and each of which is checked again, cannot fail any more,
because the graph has both of their ends by then.
-/

import FlowGraph.Proofs.Collisions

namespace FlowGraph

/-! ### Graphs in memory -/

/-- A graph in memory, and whether anything was written to it. -/
structure Held where
  graph : Graph
  touched : Bool

/-- The operations on a graph in memory. A failure ends them and undoes nothing. -/
abbrev InPlace : Type → Type := ExceptT GraphError (StateM Held)

namespace InPlace

variable {First Value Item : Type} {held : Held}

/-- What an operation returns, or fails for, and the memory afterwards. -/
def runOn (operation : InPlace Value) (held : Held) : Except GraphError Value × Held :=
  (operation.run.run held).run

/-- Reads the graph. -/
def read : InPlace Graph := return (← get).graph

/-- Changes the graph. -/
def write (change : Graph → Graph) : InPlace Unit := modify fun held => ⟨change held.graph, true⟩

/-- Fails as a check does. -/
def check (outcome : Except GraphError Value) : InPlace Value := MonadExcept.ofExcept outcome

/-- Whether an operation ends as the outcome says, and has written nothing if it fails. -/
def Settles (operation : InPlace Value) (held : Held) : Except GraphError (Value × Graph) → Prop
  | .ok (value, next) => ∃ touched, operation.runOn held = (.ok value, ⟨next, touched⟩)
  | .error cause => operation.runOn held = (.error cause, held)

/-- A failed operation has written nothing and fails as the outcome says. -/
theorem Settles.of_error {operation : InPlace Value} {outcome : Except GraphError (Value × Graph)}
    {cause : GraphError} {after : Held} (settles : Settles operation held outcome)
    (fails : operation.runOn held = (.error cause, after)) :
    after = held ∧ outcome = .error cause := by
  cases outcome with
  | ok pair =>
    obtain ⟨touched, succeeds⟩ := settles
    cases succeeds.symm.trans fails
  | error other =>
    have failed : operation.runOn held = (.error other, held) := settles
    cases failed.symm.trans fails
    exact ⟨rfl, rfl⟩

theorem settles_pure (value : Value) (held : Held) :
    Settles (pure value) held (.ok (value, held.graph)) := ⟨held.touched, rfl⟩

theorem settles_throw (cause : GraphError) (held : Held) :
    Settles (throw cause : InPlace Value) held (.error cause) := rfl

theorem settles_write (change : Graph → Graph) (held : Held) :
    Settles (write change) held (.ok ((), change held.graph)) := ⟨true, rfl⟩

theorem Settles.read_bind {operation : Graph → InPlace Value}
    {outcome : Except GraphError (Value × Graph)}
    (settles : Settles (operation held.graph) held outcome) :
    Settles (read >>= operation) held outcome := settles

/-- A check writes nothing, so what comes after it may fail as well. -/
theorem settles_check_bind {outcome : Except GraphError First} {operation : First → InPlace Value}
    {rest : First → Except GraphError (Value × Graph)}
    (settles : ∀ value, outcome = .ok value → Settles (operation value) held (rest value)) :
    Settles (check outcome >>= operation) held (outcome >>= rest) := by
  cases outcome with
  | error cause => rfl
  | ok value => exact settles value rfl

/-- One operation after another: the second one begins with the memory that the first one left. -/
theorem runOn_bind (first : InPlace First) (operation : First → InPlace Value) (held : Held) :
    (first >>= operation).runOn held =
      match first.runOn held with
      | (.ok value, next) => (operation value).runOn next
      | (.error cause, next) => (.error cause, next) := by
  unfold runOn
  rw [ExceptT.run_bind, StateT.run_bind]
  rcases first.run.run held with ⟨_ | _, _⟩ <;> rfl

/-- What comes after an operation that has written must not fail. -/
theorem Settles.bind_sure {first : InPlace First} {operation : First → InPlace Value}
    {value : First} {middle : Graph} {result : Value × Graph}
    (settles : Settles first held (.ok (value, middle)))
    (sure : ∀ touched, Settles (operation value) ⟨middle, touched⟩ (.ok result)) :
    Settles (first >>= operation) held (.ok result) := by
  obtain ⟨touched, succeeds⟩ := settles
  obtain ⟨later, continues⟩ := sure touched
  refine ⟨later, ?_⟩
  rw [runOn_bind, succeeds]
  exact continues

/-- Nothing comes after an operation that fails. -/
theorem Settles.bind_error {first : InPlace First} {operation : First → InPlace Value}
    {cause : GraphError} (settles : Settles first held (.error cause)) :
    Settles (first >>= operation) held (.error cause) := by
  have fails : first.runOn held = (.error cause, held) := settles
  change (first >>= operation).runOn held = _
  rw [runOn_bind, fails]

/-- Operations that cannot fail as long as the graph keeps some property are carried out one
after another. -/
theorem settles_forM {step : Item → InPlace Unit} {plain : Graph → Item → Graph}
    (keeps : Graph → Prop) {items : List Item}
    (each : ∀ item ∈ items, ∀ held : Held, keeps held.graph →
      Settles (step item) held (.ok ((), plain held.graph item)) ∧ keeps (plain held.graph item))
    (start : keeps held.graph) :
    Settles (items.forM step) held (.ok ((), items.foldl plain held.graph)) := by
  induction items generalizing held with
  | nil => exact settles_pure () held
  | cons item rest inductionHypothesis =>
    obtain ⟨settles, kept⟩ := each item List.mem_cons_self held start
    refine settles.bind_sure fun touched => ?_
    exact inductionHypothesis (fun other member => each other (List.mem_cons_of_mem _ member)) kept

/-- Operations that cannot fail at all are carried out one after another. -/
theorem settles_forM_always {step : Item → InPlace Unit} (plain : Graph → Item → Graph)
    (each : ∀ item held, Settles (step item) held (.ok ((), plain held.graph item)))
    (items : List Item) (held : Held) :
    Settles (items.forM step) held (.ok ((), items.foldl plain held.graph)) :=
  settles_forM (fun _ => True) (fun item _ held _ => ⟨each item held, trivial⟩) trivial

end InPlace

namespace Graph

open InPlace

variable {host library merged : Graph} {mapping : Std.ExtTreeMap String Address}
  {offset : Address} {links : List Edge} {held : Held}

/-! ### Writing batches and edges -/

/-- Lists an edge on its source and then on its target. -/
def writeEdge (edge : Edge) : InPlace Unit := do
  write fun graph =>
    { graph with blocks := graph.blocks.modify edge.source fun block => block.listOut edge }
  write fun graph =>
    { graph with blocks := graph.blocks.modify edge.target fun block => block.listIn edge }

/-- Writes every edge that any block lists, unless an end of it is missing. -/
def wireInPlace : InPlace Unit := do
  (← read).listedEdges.forM fun edge => do
    if (← read).spans edge then writeEdge edge

/-- Puts a block into the table of blocks. -/
def insertBlock (graph : Graph) (block : Block) : Graph :=
  { graph with blocks := graph.blocks.insert block.address block }

/-- Writes a function: its blocks one by one, the index and the function itself. -/
def placeInPlace (entry : Address × FunctionDraft) : InPlace Unit := do
  (entry.2.adopted entry.1).forM fun block => write fun graph => graph.insertBlock block
  write fun graph =>
    { graph with index := graph.index.map fun index =>
        (entry.2.adopted entry.1).foldl indexBlock index }
  write fun graph =>
    { graph with functions := graph.functions.insert entry.1 (entry.2.placed entry.1) }

/-- Adds a batch of functions: checks it, and then writes function by function. -/
def addFunctionsInPlace (drafts : List FunctionDraft) (override : Bool) : InPlace Unit := do
  let addresses ← check ((← read).checkBatch override ⟨∅, ∅⟩ drafts)
  (addresses.zip drafts).forM placeInPlace
  wireInPlace

/-- Adds an edge if both of its ends are there. -/
def addEdgeInPlace (edge : Edge) : InPlace Unit := do
  let graph ← read
  if !graph.blocks.contains edge.target then throw (.blockNotFound edge.target)
  else if !graph.blocks.contains edge.source then throw (.blockNotFound edge.source)
  else writeEdge edge

/-- Merges a library into the graph and returns the offset by which it was moved. -/
def insertLibraryInPlace (library : Graph) (mapping : Std.ExtTreeMap String Address)
    (requested : Option Address) : InPlace Address := do
  let host ← read
  match library.lineSpan? with
  | none => throw .emptyLibrary
  | some (least, greatest) =>
    let offset ← check (host.placement least (greatest - least) requested)
    let links ← check (host.stubEdges library mapping offset)
    addFunctionsInPlace (library.relocated offset) false
    links.forM addEdgeInPlace
    return offset

theorem settles_writeEdge {edge : Edge} (within : held.graph.spans edge = true) :
    (writeEdge edge).Settles held (.ok ((), held.graph.connect edge)) := by
  rw [connect, if_pos within]
  exact ⟨true, rfl⟩

theorem settles_wireInPlace (held : Held) :
    wireInPlace.Settles held (.ok ((), held.graph.wire)) := by
  refine Settles.read_bind (settles_forM_always connect (fun edge held => ?_) _ held)
  refine Settles.read_bind ?_
  split
  · rename_i within
    exact settles_writeEdge within
  · rename_i outside
    rw [connect, if_neg outside]
    exact settles_pure () held

theorem foldl_insertBlock (graph : Graph) (blocks : List Block) :
    blocks.foldl insertBlock graph =
      { graph with
        blocks := blocks.foldl (fun table block => table.insert block.address block)
          graph.blocks } := by
  induction blocks generalizing graph with
  | nil => rfl
  | cons block rest inductionHypothesis => rw [List.foldl_cons, inductionHypothesis]; rfl

theorem settles_placeInPlace (entry : Address × FunctionDraft) (held : Held) :
    (placeInPlace entry).Settles held (.ok ((), held.graph.place entry.1 entry.2)) := by
  have blocks : ((entry.2.adopted entry.1).forM fun block =>
      write fun graph => graph.insertBlock block).Settles held _ :=
    settles_forM_always insertBlock
      (fun block => settles_write fun graph => graph.insertBlock block) _ held
  rw [foldl_insertBlock] at blocks
  rw [place_eq]
  exact blocks.bind_sure fun touched => ⟨true, rfl⟩

/-- A batch is added as it is to a graph that is not in memory, and checked before it is
written. -/
theorem settles_addFunctionsInPlace (drafts : List FunctionDraft) (override : Bool) (held : Held) :
    (addFunctionsInPlace drafts override).Settles held
      ((held.graph.addFunctions drafts override).map fun next => ((), next)) := by
  have steps : (held.graph.addFunctions drafts override).map (fun next => ((), next)) =
      held.graph.checkBatch override ⟨∅, ∅⟩ drafts >>= fun addresses =>
        .ok ((), (held.graph.placeAll addresses drafts).wire) := by
    rw [addFunctions]
    cases held.graph.checkBatch override ⟨∅, ∅⟩ drafts <;> rfl
  rw [steps]
  unfold addFunctionsInPlace
  refine Settles.read_bind ?_
  refine settles_check_bind fun addresses _ => ?_
  have placed := settles_forM_always (fun graph entry => graph.place entry.1 entry.2)
    settles_placeInPlace (addresses.zip drafts) held
  exact placed.bind_sure fun touched => settles_wireInPlace _

/-- An edge is added as it is to a graph that is not in memory, and both of its ends are looked
for before it is written. -/
theorem settles_addEdgeInPlace (edge : Edge) (held : Held) :
    (addEdgeInPlace edge).Settles held
      ((held.graph.addEdge edge).map fun next => ((), next)) := by
  refine Settles.read_bind ?_
  unfold addEdge
  split
  · exact settles_throw _ held
  · split
    · exact settles_throw _ held
    · rename_i target source
      refine settles_writeEdge ?_
      rw [spans, Bool.and_eq_true]
      simpa using And.intro source target

/-- Edges whose ends are there are added one after another. -/
theorem settles_forM_addEdgeInPlace {edges : List Edge} {held : Held}
    (within : ∀ edge ∈ edges, held.graph.spans edge = true) :
    (edges.forM addEdgeInPlace).Settles held (.ok ((), edges.foldl connect held.graph)) := by
  refine settles_forM (fun graph => ∀ edge ∈ edges, graph.spans edge = true)
    (fun edge member held kept => ⟨?_, fun other listed => ?_⟩) within
  · have added := settles_addEdgeInPlace edge held
    rwa [addEdge_eq_ok_iff.mpr ⟨kept edge member, rfl⟩] at added
  · rw [spans_connect]
    exact kept other listed

/-! ### Inserting a library -/

/-- A library is inserted as it is into a graph that is not in memory, and nothing is written
before it is certain that nothing fails. -/
theorem settles_insertLibraryInPlace (hostLaid : held.graph.Laid) (libraryLaid : library.Laid)
    (mapping : Std.ExtTreeMap String Address) (requested : Option Address) :
    (insertLibraryInPlace library mapping requested).Settles held
      (held.graph.insertLibrary library mapping requested) := by
  unfold insertLibraryInPlace insertLibrary
  refine Settles.read_bind ?_
  cases library.lineSpan? with
  | none => exact settles_throw _ held
  | some span =>
    obtain ⟨least, greatest⟩ := span
    refine settles_check_bind fun offset _ => settles_check_bind fun links linked => ?_
    -- the first writes are those of the batch, and only links follow
    have batch := settles_addFunctionsInPlace (library.relocated offset) false held
    cases added : held.graph.addFunctions (library.relocated offset) false with
    | error cause =>
      rw [added] at batch
      exact batch.bind_error
    | ok merged =>
      rw [added] at batch
      have within := spans_of_added hostLaid libraryLaid linked added
      rw [Outcome.ok_bind, foldlM_addEdge_eq_ok_iff.mpr ⟨within, rfl⟩]
      exact batch.bind_sure fun touched =>
        (settles_forM_addEdgeInPlace within).bind_sure fun touched => settles_pure offset _

/-- Inserting a library is all or nothing: if it fails, nothing was written to the host, and
otherwise it leads to the merged graph. The links that are added last find both of their ends, so
they cannot fail. -/
theorem insertLibraryInPlace_all_or_nothing (hostReachable : Reachable host)
    (libraryReachable : Reachable library) (mapping : Std.ExtTreeMap String Address)
    (requested : Option Address) :
    (∀ cause held, (insertLibraryInPlace library mapping requested).runOn ⟨host, false⟩ =
        (.error cause, held) →
          held = ⟨host, false⟩ ∧ host.insertLibrary library mapping requested = .error cause) ∧
      (∀ cause, host.insertLibrary library mapping requested = .error cause →
        (insertLibraryInPlace library mapping requested).runOn ⟨host, false⟩ =
          (.error cause, ⟨host, false⟩)) ∧
      (∀ offset next, host.insertLibrary library mapping requested = .ok (offset, next) →
        ∃ touched, (insertLibraryInPlace library mapping requested).runOn ⟨host, false⟩ =
          (.ok offset, ⟨next, touched⟩)) ∧
      ∀ offset links merged, host.stubEdges library mapping offset = .ok links →
        host.addFunctions (library.relocated offset) false = .ok merged →
          (∀ edge ∈ links, merged.blocks.contains edge.source = true ∧
            merged.blocks.contains edge.target = true) ∧
          ∀ touched, ∃ held,
            (links.forM addEdgeInPlace).runOn ⟨merged, touched⟩ = (.ok (), held) := by
  have hostLaid := hostReachable.sound.toLaid
  have libraryLaid := libraryReachable.sound.toLaid
  have settles : (insertLibraryInPlace library mapping requested).Settles ⟨host, false⟩
      (host.insertLibrary library mapping requested) :=
    settles_insertLibraryInPlace hostLaid libraryLaid mapping requested
  refine ⟨fun cause held fails => ?_, fun cause outcome => ?_, fun offset next outcome => ?_,
    fun offset links merged linked added => ?_⟩
  · exact settles.of_error fails
  · rwa [outcome] at settles
  · rwa [outcome] at settles
  · have within := spans_of_added hostLaid libraryLaid linked added
    refine ⟨fun edge member => ?_, fun touched => ?_⟩
    · rw [← Bool.and_eq_true]
      exact within edge member
    · obtain ⟨later, succeeds⟩ : (links.forM addEdgeInPlace).Settles ⟨merged, touched⟩ _ :=
        settles_forM_addEdgeInPlace within
      exact ⟨_, succeeds⟩

/-- The small block meets the stray one only when its batch is checked, and nothing was written by
then. The loop is inserted behind the stub. -/
theorem strayHost_stays_untouched :
    (insertLibraryInPlace smallLibrary ∅ (some 24)).runOn ⟨strayHost, false⟩ =
        (.error (.duplicateFunction 64), ⟨strayHost, false⟩) ∧
      ∃ next touched, (insertLibraryInPlace (loopGraph none) calleeMapping none).runOn
        ⟨stubGraph, false⟩ = (.ok 24, ⟨next, touched⟩) := by
  have meets : (strayHost.insertLibrary smallLibrary ∅ (some 24)).map Prod.fst =
      .error (.duplicateFunction 64) := by decide +kernel
  have succeeds : (stubGraph.insertLibrary (loopGraph none) calleeMapping none).map Prod.fst =
      .ok 24 := by decide +kernel
  obtain ⟨⟨offset, next⟩, inserted, rfl⟩ := Outcome.map_eq_ok_iff.mp succeeds
  refine ⟨?_, next, ?_⟩
  · exact (insertLibraryInPlace_all_or_nothing reachable_strayHost reachable_smallLibrary ∅
      (some 24)).2.1 _ (Outcome.map_eq_error_iff.mp meets)
  · exact (insertLibraryInPlace_all_or_nothing reachable_stubGraph (reachable_loopGraph none)
      calleeMapping none).2.2.1 _ _ inserted

/-- Two edges of which only the first one has its ends in the graph: the first one stays, so what
an insertion relies on is not true of every list of edges. -/
example : (([⟨8, 8, .normal⟩, ⟨8, 9, .normal⟩] : List Edge).forM addEdgeInPlace).runOn
    ⟨stubGraph, false⟩ |>.2.touched = true := by decide +kernel

end Graph

end FlowGraph
