/-
This file says which names the functions of a compact graph get. Functions are named
in the order of their addresses. Each keeps its own name unless an earlier function
has it; then it gets the least number that makes the name one that no earlier function
has, and that number is below the rank of the function, since the name itself is taken
as well. What the names of all functions are thus depends on the whole history: a
numbered name may meet a symbol that looks like one, or the name of a function without
a symbol. All the same the names and the ranks belong together one by one, so that no
function is lost.
-/

import FlowGraph.Proofs.Lossless
import FlowGraph.Proofs.Names

namespace FlowGraph.Compact

/-! ### One name -/

/-- Whether a function that wants a name gets a name, where some names are taken before: the wanted
one if it is not taken, or else with the least number that makes it free. -/
structure Gets (earlier : List String) (wanted name : String) : Prop where
  free : name ∉ earlier
  own : wanted ∉ earlier → name = wanted
  numbered : wanted ∈ earlier → ∃ suffix < earlier.length, name = numberedName wanted suffix ∧
    ∀ smaller < suffix, numberedName wanted smaller ∈ earlier

variable {taken : Std.ExtTreeMap String Nat} {earlier wanted : List String} {start : Nat}

theorem numberedName_ne (name : String) (suffix : Nat) : numberedName name suffix ≠ name := by
  intro same
  have lengths := congrArg String.length same
  rw [numberedName, String.length_append, String.length_append] at lengths
  have mark : "_".length = 1 := rfl
  omega

/-- A name and its smaller numbers are all taken, so there are more names than numbers. -/
theorem lt_length_of_taken {name : String} {suffix : Nat} (used : name ∈ earlier)
    (below : ∀ smaller < suffix, numberedName name smaller ∈ earlier) :
    suffix < earlier.length := by
  have distinct : (name :: (List.range suffix).map (numberedName name)).Nodup := by
    refine List.nodup_cons.mpr ⟨fun member => ?_,
      List.nodup_range.map (numberedName_injective name)⟩
    obtain ⟨smaller, _, same⟩ := List.mem_map.mp member
    exact numberedName_ne name smaller same
  have within : name :: (List.range suffix).map (numberedName name) ⊆ earlier := by
    refine List.cons_subset.mpr ⟨used, fun candidate member => ?_⟩
    obtain ⟨smaller, inside, rfl⟩ := List.mem_map.mp member
    exact below smaller (List.mem_range.mp inside)
  have count := (List.subperm_of_subset distinct within).length_le
  rwa [List.length_cons, List.length_map, List.length_range] at count

theorem gets_freeName (same : ∀ name, name ∈ taken ↔ name ∈ earlier) (name : String) :
    Gets earlier name (freeName taken name) where
  free := (same _).not.mp (freeName_not_mem taken name)
  own unused := freeName_of_free ((same name).not.mpr unused)
  numbered used := by
    obtain ⟨suffix, given, _, below⟩ := exists_freeName_eq ((same name).mpr used)
    have below : ∀ smaller < suffix, numberedName name smaller ∈ earlier :=
      fun smaller less => (same _).mp (below smaller less)
    exact ⟨suffix, lt_length_of_taken used below, given, below⟩

/-! ### All names -/

/-- Each of several names is what its function gets after the names before it. -/
theorem gets_assignedNames (same : ∀ name, name ∈ taken ↔ name ∈ earlier) {number : Nat}
    {own name : String} (wants : wanted[number]? = some own)
    (named : (assignedNames taken start wanted)[number]? = some name) :
    Gets (earlier ++ (assignedNames taken start wanted).take number) own name := by
  induction wanted generalizing taken earlier start number with
  | nil => cases wants
  | cons first rest inductionHypothesis =>
    rw [assignedNames] at named ⊢
    cases number with
    | zero =>
      rw [List.getElem?_cons_zero, Option.some.injEq] at wants named
      rw [List.take_zero, List.append_nil, ← wants, ← named]
      exact gets_freeName same first
    | succ number =>
      rw [List.getElem?_cons_succ] at wants named
      -- the name of the first function is taken for the others
      rw [List.take_succ_cons, List.append_cons]
      refine inductionHypothesis (fun other => ?_) wants named
      rw [Std.ExtTreeMap.mem_insert, Std.compare_eq_iff_eq, List.mem_append,
        List.mem_singleton, same, or_comm, eq_comm]

theorem gets_namesOf {functions : List Function} {number : Nat} {function : Function}
    {name : String} (found : functions[number]? = some function)
    (named : (namesOf functions)[number]? = some name) :
    Gets ((namesOf functions).take number) function.displayName name := by
  have wants : (functions.map Function.displayName)[number]? = some function.displayName := by
    rw [List.getElem?_map, found, Option.map_some]
  have none (name : String) : name ∈ (∅ : Std.ExtTreeMap String Nat) ↔ name ∈ ([] : List String) :=
    iff_of_false Std.ExtTreeMap.not_mem_empty List.not_mem_nil
  exact gets_assignedNames none wants named

/-! ### The functions of a compact graph -/

/-- Whether a name was given to a function below a number. -/
def NamedBelow (compact : Compact) (number : Nat) (name : String) : Prop :=
  ∃ lower < number, compact.functionName lower = .ok name

/-- Whether the table of a compact graph names the functions of a graph one by one, each by its
rank: with its own name, or with the least number that keeps the names apart. -/
structure NamesApart (compact : Compact) (graph : Graph) : Prop where
  count : compact.functionCount = graph.functionCount
  ranks : ∀ number : Nat, (∃ name : String, compact.functionNumbers[name]? = some number) ↔
    number < graph.functionCount
  inverse : ∀ (name : String) (number : Nat), compact.functionNumbers[name]? = some number ↔
    compact.functionName number = .ok name
  named : ∀ {address : Address} {function : Function},
    graph.functions[address]? = some function → ∃ name,
      compact.functionName (graph.functions.rank address) = .ok name ∧
        ¬ compact.NamedBelow (graph.functions.rank address) name ∧
        (¬ compact.NamedBelow (graph.functions.rank address) function.displayName →
          name = function.displayName) ∧
        (compact.NamedBelow (graph.functions.rank address) function.displayName →
          ∃ suffix < graph.functions.rank address,
            name = numberedName function.displayName suffix ∧
              ∀ smaller < suffix, compact.NamedBelow (graph.functions.rank address)
                (numberedName function.displayName smaller))

variable {graph : Graph} {compact : Compact} {number : Nat} {name : String}

theorem functionName_eq_ok_iff
    (numbered : compact.functionNumbers = numberFunctions graph.functionList) :
    compact.functionName number = .ok name ↔
      (namesOf graph.functionList)[number]? = some name := by
  have count : compact.functionCount = (namesOf graph.functionList).length := by
    rw [functionCount, numbered, size_numberFunctions, length_namesOf]
  rw [functionName, checkFunction, functionNames_eq numbered, count]
  by_cases inside : number < (namesOf graph.functionList).length
  · rw [if_pos inside, List.getElem?_eq_getElem inside, Option.some.injEq]
    show Except.ok ((some (namesOf graph.functionList)[number]).getD "") = Except.ok name ↔ _
    rw [Except.ok.injEq, Option.getD_some]
  · rw [if_neg inside, List.getElem?_eq_none (Nat.le_of_not_lt inside)]
    refine iff_of_false (fun given => ?_) fun named => ?_
    · cases given
    · cases named

theorem namedBelow_iff (numbered : compact.functionNumbers = numberFunctions graph.functionList) :
    compact.NamedBelow number name ↔ name ∈ (namesOf graph.functionList).take number := by
  rw [NamedBelow, List.mem_take_iff_getElem]
  simp only [functionName_eq_ok_iff numbered]
  constructor
  · rintro ⟨lower, less, there⟩
    obtain ⟨inside, rfl⟩ := List.getElem?_eq_some_iff.mp there
    exact ⟨lower, Nat.lt_min.mpr ⟨less, inside⟩, rfl⟩
  · rintro ⟨lower, less, rfl⟩
    obtain ⟨less, inside⟩ := Nat.lt_min.mp less
    exact ⟨lower, less, List.getElem?_eq_getElem inside⟩

theorem namesApart_of_numbered
    (numbered : compact.functionNumbers = numberFunctions graph.functionList) :
    compact.NamesApart graph := by
  have found_iff (name : String) (number : Nat) : compact.functionNumbers[name]? = some number ↔
      (namesOf graph.functionList)[number]? = some name := by
    rw [numbered, numberFunctions_eq]
    exact AddressMap.getElem?_ofList_zipIdx (nodup_namesOf _) name number
  have length : (namesOf graph.functionList).length = graph.functionCount :=
    (length_namesOf _).trans (AddressMap.length_contents _)
  refine ⟨?_, fun number => ?_, fun name number => ?_, fun {address function} there => ?_⟩
  · rw [functionCount, numbered, size_numberFunctions]
    exact AddressMap.length_contents _
  · simp only [found_iff]
    rw [← length]
    constructor
    · rintro ⟨_, there⟩
      exact (List.getElem?_eq_some_iff.mp there).1
    · exact fun inside => ⟨_, List.getElem?_eq_getElem inside⟩
  · rw [found_iff, functionName_eq_ok_iff numbered]
  · have found : graph.functionList[graph.functions.rank address]? = some function :=
      AddressMap.getElem?_contents_eq_some_iff.mpr ⟨address, there, rfl⟩
    have inside := (List.getElem?_eq_some_iff.mp found).1
    rw [← length_namesOf] at inside
    have named := List.getElem?_eq_getElem inside
    have gets := gets_namesOf found named
    refine ⟨_, (functionName_eq_ok_iff numbered).mpr named, ?_⟩
    simp only [namedBelow_iff numbered]
    refine ⟨gets.free, gets.own, fun used => ?_⟩
    obtain ⟨suffix, less, given, below⟩ := gets.numbered used
    exact ⟨suffix, Nat.lt_of_lt_of_le less (List.length_take_le _ _), given, below⟩

/-! ### Contested names -/

/-- Functions without blocks whose names meet: the second one is called what the third one would
be, and the fourth one what the fifth one is, which has no symbol. -/
def contestedDrafts : List FunctionDraft :=
  [(16, "a"), (32, "a_0"), (48, "a"), (64, "__unnamed_func__50"), (80, "")].map fun entry =>
    ⟨some entry.1, some entry.2, true, ∅, []⟩

/-- The graph of the functions with contested names. -/
def contestedGraph : Graph :=
  { Graph.empty.unlessFails (Graph.empty.addFunctions contestedDrafts false) with
    normalizer := some "base" }

theorem reachable_contestedGraph : contestedGraph.Reachable :=
  ((Graph.Reachable.withMetadata ∅).addFunctions false
    (by simp [contestedDrafts])).withRecords _ _ _

theorem ofGraph_contestedGraph : ofGraph [] contestedGraph none none ⟨false, false⟩ =
    (.ok (columnsOf [] contestedGraph .empty false), []) :=
  ofGraph_eq_ok_iff.mpr ⟨_, _, rfl, (ofNormalized_eq_ok_iff
    reachable_contestedGraph.sound.toLaid).mpr ⟨by decide, nofun, rfl, rfl⟩⟩

/-! ### All graphs -/

variable {pool after : Pool} {normalizer : Option Normalizer} {store : Option TokenStore}
  {options : CompactOptions}

/-- The functions of a graph all get names of their own in its compact form. -/
theorem functions_named_apart (reachable : graph.Reachable)
    (built : ofGraph pool graph normalizer store options = (.ok compact, after)) :
    compact.NamesApart graph := by
  obtain ⟨next, middle, prepared, built⟩ := ofGraph_eq_ok_iff.mp built
  obtain ⟨rewrite, rewrites⟩ := rewrites_of_source prepared
  have sound := (reachable_of_source prepared reachable).sound
  obtain ⟨_, _, rfl, _⟩ := (ofNormalized_eq_ok_iff sound.toLaid).mp built
  refine namesApart_of_numbered ?_
  show numberFunctions next.functionList = numberFunctions graph.functionList
  rw [Graph.functionList, Graph.functionList, rewrites.functions]

/-- The third function finds the first number taken, and so does the fifth one. -/
theorem contestedGraph_named_apart :
    (columnsOf [] contestedGraph .empty false).functionNames =
        ["a", "a_0", "a_1", "__unnamed_func__50", "__unnamed_func__50_0"] ∧
      (columnsOf [] contestedGraph .empty false).NamesApart contestedGraph :=
  ⟨(functionNames_eq rfl).trans (by decide +kernel),
    functions_named_apart reachable_contestedGraph ofGraph_contestedGraph⟩

end FlowGraph.Compact
