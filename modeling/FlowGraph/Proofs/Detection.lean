/-
This file says which lines are characteristic of an instruction set and which of
them decides for a graph. A line is characteristic if its small letters can be
cut into what may lead to a keyword, a keyword, and what may trail after it. No
word is shared by two instruction sets, but a line has room for a word of each.

Blocks are read in ascending order, and the first one with a characteristic line
decides. Within this block the instruction sets are tried in turn, not the lines,
so a later line may win over an earlier one. As long as the block shows a single
instruction set there is nothing to choose: then the first characteristic line of
the graph decides, in whatever order the instruction sets are tried.
-/

import FlowGraph.Architecture
import FlowGraph.Proofs.Reachable

namespace FlowGraph

namespace Architecture

variable {architecture : Architecture} {text front back keyword : List Char}

/-! ### Characteristic lines -/

/-- Whether a text may lead to a keyword: there is no barrier in it, and a letter or digit does not
come last. -/
structure Leads (front : List Char) : Prop where
  noBarrier : ∀ character ∈ front, isBarrier character = false
  ends : ∀ character ∈ front.getLast?, isWordCharacter character = false

/-- Whether a text may trail after a keyword: a letter or digit does not come first, and no line
end later. -/
structure Trails (back : List Char) : Prop where
  begins : ∀ character ∈ back.head?, isWordCharacter character = false
  oneLine : '\n' ∉ back.tail

/-- Whether a text in small letters is characteristic of an instruction set. -/
def Characteristic (architecture : Architecture) (text : List Char) : Prop :=
  ∃ front keyword back, text = front ++ keyword ++ back ∧ keyword ∈ architecture.keywords ∧
    Leads front ∧ Trails back

theorem endsWord_iff : endsWord back = true ↔ Trails back := by
  cases back with
  | nil => exact ⟨fun _ => ⟨fun _ none => (nomatch none), List.not_mem_nil⟩, fun _ => rfl⟩
  | cons character rest =>
    rw [endsWord, Bool.and_eq_true, Bool.not_eq_true', List.all_eq_true]
    constructor
    · rintro ⟨first, others⟩
      refine ⟨fun _ same => Option.some.inj same ▸ first, fun lineEnd => ?_⟩
      exact absurd (others _ lineEnd) (by decide)
    · rintro ⟨begins, oneLine⟩
      exact ⟨begins character rfl, fun next member =>
        bne_iff_ne.mpr fun same => oneLine (same ▸ member)⟩

theorem startsWithKeyword_iff : architecture.startsWithKeyword text = true ↔
    ∃ keyword back, text = keyword ++ back ∧ keyword ∈ architecture.keywords ∧ Trails back := by
  rw [startsWithKeyword, List.any_eq_true]
  constructor
  · rintro ⟨keyword, known, both⟩
    obtain ⟨starts, ends⟩ := Bool.and_eq_true_iff.mp both
    obtain ⟨back, rfl⟩ := List.isPrefixOf_iff_prefix.mp starts
    rw [List.drop_left] at ends
    exact ⟨keyword, back, rfl, known, endsWord_iff.mp ends⟩
  · rintro ⟨keyword, back, rfl, known, trails⟩
    refine ⟨keyword, known, Bool.and_eq_true_iff.mpr
      ⟨List.isPrefixOf_iff_prefix.mpr (List.prefix_append _ _), ?_⟩⟩
    rw [List.drop_left]
    exact endsWord_iff.mpr trails

theorem leads_nil : Leads [] := ⟨List.forall_mem_nil _, fun _ none => (nomatch none)⟩

theorem leads_cons_iff {character : Char} : Leads (character :: front) ↔
    isBarrier character = false ∧ (front = [] → isWordCharacter character = false) ∧
      Leads front := by
  constructor
  · rintro ⟨noBarrier, ends⟩
    rw [List.forall_mem_cons] at noBarrier
    refine ⟨noBarrier.1, ?_, noBarrier.2, fun last there => ends last ?_⟩
    · rintro rfl
      exact ends character rfl
    · rw [List.getLast?_cons, Option.mem_def.mp there]
      rfl
  · rintro ⟨first, alone, noBarrier, ends⟩
    refine ⟨List.forall_mem_cons.mpr ⟨first, noBarrier⟩, fun last there => ?_⟩
    cases front with
    | nil => exact Option.some.inj there ▸ alone rfl
    | cons next rest => exact ends last (List.getLast?_cons_cons ▸ there)

theorem keyword_ne_nil (known : keyword ∈ architecture.keywords) : keyword ≠ [] := by
  rintro rfl
  cases architecture <;> revert known <;> decide

/-- What is looked for from a place on, where a word may begin or not. -/
theorem holdsKeyword_iff {atWordStart : Bool} : architecture.holdsKeyword atWordStart text = true ↔
    ∃ front keyword back, text = front ++ keyword ++ back ∧ keyword ∈ architecture.keywords ∧
      (front = [] → atWordStart = true) ∧ Leads front ∧ Trails back := by
  induction text generalizing atWordStart with
  | nil =>
    refine ⟨fun holds => (nomatch holds), ?_⟩
    rintro ⟨front, keyword, back, whole, known, _⟩
    have parts := List.append_eq_nil_iff.mp whole.symm
    exact absurd (List.append_eq_nil_iff.mp parts.1).2 (keyword_ne_nil known)
  | cons character rest inductionHypothesis =>
    rw [holdsKeyword, Bool.or_eq_true, Bool.and_eq_true, Bool.and_eq_true, Bool.not_eq_true',
      startsWithKeyword_iff, inductionHypothesis]
    constructor
    · rintro (⟨here, keyword, back, whole, known, trails⟩ |
        ⟨free, front, keyword, back, rfl, known, start, leads, trails⟩)
      · exact ⟨[], keyword, back, whole, known, fun _ => here, leads_nil, trails⟩
      · refine ⟨character :: front, keyword, back, rfl, known, fun none => (nomatch none),
          leads_cons_iff.mpr ⟨free, fun alone => ?_, leads⟩, trails⟩
        exact (Bool.not_eq_true' _).mp (start alone)
    · rintro ⟨front, keyword, back, whole, known, start, leads, trails⟩
      cases front with
      | nil => exact Or.inl ⟨start rfl, keyword, back, whole, known, trails⟩
      | cons first later =>
        obtain ⟨rfl, rfl⟩ := List.cons.inj whole
        obtain ⟨free, alone, leads⟩ := leads_cons_iff.mp leads
        exact Or.inr ⟨free, later, keyword, back, rfl, known,
          fun none => (Bool.not_eq_true' _).mpr (alone none), leads, trails⟩

/-- Exactly the characteristic lines match. -/
theorem matchesLine_iff {line : String} : architecture.matchesLine line = true ↔
    architecture.Characteristic (Text.lowercase line.toList) := by
  rw [matchesLine, holdsKeyword_iff]
  simp only [implies_true, true_and, Characteristic]

/-! ### Trying instruction sets in turn -/

/-- The instruction set of a line: the first one that it is characteristic of. -/
def ofLine? (line : String) : Option Architecture :=
  all.find? fun architecture => architecture.matchesLine line

/-- The instruction set of a block if the instruction sets are tried in another order. -/
def ofBlockBy? (order : List Architecture) (block : Block) : Option Architecture :=
  order.find? fun architecture => block.lines.any architecture.matchesLine

/-- The first characteristic line of several blocks is the one of the first block that has one. -/
theorem findSome?_flatMap_lines (blocks : List Block) :
    (blocks.flatMap Block.lines).findSome? ofLine? =
      blocks.findSome? fun block => block.lines.findSome? ofLine? := by
  induction blocks with
  | nil => rfl
  | cons block rest inductionHypothesis =>
    rw [List.flatMap_cons, List.findSome?_append, inductionHypothesis, List.findSome?_cons]
    cases block.lines.findSome? ofLine? <;> rfl

theorem mem_all (architecture : Architecture) : architecture ∈ all := by
  cases architecture <;> decide

end Architecture

/-- Whether a block has a line that is characteristic of an instruction set. -/
def Block.Shows (block : Block) (architecture : Architecture) : Prop :=
  ∃ line ∈ block.lines, architecture.matchesLine line = true

namespace Architecture

variable {architecture : Architecture} {block : Block} {order : List Architecture}

theorem any_matchesLine_iff :
    block.lines.any architecture.matchesLine = true ↔ block.Shows architecture :=
  List.any_eq_true

/-- Whether a function chooses for each block one of the instruction sets that it shows. -/
structure Chooses (choose : Block → Option Architecture) : Prop where
  none_iff : ∀ {block}, choose block = none ↔ ∀ architecture, ¬ block.Shows architecture
  shown : ∀ {block architecture}, choose block = some architecture → block.Shows architecture

theorem ofBlockBy?_eq_some_iff : ofBlockBy? order block = some architecture ↔
    block.Shows architecture ∧ ∃ earlier later, order = earlier ++ architecture :: later ∧
      ∀ other ∈ earlier, ¬ block.Shows other := by
  simp only [ofBlockBy?, List.find?_eq_some_iff_append, any_matchesLine_iff,
    Bool.not_eq_true', ← Bool.not_eq_true]

theorem chooses_ofBlockBy? (listed : ∀ architecture, architecture ∈ order) :
    Chooses (ofBlockBy? order) where
  none_iff := by
    simp only [ofBlockBy?, List.find?_eq_none, any_matchesLine_iff, listed, forall_const]
  shown found := (ofBlockBy?_eq_some_iff.mp found).1

/-- The first characteristic line of a block chooses, too. -/
theorem chooses_ofLine? : Chooses fun block => block.lines.findSome? ofLine? where
  none_iff := by
    intro block
    simp only [List.findSome?_eq_none_iff, ofLine?, List.find?_eq_none, mem_all, forall_const,
      Block.Shows, not_exists, not_and]
    exact ⟨fun none architecture line member => none line member architecture,
      fun none line member architecture => none architecture line member⟩
  shown found := by
    obtain ⟨line, member, first⟩ := List.exists_of_findSome?_eq_some found
    exact ⟨line, member, (List.find?_eq_some_iff_append.mp first).1⟩

end Architecture

namespace Graph

open Architecture (Chooses ofBlockBy? ofLine?)

variable {graph : Graph} {block : Block} {architecture : Architecture} {order : List Architecture}
  {choose other : Block → Option Architecture}

/-! ### The block that decides -/

/-- Whether a block is the first one that shows an instruction set. -/
def Decides (graph : Graph) (block : Block) : Prop :=
  ∃ before after, graph.blockList = before ++ block :: after ∧
    (∀ earlier ∈ before, ∀ architecture, ¬ earlier.Shows architecture) ∧
    ∃ architecture, block.Shows architecture

/-- Nothing is found exactly if no block shows anything. -/
theorem findSome?_eq_none_iff (chooses : Chooses choose) :
    graph.blockList.findSome? choose = none ↔
      ∀ block ∈ graph.blockList, ∀ architecture, ¬ block.Shows architecture := by
  simp only [List.findSome?_eq_none_iff, chooses.none_iff]

/-- What is found is chosen for the block that decides. -/
theorem Decides.findSome?_eq (decides : graph.Decides block) (chooses : Chooses choose) :
    graph.blockList.findSome? choose = choose block := by
  obtain ⟨before, after, whole, silent, architecture, shown⟩ := decides
  have skipped : before.findSome? choose = none :=
    List.findSome?_eq_none_iff.mpr fun earlier member => chooses.none_iff.mpr (silent earlier member)
  rw [whole, List.findSome?_append, skipped, Option.none_or, List.findSome?_cons]
  cases chosen : choose block with
  | none => exact absurd shown (chooses.none_iff.mp chosen architecture)
  | some other => rfl

theorem findSome?_eq_some_iff (chooses : Chooses choose) :
    graph.blockList.findSome? choose = some architecture ↔
      ∃ block, graph.Decides block ∧ choose block = some architecture := by
  constructor
  · intro found
    obtain ⟨before, block, after, whole, chosen, silent⟩ := List.findSome?_eq_some_iff.mp found
    exact ⟨block, ⟨before, after, whole,
      fun earlier member => chooses.none_iff.mp (silent earlier member),
      architecture, chooses.shown chosen⟩, chosen⟩
  · rintro ⟨block, decides, chosen⟩
    rw [decides.findSome?_eq chooses, chosen]

/-! ### A single instruction set -/

/-- Whether the block that decides shows a single instruction set. -/
def Unmixed (graph : Graph) : Prop :=
  ∀ block, graph.Decides block → ∀ first second, block.Shows first → block.Shows second →
    first = second

/-- If there is nothing to choose from, it does not matter how it is chosen. -/
theorem Unmixed.findSome?_eq (unmixed : graph.Unmixed) (chooses : Chooses choose)
    (otherChooses : Chooses other) :
    graph.blockList.findSome? choose = graph.blockList.findSome? other := by
  cases found : graph.blockList.findSome? choose with
  | none => exact ((findSome?_eq_none_iff otherChooses).mpr
      ((findSome?_eq_none_iff chooses).mp found)).symm
  | some architecture =>
    obtain ⟨block, decides, chosen⟩ := (findSome?_eq_some_iff chooses).mp found
    have shown := chooses.shown chosen
    rw [decides.findSome?_eq otherChooses]
    cases otherChosen : other block with
    | none => exact absurd shown (otherChooses.none_iff.mp otherChosen architecture)
    | some second =>
      rw [unmixed block decides architecture second shown (otherChooses.shown otherChosen)]

/-- The instruction set that the lines show if the instruction sets are tried in another order. -/
def detectBy (order : List Architecture) (graph : Graph) : Option Architecture :=
  graph.blockList.findSome? (ofBlockBy? order)

theorem detectBy_all (graph : Graph) :
    graph.detectBy Architecture.all = graph.detectArchitecture := rfl

/-- The order of the instruction sets does not matter exactly if there is nothing to choose from. -/
theorem unmixed_iff : graph.Unmixed ↔
    ∀ order, order.Perm Architecture.all → graph.detectBy order = graph.detectArchitecture := by
  have listed {order : List Architecture} (same : order.Perm Architecture.all)
      (architecture : Architecture) : architecture ∈ order :=
    same.mem_iff.mpr (Architecture.mem_all architecture)
  constructor
  · intro unmixed order same
    exact unmixed.findSome?_eq (Architecture.chooses_ofBlockBy? (listed same))
      (Architecture.chooses_ofBlockBy? Architecture.mem_all)
  · intro agree block decides first second firstShown secondShown
    by_contra different
    have tried {one two : Architecture} (shown : block.Shows one) (apart : one ≠ two) :
        graph.detectArchitecture = some one := by
      have same : [one, two].Perm Architecture.all := by
        revert apart
        cases one <;> cases two <;> decide
      rw [← agree [one, two] same, detectBy,
        decides.findSome?_eq (Architecture.chooses_ofBlockBy? (listed same))]
      exact Architecture.ofBlockBy?_eq_some_iff.mpr
        ⟨shown, [], [two], rfl, fun _ member => absurd member List.not_mem_nil⟩
    have both := (tried firstShown different).symm.trans (tried secondShown (Ne.symm different))
    exact different (Option.some.inj both)

/-- How the lines of a graph show an instruction set. None is shown exactly if no line is
characteristic of any. Otherwise the first block with a characteristic line decides, for the first
instruction set that one of its lines is characteristic of. This is the one of the first
characteristic line of all if the block shows no other, and exactly then it does not matter in which
order the instruction sets are tried. -/
structure Detects (graph : Graph) : Prop where
  ascending : (graph.blockList.map Block.address).Pairwise fun first second => first < second
  none_iff : graph.detectArchitecture = none ↔
    ∀ block ∈ graph.blockList, ∀ line ∈ block.lines, ∀ architecture : Architecture,
      architecture.matchesLine line = false
  some_iff : ∀ architecture, graph.detectArchitecture = some architecture ↔
    ∃ block, graph.Decides block ∧ block.Shows architecture ∧
      ∃ earlier later, Architecture.all = earlier ++ architecture :: later ∧
        ∀ other ∈ earlier, ¬ block.Shows other
  first_line : graph.Unmixed →
    graph.detectArchitecture = (graph.blockList.flatMap Block.lines).findSome? ofLine?
  unmixed_iff : graph.Unmixed ↔
    ∀ order, order.Perm Architecture.all → graph.detectBy order = graph.detectArchitecture

theorem Laid.detects (laid : graph.Laid) : graph.Detects where
  ascending := laid.addresses_blocks ▸ graph.blocks.addresses_ascend
  none_iff := by
    rw [← detectBy_all, detectBy,
      findSome?_eq_none_iff (Architecture.chooses_ofBlockBy? Architecture.mem_all)]
    simp only [Block.Shows, not_exists, not_and, Bool.not_eq_true]
    exact forall₂_congr fun block _ => ⟨fun none line member architecture =>
      none architecture line member, fun none architecture line member =>
      none line member architecture⟩
  some_iff architecture := by
    rw [← detectBy_all, detectBy,
      findSome?_eq_some_iff (Architecture.chooses_ofBlockBy? Architecture.mem_all)]
    simp only [Architecture.ofBlockBy?_eq_some_iff]
  first_line unmixed := by
    rw [Architecture.findSome?_flatMap_lines]
    exact unmixed.findSome?_eq (Architecture.chooses_ofBlockBy? Architecture.mem_all)
      Architecture.chooses_ofLine?
  unmixed_iff := unmixed_iff

/-! ### Graphs that can come about -/

/-- The lines of every graph that can come about decide in this way, and which lines are
characteristic of an instruction set is told by their words: a line with a word of each of them is
characteristic of each. -/
theorem lines_show_architecture (reachable : Reachable graph) :
    (∀ (architecture : Architecture) (line : String), architecture.matchesLine line = true ↔
      architecture.Characteristic (Text.lowercase line.toList)) ∧ graph.Detects :=
  ⟨fun _ _ => Architecture.matchesLine_iff, reachable.sound.toLaid.detects⟩

/-- A graph with a single block of these lines. -/
def graphOfLines (lines : List String) : Graph :=
  empty.unlessFails (empty.addFunctions
    [⟨none, none, false, ∅, [{ Block.new 16 with lines }]⟩] false)

theorem reachable_graphOfLines (lines : List String) : Reachable (graphOfLines lines) := by
  refine (Reachable.withMetadata ∅).addFunctions false
    (List.forall_mem_singleton.mpr (List.forall_mem_singleton.mpr ?_))
  exact (Block.Built.new 16).fill ∅ lines [] ∅

/-- A call on a virtual machine and nothing that decides otherwise. -/
theorem call_shows_architecture :
    (graphOfLines ["nop", "invokestatic f"]).detectArchitecture = some .java ∧
      (graphOfLines ["nop", "invokestatic f"]).Detects :=
  ⟨by decide, (lines_show_architecture (reachable_graphOfLines _)).2⟩

/-- Where a block shows two instruction sets, the first characteristic line need not decide, and
there are lines that are characteristic of two. -/
theorem mixed_lines_detected :
    Reachable (graphOfLines ["invokestatic f", "mov eax, 1"]) ∧
      ((graphOfLines ["invokestatic f", "mov eax, 1"]).blockList.flatMap Block.lines).findSome?
        ofLine? = some .java ∧
      (graphOfLines ["invokestatic f", "mov eax, 1"]).detectArchitecture = some .x86 ∧
      Architecture.java.matchesLine "add invokestatic f" = true ∧
      Architecture.x86.matchesLine "add invokestatic f" = true :=
  ⟨reachable_graphOfLines _, by decide, by decide, by decide, by decide⟩

end Graph

end FlowGraph
