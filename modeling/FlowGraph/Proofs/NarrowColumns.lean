/-
This file says which columns of a compact graph are as narrow as what they hold
allows. A column is fitted to a bound. Where the bound is itself an element, as
it is for offsets and for kept addresses, no narrower width would do. Lines and
functions are numbered from nothing, but their columns are fitted to how many
there are, which is at least one more than the greatest number; so such a column
is too wide exactly if some width holds all its numbers and falls short of the
count, as it happens when there are 256 tokens.
-/

import FlowGraph.Proofs.Recipients
import FlowGraph.Proofs.Relined

namespace FlowGraph

/-! ### Narrowest widths -/

namespace Width

/-- Whether a width is the narrowest with a property. -/
structure Narrowest (suits : Width → Prop) (width : Width) : Prop where
  fits : suits width
  least : ∀ other, suits other → width.bits ≤ other.bits

theorem mem_all (width : Width) : width ∈ all := by
  cases width <;> decide

/-- The first width in the list that suits is the narrowest one. -/
theorem bits_le_of_find? {suits : Width → Bool} {width other : Width}
    (found : all.find? suits = some width) (suited : suits other = true) :
    width.bits ≤ other.bits := by
  obtain ⟨_, before, after, split, missed⟩ := List.find?_eq_some_iff_append.mp found
  have ascending : all.Pairwise fun first second => first.bits ≤ second.bits := by decide
  have member := mem_all other
  rw [split] at ascending member
  rcases List.mem_append.mp member with early | late
  · have unsuited := missed other early
    rw [suited] at unsuited
    cases unsuited
  · rcases List.mem_cons.mp late with rfl | later
    · exact Nat.le_refl _
    · exact List.rel_of_pairwise_cons (List.pairwise_append.mp ascending).2.1 later

theorem bits_le_iff (first second : Width) :
    first.bits ≤ second.bits ↔ first.unsignedMax ≤ second.unsignedMax := by
  cases first <;> cases second <;> decide

theorem bits_fitUnsigned_le {value : Nat} {other : Width} (fits : value ≤ other.unsignedMax) :
    (fitUnsigned value).bits ≤ other.bits := by
  unfold fitUnsigned
  cases found : all.find? fun width => value ≤ width.unsignedMax with
  | none => exact absurd fits (by simpa using List.find?_eq_none.mp found other (mem_all other))
  | some width => exact bits_le_of_find? found (decide_eq_true fits)

theorem narrowest_fitUnsigned {value : Nat} (word : value < 2 ^ 64) :
    Narrowest (fun width => value ≤ width.unsignedMax) (fitUnsigned value) :=
  ⟨le_unsignedMax_fitUnsigned word, fun _ => bits_fitUnsigned_le⟩

theorem bits_fitSigned_le {value : Int} {other : Width}
    (fits : other.signedMin ≤ value ∧ value ≤ other.signedMax) :
    (fitSigned value).bits ≤ other.bits := by
  unfold fitSigned
  cases found : all.find? fun width => width.signedMin ≤ value ∧ value ≤ width.signedMax with
  | none => exact absurd fits (by simpa using List.find?_eq_none.mp found other (mem_all other))
  | some width => exact bits_le_of_find? found (decide_eq_true fits)

end Width

/-! ### Narrow arrays -/

namespace UnsignedArray

/-- Whether the width of an array is the narrowest that holds its elements. -/
def Narrow (array : UnsignedArray) : Prop :=
  Width.Narrowest (fun width => ∀ element ∈ array.elements, element ≤ width.unsignedMax)
    array.width

theorem le_unsignedMax_of_mem_fitting {greatest element : Nat} {values : List Nat}
    (member : element ∈ (fitting greatest values).elements) :
    element ≤ (fitting greatest values).width.unsignedMax := by
  obtain ⟨value, _, rfl⟩ := List.mem_map.mp member
  exact Nat.min_le_right _ _

/-- An array is narrow if the bound that it was fitted to is one of its values. -/
theorem narrow_fitting {greatest : Nat} {values : List Nat} (attained : greatest ∈ values) :
    (fitting greatest values).Narrow where
  fits _ := le_unsignedMax_of_mem_fitting
  least other holds := by
    have stored : min greatest (Width.fitUnsigned greatest).unsignedMax ≤ other.unsignedMax :=
      holds _ (List.mem_map_of_mem attained)
    rcases Nat.le_total greatest (Width.fitUnsigned greatest).unsignedMax with fits | cut
    · rw [Nat.min_eq_left fits] at stored
      exact Width.bits_fitUnsigned_le stored
    · rw [Nat.min_eq_right cut] at stored
      exact (Width.bits_le_iff _ other).mpr stored

/-- Whether an array of numbers below a count has the narrowest width for the count. It is too
wide for the numbers themselves if a width holds them and falls short of the count; and if the last
number below the count occurs, that is so if the count is one more than what a width holds. -/
structure FitsCount (array : UnsignedArray) (count : Nat) : Prop where
  fitted : Width.Narrowest (fun width => count ≤ width.unsignedMax) array.width
  below : ∀ number ∈ array.elements, number < count
  too_wide_iff : ¬ array.Narrow ↔ ∃ width : Width,
    (∀ number ∈ array.elements, number ≤ width.unsignedMax) ∧ width.unsignedMax < count
  narrow_iff : (∀ last, count = last + 1 → last ∈ array.elements) →
    (array.Narrow ↔ ∀ width : Width, count ≠ width.unsignedMax + 1)

theorem fitsCount_of {array : UnsignedArray} {count : Nat}
    (fitted : Width.Narrowest (fun width => count ≤ width.unsignedMax) array.width)
    (below : ∀ number ∈ array.elements, number < count) : array.FitsCount count := by
  have falls (width : Width) : width.unsignedMax < count ↔ ¬ array.width.bits ≤ width.bits := by
    rw [← Nat.not_le, not_iff_not]
    refine ⟨fitted.least width, fun narrower => ?_⟩
    exact Nat.le_trans fitted.fits ((Width.bits_le_iff _ width).mp narrower)
  have tooWide : ¬ array.Narrow ↔ ∃ width : Width,
      (∀ number ∈ array.elements, number ≤ width.unsignedMax) ∧ width.unsignedMax < count := by
    constructor
    · intro wide
      by_contra missing
      refine wide ⟨fun number member => Nat.le_trans (Nat.le_of_lt (below number member))
        fitted.fits, fun width holds => ?_⟩
      by_contra narrower
      exact missing ⟨width, holds, (falls width).mpr narrower⟩
    · rintro ⟨width, holds, short⟩ narrow
      exact (falls width).mp short (narrow.least width holds)
  refine ⟨fitted, below, tooWide, fun occurs => ?_⟩
  rw [← not_iff_not, tooWide]
  simp only [not_forall, Decidable.not_not]
  refine exists_congr fun width => ⟨fun ⟨holds, short⟩ => ?_, ?_⟩
  · obtain ⟨last, rfl⟩ := Nat.exists_eq_succ_of_ne_zero (Nat.ne_zero_of_lt short)
    exact congrArg Nat.succ
      (Nat.le_antisymm (holds last (occurs last rfl)) (Nat.le_of_lt_succ short))
  · rintro rfl
    exact ⟨fun number member => Nat.le_of_lt_succ (below number member), Nat.lt_succ_self _⟩

theorem fitsCount_fitting {count : Nat} {values : List Nat} (word : count < 2 ^ 64)
    (below : ∀ value ∈ values, value < count) : (fitting count values).FitsCount count := by
  refine fitsCount_of (Width.narrowest_fitUnsigned word) ?_
  rwa [elements_fitting word fun value member => Nat.le_of_lt (below value member)]

end UnsignedArray

namespace SignedArray

/-- Whether the width of an array is the narrowest that holds its elements. -/
def Narrow (array : SignedArray) : Prop :=
  Width.Narrowest (fun width => ∀ element ∈ array.elements,
    width.signedMin ≤ element ∧ element ≤ width.signedMax) array.width

/-- An array of addresses and marks of missing ones is narrow. -/
theorem narrow_fitting {values : List Int}
    (fits : ∀ value ∈ values, -1 ≤ value ∧ value < 2 ^ 63) :
    (fitting (values.max?.getD 0) values).Narrow where
  fits element member := by
    obtain ⟨value, _, rfl⟩ := List.mem_map.mp member
    have ordered (width : Width) : width.signedMin ≤ width.signedMax := by cases width <;> decide
    exact ⟨Int.le_max_left _ _, Int.max_le.mpr ⟨ordered _, Int.min_le_right _ _⟩⟩
  least other holds := by
    rw [elements_fitting fits] at holds
    show (Width.fitSigned (values.max?.getD 0)).bits ≤ other.bits
    cases greatest : values.max? with
    | none => cases other <;> decide
    | some most => exact Width.bits_fitSigned_le (holds most (List.max?_mem greatest))

end SignedArray

/-! ### Token numbers -/

namespace Dictionary

theorem lt_size_of_mem_numbersOf {dictionary : Dictionary} {tokens : List String}
    (known : ∀ token ∈ tokens, token ∈ dictionary.tokens) {number : Nat}
    (member : number ∈ dictionary.numbersOf tokens) : number < dictionary.size := by
  obtain ⟨token, given, rfl⟩ := List.mem_map.mp member
  exact Nat.lt_of_le_of_lt (numberAt_le _) (List.idxOf_lt_length_of_mem (known token given))

/-- In a new dictionary the last number is that of one of the tokens it was made for. -/
theorem mem_numbersOf_of_size_eq {tokens : List String}
    (few : (empty.extended tokens).size ≤ 2 ^ 32) {last : Nat}
    (counted : (empty.extended tokens).size = last + 1) :
    last ∈ (empty.extended tokens).numbersOf tokens := by
  have inside : last < (empty.extended tokens).tokens.length :=
    Nat.lt_of_lt_of_eq (Nat.lt_succ_self last) counted.symm
  have listed := List.getElem_mem inside
  have given : (empty.extended tokens).tokens[last] ∈ tokens :=
    List.mem_eraseDups.mp (tokens_ofList tokens ▸ listed)
  refine List.mem_map.mpr ⟨_, given, ?_⟩
  rw [numberAt_idxOf few listed, (empty.extended tokens).nodup.idxOf_getElem]

end Dictionary

/-! ### Narrow columns -/

namespace Compact

variable {pool after : Pool} {graph : Graph} {store : TokenStore} {keepAddresses : Bool}

/-- An array of offsets is narrow, since the last one is the sum that it was fitted to. -/
theorem narrow_fitting_offsetsOf {greatest : Nat} {lengths : List Nat}
    (sum : lengths.sum = greatest) :
    (UnsignedArray.fitting greatest (offsetsOf 0 lengths)).Narrow := by
  refine UnsignedArray.narrow_fitting (List.mem_of_getElem? (i := lengths.length) ?_)
  rw [getElem?_offsetsOf 0 (Nat.le_refl _), List.take_length, sum, Nat.zero_add]

/-- Whether the columns of a compact graph are as narrow as what they hold allows, those of lines
and functions as far as their counts do. The column of targets leaves its greatest value free. -/
structure NarrowColumns (compact : Compact) (tokenCount : Nat) : Prop where
  lineOffsets : compact.lineOffsets.Narrow
  targetOffsets : compact.targetOffsets.Narrow
  blockAddresses : ∀ column, compact.blockAddresses = some column → column.Narrow
  lineAddresses : ∀ column, compact.lineAddresses = some column → column.Narrow
  lineAddressOffsets : ∀ column, compact.lineAddressOffsets = some column → column.Narrow
  targets : Width.Narrowest (fun width => compact.blockCount + 1 ≤ width.unsignedMax)
    compact.targets.width
  lines : compact.lines.FitsCount tokenCount
  functions : compact.functionOfBlock.FitsCount compact.functionCount

theorem fitsCount_lines_columnsOf (lives : store.LivesIn pool)
    (tokenWord : (tokensAfter pool graph store).size < 2 ^ 64) :
    (columnsOf pool graph store keepAddresses).lines.FitsCount
      (tokensAfter pool graph store).size := by
  rw [lines_columnsOf lives]
  refine UnsignedArray.fitsCount_fitting tokenWord fun number member => ?_
  exact Dictionary.lt_size_of_mem_numbersOf
    (fun token given => Dictionary.mem_tokens_extended given) member

theorem narrowColumns_columnsOf (laid : graph.Laid)
    (signed : keepAddresses = true → ∀ block ∈ graph.blockList, block.Signed)
    (lives : store.LivesIn pool) (tokenWord : (tokensAfter pool graph store).size < 2 ^ 64)
    (sized : (columnsOf pool graph store keepAddresses).WordSized)
    (free : (columnsOf pool graph store keepAddresses).blockCount + 1 < 2 ^ 64) :
    (columnsOf pool graph store keepAddresses).NarrowColumns
      (tokensAfter pool graph store).size where
  lineOffsets := by
    rw [lineOffsets_columnsOf]
    refine narrow_fitting_offsetsOf ?_
    rw [size_lines_columnsOf, List.length_flatMap]
  targetOffsets := by
    rw [targetOffsets_columnsOf]
    refine narrow_fitting_offsetsOf ?_
    rw [size_targets_columnsOf, List.length_flatMap]
  blockAddresses column kept := by
    cases keepAddresses with
    | false => exact nomatch kept
    | true =>
      obtain rfl := Option.some.inj kept
      exact SignedArray.narrow_fitting (address_bounds (signed rfl))
  lineAddresses column kept := by
    cases keepAddresses with
    | false => exact nomatch kept
    | true =>
      obtain rfl := Option.some.inj kept
      exact SignedArray.narrow_fitting (lineAddress_bounds (signed rfl))
  lineAddressOffsets column kept := by
    cases keepAddresses with
    | false => exact nomatch kept
    | true =>
      obtain ⟨_, _, _, offsets⟩ := lineAddresses_columnsOf pool store (signed rfl)
      rw [offsets] at kept
      obtain rfl := Option.some.inj kept
      refine narrow_fitting_offsetsOf ?_
      rw [← List.length_flatMap, length_flatMap_signedLines laid, size_lines_columnsOf]
  targets := by
    have width : (columnsOf pool graph store keepAddresses).targets.width =
        .fitUnsigned (graph.blockList.length + 1) := by
      simp only [columnsOf, ofRows, List.length_map]
      rfl
    rw [width, blockCount_columnsOf]
    rw [blockCount_columnsOf] at free
    exact Width.narrowest_fitUnsigned free
  lines := fitsCount_lines_columnsOf lives tokenWord
  functions := by
    have word := sized.functions
    have count : graph.functionCount = graph.functionList.length :=
      (AddressMap.length_contents _).symm
    rw [functionCount_columnsOf] at word ⊢
    rw [functionOfBlock_columnsOf, count]
    refine UnsignedArray.fitsCount_fitting word fun rank member => ?_
    obtain ⟨block, listed, rfl⟩ := List.mem_map.mp member
    exact laid.parentRank_lt listed

/-- Over a new dictionary the last token number occurs in the column of lines. -/
theorem last_mem_lines_columnsOf (few : (tokensAfter pool graph .empty).size ≤ 2 ^ 32) {last : Nat}
    (counted : (tokensAfter pool graph .empty).size = last + 1) :
    last ∈ (columnsOf pool graph .empty keepAddresses).lines.elements := by
  have known := Dictionary.mem_numbersOf_of_size_eq few counted
  rw [Dictionary.numbersOf, List.map_flatMap] at known
  rw [elements_lines_columnsOf (TokenStore.livesIn_empty pool)]
  exact known

/-- All columns of a compact graph are as narrow as what they hold allows, but for the two that are
fitted to counts: those of lines and functions. -/
theorem columns_narrow (reachable : graph.Reachable) {normalizer : Option Normalizer}
    {store : Option TokenStore} {options : CompactOptions} {compact : Compact}
    (built : ofGraph pool graph normalizer store options = (.ok compact, after))
    (lives : (store.getD .empty).LivesIn pool)
    (tokenWord : (compact.tokens.contents after).size < 2 ^ 64) (sized : compact.WordSized)
    (free : compact.blockCount + 1 < 2 ^ 64) :
    compact.NarrowColumns (compact.tokens.contents after).size ∧
      (store = none → (compact.tokens.contents after).size ≤ 2 ^ 32 →
        (compact.lines.Narrow ↔
          ∀ width : Width, (compact.tokens.contents after).size ≠ width.unsignedMax + 1)) := by
  obtain ⟨next, middle, prepared, built⟩ := ofGraph_eq_ok_iff.mp built
  have laid := (reachable_of_source prepared reachable).sound.toLaid
  have livesNow := lives.of_length (length_pool_of_source prepared)
  obtain ⟨_, signed, rfl, rfl⟩ := (ofNormalized_eq_ok_iff laid).mp built
  rw [contents_tokens_columnsOf livesNow] at tokenWord ⊢
  have narrow := narrowColumns_columnsOf laid signed livesNow tokenWord sized free
  refine ⟨narrow, ?_⟩
  rintro rfl few
  exact narrow.lines.narrow_iff fun last counted => last_mem_lines_columnsOf few counted

/-- The columns of the small graph, over a dictionary of three tokens. -/
theorem loopColumns_narrow :
    (loopColumns.tokens.contents []).size = 3 ∧ loopColumns.NarrowColumns 3 ∧
      loopColumns.lines.Narrow := by
  have counted : (loopColumns.tokens.contents []).size = 3 := by decide
  obtain ⟨narrow, lines⟩ := columns_narrow (Graph.reachable_loopGraph (some "base"))
    (ofGraph_loopGraph true) trivial (by decide) wordSized_loopColumns (by decide)
  have unattained (width : Width) : 3 ≠ width.unsignedMax + 1 := by cases width <;> decide
  rw [← counted] at unattained ⊢
  exact ⟨rfl, narrow, (lines rfl (by decide)).mpr unattained⟩

/-! ### A column that is too wide -/

/-- A graph of one block with these lines, which are normal according to its record. -/
def linedGraph (lines : List String) : Graph :=
  { Graph.ofBlock { Block.new 16 with lines } none with normalizer := some "base" }

theorem reachable_linedGraph (lines : List String) : (linedGraph lines).Reachable :=
  (Graph.reachable_ofBlock ((Block.Built.new 16).fill ∅ lines [] ∅) none).withRecords _ _ _

theorem lines_linedGraph (lines : List String) :
    (linedGraph lines).blockList.flatMap Block.lines = lines := by
  have sole : (linedGraph lines).blockList.map Block.lines = [lines] := by rfl
  rw [List.flatMap_def, sole, List.flatten_singleton]

theorem ofGraph_linedGraph (lines : List String) :
    ofGraph [] (linedGraph lines) none none ⟨false, false⟩ =
      (.ok (columnsOf [] (linedGraph lines) .empty false), []) := by
  have closed : (linedGraph lines).danglingEdges = [] := by rfl
  exact ofGraph_eq_ok_iff.mpr ⟨_, _, rfl,
    (ofNormalized_eq_ok_iff (reachable_linedGraph lines).sound.toLaid).mpr
      ⟨closed, fun keeps => (nomatch keeps), rfl, rfl⟩⟩

/-- Different lines, as many as a byte has values. -/
def byteOfLines : List String := (List.range 256).map fun length =>
  String.ofList (List.replicate length 'x')

theorem nodup_byteOfLines : byteOfLines.Nodup := by
  refine List.Nodup.map (fun first second same => ?_) List.nodup_range
  have lengths := congrArg (fun line => line.toList.length) same
  simpa using lengths

/-- The numbers of 256 lines fit in bytes, but their column has two bytes for each. -/
theorem byteOfLines_too_wide :
    (linedGraph byteOfLines).Reachable ∧
      ∃ compact, ofGraph [] (linedGraph byteOfLines) none none ⟨false, false⟩ =
        (.ok compact, []) ∧ compact.lines.width = .w16 ∧
        (∀ number ∈ compact.lines.elements, number ≤ Width.w8.unsignedMax) ∧
        ¬ compact.lines.Narrow := by
  have lives := TokenStore.livesIn_empty []
  have tokens : tokensAfter [] (linedGraph byteOfLines) .empty =
      ⟨byteOfLines, nodup_byteOfLines⟩ := by
    rw [tokensAfter, lines_linedGraph]
    exact Dictionary.ofList_tokens ⟨byteOfLines, nodup_byteOfLines⟩
  have count : (tokensAfter [] (linedGraph byteOfLines) .empty).size = 256 := by
    rw [tokens]
    exact (List.length_map _).trans List.length_range
  have fits : (columnsOf [] (linedGraph byteOfLines) .empty false).lines.FitsCount 256 :=
    count ▸ fitsCount_lines_columnsOf lives (by rw [count]; decide)
  refine ⟨reachable_linedGraph byteOfLines, _, ofGraph_linedGraph byteOfLines, ?_,
    fun number member => Nat.le_of_lt_succ (fits.below number member),
    fits.too_wide_iff.mpr ⟨.w8, fun number member => Nat.le_of_lt_succ (fits.below number member),
      by decide⟩⟩
  rw [lines_columnsOf lives, count]
  rfl

end Compact

end FlowGraph
