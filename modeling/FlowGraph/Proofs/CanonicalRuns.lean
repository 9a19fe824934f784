/-
This file compares run-length lists with the tables that they stand for. A list is
canonical if it has no count of zero, no two counts side by side and no empty table.
An encoder that reads tables from the front and changes the last entry in place keeps
its list canonical at every step, and canonical lists are determined by what they
stand for, so that it ends where encoding from the back does. Lists that were written
elsewhere need not be canonical: they are counted and read like any other list, but
encoding their tables again gives an equal list only if they are. Only lists of more
tables than memory can hold are not decoded.
-/

import FlowGraph.Proofs.Runs
import Mathlib.Data.List.Chain

namespace FlowGraph

/-- Whether an entry is a number of empty tables. -/
def RunEntry.isRun : RunEntry → Bool
  | .run _ => true
  | .table _ => false

namespace RunLength

variable {encoded rest left right : RunLength} {tables : List Metadata} {metadata : Metadata}

/-! ### Canonical lists -/

/-- Whether a list is as short as it can be: every count counts something, counts do not stand
side by side, and empty tables are counted. -/
structure Canonical (encoded : RunLength) : Prop where
  counts : RunEntry.run 0 ∉ encoded
  apart : encoded.IsChain fun first second => ¬ (first.isRun = true ∧ second.isRun = true)
  tables : RunEntry.table ∅ ∉ encoded

namespace Canonical

theorem nil : Canonical [] := ⟨List.not_mem_nil, .nil, List.not_mem_nil⟩

theorem tail {entry : RunEntry} (canonical : Canonical (entry :: rest)) : Canonical rest :=
  ⟨mt (List.mem_cons_of_mem _) canonical.counts, canonical.apart.tail,
    mt (List.mem_cons_of_mem _) canonical.tables⟩

theorem dropLast (canonical : Canonical encoded) : Canonical encoded.dropLast :=
  ⟨mt (fun member => List.dropLast_subset _ member) canonical.counts, canonical.apart.dropLast,
    mt (fun member => List.dropLast_subset _ member) canonical.tables⟩

/-- A new last entry has to fit to the one before it. -/
theorem concat {entry : RunEntry} (canonical : Canonical encoded)
    (fits : ∀ last ∈ encoded.getLast?, ¬ (last.isRun = true ∧ entry.isRun = true))
    (counts : entry ≠ .run 0) (filled : entry ≠ .table ∅) : Canonical (encoded ++ [entry]) where
  counts member := by
    rcases List.mem_append.mp member with before | last
    · exact canonical.counts before
    · exact counts (List.mem_singleton.mp last).symm
  apart := by
    refine List.isChain_append.mpr ⟨canonical.apart, .singleton entry, fun last there next => ?_⟩
    rintro ⟨⟩
    exact fits last there
  tables member := by
    rcases List.mem_append.mp member with before | last
    · exact canonical.tables before
    · exact filled (List.mem_singleton.mp last).symm

end Canonical

/-! ### Encoding from the front -/

/-- Puts a table behind a list that is already encoded: an empty one adds to the count at the
end. -/
def push (encoded : RunLength) (metadata : Metadata) : RunLength :=
  if metadata.isEmpty then
    match encoded.getLast? with
    | some (.run count) => encoded.dropLast ++ [.run (count + 1)]
    | _ => encoded ++ [.run 1]
  else encoded ++ [.table metadata]

theorem expansion_append (left right : RunLength) :
    expansion (left ++ right) = expansion left ++ expansion right := List.flatMap_append

theorem expansion_push (encoded : RunLength) (metadata : Metadata) :
    expansion (encoded.push metadata) = expansion encoded ++ [metadata] := by
  unfold push
  split
  · rename_i empty
    obtain rfl := Std.ExtTreeMap.isEmpty_iff.mp empty
    split
    · rename_i count last
      have whole : encoded.dropLast ++ [.run count] = encoded :=
        List.dropLast_append_getLast? _ last
      conv_rhs => rw [← whole, expansion_append, List.append_assoc]
      rw [expansion_append]
      congr 1
      show List.replicate (count + 1) ∅ ++ [] = (List.replicate count ∅ ++ []) ++ [∅]
      rw [List.append_nil, List.append_nil, List.replicate_succ']
    · exact expansion_append _ _
  · exact expansion_append _ _

theorem Canonical.push (canonical : Canonical encoded) (metadata : Metadata) :
    Canonical (encoded.push metadata) := by
  unfold RunLength.push
  by_cases empty : metadata.isEmpty = true
  · rw [if_pos empty]
    split
    · rename_i count last
      have whole : encoded.dropLast ++ [.run count] = encoded :=
        List.dropLast_append_getLast? _ last
      refine canonical.dropLast.concat (fun before there both => ?_) ?_ (fun same => nomatch same)
      · have apart := canonical.apart
        rw [← whole, List.isChain_append] at apart
        exact apart.2.2 before there (.run count) rfl ⟨both.1, rfl⟩
      · exact fun same => Nat.succ_ne_zero count (RunEntry.run.inj same)
    · rename_i noRun
      refine canonical.concat (fun last there both => ?_) (by simp) (fun same => nomatch same)
      cases last with
      | run count => exact noRun count there
      | table metadata => exact Bool.false_ne_true both.1
  · rw [if_neg empty]
    refine canonical.concat (fun last _ both => Bool.false_ne_true both.2)
      (fun same => nomatch same) fun same => ?_
    rw [RunEntry.table.inj same] at empty
    exact empty Std.ExtTreeMap.isEmpty_empty

/-- The list after each table of a beginning: canonical, and standing for the tables so far. -/
theorem foldl_push (canonical : Canonical encoded) (tables : List Metadata) :
    Canonical (tables.foldl push encoded) ∧
      expansion (tables.foldl push encoded) = expansion encoded ++ tables := by
  induction tables generalizing encoded with
  | nil => exact ⟨canonical, (List.append_nil _).symm⟩
  | cons metadata rest inductionHypothesis =>
    obtain ⟨later, whole⟩ := inductionHypothesis (canonical.push metadata)
    refine ⟨later, ?_⟩
    rw [List.foldl_cons, whole, expansion_push, List.append_assoc, List.singleton_append]

/-! ### One canonical list -/

theorem foldr_prepend_replicate (count : Nat)
    (apart : ∀ entry ∈ rest.head?, entry.isRun = false) :
    (List.replicate (count + 1) ∅).foldr prepend rest = .run (count + 1) :: rest := by
  have isEmpty : (∅ : Metadata).isEmpty = true := Std.ExtTreeMap.isEmpty_empty
  induction count with
  | zero =>
    show prepend ∅ rest = _
    rw [prepend.eq_def, if_pos isEmpty]
    split
    · rename_i count others
      exact absurd (apart (.run count) rfl) (by simp [RunEntry.isRun])
    · rfl
  | succ count inductionHypothesis =>
    rw [List.replicate_succ, List.foldr_cons, inductionHypothesis, prepend, if_pos isEmpty]

/-- A canonical list is what its tables are encoded as. -/
theorem Canonical.encode_expansion (canonical : Canonical encoded) :
    encode (expansion encoded) = encoded := by
  induction encoded with
  | nil => rfl
  | cons entry rest inductionHypothesis =>
    have later : (expansion rest).foldr prepend [] = rest := inductionHypothesis canonical.tail
    show (entry.expand ++ expansion rest).foldr prepend [] = _
    rw [List.foldr_append, later]
    cases entry with
    | run count =>
      cases count with
      | zero => exact absurd List.mem_cons_self canonical.counts
      | succ count =>
        refine foldr_prepend_replicate count fun next there => ?_
        have apart := (List.isChain_cons.mp canonical.apart).1 next there
        exact Bool.eq_false_iff.mpr fun isRun => apart ⟨rfl, isRun⟩
    | table metadata =>
      have filled : ¬ metadata.isEmpty = true := by
        intro empty
        rw [Std.ExtTreeMap.isEmpty_iff.mp empty] at canonical
        exact canonical.tables List.mem_cons_self
      show prepend metadata rest = _
      rw [prepend.eq_def, if_neg filled]

/-- Encoding from the back is encoding from the front. -/
theorem encode_eq_foldl_push (tables : List Metadata) : encode tables = tables.foldl push [] := by
  obtain ⟨canonical, whole⟩ := foldl_push .nil tables
  rw [← canonical.encode_expansion, whole]
  rfl

theorem canonical_encode (tables : List Metadata) : (encode tables).Canonical :=
  encode_eq_foldl_push tables ▸ (foldl_push .nil tables).1

/-! ### Equal lists -/

theorem eq_run_of_same {entry : RunEntry} {count : Nat} (same : entry.same (.run count) = true) :
    entry = .run count := by
  cases entry with
  | run other => rw [beq_iff_eq.mp same]
  | table metadata => exact absurd same Bool.false_ne_true

theorem eq_empty_of_same {entry : RunEntry} (same : entry.same (.table ∅) = true) :
    entry = .table ∅ := by
  cases entry with
  | run count => exact absurd same Bool.false_ne_true
  | table metadata =>
    have none : (∅ : Metadata).toList = [] := Std.ExtTreeMap.toList_eq_nil_iff.mpr rfl
    cases listed : metadata.toList with
    | nil => rw [Std.ExtTreeMap.toList_eq_nil_iff.mp listed]
    | cons first others =>
      have fields : Json.Value.sameFields metadata.toList (∅ : Metadata).toList = true := same
      rw [listed, none] at fields
      exact absurd fields Bool.false_ne_true

theorem isRun_eq_of_same {first second : RunEntry} (same : first.same second = true) :
    first.isRun = second.isRun := by
  cases first with
  | run count =>
    cases second with
    | run other => rfl
    | table metadata => exact absurd same Bool.false_ne_true
  | table metadata =>
    cases second with
    | run count => exact absurd same Bool.false_ne_true
    | table other => rfl

theorem exists_same_of_mem
    (each : List.Forall₂ (fun first second => RunEntry.same first second = true) left right)
    {entry : RunEntry} (member : entry ∈ right) : ∃ other ∈ left, other.same entry = true := by
  induction each with
  | nil => exact absurd member List.not_mem_nil
  | @cons first second others _ here _ inductionHypothesis =>
    rcases List.mem_cons.mp member with rfl | later
    · exact ⟨first, List.mem_cons_self, here⟩
    · obtain ⟨other, listed, same⟩ := inductionHypothesis later
      exact ⟨other, List.mem_cons_of_mem _ listed, same⟩

/-- A list that equals a canonical one is canonical. -/
theorem Canonical.of_same (canonical : Canonical left) (same : left.same right = true) :
    Canonical right := by
  have each := same_iff.mp same
  refine ⟨fun member => ?_, ?_, fun member => ?_⟩
  · obtain ⟨other, listed, equal⟩ := exists_same_of_mem each member
    exact canonical.counts (eq_run_of_same equal ▸ listed)
  · have kinds : left.map RunEntry.isRun = right.map RunEntry.isRun := by
      rw [← List.forall₂_eq_eq_eq, List.forall₂_map_left_iff, List.forall₂_map_right_iff]
      exact each.imp fun _ _ => isRun_eq_of_same
    have apart := (List.isChain_map (R := fun first second : Bool =>
      ¬ (first = true ∧ second = true)) RunEntry.isRun).mpr canonical.apart
    rw [kinds] at apart
    exact (List.isChain_map _).mp apart
  · obtain ⟨other, listed, equal⟩ := exists_same_of_mem each member
    exact canonical.tables (eq_empty_of_same equal ▸ listed)

/-- Encoding the tables of a list gives an equal list exactly if the list is canonical. -/
theorem same_encode_expansion_iff :
    (encode (expansion encoded)).same encoded = true ↔ encoded.Canonical := by
  constructor
  · exact (canonical_encode _).of_same
  · intro canonical
    rw [canonical.encode_expansion]
    exact same_self encoded

/-- Whether a list is counted and read as some tables, and is what they are encoded as if and only
if it is canonical. -/
structure ReadsAs (encoded : RunLength) (tables : List Metadata) : Prop where
  counted : encoded.count = .ok tables.length
  read : ∀ position, encoded.tableAt position = .ok tables[position]?
  again : (encode tables).same encoded = true ↔ encoded.Canonical

/-- Every list of tables that memory can hold comes back from its encoding, which is canonical. And
every list whose tables a machine word can count, canonical or not, is read as what it stands for;
it is decoded to that if memory can hold it. -/
theorem read_as_decoded (tables : List Metadata) (held : tables.length ≤ greatestCount)
    (encoded : RunLength) (word : encoded.tableCount < 2 ^ 64) :
    ((encode tables).decode = .ok tables ∧ (encode tables).count = .ok tables.length ∧
        (encode tables).Canonical ∧ encode tables = tables.foldl push []) ∧
      encoded.ReadsAs encoded.expansion ∧
      encoded.decode =
        if encoded.tableCount ≤ greatestCount then .ok encoded.expansion else .error .capacity := by
  have small : tables.length < UInt64.size := Nat.lt_of_le_of_lt held (by decide)
  refine ⟨⟨decode_encode held, count_eq_ok_iff.mpr ?_, canonical_encode tables,
    encode_eq_foldl_push tables⟩, ⟨?_, tableAt_eq word, same_encode_expansion_iff⟩, ?_⟩
  · rw [tableCount_encode]
    exact ⟨small, rfl⟩
  · exact count_eq_ok_iff.mpr ⟨word, (length_expansion encoded).symm⟩
  · rw [decode, count_eq_ok_iff.mpr ⟨word, rfl⟩]
    rfl

/-- A list with a count of zero between two others, and an empty table at its end. -/
def scatteredRuns : RunLength := [.run 2, .run 0, .run 1, .table ∅]

/-- The scattered list stands for four empty tables, and it is not what they are encoded as. -/
theorem scatteredRuns_read_as_decoded :
    ([∅, ∅] : List Metadata).length ≤ greatestCount ∧ scatteredRuns.tableCount < 2 ^ 64 ∧
      ((encode [∅, ∅]).decode = .ok [∅, ∅] ∧ (encode [∅, ∅]).count = .ok 2 ∧
        (encode [∅, ∅]).Canonical ∧ encode [∅, ∅] = [∅, ∅].foldl push []) ∧
      scatteredRuns.ReadsAs [∅, ∅, ∅, ∅] ∧ scatteredRuns.decode = .ok [∅, ∅, ∅, ∅] :=
  ⟨by decide, by decide, read_as_decoded [∅, ∅] (by decide) scatteredRuns (by decide)⟩

/-- The greatest count of tables that there can be. -/
def greatestRun : RunLength := [.run (2 ^ 64 - 1)]

/-- A machine word can count the tables of this list, but memory cannot hold them. -/
theorem greatestRun_not_decoded :
    greatestRun.tableCount < 2 ^ 64 ∧ greatestRun.count = .ok (2 ^ 64 - 1) ∧
      ¬ ∃ decoded, greatestRun.decode = .ok decoded ∧ greatestRun.count = .ok decoded.length := by
  refine ⟨by decide, by decide, ?_⟩
  rintro ⟨decoded, expanded, _⟩
  exact absurd (decode_eq_ok_iff.mp expanded).1 (by decide)

end RunLength

end FlowGraph
