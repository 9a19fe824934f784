/-
This file proves that run-length lists of metadata are read back as they were
written. A list stands for its expansion, whatever its length. It is counted if
a machine word can hold the number of tables, it is expanded if memory can hold
that many, and at a position it is read if what begins up to there also ends
within the machine words.
-/

import FlowGraph.Proofs.Outcome
import FlowGraph.RunLength
import Mathlib.Algebra.Ring.Nat
import Mathlib.Data.List.Forall2

namespace FlowGraph.RunLength

/-! ### Equality -/

theorem same_iff {left right : RunLength} :
    left.same right = true ↔
      List.Forall₂ (fun first second => first.same second = true) left right := by
  rw [same, Bool.and_eq_true, beq_iff_eq, List.all_eq_true, List.forall₂_iff_zip]
  exact and_congr_right fun _ => ⟨fun each _ _ member => each _ member,
    fun each pair member => each member⟩

theorem same_self (encoded : RunLength) : encoded.same encoded = true := by
  rw [same_iff, List.forall₂_same]
  intro entry _
  cases entry with
  | run count => exact beq_self_eq_true count
  | table metadata => exact metadata.same_self

/-! ### Expansion -/

theorem expand_eq_replicate (entry : RunEntry) :
    entry.expand = List.replicate entry.span entry.content := by
  cases entry <;> rfl

theorem expand_length (entry : RunEntry) : entry.expand.length = entry.span := by
  rw [expand_eq_replicate, List.length_replicate]

theorem tableCount_cons (entry : RunEntry) (rest : RunLength) :
    tableCount (entry :: rest) = entry.span + tableCount rest := rfl

theorem expansion_cons (entry : RunEntry) (rest : RunLength) :
    expansion (entry :: rest) = entry.expand ++ expansion rest := rfl

theorem length_expansion (encoded : RunLength) :
    encoded.expansion.length = encoded.tableCount := by
  induction encoded with
  | nil => rfl
  | cons entry rest inductionHypothesis =>
    rw [expansion_cons, List.length_append, expand_length, inductionHypothesis, tableCount_cons]

theorem expansion_prepend (metadata : Metadata) (encoded : RunLength) :
    expansion (prepend metadata encoded) = metadata :: encoded.expansion := by
  unfold prepend
  split
  · rename_i empty
    obtain rfl := Std.ExtTreeMap.isEmpty_iff.mp empty
    split <;> rfl
  · rfl

theorem expansion_encode (tables : List Metadata) : (encode tables).expansion = tables := by
  induction tables with
  | nil => rfl
  | cons metadata rest inductionHypothesis =>
    calc (encode (metadata :: rest)).expansion
        = metadata :: (encode rest).expansion := expansion_prepend metadata (encode rest)
      _ = metadata :: rest := by rw [inductionHypothesis]

theorem tableCount_encode (tables : List Metadata) :
    (encode tables).tableCount = tables.length := by
  rw [← length_expansion, expansion_encode]

/-! ### Counting and decoding -/

variable {encoded : RunLength} {start span stop position bound : Nat}

theorem advance_eq_ok_iff :
    advance start span = .ok stop ↔ start + span < UInt64.size ∧ start + span = stop := by
  unfold advance
  split
  · rename_i word
    rw [Except.ok.injEq, and_iff_right word]
  · rename_i far
    exact ⟨fun equal => (nomatch equal), fun both => absurd both.1 far⟩

/-- Going on entry by entry is going on by all tables at once. -/
theorem foldlM_advance (encoded : RunLength) (word : start < UInt64.size) :
    encoded.foldlM (fun start entry => advance start entry.span) start =
      advance start encoded.tableCount := by
  induction encoded generalizing start with
  | nil => exact (if_pos word).symm
  | cons entry rest inductionHypothesis =>
    rw [List.foldlM_cons, tableCount_cons]
    by_cases near : start + entry.span < UInt64.size
    · rw [advance_eq_ok_iff.mpr ⟨near, rfl⟩, Outcome.ok_bind, inductionHypothesis near, advance,
        advance, Nat.add_assoc]
    · rw [advance, if_neg near, advance, if_neg (by omega)]
      rfl

/-- The tables of a list are counted if and only if a machine word can hold their number. -/
theorem count_eq_ok_iff {count : Nat} :
    encoded.count = .ok count ↔ encoded.tableCount < UInt64.size ∧ encoded.tableCount = count := by
  rw [RunLength.count, foldlM_advance encoded (by decide), advance_eq_ok_iff, Nat.zero_add]

/-- A list is decoded if and only if memory can hold its tables. -/
theorem decode_eq_ok_iff {tables : List Metadata} :
    encoded.decode = .ok tables ↔
      encoded.tableCount ≤ greatestCount ∧ encoded.expansion = tables := by
  have small : greatestCount < UInt64.size := by decide
  unfold decode
  rw [Outcome.bind_eq_ok_iff]
  simp only [count_eq_ok_iff]
  constructor
  · rintro ⟨_, ⟨_, rfl⟩, expanded⟩
    split at expanded
    · rename_i held
      exact ⟨held, Except.ok.inj expanded⟩
    · cases expanded
  · rintro ⟨held, rfl⟩
    exact ⟨_, ⟨Nat.lt_of_le_of_lt held small, rfl⟩, if_pos held⟩

theorem decode_encode {tables : List Metadata} (held : tables.length ≤ greatestCount) :
    (encode tables).decode = .ok tables :=
  decode_eq_ok_iff.mpr ⟨tableCount_encode tables ▸ held, expansion_encode tables⟩

/-! ### Reading at a position -/

theorem tableFrom_cons {entry : RunEntry} {rest : RunLength}
    (near : start + entry.span < UInt64.size) :
    tableFrom start (entry :: rest) position =
      if position < start + entry.span then .ok (some entry.content)
      else tableFrom (start + entry.span) rest position := by
  rw [tableFrom, advance_eq_ok_iff.mpr ⟨near, rfl⟩]
  rfl

/-- What a position beyond a beginning finds. -/
theorem tableFrom_eq (word : start + encoded.tableCount < UInt64.size) (reached : start ≤ position) :
    tableFrom start encoded position = .ok encoded.expansion[position - start]? := by
  induction encoded generalizing start with
  | nil => rfl
  | cons entry rest inductionHypothesis =>
    rw [tableCount_cons] at word
    rw [tableFrom_cons (by omega), expansion_cons]
    split
    · rename_i inside
      rw [List.getElem?_append_left (by rw [expand_length]; omega), expand_eq_replicate,
        List.getElem?_replicate, if_pos (by omega)]
    · rename_i beyond
      rw [inductionHypothesis (by omega) (by omega),
        List.getElem?_append_right (by rw [expand_length]; omega), expand_length, Nat.sub_sub]

/-- A list whose tables can be counted is read at every position as if it were expanded. -/
theorem tableAt_eq (word : encoded.tableCount < UInt64.size) (position : Nat) :
    encoded.tableAt position = .ok encoded.expansion[position]? :=
  tableFrom_eq ((Nat.zero_add _).symm ▸ word) (Nat.zero_le position)

/-- The table at a position of an encoded list. -/
theorem tableAt_encode {tables : List Metadata} (word : tables.length < UInt64.size)
    (position : Nat) : (encode tables).tableAt position = .ok tables[position]? := by
  rw [tableAt_eq (tableCount_encode tables ▸ word), expansion_encode]

/-- A position is read unless an entry that begins up to there ends beyond the machine words. -/
theorem exists_tableFrom_iff (word : start < UInt64.size) (reached : start ≤ position) :
    (∃ found, tableFrom start encoded position = .ok found) ↔
      ∀ count, start + tableCount (encoded.take count) ≤ position →
        start + tableCount (encoded.take (count + 1)) < UInt64.size := by
  induction encoded generalizing start with
  | nil =>
    refine iff_of_true ⟨none, rfl⟩ fun count _ => ?_
    rw [List.take_nil]
    exact word
  | cons entry rest inductionHypothesis =>
    by_cases near : start + entry.span < UInt64.size
    · -- The first entry ends within the words, so only what begins behind it matters.
      have step (count : Nat) : start + tableCount ((entry :: rest).take (count + 1)) =
          start + entry.span + tableCount (rest.take count) := by
        rw [List.take_succ_cons, tableCount_cons, Nat.add_assoc]
      have behind : (∀ count, start + tableCount ((entry :: rest).take count) ≤ position →
          start + tableCount ((entry :: rest).take (count + 1)) < UInt64.size) ↔
            ∀ count, start + entry.span + tableCount (rest.take count) ≤ position →
              start + entry.span + tableCount (rest.take (count + 1)) < UInt64.size := by
        simp only [step]
        refine ⟨fun all count => step count ▸ all (count + 1), fun later count => ?_⟩
        cases count with
        | zero => exact fun _ => near
        | succ count => exact (step count).symm ▸ later count
      rw [tableFrom_cons near, behind]
      split
      · rename_i inside
        refine iff_of_true ⟨_, rfl⟩ fun count begins => absurd inside ?_
        omega
      · rename_i beyond
        exact inductionHypothesis near (Nat.le_of_not_lt beyond)
    · refine iff_of_false ?_ fun all => near (all 0 reached)
      rintro ⟨found, read⟩
      rw [tableFrom, advance, if_neg near] at read
      cases read

theorem exists_tableAt_iff :
    (∃ found, encoded.tableAt position = .ok found) ↔
      ∀ count, tableCount (encoded.take count) ≤ position →
        tableCount (encoded.take (count + 1)) < UInt64.size := by
  rw [tableAt, exists_tableFrom_iff (by decide) (Nat.zero_le position)]
  simp only [Nat.zero_add]

/-- Whether every entry that begins before a bound also ends within the machine words. -/
def ReadableBelow (bound : Nat) (encoded : RunLength) : Prop :=
  ∀ count, tableCount (encoded.take count) < bound →
    tableCount (encoded.take (count + 1)) < UInt64.size

/-- All positions below a bound are read if and only if what begins there also ends. -/
theorem readableBelow_iff :
    encoded.ReadableBelow bound ↔
      ∀ position < bound, ∃ found, encoded.tableAt position = .ok found := by
  simp only [exists_tableAt_iff]
  constructor
  · intro readable position below count begins
    exact readable count (Nat.lt_of_le_of_lt begins below)
  · intro reads count begins
    exact reads _ begins count (Nat.le_refl _)

theorem readableBelow_of_lt (word : encoded.tableCount < UInt64.size) (bound : Nat) :
    encoded.ReadableBelow bound :=
  readableBelow_iff.mpr fun position _ => ⟨_, tableAt_eq word position⟩

end FlowGraph.RunLength
