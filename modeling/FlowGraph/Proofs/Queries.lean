/-
This file proves when a compact graph answers questions. A question about a block or a function
is answered for the numbers below a bound and refused for all others, with the number and the
bound. What can go wrong besides is that flags are missing, that metadata is for more blocks or
functions than a machine word can count, that a token is not in the dictionary, or that a block
belongs to a function that there is not.
-/

import FlowGraph.Compact.Expand
import FlowGraph.Proofs.Outcome
import FlowGraph.Proofs.Runs

namespace FlowGraph.Compact

variable {First Second : Type} {numbered : Numbered} {bound : Nat} {compact : Compact}
  {current : Pool}

/-! ### Bounds -/

/-- Whether a question is answered for the numbers below a bound, and refused for all others with
the number and the bound. -/
structure AnswersBelow (numbered : Numbered) (bound : Nat)
    (ask : Nat → Except CompactError First) : Prop where
  answered : ∀ {number : Nat}, number < bound → ∃ answer, ask number = .ok answer
  refused : ∀ {number : Nat}, bound ≤ number →
    ask number = .error (.numberOutOfRange numbered number bound)

/-- A question that goes on where another one is answered. -/
theorem AnswersBelow.bind {ask : Nat → Except CompactError First}
    {next : Nat → First → Except CompactError Second} (answers : AnswersBelow numbered bound ask)
    (continued : ∀ {number : Nat} {answer : First}, number < bound → ask number = .ok answer →
      ∃ result, next number answer = .ok result) :
    AnswersBelow numbered bound fun number => ask number >>= next number where
  answered inside := by
    obtain ⟨answer, asked⟩ := answers.answered inside
    obtain ⟨result, succeeds⟩ := continued inside asked
    exact ⟨result, Outcome.bind_eq_ok_iff.mpr ⟨answer, asked, succeeds⟩⟩
  refused outside := Outcome.bind_eq_error_iff.mpr (Or.inl (answers.refused outside))

/-- A question whose answer only is told in other words. -/
theorem AnswersBelow.told {ask : Nat → Except CompactError First}
    {tell : Nat → First → Second} (answers : AnswersBelow numbered bound ask) :
    AnswersBelow numbered bound fun number => ask number >>= fun answer =>
      (.ok (tell number answer)) :=
  answers.bind fun _ _ => ⟨_, rfl⟩

theorem answersBelow_checkBlock (compact : Compact) :
    AnswersBelow .blocks compact.blockCount compact.checkBlock where
  answered inside := ⟨(), if_pos inside⟩
  refused outside := if_neg (Nat.not_lt.mpr outside)

theorem answersBelow_checkFunction (compact : Compact) :
    AnswersBelow .functions compact.functionCount compact.checkFunction where
  answered inside := ⟨(), if_pos inside⟩
  refused outside := if_neg (Nat.not_lt.mpr outside)

/-! ### Questions that only need a number -/

theorem answersBelow_blockTokens (compact : Compact) :
    AnswersBelow .blocks compact.blockCount compact.blockTokens :=
  (answersBelow_checkBlock compact).told

theorem answersBelow_blockLineAddresses (compact : Compact) :
    AnswersBelow .blocks compact.blockCount compact.blockLineAddresses := by
  refine (answersBelow_checkBlock compact).bind fun _ _ => ?_
  split <;> exact ⟨_, rfl⟩

theorem answersBelow_blockAddress (compact : Compact) :
    AnswersBelow .blocks compact.blockCount compact.blockAddress :=
  (answersBelow_checkBlock compact).told

theorem answersBelow_blockFunction (compact : Compact) :
    AnswersBelow .blocks compact.blockCount compact.blockFunction :=
  (answersBelow_checkBlock compact).told

theorem answersBelow_functionName (compact : Compact) :
    AnswersBelow .functions compact.functionCount compact.functionName :=
  (answersBelow_checkFunction compact).told

theorem answersBelow_functionBlocks (compact : Compact) :
    AnswersBelow .functions compact.functionCount compact.functionBlocks :=
  (answersBelow_checkFunction compact).told

/-! ### Questions about metadata -/

/-- Metadata of blocks is told as far as it can be counted. -/
theorem answersBelow_metadataOfBlock
    (readable : compact.blockMetadata.ReadableBelow compact.blockCount) :
    AnswersBelow .blocks compact.blockCount compact.metadataOfBlock := by
  refine (answersBelow_checkBlock compact).bind fun {number} _ inside _ => ?_
  obtain ⟨found, read⟩ := RunLength.readableBelow_iff.mp readable number inside
  rw [read]
  exact ⟨_, rfl⟩

theorem answersBelow_metadataOfFunction
    (readable : compact.functionMetadata.ReadableBelow compact.functionCount) :
    AnswersBelow .functions compact.functionCount compact.metadataOfFunction := by
  refine (answersBelow_checkFunction compact).bind fun {number} _ inside _ => ?_
  obtain ⟨found, read⟩ := RunLength.readableBelow_iff.mp readable number inside
  rw [read]
  exact ⟨_, rfl⟩

/-! ### Questions about flags -/

/-- Flags are told as far as there are flags. -/
theorem answersBelow_blockFlags (covered : compact.blockCount ≤ compact.flags.length) :
    AnswersBelow .blocks compact.blockCount compact.blockFlags := by
  refine (answersBelow_checkBlock compact).bind fun {number} _ inside _ => ?_
  rw [List.getElem?_eq_getElem (Nat.lt_of_lt_of_le inside covered)]
  exact ⟨_, rfl⟩

theorem answersBelow_blockHas (covered : compact.blockCount ≤ compact.flags.length)
    (fact : BlockFact) : AnswersBelow .blocks compact.blockCount (compact.blockHas fact) :=
  (answersBelow_blockFlags covered).told

theorem answersBelow_blockTargets (covered : compact.blockCount ≤ compact.flags.length) :
    AnswersBelow .blocks compact.blockCount compact.blockTargets :=
  (answersBelow_blockFlags covered).told

theorem answersBelow_blockSuccessors (covered : compact.blockCount ≤ compact.flags.length) :
    AnswersBelow .blocks compact.blockCount compact.blockSuccessors :=
  (answersBelow_blockTargets covered).told

theorem answersBelow_blockInfo (covered : compact.blockCount ≤ compact.flags.length)
    (readable : compact.blockMetadata.ReadableBelow compact.blockCount) :
    AnswersBelow .blocks compact.blockCount compact.blockInfo := by
  refine (answersBelow_blockTargets covered).bind fun {number} typed inside _ => ?_
  obtain ⟨tokens, tokensTold⟩ := (answersBelow_blockTokens compact).answered inside
  obtain ⟨addresses, addressesTold⟩ := (answersBelow_blockLineAddresses compact).answered inside
  obtain ⟨function, functionTold⟩ := (answersBelow_blockFunction compact).answered inside
  obtain ⟨flags, flagsTold⟩ := (answersBelow_blockFlags covered).answered inside
  obtain ⟨metadata, metadataTold⟩ := (answersBelow_metadataOfBlock readable).answered inside
  rw [tokensTold, addressesTold, functionTold, flagsTold, metadataTold]
  exact ⟨_, rfl⟩

/-! ### Questions about lines and functions -/

theorem blockLines_of_le (current : Pool) {number : Nat} (outside : compact.blockCount ≤ number) :
    compact.blockLines current number =
      .error (.numberOutOfRange .blocks number compact.blockCount) :=
  Outcome.bind_eq_error_iff.mpr (Or.inl ((answersBelow_blockTokens compact).refused outside))

/-- The function of a block has a name if its number is below the number of functions. -/
theorem answersBelow_blockFunctionName (owned : ∀ {number function : Nat},
    compact.blockFunction number = .ok function → function < compact.functionCount) :
    AnswersBelow .blocks compact.blockCount compact.blockFunctionName :=
  (answersBelow_blockFunction compact).bind fun _ told =>
    (answersBelow_functionName compact).answered (owned told)

/-! ### All questions -/

/-- Whether every question about blocks and functions is answered for exactly the numbers below
the bound. -/
structure Answers (compact : Compact) (current : Pool) : Prop where
  tokens : AnswersBelow .blocks compact.blockCount compact.blockTokens
  lines : AnswersBelow .blocks compact.blockCount (compact.blockLines current)
  lineAddresses : AnswersBelow .blocks compact.blockCount compact.blockLineAddresses
  address : AnswersBelow .blocks compact.blockCount compact.blockAddress
  flags : AnswersBelow .blocks compact.blockCount compact.blockFlags
  facts : ∀ fact, AnswersBelow .blocks compact.blockCount (compact.blockHas fact)
  targets : AnswersBelow .blocks compact.blockCount compact.blockTargets
  successors : AnswersBelow .blocks compact.blockCount compact.blockSuccessors
  function : AnswersBelow .blocks compact.blockCount compact.blockFunction
  functionName : AnswersBelow .blocks compact.blockCount compact.blockFunctionName
  blockMetadata : AnswersBelow .blocks compact.blockCount compact.metadataOfBlock
  info : AnswersBelow .blocks compact.blockCount compact.blockInfo
  names : AnswersBelow .functions compact.functionCount compact.functionName
  functionBlocks : AnswersBelow .functions compact.functionCount compact.functionBlocks
  functionMetadata : AnswersBelow .functions compact.functionCount compact.metadataOfFunction

/-- What has to be there for all questions to be answered. -/
theorem answers_of (covered : compact.blockCount ≤ compact.flags.length)
    (blockMetadata : compact.blockMetadata.ReadableBelow compact.blockCount)
    (functionMetadata : compact.functionMetadata.ReadableBelow compact.functionCount)
    (known : ∀ {number : Nat}, number < compact.blockCount →
      ∃ lines, compact.blockLines current number = .ok lines)
    (owned : ∀ {number function : Nat}, compact.blockFunction number = .ok function →
      function < compact.functionCount) : compact.Answers current where
  tokens := answersBelow_blockTokens compact
  lines := ⟨known, fun outside => blockLines_of_le current outside⟩
  lineAddresses := answersBelow_blockLineAddresses compact
  address := answersBelow_blockAddress compact
  flags := answersBelow_blockFlags covered
  facts := answersBelow_blockHas covered
  targets := answersBelow_blockTargets covered
  successors := answersBelow_blockSuccessors covered
  function := answersBelow_blockFunction compact
  functionName := answersBelow_blockFunctionName owned
  blockMetadata := answersBelow_metadataOfBlock blockMetadata
  info := answersBelow_blockInfo covered blockMetadata
  names := answersBelow_functionName compact
  functionBlocks := answersBelow_functionBlocks compact
  functionMetadata := answersBelow_metadataOfFunction functionMetadata

end FlowGraph.Compact
