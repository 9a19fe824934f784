/-
This file proves that token numbers mean the tokens they were given for.
Registering tokens leaves everything at the beginning of a dictionary in its
place, so a number that was given once keeps its meaning; and as long as a
dictionary has at most `2 ^ 32` tokens, the number of a token is its position.
-/

import FlowGraph.Dictionary
import FlowGraph.Proofs.Outcome
import Mathlib.Algebra.Ring.Nat
import Mathlib.Data.List.Basic

namespace FlowGraph

namespace Dictionary

/-! ### Growing dictionaries -/

/-- The dictionary with more tokens. -/
def extended (dictionary : Dictionary) (tokens : List String) : Dictionary :=
  tokens.foldl insert dictionary

/-- The numbers of tokens. -/
def numbersOf (dictionary : Dictionary) (tokens : List String) : List Nat :=
  tokens.map fun token => numberAt (dictionary.tokens.idxOf token)

theorem insert_of_mem {dictionary : Dictionary} {token : String}
    (member : token ∈ dictionary.tokens) : dictionary.insert token = dictionary := dif_pos member

theorem tokens_insert_of_not_mem {dictionary : Dictionary} {token : String}
    (fresh : token ∉ dictionary.tokens) :
    (dictionary.insert token).tokens = dictionary.tokens ++ [token] := by
  rw [insert, dif_neg fresh]

theorem tokens_prefix_insert (dictionary : Dictionary) (token : String) :
    dictionary.tokens <+: (dictionary.insert token).tokens := by
  by_cases member : token ∈ dictionary.tokens
  · refine ⟨[], ?_⟩
    rw [List.append_nil, insert_of_mem member]
  · rw [tokens_insert_of_not_mem member]
    exact List.prefix_append _ _

theorem mem_tokens_insert (dictionary : Dictionary) (token : String) :
    token ∈ (dictionary.insert token).tokens := by
  by_cases member : token ∈ dictionary.tokens
  · rwa [insert_of_mem member]
  · rw [tokens_insert_of_not_mem member]
    exact List.mem_append_right _ (List.mem_singleton_self token)

theorem tokens_prefix_extended (dictionary : Dictionary) (tokens : List String) :
    dictionary.tokens <+: (dictionary.extended tokens).tokens := by
  induction tokens generalizing dictionary with
  | nil => exact List.prefix_refl _
  | cons token rest inductionHypothesis =>
    exact (tokens_prefix_insert dictionary token).trans (inductionHypothesis _)

theorem mem_tokens_extended {dictionary : Dictionary} {tokens : List String} {token : String}
    (member : token ∈ tokens) : token ∈ (dictionary.extended tokens).tokens := by
  induction tokens generalizing dictionary with
  | nil => exact (List.not_mem_nil member).elim
  | cons first rest inductionHypothesis =>
    rcases List.mem_cons.mp member with rfl | later
    · exact (tokens_prefix_extended _ rest).subset (mem_tokens_insert dictionary token)
    · exact inductionHypothesis later

theorem extended_of_containsAll {dictionary : Dictionary} {tokens : List String}
    (known : dictionary.containsAll tokens = true) : dictionary.extended tokens = dictionary := by
  induction tokens with
  | nil => rfl
  | cons token rest inductionHypothesis =>
    rw [containsAll, List.all_cons, Bool.and_eq_true, List.contains_iff_mem] at known
    rw [extended, List.foldl_cons, insert_of_mem known.1]
    exact inductionHypothesis known.2

/-! ### Registering -/

theorem number?_of_mem {dictionary : Dictionary} {token : String}
    (member : token ∈ dictionary.tokens) :
    dictionary.number? token = some (numberAt (dictionary.tokens.idxOf token)) := by
  obtain ⟨position, found⟩ := Option.isSome_iff_exists.mp (List.isSome_idxOf?.mpr member)
  rw [number?, List.idxOf_eq_getD_idxOf?, found]
  rfl

theorem register_eq (dictionary : Dictionary) (token : String) :
    dictionary.register token =
      (numberAt ((dictionary.insert token).tokens.idxOf token), dictionary.insert token) := by
  by_cases member : token ∈ dictionary.tokens
  · rw [register, number?_of_mem member, insert_of_mem member]
  · have missing : dictionary.number? token = none := by
      rw [number?, List.idxOf?_eq_none_iff.mpr member]
      rfl
    have last : (dictionary.insert token).tokens.idxOf token = dictionary.size := by
      rw [tokens_insert_of_not_mem member, List.idxOf_append_of_notMem member, List.idxOf_cons_self]
      rfl
    rw [register, missing, last]

/-- Registering tokens in turn numbers them as the dictionary does in the end. -/
theorem registerAll_eq (dictionary : Dictionary) (tokens : List String) :
    dictionary.registerAll tokens =
      ((dictionary.extended tokens).numbersOf tokens, dictionary.extended tokens) := by
  induction tokens generalizing dictionary with
  | nil => rfl
  | cons token rest inductionHypothesis =>
    have kept : ((dictionary.insert token).extended rest).tokens.idxOf token =
        (dictionary.insert token).tokens.idxOf token :=
      ((tokens_prefix_extended _ rest).idxOf_eq_of_mem (mem_tokens_insert dictionary token)).symm
    rw [registerAll, register_eq]
    dsimp only
    rw [inductionHypothesis, ← kept]
    rfl

theorem filterMap_number?_of_containsAll {dictionary : Dictionary} {tokens : List String}
    (known : dictionary.containsAll tokens = true) :
    tokens.filterMap dictionary.number? = dictionary.numbersOf tokens := by
  rw [containsAll, List.all_eq_true] at known
  rw [numbersOf, ← List.filterMap_eq_map]
  refine List.filterMap_congr fun token member => ?_
  exact number?_of_mem (List.contains_iff_mem.mp (known token member))

/-! ### What numbers mean -/

theorem numberAt_le (position : Nat) : numberAt position ≤ position := Nat.min_le_left _ _

theorem numberAt_le_greatestNumber (position : Nat) : numberAt position ≤ greatestNumber :=
  Nat.min_le_right _ _

theorem le_of_mem_numbersOf {dictionary : Dictionary} {tokens : List String} {number : Nat}
    (member : number ∈ dictionary.numbersOf tokens) :
    number ≤ dictionary.size ∧ number ≤ greatestNumber := by
  obtain ⟨token, _, rfl⟩ := List.mem_map.mp member
  exact ⟨Nat.le_trans (numberAt_le _) List.idxOf_le_length, numberAt_le_greatestNumber _⟩

theorem numberAt_idxOf {dictionary : Dictionary} (few : dictionary.size ≤ 2 ^ 32) {token : String}
    (member : token ∈ dictionary.tokens) :
    numberAt (dictionary.tokens.idxOf token) = dictionary.tokens.idxOf token := by
  have inside : dictionary.tokens.idxOf token < dictionary.size :=
    List.idxOf_lt_length_of_mem member
  exact Nat.min_eq_left (Nat.le_sub_one_of_lt (Nat.lt_of_lt_of_le inside few))

/-- As long as there are few tokens, their numbers are their positions. -/
theorem numbersOf_eq {dictionary : Dictionary} (few : dictionary.size ≤ 2 ^ 32)
    {tokens : List String} (known : ∀ token ∈ tokens, token ∈ dictionary.tokens) :
    dictionary.numbersOf tokens = tokens.map fun token => dictionary.tokens.idxOf token :=
  List.map_congr_left fun token member => numberAt_idxOf few (known token member)

/-- The token that the number of a token leads back to. -/
def readBack (dictionary : Dictionary) (token : String) : String :=
  (dictionary.token? (numberAt (dictionary.tokens.idxOf token))).getD token

/-- As long as there are few tokens, every number leads back to its token. -/
theorem readBack_eq {dictionary : Dictionary} (few : dictionary.size ≤ 2 ^ 32) {token : String}
    (member : token ∈ dictionary.tokens) : dictionary.readBack token = token := by
  rw [readBack, numberAt_idxOf few member, token?, List.getElem?_idxOf member, Option.getD_some]

/-- A number leads to the same token in every dictionary that has grown out of the one that it was
given by. -/
theorem token?_of_grown {dictionary later : Dictionary} (grown : dictionary.tokens <+: later.tokens)
    {token : String} (member : token ∈ dictionary.tokens) :
    later.token? (numberAt (dictionary.tokens.idxOf token)) = some (dictionary.readBack token) := by
  have inside : numberAt (dictionary.tokens.idxOf token) < dictionary.tokens.length :=
    Nat.lt_of_le_of_lt (numberAt_le _) (List.idxOf_lt_length_of_mem member)
  have there := List.getElem?_eq_getElem inside
  rw [readBack, token?, token?, there, Option.getD_some]
  exact (List.prefix_iff_getElem?.mp grown) _ inside

/-- Looking up the numbers of tokens never fails in a dictionary that has grown. -/
theorem mapM_token?_numbersOf {Cause : Type} {dictionary later : Dictionary}
    (grown : dictionary.tokens <+: later.tokens) {tokens : List String}
    (known : ∀ token ∈ tokens, token ∈ dictionary.tokens) (cause : Nat → Cause) :
    (dictionary.numbersOf tokens).mapM (fun number =>
      match later.token? number with
      | some line => Except.ok line
      | none => .error (cause number)) = .ok (tokens.map dictionary.readBack) := by
  rw [Outcome.mapM_eq_ok_iff, numbersOf, List.forall₂_map_left_iff, List.forall₂_map_right_iff,
    List.forall₂_same]
  intro token member
  rw [token?_of_grown grown (known token member)]

theorem map_readBack {dictionary : Dictionary} (few : dictionary.size ≤ 2 ^ 32)
    {tokens : List String} (known : ∀ token ∈ tokens, token ∈ dictionary.tokens) :
    tokens.map dictionary.readBack = tokens :=
  (List.map_congr_left fun token member => readBack_eq few (known token member)).trans
    (List.map_id' tokens)

end Dictionary

/-! ### Token stores -/

namespace TokenStore

/-- Whether a store is one's own or a shared one of the pool, as every handle is. -/
def LivesIn (pool : Pool) : TokenStore → Prop
  | .own _ => True
  | .shared handle => handle < pool.length

theorem livesIn_empty (pool : Pool) : TokenStore.empty.LivesIn pool := trivial

theorem numbers_register (pool : Pool) (store : TokenStore) (tokens : List String) :
    (store.register pool tokens).numbers =
      ((store.contents pool).extended tokens).numbersOf tokens := by
  cases store with
  | own dictionary => rw [register, Dictionary.registerAll_eq, contents]
  | shared handle =>
    unfold register contents
    dsimp only
    split
    · rename_i known
      rw [Dictionary.extended_of_containsAll known,
        ← Dictionary.filterMap_number?_of_containsAll known]
    · rw [Dictionary.registerAll_eq]

theorem length_pool_register (pool : Pool) (store : TokenStore) (tokens : List String) :
    (store.register pool tokens).pool.length = pool.length := by
  cases store with
  | own dictionary => rfl
  | shared handle =>
    unfold register
    dsimp only
    split
    · rfl
    · exact List.length_set

theorem store_register_shared (pool : Pool) (handle : Nat) (tokens : List String) :
    (register pool (.shared handle) tokens).store = .shared handle := by
  unfold register
  dsimp only
  split <;> rfl

theorem livesIn_register {pool : Pool} {store : TokenStore} (lives : store.LivesIn pool)
    (tokens : List String) :
    (store.register pool tokens).store.LivesIn (store.register pool tokens).pool := by
  have sized := length_pool_register pool store tokens
  cases store with
  | own dictionary => trivial
  | shared handle =>
    rw [store_register_shared]
    exact Nat.lt_of_lt_of_eq lives sized.symm

theorem contents_register {pool : Pool} {store : TokenStore} (lives : store.LivesIn pool)
    (tokens : List String) :
    (store.register pool tokens).store.contents (store.register pool tokens).pool =
      (store.contents pool).extended tokens := by
  cases store with
  | own dictionary => rw [register, Dictionary.registerAll_eq, contents, contents]
  | shared handle =>
    by_cases known : (pool[handle]?.getD .empty).containsAll tokens = true
    · simp only [register, if_pos known, contents]
      exact (Dictionary.extended_of_containsAll known).symm
    · simp only [register, if_neg known, contents, Dictionary.registerAll_eq]
      rw [List.getElem?_set_self lives, Option.getD_some]

end TokenStore

end FlowGraph
