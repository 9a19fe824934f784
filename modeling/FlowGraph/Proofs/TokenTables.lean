/-
This file proves that the numbers of tokens are there to stay. A dictionary is kept in two
tables, a map from tokens to numbers and a list from numbers to tokens, which are changed one
after the other and of which only the list is written to a file. However they grow, the two
tables answer as the dictionary does: the numbers are the positions of the tokens in the order
in which these were first seen, and no number ever changes its meaning. A shared dictionary
gives the same numbers as one of one's own.
-/

import FlowGraph.Proofs.Decoders
import FlowGraph.Proofs.Tokens
import Mathlib.Data.List.Induction
import Mathlib.Data.List.Nodup

namespace FlowGraph

/-! ### Two tables -/

/-- The two tables of a dictionary: the numbers of its tokens, and its tokens in the order of
their numbers. -/
structure TokenTables where
  numbers : Std.ExtTreeMap String Nat
  tokens : List String

namespace TokenTables

/-- The tables without tokens. -/
def empty : TokenTables := ⟨∅, []⟩

/-- The number of a token. -/
def number? (tables : TokenTables) (token : String) : Option Nat := tables.numbers[token]?

/-- Adds a token to both tables unless it has a number, and returns its number. -/
def register (tables : TokenTables) (token : String) : Nat × TokenTables :=
  match tables.number? token with
  | some number => (number, tables)
  | none =>
    let number := Dictionary.numberAt tables.tokens.length
    (number, ⟨tables.numbers.insert token number, tables.tokens ++ [token]⟩)

/-- Adds tokens in order and returns their numbers. -/
def registerAll (tables : TokenTables) : List String → List Nat × TokenTables
  | [] => ([], tables)
  | token :: rest =>
    let (number, next) := tables.register token
    let (numbers, last) := next.registerAll rest
    (number :: numbers, last)

/-- The tables of a list of tokens; repetitions count once. -/
def ofList (tokens : List String) : TokenTables := (empty.registerAll tokens).2

/-- The list of tokens as JSON. -/
def toJson (tables : TokenTables) : Json.Value := .list (tables.tokens.map .text)

/-- Reads both tables from a list of tokens. -/
def decode : Json.Decoder TokenTables := fun depth document =>
  (Json.Decoder.list Json.Decoder.text depth document).map ofList

/-- Whether the tables answer as a dictionary does. -/
structure Mirrors (tables : TokenTables) (dictionary : Dictionary) : Prop where
  tokens : tables.tokens = dictionary.tokens
  number : ∀ token, tables.number? token = dictionary.number? token

end TokenTables

namespace Dictionary

/-! ### Tokens in the order in which they were first seen -/

theorem eq_of_tokens_eq {left right : Dictionary} (equal : left.tokens = right.tokens) :
    left = right := by
  cases left
  cases right
  congr

theorem ofList_append (seen tokens : List String) :
    ofList (seen ++ tokens) = (ofList seen).extended tokens := List.foldl_append

theorem tokens_ofList (seen : List String) : (ofList seen).tokens = seen.eraseDups := by
  induction seen using List.reverseRecOn with
  | nil => rfl
  | append_singleton before token inductionHypothesis =>
    have added : ofList (before ++ [token]) = (ofList before).insert token :=
      ofList_append before [token]
    have known : token ∈ (ofList before).tokens ↔ token ∈ before := by
      rw [inductionHypothesis, List.mem_eraseDups]
    rw [added, List.eraseDups_append, ← inductionHypothesis]
    by_cases member : token ∈ before
    · have nothing : [token].removeAll before = [] := by simp [List.removeAll, member]
      rw [insert_of_mem (known.mpr member), nothing, List.eraseDups_nil, List.append_nil]
    · have all : [token].removeAll before = [token] := by simp [List.removeAll, member]
      rw [tokens_insert_of_not_mem (mt known.mp member), all]
      rfl

/-- The tokens of a dictionary make the same dictionary again. -/
theorem ofList_tokens (dictionary : Dictionary) : ofList dictionary.tokens = dictionary := by
  suffices again : ∀ (seen : Dictionary) (rest : List String), (seen.tokens ++ rest).Nodup →
      (seen.extended rest).tokens = seen.tokens ++ rest from
    eq_of_tokens_eq (again empty dictionary.tokens dictionary.nodup)
  intro seen rest nodup
  induction rest generalizing seen with
  | nil => exact (List.append_nil _).symm
  | cons token rest inductionHypothesis =>
    have fresh : token ∉ seen.tokens := fun member =>
      (List.nodup_append.mp nodup).2.2 token member token List.mem_cons_self rfl
    have added : (seen.insert token).tokens ++ rest = seen.tokens ++ token :: rest := by
      rw [tokens_insert_of_not_mem fresh, List.append_assoc]
      rfl
    rw [← added] at nodup ⊢
    exact inductionHypothesis (seen.insert token) nodup

theorem decode_toJson (dictionary : Dictionary) (depth : Nat) :
    decode (depth + 1) (.ofValue dictionary.toJson) = some dictionary := by
  have tokens := Json.Decoder.texts_ofValue depth dictionary.tokens
  exact (congrArg (Option.map ofList) tokens).trans (congrArg some dictionary.ofList_tokens)

/-- A dictionary is read as it was written. -/
theorem read_toJson (dictionary : Dictionary) :
    decode.read dictionary.toJson.toText = some dictionary :=
  (Json.Decoder.read_toText decode _).trans (dictionary.decode_toJson _)

/-! ### Numbers -/

theorem number?_of_not_mem {dictionary : Dictionary} {token : String}
    (missing : token ∉ dictionary.tokens) : dictionary.number? token = none := by
  rw [number?, List.idxOf?_eq_none_iff.mpr missing]
  rfl

/-- A new token gets a number, and the numbers of the others stay. -/
theorem number?_insert {dictionary : Dictionary} {token : String}
    (fresh : token ∉ dictionary.tokens) (other : String) :
    (dictionary.insert token).number? other =
      if token = other then some (numberAt dictionary.size) else dictionary.number? other := by
  by_cases same : token = other
  · obtain rfl := same
    rw [if_pos rfl, number?_of_mem (mem_tokens_insert dictionary token),
      tokens_insert_of_not_mem fresh, List.idxOf_append_of_notMem fresh, List.idxOf_cons_self]
    rfl
  · have grown := tokens_prefix_insert dictionary token
    rw [if_neg same]
    by_cases member : other ∈ dictionary.tokens
    · rw [number?_of_mem (grown.subset member), number?_of_mem member,
        grown.idxOf_eq_of_mem member]
    · have missing : other ∉ (dictionary.insert token).tokens := by
        rw [tokens_insert_of_not_mem fresh, List.mem_append, List.mem_singleton]
        exact not_or.mpr ⟨member, Ne.symm same⟩
      rw [number?_of_not_mem missing, number?_of_not_mem member]

/-- As long as there are few tokens, numbers and tokens are inverse to each other. -/
theorem number?_eq_some_iff {dictionary : Dictionary} (few : dictionary.size ≤ 2 ^ 32)
    (token : String) (number : Nat) :
    dictionary.number? token = some number ↔ dictionary.token? number = some token := by
  constructor
  · intro numbered
    have member : token ∈ dictionary.tokens := by
      by_contra missing
      rw [number?_of_not_mem missing] at numbered
      exact nomatch numbered
    rw [number?_of_mem member, numberAt_idxOf few member] at numbered
    rw [← Option.some.inj numbered]
    exact List.getElem?_idxOf member
  · intro there
    obtain ⟨inside, rfl⟩ := List.getElem?_eq_some_iff.mp there
    have member := List.getElem_mem inside
    rw [number?_of_mem member, numberAt_idxOf few member,
      dictionary.nodup.idxOf_getElem number inside]

/-- The numbers in use are those below the number of tokens. -/
theorem exists_number?_iff {dictionary : Dictionary} (few : dictionary.size ≤ 2 ^ 32)
    (number : Nat) :
    (∃ token, dictionary.number? token = some number) ↔ number < dictionary.size := by
  simp only [number?_eq_some_iff few, token?, List.getElem?_eq_some_iff]
  constructor
  · rintro ⟨_, inside, _⟩
    exact inside
  · intro inside
    exact ⟨_, inside, rfl⟩

/-- What registering returns for every token stands for this token afterwards. -/
theorem forall₂_registerAll {dictionary : Dictionary} {tokens : List String}
    (few : (dictionary.registerAll tokens).2.size ≤ 2 ^ 32) :
    List.Forall₂ (fun token number =>
        (dictionary.registerAll tokens).2.token? number = some token)
      tokens (dictionary.registerAll tokens).1 := by
  rw [registerAll_eq] at few ⊢
  rw [numbersOf_eq few fun token member => mem_tokens_extended member, List.forall₂_map_right_iff,
    List.forall₂_same]
  exact fun token member => List.getElem?_idxOf (mem_tokens_extended member)

end Dictionary

namespace TokenTables

/-! ### The tables answer as the dictionary does -/

theorem mirrors_empty : empty.Mirrors .empty := ⟨rfl, fun _ => rfl⟩

/-- There is only one pair of tables for a dictionary. -/
theorem Mirrors.unique {left right : TokenTables} {dictionary : Dictionary}
    (first : left.Mirrors dictionary) (second : right.Mirrors dictionary) : left = right := by
  have numbers : left.numbers = right.numbers :=
    Std.ExtTreeMap.ext_getElem? fun token => (first.number token).trans (second.number token).symm
  have tokens : left.tokens = right.tokens := first.tokens.trans second.tokens.symm
  cases left
  cases right
  congr

/-- Adding a token is the same for both. -/
theorem Mirrors.register {tables : TokenTables} {dictionary : Dictionary}
    (mirrors : tables.Mirrors dictionary) (token : String) :
    (tables.register token).1 = (dictionary.register token).1 ∧
      (tables.register token).2.Mirrors (dictionary.register token).2 := by
  unfold TokenTables.register Dictionary.register
  rw [mirrors.number]
  cases numbered : dictionary.number? token with
  | some number => exact ⟨rfl, mirrors⟩
  | none =>
    have fresh : token ∉ dictionary.tokens := fun member => by
      rw [Dictionary.number?_of_mem member] at numbered
      exact nomatch numbered
    have sized : tables.tokens.length = dictionary.size := congrArg List.length mirrors.tokens
    refine ⟨congrArg Dictionary.numberAt sized, ?_, fun other => ?_⟩
    · rw [Dictionary.tokens_insert_of_not_mem fresh, mirrors.tokens]
    · rw [Dictionary.number?_insert fresh, ← mirrors.number, ← sized]
      simp only [TokenTables.number?, Std.ExtTreeMap.getElem?_insert, Std.compare_eq_iff_eq]

theorem Mirrors.registerAll {tables : TokenTables} {dictionary : Dictionary}
    (mirrors : tables.Mirrors dictionary) (tokens : List String) :
    (tables.registerAll tokens).1 = (dictionary.registerAll tokens).1 ∧
      (tables.registerAll tokens).2.Mirrors (dictionary.registerAll tokens).2 := by
  induction tokens generalizing tables dictionary with
  | nil => exact ⟨rfl, mirrors⟩
  | cons token rest inductionHypothesis =>
    obtain ⟨number, next⟩ := mirrors.register token
    obtain ⟨numbers, last⟩ := inductionHypothesis next
    exact ⟨congrArg₂ List.cons number numbers, last⟩

theorem mirrors_ofList (tokens : List String) : (ofList tokens).Mirrors (.ofList tokens) := by
  have last := (mirrors_empty.registerAll tokens).2
  rwa [Dictionary.registerAll_eq] at last

/-- Tables that answer as a dictionary does are read as they were written. -/
theorem Mirrors.read_toJson {tables : TokenTables} {dictionary : Dictionary}
    (mirrors : tables.Mirrors dictionary) : decode.read tables.toJson.toText = some tables := by
  have again : ofList tables.tokens = tables := by
    have reread := mirrors_ofList dictionary.tokens
    rw [Dictionary.ofList_tokens] at reread
    rw [mirrors.tokens]
    exact reread.unique mirrors
  have tokens := Json.Decoder.texts_ofValue (Json.Decoder.nestingLimit - 1) tables.tokens
  refine (Json.Decoder.read_toText decode _).trans ?_
  exact (congrArg (Option.map ofList) tokens).trans (congrArg some again)

end TokenTables

/-! ### Growing -/

/-- The dictionaries of a program and their tables, with the tokens that were given to them in
order. -/
inductive Grown : List String → Dictionary → TokenTables → Prop
  | listed (tokens : List String) : Grown tokens (.ofList tokens) (.ofList tokens)
  | registered {seen : List String} {dictionary : Dictionary} {tables : TokenTables}
      (before : Grown seen dictionary tables) (token : String) :
      Grown (seen ++ [token]) (dictionary.register token).2 (tables.register token).2
  | registeredAll {seen : List String} {dictionary : Dictionary} {tables : TokenTables}
      (before : Grown seen dictionary tables) (tokens : List String) :
      Grown (seen ++ tokens) (dictionary.registerAll tokens).2 (tables.registerAll tokens).2
  | reread {seen : List String} {dictionary again : Dictionary} {tables tablesAgain : TokenTables}
      (before : Grown seen dictionary tables)
      (read : Dictionary.decode.read dictionary.toJson.toText = some again)
      (readTables : TokenTables.decode.read tables.toJson.toText = some tablesAgain) :
      Grown seen again tablesAgain

/-- However a dictionary has grown, it is the one of its tokens, and the tables answer as it
does. -/
theorem Grown.eq_ofList {seen : List String} {dictionary : Dictionary} {tables : TokenTables}
    (grown : Grown seen dictionary tables) :
    dictionary = .ofList seen ∧ tables.Mirrors dictionary := by
  induction grown with
  | listed tokens => exact ⟨rfl, TokenTables.mirrors_ofList tokens⟩
  | registered before token inductionHypothesis =>
    obtain ⟨rfl, mirrors⟩ := inductionHypothesis
    refine ⟨?_, (mirrors.register token).2⟩
    rw [Dictionary.register_eq, Dictionary.ofList_append]
    rfl
  | registeredAll before tokens inductionHypothesis =>
    obtain ⟨rfl, mirrors⟩ := inductionHypothesis
    refine ⟨?_, (mirrors.registerAll tokens).2⟩
    rw [Dictionary.registerAll_eq, Dictionary.ofList_append]
  | reread before read readTables inductionHypothesis =>
    obtain ⟨rfl, mirrors⟩ := inductionHypothesis
    rw [Dictionary.read_toJson, Option.some_inj] at read
    rw [mirrors.read_toJson, Option.some_inj] at readTables
    exact ⟨read.symm, read ▸ readTables ▸ mirrors⟩

/-- What is promised of the answer to tokens that a dictionary is given: nothing that was there
has moved, and every number stands for the very token it was returned for. -/
structure Dictionary.Answers (dictionary : Dictionary) (tokens : List String)
    (numbers : List Nat) (after : Dictionary) : Prop where
  kept : dictionary.tokens <+: after.tokens
  meant : List.Forall₂ (fun token number =>
    after.number? token = some number ∧ after.token? number = some token) tokens numbers

/-- What is promised of a dictionary that was given these tokens in order. -/
structure Steady (seen : List String) (dictionary : Dictionary) (tables : TokenTables) : Prop where
  mirrored : tables.Mirrors dictionary
  distinct : tables.tokens.Nodup
  firstSeen : dictionary.tokens = seen.eraseDups
  inverse : ∀ token number,
    dictionary.number? token = some number ↔ dictionary.token? number = some token
  dense : ∀ number,
    (∃ token, dictionary.number? token = some number) ↔ number < dictionary.tokens.length
  registers : ∀ token, (seen ++ [token]).eraseDups.length ≤ 2 ^ 32 →
    (tables.register token).1 = (dictionary.register token).1 ∧
      dictionary.Answers [token] [(dictionary.register token).1] (dictionary.register token).2
  registersAll : ∀ tokens, (seen ++ tokens).eraseDups.length ≤ 2 ^ 32 →
    (tables.registerAll tokens).1 = (dictionary.registerAll tokens).1 ∧
      dictionary.Answers tokens (dictionary.registerAll tokens).1
        (dictionary.registerAll tokens).2
  rereads : Dictionary.decode.read dictionary.toJson.toText = some dictionary ∧
    TokenTables.decode.read tables.toJson.toText = some tables
  stays : ∀ {more : List String} {later : Dictionary} {laterTables : TokenTables},
    Grown (seen ++ more) later laterTables → ∀ {number : Nat} {token : String},
      dictionary.token? number = some token → later.token? number = some token

theorem Dictionary.answers_registerAll {dictionary : Dictionary} {tokens : List String}
    (few : (dictionary.registerAll tokens).2.size ≤ 2 ^ 32) :
    dictionary.Answers tokens (dictionary.registerAll tokens).1
      (dictionary.registerAll tokens).2 where
  kept := by
    rw [registerAll_eq]
    exact tokens_prefix_extended dictionary tokens
  meant := (forall₂_registerAll few).imp fun token number there =>
    ⟨(number?_eq_some_iff few token number).mpr there, there⟩

theorem Dictionary.size_registerAll_ofList (seen tokens : List String) :
    ((ofList seen).registerAll tokens).2.size = (seen ++ tokens).eraseDups.length := by
  rw [registerAll_eq, ← ofList_append, size, tokens_ofList]

theorem Grown.steady {seen : List String} {dictionary : Dictionary} {tables : TokenTables}
    (grown : Grown seen dictionary tables) (few : seen.eraseDups.length ≤ 2 ^ 32) :
    Steady seen dictionary tables := by
  obtain ⟨rfl, mirrors⟩ := grown.eq_ofList
  have small : (Dictionary.ofList seen).size ≤ 2 ^ 32 := by
    rwa [Dictionary.size, Dictionary.tokens_ofList]
  have answers (tokens : List String) (few : (seen ++ tokens).eraseDups.length ≤ 2 ^ 32) :=
    Dictionary.answers_registerAll
      (Nat.le_trans (Nat.le_of_eq (Dictionary.size_registerAll_ofList seen tokens)) few)
  exact {
    mirrored := mirrors
    distinct := by
      rw [mirrors.tokens]
      exact (Dictionary.ofList seen).nodup
    firstSeen := Dictionary.tokens_ofList seen
    inverse := Dictionary.number?_eq_some_iff small
    dense := Dictionary.exists_number?_iff small
    registers := fun token few => ⟨(mirrors.register token).1, answers [token] few⟩
    registersAll := fun tokens few => ⟨(mirrors.registerAll tokens).1, answers tokens few⟩
    rereads := ⟨Dictionary.read_toJson _, mirrors.read_toJson⟩
    stays := fun later number token there => by
      obtain ⟨rfl, _⟩ := later.eq_ofList
      obtain ⟨inside, rfl⟩ := List.getElem?_eq_some_iff.mp there
      rw [Dictionary.ofList_append]
      exact List.prefix_iff_getElem?.mp (Dictionary.tokens_prefix_extended _ _) number inside }

/-! ### Shared dictionaries -/

namespace TokenStore

/-- What several requests in a row lead to: the numbers of each, the store and the pool. -/
structure RegisteredEach where
  numbers : List (List Nat)
  store : TokenStore
  pool : Pool

/-- Adds the tokens of several requests to the store, one request after the other. -/
def registerEach (pool : Pool) (store : TokenStore) : List (List String) → RegisteredEach
  | [] => ⟨[], store, pool⟩
  | tokens :: rest =>
    let first := store.register pool tokens
    let others := registerEach first.pool first.store rest
    ⟨first.numbers :: others.numbers, others.store, others.pool⟩

/-- Two stores with the same contents answer alike, and have the same contents afterwards. -/
theorem registerEach_alike {leftPool rightPool : Pool} {left right : TokenStore}
    (leftLives : left.LivesIn leftPool) (rightLives : right.LivesIn rightPool)
    (alike : left.contents leftPool = right.contents rightPool) (requests : List (List String)) :
    (registerEach leftPool left requests).numbers =
        (registerEach rightPool right requests).numbers ∧
      (registerEach leftPool left requests).store.contents
          (registerEach leftPool left requests).pool =
        (registerEach rightPool right requests).store.contents
          (registerEach rightPool right requests).pool := by
  induction requests generalizing leftPool rightPool left right with
  | nil => exact ⟨rfl, alike⟩
  | cons tokens rest inductionHypothesis =>
    have numbers : (left.register leftPool tokens).numbers =
        (right.register rightPool tokens).numbers := by
      rw [numbers_register, numbers_register, alike]
    obtain ⟨others, last⟩ := inductionHypothesis (livesIn_register leftLives tokens)
      (livesIn_register rightLives tokens)
      (by rw [contents_register leftLives, contents_register rightLives, alike])
    exact ⟨congrArg₂ List.cons numbers others, last⟩

end TokenStore

/-- Token numbers are there to stay, whatever a dictionary goes through, and it does not matter
whether it is shared. -/
theorem tokens_steady_and_shared_alike {seen : List String} {dictionary : Dictionary}
    {tables : TokenTables} (grown : Grown seen dictionary tables)
    (few : seen.eraseDups.length ≤ 2 ^ 32) {pool : Pool} {handle : Nat}
    (valid : handle < pool.length) (requests : List (List String)) :
    Steady seen dictionary tables ∧
      (let shared := TokenStore.registerEach pool (.shared handle) requests
       let own := TokenStore.registerEach pool (.own pool[handle]) requests
       shared.numbers = own.numbers ∧
         shared.store.contents shared.pool = own.store.contents own.pool) := by
  have shared : (TokenStore.shared handle).LivesIn pool := valid
  have own : (TokenStore.own pool[handle]).LivesIn pool := trivial
  refine ⟨grown.steady few, TokenStore.registerEach_alike shared own ?_ requests⟩
  rw [TokenStore.contents, TokenStore.contents, List.getElem?_eq_getElem valid, Option.getD_some]
  rfl

/-- The tokens of a small shared dictionary. -/
def smallPool : Pool := [.ofList ["ret"]]

/-- The dictionary of `ret` is given `nop` and then three tokens at once, and a shared one is asked
for a token that it has and for a new one. -/
theorem smallPool_steady_and_shared_alike :
    Steady (["ret"] ++ ["nop"] ++ ["ret", "hlt", "ret"])
        (((Dictionary.ofList ["ret"]).register "nop").2.registerAll ["ret", "hlt", "ret"]).2
        (((TokenTables.ofList ["ret"]).register "nop").2.registerAll ["ret", "hlt", "ret"]).2 ∧
      (TokenStore.registerEach smallPool (.shared 0) [["ret", "ret"], ["nop"]]).numbers =
        [[0, 0], [1]] := by
  have grown := ((Grown.listed ["ret"]).registered "nop").registeredAll ["ret", "hlt", "ret"]
  obtain ⟨steady, alike, _⟩ := tokens_steady_and_shared_alike grown (by decide)
    (show 0 < smallPool.length from Nat.zero_lt_one) [["ret", "ret"], ["nop"]]
  refine ⟨steady, alike.trans ?_⟩
  decide

end FlowGraph
