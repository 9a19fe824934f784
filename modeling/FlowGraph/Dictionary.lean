/-
This file defines dictionaries of tokens. A token is the normal form of a line, and its number
is its position among the tokens in the order in which they were first seen. Dictionaries can
be shared: the shared ones live in a pool, whoever holds a handle sees what everyone has put
in, and the pool is passed along with every operation that may add a token.
-/

import FlowGraph.Json.Decoder

namespace FlowGraph

/-- Tokens in the order of their numbers, each of them once. -/
structure Dictionary where
  tokens : List String
  nodup : tokens.Nodup
  deriving DecidableEq

namespace Dictionary

/-- The dictionary without tokens. -/
def empty : Dictionary := ⟨[], List.nodup_nil⟩

instance : Inhabited Dictionary := ⟨empty⟩

/-- The number of tokens. -/
def size (dictionary : Dictionary) : Nat := dictionary.tokens.length

/-- The greatest token number; all later positions share it. -/
def greatestNumber : Nat := UInt32.size - 1

/-- The token number of a position. -/
def numberAt (position : Nat) : Nat := min position greatestNumber

/-- The number of a token. -/
def number? (dictionary : Dictionary) (token : String) : Option Nat :=
  (dictionary.tokens.idxOf? token).map numberAt

/-- The token of a number. -/
def token? (dictionary : Dictionary) (number : Nat) : Option String := dictionary.tokens[number]?

/-- Whether all these tokens have a number. -/
def containsAll (dictionary : Dictionary) (tokens : List String) : Bool :=
  tokens.all fun token => dictionary.tokens.contains token

/-- Adds a token at the end unless it is there. -/
def insert (dictionary : Dictionary) (token : String) : Dictionary :=
  if member : token ∈ dictionary.tokens then dictionary
  else ⟨dictionary.tokens ++ [token], by
    rw [List.nodup_append]
    refine ⟨dictionary.nodup, by simp, ?_⟩
    intro first firstMember second secondMember equal
    rw [List.mem_singleton] at secondMember
    exact member (secondMember ▸ equal ▸ firstMember)⟩

/-- Adds a token and returns its number. -/
def register (dictionary : Dictionary) (token : String) : Nat × Dictionary :=
  match dictionary.number? token with
  | some number => (number, dictionary)
  | none => (numberAt dictionary.size, dictionary.insert token)

/-- Adds tokens in order and returns their numbers. -/
def registerAll (dictionary : Dictionary) : List String → List Nat × Dictionary
  | [] => ([], dictionary)
  | token :: rest =>
    let (number, next) := dictionary.register token
    let (numbers, last) := next.registerAll rest
    (number :: numbers, last)

/-- The dictionary of a list of tokens; repetitions count once. -/
def ofList (tokens : List String) : Dictionary := tokens.foldl insert empty

/-- The dictionary as JSON. -/
def toJson (dictionary : Dictionary) : Json.Value := .list (dictionary.tokens.map .text)

/-- Reads a dictionary from JSON. -/
def decode : Json.Decoder Dictionary := fun depth document =>
  (Json.Decoder.list Json.Decoder.text depth document).map ofList

end Dictionary

/-- The shared dictionaries, by handle. -/
abbrev Pool := List Dictionary

/-- A dictionary of one's own, or a handle to a shared one. -/
inductive TokenStore where
  | own (dictionary : Dictionary)
  | shared (handle : Nat)

namespace TokenStore

/-- The store without tokens. -/
def empty : TokenStore := .own .empty

instance : Inhabited TokenStore := ⟨empty⟩

/-- Whether the store is shared. -/
def isShared : TokenStore → Bool
  | .own _ => false
  | .shared _ => true

/-- What the store holds at the moment. -/
def contents (pool : Pool) : TokenStore → Dictionary
  | .own dictionary => dictionary
  | .shared handle => pool[handle]?.getD .empty

/-- Adds a shared dictionary to the pool. -/
def share (pool : Pool) (dictionary : Dictionary) : TokenStore × Pool :=
  (.shared pool.length, pool ++ [dictionary])

/-- What registering tokens leads to: their numbers, the store and the pool. -/
structure Registered where
  numbers : List Nat
  store : TokenStore
  pool : Pool

/-- Adds tokens to the store. A shared store that has them all already is only read. -/
def register (pool : Pool) (store : TokenStore) (tokens : List String) : Registered :=
  match store with
  | .own dictionary =>
    let (numbers, next) := dictionary.registerAll tokens
    ⟨numbers, .own next, pool⟩
  | .shared handle =>
    let dictionary := pool[handle]?.getD .empty
    if dictionary.containsAll tokens then ⟨tokens.filterMap dictionary.number?, store, pool⟩
    else
      let (numbers, next) := dictionary.registerAll tokens
      ⟨numbers, store, pool.set handle next⟩

/-- Whether two stores hold the same tokens in the same order. -/
def same (pool : Pool) (left right : TokenStore) : Bool :=
  match left, right with
  | .shared leftHandle, .shared rightHandle =>
    leftHandle == rightHandle || left.contents pool == right.contents pool
  | _, _ => left.contents pool == right.contents pool

/-- Whether two handles name the same dictionary; only shared stores have handles. -/
def sameHandle? : TokenStore → TokenStore → Option Bool
  | .shared left, .shared right => some (left == right)
  | _, _ => none

/-- The tokens in the order of their numbers. -/
def tokens (pool : Pool) (store : TokenStore) : List String := (store.contents pool).tokens

end TokenStore

end FlowGraph
