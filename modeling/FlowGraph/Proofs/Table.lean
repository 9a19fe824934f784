/-
This file proves what tables by address are as lists. The addresses of a table
ascend and no two of them are equal, so the contents of a table are its values
at these addresses in turn, and the rank of an address is its position among
them. It also says what is found in a table after a list of contents was put
into it one by one, each under an address of its own, and that such contents
join those that were there.
-/

import FlowGraph.Edge
import Mathlib.Data.List.Nodup

namespace FlowGraph.AddressMap

variable {Content Image : Type}

/-! ### Single addresses -/

theorem getElem?_insert (table : AddressMap Content) (address other : Address)
    (content : Content) :
    (table.insert address content)[other]? =
      if address = other then some content else table[other]? := by
  rw [Std.ExtTreeMap.getElem?_insert]
  simp only [Std.compare_eq_iff_eq]

theorem getElem?_modify (table : AddressMap Content) (address other : Address)
    (change : Content → Content) :
    (table.modify address change)[other]? =
      if address = other then table[other]?.map change else table[other]? := by
  rw [Std.ExtTreeMap.getElem?_modify]
  simp only [Std.compare_eq_iff_eq]
  split
  · rename_i same
    rw [same]
  · rfl

theorem getElem?_erase (table : AddressMap Content) (address other : Address) :
    (table.erase address)[other]? = if address = other then none else table[other]? := by
  rw [Std.ExtTreeMap.getElem?_erase]
  simp only [Std.compare_eq_iff_eq]

theorem contains_iff (table : AddressMap Content) (address : Address) :
    table.contains address = true ↔ ∃ content, table[address]? = some content := by
  rw [Std.ExtTreeMap.contains_eq_isSome_getElem?, Option.isSome_iff_exists]

theorem contains_eq_false_iff (table : AddressMap Content) (address : Address) :
    table.contains address = false ↔ table[address]? = none := by
  rw [Std.ExtTreeMap.contains_eq_isSome_getElem?, Option.isSome_eq_false_iff,
    Option.isNone_iff_eq_none]

/-! ### Addresses and contents in order -/

theorem addresses_eq_keys (table : AddressMap Content) : table.addresses = table.keys :=
  Std.ExtTreeMap.map_fst_toList_eq_keys

theorem length_addresses (table : AddressMap Content) :
    table.addresses.length = table.size := by
  rw [addresses_eq_keys, Std.ExtTreeMap.length_keys]

theorem length_contents (table : AddressMap Content) : table.contents.length = table.size := by
  rw [contents, List.length_map, Std.ExtTreeMap.length_toList]

/-- The addresses ascend. -/
theorem addresses_ascend (table : AddressMap Content) :
    table.addresses.Pairwise fun first second => first < second := by
  rw [addresses_eq_keys]
  exact Std.ExtTreeMap.ordered_keys.imp fun less => Std.compare_eq_lt.mp less

theorem nodup_addresses (table : AddressMap Content) : table.addresses.Nodup :=
  table.addresses_ascend.imp fun less => UInt64.ne_of_lt less

/-- The addresses are the only ascending list of themselves. -/
theorem addresses_eq_of_ascending {table : AddressMap Content} {addresses : List Address}
    (ascend : addresses.Pairwise fun first second => first < second)
    (same : ∀ address, address ∈ table.addresses ↔ address ∈ addresses) :
    table.addresses = addresses := by
  have distinct : addresses.Nodup := ascend.imp fun less => UInt64.ne_of_lt less
  refine List.Perm.eq_of_pairwise (fun first second _ _ less greater => ?_) table.addresses_ascend
    ascend ((List.perm_ext_iff_of_nodup table.nodup_addresses distinct).mpr same)
  exact absurd greater (UInt64.lt_asymm less)

theorem mem_addresses (table : AddressMap Content) (address : Address) :
    address ∈ table.addresses ↔ ∃ content, table[address]? = some content := by
  rw [addresses_eq_keys, Std.ExtTreeMap.mem_keys, Std.ExtTreeMap.mem_iff_isSome_getElem?,
    Option.isSome_iff_exists]

theorem mem_addresses_of_getElem? {table : AddressMap Content} {address : Address}
    {content : Content} (found : table[address]? = some content) : address ∈ table.addresses :=
  (mem_addresses table address).mpr ⟨content, found⟩

theorem mem_contents (table : AddressMap Content) (content : Content) :
    content ∈ table.contents ↔ ∃ address : Address, table[address]? = some content := by
  simp only [contents, List.mem_map, Prod.exists, exists_eq_right,
    Std.ExtTreeMap.mem_toList_iff_getElem?_eq_some]

theorem mem_contents_of_getElem? {table : AddressMap Content} {address : Address}
    {content : Content} (found : table[address]? = some content) : content ∈ table.contents :=
  (mem_contents table content).mpr ⟨address, found⟩

/-- A table whose contents know their addresses has the contents that it gives at these. -/
theorem mem_contents_of_keyed {table : AddressMap Content} {key : Content → Address}
    (keyed : ∀ {address : Address} {content : Content},
      table[address]? = some content → key content = address) {content : Content} :
    content ∈ table.contents ↔ table[key content]? = some content := by
  rw [mem_contents]
  constructor
  · rintro ⟨address, found⟩
    rw [keyed found, found]
  · exact fun found => ⟨_, found⟩

/-- An address and the content at the same position belong together. -/
theorem getElem?_contents (table : AddressMap Content) (position : Nat) :
    table.contents[position]? =
      table.addresses[position]?.bind fun address : Address => table[address]? := by
  rw [contents, addresses, List.getElem?_map, List.getElem?_map]
  cases found : table.toList[position]? with
  | none => rfl
  | some entry =>
    have member : entry ∈ table.toList := List.mem_of_getElem? found
    exact (Std.ExtTreeMap.mem_toList_iff_getElem?_eq_some.mp member).symm

theorem addresses_eq_map_contents {table : AddressMap Content} {key : Content → Address}
    (keyed : ∀ {address content}, table[address]? = some content → key content = address) :
    table.addresses = table.contents.map key := by
  rw [addresses, contents, List.map_map]
  refine List.map_congr_left fun entry member => ?_
  exact (keyed (Std.ExtTreeMap.mem_toList_iff_getElem?_eq_some.mp member)).symm

theorem contents_map (table : AddressMap Content) (change : Content → Image) :
    contents (table.map fun _ content => change content) = table.contents.map change := by
  rw [contents, Std.ExtTreeMap.toList_map, contents, List.map_map, List.map_map]
  rfl

theorem addresses_map (table : AddressMap Content) (change : Content → Image) :
    addresses (table.map fun _ content => change content) = table.addresses := by
  rw [addresses, Std.ExtTreeMap.toList_map, addresses, List.map_map]
  rfl

/-! ### Ranks -/

/-- A table of distinct keys by position. -/
theorem getElem?_ofList_zipIdx {Key : Type} [Ord Key] [Std.TransOrd Key] [Std.LawfulEqOrd Key]
    {keys : List Key} (distinct : keys.Nodup) (key : Key) (number : Nat) :
    (Std.ExtTreeMap.ofList keys.zipIdx)[key]? = some number ↔ keys[number]? = some key := by
  have pairwise : keys.zipIdx.Pairwise fun first second => ¬ compare first.1 second.1 = .eq := by
    rw [← List.zipIdx_map_fst 0 keys, List.Nodup, List.pairwise_map] at distinct
    exact distinct.imp fun different => by rwa [Std.compare_eq_iff_eq]
  have listed (place : Nat) : keys[place]? = some key →
      (Std.ExtTreeMap.ofList keys.zipIdx)[key]? = some place := fun found =>
    Std.ExtTreeMap.getElem?_ofList_of_mem (Std.compare_eq_iff_eq.mpr rfl) pairwise
      (List.mem_zipIdx_iff_getElem?.mpr found)
  refine ⟨fun found => ?_, listed number⟩
  have contained : (Std.ExtTreeMap.ofList keys.zipIdx).contains key = true := by
    rw [Std.ExtTreeMap.contains_eq_isSome_getElem?, found]
    rfl
  classical
  rw [Std.ExtTreeMap.contains_ofList, List.zipIdx_map_fst, List.contains_iff_mem] at contained
  obtain ⟨place, atPlace⟩ := List.getElem?_of_mem contained
  rw [listed place atPlace, Option.some.injEq] at found
  exact found ▸ atPlace

/-- The rank of an address is its position among the addresses. -/
theorem getElem?_ranks (table : AddressMap Content) (address : Address) (number : Nat) :
    table.ranks[address]? = some number ↔ table.addresses[number]? = some address :=
  getElem?_ofList_zipIdx table.nodup_addresses address number

/-- The position of an address among those of a table. -/
def rank (table : AddressMap Content) (address : Address) : Nat := table.addresses.idxOf address

theorem getElem?_rank {table : AddressMap Content} {address : Address}
    (member : address ∈ table.addresses) : table.addresses[table.rank address]? = some address :=
  List.getElem?_idxOf member

theorem getElem?_ranks_of_mem {table : AddressMap Content} {address : Address}
    (member : address ∈ table.addresses) : table.ranks[address]? = some (table.rank address) :=
  (getElem?_ranks table address _).mpr (getElem?_rank member)

theorem getElem?_ranks_of_not_mem {table : AddressMap Content} {address : Address}
    (absent : address ∉ table.addresses) : table.ranks[address]? = none := by
  cases found : table.ranks[address]? with
  | none => rfl
  | some number =>
    exact absurd (List.mem_of_getElem? ((getElem?_ranks table address number).mp found)) absent

theorem rank_lt_size {table : AddressMap Content} {address : Address}
    (member : address ∈ table.addresses) : table.rank address < table.size := by
  rw [← length_addresses]
  exact List.idxOf_lt_length_of_mem member

theorem rank_eq {table : AddressMap Content} {address : Address} {number : Nat}
    (found : table.addresses[number]? = some address) : table.rank address = number := by
  have ranked := getElem?_ranks_of_mem (List.mem_of_getElem? found)
  rw [(getElem?_ranks table address number).mpr found, Option.some.injEq] at ranked
  exact ranked.symm

theorem rank_inj {table : AddressMap Content} {first second : Address}
    (firstMember : first ∈ table.addresses) (secondMember : second ∈ table.addresses)
    (same : table.rank first = table.rank second) : first = second := by
  have found := getElem?_rank firstMember
  rw [same, getElem?_rank secondMember, Option.some.injEq] at found
  exact found.symm

/-- Ranks are in the same order as addresses. -/
theorem rank_lt_rank {table : AddressMap Content} {first second : Address}
    (firstMember : first ∈ table.addresses) (secondMember : second ∈ table.addresses)
    (less : first < second) : table.rank first < table.rank second := by
  refine Nat.lt_of_not_le fun notLess => ?_
  rcases Nat.lt_or_eq_of_le notLess with greater | same
  · obtain ⟨secondInside, secondThere⟩ := List.getElem?_eq_some_iff.mp (getElem?_rank secondMember)
    obtain ⟨firstInside, firstThere⟩ := List.getElem?_eq_some_iff.mp (getElem?_rank firstMember)
    have ordered := List.pairwise_iff_getElem.mp table.addresses_ascend _ _ secondInside
      firstInside greater
    rw [secondThere, firstThere] at ordered
    exact UInt64.lt_asymm less ordered
  · exact UInt64.ne_of_lt less (rank_inj firstMember secondMember same.symm)

/-- The content at a position is that of the address with this rank. -/
theorem getElem?_contents_eq_some_iff {table : AddressMap Content} {number : Nat}
    {content : Content} :
    table.contents[number]? = some content ↔
      ∃ address : Address, table[address]? = some content ∧ table.rank address = number := by
  rw [getElem?_contents, Option.bind_eq_some_iff]
  constructor
  · rintro ⟨address, there, found⟩
    exact ⟨address, found, rank_eq there⟩
  · rintro ⟨address, found, rfl⟩
    exact ⟨address, getElem?_rank (mem_addresses_of_getElem? found), found⟩

/-! ### Filling a table -/

/-- A table into which contents were put in turn, no two under one address. -/
theorem getElem?_foldl_insert (key : Content → Address) {contents : List Content}
    (distinct : (contents.map key).Nodup) (table : AddressMap Content) (address : Address)
    (found : Content) :
    (contents.foldl (fun table content => table.insert (key content) content) table)[address]? =
        some found ↔
      (found ∈ contents ∧ key found = address) ∨
        (address ∉ contents.map key ∧ table[address]? = some found) := by
  induction contents generalizing table with
  | nil => simp
  | cons content rest inductionHypothesis =>
    rw [List.map_cons, List.nodup_cons] at distinct
    rw [List.foldl_cons, inductionHypothesis distinct.2, getElem?_insert, List.map_cons,
      List.mem_cons, List.mem_cons]
    by_cases here : key content = address
    · rw [if_pos here]
      subst here
      constructor
      · rintro (⟨member, same⟩ | ⟨_, same⟩)
        · exact absurd (same ▸ List.mem_map_of_mem member) distinct.1
        · exact Or.inl ⟨Or.inl (Option.some.inj same).symm, by rw [Option.some.inj same]⟩
      · rintro (⟨rfl | member, same⟩ | ⟨absent, _⟩)
        · exact Or.inr ⟨distinct.1, rfl⟩
        · exact absurd (same ▸ List.mem_map_of_mem member) distinct.1
        · exact absurd (Or.inl rfl) absent
    · rw [if_neg here]
      constructor
      · rintro (⟨member, same⟩ | ⟨absent, same⟩)
        · exact Or.inl ⟨Or.inr member, same⟩
        · exact Or.inr ⟨fun either => either.elim (fun equal => here equal.symm) absent, same⟩
      · rintro (⟨rfl | member, same⟩ | ⟨absent, same⟩)
        · exact absurd same here
        · exact Or.inl ⟨member, same⟩
        · exact Or.inr ⟨fun member => absent (Or.inr member), same⟩

/-- A content that is put under a free address joins the others. -/
theorem contents_insert_perm {table : AddressMap Content} {address : Address}
    (free : table[address]? = none) (content : Content) :
    (contents (table.insert address content)).Perm (content :: table.contents) := by
  have distinct (table : AddressMap Content) : table.toList.Nodup :=
    List.Nodup.of_map _ table.nodup_addresses
  have absent : (address, content) ∉ table.toList := fun member => by
    rw [Std.ExtTreeMap.mem_toList_iff_getElem?_eq_some, free] at member
    cases member
  have entries :
      (table.insert address content).toList.Perm ((address, content) :: table.toList) := by
    refine (List.perm_ext_iff_of_nodup (distinct _)
      (List.nodup_cons.mpr ⟨absent, distinct table⟩)).mpr fun entry => ?_
    obtain ⟨home, other⟩ := entry
    rw [Std.ExtTreeMap.mem_toList_iff_getElem?_eq_some, getElem?_insert, List.mem_cons,
      Std.ExtTreeMap.mem_toList_iff_getElem?_eq_some, Prod.mk.injEq]
    by_cases here : address = home
    · rw [if_pos here, ← here, free]
      simp [eq_comm]
    · rw [if_neg here]
      simp [Ne.symm here]
  exact entries.map _

/-- Contents that are put under free addresses, no two under one, join those of a table. -/
theorem contents_foldl_insert_perm (key : Content → Address) {contents : List Content}
    (distinct : (contents.map key).Nodup) {table : AddressMap Content}
    (free : ∀ content ∈ contents, table[key content]? = none) :
    (AddressMap.contents
      (contents.foldl (fun table content => table.insert (key content) content) table)).Perm
        (table.contents ++ contents) := by
  induction contents generalizing table with
  | nil => rw [List.foldl_nil, List.append_nil]
  | cons content rest inductionHypothesis =>
    rw [List.map_cons, List.nodup_cons] at distinct
    rw [List.forall_mem_cons] at free
    have stillFree (other : Content) (member : other ∈ rest) :
        (table.insert (key content) content)[key other]? = none := by
      have different : key content ≠ key other := fun same =>
        distinct.1 (same ▸ List.mem_map_of_mem member)
      rw [getElem?_insert, if_neg different, free.2 other member]
    rw [List.foldl_cons]
    refine (inductionHypothesis distinct.2 stillFree).trans ?_
    exact ((contents_insert_perm free.1 content).append_right rest).trans List.perm_middle.symm

end FlowGraph.AddressMap
