/-
This file proves that the functions of a compact graph have names of their own.
A name that is taken gets a number that makes it free; among more numbers than
there are names one does. So the table of names has an entry for every function,
the names by number are read off it, and names that were distinct before stay as
they are.
-/

import FlowGraph.Compact.Build
import FlowGraph.Proofs.Table
import Mathlib.Data.List.Nodup
import Mathlib.Data.List.Perm.Subperm
import Std.Data.String.ToNat

namespace FlowGraph.Compact

/-! ### Free names -/

theorem numberedName_injective (name : String) : Function.Injective (numberedName name) := by
  intro first second equal
  exact Nat.repr_injective ((String.append_right_inj _).mp equal)

theorem freeName_of_free {taken : Std.ExtTreeMap String Nat} {name : String} (free : name ∉ taken) :
    freeName taken name = name := by
  rw [Std.ExtTreeMap.mem_iff_contains, Bool.not_eq_true] at free
  rw [freeName, free, Bool.not_false, if_pos rfl]

/-- Among as many numbers as there are names and one more, one makes a name free. -/
theorem exists_suffix (taken : Std.ExtTreeMap String Nat) (name : String) :
    ∃ suffix, ((List.range (taken.size + 1)).find? fun suffix =>
      !taken.contains (numberedName name suffix)) = some suffix := by
  rw [← Option.ne_none_iff_exists']
  intro noneFree
  -- All candidates are taken, and there is one more of them than there are names.
  have allTaken : (List.range (taken.size + 1)).map (numberedName name) ⊆ taken.keys := by
    intro candidate member
    obtain ⟨suffix, inside, rfl⟩ := List.mem_map.mp member
    have := List.find?_eq_none.mp noneFree suffix inside
    exact Std.ExtTreeMap.mem_keys.mpr (by simpa using this)
  have distinct : ((List.range (taken.size + 1)).map (numberedName name)).Nodup :=
    List.nodup_range.map (numberedName_injective name)
  have := (List.subperm_of_subset distinct allTaken).length_le
  rw [List.length_map, List.length_range, Std.ExtTreeMap.length_keys] at this
  omega

/-- A taken name gets the least number that makes it free. -/
theorem exists_freeName_eq {taken : Std.ExtTreeMap String Nat} {name : String}
    (used : name ∈ taken) : ∃ suffix, freeName taken name = numberedName name suffix ∧
      numberedName name suffix ∉ taken ∧
      ∀ smaller < suffix, numberedName name smaller ∈ taken := by
  obtain ⟨suffix, found⟩ := exists_suffix taken name
  obtain ⟨free, _, least⟩ := List.find?_range_eq_some.mp found
  refine ⟨suffix, ?_, ?_, fun smaller less => ?_⟩
  · rw [freeName, Std.ExtTreeMap.mem_iff_contains.mp used, Bool.not_true,
      if_neg Bool.false_ne_true, found]
  · rwa [Std.ExtTreeMap.mem_iff_contains, Bool.not_eq_true, ← Bool.not_eq_true']
  · have taken := least smaller less
    rwa [Bool.not_not, ← Std.ExtTreeMap.mem_iff_contains] at taken

theorem freeName_not_mem (taken : Std.ExtTreeMap String Nat) (name : String) :
    freeName taken name ∉ taken := by
  by_cases used : name ∈ taken
  · obtain ⟨suffix, same, free, _⟩ := exists_freeName_eq used
    rwa [same]
  · rwa [freeName_of_free used]

theorem freeName_ne_empty {taken : Std.ExtTreeMap String Nat} {name : String}
    (present : name ≠ "") : freeName taken name ≠ "" := by
  unfold freeName
  split
  · exact present
  · split
    · intro empty
      have front := (String.append_eq_empty_iff.mp empty).1
      exact present (String.append_eq_empty_iff.mp front).1
    · exact present

/-! ### Numbering names -/

/-- The names that wanted names are numbered under, where some names are taken. -/
def assignedNames (taken : Std.ExtTreeMap String Nat) (start : Nat) : List String → List String
  | [] => []
  | wanted :: rest =>
    freeName taken wanted ::
      assignedNames (taken.insert (freeName taken wanted) start) (start + 1) rest

/-- The names of functions, in order. -/
def namesOf (functions : List Function) : List String :=
  assignedNames ∅ 0 (functions.map Function.displayName)

theorem length_assignedNames (taken : Std.ExtTreeMap String Nat) (start : Nat)
    (wanted : List String) : (assignedNames taken start wanted).length = wanted.length := by
  induction wanted generalizing taken start with
  | nil => rfl
  | cons name rest inductionHypothesis =>
    rw [assignedNames, List.length_cons, inductionHypothesis, List.length_cons]

theorem length_namesOf (functions : List Function) :
    (namesOf functions).length = functions.length := by
  rw [namesOf, length_assignedNames, List.length_map]

/-- Assigned names are distinct, and none of them was taken before. -/
theorem assignedNames_distinct (taken : Std.ExtTreeMap String Nat) (start : Nat)
    (wanted : List String) :
    (assignedNames taken start wanted).Nodup ∧
      ∀ name ∈ assignedNames taken start wanted, name ∉ taken := by
  induction wanted generalizing taken start with
  | nil => exact ⟨List.nodup_nil, fun _ member => (List.not_mem_nil member).elim⟩
  | cons wanted rest inductionHypothesis =>
    obtain ⟨restDistinct, restFree⟩ :=
      inductionHypothesis (taken.insert (freeName taken wanted) start) (start + 1)
    have apart (name : String)
        (member : name ∈
          assignedNames (taken.insert (freeName taken wanted) start) (start + 1) rest) :
        name ≠ freeName taken wanted ∧ name ∉ taken := by
      have free := restFree name member
      rw [Std.ExtTreeMap.mem_insert, not_or, Std.compare_eq_iff_eq] at free
      exact ⟨fun same => free.1 same.symm, free.2⟩
    rw [assignedNames, List.nodup_cons, List.forall_mem_cons]
    exact ⟨⟨fun member => (apart _ member).1 rfl, restDistinct⟩, freeName_not_mem taken wanted,
      fun name member => (apart name member).2⟩

theorem nodup_namesOf (functions : List Function) : (namesOf functions).Nodup :=
  (assignedNames_distinct _ _ _).1

theorem displayName_ne_empty (function : Function) : function.displayName ≠ "" := by
  unfold Function.displayName Function.symbol?
  cases named : function.name.filter fun name => !name.isEmpty with
  | none =>
    intro empty
    exact absurd (String.append_eq_empty_iff.mp empty).1 (by decide)
  | some name =>
    have present := (Option.filter_eq_some_iff.mp named).2
    rw [Bool.not_eq_true', ← Bool.not_eq_true, String.isEmpty_iff] at present
    exact present

theorem ne_empty_of_mem_assignedNames {taken : Std.ExtTreeMap String Nat} {start : Nat}
    {wanted : List String} (present : ∀ name ∈ wanted, name ≠ "") :
    ∀ name ∈ assignedNames taken start wanted, name ≠ "" := by
  induction wanted generalizing taken start with
  | nil => exact fun _ member => (List.not_mem_nil member).elim
  | cons name rest inductionHypothesis =>
    rw [List.forall_mem_cons] at present
    rw [assignedNames, List.forall_mem_cons]
    exact ⟨freeName_ne_empty present.1, inductionHypothesis present.2⟩

theorem ne_empty_of_mem_namesOf {functions : List Function} {name : String}
    (member : name ∈ namesOf functions) : name ≠ "" := by
  refine ne_empty_of_mem_assignedNames (fun wanted listed => ?_) name member
  obtain ⟨function, _, rfl⟩ := List.mem_map.mp listed
  exact displayName_ne_empty function

/-- Wanted names that are distinct and free are assigned as they are. -/
theorem assignedNames_of_nodup {taken : Std.ExtTreeMap String Nat} {start : Nat}
    {wanted : List String} (distinct : wanted.Nodup) (free : ∀ name ∈ wanted, name ∉ taken) :
    assignedNames taken start wanted = wanted := by
  induction wanted generalizing taken start with
  | nil => rfl
  | cons name rest inductionHypothesis =>
    obtain ⟨different, restDistinct⟩ := List.nodup_cons.mp distinct
    obtain ⟨nameFree, restFree⟩ := List.forall_mem_cons.mp free
    rw [assignedNames, freeName_of_free nameFree, inductionHypothesis restDistinct]
    intro other member inserted
    rw [Std.ExtTreeMap.mem_insert, Std.compare_eq_iff_eq] at inserted
    rcases inserted with same | before
    · exact different (same ▸ member)
    · exact restFree other member before

theorem foldl_numbering (functions : List Function) (taken : Std.ExtTreeMap String Nat)
    (start : Nat) :
    (functions.zipIdx start).foldl
        (fun taken entry => taken.insert (freeName taken entry.1.displayName) entry.2) taken =
      taken.insertMany
        ((assignedNames taken start (functions.map Function.displayName)).zipIdx start) := by
  induction functions generalizing taken start with
  | nil => exact Std.ExtTreeMap.insertMany_nil.symm
  | cons function rest inductionHypothesis =>
    rw [List.zipIdx_cons, List.foldl_cons, inductionHypothesis, List.map_cons, assignedNames,
      List.zipIdx_cons, Std.ExtTreeMap.insertMany_cons]

/-- Functions are numbered by their names in order. -/
theorem numberFunctions_eq (functions : List Function) :
    numberFunctions functions = Std.ExtTreeMap.ofList (namesOf functions).zipIdx := by
  rw [numberFunctions, foldl_numbering, Std.ExtTreeMap.ofList_eq_insertMany_empty, namesOf]

theorem size_numberFunctions (functions : List Function) :
    (numberFunctions functions).size = functions.length := by
  have pairwise : (namesOf functions).zipIdx.Pairwise fun first second =>
      ¬ compare first.1 second.1 = .eq := by
    have distinct := nodup_namesOf functions
    rw [← List.zipIdx_map_fst 0 (namesOf functions), List.Nodup, List.pairwise_map] at distinct
    exact distinct.imp fun different => by rwa [Std.compare_eq_iff_eq]
  rw [numberFunctions_eq, Std.ExtTreeMap.size_ofList pairwise, List.length_zipIdx, length_namesOf]

/-! ### Names by number -/

theorem length_foldl_set (entries : List (String × Nat)) (names : List String) :
    (entries.foldl (fun names entry => names.set entry.2 entry.1) names).length = names.length := by
  induction entries generalizing names with
  | nil => rfl
  | cons entry rest inductionHypothesis =>
    rw [List.foldl_cons, inductionHypothesis, List.length_set]

/-- Names that are written to places of their own are all there in the end. -/
theorem getElem?_foldl_set {entries : List (String × Nat)}
    (distinct : (entries.map Prod.snd).Nodup) {names : List String} {name : String} {number : Nat}
    (inside : number < names.length)
    (written : (name, number) ∈ entries ∨
      (number ∉ entries.map Prod.snd ∧ names[number]? = some name)) :
    (entries.foldl (fun names entry => names.set entry.2 entry.1) names)[number]? = some name := by
  induction entries generalizing names with
  | nil => exact (written.resolve_left List.not_mem_nil).2
  | cons entry rest inductionHypothesis =>
    rw [List.map_cons, List.nodup_cons] at distinct
    rw [List.foldl_cons]
    refine inductionHypothesis distinct.2 (by rwa [List.length_set]) ?_
    rcases written with member | ⟨absent, there⟩
    · rcases List.mem_cons.mp member with rfl | later
      · exact Or.inr ⟨distinct.1, List.getElem?_set_self inside⟩
      · exact Or.inl later
    · rw [List.map_cons, List.mem_cons, not_or] at absent
      exact Or.inr ⟨absent.2, by rwa [List.getElem?_set_ne (Ne.symm absent.1)]⟩

/-- The names by number are those that the functions were numbered under. -/
theorem functionNames_eq {compact : Compact} {functions : List Function}
    (numbered : compact.functionNumbers = numberFunctions functions) :
    compact.functionNames = namesOf functions := by
  have entry_iff (entry : String × Nat) :
      entry ∈ compact.functionNumbers.toList ↔ (namesOf functions)[entry.2]? = some entry.1 := by
    rw [Std.ExtTreeMap.mem_toList_iff_getElem?_eq_some, numbered, numberFunctions_eq]
    exact AddressMap.getElem?_ofList_zipIdx (nodup_namesOf functions) entry.1 entry.2
  have distinct : (compact.functionNumbers.toList.map Prod.snd).Nodup := by
    refine List.Nodup.map_on ?_ ?_
    · intro first firstMember second secondMember same
      have firstFound := (entry_iff first).mp firstMember
      rw [same, (entry_iff second).mp secondMember, Option.some.injEq] at firstFound
      exact Prod.ext firstFound.symm same
    · exact Std.ExtTreeMap.distinct_keys_toList.imp fun different same =>
        different (Std.compare_eq_iff_eq.mpr (congrArg Prod.fst same))
  have count : compact.functionCount = (namesOf functions).length := by
    rw [functionCount, numbered, size_numberFunctions, length_namesOf]
  refine List.ext_getElem? fun number => ?_
  by_cases inside : number < (namesOf functions).length
  · have found := List.getElem?_eq_getElem inside
    rw [found]
    refine getElem?_foldl_set distinct (by rwa [List.length_replicate, count]) (Or.inl ?_)
    exact (entry_iff (_, number)).mpr found
  · rw [List.getElem?_eq_none (Nat.le_of_not_lt inside)]
    refine List.getElem?_eq_none ?_
    rw [functionNames, length_foldl_set, List.length_replicate, count]
    exact Nat.le_of_not_lt inside

end FlowGraph.Compact
