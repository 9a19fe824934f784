/-
This file proves what following paths and writing files do. Adding the name of
an entry to a folder adds one segment to its path, so different entries of a
folder have different places. Where a path leads depends on the folders only, and
writing a file changes none. A path then reads the file that was just written if
it leads to the same place, and what it read before if not.
-/

import FlowGraph.FileOperation
import FlowGraph.Proofs.Outcome

namespace FlowGraph.Files

variable {store after : Files} {name other : String}

/-! ### Segments of joined paths -/

theorem not_mem_of_mem_splitOn {separator : Char} {marks part : List Char}
    (member : part ∈ marks.splitOn separator) : separator ∉ part := by
  induction marks generalizing part with
  | nil =>
    rw [List.splitOn_nil, List.mem_singleton] at member
    exact member ▸ List.not_mem_nil
  | cons mark rest inductionHypothesis =>
    rw [List.splitOn_cons_eq_if_modifyHead] at member
    split at member
    · rcases List.mem_cons.mp member with rfl | later
      · exact List.not_mem_nil
      · exact inductionHypothesis later
    · rename_i different
      cases divided : rest.splitOn separator with
      | nil =>
        rw [divided] at member
        cases member
      | cons first others =>
        rw [divided] at member inductionHypothesis
        rcases List.mem_cons.mp member with rfl | later
        · rw [List.mem_cons, not_or]
          exact ⟨fun same => different (beq_iff_eq.mpr same.symm),
            inductionHypothesis List.mem_cons_self⟩
        · exact inductionHypothesis (List.mem_cons_of_mem _ later)

/-- No segment of a path has a separator in it. -/
theorem not_mem_of_mem_segments {path segment : String} (member : segment ∈ segments path) :
    '/' ∉ segment.toList := by
  obtain ⟨part, among, rfl⟩ := List.mem_map.mp member
  rw [String.toList_ofList]
  exact not_mem_of_mem_splitOn among

theorem segments_append (folder path : String) :
    segments (folder ++ "/" ++ path) = segments folder ++ segments path := by
  have marks : (folder ++ "/" ++ path).toList = folder.toList ++ '/' :: path.toList := by
    rw [String.toList_append, String.toList_append, List.append_assoc]
    rfl
  rw [segments, parts, marks, List.splitOn_append_cons_self, List.map_append]
  rfl

/-- Whether a name is that of an entry of a folder: it is one segment, and not empty or a reference
to the folder itself or the one around it. -/
structure Entry (name : String) : Prop where
  undivided : '/' ∉ name.toList
  nonempty : name ≠ ""
  notHere : name ≠ "."
  notAround : name ≠ ".."

theorem Entry.segments_eq (entry : Entry name) : segments name = [name] := by
  rw [segments, parts, List.splitOn_eq_singleton entry.undivided, List.map_singleton,
    String.ofList_toList]

theorem Entry.not_startsWith (entry : Entry name) : ¬ name.startsWith "/" = true := by
  rw [String.startsWith_string_iff]
  rintro ⟨rest, whole⟩
  exact entry.undivided (whole ▸ List.mem_cons_self)

/-- The segments of a folder before the names that are added to it. -/
def base (folder : String) : List String :=
  if folder = "" then [] else if folder.endsWith '/' then (segments folder).dropLast
  else segments folder

theorem segments_join (folder : String) (entry : Entry name) :
    segments (join folder name) = base folder ++ [name] := by
  by_cases none : folder = ""
  · rw [join, if_pos (Or.inl none), base, if_pos none, entry.segments_eq, List.nil_append]
  · rw [join, if_neg (not_or.mpr ⟨none, entry.not_startsWith⟩), base, if_neg none]
    split
    · rename_i ends
      obtain ⟨front, rfl⟩ := String.endsWith_char_iff_exists_append.mp ends
      have divided : segments (front ++ "/") = segments front ++ [""] := by
        have whole := segments_append front ""
        rwa [String.append_empty] at whole
      have joined : segments (front ++ "/" ++ name) = segments front ++ [name] := by
        rw [segments_append, entry.segments_eq]
      exact joined.trans (congrArg (· ++ [name])
        ((congrArg List.dropLast divided).trans List.dropLast_concat).symm)
    · rw [segments_append, entry.segments_eq]

theorem join_eq_iff (folder : String) (entry : Entry name) (otherEntry : Entry other) :
    join folder name = join folder other ↔ name = other := by
  refine ⟨fun same => ?_, congrArg (join folder)⟩
  have listed := congrArg segments same
  rw [segments_join folder entry, segments_join folder otherEntry] at listed
  exact List.singleton_inj.mp (List.append_cancel_left listed)

theorem startOf_join (folder : String) (entry : Entry name) :
    startOf (join folder name) = startOf folder := by
  by_cases none : folder = ""
  · rw [join, if_pos (Or.inl none), none, startOf, if_neg entry.not_startsWith]
    rfl
  · rw [join, if_neg (not_or.mpr ⟨none, entry.not_startsWith⟩)]
    obtain ⟨rest, longer⟩ : ∃ rest, (if folder.endsWith '/' then folder ++ name
        else folder ++ "/" ++ name) = folder ++ rest := by
      split
      · exact ⟨name, rfl⟩
      · exact ⟨"/" ++ name, String.append_assoc⟩
    have nonempty : folder.toList ≠ [] := fun empty => none (String.toList_eq_nil_iff.mp empty)
    obtain ⟨first, marks, whole⟩ := List.exists_cons_of_ne_nil nonempty
    rw [longer, startOf, startOf]
    refine if_congr ?_ rfl rfl
    have slash : "/".toList = ['/'] := rfl
    rw [String.startsWith_string_iff, String.startsWith_string_iff, String.toList_append, whole,
      slash, List.cons_append, List.cons_prefix_cons, List.cons_prefix_cons]
    simp only [List.nil_prefix]

theorem join_ne_empty (folder : String) (entry : Entry name) : join folder name ≠ "" := by
  intro empty
  have listed := segments_join folder entry
  rw [empty] at listed
  have last := congrArg List.getLast? listed
  rw [List.getLast?_concat] at last
  exact entry.nonempty (Option.some.inj last).symm

/-! ### Places -/

theorem isFolder_congr (same : after.folders = store.folders) (place : List String) :
    after.isFolder place = store.isFolder place := by
  rw [isFolder, isFolder, same]

theorem follow_append (store : Files) (place first second : List String) :
    store.follow place (first ++ second) =
      (store.follow place first).bind fun next => store.follow next second := by
  induction first generalizing place with
  | nil => rfl
  | cons segment rest inductionHypothesis =>
    rw [List.cons_append, follow, follow]
    split
    · rfl
    · split
      · exact inductionHypothesis place
      · split
        · exact inductionHypothesis _
        · split
          · exact inductionHypothesis _
          · rfl

theorem follow_congr (same : after.folders = store.folders) (place segments : List String) :
    after.follow place segments = store.follow place segments := by
  induction segments generalizing place with
  | nil => rfl
  | cons segment rest inductionHypothesis =>
    simp only [follow, isFolder_congr same, inductionHypothesis]

theorem place?_congr (same : after.folders = store.folders) (path : String) :
    after.place? path = store.place? path := by
  rw [place?, place?, follow_congr same]

theorem leadsToFolder_congr (same : after.folders = store.folders) (path : String) :
    after.leadsToFolder path = store.leadsToFolder path := by
  rw [leadsToFolder, leadsToFolder, place?_congr same]
  exact congrArg (Option.any · _) (funext (isFolder_congr same))

/-- The place of an entry is the place of its folder with its name behind it. -/
theorem place?_join_eq_some_iff (folder : String) (entry : Entry name) {place : List String} :
    store.place? (join folder name) = some place ↔
      ∃ around, store.follow (startOf folder) (base folder) = some around ∧
        store.isFolder around = true ∧ isName name = true ∧ around ++ [name] = place := by
  rw [place?, if_neg (join_ne_empty folder entry), startOf_join folder entry,
    segments_join folder entry, follow_append, Option.bind_eq_some_iff]
  refine exists_congr fun around => and_congr_right fun _ => ?_
  rw [follow]
  simp [follow, entry.nonempty, entry.notHere, entry.notAround]

/-- Entries of a folder have the same place if and only if they have the same name. -/
theorem place?_join_inj (folder : String) (entry : Entry name) (otherEntry : Entry other)
    {place : List String} (there : store.place? (join folder name) = some place) :
    store.place? (join folder other) = some place ↔ name = other := by
  refine ⟨fun otherThere => ?_, fun same => same ▸ there⟩
  obtain ⟨around, _, _, _, rfl⟩ := (place?_join_eq_some_iff folder entry).mp there
  obtain ⟨otherAround, _, _, _, same⟩ := (place?_join_eq_some_iff folder otherEntry).mp otherThere
  exact (List.append_singleton_inj.mp same).2.symm

/-! ### Reading what was written -/

/-- What writing a file does, when it succeeds. -/
theorem exists_of_writeText {path text : String}
    (wrote : store.writeText path text = .ok after) :
    ∃ place, store.place? path = some place ∧ after =
      { store with files := store.files.insert place ⟨text, isCompressedPath path⟩ } := by
  have written : store.write path ⟨text, isCompressedPath path⟩ = .ok after :=
    Outcome.mapError_eq_ok_iff.mp wrote
  rw [write] at written
  split at written
  · cases written
  · rename_i place there
    split at written
    · cases written
    · exact ⟨place, there, (Except.ok.inj written).symm⟩

theorem folders_of_writeText {path text : String}
    (wrote : store.writeText path text = .ok after) : after.folders = store.folders := by
  obtain ⟨place, _, rfl⟩ := exists_of_writeText wrote
  rfl

theorem getElem?_of_writeText {path text : String} (wrote : store.writeText path text = .ok after)
    {place : List String} (elsewhere : store.place? path ≠ some place) :
    after.files[place]? = store.files[place]? := by
  obtain ⟨written, there, rfl⟩ := exists_of_writeText wrote
  rw [Std.ExtTreeMap.getElem?_insert, if_neg fun same => elsewhere ?_]
  rw [there, Std.LawfulEqCmp.eq_of_compare same]

/-- What a path reads depends on the file at its place and on the folders. -/
theorem readText_congr {path : String} (folders : after.folders = store.folders)
    (files : ∀ place, store.place? path = some place → after.files[place]? = store.files[place]?) :
    after.readText path = store.readText path := by
  have reads : after.read path = store.read path := by
    rw [read, read, place?_congr folders]
    cases there : store.place? path with
    | none => rfl
    | some place => rw [Option.bind_some, Option.bind_some, files place there]
  rw [readText, readText, reads, leadsToFolder_congr folders]

/-- A text is read where it was written. -/
theorem readText_of_writeText {path text : String}
    (wrote : store.writeText path text = .ok after) : after.readText path = .ok text := by
  obtain ⟨place, there, rfl⟩ := exists_of_writeText wrote
  have thereStill : place? { store with
      files := store.files.insert place ⟨text, isCompressedPath path⟩ } path = some place :=
    Eq.trans (place?_congr (by rfl) path) there
  rw [readText, read, thereStill, Option.bind_some, Std.ExtTreeMap.getElem?_insert_self]
  exact if_pos rfl

/-! ### Making folders -/

theorem files_of_makeAlong {place names : List String}
    (made : store.makeAlong place names = some after) : after.files = store.files := by
  induction names generalizing store place with
  | nil => exact congrArg files (Option.some.inj made).symm
  | cons name rest inductionHypothesis =>
    rw [makeAlong] at made
    split at made
    · cases made
    · split at made
      · exact inductionHypothesis made
      · dsimp only at made
        split at made
        · cases made
        · have kept := inductionHypothesis made
          exact kept

theorem files_of_makeFolders {path : String} (made : store.makeFolders path = .ok after) :
    after.files = store.files := by
  rw [makeFolders] at made
  split at made
  · rename_i reached
    obtain rfl := Except.ok.inj made
    split at reached
    · exact files_of_makeAlong (Option.filter_eq_some_iff.mp reached).1
    · exact files_of_makeAlong reached
  · cases made

end FlowGraph.Files
