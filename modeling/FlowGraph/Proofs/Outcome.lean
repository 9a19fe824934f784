/-
This file takes computations with causes of failure apart. Such a computation
succeeds if and only if its steps do, one after another, and a list of
computations succeeds if and only if each of them does. A computation that
fails does so for the cause of one of its steps.
-/

import Mathlib.Data.List.Forall2

namespace FlowGraph.Outcome

variable {Cause First Second State : Type}

theorem ok_bind (value : First) (next : First → Except Cause Second) :
    (Except.ok value >>= next) = next value := rfl

theorem bind_eq_ok_iff {first : Except Cause First} {next : First → Except Cause Second}
    {result : Second} :
    (first >>= next) = .ok result ↔ ∃ value, first = .ok value ∧ next value = .ok result := by
  cases first with
  | error cause => exact ⟨fun equal => (nomatch equal), fun ⟨_, equal, _⟩ => (nomatch equal)⟩
  | ok value =>
    refine ⟨fun equal => ⟨value, rfl, equal⟩, ?_⟩
    rintro ⟨_, equal, succeeds⟩
    cases equal
    exact succeeds

theorem map_eq_ok_iff {first : Except Cause First} {change : First → Second} {result : Second} :
    first.map change = .ok result ↔ ∃ value, first = .ok value ∧ change value = result := by
  cases first with
  | error cause => exact ⟨fun equal => (nomatch equal), fun ⟨_, equal, _⟩ => (nomatch equal)⟩
  | ok value =>
    refine ⟨fun equal => ⟨value, rfl, Except.ok.inj equal⟩, ?_⟩
    rintro ⟨_, equal, rfl⟩
    cases equal
    rfl

theorem mapError_eq_ok_iff {Other : Type} {first : Except Cause First} {change : Cause → Other}
    {result : First} : first.mapError change = .ok result ↔ first = .ok result := by
  cases first with
  | error cause => exact ⟨fun equal => (nomatch equal), fun equal => (nomatch equal)⟩
  | ok value =>
    refine ⟨fun equal => congrArg _ (Except.ok.inj equal), fun equal => ?_⟩
    rw [equal]
    rfl

/-- A list of computations succeeds with the results of all of them. -/
theorem mapM_eq_ok_iff {step : First → Except Cause Second} {items : List First}
    {results : List Second} :
    items.mapM step = .ok results ↔
      List.Forall₂ (fun item result => step item = .ok result) items results := by
  induction items generalizing results with
  | nil =>
    rw [List.mapM_nil, List.forall₂_nil_left_iff]
    exact ⟨fun equal => (Except.ok.inj equal).symm, fun equal => by rw [equal]; rfl⟩
  | cons item rest inductionHypothesis =>
    rw [List.mapM_cons, bind_eq_ok_iff, List.forall₂_cons_left_iff]
    refine exists_congr fun result => ?_
    rw [bind_eq_ok_iff]
    constructor
    · rintro ⟨succeeds, others, restSucceeds, equal⟩
      exact ⟨others, succeeds, inductionHypothesis.mp restSucceeds, (Except.ok.inj equal).symm⟩
    · rintro ⟨others, succeeds, restSucceed, rfl⟩
      exact ⟨succeeds, others, inductionHypothesis.mpr restSucceed, rfl⟩

/-- A list of computations with known results succeeds if none of them has a cause to fail. -/
theorem mapM_eq_ok_iff_map {step : First → Except Cause Second} {fine : First → Prop}
    {change : First → Second} {items : List First}
    (each : ∀ item ∈ items, ∀ result, step item = .ok result ↔ fine item ∧ change item = result)
    {results : List Second} :
    items.mapM step = .ok results ↔ (∀ item ∈ items, fine item) ∧ items.map change = results := by
  induction items generalizing results with
  | nil =>
    rw [List.mapM_nil]
    exact ⟨fun equal => ⟨fun _ member => (List.not_mem_nil member).elim, Except.ok.inj equal⟩,
      fun both => congrArg Except.ok both.2⟩
  | cons item rest inductionHypothesis =>
    have others (remaining : List Second) : rest.mapM step = .ok remaining ↔ _ :=
      inductionHypothesis fun other member => each other (List.mem_cons_of_mem _ member)
    rw [List.mapM_cons, bind_eq_ok_iff, List.forall_mem_cons, List.map_cons]
    constructor
    · rintro ⟨result, succeeds, continued⟩
      obtain ⟨remaining, restSucceed, equal⟩ := bind_eq_ok_iff.mp continued
      obtain ⟨itemFine, rfl⟩ := (each item List.mem_cons_self result).mp succeeds
      obtain ⟨restFine, rfl⟩ := (others remaining).mp restSucceed
      exact ⟨⟨itemFine, restFine⟩, Except.ok.inj equal⟩
    · rintro ⟨⟨itemFine, restFine⟩, rfl⟩
      refine ⟨change item, (each item List.mem_cons_self _).mpr ⟨itemFine, rfl⟩, ?_⟩
      rw [(others _).mpr ⟨restFine, rfl⟩]
      rfl

/-- What every step of a successful run keeps, the run keeps. -/
theorem foldlM_keeps {Item : Type} {step : State → Item → Except Cause State}
    (keeps : State → Prop) {items : List Item} {before after : State}
    (each : ∀ item ∈ items, ∀ {state next : State}, keeps state → step state item = .ok next →
      keeps next)
    (start : keeps before) (succeeds : items.foldlM step before = .ok after) : keeps after := by
  induction items generalizing before with
  | nil => exact Except.ok.inj succeeds ▸ start
  | cons item rest inductionHypothesis =>
    rw [List.foldlM_cons, bind_eq_ok_iff] at succeeds
    obtain ⟨middle, stepSucceeds, restSucceeds⟩ := succeeds
    exact inductionHypothesis (fun other member => each other (List.mem_cons_of_mem _ member))
      (each item List.mem_cons_self start stepSucceeds) restSucceeds

/-- A run whose steps are known not to fail. -/
theorem foldlM_eq_ok {Item : Type} {step : State → Item → Except Cause State}
    {plain : State → Item → State} (keeps : State → Prop) {items : List Item} {before : State}
    (each : ∀ item ∈ items, ∀ state, keeps state →
      step state item = .ok (plain state item) ∧ keeps (plain state item))
    (start : keeps before) : items.foldlM step before = .ok (items.foldl plain before) := by
  induction items generalizing before with
  | nil => rfl
  | cons item rest inductionHypothesis =>
    obtain ⟨succeeds, kept⟩ := each item List.mem_cons_self before start
    rw [List.foldlM_cons, succeeds, List.foldl_cons]
    exact inductionHypothesis (fun other member => each other (List.mem_cons_of_mem _ member)) kept

/-! ### Failures -/

theorem bind_eq_error_iff {first : Except Cause First} {next : First → Except Cause Second}
    {cause : Cause} :
    (first >>= next) = .error cause ↔
      first = .error cause ∨ ∃ value, first = .ok value ∧ next value = .error cause := by
  cases first with
  | error other =>
    refine ⟨fun equal => Or.inl (congrArg _ (Except.error.inj equal)), ?_⟩
    rintro (equal | ⟨_, equal, _⟩)
    · exact congrArg _ (Except.error.inj equal)
    · cases equal
  | ok value =>
    refine ⟨fun fails => Or.inr ⟨value, rfl, fails⟩, ?_⟩
    rintro (equal | ⟨_, equal, fails⟩)
    · cases equal
    · cases equal
      exact fails

theorem map_eq_error_iff {first : Except Cause First} {change : First → Second} {cause : Cause} :
    first.map change = .error cause ↔ first = .error cause := by
  cases first with
  | error other =>
    exact ⟨fun equal => congrArg _ (Except.error.inj equal),
      fun equal => congrArg _ (Except.error.inj equal)⟩
  | ok value => exact ⟨fun equal => (nomatch equal), fun equal => (nomatch equal)⟩

/-- A list of computations fails for the cause of one of them. -/
theorem exists_of_mapM_eq_error {step : First → Except Cause Second} {items : List First}
    {cause : Cause} (fails : items.mapM step = .error cause) :
    ∃ item ∈ items, step item = .error cause := by
  induction items with
  | nil => cases fails
  | cons item rest inductionHypothesis =>
    rw [List.mapM_cons, bind_eq_error_iff] at fails
    rcases fails with here | ⟨_, _, continued⟩
    · exact ⟨item, List.mem_cons_self, here⟩
    · rcases bind_eq_error_iff.mp continued with later | ⟨_, _, equal⟩
      · obtain ⟨other, member, there⟩ := inductionHypothesis later
        exact ⟨other, List.mem_cons_of_mem _ member, there⟩
      · cases equal

/-- A run fails for the cause of one of its steps. -/
theorem exists_of_foldlM_eq_error {Item : Type} {step : State → Item → Except Cause State}
    {items : List Item} {start : State} {cause : Cause}
    (fails : items.foldlM step start = .error cause) :
    ∃ item ∈ items, ∃ state, step state item = .error cause := by
  induction items generalizing start with
  | nil => cases fails
  | cons item rest inductionHypothesis =>
    rw [List.foldlM_cons, bind_eq_error_iff] at fails
    rcases fails with here | ⟨_, _, continued⟩
    · exact ⟨item, List.mem_cons_self, start, here⟩
    · obtain ⟨other, member, there⟩ := inductionHypothesis continued
      exact ⟨other, List.mem_cons_of_mem _ member, there⟩

/-! ### The first of several causes -/

/-- A value, unless there are causes to fail; then the first of them counts. -/
def unlessAny : List Cause → First → Except Cause First
  | [], value => .ok value
  | cause :: _, _ => .error cause

theorem unlessAny_eq_ok_iff {causes : List Cause} {value result : First} :
    unlessAny causes value = .ok result ↔ causes = [] ∧ value = result := by
  cases causes with
  | nil => exact ⟨fun equal => ⟨rfl, Except.ok.inj equal⟩, fun both => congrArg _ both.2⟩
  | cons cause rest => exact ⟨fun equal => (nomatch equal), fun both => (nomatch both.1)⟩

theorem unlessAny_eq_error_iff {causes : List Cause} {value : First} {cause : Cause} :
    unlessAny causes value = .error cause ↔ causes.head? = some cause := by
  cases causes with
  | nil => exact ⟨fun equal => (nomatch equal), fun equal => (nomatch equal)⟩
  | cons first rest =>
    rw [List.head?_cons, Option.some.injEq, unlessAny, Except.error.injEq]

theorem map_unlessAny (change : First → Second) (causes : List Cause) (value : First) :
    (unlessAny causes value).map change = unlessAny causes (change value) := by
  cases causes <;> rfl

/-- One computation after another fails for the causes of both, those of the first one first. -/
theorem unlessAny_bind_eq {causes others : List Cause} {value : First} {result : Second}
    (next : First → Except Cause Second) (continued : next value = unlessAny others result) :
    (unlessAny causes value >>= next) = unlessAny (causes ++ others) result := by
  cases causes with
  | nil => exact continued
  | cons cause rest => rfl

/-- A list of computations fails for the causes of all of them, in order. -/
theorem mapM_eq_unlessAny {step : First → Except Cause Second} {causes : First → List Cause}
    {change : First → Second} {items : List First}
    (each : ∀ item ∈ items, step item = unlessAny (causes item) (change item)) :
    items.mapM step = unlessAny (items.flatMap causes) (items.map change) := by
  induction items with
  | nil => rfl
  | cons item rest inductionHypothesis =>
    have others := inductionHypothesis fun other member => each other (List.mem_cons_of_mem _ member)
    rw [List.mapM_cons, each item List.mem_cons_self, List.flatMap_cons, List.map_cons]
    refine unlessAny_bind_eq _ ?_
    rw [others]
    exact map_unlessAny (change item :: ·) _ _

end FlowGraph.Outcome
