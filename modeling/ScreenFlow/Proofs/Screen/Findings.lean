import ScreenFlow.Proofs.Screen.Places
import ScreenFlow.Proofs.Text.Occurrences
import ScreenFlow.Screen.Check

/-!
# What the check of a screen finds

The check goes through the tree by itself. What it finds is told here by the places of the tree.

* `isNesting`, `isSource`: findings about nesting and about data sources, by what they say;
* `findings_of_mem`: what is found in one of the handlers;
* `nesting_found_iff`, `sources_found`: which findings of either sort there are;
* `sound_of_check`: a screen in which nothing is found.
-/

namespace ScreenFlow

variable {screen : Screen} {registry : Registry} {maxDepth : Nat} {name : String}
  {h : EventHandler}

namespace ActionKind

theorem mem_all (k : ActionKind) : k ∈ all := by cases k <;> decide

theorem name_long (k : ActionKind) : 2 ≤ k.name.toList.length := by cases k <;> decide

end ActionKind

/-! ### Messages -/

namespace ActionSpec

variable {s : ActionSpec}

/-- Neither the screen nor the registry has the data source that is named, or none is named although
the action calls one. -/
def lacksSource (s : ActionSpec) (screen : Screen) (registry : Registry) : Bool :=
  match s.dataSourceId with
  | none => s.action.needsDataSource
  | some id => (screen.dataSources ++ registry.sources).all (·.id != id)

/-- What is said of it. -/
def sourceMessage (s : ActionSpec) : String :=
  match s.dataSourceId with
  | none => s!"{s.action.name} requires a dataSourceId"
  | some id => s!"{s.action.name} references unknown data source '{id}'"

theorem sourceProblem?_eq (s : ActionSpec) (screen : Screen) (registry : Registry) :
    s.sourceProblem? screen registry =
      if s.lacksSource screen registry then some s.sourceMessage else none := by
  rw [sourceProblem?, lacksSource, sourceMessage]
  cases s.dataSourceId with
  | none => rfl
  | some id =>
    have there : (registry.find screen.dataSources id).toOption =
        (screen.dataSources ++ registry.sources).find? (·.id == id) := by
      rw [Registry.find, List.find?_append, Registry.get?]
      cases (screen.dataSources.find? (·.id == id)).or (registry.sources.find? (·.id == id)) <;> rfl
    have absent : (screen.dataSources ++ registry.sources).all (·.id != id) = true ↔
        (screen.dataSources ++ registry.sources).find? (·.id == id) = none := by
      simp [List.find?_eq_none]
    dsimp only
    cases found : registry.find screen.dataSources id with
    | ok d =>
      rw [found] at there
      rw [if_neg (by rw [absent, ← there]; nofun)]
    | error f =>
      rw [found] at there
      rw [if_pos (absent.mpr there.symm)]

end ActionSpec

namespace Finding

/-- It is about handlers that nest too deep. -/
def isNesting (f : Finding) : Bool := Text.startsWith f.message "nesting depth "

/-- It is about the data source of a handler. -/
def isSource (f : Finding) : Bool :=
  ActionKind.all.any fun k => f.message == s!"{k.name} requires a dataSourceId" ||
    Text.startsWith f.message s!"{k.name} references unknown data source '"

/-- Every message about a data source begins with the name of a kind of action. -/
theorem opening_of_isSource {f : Finding} (source : f.isSource = true) :
    ∃ k : ActionKind, Text.opening f.message = Text.opening k.name := by
  obtain ⟨k, -, said⟩ := List.any_eq_true.mp source
  refine ⟨k, ?_⟩
  rcases Bool.or_eq_true_iff.mp said with same | starts
  · rw [eq_of_beq same]
    exact Text.opening_append k.name_long _
  · have long : 2 ≤ (k.name ++ " references unknown data source '").toList.length := by
      have := k.name_long
      rw [String.toList_append, List.length_append]
      omega
    exact (Text.opening_of_startsWith long starts).trans (Text.opening_append k.name_long _)

/-- Such a message either ends like this or quotes the id of the data source. -/
theorem marks_of_isSource {f : Finding} (source : f.isSource = true) :
    Text.ending f.message = ['d', 'I', 'e'] ∨ '\'' ∈ f.message.toList := by
  obtain ⟨k, -, said⟩ := List.any_eq_true.mp source
  rcases Bool.or_eq_true_iff.mp said with same | starts
  · rw [eq_of_beq same]
    exact .inl (Text.ending_append _ (by decide))
  · have quoted : '\'' ∈ (k.name ++ " references unknown data source '").toList := by
      rw [String.toList_append, List.mem_append]
      exact .inr (by decide)
    exact .inr ((Text.startsWith_iff.mp starts).subset quoted)

theorem isSource_sourceMessage (name : String) (s : ActionSpec) :
    isSource ⟨name, s.sourceMessage⟩ = true := by
  refine List.any_eq_true.mpr ⟨s.action, s.action.mem_all, ?_⟩
  rw [ActionSpec.sourceMessage]
  cases s.dataSourceId with
  | none => simp
  | some id =>
    have starts := Text.startsWith_append (s.action.name ++ " references unknown data source '")
      (id ++ "'")
    rw [← String.append_assoc] at starts
    exact Bool.or_eq_true_iff.mpr (.inr starts)

theorem isNesting_nestingMessage (name : String) (depth limit : Nat) :
    isNesting ⟨name, s!"nesting depth {depth} exceeds the limit of {limit}"⟩ = true := by
  have starts := Text.startsWith_append "nesting depth "
    (toString depth ++ (" exceeds the limit of " ++ toString limit))
  rw [← String.append_assoc, ← String.append_assoc] at starts
  exact starts

theorem opening_nesting {f : Finding} (nesting : f.isNesting = true) :
    Text.opening f.message = ['n', 'e'] := Text.opening_of_startsWith (by decide) nesting

/-- No kind of action has a name that begins like that. -/
theorem opening_kind_ne (k : ActionKind) : Text.opening k.name ≠ ['n', 'e'] := by
  cases k <;> decide

theorem isSource_of_isNesting {f : Finding} (nesting : f.isNesting = true) : f.isSource = false := by
  refine Bool.eq_false_iff.mpr fun source => ?_
  obtain ⟨k, same⟩ := opening_of_isSource source
  exact opening_kind_ne k (same.symm.trans (opening_nesting nesting))

theorem isNesting_of_isSource {f : Finding} (source : f.isSource = true) : f.isNesting = false :=
  Bool.eq_false_iff.mpr fun nesting => by simp [isSource_of_isNesting nesting] at source

/-- What is said of a missing parameter is of neither sort. -/
theorem other_of_targetKeys (name : String) {k : ActionKind} {keys : List String} {message : String}
    (wanted : ActionSpec.targetKeys? k = some (keys, message)) :
    isSource ⟨name, message⟩ = false ∧ isNesting ⟨name, message⟩ = false := by
  have plain : Text.opening message ≠ ['n', 'e'] ∧ Text.ending message ≠ ['d', 'I', 'e'] ∧
      '\'' ∉ message.toList := by
    cases k <;> cases wanted <;> decide
  refine ⟨Bool.eq_false_iff.mpr fun source => ?_,
    Bool.eq_false_iff.mpr fun nesting => plain.1 (opening_nesting nesting)⟩
  rcases marks_of_isSource source with ends | quotes
  · exact plain.2.1 ends
  · exact plain.2.2 quotes

theorem other_of_targetProblem (name : String) {s : ActionSpec} {message : String}
    (said : s.targetProblem? = some message) :
    isSource ⟨name, message⟩ = false ∧ isNesting ⟨name, message⟩ = false := by
  obtain ⟨⟨keys, text⟩, wanted, said⟩ := Option.bind_eq_some_iff.mp said
  obtain ⟨-, same⟩ := Option.ite_none_right_eq_some.mp said
  obtain rfl := Option.some.inj same
  exact other_of_targetKeys name wanted

end Finding

/-! ### The tree -/

namespace EventHandler

open Dispatch

mutual

theorem problems_eq (place : Dispatch.Place) : (h : EventHandler) →
    h.problems screen registry = (h.placesFrom place).flatMap fun e => e.2.problems screen registry
  | .node spec before success error finally_ => by
    simp only [problems, placesFrom, List.flatMap_cons, List.flatMap_append,
      problemsAll_eq place .before 0 before, problemsAll_eq place .success 0 success,
      problemsAll_eq place .error 0 error, problemsAll_eq place .finally_ 0 finally_,
      List.append_assoc]

theorem problemsAll_eq (place : Dispatch.Place) (branch : Branch) (n : Nat) : (hs : List EventHandler) →
    problemsAll screen registry hs =
      (placesFromAll place branch n hs).flatMap fun e => e.2.problems screen registry
  | [] => rfl
  | h :: hs => by
    rw [problemsAll, placesFromAll, List.flatMap_append, problems_eq _ h,
      problemsAll_eq place branch (n + 1) hs]

end

/-- What is found in a tree, from the top down. -/
def findings (h : EventHandler) (name : String) (screen : Screen) (registry : Registry)
    (maxDepth : Nat) : List Finding :=
  ((h.nestingProblem? maxDepth).toList ++ h.problems screen registry).map (Finding.mk name)

theorem nestingProblem?_isSome_iff :
    (h.nestingProblem? maxDepth).isSome = true ↔ maxDepth < h.depth := by
  rw [nestingProblem?]
  split <;> simp_all

/-- A message about nesting is found exactly if a handler of the tree nests too deep. -/
theorem nesting_of_findings (h : EventHandler) (name : String) (screen : Screen)
    (registry : Registry) (maxDepth : Nat) :
    (∃ f ∈ h.findings name screen registry maxDepth, f.isNesting = true) ↔
      ∃ q, (h.at? q).isSome = true ∧ maxDepth < q.length + 1 := by
  rw [← lt_depth_iff]
  constructor
  · rintro ⟨f, mem, nesting⟩
    obtain ⟨message, said, rfl⟩ := List.mem_map.mp mem
    rcases List.mem_append.mp said with deep | problem
    · exact nestingProblem?_isSome_iff.mp
        (Option.isSome_iff_exists.mpr ⟨message, Option.mem_toList.mp deep⟩)
    · rw [problems_eq [], List.mem_flatMap] at problem
      obtain ⟨e, -, said⟩ := problem
      have other : Finding.isNesting ⟨name, message⟩ = false := by
        rcases List.mem_append.mp said with source | target
        · rw [ActionSpec.sourceProblem?_eq, Option.mem_toList] at source
          obtain ⟨-, same⟩ := Option.ite_none_right_eq_some.mp source
          obtain rfl := Option.some.inj same
          exact Finding.isNesting_of_isSource (Finding.isSource_sourceMessage name e.2)
        · exact (Finding.other_of_targetProblem name (Option.mem_toList.mp target)).2
      exact absurd (other.symm.trans nesting) Bool.false_ne_true
  · intro deep
    refine ⟨_, List.mem_map_of_mem (List.mem_append_left _ ?_),
      Finding.isNesting_nestingMessage name h.depth maxDepth⟩
    rw [nestingProblem?, if_pos deep]
    exact List.mem_singleton_self _

/-- There is one message about a data source for each handler of the tree that lacks one. -/
theorem sources_of_findings (h : EventHandler) (name : String) (screen : Screen)
    (registry : Registry) (maxDepth : Nat) :
    (h.findings name screen registry maxDepth).filter Finding.isSource =
      (h.places.filter fun e => e.2.lacksSource screen registry).map
        fun e => ⟨name, e.2.sourceMessage⟩ := by
  have own (s : ActionSpec) :
      (((s.problems screen registry).map (Finding.mk name)).filter Finding.isSource) =
        if s.lacksSource screen registry then [⟨name, s.sourceMessage⟩] else [] := by
    have targets : (s.targetProblem?.toList.map (Finding.mk name)).filter Finding.isSource = [] := by
      refine List.filter_eq_nil_iff.mpr fun f mem => ?_
      obtain ⟨message, said, rfl⟩ := List.mem_map.mp mem
      simp [(Finding.other_of_targetProblem name (Option.mem_toList.mp said)).1]
    rw [ActionSpec.problems, List.map_append, List.filter_append, targets, List.append_nil,
      ActionSpec.sourceProblem?_eq]
    split
    · simp [Finding.isSource_sourceMessage]
    · rfl
  have nesting : ((h.nestingProblem? maxDepth).toList.map (Finding.mk name)).filter
      Finding.isSource = [] := by
    rw [nestingProblem?]
    split
    · exact List.filter_cons_of_neg (Bool.not_eq_true _ ▸
        Finding.isSource_of_isNesting (Finding.isNesting_nestingMessage name h.depth maxDepth))
    · rfl
  rw [findings, List.map_append, List.filter_append, nesting, List.nil_append, problems_eq [],
    List.map_flatMap, List.filter_flatMap, places]
  induction h.placesFrom [] with
  | nil => rfl
  | cons e rest ih =>
    rw [List.flatMap_cons, own, ih, List.filter_cons]
    split <;> rfl

end EventHandler

/-! ### The screen -/

namespace Screen

/-- What the check finds in a handler of the screen. -/
theorem findings_of_mem {handlers : List (String × EventHandler)}
    (named : (handlers.map Prod.fst).Nodup) (mem : (name, h) ∈ handlers) :
    (handlers.flatMap fun e => e.2.findings e.1 screen registry maxDepth).filter (·.handler == name) =
      h.findings name screen registry maxDepth := by
  have apart (e : String × EventHandler) :
      (e.2.findings e.1 screen registry maxDepth).filter (·.handler == name) =
        if e.1 = name then e.2.findings e.1 screen registry maxDepth else [] := by
    split
    case isTrue same =>
      refine List.filter_eq_self.mpr fun f hf => ?_
      obtain ⟨message, -, rfl⟩ := List.mem_map.mp hf
      exact beq_iff_eq.mpr same
    case isFalse other =>
      refine List.filter_eq_nil_iff.mpr fun f hf => ?_
      obtain ⟨message, -, rfl⟩ := List.mem_map.mp hf
      exact mt eq_of_beq other
  rw [List.filter_flatMap]
  simp only [apart]
  induction handlers with
  | nil => cases mem
  | cons e rest ih =>
    obtain ⟨fresh, others⟩ := List.nodup_cons.mp named
    rw [List.flatMap_cons]
    rcases List.mem_cons.mp mem with rfl | later
    · rw [if_pos rfl]
      have none : rest.flatMap (fun e =>
          if e.1 = name then e.2.findings e.1 screen registry maxDepth else []) = [] := by
        refine List.flatMap_eq_nil_iff.mpr fun e he => if_neg fun same => ?_
        exact fresh (List.mem_map.mpr ⟨e, he, same⟩)
      rw [none, List.append_nil]
    · have different : e.1 ≠ name := fun same => fresh (List.mem_map.mpr ⟨_, later, same.symm⟩)
      rw [if_neg different, List.nil_append, ih others later]

variable {s : Screen}

theorem check_eq (s : Screen) (registry : Registry) (maxDepth : Nat) :
    s.check registry maxDepth = s.handlers.flatMap fun e => e.2.findings e.1 s registry maxDepth := rfl

theorem nesting_found_iff (named : (s.handlers.map Prod.fst).Nodup) (mem : (name, h) ∈ s.handlers) :
    (∃ f ∈ s.check registry maxDepth, f.handler = name ∧ f.isNesting = true) ↔
      ∃ q, (h.at? q).isSome = true ∧ maxDepth < q.length + 1 := by
  rw [← h.nesting_of_findings name s registry maxDepth, ← findings_of_mem named mem, ← check_eq]
  simp [List.mem_filter, and_assoc]

theorem sources_found (named : (s.handlers.map Prod.fst).Nodup) (mem : (name, h) ∈ s.handlers) :
    (s.check registry maxDepth).filter (fun f => f.handler == name && f.isSource) =
      (h.places.filter fun e => e.2.lacksSource s registry).map
        fun e => ⟨name, e.2.sourceMessage⟩ := by
  rw [← h.sources_of_findings name s registry maxDepth, ← findings_of_mem named mem, ← check_eq,
    List.filter_filter]
  simp only [Bool.and_comm]

/-- Nothing is found in a screen: each of its handlers fits the limit, and none lacks a data source. -/
theorem sound_of_check (clean : s.check registry maxDepth = []) (found : s.handler? name = some h) :
    (∀ q, (h.at? q).isSome = true → q.length < maxDepth) ∧
      ∀ e ∈ h.places, e.2.lacksSource s registry = false := by
  obtain ⟨⟨name', h'⟩, there, rfl⟩ := Option.map_eq_some_iff.mp found
  have none := List.flatMap_eq_nil_iff.mp clean _ (List.mem_of_find?_eq_some there)
  have nesting := mt (h'.nesting_of_findings name' s registry maxDepth).mpr
  have sources := h'.sources_of_findings name' s registry maxDepth
  have none : h'.findings name' s registry maxDepth = [] := none
  rw [none] at nesting sources
  constructor
  · intro q there
    have := nesting (by simp)
    exact Nat.lt_of_not_le fun deep => this ⟨q, there, Nat.lt_succ_of_le deep⟩
  · intro e he
    have empty := List.filter_eq_nil_iff.mp (List.map_eq_nil_iff.mp sources.symm) e he
    simpa using empty

end Screen

end ScreenFlow
