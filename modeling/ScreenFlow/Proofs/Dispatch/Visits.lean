import ScreenFlow.Fault
import ScreenFlow.Handler.Basic

/-!
# Traversals of a handler

In which order the main actions of a tree of handlers are to be performed, when it is known how each
one comes out.

* `Place`: a handler of the tree, by the way that leads to it;
* `visits`: the traversal;
* `mem_visits_iff`: it comes to the handlers that are due and do not nest too deep;
* `visits_nodup`: it comes to each one once.
-/

namespace ScreenFlow.Dispatch

/-! ### Places -/

/-- The lists of sub-handlers of a handler. -/
inductive Branch where
  | before
  | success
  | error
  | finally_
deriving DecidableEq, Repr

def Branch.of : Branch → EventHandler → List EventHandler
  | before, h => h.before
  | success, h => h.success
  | error, h => h.error
  | finally_, h => h.finally_

theorem Branch.exists_iff {P : Branch → Prop} :
    (∃ branch, P branch) ↔ P .before ∨ P .success ∨ P .error ∨ P .finally_ := by
  constructor
  · rintro ⟨branch, h⟩
    cases branch with
    | before => exact .inl h
    | success => exact .inr (.inl h)
    | error => exact .inr (.inr (.inl h))
    | finally_ => exact .inr (.inr (.inr h))
  · rintro (h | h | h | h) <;> exact ⟨_, h⟩

/-- The way from the top down to a handler: at each handler on it the list to take, and the number in
that list. -/
abbrev Place := List (Branch × Nat)

/-! ### The traversal -/

section

variable (σ : Place → Except Fault Json) (limit : Nat)

mutual

/-- The main actions in the order in which they are performed, each with its place: the
before-handlers, the handler itself, the branch that its outcome chooses, and the finally-handlers.
`σ` says how each main action comes out; what nests deeper than `limit` is left out. -/
def visits (place : Place) : EventHandler → List (Place × ActionSpec)
  | .node spec before success error finally_ =>
    if limit < place.length + 1 then []
    else
      visitsAll place .before 0 false before ++ (place, spec) ::
        match σ place with
        | .ok _ => visitsAll place .success 0 false success ++
            visitsAll place .finally_ 0 false finally_
        | .error _ => visitsAll place .error 0 false error ++
            visitsAll place .finally_ 0 true finally_

/-- The same for sub-handlers in order, from the `n`-th of a list on. With `staying`, navigations are
left out. -/
def visitsAll (place : Place) (branch : Branch) (n : Nat) (staying : Bool) :
    List EventHandler → List (Place × ActionSpec)
  | [] => []
  | h :: hs =>
    (if staying && h.action == .navigation then [] else visits (place ++ [(branch, n)]) h) ++
      visitsAll place branch (n + 1) staying hs

end

end

/-- Whether a sub-handler has its turn when the main action above it comes out like this. -/
def Branch.Opens (branch : Branch) (child : EventHandler) : Except Fault Json → Prop
  | .ok _ => branch ≠ .error
  | .error _ => branch ≠ .success ∧ (branch = .finally_ → child.action ≠ .navigation)

/-- There is a handler at the end of this way, and the outcomes of the handlers on it lead there. -/
def Due (σ : Place → Except Fault Json) (spec : ActionSpec) (place : Place) :
    EventHandler → Place → Prop
  | h, [] => h.spec = spec
  | h, (branch, n) :: way =>
    ∃ child, (branch.of h)[n]? = some child ∧ branch.Opens child (σ place) ∧
      Due σ spec (place ++ [(branch, n)]) child way

variable {σ : Place → Except Fault Json} {limit : Nat}

/-- A handler in this list of sub-handlers, or below one, is due. -/
def DueIn (σ : Place → Except Fault Json) (spec : ActionSpec) (place q : Place) (h : EventHandler)
    (branch : Branch) : Prop :=
  ∃ n way, q = place ++ (branch, n) :: way ∧ Due σ spec place h ((branch, n) :: way)

theorem exists_due_iff {spec : ActionSpec} {place q : Place} {h : EventHandler} :
    (∃ way, q = place ++ way ∧ Due σ spec place h way) ↔
      (q = place ∧ h.spec = spec) ∨ ∃ branch, DueIn σ spec place q h branch := by
  constructor
  · rintro ⟨way, rfl, due⟩
    match way with
    | [] => exact .inl ⟨List.append_nil place, due⟩
    | (branch, n) :: way => exact .inr ⟨branch, n, way, rfl, due⟩
  · rintro (⟨rfl, own⟩ | ⟨branch, n, way, rfl, due⟩)
    · exact ⟨[], (List.append_nil q).symm, own⟩
    · exact ⟨(branch, n) :: way, rfl, due⟩

/-- Nothing is due in a branch that the outcome does not choose. -/
theorem not_dueIn {spec : ActionSpec} {place q : Place} {h : EventHandler} {branch : Branch}
    (shut : ∀ child, ¬ branch.Opens child (σ place)) : ¬ DueIn σ spec place q h branch := by
  rintro ⟨n, way, -, child, -, open_, -⟩
  exact shut child open_

/-- Where a branch that is gone through in order has its turn, its handlers are due. -/
theorem mem_branch_iff {h : EventHandler} {spec : ActionSpec} {place q : Place} (branch : Branch)
    {staying : Bool} {hs : List EventHandler}
    (mem : (q, spec) ∈ visitsAll σ limit place branch 0 staying hs ↔
      q.length < limit ∧ ∃ k child way, hs[k]? = some child ∧
        (staying = true → child.action ≠ .navigation) ∧ q = place ++ (branch, 0 + k) :: way ∧
        Due σ spec (place ++ [(branch, 0 + k)]) child way)
    (of : branch.of h = hs)
    (opens : ∀ child, branch.Opens child (σ place) ↔
      (staying = true → child.action ≠ .navigation)) :
    (q, spec) ∈ visitsAll σ limit place branch 0 staying hs ↔
      q.length < limit ∧ DueIn σ spec place q h branch := by
  subst of
  rw [mem]
  refine and_congr_right fun _ => exists_congr fun k => ?_
  rw [Nat.zero_add]
  constructor
  · rintro ⟨child, way, at_, stays, rfl, due⟩
    exact ⟨way, rfl, child, at_, (opens child).mpr stays, due⟩
  · rintro ⟨way, rfl, child, at_, open_, due⟩
    exact ⟨child, way, at_, (opens child).mp open_, rfl, due⟩

mutual

/-- The traversal comes to the handlers that are due and nest no deeper than the limit. Whether one is
due depends on the handlers above it alone, not on its siblings. -/
theorem mem_visits_iff (place q : Place) (spec : ActionSpec) (h : EventHandler) :
    (q, spec) ∈ visits σ limit place h ↔
      q.length < limit ∧ ∃ way, q = place ++ way ∧ Due σ spec place h way := by
  rw [exists_due_iff]
  obtain ⟨own, before, success, error, finally_⟩ := h
  rw [visits]
  split
  case isTrue deep =>
    have beyond : ∀ way, q = place ++ way → ¬ q.length < limit := by
      rintro way rfl
      rw [List.length_append]
      omega
    constructor
    · nofun
    · rintro ⟨fits, ⟨rfl, -⟩ | ⟨branch, n, way, heq, -⟩⟩
      · exact absurd fits (beyond [] (List.append_nil q).symm)
      · exact absurd fits (beyond _ heq)
  case isFalse fits =>
    have here : q = place → q.length < limit := by
      rintro rfl
      omega
    have before_iff := mem_branch_iff (h := .node own before success error finally_) .before
      (mem_visitsAll_iff place q spec .before 0 false before) rfl
      (fun child => by cases σ place <;> simp [Branch.Opens])
    have own_iff : (q, spec) = (place, own) ↔ q.length < limit ∧ q = place ∧ own = spec := by
      rw [Prod.mk.injEq]
      exact ⟨fun ⟨hq, hs⟩ => ⟨here hq, hq, hs.symm⟩, fun ⟨_, hq, hs⟩ => ⟨hq, hs.symm⟩⟩
    rw [List.mem_append, List.mem_cons, before_iff, own_iff, Branch.exists_iff]
    cases hσ : σ place with
    | ok v =>
      have success_iff := mem_branch_iff (h := .node own before success error finally_) .success
        (mem_visitsAll_iff place q spec .success 0 false success) rfl
        (fun child => by simp [hσ, Branch.Opens])
      have finally_iff := mem_branch_iff (h := .node own before success error finally_) .finally_
        (mem_visitsAll_iff place q spec .finally_ 0 false finally_) rfl
        (fun child => by simp [hσ, Branch.Opens])
      have shut : ¬ DueIn σ spec place q (.node own before success error finally_) .error :=
        not_dueIn fun child => by simp [hσ, Branch.Opens]
      rw [List.mem_append, success_iff, finally_iff, EventHandler.spec]
      grind
    | error f =>
      have error_iff := mem_branch_iff (h := .node own before success error finally_) .error
        (mem_visitsAll_iff place q spec .error 0 false error) rfl
        (fun child => by simp [hσ, Branch.Opens])
      have finally_iff := mem_branch_iff (h := .node own before success error finally_) .finally_
        (mem_visitsAll_iff place q spec .finally_ 0 true finally_) rfl
        (fun child => by simp [hσ, Branch.Opens])
      have shut : ¬ DueIn σ spec place q (.node own before success error finally_) .success :=
        not_dueIn fun child => by simp [hσ, Branch.Opens]
      rw [List.mem_append, error_iff, finally_iff, EventHandler.spec]
      grind

theorem mem_visitsAll_iff (place q : Place) (spec : ActionSpec) (branch : Branch) (n : Nat)
    (staying : Bool) (hs : List EventHandler) :
    (q, spec) ∈ visitsAll σ limit place branch n staying hs ↔
      q.length < limit ∧ ∃ k child way, hs[k]? = some child ∧
        (staying = true → child.action ≠ .navigation) ∧ q = place ++ (branch, n + k) :: way ∧
        Due σ spec (place ++ [(branch, n + k)]) child way := by
  match hs with
  | [] => simp [visitsAll]
  | h :: hs =>
    rw [visitsAll, List.mem_append, mem_visitsAll_iff place q spec branch (n + 1) staying hs]
    constructor
    · rintro (here | ⟨fits, k, child, way, at_, stays, rfl, due⟩)
      · split at here
        · cases here
        case isFalse open_ =>
          obtain ⟨fits, way, rfl, due⟩ := (mem_visits_iff _ q spec h).mp here
          refine ⟨fits, 0, h, way, rfl, ?_, ?_, due⟩
          · intro hs heq
            simp [hs, heq] at open_
          · simp
      · refine ⟨fits, k + 1, child, way, at_, stays, ?_, ?_⟩
        · rw [Nat.add_right_comm, Nat.add_assoc]
        · rwa [Nat.add_right_comm, Nat.add_assoc] at due
    · rintro ⟨fits, k, child, way, at_, stays, rfl, due⟩
      cases k with
      | zero =>
        obtain rfl : h = child := Option.some.inj at_
        left
        rw [if_neg (by simpa using stays)]
        exact (mem_visits_iff _ _ spec h).mpr ⟨fits, way, by simp, due⟩
      | succ k =>
        right
        have shift : n + (k + 1) = n + 1 + k := by omega
        rw [shift] at due ⊢
        exact ⟨shift ▸ fits, k, child, way, at_, stays, rfl, due⟩

end

/-- The places that sub-handlers come to lie below them. -/
theorem below_of_mem_visitsAll {place q : Place} {branch : Branch} {n : Nat} {staying : Bool}
    {hs : List EventHandler}
    (mem : q ∈ (visitsAll σ limit place branch n staying hs).map Prod.fst) :
    ∃ k way, n ≤ k ∧ q = place ++ (branch, k) :: way := by
  obtain ⟨⟨q, spec⟩, at_, rfl⟩ := List.mem_map.mp mem
  obtain ⟨-, k, child, way, -, -, rfl, -⟩ :=
    (mem_visitsAll_iff place q spec branch n staying hs).mp at_
  exact ⟨n + k, way, Nat.le_add_right n k, rfl⟩

theorem branches_disjoint {place q q' : Place} {branch branch' : Branch} {staying staying' : Bool}
    {hs hs' : List EventHandler} (apart : branch ≠ branch')
    (mem : q ∈ (visitsAll σ limit place branch 0 staying hs).map Prod.fst)
    (mem' : q' ∈ (visitsAll σ limit place branch' 0 staying' hs').map Prod.fst) : q ≠ q' := by
  obtain ⟨k, way, -, rfl⟩ := below_of_mem_visitsAll mem
  obtain ⟨k', way', -, rfl⟩ := below_of_mem_visitsAll mem'
  intro heq
  rw [List.append_cancel_left_eq, List.cons.injEq, Prod.mk.injEq] at heq
  exact apart heq.1.1

theorem ne_of_mem_visitsAll {place q : Place} {branch : Branch} {staying : Bool}
    {hs : List EventHandler}
    (mem : q ∈ (visitsAll σ limit place branch 0 staying hs).map Prod.fst) : q ≠ place := by
  obtain ⟨k, way, -, rfl⟩ := below_of_mem_visitsAll mem
  simp

/-- The lists of a handler and the handler itself lie apart. -/
theorem nodup_of_branches {place : Place} {own : ActionSpec} {branch : Branch} {staying : Bool}
    {before chosen finally_ : List EventHandler} (inner : branch ≠ .before ∧ branch ≠ .finally_)
    (firsts : ((visitsAll σ limit place .before 0 false before).map Prod.fst).Nodup)
    (seconds : ((visitsAll σ limit place branch 0 false chosen).map Prod.fst).Nodup)
    (lasts : ((visitsAll σ limit place .finally_ 0 staying finally_).map Prod.fst).Nodup) :
    ((visitsAll σ limit place .before 0 false before ++ (place, own) ::
      (visitsAll σ limit place branch 0 false chosen ++
        visitsAll σ limit place .finally_ 0 staying finally_)).map Prod.fst).Nodup := by
  rw [List.map_append, List.map_cons, List.map_append, List.nodup_append, List.nodup_cons,
    List.nodup_append, List.mem_append]
  refine ⟨firsts, ⟨?_, seconds, lasts, ?_⟩, ?_⟩
  · rintro (mem | mem) <;> exact ne_of_mem_visitsAll mem rfl
  · exact fun q mem q' mem' => branches_disjoint inner.2 mem mem'
  · intro q mem q' mem'
    rw [List.mem_cons, List.mem_append] at mem'
    rcases mem' with rfl | mem' | mem'
    · exact ne_of_mem_visitsAll mem
    · exact branches_disjoint inner.1.symm mem mem'
    · exact branches_disjoint (by decide) mem mem'

mutual

/-- No handler is come to twice. -/
theorem visits_nodup (place : Place) (h : EventHandler) :
    ((visits σ limit place h).map Prod.fst).Nodup := by
  obtain ⟨own, before, success, error, finally_⟩ := h
  rw [visits]
  split
  case isTrue => exact List.nodup_nil
  case isFalse =>
    have firsts := visitsAll_nodup place .before 0 false before
    cases σ place with
    | ok v =>
      exact nodup_of_branches ⟨nofun, nofun⟩ firsts (visitsAll_nodup place .success 0 false success)
        (visitsAll_nodup place .finally_ 0 false finally_)
    | error f =>
      exact nodup_of_branches ⟨nofun, nofun⟩ firsts (visitsAll_nodup place .error 0 false error)
        (visitsAll_nodup place .finally_ 0 true finally_)

theorem visitsAll_nodup (place : Place) (branch : Branch) (n : Nat) (staying : Bool)
    (hs : List EventHandler) :
    ((visitsAll σ limit place branch n staying hs).map Prod.fst).Nodup := by
  match hs with
  | [] => exact List.nodup_nil
  | h :: hs =>
    have later := visitsAll_nodup place branch (n + 1) staying hs
    rw [visitsAll]
    split
    · exact later
    rw [List.map_append, List.nodup_append]
    refine ⟨visits_nodup _ h, later, ?_⟩
    rintro q mem q' mem' rfl
    obtain ⟨⟨q, spec⟩, at_, rfl⟩ := List.mem_map.mp mem
    obtain ⟨-, way, rfl, -⟩ := (mem_visits_iff _ _ spec h).mp at_
    obtain ⟨k, way', beyond, heq⟩ := below_of_mem_visitsAll mem'
    rw [List.append_assoc, List.append_cancel_left_eq, List.singleton_append, List.cons.injEq,
      Prod.mk.injEq] at heq
    omega

end

end ScreenFlow.Dispatch
