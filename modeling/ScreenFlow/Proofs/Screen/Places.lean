import Mathlib.Data.List.Nodup
import Mathlib.Order.MinMax
import ScreenFlow.Proofs.Dispatch.Visits

/-!
# The handlers of a tree

* `at?`: the handler at the end of a way;
* `places`: all handlers of a tree, each with its place; `mem_placesFrom_iff` and
  `placesFrom_nodup` show that these are the handlers that ways lead to, each one once;
* `lt_depth_iff`: how deep a tree is.
-/

namespace ScreenFlow

open Dispatch

namespace Dispatch.Branch

/-- In the order in which they can run. -/
def all : List Branch := [before, success, error, finally_]

theorem mem_all (b : Branch) : b ∈ all := by cases b <;> simp [all]

end Dispatch.Branch

namespace EventHandler

/-- The handler at the end of a way, if the way leads to one. -/
def at? (h : EventHandler) : Dispatch.Place → Option EventHandler
  | [] => some h
  | (branch, n) :: way => (branch.of h)[n]?.bind (·.at? way)

theorem at?_cons_iff {h child : EventHandler} {branch : Branch} {n : Nat} {way : Dispatch.Place} :
    h.at? ((branch, n) :: way) = some child ↔
      ∃ sub, (branch.of h)[n]? = some sub ∧ sub.at? way = some child :=
  Option.bind_eq_some_iff

mutual

/-- The handlers of a tree from the top down, where the top stands at a place. -/
def placesFrom (place : Dispatch.Place) : EventHandler → List (Dispatch.Place × ActionSpec)
  | .node spec before success error finally_ =>
    (place, spec) :: (placesFromAll place .before 0 before ++ placesFromAll place .success 0 success ++
      placesFromAll place .error 0 error ++ placesFromAll place .finally_ 0 finally_)

/-- The same for sub-handlers, from the `n`-th of a list on. -/
def placesFromAll (place : Dispatch.Place) (branch : Branch) (n : Nat) :
    List EventHandler → List (Dispatch.Place × ActionSpec)
  | [] => []
  | h :: hs => placesFrom (place ++ [(branch, n)]) h ++ placesFromAll place branch (n + 1) hs

end

def places (h : EventHandler) : List (Dispatch.Place × ActionSpec) := h.placesFrom []

variable {place q : Dispatch.Place} {spec : ActionSpec} {branch : Branch}

theorem placesFrom_eq (place : Dispatch.Place) (h : EventHandler) :
    h.placesFrom place =
      (place, h.spec) :: Branch.all.flatMap fun b => placesFromAll place b 0 (b.of h) := by
  obtain ⟨spec, before, success, error, finally_⟩ := h
  simp [placesFrom, Branch.all, Branch.of, EventHandler.spec, EventHandler.before,
    EventHandler.success, EventHandler.error, EventHandler.finally_]

mutual

/-- The places of a tree are those that ways from its top lead to. -/
theorem mem_placesFrom_iff (place q : Dispatch.Place) (spec : ActionSpec) (h : EventHandler) :
    (q, spec) ∈ h.placesFrom place ↔
      ∃ way child, q = place ++ way ∧ h.at? way = some child ∧ child.spec = spec := by
  have below (b : Branch) : (q, spec) ∈ placesFromAll place b 0 (b.of h) ↔
      ∃ k way child, q = place ++ (b, k) :: way ∧ h.at? ((b, k) :: way) = some child ∧
        child.spec = spec := by
    have each : (q, spec) ∈ placesFromAll place b 0 (b.of h) ↔ ∃ k sub way child,
        (b.of h)[k]? = some sub ∧ q = place ++ (b, 0 + k) :: way ∧ sub.at? way = some child ∧
          child.spec = spec := by
      obtain ⟨own, before, success, error, finally_⟩ := h
      cases b with
      | before => exact mem_placesFromAll_iff place q spec .before 0 before
      | success => exact mem_placesFromAll_iff place q spec .success 0 success
      | error => exact mem_placesFromAll_iff place q spec .error 0 error
      | finally_ => exact mem_placesFromAll_iff place q spec .finally_ 0 finally_
    rw [each]
    refine exists_congr fun k => ?_
    rw [Nat.zero_add]
    constructor
    · rintro ⟨sub, way, child, here, rfl, there, same⟩
      exact ⟨way, child, rfl, at?_cons_iff.mpr ⟨sub, here, there⟩, same⟩
    · rintro ⟨way, child, rfl, there, same⟩
      obtain ⟨sub, here, there⟩ := at?_cons_iff.mp there
      exact ⟨sub, way, child, here, rfl, there, same⟩
  rw [placesFrom_eq, List.mem_cons, List.mem_flatMap, Prod.mk.injEq]
  constructor
  · rintro (⟨rfl, rfl⟩ | ⟨b, -, inner⟩)
    · exact ⟨[], h, (List.append_nil q).symm, rfl, rfl⟩
    · obtain ⟨k, way, child, rfl, there, same⟩ := (below b).mp inner
      exact ⟨_, child, rfl, there, same⟩
  · rintro ⟨way, child, rfl, there, rfl⟩
    match way with
    | [] =>
      obtain rfl := Option.some.inj there
      exact .inl ⟨List.append_nil place, rfl⟩
    | (b, k) :: way =>
      exact .inr ⟨b, Branch.mem_all b, (below b).mpr ⟨k, way, child, rfl, there, rfl⟩⟩

theorem mem_placesFromAll_iff (place q : Dispatch.Place) (spec : ActionSpec) (branch : Branch) (n : Nat)
    (hs : List EventHandler) :
    (q, spec) ∈ placesFromAll place branch n hs ↔ ∃ k sub way child, hs[k]? = some sub ∧
      q = place ++ (branch, n + k) :: way ∧ sub.at? way = some child ∧ child.spec = spec := by
  match hs with
  | [] => simp [placesFromAll]
  | h :: hs =>
    rw [placesFromAll, List.mem_append, mem_placesFrom_iff _ q spec h,
      mem_placesFromAll_iff place q spec branch (n + 1) hs]
    constructor
    · rintro (⟨way, child, rfl, there, same⟩ | ⟨k, sub, way, child, here, rfl, there, same⟩)
      · exact ⟨0, h, way, child, rfl, by simp, there, same⟩
      · exact ⟨k + 1, sub, way, child, here, by rw [Nat.add_right_comm, Nat.add_assoc], there, same⟩
    · rintro ⟨k, sub, way, child, here, rfl, there, same⟩
      cases k with
      | zero =>
        obtain rfl := Option.some.inj here
        exact .inl ⟨way, child, by simp, there, same⟩
      | succ k =>
        exact .inr ⟨k, sub, way, child, here, by rw [Nat.add_right_comm, Nat.add_assoc], there, same⟩

end

theorem mem_places_iff {h : EventHandler} : (q, spec) ∈ h.places ↔
    ∃ child, h.at? q = some child ∧ child.spec = spec := by
  rw [places, mem_placesFrom_iff]
  simp

/-- Sub-handlers stand below the handler that has them. -/
theorem below_of_mem {n : Nat} {hs : List EventHandler}
    (mem : q ∈ (placesFromAll place branch n hs).map Prod.fst) :
    ∃ k way, n ≤ k ∧ q = place ++ (branch, k) :: way := by
  obtain ⟨⟨q, spec⟩, here, rfl⟩ := List.mem_map.mp mem
  obtain ⟨k, sub, way, child, -, rfl, -⟩ := (mem_placesFromAll_iff ..).mp here
  exact ⟨n + k, way, Nat.le_add_right n k, rfl⟩

mutual

/-- No two handlers stand at the same place. -/
theorem placesFrom_nodup (place : Dispatch.Place) (h : EventHandler) :
    ((h.placesFrom place).map Prod.fst).Nodup := by
  have each (b : Branch) : ((placesFromAll place b 0 (b.of h)).map Prod.fst).Nodup := by
    obtain ⟨own, before, success, error, finally_⟩ := h
    cases b with
    | before => exact placesFromAll_nodup place .before 0 before
    | success => exact placesFromAll_nodup place .success 0 success
    | error => exact placesFromAll_nodup place .error 0 error
    | finally_ => exact placesFromAll_nodup place .finally_ 0 finally_
  rw [placesFrom_eq, List.map_cons, List.map_flatMap, List.nodup_cons, List.nodup_flatMap]
  refine ⟨fun mem => ?_, fun b _ => each b, ?_⟩
  · obtain ⟨b, -, inner⟩ := List.mem_flatMap.mp mem
    obtain ⟨k, way, -, same⟩ := below_of_mem inner
    simp at same
  · have apart : Branch.all.Pairwise (· ≠ ·) := by decide
    refine apart.imp fun {b b'} differ q mem mem' => ?_
    obtain ⟨k, way, -, rfl⟩ := below_of_mem mem
    obtain ⟨k', way', -, same⟩ := below_of_mem mem'
    rw [List.append_cancel_left_eq, List.cons.injEq, Prod.mk.injEq] at same
    exact differ same.1.1

theorem placesFromAll_nodup (place : Dispatch.Place) (branch : Branch) (n : Nat) (hs : List EventHandler) :
    ((placesFromAll place branch n hs).map Prod.fst).Nodup := by
  match hs with
  | [] => exact List.nodup_nil
  | h :: hs =>
    rw [placesFromAll, List.map_append, List.nodup_append]
    refine ⟨placesFrom_nodup _ h, placesFromAll_nodup place branch (n + 1) hs, ?_⟩
    rintro q mem q' mem' rfl
    obtain ⟨⟨q, spec⟩, here, rfl⟩ := List.mem_map.mp mem
    obtain ⟨way, child, rfl, -⟩ := (mem_placesFrom_iff ..).mp here
    obtain ⟨k, way', beyond, same⟩ := below_of_mem mem'
    rw [List.append_assoc, List.append_cancel_left_eq, List.singleton_append, List.cons.injEq,
      Prod.mk.injEq] at same
    omega

end

theorem places_nodup (h : EventHandler) : (h.places.map Prod.fst).Nodup := placesFrom_nodup [] h

/-! ### Depth -/

theorem lt_depthAll_iff {limit : Nat} {hs : List EventHandler} :
    limit < depthAll hs ↔ ∃ (n : Nat) (h : EventHandler), hs[n]? = some h ∧ limit < h.depth := by
  induction hs with
  | nil => simp [depthAll]
  | cons h hs ih =>
    rw [depthAll, lt_max_iff, ih]
    constructor
    · rintro (here | ⟨n, sub, there, deep⟩)
      · exact ⟨0, h, rfl, here⟩
      · exact ⟨n + 1, sub, there, deep⟩
    · rintro ⟨_ | n, sub, there, deep⟩
      · obtain rfl := Option.some.inj there
        exact .inl deep
      · exact .inr ⟨n, sub, there, deep⟩

theorem lt_depth_succ_iff {limit : Nat} {h : EventHandler} :
    limit + 1 < h.depth ↔ ∃ (b : Branch) (n : Nat) (sub : EventHandler),
      (b.of h)[n]? = some sub ∧ limit < sub.depth := by
  obtain ⟨own, before, success, error, finally_⟩ := h
  rw [depth, Nat.add_lt_add_iff_right, lt_max_iff, lt_max_iff, lt_max_iff, lt_depthAll_iff,
    lt_depthAll_iff, lt_depthAll_iff, lt_depthAll_iff, Branch.exists_iff]
  rfl

/-- A tree is deeper than a limit exactly if it has a handler that nests deeper. -/
theorem lt_depth_iff {limit : Nat} {h : EventHandler} :
    limit < h.depth ↔ ∃ q, (h.at? q).isSome = true ∧ limit < q.length + 1 := by
  induction limit generalizing h with
  | zero =>
    obtain ⟨own, before, success, error, finally_⟩ := h
    simp only [depth, Nat.zero_lt_succ, and_true, true_iff]
    exact ⟨[], rfl⟩
  | succ limit ih =>
    rw [lt_depth_succ_iff]
    constructor
    · rintro ⟨b, n, sub, there, deep⟩
      obtain ⟨way, found, longer⟩ := ih.mp deep
      obtain ⟨child, hchild⟩ := Option.isSome_iff_exists.mp found
      have here : h.at? ((b, n) :: way) = some child := at?_cons_iff.mpr ⟨sub, there, hchild⟩
      exact ⟨(b, n) :: way, by rw [here]; rfl, Nat.succ_lt_succ longer⟩
    · rintro ⟨_ | ⟨⟨b, n⟩, way⟩, found, longer⟩
      · simp at longer
      · obtain ⟨child, hchild⟩ := Option.isSome_iff_exists.mp found
        obtain ⟨sub, there, hsub⟩ := at?_cons_iff.mp hchild
        have deep := ih.mpr ⟨way, by rw [hsub]; rfl, Nat.lt_of_succ_lt_succ longer⟩
        exact ⟨b, n, sub, there, deep⟩

end EventHandler

end ScreenFlow
