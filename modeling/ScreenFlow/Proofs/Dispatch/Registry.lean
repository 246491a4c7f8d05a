import Mathlib.Data.List.Nodup
import ScreenFlow.Dispatch.Active

/-!
# Signals and active dispatches

* `Signals.holds_create`, `Signals.holds_fire`: what holds after a signal is made or fired;
* `Active.find?_eq_some_iff`: finding an entry of a table with distinct ids;
* `Active.mem_ids`: which ids are active.
-/

namespace ScreenFlow

namespace Signals

variable {s : Signals} {t : Nat} {n m : SignalId}

@[simp] theorem size_fire : (s.fire m).all.size = s.all.size := by
  simp [fire]

@[simp] theorem size_fireAll (ids : List SignalId) : (s.fireAll ids).all.size = s.all.size := by
  induction ids generalizing s with
  | nil => rfl
  | cons m ids ih => exact (ih (s := s.fire m)).trans size_fire

theorem lt_size_of_holds (h : s.holds t n = true) : n < s.all.size := by
  by_contra out
  rw [holds, Array.getElem?_eq_none (Nat.le_of_not_lt out)] at h
  cases h

/-- A signal that was just made does not hold; the others are as before. -/
theorem holds_create : (s.create none).2.holds t n = s.holds t n := by
  rcases Nat.lt_trichotomy n s.all.size with old | rfl | beyond
  · simp [create, holds, Array.getElem?_push, Nat.ne_of_lt old]
  · simp [create, holds, Signal.holds]
  · simp [create, holds, Array.getElem?_push, Nat.ne_of_gt beyond]

theorem holds_fire : (s.fire m).holds t n = true ↔ s.holds t n = true ∨ n = m ∧ n < s.all.size := by
  by_cases same : m = n
  · subst same
    by_cases lt : m < s.all.size
    · simp [fire, holds, Signal.holds, Array.getElem_modify, lt]
    · simp [fire, holds, lt]
  · simp [fire, holds, Array.getElem?_modify, same, Ne.symm same]

theorem holds_fireAll {ids : List SignalId} :
    (s.fireAll ids).holds t n = true ↔ s.holds t n = true ∨ n ∈ ids ∧ n < s.all.size := by
  induction ids generalizing s with
  | nil => simp [fireAll]
  | cons m ids ih =>
    have unfolded : s.fireAll (m :: ids) = (s.fire m).fireAll ids := rfl
    rw [unfolded, ih, holds_fire, size_fire, List.mem_cons]
    tauto

end Signals

namespace Active

variable {entries : List (String × SignalId)} {id : String} {n : SignalId}

/-- In a table with distinct ids an entry is found by its id. -/
theorem find?_eq_some_iff (distinct : (entries.map Prod.fst).Nodup) :
    find? entries id = some n ↔ (id, n) ∈ entries := by
  induction entries with
  | nil => simp [find?]
  | cons e entries ih =>
    obtain ⟨key, m⟩ := e
    rw [List.map_cons, List.nodup_cons] at distinct
    by_cases here : key = id
    · subst here
      have gone : (key, n) ∉ entries := fun mem =>
        distinct.1 (List.mem_map.mpr ⟨(key, n), mem, rfl⟩)
      simp [find?, gone, eq_comm]
    · have later : find? ((key, m) :: entries) id = find? entries id := by
        simp [find?, here]
      rw [later, ih distinct.2]
      simp [Ne.symm here]

theorem mem_remove {e : String × SignalId} : e ∈ remove entries id ↔ e ∈ entries ∧ e.1 ≠ id := by
  simp [remove]

theorem mem_put {e : String × SignalId} :
    e ∈ put entries id n ↔ (e ∈ entries ∧ e.1 ≠ id) ∨ e = (id, n) := by
  simp [put, mem_remove]

theorem nodup_remove (distinct : (entries.map Prod.fst).Nodup) :
    ((remove entries id).map Prod.fst).Nodup :=
  distinct.sublist (List.filter_sublist.map _)

theorem nodup_put (distinct : (entries.map Prod.fst).Nodup) :
    ((put entries id n).map Prod.fst).Nodup := by
  rw [put, List.map_append]
  refine List.nodup_append.mpr ⟨nodup_remove distinct, List.nodup_singleton id, ?_⟩
  rintro key mem key' mem' rfl
  obtain ⟨e, he, rfl⟩ := List.mem_map.mp mem
  exact (mem_remove.mp he).2 (List.mem_singleton.mp mem')

theorem find?_remove_ne {other : String} (h : other ≠ id) :
    find? (remove entries other) id = find? entries id := by
  induction entries with
  | nil => rfl
  | cons e entries ih =>
    obtain ⟨key, m⟩ := e
    by_cases here : key = id
    · subst here
      simp [find?, remove, Ne.symm h]
    · by_cases gone : key = other
      · subst gone
        have left : remove ((key, m) :: entries) key = remove entries key := by simp [remove]
        rw [left, ih]
        simp [find?, here]
      · have kept : remove ((key, m) :: entries) other = (key, m) :: remove entries other := by
          simp [remove, gone]
        rw [kept]
        simpa [find?, here] using ih

theorem find?_put_ne {other : String} (h : other ≠ id) :
    find? (put entries other n) id = find? entries id := by
  have kept : find? (remove entries other) id = find? entries id := find?_remove_ne h
  rw [← kept]
  simp [find?, put, List.find?_append, h]

@[simp] theorem mem_insertId {key : String} {ids : List String} :
    key ∈ insertId id ids ↔ key = id ∨ key ∈ ids := by
  unfold insertId
  split
  case isTrue known =>
    have mem : id ∈ ids := by simpa using known
    exact ⟨.inr, fun h => h.elim (fun heq => heq ▸ mem) fun h => h⟩
  case isFalse =>
    have whole := List.takeWhile_append_dropWhile (p := fun x => decide (x < id)) (l := ids)
    rw [List.mem_append, List.mem_cons]
    conv_rhs => rw [← whole, List.mem_append]
    tauto

/-- The active ids are those of the dispatches in flight and of the known streams. -/
theorem mem_ids {a : Active} :
    id ∈ a.ids ↔ id ∈ a.dispatches.map Prod.fst ∨ id ∈ a.streams.map Prod.fst := by
  have folded : ∀ (es : List (String × SignalId)) (acc : List String),
      id ∈ es.foldl (fun acc e => insertId e.1 acc) acc ↔ id ∈ es.map Prod.fst ∨ id ∈ acc := by
    intro es
    induction es with
    | nil => simp
    | cons e es ih =>
      intro acc
      rw [List.foldl_cons, ih, mem_insertId, List.map_cons, List.mem_cons]
      tauto
  rw [ids, folded, List.map_append, List.mem_append]
  simp

end Active

end ScreenFlow
