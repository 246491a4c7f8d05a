import ScreenFlow.Process.Broadcast
import ScreenFlow.Process.Turnstile

/-!
# What processes share

Workers take turns at a turnstile, and receivers read messages at their own pace. One that keeps up
finds every message that was sent since. One that has fallen behind finds the messages that are still
kept, after it has been told so.

* `Turnstile.Serves`: which tickets are held and which are used up;
* `Serves.take`, `Serves.handBack`: taking a ticket, and handing one back;
* `hasTurn_unique`: at most one ticket has the turn;
* `Broadcast.pending`: what a receiver can still read;
* `pending_send`: a new message comes last, and old ones may be gone;
* `receive_cases`: what a receiver gets next.
-/

/-! ## Whose turn it is -/

namespace ScreenFlow.Turnstile

variable {t : Turnstile} {n m : Nat} {held held' spent spent' : List Nat}

/-- Every held ticket waits and is held once; no spent ticket comes back. -/
structure Serves (t : Turnstile) (held spent : List Nat) : Prop where
  nodup : t.waiting.Nodup
  issued : ∀ n ∈ t.waiting, n < t.next
  held_nodup : held.Nodup
  waits : ∀ n ∈ held, n ∈ t.waiting
  past : ∀ n ∈ spent, n < t.next ∧ n ∉ t.waiting

theorem Serves.of_fresh (h : t.waiting = []) : t.Serves [] [] := by
  constructor <;> simp [h]

theorem Serves.perm (h : t.Serves held spent) (hh : held.Perm held') (hs : spent.Perm spent') :
    t.Serves held' spent' where
  nodup := h.nodup
  issued := h.issued
  held_nodup := hh.nodup_iff.mp h.held_nodup
  waits n hn := h.waits n (hh.mem_iff.mpr hn)
  past n hn := h.past n (hs.mem_iff.mpr hn)

theorem Serves.forget (h : t.Serves held (n :: spent)) : t.Serves held spent :=
  { h with past := fun m hm => h.past m (List.mem_cons_of_mem n hm) }

theorem Serves.take (h : t.Serves held spent) : t.take.2.Serves (t.next :: held) spent := by
  have fresh : t.next ∉ t.waiting := fun hn => Nat.lt_irrefl _ (h.issued _ hn)
  constructor
  · refine List.nodup_append.mpr ⟨h.nodup, List.nodup_cons.mpr ⟨List.not_mem_nil, .nil⟩, ?_⟩
    rintro n hn m hm rfl
    exact fresh (List.mem_singleton.mp hm ▸ hn)
  · intro n hn
    rcases List.mem_append.mp hn with old | new
    · exact Nat.lt_succ_of_lt (h.issued n old)
    · simp [List.mem_singleton.mp new, Turnstile.take]
  · exact List.nodup_cons.mpr ⟨fun hn => fresh (h.waits _ hn), h.held_nodup⟩
  · intro n hn
    rcases List.mem_cons.mp hn with rfl | old
    · simp [Turnstile.take]
    · exact List.mem_append_left _ (h.waits n old)
  · intro n hn
    obtain ⟨hlt, hnot⟩ := h.past n hn
    refine ⟨Nat.lt_succ_of_lt hlt, fun hmem => ?_⟩
    rcases List.mem_append.mp hmem with old | new
    · exact hnot old
    · exact Nat.ne_of_lt hlt (List.mem_singleton.mp new)

theorem Serves.handBack (h : t.Serves (n :: held) spent) :
    (t.handBack n).Serves held (n :: spent) := by
  obtain ⟨hn, hheld⟩ := List.nodup_cons.mp h.held_nodup
  constructor
  · exact h.nodup.erase n
  · exact fun m hm => h.issued m (List.mem_of_mem_erase hm)
  · exact hheld
  · intro m hm
    have hne : m ≠ n := fun heq => hn (heq ▸ hm)
    exact (List.mem_erase_of_ne hne).mpr (h.waits m (List.mem_cons_of_mem n hm))
  · intro m hm
    rcases List.mem_cons.mp hm with rfl | old
    · exact ⟨h.issued m (h.waits m List.mem_cons_self), h.nodup.not_mem_erase⟩
    · exact ⟨(h.past m old).1, fun hmem => (h.past m old).2 (List.mem_of_mem_erase hmem)⟩

/-- Handing a ticket back twice does nothing. -/
theorem Serves.handBack_spent (h : t.Serves held (n :: spent)) : t.handBack n = t := by
  have hn := (h.past n List.mem_cons_self).2
  simp [Turnstile.handBack, List.erase_of_not_mem hn]

/-- Handing back everything, as an abandoned holder does. -/
theorem Serves.handBackAll {returned used : List Nat}
    (h : t.Serves (returned ++ held) (used ++ spent)) :
    ((returned ++ used).foldl Turnstile.handBack t).Serves held spent := by
  induction returned generalizing t with
  | nil =>
    induction used with
    | nil => exact h
    | cons n used ih =>
      rw [List.nil_append, List.foldl_cons, h.handBack_spent]
      exact ih h.forget
  | cons n returned ih => exact ih h.handBack.forget

theorem hasTurn_unique (hn : t.hasTurn n = true) (hm : t.hasTurn m = true) : n = m := by
  simp only [hasTurn, beq_iff_eq] at hn hm
  exact Option.some.inj (hn.symm.trans hm)

theorem hasTurn_take (h : t.hasTurn n = true) : t.take.2.hasTurn n = true := by
  simp only [hasTurn, beq_iff_eq] at h
  simp [Turnstile.take, hasTurn, List.head?_append, h]

theorem hasTurn_take_of_free (free : t.waiting = []) : t.take.2.hasTurn t.next = true := by
  simp [Turnstile.take, hasTurn, free]

theorem handBack_take_of_free (free : t.waiting = []) :
    (t.take.2.handBack t.next).waiting = [] := by
  simp [Turnstile.take, Turnstile.handBack, free]

theorem hasTurn_handBack (h : t.hasTurn n = true) (hne : m ≠ n) :
    (t.handBack m).hasTurn n = true := by
  simp only [hasTurn, beq_iff_eq] at h
  obtain ⟨rest, hrest⟩ := List.head?_eq_some_iff.mp h
  simp [Turnstile.handBack, hasTurn, hrest, Ne.symm hne]

theorem hasTurn_handBackAll {returned : List Nat} (h : t.hasTurn n = true) (hn : n ∉ returned) :
    (returned.foldl Turnstile.handBack t).hasTurn n = true := by
  induction returned generalizing t with
  | nil => exact h
  | cons m returned ih =>
    obtain ⟨hne, hn⟩ := not_or.mp (mt List.mem_cons.mpr hn)
    exact ih (hasTurn_handBack h (Ne.symm hne)) hn

theorem Serves.hasTurn_unspent (h : t.Serves held spent) (hn : t.hasTurn n = true) : n ∉ spent := by
  simp only [hasTurn, beq_iff_eq] at hn
  exact fun hmem => (h.past n hmem).2 (List.mem_of_head? hn)

end ScreenFlow.Turnstile

/-! ## What a receiver has not read yet -/

namespace ScreenFlow.Broadcast

variable {α : Type} {b : Broadcast α} {position : Nat} {a : α}

/-- No more messages are kept than were sent. -/
def Counts (b : Broadcast α) : Prop := b.kept.length ≤ b.sent

/-- The messages that a receiver at `position` can still read. -/
def pending (b : Broadcast α) (position : Nat) : List α := b.kept.drop (position - b.oldest)

/-- Whether messages are gone that a receiver at `position` has not read. -/
def IsBehind (b : Broadcast α) (position : Nat) : Prop := position < b.oldest

theorem oldest_le_sent (b : Broadcast α) : b.oldest ≤ b.sent := Nat.sub_le _ _

theorem Counts.send (h : b.Counts) : (b.send a).Counts := by
  simp only [Counts, Broadcast.send, List.length_drop, List.length_append, List.length_singleton] at h ⊢
  omega

theorem Counts.oldest_add (h : b.Counts) : b.oldest + b.kept.length = b.sent :=
  Nat.sub_add_cancel h

theorem oldest_send (h : b.Counts) :
    (b.send a).oldest = b.oldest + (b.kept.length + 1 - b.capacity) := by
  have counts := h
  simp only [Counts] at counts
  simp only [oldest, send, List.length_drop, List.length_append, List.length_singleton]
  omega

/-- Whoever is behind stays behind. -/
theorem IsBehind.send (h : b.Counts) (behind : b.IsBehind position) :
    (b.send a).IsBehind position := by
  rw [IsBehind, oldest_send h]
  exact Nat.lt_of_lt_of_le behind (Nat.le_add_right _ _)

/-- A new message comes last. Old ones are lost only to a receiver that is behind then. -/
theorem pending_send (h : b.Counts) (within : position ≤ b.sent) :
    ∃ n, (b.send a).pending position = (b.pending position ++ [a]).drop n ∧
      (n ≠ 0 → (b.send a).IsBehind position) := by
  have sum := h.oldest_add
  refine ⟨b.kept.length + 1 - b.capacity + (position - (b.send a).oldest) - (position - b.oldest),
    ?_, fun lost => ?_⟩
  · have bound : position - b.oldest ≤ b.kept.length := by omega
    have start : position - b.oldest ≤
        b.kept.length + 1 - b.capacity + (position - (b.send a).oldest) := by
      rw [oldest_send h]
      omega
    rw [pending, pending, ← List.drop_append_of_le_length bound, List.drop_drop,
      Nat.add_sub_cancel' start]
    simp only [send, List.length_append, List.length_singleton, List.drop_drop]
  · rw [IsBehind, oldest_send h]
    rw [oldest_send h] at lost
    omega

theorem pending_sent (h : b.Counts) : b.pending b.sent = [] := by
  have sum := h.oldest_add
  exact List.drop_eq_nil_of_le (by omega)

/-- Whoever has read everything finds the new message. -/
theorem pending_send_sent (h : b.Counts) (room : 0 < b.capacity) :
    (b.send a).pending b.sent = [a] := by
  obtain ⟨n, pending, lost⟩ := pending_send (a := a) h (Nat.le_refl b.sent)
  rw [pending, pending_sent h, List.nil_append]
  by_cases hn : n = 0
  · rw [hn, List.drop_zero]
  · have behind := lost hn
    have sum := h.oldest_add
    rw [IsBehind, oldest_send h] at behind
    omega

/-- There is news for whoever is behind or has something to read. -/
theorem hasNews_iff (h : b.Counts) :
    b.hasNews position = true ↔ b.IsBehind position ∨ b.pending position ≠ [] := by
  have sum := h.oldest_add
  simp only [hasNews, decide_eq_true_eq, IsBehind, pending, ne_eq, List.drop_eq_nil_iff]
  omega

/-- A receiver is told that it is behind, or it gets its next message, or there is none. -/
theorem receive_cases (h : b.Counts) (within : position ≤ b.sent) :
    (b.IsBehind position ∧ ∃ missed, b.receive position = (.lagged missed, b.oldest) ∧
        b.pending b.oldest = b.pending position) ∨
      (¬ b.IsBehind position ∧ ∃ a, b.receive position = (.message a, position + 1) ∧
        b.pending position = a :: b.pending (position + 1) ∧ position + 1 ≤ b.sent) ∨
      (b.hasNews position = false ∧ b.receive position = (.nothing, position)) := by
  have sum := h.oldest_add
  by_cases behind : position < b.oldest
  · refine .inl ⟨behind, b.oldest - position, by rw [receive, if_pos behind], ?_⟩
    rw [pending, pending, Nat.sub_self, Nat.sub_eq_zero_of_le (Nat.le_of_lt behind)]
  · rw [receive, if_neg behind]
    cases next : b.kept[position - b.oldest]? with
    | some a =>
      obtain ⟨bound, rfl⟩ := List.getElem?_eq_some_iff.mp next
      refine .inr (.inl ⟨behind, _, rfl, ?_, by omega⟩)
      rw [pending, pending, List.drop_eq_getElem_cons bound]
      congr 2
      omega
    | none =>
      have end_ := List.getElem?_eq_none_iff.mp next
      refine .inr (.inr ⟨?_, rfl⟩)
      simp only [hasNews, decide_eq_false_iff_not]
      omega

end ScreenFlow.Broadcast
