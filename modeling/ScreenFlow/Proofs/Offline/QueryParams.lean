import ScreenFlow.Offline.Snapshot
import ScreenFlow.Proofs.Json.Fields
import ScreenFlow.Proofs.Text.FormFields

/-!
# Query parameters of queued events

* `eq_mergeSort`: there is one way to sort by key that keeps the order of equal keys;
* `QueryParams.pairs_ofQuery`: pairs that are kept by key come back sorted that way;
* `Url.splitQuery_fullUrl`: the URL of an event has the base and the pairs it was put together from.
-/

namespace ScreenFlow

/-! ### Sorting by key -/

section Sorting

variable {xs ys : List (String × String)}

/-- Sorted lists that agree at each key are the same. -/
theorem eq_of_sorted (hx : xs.Pairwise (·.1 ≤ ·.1)) (hy : ys.Pairwise (·.1 ≤ ·.1))
    (same : ∀ k, xs.filter (·.1 == k) = ys.filter (·.1 == k)) : xs = ys := by
  have mem {as bs : List (String × String)}
      (same : ∀ k, as.filter (·.1 == k) = bs.filter (·.1 == k)) {p : String × String}
      (hp : p ∈ as) : p ∈ bs := by
    have here : p ∈ as.filter (·.1 == p.1) := List.mem_filter.mpr ⟨hp, beq_self_eq_true _⟩
    exact (List.mem_filter.mp (same p.1 ▸ here)).1
  induction xs generalizing ys with
  | nil =>
    cases ys with
    | nil => rfl
    | cons y ys => cases mem (fun k => (same k).symm) (p := y) List.mem_cons_self
  | cons x xs ih =>
    cases ys with
    | nil => cases mem same (p := x) List.mem_cons_self
    | cons y ys =>
      have first {a : String × String} {as : List (String × String)}
          (h : (a :: as).Pairwise (·.1 ≤ ·.1)) {p : String × String} (hp : p ∈ a :: as) :
          a.1 ≤ p.1 := by
        rcases List.mem_cons.mp hp with rfl | hp
        · exact String.le_refl _
        · exact (List.pairwise_cons.mp h).1 p hp
      have key : x.1 = y.1 := String.le_antisymm
        (first hx (mem (fun k => (same k).symm) List.mem_cons_self))
        (first hy (mem same List.mem_cons_self))
      have head := same x.1
      rw [List.filter_cons, List.filter_cons, if_pos (beq_self_eq_true _),
        if_pos (beq_iff_eq.mpr key.symm)] at head
      obtain ⟨rfl, -⟩ := List.cons.inj head
      refine congrArg (x :: ·) (ih (List.pairwise_cons.mp hx).2 (List.pairwise_cons.mp hy).2 ?_)
      intro k
      have whole := same k
      rw [List.filter_cons, List.filter_cons] at whole
      split at whole
      · exact (List.cons.inj whole).2
      · exact whole

theorem eq_mergeSort (sorted : xs.Pairwise (·.1 ≤ ·.1))
    (same : ∀ k, xs.filter (·.1 == k) = ys.filter (·.1 == k)) :
    xs = ys.mergeSort fun a b => decide (a.1 ≤ b.1) := by
  have trans (a b c : String × String) (hab : decide (a.1 ≤ b.1) = true)
      (hbc : decide (b.1 ≤ c.1) = true) : decide (a.1 ≤ c.1) = true :=
    decide_eq_true (String.le_trans (of_decide_eq_true hab) (of_decide_eq_true hbc))
  have total (a b : String × String) : (decide (a.1 ≤ b.1) || decide (b.1 ≤ a.1)) = true := by
    simpa using String.le_total a.1 b.1
  refine eq_of_sorted sorted ((List.pairwise_mergeSort trans total ys).imp of_decide_eq_true)
    fun k => (same k).trans ?_
  -- Equal keys form a sorted sublist, and sorting keeps those.
  have equal : (ys.filter (·.1 == k)).Pairwise fun a b => decide (a.1 ≤ b.1) = true := by
    refine List.pairwise_iff_forall_sublist.mpr fun {a b} hab => ?_
    have ha := (List.mem_filter.mp (hab.subset List.mem_cons_self)).2
    have hb := (List.mem_filter.mp (hab.subset (List.mem_cons_of_mem _ List.mem_cons_self))).2
    rw [eq_of_beq ha, eq_of_beq hb]
    exact decide_eq_true (String.le_refl k)
  have kept := List.sublist_mergeSort trans total equal List.filter_sublist
  have within := kept.filter (·.1 == k)
  rw [List.filter_filter] at within
  simp only [Bool.and_self] at within
  exact within.eq_of_length ((List.mergeSort_perm ys _).filter _).length_eq.symm

end Sorting

namespace QueryParams

variable {params : List (String × Json)} {k : String}

/-- The pairs that stand for one parameter. -/
def entries (key : String) : Json → List (String × String)
  | .null => []
  | .arr items => items.map fun v => (key, text v)
  | v => [(key, text v)]

theorem pairs_eq (params : List (String × Json)) :
    pairs params = params.flatMap fun p => entries p.1 p.2 := rfl

theorem key_of_entries {key : String} {v : Json} {p : String × String} (h : p ∈ entries key v) :
    p.1 = key := by
  cases v with
  | null => cases h
  | arr items =>
    obtain ⟨_, -, rfl⟩ := List.mem_map.mp h
    rfl
  | _ => rw [List.mem_singleton.mp h]

theorem exists_field {p : String × String} (h : p ∈ pairs params) : ∃ f ∈ params, f.1 = p.1 := by
  rw [pairs_eq] at h
  obtain ⟨f, hf, hp⟩ := List.mem_flatMap.mp h
  exact ⟨f, hf, (key_of_entries hp).symm⟩

/-- The pairs of a key are those of its field. -/
theorem filter_pairs (h : Json.Ascending params) :
    (pairs params).filter (·.1 == k) = ((Json.lookup params k).map (entries k)).getD [] := by
  induction params with
  | nil => rfl
  | cons f rest ih =>
    obtain ⟨above, hrest⟩ := List.pairwise_cons.mp h
    have cons : pairs (f :: rest) = entries f.1 f.2 ++ pairs rest := by
      rw [pairs_eq, pairs_eq, List.flatMap_cons]
    rw [cons, List.filter_append]
    by_cases hk : f.1 = k
    · subst hk
      have mine : (entries f.1 f.2).filter (·.1 == f.1) = entries f.1 f.2 :=
        List.filter_eq_self.mpr fun p hp => beq_iff_eq.mpr (key_of_entries hp)
      have others : (pairs rest).filter (·.1 == f.1) = [] := by
        refine List.filter_eq_nil_iff.mpr fun p hp same => ?_
        obtain ⟨g, hg, hgp⟩ := exists_field hp
        have greater := above g hg
        rw [hgp, eq_of_beq same] at greater
        exact String.lt_irrefl _ greater
      rw [mine, others, List.append_nil]
      simp [Json.lookup]
    · have none_mine : (entries f.1 f.2).filter (·.1 == k) = [] :=
        List.filter_eq_nil_iff.mpr fun p hp same =>
          hk ((key_of_entries hp).symm.trans (eq_of_beq same))
      rw [none_mine, List.nil_append, ih hrest]
      simp [Json.lookup, hk]

theorem sorted_pairs (h : Json.Ascending params) : (pairs params).Pairwise (·.1 ≤ ·.1) := by
  rw [pairs_eq, List.pairwise_flatMap]
  constructor
  · intro f _
    refine List.pairwise_of_forall_mem_list fun p hp q hq => ?_
    have same : p.1 = q.1 := (key_of_entries hp).trans (key_of_entries hq).symm
    exact same ▸ String.le_refl _
  · refine List.Pairwise.imp (fun {f g} hlt p hp q hq => ?_) h
    rw [key_of_entries hp, key_of_entries hq]
    exact String.not_lt.mp (String.lt_asymm hlt)

/-- What collecting pairs makes: one text for a key, or an array of them. -/
structure Collected (params : List (String × Json)) : Prop where
  ascending : Json.Ascending params
  texts : ∀ f ∈ params, (∃ s, f.2 = .str s) ∨ ∃ ss : List String, f.2 = .arr (ss.map .str)

theorem Collected.lookup (h : Collected params) {v : Json} (hv : Json.lookup params k = some v) :
    (∃ s, v = .str s) ∨ ∃ ss : List String, v = .arr (ss.map .str) := by
  obtain ⟨f, hf, rfl⟩ := Option.map_eq_some_iff.mp hv
  exact h.texts f (List.mem_of_find?_eq_some hf)

/-- One more pair comes behind those of its key. -/
theorem Collected.add (h : Collected params) (p : String × String) :
    Collected (add params p) ∧ ∀ k, (pairs (QueryParams.add params p)).filter (·.1 == k) =
      (pairs params ++ [p]).filter (·.1 == k) := by
  obtain ⟨value, put, shape, grown⟩ : ∃ value,
      QueryParams.add params p = Json.insert params p.1 value ∧
      ((∃ s, value = .str s) ∨ ∃ ss : List String, value = .arr (ss.map .str)) ∧
      entries p.1 value = ((Json.lookup params p.1).map (entries p.1)).getD [] ++ [p] := by
    refine ⟨_, rfl, ?_⟩
    cases hv : Json.lookup params p.1 with
    | none => exact ⟨.inl ⟨_, rfl⟩, rfl⟩
    | some v =>
      rcases h.lookup hv with ⟨s, rfl⟩ | ⟨ss, rfl⟩
      · exact ⟨.inr ⟨[s, p.2], rfl⟩, rfl⟩
      · exact ⟨.inr ⟨ss ++ [p.2], by simp⟩, by simp [entries, text]⟩
  have ascending : Json.Ascending (QueryParams.add params p) := put ▸ Json.ascending_insert h.ascending
  refine ⟨⟨ascending, fun f hf => ?_⟩, fun k => ?_⟩
  · rcases Json.mem_insert (put ▸ hf) with rfl | old
    · exact shape
    · exact h.texts f old
  · rw [filter_pairs ascending, put, Json.lookup_insert, List.filter_append,
      filter_pairs h.ascending]
    by_cases hk : k = p.1
    · subst hk
      simp [grown]
    · simp [hk, Ne.symm hk]

theorem Collected.foldl (h : Collected params) (ps : List (String × String)) :
    Collected (ps.foldl QueryParams.add params) ∧
      ∀ k, (pairs (ps.foldl QueryParams.add params)).filter (·.1 == k) =
        (pairs params ++ ps).filter (·.1 == k) := by
  induction ps generalizing params with
  | nil => exact ⟨h, fun k => by rw [List.append_nil]; rfl⟩
  | cons p ps ih =>
    obtain ⟨collected, same⟩ := h.add p
    obtain ⟨done, rest⟩ := ih collected
    refine ⟨done, fun k => ?_⟩
    rw [List.foldl_cons, rest, List.filter_append, same, ← List.filter_append, List.append_assoc,
      List.singleton_append]

theorem collected_nil : Collected [] := ⟨.nil, by simp⟩

theorem collected_ofQuery (query : String) : Collected (ofQuery query) :=
  (collected_nil.foldl (FormFields.decode query)).1

/-- The pairs of a query come back sorted by key, those of one key in their order. -/
theorem pairs_ofQuery (query : String) :
    pairs (ofQuery query) = (FormFields.decode query).mergeSort fun a b => decide (a.1 ≤ b.1) := by
  obtain ⟨collected, same⟩ := collected_nil.foldl (FormFields.decode query)
  exact eq_mergeSort (sorted_pairs collected.ascending) same

end QueryParams

/-! ### URLs -/

namespace Text

variable {c : Char} {before cs : List Char}

theorem splitAt?_cons (c x : Char) (xs : List Char) : splitAt? [c] (x :: xs) =
    if c = x then some ([], xs) else (splitAt? [c] xs).map fun p => (x :: p.1, p.2) := by
  by_cases h : c = x <;> simp [splitAt?, dropPrefix?, h]

/-- A text is cut where the character stands first. -/
theorem splitAt?_append (h : c ∉ before) (after : List Char) :
    splitAt? [c] (before ++ c :: after) = some (before, after) := by
  induction before with
  | nil => rw [List.nil_append, splitAt?_cons, if_pos rfl]
  | cons x before ih =>
    obtain ⟨hne, hmem⟩ := not_or.mp (mt List.mem_cons.mpr h)
    rw [List.cons_append, splitAt?_cons, if_neg hne, ih hmem]
    rfl

theorem splitAt?_absent (h : c ∉ cs) : splitAt? [c] cs = none := by
  induction cs with
  | nil => rfl
  | cons x cs ih =>
    obtain ⟨hne, hmem⟩ := not_or.mp (mt List.mem_cons.mpr h)
    rw [splitAt?_cons, if_neg hne, ih hmem]
    rfl

end Text

namespace Url

open OfflineEvent (fullUrl)

theorem splitQuery_absent {url : String} (h : '?' ∉ url.toList) : splitQuery url = (url, none) := by
  simp [splitQuery, Text.splitOnce, Text.splitAt?_absent h]

theorem splitQuery_append {url : String} {before after : List Char} (h : '?' ∉ before)
    (hurl : url.toList = before ++ '?' :: after) :
    (splitQuery url).1 = String.ofList before ∧
      (splitQuery url).2.getD "" = String.ofList after := by
  have cut : Text.splitOnce '?' url = some (String.ofList before, String.ofList after) := by
    rw [Text.splitOnce, hurl, Text.splitAt?_append h]
    rfl
  rw [splitQuery, cut]
  refine ⟨rfl, ?_⟩
  dsimp only
  split
  · rename_i empty
    exact (String.isEmpty_iff.mp empty).symm
  · rfl

theorem not_mem_base (url : String) : '?' ∉ (splitQuery url).1.toList := by
  by_cases h : '?' ∈ url.toList
  · obtain ⟨before, after, hurl, hmem⟩ := List.eq_append_cons_of_mem h
    rw [(splitQuery_append hmem hurl).1, String.toList_ofList]
    exact hmem
  · rw [splitQuery_absent h]
    exact h

/-- The URL of an event has the base and the pairs that it was put together from. -/
theorem splitQuery_fullUrl {base : String} (h : '?' ∉ base.toList) (params : List (String × Json)) :
    (splitQuery (fullUrl base params)).1 = base ∧
      FormFields.decode ((splitQuery (fullUrl base params)).2.getD "") = QueryParams.pairs params := by
  cases params with
  | nil =>
    have bare : fullUrl base [] = base := rfl
    rw [bare, splitQuery_absent h]
    exact ⟨rfl, FormFields.decode_encode []⟩
  | cons f rest =>
    have cut : (fullUrl base (f :: rest)).toList = base.toList ++
        '?' :: (FormFields.encode (QueryParams.pairs (f :: rest))).toList := by simp [fullUrl, h]
    obtain ⟨hbase, hquery⟩ := splitQuery_append h cut
    rw [hbase, hquery, String.ofList_toList, String.ofList_toList]
    exact ⟨rfl, FormFields.decode_encode _⟩

end Url

end ScreenFlow
