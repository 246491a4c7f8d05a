import ScreenFlow.Json.Printer

/-!
# Fields of objects and texts of values

* `lookup_insert`: what is found after a field was put in;
* `ascending_insert`, `ascending_extend`: keys that ascend go on to ascend;
* `extend_of_perm`: the order in which the fields of an object are put in does not matter;
* `Sound`: what a running program holds; `normalize_sound`: normalizing changes nothing about it;
* `Settled`: what normalizing does not change; `settled_normalize`: it makes nothing else;
* `Inline`: what a value is inside a longer text.
-/

namespace ScreenFlow.Json

variable {fields : List (String × Json)} {key k : String} {value : Json}

/-- Whether keys ascend depends on the keys alone. -/
theorem ascending_iff_keys {fields : List (String × Json)} :
    Ascending fields ↔ (fields.map (·.1)).Pairwise (· < ·) := by
  rw [List.pairwise_map, Ascending]

theorem ascending_congr {as bs : List (String × Json)} (h : as.map (·.1) = bs.map (·.1)) :
    Ascending as ↔ Ascending bs := by
  rw [ascending_iff_keys, ascending_iff_keys, h]

theorem ascending_of_keys (keys : List String) (h : fields.map (·.1) = keys)
    (sorted : keys.Pairwise (· < ·)) : Ascending fields :=
  ascending_iff_keys.mpr (h ▸ sorted)

/-! ### Putting fields in -/

theorem lt_of_ne_of_not_lt {a b : String} (hlt : ¬ a < b) (hne : a ≠ b) : b < a :=
  Classical.byContradiction fun h =>
    hne (String.le_antisymm (String.not_lt.mp h) (String.not_lt.mp hlt))

/-- What a key that is there is overwritten by; no key changes. -/
theorem overwrite_key (f : String × Json) : (if f.1 == key then (key, value) else f).1 = f.1 := by
  split
  · rename_i same
    exact (eq_of_beq same).symm
  · rfl

/-- A key that is there keeps its place, and one that is new is put before the first greater key. -/
theorem insert_cases (fields : List (String × Json)) (key : String) (value : Json) :
    ((∃ f ∈ fields, f.1 = key) ∧
      insert fields key value = fields.map fun f => if f.1 == key then (key, value) else f) ∨
    ∃ before after, fields = before ++ after ∧ (∀ f ∈ fields, f.1 ≠ key) ∧
      (∀ f ∈ before, f.1 < key) ∧ (∀ f, after.head? = some f → key < f.1) ∧
      insert fields key value = before ++ (key, value) :: after := by
  cases present : fields.any (·.1 == key) with
  | true =>
    refine .inl ⟨by simpa using present, ?_⟩
    rw [insert, present, if_pos rfl]
  | false =>
    have other : ∀ f ∈ fields, f.1 ≠ key := fun f hf => by
      simpa using List.any_eq_false.mp present f hf
    refine .inr ⟨fields.takeWhile (·.1 < key), fields.dropWhile (·.1 < key),
      List.takeWhile_append_dropWhile.symm, other, fun f hf => ?_, fun f hf => ?_, ?_⟩
    · simpa using List.all_eq_true.mp List.all_takeWhile f hf
    · have here : f ∈ fields := (List.dropWhile_sublist _).subset (List.mem_of_head? hf)
      have stops := List.head?_dropWhile_not (fun g : String × Json => decide (g.1 < key)) fields
      rw [hf] at stops
      exact lt_of_ne_of_not_lt (by simpa using stops) (other f here)
    · rw [insert, present, if_neg (by simp)]

theorem lookup_insert : lookup (insert fields key value) k =
    if k = key then some value else lookup fields k := by
  rcases insert_cases fields key value with
    ⟨⟨f, hf, rfl⟩, replaced⟩ | ⟨before, after, rfl, other, -, -, put⟩
  · have same : ((fun g : String × Json => g.1 == k) ∘ fun g => if g.1 == f.1 then (f.1, value) else g) =
        fun g => g.1 == k := funext fun g => congrArg (· == k) (overwrite_key g)
    rw [replaced, lookup, lookup, List.find?_map, same]
    by_cases hk : k = f.1
    · subst hk
      have found : (fields.find? (·.1 == f.1)).isSome := by
        rw [List.find?_isSome]
        exact ⟨f, hf, beq_self_eq_true _⟩
      obtain ⟨g, hg⟩ := Option.isSome_iff_exists.mp found
      have hgk : g.1 = f.1 := by simpa using List.find?_some hg
      rw [hg, if_pos rfl, Option.map_some, Option.map_some, if_pos (beq_iff_eq.mpr hgk)]
    · cases hg : fields.find? (·.1 == k) with
      | none => simp [hk]
      | some g =>
        have hgk : g.1 = k := by simpa using List.find?_some hg
        simp [hgk, hk]
  · rw [put]
    simp only [lookup, List.find?_append, List.find?_cons]
    have absent : before.find? (·.1 == key) = none :=
      List.find?_eq_none.mpr fun f hf => by simpa using other f (List.mem_append_left _ hf)
    by_cases hk : k = key
    · subst hk
      simp [absent]
    · have hne : (key == k) = false := by simpa using Ne.symm hk
      simp [hk, hne]

theorem mem_insert {f : String × Json} (h : f ∈ insert fields key value) :
    f = (key, value) ∨ f ∈ fields := by
  rcases insert_cases fields key value with ⟨-, replaced⟩ | ⟨before, after, rfl, -, -, -, put⟩
  · rw [replaced] at h
    obtain ⟨g, hg, rfl⟩ := List.mem_map.mp h
    split
    · exact .inl rfl
    · exact .inr hg
  · rw [put] at h
    rcases List.mem_append.mp h with old | new
    · exact .inr (List.mem_append_left _ old)
    · exact (List.mem_cons.mp new).imp_right (List.mem_append_right _)

theorem ascending_insert (h : Ascending fields) : Ascending (insert fields key value) := by
  rcases insert_cases fields key value with
    ⟨-, replaced⟩ | ⟨before, after, rfl, -, below, above, put⟩
  · refine (ascending_congr ?_).mpr h
    rw [replaced, List.map_map]
    exact List.map_congr_left fun f _ => overwrite_key f
  · obtain ⟨hbefore, hafter, between⟩ := List.pairwise_append.mp h
    have greater : ∀ f ∈ after, key < f.1 := by
      cases after with
      | nil => simp
      | cons g after =>
        have first := above g rfl
        intro f hf
        rcases List.mem_cons.mp hf with rfl | later
        · exact first
        · exact String.lt_trans first ((List.pairwise_cons.mp hafter).1 f later)
    rw [put]
    refine List.pairwise_append.mpr ⟨hbefore, List.pairwise_cons.mpr ⟨greater, hafter⟩, ?_⟩
    intro f hf g hg
    rcases List.mem_cons.mp hg with rfl | later
    · exact below f hf
    · exact between f hf g later

theorem ascending_extend {extra : List (String × Json)} (h : Ascending fields) :
    Ascending (extend fields extra) := by
  induction extra generalizing fields with
  | nil => exact h
  | cons f extra ih => exact ih (ascending_insert h)

theorem lookup_extend_of_absent {extra : List (String × Json)} (absent : ∀ f ∈ extra, f.1 ≠ k) :
    lookup (extend fields extra) k = lookup fields k := by
  induction extra generalizing fields with
  | nil => rfl
  | cons f extra ih =>
    have rest : lookup (extend (insert fields f.1 f.2) extra) k = lookup (insert fields f.1 f.2) k :=
      ih fun g hg => absent g (List.mem_cons_of_mem _ hg)
    rw [lookup_insert, if_neg (absent f List.mem_cons_self).symm] at rest
    exact rest

/-- What was put in can be told from the result, the keys being known. -/
theorem extend_inj {as bs : List (String × Json)} (keys : as.map (·.1) = bs.map (·.1))
    (ascending : Ascending as) (h : extend fields as = extend fields bs) : as = bs := by
  induction as generalizing fields bs with
  | nil =>
    rw [List.map_nil, eq_comm, List.map_eq_nil_iff] at keys
    exact keys.symm
  | cons f as ih =>
    cases bs with
    | nil => cases keys
    | cons g bs =>
      obtain ⟨key, a⟩ := f
      obtain ⟨key', b⟩ := g
      obtain ⟨rfl, rest⟩ : key = key' ∧ as.map (·.1) = bs.map (·.1) := List.cons.inj keys
      obtain ⟨least, ascending⟩ := List.pairwise_cons.mp ascending
      have absent : ∀ f ∈ as, f.1 ≠ key := fun f hf => (String.ne_of_lt (least f hf)).symm
      have absent' : ∀ f ∈ bs, f.1 ≠ key := by
        intro f hf same
        have hmem : f.1 ∈ as.map (·.1) := rest ▸ List.mem_map_of_mem hf
        obtain ⟨g, hg, hkey⟩ := List.mem_map.mp hmem
        exact absent g hg (hkey.trans same)
      have found := congrArg (lookup · key) h
      change lookup (extend (insert fields key a) as) key = lookup (extend (insert fields key b) bs) key
        at found
      rw [lookup_extend_of_absent absent, lookup_extend_of_absent absent', lookup_insert, lookup_insert,
        if_pos rfl, if_pos rfl] at found
      obtain rfl : a = b := Option.some.inj found
      rw [ih rest ascending h]

/-! ### The order in which fields are put in -/

theorem insert_perm (h : ∀ f ∈ fields, f.1 ≠ key) :
    (insert fields key value).Perm ((key, value) :: fields) := by
  rcases insert_cases fields key value with ⟨⟨f, hf, same⟩, -⟩ | ⟨before, after, rfl, -, -, -, put⟩
  · exact absurd same (h f hf)
  · rw [put]
    exact List.perm_middle

theorem extend_perm {extra : List (String × Json)} (nodup : ((fields ++ extra).map (·.1)).Nodup) :
    (extend fields extra).Perm (fields ++ extra) := by
  induction extra generalizing fields with
  | nil => rw [List.append_nil]; exact .refl _
  | cons f extra ih =>
    have moved : (fields ++ f :: extra).Perm (f :: fields ++ extra) := List.perm_middle
    have other : ∀ g ∈ fields, g.1 ≠ f.1 := by
      have := (moved.map (·.1)).nodup nodup
      rw [List.cons_append, List.map_cons, List.nodup_cons] at this
      exact fun g hg same => this.1 (same ▸ List.mem_map_of_mem (List.mem_append_left _ hg))
    have put : (insert fields f.1 f.2 ++ extra).Perm (f :: fields ++ extra) :=
      (insert_perm other).append_right extra
    exact (ih ((put.trans moved.symm).map (·.1) |>.symm.nodup nodup)).trans (put.trans moved.symm)

/-- Fields with ascending keys are what they make when they are put in one by one, in any order. -/
theorem extend_of_perm {sorted : List (String × Json)} (h : fields.Perm sorted)
    (ascending : Ascending sorted) : extend [] fields = sorted := by
  have distinct : (sorted.map (·.1)).Nodup := (ascending_iff_keys.mp ascending).imp String.ne_of_lt
  have nodup : (fields.map (·.1)).Nodup := (h.map (·.1)).symm.nodup distinct
  have moved : (extend [] fields).Perm fields := extend_perm nodup
  refine List.Perm.eq_of_pairwise (fun f g _ _ hfg hgf => ?_) (ascending_extend .nil) ascending
    (moved.trans h)
  exact absurd (String.lt_trans hfg hgf) (String.lt_irrefl _)

theorem extend_nil (h : Ascending fields) : extend [] fields = fields :=
  extend_of_perm (.refl _) h

end ScreenFlow.Json

namespace ScreenFlow

/-! ### Sound values -/

/-- The number is one that a running program can hold. -/
def Number.Sound : Number → Prop
  | .int i => fitsInteger i = true
  | .double bits => Binary64.isFinite bits = true

namespace Json

mutual

/-- The keys of every object ascend, and every number can be held. -/
def Sound : Json → Prop
  | .num n => n.Sound
  | .arr items => SoundItems items
  | .obj fields => Ascending fields ∧ SoundFields fields
  | _ => True

def SoundItems : List Json → Prop
  | [] => True
  | v :: rest => Sound v ∧ SoundItems rest

def SoundFields : List (String × Json) → Prop
  | [] => True
  | (_, v) :: rest => Sound v ∧ SoundFields rest

end

theorem soundItems_iff {vs : List Json} : SoundItems vs ↔ ∀ v ∈ vs, v.Sound := by
  induction vs with
  | nil => simp [SoundItems]
  | cons v rest ih => simp [SoundItems, ih]

theorem soundFields_iff {fs : List (String × Json)} : SoundFields fs ↔ ∀ f ∈ fs, f.2.Sound := by
  induction fs with
  | nil => simp [SoundFields]
  | cons f rest ih => simp [SoundFields, ih]

theorem empty_sound : Json.empty.Sound := ⟨.nil, trivial⟩

/-! ### Normalizing -/

theorem map_normalizeFields (fields : List (String × Json)) :
    (normalizeFields fields).map (·.1) = fields.map (·.1) := by
  induction fields with
  | nil => rfl
  | cons f rest ih => simp [normalizeFields, ih]

mutual

theorem normalize_sound : ∀ {v : Json}, v.Sound → v.normalize = v
  | .null, _ | .bool _, _ | .str _, _ | .num (.int _), _ => rfl
  | .num (.double bits), h => by simp [normalize, show Binary64.isFinite bits = true from h]
  | .arr items, h => by rw [normalize, normalizeItems_sound h]
  | .obj fields, h => by
    rw [normalize, normalizeFields_sound h.2, extend_nil h.1]

theorem normalizeItems_sound : ∀ {vs : List Json}, SoundItems vs → normalizeItems vs = vs
  | [], _ => rfl
  | v :: rest, h => by rw [normalizeItems, normalize_sound h.1, normalizeItems_sound h.2]

theorem normalizeFields_sound : ∀ {fs : List (String × Json)}, SoundFields fs →
    normalizeFields fs = fs
  | [], _ => rfl
  | (_, v) :: rest, h => by rw [normalizeFields, normalize_sound h.1, normalizeFields_sound h.2]

end

/-! ### Settled values -/

/-- The value is as it is kept: normalizing changes nothing. -/
def Settled (v : Json) : Prop := v.normalize = v

instance (v : Json) : Decidable v.Settled := inferInstanceAs (Decidable (v.normalize = v))

theorem Sound.settled {v : Json} (h : v.Sound) : v.Settled := normalize_sound h

theorem normalizeItems_eq (vs : List Json) : normalizeItems vs = vs.map normalize := by
  induction vs with
  | nil => rfl
  | cons v rest ih => rw [normalizeItems, ih, List.map_cons]

theorem normalizeFields_eq (fs : List (String × Json)) :
    normalizeFields fs = fs.map fun f => (f.1, f.2.normalize) := by
  induction fs with
  | nil => rfl
  | cons f rest ih => rw [normalizeFields, ih, List.map_cons]

theorem map_eq_self_iff {γ : Type} {f : γ → γ} {cs : List γ} :
    cs.map f = cs ↔ ∀ c ∈ cs, f c = c := by
  have same := List.map_inj_left (f := f) (g := id) (l := cs)
  rwa [List.map_id] at same

theorem settled_arr_iff {items : List Json} : (arr items).Settled ↔ ∀ v ∈ items, v.Settled := by
  rw [Settled, normalize, normalizeItems_eq, arr.injEq]
  exact map_eq_self_iff

theorem settled_obj_iff {fields : List (String × Json)} :
    (obj fields).Settled ↔ Ascending fields ∧ ∀ f ∈ fields, f.2.Settled := by
  have each : normalizeFields fields = fields ↔ ∀ f ∈ fields, f.2.Settled := by
    rw [normalizeFields_eq, map_eq_self_iff]
    simp [Prod.ext_iff, Settled]
  rw [← each, Settled, normalize, obj.injEq]
  constructor
  · intro same
    have ascending : Ascending fields := same ▸ ascending_extend .nil
    have still : Ascending (normalizeFields fields) :=
      (ascending_congr (map_normalizeFields fields)).mpr ascending
    exact ⟨ascending, by rwa [extend_nil still] at same⟩
  · rintro ⟨ascending, same⟩
    rw [same, extend_nil ascending]

theorem settled_get? {v w : Json} {key : String} (hv : v.Settled) (h : v.get? key = some w) :
    w.Settled := by
  cases v with
  | obj fields =>
    obtain ⟨f, found, rfl⟩ := Option.map_eq_some_iff.mp h
    exact (settled_obj_iff.mp hv).2 f (List.mem_of_find?_eq_some found)
  | _ => cases h

theorem mem_extend {fields extra : List (String × Json)} {f : String × Json}
    (h : f ∈ extend fields extra) : f ∈ fields ∨ f ∈ extra := by
  induction extra generalizing fields with
  | nil => exact .inl h
  | cons g extra ih =>
    rcases ih h with there | later
    · rcases mem_insert there with rfl | old
      · exact .inr List.mem_cons_self
      · exact .inl old
    · exact .inr (List.mem_cons_of_mem g later)

mutual

/-- What has been normalized is settled. -/
theorem settled_normalize : ∀ v : Json, v.normalize.Settled
  | .null | .bool _ | .str _ | .num (.int _) => by simp [normalize, Settled]
  | .num (.double bits) => by
    rw [normalize]
    split
    · rename_i finite
      exact if_pos finite
    · rfl
  | .arr items => settled_arr_iff.mpr (settled_normalizeItems items)
  | .obj fields => settled_obj_iff.mpr ⟨ascending_extend .nil, fun f hf =>
      settled_normalizeFields fields f ((mem_extend hf).resolve_left (List.not_mem_nil))⟩

theorem settled_normalizeItems : ∀ vs : List Json, ∀ v ∈ normalizeItems vs, v.Settled
  | [], _, h => nomatch h
  | v :: rest, w, h => by
    rcases List.mem_cons.mp h with rfl | later
    · exact settled_normalize v
    · exact settled_normalizeItems rest w later

theorem settled_normalizeFields :
    ∀ fs : List (String × Json), ∀ f ∈ normalizeFields fs, f.2.Settled
  | [], _, h => nomatch h
  | (_, v) :: rest, g, h => by
    rcases List.mem_cons.mp h with rfl | later
    · exact settled_normalize v
    · exact settled_normalizeFields rest g later

end

/-! ### Inside a longer text -/

/-- What a value is written as inside a longer text: a text as it is, and anything else compact.
Null has no text of its own. -/
inductive Inline : Json → String → Prop
  | text (s : String) : Inline (.str s) s
  | compact {v : Json} (there : v ≠ .null) (other : ∀ s, v ≠ .str s) : Inline v v.render

theorem inline_iff {v : Json} {t : String} : v.Inline t ↔ v ≠ .null ∧ t = v.inlineText := by
  constructor
  · intro inline
    cases inline with
    | text => exact ⟨nofun, rfl⟩
    | compact there other =>
      cases v with
      | null => exact absurd rfl there
      | str s => exact absurd rfl (other s)
      | _ => exact ⟨nofun, rfl⟩
  · rintro ⟨there, rfl⟩
    cases v with
    | null => exact absurd rfl there
    | str s => exact .text s
    | _ => exact .compact nofun nofun

end Json

end ScreenFlow
