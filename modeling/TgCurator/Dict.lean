import Mathlib.Data.List.Basic
import Mathlib.Data.List.Perm.Basic
import Mathlib.Data.List.Nodup

/-!
# Insertion-ordered dictionaries

A dictionary is the list of its items in insertion order. Assigning to a present key
replaces its value where it stands, assigning to a new key appends an item, and a
lookup is `List.lookup`. The operations keep the keys distinct (`nodup_keys_set`,
`nodup_keys_erase`), and with distinct keys an item is present exactly when a lookup
finds it (`lookup_eq_some_iff_mem`), so that a lookup does not see the order of the
items (`lookup_perm`).
-/

/-- The items of a dictionary in insertion order. -/
abbrev Dict (K V : Type*) := List (K × V)

namespace Dict

variable {K V W : Type*} [DecidableEq K]

/-- The keys in insertion order. -/
def keys (d : Dict K V) : List K :=
  d.map Prod.fst

/-- The values in insertion order. -/
def values (d : Dict K V) : List V :=
  d.map Prod.snd

/-- Assign `v` to `k`. -/
def set (k : K) (v : V) : Dict K V → Dict K V
  | [] => [(k, v)]
  | (k', v') :: d => if k' = k then (k, v) :: d else (k', v') :: set k v d

/-- Assign `v` to `k` unless `k` is present. -/
def setDefault (k : K) (v : V) (d : Dict K V) : Dict K V :=
  if k ∈ d.keys then d else d ++ [(k, v)]

/-- Remove `k`. -/
def erase (k : K) (d : Dict K V) : Dict K V :=
  d.filter fun e => e.1 ≠ k

/-- Change the values, each with its key at hand. -/
def mapValues (f : K → V → W) (d : Dict K V) : Dict K W :=
  d.map fun e => (e.1, f e.1 e.2)

/-- The dictionary of a list of items, assigned in order. -/
def ofList (l : List (K × V)) : Dict K V :=
  l.foldl (fun d e => d.set e.1 e.2) []

omit [DecidableEq K] in
@[simp] theorem keys_nil : keys ([] : Dict K V) = [] :=
  rfl

omit [DecidableEq K] in
@[simp] theorem keys_cons (e : K × V) (d : Dict K V) : keys (e :: d) = e.1 :: d.keys :=
  rfl

omit [DecidableEq K] in
@[simp] theorem keys_mapValues (f : K → V → W) (d : Dict K V) : (d.mapValues f).keys = d.keys := by
  simp [mapValues, keys]

omit [DecidableEq K] in
theorem mem_keys {k : K} {d : Dict K V} : k ∈ d.keys ↔ ∃ v, (k, v) ∈ d := by
  simp [keys]

/-! ## Updates -/

theorem mem_keys_set {k k' : K} {v : V} {d : Dict K V} :
    k' ∈ (d.set k v).keys ↔ k' = k ∨ k' ∈ d.keys := by
  induction d with
  | nil => simp [set]
  | cons e d ih =>
    rw [set]
    split_ifs with h
    · simp [h]
    · simp only [keys_cons, List.mem_cons, ih]
      tauto

/-- Assigning keeps the keys distinct. -/
theorem nodup_keys_set {k : K} {v : V} {d : Dict K V} (hd : d.keys.Nodup) :
    (d.set k v).keys.Nodup := by
  induction d with
  | nil => simp [set]
  | cons e d ih =>
    rw [keys_cons, List.nodup_cons] at hd
    rw [set]
    split_ifs with h
    · rw [keys_cons, List.nodup_cons]
      exact ⟨h ▸ hd.1, hd.2⟩
    · rw [keys_cons, List.nodup_cons, mem_keys_set, not_or]
      exact ⟨⟨h, hd.1⟩, ih hd.2⟩

theorem set_of_notMem {k : K} {v : V} {d : Dict K V} (h : k ∉ d.keys) :
    d.set k v = d ++ [(k, v)] := by
  induction d with
  | nil => rfl
  | cons e d ih =>
    rw [keys_cons, List.mem_cons, not_or] at h
    rw [set, if_neg (Ne.symm h.1), ih h.2, List.cons_append]

/-- Items under distinct keys are a dictionary as they stand. -/
theorem ofList_eq_self {l : List (K × V)} (h : (keys l).Nodup) : ofList l = l := by
  have key : ∀ (l : List (K × V)) (d : Dict K V), (keys (d ++ l)).Nodup →
      l.foldl (fun d e => d.set e.1 e.2) d = d ++ l := by
    intro l
    induction l with
    | nil => simp
    | cons e l ih =>
      intro d h
      have hnotMem : e.1 ∉ d.keys := by
        rw [keys, List.map_append, List.nodup_append] at h
        exact fun hmem => h.2.2 e.1 hmem e.1 (List.mem_cons_self ..) rfl
      rw [List.foldl_cons, set_of_notMem hnotMem, ih _ (by simpa using h)]
      simp
  exact key l [] h

theorem mem_set {k : K} {v : V} {d : Dict K V} {e : K × V} (h : e ∈ d.set k v) :
    e = (k, v) ∨ e ∈ d := by
  induction d with
  | nil => simpa [set] using h
  | cons e' d ih =>
    rw [set] at h
    split_ifs at h
    · rcases List.mem_cons.mp h with rfl | h
      · exact Or.inl rfl
      · exact Or.inr (List.mem_cons_of_mem _ h)
    · rcases List.mem_cons.mp h with rfl | h
      · exact Or.inr (by simp)
      · exact (ih h).imp_right (List.mem_cons_of_mem _)

theorem nodup_keys_setDefault {k : K} {v : V} {d : Dict K V} (hd : d.keys.Nodup) :
    (d.setDefault k v).keys.Nodup := by
  unfold setDefault
  split_ifs with hk
  · exact hd
  · have hkeys : keys (d ++ [(k, v)]) = d.keys ++ [k] := by simp [keys]
    rw [hkeys]
    exact hd.append (List.nodup_singleton k) (by simpa using hk)

theorem mem_setDefault {k : K} {v : V} {d : Dict K V} {e : K × V} (h : e ∈ d.setDefault k v) :
    e = (k, v) ∨ e ∈ d := by
  unfold setDefault at h
  split_ifs at h
  · exact .inr h
  · simpa [or_comm] using h

theorem mem_keys_setDefault {k k' : K} {v : V} {d : Dict K V} :
    k' ∈ (d.setDefault k v).keys ↔ k' = k ∨ k' ∈ d.keys := by
  unfold setDefault
  split_ifs with hk
  · exact ⟨.inr, fun h => h.elim (fun h => h ▸ hk) id⟩
  · simp [keys, or_comm]

/-- Removing keeps the keys distinct. -/
theorem nodup_keys_erase {k : K} {d : Dict K V} (hd : d.keys.Nodup) : (d.erase k).keys.Nodup :=
  hd.sublist (List.filter_sublist.map Prod.fst)

theorem mem_erase {k : K} {d : Dict K V} {e : K × V} : e ∈ d.erase k ↔ e ∈ d ∧ e.1 ≠ k := by
  simp [erase]

/-! ## Lookup -/

variable [BEq K] [LawfulBEq K]

theorem lookup_cons (k : K) (e : K × V) (d : Dict K V) :
    List.lookup k (e :: d) = if e.1 = k then some e.2 else d.lookup k := by
  rw [List.lookup_cons]
  by_cases h : e.1 = k
  · simp [h]
  · rw [if_neg h, beq_eq_false_iff_ne.mpr (Ne.symm h)]

theorem mem_of_lookup {k : K} {v : V} {d : Dict K V} (h : d.lookup k = some v) : (k, v) ∈ d := by
  induction d with
  | nil => simp at h
  | cons e d ih =>
    rw [lookup_cons] at h
    split_ifs at h with hk
    · obtain rfl := hk
      simp only [Option.some.injEq] at h
      simp [← h]
    · exact List.mem_cons_of_mem _ (ih h)

theorem lookup_of_mem {k : K} {v : V} {d : Dict K V} (hd : d.keys.Nodup) (h : (k, v) ∈ d) :
    d.lookup k = some v := by
  induction d with
  | nil => simp at h
  | cons e d ih =>
    rw [keys_cons, List.nodup_cons] at hd
    rw [lookup_cons]
    rcases List.mem_cons.mp h with rfl | h
    · simp
    · rw [if_neg, ih hd.2 h]
      rintro rfl
      exact hd.1 (mem_keys.mpr ⟨v, h⟩)

/-- With distinct keys a lookup finds exactly the items. -/
theorem lookup_eq_some_iff_mem {k : K} {v : V} {d : Dict K V} (hd : d.keys.Nodup) :
    d.lookup k = some v ↔ (k, v) ∈ d :=
  ⟨mem_of_lookup, lookup_of_mem hd⟩

theorem lookup_eq_none {k : K} {d : Dict K V} : d.lookup k = none ↔ k ∉ d.keys := by
  induction d with
  | nil => simp
  | cons e d ih =>
    rw [lookup_cons, keys_cons, List.mem_cons, not_or, ← ih]
    split_ifs with h
    · simp [h]
    · simp [Ne.symm h]

/-- A lookup does not depend on the order of the items. -/
theorem lookup_perm {d d' : Dict K V} (hd : d.keys.Nodup) (h : d.Perm d') (k : K) :
    d.lookup k = d'.lookup k := by
  have hd' : d'.keys.Nodup := (h.map Prod.fst).nodup_iff.mp hd
  cases hl : d.lookup k with
  | some v => exact (lookup_of_mem hd' (h.subset (mem_of_lookup hl))).symm
  | none =>
    symm
    rw [lookup_eq_none] at hl ⊢
    exact fun hk => hl ((h.map Prod.fst).symm.subset hk)

/-- Mapping the values maps what a lookup finds. -/
theorem lookup_map (f : V → W) (k : K) (d : Dict K V) :
    List.lookup k (d.map fun e => (e.1, f e.2)) = (d.lookup k).map f := by
  induction d with
  | nil => rfl
  | cons e d ih =>
    rw [List.map_cons, lookup_cons, lookup_cons, ih]
    split_ifs <;> rfl

theorem lookup_mapValues (f : K → V → W) (k : K) (d : Dict K V) :
    (d.mapValues f).lookup k = (d.lookup k).map (f k) := by
  induction d with
  | nil => rfl
  | cons e d ih =>
    rw [mapValues, List.map_cons, lookup_cons, lookup_cons]
    split_ifs with hk
    · rw [hk]
      rfl
    · exact ih

@[simp] theorem lookup_set_self (k : K) (v : V) (d : Dict K V) :
    (d.set k v).lookup k = some v := by
  induction d with
  | nil => simp [set]
  | cons e d ih =>
    rw [set]
    split_ifs with h
    · simp
    · rw [lookup_cons, if_neg h, ih]

theorem lookup_set_of_ne {k k' : K} (h : k' ≠ k) (v : V) (d : Dict K V) :
    (d.set k v).lookup k' = d.lookup k' := by
  induction d with
  | nil => simp [set, h]
  | cons e d ih =>
    rw [set]
    split_ifs with he
    · rw [lookup_cons, lookup_cons, if_neg (Ne.symm h), if_neg (he ▸ Ne.symm h)]
    · rw [lookup_cons, lookup_cons, ih]

/-- What a lookup finds after an assignment: the new item, or an old one under another key. -/
theorem of_lookup_set {k k' : K} {v w : V} {d : Dict K V} (h : (d.set k v).lookup k' = some w) :
    (k' = k ∧ w = v) ∨ (k' ≠ k ∧ d.lookup k' = some w) := by
  by_cases hk : k' = k
  · rw [hk, lookup_set_self] at h
    exact .inl ⟨hk, (Option.some.inj h).symm⟩
  · rw [lookup_set_of_ne hk] at h
    exact .inr ⟨hk, h⟩

theorem mem_set_iff {k : K} {v : V} {d : Dict K V} (hd : d.keys.Nodup) {e : K × V} :
    e ∈ d.set k v ↔ e = (k, v) ∨ (e ∈ d ∧ e.1 ≠ k) := by
  obtain ⟨k', w⟩ := e
  rw [← lookup_eq_some_iff_mem (nodup_keys_set hd), ← lookup_eq_some_iff_mem hd]
  by_cases hk : k' = k
  · subst hk
    rw [lookup_set_self]
    simp [eq_comm]
  · rw [lookup_set_of_ne hk]
    simp [hk]

/-- A value that keeps what `f` reads. -/
theorem map_lookup_set {f : V → W} {k : K} {v v' : V} {d : Dict K V} (hv : d.lookup k = some v)
    (hf : f v' = f v) (k' : K) : ((d.set k v').lookup k').map f = (d.lookup k').map f := by
  by_cases hk : k' = k
  · subst hk
    rw [lookup_set_self, hv, Option.map_some, Option.map_some, hf]
  · rw [lookup_set_of_ne hk]

@[simp] theorem lookup_erase_self (k : K) (d : Dict K V) : (d.erase k).lookup k = none := by
  rw [lookup_eq_none]
  simp [erase, keys]

theorem lookup_erase_of_ne {k k' : K} (h : k' ≠ k) (d : Dict K V) :
    (d.erase k).lookup k' = d.lookup k' := by
  induction d with
  | nil => rfl
  | cons e d ih =>
    by_cases he : e.1 = k
    · rw [erase, List.filter_cons_of_neg (by simpa using he), ← erase, ih, lookup_cons,
        if_neg (he ▸ Ne.symm h)]
    · rw [erase, List.filter_cons_of_pos (by simpa using he), ← erase, lookup_cons, lookup_cons, ih]

/-- What a lookup finds after a removal was there before, under another key. -/
theorem of_lookup_erase {k k' : K} {v : V} {d : Dict K V} (h : (d.erase k).lookup k' = some v) :
    k' ≠ k ∧ d.lookup k' = some v := by
  by_cases hk : k' = k
  · rw [hk, lookup_erase_self] at h
    cases h
  · rw [lookup_erase_of_ne hk] at h
    exact ⟨hk, h⟩

omit [BEq K] [LawfulBEq K] in
theorem mapValues_set (f : K → V → W) (k : K) (v : V) (d : Dict K V) :
    (d.set k v).mapValues f = (d.mapValues f).set k (f k v) := by
  induction d with
  | nil => rfl
  | cons e d ih =>
    obtain ⟨k', v'⟩ := e
    by_cases hk : k' = k
    · simp [set, mapValues, hk]
    · simpa [set, mapValues, hk] using ih

omit [BEq K] [LawfulBEq K] in
/-- The values of a dictionary of items are changed item by item. -/
theorem mapValues_ofList (f : K → V → W) (l : List (K × V)) :
    (ofList l).mapValues f = ofList (l.map fun e => (e.1, f e.1 e.2)) := by
  have key : ∀ (l : List (K × V)) (d : Dict K V),
      mapValues f (l.foldl (fun d e => d.set e.1 e.2) d) =
        (l.map fun e => (e.1, f e.1 e.2)).foldl (fun d e => d.set e.1 e.2) (d.mapValues f) := by
    intro l
    induction l with
    | nil => exact fun _ => rfl
    | cons e l ih =>
      intro d
      rw [List.foldl_cons, ih, mapValues_set]
      rfl
  exact key l []

omit [BEq K] [LawfulBEq K] in
theorem nodup_keys_ofList (l : List (K × V)) : (ofList l).keys.Nodup := by
  have key : ∀ (l : List (K × V)) (d : Dict K V), d.keys.Nodup →
      (keys (l.foldl (fun d e => d.set e.1 e.2) d)).Nodup := by
    intro l
    induction l with
    | nil => exact fun _ hd => hd
    | cons e l ih => exact fun d hd => ih _ (nodup_keys_set hd)
  exact key l [] List.nodup_nil

/-- What a lookup finds in a dictionary of items is one of the items. -/
theorem mem_of_lookup_ofList {l : List (K × V)} {k : K} {v : V} (h : (ofList l).lookup k = some v) :
    (k, v) ∈ l := by
  have key : ∀ (l : List (K × V)) (d : Dict K V),
      (l.foldl (fun d e => d.set e.1 e.2) d).lookup k = some v → (k, v) ∈ l ∨ d.lookup k = some v := by
    intro l
    induction l with
    | nil => exact fun d h => .inr h
    | cons e l ih =>
      intro d h
      rcases ih _ h with h | h
      · exact .inl (List.mem_cons_of_mem _ h)
      · rcases of_lookup_set h with ⟨rfl, rfl⟩ | ⟨-, h⟩
        · exact .inl (List.mem_cons_self ..)
        · exact .inr h
  rcases key l [] h with h | h
  · exact h
  · cases h

theorem lookup_ofList_of_mem {l : List (K × V)} {k : K} {v : V} (hl : (keys l).Nodup)
    (h : (k, v) ∈ l) : (ofList l).lookup k = some v := by
  rw [ofList_eq_self hl]
  exact lookup_of_mem hl h

/-- The values that `f` keeps, under their keys. -/
theorem lookup_filterMap {f : V → Option W} {d : Dict K V} (hd : d.keys.Nodup) (k : K) :
    List.lookup k (d.filterMap fun e => (f e.2).map fun w => (e.1, w)) =
      (d.lookup k).bind f := by
  induction d with
  | nil => rfl
  | cons e d ih =>
    rw [keys_cons, List.nodup_cons] at hd
    rw [lookup_cons, List.filterMap_cons]
    by_cases hk : e.1 = k
    · have hnone : d.lookup k = none := lookup_eq_none.mpr (hk ▸ hd.1)
      rw [if_pos hk, Option.bind_some]
      cases hf : f e.2 with
      | none =>
        rw [Option.map_none, ih hd.2, hnone]
        rfl
      | some w =>
        rw [Option.map_some]
        dsimp only
        rw [lookup_cons, if_pos hk]
    · rw [if_neg hk, ← ih hd.2]
      cases f e.2 with
      | none => rfl
      | some w =>
        rw [Option.map_some]
        dsimp only
        rw [lookup_cons, if_neg hk]

omit [DecidableEq K] [BEq K] [LawfulBEq K] in
theorem nodup_keys_filterMap {f : V → Option W} {d : Dict K V} (hd : d.keys.Nodup) :
    (keys (d.filterMap fun e => (f e.2).map fun w => (e.1, w))).Nodup := by
  have hsub : (keys (d.filterMap fun e => (f e.2).map fun w => (e.1, w))).Sublist d.keys := by
    clear hd
    induction d with
    | nil => exact .slnil
    | cons e d ih =>
      rw [List.filterMap_cons]
      cases f e.2 with
      | none => exact ih.cons _
      | some w => exact ih.cons_cons _
  exact hd.sublist hsub

/-- Values assigned in order, each under a key of its own: the last one under a key stays. -/
theorem lookup_foldl_set (key : V → K) (l : List V) (d : Dict K V) (k : K) :
    (l.foldl (fun d v => d.set (key v) v) d).lookup k =
      (l.filter fun v => key v = k).getLast?.or (d.lookup k) := by
  induction l generalizing d with
  | nil => rfl
  | cons v l ih =>
    rw [List.foldl_cons, ih]
    by_cases hk : key v = k
    · rw [List.filter_cons_of_pos (by simpa using hk), List.getLast?_cons, hk, lookup_set_self]
      cases (l.filter fun v => key v = k).getLast? <;> rfl
    · rw [List.filter_cons_of_neg (by simpa using hk), lookup_set_of_ne (Ne.symm hk)]

/-- The items under one key. -/
theorem filter_key {k : K} {d : Dict K V} (hd : d.keys.Nodup) :
    d.filter (fun e => e.1 = k) = (d.lookup k).toList.map fun v => (k, v) := by
  induction d with
  | nil => rfl
  | cons e d ih =>
    rw [keys_cons, List.nodup_cons] at hd
    rw [lookup_cons]
    split_ifs with h
    · have hnone : d.lookup k = none := lookup_eq_none.mpr (h ▸ hd.1)
      rw [List.filter_cons_of_pos (by simpa using h), ih hd.2, hnone, ← h]
      rfl
    · rw [List.filter_cons_of_neg (by simpa using h), ih hd.2]

/-- Assigning an item no filter keeps, in place of one it does not keep either, does not
change what it keeps. -/
theorem filter_set {p : K × V → Bool} {k : K} {v : V} {d : Dict K V} (hnew : p (k, v) = false)
    (hold : ∀ w, d.lookup k = some w → p (k, w) = false) : (d.set k v).filter p = d.filter p := by
  induction d with
  | nil => simp [set, hnew]
  | cons e d ih =>
    rw [set]
    split_ifs with h
    · have he : p e = false := by
        obtain ⟨k', w⟩ := e
        obtain rfl : k' = k := h
        exact hold w (by rw [lookup_cons, if_pos rfl])
      rw [List.filter_cons_of_neg (by simp [hnew]), List.filter_cons_of_neg (by simp [he])]
    · have ih' := ih fun w hw => hold w (by rw [lookup_cons, if_neg h, hw])
      rw [List.filter_cons, List.filter_cons, ih']

omit [BEq K] [LawfulBEq K] in
/-- Assigning an item a filter keeps, in place of one it keeps too. -/
theorem filter_set_of_kept {p : K × V → Bool} {k : K} {v : V} {d : Dict K V}
    (hnew : p (k, v) = true) (hold : ∀ w, (k, w) ∈ d → p (k, w) = true) :
    (d.set k v).filter p = Dict.set k v (d.filter p) := by
  induction d with
  | nil => simp [set, hnew]
  | cons e d ih =>
    have ih' := ih fun w hw => hold w (List.mem_cons_of_mem _ hw)
    rw [set]
    split_ifs with h
    · have he : p e = true := by
        obtain ⟨k', w⟩ := e
        obtain rfl : k' = k := h
        exact hold w (List.mem_cons_self ..)
      rw [List.filter_cons_of_pos hnew, List.filter_cons_of_pos he, set, if_pos h]
    · by_cases he : p e = true
      · rw [List.filter_cons_of_pos he, List.filter_cons_of_pos he, set, if_neg h, ih']
      · rw [List.filter_cons_of_neg he, List.filter_cons_of_neg he, ih']

/-- Assigning an item a filter keeps, in place of one it does not keep, adds it. -/
theorem filter_set_perm {p : K × V → Bool} {k : K} {v : V} {d : Dict K V} (hnew : p (k, v) = true)
    (hold : ∀ w, d.lookup k = some w → p (k, w) = false) :
    ((d.set k v).filter p).Perm (d.filter p ++ [(k, v)]) := by
  induction d with
  | nil => simp [set, hnew]
  | cons e d ih =>
    rw [set]
    split_ifs with h
    · have he : p e = false := by
        obtain ⟨k', w⟩ := e
        obtain rfl : k' = k := h
        exact hold w (by rw [lookup_cons, if_pos rfl])
      rw [List.filter_cons_of_pos hnew, List.filter_cons_of_neg (by simp [he])]
      exact (List.perm_append_singleton _ _).symm
    · have ih' := ih fun w hw => hold w (by rw [lookup_cons, if_neg h, hw])
      by_cases he : p e = true
      · rw [List.filter_cons_of_pos he, List.filter_cons_of_pos he, List.cons_append]
        exact ih'.cons e
      · rw [List.filter_cons_of_neg he, List.filter_cons_of_neg he]
        exact ih'

end Dict
