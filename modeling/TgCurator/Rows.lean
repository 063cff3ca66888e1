import TgCurator.Dict

/-!
# Checked tables

A table is a dictionary under its primary key. `Dict.All` says that every row meets the
checks of its table, and `Dict.Unique` that no two rows have the same key in an index,
where a row outside a partial index has none. A transaction writes rows one at a time, and
a write keeps the checks when the row it writes meets them (`All.set`), and an index when the
row had its key before, leaves the index, or brings a new key (`Unique.set`).
-/

namespace Dict

variable {K V W I : Type*}

/-- Every row of a table meets a predicate. -/
def All (p : V → Prop) (d : Dict K V) : Prop :=
  ∀ e ∈ d, p e.2

instance (p : V → Prop) [DecidablePred p] (d : Dict K V) : Decidable (d.All p) :=
  inferInstanceAs (Decidable (∀ e ∈ d, p e.2))

/-- No two rows of a table have the same key in an index. -/
def Unique (index : V → Option I) (d : Dict K V) : Prop :=
  ∀ e ∈ d, ∀ e' ∈ d, ∀ i, index e.2 = some i → index e'.2 = some i → e.1 = e'.1

variable {p q : V → Prop} {index : V → Option I} {d : Dict K V}

theorem All.nil : All p ([] : Dict K V) :=
  fun _ h => absurd h List.not_mem_nil

theorem All.mono (h : d.All p) (hpq : ∀ v, p v → q v) : d.All q :=
  fun e he => hpq e.2 (h e he)

theorem All.filter (h : d.All p) (f : K × V → Bool) : All p (d.filter f) :=
  fun e he => h e (List.mem_of_mem_filter he)

theorem All.mapValues {r : W → Prop} {f : K → V → W} (h : d.All p)
    (hf : ∀ k v, (k, v) ∈ d → p v → r (f k v)) : (d.mapValues f).All r := by
  intro e he
  obtain ⟨⟨k, v⟩, hmem, rfl⟩ := List.mem_map.mp he
  exact hf k v hmem (h _ hmem)

theorem Unique.nil : Unique index ([] : Dict K V) :=
  fun _ h => absurd h List.not_mem_nil

/-- Rows that keep the keys they have in an index. -/
theorem Unique.mapValues {index' : W → Option I} {f : K → V → W} (h : d.Unique index)
    (hf : ∀ k v, index' (f k v) = index v) : (d.mapValues f).Unique index' := by
  intro e he e' he' i hi hi'
  obtain ⟨⟨k, v⟩, hmem, rfl⟩ := List.mem_map.mp he
  obtain ⟨⟨k', v'⟩, hmem', rfl⟩ := List.mem_map.mp he'
  exact h _ hmem _ hmem' i ((hf k v).symm.trans hi) ((hf k' v').symm.trans hi')

/-- The rows with one key in an index. -/
theorem Unique.filter_eq [DecidableEq I] (h : d.Unique index) (hd : d.keys.Nodup) {e : K × V}
    {i : I} (he : e ∈ d) (hi : index e.2 = some i) : d.filter (fun e => index e.2 = some i) = [e] := by
  have hmem : e ∈ d.filter fun e => index e.2 = some i := List.mem_filter.mpr ⟨he, by simpa⟩
  have hkeys : (keys (d.filter fun e => index e.2 = some i)).Nodup :=
    hd.sublist (List.filter_sublist.map Prod.fst)
  have hsame : ∀ e' ∈ d.filter fun e => index e.2 = some i, e'.1 = e.1 := by
    intro e' he'
    obtain ⟨he', hi'⟩ := List.mem_filter.mp he'
    exact h e' he' e he i (by simpa using hi') hi
  cases hrows : d.filter fun e => index e.2 = some i with
  | nil => simp [hrows] at hmem
  | cons e₁ rest =>
    rw [hrows] at hmem hkeys hsame
    rw [keys_cons, List.nodup_cons] at hkeys
    cases rest with
    | nil => exact congrArg (· :: []) (List.mem_singleton.mp hmem).symm
    | cons e₂ rest =>
      have hsecond : e₂.1 = e₁.1 := (hsame e₂ (by simp)).trans (hsame e₁ (by simp)).symm
      exact absurd (by simp [hsecond]) hkeys.1

variable [DecidableEq K]

theorem All.set {k : K} {v : V} (h : d.All p) (hv : p v) : (d.set k v).All p := by
  intro e he
  rcases mem_set he with rfl | he
  · exact hv
  · exact h e he

theorem All.erase (h : d.All p) (k : K) : (d.erase k).All p :=
  h.filter _

/-- Writing a row whose key no other row has. -/
theorem Unique.set {k : K} {v : V} (h : d.Unique index)
    (hv : ∀ i, index v = some i → ∀ e ∈ d, index e.2 = some i → e.1 = k) :
    (d.set k v).Unique index := by
  intro e he e' he' i hi hi'
  rcases mem_set he with rfl | he <;> rcases mem_set he' with rfl | he'
  · rfl
  · exact (hv i hi e' he' hi').symm
  · exact hv i hi' e he hi
  · exact h e he e' he' i hi hi'

variable [BEq K] [LawfulBEq K]

theorem All.of_lookup {k : K} {v : V} (h : d.All p) (hk : d.lookup k = some v) : p v :=
  h _ (mem_of_lookup hk)

/-- Writing a row in place of one that had its key. -/
theorem Unique.set_of_lookup {k : K} {v v' : V} (h : d.Unique index) (hk : d.lookup k = some v)
    (hv : ∀ i, index v' = some i → index v = some i) : (d.set k v').Unique index :=
  h.set fun i hi e he he' => h e he _ (mem_of_lookup hk) i he' (hv i hi)

theorem lookup_setDefault (k k' : K) (v : V) (d : Dict K V) :
    (d.setDefault k v).lookup k' = (d.lookup k').or (if k' = k then some v else none) := by
  unfold setDefault
  split_ifs with hk hkey hkey
  · obtain ⟨w, hw⟩ := Option.ne_none_iff_exists'.mp fun hnone => lookup_eq_none.mp hnone (hkey ▸ hk)
    rw [hw, Option.some_or]
  · rw [Option.or_none]
  · rw [List.lookup_append, lookup_cons, if_pos hkey.symm]
  · rw [List.lookup_append, lookup_cons, if_neg (Ne.symm hkey)]
    rfl

end Dict
