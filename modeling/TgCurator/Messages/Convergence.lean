import Mathlib.Data.Set.Function
import TgCurator.Messages.Versions

/-!
# Ingestion converges

Any number of ingest calls over a set of versions, their transactions interleaved in any
way, leave the tables that hold the newest version of every component
(`ingestion_converges`): which components were batched together, how often a version was
delivered and in which order does not matter.

The tables are compared up to row ids (`Store.SameRows`). Two stores that represent logs
have the same rows exactly when the logs have the same current versions
(`Store.Represents.sameRows_iff`), and the current version does not see order or
repetition where the edit time determines the version.
-/

namespace TgCurator

/-! ## The same rows up to ids -/

/-- Two stores hold the same rows, up to a renaming of the message ids. -/
def Store.SameRows (s s' : Store) : Prop :=
  ∃ rename : ℕ → ℕ,
    Set.BijOn rename {id | id ∈ s.messages.keys} {id | id ∈ s'.messages.keys} ∧
      (∀ id ∈ s.messages.keys, s'.messages.lookup (rename id) = s.messages.lookup id) ∧
      ∀ c, s'.parts.lookup c =
        (s.parts.lookup c).map fun row => { row with messageId := rename row.messageId }

theorem Store.SameRows.part_eq {s s' : Store} (h : s.SameRows s') (c : ℕ × ℕ) :
    (s'.parts.lookup c).map (·.part) = (s.parts.lookup c).map (·.part) := by
  obtain ⟨rename, -, -, hparts⟩ := h
  rw [hparts, Option.map_map]
  rfl

section Same

variable {sha256 : String → String} {s s' : Store} {log log' : List TelegramMessage}

theorem normalizedFromParts_perm {source : ℕ} {grouped : Option ℕ}
    {parts parts' : List TelegramMessagePart} (h : parts.Perm parts')
    (hids : (parts.map (·.telegramMessageId)).Nodup) :
    normalizedFromParts source grouped parts = normalizedFromParts source grouped parts' := by
  rw [normalizedFromParts, normalizedFromParts, normalizeParts, normalizeParts,
    orderedParts_eq_of_perm h hids]

theorem exists_keyOf {messages : Dict ℕ MessageRow} {id : ℕ} (h : id ∈ messages.keys) :
    ∃ k, Store.keyOf messages id = some k := by
  cases hl : messages.lookup id with
  | none => exact absurd h (Dict.lookup_eq_none.mp hl)
  | some row => exact ⟨row.key, by rw [Store.keyOf, hl, Option.map_some]⟩

theorem mem_keys_of_keyOf {messages : Dict ℕ MessageRow} {id : ℕ} {k : MessageKey}
    (h : Store.keyOf messages id = some k) : id ∈ messages.keys := by
  obtain ⟨row, hrow, -⟩ := keyOf_eq_some.mp h
  exact Dict.mem_keys.mpr ⟨row, Dict.mem_of_lookup hrow⟩

/-- Every message has a component. -/
theorem Store.Represents.exists_version_of_key (h : s.Represents sha256 log) {id : ℕ}
    {k : MessageKey} (hid : Store.keyOf s.messages id = some k) :
    ∃ c v, currentVersion log c = some v ∧ v.key = k := by
  obtain ⟨row, hrow, -⟩ := keyOf_eq_some.mp hid
  obtain ⟨n, hn, -⟩ := h.parent id row hrow
  obtain ⟨first, rest, ho, -⟩ := normalizeParts_eq_ok hn
  have hfirst : first ∈ retainedParts s.parts id := by
    rw [← (orderedParts_perm _).mem_iff, ho]
    simp
  obtain ⟨c, v, hv, hk, -⟩ := (h.parts.mem_retainedParts hid
    fun id' hid' => h.unique id' id k hid' hid).mp hfirst
  exact ⟨c, v, hv, hk⟩

/-- A component with a version is in a message with its identity. -/
theorem Store.Represents.exists_id_of_version (h : s.Represents sha256 log) {c : ℕ × ℕ}
    {v : TelegramMessage} (hv : currentVersion log c = some v) :
    ∃ id, Store.keyOf s.messages id = some v.key := by
  obtain ⟨row, hrow, -⟩ := h.parts.exists_row hv
  exact ⟨row.messageId, h.parts.owner c row v hrow hv⟩

/-- Messages with one identity and the same current versions are the same row. -/
theorem Store.Represents.lookup_eq (h : s.Represents sha256 log) (h' : s'.Represents sha256 log')
    (hcurrent : ∀ c, currentVersion log' c = currentVersion log c) {id id' : ℕ} {k : MessageKey}
    (hid : Store.keyOf s.messages id = some k) (hid' : Store.keyOf s'.messages id' = some k) :
    s'.messages.lookup id' = s.messages.lookup id := by
  obtain ⟨row, hrow, hrk⟩ := keyOf_eq_some.mp hid
  obtain ⟨row', hrow', hrk'⟩ := keyOf_eq_some.mp hid'
  obtain ⟨n, hn, rfl⟩ := h.parent id row hrow
  obtain ⟨n', hn', rfl⟩ := h'.parent id' row' hrow'
  have hmem : ∀ p, p ∈ retainedParts s.parts id ↔ p ∈ retainedParts s'.parts id' := by
    intro p
    rw [h.parts.mem_retainedParts hid fun i hi => h.unique i id k hi hid,
      h'.parts.mem_retainedParts hid' fun i hi => h'.unique i id' k hi hid']
    simp only [hcurrent]
  have hids := h.parts.retainedParts_ids hid
  have hperm : (retainedParts s.parts id).Perm (retainedParts s'.parts id') :=
    (List.perm_ext_iff_of_nodup (List.Nodup.of_map _ hids)
      (List.Nodup.of_map _ (h'.parts.retainedParts_ids hid'))).mpr hmem
  obtain ⟨hsource, hgrouped, -⟩ := messageKey_inj (hrk.trans hrk'.symm)
  rw [hsource, hgrouped, normalizedFromParts_perm hperm hids, hn'] at hn
  rw [hrow, hrow', Except.ok.inj hn]

/-- Stores with the same current versions have the same rows. -/
theorem Store.Represents.sameRows (h : s.Represents sha256 log) (h' : s'.Represents sha256 log')
    (hcurrent : ∀ c, currentVersion log' c = currentVersion log c) : s.SameRows s' := by
  have hex : ∀ id, ∃ id', ∀ k, Store.keyOf s.messages id = some k →
      Store.keyOf s'.messages id' = some k := by
    intro id
    cases hid : Store.keyOf s.messages id with
    | none => exact ⟨0, fun k hk => by simp at hk⟩
    | some k =>
      obtain ⟨c, v, hv, rfl⟩ := h.exists_version_of_key hid
      obtain ⟨id', hid'⟩ := h'.exists_id_of_version ((hcurrent c).trans hv)
      exact ⟨id', fun k hk => Option.some.inj hk ▸ hid'⟩
  choose rename hrename using hex
  refine ⟨rename, ⟨fun id hid => ?_, fun id hid id' hid' heq => ?_, fun id' hid' => ?_⟩,
    fun id hid => ?_, fun c => ?_⟩
  · obtain ⟨k, hk⟩ := exists_keyOf hid
    exact mem_keys_of_keyOf (hrename id k hk)
  · obtain ⟨k, hk⟩ := exists_keyOf hid
    obtain ⟨k', hk'⟩ := exists_keyOf hid'
    have hkk' := hrename id k hk
    rw [heq, hrename id' k' hk'] at hkk'
    exact h.unique id id' k hk (hk'.trans hkk')
  · obtain ⟨k, hk⟩ := exists_keyOf hid'
    obtain ⟨c, v, hv, rfl⟩ := h'.exists_version_of_key hk
    obtain ⟨id, hid⟩ := h.exists_id_of_version ((hcurrent c).symm.trans hv)
    exact ⟨id, mem_keys_of_keyOf hid, h'.unique _ id' _ (hrename id _ hid) hk⟩
  · obtain ⟨k, hk⟩ := exists_keyOf hid
    exact h.lookup_eq h' hcurrent hk (hrename id k hk)
  · cases hv : currentVersion log c with
    | none =>
      have hnone := h.parts.part c
      have hnone' := h'.parts.part c
      rw [hcurrent] at hnone'
      rw [hv, Option.map_none, Option.map_eq_none_iff] at hnone hnone'
      rw [hnone, hnone', Option.map_none]
    | some v =>
      have hv' := (hcurrent c).trans hv
      obtain ⟨row, hrow, hp⟩ := h.parts.exists_row hv
      obtain ⟨row', hrow', hp'⟩ := h'.parts.exists_row hv'
      have howner' := h'.parts.owner c row' v hrow' hv'
      have hid : rename row.messageId = row'.messageId :=
        h'.unique _ _ _ (hrename _ _ (h.parts.owner c row v hrow hv)) howner'
      rw [hrow, hrow', Option.map_some, hid, hp.trans hp'.symm]

theorem TelegramMessage.eq_of_asPart {v w : TelegramMessage} (hpart : v.asPart = w.asPart)
    (hsource : v.sourceChannelId = w.sourceChannelId)
    (hgrouped : v.telegramGroupedId = w.telegramGroupedId) : v = w := by
  obtain ⟨p, s, g, _⟩ := v
  obtain ⟨p', s', g', _⟩ := w
  obtain rfl : p = p' := hpart
  obtain rfl : s = s' := hsource
  obtain rfl : g = g' := hgrouped
  rfl

/-- Where components keep their group, the same parts are the same current version. -/
theorem currentVersion_eq_of_asPart (hcons : Consistent (log ++ log')) {c : ℕ × ℕ}
    (h : (currentVersion log' c).map (·.asPart) = (currentVersion log c).map (·.asPart)) :
    currentVersion log' c = currentVersion log c := by
  cases hv : currentVersion log c with
  | none => simpa [hv] using h
  | some v =>
    rw [hv, Option.map_some] at h
    obtain ⟨w, hw, hpart⟩ := Option.map_eq_some_iff.mp h
    obtain ⟨hvm, hvc⟩ := currentVersion_mem hv
    obtain ⟨hwm, hwc⟩ := currentVersion_mem hw
    have hgrouped := hcons.grouped w (List.mem_append_right _ hwm) v
      (List.mem_append_left _ hvm) (hwc.trans hvc.symm)
    have hsource : w.sourceChannelId = v.sourceChannelId :=
      congrArg Prod.fst (hwc.trans hvc.symm)
    rw [hw, TelegramMessage.eq_of_asPart hpart hsource hgrouped]

/-- Two stores have the same rows exactly when they represent the same current versions. -/
theorem Store.Represents.sameRows_iff (h : s.Represents sha256 log)
    (h' : s'.Represents sha256 log') (hcons : Consistent (log ++ log')) :
    s.SameRows s' ↔ ∀ c, currentVersion log' c = currentVersion log c := by
  refine ⟨fun hsame c => currentVersion_eq_of_asPart hcons ?_, h.sameRows h'⟩
  rw [← h.parts.part, ← h'.parts.part, hsame.part_eq]

end Same

/-! ## Batches -/

/-- The components of an output are those of its group. -/
theorem NormalizedTelegramMessage.MadeFrom.mem_iff {n : NormalizedTelegramMessage}
    {group batch : List TelegramMessage} (h : n.MadeFrom group batch) {v : TelegramMessage} :
    v ∈ group ↔ v.asPart ∈ n.parts ∧ v.sourceChannelId = n.sourceChannelId ∧
      v.telegramGroupedId = n.telegramGroupedId := by
  rw [h.parts_perm.mem_iff, List.mem_map]
  constructor
  · exact fun hv => ⟨⟨v, hv, rfl⟩, h.source v hv, h.grouped v hv⟩
  · rintro ⟨⟨w, hw, hpart⟩, hsource, hgrouped⟩
    have hwv := TelegramMessage.eq_of_asPart hpart ((h.source w hw).trans hsource.symm)
      ((h.grouped w hw).trans hgrouped.symm)
    exact hwv ▸ hw

/-- A list of items that each have an image has a list of images. -/
theorem exists_forall₂ {α β : Type*} {R : α → β → Prop} {l : List α} (h : ∀ x ∈ l, ∃ y, R x y) :
    ∃ ys, List.Forall₂ R l ys := by
  induction l with
  | nil => exact ⟨[], .nil⟩
  | cons x l ih =>
    obtain ⟨y, hy⟩ := h x (by simp)
    obtain ⟨ys, hys⟩ := ih fun x' hx' => h x' (by simp [hx'])
    exact ⟨y :: ys, .cons hy hys⟩

theorem Consistent.assets_nodup {group : List TelegramMessage} (hcons : Consistent group)
    (hnodup : (group.map (·.component)).Nodup) :
    (((group.map (·.asPart)).flatMap (·.media)).map (·.assetId)).Nodup := by
  rw [List.map_flatMap, List.flatMap_map, List.nodup_flatMap]
  refine ⟨fun v _ => v.media_nodup, (List.pairwise_map.mp hnodup).imp_of_mem ?_⟩
  intro v w hv hw hne x hx hx'
  obtain ⟨a, ha, rfl⟩ := List.mem_map.mp hx
  obtain ⟨b, hb, hab⟩ := List.mem_map.mp hx'
  exact hcons.assets v hv w hw hne a ha b hb hab.symm

/-- A batch without a repeated component normalises. -/
theorem normalizeTelegramMessages_of_consistent {batch : List TelegramMessage}
    (hcons : Consistent batch) (hnodup : (batch.map (·.component)).Nodup) :
    ∃ ns, normalizeTelegramMessages batch = .ok ns := by
  obtain ⟨hkeys, hgroups⟩ := foldl_addToGroup batch
  obtain ⟨regular, hregular⟩ := exists_forall₂ (l := batch.filter (·.telegramGroupedId.isNone))
    (R := fun m n => normalizeParts m.sourceChannelId none [m.asPart] = .ok n) fun m _ => by
      obtain ⟨first, rest, -, hok⟩ := @normalizeParts_of_nodup m.sourceChannelId none [m.asPart]
        (List.cons_ne_nil _ _) (List.nodup_singleton _) (by simpa using m.media_nodup) rfl
        fun _ => rfl
      exact ⟨_, hok⟩
  obtain ⟨grouped, hgrouped⟩ := exists_forall₂ (l := batch.foldl addToGroup [])
    (R := fun g n => normalizeParts g.1.1 (some g.1.2) (g.2.map (·.asPart)) = .ok n)
    fun g hg => by
      obtain ⟨⟨source, grouped⟩, group⟩ := g
      obtain ⟨hgroup, hne⟩ := (hgroups _ _).mp (Dict.lookup_of_mem hkeys hg)
      have hsub : group.Sublist batch := hgroup ▸ List.filter_sublist
      have hmembers : ∀ m ∈ group, m.sourceChannelId = source ∧
          m.telegramGroupedId = some grouped := by
        intro m hm
        rw [hgroup] at hm
        have hkey := of_decide_eq_true (List.mem_filter.mp hm).2
        obtain ⟨g, hmg, hpair⟩ := Option.map_eq_some_iff.mp hkey
        rw [Prod.mk.injEq] at hpair
        exact ⟨hpair.1, hpair.2 ▸ hmg⟩
      have hcomponents : (group.map (·.component)).Nodup := hnodup.sublist (hsub.map _)
      have hids : ((group.map (·.asPart)).map (·.telegramMessageId)).Nodup := by
        rw [List.map_map]
        refine List.pairwise_map.mpr ((List.pairwise_map.mp hcomponents).imp_of_mem ?_)
        intro v w hv hw hvw hid
        exact hvw (Prod.ext ((hmembers v hv).1.trans (hmembers w hw).1.symm) hid)
      obtain ⟨m, hm⟩ := List.exists_mem_of_ne_nil _ hne
      have hpos := m.grouped_pos
      rw [(hmembers m hm).2] at hpos
      obtain ⟨first, rest, -, hok⟩ := normalizeParts_of_nodup source
        (by simpa using hne) hids ((hcons.mono hsub.subset).assets_nodup hcomponents) hpos
        fun hnone => by simp at hnone
      exact ⟨_, hok⟩
  refine ⟨(regular ++ grouped).insertionSort NormalizedTelegramMessage.LE, ?_⟩
  rw [← mapM_eq_ok] at hregular hgrouped
  simp only [normalizeTelegramMessages, hnodup, decide_true, ensure, if_true, hregular, hgrouped]
  rfl

/-! ## Runs -/

section Runs

variable {sha256 : String → String} {s : Store} {log : List TelegramMessage}

/-- The empty tables represent the empty log. -/
theorem Store.represents_nil : Store.Represents sha256 {} [] where
  parts := ⟨List.nodup_nil, fun _ => rfl, fun c row v h => by simp at h⟩
  nodup := List.nodup_nil
  fresh := by simp
  unique := fun id id' k h => by simp [Store.keyOf] at h
  parent := fun id m h => by simp at h

/-- Upserting outputs one after another appends their components to the log. -/
theorem upsertAll_represents (h : s.Represents sha256 log) {ms : List NormalizedTelegramMessage}
    {groups : List (List TelegramMessage)}
    (hm : List.Forall₂ (fun m group => ∃ batch, NormalizedTelegramMessage.MadeFrom m group batch ∧
      (batch.map (·.component)).Nodup) ms groups)
    (hcons : Consistent (log ++ groups.flatten)) :
    ∃ s', s.upsertAll sha256 ms = (s', .ok ()) ∧
      s'.Represents sha256 (log ++ groups.flatten) := by
  induction hm generalizing s log with
  | nil => exact ⟨s, rfl, by simpa using h⟩
  | @cons m group ms groups hmade _ ih =>
    obtain ⟨batch, hmade, hnodup⟩ := hmade
    have happ : log ++ (group :: groups).flatten = log ++ group ++ groups.flatten := by simp
    rw [happ] at hcons ⊢
    obtain ⟨s1, hs1, hrep⟩ := upsertMessage_represents h hmade
      (hnodup.sublist (hmade.sublist.map _)) (hcons.mono (List.subset_append_left _ _))
    obtain ⟨s', hs', hrep'⟩ := ih hrep hcons
    exact ⟨s', by rw [Store.upsertAll, hs1]; exact hs', hrep'⟩

/-- The transactions of ingest calls on the given batches, in the order they commit. -/
def IngestRun (batches : List (List TelegramMessage))
    (upserts : List NormalizedTelegramMessage) : Prop :=
  ∃ outputs, List.Forall₂ (fun batch ns => normalizeTelegramMessages batch = .ok ns)
    batches outputs ∧ upserts.Perm outputs.flatten

/-- Calls one after another are a run. -/
theorem ingest_eq {batch : List TelegramMessage} {ns : List NormalizedTelegramMessage} {s' : Store}
    (hns : normalizeTelegramMessages batch = .ok ns) (hs : s.upsertAll sha256 ns = (s', .ok ())) :
    s.ingest sha256 batch =
      (s', .ok ⟨ns.length, (ns.map (·.telegramMessageIds.length)).foldl (· + ·) 0⟩) := by
  rw [Store.ingest, hns]
  dsimp only
  rw [hs]

/-- The transactions of a run, with the components each was made from. -/
theorem IngestRun.exists_groups {batches : List (List TelegramMessage)}
    {upserts : List NormalizedTelegramMessage} (h : IngestRun batches upserts) :
    ∃ groups, List.Forall₂ (fun m group => ∃ batch,
        NormalizedTelegramMessage.MadeFrom m group batch ∧ (batch.map (·.component)).Nodup)
        upserts groups ∧
      ∀ v, v ∈ groups.flatten ↔ ∃ batch ∈ batches, v ∈ batch := by
  obtain ⟨outputs, houtputs, hperm⟩ := h
  have hmade : ∀ m ∈ upserts, ∃ group, ∃ batch ∈ batches,
      NormalizedTelegramMessage.MadeFrom m group batch ∧ (batch.map (·.component)).Nodup := by
    intro m hm
    obtain ⟨ns, hns, hmns⟩ := List.mem_flatten.mp (hperm.mem_iff.mp hm)
    obtain ⟨batch, hbatch, hok⟩ := exists_left_of_mem houtputs hns
    obtain ⟨hnodup, hall, -⟩ := normalizeTelegramMessages_eq_ok hok
    obtain ⟨group, hgroup⟩ := hall m hmns
    exact ⟨group, batch, hbatch, hgroup, hnodup⟩
  obtain ⟨groups, hgroups⟩ := exists_forall₂ hmade
  refine ⟨groups, hgroups.imp ?_, fun v => ⟨fun hv => ?_, ?_⟩⟩
  · rintro m group ⟨batch, -, hgroup⟩
    exact ⟨batch, hgroup⟩
  · obtain ⟨group, hgroup, hvg⟩ := List.mem_flatten.mp hv
    obtain ⟨m, -, batch, hbatch, hmadeFrom, -⟩ := exists_left_of_mem hgroups hgroup
    exact ⟨batch, hbatch, hmadeFrom.sublist.subset hvg⟩
  · rintro ⟨batch, hbatch, hv⟩
    obtain ⟨ns, hns, hok⟩ := exists_right_of_mem houtputs hbatch
    obtain ⟨-, -, hcover⟩ := normalizeTelegramMessages_eq_ok hok
    obtain ⟨m, hm, group, hmade, hvg⟩ := hcover v hv
    have hmem : m ∈ upserts := hperm.mem_iff.mpr (List.mem_flatten.mpr ⟨ns, hns, hm⟩)
    obtain ⟨group', hgroup', batch', -, hmade', -⟩ := exists_right_of_mem hgroups hmem
    exact List.mem_flatten.mpr ⟨group', hgroup', hmade'.mem_iff.mpr (hmade.mem_iff.mp hvg)⟩

/-- Ingesting a batch appends it to the log. -/
theorem Store.Represents.ingest (h : s.Represents sha256 log) {batch : List TelegramMessage}
    (hnodup : (batch.map (·.component)).Nodup) (hcons : Consistent (log ++ batch)) :
    ∃ s' report, s.ingest sha256 batch = (s', .ok report) ∧ s'.Represents sha256 (log ++ batch) := by
  obtain ⟨ns, hns⟩ := normalizeTelegramMessages_of_consistent
    (hcons.mono (List.subset_append_right _ _)) hnodup
  have hrun : IngestRun [batch] ns := ⟨[ns], .cons hns .nil, by simp⟩
  obtain ⟨groups, hgroups, hmem⟩ := hrun.exists_groups
  have hmem' : ∀ v, v ∈ batch ↔ v ∈ groups.flatten := fun v => by simp [hmem]
  have hcons' : Consistent (log ++ groups.flatten) := by
    refine hcons.mono fun v hv => ?_
    rw [List.mem_append, ← hmem'] at hv
    exact List.mem_append.mpr hv
  obtain ⟨s', hs', hrep⟩ := upsertAll_represents h hgroups hcons'
  exact ⟨s', _, ingest_eq hns hs', hrep.congr (currentVersion_append_congr hnodup hmem')⟩

/-- Ingest calls one after another; an exception ends them. -/
def Store.ingestAll (sha256 : String → String) (s : Store) :
    List (List TelegramMessage) → Store × Except PyError Unit
  | [] => (s, .ok ())
  | batch :: batches =>
    match s.ingest sha256 batch with
    | (s, .error e) => (s, .error e)
    | (s, .ok _) => s.ingestAll sha256 batches

theorem Store.Represents.ingestAll (h : s.Represents sha256 log)
    {batches : List (List TelegramMessage)}
    (hnodup : ∀ batch ∈ batches, (batch.map (·.component)).Nodup)
    (hcons : Consistent (log ++ batches.flatten)) :
    ∃ s', s.ingestAll sha256 batches = (s', .ok ()) ∧
      s'.Represents sha256 (log ++ batches.flatten) := by
  induction batches generalizing s log with
  | nil => exact ⟨s, rfl, by simpa using h⟩
  | cons batch batches ih =>
    have happ : log ++ (batch :: batches).flatten = log ++ batch ++ batches.flatten := by simp
    rw [happ] at hcons ⊢
    obtain ⟨s1, report, hs1, hrep⟩ := h.ingest (hnodup batch (by simp))
      (hcons.mono (List.subset_append_left _ _))
    obtain ⟨s', hs', hrep'⟩ := ih hrep (fun b hb => hnodup b (by simp [hb])) hcons
    refine ⟨s', ?_, hrep'⟩
    rw [Store.ingestAll, hs1]
    exact hs'

end Runs

/-! ## Convergence -/

/-- A finite set of versions: the edit time determines the content of a component. -/
structure VersionSet (V : List TelegramMessage) : Prop extends Consistent V where
  determined : ∀ v ∈ V, ∀ w ∈ V, v.component = w.component → v.editedAt = w.editedAt → v = w

/-- Batches without a repeated component that deliver every version of a set. -/
structure Delivers (batches : List (List TelegramMessage)) (V : List TelegramMessage) : Prop where
  versions : ∀ batch ∈ batches, batch ⊆ V
  nodup : ∀ batch ∈ batches, (batch.map (·.component)).Nodup
  complete : ∀ v ∈ V, ∃ batch ∈ batches, v ∈ batch

/-- The tables hold the newest version of every component, each in the one message with
its identity, and every message is what its parts normalise to. -/
structure Store.Converged (sha256 : String → String) (s : Store) (V : List TelegramMessage) :
    Prop where
  /-- no component is lost, and its newest version is stored -/
  newest : ∀ v ∈ V, ∃ w ∈ V, ∃ row, w.component = v.component ∧
    (∀ u ∈ V, u.component = v.component → u.editRank ≤ w.editRank) ∧
    s.parts.lookup v.component = some row ∧ row.part = w.asPart ∧
    Store.keyOf s.messages row.messageId = some v.key
  /-- nothing else is stored -/
  known : ∀ c row, s.parts.lookup c = some row → ∃ v ∈ V, v.component = c
  parts_nodup : s.parts.keys.Nodup
  messages_nodup : s.messages.keys.Nodup
  /-- no identity has two messages -/
  unique : ∀ id id' k, Store.keyOf s.messages id = some k → Store.keyOf s.messages id' = some k →
    id = id'
  /-- a message lists the components in its rows -/
  members : ∀ id m, s.messages.lookup id = some m → ∀ i, i ∈ m.telegramMessageIds ↔
    ∃ row, s.parts.lookup (m.sourceChannelId, i) = some row ∧ row.messageId = id
  /-- a message is what its stored parts normalise to -/
  parent : ∀ id m, s.messages.lookup id = some m → ∃ n,
    normalizedFromParts m.sourceChannelId m.telegramGroupedId (retainedParts s.parts id) = .ok n ∧
      m = messageRow sha256 n

section Convergence

variable {sha256 : String → String} {s s' : Store} {log V : List TelegramMessage}

/-- A message lists the components in its rows. -/
theorem Store.Represents.mem_telegramMessageIds (h : s.Represents sha256 log) {id : ℕ}
    {m : MessageRow} (hm : s.messages.lookup id = some m) (i : ℕ) :
    i ∈ m.telegramMessageIds ↔
      ∃ row, s.parts.lookup (m.sourceChannelId, i) = some row ∧ row.messageId = id := by
  obtain ⟨n, hn, hrow⟩ := h.parent id m hm
  obtain ⟨first, rest, ho, hlogical⟩ := normalizeParts_eq_ok hn
  have hid : Store.keyOf s.messages id = some m.key := by rw [Store.keyOf, hm, Option.map_some]
  have hids : m.telegramMessageIds =
      (orderedParts (retainedParts s.parts id)).map (·.telegramMessageId) := by
    rw [hrow, messageRow, hlogical, ho]
    rfl
  rw [hids, ((orderedParts_perm _).map _).mem_iff, List.mem_map]
  constructor
  · rintro ⟨p, hp, rfl⟩
    obtain ⟨c, v, hv, hk, rfl⟩ := (h.parts.mem_retainedParts hid
      fun id' hid' => h.unique id' id _ hid' hid).mp hp
    obtain ⟨row, hlookup, -⟩ := h.parts.exists_row hv
    have howner := h.parts.owner c row v hlookup hv
    rw [hk] at howner
    have hc : (m.sourceChannelId, v.telegramMessageId) = c :=
      (currentVersion_mem hv).2 ▸ Prod.ext (messageKey_inj hk).1.symm rfl
    exact ⟨row, hc ▸ hlookup, h.unique _ _ _ howner hid⟩
  · rintro ⟨row, hlookup, rfl⟩
    obtain ⟨v, hv, hp⟩ := h.parts.exists_version hlookup
    have hk := h.parts.owner _ row v hlookup hv
    rw [hid] at hk
    refine ⟨v.asPart, (h.parts.mem_retainedParts hid fun id' hid' => h.unique id' _ _ hid' hid).mpr
      ⟨_, v, hv, (Option.some.inj hk).symm, rfl⟩, ?_⟩
    exact congrArg Prod.snd (currentVersion_mem hv).2

/-- Tables that represent a log with the versions of `V` have converged. -/
theorem Store.Represents.converged (h : s.Represents sha256 log) (hcons : Consistent V)
    (hmem : ∀ v, v ∈ log ↔ v ∈ V) : s.Converged sha256 V where
  newest := by
    intro v hv
    have hlog : Consistent log := hcons.mono fun u hu => (hmem u).mp hu
    obtain ⟨w, hw, hwk⟩ := exists_currentVersion hlog ((hmem v).mpr hv)
    obtain ⟨hwmem, hwc⟩ := currentVersion_mem hw
    obtain ⟨row, hrow, hp⟩ := h.parts.exists_row hw
    refine ⟨w, (hmem w).mp hwmem, row, hwc, fun u hu huc => ?_, hrow, hp, ?_⟩
    · refine Newest.rank_le_newest hw (List.mem_filter.mpr ⟨(hmem u).mpr hu, ?_⟩)
      exact decide_eq_true huc
    · rw [h.parts.owner _ row w hrow hw, hwk]
  known := by
    intro c row hrow
    obtain ⟨v, hv, -⟩ := h.parts.exists_version hrow
    obtain ⟨hvmem, hvc⟩ := currentVersion_mem hv
    exact ⟨v, (hmem v).mp hvmem, hvc⟩
  parts_nodup := h.parts.nodup
  messages_nodup := h.nodup
  unique := h.unique
  members := fun id m hm => h.mem_telegramMessageIds hm
  parent := h.parent

/-- Where the edit time determines the version, the current version depends only on which
versions there are. -/
theorem currentVersion_congr {log' : List TelegramMessage} (hV : VersionSet V)
    (hlog : ∀ v, v ∈ log ↔ v ∈ V) (hlog' : ∀ v, v ∈ log' ↔ v ∈ V) (c : ℕ × ℕ) :
    currentVersion log' c = currentVersion log c := by
  refine Newest.newest_congr ?_ fun v => ?_
  · intro v hv w hw hrank
    rw [List.mem_filter, hlog', decide_eq_true_eq] at hv hw
    exact hV.determined v hv.1 w hw.1 (hv.2.trans hw.2.symm) hrank
  · rw [List.mem_filter, List.mem_filter, hlog, hlog']

/-- A run over the versions of a set succeeds, and its tables represent them. -/
theorem IngestRun.represents (sha256 : String → String) (hV : VersionSet V) {batches : List (List TelegramMessage)}
    (hbatches : Delivers batches V) {upserts : List NormalizedTelegramMessage}
    (hrun : IngestRun batches upserts) :
    ∃ s log, Store.upsertAll sha256 {} upserts = (s, .ok ()) ∧ s.Represents sha256 log ∧
      ∀ v, v ∈ log ↔ v ∈ V := by
  obtain ⟨groups, hgroups, hmem⟩ := hrun.exists_groups
  have hlog : ∀ v, v ∈ groups.flatten ↔ v ∈ V := by
    refine fun v => (hmem v).trans ⟨?_, hbatches.complete v⟩
    rintro ⟨batch, hbatch, hv⟩
    exact hbatches.versions batch hbatch hv
  have hcons : Consistent ([] ++ groups.flatten) :=
    hV.toConsistent.mono fun v hv => (hlog v).mp hv
  obtain ⟨s, hs, hrep⟩ := upsertAll_represents Store.represents_nil hgroups hcons
  exact ⟨s, _, hs, hrep, hlog⟩

/-- Ingestion converges: every batching of a set of versions normalises; every order of
its transactions succeeds and leaves the newest version of every component; and any two
runs leave the same rows. -/
theorem ingestion_converges (sha256 : String → String) {V : List TelegramMessage}
    (hV : VersionSet V) :
    (∀ batches, Delivers batches V → ∃ upserts, IngestRun batches upserts) ∧
      (∀ batches upserts, Delivers batches V → IngestRun batches upserts →
        ∃ s, Store.upsertAll sha256 {} upserts = (s, .ok ()) ∧ s.Converged sha256 V) ∧
      ∀ batches batches' upserts upserts' s s', Delivers batches V → Delivers batches' V →
        IngestRun batches upserts → IngestRun batches' upserts' →
        Store.upsertAll sha256 {} upserts = (s, .ok ()) →
        Store.upsertAll sha256 {} upserts' = (s', .ok ()) → s.SameRows s' := by
  refine ⟨fun batches hb => ?_, fun batches upserts hb hrun => ?_, ?_⟩
  · obtain ⟨outputs, houtputs⟩ := exists_forall₂ (l := batches)
      (R := fun batch ns => normalizeTelegramMessages batch = .ok ns) fun batch hbatch =>
        normalizeTelegramMessages_of_consistent (hV.toConsistent.mono (hb.versions batch hbatch))
          (hb.nodup batch hbatch)
    exact ⟨_, outputs, houtputs, List.Perm.refl _⟩
  · obtain ⟨s, log, hs, hrep, hlog⟩ := hrun.represents sha256 hV hb
    exact ⟨s, hs, hrep.converged hV.toConsistent hlog⟩
  · intro batches batches' upserts upserts' s s' hb hb' hrun hrun' hs hs'
    obtain ⟨t, log, ht, hrep, hlog⟩ := hrun.represents sha256 hV hb
    obtain ⟨t', log', ht', hrep', hlog'⟩ := hrun'.represents sha256 hV hb'
    obtain rfl : s = t := congrArg Prod.fst (hs.symm.trans ht)
    obtain rfl : s' = t' := congrArg Prod.fst (hs'.symm.trans ht')
    exact hrep.sameRows hrep' (currentVersion_congr hV hlog hlog')

/-- An album of two components, the first of them edited. -/
theorem ingestion_converges_album :
    let first := textMessage 1 5 (some 7) none "a"
    let edited := textMessage 1 5 (some 7) (some 3) "b"
    let second := textMessage 1 6 (some 7) none "c"
    ∃ upserts upserts' s s', IngestRun [[edited, second], [first]] upserts ∧
      IngestRun [[first], [second], [edited], [first]] upserts' ∧
      Store.upsertAll id {} upserts = (s, .ok ()) ∧
      Store.upsertAll id {} upserts' = (s', .ok ()) ∧
      s.Converged id [first, edited, second] ∧ s.SameRows s' := by
  intro first edited second
  have hV : VersionSet [first, edited, second] := by
    refine ⟨⟨?_, ?_, ?_⟩, ?_⟩ <;>
      simp [first, edited, second, textMessage, TelegramMessage.component]
  have hb : Delivers [[edited, second], [first]] [first, edited, second] := by
    refine ⟨?_, ?_, ?_⟩ <;>
      simp [first, edited, second, textMessage, TelegramMessage.component]
  have hb' : Delivers [[first], [second], [edited], [first]] [first, edited, second] := by
    refine ⟨?_, ?_, ?_⟩ <;>
      simp [first, edited, second, textMessage, TelegramMessage.component]
  obtain ⟨hex, hconv, hsame⟩ := ingestion_converges id hV
  obtain ⟨upserts, hrun⟩ := hex _ hb
  obtain ⟨upserts', hrun'⟩ := hex _ hb'
  obtain ⟨s, hs, hconverged⟩ := hconv _ _ hb hrun
  obtain ⟨s', hs', -⟩ := hconv _ _ hb' hrun'
  exact ⟨upserts, upserts', s, s', hrun, hrun', hs, hs', hconverged,
    hsame _ _ _ _ _ _ hb hb' hrun hrun' hs hs'⟩

end Convergence

end TgCurator
