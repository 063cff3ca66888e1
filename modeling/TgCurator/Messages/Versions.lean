import TgCurator.Messages.Store
import TgCurator.Newest

/-!
# The store as a map of newest versions

The abstract store is the log of component versions that were upserted: the current
version of a component is the newest one by edit time, a later one winning a tie
(`currentVersion`). `Store.Represents` connects the tables to a log: the stored part of
a component is its current version, it belongs to the one message row with the identity
of its logical message, and every message row is what its retained parts normalise to.

An upsert of a logical message appends its components to the log and keeps the relation
(`upsertMessage_represents`), provided the versions are `Consistent`: the publication
time and the media group of a component never change, and components do not share asset
ids. Two stores with the same current versions have the same parts and messages up to
row ids (`Store.Represents.sameRows_iff`).
-/

namespace TgCurator

/-! ## Versions -/

/-- Edit times in order; no edit is the oldest. -/
def EditTime : Type :=
  WithBot ℤ

instance : LinearOrder EditTime :=
  inferInstanceAs (LinearOrder (WithBot ℤ))

/-- The edit time of a version. -/
def TelegramMessage.editRank (message : TelegramMessage) : EditTime :=
  message.editedAt

/-- The current version of a component after a log of versions. -/
def currentVersion (log : List TelegramMessage) (component : ℕ × ℕ) : Option TelegramMessage :=
  Newest.newest TelegramMessage.editRank (log.filter (·.component = component))

/-- What never changes about a component, and that components do not share assets. -/
structure Consistent (log : List TelegramMessage) : Prop where
  published : ∀ v ∈ log, ∀ w ∈ log, v.component = w.component → v.publishedAt = w.publishedAt
  grouped : ∀ v ∈ log, ∀ w ∈ log, v.component = w.component →
    v.telegramGroupedId = w.telegramGroupedId
  assets : ∀ v ∈ log, ∀ w ∈ log, v.component ≠ w.component →
    ∀ a ∈ v.media, ∀ b ∈ w.media, a.assetId ≠ b.assetId

theorem Consistent.mono {log log' : List TelegramMessage} (h : Consistent log)
    (hsub : log' ⊆ log) : Consistent log' where
  published := fun v hv w hw => h.published v (hsub hv) w (hsub hw)
  grouped := fun v hv w hw => h.grouped v (hsub hv) w (hsub hw)
  assets := fun v hv w hw => h.assets v (hsub hv) w (hsub hw)

theorem Consistent.key_eq {log : List TelegramMessage} (h : Consistent log)
    {v w : TelegramMessage} (hv : v ∈ log) (hw : w ∈ log) (hc : v.component = w.component) :
    v.key = w.key := by
  have hgrouped := h.grouped v hv w hw hc
  rw [Prod.mk.injEq] at hc
  rw [TelegramMessage.key, TelegramMessage.key, hgrouped, hc.1, hc.2]

theorem currentVersion_mem {log : List TelegramMessage} {c : ℕ × ℕ} {v : TelegramMessage}
    (h : currentVersion log c = some v) : v ∈ log ∧ v.component = c := by
  have hmem := Newest.newest_mem h
  rw [List.mem_filter, decide_eq_true_eq] at hmem
  exact hmem

theorem currentVersion_concat (log : List TelegramMessage) (v : TelegramMessage) (c : ℕ × ℕ) :
    currentVersion (log ++ [v]) c = if v.component = c
      then Newest.merge TelegramMessage.editRank (currentVersion log c) v
      else currentVersion log c := by
  unfold currentVersion
  rw [List.filter_append]
  split_ifs with h
  · rw [List.filter_cons_of_pos (by simpa using h), List.filter_nil, Newest.newest_concat]
  · rw [List.filter_cons_of_neg (by simpa using h), List.filter_nil, List.append_nil]

/-- Components of one batch are distinct, so their order does not matter. -/
theorem currentVersion_append_congr {log group group' : List TelegramMessage}
    (hnodup : (group.map (·.component)).Nodup) (hmem : ∀ v, v ∈ group ↔ v ∈ group') (c : ℕ × ℕ) :
    currentVersion (log ++ group) c = currentVersion (log ++ group') c := by
  have hinj : ∀ v ∈ group.filter (·.component = c), ∀ w ∈ group.filter (·.component = c),
      v.editRank = w.editRank → v = w := by
    intro v hv w hw _
    rw [List.mem_filter, decide_eq_true_eq] at hv hw
    exact List.inj_on_of_nodup_map hnodup hv.1 hw.1 (hv.2.trans hw.2.symm)
  have hfilter : Newest.newest TelegramMessage.editRank (group.filter (·.component = c)) =
      Newest.newest TelegramMessage.editRank (group'.filter (·.component = c)) :=
    Newest.newest_congr hinj fun v => by rw [List.mem_filter, List.mem_filter, hmem]
  rw [currentVersion, currentVersion, List.filter_append, List.filter_append,
    Newest.newest_append, Newest.newest_append, hfilter]

/-! ## The relation -/

/-- The identity of the message a row id stands for. -/
def Store.keyOf (messages : Dict ℕ MessageRow) (id : ℕ) : Option MessageKey :=
  (messages.lookup id).map (·.key)

/-- The parts table holds the current versions of a log, each in a row that belongs to
the message with its identity. -/
structure PartsRepresent (messages : Dict ℕ MessageRow) (log : List TelegramMessage)
    (parts : Dict (ℕ × ℕ) PartRow) : Prop where
  nodup : parts.keys.Nodup
  part : ∀ c, (parts.lookup c).map (·.part) = (currentVersion log c).map (·.asPart)
  owner : ∀ c row v, parts.lookup c = some row → currentVersion log c = some v →
    Store.keyOf messages row.messageId = some v.key

/-- The tables represent a log of versions. -/
structure Store.Represents (sha256 : String → String) (s : Store) (log : List TelegramMessage) :
    Prop where
  parts : PartsRepresent s.messages log s.parts
  nodup : s.messages.keys.Nodup
  fresh : ∀ id ∈ s.messages.keys, id < s.nextId
  unique : ∀ id id' k, Store.keyOf s.messages id = some k → Store.keyOf s.messages id' = some k →
    id = id'
  parent : ∀ id m, s.messages.lookup id = some m → ∃ n,
    normalizedFromParts m.sourceChannelId m.telegramGroupedId (retainedParts s.parts id) = .ok n ∧
      m = messageRow sha256 n

/-! ## Upserting parts -/

section Parts

variable {messages : Dict ℕ MessageRow} {log : List TelegramMessage}
  {parts : Dict (ℕ × ℕ) PartRow} {id : ℕ} {k : MessageKey}

theorem PartsRepresent.exists_version (h : PartsRepresent messages log parts) {c : ℕ × ℕ}
    {row : PartRow} (hrow : parts.lookup c = some row) :
    ∃ v, currentVersion log c = some v ∧ v.asPart = row.part := by
  have hpart := h.part c
  rw [hrow, Option.map_some] at hpart
  obtain ⟨v, hv, hvp⟩ := Option.map_eq_some_iff.mp hpart.symm
  exact ⟨v, hv, hvp⟩

theorem PartsRepresent.exists_row (h : PartsRepresent messages log parts) {c : ℕ × ℕ}
    {v : TelegramMessage} (hv : currentVersion log c = some v) :
    ∃ row, parts.lookup c = some row ∧ row.part = v.asPart := by
  have hpart := h.part c
  rw [hv, Option.map_some] at hpart
  exact Option.map_eq_some_iff.mp hpart

theorem incomingIsNotStale_iff (v w : TelegramMessage) :
    Store.incomingIsNotStale v.editedAt w.editedAt = true ↔ v.editRank ≤ w.editRank := by
  unfold TelegramMessage.editRank Store.incomingIsNotStale
  cases v.editedAt with
  | none => exact iff_of_true rfl (@bot_le (WithBot ℤ) _ _ w.editedAt)
  | some s =>
    cases w.editedAt with
    | none =>
      refine iff_of_false (by simp) fun h => ?_
      exact WithBot.coe_ne_bot (@le_bot_iff (WithBot ℤ) _ _ s |>.mp h)
    | some i =>
      rw [decide_eq_true_eq]
      exact (WithBot.coe_le_coe (a := s) (b := i)).symm

/-- Replacing a part by a version with the same publication time gives that version. -/
theorem replacedBy_eq {stored incoming : TelegramMessagePart}
    (h : stored.publishedAt = incoming.publishedAt) : stored.replacedBy incoming = incoming := by
  cases incoming
  simp_all [TelegramMessagePart.replacedBy]

/-- Upserting one part into the message that owns it appends its version to the log. -/
theorem PartsRepresent.partUpsert (h : PartsRepresent messages log parts)
    (hunique : ∀ id', Store.keyOf messages id' = some k → id' = id)
    (hid : Store.keyOf messages id = some k) {v : TelegramMessage} (hkey : v.key = k)
    (hcons : Consistent (log ++ [v])) :
    PartsRepresent messages (log ++ [v])
      (TgCurator.partUpsert id v.sourceChannelId parts v.asPart) := by
  -- setting the row of the component to the new version, in the owning message
  have hset : currentVersion (log ++ [v]) v.component = some v →
      PartsRepresent messages (log ++ [v]) (parts.set v.component ⟨id, v.asPart⟩) := by
    intro hcur
    refine ⟨Dict.nodup_keys_set h.nodup, fun c => ?_, fun c row w hrow hw => ?_⟩
    · by_cases hc : c = v.component
      · subst hc
        rw [Dict.lookup_set_self, hcur]
        rfl
      · rw [Dict.lookup_set_of_ne hc, h.part, currentVersion_concat, if_neg (Ne.symm hc)]
    · by_cases hc : c = v.component
      · subst hc
        rw [Dict.lookup_set_self] at hrow
        obtain rfl := Option.some.inj hrow
        obtain rfl : v = w := Option.some.inj (hcur.symm.trans hw)
        rw [hid, hkey]
      · rw [Dict.lookup_set_of_ne hc] at hrow
        rw [currentVersion_concat, if_neg (Ne.symm hc)] at hw
        exact h.owner c row w hrow hw
  have hconcat := currentVersion_concat log v v.component
  rw [if_pos rfl] at hconcat
  unfold TgCurator.partUpsert
  cases hrow : parts.lookup (v.sourceChannelId, v.asPart.telegramMessageId) with
  | none =>
    have hnone : currentVersion log v.component = none := by
      have hpart := h.part v.component
      rw [show parts.lookup v.component = none from hrow, Option.map_none] at hpart
      simpa using hpart.symm
    rw [hnone, Newest.merge_none] at hconcat
    exact hset hconcat
  | some row =>
    obtain ⟨w, hw, hwp⟩ := h.exists_version hrow
    obtain ⟨hwmem, hwc⟩ := currentVersion_mem hw
    have hwc' : w.component = v.component := hwc
    have hwkey : w.key = v.key :=
      hcons.key_eq (List.mem_append_left _ hwmem) (List.mem_append_right _ (by simp)) hwc'
    have howner : row.messageId = id := by
      refine hunique _ ?_
      rw [h.owner _ row w hrow hw, hwkey, hkey]
    have hpub : row.part.publishedAt = v.asPart.publishedAt := by
      rw [← hwp]
      exact hcons.published w (List.mem_append_left _ hwmem) v
        (List.mem_append_right _ (by simp)) hwc'
    have hfresh : Store.incomingIsNotStale row.part.editedAt v.asPart.editedAt = true ↔
        w.editRank ≤ v.editRank := by
      rw [← hwp]
      exact incomingIsNotStale_iff w v
    have hw' : currentVersion log v.component = some w := hw
    simp only [howner, true_and, replacedBy_eq hpub]
    rw [hw'] at hconcat
    by_cases hle : w.editRank ≤ v.editRank
    · rw [if_pos (hfresh.mpr hle)]
      exact hset (hconcat.trans (Newest.merge_of_le hle))
    · rw [if_neg (mt hfresh.mp hle)]
      rw [Newest.merge_of_lt (not_le.mp hle)] at hconcat
      have hsame : ∀ c, currentVersion (log ++ [v]) c = currentVersion log c := by
        intro c
        by_cases hc : c = v.component
        · rw [hc, hconcat, hw']
        · rw [currentVersion_concat, if_neg (Ne.symm hc)]
      exact ⟨h.nodup, fun c => by rw [h.part, hsame],
        fun c row w hrow hw => h.owner c row w hrow (hsame c ▸ hw)⟩

/-- Upserting the parts of one message, in any order. -/
theorem PartsRepresent.foldl_partUpsert (h : PartsRepresent messages log parts)
    (hunique : ∀ id', Store.keyOf messages id' = some k → id' = id)
    (hid : Store.keyOf messages id = some k) {source : ℕ} {vs : List TelegramMessage}
    (hsource : ∀ v ∈ vs, v.sourceChannelId = source) (hkey : ∀ v ∈ vs, v.key = k)
    (hcons : Consistent (log ++ vs)) :
    PartsRepresent messages (log ++ vs)
      ((vs.map (·.asPart)).foldl (TgCurator.partUpsert id source) parts) := by
  induction vs generalizing log parts with
  | nil => simpa using h
  | cons v vs ih =>
    have happ : log ++ v :: vs = log ++ [v] ++ vs := by simp
    rw [happ] at hcons ⊢
    have hstep := h.partUpsert hunique hid (hkey v (by simp))
      (hcons.mono (List.subset_append_left _ _))
    rw [hsource v (by simp)] at hstep
    exact ih hstep (fun w hw => hsource w (by simp [hw])) (fun w hw => hkey w (by simp [hw])) hcons

end Parts

/-! ## Identities -/

theorem messageKey_inj {s s' : ℕ} {g g' : Option ℕ} {p p' : ℕ}
    (h : messageKey s g p = messageKey s' g' p') : s = s' ∧ g = g' ∧ (g = none → p = p') := by
  cases g <;> cases g' <;> simp_all [messageKey]

theorem messageKey_congr (s : ℕ) {g : Option ℕ} {p p' : ℕ} (h : g = none → p = p') :
    messageKey s g p = messageKey s g p' := by
  cases g with
  | none => rw [h rfl]
  | some _ => rfl

/-- A regular message has one part. -/
theorem length_of_normalizeParts {s : ℕ} {parts : List TelegramMessagePart}
    {m : NormalizedTelegramMessage} (h : normalizeParts s none parts = .ok m) :
    parts.length = 1 := by
  unfold normalizeParts at h
  cases ho : orderedParts parts with
  | nil => simp [ho] at h
  | cons first rest =>
    simp only [ho, seq_eq_ok, NormalizedTelegramMessage.postInit, ensure_eq_ok] at h
    obtain ⟨-, ⟨-, -, -, -, -, -, -, hlength, -⟩, -⟩ := h
    have hperm := (orderedParts_perm parts).length_eq
    rw [ho] at hperm
    rw [← hperm]
    simpa [logicalMessage] using hlength

/-- The components an output is made from have its identity. -/
theorem NormalizedTelegramMessage.MadeFrom.key_eq {m : NormalizedTelegramMessage}
    {group batch : List TelegramMessage} (h : m.MadeFrom group batch) {v : TelegramMessage}
    (hv : v ∈ group) : v.key = m.key := by
  rw [TelegramMessage.key, NormalizedTelegramMessage.key, h.source v hv, h.grouped v hv]
  refine messageKey_congr _ fun hnone => ?_
  have hnorm := h.normalized
  rw [hnone] at hnorm
  have hlength := length_of_normalizeParts hnorm
  rw [List.length_map] at hlength
  obtain ⟨w, rfl⟩ := List.length_eq_one_iff.mp hlength
  obtain rfl := List.mem_singleton.mp hv
  obtain ⟨first, rest, ho, hm⟩ := normalizeParts_eq_ok hnorm
  have hfirst : first ∈ orderedParts [v.asPart] := by
    have hsingle : orderedParts ([v].map (·.asPart)) = orderedParts [v.asPart] := rfl
    rw [← hsingle, ho]
    simp
  rw [(orderedParts_perm _).mem_iff, List.mem_singleton] at hfirst
  rw [hm]
  exact congrArg (·.telegramMessageId) hfirst.symm

/-- The parts of an output, as versions. -/
theorem NormalizedTelegramMessage.MadeFrom.exists_versions {m : NormalizedTelegramMessage}
    {group batch : List TelegramMessage} (h : m.MadeFrom group batch) :
    ∃ vs : List TelegramMessage, vs.Perm group ∧ m.parts = vs.map (·.asPart) := by
  have hrel : List.Forall₂ (fun p v => (v : TelegramMessage).asPart = p)
      (group.map (·.asPart)) group := by
    rw [List.forall₂_map_left_iff]
    exact List.forall₂_same.mpr fun _ _ => rfl
  obtain ⟨vs, hvs, hperm⟩ := List.perm_comp_forall₂ h.parts_perm hrel
  refine ⟨vs, hperm, ?_⟩
  have hmap : List.Forall₂ (fun p q : TelegramMessagePart => p = q) m.parts (vs.map (·.asPart)) := by
    rw [List.forall₂_map_right_iff]
    exact hvs.imp fun _ _ hp => hp.symm
  exact List.forall₂_eq_eq_eq ▸ hmap

/-! ## The parent row -/

section Parent

variable {sha256 : String → String} {s : Store} {log : List TelegramMessage}

/-- What the upsert of the parent leaves. -/
theorem Store.Represents.messageUpsert (h : s.Represents sha256 log)
    (m : NormalizedTelegramMessage) :
    (s.messageUpsert sha256 m).1.parts = s.parts ∧
      (s.messageUpsert sha256 m).1.messages.keys.Nodup ∧
      (∀ id ∈ (s.messageUpsert sha256 m).1.messages.keys,
        id < (s.messageUpsert sha256 m).1.nextId) ∧
      Store.keyOf (s.messageUpsert sha256 m).1.messages (s.messageUpsert sha256 m).2 =
        some m.key ∧
      (∀ id id' k, Store.keyOf (s.messageUpsert sha256 m).1.messages id = some k →
        Store.keyOf (s.messageUpsert sha256 m).1.messages id' = some k → id = id') ∧
      (∀ id, id ≠ (s.messageUpsert sha256 m).2 →
        (s.messageUpsert sha256 m).1.messages.lookup id = s.messages.lookup id) ∧
      ∀ id k, Store.keyOf s.messages id = some k →
        Store.keyOf (s.messageUpsert sha256 m).1.messages id = some k := by
  unfold Store.messageUpsert
  cases hf : s.messages.find? (·.2.key = m.key) with
  | some e =>
    have hmem := List.mem_of_find?_eq_some hf
    have hkey : e.2.key = m.key := by simpa using List.find?_some hf
    have hlookup := Dict.lookup_of_mem (v := e.2) h.nodup hmem
    refine ⟨rfl, h.nodup, h.fresh, ?_, h.unique, fun _ _ => rfl, fun _ _ hk => hk⟩
    rw [Store.keyOf, hlookup, Option.map_some, hkey]
  | none =>
    have hnew : s.nextId ∉ s.messages.keys := fun hmem => lt_irrefl _ (h.fresh _ hmem)
    have hself : Store.keyOf (s.messages.set s.nextId (messageRow sha256 m)) s.nextId =
        some m.key := by
      rw [Store.keyOf, Dict.lookup_set_self]
      rfl
    have hother : ∀ id, id ≠ s.nextId →
        (s.messages.set s.nextId (messageRow sha256 m)).lookup id = s.messages.lookup id :=
      fun id hid => Dict.lookup_set_of_ne hid _ _
    have hnone : ∀ id, Store.keyOf s.messages id ≠ some m.key := by
      intro id hid
      obtain ⟨row, hrow, hkey⟩ := Option.map_eq_some_iff.mp hid
      have hfind := List.find?_eq_none.mp hf _ (Dict.mem_of_lookup hrow)
      simp [hkey] at hfind
    refine ⟨rfl, Dict.nodup_keys_set h.nodup, ?_, hself, ?_, hother, ?_⟩
    · intro id hid
      rcases Dict.mem_keys_set.mp hid with rfl | hid
      · exact Nat.lt_succ_self _
      · exact (h.fresh id hid).trans (Nat.lt_succ_self _)
    · intro id id' k hid hid'
      by_cases h1 : id = s.nextId <;> by_cases h2 : id' = s.nextId
      · rw [h1, h2]
      · rw [h1, hself] at hid
        rw [Store.keyOf, hother id' h2] at hid'
        exact absurd (hid'.trans hid.symm : Store.keyOf s.messages id' = some m.key) (hnone id')
      · rw [h2, hself] at hid'
        rw [Store.keyOf, hother id h1] at hid
        exact absurd (hid.trans hid'.symm : Store.keyOf s.messages id = some m.key) (hnone id)
      · rw [Store.keyOf, hother id h1] at hid
        rw [Store.keyOf, hother id' h2] at hid'
        exact h.unique id id' k hid hid'
    · intro id k hid
      obtain ⟨row, hrow, -⟩ := Option.map_eq_some_iff.mp hid
      have hne : id ≠ s.nextId := by
        rintro rfl
        exact hnew (Dict.mem_keys.mpr ⟨row, Dict.mem_of_lookup hrow⟩)
      rw [Store.keyOf, hother id hne]
      exact hid

/-- Upserting parts into one message does not touch the parts of another. -/
theorem retainedParts_partUpsert {id id' : ℕ} (hne : id' ≠ id) (source : ℕ)
    (parts : Dict (ℕ × ℕ) PartRow) (part : TelegramMessagePart) :
    retainedParts (partUpsert id source parts part) id' = retainedParts parts id' := by
  unfold retainedParts partUpsert
  cases hl : parts.lookup (source, part.telegramMessageId) with
  | none =>
    dsimp only
    rw [Dict.filter_set (by simpa using Ne.symm hne) (by simp [hl])]
  | some row =>
    dsimp only
    split_ifs with hif
    · rw [Dict.filter_set (by simpa using Ne.symm hne)]
      intro w hw
      obtain rfl := Option.some.inj (hl.symm.trans hw)
      simpa [hif.1] using Ne.symm hne
    · rfl

theorem retainedParts_foldl {id id' : ℕ} (hne : id' ≠ id) (source : ℕ)
    (ps : List TelegramMessagePart) : ∀ parts : Dict (ℕ × ℕ) PartRow,
      retainedParts (ps.foldl (partUpsert id source) parts) id' = retainedParts parts id' := by
  induction ps with
  | nil => exact fun _ => rfl
  | cons p ps ih =>
    intro parts
    rw [List.foldl_cons, ih, retainedParts_partUpsert hne]

end Parent

/-! ## The parts of one message -/

section Retained

variable {messages : Dict ℕ MessageRow} {log : List TelegramMessage}
  {parts : Dict (ℕ × ℕ) PartRow} {id : ℕ} {k : MessageKey}

/-- A row of a message holds a current version with its identity. -/
theorem PartsRepresent.version_of_row (h : PartsRepresent messages log parts)
    (hid : Store.keyOf messages id = some k) {e : (ℕ × ℕ) × PartRow}
    (he : e ∈ parts.filter (·.2.messageId = id)) :
    ∃ v, currentVersion log e.1 = some v ∧ v.component = e.1 ∧ v.key = k ∧ v.asPart = e.2.part := by
  rw [List.mem_filter, decide_eq_true_eq] at he
  have hlookup := Dict.lookup_of_mem (v := e.2) h.nodup he.1
  obtain ⟨v, hv, hvp⟩ := h.exists_version hlookup
  have howner := h.owner _ _ v hlookup hv
  rw [he.2, hid] at howner
  exact ⟨v, hv, (currentVersion_mem hv).2, (Option.some.inj howner).symm, hvp⟩

/-- The retained parts of a message are the current versions with its identity. -/
theorem PartsRepresent.mem_retainedParts (h : PartsRepresent messages log parts)
    (hid : Store.keyOf messages id = some k)
    (hunique : ∀ id', Store.keyOf messages id' = some k → id' = id) {p : TelegramMessagePart} :
    p ∈ retainedParts parts id ↔
      ∃ c v, currentVersion log c = some v ∧ v.key = k ∧ v.asPart = p := by
  rw [retainedParts, (orderedParts_perm _).mem_iff, List.mem_map]
  constructor
  · rintro ⟨e, he, rfl⟩
    obtain ⟨v, hv, -, hkey, hvp⟩ := h.version_of_row hid he
    exact ⟨e.1, v, hv, hkey, hvp⟩
  · rintro ⟨c, v, hv, hkey, rfl⟩
    obtain ⟨row, hrow, hp⟩ := h.exists_row hv
    have howner := h.owner c row v hrow hv
    rw [hkey] at howner
    exact ⟨(c, row), List.mem_filter.mpr
      ⟨Dict.mem_of_lookup hrow, decide_eq_true (hunique _ howner)⟩, hp⟩

/-- Two rows of a message hold different components of one source. -/
theorem PartsRepresent.rows_pairwise (h : PartsRepresent messages log parts)
    (hid : Store.keyOf messages id = some k) :
    (parts.filter (·.2.messageId = id)).Pairwise fun e e' =>
      ∃ v w, v ∈ log ∧ w ∈ log ∧ v.component ≠ w.component ∧
        v.telegramMessageId ≠ w.telegramMessageId ∧ v.asPart = e.2.part ∧ w.asPart = e'.2.part := by
  have hkeys : (parts.filter (·.2.messageId = id)).Pairwise fun e e' => e.1 ≠ e'.1 := by
    refine List.Pairwise.sublist List.filter_sublist ?_
    exact List.pairwise_map.mp h.nodup
  refine hkeys.imp_of_mem fun {e e'} he he' hne => ?_
  obtain ⟨v, hv, hvc, hvk, hvp⟩ := h.version_of_row hid he
  obtain ⟨w, hw, hwc, hwk, hwp⟩ := h.version_of_row hid he'
  have hcomponent : v.component ≠ w.component := by rw [hvc, hwc]; exact hne
  have hsource : v.sourceChannelId = w.sourceChannelId := (messageKey_inj (hvk.trans hwk.symm)).1
  refine ⟨v, w, (currentVersion_mem hv).1, (currentVersion_mem hw).1, hcomponent, ?_, hvp, hwp⟩
  exact fun hids => hcomponent (Prod.ext hsource hids)

theorem PartsRepresent.retainedParts_ids (h : PartsRepresent messages log parts)
    (hid : Store.keyOf messages id = some k) :
    ((retainedParts parts id).map (·.telegramMessageId)).Nodup := by
  rw [retainedParts, ((orderedParts_perm _).map _).nodup_iff, List.map_map]
  refine List.pairwise_map.mpr ((h.rows_pairwise hid).imp ?_)
  rintro e e' ⟨v, w, -, -, -, hne, hv, hw⟩
  simp only [Function.comp_apply, ← hv, ← hw]
  exact hne

theorem PartsRepresent.retainedParts_assets (h : PartsRepresent messages log parts)
    (hid : Store.keyOf messages id = some k) (hcons : Consistent log) :
    (((retainedParts parts id).flatMap (·.media)).map (·.assetId)).Nodup := by
  rw [retainedParts, (((orderedParts_perm _).flatMap_right _).map _).nodup_iff, List.map_flatMap,
    List.nodup_flatMap]
  refine ⟨fun p _ => p.media_nodup, List.pairwise_map.mpr ((h.rows_pairwise hid).imp ?_)⟩
  rintro e e' ⟨v, w, hv, hw, hne, -, hvp, hwp⟩
  simp only [Function.onFun, ← hvp, ← hwp]
  rintro x hx hx'
  obtain ⟨a, ha, rfl⟩ := List.mem_map.mp hx
  obtain ⟨b, hb, hab⟩ := List.mem_map.mp hx'
  exact hcons.assets v hv w hw hne a ha b hb hab.symm

/-- The retained parts of a message normalise, to a message with its identity. -/
theorem PartsRepresent.normalizedFromParts (h : PartsRepresent messages log parts)
    (hid : Store.keyOf messages id = some k)
    (hunique : ∀ id', Store.keyOf messages id' = some k → id' = id) (hcons : Consistent log)
    {c : ℕ × ℕ} {v : TelegramMessage} (hv : currentVersion log c = some v) (hk : v.key = k) :
    ∃ n, TgCurator.normalizedFromParts v.sourceChannelId v.telegramGroupedId
        (retainedParts parts id) = .ok n ∧ n.key = k ∧
      n.sourceChannelId = v.sourceChannelId ∧ n.telegramGroupedId = v.telegramGroupedId := by
  have hmem : v.asPart ∈ retainedParts parts id :=
    (h.mem_retainedParts hid hunique).mpr ⟨c, v, hv, hk, rfl⟩
  -- the id of a part of a regular message is that of the message
  have hsame : ∀ p ∈ retainedParts parts id, v.telegramGroupedId = none →
      p.telegramMessageId = v.telegramMessageId := by
    intro p hp hnone
    obtain ⟨_, w, _, hwk, rfl⟩ := (h.mem_retainedParts hid hunique).mp hp
    exact ((messageKey_inj (hk.trans hwk.symm)).2.2 hnone).symm
  have hids := h.retainedParts_ids hid
  obtain ⟨first, rest, ho, hok⟩ := normalizeParts_of_nodup v.sourceChannelId
    (List.ne_nil_of_mem hmem) hids (h.retainedParts_assets hid hcons) v.grouped_pos fun hnone => by
      have hrep : (retainedParts parts id).map (·.telegramMessageId) =
          List.replicate (retainedParts parts id).length v.telegramMessageId :=
        List.eq_replicate_iff.mpr ⟨by simp, by
          intro i hi
          obtain ⟨p, hp, rfl⟩ := List.mem_map.mp hi
          exact hsame p hp hnone⟩
      rw [hrep, List.nodup_replicate] at hids
      have hpos := List.length_pos_of_mem hmem
      omega
  refine ⟨_, hok, ?_, rfl, rfl⟩
  rw [← hk]
  refine messageKey_congr _ fun hnone => ?_
  refine hsame first ?_ hnone
  rw [← (orderedParts_perm _).mem_iff, ho]
  simp

end Retained

/-! ## Upserting a message -/

section Upsert

variable {sha256 : String → String} {s : Store} {log : List TelegramMessage}

theorem keyOf_eq_some {messages : Dict ℕ MessageRow} {id : ℕ} {k : MessageKey} :
    Store.keyOf messages id = some k ↔ ∃ row, messages.lookup id = some row ∧ row.key = k :=
  Option.map_eq_some_iff

/-- A component with a version has a current one, with the same identity. -/
theorem exists_currentVersion (hcons : Consistent log) {v : TelegramMessage} (hv : v ∈ log) :
    ∃ w, currentVersion log v.component = some w ∧ w.key = v.key := by
  cases hw : currentVersion log v.component with
  | none =>
    rw [currentVersion, Newest.newest_eq_none, List.filter_eq_nil_iff] at hw
    exact absurd (decide_eq_true rfl) (hw v hv)
  | some w =>
    obtain ⟨hwmem, hwc⟩ := currentVersion_mem hw
    exact ⟨w, rfl, hcons.key_eq hwmem hv hwc⟩

/-- The versions just upserted are in rows of their message. -/
theorem PartsRepresent.validateComponentOwnership {messages : Dict ℕ MessageRow}
    {parts : Dict (ℕ × ℕ) PartRow} {id source : ℕ} {k : MessageKey}
    (h : PartsRepresent messages log parts) (hcons : Consistent log)
    (hunique : ∀ id', Store.keyOf messages id' = some k → id' = id)
    {vs : List TelegramMessage} (hmem : vs ⊆ log)
    (hsource : ∀ v ∈ vs, v.sourceChannelId = source) (hkey : ∀ v ∈ vs, v.key = k) :
    TgCurator.validateComponentOwnership id source (vs.map (·.telegramMessageId)) parts =
      .ok () := by
  have howned : ∀ i ∈ vs.map (·.telegramMessageId), ∃ row,
      parts.lookup (source, i) = some row ∧ row.messageId = id := by
    intro i hi
    obtain ⟨v, hv, rfl⟩ := List.mem_map.mp hi
    obtain ⟨w, hw, hwk⟩ := exists_currentVersion hcons (hmem hv)
    obtain ⟨row, hrow, -⟩ := h.exists_row hw
    have howner := h.owner _ _ w hrow hw
    rw [hwk, hkey v hv] at howner
    have hcomponent : v.component = (source, v.telegramMessageId) := by
      rw [TelegramMessage.component, hsource v hv]
    exact ⟨row, hcomponent ▸ hrow, hunique _ howner⟩
  simp only [TgCurator.validateComponentOwnership, seq_eq_ok, ensure_eq_ok, List.isEmpty_iff,
    List.filter_eq_nil_iff]
  refine ⟨fun i hi => ?_, fun i hi => ?_⟩ <;> obtain ⟨row, hrow, hid⟩ := howned i hi
  · simp [hrow, hid]
  · simp [hrow]

/-- The parent takes the columns of the recomputed message. -/
theorem messageParentUpdate_eq {messages : Dict ℕ MessageRow} {id : ℕ} {row : MessageRow}
    {n : NormalizedTelegramMessage} (hrow : messages.lookup id = some row)
    (hkey : row.key = n.key) :
    messageParentUpdate sha256 messages id n = messages.set id (messageRow sha256 n) := by
  obtain ⟨hsource, hgrouped, -⟩ := messageKey_inj hkey
  rw [messageParentUpdate, hrow, messageRow, ← hsource, ← hgrouped]

/-- Rewriting a parent with the same identity does not change who is who. -/
theorem keyOf_set {messages : Dict ℕ MessageRow} {id : ℕ} {row : MessageRow}
    (h : Store.keyOf messages id = some row.key) (i : ℕ) :
    Store.keyOf (messages.set id row) i = Store.keyOf messages i := by
  by_cases hi : i = id
  · rw [hi, h, Store.keyOf, Dict.lookup_set_self]
    rfl
  · rw [Store.keyOf, Dict.lookup_set_of_ne hi, Store.keyOf]

/-- The versions of one message, upserted under its row, and their parent recomputed. -/
theorem Store.Represents.upsertParts (h : s.Represents sha256 log) {m : NormalizedTelegramMessage}
    {vs : List TelegramMessage} (hparts : m.parts = vs.map (·.asPart))
    (hids : m.telegramMessageIds = vs.map (·.telegramMessageId))
    (hsource : ∀ v ∈ vs, v.sourceChannelId = m.sourceChannelId) (hkeys : ∀ v ∈ vs, v.key = m.key)
    (hne : vs ≠ []) (hcons : Consistent (log ++ vs)) :
    ∃ s', s.upsertMessage sha256 m = .ok s' ∧ s'.Represents sha256 (log ++ vs) := by
  obtain ⟨hp, hmnodup, hfresh, hkey, hunique, hother, hmono⟩ := h.messageUpsert m
  unfold Store.upsertMessage
  generalize s.messageUpsert sha256 m = up at hp hmnodup hfresh hkey hunique hother hmono ⊢
  obtain ⟨s1, id⟩ := up
  dsimp only at hp hmnodup hfresh hkey hunique hother hmono ⊢
  have huniquek : ∀ id', Store.keyOf s1.messages id' = some m.key → id' = id :=
    fun id' hid' => hunique id' id _ hid' hkey
  have hmem : vs ⊆ log ++ vs := fun v hv => List.mem_append_right _ hv
  -- the parts
  have hrep : PartsRepresent s1.messages (log ++ vs)
      (m.parts.foldl (partUpsert id m.sourceChannelId) s1.parts) := by
    rw [hparts, hp]
    refine PartsRepresent.foldl_partUpsert ⟨h.parts.nodup, h.parts.part, ?_⟩ huniquek hkey
      hsource hkeys hcons
    exact fun c row v hrow hv => hmono _ _ (h.parts.owner c row v hrow hv)
  generalize hparts' : m.parts.foldl (partUpsert id m.sourceChannelId) s1.parts = parts' at hrep ⊢
  have hownership := hrep.validateComponentOwnership hcons huniquek hmem hsource hkeys
  -- the parent
  obtain ⟨v, hv⟩ := List.exists_mem_of_ne_nil _ hne
  obtain ⟨w, hw, hwk⟩ := exists_currentVersion hcons (hmem hv)
  rw [hkeys v hv] at hwk
  obtain ⟨hwsource, hwgrouped, -⟩ := messageKey_inj hwk
  obtain ⟨n, hn, hnkey, hnsource, hngrouped⟩ :=
    hrep.normalizedFromParts hkey huniquek hcons hw hwk
  obtain ⟨row, hrow, hrowkey⟩ := keyOf_eq_some.mp hkey
  rw [hids, hownership, ← hwsource, ← hwgrouped, hn]
  refine ⟨_, rfl, ?_⟩
  rw [messageParentUpdate_eq hrow (hrowkey.trans hnkey.symm)]
  have hkeyOf : ∀ i, Store.keyOf (s1.messages.set id (messageRow sha256 n)) i =
      Store.keyOf s1.messages i := keyOf_set (hkey.trans (congrArg some hnkey.symm))
  refine ⟨⟨hrep.nodup, hrep.part, fun c row v hrow hv => ?_⟩, Dict.nodup_keys_set hmnodup,
    fun i hi => ?_, fun i i' k hi hi' => ?_, fun i r hr => ?_⟩
  · rw [hkeyOf]
    exact hrep.owner c row v hrow hv
  · rcases Dict.mem_keys_set.mp hi with rfl | hi
    · exact hfresh _ (Dict.mem_keys.mpr ⟨row, Dict.mem_of_lookup hrow⟩)
    · exact hfresh i hi
  · rw [hkeyOf] at hi hi'
    exact hunique i i' k hi hi'
  · by_cases hi : i = id
    · rw [hi, Dict.lookup_set_self] at hr
      obtain rfl := Option.some.inj hr
      have hn' : TgCurator.normalizedFromParts n.sourceChannelId n.telegramGroupedId
          (retainedParts parts' id) = .ok n := by rw [hnsource, hngrouped, hn]
      exact ⟨n, hi ▸ hn', rfl⟩
    · rw [Dict.lookup_set_of_ne hi, hother i hi] at hr
      obtain ⟨n', hn', hr'⟩ := h.parent i r hr
      refine ⟨n', ?_, hr'⟩
      rw [← hparts', retainedParts_foldl hi, hp]
      exact hn'

/-- The order within a batch does not matter to what is represented. -/
theorem Store.Represents.congr {log' : List TelegramMessage} (h : s.Represents sha256 log)
    (hlog : ∀ c, currentVersion log' c = currentVersion log c) : s.Represents sha256 log' where
  parts := ⟨h.parts.nodup, fun c => by rw [h.parts.part, hlog],
    fun c row v hrow hv => h.parts.owner c row v hrow (hlog c ▸ hv)⟩
  nodup := h.nodup
  fresh := h.fresh
  unique := h.unique
  parent := h.parent

/-- Upserting a logical message appends the components it was made from to the log. -/
theorem upsertMessage_represents (h : s.Represents sha256 log) {m : NormalizedTelegramMessage}
    {group batch : List TelegramMessage} (hm : m.MadeFrom group batch)
    (hnodup : (group.map (·.component)).Nodup) (hcons : Consistent (log ++ group)) :
    ∃ s', s.upsertMessage sha256 m = .ok s' ∧ s'.Represents sha256 (log ++ group) := by
  obtain ⟨vs, hperm, hparts⟩ := hm.exists_versions
  obtain ⟨first, rest, -, hlogical⟩ := normalizeParts_eq_ok hm.normalized
  have hids : m.telegramMessageIds = vs.map (·.telegramMessageId) := by
    have hids' : m.telegramMessageIds = m.parts.map (·.telegramMessageId) := by
      rw [hlogical]
      rfl
    rw [hids', hparts, List.map_map]
    rfl
  have hne : vs ≠ [] := by
    have hpne : m.parts ≠ [] := by
      rw [hlogical]
      exact List.cons_ne_nil _ _
    rw [hparts] at hpne
    simpa using hpne
  have hconsv : Consistent (log ++ vs) := by
    refine hcons.mono fun v hv => ?_
    rcases List.mem_append.mp hv with hv | hv
    · exact List.mem_append_left _ hv
    · exact List.mem_append_right _ (hperm.subset hv)
  obtain ⟨s', hs', hrep⟩ := h.upsertParts hparts hids
    (fun v hv => hm.source v (hperm.subset hv)) (fun v hv => hm.key_eq (hperm.subset hv)) hne hconsv
  exact ⟨s', hs', hrep.congr
    (currentVersion_append_congr hnodup fun v => hperm.symm.mem_iff)⟩

end Upsert

end TgCurator
