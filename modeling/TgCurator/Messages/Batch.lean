import TgCurator.Messages.Telegram

/-!
# Batches of Telegram messages

`normalize_telegram_messages` makes one logical message of each regular component and one of
each media group of a source. `LogicalKey` names them, and a component belongs to the logical
message of its key (`TelegramMessage.logicalKey`).

`normalizeTelegramMessages_iff` characterises the outputs of a batch by conditions that do not
see the order of the batch. `normalizeTelegramMessages_spec` draws the consequences: the order
of a batch does not matter, the outputs partition the components, and each output is what
`normalized_from_parts` makes of its parts, in any order.
-/

namespace TgCurator

/-! ## Classes of a list -/

/-- The classes of a list, one for each key, are the list. -/
theorem flatMap_filter_perm {α κ : Type*} [DecidableEq κ] {f : α → κ} {keys : List κ} {l : List α}
    (hkeys : keys.Nodup) (hcover : ∀ a ∈ l, f a ∈ keys) :
    (keys.flatMap fun k => l.filter fun a => f a = k).Perm l := by
  induction keys generalizing l with
  | nil =>
    have hnil : l = [] := List.eq_nil_iff_forall_not_mem.mpr fun a ha => nomatch hcover a ha
    rw [hnil]
    exact .nil
  | cons k keys ih =>
    rw [List.nodup_cons] at hkeys
    have hrest : (keys.flatMap fun k' => l.filter fun a => f a = k') =
        keys.flatMap fun k' => (l.filter fun a => !decide (f a = k)).filter fun a => f a = k' := by
      refine List.flatMap_congr fun k' hk' => ?_
      rw [List.filter_filter]
      refine List.filter_congr fun a _ => ?_
      by_cases ha : f a = k'
      · have hne : f a ≠ k := fun heq => hkeys.1 (heq.symm.trans ha ▸ hk')
        simp [ha, ha ▸ hne]
      · simp [ha]
    rw [List.flatMap_cons, hrest]
    refine ((ih hkeys.2 fun a ha => ?_).append_left _).trans (List.filter_append_perm _ l)
    rw [List.mem_filter, Bool.not_eq_true', decide_eq_false_iff_not] at ha
    exact (List.mem_cons.mp (hcover a ha.1)).resolve_left ha.2

/-! ## Logical messages -/

/-- A logical message: a regular component of a source, or a media group of a source. -/
abbrev LogicalKey := (ℕ × ℕ) ⊕ (ℕ × ℕ)

/-- The logical message a component belongs to. -/
def TelegramMessage.logicalKey (message : TelegramMessage) : LogicalKey :=
  match message.telegramGroupedId with
  | none => .inl (message.sourceChannelId, message.telegramMessageId)
  | some grouped => .inr (message.sourceChannelId, grouped)

/-- The logical message an output stands for. -/
def NormalizedTelegramMessage.logicalKey (n : NormalizedTelegramMessage) : LogicalKey :=
  match n.telegramGroupedId with
  | none => .inl (n.sourceChannelId, n.primaryTelegramMessageId)
  | some grouped => .inr (n.sourceChannelId, grouped)

/-- The components of a logical message. -/
def componentsOf (batch : List TelegramMessage) (key : LogicalKey) : List TelegramMessage :=
  batch.filter fun message => message.logicalKey = key

instance : Std.Total NormalizedTelegramMessage.LE where
  total _ _ := le_total (α := List ℕ) _ _

instance : IsTrans NormalizedTelegramMessage NormalizedTelegramMessage.LE where
  trans _ _ _ h h' := le_trans (α := List ℕ) h h'

variable {batch batch' : List TelegramMessage} {ns : List NormalizedTelegramMessage}
  {n : NormalizedTelegramMessage} {m m' : TelegramMessage} {key : LogicalKey}

theorem TelegramMessage.of_logicalKey_eq (h : m.logicalKey = m'.logicalKey) :
    m.sourceChannelId = m'.sourceChannelId ∧ m.telegramGroupedId = m'.telegramGroupedId := by
  unfold logicalKey at h
  cases hm : m.telegramGroupedId <;> cases hm' : m'.telegramGroupedId <;> rw [hm, hm'] at h <;>
    simp_all

theorem TelegramMessage.of_logicalKey_inr {k : ℕ × ℕ} (h : m.logicalKey = .inr k) :
    m.sourceChannelId = k.1 ∧ m.telegramGroupedId = some k.2 := by
  unfold logicalKey at h
  cases hm : m.telegramGroupedId with
  | none =>
    rw [hm] at h
    cases h
  | some grouped =>
    rw [hm] at h
    rw [← Sum.inr.inj h]
    exact ⟨rfl, rfl⟩

theorem NormalizedTelegramMessage.of_logicalKey_eq (h : n.logicalKey = m.logicalKey) :
    n.sourceChannelId = m.sourceChannelId ∧ n.telegramGroupedId = m.telegramGroupedId := by
  unfold NormalizedTelegramMessage.logicalKey TelegramMessage.logicalKey at h
  cases hn : n.telegramGroupedId <;> cases hm : m.telegramGroupedId <;> rw [hn, hm] at h <;>
    simp_all

/-- Components with distinct ids have distinct ids within a logical message. -/
theorem nodup_componentsOf (h : (batch.map (·.component)).Nodup) (key : LogicalKey) :
    (((componentsOf batch key).map (·.asPart)).map (·.telegramMessageId)).Nodup := by
  have hsub : ((componentsOf batch key).map (·.component)).Nodup :=
    h.sublist (List.filter_sublist.map _)
  rw [List.map_map]
  rw [List.Nodup, List.pairwise_map] at hsub ⊢
  refine hsub.imp_of_mem fun {a b} ha hb hne heq => hne ?_
  rw [componentsOf, List.mem_filter, decide_eq_true_eq] at ha hb
  obtain ⟨hsource, -⟩ := TelegramMessage.of_logicalKey_eq (ha.2.trans hb.2.symm)
  exact Prod.ext hsource heq

/-- The order of parts with distinct ids does not matter. -/
theorem normalizeParts_perm {s : ℕ} {g : Option ℕ} {parts parts' : List TelegramMessagePart}
    (h : parts.Perm parts') (hids : (parts.map (·.telegramMessageId)).Nodup) :
    normalizeParts s g parts = normalizeParts s g parts' := by
  unfold normalizeParts
  rw [orderedParts_eq_of_perm h hids]

/-! ## The outputs of a batch -/

/-- What an output of a batch is. -/
structure OutputOf (batch : List TelegramMessage) (n : NormalizedTelegramMessage) : Prop where
  parts : n.parts.Perm ((componentsOf batch n.logicalKey).map (·.asPart))
  primary : ∃ m ∈ batch, m.logicalKey = n.logicalKey ∧ m.sourceChannelId = n.sourceChannelId ∧
    m.telegramMessageId = n.primaryTelegramMessageId
  normalized : normalizeParts n.sourceChannelId n.telegramGroupedId
    ((componentsOf batch n.logicalKey).map (·.asPart)) = .ok n

/-- The outputs of a batch: one for each logical message, in order. -/
structure Outputs (batch : List TelegramMessage) (ns : List NormalizedTelegramMessage) : Prop where
  sorted : ns.Pairwise NormalizedTelegramMessage.LE
  keys_nodup : (ns.map (·.logicalKey)).Nodup
  mem_keys : ∀ key, key ∈ ns.map (·.logicalKey) ↔ key ∈ batch.map (·.logicalKey)
  output : ∀ n ∈ ns, OutputOf batch n

/-- What is normalised from the components of a logical message is its output. -/
theorem outputOf_of_normalizeParts {s : ℕ} {g : Option ℕ} (hs : m.sourceChannelId = s)
    (hg : m.telegramGroupedId = g)
    (h : normalizeParts s g ((componentsOf batch m.logicalKey).map (·.asPart)) = .ok n) :
    n.logicalKey = m.logicalKey ∧ OutputOf batch n := by
  obtain ⟨first, rest, hparts, hn⟩ := normalizeParts_eq_ok h
  have hperm := orderedParts_perm ((componentsOf batch m.logicalKey).map (·.asPart))
  rw [hparts] at hperm
  obtain ⟨m', hm', hfirst⟩ := List.mem_map.mp (hperm.mem_iff.mp (List.mem_cons_self ..))
  rw [componentsOf, List.mem_filter, decide_eq_true_eq] at hm'
  obtain ⟨hsource, hgrouped⟩ := TelegramMessage.of_logicalKey_eq hm'.2
  have hkey : n.logicalKey = m'.logicalKey := by
    rw [hn]
    unfold NormalizedTelegramMessage.logicalKey TelegramMessage.logicalKey logicalMessage
    dsimp only
    rw [hgrouped, hg, hsource, hs, ← hfirst]
  refine ⟨hkey.trans hm'.2, ?_, ⟨m', hm'.1, hkey.symm, ?_, ?_⟩, ?_⟩
  · rw [hkey, hm'.2, hn, logicalMessage_parts]
    exact hperm
  · rw [hn, hsource]
    exact hs
  · rw [hn]
    exact congrArg (·.telegramMessageId) hfirst
  · rw [hkey, hm'.2]
    obtain ⟨hns, hng⟩ := normalizeParts_fields h
    rwa [hns, hng]

/-- A regular component is all there is of its logical message. -/
theorem componentsOf_regular (hnodup : (batch.map (·.component)).Nodup) (hm : m ∈ batch)
    (hnone : m.telegramGroupedId = none) : componentsOf batch m.logicalKey = [m] := by
  have hmem : m ∈ componentsOf batch m.logicalKey :=
    List.mem_filter.mpr ⟨hm, decide_eq_true rfl⟩
  have hall : ∀ m' ∈ componentsOf batch m.logicalKey, m' = m := by
    intro m' hm'
    rw [componentsOf, List.mem_filter, decide_eq_true_eq] at hm'
    obtain ⟨hsource, hgrouped⟩ := TelegramMessage.of_logicalKey_eq hm'.2
    have hkey := hm'.2
    unfold TelegramMessage.logicalKey at hkey
    rw [hgrouped, hnone] at hkey
    exact List.inj_on_of_nodup_map hnodup hm'.1 hm (Sum.inl.inj hkey)
  have hsingle : (componentsOf batch m.logicalKey).Nodup :=
    (List.Nodup.of_map _ hnodup).sublist List.filter_sublist
  cases hcomponents : componentsOf batch m.logicalKey with
  | nil =>
    rw [hcomponents] at hmem
    cases hmem
  | cons a l =>
    rw [hcomponents] at hall hsingle
    have hnil : l = [] := by
      refine List.eq_nil_iff_forall_not_mem.mpr fun b hb => (List.nodup_cons.mp hsingle).1 ?_
      rw [hall a (by simp), ← hall b (by simp [hb])]
      exact hb
    rw [hnil, hall a (by simp)]

/-- A collected group is all there is of its logical message. -/
theorem componentsOf_group (batch : List TelegramMessage) (key : ℕ × ℕ) :
    componentsOf batch (.inr key) = batch.filter fun m => m.groupKey = some key := by
  refine List.filter_congr fun m _ => ?_
  unfold TelegramMessage.logicalKey TelegramMessage.groupKey
  cases m.telegramGroupedId <;> simp

theorem map_eq_of_forall₂ {α β γ : Type*} {R : α → β → Prop} {f : α → γ} {g : β → γ} {l : List α}
    {l' : List β} (h : List.Forall₂ R l l') (hR : ∀ a ∈ l, ∀ b, R a b → g b = f a) :
    l'.map g = l.map f := by
  induction h with
  | nil => rfl
  | cons hab _ ih =>
    rw [List.map_cons, List.map_cons, hR _ (List.mem_cons_self ..) _ hab,
      ih fun a ha => hR a (List.mem_cons_of_mem _ ha)]

theorem nodup_regularKeys (hnodup : (batch.map (·.component)).Nodup) :
    ((batch.filter (·.telegramGroupedId.isNone)).map (·.logicalKey)).Nodup := by
  have hregular : ((batch.filter (·.telegramGroupedId.isNone)).map (·.component)).Nodup :=
    hnodup.sublist (List.filter_sublist.map _)
  rw [List.Nodup, List.pairwise_map] at hregular ⊢
  refine hregular.imp_of_mem fun {a b} ha hb hne heq => hne ?_
  rw [List.mem_filter, Option.isNone_iff_eq_none] at ha hb
  unfold TelegramMessage.logicalKey at heq
  rw [ha.2, hb.2] at heq
  exact Sum.inl.inj heq

/-- Each logical message of a batch is a regular component or a collected group. -/
theorem mem_regularKeys_or_groups (batch : List TelegramMessage) (key : LogicalKey) :
    (key ∈ (batch.filter (·.telegramGroupedId.isNone)).map (·.logicalKey) ∨
      key ∈ (Dict.keys (batch.foldl addToGroup [])).map Sum.inr) ↔
      key ∈ batch.map (·.logicalKey) := by
  obtain ⟨hkeys, hgroups⟩ := foldl_addToGroup batch
  constructor
  · rintro (hkey | hkey)
    · obtain ⟨m, hm, rfl⟩ := List.mem_map.mp hkey
      exact List.mem_map_of_mem (List.mem_filter.mp hm).1
    · obtain ⟨k, hk, rfl⟩ := List.mem_map.mp hkey
      obtain ⟨group, hgroup⟩ := Dict.mem_keys.mp hk
      obtain ⟨hgroup, hne⟩ := (hgroups _ _).mp (Dict.lookup_of_mem hkeys hgroup)
      obtain ⟨m, hm⟩ := List.exists_mem_of_ne_nil _ hne
      rw [hgroup, ← componentsOf_group, componentsOf, List.mem_filter, decide_eq_true_eq] at hm
      exact hm.2 ▸ List.mem_map_of_mem hm.1
  · intro hkey
    obtain ⟨m, hm, rfl⟩ := List.mem_map.mp hkey
    cases hg : m.telegramGroupedId with
    | none => exact .inl (List.mem_map_of_mem (List.mem_filter.mpr ⟨hm, by rw [hg]; rfl⟩))
    | some g =>
      have hmkey : m.logicalKey = .inr (m.sourceChannelId, g) := by
        rw [TelegramMessage.logicalKey, hg]
      have hmem : m ∈ batch.filter (·.groupKey = some (m.sourceChannelId, g)) := by
        rw [← componentsOf_group]
        exact List.mem_filter.mpr ⟨hm, decide_eq_true hmkey⟩
      have hlookup := (hgroups (m.sourceChannelId, g) _).mpr ⟨rfl, List.ne_nil_of_mem hmem⟩
      rw [hmkey]
      exact .inr (List.mem_map_of_mem (Dict.mem_keys.mpr ⟨_, Dict.mem_of_lookup hlookup⟩))

/-- The outputs of a batch that is accepted. -/
theorem outputs_of_eq_ok (h : normalizeTelegramMessages batch = .ok ns) :
    (batch.map (·.component)).Nodup ∧ Outputs batch ns := by
  unfold normalizeTelegramMessages at h
  obtain ⟨hnodup, h⟩ := seq_eq_ok.mp h
  rw [ensure_eq_ok, decide_eq_true_eq] at hnodup
  obtain ⟨regular, hregular, h⟩ := bind_eq_ok.mp h
  obtain ⟨grouped, hgrouped, h⟩ := bind_eq_ok.mp h
  obtain rfl := Except.ok.inj h
  rw [mapM_eq_ok] at hregular hgrouped
  obtain ⟨hkeys, hgroups⟩ := foldl_addToGroup batch
  have hone : ∀ m ∈ batch.filter (·.telegramGroupedId.isNone), ∀ n,
      normalizeParts m.sourceChannelId none [m.asPart] = .ok n →
        n.logicalKey = m.logicalKey ∧ OutputOf batch n := by
    intro m hm n hn
    rw [List.mem_filter, Option.isNone_iff_eq_none] at hm
    refine outputOf_of_normalizeParts rfl hm.2 ?_
    rw [componentsOf_regular hnodup hm.1 hm.2]
    exact hn
  have hmany : ∀ group ∈ batch.foldl addToGroup [], ∀ n,
      normalizeParts group.1.1 (some group.1.2) (group.2.map (·.asPart)) = .ok n →
        n.logicalKey = .inr group.1 ∧ OutputOf batch n := by
    intro group hmem n hn
    obtain ⟨hgroup, hne⟩ := (hgroups _ _).mp (Dict.lookup_of_mem hkeys hmem)
    obtain ⟨m, hm⟩ := List.exists_mem_of_ne_nil _ hne
    rw [hgroup, ← componentsOf_group] at hm
    have hkey := of_decide_eq_true (List.mem_filter.mp hm).2
    obtain ⟨hsource, hgrouped⟩ := TelegramMessage.of_logicalKey_inr hkey
    rw [← hkey]
    refine outputOf_of_normalizeParts hsource hgrouped ?_
    rw [hkey, componentsOf_group, ← hgroup]
    exact hn
  have hregularKeys := map_eq_of_forall₂ hregular fun m hm n hn => (hone m hm n hn).1
  have hgroupedKeys := map_eq_of_forall₂ hgrouped fun group hm n hn => (hmany group hm n hn).1
  have hperm : ((regular ++ grouped).insertionSort NormalizedTelegramMessage.LE).Perm
      (regular ++ grouped) := List.perm_insertionSort _ _
  have hallKeys : ((regular ++ grouped).map (·.logicalKey)) =
      (batch.filter (·.telegramGroupedId.isNone)).map (·.logicalKey) ++
        (Dict.keys (batch.foldl addToGroup [])).map Sum.inr := by
    rw [List.map_append, hregularKeys, hgroupedKeys, Dict.keys, List.map_map]
    rfl
  refine ⟨hnodup, List.pairwise_insertionSort _ _, ?_, fun key => ?_, fun n hn => ?_⟩
  · rw [(hperm.map _).nodup_iff, hallKeys]
    refine (nodup_regularKeys hnodup).append (hkeys.map Sum.inr_injective) ?_
    rintro key hinl hinr
    obtain ⟨m, hm, rfl⟩ := List.mem_map.mp hinl
    obtain ⟨k, -, hk⟩ := List.mem_map.mp hinr
    rw [List.mem_filter, Option.isNone_iff_eq_none] at hm
    rw [TelegramMessage.logicalKey, hm.2] at hk
    cases hk
  · rw [(hperm.map _).mem_iff, hallKeys, List.mem_append]
    exact mem_regularKeys_or_groups batch key
  · rcases List.mem_append.mp (hperm.mem_iff.mp hn) with hn | hn
    · obtain ⟨m, hm, hmn⟩ := exists_left_of_mem hregular hn
      exact (hone m hm n hmn).2
    · obtain ⟨group, hmem, hkn⟩ := exists_left_of_mem hgrouped hn
      exact (hmany group hmem n hkn).2

/-! ## The order of a batch -/

/-- The logical message determines the output. -/
theorem OutputOf.eq {n n' : NormalizedTelegramMessage} (h : OutputOf batch n)
    (h' : OutputOf batch n') (hkey : n.logicalKey = n'.logicalKey) : n = n' := by
  obtain ⟨m, -, hm, -⟩ := h.primary
  obtain ⟨hsource, hgrouped⟩ := NormalizedTelegramMessage.of_logicalKey_eq hm.symm
  obtain ⟨hsource', hgrouped'⟩ :=
    NormalizedTelegramMessage.of_logicalKey_eq (hkey.symm.trans hm.symm)
  have hn := h.normalized
  rw [hkey, hsource.trans hsource'.symm, hgrouped.trans hgrouped'.symm, h'.normalized] at hn
  exact (Except.ok.inj hn).symm

/-- Outputs of one rank are the same output. -/
theorem OutputOf.eq_of_le {n n' : NormalizedTelegramMessage} (h : OutputOf batch n)
    (h' : OutputOf batch n') (hnodup : (batch.map (·.component)).Nodup) (hle : n.LE n')
    (hle' : n'.LE n) : n = n' := by
  obtain ⟨m, hm, hkey, hsource, hid⟩ := h.primary
  obtain ⟨m', hm', hkey', hsource', hid'⟩ := h'.primary
  obtain ⟨hs, heq⟩ := List.cons.inj (le_antisymm (α := List ℕ) hle hle')
  obtain ⟨hp, -⟩ := List.cons.inj heq
  have hcomponent : m.component = m'.component :=
    Prod.ext (hsource.trans (hs.trans hsource'.symm)) (hid.trans (hp.trans hid'.symm))
  obtain rfl := List.inj_on_of_nodup_map hnodup hm hm' hcomponent
  exact h.eq h' (hkey.symm.trans hkey')

/-- A batch has one list of outputs. -/
theorem Outputs.eq {ns ns' : List NormalizedTelegramMessage} (h : Outputs batch ns)
    (h' : Outputs batch ns') (hnodup : (batch.map (·.component)).Nodup) : ns = ns' := by
  have hmem : ∀ {ns ns'}, Outputs batch ns → Outputs batch ns' → ∀ n ∈ ns, n ∈ ns' := by
    intro ns ns' h h' n hn
    obtain ⟨n', hn', hkey⟩ := List.mem_map.mp
      ((h'.mem_keys _).mpr ((h.mem_keys _).mp (List.mem_map_of_mem hn)))
    rwa [← (h'.output n' hn').eq (h.output n hn) hkey]
  have hperm : ns.Perm ns' :=
    (List.perm_ext_iff_of_nodup (.of_map _ h.keys_nodup) (.of_map _ h'.keys_nodup)).mpr fun n =>
      ⟨hmem h h' n, hmem h' h n⟩
  exact hperm.eq_of_pairwise (fun n n' hn hn' => (h.output n hn).eq_of_le (h'.output n' hn') hnodup)
    h.sorted h'.sorted

/-- A batch is accepted, with some outputs, exactly when its components are distinct and these
are its outputs. -/
theorem normalizeTelegramMessages_iff : normalizeTelegramMessages batch = .ok ns ↔
    (batch.map (·.component)).Nodup ∧ Outputs batch ns := by
  refine ⟨outputs_of_eq_ok, fun ⟨hnodup, h⟩ => ?_⟩
  have hreturns : ∃ ns', normalizeTelegramMessages batch = .ok ns' := by
    obtain ⟨hkeys, hgroups⟩ := foldl_addToGroup batch
    have hone : ∀ m ∈ batch, ∃ n, normalizeParts m.sourceChannelId m.telegramGroupedId
        ((componentsOf batch m.logicalKey).map (·.asPart)) = .ok n := by
      intro m hm
      obtain ⟨n, hn, hkey⟩ := List.mem_map.mp ((h.mem_keys _).mpr (List.mem_map_of_mem hm))
      obtain ⟨hsource, hgrouped⟩ := NormalizedTelegramMessage.of_logicalKey_eq hkey
      have hnormalized := (h.output n hn).normalized
      rw [hkey, hsource, hgrouped] at hnormalized
      exact ⟨n, hnormalized⟩
    obtain ⟨regular, hregular⟩ : ∃ regular,
        ((batch.filter (·.telegramGroupedId.isNone)).mapM fun message =>
          normalizeParts message.sourceChannelId none [message.asPart]) = .ok regular := by
      refine exists_mapM_eq_ok fun m hm => ?_
      rw [List.mem_filter, Option.isNone_iff_eq_none] at hm
      have hm' := hone m hm.1
      rwa [componentsOf_regular hnodup hm.1 hm.2, hm.2] at hm'
    obtain ⟨grouped, hgrouped⟩ : ∃ grouped, ((batch.foldl addToGroup []).mapM fun group =>
        normalizeParts group.1.1 (some group.1.2) (group.2.map (·.asPart))) = .ok grouped := by
      refine exists_mapM_eq_ok fun group hmem => ?_
      obtain ⟨hgroup, hne⟩ := (hgroups _ _).mp (Dict.lookup_of_mem hkeys hmem)
      obtain ⟨m, hm⟩ := List.exists_mem_of_ne_nil _ hne
      rw [hgroup, ← componentsOf_group] at hm
      obtain ⟨hm, hkey⟩ := List.mem_filter.mp hm
      obtain ⟨hsource, hgrouped⟩ := TelegramMessage.of_logicalKey_inr (of_decide_eq_true hkey)
      have hm' := hone m hm
      rwa [of_decide_eq_true hkey, componentsOf_group, ← hgroup, hsource, hgrouped] at hm'
    unfold normalizeTelegramMessages
    rw [ensure_eq_ok.mpr (decide_eq_true hnodup), hregular, hgrouped]
    exact ⟨_, rfl⟩
  obtain ⟨ns', hns'⟩ := hreturns
  rw [hns', (outputs_of_eq_ok hns').2.eq h hnodup]

theorem outputOf_perm {n : NormalizedTelegramMessage} (hperm : batch'.Perm batch)
    (hnodup : (batch.map (·.component)).Nodup) (h : OutputOf batch n) : OutputOf batch' n := by
  have hcomponents := (hperm.filter fun m => decide (m.logicalKey = n.logicalKey)).map (·.asPart)
  refine ⟨h.parts.trans hcomponents.symm, ?_, ?_⟩
  · obtain ⟨m, hm, hrest⟩ := h.primary
    exact ⟨m, hperm.mem_iff.mpr hm, hrest⟩
  · rw [← h.normalized]
    exact (normalizeParts_perm hcomponents.symm (nodup_componentsOf hnodup _)).symm

theorem Outputs.perm (hperm : batch'.Perm batch) (hnodup : (batch.map (·.component)).Nodup)
    (h : Outputs batch ns) : Outputs batch' ns := by
  refine ⟨h.sorted, h.keys_nodup, fun key => ?_, fun n hn => outputOf_perm hperm hnodup (h.output n hn)⟩
  rw [h.mem_keys, (hperm.map _).mem_iff]

/-- The order in which a batch is given does not matter. -/
theorem normalizeTelegramMessages_perm (hperm : batch'.Perm batch)
    (ns : List NormalizedTelegramMessage) :
    normalizeTelegramMessages batch' = .ok ns ↔ normalizeTelegramMessages batch = .ok ns := by
  rw [normalizeTelegramMessages_iff, normalizeTelegramMessages_iff,
    (hperm.map (·.component)).nodup_iff]
  exact and_congr_right fun hnodup =>
    ⟨fun h => h.perm hperm.symm ((hperm.map _).nodup_iff.mpr hnodup), fun h => h.perm hperm hnodup⟩

/-- For every batch: each order of it gives the same outputs, or none. The outputs are in order;
there is one for each logical message, a regular component or a media group of a source, with
the parts of that message; together they have the parts of the batch; and each is what its own
parts give, in any order. -/
theorem normalizeTelegramMessages_spec (batch : List TelegramMessage) :
    (∀ batch' : List TelegramMessage, batch'.Perm batch → ∀ ns,
      normalizeTelegramMessages batch' = .ok ns ↔ normalizeTelegramMessages batch = .ok ns) ∧
    ∀ ns, normalizeTelegramMessages batch = .ok ns →
      ns.Pairwise NormalizedTelegramMessage.LE ∧
      (ns.map (·.logicalKey)).Nodup ∧
      (∀ key, key ∈ ns.map (·.logicalKey) ↔ key ∈ batch.map (·.logicalKey)) ∧
      (∀ n ∈ ns, n.parts.Perm ((componentsOf batch n.logicalKey).map (·.asPart))) ∧
      (ns.flatMap fun n => n.parts.map fun part => (n.sourceChannelId, n.telegramGroupedId, part)).Perm
        (batch.map fun m => (m.sourceChannelId, m.telegramGroupedId, m.asPart)) ∧
      ∀ n ∈ ns, ∀ parts : List TelegramMessagePart, parts.Perm n.parts →
        normalizedFromParts n.sourceChannelId n.telegramGroupedId parts = .ok n := by
  refine ⟨fun batch' hperm ns => normalizeTelegramMessages_perm hperm ns, fun ns hns => ?_⟩
  obtain ⟨hnodup, h⟩ := normalizeTelegramMessages_iff.mp hns
  refine ⟨h.sorted, h.keys_nodup, h.mem_keys, fun n hn => (h.output n hn).parts, ?_, ?_⟩
  · have hcover : ∀ m ∈ batch, m.logicalKey ∈ ns.map (·.logicalKey) := fun m hm =>
      (h.mem_keys _).mpr (List.mem_map_of_mem hm)
    refine .trans ?_ ((flatMap_filter_perm h.keys_nodup hcover).map _)
    rw [List.map_flatMap, List.flatMap_map]
    refine List.Perm.flatMap_left _ fun n hn => ?_
    refine ((h.output n hn).parts.map _).trans (.of_eq ?_)
    rw [List.map_map]
    refine List.map_congr_left fun m hm => ?_
    obtain ⟨hsource, hgrouped⟩ := NormalizedTelegramMessage.of_logicalKey_eq
      (of_decide_eq_true (List.mem_filter.mp hm).2).symm
    rw [Function.comp_apply, hsource, hgrouped]
  · intro n hn parts hparts
    have hout := h.output n hn
    have hids := nodup_componentsOf hnodup n.logicalKey
    rw [normalizedFromParts, ← hout.normalized]
    refine normalizeParts_perm (hparts.trans hout.parts) ?_
    exact (((hparts.trans hout.parts).map _).nodup_iff).mpr hids

end TgCurator
