import TgCurator.Messages.Telegram

/-!
# The media group buffer

`MediaGroupAggregationBuffer` of `application/media_group_buffer.py`: the parts of a media
group wait in memory for the aggregation window, counted from the first of them, so that
a group is upserted as a whole. Regular messages pass through.

Under one key of the buffer the parts are kept by component id, a repeated one replacing
the part that waits. `MediaGroupAggregationBuffer.WellFormed` says which parts wait where
(`wellFormed_hold`, `wellFormed_flushDue`), and `filter_release` what a release hands out
for a component: the part that waits under the key of its group, once.
-/

namespace TgCurator

/-- `_PendingMediaGroup`. -/
structure PendingMediaGroup where
  firstReceivedAt : ℤ
  messagesById : Dict ℕ TelegramMessage := []

/-- `MediaGroupAggregationBuffer`. -/
structure MediaGroupAggregationBuffer where
  aggregationWindow : ℤ
  window_pos : 0 < aggregationWindow
  pending : Dict (ℕ × ℕ) PendingMediaGroup := []

/-- `(first_received_at, key[0], key[1])` in order. -/
abbrev PendingMediaGroup.LE (e e' : (ℕ × ℕ) × PendingMediaGroup) : Prop :=
  [e.2.firstReceivedAt, (e.1.1 : ℤ), (e.1.2 : ℤ)] ≤
    [e'.2.firstReceivedAt, (e'.1.1 : ℤ), (e'.1.2 : ℤ)]

/-- `(message for _, message in sorted(pending.messages_by_id.items()))`. -/
def PendingMediaGroup.ordered (group : PendingMediaGroup) : List TelegramMessage :=
  (group.messagesById.insertionSort fun e e' => e.1 ≤ e'.1).map (·.2)

namespace MediaGroupAggregationBuffer

/-- `_release`: `pop` each key in turn. The keys are keys of the buffer. -/
def release (buffer : MediaGroupAggregationBuffer) :
    List (ℕ × ℕ) → MediaGroupAggregationBuffer × List TelegramMessage
  | [] => (buffer, [])
  | key :: keys =>
    match buffer.pending.lookup key with
    | none => buffer.release keys
    | some group =>
      let (rest, released) :=
        ({ buffer with pending := buffer.pending.erase key } : MediaGroupAggregationBuffer).release
          keys
      (rest, group.ordered ++ released)

/-- Whether the wait of a group is over. -/
def isDue (buffer : MediaGroupAggregationBuffer) (now : ℤ) (group : PendingMediaGroup) : Bool :=
  group.firstReceivedAt + buffer.aggregationWindow ≤ now

/-- The keys of the groups to release, in order. -/
def sortedKeys (entries : Dict (ℕ × ℕ) PendingMediaGroup) : List (ℕ × ℕ) :=
  Dict.keys (entries.insertionSort PendingMediaGroup.LE)

/-- `flush_due`. -/
def flushDue (buffer : MediaGroupAggregationBuffer) (now : ℤ) :
    MediaGroupAggregationBuffer × List TelegramMessage :=
  buffer.release (sortedKeys (buffer.pending.filter fun e => buffer.isDue now e.2))

/-- `flush_all`. -/
def flushAll (buffer : MediaGroupAggregationBuffer) :
    MediaGroupAggregationBuffer × List TelegramMessage :=
  buffer.release (sortedKeys buffer.pending)

/-- Keep a part of a media group waiting. -/
def hold (buffer : MediaGroupAggregationBuffer) (key : ℕ × ℕ) (message : TelegramMessage)
    (now : ℤ) : MediaGroupAggregationBuffer :=
  let group := (buffer.pending.lookup key).getD { firstReceivedAt := now }
  { buffer with
    pending := buffer.pending.set key
      { group with messagesById := group.messagesById.set message.telegramMessageId message } }

/-- `add`. -/
def add (buffer : MediaGroupAggregationBuffer) (message : TelegramMessage) (now : ℤ) :
    MediaGroupAggregationBuffer × List TelegramMessage :=
  let (buffer, ready) := buffer.flushDue now
  match message.telegramGroupedId with
  | none => (buffer, ready ++ [message])
  | some grouped => (buffer.hold (message.sourceChannelId, grouped) message now, ready)

/-! ## What waits where -/

/-- The parts that wait. -/
def messages (buffer : MediaGroupAggregationBuffer) : List TelegramMessage :=
  buffer.pending.flatMap fun e => e.2.messagesById.values

/-- The parts of a group wait under its key, each under its component id. -/
structure WellFormed (buffer : MediaGroupAggregationBuffer) : Prop where
  nodup : buffer.pending.keys.Nodup
  parts_nodup : ∀ key group, buffer.pending.lookup key = some group → group.messagesById.keys.Nodup
  part : ∀ key group id message, buffer.pending.lookup key = some group →
    group.messagesById.lookup id = some message →
    message.telegramMessageId = id ∧ message.groupKey = some key

/-- The part of a component that waits under the key of its group, with the time from
which it is due. -/
def waiting (buffer : MediaGroupAggregationBuffer) (key : Option (ℕ × ℕ)) (id : ℕ) :
    Option (ℤ × TelegramMessage) :=
  (key.bind fun key => buffer.pending.lookup key).bind fun group =>
    (group.messagesById.lookup id).map fun message =>
      (group.firstReceivedAt + buffer.aggregationWindow, message)

/-- When the wait of a group is over, if it has parts. -/
def deadline (buffer : MediaGroupAggregationBuffer) (key : ℕ × ℕ) : Option ℤ :=
  (buffer.pending.lookup key).map fun group => group.firstReceivedAt + buffer.aggregationWindow

variable {buffer : MediaGroupAggregationBuffer}

theorem WellFormed.mem_messages (h : buffer.WellFormed) {message : TelegramMessage} :
    message ∈ buffer.messages ↔ ∃ key group, buffer.pending.lookup key = some group ∧
      group.messagesById.lookup message.telegramMessageId = some message := by
  simp only [messages, Dict.values, List.mem_flatMap, List.mem_map]
  constructor
  · rintro ⟨⟨key, group⟩, hmem, ⟨id, m⟩, hm, rfl⟩
    have hgroup := Dict.lookup_of_mem h.nodup hmem
    have hlookup := Dict.lookup_of_mem (h.parts_nodup key group hgroup) hm
    exact ⟨key, group, hgroup, (h.part key group id m hgroup hlookup).1 ▸ hlookup⟩
  · rintro ⟨key, group, hgroup, hlookup⟩
    exact ⟨_, Dict.mem_of_lookup hgroup, _, Dict.mem_of_lookup hlookup, rfl⟩

/-- A part waits under the key of its group. -/
theorem WellFormed.mem_messages_iff (h : buffer.WellFormed) {message : TelegramMessage} :
    message ∈ buffer.messages ↔
      ∃ due, buffer.waiting message.groupKey message.telegramMessageId = some (due, message) := by
  rw [h.mem_messages]
  constructor
  · rintro ⟨key, group, hgroup, hlookup⟩
    obtain ⟨-, hkey⟩ := h.part key group _ message hgroup hlookup
    exact ⟨_, by rw [waiting, hkey, Option.bind_some, hgroup, Option.bind_some, hlookup]; rfl⟩
  · rintro ⟨due, hwaiting⟩
    obtain ⟨group, hbind, hmap⟩ := Option.bind_eq_some_iff.mp hwaiting
    obtain ⟨key, -, hgroup⟩ := Option.bind_eq_some_iff.mp hbind
    obtain ⟨m, hlookup, hm⟩ := Option.map_eq_some_iff.mp hmap
    obtain rfl : m = message := congrArg Prod.snd hm
    exact ⟨key, group, hgroup, hlookup⟩

/-! ## Releasing -/

/-- What is left after a release. -/
theorem release_pending (keys : List (ℕ × ℕ)) (key : ℕ × ℕ) :
    ∀ buffer : MediaGroupAggregationBuffer, (buffer.release keys).1.pending.lookup key =
      if key ∈ keys then none else buffer.pending.lookup key := by
  induction keys with
  | nil => simp [release]
  | cons k keys ih =>
    intro buffer
    rw [release]
    cases hl : buffer.pending.lookup k with
    | none =>
      rw [ih]
      by_cases hk : key = k
      · simp [hk, hl]
      · simp [hk]
    | some group =>
      dsimp only
      rw [ih]
      by_cases hk : key = k
      · simp [hk]
      · simp [hk, Dict.lookup_erase_of_ne hk]

theorem release_window (keys : List (ℕ × ℕ)) : ∀ buffer : MediaGroupAggregationBuffer,
    (buffer.release keys).1.aggregationWindow = buffer.aggregationWindow := by
  induction keys with
  | nil => exact fun _ => rfl
  | cons k keys ih =>
    intro buffer
    rw [release]
    cases buffer.pending.lookup k with
    | none => exact ih buffer
    | some group => exact ih _

theorem release_nodup (keys : List (ℕ × ℕ)) : ∀ buffer : MediaGroupAggregationBuffer,
    buffer.pending.keys.Nodup → (buffer.release keys).1.pending.keys.Nodup := by
  induction keys with
  | nil => exact fun _ h => h
  | cons k keys ih =>
    intro buffer h
    rw [release]
    cases buffer.pending.lookup k with
    | none => exact ih buffer h
    | some group => exact ih _ (Dict.nodup_keys_erase h)

/-- What a release hands out. -/
theorem release_released (keys : List (ℕ × ℕ)) (hkeys : keys.Nodup) :
    ∀ buffer : MediaGroupAggregationBuffer, (buffer.release keys).2 =
      keys.flatMap fun key => (buffer.pending.lookup key).elim [] (·.ordered) := by
  induction keys with
  | nil => exact fun _ => rfl
  | cons k keys ih =>
    rw [List.nodup_cons] at hkeys
    intro buffer
    rw [release, List.flatMap_cons]
    cases hl : buffer.pending.lookup k with
    | none => exact ih hkeys.2 buffer
    | some group =>
      dsimp only
      rw [ih hkeys.2, Option.elim_some]
      refine congrArg _ (List.flatMap_congr fun key hkey => ?_)
      rw [Dict.lookup_erase_of_ne]
      rintro rfl
      exact hkeys.1 hkey

theorem wellFormed_release (h : buffer.WellFormed) (keys : List (ℕ × ℕ)) :
    (buffer.release keys).1.WellFormed := by
  have hsub : ∀ key group, (buffer.release keys).1.pending.lookup key = some group →
      buffer.pending.lookup key = some group := by
    intro key group hl
    rw [release_pending] at hl
    split_ifs at hl
    exact hl
  exact ⟨release_nodup keys buffer h.nodup, fun key group hl => h.parts_nodup key group (hsub _ _ hl),
    fun key group id m hl hm => h.part key group id m (hsub _ _ hl) hm⟩

/-- A release hands out the parts it does not leave. -/
theorem WellFormed.mem_release (h : buffer.WellFormed) {keys : List (ℕ × ℕ)} (hkeys : keys.Nodup)
    {message : TelegramMessage} (hm : message ∈ buffer.messages) :
    message ∈ (buffer.release keys).1.messages ∨ message ∈ (buffer.release keys).2 := by
  obtain ⟨key, group, hgroup, hlookup⟩ := h.mem_messages.mp hm
  by_cases hkey : key ∈ keys
  · right
    rw [release_released keys hkeys, List.mem_flatMap]
    refine ⟨key, hkey, ?_⟩
    rw [hgroup, Option.elim_some, PendingMediaGroup.ordered, List.mem_map]
    exact ⟨_, (List.perm_insertionSort _ _).mem_iff.mpr (Dict.mem_of_lookup hlookup), rfl⟩
  · left
    refine (wellFormed_release h keys).mem_messages.mpr ⟨key, group, ?_, hlookup⟩
    rw [release_pending, if_neg hkey, hgroup]

/-- What a release leaves and hands out waited before. -/
theorem WellFormed.of_mem_release (h : buffer.WellFormed) {keys : List (ℕ × ℕ)}
    (hkeys : keys.Nodup) {message : TelegramMessage}
    (hm : message ∈ (buffer.release keys).1.messages ∨ message ∈ (buffer.release keys).2) :
    message ∈ buffer.messages := by
  rcases hm with hm | hm
  · obtain ⟨key, group, hgroup, hlookup⟩ := (wellFormed_release h keys).mem_messages.mp hm
    rw [release_pending] at hgroup
    split_ifs at hgroup
    exact h.mem_messages.mpr ⟨key, group, hgroup, hlookup⟩
  · rw [release_released keys hkeys, List.mem_flatMap] at hm
    obtain ⟨key, -, hm⟩ := hm
    cases hgroup : buffer.pending.lookup key with
    | none => simp [hgroup] at hm
    | some group =>
      rw [hgroup, Option.elim_some] at hm
      obtain ⟨e, he, rfl⟩ := List.mem_map.mp hm
      have hlookup := Dict.lookup_of_mem (k := e.1) (v := e.2) (h.parts_nodup key group hgroup)
        ((List.perm_insertionSort _ _).mem_iff.mp he)
      obtain ⟨hid, -⟩ := h.part key group e.1 e.2 hgroup hlookup
      exact h.mem_messages.mpr ⟨key, group, hgroup, hid.symm ▸ hlookup⟩

/-- The one item of a list that matters to a concatenation. -/
theorem flatMap_eq_of_unique {α β : Type*} [DecidableEq α] {l : List α} (hl : l.Nodup)
    {f : α → List β} {a : α} (h : ∀ x, x ≠ a → f x = []) :
    l.flatMap f = if a ∈ l then f a else [] := by
  induction l with
  | nil => rfl
  | cons x l ih =>
    rw [List.nodup_cons] at hl
    rw [List.flatMap_cons, ih hl.2]
    by_cases hx : x = a
    · subst hx
      rw [if_neg hl.1, if_pos (by simp), List.append_nil]
    · rw [h x hx, List.nil_append]
      simp [Ne.symm hx]

/-- A group hands out the part of a component once. -/
theorem WellFormed.filter_ordered (h : buffer.WellFormed) {key : ℕ × ℕ}
    {group : PendingMediaGroup} (hgroup : buffer.pending.lookup key = some group) {c : ℕ × ℕ}
    (hc : key.1 = c.1) :
    group.ordered.filter (·.component = c) = (group.messagesById.lookup c.2).toList := by
  have hnodup := h.parts_nodup key group hgroup
  have hperm := List.perm_insertionSort (fun e e' : ℕ × TelegramMessage => e.1 ≤ e'.1)
    group.messagesById
  have hsorted := (hperm.map Prod.fst).nodup_iff.mpr hnodup
  have hfilter : ∀ e ∈ group.messagesById.insertionSort fun e e' => e.1 ≤ e'.1,
      decide (e.2.component = c) = decide (e.1 = c.2) := by
    intro e he
    obtain ⟨hid, hkey⟩ := h.part key group e.1 e.2 hgroup
      (Dict.lookup_of_mem hnodup (hperm.mem_iff.mp he))
    obtain ⟨g, -, hg⟩ := Option.map_eq_some_iff.mp hkey
    have hsource : e.2.sourceChannelId = c.1 := (congrArg Prod.fst hg).trans hc
    rw [decide_eq_decide, Prod.ext_iff]
    simp [hid, hsource]
  rw [PendingMediaGroup.ordered, List.filter_map]
  simp only [Function.comp_def]
  rw [List.filter_congr hfilter, Dict.filter_key hsorted, Dict.lookup_perm hsorted hperm,
    List.map_map]
  exact List.map_id _

/-- What a release hands out for a component whose parts wait under one key. -/
theorem WellFormed.filter_release (h : buffer.WellFormed) {keys : List (ℕ × ℕ)}
    (hkeys : keys.Nodup) {c : ℕ × ℕ} {key : Option (ℕ × ℕ)} (hc : ∀ k ∈ key, k.1 = c.1)
    (hkey : ∀ m ∈ buffer.messages, m.component = c → m.groupKey = key) :
    (buffer.release keys).2.filter (·.component = c) =
      if ∃ k ∈ keys, key = some k then ((buffer.waiting key c.2).map (·.2)).toList else [] := by
  -- only the group under the key has parts of the component
  have hother : ∀ k, key ≠ some k →
      ((buffer.pending.lookup k).elim [] (·.ordered)).filter (·.component = c) = [] := by
    intro k hk
    cases hl : buffer.pending.lookup k with
    | none => rfl
    | some group =>
      rw [Option.elim_some, List.filter_eq_nil_iff]
      intro m hm hmc
      obtain ⟨e, he, rfl⟩ := List.mem_map.mp hm
      have hnodup := h.parts_nodup k group hl
      have hlookup := Dict.lookup_of_mem (k := e.1) (v := e.2) hnodup
        ((List.perm_insertionSort _ _).mem_iff.mp he)
      obtain ⟨hid, hmk⟩ := h.part k group e.1 e.2 hl hlookup
      have hmem := h.mem_messages.mpr ⟨k, group, hl, hid.symm ▸ hlookup⟩
      exact hk ((hkey e.2 hmem (of_decide_eq_true hmc)).symm.trans hmk)
  rw [release_released keys hkeys, List.filter_flatMap]
  cases key with
  | none =>
    rw [if_neg (by simp), List.flatMap_eq_nil_iff]
    exact fun k _ => hother k (by simp)
  | some g =>
    rw [flatMap_eq_of_unique (a := g) hkeys fun k hk => hother k (by simpa using Ne.symm hk)]
    have hiff : (∃ k ∈ keys, some g = some k) ↔ g ∈ keys := by simp
    rw [if_congr hiff rfl rfl, waiting, Option.bind_some]
    split_ifs with hg
    · cases hl : buffer.pending.lookup g with
      | none => rfl
      | some group =>
        rw [Option.elim_some, h.filter_ordered hl (hc g rfl), Option.bind_some, Option.map_map]
        exact congrArg Option.toList (Option.map_id' ..).symm
    · rfl

theorem mem_sortedKeys {entries : Dict (ℕ × ℕ) PendingMediaGroup} {key : ℕ × ℕ} :
    key ∈ sortedKeys entries ↔ key ∈ entries.keys :=
  ((List.perm_insertionSort _ _).map _).mem_iff

theorem nodup_sortedKeys {entries : Dict (ℕ × ℕ) PendingMediaGroup} (h : entries.keys.Nodup) :
    (sortedKeys entries).Nodup :=
  ((List.perm_insertionSort _ _).map _).nodup_iff.mpr h

/-- The keys of the groups that are due. -/
theorem WellFormed.mem_dueKeys (h : buffer.WellFormed) {now : ℤ} {key : ℕ × ℕ} :
    key ∈ sortedKeys (buffer.pending.filter fun e => buffer.isDue now e.2) ↔
      ∃ group, buffer.pending.lookup key = some group ∧ buffer.isDue now group = true := by
  rw [mem_sortedKeys, Dict.mem_keys]
  simp only [List.mem_filter, ← Dict.lookup_eq_some_iff_mem h.nodup]

theorem WellFormed.nodup_dueKeys (h : buffer.WellFormed) (now : ℤ) :
    (sortedKeys (buffer.pending.filter fun e => buffer.isDue now e.2)).Nodup :=
  nodup_sortedKeys (h.nodup.sublist (List.filter_sublist.map _))

/-! ## Flushing and adding -/

theorem wellFormed_flushDue (h : buffer.WellFormed) (now : ℤ) : (buffer.flushDue now).1.WellFormed :=
  wellFormed_release h _

/-- A part that is due does not wait any longer. -/
theorem WellFormed.waiting_flushDue (h : buffer.WellFormed) (now : ℤ) (key : Option (ℕ × ℕ))
    (id : ℕ) :
    (buffer.flushDue now).1.waiting key id =
      (buffer.waiting key id).filter fun w => now < w.1 := by
  cases key with
  | none => rfl
  | some k =>
    simp only [waiting, flushDue, Option.bind_some, release_pending, release_window, h.mem_dueKeys]
    cases hl : buffer.pending.lookup k with
    | none => simp
    | some group =>
      simp only [Option.some.injEq, exists_eq_left', isDue, decide_eq_true_eq, Option.bind_some]
      split_ifs with hdue
      · cases group.messagesById.lookup id with
        | none => rfl
        | some m => simp [Option.filter_some, hdue]
      · rw [Option.bind_some]
        cases group.messagesById.lookup id with
        | none => rfl
        | some m => simp [Option.filter_some, not_le.mp hdue]

/-- A flush hands out the part of a component when it is due. -/
theorem WellFormed.filter_flushDue (h : buffer.WellFormed) (now : ℤ) {c : ℕ × ℕ}
    {key : Option (ℕ × ℕ)} (hc : ∀ k ∈ key, k.1 = c.1)
    (hkey : ∀ m ∈ buffer.messages, m.component = c → m.groupKey = key) :
    (buffer.flushDue now).2.filter (·.component = c) =
      (((buffer.waiting key c.2).filter fun w => w.1 ≤ now).map (·.2)).toList := by
  rw [flushDue, h.filter_release (h.nodup_dueKeys now) hc hkey]
  cases key with
  | none => simp [waiting]
  | some k =>
    simp only [h.mem_dueKeys, waiting, Option.bind_some, Option.some.injEq, exists_eq_right']
    cases hl : buffer.pending.lookup k with
    | none => simp
    | some group =>
      simp only [Option.some.injEq, exists_eq_left', isDue, decide_eq_true_eq, Option.bind_some]
      cases group.messagesById.lookup c.2 with
      | none => simp
      | some m => split_ifs with hdue <;> simp [Option.filter_some, hdue]

/-- The last flush hands out what still waits. -/
theorem WellFormed.filter_flushAll (h : buffer.WellFormed) {c : ℕ × ℕ} {key : Option (ℕ × ℕ)}
    (hc : ∀ k ∈ key, k.1 = c.1)
    (hkey : ∀ m ∈ buffer.messages, m.component = c → m.groupKey = key) :
    buffer.flushAll.2.filter (·.component = c) =
      ((buffer.waiting key c.2).map (·.2)).toList := by
  rw [flushAll, h.filter_release (nodup_sortedKeys h.nodup) hc hkey]
  cases key with
  | none => simp [waiting]
  | some k =>
    simp only [mem_sortedKeys, waiting, Option.bind_some, Option.some.injEq, exists_eq_right']
    cases hl : buffer.pending.lookup k with
    | none => simp
    | some group =>
      rw [if_pos (Dict.mem_keys.mpr ⟨group, Dict.mem_of_lookup hl⟩)]

theorem wellFormed_hold (h : buffer.WellFormed) {key : ℕ × ℕ} {message : TelegramMessage}
    (hkey : message.groupKey = some key) (now : ℤ) : (buffer.hold key message now).WellFormed := by
  have hgroup : ∀ group, (buffer.pending.lookup key).getD { firstReceivedAt := now } = group →
      group.messagesById.keys.Nodup ∧ ∀ id m, group.messagesById.lookup id = some m →
        m.telegramMessageId = id ∧ m.groupKey = some key := by
    rintro group rfl
    cases hl : buffer.pending.lookup key with
    | none => exact ⟨List.nodup_nil, fun id m hm => by simp at hm⟩
    | some group => exact ⟨h.parts_nodup key group hl, fun id m => h.part key group id m hl⟩
  obtain ⟨hnodup, hpart⟩ := hgroup _ rfl
  refine ⟨Dict.nodup_keys_set h.nodup, fun k group hl => ?_, fun k group id m hl hm => ?_⟩
  · by_cases hk : k = key
    · rw [hk, hold, Dict.lookup_set_self] at hl
      obtain rfl := Option.some.inj hl
      exact Dict.nodup_keys_set hnodup
    · rw [hold, Dict.lookup_set_of_ne hk] at hl
      exact h.parts_nodup k group hl
  · by_cases hk : k = key
    · rw [hk, hold, Dict.lookup_set_self] at hl
      obtain rfl := Option.some.inj hl
      by_cases hid : id = message.telegramMessageId
      · rw [hid, Dict.lookup_set_self] at hm
        obtain rfl := Option.some.inj hm
        exact ⟨hid.symm, hk ▸ hkey⟩
      · rw [Dict.lookup_set_of_ne hid] at hm
        exact hk ▸ hpart id m hm
    · rw [hold, Dict.lookup_set_of_ne hk] at hl
      exact h.part k group id m hl hm

/-- The part just received waits in its group. -/
theorem waiting_hold_self (key : ℕ × ℕ) (message : TelegramMessage) (now : ℤ) :
    (buffer.hold key message now).waiting (some key) message.telegramMessageId =
      some ((buffer.deadline key).getD (now + buffer.aggregationWindow), message) := by
  rw [waiting, hold, Option.bind_some, Dict.lookup_set_self, Option.bind_some,
    Dict.lookup_set_self, Option.map_some, deadline]
  cases buffer.pending.lookup key <;> rfl

/-- The other parts wait as before. -/
theorem waiting_hold_of_ne {key k : ℕ × ℕ} {message : TelegramMessage} {id : ℕ}
    (hne : k ≠ key ∨ id ≠ message.telegramMessageId) (now : ℤ) :
    (buffer.hold key message now).waiting (some k) id = buffer.waiting (some k) id := by
  rw [waiting, waiting, hold, Option.bind_some, Option.bind_some]
  by_cases hk : k = key
  · subst hk
    have hid := hne.resolve_left (not_not.mpr rfl)
    rw [Dict.lookup_set_self, Option.bind_some, Dict.lookup_set_of_ne hid]
    cases buffer.pending.lookup k <;> rfl
  · rw [Dict.lookup_set_of_ne hk]

theorem deadline_hold (key k : ℕ × ℕ) (message : TelegramMessage) (now : ℤ) :
    (buffer.hold key message now).deadline k =
      if k = key then some ((buffer.deadline key).getD (now + buffer.aggregationWindow))
      else buffer.deadline k := by
  rw [deadline, deadline, deadline, hold]
  split_ifs with hk
  · rw [hk, Dict.lookup_set_self]
    cases buffer.pending.lookup key <;> rfl
  · rw [Dict.lookup_set_of_ne hk]

theorem WellFormed.deadline_flushDue (h : buffer.WellFormed) (now : ℤ) (key : ℕ × ℕ) :
    (buffer.flushDue now).1.deadline key = (buffer.deadline key).filter (now < ·) := by
  simp only [deadline, flushDue, release_pending, release_window, h.mem_dueKeys]
  cases hl : buffer.pending.lookup key with
  | none => simp
  | some group =>
    simp only [Option.some.injEq, exists_eq_left', isDue, decide_eq_true_eq]
    split_ifs with hdue
    · simp [Option.filter_some, hdue]
    · simp [Option.filter_some, not_le.mp hdue]

/-- A flush leaves only parts that waited before. -/
theorem WellFormed.messages_flushDue (h : buffer.WellFormed) (now : ℤ) :
    (buffer.flushDue now).1.messages ⊆ buffer.messages := by
  intro m hm
  obtain ⟨due, hdue⟩ := (wellFormed_flushDue h now).mem_messages_iff.mp hm
  rw [h.waiting_flushDue, Option.filter_eq_some_iff] at hdue
  exact h.mem_messages_iff.mpr ⟨due, hdue.1⟩

theorem WellFormed.messages_hold (h : buffer.WellFormed) {key : ℕ × ℕ} {message : TelegramMessage}
    (hkey : message.groupKey = some key) {now : ℤ} {m : TelegramMessage}
    (hm : m ∈ (buffer.hold key message now).messages) : m = message ∨ m ∈ buffer.messages := by
  have hwf := wellFormed_hold h hkey now
  obtain ⟨due, hdue⟩ := hwf.mem_messages_iff.mp hm
  cases hk : m.groupKey with
  | none => simp [hk, waiting] at hdue
  | some k =>
    rw [hk] at hdue
    by_cases hsame : k = key ∧ m.telegramMessageId = message.telegramMessageId
    · rw [hsame.1, hsame.2, waiting_hold_self] at hdue
      exact .inl (congrArg Prod.snd (Option.some.inj hdue)).symm
    · rw [waiting_hold_of_ne (not_and_or.mp hsame)] at hdue
      exact .inr (h.mem_messages_iff.mpr ⟨due, hk ▸ hdue⟩)

/-- The part just received waits, and of the other components what waited. -/
theorem WellFormed.exists_messages_hold (h : buffer.WellFormed) {key : ℕ × ℕ}
    {message : TelegramMessage} (hkey : message.groupKey = some key) (now : ℤ)
    {m : TelegramMessage} (hm : m = message ∨ m ∈ buffer.messages) :
    ∃ m' ∈ (buffer.hold key message now).messages, m'.component = m.component := by
  have hwf := wellFormed_hold h hkey now
  have hself : message ∈ (buffer.hold key message now).messages :=
    hwf.mem_messages_iff.mpr ⟨_, by rw [hkey, waiting_hold_self]⟩
  rcases hm with rfl | hm
  · exact ⟨m, hself, rfl⟩
  obtain ⟨due, hdue⟩ := h.mem_messages_iff.mp hm
  cases hk : m.groupKey with
  | none => simp [hk, waiting] at hdue
  | some k =>
    by_cases hsame : k = key ∧ m.telegramMessageId = message.telegramMessageId
    · obtain ⟨g, -, hg⟩ := Option.map_eq_some_iff.mp hkey
      obtain ⟨g', -, hg'⟩ := Option.map_eq_some_iff.mp hk
      have hsource : message.sourceChannelId = m.sourceChannelId :=
        congrArg Prod.fst (hg.trans (hsame.1.symm.trans hg'.symm))
      exact ⟨message, hself, Prod.ext hsource hsame.2.symm⟩
    · refine ⟨m, hwf.mem_messages_iff.mpr ⟨due, ?_⟩, rfl⟩
      rw [hk, waiting_hold_of_ne (not_and_or.mp hsame), ← hk, hdue]

theorem add_regular {message : TelegramMessage} (h : message.groupKey = none) (now : ℤ) :
    buffer.add message now = ((buffer.flushDue now).1, (buffer.flushDue now).2 ++ [message]) := by
  rw [add, Option.map_eq_none_iff.mp h]

theorem add_grouped {message : TelegramMessage} {key : ℕ × ℕ} (h : message.groupKey = some key)
    (now : ℤ) :
    buffer.add message now = ((buffer.flushDue now).1.hold key message now,
      (buffer.flushDue now).2) := by
  obtain ⟨grouped, hgrouped, rfl⟩ := Option.map_eq_some_iff.mp h
  rw [add, hgrouped]

end MediaGroupAggregationBuffer

end TgCurator
