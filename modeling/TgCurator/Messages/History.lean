import TgCurator.Messages.Telegram

/-!
# Windows of a channel's history

What `fetch_history` promises its callers: the messages of a window of ids, above an
exclusive lower and up to an inclusive upper end, in any version. A batch that is fetched
and normalised upserts each of its components (`exists_normalized`).
-/

namespace TgCurator

/-- `fetch_history` returns exactly the messages of the window. -/
def isWindow (history : List TelegramMessage) (sourceChannelId fromExclusive upper : ℕ)
    (messages : List TelegramMessage) : Bool :=
  messages.all (fun m => history.any (·.component = m.component) &&
      (m.sourceChannelId = sourceChannelId && fromExclusive < m.telegramMessageId &&
        m.telegramMessageId ≤ upper)) &&
    history.all fun m => (m.sourceChannelId = sourceChannelId &&
      fromExclusive < m.telegramMessageId && m.telegramMessageId ≤ upper) →
        messages.any (·.component = m.component)

section

variable {history messages : List TelegramMessage} {sourceChannelId fromExclusive upper : ℕ}

/-- Every message of the window is returned. -/
theorem exists_mem_of_isWindow
    (h : isWindow history sourceChannelId fromExclusive upper messages = true)
    {m : TelegramMessage} (hm : m ∈ history) (hsource : m.sourceChannelId = sourceChannelId)
    (hlow : fromExclusive < m.telegramMessageId) (hup : m.telegramMessageId ≤ upper) :
    ∃ m' ∈ messages, m'.component = m.component := by
  simp only [isWindow, Bool.and_eq_true, List.all_eq_true, decide_eq_true_eq,
    List.any_eq_true] at h
  exact h.2 m hm ⟨⟨hsource, hlow⟩, hup⟩

/-- Only messages of the window are returned. -/
theorem mem_window_of_isWindow
    (h : isWindow history sourceChannelId fromExclusive upper messages = true)
    {m : TelegramMessage} (hm : m ∈ messages) :
    (∃ m' ∈ history, m'.component = m.component) ∧ m.sourceChannelId = sourceChannelId ∧
      fromExclusive < m.telegramMessageId ∧ m.telegramMessageId ≤ upper := by
  simp only [isWindow, Bool.and_eq_true, List.all_eq_true, decide_eq_true_eq,
    List.any_eq_true] at h
  obtain ⟨hknown, ⟨hsource, hlow⟩, hup⟩ := h.1 m hm
  exact ⟨hknown, hsource, hlow, hup⟩

end

/-- What a batch normalises to upserts its components. -/
theorem exists_normalized {batch : List TelegramMessage} {ns : List NormalizedTelegramMessage}
    (h : normalizeTelegramMessages batch = .ok ns) {m : TelegramMessage} (hm : m ∈ batch) :
    ∃ n ∈ ns, n.sourceChannelId = m.component.1 ∧ m.component.2 ∈ n.telegramMessageIds := by
  obtain ⟨-, -, hcover⟩ := normalizeTelegramMessages_eq_ok h
  obtain ⟨n, hn, group, hmade, hmg⟩ := hcover m hm
  refine ⟨n, hn, (hmade.source m hmg).symm, ?_⟩
  obtain ⟨first, rest, -, hlogical⟩ := normalizeParts_eq_ok hmade.normalized
  have hids : n.telegramMessageIds = n.parts.map (·.telegramMessageId) := by
    rw [hlogical]
    rfl
  rw [hids, List.mem_map]
  exact ⟨m.asPart, hmade.parts_perm.mem_iff.mpr (List.mem_map_of_mem hmg), rfl⟩

end TgCurator
