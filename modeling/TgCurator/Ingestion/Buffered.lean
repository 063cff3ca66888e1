import TgCurator.Ingestion.Buffer
import TgCurator.Messages.Convergence

/-!
# Buffered against direct ingestion

The store after updates that went through the media group buffer, next to the store after
the same updates upserted one at a time.

The buffer keeps the last part that arrived, the store the newest. The updates that reach
the store are those no other update of the component follows before the group is due
(`survivors`); `filter_run` proves this of the buffer by induction on its calls, for the
part that waits and the updates to come. So both ways store the same rows exactly when,
for every component, the newest update and the newest survivor are the same
(`buffered_eq_direct_iff`), which fails when a late duplicate replaces a newer edit that
waits (`buffered_ne_direct`).
-/

namespace TgCurator

/-! ## Calls -/

/-- A call of the buffer. -/
inductive BufferCall
  | add (message : TelegramMessage) (now : ℤ)
  | flushDue (now : ℤ)

namespace BufferCall

/-- When it is made. -/
def now : BufferCall → ℤ
  | add _ now => now
  | flushDue now => now

/-- The update it brings. -/
def message : BufferCall → Option TelegramMessage
  | add message _ => some message
  | flushDue _ => none

end BufferCall

/-- The updates in arrival order. -/
def updates (calls : List BufferCall) : List TelegramMessage :=
  calls.filterMap (·.message)

namespace MediaGroupAggregationBuffer

/-- One call. -/
def call (buffer : MediaGroupAggregationBuffer) :
    BufferCall → MediaGroupAggregationBuffer × List TelegramMessage
  | .add message now => buffer.add message now
  | .flushDue now => buffer.flushDue now

/-- What each call hands out, and last the final flush. -/
def run (buffer : MediaGroupAggregationBuffer) : List BufferCall → List (List TelegramMessage)
  | [] => [buffer.flushAll.2]
  | c :: calls => (buffer.call c).2 :: (buffer.call c).1.run calls

end MediaGroupAggregationBuffer

/-! ## Updates that are not replaced -/

/-- Whether another update of a component comes before `due`. -/
def replacedBefore (component : ℕ × ℕ) (due : ℤ) : List BufferCall → Bool
  | [] => false
  | c :: calls =>
    if due ≤ c.now then false
    else c.message.any (·.component = component) || replacedBefore component due calls

/-- The updates no other update of the component follows before its group is due. A group
is due when the window has passed since the first update after it was last released. -/
def survivors (window : ℤ) (deadline : ℕ × ℕ → Option ℤ) : List BufferCall → List TelegramMessage
  | [] => []
  | .flushDue now :: calls => survivors window (fun key => (deadline key).filter (now < ·)) calls
  | .add message now :: calls =>
    match message.groupKey with
    | none => message :: survivors window (fun key => (deadline key).filter (now < ·)) calls
    | some key =>
      let due := ((deadline key).filter (now < ·)).getD (now + window)
      let rest := survivors window
        (Function.update (fun key => (deadline key).filter (now < ·)) key (some due)) calls
      if replacedBefore message.component due calls then rest else message :: rest

/-! ## What the buffer hands out -/

section Run

open MediaGroupAggregationBuffer

variable {buffer : MediaGroupAggregationBuffer} {c : ℕ × ℕ} {key : Option (ℕ × ℕ)}

/-- The part that waits, unless it is replaced before it is due. -/
def kept (c : ℕ × ℕ) (calls : List BufferCall) (w : Option (ℤ × TelegramMessage)) :
    List TelegramMessage :=
  ((w.filter fun w => !replacedBefore c w.1 calls).map (·.2)).toList

theorem kept_nil (w : Option (ℤ × TelegramMessage)) : kept c [] w = (w.map (·.2)).toList := by
  cases w <;> rfl

theorem kept_none (calls : List BufferCall) : kept c calls none = [] :=
  rfl

theorem kept_some (calls : List BufferCall) (due : ℤ) (m : TelegramMessage) :
    kept c calls (some (due, m)) = if replacedBefore c due calls then [] else [m] := by
  cases h : replacedBefore c due calls <;> simp [kept, Option.filter_some, h]

/-- At a flush the part is handed out, or waits on. -/
theorem kept_flushDue (now : ℤ) (calls : List BufferCall) (w : Option (ℤ × TelegramMessage)) :
    kept c (.flushDue now :: calls) w = ((w.filter fun w => w.1 ≤ now).map (·.2)).toList ++
      kept c calls (w.filter fun w => now < w.1) := by
  cases w with
  | none => rfl
  | some w =>
    by_cases hw : w.1 ≤ now
    · simp [kept, replacedBefore, Option.filter_some, hw, BufferCall.now]
    · simp [kept, replacedBefore, Option.filter_some, hw, not_le.mp hw, BufferCall.now,
        BufferCall.message]

/-- At an update the part is handed out, or it is replaced, or it waits on. -/
theorem kept_add (message : TelegramMessage) (now : ℤ) (calls : List BufferCall)
    (w : Option (ℤ × TelegramMessage)) :
    kept c (.add message now :: calls) w = ((w.filter fun w => w.1 ≤ now).map (·.2)).toList ++
      if message.component = c then [] else kept c calls (w.filter fun w => now < w.1) := by
  cases w with
  | none => simp [kept]
  | some w =>
    by_cases hw : w.1 ≤ now
    · simp [kept, replacedBefore, Option.filter_some, hw, BufferCall.now]
    · by_cases hc : message.component = c <;>
        simp [kept, replacedBefore, Option.filter_some, hw, not_le.mp hw, BufferCall.now,
          BufferCall.message, hc]

theorem window_flushDue (buffer : MediaGroupAggregationBuffer) (now : ℤ) :
    (buffer.flushDue now).1.aggregationWindow = buffer.aggregationWindow :=
  release_window _ _

theorem MediaGroupAggregationBuffer.WellFormed.deadlines_flushDue (h : buffer.WellFormed)
    (now : ℤ) : (buffer.flushDue now).1.deadline =
      fun key => (buffer.deadline key).filter (now < ·) :=
  funext (h.deadline_flushDue now)

/-- The versions of a component the buffer hands out: the one that waits, unless it is
replaced, and the surviving updates. -/
def HandsOut (c : ℕ × ℕ) (key : Option (ℕ × ℕ)) (buffer : MediaGroupAggregationBuffer)
    (calls : List BufferCall) : Prop :=
  (buffer.run calls).flatten.filter (·.component = c) =
    kept c calls (buffer.waiting key c.2) ++
      (survivors buffer.aggregationWindow buffer.deadline calls).filter (·.component = c)

section HandsOut

variable {calls : List BufferCall} {message : TelegramMessage} {now : ℤ} {k : ℕ × ℕ}

theorem handsOut_flushDue (h : buffer.WellFormed) (hc : ∀ k ∈ key, k.1 = c.1)
    (hkey : ∀ m ∈ buffer.messages, m.component = c → m.groupKey = key)
    (hrest : HandsOut c key (buffer.flushDue now).1 calls) :
    HandsOut c key buffer (.flushDue now :: calls) := by
  rw [HandsOut, run, List.flatten_cons, List.filter_append, MediaGroupAggregationBuffer.call,
    h.filter_flushDue now hc hkey, hrest, h.waiting_flushDue, window_flushDue,
    h.deadlines_flushDue, kept_flushDue, List.append_assoc, survivors]

/-- A regular message is handed out at once. -/
theorem handsOut_regular (h : buffer.WellFormed) (hc : ∀ k ∈ key, k.1 = c.1)
    (hkey : ∀ m ∈ buffer.messages, m.component = c → m.groupKey = key)
    (hown : message.component = c → message.groupKey = key) (hgroup : message.groupKey = none)
    (hrest : HandsOut c key (buffer.flushDue now).1 calls) :
    HandsOut c key buffer (.add message now :: calls) := by
  rw [HandsOut, run, List.flatten_cons, List.filter_append, MediaGroupAggregationBuffer.call,
    kept_add, add_regular hgroup]
  dsimp only
  rw [List.filter_append, h.filter_flushDue now hc hkey, hrest, h.waiting_flushDue,
    window_flushDue, h.deadlines_flushDue, survivors, hgroup]
  by_cases hmc : message.component = c
  · obtain rfl : key = none := (hown hmc).symm.trans hgroup
    simp [waiting, hmc, kept_none]
  · simp [hmc]

/-- What waits of another component after a part was added. -/
theorem waiting_hold_of_component (h : buffer.WellFormed) (hc : ∀ k ∈ key, k.1 = c.1)
    (hgroup : message.groupKey = some k) (hmc : message.component ≠ c) (now : ℤ) :
    ((buffer.flushDue now).1.hold k message now).waiting key c.2 =
      (buffer.waiting key c.2).filter fun w => now < w.1 := by
  rw [← h.waiting_flushDue]
  cases key with
  | none => rfl
  | some k' =>
    refine waiting_hold_of_ne (not_and_or.mp fun hsame => hmc ?_) now
    obtain ⟨g, -, hg⟩ := Option.map_eq_some_iff.mp hgroup
    exact Prod.ext ((congrArg Prod.fst hg).trans (hsame.1 ▸ hc k' rfl)) hsame.2.symm

/-- A part waits for its group. -/
theorem handsOut_grouped (h : buffer.WellFormed) (hc : ∀ k ∈ key, k.1 = c.1)
    (hkey : ∀ m ∈ buffer.messages, m.component = c → m.groupKey = key)
    (hown : message.component = c → message.groupKey = key) (hgroup : message.groupKey = some k)
    (hrest : HandsOut c key ((buffer.flushDue now).1.hold k message now) calls) :
    HandsOut c key buffer (.add message now :: calls) := by
  have hdeadline : ((buffer.flushDue now).1.hold k message now).deadline =
      Function.update (fun key => (buffer.deadline key).filter (now < ·)) k
        (some (((buffer.deadline k).filter (now < ·)).getD
          (now + buffer.aggregationWindow))) := by
    funext k'
    rw [deadline_hold, window_flushDue, h.deadlines_flushDue, Function.update_apply]
  have hwindow : ((buffer.flushDue now).1.hold k message now).aggregationWindow =
      buffer.aggregationWindow := window_flushDue buffer now
  rw [HandsOut, run, List.flatten_cons, List.filter_append, MediaGroupAggregationBuffer.call,
    kept_add, add_grouped hgroup]
  dsimp only
  rw [h.filter_flushDue now hc hkey, hrest, hwindow, hdeadline, survivors, hgroup]
  by_cases hmc : message.component = c
  · -- the update replaces the part that waits, unless that was just handed out
    subst hmc
    obtain rfl : key = some k := (hown rfl).symm.trans hgroup
    rw [waiting_hold_self, h.deadlines_flushDue, window_flushDue, kept_some, if_pos rfl,
      List.append_nil]
    dsimp only
    split_ifs with hreplaced
    · rfl
    · simp
  · rw [waiting_hold_of_component h hc hgroup hmc, if_neg hmc, List.append_assoc]
    dsimp only
    split_ifs with hreplaced
    · rfl
    · rw [List.filter_cons_of_neg (by simpa using hmc)]

end HandsOut

/-- What a run of the buffer hands out of a component. -/
theorem filter_run (calls : List BufferCall) (hc : ∀ k ∈ key, k.1 = c.1) :
    ∀ buffer : MediaGroupAggregationBuffer, buffer.WellFormed →
      (∀ m ∈ buffer.messages, m.component = c → m.groupKey = key) →
      (∀ m ∈ updates calls, m.component = c → m.groupKey = key) → HandsOut c key buffer calls := by
  induction calls with
  | nil =>
    intro buffer h hkey _
    simp [HandsOut, run, survivors, kept_nil, h.filter_flushAll hc hkey]
  | cons call calls ih =>
    intro buffer h hkey hupdates
    have hleft : ∀ now, ∀ m ∈ (buffer.flushDue now).1.messages, m.component = c →
        m.groupKey = key := fun now m hm => hkey m (h.messages_flushDue now hm)
    have hrest : ∀ m ∈ updates calls, m.component = c → m.groupKey = key := by
      intro m hm
      refine hupdates m ?_
      rw [updates, List.mem_filterMap] at hm ⊢
      obtain ⟨a, ha, hm⟩ := hm
      exact ⟨a, List.mem_cons_of_mem _ ha, hm⟩
    cases call with
    | flushDue now =>
      exact handsOut_flushDue h hc hkey (ih _ (wellFormed_flushDue h now) (hleft now) hrest)
    | add message now =>
      have hown : message.component = c → message.groupKey = key :=
        hupdates message (by simp [updates, BufferCall.message])
      cases hgroup : message.groupKey with
      | none =>
        exact handsOut_regular h hc hkey hown hgroup
          (ih _ (wellFormed_flushDue h now) (hleft now) hrest)
      | some k =>
        refine handsOut_grouped h hc hkey hown hgroup
          (ih _ (wellFormed_hold (wellFormed_flushDue h now) hgroup now) ?_ hrest)
        intro m hm hmc
        rcases (wellFormed_flushDue h now).messages_hold hgroup hm with rfl | hm
        · exact hown hmc
        · exact hleft now m hm hmc

/-- A component keeps its group, here for the parts that wait and the updates to come. -/
def KeepsGroup (messages : List TelegramMessage) : Prop :=
  ∀ v ∈ messages, ∀ w ∈ messages, v.component = w.component → v.groupKey = w.groupKey

theorem KeepsGroup.mono {l l' : List TelegramMessage} (h : KeepsGroup l) (hsub : l' ⊆ l) :
    KeepsGroup l' :=
  fun v hv w hw => h v (hsub hv) w (hsub hw)

theorem KeepsGroup.exists_key {l : List TelegramMessage} (h : KeepsGroup l) (c : ℕ × ℕ) :
    ∃ key : Option (ℕ × ℕ), (∀ k ∈ key, k.1 = c.1) ∧
      ∀ m ∈ l, m.component = c → m.groupKey = key := by
  by_cases hex : ∃ m ∈ l, m.component = c
  · obtain ⟨m, hm, rfl⟩ := hex
    refine ⟨m.groupKey, fun k hk => ?_, fun w hw hc => h w hw m hm hc⟩
    obtain ⟨g, -, rfl⟩ := Option.map_eq_some_iff.mp hk
    rfl
  · exact ⟨none, by simp, fun m hm hmc => absurd ⟨m, hm, hmc⟩ hex⟩

theorem Consistent.keepsGroup {l : List TelegramMessage} (h : Consistent l) : KeepsGroup l := by
  intro v hv w hw hc
  rw [TelegramMessage.groupKey, TelegramMessage.groupKey, h.grouped v hv w hw hc]
  exact congrArg (fun source => w.telegramGroupedId.map fun g => (source, g))
    (congrArg Prod.fst hc)

theorem wellFormed_call (h : buffer.WellFormed) (call : BufferCall) :
    (buffer.call call).1.WellFormed := by
  cases call with
  | flushDue now => exact wellFormed_flushDue h now
  | add message now =>
    rw [MediaGroupAggregationBuffer.call]
    cases hgroup : message.groupKey with
    | none =>
      rw [add_regular hgroup]
      exact wellFormed_flushDue h now
    | some k =>
      rw [add_grouped hgroup]
      exact wellFormed_hold (wellFormed_flushDue h now) hgroup now

/-- A call keeps parts waiting that waited, and the one it brings. -/
theorem messages_call (h : buffer.WellFormed) {call : BufferCall} {m : TelegramMessage}
    (hm : m ∈ (buffer.call call).1.messages) : m ∈ buffer.messages ∨ call.message = some m := by
  cases call with
  | flushDue now => exact .inl (h.messages_flushDue now hm)
  | add message now =>
    rw [MediaGroupAggregationBuffer.call] at hm
    cases hgroup : message.groupKey with
    | none =>
      rw [add_regular hgroup] at hm
      exact .inl (h.messages_flushDue now hm)
    | some k =>
      rw [add_grouped hgroup] at hm
      rcases (wellFormed_flushDue h now).messages_hold hgroup hm with rfl | hm
      · exact .inr rfl
      · exact .inl (h.messages_flushDue now hm)

theorem nodup_of_filter {l : List TelegramMessage}
    (h : ∀ c, (l.filter (·.component = c)).length ≤ 1) : (l.map (·.component)).Nodup := by
  rw [List.nodup_iff_count_le_one]
  intro c
  rw [List.count, List.countP_map, List.countP_eq_length_filter]
  refine le_of_eq_of_le (congrArg List.length (List.filter_congr fun m _ => ?_)) (h c)
  by_cases hc : m.component = c <;> simp [hc]

/-- A call hands out no component twice. -/
theorem nodup_call (h : buffer.WellFormed) {call : BufferCall}
    (hkeeps : KeepsGroup (buffer.messages ++ call.message.toList)) :
    ((buffer.call call).2.map (·.component)).Nodup := by
  refine nodup_of_filter fun c => ?_
  obtain ⟨key, hc, hkey⟩ := hkeeps.exists_key c
  have hheld : ∀ m ∈ buffer.messages, m.component = c → m.groupKey = key :=
    fun m hm => hkey m (List.mem_append_left _ hm)
  have hone : ∀ now, ((buffer.flushDue now).2.filter (·.component = c)).length ≤ 1 := by
    intro now
    rw [h.filter_flushDue now hc hheld, Option.length_toList]
    split_ifs <;> omega
  cases call with
  | flushDue now => exact hone now
  | add message now =>
    rw [MediaGroupAggregationBuffer.call]
    cases hgroup : message.groupKey with
    | some k =>
      rw [add_grouped hgroup]
      exact hone now
    | none =>
      rw [add_regular hgroup, List.filter_append, List.length_append]
      by_cases hmc : message.component = c
      · -- no part of a regular component waits
        obtain rfl : key = none := by
          rw [← hkey message (by simp [BufferCall.message]) hmc, hgroup]
        simp [h.filter_flushDue now hc hheld, waiting, hmc]
      · rw [List.filter_cons_of_neg (by simpa using hmc)]
        exact hone now

theorem nodup_run (calls : List BufferCall) : ∀ buffer : MediaGroupAggregationBuffer,
    buffer.WellFormed → KeepsGroup (buffer.messages ++ updates calls) →
      ∀ batch ∈ buffer.run calls, (batch.map (·.component)).Nodup := by
  induction calls with
  | nil =>
    intro buffer h hkeeps batch hbatch
    obtain rfl := List.mem_singleton.mp hbatch
    refine nodup_of_filter fun c => ?_
    obtain ⟨key, hc, hkey⟩ := hkeeps.exists_key c
    rw [h.filter_flushAll hc fun m hm => hkey m (List.mem_append_left _ hm), Option.length_toList]
    split_ifs <;> omega
  | cons call calls ih =>
    intro buffer h hkeeps batch hbatch
    have hupdates : updates (call :: calls) = call.message.toList ++ updates calls := by
      cases call <;> rfl
    rw [hupdates, ← List.append_assoc] at hkeeps
    rcases List.mem_cons.mp hbatch with rfl | hbatch
    · exact nodup_call h (hkeeps.mono (List.subset_append_left _ _))
    · refine ih _ (wellFormed_call h call) (hkeeps.mono ?_) batch hbatch
      intro m hm
      rcases List.mem_append.mp hm with hm | hm
      · rcases messages_call h hm with hm | hm
        · exact List.mem_append_left _ (List.mem_append_left _ hm)
        · exact List.mem_append_left _ (List.mem_append_right _ (by simp [hm]))
      · exact List.mem_append_right _ hm

end Run

/-! ## The two stores -/

section Stores

variable (sha256 : String → String) (window : ℤ) (hwindow : 0 < window)

/-- The store after updates that went through a new buffer. -/
def bufferedStore (calls : List BufferCall) : Store × Except PyError Unit :=
  Store.ingestAll sha256 {} (MediaGroupAggregationBuffer.run ⟨window, hwindow, []⟩ calls)

/-- The store after the updates one at a time. -/
def directStore (calls : List BufferCall) : Store × Except PyError Unit :=
  Store.ingestAll sha256 {} ((updates calls).map fun message => [message])

theorem wellFormed_nil : MediaGroupAggregationBuffer.WellFormed ⟨window, hwindow, []⟩ where
  nodup := List.nodup_nil
  parts_nodup := fun key group h => by simp at h
  part := fun key group id message h => by simp at h

/-- A new buffer hands out the versions of a component that survive. -/
theorem filter_run_nil {calls : List BufferCall} (hcons : Consistent (updates calls))
    (c : ℕ × ℕ) :
    (MediaGroupAggregationBuffer.run ⟨window, hwindow, []⟩ calls).flatten.filter
        (·.component = c) =
      (survivors window (fun _ => none) calls).filter (·.component = c) := by
  obtain ⟨key, hc, hkey⟩ := hcons.keepsGroup.exists_key c
  rw [filter_run calls hc _ (wellFormed_nil window hwindow)
    (fun m hm => by simp [MediaGroupAggregationBuffer.messages] at hm) hkey]
  have hwaiting : MediaGroupAggregationBuffer.waiting ⟨window, hwindow, []⟩ key c.2 = none := by
    cases key <;> rfl
  rw [hwaiting]
  rfl

theorem survivors_subset (calls : List BufferCall) : ∀ deadline : ℕ × ℕ → Option ℤ,
    survivors window deadline calls ⊆ updates calls := by
  induction calls with
  | nil => exact fun _ => List.Subset.refl _
  | cons call calls ih =>
    intro deadline
    cases call with
    | flushDue now => exact ih _
    | add message now =>
      have hupdates : updates (.add message now :: calls) = message :: updates calls := rfl
      rw [survivors, hupdates]
      cases message.groupKey with
      | none => exact List.cons_subset_cons _ (ih _)
      | some key =>
        dsimp only
        split_ifs
        · exact List.subset_cons_of_subset _ (ih _)
        · exact List.cons_subset_cons _ (ih _)

/-- Buffered and direct ingestion succeed, and store the same rows exactly when no update
that is the newest of its component is lost to an older one: for every component, the
newest of its updates is the newest of its survivors. -/
theorem buffered_eq_direct_iff {calls : List BufferCall} (hcons : Consistent (updates calls)) :
    ∃ s s', bufferedStore sha256 window hwindow calls = (s, .ok ()) ∧
      directStore sha256 calls = (s', .ok ()) ∧
      (s.SameRows s' ↔ ∀ c, currentVersion (survivors window (fun _ => none) calls) c =
        currentVersion (updates calls) c) := by
  have hrun := filter_run_nil window hwindow hcons
  have hsub : (MediaGroupAggregationBuffer.run ⟨window, hwindow, []⟩ calls).flatten ⊆
      updates calls := by
    intro m hm
    have hmem : m ∈ (MediaGroupAggregationBuffer.run ⟨window, hwindow, []⟩ calls).flatten.filter
        (·.component = m.component) := List.mem_filter.mpr ⟨hm, decide_eq_true rfl⟩
    rw [hrun] at hmem
    exact survivors_subset window calls _ (List.mem_filter.mp hmem).1
  have hdirect : ((updates calls).map fun message => [message]).flatten = updates calls := by
    rw [← List.flatMap_def, List.flatMap_singleton']
  have hone : ∀ batch ∈ (updates calls).map fun message => [message],
      (batch.map (·.component)).Nodup := by
    intro batch hbatch
    obtain ⟨m, -, rfl⟩ := List.mem_map.mp hbatch
    exact List.nodup_singleton _
  have hempty : Store.Represents sha256 {} [] := Store.represents_nil
  obtain ⟨s, hs, hrep⟩ := hempty.ingestAll
    (nodup_run calls _ (wellFormed_nil window hwindow) hcons.keepsGroup) (hcons.mono hsub)
  obtain ⟨s', hs', hrep'⟩ := hempty.ingestAll hone (by rw [hdirect]; exact hcons)
  refine ⟨s, s', hs, hs', ?_⟩
  rw [List.nil_append] at hrep hrep'
  rw [hdirect] at hrep'
  have hcurrent : ∀ c, currentVersion (MediaGroupAggregationBuffer.run ⟨window, hwindow, []⟩
      calls).flatten c = currentVersion (survivors window (fun _ => none) calls) c := fun c => by
    rw [currentVersion, hrun, currentVersion]
  rw [hrep.sameRows_iff hrep' (hcons.mono (List.append_subset.mpr ⟨hsub, List.Subset.refl _⟩))]
  exact forall_congr' fun c => by rw [hcurrent, eq_comm]

end Stores

/-- An album of two parts, the first of them edited after the group was released. -/
theorem buffered_eq_direct_album :
    let first := textMessage 1 10 (some 7) none "a"
    let second := textMessage 1 11 (some 7) none "b"
    let edited := textMessage 1 10 (some 7) (some 5) "c"
    let calls := [BufferCall.add first 0, .add second 1, .flushDue 3, .add edited 5]
    Consistent (updates calls) ∧ ∃ s s', bufferedStore id 3 (by decide) calls = (s, .ok ()) ∧
      directStore id calls = (s', .ok ()) ∧ s.SameRows s' := by
  intro first second edited calls
  have hcons : Consistent (updates calls) := by
    refine ⟨?_, ?_, ?_⟩ <;>
      simp [calls, updates, BufferCall.message, first, second, edited, textMessage]
  obtain ⟨s, s', hs, hs', hiff⟩ := buffered_eq_direct_iff id 3 (by decide) hcons
  have hsurvive : survivors 3 (fun _ => none) calls = updates calls := rfl
  exact ⟨hcons, s, s', hs, hs', hiff.mpr fun c => by rw [hsurvive]⟩

theorem not_sameRows_of_text {s s' : Store} {c : ℕ × ℕ} {text text' : Option (Option String)}
    (h : (s.parts.lookup c).map (·.part.originalText) = text)
    (h' : (s'.parts.lookup c).map (·.part.originalText) = text') (hne : text ≠ text') :
    ¬s.SameRows s' := by
  intro hsame
  have hparts := congrArg (Option.map (·.originalText)) (hsame.part_eq c)
  rw [Option.map_map, Option.map_map] at hparts
  exact hne (h.symm.trans (hparts.symm.trans h'))

/-- An edited part of an album, and a late delivery of the part as it was before. -/
def lateDuplicate : List BufferCall :=
  [.add (textMessage 1 10 (some 7) (some 2) "new") 0, .add (textMessage 1 10 (some 7) none "old") 1]

/-- A late duplicate replaces a newer edit that waits: the edit is lost. -/
theorem buffered_ne_direct :
    Consistent (updates lateDuplicate) ∧ ∃ s s',
      bufferedStore id 3 (by decide) lateDuplicate = (s, .ok ()) ∧
      directStore id lateDuplicate = (s', .ok ()) ∧ ¬s.SameRows s' ∧
      (s.parts.lookup (1, 10)).map (·.part.originalText) = some (some "old") ∧
      (s'.parts.lookup (1, 10)).map (·.part.originalText) = some (some "new") := by
  have hcons : Consistent (updates lateDuplicate) := by
    refine ⟨?_, ?_, ?_⟩ <;> simp [lateDuplicate, updates, BufferCall.message, textMessage]
  have hbuffered : (bufferedStore id 3 (by decide) lateDuplicate).2 = .ok () := by rfl
  have hdirect : (directStore id lateDuplicate).2 = .ok () := by rfl
  have hold : ((bufferedStore id 3 (by decide) lateDuplicate).1.parts.lookup (1, 10)).map
      (·.part.originalText) = some (some "old") := by rfl
  have hnew : ((directStore id lateDuplicate).1.parts.lookup (1, 10)).map
      (·.part.originalText) = some (some "new") := by rfl
  exact ⟨hcons, _, _, Prod.ext rfl hbuffered, Prod.ext rfl hdirect,
    not_sameRows_of_text hold hnew (by decide), hold, hnew⟩

end TgCurator
