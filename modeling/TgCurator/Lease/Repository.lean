import TgCurator.Dict
import TgCurator.Lease.Item
import TgCurator.Runs

/-!
# Repositories of leased rows

A table whose rows carry the columns of a lease: whether a row is active, whether it runs,
its token, its attempts and their bound. A transaction can make rows, change active ones
but for the lease, or step them (`Touch`), and a repository is a set of calls that do this
to its table, draw fresh tokens for what they grant, and do nothing when they present a
token that is not the current one.

In every run of its calls each row is where its events lead (`Inv.doneOnce`), a row that is
not active never changes (`run_inactive`), and a token that was granted and lost is never
current again (`run_lost`). `Inv.exclusive` puts these together.
-/

universe v w

namespace Lease

/-! ## Rows that carry a lease -/

section

variable {R : Type w}

/-- The columns of a lease. -/
structure Columns (R : Type w) where
  active : R → Bool
  running : R → Bool
  token : R → Option ℕ
  attempts : R → ℕ
  maxAttempts : R → ℕ
  active_of_running : ∀ r, running r = true → active r = true

namespace Columns

/-- The item of a row. -/
def item (c : Columns R) (r : R) : Item ℕ where
  phase := .ofRow (c.active r) (c.token r)
  attempts := c.attempts r
  maxAttempts := c.maxAttempts r

/-- A row that has no attempts behind it. -/
structure Unused (c : Columns R) (r : R) : Prop where
  token : c.token r = none
  running : c.running r = false
  attempts : c.attempts r = 0

/-- What a transaction can do to one row. -/
inductive Touch (c : Columns R) : Option R → Option (Event ℕ) → Option R → Prop
  | kept (o : Option R) : Touch c o none o
  | made {r : R} (hactive : c.active r) (hunused : c.Unused r) : Touch c none none (some r)
  | changed {r r' : R} (hactive : c.active r) (hitem : c.item r' = c.item r)
    (hrunning : (c.token r').isSome = c.running r') : Touch c (some r) none (some r')
  | stepped {r r' : R} {e : Option (Event ℕ)} (hactive : c.active r)
    (hstep : Step (c.item r) e (c.item r')) (hrunning : (c.token r').isSome = c.running r') :
    Touch c (some r) e (some r')

variable {c : Columns R} {o o' : Option R} {r r' : R} {e : Option (Event ℕ)}

theorem history_of_unused (h : c.Unused r) : History [] (c.item r) := by
  have hitem : c.item r = ⟨if c.active r then .waiting else .ended, 0, c.maxAttempts r⟩ := by
    rw [item, h.token, h.attempts]
    cases c.active r <;> rfl
  rw [hitem]
  split_ifs
  · exact .made _
  · exact .step (.made _) (.stopped (by simp))

theorem item_token (hactive : c.active r) {k : ℕ} :
    (c.item r).phase = .held k ↔ c.token r = some k := by
  rw [item, hactive]
  cases c.token r <;> simp [Phase.ofRow]

theorem Touch.move (h : c.Touch o e o') : Move (o.map c.item) e (o'.map c.item) := by
  cases h with
  | kept => exact .kept _
  | @made r hactive hunused =>
    have hitem : c.item r = ⟨.waiting, 0, c.maxAttempts r⟩ := by
      rw [item, hactive, hunused.token, hunused.attempts]
      rfl
    rw [Option.map_some, hitem]
    exact .made _
  | changed _ hitem =>
    rw [Option.map_some, Option.map_some, hitem]
    exact .kept _
  | stepped _ hstep => exact .step hstep

/-- A row keeps its place, and once it is inactive it does not change. -/
theorem Touch.inactive (h : c.Touch (some r) e o') (hactive : c.active r = false) :
    o' = some r := by
  cases h with
  | kept => rfl
  | changed h => simp [hactive] at h
  | stepped h => simp [hactive] at h

/-- A row has a token while it runs. -/
theorem Touch.running (h : c.Touch o e (some r'))
    (hold : ∀ r, o = some r → (c.token r).isSome = c.running r) :
    (c.token r').isSome = c.running r' := by
  cases h with
  | kept => exact hold r' rfl
  | made _ hunused => rw [hunused.token, hunused.running, Option.isSome_none]
  | changed _ _ hrunning => exact hrunning
  | stepped _ _ hrunning => exact hrunning

theorem held_of_token (hrunning : (c.token r).isSome = c.running r) {k : ℕ}
    (hk : c.token r = some k) : (c.item r).phase = .held k := by
  rw [hk, Option.isSome_some] at hrunning
  exact (item_token (c.active_of_running r hrunning.symm)).mpr hk

theorem token_of_held {k : ℕ} (hk : (c.item r).phase = .held k) : c.token r = some k := by
  cases hactive : c.active r with
  | true => exact (item_token hactive).mp hk
  | false =>
    rw [item, hactive] at hk
    cases hk

/-- A row has a token that it had before, or that is granted. -/
theorem Touch.token (h : c.Touch o e (some r'))
    (hrunning : (c.token r').isSome = c.running r') {k : ℕ} (hk : c.token r' = some k) :
    (∃ r, o = some r ∧ c.token r = some k) ∨ e = some (.granted k) := by
  have hheld := held_of_token hrunning hk
  rcases h.move.held hheld with hsame | hgranted
  · obtain ⟨r, rfl, hr⟩ := Option.map_eq_some_iff.mp hsame
    rw [← hr] at hheld
    exact .inl ⟨r, rfl, token_of_held hheld⟩
  · exact .inr hgranted

variable {K : Type v} [DecidableEq K] {rows rows' : Dict K R}

/-- What a transaction can do to a table of rows. -/
def Touches (c : Columns R) (rows : Dict K R) (logged : Option (K × Event ℕ))
    (rows' : Dict K R) : Prop :=
  ∀ id, c.Touch (rows.lookup id) (eventOf logged id) (rows'.lookup id)

theorem Touches.refl (c : Columns R) (rows : Dict K R) : c.Touches rows none rows :=
  fun _ => .kept _

/-- A transaction that writes one row. -/
theorem Touches.set {id : K} (e : Option (Event ℕ))
    (htouch : c.Touch (rows.lookup id) e (some r)) :
    c.Touches rows (e.map (id, ·)) (rows.set id r) := by
  intro id'
  by_cases hid : id' = id
  · subst hid
    have he : eventOf (e.map (id', ·)) id' = e := by cases e <;> simp [eventOf]
    rw [he, Dict.lookup_set_self]
    exact htouch
  · have he : eventOf (e.map (id, ·)) id' = none := by cases e <;> simp [eventOf, Ne.symm hid]
    rw [he, Dict.lookup_set_of_ne hid]
    exact .kept _

theorem Touches.made {id : K} (hnew : rows.lookup id = none) (hactive : c.active r)
    (hunused : c.Unused r) : c.Touches rows none (rows.set id r) :=
  Touches.set none (hnew ▸ .made hactive hunused)

theorem Touches.changed {id : K} (hrow : rows.lookup id = some r) (hactive : c.active r)
    (hitem : c.item r' = c.item r) (hrunning : (c.token r').isSome = c.running r') :
    c.Touches rows none (rows.set id r') :=
  Touches.set none (hrow ▸ .changed hactive hitem hrunning)

/-- The bound of a row stays, and its attempts unless it is granted. -/
structure Kept (c : Columns R) (r r' : R) : Prop where
  attempts : c.attempts r' = c.attempts r
  maxAttempts : c.maxAttempts r' = c.maxAttempts r

theorem item_not_ended (hactive : c.active r) : (c.item r).phase ≠ .ended := by
  rw [item, hactive]
  cases c.token r <;> simp [Phase.ofRow]

theorem item_ended (hended : c.active r' = false) (hkept : c.Kept r r') :
    c.item r' = { c.item r with phase := .ended } := by
  rw [item, hended, hkept.attempts, hkept.maxAttempts]
  rfl

theorem running_of_ended (hended : c.active r = false) : c.running r = false := by
  cases hrunning : c.running r with
  | false => rfl
  | true => rw [c.active_of_running r hrunning] at hended; exact hended

/-- A row that is leased to a new token. -/
theorem Touches.granted {id : K} {k : ℕ} (hrow : rows.lookup id = some r) (hactive : c.active r)
    (hlt : c.attempts r < c.maxAttempts r) (hrunning : c.running r' = true)
    (htoken : c.token r' = some k) (hattempts : c.attempts r' = c.attempts r + 1)
    (hmax : c.maxAttempts r' = c.maxAttempts r) :
    c.Touches rows (some (id, .granted k)) (rows.set id r') := by
  have hitem : c.item r' = { c.item r with
      phase := .held k, attempts := (c.item r).attempts + 1 } := by
    rw [item, c.active_of_running r' hrunning, htoken, hattempts, hmax]
    rfl
  refine Touches.set (some (.granted k)) (hrow ▸ .stepped hactive ?_ ?_)
  · rw [hitem]
    exact .granted (item_not_ended hactive) hlt
  · rw [htoken, hrunning, Option.isSome_some]

/-- A row that its holder gives back. -/
theorem Touches.returned {id : K} {k : ℕ} (hrow : rows.lookup id = some r) (hactive : c.active r)
    (hk : c.token r = some k) (hactive' : c.active r' = true) (hrunning : c.running r' = false)
    (htoken : c.token r' = none) (hkept : c.Kept r r') : c.Touches rows none (rows.set id r') := by
  have hitem : c.item r' = { c.item r with phase := .waiting } := by
    rw [item, hactive', htoken, hkept.attempts, hkept.maxAttempts]
    rfl
  refine Touches.set none (hrow ▸ .stepped hactive ?_ ?_)
  · rw [hitem]
    exact .returned ((item_token hactive).mpr hk)
  · rw [htoken, hrunning, Option.isSome_none]

/-- A row that ends by a commit of its holder. -/
theorem Touches.committed {id : K} {k : ℕ} (hrow : rows.lookup id = some r)
    (hactive : c.active r) (hk : c.token r = some k) (hended : c.active r' = false)
    (htoken : c.token r' = none) (hkept : c.Kept r r') :
    c.Touches rows (some (id, .committed k)) (rows.set id r') := by
  refine Touches.set (some (.committed k)) (hrow ▸ .stepped hactive ?_ ?_)
  · rw [item_ended hended hkept]
    exact .committed ((item_token hactive).mpr hk)
  · rw [htoken, running_of_ended hended, Option.isSome_none]

/-- A row that ends otherwise. -/
theorem touch_stopped (hactive : c.active r) (hended : c.active r' = false)
    (htoken : c.token r' = none) (hkept : c.Kept r r') : c.Touch (some r) none (some r') := by
  refine .stepped hactive ?_ ?_
  · rw [item_ended hended hkept]
    exact .stopped (item_not_ended hactive)
  · rw [htoken, running_of_ended hended, Option.isSome_none]

theorem Touches.stopped {id : K} (hrow : rows.lookup id = some r) (hactive : c.active r)
    (hended : c.active r' = false) (htoken : c.token r' = none) (hkept : c.Kept r r') :
    c.Touches rows none (rows.set id r') :=
  Touches.set none (hrow ▸ touch_stopped hactive hended htoken hkept)

end Columns

/-! ## Repositories -/

/-- A repository whose calls are transactions on a table of leased rows. A call logs the
grant or the commit that its caller learns of, and it can present a row and a token. -/
structure Repository (Tb : Type*) (C : Type*) (K : Type v) (R : Type w) [DecidableEq K] where
  columns : Columns R
  rows : Tb → Dict K R
  fresh : Tb → ℕ
  perform : Tb → C → Tb × Option (K × Event ℕ)
  presents : C → Option (K × ℕ)
  touches : ∀ t call, columns.Touches (rows t) (perform t call).2 (rows (perform t call).1)
  fresh_le : ∀ t call, fresh t ≤ fresh (perform t call).1
  granted_fresh : ∀ t call id k, (perform t call).2 = some (id, .granted k) →
    fresh t ≤ k ∧ k < fresh (perform t call).1
  committed_presents : ∀ t call id k, (perform t call).2 = some (id, .committed k) →
    presents call = some (id, k)
  stale : ∀ t call id k, presents call = some (id, k) →
    (∀ r, (rows t).lookup id = some r → columns.token r ≠ some k) → perform t call = (t, none)

/-- The tables, and what the callers learned. -/
structure Logged (Tb : Type*) (K : Type v) where
  tables : Tb
  log : List (K × Event ℕ) := []

/-- What leasing promises of a row, given the events of its item. -/
structure Columns.DoneOnce (c : Columns R) (r : R) (es : List (Event ℕ)) : Prop where
  token_iff : (c.token r).isSome = true ↔ c.running r = true
  attempts_eq : c.attempts r = es.countP Event.isGranted
  attempts_le : c.attempts r ≤ c.maxAttempts r
  committed_le_one : es.countP Event.isCommitted ≤ 1
  committed_last : ∀ k, .committed k ∈ es → c.active r = false ∧
    ∃ es', es = es' ++ [.granted k, .committed k]

namespace Repository

variable {Tb C : Type*} {K : Type v} [DecidableEq K] (p : Repository Tb C K R)

/-- One call. -/
def step (s : Logged Tb K) (call : C) : Option (Logged Tb K) :=
  some ⟨(p.perform s.tables call).1, s.log ++ (p.perform s.tables call).2.toList⟩

/-- A row of the tables. -/
def row (s : Logged Tb K) (id : K) : Option R :=
  (p.rows s.tables).lookup id

/-- The invariant of the calls. -/
structure Inv (s : Logged Tb K) : Prop where
  tracks : Tracks (fun id => (p.row s id).map p.columns.item) s.log
  running : ∀ id r, p.row s id = some r → (p.columns.token r).isSome = p.columns.running r
  fresh : ∀ id r k, p.row s id = some r → p.columns.token r = some k → k < p.fresh s.tables
  logged : ∀ id k, (id, .granted k) ∈ s.log → k < p.fresh s.tables

/-- Tables whose rows have no attempts behind them. -/
structure Start (s : Logged Tb K) : Prop where
  log : s.log = []
  unused : ∀ id r, p.row s id = some r → p.columns.Unused r

/-- What leasing promises of a state: each row is where its grants and commits lead; the
caller that commits presents the token of a running row; a row that is not active never
changes; and once a granted token is lost, the calls that present it change nothing. -/
structure Exclusive (s : Logged Tb K) : Prop where
  doneOnce : ∀ id r, p.row s id = some r → p.columns.DoneOnce r (eventsOf s.log id)
  holder : ∀ call id k, (p.perform s.tables call).2 = some (id, .committed k) →
    p.presents call = some (id, k) ∧ ∃ r, p.row s id = some r ∧ p.columns.running r = true ∧
      p.columns.token r = some k
  final : ∀ calls s', Runs.run p.step s calls = some s' → ∀ id r, p.row s id = some r →
    p.columns.active r = false → p.row s' id = some r
  lost : ∀ id k, (id, .granted k) ∈ s.log →
    (∀ r, p.row s id = some r → p.columns.token r ≠ some k) →
      ∀ calls s', Runs.run p.step s calls = some s' → ∀ call, p.presents call = some (id, k) →
        p.perform s'.tables call = (s'.tables, none)

variable {p} {s s' : Logged Tb K} {call : C} {id : K} {r : R} {k : ℕ}

theorem inv_of_start (h : p.Start s) : p.Inv s where
  tracks := by
    intro id
    have hlog : eventsOf s.log id = [] := by rw [h.log, eventsOf, List.filter_nil, List.map_nil]
    dsimp only
    rw [hlog]
    cases hr : p.row s id with
    | none => exact .absent
    | some r => exact .present (Columns.history_of_unused (h.unused id r hr))
  running := by
    intro id r hr
    rw [(h.unused id r hr).token, (h.unused id r hr).running, Option.isSome_none]
  fresh := by
    intro id r k hr hk
    rw [(h.unused id r hr).token] at hk
    cases hk
  logged := by
    intro id k hk
    rw [h.log] at hk
    cases hk

theorem touch_of_step (hstep : p.step s call = some s') (id : K) :
    p.columns.Touch (p.row s id) (eventOf (p.perform s.tables call).2 id) (p.row s' id) := by
  obtain rfl := Option.some.inj hstep
  exact p.touches s.tables call id

theorem eventOf_eq_some {logged : Option (K × Event ℕ)} {event : Event ℕ} :
    eventOf logged id = some event ↔ logged = some (id, event) := by
  cases logged with
  | none => simp [eventOf]
  | some e =>
    obtain ⟨id', event'⟩ := e
    by_cases hid : id' = id <;> simp [eventOf, hid]

/-- A token of a row after a call is one it had before, or new. -/
theorem token_of_step (h : p.Inv s) (hstep : p.step s call = some s')
    (hr : p.row s' id = some r) (hk : p.columns.token r = some k) :
    (∃ r₀, p.row s id = some r₀ ∧ p.columns.token r₀ = some k) ∨
      (p.fresh s.tables ≤ k ∧ k < p.fresh s'.tables) := by
  have htouch := touch_of_step hstep id
  rw [hr] at htouch
  have hrunning := htouch.running fun r₀ hr₀ => h.running id r₀ hr₀
  refine (htouch.token hrunning hk).imp_right fun hgranted => ?_
  obtain rfl := Option.some.inj hstep
  exact p.granted_fresh s.tables call id k (eventOf_eq_some.mp hgranted)

/-- A call keeps the invariant. -/
theorem Inv.step (h : p.Inv s) (hstep : p.step s call = some s') : p.Inv s' := by
  have hle : p.fresh s.tables ≤ p.fresh s'.tables := by
    obtain rfl := Option.some.inj hstep
    exact p.fresh_le s.tables call
  refine ⟨?_, ?_, ?_, ?_⟩
  · have hlog : s'.log = s.log ++ (p.perform s.tables call).2.toList := by
      obtain rfl := Option.some.inj hstep
      rfl
    rw [hlog]
    exact h.tracks.moves fun id => (touch_of_step hstep id).move
  · intro id r hr
    have htouch := touch_of_step hstep id
    rw [hr] at htouch
    exact htouch.running fun r₀ hr₀ => h.running id r₀ hr₀
  · intro id r k hr hk
    rcases token_of_step h hstep hr hk with ⟨r₀, hr₀, hk⟩ | hnew
    · exact Nat.lt_of_lt_of_le (h.fresh id r₀ k hr₀ hk) hle
    · exact hnew.2
  · intro id k hk
    obtain rfl := Option.some.inj hstep
    rcases List.mem_append.mp hk with hk | hk
    · exact Nat.lt_of_lt_of_le (h.logged id k hk) hle
    · exact (p.granted_fresh s.tables call id k (Option.mem_toList.mp hk)).2

variable {calls : List C}

theorem Inv.run (h : p.Inv s) (hrun : Runs.run p.step s calls = some s') : p.Inv s' :=
  Runs.run_invariant' (fun _ _ _ h hstep => h.step hstep) h hrun

/-- In every state each row is where its grants and commits lead. -/
theorem Inv.doneOnce (h : p.Inv s) (hr : p.row s id = some r) :
    p.columns.DoneOnce r (eventsOf s.log id) := by
  have hhistory : History (eventsOf s.log id) (p.columns.item r) :=
    h.tracks.history (congrArg (Option.map p.columns.item) hr)
  refine ⟨by rw [h.running id r hr], hhistory.attempts_eq, hhistory.attempts_le,
    hhistory.committed_le_one, ?_⟩
  intro k hk
  obtain ⟨hended, hlast⟩ := hhistory.eq_of_committed hk
  refine ⟨?_, hlast⟩
  cases hactive : p.columns.active r with
  | false => rfl
  | true =>
    rw [Columns.item, hactive] at hended
    cases htoken : p.columns.token r <;> simp [Phase.ofRow, htoken] at hended

/-- A row that is not active never changes. -/
theorem run_inactive (hr : p.row s id = some r) (hactive : p.columns.active r = false)
    (hrun : Runs.run p.step s calls = some s') : p.row s' id = some r := by
  refine @Runs.run_invariant' _ _ _ (fun s => p.row s id = some r) ?_ _ _ _ hr hrun
  intro s call s' hr hstep
  have htouch := touch_of_step hstep id
  rw [hr] at htouch
  exact htouch.inactive hactive

/-- A token that was granted and lost is never current again. -/
theorem run_lost (h : p.Inv s) (hk : (id, .granted k) ∈ s.log)
    (hlost : ∀ r, p.row s id = some r → p.columns.token r ≠ some k)
    (hrun : Runs.run p.step s calls = some s') :
    ∀ r, p.row s' id = some r → p.columns.token r ≠ some k := by
  have hinv : p.Inv s' ∧ k < p.fresh s'.tables ∧
      ∀ r, p.row s' id = some r → p.columns.token r ≠ some k := by
    refine @Runs.run_invariant' _ _ _ (fun s => p.Inv s ∧ k < p.fresh s.tables ∧
      ∀ r, p.row s id = some r → p.columns.token r ≠ some k) ?_ _ _ _
      ⟨h, h.logged id k hk, hlost⟩ hrun
    rintro s call s' ⟨h, hlt, hlost⟩ hstep
    have hle : p.fresh s.tables ≤ p.fresh s'.tables := by
      obtain rfl := Option.some.inj hstep
      exact p.fresh_le s.tables call
    refine ⟨h.step hstep, Nat.lt_of_lt_of_le hlt hle, ?_⟩
    intro r hr htoken
    rcases token_of_step h hstep hr htoken with ⟨r₀, hr₀, htoken⟩ | hnew
    · exact hlost r₀ hr₀ htoken
    · omega
  exact hinv.2.2

/-- The caller that commits holds the row. -/
theorem Inv.holder (h : p.Inv s) (hk : (p.perform s.tables call).2 = some (id, .committed k)) :
    ∃ r, p.row s id = some r ∧ p.columns.running r = true ∧ p.columns.token r = some k := by
  have htouch : p.columns.Touch (p.row s id) _ _ := p.touches s.tables call id
  rw [eventOf_eq_some.mpr hk] at htouch
  obtain ⟨i, hi, hheld⟩ := htouch.move.committed
  obtain ⟨r, hr, rfl⟩ := Option.map_eq_some_iff.mp hi
  have htoken := Columns.token_of_held hheld
  refine ⟨r, hr, ?_, htoken⟩
  rw [← h.running id r hr, htoken, Option.isSome_some]

/-- What leasing promises holds in every state of the calls. -/
theorem Inv.exclusive (h : p.Inv s) : p.Exclusive s where
  doneOnce _ _ hr := h.doneOnce hr
  holder _ _ _ hk := ⟨p.committed_presents _ _ _ _ hk, h.holder hk⟩
  final _ _ hrun _ _ hr hactive := run_inactive hr hactive hrun
  lost id k hk hlost _ s' hrun call hcall :=
    p.stale s'.tables call id k hcall (run_lost h hk hlost hrun)

end Repository

end

end Lease
