import TgCurator.Analysis.Common
import TgCurator.Dict
import TgCurator.Runs

/-!
# The first administrator

`BootstrapAdminService.bootstrap` and `create_first_active_admin` of `admin_repository.py`. A call
looks for an administrator, inserts one if it finds none, and commits; the partial unique index on
active administrators makes an insert wait for another that is not committed, and refuses it once
there is an active one. Calls take turns in any order and may end at any point, which takes an
insert back, or end with the commit but without an answer.

`admin_bootstrapped_once`: in every run from an empty table there is at most one administrator,
and whoever is told an id has made it.
-/

namespace TgCurator.AdminBootstrap

/-! ## The service -/

/-- A row of `admin_users`. -/
structure AdminUser where
  id : ℕ
  username : String
  passwordHash : String
  isActive : Bool
  deriving DecidableEq

/-- What `bootstrap` raises. -/
inductive BootstrapError
  /-- `ValueError`. -/
  | valueError (message : String)
  /-- `BootstrapAlreadyCompleteError`. -/
  | alreadyComplete (message : String)
  deriving DecidableEq

/-- The checks of `bootstrap`, and the username that it stores. -/
def normalizeUsername (username password : String) : Except BootstrapError String :=
  let normalized := strip username
  if normalized = "" then .error (.valueError "username must not be blank")
  else if 128 < normalized.length then
    .error (.valueError "username must be at most 128 characters")
  else if normalized.toList.any fun c => c.toNat < 32 then
    .error (.valueError "username must not contain control characters")
  else if password.length < 12 then
    .error (.valueError "password must be at least 12 characters")
  else if 1024 < password.length then
    .error (.valueError "password must be at most 1024 characters")
  else if strip password = "" then .error (.valueError "password must not be blank")
  else .ok normalized

/-- The error of a call whose repository returns `None`. -/
def alreadyComplete : BootstrapError :=
  .alreadyComplete "an active administrator already exists"

/-! ## Calls -/

/-- Where a call is. -/
inductive Phase
  | started
  /-- It has found no administrator. -/
  | selected
  /-- It has inserted a row that is not committed. -/
  | inserted (id : ℕ)
  | answered (result : Except BootstrapError ℕ)
  /-- It has ended without an answer. -/
  | stopped

/-- A call of `bootstrap`. -/
structure Call where
  username : String
  password : String
  phase : Phase

/-- The committed rows, and the calls. -/
structure State where
  admins : List AdminUser
  calls : Dict ℕ Call

/-- A turn of a call. -/
inductive Turn
  | select
  /-- With the id the database draws. -/
  | insert (id : ℕ)
  /-- The commit, which the caller may not hear of. -/
  | commit (told : Bool)
  | stop

/-- What happens next. -/
inductive Action
  | call (name : ℕ) (username password : String)
  | turn (name : ℕ) (turn : Turn)

/-- Whether a call has inserted a row that is not committed. -/
def Phase.isInserted : Phase → Bool
  | inserted _ => true
  | _ => false

/-- Whether some insert is not committed. -/
def State.inserting (s : State) : Bool :=
  s.calls.any fun e => e.2.phase.isInserted

section

variable (hash : ℕ → String → String)

/-- The row of a call. -/
def Call.row (name : ℕ) (call : Call) (id : ℕ) : AdminUser :=
  ⟨id, strip call.username, hash name call.password, true⟩

/-- Whether the row of a call breaks a unique constraint. -/
def State.taken (s : State) (name : ℕ) (call : Call) (id : ℕ) : Bool :=
  s.admins.any fun admin =>
    admin.isActive || admin.id = id || admin.username = (call.row hash name id).username

/-- A turn of a call: the rows and the phase after it. -/
def State.turn (s : State) (name : ℕ) (call : Call) (turn : Turn) :
    Option (List AdminUser × Phase) :=
  match turn, call.phase with
  | .select, .started =>
    some (s.admins, if s.admins = [] then .selected else .answered (.error alreadyComplete))
  | .insert id, .selected =>
    -- The unique index makes the insert wait.
    if s.inserting then none
    else some (s.admins,
      if s.taken hash name call id then .answered (.error alreadyComplete) else .inserted id)
  | .commit told, .inserted id =>
    some (s.admins ++ [call.row hash name id], if told then .answered (.ok id) else .stopped)
  | .stop, .started => some (s.admins, .stopped)
  | .stop, .selected => some (s.admins, .stopped)
  | .stop, .inserted _ => some (s.admins, .stopped)
  | _, _ => none

/-- One step. -/
def step (s : State) : Action → Option State
  | .call name username password =>
    if name ∈ s.calls.keys then none
    else
      let phase : Phase := match normalizeUsername username password with
        | .error e => .answered (.error e)
        | .ok _ => .started
      some { s with calls := s.calls.set name ⟨username, password, phase⟩ }
  | .turn name turn =>
    match s.calls.lookup name with
    | none => none
    | some call =>
      match s.turn hash name call turn with
      | none => none
      | some (admins, phase) => some ⟨admins, s.calls.set name { call with phase := phase }⟩

end

variable {hash : ℕ → String → String} {s s' : State} {a : Action} {name : ℕ} {call : Call}
  {turn : Turn} {admins : List AdminUser} {phase : Phase}

/-! ## Turns -/

/-- What a call that begins has as its phase. -/
theorem begun_cases (username password : String) :
    (∃ e, normalizeUsername username password = .error (.valueError e)) ∨
      normalizeUsername username password = .ok (strip username) := by
  unfold normalizeUsername
  dsimp only
  split_ifs
  all_goals first
    | exact .inl ⟨_, rfl⟩
    | exact .inr rfl

/-- What a turn does. -/
theorem turn_cases (h : s.turn hash name call turn = some (admins, phase)) :
    (admins = s.admins ∧ (phase = .selected ∧ call.phase = .started ∨ phase = .stopped ∨
      phase = .answered (.error alreadyComplete) ∧ s.admins ≠ [])) ∨
    (∃ id, admins = s.admins ∧ phase = .inserted id ∧ call.phase = .selected ∧
      s.inserting = false ∧ ∀ admin ∈ s.admins, admin.isActive = false) ∨
    (∃ id, admins = s.admins ++ [call.row hash name id] ∧ call.phase = .inserted id ∧
      (phase = .answered (.ok id) ∨ phase = .stopped)) := by
  unfold State.turn at h
  split at h
  case h_1 hphase =>
    obtain ⟨rfl, rfl⟩ := Prod.mk.inj (Option.some.inj h)
    split_ifs with hadmins
    · exact .inl ⟨rfl, .inl ⟨rfl, hphase⟩⟩
    · exact .inl ⟨rfl, .inr (.inr ⟨rfl, hadmins⟩)⟩
  case h_2 id hphase =>
    split_ifs at h with hinserting htaken
    · obtain ⟨rfl, rfl⟩ := Prod.mk.inj (Option.some.inj h)
      refine .inl ⟨rfl, .inr (.inr ⟨rfl, fun hnil => ?_⟩)⟩
      rw [State.taken, hnil] at htaken
      cases htaken
    · obtain ⟨rfl, rfl⟩ := Prod.mk.inj (Option.some.inj h)
      refine .inr (.inl ⟨id, rfl, rfl, hphase, Bool.eq_false_iff.mpr hinserting, ?_⟩)
      intro admin hadmin
      have hfree := List.any_eq_false.mp (Bool.eq_false_iff.mpr htaken) admin hadmin
      simp only [Bool.or_eq_true, not_or] at hfree
      exact Bool.eq_false_iff.mpr hfree.1.1
  case h_3 told id hphase =>
    obtain ⟨rfl, rfl⟩ := Prod.mk.inj (Option.some.inj h)
    refine .inr (.inr ⟨id, rfl, hphase, ?_⟩)
    cases told with
    | true => exact .inl rfl
    | false => exact .inr rfl
  case h_4 =>
    obtain ⟨rfl, rfl⟩ := Prod.mk.inj (Option.some.inj h)
    exact .inl ⟨rfl, .inr (.inl rfl)⟩
  case h_5 =>
    obtain ⟨rfl, rfl⟩ := Prod.mk.inj (Option.some.inj h)
    exact .inl ⟨rfl, .inr (.inl rfl)⟩
  case h_6 =>
    obtain ⟨rfl, rfl⟩ := Prod.mk.inj (Option.some.inj h)
    exact .inl ⟨rfl, .inr (.inl rfl)⟩
  case h_7 => cases h

/-- What a step does: a call begins, or takes a turn. -/
theorem step_cases (h : step hash s a = some s') :
    (∃ name username password phase, name ∉ s.calls.keys ∧
      s' = { s with calls := s.calls.set name ⟨username, password, phase⟩ } ∧
      ((∃ e, normalizeUsername username password = .error (.valueError e) ∧
          phase = .answered (.error (.valueError e))) ∨
        normalizeUsername username password = .ok (strip username) ∧ phase = .started)) ∨
    (∃ name call turn admins phase, s.calls.lookup name = some call ∧
      s.turn hash name call turn = some (admins, phase) ∧
      s' = ⟨admins, s.calls.set name { call with phase := phase }⟩) := by
  cases a with
  | call name username password =>
    rw [step] at h
    split_ifs at h with hname
    refine .inl ⟨name, username, password, _, hname, (Option.some.inj h).symm, ?_⟩
    rcases begun_cases username password with ⟨e, he⟩ | hok
    · rw [he]
      exact .inl ⟨e, rfl, rfl⟩
    · rw [hok]
      exact .inr ⟨rfl, rfl⟩
  | turn name turn =>
    rw [step] at h
    cases hcall : s.calls.lookup name with
    | none =>
      rw [hcall] at h
      cases h
    | some call =>
      rw [hcall] at h
      dsimp only at h
      cases hturn : s.turn hash name call turn with
      | none =>
        rw [hturn] at h
        cases h
      | some result =>
        obtain ⟨admins, phase⟩ := result
        rw [hturn] at h
        exact .inr ⟨name, call, turn, admins, phase, hcall, hturn, (Option.some.inj h).symm⟩

/-! ## The invariant -/

/-- What the phase of a call says of the rows. -/
def Call.Fits (hash : ℕ → String → String) (admins : List AdminUser) (name : ℕ) (call : Call) :
    Prop :=
  match call.phase with
  | .inserted _ => admins = []
  | .answered (.ok id) => admins = [call.row hash name id]
  | .answered (.error (.alreadyComplete _)) => admins ≠ []
  | _ => True

/-- Whether the arguments of a call passed the checks. -/
def Call.Checked (call : Call) : Prop :=
  match call.phase with
  | .answered (.error (.valueError e)) =>
    normalizeUsername call.username call.password = .error (.valueError e)
  | _ => normalizeUsername call.username call.password = .ok (strip call.username)

/-- What holds in every run from an empty table. -/
structure Inv (hash : ℕ → String → String) (s : State) : Prop where
  fits : ∀ name call, s.calls.lookup name = some call → call.Fits hash s.admins name
  checked : ∀ name call, s.calls.lookup name = some call → call.Checked
  /-- At most one insert is not committed. -/
  alone : ∀ name name' call call', s.calls.lookup name = some call →
    s.calls.lookup name' = some call' → call.phase.isInserted = true →
      call'.phase.isInserted = true → name = name'
  /-- The only administrator is that of a call, and no other call has been told an id. -/
  made : s.admins = [] ∨ ∃ name call id, s.calls.lookup name = some call ∧
    s.admins = [call.row hash name id] ∧
    normalizeUsername call.username call.password = .ok (strip call.username) ∧
      ∀ name' call' id', s.calls.lookup name' = some call' →
        call'.phase = .answered (.ok id') → name' = name

theorem turn_not_answered (h : s.turn hash name call turn = some (admins, phase))
    (result : Except BootstrapError ℕ) : call.phase ≠ .answered result := by
  intro hphase
  unfold State.turn at h
  rw [hphase] at h
  cases turn <;> cases h

theorem Call.Checked.ok (h : call.Checked) (hphase : ∀ result, call.phase ≠ .answered result) :
    normalizeUsername call.username call.password = .ok (strip call.username) := by
  unfold Call.Checked at h
  split at h
  · next hanswered => exact absurd hanswered (hphase _)
  · exact h

/-- What a call knows of an empty table goes on to hold when a row comes in, unless it has
inserted a row itself. -/
theorem Call.Fits.of_nil (h : call.Fits hash [] name) (hphase : call.phase.isInserted = false)
    (hne : admins ≠ []) : call.Fits hash admins name := by
  unfold Call.Fits at h ⊢
  split at h
  case h_1 heq =>
    rw [heq] at hphase
    cases hphase
  case h_2 => cases h
  case h_3 heq => exact hne
  case h_4 => trivial

theorem Inv.of_empty : Inv hash ⟨[], []⟩ := by
  refine ⟨?_, ?_, ?_, .inl rfl⟩
  all_goals
    intro name
    intros
    simp_all

/-- A call that begins keeps the invariant. -/
theorem Inv.begun (h : Inv hash s) (hname : name ∉ s.calls.keys)
    (hfits : call.Fits hash s.admins name)
    (hchecked : call.Checked) (hphase : call.phase.isInserted = false)
    (hanswered : ∀ id, call.phase ≠ .answered (.ok id)) :
    Inv hash { s with calls := s.calls.set name call } := by
  have hnone : s.calls.lookup name = none := Dict.lookup_eq_none.mpr hname
  refine ⟨fun name' call' hcall' => ?_, fun name' call' hcall' => ?_,
    fun n n' c c' hc hc' hin hin' => ?_, ?_⟩
  · rcases Dict.of_lookup_set hcall' with ⟨rfl, rfl⟩ | ⟨-, hcall'⟩
    · exact hfits
    · exact h.fits name' call' hcall'
  · rcases Dict.of_lookup_set hcall' with ⟨rfl, rfl⟩ | ⟨-, hcall'⟩
    · exact hchecked
    · exact h.checked name' call' hcall'
  · rcases Dict.of_lookup_set hc with ⟨rfl, rfl⟩ | ⟨-, hc⟩
    · rw [hphase] at hin
      cases hin
    · rcases Dict.of_lookup_set hc' with ⟨rfl, rfl⟩ | ⟨-, hc'⟩
      · rw [hphase] at hin'
        cases hin'
      · exact h.alone n n' c c' hc hc' hin hin'
  · refine h.made.imp_right fun ⟨winner, won, id, hwon, hadmins, hwin, honly⟩ => ?_
    have hne : winner ≠ name := by
      rintro rfl
      rw [hnone] at hwon
      cases hwon
    refine ⟨winner, won, id, (Dict.lookup_set_of_ne hne _ _).trans hwon, hadmins, hwin, ?_⟩
    intro n c id' hc hphase'
    rcases Dict.of_lookup_set hc with ⟨rfl, rfl⟩ | ⟨-, hc⟩
    · exact absurd hphase' (hanswered id')
    · exact honly n c id' hc hphase'

/-- A turn that leaves the rows as they are keeps the invariant. -/
theorem Inv.pass (h : Inv hash s) (hcall : s.calls.lookup name = some call)
    (hok : normalizeUsername call.username call.password = .ok (strip call.username))
    (hphase : phase = .selected ∨ phase = .stopped ∨
      phase = .answered (.error alreadyComplete) ∧ s.admins ≠ [] ∨
        (∃ id, phase = .inserted id) ∧ s.admins = [] ∧ s.inserting = false) :
    Inv hash { s with calls := s.calls.set name { call with phase := phase } } := by
  have hanswered : ∀ id, phase ≠ .answered (.ok id) := by
    rintro id rfl
    rcases hphase with h | h | ⟨h, -⟩ | ⟨⟨_, h⟩, -⟩ <;> cases h
  refine ⟨fun name' call' hcall' => ?_, fun name' call' hcall' => ?_,
    fun n n' c c' hc hc' hin hin' => ?_, ?_⟩
  · rcases Dict.of_lookup_set hcall' with ⟨rfl, rfl⟩ | ⟨-, hcall'⟩
    · rcases hphase with rfl | rfl | ⟨rfl, hne⟩ | ⟨⟨id, rfl⟩, hnil, -⟩
      · trivial
      · trivial
      · exact hne
      · exact hnil
    · exact h.fits name' call' hcall'
  · rcases Dict.of_lookup_set hcall' with ⟨rfl, rfl⟩ | ⟨-, hcall'⟩
    · rcases hphase with rfl | rfl | ⟨rfl, -⟩ | ⟨⟨id, rfl⟩, -⟩ <;> exact hok
    · exact h.checked name' call' hcall'
  · have hfree : ∀ {n c}, s.calls.lookup n = some c → phase.isInserted = true →
        c.phase.isInserted = true → False := by
      intro n c hc hnew hold
      rcases hphase with rfl | rfl | ⟨rfl, -⟩ | ⟨-, -, hfree⟩
      · cases hnew
      · cases hnew
      · cases hnew
      · have hany := List.any_eq_false.mp hfree (n, c) (Dict.mem_of_lookup hc)
        exact hany hold
    rcases Dict.of_lookup_set hc with ⟨rfl, rfl⟩ | ⟨-, hold⟩
    · rcases Dict.of_lookup_set hc' with ⟨rfl, rfl⟩ | ⟨-, hold'⟩
      · rfl
      · exact (hfree hold' hin hin').elim
    · rcases Dict.of_lookup_set hc' with ⟨rfl, rfl⟩ | ⟨-, hold'⟩
      · exact (hfree hold hin' hin).elim
      · exact h.alone n n' c c' hold hold' hin hin'
  · refine h.made.imp_right fun ⟨winner, won, id, hwon, hadmins, hwin, honly⟩ => ?_
    have htold : ∀ n c id', (s.calls.set name { call with phase := phase }).lookup n = some c →
        c.phase = .answered (.ok id') → n = winner := by
      intro n c id' hc hphase'
      rcases Dict.of_lookup_set hc with ⟨rfl, rfl⟩ | ⟨-, hc⟩
      · exact absurd hphase' (hanswered id')
      · exact honly n c id' hc hphase'
    by_cases hne : winner = name
    · obtain rfl := hne
      obtain rfl := Option.some.inj (hcall.symm.trans hwon)
      exact ⟨winner, _, id, Dict.lookup_set_self _ _ _, hadmins, hwin, htold⟩
    · exact ⟨winner, won, id, (Dict.lookup_set_of_ne hne _ _).trans hwon, hadmins, hwin, htold⟩

/-- A commit keeps the invariant. -/
theorem Inv.commit (h : Inv hash s) (hcall : s.calls.lookup name = some call) {id : ℕ}
    (hok : normalizeUsername call.username call.password = .ok (strip call.username))
    (hinserted : call.phase = .inserted id)
    (hphase : phase = .answered (.ok id) ∨ phase = .stopped) :
    Inv hash ⟨s.admins ++ [call.row hash name id],
      s.calls.set name { call with phase := phase }⟩ := by
  have hnil : s.admins = [] := by
    have hfits := h.fits name call hcall
    rw [Call.Fits, hinserted] at hfits
    exact hfits
  have hisInserted : call.phase.isInserted = true := by
    rw [hinserted]
    rfl
  have hother : ∀ {n c}, n ≠ name → s.calls.lookup n = some c →
      c.phase.isInserted = false := by
    intro n c hne hc
    exact Bool.eq_false_iff.mpr fun hin => hne (h.alone n name c call hc hcall hin hisInserted)
  rw [hnil, List.nil_append]
  refine ⟨fun n c hc => ?_, fun n c hc => ?_, fun n n' c c' hc hc' hin hin' => ?_, .inr ?_⟩
  · rcases Dict.of_lookup_set hc with ⟨rfl, rfl⟩ | ⟨hne, hc⟩
    · rcases hphase with rfl | rfl
      · rfl
      · trivial
    · have hfits := h.fits n c hc
      rw [hnil] at hfits
      exact hfits.of_nil (hother hne hc) (List.cons_ne_nil _ _)
  · rcases Dict.of_lookup_set hc with ⟨rfl, rfl⟩ | ⟨-, hc⟩
    · rcases hphase with rfl | rfl <;> exact hok
    · exact h.checked n c hc
  · have hnew : phase.isInserted = false := by
      rcases hphase with rfl | rfl <;> rfl
    rcases Dict.of_lookup_set hc with ⟨rfl, rfl⟩ | ⟨hne, hc⟩
    · exact absurd hin (by rw [hnew]; decide)
    · exact absurd hin (by rw [hother hne hc]; decide)
  · refine ⟨name, _, id, Dict.lookup_set_self _ _ _, rfl, hok, fun n c id' hc hphase' => ?_⟩
    rcases Dict.of_lookup_set hc with ⟨rfl, -⟩ | ⟨-, hc⟩
    · rfl
    · have hfits := h.fits n c hc
      rw [Call.Fits, hphase', hnil] at hfits
      cases hfits

theorem Inv.step (h : Inv hash s) (hstep : step hash s a = some s') : Inv hash s' := by
  rcases step_cases hstep with ⟨name, username, password, phase, hname, rfl, hphase⟩ |
    ⟨name, call, turn, admins, phase, hcall, hturn, rfl⟩
  · rcases hphase with ⟨e, he, rfl⟩ | ⟨hok, rfl⟩
    · exact h.begun hname trivial he rfl (fun _ heq => by cases heq)
    · exact h.begun hname trivial hok rfl (fun _ heq => by cases heq)
  · have hok := (h.checked name call hcall).ok (turn_not_answered hturn)
    rcases turn_cases hturn with ⟨rfl, hphase⟩ | ⟨id, rfl, hphase, -, hfree, hinactive⟩ |
      ⟨id, rfl, hinserted, hphase⟩
    · refine h.pass hcall hok ?_
      rcases hphase with ⟨hphase, -⟩ | hphase | hphase
      · exact .inl hphase
      · exact .inr (.inl hphase)
      · exact .inr (.inr (.inl hphase))
    · have hnil : s.admins = [] := by
        refine h.made.resolve_right fun ⟨winner, won, id', _, hadmins, _⟩ => ?_
        have hactive := hinactive (won.row hash winner id') (by rw [hadmins]; exact .head _)
        cases hactive
      exact h.pass hcall hok (.inr (.inr (.inr ⟨⟨id, hphase⟩, hnil, hfree⟩)))
    · exact h.commit hcall hok hinserted hphase

/-! ## Runs -/

/-- In every run from an empty table, with calls that take turns in any order and end anywhere:
there is at most one administrator, active and with the checked username and the hashed password
of one call; a call that is told an id has made it; at most one call is; a call that is told that
there is an active administrator is told the truth; and a call whose arguments are refused has
arguments that the checks refuse. -/
theorem admin_bootstrapped_once (hash : ℕ → String → String) (s : State) (actions : List Action)
    (hrun : Runs.run (step hash) ⟨[], []⟩ actions = some s) :
    (s.admins = [] ∨ ∃ name call id, s.calls.lookup name = some call ∧
      s.admins = [call.row hash name id] ∧
        normalizeUsername call.username call.password = .ok (call.row hash name id).username) ∧
    (∀ name call id, s.calls.lookup name = some call → call.phase = .answered (.ok id) →
      s.admins = [call.row hash name id]) ∧
    (∀ name name' call call' id id', s.calls.lookup name = some call →
      s.calls.lookup name' = some call' → call.phase = .answered (.ok id) →
        call'.phase = .answered (.ok id') → name = name') ∧
    (∀ name call, s.calls.lookup name = some call →
      call.phase = .answered (.error alreadyComplete) →
        ∃ admin, s.admins = [admin] ∧ admin.isActive = true) ∧
    (∀ name call e, s.calls.lookup name = some call →
      call.phase = .answered (.error (.valueError e)) →
        normalizeUsername call.username call.password = .error (.valueError e)) := by
  have hinv : Inv hash s := Runs.run_invariant' (fun _ _ _ h => h.step) Inv.of_empty hrun
  refine ⟨?_, fun name call id hcall hphase => ?_, fun name name' call call' id id' hcall hcall'
    hphase hphase' => ?_, fun name call hcall hphase => ?_, fun name call e hcall hphase => ?_⟩
  · exact hinv.made.imp_right fun ⟨name, call, id, hcall, hadmins, hok, _⟩ =>
      ⟨name, call, id, hcall, hadmins, hok⟩
  · have hfits := hinv.fits name call hcall
    rwa [Call.Fits, hphase] at hfits
  · rcases hinv.made with hnil | ⟨winner, -, -, -, -, -, honly⟩
    · have hfits := hinv.fits name call hcall
      rw [Call.Fits, hphase, hnil] at hfits
      cases hfits
    · exact (honly name call id hcall hphase).trans (honly name' call' id' hcall' hphase').symm
  · have hfits := hinv.fits name call hcall
    rw [Call.Fits, hphase] at hfits
    obtain ⟨winner, won, id, -, hadmins, -⟩ := hinv.made.resolve_left hfits
    exact ⟨_, hadmins, rfl⟩
  · have hchecked := hinv.checked name call hcall
    rwa [Call.Checked, hphase] at hchecked

/-- Two calls that both find no administrator. -/
def racingCalls : List Action :=
  [.call 1 "  curator  " "a secure password", .call 2 "other" "another password",
    .turn 1 .select, .turn 2 .select, .turn 1 (.insert 5), .turn 1 (.commit true),
    .turn 2 (.insert 6)]

/-- A stand-in for the password hash. -/
def sampleHash (_ : ℕ) (password : String) : String :=
  "hashed:" ++ password

/-- The rows and the calls after that. -/
def racedState : State where
  admins := [⟨5, strip "  curator  ", sampleHash 1 "a secure password", true⟩]
  calls := [(1, ⟨"  curator  ", "a secure password", .answered (.ok 5)⟩),
    (2, ⟨"other", "another password", .answered (.error alreadyComplete)⟩)]

theorem run_racingCalls : Runs.run (step sampleHash) ⟨[], []⟩ racingCalls = some racedState :=
  rfl

/-- The second insert is refused. -/
theorem admin_bootstrapped_once_race : ∃ s,
    Runs.run (step sampleHash) ⟨[], []⟩ racingCalls = some s ∧
      s.admins = [⟨5, strip "  curator  ", sampleHash 1 "a secure password", true⟩] ∧
      (∃ call, s.calls.lookup 2 = some call ∧ call.phase = .answered (.error alreadyComplete)) ∧
      ∃ admin, s.admins = [admin] ∧ admin.isActive = true := by
  obtain ⟨-, htold, -, hrefused, -⟩ :=
    admin_bootstrapped_once sampleHash racedState racingCalls run_racingCalls
  have hadmins := htold 1 _ 5 rfl rfl
  exact ⟨racedState, run_racingCalls, hadmins, ⟨_, rfl, rfl⟩, hrefused 2 _ rfl rfl⟩

end TgCurator.AdminBootstrap
