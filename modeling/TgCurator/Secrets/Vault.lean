import TgCurator.Aead
import TgCurator.Analysis.Common
import TgCurator.Dict
import TgCurator.Runs

/-!
# The secret vault

`SqlAlchemySecretVault` of `infrastructure/database/secret_vault.py`, and the cipher of
`infrastructure/security/aes_gcm.py` that it stores secrets with. AES-GCM is an authenticated
cipher, and random nonces are any.

The table is in a database that others can write. `resolved_secrets`: whatever they write, a
secret that resolves is one that was stored, under the type it is resolved with, since the type
is part of the associated data (`data_injective`); and a row that they leave alone resolves to
the secret that was stored in it. They can exchange two rows of one type (`exchanged`), because
the id of a row is no part of its data.
-/

namespace TgCurator

namespace Secrets

abbrev Bytes := List UInt8

/-- `value.encode("utf-8")`. -/
def utf8 (value : String) : Bytes :=
  value.toUTF8.data.toList

theorem utf8_injective : Function.Injective utf8 := by
  intro a b h
  rw [utf8, utf8, String.toUTF8_eq_toByteArray, String.toUTF8_eq_toByteArray] at h
  exact String.toByteArray_inj.mp (ByteArray.ext (Array.toList_inj.mp h))

/-- The exceptions of the vault and of its cipher. -/
inductive VaultError
  | valueError (message : String)
  | secretDecryption (message : String)
  | secretNotFound
  | secretTypeMismatch
  | integrityError
  deriving DecidableEq

/-! ## The cipher -/

/-- `AESGCM` with its key: a ciphertext ends in a tag of 16 bytes. -/
structure AesGcm extends Aead Bytes Bytes Bytes Bytes where
  length_encrypt : ∀ nonce plaintext data,
    (encrypt nonce plaintext data).length = plaintext.length + 16

/-- The arguments of `EncryptedPayload`. -/
structure EncryptedPayloadFields where
  ciphertext : Bytes
  nonce : Bytes
  keyId : String

/-- `EncryptedPayload.__post_init__`. -/
def EncryptedPayloadFields.postInit (payload : EncryptedPayloadFields) : Except VaultError Unit :=
  if payload.ciphertext.length < 16 then
    .error (.valueError "ciphertext must contain an AES-GCM authentication tag")
  else if payload.nonce.length ≠ 12 then .error (.valueError "nonce must be exactly 12 bytes")
  else if isBlank payload.keyId then .error (.valueError "key_id must not be blank")
  else .ok ()

/-- `EncryptedPayload`. -/
structure EncryptedPayload extends EncryptedPayloadFields where
  checked : toEncryptedPayloadFields.postInit = .ok ()

def EncryptedPayloadFields.create (payload : EncryptedPayloadFields) :
    Except VaultError EncryptedPayload :=
  match h : payload.postInit with
  | .ok () => .ok ⟨payload, h⟩
  | .error e => .error e

theorem EncryptedPayloadFields.create_eq_ok {fields : EncryptedPayloadFields}
    {payload : EncryptedPayload} :
    fields.create = .ok payload ↔ payload.toEncryptedPayloadFields = fields := by
  obtain ⟨checked, hchecked⟩ := payload
  unfold create
  split
  · next h =>
    rw [Except.ok.injEq, EncryptedPayload.mk.injEq]
    exact eq_comm
  · next e h =>
    refine ⟨fun h' => (by cases h'), fun h' => ?_⟩
    subst h'
    rw [hchecked] at h
    cases h

/-- `AesGcmSecretCipher`, with its `AESGCM`. -/
structure AesGcmSecretCipher where
  keyId : String
  aesGcm : AesGcm
  keyId_stripped : strip keyId = keyId
  keyId_nonblank : isBlank keyId = false
  keyId_length : keyId.length ≤ 128

namespace AesGcmSecretCipher

variable (cipher : AesGcmSecretCipher)

/-- `_associated_data`. -/
def associatedData (data : Option Bytes) : Bytes :=
  utf8 "tg-vlm-curator\x00" ++ utf8 cipher.keyId ++ utf8 "\x00" ++ data.getD []

/-- `encrypt`, with its random nonce. -/
def encrypt (nonce plaintext : Bytes) (data : Option Bytes) : Except VaultError EncryptedPayload :=
  if plaintext = [] then .error (.valueError "secret plaintext must be non-empty bytes")
  else
    EncryptedPayloadFields.create
      { ciphertext := cipher.aesGcm.encrypt nonce plaintext (cipher.associatedData data)
        nonce
        keyId := cipher.keyId }

/-- `decrypt`. -/
def decrypt (payload : EncryptedPayload) (data : Option Bytes) : Except VaultError Bytes :=
  if payload.keyId ≠ cipher.keyId then
    .error (.secretDecryption "secret was encrypted with an unavailable key")
  else
    match cipher.aesGcm.decrypt payload.nonce payload.ciphertext (cipher.associatedData data) with
    | none => .error (.secretDecryption "secret authentication failed")
    | some plaintext => .ok plaintext

/-- The associated data of a secret of a type. -/
def dataOf (secretType : String) : Bytes :=
  cipher.associatedData (some (utf8 secretType))

variable {cipher}

/-- The associated data tells the type. -/
theorem data_injective : Function.Injective cipher.dataOf := by
  intro a b h
  exact utf8_injective (List.append_cancel_left h)

theorem decrypt_eq_ok {payload : EncryptedPayload} {data : Option Bytes} {plaintext : Bytes} :
    cipher.decrypt payload data = .ok plaintext ↔ payload.keyId = cipher.keyId ∧
      cipher.aesGcm.decrypt payload.nonce payload.ciphertext (cipher.associatedData data) =
        some plaintext := by
  unfold decrypt
  split_ifs with hkey
  · exact ⟨fun h => (by cases h), fun h => absurd h.1 hkey⟩
  · rw [not_not] at hkey
    cases cipher.aesGcm.decrypt payload.nonce payload.ciphertext (cipher.associatedData data) with
    | none => exact ⟨fun h => (by cases h), fun h => (by cases h.2)⟩
    | some found =>
      rw [Except.ok.injEq, Option.some.injEq]
      exact ⟨fun h => ⟨hkey, h⟩, And.right⟩

end AesGcmSecretCipher

/-! ## The vault -/

/-- `EncryptedSecret`. -/
structure EncryptedSecret where
  secretType : String
  ciphertext : Bytes
  nonce : Bytes
  keyId : String

/-- The payload of a row. -/
def EncryptedSecret.payload (row : EncryptedSecret) : EncryptedPayloadFields :=
  ⟨row.ciphertext, row.nonce, row.keyId⟩

/-- `_normalize_secret_type`. -/
def normalizeSecretType (secretType : String) : Except VaultError String :=
  let normalized := strip secretType
  if normalized = "" then .error (.valueError "secret_type must not be blank")
  else if 64 < normalized.length then
    .error (.valueError "secret_type must be at most 64 characters")
  else .ok normalized

/-- The secrets of the table. -/
abbrev SecretTable := Dict ℕ EncryptedSecret

section

variable (cipher : AesGcmSecretCipher)

/-- The row of a secret. -/
def encryptedSecret (secretType : String) (payload : EncryptedPayload) : EncryptedSecret where
  secretType := secretType
  ciphertext := payload.ciphertext
  nonce := payload.nonce
  keyId := payload.keyId

/-- `store`, under a new id. -/
def store (secrets : SecretTable) (secretId : ℕ) (secretType : String) (plaintext nonce : Bytes) :
    Except VaultError SecretTable := do
  let normalizedType ← normalizeSecretType secretType
  let payload ← cipher.encrypt nonce plaintext (some (utf8 normalizedType))
  if secretId ∈ secrets.keys then .error .integrityError
  else .ok (secrets.set secretId (encryptedSecret normalizedType payload))

/-- The expected type of `resolve`. -/
def normalizeExpected : Option String → Except VaultError (Option String)
  | none => .ok none
  | some expected => some <$> normalizeSecretType expected

/-- `resolve`. -/
def resolve (secrets : SecretTable) (secretId : ℕ) (expectedSecretType : Option String) :
    Except VaultError Bytes := do
  let expected ← normalizeExpected expectedSecretType
  match secrets.lookup secretId with
  | none => .error .secretNotFound
  | some secret =>
    if expected.any (secret.secretType ≠ ·) then .error .secretTypeMismatch
    else do
      let payload ← secret.payload.create
      cipher.decrypt payload (some (utf8 secret.secretType))

end

/-! ## Stored secrets -/

/-- A secret that was stored. -/
structure Stored where
  id : ℕ
  secretType : String
  plaintext : Bytes
  nonce : Bytes

variable {cipher : AesGcmSecretCipher}

theorem normalizeSecretType_eq_ok {secretType normalizedType : String}
    (h : normalizeSecretType secretType = .ok normalizedType) :
    normalizedType = strip secretType := by
  unfold normalizeSecretType at h
  dsimp only at h
  split_ifs at h
  exact (Except.ok.inj h).symm

/-- A sealed secret is a payload if its nonce has the length of one. -/
theorem postInit_encrypt {nonce : Bytes} (hnonce : nonce.length = 12) (plaintext data : Bytes) :
    EncryptedPayloadFields.postInit
      ⟨cipher.aesGcm.encrypt nonce plaintext data, nonce, cipher.keyId⟩ = .ok () := by
  have hlength : ¬ (cipher.aesGcm.encrypt nonce plaintext data).length < 16 := by
    rw [cipher.aesGcm.length_encrypt]
    omega
  unfold EncryptedPayloadFields.postInit
  rw [if_neg hlength, if_neg (not_not.mpr hnonce), cipher.keyId_nonblank]
  rfl

theorem EncryptedPayload.length_nonce (payload : EncryptedPayload) :
    payload.nonce.length = 12 := by
  have h := payload.checked
  unfold EncryptedPayloadFields.postInit at h
  split_ifs at h with hlength hnonce
  exact not_not.mp hnonce

theorem encrypt_eq_ok {nonce plaintext : Bytes} {data : Option Bytes} {payload : EncryptedPayload} :
    cipher.encrypt nonce plaintext data = .ok payload ↔ plaintext ≠ [] ∧
      payload.toEncryptedPayloadFields =
        ⟨cipher.aesGcm.encrypt nonce plaintext (cipher.associatedData data), nonce, cipher.keyId⟩ := by
  unfold AesGcmSecretCipher.encrypt
  split_ifs with hempty
  · exact ⟨fun h => (by cases h), fun h => absurd hempty h.1⟩
  · rw [EncryptedPayloadFields.create_eq_ok]
    exact (and_iff_right hempty).symm

/-- The row of a stored secret. -/
def Stored.row (cipher : AesGcmSecretCipher) (e : Stored) : EncryptedSecret where
  secretType := e.secretType
  ciphertext := cipher.aesGcm.encrypt e.nonce e.plaintext (cipher.dataOf e.secretType)
  nonce := e.nonce
  keyId := cipher.keyId

/-- What the cipher sealed for a stored secret. -/
def Stored.sealed (cipher : AesGcmSecretCipher) (e : Stored) : Aead.Sealed Bytes Bytes Bytes :=
  ⟨e.nonce, e.plaintext, cipher.dataOf e.secretType⟩

theorem store_eq_ok {secrets secrets' : SecretTable} {secretId : ℕ} {secretType : String}
    {plaintext nonce : Bytes} :
    store cipher secrets secretId secretType plaintext nonce = .ok secrets' ↔
      normalizeSecretType secretType = .ok (strip secretType) ∧ plaintext ≠ [] ∧
        nonce.length = 12 ∧ secretId ∉ secrets.keys ∧
          secrets' = secrets.set secretId
            (Stored.row cipher ⟨secretId, strip secretType, plaintext, nonce⟩) := by
  unfold store
  simp only [bind_eq_ok]
  constructor
  · rintro ⟨normalizedType, htype, payload, hencrypt, h⟩
    obtain rfl := normalizeSecretType_eq_ok htype
    obtain ⟨hplaintext, hfields⟩ := encrypt_eq_ok.mp hencrypt
    split_ifs at h with hmem
    refine ⟨htype, hplaintext, ?_, hmem, ?_⟩
    · have hlength := payload.length_nonce
      rwa [hfields] at hlength
    · rw [← Except.ok.inj h, encryptedSecret, hfields]
      rfl
  · rintro ⟨htype, hplaintext, hnonce, hmem, rfl⟩
    refine ⟨_, htype, ⟨_, postInit_encrypt hnonce plaintext _⟩,
      encrypt_eq_ok.mpr ⟨hplaintext, rfl⟩, ?_⟩
    rw [if_neg hmem]
    rfl

/-- A secret that resolves has the expected type, and the cipher opens its row. -/
theorem resolve_eq_ok {secrets : SecretTable} {secretId : ℕ} {expected : Option String}
    {plaintext : Bytes} (h : resolve cipher secrets secretId expected = .ok plaintext) :
    ∃ row, secrets.lookup secretId = some row ∧
      (∀ t, expected = some t → normalizeSecretType t = .ok row.secretType) ∧
        cipher.aesGcm.decrypt row.nonce row.ciphertext (cipher.dataOf row.secretType) =
          some plaintext := by
  obtain ⟨expected', hexpected, h⟩ := bind_eq_ok.mp h
  cases hrow : secrets.lookup secretId with
  | none =>
    rw [hrow] at h
    cases h
  | some row =>
    rw [hrow] at h
    dsimp only at h
    split_ifs at h with hmismatch
    obtain ⟨payload, hpayload, h⟩ := bind_eq_ok.mp h
    rw [EncryptedPayloadFields.create_eq_ok] at hpayload
    obtain ⟨-, hopen⟩ := AesGcmSecretCipher.decrypt_eq_ok.mp h
    rw [hpayload] at hopen
    refine ⟨row, rfl, ?_, hopen⟩
    rintro t rfl
    cases ht : normalizeSecretType t with
    | error e =>
      rw [normalizeExpected, ht] at hexpected
      cases hexpected
    | ok t' =>
      rw [normalizeExpected, ht] at hexpected
      obtain rfl := Except.ok.inj hexpected
      have heq : row.secretType = t' := by simpa using hmismatch
      rw [heq]

/-- The row of a stored secret resolves to it, with its own type only. -/
theorem resolve_row {secrets : SecretTable} {e : Stored} (hnonce : e.nonce.length = 12)
    (hrow : secrets.lookup e.id = some (e.row cipher)) :
    resolve cipher secrets e.id none = .ok e.plaintext ∧
      ∀ t t', normalizeSecretType t = .ok t' → resolve cipher secrets e.id (some t) =
        if t' = e.secretType then .ok e.plaintext else .error .secretTypeMismatch := by
  have hpayload : (e.row cipher).payload.create = .ok ⟨_, postInit_encrypt hnonce e.plaintext _⟩ :=
    EncryptedPayloadFields.create_eq_ok.mpr rfl
  have hdecrypt : (do
      let payload ← (e.row cipher).payload.create
      cipher.decrypt payload (some (utf8 e.secretType))) = .ok e.plaintext := by
    rw [hpayload]
    exact AesGcmSecretCipher.decrypt_eq_ok.mpr ⟨rfl, cipher.aesGcm.decrypt_encrypt _ _ _⟩
  refine ⟨?_, fun t t' ht => ?_⟩
  · unfold resolve
    rw [hrow]
    exact hdecrypt
  · have hexpected : normalizeExpected (some t) = .ok (some t') := by
      rw [normalizeExpected, ht]
      rfl
    unfold resolve
    rw [hexpected, hrow]
    by_cases htype : t' = e.secretType
    · subst htype
      rw [if_pos rfl]
      refine Eq.trans (if_neg ?_) hdecrypt
      simp [Stored.row]
    · rw [if_neg htype]
      exact if_pos (decide_eq_true (Ne.symm htype))

/-! ## Runs -/

/-- The table, and the secrets that the vault stored. -/
structure State where
  secrets : SecretTable := []
  stored : List Stored := []

/-- What can happen to the table. -/
inductive Action
  /-- a call of `store`, with the id and the nonce that are drawn -/
  | store (secretId : ℕ) (secretType : String) (plaintext nonce : Bytes)
  /-- another client writes or deletes a row -/
  | write (secretId : ℕ) (row : Option EncryptedSecret)

section

variable (cipher)

/-- One step. A call that raises stores nothing. -/
def step (s : State) : Action → Option State
  | .store secretId secretType plaintext nonce =>
    match Secrets.store cipher s.secrets secretId secretType plaintext nonce with
    | .error _ => some s
    | .ok secrets =>
      some ⟨secrets, s.stored ++ [⟨secretId, strip secretType, plaintext, nonce⟩]⟩
  | .write secretId none => some { s with secrets := s.secrets.erase secretId }
  | .write secretId (some row) => some { s with secrets := s.secrets.set secretId row }

/-- The cipher opens a row only if it was sealed for a stored secret. -/
def State.Opens (s : State) (row : EncryptedSecret) : Prop :=
  cipher.aesGcm.Unforged (s.stored.map (·.sealed cipher)) row.nonce row.ciphertext
    (cipher.dataOf row.secretType)

/-- Other clients write no ciphertext of their own that the cipher opens. -/
def Unforged (s : State) : Action → Prop
  | .write _ (some row) => s.Opens cipher row
  | _ => True

end

variable {s s' : State} {a : Action}

/-- What a step does: a secret is stored in a new row, or a row is written, or nothing. -/
theorem step_cases (h : step cipher s a = some s') :
    (∃ e : Stored, e.nonce.length = 12 ∧ e.id ∉ s.secrets.keys ∧
      s' = ⟨s.secrets.set e.id (e.row cipher), s.stored ++ [e]⟩) ∨
      s' = s ∨ (∃ id, a = .write id none ∧ s' = { s with secrets := s.secrets.erase id }) ∨
        ∃ id row, a = .write id (some row) ∧ s' = { s with secrets := s.secrets.set id row } := by
  cases a with
  | store secretId secretType plaintext nonce =>
    dsimp only [step] at h
    split at h
    · exact .inr (.inl (Option.some.inj h).symm)
    · next secrets hstore =>
      obtain ⟨-, -, hnonce, hmem, rfl⟩ := store_eq_ok.mp hstore
      exact .inl ⟨⟨secretId, strip secretType, plaintext, nonce⟩, hnonce, hmem,
        (Option.some.inj h).symm⟩
  | write secretId row =>
    cases row with
    | none => exact .inr (.inr (.inl ⟨secretId, rfl, (Option.some.inj h).symm⟩))
    | some row => exact .inr (.inr (.inr ⟨secretId, row, rfl, (Option.some.inj h).symm⟩))

/-- Every row that the cipher opens was sealed for a stored secret. -/
def AllOpen (cipher : AesGcmSecretCipher) (s : State) : Prop :=
  ∀ id row, s.secrets.lookup id = some row → s.Opens cipher row

theorem AllOpen.step (h : AllOpen cipher s) (hunforged : Unforged cipher s a)
    (hstep : step cipher s a = some s') : AllOpen cipher s' := by
  intro id row hrow
  rcases step_cases hstep with ⟨e, -, -, rfl⟩ | rfl | ⟨id', -, rfl⟩ | ⟨id', row', rfl, rfl⟩
  · rcases Dict.of_lookup_set hrow with ⟨-, rfl⟩ | ⟨-, hold⟩
    · exact Aead.unforged_encrypt (List.mem_map_of_mem (List.mem_append_right _ List.mem_cons_self))
    · exact (h id row hold).mono (List.map_subset _ (List.subset_append_left _ _))
  · exact h id row hrow
  · exact h id row (Dict.of_lookup_erase hrow).2
  · rcases Dict.of_lookup_set hrow with ⟨-, rfl⟩ | ⟨-, hold⟩
    · exact hunforged
    · exact h id row hold

/-- The stored secrets whose rows nobody else writes are in their rows. -/
def Kept (cipher : AesGcmSecretCipher) (written : ℕ → Prop) (s : State) : Prop :=
  ∀ e ∈ s.stored, e.nonce.length = 12 ∧
    (¬ written e.id → s.secrets.lookup e.id = some (e.row cipher))

theorem Kept.step {written : ℕ → Prop} (h : Kept cipher written s)
    (hwritten : ∀ id row, a = .write id row → written id) (hstep : step cipher s a = some s') :
    Kept cipher written s' := by
  intro e he
  rcases step_cases hstep with ⟨e', hnonce, hnew, rfl⟩ | rfl | ⟨id', rfl, rfl⟩ |
    ⟨id', row', rfl, rfl⟩
  · rcases List.mem_append.mp he with hold | hlast
    · refine ⟨(h e hold).1, fun hid => ?_⟩
      have hrow := (h e hold).2 hid
      -- the row of the older secret has another id
      have hne : e.id ≠ e'.id := fun heq =>
        hnew (heq ▸ Dict.mem_keys.mpr ⟨_, Dict.mem_of_lookup hrow⟩)
      exact (Dict.lookup_set_of_ne hne _ _).trans hrow
    · obtain rfl := List.mem_singleton.mp hlast
      exact ⟨hnonce, fun _ => Dict.lookup_set_self _ _ _⟩
  · exact h e he
  · refine ⟨(h e he).1, fun hid => ?_⟩
    have hne : e.id ≠ id' := fun heq => hid (heq ▸ hwritten id' none rfl)
    exact (Dict.lookup_erase_of_ne hne _).trans ((h e he).2 hid)
  · refine ⟨(h e he).1, fun hid => ?_⟩
    have hne : e.id ≠ id' := fun heq => hid (heq ▸ hwritten id' _ rfl)
    exact (Dict.lookup_set_of_ne hne _ _).trans ((h e he).2 hid)

/-- Whatever others write to the table, short of forging a ciphertext, a secret that resolves is
a stored one, of the type of its row and of the expected type. A secret whose row nobody else
writes resolves to what was stored, with its own type only. -/
theorem resolved_secrets {actions : List Action}
    (hunforged : Runs.Along (step cipher) (Unforged cipher) {} actions)
    (hrun : Runs.run (step cipher) {} actions = some s) :
    (∀ id expected plaintext, resolve cipher s.secrets id expected = .ok plaintext →
      ∃ e ∈ s.stored, e.plaintext = plaintext ∧
        (∃ row, s.secrets.lookup id = some row ∧ row.secretType = e.secretType) ∧
          ∀ t, expected = some t → normalizeSecretType t = .ok e.secretType) ∧
    ∀ e ∈ s.stored, (∀ row, Action.write e.id row ∉ actions) →
      resolve cipher s.secrets e.id none = .ok e.plaintext ∧
        ∀ t t', normalizeSecretType t = .ok t' → resolve cipher s.secrets e.id (some t) =
          if t' = e.secretType then .ok e.plaintext else .error .secretTypeMismatch := by
  constructor
  · intro id expected plaintext hresolve
    have hopen : AllOpen cipher s := Runs.run_invariant
      (fun _ _ _ h hunforged hstep => h.step hunforged hstep) (fun _ _ h => by cases h)
      hunforged hrun
    obtain ⟨row, hrow, hexpected, hdecrypt⟩ := resolve_eq_ok hresolve
    obtain ⟨e, he, heq⟩ := List.mem_map.mp (Aead.mem_of_decrypt (hopen id row hrow) hdecrypt)
    obtain ⟨-, hplaintext, hdata⟩ := Aead.Sealed.mk.inj heq
    have htype : row.secretType = e.secretType :=
      (AesGcmSecretCipher.data_injective hdata).symm
    exact ⟨e, he, hplaintext, ⟨row, hrow, htype⟩, fun t ht => htype ▸ hexpected t ht⟩
  · intro e he hwritten
    have hkept : Kept cipher (fun id => ∃ row, Action.write id row ∈ actions) s := by
      refine Runs.run_invariant (fun _ a _ h (ha : a ∈ actions) hstep => h.step ?_ hstep)
        (fun _ h => by cases h) (Runs.along_of_mem (fun a ha _ => ha) _) hrun
      rintro id row rfl
      exact ⟨row, ha⟩
    have hmem := hkept e he
    exact resolve_row hmem.1 (hmem.2 fun ⟨row, hrow⟩ => hwritten row hrow)

/-! ## Two rows of one type -/

theorem step_store {secretId : ℕ} {secretType : String} {plaintext nonce : Bytes}
    (htype : normalizeSecretType secretType = .ok (strip secretType)) (hplaintext : plaintext ≠ [])
    (hnonce : nonce.length = 12) (hnew : secretId ∉ s.secrets.keys) :
    step cipher s (.store secretId secretType plaintext nonce) =
      some ⟨s.secrets.set secretId
        (Stored.row cipher ⟨secretId, strip secretType, plaintext, nonce⟩),
          s.stored ++ [⟨secretId, strip secretType, plaintext, nonce⟩]⟩ := by
  rw [step, store_eq_ok.mpr ⟨htype, hplaintext, hnonce, hnew, rfl⟩]

/-- The last bytes of what is authenticated. -/
def sampleTag (nonce data : Bytes) : Bytes :=
  (List.replicate 16 0 ++ nonce ++ data).reverse.take 16

theorem length_sampleTag (nonce data : Bytes) : (sampleTag nonce data).length = 16 := by
  simp only [sampleTag, List.length_take, List.length_reverse, List.length_append,
    List.length_replicate]
  omega

/-- A cipher that only authenticates. -/
def sampleCipher : AesGcmSecretCipher where
  keyId := "primary"
  aesGcm :=
    { encrypt nonce plaintext data := plaintext ++ sampleTag nonce data
      decrypt nonce ciphertext data :=
        if ciphertext.drop (ciphertext.length - 16) = sampleTag nonce data then
          some (ciphertext.take (ciphertext.length - 16))
        else none
      decrypt_encrypt := by simp [length_sampleTag]
      length_encrypt := by simp [length_sampleTag] }
  keyId_stripped := by decide +kernel
  keyId_nonblank := by decide +kernel
  keyId_length := by decide +kernel

/-- An API key. -/
def sampleSecret (secretId : ℕ) (plaintext : Bytes) : Stored :=
  ⟨secretId, strip "api", plaintext, List.replicate 12 0⟩

/-- Three API keys are stored, and the rows of the first two are exchanged. -/
def exchanged : List Action :=
  [.store 1 "api" [1] (List.replicate 12 0), .store 2 "api" [2] (List.replicate 12 0),
    .store 3 "api" [3] (List.replicate 12 0),
    .write 1 (some ((sampleSecret 2 [2]).row sampleCipher)),
    .write 2 (some ((sampleSecret 1 [1]).row sampleCipher))]

theorem run_exchanged : ∃ s, Runs.run (step sampleCipher) {} exchanged = some s ∧
    Runs.Along (step sampleCipher) (Unforged sampleCipher) {} exchanged ∧
      s.stored = [sampleSecret 1 [1], sampleSecret 2 [2], sampleSecret 3 [3]] ∧
        s.secrets.lookup 1 = some ((sampleSecret 1 [2]).row sampleCipher) ∧
        s.secrets.lookup 2 = some ((sampleSecret 2 [1]).row sampleCipher) := by
  have htype : normalizeSecretType "api" = .ok (strip "api") := by decide +kernel
  have hfirst : step sampleCipher {} (.store 1 "api" [1] (List.replicate 12 0)) = some _ :=
    step_store htype (by decide) rfl (by decide)
  have hsecond : step sampleCipher
      ⟨[(1, (sampleSecret 1 [1]).row sampleCipher)], [sampleSecret 1 [1]]⟩
      (.store 2 "api" [2] (List.replicate 12 0)) = some _ :=
    step_store htype (by decide) rfl (by decide)
  have hthird : step sampleCipher
      ⟨[(1, (sampleSecret 1 [1]).row sampleCipher), (2, (sampleSecret 2 [2]).row sampleCipher)],
        [sampleSecret 1 [1], sampleSecret 2 [2]]⟩
      (.store 3 "api" [3] (List.replicate 12 0)) = some _ :=
    step_store htype (by decide) rfl (by decide)
  refine ⟨_, Runs.run_cons.mpr ⟨_, hfirst, Runs.run_cons.mpr ⟨_, hsecond,
      Runs.run_cons.mpr ⟨_, hthird, rfl⟩⟩⟩, ?_, rfl, rfl, rfl⟩
  refine Runs.along_cons trivial hfirst (Runs.along_cons trivial hsecond
    (Runs.along_cons trivial hthird (Runs.along_cons ?_ rfl (Runs.along_cons ?_ rfl trivial))))
  · exact Aead.unforged_encrypt (List.mem_cons_of_mem _ List.mem_cons_self)
  · exact Aead.unforged_encrypt List.mem_cons_self

/-- The first two ids resolve to each other's key, the third one to its own. -/
theorem resolved_secrets_exchanged :
    ∃ s, Runs.run (step sampleCipher) {} exchanged = some s ∧
      resolve sampleCipher s.secrets 1 none = .ok [2] ∧
      resolve sampleCipher s.secrets 2 none = .ok [1] ∧
      resolve sampleCipher s.secrets 3 none = .ok [3] ∧ ∃ e ∈ s.stored, e.plaintext = [2] := by
  obtain ⟨s, hrun, hunforged, hstored, hrow, hrow'⟩ := run_exchanged
  obtain ⟨hresolved, hkept⟩ := resolved_secrets hunforged hrun
  have hfirst : resolve sampleCipher s.secrets 1 none = .ok [2] :=
    (@resolve_row sampleCipher s.secrets (sampleSecret 1 [2]) rfl hrow).1
  have hsecond : resolve sampleCipher s.secrets 2 none = .ok [1] :=
    (@resolve_row sampleCipher s.secrets (sampleSecret 2 [1]) rfl hrow').1
  have hmem : sampleSecret 3 [3] ∈ s.stored := by simp [hstored]
  have hthird := (hkept _ hmem fun row hrow => by simp [exchanged, sampleSecret] at hrow).1
  obtain ⟨e, he, hplaintext, -⟩ := hresolved 1 none [2] hfirst
  exact ⟨s, hrun, hfirst, hsecond, hthird, e, he, hplaintext⟩

end Secrets

end TgCurator
