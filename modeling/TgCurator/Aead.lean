import Mathlib.Data.List.Basic

/-!
# Authenticated ciphers

An authenticated cipher opens what it sealed, under the same nonce and associated data. That it
opens nothing else cannot be a law of the cipher, which is a function on all inputs. It is a
property of who writes ciphertexts (`Unforged`): a ciphertext that opens is one that was sealed,
with its nonce and its data. Then a plaintext that comes out is one that went in
(`mem_of_decrypt`).
-/

/-- An authenticated cipher under one key, with nonces, plaintexts, associated data and
ciphertexts. -/
structure Aead (N P A C : Type*) where
  encrypt : N → P → A → C
  decrypt : N → C → A → Option P
  decrypt_encrypt : ∀ nonce plaintext data,
    decrypt nonce (encrypt nonce plaintext data) data = some plaintext

namespace Aead

variable {N P A C : Type*}

/-- What was sealed. -/
structure Sealed (N P A : Type*) where
  nonce : N
  plaintext : P
  data : A

variable (cipher : Aead N P A C)

/-- A ciphertext opens only if it was sealed. -/
def Unforged (log : List (Sealed N P A)) (nonce : N) (ciphertext : C) (data : A) : Prop :=
  (cipher.decrypt nonce ciphertext data).isSome → ∃ e ∈ log, e.nonce = nonce ∧ e.data = data ∧
    cipher.encrypt e.nonce e.plaintext e.data = ciphertext

variable {cipher} {log log' : List (Sealed N P A)} {nonce : N} {plaintext : P} {data : A}
  {ciphertext : C}

theorem Unforged.mono (h : cipher.Unforged log nonce ciphertext data) (hlog : log ⊆ log') :
    cipher.Unforged log' nonce ciphertext data := by
  intro hopens
  obtain ⟨e, hmem, he⟩ := h hopens
  exact ⟨e, hlog hmem, he⟩

theorem unforged_encrypt (hmem : ⟨nonce, plaintext, data⟩ ∈ log) :
    cipher.Unforged log nonce (cipher.encrypt nonce plaintext data) data :=
  fun _ => ⟨_, hmem, rfl, rfl, rfl⟩

/-- A plaintext that comes out went in, with the same nonce and data. -/
theorem mem_of_decrypt (h : cipher.Unforged log nonce ciphertext data)
    (hopen : cipher.decrypt nonce ciphertext data = some plaintext) :
    ⟨nonce, plaintext, data⟩ ∈ log := by
  obtain ⟨e, hmem, rfl, rfl, rfl⟩ := h (by rw [hopen]; rfl)
  rw [cipher.decrypt_encrypt] at hopen
  exact Option.some.inj hopen ▸ hmem

end Aead
