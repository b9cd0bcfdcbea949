import AwfulChat.Library.JsText

/-!
# Ideal authenticated encryption

Encryption is a function that adds a tag of sixteen bytes and never maps two
plaintexts to one ciphertext. Decryption is ideal: it opens exactly what some call
of the log encrypted, under the key, the IV and the additional data of that call.
The log is whatever has been encrypted anywhere.
-/

namespace AwfulChat.Library

set_option autoImplicit false

structure Aead where
  encrypt : Bytes → Bytes → Bytes → Bytes → Bytes
  length : ∀ key iv aad plain, (encrypt key iv aad plain).length = plain.length + 16
  injective : ∀ key iv aad, Function.Injective (encrypt key iv aad)

structure EncryptCall where
  key : Bytes
  iv : Bytes
  aad : Bytes
  plain : Bytes
  deriving DecidableEq

namespace Aead

/-- The ciphertext that a call returned. -/
def output (aead : Aead) (call : EncryptCall) : Bytes :=
  aead.encrypt call.key call.iv call.aad call.plain

def decrypt (aead : Aead) (log : List EncryptCall) (key iv aad cipher : Bytes) : Option Bytes :=
  (log.find? fun call => decide (call.key = key ∧ call.iv = iv ∧ call.aad = aad ∧
    aead.encrypt key iv aad call.plain = cipher)).map EncryptCall.plain

theorem decrypt_sound {aead : Aead} {log : List EncryptCall} {key iv aad cipher plain : Bytes}
    (opened : aead.decrypt log key iv aad cipher = some plain) :
    ⟨key, iv, aad, plain⟩ ∈ log ∧ cipher = aead.encrypt key iv aad plain := by
  obtain ⟨call, found, rfl⟩ := Option.map_eq_some_iff.mp opened
  have mem := List.mem_of_find?_eq_some found
  have matched := List.find?_some found
  simp only [decide_eq_true_eq] at matched
  obtain ⟨rfl, rfl, rfl, made⟩ := matched
  exact ⟨mem, made.symm⟩

theorem decrypt_output {aead : Aead} {log : List EncryptCall} {call : EncryptCall}
    (called : call ∈ log) :
    aead.decrypt log call.key call.iv call.aad (aead.output call) = some call.plain := by
  cases opened : aead.decrypt log call.key call.iv call.aad (aead.output call) with
  | none =>
    have nothing := Option.map_eq_none_iff.mp opened
    have refused := List.find?_eq_none.mp nothing _ called
    simp [output] at refused
  | some found =>
    have same := aead.injective call.key call.iv call.aad (decrypt_sound opened).2
    rw [same]

end Aead

end AwfulChat.Library
