import Mathlib.Tactic.Common

/-!
# Ideal authenticated encryption

An ideal cipher is known by what was sealed with it: a body opens under a key, a nonce and additional
data exactly when it was sealed under them, and two different sealings never have the same nonce and
body. The body is no function of what was sealed.

* **`Sealing`** — one encryption.
* **`IdealCipher`** — the encryptions made, and `decrypt`.
* **`IdealCipher.opened`** — what opens is one of the encryptions made, and the only one of its body.
-/

namespace Foundations

/-- One encryption: what went in, and the body that came out. -/
structure Sealing where
  key : List UInt8
  nonce : List UInt8
  additional : List UInt8
  plaintext : List UInt8
  body : List UInt8
deriving DecidableEq

/-- A sealing under a key, a nonce and additional data, with a body. -/
def Sealing.fits (key nonce additional body : List UInt8) (s : Sealing) : Bool :=
  decide (s.key = key ∧ s.nonce = nonce ∧ s.additional = additional ∧ s.body = body)

theorem Sealing.fits_iff {key nonce additional body : List UInt8} {s : Sealing} :
    s.fits key nonce additional body = true ↔
      s.key = key ∧ s.nonce = nonce ∧ s.additional = additional ∧ s.body = body := decide_eq_true_iff

/-- The encryptions made with a cipher, and its decryption. -/
structure IdealCipher where
  made : Sealing → Prop
  decrypt : (key nonce additional body : List UInt8) → Option (List UInt8)
  opens : ∀ s, made s ↔ decrypt s.key s.nonce s.additional s.body = some s.plaintext
  apart : ∀ s t, made s → made t → s.nonce = t.nonce → s.body = t.body → s = t

namespace IdealCipher

variable (cipher : IdealCipher)

/-- What opens was sealed so. -/
theorem opened {key nonce additional body plaintext : List UInt8}
    (h : cipher.decrypt key nonce additional body = some plaintext) :
    cipher.made ⟨key, nonce, additional, plaintext, body⟩ :=
  (cipher.opens ⟨key, nonce, additional, plaintext, body⟩).mpr h

/-- The body of an encryption opens only as that encryption. -/
theorem opened_eq {s : Sealing} (hs : cipher.made s) {key additional plaintext : List UInt8}
    (h : cipher.decrypt key s.nonce additional s.body = some plaintext) :
    key = s.key ∧ additional = s.additional ∧ plaintext = s.plaintext := by
  have heq := cipher.apart _ _ (cipher.opened h) hs rfl rfl
  rw [← heq]
  exact ⟨rfl, rfl, rfl⟩

/-- A cipher by the list of the encryptions made. -/
def ofList (sealings : List Sealing)
    (apart : ∀ s ∈ sealings, ∀ t ∈ sealings, s.nonce = t.nonce → s.body = t.body → s = t) :
    IdealCipher where
  made s := s ∈ sealings
  decrypt key nonce additional body :=
    (sealings.find? (Sealing.fits key nonce additional body)).map Sealing.plaintext
  opens s := by
    rw [Option.map_eq_some_iff]
    constructor
    · intro hs
      have hsome : (sealings.find? (Sealing.fits s.key s.nonce s.additional s.body)).isSome := by
        rw [List.find?_isSome]
        exact ⟨s, hs, decide_eq_true ⟨rfl, rfl, rfl, rfl⟩⟩
      obtain ⟨t, ht⟩ := Option.isSome_iff_exists.mp hsome
      obtain ⟨-, hnonce, -, hbody⟩ := Sealing.fits_iff.mp (List.find?_some ht)
      have heq := apart t (List.mem_of_find?_eq_some ht) s hs hnonce hbody
      exact ⟨t, ht, by rw [heq]⟩
    · rintro ⟨t, ht, hplaintext⟩
      obtain ⟨hkey, hnonce, hadditional, hbody⟩ := Sealing.fits_iff.mp (List.find?_some ht)
      have heq : t = s := by
        cases t
        cases s
        simp only at hkey hnonce hadditional hbody hplaintext
        rw [hkey, hnonce, hadditional, hbody, hplaintext]
      rw [← heq]
      exact List.mem_of_find?_eq_some ht
  apart s t hs ht := apart s hs t ht

end IdealCipher

end Foundations
