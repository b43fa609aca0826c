import AgencCoordination.Foundations.JsonLines
import AgencCoordination.Sdk.DeliveryManifest

/-!
# Encrypted deliveries

A delivery comes back from its ciphertext under the key that fits and the manifest that was
published. From version 2 on the manifest is bound: its canonical JSON is what was authenticated.

* **`encryptDeliverableVersion_spec`** — what an encryption makes.
* **`decryptDeliverable_spec`** — what a decryption has checked.
* **`encrypted_delivery`** — round trip, binding, and that the manifest says nothing of the key.
-/

namespace AgencCoordination.Sdk

open Foundations
open Foundations.JsonValue (word)

/-! ## Hexadecimal -/

theorem hexUnit_facts : ∀ d < 16, isTrimmed (JsonValue.hexUnit d) = false ∧
    JsonValue.hexUnit d ≠ 0x2B ∧ JsonValue.hexUnit d ≠ 0x2D ∧ JsonValue.hexUnit d ≠ 0x78 ∧
    JsonValue.hexUnit d ≠ 0x58 ∧ isHexLower (JsonValue.hexUnit d) = true := by
  decide

theorem parseByte_hexUnit (b : UInt8) :
    parseByte (JsonValue.hexUnit (b.toNat / 16)) (JsonValue.hexUnit (b.toNat % 16)) = some b := by
  have hlt := b.toNat_lt
  have hhigh : b.toNat / 16 < 16 := by omega
  have hlow : b.toNat % 16 < 16 := by omega
  obtain ⟨htrimmed, hplus, hminus, -, -, -⟩ := hexUnit_facts _ hhigh
  obtain ⟨-, -, -, hx, hX, -⟩ := hexUnit_facts _ hlow
  have hnotPrefixed : ¬(JsonValue.hexUnit (b.toNat / 16) = 0x30 ∧
      (JsonValue.hexUnit (b.toNat % 16) = 0x78 ∨ JsonValue.hexUnit (b.toNat % 16) = 0x58)) :=
    fun h => h.2.elim hx hX
  rw [parseByte, if_neg (by rw [htrimmed]; exact Bool.false_ne_true), if_neg hplus, if_neg hminus,
    if_neg hnotPrefixed, JsonValue.hexValue_hexUnit hhigh, JsonValue.hexValue_hexUnit hlow,
    Option.map_some]
  have hsum : b.toNat / 16 * 16 + b.toNat % 16 = b.toNat := by omega
  simp only [hsum, UInt8.ofNat_toNat]

theorem parsePairs_hexText (index : ℕ) (bytes : List UInt8) :
    parsePairs index (hexText bytes) = .ok bytes := by
  induction bytes generalizing index with
  | nil => rfl
  | cons b rest ih =>
    rw [hexText, List.flatMap_cons, ← hexText, List.cons_append, List.cons_append, List.nil_append,
      parsePairs, parseByte_hexUnit, ih]
    rfl

theorem hexText_length (bytes : List UInt8) : (hexText bytes).length = 2 * bytes.length := by
  induction bytes with
  | nil => rfl
  | cons b rest ih =>
    rw [hexText, List.flatMap_cons, ← hexText, List.length_append, ih]
    change 2 + 2 * rest.length = 2 * (rest.length + 1)
    omega

/-- **`hexToBytes`** reads bytes back from their hexadecimal digits. -/
theorem hexToBytes_hexText (bytes : List UInt8) : hexToBytes (hexText bytes) = .ok bytes := by
  have hfront : ¬((hexText bytes).take 2 = word "0x" ∨ (hexText bytes).take 2 = word "0X") := by
    cases bytes with
    | nil =>
      rintro (h | h) <;> cases h
    | cons b rest =>
      have hlow : b.toNat % 16 < 16 := by omega
      obtain ⟨-, -, -, hx, hX, -⟩ := hexUnit_facts _ hlow
      change ¬([JsonValue.hexUnit (b.toNat / 16), JsonValue.hexUnit (b.toNat % 16)] = [0x30, 0x78] ∨
        [JsonValue.hexUnit (b.toNat / 16), JsonValue.hexUnit (b.toNat % 16)] = [0x30, 0x58])
      rintro (h | h)
      · exact hx (List.cons.inj (List.cons.inj h).2).1
      · exact hX (List.cons.inj (List.cons.inj h).2).1
  rw [hexToBytes]
  simp only [if_neg hfront]
  rw [require_bind_eq_ok]
  refine ⟨?_, parsePairs_hexText 0 bytes⟩
  rw [hexText_length, Nat.mul_mod_right]

/-- A hash in hexadecimal digits is one that a manifest may have. -/
theorem isPlaintextHash_sha256Hex (crypto : WebCrypto) (bytes : List UInt8) :
    isPlaintextHash (sha256Hex crypto bytes) = true := by
  have hall : (sha256Hex crypto bytes).all isHexLower = true := by
    rw [List.all_eq_true]
    intro u hu
    obtain ⟨b, -, hmem⟩ := List.mem_flatMap.mp hu
    have hlt := b.toNat_lt
    rcases List.mem_pair.mp hmem with rfl | rfl
    · exact (hexUnit_facts _ (by omega)).2.2.2.2.2
    · exact (hexUnit_facts _ (by omega)).2.2.2.2.2
  have hlength : (sha256Hex crypto bytes).length = 64 := by
    rw [sha256Hex, hexText_length, crypto.sha256_length]
  rw [isPlaintextHash, hall, hlength]
  rfl

/-! ## The manifest as it is read -/

namespace DeliveryManifest

/-- The members of a manifest. -/
def members (m : DeliveryManifest) : List (Utf16 × JsonValue) :=
  [(word "v", .number m.v.toNumber), (word "taskPda", .string m.taskPda),
      (word "ciphertextUri", .string m.ciphertextUri)] ++ optionalMember "previewUri" m.previewUri ++
    [(word "encAlgo", .string deliveryEncAlgo), (word "plaintextHash", .string m.plaintextHash),
      (word "keyWrap", m.keyWrap.toJson)]

theorem toJson_members (m : DeliveryManifest) : m.toJson = .object m.members := rfl

theorem versionOf_members (m : DeliveryManifest) : versionOf m.members = some m.v := by
  have hlookup : m.members.lookup (word "v") = some (.number m.v.toNumber) := rfl
  have hone : (Number.ofNat 1).safeInteger? = some 1 := Number.safeInteger_ofNat 1
  have htwo : (Number.ofNat 2).safeInteger? = some 2 := Number.safeInteger_ofNat 2
  rw [versionOf, hlookup]
  cases m.v with
  | one => simp only [DeliveryVersion.toNumber, hone, if_true]
  | two =>
    have hne : ¬(some (2 : ℤ) = some 1) := by decide
    simp only [DeliveryVersion.toNumber, htwo, if_true, if_neg hne]

theorem encAlgo_members (m : DeliveryManifest) :
    stringAt m.members "encAlgo" = some deliveryEncAlgo := by
  obtain ⟨v, taskPda, ciphertextUri, previewUri, plaintextHash, keyWrap⟩ := m
  cases previewUri <;> rfl

theorem plaintextHash_members (m : DeliveryManifest) :
    stringAt m.members "plaintextHash" = some m.plaintextHash := by
  obtain ⟨v, taskPda, ciphertextUri, previewUri, plaintextHash, keyWrap⟩ := m
  cases previewUri <;> rfl

theorem keyWrap_members (m : DeliveryManifest) :
    m.members.lookup (word "keyWrap") = some m.keyWrap.toJson := by
  obtain ⟨v, taskPda, ciphertextUri, previewUri, plaintextHash, keyWrap⟩ := m
  cases previewUri <;> rfl

end DeliveryManifest

theorem optionalMember_plain (key : String) (value : Option Utf16) :
    JsonValue.DistinctMembers (optionalMember key value) ∧
      JsonValue.isFiniteMembers (optionalMember key value) = true := by
  cases value with
  | none => exact ⟨trivial, rfl⟩
  | some s => exact ⟨⟨trivial, trivial⟩, rfl⟩

theorem DeliveryKeyWrap.toJson_plain (w : DeliveryKeyWrap) :
    w.toJson.Distinct ∧ w.toJson.isFinite = true := by
  cases w with
  | symmetric gateRef =>
    cases gateRef with
    | none =>
      have hkeys : [word "mode"].Nodup := by decide
      exact ⟨⟨hkeys, trivial, trivial⟩, rfl⟩
    | some s =>
      have hkeys : [word "mode", word "gateRef"].Nodup := by decide +kernel
      exact ⟨⟨hkeys, trivial, trivial, trivial⟩, rfl⟩
  | x25519 wrappedKey ephemeralPublicKey recipientPublicKey =>
    have hkeys : [word "mode", word "agreement", word "wrappedKey", word "ephemeralPublicKey",
        word "recipientPublicKey"].Nodup := by decide +kernel
    exact ⟨⟨hkeys, trivial, trivial, trivial, trivial, trivial, trivial⟩, rfl⟩

namespace DeliveryManifest

theorem toJson_distinct (m : DeliveryManifest) : m.toJson.Distinct := by
  obtain ⟨v, taskPda, ciphertextUri, previewUri, plaintextHash, keyWrap⟩ := m
  have hwrap := keyWrap.toJson_plain.1
  cases previewUri with
  | none =>
    have hkeys : [word "v", word "taskPda", word "ciphertextUri", word "encAlgo",
        word "plaintextHash", word "keyWrap"].Nodup := by decide +kernel
    exact ⟨hkeys, trivial, trivial, trivial, trivial, trivial, hwrap, trivial⟩
  | some uri =>
    have hkeys : [word "v", word "taskPda", word "ciphertextUri", word "previewUri",
        word "encAlgo", word "plaintextHash", word "keyWrap"].Nodup := by decide +kernel
    exact ⟨hkeys, trivial, trivial, trivial, trivial, trivial, trivial, hwrap, trivial⟩

theorem toJson_finite (m : DeliveryManifest) : m.toJson.isFinite = true := by
  obtain ⟨v, taskPda, ciphertextUri, previewUri, plaintextHash, keyWrap⟩ := m
  have hversion : ∀ n : ℕ, n ≤ 2 → (Number.ofNat n).isFinite = true := by
    intro n hn
    have hsafe := Number.safeInteger_ofNat n
    rw [if_pos (hn.trans (by decide))] at hsafe
    cases hnumber : Number.ofNat n with
    | finite negative size => rfl
    | infinite negative =>
      rw [hnumber] at hsafe
      cases hsafe
  have hnumber : v.toNumber.isFinite = true := by
    cases v with
    | one => exact hversion 1 (by decide)
    | two => exact hversion 2 (by decide)
  have hwrap := keyWrap.toJson_plain.2
  cases previewUri <;>
    simp only [toJson, optionalMember, JsonValue.isFinite, List.cons_append, List.nil_append,
      JsonValue.isFiniteMembers, hnumber, hwrap, Bool.true_and]

/-- The canonical text of a manifest. -/
def text (m : DeliveryManifest) : Utf16 := m.toJson.rebuilt.stringify

theorem canonical (m : DeliveryManifest) : canonicalJobSpecJson m.toJson = .ok m.text :=
  canonicalJobSpecJson_eq m.toJson_finite

/-- What is authenticated with the ciphertext of a version. -/
def additional (m : DeliveryManifest) : Option (List UInt8) :=
  match m.v with
  | .one => none
  | .two => some (utf8Encoder m.text)

theorem additionalData_eq (m : DeliveryManifest) :
    additionalData m.v m.toJson = .ok m.additional := by
  rw [additional]
  cases m.v with
  | one => rfl
  | two =>
    rw [additionalData, deliveryManifestV2Aad, m.canonical]
    rfl

end DeliveryManifest

/-- The text that is authenticated determines the manifest. -/
theorem additionalData_inj {v : DeliveryVersion} {manifest : JsonValue} {m : DeliveryManifest}
    {additional : Option (List UInt8)} (hdistinct : manifest.Distinct) (hversion : m.v = .two)
    (h : additionalData v manifest = .ok additional)
    (hsame : additional.getD [] = m.additional.getD []) : manifest.Equal m.toJson := by
  have hpublished : m.additional.getD [] = utf8Encoder m.text := by
    rw [DeliveryManifest.additional, hversion]
    rfl
  rw [hpublished] at hsame
  have hprintable : ∀ {w : JsonValue} {t : Utf16}, canonicalJobSpecJson w = .ok t →
      Printable t ∧ t ≠ [] := by
    intro w t ht
    rw [canonicalJobSpecJson, bind_eq_ok] at ht
    obtain ⟨value, -, ht⟩ := ht
    rw [← Except.ok.inj ht]
    obtain ⟨u, rest, hcons, -⟩ := JsonValue.stringify_cons value
    exact ⟨JsonValue.stringify_printable value, by rw [hcons]; exact List.cons_ne_nil _ _⟩
  obtain ⟨hm, hne⟩ := hprintable m.canonical
  have hinj : ∀ {t : Utf16}, Printable t → utf8Encoder t = utf8Encoder m.text → t = m.text := by
    intro t ht heq
    have htext := Utf8.encode_injective heq
    rw [← Utf16.ofText_toText ht.wellFormed, htext, Utf16.ofText_toText hm.wellFormed]
  cases v with
  | one =>
    obtain rfl := Except.ok.inj h
    have hempty : utf8Encoder [] = utf8Encoder m.text := hsame
    exact absurd (hinj Printable.nil hempty).symm hne
  | two =>
    cases htext : canonicalJobSpecJson manifest with
    | error e =>
      rw [additionalData, deliveryManifestV2Aad, htext] at h
      cases h
    | ok text =>
      rw [additionalData, deliveryManifestV2Aad, htext] at h
      obtain rfl := Except.ok.inj h
      obtain rfl := hinj (hprintable htext).1 hsame
      exact canonicalJobSpecJson_inj hdistinct m.toJson_distinct htext m.canonical

/-! ## Encryption -/

section encryption

variable {crypto : WebCrypto} {coins : Coins} {version : DeliveryVersion} {plaintext : Plaintext}
variable {recipient : DeliveryRecipient} {metadata : DeliveryMeta}
variable {result : EncryptDeliverableResult}

/-- The encryption of the plaintext. -/
def contentSealing (coins : Coins) (plaintext : Plaintext) (result : EncryptDeliverableResult) :
    Sealing :=
  ⟨result.symKey, coins.iv, result.manifest.additional.getD [], plaintext.toBytes, coins.body⟩

/-- **What an encryption makes**: a blob under the key, and a manifest of the plaintext, the metadata
and the descriptor of the key. -/
structure Made (crypto : WebCrypto) (coins : Coins) (version : DeliveryVersion)
    (plaintext : Plaintext) (recipient : DeliveryRecipient) (metadata : DeliveryMeta)
    (result : EncryptDeliverableResult) : Prop where
  ciphertext : result.ciphertext = coins.iv ++ coins.body
  key : result.symKey.length = aesKeyBytes
  manifest : result.manifest = ⟨version, metadata.taskPda, metadata.ciphertextUri,
    metadata.previewUri, sha256Hex crypto plaintext.toBytes, result.manifest.keyWrap⟩
  wrap : ∃ sealings, wrapFor crypto coins metadata.gateRef recipient =
      .ok (result.symKey, result.manifest.keyWrap, sealings) ∧
    result.sealings = sealings ++ [contentSealing coins plaintext result]

theorem encryptDeliverableVersion_spec
    (h : encryptDeliverableVersion crypto coins version plaintext recipient metadata = .ok result) :
    Made crypto coins version plaintext recipient metadata result := by
  simp only [encryptDeliverableVersion, bind_eq_ok] at h
  obtain ⟨⟨symKey, keyWrap, sealings⟩, hwrap, additional, hadditional, blob, hblob, h⟩ := h
  rw [aesGcmEncrypt, importAesKey, require_bind_eq_ok] at hblob
  obtain ⟨hlength, hblob⟩ := hblob
  obtain rfl := Except.ok.inj hblob
  obtain rfl := Except.ok.inj h
  have hsame := (DeliveryManifest.additionalData_eq ⟨version, metadata.taskPda,
    metadata.ciphertextUri, metadata.previewUri, sha256Hex crypto plaintext.toBytes,
    keyWrap⟩).symm.trans hadditional
  refine ⟨rfl, hlength, rfl, sealings, hwrap, ?_⟩
  rw [← Except.ok.inj hsame]
  rfl

/-- The key that fits a delivery: its symmetric key, or the private key of its recipient. -/
inductive Fits (crypto : WebCrypto) (recipient : DeliveryRecipient)
    (result : EncryptDeliverableResult) : DeliveryDecryptKey → Prop
  | symKey : Fits crypto recipient result (.symKey result.symKey)
  | recipient (privateKey : List UInt8)
      (h : recipient = .recipientPublicKey (crypto.publicKey privateKey)) :
      Fits crypto recipient result (.recipient privateKey (crypto.publicKey privateKey))

/-- A sealed blob opens. -/
theorem aesGcmDecrypt_sealed {iv body key content : List UInt8} {additional : Option (List UInt8)}
    (hiv : iv.length = aesGcmIvBytes) (hkey : key.length = aesKeyBytes)
    (h : crypto.cipher.made ⟨key, iv, additional.getD [], content, body⟩) :
    aesGcmDecrypt crypto (iv ++ body) key additional = .ok content := by
  have hopens := (crypto.cipher.opens _).mp h
  rw [aesGcmDecrypt, require_bind_eq_ok, importAesKey, require_bind_eq_ok, demand_eq_ok,
    List.take_left' hiv, List.drop_left' hiv]
  refine ⟨?_, hkey, hopens⟩
  rw [List.length_append, hiv]
  exact Nat.le_add_right _ _

/-- **The key** is the one given, or the one unwrapped from the manifest. -/
theorem symKeyFor_fits (h : Made crypto coins version plaintext recipient metadata result)
    (hmade : ∀ s ∈ result.sealings, crypto.cipher.made s) {key : DeliveryDecryptKey}
    (hkey : Fits crypto recipient result key) :
    symKeyFor crypto result.manifest.members key = .ok result.symKey := by
  cases hkey with
  | symKey => rfl
  | recipient privateKey hrecipient =>
    obtain ⟨sealings, hwrap, hsealings⟩ := h.wrap
    rw [hrecipient, wrapFor, bind_eq_ok] at hwrap
    obtain ⟨⟨wrapped, sealing⟩, hwrapped, hresult⟩ := hwrap
    simp only [wrapKeyToPubkey, bind_eq_ok, require_eq_ok, demand_eq_ok] at hwrapped
    obtain ⟨_, -, shared, hshared, blob, hblob, hpair⟩ := hwrapped
    rw [aesGcmEncrypt, importAesKey, require_bind_eq_ok] at hblob
    obtain ⟨-, hblob⟩ := hblob
    obtain rfl := Except.ok.inj hblob
    obtain ⟨rfl, rfl⟩ := Prod.mk.inj (Except.ok.inj hpair)
    obtain ⟨hsymKey, hrest⟩ := Prod.mk.inj (Except.ok.inj hresult)
    obtain ⟨hdescriptor, hlist⟩ := Prod.mk.inj hrest
    -- The wrapping was made, so it opens under the key that both sides agree on.
    have hwrapping := hmade _ (by
      rw [hsealings, ← hlist]
      exact List.mem_append_left _ List.mem_cons_self)
    have hlookup : (result.manifest.members.lookup (word "keyWrap")).bind membersOf =
        membersOf result.manifest.keyWrap.toJson := by
      rw [result.manifest.keyWrap_members]
      rfl
    have hagreed : crypto.deriveBits privateKey (crypto.publicKey coins.ephemeral) = some shared := by
      rw [crypto.deriveBits_comm, hshared]
    simp only [symKeyFor, bind_eq_ok, demand_eq_ok, require_eq_ok]
    rw [hlookup, ← hdescriptor]
    refine ⟨_, rfl, (), rfl, _, rfl, _, hexToBytes_hexText _, _, rfl, _, hexToBytes_hexText _, ?_⟩
    rw [unwrapKeyWithPrivateKey, hagreed]
    change aesGcmDecrypt crypto _ _ none = _
    rw [← hsymKey]
    exact aesGcmDecrypt_sealed coins.wrapIv_length (crypto.hkdf_length _ _) hwrapping

end encryption

/-! ## Decryption -/

/-- **What a decryption has checked**: the blob opens under the key with the data of the manifest, and
the hash of the plaintext is the one in the manifest. -/
theorem decryptDeliverable_spec {crypto : WebCrypto} {ciphertext : List UInt8}
    {key : DeliveryDecryptKey} {manifest : JsonValue} {plaintext : List UInt8} :
    decryptDeliverable crypto ciphertext key (some manifest) = .ok plaintext ↔
      ∃ members version symKey additional, membersOf manifest = some members ∧
        versionOf members = some version ∧ stringAt members "encAlgo" = some deliveryEncAlgo ∧
        symKeyFor crypto members key = .ok symKey ∧
        additionalData version manifest = .ok additional ∧
        aesGcmDecrypt crypto ciphertext symKey additional = .ok plaintext ∧
        stringAt members "plaintextHash" = some (sha256Hex crypto plaintext) := by
  simp only [decryptDeliverable, bind_eq_ok, demand_eq_ok, require_eq_ok, Option.some.injEq]
  constructor
  · rintro ⟨_, rfl, members, hmembers, version, hversion, _, halgo, hash, hhash, symKey, hsymKey,
      additional, hadditional, opened, hopened, _, hsame, hresult⟩
    obtain rfl := Except.ok.inj hresult
    obtain ⟨hhash, -⟩ := Option.filter_eq_some_iff.mp hhash
    exact ⟨members, version, symKey, additional, hmembers, hversion, halgo, hsymKey, hadditional,
      hopened, by rw [hhash, hsame]⟩
  · rintro ⟨members, version, symKey, additional, hmembers, hversion, halgo, hsymKey, hadditional,
      hopened, hhash⟩
    refine ⟨_, rfl, members, hmembers, version, hversion, (), halgo, _, ?_, symKey, hsymKey,
      additional, hadditional, plaintext, hopened, (), rfl, rfl⟩
    rw [hhash]
    exact Option.filter_some_pos (isPlaintextHash_sha256Hex crypto plaintext)

/-- A blob that opens was sealed, with the data given. -/
theorem aesGcmDecrypt_opened {crypto : WebCrypto} {blob key plaintext : List UInt8}
    {additional : Option (List UInt8)}
    (h : aesGcmDecrypt crypto blob key additional = .ok plaintext) :
    ∃ nonce body, blob = nonce ++ body ∧ nonce.length = aesGcmIvBytes ∧
      crypto.cipher.made ⟨key, nonce, additional.getD [], plaintext, body⟩ := by
  rw [aesGcmDecrypt, require_bind_eq_ok, importAesKey, require_bind_eq_ok, demand_eq_ok] at h
  obtain ⟨hlength, -, hopens⟩ := h
  exact ⟨_, _, (List.take_append_drop _ _).symm, List.length_take_of_le hlength,
    crypto.cipher.opened hopens⟩

section delivery

variable {crypto : WebCrypto} {coins : Coins} {version : DeliveryVersion} {plaintext : Plaintext}
variable {recipient : DeliveryRecipient} {metadata : DeliveryMeta}
variable {result : EncryptDeliverableResult}

/-- **Round trip**: the key that fits and the published manifest give the plaintext back. -/
theorem decryptDeliverable_roundTrip
    (h : Made crypto coins version plaintext recipient metadata result)
    (hmade : ∀ s ∈ result.sealings, crypto.cipher.made s) {key : DeliveryDecryptKey}
    (hkey : Fits crypto recipient result key) :
    decryptDeliverable crypto result.ciphertext key (some result.manifest.toJson) =
      .ok plaintext.toBytes := by
  obtain ⟨sealings, -, hsealings⟩ := h.wrap
  have hcontent : crypto.cipher.made (contentSealing coins plaintext result) :=
    hmade _ (by rw [hsealings]; exact List.mem_append_right _ List.mem_cons_self)
  refine decryptDeliverable_spec.mpr ⟨result.manifest.members, result.manifest.v, result.symKey,
    result.manifest.additional, rfl, result.manifest.versionOf_members,
    result.manifest.encAlgo_members, symKeyFor_fits h hmade hkey,
    result.manifest.additionalData_eq, ?_, ?_⟩
  · rw [h.ciphertext]
    exact aesGcmDecrypt_sealed coins.iv_length h.key hcontent
  · rw [result.manifest.plaintextHash_members, h.manifest]

/-- **Binding**: a ciphertext of version 2 opens under manifests that are the published one as a JSON
value, and under no others, whatever the key. -/
theorem decryptDeliverable_bound
    (h : Made crypto coins .two plaintext recipient metadata result)
    (hmade : ∀ s ∈ result.sealings, crypto.cipher.made s) {key : DeliveryDecryptKey}
    {manifest : JsonValue} (hdistinct : manifest.Distinct) {opened : List UInt8}
    (hopened : decryptDeliverable crypto result.ciphertext key (some manifest) = .ok opened) :
    manifest.Equal result.manifest.toJson := by
  obtain ⟨members, version, symKey, additional, -, -, -, -, hadditional, hblob, -⟩ :=
    decryptDeliverable_spec.mp hopened
  obtain ⟨sealings, -, hsealings⟩ := h.wrap
  have hcontent : crypto.cipher.made (contentSealing coins plaintext result) :=
    hmade _ (by rw [hsealings]; exact List.mem_append_right _ List.mem_cons_self)
  obtain ⟨nonce, body, hsplit, hlength, hsealed⟩ := aesGcmDecrypt_opened hblob
  rw [h.ciphertext] at hsplit
  obtain ⟨hnonce, hbody⟩ := List.append_inj hsplit (coins.iv_length.trans hlength.symm)
  have heq := crypto.cipher.apart _ _ hsealed hcontent hnonce.symm hbody.symm
  have hversion : result.manifest.v = .two := by rw [h.manifest]
  exact additionalData_inj hdistinct hversion hadditional (congrArg Sealing.additional heq)

/-- Another ciphertext that opens under the published manifest was sealed under the same key with the
same data. -/
theorem decryptDeliverable_sealed
    (h : Made crypto coins version plaintext recipient metadata result)
    (hmade : ∀ s ∈ result.sealings, crypto.cipher.made s) {key : DeliveryDecryptKey}
    (hkey : Fits crypto recipient result key) {ciphertext opened : List UInt8}
    (hopened : decryptDeliverable crypto ciphertext key (some result.manifest.toJson) = .ok opened) :
    ∃ nonce body, ciphertext = nonce ++ body ∧
      crypto.cipher.made ⟨result.symKey, nonce, result.manifest.additional.getD [], opened, body⟩ := by
  obtain ⟨members, version', symKey, additional, hmembers, hversion, -, hsymKey, hadditional, hblob,
    -⟩ := decryptDeliverable_spec.mp hopened
  obtain rfl : result.manifest.members = members := Option.some.inj hmembers
  obtain rfl := Option.some.inj (result.manifest.versionOf_members.symm.trans hversion)
  obtain rfl := Except.ok.inj ((symKeyFor_fits h hmade hkey).symm.trans hsymKey)
  obtain rfl := Except.ok.inj (result.manifest.additionalData_eq.symm.trans hadditional)
  obtain ⟨nonce, body, hsplit, -, hsealed⟩ := aesGcmDecrypt_opened hblob
  exact ⟨nonce, body, hsplit, hsealed⟩

end delivery

/-! ## What the manifest says -/

/-- The descriptor of the key, from what is public of it. -/
def descriptor (crypto : WebCrypto) (coins : Coins) (gateRef : Option Utf16) :
    DeliveryRecipient → DeliveryKeyWrap
  | .symKey _ => .symmetric gateRef
  | .recipientPublicKey recipientPublicKey =>
    .x25519 (hexText (coins.wrapIv ++ coins.wrapBody)) (hexText (crypto.publicKey coins.ephemeral))
      (hexText recipientPublicKey)

/-- **The manifest** is made of the hash of the plaintext, the metadata and the descriptor. -/
theorem encryptDeliverableVersion_manifest {crypto : WebCrypto} {coins : Coins}
    {version : DeliveryVersion} {plaintext : Plaintext} {recipient : DeliveryRecipient}
    {metadata : DeliveryMeta} {result : EncryptDeliverableResult}
    (h : encryptDeliverableVersion crypto coins version plaintext recipient metadata = .ok result) :
    result.manifest = ⟨version, metadata.taskPda, metadata.ciphertextUri, metadata.previewUri,
      sha256Hex crypto plaintext.toBytes, descriptor crypto coins metadata.gateRef recipient⟩ := by
  have hmade := encryptDeliverableVersion_spec h
  obtain ⟨sealings, hwrap, -⟩ := hmade.wrap
  have hdescriptor : result.manifest.keyWrap =
      descriptor crypto coins metadata.gateRef recipient := by
    cases recipient with
    | symKey symKey =>
      rw [wrapFor, Except.ok.injEq, Prod.mk.injEq, Prod.mk.injEq] at hwrap
      exact hwrap.2.1.symm
    | recipientPublicKey recipientPublicKey =>
      rw [wrapFor, bind_eq_ok] at hwrap
      obtain ⟨⟨wrapped, sealing⟩, hwrapped, hresult⟩ := hwrap
      simp only [wrapKeyToPubkey, bind_eq_ok, require_eq_ok, demand_eq_ok] at hwrapped
      obtain ⟨_, -, shared, -, blob, hblob, hpair⟩ := hwrapped
      rw [aesGcmEncrypt, importAesKey, require_bind_eq_ok] at hblob
      obtain rfl := Except.ok.inj hblob.2
      obtain ⟨rfl, -⟩ := Prod.mk.inj (Except.ok.inj hpair)
      rw [Except.ok.injEq, Prod.mk.injEq, Prod.mk.injEq] at hresult
      exact hresult.2.1.symm
  rw [hmade.manifest, hdescriptor]

/-- Whether a decryption is refused. -/
def Refused (outcome : Except DeliveryError (List UInt8)) : Prop := ∃ e, outcome = .error e

theorem refused_of_not_ok {outcome : Except DeliveryError (List UInt8)}
    (h : ∀ opened, outcome ≠ .ok opened) : Refused outcome := by
  cases outcome with
  | error e => exact ⟨e, rfl⟩
  | ok opened => exact absurd rfl (h opened)

/-- **An encrypted delivery** comes back under the key that fits, of both versions. From version 2 on
it is refused under every manifest that is another JSON value, and another ciphertext is refused
unless it was sealed under the same key for the same manifest. Bytes that are returned have the hash
in the manifest. The manifest is the same for any two keys, given or generated. -/
theorem encrypted_delivery (crypto : WebCrypto) (coins : Coins) (version : DeliveryVersion)
    (plaintext : Plaintext) (recipient : DeliveryRecipient) (metadata : DeliveryMeta)
    (result : EncryptDeliverableResult)
    (h : encryptDeliverableVersion crypto coins version plaintext recipient metadata = .ok result)
    (hmade : ∀ s ∈ result.sealings, crypto.cipher.made s) :
    (∀ key, Fits crypto recipient result key →
      decryptDeliverable crypto result.ciphertext key (some result.manifest.toJson) =
        .ok plaintext.toBytes) ∧
    (version = .two →
      (∀ key manifest, JsonValue.Distinct manifest → ¬manifest.Equal result.manifest.toJson →
        Refused (decryptDeliverable crypto result.ciphertext key (some manifest))) ∧
      ∀ key, Fits crypto recipient result key → ∀ ciphertext,
        (∀ nonce body content, ciphertext = nonce ++ body → ¬crypto.cipher.made
          ⟨result.symKey, nonce, utf8Encoder result.manifest.text, content, body⟩) →
        Refused (decryptDeliverable crypto ciphertext key (some result.manifest.toJson))) ∧
    (∀ ciphertext key manifest opened,
      decryptDeliverable crypto ciphertext key (some manifest) = .ok opened →
      ∃ members, membersOf manifest = some members ∧
        stringAt members "plaintextHash" = some (sha256Hex crypto opened)) ∧
    (∀ coins' symKey symKey' result', recipient = .symKey symKey →
      encryptDeliverableVersion crypto coins' version plaintext (.symKey symKey') metadata =
        .ok result' → result'.manifest = result.manifest) ∧
    ∀ coins' result', coins'.ephemeral = coins.ephemeral → coins'.wrapIv = coins.wrapIv →
      coins'.wrapBody = coins.wrapBody →
      encryptDeliverableVersion crypto coins' version plaintext recipient metadata = .ok result' →
        result'.manifest = result.manifest := by
  have hspec := encryptDeliverableVersion_spec h
  refine ⟨fun key hkey => decryptDeliverable_roundTrip hspec hmade hkey, ?_, ?_, ?_, ?_⟩
  · rintro rfl
    constructor
    · intro key manifest hdistinct hne
      exact refused_of_not_ok fun opened hopened =>
        hne (decryptDeliverable_bound hspec hmade hdistinct hopened)
    · intro key hkey ciphertext hunsealed
      refine refused_of_not_ok fun opened hopened => ?_
      obtain ⟨nonce, body, hsplit, hsealed⟩ := decryptDeliverable_sealed hspec hmade hkey hopened
      refine hunsealed nonce body opened hsplit ?_
      have hadditional : result.manifest.additional.getD [] = utf8Encoder result.manifest.text := by
        rw [DeliveryManifest.additional, hspec.manifest]
        rfl
      rwa [hadditional] at hsealed
  · intro ciphertext key manifest opened hopened
    obtain ⟨members, _, _, _, hmembers, -, -, -, -, -, hhash⟩ := decryptDeliverable_spec.mp hopened
    exact ⟨members, hmembers, hhash⟩
  · rintro coins' symKey symKey' result' rfl h'
    rw [encryptDeliverableVersion_manifest h, encryptDeliverableVersion_manifest h']
    rfl
  · intro coins' result' hephemeral hwrapIv hwrapBody h'
    rw [encryptDeliverableVersion_manifest h, encryptDeliverableVersion_manifest h']
    cases recipient with
    | symKey symKey => rfl
    | recipientPublicKey recipientPublicKey =>
      rw [descriptor, descriptor, hephemeral, hwrapIv, hwrapBody]

/-! ## A retry -/

/-- SHA-256 of no bytes. -/
def emptyHash : List UInt8 :=
  [0xE3, 0xB0, 0xC4, 0x42, 0x98, 0xFC, 0x1C, 0x14, 0x9A, 0xFB, 0xF4, 0xC8, 0x99, 0x6F, 0xB9, 0x24,
    0x27, 0xAE, 0x41, 0xE4, 0x64, 0x9B, 0x93, 0x4C, 0xA4, 0x95, 0x99, 0x1B, 0x78, 0x52, 0xB8, 0x55]

def retryKey : List UInt8 := List.replicate 32 7

def retryMetadata : DeliveryMeta where
  taskPda := List.replicate 32 0x31
  ciphertextUri := word "agenc://deliverable"
  previewUri := none
  gateRef := none

/-- The manifest of an empty deliverable. -/
def retryManifest : DeliveryManifest where
  v := .two
  taskPda := retryMetadata.taskPda
  ciphertextUri := retryMetadata.ciphertextUri
  previewUri := none
  plaintextHash := hexText emptyHash
  keyWrap := .symmetric none

/-- The coins of an attempt. -/
def retryCoins (attempt : UInt8) : Coins where
  symKey := List.replicate 32 0
  symKey_length := rfl
  ephemeral := []
  wrapIv := List.replicate 12 0
  wrapIv_length := rfl
  wrapBody := []
  iv := List.replicate 12 attempt
  iv_length := rfl
  body := List.replicate 16 attempt

/-- The encryption of an attempt. -/
def retrySealing (attempt : UInt8) : Sealing :=
  ⟨retryKey, List.replicate 12 attempt, utf8Encoder retryManifest.text, [],
    List.replicate 16 attempt⟩

theorem retrySealings_apart : ∀ s ∈ [retrySealing 1, retrySealing 2],
    ∀ t ∈ [retrySealing 1, retrySealing 2], s.nonce = t.nonce → s.body = t.body → s = t := by
  have hne : List.replicate 12 (1 : UInt8) ≠ List.replicate 12 2 := by decide
  intro s hs t ht hnonce _
  rcases List.mem_pair.mp hs with rfl | rfl
  · rcases List.mem_pair.mp ht with rfl | rfl
    · rfl
    · exact absurd hnonce hne
  · rcases List.mem_pair.mp ht with rfl | rfl
    · exact absurd hnonce.symm hne
    · rfl

/-- A world in which one deliverable was encrypted twice under one key. -/
def retryCrypto : WebCrypto where
  sha256 bytes := if bytes = [] then emptyHash else List.replicate 32 0
  sha256_length bytes := by split <;> rfl
  cipher := .ofList [retrySealing 1, retrySealing 2] retrySealings_apart
  publicKey _ := List.replicate 32 0
  publicKey_length _ := rfl
  deriveBits _ _ := none
  deriveBits_comm _ _ := rfl
  hkdf _ _ := List.replicate 32 0
  hkdf_length _ _ := rfl

/-- The result of an attempt. -/
def retryResult (attempt : UInt8) : EncryptDeliverableResult where
  ciphertext := List.replicate 12 attempt ++ List.replicate 16 attempt
  symKey := retryKey
  manifest := retryManifest
  sealings := [retrySealing attempt]

theorem retry_encrypted (attempt : UInt8) :
    encryptDeliverableVersion retryCrypto (retryCoins attempt) .two (.bytes []) (.symKey retryKey)
      retryMetadata = .ok (retryResult attempt) := by
  have hadditional : additionalData .two retryManifest.toJson =
      .ok (some (utf8Encoder retryManifest.text)) := retryManifest.additionalData_eq
  simp only [encryptDeliverableVersion, bind_eq_ok]
  refine ⟨_, rfl, _, hadditional, (_, retrySealing attempt), ?_, rfl⟩
  rw [aesGcmEncrypt, importAesKey, require_bind_eq_ok]
  exact ⟨rfl, rfl⟩

theorem retry_made (attempt : UInt8) (h : attempt = 1 ∨ attempt = 2) :
    ∀ s ∈ (retryResult attempt).sealings, retryCrypto.cipher.made s := by
  intro s hs
  obtain rfl := List.mem_singleton.mp hs
  rcases h with rfl | rfl
  · exact List.mem_cons_self
  · exact List.mem_cons_of_mem _ List.mem_cons_self

/-- **Two attempts** at one deliverable under one key have one manifest, and the ciphertext of the
second opens under the manifest of the first. -/
theorem retry_opens : ¬∀ ciphertext, ciphertext ≠ (retryResult 1).ciphertext →
    Refused (decryptDeliverable retryCrypto ciphertext (.symKey (retryResult 1).symKey)
      (some (retryResult 1).manifest.toJson)) := by
  intro hall
  have hne : (retryResult 2).ciphertext ≠ (retryResult 1).ciphertext := by decide
  obtain ⟨e, he⟩ := hall _ hne
  have hopens := decryptDeliverable_roundTrip (encryptDeliverableVersion_spec (retry_encrypted 2))
    (retry_made 2 (.inr rfl)) .symKey
  have hsame : (retryResult 2).manifest = (retryResult 1).manifest := rfl
  rw [hsame] at hopens
  cases he.symm.trans hopens

theorem retry_delivery :
    decryptDeliverable retryCrypto (retryResult 1).ciphertext (.symKey retryKey)
        (some retryManifest.toJson) = .ok [] ∧
      ∀ key manifest, JsonValue.Distinct manifest → ¬manifest.Equal retryManifest.toJson →
        Refused (decryptDeliverable retryCrypto (retryResult 1).ciphertext key (some manifest)) := by
  have hdelivery := encrypted_delivery retryCrypto (retryCoins 1) .two (.bytes [])
    (.symKey retryKey) retryMetadata (retryResult 1) (retry_encrypted 1) (retry_made 1 (.inl rfl))
  exact ⟨hdelivery.1 _ .symKey, (hdelivery.2.1 rfl).1⟩

end AgencCoordination.Sdk
