import BotHive.Credentials.Cipher

/-!
# Round trips of stored credentials

What a process encrypts is decrypted by every process in whose registry the version still
stands for the key. A text is taken for a stored credential by its prefix alone:
`ensureEncrypted` leaves a text with the prefix as it is, so that its round trip is that of
the texts without the prefix.

## Main results

- `decryptCredential_storedForm`: what is stored is read back
- `reencryptCredential_eq`: what a rotation makes of a value
- `credential_roundTrip`: the round trips, and what is idempotent
-/

namespace BotHive.Credentials

variable {aes : Aes} {production : Bool} {registry later : KeyRegistry} {value text : String}
  {stored? : Option String}

-- ════════════════════════════════════════════════════════════════════════
-- What a stored value is
-- ════════════════════════════════════════════════════════════════════════

/-- The version and the encrypted part of a value that has the form of a stored one. -/
def storedParts (value : String) : Option (String × String) :=
  (dropPrefix? value "enc:").bind parsePayload

/-- The version under which a value is stored. -/
def versionOf (value : String) : Option String :=
  (storedParts value).map Prod.fst

theorem storedParts_storedForm (text : String) (nonce : Nonce) :
    storedParts (storedForm aes registry text nonce) =
      some (registry.version, encrypt aes text registry.key nonce) := by
  rw [storedParts, dropPrefix?_storedForm, Option.bind_some, parsePayload_stored]

theorem versionOf_storedForm (text : String) (nonce : Nonce) :
    versionOf (storedForm aes registry text nonce) = some registry.version := by
  rw [versionOf, storedParts_storedForm, Option.map_some]

/-- The prefix is not empty. -/
theorem ne_empty_of_prefixed {payload : String} (h : dropPrefix? value "enc:" = some payload) :
    value ≠ "" := by
  rintro rfl
  have hnone : dropPrefix? "" "enc:" = none := by decide
  rw [hnone] at h
  cases h

theorem prefixed_of_storedParts {parts : String × String} (h : storedParts value = some parts) :
    ∃ payload, dropPrefix? value "enc:" = some payload ∧ parsePayload payload = some parts :=
  Option.bind_eq_some_iff.mp h

-- ════════════════════════════════════════════════════════════════════════
-- Reading
-- ════════════════════════════════════════════════════════════════════════

theorem decryptCredential_plain (hne : value ≠ "") (hplain : dropPrefix? value "enc:" = none) :
    decryptCredential aes registry (some value) = some value := by
  rw [decryptCredential, present_some hne]
  dsimp only
  rw [hplain]

theorem decryptCredential_stored {version part : String}
    (h : storedParts value = some (version, part)) :
    decryptCredential aes registry (some value) =
      (registry.keyFor version).bind fun key => (decrypt aes part key).toOption := by
  obtain ⟨payload, hprefixed, hparse⟩ := prefixed_of_storedParts h
  rw [decryptCredential, present_some (ne_empty_of_prefixed hprefixed)]
  simp only [hprefixed, hparse]
  cases registry.keyFor version with
  | none => rfl
  | some key => rfl

theorem decryptCredential_malformed {payload : String}
    (hprefixed : dropPrefix? value "enc:" = some payload) (hparse : parsePayload payload = none) :
    decryptCredential aes registry (some value) = none := by
  rw [decryptCredential, present_some (ne_empty_of_prefixed hprefixed)]
  simp only [hprefixed, hparse]

/-- **Read back**: a registry in which the version stands for the key reads what was stored. -/
theorem decryptCredential_storedForm (haes : aes.Correct)
    (hkeep : later.keyFor registry.version = some registry.key) (text : String) (nonce : Nonce) :
    decryptCredential aes later (some (storedForm aes registry text nonce)) = some text := by
  rw [decryptCredential_stored (storedParts_storedForm text nonce), hkeep, Option.bind_some,
    decrypt_encrypt haes]
  rfl

/-- The current version stands for the current key. -/
theorem keyFor_version (hkey : registry.key ≠ "") :
    registry.keyFor registry.version = some registry.key := by
  rw [KeyRegistry.keyFor, if_pos rfl, present_some hkey]

-- ════════════════════════════════════════════════════════════════════════
-- Writing
-- ════════════════════════════════════════════════════════════════════════

theorem ensureEncrypted_plain (hkey : registry.key ≠ "") (hne : value ≠ "")
    (hplain : dropPrefix? value "enc:" = none) (nonce : Nonce) :
    ensureEncrypted aes production registry (some value) nonce =
      .ok (some (storedForm aes registry value nonce)) := by
  rw [ensureEncrypted, present_some hne]
  simp only [hplain]
  rw [encryptCredential_eq hkey]
  rfl

theorem ensureEncrypted_prefixed {payload : String}
    (hprefixed : dropPrefix? value "enc:" = some payload) (nonce : Nonce) :
    ensureEncrypted aes production registry (some value) nonce = .ok (some value) := by
  rw [ensureEncrypted, present_some (ne_empty_of_prefixed hprefixed)]
  simp only [hprefixed]

/-- With a key `ensureEncrypted` gives nothing or a value with the prefix. -/
theorem ensureEncrypted_cases (hkey : registry.key ≠ "") (value : Option String) (nonce : Nonce) :
    ensureEncrypted aes production registry value nonce = .ok none ∨
      ∃ out payload, dropPrefix? out "enc:" = some payload ∧
        ensureEncrypted aes production registry value nonce = .ok (some out) := by
  rcases hvalue : present value with _ | text
  · left
    rw [ensureEncrypted, hvalue]
  · right
    obtain ⟨rfl, hne⟩ := present_eq_some hvalue
    rcases hprefixed : dropPrefix? text "enc:" with _ | payload
    · exact ⟨_, _, dropPrefix?_storedForm text nonce, ensureEncrypted_plain hkey hne hprefixed nonce⟩
    · exact ⟨text, payload, hprefixed, ensureEncrypted_prefixed hprefixed nonce⟩

/-- A value under the current version of a registry. -/
def IsCurrent (registry : KeyRegistry) (value : Option String) : Prop :=
  value.bind versionOf = some registry.version

instance (registry : KeyRegistry) (value : Option String) : Decidable (IsCurrent registry value) :=
  inferInstanceAs (Decidable (value.bind versionOf = some registry.version))

/-- What a rotation with a key makes of a value: a value under the current version is kept, any
    other is written anew with the text that it stands for, or given up. -/
def rotated (aes : Aes) (registry : KeyRegistry) (value : Option String) (nonce : Nonce) :
    Option String :=
  if IsCurrent registry value then value
  else (present (decryptCredential aes registry value)).map fun text =>
    storedForm aes registry text nonce

/-- **Rotation of one value**: with a key a rotation does not throw. -/
theorem reencryptCredential_eq (hkey : registry.key ≠ "") (value : Option String)
    (nonce : Nonce) :
    reencryptCredential aes production registry value nonce =
      .ok (rotated aes registry value nonce) := by
  rcases hvalue : present value with _ | stored
  · have hnone : ¬ IsCurrent registry value := by
      rcases present_eq_none hvalue with rfl | rfl
      · exact nofun
      · have hempty : (some "").bind versionOf = none := by decide
        rw [IsCurrent, hempty]
        exact nofun
    rw [reencryptCredential, rotated, if_neg hnone, decryptCredential, hvalue]
    rfl
  obtain ⟨rfl, hne⟩ := present_eq_some hvalue
  rcases hprefixed : dropPrefix? stored "enc:" with _ | payload
  · -- a text that was never encrypted
    have hplain : ¬ IsCurrent registry (some stored) := by
      rw [IsCurrent, Option.bind_some, versionOf, storedParts, hprefixed]
      exact nofun
    rw [rotated, if_neg hplain, decryptCredential_plain hne hprefixed, present_some hne,
      reencryptCredential, hvalue]
    simp only [hprefixed]
    rw [encryptCredential_eq hkey]
    rfl
  rcases hparse : parsePayload payload with _ | ⟨version, part⟩
  · have hmalformed : ¬ IsCurrent registry (some stored) := by
      rw [IsCurrent, Option.bind_some, versionOf, storedParts, hprefixed, Option.bind_some, hparse]
      exact nofun
    rw [rotated, if_neg hmalformed, decryptCredential_malformed hprefixed hparse,
      reencryptCredential, hvalue]
    simp only [hprefixed, hparse]
    rfl
  · have hversion : IsCurrent registry (some stored) ↔ version = registry.version := by
      rw [IsCurrent, Option.bind_some, versionOf, storedParts, hprefixed, Option.bind_some, hparse,
        Option.map_some, Option.some_inj]
    rw [rotated, reencryptCredential, hvalue]
    simp only [hprefixed, hparse, hversion]
    by_cases hcurrent : version = registry.version
    · rw [if_pos hcurrent, if_pos hcurrent]
    · rw [if_neg hcurrent, if_neg hcurrent]
      rcases present (decryptCredential aes registry (some stored)) with _ | text
      · rfl
      · dsimp only
        rw [encryptCredential_eq hkey]
        rfl

theorem isCurrent_storedForm (text : String) (nonce : Nonce) :
    IsCurrent registry (some (storedForm aes registry text nonce)) :=
  versionOf_storedForm text nonce

/-- A value of the current version stays as it is. -/
theorem rotated_current (h : IsCurrent registry stored?) (nonce : Nonce) :
    rotated aes registry stored? nonce = stored? :=
  if_pos h

/-- Rotating a second time changes nothing. -/
theorem rotated_rotated (value : Option String) (nonce again : Nonce) :
    rotated aes registry (rotated aes registry value nonce) again =
      rotated aes registry value nonce := by
  by_cases hcurrent : IsCurrent registry value
  · rw [rotated_current hcurrent, rotated_current hcurrent]
  · rw [rotated, rotated, if_neg hcurrent]
    rcases present (decryptCredential aes registry value) with _ | text
    · rfl
    · exact if_pos (isCurrent_storedForm text nonce)

-- ════════════════════════════════════════════════════════════════════════
-- Round trips
-- ════════════════════════════════════════════════════════════════════════

/-- The round trips of a process' cipher, and the operations that change nothing when they are
    repeated. -/
structure RoundTrips (aes : Aes) (production : Bool) (registry : KeyRegistry) : Prop where
  encrypted : ∀ text nonce, ∃ stored,
    encryptCredential aes production registry text nonce = .ok stored ∧
      ∀ later : KeyRegistry, later.keyFor registry.version = some registry.key →
        decryptCredential aes later (some stored) = some text
  ensured : ∀ text nonce, text ≠ "" → dropPrefix? text "enc:" = none → ∃ stored,
    ensureEncrypted aes production registry (some text) nonce = .ok stored ∧
      ∀ later : KeyRegistry, later.keyFor registry.version = some registry.key →
        decryptCredential aes later stored = some text
  prefixed : ∀ text payload nonce, dropPrefix? text "enc:" = some payload →
    ensureEncrypted aes production registry (some text) nonce = .ok (some text)
  ensureIdem : ∀ value nonce, ∃ out,
    ensureEncrypted aes production registry value nonce = .ok out ∧
      ∀ again, ensureEncrypted aes production registry out again = .ok out
  reencryptIdem : ∀ value nonce, ∃ out,
    reencryptCredential aes production registry value nonce = .ok out ∧
      ∀ again, reencryptCredential aes production registry out again = .ok out

theorem ensureEncrypted_idem (hkey : registry.key ≠ "") (value : Option String) (nonce : Nonce) :
    ∃ out, ensureEncrypted aes production registry value nonce = .ok out ∧
      ∀ again, ensureEncrypted aes production registry out again = .ok out := by
  rcases ensureEncrypted_cases hkey value nonce with hout | ⟨out, payload, hprefixed, hout⟩
  · exact ⟨none, hout, fun _ => rfl⟩
  · exact ⟨some out, hout, fun again => ensureEncrypted_prefixed hprefixed again⟩

theorem reencryptCredential_idem (hkey : registry.key ≠ "") (value : Option String)
    (nonce : Nonce) :
    ∃ out, reencryptCredential aes production registry value nonce = .ok out ∧
      ∀ again, reencryptCredential aes production registry out again = .ok out := by
  refine ⟨_, reencryptCredential_eq hkey value nonce, fun again => ?_⟩
  rw [reencryptCredential_eq hkey, rotated_rotated]

/-- **Credential cipher**: with a key, every text that is encrypted is read back, as is every
    text without the prefix of stored values that is passed through `ensureEncrypted`; that and
    the rotation of a value change nothing when they are repeated. -/
theorem credential_roundTrip (haes : aes.Correct) (hkey : registry.key ≠ "") :
    RoundTrips aes production registry where
  encrypted text nonce :=
    ⟨_, encryptCredential_eq hkey text nonce, fun _ hkeep =>
      decryptCredential_storedForm haes hkeep text nonce⟩
  ensured text nonce hne hplain :=
    ⟨_, ensureEncrypted_plain hkey hne hplain nonce, fun _ hkeep =>
      decryptCredential_storedForm haes hkeep text nonce⟩
  prefixed _ _ nonce hprefixed := ensureEncrypted_prefixed hprefixed nonce
  ensureIdem := ensureEncrypted_idem hkey
  reencryptIdem := reencryptCredential_idem hkey

/-- The bytes of a text, and a text of the bytes. -/
def utf8Bytes (text : String) : List UInt8 :=
  text.toByteArray.data.toList

def utf8Text? (bytes : List UInt8) : Option String :=
  String.fromUTF8? ⟨bytes.toArray⟩

theorem utf8Text?_utf8Bytes (text : String) : utf8Text? (utf8Bytes text) = some text := by
  rw [utf8Text?, utf8Bytes, Array.toArray_toList, String.fromUTF8?, dif_pos text.isValidUTF8]
  rfl

/-- The key of the passphrase `k1`. -/
def sampleKey : String :=
  "6ab9f1eb8f7d3388f4f9d586f66e99fd54080df2c446f0e58668b09c08a16dd0"

theorem colon_not_mem_v1 : ':' ∉ "v1".toList := by decide

def sampleRegistry : KeyRegistry :=
  ⟨"v1", sampleKey, .empty, colon_not_mem_v1⟩

def sampleNonce : Nonce :=
  ⟨hexDecode "000102030405060708090a0b0c0d0e0f", by decide⟩

/-- `s3cret` under the sample key and nonce. -/
def sampleSealed : Sealed :=
  ⟨hexDecode "418d29daa5c8e2162c1a06d0f06ba0af", hexDecode "a5aacce93a0a"⟩

/-- AES-256-GCM on the sample; every other text is written out under a tag of zeros. -/
def sampleAes : Aes where
  encipher key iv text :=
    if key = hexDecode sampleKey ∧ iv = sampleNonce.iv ∧ text = "s3cret" then sampleSealed
    else ⟨List.replicate 16 0, utf8Bytes text⟩
  decipher key iv «sealed» :=
    if key = hexDecode sampleKey ∧ iv = sampleNonce.iv ∧ «sealed» = sampleSealed then some "s3cret"
    else if sealed.tag = List.replicate 16 0 then utf8Text? sealed.data
    else none

theorem sampleAes_correct : sampleAes.Correct := by
  constructor
  · intro key iv text
    rw [sampleAes]
    dsimp only
    split
    · decide
    · exact List.length_replicate
  · intro key iv text
    rw [sampleAes]
    dsimp only
    split
    · rename_i h
      obtain ⟨hkey, hiv, rfl⟩ := h
      rw [if_pos ⟨hkey, hiv, rfl⟩]
    · have hother : ¬ (key = hexDecode sampleKey ∧ iv = sampleNonce.iv ∧
          (⟨List.replicate 16 0, utf8Bytes text⟩ : Sealed) = sampleSealed) := by
        rintro ⟨-, -, h⟩
        have htag : List.replicate 16 0 = sampleSealed.tag := congrArg Sealed.tag h
        exact absurd htag (by decide)
      rw [if_neg hother, if_pos rfl, utf8Text?_utf8Bytes]

theorem credential_roundTrip_sample :
    RoundTrips sampleAes true sampleRegistry ∧
      encryptCredential sampleAes true sampleRegistry "s3cret" sampleNonce =
        .ok ("enc:v1:000102030405060708090a0b0c0d0e0f:" ++
          "418d29daa5c8e2162c1a06d0f06ba0af:a5aacce93a0a") :=
  ⟨credential_roundTrip sampleAes_correct (by decide), by decide⟩

/-- The text `enc:note` has the prefix of stored values: it is stored as it is, and no registry
    reads it. -/
theorem ensureEncrypted_fails_on_prefix :
    ¬ ∀ (aes : Aes) (production : Bool) (registry : KeyRegistry) (text : String) (nonce : Nonce),
      aes.Correct → registry.key ≠ "" → text ≠ "" →
        ∃ stored, ensureEncrypted aes production registry (some text) nonce = .ok stored ∧
          ∀ later : KeyRegistry, later.keyFor registry.version = some registry.key →
            decryptCredential aes later stored = some text := by
  intro h
  obtain ⟨stored, hstored, hread⟩ := h sampleAes true sampleRegistry "enc:note" sampleNonce
    sampleAes_correct (by decide) (by decide)
  have hsame : ensureEncrypted sampleAes true sampleRegistry (some "enc:note") sampleNonce =
      .ok (some "enc:note") := by
    decide
  obtain rfl : some "enc:note" = stored := Except.ok.inj (hsame.symm.trans hstored)
  have hnone : decryptCredential sampleAes sampleRegistry (some "enc:note") = none := by
    decide
  have hkeep : sampleRegistry.keyFor sampleRegistry.version = some sampleRegistry.key :=
    keyFor_version (by decide)
  rw [hread sampleRegistry hkeep] at hnone
  cases hnone

end BotHive.Credentials
