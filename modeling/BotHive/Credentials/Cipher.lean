import BotHive.Library.Hex
import BotHive.Library.InsertionMap
import BotHive.Library.Separated

/-!
# Stored credentials

Credentials are stored as `enc:version:iv:tag:data`, or without a version by older releases,
which stands for `v1`. The keys of a process come from its environment, each under the name
of its version. AES-256-GCM itself is a parameter: `Aes.Correct` says that it opens what it
has sealed.

## Main definitions

- `encrypt`, `decrypt`: a text under one key
- `KeyRegistry`, `buildKeyRegistry`: the keys of a process
- `encryptCredential`, `decryptCredential`, `ensureEncrypted`, `reencryptCredential`

## Main results

- `decrypt_encrypt`: what is encrypted under a key is decrypted under it
- `keyFor_buildKeyRegistry`: every entry of the environment is a key of the registry
-/

namespace BotHive.Credentials

/-- A text that is there and not empty. -/
def present (value : Option String) : Option String :=
  value.filter (· ≠ "")

theorem present_some {value : String} (h : value ≠ "") : present (some value) = some value :=
  Option.filter_some_pos (decide_eq_true h)

theorem present_eq_some {value : Option String} {text : String} (h : present value = some text) :
    value = some text ∧ text ≠ "" := by
  rw [present, Option.filter_eq_some_iff, decide_eq_true_eq] at h
  exact h

theorem present_eq_none {value : Option String} (h : present value = none) :
    value = none ∨ value = some "" := by
  cases value with
  | none => exact .inl rfl
  | some text =>
    by_cases htext : text = ""
    · exact .inr (congrArg some htext)
    · rw [present_some htext] at h
      cases h

structure Sealed where
  tag : List UInt8
  data : List UInt8
  deriving DecidableEq

/-- AES-256-GCM over the UTF-8 form of a text. -/
structure Aes where
  encipher : (key iv : List UInt8) → (text : String) → Sealed
  /-- The text, unless the tag does not fit. -/
  decipher : (key iv : List UInt8) → Sealed → Option String

/-- Tags have sixteen bytes, and what was sealed opens under its key and its start vector. -/
structure Aes.Correct (aes : Aes) : Prop where
  tag_length : ∀ key iv text, (aes.encipher key iv text).tag.length = 16
  decipher_encipher : ∀ key iv text, aes.decipher key iv (aes.encipher key iv text) = some text

/-- Sixteen random bytes. -/
structure Nonce where
  iv : List UInt8
  length_iv : iv.length = 16

section Text

variable (aes : Aes)

def encrypt (text key : String) (nonce : Nonce) : String :=
  let «sealed» := aes.encipher (hexDecode key) nonce.iv text
  joinText ':' [hexEncode nonce.iv, hexEncode sealed.tag, hexEncode sealed.data]

def decrypt (encryptedText key : String) : Except String String :=
  match splitText ':' encryptedText with
  | [ivHex, tagHex, data] =>
    let iv := hexDecode ivHex
    let tag := hexDecode tagHex
    if iv.length ≠ 16 then .error "Invalid IV"
    else if tag.length ≠ 16 then .error "Invalid auth tag"
    else
      match aes.decipher (hexDecode key) iv ⟨tag, hexDecode data⟩ with
      | none => .error "Unsupported state or unable to authenticate data"
      | some text => .ok text
  | _ => .error "Invalid encrypted payload"

variable {aes}

/-- An encrypted text consists of three parts without a colon. -/
theorem splitText_encrypt (text key : String) (nonce : Nonce) :
    splitText ':' (encrypt aes text key nonce) =
      [hexEncode nonce.iv, hexEncode (aes.encipher (hexDecode key) nonce.iv text).tag,
        hexEncode (aes.encipher (hexDecode key) nonce.iv text).data] := by
  refine splitText_joinText (List.cons_ne_nil _ _) fun part hpart => ?_
  simp only [List.mem_cons, List.not_mem_nil, or_false] at hpart
  rcases hpart with rfl | rfl | rfl <;> exact colon_not_mem_hexEncode _

theorem decrypt_encrypt (haes : aes.Correct) (text key : String) (nonce : Nonce) :
    decrypt aes (encrypt aes text key nonce) key = .ok text := by
  rw [decrypt, splitText_encrypt]
  simp only [hexDecode_hexEncode]
  rw [if_neg (not_not.mpr nonce.length_iv), if_neg (not_not.mpr (haes.tag_length ..)),
    haes.decipher_encipher]

end Text

/-- The keys of a process, the current one and older ones by their version. A version is cut
    out of a text at its colons. -/
structure KeyRegistry where
  version : String
  key : String
  legacy : InsertionMap String String
  separated : ':' ∉ version.toList

/-- The version and the key of an entry; what follows a second colon is dropped. -/
def versionedKey? (entry : String) : Option (String × String) :=
  match splitText ':' entry with
  | version :: raw :: _ => if raw = "" then none else some (version, raw)
  | _ => none

theorem versionedKey?_separated {entry version raw : String}
    (h : versionedKey? entry = some (version, raw)) : ':' ∉ version.toList := by
  rw [versionedKey?] at h
  split at h
  · rename_i first second rest hsplit
    split at h
    · cases h
    · cases h
      exact not_mem_of_mem_splitText (hsplit ▸ List.mem_cons_self)
  · cases h

/-- The entries of `ENCRYPTION_KEYS`. -/
def keyEntries (keys : String) : List String :=
  ((splitText ',' keys).map trimText).filter (· ≠ "")

/-- The older keys, the later entry of a version in place of an earlier one. -/
def legacyKeys (sha256 : String → String) :
    InsertionMap String String → List String → Except String (InsertionMap String String)
  | legacy, [] => .ok legacy
  | legacy, entry :: rest =>
    match versionedKey? entry with
    | none =>
      .error ("[credential-cipher] ENCRYPTION_KEYS entry \"" ++ entry ++
        "\" missing version:key format")
    | some (version, raw) => legacyKeys sha256 (legacy.set version (sha256 raw)) rest

/-- The registry that the environment describes. `sha256` writes the digest of a text in
    hexadecimal digits; empty variables count as missing. -/
def buildKeyRegistry (sha256 : String → String) (keysEnv singleKeyEnv : Option String) :
    Except String KeyRegistry :=
  match present keysEnv with
  | some keys =>
    match (keyEntries keys).getLast? with
    | none => .error "[credential-cipher] ENCRYPTION_KEYS is set but empty"
    | some current =>
      match hcurrent : versionedKey? current with
      | none => .error "[credential-cipher] ENCRYPTION_KEYS format must be version:key,..."
      | some (version, raw) =>
        match legacyKeys sha256 .empty (keyEntries keys).dropLast with
        | .error message => .error message
        | .ok legacy => .ok ⟨version, sha256 raw, legacy, versionedKey?_separated hcurrent⟩
  | none =>
    match present singleKeyEnv with
    | some key => .ok ⟨"v1", sha256 key, .empty, by decide⟩
    | none => .ok ⟨"v1", "", .empty, by decide⟩

/-- The key that a version stands for. -/
def KeyRegistry.keyFor (registry : KeyRegistry) (version : String) : Option String :=
  present (if version = registry.version then some registry.key else registry.legacy.get version)

section Registry

variable {sha256 : String → String} {registry : KeyRegistry} {version raw : String}

/-- Versions that no entry has keep the key they had. -/
theorem get_legacyKeys_of_not_mem {entries : List String} {m legacy : InsertionMap String String}
    (h : legacyKeys sha256 m entries = .ok legacy)
    (hnone : version ∉ (entries.filterMap versionedKey?).map Prod.fst) :
    legacy.get version = m.get version := by
  induction entries generalizing m with
  | nil =>
    cases h
    rfl
  | cons entry rest ih =>
    rw [legacyKeys] at h
    rcases hentry : versionedKey? entry with _ | ⟨v, r⟩ <;> rw [hentry] at h
    · cases h
    · rw [List.filterMap_cons_some hentry, List.map_cons, List.mem_cons, not_or] at hnone
      rw [ih h hnone.2, InsertionMap.get_set_of_ne _ _ hnone.1]

/-- Among entries of distinct versions each one is kept. -/
theorem get_legacyKeys {entries : List String} {m legacy : InsertionMap String String}
    (h : legacyKeys sha256 m entries = .ok legacy)
    (hnodup : ((entries.filterMap versionedKey?).map Prod.fst).Nodup)
    (hmem : (version, raw) ∈ entries.filterMap versionedKey?) :
    legacy.get version = some (sha256 raw) := by
  induction entries generalizing m with
  | nil => cases hmem
  | cons entry rest ih =>
    rw [legacyKeys] at h
    rcases hentry : versionedKey? entry with _ | ⟨v, r⟩ <;> rw [hentry] at h
    · cases h
    · rw [List.filterMap_cons_some hentry, List.map_cons, List.nodup_cons] at hnodup
      rw [List.filterMap_cons_some hentry, List.mem_cons] at hmem
      rcases hmem with heq | hrest
      · obtain ⟨rfl, rfl⟩ := Prod.mk.inj heq
        rw [get_legacyKeys_of_not_mem h hnodup.1, InsertionMap.get_set_self]
      · exact ih h hnodup.2 hrest

/-- **Registry**: when the versions of the environment are distinct, each of them stands for
    the key of its entry. -/
theorem keyFor_buildKeyRegistry {keys : String} {singleKeyEnv : Option String} (hkeys : keys ≠ "")
    (h : buildKeyRegistry sha256 (some keys) singleKeyEnv = .ok registry)
    (hnodup : (((keyEntries keys).filterMap versionedKey?).map Prod.fst).Nodup)
    (hmem : (version, raw) ∈ (keyEntries keys).filterMap versionedKey?) :
    registry.keyFor version = present (some (sha256 raw)) := by
  rw [buildKeyRegistry, present_some hkeys] at h
  dsimp only at h
  split at h
  · cases h
  rename_i current hlast
  split at h
  · cases h
  rename_i v r hcurrent
  split at h
  · cases h
  rename_i legacy hlegacy
  cases h
  obtain ⟨init, hinit⟩ := List.getLast?_eq_some_iff.mp hlast
  rw [hinit, List.dropLast_concat] at hlegacy
  rw [hinit, List.filterMap_append, List.filterMap_cons_some hcurrent, List.filterMap_nil] at hmem
  rw [hinit, List.filterMap_append, List.filterMap_cons_some hcurrent, List.filterMap_nil,
    List.map_append, List.nodup_append] at hnodup
  obtain ⟨hinner, -, hother⟩ := hnodup
  rw [KeyRegistry.keyFor]
  rcases List.mem_append.mp hmem with hold | hnew
  · have hne : version ≠ v :=
      hother version (List.mem_map_of_mem hold) v (by simp)
    rw [if_neg hne, get_legacyKeys hlegacy hinner hold]
  · obtain ⟨rfl, rfl⟩ := Prod.mk.inj (List.mem_singleton.mp hnew)
    rw [if_pos rfl]

end Registry

section Credential

variable (aes : Aes) (production : Bool) (registry : KeyRegistry)

/-- Encryption itself does not fail: the digests that serve as keys have the right length. -/
def encryptCredential (value : String) (nonce : Nonce) : Except String String :=
  if registry.key = "" then
    if production then
      .error ("[credential-cipher] ENCRYPTION_KEY is required in production — " ++
        "refusing to store credentials in plaintext")
    else .ok value
  else .ok ("enc:" ++ registry.version ++ ":" ++ encrypt aes value registry.key nonce)

/-- The version and the encrypted part of what follows `enc:`. -/
def parsePayload (payload : String) : Option (String × String) :=
  match splitText ':' payload with
  | [version, iv, tag, data] => some (version, joinText ':' [iv, tag, data])
  | [_, _, _] => some ("v1", payload)
  | _ => none

def decryptCredential (value : Option String) : Option String :=
  match present value with
  | none => none
  | some value =>
    match dropPrefix? value "enc:" with
    | none => some value
    | some payload =>
      match parsePayload payload with
      | none => none
      | some (version, encryptedPart) =>
        match registry.keyFor version with
        | none => none
        | some key => (decrypt aes encryptedPart key).toOption

def ensureEncrypted (value : Option String) (nonce : Nonce) : Except String (Option String) :=
  match present value with
  | none => .ok none
  | some value =>
    match dropPrefix? value "enc:" with
    | some _ => .ok (some value)
    | none => (encryptCredential aes production registry value nonce).map some

def reencryptCredential (value : Option String) (nonce : Nonce) :
    Except String (Option String) :=
  match present value with
  | none => .ok none
  | some value =>
    match dropPrefix? value "enc:" with
    | none => (encryptCredential aes production registry value nonce).map some
    | some payload =>
      match parsePayload payload with
      | none => .ok none
      | some (version, _) =>
        if version = registry.version then .ok (some value)
        else
          match present (decryptCredential aes registry (some value)) with
          | none => .ok none
          | some text => (encryptCredential aes production registry text nonce).map some

end Credential

-- ════════════════════════════════════════════════════════════════════════
-- The form of a stored credential
-- ════════════════════════════════════════════════════════════════════════

section Stored

variable {aes : Aes} {production : Bool} {registry : KeyRegistry}

/-- A text as a process with a key stores it. -/
def storedForm (aes : Aes) (registry : KeyRegistry) (text : String) (nonce : Nonce) : String :=
  "enc:" ++ registry.version ++ ":" ++ encrypt aes text registry.key nonce

theorem encryptCredential_eq (hkey : registry.key ≠ "") (text : String) (nonce : Nonce) :
    encryptCredential aes production registry text nonce =
      .ok (storedForm aes registry text nonce) := by
  rw [encryptCredential, if_neg hkey, storedForm]

theorem dropPrefix?_storedForm (text : String) (nonce : Nonce) :
    dropPrefix? (storedForm aes registry text nonce) "enc:" =
      some (registry.version ++ ":" ++ encrypt aes text registry.key nonce) := by
  rw [storedForm, String.append_assoc, String.append_assoc, dropPrefix?_append, String.append_assoc]

/-- The version of a stored credential is the one it was written under. -/
theorem parsePayload_stored (text : String) (nonce : Nonce) :
    parsePayload (registry.version ++ ":" ++ encrypt aes text registry.key nonce) =
      some (registry.version, encrypt aes text registry.key nonce) := by
  have hcolon : ":" = String.singleton ':' := by decide
  rw [parsePayload, hcolon, splitText_append registry.separated, splitText_encrypt]
  rfl

theorem storedForm_ne_empty (text : String) (nonce : Nonce) :
    storedForm aes registry text nonce ≠ "" := by
  intro h
  have hdrop : dropPrefix? (storedForm aes registry text nonce) "enc:" = some _ :=
    dropPrefix?_storedForm text nonce
  rw [h] at hdrop
  have hnone : dropPrefix? "" "enc:" = none := by decide
  rw [hnone] at hdrop
  cases hdrop

end Stored

end BotHive.Credentials
