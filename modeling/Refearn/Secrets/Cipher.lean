import Refearn.Support.Base64
import Refearn.Support.Json
import Refearn.Support.Utf8
/-!
# Envelopes of secrets

`secret-cipher.ts`, and the old helpers `encryptSecret` and `decryptSecret` of `crypto.ts`. A
`v1` envelope names its provider and key and is bound to a context; an old one has three parts
under the key of the environment. Whatever fails inside is one error to the caller, so that the
inner functions answer `none`.
-/

namespace Refearn.Secrets

open Support

def VERSION : String := "v1"
def IV_BYTES : Nat := 12
def AUTH_TAG_BYTES : Nat := 16

inductive SecretError | encryptionFailed | decryptionFailed
  deriving DecidableEq

def SecretError.message : SecretError → String
  | .encryptionFailed => "secret encryption failed"
  | .decryptionFailed => "secret decryption failed"

structure SecretContext where
  purpose : String
  tenantId : Option String
  recordId : String
  deriving DecidableEq

def validateContext (context : SecretContext) : Bool :=
  (context.purpose = "user-totp" || context.purpose = "payout-account") &&
    context.recordId ≠ "" && context.tenantId ≠ some ""

/-- `Buffer.from(text, 'utf8')`. -/
def utf8 (text : String) : List UInt8 := Utf8.encode text.toList

/-- `toString('utf8')`. -/
def ofUtf8 (bytes : List UInt8) : String := String.ofList (Utf8.decode bytes)

/-! ## Providers -/

/-- AES-256-GCM of `node:crypto`: under a key, an initial vector and associated data, the
ciphertext and the tag of a plaintext; and back from the tag and the ciphertext. -/
structure AesGcm where
  encrypt : List UInt8 → List UInt8 → List UInt8 → List UInt8 → List UInt8 × List UInt8
  decrypt : List UInt8 → List UInt8 → List UInt8 → List UInt8 → List UInt8 → Option (List UInt8)
  length_encrypt : ∀ key iv aad plain, (encrypt key iv aad plain).1.length = plain.length ∧
    (encrypt key iv aad plain).2.length = AUTH_TAG_BYTES

/-- A provider; what `seal` draws at random is its first argument. -/
structure SecretCryptoProvider where
  providerId : String
  activeKeyId : String
  sealPayload : List UInt8 → String → List UInt8 → List UInt8 → Option (List UInt8)
  /-- Key, payload and associated data. -/
  openPayload : String → List UInt8 → List UInt8 → Option (List UInt8)

section EnvAesGcm

variable (gcm : AesGcm) (hash : List UInt8 → List UInt8) (key : List UInt8)

def envKeyId : String := String.ofList ((Base64Url.encode (hash key)).take 22)

/-- `EnvAesGcmSecretCryptoProvider`, with the key that `encryptionKeyFromEnv` derived. -/
def envAesGcm : SecretCryptoProvider where
  providerId := "env-aes-256-gcm"
  activeKeyId := envKeyId hash key
  sealPayload iv keyId plaintext aad :=
    if keyId ≠ envKeyId hash key then none
    else
      let sealed := gcm.encrypt key iv aad plaintext
      some (iv ++ sealed.2 ++ sealed.1)
  openPayload keyId payload aad :=
    if keyId ≠ envKeyId hash key then none
    else if payload.length < IV_BYTES + AUTH_TAG_BYTES then none
    else
      gcm.decrypt key (payload.take IV_BYTES) ((payload.drop IV_BYTES).take AUTH_TAG_BYTES) aad
        (payload.drop (IV_BYTES + AUTH_TAG_BYTES))

end EnvAesGcm

/-! ## The old format -/

/-- The texts between dots. -/
def parts (text : String) : List (List Char) := text.toList.splitOn '.'

def joined (texts : List (List Char)) : String := String.ofList (['.'].intercalate texts)

/-- `encryptSecret` under the key of the environment. -/
def encryptSecret (gcm : AesGcm) (key iv : List UInt8) (plain : String) : String :=
  let sealed := gcm.encrypt key iv [] (utf8 plain)
  joined [Base64.encode iv, Base64.encode sealed.2, Base64.encode sealed.1]

def decryptSecret (gcm : AesGcm) (key : List UInt8) (blob : String) : Option String :=
  match parts blob with
  | iv :: tag :: enc :: _ =>
      (gcm.decrypt key (Base64.decode iv) (Base64.decode tag) [] (Base64.decode enc)).map ofUtf8
  | _ => none

def decodeBase64 (value : List Char) : Option (List UInt8) :=
  if value = [] ∨ Base64.isBase64 value = false then none
  else if Base64.encode (Base64.decode value) ≠ value then none
  else some (Base64.decode value)

/-- `validateLegacyEnvelope`, with `true` for what it lets through. -/
def validateLegacyEnvelope (envelope : String) : Bool :=
  match parts envelope with
  | [ivB, tagB, encB] =>
      match decodeBase64 ivB, decodeBase64 tagB, decodeBase64 encB with
      | some iv, some tag, some ciphertext =>
          iv.length = IV_BYTES && tag.length = AUTH_TAG_BYTES && ciphertext.length ≠ 0
      | _, _, _ => false
  | _ => false

/-! ## The new format -/

def canonicalJson (providerId keyId : String) (context : SecretContext) : Json :=
  .obj [("scope", .str "refearn-secret"), ("version", .num 1), ("provider", .str providerId),
    ("keyId", .str keyId), ("purpose", .str context.purpose),
    ("tenantId", .ofOption context.tenantId), ("recordId", .str context.recordId)]

/-- Compared by what it binds, never by its bytes. -/
@[irreducible] def canonicalAad (providerId keyId : String) (context : SecretContext) : List UInt8 :=
  utf8 (canonicalJson providerId keyId context).stringify

def encodeText (value : String) : Option (List Char) :=
  if value = "" then none else some (Base64Url.encode (utf8 value))

def decodeBase64Url (value : List Char) : Option (List UInt8) :=
  if value = [] ∨ value.all Base64Url.isLetter = false then none
  else if Base64Url.encode (Base64Url.decode value) ≠ value then none
  else some (Base64Url.decode value)

def decodeText (value : List Char) : Option String := do
  let bytes ← decodeBase64Url value
  if ofUtf8 bytes = "" then none else some (ofUtf8 bytes)

/-! ## The cipher -/

inductive WriteVersion | legacy | v1
  deriving DecidableEq

/-- The constructor's `writeVersion`; no other text is taken. -/
def WriteVersion.ofText (text : String) : Option WriteVersion :=
  if text = "legacy" then some .legacy else if text = VERSION then some .v1 else none

/-- A cipher as its constructor leaves it. -/
structure VersionedSecretCipher where
  activeProvider : SecretCryptoProvider
  otherProviders : List SecretCryptoProvider
  writeVersion : WriteVersion
  /-- What `encryptionKeyFromEnv` gives the old helpers. -/
  encryptionKey : List UInt8
  distinct : ((activeProvider :: otherProviders).map (·.providerId)).Nodup

section Cipher

variable (gcm : AesGcm) (cipher : VersionedSecretCipher)

def VersionedSecretCipher.providers : List SecretCryptoProvider :=
  cipher.activeProvider :: cipher.otherProviders

def encryptV1 (entropy : List UInt8) (plaintext : String) (context : SecretContext) :
    Option String := do
  guard (validateContext context = true)
  let providerId := cipher.activeProvider.providerId
  let keyId := cipher.activeProvider.activeKeyId
  let aad := canonicalAad providerId keyId context
  let payload ← cipher.activeProvider.sealPayload entropy keyId (utf8 plaintext) aad
  return joined [VERSION.toList, ← encodeText providerId, ← encodeText keyId,
    Base64Url.encode payload]

/-- `encrypt`; `entropy` is what is drawn at random. -/
def encrypt (entropy : List UInt8) (plaintext : String) (context : SecretContext) :
    Except SecretError String :=
  match cipher.writeVersion with
  | .legacy => .ok (encryptSecret gcm cipher.encryptionKey entropy plaintext)
  | .v1 =>
      match encryptV1 cipher entropy plaintext context with
      | some envelope => .ok envelope
      | none => .error .encryptionFailed

def decryptV1 (envelope : String) (context : SecretContext) : Option String :=
  match parts envelope with
  | [version, providerB, keyB, payloadB] => do
      guard (version = VERSION.toList)
      let providerId ← decodeText providerB
      let keyId ← decodeText keyB
      let payload ← decodeBase64Url payloadB
      let provider ← cipher.providers.find? (·.providerId = providerId)
      let plain ← provider.openPayload keyId payload (canonicalAad providerId keyId context)
      return ofUtf8 plain
  | _ => none

/-- `startsWith('v1.')`. -/
def isVersioned (envelope : String) : Bool := (VERSION ++ ".").toList.isPrefixOf envelope.toList

def decryptEither (envelope : String) (context : SecretContext) : Option String := do
  guard (validateContext context = true)
  if isVersioned envelope then decryptV1 cipher envelope context
  else do
    guard (validateLegacyEnvelope envelope = true)
    decryptSecret gcm cipher.encryptionKey envelope

def decrypt (envelope : String) (context : SecretContext) : Except SecretError String :=
  match decryptEither gcm cipher envelope context with
  | some plaintext => .ok plaintext
  | none => .error .decryptionFailed

end Cipher

end Refearn.Secrets
