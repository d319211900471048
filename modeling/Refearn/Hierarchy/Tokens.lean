import Refearn.Support.Base64
import Refearn.Support.IsoDate
import Refearn.Support.JsonParse
import Refearn.Support.Patterns
import Refearn.Support.Utf8
import Mathlib.Data.List.Sort
/-!
# References of the network hierarchy

`network-hierarchy.tokens.ts`. A reference is a signed payload that binds one subject to its
viewer, tenant, parent and snapshot. The digests and the cipher of `node:crypto` are
parameters with the sizes they are documented to have.
-/

namespace Refearn.Hierarchy

open Support

/-! ## Digests and the cipher -/

/-- What `node:crypto` computes: SHA-256, HMAC of a key and a message, and AES-GCM under a
key and an initial vector, which gives the ciphertext and its tag. -/
structure NodeCrypto where
  hash : List UInt8 → List UInt8
  hmac : List UInt8 → List UInt8 → List UInt8
  encrypt : List UInt8 → List UInt8 → List UInt8 → List UInt8 × List UInt8
  /-- Key, initial vector, tag and ciphertext. -/
  decrypt : List UInt8 → List UInt8 → List UInt8 → List UInt8 → Option (List UInt8)
  length_hash : ∀ message, (hash message).length = 32
  length_hmac : ∀ key message, (hmac key message).length = 32
  length_encrypt : ∀ key iv plain, (encrypt key iv plain).1.length = plain.length ∧
    (encrypt key iv plain).2.length = 16
  decrypt_encrypt : ∀ key iv plain,
    decrypt key iv (encrypt key iv plain).2 (encrypt key iv plain).1 = some plain

/-- `Buffer.from(text, 'utf8')`. -/
def bytesOf (text : String) : List UInt8 := Utf8.encode text.toList

/-- `toString('base64url')`. -/
def base64url (bytes : List UInt8) : String := String.ofList (Base64Url.encode bytes)

/-- `toString('hex')`. -/
def hex (bytes : List UInt8) : String :=
  String.ofList (bytes.flatMap fun b => fixedHex 2 b.toNat)

section Crypto

variable (crypto : NodeCrypto)

def sha256 (value : String) : String := hex (crypto.hash (bytesOf value))

end Crypto

/-! ## Patterns -/

def uuidPattern : List (Char → Bool) :=
  .replicate 8 isHexDigit ++ isDash :: (.replicate 4 isHexDigit ++
    isDash :: (fun c => "12345678".toList.contains c) :: (.replicate 3 isHexDigit ++
      isDash :: (fun c => "89ab".toList.contains c) :: (.replicate 3 isHexDigit ++
        isDash :: .replicate 12 isHexDigit)))

/-- `UUID.test`. -/
def isUuid (text : String) : Bool := fits uuidPattern text.toList

/-- `UNPADDED_BASE64URL.test`. -/
def isBase64url (cs : List Char) : Bool := cs ≠ [] && cs.all Base64Url.isLetter

/-- `SHA256_HEX.test`. -/
def isSha256Hex (text : String) : Bool := fits (.replicate 64 isHexDigit) text.toList

def isGraphic (c : Char) : Bool := 0x21 ≤ c.toNat && c.toNat ≤ 0x7e

/-! ## The payload -/

def HIERARCHY_TOKEN_DOMAIN : String := "referral-network-hierarchy:v1"
def HIERARCHY_REFERENCE_TTL_MS : Int := 15 * 60 * 1000
def HIERARCHY_TOKEN_MAX_LENGTH : Nat := 2048
def HIERARCHY_SIGNATURE_LENGTH : Nat := 43
def HIERARCHY_SUBJECT_MAX_LENGTH : Nat := 512
def HIERARCHY_PARENT_REF_MAX_LENGTH : Nat := 2048

inductive HierarchyError
  | badRequest (message : String)
  /-- The conflict `NETWORK_SNAPSHOT_EXPIRED`. -/
  | networkSnapshotExpired
  /-- `toISOString` of a date that cannot be. -/
  | invalidTime
  | typeError (message : String)

def invalidToken {α : Type} : Except HierarchyError α :=
  .error (.badRequest "invalid hierarchy reference token")

inductive ReferenceKind | parent | cursor | cluster | member
  deriving DecidableEq

def ReferenceKind.text : ReferenceKind → String
  | .parent => "parent"
  | .cursor => "cursor"
  | .cluster => "cluster"
  | .member => "member"

/-- `isReferenceKind`. -/
def ReferenceKind.ofText (text : String) : Option ReferenceKind :=
  if text = "parent" then some .parent
  else if text = "cursor" then some .cursor
  else if text = "cluster" then some .cluster
  else if text = "member" then some .member
  else none

structure ActorContext where
  userId : String
  tenantId : String
  deriving DecidableEq

/-- A `HierarchyReferenceTokenPayload`; its domain is the one of all payloads. -/
structure Payload where
  kind : ReferenceKind
  viewerUserId : String
  tenantId : String
  parentFingerprint : String
  snapshotAt : String
  subject : String
  expiresAt : String

structure ReferenceBinding where
  actor : ActorContext
  parentRef : String
  snapshotAt : String
  deriving DecidableEq

def validateActor (actor : ActorContext) : Bool := isUuid actor.userId && isUuid actor.tenantId

def validateParentRef (parentRef : String) : Bool :=
  parentRef.toList ≠ [] && parentRef.toList.length ≤ HIERARCHY_PARENT_REF_MAX_LENGTH &&
    parentRef.toList.all isGraphic

/-- `isCanonicalDate`, with the instant that `Date.parse` gives. -/
def canonicalDate (value : String) : Option Int := IsoDate.canonicalDate value.toList

def validateSubject (subject : String) : Bool :=
  isBase64url subject.toList && subject.toList.length ≤ HIERARCHY_SUBJECT_MAX_LENGTH

/-- `new Date(t).toISOString()`. -/
def toISOString (t : Int) : Except HierarchyError String :=
  if IsoDate.Representable t then .ok (String.ofList (IsoDate.toISOString t))
  else .error .invalidTime

/-- An expiry after the snapshot and within the window. -/
def withinWindow (snapshotMs : Int) (expiresAt : String) : Bool :=
  match canonicalDate expiresAt with
  | none => false
  | some expiresMs => snapshotMs < expiresMs && expiresMs ≤ snapshotMs + HIERARCHY_REFERENCE_TTL_MS

def expiresAtFor (snapshotAt : String) (expiresAt : Option String) :
    Except HierarchyError String :=
  match canonicalDate snapshotAt with
  | none => invalidToken
  | some snapshotMs => do
      let canonicalExpiry ← match expiresAt with
        | some expiresAt => .ok expiresAt
        | none => toISOString (snapshotMs + HIERARCHY_REFERENCE_TTL_MS)
      if withinWindow snapshotMs canonicalExpiry then .ok canonicalExpiry else invalidToken

/-- `canonicalPayload`. -/
def Payload.toJson (payload : Payload) : Json :=
  .obj [("domain", .str HIERARCHY_TOKEN_DOMAIN), ("kind", .str payload.kind.text),
    ("viewerUserId", .str payload.viewerUserId), ("tenantId", .str payload.tenantId),
    ("parentFingerprint", .str payload.parentFingerprint),
    ("snapshotAt", .str payload.snapshotAt), ("subject", .str payload.subject),
    ("expiresAt", .str payload.expiresAt)]

/-! ## Creating a reference -/

section Create

variable (crypto : NodeCrypto) (secret : String)

def hierarchySignature (encodedPayload : String) : List UInt8 :=
  let derivedKey := crypto.hmac (bytesOf secret) (bytesOf s!"{HIERARCHY_TOKEN_DOMAIN}:signature")
  crypto.hmac derivedKey (bytesOf encodedPayload)

def encodePayload (payload : Payload) : String :=
  base64url (bytesOf (Json.stringify payload.toJson))

/-- A payload and its signature. -/
def tokenOf (encodedPayload : String) : String :=
  encodedPayload ++ "." ++ base64url (hierarchySignature crypto secret encodedPayload)

def signHierarchyReferenceToken (payload : Payload) : Except HierarchyError String :=
  let token := tokenOf crypto secret (encodePayload payload)
  if token.toList.length > HIERARCHY_TOKEN_MAX_LENGTH then invalidToken else .ok token

structure CreateReferenceInput extends ReferenceBinding where
  subject : String
  expiresAt : Option String

def buildPayload (kind : ReferenceKind) (input : CreateReferenceInput) :
    Except HierarchyError Payload :=
  if !validateActor input.actor || (canonicalDate input.snapshotAt).isNone ||
      !validateSubject input.subject || !validateParentRef input.parentRef then invalidToken
  else do
    let expiresAt ← expiresAtFor input.snapshotAt input.expiresAt
    .ok { kind := kind
          viewerUserId := input.actor.userId
          tenantId := input.actor.tenantId
          parentFingerprint := sha256 crypto input.parentRef
          snapshotAt := input.snapshotAt
          subject := input.subject
          expiresAt := expiresAt }

def createHierarchyReferenceToken (kind : ReferenceKind) (input : CreateReferenceInput) :
    Except HierarchyError String :=
  if kind = .member then invalidToken
  else do
    let payload ← buildPayload crypto kind input
    signHierarchyReferenceToken crypto secret payload

/-! ## References of members -/

def memberReferenceKey : List UInt8 :=
  crypto.hmac (bytesOf secret) (bytesOf s!"{HIERARCHY_TOKEN_DOMAIN}:member-reference")

structure MemberReferenceInput extends ReferenceBinding where
  membershipId : String

def MemberReferenceInput.toJson (input : MemberReferenceInput) : Json :=
  .obj [("domain", .str HIERARCHY_TOKEN_DOMAIN), ("viewerUserId", .str input.actor.userId),
    ("tenantId", .str input.actor.tenantId),
    ("parentFingerprint", .str (sha256 crypto input.parentRef)),
    ("snapshotAt", .str input.snapshotAt), ("membershipId", .str input.membershipId)]

/-- A handle of one membership for one viewer; the membership's id is only hashed. -/
def deriveHierarchyMemberReference (input : MemberReferenceInput) :
    Except HierarchyError String :=
  if !validateActor input.actor || (canonicalDate input.snapshotAt).isNone ||
      !validateParentRef input.parentRef || !isUuid input.membershipId then invalidToken
  else .ok (base64url (crypto.hmac (memberReferenceKey crypto secret)
    (bytesOf (Json.stringify (input.toJson crypto)))))

/-- `isCanonicalBase64Url`. -/
def isCanonicalBase64Url (cs : List Char) : Bool :=
  Base64Url.decode cs ≠ [] && Base64Url.encode (Base64Url.decode cs) = cs

def isOpaqueMemberNodeRef (value : String) : Bool :=
  value.toList.length ≤ HIERARCHY_TOKEN_MAX_LENGTH &&
    match value.toList.splitOn '.' with
    | [payload, signature] =>
        isBase64url payload && isBase64url signature &&
          signature.length = HIERARCHY_SIGNATURE_LENGTH && isCanonicalBase64Url payload &&
          isCanonicalBase64Url signature
    | _ => false

def parseOpaqueMemberNodeRef (value : String) : Except HierarchyError String :=
  if isOpaqueMemberNodeRef value then .ok value
  else .error (.typeError "invalid opaque member node reference")

def createHierarchyMemberReferenceToken (input : MemberReferenceInput)
    (expiresAt : Option String) : Except HierarchyError String := do
  let subject ← deriveHierarchyMemberReference crypto secret input
  let payload ← buildPayload crypto .member
    { input.toReferenceBinding with subject := subject, expiresAt := expiresAt }
  let token ← signHierarchyReferenceToken crypto secret payload
  parseOpaqueMemberNodeRef token

end Create

/-! ## Verifying a reference -/

/-- Both halves of a token, in letters only and with a signature's length. -/
def splitToken (token : String) : Option (List Char × List Char) :=
  match token.toList.splitOn '.' with
  | [payload, signature] =>
      if isBase64url payload && isBase64url signature &&
          signature.length = HIERARCHY_SIGNATURE_LENGTH then some (payload, signature)
      else none
  | _ => none

def textMember (members : List (String × JsonValue)) (name : String) : Option String :=
  match JsonValue.member members name with
  | some (.str s) => some s
  | _ => none

def payloadKeys : List String :=
  ["domain", "expiresAt", "kind", "parentFingerprint", "snapshotAt", "subject", "tenantId",
    "viewerUserId"]

/-- `Object.keys(value).sort()`. -/
def sortedKeys (members : List (String × JsonValue)) : List String :=
  (JsonValue.keys members).insertionSort (· ≤ ·)

/-- What a payload's members have to be. -/
def validPayload (payload : Payload) : Bool :=
  isUuid payload.viewerUserId && isUuid payload.tenantId &&
    isSha256Hex payload.parentFingerprint && validateSubject payload.subject &&
    (payload.kind ≠ .member || payload.subject.toList.length = HIERARCHY_SIGNATURE_LENGTH) &&
    match canonicalDate payload.snapshotAt with
    | none => false
    | some snapshotMs => withinWindow snapshotMs payload.expiresAt

/-- The payload that an object holds. -/
def payloadOf (members : List (String × JsonValue)) : Option Payload := do
  let domain ← textMember members "domain"
  let kind ← (textMember members "kind").bind ReferenceKind.ofText
  let viewerUserId ← textMember members "viewerUserId"
  let tenantId ← textMember members "tenantId"
  let parentFingerprint ← textMember members "parentFingerprint"
  let snapshotAt ← textMember members "snapshotAt"
  let subject ← textMember members "subject"
  let expiresAt ← textMember members "expiresAt"
  let payload : Payload :=
    { kind, viewerUserId, tenantId, parentFingerprint, snapshotAt, subject, expiresAt }
  if sortedKeys members = payloadKeys ∧ domain = HIERARCHY_TOKEN_DOMAIN ∧
      validPayload payload = true then some payload
  else none

/-- The payload of a text that is written as `JSON.stringify` writes it. -/
def readPayload (decoded : String) : Option Payload :=
  match JsonValue.parse decoded with
  | some (.obj members) =>
      (payloadOf members).filter fun payload => Json.stringify payload.toJson = decoded
  | _ => none

structure VerifyReferenceBinding extends ReferenceBinding where
  kind : ReferenceKind

section Verify

variable (crypto : NodeCrypto) (secret : String)

def bindsTo (binding : VerifyReferenceBinding) (payload : Payload) : Bool :=
  payload.kind = binding.kind && payload.viewerUserId = binding.actor.userId &&
    payload.tenantId = binding.actor.tenantId &&
    payload.parentFingerprint = sha256 crypto binding.parentRef &&
    payload.snapshotAt = binding.snapshotAt

/-- The payload of a token that is written canonically and signed. -/
def authenticPayload (token : String) : Option Payload :=
  match splitToken token with
  | none => none
  | some (encoded, signature) =>
      let payloadBytes := Base64Url.decode encoded
      let actualSignature := Base64Url.decode signature
      if Base64Url.encode payloadBytes = encoded ∧ Base64Url.encode actualSignature = signature ∧
          actualSignature = hierarchySignature crypto secret (String.ofList encoded) then
        readPayload (String.ofList (Utf8.decode payloadBytes))
      else none

def verifyHierarchyReferenceToken (token : String) (binding : VerifyReferenceBinding)
    (now : Int) : Except HierarchyError Payload :=
  if token = "" || token.toList.length > HIERARCHY_TOKEN_MAX_LENGTH ||
      !validateActor binding.actor || (canonicalDate binding.snapshotAt).isNone ||
      !validateParentRef binding.parentRef then invalidToken
  else
    match authenticPayload crypto secret token with
    | none => invalidToken
    | some payload =>
        if !bindsTo crypto binding payload then invalidToken
        else
          match canonicalDate payload.expiresAt with
          | none => invalidToken
          | some expiresMs =>
              if now ≥ expiresMs then .error .networkSnapshotExpired else .ok payload

end Verify

end Refearn.Hierarchy
