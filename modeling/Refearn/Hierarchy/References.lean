import Refearn.Hierarchy.Tokens
/-!
# Keysets and references
-/

/-!
## Keysets of the network hierarchy

What continues a page: the instant and the id of the row that the page ended with, or
nothing for a page from the start on. A member's keyset is encrypted.
-/

namespace Refearn.Hierarchy

open Support

structure Keyset where
  joinedAt : String
  id : String
  deriving DecidableEq

def badRequest {α : Type} (message : String) : Except HierarchyError α :=
  .error (.badRequest message)

def invalidRequest {α : Type} : Except HierarchyError α := badRequest "invalid hierarchy request"

/-- The object that a keyset is written as. -/
def keysetJson : Option Keyset → Json
  | some after => .obj [("v", .num 1), ("joinedAt", .str after.joinedAt), ("id", .str after.id)]
  | none => .obj [("v", .num 1)]

def encodeKeyset (after : Option Keyset) : String :=
  base64url (bytesOf (Json.stringify (keysetJson after)))

/-- The keyset of an object's members. -/
def keysetOf (members : List (String × JsonValue)) : Except HierarchyError (Option Keyset) :=
  if !(JsonValue.member members "v").any JsonValue.isOne then invalidRequest
  else if (JsonValue.keys members).length = 1 then .ok none
  else
    match textMember members "joinedAt", textMember members "id" with
    | some joinedAt, some id =>
        if String.intercalate "," (sortedKeys members) = "id,joinedAt,v" ∧
            (canonicalDate joinedAt).isSome ∧ isUuid id = true then .ok (some ⟨joinedAt, id⟩)
        else invalidRequest
    | _, _ => invalidRequest

def readKeyset (decoded : String) : Except HierarchyError (Option Keyset) :=
  match JsonValue.parse decoded with
  | some (.obj members) => keysetOf members
  | _ => invalidRequest

/-- The text of bytes that are written in no other way. -/
def decodeCanonical (subject : String) : Option String :=
  let bytes := Base64Url.decode subject.toList
  if base64url bytes = subject then some (String.ofList (Utf8.decode bytes)) else none

def parseKeyset (subject : String) : Except HierarchyError (Option Keyset) :=
  match decodeCanonical subject with
  | none => invalidRequest
  | some decoded => readKeyset decoded

/-! ## Encrypted keysets -/

section Encrypted

variable (crypto : NodeCrypto) (secret : String)

def keyFromSecret : List UInt8 := crypto.hash (bytesOf secret)

/-- `encryptSecret` with a secret, under the initial vector that is drawn for it. -/
def encryptSecretWithKey (iv : List UInt8) (value : String) : String :=
  let (ciphertext, tag) := crypto.encrypt (keyFromSecret crypto secret) iv (bytesOf value)
  String.intercalate "." ["v1", base64url iv, base64url tag, base64url ciphertext]

/-- `decryptSecret` with a secret; a text that it throws on has none. -/
def decryptSecretWithKey (sealed : String) : Option String :=
  match sealed.toList.splitOn '.' with
  | version :: ivRaw :: tagRaw :: ciphertextRaw :: _ =>
      if version ≠ "v1".toList ∨ ivRaw = [] ∨ tagRaw = [] ∨ ciphertextRaw = [] then none
      else
        (crypto.decrypt (keyFromSecret crypto secret) (Base64Url.decode ivRaw)
          (Base64Url.decode tagRaw) (Base64Url.decode ciphertextRaw)).map fun plain =>
            String.ofList (Utf8.decode plain)
  | _ => none

def encodeMemberKeyset (iv : List UInt8) (after : Option Keyset) : String :=
  base64url (bytesOf (encryptSecretWithKey crypto secret iv (Json.stringify (keysetJson after))))

def parseMemberKeyset (subject : String) : Except HierarchyError (Option Keyset) :=
  if !isBase64url subject.toList || subject.toList.length > HIERARCHY_TOKEN_MAX_LENGTH then
    invalidRequest
  else
    match (decodeCanonical subject).bind (decryptSecretWithKey crypto secret) with
    | none => invalidRequest
    | some decoded => readKeyset decoded

end Encrypted

end Refearn.Hierarchy

/-!
## The references that the hierarchy service makes

The bindings of `network-hierarchy.service.ts` that stand for a parent, and the tokens it
makes under them.
-/

namespace Refearn.Hierarchy

open Support

/-! ## Bindings -/

def TENANT_ROOT_REF : String := "tenant-root"

inductive AdminScope | full | focused
  deriving DecidableEq

def AdminScope.text : AdminScope → String
  | .full => "full"
  | .focused => "focused"

def branchBinding (parentRef : String) (focusId : Option String) :
    Except HierarchyError String :=
  if parentRef ≠ TENANT_ROOT_REF ∧ isUuid parentRef = false then invalidRequest
  else
    match focusId with
    | none => .ok s!"admin-children:full:{parentRef}"
    | some focusId =>
        if isUuid focusId = false ∨ parentRef = TENANT_ROOT_REF then invalidRequest
        else .ok s!"admin-children:focused:{focusId}:{parentRef}"

def assertScope (scope : AdminScope) (focusId : Option String) : Bool :=
  match scope with
  | .full => focusId.isNone
  | .focused => focusId.any isUuid

def listBinding (scope : AdminScope) (focusId : Option String) : String :=
  s!"admin-list:{scope.text}:{focusId.getD TENANT_ROOT_REF}"

def memberRootBinding (rootMembershipId : String) : String := s!"member-tree:{rootMembershipId}"

section Service

variable (crypto : NodeCrypto) (secret : String)

/-- The binding of `adminSearch`. -/
def searchBinding (query : String) : String := s!"search:{sha256 crypto query}"

def memberSearchBinding (rootMembershipId query : String) : String :=
  s!"member-direct-search:{rootMembershipId}:{sha256 crypto query}"

/-! ## Tokens -/

/-- The columns of a membership that a continuation is made of. -/
structure KeysetRow where
  joinedAt : Int
  id : String
  deriving DecidableEq

def KeysetRow.keyset (row : KeysetRow) : Except HierarchyError Keyset := do
  let joinedAt ← toISOString row.joinedAt
  .ok ⟨joinedAt, row.id⟩

/-- The keyset of a row, if there is one. -/
def keysetAfter : Option KeysetRow → Except HierarchyError (Option Keyset)
  | none => .ok none
  | some row => row.keyset.map some

def cursorToken (actor : ActorContext) (binding snapshotAt : String) (row : KeysetRow) :
    Except HierarchyError String := do
  let after ← keysetAfter (some row)
  createHierarchyReferenceToken crypto secret .cursor
    { actor, parentRef := binding, snapshotAt, subject := encodeKeyset after, expiresAt := none }

def clusterToken (actor : ActorContext) (binding snapshotAt : String) (row : Option KeysetRow) :
    Except HierarchyError String := do
  let after ← keysetAfter row
  createHierarchyReferenceToken crypto secret .cluster
    { actor, parentRef := binding, snapshotAt, subject := encodeKeyset after, expiresAt := none }

def memberNodeRef (actor : ActorContext) (rootBinding membershipId snapshotAt : String) :
    Except HierarchyError String :=
  createHierarchyMemberReferenceToken crypto secret
    { actor, membershipId, parentRef := rootBinding, snapshotAt } none

/-- `memberCursorToken` and `memberSearchCursorToken`, which differ in what they are bound to. -/
def memberCursorToken (iv : List UInt8) (actor : ActorContext) (parentRef snapshotAt : String)
    (row : KeysetRow) : Except HierarchyError String := do
  let after ← keysetAfter (some row)
  createHierarchyReferenceToken crypto secret .cursor
    { actor, parentRef, snapshotAt, subject := encodeMemberKeyset crypto secret iv after
      expiresAt := none }

def memberClusterToken (iv : List UInt8) (actor : ActorContext) (parentRef snapshotAt : String)
    (row : Option KeysetRow) : Except HierarchyError String := do
  let after ← keysetAfter row
  let token ← createHierarchyReferenceToken crypto secret .cluster
    { actor, parentRef, snapshotAt, subject := encodeMemberKeyset crypto secret iv after
      expiresAt := none }
  parseOpaqueMemberNodeRef token

/-! ## What references are made of -/

/-- The occasions on which the service makes a reference. -/
inductive Reference
  | branchCursor (parentRef : String) (focusId : Option String) (row : KeysetRow)
  | branchCluster (parentRef : String) (focusId : Option String) (row : Option KeysetRow)
  | listCursor (scope : AdminScope) (focusId : Option String) (row : KeysetRow)
  | searchCursor (query : String) (row : KeysetRow)
  | memberNode (rootMembershipId membershipId : String)
  | memberCursor (parentRef : String) (iv : List UInt8) (row : KeysetRow)
  | memberSearchCursor (rootMembershipId query : String) (iv : List UInt8) (row : KeysetRow)
  | memberCluster (parentRef : String) (iv : List UInt8) (row : Option KeysetRow)

namespace Reference

def kind : Reference → ReferenceKind
  | .branchCursor .. | .listCursor .. | .searchCursor .. | .memberCursor ..
  | .memberSearchCursor .. => .cursor
  | .branchCluster .. | .memberCluster .. => .cluster
  | .memberNode .. => .member

def parentRef : Reference → Except HierarchyError String
  | .branchCursor parentRef focusId _ | .branchCluster parentRef focusId _ =>
      branchBinding parentRef focusId
  | .listCursor scope focusId _ =>
      if assertScope scope focusId then .ok (listBinding scope focusId) else invalidRequest
  | .searchCursor query _ => .ok (searchBinding crypto query)
  | .memberNode root _ => .ok (memberRootBinding root)
  | .memberSearchCursor root query _ _ => .ok (memberSearchBinding crypto root query)
  | .memberCursor parentRef _ _ | .memberCluster parentRef _ _ =>
      parseOpaqueMemberNodeRef parentRef

/-- The row after which the reference continues; a member's own reference has none. -/
def row : Reference → Option (Option KeysetRow)
  | .branchCursor _ _ row | .listCursor _ _ row | .searchCursor _ row | .memberCursor _ _ row
  | .memberSearchCursor _ _ _ row => some (some row)
  | .branchCluster _ _ row | .memberCluster _ _ row => some row
  | .memberNode .. => none

/-- The keyset that the subject of a continuation is parsed to. -/
def parse (ref : Reference) (subject : String) : Except HierarchyError (Option Keyset) :=
  match ref with
  | .branchCursor .. | .branchCluster .. | .listCursor .. | .searchCursor .. =>
      parseKeyset subject
  | .memberCursor .. | .memberSearchCursor .. | .memberCluster .. =>
      parseMemberKeyset crypto secret subject
  | .memberNode .. => invalidRequest

/-- The subject of a reference under its parent. -/
def subject (ref : Reference) (actor : ActorContext) (parentRef snapshotAt : String) :
    Except HierarchyError String :=
  match ref with
  | .branchCursor _ _ row | .listCursor _ _ row | .searchCursor _ row =>
      (keysetAfter (some row)).map encodeKeyset
  | .branchCluster _ _ row => (keysetAfter row).map encodeKeyset
  | .memberCursor _ iv row | .memberSearchCursor _ _ iv row =>
      (keysetAfter (some row)).map (encodeMemberKeyset crypto secret iv)
  | .memberCluster _ iv row =>
      (keysetAfter row).map (encodeMemberKeyset crypto secret iv)
  | .memberNode _ membershipId =>
      deriveHierarchyMemberReference crypto secret
        { actor, parentRef, snapshotAt, membershipId }

def create (ref : Reference) (actor : ActorContext) (snapshotAt : String) :
    Except HierarchyError String := do
  let parentRef ← ref.parentRef crypto
  match ref with
  | .branchCursor _ _ row | .listCursor _ _ row | .searchCursor _ row =>
      cursorToken crypto secret actor parentRef snapshotAt row
  | .branchCluster _ _ row => clusterToken crypto secret actor parentRef snapshotAt row
  | .memberNode _ membershipId =>
      memberNodeRef crypto secret actor parentRef membershipId snapshotAt
  | .memberCursor _ iv row | .memberSearchCursor _ _ iv row =>
      memberCursorToken crypto secret iv actor parentRef snapshotAt row
  | .memberCluster _ iv row =>
      memberClusterToken crypto secret iv actor parentRef snapshotAt row

end Reference

end Service

/-- A row as the database holds it: its instant is a date and its id an identifier. -/
structure KeysetRow.Stored (row : KeysetRow) : Prop where
  joinedAt : IsoDate.Representable row.joinedAt
  id : isUuid row.id = true

/-- A reference to stored memberships, under an initial vector of twelve bytes. -/
def Reference.Stored : Reference → Prop
  | .branchCursor _ _ row | .listCursor _ _ row | .searchCursor _ row => row.Stored
  | .branchCluster _ _ row => ∀ r ∈ row, r.Stored
  | .memberNode root membershipId => isUuid root = true ∧ isUuid membershipId = true
  | .memberCursor _ iv row => iv.length = 12 ∧ row.Stored
  | .memberSearchCursor root _ iv row => isUuid root = true ∧ iv.length = 12 ∧ row.Stored
  | .memberCluster _ iv row => iv.length = 12 ∧ ∀ r ∈ row, r.Stored

end Refearn.Hierarchy
