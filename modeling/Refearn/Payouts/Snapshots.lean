import Refearn.Payouts.Decisions
import Refearn.Support.IsoDate
import Refearn.Support.JsonStore
import Refearn.Support.Patterns
/-!
# Compliance snapshots as JSON

The snapshot half of `payout-compliance.service.ts`, down to the JSON that the column holds: what
a reservation stores, and how a dispatch parses it again and compares the texts.
-/

namespace Refearn.Payouts

open Support Support.JsonValue

/-! ## Inputs -/

/-- `SafeStoredDestination` -/
structure SafeStoredDestination where
  id : String
  verifiedAt : Option Instant
  version : Int
  deriving DecidableEq

/-- `PayoutComplianceReadinessInput`, with identifiers as the texts that the service reads. -/
structure SnapshotInput where
  manualChecks : List ManualPayoutReadinessDecision
  destination : Option SafeStoredDestination

/-- What the service reads of the rows of an input. -/
def textInput (input : PayoutComplianceReadinessInput) : SnapshotInput where
  manualChecks := input.manualChecks
  destination := input.destination.map fun d => ⟨d.id.text, d.verifiedAt, d.version⟩

/-- `new Map(manualChecks.map(…)).get` -/
def decisionOf (checks : List ManualPayoutReadinessDecision) (key : ReadinessKey) :
    Option ManualPayoutReadinessDecision :=
  checks.reverse.find? fun control => control.key = key

/-- The size of the same map. -/
def decisionCount (checks : List ManualPayoutReadinessDecision) : Nat :=
  (checks.map ManualPayoutReadinessDecision.key).dedup.length

def SnapshotInput.isReady (input : SnapshotInput) (evaluatedAt : Instant) : Bool :=
  decisionCount input.manualChecks = PAYOUT_COMPLIANCE_CONTROL_KEYS.length &&
    PAYOUT_COMPLIANCE_CONTROL_KEYS.all (fun key =>
      (decisionOf input.manualChecks key).any (controlReady evaluatedAt)) &&
    input.destination.any (fun d =>
      d.verifiedAt.isSome && isValidPayoutReadinessVersion d.version)

/-! ## Snapshots -/

structure SnapshotControl where
  key : ReadinessKey
  status : DecisionStatus
  reasonCode : String
  expiresAt : Option String
  version : Int
  deriving DecidableEq

structure SnapshotDestination where
  id : String
  verifiedAt : String
  version : Int
  deriving DecidableEq

structure PayoutComplianceSnapshot where
  controls : List SnapshotControl
  destination : Option SnapshotDestination
  deriving DecidableEq

/-- `toISOString` -/
def isoText (t : Instant) : String := String.ofList (IsoDate.toISOString t)

def snapshotControl (control : ManualPayoutReadinessDecision) : SnapshotControl where
  key := control.key
  status := control.status
  reasonCode := control.reasonCode
  expiresAt := control.expiresAt.map isoText
  version := control.version

def SnapshotInput.buildSnapshot (input : SnapshotInput) : PayoutComplianceSnapshot where
  controls := input.manualChecks.map snapshotControl
  destination := input.destination.bind fun d =>
    d.verifiedAt.map fun verifiedAt => ⟨d.id, isoText verifiedAt, d.version⟩

/-- A snapshot with the texts that are written for its ids and dates. -/
def snapshotText (snapshot : ComplianceSnapshot) : PayoutComplianceSnapshot where
  controls := snapshot.controls.map fun (key, status, reasonCode, expiresAt, version) =>
    ⟨key, status, reasonCode, expiresAt.map isoText, version⟩
  destination := snapshot.destination.map fun (id, verifiedAt, version) =>
    ⟨id.text, isoText verifiedAt, version⟩

def SnapshotControl.json (control : SnapshotControl) : Json :=
  .obj
    [("key", .str (keyText control.key)), ("status", .str (statusText control.status)),
      ("reasonCode", .str control.reasonCode), ("expiresAt", .ofOption control.expiresAt),
      ("version", .num control.version)]

def SnapshotDestination.json (destination : SnapshotDestination) : Json :=
  .obj
    [("id", .str destination.id), ("verifiedAt", .str destination.verifiedAt),
      ("version", .num destination.version)]

def PayoutComplianceSnapshot.json (snapshot : PayoutComplianceSnapshot) : Json :=
  .obj
    [("format", .num 1), ("controls", .arr (snapshot.controls.map SnapshotControl.json)),
      ("destination", (snapshot.destination.map SnapshotDestination.json).getD .null)]

/-! ## Parsing -/

/-- The pattern of a UUID of version 1 to 5, in letters of either case. -/
def anyHexDigit (c : Char) : Bool := isHexDigit c || "ABCDEF".toList.contains c

def destinationIdPattern : List (Char → Bool) :=
  .replicate 8 anyHexDigit ++ isDash :: (.replicate 4 anyHexDigit ++
    isDash :: (fun c => "12345".toList.contains c) :: (.replicate 3 anyHexDigit ++
      isDash :: (fun c => "89abAB".toList.contains c) :: (.replicate 3 anyHexDigit ++
        isDash :: .replicate 12 anyHexDigit)))

def isDestinationId (text : String) : Bool := fits destinationIdPattern text.toList

def isCanonicalIso (text : String) : Bool := (IsoDate.canonicalDate text.toList).isSome

def textOf : JsonValue → Option String
  | .str s => some s
  | .null | .bool _ | .num .. | .arr _ | .obj _ => none

def statusOf (v : JsonValue) : Option DecisionStatus :=
  (textOf v).bind fun s =>
    [.pending, .ready, .blocked].find? fun status => statusText status = s

/-- `typeof version === 'number'` and `isValidPayoutReadinessVersion` -/
def versionOf (v : JsonValue) : Option Int :=
  v.number?.bind fun x =>
    if x.den = 1 ∧ isValidPayoutReadinessVersion x.num = true then some x.num else none

def canonicalIsoOf (v : JsonValue) : Option String := (textOf v).filter isCanonicalIso

/-- `isCanonicalIsoOrNull` -/
def canonicalIsoOrNullOf (v : JsonValue) : Option (Option String) :=
  match v with
  | .null => some none
  | .str _ | .bool _ | .num .. | .arr _ | .obj _ => (canonicalIsoOf v).map some

def parseControl (expectedKey : ReadinessKey) : JsonValue → Option SnapshotControl
  | .obj control =>
      if hasExactKeys control ["key", "status", "reasonCode", "expiresAt", "version"] then do
        let _ ← ((member control "key").bind textOf).filter (· = keyText expectedKey)
        let status ← (member control "status").bind statusOf
        let reasonCode ← (member control "reasonCode").bind textOf
        let expiresAt ← (member control "expiresAt").bind canonicalIsoOrNullOf
        let version ← (member control "version").bind versionOf
        some ⟨expectedKey, status, reasonCode, expiresAt, version⟩
      else none
  | .null | .bool _ | .num .. | .str _ | .arr _ => none

/-- The controls one after another, each under the key of its place. -/
def parseControls : List ReadinessKey → List JsonValue → Option (List SnapshotControl)
  | [], [] => some []
  | key :: keys, candidate :: candidates => do
      let control ← parseControl key candidate
      let controls ← parseControls keys candidates
      some (control :: controls)
  | _, _ => none

def parseDestination : JsonValue → Option SnapshotDestination
  | .obj destination =>
      if hasExactKeys destination ["id", "verifiedAt", "version"] then do
        let id ← ((member destination "id").bind textOf).filter isDestinationId
        let verifiedAt ← (member destination "verifiedAt").bind canonicalIsoOf
        let version ← (member destination "version").bind versionOf
        some ⟨id, verifiedAt, version⟩
      else none
  | .null | .bool _ | .num .. | .str _ | .arr _ => none

def elementsOf : JsonValue → Option (List JsonValue)
  | .arr elements => some elements
  | .null | .bool _ | .num .. | .str _ | .obj _ => none

def parseStored : JsonValue → Option PayoutComplianceSnapshot
  | .obj root =>
      if hasExactKeys root ["format", "controls", "destination"] then do
        let _ ← ((member root "format").bind number?).filter (· = 1)
        let elements ← (member root "controls").bind elementsOf
        let controls ← parseControls PAYOUT_COMPLIANCE_CONTROL_KEYS elements
        let destination ← (member root "destination").bind parseDestination
        some ⟨controls, some destination⟩
      else none
  | .null | .bool _ | .num .. | .str _ | .arr _ => none

/-- `recheckSnapshot` -/
def recheckStored (stored : Option JsonValue) (current : SnapshotInput) (evaluatedAt : Instant) :
    PayoutComplianceRecheck :=
  match stored.bind parseStored with
  | none => .recheckRequired
  | some parsed =>
      if current.isReady evaluatedAt = false then .changed
      else if parsed.json.stringify = current.buildSnapshot.json.stringify then .ready
      else .changed

end Refearn.Payouts
