import Refearn.Payouts.Snapshots
import Refearn.Sales.Bulk
/-!
# Stored responses of bulk executions

The response of an execution as the JSON that its column holds, and the validation of what is
read back from it before a replay returns it.
-/

namespace Refearn.Sales

open Support Support.JsonValue
open Payouts (textOf elementsOf MAX_SAFE_INTEGER)

/-! ## Writing -/

def BULK_NOT_ELIGIBLE_MESSAGE : String := "sale was excluded by the reviewed eligibility rules"

def failureJson (id : Uuid) : Json :=
  .obj
    [("id", .str id.text), ("code", .str "not_eligible"),
      ("message", .str BULK_NOT_ELIGIBLE_MESSAGE)]

def retryScopeJson (ids : List Uuid) : Json :=
  .obj [("mode", .str "selected"), ("ids", idsJson ids)]

/-- What `completeBulkExecution` stores. -/
def BulkExecutionResponse.json (response : BulkExecutionResponse) : Json :=
  .obj (Json.defined
    [("action", some (.str response.action.text)), ("succeeded", some (.num response.succeeded)),
      ("succeededIds", some (idsJson response.succeededIds)),
      ("failed", some (.arr (response.failed.map failureJson))),
      ("retryScope", response.retryScope.map retryScopeJson)])

/-! ## Reading -/

/-- `UUID`, in small letters only. -/
def uuidPattern : List (Char → Bool) :=
  groupedPattern isHexDigit (fun c => '1' ≤ c && c ≤ '8') (fun c => ['8', '9', 'a', 'b'].contains c)

def isUuidText (text : String) : Bool := fits uuidPattern text.toList

/-- The texts of a list, each of them after the one before. -/
def ascendingFrom (read : JsonValue → Option String) (previous : String) :
    List JsonValue → Option (List String)
  | [] => some []
  | item :: items => do
      let text ← (read item).filter (previous < ·)
      let texts ← ascendingFrom read text items
      some (text :: texts)

def uuidTextOf (item : JsonValue) : Option String := (textOf item).filter isUuidText

/-- The list, where `isSortedUniqueUuidList` accepts it. -/
def sortedUniqueUuidList (value : JsonValue) : Option (List String) :=
  (elementsOf value).bind (ascendingFrom uuidTextOf "")

/-- The id of one element of `failed`. -/
def failureIdOf : JsonValue → Option String
  | .obj failure =>
      if hasExactKeys failure ["id", "code", "message"] then do
        let id ← (member failure "id").bind uuidTextOf
        let _ ← ((member failure "code").bind textOf).filter (· = "not_eligible")
        let _ ← ((member failure "message").bind textOf).filter (· = BULK_NOT_ELIGIBLE_MESSAGE)
        some id
      else none
  | .null | .bool _ | .num .. | .str _ | .arr _ => none

/-- `Number.isSafeInteger`, not negative -/
def safeCountOf (value : JsonValue) : Option Nat :=
  value.number?.bind fun x =>
    if x.den = 1 ∧ 0 ≤ x.num ∧ x.num ≤ MAX_SAFE_INTEGER then some x.num.toNat else none

def isRetryScope (failedIds : List String) : JsonValue → Bool
  | .obj retryScope =>
      hasExactKeys retryScope ["mode", "ids"] &&
        ((member retryScope "mode").bind textOf).any (· = "selected") &&
        ((member retryScope "ids").bind sortedUniqueUuidList).any (· = failedIds)
  | .null | .bool _ | .num .. | .str _ | .arr _ => false

/-- The ids together are those of a selection. -/
def coversScope (succeededIds failedIds : List String) : NormalizedBulkScope → Bool
  | .selected ids => (succeededIds ++ failedIds).insertionSort (· ≤ ·) = ids.map Uuid.text
  | .allResults _ => true

def responseKeys (failed : List JsonValue) : List String :=
  if 0 < failed.length then ["action", "succeeded", "succeededIds", "failed", "retryScope"]
  else ["action", "succeeded", "succeededIds", "failed"]

/-- `validatedBulkExecutionResponse`: a stored value, where it may be replayed. -/
def validatedStoredResponse (value : JsonValue) (token : BulkPreviewTokenPayload)
    (scope : NormalizedBulkScope) : Option JsonValue :=
  match value with
  | .obj response => do
      let failed ← (member response "failed").bind elementsOf
      guard (hasExactKeys response (responseKeys failed) = true)
      let _ ← ((member response "action").bind textOf).filter (· = token.action.text)
      let succeeded ← (member response "succeeded").bind safeCountOf
      let succeededIds ← (member response "succeededIds").bind sortedUniqueUuidList
      guard (succeeded = succeededIds.length ∧ succeededIds.length = token.eligibleCount)
      let failedIds ← ascendingFrom failureIdOf "" failed
      guard (failedIds.length = token.excludedCount ∧ ∀ id ∈ failedIds, id ∉ succeededIds)
      guard (coversScope succeededIds failedIds scope = true)
      guard (0 < failedIds.length →
        (member response "retryScope").any (isRetryScope failedIds) = true)
      guard (isStable value = true)
      some value
  | .null | .bool _ | .num .. | .str _ | .arr _ => none

end Refearn.Sales
