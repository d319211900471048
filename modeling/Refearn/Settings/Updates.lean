import Refearn.Schema
import Refearn.Support.Json
import Refearn.Support.JsText
import Refearn.Support.Runs
/-!
# Updates of the settings

`SettingsService.update`. Each update is a partial patch in a transaction of its own: it reads the
row of the tenant without a lock, computes from it what is to be written, and writes that. Other
updates may commit in between.
-/

namespace Refearn.Settings

open Support

/-- What is taken from outside: `Intl.DateTimeFormat` on a time zone, and full upper case. -/
structure SettingsEnv where
  isTimeZone : String → Bool
  toUpperCase : String → String

/-- The columns of a tenant that the settings are. -/
structure TenantSettings where
  name : String
  maturationRule : MaturationRule
  maturationDays : Option Int
  payoutMinCents : Int
  timezone : String
  notifyNewMemberName : Bool
  compressionEnabled : Bool
  inactiveMembersEarn : Bool
  requireSeparateApprover : Bool
  requireKycForPayout : Bool
  requirePayoutApproval : Bool
  autoRequestPayouts : Bool
  branding : Json

/-- A patch. A missing field is left alone; `some none` for the days is `null`. -/
structure UpdateSettingsInput where
  name : Option String
  maturationRule : Option MaturationRule
  maturationDays : Option (Option Int)
  payoutMinCents : Option Int
  timezone : Option String
  notifyNewMemberName : Option Bool
  compressionEnabled : Option Bool
  inactiveMembersEarn : Option Bool
  requireSeparateApprover : Option Bool
  requireKycForPayout : Option Bool
  requirePayoutApproval : Option Bool
  autoRequestPayouts : Option Bool
  branding : Option Json

/-! ## Checks -/

def assertValidTimeZone (env : SettingsEnv) (timezone : String) : Except String Unit :=
  if env.isTimeZone timezone then .ok () else .error "invalid timezone"

def DAYS_MUST_BE_NULL : String :=
  "maturationDays must be null unless maturationRule is days_after_approval"

def assertMaturationConfig (rule : MaturationRule) (days : Option Int) : Except String Unit :=
  if rule = .daysAfterApproval ∧ days = none then
    .error "maturationDays is required for days_after_approval"
  else if rule ≠ .daysAfterApproval ∧ days ≠ none then .error DAYS_MUST_BE_NULL
  else .ok ()

/-! ## Branding -/

def asRecord : Json → List (String × Json)
  | .obj members => members
  | _ => []

/-- A field of the input that is a string. -/
def textField (input : List (String × Json)) (key : String) (normalize : String → String) :
    List (String × String) :=
  match input.lookup key with
  | some (.str s) => [(key, normalize s)]
  | _ => []

/-- `s.slice(0, n)` -/
def slice (n : Nat) (s : String) : String := String.ofList (s.toList.take n)

def normalizeBrandingPatch (env : SettingsEnv) (value : Option Json) :
    Option (List (String × String)) :=
  match value with
  | some (.obj input) =>
      some (textField input "logoText" (fun s => slice 2 (env.toUpperCase (trim s))) ++
        textField input "tagline" (fun s => slice 120 (trim s)) ++
        textField input "primaryColor" env.toUpperCase ++
        textField input "accentColor" env.toUpperCase)
  | _ => none

/-- `{ ...members, [key]: value }` -/
def setMember (key : String) (value : Json) : List (String × Json) → List (String × Json)
  | [] => [(key, value)]
  | m :: members =>
      if m.1 = key then (key, value) :: members else m :: setMember key value members

/-- `{ ...members, ...patch }` -/
def spread (members : List (String × Json)) (patch : List (String × String)) :
    List (String × Json) :=
  patch.foldl (fun members p => setMember p.1 (.str p.2) members) members

/-! ## The update -/

/-- The `data` of the update; a missing field is not written. -/
structure TenantUpdate where
  name : Option String
  maturationRule : Option MaturationRule
  maturationDays : Option (Option Int)
  payoutMinCents : Option Int
  timezone : Option String
  notifyNewMemberName : Option Bool
  compressionEnabled : Option Bool
  inactiveMembersEarn : Option Bool
  requireSeparateApprover : Option Bool
  requireKycForPayout : Option Bool
  requirePayoutApproval : Option Bool
  autoRequestPayouts : Option Bool
  branding : Option Json

/-- What an update computes from the row that it has read. -/
def tenantUpdate (env : SettingsEnv) (input : UpdateSettingsInput) (before : TenantSettings) :
    Except String TenantUpdate := do
  let nextRule := input.maturationRule.getD before.maturationRule
  let givenDays := input.maturationDays.getD before.maturationDays
  if nextRule ≠ .daysAfterApproval ∧ (input.maturationDays.getD none).isSome then
    .error DAYS_MUST_BE_NULL
  else
    let nextMaturationDays := if nextRule ≠ .daysAfterApproval then none else givenDays
    let shouldUpdateMaturationDays := input.maturationDays.isSome ||
      input.maturationRule.isSome || nextMaturationDays != before.maturationDays
    assertValidTimeZone env (input.timezone.getD before.timezone)
    assertMaturationConfig nextRule nextMaturationDays
    let brandingPatch := normalizeBrandingPatch env input.branding
    .ok
      { name := input.name
        maturationRule := input.maturationRule
        maturationDays := if shouldUpdateMaturationDays then some nextMaturationDays else none
        payoutMinCents := input.payoutMinCents
        timezone := input.timezone
        notifyNewMemberName := input.notifyNewMemberName
        compressionEnabled := input.compressionEnabled
        inactiveMembersEarn := input.inactiveMembersEarn
        requireSeparateApprover := input.requireSeparateApprover
        requireKycForPayout := input.requireKycForPayout
        requirePayoutApproval := input.requirePayoutApproval
        autoRequestPayouts := input.autoRequestPayouts
        branding := brandingPatch.map fun patch => .obj (spread (asRecord before.branding) patch) }

/-- The row after the update, which finds it as it is by then. -/
def TenantSettings.updated (u : TenantUpdate) (t : TenantSettings) : TenantSettings where
  name := u.name.getD t.name
  maturationRule := u.maturationRule.getD t.maturationRule
  maturationDays := u.maturationDays.getD t.maturationDays
  payoutMinCents := u.payoutMinCents.getD t.payoutMinCents
  timezone := u.timezone.getD t.timezone
  notifyNewMemberName := u.notifyNewMemberName.getD t.notifyNewMemberName
  compressionEnabled := u.compressionEnabled.getD t.compressionEnabled
  inactiveMembersEarn := u.inactiveMembersEarn.getD t.inactiveMembersEarn
  requireSeparateApprover := u.requireSeparateApprover.getD t.requireSeparateApprover
  requireKycForPayout := u.requireKycForPayout.getD t.requireKycForPayout
  requirePayoutApproval := u.requirePayoutApproval.getD t.requirePayoutApproval
  autoRequestPayouts := u.autoRequestPayouts.getD t.autoRequestPayouts
  branding := u.branding.getD t.branding

/-! ## Interleavings -/

/-- Where an update stands. -/
inductive UpdateCall
  | reading (input : UpdateSettingsInput)
  | writing (input : UpdateSettingsInput) (before : TenantSettings) (u : TenantUpdate)
  | committed
  | refused (message : String)

structure SettingsWorld where
  tenant : TenantSettings
  calls : List UpdateCall
  /-- the branding patches committed so far, the newest first -/
  patches : List (List (String × String))
  /-- the rows before and after that the audit log holds -/
  audits : List (TenantSettings × TenantSettings)

inductive SettingsStep
  | call (input : UpdateSettingsInput)
  /-- the read of an update and all that it computes -/
  | read (i : Nat)
  /-- its write, its audit row and its commit -/
  | write (i : Nat)

def SettingsStep.apply (env : SettingsEnv) (step : SettingsStep) (w : SettingsWorld) :
    SettingsWorld :=
  match step with
  | .call input => { w with calls := w.calls ++ [.reading input] }
  | .read i =>
      match w.calls[i]? with
      | some (.reading input) =>
          match tenantUpdate env input w.tenant with
          | .ok u => { w with calls := w.calls.set i (.writing input w.tenant u) }
          | .error message => { w with calls := w.calls.set i (.refused message) }
      | _ => w
  | .write i =>
      match w.calls[i]? with
      | some (.writing input before u) =>
          { tenant := w.tenant.updated u
            calls := w.calls.set i .committed
            patches :=
              match normalizeBrandingPatch env input.branding with
              | some patch => patch :: w.patches
              | none => w.patches
            audits := w.audits ++ [(before, w.tenant.updated u)] }
      | _ => w

/-! ## Consistency -/

/-- The days are set exactly for the rule that needs them, and the time zone is one. -/
structure Consistent (env : SettingsEnv) (t : TenantSettings) : Prop where
  days : t.maturationDays.isSome = true ↔ t.maturationRule = .daysAfterApproval
  timezone : env.isTimeZone t.timezone = true

/-- Each field of the branding is as the last patch has left it that had the field. -/
def KeepsPatches (w : SettingsWorld) : Prop :=
  ∀ key value, w.patches.findSome? (fun patch => patch.lookup key) = some value →
    (asRecord w.tenant.branding).lookup key = some (.str value)

/-- Between the read and the write of an update that gives the days and no rule, no other has
changed whether the rule needs them; between those of one that patches the branding, none has
changed another field of it. -/
def Undisturbed (env : SettingsEnv) (step : SettingsStep) (w : SettingsWorld) : Prop :=
  match step with
  | .write i =>
      ∀ input before u, w.calls[i]? = some (.writing input before u) →
        (input.maturationRule = none → input.maturationDays ≠ none →
          (w.tenant.maturationRule = .daysAfterApproval ↔
            before.maturationRule = .daysAfterApproval)) ∧
        ∀ patch, normalizeBrandingPatch env input.branding = some patch →
          ∀ key, patch.lookup key = none →
            (asRecord w.tenant.branding).lookup key = (asRecord before.branding).lookup key
  | _ => True

end Refearn.Settings
