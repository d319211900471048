import Refearn.Schema
import Refearn.Support.EventLog
import Refearn.Support.IsoDate
import Refearn.Support.JsText
import Refearn.Support.JsonText
import Refearn.Support.Patterns
/-!
# Presentation of payouts

`payout-presentation.ts`: what a payout is shown as. The presentation is read off the columns of
a payout row, or folded from a log of events. Wherever the evidence does not fit the state it is
the presentation `status-unavailable`, which shows nothing. An event is an object that came as
JSON: a member is absent, `null` or a value.
-/

namespace Refearn.Payouts.Presentation

open Support Support.IsoDate

/-! ## What is shown -/

inductive PayoutState | requested | processing | settled | rejected | failed
  deriving DecidableEq

/-- `PayoutMethodPresentation` -/
inductive PayoutRail | ach | check
  deriving DecidableEq

inductive HoldOwner | workspaceAdmin | earnicaSupport | externalProvider | systemPolicy
  deriving DecidableEq

inductive PayoutPhase | eligibility | review | fulfillment | unavailable
  deriving DecidableEq

inductive PresentationAuthority | legacySnapshot | eventLog | unavailable
  deriving DecidableEq

inductive PayoutMutations | notEvaluated | disabled
  deriving DecidableEq

inductive PayoutActionCandidate
  | approveRequest | rejectRequest | dispatchBatch | settleBatch | failBatch
  deriving DecidableEq

inductive CandidateAuthority | activeTenant | unavailable
  deriving DecidableEq

structure ActionCandidates where
  authority : CandidateAuthority
  mutations : List PayoutActionCandidate
  deriving DecidableEq

structure PayoutAmount where
  amountCents : String
  currency : String
  deriving DecidableEq

structure PayoutTimestamps where
  createdAt : String
  processingAt : Option String
  terminalAt : Option String
  deriving DecidableEq

structure PayoutHold where
  reasonCode : String
  owner : HoldOwner
  deriving DecidableEq

structure SafeReason where
  code : String
  message : String
  deriving DecidableEq

/-- `support` is the reason code of the support action. -/
structure PayoutActions where
  mutations : PayoutMutations
  support : Option String
  deriving DecidableEq

/-- `state` and `baseState` are missing in the state `status-unavailable`. -/
structure PayoutPresentation where
  state : Option PayoutState
  phase : PayoutPhase
  terminal : Bool
  authority : PresentationAuthority
  method : Option PayoutRail
  attemptId : Option String
  amount : PayoutAmount
  period : String
  timestamps : PayoutTimestamps
  hold : Option PayoutHold
  safeReason : Option SafeReason
  actions : PayoutActions
  actionCandidates : ActionCandidates
  deriving DecidableEq

/-- The states in `terminal`. -/
def PayoutState.isTerminal : PayoutState → Bool
  | .settled | .rejected | .failed => true
  | .requested | .processing => false

/-! ## Checks of values -/

/-- `typeof value === 'string' && value.trim().length > 0` -/
def text (value : String) : Bool := trim value ≠ ""

def isChar (d c : Char) : Bool := c = d

/-- `/^\d{4}-\d{2}-\d{2}T\d{2}:\d{2}:\d{2}\.\d{3}Z$/` -/
def isoTextPattern : List (Char → Bool) :=
  .replicate 4 Char.isDigit ++ isDash :: (.replicate 2 Char.isDigit ++
    isDash :: (.replicate 2 Char.isDigit ++ isChar 'T' :: (.replicate 2 Char.isDigit ++
      isChar ':' :: (.replicate 2 Char.isDigit ++ isChar ':' :: (.replicate 2 Char.isDigit ++
        isChar '.' :: (.replicate 3 Char.isDigit ++ [isChar 'Z']))))))

/-- `date` of a text. -/
def date (value : String) : Option Instant :=
  if fits isoTextPattern value.toList then canonicalDate value.toList else none

def iso (value : Instant) : String := String.ofList (toISOString value)

/-- `/^-?\d+$/` -/
def isDecimal (value : String) : Bool :=
  let digits := match value.toList with
    | '-' :: cs => cs
    | cs => cs
  !digits.isEmpty && digits.all Char.isDigit

/-- `/^[A-Z]{3}$/` -/
def validCurrency (value : String) : Bool := fits (.replicate 3 Char.isUpper) value.toList

/-- `/^\d{4}-(0[1-9]|1[0-2])$/` -/
def validPeriod (value : String) : Bool :=
  fits (.replicate 4 Char.isDigit ++ [isDash, isChar '0', fun c => c.isDigit && c ≠ '0'])
      value.toList ||
    fits (.replicate 4 Char.isDigit ++ [isDash, isChar '1', fun c => "012".toList.contains c])
      value.toList

/-- An amount as a row or a seed has it. -/
inductive Cents | bigint (n : Int) | text (s : String)

def Cents.valid : Cents → Bool
  | .bigint _ => true
  | .text s => isDecimal s

def Cents.shown : Cents → String
  | .bigint n => String.ofList (Json.decimal n)
  | .text s => if isDecimal s then s else "0"

/-- What both kinds of input have; `createdAt` is the date that the column or the text holds. -/
structure FinancialInput where
  cents : Cents
  currency : String
  period : String
  createdAt : Option Instant

def FinancialInput.hasFinancialContext (input : FinancialInput) : Bool :=
  input.cents.valid && validCurrency input.currency && validPeriod input.period

def FinancialInput.amount (input : FinancialInput) : PayoutAmount where
  amountCents := input.cents.shown
  currency := if validCurrency input.currency then input.currency else "USD"

/-! ## Presentations -/

def unavailable (input : FinancialInput) : PayoutPresentation where
  state := none
  phase := .unavailable
  terminal := false
  authority := .unavailable
  method := none
  attemptId := none
  amount := if input.hasFinancialContext then input.amount else ⟨"", ""⟩
  period := if input.hasFinancialContext then input.period else ""
  timestamps := ⟨(input.createdAt.map iso).getD "", none, none⟩
  hold := none
  safeReason := some ⟨"payout_status_unavailable", "Payout status is unavailable."⟩
  actions := ⟨.disabled, some "payout_status_unavailable"⟩
  actionCandidates := ⟨.unavailable, []⟩

def PayoutState.safeReason : PayoutState → Option SafeReason
  | .rejected => some ⟨"payout_rejected", "The payout request was rejected."⟩
  | .failed => some ⟨"payout_failed", "The payout could not be completed."⟩
  | .requested | .processing | .settled => none

def PayoutState.phase : PayoutState → PayoutPhase
  | .requested => .eligibility
  | .rejected => .review
  | .processing | .settled | .failed => .fulfillment

def presentation (authority : PresentationAuthority) (input : FinancialInput)
    (state : PayoutState) (timestamps : PayoutTimestamps) (method : Option PayoutRail)
    (attemptId : Option String) (hold : Option PayoutHold) : PayoutPresentation where
  state := some state
  phase := state.phase
  terminal := state.isTerminal
  authority := authority
  method := method
  attemptId := attemptId
  amount := input.amount
  period := input.period
  timestamps := timestamps
  hold := hold
  safeReason := state.safeReason
  actions := ⟨.notEvaluated, state.safeReason.map SafeReason.code⟩
  actionCandidates := ⟨.unavailable, []⟩

/-! ## Action candidates -/

/-- A role as the candidates look at it. -/
inductive PrincipalRole | tenantOwner | tenantAdmin | other
  deriving DecidableEq

structure PayoutActionCandidatePrincipal where
  mid : Option Uuid
  tid : Option Uuid
  role : Option PrincipalRole
  perms : Option (List String)

def activeTenantCandidates (shown : PayoutPresentation)
    (principal : PayoutActionCandidatePrincipal) (memberResponse : Bool)
    (batchStatus : Option BatchStatus) : ActionCandidates :=
  match principal.mid, principal.tid, principal.role, principal.perms with
  | some _, some _, some role, some perms =>
      if memberResponse || shown.state.isNone || shown.terminal || role = .other ||
          !perms.contains "payouts.process" then
        ⟨.activeTenant, []⟩
      else
        match shown.state with
        | some .requested => ⟨.activeTenant, [.approveRequest, .rejectRequest]⟩
        | some .processing =>
            match batchStatus.getD .processing with
            | .dispatched => ⟨.activeTenant, [.settleBatch]⟩
            | .processing => ⟨.activeTenant, [.dispatchBatch, .failBatch]⟩
            | .settled | .failed => ⟨.activeTenant, []⟩
        | some .settled | some .rejected | some .failed | none => ⟨.activeTenant, []⟩
  | _, _, _, _ => ⟨.unavailable, []⟩

def withPayoutActionCandidates (shown : PayoutPresentation)
    (principal : PayoutActionCandidatePrincipal) (memberResponse : Bool)
    (batchStatus : Option BatchStatus) : PayoutPresentation :=
  { shown with
    actionCandidates := activeTenantCandidates shown principal memberResponse batchStatus }

/-! ## Rows -/

/-- `ordered(...)` -/
def ordered : List (Option Instant) → Bool
  | [] => true
  | [t] => t.isSome
  | t :: t' :: ts => t.any (fun a => t'.any (a ≤ ·)) && ordered (t' :: ts)

/-- `mapLegacyPayoutPresentation` of a row with the currency of its tenant. -/
def mapLegacyPayoutPresentation (p : Payout) (currency : String) : PayoutPresentation :=
  let input : FinancialInput := ⟨.bigint p.totalCents, currency, p.period, some p.createdAt⟩
  let timestamps : PayoutTimestamps :=
    ⟨iso p.createdAt, p.processingStartedAt.map iso, none⟩
  let shown (state : PayoutState) (terminalAt : Option Instant) : PayoutPresentation :=
    presentation .legacySnapshot input state { timestamps with terminalAt := terminalAt.map iso }
      none none none
  if !input.hasFinancialContext then unavailable input
  else
    match p.status with
    | .requested =>
        if p.batchId = none ∧ p.processingStartedAt = none ∧ p.paidAt = none ∧
            p.settledAt = none ∧ p.rejectedAt = none ∧ p.failedAt = none ∧
            p.settlementReference = none ∧ p.settlementEvidence = none ∧
            p.rejectionReason = none ∧ p.failureReason = none then
          shown .requested none
        else unavailable input
    | .processing =>
        if p.batchId.isSome ∧ p.processingStartedAt.isSome ∧
            ordered [some p.createdAt, p.processingStartedAt] ∧ p.paidAt = none ∧
            p.settledAt = none ∧ p.rejectedAt = none ∧ p.failedAt = none ∧
            p.settlementReference = none ∧ p.settlementEvidence = none ∧
            p.rejectionReason = none ∧ p.failureReason = none then
          shown .processing none
        else unavailable input
    | .paid =>
        if p.processingStartedAt.isSome ∧ p.paidAt.isSome ∧ p.settledAt.isSome ∧
            p.settlementReference.any text ∧ p.settlementEvidence.any text ∧
            ordered [some p.createdAt, p.processingStartedAt, p.paidAt, p.settledAt] ∧
            p.rejectedAt = none ∧ p.failedAt = none ∧ p.rejectionReason = none ∧
            p.failureReason = none then
          shown .settled p.settledAt
        else unavailable input
    | .rejected =>
        if p.rejectedAt.isSome ∧ p.rejectionReason.any text ∧
            ordered [some p.createdAt, p.rejectedAt] ∧ p.batchId = none ∧
            p.processingStartedAt = none ∧ p.paidAt = none ∧ p.settledAt = none ∧
            p.failedAt = none ∧ p.settlementReference = none ∧ p.settlementEvidence = none ∧
            p.failureReason = none then
          shown .rejected p.rejectedAt
        else unavailable input
    | .failed =>
        if p.batchId.isSome ∧ p.processingStartedAt.isSome ∧ p.failedAt.isSome ∧
            p.failureReason.any text ∧
            ordered [some p.createdAt, p.processingStartedAt, p.failedAt] ∧ p.paidAt = none ∧
            p.settledAt = none ∧ p.rejectedAt = none ∧ p.settlementReference = none ∧
            p.settlementEvidence = none ∧ p.rejectionReason = none then
          shown .failed p.failedAt
        else unavailable input

/-! ## Events -/

inductive PayoutEventType
  | requested | processing | settled | rejected | failed | hold | reversed
  deriving DecidableEq

/-- A member that may be absent or `null`. -/
abbrev Given (α : Type) : Type := Option (Option α)

/-- The version is missing where it is a number but not an integer. -/
structure SyntheticPayoutEvent where
  id : String
  authoritativeVersion : Option Int
  type : PayoutEventType
  occurredAt : String
  attemptId : Given String
  method : Given PayoutRail
  reasonCode : Option String
  owner : Option HoldOwner
  auditReference : Option String
  deriving DecidableEq

structure SyntheticPayoutSeed where
  amountCents : String
  currency : String
  period : String
  createdAt : String

def SyntheticPayoutSeed.input (seed : SyntheticPayoutSeed) : FinancialInput where
  cents := .text seed.amountCents
  currency := seed.currency
  period := seed.period
  createdAt := date seed.createdAt

def PayoutRail.text : PayoutRail → String
  | .ach => "ach"
  | .check => "check"

def HoldOwner.text : HoldOwner → String
  | .workspaceAdmin => "workspace-admin"
  | .earnicaSupport => "earnica-support"
  | .externalProvider => "external-provider"
  | .systemPolicy => "system-policy"

def PayoutEventType.text : PayoutEventType → String
  | .requested => "requested"
  | .processing => "processing"
  | .settled => "settled"
  | .rejected => "rejected"
  | .failed => "failed"
  | .hold => "hold"
  | .reversed => "reversed"

/-- A member with a text, `null` or nothing. -/
def givenText : Given String → Option Json := Option.map Json.ofOption

/-- The members of an event in the order of their names. -/
def SyntheticPayoutEvent.members (e : SyntheticPayoutEvent) : List (String × Option Json) :=
  [("attemptId", givenText e.attemptId),
    ("auditReference", e.auditReference.map .str),
    ("authoritativeVersion", some ((e.authoritativeVersion.map Json.num).getD .null)),
    ("id", some (.str e.id)),
    ("method", givenText (e.method.map fun m => m.map PayoutRail.text)),
    ("occurredAt", some (.str e.occurredAt)),
    ("owner", e.owner.map fun o => .str o.text),
    ("reasonCode", e.reasonCode.map .str),
    ("type", some (.str e.type.text))]

/-- `stable` of an event: its members in the order of their names. A version that is not an
integer is written as `null`; no such event is compared. -/
def stable (e : SyntheticPayoutEvent) : String :=
  Json.stringify (.obj (Json.defined e.members))

/-- What the first loop asks of each event. -/
def isWellFormed (e : SyntheticPayoutEvent) : Bool :=
  text e.id && e.authoritativeVersion.any (1 ≤ ·) && (date e.occurredAt).isSome

def SyntheticPayoutEvent.version (e : SyntheticPayoutEvent) : Int :=
  e.authoritativeVersion.getD 0

/-- `String.prototype.localeCompare` of some locale. -/
structure LocaleOrder where
  le : String → String → Bool
  trans : ∀ a b c, le a b = true → le b c = true → le a c = true
  total : ∀ a b, (le a b || le b a) = true

/-- `a.authoritativeVersion - b.authoritativeVersion || a.id.localeCompare(b.id)` -/
def versionThenId (locale : LocaleOrder) (a b : SyntheticPayoutEvent) : Bool :=
  a.version < b.version || (a.version = b.version && locale.le a.id b.id)

/-- The distinct events in the order of their versions, if these are 1, 2, … -/
def sortedEvents (locale : LocaleOrder) (events : List SyntheticPayoutEvent) :
    Option (List SyntheticPayoutEvent) :=
  EventLog.history isWellFormed SyntheticPayoutEvent.id stable SyntheticPayoutEvent.version
    (versionThenId locale) events

/-- The variables of the second loop. -/
structure FoldState where
  state : Option PayoutState
  processing : Option Instant
  terminalAt : Option Instant
  attemptId : Option String
  method : Option PayoutRail
  hold : Option PayoutHold
  previous : Instant
  deriving DecidableEq

/-- `empty` of a member. -/
def isEmpty {α : Type} (value : Given α) : Bool := value.join.isNone

/-- One turn of the second loop, for an event whose instant is not before the last. -/
def applyEvent (s : FoldState) (occurred : Instant) (e : SyntheticPayoutEvent) :
    Option FoldState :=
  match e.type with
  | .hold =>
      match s.state, e.reasonCode, e.owner with
      | some state, some reasonCode, some owner =>
          if state.isTerminal || !text reasonCode || !isEmpty e.attemptId || !isEmpty e.method then
            none
          else some { s with hold := some ⟨reasonCode, owner⟩ }
      | _, _, _ => none
  | .requested =>
      if s.state.isSome || !isEmpty e.attemptId || !isEmpty e.method then none
      else some { s with hold := none, state := some .requested }
  | .processing =>
      match e.attemptId, e.method with
      | some (some attemptId), some (some method) =>
          if s.state ≠ some .requested || !text attemptId then none
          else
            some
              { s with
                hold := none
                state := some .processing
                attemptId := some attemptId
                method := some method
                processing := some occurred }
      | _, _ => none
  | .rejected =>
      if s.state ≠ some .requested || !isEmpty e.attemptId || !isEmpty e.method then none
      else some { s with hold := none, state := some .rejected, terminalAt := some occurred }
  | .settled | .failed =>
      if s.state ≠ some .processing || e.attemptId ≠ some s.attemptId ||
          e.method ≠ some s.method then
        none
      else
        some
          { s with
            hold := none
            state := some (if e.type = .settled then .settled else .failed)
            terminalAt := some occurred }
  | .reversed => none

def foldEvent (s : FoldState) (e : SyntheticPayoutEvent) : Option FoldState := do
  let occurred ← date e.occurredAt
  if occurred < s.previous then none
  else applyEvent { s with previous := occurred } occurred e

def foldSyntheticPayoutEvents (locale : LocaleOrder)
    (events : List SyntheticPayoutEvent) (seed : SyntheticPayoutSeed) : PayoutPresentation :=
  match date seed.createdAt with
  | none => unavailable seed.input
  | some created =>
      if !seed.input.hasFinancialContext then unavailable seed.input
      else
        match (sortedEvents locale events).bind
            (List.foldlM foldEvent ⟨none, none, none, none, none, none, created⟩) with
        | none => unavailable seed.input
        | some s =>
            match s.state with
            | none => unavailable seed.input
            | some state =>
                presentation .eventLog seed.input state
                  ⟨iso created, s.processing.map iso, s.terminalAt.map iso⟩ s.method s.attemptId
                  s.hold

end Refearn.Payouts.Presentation
