import Refearn.Schema
import Refearn.Support.Runs
import Refearn.Support.Table
import Mathlib.Logic.Function.Basic
/-!
# Delivering webhooks

`WebhooksService.dispatchPending` and `replay`. The scheduler starts a dispatch every minute and
does not wait for the one before it; a dispatch reads what is due once, sends one request after
another, and writes back after each what it has made of the row that it has read.
-/

namespace Refearn.Webhooks

open Support

def MAX_ATTEMPTS : Nat := 5

inductive DeliveryStatus | pending | delivered | failed
  deriving DecidableEq

structure WebhookDelivery where
  id : Uuid
  endpointId : Uuid
  event : String
  status : DeliveryStatus
  attempts : Nat
  lastError : Option String
  responseStatus : Option Nat
  createdAt : Instant
  deriving DecidableEq

instance : Keyed WebhookDelivery Uuid := { key := WebhookDelivery.id }

/-- The row that `emit` and `sendTest` create. -/
def newDelivery (id endpointId : Uuid) (event : String) (now : Instant) : WebhookDelivery :=
  ⟨id, endpointId, event, .pending, 0, none, none, now⟩

def WebhookDelivery.replayed (d : WebhookDelivery) : WebhookDelivery :=
  { d with status := .pending, attempts := 0, lastError := none }

theorem replayed_keepsIndexes : KeepsIndexes WebhookDelivery.replayed :=
  ⟨fun _ => rfl, fun _ _ h => h, fun _ _ h => h⟩

/-! ## One dispatch -/

def isDue (d : WebhookDelivery) : Bool :=
  (d.status == .pending || d.status == .failed) && decide (d.attempts < MAX_ATTEMPTS)

/-- What `findMany` of the due deliveries may answer before its limit. -/
def isDueOrder (deliveries : Table WebhookDelivery) (order : List WebhookDelivery) : Prop :=
  order.Perm (deliveries.rows.filter isDue) ∧ order.Pairwise fun d d' => d.createdAt ≤ d'.createdAt

instance (deliveries : Table WebhookDelivery) (order : List WebhookDelivery) :
    Decidable (isDueOrder deliveries order) :=
  inferInstanceAs (Decidable (_ ∧ _))

/-- How the request of a delivery comes back. -/
inductive Response
  | answered (status : Nat)
  /-- with its message, where an `Error` was thrown -/
  | raised (message : Option String)
  deriving DecidableEq

def isOk (status : Nat) : Bool := decide (200 ≤ status) && decide (status < 300)

def errorText (message : Option String) : String :=
  match message with
  | some message => String.ofList (message.toList.take 200)
  | none => "error"

/-- The update after a request, with what it takes from the row read at the start. -/
def settle (read : WebhookDelivery) (response : Response) (d : WebhookDelivery) :
    WebhookDelivery :=
  match response with
  | .answered status =>
      if isOk status then
        { d with
          status := .delivered
          attempts := read.attempts + 1
          responseStatus := some status
          lastError := none }
      else
        { d with
          status := .failed
          attempts := read.attempts + 1
          responseStatus := some status
          lastError := some ("HTTP " ++ toString status) }
  | .raised message =>
      { d with
        status := .failed
        attempts := read.attempts + 1
        lastError := some (errorText message) }

theorem settle_id (read : WebhookDelivery) (response : Response) (d : WebhookDelivery) :
    (settle read response d).id = d.id := by
  unfold settle
  split
  · split_ifs <;> rfl
  · rfl

theorem settle_attempts (read : WebhookDelivery) (response : Response) (d : WebhookDelivery) :
    (settle read response d).attempts = read.attempts + 1 := by
  unfold settle
  split
  · split_ifs <;> rfl
  · rfl

theorem settle_keepsIndexes (read : WebhookDelivery) (response : Response) :
    KeepsIndexes (settle read response) :=
  ⟨settle_id read response, fun _ _ h => h, fun _ _ h => h⟩

/-- Where a dispatch stands. -/
structure Dispatch where
  /-- the delivery that it is sending, and why its url was refused, if it was -/
  current : Option (WebhookDelivery × Option String)
  due : List WebhookDelivery
  delivered : Nat
  failed : Nat

def Dispatch.begin (order : List WebhookDelivery) : Dispatch := ⟨none, order.take 100, 0, 0⟩

def Dispatch.isSending (id : Uuid) (r : Dispatch) : Bool := r.current.any fun c => c.1.id == id

def Dispatch.counted (response : Response) (r : Dispatch) : Dispatch :=
  match response with
  | .answered status =>
      if isOk status then { r with current := none, delivered := r.delivered + 1 }
      else { r with current := none, failed := r.failed + 1 }
  | .raised _ => { r with current := none, failed := r.failed + 1 }

/-! ## The system -/

structure WebhookWorld where
  deliveries : Table WebhookDelivery
  /-- all dispatches so far, in the order of their starts -/
  runs : List Dispatch
  /-- the requests that were sent for a delivery since its last replay -/
  sent : Uuid → Nat

/-- The requests for a delivery whose outcome is not stored yet. -/
def WebhookWorld.underWay (w : WebhookWorld) (id : Uuid) : Nat :=
  w.runs.countP (Dispatch.isSending id)

inductive WebhookStep
  | emit (id endpointId : Uuid) (event : String) (now : Instant)
  | replay (id : Uuid)
  /-- the start of a dispatch -/
  | begin (order : List WebhookDelivery)
  /-- the check of the url of the next delivery, and its request where it passes -/
  | send (i : Nat) (refusal : Option String)
  /-- the end of a request, and the update -/
  | store (i : Nat) (response : Response)
  /-- an update that fails twice, or a crash -/
  | abort (i : Nat)
  deriving DecidableEq

/-- A refused url is handled as if the request had failed. -/
def outcome (refusal : Option String) (response : Response) : Response :=
  match refusal with
  | some message => .raised (some message)
  | none => response

def WebhookStep.apply (step : WebhookStep) (w : WebhookWorld) : WebhookWorld :=
  match step with
  | .emit id endpointId event now =>
      match w.deliveries.insert? (newDelivery id endpointId event now) with
      | some deliveries => { w with deliveries }
      | none => w
  | .replay id =>
      { w with
        deliveries :=
          w.deliveries.updateKey id WebhookDelivery.replayed replayed_keepsIndexes
        sent := Function.update w.sent id 0 }
  | .begin order =>
      if isDueOrder w.deliveries order then { w with runs := w.runs ++ [.begin order] } else w
  | .send i refusal =>
      match w.runs[i]? with
      | some ⟨none, d :: due, delivered, failed⟩ =>
          { w with
            runs := w.runs.set i ⟨some (d, refusal), due, delivered, failed⟩
            sent :=
              match refusal with
              | none => Function.update w.sent d.id (w.sent d.id + 1)
              | some _ => w.sent }
      | _ => w
  | .store i response =>
      match w.runs[i]? with
      | some r =>
          match r.current with
          | some (d, refusal) =>
              let response := outcome refusal response
              { w with
                deliveries :=
                  w.deliveries.updateKey d.id (settle d response) (settle_keepsIndexes d response)
                runs := w.runs.set i (r.counted response) }
          | none => w
      | none => w
  | .abort i =>
      match w.runs[i]? with
      | some r => { w with runs := w.runs.set i { r with current := none, due := [] } }
      | none => w

/-! ## What a delivery owes -/

/-- What is promised of each state. -/
structure DeliveryProtocol (w : WebhookWorld) : Prop where
  atMostFive (id : Uuid) : w.sent id ≤ MAX_ATTEMPTS
  /-- the stored count is that of the requests sent, less those still under way -/
  counted (d : WebhookDelivery) (h : d ∈ w.deliveries) :
    w.sent d.id = d.attempts + w.underWay d.id

/-- A delivery that has been delivered is not sent again, and stays delivered. -/
def StaysDelivered (id : Uuid) (w w' : WebhookWorld) : Prop :=
  ∀ d ∈ w.deliveries, d.id = id → d.status = .delivered →
    w'.sent id = w.sent id ∧ ∃ d' ∈ w'.deliveries, d'.id = id ∧ d'.status = .delivered

/-- No step comes between what a dispatch has read of a delivery and its update: it sends one that
is still as it was read and that no other dispatch is sending, none is replayed meanwhile, and each
request is sent and its outcome stored. -/
def Undisturbed (step : WebhookStep) (w : WebhookWorld) : Prop :=
  match step with
  | .replay id => w.underWay id = 0
  | .send i refusal =>
      ∀ r d due, w.runs[i]? = some r → r.current = none → r.due = d :: due →
        refusal = none ∧ w.underWay d.id = 0 ∧
          ∃ row ∈ w.deliveries, row.id = d.id ∧ row.status ≠ .delivered ∧
            row.attempts = d.attempts
  | .abort i => ∀ r, w.runs[i]? = some r → r.current = none
  | _ => True

end Refearn.Webhooks
