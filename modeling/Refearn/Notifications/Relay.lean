import Refearn.Schema
import Refearn.Support.Runs
import Mathlib.Data.List.Sort
/-!
# The notification relay

`notifications/notification-relay.service.ts`. A relay claims due rows of the outbox under
a lease, dispatches them one after another, and reports what came of each. Any number of
relays work on one table; a process may stop anywhere.
-/

namespace Refearn.Notifications

open Support

/-! ## The outbox -/

inductive NotificationChannel | push | email | inApp
  deriving DecidableEq

inductive NotificationStatus | pending | processing | sent | failed
  deriving DecidableEq

def NotificationChannel.text : NotificationChannel → String
  | .push => "push"
  | .email => "email"
  | .inApp => "in_app"

structure Notification where
  id : Uuid
  recipientMembershipId : Option Uuid
  recipientUserId : Option Uuid
  channel : NotificationChannel
  template : String
  payload : Json
  status : NotificationStatus
  attempts : Nat
  availableAt : Option Instant
  leaseToken : Option Uuid
  lastError : Option String
  sentAt : Option Instant
  createdAt : Instant

instance : Keyed Notification Uuid := { key := Notification.id }

theorem keepsIndexes_notification {f : Notification → Notification}
    (h : ∀ n, (f n).id = n.id) : KeepsIndexes f where
  key_eq := h
  clash_left _ _ hclash := hclash
  clash_right _ _ hclash := hclash

structure ClaimedNotification where
  id : Uuid
  recipientMembershipId : Option Uuid
  recipientUserId : Option Uuid
  channel : NotificationChannel
  template : String
  payload : Json
  attempts : Nat
  /-- as it was before the claim -/
  status : NotificationStatus
  leaseToken : Uuid
  availableAt : Instant

def MAX_ATTEMPTS : Nat := 5

def BATCH : Nat := 20

def LEASE_MS : Int := 5 * 60 * 1000

def MAX_RETRY_SECONDS : Nat := 240

def EXPIRED_LEASE_ERROR : String := "notification lease expired after maximum attempts"

/-! ## Payloads -/

def SENSITIVE_TOKEN_TEMPLATES : List String := ["verify_email", "password_reset"]

def asRecord : Json → List (String × Json)
  | .obj members => members
  | _ => []

def hasMember (name : String) (members : List (String × Json)) : Bool :=
  members.any fun m => m.1 == name

def deleteMember (name : String) (members : List (String × Json)) : List (String × Json) :=
  members.filter fun m => m.1 != name

/-- An assignment to a member, which keeps the place of one that exists. -/
def setMember (name : String) (value : Json) (members : List (String × Json)) :
    List (String × Json) :=
  if hasMember name members then members.map fun m => if m.1 == name then (name, value) else m
  else members ++ [(name, value)]

def redactPayload (template : String) (payload : Json) : List (String × Json) :=
  let out := asRecord payload
  if SENSITIVE_TOKEN_TEMPLATES.contains template || hasMember "token" out ||
      hasMember "tokenCiphertext" out then
    setMember "tokenRedacted" (.bool true)
      (deleteMember "tokenCiphertext" (deleteMember "token" out))
  else out

/-- What `dispatch` returns where it does not throw. -/
inductive DispatchOutcome
  | delivered
  | suppressed (channel : NotificationChannel)

def sentPayload (template : String) (payload : Json) (outcome : DispatchOutcome) : Json :=
  let out := redactPayload template payload
  match outcome with
  | .delivered => .obj out
  | .suppressed channel =>
      .obj (setMember "suppressedChannel" (.str channel.text)
        (setMember "suppressed" (.bool true) out))

/-! ## Claiming -/

/-- `available_at <= now`, which null never is. -/
def Notification.isDue (now : Instant) (n : Notification) : Bool :=
  n.availableAt.any fun available => decide (available ≤ now)

def Notification.isExpiredAtCap (now : Instant) (n : Notification) : Bool :=
  n.status == .processing && n.isDue now && decide (MAX_ATTEMPTS ≤ n.attempts)

def Notification.isClaimable (now : Instant) (n : Notification) : Bool :=
  (n.status == .pending && n.isDue now || n.status == .processing && n.isDue now) &&
    decide (n.attempts < MAX_ATTEMPTS)

def Notification.givenUp (n : Notification) : Notification :=
  { n with
    status := .failed
    availableAt := none
    leaseToken := none
    lastError := some EXPIRED_LEASE_ERROR }

/-- The failure of a row whose last lease has run out. -/
def giveUp (notifications : Table Notification) (expired : Notification) : Table Notification :=
  notifications.updateWhere
    (fun n => n.id == expired.id && n.status == .processing &&
      n.leaseToken == expired.leaseToken)
    Notification.givenUp (keepsIndexes_notification fun _ => rfl)

/-- The rows of the first statement of a claim, which skips what others have locked. -/
def expiredAtCap (locked : Uuid → Bool) (now : Instant) (notifications : Table Notification) :
    List Notification :=
  notifications.rows.filter fun n => !locked n.id && n.isExpiredAtCap now

/-- The rows of the second statement of a claim. -/
def claimableRows (locked : Uuid → Bool) (now : Instant) (notifications : Table Notification) :
    List Notification :=
  ((notifications.rows.filter fun n => !locked n.id && n.isClaimable now).insertionSort
    fun n n' => n.createdAt ≤ n'.createdAt).take BATCH

def Notification.claim (n : Notification) (leaseToken : Uuid) (availableAt : Instant) :
    ClaimedNotification :=
  { n with
    attempts := n.attempts + 1
    leaseToken
    availableAt }

def Notification.leased (c : ClaimedNotification) (n : Notification) : Notification :=
  { n with
    status := .processing
    attempts := n.attempts + 1
    leaseToken := some c.leaseToken
    availableAt := some c.availableAt }

def writeLease (notifications : Table Notification) (c : ClaimedNotification) :
    Table Notification :=
  notifications.updateWhere (fun n => n.id == c.id && n.status == c.status)
    (Notification.leased c) (keepsIndexes_notification fun _ => rfl)

/-- The transaction of `claimPending` at the instant it has read, with the tokens it draws.
Each of its two statements skips the rows that others hold locked. -/
def claimPending (locked locked' : Uuid → Bool) (tokens : Nat → Uuid) (now : Instant)
    (notifications : Table Notification) : List ClaimedNotification × Table Notification :=
  let swept := (expiredAtCap locked now notifications).foldl giveUp notifications
  let claimed := (claimableRows locked' now swept).mapIdx fun i n =>
    n.claim (tokens i) (now + LEASE_MS)
  (claimed, claimed.foldl writeLease swept)

/-! ## Reports -/

/-- Whether a row is still under the lease of a claim. -/
def Notification.isUnder (c : ClaimedNotification) (n : Notification) : Bool :=
  n.id == c.id && n.status == .processing && n.leaseToken == some c.leaseToken

def Notification.delivered (c : ClaimedNotification) (outcome : DispatchOutcome)
    (now : Instant) (n : Notification) : Notification :=
  { n with
    status := .sent
    sentAt := some now
    lastError := none
    payload := sentPayload c.template c.payload outcome
    availableAt := none
    leaseToken := none }

def reportSent (c : ClaimedNotification) (outcome : DispatchOutcome) (now : Instant)
    (notifications : Table Notification) : Table Notification :=
  notifications.updateWhere (Notification.isUnder c) (Notification.delivered c outcome now)
    (keepsIndexes_notification fun _ => rfl)

def retrySeconds (attempts : Nat) : Nat := min (30 * 2 ^ (attempts - 1)) MAX_RETRY_SECONDS

def Notification.undelivered (c : ClaimedNotification) (now : Instant) (n : Notification) :
    Notification :=
  let finalAttempt := decide (MAX_ATTEMPTS ≤ c.attempts)
  { n with
    attempts := c.attempts
    lastError := some "notification delivery failed"
    status := if finalAttempt then .failed else .pending
    availableAt := if finalAttempt then none else some (now + retrySeconds c.attempts * 1000)
    leaseToken := none }

def reportFailed (c : ClaimedNotification) (now : Instant)
    (notifications : Table Notification) : Table Notification :=
  notifications.updateWhere (Notification.isUnder c) (Notification.undelivered c now)
    (keepsIndexes_notification fun _ => rfl)

/-! ## Relays -/

/-- Where a relay stands in `drainOnce`. -/
inductive Relay
  | idle
  /-- its claim has read the clock -/
  | claiming (now : Instant)
  | draining (queue : List ClaimedNotification)
  | dispatching (n : ClaimedNotification) (queue : List ClaimedNotification)

/-- The claims a relay has not let go of. -/
def Relay.held : Relay → List ClaimedNotification
  | .draining queue => queue
  | .dispatching n queue => n :: queue
  | _ => []

/-- The claims a relay has not come to yet. -/
def Relay.waiting : Relay → List ClaimedNotification
  | .draining queue => queue
  | .dispatching _ queue => queue
  | _ => []

/-- What other services write into the outbox. -/
structure Message where
  recipientMembershipId : Option Uuid
  recipientUserId : Option Uuid
  channel : NotificationChannel
  template : String
  payload : Json

/-- A new row, with the defaults of its columns. -/
def Message.row (message : Message) (id : Uuid) (createdAt : Instant) : Notification :=
  { message with
    id
    status := .pending
    attempts := 0
    availableAt := some createdAt
    leaseToken := none
    lastError := none
    sentAt := none
    createdAt }

/-- The outbox with the relays at work on it. `claims` and `dispatches` record, newest first,
what has been claimed and what a relay has begun to send. -/
structure RelayWorld where
  clock : Instant
  notifications : Table Notification
  relays : List Relay
  claims : List ClaimedNotification
  dispatches : List ClaimedNotification

def RelayWorld.held (w : RelayWorld) : List ClaimedNotification := w.relays.flatMap Relay.held

def RelayWorld.waiting (w : RelayWorld) : List ClaimedNotification :=
  w.relays.flatMap Relay.waiting

def RelayWorld.setRelay (i : Nat) (relay : Relay) (w : RelayWorld) : RelayWorld :=
  { w with relays := w.relays.set i relay }

inductive RelayStep
  | tick (ms : Nat)
  | enqueue (message : Message) (id : Uuid) (createdAt : Instant)
  | start
  | openClaim (i : Nat)
  | claim (i : Nat) (locked locked' : Uuid → Bool) (tokens : Nat → Uuid)
  | next (i : Nat)
  | succeed (i : Nat) (outcome : DispatchOutcome)
  | fail (i : Nat)
  | crash (i : Nat)

/-- A relay goes on with the next row of its batch; one whose lease has run out is skipped. -/
def RelayWorld.advance (i : Nat) (w : RelayWorld) : List ClaimedNotification → RelayWorld
  | [] => w.setRelay i .idle
  | n :: queue =>
      if n.availableAt ≤ w.clock then w.setRelay i (.draining queue)
      else { w.setRelay i (.dispatching n queue) with dispatches := n :: w.dispatches }

def RelayWorld.commitClaim (i : Nat) (result : List ClaimedNotification × Table Notification)
    (w : RelayWorld) : RelayWorld :=
  { w.setRelay i (.draining result.1) with
    notifications := result.2
    claims := result.1 ++ w.claims }

def RelayStep.apply (step : RelayStep) (w : RelayWorld) : RelayWorld :=
  match step with
  | .tick ms => { w with clock := w.clock + ms }
  | .enqueue message id createdAt =>
      match w.notifications.insert? (message.row id createdAt) with
      | some notifications => { w with notifications }
      | none => w
  | .start => { w with relays := w.relays ++ [.idle] }
  | .openClaim i =>
      match w.relays[i]? with
      | some .idle => w.setRelay i (.claiming w.clock)
      | _ => w
  | .claim i locked locked' tokens =>
      match w.relays[i]? with
      | some (.claiming now) =>
          w.commitClaim i (claimPending locked locked' tokens now w.notifications)
      | _ => w
  | .next i =>
      match w.relays[i]? with
      | some (.draining queue) => w.advance i queue
      | _ => w
  | .succeed i outcome =>
      match w.relays[i]? with
      | some (.dispatching n queue) =>
          { w.setRelay i (.draining queue) with
            notifications := reportSent n outcome w.clock w.notifications }
      | _ => w
  | .fail i =>
      match w.relays[i]? with
      | some (.dispatching n queue) =>
          { w.setRelay i (.draining queue) with
            notifications := reportFailed n w.clock w.notifications }
      | _ => w
  | .crash i => w.setRelay i .idle

end Refearn.Notifications
