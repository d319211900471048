import Refearn.Auth.Invites
import Refearn.Support.Runs
/-!
# Issuing invites, one statement at a time

`InvitesService.issue` of any number of calls for one inviter. The first statement of a call locks
the row of the inviter, which one call holds at a time; the column `created_at` is the time of its
`BEGIN`, while `now` is read once the lock is held. What a call writes is seen by others from its
commit on. Registrations, other inviters and the clock go on in between.
-/

namespace Refearn.Invites

open Support
open Auth (AuthEnv AuthError Invite IssuedInvite TenantStatus isStaleInviteOf inviteTtlMs
  MAX_ACTIVE_INVITES MAX_INVITES_PER_DAY)

/-! ## Keys and emails -/

def isGraphic (c : Char) : Bool := 0x21 ≤ c.toNat && c.toNat ≤ 0x7e

/-- `parseIdempotencyKey` of the header. -/
def parseIdempotencyKey : Option String → Except AuthError (Option String)
  | none => .ok none
  | some value =>
      let key := (trim value).toList
      if 16 ≤ key.length ∧ key.length ≤ 200 ∧ key.all isGraphic then .ok (some (trim value))
      else .error (.badRequest "Idempotency-Key must be 16-200 printable characters")

section Normalized

variable (env : AuthEnv)

def normalizedEmail (email : Option String) : Option String :=
  (email.map fun e => env.toLowerCase (trim e)).filter (· ≠ "")

def keyHash (idempotencyKey : Option String) : Option String :=
  (idempotencyKey.filter (· ≠ "")).map fun key =>
    env.sha256 ("invite-idempotency:v1:" ++ trim key)

end Normalized

/-! ## Rows -/

/-- What the first statement reads of the inviter and the tenant. -/
structure InviterRow where
  tenantId : Uuid
  status : MembershipStatus
  tenantStatus : TenantStatus
  deriving DecidableEq

/-- The checks before the clock is read. -/
def admitted (expectedTenantId : Option Uuid) (row : Option InviterRow) :
    Except AuthError InviterRow :=
  match row with
  | none => .error (.badRequest "active membership required")
  | some inviter =>
      if inviter.status ≠ .active then .error (.badRequest "active membership required")
      else if expectedTenantId.any (inviter.tenantId ≠ ·) then
        .error (.forbidden "inviter membership context mismatch")
      else if inviter.tenantStatus ≠ .active then .error (.badRequest "business is not active")
      else .ok inviter

section Table

variable (inviterId : Uuid) (invites : Table Invite)

/-- The `updateMany` that expires what is overdue. -/
def expireStale (now : Instant) : Table Invite :=
  invites.updateWhere (isStaleInviteOf inviterId now) (Invite.withStatus .expired)
    (Invite.keepsIndexes_withStatus .expired)

def inviteOfKey (keyHash : Option String) : Option Invite :=
  keyHash.bind fun keyHash => invites.rows.find? fun i =>
    i.inviterMembershipId == inviterId && i.idempotencyKeyHash == some keyHash

/-- Active and not yet expired. -/
def activeCount (now : Instant) : Nat :=
  invites.rows.countP fun i => i.inviterMembershipId == inviterId && i.status == .active &&
    decide (now < i.expiresAt)

/-- Created in the 24 hours before. -/
def todayCount (now : Instant) : Nat :=
  invites.rows.countP fun i => i.inviterMembershipId == inviterId &&
    decide (now - 24 * 60 * 60 * 1000 ≤ i.createdAt)

end Table

/-! ## Calls -/

/-- The statement that a call runs next, or how it has ended. -/
inductive Point
  /-- after `BEGIN`, before the lock -/
  | waiting
  | readingClock (inviter : InviterRow)
  | expiring (inviter : InviterRow) (now : Instant)
  | lookingUp (inviter : InviterRow) (now : Instant)
  | countingActive (inviter : InviterRow) (now : Instant)
  | countingToday (inviter : InviterRow) (now : Instant) (activeCount : Nat)
  /-- with the attempts that are left -/
  | inserting (inviter : InviterRow) (now : Instant) (attempts : Nat)
  | rechecking (inviter : InviterRow) (now : Instant) (attempts : Nat)
  /-- about to commit and to return what the key has led to before -/
  | replaying (now : Instant) (existing : IssuedInvite)
  | returned (invite : IssuedInvite)
  | failed (e : AuthError)
  deriving DecidableEq

/-- Whether the call has the lock. -/
def Point.holds : Point → Bool
  | .waiting => false
  | .returned _ => false
  | .failed _ => false
  | _ => true

structure Call where
  email : Option String
  idempotencyKey : Option String
  expectedTenantId : Option Uuid
  /-- the time of its `BEGIN`, which is `now()` in all its statements -/
  createdAt : Instant
  point : Point

structure World where
  clock : Instant
  inviter : Option InviterRow
  invites : Table Invite
  calls : List Call
  /-- which call holds the row of the inviter -/
  holder : Option Nat

/-- What an `INSERT` draws. -/
structure Draw where
  newId : Uuid
  code : String
  deriving DecidableEq

section Steps

variable (env : AuthEnv) (inviterId : Uuid)

def Call.invite (c : Call) (inviter : InviterRow) (now : Instant) (d : Draw) : Invite where
  id := d.newId
  tenantId := inviter.tenantId
  inviterMembershipId := inviterId
  code := d.code
  email := normalizedEmail env c.email
  expiresAt := now + inviteTtlMs
  usedByMembershipId := none
  idempotencyKeyHash := keyHash env c.idempotencyKey
  status := .active
  createdAt := c.createdAt

/-- What follows a lookup by the key, where it finds nothing. -/
def Call.replayOr (c : Call) (seen : Table Invite) (now : Instant) (otherwise : Point) : Point :=
  match inviteOfKey inviterId seen (keyHash env c.idempotencyKey) with
  | none => otherwise
  | some existing =>
      if existing.email ≠ normalizedEmail env c.email then
        .failed (.conflict "Idempotency-Key was already used with a different invite email")
      else .replaying now (.of existing)

/-- One statement of a call and the code up to the next one: the committed invites and where the
call stands. A call sees what it has expired itself. -/
def Call.run (c : Call) (d : Draw) (clock : Instant) (row : Option InviterRow)
    (invites : Table Invite) : Table Invite × Point :=
  match c.point with
  | .waiting =>
      match admitted c.expectedTenantId row with
      | .error e => (invites, .failed e)
      | .ok inviter => (invites, .readingClock inviter)
  | .readingClock inviter => (invites, .expiring inviter clock)
  | .expiring inviter now => (invites, .lookingUp inviter now)
  | .lookingUp inviter now =>
      (invites, c.replayOr env inviterId (expireStale inviterId invites now) now
        (.countingActive inviter now))
  | .countingActive inviter now =>
      (invites, .countingToday inviter now
        (activeCount inviterId (expireStale inviterId invites now) now))
  | .countingToday inviter now active =>
      if MAX_ACTIVE_INVITES ≤ active then
        (invites, .failed (.badRequest "you can have at most 50 active invites"))
      else if MAX_INVITES_PER_DAY ≤ todayCount inviterId (expireStale inviterId invites now) now then
        (invites, .failed (.badRequest "daily invite limit reached (20)"))
      else (invites, .inserting inviter now 8)
  | .inserting _ _ 0 => (invites, .failed (.badRequest "could not generate invite code"))
  | .inserting inviter now (attempts + 1) =>
      let invite := c.invite env inviterId inviter now d
      -- the row of a successful `INSERT` is seen once its transaction commits
      match (expireStale inviterId invites now).insert? invite with
      | some committed => (committed, .returned (.of invite))
      | none => (invites, .rechecking inviter now attempts)
  | .rechecking inviter now attempts =>
      (invites, c.replayOr env inviterId (expireStale inviterId invites now) now
        (.inserting inviter now attempts))
  | .replaying now existing => (expireStale inviterId invites now, .returned existing)
  | .returned invite => (invites, .returned invite)
  | .failed e => (invites, .failed e)

inductive Step
  | call (header email : Option String) (expectedTenantId : Option Uuid)
  | statement (i : Nat) (d : Draw)
  /-- a call fails on its way, and its transaction is rolled back -/
  | abort (i : Nat)
  /-- the claim of an invite by a registration that has read its clock before -/
  | consume (inviteId membershipId : Uuid) (readAt : Instant)
  /-- the overdue invite that a registration marks by its id -/
  | markExpired (inviteId : Uuid)
  /-- an invite of another inviter -/
  | other (invite : Invite)
  /-- a change of the membership or of the tenant -/
  | setInviter (row : Option InviterRow)
  | tick (ms : Nat)

/-- Who holds the lock after call `i` has gone to `after`. -/
def holderAfter (holder : Option Nat) (i : Nat) (after : Point) : Option Nat :=
  if after.holds then some i else if holder = some i then none else holder

def World.move (w : World) (i : Nat) (c : Call) (invites : Table Invite) (after : Point) : World :=
  { w with
    invites
    calls := w.calls.set i { c with point := after }
    holder := holderAfter w.holder i after }

theorem usedBy_keepsIndexes (membershipId : Uuid) : KeepsIndexes (Invite.usedBy membershipId) :=
  Auth.keepsIndexes_invite (fun _ => rfl) (fun _ => rfl) (fun _ => rfl) (fun _ => rfl)

def isConsumable (inviteId : Uuid) (readAt : Instant) (i : Invite) : Bool :=
  i.id == inviteId && i.status == .active && decide (readAt < i.expiresAt)

def Step.apply (step : Step) (w : World) : World :=
  match step with
  | .call header email expectedTenantId =>
      match parseIdempotencyKey header with
      | .error _ => w
      | .ok idempotencyKey =>
          { w with
            calls := w.calls ++ [⟨email, idempotencyKey, expectedTenantId, w.clock, .waiting⟩] }
  | .statement i d =>
      match w.calls[i]? with
      | none => w
      | some c =>
          -- `FOR UPDATE` waits as long as another call has the row
          if c.point = .waiting ∧ w.holder.isSome then w
          else
            let (invites, after) := c.run env inviterId d w.clock w.inviter w.invites
            w.move i c invites after
  | .abort i =>
      match w.calls[i]? with
      | none => w
      | some c =>
          match c.point with
          | .returned _ => w
          | .failed _ => w
          | _ => w.move i c w.invites (.failed (.internal "aborted"))
  | .consume inviteId membershipId readAt =>
      { w with
        invites := w.invites.updateWhere (isConsumable inviteId readAt)
          (Invite.usedBy membershipId) (usedBy_keepsIndexes membershipId) }
  | .markExpired inviteId =>
      { w with
        invites := w.invites.updateKey inviteId (Invite.withStatus .expired)
          (Invite.keepsIndexes_withStatus .expired) }
  | .other invite =>
      if invite.inviterMembershipId = inviterId then w
      else
        match w.invites.insert? invite with
        | none => w
        | some invites => { w with invites }
  | .setInviter row => if w.holder.isSome then w else { w with inviter := row }
  | .tick ms => { w with clock := w.clock + ms }

end Steps

/-! ## What issuing owes -/

/-- Two calls of one key that return lead to one invite, under one email. -/
def AgreesOnKey (env : AuthEnv) (c c' : Call) : Prop :=
  ∀ r r', c.point = .returned r → c'.point = .returned r' →
    ∀ key, c.idempotencyKey = some key → c'.idempotencyKey = some key →
      r.id = r'.id ∧ r.code = r'.code ∧ normalizedEmail env c.email = normalizedEmail env c'.email

/-- What is promised of each state. -/
structure WithinQuota (env : AuthEnv) (inviterId : Uuid) (w : World) : Prop where
  active : activeCount inviterId w.invites w.clock ≤ MAX_ACTIVE_INVITES
  today : todayCount inviterId w.invites w.clock ≤ MAX_INVITES_PER_DAY
  replays : ∀ c ∈ w.calls, ∀ c' ∈ w.calls, AgreesOnKey env c c'

/-- Before the first call of an inviter who is within the quotas. -/
structure Fresh (inviterId : Uuid) (w : World) : Prop where
  active : activeCount inviterId w.invites w.clock ≤ MAX_ACTIVE_INVITES
  today : todayCount inviterId w.invites w.clock ≤ MAX_INVITES_PER_DAY
  calls : w.calls = []
  holder : w.holder = none

end Refearn.Invites
