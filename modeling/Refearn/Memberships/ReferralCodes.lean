import Refearn.Memberships.Tree
import Refearn.Support.Transaction
/-!
# Referral codes

`createUnder`, `createRoot` and the owner that `createCompany` creates try up to five referral
codes inside the transaction of their caller. Here a statement that fails aborts this
transaction, as it does on the server.
-/

namespace Refearn.Memberships

open Support Support.Callback
open Auth (Role)

structure CompanyTenant where
  id : Uuid
  slug : String
  name : String
  currency : String
  timezone : String

/-- `tenants_slug_key` -/
instance : Keyed CompanyTenant Uuid where
  key := CompanyTenant.id
  clash t t' := t.slug == t'.slug

structure CompanyUser where
  id : Uuid
  email : String
  fullName : String
  lastMembershipId : Option Uuid

/-- `users_email_key` -/
instance : Keyed CompanyUser Uuid where
  key := CompanyUser.id
  clash u u' := u.email == u'.email

structure CompanyDb where
  tenants : Table CompanyTenant
  users : Table CompanyUser
  memberships : Table MembershipRow

/-- What Prisma reports of a failed statement. -/
inductive DatabaseError
  /-- `P2002` with the columns of the index -/
  | uniqueViolation (target : List String)
  | foreignKeyViolation (column : String)
  | recordNotFound
  /-- current transaction is aborted, commands ignored until end of transaction block -/
  | inFailedTransaction
  deriving DecidableEq

inductive CallError
  | conflict (message : String)
  | database (e : DatabaseError)
  deriving DecidableEq

abbrev CompanyTx := Callback CompanyDb CallError

def exec {α : Type} (f : CompanyDb → Except CallError (α × CompanyDb)) : CompanyTx α :=
  statement (.database .inFailedTransaction) f

/-! ## Inserting a membership -/

/-- The index that refuses a membership, in the order of the indexes. -/
def violatedIndex (db : CompanyDb) (m : MembershipRow) : List String :=
  if (db.memberships.find? m.id).isSome then ["id"]
  else if db.memberships.rows.any fun m' => m'.tenantId == m.tenantId && m'.userId == m.userId then
    ["tenant_id", "user_id"]
  else ["tenant_id", "referral_code"]

/-- `membership.create`: the indexes are checked first, then the foreign keys. -/
def insertMembership (m : MembershipRow) (db : CompanyDb) :
    Except CallError (MembershipRow × CompanyDb) :=
  match db.memberships.insert? m with
  | none => .error (.database (.uniqueViolation (violatedIndex db m)))
  | some memberships =>
      if (db.tenants.find? m.tenantId).isNone then
        .error (.database (.foreignKeyViolation "tenant_id"))
      else if (db.users.find? m.userId).isNone then
        .error (.database (.foreignKeyViolation "user_id"))
      else if m.sponsorMembershipId.any fun id => (memberships.find? id).isNone then
        .error (.database (.foreignKeyViolation "sponsor_membership_id"))
      else .ok (m, { db with memberships })

/-- `e.code === 'P2002' && e.meta.target.includes('referral_code')` -/
def isReferralCodeCollision : CallError → Bool
  | .database (.uniqueViolation target) => target.contains "referral_code"
  | _ => false

/-- The loop of the attempts; any other error is thrown again. -/
def createRetrying (row : String → MembershipRow) (failed : CallError) :
    List String → CompanyTx MembershipRow
  | [] => throw failed
  | code :: codes =>
      tryCatch (exec (insertMembership (row code))) fun e =>
        if isReferralCodeCollision e then createRetrying row failed codes else throw e

/-- The codes that the attempts draw. -/
def attempts (randomCode : Nat → String) : List String := (List.range 5).map randomCode

/-! ## The three places -/

def underRow (params : CreateUnderParams) (id : Uuid) (now : Instant) (code : String) :
    MembershipRow :=
  rowUnder params id ⟨fun _ => id, code, now⟩

def rootRow (params : CreateRootParams) (id : Uuid) (now : Instant) (code : String) :
    MembershipRow :=
  rowAtRoot params id ⟨fun _ => id, code, now⟩

/-- `createUnder` -/
def createUnderRetrying (params : CreateUnderParams) (id : Uuid) (now : Instant)
    (randomCode : Nat → String) : CompanyTx MembershipRow := do
  if params.sponsor.tenantId ≠ params.tenantId then
    throw (.conflict "sponsor belongs to another tenant")
  else
    createRetrying (underRow params id now) (.conflict "could not generate referral code")
      (attempts randomCode)

/-- `createRoot` -/
def createRootRetrying (params : CreateRootParams) (id : Uuid) (now : Instant)
    (randomCode : Nat → String) : CompanyTx MembershipRow :=
  createRetrying (rootRow params id now) (.conflict "referral kodu uretilemedi")
    (attempts randomCode)

structure CreateCompanyInput where
  name : String
  slug : String
  currency : String
  timezone : String
  ownerEmail : String
  ownerName : String

/-- The identifiers that a call draws. -/
structure CompanyDraws where
  tenantId : Uuid
  userId : Uuid
  membershipId : Uuid
  now : Instant
  randomCode : Nat → String

def ownerRow (tenantId userId id : Uuid) (now : Instant) (code : String) : MembershipRow where
  id
  tenantId
  userId
  role := .tenantOwner
  roleId := none
  sponsorMembershipId := none
  referralCode := code
  path := ltreeLabel id
  depth := 0
  status := .active
  isTeamLeader := false
  joinedAt := now

def createTenant (tenant : CompanyTenant) (db : CompanyDb) : Except CallError (Unit × CompanyDb) :=
  match db.tenants.insert? tenant with
  | none => .error (.database (.uniqueViolation ["slug"]))
  | some tenants => .ok ((), { db with tenants })

/-- The owner's user, which is created unless there is one with the address. -/
def ensureOwner (user : CompanyUser) (db : CompanyDb) :
    Except CallError ((Uuid × Bool) × CompanyDb) :=
  match db.users.rows.find? (·.email = user.email) with
  | some existing => .ok ((existing.id, true), db)
  | none =>
      match db.users.insert? user with
      | none => .error (.database (.uniqueViolation ["id"]))
      | some users => .ok ((user.id, false), { db with users })

theorem keepsIndexes_lastMembership (membershipId : Uuid) :
    KeepsIndexes fun u : CompanyUser => { u with lastMembershipId := some membershipId } where
  key_eq _ := rfl
  clash_left _ _ h := h
  clash_right _ _ h := h

def rememberMembership (userId membershipId : Uuid) (db : CompanyDb) :
    Except CallError (Unit × CompanyDb) :=
  if (db.users.find? userId).isNone then .error (.database .recordNotFound)
  else
    .ok ((), { db with
      users := db.users.updateKey userId _ (keepsIndexes_lastMembership membershipId) })

/-- The transaction of `createCompany`, but for the plan and the audit row. -/
def createCompany (env : Env) (input : CreateCompanyInput) (draws : CompanyDraws) :
    CompanyTx MembershipRow := do
  exec (createTenant ⟨draws.tenantId, env.toLowerCase input.slug, input.name, input.currency,
    input.timezone⟩)
  let owner ← exec (ensureOwner
    ⟨draws.userId, env.toLowerCase input.ownerEmail, input.ownerName, none⟩)
  let ownerMembership ← createRetrying
    (ownerRow draws.tenantId owner.1 draws.membershipId draws.now)
    (.conflict "referral kodu uretilemedi") (attempts draws.randomCode)
  if owner.2 then pure ownerMembership
  else do
    exec (rememberMembership owner.1 ownerMembership.id)
    pure ownerMembership

end Refearn.Memberships
