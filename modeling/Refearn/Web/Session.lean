import Mathlib.Data.List.Basic
/-!
# The browser's session

`web/src/lib/auth.ts`. All tabs share one session in local storage, and a second one that
an impersonation puts aside. Every change of them runs under one lock, so it is one step;
a change that throws leaves the storage as it was.
-/

namespace Refearn.Web

structure MembershipSummary where
  id : String
  tenantId : String
  tenantSlug : String
  tenantName : String
  role : String
  referralCode : String
  depth : Int
  deriving DecidableEq

structure SessionUser where
  id : String
  email : String
  fullName : String
  locale : String
  emailVerified : Bool
  isPlatformAdmin : Option Bool
  deriving DecidableEq

structure Session where
  accessToken : String
  refreshToken : String
  user : SessionUser
  activeMembershipId : Option String
  memberships : List MembershipSummary
  deriving DecidableEq

/-- The claims of an access token that the client reads. -/
structure AccessClaims where
  sid : Option String
  imp : Option String
  deriving DecidableEq

/-- The claims in the payload of a token; one that cannot be decoded has none. -/
abbrev DecodeClaims := String → AccessClaims

/-- `KEY` and `IMP_KEY` of local storage. -/
structure Storage where
  main : Option Session
  impersonator : Option Session
  deriving DecidableEq

/-! ## Sessions -/

def isMembershipSummary (m : MembershipSummary) : Bool :=
  m.id ≠ "" && m.tenantId ≠ "" && m.tenantName ≠ "" && m.role ≠ "" && m.referralCode ≠ ""

def isSession (s : Session) : Bool :=
  s.accessToken ≠ "" && s.user.id ≠ "" && s.user.email ≠ "" && s.user.fullName ≠ "" &&
    s.user.locale ≠ "" && s.activeMembershipId ≠ some "" && s.memberships.all isMembershipSummary

/-- The tenants of the active memberships of two sessions agree. -/
def sameActiveTenant (s s' : Session) : Bool :=
  match s.activeMembershipId with
  | none => true
  | some id =>
      match s.memberships.find? (fun m => m.id = id), s'.memberships.find? (fun m => m.id = id) with
      | some m, some m' => m.tenantId = m'.tenantId
      | _, _ => false

/-- A non-empty family claim, and the same user and workspace. -/
def sameSessionFamily (decode : DecodeClaims) (previous next : Session) : Bool :=
  match (decode previous.accessToken).sid with
  | none => false
  | some family => family ≠ "" && (decode next.accessToken).sid = some family &&
      previous.user.id = next.user.id &&
        previous.activeMembershipId = next.activeMembershipId && sameActiveTenant previous next

/-! ## Mutations -/

/-- `store.set`; `none`: the session is invalid. -/
def Storage.set (store : Storage) (session : Session) : Option Storage :=
  if isSession session then some { store with main := some session } else none

def Storage.clear (_ : Storage) : Storage := ⟨none, none⟩

def clearSession (store : Storage) : Storage := store.clear

/-- A login or an accepted invite replaces the session that was there when it began. -/
def replaceSessionIfCurrent (expected : Option Session) (next : Session) (store : Storage) :
    Option Storage :=
  if expected = store.main then
    (store.set next).map fun store => { store with impersonator := none }
  else none

def updateSession (expected : Session) (updater : Session → Session) (store : Storage) :
    Option Storage :=
  if store.main = some expected then store.set (updater expected) else none

def applyTenantSwitch (expected : Session) (accessToken activeMembershipId : String) :
    Storage → Option Storage :=
  updateSession expected fun session =>
    { session with accessToken := accessToken, activeMembershipId := some activeMembershipId }

/-- The update of the account page. -/
def saveProfile (expected : Session) (fullName locale : String) : Storage → Option Storage :=
  updateSession expected fun session =>
    { session with user := { session.user with fullName := fullName, locale := locale } }

def startImpersonation (decode : DecodeClaims) (expectedAdmin impSession : Session)
    (store : Storage) : Option Storage :=
  if isSession impSession && store.main = some expectedAdmin &&
      (decode impSession.accessToken).imp = some expectedAdmin.user.id then
    some { main := some impSession, impersonator := some expectedAdmin }
  else none

/-- What `viewAsMember` gets from the server about a member. -/
structure ImpersonatedMember where
  accessToken : String
  membershipId : String
  userId : String
  fullName : String
  email : String
  referralCode : String
  role : String
  tenantId : String
  tenantName : String

/-- The session that `viewAsMember` builds; it cannot be refreshed. -/
def impersonationSession (m : ImpersonatedMember) : Session where
  accessToken := m.accessToken
  refreshToken := ""
  user := ⟨m.userId, m.email, m.fullName, "en", true, none⟩
  activeMembershipId := some m.membershipId
  memberships := [⟨m.membershipId, m.tenantId, "", m.tenantName, m.role, m.referralCode, 0⟩]

def stopImpersonation (decode : DecodeClaims) (store : Storage) : Storage :=
  let currentImp := store.main.bind fun s => (decode s.accessToken).imp
  match store.impersonator with
  | none => if currentImp.isSome then store.clear else store
  | some candidate =>
      if store.main.isSome && isSession candidate && currentImp = some candidate.user.id then
        { main := some candidate, impersonator := none }
      else if currentImp.isSome then store.clear
      else { store with impersonator := none }

end Refearn.Web
