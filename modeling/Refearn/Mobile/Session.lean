import Refearn.Web.Session
/-!
# The session of the mobile app and its token lineage

`mobile/src/lib/auth.ts`. A session is the one of the browser. Beside it the app keeps a
record of how its tokens have advanced, so that a session that was read before a refresh and
is saved after it gets the newer tokens.
-/

namespace Refearn.Mobile

open Web (Session MembershipSummary sameActiveTenant)

structure TokenPair where
  accessToken : String
  refreshToken : String
  deriving DecidableEq

def tokenPairOf (session : Session) : TokenPair := ⟨session.accessToken, session.refreshToken⟩

def withTokens (session : Session) (tokens : TokenPair) : Session :=
  { session with accessToken := tokens.accessToken, refreshToken := tokens.refreshToken }

def hasTokenPair (session tokens : TokenPair) : Bool :=
  session.accessToken = tokens.accessToken && session.refreshToken = tokens.refreshToken

def isMembershipSummary (m : MembershipSummary) : Bool :=
  m.id ≠ "" && m.tenantId ≠ "" && m.tenantSlug ≠ "" && m.tenantName ≠ "" && m.role ≠ "" &&
    m.referralCode ≠ ""

def isSession (s : Session) : Bool :=
  s.accessToken ≠ "" && s.refreshToken ≠ "" && s.user.id ≠ "" && s.user.email ≠ "" &&
    s.user.fullName ≠ "" && s.user.locale ≠ "" && s.activeMembershipId ≠ some "" &&
      s.memberships.all isMembershipSummary

def sameSessionIdentity (left right : Session) : Bool :=
  left.user.id = right.user.id && left.activeMembershipId = right.activeMembershipId &&
    sameActiveTenant left right

/-- `sameSessionSnapshot` compares every field. -/
def sameSessionSnapshot (left right : Option Session) : Bool := left = right

/-! ## Lineage -/

structure AccessTokenLineage where
  familyId : String
  issuedAt : Int
  deriving DecidableEq

/-- `accessTokenLineage`: what the payload of a token tells; one that cannot be read tells
nothing. -/
abbrev ReadLineage := String → Option AccessTokenLineage

def sharedTokenLineage (read : ReadLineage) (left right : TokenPair) :
    Option AccessTokenLineage :=
  match read left.accessToken, read right.accessToken with
  | some leftLineage, some rightLineage =>
      if leftLineage.familyId = rightLineage.familyId then some rightLineage else none
  | _, _ => none

structure TokenAdvancement where
  owner : Session
  ancestors : List TokenPair
  latestTokens : TokenPair
  familyId : Option String
  latestIssuedAt : Option Int

def tokenLineageAncestorCap : Nat := 32

def isKnownTokenPair (advancement : TokenAdvancement) (tokens : TokenPair) : Bool :=
  hasTokenPair tokens advancement.latestTokens ||
    advancement.ancestors.any (hasTokenPair tokens)

def appendUniqueTokenPair (pairs : List TokenPair) (tokens : TokenPair) : List TokenPair :=
  if pairs.any (hasTokenPair · tokens) then pairs else pairs ++ [tokens]

/-- The record goes on: the same family, the same identity, and it knows the tokens. -/
def TokenAdvancement.continues (advancement : TokenAdvancement) (familyId : Option String)
    (refreshed : Session) (tokens : TokenPair) : Bool :=
  advancement.familyId = familyId && sameSessionIdentity advancement.owner refreshed &&
    isKnownTokenPair advancement tokens

def registerTokenAdvancement (read : ReadLineage) (current : Option TokenAdvancement)
    (owner : Option Session) (refreshed : Session) : Option TokenAdvancement :=
  match owner with
  | none => none
  | some owner =>
      if sameSessionIdentity owner refreshed then
        let lineage := sharedTokenLineage read (tokenPairOf owner) (tokenPairOf refreshed)
        let familyId := lineage.map (·.familyId)
        let latestIssuedAt := lineage.map (·.issuedAt)
        let latestTokens := tokenPairOf refreshed
        if hasTokenPair latestTokens (tokenPairOf owner) then
          current.filter (·.continues familyId refreshed latestTokens)
        else
          match current.filter (·.continues familyId refreshed (tokenPairOf owner)) with
          | some current =>
              let ancestors := appendUniqueTokenPair
                (appendUniqueTokenPair current.ancestors current.latestTokens) (tokenPairOf owner)
              let kept := ancestors.filter fun ancestor => !hasTokenPair ancestor latestTokens
              some {
                owner := current.owner
                ancestors := kept.drop (kept.length - tokenLineageAncestorCap)
                latestTokens := latestTokens
                familyId := familyId
                latestIssuedAt := latestIssuedAt }
          | none => some ⟨owner, [tokenPairOf owner], latestTokens, familyId, latestIssuedAt⟩
      else none

/-- An access token of the same family that was issued before the latest one. -/
def isOlder (read : ReadLineage) (advancement : TokenAdvancement) (session : Session) : Bool :=
  match advancement.familyId, advancement.latestIssuedAt, read session.accessToken with
  | some familyId, some latestIssuedAt, some incoming =>
      incoming.familyId = familyId && incoming.issuedAt < latestIssuedAt
  | _, _, _ => false

/-- A session that is about to be saved, with the newest tokens of its lineage. -/
def resolveQueuedSessionSave (read : ReadLineage) (advancement : Option TokenAdvancement)
    (session : Session) : Session × Option TokenAdvancement :=
  match advancement with
  | none => (session, none)
  | some advancement =>
      if !sameSessionIdentity advancement.owner session then (session, none)
      else if hasTokenPair (tokenPairOf session) advancement.latestTokens then
        (session, some advancement)
      else if advancement.ancestors.any (hasTokenPair (tokenPairOf session)) ||
          isOlder read advancement session then
        (withTokens session advancement.latestTokens, some advancement)
      else (session, none)

end Refearn.Mobile
