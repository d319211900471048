import Refearn.Auth.Invites
import Refearn.Engine.Commissions
import Refearn.Support.PathTree
import Refearn.Support.Runs
/-!
# The membership tree

`memberships.service.ts` with the trigger that forbids re-parenting. A member is placed once,
under its sponsor or as a root, and its path is stored as an `ltree` text. Team counts read
the texts, commissions follow the sponsor links.
-/

namespace Refearn.Memberships

open Support Support.Transaction
open Auth (Role InviteConsentSnapshot InviteAcceptanceConsent)

/-! ## Paths -/

/-- Every hyphen of the text becomes an underscore. -/
def ltreeLabel (id : Uuid) : String :=
  String.ofList (id.text.toList.map fun c => if c = '-' then '_' else c)

/-- The labels of an `ltree` text, root first. -/
def pathLabels (path : String) : List (List Char) := path.toList.splitOn '.'

/-- `path::ltree <@ ancestor::ltree` -/
def isDescendant (path ancestor : String) : Bool :=
  (pathLabels ancestor).isPrefixOf (pathLabels path)

/-- The identifier of which a label is made. -/
def labelId (label : List Char) : Uuid := Fin.ofNat _ (hexNumber (label.filter (· ≠ '_')))

/-! ## Tables -/

structure MembershipRow where
  id : Uuid
  tenantId : Uuid
  userId : Uuid
  role : Role
  roleId : Option Uuid
  sponsorMembershipId : Option Uuid
  referralCode : String
  path : String
  depth : Nat
  status : MembershipStatus
  isTeamLeader : Bool
  joinedAt : Instant
  deriving DecidableEq

/-- `memberships_tenant_id_user_id_key` and `memberships_tenant_id_referral_code_key`. -/
instance : Keyed MembershipRow Uuid where
  key := MembershipRow.id
  clash m m' := m.tenantId == m'.tenantId &&
    (m.userId == m'.userId || m.referralCode == m'.referralCode)

structure TreeDb where
  memberships : Table MembershipRow
  inviteAcceptanceConsents : Table InviteAcceptanceConsent

/-- What a call is going to draw: identifiers, the referral code, the time. -/
structure Draws where
  uuids : Nat → Uuid
  referralCode : String
  now : Instant

structure TreeSession where
  db : TreeDb
  draws : Draws

inductive MembershipError
  | conflict (message : String)
  | recordNotFound
  | uniqueViolation (table : String)
  | foreignKeyViolation (column : String)
  /-- `RAISE EXCEPTION` of a trigger. -/
  | raised (message : String)

abbrev TreeTx := Transaction TreeSession MembershipError

def newUuid : TreeTx Uuid := fun s =>
  .ok (s.draws.uuids 0,
    { s with draws := { s.draws with uuids := fun n => s.draws.uuids (n + 1) } })

@[simp] theorem commits_newUuid (s s' : TreeSession) (id : Uuid) :
    Commits newUuid s id s' ↔ s.draws.uuids 0 = id ∧
      { s with draws := { s.draws with uuids := fun n => s.draws.uuids (n + 1) } } = s' := by
  unfold Commits
  constructor
  · intro h
    cases h
    exact ⟨rfl, rfl⟩
  · rintro ⟨rfl, rfl⟩
    rfl

/-! ## Creating memberships -/

/-- `Pick<Membership, 'id' | 'path' | 'depth' | 'tenantId'>` -/
structure Sponsor where
  id : Uuid
  path : String
  depth : Nat
  tenantId : Uuid

def MembershipRow.sponsor (m : MembershipRow) : Sponsor := ⟨m.id, m.path, m.depth, m.tenantId⟩

structure CreateUnderParams where
  tenantId : Uuid
  userId : Uuid
  sponsor : Sponsor
  role : Option Role

/-- The foreign key of the sponsor and the unique indexes can object. -/
def createMembership (membership : MembershipRow) : TreeTx MembershipRow := do
  let s ← get
  require (membership.sponsorMembershipId.all fun sponsorId =>
    (s.db.memberships.find? sponsorId).isSome) (.foreignKeyViolation "sponsor_membership_id")
  let memberships ← orThrow (s.db.memberships.insert? membership) (.uniqueViolation "memberships")
  set { s with db := { s.db with memberships } }
  pure membership

def rowUnder (params : CreateUnderParams) (id : Uuid) (draws : Draws) : MembershipRow where
  id
  tenantId := params.tenantId
  userId := params.userId
  role := params.role.getD .member
  roleId := none
  sponsorMembershipId := some params.sponsor.id
  referralCode := draws.referralCode
  path := params.sponsor.path ++ "." ++ ltreeLabel id
  depth := params.sponsor.depth + 1
  status := .active
  isTeamLeader := false
  joinedAt := draws.now

/-- A referral code that is taken aborts the transaction, so no later attempt of the source's
loop can succeed. -/
def createUnder (params : CreateUnderParams) : TreeTx MembershipRow := do
  require (params.sponsor.tenantId = params.tenantId)
    (.conflict "sponsor belongs to another tenant")
  let id ← newUuid
  let s ← get
  createMembership (rowUnder params id s.draws)

def createUnderWithInviteConsent (params : CreateUnderParams) (inviteId : Uuid)
    (consent : InviteConsentSnapshot) : TreeTx MembershipRow := do
  let membership ← createUnder params
  let id ← newUuid
  let s ← get
  let inviteAcceptanceConsents ← orThrow
    (s.db.inviteAcceptanceConsents.insert?
      { id
        inviteId
        tenantId := membership.tenantId
        userId := membership.userId
        membershipId := membership.id
        disclaimerVersion := consent.disclaimerVersion
        locale := consent.locale
        disclaimerContentHash := consent.disclaimerContentHash
        tenantDisplayName := consent.tenantDisplayName
        programSummary := consent.programSummary
        programSummaryHash := consent.programSummaryHash
        acceptedAt := consent.acceptedAt })
    (.uniqueViolation "invite_acceptance_consents")
  set { s with db := { s.db with inviteAcceptanceConsents } }
  pure membership

structure CreateRootParams where
  tenantId : Uuid
  userId : Uuid
  role : Option Role
  isTeamLeader : Option Bool

def rowAtRoot (params : CreateRootParams) (id : Uuid) (draws : Draws) : MembershipRow where
  id
  tenantId := params.tenantId
  userId := params.userId
  role := params.role.getD .member
  roleId := none
  sponsorMembershipId := none
  referralCode := draws.referralCode
  path := ltreeLabel id
  depth := 0
  status := .active
  isTeamLeader := params.isTeamLeader.getD true
  joinedAt := draws.now

def createRoot (params : CreateRootParams) : TreeTx MembershipRow := do
  let id ← newUuid
  let s ← get
  createMembership (rowAtRoot params id s.draws)

/-! ## Updating memberships -/

/-- The columns that an `UPDATE` assigns. The services assign the first four; the others are
those that the trigger guards. -/
structure MembershipUpdate where
  role : Option Role
  roleId : Option (Option Uuid)
  isTeamLeader : Option Bool
  status : Option MembershipStatus
  sponsorMembershipId : Option (Option Uuid)
  path : Option String

def MembershipUpdate.apply (u : MembershipUpdate) (m : MembershipRow) : MembershipRow :=
  { m with
    role := u.role.getD m.role
    roleId := u.roleId.getD m.roleId
    isTeamLeader := u.isTeamLeader.getD m.isTeamLeader
    status := u.status.getD m.status
    sponsorMembershipId := u.sponsorMembershipId.getD m.sponsorMembershipId
    path := u.path.getD m.path }

theorem MembershipUpdate.keepsIndexes (u : MembershipUpdate) : KeepsIndexes u.apply where
  key_eq _ := rfl
  clash_left _ _ h := h
  clash_right _ _ h := h

/-- The trigger `forbid_reparenting`. -/
def forbidReparenting (old new : MembershipRow) : TreeTx PUnit := do
  require (new.sponsorMembershipId = old.sponsorMembershipId)
    (.raised "memberships.sponsor_membership_id degistirilemez (re-parenting yasak)")
  require (old.path = "" ∨ new.path = old.path)
    (.raised "memberships.path degistirilemez (yerlesim kalicidir)")

def updateMembership (id : Uuid) (u : MembershipUpdate) : TreeTx PUnit := do
  let s ← get
  let old ← orThrow (s.db.memberships.find? id) .recordNotFound
  forbidReparenting old (u.apply old)
  set { s with db := { s.db with
    memberships := s.db.memberships.updateKey id u.apply u.keepsIndexes } }

/-! ## The system -/

/-- The tables with the sponsors that callers have read. -/
structure TreeWorld where
  db : TreeDb
  sponsors : List Sponsor

inductive TreeStep
  /-- a caller reads the membership under which it is going to place another one -/
  | readSponsor (membershipId : Uuid)
  | createRoot (params : CreateRootParams) (draws : Draws)
  /-- the sponsor is one that has been read -/
  | createUnder (tenantId userId : Uuid) (sponsor : Nat) (role : Option Role) (draws : Draws)
  | createUnderWithInviteConsent (tenantId userId : Uuid) (sponsor : Nat) (role : Option Role)
      (inviteId : Uuid) (consent : InviteConsentSnapshot) (draws : Draws)
  | update (id : Uuid) (u : MembershipUpdate)

/-- The tables after a transaction; a raised error leaves them. -/
def TreeWorld.commit {α : Type} (w : TreeWorld) (draws : Draws) (m : TreeTx α) : TreeWorld :=
  match m.run ⟨w.db, draws⟩ with
  | .ok (_, s) => { w with db := s.db }
  | .error _ => w

def TreeStep.apply (step : TreeStep) (w : TreeWorld) : TreeWorld :=
  match step with
  | .readSponsor membershipId =>
      { w with
        sponsors := w.sponsors ++
          ((w.db.memberships.find? membershipId).map MembershipRow.sponsor).toList }
  | .createRoot params draws => w.commit draws (Memberships.createRoot params)
  | .createUnder tenantId userId sponsor role draws =>
      match w.sponsors[sponsor]? with
      | some sponsor => w.commit draws (Memberships.createUnder ⟨tenantId, userId, sponsor, role⟩)
      | none => w
  | .createUnderWithInviteConsent tenantId userId sponsor role inviteId consent draws =>
      match w.sponsors[sponsor]? with
      | some sponsor =>
          w.commit draws (Memberships.createUnderWithInviteConsent
            ⟨tenantId, userId, sponsor, role⟩ inviteId consent)
      | none => w
  | .update id u => w.commit ⟨fun _ => 0, "", 0⟩ (updateMembership id u)

/-! ## What the engine reads -/

/-- The columns that the engine and the ranks read, the path as its list of identifiers. -/
def MembershipRow.member (m : MembershipRow) : Membership :=
  ⟨m.id, m.tenantId, m.userId, m.sponsorMembershipId, m.referralCode,
    (pathLabels m.path).map labelId, m.status, m.joinedAt⟩

def membersRead (memberships : Table MembershipRow) : Table Membership where
  rows := memberships.rows.map MembershipRow.member
  keys_nodup := by
    have hkeys : (memberships.rows.map MembershipRow.member).map key =
        memberships.rows.map key := by
      rw [List.map_map]
      rfl
    rw [hkeys]
    exact memberships.keys_nodup
  no_clash := List.pairwise_map.mpr (memberships.no_clash.imp fun _ => rfl)

/-- What other services see of the memberships, beside the rest of the registry. -/
def TreeDb.registry (db : TreeDb) (rest : Registry) : Registry :=
  { rest with memberships := membersRead db.memberships }

end Refearn.Memberships
