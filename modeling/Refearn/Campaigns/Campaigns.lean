import Refearn.Engine.Run
/-!
# Campaigns

`campaigns/campaigns.service.ts`. A campaign is edited while it is open and ends when it is
finalised, by an admin or by the scheduler; the winners of its window get their prizes in the
transaction that ends it. An edit and a finalisation both read the campaign before their
own transaction.
-/

namespace Refearn.Campaigns

open Support Support.Transaction Engine

/-! ## Campaigns -/

inductive CampaignMetric | revenue | salesCount | newRecruits | invites
  deriving DecidableEq

inductive CampaignStatus | draft | active | ended
  deriving DecidableEq

structure Prize where
  rank : Nat
  bonusCents : Int
  deriving DecidableEq

structure Standing where
  rank : Nat
  membershipId : Uuid
  name : String
  code : String
  score : Int
  bonusCents : Int
  inactive : Bool

structure Campaign where
  id : Uuid
  tenantId : Uuid
  name : String
  description : Option String
  metric : CampaignMetric
  startsAt : Instant
  endsAt : Instant
  status : CampaignStatus
  prizes : List Prize
  results : Option (List Standing)
  finalizedAt : Option Instant
  createdAt : Instant

instance : Keyed Campaign Uuid := { key := Campaign.id }

theorem keepsIndexes_campaign {f : Campaign → Campaign} (h : ∀ c, (f c).id = c.id) :
    KeepsIndexes f where
  key_eq := h
  clash_left _ _ hclash := hclash
  clash_right _ _ hclash := hclash

/-- The columns of an invite that the standings read. -/
structure IssuedInvite where
  tenantId : Uuid
  inviterMembershipId : Uuid
  createdAt : Instant
  deriving DecidableEq

/-- What the standings are computed from. -/
structure Books where
  db : Db
  invites : List IssuedInvite

/-! ## Standings -/

structure Score where
  membershipId : Uuid
  score : Int
  deriving DecidableEq

/-- The order in which a `GROUP BY` returns its groups. -/
structure GroupOrder where
  order : List Score → List Score
  perm : ∀ scores, (order scores).Perm scores

def Campaign.inWindow (c : Campaign) (instant : Instant) : Bool :=
  decide (c.startsAt ≤ instant) && decide (instant ≤ c.endsAt)

/-- `GROUP BY member` with an aggregate of each group. -/
def groupBy {ρ : Type} (member : ρ → Uuid) (aggregate : List ρ → Int) (rows : List ρ) :
    List Score :=
  (rows.map member).dedup.map fun id => ⟨id, aggregate (rows.filter fun r => member r == id)⟩

def salesOf (db : Db) (tenantId : Uuid) (c : Campaign) : List Sale :=
  db.sales.rows.filter fun s =>
    s.tenantId == tenantId && s.status == .approved && c.inWindow s.saleDate

def scoresOf (books : Books) (tenantId : Uuid) (c : Campaign) : List Score :=
  match c.metric with
  | .revenue =>
      groupBy Sale.sellerMembershipId (fun sales => (sales.map Sale.amountCents).sum)
        (salesOf books.db tenantId c)
  | .salesCount =>
      groupBy Sale.sellerMembershipId (fun sales => sales.length) (salesOf books.db tenantId c)
  | .newRecruits =>
      groupBy id (fun recruits => recruits.length)
        ((books.db.registry.memberships.rows.filter fun m =>
          m.tenantId == tenantId && c.inWindow m.joinedAt).filterMap
            Membership.sponsorMembershipId)
  | .invites =>
      groupBy IssuedInvite.inviterMembershipId (fun invites => invites.length)
        (books.invites.filter fun i => i.tenantId == tenantId && c.inWindow i.createdAt)

def MAX_STANDINGS : Nat := 50

/-- The positive scores, best first; equal scores stay in the order of their groups. -/
def scored (order : GroupOrder) (books : Books) (tenantId : Uuid) (c : Campaign) : List Score :=
  (((order.order (scoresOf books tenantId c)).filter fun s => decide (0 < s.score)).insertionSort
    fun s s' => s'.score ≤ s.score).take MAX_STANDINGS

/-- `new Map(prizes)`: of two prizes for one rank the later one counts. -/
def bonusByRank (prizes : List Prize) (rank : Nat) : Int :=
  ((prizes.reverse.find? fun p => p.rank == rank).map Prize.bonusCents).getD 0

def standing (books : Books) (c : Campaign) (i : Nat) (s : Score) : Standing :=
  let m := books.db.registry.memberships.find? s.membershipId
  let user := m.bind fun m => books.db.registry.users.find? m.userId
  { rank := i + 1
    membershipId := s.membershipId
    name := (user.map User.fullName).getD "—"
    code := (m.map Membership.referralCode).getD ""
    score := s.score
    bonusCents := bonusByRank c.prizes (i + 1)
    inactive := m.map Membership.status != some .active }

def standings (order : GroupOrder) (books : Books) (tenantId : Uuid) (c : Campaign) :
    List Standing :=
  (scored order books tenantId c).mapIdx (standing books c)

/-! ## Transactions -/

structure CampaignSession where
  session : Session
  campaigns : Table Campaign
  invites : List IssuedInvite

abbrev CampaignTx := Transaction CampaignSession EngineError

/-- Run a transaction of the engine on the same connection. -/
def inEngine {α : Type} (m : Tx α) : CampaignTx α :=
  embed CampaignSession.session (fun t s => { t with session := s }) id m

@[simp] theorem commits_inEngine {α : Type} (m : Tx α) (t t' : CampaignSession) (a : α) :
    Commits (inEngine m) t a t' ↔
      ∃ s', m.Commits t.session a s' ∧ t' = { t with session := s' } :=
  commits_embed ..

def readBooks : CampaignTx Books := fun t => .ok (⟨t.session.db, t.invites⟩, t)

@[simp] theorem commits_readBooks (t t' : CampaignSession) (books : Books) :
    Commits readBooks t books t' ↔ ⟨t.session.db, t.invites⟩ = books ∧ t = t' := by
  unfold Commits
  constructor
  · intro h
    cases h
    exact ⟨rfl, rfl⟩
  · rintro ⟨rfl, rfl⟩
    rfl

/-! ## Finalising -/

/-- A campaign that can still end. -/
def Campaign.isOpen (c : Campaign) : Bool := c.status == .draft || c.status == .active

def Campaign.ended (now : Instant) (c : Campaign) : Campaign :=
  { c with status := .ended, finalizedAt := some now }

theorem Campaign.keepsIndexes_ended (now : Instant) : KeepsIndexes (Campaign.ended now) :=
  keepsIndexes_campaign fun _ => rfl

def isClaimable (id tenantId : Uuid) (c : Campaign) : Bool :=
  c.id == id && c.tenantId == tenantId && c.isOpen

def alreadyFinalized : EngineError := .conflict "kampanya zaten bitirilmis"

/-- The atomic claim: the campaign ends, unless it has ended before. -/
def claimCampaign (id tenantId : Uuid) (now : Instant) : CampaignTx PUnit := do
  let t ← get
  require (t.campaigns.rows.countP (isClaimable id tenantId) = 1) alreadyFinalized
  set { t with
    campaigns := t.campaigns.updateWhere (isClaimable id tenantId) (Campaign.ended now)
      (Campaign.keepsIndexes_ended now) }

def bonusParams (tenantId : Uuid) (c : Campaign) (month : String) (actorUserId : Option Uuid)
    (s : Standing) : AwardBonusParams where
  tenantId
  membershipId := s.membershipId
  amountCents := s.bonusCents
  month
  reason := s!"{c.name} — rank #{s.rank}"
  actorUserId
  metadata := [("campaignId", .str c.id.text), ("rank", .num s.rank)]

def Standing.isAwarded (s : Standing) : Bool := decide (0 < s.bonusCents)

def awardStanding (tenantId : Uuid) (c : Campaign) (month : String)
    (actorUserId : Option Uuid) (now : Instant) (s : Standing) : CampaignTx PUnit :=
  if s.isAwarded then do
    let _ ← inEngine (awardBonus now (bonusParams tenantId c month actorUserId s))
    pure ⟨⟩
  else pure ⟨⟩

def Campaign.withResults (results : List Standing) (c : Campaign) : Campaign :=
  { c with results := some results }

theorem Campaign.keepsIndexes_withResults (results : List Standing) :
    KeepsIndexes (Campaign.withResults results) :=
  keepsIndexes_campaign fun _ => rfl

def storeResults (id : Uuid) (results : List Standing) : CampaignTx PUnit :=
  modify fun t => { t with
    campaigns := t.campaigns.updateKey id (Campaign.withResults results)
      (Campaign.keepsIndexes_withResults results) }

/-- The transaction of `doFinalize`, for a campaign as it was read. -/
def doFinalizeInTransaction (env : Env) (order : GroupOrder) (tenantId : Uuid) (c : Campaign)
    (actorUserId : Option Uuid) (now : Instant) : CampaignTx (List Standing) := do
  let tenant ← inEngine (findTenant tenantId)
  let month := env.monthKey now tenant.timezone
  claimCampaign c.id tenantId now
  let books ← readBooks
  let ranked := standings order books tenantId c
  forM ranked (awardStanding tenantId c month actorUserId now)
  storeResults c.id ranked
  let awarded := ranked.filter Standing.isAwarded
  inEngine (audit tenantId actorUserId
    (if actorUserId.isSome then "campaign.finalize" else "campaign.auto_finalize") c.id (.obj [])
    (.obj [("awardedCount", .num awarded.length),
      ("totalBonusCents", .ofCents (awarded.map Standing.bonusCents).sum)]))
  pure ranked

/-! ## Editing -/

/-- The statuses that an edit may ask for. -/
inductive EditableStatus | draft | active
  deriving DecidableEq

def EditableStatus.status : EditableStatus → CampaignStatus
  | .draft => .draft
  | .active => .active

structure UpdateCampaignInput where
  name : Option String
  description : Option String
  metric : Option CampaignMetric
  startsAt : Option Instant
  endsAt : Option Instant
  prizes : Option (List Prize)
  status : Option EditableStatus

/-- Whether an edit touches what is fixed once a campaign is active. -/
def UpdateCampaignInput.isRestricted (input : UpdateCampaignInput) : Bool :=
  input.metric.isSome || input.startsAt.isSome || input.endsAt.isSome || input.prizes.isSome

/-- The checks of `update`, on the campaign as it was read. -/
def checkUpdate (c : Campaign) (input : UpdateCampaignInput) : Except EngineError Unit :=
  if c.status = .ended then .error (.conflict "bitmis kampanya duzenlenemez")
  else if c.status = .active ∧ input.isRestricted then
    .error (.badRequest "aktif kampanyada yalniz ad/aciklama degistirilebilir")
  else if input.endsAt.getD c.endsAt ≤ input.startsAt.getD c.startsAt then
    .error (.badRequest "endsAt, startsAt sonrasinda olmali")
  else if input.prizes.any fun prizes => !decide (prizes.map Prize.rank).Nodup then
    .error (.badRequest "her rank yalnizca bir kez tanimlanabilir")
  else .ok ()

def Campaign.edited (input : UpdateCampaignInput) (c : Campaign) : Campaign :=
  { c with
    name := input.name.getD c.name
    description := input.description.or c.description
    metric := input.metric.getD c.metric
    startsAt := input.startsAt.getD c.startsAt
    endsAt := input.endsAt.getD c.endsAt
    prizes := input.prizes.getD c.prizes
    status := (input.status.map EditableStatus.status).getD c.status }

/-- The statement of `update`, which names the campaign by its id alone. -/
def updateCampaign (id : Uuid) (input : UpdateCampaignInput) (campaigns : Table Campaign) :
    Table Campaign :=
  campaigns.updateKey id (Campaign.edited input) (keepsIndexes_campaign fun _ => rfl)

/-! ## The system -/

/-- An edit between its checks and its statement. -/
structure OpenUpdate where
  id : Uuid
  input : UpdateCampaignInput

/-- A finalisation between its read and its transaction. -/
structure OpenFinalize where
  tenantId : Uuid
  campaign : Campaign
  actorUserId : Option Uuid

/-- What a finalisation has paid: the campaign as it was stored when it ended, the books at that
moment, and the rows that were added to the ledger. -/
structure Payment where
  campaign : Campaign
  books : Books
  rows : List LedgerEntry

structure CampaignWorld where
  books : Books
  campaigns : Table Campaign
  updates : List OpenUpdate
  finalizations : List OpenFinalize
  payments : List Payment

def CampaignWorld.session (w : CampaignWorld) (uuids : Nat → Uuid) : CampaignSession :=
  ⟨⟨w.books.db, uuids⟩, w.campaigns, w.books.invites⟩

def CampaignWorld.find? (w : CampaignWorld) (tenantId id : Uuid) : Option Campaign :=
  (w.campaigns.find? id).filter fun c => c.tenantId == tenantId

inductive CampaignStep
  /-- other services move on -/
  | others (books : Books)
  | create (c : Campaign)
  | openUpdate (tenantId id : Uuid) (input : UpdateCampaignInput)
  | commitUpdate (i : Nat)
  | openFinalize (tenantId id actorUserId : Uuid)
  | openAutoFinalize (now : Instant)
  | commitFinalize (i : Nat) (order : GroupOrder) (now : Instant) (uuids : Nat → Uuid)

/-- A new campaign is a draft without results. -/
def Campaign.asCreated (c : Campaign) : Campaign :=
  { c with status := .draft, results := none, finalizedAt := none }

def isDue (now : Instant) (c : Campaign) : Bool :=
  c.status == .active && decide (c.endsAt ≤ now)

/-- The checks of a finalisation, on the campaign as it was read. -/
def openFinalization (tenantId : Uuid) (c : Campaign) (actorUserId : Option Uuid) :
    List OpenFinalize :=
  if c.status = .ended then [] else [⟨tenantId, c, actorUserId⟩]

/-- A finalisation whose transaction has committed. -/
def CampaignWorld.finalized (w : CampaignWorld) (c : Campaign) (t : CampaignSession) :
    CampaignWorld :=
  { w with
    books := { w.books with db := t.session.db }
    campaigns := t.campaigns
    payments := w.payments ++ (w.campaigns.find? c.id).toList.map fun stored =>
      ⟨stored, w.books, t.session.db.ledger.rows.drop w.books.db.ledger.rows.length⟩ }

def CampaignWorld.commitFinalize (env : Env) (w : CampaignWorld) (call : OpenFinalize)
    (order : GroupOrder) (now : Instant) (uuids : Nat → Uuid) : CampaignWorld :=
  match (doFinalizeInTransaction env order call.tenantId call.campaign call.actorUserId now).run
      (w.session uuids) with
  | .ok (_, t) => w.finalized call.campaign t
  | .error _ => w

def CampaignStep.apply (env : Env) (step : CampaignStep) (w : CampaignWorld) : CampaignWorld :=
  match step with
  | .others books => { w with books }
  | .create c =>
      match w.campaigns.insert? c.asCreated with
      | some campaigns => { w with campaigns }
      | none => w
  | .openUpdate tenantId id input =>
      match w.find? tenantId id with
      | some c =>
          match checkUpdate c input with
          | .ok _ => { w with updates := w.updates ++ [⟨c.id, input⟩] }
          | .error _ => w
      | none => w
  | .commitUpdate i =>
      match w.updates[i]? with
      | some call =>
          { w with
            campaigns := updateCampaign call.id call.input w.campaigns
            updates := w.updates.eraseIdx i }
      | none => w
  | .openFinalize tenantId id actorUserId =>
      match w.find? tenantId id with
      | some c =>
          { w with
            finalizations := w.finalizations ++ openFinalization tenantId c (some actorUserId) }
      | none => w
  | .openAutoFinalize now =>
      { w with
        finalizations := w.finalizations ++ (w.campaigns.rows.filter (isDue now)).flatMap
          fun c => openFinalization c.tenantId c none }
  | .commitFinalize i order now uuids =>
      match w.finalizations[i]? with
      | some call =>
          { w.commitFinalize env call order now uuids with
            finalizations := w.finalizations.eraseIdx i }
      | none => w

end Refearn.Campaigns
