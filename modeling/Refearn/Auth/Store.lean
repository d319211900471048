import Refearn.Auth.Schema
import Refearn.Support.Transaction
/-!
# Statements of an auth transaction

A connection holds the database as its transaction sees it and what the transaction is
going to draw: readings of the clock, identifiers and random texts. Every statement is
one of a few operations on one table.
-/

namespace Refearn.Auth

open Support Support.Transaction

/-! ## The environment -/

/-- What the services take from Node, from `@node-rs/argon2` and from other modules. -/
structure AuthEnv where
  sha256 : String → String
  /-- `hash(password, ARGON2_OPTS)` with the salt it draws -/
  hash : String → String → String
  /-- `safeVerify`: the hash first; a malformed hash verifies nothing -/
  verify : String → String → Bool
  /-- `createHmac('sha1', key).update(message).digest()` -/
  hmacSha1 : List Nat → List Nat → List Nat
  toLowerCase : String → String
  otpauthUrl : String → String → String
  /-- `auditFingerprint(ip, 'ip', accessSecret)` -/
  ipFingerprint : String → String
  /-- `encryptSecret(raw, accessSecret)` with the nonce it draws -/
  encryptSecret : String → String → String

/-! ## Errors and connections -/

inductive AuthError
  | badRequest (message : String)
  | unauthorized (message : String)
  | forbidden (message : String)
  | notFound (message : String)
  | conflict (message : String)
  /-- An `Error` that is no HTTP exception. -/
  | internal (message : String)
  /-- Prisma's P2025 -/
  | recordNotFound
  /-- Prisma's P2002 -/
  | uniqueViolation (table : String)
  deriving DecidableEq

/-- What a transaction is going to draw: how far the clock moves before each reading,
identifiers, the texts of random tokens, and bytes. -/
structure Supply where
  clock : Instant
  ticks : Nat → Nat
  uuids : Nat → Uuid
  texts : Nat → String
  bytes : Nat → UInt8

namespace Supply

def dropTick (s : Supply) : Supply :=
  { s with clock := s.clock + s.ticks 0, ticks := fun n => s.ticks (n + 1) }

def dropUuid (s : Supply) : Supply := { s with uuids := fun n => s.uuids (n + 1) }

def dropText (s : Supply) : Supply := { s with texts := fun n => s.texts (n + 1) }

def dropBytes (s : Supply) (count : Nat) : Supply :=
  { s with bytes := fun n => s.bytes (n + count) }

/-- `s'` is left of `s` after some draws. -/
structure Later (s s' : Supply) : Prop where
  clock_le : s.clock ≤ s'.clock
  uuids : ∃ k, ∀ n, s'.uuids n = s.uuids (n + k)

theorem Later.refl (s : Supply) : Later s s := ⟨le_refl _, 0, fun _ => rfl⟩

theorem Later.trans {s t u : Supply} (h : Later s t) (h' : Later t u) : Later s u := by
  obtain ⟨k, hk⟩ := h.uuids
  obtain ⟨k', hk'⟩ := h'.uuids
  refine ⟨le_trans h.clock_le h'.clock_le, k' + k, fun n => ?_⟩
  calc u.uuids n = t.uuids (n + k') := hk' n
    _ = s.uuids (n + k' + k) := hk _
    _ = s.uuids (n + (k' + k)) := by rw [Nat.add_assoc]

namespace Later

variable {s t : Supply}

theorem dropTick (h : Later s t) : Later s t.dropTick :=
  h.trans ⟨Int.le.intro (t.ticks 0) rfl, 0, fun _ => rfl⟩

theorem dropUuid (h : Later s t) : Later s t.dropUuid := h.trans ⟨le_refl _, 1, fun _ => rfl⟩

theorem dropText (h : Later s t) : Later s t.dropText := h.trans ⟨le_refl _, 0, fun _ => rfl⟩

theorem dropBytes (h : Later s t) (count : Nat) : Later s (t.dropBytes count) :=
  h.trans ⟨le_refl _, 0, fun _ => rfl⟩

end Later

end Supply

structure Connection where
  db : AuthDb
  supply : Supply

abbrev AuthTx := Transaction Connection AuthError

def readDb : AuthTx AuthDb := fun c => .ok (c.db, c)

/-- `new Date()` -/
def newDate : AuthTx Instant := fun c =>
  .ok (c.supply.dropTick.clock, { c with supply := c.supply.dropTick })

def genUuid : AuthTx Uuid := fun c =>
  .ok (c.supply.uuids 0, { c with supply := c.supply.dropUuid })

def randomBytes (count : Nat) : AuthTx (List UInt8) := fun c =>
  .ok ((List.range count).map c.supply.bytes, { c with supply := c.supply.dropBytes count })

/-- A random token in `base64url`, a salt or a nonce. -/
def randomText : AuthTx String := fun c =>
  .ok (c.supply.texts 0, { c with supply := c.supply.dropText })

section Draws

variable (c c' : Connection)

@[simp] theorem commits_readDb (db : AuthDb) : Commits readDb c db c' ↔ c.db = db ∧ c = c' := by
  unfold Commits
  constructor
  · intro h
    cases h
    exact ⟨rfl, rfl⟩
  · rintro ⟨rfl, rfl⟩
    rfl

@[simp] theorem raises_readDb (e : AuthError) : ¬Raises readDb c e := nofun

@[simp] theorem commits_newDate (t : Instant) :
    Commits newDate c t c' ↔
      c.supply.dropTick.clock = t ∧ ⟨c.db, c.supply.dropTick⟩ = c' := by
  unfold Commits
  constructor
  · intro h
    cases h
    exact ⟨rfl, rfl⟩
  · rintro ⟨rfl, rfl⟩
    rfl

@[simp] theorem raises_newDate (e : AuthError) : ¬Raises newDate c e := nofun

@[simp] theorem commits_genUuid (id : Uuid) :
    Commits genUuid c id c' ↔ c.supply.uuids 0 = id ∧ ⟨c.db, c.supply.dropUuid⟩ = c' := by
  unfold Commits
  constructor
  · intro h
    cases h
    exact ⟨rfl, rfl⟩
  · rintro ⟨rfl, rfl⟩
    rfl

@[simp] theorem raises_genUuid (e : AuthError) : ¬Raises genUuid c e := nofun

@[simp] theorem commits_randomBytes (count : Nat) (bytes : List UInt8) :
    Commits (randomBytes count) c bytes c' ↔
      (List.range count).map c.supply.bytes = bytes ∧
        ⟨c.db, c.supply.dropBytes count⟩ = c' := by
  unfold Commits
  constructor
  · intro h
    cases h
    exact ⟨rfl, rfl⟩
  · rintro ⟨rfl, rfl⟩
    rfl

@[simp] theorem raises_randomBytes (count : Nat) (e : AuthError) :
    ¬Raises (randomBytes count) c e := nofun

@[simp] theorem commits_randomText (text : String) :
    Commits randomText c text c' ↔ c.supply.texts 0 = text ∧ ⟨c.db, c.supply.dropText⟩ = c' := by
  unfold Commits
  constructor
  · intro h
    cases h
    exact ⟨rfl, rfl⟩
  · rintro ⟨rfl, rfl⟩
    rfl

@[simp] theorem raises_randomText (e : AuthError) : ¬Raises randomText c e := nofun

end Draws

/-! ## Operations on one table -/

/-- A table of the database: where it is read and written back. -/
structure TableRef (ρ : Type) {κ : Type} [Keyed ρ κ] where
  name : String
  get : AuthDb → Table ρ
  put : AuthDb → Table ρ → AuthDb

def users : TableRef User := ⟨"users", AuthDb.users, fun db t => { db with users := t }⟩

def refreshTokens : TableRef RefreshToken :=
  ⟨"refresh_tokens", AuthDb.refreshTokens, fun db t => { db with refreshTokens := t }⟩

def userTokens : TableRef UserToken :=
  ⟨"user_tokens", AuthDb.userTokens, fun db t => { db with userTokens := t }⟩

def memberships : TableRef Membership :=
  ⟨"memberships", AuthDb.memberships, fun db t => { db with memberships := t }⟩

def invites : TableRef Invite :=
  ⟨"invites", AuthDb.invites, fun db t => { db with invites := t }⟩

def pendingInviteAcceptances : TableRef PendingInviteAcceptance :=
  ⟨"pending_invite_acceptances", AuthDb.pendingInviteAcceptances,
    fun db t => { db with pendingInviteAcceptances := t }⟩

def inviteAcceptanceConsents : TableRef InviteAcceptanceConsent :=
  ⟨"invite_acceptance_consents", AuthDb.inviteAcceptanceConsents,
    fun db t => { db with inviteAcceptanceConsents := t }⟩

section Tables

variable (db : AuthDb)

@[simp] theorem users_get : users.get db = db.users := rfl
@[simp] theorem users_put (t : Table User) : users.put db t = { db with users := t } := rfl

@[simp] theorem refreshTokens_get : refreshTokens.get db = db.refreshTokens := rfl
@[simp] theorem refreshTokens_put (t : Table RefreshToken) :
    refreshTokens.put db t = { db with refreshTokens := t } := rfl

@[simp] theorem userTokens_get : userTokens.get db = db.userTokens := rfl
@[simp] theorem userTokens_put (t : Table UserToken) :
    userTokens.put db t = { db with userTokens := t } := rfl

@[simp] theorem memberships_get : memberships.get db = db.memberships := rfl
@[simp] theorem memberships_put (t : Table Membership) :
    memberships.put db t = { db with memberships := t } := rfl

@[simp] theorem invites_get : invites.get db = db.invites := rfl
@[simp] theorem invites_put (t : Table Invite) :
    invites.put db t = { db with invites := t } := rfl

@[simp] theorem pendingInviteAcceptances_get :
    pendingInviteAcceptances.get db = db.pendingInviteAcceptances := rfl
@[simp] theorem pendingInviteAcceptances_put (t : Table PendingInviteAcceptance) :
    pendingInviteAcceptances.put db t = { db with pendingInviteAcceptances := t } := rfl

@[simp] theorem inviteAcceptanceConsents_get :
    inviteAcceptanceConsents.get db = db.inviteAcceptanceConsents := rfl
@[simp] theorem inviteAcceptanceConsents_put (t : Table InviteAcceptanceConsent) :
    inviteAcceptanceConsents.put db t = { db with inviteAcceptanceConsents := t } := rfl

end Tables

section Statements

variable {ρ κ : Type} [Keyed ρ κ] [DecidableEq κ]

/-- `create` of a row whose key the caller has drawn. -/
def insert (t : TableRef ρ) (r : ρ) : AuthTx PUnit := fun c =>
  match (t.get c.db).insert? r with
  | some rows => .ok (⟨⟩, { c with db := t.put c.db rows })
  | none => .error (.uniqueViolation t.name)

/-- `create` under a key from `gen_random_uuid()`. -/
def create (t : TableRef ρ) (mk : Uuid → ρ) : AuthTx ρ := do
  let id ← genUuid
  insert t (mk id)
  pure (mk id)

/-- `INSERT … ON CONFLICT DO NOTHING`, with whether the row was inserted. -/
def insertUnlessConflict (t : TableRef ρ) (r : ρ) : AuthTx Bool := fun c =>
  match (t.get c.db).insert? r with
  | some rows => .ok (true, { c with db := t.put c.db rows })
  | none => .ok (false, c)

/-- `update` of the row under a key; P2025 where there is none. -/
def update (t : TableRef ρ) (k : κ) (f : ρ → ρ) (hf : KeepsIndexes f) : AuthTx PUnit := fun c =>
  match (t.get c.db).find? k with
  | some _ => .ok (⟨⟩, { c with db := t.put c.db ((t.get c.db).updateKey k f hf) })
  | none => .error .recordNotFound

/-- `updateMany`, with the number of updated rows. -/
def updateMany (t : TableRef ρ) (p : ρ → Bool) (f : ρ → ρ) (hf : KeepsIndexes f) : AuthTx Nat :=
  fun c => .ok (((t.get c.db).rows.filter p).length,
    { c with db := t.put c.db ((t.get c.db).updateWhere p f hf) })

/-- `findUniqueOrThrow` by key. -/
def findUniqueOrThrow (t : TableRef ρ) (k : κ) : AuthTx ρ := do
  let db ← readDb
  orThrow ((t.get db).find? k) .recordNotFound

variable (t : TableRef ρ) (c c' : Connection)

@[simp] theorem commits_insert (r : ρ) (u : PUnit) :
    Commits (insert t r) c u c' ↔
      ∃ rows, (t.get c.db).insert? r = some rows ∧ ⟨t.put c.db rows, c.supply⟩ = c' := by
  unfold Commits
  change insert t r c = _ ↔ _
  unfold insert
  cases (t.get c.db).insert? r with
  | none => exact ⟨nofun, fun ⟨_, h, _⟩ => nomatch h⟩
  | some rows =>
      constructor
      · intro h
        cases h
        exact ⟨rows, rfl, rfl⟩
      · rintro ⟨_, h, rfl⟩
        cases h
        rfl

@[simp] theorem raises_insert (r : ρ) (e : AuthError) :
    Raises (insert t r) c e ↔ (t.get c.db).insert? r = none ∧ .uniqueViolation t.name = e := by
  unfold Raises
  change insert t r c = _ ↔ _
  unfold insert
  cases (t.get c.db).insert? r with
  | none =>
      constructor
      · intro h
        cases h
        exact ⟨rfl, rfl⟩
      · rintro ⟨-, rfl⟩
        rfl
  | some rows => exact ⟨nofun, fun ⟨h, _⟩ => nomatch h⟩

theorem commits_create (mk : Uuid → ρ) (r : ρ) :
    Commits (create t mk) c r c' ↔
      ∃ rows, (t.get c.db).insert? (mk (c.supply.uuids 0)) = some rows ∧
        mk (c.supply.uuids 0) = r ∧ ⟨t.put c.db rows, c.supply.dropUuid⟩ = c' := by
  unfold create
  simp only [commits_bind, commits_genUuid, commits_insert, commits_pure]
  constructor
  · rintro ⟨_, _, ⟨rfl, rfl⟩, _, _, ⟨rows, hrows, rfl⟩, rfl, rfl⟩
    exact ⟨rows, hrows, rfl, rfl⟩
  · rintro ⟨rows, hrows, rfl, rfl⟩
    exact ⟨_, _, ⟨rfl, rfl⟩, ⟨⟩, _, ⟨rows, hrows, rfl⟩, rfl, rfl⟩

@[simp] theorem commits_insertUnlessConflict (r : ρ) (inserted : Bool) :
    Commits (insertUnlessConflict t r) c inserted c' ↔
      (∃ rows, (t.get c.db).insert? r = some rows ∧ true = inserted ∧
        ⟨t.put c.db rows, c.supply⟩ = c') ∨
      ((t.get c.db).insert? r = none ∧ false = inserted ∧ c = c') := by
  unfold Commits
  change insertUnlessConflict t r c = _ ↔ _
  unfold insertUnlessConflict
  cases (t.get c.db).insert? r with
  | none =>
      constructor
      · intro h
        cases h
        exact .inr ⟨rfl, rfl, rfl⟩
      · rintro (⟨_, h, -⟩ | ⟨-, rfl, rfl⟩)
        · cases h
        · rfl
  | some rows =>
      constructor
      · intro h
        cases h
        exact .inl ⟨rows, rfl, rfl, rfl⟩
      · rintro (⟨_, h, rfl, rfl⟩ | ⟨h, -⟩)
        · cases h
          rfl
        · cases h

@[simp] theorem commits_update (k : κ) (f : ρ → ρ) (hf : KeepsIndexes f) (u : PUnit) :
    Commits (update t k f hf) c u c' ↔
      (∃ r, (t.get c.db).find? k = some r) ∧
        ⟨t.put c.db ((t.get c.db).updateKey k f hf), c.supply⟩ = c' := by
  unfold Commits
  change update t k f hf c = _ ↔ _
  unfold update
  cases (t.get c.db).find? k with
  | none => exact ⟨nofun, fun ⟨⟨_, h⟩, _⟩ => nomatch h⟩
  | some r =>
      constructor
      · intro h
        cases h
        exact ⟨⟨r, rfl⟩, rfl⟩
      · rintro ⟨-, rfl⟩
        rfl

omit [DecidableEq κ] in
@[simp] theorem commits_updateMany (p : ρ → Bool) (f : ρ → ρ) (hf : KeepsIndexes f) (n : Nat) :
    Commits (updateMany t p f hf) c n c' ↔
      ((t.get c.db).rows.filter p).length = n ∧
        ⟨t.put c.db ((t.get c.db).updateWhere p f hf), c.supply⟩ = c' := by
  unfold Commits
  constructor
  · intro h
    cases h
    exact ⟨rfl, rfl⟩
  · rintro ⟨rfl, rfl⟩
    rfl

omit [DecidableEq κ] in
@[simp] theorem raises_updateMany (p : ρ → Bool) (f : ρ → ρ) (hf : KeepsIndexes f)
    (e : AuthError) : ¬Raises (updateMany t p f hf) c e := nofun

@[simp] theorem commits_findUniqueOrThrow (k : κ) (r : ρ) :
    Commits (findUniqueOrThrow t k) c r c' ↔ (t.get c.db).find? k = some r ∧ c = c' := by
  unfold findUniqueOrThrow
  simp only [commits_bind, commits_readDb, commits_orThrow]
  constructor
  · rintro ⟨_, _, ⟨rfl, rfl⟩, h, rfl⟩
    exact ⟨h, rfl⟩
  · rintro ⟨h, rfl⟩
    exact ⟨_, _, ⟨rfl, rfl⟩, h, rfl⟩

end Statements

/-! ## An environment to run the definitions in -/

namespace Demo

/-- Every text is its own hash, and a password the hash of itself. -/
def env : AuthEnv where
  sha256 := id
  hash _ password := password
  verify passwordHash password := passwordHash == password
  hmacSha1 key message := key ++ message
  toLowerCase := id
  otpauthUrl secret email := email ++ secret
  ipFingerprint := id
  encryptSecret _ raw := raw

def directory (tenants : Table Tenant) (plans : Table CommissionPlan) : Directory :=
  ⟨tenants, .empty, plans, .empty⟩

/-- A database with nothing but a directory and users. -/
def database (directory : Directory) (users : Table User) : AuthDb where
  directory
  users
  refreshTokens := .empty
  userTokens := .empty
  memberships := .empty
  invites := .empty
  pendingInviteAcceptances := .empty
  inviteAcceptanceConsents := .empty
  notifications := []
  auditLogs := []

def tenant : Tenant := ⟨1, "t", "T", false, .active⟩

def user (id : Uuid) (email password : String) : User where
  id
  email
  passwordHash := password
  fullName := "N"
  locale := "en"
  emailVerifiedAt := none
  isPlatformAdmin := false
  totpSecret := none
  totpEnabledAt := none
  mfaRecoveryCodes := none
  lastMembershipId := none
  authGeneration := 1

/-- Draws that start from an identifier, with every random text the same. -/
def supply (clock : Instant) (first : Nat) (text : String) : Supply where
  clock
  ticks _ := 1
  uuids n := Fin.ofNat _ (first + n)
  texts _ := text
  bytes _ := 0

/-- A table of one row. -/
def only {ρ κ : Type} [Keyed ρ κ] (r : ρ) : Table ρ where
  rows := [r]
  keys_nodup := List.nodup_singleton _
  no_clash := List.pairwise_singleton _ _

end Demo

end Refearn.Auth
