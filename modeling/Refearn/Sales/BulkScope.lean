import Refearn.Engine.Commissions
import Refearn.Engine.Reservation
import Refearn.Support.JsText
import Refearn.Support.JsonText
/-!
# Scopes and tokens of a bulk action

`bulk-scope.ts`: the canonical form of what a bulk action ranges over, its
fingerprint, and the preview token that binds a reviewed selection to an actor.
-/

namespace Refearn.Sales

open Support Engine

structure ActorContext where
  userId : Uuid
  tenantId : Uuid
  deriving DecidableEq

inductive BulkAction | approve | void
  deriving DecidableEq

def BulkAction.text : BulkAction → String
  | .approve => "approve"
  | .void => "void"

/-- The filters of a list request; its page controls narrow no bulk scope. -/
structure BulkFilters where
  status : Option SaleStatus
  summaryMonth : Option String
  q : Option String
  fromDate : Option Instant
  toDate : Option Instant
  minCents : Option Int
  maxCents : Option Int

inductive BulkScope
  | selected (ids : List Uuid)
  | allResults (filters : BulkFilters)

/-- Dates are ISO texts here, and the search term is trimmed and lower case. -/
structure NormalizedBulkFilters where
  status : Option SaleStatus
  summaryMonth : Option String
  q : Option String
  fromDate : Option String
  toDate : Option String
  minCents : Option Int
  maxCents : Option Int

inductive NormalizedBulkScope
  | selected (ids : List Uuid)
  | allResults (filters : NormalizedBulkFilters)

structure BulkPreviewTokenPayload where
  actorUserId : Uuid
  tenantId : Uuid
  action : BulkAction
  scopeFingerprint : String
  eligibleCount : Nat
  excludedCount : Nat
  totals : List (String × Int)
  selectionFingerprint : String
  expiresAt : Instant

/-- What the bulk path takes from outside besides: ISO texts of times, the
case-insensitive `contains` of the database, and the payload of a preview token whose
signature is the server's own. -/
structure BulkEnv extends Env where
  toISOString : Instant → String
  dateOf : String → Instant
  containsInsensitive : String → String → Bool
  signedPayload : String → Option BulkPreviewTokenPayload

/-! ## Canonical scopes -/

def normalizeFilters (env : BulkEnv) (filters : BulkFilters) : NormalizedBulkFilters :=
  let query := filters.q.map fun q => env.toLowerCase (trim q)
  { status := filters.status
    summaryMonth := filters.summaryMonth
    q := query.filter (· ≠ "")
    fromDate := filters.fromDate.map env.toISOString
    toDate := filters.toDate.map env.toISOString
    minCents := filters.minCents
    maxCents := filters.maxCents }

def normalizeBulkScope (env : BulkEnv) : BulkScope → NormalizedBulkScope
  | .selected ids => .selected (sortedUuids ids)
  | .allResults filters => .allResults (normalizeFilters env filters)

def NormalizedBulkFilters.members (filters : NormalizedBulkFilters) :
    List (String × Option Json) :=
  [("status", filters.status.map fun status => .str (SaleStatus.text status)),
    ("summaryMonth", filters.summaryMonth.map .str), ("q", filters.q.map .str),
    ("from", filters.fromDate.map .str), ("to", filters.toDate.map .str),
    ("minCents", filters.minCents.map .num), ("maxCents", filters.maxCents.map .num)]

def NormalizedBulkFilters.json (filters : NormalizedBulkFilters) : Json :=
  .obj (Json.defined filters.members)

def idsJson (ids : List Uuid) : Json := .arr (ids.map fun id => .str id.text)

def NormalizedBulkScope.json : NormalizedBulkScope → Json
  | .selected ids => .obj [("mode", .str "selected"), ("ids", idsJson ids)]
  | .allResults filters => .obj [("mode", .str "all-results"), ("filters", filters.json)]

def bulkScopeFingerprint (env : BulkEnv) (scope : NormalizedBulkScope) : String :=
  env.sha256 (Json.stringify scope.json)

def bulkSelectionFingerprint (env : BulkEnv) (value : Json) : String :=
  env.sha256 (Json.stringify value)

/-! ## Tokens -/

/-- Actor, tenant and expiry of a signed payload; without a time the expiry is not
checked. -/
def verifyBulkPreviewToken (env : BulkEnv) (token : String) (actor : ActorContext)
    (now : Option Instant) : Except EngineError BulkPreviewTokenPayload :=
  match env.signedPayload token with
  | none => .error (.badRequest "invalid sales bulk preview token")
  | some payload =>
      if payload.actorUserId ≠ actor.userId ∨ payload.tenantId ≠ actor.tenantId ∨
          now.any (payload.expiresAt ≤ ·) then
        .error (.badRequest "invalid sales bulk preview token")
      else .ok payload

theorem verifyBulkPreviewToken_eq_ok {env : BulkEnv} {token : String} {actor : ActorContext}
    {now : Option Instant} {payload : BulkPreviewTokenPayload} :
    verifyBulkPreviewToken env token actor now = .ok payload ↔
      env.signedPayload token = some payload ∧ payload.actorUserId = actor.userId ∧
        payload.tenantId = actor.tenantId ∧ ∀ time ∈ now, time < payload.expiresAt := by
  unfold verifyBulkPreviewToken
  cases hpayload : env.signedPayload token with
  | none => simp
  | some p =>
      dsimp only
      split_ifs with hrefused
      · refine ⟨nofun, fun ⟨hp, hactor, htenant, hexpiry⟩ => ?_⟩
        cases hp
        rcases hrefused with h | h | h
        · exact absurd hactor h
        · exact absurd htenant h
        · cases now with
          | none => cases h
          | some time =>
              have hle : payload.expiresAt ≤ time := by simpa using h
              exact absurd (hexpiry time rfl) (not_lt.mpr hle)
      · push Not at hrefused
        obtain ⟨hactor, htenant, hexpiry⟩ := hrefused
        constructor
        · intro h
          cases h
          refine ⟨rfl, hactor, htenant, fun time htime => ?_⟩
          cases htime
          simpa using hexpiry
        · rintro ⟨hp, -⟩
          cases hp
          rfl

/-! ## Scopes are told apart by their text -/

theorem uuidJson_injective : Function.Injective fun id : Uuid => Json.str id.text :=
  fun _ _ h => Uuid.text_inj (Json.str.inj h)

theorem saleStatusText_injective : Function.Injective SaleStatus.text := by
  intro a b h
  cases a <;> cases b <;> first | rfl | (revert h; decide)

theorem NormalizedBulkFilters.json_injective : Function.Injective NormalizedBulkFilters.json := by
  intro a b h
  have hnodup : (a.members.map Prod.fst).Nodup := by
    change ["status", "summaryMonth", "q", "from", "to", "minCents", "maxCents"].Nodup
    decide
  have hmembers : a.members = b.members := Json.defined_inj hnodup rfl (Json.obj.inj h)
  have hstatus : Function.Injective fun status => Json.str (SaleStatus.text status) :=
    fun _ _ hs => saleStatusText_injective (Json.str.inj hs)
  have hstr : Function.Injective Json.str := fun _ _ => Json.str.inj
  have hnum : Function.Injective Json.num := fun _ _ => Json.num.inj
  simp only [NormalizedBulkFilters.members, List.cons.injEq, Prod.mk.injEq, true_and,
    and_true, (Option.map_injective hstatus).eq_iff, (Option.map_injective hstr).eq_iff,
    (Option.map_injective hnum).eq_iff] at hmembers
  obtain ⟨h1, h2, h3, h4, h5, h6, h7⟩ := hmembers
  cases a
  cases b
  simp only at h1 h2 h3 h4 h5 h6 h7
  subst h1 h2 h3 h4 h5 h6 h7
  rfl

theorem idsJson_injective : Function.Injective idsJson := fun _ _ h =>
  List.map_injective_iff.mpr uuidJson_injective (Json.arr.inj h)

theorem NormalizedBulkScope.json_injective : Function.Injective NormalizedBulkScope.json := by
  intro a b h
  cases a with
  | selected ids =>
      cases b with
      | selected ids' =>
          have hmembers := Json.obj.inj h
          have hids : idsJson ids = idsJson ids' := by simpa using hmembers
          rw [idsJson_injective hids]
      | allResults filters => simp [NormalizedBulkScope.json] at h
  | allResults filters =>
      cases b with
      | selected ids => simp [NormalizedBulkScope.json] at h
      | allResults filters' =>
          have hmembers := Json.obj.inj h
          have hfilters : filters.json = filters'.json := by simpa using hmembers
          rw [NormalizedBulkFilters.json_injective hfilters]

end Refearn.Sales
