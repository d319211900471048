import Refearn.Reports.Cohorts
import Refearn.Wallet.Recruits
import Refearn.Engine.Run
/-!
# Months in SQL and in the program

The program formats an instant on the clock of the tenant's zone. SQL has a timestamp
without zone, which holds the reading of the UTC clock: `AT TIME ZONE` takes that
reading as one of the tenant's clock and gives the instant of it, and `to_char` prints
it on the UTC clock of the session. So the one adds the offset of the zone and the
other takes it away.
-/

namespace Refearn.Reports

open Support Engine Wallet

/-! ## The two expressions -/

/-- `Intl.DateTimeFormat('en-CA', { timeZone, year: 'numeric', month: '2-digit' })`. -/
def intlMonth (zone : TimeZone) (t : Instant) : String :=
  monthText 1 (monthAt (zone.localClock t))

/-- `to_char(ts AT TIME ZONE tz, 'YYYY-MM')` of a timestamp without zone. -/
def sqlMonth (zone : TimeZone) (t : Instant) : String :=
  monthText 4 (monthAt (zone.instantOf t))

/-- The environment with the calendar filled in. -/
def inZones (base : Env) (zones : String → TimeZone) : Env :=
  { base with
    monthKey := fun t timezone => intlMonth (zones timezone) t
    toCharMonth := fun t timezone => sqlMonth (zones timezone) t }

/-- No month begins between an instant moved back by the offset of the zone and the
instant moved forward by it, and its year has four digits. -/
def MonthKept (zone : TimeZone) (t : Instant) : Prop :=
  (∀ k, monthBegin k ≤ zone.instantOf t ↔ monthBegin k ≤ zone.localClock t) ∧
    1000 ≤ eraYear (monthAt (zone.localClock t))

/-- The two readings are less than two days apart. -/
theorem shifts_bounds (zone : TimeZone) (t : Instant) :
    zone.localClock t ≤ zone.instantOf t + 2 * DAY_MILLIS ∧
      zone.instantOf t ≤ zone.localClock t + 2 * DAY_MILLIS := by
  obtain ⟨u, hu⟩ := zone.instantOf_eq t
  obtain ⟨hlo, hhi⟩ := zone.offset_bounds t
  obtain ⟨hlo', hhi'⟩ := zone.offset_bounds u
  rw [hu]
  unfold TimeZone.localClock
  constructor
  · linarith
  · linarith

theorem sqlMonth_eq_iff (zone : TimeZone) (t : Instant) :
    sqlMonth zone t = intlMonth zone t ↔ MonthKept zone t := by
  obtain ⟨hforward, hback⟩ := shifts_bounds zone t
  have htexts := monthText_eq_iff (monthAt_le_succ hforward) (monthAt_le_succ hback)
  unfold sqlMonth intlMonth MonthKept
  rw [htexts, monthAt_eq_iff]

/-- In a zone whose clocks never change SQL takes the offset away that the program adds. -/
theorem sqlMonth_fixed (offset : Int) (h : -DAY_MILLIS < offset ∧ offset < DAY_MILLIS)
    (t : Instant) :
    sqlMonth (.fixed offset h) t = monthText 4 (monthAt (t - offset)) ∧
      intlMonth (.fixed offset h) t = monthText 1 (monthAt (t + offset)) :=
  ⟨rfl, rfl⟩

/-! ## Where the program uses both -/

theorem dueRow_month {env : Env} {db : Db} {now : Instant} {r : LedgerEntry} {row : DueRow}
    {sale : Sale} {tenant : Tenant} (hrow : dueRow env db now r = some row)
    (hsale : r.saleId.bind db.sales.find? = some sale)
    (htenant : db.registry.tenants.find? r.tenantId = some tenant)
    (hlegacy : sale.summaryMonth = none) :
    row.month = env.toCharMonth sale.saleDate tenant.timezone := by
  unfold dueRow at hrow
  split_ifs at hrow
  rw [hsale, htenant] at hrow
  cases hrow
  rw [hlegacy]
  rfl

/-- The month of a cohort is the month of the growth trend, and the month a maturing row
of an old sale falls back to is the one the engine would have frozen, for exactly the
instants that lie in one month both ways. -/
theorem months_agree_iff (base : Env) (zones : String → TimeZone) :
    (∀ t timezone, (inZones base zones).toCharMonth t timezone =
      (inZones base zones).monthKey t timezone ↔ MonthKept (zones timezone) t) ∧
    (∀ tenant m, cohortMonth (inZones base zones) tenant m =
      joinMonth (inZones base zones) tenant m ↔
        MonthKept (zones tenant.timezone) m.joinedAt) ∧
    ∀ db now r row sale tenant, dueRow (inZones base zones) db now r = some row →
      r.saleId.bind db.sales.find? = some sale →
        db.registry.tenants.find? r.tenantId = some tenant → sale.summaryMonth = none →
          (row.month = saleMonth (inZones base zones) tenant sale ↔
            MonthKept (zones tenant.timezone) sale.saleDate) := by
  refine ⟨fun t timezone => sqlMonth_eq_iff (zones timezone) t, fun tenant m =>
    sqlMonth_eq_iff (zones tenant.timezone) m.joinedAt, ?_⟩
  intro db now r row sale tenant hrow hsale htenant hlegacy
  rw [dueRow_month hrow hsale htenant hlegacy]
  unfold saleMonth
  rw [hlegacy]
  exact sqlMonth_eq_iff (zones tenant.timezone) sale.saleDate

/-- Five hours west of Greenwich all year. -/
def easternStandard : TimeZone := .fixed (-18000000) (by decide)

namespace Demo

/-- A sale of that evening from the time before months were frozen. -/
def legacySale : Sale :=
  { Sales.draftSale ⟨1, none, 2, 1000, "USD", 1769911200000, none, none⟩ 100 with
    status := .approved }

/-- Its commission, due. -/
def legacyEntry : LedgerEntry :=
  ⟨200, 1, some 100, 2, 0, 600, 60, .commission, .pending, none, some 0, none, none, 0⟩

def legacyDb : Db :=
  { Engine.Demo.empty with
    sales := ⟨[legacySale], by decide, by decide⟩
    ledger := ⟨[legacyEntry], by decide, by decide⟩ }

def legacyDue : DueRow := ⟨200, 1, 2, 0, 60, "2026-02"⟩

end Demo

/-- The row falls back to February, where the engine would have frozen January. -/
theorem months_agree_iff_legacy :
    Demo.legacyDue.month =
      saleMonth (inZones Engine.Demo.env fun _ => easternStandard) Engine.Demo.tenant
        Demo.legacySale ↔ MonthKept easternStandard Demo.legacySale.saleDate :=
  (months_agree_iff Engine.Demo.env fun _ => easternStandard).2.2 Demo.legacyDb 0
    Demo.legacyEntry Demo.legacyDue Demo.legacySale Engine.Demo.tenant (by decide)
      (by decide) (by decide) rfl

/-- The evening of the last of January 2026 there is January for the program and February
in SQL. -/
theorem evening_in_two_months :
    intlMonth easternStandard 1769911200000 = "2026-01" ∧
      sqlMonth easternStandard 1769911200000 = "2026-02" ∧
        sqlMonth easternStandard 1769911200000 ≠ intlMonth easternStandard 1769911200000 := by
  decide

end Refearn.Reports
