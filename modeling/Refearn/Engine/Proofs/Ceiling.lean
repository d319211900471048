import Refearn.Engine.Proofs.Commissions
import Refearn.Engine.Run
/-!
# The ceiling of one sale

Every share is floored on its own, so the rows of one sale never add up to more than
the share at the summed rates. The check at the end of the distribution never fails.
-/

namespace Refearn.Engine

open Support Support.Transaction
open Shared (CommissionLine PlanLevelRate BPS_DENOMINATOR byLevel lineAt lineAt_eq_some
  bpsAmount_eq_ok computeCommissionLines computeCommissionLines_eq_ok totalDistributed)

/-- What a plan is checked for before it is finalized. -/
structure ValidPlan (plan : CommissionPlan) : Prop where
  gapless : (plan.levels.map CommissionPlanLevel.level).Perm (List.range plan.depth)
  rates : ∀ l ∈ plan.levels, 0 ≤ l.rateBps ∧ l.rateBps ≤ BPS_DENOMINATOR
  pool : (plan.levels.map CommissionPlanLevel.rateBps).sum ≤ plan.poolRateBps
  fastStart : 0 ≤ plan.fastStartBps ∧ plan.fastStartBps ≤ BPS_DENOMINATOR
  matching : 0 ≤ plan.matchingBps ∧ plan.matchingBps ≤ BPS_DENOMINATOR

theorem denominator_pos : 0 < BPS_DENOMINATOR := by decide

theorem ValidPlan.pool_nonneg {plan : CommissionPlan} (h : ValidPlan plan) :
    0 ≤ plan.poolRateBps := by
  refine le_trans (List.sum_nonneg fun rate hrate => ?_) h.pool
  obtain ⟨l, hl, rfl⟩ := List.mem_map.mp hrate
  exact (h.rates l hl).1

/-! ## The parts -/

/-- The lines are shares at the rates of some of the levels. -/
theorem totalDistributed_filterMap_le {amountCents : Int} {chain : List (Option Uuid)}
    (hamount : 0 ≤ amountCents) {levels : List PlanLevelRate}
    (hrates : ∀ l ∈ levels, 0 ≤ l.rateBps) :
    totalDistributed (levels.filterMap (lineAt amountCents chain)) ≤
      floorShare BPS_DENOMINATOR amountCents (levels.map PlanLevelRate.rateBps).sum := by
  suffices hshares : totalDistributed (levels.filterMap (lineAt amountCents chain)) ≤
      (levels.map fun l => floorShare BPS_DENOMINATOR amountCents l.rateBps).sum by
    refine hshares.trans ?_
    have hsum := sum_floorShare_le (a := amountCents) denominator_pos
      (levels.map PlanLevelRate.rateBps)
    rwa [List.map_map] at hsum
  induction levels with
  | nil => simp [totalDistributed]
  | cons l rest ih =>
      have hrest := ih fun l' hl' => hrates l' (List.mem_cons_of_mem _ hl')
      have hshare : 0 ≤ floorShare BPS_DENOMINATOR amountCents l.rateBps :=
        floorShare_nonneg denominator_pos hamount (hrates l List.mem_cons_self)
      rw [List.filterMap_cons, List.map_cons, List.sum_cons]
      cases hline : lineAt amountCents chain l with
      | none =>
          dsimp only
          omega
      | some line =>
          obtain ⟨-, -, -, heq, -⟩ := lineAt_eq_some.mp hline
          have hcons : totalDistributed (line :: rest.filterMap (lineAt amountCents chain)) =
              line.amountCents + totalDistributed (rest.filterMap (lineAt amountCents chain)) := by
            simp [totalDistributed]
          dsimp only
          rw [hcons, heq]
          omega

theorem mem_planRates {plan : CommissionPlan} {l : PlanLevelRate} (h : l ∈ planRates plan) :
    ∃ x ∈ plan.levels, l.level = x.level ∧ l.rateBps = x.rateBps := by
  rw [planRates, List.mem_insertionSort] at h
  obtain ⟨x, hx, rfl⟩ := List.mem_map.mp h
  exact ⟨x, hx, rfl, rfl⟩

/-- The rates in level order are the rates of the plan. -/
theorem sum_planRates (plan : CommissionPlan) :
    (((planRates plan).insertionSort byLevel).map PlanLevelRate.rateBps).sum =
      (plan.levels.map CommissionPlanLevel.rateBps).sum := by
  have hperm : ((planRates plan).insertionSort byLevel).Perm
      (plan.levels.map fun l => (⟨l.level, l.rateBps⟩ : PlanLevelRate)) :=
    (List.perm_insertionSort _ _).trans (List.perm_insertionSort _ _)
  rw [(hperm.map PlanLevelRate.rateBps).sum_eq, List.map_map]
  rfl

/-- What the lines of a plan are worth, and where they come from. -/
theorem lines_bounded {plan : CommissionPlan} (hplan : ValidPlan plan) {amountCents : Int}
    (hamount : 0 ≤ amountCents) {chain : List (Option Uuid)} {lines : List CommissionLine}
    (h : computeCommissionLines amountCents (planRates plan) chain = .ok lines) :
    totalDistributed lines ≤ floorShare BPS_DENOMINATOR amountCents plan.poolRateBps ∧
      ∀ line ∈ lines, 0 < line.amountCents ∧ line.amountCents ≤ amountCents ∧
        ∃ l ∈ plan.levels, line.level = l.level ∧ line.rateBpsUsed = l.rateBps := by
  rw [computeCommissionLines_eq_ok h]
  have hof : ∀ l ∈ (planRates plan).insertionSort byLevel,
      ∃ x ∈ plan.levels, l.level = x.level ∧ l.rateBps = x.rateBps :=
    fun l hl => mem_planRates ((List.mem_insertionSort byLevel).mp hl)
  refine ⟨?_, fun line hline => ?_⟩
  · refine (totalDistributed_filterMap_le hamount fun l hl => ?_).trans ?_
    · obtain ⟨x, hx, -, hrate⟩ := hof l hl
      rw [hrate]
      exact (hplan.rates x hx).1
    · rw [sum_planRates]
      exact floorShare_mono denominator_pos hamount hplan.pool
  · obtain ⟨l, hl, hlineAt⟩ := List.mem_filterMap.mp hline
    obtain ⟨x, hx, hlevel, hrate⟩ := hof l hl
    obtain ⟨-, hlevel', hrate', heq, hpos⟩ := lineAt_eq_some.mp hlineAt
    refine ⟨hpos, ?_, x, hx, hlevel'.trans hlevel, hrate'.trans hrate⟩
    rw [heq, hrate]
    exact floorShare_le_self denominator_pos hamount (hplan.rates x hx).2

/-- A bonus is at most its share, and none of it is worth nothing. -/
theorem bonusCredits_bounded (sale : Sale) (sponsorId : Uuid) (level : Nat)
    {amountCents rateBps : Int} (due : Bool) (hamount : 0 ≤ amountCents)
    (hrate : 0 ≤ rateBps) :
    creditTotal (bonusCredits sale sponsorId level amountCents rateBps due) ≤
        floorShare BPS_DENOMINATOR amountCents rateBps ∧
      ∀ c ∈ bonusCredits sale sponsorId level amountCents rateBps due,
        0 < c.amountCents ∧ c.level = level := by
  have hshare := floorShare_nonneg denominator_pos hamount hrate
  unfold bonusCredits
  dsimp only
  split_ifs with hdue hzero
  · exact ⟨hshare, nofun⟩
  · refine ⟨by simp [creditTotal, bonusCredit], fun c hc => ?_⟩
    rw [List.mem_singleton] at hc
    subst hc
    exact ⟨not_le.mp hzero, rfl⟩
  · exact ⟨hshare, nofun⟩

/-- The sponsor's bonuses are at most the fast-start and the matching share. -/
theorem sponsorCredits_bounded {plan : CommissionPlan} (hplan : ValidPlan plan)
    (registry : Registry) {sale : Sale} (hamount : 0 ≤ sale.amountCents) (tenant : Tenant)
    (rawChain : List Membership) {lines : List CommissionLine}
    (hlines : ∀ line ∈ lines, 0 < line.amountCents ∧ line.amountCents ≤ sale.amountCents) :
    creditTotal (sponsorCredits registry sale tenant plan rawChain lines) ≤
        floorShare BPS_DENOMINATOR sale.amountCents plan.fastStartBps +
          floorShare BPS_DENOMINATOR sale.amountCents plan.matchingBps ∧
      ∀ c ∈ sponsorCredits registry sale tenant plan rawChain lines,
        0 < c.amountCents ∧ (c.level = 1000 ∨ c.level = 1001) := by
  have hfast := floorShare_nonneg denominator_pos hamount hplan.fastStart.1
  have hmatching := floorShare_nonneg denominator_pos hamount hplan.matching.1
  unfold sponsorCredits
  cases earningSponsor tenant rawChain with
  | none => exact ⟨Int.add_nonneg hfast hmatching, by simp⟩
  | some sponsorId =>
      obtain ⟨hfastLe, hfastMem⟩ := bonusCredits_bounded sale sponsorId 1000
        (fastStartDue registry plan sale) hamount hplan.fastStart.1
      have hmatch : creditTotal (matchingCredits sale plan sponsorId lines) ≤
            floorShare BPS_DENOMINATOR sale.amountCents plan.matchingBps ∧
          ∀ c ∈ matchingCredits sale plan sponsorId lines, 0 < c.amountCents ∧ c.level = 1001 := by
        cases lines with
        | nil => exact ⟨hmatching, by simp [matchingCredits]⟩
        | cons first rest =>
            obtain ⟨hpos, hle⟩ := hlines first List.mem_cons_self
            obtain ⟨htotal, hmem⟩ := bonusCredits_bounded sale sponsorId 1001
              (decide (0 < plan.matchingBps)) hpos.le hplan.matching.1
            exact ⟨htotal.trans (floorShare_mono_left denominator_pos hplan.matching.1 hle), hmem⟩
      dsimp only
      rw [creditTotal_append]
      refine ⟨Int.add_le_add hfastLe hmatch.1, fun c hc => ?_⟩
      rcases List.mem_append.mp hc with hc | hc
      · exact ⟨(hfastMem c hc).1, .inl (hfastMem c hc).2⟩
      · exact ⟨(hmatch.2 c hc).1, .inr (hmatch.2 c hc).2⟩

/-- The rank override is at most the share at the highest override of the tenant. -/
theorem overrideCredits_bounded (registry : Registry) (rows : List LedgerEntry) {sale : Sale}
    (hamount : 0 ≤ sale.amountCents) :
    creditTotal (overrideCredits registry rows sale) ≤
        floorShare BPS_DENOMINATOR sale.amountCents
          (Ranks.maxOverrideBps registry sale.tenantId) ∧
      ∀ c ∈ overrideCredits registry rows sale, 0 < c.amountCents ∧ c.level = 1002 := by
  have hmax := floorShare_nonneg denominator_pos hamount
    (Ranks.maxOverrideBps_nonneg registry sale.tenantId)
  have hle := Ranks.overrideBpsFor_le_max registry rows sale.tenantId sale.sellerMembershipId
  unfold overrideCredits
  dsimp only
  split_ifs with hrate hpos
  · refine ⟨?_, fun c hc => ?_⟩
    · have hshare := floorShare_mono denominator_pos hamount hle
      simpa [creditTotal, overrideCredit] using hshare
    · rw [List.mem_singleton] at hc
      subst hc
      exact ⟨hpos, rfl⟩
  · exact ⟨hmax, by simp⟩
  · exact ⟨hmax, by simp⟩

/-! ## The sum -/

theorem ceilingBps_nonneg {plan : CommissionPlan} (hplan : ValidPlan plan) (registry : Registry)
    (tenantId : Uuid) : 0 ≤ ceilingBps registry plan tenantId := by
  have hpool := hplan.pool_nonneg
  have hmax := Ranks.maxOverrideBps_nonneg registry tenantId
  have hfast := hplan.fastStart.1
  have hmatch := hplan.matching.1
  unfold ceilingBps
  omega

theorem Inputs.ceilingCents_eq {sale : Sale} {registry : Registry} (i : Inputs sale registry)
    (hplan : ValidPlan i.plan) (hamount : 0 ≤ sale.amountCents) :
    i.ceilingCents = floorShare BPS_DENOMINATOR sale.amountCents
      (ceilingBps registry i.plan sale.tenantId) :=
  Int.tdiv_eq_ediv_of_nonneg
    (Int.mul_nonneg hamount (ceilingBps_nonneg hplan registry sale.tenantId))

/-- All parts of the distribution together stay below the ceiling. -/
theorem creditTotal_le_ceiling {sale : Sale} {registry : Registry}
    (i : Inputs sale registry) (hplan : ValidPlan i.plan) (hamount : 0 ≤ sale.amountCents)
    (rows : List LedgerEntry) :
    creditTotal (i.baseCredits ++ overrideCredits registry rows sale) ≤ i.ceilingCents := by
  obtain ⟨hlines, hmem⟩ := lines_bounded hplan hamount i.lines_eq
  have hsponsor := (sponsorCredits_bounded hplan registry hamount i.tenant i.rawChain
    (fun line hline => ⟨(hmem line hline).1, (hmem line hline).2.1⟩)).1
  have hoverride := (overrideCredits_bounded registry rows hamount).1
  have hbonuses := floorShare_add_le (a := sale.amountCents) (r := i.plan.poolRateBps)
    (s := i.plan.fastStartBps) denominator_pos
  have hmatching := floorShare_add_le (a := sale.amountCents)
    (r := i.plan.poolRateBps + i.plan.fastStartBps) (s := i.plan.matchingBps) denominator_pos
  have hall := floorShare_add_le (a := sale.amountCents)
    (r := i.plan.poolRateBps + i.plan.fastStartBps + i.plan.matchingBps)
    (s := Ranks.maxOverrideBps registry sale.tenantId) denominator_pos
  have hparts : creditTotal (i.baseCredits ++ overrideCredits registry rows sale) =
      totalDistributed i.lines +
        creditTotal (sponsorCredits registry sale i.tenant i.plan i.rawChain i.lines) +
        creditTotal (overrideCredits registry rows sale) := by
    rw [Inputs.baseCredits, creditTotal_append, creditTotal_append, creditTotal_lines]
  rw [hparts, i.ceilingCents_eq hplan hamount]
  unfold ceilingBps
  omega

/-! ## The written rows -/

/-- The rows that one application writes: those of the plan levels, and the bonuses on
top of them. -/
structure WithinCeiling (registry : Registry) (sale : Sale) (plan : CommissionPlan)
    (base bonuses : List LedgerEntry) : Prop where
  baseLevel : ∀ row ∈ base, ∃ l ∈ plan.levels, row.level = l.level ∧ row.rateBpsUsed = l.rateBps
  bonusLevel : ∀ row ∈ bonuses, row.level = 1000 ∨ row.level = 1001 ∨ row.level = 1002
  positive : ∀ row ∈ base ++ bonuses, 0 < row.amountCents
  onePerLevel : ((base ++ bonuses).map LedgerEntry.level).Nodup
  pool : (base.map LedgerEntry.amountCents).sum ≤
    floorShare BPS_DENOMINATOR sale.amountCents plan.poolRateBps
  total : ((base ++ bonuses).map LedgerEntry.amountCents).sum ≤
    floorShare BPS_DENOMINATOR sale.amountCents
      (plan.poolRateBps + plan.fastStartBps + plan.matchingBps +
        Ranks.maxOverrideBps registry sale.tenantId)

/-- Nothing written is within every ceiling. -/
theorem WithinCeiling.nil {plan : CommissionPlan} (hplan : ValidPlan plan)
    (registry : Registry) {sale : Sale} (hamount : 0 ≤ sale.amountCents) :
    WithinCeiling registry sale plan [] [] where
  baseLevel := by simp
  bonusLevel := by simp
  positive := by simp
  onePerLevel := List.nodup_nil
  pool := floorShare_nonneg denominator_pos hamount hplan.pool_nonneg
  total := floorShare_nonneg denominator_pos hamount
    (ceilingBps_nonneg hplan registry sale.tenantId)

theorem drawn_amounts {ctx : CreditContext} {credits : List Credit} {rows : List LedgerEntry}
    (h : Drawn ctx.row credits rows) :
    (rows.map LedgerEntry.amountCents).sum = creditTotal credits := by
  rw [creditTotal, h.map_eq fun _ _ => rfl]

theorem Distributed.withinCeiling {env : Env} {now : Instant} {sale : Sale}
    {registry : Registry} {i : Inputs sale registry} {credits : List Credit} {db db' : Db}
    (h : Distributed env now i credits db db') (hplan : ValidPlan i.plan)
    (hamount : 0 ≤ sale.amountCents) :
    ∃ base bonuses, db'.ledger.rows = db.ledger.rows ++ (base ++ bonuses) ∧
      WithinCeiling registry sale i.plan base bonuses := by
  obtain ⟨hlines, hmem⟩ := lines_bounded hplan hamount i.lines_eq
  obtain ⟨earlier, -, hsplit⟩ := h.split
  obtain ⟨hsponsor, hsponsorMem⟩ := sponsorCredits_bounded hplan registry hamount i.tenant
    i.rawChain (fun line hline => ⟨(hmem line hline).1, (hmem line hline).2.1⟩)
  obtain ⟨hoverride, hoverrideMem⟩ :=
    overrideCredits_bounded registry (db.ledger.rows ++ earlier) hamount
  obtain ⟨news, hdrawn, hrows⟩ := h.ledger
  have hcredits : credits = i.lines.map (lineCredit sale) ++
      (sponsorCredits registry sale i.tenant i.plan i.rawChain i.lines ++
        overrideCredits registry (db.ledger.rows ++ earlier) sale) := by
    rw [hsplit, Inputs.baseCredits, List.append_assoc]
  have hdrawn' := hdrawn
  rw [hcredits] at hdrawn'
  obtain ⟨base, bonuses, rfl, hbase, hbonuses⟩ := hdrawn'.exists_append
  refine ⟨base, bonuses, hrows, ?_⟩
  have hbaseRow : ∀ row ∈ base, 0 < row.amountCents ∧
      ∃ l ∈ i.plan.levels, row.level = l.level ∧ row.rateBpsUsed = l.rateBps := by
    intro row hrow
    obtain ⟨c, hc, id, rfl⟩ := hbase.exists_of_mem hrow
    obtain ⟨line, hline, rfl⟩ := List.mem_map.mp hc
    exact ⟨(hmem line hline).1, (hmem line hline).2.2⟩
  have hbonusRow : ∀ row ∈ bonuses, 0 < row.amountCents ∧
      (row.level = 1000 ∨ row.level = 1001 ∨ row.level = 1002) := by
    intro row hrow
    obtain ⟨c, hc, id, rfl⟩ := hbonuses.exists_of_mem hrow
    rcases List.mem_append.mp hc with hc | hc
    · exact ⟨(hsponsorMem c hc).1, (hsponsorMem c hc).2.imp_right .inl⟩
    · exact ⟨(hoverrideMem c hc).1, .inr (.inr (hoverrideMem c hc).2)⟩
  refine ⟨fun row hrow => (hbaseRow row hrow).2, fun row hrow => (hbonusRow row hrow).2,
    fun row hrow => ?_, ?_, ?_, ?_⟩
  · rcases List.mem_append.mp hrow with hrow | hrow
    · exact (hbaseRow row hrow).1
    · exact (hbonusRow row hrow).1
  · -- the unique index of the ledger holds of the new rows too
    have hnodup : (base ++ bonuses).Nodup := by
      have hall := db'.ledger.rows_nodup
      rw [hrows] at hall
      exact (List.nodup_append.mp hall).2.1
    refine List.Nodup.map_on ?_ hnodup
    intro r hr r' hr' hlevel
    have hin : ∀ x ∈ base ++ bonuses, x ∈ db'.ledger ∧ isCommissionOf sale.id x = true := by
      intro x hx
      obtain ⟨c, -, id, rfl⟩ := hdrawn.exists_of_mem hx
      refine ⟨?_, by simp [isCommissionOf, CreditContext.row, Inputs.context]⟩
      rw [Table.mem_def, hrows]
      exact List.mem_append_right _ hx
    exact commission_unique (hin r hr).1 (hin r' hr').1 (hin r hr).2 (hin r' hr').2 hlevel
  · rw [drawn_amounts hbase, creditTotal_lines]
    exact hlines
  · rw [drawn_amounts hdrawn, hsplit]
    have hle := creditTotal_le_ceiling i hplan hamount (db.ledger.rows ++ earlier)
    rwa [i.ceilingCents_eq hplan hamount] at hle

/-! ## The check never fails -/

/-- The text that the ceiling check raises. -/
def ceilingText (saleId : Uuid) (distributed ceiling bps : Int) : String :=
  s!"komisyon dagitim tavani asildi (sale={saleId.text}): dagitilan {distributed} > " ++
    s!"tavan {ceiling} ({bps} bps)"

/-- An error whose text does not start like the one of the ceiling check. -/
def NotCeiling : EngineError → Prop
  | .conflict text => text.toList.head? ≠ some 'k'
  | _ => True

/-- A text starts with what its first part starts with. -/
theorem head?_append {front : String} {c : Char} (back : String)
    (h : front.toList.head? = some c) : (front ++ back).toList.head? = some c := by
  rw [String.toList_append, List.head?_append, h]
  rfl

theorem not_notCeiling (saleId : Uuid) (distributed ceiling bps : Int) :
    ¬NotCeiling (.conflict (ceilingText saleId distributed ceiling bps)) := by
  intro h
  refine h ?_
  unfold ceilingText
  repeat apply head?_append
  decide

section NotCeiling

theorem readDb_raises : RaisesOnly NotCeiling readDb :=
  fun s e h => absurd h (raises_readDb s e)

theorem writeDb_raises (db : Db) : RaisesOnly NotCeiling (writeDb db) :=
  fun s e h => absurd h (raises_writeDb db s e)

theorem raiseRange_raises {α : Type} (x : Except String α) :
    RaisesOnly NotCeiling (raiseRange x) := by
  refine .fromExcept fun e h => ?_
  cases x with
  | error message =>
      cases h
      trivial
  | ok a => cases h

theorem findTenant_raises (tenantId : Uuid) : RaisesOnly NotCeiling (findTenant tenantId) :=
  .bind readDb_raises fun _ => .orThrow _ trivial

theorem updateSale_raises (saleId : Uuid) (f : Sale → Sale) (hf : KeepsIndexes f) :
    RaisesOnly NotCeiling (updateSale saleId f hf) :=
  .bind readDb_raises fun _ => writeDb_raises _

theorem assertPeriodsOpen_raises (tenantId : Uuid) (periods : List String) :
    RaisesOnly NotCeiling (assertPeriodsOpen tenantId periods) := by
  refine .bind readDb_raises fun db s e h => ?_
  split at h
  · next lock _ =>
      rw [raises_throw] at h
      subst h
      have htext : (s!"period is locked: {lock.period}").toList.head? = some 'p' := by
        repeat apply head?_append
        decide
      change (s!"period is locked: {lock.period}").toList.head? ≠ some 'k'
      rw [htext]
      decide
  · exact absurd h (raises_pure _ s e)

theorem uplineChain_raises (registry : Registry) (depth : Nat) (memberId : Option Uuid)
    (e : EngineError) (h : uplineChain registry depth memberId = .error e) : NotCeiling e := by
  induction depth generalizing memberId with
  | zero => cases h
  | succ depth ih =>
      cases memberId with
      | none => cases h
      | some currentId =>
          unfold uplineChain at h
          split at h
          · cases h
            trivial
          · next m _ =>
              cases hrest : uplineChain registry depth m.sponsorMembershipId with
              | error e' =>
                  rw [hrest] at h
                  cases h
                  exact ih _ hrest
              | ok rest =>
                  rw [hrest] at h
                  cases h

theorem creditCommission_raises (ctx : CreditContext) (c : Credit) :
    RaisesOnly NotCeiling (creditCommission ctx c) := by
  have huuid : RaisesOnly NotCeiling genRandomUuid :=
    fun s e h => absurd h (raises_genRandomUuid s e)
  refine .bind ?_ fun _ => .bind (.bind readDb_raises fun _ => writeDb_raises _) fun _ =>
    .bind readDb_raises fun _ => writeDb_raises _
  exact .bind huuid fun _ => .bind readDb_raises fun _ => .bind (.orThrow _ trivial) fun _ =>
    .bind (writeDb_raises _) fun _ => .pure _

theorem addBonus_raises (ctx : CreditContext) (sponsorId : Uuid) (level : Nat)
    (rateBps amount : Int) :
    RaisesOnly NotCeiling (addBonus ctx sponsorId level rateBps amount) :=
  .ite (.pure _) (.bind (creditCommission_raises ctx _) fun _ => .pure _)

theorem paySponsorBonuses_raises (ctx : CreditContext) (tenant : Tenant)
    (plan : CommissionPlan) (rawChain : List Membership) (lines : List CommissionLine) :
    RaisesOnly NotCeiling (paySponsorBonuses ctx tenant plan rawChain lines) := by
  unfold paySponsorBonuses
  cases earningSponsor tenant rawChain with
  | none => exact .pure _
  | some sponsorId =>
      have hfast : RaisesOnly NotCeiling (payFastStart ctx plan sponsorId) :=
        .bind readDb_raises fun _ => .ite
          (.bind (raiseRange_raises _) fun _ => addBonus_raises _ _ _ _ _) (.pure _)
      have hmatching : RaisesOnly NotCeiling (payMatching ctx plan sponsorId lines) := by
        cases lines with
        | nil => exact .pure _
        | cons first rest =>
            exact .ite (.bind (raiseRange_raises _) fun _ => addBonus_raises _ _ _ _ _) (.pure _)
      exact .bind hfast fun _ => .bind hmatching fun _ => .pure _

theorem payRankOverride_raises (ctx : CreditContext) :
    RaisesOnly NotCeiling (payRankOverride ctx) :=
  .bind readDb_raises fun _ => .ite
    (.bind (raiseRange_raises _) fun _ => .ite
      (.bind (creditCommission_raises ctx _) fun _ => .pure _) (.pure _))
    (.pure _)

end NotCeiling

/-- The distribution of a valid plan fails for other reasons only. -/
theorem distributeSale_raises (env : Env) (now : Instant) {sale : Sale} {s : Session}
    (hamount : 0 ≤ sale.amountCents)
    (hplan : ∀ plan, resolvePlan s.db.registry sale.tenantId sale.saleDate
      sale.commissionPlanId = some plan → ValidPlan plan) {e : EngineError}
    (h : Raises (distributeSale env now sale) s e) : NotCeiling e := by
  unfold distributeSale at h
  -- the statements before the check, one after another
  obtain h | ⟨tenant, _, htenant, h⟩ := (raises_bind ..).mp h
  · exact findTenant_raises _ _ _ h
  obtain ⟨htenantEq, rfl⟩ := (commits_findTenant ..).mp htenant
  obtain h | ⟨db, _, hread, h⟩ := (raises_bind ..).mp h
  · exact readDb_raises _ _ h
  obtain ⟨rfl, rfl⟩ := (commits_readDb ..).mp hread
  obtain h | ⟨plan, _, hresolve, h⟩ := (raises_bind ..).mp h
  · obtain ⟨-, rfl⟩ := (raises_orThrow ..).mp h
    change "no finalized commission plan is effective for this sale".toList.head? ≠ some 'k'
    decide
  obtain ⟨hplanEq, rfl⟩ := (commits_orThrow ..).mp hresolve
  obtain h | ⟨_, _, hpin, h⟩ := (raises_bind ..).mp h
  · exact updateSale_raises _ _ _ _ _ h
  obtain rfl := (commits_updateSale ..).mp hpin
  obtain h | ⟨rawChain, _, hchain, h⟩ := (raises_bind ..).mp h
  · exact uplineChain_raises _ _ _ _ ((raises_fromExcept ..).mp h)
  obtain ⟨hchainEq, rfl⟩ := (commits_fromExcept ..).mp hchain
  obtain h | ⟨lines, _, hlines, h⟩ := (raises_bind ..).mp h
  · exact raiseRange_raises _ _ _ h
  obtain ⟨hlinesEq, rfl⟩ := (commits_raiseRange ..).mp hlines
  obtain h | ⟨_, _, hopen, h⟩ := (raises_bind ..).mp h
  · exact assertPeriodsOpen_raises _ _ _ _ h
  obtain ⟨-, rfl⟩ := (commits_assertPeriodsOpen ..).mp hopen
  obtain h | ⟨_, _, hfreeze, h⟩ := (raises_bind ..).mp h
  · exact updateSale_raises _ _ _ _ _ h
  obtain rfl := (commits_updateSale ..).mp hfreeze
  obtain h | ⟨_, t₁, hbase, h⟩ := (raises_bind ..).mp h
  · exact RaisesOnly.loop (creditCommission_raises _) _ _ _ h
  obtain h | ⟨bonuses, t₂, hbonuses, h⟩ := (raises_bind ..).mp h
  · exact paySponsorBonuses_raises _ _ _ _ _ _ _ h
  obtain h | ⟨override, t₃, hoverride, h⟩ := (raises_bind ..).mp h
  · exact payRankOverride_raises _ _ _ h
  obtain h | ⟨_, _, -, h⟩ := (raises_bind ..).mp h
  · -- the check itself compares the three parts with the ceiling
    obtain ⟨hexceeds, -⟩ := (raises_require ..).mp h
    have hbase := Credited.of_forM hbase
    obtain ⟨hbonusEq, hbonuses⟩ := commits_paySponsorBonuses hbonuses
    obtain ⟨hoverEq, -⟩ := commits_payRankOverride hoverride
    have hreg₁ : t₁.db.registry = s.db.registry := hbase.registry
    have hreg₂ : t₂.db.registry = s.db.registry := (hbase.append hbonuses).registry
    rw [hreg₁] at hbonusEq
    rw [hreg₂] at hoverEq
    let i : Inputs sale s.db.registry :=
      ⟨tenant, plan, rawChain, lines, htenantEq, hplanEq, hchainEq, hlinesEq⟩
    have hle := creditTotal_le_ceiling i (hplan plan hplanEq) hamount t₂.db.ledger.rows
    rw [Inputs.baseCredits, creditTotal_append, creditTotal_append, creditTotal_lines] at hle
    refine absurd ?_ hexceeds
    rw [hbonusEq, hoverEq]
    exact hle
  · exact absurd h (raises_pure _ _ _)

/-- Whatever one application of a valid plan writes is within the ceiling, and the check
of the ceiling never fails. -/
theorem applyCommissions_within_ceiling {env : Env} {now : Instant} {sale : Sale}
    {s : Session} {plan : CommissionPlan} (hamount : 0 ≤ sale.amountCents)
    (hresolve : resolvePlan s.db.registry sale.tenantId sale.saleDate sale.commissionPlanId =
      some plan) (hplan : ValidPlan plan) :
    (∀ r s', Commits (applyCommissionsInTx env now sale) s r s' →
      ∃ base bonuses, s'.db.ledger.rows = s.db.ledger.rows ++ (base ++ bonuses) ∧
        WithinCeiling s.db.registry sale plan base bonuses) ∧
      ∀ distributed ceiling bps, ¬Raises (applyCommissionsInTx env now sale) s
        (.conflict (ceilingText sale.id distributed ceiling bps)) := by
  refine ⟨fun r s' hc => ?_, fun distributed ceiling bps hraises => ?_⟩
  · rcases commits_applyCommissionsInTx hc with rfl | ⟨-, -, i, credits, hdist⟩
    · exact ⟨[], [], by simp, .nil hplan _ hamount⟩
    · have hsame : i.plan = plan := Option.some.inj (i.plan_eq.symm.trans hresolve)
      subst hsame
      exact hdist.withinCeiling hplan hamount
  · refine not_notCeiling sale.id distributed ceiling bps ?_
    unfold applyCommissionsInTx at hraises
    split_ifs at hraises with hstatus
    · exact absurd hraises (raises_pure _ _ _)
    obtain h | ⟨db, _, hread, h⟩ := (raises_bind ..).mp hraises
    · exact absurd h (raises_readDb _ _)
    obtain ⟨rfl, rfl⟩ := (commits_readDb ..).mp hread
    dsimp only at h
    split_ifs at h with hexisting
    · exact absurd h (raises_pure _ _ _)
    · refine distributeSale_raises env now hamount (fun plan' hplan' => ?_) h
      rw [Option.some.inj (hplan'.symm.trans hresolve)]
      exact hplan

theorem Demo.plan_valid : ValidPlan Demo.plan where
  gapless := by decide
  rates := by decide
  pool := by decide
  fastStart := by decide
  matching := by decide

/-- A sale of ten dollars, as its approval has locked it. -/
def Demo.approvedSale : Sale :=
  { Sales.draftSale ⟨1, none, 2, 1000, "USD", 0, none, none⟩ 100 with status := .approved }

/-- Ten dollars are split within the pool of a dollar. -/
theorem applyCommissions_within_ceiling_sold :
    ∃ r s', Commits (applyCommissionsInTx Demo.env 0 Demo.approvedSale)
        ⟨Demo.empty, Demo.uuidsFrom 200⟩ r s' ∧ r.applied = true ∧
      ∃ base bonuses, s'.db.ledger.rows = [] ++ (base ++ bonuses) ∧
        WithinCeiling Demo.registry Demo.approvedSale Demo.plan base bonuses := by
  obtain ⟨r, hc, happlied⟩ := exists_commits_of_run (p := ApplyResult.applied)
    (m := applyCommissionsInTx Demo.env 0 Demo.approvedSale)
    (s := ⟨Demo.empty, Demo.uuidsFrom 200⟩) (by decide +kernel)
  have hresolve : resolvePlan Demo.registry 1 0 none = some Demo.plan := by decide +kernel
  have hamount : 0 ≤ Demo.approvedSale.amountCents := by decide
  exact ⟨r, _, hc, happlied,
    (applyCommissions_within_ceiling hamount hresolve Demo.plan_valid).1 r _ hc⟩

end Refearn.Engine
