import Refearn.Engine.Proofs.Sponsors
/-!
# The matching bonus

The bonus of level 1001 is said to match the commission that the seller has of level 0. It is
taken from the first line of the sale, and that is the seller's own one only where the seller's
share is worth a cent.
-/

namespace Refearn.Engine

open Support Support.Transaction
open Shared (CommissionLine PlanLevelRate BPS_DENOMINATOR lineAt lineAt_eq_some)

/-- Every matching row of the sale matches a row of the seller at level 0. -/
def MatchesOwnCommission (sale : Sale) (plan : CommissionPlan) (rows : List LedgerEntry) :
    Prop :=
  ∀ bonus ∈ rows, isCommissionOf sale.id bonus = true → bonus.level = 1001 →
    ∃ own ∈ rows, isCommissionOf sale.id own = true ∧ own.level = 0 ∧
      own.beneficiaryMembershipId = sale.sellerMembershipId ∧
      bonus.amountCents = floorShare BPS_DENOMINATOR own.amountCents plan.matchingBps

/-- The place of the level is taken, and its share is worth a cent. -/
def PaysLevel (amountCents : Int) (chain : List (Option Uuid)) (l : CommissionPlanLevel) :
    Prop :=
  (chain[l.level]?.join).isSome = true ∧ 0 < levelShare amountCents l

/-- The level is the lowest one that pays. -/
structure FirstPaid (amountCents : Int) (plan : CommissionPlan) (chain : List (Option Uuid))
    (l : CommissionPlanLevel) : Prop where
  pays : PaysLevel amountCents chain l
  first : ∀ l' ∈ plan.levels, l'.level < l.level → ¬PaysLevel amountCents chain l'

/-- The seller's share is worth a cent, or no sponsor earns a bonus, or what the lowest level
pays has no matching share of a cent. -/
def MatchedOnSeller (amountCents : Int) (plan : CommissionPlan) (tenant : Tenant)
    (rawChain : List Membership) : Prop :=
  (∃ l ∈ plan.levels, l.level = 0 ∧ 0 < levelShare amountCents l) ∨
    earningSponsor tenant rawChain = none ∨
    ∀ l ∈ plan.levels, FirstPaid amountCents plan (effectiveBaseChain rawChain tenant) l →
      floorShare BPS_DENOMINATOR (levelShare amountCents l) plan.matchingBps ≤ 0

/-! ## The first line -/

section FirstLine

variable {amountCents : Int} {plan : CommissionPlan} {chain : List (Option Uuid)}

theorem lineAt_of_pays {l : CommissionPlanLevel} (h : PaysLevel amountCents chain l) :
    ∃ line, lineAt amountCents chain ⟨l.level, l.rateBps⟩ = some line := by
  obtain ⟨hplace, hshare⟩ := h
  obtain ⟨beneficiary, hbeneficiary⟩ := Option.isSome_iff_exists.mp hplace
  have hpositive : 0 < floorShare BPS_DENOMINATOR amountCents
      (⟨l.level, l.rateBps⟩ : PlanLevelRate).rateBps := hshare
  rw [lineAt_of_share hpositive]
  dsimp only
  rw [hbeneficiary]
  exact ⟨_, rfl⟩

/-- The first line is that of the lowest level that pays. -/
theorem exists_first_level (hplan : FinalizedPlan plan) {first : CommissionLine}
    {rest : List CommissionLine} (h : saleLines amountCents plan chain = first :: rest) :
    ∃ l ∈ plan.levels, FirstPaid amountCents plan chain l ∧ first.level = l.level ∧
      first.amountCents = levelShare amountCents l ∧
      chain[l.level]?.join = some first.beneficiaryMembershipId := by
  unfold saleLines at h
  obtain ⟨before, l, after, hsplit, hbefore, hline, -⟩ := List.filterMap_eq_cons_iff.mp h
  have hmem : l ∈ sortedRates plan := by
    rw [hsplit]
    exact List.mem_append_right _ List.mem_cons_self
  obtain ⟨x, hx, rfl⟩ := mem_sortedRates.mp hmem
  obtain ⟨hplace, hlevel, -, hamount, hpositive⟩ := lineAt_eq_some.mp hline
  have hshare : first.amountCents = levelShare amountCents x := hamount
  refine ⟨x, hx, ⟨⟨?_, by omega⟩, fun x' hx' hlower hpays => ?_⟩, hlevel, hshare, hplace⟩
  · dsimp only at hplace
    rw [hplace]
    rfl
  · -- the lines of the lower levels would stand before the first one
    have hmem' : (⟨x'.level, x'.rateBps⟩ : PlanLevelRate) ∈ sortedRates plan :=
      mem_sortedRates.mpr ⟨x', hx', rfl⟩
    have hlevels := hplan.levels_sorted
    have hsorted : ((sortedRates plan).map PlanLevelRate.level).Pairwise (· < ·) := by
      rw [hlevels]
      exact List.pairwise_lt_range
    rw [hsplit, List.map_append, List.map_cons] at hsorted
    rw [hsplit] at hmem'
    rcases List.mem_append.mp hmem' with hin | hin
    · obtain ⟨line, hsome⟩ := lineAt_of_pays hpays
      rw [hbefore _ hin] at hsome
      cases hsome
    · have hafter := (List.pairwise_cons.mp (List.pairwise_append.mp hsorted).2.1).1
      rcases List.mem_cons.mp hin with heq | hin
      · have hsame : x'.level = x.level := congrArg PlanLevelRate.level heq
        omega
      · have hgreater := hafter _ (List.mem_map_of_mem hin)
        dsimp only at hgreater
        omega

/-- A level that is the lowest one to pay has the first line. -/
theorem FirstPaid.exists_line (hplan : FinalizedPlan plan) {l : CommissionPlanLevel}
    (hl : l ∈ plan.levels) (h : FirstPaid amountCents plan chain l) :
    ∃ first rest, saleLines amountCents plan chain = first :: rest ∧ first.level = l.level ∧
      first.amountCents = levelShare amountCents l := by
  obtain ⟨line, hline⟩ := lineAt_of_pays h.pays
  have hmem : line ∈ saleLines amountCents plan chain :=
    mem_saleLines.mpr ⟨_, mem_sortedRates.mpr ⟨l, hl, rfl⟩, hline⟩
  obtain ⟨first, rest, hlines⟩ := List.exists_cons_of_ne_nil (List.ne_nil_of_mem hmem)
  obtain ⟨l', hl', hfirst, hlevel, hamount, -⟩ := exists_first_level hplan hlines
  have hle : ¬l'.level < l.level := fun hlt => h.first l' hl' hlt hfirst.pays
  have hge : ¬l.level < l'.level := fun hlt => hfirst.first l hl hlt h.pays
  have hsame : (⟨l.level, l.rateBps⟩ : PlanLevelRate) = ⟨l'.level, l'.rateBps⟩ := by
    refine List.inj_on_of_nodup_map hplan.levels_nodup (mem_sortedRates.mpr ⟨l, hl, rfl⟩)
      (mem_sortedRates.mpr ⟨l', hl', rfl⟩) ?_
    change l.level = l'.level
    omega
  have hrate : l.rateBps = l'.rateBps := congrArg PlanLevelRate.rateBps hsame
  refine ⟨first, rest, hlines, by omega, ?_⟩
  rw [hamount, levelShare, levelShare, hrate]

end FirstLine

/-! ## The written rows -/

/-- The rows of the sale are those the distribution has added. -/
theorem Distributed.mem_rows_of_sale {env : Env} {now : Instant} {sale : Sale}
    {registry : Registry} {i : Inputs sale registry} {credits : List Credit} {db db' : Db}
    (h : Distributed env now i credits db db')
    (hfresh : ∀ e ∈ db.ledger, isCommissionOf sale.id e = false) (r : LedgerEntry)
    (hlevel : r.level ≠ 1002) :
    (r ∈ db'.ledger.rows ∧ isCommissionOf sale.id r = true) → ∃ id,
      (∃ line ∈ i.lines, r = (i.context env now).row (lineCredit sale line) id) ∨
      (∃ c ∈ sponsorCredits registry sale i.tenant i.plan i.rawChain i.lines,
        r = (i.context env now).row c id) := by
  rintro ⟨hr, hcom⟩
  obtain ⟨base, sponsor, override, earlier, hrows, hbase, hsponsor, hoverride⟩ := h.rows_split
  rw [hrows] at hr
  rcases List.mem_append.mp hr with hr | hr
  · rw [hfresh r hr] at hcom
    cases hcom
  rcases List.mem_append.mp hr with hr | hr
  · obtain ⟨c, hc, id, rfl⟩ := hbase.exists_of_mem hr
    obtain ⟨line, hline, rfl⟩ := List.mem_map.mp hc
    exact ⟨id, .inl ⟨line, hline, rfl⟩⟩
  rcases List.mem_append.mp hr with hr | hr
  · obtain ⟨c, hc, id, rfl⟩ := hsponsor.exists_of_mem hr
    exact ⟨id, .inr ⟨c, hc, rfl⟩⟩
  · obtain ⟨c, hc, id, rfl⟩ := hoverride.exists_of_mem hr
    exact absurd (level_of_mem_overrideCredits hc) hlevel

/-- Every base line and every bonus of the sponsor has its row. -/
theorem Distributed.exists_row {env : Env} {now : Instant} {sale : Sale} {registry : Registry}
    {i : Inputs sale registry} {credits : List Credit} {db db' : Db}
    (h : Distributed env now i credits db db') {c : Credit} (hc : c ∈ i.baseCredits) :
    ∃ id, (i.context env now).row c id ∈ db'.ledger.rows := by
  obtain ⟨base, sponsor, override, earlier, hrows, hbase, hsponsor, hoverride⟩ := h.rows_split
  have hdrawn := hbase.append hsponsor
  obtain ⟨id, hrow⟩ := hdrawn.mem_of_mem hc
  refine ⟨id, ?_⟩
  rw [hrows, ← List.append_assoc base]
  exact List.mem_append_right _ (List.mem_append_left _ hrow)

/-- A bonus at the matching level is the one of the first line. -/
theorem matching_of_mem_sponsorCredits {registry : Registry} {sale : Sale} {tenant : Tenant}
    {plan : CommissionPlan} {rawChain : List Membership} {lines : List CommissionLine}
    {c : Credit} (h : c ∈ sponsorCredits registry sale tenant plan rawChain lines)
    (hlevel : c.level = 1001) :
    (∃ sponsorId, earningSponsor tenant rawChain = some sponsorId) ∧
      ∃ first rest, lines = first :: rest ∧ 0 < c.amountCents ∧
        c.amountCents = floorShare BPS_DENOMINATOR first.amountCents plan.matchingBps := by
  unfold sponsorCredits at h
  cases hsponsor : earningSponsor tenant rawChain with
  | none =>
      rw [hsponsor] at h
      cases h
  | some sponsorId =>
      rw [hsponsor] at h
      refine ⟨⟨sponsorId, rfl⟩, ?_⟩
      rcases List.mem_append.mp h with h | h
      · have hother := level_of_mem_bonusCredits h
        omega
      · cases lines with
        | nil => cases h
        | cons first rest =>
            unfold matchingCredits bonusCredits at h
            dsimp only at h
            split_ifs at h with hdue hzero
            · cases h
            · rw [List.mem_singleton.mp h]
              exact ⟨first, rest, rfl, not_le.mp hzero, rfl⟩
            · cases h

theorem mem_sponsorCredits_of_matching {registry : Registry} {sale : Sale} {tenant : Tenant}
    {plan : CommissionPlan} {rawChain : List Membership} {first : CommissionLine}
    {rest : List CommissionLine} {sponsorId : Uuid}
    (hsponsor : earningSponsor tenant rawChain = some sponsorId) (hpositive : 0 < first.amountCents)
    (hshare : 0 < floorShare BPS_DENOMINATOR first.amountCents plan.matchingBps) :
    bonusCredit sale sponsorId 1001 plan.matchingBps
        (floorShare BPS_DENOMINATOR first.amountCents plan.matchingBps) ∈
      sponsorCredits registry sale tenant plan rawChain (first :: rest) := by
  have hbps : 0 < plan.matchingBps := by
    by_contra hneg
    have hproduct : first.amountCents * plan.matchingBps ≤ 0 :=
      Int.mul_nonpos_of_nonneg_of_nonpos hpositive.le (not_lt.mp hneg)
    have hfloor : floorShare BPS_DENOMINATOR first.amountCents plan.matchingBps ≤ 0 :=
      Int.ediv_nonpos_of_nonpos_of_neg hproduct (by decide)
    omega
  unfold sponsorCredits
  rw [hsponsor]
  refine List.mem_append_right _ ?_
  unfold matchingCredits bonusCredits
  dsimp only
  rw [if_pos (decide_eq_true hbps), if_neg (not_le.mpr hshare)]
  exact List.mem_singleton_self _

/-! ## When the bonus matches -/

/-- The matching row matches the seller's own commission exactly if that is worth a cent, or
no matching bonus comes of the sale. -/
theorem matching_bonus_exact {env : Env} {now : Instant} {sale : Sale} {s s' : Session}
    {tenant : Tenant} {plan : CommissionPlan} {rawChain : List Membership}
    (h : Applies env now sale s s')
    (htenant : s.db.registry.tenants.find? sale.tenantId = some tenant)
    (hresolve : resolvePlan s.db.registry sale.tenantId sale.saleDate sale.commissionPlanId =
      some plan) (hplan : FinalizedPlan plan)
    (hchain : uplineChain s.db.registry plan.depth (some sale.sellerMembershipId) =
      .ok rawChain) :
    MatchesOwnCommission sale plan s'.db.ledger.rows ↔
      MatchedOnSeller sale.amountCents plan tenant rawChain := by
  obtain ⟨hfresh, i, credits, hdist⟩ := h.distributed
  obtain rfl : i.tenant = tenant := Option.some.inj (i.tenant_eq.symm.trans htenant)
  obtain rfl : i.plan = plan := Option.some.inj (i.plan_eq.symm.trans hresolve)
  obtain rfl : i.rawChain = rawChain := Except.ok.inj (i.chain_eq.symm.trans hchain)
  have hlines := i.lines_eq_saleLines
  obtain ⟨depth, hdepth⟩ : ∃ depth, i.plan.depth = depth + 1 :=
    Nat.exists_eq_succ_of_ne_zero (Nat.one_le_iff_ne_zero.mp hplan.depth.1)
  rw [hdepth] at hchain
  obtain ⟨seller, uplines, hraw, hseller⟩ := uplineChain_head hchain
  have hplace : (effectiveBaseChain i.rawChain i.tenant)[0]?.join =
      some sale.sellerMembershipId := by
    rw [effectiveBaseChain_zero, hraw, ← hseller]
    rfl
  constructor
  · -- a bonus on another level's line has no row of the seller to match
    intro hmatches
    by_contra hcondition
    unfold MatchedOnSeller at hcondition
    push Not at hcondition
    obtain ⟨hown, hsponsor, l, hl, hfirst, hshare⟩ := hcondition
    obtain ⟨sponsorId, hsponsorId⟩ := Option.ne_none_iff_exists'.mp hsponsor
    obtain ⟨first, rest, hcons, hlevel, hamount⟩ := hfirst.exists_line hplan hl
    have hpositive : 0 < first.amountCents := hamount ▸ hfirst.pays.2
    rw [hcons] at hlines
    have hcredit : bonusCredit sale sponsorId 1001 i.plan.matchingBps
        (floorShare BPS_DENOMINATOR first.amountCents i.plan.matchingBps) ∈ i.baseCredits := by
      refine List.mem_append_right _ ?_
      rw [hlines]
      exact mem_sponsorCredits_of_matching hsponsorId hpositive (hamount ▸ hshare)
    obtain ⟨id, hrow⟩ := hdist.exists_row hcredit
    obtain ⟨own, hownRow, hownCom, hownLevel, -, -⟩ :=
      hmatches _ hrow (isCommissionOf_row i _ id) rfl
    obtain ⟨id', hline | hbonus⟩ := hdist.mem_rows_of_sale hfresh own (by omega) ⟨hownRow, hownCom⟩
    · obtain ⟨line, hline, rfl⟩ := hline
      rw [i.lines_eq_saleLines] at hline
      obtain ⟨rate, hrate, hlineAt⟩ := mem_saleLines.mp hline
      obtain ⟨x, hx, rfl⟩ := mem_sortedRates.mp hrate
      obtain ⟨-, hlineLevel, -, hlineAmount, hlinePositive⟩ := lineAt_eq_some.mp hlineAt
      have hzero : line.level = 0 := hownLevel
      have hlevelZero : x.level = 0 := hlineLevel.symm.trans hzero
      have hshare : line.amountCents = levelShare sale.amountCents x := hlineAmount
      have hworthless := hown x hx hlevelZero
      omega
    · obtain ⟨c, hc, rfl⟩ := hbonus
      have hlevels := level_of_mem_sponsorCredits hc
      have hzero : c.level = 0 := hownLevel
      omega
  · intro hcondition bonus hbonus hcom hlevel
    obtain ⟨id, hline | hbonus⟩ := hdist.mem_rows_of_sale hfresh bonus (by omega) ⟨hbonus, hcom⟩
    · obtain ⟨line, hline, rfl⟩ := hline
      rw [i.lines_eq_saleLines] at hline
      obtain ⟨rate, hrate, hlineAt⟩ := mem_saleLines.mp hline
      have hbase := hplan.level_base hrate
      have hsame := level_of_lineAt rate line hlineAt
      have hmatching : line.level = 1001 := hlevel
      omega
    · obtain ⟨c, hc, rfl⟩ := hbonus
      obtain ⟨⟨sponsorId, hsponsorId⟩, first, rest, hcons, hpositive, hamount⟩ :=
        matching_of_mem_sponsorCredits hc hlevel
      obtain ⟨l, hl, hfirst, hfirstLevel, hfirstAmount, hfirstPlace⟩ :=
        exists_first_level hplan (hlines.symm.trans hcons)
      rcases hcondition with ⟨own, hown, hzero, hworth⟩ | hnone | hworthless
      · -- the seller's own level pays, so nothing comes before it
        have hpays : PaysLevel sale.amountCents (effectiveBaseChain i.rawChain i.tenant) own := by
          refine ⟨?_, hworth⟩
          rw [hzero, hplace]
          rfl
        have hlevelZero : l.level = 0 := by
          by_contra hne
          exact hfirst.first own hown (by omega) hpays
        have hmem : first ∈ i.lines := hcons ▸ List.mem_cons_self
        obtain ⟨id', hrow⟩ := hdist.exists_row
          (List.mem_append_left _ (List.mem_map_of_mem (f := lineCredit sale) hmem))
        rw [hlevelZero, hplace] at hfirstPlace
        exact ⟨_, hrow, isCommissionOf_row i _ id', hfirstLevel.trans hlevelZero,
          (Option.some.inj hfirstPlace).symm, hamount⟩
      · rw [hnone] at hsponsorId
        cases hsponsorId
      · have hnothing := hworthless l hl hfirst
        rw [← hfirstAmount, ← hamount] at hnothing
        omega

namespace Demo

/-- Ten percent to the seller, half of the sale to the sponsor, and all of the seller's
commission once more to the sponsor. -/
def matchingPlan : CommissionPlan :=
  ⟨4, 1, 1, true, 6000, 2, 0, 0, 10000, 0, [⟨5, 0, 1000⟩, ⟨6, 1, 5000⟩]⟩

def matchingRegistry : Registry :=
  { registry with plans := ⟨[matchingPlan], by decide, by decide⟩ }

def matchingSession : Session := ⟨{ empty with registry := matchingRegistry }, uuidsFrom 200⟩

/-- A sale of the seller, approved. -/
def saleOf (amountCents : Int) : Sale :=
  { Sales.draftSale ⟨1, none, 2, amountCents, "USD", 0, none, none⟩ 100 with status := .approved }

/-- The state that the application of such a sale leaves. -/
def matched (amountCents : Int) : Session :=
  (applyCommissionsInTx env 0 (saleOf amountCents)).commit matchingSession

theorem applies_matched (amountCents : Int)
    (h : ((applyCommissionsInTx env 0 (saleOf amountCents)).run matchingSession).toOption.any
      (fun r => r.1.applied) = true) :
    Applies env 0 (saleOf amountCents) matchingSession (matched amountCents) := by
  obtain ⟨r, hcommits, happlied⟩ := exists_commits_of_run (p := ApplyResult.applied) h
  exact ⟨r, hcommits, happlied⟩

theorem matchingPlan_finalized : FinalizedPlan matchingPlan where
  gapless := by decide
  rates := by decide
  pool := by decide
  fastStart := by decide
  matching := by decide
  depth := by decide

end Demo

/-- Of ten dollars the seller has one, and the bonus is another. -/
theorem matching_bonus_exact_ten_dollars :
    MatchesOwnCommission (Demo.saleOf 1000) Demo.matchingPlan
      (Demo.matched 1000).db.ledger.rows := by
  have happlies := Demo.applies_matched 1000 (by decide +kernel)
  have htenant : Demo.matchingSession.db.registry.tenants.find? (Demo.saleOf 1000).tenantId =
      some Demo.tenant := by decide +kernel
  have hresolve : resolvePlan Demo.matchingSession.db.registry (Demo.saleOf 1000).tenantId
      (Demo.saleOf 1000).saleDate (Demo.saleOf 1000).commissionPlanId =
        some Demo.matchingPlan := by decide +kernel
  have hchain : uplineChain Demo.matchingSession.db.registry Demo.matchingPlan.depth
      (some (Demo.saleOf 1000).sellerMembershipId) = .ok [Demo.seller, Demo.sponsor] := by
    decide +kernel
  have hexact := matching_bonus_exact happlies htenant hresolve Demo.matchingPlan_finalized hchain
  refine hexact.mpr (.inl ⟨⟨5, 0, 1000⟩, List.mem_cons_self, rfl, ?_⟩)
  decide +kernel

/-- Of five cents the seller's share is none; the bonus is taken from the sponsor's own two. -/
theorem matching_bonus_without_own_commission :
    Applies Demo.env 0 (Demo.saleOf 5) Demo.matchingSession (Demo.matched 5) ∧
      ¬MatchesOwnCommission (Demo.saleOf 5) Demo.matchingPlan
        (Demo.matched 5).db.ledger.rows := by
  refine ⟨Demo.applies_matched 5 (by decide +kernel), fun hmatches => ?_⟩
  have hlevels : (Demo.matched 5).db.ledger.rows.map
      (fun row => (row.level, isCommissionOf (Demo.saleOf 5).id row)) =
        [(1, true), (1001, true)] := by decide +kernel
  have hbonus : (1001, true) ∈ (Demo.matched 5).db.ledger.rows.map
      (fun row => (row.level, isCommissionOf (Demo.saleOf 5).id row)) :=
    hlevels ▸ List.mem_cons_of_mem _ (List.mem_singleton_self _)
  obtain ⟨bonus, hmem, hfields⟩ := List.mem_map.mp hbonus
  obtain ⟨own, hown, hcom, hzero, -⟩ :=
    hmatches bonus hmem (congrArg Prod.snd hfields) (congrArg Prod.fst hfields)
  have hin := List.mem_map_of_mem
    (f := fun row : LedgerEntry => (row.level, isCommissionOf (Demo.saleOf 5).id row)) hown
  rw [hlevels, hzero, hcom] at hin
  revert hin
  decide

end Refearn.Engine
