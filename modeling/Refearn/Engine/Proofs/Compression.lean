import Refearn.Engine.Proofs.Sponsors
/-!
# Compression

With compression an inactive sponsor is passed over and the active ones move up. The engine
cuts the chain to the depth of the plan before it passes anybody over, so the active sponsors
move up only from within the cut.
-/

namespace Refearn.Engine

open Support Support.Transaction
open Shared (CommissionLine PlanLevelRate BPS_DENOMINATOR lineAt lineAt_eq_some)

def isActiveMember (m : Membership) : Bool := m.status = .active

/-- The active sponsors, the nearest first. -/
def activeSponsors (sponsors : List Membership) : List Membership :=
  sponsors.filter isActiveMember

/-- Level `i` pays its share to the `i`-th active sponsor, where there are so many. -/
def RollsUp (amountCents : Int) (plan : CommissionPlan) (sponsors : List Membership)
    (lines : List CommissionLine) : Prop :=
  ∀ l ∈ plan.levels, 1 ≤ l.level → 0 < levelShare amountCents l →
    ∀ u, (activeSponsors sponsors)[l.level - 1]? = some u →
      ⟨l.level, u.id, l.rateBps, levelShare amountCents l⟩ ∈ lines

/-- Each level with a share finds its active sponsor before the chain is cut: if there are so
many active sponsors at all, there are so many among the first `depth - 1` sponsors. -/
def WithinReach (amountCents : Int) (plan : CommissionPlan) (sponsors : List Membership) :
    Prop :=
  ∀ l ∈ plan.levels, 0 < levelShare amountCents l →
    l.level ≤ sponsors.countP isActiveMember →
      l.level ≤ (sponsors.take (plan.depth - 1)).countP isActiveMember

/-- The lines of one beneficiary. -/
def linesTo (beneficiary : Uuid) (lines : List CommissionLine) : List CommissionLine :=
  lines.filter fun line => line.beneficiaryMembershipId = beneficiary

namespace AppliedSale

variable (a : AppliedSale)

/-! ## Rolling up -/

theorem compressed_place (hcompression : a.tenant.compressionEnabled = true) (i : Nat) :
    (effectiveBaseChain a.rawChain a.tenant)[i + 1]?.join =
      ((a.sponsors.take (a.plan.depth - 1)).filter isActiveMember)[i]?.map
        Membership.id := by
  rw [a.rawChain_eq]
  unfold effectiveBaseChain
  dsimp only
  rw [if_pos hcompression, List.getElem?_cons_succ, List.getElem?_map]
  change (((a.sponsors.take (a.plan.depth - 1)).filter isActiveMember)[i]?.map
    fun u => some u.id).join = _
  cases ((a.sponsors.take (a.plan.depth - 1)).filter isActiveMember)[i]? <;> rfl

theorem rollsUp_iff (hcompression : a.tenant.compressionEnabled = true) :
    RollsUp a.sale.amountCents a.plan a.sponsors a.lines ↔
      WithinReach a.sale.amountCents a.plan a.sponsors := by
  constructor
  · intro hrolls l hl hshare hcount
    cases hlevel : l.level with
    | zero => exact Nat.zero_le _
    | succ i =>
        -- the promised line is there, so its place was taken
        have hi : i < a.sponsors.countP isActiveMember := by omega
        obtain ⟨u, hu⟩ := Option.isSome_iff_exists.mp ((getElem?_filter_isSome _ _ i).mpr hi)
        have hpromised : (activeSponsors a.sponsors)[l.level - 1]? = some u := by
          rw [hlevel, Nat.add_sub_cancel]
          exact hu
        have hline := hrolls l hl (by omega) hshare u hpromised
        obtain ⟨l', hl', hplace, hsame, -⟩ := a.mem_lines.mp hline
        have hindex : l'.level = i + 1 := hsame.symm.trans hlevel
        rw [hindex, a.compressed_place hcompression] at hplace
        obtain ⟨u', hu', -⟩ := Option.map_eq_some_iff.mp hplace
        have hwalked : i < (a.sponsors.take (a.plan.depth - 1)).countP isActiveMember :=
          (getElem?_filter_isSome _ _ i).mp (Option.isSome_of_eq_some hu')
        omega
  · intro hreach l hl hlevel hshare u hu
    obtain ⟨i, hi⟩ : ∃ i, l.level = i + 1 := Nat.exists_eq_succ_of_ne_zero (by omega)
    rw [hi, Nat.add_sub_cancel] at hu
    have hcount : i < a.sponsors.countP isActiveMember :=
      (getElem?_filter_isSome _ _ i).mp (Option.isSome_of_eq_some hu)
    have hwalked := hreach l hl hshare (by omega)
    refine a.mem_lines.mpr ⟨l, hl, ?_, rfl, rfl, rfl, hshare⟩
    rw [hi, a.compressed_place hcompression, getElem?_filter_take, if_pos (by omega)]
    change (activeSponsors a.sponsors)[i]?.map Membership.id = some u.id
    rw [hu]
    rfl

/-- Whoever is paid is the seller or an active sponsor. -/
theorem active_of_paid (hcompression : a.tenant.compressionEnabled = true)
    {line : CommissionLine} (h : line ∈ a.lines) :
    line.beneficiaryMembershipId = a.seller.id ∨
      ∃ u ∈ a.sponsors, u.status = .active ∧ line.beneficiaryMembershipId = u.id := by
  obtain ⟨l, -, hplace, -⟩ := a.mem_lines.mp h
  cases hlevel : l.level with
  | zero =>
      left
      rw [hlevel, effectiveBaseChain_zero, a.rawChain_eq] at hplace
      exact (Option.some.inj hplace).symm
  | succ i =>
      right
      rw [hlevel, a.compressed_place hcompression] at hplace
      obtain ⟨u, hu, hid⟩ := Option.map_eq_some_iff.mp hplace
      obtain ⟨hmem, hactive⟩ := List.mem_filter.mp (List.mem_of_getElem? hu)
      exact ⟨u, List.mem_of_mem_take hmem, of_decide_eq_true hactive, hid.symm⟩

/-- Where all levels are within reach, only the active sponsors decide the lines. -/
theorem lines_eq_of_active {a b : AppliedSale} (ha : a.tenant.compressionEnabled = true)
    (hb : b.tenant.compressionEnabled = true)
    (hareach : WithinReach a.sale.amountCents a.plan a.sponsors)
    (hbreach : WithinReach b.sale.amountCents b.plan b.sponsors) (hplan : a.plan = b.plan)
    (hamount : a.sale.amountCents = b.sale.amountCents) (hseller : a.seller.id = b.seller.id)
    (hactive : (activeSponsors a.sponsors).map Membership.id =
      (activeSponsors b.sponsors).map Membership.id) : a.lines = b.lines := by
  rw [a.lines_eq, b.lines_eq, ← hplan, ← hamount]
  refine (saleLines_eq_iff a.finalized).mpr fun l hl hshare => ?_
  cases hlevel : l.level with
  | zero =>
      rw [effectiveBaseChain_zero, effectiveBaseChain_zero, a.rawChain_eq, b.rawChain_eq]
      exact congrArg some hseller
  | succ i =>
      rw [a.compressed_place ha, b.compressed_place hb, ← List.getElem?_map,
        ← List.getElem?_map]
      -- both fronts agree with the active sponsors as far as these reach
      have hlengths : a.sponsors.countP isActiveMember =
          b.sponsors.countP isActiveMember := by
        have hlength := congrArg List.length hactive
        rwa [List.length_map, List.length_map, activeSponsors, activeSponsors,
          ← List.countP_eq_length_filter, ← List.countP_eq_length_filter] at hlength
      have hfront : ∀ c : AppliedSale, c.plan = a.plan →
          c.sale.amountCents = a.sale.amountCents →
          WithinReach c.sale.amountCents c.plan c.sponsors →
          (((c.sponsors.take (c.plan.depth - 1)).filter isActiveMember).map
            Membership.id)[i]? = ((activeSponsors c.sponsors).map Membership.id)[i]? := by
        intro c hsame hcents hreach
        rw [List.getElem?_map, List.getElem?_map, getElem?_filter_take]
        by_cases hi : i < (c.sponsors.take (c.plan.depth - 1)).countP isActiveMember
        · rw [if_pos hi]
          rfl
        · rw [if_neg hi]
          have hbeyond : ¬i < c.sponsors.countP isActiveMember := by
            intro hcount
            have hwalked := hreach l (hsame ▸ hl) (hcents ▸ hshare) (by omega)
            omega
          have hnone : (activeSponsors c.sponsors)[i]? = none := by
            refine List.getElem?_eq_none ?_
            rw [activeSponsors, ← List.countP_eq_length_filter]
            omega
          rw [hnone]
      rw [hfront a rfl rfl hareach, hfront b hplan.symm hamount.symm hbreach, hactive]

/-! ## Without compression -/

theorem uncompressed_place (hcompression : a.tenant.compressionEnabled = false)
    (hearn : a.tenant.inactiveMembersEarn = false) (i : Nat) :
    (effectiveBaseChain a.rawChain a.tenant)[i]?.join =
      (a.rawChain[i]?.filter fun m => i = 0 || isActiveMember m).map Membership.id := by
  rw [a.rawChain_eq]
  unfold effectiveBaseChain
  dsimp only
  rw [hcompression, hearn]
  cases i with
  | zero => rfl
  | succ i =>
      change (((a.sponsors.take (a.plan.depth - 1)).map fun u =>
        if u.status = .active then some u.id else none)[i]?).join = _
      rw [List.getElem?_map, List.getElem?_cons_succ]
      cases (a.sponsors.take (a.plan.depth - 1))[i]? with
      | none => rfl
      | some u =>
          by_cases hactive : u.status = .active
          · have hkept : isActiveMember u = true := decide_eq_true hactive
            simp [hactive, hkept]
          · have hdropped : isActiveMember u = false := decide_eq_false hactive
            simp [hactive, hdropped]

/-- Where all sponsors are active, every place walked is taken. -/
theorem uncompressed_place_of_active (hcompression : a.tenant.compressionEnabled = false)
    (hearn : a.tenant.inactiveMembersEarn = false)
    (hall : ∀ v ∈ a.sponsors, v.status = .active) (i : Nat) :
    (effectiveBaseChain a.rawChain a.tenant)[i]?.join = (a.rawChain.map Membership.id)[i]? := by
  rw [a.uncompressed_place hcompression hearn, List.getElem?_map]
  cases i with
  | zero => cases a.rawChain[0]? <;> rfl
  | succ i =>
      cases hm : a.rawChain[i + 1]? with
      | none => rfl
      | some m =>
          rw [a.rawChain_eq, List.getElem?_cons_succ] at hm
          have hactive := hall m (List.mem_of_mem_take (List.mem_of_getElem? hm))
          have hkept : isActiveMember m = true := decide_eq_true hactive
          rw [Option.filter_some, hkept, Bool.or_true, if_pos rfl]

/-- An active sponsor is paid as if all sponsors were active. -/
theorem linesTo_active {a b : AppliedSale} (ha : a.tenant.compressionEnabled = false)
    (haearn : a.tenant.inactiveMembersEarn = false)
    (hb : b.tenant.compressionEnabled = false)
    (hbearn : b.tenant.inactiveMembersEarn = false) (hplan : a.plan = b.plan)
    (hamount : a.sale.amountCents = b.sale.amountCents) (hseller : a.seller.id = b.seller.id)
    (hsponsors : a.sponsors.map Membership.id = b.sponsors.map Membership.id)
    (hall : ∀ v ∈ b.sponsors, v.status = .active) {u : Membership} (hu : u ∈ a.sponsors)
    (hactive : u.status = .active) : linesTo u.id a.lines = linesTo u.id b.lines := by
  have hids : b.rawChain.map Membership.id = a.rawChain.map Membership.id := by
    unfold rawChain
    rw [List.map_take, List.map_take, List.map_cons, List.map_cons, hplan, hseller, hsponsors]
  rw [a.lines_eq, b.lines_eq, ← hplan, ← hamount]
  unfold linesTo saleLines
  rw [List.filter_filterMap, List.filter_filterMap]
  refine List.filterMap_congr fun l _ => ?_
  have hplace := a.uncompressed_place ha haearn l.level
  have hfull := b.uncompressed_place_of_active hb hbearn hall l.level
  rw [hids, List.getElem?_map] at hfull
  cases hm : a.rawChain[l.level]? with
  | none =>
      rw [hm] at hplace hfull
      rw [lineAt_eq_lineAt_iff.mpr fun _ => hplace.trans hfull.symm]
  | some m =>
      rw [hm, Option.filter_some] at hplace
      rw [hm] at hfull
      by_cases hkept : (l.level = 0 || isActiveMember m) = true
      · rw [if_pos hkept] at hplace
        rw [lineAt_eq_lineAt_iff.mpr fun _ => hplace.trans hfull.symm]
      · -- an inactive member at this place is not the active one
        rw [if_neg hkept] at hplace
        have hother : m.id ≠ u.id := by
          intro hid
          have hmem : m ∈ a.seller :: a.sponsors :=
            List.mem_of_mem_take (List.mem_of_getElem? hm)
          have hsame : m = u := List.inj_on_of_nodup_map a.chain_eq.ids_nodup hmem
            (List.mem_cons_of_mem _ hu) hid
          refine hkept ?_
          rw [hsame, isActiveMember, hactive]
          exact Bool.or_true _
        have hnone : lineAt a.sale.amountCents (effectiveBaseChain a.rawChain a.tenant) l =
            none := by
          unfold lineAt
          rw [hplace]
          rfl
        rw [hnone]
        cases hline : lineAt a.sale.amountCents (effectiveBaseChain b.rawChain b.tenant) l with
        | none => rfl
        | some line =>
            obtain ⟨hpaid, -⟩ := lineAt_eq_some.mp hline
            rw [hfull] at hpaid
            have hid : m.id = line.beneficiaryMembershipId := Option.some.inj hpaid
            refine (Option.filter_eq_none_iff.mpr fun line' hsome => ?_).symm
            rw [← Option.some.inj hsome, ← hid, decide_eq_true_eq]
            exact hother

end AppliedSale

/-! ## Both settings -/

/-- Two applications of equal sales under equal plans, to sellers who are one member. -/
structure EqualSale (a b : AppliedSale) : Prop where
  plan : a.plan = b.plan
  amountCents : a.sale.amountCents = b.sale.amountCents
  seller : a.seller.id = b.seller.id

/-- With compression active sponsors move up exactly if the cut leaves enough of them, no
inactive sponsor is paid, and sales whose levels are all within reach pay alike if their active
sponsors are the same. Without it an active sponsor is paid as if all sponsors were active. -/
theorem compression_exact (a : AppliedSale) :
    (a.tenant.compressionEnabled = true →
      (RollsUp a.sale.amountCents a.plan a.sponsors a.lines ↔
        WithinReach a.sale.amountCents a.plan a.sponsors) ∧
      (∀ line ∈ a.lines, line.beneficiaryMembershipId = a.seller.id ∨
        ∃ u ∈ a.sponsors, u.status = .active ∧ line.beneficiaryMembershipId = u.id) ∧
      ∀ b : AppliedSale, EqualSale a b → b.tenant.compressionEnabled = true →
        (activeSponsors a.sponsors).map Membership.id =
          (activeSponsors b.sponsors).map Membership.id →
        WithinReach a.sale.amountCents a.plan a.sponsors →
        WithinReach b.sale.amountCents b.plan b.sponsors → a.lines = b.lines) ∧
    (a.tenant.compressionEnabled = false → a.tenant.inactiveMembersEarn = false →
      ∀ b : AppliedSale, EqualSale a b → b.tenant.compressionEnabled = false →
        b.tenant.inactiveMembersEarn = false →
        a.sponsors.map Membership.id = b.sponsors.map Membership.id →
        (∀ v ∈ b.sponsors, v.status = .active) →
        ∀ u ∈ a.sponsors, u.status = .active →
          linesTo u.id a.lines = linesTo u.id b.lines) := by
  refine ⟨fun hcompression => ⟨a.rollsUp_iff hcompression,
    fun line hline => a.active_of_paid hcompression hline, ?_⟩, ?_⟩
  · intro b hsame hb hactive hareach hbreach
    exact AppliedSale.lines_eq_of_active hcompression hb hareach hbreach hsame.plan
      hsame.amountCents hsame.seller hactive
  · intro hcompression hearn b hsame hb hbearn hsponsors hall u hu hactive
    exact AppliedSale.linesTo_active hcompression hearn hb hbearn hsame.plan hsame.amountCents
      hsame.seller hsponsors hall hu hactive

namespace Demo

/-- The sponsor is inactive; the member above it is active. -/
def idleSponsor : Membership := ⟨3, 1, 11, some 7, "SPONSOR", [7, 3], .inactive, 0⟩

def grandSponsor : Membership := ⟨7, 1, 12, none, "GRAND", [7], .active, 0⟩

/-- Six percent to the seller, four and three to the two members above it. -/
def deepPlan : CommissionPlan :=
  ⟨4, 1, 1, true, 1300, 3, 0, 0, 0, 0, [⟨5, 0, 600⟩, ⟨6, 1, 400⟩, ⟨8, 2, 300⟩]⟩

def idleLine : Table Membership :=
  ⟨[seller, idleSponsor, grandSponsor], by decide, by decide⟩

def compressing (plan : CommissionPlan) : Registry :=
  { registry with
    tenants := ⟨[{ tenant with compressionEnabled := true }], by decide, by decide⟩
    memberships := idleLine
    plans := ⟨[plan], List.nodup_singleton _, List.pairwise_singleton _ _⟩ }

theorem compressing_chain (plan : CommissionPlan) :
    SponsorChain (compressing plan) (some 2) [seller, idleSponsor, grandSponsor] :=
  .link (show idleLine.find? 2 = some seller by decide +kernel)
    (.link (show idleLine.find? 3 = some idleSponsor by decide +kernel)
      (.link (show idleLine.find? 7 = some grandSponsor by decide +kernel) .root))

theorem plan_finalized : FinalizedPlan plan where
  toValidPlan := plan_valid
  depth := by decide

theorem deepPlan_finalized : FinalizedPlan deepPlan where
  gapless := by decide
  rates := by decide
  pool := by decide
  fastStart := by decide
  matching := by decide
  depth := by decide

/-- Ten dollars under the plan of two levels. -/
def shallowSale : AppliedSale :=
  .ofRun env 0 approvedSale ⟨{ empty with registry := compressing plan }, uuidsFrom 200⟩
    { tenant with compressionEnabled := true } plan seller [idleSponsor, grandSponsor]
    (by decide +kernel) (by decide +kernel) (by decide +kernel) plan_finalized (compressing_chain plan)

/-- Ten dollars under the plan of three levels. -/
def deepSale : AppliedSale :=
  .ofRun env 0 approvedSale
    ⟨{ empty with registry := compressing deepPlan }, uuidsFrom 200⟩
    { tenant with compressionEnabled := true } deepPlan seller [idleSponsor, grandSponsor]
    (by decide +kernel) (by decide +kernel) (by decide +kernel) deepPlan_finalized (compressing_chain deepPlan)

end Demo

/-- Under the plan of three levels the member above the idle sponsor moves up. -/
theorem compression_exact_three_levels :
    RollsUp 1000 Demo.deepPlan [Demo.idleSponsor, Demo.grandSponsor] Demo.deepSale.lines := by
  refine ((compression_exact Demo.deepSale).1 rfl).1.mpr ?_
  change WithinReach 1000 Demo.deepPlan [Demo.idleSponsor, Demo.grandSponsor]
  intro l hl _ hcount
  simp only [Demo.deepPlan, List.mem_cons, List.not_mem_nil, or_false] at hl
  rcases hl with rfl | rfl | rfl
  · exact Nat.zero_le _
  · decide
  · revert hcount
    decide

/-- Under the plan of two levels the only active sponsor is beyond the cut and goes unpaid. -/
theorem compression_stops_at_depth :
    Demo.shallowSale.tenant.compressionEnabled = true ∧
      ¬RollsUp Demo.shallowSale.sale.amountCents Demo.shallowSale.plan
        Demo.shallowSale.sponsors Demo.shallowSale.lines := by
  refine ⟨rfl, fun hrolls => ?_⟩
  have hreach := (Demo.shallowSale.rollsUp_iff rfl).mp hrolls
  have hlevel := hreach ⟨6, 1, 400⟩ (List.mem_cons_of_mem _ List.mem_cons_self)
  change 0 < levelShare 1000 ⟨6, 1, 400⟩ → 1 ≤ 1 → 1 ≤ 0 at hlevel
  exact absurd (hlevel (by decide +kernel) le_rfl) (by decide)

end Refearn.Engine
