import Refearn.Ranks.Ladder
import Refearn.Support.Runs
import Mathlib.Data.List.Induction
/-!
# The highest tier

The loop of `memberRank` over indexes and that of `resolveTier` over tiers end at one tier: the
last one whose thresholds are met. On a list in the order of `sortOrder` it is a highest one, so
growth never leads to a lower place; whether it can lead to a lower rate is a property of the list.
-/

namespace Refearn.Ranks

open Support

/-! ## The last tier that is met -/

section Highest

variable {tiers tiers' : List Tier} {t t' : Tier} {size size' earned earned' : Int}

def Met (t : Tier) (size earned : Int) : Prop := t.minTeam ≤ size ∧ t.minEarningsCents ≤ earned

theorem Met.mono (h : Met t size earned) (hsize : size ≤ size') (hearned : earned ≤ earned') :
    Met t size' earned' :=
  ⟨h.1.trans hsize, h.2.trans hearned⟩

theorem met_self (t : Tier) : Met t t.minTeam t.minEarningsCents := ⟨le_rfl, le_rfl⟩

theorem highestTier_concat (tiers : List Tier) (t : Tier) (size earned : Int) :
    highestTier (tiers ++ [t]) size earned =
      if t.minTeam ≤ size ∧ t.minEarningsCents ≤ earned then some t
      else highestTier tiers size earned := by
  unfold highestTier
  rw [List.foldl_append]
  rfl

/-- The highest tier is met, and none after it is. -/
theorem highestTier_eq_some :
    highestTier tiers size earned = some t ↔
      ∃ before after, tiers = before ++ t :: after ∧ Met t size earned ∧
        ∀ u ∈ after, ¬ Met u size earned := by
  induction tiers using List.reverseRecOn with
  | nil =>
      constructor
      · exact nofun
      · rintro ⟨before, after, heq, -⟩
        simp at heq
  | append_singleton tiers last ih =>
      rw [highestTier_concat]
      constructor
      · intro h
        split_ifs at h with hlast
        · cases h
          exact ⟨tiers, [], rfl, hlast, nofun⟩
        · obtain ⟨before, after, rfl, hmet, hnone⟩ := ih.mp h
          refine ⟨before, after ++ [last], by simp, hmet, fun u hu => ?_⟩
          rcases List.mem_append.mp hu with hu | hu
          · exact hnone u hu
          · rw [List.mem_singleton.mp hu]
            exact hlast
      · rintro ⟨before, after, heq, hmet, hnone⟩
        rcases concat_eq_append_cons.mp heq with ⟨-, rfl, rfl⟩ | ⟨rest, rfl, hrest⟩
        · exact if_pos hmet
        · have hlast := hnone last (List.mem_append_right _ (List.mem_singleton_self last))
          rw [if_neg (show ¬ (_ ∧ _) from hlast)]
          exact ih.mpr ⟨before, rest, hrest, hmet, fun u hu => hnone u (List.mem_append_left _ hu)⟩

theorem exists_highestTier (ht : t ∈ tiers) (hmet : Met t size earned) :
    ∃ u, highestTier tiers size earned = some u := by
  induction tiers using List.reverseRecOn with
  | nil => cases ht
  | append_singleton tiers last ih =>
      rw [highestTier_concat]
      split_ifs with hlast
      · exact ⟨last, rfl⟩
      · rcases List.mem_append.mp ht with ht | ht
        · exact ih ht
        · rw [List.mem_singleton.mp ht] at hmet
          exact absurd hmet hlast

/-- Fewer thresholds are met below, so the highest tier stays the highest down to its own. -/
theorem highestTier_below (h : highestTier tiers size earned = some t) (hsize : size' ≤ size)
    (hearned : earned' ≤ earned) (hmet : Met t size' earned') :
    highestTier tiers size' earned' = some t := by
  obtain ⟨before, after, heq, -, hnone⟩ := highestTier_eq_some.mp h
  exact highestTier_eq_some.mpr
    ⟨before, after, heq, hmet, fun u hu hu' => hnone u hu (hu'.mono hsize hearned)⟩

/-- In the order of `sortOrder` no tier that is met is above the highest one. -/
theorem sortOrder_le_highest (hsorted : tiers.Pairwise fun t t' => t.sortOrder ≤ t'.sortOrder)
    (h : highestTier tiers size earned = some t) (ht' : t' ∈ tiers) (hmet : Met t' size earned) :
    t'.sortOrder ≤ t.sortOrder := by
  obtain ⟨before, after, rfl, -, hnone⟩ := highestTier_eq_some.mp h
  rcases List.mem_append.mp ht' with hbefore | htail
  · exact (List.pairwise_append.mp hsorted).2.2 t' hbefore t List.mem_cons_self
  · rcases List.mem_cons.mp htail with rfl | hafter
    · exact le_rfl
    · exact absurd hmet (hnone t' hafter)

end Highest

/-! ## The displayed tier -/

section Displayed

variable (tiers : List Tier) (size earned : Int)

theorem currentIdx_concat (t : Tier) :
    currentIdx (tiers ++ [t]) size earned =
      if t.minTeam ≤ size ∧ t.minEarningsCents ≤ earned then (tiers.length : Int)
      else currentIdx tiers size earned := by
  unfold currentIdx
  rw [List.zipIdx_append, List.foldl_append]
  simp

theorem currentIdx_lt : currentIdx tiers size earned < tiers.length := by
  induction tiers using List.reverseRecOn with
  | nil => exact Int.negSucc_lt_zero 0
  | append_singleton tiers t ih =>
      rw [currentIdx_concat, List.length_append, List.length_singleton]
      split_ifs <;> omega

/-- The tier displayed is the tier that is paid for. -/
theorem displayedTier_eq : displayedTier tiers size earned = highestTier tiers size earned := by
  induction tiers using List.reverseRecOn with
  | nil => rfl
  | append_singleton tiers t ih =>
      have hlt := currentIdx_lt tiers size earned
      unfold displayedTier at ih ⊢
      rw [highestTier_concat, currentIdx_concat]
      split_ifs with hmet
      · simp
      · rw [← ih]
        simp only
        split_ifs with hidx
        · rw [List.getElem?_append_left]
          omega
        · rfl

theorem memberRank_displays {percent : Int → Int → Int} {registry : Registry}
    {rows : List LedgerEntry} {sales : List Sale} {tenantId membershipId : Uuid} {view : RankView}
    (h : memberRank percent registry rows sales tenantId membershipId = .ok view) :
    view.current = (resolveTier registry rows tenantId membershipId).map Tier.name ∧
      view.overrideBps = overrideBpsFor registry rows tenantId membershipId := by
  unfold memberRank at h
  unfold overrideBpsFor resolveTier
  cases hme : (registry.memberships.find? membershipId).filter (·.tenantId = tenantId) with
  | none =>
      rw [hme] at h
      cases h
  | some me =>
      rw [hme] at h
      cases h
      simp only [displayedTier_eq, and_self]

end Displayed

/-! ## Accepted tiers -/

section Accepted

/-- Within the limits of the endpoints. -/
structure Accepted (t : Tier) : Prop where
  sortOrder : 0 ≤ t.sortOrder ∧ t.sortOrder ≤ 100
  minTeam : 0 ≤ t.minTeam ∧ t.minTeam ≤ 1000000
  minEarningsCents : 0 ≤ t.minEarningsCents
  overrideBps : 0 ≤ t.overrideBps ∧ t.overrideBps ≤ 10000

def AllAccepted (table : Table RankTier) : Prop := ∀ t ∈ table, Accepted (tierOf t)

variable {table table' : Table RankTier} {tenantId id : Uuid}

theorem accepted_create {input : TierInput} (h : AllAccepted table)
    (hcreate : create tenantId id input table = .ok table') : AllAccepted table' := by
  unfold create at hcreate
  split_ifs at hcreate with hschema
  cases hcreate
  simp only [tierSchema, validSortOrder, validMinTeam, validMinEarnings, Bool.and_eq_true,
    decide_eq_true_eq] at hschema
  obtain ⟨⟨⟨⟨_, hsort⟩, hteam⟩, hearnings⟩, hrate⟩ := hschema
  cases hinsert : table.insert? ⟨id, tenantId, trim input.name, input.sortOrder, input.minTeam,
      input.minEarningsCents, input.overrideBps.getD 0⟩ with
  | none => exact h
  | some inserted =>
      intro t ht
      rcases (Table.mem_insert? hinsert).mp ht with hold | rfl
      · exact h t hold
      · refine ⟨hsort, hteam, hearnings, ?_⟩
        cases hbps : input.overrideBps with
        | none => simp [tierOf]
        | some bps =>
            rw [hbps] at hrate
            simpa [tierOf, hbps, validOverride] using hrate

theorem accepted_rewriteTier {input : TierUpdate} {t : RankTier} (h : Accepted (tierOf t))
    (hschema : tierUpdateSchema input) : Accepted (tierOf (rewriteTier input t)) := by
  simp only [tierUpdateSchema, Bool.and_eq_true] at hschema
  obtain ⟨⟨⟨⟨_, hsort⟩, hteam⟩, hearnings⟩, hrate⟩ := hschema
  constructor
  · cases heq : input.sortOrder with
    | none => simpa [tierOf, rewriteTier, heq] using h.sortOrder
    | some n => simpa [tierOf, rewriteTier, heq, validSortOrder] using hsort
  · cases heq : input.minTeam with
    | none => simpa [tierOf, rewriteTier, heq] using h.minTeam
    | some n => simpa [tierOf, rewriteTier, heq, validMinTeam] using hteam
  · cases heq : input.minEarningsCents with
    | none => simpa [tierOf, rewriteTier, heq] using h.minEarningsCents
    | some n => simpa [tierOf, rewriteTier, heq, validMinEarnings] using hearnings
  · cases heq : input.overrideBps with
    | none => simpa [tierOf, rewriteTier, heq] using h.overrideBps
    | some n => simpa [tierOf, rewriteTier, heq, validOverride] using hrate

theorem accepted_update {input : TierUpdate} (h : AllAccepted table)
    (hupdate : update tenantId id input table = .ok table') : AllAccepted table' := by
  unfold update at hupdate
  split_ifs at hupdate with hschema
  cases hfound : (table.find? id).filter (·.tenantId = tenantId) with
  | none =>
      rw [hfound] at hupdate
      cases hupdate
  | some found =>
      rw [hfound] at hupdate
      cases hupdate
      intro t ht
      rw [Table.mem_def, Table.rows_updateKey] at ht
      obtain ⟨u, hu, rfl⟩ := List.mem_map.mp ht
      split_ifs
      · exact accepted_rewriteTier (h u hu) hschema
      · exact h u hu

theorem accepted_remove (h : AllAccepted table)
    (hremove : remove tenantId id table = .ok table') : AllAccepted table' := by
  unfold remove at hremove
  cases hfound : (table.find? id).filter (·.tenantId = tenantId) with
  | none =>
      rw [hfound] at hremove
      cases hremove
  | some found =>
      rw [hfound] at hremove
      cases hremove
      exact fun t ht => h t (Table.mem_filter.mp ht).1

theorem accepted_step (step : LadderStep) (h : AllAccepted table) :
    AllAccepted (step.apply table) := by
  cases step with
  | create tenantId id input =>
      cases hcreate : create tenantId id input table with
      | error e => simpa [LadderStep.apply, hcreate, Except.toOption] using h
      | ok table' => simpa [LadderStep.apply, hcreate, Except.toOption] using accepted_create h hcreate
  | update tenantId id input =>
      cases hupdate : update tenantId id input table with
      | error e => simpa [LadderStep.apply, hupdate, Except.toOption] using h
      | ok table' => simpa [LadderStep.apply, hupdate, Except.toOption] using accepted_update h hupdate
  | remove tenantId id =>
      cases hremove : remove tenantId id table with
      | error e => simpa [LadderStep.apply, hremove, Except.toOption] using h
      | ok table' => simpa [LadderStep.apply, hremove, Except.toOption] using accepted_remove h hremove

theorem accepted_run (steps : List LadderStep) (h : AllAccepted table) :
    AllAccepted (run LadderStep.apply steps table) := by
  induction steps generalizing table with
  | nil => exact h
  | cons step steps ih => exact ih (accepted_step step h)

/-! ## Readings -/

instance : Std.Total bySortOrder := ⟨fun t t' => le_total t.sortOrder t'.sortOrder⟩

instance : IsTrans RankTier bySortOrder := ⟨fun _ _ _ h h' => le_trans h h'⟩

/-- The model's own reading is one of those the database may give. -/
theorem readsAs_effectiveTiers (registry : Registry) (tenantId : Uuid) :
    ReadsAs registry.rankTiers tenantId (effectiveTiers registry tenantId) := by
  unfold ReadsAs effectiveTiers
  have hperm := List.perm_insertionSort bySortOrder
    (registry.rankTiers.rows.filter (·.tenantId = tenantId))
  have hsorted := List.pairwise_insertionSort bySortOrder
    (registry.rankTiers.rows.filter (·.tenantId = tenantId))
  split_ifs with hnone
  · rw [hnone]
    rfl
  · split
    · rename_i hsort
      rw [hsort] at hperm
      exact absurd hperm.symm.eq_nil hnone
    · exact ⟨hperm.map _, List.pairwise_map.mpr hsorted⟩

variable {tiers tiers' : List Tier}

theorem ReadsAs.perm (h : ReadsAs table tenantId tiers) (h' : ReadsAs table tenantId tiers') :
    tiers.Perm tiers' := by
  unfold ReadsAs at h h'
  split_ifs at h h'
  · rw [h, h']
  · exact h.1.trans h'.1.symm

theorem ReadsAs.sorted (h : ReadsAs table tenantId tiers) :
    tiers.Pairwise fun t t' => t.sortOrder ≤ t'.sortOrder := by
  unfold ReadsAs at h
  split_ifs at h
  · rw [h]
    decide
  · exact h.2

theorem ReadsAs.accepted (h : ReadsAs table tenantId tiers) (htable : AllAccepted table) :
    ∀ t ∈ tiers, Accepted t := by
  intro t ht
  unfold ReadsAs at h
  split_ifs at h
  · have hdefault : ∀ t ∈ DEFAULT_TIERS, (0 ≤ t.sortOrder ∧ t.sortOrder ≤ 100) ∧
        (0 ≤ t.minTeam ∧ t.minTeam ≤ 1000000) ∧ 0 ≤ t.minEarningsCents ∧
        0 ≤ t.overrideBps ∧ t.overrideBps ≤ 10000 := by decide
    obtain ⟨hsort, hteam, hearnings, hrate⟩ := hdefault t (h ▸ ht)
    exact ⟨hsort, hteam, hearnings, hrate⟩
  · obtain ⟨r, hr, rfl⟩ := List.mem_map.mp (h.1.mem_iff.mp ht)
    exact htable r (List.mem_of_mem_filter hr)

end Accepted

/-! ## Growth -/

section Growth

/-- The rate of a member with this tier. -/
def rateOf (tier : Option Tier) : Int := (tier.map Tier.overrideBps).getD 0

/-- With no smaller team and no smaller earnings a member has a tier again, and none below. -/
def GrowthKeepsPlace (tiers tiers' : List Tier) : Prop :=
  ∀ size size' earned earned', size ≤ size' → earned ≤ earned' →
    ∀ t, highestTier tiers size earned = some t →
      ∃ t', highestTier tiers' size' earned' = some t' ∧ t.sortOrder ≤ t'.sortOrder

def GrowthKeepsRate (tiers tiers' : List Tier) : Prop :=
  ∀ size size' earned earned', size ≤ size' → earned ≤ earned' →
    rateOf (highestTier tiers size earned) ≤ rateOf (highestTier tiers' size' earned')

/-- Of two tiers, the first the highest at its own thresholds and the second the highest at the
thresholds of both, the second pays no less. -/
def PaysUpward (tiers tiers' : List Tier) : Prop :=
  ∀ t ∈ tiers, ∀ t' ∈ tiers', highestTier tiers t.minTeam t.minEarningsCents = some t →
    highestTier tiers' (max t.minTeam t'.minTeam)
      (max t.minEarningsCents t'.minEarningsCents) = some t' →
    t.overrideBps ≤ t'.overrideBps

instance (tiers tiers' : List Tier) : Decidable (PaysUpward tiers tiers') :=
  inferInstanceAs (Decidable (∀ t ∈ tiers, ∀ t' ∈ tiers', _ → _ → _))

variable {tiers tiers' : List Tier}

theorem growthKeepsPlace (hperm : tiers.Perm tiers')
    (hsorted : tiers'.Pairwise fun t t' => t.sortOrder ≤ t'.sortOrder) :
    GrowthKeepsPlace tiers tiers' := by
  intro size size' earned earned' hsize hearned t ht
  obtain ⟨_, _, _, hmet, _⟩ := highestTier_eq_some.mp ht
  have hmem : t ∈ tiers' := hperm.mem_iff.mp (highestTier_mem ht)
  have hmet' := hmet.mono hsize hearned
  obtain ⟨t', ht'⟩ := exists_highestTier hmem hmet'
  exact ⟨t', ht', sortOrder_le_highest hsorted ht' hmem hmet'⟩

theorem growthKeepsRate_iff (hperm : tiers.Perm tiers') (hrates : ∀ t ∈ tiers, 0 ≤ t.overrideBps) :
    GrowthKeepsRate tiers tiers' ↔ PaysUpward tiers tiers' := by
  constructor
  · intro h t _ t' _ ht ht'
    have hrate := h _ _ _ _ (le_max_left t.minTeam t'.minTeam)
      (le_max_left t.minEarningsCents t'.minEarningsCents)
    rw [ht, ht'] at hrate
    exact hrate
  · intro h size size' earned earned' hsize hearned
    cases ht : highestTier tiers size earned with
    | none =>
        cases ht' : highestTier tiers' size' earned' with
        | none => exact le_rfl
        | some t' => exact hrates t' (hperm.mem_iff.mpr (highestTier_mem ht'))
    | some t =>
        obtain ⟨_, _, _, hmet, _⟩ := highestTier_eq_some.mp ht
        obtain ⟨t', ht'⟩ :=
          exists_highestTier (hperm.mem_iff.mp (highestTier_mem ht)) (hmet.mono hsize hearned)
        obtain ⟨_, _, _, hmet', _⟩ := highestTier_eq_some.mp ht'
        rw [ht']
        refine h t (highestTier_mem ht) t' (highestTier_mem ht') ?_ ?_
        · exact highestTier_below ht hmet.1 hmet.2 (met_self t)
        -- where both tiers are met, the larger team and earnings are not needed
        · exact highestTier_below ht' (max_le (hmet.1.trans hsize) hmet'.1)
            (max_le (hmet.2.trans hearned) hmet'.2) ⟨le_max_right _ _, le_max_right _ _⟩

end Growth

end Refearn.Ranks
