import Refearn.Campaigns.Campaigns
import Refearn.Engine.Proofs.Commissions
/-!
# Finalising and awards
-/

/-!
## What a finalisation does

A finalisation that commits has ended a campaign that was open, and has added to the ledger
one row for each prize of the standings, computed from the campaign as the call had read it.
-/

namespace Refearn.Campaigns

open Support Support.Transaction Engine

/-- The row of one prize. -/
def prizeRow (tenantId : Uuid) (c : Campaign) (month : String) (actorUserId : Option Uuid)
    (now : Instant) (s : Standing) (id : Uuid) : LedgerEntry :=
  bonusRow (bonusParams tenantId c month actorUserId s) now id

/-- The campaigns after a claim. -/
def claimedCampaigns (campaigns : Table Campaign) (id tenantId : Uuid) (now : Instant) :
    Table Campaign :=
  campaigns.updateWhere (isClaimable id tenantId) (Campaign.ended now)
    (Campaign.keepsIndexes_ended now)

/-- The campaigns after a finalisation. -/
def endedCampaigns (campaigns : Table Campaign) (c : Campaign) (tenantId : Uuid) (now : Instant)
    (results : List Standing) : Table Campaign :=
  (claimedCampaigns campaigns c.id tenantId now).updateKey c.id (Campaign.withResults results)
    (Campaign.keepsIndexes_withResults results)

section Finalise

variable {env : Env} {order : GroupOrder} {tenantId : Uuid} {c : Campaign}
  {actorUserId : Option Uuid} {now : Instant} {month : String} {t t' : CampaignSession}

theorem commits_claimCampaign {id : Uuid} {u : PUnit} :
    Commits (claimCampaign id tenantId now) t u t' ↔
      t.campaigns.rows.countP (isClaimable id tenantId) = 1 ∧
        { t with campaigns := claimedCampaigns t.campaigns id tenantId now } = t' := by
  unfold claimCampaign
  simp only [commits_bind, commits_get, commits_require, commits_set]
  constructor
  · rintro ⟨_, _, ⟨rfl, rfl⟩, _, _, ⟨hcount, rfl⟩, rfl⟩
    exact ⟨hcount, rfl⟩
  · rintro ⟨hcount, rfl⟩
    exact ⟨_, _, ⟨rfl, rfl⟩, ⟨⟩, _, ⟨hcount, rfl⟩, rfl⟩

/-- One pass of the loop adds the row of the prize, if there is one. -/
theorem commits_awardStanding {s : Standing}
    (h : Commits (awardStanding tenantId c month actorUserId now s) t ⟨⟩ t') :
    t'.campaigns = t.campaigns ∧ t'.invites = t.invites ∧
      ∃ rows, t'.session.db.ledger.rows = t.session.db.ledger.rows ++ rows ∧
        Drawn (prizeRow tenantId c month actorUserId now) ([s].filter Standing.isAwarded) rows := by
  unfold awardStanding at h
  rw [commits_ite] at h
  rcases h with ⟨hawarded, h⟩ | ⟨hnone, h⟩
  · simp only [commits_bind, commits_inEngine, commits_pure] at h
    obtain ⟨id, _, ⟨session, haward, rfl⟩, -, rfl⟩ := h
    obtain ⟨rowId, hledger⟩ := (commits_awardBonus haward).ledger
    refine ⟨rfl, rfl, [prizeRow tenantId c month actorUserId now s rowId], hledger, ?_⟩
    rw [List.filter_cons_of_pos hawarded, List.filter_nil]
    exact Drawn.nil.cons
  · obtain ⟨-, rfl⟩ := (commits_pure ..).mp h
    refine ⟨rfl, rfl, [], (List.append_nil _).symm, ?_⟩
    rw [List.filter_cons_of_neg hnone, List.filter_nil]
    exact Drawn.nil

/-- The whole loop adds one row for each prize. -/
theorem commits_awards {ranked : List Standing}
    (h : (forM ranked (awardStanding tenantId c month actorUserId now)).Commits t ⟨⟩ t') :
    t'.campaigns = t.campaigns ∧ t'.invites = t.invites ∧
      ∃ rows, t'.session.db.ledger.rows = t.session.db.ledger.rows ++ rows ∧
        Drawn (prizeRow tenantId c month actorUserId now) (ranked.filter Standing.isAwarded)
          rows := by
  let I : List Standing → CampaignSession → Prop := fun rest u =>
    u.campaigns = t.campaigns ∧ u.invites = t.invites ∧
      ∃ done rows, ranked = done ++ rest ∧
        u.session.db.ledger.rows = t.session.db.ledger.rows ++ rows ∧
          Drawn (prizeRow tenantId c month actorUserId now) (done.filter Standing.isAwarded) rows
  have hend : I [] t' := by
    refine Commits.forM I ?_ h ⟨rfl, rfl, [], [], rfl, (List.append_nil _).symm, Drawn.nil⟩
    rintro s rest u u' ⟨hcampaigns, hinvites, done, rows, hranked, hledger, hdrawn⟩ hone
    obtain ⟨hcampaigns', hinvites', new, hledger', hdrawn'⟩ := commits_awardStanding hone
    refine ⟨hcampaigns'.trans hcampaigns, hinvites'.trans hinvites, done ++ [s], rows ++ new, ?_,
      ?_, ?_⟩
    · rw [hranked, List.append_assoc, List.singleton_append]
    · rw [hledger', hledger, List.append_assoc]
    · rw [List.filter_append]
      exact hdrawn.append hdrawn'
  obtain ⟨hcampaigns, hinvites, done, rows, hranked, hledger, hdrawn⟩ := hend
  rw [List.append_nil] at hranked
  rw [hranked]
  exact ⟨hcampaigns, hinvites, rows, hledger, hdrawn⟩

/-- What a finalisation that commits has done. -/
structure Finalised (order : GroupOrder) (tenantId : Uuid) (c : Campaign) (now : Instant)
    (t t' : CampaignSession) : Prop where
  claimed : t.campaigns.rows.countP (isClaimable c.id tenantId) = 1
  campaigns : ∃ results, t'.campaigns = endedCampaigns t.campaigns c tenantId now results
  paid : ∃ month actorUserId rows,
    t'.session.db.ledger.rows = t.session.db.ledger.rows ++ rows ∧
      Drawn (prizeRow tenantId c month actorUserId now)
        ((standings order ⟨t.session.db, t.invites⟩ tenantId c).filter Standing.isAwarded) rows

theorem commits_doFinalize {ranked : List Standing}
    (h : Commits (doFinalizeInTransaction env order tenantId c actorUserId now) t ranked t') :
    Finalised order tenantId c now t t' := by
  unfold doFinalizeInTransaction findTenant storeResults at h
  simp only [commits_bind, commits_inEngine, commits_readDb, commits_orThrow,
    commits_claimCampaign, commits_readBooks, commits_modify, commits_audit, commits_pure] at h
  obtain ⟨tenant, _, ⟨_, ⟨_, _, ⟨rfl, rfl⟩, -, rfl⟩, rfl⟩, _, _, ⟨hclaimed, rfl⟩, _, _, ⟨rfl, rfl⟩,
    _, u, hloop, _, _, rfl, _, _, ⟨_, rfl, rfl⟩, rfl, rfl⟩ := h
  obtain ⟨hcampaigns, -, rows, hledger, hdrawn⟩ := commits_awards hloop
  refine ⟨hclaimed, ⟨standings order ⟨t.session.db, t.invites⟩ tenantId c, ?_⟩,
    ⟨_, actorUserId, rows, hledger, hdrawn⟩⟩
  dsimp only
  rw [hcampaigns]
  rfl

end Finalise

end Refearn.Campaigns

/-!
## Prizes over whole runs

The claim of a finalisation names the statuses it ends, so of two finalisations one pays. The
statement of an edit names the campaign alone, and the prizes are those of the campaign as it
was read: as long as no edit meets an ended campaign and no finalisation one whose terms have
changed, each campaign pays once, what it stores.
-/

namespace Refearn.Campaigns

open Support Support.Transaction Engine

/-! ## What is promised -/

/-- What the prizes of a campaign depend on. -/
structure SameTerms (c c' : Campaign) : Prop where
  metric : c.metric = c'.metric
  startsAt : c.startsAt = c'.startsAt
  endsAt : c.endsAt = c'.endsAt
  prizes : c.prizes = c'.prizes

instance (c c' : Campaign) : Decidable (SameTerms c c') :=
  decidable_of_iff (c.metric = c'.metric ∧ c.startsAt = c'.startsAt ∧ c.endsAt = c'.endsAt ∧
    c.prizes = c'.prizes) ⟨fun h => ⟨h.1, h.2.1, h.2.2.1, h.2.2.2⟩, fun h => ⟨h.1, h.2, h.3, h.4⟩⟩

/-- The ledger rows of a payment are the prizes of the standings of the campaign as it was stored
when it ended. -/
def PaidAsStored (p : Payment) : Prop :=
  p.campaign.isOpen = true ∧ ∃ order month actorUserId now,
    Drawn (prizeRow p.campaign.tenantId p.campaign month actorUserId now)
      ((standings order p.books p.campaign.tenantId p.campaign).filter Standing.isAwarded) p.rows

/-- A campaign that has ended is still there, and ended. -/
def EndedKept (campaigns campaigns' : Table Campaign) : Prop :=
  ∀ c ∈ campaigns, c.status = .ended → ∃ c' ∈ campaigns', c'.id = c.id ∧ c'.status = .ended

/-- An edit meets a campaign that has not ended, and a finalisation one whose terms are those
that it has read. -/
def MeetsAsRead (step : CampaignStep) (w : CampaignWorld) : Prop :=
  match step with
  | .commitUpdate i =>
      ∀ call ∈ w.updates[i]?, ∀ c ∈ w.campaigns, c.id = call.id → c.status ≠ .ended
  | .commitFinalize i .. =>
      ∀ call ∈ w.finalizations[i]?, ∀ c ∈ w.campaigns, c.id = call.campaign.id →
        c.status ≠ .ended → SameTerms call.campaign c
  | _ => True

instance decidableMeetsAsRead : ∀ (step : CampaignStep) (w : CampaignWorld),
    Decidable (MeetsAsRead step w)
  | .commitUpdate i, w => inferInstanceAs (Decidable (∀ call ∈ w.updates[i]?,
      ∀ c ∈ w.campaigns, c.id = call.id → c.status ≠ .ended))
  | .commitFinalize i .., w => inferInstanceAs (Decidable (∀ call ∈ w.finalizations[i]?,
      ∀ c ∈ w.campaigns, c.id = call.campaign.id → c.status ≠ .ended →
        SameTerms call.campaign c))
  | .others _, _ | .create _, _ | .openUpdate .., _ | .openFinalize .., _
  | .openAutoFinalize _, _ => .isTrue trivial

structure PrizesOnce (w : CampaignWorld) : Prop where
  ended : ∀ p ∈ w.payments, ∃ c ∈ w.campaigns, c.id = p.campaign.id ∧ c.status = .ended
  once : (w.payments.map fun p => p.campaign.id).Nodup
  asStored : ∀ p ∈ w.payments, PaidAsStored p

/-! ## Terms -/

theorem scoresOf_of_terms {books : Books} {tenantId : Uuid} {c c' : Campaign}
    (h : SameTerms c c') : scoresOf books tenantId c = scoresOf books tenantId c' := by
  unfold scoresOf salesOf Campaign.inWindow
  rw [h.metric, h.startsAt, h.endsAt]

theorem standings_of_terms {order : GroupOrder} {books : Books} {tenantId : Uuid}
    {c c' : Campaign} (h : SameTerms c c') :
    standings order books tenantId c = standings order books tenantId c' := by
  have hstanding : standing books c = standing books c' := by
    funext i s
    unfold standing
    rw [h.prizes]
  unfold standings scored
  rw [scoresOf_of_terms h, hstanding]

/-! ## Campaigns that have ended -/

theorem EndedKept.refl (campaigns : Table Campaign) : EndedKept campaigns campaigns :=
  fun c hc hended => ⟨c, hc, rfl, hended⟩

theorem EndedKept.trans {a b c : Table Campaign} (h : EndedKept a b) (h' : EndedKept b c) :
    EndedKept a c := by
  intro x hx hended
  obtain ⟨y, hy, hid, hended'⟩ := h x hx hended
  obtain ⟨z, hz, hid', hended''⟩ := h' y hy hended'
  exact ⟨z, hz, hid'.trans hid, hended''⟩

theorem endedKept_of_rows {campaigns campaigns' : Table Campaign} {f : Campaign → Campaign}
    (hrows : campaigns'.rows = campaigns.rows.map f) (hid : ∀ c, (f c).id = c.id)
    (hended : ∀ c ∈ campaigns, c.status = .ended → (f c).status = .ended) :
    EndedKept campaigns campaigns' := by
  intro c hc hstatus
  refine ⟨f c, ?_, hid c, hended c hc hstatus⟩
  rw [Table.mem_def, hrows]
  exact List.mem_map_of_mem hc

theorem endedKept_update {campaigns : Table Campaign} {call : OpenUpdate}
    (h : ∀ c ∈ campaigns, c.id = call.id → c.status ≠ .ended) :
    EndedKept campaigns (updateCampaign call.id call.input campaigns) := by
  unfold updateCampaign
  refine endedKept_of_rows (Table.rows_updateKey ..) (fun c => ?_) fun c hc hended => ?_
  · split_ifs <;> rfl
  · have hother : ¬key c = call.id := fun hid => h c hc hid hended
    rw [if_neg hother]
    exact hended

theorem endedKept_finalised {campaigns : Table Campaign} (c : Campaign) (tenantId : Uuid)
    (now : Instant) (results : List Standing) :
    EndedKept campaigns (endedCampaigns campaigns c tenantId now results) := by
  have hclaimed : EndedKept campaigns (claimedCampaigns campaigns c.id tenantId now) := by
    refine endedKept_of_rows (Table.rows_updateWhere ..) (fun c => ?_) fun c hc hended => ?_
    · split_ifs <;> rfl
    · split_ifs
      · rfl
      · exact hended
  refine hclaimed.trans (endedKept_of_rows (Table.rows_updateKey ..) (fun c => ?_)
    fun c hc hended => ?_)
  · split_ifs <;> rfl
  · split_ifs
    · exact hended
    · exact hended

/-- The campaign that a finalisation has claimed was open, and has ended. -/
theorem claimed_campaign {campaigns : Table Campaign} {c : Campaign} {tenantId : Uuid}
    {now : Instant} {results : List Standing}
    (h : campaigns.rows.countP (isClaimable c.id tenantId) = 1) :
    ∃ stored ∈ campaigns, stored.id = c.id ∧ stored.tenantId = tenantId ∧ stored.isOpen = true ∧
      ∃ c' ∈ endedCampaigns campaigns c tenantId now results,
        c'.id = c.id ∧ c'.status = .ended := by
  have hpos : 0 < campaigns.rows.countP (isClaimable c.id tenantId) := by
    rw [h]
    exact Nat.one_pos
  obtain ⟨stored, hstored, hclaimable⟩ := List.countP_pos_iff.mp hpos
  have hfields := hclaimable
  simp only [isClaimable, Bool.and_eq_true, beq_iff_eq] at hfields
  obtain ⟨⟨hid, htenant⟩, hopen⟩ := hfields
  refine ⟨stored, hstored, hid, htenant, hopen, (stored.ended now).withResults results, ?_, hid, rfl⟩
  unfold endedCampaigns claimedCampaigns
  rw [Table.mem_def, Table.rows_updateKey, Table.rows_updateWhere, List.map_map]
  refine List.mem_map.mpr ⟨stored, hstored, ?_⟩
  rw [Function.comp_apply, if_pos hclaimable]
  exact if_pos hid

/-! ## Steps -/

theorem PrizesOnce.of_kept {w w' : CampaignWorld} (h : PrizesOnce w)
    (hpayments : w'.payments = w.payments) (hkept : EndedKept w.campaigns w'.campaigns) :
    PrizesOnce w' where
  ended p hp := by
    rw [hpayments] at hp
    obtain ⟨c, hc, hid, hended⟩ := h.ended p hp
    obtain ⟨c', hc', hid', hended'⟩ := hkept c hc hended
    exact ⟨c', hc', hid'.trans hid, hended'⟩
  once := by
    rw [hpayments]
    exact h.once
  asStored := by
    rw [hpayments]
    exact h.asStored

/-- The payment of a finalisation that has met the terms it had read. -/
theorem paidAsStored_of_finalised {w : CampaignWorld} {c stored : Campaign} {tenantId : Uuid}
    {order : GroupOrder} {now : Instant} {uuids : Nat → Uuid} {t : CampaignSession}
    (h : Finalised order tenantId c now (w.session uuids) t) (hopen : stored.isOpen = true)
    (htenant : stored.tenantId = tenantId) (hterms : SameTerms c stored) :
    PaidAsStored ⟨stored, w.books,
      t.session.db.ledger.rows.drop w.books.db.ledger.rows.length⟩ := by
  obtain ⟨month, actorUserId, rows, hledger, hdrawn⟩ := h.paid
  have hrows : t.session.db.ledger.rows.drop w.books.db.ledger.rows.length = rows := by
    rw [hledger]
    exact List.drop_left
  refine ⟨hopen, order, month, actorUserId, now, ?_⟩
  dsimp only
  rw [hrows, htenant, ← standings_of_terms hterms]
  exact hdrawn

theorem PrizesOnce.finalised {w : CampaignWorld} (h : PrizesOnce w) {call : OpenFinalize}
    {order : GroupOrder} {now : Instant} {uuids : Nat → Uuid} {t : CampaignSession}
    (hdone : Finalised order call.tenantId call.campaign now (w.session uuids) t)
    (hterms : ∀ c ∈ w.campaigns, c.id = call.campaign.id → c.status ≠ .ended →
      SameTerms call.campaign c) : PrizesOnce (w.finalized call.campaign t) := by
  obtain ⟨results, hcampaigns⟩ := hdone.campaigns
  obtain ⟨stored, hstored, hid, htenant, hopen, c', hc', hid', hended'⟩ :=
    claimed_campaign hdone.claimed
  have hfind : w.campaigns.find? call.campaign.id = some stored :=
    Table.find?_eq_some.mpr ⟨hstored, hid⟩
  have hnot : stored.status ≠ .ended := by
    intro hended
    unfold Campaign.isOpen at hopen
    rw [hended] at hopen
    cases hopen
  have hpayments : (w.finalized call.campaign t).payments = w.payments ++ [⟨stored, w.books,
      t.session.db.ledger.rows.drop w.books.db.ledger.rows.length⟩] := by
    unfold CampaignWorld.finalized
    rw [hfind]
    rfl
  have hkept : EndedKept w.campaigns t.campaigns := by
    rw [hcampaigns]
    exact endedKept_finalised call.campaign call.tenantId now results
  have hmem : c' ∈ t.campaigns := hcampaigns ▸ hc'
  constructor
  · intro p hp
    rw [hpayments, List.mem_append, List.mem_singleton] at hp
    rcases hp with hold | rfl
    · obtain ⟨c, hc, hcid, hended⟩ := h.ended p hold
      obtain ⟨d, hd, hdid, hdended⟩ := hkept c hc hended
      exact ⟨d, hd, hdid.trans hcid, hdended⟩
    · exact ⟨c', hmem, hid'.trans hid.symm, hended'⟩
  · rw [hpayments, List.map_append, List.nodup_append]
    refine ⟨h.once, List.nodup_singleton _, ?_⟩
    intro a ha b hb heq
    obtain ⟨p, hp, rfl⟩ := List.mem_map.mp ha
    have hb' : b = stored.id := List.mem_singleton.mp hb
    -- what has been paid before has ended, and the stored campaign had not
    obtain ⟨c, hc, hcid, hended⟩ := h.ended p hp
    have hsame : c = stored := Table.eq_of_key hc hstored (hcid.trans (heq.trans hb'))
    exact hnot (hsame ▸ hended)
  · intro p hp
    rw [hpayments, List.mem_append, List.mem_singleton] at hp
    rcases hp with hold | rfl
    · exact h.asStored p hold
    · exact paidAsStored_of_finalised hdone hopen htenant (hterms stored hstored hid hnot)

theorem commitFinalize_cases (env : Env) (w : CampaignWorld) (call : OpenFinalize)
    (order : GroupOrder) (now : Instant) (uuids : Nat → Uuid) :
    w.commitFinalize env call order now uuids = w ∨
      ∃ t, Finalised order call.tenantId call.campaign now (w.session uuids) t ∧
        w.commitFinalize env call order now uuids = w.finalized call.campaign t := by
  unfold CampaignWorld.commitFinalize
  split
  · rename_i ranked t hrun
    have hcommits : Commits (doFinalizeInTransaction env order call.tenantId call.campaign
      call.actorUserId now) (w.session uuids) ranked t := hrun
    exact .inr ⟨t, commits_doFinalize hcommits, rfl⟩
  · exact .inl rfl

theorem endedKept_step {env : Env} {w : CampaignWorld} (step : CampaignStep)
    (hstep : MeetsAsRead step w) : EndedKept w.campaigns (step.apply env w).campaigns := by
  cases step with
  | create c =>
      unfold CampaignStep.apply
      dsimp only
      split
      · intro d hd hended
        exact ⟨d, (Table.mem_insert? ‹_›).mpr (.inl hd), rfl, hended⟩
      · exact .refl _
  | commitUpdate i =>
      unfold CampaignStep.apply
      dsimp only
      split
      · rename_i call hcall
        exact endedKept_update (hstep call hcall)
      · exact .refl _
  | commitFinalize i order now uuids =>
      unfold CampaignStep.apply
      dsimp only
      split
      · rename_i call hcall
        rcases commitFinalize_cases env w call order now uuids with hsame | ⟨t, hdone, heq⟩
        · rw [hsame]
          exact .refl _
        · obtain ⟨results, hcampaigns⟩ := hdone.campaigns
          rw [heq]
          change EndedKept w.campaigns t.campaigns
          rw [hcampaigns]
          exact endedKept_finalised call.campaign call.tenantId now results
      · exact .refl _
  | openUpdate tenantId id input =>
      unfold CampaignStep.apply
      dsimp only
      split
      · split <;> exact .refl _
      · exact .refl _
  | openFinalize tenantId id actorUserId =>
      unfold CampaignStep.apply
      dsimp only
      split <;> exact .refl _
  | _ => exact .refl _

theorem payments_step {env : Env} {w : CampaignWorld} {step : CampaignStep}
    (h : ∀ i order now uuids, step ≠ .commitFinalize i order now uuids) :
    (step.apply env w).payments = w.payments := by
  cases step with
  | commitFinalize i order now uuids => exact absurd rfl (h i order now uuids)
  | openUpdate tenantId id input =>
      unfold CampaignStep.apply
      dsimp only
      split
      · split <;> rfl
      · rfl
  | others books => rfl
  | openAutoFinalize now => rfl
  | _ =>
      unfold CampaignStep.apply
      dsimp only
      split <;> rfl

theorem PrizesOnce.step {env : Env} {w : CampaignWorld} (h : PrizesOnce w) (step : CampaignStep)
    (hstep : MeetsAsRead step w) : PrizesOnce (step.apply env w) := by
  by_cases hcommit : ∃ i order now uuids, step = .commitFinalize i order now uuids
  · obtain ⟨i, order, now, uuids, rfl⟩ := hcommit
    unfold CampaignStep.apply
    dsimp only
    split
    · rename_i call hcall
      rcases commitFinalize_cases env w call order now uuids with hsame | ⟨t, hdone, heq⟩
      · rw [hsame]
        exact h.of_kept rfl (.refl _)
      · rw [heq]
        have hpaid := h.finalised hdone (hstep call hcall)
        exact ⟨hpaid.ended, hpaid.once, hpaid.asStored⟩
    · exact h
  · refine h.of_kept (payments_step fun i order now uuids heq => ?_) (endedKept_step step hstep)
    exact hcommit ⟨i, order, now, uuids, heq⟩

/-! ## Runs -/

/-- Every edit and every finalisation of the run meets its campaign as it was read. -/
def AllMeetAsRead (env : Env) (steps : List CampaignStep) (w : CampaignWorld) : Prop :=
  Throughout (CampaignStep.apply env) MeetsAsRead steps w

theorem endedKept_run {env : Env} {w : CampaignWorld} {steps : List CampaignStep}
    (hsteps : AllMeetAsRead env steps w) :
    EndedKept w.campaigns (run (CampaignStep.apply env) steps w).campaigns :=
  Throughout.relation (R := fun w w' : CampaignWorld => EndedKept w.campaigns w'.campaigns)
    (fun w => .refl w.campaigns) (fun _ _ _ h h' => h.trans h')
    (fun step _ hstep => endedKept_step step hstep) hsteps

/-- What holds of the campaigns and their prizes: each campaign has paid at most once, what it
stored when it ended, and one that has ended stays so however a run goes on that meets
campaigns as they were read. -/
structure CampaignsHold (env : Env) (w : CampaignWorld) : Prop where
  prizes : PrizesOnce w
  terminal : ∀ later, AllMeetAsRead env later w →
    EndedKept w.campaigns (run (CampaignStep.apply env) later w).campaigns

/-- In every run whose edits and finalisations meet their campaigns as they were read, each
campaign awards its prizes once and as stored, and stays ended. -/
theorem prizes_awarded_once (env : Env) (w₀ : CampaignWorld) (h₀ : w₀.payments = [])
    (steps : List CampaignStep) (hsteps : AllMeetAsRead env steps w₀) :
    CampaignsHold env (run (CampaignStep.apply env) steps w₀) := by
  have hstart : PrizesOnce w₀ := by
    constructor <;> rw [h₀]
    · exact fun p hp => absurd hp List.not_mem_nil
    · exact List.nodup_nil
    · exact fun p hp => absurd hp List.not_mem_nil
  have hend : PrizesOnce (run (CampaignStep.apply env) steps w₀) :=
    Throughout.invariant (fun step _ hstep h => h.step step hstep) hsteps hstart
  exact ⟨hend, fun _ hlater => endedKept_run hlater⟩

namespace Demo

open Engine.Demo (env registry uuidsFrom)

def asGrouped : GroupOrder := ⟨id, fun scores => List.Perm.refl scores⟩

/-- A race for recruits with a prize for the first place. -/
def race : Campaign where
  id := 50
  tenantId := 1
  name := "R"
  description := none
  metric := .newRecruits
  startsAt := 0
  endsAt := 10
  status := .draft
  prizes := [⟨1, 500⟩]
  results := none
  finalizedAt := none
  createdAt := 0

def noCampaigns : CampaignWorld := ⟨⟨Engine.Demo.empty, []⟩, .empty, [], [], []⟩

def activate : UpdateCampaignInput := ⟨none, none, none, none, none, none, some .active⟩

/-- The race is activated and finalised. -/
def finalisedOnce : List CampaignStep :=
  [.create race, .openUpdate 1 50 activate, .commitUpdate 0, .openFinalize 1 50 10,
    .commitFinalize 0 asGrouped 20 (uuidsFrom 100)]

/-- The race ends between the checks of an edit and its statement. -/
def reopened : List CampaignStep :=
  [.create race, .openUpdate 1 50 activate, .openFinalize 1 50 10,
    .commitFinalize 0 asGrouped 20 (uuidsFrom 100), .commitUpdate 0, .openFinalize 1 50 10,
    .commitFinalize 0 asGrouped 30 (uuidsFrom 200)]

end Demo

/-- A race that is activated and finalised pays the one prize it has. -/
theorem prizes_awarded_once_race :
    let w := run (CampaignStep.apply Engine.Demo.env) Demo.finalisedOnce Demo.noCampaigns
    w.payments.map (fun p => p.rows.map LedgerEntry.amountCents) = [[500]] ∧
      CampaignsHold Engine.Demo.env w := by
  refine ⟨by decide +kernel, prizes_awarded_once Engine.Demo.env _ rfl _ ?_⟩
  unfold AllMeetAsRead
  decide +kernel

/-- The edit reopens the race, and its prize is paid twice. -/
theorem reopened_race_pays_twice :
    ¬∀ steps, ((run (CampaignStep.apply Engine.Demo.env) steps Demo.noCampaigns).payments.map
      fun p => p.campaign.id).Nodup := by
  intro h
  have htwice := h Demo.reopened
  revert htwice
  decide +kernel

end Refearn.Campaigns
