import Refearn.Engine.Proofs.Books
/-!
# Totals over summaries and over the ledger

Summaries and rows agree key by key, so they agree when they are added up over any
choice of members. A payout that has been paid is worth the rows that are linked to it.
-/

namespace Refearn.Engine

open Support

/-! ## Choices of members -/

/-- A bucket of the summaries of the chosen members. -/
def summaryTotal (db : Db) (P : Uuid → Uuid → Bool) (b : Bucket) : Int :=
  ((db.summaries.rows.filter (fun s => P s.key.tenantId s.key.membershipId)).map
    (summaryBucket · b)).sum

/-- The rows of the chosen members with the status of a bucket. -/
def ledgerTotal (db : Db) (P : Uuid → Uuid → Bool) (b : Bucket) : Int :=
  ((db.ledger.rows.filter (fun r => P r.tenantId r.beneficiaryMembershipId &&
    statusBucket r.status = some b)).map LedgerEntry.amountCents).sum

/-- The keys of the chosen members that a summary or a row has. -/
def chosenKeys (db : Db) (P : Uuid → Uuid → Bool) : List SummaryKey :=
  (db.summaries.rows.map MonthlySummary.key ++
    db.ledger.rows.filterMap (rowKey db)).dedup.filter fun k => P k.tenantId k.membershipId

theorem nodup_chosenKeys (db : Db) (P : Uuid → Uuid → Bool) : (chosenKeys db P).Nodup :=
  (List.nodup_dedup _).filter _

theorem mem_chosenKeys {db : Db} {P : Uuid → Uuid → Bool} {k : SummaryKey} :
    k ∈ chosenKeys db P ↔
      ((∃ s ∈ db.summaries, s.key = k) ∨ ∃ r ∈ db.ledger, rowKey db r = some k) ∧
        P k.tenantId k.membershipId = true := by
  unfold chosenKeys
  rw [List.mem_filter, List.mem_dedup, List.mem_append, List.mem_map, List.mem_filterMap]
  exact Iff.rfl

/-- A table posts under a key what the row of that key holds. -/
theorem posted_key {κ ρ : Type} [DecidableEq κ] [Keyed ρ κ] (t : Table ρ) (amount : ρ → Int)
    (k : κ) : posted key amount t.rows k = ((t.find? k).map amount).getD 0 := by
  unfold posted
  cases hfind : t.find? k with
  | none =>
      have hzero : ∀ x ∈ t.rows.map (fun r => if key r = k then amount r else 0), x = 0 := by
        intro x hx
        obtain ⟨r, hr, rfl⟩ := List.mem_map.mp hx
        exact if_neg (Table.find?_eq_none.mp hfind r hr)
      rw [List.sum_eq_zero hzero]
      rfl
  | some r =>
      obtain ⟨hr, hkey⟩ := Table.find?_eq_some.mp hfind
      have hsum : (t.rows.map fun s => if key s = k then amount s else 0).sum =
          ([r].map amount).sum := by
        refine Table.sum_selected (List.nodup_singleton (key r)) ?_ ?_
        · intro x hx
          rw [List.mem_singleton.mp hx]
          exact ⟨r, hr, rfl, if_pos hkey⟩
        · intro s _ hnot
          refine if_neg fun hs => hnot ?_
          rw [List.map_singleton, hs, hkey]
          exact List.mem_singleton_self k
      simpa using hsum

theorem posted_summaries (db : Db) (k : SummaryKey) (b : Bucket) :
    posted MonthlySummary.key (summaryBucket · b) db.summaries.rows k =
      summaryCents db.summaries k b :=
  posted_key db.summaries (summaryBucket · b) k

theorem summaryTotal_eq (db : Db) (P : Uuid → Uuid → Bool) (b : Bucket) :
    summaryTotal db P b =
      ((chosenKeys db P).map (fun k => summaryCents db.summaries k b)).sum := by
  have hposted : (chosenKeys db P).map (fun k => summaryCents db.summaries k b) =
      (chosenKeys db P).map
        (posted MonthlySummary.key (summaryBucket · b) db.summaries.rows) :=
    List.map_congr_left fun k _ => (posted_summaries db k b).symm
  rw [hposted, sum_posted _ _ (nodup_chosenKeys db P), summaryTotal, ← sum_map_ite]
  refine congrArg List.sum (List.map_congr_left fun s hs => ?_)
  have hchosen : s.key ∈ chosenKeys db P ↔ P s.key.tenantId s.key.membershipId = true := by
    rw [mem_chosenKeys]
    exact ⟨And.right, fun hP => ⟨.inl ⟨s, hs, rfl⟩, hP⟩⟩
  simp only [hchosen]

theorem ledgerTotal_eq {db : Db} (hsound : SaleSound db) (P : Uuid → Uuid → Bool) (b : Bucket) :
    ledgerTotal db P b = ((chosenKeys db P).map (fun k => ledgerCents db k b)).sum := by
  have hcents : ∀ k, ledgerCents db k b = posted (rowKey db)
      (fun r => if statusBucket r.status = some b then r.amountCents else 0)
        db.ledger.rows (some k) := by
    intro k
    refine congrArg List.sum (List.map_congr_left fun r _ => ?_)
    unfold contribution weight
    by_cases hkey : rowKey db r = some k
    · simp [hkey]
    · simp [hkey]
  have hnodup : ((chosenKeys db P).map some).Nodup :=
    (nodup_chosenKeys db P).map fun _ _ => Option.some.inj
  have hposted : (chosenKeys db P).map (fun k => ledgerCents db k b) =
      ((chosenKeys db P).map some).map (posted (rowKey db)
        (fun r => if statusBucket r.status = some b then r.amountCents else 0)
          db.ledger.rows) := by
    rw [List.map_map]
    exact List.map_congr_left fun k _ => hcents k
  rw [hposted, sum_posted _ _ hnodup, ledgerTotal, ← sum_map_ite]
  refine congrArg List.sum (List.map_congr_left fun r hr => ?_)
  obtain ⟨month, hmonth⟩ := (hsound r hr).exists_month
  have hkey : rowKey db r = some (rowSummary r month) := by rw [rowKey, hmonth]; rfl
  have hchosen : rowKey db r ∈ (chosenKeys db P).map some ↔
      P r.tenantId r.beneficiaryMembershipId = true := by
    rw [hkey, List.mem_map_of_injective (Option.some_injective _), mem_chosenKeys]
    exact ⟨And.right, fun hP => ⟨.inr ⟨r, hr, hkey⟩, hP⟩⟩
  simp only [hchosen]
  by_cases hP : P r.tenantId r.beneficiaryMembershipId = true
  · by_cases hb : statusBucket r.status = some b
    · simp [hP, hb]
    · simp [hP, hb]
  · simp [hP]

/-- Without drift the summaries of any members add up to their rows. -/
theorem Good.summaryTotal_eq {db : Db} (h : Good db) (P : Uuid → Uuid → Bool) (b : Bucket) :
    summaryTotal db P b = ledgerTotal db P b := by
  rw [Engine.summaryTotal_eq, ledgerTotal_eq h.sound.sale]
  exact congrArg List.sum (List.map_congr_left fun k _ => h.noDrift k b)

/-! ## Paid payouts -/

/-- The rows linked to a payout. -/
def linkedCents (db : Db) (payoutId : Uuid) : Int :=
  ((db.ledger.rows.filter (fun r => r.payoutId = some payoutId)).map LedgerEntry.amountCents).sum

/-- A paid payout is worth the rows that are linked to it. -/
theorem BatchSound.linkedCents_eq {db : Db} (h : BatchSound db) {p : Payout}
    (hp : p ∈ db.payouts) (hpaid : p.status = .paid) : linkedCents db p.id = p.totalCents := by
  have hbatch : p.batchId ≠ none := by
    intro hnone
    rcases h.request p hp hnone with hst | hst
    · rw [hpaid] at hst
      cases hst
    · rw [hpaid] at hst
      cases hst
  obtain ⟨batchId, hbatchId⟩ := Option.ne_none_iff_exists'.mp hbatch
  obtain ⟨b, hb, hbid, -, hst⟩ := h.payout p hp batchId hbatchId
  have hsettled : b.status = .settled := by
    rw [hpaid] at hst
    cases hbst : b.status <;> rw [hbst] at hst <;> first | rfl | cases hst
  -- the items of the payout, each the snapshot of one linked row
  have hrow : ∀ i ∈ db.items.rows.filter (fun i => i.payoutId = p.id),
      i ∈ db.items ∧ i.batchId = b.id ∧ ∃ r ∈ db.ledger, Matches db r i := by
    intro i hi
    obtain ⟨himem, hpid⟩ := List.mem_filter.mp hi
    obtain ⟨p', hp', hpid', hpbatch, -⟩ := h.itemPayout i himem
    have hpid : i.payoutId = p.id := by simpa using hpid
    have heq : p' = p := Table.eq_of_key hp' hp (hpid'.trans hpid)
    subst heq
    have hbid' : i.batchId = b.id := by
      rw [hbid]
      exact Option.some.inj (hpbatch.symm.trans hbatchId)
    obtain ⟨b', hb', hbid'', hrows⟩ := h.item i himem
    have heq : b' = b := Table.eq_of_key hb' hb (hbid''.trans hbid')
    subst heq
    obtain ⟨r, hr, -, -, hm⟩ := hrows .paid (by rw [hsettled]; rfl)
    exact ⟨himem, hbid', r, hr, hm⟩
  have hnodup : ((db.items.rows.filter (fun i => i.payoutId = p.id)).map
      PayoutSettlementBatchItem.ledgerEntryId).Nodup := by
    refine List.Nodup.map_on ?_ (db.items.rows_nodup.filter _)
    intro i hi j hj heq
    obtain ⟨himem, hibatch, -⟩ := hrow i hi
    obtain ⟨hjmem, hjbatch, -⟩ := hrow j hj
    refine Table.eq_of_clash clash_item_comm himem hjmem ?_
    simp [clash, hibatch, hjbatch, heq]
  have hselected : linkedCents db p.id =
      ((db.items.rows.filter (fun i => i.payoutId = p.id)).map
        PayoutSettlementBatchItem.amountCents).sum := by
    rw [linkedCents, ← sum_map_ite]
    refine Table.sum_selected hnodup ?_ ?_
    · intro i hi
      obtain ⟨-, -, r, hr, hm⟩ := hrow i hi
      have hpid : i.payoutId = p.id := by simpa using (List.mem_filter.mp hi).2
      refine ⟨r, hr, hm.entry.symm, ?_⟩
      rw [hm.payout, hpid, hm.amount]
      simp
    · intro r hr hnot
      refine if_neg fun hlinked => hnot ?_
      simp only [decide_eq_true_eq] at hlinked
      by_cases hheld : isHeld r
      · obtain ⟨i, hi, -, -, -, -, -, hm⟩ := h.held r hr hheld
        have hpid : i.payoutId = p.id :=
          Option.some.inj (hm.payout.symm.trans hlinked)
        exact List.mem_map.mpr ⟨i, List.mem_filter.mpr ⟨hi, by simpa using hpid⟩, hm.entry⟩
      · rw [(h.free r hr hheld).1] at hlinked
        cases hlinked
  rw [hselected, h.total p hp hbatch, itemTotal, posted, ← sum_map_ite]
  simp only [decide_eq_true_eq]

end Refearn.Engine
