import Refearn.Engine.Proofs.Reachable
/-!
# The books of the business

What a reader of the tables may rely on in every reachable database: the summaries
are the sums of the ledger, and batches, payouts and rows say the same thing about
which money has been paid.
-/

namespace Refearn.Engine

open Support

/-! ## Summaries and ledger -/

/-- Ledger and summaries never drift: every bucket of every summary is the sum of the
rows of that member, level and month which have that status. -/
theorem summaries_match_ledger {env : Env} {db : Db} (h : ReachableDb env db)
    (k : SummaryKey) (b : Bucket) : summaryCents db.summaries k b = ledgerCents db k b :=
  (reachable_good h).noDrift k b

/-- Paid out, the seller's summary holds the 60 cents as paid, and so does the ledger. -/
theorem summaries_match_ledger_paidOut :
    summaryCents (Demo.after Demo.paidOut).summaries ⟨1, 2, "2026-01", 0⟩ .paid = 60 ∧
      summaryCents (Demo.after Demo.paidOut).summaries ⟨1, 2, "2026-01", 0⟩ .paid =
        ledgerCents (Demo.after Demo.paidOut) ⟨1, 2, "2026-01", 0⟩ .paid :=
  ⟨by decide +kernel, summaries_match_ledger (Demo.reachable Demo.paidOut) _ _⟩

/-! ## Batches, payouts and rows -/

/-- The row is an item of the batch. -/
def IsItemOf (db : Db) (r : LedgerEntry) (b : PayoutSettlementBatch) : Prop :=
  ∃ i ∈ db.items, i.batchId = b.id ∧ i.ledgerEntryId = r.id

/-- The batch of a payout is settled. -/
def isSettled (db : Db) (p : Payout) : Bool :=
  (p.batchId.bind db.batches.find?).any (fun b => b.status = .settled)

/-- The payouts of a member in settled batches. -/
def settledPayouts (db : Db) (tenantId membershipId : Uuid) : List Payout :=
  db.payouts.rows.filter (fun p =>
    (p.tenantId = tenantId ∧ p.membershipId = membershipId) ∧ isSettled db p)

/-- What a member has been paid over all settled batches. -/
def settledCents (db : Db) (tenantId membershipId : Uuid) : Int :=
  ((settledPayouts db tenantId membershipId).map Payout.totalCents).sum

def isPaidTo (tenantId membershipId : Uuid) (r : LedgerEntry) : Bool :=
  r.tenantId = tenantId && r.beneficiaryMembershipId = membershipId && r.status = .paid

/-- The paid rows of a member. -/
def paidCents (db : Db) (tenantId membershipId : Uuid) : Int :=
  ((db.ledger.rows.filter (isPaidTo tenantId membershipId)).map LedgerEntry.amountCents).sum

/-- A batch, its payouts and its rows say the same, and each row is paid once. -/
structure Lockstep (db : Db) : Prop where
  /-- A processing row is in exactly one batch that can still pay it, which is open. -/
  processing : ∀ r ∈ db.ledger, r.status = .processing → ∃ b ∈ db.batches,
    (b.status = .processing ∨ b.status = .dispatched) ∧ r.payoutBatchId = some b.id ∧
      IsItemOf db r b ∧ ∀ b' ∈ db.batches, b'.status ≠ .failed → IsItemOf db r b' → b' = b
  /-- A paid row is in exactly one settled batch, and in none that is open. -/
  paid : ∀ r ∈ db.ledger, r.status = .paid → ∃ b ∈ db.batches, b.status = .settled ∧
    IsItemOf db r b ∧ ∀ b' ∈ db.batches, b'.status ≠ .failed → IsItemOf db r b' → b' = b
  payable : ∀ r ∈ db.ledger, r.status = .payable → r.payoutId = none ∧ r.payoutBatchId = none
  payouts : ∀ p ∈ db.payouts, ∀ b ∈ db.batches, p.batchId = some b.id →
    ((b.status = .processing ∨ b.status = .dispatched) → p.status = .processing) ∧
      (b.status = .settled → p.status = .paid) ∧ (b.status = .failed → p.status = .failed)
  /-- A payout of a batch is worth its items. -/
  total : ∀ p ∈ db.payouts, p.batchId ≠ none → p.totalCents = itemTotal db.items.rows p.id
  member : ∀ tenantId membershipId,
    settledCents db tenantId membershipId = paidCents db tenantId membershipId

namespace BatchSound

variable {db : Db}

/-- The batch that holds a row is the only one that has it and has not failed. -/
theorem held_unique (h : BatchSound db) {r : LedgerEntry} (hr : r ∈ db.ledger)
    {b : PayoutSettlementBatch} (hb : b ∈ db.batches) (hlink : r.payoutBatchId = some b.id) :
    ∀ b' ∈ db.batches, b'.status ≠ .failed → IsItemOf db r b' → b' = b := by
  rintro b' hb' hstatus ⟨i, hi, hbatch, hid⟩
  have hlink' := h.linked hr hi hid hb' hbatch hstatus
  exact Table.eq_of_key hb' hb (Option.some.inj (hlink'.symm.trans hlink))

theorem isSettled_iff {p : Payout} :
    isSettled db p = true ↔
      ∃ b ∈ db.batches, p.batchId = some b.id ∧ b.status = .settled := by
  unfold isSettled
  constructor
  · intro hp
    obtain ⟨b, hfind, hstatus⟩ := (Option.any_eq_true _ _).mp hp
    obtain ⟨batchId, hbatch, hfind⟩ := Option.bind_eq_some_iff.mp hfind
    obtain ⟨hb, hid⟩ := Table.find?_eq_some.mp hfind
    have hid : b.id = batchId := hid
    exact ⟨b, hb, by rw [hbatch, hid], by simpa using hstatus⟩
  · rintro ⟨b, hb, hbatch, hstatus⟩
    have hfind : db.batches.find? b.id = some b := Table.find?_key hb
    simp [hbatch, hfind, hstatus]

/-- The items of the settled payouts of a member. -/
def settledItems (db : Db) (tenantId membershipId : Uuid) : List PayoutSettlementBatchItem :=
  db.items.rows.filter (fun i =>
    i.payoutId ∈ (settledPayouts db tenantId membershipId).map Payout.id)

/-- An item of a settled payout is the snapshot of a paid row of the member. -/
theorem settledItem_row (h : BatchSound db) {tenantId membershipId : Uuid}
    {i : PayoutSettlementBatchItem} (hi : i ∈ settledItems db tenantId membershipId) :
    i ∈ db.items ∧ ∃ r ∈ db.ledger, isPaidTo tenantId membershipId r = true ∧
      Matches db r i := by
  simp only [settledItems, List.mem_filter, decide_eq_true_eq, List.mem_map] at hi
  obtain ⟨hi, p, hp, hpid⟩ := hi
  simp only [settledPayouts, List.mem_filter, decide_eq_true_eq] at hp
  obtain ⟨hp, ⟨htenant, hmember⟩, hsettled⟩ := hp
  obtain ⟨b, hb, hbatch, hstatus⟩ := isSettled_iff.mp hsettled
  obtain ⟨p', hp', hpid', hpbatch, hpmember⟩ := h.itemPayout i hi
  have heq : p' = p := Table.eq_of_key hp' hp (hpid'.trans hpid.symm)
  subst heq
  obtain ⟨b', hb', hbid, hrows⟩ := h.item i hi
  have hsame : i.batchId = b.id := Option.some.inj (hpbatch.symm.trans hbatch)
  have heq : b' = b := Table.eq_of_key hb' hb (hbid.trans hsame)
  subst heq
  obtain ⟨r, hr, hst, hrtenant, hm⟩ := hrows .paid (by rw [hstatus]; rfl)
  obtain ⟨b'', hb'', hbid'', hptenant, -⟩ := h.payout p' hp _ hbatch
  have heq : b'' = b' := Table.eq_of_key hb'' hb hbid''
  subst heq
  refine ⟨hi, r, hr, ?_, hm⟩
  simp [isPaidTo, hst, ← hrtenant, hptenant, htenant, ← hm.member, ← hpmember, hmember]

/-- A paid row of the member has such an item. -/
theorem exists_settledItem (h : BatchSound db) {tenantId membershipId : Uuid}
    {r : LedgerEntry} (hr : r ∈ db.ledger) (hpaid : isPaidTo tenantId membershipId r = true) :
    ∃ i ∈ settledItems db tenantId membershipId, i.ledgerEntryId = r.id := by
  simp only [isPaidTo, Bool.and_eq_true, decide_eq_true_eq] at hpaid
  obtain ⟨⟨htenant, hmember⟩, hstatus⟩ := hpaid
  obtain ⟨i, hi, b, hb, hbid, hbtenant, hst, hm⟩ := h.held r hr (.inr hstatus)
  obtain ⟨p, hp, hpid, hpbatch, hpmember⟩ := h.itemPayout i hi
  obtain ⟨b', hb', hbid', hptenant, -⟩ := h.payout p hp _ hpbatch
  have heq : b' = b := Table.eq_of_key hb' hb (hbid'.trans hbid.symm)
  subst heq
  have hsettled : b'.status = .settled := by
    rw [hstatus] at hst
    cases hb : b'.status <;> rw [hb] at hst <;> first | rfl | cases hst
  have hpin : p ∈ settledPayouts db tenantId membershipId := by
    refine List.mem_filter.mpr ⟨hp, ?_⟩
    simp only [decide_eq_true_eq]
    refine ⟨⟨?_, ?_⟩, isSettled_iff.mpr ⟨b', hb, by rw [hpbatch, hbid], hsettled⟩⟩
    · rw [← hptenant, hbtenant, htenant]
    · rw [hpmember, hm.member, hmember]
  refine ⟨i, List.mem_filter.mpr ⟨hi, ?_⟩, hm.entry⟩
  simp only [decide_eq_true_eq]
  exact List.mem_map.mpr ⟨p, hpin, hpid⟩

theorem nodup_settledItems (h : BatchSound db) (tenantId membershipId : Uuid) :
    ((settledItems db tenantId membershipId).map
      PayoutSettlementBatchItem.ledgerEntryId).Nodup := by
  refine List.Nodup.map_on ?_ (db.items.rows_nodup.filter _)
  intro i hi j hj heq
  obtain ⟨himem, r, hr, -, hm⟩ := h.settledItem_row hi
  obtain ⟨hjmem, r', hr', -, hm'⟩ := h.settledItem_row hj
  have hrow : r' = r := by
    refine Table.eq_of_key hr' hr (hm'.entry.symm.trans (heq.symm.trans hm.entry))
  subst hrow
  have hbatch : i.batchId = j.batchId := Option.some.inj (hm.batch.symm.trans hm'.batch)
  refine Table.eq_of_clash clash_item_comm himem hjmem ?_
  simp [clash, hbatch, heq]

/-- The money of the settled payouts of a member is the money of its paid rows. -/
theorem settledCents_eq (h : BatchSound db) (tenantId membershipId : Uuid) :
    settledCents db tenantId membershipId = paidCents db tenantId membershipId := by
  have hpayouts : (settledPayouts db tenantId membershipId).map Payout.totalCents =
      ((settledPayouts db tenantId membershipId).map Payout.id).map
        (itemTotal db.items.rows) := by
    rw [List.map_map]
    refine List.map_congr_left fun p hp => ?_
    simp only [settledPayouts, List.mem_filter, decide_eq_true_eq] at hp
    obtain ⟨b, -, hbatch, -⟩ := isSettled_iff.mp hp.2.2
    exact h.total p hp.1 (by rw [hbatch]; exact Option.some_ne_none _)
  have hnodup : ((settledPayouts db tenantId membershipId).map Payout.id).Nodup :=
    (List.filter_sublist.map _).nodup db.payouts.keys_nodup
  have hitems : settledCents db tenantId membershipId =
      ((settledItems db tenantId membershipId).map
        PayoutSettlementBatchItem.amountCents).sum := by
    unfold settledCents itemTotal at *
    rw [hpayouts, sum_posted _ _ hnodup, settledItems, ← sum_map_ite]
    simp only [decide_eq_true_eq]
  rw [hitems, paidCents, ← sum_map_ite]
  symm
  refine Table.sum_selected (h.nodup_settledItems tenantId membershipId) ?_ ?_
  · intro i hi
    obtain ⟨-, r, hr, hpaid, hm⟩ := h.settledItem_row hi
    exact ⟨r, hr, hm.entry.symm, by rw [if_pos hpaid, hm.amount]⟩
  · intro r hr hnot
    refine if_neg fun hpaid => hnot ?_
    obtain ⟨i, hi, hid⟩ := h.exists_settledItem hr hpaid
    exact List.mem_map.mpr ⟨i, hi, hid⟩

theorem lockstep (h : BatchSound db) : Lockstep db where
  processing r hr hstatus := by
    obtain ⟨i, hi, b, hb, hbid, -, hst, hm⟩ := h.held r hr (.inl hstatus)
    have hlink : r.payoutBatchId = some b.id := by rw [hm.batch, hbid]
    refine ⟨b, hb, ?_, hlink, ⟨i, hi, hbid.symm, hm.entry⟩, h.held_unique hr hb hlink⟩
    rw [hstatus] at hst
    cases hb : b.status <;> rw [hb] at hst <;> simp [heldStatus] at hst ⊢
  paid r hr hstatus := by
    obtain ⟨i, hi, b, hb, hbid, -, hst, hm⟩ := h.held r hr (.inr hstatus)
    have hlink : r.payoutBatchId = some b.id := by rw [hm.batch, hbid]
    refine ⟨b, hb, ?_, ⟨i, hi, hbid.symm, hm.entry⟩, h.held_unique hr hb hlink⟩
    rw [hstatus] at hst
    cases hb : b.status <;> rw [hb] at hst <;> simp [heldStatus] at hst ⊢
  payable r hr hstatus := h.free r hr (by simp [isHeld, hstatus])
  payouts p hp b hb hbatch := by
    obtain ⟨b', hb', hbid, -, hst⟩ := h.payout p hp b.id hbatch
    rw [Table.eq_of_key hb' hb hbid] at hst
    rw [hst]
    cases hb : b.status <;> simp [payoutStatusOf]
  total := h.total
  member := h.settledCents_eq

end BatchSound

/-- In every reachable database a batch, its payouts and its rows are in lock-step. -/
theorem batches_in_lockstep {env : Env} {db : Db} (h : ReachableDb env db) : Lockstep db :=
  (reachable_good h).sound.batch.lockstep

/-- After the settlement the seller has been paid its 60 cents, in lock-step. -/
theorem batches_in_lockstep_paidOut :
    settledCents (Demo.after Demo.paidOut) 1 2 = 60 ∧ Lockstep (Demo.after Demo.paidOut) :=
  ⟨by decide +kernel, batches_in_lockstep (Demo.reachable Demo.paidOut)⟩

/-- The sale, and a request for the seller's money. -/
def Demo.requested : List Step := sold ++ [step 300 (.requestPayout 0 2 1)]

/-- A request that no batch has taken up has a total but no items. -/
theorem request_has_no_items :
    ReachableDb Demo.env (Demo.after Demo.requested) ∧
      ∃ p ∈ (Demo.after Demo.requested).payouts,
        p.totalCents ≠ itemTotal (Demo.after Demo.requested).items.rows p.id :=
  ⟨Demo.reachable _, by decide +kernel⟩

end Refearn.Engine
