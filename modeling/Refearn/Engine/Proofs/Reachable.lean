import Refearn.Engine.Proofs.Sales
import Refearn.Engine.Proofs.Closing
import Refearn.Engine.Proofs.Effects
/-!
# The invariants of every reachable database

Each effect keeps rows, batches and summaries in order, so by induction over the run
every reachable database is sound and free of drift.
-/

namespace Refearn.Engine

open Support Support.Transaction

/-- Rows and batches are sound and the summaries follow the ledger. -/
structure Good (db : Db) : Prop where
  sound : Sound db
  noDrift : NoDrift db

/-- A transaction that only adds or removes drafts keeps everything. -/
theorem Good.of_drafts {db db' : Db} (h : Good db) (hdrafts : DraftsOnly db db') :
    Good db' := by
  have hev := Evolution.of_eq hdrafts.ledger hdrafts.sales
  refine ⟨h.sound.of_quiet hev hdrafts.payouts ?_ (fun _ => rfl) (fun _ => rfl) (fun _ => rfl),
    h.noDrift.of_quiet h.sound.sale hev hdrafts.summaries (fun _ => rfl)⟩
  intro sale hsale sale' hsale' hid hst
  rwa [← hdrafts.same sale hsale sale' hsale' hid]

theorem Good.of_batchClosed {b : PayoutSettlementBatch} {row : LedgerEntry → LedgerEntry}
    {payout : Payout → Payout} {batch : PayoutSettlementBatch → PayoutSettlementBatch}
    {delta : Int → SummaryDelta} {st : BatchStatus} {db db' : Db}
    (hclosed : BatchClosed b row payout batch delta db db')
    (hc : Closes st row payout batch delta) (hadd : Additive delta) (hb : b ∈ db.batches)
    (hstatus : heldStatus b.status = some .processing) (h : Good db) : Good db' :=
  ⟨⟨hclosed.saleSound hc h.sound, hclosed.batchSound hc h.sound hb hstatus⟩,
    hclosed.noDrift hc hadd h.sound hb hstatus h.noDrift⟩

/-- Whatever an action does keeps the invariants. -/
theorem Good.of_effect {env : Env} {action : Action} {db db' : Db}
    (heffect : Effect env db action db') (h : Good db) : Good db' := by
  have hsound := h.sound
  cases heffect with
  | same => exact h
  | drafts hdrafts => exact h.of_drafts hdrafts
  | applied hsale _ happroved _ hdist =>
      exact ⟨hdist.sound (.of_mem hsale) happroved hsound,
        hdist.noDrift (.of_mem hsale) hsound h.noDrift⟩
  | approved hsale hdraft hmarked =>
      exact ⟨hmarked.sound hsale hdraft hsound, hmarked.noDrift hsale hdraft hsound h.noDrift⟩
  | approvedAndApplied hsale hdraft hmarked _ hdist =>
      have hmid := hmarked.sound hsale hdraft hsound
      exact ⟨hdist.sound (hmarked.stored hsale) rfl hmid, hdist.noDrift (hmarked.stored hsale)
        hmid (hmarked.noDrift hsale hdraft hsound h.noDrift)⟩
  | voided hsale hlive hprocessing hmonth hvoided =>
      exact ⟨hvoided.sound hsale hlive hmonth hprocessing hsound,
        hvoided.noDrift hsale hmonth hprocessing hsound h.noDrift⟩
  | delivered _ _ _ hdelivered =>
      exact ⟨hdelivered.sound hsound, hdelivered.noDrift hsound h.noDrift⟩
  | @matured now limit lockedRows _ _ hmatured =>
      have hdue : AllDue env now db (matureBatch env db now limit lockedRows) :=
        fun _ hrow => mem_matureBatch hrow
      exact ⟨hmatured.sound hdue hsound, hmatured.noDrift hdue (nodup_matureBatch ..) hsound
        h.noDrift⟩
  | awarded hawarded => exact ⟨hawarded.sound hsound, hawarded.noDrift hsound h.noDrift⟩
  | reserved hselected _ hreserved =>
      obtain ⟨hsound', hdrift'⟩ := hreserved.sound_and_noDrift
        (fun r hr => (hselected.eligible hr).reservable hsound.sale) hselected.nodup_members
        hsound h.noDrift
      exact ⟨hsound', hdrift'⟩
  | dispatched hb _ _ hdispatched =>
      exact ⟨hdispatched.sound hb hsound,
        h.noDrift.congr hdispatched.sales hdispatched.ledger hdispatched.summaries⟩
  | settled hb _ _ hstatus hclosed =>
      exact h.of_batchClosed hclosed (settle_closes ..) settleDelta_additive hb
        (by rw [hstatus]; rfl)
  | failed hb _ _ hstatus hclosed =>
      exact h.of_batchClosed hclosed (fail_closes ..) failDelta_additive hb
        (by rw [hstatus]; rfl)
  | rejected hp hstatus hrows hkept =>
      exact ⟨hsound.of_reject hp hstatus hrows hkept,
        h.noDrift.congr hkept.sales hkept.ledger hkept.summaries⟩
  | requested hrows hkept =>
      exact ⟨hsound.of_request hrows hkept,
        h.noDrift.congr hkept.sales hkept.ledger hkept.summaries⟩

theorem Good.step {env : Env} {db : Db} (h : Good db) (step : Step) :
    Good (step.apply env db) :=
  h.of_effect (step.effect env db)

theorem Good.of_initial {db : Db} (h : Initial db) : Good db := by
  have hledger : ∀ r, r ∉ db.ledger := fun r hr => by
    rw [Table.mem_def, h.ledger] at hr
    cases hr
  have hpayouts : ∀ p, p ∉ db.payouts := fun p hp => by
    rw [Table.mem_def, h.payouts] at hp
    cases hp
  have hitems : ∀ i, i ∉ db.items := fun i hi => by
    rw [Table.mem_def, h.items] at hi
    cases hi
  refine ⟨⟨fun r hr => absurd hr (hledger r), ?_⟩, fun k b => ?_⟩
  · exact ⟨fun r hr => absurd hr (hledger r), fun r hr => absurd hr (hledger r),
      fun i hi => absurd hi (hitems i), fun i hi => absurd hi (hitems i),
      fun p hp => absurd hp (hpayouts p), fun p hp => absurd hp (hpayouts p),
      fun p hp => absurd hp (hpayouts p), fun p hp => absurd hp (hpayouts p)⟩
  · simp [summaryCents, Table.find?, h.summaries, ledgerCents, h.ledger]

/-- Every reachable database is sound and free of drift. -/
theorem reachable_good {env : Env} {db : Db} (h : ReachableDb env db) : Good db :=
  h.invariant (fun _ hinit => .of_initial hinit) (fun step _ hgood => hgood.step step)

end Refearn.Engine
