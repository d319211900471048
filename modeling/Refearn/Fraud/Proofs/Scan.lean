import Refearn.Fraud.Proofs.Signals
/-!
# What scans keep of the flags

A scan rewrites the flags of the members that have a signal, and no other one. So it follows the
signals of every member exactly when nobody without a signal has a score from before; and it opens
a cleared flag again whenever the score blocks, whether or not the signals have changed.
-/

namespace Refearn.Fraud

open Support
open Payouts (FRAUD_BLOCK_SCORE fraudPayoutBlock)

variable {env : FraudEnv}

/-! ## One scan -/

section Flags

variable (flags : Table FlagRow) (id : Uuid)

/-- The flag of a member who has signals, after a scan. -/
def scanned (prev : Option FlagRow) (signals : List Signal) : FlagRow :=
  let score := scoreOfSignals signals
  let reasons := signals.map (·.reason)
  match prev with
  | some f => f.rescored score reasons (statusAfter prev score)
  | none => ⟨id, score, reasons, statusAfter prev score, none, none, none⟩

theorem find?_upsertFlag (i : Uuid) (score : Int) (reasons : List String) (status : FraudStatus) :
    (upsertFlag flags i score reasons status).find? id =
      if i = id then
        some (match flags.find? i with
          | some f => f.rescored score reasons status
          | none => ⟨i, score, reasons, status, none, none, none⟩)
      else flags.find? id := by
  unfold upsertFlag
  cases hfind : flags.find? i with
  | some f =>
      have hkey : key f = i := (Table.find?_eq_some.mp hfind).2
      simp only
      rw [Table.find?_updateKey]
      split_ifs with hid
      · rw [← hid, hfind, Option.map_some, if_pos hkey]
      · cases hother : flags.find? id with
        | none => rfl
        | some g =>
            have hg : key g = id := (Table.find?_eq_some.mp hother).2
            rw [Option.map_some, if_neg fun h => hid (h.symm.trans hg)]
  | none =>
      have hfresh := Table.find?_eq_none.mp hfind
      obtain ⟨flags', hinsert⟩ := Table.exists_insert?
        (t := flags) (r := ⟨i, score, reasons, status, none, none, none⟩)
        fun r hr => ⟨hfresh r hr, rfl⟩
      simp only
      rw [hinsert, Option.getD_some]
      split_ifs with hid
      · rw [← hid]
        exact Table.find?_eq_some.mpr ⟨(Table.mem_insert? hinsert).mpr (.inr rfl), rfl⟩
      · cases hother : flags.find? id with
        | some g => exact Table.find?_insert? hinsert hother
        | none =>
            refine Table.find?_eq_none.mpr fun r hr => ?_
            rcases (Table.mem_insert? hinsert).mp hr with hold | rfl
            · exact Table.find?_eq_none.mp hother r hold
            · exact hid

/-- The loop over the map: each entry rewrites the flag of its member. -/
theorem find?_foldl_rescore {found : List (Uuid × List Signal)} (h : WellFilled found)
    (acc : Table FlagRow × Nat) (hacc : ∀ e ∈ found, acc.1.find? e.1 = flags.find? e.1) :
    (found.foldl (rescore flags) acc).1.find? id =
      if signalsIn found id = [] then acc.1.find? id
      else some (scanned id (flags.find? id) (signalsIn found id)) := by
  induction found generalizing acc with
  | nil => rfl
  | cons e rest ih =>
      obtain ⟨hkey, hrest⟩ := List.nodup_cons.mp h.nodup
      have hfilled : ∀ d ∈ rest, d.2 ≠ [] := fun d hd => h.filled d (List.mem_cons_of_mem _ hd)
      have hstep : ∀ k, (rescore flags acc e).1.find? k =
          if e.1 = k then some (scanned e.1 (flags.find? e.1) e.2) else acc.1.find? k := by
        intro k
        have hupsert := find?_upsertFlag acc.1 k e.1 (scoreOfSignals e.2) (e.2.map (·.reason))
          (statusAfter (flags.find? e.1) (scoreOfSignals e.2))
        rw [hacc e List.mem_cons_self] at hupsert
        refine hupsert.trans ?_
        unfold scanned
        cases flags.find? e.1 <;> rfl
      rw [List.foldl_cons, ih ⟨hrest, hfilled⟩, signalsIn_cons, hstep]
      · by_cases hid : e.1 = id
        · have hnone : signalsIn rest id = [] := by
            unfold signalsIn
            rw [List.find?_eq_none.mpr]
            · rfl
            · intro d hd hdid
              refine hkey ?_
              rw [hid, ← of_decide_eq_true hdid]
              exact List.mem_map_of_mem hd
          rw [if_pos hnone, if_pos hid, if_pos hid, if_neg (h.filled e List.mem_cons_self), hid]
        · rw [if_neg hid, if_neg hid]
      · intro d hd
        rw [hstep, if_neg]
        · exact hacc d (List.mem_cons_of_mem _ hd)
        · exact fun heq => hkey (heq ▸ List.mem_map_of_mem hd)

variable (inputs : Inputs) (now : Instant)

theorem find?_scan :
    (scan env inputs now flags).1.find? id =
      if kindsOf env inputs now id = [] then flags.find? id
      else some (scanned id (flags.find? id) (signalsIn (byMember env inputs now) id)) := by
  have hfold := find?_foldl_rescore flags id (wellFilled_byMember env inputs now) (flags, 0)
    fun _ _ => rfl
  rw [← kinds_byMember]
  simp only [List.map_eq_nil_iff]
  exact hfold

theorem score_signalsIn :
    scoreOfSignals (signalsIn (byMember env inputs now) id) = scoreOf env inputs now id := by
  unfold scoreOfSignals scoreOf
  rw [← kinds_byMember, List.map_map]
  rfl

theorem scanned_score (prev : Option FlagRow) (signals : List Signal) :
    (scanned id prev signals).score = scoreOfSignals signals := by
  cases prev <;> rfl

theorem scanned_status (prev : Option FlagRow) (signals : List Signal) :
    (scanned id prev signals).status = statusAfter prev (scoreOfSignals signals) := by
  cases prev <;> rfl

theorem storedScore_scan :
    storedScore (scan env inputs now flags).1 id =
      if kindsOf env inputs now id = [] then storedScore flags id else scoreOf env inputs now id := by
  unfold storedScore
  rw [find?_scan]
  split_ifs
  · rfl
  · rw [Option.map_some, Option.getD_some, scanned_score, score_signalsIn]

/-- A scan leaves a flag cleared unless the score blocks. -/
theorem isCleared_scan (h : isCleared flags id) :
    isCleared (scan env inputs now flags).1 id ↔ scoreOf env inputs now id < FRAUD_BLOCK_SCORE := by
  obtain ⟨f, hf, hstatus⟩ := h
  unfold isCleared
  rw [find?_scan]
  split_ifs with hnone
  · have hzero : scoreOf env inputs now id = 0 := by
      unfold scoreOf
      rw [hnone]
      rfl
    rw [hzero]
    exact iff_of_true ⟨f, hf, hstatus⟩ (by decide)
  · simp only [Option.some.injEq, exists_eq_left', scanned_status, score_signalsIn, hf]
    unfold statusAfter
    simp only [hstatus, true_and]
    split_ifs with hblocks
    · refine iff_of_false (fun heq => ?_) (not_lt.mpr hblocks)
      cases heq
    · exact iff_of_true rfl (not_le.mp hblocks)

theorem payoutBlock_scan (hscore : FRAUD_BLOCK_SCORE ≤ scoreOf env inputs now id)
    (h : ¬ isCleared flags id) : payoutBlock (scan env inputs now flags).1 id ≠ none := by
  have hkinds : kindsOf env inputs now id ≠ [] := by
    intro hnone
    unfold scoreOf at hscore
    rw [hnone] at hscore
    exact absurd hscore (by decide)
  have hstatus : statusAfter (flags.find? id) (scoreOf env inputs now id) ≠ .cleared := by
    unfold statusAfter
    cases hfind : flags.find? id with
    | none =>
        intro heq
        cases heq
    | some f =>
        simp only
        split_ifs with hcleared
        · decide
        · exact fun heq => h ⟨f, hfind, heq⟩
  unfold payoutBlock
  rw [find?_scan, if_neg hkinds, Option.map_some]
  unfold fraudPayoutBlock FlagRow.flag
  simp only [scanned_status, scanned_score, score_signalsIn]
  rw [if_neg hstatus, if_pos hscore]
  exact Option.some_ne_none _

theorem payoutBlock_of_zero (h : storedScore flags id = 0) : payoutBlock flags id = none := by
  unfold storedScore at h
  unfold payoutBlock
  cases hfind : flags.find? id with
  | none => rfl
  | some f =>
      rw [hfind] at h
      have hzero : f.score = 0 := h
      unfold fraudPayoutBlock FlagRow.flag
      simp only [Option.map_some, hzero]
      split_ifs with _ hblocks
      · rfl
      · exact absurd hblocks (by decide)
      · rfl

end Flags

/-! ## One step -/

variable {w : World}

theorem followsSignals_iff :
    FollowsSignals env w (Step.scan.apply env w) ↔
      ∀ m ∈ w.inputs.members, w.kinds env m.id = [] → storedScore w.flags m.id = 0 := by
  have hscore : ∀ id, w.kinds env id = [] → w.score env id = 0 := by
    intro id hnone
    change (List.map SignalKind.score (w.kinds env id)).sum = 0
    rw [hnone]
    rfl
  constructor
  · intro h m hm hnone
    have hafter := h.scores m hm
    rw [hscore m.id hnone] at hafter
    refine Eq.trans ?_ hafter
    exact ((storedScore_scan w.flags m.id w.inputs w.clock).trans (if_pos hnone)).symm
  · intro h
    have hscores : ∀ m ∈ w.inputs.members,
        storedScore (Step.scan.apply env w).flags m.id = w.score env m.id := by
      intro m hm
      refine (storedScore_scan w.flags m.id w.inputs w.clock).trans ?_
      split_ifs with hnone
      · rw [h m hm hnone, hscore m.id hnone]
      · rfl
    refine ⟨hscores, fun m hm hnone => ?_, fun m _ hblocks hopen => ?_⟩
    · apply payoutBlock_of_zero
      rw [hscores m hm, hscore m.id hnone]
    · exact payoutBlock_scan w.flags m.id w.inputs w.clock hblocks hopen

theorem clearsStand_scan (h : ClearsStand w) :
    ClearsStand (Step.scan.apply env w) ↔
      ∀ id, (w.standing id).isSome → w.score env id < FRAUD_BLOCK_SCORE :=
  forall_congr' fun id => imp_congr_right fun hstands =>
    isCleared_scan w.flags id w.inputs w.clock (h id hstands)

theorem clearsStand_settled {w' : World} (hflags : w'.flags = w.flags)
    (hstanding : w'.standing = w.standing) (h : ClearsStand w) :
    ClearsStand (w'.settled env) := by
  intro id hstands
  unfold World.settled at hstands ⊢
  simp only [hstanding, hflags] at hstands ⊢
  obtain ⟨kinds, hkinds⟩ := Option.isSome_iff_exists.mp hstands
  exact h id (by rw [(Option.filter_eq_some_iff.mp hkinds).1]; rfl)

/-- Decisions keep the other clears, and a clear is in force. -/
theorem clearsStand_decide (h : ClearsStand w) (actor : Actor) (membershipId : Uuid)
    (action : Action) (note : Option String) :
    ClearsStand ((Step.decide actor membershipId action note).apply env w) := by
  simp only [Step.apply]
  cases hdecide : decideFlag w.tenantId actor membershipId action note w.clock w.flags with
  | error e => exact h
  | ok flags =>
      unfold decideFlag at hdecide
      cases hfind : w.flags.find? membershipId with
      | none =>
          rw [hfind] at hdecide
          cases hdecide
      | some f =>
          rw [hfind] at hdecide
          simp only at hdecide
          split_ifs at hdecide
          injection hdecide with hdecide
          have hkey : key f = membershipId := (Table.find?_eq_some.mp hfind).2
          intro id hstands
          simp only at hstands ⊢
          rw [← hdecide]
          by_cases hid : id = membershipId
          · rw [if_neg (not_not.mpr hid)] at hstands
            split_ifs at hstands with hclear
            · refine ⟨f.decided action.status note actor.userId w.clock, ?_, ?_⟩
              · rw [Table.find?_updateKey, hid, hfind, Option.map_some, if_pos hkey]
              · rw [hclear]
                rfl
            · cases hstands
          · rw [if_pos hid] at hstands
            obtain ⟨g, hg, hstatus⟩ := h id hstands
            have hgkey : key g = id := (Table.find?_eq_some.mp hg).2
            refine ⟨g, ?_, hstatus⟩
            rw [Table.find?_updateKey, hg, Option.map_some,
              if_neg fun heq => hid (hgkey.symm.trans heq)]

/-- A step is as promised exactly when it is no scan that a lost signal or a standing clear
disturbs. -/
theorem promised_iff (h : ClearsStand w) (step : Step) :
    Promised env step w ↔ Undisturbed env step w := by
  unfold Promised Undisturbed
  cases step with
  | scan =>
      rw [clearsStand_scan h]
      simp only [forall_const, followsSignals_iff]
  | decide actor membershipId action note =>
      exact iff_of_true ⟨nofun, clearsStand_decide h actor membershipId action note⟩ nofun
  | change inputs => exact iff_of_true ⟨nofun, clearsStand_settled rfl rfl h⟩ nofun
  | tick ms => exact iff_of_true ⟨nofun, clearsStand_settled rfl rfl h⟩ nofun

/-- A decision leaves the clears of others, and one more clear is a clear. -/
theorem isCleared_decide {id : Uuid} (h : isCleared w.flags id) (actor : Actor)
    (membershipId : Uuid) (action : Action) (note : Option String)
    (hkept : id = membershipId → action = .clear) :
    isCleared ((Step.decide actor membershipId action note).apply env w).flags id := by
  obtain ⟨g, hg, hstatus⟩ := h
  have hgkey : key g = id := (Table.find?_eq_some.mp hg).2
  simp only [Step.apply]
  cases hdecide : decideFlag w.tenantId actor membershipId action note w.clock w.flags with
  | error e => exact ⟨g, hg, hstatus⟩
  | ok flags =>
      unfold decideFlag at hdecide
      cases hfind : w.flags.find? membershipId with
      | none =>
          rw [hfind] at hdecide
          cases hdecide
      | some f =>
          rw [hfind] at hdecide
          simp only at hdecide
          split_ifs at hdecide
          injection hdecide with hdecide
          rw [← hdecide]
          unfold isCleared
          rw [Table.find?_updateKey, hg, Option.map_some]
          refine ⟨_, rfl, ?_⟩
          split_ifs with hid
          · rw [hkept (hgkey.symm.trans hid)]
            rfl
          · exact hstatus

theorem isCleared_step {id : Uuid} (h : isCleared w.flags id) (step : Step)
    (hkeeps : KeepsClear env id step w) : isCleared (step.apply env w).flags id := by
  cases step with
  | scan => exact (isCleared_scan w.flags id w.inputs w.clock h).mpr (hkeeps.1 rfl)
  | decide actor membershipId action note =>
      refine isCleared_decide h actor membershipId action note ?_
      rintro rfl
      cases action with
      | clear => rfl
      | confirm => exact absurd rfl (hkeeps.2 actor note)
  | change inputs => exact h
  | tick ms => exact h

/-! ## Histories -/

/-- After a scan the score of a member with a signal is the sum of the signals, and it blocks
payouts from the block score on unless the flag was cleared. A clear stays in force over any
history in which no scan finds a score that blocks; such a scan opens the flag again. -/
theorem scan_follows_signals (env : FraudEnv) (w : World) :
    (∀ m ∈ w.inputs.members, w.kinds env m.id ≠ [] →
        storedScore (Step.scan.apply env w).flags m.id = w.score env m.id) ∧
      (∀ m ∈ w.inputs.members, FRAUD_BLOCK_SCORE ≤ w.score env m.id → ¬ isCleared w.flags m.id →
        payoutBlock (Step.scan.apply env w).flags m.id ≠ none) ∧
      (∀ id, isCleared w.flags id → FRAUD_BLOCK_SCORE ≤ w.score env id →
        ¬ isCleared (Step.scan.apply env w).flags id) ∧
      ∀ id, isCleared w.flags id → ∀ steps,
        Throughout (Step.apply env) (KeepsClear env id) steps w →
          isCleared (run (Step.apply env) steps w).flags id := by
  refine ⟨?_, ?_, ?_, ?_⟩
  · intro m _ hkinds
    exact (storedScore_scan w.flags m.id w.inputs w.clock).trans (if_neg hkinds)
  · intro m _ hscore hopen
    exact payoutBlock_scan w.flags m.id w.inputs w.clock hscore hopen
  · intro id hcleared hscore hstill
    exact not_lt.mpr hscore ((isCleared_scan w.flags id w.inputs w.clock hcleared).mp hstill)
  · intro id hcleared steps hsteps
    exact Throughout.invariant (I := fun w => isCleared w.flags id)
      (fun step w hkeeps h => isCleared_step h step hkeeps) hsteps hcleared

/-- Over a history that begins without a standing clear, every scan follows the signals and every
clear stands until its signals change, exactly when no scan meets a score without a signal or a
standing clear against a score that blocks. -/
theorem scans_promised_iff (h : ∀ id, w.standing id = none) (steps : List Step) :
    Throughout (Step.apply env) (Promised env) steps w ↔
      Throughout (Step.apply env) (Undisturbed env) steps w := by
  have hstart : ClearsStand w := by
    intro id hstands
    rw [h id] at hstands
    cases hstands
  clear h
  induction steps generalizing w with
  | nil => exact Iff.rfl
  | cons step steps ih =>
      have hstep : Promised env step w ↔ Undisturbed env step w := promised_iff hstart step
      constructor
      · rintro ⟨hfirst, hrest⟩
        exact ⟨hstep.mp hfirst, (ih hfirst.2).mp hrest⟩
      · rintro ⟨hfirst, hrest⟩
        have hkept := hstep.mpr hfirst
        exact ⟨hkept, (ih hkept.2).mpr hrest⟩

/-! ## One new member with a large payable balance -/

namespace Demo

def asciiEnv : FraudEnv := ⟨id, fun _ => ""⟩

def member : MemberRow := ⟨5, none, "CODE", none, 0⟩

def members : Table MemberRow := ⟨[member], List.nodup_singleton _, List.pairwise_singleton _ _⟩

def inputs (ledger : List LedgerRow) : Inputs := ⟨[], members, ledger, 100⟩

def world : World where
  tenantId := 1
  inputs := inputs [⟨5, .payable, 1000⟩]
  flags := Table.empty
  clock := 0
  standing _ := none

/-- The balance has been paid out before the second scan. -/
def losing : List Step := [.scan, .change (inputs []), .scan]

/-- The administrator clears the flag, and nothing else happens before the second scan. -/
def clearing : List Step := [.scan, .decide ⟨9, 1⟩ 5 .clear none, .scan]

end Demo

/-- A score outlives its last signal, and a clear does not outlive the next scan. -/
theorem not_scans_promised :
    ¬ Throughout (Step.apply Demo.asciiEnv) (Promised Demo.asciiEnv) Demo.losing Demo.world ∧
      ¬ Throughout (Step.apply Demo.asciiEnv) (Promised Demo.asciiEnv) Demo.clearing Demo.world := by
  constructor
  · intro h
    have hscore := (h.2.2.1.1 rfl).scores Demo.member (List.mem_singleton_self _)
    exact absurd hscore (by decide)
  · intro h
    have hcleared := h.2.2.1.2 5 rfl
    exact absurd hcleared (by decide)

end Refearn.Fraud
