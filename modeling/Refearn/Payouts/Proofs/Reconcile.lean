import Refearn.Payouts.Reconcile
import Mathlib.Data.List.Perm.Basic
/-!
# Reconciliations side by side

A payout is locked by one run at most, and while it is locked nobody else writes it. So what a
run commits are payouts that nobody has cleared before, and a cleared payout stays as it is.
-/

/-!
## What one reconciliation pairs

The loop over the statement serves each row with the first selected payout of its amount. Nothing
that a run has locked is cleared by anybody else, so every row that finds a payout clears it.
-/

namespace Refearn.Payouts

open Support Support.Table

/-! ## The updates of a transaction -/

section Clearings

variable {payouts : Table ReconcilablePayout} {clearings : List Clearing}

theorem isUncleared_iff {id : Uuid} {p : ReconcilablePayout} :
    p.isUncleared id = true ↔ p.id = id ∧ p.clearedAt = none := by
  unfold ReconcilablePayout.isUncleared
  rw [Bool.and_eq_true, decide_eq_true_eq, decide_eq_true_eq]

theorem isOpen_iff {tenantId : Uuid} {p : ReconcilablePayout} :
    p.isOpen tenantId = true ↔ p.tenantId = tenantId ∧ p.status = .paid ∧ p.clearedAt = none := by
  unfold ReconcilablePayout.isOpen
  rw [Bool.and_eq_true, Bool.and_eq_true, decide_eq_true_eq, decide_eq_true_eq,
    decide_eq_true_eq, and_assoc]

/-- What the updates make of a row. -/
def afterClearings (clearings : List Clearing) (p : ReconcilablePayout) : ReconcilablePayout :=
  rewrites (fun c p => ReconcilablePayout.isUncleared c.payoutId p) ReconcilablePayout.cleared
    clearings p

theorem rows_foldl_clearPayout (clearings : List Clearing) (payouts : Table ReconcilablePayout) :
    (clearings.foldl clearPayout payouts).rows = payouts.rows.map (afterClearings clearings) :=
  rows_foldl_updateWhere (fun (c : Clearing) p => ReconcilablePayout.isUncleared c.payoutId p)
    ReconcilablePayout.cleared keepsIndexes_cleared clearings payouts

/-- A row is left as it is, or one of the updates clears it. -/
theorem afterClearings_cases (hids : (clearings.map Clearing.payoutId).Nodup)
    (p : ReconcilablePayout) :
    (afterClearings clearings p = p ∧
        ∀ c ∈ clearings, c.payoutId = p.id → p.clearedAt ≠ none) ∨
      ∃ c ∈ clearings, c.payoutId = p.id ∧ p.clearedAt = none ∧
        afterClearings clearings p = p.cleared c := by
  rcases rewrites_cases (fun c p => ReconcilablePayout.isUncleared c.payoutId p)
    ReconcilablePayout.cleared hids (fun c p h => (isUncleared_iff.mp h).1.symm) (fun _ _ => rfl) p
    with ⟨hsame, hnone⟩ | ⟨c, hc, hopen, heq⟩
  · refine .inl ⟨hsame, fun c hc hid hclear => ?_⟩
    have hfalse := hnone c hc
    rw [isUncleared_iff.mpr ⟨hid.symm, hclear⟩] at hfalse
    cases hfalse
  · obtain ⟨hid, hclear⟩ := isUncleared_iff.mp hopen
    exact .inr ⟨c, hc, hid.symm, hclear, heq⟩

theorem id_afterClearings (hids : (clearings.map Clearing.payoutId).Nodup)
    (p : ReconcilablePayout) : (afterClearings clearings p).id = p.id := by
  rcases afterClearings_cases hids p with ⟨hsame, -⟩ | ⟨c, -, -, -, heq⟩
  · rw [hsame]
  · rw [heq]
    rfl

/-- A row that no update is for. -/
theorem afterClearings_of_fresh {p : ReconcilablePayout}
    (hfresh : p.id ∉ clearings.map Clearing.payoutId) : afterClearings clearings p = p := by
  refine rewrites_eq_self _ _ fun c hc => ?_
  by_contra hopen
  have hid := (isUncleared_iff.mp (Bool.of_not_eq_false hopen)).1
  exact hfresh (hid ▸ List.mem_map_of_mem hc)

end Clearings

/-! ## Served rows -/

/-- The entry of `matched` for a row that is served. -/
def matchOf : StatementRow × Option ReconcilablePayout → Option MatchedPayout
  | (row, some hit) => some ⟨hit.id, hit.membershipId, row.amountCents, row.ref⟩
  | (_, none) => none

/-- The entry of `unmatched` for a row that is not. -/
def unmatchedOf : StatementRow × Option ReconcilablePayout → Option StatementRow
  | (_, some _) => none
  | (row, none) => some row

@[simp] theorem filterMap_matchOf_none (row : StatementRow)
    (served : List (StatementRow × Option ReconcilablePayout)) :
    ((row, none) :: served).filterMap matchOf = served.filterMap matchOf := rfl

@[simp] theorem filterMap_matchOf_some (row : StatementRow) (hit : ReconcilablePayout)
    (served : List (StatementRow × Option ReconcilablePayout)) :
    ((row, some hit) :: served).filterMap matchOf =
      ⟨hit.id, hit.membershipId, row.amountCents, row.ref⟩ :: served.filterMap matchOf := rfl

/-- The row of the statement that an entry of `matched` came from. -/
def MatchedPayout.row (m : MatchedPayout) : StatementRow := ⟨m.amountCents, m.bankRef⟩

def MatchedPayout.clearing (now : Instant) (userId : Uuid) (m : MatchedPayout) : Clearing :=
  ⟨m.payoutId, now, m.bankRef, userId⟩

/-- The rows of a run with the payouts that they take. -/
def ReconcileRun.served (r : ReconcileRun) (rows : List StatementRow) :
    List (StatementRow × Option ReconcilablePayout) :=
  serve StatementRow.amountCents (queuesOf (fun p => p.totalCents) r.selected) rows

/-- The lists of a run after some rows. -/
structure ReconcileRun.Paired (r : ReconcileRun) (rows : List StatementRow) : Prop where
  matched : r.matched = (r.served rows).filterMap matchOf
  unmatched : r.unmatched = (r.served rows).filterMap unmatchedOf
  clearings : r.clearings = r.matched.map (MatchedPayout.clearing r.now r.userId)

section Served

variable {r : ReconcileRun} {rows : List StatementRow}

theorem mem_selected_of_served {row : StatementRow} {p : ReconcilablePayout}
    (h : (row, some p) ∈ r.served rows) : p ∈ r.selected ∧ p.totalCents = row.amountCents := by
  have hmem := mem_queue_of_served h
  rw [queuesOf_apply] at hmem
  obtain ⟨hmem, hamount⟩ := List.mem_filter.mp hmem
  exact ⟨hmem, of_decide_eq_true hamount⟩

theorem exists_of_mem_matched {m : MatchedPayout} (h : m ∈ (r.served rows).filterMap matchOf) :
    ∃ p ∈ r.selected, p.totalCents = m.amountCents ∧ p.id = m.payoutId ∧
      p.membershipId = m.membershipId ∧ (m.row, some p) ∈ r.served rows := by
  obtain ⟨⟨row, hit⟩, hserved, hm⟩ := List.mem_filterMap.mp h
  cases hit with
  | none => cases hm
  | some p =>
      cases hm
      obtain ⟨hmem, hamount⟩ := mem_selected_of_served hserved
      exact ⟨p, hmem, hamount, rfl, rfl, hserved⟩

/-- The rows of each list come in the order of the statement. -/
theorem sublist_matched (served : List (StatementRow × Option ReconcilablePayout)) :
    ((served.filterMap matchOf).map MatchedPayout.row).Sublist (served.map Prod.fst) := by
  induction served with
  | nil => exact .slnil
  | cons s served ih =>
      obtain ⟨row, hit⟩ := s
      cases hit with
      | none => exact ih.cons row
      | some p => exact ih.cons_cons row

theorem sublist_unmatched (served : List (StatementRow × Option ReconcilablePayout)) :
    (served.filterMap unmatchedOf).Sublist (served.map Prod.fst) := by
  induction served with
  | nil => exact .slnil
  | cons s served ih =>
      obtain ⟨row, hit⟩ := s
      cases hit with
      | none => exact ih.cons_cons row
      | some p => exact ih.cons row

/-- The two lists are the statement, taken apart. -/
theorem perm_rows (served : List (StatementRow × Option ReconcilablePayout)) :
    ((served.filterMap matchOf).map MatchedPayout.row ++ served.filterMap unmatchedOf).Perm
      (served.map Prod.fst) := by
  induction served with
  | nil => exact .refl _
  | cons s served ih =>
      obtain ⟨row, hit⟩ := s
      cases hit with
      | none => exact List.perm_middle.trans (ih.cons row)
      | some p => exact ih.cons row

theorem map_fst_served (r : ReconcileRun) (rows : List StatementRow) :
    (r.served rows).map Prod.fst = rows :=
  map_fst_serve ..

/-- Of the payouts of one amount those that were paid first are taken. -/
theorem matched_of_amount (r : ReconcileRun) (rows : List StatementRow) (amountCents : Int) :
    (((r.served rows).filterMap matchOf).filter fun m => m.amountCents = amountCents).map
        MatchedPayout.payoutId =
      ((r.selected.filter fun p => p.totalCents = amountCents).take
        (rows.countP fun row => row.amountCents = amountCents)).map fun p => p.id := by
  have hfront : ((r.served rows).filter fun s => s.1.amountCents = amountCents).filterMap
      Prod.snd = (queuesOf (fun p => p.totalCents) r.selected amountCents).take
        (rows.countP fun row => row.amountCents = amountCents) := served_of_key ..
  rw [queuesOf_apply] at hfront
  rw [← hfront]
  generalize r.served rows = served
  induction served with
  | nil => rfl
  | cons s served ih =>
      obtain ⟨row, hit⟩ := s
      by_cases hamount : row.amountCents = amountCents
      · cases hit with
        | none => simpa [hamount] using ih
        | some p => simpa [hamount] using ih
      · cases hit with
        | none => simpa [hamount] using ih
        | some p => simpa [hamount] using ih

theorem ids_matched (served : List (StatementRow × Option ReconcilablePayout)) :
    (served.filterMap matchOf).map MatchedPayout.payoutId =
      (served.filterMap Prod.snd).map fun p => p.id := by
  induction served with
  | nil => rfl
  | cons s served ih =>
      obtain ⟨row, hit⟩ := s
      cases hit with
      | none => exact ih
      | some p => exact congrArg (p.id :: ·) ih

/-- No payout is taken by two rows. -/
theorem nodup_matched (hids : (r.selected.map fun p => p.id).Nodup) (rows : List StatementRow) :
    (((r.served rows).filterMap matchOf).map MatchedPayout.payoutId).Nodup := by
  have hselected : r.selected.Nodup := .of_map _ hids
  have hserved : ((r.served rows).filterMap Prod.snd).Nodup := by
    have hkey : ∀ k, ∀ p ∈ queuesOf (fun p : ReconcilablePayout => p.totalCents) r.selected k,
        p.totalCents = k := by
      intro k p hp
      rw [queuesOf_apply] at hp
      exact of_decide_eq_true (List.mem_filter.mp hp).2
    refine nodup_served hkey fun k => ?_
    rw [queuesOf_apply]
    exact hselected.filter _
  rw [ids_matched]
  refine hserved.map_on fun p hp p' hp' hsame => ?_
  obtain ⟨⟨row, hit⟩, hs, rfl⟩ := List.mem_filterMap.mp hp
  obtain ⟨⟨row', hit'⟩, hs', rfl⟩ := List.mem_filterMap.mp hp'
  exact List.inj_on_of_nodup_map hids (mem_selected_of_served hs).1
    (mem_selected_of_served hs').1 hsame

/-- A row is left over only when all payouts of its amount are taken. -/
theorem exists_matched_of_unmatched {row : StatementRow}
    (h : row ∈ (r.served rows).filterMap unmatchedOf) {p : ReconcilablePayout}
    (hp : p ∈ r.selected) (hamount : p.totalCents = row.amountCents) :
    p.id ∈ ((r.served rows).filterMap matchOf).map MatchedPayout.payoutId := by
  obtain ⟨⟨row', hit⟩, hserved, hrow⟩ := List.mem_filterMap.mp h
  cases hit with
  | some p => cases hrow
  | none =>
      cases hrow
      have hfew := queue_of_unserved hserved
      rw [queuesOf_apply] at hfew
      have hall := matched_of_amount r rows row.amountCents
      rw [List.take_of_length_le hfew] at hall
      have hmem : p.id ∈ (r.selected.filter fun p => p.totalCents = row.amountCents).map
          fun p => p.id :=
        List.mem_map_of_mem (List.mem_filter.mpr ⟨hp, decide_eq_true hamount⟩)
      rw [← hall] at hmem
      exact (List.filter_sublist.map MatchedPayout.payoutId).subset hmem

end Served

end Refearn.Payouts

/-!
## Reconciliations side by side
-/

namespace Refearn.Payouts

open Support Support.Table

/-! ## What is known of a run -/

/-- A row of a snapshot is still there as it was, unless it has been cleared since. -/
def StillThere (payouts : Table ReconcilablePayout) (p : ReconcilablePayout) : Prop :=
  ∃ p' ∈ payouts, p'.id = p.id ∧ (p'.clearedAt = none → p' = p)

/-- A clearing is what its payout shows. -/
def Stored (payouts : Table ReconcilablePayout) (c : Clearing) : Prop :=
  ∃ p ∈ payouts, p.id = c.payoutId ∧ p.clearedAt = some c.clearedAt ∧ p.bankRef = c.bankRef ∧
    p.reconciledByUserId = some c.reconciledByUserId

/-- How far a run has come. -/
def ReconcileRun.Progress (payouts : Table ReconcilablePayout) (r : ReconcileRun) : Prop :=
  match r.phase with
  | .selecting candidates =>
      r.Paired [] ∧ ∃ remaining : List ReconcilablePayout,
        candidates = remaining.map (fun p => p.id) ∧
        ((r.selected ++ remaining).map fun p => p.id).Nodup ∧
        (r.selected ++ remaining).Pairwise paidNoLater ∧
        ∀ p ∈ remaining, p.isOpen r.tenantId = true ∧ StillThere payouts p
  | .pairing byAmount rest =>
      ∃ rows, r.rows = rows ++ rest ∧ r.Paired rows ∧
        byAmount = rows.foldl (takeFirst StatementRow.amountCents)
          (queuesOf (fun p => p.totalCents) r.selected)
  | .committed => r.Paired r.rows
  | .aborted => True

structure ReconcileRun.Sound (payouts : Table ReconcilablePayout) (r : ReconcileRun) : Prop where
  ids : (r.selected.map fun p => p.id).Nodup
  isOpen : ∀ p ∈ r.selected, p.isOpen r.tenantId = true
  sorted : r.selected.Pairwise paidNoLater
  progress : r.Progress payouts
  held : r.isActive = true → ∀ p ∈ r.selected, p ∈ payouts
  stored : r.isCommitted = true → ∀ c ∈ r.clearings, Stored payouts c

/-- The payouts that a run has cleared for good. -/
def ReconcileRun.clearedIds (r : ReconcileRun) : List Uuid :=
  if r.isCommitted then r.clearings.map Clearing.payoutId else []

def ReconcileWorld.clearedIds (w : ReconcileWorld) : List Uuid :=
  w.runs.flatMap ReconcileRun.clearedIds

structure ReconcileWorld.Sound (w : ReconcileWorld) : Prop where
  runs : ∀ (i : Nat) (r : ReconcileRun), w.runs[i]? = some r → r.Sound w.payouts
  locks : ∀ id, w.locked.countP (· = id) ≤ 1
  once : ∀ id, w.clearedIds.countP (· = id) ≤ 1
  refs : ∀ p ∈ w.payouts, p.clearedAt = none → p.bankRef = none

/-! ## Clearings of a run -/

section Run

variable {payouts : Table ReconcilablePayout} {r : ReconcileRun} {rows : List StatementRow}

theorem ids_clearings (h : r.Paired rows) :
    r.clearings.map Clearing.payoutId =
      ((r.served rows).filterMap matchOf).map MatchedPayout.payoutId := by
  rw [h.clearings, h.matched, List.map_map]
  rfl

theorem nodup_clearings (hids : (r.selected.map fun p => p.id).Nodup) (h : r.Paired rows) :
    (r.clearings.map Clearing.payoutId).Nodup :=
  ids_clearings h ▸ nodup_matched hids rows

/-- A run clears what it has selected. -/
theorem exists_selected_of_clearing (h : r.Paired rows) {c : Clearing} (hc : c ∈ r.clearings) :
    ∃ p ∈ r.selected, p.id = c.payoutId := by
  rw [h.clearings, h.matched] at hc
  obtain ⟨m, hm, rfl⟩ := List.mem_map.mp hc
  obtain ⟨p, hp, -, hid, -⟩ := exists_of_mem_matched hm
  exact ⟨p, hp, hid⟩

/-- Other writers leave the facts about a run alone if they keep what it relies on. -/
theorem ReconcileRun.Sound.mono (h : r.Sound payouts) {payouts' : Table ReconcilablePayout}
    (hthere : ∀ p, p.isOpen r.tenantId = true → StillThere payouts p → StillThere payouts' p)
    (hheld : r.isActive = true → ∀ p ∈ r.selected, p ∈ payouts → p ∈ payouts')
    (hstored : ∀ c, Stored payouts c → Stored payouts' c) : r.Sound payouts' where
  ids := h.ids
  isOpen := h.isOpen
  sorted := h.sorted
  progress := by
    have hprogress := h.progress
    unfold ReconcileRun.Progress at hprogress ⊢
    cases hphase : r.phase with
    | selecting candidates =>
        rw [hphase] at hprogress
        obtain ⟨hpaired, remaining, hids, hnodup, hsorted, hopen⟩ := hprogress
        exact ⟨hpaired, remaining, hids, hnodup, hsorted,
          fun p hp => ⟨(hopen p hp).1, hthere p (hopen p hp).1 (hopen p hp).2⟩⟩
    | pairing byAmount rest =>
        rw [hphase] at hprogress
        exact hprogress
    | committed =>
        rw [hphase] at hprogress
        exact hprogress
    | aborted => trivial
  held := fun hactive p hp => hheld hactive p hp (h.held hactive p hp)
  stored := fun hcommitted c hc => hstored c (h.stored hcommitted c hc)

end Run

/-! ## Steps of one run -/

section Step

variable {w : ReconcileWorld} {i : Nat} {r r' : ReconcileRun}

theorem getElem?_setRun_self (hr : w.runs[i]? = some r) : (w.setRun i r').runs[i]? = some r' := by
  obtain ⟨hi, -⟩ := List.getElem?_eq_some_iff.mp hr
  exact List.getElem?_set_self hi

theorem getElem?_setRun_ne {j : Nat} (hj : j ≠ i) : (w.setRun i r').runs[j]? = w.runs[j]? :=
  List.getElem?_set_ne (Ne.symm hj)

/-- A step of one run that does not write keeps the facts about all of them. -/
theorem ReconcileWorld.Sound.setRun (h : w.Sound) (hr : w.runs[i]? = some r)
    (hr' : r'.Sound w.payouts) (hlocks : ∀ id, (w.setRun i r').locked.countP (· = id) ≤ 1)
    (hcleared : r'.clearedIds = r.clearedIds) : (w.setRun i r').Sound where
  runs := by
    intro j s hs
    by_cases hj : j = i
    · rw [hj, getElem?_setRun_self hr] at hs
      cases hs
      exact hr'
    · rw [getElem?_setRun_ne hj] at hs
      exact h.runs j s hs
  locks := hlocks
  once := by
    intro id
    have hcount := countP_flatMap_set ReconcileRun.clearedIds (· = id) hr r'
    rw [hcleared] at hcount
    have honce := h.once id
    unfold ReconcileWorld.clearedIds at honce ⊢
    change ((w.runs.set i r').flatMap ReconcileRun.clearedIds).countP (· = id) ≤ 1
    omega
  refs := h.refs

/-- A run that locks no more than before. -/
theorem countP_locked_setRun (h : w.Sound) (hr : w.runs[i]? = some r)
    (hlocked : r'.locked.Sublist r.locked) (id : Uuid) :
    (w.setRun i r').locked.countP (· = id) ≤ 1 :=
  (countP_flatMap_set_le ReconcileRun.locked (· = id) hr hlocked.countP_le).trans (h.locks id)

theorem ReconcileRun.locked_of_active (hactive : r.isActive = true) :
    r.locked = r.selected.map fun p => p.id := by
  unfold ReconcileRun.locked
  rw [if_pos hactive]

theorem ReconcileRun.isCommitted_of_active (hactive : r.isActive = true) :
    r.isCommitted = false := by
  unfold ReconcileRun.isActive at hactive
  unfold ReconcileRun.isCommitted
  cases hphase : r.phase with
  | selecting | pairing | aborted => rfl
  | committed => rw [hphase] at hactive; cases hactive

theorem ReconcileRun.clearedIds_of_active (hactive : r.isActive = true) : r.clearedIds = [] := by
  unfold ReconcileRun.clearedIds
  rw [ReconcileRun.isCommitted_of_active hactive]
  rfl

/-- What one run has locked no other run has. -/
theorem not_locked_by_other (h : w.Sound) (hr : w.runs[i]? = some r) {j : Nat} {s : ReconcileRun}
    (hs : w.runs[j]? = some s) (hj : j ≠ i) {id : Uuid} (hid : id ∈ r.locked) :
    id ∉ s.locked := by
  intro hmem
  -- without the locks of the one run those of the other are still there
  let idle : ReconcileRun := { r with phase := .aborted }
  have hcount := countP_flatMap_set ReconcileRun.locked (· = id) hr idle
  have hidle : idle.locked = [] := rfl
  have hother : id ∈ (w.runs.set i idle).flatMap ReconcileRun.locked := by
    refine mem_flatMap_of_getElem? (i := j) ?_ hmem
    rw [List.getElem?_set_ne (Ne.symm hj)]
    exact hs
  have hone : 0 < ((w.runs.set i idle).flatMap ReconcileRun.locked).countP (· = id) :=
    List.countP_pos_iff.mpr ⟨id, hother, decide_eq_true rfl⟩
  have hown : 0 < r.locked.countP (· = id) :=
    List.countP_pos_iff.mpr ⟨id, hid, decide_eq_true rfl⟩
  have hlocks := h.locks id
  unfold ReconcileWorld.locked at hlocks
  rw [hidle, List.countP_nil] at hcount
  omega

end Step

/-! ## The steps -/

section Steps

variable {w : ReconcileWorld} {i : Nat} {r : ReconcileRun}

/-- The row under an id that is read while it is open is the row of the snapshot. -/
theorem eq_of_stillThere {payouts : Table ReconcilablePayout} {p q : ReconcilablePayout}
    {tenantId : Uuid} (hq : StillThere payouts q) (hp : p ∈ payouts) (hid : p.id = q.id)
    (hopen : p.isOpen tenantId = true) : p = q := by
  obtain ⟨p', hp', hid', hsame⟩ := hq
  have heq : p = p' := Table.eq_of_key hp hp' (hid.trans hid'.symm)
  exact heq.trans (hsame (heq ▸ (isOpen_iff.mp hopen).2.2))

theorem find?_open_eq_some {payouts : Table ReconcilablePayout} {id tenantId : Uuid}
    {p : ReconcilablePayout} :
    (payouts.find? id).filter (ReconcilablePayout.isOpen tenantId) = some p ↔
      p ∈ payouts ∧ p.id = id ∧ p.isOpen tenantId = true := by
  rw [Option.filter_eq_some_iff, Table.find?_eq_some, and_assoc]
  exact Iff.rfl

theorem nodup_ids (payouts : Table ReconcilablePayout) :
    (payouts.rows.map fun p => p.id).Nodup :=
  payouts.keys_nodup

theorem ReconcileWorld.Sound.begin (h : w.Sound) {tenantId userId : Uuid}
    {rows : List StatementRow} {candidates : List ReconcilablePayout}
    (hsnapshot : isSnapshot tenantId w.payouts candidates) {w' : ReconcileWorld}
    (hpayouts : w'.payouts = w.payouts)
    (hruns : w'.runs = w.runs ++ [⟨tenantId, userId, rows,
      .selecting (candidates.map fun p => p.id), [], 0, [], [], []⟩]) : w'.Sound where
  runs := by
    intro j s hs
    rw [hpayouts]
    rw [hruns, List.getElem?_append] at hs
    split_ifs at hs with hj
    · exact h.runs j s hs
    · have hmem := List.mem_singleton.mp (List.mem_of_getElem? hs)
      have hopen : ∀ p ∈ candidates, p ∈ w.payouts.rows ∧ p.isOpen tenantId = true :=
        fun p hp => List.mem_filter.mp (hsnapshot.1.mem_iff.mp hp)
      have hids : (candidates.map fun p => p.id).Nodup := by
        have hperm := hsnapshot.1.map fun p => p.id
        have hsub := w.payouts.rows.filter_sublist (p := ReconcilablePayout.isOpen tenantId)
        exact hperm.nodup_iff.mpr ((hsub.map fun p => p.id).nodup (nodup_ids w.payouts))
      rw [hmem]
      refine ⟨List.nodup_nil, fun _ hp => absurd hp List.not_mem_nil, .nil, ?_,
        fun _ _ hp => absurd hp List.not_mem_nil, fun _ _ hc => absurd hc List.not_mem_nil⟩
      exact ⟨⟨rfl, rfl, rfl⟩, candidates, rfl, hids, hsnapshot.2,
        fun p hp => ⟨(hopen p hp).2, p, (hopen p hp).1, rfl, fun _ => rfl⟩⟩
  locks := by
    intro id
    have hlocks := h.locks id
    unfold ReconcileWorld.locked at hlocks ⊢
    rw [hruns, List.flatMap_append, List.countP_append]
    exact hlocks
  once := by
    intro id
    have honce := h.once id
    unfold ReconcileWorld.clearedIds at honce ⊢
    rw [hruns, List.flatMap_append, List.countP_append]
    exact honce
  refs := hpayouts ▸ h.refs

theorem ReconcileRun.isActive_of_selecting {candidates : List Uuid}
    (hphase : r.phase = .selecting candidates) : r.isActive = true := by
  unfold ReconcileRun.isActive
  rw [hphase]

theorem ReconcileRun.isActive_of_pairing {byAmount : Int → List ReconcilablePayout}
    {rest : List StatementRow} (hphase : r.phase = .pairing byAmount rest) :
    r.isActive = true := by
  unfold ReconcileRun.isActive
  rw [hphase]

/-- A candidate is left alone. -/
theorem ReconcileWorld.Sound.skip (h : w.Sound) (hr : w.runs[i]? = some r) {id : Uuid}
    {candidates : List Uuid} (hphase : r.phase = .selecting (id :: candidates)) :
    (w.setRun i { r with phase := .selecting candidates }).Sound := by
  have hsound := h.runs i r hr
  have hactive := r.isActive_of_selecting hphase
  have hprogress := hsound.progress
  unfold ReconcileRun.Progress at hprogress
  rw [hphase] at hprogress
  obtain ⟨hpaired, remaining, hids, hnodup, hsorted, hopen⟩ := hprogress
  cases remaining with
  | nil => cases hids
  | cons q remaining =>
      obtain ⟨-, hids⟩ := List.cons.inj hids
      have hsub : (r.selected ++ remaining).Sublist (r.selected ++ q :: remaining) :=
        (List.sublist_cons_self q remaining).append_left r.selected
      refine h.setRun hr ⟨hsound.ids, hsound.isOpen, hsound.sorted, ?_,
        fun _ => hsound.held hactive, nofun⟩ ?_ ?_
      · exact ⟨⟨hpaired.matched, hpaired.unmatched, hpaired.clearings⟩, remaining, hids,
          (hsub.map _).nodup hnodup, hsorted.sublist hsub,
          fun p hp => hopen p (List.mem_cons_of_mem _ hp)⟩
      · refine countP_locked_setRun h hr ?_
        rw [r.locked_of_active hactive]
        exact .refl _
      · rw [r.clearedIds_of_active hactive]
        rfl

/-- The lock of a run that takes one more payout, which was free. -/
theorem countP_locked_add (h : w.Sound) (hr : w.runs[i]? = some r) {r' : ReconcileRun} {id : Uuid}
    (hfree : id ∉ w.locked) (hnew : r'.locked = r.locked ++ [id]) (id' : Uuid) :
    (w.setRun i r').locked.countP (· = id') ≤ 1 := by
  have hcount := countP_flatMap_set ReconcileRun.locked (· = id') hr r'
  have hlocks := h.locks id'
  rw [hnew, List.countP_append] at hcount
  unfold ReconcileWorld.locked at hlocks hfree ⊢
  change ((w.runs.set i r').flatMap ReconcileRun.locked).countP (· = id') ≤ 1
  by_cases hsame : id = id'
  · have hnone : (w.runs.flatMap ReconcileRun.locked).countP (· = id') = 0 := by
      refine List.countP_eq_zero.mpr fun id'' hmem hequal => hfree ?_
      rw [hsame, ← of_decide_eq_true hequal]
      exact hmem
    have hone : [id].countP (· = id') ≤ 1 := List.countP_le_length
    omega
  · have hzero : [id].countP (· = id') = 0 := by
      rw [List.countP_singleton, if_neg (by simpa using hsame)]
    omega

/-- A candidate is locked and read. -/
theorem ReconcileWorld.Sound.select (h : w.Sound) (hr : w.runs[i]? = some r) {id : Uuid}
    {candidates : List Uuid} (hphase : r.phase = .selecting (id :: candidates))
    {p : ReconcilablePayout} (hp : p ∈ w.payouts) (hid : p.id = id)
    (hpopen : p.isOpen r.tenantId = true) (hfree : id ∉ w.locked) :
    (w.setRun i
      { r with phase := .selecting candidates, selected := r.selected ++ [p] }).Sound := by
  have hsound := h.runs i r hr
  have hactive := r.isActive_of_selecting hphase
  have hprogress := hsound.progress
  unfold ReconcileRun.Progress at hprogress
  rw [hphase] at hprogress
  obtain ⟨hpaired, remaining, hids, hnodup, hsorted, hopen⟩ := hprogress
  cases remaining with
  | nil => cases hids
  | cons q remaining =>
      obtain ⟨hqid, hrest⟩ := List.cons.inj hids
      obtain rfl : p = q := eq_of_stillThere (hopen q List.mem_cons_self).2 hp
        (hid.trans hqid) hpopen
      rw [List.append_cons] at hnodup hsorted
      have hfront := List.sublist_append_left (r.selected ++ [p]) remaining
      refine h.setRun hr ⟨(hfront.map _).nodup hnodup, ?_, hsorted.sublist hfront, ?_,
        fun _ => ?_, nofun⟩ ?_ ?_
      · intro p' hp'
        rcases List.mem_append.mp hp' with hp' | hp'
        · exact hsound.isOpen p' hp'
        · exact List.mem_singleton.mp hp' ▸ hpopen
      · exact ⟨⟨hpaired.matched, hpaired.unmatched, hpaired.clearings⟩, remaining, hrest,
          hnodup, hsorted, fun p' hp' => hopen p' (List.mem_cons_of_mem _ hp')⟩
      · intro p' hp'
        rcases List.mem_append.mp hp' with hp' | hp'
        · exact hsound.held hactive p' hp'
        · exact List.mem_singleton.mp hp' ▸ hp
      · refine countP_locked_add h hr hfree ?_
        rw [r.locked_of_active hactive, ← hid]
        exact List.map_append
      · rw [r.clearedIds_of_active hactive]
        rfl

theorem ReconcileWorld.Sound.visit (h : w.Sound) (hr : w.runs[i]? = some r) {id : Uuid}
    {candidates : List Uuid} (hphase : r.phase = .selecting (id :: candidates))
    (lockedElsewhere : Bool) :
    (w.setRun i (r.visit (lockedElsewhere || decide (id ∈ w.locked)) w.payouts id
      candidates)).Sound := by
  unfold ReconcileRun.visit
  by_cases hskip : (lockedElsewhere || decide (id ∈ w.locked)) = true
  · rw [if_pos hskip]
    exact h.skip hr hphase
  · rw [if_neg hskip]
    have hfree : id ∉ w.locked := by
      intro hmem
      rw [decide_eq_true hmem, Bool.or_true] at hskip
      exact hskip rfl
    cases hfind : (w.payouts.find? id).filter (ReconcilablePayout.isOpen r.tenantId) with
    | none => exact h.skip hr hphase
    | some p =>
        obtain ⟨hp, hid, hpopen⟩ := find?_open_eq_some.mp hfind
        exact h.select hr hphase hp hid hpopen hfree

theorem ReconcileWorld.Sound.startPairing (h : w.Sound) (hr : w.runs[i]? = some r)
    (hphase : r.phase = .selecting []) (now : Instant) :
    (w.setRun i (r.startPairing now)).Sound := by
  have hsound := h.runs i r hr
  have hactive := r.isActive_of_selecting hphase
  have hprogress := hsound.progress
  unfold ReconcileRun.Progress at hprogress
  rw [hphase] at hprogress
  obtain ⟨hpaired, -⟩ := hprogress
  have hclearings : r.clearings = r.matched.map (MatchedPayout.clearing now r.userId) := by
    rw [hpaired.clearings, hpaired.matched]
    rfl
  refine h.setRun hr ⟨hsound.ids, hsound.isOpen, hsound.sorted, ?_,
    fun _ => hsound.held hactive, nofun⟩ ?_ ?_
  · exact ⟨[], rfl, ⟨hpaired.matched, hpaired.unmatched, hclearings⟩, rfl⟩
  · refine countP_locked_setRun h hr ?_
    rw [r.locked_of_active hactive]
    exact .refl _
  · rw [r.clearedIds_of_active hactive]
    rfl

/-- The run goes on with the rest of the statement. -/
theorem ReconcileWorld.Sound.paired (h : w.Sound) (hr : w.runs[i]? = some r)
    {byAmount : Int → List ReconcilablePayout} {row : StatementRow} {rest : List StatementRow}
    (hphase : r.phase = .pairing byAmount (row :: rest)) {matched : List MatchedPayout}
    {unmatched : List StatementRow} {clearings : List Clearing}
    (hpaired : ∀ rows, r.Paired rows → r.rows = rows ++ row :: rest →
      byAmount = rows.foldl (takeFirst StatementRow.amountCents)
        (queuesOf (fun p => p.totalCents) r.selected) →
      ReconcileRun.Paired { r with matched, unmatched, clearings } (rows ++ [row])) :
    (w.setRun i { r with
      phase := .pairing (takeFirst StatementRow.amountCents byAmount row) rest
      matched, unmatched, clearings }).Sound := by
  have hsound := h.runs i r hr
  have hactive := r.isActive_of_pairing hphase
  have hprogress := hsound.progress
  unfold ReconcileRun.Progress at hprogress
  rw [hphase] at hprogress
  obtain ⟨rows, hrows, hdone, hqueues⟩ := hprogress
  have hnext := hpaired rows hdone hrows hqueues
  refine h.setRun hr ⟨hsound.ids, hsound.isOpen, hsound.sorted, ?_,
    fun _ => hsound.held hactive, nofun⟩ ?_ ?_
  · refine ⟨rows ++ [row], ?_, ⟨hnext.matched, hnext.unmatched, hnext.clearings⟩, ?_⟩
    · change r.rows = _
      rw [hrows, List.append_assoc]
      rfl
    · rw [List.foldl_append, hqueues]
      rfl
  · refine countP_locked_setRun h hr ?_
    rw [r.locked_of_active hactive]
    exact .refl _
  · rw [r.clearedIds_of_active hactive]
    rfl

theorem served_append (r : ReconcileRun) (rows : List StatementRow) (row : StatementRow) :
    r.served (rows ++ [row]) = r.served rows ++
      [(row, (rows.foldl (takeFirst StatementRow.amountCents)
        (queuesOf (fun p => p.totalCents) r.selected) row.amountCents).head?)] :=
  serve_append ..

/-- A payout that a run holds and has not cleared yet is uncleared in its view. -/
theorem uncleared_of_held {payouts : Table ReconcilablePayout} {hit : ReconcilablePayout}
    (hmem : hit ∈ payouts) (hclear : hit.clearedAt = none)
    (hfresh : hit.id ∉ r.clearings.map Clearing.payoutId) :
    ((r.view payouts).rows.filter (ReconcilablePayout.isUncleared hit.id)).length ≠ 0 := by
  have hrow : hit ∈ (r.view payouts).rows := by
    unfold ReconcileRun.view
    rw [rows_foldl_clearPayout]
    exact List.mem_map.mpr ⟨hit, hmem, afterClearings_of_fresh hfresh⟩
  have hfound : hit ∈ (r.view payouts).rows.filter (ReconcilablePayout.isUncleared hit.id) :=
    List.mem_filter.mpr ⟨hrow, isUncleared_iff.mpr ⟨rfl, hclear⟩⟩
  exact (List.length_pos_of_mem hfound).ne'

theorem ReconcileWorld.Sound.pair (h : w.Sound) (hr : w.runs[i]? = some r)
    {byAmount : Int → List ReconcilablePayout} {row : StatementRow} {rest : List StatementRow}
    (hphase : r.phase = .pairing byAmount (row :: rest)) :
    (w.setRun i (r.pair w.payouts byAmount row rest)).Sound := by
  have hsound := h.runs i r hr
  have hactive := r.isActive_of_pairing hphase
  unfold ReconcileRun.pair
  cases hhead : (byAmount row.amountCents).head? with
  | none =>
      refine h.paired hr hphase fun rows hdone hrows hqueues => ?_
      rw [hqueues] at hhead
      have hserved := served_append r rows row
      rw [hhead] at hserved
      refine ⟨?_, ?_, hdone.clearings⟩
      · change r.matched = (r.served (rows ++ [row])).filterMap matchOf
        rw [hserved, List.filterMap_append, hdone.matched]
        exact (List.append_nil _).symm
      · change r.unmatched ++ [row] = (r.served (rows ++ [row])).filterMap unmatchedOf
        rw [hserved, List.filterMap_append, hdone.unmatched]
        rfl
  | some hit =>
      have hprogress := hsound.progress
      unfold ReconcileRun.Progress at hprogress
      rw [hphase] at hprogress
      obtain ⟨rows, hrows, hdone, hqueues⟩ := hprogress
      have hserved := served_append r rows row
      rw [← hqueues, hhead] at hserved
      have hselected : hit ∈ r.selected := by
        have hlast : (row, some hit) ∈ r.served (rows ++ [row]) := by
          rw [hserved]
          exact List.mem_append_right _ (List.mem_singleton.mpr rfl)
        exact (mem_selected_of_served hlast).1
      have hfresh : hit.id ∉ r.clearings.map Clearing.payoutId := by
        have hnodup := nodup_matched hsound.ids (rows ++ [row])
        rw [hserved, List.filterMap_append, List.map_append] at hnodup
        rw [ids_clearings hdone]
        exact fun hmem => (List.nodup_append.mp hnodup).2.2 _ hmem _
          (List.mem_singleton.mpr rfl) rfl
      have hcount := uncleared_of_held (hsound.held hactive hit hselected)
        (isOpen_iff.mp (hsound.isOpen hit hselected)).2.2 hfresh
      simp only [if_neg hcount]
      refine h.paired hr hphase fun rows' hdone' hrows' hqueues' => ?_
      have hserved' := served_append r rows' row
      rw [← hqueues', hhead] at hserved'
      refine ⟨?_, ?_, ?_⟩
      · change r.matched ++ [_] = (r.served (rows' ++ [row])).filterMap matchOf
        rw [hserved', List.filterMap_append, hdone'.matched]
        rfl
      · change r.unmatched = (r.served (rows' ++ [row])).filterMap unmatchedOf
        rw [hserved', List.filterMap_append, hdone'.unmatched]
        exact (List.append_nil _).symm
      · change r.clearings ++ [_] = (r.matched ++ [_]).map (MatchedPayout.clearing r.now r.userId)
        rw [List.map_append, hdone'.clearings]
        rfl

theorem ReconcileWorld.Sound.abort (h : w.Sound) (hr : w.runs[i]? = some r)
    (hactive : r.isActive = true) : (w.setRun i { r with phase := .aborted }).Sound := by
  have hsound := h.runs i r hr
  refine h.setRun hr ⟨hsound.ids, hsound.isOpen, hsound.sorted, trivial, nofun, nofun⟩ ?_ ?_
  · exact countP_locked_setRun h hr (List.nil_sublist _)
  · rw [r.clearedIds_of_active hactive]
    rfl

/-! ## Commits -/

theorem mem_view {payouts : Table ReconcilablePayout} {p : ReconcilablePayout} :
    p ∈ r.view payouts ↔ ∃ p₀ ∈ payouts, afterClearings r.clearings p₀ = p := by
  unfold ReconcileRun.view
  rw [Table.mem_def, rows_foldl_clearPayout, List.mem_map]
  exact Iff.rfl

/-- What a commit does to the facts that others rely on. -/
structure CommitsClearings (payouts payouts' : Table ReconcilablePayout) (ids : List Uuid) : Prop where
  others : ∀ p ∈ payouts, p.id ∉ ids → p ∈ payouts'
  there : ∀ p, StillThere payouts p → StillThere payouts' p
  stored : ∀ c, Stored payouts c → Stored payouts' c
  refs : (∀ p ∈ payouts, p.clearedAt = none → p.bankRef = none) →
    ∀ p ∈ payouts', p.clearedAt = none → p.bankRef = none

theorem commits_view {payouts : Table ReconcilablePayout}
    (hids : (r.clearings.map Clearing.payoutId).Nodup) :
    CommitsClearings payouts (r.view payouts) (r.clearings.map Clearing.payoutId) where
  others p hp hfresh := mem_view.mpr ⟨p, hp, afterClearings_of_fresh hfresh⟩
  there := by
    rintro p ⟨p', hp', hid, hsame⟩
    refine ⟨_, mem_view.mpr ⟨p', hp', rfl⟩, (id_afterClearings hids p').trans hid, fun hclear => ?_⟩
    rcases afterClearings_cases hids p' with ⟨heq, -⟩ | ⟨c, -, -, -, heq⟩
    · rw [heq] at hclear ⊢
      exact hsame hclear
    · rw [heq] at hclear
      cases hclear
  stored := by
    rintro c ⟨p, hp, hid, hclear, hrest⟩
    have hkept : afterClearings r.clearings p = p := by
      rcases afterClearings_cases hids p with ⟨heq, -⟩ | ⟨c', -, -, hnone, -⟩
      · exact heq
      · rw [hclear] at hnone
        cases hnone
    exact ⟨p, mem_view.mpr ⟨p, hp, hkept⟩, hid, hclear, hrest⟩
  refs := by
    intro hrefs p hp hclear
    obtain ⟨p₀, hp₀, rfl⟩ := mem_view.mp hp
    rcases afterClearings_cases hids p₀ with ⟨heq, -⟩ | ⟨c, -, -, -, heq⟩
    · rw [heq] at hclear ⊢
      exact hrefs p₀ hp₀ hclear
    · rw [heq] at hclear
      cases hclear

/-- The payout of a clearing is uncleared until the commit. -/
theorem exists_uncleared_of_clearing (h : r.Sound w.payouts) (hactive : r.isActive = true)
    {rows : List StatementRow} (hpaired : r.Paired rows) {c : Clearing} (hc : c ∈ r.clearings) :
    ∃ p ∈ w.payouts, p.id = c.payoutId ∧ p.clearedAt = none := by
  obtain ⟨p, hp, hid⟩ := exists_selected_of_clearing hpaired hc
  exact ⟨p, h.held hactive p hp, hid, (isOpen_iff.mp (h.isOpen p hp)).2.2⟩

theorem stored_view (h : r.Sound w.payouts) (hactive : r.isActive = true)
    {rows : List StatementRow} (hpaired : r.Paired rows) {c : Clearing} (hc : c ∈ r.clearings) :
    Stored (r.view w.payouts) c := by
  have hids := nodup_clearings h.ids hpaired
  obtain ⟨p, hp, hid, hclear⟩ := exists_uncleared_of_clearing h hactive hpaired hc
  rcases afterClearings_cases hids p with ⟨-, hnone⟩ | ⟨c', hc', hid', -, heq⟩
  · exact absurd hclear (hnone c hc hid.symm)
  · have hsame : c' = c := List.inj_on_of_nodup_map hids hc' hc (hid'.trans hid)
    refine ⟨p.cleared c, mem_view.mpr ⟨p, hp, ?_⟩, hid, rfl, rfl, rfl⟩
    rw [heq, hsame]

/-- Nothing that a run is about to clear has been cleared by another run. -/
theorem clearedIds_fresh (h : w.Sound) {id : Uuid}
    (hopen : ∃ p ∈ w.payouts, p.id = id ∧ p.clearedAt = none) : id ∉ w.clearedIds := by
  intro hmem
  obtain ⟨s, hs, hid⟩ := List.mem_flatMap.mp hmem
  obtain ⟨j, hj⟩ := List.getElem?_of_mem hs
  unfold ReconcileRun.clearedIds at hid
  split_ifs at hid with hcommitted
  · obtain ⟨c, hc, rfl⟩ := List.mem_map.mp hid
    obtain ⟨p', hp', hid', hclear', -⟩ := (h.runs j s hj).stored hcommitted c hc
    obtain ⟨p, hp, hid, hclear⟩ := hopen
    have hsame : p = p' := Table.eq_of_key hp hp' (hid.trans hid'.symm)
    rw [← hsame, hclear] at hclear'
    cases hclear'
  · exact absurd hid List.not_mem_nil

theorem ReconcileWorld.Sound.commit (h : w.Sound) (hr : w.runs[i]? = some r)
    {byAmount : Int → List ReconcilablePayout} (hphase : r.phase = .pairing byAmount [])
    {w' : ReconcileWorld} (hpayouts : w'.payouts = r.view w.payouts)
    (hruns : w'.runs = w.runs.set i { r with phase := .committed }) : w'.Sound := by
  have hsound := h.runs i r hr
  have hactive := r.isActive_of_pairing hphase
  have hprogress := hsound.progress
  unfold ReconcileRun.Progress at hprogress
  rw [hphase] at hprogress
  obtain ⟨rows, hrows, hpaired, -⟩ := hprogress
  have hids := nodup_clearings hsound.ids hpaired
  have hcommits : CommitsClearings w.payouts (r.view w.payouts) (r.clearings.map Clearing.payoutId) :=
    commits_view hids
  have hlocked : ∀ id ∈ r.clearings.map Clearing.payoutId, id ∈ r.locked := by
    intro id hid
    obtain ⟨c, hc, rfl⟩ := List.mem_map.mp hid
    obtain ⟨p, hp, hpid⟩ := exists_selected_of_clearing hpaired hc
    rw [r.locked_of_active hactive, ← hpid]
    exact List.mem_map_of_mem hp
  refine ⟨?_, ?_, ?_, ?_⟩
  · intro j s hs
    rw [hpayouts]
    rw [hruns] at hs
    by_cases hj : j = i
    · obtain ⟨hi, -⟩ := List.getElem?_eq_some_iff.mp hr
      rw [hj, List.getElem?_set_self hi] at hs
      cases hs
      refine ⟨hsound.ids, hsound.isOpen, hsound.sorted, ?_, nofun,
        fun _ c hc => stored_view hsound hactive hpaired hc⟩
      rw [List.append_nil] at hrows
      change ReconcileRun.Paired _ r.rows
      rw [hrows]
      exact ⟨hpaired.matched, hpaired.unmatched, hpaired.clearings⟩
    · rw [List.getElem?_set_ne (Ne.symm hj)] at hs
      refine (h.runs j s hs).mono (fun p _ => hcommits.there p) (fun hother p hp hmem => ?_)
        hcommits.stored
      refine hcommits.others p hmem fun hid => ?_
      refine not_locked_by_other h hr hs hj (hlocked p.id hid) ?_
      rw [s.locked_of_active hother]
      exact List.mem_map_of_mem hp
  · intro id
    have hsub : (ReconcileRun.locked { r with phase := .committed }).Sublist r.locked :=
      List.nil_sublist _
    have hle := countP_locked_setRun h hr hsub id
    unfold ReconcileWorld.locked at hle ⊢
    rw [hruns]
    exact hle
  · intro id
    have hcount := countP_flatMap_set ReconcileRun.clearedIds (· = id) hr
      { r with phase := .committed }
    rw [r.clearedIds_of_active hactive, List.countP_nil] at hcount
    have hown : (ReconcileRun.clearedIds { r with phase := .committed }).countP (· = id) ≤ 1 := by
      have hle := List.nodup_iff_count_le_one.mp hids id
      rwa [List.count_eq_countP] at hle
    have honce := h.once id
    unfold ReconcileWorld.clearedIds at honce ⊢
    rw [hruns]
    by_cases hid : id ∈ r.clearings.map Clearing.payoutId
    · obtain ⟨c, hc, rfl⟩ := List.mem_map.mp hid
      have hfresh := clearedIds_fresh h (exists_uncleared_of_clearing hsound hactive hpaired hc)
      have hnone : (w.runs.flatMap ReconcileRun.clearedIds).countP (· = c.payoutId) = 0 := by
        refine List.countP_eq_zero.mpr fun id' hmem hequal => hfresh ?_
        rw [← of_decide_eq_true hequal]
        exact hmem
      omega
    · have hnone : (ReconcileRun.clearedIds { r with phase := .committed }).countP (· = id) = 0 := by
        refine List.countP_eq_zero.mpr fun id' hmem hequal => hid ?_
        rw [← of_decide_eq_true hequal]
        exact hmem
      omega
  · rw [hpayouts]
    exact hcommits.refs h.refs

/-! ## Other writers -/

theorem ReconcileWorld.Sound.foreign (h : w.Sound) {payouts : Table ReconcilablePayout}
    (hforeign : isForeign w.payouts payouts) : ReconcileWorld.Sound { w with payouts } where
  runs := by
    intro j s hs
    have hpaid : ∀ p ∈ w.payouts, p.status = .paid → p ∈ payouts := by
      intro p hp hstatus
      obtain ⟨p', hp', -, -, -, -, hsame⟩ := hforeign.1 p hp
      exact hsame hstatus ▸ hp'
    refine (h.runs j s hs).mono ?_ ?_ ?_
    · rintro p hopen ⟨p', hp', hid, hsame⟩
      obtain ⟨p'', hp'', hid'', hclear'', -, -, hpaid'⟩ := hforeign.1 p' hp'
      refine ⟨p'', hp'', hid''.trans hid, fun hclear => ?_⟩
      have heq := hsame (hclear'' ▸ hclear)
      have hstatus : p'.status = .paid := heq ▸ (isOpen_iff.mp hopen).2.1
      exact (hpaid' hstatus).trans heq
    · intro _ p hp hmem
      exact hpaid p hmem (isOpen_iff.mp ((h.runs j s hs).isOpen p hp)).2.1
    · rintro c ⟨p, hp, hid, hclear, href, huser⟩
      obtain ⟨p', hp', hid', hclear', href', huser', -⟩ := hforeign.1 p hp
      exact ⟨p', hp', hid'.trans hid, hclear'.trans hclear, href'.trans href,
        huser'.trans huser⟩
  locks := h.locks
  once := h.once
  refs := by
    intro p' hp' hclear
    by_cases hold : ∃ p ∈ w.payouts, p.id = p'.id
    · obtain ⟨p, hp, hid⟩ := hold
      obtain ⟨p'', hp'', hid'', hclear'', href'', -⟩ := hforeign.1 p hp
      have hsame : p'' = p' := Table.eq_of_key hp'' hp' (hid''.trans hid)
      rw [hsame] at hclear'' href''
      exact href''.trans (h.refs p hp (hclear''.symm.trans hclear))
    · exact (hforeign.2 p' hp' fun p hp hid => hold ⟨p, hp, hid⟩).2

end Steps

/-! ## Every step -/

theorem ReconcileWorld.Sound.apply {w : ReconcileWorld} (h : w.Sound) (step : ReconcileStep) :
    (step.apply w).Sound := by
  cases step with
  | begin tenantId userId rows candidates =>
      simp only [ReconcileStep.apply]
      split_ifs with hsnapshot
      · exact h.begin hsnapshot rfl rfl
      · exact h
  | visit i lockedElsewhere =>
      simp only [ReconcileStep.apply]
      split
      · exact h
      · rename_i r hr
        split
        · rename_i id candidates hphase
          exact h.visit hr hphase lockedElsewhere
        all_goals exact h
  | startPairing i now =>
      simp only [ReconcileStep.apply]
      split
      · exact h
      · rename_i r hr
        split
        · rename_i hphase
          exact h.startPairing hr hphase now
        all_goals exact h
  | pair i =>
      simp only [ReconcileStep.apply]
      split
      · exact h
      · rename_i r hr
        split
        · rename_i byAmount row rest hphase
          exact h.pair hr hphase
        all_goals exact h
  | commit i =>
      simp only [ReconcileStep.apply]
      split
      · exact h
      · rename_i r hr
        split
        · rename_i byAmount hphase
          exact h.commit hr hphase rfl rfl
        all_goals exact h
  | abort i =>
      simp only [ReconcileStep.apply]
      split
      · exact h
      · rename_i r hr
        split_ifs with hactive
        · exact h.abort hr hactive
        · exact h
  | foreign payouts =>
      simp only [ReconcileStep.apply]
      split_ifs with hforeign
      · exact h.foreign hforeign
      · exact h

theorem ReconcileWorld.Initial.sound {w : ReconcileWorld} (h : w.Initial) : w.Sound := by
  obtain ⟨hruns, hrefs⟩ := h
  refine ⟨fun i r hr => ?_, fun id => ?_, fun id => ?_, hrefs⟩
  · rw [hruns] at hr
    cases hr
  · unfold ReconcileWorld.locked
    rw [hruns]
    exact Nat.zero_le 1
  · unfold ReconcileWorld.clearedIds
    rw [hruns]
    exact Nat.zero_le 1

theorem sound_of_reachable {w : ReconcileWorld}
    (h : Reachable ReconcileWorld.Initial ReconcileStep.apply w) : w.Sound :=
  Reachable.invariant (I := ReconcileWorld.Sound) (fun _ hinit => hinit.sound)
    (fun step _ hsound => hsound.apply step) h

/-! ## Cleared payouts -/

/-- What has been cleared is still there, with the date and the reference of its clearing. -/
def KeepsCleared (w w' : ReconcileWorld) : Prop :=
  ∀ p ∈ w.payouts, p.clearedAt ≠ none → ∃ p' ∈ w'.payouts, p'.id = p.id ∧
    p'.clearedAt = p.clearedAt ∧ p'.bankRef = p.bankRef ∧
      p'.reconciledByUserId = p.reconciledByUserId

theorem keepsCleared_of_eq {w w' : ReconcileWorld} (h : w'.payouts = w.payouts) :
    KeepsCleared w w' := fun p hp _ => ⟨p, h ▸ hp, rfl, rfl, rfl, rfl⟩

theorem keepsCleared_apply {w : ReconcileWorld} (h : w.Sound) (step : ReconcileStep) :
    KeepsCleared w (step.apply w) := by
  cases step with
  | begin | visit | startPairing | pair | abort =>
      refine keepsCleared_of_eq ?_
      simp only [ReconcileStep.apply]
      repeat' split
      all_goals rfl
  | commit i =>
      simp only [ReconcileStep.apply]
      split
      · exact keepsCleared_of_eq rfl
      · rename_i r hr
        split
        · rename_i byAmount hphase
          have hsound := h.runs i r hr
          have hprogress := hsound.progress
          unfold ReconcileRun.Progress at hprogress
          rw [hphase] at hprogress
          obtain ⟨rows, -, hpaired, -⟩ := hprogress
          intro p hp hclear
          refine ⟨p, mem_view.mpr ⟨p, hp, ?_⟩, rfl, rfl, rfl, rfl⟩
          rcases afterClearings_cases (nodup_clearings hsound.ids hpaired) p with
            ⟨heq, -⟩ | ⟨c, -, -, hnone, -⟩
          · exact heq
          · exact absurd hnone hclear
        all_goals exact keepsCleared_of_eq rfl
  | foreign payouts =>
      simp only [ReconcileStep.apply]
      split_ifs with hforeign
      · intro p hp _
        obtain ⟨p', hp', hid, hclear, href, huser, -⟩ := hforeign.1 p hp
        exact ⟨p', hp', hid, hclear, href, huser⟩
      · exact keepsCleared_of_eq rfl

theorem keepsCleared_run {w : ReconcileWorld}
    (h : Reachable ReconcileWorld.Initial ReconcileStep.apply w) (steps : List ReconcileStep) :
    KeepsCleared w (run ReconcileStep.apply steps w) := by
  refine run_relation (fun s => keepsCleared_of_eq rfl) ?_
    (fun step s hs => keepsCleared_apply (sound_of_reachable hs) step) h steps
  intro s t u hst htu p hp hclear
  obtain ⟨p', hp', hid, hclear', href, huser⟩ := hst p hp hclear
  obtain ⟨p'', hp'', hid', hclear'', href', huser'⟩ := htu p' hp' (hclear' ▸ hclear)
  exact ⟨p'', hp'', hid'.trans hid, hclear''.trans hclear', href'.trans href,
    huser'.trans huser⟩

end Refearn.Payouts
