import Refearn.Notifications.Relay
import Refearn.Support.Serving
/-!
# What a claim does to the outbox

A claim fails the rows whose last lease has run out and leases due rows, each under a token of
its own; every other row stays as it is. A claim that meets no locks takes a due row or
leaves fewer of them.
-/

namespace Refearn.Notifications

open Support Support.Table

theorem Notification.eq_of_id {t : Table Notification} {n n' : Notification} (hn : n ∈ t)
    (hn' : n' ∈ t) (h : n.id = n'.id) : n = n' :=
  Table.eq_of_key hn hn' h

theorem Notification.isDue_iff {now : Instant} {n : Notification} :
    n.isDue now = true ↔ ∃ available, n.availableAt = some available ∧ available ≤ now := by
  unfold Notification.isDue
  cases n.availableAt <;> simp

theorem Notification.isClaimable_iff {now : Instant} {n : Notification} :
    n.isClaimable now = true ↔ (n.status = .pending ∨ n.status = .processing) ∧
      n.isDue now = true ∧ n.attempts < MAX_ATTEMPTS := by
  unfold Notification.isClaimable
  cases n.status <;> cases n.isDue now <;> simp

theorem Notification.isExpiredAtCap_iff {now : Instant} {n : Notification} :
    n.isExpiredAtCap now = true ↔ n.status = .processing ∧ n.isDue now = true ∧
      MAX_ATTEMPTS ≤ n.attempts := by
  unfold Notification.isExpiredAtCap
  cases n.status <;> cases n.isDue now <;> simp

/-! ## The first statement -/

/-- What the first statement makes of a row. -/
inductive Swept (now : Instant) (n : Notification) : Notification → Prop
  | kept : Swept now n n
  | gaveUp (hexpired : n.isExpiredAtCap now = true) : Swept now n n.givenUp

section Sweep

variable {locked : Uuid → Bool} {now : Instant} {t : Table Notification}

/-- The table after the first statement of a claim. -/
def sweep (locked : Uuid → Bool) (now : Instant) (t : Table Notification) :
    Table Notification :=
  (expiredAtCap locked now t).foldl giveUp t

/-- The update of the first statement for a row that it has read. -/
def isSame (expired n : Notification) : Bool :=
  n.id == expired.id && n.status == .processing && n.leaseToken == expired.leaseToken

theorem mem_expiredAtCap {n : Notification} :
    n ∈ expiredAtCap locked now t ↔ n ∈ t ∧ locked n.id = false ∧ n.isExpiredAtCap now = true := by
  unfold expiredAtCap
  rw [List.mem_filter, Bool.and_eq_true, Bool.not_eq_true', Table.mem_def]

theorem rows_sweep :
    (sweep locked now t).rows = t.rows.map
      (rewrites isSame (fun _ => Notification.givenUp) (expiredAtCap locked now t)) :=
  Table.rows_foldl_updateWhere isSame (fun _ => Notification.givenUp)
    (fun _ => keepsIndexes_notification fun _ => rfl) _ t

theorem isSame_id {e n : Notification} (h : isSame e n = true) : e.id = n.id := by
  simp only [isSame, Bool.and_eq_true, beq_iff_eq] at h
  exact h.1.1.symm

theorem rewrites_sweep (locked : Uuid → Bool) (now : Instant) (t : Table Notification)
    (n : Notification) :
    (rewrites isSame (fun _ => Notification.givenUp) (expiredAtCap locked now t) n = n ∧
        ∀ e ∈ expiredAtCap locked now t, isSame e n = false) ∨
      ∃ e ∈ expiredAtCap locked now t, isSame e n = true ∧
        rewrites isSame (fun _ => Notification.givenUp) (expiredAtCap locked now t) n =
          n.givenUp := by
  have hids : ((expiredAtCap locked now t).map Notification.id).Nodup :=
    (t.rows.filter_sublist.map Notification.id).nodup t.keys_nodup
  exact rewrites_cases isSame (fun _ => Notification.givenUp) hids (fun _ _ => isSame_id)
    (fun _ _ => rfl) n

theorem swept_of_mem (locked : Uuid → Bool) {n : Notification} (hn : n ∈ t) :
    Swept now n
      (rewrites isSame (fun _ => Notification.givenUp) (expiredAtCap locked now t) n) := by
  rcases rewrites_sweep locked now t n with ⟨heq, -⟩ | ⟨e, he, hsame, heq⟩
  · rw [heq]
    exact .kept
  · obtain ⟨het, -, hexpired⟩ := mem_expiredAtCap.mp he
    have hen : e = n := Notification.eq_of_id het hn (isSame_id hsame)
    rw [heq]
    exact .gaveUp (hen ▸ hexpired)

/-- A row that nobody has locked is failed once its last lease has run out. -/
theorem sweep_of_expired {n : Notification} (hn : n ∈ t) (hfree : locked n.id = false)
    (hexpired : n.isExpiredAtCap now = true) :
    rewrites isSame (fun _ => Notification.givenUp) (expiredAtCap locked now t) n =
      n.givenUp := by
  rcases rewrites_sweep locked now t n with ⟨-, hnone⟩ | ⟨e, -, -, heq⟩
  · have hself : isSame n n = false := hnone n (mem_expiredAtCap.mpr ⟨hn, hfree, hexpired⟩)
    have hstatus := (Notification.isExpiredAtCap_iff.mp hexpired).1
    simp [isSame, hstatus] at hself
  · exact heq

end Sweep

/-! ## The second statement -/

section Lease

variable {locked : Uuid → Bool} {tokens : Nat → Uuid} {now : Instant} {t : Table Notification}

/-- The claims that the second statement makes. -/
def claimsOn (locked : Uuid → Bool) (tokens : Nat → Uuid) (now : Instant)
    (t : Table Notification) : List ClaimedNotification :=
  (claimableRows locked now t).mapIdx fun i n => n.claim (tokens i) (now + LEASE_MS)

/-- The update of the second statement for a row that it has read. -/
def isFor (c : ClaimedNotification) (n : Notification) : Bool :=
  n.id == c.id && n.status == c.status

theorem isFor_iff {c : ClaimedNotification} {n : Notification} :
    isFor c n = true ↔ c.id = n.id ∧ n.status = c.status := by
  simp only [isFor, Bool.and_eq_true, beq_iff_eq]
  exact ⟨fun h => ⟨h.1.symm, h.2⟩, fun h => ⟨h.1.symm, h.2⟩⟩

theorem mem_of_claimableRows {n : Notification} (h : n ∈ claimableRows locked now t) :
    n ∈ t ∧ n.isClaimable now = true := by
  have hsorted := List.mem_of_mem_take h
  have hfiltered := (List.perm_insertionSort _ _).mem_iff.mp hsorted
  obtain ⟨hn, hkeep⟩ := List.mem_filter.mp hfiltered
  rw [Bool.and_eq_true] at hkeep
  exact ⟨hn, hkeep.2⟩

theorem ids_claimableRows : ((claimableRows locked now t).map Notification.id).Nodup := by
  have hfiltered : ((t.rows.filter fun n => !locked n.id && n.isClaimable now).map
      Notification.id).Nodup := (t.rows.filter_sublist.map Notification.id).nodup t.keys_nodup
  have hsorted := ((List.perm_insertionSort (fun n n' => n.createdAt ≤ n'.createdAt)
    _).map Notification.id).nodup_iff.mpr hfiltered
  exact ((List.take_sublist BATCH _).map Notification.id).nodup hsorted

theorem ids_claimsOn : ((claimsOn locked tokens now t).map ClaimedNotification.id).Nodup := by
  have hids : (claimsOn locked tokens now t).map ClaimedNotification.id =
      (claimableRows locked now t).map Notification.id := by
    unfold claimsOn
    refine List.ext_getElem (by simp) fun i h h' => ?_
    simp [Notification.claim]
  rw [hids]
  exact ids_claimableRows

/-- A claim is made on a due row, with one attempt more than it had. -/
theorem mem_claimsOn {c : ClaimedNotification} (h : c ∈ claimsOn locked tokens now t) :
    ∃ n ∈ t, n.isClaimable now = true ∧ ∃ token, c = n.claim token (now + LEASE_MS) := by
  unfold claimsOn at h
  obtain ⟨i, hi, rfl⟩ := List.mem_mapIdx.mp h
  obtain ⟨hn, hclaimable⟩ := mem_of_claimableRows (List.getElem_mem hi)
  exact ⟨_, hn, hclaimable, tokens i, rfl⟩

theorem exists_claim_of_claimable {n : Notification} (h : n ∈ claimableRows locked now t) :
    ∃ c ∈ claimsOn locked tokens now t, ∃ token, c = n.claim token (now + LEASE_MS) := by
  obtain ⟨i, hi, rfl⟩ := List.mem_iff_getElem.mp h
  exact ⟨_, List.mem_mapIdx.mpr ⟨i, hi, rfl⟩, tokens i, rfl⟩

theorem rows_writeLease (cs : List ClaimedNotification) :
    (cs.foldl writeLease t).rows = t.rows.map (rewrites isFor Notification.leased cs) :=
  Table.rows_foldl_updateWhere isFor Notification.leased
    (fun _ => keepsIndexes_notification fun _ => rfl) cs t

/-- What the second statement makes of a row. -/
inductive Leased (now : Instant) (claimed : List ClaimedNotification) (n : Notification) :
    Notification → Prop
  | kept (hother : ∀ c ∈ claimed, c.id ≠ n.id) : Leased now claimed n n
  | leased (c : ClaimedNotification) (hc : c ∈ claimed) (hid : c.id = n.id)
      (hclaimable : n.isClaimable now = true) (hattempts : c.attempts = n.attempts + 1)
      (havailable : c.availableAt = now + LEASE_MS) : Leased now claimed n (n.leased c)

theorem leased_of_mem {n : Notification} (hn : n ∈ t) :
    Leased now (claimsOn locked tokens now t) n
      (rewrites isFor Notification.leased (claimsOn locked tokens now t) n) := by
  have hrow : ∀ c ∈ claimsOn locked tokens now t, c.id = n.id →
      n.isClaimable now = true ∧ c.status = n.status ∧ c.attempts = n.attempts + 1 ∧
        c.availableAt = now + LEASE_MS := by
    intro c hc hid
    obtain ⟨m, hm, hclaimable, token, rfl⟩ := mem_claimsOn hc
    have hmn : m = n := Notification.eq_of_id hm hn hid
    subst hmn
    exact ⟨hclaimable, rfl, rfl, rfl⟩
  have hids : ((claimsOn locked tokens now t).map ClaimedNotification.id).Nodup := ids_claimsOn
  rcases rewrites_cases isFor Notification.leased hids (fun _ _ h => (isFor_iff.mp h).1)
      (fun _ _ => rfl) n with ⟨heq, hnone⟩ | ⟨c, hc, hfor, heq⟩
  · rw [heq]
    refine .kept fun c hc hid => ?_
    have hfor := isFor_iff.mpr ⟨hid, (hrow c hc hid).2.1.symm⟩
    rw [hnone c hc] at hfor
    cases hfor
  · have hid := (isFor_iff.mp hfor).1
    obtain ⟨hclaimable, -, hattempts, havailable⟩ := hrow c hc hid
    rw [heq]
    exact .leased c hc hid hclaimable hattempts havailable

end Lease

/-! ## Both statements -/

/-- What a claim makes of a row. -/
inductive ClaimMove (now : Instant) (claimed : List ClaimedNotification) (n : Notification) :
    Notification → Prop
  | kept (hother : ∀ c ∈ claimed, c.id ≠ n.id) : ClaimMove now claimed n n
  | gaveUp (hexpired : n.isExpiredAtCap now = true) (hother : ∀ c ∈ claimed, c.id ≠ n.id) :
      ClaimMove now claimed n n.givenUp
  | leased (c : ClaimedNotification) (hc : c ∈ claimed) (hid : c.id = n.id)
      (hclaimable : n.isClaimable now = true) (hattempts : c.attempts = n.attempts + 1)
      (havailable : c.availableAt = now + LEASE_MS) : ClaimMove now claimed n (n.leased c)

theorem Notification.not_claimable_givenUp (now : Instant) (n : Notification) :
    n.givenUp.isClaimable now = false := rfl

theorem Notification.not_claimable_of_expired {now : Instant} {n : Notification}
    (h : n.isExpiredAtCap now = true) : n.isClaimable now = false := by
  obtain ⟨-, -, hcap⟩ := Notification.isExpiredAtCap_iff.mp h
  by_contra hclaimable
  obtain ⟨-, -, hlt⟩ := Notification.isClaimable_iff.mp (Bool.of_not_eq_false hclaimable)
  omega

theorem Notification.not_claimable_leased {now : Instant} {c : ClaimedNotification}
    {n : Notification} (h : c.availableAt = now + LEASE_MS) :
    (n.leased c).isClaimable now = false := by
  by_contra hclaimable
  obtain ⟨-, hdue, -⟩ := Notification.isClaimable_iff.mp (Bool.of_not_eq_false hclaimable)
  obtain ⟨available, havailable, hle⟩ := Notification.isDue_iff.mp hdue
  cases havailable
  rw [h] at hle
  have hlater : now < now + LEASE_MS := Int.lt_add_of_pos_right now (by decide)
  exact absurd hle (not_le.mpr hlater)

/-- A row that can still be claimed after a claim could be claimed before, and has been left
alone. -/
theorem ClaimMove.claimable {now : Instant} {claimed : List ClaimedNotification}
    {n n' : Notification} (h : ClaimMove now claimed n n') (hclaimable : n'.isClaimable now = true) :
    n' = n ∧ ∀ c ∈ claimed, c.id ≠ n.id := by
  cases h with
  | kept hother => exact ⟨rfl, hother⟩
  | gaveUp hexpired hother =>
      rw [Notification.not_claimable_givenUp] at hclaimable
      cases hclaimable
  | leased c hc hid hold hattempts havailable =>
      rw [Notification.not_claimable_leased havailable] at hclaimable
      cases hclaimable

section Whole

variable {locked locked' : Uuid → Bool} {tokens : Nat → Uuid} {now : Instant}
  {t : Table Notification}

theorem ids_claimPending :
    ((claimPending locked locked' tokens now t).1.map ClaimedNotification.id).Nodup :=
  ids_claimsOn

/-- A claim rewrites the table row by row. -/
theorem rows_claimPending (locked locked' : Uuid → Bool) (tokens : Nat → Uuid) (now : Instant)
    (t : Table Notification) : ∃ f : Notification → Notification,
    (claimPending locked locked' tokens now t).2.rows = t.rows.map f ∧
      ∀ n ∈ t, ClaimMove now (claimPending locked locked' tokens now t).1 n (f n) := by
  refine ⟨fun n => rewrites isFor Notification.leased (claimPending locked locked' tokens now t).1
    (rewrites isSame (fun _ => Notification.givenUp) (expiredAtCap locked now t) n), ?_, ?_⟩
  · have hwritten : (claimPending locked locked' tokens now t).2.rows = (sweep locked now t).rows.map
        (rewrites isFor Notification.leased (claimPending locked locked' tokens now t).1) :=
      rows_writeLease _
    rw [hwritten, rows_sweep, List.map_map]
    rfl
  · intro n hn
    have hswept : Swept now n _ := swept_of_mem locked hn
    have hmem : rewrites isSame (fun _ => Notification.givenUp) (expiredAtCap locked now t) n ∈
        sweep locked now t := by
      rw [Table.mem_def, rows_sweep]
      exact List.mem_map_of_mem hn
    have hleased : Leased now (claimPending locked locked' tokens now t).1
        (rewrites isSame (fun _ => Notification.givenUp) (expiredAtCap locked now t) n)
        (rewrites isFor Notification.leased (claimPending locked locked' tokens now t).1
          (rewrites isSame (fun _ => Notification.givenUp) (expiredAtCap locked now t) n)) :=
      leased_of_mem hmem
    dsimp only
    generalize rewrites isSame (fun _ => Notification.givenUp) (expiredAtCap locked now t) n = m
      at hswept hleased ⊢
    generalize rewrites isFor Notification.leased (claimPending locked locked' tokens now t).1 m = r
      at hleased ⊢
    cases hswept with
    | kept =>
        cases hleased with
        | kept hother => exact .kept hother
        | leased c hc hid hclaimable hattempts havailable =>
            exact .leased c hc hid hclaimable hattempts havailable
    | gaveUp hexpired =>
        cases hleased with
        | kept hother => exact .gaveUp hexpired hother
        | leased c hc hid hclaimable hattempts havailable => cases hclaimable

/-- Every claim is on a row of the table. -/
theorem mem_claimPending {c : ClaimedNotification}
    (h : c ∈ (claimPending locked locked' tokens now t).1) : ∃ n ∈ t, n.id = c.id := by
  obtain ⟨m, hm, -, token, rfl⟩ := mem_claimsOn h
  have hrows : m ∈ (sweep locked now t).rows := hm
  rw [rows_sweep] at hrows
  obtain ⟨n, hn, rfl⟩ := List.mem_map.mp hrows
  refine ⟨n, hn, ?_⟩
  have hswept : Swept now n _ := swept_of_mem locked hn
  generalize rewrites isSame (fun _ => Notification.givenUp) (expiredAtCap locked now t) n = m
    at hswept ⊢
  cases hswept <;> rfl

end Whole

/-! ## A claim that meets no locks -/

section Progress

variable {tokens : Nat → Uuid} {now : Instant} {t : Table Notification}

/-- No other transaction holds a row. -/
def unlocked : Uuid → Bool := fun _ => false

theorem mem_sweep_of_claimable {n : Notification} (hn : n ∈ t)
    (hclaimable : n.isClaimable now = true) : n ∈ sweep unlocked now t := by
  rw [Table.mem_def, rows_sweep]
  refine List.mem_map.mpr ⟨n, hn, ?_⟩
  rcases rewrites_sweep unlocked now t n with ⟨heq, -⟩ | ⟨e, he, hsame, -⟩
  · exact heq
  · obtain ⟨het, -, hexpired⟩ := mem_expiredAtCap.mp he
    have hen : e = n := Notification.eq_of_id het hn (isSame_id hsame)
    rw [hen] at hexpired
    have hnot := Notification.not_claimable_of_expired hexpired
    rw [hclaimable] at hnot
    cases hnot

theorem claimable_of_mem_sweep {m : Notification} (hm : m ∈ sweep unlocked now t)
    (hclaimable : m.isClaimable now = true) : m ∈ t := by
  rw [Table.mem_def, rows_sweep] at hm
  obtain ⟨n, hn, rfl⟩ := List.mem_map.mp hm
  have hswept : Swept now n _ := swept_of_mem unlocked hn
  generalize rewrites isSame (fun _ => Notification.givenUp) (expiredAtCap unlocked now t) n = m
    at hswept hclaimable ⊢
  cases hswept with
  | kept => exact hn
  | gaveUp => cases hclaimable

/-- As long as a row can be claimed, some row is. -/
theorem exists_claimed (tokens : Nat → Uuid) {n : Notification} (hn : n ∈ t) (hclaimable : n.isClaimable now = true) :
    ∃ m ∈ t, m.isClaimable now = true ∧
      ∃ c ∈ (claimPending unlocked unlocked tokens now t).1, c.id = m.id := by
  have hfound : n ∈ (sweep unlocked now t).rows.filter fun n =>
      !unlocked n.id && n.isClaimable now := by
    refine List.mem_filter.mpr ⟨mem_sweep_of_claimable hn hclaimable, ?_⟩
    exact hclaimable
  have hrows : claimableRows unlocked now (sweep unlocked now t) ≠ [] := by
    unfold claimableRows
    intro hnil
    rw [List.take_eq_nil_iff] at hnil
    rcases hnil with hbatch | hsorted
    · cases hbatch
    · have hmem := (List.perm_insertionSort (fun n n' => n.createdAt ≤ n'.createdAt) _).mem_iff.mpr
        hfound
      rw [hsorted] at hmem
      cases hmem
  obtain ⟨m, hm⟩ := List.exists_mem_of_ne_nil _ hrows
  obtain ⟨hmem, hm'⟩ := mem_of_claimableRows hm
  obtain ⟨c, hc, token, rfl⟩ := exists_claim_of_claimable hm
  exact ⟨m, claimable_of_mem_sweep hmem hm', hm', _, hc, rfl⟩

/-- Fewer rows can be claimed after a claim. -/
theorem countP_claimable_lt (tokens : Nat → Uuid) {n : Notification} (hn : n ∈ t) (hclaimable : n.isClaimable now = true) :
    (claimPending unlocked unlocked tokens now t).2.rows.countP (Notification.isClaimable now) <
      t.rows.countP (Notification.isClaimable now) := by
  obtain ⟨f, hrows, hmoves⟩ := rows_claimPending unlocked unlocked tokens now t
  obtain ⟨m, hm, hmclaimable, c, hc, hid⟩ := exists_claimed tokens hn hclaimable
  rw [hrows, List.countP_map]
  refine countP_lt_countP ?_ hm ?_ hmclaimable
  · intro r hr hafter
    obtain ⟨hsame, -⟩ := (hmoves r hr).claimable hafter
    change (f r).isClaimable now = true at hafter
    rw [hsame] at hafter
    exact hafter
  · -- the row that has been claimed is under a lease that has just begun
    by_contra hafter
    have hafter' : (f m).isClaimable now = true := Bool.of_not_eq_false hafter
    obtain ⟨-, hother⟩ := (hmoves m hm).claimable hafter'
    exact hother c hc hid

/-- A row whose last lease has run out is failed by a claim. -/
theorem givenUp_mem_claimPending (tokens : Nat → Uuid) {n : Notification} (hn : n ∈ t)
    (hexpired : n.isExpiredAtCap now = true) :
    n.givenUp ∈ (claimPending unlocked unlocked tokens now t).2 := by
  have hswept := sweep_of_expired hn (rfl : unlocked n.id = false) hexpired
  have hmem : n.givenUp ∈ sweep unlocked now t := by
    rw [Table.mem_def, rows_sweep]
    exact List.mem_map.mpr ⟨n, hn, hswept⟩
  have hleased : Leased now (claimPending unlocked unlocked tokens now t).1 n.givenUp
      (rewrites isFor Notification.leased (claimPending unlocked unlocked tokens now t).1
        n.givenUp) := leased_of_mem hmem
  have hrows : (claimPending unlocked unlocked tokens now t).2.rows = (sweep unlocked now t).rows.map
      (rewrites isFor Notification.leased (claimPending unlocked unlocked tokens now t).1) :=
    rows_writeLease _
  rw [Table.mem_def, hrows]
  refine List.mem_map.mpr ⟨n.givenUp, hmem, ?_⟩
  generalize rewrites isFor Notification.leased _ n.givenUp = r at hleased ⊢
  cases hleased with
  | kept hother => rfl
  | leased c hc hid hclaimable hattempts havailable => cases hclaimable

end Progress

end Refearn.Notifications
