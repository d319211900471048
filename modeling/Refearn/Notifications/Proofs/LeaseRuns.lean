import Refearn.Notifications.Proofs.Claims
/-!
# The lease protocol

What any number of relays do to the outbox in any order, however the clock moves on and
wherever a process stops: no row is attempted too often, none is under two leases, a late
report changes nothing, a settled row stays as it is, and an unsettled one can be taken.
-/

/-!
## Leases over whole runs

Every attempt at a row is a claim of it, and the newest claim is the one whose lease the row
carries. A claim that a relay still holds is therefore either that one or has run out, and
nothing that an older claim reports finds its row.
-/

namespace Refearn.Notifications

open Support Support.Table

/-- The newest claim of a row. -/
def RelayWorld.lastClaim (w : RelayWorld) (id : Uuid) : Option ClaimedNotification :=
  w.claims.find? fun c => c.id == id

/-- A claim is still the lease of its row. -/
def RelayWorld.HoldsLease (w : RelayWorld) (c : ClaimedNotification) : Prop :=
  w.lastClaim c.id = some c ∧ ∃ n ∈ w.notifications, n.id = c.id ∧ n.status = .processing

/-- `newUuid` has not drawn a token twice. -/
def RelayWorld.DistinctTokens (w : RelayWorld) : Prop :=
  (w.claims.map ClaimedNotification.leaseToken).Nodup

structure RelayInvariant (w : RelayWorld) : Prop where
  tracked : ∀ c ∈ w.claims, ∃ n ∈ w.notifications, n.id = c.id
  attempts : ∀ n ∈ w.notifications, (w.claims.countP fun c => c.id == n.id) = n.attempts
  capped : ∀ n ∈ w.notifications, n.attempts ≤ MAX_ATTEMPTS
  pending : ∀ n ∈ w.notifications, n.status = .pending →
    n.attempts < MAX_ATTEMPTS ∧ ∃ available, n.availableAt = some available
  leased : ∀ n ∈ w.notifications, n.status = .processing →
    ∃ c, w.lastClaim n.id = some c ∧ n.leaseToken = some c.leaseToken ∧
      n.availableAt = some c.availableAt ∧ n.attempts = c.attempts
  opened : ∀ relay ∈ w.relays, ∀ now, relay = .claiming now → now ≤ w.clock
  held : ∀ p, w.held.countP p ≤ w.claims.countP p
  dispatched : ∀ p, w.dispatches.countP p + w.waiting.countP p ≤ w.claims.countP p
  current : ∀ c ∈ w.held, w.HoldsLease c ∨ c.availableAt ≤ w.clock

/-! ## Leases that are held -/

theorem RelayWorld.DistinctTokens.countP_le {w : RelayWorld} (h : w.DistinctTokens)
    (token : Uuid) : (w.claims.countP fun c => c.leaseToken == token) ≤ 1 := by
  have hcount := List.nodup_iff_count_le_one.mp h token
  rw [List.count, List.countP_map] at hcount
  exact hcount

/-- No two unexpired claims that relays hold are on one row. -/
theorem RelayInvariant.one_lease {w : RelayWorld} (h : RelayInvariant w)
    (hdistinct : w.DistinctTokens) (id : Uuid) :
    (w.held.countP fun c => c.id == id && decide (w.clock < c.availableAt)) ≤ 1 := by
  have hunexpired : ∀ c ∈ w.held, (c.id == id && decide (w.clock < c.availableAt)) = true →
      w.lastClaim id = some c := by
    intro c hc hopen
    simp only [Bool.and_eq_true, beq_iff_eq, decide_eq_true_eq] at hopen
    rcases h.current c hc with hlease | hexpired
    · rw [← hopen.1]
      exact hlease.1
    · exact absurd hopen.2 (not_lt.mpr hexpired)
  cases hlast : w.lastClaim id with
  | none =>
      have hzero : (w.held.countP fun c => c.id == id && decide (w.clock < c.availableAt)) = 0 := by
        refine List.countP_eq_zero.mpr fun c hc hopen => ?_
        rw [hunexpired c hc hopen] at hlast
        cases hlast
      omega
  | some last =>
      calc (w.held.countP fun c => c.id == id && decide (w.clock < c.availableAt))
          ≤ w.held.countP fun c => c.leaseToken == last.leaseToken := by
            refine List.countP_mono_left fun c hc hopen => ?_
            have heq := (hunexpired c hc hopen).symm.trans hlast
            rw [Option.some.inj heq]
            exact beq_self_eq_true last.leaseToken
        _ ≤ w.claims.countP fun c => c.leaseToken == last.leaseToken := h.held _
        _ ≤ 1 := hdistinct.countP_le last.leaseToken

/-- A row under the lease of a claim has that claim as its newest. -/
theorem RelayInvariant.lastClaim_of_under {w : RelayWorld} (h : RelayInvariant w)
    (hdistinct : w.DistinctTokens) {c : ClaimedNotification} (hc : c ∈ w.claims)
    {n : Notification} (hn : n ∈ w.notifications) (hunder : n.isUnder c = true) :
    w.lastClaim c.id = some c ∧ n.attempts = c.attempts := by
  simp only [Notification.isUnder, Bool.and_eq_true, beq_iff_eq] at hunder
  obtain ⟨⟨hid, hstatus⟩, htoken⟩ := hunder
  obtain ⟨last, hlast, hleased, -, hattempts⟩ := h.leased n hn hstatus
  have hmem : last ∈ w.claims := List.mem_of_find?_eq_some hlast
  have htokens : last.leaseToken = c.leaseToken := Option.some.inj (hleased.symm.trans htoken)
  have heq : last = c := List.inj_on_of_nodup_map hdistinct hmem hc htokens
  rw [← hid]
  exact ⟨heq ▸ hlast, heq ▸ hattempts⟩

/-- A claim that a relay has let go of once is held by no relay. -/
theorem RelayInvariant.not_held_twice {w : RelayWorld} (h : RelayInvariant w)
    (hdistinct : w.DistinctTokens) {i : Nat} {n : ClaimedNotification}
    {queue : List ClaimedNotification} (hi : w.relays[i]? = some (.dispatching n queue))
    {c : ClaimedNotification} (hc : c ∈ (w.setRelay i (.draining queue)).held) :
    c.leaseToken ≠ n.leaseToken := by
  intro htoken
  have hcount := countP_flatMap_set Relay.held (fun c => c.leaseToken == n.leaseToken) hi
    (.draining queue)
  have hafter : 0 < ((w.relays.set i (.draining queue)).flatMap Relay.held).countP
      fun c => c.leaseToken == n.leaseToken :=
    List.countP_pos_iff.mpr ⟨c, hc, by rw [htoken]; exact beq_self_eq_true n.leaseToken⟩
  have hbefore : (Relay.dispatching n queue).held.countP
      (fun c => c.leaseToken == n.leaseToken) =
        queue.countP (fun c => c.leaseToken == n.leaseToken) + 1 :=
    List.countP_cons_of_pos (beq_self_eq_true n.leaseToken)
  have hqueue : (Relay.draining queue).held.countP (fun c => c.leaseToken == n.leaseToken) =
      queue.countP (fun c => c.leaseToken == n.leaseToken) := rfl
  have hheld := h.held fun c => c.leaseToken == n.leaseToken
  unfold RelayWorld.held at hheld
  have hone := hdistinct.countP_le n.leaseToken
  omega

theorem RelayInvariant.held_claimed {w : RelayWorld} (h : RelayInvariant w)
    {c : ClaimedNotification} (hc : c ∈ w.held) : c ∈ w.claims := by
  classical
  have hpos : 0 < w.held.countP fun d => decide (d = c) :=
    List.countP_pos_iff.mpr ⟨c, hc, decide_eq_true rfl⟩
  have hle := h.held fun d => decide (d = c)
  obtain ⟨d, hd, heq⟩ := List.countP_pos_iff.mp (lt_of_lt_of_le hpos hle)
  exact of_decide_eq_true heq ▸ hd

/-! ## Steps that leave the outbox alone -/

/-- A step of a relay that touches no row and holds on to no more than it held. -/
theorem RelayInvariant.move {w w' : RelayWorld} (h : RelayInvariant w)
    (hnotifications : w'.notifications = w.notifications) (hclaims : w'.claims = w.claims)
    (hclock : w.clock ≤ w'.clock)
    (hopened : ∀ relay ∈ w'.relays, ∀ now, relay = .claiming now → now ≤ w'.clock)
    (hheld : ∀ p, w'.held.countP p ≤ w.held.countP p)
    (hsent : ∀ p, w'.dispatches.countP p + w'.waiting.countP p ≤
      w.dispatches.countP p + w.waiting.countP p)
    (hmem : ∀ c ∈ w'.held, c ∈ w.held) : RelayInvariant w' where
  tracked := by
    rw [hclaims, hnotifications]
    exact h.tracked
  attempts := by
    rw [hclaims, hnotifications]
    exact h.attempts
  capped := by
    rw [hnotifications]
    exact h.capped
  pending := by
    rw [hnotifications]
    exact h.pending
  leased := by
    unfold RelayWorld.lastClaim
    rw [hclaims, hnotifications]
    exact h.leased
  opened := hopened
  held p := by
    rw [hclaims]
    exact (hheld p).trans (h.held p)
  dispatched p := by
    rw [hclaims]
    exact (hsent p).trans (h.dispatched p)
  current c hc := by
    rcases h.current c (hmem c hc) with hlease | hexpired
    · left
      unfold RelayWorld.HoldsLease RelayWorld.lastClaim
      rw [hclaims, hnotifications]
      exact hlease
    · exact .inr (hexpired.trans hclock)

theorem RelayInvariant.tick {w : RelayWorld} (h : RelayInvariant w) (ms : Nat) :
    RelayInvariant { w with clock := w.clock + ms } := by
  have hclock : w.clock ≤ w.clock + ms := Int.le_add_of_nonneg_right (Int.natCast_nonneg ms)
  exact h.move rfl rfl hclock (fun relay hrelay now heq => (h.opened relay hrelay now heq).trans hclock)
    (fun _ => le_rfl) (fun _ => le_rfl) (fun _ hc => hc)

/-- A relay moves on to a state in which it is not about to claim. -/
theorem RelayInvariant.opened_set {w : RelayWorld} (h : RelayInvariant w) (i : Nat)
    {relay : Relay} (hrelay : ∀ now, relay ≠ .claiming now) :
    ∀ r ∈ w.relays.set i relay, ∀ now, r = .claiming now → now ≤ w.clock := by
  intro r hr now heq
  rcases List.mem_or_eq_of_mem_set hr with hold | rfl
  · exact h.opened r hold now heq
  · exact absurd heq (hrelay now)

/-- A relay drops what it holds, or part of it. -/
theorem RelayInvariant.drop {w : RelayWorld} (h : RelayInvariant w) {i : Nat}
    {before after : Relay} (hi : w.relays[i]? = some before)
    (hafter : ∀ now, after ≠ .claiming now)
    (hheld : List.Sublist after.held before.held)
    (hwaiting : List.Sublist after.waiting before.waiting) :
    RelayInvariant (w.setRelay i after) := by
  refine h.move rfl rfl le_rfl (h.opened_set i hafter) (fun p => ?_) (fun p => ?_) fun c hc => ?_
  · exact countP_flatMap_set_le Relay.held p hi (hheld.countP_le)
  · exact Nat.add_le_add_left
      (countP_flatMap_set_le Relay.waiting p hi (hwaiting.countP_le)) _
  · rcases mem_flatMap_set hc with hold | hnew
    · exact hold
    · exact mem_flatMap_of_getElem? hi (hheld.subset hnew)

theorem RelayInvariant.start {w : RelayWorld} (h : RelayInvariant w) :
    RelayInvariant { w with relays := w.relays ++ [.idle] } := by
  have hheld : (w.relays ++ [Relay.idle]).flatMap Relay.held = w.held := by
    rw [List.flatMap_append]
    exact List.append_nil _
  have hwaiting : (w.relays ++ [Relay.idle]).flatMap Relay.waiting = w.waiting := by
    rw [List.flatMap_append]
    exact List.append_nil _
  refine h.move rfl rfl le_rfl ?_ (fun p => ?_) (fun p => ?_) fun c hc => ?_
  · intro relay hrelay now heq
    rcases List.mem_append.mp hrelay with hold | hnew
    · exact h.opened relay hold now heq
    · rw [List.mem_singleton.mp hnew] at heq
      cases heq
  · exact le_of_eq (congrArg (List.countP p) hheld)
  · exact Nat.add_le_add_left (le_of_eq (congrArg (List.countP p) hwaiting)) _
  · exact hheld ▸ hc

theorem RelayInvariant.openClaim {w : RelayWorld} (h : RelayInvariant w) {i : Nat}
    (hi : w.relays[i]? = some .idle) : RelayInvariant (w.setRelay i (.claiming w.clock)) := by
  refine h.move rfl rfl le_rfl ?_ (fun p => ?_) (fun p => ?_) fun c hc => ?_
  · intro relay hrelay now heq
    rcases List.mem_or_eq_of_mem_set hrelay with hold | rfl
    · exact h.opened relay hold now heq
    · cases heq
      exact le_rfl
  · exact countP_flatMap_set_le Relay.held p hi le_rfl
  · have hle : ((w.relays.set i (.claiming w.clock)).flatMap Relay.waiting).countP p ≤
        (w.relays.flatMap Relay.waiting).countP p :=
      countP_flatMap_set_le Relay.waiting p hi le_rfl
    exact Nat.add_le_add_left hle _
  · rcases mem_flatMap_set hc with hold | hnew
    · exact hold
    · cases hnew

/-- A relay begins to send the next row of its batch, or skips it. -/
theorem RelayInvariant.advance {w : RelayWorld} (h : RelayInvariant w) {i : Nat}
    {queue : List ClaimedNotification} (hi : w.relays[i]? = some (.draining queue)) :
    RelayInvariant (w.advance i queue) := by
  cases queue with
  | nil => exact h.drop hi nofun (List.Sublist.refl _) (List.Sublist.refl _)
  | cons n queue =>
      have hadvance : w.advance i (n :: queue) =
          if n.availableAt ≤ w.clock then w.setRelay i (.draining queue)
          else { w.setRelay i (.dispatching n queue) with dispatches := n :: w.dispatches } := rfl
      rw [hadvance]
      split_ifs with hlate
      · exact h.drop hi nofun (List.sublist_cons_self n queue) (List.sublist_cons_self n queue)
      · refine h.move rfl rfl le_rfl (h.opened_set i nofun) (fun p => ?_) (fun p => ?_)
          fun c hc => ?_
        · exact countP_flatMap_set_le Relay.held p hi le_rfl
        · have hcount := countP_flatMap_set Relay.waiting p hi (.dispatching n queue)
          have hbefore : (Relay.draining (n :: queue)).waiting.countP p =
              [n].countP p + queue.countP p := by
            rw [← List.countP_append, List.singleton_append]
            rfl
          have hafter : (Relay.dispatching n queue).waiting.countP p = queue.countP p := rfl
          have hsent : (n :: w.dispatches).countP p = [n].countP p + w.dispatches.countP p := by
            rw [← List.countP_append, List.singleton_append]
          unfold RelayWorld.waiting
          change (n :: w.dispatches).countP p +
            ((w.relays.set i (.dispatching n queue)).flatMap Relay.waiting).countP p ≤
              w.dispatches.countP p + (w.relays.flatMap Relay.waiting).countP p
          omega
        · rcases mem_flatMap_set hc with hold | hnew
          · exact hold
          · exact mem_flatMap_of_getElem? hi hnew

/-! ## A new row -/

theorem RelayInvariant.enqueue {w : RelayWorld} (h : RelayInvariant w) {message : Message}
    {id : Uuid} {createdAt : Instant} {notifications : Table Notification}
    (hinsert : w.notifications.insert? (message.row id createdAt) = some notifications) :
    RelayInvariant { w with notifications } := by
  have hmem : ∀ n, n ∈ notifications ↔ n ∈ w.notifications ∨ n = message.row id createdAt :=
    fun n => Table.mem_insert? hinsert
  have hfresh : ∀ n ∈ w.notifications, n.id ≠ id :=
    fun n hn => ((Table.insert?_eq_some.mp hinsert).1 n hn).1
  have hunclaimed : (w.claims.countP fun c => c.id == id) = 0 := by
    refine List.countP_eq_zero.mpr fun c hc hid => ?_
    obtain ⟨n, hn, hnid⟩ := h.tracked c hc
    exact hfresh n hn (hnid.trans (beq_iff_eq.mp hid))
  exact {
    tracked := by
      intro c hc
      obtain ⟨n, hn, hid⟩ := h.tracked c hc
      exact ⟨n, (hmem n).mpr (.inl hn), hid⟩
    attempts := by
      intro n hn
      rcases (hmem n).mp hn with hold | rfl
      · exact h.attempts n hold
      · exact hunclaimed
    capped := by
      intro n hn
      rcases (hmem n).mp hn with hold | rfl
      · exact h.capped n hold
      · exact Nat.zero_le MAX_ATTEMPTS
    pending := by
      intro n hn hstatus
      rcases (hmem n).mp hn with hold | rfl
      · exact h.pending n hold hstatus
      · exact ⟨Nat.succ_pos 4, createdAt, rfl⟩
    leased := by
      intro n hn hstatus
      rcases (hmem n).mp hn with hold | rfl
      · exact h.leased n hold hstatus
      · cases hstatus
    opened := h.opened
    held := h.held
    dispatched := h.dispatched
    current := by
      intro c hc
      rcases h.current c hc with ⟨hlast, n, hn, hrow⟩ | hexpired
      · exact .inl ⟨hlast, n, (hmem n).mpr (.inl hn), hrow⟩
      · exact .inr hexpired }

/-! ## A claim -/

section Claim

variable {w : RelayWorld} {now : Instant} {claimed : List ClaimedNotification}
  {t : Table Notification} {f : Notification → Notification}

theorem find?_claimed (hids : (claimed.map ClaimedNotification.id).Nodup)
    {c : ClaimedNotification} (hc : c ∈ claimed) (rest : List ClaimedNotification) :
    ((claimed ++ rest).find? fun d => d.id == c.id) = some c := by
  have hfirst : (claimed.find? fun d => d.id == c.id) = some c := by
    cases hfind : claimed.find? fun d => d.id == c.id with
    | none =>
        have hnot := List.find?_eq_none.mp hfind c hc
        exact absurd (beq_self_eq_true c.id) hnot
    | some d =>
        have hd : d ∈ claimed := List.mem_of_find?_eq_some hfind
        have hid := List.find?_some hfind
        rw [List.inj_on_of_nodup_map hids hd hc (beq_iff_eq.mp hid)]
  rw [List.find?_append, hfirst, Option.some_or]

theorem find?_unclaimed {id : Uuid} (hother : ∀ c ∈ claimed, c.id ≠ id)
    (rest : List ClaimedNotification) :
    ((claimed ++ rest).find? fun d => d.id == id) = rest.find? fun d => d.id == id := by
  have hnone : (claimed.find? fun d => d.id == id) = none :=
    List.find?_eq_none.mpr fun c hc hid => hother c hc (beq_iff_eq.mp hid)
  rw [List.find?_append, hnone, Option.none_or]

theorem countP_unclaimed {id : Uuid} (hother : ∀ c ∈ claimed, c.id ≠ id) :
    (claimed.countP fun c => c.id == id) = 0 :=
  List.countP_eq_zero.mpr fun c hc hid => hother c hc (beq_iff_eq.mp hid)

theorem countP_claimed (hids : (claimed.map ClaimedNotification.id).Nodup)
    {c : ClaimedNotification} (hc : c ∈ claimed) :
    (claimed.countP fun d => d.id == c.id) = 1 := by
  have hle := List.nodup_iff_count_le_one.mp hids c.id
  rw [List.count, List.countP_map] at hle
  have hle' : (claimed.countP fun d => d.id == c.id) ≤ 1 := hle
  have hpos : 0 < claimed.countP fun d => d.id == c.id :=
    List.countP_pos_iff.mpr ⟨c, hc, beq_self_eq_true c.id⟩
  omega

/-- A relay commits a claim that has rewritten the outbox row by row. -/
theorem RelayInvariant.commitClaim (h : RelayInvariant w) {i : Nat}
    (hi : w.relays[i]? = some (.claiming now))
    (hids : (claimed.map ClaimedNotification.id).Nodup)
    (hclaimed : ∀ c ∈ claimed, ∃ n ∈ w.notifications, n.id = c.id)
    (hrows : t.rows = w.notifications.rows.map f)
    (hmoves : ∀ n ∈ w.notifications, ClaimMove now claimed n (f n)) :
    RelayInvariant (w.commitClaim i (claimed, t)) := by
  have hnow : now ≤ w.clock := h.opened _ (List.mem_of_getElem? hi) now rfl
  have hid : ∀ n ∈ w.notifications, (f n).id = n.id := by
    intro n hn
    have hmove := hmoves n hn
    generalize f n = n' at hmove ⊢
    cases hmove <;> rfl
  have hmem : ∀ n ∈ w.notifications, f n ∈ t := by
    intro n hn
    rw [Table.mem_def, hrows]
    exact List.mem_map_of_mem hn
  have hof : ∀ n' ∈ t, ∃ n ∈ w.notifications, n' = f n := by
    intro n' hn'
    rw [Table.mem_def, hrows] at hn'
    obtain ⟨n, hn, rfl⟩ := List.mem_map.mp hn'
    exact ⟨n, hn, rfl⟩
  exact {
    tracked := by
      intro c hc
      have hold : ∃ n ∈ w.notifications, n.id = c.id := by
        rcases List.mem_append.mp hc with hnew | hold
        · exact hclaimed c hnew
        · exact h.tracked c hold
      obtain ⟨n, hn, hnid⟩ := hold
      exact ⟨f n, hmem n hn, (hid n hn).trans hnid⟩
    attempts := by
      intro n' hn'
      obtain ⟨n, hn, rfl⟩ := hof n' hn'
      have hcount := h.attempts n hn
      have hmove := hmoves n hn
      change ((claimed ++ w.claims).countP fun c => c.id == (f n).id) = (f n).attempts
      rw [List.countP_append, hid n hn, hcount]
      generalize f n = n' at hmove ⊢
      cases hmove with
      | kept hother => rw [countP_unclaimed hother, Nat.zero_add]
      | gaveUp hexpired hother =>
          rw [countP_unclaimed hother, Nat.zero_add]
          rfl
      | leased c hc hcid hclaimable hattempts havailable =>
          rw [← hcid, countP_claimed hids hc, Nat.add_comm]
          rfl
    capped := by
      intro n' hn'
      obtain ⟨n, hn, rfl⟩ := hof n' hn'
      have hcap := h.capped n hn
      have hmove := hmoves n hn
      generalize f n = n' at hmove ⊢
      cases hmove with
      | kept hother => exact hcap
      | gaveUp hexpired hother => exact hcap
      | leased c hc hcid hclaimable hattempts havailable =>
          exact (Notification.isClaimable_iff.mp hclaimable).2.2
    pending := by
      intro n' hn' hstatus
      obtain ⟨n, hn, rfl⟩ := hof n' hn'
      have hpending := h.pending n hn
      have hmove := hmoves n hn
      generalize f n = n' at hmove hstatus ⊢
      cases hmove with
      | kept hother => exact hpending hstatus
      | gaveUp hexpired hother => cases hstatus
      | leased c hc hcid hclaimable hattempts havailable => cases hstatus
    leased := by
      intro n' hn' hstatus
      obtain ⟨n, hn, rfl⟩ := hof n' hn'
      have hleased := h.leased n hn
      have hmove := hmoves n hn
      change ∃ c, ((claimed ++ w.claims).find? fun d => d.id == (f n).id) = some c ∧ _
      rw [hid n hn]
      generalize f n = n' at hmove hstatus ⊢
      cases hmove with
      | kept hother =>
          rw [find?_unclaimed hother]
          exact hleased hstatus
      | gaveUp hexpired hother => cases hstatus
      | leased c hc hcid hclaimable hattempts havailable =>
          rw [← hcid, find?_claimed hids hc]
          exact ⟨c, rfl, rfl, rfl, hattempts.symm⟩
    opened := h.opened_set i nofun
    held := by
      intro p
      have hcount := countP_flatMap_set Relay.held p hi (.draining claimed)
      have hold := h.held p
      unfold RelayWorld.held at hold ⊢
      change ((w.relays.set i (.draining claimed)).flatMap Relay.held).countP p ≤
        (claimed ++ w.claims).countP p
      rw [List.countP_append]
      change _ + 0 = _ + claimed.countP p at hcount
      omega
    dispatched := by
      intro p
      have hcount := countP_flatMap_set Relay.waiting p hi (.draining claimed)
      have hold := h.dispatched p
      unfold RelayWorld.waiting at hold ⊢
      change w.dispatches.countP p +
        ((w.relays.set i (.draining claimed)).flatMap Relay.waiting).countP p ≤
          (claimed ++ w.claims).countP p
      rw [List.countP_append]
      change _ + 0 = _ + claimed.countP p at hcount
      omega
    current := by
      intro c hc
      change ((claimed ++ w.claims).find? fun d => d.id == c.id) = some c ∧ _ ∨ _
      rcases mem_flatMap_set hc with hold | hnew
      · rcases h.current c hold with ⟨hlast, n, hn, hnid, hstatus⟩ | hexpired
        · have hmove := hmoves n hn
          have hfn := hmem n hn
          generalize f n = n' at hmove hfn
          obtain ⟨last, hlast', -, havailable, -⟩ := h.leased n hn hstatus
          have hsame : last = c := by
            rw [hnid] at hlast'
            exact Option.some.inj (hlast'.symm.trans hlast)
          -- a row that is taken from its relay is due, so the lease of the relay has run out
          have hlost : n.isDue now = true → c.availableAt ≤ w.clock := by
            intro hdue
            obtain ⟨available, heq, hle⟩ := Notification.isDue_iff.mp hdue
            rw [havailable, hsame] at heq
            rw [Option.some.inj heq]
            exact hle.trans hnow
          cases hmove with
          | kept hother =>
              rw [hnid] at hother
              rw [find?_unclaimed hother]
              exact .inl ⟨hlast, n, hfn, hnid, hstatus⟩
          | gaveUp hexpired hother =>
              exact .inr (hlost (Notification.isExpiredAtCap_iff.mp hexpired).2.1)
          | leased d hd hdid hclaimable hattempts havailable' =>
              exact .inr (hlost (Notification.isClaimable_iff.mp hclaimable).2.1)
        · exact .inr hexpired
      · obtain ⟨n, hn, hnid⟩ := hclaimed c hnew
        have hmove := hmoves n hn
        have hfn := hmem n hn
        generalize f n = n' at hmove hfn
        rw [find?_claimed hids hnew]
        cases hmove with
        | kept hother => exact absurd hnid.symm (hother c hnew)
        | gaveUp hexpired hother => exact absurd hnid.symm (hother c hnew)
        | leased d hd hdid hclaimable hattempts havailable =>
            exact .inl ⟨rfl, n.leased d, hfn, hnid, rfl⟩ }

end Claim

/-! ## A report -/

/-- A relay reports what came of a row: the row that is still under its lease is rewritten. -/
theorem RelayInvariant.report {w : RelayWorld} (h : RelayInvariant w)
    (hdistinct : w.DistinctTokens) {i : Nat} {n : ClaimedNotification}
    {queue : List ClaimedNotification} (hi : w.relays[i]? = some (.dispatching n queue))
    {f : Notification → Notification} (hf : KeepsIndexes f)
    (hattempts : ∀ r, (f r).attempts = r.attempts ∨ (f r).attempts = n.attempts)
    (hstatus : ∀ r, (f r).status ≠ .processing)
    (hpending : ∀ r, (f r).status = .pending →
      n.attempts < MAX_ATTEMPTS ∧ ∃ available, (f r).availableAt = some available) :
    RelayInvariant { w.setRelay i (.draining queue) with
      notifications := w.notifications.updateWhere (Notification.isUnder n) f hf } := by
  have hclaim : n ∈ w.claims :=
    h.held_claimed (mem_flatMap_of_getElem? hi List.mem_cons_self)
  have hrow : ∀ r ∈ w.notifications, r.isUnder n = true → (f r).attempts = r.attempts := by
    intro r hr hunder
    have hsame := (h.lastClaim_of_under hdistinct hclaim hr hunder).2
    rcases hattempts r with hkept | hreported
    · exact hkept
    · rw [hreported, hsame]
  have hof : ∀ r' ∈ w.notifications.updateWhere (Notification.isUnder n) f hf,
      ∃ r ∈ w.notifications, r'.id = r.id ∧ r'.attempts = r.attempts ∧
        (r' = r ∨ r' = f r ∧ r.isUnder n = true) := by
    intro r' hr'
    rw [Table.mem_def, Table.rows_updateWhere] at hr'
    obtain ⟨r, hr, rfl⟩ := List.mem_map.mp hr'
    by_cases hunder : r.isUnder n = true
    · rw [if_pos hunder]
      exact ⟨r, hr, hf.key_eq r, hrow r hr hunder, .inr ⟨rfl, hunder⟩⟩
    · rw [if_neg hunder]
      exact ⟨r, hr, rfl, rfl, .inl rfl⟩
  have hmem : ∀ r ∈ w.notifications, (if r.isUnder n then f r else r) ∈
      w.notifications.updateWhere (Notification.isUnder n) f hf := by
    intro r hr
    rw [Table.mem_def, Table.rows_updateWhere]
    exact List.mem_map_of_mem hr
  exact {
    tracked := by
      intro c hc
      obtain ⟨r, hr, hid⟩ := h.tracked c hc
      refine ⟨_, hmem r hr, ?_⟩
      split_ifs
      · exact (hf.key_eq r).trans hid
      · exact hid
    attempts := by
      intro r' hr'
      obtain ⟨r, hr, hid, hsame, -⟩ := hof r' hr'
      rw [hid, hsame]
      exact h.attempts r hr
    capped := by
      intro r' hr'
      obtain ⟨r, hr, -, hsame, -⟩ := hof r' hr'
      rw [hsame]
      exact h.capped r hr
    pending := by
      intro r' hr' hpend
      obtain ⟨r, hr, -, hsame, rfl | ⟨rfl, hunder⟩⟩ := hof r' hr'
      · exact h.pending r' hr hpend
      · obtain ⟨hlt, havailable⟩ := hpending r hpend
        rw [hsame, (h.lastClaim_of_under hdistinct hclaim hr hunder).2]
        exact ⟨hlt, havailable⟩
    leased := by
      intro r' hr' hprocessing
      obtain ⟨r, hr, -, -, rfl | ⟨rfl, -⟩⟩ := hof r' hr'
      · exact h.leased r' hr hprocessing
      · exact absurd hprocessing (hstatus r)
    opened := h.opened_set i nofun
    held := by
      intro p
      have hkept : List.Sublist (Relay.draining queue).held (Relay.dispatching n queue).held :=
        List.sublist_cons_self n queue
      exact (countP_flatMap_set_le Relay.held p hi hkept.countP_le).trans (h.held p)
    dispatched := by
      intro p
      have hkept : ((w.relays.set i (.draining queue)).flatMap Relay.waiting).countP p ≤
          (w.relays.flatMap Relay.waiting).countP p :=
        countP_flatMap_set_le Relay.waiting p hi le_rfl
      exact (Nat.add_le_add_left hkept _).trans (h.dispatched p)
    current := by
      intro c hc
      have hother := h.not_held_twice hdistinct hi hc
      have hheld : c ∈ w.held := by
        rcases mem_flatMap_set hc with hold | hnew
        · exact hold
        · exact mem_flatMap_of_getElem? hi (List.mem_cons_of_mem n hnew)
      rcases h.current c hheld with ⟨hlast, r, hr, hid, hprocessing⟩ | hexpired
      · refine .inl ⟨hlast, _, hmem r hr, ?_⟩
        have hnot : ¬r.isUnder n = true := by
          intro hunder
          have hlast' := (h.lastClaim_of_under hdistinct hclaim hr hunder).1
          have hsameId : n.id = c.id := by
            simp only [Notification.isUnder, Bool.and_eq_true, beq_iff_eq] at hunder
            exact hunder.1.1.symm.trans hid
          rw [hsameId] at hlast'
          have hsame : c = n := Option.some.inj (hlast.symm.trans hlast')
          exact hother (congrArg ClaimedNotification.leaseToken hsame)
        rw [if_neg hnot]
        exact ⟨hid, hprocessing⟩
      · exact .inr hexpired }

end Refearn.Notifications

/-!
## The lease protocol
-/

namespace Refearn.Notifications

open Support Support.Table

/-! ## The record of claims -/

theorem claims_advance (i : Nat) (w : RelayWorld) (queue : List ClaimedNotification) :
    (w.advance i queue).claims = w.claims := by
  cases queue with
  | nil => rfl
  | cons n queue =>
      have hadvance : w.advance i (n :: queue) =
          if n.availableAt ≤ w.clock then w.setRelay i (.draining queue)
          else { w.setRelay i (.dispatching n queue) with dispatches := n :: w.dispatches } := rfl
      rw [hadvance]
      split_ifs <;> rfl

theorem claims_step (step : RelayStep) (w : RelayWorld) :
    w.claims <:+ (step.apply w).claims := by
  cases step with
  | claim i locked locked' tokens =>
      unfold RelayStep.apply
      dsimp only
      split
      · exact List.suffix_append _ w.claims
      · exact List.suffix_rfl
  | next i =>
      unfold RelayStep.apply
      dsimp only
      split
      · exact (claims_advance ..).symm ▸ List.suffix_rfl
      · exact List.suffix_rfl
  | tick ms => exact List.suffix_rfl
  | start => exact List.suffix_rfl
  | crash i => exact List.suffix_rfl
  | _ =>
      unfold RelayStep.apply
      dsimp only
      split <;> exact List.suffix_rfl

theorem claims_run (steps : List RelayStep) (w : RelayWorld) :
    w.claims <:+ (run RelayStep.apply steps w).claims := by
  induction steps generalizing w with
  | nil => exact List.suffix_rfl
  | cons step steps ih => exact (claims_step step w).trans (ih (step.apply w))

theorem DistinctTokens.of_run {steps : List RelayStep} {w : RelayWorld}
    (h : (run RelayStep.apply steps w).DistinctTokens) : w.DistinctTokens :=
  ((claims_run steps w).sublist.map ClaimedNotification.leaseToken).nodup h

/-! ## Steps and runs -/

theorem RelayInvariant.step {w : RelayWorld} (h : RelayInvariant w)
    (hdistinct : w.DistinctTokens) (step : RelayStep) : RelayInvariant (step.apply w) := by
  cases step with
  | tick ms => exact h.tick ms
  | start => exact h.start
  | enqueue message id createdAt =>
      unfold RelayStep.apply
      dsimp only
      split
      · exact h.enqueue ‹_›
      · exact h
  | openClaim i =>
      unfold RelayStep.apply
      dsimp only
      split
      · exact h.openClaim ‹_›
      · exact h
  | claim i locked locked' tokens =>
      unfold RelayStep.apply
      dsimp only
      split
      · rename_i now hi
        obtain ⟨f, hrows, hmoves⟩ := rows_claimPending locked locked' tokens now w.notifications
        exact h.commitClaim hi ids_claimPending (fun c hc => mem_claimPending hc) hrows hmoves
      · exact h
  | next i =>
      unfold RelayStep.apply
      dsimp only
      split
      · exact h.advance ‹_›
      · exact h
  | succeed i outcome =>
      unfold RelayStep.apply
      dsimp only
      split
      · exact h.report hdistinct ‹_› _ (fun _ => .inl rfl) (fun _ => nofun) (fun _ => nofun)
      · exact h
  | fail i =>
      unfold RelayStep.apply
      dsimp only
      split
      · rename_i n queue hi
        refine h.report hdistinct hi _ (fun _ => .inr rfl) (fun r hstatus => ?_) fun r hstatus => ?_
        · unfold Notification.undelivered at hstatus
          dsimp only at hstatus
          split_ifs at hstatus
        · unfold Notification.undelivered at hstatus ⊢
          dsimp only at hstatus ⊢
          split_ifs at hstatus ⊢ with hfinal
          rw [decide_eq_true_eq] at hfinal
          exact ⟨not_le.mp hfinal, _, rfl⟩
      · exact h
  | crash i =>
      change RelayInvariant (w.setRelay i .idle)
      cases hi : w.relays[i]? with
      | none =>
          have hsame : w.setRelay i .idle = w := by
            unfold RelayWorld.setRelay
            rw [List.set_eq_of_length_le (List.getElem?_eq_none_iff.mp hi)]
          rw [hsame]
          exact h
      | some before => exact h.drop hi nofun (List.nil_sublist _) (List.nil_sublist _)

theorem RelayInvariant.of_run {w : RelayWorld} (h : RelayInvariant w) (steps : List RelayStep)
    (hdistinct : (run RelayStep.apply steps w).DistinctTokens) :
    RelayInvariant (run RelayStep.apply steps w) := by
  induction steps generalizing w with
  | nil => exact h
  | cons step steps ih =>
      have hnow : w.DistinctTokens := @DistinctTokens.of_run (step :: steps) w hdistinct
      exact ih (h.step hnow step) hdistinct

/-! ## Settled rows -/

/-- A row that is sent or has failed for good. -/
def Notification.Settled (n : Notification) : Prop := n.status = .sent ∨ n.status = .failed

theorem Notification.Settled.not_processing {n : Notification} (h : n.Settled) :
    n.status ≠ .processing := by
  rcases h with h | h <;> rw [h] <;> nofun

theorem Notification.Settled.not_pending {n : Notification} (h : n.Settled) :
    n.status ≠ .pending := by
  rcases h with h | h <;> rw [h] <;> nofun

theorem ClaimMove.settled {now : Instant} {claimed : List ClaimedNotification}
    {n n' : Notification} (h : ClaimMove now claimed n n') (hsettled : n.Settled) : n' = n := by
  cases h with
  | kept => rfl
  | gaveUp hexpired hother =>
      exact absurd (Notification.isExpiredAtCap_iff.mp hexpired).1 hsettled.not_processing
  | leased c hc hid hclaimable hattempts havailable =>
      rcases (Notification.isClaimable_iff.mp hclaimable).1 with hstatus | hstatus
      · exact absurd hstatus hsettled.not_pending
      · exact absurd hstatus hsettled.not_processing

theorem settled_report {c : ClaimedNotification} {f : Notification → Notification}
    (hf : KeepsIndexes f) {t : Table Notification} {n : Notification} (hn : n ∈ t)
    (hsettled : n.Settled) : n ∈ t.updateWhere (Notification.isUnder c) f hf := by
  have hnot : ¬n.isUnder c = true := by
    intro hunder
    simp only [Notification.isUnder, Bool.and_eq_true, beq_iff_eq] at hunder
    exact hsettled.not_processing hunder.1.2
  rw [Table.mem_def, Table.rows_updateWhere]
  exact List.mem_map.mpr ⟨n, hn, if_neg hnot⟩

theorem notifications_advance (i : Nat) (w : RelayWorld) (queue : List ClaimedNotification) :
    (w.advance i queue).notifications = w.notifications := by
  cases queue with
  | nil => rfl
  | cons n queue =>
      have hadvance : w.advance i (n :: queue) =
          if n.availableAt ≤ w.clock then w.setRelay i (.draining queue)
          else { w.setRelay i (.dispatching n queue) with dispatches := n :: w.dispatches } := rfl
      rw [hadvance]
      split_ifs <;> rfl

theorem settled_step {n : Notification} (hsettled : n.Settled) (step : RelayStep)
    {w : RelayWorld} (hn : n ∈ w.notifications) : n ∈ (step.apply w).notifications := by
  cases step with
  | enqueue message id createdAt =>
      unfold RelayStep.apply
      dsimp only
      split
      · exact (Table.mem_insert? ‹_›).mpr (.inl hn)
      · exact hn
  | claim i locked locked' tokens =>
      unfold RelayStep.apply
      dsimp only
      split
      · rename_i now hi
        obtain ⟨f, hrows, hmoves⟩ := rows_claimPending locked locked' tokens now w.notifications
        change n ∈ (claimPending locked locked' tokens now w.notifications).2
        rw [Table.mem_def, hrows]
        exact List.mem_map.mpr ⟨n, hn, (hmoves n hn).settled hsettled⟩
      · exact hn
  | next i =>
      unfold RelayStep.apply
      dsimp only
      split
      · rw [notifications_advance]
        exact hn
      · exact hn
  | succeed i outcome =>
      unfold RelayStep.apply
      dsimp only
      split
      · rename_i c queue hi
        exact settled_report (f := Notification.delivered c outcome w.clock)
          (keepsIndexes_notification fun _ => rfl) hn hsettled
      · exact hn
  | fail i =>
      unfold RelayStep.apply
      dsimp only
      split
      · rename_i c queue hi
        exact settled_report (f := Notification.undelivered c w.clock)
          (keepsIndexes_notification fun _ => rfl) hn hsettled
      · exact hn
  | openClaim i =>
      unfold RelayStep.apply
      dsimp only
      split <;> exact hn
  | _ => exact hn

theorem settled_run {n : Notification} (hsettled : n.Settled) (steps : List RelayStep)
    {w : RelayWorld} (hn : n ∈ w.notifications) :
    n ∈ (run RelayStep.apply steps w).notifications := by
  induction steps generalizing w with
  | nil => exact hn
  | cons step steps ih => exact ih (settled_step hsettled step hn)

/-! ## Late reports -/

/-- A report under a lease that is gone finds no row. -/
theorem RelayInvariant.late_report {w : RelayWorld} (h : RelayInvariant w)
    (hdistinct : w.DistinctTokens) {c : ClaimedNotification} (hc : c ∈ w.held)
    (hlost : ¬w.HoldsLease c) {f : Notification → Notification} (hf : KeepsIndexes f) :
    w.notifications.updateWhere (Notification.isUnder c) f hf = w.notifications := by
  apply Table.ext
  rw [Table.rows_updateWhere]
  conv_rhs => rw [← List.map_id w.notifications.rows]
  refine List.map_congr_left fun n hn => if_neg fun hunder => hlost ?_
  have hlast := (h.lastClaim_of_under hdistinct (h.held_claimed hc) hn hunder).1
  simp only [Notification.isUnder, Bool.and_eq_true, beq_iff_eq] at hunder
  exact ⟨hlast, n, hn, hunder.1⟩

/-! ## No row is lost -/

/-- A claim has taken a row: it is under a new lease, or has failed for good. -/
def Taken (n : Notification) (w : RelayWorld) : Prop :=
  ∃ n' ∈ w.notifications, n'.id = n.id ∧
    (n'.status = .failed ∨ n'.status = .processing ∧ n'.attempts = n.attempts + 1)

/-- A new relay starts and claims, with no other transaction open. -/
def claimRound (i : Nat) (tokens : Nat → Uuid) : List RelayStep :=
  [.start, .openClaim i, .claim i unlocked unlocked tokens]

def claimRounds (tokens : Nat → Nat → Uuid) : Nat → Nat → List RelayStep
  | _, 0 => []
  | i, k + 1 => claimRound i (tokens i) ++ claimRounds tokens (i + 1) k

theorem run_claimRound (w : RelayWorld) (tokens : Nat → Uuid) :
    run RelayStep.apply (claimRound w.relays.length tokens) w =
      { w with
        relays := w.relays ++
          [.draining (claimPending unlocked unlocked tokens w.clock w.notifications).1]
        notifications := (claimPending unlocked unlocked tokens w.clock w.notifications).2
        claims := (claimPending unlocked unlocked tokens w.clock w.notifications).1 ++ w.claims } := by
  have hlast : ∀ relay : Relay, (w.relays ++ [relay])[w.relays.length]? = some relay :=
    fun relay => List.getElem?_concat_length
  have hset : ∀ relay relay' : Relay,
      (w.relays ++ [relay]).set w.relays.length relay' = w.relays ++ [relay'] := by
    intro relay relay'
    rw [List.set_append_right _ _ le_rfl, Nat.sub_self, List.set_cons_zero]
  simp only [claimRound, run_cons, run_nil, RelayStep.apply, hlast, RelayWorld.setRelay, hset,
    RelayWorld.commitClaim]

theorem taken_of_expired {w : RelayWorld} {n : Notification}
    (hexpired : n.isExpiredAtCap w.clock = true) (hn : n ∈ w.notifications) (tokens : Nat → Uuid) :
    Taken n (run RelayStep.apply (claimRound w.relays.length tokens) w) := by
  rw [run_claimRound]
  exact ⟨n.givenUp, givenUp_mem_claimPending tokens hn hexpired, rfl, .inl rfl⟩

/-- The rounds take every row that can be claimed, the oldest first. -/
theorem taken_of_claimable (tokens : Nat → Nat → Uuid) {n : Notification} (count : Nat)
    {w : RelayWorld} (hcount : w.notifications.rows.countP (Notification.isClaimable w.clock) ≤ count)
    (hn : n ∈ w.notifications) (hclaimable : n.isClaimable w.clock = true) :
    ∃ k, Taken n (run RelayStep.apply (claimRounds tokens w.relays.length k) w) := by
  induction count generalizing w with
  | zero =>
      have hpos : 0 < w.notifications.rows.countP (Notification.isClaimable w.clock) :=
        List.countP_pos_iff.mpr ⟨n, hn, hclaimable⟩
      omega
  | succ count ih =>
      obtain ⟨f, hrows, hmoves⟩ := rows_claimPending unlocked unlocked (tokens w.relays.length)
        w.clock w.notifications
      have hmove := hmoves n hn
      have hmem : f n ∈ (claimPending unlocked unlocked (tokens w.relays.length) w.clock
          w.notifications).2 := by
        rw [Table.mem_def, hrows]
        exact List.mem_map_of_mem hn
      have hround := run_claimRound w (tokens w.relays.length)
      generalize f n = n' at hmove hmem
      cases hmove with
      | gaveUp hexpired hother =>
          have hnot := Notification.not_claimable_of_expired hexpired
          rw [hclaimable] at hnot
          cases hnot
      | leased c hc hid hclaimable' hattempts havailable =>
          refine ⟨1, ?_⟩
          change Taken n (run RelayStep.apply (claimRound w.relays.length _ ++ []) w)
          rw [List.append_nil, hround]
          exact ⟨n.leased c, hmem, rfl, .inr ⟨rfl, rfl⟩⟩
      | kept hother =>
          -- another row was claimed, so fewer can be in the next round
          have hlt := countP_claimable_lt (tokens w.relays.length) hn hclaimable
          obtain ⟨k, hk⟩ := ih (w := run RelayStep.apply
            (claimRound w.relays.length (tokens w.relays.length)) w)
            (by rw [hround]; exact Nat.le_of_lt_succ (lt_of_lt_of_le hlt hcount))
            (by rw [hround]; exact hmem) (by rw [hround]; exact hclaimable)
          refine ⟨k + 1, ?_⟩
          change Taken n (run RelayStep.apply (claimRound w.relays.length _ ++
            claimRounds tokens (w.relays.length + 1) k) w)
          rw [run_append]
          have hlength : (run RelayStep.apply (claimRound w.relays.length
              (tokens w.relays.length)) w).relays.length = w.relays.length + 1 := by
            rw [hround]
            exact List.length_append
          rw [hlength] at hk
          exact hk

/-- From the instant at which an unsettled row is available, claims can take it. -/
theorem RelayInvariant.takeable {w : RelayWorld} (h : RelayInvariant w) {n : Notification}
    (hn : n ∈ w.notifications) (hunsettled : ¬n.Settled) :
    ∃ available, n.availableAt = some available ∧ ∀ ms : Nat, available ≤ w.clock + ms →
      ∀ tokens, ∃ k, Taken n
        (run RelayStep.apply (.tick ms :: claimRounds tokens w.relays.length k) w) := by
  have hopen : n.status = .pending ∨ n.status = .processing := by
    cases hstatus : n.status with
    | pending => exact .inl rfl
    | processing => exact .inr rfl
    | sent => exact absurd (.inl hstatus) hunsettled
    | failed => exact absurd (.inr hstatus) hunsettled
  have havailable : ∃ available, n.availableAt = some available := by
    rcases hopen with hpending | hprocessing
    · exact (h.pending n hn hpending).2
    · obtain ⟨c, -, -, hc, -⟩ := h.leased n hn hprocessing
      exact ⟨c.availableAt, hc⟩
  obtain ⟨available, heq⟩ := havailable
  refine ⟨available, heq, fun ms hms tokens => ?_⟩
  have hdue : n.isDue (w.clock + ms) = true := Notification.isDue_iff.mpr ⟨available, heq, hms⟩
  by_cases hlt : n.attempts < MAX_ATTEMPTS
  · have hclaimable := Notification.isClaimable_iff.mpr ⟨hopen, hdue, hlt⟩
    exact taken_of_claimable tokens (w := { w with clock := w.clock + ms }) _ le_rfl hn hclaimable
  · have hprocessing : n.status = .processing := by
      rcases hopen with hpending | hprocessing
      · exact absurd (h.pending n hn hpending).1 hlt
      · exact hprocessing
    have hexpired := Notification.isExpiredAtCap_iff.mpr ⟨hprocessing, hdue, not_lt.mp hlt⟩
    refine ⟨1, ?_⟩
    change Taken n (run RelayStep.apply (claimRound w.relays.length _ ++ [])
      { w with clock := w.clock + ms })
    rw [List.append_nil]
    exact taken_of_expired (w := { w with clock := w.clock + ms }) hexpired hn _

/-! ## The protocol -/

/-- What holds of the outbox and its relays at any moment. -/
structure LeaseProtocol (w : RelayWorld) : Prop where
  attempts : ∀ id, (w.dispatches.countP fun c => c.id == id) ≤ MAX_ATTEMPTS
  oneLease : ∀ id,
    (w.held.countP fun c => c.id == id && decide (w.clock < c.availableAt)) ≤ 1
  lateReport : ∀ (i : Nat) (c : ClaimedNotification) (queue : List ClaimedNotification),
    w.relays[i]? = some (.dispatching c queue) → ¬w.HoldsLease c →
      (∀ outcome, ((RelayStep.succeed i outcome).apply w).notifications = w.notifications) ∧
        ((RelayStep.fail i).apply w).notifications = w.notifications
  absorbing : ∀ n ∈ w.notifications, n.Settled →
    ∀ later, n ∈ (run RelayStep.apply later w).notifications
  takeable : ∀ n ∈ w.notifications, ¬n.Settled →
    ∃ available, n.availableAt = some available ∧ ∀ ms : Nat, available ≤ w.clock + ms →
      ∀ tokens, ∃ k, Taken n
        (run RelayStep.apply (.tick ms :: claimRounds tokens w.relays.length k) w)

theorem RelayInvariant.attempts_le {w : RelayWorld} (h : RelayInvariant w) (id : Uuid) :
    (w.dispatches.countP fun c => c.id == id) ≤ MAX_ATTEMPTS := by
  have hclaims : (w.claims.countP fun c => c.id == id) ≤ MAX_ATTEMPTS := by
    cases hfind : w.notifications.find? id with
    | none =>
        have hzero : (w.claims.countP fun c => c.id == id) = 0 := by
          refine List.countP_eq_zero.mpr fun c hc hid => ?_
          obtain ⟨n, hn, hnid⟩ := h.tracked c hc
          exact Table.find?_eq_none.mp hfind n hn (hnid.trans (beq_iff_eq.mp hid))
        omega
    | some n =>
        obtain ⟨hn, hid⟩ := Table.find?_eq_some.mp hfind
        have hcount := h.attempts n hn
        have hcap := h.capped n hn
        have hnid : n.id = id := hid
        rw [hnid] at hcount
        omega
  have hsent := h.dispatched fun c => c.id == id
  omega

theorem RelayInvariant.protocol {w : RelayWorld} (h : RelayInvariant w)
    (hdistinct : w.DistinctTokens) : LeaseProtocol w where
  attempts := h.attempts_le
  oneLease := h.one_lease hdistinct
  lateReport i c queue hi hlost := by
    have hc : c ∈ w.held := mem_flatMap_of_getElem? hi List.mem_cons_self
    constructor
    · intro outcome
      simp only [RelayStep.apply, hi]
      exact h.late_report hdistinct hc hlost _
    · simp only [RelayStep.apply, hi]
      exact h.late_report hdistinct hc hlost _
  absorbing n hn hsettled later := settled_run hsettled later hn
  takeable n hn hunsettled := h.takeable hn hunsettled

/-- An outbox whose rows have all just been written, before any relay has started. -/
structure RelayWorld.Fresh (w : RelayWorld) : Prop where
  rows : ∀ n ∈ w.notifications, n.status = .pending ∧ n.attempts = 0 ∧
    ∃ available, n.availableAt = some available
  relays : w.relays = []
  claims : w.claims = []
  dispatches : w.dispatches = []

theorem RelayWorld.Fresh.invariant {w : RelayWorld} (h : w.Fresh) : RelayInvariant w where
  tracked := by
    rw [h.claims]
    exact nofun
  attempts n hn := by
    rw [h.claims, (h.rows n hn).2.1]
    rfl
  capped n hn := by
    rw [(h.rows n hn).2.1]
    exact Nat.zero_le MAX_ATTEMPTS
  pending n hn _ := by
    rw [(h.rows n hn).2.1]
    exact ⟨Nat.succ_pos 4, (h.rows n hn).2.2⟩
  leased n hn hstatus := by
    rw [(h.rows n hn).1] at hstatus
    cases hstatus
  opened := by
    rw [h.relays]
    exact nofun
  held p := by
    unfold RelayWorld.held
    rw [h.relays]
    exact Nat.zero_le _
  dispatched p := by
    unfold RelayWorld.waiting
    rw [h.relays, h.dispatches]
    exact Nat.zero_le _
  current := by
    unfold RelayWorld.held
    rw [h.relays]
    exact nofun

/-- In every run of any number of relays, as long as no token is drawn twice, the outbox keeps
to the lease protocol. -/
theorem lease_protocol (w₀ : RelayWorld) (h₀ : w₀.Fresh) (steps : List RelayStep)
    (hdistinct : (run RelayStep.apply steps w₀).DistinctTokens) :
    LeaseProtocol (run RelayStep.apply steps w₀) :=
  (h₀.invariant.of_run steps hdistinct).protocol hdistinct

namespace Demo

def emptyOutbox : RelayWorld := ⟨0, .empty, [], [], []⟩

theorem emptyOutbox_fresh : emptyOutbox.Fresh where
  rows _ hn := absurd hn List.not_mem_nil
  relays := rfl
  claims := rfl
  dispatches := rfl

def welcome : Message := ⟨none, some 1, .email, "verify_email", .obj [("token", .str "t")]⟩

/-- Two relays: the first one stops after its claim, the second one takes the row over when the
lease has run out, fails once, and delivers. -/
def takenOver : List RelayStep :=
  [.enqueue welcome 1 0, .start, .openClaim 0, .claim 0 unlocked unlocked fun _ => 10, .next 0,
    .crash 0, .start, .tick 300000, .openClaim 1, .claim 1 unlocked unlocked fun _ => 11,
    .next 1, .fail 1, .next 1, .tick 60000, .openClaim 1,
    .claim 1 unlocked unlocked fun _ => 12, .next 1, .succeed 1 .delivered]

end Demo

theorem lease_protocol_taken_over :
    let w := run RelayStep.apply Demo.takenOver Demo.emptyOutbox
    w.notifications.rows.map Notification.status = [.sent] ∧
      w.notifications.rows.map Notification.attempts = [3] ∧ LeaseProtocol w := by
  refine ⟨by decide, by decide, lease_protocol _ Demo.emptyOutbox_fresh _ ?_⟩
  unfold RelayWorld.DistinctTokens
  decide

end Refearn.Notifications
