import Refearn.Invites.Issuance
import Mathlib.Data.List.Basic
/-!
# Quotas and replays of issuing

What a call has counted stays an upper bound while it holds the lock: others only make invites
inactive, and the counts fall as the clock goes on. Two invites of one key cannot be in the table,
so whatever two calls of one key return is one row.
-/

namespace Refearn.Invites

open Support
open Auth (AuthEnv AuthError Invite IssuedInvite isStaleInviteOf MAX_ACTIVE_INVITES
  MAX_INVITES_PER_DAY)

variable {env : AuthEnv} {inviterId : Uuid}

/-! ## Counts -/

theorem activeCount_mono (t : Table Invite) {now now' : Instant} (h : now ≤ now') :
    activeCount inviterId t now' ≤ activeCount inviterId t now := by
  apply List.countP_mono_left
  intro i _ hi
  simp only [Bool.and_eq_true, decide_eq_true_eq] at hi ⊢
  exact ⟨hi.1, lt_of_le_of_lt h hi.2⟩

theorem todayCount_mono (t : Table Invite) {now now' : Instant} (h : now ≤ now') :
    todayCount inviterId t now' ≤ todayCount inviterId t now := by
  apply List.countP_mono_left
  intro i _ hi
  simp only [Bool.and_eq_true, decide_eq_true_eq] at hi ⊢
  exact ⟨hi.1, le_trans (sub_le_sub_right h _) hi.2⟩

/-- The columns that no statement rewrites. -/
structure Same (i i' : Invite) : Prop where
  id : i'.id = i.id
  inviter : i'.inviterMembershipId = i.inviterMembershipId
  code : i'.code = i.code
  email : i'.email = i.email
  key : i'.idempotencyKeyHash = i.idempotencyKeyHash

theorem Same.refl (i : Invite) : Same i i := ⟨rfl, rfl, rfl, rfl, rfl⟩

theorem Same.trans {i j k : Invite} (h : Same i j) (h' : Same j k) : Same i k :=
  ⟨h'.id.trans h.id, h'.inviter.trans h.inviter, h'.code.trans h.code, h'.email.trans h.email,
    h'.key.trans h.key⟩

def Keeps (t t' : Table Invite) : Prop := ∀ i ∈ t, ∃ i' ∈ t', Same i i'

theorem Keeps.refl (t : Table Invite) : Keeps t t := fun i hi => ⟨i, hi, Same.refl i⟩

theorem Keeps.trans {t u v : Table Invite} (h : Keeps t u) (h' : Keeps u v) : Keeps t v := by
  intro i hi
  obtain ⟨j, hj, hij⟩ := h i hi
  obtain ⟨k, hk, hjk⟩ := h' j hj
  exact ⟨k, hk, hij.trans hjk⟩

theorem keeps_insert? {t t' : Table Invite} {i : Invite} (h : t.insert? i = some t') :
    Keeps t t' := fun j hj => ⟨j, (Table.mem_insert? h).mpr (.inl hj), Same.refl j⟩

/-- Others keep all invites, and add none to the counts of this inviter. -/
structure Settles (inviterId : Uuid) (t t' : Table Invite) : Prop where
  keeps : Keeps t t'
  active : ∀ now, activeCount inviterId t' now ≤ activeCount inviterId t now
  today : ∀ now, todayCount inviterId t' now ≤ todayCount inviterId t now

theorem Settles.refl (t : Table Invite) : Settles inviterId t t :=
  ⟨Keeps.refl t, fun _ => le_rfl, fun _ => le_rfl⟩

/-- A rewrite of a status that makes nothing active. -/
structure Calms (f : Invite → Invite) : Prop where
  same : ∀ i, Same i (f i)
  expiresAt : ∀ i, (f i).expiresAt = i.expiresAt
  createdAt : ∀ i, (f i).createdAt = i.createdAt
  status : ∀ i, (f i).status ≠ .active

theorem Calms.settles {f : Invite → Invite} (hf : Calms f) {t t' : Table Invite}
    {p : Invite → Bool} (h : t'.rows = t.rows.map fun i => if p i then f i else i) :
    Settles inviterId t t' := by
  refine ⟨?_, ?_, ?_⟩
  · intro i hi
    refine ⟨if p i then f i else i, ?_, ?_⟩
    · rw [Table.mem_def, h]
      exact List.mem_map_of_mem hi
    · split_ifs
      · exact hf.same i
      · exact Same.refl i
  · intro now
    unfold activeCount
    rw [h, List.countP_map]
    apply List.countP_mono_left
    intro i _ hi
    simp only [Function.comp_apply, Bool.and_eq_true, beq_iff_eq, decide_eq_true_eq] at hi ⊢
    split_ifs at hi
    · exact absurd hi.1.2 (hf.status i)
    · exact hi
  · intro now
    unfold todayCount
    rw [h, List.countP_map]
    apply List.countP_mono_left
    intro i _ hi
    simp only [Function.comp_apply, Bool.and_eq_true, beq_iff_eq, decide_eq_true_eq] at hi ⊢
    split_ifs at hi
    · rw [(hf.same i).inviter, hf.createdAt] at hi
      exact hi
    · exact hi

theorem calms_expired : Calms (Invite.withStatus .expired) :=
  ⟨fun _ => ⟨rfl, rfl, rfl, rfl, rfl⟩, fun _ => rfl, fun _ => rfl, fun _ => by
    simp [Invite.withStatus]⟩

theorem calms_usedBy (membershipId : Uuid) : Calms (Invite.usedBy membershipId) :=
  ⟨fun _ => ⟨rfl, rfl, rfl, rfl, rfl⟩, fun _ => rfl, fun _ => rfl, fun _ => by
    simp [Invite.usedBy]⟩

theorem settles_expireStale (t : Table Invite) (now : Instant) :
    Settles inviterId t (expireStale inviterId t now) :=
  calms_expired.settles (Table.rows_updateWhere ..)

/-- What is expired was not counted. -/
theorem activeCount_expireStale (t : Table Invite) (now : Instant) :
    activeCount inviterId (expireStale inviterId t now) now = activeCount inviterId t now := by
  unfold activeCount expireStale
  rw [Table.rows_updateWhere, List.countP_map]
  apply List.countP_congr
  intro i _
  simp only [Function.comp_apply]
  split_ifs with hstale
  · simp only [isStaleInviteOf, Bool.and_eq_true, decide_eq_true_eq] at hstale
    simp [Invite.withStatus, not_lt.mpr hstale.2]
  · exact Iff.rfl

theorem todayCount_expireStale (t : Table Invite) (now now' : Instant) :
    todayCount inviterId (expireStale inviterId t now) now' = todayCount inviterId t now' := by
  unfold todayCount expireStale
  rw [Table.rows_updateWhere, List.countP_map]
  apply List.countP_congr
  intro i _
  simp only [Function.comp_apply]
  split_ifs
  · exact Iff.rfl
  · exact Iff.rfl

theorem settles_other {t t' : Table Invite} {i : Invite} (hi : i.inviterMembershipId ≠ inviterId)
    (h : t.insert? i = some t') : Settles inviterId t t' := by
  refine ⟨keeps_insert? h, fun now => ?_, fun now => ?_⟩
  · unfold activeCount
    rw [(Table.insert?_eq_some.mp h).2, List.countP_append]
    simp [hi]
  · unfold todayCount
    rw [(Table.insert?_eq_some.mp h).2, List.countP_append]
    simp [hi]

/-- One more invite adds at most one to each count. -/
theorem activeCount_insert? {t t' : Table Invite} {i : Invite} (h : t.insert? i = some t')
    (now : Instant) : activeCount inviterId t' now ≤ activeCount inviterId t now + 1 := by
  unfold activeCount
  rw [(Table.insert?_eq_some.mp h).2, List.countP_append]
  exact Nat.add_le_add_left (List.countP_le_length) _

theorem todayCount_insert? {t t' : Table Invite} {i : Invite} (h : t.insert? i = some t')
    (now : Instant) : todayCount inviterId t' now ≤ todayCount inviterId t now + 1 := by
  unfold todayCount
  rw [(Table.insert?_eq_some.mp h).2, List.countP_append]
  exact Nat.add_le_add_left (List.countP_le_length) _

/-! ## What a call knows -/

/-- The table has the invite of an answer, under the key and the email of the call. -/
def Owned (env : AuthEnv) (inviterId : Uuid) (t : Table Invite) (c : Call) (r : IssuedInvite) :
    Prop :=
  ∃ i ∈ t, i.inviterMembershipId = inviterId ∧ i.id = r.id ∧ i.code = r.code ∧
    i.email = normalizedEmail env c.email ∧ i.idempotencyKeyHash = keyHash env c.idempotencyKey

theorem Owned.keeps {t t' : Table Invite} {c : Call} {r : IssuedInvite} (ht : Keeps t t')
    (h : Owned env inviterId t c r) : Owned env inviterId t' c r := by
  obtain ⟨i, hi, hinviter, hid, hcode, hemail, hkey⟩ := h
  obtain ⟨i', hi', hsame⟩ := ht i hi
  exact ⟨i', hi', hsame.inviter.trans hinviter, hsame.id.trans hid, hsame.code.trans hcode,
    hsame.email.trans hemail, hsame.key.trans hkey⟩

/-- There is room for one more invite, as of a time that has passed. -/
structure Room (inviterId : Uuid) (clock : Instant) (t : Table Invite) (now : Instant) : Prop where
  past : now ≤ clock
  active : activeCount inviterId t now < MAX_ACTIVE_INVITES
  today : todayCount inviterId t now < MAX_INVITES_PER_DAY

/-- What a call that stands at a point has made sure of. -/
def Known (env : AuthEnv) (inviterId : Uuid) (clock : Instant) (t : Table Invite) (c : Call) :
    Point → Prop
  | .expiring _ now => now ≤ clock
  | .lookingUp _ now => now ≤ clock
  | .countingActive _ now => now ≤ clock
  | .countingToday _ now active => now ≤ clock ∧ activeCount inviterId t now ≤ active
  | .inserting _ now _ => Room inviterId clock t now
  | .rechecking _ now _ => Room inviterId clock t now
  | .replaying _ r => Owned env inviterId t c r
  | .returned r => Owned env inviterId t c r
  | _ => True

theorem Known.settles {clock clock' : Instant} {t t' : Table Invite} {c : Call} {p : Point}
    (hclock : clock ≤ clock') (ht : Settles inviterId t t')
    (h : Known env inviterId clock t c p) : Known env inviterId clock' t' c p := by
  have hroom : ∀ now, Room inviterId clock t now → Room inviterId clock' t' now :=
    fun now hr => ⟨hr.past.trans hclock, (ht.active now).trans_lt hr.active,
      (ht.today now).trans_lt hr.today⟩
  cases p with
  | expiring | lookingUp | countingActive => exact le_trans h hclock
  | countingToday inviter now active => exact ⟨h.1.trans hclock, (ht.active now).trans h.2⟩
  | inserting | rechecking => exact hroom _ h
  | replaying | returned => exact Owned.keeps ht.keeps h
  | waiting | readingClock | failed => trivial

/-- Without the lock a call knows nothing but its answer. -/
theorem Known.idle {clock clock' : Instant} {t t' : Table Invite} {c : Call} {p : Point}
    (ht : Keeps t t') (hidle : p.holds = false) (h : Known env inviterId clock t c p) :
    Known env inviterId clock' t' c p := by
  cases p with
  | returned => exact Owned.keeps ht h
  | waiting | failed => trivial
  | _ => cases hidle

/-! ## One statement -/

/-- What one statement of a call leads to. -/
structure Runs (env : AuthEnv) (inviterId : Uuid) (clock : Instant) (t : Table Invite) (c : Call)
    (r : Table Invite × Point) : Prop where
  keeps : Keeps t r.1
  known : Known env inviterId clock r.1 c r.2
  active : activeCount inviterId r.1 clock ≤ MAX_ACTIVE_INVITES
  today : todayCount inviterId r.1 clock ≤ MAX_INVITES_PER_DAY
  /-- only a call with the lock writes -/
  locked : r.1 = t ∨ c.point.holds = true

section Statement

variable {clock : Instant} {t : Table Invite} {c : Call}

theorem Runs.reads (hactive : activeCount inviterId t clock ≤ MAX_ACTIVE_INVITES)
    (htoday : todayCount inviterId t clock ≤ MAX_INVITES_PER_DAY) {p : Point}
    (h : Known env inviterId clock t c p) : Runs env inviterId clock t c (t, p) :=
  ⟨Keeps.refl t, h, hactive, htoday, .inl rfl⟩

/-- What a key leads to belongs to the call, if the emails are the same. -/
theorem known_replayOr {now : Instant} {otherwise : Point}
    (h : Known env inviterId clock t c otherwise) :
    Known env inviterId clock t c
      (c.replayOr env inviterId (expireStale inviterId t now) now otherwise) := by
  unfold Call.replayOr
  split
  · exact h
  · rename_i existing hfound
    split_ifs with hemail
    · trivial
    · obtain ⟨hash, hhash, hfind⟩ := Option.bind_eq_some_iff.mp hfound
      have hkey := List.find?_some hfind
      simp only [Bool.and_eq_true, beq_iff_eq] at hkey
      have hmem : existing ∈ (expireStale inviterId t now).rows :=
        List.mem_of_find?_eq_some hfind
      -- the row is in the table, but for the status that the call has written itself
      unfold expireStale at hmem
      rw [Table.rows_updateWhere] at hmem
      obtain ⟨i, hi, heq⟩ := List.mem_map.mp hmem
      have hsame : Same i existing := by
        rw [← heq]
        split_ifs
        · exact calms_expired.same i
        · exact Same.refl i
      exact ⟨i, hi, hsame.inviter.symm.trans hkey.1, hsame.id.symm, hsame.code.symm,
        hsame.email.symm.trans (not_not.mp hemail),
        hsame.key.symm.trans (hkey.2.trans hhash.symm)⟩

/-- The insert of a call that has room keeps both quotas. -/
theorem runs_inserting {inviter : InviterRow} {now : Instant} {d : Draw} {t' : Table Invite}
    (hholds : c.point.holds = true) (hroom : Room inviterId clock t now)
    (h : (expireStale inviterId t now).insert? (c.invite env inviterId inviter now d) = some t') :
    Runs env inviterId clock t c (t', .returned (.of (c.invite env inviterId inviter now d))) := by
  have hsettles : Settles inviterId t (expireStale inviterId t now) := settles_expireStale t now
  refine ⟨hsettles.keeps.trans (keeps_insert? h), ?_, ?_, ?_, .inr hholds⟩
  · exact ⟨_, (Table.mem_insert? h).mpr (.inr rfl), rfl, rfl, rfl, rfl, rfl⟩
  · calc activeCount inviterId t' clock
        ≤ activeCount inviterId (expireStale inviterId t now) clock + 1 :=
          activeCount_insert? h clock
      _ ≤ activeCount inviterId t clock + 1 := Nat.add_le_add_right (hsettles.active clock) 1
      _ ≤ activeCount inviterId t now + 1 :=
          Nat.add_le_add_right (activeCount_mono t hroom.past) 1
      _ ≤ MAX_ACTIVE_INVITES := hroom.active
  · calc todayCount inviterId t' clock
        ≤ todayCount inviterId (expireStale inviterId t now) clock + 1 :=
          todayCount_insert? h clock
      _ ≤ todayCount inviterId t clock + 1 := Nat.add_le_add_right (hsettles.today clock) 1
      _ ≤ todayCount inviterId t now + 1 :=
          Nat.add_le_add_right (todayCount_mono t hroom.past) 1
      _ ≤ MAX_INVITES_PER_DAY := hroom.today

theorem runs_statement (hactive : activeCount inviterId t clock ≤ MAX_ACTIVE_INVITES)
    (htoday : todayCount inviterId t clock ≤ MAX_INVITES_PER_DAY)
    (hknown : Known env inviterId clock t c c.point) (d : Draw) (row : Option InviterRow) :
    Runs env inviterId clock t c (c.run env inviterId d clock row t) := by
  unfold Call.run
  cases hpoint : c.point with
  | waiting =>
      cases hadmit : admitted c.expectedTenantId row with
      | error e =>
          simp only
          exact .reads hactive htoday trivial
      | ok inviter =>
          simp only
          exact .reads hactive htoday trivial
  | readingClock inviter => exact .reads hactive htoday le_rfl
  | expiring inviter now =>
      rw [hpoint] at hknown
      exact .reads hactive htoday hknown
  | lookingUp inviter now =>
      rw [hpoint] at hknown
      exact .reads hactive htoday (known_replayOr hknown)
  | countingActive inviter now =>
      rw [hpoint] at hknown
      exact .reads hactive htoday ⟨hknown, (activeCount_expireStale t now).ge⟩
  | countingToday inviter now active =>
      rw [hpoint] at hknown
      simp only
      split_ifs with hmany hdaily
      · exact .reads hactive htoday trivial
      · exact .reads hactive htoday trivial
      · rw [todayCount_expireStale] at hdaily
        exact .reads hactive htoday
          ⟨hknown.1, hknown.2.trans_lt (not_le.mp hmany), not_le.mp hdaily⟩
  | inserting inviter now attempts =>
      rw [hpoint] at hknown
      cases attempts with
      | zero => exact .reads hactive htoday trivial
      | succ attempts =>
          simp only
          cases hinsert : (expireStale inviterId t now).insert?
              (c.invite env inviterId inviter now d) with
          | none => exact .reads hactive htoday hknown
          | some t' => exact runs_inserting (by rw [hpoint]; rfl) hknown hinsert
  | rechecking inviter now attempts =>
      rw [hpoint] at hknown
      exact .reads hactive htoday (known_replayOr hknown)
  | replaying now r =>
      rw [hpoint] at hknown
      have hsettles : Settles inviterId t (expireStale inviterId t now) :=
        settles_expireStale t now
      exact ⟨hsettles.keeps, hknown.keeps hsettles.keeps, (hsettles.active clock).trans hactive,
        (hsettles.today clock).trans htoday, .inr (by rw [hpoint]; rfl)⟩
  | returned r =>
      rw [hpoint] at hknown
      exact .reads hactive htoday hknown
  | failed e => exact .reads hactive htoday trivial

end Statement

/-! ## Runs -/

/-- What holds in every state. -/
structure Guarded (env : AuthEnv) (inviterId : Uuid) (w : World) : Prop where
  active : activeCount inviterId w.invites w.clock ≤ MAX_ACTIVE_INVITES
  today : todayCount inviterId w.invites w.clock ≤ MAX_INVITES_PER_DAY
  holder : ∀ (i : Nat) (c : Call), w.calls[i]? = some c → c.point.holds = true →
    w.holder = some i
  known : ∀ (i : Nat) (c : Call), w.calls[i]? = some c →
    Known env inviterId w.clock w.invites c c.point
  keyed : ∀ c ∈ w.calls, c.idempotencyKey ≠ some ""

theorem Fresh.guarded {w : World} (h : Fresh inviterId w) : Guarded env inviterId w := by
  refine ⟨h.active, h.today, ?_, ?_, ?_⟩
  · intro i c hc
    rw [h.calls] at hc
    cases hc
  · intro i c hc
    rw [h.calls] at hc
    cases hc
  · intro c hc
    rw [h.calls] at hc
    cases hc

/-- What others do leaves the calls with what they know. -/
theorem Guarded.settles {w : World} (h : Guarded env inviterId w) {clock : Instant}
    {t : Table Invite} (hclock : w.clock ≤ clock) (ht : Settles inviterId w.invites t)
    (row : Option InviterRow) :
    Guarded env inviterId { w with clock, inviter := row, invites := t } where
  active := (ht.active clock).trans ((activeCount_mono w.invites hclock).trans h.active)
  today := (ht.today clock).trans ((todayCount_mono w.invites hclock).trans h.today)
  holder := h.holder
  known i c hc := (h.known i c hc).settles hclock ht
  keyed := h.keyed

theorem parseIdempotencyKey_ne {header key : Option String}
    (h : parseIdempotencyKey header = .ok key) : key ≠ some "" := by
  cases header with
  | none =>
      injection h with h
      rw [← h]
      exact nofun
  | some value =>
      simp only [parseIdempotencyKey] at h
      split_ifs at h with hkey
      injection h with h
      rw [← h]
      intro heq
      injection heq with heq
      rw [heq] at hkey
      exact absurd hkey.1 (by decide)

theorem Guarded.call {w : World} (h : Guarded env inviterId w) {key : Option String}
    (hkey : key ≠ some "") (email : Option String) (expectedTenantId : Option Uuid) :
    Guarded env inviterId
      { w with calls := w.calls ++ [⟨email, key, expectedTenantId, w.clock, .waiting⟩] } := by
  refine ⟨h.active, h.today, ?_, ?_, ?_⟩
  · intro i c hc hholds
    rw [List.getElem?_append] at hc
    split_ifs at hc with hlt
    · exact h.holder i c hc hholds
    · obtain rfl := List.mem_singleton.mp (List.mem_of_getElem? hc)
      cases hholds
  · intro i c hc
    rw [List.getElem?_append] at hc
    split_ifs at hc with hlt
    · exact h.known i c hc
    · obtain rfl := List.mem_singleton.mp (List.mem_of_getElem? hc)
      trivial
  · intro c hc
    rcases List.mem_append.mp hc with hold | hnew
    · exact h.keyed c hold
    · obtain rfl := List.mem_singleton.mp hnew
      exact hkey

/-- A statement of one call: nobody else holds the lock that it writes under. -/
theorem Guarded.move {w : World} (h : Guarded env inviterId w) {i : Nat} {c : Call}
    (hc : w.calls[i]? = some c) {r : Table Invite × Point}
    (hr : Runs env inviterId w.clock w.invites c r)
    (hlock : c.point.holds = false → r.2.holds = true → w.holder = none) :
    Guarded env inviterId (w.move i c r.1 r.2) := by
  have hmem : c ∈ w.calls := List.mem_of_getElem? hc
  refine ⟨hr.active, hr.today, ?_, ?_, ?_⟩
  · intro j c' hc' hholds
    unfold World.move at hc' ⊢
    simp only [holderAfter]
    rw [List.getElem?_set] at hc'
    split_ifs at hc' with hij hlt
    · injection hc' with hc'
      rw [← hc'] at hholds
      rw [if_pos hholds, hij]
    · -- another call that holds the lock keeps it
      have hj := h.holder j c' hc' hholds
      by_cases hafter : r.2.holds = true
      · by_cases hbefore : c.point.holds = true
        · have hi := h.holder i c hc hbefore
          rw [hj] at hi
          injection hi with hi
          exact absurd hi.symm hij
        · have hnone := hlock (Bool.of_not_eq_true hbefore) hafter
          rw [hj] at hnone
          cases hnone
      · rw [if_neg hafter, if_neg, hj]
        rw [hj]
        exact fun heq => hij (Option.some.inj heq).symm
  · intro j c' hc'
    unfold World.move at hc'
    rw [List.getElem?_set] at hc'
    split_ifs at hc' with hij hlt
    · injection hc' with hc'
      rw [← hc']
      exact hr.known
    · rcases hr.locked with hsame | hholds
      · change Known env inviterId w.clock r.1 c' c'.point
        rw [hsame]
        exact h.known j c' hc'
      · refine (h.known j c' hc').idle hr.keeps ?_
        by_contra hbusy
        have hi := h.holder i c hc hholds
        rw [h.holder j c' hc' (Bool.of_not_eq_false hbusy)] at hi
        injection hi with hi
        exact hij hi.symm
  · intro c' hc'
    rcases List.mem_or_eq_of_mem_set hc' with hold | hnew
    · exact h.keyed c' hold
    · rw [hnew]
      exact h.keyed c hmem

theorem not_holds_of_free {w : World} (h : Guarded env inviterId w) {i : Nat} {c : Call}
    (hc : w.calls[i]? = some c) (hfree : w.holder = none) : c.point.holds = false := by
  by_contra hbusy
  have hi := h.holder i c hc (Bool.of_not_eq_false hbusy)
  rw [hfree] at hi
  cases hi

/-- Only a call that waits can come to hold the lock. -/
theorem holds_of_run {clock : Instant} {t : Table Invite} {c : Call} {d : Draw}
    {row : Option InviterRow} (h : (c.run env inviterId d clock row t).2.holds = true) :
    c.point = .waiting ∨ c.point.holds = true := by
  cases hpoint : c.point with
  | waiting => exact .inl rfl
  | returned | failed =>
      unfold Call.run at h
      rw [hpoint] at h
      cases h
  | _ => exact .inr rfl

theorem Guarded.statement {w : World} (h : Guarded env inviterId w) {i : Nat} {c : Call}
    (hc : w.calls[i]? = some c) (d : Draw) (hfree : ¬(c.point = .waiting ∧ w.holder.isSome)) :
    Guarded env inviterId
      (w.move i c (c.run env inviterId d w.clock w.inviter w.invites).1
        (c.run env inviterId d w.clock w.inviter w.invites).2) := by
  refine h.move hc (runs_statement h.active h.today (h.known i c hc) d w.inviter) ?_
  intro hidle hholds
  rcases holds_of_run hholds with hwaiting | hbusy
  · cases hholder : w.holder with
    | none => rfl
    | some j => exact absurd ⟨hwaiting, by rw [hholder]; rfl⟩ hfree
  · rw [hidle] at hbusy
    cases hbusy

theorem Guarded.abort {w : World} (h : Guarded env inviterId w) {i : Nat} {c : Call}
    (hc : w.calls[i]? = some c) (e : AuthError) :
    Guarded env inviterId (w.move i c w.invites (.failed e)) :=
  h.move hc (r := (w.invites, .failed e)) (.reads h.active h.today trivial) fun _ hholds => by
    cases hholds

/-- Every step keeps the guard. -/
theorem Guarded.apply {w : World} (h : Guarded env inviterId w) (step : Step) :
    Guarded env inviterId (step.apply env inviterId w) := by
  cases step with
  | call header email expectedTenantId =>
      simp only [Step.apply]
      cases hkey : parseIdempotencyKey header with
      | error e => exact h
      | ok key => exact h.call (parseIdempotencyKey_ne hkey) email expectedTenantId
  | statement i d =>
      simp only [Step.apply]
      cases hc : w.calls[i]? with
      | none => exact h
      | some c =>
          simp only
          split_ifs with hblocked
          · exact h
          · exact h.statement hc d hblocked
  | abort i =>
      simp only [Step.apply]
      cases hc : w.calls[i]? with
      | none => exact h
      | some c =>
          simp only
          cases hpoint : c.point with
          | returned | failed => exact h
          | _ => exact h.abort hc _
  | consume inviteId membershipId readAt =>
      exact h.settles le_rfl ((calms_usedBy membershipId).settles (Table.rows_updateWhere ..))
        w.inviter
  | markExpired inviteId =>
      exact h.settles le_rfl (calms_expired.settles (Table.rows_updateWhere ..)) w.inviter
  | other invite =>
      simp only [Step.apply]
      split_ifs with hown
      · exact h
      · cases hinsert : w.invites.insert? invite with
        | none => exact h
        | some t => exact h.settles le_rfl (settles_other hown hinsert) w.inviter
  | setInviter row =>
      simp only [Step.apply]
      split_ifs
      · exact h
      · exact h.settles le_rfl (Settles.refl w.invites) row
  | tick ms =>
      exact h.settles (Int.le_add_of_nonneg_right (Int.natCast_nonneg ms))
        (Settles.refl w.invites) w.inviter

/-! ## One invite a key -/

theorem clash_invite_comm (i j : Invite) : clash i j = clash j i := by
  change (i.code == j.code || (i.inviterMembershipId == j.inviterMembershipId &&
      i.idempotencyKeyHash.isSome && i.idempotencyKeyHash == j.idempotencyKeyHash)) =
    (j.code == i.code || (j.inviterMembershipId == i.inviterMembershipId &&
      j.idempotencyKeyHash.isSome && j.idempotencyKeyHash == i.idempotencyKeyHash))
  have hcode : (i.code == j.code) = (j.code == i.code) := Bool.beq_comm
  have hinviter : (i.inviterMembershipId == j.inviterMembershipId) =
      (j.inviterMembershipId == i.inviterMembershipId) := Bool.beq_comm
  rw [hcode, hinviter]
  by_cases hkey : i.idempotencyKeyHash = j.idempotencyKeyHash
  · rw [hkey]
  · rw [beq_false_of_ne hkey, beq_false_of_ne (Ne.symm hkey), Bool.and_false, Bool.and_false]

/-- Two invites of one key are one. -/
theorem owned_agree {t : Table Invite} {c c' : Call} {r r' : IssuedInvite} {key : String}
    (hne : key ≠ "") (hc : c.idempotencyKey = some key) (hc' : c'.idempotencyKey = some key)
    (h : Owned env inviterId t c r) (h' : Owned env inviterId t c' r') :
    r.id = r'.id ∧ r.code = r'.code ∧ normalizedEmail env c.email = normalizedEmail env c'.email := by
  obtain ⟨i, hi, hinviter, hid, hcode, hemail, hkey⟩ := h
  obtain ⟨i', hi', hinviter', hid', hcode', hemail', hkey'⟩ := h'
  have hhash : keyHash env (some key) = some (env.sha256 ("invite-idempotency:v1:" ++ trim key)) := by
    unfold keyHash
    rw [Option.filter_some, if_pos (decide_eq_true hne), Option.map_some]
  rw [hc, hhash] at hkey
  rw [hc', hhash] at hkey'
  have hclash : clash i i' = true := by
    simp [clash, hinviter, hinviter', hkey, hkey']
  obtain rfl := Table.eq_of_clash clash_invite_comm hi hi' hclash
  exact ⟨hid.symm.trans hid', hcode.symm.trans hcode', hemail.symm.trans hemail'⟩

theorem Guarded.withinQuota {w : World} (h : Guarded env inviterId w) :
    WithinQuota env inviterId w := by
  refine ⟨h.active, h.today, ?_⟩
  intro c hc c' hc' r r' hr hr' key hkey hkey'
  obtain ⟨i, hi⟩ := List.mem_iff_getElem?.mp hc
  obtain ⟨j, hj⟩ := List.mem_iff_getElem?.mp hc'
  have hknown := h.known i c hi
  have hknown' := h.known j c' hj
  rw [hr] at hknown
  rw [hr'] at hknown'
  refine owned_agree ?_ hkey hkey' hknown hknown'
  rintro rfl
  exact h.keyed c hc hkey

/-- In every run of calls, registrations and the clock, an inviter stays within both quotas, and
the calls of one key that return lead to one invite under one email. -/
theorem issuance_withinQuota {w : World}
    (h : Reachable (Fresh inviterId) (Step.apply env inviterId) w) :
    WithinQuota env inviterId w :=
  Guarded.withinQuota
    (Reachable.invariant (I := Guarded env inviterId) (fun _ hw => hw.guarded)
      (fun step _ hw => hw.apply step) h)

/-! ## A key used twice -/

namespace Demo

def before : World where
  clock := 0
  inviter := some ⟨1, .active, .active⟩
  invites := Table.empty
  calls := []
  holder := none

theorem fresh_before : Fresh 7 before := ⟨Nat.zero_le _, Nat.zero_le _, rfl, rfl⟩

def key : Option String := some "0123456789abcdef"

/-- The second call waits for the first, and comes back after its invite has been used. -/
def steps : List Step :=
  .call key none none :: .call key none none :: .statement 0 ⟨9, "AAAA"⟩ ::
    .statement 1 ⟨10, "BBBB"⟩ :: (List.replicate 6 (.statement 0 ⟨9, "AAAA"⟩) ++
      .consume 9 3 0 :: List.replicate 5 (.statement 1 ⟨10, "BBBB"⟩))

end Demo

theorem issuance_withinQuota_twice :
    WithinQuota Auth.Demo.env 7 (run (Step.apply Auth.Demo.env 7) Demo.steps Demo.before) :=
  issuance_withinQuota (Reachable.run (.start Demo.fresh_before) Demo.steps)

/-- Both calls have come back with the one invite. -/
example : (run (Step.apply Auth.Demo.env 7) Demo.steps Demo.before).calls.map
    (fun c => match c.point with | .returned r => some (r.id, r.code) | _ => none) =
      [some (9, "AAAA"), some (9, "AAAA")] := by
  decide

end Refearn.Invites
