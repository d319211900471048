import Refearn.Memberships.Administration
import Refearn.Memberships.Proofs.Paths
import Mathlib.Data.List.Perm.Subperm
/-!
# What a bulk preview says about the run

A run does to each member that one of the texts names what the single action does, once or
more often alike. The preview counts texts and finds a member only under the text that the
database gives, so it is right where each text whose member changes is that text and stands
once.
-/

namespace Refearn.Memberships

open Support

/-! ## Texts of identifiers -/

theorem toLower_of_mem_chars {id : Uuid} {c : Char} (h : c ∈ id.chars) : c.toLower = c := by
  have hall : ("0123456789abcdef-".toList.all fun c => c.toLower == c) = true := by decide
  refine beq_iff_eq.mp (List.all_eq_true.mp hall c ?_)
  by_cases hdash : c = '-'
  · rw [hdash]
    decide
  · exact List.mem_append_left ['-'] (mem_digits_of_mem_chars id h hdash)

/-- An identifier is named by its own text. -/
theorem names_of_toList_eq {text : String} {id : Uuid} (h : text.toList = id.chars) :
    names text id = true := by
  refine beq_iff_eq.mpr ?_
  rw [h]
  conv_rhs => rw [← List.map_id id.chars]
  exact List.map_congr_left fun c hc => toLower_of_mem_chars hc

theorem names_unique {text : String} {a b : Uuid} (ha : names text a = true)
    (hb : names text b = true) : a = b :=
  Uuid.chars_inj ((beq_iff_eq.mp ha).symm.trans (beq_iff_eq.mp hb))

/-! ## One member -/

/-- What the action makes of a member's row. -/
def BulkAction.outcome (action : BulkAction) (m : MembershipRow) :
    Except MembersError MembershipRow :=
  match action with
  | .setStatus status =>
      if m.role = .tenantOwner ∧ status = .inactive then
        .error (.badRequest "owner membership cannot be deactivated")
      else .ok { m with status }
  | .setRole role authority assignment =>
      (assertRoleChangeAllowed authority m assignment).map fun _ =>
        { m with role, roleId := assignment.roleId }

/-- The row after the action, the same where it is refused. -/
def BulkAction.target (action : BulkAction) (m : MembershipRow) : MembershipRow :=
  match action.outcome m with
  | .ok m' => m'
  | .error _ => m

/-- An action that a bulk request leads to. -/
def BulkAction.Assignable : BulkAction → Prop
  | .setStatus _ => True
  | .setRole role _ _ => role ∈ ASSIGNABLE_ROLES

theorem prepareBulk_assignable {db : MembersDb} {actor : ActorContext} {input : BulkInput}
    {actorMembershipId : Option Uuid} {action : BulkAction}
    (h : prepareBulk db actor input actorMembershipId = .ok action) : action.Assignable := by
  unfold prepareBulk at h
  split_ifs at h with hmissing hrole
  split at h
  · cases h
    trivial
  · cases h
    trivial
  · cases h
  · rename_i role _ hinput
    rw [hinput] at hrole
    cases hauthority : resolveRoleChangeAuthority db actor actorMembershipId with
    | error e =>
        rw [hauthority] at h
        cases h
    | ok authority =>
        rw [hauthority] at h
        cases h
        change role ∈ ASSIGNABLE_ROLES
        simpa using hrole

section Member

variable {action : BulkAction} {m m' : MembershipRow}

theorem outcome_id (h : action.outcome m = .ok m') : m'.id = m.id ∧ m'.tenantId = m.tenantId := by
  unfold BulkAction.outcome at h
  split at h
  · split_ifs at h
    cases h
    exact ⟨rfl, rfl⟩
  · rename_i role authority assignment
    cases hallowed : assertRoleChangeAllowed authority m assignment with
    | error e =>
        rw [hallowed] at h
        cases h
    | ok _ =>
        rw [hallowed] at h
        cases h
        exact ⟨rfl, rfl⟩

@[simp] theorem target_id : (action.target m).id = m.id := by
  unfold BulkAction.target
  split
  · rename_i h
    exact (outcome_id h).1
  · rfl

@[simp] theorem target_tenantId : (action.target m).tenantId = m.tenantId := by
  unfold BulkAction.target
  split
  · rename_i h
    exact (outcome_id h).2
  · rfl

/-- The action repeated leaves the row as it is. -/
theorem outcome_again (haction : action.Assignable) (h : action.outcome m = .ok m') :
    action.outcome m' = .ok m' := by
  cases action with
  | setStatus status =>
      unfold BulkAction.outcome at h ⊢
      simp only at h ⊢
      split_ifs at h with howner
      cases h
      exact if_neg howner
  | setRole role authority assignment =>
      unfold BulkAction.outcome at h ⊢
      simp only at h ⊢
      cases hallowed : assertRoleChangeAllowed authority m assignment with
      | error e =>
          rw [hallowed] at h
          cases h
      | ok _ =>
          rw [hallowed] at h
          cases h
          -- nobody becomes an owner, so the second call passes the same checks
          have hrole : role ≠ .tenantOwner := by
            rintro rfl
            exact absurd (show Auth.Role.tenantOwner ∈ ASSIGNABLE_ROLES from haction) (by decide)
          have hsame : assertRoleChangeAllowed authority
              { m with role, roleId := assignment.roleId } assignment = .ok () := by
            unfold assertRoleChangeAllowed at hallowed ⊢
            split_ifs at hallowed with hself howner
            simp only [hself, hrole, if_false]
            exact hallowed
          rw [hsame]
          rfl

/-- Refused or not, and what for, does not change by the action. -/
theorem outcome_target (haction : action.Assignable) :
    action.outcome (action.target m) = (action.outcome m).map fun _ => action.target m := by
  cases h : action.outcome m with
  | error e =>
      have htarget : action.target m = m := by
        unfold BulkAction.target
        rw [h]
      rw [htarget, h]
      rfl
  | ok m' =>
      have htarget : action.target m = m' := by
        unfold BulkAction.target
        rw [h]
      rw [htarget, outcome_again haction h]
      rfl

end Member

/-! ## One turn -/

section Turn

variable {db db' : MembersDb} {actor : ActorContext} {action : BulkAction} {text : String}
  {now : Instant} {m : MembershipRow} {e : MembersError}

theorem memberships_writeStatus (status : MembershipStatus) :
    (writeStatus db actor m status now).memberships =
      (updateMember db m.id (statusUpdate status)).memberships := by
  unfold writeStatus
  split_ifs <;> rfl

theorem memberships_writeRole (role : Auth.Role) (assignment : TierRoleAssignment) :
    (writeRole db actor m role assignment now).memberships =
      (updateMember db m.id (roleUpdate role assignment.roleId)).memberships := by
  unfold writeRole
  dsimp only
  split_ifs <;> rfl

theorem apply_not_found (haction : action.Assignable)
    (h : requireInTenant db actor.tenantId text = .error e) :
    action.apply db actor text now = .error e := by
  cases action with
  | setStatus status =>
      simp only [BulkAction.apply, Memberships.setStatus, h]
      rfl
  | setRole role authority assignment =>
      have hrole : role ∈ ASSIGNABLE_ROLES := haction
      simp only [BulkAction.apply, Memberships.setRole, hrole, not_true_eq_false, if_false, h]
      rfl

theorem apply_refused (haction : action.Assignable)
    (h : requireInTenant db actor.tenantId text = .ok m) (houtcome : action.outcome m = .error e) :
    action.apply db actor text now = .error e := by
  cases action with
  | setStatus status =>
      unfold BulkAction.outcome at houtcome
      simp only at houtcome
      split_ifs at houtcome with howner
      cases houtcome
      simp only [BulkAction.apply, Memberships.setStatus, h, bind, Except.bind, if_pos howner]
  | setRole role authority assignment =>
      have hrole : role ∈ ASSIGNABLE_ROLES := haction
      unfold BulkAction.outcome at houtcome
      simp only at houtcome
      cases hallowed : assertRoleChangeAllowed authority m assignment with
      | ok _ =>
          rw [hallowed] at houtcome
          cases houtcome
      | error e' =>
          rw [hallowed] at houtcome
          cases houtcome
          simp only [BulkAction.apply, Memberships.setRole, hrole, not_true_eq_false, if_false, h,
            hallowed, bind, Except.bind]

theorem requireInTenant_eq_ok (h : requireInTenant db actor.tenantId text = .ok m) :
    m ∈ db.memberships ∧ names text m.id = true ∧ m.tenantId = actor.tenantId := by
  unfold requireInTenant at h
  split at h
  · rename_i m' hfound
    cases h
    have hp := List.find?_some hfound
    rw [Bool.and_eq_true, beq_iff_eq] at hp
    exact ⟨List.mem_of_find?_eq_some hfound, hp⟩
  · cases h

/-- A rewrite of the row under a key is one of the row that has it. -/
theorem rows_updateMember (hm : m ∈ db.memberships) (u : MembershipUpdate) :
    (updateMember db m.id u).memberships.rows =
      db.memberships.rows.map fun r => if r.id = m.id then u.apply m else r := by
  refine (Table.rows_updateKey db.memberships m.id u.apply u.keepsIndexes).trans
    (List.map_congr_left fun r hr => ?_)
  change (if r.id = m.id then u.apply r else r) = _
  split_ifs with hid
  · rw [Table.eq_of_key (show r ∈ db.memberships from hr) hm hid]
  · rfl

theorem rows_map_self (hm : m ∈ db.memberships) :
    (db.memberships.rows.map fun r => if r.id = m.id then m else r) = db.memberships.rows := by
  conv_rhs => rw [← List.map_id db.memberships.rows]
  refine List.map_congr_left fun r hr => ?_
  split_ifs with hid
  · exact Table.eq_of_key hm (show r ∈ db.memberships from hr) hid.symm
  · rfl

/-- An action that is not refused writes the row, and nothing else into the members. -/
theorem apply_ok (now : Instant) (haction : action.Assignable)
    (h : requireInTenant db actor.tenantId text = .ok m) {m' : MembershipRow}
    (houtcome : action.outcome m = .ok m') : ∃ db', action.apply db actor text now = .ok db' ∧
      db'.memberships.rows = db.memberships.rows.map fun r => if r.id = m.id then m' else r := by
  obtain ⟨hm, -⟩ := requireInTenant_eq_ok h
  cases action with
  | setStatus status =>
      unfold BulkAction.outcome at houtcome
      simp only at houtcome
      split_ifs at houtcome with howner
      cases houtcome
      by_cases hsame : m.status = status
      · refine ⟨db, ?_, ?_⟩
        · simp only [BulkAction.apply, Memberships.setStatus, h, bind, Except.bind,
            if_neg howner, if_pos hsame]
          rfl
        · rw [← hsame]
          exact (rows_map_self hm).symm
      · refine ⟨writeStatus db actor m status now, ?_, ?_⟩
        · simp only [BulkAction.apply, Memberships.setStatus, h, bind, Except.bind,
            if_neg howner, if_neg hsame]
          rfl
        · rw [memberships_writeStatus]
          exact rows_updateMember hm (statusUpdate status)
  | setRole role authority assignment =>
      have hrole : role ∈ ASSIGNABLE_ROLES := haction
      unfold BulkAction.outcome at houtcome
      simp only at houtcome
      cases hallowed : assertRoleChangeAllowed authority m assignment with
      | error e' =>
          rw [hallowed] at houtcome
          cases houtcome
      | ok _ =>
          rw [hallowed] at houtcome
          cases houtcome
          refine ⟨writeRole db actor m role assignment now, ?_, ?_⟩
          · simp only [BulkAction.apply, Memberships.setRole, hrole, not_true_eq_false, if_false,
              h, hallowed, bind, Except.bind]
            rfl
          · rw [memberships_writeRole]
            exact rows_updateMember hm (roleUpdate role assignment.roleId)

end Turn

/-! ## A whole run -/

section Run

variable {db db' : MembersDb} {actor : ActorContext} {action : BulkAction} {ids : List String}
  {text : String} {now : Instant} {m : MembershipRow} {e : MembersError}

/-- One of the texts names the member, and the member is one of the business. -/
def Addressed (actor : ActorContext) (ids : List String) (m : MembershipRow) : Bool :=
  m.tenantId == actor.tenantId && ids.any fun text => names text m.id

/-- The row after a run over the texts. -/
def rowAfter (actor : ActorContext) (action : BulkAction) (ids : List String)
    (m : MembershipRow) : MembershipRow :=
  if Addressed actor ids m then action.target m else m

/-- Why a turn fails, read off the members as they were at the start. -/
def failReason (db : MembersDb) (actor : ActorContext) (action : BulkAction) (text : String) :
    Option String :=
  match requireInTenant db actor.tenantId text with
  | .error e => some e.message
  | .ok m =>
      match action.outcome m with
      | .error e => some e.message
      | .ok _ => none

@[simp] theorem rowAfter_id : (rowAfter actor action ids m).id = m.id := by
  unfold rowAfter
  split_ifs
  · exact target_id
  · rfl

@[simp] theorem rowAfter_tenantId : (rowAfter actor action ids m).tenantId = m.tenantId := by
  unfold rowAfter
  split_ifs
  · exact target_tenantId
  · rfl

/-- The action is refused after other turns if and only if it was at the start. -/
theorem outcome_rowAfter (haction : action.Assignable) :
    action.outcome (rowAfter actor action ids m) =
      (action.outcome m).map fun _ => action.target m := by
  unfold rowAfter
  split_ifs
  · exact outcome_target haction
  · cases h : action.outcome m with
    | error e => rfl
    | ok m' =>
        have htarget : action.target m = m' := by
          unfold BulkAction.target
          rw [h]
        rw [htarget]
        rfl

/-- Members are found by what no turn writes. -/
theorem requireInTenant_map {f : MembershipRow → MembershipRow} (hid : ∀ m, (f m).id = m.id)
    (htenant : ∀ m, (f m).tenantId = m.tenantId)
    (hrows : db'.memberships.rows = db.memberships.rows.map f) :
    requireInTenant db' actor.tenantId text =
      (requireInTenant db actor.tenantId text).map f := by
  unfold requireInTenant
  rw [hrows, List.find?_map]
  have hsame : ((fun m : MembershipRow => names text m.id && m.tenantId == actor.tenantId) ∘ f) =
      fun m => names text m.id && m.tenantId == actor.tenantId := by
    funext m
    simp only [Function.comp_apply, hid, htenant]
  rw [hsame]
  cases db.memberships.rows.find? fun m => names text m.id && m.tenantId == actor.tenantId <;> rfl

/-- The rows after one more turn. -/
theorem rowAfter_append (text : String) (m : MembershipRow) :
    rowAfter actor action (ids ++ [text]) m =
      if m.tenantId = actor.tenantId ∧ names text m.id = true then action.target m
      else rowAfter actor action ids m := by
  unfold rowAfter Addressed
  rw [List.any_append]
  by_cases htenant : m.tenantId = actor.tenantId
  · by_cases hnames : names text m.id = true
    · simp [htenant, hnames]
    · simp [htenant, hnames]
  · simp [htenant]

/-- One more turn after a run that did what it should. -/
theorem bulkTurn_spec (text : String) (now : Instant) (haction : action.Assignable) {r : BulkRun}
    (hrows : r.db.memberships.rows = db.memberships.rows.map (rowAfter actor action ids)) :
    (bulkTurn actor action now r text).db.memberships.rows =
        db.memberships.rows.map (rowAfter actor action (ids ++ [text])) ∧
      (bulkTurn actor action now r text).failed =
        r.failed ++ ((failReason db actor action text).map (text, ·)).toList := by
  have hfound : requireInTenant r.db actor.tenantId text =
      (requireInTenant db actor.tenantId text).map (rowAfter actor action ids) :=
    requireInTenant_map (fun _ => rowAfter_id) (fun _ => rowAfter_tenantId) hrows
  have hsame : ∀ m ∈ db.memberships.rows,
      ¬(m.tenantId = actor.tenantId ∧ names text m.id = true ∧ action.target m ≠ m) →
      rowAfter actor action (ids ++ [text]) m = rowAfter actor action ids m := by
    intro m _ hnot
    rw [rowAfter_append]
    split_ifs with haddressed
    · have htarget : action.target m = m := by
        by_contra hne
        exact hnot ⟨haddressed.1, haddressed.2, hne⟩
      unfold rowAfter
      rw [htarget, ite_self]
    · rfl
  unfold failReason
  cases hat : requireInTenant db actor.tenantId text with
  | error e =>
      rw [hat] at hfound
      have happly : action.apply r.db actor text now = .error e :=
        apply_not_found haction hfound
      simp only [bulkTurn, happly]
      refine ⟨?_, rfl⟩
      rw [hrows]
      refine List.map_congr_left fun m hm => (hsame m hm fun ⟨htenant, hnames, _⟩ => ?_).symm
      unfold requireInTenant at hat
      split at hat
      · cases hat
      · rename_i hnone
        refine List.find?_eq_none.mp hnone m hm ?_
        rw [Bool.and_eq_true, beq_iff_eq]
        exact ⟨hnames, htenant⟩
  | ok m =>
      obtain ⟨hm, hnames, htenant⟩ := requireInTenant_eq_ok hat
      rw [hat] at hfound
      have houtcome : action.outcome (rowAfter actor action ids m) =
          (action.outcome m).map fun _ => action.target m := outcome_rowAfter haction
      -- the text names no other row
      have hother : ∀ m' ∈ db.memberships.rows, names text m'.id = true → m' = m :=
        fun m' hm' hnames' => Table.eq_of_key (show m' ∈ db.memberships from hm') hm
          (names_unique hnames' hnames)
      cases hrefused : action.outcome m with
      | error e =>
          rw [hrefused] at houtcome
          have happly : action.apply r.db actor text now = .error e :=
            apply_refused haction hfound houtcome
          simp only [bulkTurn, happly, hrefused]
          refine ⟨?_, rfl⟩
          rw [hrows]
          refine List.map_congr_left fun m' hm' => (hsame m' hm' fun ⟨_, hnames', hne⟩ => hne ?_).symm
          rw [hother m' hm' hnames', BulkAction.target, hrefused]
      | ok m' =>
          rw [hrefused] at houtcome
          obtain ⟨db', happly, hdb'⟩ := apply_ok now haction hfound houtcome
          simp only [bulkTurn, happly, hrefused]
          refine ⟨?_, (List.append_nil _).symm⟩
          rw [hdb', hrows, List.map_map]
          refine List.map_congr_left fun r hr => ?_
          rw [Function.comp_apply, rowAfter_id, rowAfter_id, rowAfter_append]
          by_cases hr' : r.id = m.id
          · have hrm : r = m := Table.eq_of_key (show r ∈ db.memberships from hr) hm hr'
            rw [hrm, if_pos rfl, if_pos ⟨htenant, hnames⟩]
          · rw [if_neg hr', if_neg fun h => hr' (congrArg _ (hother r hr h.2))]

/-- A run writes each addressed member once and for all, and each turn fails for the reason
that it would have had at the start. -/
theorem bulkRun_spec (db : MembersDb) (actor : ActorContext) (now : Instant)
    (haction : action.Assignable) (ids : List String) :
    (bulkRun db actor action ids now).db.memberships.rows =
        db.memberships.rows.map (rowAfter actor action ids) ∧
      (bulkRun db actor action ids now).failed =
        ids.filterMap fun text => (failReason db actor action text).map (text, ·) := by
  induction ids using List.reverseRecOn with
  | nil =>
      refine ⟨?_, rfl⟩
      have hnone : rowAfter actor action [] = id := by
        funext m
        unfold rowAfter Addressed
        rw [List.any_nil, Bool.and_false]
        rfl
      rw [hnone, List.map_id]
      rfl
  | append_singleton ids text ih =>
      have hturn := bulkTurn_spec text now haction ih.1
      have hrun : bulkRun db actor action (ids ++ [text]) now =
          bulkTurn actor action now (bulkRun db actor action ids now) text := by
        unfold bulkRun
        rw [List.foldl_append, List.foldl_cons, List.foldl_nil]
      rw [hrun]
      refine ⟨hturn.1, hturn.2.trans ?_⟩
      rw [ih.2, List.filterMap_append]
      congr 1

/-! ## Refusals -/

/-- What a run does from its middle on does not depend on what failed before. -/
theorem foldl_bulkTurn (r : BulkRun) : ids.foldl (bulkTurn actor action now) r =
    { bulkRun r.db actor action ids now with
      succeeded := r.succeeded + (bulkRun r.db actor action ids now).succeeded
      failed := r.failed ++ (bulkRun r.db actor action ids now).failed } := by
  unfold bulkRun
  induction ids generalizing r with
  | nil => simp
  | cons text ids ih =>
      rw [List.foldl_cons, List.foldl_cons, ih (bulkTurn actor action now r text),
        ih (bulkTurn actor action now ⟨r.db, 0, []⟩ text)]
      unfold bulkTurn
      cases action.apply r.db actor text now with
      | ok db' => simp [Nat.add_assoc]
      | error e => simp [List.append_assoc]

/-- A text that is refused leaves no trace but its own failure. -/
theorem bulkRun_refused {before : List String} (after : List String)
    (h : action.apply (bulkRun db actor action before now).db actor text now = .error e) :
    (bulkRun db actor action (before ++ text :: after) now).db =
        (bulkRun db actor action (before ++ after) now).db ∧
      (bulkRun db actor action (before ++ text :: after) now).succeeded =
        (bulkRun db actor action (before ++ after) now).succeeded ∧
      ∃ later, (bulkRun db actor action (before ++ after) now).failed =
          (bulkRun db actor action before now).failed ++ later ∧
        (bulkRun db actor action (before ++ text :: after) now).failed =
          (bulkRun db actor action before now).failed ++ (text, e.message) :: later := by
  have hsplit : ∀ ids, bulkRun db actor action (before ++ ids) now =
      ids.foldl (bulkTurn actor action now) (bulkRun db actor action before now) :=
    fun ids => List.foldl_append
  have hturn : bulkTurn actor action now (bulkRun db actor action before now) text =
      { bulkRun db actor action before now with
        failed := (bulkRun db actor action before now).failed ++ [(text, e.message)] } := by
    unfold bulkTurn
    rw [h]
  rw [hsplit, hsplit, List.foldl_cons, hturn, foldl_bulkTurn, foldl_bulkTurn]
  refine ⟨rfl, rfl, _, rfl, ?_⟩
  rw [List.append_assoc, List.singleton_append]

end Run

/-! ## What a preview predicts -/

section Predicted

variable {db : MembersDb} {actor : ActorContext} {action : BulkAction} {ids : List String}
  {text : String} {now : Instant} {m : MembershipRow}

/-- Status and role. -/
def MembershipRow.standing (m : MembershipRow) : MembershipStatus × Auth.Role × Option Uuid :=
  (m.status, m.role, m.roleId)

/-- The members whose status or role differs. -/
def changedMembers (db db' : MembersDb) : List MembershipRow :=
  db.memberships.rows.filter fun m =>
    (db'.memberships.find? m.id).map MembershipRow.standing ≠ some m.standing

/-- The texts that name a member of the business whom the action changes. -/
def effectiveIds (db : MembersDb) (actor : ActorContext) (action : BulkAction)
    (ids : List String) : List String :=
  ids.filter fun text => db.memberships.rows.any fun m =>
    m.tenantId == actor.tenantId && names text m.id && (skipReason action m).isNone

/-- Of the texts whose members change, each is in lower case and stands once. -/
def EachOnceAsWritten (db : MembersDb) (actor : ActorContext) (action : BulkAction)
    (ids : List String) : Prop :=
  (effectiveIds db actor action ids).Nodup ∧
    ∀ text ∈ effectiveIds db actor action ids, ∃ id : Uuid, text = id.text

/-- The preview counts the members that the run changes, and skips the texts whose members it
leaves alone or refuses. -/
structure BulkPredicted (db : MembersDb) (ids : List String) (preview : BulkPreview)
    (r : BulkRun) : Prop where
  willChange : preview.willChange = (changedMembers db r.db).length
  skipped : ∀ text ∈ ids, text ∈ preview.skipped.map Prod.fst ↔
    (text ∈ r.failed.map Prod.fst ∨ ∀ m ∈ changedMembers db r.db, names text m.id = false)

theorem skipReason_eq_none (haction : action.Assignable) : skipReason action m = none ↔
    (∃ m', action.outcome m = .ok m') ∧ (action.target m).standing ≠ m.standing := by
  cases action with
  | setStatus status =>
      unfold skipReason BulkAction.target BulkAction.outcome
      simp only
      split_ifs with howner hstatus
      · simp
      · simp [MembershipRow.standing, hstatus]
      · simpa [MembershipRow.standing] using fun h => hstatus h.symm
  | setRole role authority assignment =>
      unfold skipReason BulkAction.target BulkAction.outcome roleChangeDeniedReason
      simp only
      cases assertRoleChangeAllowed authority m assignment with
      | error e => simp [Except.map]
      | ok _ =>
          simp only [Except.map]
          split_ifs with hsame
          · simp [MembershipRow.standing, hsame.1, hsame.2]
          · refine ⟨fun _ => ⟨⟨_, rfl⟩, fun h => hsame ?_⟩, fun _ => rfl⟩
            simp only [MembershipRow.standing, Prod.mk.injEq, true_and] at h
            exact ⟨h.1.symm, h.2.symm⟩

theorem outcome_ok_of_changes (h : (action.target m).standing ≠ m.standing) :
    ∃ m', action.outcome m = .ok m' := by
  cases houtcome : action.outcome m with
  | ok m' => exact ⟨m', rfl⟩
  | error e =>
      unfold BulkAction.target at h
      rw [houtcome] at h
      exact absurd rfl h

/-- A run changes the members that it addresses and that the action does not skip. -/
theorem mem_changedMembers (haction : action.Assignable) :
    m ∈ changedMembers db (bulkRun db actor action ids now).db ↔
      m ∈ db.memberships ∧ Addressed actor ids m = true ∧ skipReason action m = none := by
  obtain ⟨hrows, -⟩ := bulkRun_spec db actor now haction ids
  unfold changedMembers
  rw [List.mem_filter, skipReason_eq_none haction, Table.mem_def]
  refine and_congr_right fun hm => ?_
  have hfound : (bulkRun db actor action ids now).db.memberships.find? m.id =
      some (rowAfter actor action ids m) :=
    (Table.find?_map_rows hrows (fun _ => rowAfter_id) m.id).trans
      (congrArg (Option.map _) (Table.find?_key (show m ∈ db.memberships from hm)))
  rw [hfound, Option.map_some, decide_eq_true_eq, Ne, Option.some.injEq]
  unfold rowAfter
  split_ifs with haddressed
  · simp only [haddressed, true_and]
    exact ⟨fun h => ⟨outcome_ok_of_changes h, h⟩, And.right⟩
  · simp [haddressed]

theorem mem_effectiveIds (now : Instant) (haction : action.Assignable) :
    text ∈ effectiveIds db actor action ids ↔ text ∈ ids ∧
      ∃ m ∈ changedMembers db (bulkRun db actor action ids now).db, names text m.id = true := by
  unfold effectiveIds
  rw [List.mem_filter]
  refine and_congr_right fun htext => ?_
  simp only [List.any_eq_true, Bool.and_eq_true, beq_iff_eq, Option.isNone_iff_eq_none,
    mem_changedMembers haction, Addressed]
  constructor
  · rintro ⟨m, hm, ⟨htenant, hnames⟩, hskip⟩
    exact ⟨m, ⟨hm, ⟨htenant, text, htext, hnames⟩, hskip⟩, hnames⟩
  · rintro ⟨m, ⟨hm, ⟨htenant, -⟩, hskip⟩, hnames⟩
    exact ⟨m, hm, ⟨htenant, hnames⟩, hskip⟩

/-- A text whose turn succeeds or fails, read off the member it names. -/
theorem mem_failed (haction : action.Assignable) :
    text ∈ (bulkRun db actor action ids now).failed.map Prod.fst ↔
      text ∈ ids ∧ failReason db actor action text ≠ none := by
  rw [(bulkRun_spec db actor now haction ids).2]
  simp only [List.mem_map, List.mem_filterMap, Option.map_eq_some_iff]
  constructor
  · rintro ⟨_, ⟨text', htext, reason, hreason, rfl⟩, rfl⟩
    refine ⟨htext, ?_⟩
    rw [hreason]
    exact Option.some_ne_none _
  · rintro ⟨htext, hreason⟩
    obtain ⟨reason, hreason⟩ := Option.ne_none_iff_exists'.mp hreason
    exact ⟨_, ⟨text, htext, reason, hreason, rfl⟩, rfl⟩

/-- A run refuses a text, or leaves its member alone, if and only if the text is of no effect. -/
theorem left_alone_iff (haction : action.Assignable) (htext : text ∈ ids) :
    (text ∈ (bulkRun db actor action ids now).failed.map Prod.fst ∨
      ∀ m ∈ changedMembers db (bulkRun db actor action ids now).db, names text m.id = false) ↔
    text ∉ effectiveIds db actor action ids := by
  rw [mem_effectiveIds now haction, mem_failed haction]
  constructor
  · rintro (⟨-, hfailed⟩ | hnone) ⟨-, m, hm, hnames⟩
    · obtain ⟨hm, haddressed, hskip⟩ := (mem_changedMembers haction).mp hm
      obtain ⟨m', houtcome⟩ := ((skipReason_eq_none haction).mp hskip).1
      have htenant : m.tenantId = actor.tenantId := by
        unfold Addressed at haddressed
        rw [Bool.and_eq_true, beq_iff_eq] at haddressed
        exact haddressed.1
      unfold failReason at hfailed
      split at hfailed
      · rename_i hat
        unfold requireInTenant at hat
        split at hat
        · cases hat
        · rename_i hnone
          refine List.find?_eq_none.mp hnone m hm ?_
          rw [Bool.and_eq_true, beq_iff_eq]
          exact ⟨hnames, htenant⟩
      · rename_i found hat
        obtain ⟨hfound, hnames', -⟩ := requireInTenant_eq_ok hat
        have hsame : found = m := Table.eq_of_key hfound hm (names_unique hnames' hnames)
        rw [hsame, houtcome] at hfailed
        exact hfailed rfl
    · rw [hnone m hm] at hnames
      cases hnames
  · intro hnot
    refine .inr fun m hm => ?_
    cases hnames : names text m.id with
    | false => rfl
    | true => exact absurd ⟨htext, m, hm, hnames⟩ hnot

theorem eq_text_iff {id : Uuid} : text = id.text ↔ text.toList = id.chars := by
  constructor
  · intro h
    rw [h, Uuid.text, String.toList_ofList]
  · intro h
    rw [Uuid.text, ← h, String.ofList_toList]

/-- The preview finds a member only under its own text. -/
theorem previewReason_eq_none (htext : text ∈ ids) :
    previewReason (db.memberships.rows.filter fun m =>
        m.tenantId == actor.tenantId && ids.any fun id => names id m.id) action text = none ↔
      text ∈ effectiveIds db actor action ids ∧ ∃ id : Uuid, text = id.text := by
  unfold previewReason byId effectiveIds
  simp only [List.mem_filter, List.any_eq_true, Bool.and_eq_true, beq_iff_eq,
    Option.isNone_iff_eq_none]
  constructor
  · intro h
    split at h
    · cases h
    · rename_i m hfound
      obtain ⟨hm, hin⟩ := List.mem_filter.mp (List.mem_of_find?_eq_some hfound)
      have hchars := List.find?_some hfound
      have hchars := (beq_iff_eq.mp hchars).symm
      rw [Bool.and_eq_true, beq_iff_eq] at hin
      exact ⟨⟨htext, m, hm, ⟨hin.1, names_of_toList_eq hchars⟩, h⟩, m.id, eq_text_iff.mpr hchars⟩
  · rintro ⟨⟨-, m, hm, ⟨htenant, hnames⟩, hskip⟩, id, hid⟩
    have hchars := eq_text_iff.mp hid
    have hsame : id = m.id := names_unique (names_of_toList_eq hchars) hnames
    rw [hsame] at hchars
    have hin : m ∈ db.memberships.rows.filter fun m =>
        m.tenantId == actor.tenantId && ids.any fun id => names id m.id := by
      rw [List.mem_filter, Bool.and_eq_true, beq_iff_eq]
      exact ⟨hm, htenant, List.any_eq_true.mpr ⟨text, htext, hnames⟩⟩
    split
    · rename_i hnone
      exact absurd (beq_iff_eq.mpr hchars.symm) (List.find?_eq_none.mp hnone m hin)
    · rename_i m' hfound
      obtain ⟨hm', -⟩ := List.mem_filter.mp (List.mem_of_find?_eq_some hfound)
      have hchars' := List.find?_some hfound
      have hchars' := beq_iff_eq.mp hchars'
      have heq : m' = m := Table.eq_of_key (show m' ∈ db.memberships from hm') hm
        (Uuid.chars_inj (hchars'.trans hchars))
      rw [heq]
      exact hskip

/-- The members that change, each under the text of its identifier. -/
theorem mem_changed_texts (haction : action.Assignable)
    (hwritten : ∀ text ∈ effectiveIds db actor action ids, ∃ id : Uuid, text = id.text) :
    text ∈ (changedMembers db (bulkRun db actor action ids now).db).map (fun m => m.id.text) ↔
      text ∈ effectiveIds db actor action ids := by
  rw [mem_effectiveIds now haction, List.mem_map]
  constructor
  · rintro ⟨m, hm, rfl⟩
    have haddressed := ((mem_changedMembers haction).mp hm).2.1
    unfold Addressed at haddressed
    rw [Bool.and_eq_true, List.any_eq_true] at haddressed
    obtain ⟨-, text, htext, hnames⟩ := haddressed
    have heffective := (mem_effectiveIds now haction).mpr ⟨htext, m, hm, hnames⟩
    obtain ⟨id, hid⟩ := hwritten text heffective
    have hsame : id = m.id :=
      names_unique (names_of_toList_eq (eq_text_iff.mp hid)) hnames
    rw [hsame] at hid
    rw [← hid]
    exact ⟨htext, m, hm, hnames⟩
  · rintro ⟨htext, m, hm, hnames⟩
    obtain ⟨id, hid⟩ := hwritten text
      ((mem_effectiveIds now haction).mpr ⟨htext, m, hm, hnames⟩)
    have hsame : id = m.id :=
      names_unique (names_of_toList_eq (eq_text_iff.mp hid)) hnames
    rw [hsame] at hid
    exact ⟨m, hm, hid.symm⟩

/-- With distinct texts for the members that change there are as many of both. -/
theorem length_effectiveIds_iff (now : Instant) (haction : action.Assignable)
    (hwritten : ∀ text ∈ effectiveIds db actor action ids, ∃ id : Uuid, text = id.text) :
    (effectiveIds db actor action ids).length =
        (changedMembers db (bulkRun db actor action ids now).db).length ↔
      (effectiveIds db actor action ids).Nodup := by
  have hmem : ∀ text, text ∈ (changedMembers db (bulkRun db actor action ids now).db).map
      (fun m => m.id.text) ↔ text ∈ effectiveIds db actor action ids :=
    fun text => mem_changed_texts haction hwritten
  have hnodup : ((changedMembers db (bulkRun db actor action ids now).db).map
      fun m => m.id.text).Nodup := by
    refine (db.memberships.rows_nodup.filter _).map_on fun a ha b hb htext => ?_
    exact Table.eq_of_key (show a ∈ db.memberships from List.mem_of_mem_filter ha)
      (List.mem_of_mem_filter hb) (Uuid.text_inj htext)
  have htexts : ((changedMembers db (bulkRun db actor action ids now).db).map
      fun m => m.id.text).length =
      (changedMembers db (bulkRun db actor action ids now).db).length := List.length_map _
  rw [← htexts]
  constructor
  · intro hlength
    have hperm := (hnodup.subperm fun text ht => (hmem text).mp ht).perm_of_length_le
      (le_of_eq hlength)
    exact hperm.nodup_iff.mp hnodup
  · intro heffective
    exact (((List.perm_ext_iff_of_nodup hnodup heffective).mpr hmem).length_eq).symm

theorem mem_skipped (htext : text ∈ ids) :
    text ∈ (bulkPreview db actor action ids).skipped.map Prod.fst ↔
      ¬(text ∈ effectiveIds db actor action ids ∧ ∃ id : Uuid, text = id.text) := by
  rw [← previewReason_eq_none htext]
  unfold bulkPreview
  simp only [List.mem_map, List.mem_filterMap, Option.map_eq_some_iff]
  constructor
  · rintro ⟨_, ⟨text', -, reason, hreason, rfl⟩, rfl⟩ hnone
    rw [hnone] at hreason
    cases hreason
  · intro hreason
    obtain ⟨reason, hreason⟩ := Option.ne_none_iff_exists'.mp hreason
    exact ⟨_, ⟨text, htext, reason, hreason, rfl⟩, rfl⟩

theorem willChange_eq_length
    (hwritten : ∀ text ∈ effectiveIds db actor action ids, ∃ id : Uuid, text = id.text) :
    (bulkPreview db actor action ids).willChange = (effectiveIds db actor action ids).length := by
  have hcount : (bulkPreview db actor action ids).willChange =
      ids.countP fun id => (previewReason (db.memberships.rows.filter fun m =>
        m.tenantId == actor.tenantId && ids.any fun id => names id m.id) action id).isNone := rfl
  rw [hcount, List.countP_eq_length_filter]
  refine congrArg List.length (List.filter_congr fun text htext => Bool.eq_iff_iff.mpr ?_)
  rw [Option.isNone_iff_eq_none, previewReason_eq_none htext]
  constructor
  · exact fun h => (List.mem_filter.mp h.1).2
  · intro h
    have heffective : text ∈ effectiveIds db actor action ids := List.mem_filter.mpr ⟨htext, h⟩
    exact ⟨heffective, hwritten text heffective⟩

/-- The preview of a request is right if and only if each text whose member changes is written
as the database writes it and stands once. -/
theorem bulkPreview_predicts_iff (haction : action.Assignable) :
    BulkPredicted db ids (bulkPreview db actor action ids) (bulkRun db actor action ids now) ↔
      EachOnceAsWritten db actor action ids := by
  constructor
  · intro h
    have hwritten : ∀ text ∈ effectiveIds db actor action ids, ∃ id : Uuid, text = id.text := by
      intro text heffective
      have htext := List.mem_of_mem_filter heffective
      by_contra hnot
      have hskipped : text ∈ (bulkPreview db actor action ids).skipped.map Prod.fst :=
        (mem_skipped htext).mpr fun hboth => hnot hboth.2
      exact (left_alone_iff haction htext).mp ((h.skipped text htext).mp hskipped) heffective
    refine ⟨(length_effectiveIds_iff now haction hwritten).mp ?_, hwritten⟩
    rw [← willChange_eq_length hwritten]
    exact h.willChange
  · rintro ⟨hnodup, hwritten⟩
    refine ⟨?_, fun text htext => ?_⟩
    · rw [willChange_eq_length hwritten]
      exact (length_effectiveIds_iff now haction hwritten).mpr hnodup
    · rw [mem_skipped htext, left_alone_iff haction htext]
      exact not_congr ⟨And.left, fun h => ⟨h, hwritten text h⟩⟩

end Predicted

/-! ## Result -/

/-- For every request that is admitted: the preview predicts the run if and only if each text
whose member changes is written as the database writes it and stands once; and a refused text
changes nothing for the others. -/
theorem previewBulk_predicts_iff (db : MembersDb) (actor : ActorContext) (input : BulkInput)
    (actorMembershipId : Option Uuid) (now : Instant) {preview : BulkPreview} {r : BulkRun}
    {action : BulkAction} (hprepared : prepareBulk db actor input actorMembershipId = .ok action)
    (hpreview : previewBulk db actor input actorMembershipId = .ok preview)
    (hrun : executeBulk db actor input actorMembershipId now = .ok r) :
    (BulkPredicted db input.ids preview r ↔ EachOnceAsWritten db actor action input.ids) ∧
      ∀ before text after e, input.ids = before ++ text :: after →
        action.apply (bulkRun db actor action before now).db actor text now = .error e →
        ∃ r', executeBulk db actor { input with ids := before ++ after } actorMembershipId now =
            .ok r' ∧ r.db = r'.db ∧ r.succeeded = r'.succeeded ∧
          ∃ earlier later, r'.failed = earlier ++ later ∧
            r.failed = earlier ++ (text, e.message) :: later := by
  unfold previewBulk at hpreview
  unfold executeBulk at hrun
  rw [hprepared] at hpreview hrun
  cases hpreview
  cases hrun
  refine ⟨bulkPreview_predicts_iff (prepareBulk_assignable hprepared), ?_⟩
  intro before text after e hids hrefused
  refine ⟨bulkRun db actor action (before ++ after) now, ?_, ?_⟩
  · unfold executeBulk
    have hsame : prepareBulk db actor { input with ids := before ++ after } actorMembershipId =
        .ok action := hprepared
    rw [hsame]
    rfl
  · rw [hids]
    obtain ⟨hdb, hsucceeded, later, hfailed', hfailed⟩ := bulkRun_refused after hrefused
    exact ⟨hdb, hsucceeded, _, later, hfailed', hfailed⟩

namespace BulkDemo

/-- An owner and a member of one business. -/
def members : MembersDb where
  memberships := ⟨[⟨1, 7, 20, .tenantOwner, none, none, "OWNER", "1", 0, .active, true, 0⟩,
    ⟨2, 7, 21, .member, none, some 1, "MEMBER", "1.2", 1, .active, false, 0⟩], by decide,
    by decide⟩
  roles := .empty
  apiKeys := .empty
  platformAdmins := []
  payouts := []
  auditLogs := []

def owner : ActorContext := ⟨20, 7⟩

/-- Deactivate the members with these texts. -/
def deactivating (ids : List String) : BulkInput := ⟨.deactivate, ids, none⟩

def ownerText : String := "00000000-0000-0000-0000-000000000001"

def memberText : String := "00000000-0000-0000-0000-000000000002"

end BulkDemo

/-- A text that stands twice is counted twice and changes one member. -/
theorem not_bulkPredicted :
    ¬ ∀ (db : MembersDb) (actor : ActorContext) (input : BulkInput)
        (actorMembershipId : Option Uuid) (now : Instant) (preview : BulkPreview) (r : BulkRun),
      previewBulk db actor input actorMembershipId = .ok preview →
      executeBulk db actor input actorMembershipId now = .ok r →
      BulkPredicted db input.ids preview r := by
  intro hall
  have hpredicted := hall BulkDemo.members BulkDemo.owner
    (BulkDemo.deactivating [BulkDemo.memberText, BulkDemo.memberText]) (some 1) 0 _ _ rfl rfl
  have hcount := hpredicted.willChange
  revert hcount
  decide

/-- The owner and a member: the owner is skipped and refused, the member changes. -/
theorem previewBulk_predicts_owner_refused :
    (bulkPreview BulkDemo.members BulkDemo.owner (.setStatus .inactive)
        [BulkDemo.ownerText, BulkDemo.memberText]).willChange = 1 ∧
      BulkPredicted BulkDemo.members [BulkDemo.ownerText, BulkDemo.memberText]
        (bulkPreview BulkDemo.members BulkDemo.owner (.setStatus .inactive)
          [BulkDemo.ownerText, BulkDemo.memberText])
        (bulkRun BulkDemo.members BulkDemo.owner (.setStatus .inactive)
          [BulkDemo.ownerText, BulkDemo.memberText] 0) := by
  have hpredicts := (previewBulk_predicts_iff BulkDemo.members BulkDemo.owner
    (BulkDemo.deactivating [BulkDemo.ownerText, BulkDemo.memberText]) (some 1) 0 rfl rfl rfl).1
  have heffective : effectiveIds BulkDemo.members BulkDemo.owner (.setStatus .inactive)
      [BulkDemo.ownerText, BulkDemo.memberText] = [BulkDemo.memberText] := by
    decide
  refine ⟨by decide, hpredicts.mpr ⟨?_, ?_⟩⟩
  · exact heffective ▸ List.nodup_singleton _
  · intro text htext
    have hmember : text = BulkDemo.memberText :=
      List.mem_singleton.mp (heffective ▸ htext)
    exact ⟨2, hmember.trans (by decide)⟩

end Refearn.Memberships
