import Refearn.Memberships.Proofs.Administration
import Refearn.Rbac.Roles
/-!
# What the operations on roles write

One lemma for each operation: what it does to the roles, and that every member afterwards stands
as one did before or within what the actor may grant.
-/

namespace Refearn.Rbac

open Support Support.Transaction Memberships
open Auth (Role defaultPermissionsForTier)

/-! ## Permissions of a standing -/

section Standing

variable {db db' : RbacDb} {m m' : MembershipRow} {p : String}

theorem permissionsFor_congr (hrole : m'.role = m.role)
    (hlist : roleRefPermissions db' m' = roleRefPermissions db m) :
    permissionsFor db' m' = permissionsFor db m := by
  unfold permissionsFor
  rw [hrole, hlist]

theorem roleRefPermissions_of_roles (hroles : db'.roles = db.roles) (hid : m'.roleId = m.roleId) :
    roleRefPermissions db' m' = roleRefPermissions db m := by
  unfold roleRefPermissions
  rw [hroles, hid]

/-- Tiers that have all permissions, whatever their role. -/
def Unrestricted (role : Role) : Prop := role = .tenantOwner ∨ role = .platformAdmin

instance decidableUnrestricted (role : Role) : Decidable (Unrestricted role) :=
  inferInstanceAs (Decidable (role = .tenantOwner ∨ role = .platformAdmin))

theorem permissionsFor_unrestricted (hrole : m'.role = m.role) (h : Unrestricted m.role) :
    permissionsFor db' m' = permissionsFor db m := by
  unfold permissionsFor
  rw [hrole]
  rcases h with h | h <;> rw [h]

theorem permissionsFor_member (h : m.role = .member) : permissionsFor db m = [] := by
  unfold permissionsFor
  rw [h]
  rfl

theorem permissionsFor_eq : permissionsFor db m =
    if Auth.roleRefControls m.role then
      (roleRefPermissions db m).getD (defaultPermissionsForTier m.role)
    else defaultPermissionsForTier m.role := by
  unfold permissionsFor
  cases m.role <;> rfl

/-- A permission is one of the tier or one of the role. -/
theorem mem_permissionsFor (hp : p ∈ permissionsFor db m) :
    p ∈ defaultPermissionsForTier m.role ++ (roleRefPermissions db m).getD [] := by
  rw [permissionsFor_eq] at hp
  split_ifs at hp
  · cases hlist : roleRefPermissions db m with
    | none =>
        rw [hlist] at hp
        exact List.mem_append_left _ hp
    | some list =>
        rw [hlist] at hp
        exact List.mem_append_right _ hp
  · exact List.mem_append_left _ hp

end Standing

/-! ## What the checks leave -/

/-- A member that an operation leaves: its role is one of its tenant, and it has no permission but
those of the member it was before, in the same tier, and those that the actor may grant. -/
structure Within (db : RbacDb) (permissions : List String) (m' : MembershipRow) : Prop where
  linked : ∀ id, m'.roleId = some id → ∃ r, db.roles.find? id = some r ∧ r.tenantId = m'.tenantId
  within : ∀ p ∈ permissionsFor db m', p ∈ permissions ∨
    ∃ m ∈ db.tree.memberships, m.id = m'.id ∧ m.tenantId = m'.tenantId ∧ m.role = m'.role ∧
      p ∈ permissionsFor db m

/-- Every role that a member refers to exists in its tenant, and so does the tenant of every
role. -/
structure Linked (db : RbacDb) : Prop where
  roleIds : ∀ m ∈ db.tree.memberships, ∀ id, m.roleId = some id →
    ∃ r, db.roles.find? id = some r ∧ r.tenantId = m.tenantId
  tenants : ∀ r ∈ db.roles, r.tenantId ∈ db.tenants.map TenantRow.id

section Checks

variable {db db' : RbacDb} {actor : ActorContext} {actorPerms permissions requested : List String}
  {m m' : MembershipRow} {id tenantId : Uuid} {u : Unit}

theorem Within.of_same (h : Linked db) (hm : m ∈ db.tree.memberships) (hid : m'.id = m.id)
    (htenant : m'.tenantId = m.tenantId) (hrole : m'.role = m.role)
    (hroleId : m'.roleId = m.roleId) : Within db permissions m' where
  linked id hsome := htenant ▸ h.roleIds m hm id (hroleId.symm.trans hsome)
  within p hp := by
    rw [permissionsFor_congr hrole (roleRefPermissions_of_roles rfl hroleId)] at hp
    exact .inr ⟨m, hm, hid.symm, htenant.symm, hrole.symm, hp⟩

theorem Within.self (h : Linked db) (hm : m ∈ db.tree.memberships) : Within db permissions m :=
  .of_same h hm rfl rfl rfl rfl

theorem bind_eq_ok {α β : Type} {x : Except RbacError α} {f : α → Except RbacError β} {b : β} :
    (x >>= f) = .ok b ↔ ∃ a, x = .ok a ∧ f a = .ok b := by
  cases x with
  | error e =>
      refine iff_of_false (fun h => by cases h) ?_
      rintro ⟨a, h, -⟩
      cases h
  | ok a => simp [bind, Except.bind]

theorem assertGrantable_eq_ok :
    assertGrantable actorPerms requested = .ok u ↔ ∀ p ∈ requested, p ∈ actorPerms := by
  unfold assertGrantable
  dsimp only
  split_ifs with h
  · refine iff_of_true rfl fun p hp => ?_
    have hnone := List.filter_eq_nil_iff.mp h p hp
    rwa [decide_eq_true_eq, Classical.not_not] at hnone
  · refine iff_of_false (fun heq => by cases heq) fun hall => h ?_
    refine List.filter_eq_nil_iff.mpr fun p hp => ?_
    rw [decide_eq_true_eq, Classical.not_not]
    exact hall p hp

theorem findRole_eq_some {r : TenantRoleRow} : findRole db tenantId id = some r ↔
    db.roles.find? id = some r ∧ r.tenantId = tenantId := by
  unfold findRole
  rw [Option.filter_eq_some_iff, beq_iff_eq]

theorem roleByKey_eq_some {roleKey : String} {r : TenantRoleRow}
    (h : roleByKey db tenantId roleKey = some r) :
    r ∈ db.roles ∧ r.tenantId = tenantId ∧ r.roleKey = roleKey := by
  have hp := List.find?_some h
  rw [Bool.and_eq_true, beq_iff_eq, beq_iff_eq] at hp
  exact ⟨List.mem_of_find?_eq_some h, hp⟩

theorem find?_of_roleByKey {roleKey : String} {r : TenantRoleRow}
    (h : roleByKey db tenantId roleKey = some r) : db.roles.find? r.id = some r :=
  Table.find?_key (roleByKey_eq_some h).1

end Checks

/-! ## Operations on roles -/

section Roles

variable {t : CaseTable} {db db' : RbacDb} {actor : ActorContext} {actorPerms : List String}
  {id roleId : Uuid}

theorem createRole_eq_ok {input : CreateRoleInput} :
    createRole t db actor input actorPerms id = .ok db' ↔
      (∀ p ∈ input.permissions, p ∈ actorPerms) ∧ actor.tenantId ∈ db.tenants.map TenantRow.id ∧
        ∃ roleKey roles, uniqueKey t db actor.tenantId input.name = some roleKey ∧
          db.roles.insert? (input.row actor.tenantId id roleKey) = some roles ∧
          db' = { db with
            roles
            auditLogs := db.auditLogs ++ [auditEntry actor "role.create" id
              [("name", .str input.name),
                ("permissions", permissionsJson input.permissions)]] } := by
  unfold createRole
  rw [bind_eq_ok]
  constructor
  · rintro ⟨u, hgrant, h⟩
    refine ⟨assertGrantable_eq_ok.mp hgrant, ?_⟩
    split at h
    · cases h
    · next roleKey hkey =>
        split_ifs at h with htenant
        split at h
        · cases h
        · next roles hinsert =>
            cases h
            exact ⟨htenant, roleKey, roles, hkey, hinsert, rfl⟩
  · rintro ⟨hgrant, htenant, roleKey, roles, hkey, hinsert, rfl⟩
    refine ⟨⟨⟩, assertGrantable_eq_ok.mpr hgrant, ?_⟩
    simp only [hkey, htenant, not_true_eq_false, if_false, hinsert]
    rfl

theorem updateRole_eq_ok {input : UpdateRoleInput} :
    updateRole db actor roleId input actorPerms = .ok db' ↔
      (∀ p ∈ input.permissions.getD [], p ∈ actorPerms) ∧
        ∃ r, findRole db actor.tenantId roleId = some r ∧
          ¬(r.isSystem = true ∧ r.roleKey = "owner") ∧
          db' = { db with
            roles := db.roles.updateKey roleId input.apply input.keepsIndexes
            auditLogs := db.auditLogs ++ [auditEntry actor "role.update" roleId
              [("name", .str (input.apply r).name),
                ("permissions", permissionsJson (input.apply r).permissions)]] } := by
  unfold updateRole
  rw [bind_eq_ok]
  constructor
  · rintro ⟨u, hgrant, h⟩
    refine ⟨assertGrantable_eq_ok.mp hgrant, ?_⟩
    split at h
    · cases h
    · next r hfind =>
        split_ifs at h with howner
        cases h
        exact ⟨r, hfind, howner, rfl⟩
  · rintro ⟨hgrant, r, hfind, howner, rfl⟩
    refine ⟨⟨⟩, assertGrantable_eq_ok.mpr hgrant, ?_⟩
    simp only [hfind, howner, if_false]
    rfl

theorem deleteRole_eq_ok : deleteRole db actor roleId = .ok db' →
    ∃ r, findRole db actor.tenantId roleId = some r ∧ r.isSystem = false ∧
      db'.tenants = db.tenants ∧ db'.roles = db.roles.filter (fun r => r.id != roleId) ∧
      (∀ m ∈ db.tree.memberships, m.roleId ≠ some roleId) ∧
      db'.tree.memberships.rows = db.tree.memberships.rows := by
  intro h
  unfold deleteRole at h
  cases hfind : findRole db actor.tenantId roleId with
  | none =>
      rw [hfind] at h
      cases h
  | some r =>
      rw [hfind] at h
      simp only at h
      split_ifs at h with hsystem hassigned
      have hnone : ∀ m ∈ db.tree.memberships, m.roleId ≠ some roleId := by
        intro m hm heq
        exact hassigned (List.any_eq_true.mpr ⟨m, hm, beq_iff_eq.mpr heq⟩)
      refine ⟨r, rfl, Bool.eq_false_iff.mpr hsystem, ?_, ?_, hnone, ?_⟩
      · cases h
        rfl
      · cases h
        rfl
      · cases h
        refine (List.map_congr_left fun m hm => ?_).trans (List.map_id _)
        exact if_neg fun heq => hnone m hm (beq_iff_eq.mp heq)

end Roles

/-! ## Assigning roles -/

section Assign

variable {db db' : RbacDb} {actor : ActorContext} {actorPerms : List String} {m m' : MembershipRow}
  {input : AssignRoleInput} {tenantId membershipId : Uuid} {actorMembershipId : Option Uuid}
  {u : Unit}

def AssignRoleInput.nextTier (input : AssignRoleInput) (m : MembershipRow) : Role :=
  (input.tier.map AssignableTier.role).getD m.role

/-- The row that an assignment writes. -/
def assigned (db : RbacDb) (tenantId : Uuid) (input : AssignRoleInput) (m : MembershipRow) :
    MembershipRow :=
  { m with
    role := input.nextTier m
    roleId := (nextRoleId db tenantId (input.nextTier m) input).getD m.roleId }

theorem assertAssignment_eq_ok (h : assertAssignment db actor m input actorPerms = .ok u) :
    (∀ id, input.roleId = some (some id) → ∃ r, findRole db actor.tenantId id = some r) ∧
      (input.tier.isSome ∨ input.roleId.isSome →
        ∃ effective, effectiveAssignmentPermissions db actor.tenantId (input.nextTier m)
            (nextRoleId db actor.tenantId (input.nextTier m) input) (roleRefPermissions db m) =
              .ok effective ∧
          ∀ p ∈ effective, p ∈ actorPerms) := by
  unfold assertAssignment at h
  rw [bind_eq_ok] at h
  obtain ⟨_, -, h⟩ := h
  rw [bind_eq_ok] at h
  obtain ⟨_, hrequested, h⟩ := h
  rw [bind_eq_ok] at h
  obtain ⟨_, -, h⟩ := h
  refine ⟨fun id hid => ?_, fun hsome => ?_⟩
  · unfold assertRequestedRole at hrequested
    rw [hid, Option.join_some] at hrequested
    split at hrequested
    · next hnone => cases hnone
    · next id' hsome =>
        cases hsome
        split at hrequested
        · cases hrequested
        · next r hfind => exact ⟨r, hfind⟩
  · rw [if_pos hsome, bind_eq_ok] at h
    obtain ⟨effective, heffective, hgrant⟩ := h
    exact ⟨effective, heffective, assertGrantable_eq_ok.mp hgrant⟩

/-- The list that was checked holds the permissions of the tier and those of the next role. -/
theorem effectiveAssignmentPermissions_eq_ok {tier : Role} {roleId : Option (Option Uuid)}
    {effective : List String} (htier : tier ≠ .member)
    (h : effectiveAssignmentPermissions db tenantId tier roleId (roleRefPermissions db m) =
      .ok effective) (hrole : m'.role = tier) (hroleId : m'.roleId = roleId.getD m.roleId) :
    ∀ p ∈ permissionsFor db m', p ∈ effective := by
  unfold effectiveAssignmentPermissions at h
  rw [if_neg htier] at h
  intro p hp
  have hmem := mem_permissionsFor hp
  rw [hrole] at hmem
  have hlist : effective = (defaultPermissionsForTier tier ++
      (roleRefPermissions db m').getD []).eraseDups := by
    cases roleId with
    | none =>
        cases h
        rw [roleRefPermissions_of_roles rfl hroleId]
    | some roleId =>
        cases roleId with
        | none =>
            cases h
            unfold roleRefPermissions
            rw [hroleId]
            rfl
        | some id =>
            simp only at h
            split at h
            · cases h
            · next r hfind =>
                cases h
                unfold roleRefPermissions
                rw [hroleId, Option.getD_some, Option.bind_some,
                  (findRole_eq_some.mp hfind).1]
                rfl
  rw [hlist]
  exact List.mem_eraseDups.mpr hmem

theorem nextRoleId_linked (h : Linked db) (hm : m ∈ db.tree.memberships)
    (htenant : m.tenantId = tenantId) {tier : Role}
    (hrequested : ∀ id, input.roleId = some (some id) → ∃ r, findRole db tenantId id = some r)
    {id : Uuid} (hid : (nextRoleId db tenantId tier input).getD m.roleId = some id) :
    ∃ r, db.roles.find? id = some r ∧ r.tenantId = m.tenantId := by
  have hrole : ∀ id, input.roleId = some (some id) →
      ∃ r, db.roles.find? id = some r ∧ r.tenantId = m.tenantId := by
    intro id hid
    obtain ⟨r, hr⟩ := hrequested id hid
    obtain ⟨hfind, hrole⟩ := findRole_eq_some.mp hr
    exact ⟨r, hfind, hrole.trans htenant.symm⟩
  unfold nextRoleId at hid
  split_ifs at hid
  · cases hid
  · split at hid
    · next roleKey _ =>
        cases hfind : roleByKey db tenantId roleKey with
        | none =>
            rw [hfind] at hid
            cases hid
        | some r =>
            rw [hfind] at hid
            cases hid
            exact ⟨r, find?_of_roleByKey hfind,
              (roleByKey_eq_some hfind).2.1.trans htenant.symm⟩
    · exact h.roleIds m hm id hid
  · cases hinput : input.roleId with
    | none =>
        rw [hinput] at hid
        exact h.roleIds m hm id hid
    | some roleId =>
        rw [hinput] at hid
        exact hrole id (hinput.trans (congrArg some hid))

/-- A member is in the tier it was in, or one below the owner has been given one below the owner. -/
def Retiered (m m' : MembershipRow) : Prop :=
  m.role = m'.role ∨ m.role ≠ .tenantOwner ∧ m'.role ∈ ASSIGNABLE_ROLES

theorem retiered_assigned (howner : m.role ≠ .tenantOwner) :
    Retiered m (assigned db tenantId input m) := by
  cases htier : input.tier with
  | none =>
      refine .inl ?_
      change m.role = (input.tier.map AssignableTier.role).getD m.role
      rw [htier]
      rfl
  | some tier =>
      refine .inr ⟨howner, ?_⟩
      change (input.tier.map AssignableTier.role).getD m.role ∈ ASSIGNABLE_ROLES
      rw [htier, Option.map_some, Option.getD_some]
      cases tier <;> decide

theorem within_assigned (h : Linked db) (hm : m ∈ db.tree.memberships)
    (htenant : m.tenantId = actor.tenantId)
    (hassert : assertAssignment db actor m input actorPerms = .ok u) :
    Within db actorPerms (assigned db actor.tenantId input m) := by
  obtain ⟨hrequested, heffective⟩ := assertAssignment_eq_ok hassert
  refine ⟨fun id hid => nextRoleId_linked h hm htenant hrequested hid, fun p hp => ?_⟩
  by_cases hmember : input.nextTier m = .member
  · rw [permissionsFor_member hmember] at hp
    cases hp
  · by_cases hsome : input.tier.isSome ∨ input.roleId.isSome
    · obtain ⟨effective, hok, hgrant⟩ := heffective hsome
      exact .inl (hgrant p (effectiveAssignmentPermissions_eq_ok hmember hok rfl rfl p hp))
    · -- nothing is asked for, so nothing changes
      rw [not_or, Option.not_isSome_iff_eq_none, Option.not_isSome_iff_eq_none] at hsome
      have hrole : input.nextTier m = m.role := by
        unfold AssignRoleInput.nextTier
        rw [hsome.1]
        rfl
      have hroleId : (assigned db actor.tenantId input m).roleId = m.roleId := by
        unfold assigned nextRoleId
        rw [if_neg hmember, if_neg (by rw [hsome.1]; exact fun h => Bool.false_ne_true h.1),
          hsome.2]
        rfl
      have hsame : Within db actorPerms (assigned db actor.tenantId input m) :=
        .of_same h hm rfl rfl hrole hroleId
      exact hsame.within p hp

theorem assignRole_eq_ok
    (h : assignRole db actor membershipId input actorPerms actorMembershipId = .ok db') :
    ∃ m ∈ db.tree.memberships, m.tenantId = actor.tenantId ∧
      assertAssignment db actor m input actorPerms = .ok ⟨⟩ ∧ m.role ≠ .tenantOwner ∧ db'.tenants = db.tenants ∧ db'.roles = db.roles ∧
      db'.tree.memberships.rows = db.tree.memberships.rows.map fun r =>
        if r.id = m.id then assigned db actor.tenantId input m else r := by
  unfold assignRole at h
  split_ifs at h
  split at h
  · cases h
  · next m hfind =>
      split_ifs at h with howner
      rw [bind_eq_ok] at h
      obtain ⟨⟨⟩, hassert, h⟩ := h
      obtain ⟨hm, htenant⟩ := Option.filter_eq_some_iff.mp hfind
      obtain ⟨hmem, rfl⟩ := Table.find?_eq_some.mp hm
      cases h
      have hmem' : m ∈ db.members.memberships := hmem
      exact ⟨m, hmem, beq_iff_eq.mp htenant, hassert, howner, rfl, rfl, rows_updateMember hmem' _⟩

end Assign

/-! ## The administration of members -/

section Members

variable {db db' : RbacDb} {actor : ActorContext} {m m' : MembershipRow} {tenantId : Uuid}
  {role : Role} {authority : RoleChangeAuthority} {actorMembershipId : Option Uuid}
  {now : Instant}

theorem mapError_eq_ok {α ε ε' : Type} {x : Except ε α} {f : ε → ε'} {a : α} :
    x.mapError f = .ok a ↔ x = .ok a := by
  cases x <;> simp [Except.mapError]

theorem members_bind_eq_ok {α β : Type} {x : Except MembersError α}
    {f : α → Except MembersError β} {b : β} :
    (x >>= f) = .ok b ↔ ∃ a, x = .ok a ∧ f a = .ok b := by
  cases x with
  | error e =>
      refine iff_of_false (fun h => by cases h) ?_
      rintro ⟨a, h, -⟩
      cases h
  | ok a => simp [bind, Except.bind]

theorem tierRoleAssignmentFor_members {roleKey : String} (hmember : role ≠ .member)
    (hkey : tierToSystemRole role = some roleKey) :
    tierRoleAssignmentFor db.members tenantId role =
      ⟨(roleByKey db tenantId roleKey).map TenantRoleRow.id,
        (defaultPermissionsForTier role ++
          ((roleByKey db tenantId roleKey).map TenantRoleRow.permissions).getD []).eraseDups⟩ := by
  have hfind : (db.members.roles.rows.find? fun r =>
      r.tenantId == tenantId && r.roleKey == roleKey) =
      (roleByKey db tenantId roleKey).map TenantRoleRow.roleRow :=
    List.find?_map ..
  unfold tierRoleAssignmentFor
  rw [if_neg hmember, hkey]
  dsimp only
  rw [hfind, Option.map_map, Option.map_map]
  rfl

theorem exists_tierToSystemRole (hrole : role ∈ ASSIGNABLE_ROLES) (hmember : role ≠ .member) :
    ∃ roleKey, tierToSystemRole role = some roleKey := by
  cases role with
  | tenantAdmin => exact ⟨_, rfl⟩
  | tenantStaff => exact ⟨_, rfl⟩
  | tenantOwner => exact ⟨_, rfl⟩
  | member => exact absurd rfl hmember
  | platformAdmin => exact absurd hrole (by decide)

/-- The assignment of a tier refers to an existing role and lists all that it gives. -/
theorem assignment_covers (m' : MembershipRow) (hrole : role ∈ ASSIGNABLE_ROLES)
    (hm' : m'.role = role) (htenant : m'.tenantId = tenantId)
    (hroleId : m'.roleId = (tierRoleAssignmentFor db.members tenantId role).roleId) :
    (∀ id, m'.roleId = some id → ∃ r, db.roles.find? id = some r ∧ r.tenantId = m'.tenantId) ∧
      ∀ p ∈ permissionsFor db m',
        p ∈ (tierRoleAssignmentFor db.members tenantId role).permissions := by
  by_cases hmember : role = .member
  · subst hmember
    refine ⟨fun id hid => ?_, fun p hp => ?_⟩
    · rw [hroleId] at hid
      cases hid
    · rw [permissionsFor_member hm'] at hp
      cases hp
  · obtain ⟨roleKey, hkey⟩ := exists_tierToSystemRole hrole hmember
    rw [tierRoleAssignmentFor_members hmember hkey] at hroleId ⊢
    cases hfind : roleByKey db tenantId roleKey with
    | none =>
        rw [hfind] at hroleId
        refine ⟨fun id hid => ?_, fun p hp => ?_⟩
        · rw [hroleId] at hid
          cases hid
        · have hmem := mem_permissionsFor hp
          unfold roleRefPermissions at hmem
          rw [hm', hroleId] at hmem
          exact List.mem_eraseDups.mpr hmem
    | some r =>
        rw [hfind] at hroleId
        have hr := find?_of_roleByKey hfind
        refine ⟨fun id hid => ?_, fun p hp => ?_⟩
        · rw [hroleId] at hid
          cases hid
          exact ⟨r, hr, (roleByKey_eq_some hfind).2.1.trans htenant.symm⟩
        · have hmem := mem_permissionsFor hp
          unfold roleRefPermissions at hmem
          rw [hm', hroleId, Option.map_some, Option.bind_some, hr] at hmem
          exact List.mem_eraseDups.mpr hmem

theorem assertRoleGrantable_eq_ok {requested : List String} {u : Unit}
    (h : assertRoleGrantable authority requested = .ok u) :
    ∀ p ∈ requested, p ∈ authority.permissions := by
  unfold assertRoleGrantable at h
  dsimp only at h
  split_ifs at h with hnone
  intro p hp
  have hmem := List.filter_eq_nil_iff.mp hnone p hp
  rwa [decide_eq_true_eq, Classical.not_not] at hmem

/-- What an action lets its actor grant. -/
def granted : BulkAction → List String
  | .setStatus _ => []
  | .setRole _ authority _ => authority.permissions

/-- An action whose assignment is the one of its tier. -/
def Prepared (db : RbacDb) (tenantId : Uuid) : BulkAction → Prop
  | .setStatus _ => True
  | .setRole role _ assignment =>
      role ∈ ASSIGNABLE_ROLES ∧ assignment = tierRoleAssignmentFor db.members tenantId role

theorem within_outcome (h : Linked db) (hm : m ∈ db.tree.memberships)
    (htenant : m.tenantId = tenantId) {action : BulkAction} (haction : Prepared db tenantId action) (houtcome : action.outcome m = .ok m') :
    Within db (granted action) m' ∧ Retiered m m' := by
  cases action with
  | setStatus status =>
      unfold BulkAction.outcome at houtcome
      simp only at houtcome
      split_ifs at houtcome
      cases houtcome
      exact ⟨.of_same h hm rfl rfl rfl rfl, .inl rfl⟩
  | setRole role authority assignment =>
      obtain ⟨hrole, hassignment⟩ := haction
      unfold BulkAction.outcome at houtcome
      simp only at houtcome
      cases hallowed : assertRoleChangeAllowed authority m assignment with
      | error e =>
          rw [hallowed] at houtcome
          cases houtcome
      | ok u =>
          rw [hallowed] at houtcome
          cases houtcome
          unfold assertRoleChangeAllowed at hallowed
          split_ifs at hallowed with hself howner
          rw [hassignment] at hallowed
          have hcovers := assignment_covers { m with role, roleId := assignment.roleId } hrole rfl
            htenant (congrArg TierRoleAssignment.roleId hassignment)
          exact ⟨⟨hcovers.1, fun p hp =>
            .inl (assertRoleGrantable_eq_ok hallowed p (hcovers.2 p hp))⟩, .inr ⟨howner, hrole⟩⟩

/-- What is left of an operation on members: nothing but the standing of members of the tenant
changes. -/
structure Restaffed (db db' : RbacDb) (tenantId : Uuid) (permissions : List String) : Prop where
  tenants : db'.tenants = db.tenants
  roles : db'.roles = db.roles
  members : ∀ m' ∈ db'.tree.memberships, ∃ m ∈ db.tree.memberships, m.id = m'.id ∧
    (m' = m ∨ m.tenantId = tenantId ∧ m'.tenantId = tenantId ∧ Within db permissions m' ∧
      Retiered m m')
  kept : ∀ m ∈ db.tree.memberships, ∃ m' ∈ db'.tree.memberships, m'.id = m.id

theorem Restaffed.of_rows {permissions : List String} (htenants : db'.tenants = db.tenants)
    (hroles : db'.roles = db.roles) {f : MembershipRow → MembershipRow}
    (hrows : db'.tree.memberships.rows = db.tree.memberships.rows.map f)
    (hid : ∀ m, (f m).id = m.id)
    (hf : ∀ m ∈ db.tree.memberships, f m = m ∨ m.tenantId = tenantId ∧
      (f m).tenantId = tenantId ∧ Within db permissions (f m) ∧ Retiered m (f m)) :
    Restaffed db db' tenantId permissions where
  tenants := htenants
  roles := hroles
  members m' hm' := by
    rw [Table.mem_def, hrows] at hm'
    obtain ⟨m, hm, rfl⟩ := List.mem_map.mp hm'
    exact ⟨m, hm, (hid m).symm, hf m hm⟩
  kept m hm := by
    refine ⟨f m, ?_, hid m⟩
    rw [Table.mem_def, hrows]
    exact List.mem_map_of_mem hm

theorem Restaffed.within {permissions : List String} (hlinked : Linked db)
    (h : Restaffed db db' tenantId permissions) (hm' : m' ∈ db'.tree.memberships) :
    Within db permissions m' := by
  obtain ⟨m, hm, -, rfl | ⟨-, -, hwithin, -⟩⟩ := h.members m' hm'
  · exact .self hlinked hm
  · exact hwithin

theorem restaffed_bulkAction (hlinked : Linked db) {action : BulkAction} {members : MembersDb}
    {text : String} (hassignable : action.Assignable)
    (haction : Prepared db actor.tenantId action)
    (h : action.apply db.members actor text now = .ok members) :
    Restaffed db (db.withMembers members) actor.tenantId (granted action) := by
  cases hfind : requireInTenant db.members actor.tenantId text with
  | error e =>
      rw [apply_not_found hassignable hfind] at h
      cases h
  | ok m =>
      cases houtcome : action.outcome m with
      | error e =>
          rw [apply_refused hassignable hfind houtcome] at h
          cases h
      | ok m' =>
          obtain ⟨members', happly, hrows⟩ := apply_ok now hassignable hfind houtcome
          cases happly.symm.trans h
          obtain ⟨hm, -, htenant⟩ := requireInTenant_eq_ok hfind
          refine .of_rows rfl rfl hrows (fun r => ?_) fun r hr => ?_
          · split_ifs with hid
            · exact (outcome_id houtcome).1.trans hid.symm
            · rfl
          · split_ifs with hid
            · rw [Table.eq_of_key hr hm hid]
              exact .inr ⟨htenant, (outcome_id houtcome).2.trans htenant,
                within_outcome hlinked hm htenant haction houtcome⟩
            · exact .inl rfl

theorem setRole_eq_ok (hlinked : Linked db) {membershipId : String}
    (h : setRole db actor membershipId role actorMembershipId now = .ok db') :
    ∃ authority, resolveRoleChangeAuthority db.members actor actorMembershipId = .ok authority ∧
      Restaffed db db' actor.tenantId authority.permissions := by
  unfold setRole at h
  split_ifs at h with hrole
  rw [mapError_eq_ok, members_bind_eq_ok] at h
  obtain ⟨authority, hauthority, h⟩ := h
  dsimp only at h
  rw [members_bind_eq_ok] at h
  obtain ⟨members, hset, h⟩ := h
  cases h
  let action : BulkAction :=
    .setRole role authority (tierRoleAssignmentFor db.members actor.tenantId role)
  have hassignable : action.Assignable := hrole
  have hprepared : Prepared db actor.tenantId action := ⟨hrole, rfl⟩
  exact ⟨authority, hauthority, restaffed_bulkAction hlinked hassignable hprepared hset⟩

theorem prepareBulk_prepared {input : BulkInput} {action : BulkAction}
    (h : prepareBulk db.members actor input actorMembershipId = .ok action) :
    Prepared db actor.tenantId action ∧ (granted action = [] ∨
      ∃ authority, resolveRoleChangeAuthority db.members actor actorMembershipId = .ok authority ∧
        granted action = authority.permissions) := by
  have hassignable := prepareBulk_assignable h
  unfold prepareBulk at h
  split_ifs at h
  split at h
  · cases h
    exact ⟨trivial, .inl rfl⟩
  · cases h
    exact ⟨trivial, .inl rfl⟩
  · cases h
  · rw [members_bind_eq_ok] at h
    obtain ⟨authority, hauthority, h⟩ := h
    cases h
    exact ⟨⟨hassignable, rfl⟩, .inr ⟨authority, hauthority, rfl⟩⟩

theorem bulk_eq_ok (hlinked : Linked db) {input : BulkInput}
    (h : bulk db actor input actorMembershipId now = .ok db') :
    ∃ permissions, Restaffed db db' actor.tenantId permissions ∧ (permissions = [] ∨
      ∃ authority, resolveRoleChangeAuthority db.members actor actorMembershipId = .ok authority ∧
        permissions = authority.permissions) := by
  unfold bulk executeBulk at h
  rw [mapError_eq_ok] at h
  cases hprepare : prepareBulk db.members actor input actorMembershipId with
  | error e =>
      rw [hprepare] at h
      cases h
  | ok action =>
      rw [hprepare] at h
      cases h
      obtain ⟨hprepared, hgranted⟩ := prepareBulk_prepared hprepare
      have hrows := (bulkRun_spec db.members actor now (prepareBulk_assignable hprepare)
        input.ids).1
      refine ⟨granted action, .of_rows rfl rfl hrows (fun m => rowAfter_id) fun m hm => ?_,
        hgranted⟩
      unfold rowAfter
      split_ifs with haddressed
      · unfold BulkAction.target
        split
        · next m' houtcome =>
            have htenant : m.tenantId = actor.tenantId :=
              beq_iff_eq.mp (Bool.and_eq_true_iff.mp haddressed).1
            exact .inr ⟨htenant, (outcome_id houtcome).2.trans htenant,
              within_outcome hlinked hm htenant hprepared houtcome⟩
        · exact .inl rfl
      · exact .inl rfl

/-- An assignment that succeeds writes the one row. -/
theorem restaffed_assignRole (hlinked : Linked db) {membershipId : Uuid} {input : AssignRoleInput}
    {actorPerms : List String}
    (h : assignRole db actor membershipId input actorPerms actorMembershipId = .ok db') :
    Restaffed db db' actor.tenantId actorPerms := by
  obtain ⟨m, hm, htenant, hassert, howner, htenants, hroles, hrows⟩ := assignRole_eq_ok h
  refine .of_rows htenants hroles hrows (fun r => ?_) fun r hr => ?_
  · split_ifs with hid
    · exact hid.symm
    · rfl
  · split_ifs with hid
    · rw [Table.eq_of_key hr hm hid]
      exact .inr ⟨htenant, htenant, within_assigned hlinked hm htenant hassert,
        retiered_assigned howner⟩
    · exact .inl rfl

end Members

/-! ## New members -/

section Creation

variable {db db' : RbacDb} {actor : ActorContext} {actorMembershipId : Option Uuid}
  {s s' : TreeSession} {m : MembershipRow} {tenantId userId : Uuid} {role : Role}

theorem inTree_eq_ok {α : Type} {draws : Draws} {tx : TreeTx α}
    (h : db.inTree draws tx = .ok db') :
    ∃ a s, Commits tx ⟨db.tree, draws⟩ a s ∧ db' = { db with tree := s.db } := by
  unfold RbacDb.inTree at h
  split at h
  · next a s hrun =>
      cases h
      exact ⟨a, s, hrun, rfl⟩
  · cases h

theorem commits_placeMember {sponsor : Option Sponsor}
    (h : Commits (placeMember tenantId userId role sponsor) s m s') :
    m.tenantId = tenantId ∧ m.role = role ∧ m.roleId = none ∧ s.db.memberships.insert? m = some s'.db.memberships := by
  cases sponsor with
  | none =>
      obtain ⟨⟨id, draws, rfl⟩, hinsert⟩ := commits_createRoot h
      exact ⟨rfl, rfl, rfl, hinsert⟩
  | some sponsor =>
      obtain ⟨-, ⟨id, draws, rfl⟩, hinsert⟩ := commits_createUnder h
      exact ⟨rfl, rfl, rfl, hinsert⟩

theorem commits_createManualInTx {input : CreateManualInput} {sponsor : Option Sponsor}
    {assignment : TierRoleAssignment} {u : PUnit}
    (h : Commits (createManualInTx tenantId input sponsor assignment) s u s') :
    ∃ m : MembershipRow, (∀ r ∈ s.db.memberships, r.id ≠ m.id) ∧ m.tenantId = tenantId ∧
      m.role = input.grantedRole ∧ m.roleId = assignment.roleId ∧ s'.db.memberships.rows = s.db.memberships.rows ++ [m] := by
  unfold createManualInTx at h
  simp only [commits_bind, commits_get, commits_require] at h
  obtain ⟨_, _, ⟨rfl, rfl⟩, _, _, ⟨-, rfl⟩, m, t, hplace, h⟩ := h
  obtain ⟨htenant, hrole, hroleId, hinsert⟩ := commits_placeMember hplace
  obtain ⟨hfree, hrows⟩ := Table.insert?_eq_some.mp hinsert
  split_ifs at h with hsame
  · simp only [commits_pure] at h
    obtain ⟨-, rfl⟩ := h
    exact ⟨m, fun r hr => (hfree r hr).1, htenant, hrole, hsame, hrows⟩
  · obtain ⟨old, -, -, -, hupdate⟩ := commits_updateMembership h
    refine ⟨{ m with roleId := assignment.roleId }, fun r hr => (hfree r hr).1, htenant, hrole,
      rfl, ?_⟩
    rw [hupdate]
    exact Table.rows_updateKey_insert? _ _ hinsert

/-- A member that was not there before, within what may be granted. -/
structure Admitted (db db' : RbacDb) (tenantId : Uuid) (permissions : List String) : Prop where
  tenants : db'.tenants = db.tenants
  roles : db'.roles = db.roles
  members : ∃ m, db'.tree.memberships.rows = db.tree.memberships.rows ++ [m] ∧
    (∀ r ∈ db.tree.memberships, r.id ≠ m.id) ∧ m.tenantId = tenantId ∧
    m.role ∈ ASSIGNABLE_ROLES ∧ Within db permissions m

theorem grantedRole_assignable (input : CreateManualInput) :
    input.grantedRole ∈ ASSIGNABLE_ROLES := by
  unfold CreateManualInput.grantedRole
  split
  · split_ifs with h
    · exact h
    · decide
  · decide

theorem createManual_eq_ok {input : CreateManualInput} {draws : Draws}
    (h : createManual db actor actorMembershipId input draws = .ok db') :
    ∃ permissions, Admitted db db' actor.tenantId permissions ∧ (permissions = [] ∨
      ∃ authority, resolveRoleChangeAuthority db.members actor actorMembershipId = .ok authority ∧
        permissions = authority.permissions) := by
  unfold createManual at h
  split at h
  · cases h
  · next tenant _ =>
      split_ifs at h
      rw [bind_eq_ok] at h
      obtain ⟨_, hassert, h⟩ := h
      rw [mapError_eq_ok] at hassert
      rw [bind_eq_ok] at h
      obtain ⟨sponsor, -, h⟩ := h
      obtain ⟨_, s, hcommits, rfl⟩ := inTree_eq_ok h
      obtain ⟨m, hfresh, htenant, hrole, hroleId, hrows⟩ := commits_createManualInTx hcommits
      have hassignable := grantedRole_assignable input
      have hcovers := assignment_covers m hassignable hrole htenant hroleId
      unfold assertManualRole at hassert
      split_ifs at hassert with hmember
      · refine ⟨[], ⟨rfl, rfl, m, hrows, hfresh, htenant, hrole ▸ hassignable, hcovers.1,
          fun p hp => ?_⟩, .inl rfl⟩
        rw [permissionsFor_member (hrole.trans hmember)] at hp
        cases hp
      · rw [members_bind_eq_ok] at hassert
        obtain ⟨authority, hauthority, hgrant⟩ := hassert
        exact ⟨authority.permissions, ⟨rfl, rfl, m, hrows, hfresh, htenant, hrole ▸ hassignable,
          hcovers.1, fun p hp => .inl (assertRoleGrantable_eq_ok hgrant p (hcovers.2 p hp))⟩,
          .inr ⟨authority, hauthority, rfl⟩⟩

theorem join_eq_ok {sponsor : Sponsor} {inviteId : Uuid} {consent : Auth.InviteConsentSnapshot}
    {draws : Draws}
    (h : db.inTree draws (createUnderWithInviteConsent ⟨tenantId, userId, sponsor, none⟩ inviteId
      consent) = .ok db') : Admitted db db' tenantId [] := by
  obtain ⟨m, s, hcommits, rfl⟩ := inTree_eq_ok h
  obtain ⟨t, hcreate, hmemberships⟩ := commits_createUnderWithInviteConsent hcommits
  obtain ⟨-, ⟨id, draws', rfl⟩, hinsert⟩ := commits_createUnder hcreate
  obtain ⟨hfree, hrows⟩ := Table.insert?_eq_some.mp hinsert
  have hmember : Role.member ∈ ASSIGNABLE_ROLES := by decide
  refine ⟨rfl, rfl, _, (congrArg Table.rows hmemberships).trans hrows,
    fun r hr => (hfree r hr).1, rfl, hmember, fun id hid => ?_, fun p hp => ?_⟩
  · cases hid
  · cases hp

end Creation

end Refearn.Rbac
