import Refearn.Rbac.Proofs.Restart
/-!
# No privilege escalation

Permissions flow through the tier, the list of the role and the assignment. Every operation on
any of the three is bounded by what its sender may do, so members who are no owners cannot reach
together what none of them could do alone.
-/

namespace Refearn.Rbac

open Support Memberships
open Auth (Role ALL_PERMISSIONS defaultPermissionsForTier)

/-! ## Senders -/

def RbacStep.isStart : RbacStep → Bool
  | .start _ => true
  | _ => false

/-- The tenant in which the request can add to what members may do. -/
def RbacStep.grantsIn : RbacStep → Option Uuid
  | .updateRole actor _ _ _ | .assignRole actor _ _ _ _ | .setRole actor _ _ _ _
  | .bulk actor _ _ _ | .createManual actor _ _ _ => some actor.tenantId
  | .createRole _ _ _ _ | .deleteRole _ _ | .join _ _ _ _ _ _ | .start _ => none

/-- The request comes from this member, which acts with no more than its own permissions. -/
def RbacStep.SentBy (a : MembershipRow) (db : RbacDb) : RbacStep → Prop
  | .updateRole actor _ _ actorPerms | .assignRole actor _ _ actorPerms _ =>
      a.tenantId = actor.tenantId ∧ ∀ p ∈ actorPerms, p ∈ permissionsFor db a
  | .setRole actor _ _ actorMembershipId _ | .bulk actor _ actorMembershipId _
  | .createManual actor actorMembershipId _ _ =>
      a.tenantId = actor.tenantId ∧ actorMembershipId = some a.id
  | .createRole _ _ _ _ | .deleteRole _ _ | .join _ _ _ _ _ _ | .start _ => False

section Authority

variable {db : RbacDb} {actor : ActorContext} {a : MembershipRow} {authority : RoleChangeAuthority}

theorem permissionsFor_of_unrestricted (h : Unrestricted a.role) :
    permissionsFor db a = ALL_PERMISSIONS := by
  unfold permissionsFor
  rcases h with h | h <;> rw [h] <;> rfl

theorem roleRefPermissions_members :
    (a.roleId.bind db.members.roles.find?).map RoleRow.permissions = roleRefPermissions db a := by
  unfold roleRefPermissions
  cases a.roleId with
  | none => rfl
  | some id =>
      have hfind : (db.roles.project TenantRoleRow.roleRow (fun _ => rfl) fun _ _ => rfl).find? id =
          (db.roles.find? id).map TenantRoleRow.roleRow := Table.find?_project _ _ id
      refine (congrArg (Option.map RoleRow.permissions) hfind).trans ?_
      rw [Option.map_map]
      rfl

/-- A change of role is checked against the permissions of the member that asks for it. -/
theorem authority_permissions (ha : a ∈ db.tree.memberships)
    (h : resolveRoleChangeAuthority db.members actor (some a.id) = .ok authority) :
    authority.permissions = permissionsFor db a := by
  unfold resolveRoleChangeAuthority at h
  simp only at h
  split at h
  · cases h
  · next m hfind =>
      have hp := List.find?_some hfind
      rw [Bool.and_eq_true, beq_iff_eq] at hp
      have hm : m ∈ db.tree.memberships := List.mem_of_find?_eq_some hfind
      cases Table.eq_of_key hm ha hp.2
      split_ifs at h
      rw [roleRefPermissions_members] at h
      cases hrole : a.role <;> rw [hrole] at h <;> cases h
      · exact (permissionsFor_of_unrestricted (.inr hrole)).symm
      · exact (permissionsFor_of_unrestricted (.inl hrole)).symm
      all_goals
        unfold permissionsFor
        rw [hrole]

end Authority

/-! ## Bounded steps -/

/-- What a member may do afterwards it could do before, in the same tier, or it is one of the
permissions given in the tenant; and no member is in a tier above. -/
structure Bounded (db db' : RbacDb) (tenantId : Uuid) (permissions : List String) : Prop where
  within : ∀ m' ∈ db'.tree.memberships, ∀ p ∈ permissionsFor db' m',
    m'.tenantId = tenantId ∧ p ∈ permissions ∨ ∃ m ∈ db.tree.memberships, m.id = m'.id ∧
      m.tenantId = m'.tenantId ∧ m.role = m'.role ∧ p ∈ permissionsFor db m
  tier : ∀ m' ∈ db'.tree.memberships, Unrestricted m'.role →
    ∃ m ∈ db.tree.memberships, m.id = m'.id ∧ m.role = m'.role

theorem not_unrestricted_of_assignable {role : Role} (h : role ∈ ASSIGNABLE_ROLES) :
    ¬Unrestricted role := by
  rintro (rfl | rfl)
  · exact absurd h (by decide)
  · exact absurd h (by decide)

section Operations

variable {t : CaseTable} {db db' : RbacDb} {actor : ActorContext} {tenantId roleId id : Uuid}
  {permissions actorPerms : List String}

/-- The members are the same and each has no more than before and the permissions given. -/
theorem Bounded.of_same_rows
    (hrows : db'.tree.memberships.rows = db.tree.memberships.rows)
    (h : ∀ m ∈ db.tree.memberships, ∀ p ∈ permissionsFor db' m,
      m.tenantId = tenantId ∧ p ∈ permissions ∨ p ∈ permissionsFor db m) :
    Bounded db db' tenantId permissions where
  within m hm p hp := by
    rw [Table.mem_def, hrows] at hm
    exact (h m hm p hp).imp_right fun hp => ⟨m, hm, rfl, rfl, rfl, hp⟩
  tier m hm _ := by
    rw [Table.mem_def, hrows] at hm
    exact ⟨m, hm, rfl, rfl⟩

theorem Bounded.refl (db : RbacDb) : Bounded db db tenantId permissions :=
  .of_same_rows rfl fun _ _ _ hp => .inr hp

theorem Restaffed.bounded (h : Restaffed db db' tenantId permissions) :
    Bounded db db' tenantId permissions where
  within m' hm' p hp := by
    rw [permissionsFor_congr rfl (roleRefPermissions_of_roles h.roles rfl)] at hp
    obtain ⟨m, hm, hid, rfl | ⟨-, htenant, hwithin, -⟩⟩ := h.members m' hm'
    · exact .inr ⟨m', hm, rfl, rfl, rfl, hp⟩
    · exact (hwithin.within p hp).imp_left fun hp => ⟨htenant, hp⟩
  tier m' hm' htier := by
    obtain ⟨m, hm, hid, rfl | ⟨-, -, -, hsame | ⟨-, hassignable⟩⟩⟩ := h.members m' hm'
    · exact ⟨m', hm, rfl, rfl⟩
    · exact ⟨m, hm, hid, hsame⟩
    · exact absurd htier (not_unrestricted_of_assignable hassignable)

theorem Admitted.bounded (h : Admitted db db' tenantId permissions) :
    Bounded db db' tenantId permissions := by
  obtain ⟨new, hrows, -, htenant, hassignable, hwithin⟩ := h.members
  refine ⟨fun m' hm' p hp => ?_, fun m' hm' htier => ?_⟩
  · rw [permissionsFor_congr rfl (roleRefPermissions_of_roles h.roles rfl)] at hp
    rw [Table.mem_def, hrows] at hm'
    rcases List.mem_append.mp hm' with hm | hm
    · exact .inr ⟨m', hm, rfl, rfl, rfl, hp⟩
    · cases List.mem_singleton.mp hm
      exact (hwithin.within p hp).imp_left fun hp => ⟨htenant, hp⟩
  · rw [Table.mem_def, hrows] at hm'
    rcases List.mem_append.mp hm' with hm | hm
    · exact ⟨m', hm, rfl, rfl⟩
    · cases List.mem_singleton.mp hm
      exact absurd htier (not_unrestricted_of_assignable hassignable)

/-- A role that a member refers to keeps its list. -/
theorem roleRefPermissions_kept (hlinked : Linked db) {m : MembershipRow}
    (hm : m ∈ db.tree.memberships)
    (hroles : ∀ id r, m.roleId = some id → db.roles.find? id = some r →
      db'.roles.find? id = some r) :
    roleRefPermissions db' m = roleRefPermissions db m := by
  unfold roleRefPermissions
  cases hid : m.roleId with
  | none => rfl
  | some id =>
      obtain ⟨r, hr, -⟩ := hlinked.roleIds m hm id hid
      rw [Option.bind_some, Option.bind_some, hr, hroles id r hid hr]

/-- A new role is nobody's. -/
theorem bounded_createRole (hlinked : Linked db) {input : CreateRoleInput}
    (h : createRole t db actor input actorPerms id = .ok db') : Bounded db db' tenantId [] := by
  obtain ⟨-, -, roleKey, roles, -, hinsert, rfl⟩ := createRole_eq_ok.mp h
  refine .of_same_rows rfl fun m hm p hp => .inr ?_
  rwa [permissionsFor_congr rfl (roleRefPermissions_kept hlinked hm fun _ _ _ hr =>
    Table.find?_insert? hinsert hr)] at hp

/-- A role that is deleted was nobody's. -/
theorem bounded_deleteRole (hlinked : Linked db) (h : deleteRole db actor roleId = .ok db') :
    Bounded db db' tenantId [] := by
  obtain ⟨-, -, -, -, hroles, hnone, hrows⟩ := deleteRole_eq_ok h
  refine .of_same_rows hrows fun m hm p hp => .inr ?_
  rwa [permissionsFor_congr rfl (roleRefPermissions_kept hlinked hm fun id r hid hr => ?_)] at hp
  obtain ⟨hmem, hkey⟩ := Table.find?_eq_some.mp hr
  rw [hroles]
  refine Table.find?_eq_some.mpr ⟨Table.mem_filter.mpr ⟨hmem, bne_iff_ne.mpr fun heq => ?_⟩, hkey⟩
  exact hnone m hm (hid.trans (congrArg some (hkey.symm.trans heq)))

/-- Whoever has the role has no more than before and what the sender wrote into it. -/
theorem bounded_updateRole (hlinked : Linked db) {input : UpdateRoleInput}
    (h : updateRole db actor roleId input actorPerms = .ok db') :
    Bounded db db' actor.tenantId actorPerms := by
  obtain ⟨hgrant, r, hfind, -, rfl⟩ := updateRole_eq_ok.mp h
  obtain ⟨hr, htenant⟩ := findRole_eq_some.mp hfind
  refine .of_same_rows rfl fun m hm p hp => ?_
  by_cases hhas : m.roleId = some roleId
  · have hown : m.tenantId = actor.tenantId := by
      obtain ⟨r', hr', hown⟩ := hlinked.roleIds m hm roleId hhas
      cases hr.symm.trans hr'
      exact hown.symm.trans htenant
    have hold : roleRefPermissions db m = some r.permissions := by
      unfold roleRefPermissions
      rw [hhas, Option.bind_some, hr]
      rfl
    have hnew : roleRefPermissions { db with
        roles := db.roles.updateKey roleId input.apply input.keepsIndexes
        auditLogs := db.auditLogs ++ [auditEntry actor "role.update" roleId
          [("name", .str (input.apply r).name),
            ("permissions", permissionsJson (input.apply r).permissions)]] } m =
        some (input.permissions.getD r.permissions) := by
      unfold roleRefPermissions
      rw [hhas, Option.bind_some, Table.find?_updateKey, hr]
      have hid := (Table.find?_eq_some.mp hr).2
      rw [Option.map_some, Option.map_some, if_pos hid]
      rfl
    rw [permissionsFor_eq] at hp ⊢
    rw [hnew] at hp
    rw [hold]
    cases hinput : input.permissions with
    | none =>
        rw [hinput] at hp
        exact .inr hp
    | some list =>
        rw [hinput] at hp hgrant
        split_ifs at hp ⊢
        · exact .inl ⟨hown, hgrant p hp⟩
        · exact .inr hp
  · refine .inr ?_
    rwa [permissionsFor_congr rfl (roleRefPermissions_kept hlinked hm fun id r' hid hr' => ?_)]
      at hp
    have hne : ¬Keyed.key r' = roleId := by
      rintro rfl
      exact hhas (hid.trans (congrArg some (Table.find?_eq_some.mp hr').2.symm))
    rw [Table.find?_updateKey, hr', Option.map_some, if_neg hne]

/-- Every step but a start is bounded, and by the permissions of its sender. -/
theorem bounded_step (hlinked : Linked db) {step : RbacStep} (hstep : step.isStart = false) :
    ∃ tenantId permissions, Bounded db (step.apply t db) tenantId permissions ∧
      (permissions = [] ∨ step.grantsIn = some tenantId ∧ ∀ a ∈ db.tree.memberships,
        step.SentBy a db → a.tenantId = tenantId ∧ ∀ p ∈ permissions, p ∈ permissionsFor db a) := by
  cases hperform : step.perform t db with
  | error e =>
      rw [apply_of_error hperform]
      exact ⟨0, [], .refl db, .inl rfl⟩
  | ok db' =>
      rw [apply_of_ok hperform]
      cases step with
      | createRole => exact ⟨0, [], bounded_createRole hlinked hperform, .inl rfl⟩
      | deleteRole => exact ⟨0, [], bounded_deleteRole hlinked hperform, .inl rfl⟩
      | join => exact ⟨_, [], (join_eq_ok hperform).bounded, .inl rfl⟩
      | start => cases hstep
      | updateRole =>
          exact ⟨_, _, bounded_updateRole hlinked hperform, .inr ⟨rfl, fun a _ hsent => hsent⟩⟩
      | assignRole =>
          exact ⟨_, _, (restaffed_assignRole hlinked hperform).bounded,
            .inr ⟨rfl, fun a _ hsent => hsent⟩⟩
      | setRole =>
          obtain ⟨authority, hauthority, hmembers⟩ := setRole_eq_ok hlinked hperform
          refine ⟨_, _, hmembers.bounded, .inr ⟨rfl, fun a ha hsent => ⟨hsent.1, ?_⟩⟩⟩
          rw [hsent.2] at hauthority
          exact fun p hp => authority_permissions ha hauthority ▸ hp
      | bulk =>
          obtain ⟨permissions, hmembers, hnone | ⟨authority, hauthority, rfl⟩⟩ :=
            bulk_eq_ok hlinked hperform
          · exact ⟨_, _, hmembers.bounded, .inl hnone⟩
          · refine ⟨_, _, hmembers.bounded, .inr ⟨rfl, fun a ha hsent => ⟨hsent.1, ?_⟩⟩⟩
            rw [hsent.2] at hauthority
            exact fun p hp => authority_permissions ha hauthority ▸ hp
      | createManual =>
          obtain ⟨permissions, hadmitted, hnone | ⟨authority, hauthority, rfl⟩⟩ :=
            createManual_eq_ok hperform
          · exact ⟨_, _, hadmitted.bounded, .inl hnone⟩
          · refine ⟨_, _, hadmitted.bounded, .inr ⟨rfl, fun a ha hsent => ⟨hsent.1, ?_⟩⟩⟩
            rw [hsent.2] at hauthority
            exact fun p hp => authority_permissions ha hauthority ▸ hp

end Operations

/-! ## Runs -/

/-- Who grants in the tenant is one of its members, and no owner. -/
def GrantedBelowOwner (tenantId : Uuid) (step : RbacStep) (db : RbacDb) : Prop :=
  step.isStart = false ∧ (step.grantsIn = some tenantId →
    ∃ a ∈ db.tree.memberships, ¬Unrestricted a.role ∧ step.SentBy a db)

section Runs

variable {t : CaseTable} {db : RbacDb} {steps : List RbacStep} {m' : MembershipRow} {p : String}

/-- A permission after a step was given by the step or was there before. -/
theorem before_step (hlinked : Linked db) {step : RbacStep} (hstep : step.isStart = false)
    (hm' : m' ∈ (step.apply t db).tree.memberships)
    (hp : p ∈ permissionsFor (step.apply t db) m') :
    (step.grantsIn = some m'.tenantId ∧ ∀ a ∈ db.tree.memberships, step.SentBy a db →
      a.tenantId = m'.tenantId ∧ p ∈ permissionsFor db a) ∨
    ∃ m ∈ db.tree.memberships, m.id = m'.id ∧ m.tenantId = m'.tenantId ∧ m.role = m'.role ∧
      p ∈ permissionsFor db m := by
  obtain ⟨tenantId, permissions, hbounded, hgranted⟩ := bounded_step hlinked hstep
  rcases hbounded.within m' hm' p hp with ⟨htenant, hlist⟩ | hbefore
  · rcases hgranted with rfl | ⟨hgrants, hsender⟩
    · cases hlist
    · refine .inl ⟨htenant ▸ hgrants, fun a ha hsent => ?_⟩
      obtain ⟨hsame, hall⟩ := hsender a ha hsent
      exact ⟨hsame.trans htenant.symm, hall p hlist⟩
  · exact .inr hbefore

end Runs

namespace Demo

def admin : MembershipRow :=
  ⟨2, 1, 11, .tenantAdmin, none, some 1, "ADMIN", "1.2", 1, .active, false, 0⟩

def cashier : MembershipRow :=
  ⟨3, 1, 12, .tenantStaff, some 50, some 1, "CASHIER", "1.3", 1, .active, false, 0⟩

/-- A company with one custom role. -/
def shop : RbacDb where
  tenants := [⟨1, .active⟩]
  roles := ⟨[⟨50, 1, "cashier", "Cashier", none, none, false, ["sales.view"]⟩], by decide,
    by decide⟩
  tree := ⟨⟨[owner, admin, cashier], by decide, by decide⟩, .empty⟩
  apiKeys := .empty
  platformAdmins := []
  payouts := []
  auditLogs := []

/-- The administrator widens the role. -/
def widened : List RbacStep :=
  [.updateRole ⟨11, 1⟩ 50 ⟨none, none, none, some ["members.view"]⟩ ["members.view"]]

theorem linked_shop : Linked shop := by
  refine ⟨fun m hm id hid => ?_, by decide⟩
  rcases List.mem_cons.mp hm with rfl | hm
  · cases hid
  rcases List.mem_cons.mp hm with rfl | hm
  · cases hid
  cases List.mem_singleton.mp hm
  cases hid
  exact ⟨_, rfl, rfl⟩

theorem admin_mem : admin ∈ shop.tree.memberships := List.mem_cons_of_mem _ List.mem_cons_self

theorem cashier_mem :
    cashier ∈ (run (RbacStep.apply Sanctions.Demo.caseTable) widened shop).tree.memberships := by
  have hrows : (run (RbacStep.apply Sanctions.Demo.caseTable) widened shop).tree.memberships.rows =
      [owner, admin, cashier] := rfl
  rw [Table.mem_def, hrows]
  exact List.mem_cons_of_mem _ (List.mem_cons_of_mem _ List.mem_cons_self)

end Demo

section Runs

variable {db : RbacDb} {steps : List RbacStep} {m' : MembershipRow} {p : String}

/-- Members below the owner cannot reach together what none of them could do, whatever is done in
other tenants, and nobody is raised above them. -/
theorem no_escalation (t : CaseTable) (hlinked : Linked db) {tenantId : Uuid}
    (hsent : Throughout (RbacStep.apply t) (GrantedBelowOwner tenantId) steps db)
    (hm' : m' ∈ (run (RbacStep.apply t) steps db).tree.memberships) :
    (Unrestricted m'.role → ∃ m ∈ db.tree.memberships, m.id = m'.id ∧ m.role = m'.role) ∧
      (m'.tenantId = tenantId → ¬Unrestricted m'.role →
        ∀ p ∈ permissionsFor (run (RbacStep.apply t) steps db) m', ∃ m ∈ db.tree.memberships,
          m.tenantId = tenantId ∧ ¬Unrestricted m.role ∧ p ∈ permissionsFor db m) := by
  induction steps generalizing db with
  | nil => exact ⟨fun _ => ⟨m', hm', rfl, rfl⟩, fun htenant hbelow p hp =>
      ⟨m', hm', htenant, hbelow, hp⟩⟩
  | cons step steps ih =>
      obtain ⟨⟨hstep, hsender⟩, hrest⟩ := hsent
      obtain ⟨htier, hwithin⟩ := ih (linked_step hlinked step) hrest hm'
      refine ⟨fun habove => ?_, fun htenant hbelow p hp => ?_⟩
      · obtain ⟨m, hm, hid, hrole⟩ := htier habove
        obtain ⟨_, _, hbounded, -⟩ := bounded_step (t := t) hlinked hstep
        obtain ⟨m₀, hm₀, hid₀, hrole₀⟩ := hbounded.tier m hm (hrole.symm ▸ habove)
        exact ⟨m₀, hm₀, hid₀.trans hid, hrole₀.trans hrole⟩
      · obtain ⟨m, hm, hown, hlow, hpm⟩ := hwithin htenant hbelow p hp
        rcases before_step hlinked hstep hm hpm with
          ⟨hgrants, hfrom⟩ | ⟨m₀, hm₀, -, htenant₀, hrole₀, hp₀⟩
        · obtain ⟨a, ha, hbelowOwner, hsentBy⟩ := hsender (hown ▸ hgrants)
          obtain ⟨hsame, hpa⟩ := hfrom a ha hsentBy
          exact ⟨a, ha, hsame.trans hown, hbelowOwner, hpa⟩
        · exact ⟨m₀, hm₀, htenant₀.trans hown, hrole₀ ▸ hlow, hp₀⟩

theorem no_escalation_widened :
    (Unrestricted Demo.cashier.role → ∃ m ∈ Demo.shop.tree.memberships,
      m.id = Demo.cashier.id ∧ m.role = Demo.cashier.role) ∧
    (Demo.cashier.tenantId = 1 → ¬Unrestricted Demo.cashier.role →
      ∀ p ∈ permissionsFor (run (RbacStep.apply Sanctions.Demo.caseTable) Demo.widened Demo.shop)
        Demo.cashier, ∃ m ∈ Demo.shop.tree.memberships,
          m.tenantId = 1 ∧ ¬Unrestricted m.role ∧ p ∈ permissionsFor Demo.shop m) :=
  no_escalation Sanctions.Demo.caseTable Demo.linked_shop
    ⟨⟨rfl, fun _ => ⟨Demo.admin, Demo.admin_mem, by decide, rfl, by decide⟩⟩, trivial⟩
    Demo.cashier_mem

end Runs

end Refearn.Rbac
