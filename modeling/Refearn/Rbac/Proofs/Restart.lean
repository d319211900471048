import Refearn.Rbac.Proofs.Roles
import Refearn.Sanctions.Proofs.Screen
import Refearn.Support.Runs
/-!
# Restarts

A start of the server writes the seeded lists over whatever the roles under the five system keys
carry, and it gives members without a role the system role of their tier. So it changes no
permission exactly where the lists under these keys are still the seeded ones.
-/

namespace Refearn.Rbac

open Support Memberships
open Auth (Role defaultPermissionsForTier)

/-! ## Seeded lists -/

/-- Under the key of a system role, the list is the seeded one. -/
def GivesSeed (roleKey : String) (permissions : List String) : Prop :=
  ∀ s ∈ SYSTEM_ROLES, s.roleKey = roleKey → permissions = s.permissions

def Seeded (db : RbacDb) : Prop := ∀ r ∈ db.roles, GivesSeed r.roleKey r.permissions

theorem keys_nodup : (SYSTEM_ROLES.map SystemRoleSeed.roleKey).Nodup := by decide

theorem seed_gives {s : SystemRoleSeed} (hs : s ∈ SYSTEM_ROLES) :
    GivesSeed s.roleKey s.permissions := fun _ hs' hkey =>
  congrArg SystemRoleSeed.permissions
    (List.inj_on_of_nodup_map keys_nodup hs hs' hkey.symm)

/-- The system role of a tier has the permissions that the tier has without a role. -/
theorem tier_seed {tier : Role} {roleKey : String} {permissions : List String}
    (hkey : tierToSystemRole tier = some roleKey) (h : GivesSeed roleKey permissions) :
    permissions = defaultPermissionsForTier tier := by
  cases tier with
  | tenantOwner =>
      cases hkey
      exact h ⟨_, _, _, _, _⟩ List.mem_cons_self rfl
  | tenantAdmin =>
      cases hkey
      exact h ⟨_, _, _, _, _⟩ (List.mem_cons_of_mem _ List.mem_cons_self) rfl
  | tenantStaff =>
      cases hkey
      exact h ⟨_, _, _, _, _⟩ (List.mem_cons_of_mem _ (List.mem_cons_of_mem _
        (List.mem_cons_of_mem _ List.mem_cons_self))) rfl
  | platformAdmin => cases hkey
  | member => cases hkey

/-- No role has another list and no member has other permissions than before. -/
structure Keeps (db db' : RbacDb) : Prop where
  roles : ∀ r ∈ db.roles, ∃ r' ∈ db'.roles, r'.id = r.id ∧ r'.permissions = r.permissions
  members : ∀ m ∈ db.tree.memberships, ∃ m' ∈ db'.tree.memberships, m'.id = m.id ∧
    permissionsFor db' m' = permissionsFor db m

theorem Keeps.refl (db : RbacDb) : Keeps db db :=
  ⟨fun r hr => ⟨r, hr, rfl, rfl⟩, fun m hm => ⟨m, hm, rfl, rfl⟩⟩

theorem Keeps.trans {db db' db'' : RbacDb} (h : Keeps db db') (h' : Keeps db' db'') :
    Keeps db db'' where
  roles r hr := by
    obtain ⟨r', hr', hid, hlist⟩ := h.roles r hr
    obtain ⟨r'', hr'', hid', hlist'⟩ := h'.roles r' hr'
    exact ⟨r'', hr'', hid'.trans hid, hlist'.trans hlist⟩
  members m hm := by
    obtain ⟨m', hm', hid, hlist⟩ := h.members m hm
    obtain ⟨m'', hm'', hid', hlist'⟩ := h'.members m' hm'
    exact ⟨m'', hm'', hid'.trans hid, hlist'.trans hlist⟩

/-! ## The statements of a start -/

/-- The row after the upsert of a system role. -/
def rewritten (tenantId : Uuid) (s : SystemRoleSeed) (r : TenantRoleRow) : TenantRoleRow :=
  if r.tenantId = tenantId ∧ r.roleKey = s.roleKey then s.rewrite r else r

section Statements

variable {db db' : RbacDb} {tenantId : Uuid} {newId : String → Uuid} {s : SystemRoleSeed}
  {r : TenantRoleRow} {tier : Role}

@[simp] theorem rewritten_id : (rewritten tenantId s r).id = r.id := by
  unfold rewritten
  split_ifs <;> rfl

@[simp] theorem rewritten_tenantId : (rewritten tenantId s r).tenantId = r.tenantId := by
  unfold rewritten
  split_ifs <;> rfl

@[simp] theorem rewritten_roleKey : (rewritten tenantId s r).roleKey = r.roleKey := by
  unfold rewritten
  split_ifs <;> rfl

theorem rewritten_permissions (hs : s ∈ SYSTEM_ROLES) (h : GivesSeed r.roleKey r.permissions) :
    (rewritten tenantId s r).permissions = r.permissions := by
  unfold rewritten
  split_ifs with hkey
  · exact (h s hs hkey.2.symm).symm
  · rfl

/-- What the upsert of a system role leaves. -/
structure Upserted (tenantId : Uuid) (newId : String → Uuid) (s : SystemRoleSeed)
    (db db' : RbacDb) : Prop where
  tree : db'.tree = db.tree
  tenants : db'.tenants = db.tenants
  kept : ∀ r ∈ db.roles, rewritten tenantId s r ∈ db'.roles
  old : ∀ r' ∈ db'.roles, (∃ r ∈ db.roles, rewritten tenantId s r = r') ∨
    r' = s.row tenantId (newId s.roleKey)
  seeded : ∃ r ∈ db'.roles, r.tenantId = tenantId ∧ r.roleKey = s.roleKey ∧
    r.permissions = s.permissions

theorem roleByKey_eq_none {roleKey : String} (h : roleByKey db tenantId roleKey = none)
    (hr : r ∈ db.roles) : ¬(r.tenantId = tenantId ∧ r.roleKey = roleKey) := by
  intro hkey
  have hfalse := List.find?_eq_none.mp h r hr
  rw [Bool.and_eq_true, beq_iff_eq, beq_iff_eq] at hfalse
  exact hfalse hkey

theorem eq_of_keys {r r' : TenantRoleRow} (hr : r ∈ db.roles) (hr' : r' ∈ db.roles)
    (htenant : r.tenantId = r'.tenantId) (hkey : r.roleKey = r'.roleKey) : r = r' := by
  refine Table.eq_of_clash (fun a b => ?_) hr hr' ?_
  · change (a.tenantId == b.tenantId && a.roleKey == b.roleKey) =
      (b.tenantId == a.tenantId && b.roleKey == a.roleKey)
    rw [Bool.eq_iff_iff, Bool.and_eq_true, Bool.and_eq_true, beq_iff_eq, beq_iff_eq, beq_iff_eq,
      beq_iff_eq]
    exact and_congr eq_comm eq_comm
  · change (r.tenantId == r'.tenantId && r.roleKey == r'.roleKey) = true
    rw [Bool.and_eq_true, beq_iff_eq, beq_iff_eq]
    exact ⟨htenant, hkey⟩

theorem upserted (h : upsertSystemRole tenantId newId db s = .ok db') :
    Upserted tenantId newId s db db' := by
  unfold upsertSystemRole at h
  split at h
  · next r hfind =>
      cases h
      obtain ⟨hr, htenant, hkey⟩ := roleByKey_eq_some hfind
      have hrewritten : ∀ x ∈ db.roles,
          (if x.id = r.id then s.rewrite x else x) = rewritten tenantId s x := by
        intro x hx
        unfold rewritten
        refine if_congr ⟨fun hid => ?_, fun hsame => ?_⟩ rfl rfl
        · rw [Table.eq_of_key hx hr hid]
          exact ⟨htenant, hkey⟩
        · rw [eq_of_keys hx hr (hsame.1.trans htenant.symm) (hsame.2.trans hkey.symm)]
      have hrows : ∀ r', r' ∈ db.roles.updateKey r.id s.rewrite s.keepsIndexes ↔
          ∃ x ∈ db.roles, rewritten tenantId s x = r' := by
        intro r'
        rw [Table.mem_def, Table.rows_updateKey, List.mem_map]
        refine exists_congr fun x => and_congr_right fun hx => ?_
        exact Eq.congr_left (hrewritten x hx)
      refine ⟨rfl, rfl, fun x hx => (hrows _).mpr ⟨x, hx, rfl⟩,
        fun r' hr' => .inl ((hrows _).mp hr'), rewritten tenantId s r, (hrows _).mpr ⟨r, hr, rfl⟩, ?_, ?_, ?_⟩
      · rw [rewritten_tenantId, htenant]
      · rw [rewritten_roleKey, hkey]
      · unfold rewritten
        rw [if_pos ⟨htenant, hkey⟩]
        rfl
  · next hnone =>
      split at h
      · next roles hinsert =>
          cases h
          have hsame : ∀ x ∈ db.roles, rewritten tenantId s x = x := fun x hx =>
            if_neg (roleByKey_eq_none hnone hx)
          refine ⟨rfl, rfl, fun x hx => ?_, fun r' hr' => ?_, s.row tenantId (newId s.roleKey),
            (Table.mem_insert? hinsert).mpr (.inr rfl), rfl, rfl, rfl⟩
          · rw [hsame x hx]
            exact (Table.mem_insert? hinsert).mpr (.inl hx)
          · rcases (Table.mem_insert? hinsert).mp hr' with hold | hnew
            · exact .inl ⟨r', hold, hsame r' hold⟩
            · exact .inr hnew
      · cases h

/-- A rewrite of the roles that keeps each under its identifier with its list. -/
theorem Keeps.of_roles (hlinked : Linked db) (htree : db'.tree = db.tree)
    (hroles : ∀ r ∈ db.roles, ∃ r' ∈ db'.roles, r'.id = r.id ∧ r'.permissions = r.permissions) :
    Keeps db db' where
  roles := hroles
  members m hm := by
    refine ⟨m, htree ▸ hm, rfl, permissionsFor_congr rfl ?_⟩
    unfold roleRefPermissions
    cases hid : m.roleId with
    | none => rfl
    | some id =>
        obtain ⟨r, hr, -⟩ := hlinked.roleIds m hm id hid
        obtain ⟨hmem, hkey⟩ := Table.find?_eq_some.mp hr
        obtain ⟨r', hr', hid', hlist⟩ := hroles r hmem
        have hfind : db'.roles.find? id = some r' :=
          Table.find?_eq_some.mpr ⟨hr', hid'.trans hkey⟩
        rw [Option.bind_some, Option.bind_some, hfind, hr, Option.map_some, Option.map_some, hlist]

/-- What a start goes on from: the lists are the seeded ones, and references lead somewhere. -/
structure Settled (db : RbacDb) : Prop where
  seeded : Seeded db
  linked : Linked db

theorem Upserted.linked (h : Upserted tenantId newId s db db') (hlinked : Linked db)
    (htenant : tenantId ∈ db.tenants.map TenantRow.id) : Linked db' where
  roleIds m hm id hid := by
    obtain ⟨r, hr, htenant⟩ := hlinked.roleIds m (h.tree ▸ hm) id hid
    obtain ⟨hmem, hkey⟩ := Table.find?_eq_some.mp hr
    exact ⟨rewritten tenantId s r, Table.find?_eq_some.mpr ⟨h.kept r hmem,
      rewritten_id.trans hkey⟩, rewritten_tenantId.trans htenant⟩
  tenants r' hr' := by
    rw [h.tenants]
    rcases h.old r' hr' with ⟨r, hr, rfl⟩ | rfl
    · rw [rewritten_tenantId]
      exact hlinked.tenants r hr
    · exact htenant

theorem Upserted.keeps (h : Upserted tenantId newId s db db') (hs : s ∈ SYSTEM_ROLES)
    (hsettled : Settled db) (htenant : tenantId ∈ db.tenants.map TenantRow.id) :
    Keeps db db' ∧ Settled db' := by
  refine ⟨.of_roles hsettled.linked h.tree fun r hr => ?_, fun r' hr' => ?_,
    h.linked hsettled.linked htenant⟩
  · exact ⟨_, h.kept r hr, rewritten_id, rewritten_permissions hs (hsettled.seeded r hr)⟩
  · rcases h.old r' hr' with ⟨r, hr, rfl⟩ | rfl
    · rw [rewritten_roleKey, rewritten_permissions hs (hsettled.seeded r hr)]
      exact hsettled.seeded r hr
    · exact seed_gives hs

theorem systemRoleOf_eq_some (h : systemRoleOf db tenantId tier = some r) :
    ∃ roleKey, tierToSystemRole tier = some roleKey ∧ r ∈ db.roles ∧ r.tenantId = tenantId ∧
      r.roleKey = roleKey := by
  unfold systemRoleOf at h
  obtain ⟨roleKey, hkey, hfind⟩ := Option.bind_eq_some_iff.mp h
  have hp := List.find?_some hfind
  rw [Bool.and_eq_true, Bool.and_eq_true, beq_iff_eq, beq_iff_eq] at hp
  exact ⟨roleKey, hkey, List.mem_of_find?_eq_some hfind, hp.1.1, hp.2⟩

theorem linked_backfillTier (tenantId : Uuid) (tier : Role) (hlinked : Linked db) :
    Linked (backfillTier tenantId db tier) ∧
      (backfillTier tenantId db tier).tenants = db.tenants := by
  unfold backfillTier
  split
  · exact ⟨hlinked, rfl⟩
  · next r hsystem =>
      obtain ⟨-, -, hr, htenant, -⟩ := systemRoleOf_eq_some hsystem
      refine ⟨⟨fun m' hm' id hid => ?_, hlinked.tenants⟩, rfl⟩
      obtain ⟨m, hm, rfl⟩ := List.mem_map.mp hm'
      split_ifs at hid ⊢ with hbare
      · cases hid
        rw [Bool.and_eq_true, Bool.and_eq_true, beq_iff_eq] at hbare
        exact ⟨r, Table.find?_key hr, htenant.trans hbare.1.1.symm⟩
      · exact hlinked.roleIds m hm id hid

theorem roles_backfillTier (db : RbacDb) : (backfillTier tenantId db tier).roles = db.roles := by
  unfold backfillTier
  split <;> rfl

theorem keeps_backfillTier (tenantId : Uuid) (tier : Role) (hsettled : Settled db) :
    Keeps db (backfillTier tenantId db tier) ∧ Settled (backfillTier tenantId db tier) := by
  refine ⟨?_, ⟨fun r hr => hsettled.seeded r (roles_backfillTier db ▸ hr),
    (linked_backfillTier tenantId tier hsettled.linked).1⟩⟩
  unfold backfillTier
  split
  · exact .refl db
  · next r hsystem =>
      obtain ⟨roleKey, hkey, hr, -, hroleKey⟩ := systemRoleOf_eq_some hsystem
      have hlist : r.permissions = defaultPermissionsForTier tier :=
        tier_seed hkey (hroleKey ▸ hsettled.seeded r hr)
      refine ⟨fun r hr => ⟨r, hr, rfl, rfl⟩, fun m hm => ⟨_, List.mem_map_of_mem hm, ?_, ?_⟩⟩
      · split_ifs <;> rfl
      · split_ifs with hbare
        · -- a member without a role had the list of its tier, and the role has the same
          rw [Bool.and_eq_true, Bool.and_eq_true, beq_iff_eq, beq_iff_eq,
            Option.isNone_iff_eq_none] at hbare
          have hold : roleRefPermissions db m = none := by
            unfold roleRefPermissions
            rw [hbare.2]
            rfl
          have hnew : roleRefPermissions (db.setMemberships (db.tree.memberships.updateWhere
              (fun m => m.tenantId == tenantId && m.role == tier && m.roleId.isNone)
              (withRoleId r.id) (keepsIndexes_withRoleId r.id))) (withRoleId r.id m) =
              some (defaultPermissionsForTier tier) := by
            rw [← hlist]
            exact congrArg (Option.map TenantRoleRow.permissions) (Table.find?_key hr)
          rw [permissionsFor_eq, permissionsFor_eq, hold, hnew]
          change (if Auth.roleRefControls m.role then _ else defaultPermissionsForTier m.role) = _
          rw [hbare.1.2]
          rfl
        · exact permissionsFor_congr rfl rfl

end Statements

/-! ## A start from seeded lists -/

section Start

variable {P : RbacDb → Prop} {db : RbacDb} {draws : StartDraws}

theorem upToFailure_induction {α : Type} {f : RbacDb → α → Except RbacError RbacDb} {as : List α}
    (hf : ∀ a ∈ as, ∀ db db', P db → f db a = .ok db' → P db') (h : P db) :
    P (upToFailure f as db).1 := by
  induction as generalizing db with
  | nil => exact h
  | cons a as ih =>
      unfold upToFailure
      cases hstep : f db a with
      | error e => exact h
      | ok db' =>
          exact ih (fun b hb => hf b (List.mem_cons_of_mem _ hb))
            (hf a List.mem_cons_self db db' h hstep)

/-- What each statement keeps, a start keeps, however far it gets. -/
theorem start_induction
    (hupsert : ∀ t ∈ db.tenants, ∀ s ∈ SYSTEM_ROLES, ∀ db₁ db₂, P db₁ →
      upsertSystemRole t.id (draws t.id) db₁ s = .ok db₂ → P db₂)
    (hbackfill : ∀ tenantId tier db₁, P db₁ → P (backfillTier tenantId db₁ tier)) (h : P db) :
    P (onModuleInit draws db) := by
  have hall : ∀ (rest : List TenantRow) (db' : RbacDb), (∀ t ∈ rest, t ∈ db.tenants) → P db' →
      P (startTenants draws rest db') := by
    intro rest
    induction rest with
    | nil => exact fun _ _ h => h
    | cons t rest ih =>
        intro db' hrest h'
        have hensure : P (ensureSystemRoles t.id (draws t.id) db').1 :=
          upToFailure_induction (hupsert t (hrest t List.mem_cons_self)) h'
        unfold startTenants startTenant
        obtain ⟨⟨db₁, completed⟩, heq⟩ :
            ∃ r, r = ensureSystemRoles t.id (draws t.id) db' := ⟨_, rfl⟩
        rw [← heq] at hensure ⊢
        cases completed with
        | false => exact hensure
        | true =>
            refine ih _ (fun u hu => hrest u (List.mem_cons_of_mem _ hu)) ?_
            unfold backfillMembershipRoles
            exact List.foldlRecOn mappedTiers _ hensure fun db₂ h₂ tier _ =>
              hbackfill t.id tier db₂ h₂
  exact hall db.tenants db (fun t ht => ht) h

theorem linked_onModuleInit (draws : StartDraws) (h : Linked db) :
    Linked (onModuleInit draws db) ∧ (onModuleInit draws db).tenants = db.tenants := by
  refine start_induction (P := fun db' => Linked db' ∧ db'.tenants = db.tenants)
    (fun t ht s hs db₁ db₂ h₁ hstep => ?_) (fun tenantId tier db₁ h₁ => ?_) ⟨h, rfl⟩
  · have hupserted := upserted hstep
    exact ⟨hupserted.linked h₁.1 (List.mem_map_of_mem (h₁.2.symm ▸ ht)),
      hupserted.tenants.trans h₁.2⟩
  · obtain ⟨hlinked, htenants⟩ := linked_backfillTier tenantId tier h₁.1
    exact ⟨hlinked, htenants.trans h₁.2⟩

/-- A start keeps the seeded lists and what the members may do. -/
theorem keeps_onModuleInit (draws : StartDraws) (h : Settled db) :
    Keeps db (onModuleInit draws db) ∧ Settled (onModuleInit draws db) := by
  have hall : (Keeps db (onModuleInit draws db) ∧ Settled (onModuleInit draws db)) ∧
      (onModuleInit draws db).tenants = db.tenants := by
    refine start_induction (P := fun db' => (Keeps db db' ∧ Settled db') ∧ db'.tenants = db.tenants)
      (fun t ht s hs db₁ db₂ h₁ hstep => ?_) (fun tenantId tier db₁ h₁ => ?_) ⟨⟨.refl db, h⟩, rfl⟩
    · have hupserted := upserted hstep
      obtain ⟨hkeeps, hsettled⟩ :=
        hupserted.keeps hs h₁.1.2 (List.mem_map_of_mem (h₁.2.symm ▸ ht))
      exact ⟨⟨h₁.1.1.trans hkeeps, hsettled⟩, hupserted.tenants.trans h₁.2⟩
    · obtain ⟨hkeeps, hsettled⟩ := keeps_backfillTier tenantId tier h₁.1.2
      exact ⟨⟨h₁.1.1.trans hkeeps, hsettled⟩,
        (linked_backfillTier tenantId tier h₁.1.2.linked).2.trans h₁.2⟩
  exact hall.1

end Start

/-! ## A start from any lists -/

/-- The identifiers that a start draws are unused and different. -/
structure Fresh (draws : StartDraws) (db : RbacDb) : Prop where
  unused : ∀ t ∈ db.tenants, ∀ s ∈ SYSTEM_ROLES, ∀ r ∈ db.roles, r.id ≠ draws t.id s.roleKey
  distinct : ∀ t ∈ db.tenants, ∀ t' ∈ db.tenants, ∀ s ∈ SYSTEM_ROLES, ∀ s' ∈ SYSTEM_ROLES,
    draws t.id s.roleKey = draws t'.id s'.roleKey → t.id = t'.id ∧ s.roleKey = s'.roleKey

/-- A role under the key of a system role has the seeded list. -/
def Holds (tenantId : Uuid) (s : SystemRoleSeed) (db : RbacDb) : Prop :=
  ∃ r ∈ db.roles, r.tenantId = tenantId ∧ r.roleKey = s.roleKey ∧ r.permissions = s.permissions

/-- How far a start has come. -/
structure Started (draws : StartDraws) (db₀ db : RbacDb) : Prop where
  kept : ∀ r ∈ db₀.roles, ∃ r' ∈ db.roles, r'.id = r.id ∧ r'.tenantId = r.tenantId ∧
    r'.roleKey = r.roleKey
  origin : ∀ r ∈ db.roles, (∃ r₀ ∈ db₀.roles, r₀.id = r.id) ∨ ∃ t ∈ db₀.tenants,
    ∃ s ∈ SYSTEM_ROLES, r.id = draws t.id s.roleKey ∧ r.tenantId = t.id ∧ r.roleKey = s.roleKey

section Started

variable {draws : StartDraws} {db₀ db db' : RbacDb} {t : TenantRow} {s s' : SystemRoleSeed}
  {tenantId : Uuid}

theorem Upserted.holds {newId : String → Uuid} (h : Upserted tenantId newId s db db')
    (hs : s ∈ SYSTEM_ROLES) (hs' : s' ∈ SYSTEM_ROLES) {tenantId' : Uuid}
    (hholds : Holds tenantId' s' db) : Holds tenantId' s' db' := by
  obtain ⟨r, hr, htenant, hkey, hlist⟩ := hholds
  have hgives : GivesSeed r.roleKey r.permissions := by
    rw [hkey, hlist]
    exact seed_gives hs'
  refine ⟨_, h.kept r hr, ?_, ?_, ?_⟩
  · rw [rewritten_tenantId, htenant]
  · rw [rewritten_roleKey, hkey]
  · rw [rewritten_permissions hs hgives, hlist]

theorem Started.upsert (hfresh : Fresh draws db₀) (h : Started draws db₀ db)
    (ht : t ∈ db₀.tenants) (hs : s ∈ SYSTEM_ROLES) :
    ∃ db', upsertSystemRole t.id (draws t.id) db s = .ok db' ∧ Started draws db₀ db' := by
  have hexists : ∃ db', upsertSystemRole t.id (draws t.id) db s = .ok db' := by
    unfold upsertSystemRole
    cases hfind : roleByKey db t.id s.roleKey with
    | some r => exact ⟨_, rfl⟩
    | none =>
        have hnone : ∀ r ∈ db.roles, ¬(r.tenantId = t.id ∧ r.roleKey = s.roleKey) :=
          fun r hr => roleByKey_eq_none hfind hr
        obtain ⟨roles, hinsert⟩ := Table.exists_insert? (t := db.roles)
          (r := s.row t.id (draws t.id s.roleKey)) fun r hr => by
            refine ⟨fun hid => ?_, ?_⟩
            · rcases h.origin r hr with ⟨r₀, hr₀, hid₀⟩ | ⟨t', ht', s', hs', hid', htenant, hkey⟩
              · exact hfresh.unused t ht s hs r₀ hr₀ (hid₀.trans hid)
              · obtain ⟨htt, hss⟩ := hfresh.distinct t' ht' t ht s' hs' s hs (hid'.symm.trans hid)
                exact hnone r hr ⟨htenant.trans htt, hkey.trans hss⟩
            · refine Bool.eq_false_iff.mpr fun hclash => hnone r hr ?_
              have hsame := Bool.and_eq_true_iff.mp hclash
              exact ⟨beq_iff_eq.mp hsame.1, beq_iff_eq.mp hsame.2⟩
        exact ⟨{ db with roles }, by rw [hinsert]⟩
  obtain ⟨db', hupsert⟩ := hexists
  have hupserted := upserted hupsert
  refine ⟨db', hupsert, fun r hr => ?_, fun r' hr' => ?_⟩
  · obtain ⟨r', hr', hid, htenant, hkey⟩ := h.kept r hr
    refine ⟨_, hupserted.kept r' hr', ?_, ?_, ?_⟩
    · rw [rewritten_id, hid]
    · rw [rewritten_tenantId, htenant]
    · rw [rewritten_roleKey, hkey]
  · rcases hupserted.old r' hr' with ⟨r, hr, rfl⟩ | rfl
    · rw [rewritten_id, rewritten_tenantId, rewritten_roleKey]
      exact h.origin r hr
    · exact .inr ⟨t, ht, s, hs, rfl, rfl, rfl⟩

theorem Started.ensure (hfresh : Fresh draws db₀) (h : Started draws db₀ db)
    (ht : t ∈ db₀.tenants) {seeds : List SystemRoleSeed} (hseeds : ∀ s ∈ seeds, s ∈ SYSTEM_ROLES) :
    ∃ db', upToFailure (upsertSystemRole t.id (draws t.id)) seeds db = (db', true) ∧
      Started draws db₀ db' ∧ (∀ s ∈ seeds, Holds t.id s db') ∧
      ∀ tenantId, ∀ s ∈ SYSTEM_ROLES, Holds tenantId s db → Holds tenantId s db' := by
  induction seeds generalizing db with
  | nil => exact ⟨db, rfl, h, nofun, fun _ _ _ h => h⟩
  | cons s seeds ih =>
      have hs := hseeds s List.mem_cons_self
      obtain ⟨db₁, hupsert, hstarted⟩ := h.upsert hfresh ht hs
      obtain ⟨db', hrest, hstarted', hholds, hkept⟩ :=
        ih hstarted fun s' hs' => hseeds s' (List.mem_cons_of_mem _ hs')
      have hupserted := upserted hupsert
      refine ⟨db', ?_, hstarted', fun s' hs' => ?_, fun tenantId s' hs' hold => ?_⟩
      · unfold upToFailure
        rw [hupsert]
        exact hrest
      · rcases List.mem_cons.mp hs' with rfl | hs'
        · exact hkept t.id s' hs hupserted.seeded
        · exact hholds s' hs'
      · exact hkept tenantId s' hs' (hupserted.holds hs hs' hold)

theorem roles_backfill : (backfillMembershipRoles tenantId db).roles = db.roles := by
  unfold backfillMembershipRoles
  exact List.foldlRecOn (motive := fun db' : RbacDb => db'.roles = db.roles) mappedTiers _ rfl
    fun _ h _ _ => (roles_backfillTier _).trans h

/-- A start that draws fresh identifiers gets to its end. -/
theorem Started.all (hfresh : Fresh draws db₀) (h : Started draws db₀ db) {rest : List TenantRow}
    (hrest : ∀ t ∈ rest, t ∈ db₀.tenants) :
    Started draws db₀ (startTenants draws rest db) ∧
      (∀ t ∈ rest, ∀ s ∈ SYSTEM_ROLES, Holds t.id s (startTenants draws rest db)) ∧
      ∀ tenantId, ∀ s ∈ SYSTEM_ROLES, Holds tenantId s db →
        Holds tenantId s (startTenants draws rest db) := by
  induction rest generalizing db with
  | nil => exact ⟨h, nofun, fun _ _ _ h => h⟩
  | cons t rest ih =>
      obtain ⟨db₁, hensure, hstarted, hholds, hkept⟩ :=
        h.ensure hfresh (hrest t List.mem_cons_self) fun s hs => hs
      have hroles : (backfillMembershipRoles t.id db₁).roles = db₁.roles := roles_backfill
      have hstarted' : Started draws db₀ (backfillMembershipRoles t.id db₁) := by
        refine ⟨fun r hr => ?_, fun r hr => ?_⟩
        · rw [hroles]
          exact hstarted.kept r hr
        · exact hstarted.origin r (hroles ▸ hr)
      have hsame : ∀ tenantId s, Holds tenantId s db₁ →
          Holds tenantId s (backfillMembershipRoles t.id db₁) := by
        intro tenantId s hold
        unfold Holds
        rw [hroles]
        exact hold
      obtain ⟨hend, hthen, hstays⟩ := ih hstarted' fun u hu => hrest u (List.mem_cons_of_mem _ hu)
      have hstart : startTenants draws (t :: rest) db =
          startTenants draws rest (backfillMembershipRoles t.id db₁) := by
        simp only [startTenants, startTenant, ensureSystemRoles, hensure]
      rw [hstart]
      refine ⟨hend, fun u hu s hs => ?_, fun tenantId s hs hold =>
        hstays tenantId s hs (hsame tenantId s (hkept tenantId s hs hold))⟩
      rcases List.mem_cons.mp hu with rfl | hu
      · exact hstays u.id s hs (hsame u.id s (hholds s hs))
      · exact hthen u hu s hs

/-- A start that changes no list has found the seeded ones. -/
theorem seeded_of_keeps (hlinked : Linked db) (hfresh : Fresh draws db)
    (h : Keeps db (onModuleInit draws db)) : Seeded db := by
  have hbegin : Started draws db db :=
    ⟨fun r hr => ⟨r, hr, rfl, rfl, rfl⟩, fun r hr => .inl ⟨r, hr, rfl⟩⟩
  obtain ⟨hstarted, hholds, -⟩ := hbegin.all hfresh fun t ht => ht
  intro r hr s hs hkey
  obtain ⟨t, ht, htenant⟩ := List.mem_map.mp (hlinked.tenants r hr)
  obtain ⟨seed, hseed, hseedTenant, hseedKey, hlist⟩ := hholds t ht s hs
  obtain ⟨r', hr', hid, htenant', hkey'⟩ := hstarted.kept r hr
  obtain ⟨r'', hr'', hid', hlist'⟩ := h.roles r hr
  have hsame : r'' = r' := Table.eq_of_key hr'' hr' (hid'.trans hid.symm)
  have hseed' : r' = seed := eq_of_keys hr' hseed
    ((htenant'.trans htenant.symm).trans hseedTenant.symm)
    ((hkey'.trans hkey.symm).trans hseedKey.symm)
  rw [← hlist', hsame, hseed', hlist]

end Started

/-! ## Runs -/

/-- The step gives no role under the key of a system role another list. -/
def KeepsSeeds (t : CaseTable) : RbacStep → RbacDb → Prop
  | .createRole actor input actorPerms id, db =>
      (∀ p ∈ input.permissions, p ∈ actorPerms) → actor.tenantId ∈ db.tenants.map TenantRow.id →
        (∀ r ∈ db.roles, r.id ≠ id) → ∀ roleKey,
          uniqueKey t db actor.tenantId input.name = some roleKey →
            GivesSeed roleKey input.permissions
  | .updateRole actor roleId input actorPerms, db =>
      ∀ permissions, input.permissions = some permissions → (∀ p ∈ permissions, p ∈ actorPerms) →
        ∀ r, findRole db actor.tenantId roleId = some r →
          ¬(r.isSystem = true ∧ r.roleKey = "owner") → GivesSeed r.roleKey permissions
  | _, _ => True

section Steps

variable {t : CaseTable} {db db' : RbacDb} {actor : ActorContext} {actorPerms : List String}
  {id roleId : Uuid}

theorem Linked.restaffed {tenantId : Uuid} {permissions : List String} (h : Linked db)
    (hmembers : Restaffed db db' tenantId permissions) : Linked db' where
  roleIds _ hm id hid := hmembers.roles ▸ (hmembers.within h hm).linked id hid
  tenants r hr := hmembers.tenants ▸ h.tenants r (hmembers.roles ▸ hr)

theorem Linked.admitted {tenantId : Uuid} {permissions : List String} (h : Linked db)
    (hadmitted : Admitted db db' tenantId permissions) : Linked db' where
  roleIds m hm id hid := by
    obtain ⟨m', hrows, -, -, -, hwithin⟩ := hadmitted.members
    rw [hadmitted.roles]
    rw [Table.mem_def, hrows] at hm
    rcases List.mem_append.mp hm with hm | hm
    · exact h.roleIds m hm id hid
    · cases List.mem_singleton.mp hm
      exact hwithin.linked id hid
  tenants r hr := hadmitted.tenants ▸ h.tenants r (hadmitted.roles ▸ hr)

theorem linked_createRole {input : CreateRoleInput} (h : Linked db)
    (hcreate : createRole t db actor input actorPerms id = .ok db') : Linked db' := by
  obtain ⟨-, htenant, roleKey, roles, -, hinsert, rfl⟩ := createRole_eq_ok.mp hcreate
  refine ⟨fun m hm roleId hid => ?_, fun r hr => ?_⟩
  · obtain ⟨r, hr, hown⟩ := h.roleIds m hm roleId hid
    exact ⟨r, Table.find?_insert? hinsert hr, hown⟩
  · rcases (Table.mem_insert? hinsert).mp hr with hr | rfl
    · exact h.tenants r hr
    · exact htenant

theorem mem_updateRole {input : UpdateRoleInput} {r' : TenantRoleRow} :
    r' ∈ db.roles.updateKey roleId input.apply input.keepsIndexes ↔
      ∃ r ∈ db.roles, (if r.id = roleId then input.apply r else r) = r' := by
  rw [Table.mem_def, Table.rows_updateKey, List.mem_map]
  exact Iff.rfl

theorem linked_updateRole {input : UpdateRoleInput} (h : Linked db)
    (hupdate : updateRole db actor roleId input actorPerms = .ok db') : Linked db' := by
  obtain ⟨-, r, -, -, rfl⟩ := updateRole_eq_ok.mp hupdate
  refine ⟨fun m hm id hid => ?_, fun r' hr' => ?_⟩
  · obtain ⟨r, hr, hown⟩ := h.roleIds m hm id hid
    refine ⟨_, (Table.find?_updateKey _ _ _ input.keepsIndexes id).trans
      (congrArg (Option.map _) hr), ?_⟩
    dsimp only
    split_ifs
    · exact hown
    · exact hown
  · obtain ⟨r, hr, rfl⟩ := mem_updateRole.mp hr'
    split_ifs
    · exact h.tenants r hr
    · exact h.tenants r hr

theorem linked_deleteRole (h : Linked db) (hdelete : deleteRole db actor roleId = .ok db') :
    Linked db' := by
  obtain ⟨r, -, -, htenants, hroles, hnone, hrows⟩ := deleteRole_eq_ok hdelete
  refine ⟨fun m hm id hid => ?_, fun r' hr' => ?_⟩
  · have hm' : m ∈ db.tree.memberships := by
      rw [Table.mem_def] at hm ⊢
      exact hrows ▸ hm
    obtain ⟨r', hr', hown⟩ := h.roleIds m hm' id hid
    obtain ⟨hmem, hkey⟩ := Table.find?_eq_some.mp hr'
    refine ⟨r', Table.find?_eq_some.mpr ⟨?_, hkey⟩, hown⟩
    rw [hroles]
    refine Table.mem_filter.mpr ⟨hmem, bne_iff_ne.mpr fun heq => ?_⟩
    exact hnone m hm' (hid.trans (congrArg some (hkey.symm.trans heq)))
  · rw [hroles] at hr'
    rw [htenants]
    exact h.tenants r' (Table.mem_filter.mp hr').1

theorem apply_of_ok {step : RbacStep} (h : step.perform t db = .ok db') :
    step.apply t db = db' := by
  unfold RbacStep.apply
  rw [h]

theorem apply_of_error {step : RbacStep} {e : RbacError} (h : step.perform t db = .error e) :
    step.apply t db = db := by
  unfold RbacStep.apply
  rw [h]

theorem linked_step (h : Linked db) (step : RbacStep) : Linked (step.apply t db) := by
  cases hperform : step.perform t db with
  | error e =>
      rw [apply_of_error hperform]
      exact h
  | ok db' =>
      rw [apply_of_ok hperform]
      cases step with
      | createRole => exact linked_createRole h hperform
      | updateRole => exact linked_updateRole h hperform
      | deleteRole => exact linked_deleteRole h hperform
      | assignRole => exact h.restaffed (restaffed_assignRole h hperform)
      | setRole =>
          obtain ⟨_, -, hmembers⟩ := setRole_eq_ok h hperform
          exact h.restaffed hmembers
      | bulk =>
          obtain ⟨_, hmembers, -⟩ := bulk_eq_ok h hperform
          exact h.restaffed hmembers
      | createManual =>
          obtain ⟨_, hadmitted, -⟩ := createManual_eq_ok hperform
          exact h.admitted hadmitted
      | join => exact h.admitted (join_eq_ok hperform)
      | start draws =>
          cases hperform
          exact (linked_onModuleInit draws h).1

theorem seeded_of_roles (h : db'.roles = db.roles) : Seeded db' ↔ Seeded db := by
  unfold Seeded
  rw [h]

/-- A creation that meets all its checks is not refused. -/
theorem keepsSeeds_of_createRole_error {input : CreateRoleInput} {e : RbacError}
    (hcreate : createRole t db actor input actorPerms id = .error e) :
    KeepsSeeds t (.createRole actor input actorPerms id) db := by
  intro hgrant htenant hfresh roleKey hkey
  have hnone : roleByKey db actor.tenantId roleKey = none := by
    have hfree := List.find?_some hkey
    rwa [Option.isNone_iff_eq_none] at hfree
  obtain ⟨roles, hinsert⟩ := Table.exists_insert? (t := db.roles)
    (r := input.row actor.tenantId id roleKey) fun r hr => by
      refine ⟨hfresh r hr, Bool.eq_false_iff.mpr fun hclash => roleByKey_eq_none hnone hr ?_⟩
      have hsame := Bool.and_eq_true_iff.mp hclash
      exact ⟨beq_iff_eq.mp hsame.1, beq_iff_eq.mp hsame.2⟩
  have hok := createRole_eq_ok.mpr ⟨hgrant, htenant, roleKey, roles, hkey, hinsert, rfl⟩
  rw [hcreate] at hok
  cases hok

theorem seeded_createRole_iff (h : Seeded db) {input : CreateRoleInput}
    (hcreate : createRole t db actor input actorPerms id = .ok db') :
    Seeded db' ↔ KeepsSeeds t (.createRole actor input actorPerms id) db := by
  obtain ⟨hgrant, htenant, roleKey, roles, hkey, hinsert, rfl⟩ := createRole_eq_ok.mp hcreate
  constructor
  · intro hseeded _ _ _ roleKey' hkey'
    cases hkey.symm.trans hkey'
    exact hseeded _ ((Table.mem_insert? hinsert).mpr (.inr rfl))
  · intro hkeeps r hr
    rcases (Table.mem_insert? hinsert).mp hr with hr | rfl
    · exact h r hr
    · exact hkeeps hgrant htenant (fun r hr => ((Table.insert?_eq_some.mp hinsert).1 r hr).1)
        roleKey hkey

theorem keepsSeeds_of_updateRole_error {input : UpdateRoleInput} {e : RbacError}
    (hupdate : updateRole db actor roleId input actorPerms = .error e) :
    KeepsSeeds t (.updateRole actor roleId input actorPerms) db := by
  intro permissions hinput hgrant r hfind howner
  have hgrant' : ∀ p ∈ input.permissions.getD [], p ∈ actorPerms := by
    rw [hinput]
    exact hgrant
  have hok := updateRole_eq_ok.mpr ⟨hgrant', r, hfind, howner, rfl⟩
  rw [hupdate] at hok
  cases hok

theorem seeded_updateRole_iff (h : Seeded db) {input : UpdateRoleInput}
    (hupdate : updateRole db actor roleId input actorPerms = .ok db') :
    Seeded db' ↔ KeepsSeeds t (.updateRole actor roleId input actorPerms) db := by
  obtain ⟨hgrant, r, hfind, howner, rfl⟩ := updateRole_eq_ok.mp hupdate
  obtain ⟨hr, hid⟩ := Table.find?_eq_some.mp (findRole_eq_some.mp hfind).1
  constructor
  · intro hseeded permissions hinput _ r' hfind' _
    cases hfind.symm.trans hfind'
    have hgives := hseeded _ (mem_updateRole.mpr ⟨r, hr, if_pos hid⟩)
    unfold UpdateRoleInput.apply at hgives
    rw [hinput] at hgives
    exact hgives
  · intro hkeeps r' hr'
    obtain ⟨x, hx, rfl⟩ := mem_updateRole.mp hr'
    split_ifs with hkey
    · have hsame : x = r := Table.eq_of_key hx hr (hkey.trans hid.symm)
      rw [hsame]
      unfold UpdateRoleInput.apply
      cases hinput : input.permissions with
      | none => exact h r hr
      | some permissions =>
          rw [hinput] at hgrant
          exact hkeeps permissions hinput hgrant r hfind howner
    · exact h x hx

/-- A step leaves the seeded lists where they are if and only if it gives no other. -/
theorem seeded_step_iff (h : Settled db) (step : RbacStep) :
    Seeded (step.apply t db) ↔ KeepsSeeds t step db := by
  cases hperform : step.perform t db with
  | error e =>
      rw [apply_of_error hperform]
      refine iff_of_true h.seeded ?_
      cases step with
      | createRole => exact keepsSeeds_of_createRole_error hperform
      | updateRole => exact keepsSeeds_of_updateRole_error hperform
      | _ => trivial
  | ok db' =>
      rw [apply_of_ok hperform]
      cases step with
      | createRole => exact seeded_createRole_iff h.seeded hperform
      | updateRole => exact seeded_updateRole_iff h.seeded hperform
      | deleteRole =>
          obtain ⟨-, -, -, -, hroles, -⟩ := deleteRole_eq_ok hperform
          exact iff_of_true (fun r hr => h.seeded r (Table.mem_filter.mp (hroles ▸ hr)).1) trivial
      | assignRole =>
          have hmembers := restaffed_assignRole h.linked hperform
          exact iff_of_true ((seeded_of_roles hmembers.roles).mpr h.seeded) trivial
      | setRole =>
          obtain ⟨_, -, hmembers⟩ := setRole_eq_ok h.linked hperform
          exact iff_of_true ((seeded_of_roles hmembers.roles).mpr h.seeded) trivial
      | bulk =>
          obtain ⟨_, hmembers, -⟩ := bulk_eq_ok h.linked hperform
          exact iff_of_true ((seeded_of_roles hmembers.roles).mpr h.seeded) trivial
      | createManual =>
          obtain ⟨_, hadmitted, -⟩ := createManual_eq_ok hperform
          exact iff_of_true ((seeded_of_roles hadmitted.roles).mpr h.seeded) trivial
      | join =>
          have hadmitted := join_eq_ok hperform
          exact iff_of_true ((seeded_of_roles hadmitted.roles).mpr h.seeded) trivial
      | start draws =>
          cases hperform
          exact iff_of_true (keeps_onModuleInit draws h).2.seeded trivial

end Steps

/-- Before any role exists. -/
structure Initial (db : RbacDb) : Prop where
  roles : db.roles.rows = []
  members : ∀ m ∈ db.tree.memberships, m.roleId = none

/-- Any number of starts leaves every list and what every member may do. -/
def RestartsKeep (db : RbacDb) : Prop :=
  ∀ starts : List StartDraws, Keeps db (starts.foldl (fun db draws => onModuleInit draws db) db)

theorem settled_initial {db : RbacDb} (h : Initial db) : Settled db where
  seeded r hr := by
    rw [Table.mem_def, h.roles] at hr
    cases hr
  linked :=
    { roleIds := fun m hm id hid => by
        rw [h.members m hm] at hid
        cases hid
      tenants := fun r hr => by
        rw [Table.mem_def, h.roles] at hr
        cases hr }

theorem restartsKeep_of_settled {db : RbacDb} (h : Settled db) : RestartsKeep db := by
  intro starts
  have hall : Keeps db (starts.foldl (fun db draws => onModuleInit draws db) db) ∧
      Settled (starts.foldl (fun db draws => onModuleInit draws db) db) :=
    List.foldlRecOn (motive := fun db' => Keeps db db' ∧ Settled db') starts _ ⟨.refl db, h⟩
      fun db' h' draws _ =>
        ⟨h'.1.trans (keeps_onModuleInit draws h'.2).1, (keeps_onModuleInit draws h'.2).2⟩
  exact hall.1

namespace Demo

def owner : MembershipRow :=
  ⟨1, 1, 10, .tenantOwner, none, none, "OWNER", "1", 0, .active, true, 0⟩

def staff : MembershipRow :=
  ⟨2, 1, 11, .tenantStaff, none, some 1, "STAFF", "1.2", 1, .active, false, 0⟩

/-- A company before its first start. -/
def company : RbacDb where
  tenants := [⟨1, .active⟩]
  roles := .empty
  tree := ⟨⟨[owner, staff], by decide, by decide⟩, .empty⟩
  apiKeys := .empty
  platformAdmins := []
  payouts := []
  auditLogs := []

/-- The identifiers from `n` on, in the order of the system roles. -/
def drawsFrom (n : Uuid) : StartDraws := fun _ roleKey =>
  if roleKey = "owner" then n
  else if roleKey = "admin" then n + 1
  else if roleKey = "finance" then n + 2
  else if roleKey = "support" then n + 3
  else n + 4

/-- The owner takes every permission away from the support role. -/
def edited : List RbacStep :=
  [.start (drawsFrom 100),
    .updateRole ⟨10, 1⟩ 103 ⟨none, none, none, some []⟩ Auth.ALL_PERMISSIONS]

theorem initial : Initial company := ⟨rfl, by decide⟩

theorem fresh : Fresh (drawsFrom 100) company := ⟨by decide, by decide⟩

theorem fresh_again : Fresh (drawsFrom 200) (onModuleInit (drawsFrom 100) company) :=
  ⟨by decide, by decide⟩

end Demo

/-- In every state of a run, restarts change no permission if and only if no step of the run has
given a role under the key of a system role another list. -/
theorem permissions_survive_restarts_iff (t : CaseTable) {db : RbacDb} (hinit : Initial db)
    (steps : List RbacStep)
    (hfresh : ∀ pre post, steps = pre ++ post →
      ∃ draws, Fresh draws (run (RbacStep.apply t) pre db)) :
    (∀ pre post, steps = pre ++ post → RestartsKeep (run (RbacStep.apply t) pre db)) ↔
      Throughout (RbacStep.apply t) (KeepsSeeds t) steps db := by
  have hsettled : Settled db := settled_initial hinit
  clear hinit
  induction steps generalizing db with
  | nil =>
      refine iff_of_true (fun pre post h => ?_) trivial
      rw [(List.append_eq_nil_iff.mp h.symm).1]
      exact restartsKeep_of_settled hsettled
  | cons step steps ih =>
      have hlinked := linked_step (t := t) hsettled.linked step
      have hrest : ∀ pre post, steps = pre ++ post →
          ∃ draws, Fresh draws (run (RbacStep.apply t) pre (step.apply t db)) :=
        fun pre post h => hfresh (step :: pre) post (congrArg (List.cons step) h)
      constructor
      · intro hkeep
        obtain ⟨draws, hdraws⟩ := hrest [] steps rfl
        have hafter := hkeep [step] steps rfl [draws]
        have hseeded : Seeded (step.apply t db) := seeded_of_keeps hlinked hdraws hafter
        exact ⟨(seeded_step_iff hsettled step).mp hseeded,
          (ih hrest ⟨hseeded, hlinked⟩).mp fun pre post h =>
            hkeep (step :: pre) post (congrArg (List.cons step) h)⟩
      · rintro ⟨hstep, hthroughout⟩ pre post h
        cases pre with
        | nil => exact restartsKeep_of_settled hsettled
        | cons first pre =>
            obtain ⟨rfl, hpost⟩ := List.cons.inj h
            have hseeded := (seeded_step_iff hsettled step).mpr hstep
            exact (ih hrest ⟨hseeded, hlinked⟩).mpr hthroughout pre post hpost

theorem permissions_survive_restarts_seeded :
    RestartsKeep (run (RbacStep.apply Sanctions.Demo.caseTable) [.start (Demo.drawsFrom 100)]
      Demo.company) := by
  refine (permissions_survive_restarts_iff Sanctions.Demo.caseTable Demo.initial
    [.start (Demo.drawsFrom 100)] fun pre post h => ?_).mpr ⟨trivial, trivial⟩
    [.start (Demo.drawsFrom 100)] [] rfl
  cases pre with
  | nil => exact ⟨_, Demo.fresh⟩
  | cons step pre =>
      obtain ⟨rfl, hpost⟩ := List.cons.inj h
      rw [(List.append_eq_nil_iff.mp hpost.symm).1]
      exact ⟨_, Demo.fresh_again⟩

/-- A restart gives the support role its permissions back. -/
theorem not_permissions_survive_restarts : ¬∀ pre post, Demo.edited = pre ++ post →
    RestartsKeep (run (RbacStep.apply Sanctions.Demo.caseTable) pre Demo.company) := by
  intro h
  have hkeep := h Demo.edited [] (List.append_nil _).symm [Demo.drawsFrom 200]
  have hedited : ∃ r ∈ (run (RbacStep.apply Sanctions.Demo.caseTable) Demo.edited
      Demo.company).roles, r.id = 103 ∧ r.permissions = [] := by decide
  obtain ⟨r, hr, hid, hlist⟩ := hedited
  obtain ⟨r', hr', hid', hlist'⟩ := hkeep.roles r hr
  have hrestored : ¬∃ r' ∈ (onModuleInit (Demo.drawsFrom 200) (run (RbacStep.apply
      Sanctions.Demo.caseTable) Demo.edited Demo.company)).roles,
      r'.id = 103 ∧ r'.permissions = [] := by decide
  exact hrestored ⟨r', hr', hid'.trans hid, hlist'.trans hlist⟩

end Refearn.Rbac
