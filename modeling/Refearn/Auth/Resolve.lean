import Refearn.Auth.Invites
/-!
# Resolving an invite

`InvitesService.resolve`: what the registration page shows of an invite before anybody has signed
in.
-/

namespace Refearn.Auth

open Support

structure ResolvedInvite where
  displayName : String
  programSummary : String
  disclaimerVersion : String
  locale : String
  expiresAt : Instant

/-- `InviteResolveDto` -/
inductive InviteResolution
  | invalid
  | used
  | revoked
  | expired
  | tenantSuspended
  | valid (invite : ResolvedInvite)

/-- The plan that the page shows: the newest effective one by the query of `resolve`. -/
def shownPlan (db : AuthDb) (tenantId : Uuid) (now : Instant) : Option CommissionPlan :=
  let effective := db.directory.plans.rows.filter fun plan =>
    plan.tenantId == tenantId && decide (plan.effectiveFrom ≤ now)
  (effective.insertionSort fun p q =>
    q.effectiveFrom < p.effectiveFrom ∨ (q.effectiveFrom = p.effectiveFrom ∧
      (q.createdAt < p.createdAt ∨ (q.createdAt = p.createdAt ∧ q.id ≤ p.id)))).head?

/-- What is shown of an invite that is still open. -/
def resolveOpen (env : AuthEnv) (db : AuthDb) (now : Instant) (invite : Invite)
    (tenant : Tenant) : Except AuthError InviteResolution :=
  match shownPlan db invite.tenantId now with
  | none => .ok .invalid
  | some plan => do
      let consent ← createInviteConsentSnapshot env INVITE_DISCLAIMER_VERSION "en" tenant.name
        plan now
      pure (.valid
        { displayName := tenant.name
          programSummary := consent.programSummary
          disclaimerVersion := INVITE_DISCLAIMER_VERSION
          locale := "en"
          expiresAt := invite.expiresAt })

def resolve (env : AuthEnv) (db : AuthDb) (now : Instant) (code : String) :
    Except AuthError InviteResolution :=
  match db.invites.rows.find? fun i => i.code == code with
  | none => .ok .invalid
  | some invite =>
      match db.directory.tenants.find? invite.tenantId,
        db.memberships.find? invite.inviterMembershipId with
      | some tenant, some inviter =>
          match invite.status with
          | .used => .ok .used
          | .revoked => .ok .revoked
          | .expired => .ok .expired
          | .active =>
              if invite.expiresAt ≤ now then .ok .expired
              else if tenant.status = .suspended then .ok .tenantSuspended
              else if inviter.status = .active then resolveOpen env db now invite tenant
              else .ok .invalid
      | _, _ => .error .recordNotFound

theorem resolveOpen_eq_valid {env : AuthEnv} {db : AuthDb} {now : Instant} {invite : Invite}
    {tenant : Tenant} {shown : ResolvedInvite}
    (h : resolveOpen env db now invite tenant = .ok (.valid shown)) :
    ∃ plan, shownPlan db invite.tenantId now = some plan ∧
      shown.programSummary = programSummary "en" tenant.name plan := by
  unfold resolveOpen at h
  cases hplan : shownPlan db invite.tenantId now with
  | none =>
      rw [hplan] at h
      cases h
  | some plan =>
      rw [hplan] at h
      have hvalid := Except.ok.inj h
      injection hvalid with heq
      exact ⟨plan, rfl, by rw [← heq]⟩

/-- The summary on the page is that of the plan found for the invite's tenant. -/
theorem resolve_eq_valid {env : AuthEnv} {db : AuthDb} {now : Instant} {code : String}
    {shown : ResolvedInvite} (h : resolve env db now code = .ok (.valid shown)) :
    ∃ invite ∈ db.invites, ∃ tenant plan, invite.code = code ∧
      db.directory.tenants.find? invite.tenantId = some tenant ∧
      shownPlan db invite.tenantId now = some plan ∧
      shown.programSummary = programSummary "en" tenant.name plan := by
  unfold resolve at h
  cases hinvite : db.invites.rows.find? fun i => i.code == code with
  | none =>
      rw [hinvite] at h
      cases h
  | some invite =>
      simp only [hinvite] at h
      cases htenant : db.directory.tenants.find? invite.tenantId with
      | none =>
          simp only [htenant] at h
          cases h
      | some tenant =>
          cases hinviter : db.memberships.find? invite.inviterMembershipId with
          | none =>
              simp only [htenant, hinviter] at h
              cases h
          | some inviter =>
              simp only [htenant, hinviter] at h
              have hcode := List.find?_some hinvite
              refine ⟨invite, List.mem_of_find?_eq_some hinvite, tenant, ?_⟩
              cases hstatus : invite.status with
              | used | revoked | expired =>
                  rw [hstatus] at h
                  cases h
              | active =>
                  rw [hstatus] at h
                  dsimp only at h
                  split_ifs at h with hexpired hsuspended hactive
                  · cases h
                  · cases h
                  · obtain ⟨plan, hplan, hshown⟩ := resolveOpen_eq_valid h
                    exact ⟨plan, beq_iff_eq.mp hcode, htenant, hplan, hshown⟩
                  · cases h

end Refearn.Auth
