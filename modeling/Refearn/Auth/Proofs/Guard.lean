import Refearn.Auth.Guard
/-!
# What the guard admits, and on whose authority

A principal that is admitted should hold, in the database of that moment, the role, the
permissions and the platform power it is admitted with. The claims of an act-as token are
the ones that the guard does not read again: its role stays when the grant has gone.
-/

namespace Refearn.Auth

open Support Support.Transaction

/-! ## Authority -/

/-- An active membership in an active tenant, in the role and with the permissions that the
database gives it. -/
def MembershipAuthority (db : AuthDb) (q : AccessTokenPayload) : Prop :=
  ∃ m ∈ db.memberships, q.mid = some m.id ∧ m.userId = q.sub ∧ membershipLive db m = true ∧
    q.tid = some m.tenantId ∧ q.role = some m.role ∧ q.perms = some (livePermissions db m)

def HoldsGrant (db : AuthDb) (userId : Uuid) : Prop :=
  ∃ user, db.users.find? userId = some user ∧ user.isPlatformAdmin = true

/-- A current platform grant that acts on an active tenant. -/
def GrantAuthority (db : AuthDb) (q : AccessTokenPayload) : Prop :=
  HoldsGrant db q.sub ∧ q.plat = some true ∧ q.mid = none ∧ q.role = some .tenantOwner ∧
    q.perms = none ∧ ∃ tid, q.tid = some tid ∧ tenantActive db tid = true

structure Authority (db : AuthDb) (q : AccessTokenPayload) : Prop where
  powers : q.role.isSome ∨ q.perms.isSome → MembershipAuthority db q ∨ GrantAuthority db q
  platform : q.plat = some true → HoldsGrant db q.sub

/-- What holds of every request that the guard admits under a credential. -/
def AdmitsOnLiveAuthority (env : AuthEnv) (db : AuthDb) (now : Instant)
    (credential : Credential) : Prop :=
  ∀ required route isGet q,
    canActivate env required db route isGet credential now = .ok (some q) →
      Authority db q ∧ (q.imp.isSome → isGet = true) ∧
        ∀ p, credential = .bearer p → ¬HoldsGrant db p.sub →
          route.platformOnly = false ∧ (p.mid = none → route.roles = [] ∧ route.permissions = [])

/-! ## Tokens -/

/-- The tokens that the repository signs. -/
inductive Minted : AccessTokenPayload → Prop
  | signed (user : User) (membership : Option ActiveMembership)
      (assurance : Option MfaAssurance) (familyId : Option Uuid) :
      Minted (signAccess user membership assurance familyId)
  | actAs (user : User) (tenant : Tenant) : Minted (actAsPayload user tenant)
  | impersonation (user : User) (m : Membership) (tenantId actorUserId : Uuid) :
      Minted (impersonationPayload user m tenantId actorUserId)

/-- A token that names a tenant and no membership. -/
def ActsAs (p : AccessTokenPayload) (tid : Uuid) : Prop := p.mid = none ∧ p.tid = some tid

/-- A token without a membership carries no powers, unless it acts as a tenant's owner. -/
theorem Minted.cases_of_mid_eq_none {p : AccessTokenPayload} (h : Minted p) (hmid : p.mid = none) :
    (p.tid = none ∧ p.role = none ∧ p.perms = none) ∨
      ((∃ tid, p.tid = some tid) ∧ p.role = some .tenantOwner ∧ p.perms = none ∧
        p.plat = some true ∧ p.imp = none) := by
  cases h with
  | signed user membership assurance familyId =>
      cases membership with
      | none => exact .inl ⟨rfl, rfl, rfl⟩
      | some m => cases hmid
  | actAs user tenant => exact .inr ⟨⟨_, rfl⟩, rfl, rfl, rfl, rfl⟩
  | impersonation user m tenantId actorUserId => cases hmid

theorem Minted.tid_of_mid {p : AccessTokenPayload} (h : Minted p) {mid : Uuid}
    (hmid : p.mid = some mid) : ∃ tid, p.tid = some tid := by
  cases h with
  | signed user membership assurance familyId =>
      cases membership with
      | none => cases hmid
      | some m => exact ⟨_, rfl⟩
  | actAs user tenant => cases hmid
  | impersonation user m tenantId actorUserId => exact ⟨_, rfl⟩

/-- An act-as token of the current generation whose grant has gone or whose tenant is not
active. -/
def StaleActAs (db : AuthDb) (p : AccessTokenPayload) : Prop :=
  ∃ tid, ActsAs p tid ∧
    (∃ user, db.users.find? p.sub = some user ∧
      hasCurrentAuthGeneration p user.authGeneration = true) ∧
    (¬HoldsGrant db p.sub ∨ tenantActive db tid = false)

/-! ## What an admission has checked -/

theorem refuseUnless_eq_ok {c : Prop} [Decidable c] {message : String} {u : Unit} :
    refuseUnless c message = .ok u ↔ c := by
  unfold refuseUnless
  split_ifs with h
  · exact ⟨fun _ => h, fun _ => rfl⟩
  · exact ⟨nofun, fun hc => absurd hc h⟩

/-- The steps of an admission: `live` and `hydrated` are the claims after the live checks and
after the membership has been read. -/
structure Admission (env : AuthEnv) (required : List Role) (db : AuthDb) (route : RouteMetadata)
    (isGet : Bool) (credential : Credential) (now : Instant) (p : Principal)
    (live hydrated : AccessTokenPayload) : Prop where
  authenticated : authenticate env db credential now = .ok p
  readOnly : (trimmedPayload p route.accountSessionOnly).imp = none ∨ isGet = true
  checked : checkLive db isGet p (trimmedPayload p route.accountSessionOnly) = .ok live
  member : route.requireMembership = false ∨ live.mid.isSome ∨
    (live.plat = some true ∧ live.tid.isSome)
  rehydrated : rehydrateMembership db live = .ok hydrated
  roles : route.roles = [] ∨ ∃ role ∈ hydrated.role, role ∈ route.roles
  platform : route.platformOnly = false ∨ (hydrated.plat = some true ∧ p.isPlatformAdmin = true)
  mfa : checkMfa required route p (dropStaleMfa p hydrated) = .ok ()
  permissions : route.permissions = [] ∨
    hasPermissions (dropStaleMfa p hydrated) route.permissions = true

section Admit

variable {env : AuthEnv} {required : List Role} {db : AuthDb} {route : RouteMetadata}
  {isGet : Bool} {credential : Credential} {now : Instant} {q : AccessTokenPayload}

theorem admit_eq_ok :
    admitRequest env required db route isGet credential now = .ok q ↔
      ∃ p live hydrated,
        Admission env required db route isGet credential now p live hydrated ∧
          dropStaleMfa p hydrated = q := by
  unfold admitRequest checkRoles checkPlatform checkPermissions
  simp only [bind_eq_ok, refuseUnless_eq_ok]
  constructor
  · rintro ⟨p, hp, -, himp, live, hlive, -, hmember, hydrated, hhydrated, -, hroles, -,
      hplatform, ⟨⟩, hmfa, -, hpermissions, hq⟩
    exact ⟨p, live, hydrated, ⟨hp, himp, hlive, hmember, hhydrated, hroles, hplatform, hmfa,
      hpermissions⟩, Except.ok.inj hq⟩
  · rintro ⟨p, live, hydrated, h, rfl⟩
    exact ⟨p, h.authenticated, (), h.readOnly, live, h.checked, (), h.member, hydrated,
      h.rehydrated, (), h.roles, (), h.platform, (), h.mfa, (), h.permissions, rfl⟩

theorem canActivate_eq_some :
    canActivate env required db route isGet credential now = .ok (some q) ↔
      route.isPublic = false ∧ admitRequest env required db route isGet credential now = .ok q := by
  unfold canActivate
  split_ifs with hpublic
  · simp [hpublic]
  · simp [map_eq_ok, hpublic]

end Admit

/-! ## What the steps keep -/

/-- The claims that no step after the first rewrites touches. -/
structure SameSubject (p q : AccessTokenPayload) : Prop where
  sub : q.sub = p.sub
  mid : q.mid = p.mid
  tid : q.tid = p.tid
  plat : q.plat = p.plat
  imp : q.imp = p.imp

theorem SameSubject.refl (p : AccessTokenPayload) : SameSubject p p := ⟨rfl, rfl, rfl, rfl, rfl⟩

theorem SameSubject.trans {p q r : AccessTokenPayload} (h : SameSubject p q)
    (h' : SameSubject q r) : SameSubject p r where
  sub := h'.sub.trans h.sub
  mid := h'.mid.trans h.mid
  tid := h'.tid.trans h.tid
  plat := h'.plat.trans h.plat
  imp := h'.imp.trans h.imp

theorem dropStaleMfa_keeps (p : Principal) (q : AccessTokenPayload) :
    SameSubject q (dropStaleMfa p q) ∧ (dropStaleMfa p q).role = q.role ∧
      (dropStaleMfa p q).perms = q.perms := by
  unfold dropStaleMfa
  split_ifs
  · exact ⟨.refl q, rfl, rfl⟩
  · exact ⟨⟨rfl, rfl, rfl, rfl, rfl⟩, rfl, rfl⟩

theorem checkLive_keeps {db : AuthDb} {isGet : Bool} {p : Principal}
    {payload live : AccessTokenPayload} (h : checkLive db isGet p payload = .ok live) :
    SameSubject payload live ∧ (payload.mid = none → live = payload) := by
  unfold checkLive at h
  split_ifs at h with hread
  · cases h
    exact ⟨.refl _, fun _ => rfl⟩
  · unfold checkWrite at h
    split at h
    · next mid hmid =>
        unfold refreshRole at h
        split at h
        · cases h
        · cases h
          exact ⟨⟨rfl, rfl, rfl, rfl, rfl⟩, fun hnone => by rw [hmid] at hnone; cases hnone⟩
    · split at h
      · split_ifs at h
        · obtain ⟨_, -, heq⟩ := map_eq_ok.mp h
          exact ⟨heq ▸ .refl _, fun _ => heq.symm⟩
        · cases h
          exact ⟨.refl _, fun _ => rfl⟩
      · cases h
        exact ⟨.refl _, fun _ => rfl⟩

theorem rehydrateMembership_of_none {db : AuthDb} {live hydrated : AccessTokenPayload}
    (hmid : live.mid = none) (h : rehydrateMembership db live = .ok hydrated) :
    hydrated = live := by
  unfold rehydrateMembership at h
  rw [hmid] at h
  exact (Except.ok.inj h).symm

theorem rehydrateMembership_of_some {db : AuthDb} {live hydrated : AccessTokenPayload}
    {mid : Uuid} (hmid : live.mid = some mid)
    (h : rehydrateMembership db live = .ok hydrated) :
    SameSubject live hydrated ∧ ∃ m ∈ db.memberships, m.id = mid ∧ m.userId = live.sub ∧
      (∀ tid, live.tid = some tid → m.tenantId = tid) ∧ membershipLive db m = true ∧
      hydrated.role = some m.role ∧ hydrated.perms = some (livePermissions db m) := by
  unfold rehydrateMembership at h
  rw [hmid] at h
  dsimp only at h
  unfold rehydrate at h
  dsimp only at h
  split at h
  · cases h
  · next m hfound =>
      cases h
      obtain ⟨hm, hlive⟩ := Option.filter_eq_some_iff.mp hfound
      obtain ⟨hfind, hown⟩ := Option.filter_eq_some_iff.mp hm
      obtain ⟨hmem, hid⟩ := Table.find?_eq_some.mp hfind
      simp only [Bool.and_eq_true, beq_iff_eq, Option.all_eq_true] at hown
      exact ⟨⟨rfl, rfl, rfl, rfl, rfl⟩, m, hmem, hid, hown.1, fun tid htid => hown.2 tid htid,
        hlive, rfl, rfl⟩

/-! ## Who was authenticated -/

theorem authenticate_bearer {env : AuthEnv} {db : AuthDb} {payload : AccessTokenPayload}
    {now : Instant} {p : Principal} :
    authenticate env db (.bearer payload) now = .ok p ↔
      ∃ user, db.users.find? payload.sub = some user ∧
        hasCurrentAuthGeneration payload user.authGeneration = true ∧ ⟨payload, user⟩ = p := by
  unfold authenticate
  dsimp only
  split
  · next hnone => simp [hnone]
  · next user hfind =>
      simp only [hfind, Option.some.injEq, exists_eq_left']
      split_ifs with hcurrent
      · simp [hcurrent]
      · simp [hcurrent]

theorem authenticate_apiKey {env : AuthEnv} {db : AuthDb} {key : String} {now : Instant}
    {p : Principal} (h : authenticate env db (.apiKey key) now = .ok p) :
    p.dbUser = none ∧ p.payload.plat = none ∧ p.payload.imp = none ∧
      p.payload.mid.isSome ∧ p.payload.tid.isSome := by
  unfold authenticate at h
  obtain ⟨payload, hpayload, rfl⟩ := map_eq_ok.mp h
  unfold authenticateApiKey at hpayload
  split at hpayload
  · cases hpayload
  · split at hpayload
    · cases hpayload
    · split_ifs at hpayload
      cases hpayload
      exact ⟨rfl, rfl, rfl, rfl, rfl⟩

/-- The user row of a token decides whether it holds the grant. -/
theorem isPlatformAdmin_iff {db : AuthDb} {payload : AccessTokenPayload} {user : User}
    (hfind : db.users.find? payload.sub = some user) :
    Principal.isPlatformAdmin ⟨payload, user⟩ = true ↔ HoldsGrant db payload.sub := by
  constructor
  · intro hadmin
    exact ⟨user, hfind, hadmin⟩
  · rintro ⟨user', hfind', hadmin⟩
    rw [hfind] at hfind'
    cases hfind'
    exact hadmin

/-- The claims that a request goes on with after the two rewrites. -/
theorem trimmedPayload_cases (p : Principal) (accountSessionOnly : Bool) :
    let t := trimmedPayload p accountSessionOnly
    t.sub = p.payload.sub ∧ t.imp = p.payload.imp ∧
      (t.plat = some true → p.payload.plat = some true ∧ p.isPlatformAdmin = true) ∧
      ((t.mid = none ∧ t.role = none ∧ t.perms = none) ∨
        (accountSessionOnly = false ∧ t.mid = p.payload.mid ∧ t.tid = p.payload.tid ∧
          t.role = p.payload.role ∧ t.perms = p.payload.perms ∧
          (p.isPlatformAdmin = true → t.plat = p.payload.plat))) := by
  unfold trimmedPayload dropRevokedGrant
  cases accountSessionOnly with
  | true =>
      have hplat : (withoutContext p.payload).plat = none := rfl
      simp only [if_true, hplat, reduceCtorEq, false_and, if_false]
      exact ⟨rfl, rfl, nofun, .inl ⟨rfl, rfl, rfl⟩⟩
  | false =>
      rw [if_neg Bool.false_ne_true]
      split_ifs with hdrop
      · refine ⟨rfl, rfl, nofun, .inr ⟨rfl, rfl, rfl, rfl, rfl, fun hadmin => ?_⟩⟩
        rw [hdrop.2] at hadmin
        cases hadmin
      · refine ⟨rfl, rfl, fun hplat => ⟨hplat, ?_⟩, .inr ⟨rfl, rfl, rfl, rfl, rfl, fun _ => rfl⟩⟩
        by_contra hadmin
        exact hdrop ⟨hplat, Bool.eq_false_of_not_eq_true hadmin⟩

/-! ## Admissions under a membership, and without one -/

section Admitted

variable {env : AuthEnv} {required : List Role} {db : AuthDb} {route : RouteMetadata}
  {isGet : Bool} {credential : Credential} {now : Instant} {p : Principal}
  {live hydrated : AccessTokenPayload}

/-- The claims at the end have the subject of the claims after the two rewrites. -/
theorem Admission.sameSubject
    (h : Admission env required db route isGet credential now p live hydrated) :
    SameSubject (trimmedPayload p route.accountSessionOnly) (dropStaleMfa p hydrated) := by
  have hlive := (checkLive_keeps h.checked).1
  have hhydrated : SameSubject live hydrated := by
    cases hmid : live.mid with
    | none => rw [rehydrateMembership_of_none hmid h.rehydrated]; exact .refl _
    | some mid => exact (rehydrateMembership_of_some hmid h.rehydrated).1
  exact (hlive.trans hhydrated).trans (dropStaleMfa_keeps p hydrated).1

/-- A membership that is named is read again, and gives the powers. -/
theorem Admission.membershipAuthority
    (h : Admission env required db route isGet credential now p live hydrated) {mid tid : Uuid}
    (hmid : (trimmedPayload p route.accountSessionOnly).mid = some mid)
    (htid : (trimmedPayload p route.accountSessionOnly).tid = some tid) :
    MembershipAuthority db (dropStaleMfa p hydrated) := by
  have hlive := (checkLive_keeps h.checked).1
  have hsame := h.sameSubject
  have hmidLive : live.mid = some mid := by rw [hlive.mid, hmid]
  obtain ⟨hkept, m, hm, hid, huser, htenant, hactive, hrole, hperms⟩ :=
    rehydrateMembership_of_some hmidLive h.rehydrated
  have htidm : m.tenantId = tid := htenant tid (by rw [hlive.tid, htid])
  have hdrop := (dropStaleMfa_keeps p hydrated).2
  refine ⟨m, hm, ?_, ?_, hactive, ?_, ?_, ?_⟩
  · rw [hsame.mid, hmid, hid]
  · rw [huser, hlive.sub, hsame.sub]
  · rw [hsame.tid, htid, htidm]
  · rw [hdrop.1, hrole]
  · rw [hdrop.2, hperms]

/-- Without a membership the role and the permissions are those of the token. -/
theorem Admission.powers_of_none
    (h : Admission env required db route isGet credential now p live hydrated)
    (hmid : (trimmedPayload p route.accountSessionOnly).mid = none) :
    (dropStaleMfa p hydrated).role = (trimmedPayload p route.accountSessionOnly).role ∧
      (dropStaleMfa p hydrated).perms = (trimmedPayload p route.accountSessionOnly).perms := by
  obtain ⟨hlive, hsame⟩ := checkLive_keeps h.checked
  have hhydrated : hydrated = live :=
    rehydrateMembership_of_none (by rw [hlive.mid, hmid]) h.rehydrated
  have hdrop := (dropStaleMfa_keeps p hydrated).2
  rw [hdrop.1, hdrop.2, hhydrated, hsame hmid]
  exact ⟨rfl, rfl⟩

/-- Without role and permissions only a route that asks for neither is open. -/
theorem Admission.asks_nothing
    (h : Admission env required db route isGet credential now p live hydrated)
    (hrole : (dropStaleMfa p hydrated).role = none)
    (hperms : (dropStaleMfa p hydrated).perms = none) :
    route.roles = [] ∧ route.permissions = [] := by
  have hrole' : hydrated.role = none := by rw [← (dropStaleMfa_keeps p hydrated).2.1, hrole]
  constructor
  · rcases h.roles with hroles | ⟨role, hmem, -⟩
    · exact hroles
    · rw [hrole'] at hmem
      cases hmem
  · rcases h.permissions with hpermissions | hhas
    · exact hpermissions
    · simp only [hasPermissions, hrole, hperms, Option.any_none, Bool.false_or,
        List.all_eq_true, Bool.false_eq_true] at hhas
      exact List.eq_nil_iff_forall_not_mem.mpr hhas

end Admitted

/-! ## The theorem -/

section Theorem

variable {env : AuthEnv} {db : AuthDb} {now : Instant}

/-- A token without a membership that is not a stale act-as token has, of the powers it
claims, the ones of a current grant. -/
theorem grantAuthority_of_bearer {payload : AccessTokenPayload} (hminted : Minted payload)
    (hstale : ¬StaleActAs db payload) {user : User}
    (hfind : db.users.find? payload.sub = some user)
    (hcurrent : hasCurrentAuthGeneration payload user.authGeneration = true)
    (hmid : payload.mid = none) :
    (payload.role = none ∧ payload.perms = none) ∨
      (HoldsGrant db payload.sub ∧ payload.role = some .tenantOwner ∧ payload.perms = none ∧
        payload.plat = some true ∧ ∃ tid, payload.tid = some tid ∧ tenantActive db tid = true) := by
  rcases hminted.cases_of_mid_eq_none hmid with ⟨-, hrole, hperms⟩ |
    ⟨⟨tid, htid⟩, hrole, hperms, hplat, -⟩
  · exact .inl ⟨hrole, hperms⟩
  · have hlive : ¬(¬HoldsGrant db payload.sub ∨ tenantActive db tid = false) :=
      fun h => hstale ⟨tid, ⟨hmid, htid⟩, ⟨user, hfind, hcurrent⟩, h⟩
    rw [not_or, not_not, Bool.not_eq_false] at hlive
    exact .inr ⟨hlive.1, hrole, hperms, hplat, tid, htid, hlive.2⟩

/-- What an admission under a token that is not stale is worth. -/
theorem bearer_authority {required : List Role} {route : RouteMetadata} {isGet : Bool}
    {payload : AccessTokenPayload} {p : Principal} {live hydrated : AccessTokenPayload}
    (hminted : Minted payload) (hstale : ¬StaleActAs db payload)
    (h : Admission env required db route isGet (.bearer payload) now p live hydrated) :
    Authority db (dropStaleMfa p hydrated) ∧ (¬HoldsGrant db payload.sub →
      route.platformOnly = false ∧
        (payload.mid = none → route.roles = [] ∧ route.permissions = [])) := by
  obtain ⟨user, hfind, hcurrent, rfl⟩ := authenticate_bearer.mp h.authenticated
  obtain ⟨hsub, -, hplat, hclaims⟩ :=
    trimmedPayload_cases ⟨payload, some user⟩ route.accountSessionOnly
  have hsame := h.sameSubject
  have hgrant := isPlatformAdmin_iff hfind
  have hqsub : (dropStaleMfa ⟨payload, some user⟩ hydrated).sub = payload.sub := by
    rw [hsame.sub, hsub]
  refine ⟨⟨fun hpowers => ?_, fun hclaimed => ?_⟩, fun hrevoked => ⟨?_, fun hmid => ?_⟩⟩
  · rcases hclaims with ⟨hmid, hrole, hperms⟩ | ⟨-, hmid, htid, hrole, hperms, hkept⟩
    · have hnone := h.powers_of_none hmid
      rw [hnone.1, hnone.2, hrole, hperms] at hpowers
      simp at hpowers
    · cases hpmid : payload.mid with
      | some mid =>
          obtain ⟨tid, hptid⟩ := hminted.tid_of_mid hpmid
          exact .inl (h.membershipAuthority (hmid.trans hpmid) (htid.trans hptid))
      | none =>
          have hnone := h.powers_of_none (hmid.trans hpmid)
          rcases grantAuthority_of_bearer hminted hstale hfind hcurrent hpmid with
            ⟨hprole, hpperms⟩ | ⟨hholds, hprole, hpperms, hpplat, tid, hptid, hactive⟩
          · rw [hnone.1, hnone.2, hrole, hperms, hprole, hpperms] at hpowers
            simp at hpowers
          · refine .inr ⟨by rwa [hqsub], ?_, ?_, ?_, ?_, tid, ?_, hactive⟩
            · rw [hsame.plat, hkept (hgrant.mpr hholds), hpplat]
            · rw [hsame.mid, hmid, hpmid]
            · rw [hnone.1, hrole, hprole]
            · rw [hnone.2, hperms, hpperms]
            · rw [hsame.tid, htid, hptid]
  · rw [hqsub]
    exact hgrant.mp (hplat (hsame.plat ▸ hclaimed)).2
  · rcases h.platform with hopen | ⟨-, hadmin⟩
    · exact hopen
    · exact absurd (hgrant.mp hadmin) hrevoked
  · have hnothing : (trimmedPayload ⟨payload, some user⟩ route.accountSessionOnly).mid = none ∧
        (trimmedPayload ⟨payload, some user⟩ route.accountSessionOnly).role = none ∧
        (trimmedPayload ⟨payload, some user⟩ route.accountSessionOnly).perms = none := by
      rcases hclaims with hclaims | ⟨-, htmid, -, hrole, hperms, -⟩
      · exact hclaims
      · rcases grantAuthority_of_bearer hminted hstale hfind hcurrent hmid with
          ⟨hprole, hpperms⟩ | ⟨hholds, -⟩
        · exact ⟨htmid.trans hmid, hrole.trans hprole, hperms.trans hpperms⟩
        · exact absurd hholds hrevoked
    have hnone := h.powers_of_none hnothing.1
    exact h.asks_nothing (hnone.1.trans hnothing.2.1) (hnone.2.trans hnothing.2.2)

/-- The route on which a stale act-as token shows: it asks for an owner, and reads. -/
def ownerRoute : RouteMetadata := { roles := [.tenantOwner], mfaExempt := true }

/-- A stale act-as token is admitted as the owner of its tenant. -/
theorem staleActAs_admitted {payload : AccessTokenPayload} (hminted : Minted payload)
    (hstale : StaleActAs db payload) :
    ∃ q, canActivate env [] db ownerRoute true (.bearer payload) now = .ok (some q) ∧
      q.sub = payload.sub ∧ q.mid = none ∧ q.tid = payload.tid ∧ q.role = some .tenantOwner := by
  obtain ⟨tid, ⟨hmid, htid⟩, ⟨user, hfind, hcurrent⟩, -⟩ := hstale
  have htoken : payload.role = some .tenantOwner ∧ payload.imp = none := by
    rcases hminted.cases_of_mid_eq_none hmid with ⟨hnone, -⟩ | ⟨-, hrole, -, -, himp⟩
    · rw [htid] at hnone
      cases hnone
    · exact ⟨hrole, himp⟩
  obtain ⟨hsub, himp, -, hclaims⟩ := trimmedPayload_cases ⟨payload, some user⟩ false
  have hkept : (trimmedPayload ⟨payload, some user⟩ false).mid = none ∧
      (trimmedPayload ⟨payload, some user⟩ false).tid = payload.tid ∧
      (trimmedPayload ⟨payload, some user⟩ false).role = some .tenantOwner := by
    unfold trimmedPayload dropRevokedGrant
    rw [if_neg Bool.false_ne_true]
    split_ifs
    · exact ⟨hmid, rfl, htoken.1⟩
    · exact ⟨hmid, rfl, htoken.1⟩
  have hadmission : Admission env [] db ownerRoute true (.bearer payload) now
      ⟨payload, some user⟩ (trimmedPayload ⟨payload, some user⟩ false)
      (trimmedPayload ⟨payload, some user⟩ false) :=
    { authenticated := authenticate_bearer.mpr ⟨user, hfind, hcurrent, rfl⟩
      readOnly := .inr rfl
      checked := rfl
      member := .inl rfl
      rehydrated := by rw [rehydrateMembership, hkept.1]
      roles := .inr ⟨.tenantOwner, hkept.2.2, List.mem_singleton.mpr rfl⟩
      platform := .inl rfl
      mfa := rfl
      permissions := .inl rfl }
  obtain ⟨hsame, hrole, -⟩ :=
    dropStaleMfa_keeps ⟨payload, some user⟩ (trimmedPayload ⟨payload, some user⟩ false)
  refine ⟨_, canActivate_eq_some.mpr ⟨rfl, admit_eq_ok.mpr ⟨_, _, _, hadmission, rfl⟩⟩, ?_, ?_, ?_,
    ?_⟩
  · rw [hsame.sub, hsub]
  · rw [hsame.mid, hkept.1]
  · rw [hsame.tid, hkept.2.1]
  · rw [hrole, hkept.2.2]

/-- The guard admits on live authority alone exactly under the credentials that are no stale
act-as tokens. -/
theorem admitsOnLiveAuthority_iff (credential : Credential)
    (hminted : ∀ payload, credential = .bearer payload → Minted payload) :
    AdmitsOnLiveAuthority env db now credential ↔
      ∀ payload, credential = .bearer payload → ¬StaleActAs db payload := by
  constructor
  · rintro hlive payload rfl hstale
    obtain ⟨q, hadmitted, hsub, hmid, htid, hrole⟩ :
        ∃ q, canActivate env [] db ownerRoute true (.bearer payload) now = .ok (some q) ∧
          q.sub = payload.sub ∧ q.mid = none ∧ q.tid = payload.tid ∧
            q.role = some .tenantOwner :=
      staleActAs_admitted (hminted payload rfl) hstale
    have hauthority := (hlive [] ownerRoute true q hadmitted).1
    rcases hauthority.powers (.inl (by rw [hrole]; rfl)) with hmember | hgrant
    · obtain ⟨m, -, hqmid, -⟩ := hmember
      rw [hmid] at hqmid
      cases hqmid
    · obtain ⟨hholds, -, -, -, -, tid, hqtid, hactive⟩ := hgrant
      obtain ⟨tid', ⟨-, htid'⟩, -, hgone⟩ := hstale
      rw [htid, htid', Option.some.injEq] at hqtid
      rcases hgone with hgone | hgone
      · exact hgone (hsub ▸ hholds)
      · rw [hqtid, hactive] at hgone
        cases hgone
  · intro hfresh required route isGet q hadmitted
    obtain ⟨-, hadmitted⟩ := canActivate_eq_some.mp hadmitted
    obtain ⟨p, live, hydrated, h, rfl⟩ := admit_eq_ok.mp hadmitted
    have hsame := h.sameSubject
    have hreadOnly : (dropStaleMfa p hydrated).imp.isSome → isGet = true := by
      intro himp
      rcases h.readOnly with hnone | hget
      · rw [hsame.imp, hnone] at himp
        cases himp
      · exact hget
    cases credential with
    | none => cases h.authenticated
    | bearer payload =>
        obtain ⟨hauthority, hrevoked⟩ := bearer_authority (hminted payload rfl)
          (hfresh payload rfl) h
        refine ⟨hauthority, hreadOnly, fun p' hp' hgone => ?_⟩
        cases hp'
        exact hrevoked hgone
    | apiKey key =>
        obtain ⟨hdb, hplat, -, hmid, htid⟩ := authenticate_apiKey h.authenticated
        obtain ⟨-, -, hclaimed, hclaims⟩ := trimmedPayload_cases p route.accountSessionOnly
        refine ⟨⟨fun hpowers => ?_, fun hqplat => ?_⟩, hreadOnly, fun payload hpayload => ?_⟩
        · rcases hclaims with ⟨hnone, hrole, hperms⟩ | ⟨-, htmid, httid, -⟩
          · have hkept := h.powers_of_none hnone
            rw [hkept.1, hkept.2, hrole, hperms] at hpowers
            simp at hpowers
          · obtain ⟨mid, hpmid⟩ := Option.isSome_iff_exists.mp hmid
            obtain ⟨tid, hptid⟩ := Option.isSome_iff_exists.mp htid
            exact .inl (h.membershipAuthority (htmid.trans hpmid) (httid.trans hptid))
        · have hnone := (hclaimed (hsame.plat ▸ hqplat)).1
          rw [hplat] at hnone
          cases hnone
        · cases hpayload

end Theorem

/-! ## A grant that is revoked while its token lives -/

namespace GuardDemo

def administrator : User := { Demo.user 1 "a" "p" with isPlatformAdmin := true }

def granted : AuthDb := Demo.database (Demo.directory (Demo.only Demo.tenant) .empty)
  (Demo.only administrator)

def revoked : AuthDb := Demo.database (Demo.directory (Demo.only Demo.tenant) .empty)
  (Demo.only { administrator with isPlatformAdmin := false })

def token : AccessTokenPayload := actAsPayload administrator Demo.tenant

end GuardDemo

theorem admitsOnLiveAuthority_granted :
    AdmitsOnLiveAuthority Demo.env GuardDemo.granted 0 (.bearer GuardDemo.token) := by
  refine (admitsOnLiveAuthority_iff (.bearer GuardDemo.token) ?_).mpr ?_
  · rintro payload ⟨⟩
    exact .actAs _ _
  · rintro payload ⟨⟩ ⟨tid, ⟨-, htid⟩, -, hgone⟩
    have hactive : tenantActive GuardDemo.granted tid = true := by
      cases htid
      rfl
    rcases hgone with hgone | hgone
    · exact hgone ⟨GuardDemo.administrator, rfl, rfl⟩
    · rw [hactive] at hgone
      cases hgone

/-- The token was minted under a grant. After the revocation it is admitted, for reads and for
writes, to a route that asks for an owner. -/
theorem revoked_grant_admitted :
    actAsTenant GuardDemo.granted 1 1 = .ok GuardDemo.token ∧
      (∀ isGet, (canActivate Demo.env [.tenantOwner] GuardDemo.revoked ownerRoute isGet
        (.bearer GuardDemo.token) 0).map (Option.map AccessTokenPayload.role) =
          .ok (some (some .tenantOwner))) ∧
      ¬AdmitsOnLiveAuthority Demo.env GuardDemo.revoked 0 (.bearer GuardDemo.token) := by
  refine ⟨rfl, by decide, fun hlive => ?_⟩
  have hadmitted : canActivate Demo.env [] GuardDemo.revoked ownerRoute true
      (.bearer GuardDemo.token) 0 = .ok (some { GuardDemo.token with plat := none }) := rfl
  have hnone := ((hlive [] ownerRoute true _ hadmitted).2.2 _ rfl ?_).2 rfl
  · cases hnone.1
  · rintro ⟨user, hfind, hadmin⟩
    cases hfind
    cases hadmin

end Refearn.Auth
