import Refearn.Auth.Proofs.OneTime
/-!
# Invites over whole runs

An acceptance claims an active invite and records who has joined through it. The only writer
that does not look at the status of the invite it rewrites is the expiry mark of a
registration; as long as that mark meets no used invite, a used invite stays as it is and is
the trace of the one membership that was made from it.
-/

namespace Refearn.Auth

open Support Support.Transaction

/-! ## Effects -/

/-- Every membership is still there. -/
def MembersKept (members members' : Table Membership) : Prop :=
  ∀ m ∈ members, ∃ m' ∈ members', m'.id = m.id

theorem MembersKept.of_eq {members members' : Table Membership} (h : members' = members) :
    MembersKept members members' :=
  fun m hm => ⟨m, by rw [h]; exact hm, rfl⟩

/-- What an acceptance has done: an invite is claimed for a new member, who has consented. -/
structure Accepts (db db' : AuthDb) (inviteId membershipId : Uuid) (now : Instant)
    (record : InviteAcceptanceConsent) : Prop where
  claimed : ∃ i ∈ db.invites, isClaimable inviteId now i = true
  invites : db'.invites = claimedInvites db.invites inviteId membershipId now
  recordInvite : record.inviteId = inviteId
  recordMember : record.membershipId = membershipId
  recorded : db.inviteAcceptanceConsents.insert? record = some db'.inviteAcceptanceConsents
  members : MembersKept db.memberships db'.memberships
  joined : ∃ m ∈ db'.memberships, m.id = membershipId

/-- What a committed call has done to invites, memberships and consents. -/
inductive InviteEffect (call : AuthCall) (db db' : AuthDb) : Prop
  | kept (hinvites : db'.invites = db.invites) (hmembers : db'.memberships = db.memberships)
      (hconsents : db'.inviteAcceptanceConsents = db.inviteAcceptanceConsents)
  | accepted (inviteId membershipId : Uuid) (now : Instant) (record : InviteAcceptanceConsent)
      (h : Accepts db db' inviteId membershipId now record)
  | issued (inviterId : Uuid) (now : Instant)
      (hinvites : Issued (expiredInvites db.invites inviterId now) db'.invites)
      (hmembers : db'.memberships = db.memberships)
      (hconsents : db'.inviteAcceptanceConsents = db.inviteAcceptanceConsents)
  | marked (inviteId : Uuid) (hcall : call = .expireInvite inviteId)
      (hinvites : db'.invites = db.invites.updateKey inviteId (Invite.withStatus .expired)
        (Invite.keepsIndexes_withStatus .expired))
      (hmembers : db'.memberships = db.memberships)
      (hconsents : db'.inviteAcceptanceConsents = db.inviteAcceptanceConsents)

/-- A session touches neither invites nor memberships. -/
theorem issueSession_invites {env : AuthEnv} {userId : Uuid} {reqMeta : RequestMeta}
    {mfaVerifiedAt : Option Instant} {session : AuthSession} {c c' : Connection}
    (h : Commits (issueSessionInTransaction env userId reqMeta mfaVerifiedAt) c session c') :
    c'.db.invites = c.db.invites ∧ c'.db.memberships = c.db.memberships ∧
      c'.db.inviteAcceptanceConsents = c.db.inviteAcceptanceConsents := by
  obtain ⟨user, row, accounts, tokens, hissue⟩ := commits_issueSession h
  rw [hissue.db]
  exact ⟨rfl, rfl, rfl⟩

theorem membersKept_append {members members' : Table Membership} {m : Membership}
    (h : members'.rows = members.rows ++ [m]) : MembersKept members members' := by
  intro n hn
  refine ⟨n, ?_, rfl⟩
  rw [Table.mem_def, h]
  exact List.mem_append_left _ hn

theorem inviteEffect_register {env : AuthEnv} {registration : Registration}
    {reqMeta : RequestMeta} {result : LoginResult} {c c' : Connection} {locked : LockedInvite}
    {user : User} (h : RegisterEffect env registration reqMeta c c' locked user result) :
    InviteEffect (.register registration reqMeta) c.db c'.db := by
  cases h with
  | challenge consent c₁ challenge token tokens pending hdb hsupply haccount h =>
      have hdb' := h.db
      rw [hdb] at hdb'
      exact .kept (by rw [hdb']) (by rw [hdb']) (by rw [hdb'])
  | session consent c₁ c₂ isNewUser accounts joined m record userTokens members consents now
      session hdb hsupply haccount haccepted h =>
      obtain ⟨notes, logs, hdb'⟩ := haccepted.db
      obtain ⟨hinvites, hmembers, hconsents⟩ := issueSession_invites h
      obtain ⟨table, acceptedAt, hinserted, hrows⟩ := haccepted.inserted
      have hclaimed := haccepted.claimed
      have hrecorded := haccepted.recorded
      rw [hdb'] at hinvites hmembers hconsents
      rw [hdb] at hinvites hclaimed hrecorded hrows
      refine .accepted locked.invite.id m.id now record
        ⟨hclaimed, hinvites, haccepted.joined.inviteId, haccepted.joined.membershipId, ?_, ?_, ?_⟩
      · rw [hconsents]
        exact hrecorded
      · rw [hmembers]
        exact membersKept_append hrows
      · refine ⟨m.withSignup (reqMeta.ip.filter (· ≠ "")) acceptedAt, ?_, rfl⟩
        rw [hmembers, Table.mem_def, hrows]
        exact List.mem_append_right _ (List.mem_singleton.mpr rfl)

theorem inviteEffect_completeLoginMfa {env : AuthEnv} {challenge : OpenChallenge}
    {code : String} {reqMeta : RequestMeta} {outcome : MfaOutcome} {c c' : Connection}
    {user : User} {verified : MfaVerification}
    (h : CompletionEffect env challenge reqMeta c c' user verified outcome) :
    InviteEffect (.completeLoginMfa challenge code reqMeta) c.db c'.db := by
  cases h with
  | failed hrefused hdb hsupply => exact .kept (by rw [hdb]) (by rw [hdb]) (by rw [hdb])
  | session haccepted now accounts c₁ c₂ session hnow hclaimed hupdated hdb hsupply hstaged h =>
      obtain ⟨hinvites, hmembers, hconsents⟩ := issueSession_invites h
      generalize challenge.pendingId = pendingId at hstaged
      cases hstaged with
      | login hsame =>
          rw [← hsame, hdb] at hinvites hmembers hconsents
          exact .kept hinvites hmembers hconsents
      | invite pendingId' locked staged consent m record accounts' members consents h' =>
          obtain ⟨notes, logs, hdb'⟩ := h'.db
          have hclaimed' := h'.claimed
          have hrecorded := h'.recorded
          have hinserted := h'.inserted
          rw [hdb'] at hinvites hmembers hconsents
          rw [hdb] at hinvites hclaimed' hrecorded hinserted
          refine .accepted locked.invite.id m.id now record
            ⟨hclaimed', hinvites, h'.joined.inviteId, h'.joined.membershipId, ?_, ?_, ?_⟩
          · rw [hconsents]
            exact hrecorded
          · rw [hmembers]
            exact membersKept_append (Table.insert?_eq_some.mp hinserted).2
          · refine ⟨m, ?_, rfl⟩
            rw [hmembers]
            exact (Table.mem_insert? hinserted).mpr (.inr rfl)

theorem Revocation.inviteEffect {call : AuthCall} {f : User → User} {userId : Uuid}
    {c c' : Connection} {now : Instant} {accounts : Table User}
    (h : Revocation f userId c c' now accounts) : InviteEffect call c.db c'.db :=
  .kept (by rw [h.db]) (by rw [h.db]) (by rw [h.db])

theorem perform_inviteEffect {env : AuthEnv} {call : AuthCall}
    {answer : Except AuthError Answer} {c c' : Connection}
    (h : Commits (perform env call) c answer c') : InviteEffect call c.db c'.db := by
  cases call with
  | openRegistration input reqMeta =>
      obtain ⟨-, rfl⟩ := (commits_pure ..).mp h
      exact .kept rfl rfl rfl
  | login userId password reqMeta =>
      obtain ⟨result, hlogin, -⟩ := commits_answering h
      obtain ⟨user, -, -, -, heffect⟩ := commits_login hlogin
      cases heffect with
      | challenge challenge token tokens pending h =>
          exact .kept (by rw [h.db]) (by rw [h.db]) (by rw [h.db])
      | session session h =>
          obtain ⟨hinvites, hmembers, hconsents⟩ := issueSession_invites h
          exact .kept hinvites hmembers hconsents
  | register registration reqMeta =>
      obtain ⟨result, hregister, -⟩ := commits_answering h
      obtain ⟨locked, user, -, -, heffect⟩ := commits_register hregister
      exact inviteEffect_register heffect
  | expireInvite inviteId =>
      obtain ⟨_, hmark, -⟩ := commits_answering h
      have hc := commits_markExpired hmark
      subst hc
      exact .marked inviteId rfl rfl rfl rfl
  | completeLoginMfa challenge code reqMeta =>
      obtain ⟨outcome, hcomplete, -⟩ := commits_answering h
      obtain ⟨user, verified, _, _, -, -, -, -, -, -, heffect⟩ :=
        commits_completeLoginMfa hcomplete
      exact inviteEffect_completeLoginMfa heffect
  | refresh token reqMeta =>
      obtain ⟨outcome, hrefresh, -⟩ := commits_answering h
      cases commits_refresh hrefresh with
      | reuse hrevoked now accounts h => exact h.inviteEffect
      | expired hlive hdb hsupply => exact .kept (by rw [hdb]) (by rw [hdb]) (by rw [hdb])
      | rotated hlive session user row accounts tokens hcurrent h =>
          obtain ⟨now, hdb⟩ := h.db
          exact .kept (by rw [hdb]) (by rw [hdb]) (by rw [hdb])
      | invalid hlive user hfound hstale now hdb hsupply =>
          exact .kept (by rw [hdb]) (by rw [hdb]) (by rw [hdb])
  | logout token =>
      obtain ⟨_, hlogout, -⟩ := commits_answering h
      obtain ⟨now, accounts, hrevocation⟩ := commits_logout hlogout
      exact hrevocation.inviteEffect
  | revokeSession userId sessionId =>
      obtain ⟨_, hrevoke, -⟩ := commits_answering h
      obtain ⟨now, accounts, hrevocation⟩ := commits_revokeSession hrevoke
      exact hrevocation.inviteEffect
  | revokeAllSessions userId =>
      obtain ⟨_, hrevoke, -⟩ := commits_answering h
      obtain ⟨now, accounts, hrevocation⟩ := commits_revokeAllSessions hrevoke
      exact hrevocation.inviteEffect
  | setupMfa userId =>
      obtain ⟨secret, hsetup, -⟩ := commits_answering h
      obtain ⟨accounts, -, hdb, -⟩ := commits_storeTotpSecret hsetup
      exact .kept (by rw [hdb]) (by rw [hdb]) (by rw [hdb])
  | enableMfa userId code =>
      obtain ⟨codes, henable, -⟩ := commits_answering h
      obtain ⟨user, secret, _, now, accounts, -, -, -, hrevocation⟩ := commits_enableMfa henable
      exact hrevocation.inviteEffect
  | disableMfa userId code =>
      obtain ⟨_, hdisable, -⟩ := commits_answering h
      obtain ⟨user, _, verified, now, accounts, -, -, -, -, hrevocation⟩ :=
        commits_disableMfa hdisable
      exact hrevocation.inviteEffect
  | verifyEmail tokenRaw =>
      obtain ⟨token, hverify, -⟩ := commits_answering h
      obtain ⟨now, verifiedAt, accounts, -, -, -, -, hdb⟩ := commits_verifyEmail hverify
      exact .kept (by rw [hdb]) (by rw [hdb]) (by rw [hdb])
  | requestPasswordReset userId =>
      obtain ⟨_, hrequest, -⟩ := commits_answering h
      obtain ⟨usedAt, token, tokens, notes, -, -, -, -, hdb, -⟩ :=
        commits_requestPasswordReset hrequest
      exact .kept (by rw [hdb]) (by rw [hdb]) (by rw [hdb])
  | confirmPasswordReset token newPassword =>
      obtain ⟨_, hconfirm, -⟩ := commits_answering h
      obtain ⟨now, salt, c₁, accounts, -, -, hdb, hrevocation⟩ :=
        commits_confirmPasswordReset hconfirm
      have hdb' := hrevocation.db
      rw [hdb] at hdb'
      exact .kept (by rw [hdb']) (by rw [hdb']) (by rw [hdb'])
  | changePassword userId newPassword revokedAt =>
      obtain ⟨_, hstore, -⟩ := commits_answering h
      obtain ⟨salt, accounts, hrevocation⟩ := commits_storePassword hstore
      exact hrevocation.inviteEffect
  | issueInvite input =>
      obtain ⟨issued, hissue, -⟩ := commits_answering h
      obtain ⟨inviterId, now, table, htable, hdb⟩ := commits_issue hissue
      exact .issued inviterId now (by rw [hdb]; exact htable) (by rw [hdb]) (by rw [hdb])

/-! ## Used invites -/

/-- The step that marks an invite as expired does not meet a used one. -/
def MarksUnused (w : AuthWorld) : AuthStep → Prop
  | .finish (.expireInvite inviteId) _ =>
      ∀ i ∈ w.db.invites, i.id = inviteId → i.status ≠ .used
  | _ => True

/-- A used invite is not rewritten. -/
def UsedKept (invites invites' : Table Invite) : Prop :=
  ∀ i ∈ invites, i.status = .used → i ∈ invites'

theorem usedKept_updateWhere {invites : Table Invite} {p : Invite → Bool}
    {f : Invite → Invite} {hf : KeepsIndexes f} (hp : ∀ i, p i = true → i.status = .active) :
    UsedKept invites (invites.updateWhere p f hf) := by
  intro i hi hused
  rw [Table.mem_def, Table.rows_updateWhere]
  refine List.mem_map.mpr ⟨i, hi, if_neg fun hpi => ?_⟩
  rw [hp i hpi] at hused
  cases hused

theorem usedKept_insert? {invites invites' : Table Invite} {row : Invite}
    (h : invites.insert? row = some invites') : UsedKept invites invites' :=
  fun _ hi _ => (Table.mem_insert? h).mpr (.inl hi)

theorem isClaimable_active {inviteId : Uuid} {now : Instant} (i : Invite)
    (h : isClaimable inviteId now i = true) : i.status = .active := by
  unfold isClaimable at h
  simp only [Bool.and_eq_true, beq_iff_eq] at h
  exact h.1.2

theorem isClaimable_id {inviteId : Uuid} {now : Instant} (i : Invite)
    (h : isClaimable inviteId now i = true) : i.id = inviteId := by
  unfold isClaimable at h
  simp only [Bool.and_eq_true, beq_iff_eq] at h
  exact h.1.1

theorem isStaleInviteOf_active {inviterId : Uuid} {now : Instant} (i : Invite)
    (h : isStaleInviteOf inviterId now i = true) : i.status = .active := by
  unfold isStaleInviteOf at h
  simp only [Bool.and_eq_true, beq_iff_eq] at h
  exact h.1.2

theorem usedKept_issued {invites invites' : Table Invite} {inviterId : Uuid} {now : Instant}
    (h : Issued (expiredInvites invites inviterId now) invites') : UsedKept invites invites' := by
  have hexpired : UsedKept invites (expiredInvites invites inviterId now) :=
    usedKept_updateWhere isStaleInviteOf_active
  rcases h with rfl | ⟨i, -, -, hinserted⟩
  · exact hexpired
  · exact fun j hj hused => usedKept_insert? hinserted j (hexpired j hj hused) hused

theorem usedKept_marked {invites : Table Invite} {inviteId : Uuid}
    (h : ∀ i ∈ invites, i.id = inviteId → i.status ≠ .used) :
    UsedKept invites (invites.updateKey inviteId (Invite.withStatus .expired)
      (Invite.keepsIndexes_withStatus .expired)) := by
  intro i hi hused
  rw [Table.mem_def, Table.rows_updateKey]
  exact List.mem_map.mpr ⟨i, hi, if_neg fun hid => h i hi hid hused⟩

/-- What a call may do to invites, where its mark meets no used one. -/
theorem InviteEffect.usedKept {call : AuthCall} {db db' : AuthDb}
    (h : InviteEffect call db db')
    (hmarks : ∀ inviteId, call = .expireInvite inviteId →
      ∀ i ∈ db.invites, i.id = inviteId → i.status ≠ .used) :
    UsedKept db.invites db'.invites := by
  cases h with
  | kept hinvites => exact fun i hi _ => by rw [hinvites]; exact hi
  | accepted inviteId membershipId now record h =>
      rw [h.invites]
      exact usedKept_updateWhere isClaimable_active
  | issued inviterId now hinvites => exact usedKept_issued hinvites
  | marked inviteId hcall hinvites =>
      rw [hinvites]
      exact usedKept_marked (hmarks inviteId hcall)

/-- A used invite was used before, or has just been claimed. -/
theorem InviteEffect.used {call : AuthCall} {db db' : AuthDb} (h : InviteEffect call db db')
    {i : Invite} (hi : i ∈ db'.invites) (hused : i.status = .used) :
    i ∈ db.invites ∨ ∃ membershipId now record, Accepts db db' i.id membershipId now record := by
  cases h with
  | kept hinvites =>
      rw [hinvites] at hi
      exact .inl hi
  | accepted inviteId membershipId now record h =>
      have hrows := hi
      rw [h.invites] at hrows
      unfold claimedInvites at hrows
      rw [Table.mem_def, Table.rows_updateWhere] at hrows
      obtain ⟨j, hj, rfl⟩ := List.mem_map.mp hrows
      by_cases hclaim : isClaimable inviteId now j = true
      · rw [if_pos hclaim]
        refine .inr ⟨membershipId, now, record, ?_⟩
        have hid : (j.usedBy membershipId).id = inviteId := isClaimable_id j hclaim
        rw [hid]
        exact h
      · rw [if_neg hclaim]
        exact .inl hj
  | issued inviterId now hinvites =>
      have hold : ∀ j ∈ expiredInvites db.invites inviterId now, j.status = .used →
          j ∈ db.invites := by
        intro j hj hjused
        unfold expiredInvites at hj
        rw [Table.mem_def, Table.rows_updateWhere] at hj
        obtain ⟨k, hk, rfl⟩ := List.mem_map.mp hj
        by_cases hstale : isStaleInviteOf inviterId now k = true
        · rw [if_pos hstale] at hjused
          cases hjused
        · rw [if_neg hstale]
          exact hk
      rcases hinvites with hsame | ⟨row, hactive, -, hinserted⟩
      · rw [hsame] at hi
        exact .inl (hold i hi hused)
      · rcases (Table.mem_insert? hinserted).mp hi with hi | rfl
        · exact .inl (hold i hi hused)
        · rw [hactive] at hused
          cases hused
  | marked inviteId hcall hinvites =>
      rw [hinvites, Table.mem_def, Table.rows_updateKey] at hi
      obtain ⟨j, hj, rfl⟩ := List.mem_map.mp hi
      by_cases hid : key j = inviteId
      · rw [if_pos hid] at hused
        cases hused
      · rw [if_neg hid]
        exact .inl hj

/-! ## Invites and the memberships made from them -/

/-- The invites that are used are those that a membership was made from, and each of them
names that one membership. -/
structure InvitesTraced (db : AuthDb) : Prop where
  used : ∀ i ∈ db.invites, i.status = .used →
    ∃ k ∈ db.inviteAcceptanceConsents, k.inviteId = i.id
  traced : ∀ k ∈ db.inviteAcceptanceConsents,
    (∃ i ∈ db.invites, i.id = k.inviteId ∧ i.status = .used ∧
      i.usedByMembershipId = some k.membershipId) ∧
    ∃ m ∈ db.memberships, m.id = k.membershipId

/-- An invite admits one member. -/
theorem InvitesTraced.one_member {db : AuthDb} (h : InvitesTraced db)
    {k k' : InviteAcceptanceConsent} (hk : k ∈ db.inviteAcceptanceConsents)
    (hk' : k' ∈ db.inviteAcceptanceConsents) (hinvite : k.inviteId = k'.inviteId) :
    k.membershipId = k'.membershipId := by
  obtain ⟨⟨i, hi, hid, -, hby⟩, -⟩ := h.traced k hk
  obtain ⟨⟨i', hi', hid', -, hby'⟩, -⟩ := h.traced k' hk'
  have heq : i = i' := Table.eq_of_key hi hi' (hid.trans (hinvite.trans hid'.symm))
  rw [heq, hby'] at hby
  exact (Option.some.inj hby).symm

theorem InviteEffect.consents {call : AuthCall} {db db' : AuthDb} (h : InviteEffect call db db')
    {k : InviteAcceptanceConsent} (hk : k ∈ db'.inviteAcceptanceConsents) :
    k ∈ db.inviteAcceptanceConsents ∨
      ∃ inviteId membershipId now, Accepts db db' inviteId membershipId now k := by
  cases h with
  | kept hinvites hmembers hconsents => exact .inl (hconsents ▸ hk)
  | issued inviterId now hinvites hmembers hconsents => exact .inl (hconsents ▸ hk)
  | marked inviteId hcall hinvites hmembers hconsents => exact .inl (hconsents ▸ hk)
  | accepted inviteId membershipId now record h =>
      rcases (Table.mem_insert? h.recorded).mp hk with hold | rfl
      · exact .inl hold
      · exact .inr ⟨inviteId, membershipId, now, h⟩

theorem InviteEffect.consents_kept {call : AuthCall} {db db' : AuthDb}
    (h : InviteEffect call db db') {k : InviteAcceptanceConsent}
    (hk : k ∈ db.inviteAcceptanceConsents) : k ∈ db'.inviteAcceptanceConsents := by
  cases h with
  | kept hinvites hmembers hconsents => exact hconsents.symm ▸ hk
  | issued inviterId now hinvites hmembers hconsents => exact hconsents.symm ▸ hk
  | marked inviteId hcall hinvites hmembers hconsents => exact hconsents.symm ▸ hk
  | accepted inviteId membershipId now record h =>
      exact (Table.mem_insert? h.recorded).mpr (.inl hk)

theorem InviteEffect.membersKept {call : AuthCall} {db db' : AuthDb}
    (h : InviteEffect call db db') : MembersKept db.memberships db'.memberships := by
  cases h with
  | kept hinvites hmembers hconsents => exact .of_eq hmembers
  | issued inviterId now hinvites hmembers hconsents => exact .of_eq hmembers
  | marked inviteId hcall hinvites hmembers hconsents => exact .of_eq hmembers
  | accepted inviteId membershipId now record h => exact h.members

/-- The invite that an acceptance has claimed names the new member. -/
theorem Accepts.claimed_used {db db' : AuthDb} {inviteId membershipId : Uuid} {now : Instant}
    {record : InviteAcceptanceConsent} (h : Accepts db db' inviteId membershipId now record) :
    ∃ i ∈ db'.invites, i.id = inviteId ∧ i.status = .used ∧
      i.usedByMembershipId = some membershipId := by
  obtain ⟨i, hi, hclaim⟩ := h.claimed
  refine ⟨i.usedBy membershipId, ?_, isClaimable_id i hclaim, rfl, rfl⟩
  rw [h.invites]
  unfold claimedInvites
  rw [Table.mem_def, Table.rows_updateWhere]
  exact List.mem_map.mpr ⟨i, hi, if_pos hclaim⟩

theorem InvitesTraced.effect {call : AuthCall} {db db' : AuthDb} (h : InvitesTraced db)
    (heffect : InviteEffect call db db')
    (hmarks : ∀ inviteId, call = .expireInvite inviteId →
      ∀ i ∈ db.invites, i.id = inviteId → i.status ≠ .used) : InvitesTraced db' where
  used i hi hused := by
    rcases heffect.used hi hused with hold | ⟨membershipId, now, record, haccepts⟩
    · obtain ⟨k, hk, hid⟩ := h.used i hold hused
      exact ⟨k, heffect.consents_kept hk, hid⟩
    · exact ⟨record, (Table.mem_insert? haccepts.recorded).mpr (.inr rfl),
        haccepts.recordInvite⟩
  traced k hk := by
    rcases heffect.consents hk with hold | ⟨inviteId, membershipId, now, haccepts⟩
    · obtain ⟨⟨i, hi, hid, hused, hby⟩, m, hm, hmid⟩ := h.traced k hold
      obtain ⟨m', hm', hmid'⟩ := heffect.membersKept m hm
      exact ⟨⟨i, heffect.usedKept hmarks i hi hused, hid, hused, hby⟩, m', hm',
        hmid'.trans hmid⟩
    · rw [haccepts.recordInvite, haccepts.recordMember]
      exact ⟨haccepts.claimed_used, haccepts.joined⟩

theorem marksUnused_finish {w : AuthWorld} {call : AuthCall} {supply : Supply}
    (h : MarksUnused w (.finish call supply)) : ∀ inviteId, call = .expireInvite inviteId →
      ∀ i ∈ w.db.invites, i.id = inviteId → i.status ≠ .used := by
  rintro inviteId rfl
  exact h

theorem InvitesTraced.step {env : AuthEnv} {w : AuthWorld} (h : InvitesTraced w.db)
    (step : AuthStep) (hmarks : MarksUnused w step) : InvitesTraced (step.apply env w).db := by
  have heffect := step.effect env w
  generalize step.apply env w = w' at heffect ⊢
  cases heffect with
  | committed call supply answer c hcall hcommits =>
      exact h.effect (perform_inviteEffect hcommits) (marksUnused_finish hmarks)
  | _ => exact ⟨h.used, h.traced⟩

theorem usedKept_step {env : AuthEnv} (w : AuthWorld) (step : AuthStep)
    (hmarks : MarksUnused w step) : UsedKept w.db.invites (step.apply env w).db.invites := by
  have heffect := step.effect env w
  generalize step.apply env w = w' at heffect ⊢
  cases heffect with
  | committed call supply answer c hcall hcommits =>
      exact (perform_inviteEffect hcommits).usedKept (marksUnused_finish hmarks)
  | _ => exact fun i hi _ => hi

/-- Every mark of the run meets an invite that is not used. -/
def MarksOnlyUnused (env : AuthEnv) (steps : List AuthStep) (w : AuthWorld) : Prop :=
  ∀ pre step post, steps = pre ++ step :: post →
    MarksUnused (run (AuthStep.apply env) pre w) step

theorem MarksOnlyUnused.tail {env : AuthEnv} {step : AuthStep} {steps : List AuthStep}
    {w : AuthWorld} (h : MarksOnlyUnused env (step :: steps) w) :
    MarksOnlyUnused env steps (step.apply env w) := by
  intro pre next post heq
  exact h (step :: pre) next post (by rw [heq]; rfl)

theorem InvitesTraced.run {env : AuthEnv} {w : AuthWorld} (h : InvitesTraced w.db)
    (steps : List AuthStep) (hmarks : MarksOnlyUnused env steps w) :
    InvitesTraced (run (AuthStep.apply env) steps w).db := by
  induction steps generalizing w with
  | nil => exact h
  | cons step steps ih => exact ih (h.step step (hmarks [] step steps rfl)) hmarks.tail

theorem usedKept_run {env : AuthEnv} (w : AuthWorld) (steps : List AuthStep)
    (hmarks : MarksOnlyUnused env steps w) :
    UsedKept w.db.invites (run (AuthStep.apply env) steps w).db.invites := by
  induction steps generalizing w with
  | nil => exact fun i hi _ => hi
  | cons step steps ih =>
      intro i hi hused
      exact ih (step.apply env w) hmarks.tail i
        (usedKept_step w step (hmarks [] step steps rfl) i hi hused) hused

/-- A world at rest in which no invite has been issued yet. -/
structure AuthWorld.WithoutInvites (w : AuthWorld) : Prop where
  atRest : w.AtRest
  invites : w.db.invites.rows = []
  consents : w.db.inviteAcceptanceConsents.rows = []

/-- What an invite is good for: it admits one member, is used exactly when it has, and stays as
it is once used, however the run goes on without marking a used invite. -/
structure InvitesHold (env : AuthEnv) (w : AuthWorld) : Prop where
  traced : InvitesTraced w.db
  oneMember : ∀ k ∈ w.db.inviteAcceptanceConsents, ∀ k' ∈ w.db.inviteAcceptanceConsents,
    k.inviteId = k'.inviteId → k.membershipId = k'.membershipId
  terminal : ∀ later, MarksOnlyUnused env later w →
    UsedKept w.db.invites (run (AuthStep.apply env) later w).db.invites

/-- In every run whose expiry marks meet no used invite, an invite admits at most one member and
is used exactly when it has admitted one, and a used invite is never rewritten. -/
theorem invites_admit_one_member (env : AuthEnv) (w₀ : AuthWorld) (h : w₀.WithoutInvites)
    (steps : List AuthStep) (hmarks : MarksOnlyUnused env steps w₀) :
    InvitesHold env (run (AuthStep.apply env) steps w₀) := by
  have hstart : InvitesTraced w₀.db := by
    constructor
    · intro i hi
      rw [Table.mem_def, h.invites] at hi
      cases hi
    · intro k hk
      rw [Table.mem_def, h.consents] at hk
      cases hk
  have htraced := hstart.run steps hmarks
  exact ⟨htraced, fun k hk k' hk' => htraced.one_member hk hk', usedKept_run _⟩

namespace Demo

def plan : CommissionPlan := ⟨1, 1, "P", 0, 1, 0, 0⟩

def inviter : Membership where
  id := 5
  tenantId := 1
  userId := 1
  role := .member
  roleId := none
  sponsorMembershipId := none
  referralCode := "R"
  path := [5]
  depth := 0
  status := .active
  isTeamLeader := false
  signupIp := none
  disclaimerAcceptedAt := none
  disclaimerVersion := none
  joinedAt := 0
  updatedAt := 0

def invitingWorld : AuthWorld :=
  world { database (directory (only tenant) (only plan)) (only (user 1 "a" "p")) with
    memberships := only inviter }

def signUp : RegisterByInviteInput :=
  ⟨"AAAAAAAAAA", some "b", "q", "B", "en", "2026-07-16", "en"⟩

def signUpCall : AuthCall := .register ⟨signUp, 20, "b", none⟩ ⟨none, none⟩

/-- An invite is issued, and a registration has read it. -/
def openedSteps : List AuthStep :=
  [.read (.issueInvite ⟨5, none, none, none⟩) 0,
    .finish (.issueInvite ⟨5, none, none, none⟩) (supply 0 20 "s"),
    .read (.registerByInvite signUp ⟨none, none⟩) 10, .resume signUp ⟨none, none⟩]

def acceptance : AuthStep := .finish signUpCall (supply 20 30 "t")

/-- The acceptance has read the clock before the invite runs out and commits after another
registration has found the invite overdue. -/
def overtakenAcceptance : List AuthStep :=
  openedSteps ++ [.read (.registerByInvite signUp ⟨none, none⟩) 1209600002, acceptance]

end Demo

theorem marksOnlyUnused_of_unmarked {env : AuthEnv} {steps : List AuthStep} {w : AuthWorld}
    (h : ∀ step ∈ steps, ∀ inviteId supply, step ≠ .finish (.expireInvite inviteId) supply) :
    MarksOnlyUnused env steps w := by
  intro pre step post heq
  have hmem : step ∈ steps := by
    rw [heq]
    exact List.mem_append_right _ List.mem_cons_self
  unfold MarksUnused
  split
  · exact absurd rfl (h _ hmem _ _)
  · trivial

/-- An invite that is issued and accepted is used. -/
theorem invites_admit_one_member_accepted :
    let w := run (AuthStep.apply Demo.env) (Demo.openedSteps ++ [Demo.acceptance])
      Demo.invitingWorld
    w.db.invites.rows.map Invite.status = [.used] ∧ InvitesHold Demo.env w := by
  refine ⟨by decide,
    invites_admit_one_member Demo.env _ ⟨Demo.world_atRest _, rfl, rfl⟩ _ ?_⟩
  refine marksOnlyUnused_of_unmarked fun step hstep => ?_
  simp only [Demo.openedSteps, Demo.acceptance, Demo.signUpCall, List.cons_append,
    List.nil_append, List.mem_cons, List.not_mem_nil, or_false] at hstep
  rcases hstep with rfl | rfl | rfl | rfl | rfl <;> nofun

/-- The mark of a second registration overwrites the acceptance of the first. -/
theorem used_invite_marked_expired :
    ¬∀ steps later : List AuthStep,
      UsedKept (run (AuthStep.apply Demo.env) steps Demo.invitingWorld).db.invites
        (run (AuthStep.apply Demo.env) later
          (run (AuthStep.apply Demo.env) steps Demo.invitingWorld)).db.invites := by
  intro h
  have hkept := h Demo.overtakenAcceptance [.finish (.expireInvite 20) (Demo.supply 0 50 "u")]
  have hused : (run (AuthStep.apply Demo.env) Demo.overtakenAcceptance
      Demo.invitingWorld).db.invites.rows.any (·.status == .used) = true := by decide
  have hmarked : (run (AuthStep.apply Demo.env) [.finish (.expireInvite 20) (Demo.supply 0 50 "u")]
      (run (AuthStep.apply Demo.env) Demo.overtakenAcceptance
        Demo.invitingWorld)).db.invites.rows.all (·.status == .expired) = true := by
    decide
  obtain ⟨i, hi, hstatus⟩ := List.any_eq_true.mp hused
  have hexpired := List.all_eq_true.mp hmarked i (hkept i hi (by simpa using hstatus))
  rw [beq_iff_eq] at hstatus hexpired
  rw [hstatus] at hexpired
  cases hexpired

end Refearn.Auth
