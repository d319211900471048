import Refearn.Memberships.ReferralCodes
/-!
# A referral code that is taken

The loops catch the error of a referral code that is taken, but the transaction is aborted by
then. A second attempt fails with an error of the transaction, which is thrown again. So a
membership is created if and only if the first code is free.
-/

namespace Refearn.Memberships

open Support Support.Callback

/-- No membership of the tenant has the code. -/
def CodeFree (db : CompanyDb) (tenantId : Uuid) (code : String) : Prop :=
  ∀ m ∈ db.memberships, ¬(m.tenantId = tenantId ∧ m.referralCode = code)

instance (db : CompanyDb) (tenantId : Uuid) (code : String) :
    Decidable (CodeFree db tenantId code) :=
  inferInstanceAs (Decidable (∀ m ∈ db.memberships, ¬(m.tenantId = tenantId ∧ m.referralCode = code)))

/-- No other constraint refuses the membership. -/
structure Admits (db : CompanyDb) (m : MembershipRow) : Prop where
  fresh : ∀ m' ∈ db.memberships, m'.id ≠ m.id
  single : ∀ m' ∈ db.memberships, ¬(m'.tenantId = m.tenantId ∧ m'.userId = m.userId)
  tenant : (db.tenants.find? m.tenantId).isSome = true
  user : (db.users.find? m.userId).isSome = true
  sponsor : ∀ id ∈ m.sponsorMembershipId, id = m.id ∨ (db.memberships.find? id).isSome = true

section Insert

variable {db db' : CompanyDb} {m m' : MembershipRow} {e : CallError}

theorem insert?_isSome_iff : (db.memberships.insert? m).isSome = true ↔
    (∀ m' ∈ db.memberships, m'.id ≠ m.id) ∧
      (∀ m' ∈ db.memberships, ¬(m'.tenantId = m.tenantId ∧ m'.userId = m.userId)) ∧
      CodeFree db m.tenantId m.referralCode := by
  have hclash : ∀ m' : MembershipRow, Keyed.clash m' m = false ↔
      ¬(m'.tenantId = m.tenantId ∧ m'.userId = m.userId) ∧
        ¬(m'.tenantId = m.tenantId ∧ m'.referralCode = m.referralCode) := by
    intro m'
    show (m'.tenantId == m.tenantId && (m'.userId == m.userId || m'.referralCode == m.referralCode))
      = false ↔ _
    simp only [Bool.and_eq_false_iff, Bool.or_eq_false_iff, beq_eq_false_iff_ne]
    tauto
  have hkey : ∀ m' : MembershipRow, Keyed.key m' = m'.id := fun _ => rfl
  rw [Option.isSome_iff_exists]
  constructor
  · rintro ⟨t, ht⟩
    obtain ⟨hfree, -⟩ := Table.insert?_eq_some.mp ht
    exact ⟨fun m' hm' => (hfree m' hm').1, fun m' hm' => ((hclash m').mp (hfree m' hm').2).1,
      fun m' hm' => ((hclash m').mp (hfree m' hm').2).2⟩
  · rintro ⟨hid, huser, hcode⟩
    exact Table.exists_insert? fun m' hm' =>
      ⟨hid m' hm', (hclash m').mpr ⟨huser m' hm', hcode m' hm'⟩⟩

theorem find?_inserted {memberships : Table MembershipRow}
    (h : db.memberships.insert? m = some memberships) (id : Uuid) :
    (memberships.find? id).isSome = true ↔
      id = m.id ∨ (db.memberships.find? id).isSome = true := by
  have hmem := fun s => Table.mem_insert? (s := s) h
  simp only [Option.isSome_iff_exists, Table.find?_eq_some, hmem]
  constructor
  · rintro ⟨s, hs | rfl, rfl⟩
    · exact .inr ⟨s, hs, rfl⟩
    · exact .inl rfl
  · rintro (rfl | ⟨s, hs, rfl⟩)
    · exact ⟨m, .inr rfl, rfl⟩
    · exact ⟨s, .inl hs, rfl⟩

/-- A membership is inserted if and only if its code is free and nothing else refuses it. -/
theorem insertMembership_ok (h : insertMembership m db = .ok (m', db')) :
    Admits db m ∧ CodeFree db m.tenantId m.referralCode ∧ m' = m ∧
      db'.memberships.rows = db.memberships.rows ++ [m] ∧ db'.tenants = db.tenants ∧
      db'.users = db.users := by
  unfold insertMembership at h
  split at h
  · cases h
  · next memberships hinsert =>
    obtain ⟨hid, hsingle, hcode⟩ := insert?_isSome_iff.mp (Option.isSome_of_eq_some hinsert)
    split_ifs at h with htenant huser hsponsor
    cases h
    rw [Option.isNone_iff_eq_none, ← Ne, Option.ne_none_iff_isSome] at htenant huser
    refine ⟨⟨hid, hsingle, htenant, huser, fun id hid' => ?_⟩, hcode, rfl,
      (Table.insert?_eq_some.mp hinsert).2, rfl, rfl⟩
    refine (find?_inserted hinsert id).mp ?_
    rw [Bool.not_eq_true, Option.any_eq_false] at hsponsor
    have hsome := hsponsor id hid'
    rwa [Option.isNone_eq_false_iff] at hsome

theorem exists_insertMembership (h : Admits db m) (hcode : CodeFree db m.tenantId m.referralCode) :
    ∃ db', insertMembership m db = .ok (m, db') := by
  obtain ⟨memberships, hinsert⟩ := Option.isSome_iff_exists.mp
    (insert?_isSome_iff.mpr ⟨h.fresh, h.single, hcode⟩)
  have hsponsor : ¬(m.sponsorMembershipId.any fun id => (memberships.find? id).isNone) = true := by
    rw [Bool.not_eq_true, Option.any_eq_false]
    intro id hid
    rw [Option.isNone_eq_false_iff]
    exact (find?_inserted hinsert id).mpr (h.sponsor id hid)
  unfold insertMembership
  rw [hinsert]
  dsimp only
  rw [if_neg (by rw [Option.isNone_eq_false_iff.mpr h.tenant]; exact Bool.false_ne_true),
    if_neg (by rw [Option.isNone_eq_false_iff.mpr h.user]; exact Bool.false_ne_true),
    if_neg hsponsor]
  exact ⟨_, rfl⟩

theorem insertMembership_error (h : insertMembership m db = .error e) : ∃ e', e = .database e' := by
  unfold insertMembership at h
  split at h
  · cases h
    exact ⟨_, rfl⟩
  · split_ifs at h <;>
    · cases h
      exact ⟨_, rfl⟩

end Insert

/-! ## The loop -/

section Loop

variable {row : String → MembershipRow} {failed : CallError} {db db' : CompanyDb}
  {code next : String} {codes : List String} {m : MembershipRow}

theorem createRetrying_ok (h : insertMembership (row code) db = .ok (m, db')) :
    (createRetrying row failed (code :: codes)).run ⟨db, false⟩ = (.ok m, ⟨db', false⟩) :=
  tryCatch_ok (statement_ok h)

/-- After a first attempt that failed, none succeeds, and the error is none of the loop. -/
theorem createRetrying_error (row : String → MembershipRow) (failed : CallError) (next : String)
    (codes : List String) {e : CallError} (h : insertMembership (row code) db = .error e) :
    ∃ e', (createRetrying row failed (code :: next :: codes)).run ⟨db, false⟩ =
      (.error (.database e'), ⟨db, true⟩) := by
  have hinsert : (exec (insertMembership (row code))).run ⟨db, false⟩ = (.error e, ⟨db, true⟩) :=
    statement_error h
  unfold createRetrying
  refine (exists_congr fun _ => Eq.congr_left (tryCatch_error hinsert)).mpr ?_
  split_ifs with hcollision
  · exact ⟨.inFailedTransaction, tryCatch_error statement_aborted⟩
  · obtain ⟨e', rfl⟩ := insertMembership_error h
    exact ⟨e', rfl⟩

end Loop

/-! ## What the attempts are for -/

/-- The membership is created with the first code that is free, if there is one and nothing else
refuses it; otherwise the call fails with its own conflict and nothing is written. -/
structure Survives (admits : Prop) (db : CompanyDb) (tenantId : Uuid)
    (row : String → MembershipRow) (message : String) (codes : List String)
    (outcome : Except CallError MembershipRow × CompanyDb) : Prop where
  commits : ∀ code, codes.find? (fun c => CodeFree db tenantId c) = some code → admits →
    outcome.1 = .ok (row code) ∧
      outcome.2.memberships.rows = db.memberships.rows ++ [row code]
  conflicts : codes.find? (fun c => CodeFree db tenantId c) = none ∨ ¬admits →
    outcome = (.error (.conflict message), db)

section Survives

variable {admits : Prop} {db : CompanyDb} {tenantId : Uuid} {row : String → MembershipRow}
  {message : String} {codes : List String}
  {outcome : Except CallError MembershipRow × CompanyDb}

theorem not_survives_of_error {e : CallError} (h : outcome.1 = .error e)
    (hne : e ≠ .conflict message) : ¬Survives admits db tenantId row message codes outcome := by
  intro hsurvives
  by_cases hadmits : admits
  · cases hfind : codes.find? (fun c => CodeFree db tenantId c) with
    | none =>
        rw [hsurvives.conflicts (.inl hfind)] at h
        cases h
        exact hne rfl
    | some code =>
        rw [(hsurvives.commits code hfind hadmits).1] at h
        cases h
  · rw [hsurvives.conflicts (.inr hadmits)] at h
    cases h
    exact hne rfl

theorem survives_of_ok {code : String} {db' : CompanyDb} (hadmits : admits)
    (hfree : CodeFree db tenantId code)
    (hrows : db'.memberships.rows = db.memberships.rows ++ [row code]) :
    Survives admits db tenantId row message (code :: codes) (.ok (row code), db') := by
  have hfind : (code :: codes).find? (fun c => CodeFree db tenantId c) = some code :=
    List.find?_cons_of_pos (decide_eq_true hfree)
  refine ⟨fun c hc _ => ?_, fun h => ?_⟩
  · rw [hfind] at hc
    cases hc
    exact ⟨rfl, hrows⟩
  · rcases h with h | h
    · rw [hfind] at h
      cases h
    · exact absurd hadmits h

end Survives

theorem attempts_eq (randomCode : Nat → String) : attempts randomCode =
    [randomCode 0, randomCode 1, randomCode 2, randomCode 3, randomCode 4] := rfl

/-- The transaction of one loop. -/
theorem survives_createRetrying_iff (db : CompanyDb) (base : MembershipRow) (message : String)
    (randomCode : Nat → String) :
    Survives (Admits db base) db base.tenantId (fun code => { base with referralCode := code })
        message (attempts randomCode)
        (transact (createRetrying (fun code => { base with referralCode := code })
          (.conflict message) (attempts randomCode)) db) ↔
      CodeFree db base.tenantId (randomCode 0) ∧ Admits db base := by
  rw [attempts_eq]
  cases hinsert : insertMembership { base with referralCode := randomCode 0 } db with
  | ok r =>
      obtain ⟨m, db'⟩ := r
      obtain ⟨⟨hid, hsingle, htenant, huser, hsponsor⟩, hcode, rfl, hrows, -⟩ :=
        insertMembership_ok hinsert
      have hadmits : Admits db base := ⟨hid, hsingle, htenant, huser, hsponsor⟩
      rw [transact_ok (createRetrying_ok hinsert)]
      exact iff_of_true (survives_of_ok hadmits hcode hrows) ⟨hcode, hadmits⟩
  | error e =>
      obtain ⟨e', he'⟩ := createRetrying_error
        (fun code => { base with referralCode := code }) (.conflict message)
        (randomCode 1) [randomCode 2, randomCode 3, randomCode 4] hinsert
      rw [transact_error he']
      refine iff_of_false (not_survives_of_error rfl nofun) ?_
      rintro ⟨hcode, hid, hsingle, htenant, huser, hsponsor⟩
      obtain ⟨db', hok⟩ := exists_insertMembership
        (m := { base with referralCode := randomCode 0 })
        ⟨hid, hsingle, htenant, huser, hsponsor⟩ hcode
      rw [hinsert] at hok
      cases hok

/-! ## Creating a company -/

section Company

variable {env : Env} {input : CreateCompanyInput} {draws : CompanyDraws} {db db₁ db₂ : CompanyDb}
  {owner : Uuid × Bool}

def companyTenant (env : Env) (input : CreateCompanyInput) (draws : CompanyDraws) :
    CompanyTenant :=
  ⟨draws.tenantId, env.toLowerCase input.slug, input.name, input.currency, input.timezone⟩

def companyOwner (env : Env) (input : CreateCompanyInput) (draws : CompanyDraws) : CompanyUser :=
  ⟨draws.userId, env.toLowerCase input.ownerEmail, input.ownerName, none⟩

/-- The user that the owner membership is for. -/
def ownerId (env : Env) (input : CreateCompanyInput) (draws : CompanyDraws) (db : CompanyDb) :
    Uuid :=
  ((db.users.rows.find? (·.email = env.toLowerCase input.ownerEmail)).map CompanyUser.id).getD
    draws.userId

/-- Nothing but the code of the owner membership can make `createCompany` fail. -/
def CompanyAdmits (env : Env) (input : CreateCompanyInput) (draws : CompanyDraws)
    (db : CompanyDb) : Prop :=
  ∃ db₁ db₂ owner, createTenant (companyTenant env input draws) db = .ok ((), db₁) ∧
    ensureOwner (companyOwner env input draws) db₁ = .ok (owner, db₂) ∧
    Admits db₂ (ownerRow draws.tenantId owner.1 draws.membershipId draws.now "")

theorem createTenant_ok {tenant : CompanyTenant} (h : createTenant tenant db = .ok ((), db₁)) :
    db₁.memberships = db.memberships ∧ db₁.users = db.users := by
  unfold createTenant at h
  split at h
  · cases h
  · cases h
    exact ⟨rfl, rfl⟩

theorem ensureOwner_ok {user : CompanyUser} (h : ensureOwner user db = .ok (owner, db₁)) :
    db₁.memberships = db.memberships ∧
      owner.1 = ((db.users.rows.find? (·.email = user.email)).map CompanyUser.id).getD user.id := by
  unfold ensureOwner at h
  split at h
  · next existing hfind =>
    cases h
    rw [hfind]
    exact ⟨rfl, rfl⟩
  · next hfind =>
    rw [hfind]
    split at h
    · cases h
    · cases h
      exact ⟨rfl, rfl⟩

theorem createTenant_error {tenant : CompanyTenant} {e : CallError}
    (h : createTenant tenant db = .error e) : ∃ e', e = .database e' := by
  unfold createTenant at h
  split at h
  · cases h
    exact ⟨_, rfl⟩
  · cases h

theorem ensureOwner_error {user : CompanyUser} {e : CallError}
    (h : ensureOwner user db = .error e) : ∃ e', e = .database e' := by
  unfold ensureOwner at h
  split at h
  · cases h
  · split at h
    · cases h
      exact ⟨_, rfl⟩
    · cases h

/-- The transaction from the owner membership on. -/
theorem run_createCompany (htenant : createTenant (companyTenant env input draws) db = .ok ((), db₁))
    (howner : ensureOwner (companyOwner env input draws) db₁ = .ok (owner, db₂)) :
    (createCompany env input draws).run ⟨db, false⟩ =
      (createRetrying (ownerRow draws.tenantId owner.1 draws.membershipId draws.now)
          (.conflict "referral kodu uretilemedi") (attempts draws.randomCode) >>= fun m =>
        if owner.2 then pure m
        else do
          exec (rememberMembership owner.1 m.id)
          pure m).run ⟨db₂, false⟩ := by
  unfold createCompany
  exact (bind_ok (statement_ok htenant)).trans (bind_ok (statement_ok howner))

/-- The user is there when its last membership is remembered. -/
theorem exists_rememberMembership (db : CompanyDb) (m : MembershipRow) (existing : Bool)
    (h : (db.users.find? m.userId).isSome = true) : ∃ db',
      (if existing then pure m
        else do
          exec (rememberMembership m.userId m.id)
          pure m : CompanyTx MembershipRow).run ⟨db, false⟩ = (.ok m, ⟨db', false⟩) ∧
        db'.memberships = db.memberships := by
  cases existing with
  | true => exact ⟨db, rfl, rfl⟩
  | false =>
      have hremember : rememberMembership m.userId m.id db =
          .ok ((), { db with
            users := db.users.updateKey m.userId _ (keepsIndexes_lastMembership m.id) }) := by
        unfold rememberMembership
        rw [if_neg (by rw [Option.isNone_eq_false_iff.mpr h]; exact Bool.false_ne_true)]
      exact ⟨_, bind_ok (statement_ok hremember), rfl⟩

theorem survives_createCompany_iff (env : Env) (input : CreateCompanyInput) (draws : CompanyDraws)
    (db : CompanyDb) :
    Survives (CompanyAdmits env input draws db) db draws.tenantId
        (ownerRow draws.tenantId (ownerId env input draws db) draws.membershipId draws.now)
        "referral kodu uretilemedi" (attempts draws.randomCode)
        (transact (createCompany env input draws) db) ↔
      CodeFree db draws.tenantId (draws.randomCode 0) ∧ CompanyAdmits env input draws db := by
  cases htenant : createTenant (companyTenant env input draws) db with
  | error e =>
      obtain ⟨e', rfl⟩ := createTenant_error htenant
      have hrun : (createCompany env input draws).run ⟨db, false⟩ =
          (.error (.database e'), ⟨db, true⟩) := bind_error (statement_error htenant)
      rw [transact_error hrun]
      refine iff_of_false (not_survives_of_error rfl nofun) ?_
      rintro ⟨-, db₁, db₂, owner, h, -⟩
      rw [htenant] at h
      cases h
  | ok r =>
      obtain ⟨⟨⟩, db₁⟩ := r
      obtain ⟨hmemberships₁, husers₁⟩ := createTenant_ok htenant
      cases howner : ensureOwner (companyOwner env input draws) db₁ with
      | error e =>
          obtain ⟨e', rfl⟩ := ensureOwner_error howner
          have hrun : (createCompany env input draws).run ⟨db, false⟩ =
              (.error (.database e'), ⟨db₁, true⟩) :=
            (bind_ok (statement_ok htenant)).trans (bind_error (statement_error howner))
          rw [transact_error hrun]
          refine iff_of_false (not_survives_of_error rfl nofun) ?_
          rintro ⟨-, db₁', db₂, owner, h, h', -⟩
          rw [htenant] at h
          cases h
          rw [howner] at h'
          cases h'
      | ok r =>
          obtain ⟨owner, db₂⟩ := r
          obtain ⟨hmemberships₂, hid⟩ := ensureOwner_ok howner
          have hrun := run_createCompany htenant howner
          have hmemberships : db₂.memberships = db.memberships := hmemberships₂.trans hmemberships₁
          have hownerId : owner.1 = ownerId env input draws db := by
            rw [hid, husers₁]
            rfl
          have hcodes : ∀ code, CodeFree db₂ draws.tenantId code ↔
              CodeFree db draws.tenantId code := by
            intro code
            unfold CodeFree
            rw [hmemberships]
          rw [attempts_eq] at hrun ⊢
          rw [← hownerId]
          cases hinsert : insertMembership (ownerRow draws.tenantId owner.1 draws.membershipId
              draws.now (draws.randomCode 0)) db₂ with
          | ok r =>
              obtain ⟨m, db₃⟩ := r
              obtain ⟨⟨hfresh, hsingle, htenant', huser, hsponsor⟩, hcode, rfl, hrows, -, husers⟩ :=
                insertMembership_ok hinsert
              have hadmits : CompanyAdmits env input draws db :=
                ⟨db₁, db₂, owner, htenant, howner, hfresh, hsingle, htenant', huser, hsponsor⟩
              obtain ⟨db₄, hremember, hsame⟩ := exists_rememberMembership db₃
                (ownerRow draws.tenantId owner.1 draws.membershipId draws.now
                  (draws.randomCode 0)) owner.2 (by rw [husers]; exact huser)
              rw [transact_ok (hrun.trans
                ((bind_ok (createRetrying_ok hinsert)).trans hremember))]
              have hcode' := (hcodes _).mp hcode
              refine iff_of_true (survives_of_ok hadmits hcode' ?_) ⟨hcode', hadmits⟩
              rw [hsame, hrows, hmemberships]
          | error e =>
              obtain ⟨e', he'⟩ := createRetrying_error
                (ownerRow draws.tenantId owner.1 draws.membershipId draws.now)
                (.conflict "referral kodu uretilemedi") (draws.randomCode 1)
                [draws.randomCode 2, draws.randomCode 3, draws.randomCode 4] hinsert
              rw [transact_error (hrun.trans (bind_error he'))]
              refine iff_of_false (not_survives_of_error rfl nofun) ?_
              rintro ⟨hcode, db₁', db₂', owner', h, h', hfresh, hsingle, htenant', huser, hsponsor⟩
              rw [htenant] at h
              cases h
              rw [howner] at h'
              cases h'
              obtain ⟨db', hok⟩ := exists_insertMembership
                (m := ownerRow draws.tenantId owner.1 draws.membershipId draws.now
                  (draws.randomCode 0)) ⟨hfresh, hsingle, htenant', huser, hsponsor⟩
                ((hcodes _).mpr hcode)
              rw [hinsert] at hok
              cases hok

end Company

/-- The attempts are of use in none of the three places: a membership is created as they intend,
or refused with their conflict, if and only if the first code is free and nothing else refuses
the membership. -/
theorem referralCodes_survive_iff (db : CompanyDb) (randomCode : Nat → String) (now : Instant)
    (id : Uuid) :
    (∀ params : CreateUnderParams,
      Survives (params.sponsor.tenantId = params.tenantId ∧ Admits db (underRow params id now ""))
          db params.tenantId (underRow params id now) "could not generate referral code"
          (attempts randomCode) (transact (createUnderRetrying params id now randomCode) db) ↔
        CodeFree db params.tenantId (randomCode 0) ∧
          params.sponsor.tenantId = params.tenantId ∧ Admits db (underRow params id now "")) ∧
    (∀ params : CreateRootParams,
      Survives (Admits db (rootRow params id now ""))
          db params.tenantId (rootRow params id now) "referral kodu uretilemedi"
          (attempts randomCode) (transact (createRootRetrying params id now randomCode) db) ↔
        CodeFree db params.tenantId (randomCode 0) ∧ Admits db (rootRow params id now "")) ∧
    ∀ (env : Env) (input : CreateCompanyInput) (tenantId userId : Uuid),
      let draws : CompanyDraws := ⟨tenantId, userId, id, now, randomCode⟩
      Survives (CompanyAdmits env input draws db) db tenantId
          (ownerRow tenantId (ownerId env input draws db) id now) "referral kodu uretilemedi"
          (attempts randomCode) (transact (createCompany env input draws) db) ↔
        CodeFree db tenantId (randomCode 0) ∧ CompanyAdmits env input draws db := by
  refine ⟨fun params => ?_, fun params => ?_, fun env input tenantId userId => ?_⟩
  · by_cases htenant : params.sponsor.tenantId = params.tenantId
    · have hrun : createUnderRetrying params id now randomCode =
          createRetrying (underRow params id now) (.conflict "could not generate referral code")
            (attempts randomCode) := by
        unfold createUnderRetrying
        rw [if_neg (not_not_intro htenant)]
      rw [hrun, and_iff_right htenant]
      exact survives_createRetrying_iff db (underRow params id now "") _ randomCode
    · have hrun : createUnderRetrying params id now randomCode =
          throw (.conflict "sponsor belongs to another tenant") := by
        unfold createUnderRetrying
        rw [if_pos htenant]
      rw [hrun, transact_error (run_throw (s := ⟨db, false⟩))]
      exact iff_of_false (not_survives_of_error rfl (by decide)) fun h => htenant h.2.1
  · exact survives_createRetrying_iff db (rootRow params id now "") _ randomCode
  · exact survives_createCompany_iff env input ⟨tenantId, userId, id, now, randomCode⟩ db

/-! ## A code that is taken -/

namespace Demo

/-- The second code is free, the first is that of the only member. -/
def codes : Nat → String
  | 0 => "AAAAAAAA"
  | _ => "BBBBBBBB"

def root : MembershipRow :=
  rootRow ⟨1, 10, none, none⟩ 100 0 "AAAAAAAA"

def company : CompanyDb where
  tenants := ⟨[⟨1, "acme", "Acme", "USD", "UTC"⟩], by decide, by decide⟩
  users := ⟨[⟨10, "ada@example.org", "Ada", some 100⟩, ⟨11, "bob@example.org", "Bob", none⟩],
    by decide, by decide⟩
  memberships := ⟨[root], by decide, by decide⟩

def params : CreateUnderParams := ⟨1, 11, root.sponsor, none⟩

theorem admits : Admits company (underRow params 101 0 "") where
  fresh := by decide
  single := by decide
  tenant := rfl
  user := rfl
  sponsor id hid := by
    cases hid
    exact .inr rfl

end Demo

/-- A second attempt would find a free code. -/
theorem not_referralCodes_survive :
    ¬Survives (Demo.params.sponsor.tenantId = Demo.params.tenantId ∧
        Admits Demo.company (underRow Demo.params 101 0 "")) Demo.company 1
      (underRow Demo.params 101 0) "could not generate referral code" (attempts Demo.codes)
      (transact (createUnderRetrying Demo.params 101 0 Demo.codes) Demo.company) := by
  intro h
  have hcommits := (h.commits "BBBBBBBB" (by decide) ⟨rfl, Demo.admits⟩).1
  have houtcome : (transact (createUnderRetrying Demo.params 101 0 Demo.codes) Demo.company).1 =
      .error (.database .inFailedTransaction) := rfl
  rw [houtcome] at hcommits
  cases hcommits

end Refearn.Memberships
