import Refearn.Engine.Run
import Refearn.Sanctions.Screen
import Refearn.Support.Casing
import Mathlib.Algebra.Order.BigOperators.Group.List
import Mathlib.Data.List.Perm.Subperm
/-!
# The screens of names

Both screens look for the words of an entry among the words of a name. They differ in one
thing: the service does not look at names of less than three units. What they find depends on
the words of the name in lower case only, and words that are added do not hide an entry.
-/

namespace Refearn.Sanctions

open Support
open Payouts (normalizeName sanctionsMatch runtimePayoutBlock SANCTIONS_BLOCK fraudPayoutBlock
  kycPayoutBlock)

/-- A member about whom only the list of sanctions is left to decide. -/
structure Screened (registry : Registry) (now : Instant) (tenantId membershipId : Uuid) where
  tenant : Tenant
  membership : Membership
  find_tenant : registry.tenants.find? tenantId = some tenant
  find_membership : registry.memberships.find? membershipId = some membership
  tenantId_eq : membership.tenantId = tenantId
  no_fraud : fraudPayoutBlock (registry.fraudFlags.find? membershipId) = none
  no_kyc : tenant.requireKycForPayout = true →
    kycPayoutBlock (registry.payoutProfiles.find? membershipId) now = none
  no_hit : ∀ p ∈ registry.payoutProfiles.find? membershipId, p.sanctionsHit = false

section Screens

variable {env : Env} {entries : List SanctionsEntry} {name : String}

/-- The legal name and the name of the account. -/
def Screened.names {registry : Registry} {now : Instant} {tenantId membershipId : Uuid}
    (m : Screened registry now tenantId membershipId) : List String :=
  ((registry.payoutProfiles.find? membershipId).map PayoutProfile.legalName).toList ++
    ((registry.users.find? m.membership.userId).map User.fullName).toList

/-- All words of a listed name are words of the name. -/
def Names (env : Env) (entry name : String) : Prop :=
  words entry ≠ [] ∧ ∀ w ∈ words entry, w ∈ words (normalizeName env name)

theorem sanctionsMatch_iff {list : List String} :
    sanctionsMatch env list name = true ↔ ∃ entry ∈ list, Names env entry name := by
  simp only [sanctionsMatch, Names, List.any_eq_true, Bool.and_eq_true, Bool.not_eq_true',
    List.isEmpty_eq_false_iff, List.all_eq_true, decide_eq_true_eq]

theorem isHit_iff : isHit env entries name = true ↔
    3 ≤ utf16Length (normalizeName env name) ∧
      sanctionsMatch env (entries.map (·.normalizedName)) name = true := by
  rw [sanctionsMatch_iff]
  unfold isHit screen
  dsimp only
  split_ifs with hshort
  · exact iff_of_false (by simp) fun h => absurd h.1 (by omega)
  · rw [Bool.not_eq_true', List.isEmpty_eq_false_iff, Ne, List.map_eq_nil_iff,
      List.filter_eq_nil_iff]
    simp only [Bool.and_eq_true, Bool.not_eq_true', List.isEmpty_eq_false_iff, List.all_eq_true,
      decide_eq_true_eq, not_forall, Classical.not_not, List.mem_map, Names]
    constructor
    · rintro ⟨e, he, hnames⟩
      exact ⟨by omega, e.normalizedName, ⟨e, he, rfl⟩, hnames⟩
    · rintro ⟨-, _, ⟨e, he, rfl⟩, hnames⟩
      exact ⟨e, he, hnames⟩

/-- The live block of such a member is the screen without the bound on the length. -/
theorem Screened.runtimePayoutBlock_iff {registry : Registry} {now : Instant}
    {tenantId membershipId : Uuid} (m : Screened registry now tenantId membershipId)
    (hempty : sanctionsMatch env registry.sanctions "" = false) :
    runtimePayoutBlock env registry now tenantId membershipId = some SANCTIONS_BLOCK ↔
      ∃ name ∈ m.names, sanctionsMatch env registry.sanctions name = true := by
  have hmember : (registry.memberships.find? membershipId).filter (·.tenantId = tenantId) =
      some m.membership := by
    rw [m.find_membership, Option.filter_some, if_pos (decide_eq_true m.tenantId_eq)]
  have hkyc : (if m.tenant.requireKycForPayout = true then
      kycPayoutBlock (registry.payoutProfiles.find? membershipId) now else none) = none := by
    split_ifs with hrequired
    · exact m.no_kyc hrequired
    · rfl
  have hhit : (registry.payoutProfiles.find? membershipId).any (·.sanctionsHit) = false := by
    rw [Option.any_eq_false]
    exact m.no_hit
  have hnames : ((m.names.filter (· ≠ "")).any (sanctionsMatch env registry.sanctions)) = true ↔
      ∃ name ∈ m.names, sanctionsMatch env registry.sanctions name = true := by
    simp only [List.any_eq_true, List.mem_filter, decide_eq_true_eq]
    constructor
    · rintro ⟨name, ⟨hname, -⟩, hmatch⟩
      exact ⟨name, hname, hmatch⟩
    · rintro ⟨name, hname, hmatch⟩
      refine ⟨name, ⟨hname, ?_⟩, hmatch⟩
      rintro rfl
      rw [hempty] at hmatch
      cases hmatch
  rw [← hnames]
  unfold runtimePayoutBlock
  rw [m.find_tenant, hmember]
  dsimp only
  rw [m.no_fraud]
  dsimp only
  rw [hkyc]
  dsimp only
  rw [hhit, if_neg Bool.false_ne_true]
  split_ifs with hmatch
  · exact iff_of_true rfl hmatch
  · exact iff_of_false not_false hmatch

end Screens

/-! ## Words in lower case -/

section Lowered

variable (t : CaseTable) (env : Env)

/-- The environment with the lower case of Unicode. -/
def unicode : Env := { env with toLowerCase := t.toLowerCase }

/-- The words of a name in lower case. -/
def lowered (name : String) : List (List Char) := pieces (t.lowerFrom [] name.toList)

variable {t env} {a b name : String}

theorem normalizeName_unicode (name : String) :
    normalizeName (unicode t env) name = String.ofList (joined (lowered t name)) := by
  have htrim : (trim (t.toLowerCase name)).toList = trimChars (t.lowerFrom [] name.toList) := by
    unfold trim CaseTable.toLowerCase
    rw [String.toList_ofList, String.toList_ofList]
  unfold normalizeName
  rw [show (unicode t env).toLowerCase = t.toLowerCase from rfl, htrim, collapseSpaces_trimChars]
  rfl

theorem words_normalizeName (name : String) :
    words (normalizeName (unicode t env) name) = (lowered t name).map String.ofList := by
  rw [normalizeName_unicode]
  exact words_joined fun w hw => mem_pieces hw

def units (cs : List Char) : Nat := (cs.map fun c => if c.toNat < 0x10000 then 1 else 2).sum

theorem units_joined (ws : List (List Char)) :
    units (joined ws) = (ws.map fun w => units w + 1).sum - 1 := by
  induction ws with
  | nil => rfl
  | cons w ws ih =>
      cases ws with
      | nil =>
          rw [joined_singleton, List.map_singleton, List.sum_singleton]
          rfl
      | cons v ws =>
          have hblank : (if ' '.toNat < 0x10000 then 1 else 2) = 1 := rfl
          unfold units at ih ⊢
          rw [joined_cons_cons, List.map_append, List.sum_append, List.map_cons, List.sum_cons, ih,
            hblank]
          simp only [List.map_cons, List.sum_cons]
          omega

/-- A name gets no shorter by more words. -/
theorem utf16Length_mono (h : (lowered t a).Subperm (lowered t b)) :
    utf16Length (normalizeName (unicode t env) a) ≤
      utf16Length (normalizeName (unicode t env) b) := by
  have hunits : ∀ name, utf16Length (normalizeName (unicode t env) name) =
      units (joined (lowered t name)) := by
    intro name
    unfold utf16Length units
    rw [normalizeName_unicode, String.toList_ofList]
  obtain ⟨ws, hperm, hsublist⟩ := h
  have hsum := (hsublist.map fun w => units w + 1).sum_le_sum fun _ _ => Nat.zero_le _
  rw [hunits, hunits, units_joined, units_joined,
    ← (hperm.map fun w => units w + 1).sum_eq]
  omega

theorem Names.mono {entry : String} (h : Names (unicode t env) entry a)
    (hwords : lowered t a ⊆ lowered t b) : Names (unicode t env) entry b := by
  refine ⟨h.1, fun w hw => ?_⟩
  have hmem := h.2 w hw
  rw [words_normalizeName] at hmem ⊢
  exact List.map_subset _ hwords hmem

theorem lowered_subperm (ha : CaseTable.Plain a.toList) (hb : CaseTable.Plain b.toList)
    (h : (pieces a.toList).Subperm (pieces b.toList)) :
    (lowered t a).Subperm (lowered t b) := by
  unfold lowered
  obtain ⟨ws, hperm, hsublist⟩ := h
  rw [CaseTable.pieces_lowerFrom ha, CaseTable.pieces_lowerFrom hb]
  exact ⟨ws.map _, hperm.map _, hsublist.map _⟩

end Lowered

/-! ## Verdicts -/

/-- What the live block and the service say about a name. -/
def verdicts (env : Env) (entries : List SanctionsEntry) (name : String) : Bool × Bool :=
  (sanctionsMatch env (entries.map (·.normalizedName)) name, isHit env entries name)

section Verdicts

variable {t : CaseTable} {env : Env} {entries : List SanctionsEntry} {a b name : String}

theorem verdicts_le {env' : Env} {entries' : List SanctionsEntry}
    (hlength : utf16Length (normalizeName env a) ≤ utf16Length (normalizeName env' b))
    (hmatch : sanctionsMatch env (entries.map (·.normalizedName)) a = true →
      sanctionsMatch env' (entries'.map (·.normalizedName)) b = true) :
    verdicts env entries a ≤ verdicts env' entries' b := by
  have hhit : isHit env entries a = true → isHit env' entries' b = true := by
    intro hhit
    obtain ⟨hlong, hnames⟩ := isHit_iff.mp hhit
    exact isHit_iff.mpr ⟨hlong.trans hlength, hmatch hnames⟩
  exact Prod.mk_le_mk.mpr ⟨Bool.le_iff_imp.mpr hmatch, Bool.le_iff_imp.mpr hhit⟩

theorem verdicts_mono_words (h : (lowered t a).Subperm (lowered t b)) :
    verdicts (unicode t env) entries a ≤ verdicts (unicode t env) entries b := by
  refine verdicts_le (utf16Length_mono h) fun hmatch => ?_
  obtain ⟨entry, hentry, hnames⟩ := sanctionsMatch_iff.mp hmatch
  exact sanctionsMatch_iff.mpr ⟨entry, hentry, hnames.mono h.subset⟩

theorem verdicts_mono_entries {entries' : List SanctionsEntry} (h : entries ⊆ entries') :
    verdicts env entries name ≤ verdicts env entries' name := by
  refine verdicts_le (Nat.le_refl _) fun hmatch => ?_
  obtain ⟨entry, hentry, hnames⟩ := sanctionsMatch_iff.mp hmatch
  have hentry' : entry ∈ entries'.map (·.normalizedName) := List.map_subset _ h hentry
  exact sanctionsMatch_iff.mpr ⟨entry, hentry', hnames⟩

theorem sanctionsMatch_empty (list : List String) :
    sanctionsMatch (unicode t env) list "" = false := by
  refine Bool.eq_false_iff.mpr fun hmatch => ?_
  obtain ⟨entry, -, hne, hall⟩ := sanctionsMatch_iff.mp hmatch
  obtain ⟨w, ws, hws⟩ := List.exists_cons_of_ne_nil hne
  have hmem := hall w (hws ▸ List.mem_cons_self)
  rw [words_normalizeName] at hmem
  simp [lowered, CaseTable.lowerFrom, pieces_nil] at hmem

/-- The live block reports a member if and only if the service finds one of its two names, or
one of them is too short for the service and holds the words of an entry. Neither screen
minds the case of ASCII letters; neither minds white space and the order of the words in
names without a U+FEFF that a capital sigma could look beyond, and words added to such names
hide nothing. Nor do entries that are added. -/
theorem payoutScreens_agree (t : CaseTable) (env : Env) (entries : List SanctionsEntry) :
    (∀ (registry : Registry) (now : Instant) (tenantId membershipId : Uuid)
        (m : Screened registry now tenantId membershipId),
      registry.sanctions = entries.map (·.normalizedName) →
      (runtimePayoutBlock (unicode t env) registry now tenantId membershipId =
          some SANCTIONS_BLOCK ↔
        ∃ name ∈ m.names, isHit (unicode t env) entries name = true ∨
          utf16Length (normalizeName (unicode t env) name) < 3 ∧
            ∃ e ∈ entries, Names (unicode t env) e.normalizedName name)) ∧
    (∀ a b : String, a.toList.map Char.toLower = b.toList.map Char.toLower →
      verdicts (unicode t env) entries a = verdicts (unicode t env) entries b) ∧
    (∀ a b : String, CaseTable.Plain a.toList → CaseTable.Plain b.toList →
      (pieces a.toList).Perm (pieces b.toList) →
      verdicts (unicode t env) entries a = verdicts (unicode t env) entries b) ∧
    (∀ a b : String, CaseTable.Plain a.toList → CaseTable.Plain b.toList →
      (pieces a.toList).Subperm (pieces b.toList) →
      verdicts (unicode t env) entries a ≤ verdicts (unicode t env) entries b) ∧
    ∀ (entries' : List SanctionsEntry) (name : String), entries ⊆ entries' →
      verdicts (unicode t env) entries name ≤ verdicts (unicode t env) entries' name := by
  refine ⟨fun registry now tenantId membershipId m hentries => ?_, fun a b h => ?_,
    fun a b ha hb h => ?_, fun a b ha hb h => ?_, fun entries' name h => verdicts_mono_entries h⟩
  · rw [m.runtimePayoutBlock_iff (sanctionsMatch_empty _), hentries]
    refine exists_congr fun name => and_congr_right fun _ => ?_
    rw [isHit_iff, sanctionsMatch_iff]
    have hmap : (∃ entry ∈ entries.map (·.normalizedName), Names (unicode t env) entry name) ↔
        ∃ e ∈ entries, Names (unicode t env) e.normalizedName name := by
      simp only [List.mem_map, exists_exists_and_eq_and]
    rw [hmap, ← or_and_right]
    exact (and_iff_right (by omega)).symm
  · have hname : lowered t a = lowered t b := by
      have hmap := CaseTable.lowerFrom_map (t := t) []
      unfold lowered
      rw [← hmap a.toList, ← hmap b.toList, h]
    exact le_antisymm (verdicts_mono_words (hname ▸ List.Subperm.refl _))
      (verdicts_mono_words (hname ▸ List.Subperm.refl _))
  · exact le_antisymm (verdicts_mono_words (lowered_subperm ha hb h.subperm))
      (verdicts_mono_words (lowered_subperm hb ha h.symm.subperm))
  · exact verdicts_mono_words (lowered_subperm ha hb h)

end Verdicts

/-! ## A short name, and a sigma before U+FEFF -/

namespace Demo

def isGreek (c : Char) : Bool := ['Α', 'Β', 'Σ', 'α', 'β', 'σ', 'ς'].contains c

def lower (c : Char) : List Char :=
  if c.isUpper then [c.toLower]
  else if c = 'Α' then ['α']
  else if c = 'Β' then ['β']
  else if c = 'Σ' then ['σ']
  else [c]

theorem isSpace_of_isAlpha {c : Char} (h : c.isAlpha = true) : isSpace c = false := by
  simp only [Char.isAlpha, Char.isUpper, Char.isLower, Bool.or_eq_true, Bool.and_eq_true,
    decide_eq_true_eq, UInt32.le_iff_toNat_le] at h
  have hbounds : (65 ≤ c.toNat ∧ c.toNat ≤ 90) ∨ (97 ≤ c.toNat ∧ c.toNat ≤ 122) := h
  simp only [isSpace, Bool.or_eq_false_iff, Bool.and_eq_false_iff, decide_eq_false_iff_not,
    beq_eq_false_iff_ne]
  omega

theorem isUpper_eq_false {c : Char} (h : isSpace c = true) : c.isUpper = false := by
  refine Bool.eq_false_iff.mpr fun hupper => ?_
  have halpha : c.isAlpha = true := by rw [Char.isAlpha, hupper, Bool.true_or]
  rw [isSpace_of_isAlpha halpha] at h
  cases h

/-- What a character that is no capital letter is mapped to. -/
theorem lower_eq {c : Char} (h : c.isUpper = false) (hgreek : isGreek c = false) :
    lower c = [c] := by
  have hne : ∀ d, isGreek d = true → c ≠ d := by
    rintro d hd rfl
    rw [hgreek] at hd
    cases hd
  unfold lower
  rw [if_neg (by rw [h]; exact Bool.false_ne_true), if_neg (hne 'Α' rfl), if_neg (hne 'Β' rfl),
    if_neg (hne 'Σ' rfl)]

theorem isGreek_eq_false {c : Char} (h : isSpace c = true ∨ c.isLower = true) :
    isGreek c = false := by
  refine Bool.eq_false_iff.mpr fun hgreek => ?_
  have hmem := List.contains_iff_mem.mp hgreek
  simp only [List.mem_cons, List.not_mem_nil, or_false] at hmem
  rcases hmem with rfl | rfl | rfl | rfl | rfl | rfl | rfl <;> exact absurd h (by decide)

/-- The case of ASCII letters and of three Greek ones. -/
def caseTable : CaseTable where
  lower := lower
  cased c := c.isAlpha || isGreek c
  caseIgnorable c := c = '\uFEFF'
  lower_ne c := by
    unfold lower
    split_ifs <;> exact List.cons_ne_nil _ _
  lower_upper c h := if_pos h
  lower_lower c h :=
    lower_eq (Bool.eq_false_iff.mpr fun hupper => Char.not_isUpper_of_isLower h hupper)
      (isGreek_eq_false (.inr h))
  lower_space c h := lower_eq (isUpper_eq_false h) (isGreek_eq_false (.inl h))
  space_lower c h d hd := by
    unfold lower at hd
    split_ifs at hd with hupper
    · rw [List.mem_singleton.mp hd]
      refine isSpace_of_isAlpha ?_
      rw [Char.isAlpha_toLower_eq_isAlpha, Char.isAlpha, hupper, Bool.true_or]
    all_goals rw [List.mem_singleton.mp hd]
    · decide
    · decide
    · decide
    · exact h
  cased_alpha c h := by rw [h, Bool.true_or]
  cased_space c h := by
    rw [isGreek_eq_false (.inl h), Bool.or_false]
    refine Bool.eq_false_iff.mpr fun halpha => ?_
    rw [isSpace_of_isAlpha halpha] at h
    cases h
  ignorable_space c _ h := decide_eq_false h

abbrev env : Env := unicode caseTable Engine.Demo.env

def entry (name : String) : SanctionsEntry := ⟨name, normalizeName env name, "OFAC", none⟩

/-- A seller of two letters. -/
def registry : Registry :=
  { Engine.Demo.registry with
    users := ⟨[⟨10, "Li", "li@example.org", some 0⟩], by decide, by decide⟩
    sanctions := [entry "Li"].map (·.normalizedName) }

theorem tenantId_seller : Engine.Demo.seller.tenantId = 1 := rfl

def seller : Screened registry 0 1 2 where
  tenant := Engine.Demo.tenant
  membership := Engine.Demo.seller
  find_tenant := rfl
  find_membership := rfl
  tenantId_eq := tenantId_seller
  no_fraud := rfl
  no_kyc := nofun
  no_hit := nofun

theorem names_entry (name : String) (h : lowered caseTable name ≠ []) :
    Names env (normalizeName env name) name := by
  refine ⟨?_, fun w hw => hw⟩
  rw [words_normalizeName, Ne, List.map_eq_nil_iff]
  exact h

end Demo

/-- The service does not find a listed name of two letters, which the live block reports; and
the words of a name do not decide when a U+FEFF separates them. -/
theorem not_payoutScreens_agree :
    (runtimePayoutBlock Demo.env Demo.registry 0 1 2 = some SANCTIONS_BLOCK ∧
      ∀ name ∈ Demo.seller.names, isHit Demo.env [Demo.entry "Li"] name = false) ∧
    (pieces "ΑΣ Β".toList = pieces "ΑΣ\uFEFFΒ".toList ∧
      verdicts Demo.env [Demo.entry "ΑΣ Β"] "ΑΣ Β" ≠
        verdicts Demo.env [Demo.entry "ΑΣ Β"] "ΑΣ\uFEFFΒ") := by
  have hnames : Demo.seller.names = ["Li"] := rfl
  refine ⟨⟨?_, ?_⟩, by decide, fun heq => ?_⟩
  · refine (Demo.seller.runtimePayoutBlock_iff (sanctionsMatch_empty _)).mpr
      ⟨"Li", hnames ▸ List.mem_cons_self, ?_⟩
    exact sanctionsMatch_iff.mpr ⟨_, List.mem_cons_self, Demo.names_entry "Li" (by decide)⟩
  · intro name hname
    rw [hnames, List.mem_singleton] at hname
    have hlength : utf16Length (normalizeName Demo.env "Li") = 2 := by
      rw [normalizeName_unicode]
      decide
    rw [hname, Bool.eq_false_iff, Ne, isHit_iff, hlength]
    exact fun h => absurd h.1 (by decide)
  · have hfirst := congrArg Prod.fst heq
    have hleft : (verdicts Demo.env [Demo.entry "ΑΣ Β"] "ΑΣ Β").1 = true :=
      sanctionsMatch_iff.mpr ⟨_, List.mem_cons_self, Demo.names_entry "ΑΣ Β" (by decide)⟩
    rw [hleft] at hfirst
    obtain ⟨listed, hlisted, -, hall⟩ := sanctionsMatch_iff.mp hfirst.symm
    rw [List.mem_singleton.mp hlisted] at hall
    have hsigma : String.ofList ['α', 'ς'] ∈ words (normalizeName Demo.env "ΑΣ Β") := by
      rw [words_normalizeName]
      exact List.mem_map_of_mem (by decide)
    have hmem := hall _ hsigma
    rw [words_normalizeName] at hmem
    obtain ⟨w, hw, heq⟩ := List.mem_map.mp hmem
    rw [String.ofList_injective heq] at hw
    exact absurd hw (by decide)

end Refearn.Sanctions
