import Refearn.Settings.Updates
import Refearn.Support.Transaction
/-!
# Settings over whole runs

An update is checked against the row that it has read and written over the row that it finds. The
two differ only in what others have committed meanwhile.
-/

namespace Refearn.Settings

open Support Support.Transaction

variable {env : SettingsEnv} {input : UpdateSettingsInput} {before t : TenantSettings}
  {u : TenantUpdate} {w : SettingsWorld}

/-! ## Spreading a patch -/

theorem lookup_setMember (key k : String) (value : Json) (members : List (String × Json)) :
    (setMember key value members).lookup k =
      if k = key then some value else members.lookup k := by
  induction members with
  | nil =>
      by_cases hk : k = key
      · simp [setMember, hk]
      · simp [setMember, hk, List.lookup_cons, beq_false_of_ne hk]
  | cons m members ih =>
      obtain ⟨name, v⟩ := m
      rw [setMember]
      by_cases hname : name = key
      · subst hname
        rw [if_pos rfl, List.lookup_cons, List.lookup_cons]
        by_cases hk : k = name
        · simp [hk]
        · simp [hk, beq_false_of_ne hk]
      · rw [if_neg hname, List.lookup_cons, List.lookup_cons, ih]
        by_cases hk : k = name
        · subst hk
          simp [hname]
        · simp [beq_false_of_ne hk]

/-- No key stands twice in a patch, so a field of it is what was last written. -/
theorem lookup_spread {patch : List (String × String)} (hnodup : (patch.map Prod.fst).Nodup)
    (members : List (String × Json)) (k : String) :
    (spread members patch).lookup k =
      match patch.lookup k with
      | some value => some (.str value)
      | none => members.lookup k := by
  induction patch generalizing members with
  | nil => rfl
  | cons p patch ih =>
      obtain ⟨key, value⟩ := p
      rw [List.map_cons, List.nodup_cons] at hnodup
      have hspread : spread members ((key, value) :: patch) =
          spread (setMember key (.str value) members) patch := rfl
      rw [hspread, ih hnodup.2, List.lookup_cons, lookup_setMember]
      by_cases hk : k = key
      · subst hk
        have hnone : patch.lookup k = none := by
          refine List.lookup_eq_none_iff.mpr fun p hp => ?_
          rw [bne_iff_ne]
          exact fun heq => hnodup.1 (heq ▸ List.mem_map.mpr ⟨p, hp, rfl⟩)
        simp [hnone]
      · simp [hk, beq_false_of_ne hk]

theorem keys_textField (members : List (String × Json)) (key : String)
    (normalize : String → String) :
    ((textField members key normalize).map Prod.fst).Sublist [key] := by
  unfold textField
  split
  · exact List.Sublist.refl _
  · exact List.nil_sublist _

theorem nodup_normalizeBrandingPatch {value : Option Json} {patch : List (String × String)}
    (h : normalizeBrandingPatch env value = some patch) : (patch.map Prod.fst).Nodup := by
  unfold normalizeBrandingPatch at h
  split at h
  · next members =>
      rw [← Option.some.inj h]
      simp only [List.map_append]
      have hkeys : ["logoText", "tagline", "primaryColor", "accentColor"].Nodup := by decide
      refine hkeys.sublist ?_
      exact ((((keys_textField members _ _).append (keys_textField members _ _)).append
        (keys_textField members _ _)).append (keys_textField members _ _))
  · cases h

/-! ## What an update computes -/

theorem assertMaturationConfig_eq_ok {rule : MaturationRule} {days : Option Int} :
    assertMaturationConfig rule days = .ok () ↔ (days.isSome = true ↔ rule = .daysAfterApproval) := by
  unfold assertMaturationConfig
  cases days <;> cases rule <;> simp

/-- An update gives its rule with days that fit, or days that fit the rule it has read. -/
structure Fits (env : SettingsEnv) (input : UpdateSettingsInput) (before : TenantSettings)
    (u : TenantUpdate) : Prop where
  rule : u.maturationRule = input.maturationRule
  kept (h : u.maturationDays = none) : input.maturationRule = none
  written (days : Option Int) (h : u.maturationDays = some days) :
    days.isSome = true ↔ input.maturationRule.getD before.maturationRule = .daysAfterApproval
  given (days : Option Int) (h : u.maturationDays = some days)
    (hrule : input.maturationRule = none) : input.maturationDays ≠ none
  timezone (zone : String) (h : u.timezone = some zone) : env.isTimeZone zone = true
  branding : u.branding = (normalizeBrandingPatch env input.branding).map fun patch =>
    .obj (spread (asRecord before.branding) patch)

theorem assertValidTimeZone_eq_ok {zone : String} (h : assertValidTimeZone env zone = .ok ()) :
    env.isTimeZone zone = true := by
  unfold assertValidTimeZone at h
  split_ifs at h with hzone
  exact hzone

theorem fits_of_eq_ok (hbefore : Consistent env before)
    (h : tenantUpdate env input before = .ok u) : Fits env input before u := by
  unfold tenantUpdate at h
  dsimp only at h
  set nextRule := input.maturationRule.getD before.maturationRule with hnextRule
  by_cases hrefused : nextRule ≠ .daysAfterApproval ∧ (input.maturationDays.getD none).isSome
  · rw [if_pos hrefused] at h
    cases h
  rw [if_neg hrefused] at h
  set nextDays := if nextRule ≠ .daysAfterApproval then none
    else input.maturationDays.getD before.maturationDays with hnextDays
  obtain ⟨⟨⟩, hzone, h⟩ := bind_eq_ok.mp h
  obtain ⟨⟨⟩, hconfig, h⟩ := bind_eq_ok.mp h
  obtain rfl := Except.ok.inj h
  have hfits := assertMaturationConfig_eq_ok.mp hconfig
  refine ⟨rfl, fun hkept => ?_, fun days hwritten => ?_, fun days hwritten hrule hdays => ?_,
    fun zone hgiven => ?_, rfl⟩
  · dsimp only at hkept
    split_ifs at hkept with hwrite
    simp only [Bool.or_eq_true, not_or, Bool.not_eq_true, Option.isSome_eq_false_iff] at hwrite
    exact Option.isNone_iff_eq_none.mp hwrite.1.2
  · dsimp only at hwritten
    split_ifs at hwritten
    exact Option.some.inj hwritten ▸ hfits
  · -- nothing is given, so the days that were read are kept
    have hsame : nextDays = before.maturationDays := by
      rw [hnextDays, hdays, Option.getD_none]
      split_ifs with hother
      · rw [hnextRule, hrule, Option.getD_none] at hother
        exact (Option.not_isSome_iff_eq_none.mp fun hsome => hother (hbefore.days.mp hsome)).symm
      · rfl
    dsimp only at hwritten
    rw [hdays, hrule, hsame] at hwritten
    simp at hwritten
  · dsimp only at hgiven
    rw [hgiven, Option.getD_some] at hzone
    exact assertValidTimeZone_eq_ok hzone

/-! ## The write -/

/-- What is written fits the row that it finds, if that needs days as the one that was read. -/
theorem consistent_updated (hfits : Fits env input before u) (ht : Consistent env t)
    (hrule : input.maturationRule = none → input.maturationDays ≠ none →
      (t.maturationRule = .daysAfterApproval ↔ before.maturationRule = .daysAfterApproval)) :
    Consistent env (t.updated u) := by
  refine ⟨?_, ?_⟩
  · change (u.maturationDays.getD t.maturationDays).isSome = true ↔
      u.maturationRule.getD t.maturationRule = .daysAfterApproval
    rw [hfits.rule]
    cases hdays : u.maturationDays with
    | none =>
        rw [hfits.kept hdays]
        exact ht.days
    | some days =>
        refine (hfits.written days hdays).trans ?_
        cases hgiven : input.maturationRule with
        | none => exact (hrule hgiven (hfits.given days hdays hgiven)).symm
        | some rule => exact Iff.rfl
  · change env.isTimeZone (u.timezone.getD t.timezone) = true
    cases hzone : u.timezone with
    | none => exact ht.timezone
    | some zone => exact hfits.timezone zone hzone

/-- The branding after a write: what is patched, and else what it has found. -/
theorem lookup_branding_updated (hfits : Fits env input before u)
    {patch : List (String × String)} (hpatch : normalizeBrandingPatch env input.branding = some patch)
    (hkept : ∀ key, patch.lookup key = none →
      (asRecord t.branding).lookup key = (asRecord before.branding).lookup key) (key : String) :
    (asRecord (t.updated u).branding).lookup key =
      match patch.lookup key with
      | some value => some (.str value)
      | none => (asRecord t.branding).lookup key := by
  have hbranding : (t.updated u).branding = .obj (spread (asRecord before.branding) patch) := by
    change u.branding.getD t.branding = _
    rw [hfits.branding, hpatch]
    rfl
  rw [hbranding]
  refine (lookup_spread (nodup_normalizeBrandingPatch hpatch) _ key).trans ?_
  cases hlookup : patch.lookup key with
  | none => exact (hkept key hlookup).symm
  | some value => rfl

theorem branding_updated_of_none (hfits : Fits env input before u)
    (hpatch : normalizeBrandingPatch env input.branding = none) :
    (t.updated u).branding = t.branding := by
  change u.branding.getD t.branding = _
  rw [hfits.branding, hpatch]
  rfl

/-! ## Runs -/

/-- The settings are consistent, and so is what each open update has read. -/
structure Sound (env : SettingsEnv) (w : SettingsWorld) : Prop where
  tenant : Consistent env w.tenant
  patches : KeepsPatches w
  calls (input : UpdateSettingsInput) (before : TenantSettings) (u : TenantUpdate)
    (h : .writing input before u ∈ w.calls) : Fits env input before u

theorem Sound.set (hw : Sound env w) (i : Nat) {call : UpdateCall}
    (hcall : ∀ input before u, call = .writing input before u → Fits env input before u) :
    Sound env { w with calls := w.calls.set i call } where
  tenant := hw.tenant
  patches := hw.patches
  calls input before u h := by
    rcases List.mem_or_eq_of_mem_set h with hmem | heq
    · exact hw.calls input before u hmem
    · exact hcall input before u heq.symm

theorem Sound.read (hw : Sound env w) (i : Nat)
    (hu : tenantUpdate env input w.tenant = .ok u) :
    Sound env { w with calls := w.calls.set i (.writing input w.tenant u) } := by
  have hfits := fits_of_eq_ok hw.tenant hu
  refine hw.set i fun input' before' u' heq => ?_
  injection heq with hinput hbefore hupdate
  rw [← hinput, ← hbefore, ← hupdate]
  exact hfits

/-- A write keeps what it does not patch as it has read it, which is as it finds it. -/
theorem keepsPatches_updated (hfits : Fits env input before u) (hw : KeepsPatches w)
    (hkept : ∀ patch, normalizeBrandingPatch env input.branding = some patch →
      ∀ key, patch.lookup key = none →
        (asRecord w.tenant.branding).lookup key = (asRecord before.branding).lookup key)
    {calls : List UpdateCall} {audits : List (TenantSettings × TenantSettings)} :
    KeepsPatches ⟨w.tenant.updated u, calls,
      match normalizeBrandingPatch env input.branding with
      | some patch => patch :: w.patches
      | none => w.patches, audits⟩ := by
  intro key value hlast
  change (asRecord (w.tenant.updated u).branding).lookup key = _
  cases hpatch : normalizeBrandingPatch env input.branding with
  | none =>
      simp only [hpatch] at hlast
      rw [branding_updated_of_none hfits hpatch]
      exact hw key value hlast
  | some patch =>
      simp only [hpatch, List.findSome?_cons] at hlast
      rw [lookup_branding_updated hfits hpatch (hkept patch hpatch)]
      cases hlookup : patch.lookup key with
      | none =>
          simp only [hlookup] at hlast
          exact hw key value hlast
      | some v =>
          simp only [hlookup] at hlast
          rw [Option.some.inj hlast]

theorem step_sound (step : SettingsStep) (w : SettingsWorld) (h : Undisturbed env step w)
    (hw : Sound env w) : Sound env (step.apply env w) := by
  cases step with
  | call input =>
      refine ⟨hw.tenant, hw.patches, fun input' before u hmem => ?_⟩
      rcases List.mem_append.mp hmem with hmem | hmem
      · exact hw.calls input' before u hmem
      · cases List.mem_singleton.mp hmem
  | read i =>
      simp only [SettingsStep.apply]
      split
      · next input hget =>
          split
          · next u hu => exact hw.read i hu
          · exact hw.set i fun _ _ _ heq => by cases heq
      · exact hw
  | write i =>
      simp only [SettingsStep.apply]
      split
      · next input before u hget =>
          obtain ⟨hrule, hkept⟩ := h input before u hget
          have hfits := hw.calls input before u (List.mem_of_getElem? hget)
          refine ⟨consistent_updated hfits hw.tenant hrule, ?_, fun input' before' u' hmem => ?_⟩
          · exact keepsPatches_updated hfits hw.patches hkept
          · rcases List.mem_or_eq_of_mem_set hmem with hmem | heq
            · exact hw.calls input' before' u' hmem
            · cases heq
      · exact hw

/-- In every run in which no update changes between the read and the write of another what that
one depends on, the settings stay consistent and no patch of the branding is lost. -/
theorem settings_consistent (env : SettingsEnv) (w : SettingsWorld)
    (hstart : Consistent env w.tenant) (hcalls : w.calls = []) (hpatches : w.patches = [])
    (steps : List SettingsStep)
    (hsteps : Throughout (SettingsStep.apply env) (Undisturbed env) steps w) :
    Consistent env (run (SettingsStep.apply env) steps w).tenant ∧
      KeepsPatches (run (SettingsStep.apply env) steps w) := by
  have hinit : Sound env w := by
    refine ⟨hstart, fun key value hlast => ?_, fun input before u hmem => ?_⟩
    · rw [hpatches] at hlast
      cases hlast
    · rw [hcalls] at hmem
      cases hmem
  have hend := hsteps.invariant (I := Sound env) step_sound hinit
  exact ⟨hend.tenant, hend.patches⟩

namespace Demo

def utc : SettingsEnv := ⟨fun zone => zone == "UTC", fun s => s⟩

def tenant : TenantSettings :=
  ⟨"Axtra", .onDelivery, none, 0, "UTC", true, true, true, true, true, true, true, .null⟩

def world : SettingsWorld := ⟨tenant, [], [], []⟩

def noChange : UpdateSettingsInput :=
  ⟨none, none, none, none, none, none, none, none, none, none, none, none, none⟩

/-- One patch switches to a rule that needs days, the other clears the days. -/
def switch : UpdateSettingsInput :=
  { noChange with maturationRule := some .daysAfterApproval, maturationDays := some (some 7) }

def clear : UpdateSettingsInput := { noChange with maturationDays := some none }

def overlapping : List SettingsStep :=
  [.call clear, .call switch, .read 0, .read 1, .write 1, .write 0]

end Demo

theorem settings_consistent_switch :
    Consistent Demo.utc
        (run (SettingsStep.apply Demo.utc) [.call Demo.switch, .read 0, .write 0]
          Demo.world).tenant ∧
      KeepsPatches (run (SettingsStep.apply Demo.utc) [.call Demo.switch, .read 0, .write 0]
        Demo.world) := by
  have hstart : Consistent Demo.utc Demo.world.tenant := ⟨by decide, by decide⟩
  refine settings_consistent Demo.utc Demo.world hstart rfl rfl _ ⟨trivial, trivial, ?_, trivial⟩
  intro input before u hget
  obtain ⟨rfl, rfl, rfl⟩ := UpdateCall.writing.inj (Option.some.inj hget)
  exact ⟨nofun, nofun⟩

/-- Each patch is valid for the row that it has read; together they leave the rule without its
days. -/
theorem not_settings_consistent :
    ¬∀ (env : SettingsEnv) (w : SettingsWorld), Consistent env w.tenant → w.calls = [] →
      w.patches = [] → ∀ steps : List SettingsStep,
        Consistent env (run (SettingsStep.apply env) steps w).tenant := by
  intro h
  have hstart : Consistent Demo.utc Demo.world.tenant := ⟨by decide, by decide⟩
  have hend := (h Demo.utc Demo.world hstart rfl rfl Demo.overlapping).days
  have hrule : (run (SettingsStep.apply Demo.utc) Demo.overlapping
      Demo.world).tenant.maturationRule = .daysAfterApproval := by decide
  have hdays : (run (SettingsStep.apply Demo.utc) Demo.overlapping
      Demo.world).tenant.maturationDays = none := by decide
  rw [hdays] at hend
  exact absurd (hend.mpr hrule) (by decide)

end Refearn.Settings
