import Refearn.Fraud.Scan
import Mathlib.Data.List.Nodup
/-!
# The loops find the signals that hold

Each loop runs over rows of distinct keys, so it adds at most one signal for a member; and the
map holds for each member what the loops have added, in their order.
-/

namespace Refearn.Fraud

open Support

/-! ## The map -/

/-- What the map holds for a member. -/
def signalsIn (found : List (Uuid × List Signal)) (id : Uuid) : List Signal :=
  ((found.find? fun e => e.1 = id).map Prod.snd).getD []

theorem signalsIn_cons (e : Uuid × List Signal) (found : List (Uuid × List Signal)) (id : Uuid) :
    signalsIn (e :: found) id = if e.1 = id then e.2 else signalsIn found id := by
  unfold signalsIn
  rw [List.find?_cons]
  by_cases h : e.1 = id
  · simp [h]
  · simp [h]

theorem signalsIn_add (i : Uuid) (s : Signal) (found : List (Uuid × List Signal)) (id : Uuid) :
    signalsIn (add i s found) id = signalsIn found id ++ if i = id then [s] else [] := by
  induction found with
  | nil =>
      rw [add, signalsIn_cons]
      rfl
  | cons e rest ih =>
      obtain ⟨k, arr⟩ := e
      by_cases hk : k = i
      · rw [add, if_pos hk, signalsIn_cons, signalsIn_cons]
        simp only [hk]
        split_ifs
        · rfl
        · rw [List.append_nil]
      · rw [add, if_neg hk, signalsIn_cons, signalsIn_cons, ih]
        simp only
        split_ifs with hid hi
        · exact absurd (hid.trans hi.symm) hk
        · rw [List.append_nil]
        · rfl
        · rfl

theorem signalsIn_addAll (signals : List (Uuid × Signal)) (found : List (Uuid × List Signal))
    (id : Uuid) :
    signalsIn (addAll signals found) id =
      signalsIn found id ++ (signals.filter fun e => e.1 = id).map Prod.snd := by
  induction signals generalizing found with
  | nil => exact (List.append_nil _).symm
  | cons e rest ih =>
      change signalsIn (addAll rest (add e.1 e.2 found)) id = _
      rw [ih, signalsIn_add, List.append_assoc, List.filter_cons]
      simp only [decide_eq_true_eq]
      split_ifs
      · rfl
      · rfl

/-- One entry for a member, and none without a signal. -/
structure WellFilled (found : List (Uuid × List Signal)) : Prop where
  nodup : (found.map Prod.fst).Nodup
  filled : ∀ e ∈ found, e.2 ≠ []

theorem mem_keys_add {i : Uuid} {s : Signal} {found : List (Uuid × List Signal)} {id : Uuid}
    (h : id ∈ (add i s found).map Prod.fst) : id = i ∨ id ∈ found.map Prod.fst := by
  induction found with
  | nil => exact .inl (List.mem_singleton.mp h)
  | cons e rest ih =>
      obtain ⟨k, arr⟩ := e
      rw [add] at h
      split_ifs at h with hk
      · exact .inr h
      · rcases List.mem_cons.mp h with hid | hrest
        · exact .inr (List.mem_cons.mpr (.inl hid))
        · exact (ih hrest).imp_right (List.mem_cons_of_mem _)

theorem WellFilled.add {found : List (Uuid × List Signal)} (h : WellFilled found) (i : Uuid)
    (s : Signal) : WellFilled (add i s found) := by
  induction found with
  | nil =>
      refine ⟨List.nodup_singleton _, fun e he => ?_⟩
      rw [List.mem_singleton.mp he]
      exact List.cons_ne_nil _ _
  | cons e rest ih =>
      obtain ⟨k, arr⟩ := e
      obtain ⟨hk, hrest⟩ := List.nodup_cons.mp h.nodup
      have htail := ih ⟨hrest, fun e he => h.filled e (List.mem_cons_of_mem _ he)⟩
      rw [Fraud.add]
      split_ifs with hki
      · refine ⟨h.nodup, fun e he => ?_⟩
        rcases List.mem_cons.mp he with rfl | he
        · exact List.append_ne_nil_of_right_ne_nil _ (List.cons_ne_nil _ _)
        · exact h.filled e (List.mem_cons_of_mem _ he)
      · refine ⟨List.nodup_cons.mpr ⟨fun hmem => ?_, htail.nodup⟩, fun e he => ?_⟩
        · exact (mem_keys_add hmem).elim hki hk
        · rcases List.mem_cons.mp he with rfl | he
          · exact h.filled _ List.mem_cons_self
          · exact htail.filled e he

theorem WellFilled.addAll {found : List (Uuid × List Signal)} (h : WellFilled found)
    (signals : List (Uuid × Signal)) : WellFilled (addAll signals found) := by
  induction signals generalizing found with
  | nil => exact h
  | cons e rest ih => exact ih (h.add e.1 e.2)

theorem wellFilled_nil : WellFilled [] := ⟨List.nodup_nil, fun _ h => nomatch h⟩

theorem wellFilled_byMember (env : FraudEnv) (inputs : Inputs) (now : Instant) :
    WellFilled (byMember env inputs now) :=
  ((((wellFilled_nil.addAll _).addAll _).addAll _).addAll _).addAll _

/-! ## One loop -/

/-- A loop over rows of distinct names adds at most one signal for a member. -/
theorem kinds_filterMap {ρ : Type} (rows : List ρ) (name : ρ → Option Uuid) (p : ρ → Bool)
    (signal : ρ → Option (Uuid × Signal)) (kind : SignalKind) (hnames : (rows.map name).Nodup)
    (hsome : ∀ r ∈ rows, p r = true → ∃ e, signal r = some e ∧ name r = some e.1 ∧
      e.2.kind = kind)
    (hnone : ∀ r ∈ rows, p r = false → signal r = none) (id : Uuid) :
    ((rows.filterMap signal).filter fun e => e.1 = id).map (fun e => e.2.kind) =
      if rows.any (fun r => name r = some id && p r) then [kind] else [] := by
  induction rows with
  | nil => rfl
  | cons r rows ih =>
      obtain ⟨hname, hrest⟩ := List.nodup_cons.mp hnames
      have htail := ih hrest (fun r hr => hsome r (List.mem_cons_of_mem _ hr))
        (fun r hr => hnone r (List.mem_cons_of_mem _ hr))
      rw [List.any_cons]
      by_cases hp : p r = true
      · obtain ⟨e, he, hid, hkind⟩ := hsome r List.mem_cons_self hp
        rw [List.filterMap_cons_some he, List.filter_cons, hp, Bool.and_true]
        by_cases heq : e.1 = id
        · -- no later row has this name
          have hlater : rows.any (fun r => name r = some id && p r) = false := by
            rw [List.any_eq_false]
            intro s hs hboth
            simp only [Bool.and_eq_true, decide_eq_true_eq] at hboth
            refine hname ?_
            rw [hid, heq, ← hboth.1]
            exact List.mem_map_of_mem hs
          rw [hlater] at htail
          rw [if_pos (decide_eq_true heq), List.map_cons, htail, hkind, hid, heq]
          simp
        · rw [if_neg (by simpa using heq), htail, hid]
          simp [heq]
      · rw [List.filterMap_cons_none (hnone r List.mem_cons_self (Bool.of_not_eq_true hp)), htail]
        simp [hp]

/-- In a list with one entry for a key, a test of the entry is a test of what is looked up. -/
theorem any_eq_lookupSum {κ : Type} [DecidableEq κ] {V : Type} [AddCommGroup V]
    {l : List (κ × V)} (hnodup : (l.map Prod.fst).Nodup) (k : κ) (q : V → Bool) :
    l.any (fun r => decide (r.1 = k) && q r.2) =
      (decide (k ∈ l.map Prod.fst) && q ((lookupSum l k).getD 0)) := by
  induction l with
  | nil => rfl
  | cons e rest ih =>
      obtain ⟨hk, hrest⟩ := List.nodup_cons.mp hnodup
      rw [List.any_cons, ih hrest]
      by_cases heq : e.1 = k
      · have hnot : k ∉ rest.map Prod.fst := heq ▸ hk
        have hlook : lookupSum (e :: rest) k = some e.2 := by
          unfold lookupSum
          rw [List.find?_cons_of_pos (by simpa using heq), Option.map_some]
        rw [hlook, decide_eq_true heq, decide_eq_false hnot]
        simp [heq]
      · have hlook : lookupSum (e :: rest) k = lookupSum rest k := by
          unfold lookupSum
          rw [List.find?_cons_of_neg (by simpa using heq)]
        have hmem : k ∈ (e :: rest).map Prod.fst ↔ k ∈ rest.map Prod.fst := by
          rw [List.map_cons, List.mem_cons]
          exact or_iff_right (Ne.symm heq)
        rw [hlook, decide_eq_false heq, Bool.false_and, Bool.false_or, decide_eq_decide.mpr hmem]

theorem sum_ite_one {ρ : Type} (rows : List ρ) (p : ρ → Prop) [DecidablePred p] :
    (rows.map fun r => if p r then (1 : Int) else 0).sum = rows.countP fun r => p r := by
  induction rows with
  | nil => rfl
  | cons r rows ih =>
      rw [List.map_cons, List.sum_cons, ih, List.countP_cons]
      by_cases h : p r
      · rw [if_pos h, if_pos (decide_eq_true h)]
        omega
      · rw [if_neg h, if_neg (by simpa using h)]
        omega

theorem posted_one {ρ κ : Type} [DecidableEq κ] (f : ρ → κ) (rows : List ρ) (k : κ) :
    posted f (fun _ => (1 : Int)) rows k = rows.countP (f · = k) :=
  sum_ite_one rows (f · = k)

/-! ## Each signal -/

section Kinds

variable (env : FraudEnv) (inputs : Inputs) (now : Instant) (id : Uuid)

def kindsIn (signals : List (Uuid × Signal)) : List SignalKind :=
  (signals.filter fun e => e.1 = id).map fun e => e.2.kind

/-- The kind, if it holds. -/
def whenHolds (kind : SignalKind) : List SignalKind :=
  if kind.holds env inputs now id then [kind] else []

theorem nodup_some {κ V : Type} {l : List (κ × V)} (h : (l.map Prod.fst).Nodup) :
    (l.map fun r => some r.1).Nodup := by
  have hsome := h.map (Option.some_injective κ)
  rwa [List.map_map] at hsome

/-- A loop over one entry for a member tests what is looked up. -/
theorem kindsIn_entries {V : Type} [AddCommGroup V] {l : List (Uuid × V)}
    (hnodup : (l.map Prod.fst).Nodup) (q : V → Bool) (kind : SignalKind) (reason : V → String) :
    kindsIn id (l.filterMap fun r => if q r.2 then some (r.1, ⟨kind, reason r.2⟩) else none) =
      if id ∈ l.map Prod.fst ∧ q ((lookupSum l id).getD 0) = true then [kind] else [] := by
  have hkinds := kinds_filterMap l (fun r => some r.1) (fun r => q r.2)
    (fun r => if q r.2 then some (r.1, ⟨kind, reason r.2⟩) else none) kind (nodup_some hnodup)
    (fun r _ hr => ⟨_, if_pos hr, rfl, rfl⟩)
    (fun r _ hr => if_neg (by rw [hr]; exact Bool.false_ne_true)) id
  have hany : l.any (fun r => decide (some r.1 = some id) && q r.2) =
      (decide (id ∈ l.map Prod.fst) && q ((lookupSum l id).getD 0)) := by
    rw [← any_eq_lookupSum hnodup id q]
    simp only [Option.some.injEq]
  refine hkinds.trans ?_
  rw [hany]
  refine if_congr ?_ rfl rfl
  rw [Bool.and_eq_true, decide_eq_true_eq]

/-- The groups by seller and status add up to the sales of the seller. -/
theorem posted_statusRows :
    posted (fun r => r.1.1) (fun r => (r.2, if r.1.2 = .void then r.2 else 0))
      (statusRows inputs) id =
        ((inputs.sales.countP (·.sellerMembershipId = id) : Int),
          (inputs.sales.countP (fun s => s.sellerMembershipId = id ∧ s.status = .void) : Int)) := by
  apply Prod.ext
  · have hfst := posted_hom (fun r : (Uuid × SaleStatus) × Int => r.1.1)
      (fun r => (r.2, if r.1.2 = .void then r.2 else 0)) (AddMonoidHom.fst Int Int)
      (statusRows inputs) id
    have hsum := sum_map_groupSums (fun k : Uuid × SaleStatus => decide (k.1 = id))
      (fun s : SaleRow => (s.sellerMembershipId, s.status)) (fun _ => (1 : Int)) inputs.sales
    simp only [decide_eq_true_eq] at hsum
    exact hfst.symm.trans (hsum.trans (sum_ite_one inputs.sales (·.sellerMembershipId = id)))
  · have hsnd := posted_hom (fun r : (Uuid × SaleStatus) × Int => r.1.1)
      (fun r => (r.2, if r.1.2 = .void then r.2 else 0)) (AddMonoidHom.snd Int Int)
      (statusRows inputs) id
    have hsum := sum_map_groupSums
      (fun k : Uuid × SaleStatus => decide (k.1 = id ∧ k.2 = .void))
      (fun s : SaleRow => (s.sellerMembershipId, s.status)) (fun _ => (1 : Int)) inputs.sales
    simp only [decide_eq_true_eq] at hsum
    refine hsnd.symm.trans (Eq.trans ?_ (hsum.trans (sum_ite_one inputs.sales fun s =>
      s.sellerMembershipId = id ∧ s.status = .void)))
    unfold posted statusRows
    refine congrArg List.sum (List.map_congr_left fun r _ => ?_)
    change (if r.1.1 = id then if r.1.2 = .void then r.2 else 0 else 0) = _
    by_cases hid : r.1.1 = id
    · simp [hid]
    · simp [hid]

theorem kindsIn_voidRate :
    kindsIn id (voidRateSignals inputs) = whenHolds env inputs now id .highVoidRate := by
  have hnodup : ((tally inputs).map Prod.fst).Nodup := nodup_keys_groupTotals ..
  have hlook : (lookupSum (tally inputs) id).getD 0 =
      ((inputs.sales.countP (·.sellerMembershipId = id) : Int),
        (inputs.sales.countP (fun s => s.sellerMembershipId = id ∧ s.status = .void) : Int)) :=
    (lookupSum_groupTotals ..).trans (posted_statusRows inputs id)
  have hentries := kindsIn_entries id hnodup
    (fun t : Int × Int => decide (3 ≤ t.1 ∧ 2 * t.1 ≤ 5 * t.2)) .highVoidRate
    (fun t => "high_void_rate(" ++ toString t.2 ++ "/" ++ toString t.1 ++ ")")
  simp only [decide_eq_true_eq] at hentries
  unfold voidRateSignals whenHolds
  rw [hentries, hlook]
  refine if_congr ?_ rfl rfl
  simp only [SignalKind.holds, decide_eq_true_eq]
  constructor
  · rintro ⟨-, hthree, hrate⟩
    exact ⟨by exact_mod_cast hthree, by exact_mod_cast hrate⟩
  · rintro ⟨hthree, hrate⟩
    refine ⟨?_, by exact_mod_cast hthree, by exact_mod_cast hrate⟩
    -- a seller without a row has sold nothing
    by_contra hmem
    rw [lookupSum_eq_none hmem] at hlook
    have hzero := congrArg Prod.fst hlook
    have htotal : (0 : Int) = inputs.sales.countP (·.sellerMembershipId = id) := hzero
    omega

theorem kindsIn_recruitment :
    kindsIn id (recruitmentSignals inputs now) =
      whenHolds env inputs now id .rapidRecruitment := by
  have hnodup : ((recruitRows inputs now).map Prod.fst).Nodup := by
    unfold recruitRows
    rw [keys_groupSums]
    exact List.nodup_dedup _
  have hkinds := kinds_filterMap (recruitRows inputs now) (fun r => r.1)
    (fun r => decide (r.1 ≠ none ∧ 10 ≤ r.2)) (fun r => r.1.bind fun sponsor =>
      if 10 ≤ r.2 then
        some (sponsor, ⟨.rapidRecruitment, "rapid_recruitment(" ++ toString r.2 ++ "/7d)"⟩)
      else none) .rapidRecruitment hnodup
    (by
      rintro ⟨sponsor, count⟩ - hp
      obtain ⟨hne, hten⟩ := of_decide_eq_true hp
      obtain ⟨sponsor, rfl⟩ := Option.ne_none_iff_exists'.mp hne
      exact ⟨_, if_pos hten, rfl, rfl⟩)
    (by
      rintro ⟨sponsor, count⟩ - hp
      cases sponsor with
      | none => rfl
      | some sponsor => exact if_neg fun hten => of_decide_eq_false hp ⟨nofun, hten⟩) id
  have hany := any_eq_lookupSum hnodup (some id) (fun c => decide (10 ≤ c))
  have hlook : (lookupSum (recruitRows inputs now) (some id)).getD 0 =
      inputs.members.rows.countP fun m =>
        now - RECRUIT_DAYS * DAY_MS ≤ m.joinedAt ∧ m.sponsorMembershipId = some id := by
    unfold recruitRows
    rw [lookupSum_groupSums, posted_one, List.countP_filter]
    refine congrArg Nat.cast (List.countP_congr fun m _ => ?_)
    simp only [Bool.and_eq_true, decide_eq_true_eq]
    constructor
    · rintro ⟨hsponsor, hjoined, -⟩
      exact ⟨hjoined, hsponsor⟩
    · rintro ⟨hjoined, hsponsor⟩
      exact ⟨hsponsor, hjoined, by rw [hsponsor]; exact nofun⟩
  refine hkinds.trans ?_
  unfold whenHolds
  refine if_congr ?_ rfl rfl
  have hten : (recruitRows inputs now).any (fun r => decide (r.1 = some id) &&
      decide (r.1 ≠ none ∧ 10 ≤ r.2)) = (recruitRows inputs now).any (fun r =>
        decide (r.1 = some id) && decide (10 ≤ r.2)) := by
    congr 1
    funext r
    by_cases hr : r.1 = some id
    · simp [hr]
    · simp [hr]
  rw [hten, hany, hlook]
  simp only [SignalKind.holds, Bool.and_eq_true, decide_eq_true_eq]
  constructor
  · rintro ⟨-, hcount⟩
    exact_mod_cast hcount
  · intro hcount
    refine ⟨?_, by exact_mod_cast hcount⟩
    by_contra hmem
    rw [lookupSum_eq_none hmem] at hlook
    have hzero : (0 : Int) = inputs.members.rows.countP fun m =>
      now - RECRUIT_DAYS * DAY_MS ≤ m.joinedAt ∧ m.sponsorMembershipId = some id := hlook
    omega

theorem kindsIn_selfReferral :
    kindsIn id (selfReferralSignals env inputs) =
      whenHolds env inputs now id .selfReferral := by
  have hkeys : (selfRows env inputs).map Prod.fst =
      ((inputs.sales.filter (isSelfReferral env inputs)).map SaleRow.sellerMembershipId).dedup :=
    keys_groupSums ..
  have hnodup : ((selfRows env inputs).map Prod.fst).Nodup := by
    rw [hkeys]
    exact List.nodup_dedup _
  have hentries := kindsIn_entries id hnodup (fun _ : Int => true) .selfReferral
    (fun c => "self_referral(" ++ toString c ++ ")")
  simp only [if_true, and_true] at hentries
  unfold selfReferralSignals whenHolds
  rw [← List.filterMap_eq_map]
  refine hentries.trans (if_congr ?_ rfl rfl)
  rw [hkeys, List.mem_dedup, List.mem_map]
  simp only [SignalKind.holds, List.any_eq_true, List.mem_filter, Bool.decide_and,
    Bool.and_eq_true, decide_eq_true_eq]
  constructor
  · rintro ⟨s, ⟨hs, hself⟩, hid⟩
    exact ⟨s, hs, hid, hself⟩
  · rintro ⟨s, hs, hid, hself⟩
    exact ⟨s, ⟨hs, hself⟩, hid⟩

theorem mem_sharedIps {ip : Option String} :
    ip ∈ sharedIps inputs ↔ ip ≠ none ∧ 3 ≤ inputs.members.rows.countP (·.signupIp = ip) := by
  have hcount : ip ≠ none → posted MemberRow.signupIp (fun _ => (1 : Int))
      (inputs.members.rows.filter (·.signupIp ≠ none)) ip =
        inputs.members.rows.countP (·.signupIp = ip) := by
    intro hip
    rw [posted_one, List.countP_filter]
    refine congrArg Nat.cast (List.countP_congr fun m _ => ?_)
    simp only [Bool.and_eq_true, decide_eq_true_eq, and_iff_left_iff_imp]
    exact fun heq => heq.trans_ne hip
  unfold sharedIps
  rw [groupSums_eq]
  simp only [List.mem_map, List.mem_filter, List.mem_dedup, decide_eq_true_eq]
  constructor
  · rintro ⟨g, ⟨⟨k, ⟨m, ⟨-, hm⟩, rfl⟩, rfl⟩, hthree⟩, rfl⟩
    refine ⟨hm, ?_⟩
    rw [hcount hm] at hthree
    exact Int.ofNat_le.mp hthree
  · rintro ⟨hip, hthree⟩
    obtain ⟨m, hm, hmip⟩ := List.countP_pos_iff.mp (Nat.lt_of_lt_of_le (by decide) hthree)
    have hmip : m.signupIp = ip := of_decide_eq_true hmip
    refine ⟨_, ⟨⟨ip, ⟨m, ⟨hm, hmip.trans_ne hip⟩, hmip⟩, rfl⟩, ?_⟩, rfl⟩
    rw [hcount hip]
    exact Int.ofNat_le.mpr hthree

theorem kindsIn_sharedIp :
    kindsIn id (sharedIpSignals inputs) = whenHolds env inputs now id .sharedSignupIp := by
  have hnames : (inputs.members.rows.map fun m => some m.id).Nodup := by
    have h := inputs.members.keys_nodup.map (Option.some_injective Uuid)
    rwa [List.map_map] at h
  have hkinds := kinds_filterMap inputs.members.rows (fun m => some m.id)
    (fun m => decide (m.signupIp ∈ sharedIps inputs))
    (fun m => if m.signupIp ∈ sharedIps inputs then
      some (m.id, ⟨.sharedSignupIp, "shared_signup_ip"⟩) else none) .sharedSignupIp hnames
    (fun m _ hm => ⟨_, if_pos (of_decide_eq_true hm), rfl, rfl⟩)
    (fun m _ hm => if_neg (of_decide_eq_false hm)) id
  have hsignals : sharedIpSignals inputs = inputs.members.rows.filterMap fun m =>
      if m.signupIp ∈ sharedIps inputs then
        some (m.id, ⟨.sharedSignupIp, "shared_signup_ip"⟩) else none := by
    unfold sharedIpSignals
    rw [← List.filterMap_eq_map, List.filterMap_filter]
    simp only [decide_eq_true_eq, Function.comp_apply]
  rw [hsignals]
  refine hkinds.trans ?_
  unfold whenHolds
  refine if_congr ?_ rfl rfl
  simp only [SignalKind.holds, List.any_eq_true, Bool.and_eq_true, decide_eq_true_eq,
    mem_sharedIps, Option.some.injEq]

theorem mem_newIds : id ∈ newIds inputs now ↔
    inputs.members.rows.any (fun m =>
      m.id = id ∧ now - NEW_ACCOUNT_DAYS * DAY_MS ≤ m.joinedAt) = true := by
  unfold newIds
  simp only [List.mem_map, List.mem_filter, List.any_eq_true, decide_eq_true_eq]
  constructor
  · rintro ⟨m, ⟨hm, hjoined⟩, hid⟩
    exact ⟨m, hm, hid, hjoined⟩
  · rintro ⟨m, hm, hid, hjoined⟩
    exact ⟨m, ⟨hm, hjoined⟩, hid⟩

theorem kindsIn_velocity :
    kindsIn id (velocitySignals env inputs now) =
      whenHolds env inputs now id .rapidPayoutNewAccount := by
  have hkeys : (payableRows inputs now).map Prod.fst =
      ((inputs.ledger.filter fun e => e.status = .payable ∧
        e.beneficiaryMembershipId ∈ newIds inputs now).map
          LedgerRow.beneficiaryMembershipId).dedup := keys_groupSums ..
  have hnodup : ((payableRows inputs now).map Prod.fst).Nodup := by
    rw [hkeys]
    exact List.nodup_dedup _
  have hlook : id ∈ newIds inputs now → (lookupSum (payableRows inputs now) id).getD 0 =
      ((inputs.ledger.filter fun e => e.status = .payable ∧
        e.beneficiaryMembershipId = id).map (·.amountCents)).sum := by
    intro hnew
    have hite := sum_map_ite (inputs.ledger.filter fun e => e.status = .payable ∧
      e.beneficiaryMembershipId ∈ newIds inputs now)
      (fun e => decide (e.beneficiaryMembershipId = id)) LedgerRow.amountCents
    simp only [decide_eq_true_eq] at hite
    refine (lookupSum_groupSums ..).trans (hite.trans ?_)
    rw [List.filter_filter]
    refine congrArg (fun l => (List.map LedgerRow.amountCents l).sum)
      (List.filter_congr fun e _ => ?_)
    by_cases hid : e.beneficiaryMembershipId = id
    · simp [hid, hnew]
    · simp [hid]
  have hentries := kindsIn_entries id hnodup
    (fun c : Int => decide (inputs.payoutMinCents * 10 ≤ c)) .rapidPayoutNewAccount
    (fun c => "rapid_payout_new_account($" ++ env.dollars c ++ "/<14d)")
  simp only [decide_eq_true_eq] at hentries
  unfold velocitySignals whenHolds
  refine hentries.trans (if_congr ?_ rfl rfl)
  have hmem : id ∈ (payableRows inputs now).map Prod.fst ↔ id ∈ newIds inputs now ∧
      (inputs.ledger.filter fun e => e.status = .payable ∧
        e.beneficiaryMembershipId = id) ≠ [] := by
    rw [hkeys, List.mem_dedup, List.mem_map]
    constructor
    · rintro ⟨e, he, rfl⟩
      obtain ⟨hledger, hboth⟩ := List.mem_filter.mp he
      obtain ⟨hpayable, hnew⟩ := of_decide_eq_true hboth
      exact ⟨hnew, List.ne_nil_of_mem
        (List.mem_filter.mpr ⟨hledger, decide_eq_true ⟨hpayable, rfl⟩⟩)⟩
    · rintro ⟨hnew, hne⟩
      obtain ⟨e, he⟩ := List.exists_mem_of_ne_nil _ hne
      obtain ⟨hledger, hboth⟩ := List.mem_filter.mp he
      obtain ⟨hpayable, rfl⟩ := of_decide_eq_true hboth
      exact ⟨e, List.mem_filter.mpr ⟨hledger, decide_eq_true ⟨hpayable, hnew⟩⟩, rfl⟩
  rw [hmem]
  simp only [SignalKind.holds]
  rw [decide_eq_true_eq, ← mem_newIds]
  constructor
  · rintro ⟨⟨hnew, hne⟩, hsum⟩
    rw [hlook hnew] at hsum
    exact ⟨hnew, hne, hsum⟩
  · rintro ⟨hnew, hne, hsum⟩
    rw [hlook hnew]
    exact ⟨⟨hnew, hne⟩, hsum⟩

/-- The map holds the signals that hold. -/
theorem kinds_byMember :
    (signalsIn (byMember env inputs now) id).map (·.kind) = kindsOf env inputs now id := by
  have hmap : ∀ signals : List (Uuid × Signal),
      ((signals.filter fun e => e.1 = id).map Prod.snd).map (·.kind) = kindsIn id signals := by
    intro signals
    unfold kindsIn
    rw [List.map_map]
    rfl
  have hnil : signalsIn [] id = [] := rfl
  unfold byMember
  simp only [signalsIn_addAll, hnil, List.nil_append, List.map_append, hmap]
  rw [kindsIn_voidRate env inputs now, kindsIn_recruitment env, kindsIn_selfReferral env inputs now,
    kindsIn_sharedIp env inputs now, kindsIn_velocity]
  unfold kindsOf SignalKind.all whenHolds
  simp only [List.filter_cons, List.filter_nil]
  split_ifs <;> rfl

end Kinds

end Refearn.Fraud
