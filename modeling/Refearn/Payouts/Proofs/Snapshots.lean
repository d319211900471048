import Refearn.Payouts.Snapshots
import Refearn.Support.Filtering
import Refearn.Wallet.Proofs.Eligibility
/-!
# Rechecking a stored snapshot

The parser accepts exactly what a snapshot of a complete input is stored as, whatever the order of
the members, so the recheck compares the decisions of the reservation with the current ones.
-/

namespace Refearn.Payouts

open Support Support.JsonValue

/-! ## Readers -/

theorem textOf_eq_some {v : JsonValue} {s : String} : textOf v = some s ↔ StoredAs (.str s) v := by
  rw [storedAs_str_iff]
  cases v with
  | str s' =>
      exact ⟨fun h => congrArg JsonValue.str (Option.some.inj h),
        fun h => congrArg some (JsonValue.str.inj h)⟩
  | null | bool | num | arr | obj => exact ⟨nofun, nofun⟩

theorem statusOf_eq_some {v : JsonValue} {status : DecisionStatus} :
    statusOf v = some status ↔ StoredAs (.str (statusText status)) v := by
  rw [← textOf_eq_some]
  unfold statusOf
  constructor
  · intro h
    obtain ⟨s, hs, hfind⟩ := Option.bind_eq_some_iff.mp h
    have hsame := List.find?_some hfind
    rw [hs, of_decide_eq_true hsame]
  · intro h
    rw [h, Option.bind_some]
    cases status <;> decide

theorem versionOf_eq_some {v : JsonValue} {version : Int} :
    versionOf v = some version ↔
      isValidPayoutReadinessVersion version = true ∧ StoredAs (.num version) v := by
  rw [storedAs_num_iff]
  unfold versionOf
  constructor
  · intro h
    obtain ⟨x, hx, hversion⟩ := Option.bind_eq_some_iff.mp h
    split_ifs at hversion with hsafe
    have hnum : x.num = version := Option.some.inj hversion
    rw [hx, ← hnum]
    exact ⟨hsafe.2, congrArg some ((Rat.den_eq_one_iff x).mp hsafe.1).symm⟩
  · rintro ⟨hvalid, hx⟩
    rw [hx, Option.bind_some, if_pos ⟨rfl, hvalid⟩]
    rfl

theorem canonicalIsoOf_eq_some {v : JsonValue} {s : String} :
    canonicalIsoOf v = some s ↔ isCanonicalIso s = true ∧ StoredAs (.str s) v := by
  rw [← textOf_eq_some, canonicalIsoOf, Option.filter_eq_some_iff, and_comm]

theorem canonicalIsoOrNullOf_eq_some {v : JsonValue} {e : Option String} :
    canonicalIsoOrNullOf v = some e ↔
      (∀ s ∈ e, isCanonicalIso s = true) ∧ StoredAs (.ofOption e) v := by
  cases e with
  | none =>
      rw [Json.ofOption, storedAs_null_iff]
      cases v with
      | null => exact ⟨fun _ => ⟨fun _ h => absurd h nofun, rfl⟩, fun _ => rfl⟩
      | str s =>
          refine ⟨fun h => ?_, fun h => absurd h.2 nofun⟩
          obtain ⟨_, _, h⟩ := Option.map_eq_some_iff.mp h
          cases h
      | bool | num | arr | obj => exact ⟨nofun, fun h => absurd h.2 nofun⟩
  | some s =>
      have hread : canonicalIsoOrNullOf v = some (some s) ↔ canonicalIsoOf v = some s := by
        cases v with
        | str s' =>
            constructor
            · intro h
              obtain ⟨_, hs, heq⟩ := Option.map_eq_some_iff.mp h
              rw [hs, ← Option.some.inj heq]
            · exact fun h => congrArg (Option.map some) h
        | null | bool | num | arr | obj =>
            constructor
            · intro h
              cases h
            · intro h
              cases h
      rw [hread, canonicalIsoOf_eq_some, Json.ofOption]
      simp only [Option.mem_def, Option.some.injEq, forall_eq']

/-! ## What the parser accepts -/

/-- A control that the parser lets through. -/
structure SnapshotControl.Accepted (control : SnapshotControl) : Prop where
  version : isValidPayoutReadinessVersion control.version = true
  expiresAt : ∀ s ∈ control.expiresAt, isCanonicalIso s = true

structure SnapshotDestination.Accepted (destination : SnapshotDestination) : Prop where
  id : isDestinationId destination.id = true
  verifiedAt : isCanonicalIso destination.verifiedAt = true
  version : isValidPayoutReadinessVersion destination.version = true

/-- A snapshot with all five controls in their order and a destination. -/
structure PayoutComplianceSnapshot.Accepted (snapshot : PayoutComplianceSnapshot) : Prop where
  keys : snapshot.controls.map SnapshotControl.key = PAYOUT_COMPLIANCE_CONTROL_KEYS
  controls : ∀ control ∈ snapshot.controls, control.Accepted
  destination : ∃ d, snapshot.destination = some d ∧ d.Accepted

theorem storedAs_control_iff {control : SnapshotControl} {v : JsonValue} :
    StoredAs control.json v ↔ ∃ ns, v = .obj ns ∧
      hasExactKeys ns ["key", "status", "reasonCode", "expiresAt", "version"] = true ∧
      (∃ y, member ns "key" = some y ∧ StoredAs (.str (keyText control.key)) y) ∧
      (∃ y, member ns "status" = some y ∧ StoredAs (.str (statusText control.status)) y) ∧
      (∃ y, member ns "reasonCode" = some y ∧ StoredAs (.str control.reasonCode) y) ∧
      (∃ y, member ns "expiresAt" = some y ∧ StoredAs (.ofOption control.expiresAt) y) ∧
      ∃ y, member ns "version" = some y ∧ StoredAs (.num control.version) y := by
  have hnames : ["key", "status", "reasonCode", "expiresAt", "version"].Nodup := by decide
  refine (storedAs_obj_iff (by exact hnames)).trans ?_
  simp only [List.forall_mem_cons, List.not_mem_nil, false_implies, implies_true, and_true]
  exact Iff.rfl

theorem storedAs_destination_iff {destination : SnapshotDestination} {v : JsonValue} :
    StoredAs destination.json v ↔ ∃ ns, v = .obj ns ∧
      hasExactKeys ns ["id", "verifiedAt", "version"] = true ∧
      (∃ y, member ns "id" = some y ∧ StoredAs (.str destination.id) y) ∧
      (∃ y, member ns "verifiedAt" = some y ∧ StoredAs (.str destination.verifiedAt) y) ∧
      ∃ y, member ns "version" = some y ∧ StoredAs (.num destination.version) y := by
  have hnames : ["id", "verifiedAt", "version"].Nodup := by decide
  refine (storedAs_obj_iff (by exact hnames)).trans ?_
  simp only [List.forall_mem_cons, List.not_mem_nil, false_implies, implies_true, and_true]
  exact Iff.rfl

theorem parseControl_eq_some {key : ReadinessKey} {v : JsonValue} {control : SnapshotControl} :
    parseControl key v = some control ↔
      (control.key = key ∧ control.Accepted) ∧ StoredAs control.json v := by
  rw [storedAs_control_iff]
  constructor
  · intro h
    cases v with
    | obj ns =>
        simp only [parseControl] at h
        split_ifs at h with hkeys
        obtain ⟨name, hname, h⟩ := Option.bind_eq_some_iff.mp h
        obtain ⟨hname, hexpected⟩ := Option.filter_eq_some_iff.mp hname
        obtain ⟨y, hy, hname⟩ := Option.bind_eq_some_iff.mp hname
        obtain ⟨status, hstatus, h⟩ := Option.bind_eq_some_iff.mp h
        obtain ⟨y₁, hy₁, hstatus⟩ := Option.bind_eq_some_iff.mp hstatus
        obtain ⟨reasonCode, hreason, h⟩ := Option.bind_eq_some_iff.mp h
        obtain ⟨y₂, hy₂, hreason⟩ := Option.bind_eq_some_iff.mp hreason
        obtain ⟨expiresAt, hexpires, h⟩ := Option.bind_eq_some_iff.mp h
        obtain ⟨y₃, hy₃, hexpires⟩ := Option.bind_eq_some_iff.mp hexpires
        obtain ⟨version, hversion, h⟩ := Option.bind_eq_some_iff.mp h
        obtain ⟨y₄, hy₄, hversion⟩ := Option.bind_eq_some_iff.mp hversion
        obtain ⟨hcanonical, hexpires⟩ := canonicalIsoOrNullOf_eq_some.mp hexpires
        obtain ⟨hvalid, hversion⟩ := versionOf_eq_some.mp hversion
        cases Option.some.inj h
        have hkey : name = keyText key := of_decide_eq_true hexpected
        exact ⟨⟨rfl, hvalid, hcanonical⟩, ns, rfl, hkeys,
          ⟨y, hy, hkey ▸ textOf_eq_some.mp hname⟩, ⟨y₁, hy₁, statusOf_eq_some.mp hstatus⟩,
          ⟨y₂, hy₂, textOf_eq_some.mp hreason⟩, ⟨y₃, hy₃, hexpires⟩, ⟨y₄, hy₄, hversion⟩⟩
    | null | bool | num | str | arr => cases h
  · rintro ⟨⟨rfl, haccepted⟩, ns, rfl, hkeys, ⟨y, hy, hname⟩, ⟨y₁, hy₁, hstatus⟩,
      ⟨y₂, hy₂, hreason⟩, ⟨y₃, hy₃, hexpires⟩, ⟨y₄, hy₄, hversion⟩⟩
    have hexpires' := canonicalIsoOrNullOf_eq_some.mpr ⟨haccepted.expiresAt, hexpires⟩
    have hversion' := versionOf_eq_some.mpr ⟨haccepted.version, hversion⟩
    simp only [parseControl]
    rw [if_pos hkeys, hy, hy₁, hy₂, hy₃, hy₄]
    simp only [Option.bind_some, textOf_eq_some.mpr hname, statusOf_eq_some.mpr hstatus,
      textOf_eq_some.mpr hreason, hexpires', hversion', Option.filter_some, decide_true, if_true]
    rfl

theorem parseDestination_eq_some {v : JsonValue} {destination : SnapshotDestination} :
    parseDestination v = some destination ↔
      destination.Accepted ∧ StoredAs destination.json v := by
  rw [storedAs_destination_iff]
  constructor
  · intro h
    cases v with
    | obj ns =>
        simp only [parseDestination] at h
        split_ifs at h with hkeys
        obtain ⟨id, hid, h⟩ := Option.bind_eq_some_iff.mp h
        obtain ⟨hid, hpattern⟩ := Option.filter_eq_some_iff.mp hid
        obtain ⟨y, hy, hid⟩ := Option.bind_eq_some_iff.mp hid
        obtain ⟨verifiedAt, hverified, h⟩ := Option.bind_eq_some_iff.mp h
        obtain ⟨y₁, hy₁, hverified⟩ := Option.bind_eq_some_iff.mp hverified
        obtain ⟨version, hversion, h⟩ := Option.bind_eq_some_iff.mp h
        obtain ⟨y₂, hy₂, hversion⟩ := Option.bind_eq_some_iff.mp hversion
        obtain ⟨hcanonical, hverified⟩ := canonicalIsoOf_eq_some.mp hverified
        obtain ⟨hvalid, hversion⟩ := versionOf_eq_some.mp hversion
        cases Option.some.inj h
        exact ⟨⟨hpattern, hcanonical, hvalid⟩, ns, rfl, hkeys,
          ⟨y, hy, textOf_eq_some.mp hid⟩, ⟨y₁, hy₁, hverified⟩, ⟨y₂, hy₂, hversion⟩⟩
    | null | bool | num | str | arr => cases h
  · rintro ⟨haccepted, ns, rfl, hkeys, ⟨y, hy, hid⟩, ⟨y₁, hy₁, hverified⟩, ⟨y₂, hy₂, hversion⟩⟩
    have hverified' := canonicalIsoOf_eq_some.mpr ⟨haccepted.verifiedAt, hverified⟩
    have hversion' := versionOf_eq_some.mpr ⟨haccepted.version, hversion⟩
    simp only [parseDestination]
    rw [if_pos hkeys, hy, hy₁, hy₂]
    simp only [Option.bind_some, textOf_eq_some.mpr hid, hverified', hversion',
      Option.filter_some, haccepted.id, if_true]
    rfl

theorem parseControls_eq_some {keys : List ReadinessKey} {vs : List JsonValue}
    {controls : List SnapshotControl} :
    parseControls keys vs = some controls ↔
      (controls.map SnapshotControl.key = keys ∧ ∀ control ∈ controls, control.Accepted) ∧
        List.Forall₂ StoredAs (controls.map SnapshotControl.json) vs := by
  induction keys generalizing vs controls with
  | nil =>
      cases vs with
      | nil =>
          constructor
          · intro h
            cases h
            exact ⟨⟨rfl, fun _ h => absurd h List.not_mem_nil⟩, .nil⟩
          · rintro ⟨⟨hkeys, -⟩, -⟩
            rw [List.map_eq_nil_iff.mp hkeys]
            rfl
      | cons v vs =>
          refine ⟨fun h => absurd h nofun, fun ⟨⟨hkeys, _⟩, hstored⟩ => ?_⟩
          rw [List.map_eq_nil_iff.mp hkeys] at hstored
          cases hstored
  | cons key keys ih =>
      cases vs with
      | nil =>
          refine ⟨fun h => absurd h nofun, fun ⟨⟨hkeys, _⟩, hstored⟩ => ?_⟩
          have hnil : controls = [] := List.map_eq_nil_iff.mp (List.forall₂_nil_right_iff.mp hstored)
          rw [hnil] at hkeys
          cases hkeys
      | cons v vs =>
          constructor
          · intro h
            simp only [parseControls] at h
            obtain ⟨control, hcontrol, h⟩ := Option.bind_eq_some_iff.mp h
            obtain ⟨rest, hrest, h⟩ := Option.bind_eq_some_iff.mp h
            cases Option.some.inj h
            obtain ⟨⟨hkey, haccepted⟩, hstored⟩ := parseControl_eq_some.mp hcontrol
            obtain ⟨⟨hkeys, hall⟩, hvalues⟩ := ih.mp hrest
            refine ⟨⟨?_, List.forall_mem_cons.mpr ⟨haccepted, hall⟩⟩, .cons hstored hvalues⟩
            rw [List.map_cons, hkey, hkeys]
          · rintro ⟨⟨hkeys, hall⟩, hstored⟩
            cases controls with
            | nil => cases hkeys
            | cons control rest =>
                obtain ⟨hkey, hkeys⟩ := List.cons.inj hkeys
                obtain ⟨hvalue, hvalues⟩ := List.forall₂_cons.mp hstored
                obtain ⟨haccepted, hall⟩ := List.forall_mem_cons.mp hall
                simp only [parseControls]
                rw [parseControl_eq_some.mpr ⟨⟨hkey, haccepted⟩, hvalue⟩,
                  ih.mpr ⟨⟨hkeys, hall⟩, hvalues⟩]
                rfl

theorem storedAs_snapshot_iff {snapshot : PayoutComplianceSnapshot} {v : JsonValue} :
    StoredAs snapshot.json v ↔ ∃ ns, v = .obj ns ∧
      hasExactKeys ns ["format", "controls", "destination"] = true ∧
      (∃ y, member ns "format" = some y ∧ StoredAs (.num 1) y) ∧
      (∃ y, member ns "controls" = some y ∧
        StoredAs (.arr (snapshot.controls.map SnapshotControl.json)) y) ∧
      ∃ y, member ns "destination" = some y ∧
        StoredAs ((snapshot.destination.map SnapshotDestination.json).getD .null) y := by
  have hnames : ["format", "controls", "destination"].Nodup := by decide
  refine (storedAs_obj_iff (by exact hnames)).trans ?_
  simp only [List.forall_mem_cons, List.not_mem_nil, false_implies, implies_true, and_true]
  exact Iff.rfl

theorem elementsOf_eq_some {v : JsonValue} {elements : List JsonValue} :
    elementsOf v = some elements ↔ v = .arr elements := by
  cases v with
  | arr vs => exact ⟨fun h => congrArg JsonValue.arr (Option.some.inj h),
      fun h => congrArg some (JsonValue.arr.inj h)⟩
  | null | bool | num | str | obj => exact ⟨nofun, nofun⟩

theorem parseStored_eq_some {v : JsonValue} {snapshot : PayoutComplianceSnapshot} :
    parseStored v = some snapshot ↔ snapshot.Accepted ∧ StoredAs snapshot.json v := by
  rw [storedAs_snapshot_iff]
  constructor
  · intro h
    cases v with
    | obj ns =>
        simp only [parseStored] at h
        split_ifs at h with hkeys
        obtain ⟨format, hformat, h⟩ := Option.bind_eq_some_iff.mp h
        obtain ⟨hformat, hone⟩ := Option.filter_eq_some_iff.mp hformat
        obtain ⟨y, hy, hformat⟩ := Option.bind_eq_some_iff.mp hformat
        obtain ⟨elements, helements, h⟩ := Option.bind_eq_some_iff.mp h
        obtain ⟨y₁, hy₁, helements⟩ := Option.bind_eq_some_iff.mp helements
        obtain ⟨controls, hcontrols, h⟩ := Option.bind_eq_some_iff.mp h
        obtain ⟨destination, hdestination, h⟩ := Option.bind_eq_some_iff.mp h
        obtain ⟨y₂, hy₂, hdestination⟩ := Option.bind_eq_some_iff.mp hdestination
        obtain ⟨⟨hall, haccepted⟩, hstored⟩ := parseControls_eq_some.mp hcontrols
        obtain ⟨hdestination, hvalue⟩ := parseDestination_eq_some.mp hdestination
        cases Option.some.inj h
        have hformat : StoredAs (.num 1) y := by
          rw [storedAs_num_iff, hformat, of_decide_eq_true hone]
          rfl
        exact ⟨⟨hall, haccepted, destination, rfl, hdestination⟩, ns, rfl, hkeys,
          ⟨y, hy, hformat⟩,
          ⟨y₁, hy₁, storedAs_arr_iff.mpr ⟨elements, elementsOf_eq_some.mp helements, hstored⟩⟩,
          ⟨y₂, hy₂, hvalue⟩⟩
    | null | bool | num | str | arr => cases h
  · rintro ⟨haccepted, ns, rfl, hkeys, ⟨y, hy, hformat⟩, ⟨y₁, hy₁, hcontrols⟩, ⟨y₂, hy₂, hvalue⟩⟩
    obtain ⟨controls, destination⟩ := snapshot
    obtain ⟨d, rfl, hdestination⟩ := haccepted.destination
    obtain ⟨elements, helements, hstored⟩ := storedAs_arr_iff.mp hcontrols
    have hcontrols' := parseControls_eq_some.mpr ⟨⟨haccepted.keys, haccepted.controls⟩, hstored⟩
    have hdestination' := parseDestination_eq_some.mpr ⟨hdestination, hvalue⟩
    simp only [parseStored]
    rw [if_pos hkeys, hy, hy₁, hy₂]
    simp only [Option.bind_some, storedAs_num_iff.mp hformat, elementsOf_eq_some.mpr helements,
      hdestination', Option.filter_some, Int.cast_one, decide_true, if_true]
    exact congrArg (Option.bind · _) hcontrols'

/-! ## Snapshots and their texts -/

theorem isoText_injective : Function.Injective isoText := by
  intro t t' h
  have hchars : IsoDate.toISOString t = IsoDate.toISOString t' := String.ofList_injective h
  rw [← IsoDate.read_toISOString t, hchars, IsoDate.read_toISOString]

theorem isCanonicalIso_isoText {t : Instant} (h : IsoDate.Representable t) :
    isCanonicalIso (isoText t) = true := by
  unfold isCanonicalIso isoText
  rw [String.toList_ofList, IsoDate.canonicalDate_toISOString h]
  rfl

theorem exists_of_isCanonicalIso {s : String} (h : isCanonicalIso s = true) :
    ∃ t, IsoDate.Representable t ∧ isoText t = s := by
  obtain ⟨t, ht⟩ := Option.isSome_iff_exists.mp h
  obtain ⟨hrepresentable, htext⟩ := IsoDate.canonicalDate_eq_some_iff.mp ht
  refine ⟨t, hrepresentable, ?_⟩
  unfold isoText
  rw [htext, String.ofList_toList]

theorem keyText_injective : Function.Injective keyText := by
  intro key key' h
  cases key <;> cases key' <;> first | rfl | exact absurd h (by decide)

theorem statusText_injective : Function.Injective statusText := by
  intro status status' h
  cases status <;> cases status' <;> first | rfl | exact absurd h (by decide)

theorem ofOption_injective : Function.Injective Json.ofOption := by
  intro e e' h
  cases e with
  | none =>
      cases e' with
      | none => rfl
      | some s => cases h
  | some s =>
      cases e' with
      | none => cases h
      | some s' => exact congrArg some (Json.str.inj h)

theorem SnapshotControl.json_injective : Function.Injective SnapshotControl.json := by
  intro c c' h
  simp only [SnapshotControl.json, Json.obj.injEq, List.cons.injEq, Prod.mk.injEq, true_and,
    Json.str.injEq, Json.num.injEq, and_true] at h
  obtain ⟨hkey, hstatus, hreason, hexpires, hversion⟩ := h
  obtain ⟨key, status, reasonCode, expiresAt, version⟩ := c
  cases keyText_injective hkey
  cases statusText_injective hstatus
  cases hreason
  cases ofOption_injective hexpires
  cases hversion
  rfl

theorem SnapshotDestination.json_injective : Function.Injective SnapshotDestination.json := by
  intro d d' h
  simp only [SnapshotDestination.json, Json.obj.injEq, List.cons.injEq, Prod.mk.injEq, true_and,
    Json.str.injEq, Json.num.injEq, and_true] at h
  obtain ⟨hid, hverified, hversion⟩ := h
  obtain ⟨id, verifiedAt, version⟩ := d
  cases hid
  cases hverified
  cases hversion
  rfl

theorem PayoutComplianceSnapshot.json_injective :
    Function.Injective PayoutComplianceSnapshot.json := by
  intro s s' h
  simp only [PayoutComplianceSnapshot.json, Json.obj.injEq, List.cons.injEq, Prod.mk.injEq,
    true_and, Json.arr.injEq, and_true] at h
  obtain ⟨hcontrols, hdestination⟩ := h
  obtain ⟨controls, destination⟩ := s
  cases SnapshotControl.json_injective.list_map hcontrols
  suffices hsame : destination = s'.destination by rw [hsame]
  cases destination with
  | none =>
      cases hother : s'.destination with
      | none => rfl
      | some d => rw [hother] at hdestination; cases hdestination
  | some d =>
      cases hother : s'.destination with
      | none => rw [hother] at hdestination; cases hdestination
      | some d' =>
          rw [hother] at hdestination
          exact congrArg some (SnapshotDestination.json_injective hdestination)

/-- Two snapshots have the same text only when they are the same. -/
theorem stringify_eq_iff {s s' : PayoutComplianceSnapshot} :
    s.json.stringify = s'.json.stringify ↔ s = s' := by
  refine ⟨fun h => PayoutComplianceSnapshot.json_injective (Json.stringify_injective h), ?_⟩
  rintro rfl
  rfl

/-! ## Inputs as they are read -/

/-- An input as `readInput` puts it together: at most one decision under each key, dates that a
`Date` can hold and a destination whose id is a UUID. -/
structure ReadInput where
  byKey : ReadinessKey → Option ManualPayoutReadinessDecision
  destination : Option SafeStoredDestination
  key : ∀ k control, byKey k = some control → control.key = k
  expiresAt : ∀ k, ∀ control ∈ byKey k, ∀ t ∈ control.expiresAt, IsoDate.Representable t
  id : ∀ d ∈ destination, isDestinationId d.id = true
  verifiedAt : ∀ d ∈ destination, ∀ t ∈ d.verifiedAt, IsoDate.Representable t

def ReadInput.input (read : ReadInput) : SnapshotInput where
  manualChecks := PAYOUT_COMPLIANCE_CONTROL_KEYS.filterMap read.byKey
  destination := read.destination

/-- The destination a payment can go to. -/
def SafeStoredDestination.isReady (d : SafeStoredDestination) : Bool :=
  d.verifiedAt.isSome && isValidPayoutReadinessVersion d.version

namespace ReadInput

variable (read : ReadInput)

theorem decisionOf_input (key : ReadinessKey) :
    decisionOf read.input.manualChecks key = read.byKey key := by
  have hone : (read.input.manualChecks.filter fun c => c.key = key) = (read.byKey key).toList :=
    Wallet.filter_controls read.byKey read.key key
  unfold decisionOf
  rw [← List.head?_filter, List.filter_reverse, hone]
  cases read.byKey key <;> rfl

theorem keys_input : read.input.manualChecks.map ManualPayoutReadinessDecision.key =
    PAYOUT_COMPLIANCE_CONTROL_KEYS.filter fun k => (read.byKey k).isSome := by
  unfold input
  rw [List.map_filterMap, ← List.filterMap_eq_filter]
  refine List.filterMap_congr fun k _ => ?_
  cases hcontrol : read.byKey k with
  | none => simp [Option.guard, hcontrol]
  | some control => simp [Option.guard, hcontrol, read.key k control hcontrol]

/-- An input is ready when each control is and there is a destination to pay to. -/
theorem isReady_iff (t : Instant) : read.input.isReady t = true ↔
    (∀ key, (read.byKey key).any (controlReady t) = true) ∧
      read.destination.any SafeStoredDestination.isReady = true := by
  have hall : ∀ key, key ∈ PAYOUT_COMPLIANCE_CONTROL_KEYS := by
    intro key
    cases key <;> decide
  unfold SnapshotInput.isReady
  simp only [decisionOf_input, Bool.and_eq_true, decide_eq_true_eq, List.all_eq_true]
  constructor
  · rintro ⟨⟨-, hready⟩, hdest⟩
    exact ⟨fun key => hready key (hall key), hdest⟩
  · rintro ⟨hready, hdest⟩
    refine ⟨⟨?_, fun key _ => hready key⟩, hdest⟩
    -- a control that is ready is there, so none is missing
    have hkeys : (PAYOUT_COMPLIANCE_CONTROL_KEYS.filter fun k => (read.byKey k).isSome) =
        PAYOUT_COMPLIANCE_CONTROL_KEYS := by
      refine List.filter_eq_self.mpr fun key _ => ?_
      obtain ⟨hsome, -⟩ := (Option.any_eq_true_iff_get _ _).mp (hready key)
      exact hsome
    unfold decisionCount
    rw [keys_input, hkeys]
    rfl

/-- The destination of a ready input. -/
theorem exists_of_isReady {t : Instant} (h : read.input.isReady t = true) :
    ∃ d verifiedAt, read.destination = some d ∧ d.verifiedAt = some verifiedAt ∧
      isValidPayoutReadinessVersion d.version = true := by
  obtain ⟨d, hd, hready⟩ := (Option.any_eq_true _ _).mp ((read.isReady_iff t).mp h).2
  rw [SafeStoredDestination.isReady, Bool.and_eq_true] at hready
  obtain ⟨verifiedAt, hverified⟩ := Option.isSome_iff_exists.mp hready.1
  exact ⟨d, verifiedAt, hd, hverified, hready.2⟩

theorem accepted_buildSnapshot {t : Instant} (h : read.input.isReady t = true) :
    read.input.buildSnapshot.Accepted := by
  obtain ⟨hready, hdest⟩ := (read.isReady_iff t).mp h
  have hsome : ∀ key, (read.byKey key).isSome = true := by
    intro key
    obtain ⟨hsome, -⟩ := (Option.any_eq_true_iff_get _ _).mp (hready key)
    exact hsome
  refine ⟨?_, ?_, ?_⟩
  · have hkeys : (read.input.manualChecks.map snapshotControl).map SnapshotControl.key =
        read.input.manualChecks.map ManualPayoutReadinessDecision.key := List.map_map
    have hall := read.keys_input
    simp only [hsome, List.filter_true] at hall
    exact hkeys.trans hall
  · intro snapshot hmem
    obtain ⟨control, hcontrol, rfl⟩ := List.mem_map.mp hmem
    obtain ⟨key, -, hkey⟩ := List.mem_filterMap.mp hcontrol
    have hcheck : controlReady t control = true := by
      have hany := hready key
      rw [hkey] at hany
      exact hany
    unfold controlReady at hcheck
    simp only [Bool.and_eq_true] at hcheck
    refine ⟨hcheck.1.2, fun s hs => ?_⟩
    obtain ⟨e, he, rfl⟩ := Option.map_eq_some_iff.mp hs
    exact isCanonicalIso_isoText (read.expiresAt key control hkey e he)
  · obtain ⟨d, verifiedAt, hd, hverified, hversion⟩ := read.exists_of_isReady h
    refine ⟨⟨d.id, isoText verifiedAt, d.version⟩, ?_, ?_⟩
    · change read.destination.bind _ = _
      rw [hd, Option.bind_some, hverified]
      rfl
    · exact ⟨read.id d hd, isCanonicalIso_isoText (read.verifiedAt d hd _ hverified), hversion⟩

end ReadInput

theorem snapshotControl_injective : Function.Injective snapshotControl := by
  intro c c' h
  obtain ⟨key, status, reasonCode, expiresAt, version⟩ := c
  obtain ⟨key', status', reasonCode', expiresAt', version'⟩ := c'
  simp only [snapshotControl, SnapshotControl.mk.injEq] at h
  obtain ⟨rfl, rfl, rfl, hexpires, rfl⟩ := h
  rw [Option.map_injective isoText_injective hexpires]

/-- Ready inputs have the same snapshot only when everything the snapshot shows is the same. -/
theorem buildSnapshot_eq_iff {A B : ReadInput} {t t' : Instant} (hA : A.input.isReady t = true)
    (hB : B.input.isReady t' = true) : A.input.buildSnapshot = B.input.buildSnapshot ↔
      A.byKey = B.byKey ∧ A.destination = B.destination := by
  constructor
  · intro h
    obtain ⟨hcontrols, hdest⟩ := PayoutComplianceSnapshot.mk.inj h
    have hchecks : A.input.manualChecks = B.input.manualChecks :=
      snapshotControl_injective.list_map hcontrols
    refine ⟨funext fun key => ?_, ?_⟩
    · rw [← A.decisionOf_input, hchecks, B.decisionOf_input]
    · obtain ⟨⟨id, _, version⟩, verifiedAt, hd, rfl, -⟩ := A.exists_of_isReady hA
      obtain ⟨⟨id', _, version'⟩, verifiedAt', hd', rfl, -⟩ := B.exists_of_isReady hB
      change A.destination.bind _ = B.destination.bind _ at hdest
      rw [hd, hd'] at hdest
      obtain ⟨(hid : id = id'), hverified, (hversion : version = version')⟩ :=
        SnapshotDestination.mk.inj (Option.some.inj hdest)
      rw [hd, hd', hid, isoText_injective hverified, hversion]
  · rintro ⟨hkeys, hdest⟩
    unfold ReadInput.input
    rw [hkeys, hdest]

/-- The decision that an accepted control shows. -/
def SnapshotControl.decision (control : SnapshotControl) : ManualPayoutReadinessDecision where
  key := control.key
  status := control.status
  reasonCode := control.reasonCode
  expiresAt := control.expiresAt.map fun s => IsoDate.read s.toList
  version := control.version

namespace SnapshotControl.Accepted

variable {control : SnapshotControl}

theorem read_expiresAt (h : control.Accepted) {s : String} (hs : s ∈ control.expiresAt) :
    IsoDate.Representable (IsoDate.read s.toList) ∧ isoText (IsoDate.read s.toList) = s := by
  obtain ⟨t, ht, rfl⟩ := exists_of_isCanonicalIso (h.expiresAt s hs)
  unfold isoText
  rw [String.toList_ofList, IsoDate.read_toISOString]
  exact ⟨ht, rfl⟩

theorem snapshotControl_decision (h : control.Accepted) :
    snapshotControl control.decision = control := by
  have hexpires : (control.expiresAt.map fun s => IsoDate.read s.toList).map isoText =
      control.expiresAt := by
    cases hs : control.expiresAt with
    | none => rfl
    | some s => exact congrArg some (h.read_expiresAt hs).2
  unfold snapshotControl decision
  rw [hexpires]

end SnapshotControl.Accepted

/-- The decisions that a snapshot shows, under their keys. -/
def PayoutComplianceSnapshot.byKey (snapshot : PayoutComplianceSnapshot) (key : ReadinessKey) :
    Option ManualPayoutReadinessDecision :=
  (snapshot.controls.find? fun control => control.key = key).map SnapshotControl.decision

section Accepted

variable {snapshot : PayoutComplianceSnapshot}

theorem exists_of_byKey {key : ReadinessKey} {decision : ManualPayoutReadinessDecision}
    (h : snapshot.byKey key = some decision) :
    ∃ control ∈ snapshot.controls, control.key = key ∧ control.decision = decision := by
  obtain ⟨control, hcontrol, hdecision⟩ := Option.map_eq_some_iff.mp h
  have hkey := List.find?_some hcontrol
  exact ⟨control, List.mem_of_find?_eq_some hcontrol, of_decide_eq_true hkey, hdecision⟩

theorem map_byKey (h : snapshot.Accepted) :
    (PAYOUT_COMPLIANCE_CONTROL_KEYS.filterMap snapshot.byKey).map snapshotControl =
      snapshot.controls := by
  have hnodup : (snapshot.controls.map SnapshotControl.key).Nodup := by
    rw [h.keys]
    decide
  rw [List.map_filterMap, ← h.keys, List.filterMap_map]
  refine (List.filterMap_congr fun control hmem => ?_).trans List.filterMap_some
  unfold PayoutComplianceSnapshot.byKey
  rw [Function.comp_apply, find?_key hnodup hmem]
  exact congrArg some (h.controls control hmem).snapshotControl_decision

/-- A snapshot that the parser accepts is the snapshot of some input. -/
theorem exists_read_of_accepted (h : snapshot.Accepted) :
    ∃ C : ReadInput, C.input.buildSnapshot = snapshot := by
  obtain ⟨d, hd, hdest⟩ := h.destination
  obtain ⟨verifiedAt, hverified, htext⟩ := exists_of_isCanonicalIso hdest.verifiedAt
  let C : ReadInput := {
    byKey := snapshot.byKey
    destination := some ⟨d.id, some verifiedAt, d.version⟩
    key := by
      intro key decision hdecision
      obtain ⟨control, -, hkey, rfl⟩ := exists_of_byKey hdecision
      exact hkey
    expiresAt := by
      intro key decision hdecision t ht
      obtain ⟨control, hmem, -, rfl⟩ := exists_of_byKey hdecision
      obtain ⟨s, hs, rfl⟩ := Option.map_eq_some_iff.mp ht
      exact ((h.controls control hmem).read_expiresAt hs).1
    id := by
      rintro _ ⟨⟩
      exact hdest.id
    verifiedAt := by
      rintro _ ⟨⟩ _ ⟨⟩
      exact hverified }
  have hdestination : (⟨d.id, isoText verifiedAt, d.version⟩ : SnapshotDestination) = d := by
    rw [htext]
  refine ⟨C, ?_⟩
  obtain ⟨controls, destination⟩ := snapshot
  exact congrArg₂ PayoutComplianceSnapshot.mk (map_byKey h)
    ((congrArg some hdestination).trans hd.symm)

end Accepted

/-! ## The rows behind an input -/

theorem isDestinationId_text (id : Uuid) : isDestinationId id.text = Uuid.isVersioned id := by
  have hhex : ∀ c ∈ id.digits, anyHexDigit c = true := by
    intro c hc
    have hmem := List.contains_iff_mem.mpr (mem_fixedHex hc)
    unfold anyHexDigit isHexDigit
    rw [hmem, Bool.true_or]
  have hdigit : ∀ i < 32, ∃ c ∈ "0123456789abcdef".toList, id.digits[i]? = some c := by
    intro i hi
    have hbound : i < id.digits.length := id.length_digits ▸ hi
    exact ⟨_, mem_fixedHex (List.getElem_mem hbound), List.getElem?_eq_getElem hbound⟩
  obtain ⟨version, -, hversion⟩ := hdigit 12 (by decide)
  obtain ⟨variant, hlower, hvariant⟩ := hdigit 16 (by decide)
  -- the digits of an identifier are written in small letters
  have hkinds : "0123456789abcdef".toList.all (fun c =>
      "89abAB".toList.contains c == "89ab".toList.contains c) = true := by decide
  have hkind := beq_iff_eq.mp (List.all_eq_true.mp hkinds variant hlower)
  have hpattern : destinationIdPattern = groupedPattern anyHexDigit
      (fun c => "12345".toList.contains c) (fun c => "89abAB".toList.contains c) := rfl
  unfold isDestinationId Uuid.text Uuid.chars Uuid.isVersioned
  rw [String.toList_ofList, hpattern, fits_groupedPattern id.length_digits hhex hversion hvariant,
    hkind, hversion, hvariant]
  simp only [Option.mem_def, Option.some.injEq, List.contains_eq_any_beq, beq_eq_decide]

/-- `readInput` puts such an input together from rows whose dates are dates and whose
destinations have ids from `gen_random_uuid()`. -/
theorem exists_read_readInput {registry : Registry} {tenantId membershipId : Uuid}
    (hexpires : ∀ c ∈ registry.readinessChecks, ∀ t ∈ c.expiresAt, IsoDate.Representable t)
    (hids : ∀ d ∈ registry.destinations, Uuid.isVersioned d.id = true)
    (hverified : ∀ d ∈ registry.destinations, ∀ t ∈ d.verifiedAt, IsoDate.Representable t) :
    ∃ read : ReadInput, read.input = textInput (readInput registry tenantId membershipId) := by
  have hrow : ∀ d ∈ (readInput registry tenantId membershipId).destination,
      ∃ row ∈ registry.destinations, d = ⟨row.id, row.verifiedAt, row.version⟩ := by
    intro d hd
    obtain ⟨row, hrow, rfl⟩ := Option.map_eq_some_iff.mp hd
    have hmem := (List.mem_insertionSort _).mp (List.mem_of_head? hrow)
    exact ⟨row, (List.mem_filter.mp hmem).1, rfl⟩
  refine ⟨{
    byKey := Wallet.control registry tenantId membershipId
    destination := (textInput (readInput registry tenantId membershipId)).destination
    key := Wallet.control_key
    expiresAt := ?_
    id := ?_
    verifiedAt := ?_ }, rfl⟩
  · intro key control hcontrol t ht
    obtain ⟨c, hfind, rfl⟩ := Option.map_eq_some_iff.mp hcontrol
    exact hexpires c (Table.find?_eq_some.mp hfind).1 t ht
  · intro d hd
    obtain ⟨typed, htyped, rfl⟩ := Option.map_eq_some_iff.mp hd
    obtain ⟨row, hmem, rfl⟩ := hrow typed htyped
    exact (isDestinationId_text row.id).trans (hids row hmem)
  · intro d hd
    obtain ⟨typed, htyped, rfl⟩ := Option.map_eq_some_iff.mp hd
    obtain ⟨row, hmem, rfl⟩ := hrow typed htyped
    exact hverified row hmem

/-! ## The recheck -/

theorem recheckStored_of_ready {A B : ReadInput} {reservedAt t : Instant} {stored : JsonValue}
    (hA : A.input.isReady reservedAt = true) (hstored : StoredAs A.input.buildSnapshot.json stored) :
    recheckStored (some stored) B.input t =
      if B.input.isReady t = true ∧ A.input.buildSnapshot = B.input.buildSnapshot then .ready
      else .changed := by
  have hparse : parseStored stored = some A.input.buildSnapshot :=
    parseStored_eq_some.mpr ⟨A.accepted_buildSnapshot hA, hstored⟩
  unfold recheckStored
  rw [Option.bind_some, hparse]
  simp only [stringify_eq_iff]
  by_cases hB : B.input.isReady t = true
  · simp [hB]
  · simp [hB]

/-! ## The snapshot without its texts -/

section Typed

variable {snapshot : ComplianceSnapshot} {b : PayoutComplianceReadinessInput} {B : ReadInput}

theorem snapshotText_injective : Function.Injective snapshotText := by
  rintro ⟨controls, destination⟩ ⟨controls', destination'⟩ h
  obtain ⟨hcontrols, hdest⟩ := PayoutComplianceSnapshot.mk.inj h
  have hcontrol : Function.Injective
      fun c : ReadinessKey × DecisionStatus × String × Option Instant × Int =>
      (⟨c.1, c.2.1, c.2.2.1, c.2.2.2.1.map isoText, c.2.2.2.2⟩ : SnapshotControl) := by
    rintro ⟨key, status, reasonCode, expiresAt, version⟩ ⟨_, _, _, expiresAt', _⟩ hsame
    simp only [SnapshotControl.mk.injEq] at hsame
    obtain ⟨rfl, rfl, rfl, hexpires, rfl⟩ := hsame
    rw [Option.map_injective isoText_injective hexpires]
  have hdestination : Function.Injective fun d : Uuid × Instant × Int =>
      (⟨d.1.text, isoText d.2.1, d.2.2⟩ : SnapshotDestination) := by
    rintro ⟨id, verifiedAt, version⟩ ⟨id', verifiedAt', _⟩ hsame
    simp only [SnapshotDestination.mk.injEq] at hsame
    obtain ⟨hid, hverified, rfl⟩ := hsame
    rw [Uuid.text_inj hid, isoText_injective hverified]
  have hcontrols : controls = controls' := hcontrol.list_map hcontrols
  have hdest : destination = destination' := Option.map_injective hdestination hdest
  rw [hcontrols, hdest]

theorem buildSnapshot_textInput (b : PayoutComplianceReadinessInput) :
    (textInput b).buildSnapshot = snapshotText (buildSnapshot b) := by
  obtain ⟨manualChecks, destination⟩ := b
  refine congrArg₂ PayoutComplianceSnapshot.mk ?_ ?_
  · unfold buildSnapshot
    rw [List.map_map]
    rfl
  · rcases destination with _ | ⟨id, _ | verifiedAt, version⟩ <;> rfl

theorem isReady_textInput (hB : B.input = textInput b) (t : Instant) :
    (textInput b).isReady t = isReady b t := by
  have hchecks : b.manualChecks = PAYOUT_COMPLIANCE_CONTROL_KEYS.filterMap B.byKey :=
    (congrArg SnapshotInput.manualChecks hB).symm
  have hdest : B.destination.any SafeStoredDestination.isReady =
      Wallet.destinationReady b.destination := by
    have hdest := congrArg SnapshotInput.destination hB
    change B.destination = b.destination.map _ at hdest
    rw [hdest, Option.any_map]
    rfl
  have htyped : b = ⟨PAYOUT_COMPLIANCE_CONTROL_KEYS.filterMap B.byKey, b.destination⟩ := by
    rw [← hchecks]
  rw [← hB, Bool.eq_iff_iff, B.isReady_iff, hdest, htyped, Wallet.isReady_iff B.byKey B.key]

/-- The recheck of a complete snapshot is the one that compares its values. -/
theorem recheckStored_snapshotText (hcomplete : parseSnapshot (some snapshot) = some snapshot)
    (hexpires : ∀ control ∈ snapshot.controls, ∀ e ∈ control.2.2.2.1, IsoDate.Representable e)
    (hverified : ∀ d ∈ snapshot.destination, IsoDate.Representable d.2.1) {stored : JsonValue}
    (hstored : StoredAs (snapshotText snapshot).json stored) (hB : B.input = textInput b)
    (t : Instant) :
    recheckStored (some stored) (textInput b) t = recheckSnapshot (some snapshot) b t := by
  obtain ⟨-, hcheck⟩ := Option.filter_eq_some_iff.mp hcomplete
  simp only [Bool.and_eq_true, decide_eq_true_eq, List.all_eq_true] at hcheck
  obtain ⟨⟨hkeys, hversions⟩, hdest⟩ := hcheck
  obtain ⟨⟨id, verifiedAt, version⟩, hd, hdest⟩ := (Option.any_eq_true _ _).mp hdest
  simp only [Bool.and_eq_true] at hdest
  have haccepted : (snapshotText snapshot).Accepted := by
    refine ⟨?_, ?_, ?_⟩
    · rw [← hkeys]
      exact List.map_map
    · intro control hmem
      obtain ⟨typed, htyped, rfl⟩ := List.mem_map.mp hmem
      refine ⟨hversions typed htyped, fun s hs => ?_⟩
      obtain ⟨e, he, rfl⟩ := Option.map_eq_some_iff.mp hs
      exact isCanonicalIso_isoText (hexpires typed htyped e he)
    · refine ⟨⟨id.text, isoText verifiedAt, version⟩, ?_, ?_⟩
      · exact congrArg (Option.map _) hd
      · exact ⟨(isDestinationId_text id).trans hdest.1,
          isCanonicalIso_isoText (hverified _ hd), hdest.2⟩
  unfold recheckStored recheckSnapshot
  rw [Option.bind_some, parseStored_eq_some.mpr ⟨haccepted, hstored⟩, hcomplete]
  simp only [isReady_textInput hB, buildSnapshot_textInput, stringify_eq_iff,
    snapshotText_injective.eq_iff, Bool.not_eq_true']

end Typed

/-- The checks of a member are found under their keys. -/
theorem find?_manualCheck (key : ReadinessKey) (readiness : PayoutReadinessInput) (t : Instant) :
    ((evaluatePayoutReadiness readiness t).checks.find? fun check => check.key = .manual key) =
      some (manualCheck key readiness t) := by
  have hopen : (openRequestCheck readiness.activePayout).key = .openRequest := by
    rcases readiness.activePayout with _ | ⟨id, _ | _⟩ <;> rfl
  cases key <;>
    simp [evaluatePayoutReadiness, emailCheck, payableBalanceCheck, thresholdCheck, hopen,
      Wallet.manualCheck_key]

/-- A dispatch goes ahead exactly on the decisions of the reservation, which must still be
ready; it asks for a new review of everything that is not the snapshot of an input. -/
theorem recheckStored_exact (A B : ReadInput) (t : Instant) :
    (∀ reservedAt stored, A.input.isReady reservedAt = true →
      StoredAs A.input.buildSnapshot.json stored →
        (recheckStored (some stored) B.input t = .ready ↔
          B.input.isReady t = true ∧ (∀ key, A.byKey key = B.byKey key) ∧
            A.destination = B.destination) ∧
        (recheckStored (some stored) B.input t = .ready ∨
          recheckStored (some stored) B.input t = .changed)) ∧
    (∀ stored, (∀ C : ReadInput, ∀ v ∈ stored, ¬StoredAs C.input.buildSnapshot.json v) →
      recheckStored stored B.input t = .recheckRequired) ∧
    ∀ readiness : PayoutReadinessInput, readiness.manualChecks = B.input.manualChecks →
      (readiness.destination.map fun d => (d.verifiedAt, d.version)) =
        (B.destination.map fun d => (d.verifiedAt, d.version)) →
      (B.input.isReady t = true ↔ ∀ key,
        ((evaluatePayoutReadiness readiness t).checks.find? fun check =>
          check.key = .manual key).map ReadinessCheck.status = some .ready) := by
  refine ⟨fun reservedAt stored hA hstored => ?_, fun stored hnone => ?_,
    fun readiness hchecks hdest => ?_⟩
  · rw [recheckStored_of_ready hA hstored]
    constructor
    · constructor
      · intro h
        split_ifs at h with hsame
        obtain ⟨hkeys, hdest⟩ := (buildSnapshot_eq_iff hA hsame.1).mp hsame.2
        exact ⟨hsame.1, fun key => congrFun hkeys key, hdest⟩
      · rintro ⟨hB, hkeys, hdest⟩
        exact if_pos ⟨hB, (buildSnapshot_eq_iff hA hB).mpr ⟨funext hkeys, hdest⟩⟩
    · exact ite_eq_or_eq ..
  · cases hparse : stored.bind parseStored with
    | none =>
        unfold recheckStored
        rw [hparse]
    | some snapshot =>
        obtain ⟨v, hv, hsnapshot⟩ := Option.bind_eq_some_iff.mp hparse
        obtain ⟨haccepted, hstored⟩ := parseStored_eq_some.mp hsnapshot
        obtain ⟨C, rfl⟩ := exists_read_of_accepted haccepted
        exact absurd hstored (hnone C v hv)
  · have hdestination : Wallet.destinationReady readiness.destination =
        B.destination.any SafeStoredDestination.isReady := by
      have hany := congrArg (Option.any fun d : Option Instant × Int =>
        d.1.isSome && isValidPayoutReadinessVersion d.2) hdest
      rw [Option.any_map, Option.any_map] at hany
      exact hany
    have hcheck := fun key => Wallet.manualCheck_ready B.byKey B.key hchecks t key
    simp only [find?_manualCheck, Option.map_some, Option.some.injEq, hcheck, hdestination]
    rw [B.isReady_iff]
    constructor
    · rintro ⟨hready, hdest⟩ key
      exact ⟨hready key, fun _ => hdest⟩
    · intro h
      exact ⟨fun key => (h key).1, (h .paymentMethod).2 rfl⟩

/-- A member with five approvals and a verified destination. -/
def approvedRead : ReadInput where
  byKey := fun key => some ⟨key, .ready, "approved", some 86400000, 1⟩
  destination := some ⟨"3f2504e0-4f89-41d3-9a0c-0305e82c3301", some 0, 1⟩
  key := by
    rintro k _ ⟨⟩
    rfl
  expiresAt := by
    rintro k _ ⟨⟩ _ ⟨⟩
    decide
  id := by
    rintro _ ⟨⟩
    decide
  verifiedAt := by
    rintro _ ⟨⟩ _ ⟨⟩
    decide

theorem recheckStored_exact_unchanged :
    recheckStored (some (ofJson approvedRead.input.buildSnapshot.json)) approvedRead.input 1 =
      .ready := by
  have hready : approvedRead.input.isReady 1 = true := by decide
  exact ((recheckStored_exact approvedRead approvedRead 1).1 0 _ (by decide)
    (storedAs_ofJson _)).1.mpr ⟨hready, fun _ => rfl, rfl⟩

end Refearn.Payouts
