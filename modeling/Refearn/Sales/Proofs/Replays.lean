import Mathlib.Data.String.Basic
import Refearn.Payouts.Proofs.Snapshots
import Refearn.Sales.Proofs.Currencies
import Refearn.Sales.Proofs.Executions
import Refearn.Sales.Replays
/-!
# Replays of stored responses

A stored value is accepted exactly if it is the JSON, with its members in some order, of a
response that fits the token and the scope; and the response of an execution fits its own.
-/

namespace Refearn.Sales

open Support Support.Transaction Support.JsonValue Engine
open Payouts (textOf elementsOf MAX_SAFE_INTEGER)

/-! ## The texts of identifiers -/

theorem isHexDigit_of_mem {id : Uuid} {c : Char} (h : c ∈ id.digits) : isHexDigit c = true :=
  List.contains_iff_mem.mpr (mem_fixedHex h)

theorem exists_digit (id : Uuid) {i : Nat} (hi : i < 32) : ∃ c, id.digits[i]? = some c :=
  ⟨_, List.getElem?_eq_getElem (id.length_digits.symm ▸ hi)⟩

theorem isUuidText_text (id : Uuid) : isUuidText id.text = isRfcUuid id := by
  obtain ⟨version, hversion⟩ := exists_digit id (i := 12) (by decide)
  obtain ⟨variant, hvariant⟩ := exists_digit id (i := 16) (by decide)
  unfold isUuidText Uuid.text Uuid.chars isRfcUuid uuidPattern
  rw [String.toList_ofList, fits_groupedPattern id.length_digits
    (fun c hc => isHexDigit_of_mem hc) hversion hvariant, hversion, hvariant]
  simp only [Option.any_some, List.contains_eq_mem]

/-- Every identifier is written in the same groups. -/
theorem fits_chars (id : Uuid) :
    fits (groupedPattern isHexDigit isHexDigit isHexDigit) id.chars = true := by
  obtain ⟨version, hversion⟩ := exists_digit id (i := 12) (by decide)
  obtain ⟨variant, hvariant⟩ := exists_digit id (i := 16) (by decide)
  unfold Uuid.chars
  rw [fits_groupedPattern id.length_digits (fun c hc => isHexDigit_of_mem hc) hversion hvariant,
    isHexDigit_of_mem (List.mem_of_getElem? hversion),
    isHexDigit_of_mem (List.mem_of_getElem? hvariant)]
  rfl

theorem dash_notHex : isHexDigit '-' = false := by decide

theorem aligned_of_fits_uuidPattern {cs : List Char} (h : fits uuidPattern cs = true) (id : Uuid) :
    Aligned cs id.chars := by
  have hversion : (fun c : Char => '1' ≤ c && c ≤ '8') '-' = false := by decide
  have hvariant : (fun c : Char => ['8', '9', 'a', 'b'].contains c) '-' = false := by decide
  exact aligned_of_fits
    (places_groupedPattern rfl (hversion.trans dash_notHex.symm) (hvariant.trans dash_notHex.symm))
    (separates_groupedPattern dash_notHex hversion hvariant)
    (separates_groupedPattern dash_notHex dash_notHex dash_notHex) h (fits_chars id)

theorem isHexDigit_of_version {c : Char} (h : ('1' ≤ c && c ≤ '8') = true) :
    isHexDigit c = true := by
  have hchar : c = Char.ofNat c.toNat := (Char.ofNat_toNat c).symm
  rw [Bool.and_eq_true, decide_eq_true_iff, decide_eq_true_iff] at h
  obtain ⟨hlow, hhigh⟩ : 49 ≤ c.toNat ∧ c.toNat ≤ 56 := h
  generalize c.toNat = n at hchar hlow hhigh
  rw [hchar]
  interval_cases n <;> decide

theorem isHexDigit_of_variant {c : Char} (h : ['8', '9', 'a', 'b'].contains c = true) :
    isHexDigit c = true := by
  have hall : ['8', '9', 'a', 'b'].all isHexDigit = true := by decide
  exact List.all_eq_true.mp hall c (List.contains_iff_mem.mp h)

/-- What a class of the pattern admits. -/
theorem isHexDigit_or_dash {c : Char} : ∀ p ∈ uuidPattern, p c = true →
    isHexDigit c = true ∨ c = '-' := by
  intro p hp hpc
  simp only [uuidPattern, groupedPattern, List.mem_append, List.mem_replicate, List.mem_cons] at hp
  rcases hp with ⟨-, rfl⟩ | rfl | ⟨-, rfl⟩ | rfl | rfl | ⟨-, rfl⟩ | rfl | rfl | ⟨-, rfl⟩ | rfl |
    ⟨-, rfl⟩
  all_goals first
    | exact .inl hpc
    | exact .inr (of_decide_eq_true hpc)
    | exact .inl (isHexDigit_of_version hpc)
    | exact .inl (isHexDigit_of_variant hpc)

/-- A text of the pattern is that of an identifier. -/
theorem exists_text {text : String} (h : isUuidText text = true) :
    ∃ id : Uuid, id.text = text ∧ isRfcUuid id = true := by
  have hdigits : ∀ c ∈ text.toList.filter (· ≠ '-'), c ∈ "0123456789abcdef".toList := by
    intro c hc
    obtain ⟨hmem, hne⟩ := List.mem_filter.mp hc
    obtain ⟨p, hp, hpc⟩ := exists_of_fits h hmem
    exact List.contains_iff_mem.mp
      ((isHexDigit_or_dash p hp hpc).resolve_right (of_decide_eq_true hne))
  have hlength : (text.toList.filter (· ≠ '-')).length = 32 := by
    rw [(aligned_of_fits_uuidPattern h 0).length_filter, Uuid.filter_chars, Uuid.length_digits]
  obtain ⟨hwritten, hbound⟩ := fixedHex_hexNumber hdigits
  rw [hlength] at hwritten hbound
  let id : Uuid := ⟨hexNumber (text.toList.filter (· ≠ '-')), hbound⟩
  have hchars : text.toList = id.chars := by
    refine (aligned_of_fits_uuidPattern h id).eq_of_filter ?_
    rw [Uuid.filter_chars]
    exact hwritten.symm
  have htext : id.text = text := by
    unfold Uuid.text
    rw [← hchars, String.ofList_toList]
  exact ⟨id, htext, by rw [← isUuidText_text, htext, h]⟩

/-- Texts are in the order of the identifiers. -/
theorem text_lt_of_lt {a b : Uuid} (h : a < b) : a.text < b.text := by
  have haligned : Aligned a.chars b.chars :=
    aligned_of_fits rfl (separates_groupedPattern dash_notHex dash_notHex dash_notHex)
      (separates_groupedPattern dash_notHex dash_notHex dash_notHex) (fits_chars a) (fits_chars b)
  have hlt : a.chars < b.chars := by
    refine haligned.lt_of_filter ?_
    rw [Uuid.filter_chars, Uuid.filter_chars]
    exact fixedHex_lt b.isLt h
  unfold Uuid.text
  rw [String.lt_iff_toList_lt, String.toList_ofList, String.toList_ofList]
  exact hlt

theorem text_lt_text {a b : Uuid} : a.text < b.text ↔ a < b := by
  refine ⟨fun h => ?_, text_lt_of_lt⟩
  by_contra hnot
  rcases (not_lt.mp hnot).lt_or_eq with hlt | heq
  · exact lt_asymm h (text_lt_of_lt hlt)
  · exact lt_irrefl _ (heq ▸ h)

/-! ## Lists of identifiers -/

/-- The loop accepts what it reads in ascending order. -/
theorem ascendingFrom_eq_some {read : JsonValue → Option String} {previous : String}
    {items : List JsonValue} {texts : List String} :
    ascendingFrom read previous items = some texts ↔
      List.Forall₂ (fun item text => read item = some text) items texts ∧
        (previous :: texts).Pairwise (· < ·) := by
  induction items generalizing previous texts with
  | nil =>
      rw [ascendingFrom, List.forall₂_nil_left_iff]
      constructor
      · rintro ⟨⟩
        exact ⟨rfl, List.pairwise_singleton _ _⟩
      · rintro ⟨rfl, -⟩
        rfl
  | cons item items ih =>
      rw [ascendingFrom, List.forall₂_cons_left_iff]
      simp only [Option.bind_eq_bind, Option.bind_eq_some_iff, Option.filter_eq_some_iff, ih,
        decide_eq_true_iff, Option.some.injEq]
      constructor
      · rintro ⟨text, ⟨hread, hlt⟩, rest, ⟨hrest, hsorted⟩, rfl⟩
        refine ⟨⟨text, rest, hread, hrest, rfl⟩, List.pairwise_cons.mpr ⟨fun t ht => ?_, hsorted⟩⟩
        rcases List.mem_cons.mp ht with rfl | ht
        · exact hlt
        · exact hlt.trans ((List.pairwise_cons.mp hsorted).1 t ht)
      · rintro ⟨⟨text, rest, hread, hrest, rfl⟩, hsorted⟩
        obtain ⟨hfirst, hsorted⟩ := List.pairwise_cons.mp hsorted
        exact ⟨text, ⟨hread, hfirst text List.mem_cons_self⟩, rest, ⟨hrest, hsorted⟩, rfl⟩

theorem empty_lt_text (id : Uuid) : "" < id.text := by
  have htext : id.text.toList = id.chars := String.toList_ofList
  have hlength := id.length_chars
  rw [String.lt_iff_toList_lt, htext]
  cases hchars : id.chars with
  | nil =>
      rw [hchars] at hlength
      cases hlength
  | cons c cs => exact List.nil_lt_cons c cs

theorem isSortedUniqueUuidList_iff {ids : List Uuid} :
    isSortedUniqueUuidList ids = true ↔
      ids.Pairwise (· < ·) ∧ ∀ id ∈ ids, isRfcUuid id = true := by
  rw [isSortedUniqueUuidList, Bool.and_eq_true, decide_eq_true_iff, List.all_eq_true]

theorem pairwise_text {ids : List Uuid} :
    ("" :: ids.map Uuid.text).Pairwise (· < ·) ↔ ids.Pairwise (· < ·) := by
  rw [List.pairwise_cons, List.pairwise_map]
  simp only [text_lt_text]
  refine and_iff_right fun text htext => ?_
  obtain ⟨id, -, rfl⟩ := List.mem_map.mp htext
  exact empty_lt_text id

section Lists

variable {read : JsonValue → Option String} {f : Uuid → Json}

/-- A list of items with identifiers is read as the list of their texts. -/
theorem ascendingFrom_iff
    (hread : ∀ item text, read item = some text ↔
      ∃ id : Uuid, id.text = text ∧ isRfcUuid id = true ∧ StoredAs (f id) item)
    {items : List JsonValue} {texts : List String} :
    ascendingFrom read "" items = some texts ↔ ∃ ids : List Uuid, ids.map Uuid.text = texts ∧
      isSortedUniqueUuidList ids = true ∧ List.Forall₂ StoredAs (ids.map f) items := by
  have hids : List.Forall₂ (fun item text => read item = some text) items texts ↔
      ∃ ids : List Uuid, ids.map Uuid.text = texts ∧ (∀ id ∈ ids, isRfcUuid id = true) ∧
        List.Forall₂ StoredAs (ids.map f) items := by
    constructor
    · intro h
      induction h with
      | nil => exact ⟨[], rfl, nofun, .nil⟩
      | @cons item text items texts hitem _ ih =>
          obtain ⟨id, htext, hrfc, hstored⟩ := (hread item text).mp hitem
          obtain ⟨ids, hmap, hall, hrest⟩ := ih
          refine ⟨id :: ids, by rw [List.map_cons, htext, hmap], fun i hi => ?_,
            .cons hstored hrest⟩
          rcases List.mem_cons.mp hi with rfl | hi
          · exact hrfc
          · exact hall i hi
    · rintro ⟨ids, rfl, hall, hstored⟩
      rw [List.forall₂_map_left_iff] at hstored
      rw [List.forall₂_map_right_iff]
      induction hstored with
      | nil => exact .nil
      | @cons id item ids items hitem _ ih =>
          refine .cons ((hread item id.text).mpr ⟨id, rfl, hall id List.mem_cons_self, hitem⟩) ?_
          exact ih fun i hi => hall i (List.mem_cons_of_mem _ hi)
  rw [ascendingFrom_eq_some, hids]
  constructor
  · rintro ⟨⟨ids, rfl, hall, hstored⟩, hsorted⟩
    exact ⟨ids, rfl, isSortedUniqueUuidList_iff.mpr ⟨pairwise_text.mp hsorted, hall⟩, hstored⟩
  · rintro ⟨ids, rfl, hlist, hstored⟩
    obtain ⟨hsorted, hall⟩ := isSortedUniqueUuidList_iff.mp hlist
    exact ⟨⟨ids, rfl, hall, hstored⟩, pairwise_text.mpr hsorted⟩

end Lists

theorem uuidTextOf_eq_some {item : JsonValue} {text : String} : uuidTextOf item = some text ↔
    ∃ id : Uuid, id.text = text ∧ isRfcUuid id = true ∧ StoredAs (.str id.text) item := by
  unfold uuidTextOf
  rw [Option.filter_eq_some_iff, Payouts.textOf_eq_some]
  constructor
  · rintro ⟨hstored, htext⟩
    obtain ⟨id, rfl, hrfc⟩ := exists_text htext
    exact ⟨id, rfl, hrfc, hstored⟩
  · rintro ⟨id, rfl, hrfc, hstored⟩
    exact ⟨hstored, (isUuidText_text id).trans hrfc⟩

theorem sortedUniqueUuidList_eq_some {v : JsonValue} {texts : List String} :
    sortedUniqueUuidList v = some texts ↔ ∃ ids : List Uuid, ids.map Uuid.text = texts ∧
      isSortedUniqueUuidList ids = true ∧ StoredAs (idsJson ids) v := by
  unfold sortedUniqueUuidList idsJson
  simp only [Option.bind_eq_some_iff, Payouts.elementsOf_eq_some,
    ascendingFrom_iff (f := fun id => .str id.text) fun _ _ => uuidTextOf_eq_some,
    storedAs_arr_iff]
  constructor
  · rintro ⟨items, rfl, ids, hmap, hlist, hstored⟩
    exact ⟨ids, hmap, hlist, items, rfl, hstored⟩
  · rintro ⟨ids, hmap, hlist, items, rfl, hstored⟩
    exact ⟨items, rfl, ids, hmap, hlist, hstored⟩

/-! ## Failures -/

theorem storedAs_failure_iff {id : Uuid} {item : JsonValue} :
    StoredAs (failureJson id) item ↔ ∃ ns, item = .obj ns ∧
      hasExactKeys ns ["id", "code", "message"] = true ∧
      (∃ y, member ns "id" = some y ∧ StoredAs (.str id.text) y) ∧
      (∃ y, member ns "code" = some y ∧ StoredAs (.str "not_eligible") y) ∧
      ∃ y, member ns "message" = some y ∧ StoredAs (.str BULK_NOT_ELIGIBLE_MESSAGE) y := by
  have hnames : ["id", "code", "message"].Nodup := by decide
  refine (storedAs_obj_iff (by exact hnames)).trans ?_
  simp only [List.forall_mem_cons, List.not_mem_nil, false_implies, implies_true, and_true]
  exact Iff.rfl

theorem failureIdOf_eq_some {item : JsonValue} {text : String} : failureIdOf item = some text ↔
    ∃ id : Uuid, id.text = text ∧ isRfcUuid id = true ∧ StoredAs (failureJson id) item := by
  simp only [storedAs_failure_iff]
  constructor
  · intro h
    cases item with
    | obj failure =>
        simp only [failureIdOf] at h
        split_ifs at h with hkeys
        simp only [Option.bind_eq_bind, Option.bind_eq_some_iff, Option.filter_eq_some_iff,
          decide_eq_true_iff, uuidTextOf_eq_some, Payouts.textOf_eq_some, Option.some.injEq] at h
        obtain ⟨_, ⟨x, hx, id, rfl, hrfc, hid⟩, code, ⟨⟨y, hy, hcode⟩, rfl⟩, message,
          ⟨⟨z, hz, hmessage⟩, rfl⟩, rfl⟩ := h
        exact ⟨id, rfl, hrfc, failure, rfl, hkeys, ⟨x, hx, hid⟩, ⟨y, hy, hcode⟩, z, hz, hmessage⟩
    | null | bool | num | str | arr => cases h
  · rintro ⟨id, rfl, hrfc, failure, rfl, hkeys, ⟨x, hx, hid⟩, ⟨y, hy, hcode⟩, z, hz, hmessage⟩
    simp only [failureIdOf, hkeys, if_true, Option.bind_eq_bind, Option.bind_eq_some_iff,
      Option.filter_eq_some_iff, decide_eq_true_iff, uuidTextOf_eq_some, Payouts.textOf_eq_some,
      Option.some.injEq]
    exact ⟨id.text, ⟨x, hx, id, rfl, hrfc, hid⟩, _, ⟨⟨y, hy, hcode⟩, rfl⟩, _,
      ⟨⟨z, hz, hmessage⟩, rfl⟩, rfl⟩

theorem safeCountOf_eq_some {v : JsonValue} {n : Nat} :
    safeCountOf v = some n ↔ (n : Int) ≤ MAX_SAFE_INTEGER ∧ StoredAs (.num n) v := by
  rw [storedAs_num_iff, safeCountOf, Option.bind_eq_some_iff]
  constructor
  · rintro ⟨x, hx, h⟩
    split_ifs at h with hx'
    obtain ⟨hden, hpos, hmax⟩ := hx'
    have hn : x.num.toNat = n := Option.some.inj h
    have hnum : x.num = n := by omega
    refine ⟨hnum ▸ hmax, hx.trans (congrArg some ?_)⟩
    rw [← Rat.num_div_den x, hden, hnum]
    simp
  · rintro ⟨hmax, hv⟩
    refine ⟨_, hv, ?_⟩
    simp [hmax]

theorem isRetryScope_iff {ids : List Uuid} {v : JsonValue}
    (hids : isSortedUniqueUuidList ids = true) :
    isRetryScope (ids.map Uuid.text) v = true ↔ StoredAs (retryScopeJson ids) v := by
  have hnames : ["mode", "ids"].Nodup := by decide
  have hstored : StoredAs (retryScopeJson ids) v ↔ ∃ ns, v = .obj ns ∧
      hasExactKeys ns ["mode", "ids"] = true ∧
      (∃ y, member ns "mode" = some y ∧ StoredAs (.str "selected") y) ∧
      ∃ y, member ns "ids" = some y ∧ StoredAs (idsJson ids) y := by
    refine (storedAs_obj_iff (by exact hnames)).trans ?_
    simp only [List.forall_mem_cons, List.not_mem_nil, false_implies, implies_true, and_true]
    exact Iff.rfl
  rw [hstored]
  have htexts : Function.Injective (List.map Uuid.text) :=
    List.map_injective_iff.mpr fun _ _ => Uuid.text_inj
  cases v with
  | obj ns =>
      simp only [isRetryScope, Bool.and_eq_true, Option.any_eq_true, Option.bind_eq_some_iff,
        Payouts.textOf_eq_some, sortedUniqueUuidList_eq_some, decide_eq_true_iff, JsonValue.obj.injEq]
      constructor
      · rintro ⟨⟨hkeys, _, ⟨y, hy, hmode⟩, rfl⟩, _, ⟨z, hz, ids', rfl, -, hstored⟩, hsame⟩
        exact ⟨ns, rfl, hkeys, ⟨y, hy, hmode⟩, z, hz, htexts hsame ▸ hstored⟩
      · rintro ⟨_, rfl, hkeys, ⟨y, hy, hmode⟩, z, hz, hstored⟩
        exact ⟨⟨hkeys, _, ⟨y, hy, hmode⟩, rfl⟩, _, ⟨z, hz, ids, rfl, hids, hstored⟩, rfl⟩
  | null | bool | num | str | arr =>
      refine iff_of_false nofun ?_
      rintro ⟨ns, heq, -⟩
      cases heq

/-- The ids together, as texts and as identifiers. -/
theorem coversScope_iff {succeededIds failed : List Uuid} {scope : NormalizedBulkScope} :
    coversScope (succeededIds.map Uuid.text) (failed.map Uuid.text) scope = true ↔
      ∀ ids, scope = .selected ids → (succeededIds ++ failed).insertionSort (· ≤ ·) = ids := by
  cases scope with
  | allResults filters => exact iff_of_true rfl nofun
  | selected ids =>
      have hsort : ((succeededIds ++ failed).map Uuid.text).insertionSort (· ≤ ·) =
          ((succeededIds ++ failed).insertionSort (· ≤ ·)).map Uuid.text :=
        (List.map_insertionSort _ _ Uuid.text _ fun a _ b _ => by
          rw [← not_lt, ← not_lt, text_lt_text]).symm
      have htexts : Function.Injective (List.map Uuid.text) :=
        List.map_injective_iff.mpr fun _ _ => Uuid.text_inj
      rw [coversScope, ← List.map_append, hsort, decide_eq_true_iff, htexts.eq_iff]
      constructor
      · rintro h _ ⟨⟩
        exact h
      · exact fun h => h ids rfl

/-! ## Responses -/

/-- A response is read back member by member; only one with failures names what to retry. -/
theorem storedAs_response_iff {response : BulkExecutionResponse} {v : JsonValue}
    (hretry : response.retryScope = retryScopeOf response.failed) :
    StoredAs response.json v ↔ ∃ ns, v = .obj ns ∧
      hasExactKeys ns (if 0 < response.failed.length then
        ["action", "succeeded", "succeededIds", "failed", "retryScope"]
        else ["action", "succeeded", "succeededIds", "failed"]) = true ∧
      (∃ y, member ns "action" = some y ∧ StoredAs (.str response.action.text) y) ∧
      (∃ y, member ns "succeeded" = some y ∧ StoredAs (.num response.succeeded) y) ∧
      (∃ y, member ns "succeededIds" = some y ∧ StoredAs (idsJson response.succeededIds) y) ∧
      (∃ y, member ns "failed" = some y ∧ StoredAs (.arr (response.failed.map failureJson)) y) ∧
      (0 < response.failed.length →
        ∃ y, member ns "retryScope" = some y ∧ StoredAs (retryScopeJson response.failed) y) := by
  have hnames : ["action", "succeeded", "succeededIds", "failed", "retryScope"].Nodup := by decide
  have hnames' : ["action", "succeeded", "succeededIds", "failed"].Nodup := by decide
  unfold BulkExecutionResponse.json
  rw [hretry, retryScopeOf]
  by_cases hfailed : 0 < response.failed.length
  · simp only [if_pos hfailed, Option.map_some]
    refine (storedAs_obj_iff (by exact hnames)).trans ?_
    simp only [Json.defined, List.filterMap_cons, Option.map_some, List.filterMap_nil,
      List.forall_mem_cons, List.not_mem_nil, false_implies, implies_true, and_true, hfailed,
      true_implies]
    exact Iff.rfl
  · simp only [if_neg hfailed, Option.map_none]
    refine (storedAs_obj_iff (by exact hnames')).trans ?_
    simp only [Json.defined, List.filterMap_cons, Option.map_some, Option.map_none,
      List.filterMap_nil, List.forall_mem_cons, List.not_mem_nil, false_implies, implies_true,
      and_true, hfailed]
    exact Iff.rfl

theorem validates_iff {response : BulkExecutionResponse} {token : BulkPreviewTokenPayload}
    {scope : NormalizedBulkScope} :
    validatedBulkExecutionResponse response token scope = some response ↔
      response.action = token.action ∧ isSortedUniqueUuidList response.succeededIds = true ∧
      response.succeeded = response.succeededIds.length ∧
      response.succeededIds.length = token.eligibleCount ∧
      isSortedUniqueUuidList response.failed = true ∧
      response.failed.length = token.excludedCount ∧
      (∀ id ∈ response.failed, id ∉ response.succeededIds) ∧
      (∀ ids, scope = .selected ids →
        (response.succeededIds ++ response.failed).insertionSort (· ≤ ·) = ids) ∧
      response.retryScope = retryScopeOf response.failed := by
  cases scope with
  | selected ids =>
      have hscope : (∀ ids', NormalizedBulkScope.selected ids = .selected ids' →
          (response.succeededIds ++ response.failed).insertionSort (· ≤ ·) = ids') ↔
          decide ((response.succeededIds ++ response.failed).insertionSort (· ≤ ·) = ids) =
            true := by
        refine Iff.trans ⟨fun h => h ids rfl, fun h _ heq => ?_⟩ decide_eq_true_iff.symm
        cases heq
        exact h
      rw [hscope]
      unfold validatedBulkExecutionResponse
      dsimp only
      split_ifs with h
      · exact iff_of_true rfl h
      · exact iff_of_false not_false h
  | allResults filters =>
      have hscope : (∀ ids, NormalizedBulkScope.allResults filters = .selected ids →
          (response.succeededIds ++ response.failed).insertionSort (· ≤ ·) = ids) ↔
          true = true := by
        refine iff_of_true (fun ids heq => ?_) rfl
        cases heq
      rw [hscope]
      unfold validatedBulkExecutionResponse
      dsimp only
      split_ifs with h
      · exact iff_of_true rfl h
      · exact iff_of_false not_false h

theorem responseKeys_eq {failed : List JsonValue} {ids : List Uuid}
    (h : List.Forall₂ StoredAs (ids.map failureJson) failed) : responseKeys failed =
      if 0 < ids.length then ["action", "succeeded", "succeededIds", "failed", "retryScope"]
      else ["action", "succeeded", "succeededIds", "failed"] := by
  have hlength : failed.length = ids.length := by
    rw [← h.length_eq, List.length_map]
  rw [responseKeys, hlength]

theorem disjoint_texts {succeededIds failed : List Uuid} :
    (∀ text ∈ failed.map Uuid.text, text ∉ succeededIds.map Uuid.text) ↔
      ∀ id ∈ failed, id ∉ succeededIds := by
  have htext : ∀ id, id.text ∈ succeededIds.map Uuid.text ↔ id ∈ succeededIds :=
    fun id => List.mem_map_of_injective fun _ _ => Uuid.text_inj
  simp only [List.forall_mem_map, htext]

theorem actionText_injective : Function.Injective BulkAction.text := by
  intro a b h
  cases a <;> cases b <;> first | rfl | (revert h; decide)

/-- A stored value is accepted exactly if it was stored from a response that fits the token
and the scope. -/
theorem validatedStoredResponse_eq_some {v r : JsonValue} {token : BulkPreviewTokenPayload}
    {scope : NormalizedBulkScope} :
    validatedStoredResponse v token scope = some r ↔ r = v ∧ ∃ response : BulkExecutionResponse,
      StoredAs response.json v ∧ (response.succeeded : Int) ≤ MAX_SAFE_INTEGER ∧
        validatedBulkExecutionResponse response token scope = some response := by
  simp only [validates_iff]
  constructor
  · intro h
    cases v with
    | obj members =>
        simp only [validatedStoredResponse, Option.bind_eq_bind, Option.bind_eq_some_iff,
          Option.filter_eq_some_iff, Option.guard_eq_some', decide_eq_true_iff,
          Option.some.injEq, Payouts.elementsOf_eq_some, Payouts.textOf_eq_some,
          safeCountOf_eq_some, sortedUniqueUuidList_eq_some,
          ascendingFrom_iff (f := failureJson) fun _ _ => failureIdOf_eq_some] at h
        obtain ⟨failed, ⟨y₄, hy₄, rfl⟩, _, hkeys, _, ⟨⟨y₁, hy₁, haction⟩, rfl⟩, succeeded,
          ⟨y₂, hy₂, hmax, hsucceeded⟩, _, ⟨y₃, hy₃, succeededIds, rfl, hlist, hids⟩, _,
          ⟨hcount, heligible⟩, _, ⟨failedIds, rfl, hfailedList, hfailed⟩, _,
          ⟨hexcluded, hdisjoint⟩, _, hscope, _, hretry, _, -, rfl⟩ := h
        rw [List.length_map] at hcount heligible hexcluded hretry
        have hretryScope : 0 < failedIds.length → ∃ y, member members "retryScope" = some y ∧
            StoredAs (retryScopeJson failedIds) y := by
          intro hfailures
          obtain ⟨y, hy, hretried⟩ := (Option.any_eq_true ..).mp (hretry hfailures)
          exact ⟨y, hy, (isRetryScope_iff hfailedList).mp hretried⟩
        let response : BulkExecutionResponse :=
          ⟨token.action, succeeded, succeededIds, failedIds, retryScopeOf failedIds⟩
        refine ⟨rfl, response, (storedAs_response_iff rfl).mpr ⟨members, rfl,
          responseKeys_eq hfailed ▸ hkeys, ⟨y₁, hy₁, haction⟩, ⟨y₂, hy₂, hsucceeded⟩,
          ⟨y₃, hy₃, hids⟩, ⟨_, hy₄, .arr hfailed⟩, hretryScope⟩, hmax, rfl, hlist, hcount,
          heligible, hfailedList, hexcluded, disjoint_texts.mp hdisjoint, coversScope_iff.mp hscope,
          rfl⟩
    | null | bool | num | str | arr => cases h
  · rintro ⟨rfl, response, hstored, hmax, haction, hlist, hcount, heligible, hfailedList, hexcluded,
      hdisjoint, hscope, hretry⟩
    have hstable : isStable r = true := isStable_of_storedAs hstored
    obtain ⟨members, rfl, hkeys, ⟨y₁, hy₁, hy₁'⟩, ⟨y₂, hy₂, hsucceeded⟩, ⟨y₃, hy₃, hids⟩,
      ⟨y₄, hy₄, helements⟩, hretryScope⟩ := (storedAs_response_iff hretry).mp hstored
    obtain ⟨failed, rfl, hfailed⟩ := storedAs_arr_iff.mp helements
    rw [← responseKeys_eq hfailed] at hkeys
    simp only [validatedStoredResponse, Option.bind_eq_bind, Option.bind_eq_some_iff,
      Option.filter_eq_some_iff, Option.guard_eq_some', decide_eq_true_iff,
      Payouts.elementsOf_eq_some, Payouts.textOf_eq_some,
      safeCountOf_eq_some, sortedUniqueUuidList_eq_some,
      ascendingFrom_iff (f := failureJson) fun _ _ => failureIdOf_eq_some]
    refine ⟨failed, ⟨_, hy₄, rfl⟩, ⟨⟩, hkeys, token.action.text, ⟨⟨y₁, hy₁, haction ▸ hy₁'⟩, rfl⟩,
      response.succeeded, ⟨y₂, hy₂, hmax, hsucceeded⟩, response.succeededIds.map Uuid.text,
      ⟨y₃, hy₃, response.succeededIds, rfl, hlist, hids⟩, ⟨⟩, ?_, response.failed.map Uuid.text,
      ⟨response.failed, rfl, hfailedList, hfailed⟩, ⟨⟩, ?_, ⟨⟩, coversScope_iff.mpr hscope, ⟨⟩, ?_,
      ⟨⟩, hstable, trivial⟩
    · rw [List.length_map]
      exact ⟨hcount, heligible⟩
    · rw [List.length_map]
      exact ⟨hexcluded, disjoint_texts.mpr hdisjoint⟩
    · intro hfailures
      rw [List.length_map] at hfailures
      obtain ⟨y, hy, hretried⟩ := hretryScope hfailures
      rw [hy]
      exact (isRetryScope_iff hfailedList).mpr hretried

/-! ## The review of a scope -/

/-- The sales of a scope are rows of the table, each of them once; those of a selection are
all that it names. -/
structure Selects (db : Db) (scope : NormalizedBulkScope) (rows : List Sale) : Prop where
  mem : ∀ sale ∈ rows, sale ∈ db.sales
  nodup : (rows.map Sale.id).Nodup
  selected : ∀ ids, scope = .selected ids → ids.Nodup → (rows.map Sale.id).Perm ids
  length : ∀ bound, (∀ ids, scope = .selected ids → ids.length ≤ bound) →
    MAX_BULK_RESULTS ≤ bound → rows.length ≤ bound

theorem selects_of_salesForBulkScope {env : BulkEnv} {db : Db} {tenantId : Uuid}
    {scope : NormalizedBulkScope} {rows : List Sale}
    (h : salesForBulkScope env db tenantId scope = .ok rows) : Selects db scope rows := by
  have hkeys : (db.sales.rows.map Sale.id).Nodup := db.sales.keys_nodup
  cases scope with
  | selected ids =>
      simp only [salesForBulkScope] at h
      split_ifs at h with hlength
      cases h
      rw [not_not] at hlength
      have hperm := List.perm_insertionSort bySaleId
        (db.sales.rows.filter fun s => s.tenantId = tenantId ∧ s.id ∈ ids)
      have hnodup : (((db.sales.rows.filter fun s =>
          s.tenantId = tenantId ∧ s.id ∈ ids).insertionSort bySaleId).map Sale.id).Nodup :=
        (hperm.map Sale.id).nodup_iff.mpr ((List.filter_sublist.map Sale.id).nodup hkeys)
      refine ⟨fun sale hsale => ?_, hnodup, ?_, ?_⟩
      · exact (List.mem_filter.mp (hperm.mem_iff.mp hsale)).1
      · rintro _ ⟨⟩ hids
        refine List.Subperm.perm_of_length_le (List.subperm_of_subset hnodup fun id hid => ?_) ?_
        · obtain ⟨sale, hsale, rfl⟩ := List.mem_map.mp hid
          exact (of_decide_eq_true (List.mem_filter.mp (hperm.mem_iff.mp hsale)).2).2
        · rw [List.length_map, hlength]
      · intro bound hbound _
        rw [hlength]
        exact hbound ids rfl
  | allResults filters =>
      simp only [salesForBulkScope] at h
      split_ifs at h with hlength
      cases h
      have hperm := List.perm_insertionSort bySaleId
        (db.sales.rows.filter (saleMatches env db.registry tenantId filters))
      refine ⟨fun sale hsale => ?_, ?_, nofun, fun bound _ hbound => ?_⟩
      · exact (List.mem_filter.mp (hperm.mem_iff.mp (List.mem_of_mem_take hsale))).1
      · refine ((List.take_sublist ..).map Sale.id).nodup ?_
        exact (hperm.map Sale.id).nodup_iff.mpr ((List.filter_sublist.map Sale.id).nodup hkeys)
      · exact (not_lt.mp hlength).trans hbound

theorem sale_of_reviewSale {db : Db} {actor : ActorContext} {tenant : Tenant} {action : BulkAction}
    {sale : Sale} {entry : SelectionEntry}
    (h : reviewSale db actor tenant action sale = .ok entry) : entry.sale = sale := by
  unfold reviewSale at h
  split_ifs at h
  cases action with
  | approve =>
      obtain ⟨inputs, -, hentry⟩ := bind_eq_ok.mp h
      cases hentry
      rfl
  | void =>
      cases h
      rfl

theorem sales_of_forall₂ {db : Db} {actor : ActorContext} {tenant : Tenant} {action : BulkAction}
    {rows : List Sale} {entries : List SelectionEntry}
    (h : List.Forall₂ (fun sale entry => reviewSale db actor tenant action sale = .ok entry) rows
      entries) : entries.map SelectionEntry.sale = rows := by
  induction h with
  | nil => rfl
  | cons hentry _ ih => rw [List.map_cons, sale_of_reviewSale hentry, ih]

theorem exists_of_calculateBulkReview {env : BulkEnv} {db : Db} {actor : ActorContext}
    {action : BulkAction} {scope : NormalizedBulkScope} {review : BulkReview}
    (h : calculateBulkReview env db actor action scope = .ok review) :
    ∃ tenant rows entries, Selects db scope rows ∧ entries.map SelectionEntry.sale = rows ∧
      review = bulkReview env action tenant entries := by
  unfold calculateBulkReview at h
  split at h
  · cases h
  · next tenant _ =>
      obtain ⟨rows, hrows, h⟩ := bind_eq_ok.mp h
      obtain ⟨entries, hentries, h⟩ := bind_eq_ok.mp h
      cases h
      refine ⟨tenant, rows, entries, selects_of_salesForBulkScope hrows, ?_, rfl⟩
      exact sales_of_forall₂ (mapM_eq_ok.mp hentries)

/-- What the execution of a review returns fits the review. -/
theorem validates_bulkReview {env : BulkEnv} {db : Db} {scope : NormalizedBulkScope}
    {tenant : Tenant} {rows : List Sale} {entries : List SelectionEntry}
    {token : BulkPreviewTokenPayload} (hrfc : ∀ sale ∈ db.sales, isRfcUuid sale.id = true)
    (hrows : Selects db scope rows) (hentries : entries.map SelectionEntry.sale = rows)
    (hscope : ∀ ids, scope = .selected ids → ids.Pairwise (· < ·))
    (hmatch : bulkReviewMatchesToken (bulkReview env token.action tenant entries) token = true) :
    let response := bulkResponse token.action (bulkReview env token.action tenant entries)
    (response.succeededIds ++ response.failed).Perm (rows.map Sale.id) ∧
      validatedBulkExecutionResponse response token scope = some response := by
  intro response
  have hsplit : (entries.filter (·.eligible) ++ entries.filter (!·.eligible)).Perm entries :=
    List.filter_append_perm (·.eligible) entries
  have hperm : (response.succeededIds ++ response.failed).Perm (rows.map Sale.id) := by
    refine ((List.perm_insertionSort ..).append (List.perm_insertionSort ..)).trans ?_
    rw [← List.map_append, ← List.map_append, ← hentries]
    exact (hsplit.map _).map _
  obtain ⟨hsucceeded, hfailed, hdisjoint⟩ :=
    List.nodup_append.mp (hperm.nodup_iff.mpr hrows.nodup)
  have hlist : ∀ {ids : List Uuid}, ids.Pairwise (· ≤ ·) → ids.Nodup →
      ids ⊆ response.succeededIds ++ response.failed → isSortedUniqueUuidList ids = true := by
    intro ids hsorted hnodup hsub
    refine isSortedUniqueUuidList_iff.mpr ⟨(hsorted.and hnodup).imp fun h => lt_of_le_of_ne h.1 h.2,
      fun id hid => ?_⟩
    obtain ⟨sale, hsale, rfl⟩ := List.mem_map.mp (hperm.mem_iff.mp (hsub hid))
    exact hrfc sale (hrows.mem sale hsale)
  simp only [bulkReviewMatchesToken, Bool.and_eq_true, decide_eq_true_iff] at hmatch
  obtain ⟨⟨⟨heligible, hexcluded⟩, -⟩, -⟩ := hmatch
  have heligibleLength : response.succeededIds.length = token.eligibleCount := by
    rw [← heligible]
    exact (List.length_insertionSort ..).trans (List.length_map ..)
  have hfailedLength : response.failed.length = token.excludedCount := by
    have hlength := hsplit.length_eq
    rw [List.length_append] at hlength
    have hlast : response.failed.length = (entries.filter (!·.eligible)).length :=
      (List.length_insertionSort ..).trans ((List.length_map ..).trans (List.length_map ..))
    have hcount : entries.length - ((entries.filter (·.eligible)).map SelectionEntry.sale).length =
        token.excludedCount := hexcluded
    rw [List.length_map] at hcount
    omega
  refine ⟨hperm, validates_iff.mpr ⟨rfl, ?_, rfl, heligibleLength, ?_, hfailedLength, ?_, ?_, rfl⟩⟩
  · exact hlist (List.pairwise_insertionSort ..) hsucceeded (List.subset_append_left ..)
  · exact hlist (List.pairwise_insertionSort ..) hfailed (List.subset_append_right ..)
  · exact fun id hid hid' => hdisjoint id hid' id hid rfl
  · intro ids hids
    have hsorted := hscope ids hids
    have hsame := hrows.selected ids hids (hsorted.imp fun h => h.ne)
    refine ((List.perm_insertionSort ..).trans (hperm.trans hsame)).eq_of_pairwise
      (fun _ _ _ _ h h' => le_antisymm h h') (List.pairwise_insertionSort ..)
      (hsorted.imp fun h => h.le)

/-! ## Identifiers of sales -/

/-- The identifiers that the database draws are of the form of the pattern, as
`gen_random_uuid()` gives them. -/
def DrawsRfc (uuids : Nat → Uuid) : Prop := ∀ n, isRfcUuid (uuids n) = true

def BulkStep.DrawsRfc : BulkStep → Prop
  | .engine step => Sales.DrawsRfc step.uuids
  | .bulk call => Sales.DrawsRfc call.uuids

def RfcSales (db : Db) : Prop := ∀ sale ∈ db.sales, isRfcUuid sale.id = true

theorem RfcSales.of_kept {db db' : Db} (h : RfcSales db) (hkept : CurrenciesKept db db') :
    RfcSales db' := by
  intro sale' hsale'
  obtain ⟨sale, hsale, hid, -⟩ := hkept.sales sale' hsale'
  rw [hid]
  exact h sale hsale

theorem RfcSales.createDraftSale {input : DraftInput} {s s' : Session} {id : Uuid}
    (h : RfcSales s.db) (hdraws : DrawsRfc s.uuids)
    (hc : Commits (Sales.createDraftSale input) s id s') : RfcSales s'.db := by
  have hid : id = s.uuids 0 := by
    unfold Sales.createDraftSale at hc
    simp only [commits_bind, commits_genRandomUuid, commits_pure] at hc
    obtain ⟨_, _, ⟨rfl, -⟩, _, _, -, _, _, -, _, _, -, _, _, -, rfl, -⟩ := hc
    rfl
  obtain ⟨sales, hrows, hdb⟩ := commits_createDraftSale hc
  intro sale hsale
  rw [hdb, Table.mem_def, hrows] at hsale
  rcases List.mem_append.mp hsale with hold | hnew
  · exact h sale hold
  · rw [List.mem_singleton.mp hnew, draftSale, hid]
    exact hdraws 0

theorem RfcSales.engine {env : Env} {step : Engine.Step} {db : Db} (h : RfcSales db)
    (hdraws : DrawsRfc step.uuids) : RfcSales (step.apply env db) := by
  obtain ⟨action, uuids⟩ := step
  rcases Engine.Step.apply_cases env ⟨action, uuids⟩ db with heq | ⟨s', hc, heq⟩
  · rw [heq]
    exact h
  · rw [heq]
    by_cases hconfigure : ∃ registry, action = .configure registry
    · obtain ⟨registry, rfl⟩ := hconfigure
      simp only [transaction, commits_bind, commits_readDb, commits_require,
        commits_writeDb] at hc
      obtain ⟨_, _, ⟨rfl, rfl⟩, _, _, ⟨-, rfl⟩, rfl⟩ := hc
      exact h
    by_cases hdraft : ∃ input, action = .createDraftSale input
    · obtain ⟨input, rfl⟩ := hdraft
      have hdiscard : Commits (Engine.discard (Sales.createDraftSale input)) ⟨db, uuids⟩ ⟨⟩ s' := hc
      obtain ⟨id, hcreate⟩ := (commits_discard ..).mp hdiscard
      have hstart : RfcSales (Session.mk db uuids).db := h
      exact hstart.createDraftSale hdraws hcreate
    · exact h.of_kept (.of_commits hc (fun registry heq => hconfigure ⟨registry, heq⟩)
        fun input heq => hdraft ⟨input, heq⟩)

/-- Approvals and voids of a bulk action rewrite the sales. -/
theorem kept_of_bulkMutation {env : BulkEnv} {now : Instant} {actor : ActorContext}
    {action : BulkAction} {saleId : Uuid} {s s' : Session} {u : PUnit}
    (hc : Commits (bulkMutation env now actor action saleId) s u s') :
    CurrenciesKept s.db s'.db := by
  cases action with
  | approve =>
      have happrove : Commits (transaction env.toEnv
        (.approveSale now saleId (some actor.userId) (some actor.tenantId))) s u s' := hc
      exact .of_commits happrove nofun nofun
  | void =>
      have hvoid : Commits (transaction env.toEnv
        (.voidSale now saleId (some actor.userId) (some actor.tenantId))) s u s' := hc
      exact .of_commits hvoid nofun nofun

theorem kept_of_bulkMutations {env : BulkEnv} {now : Instant} {actor : ActorContext}
    {action : BulkAction} {ids : List Uuid} {s s' : Session}
    (hc : (forM ids (bulkMutation env now actor action)).Commits s ⟨⟩ s') :
    CurrenciesKept s.db s'.db := by
  induction ids generalizing s with
  | nil =>
      rw [List.forM_nil, commits_pure] at hc
      rw [hc.2]
      exact .refl _
  | cons id ids ih =>
      obtain ⟨mid, hone, hrest⟩ := (commits_forM_cons ..).mp hc
      exact (kept_of_bulkMutation hone).trans (ih hrest)

theorem RfcSales.bulk {env : BulkEnv} {call : BulkCall} {w : BulkDb} (h : RfcSales w.db) :
    RfcSales (call.apply env w).db := by
  rcases call.returns_or_fails env w with ⟨response, t, hcommits⟩ | hfails
  · rw [BulkCall.apply_of_returns hcommits]
    obtain ⟨token, -, houtcome⟩ := commits_bulk hcommits
    cases houtcome with
    | replayed hdb =>
        have hsame : t.session.db = w.db := hdb
        change RfcSales t.session.db
        rw [hsame]
        exact h
    | executed id hfree hmutations hrows =>
        obtain ⟨ids, s, hdb, hloop⟩ := hmutations
        have hsame : s.db = w.db := hdb
        exact (hsame ▸ h : RfcSales s.db).of_kept (kept_of_bulkMutations hloop)
  · rw [BulkCall.apply_of_fails hfails]
    exact h

theorem rfcSales_run {env : BulkEnv} {steps : List BulkStep}
    (hdraws : ∀ step ∈ steps, step.DrawsRfc) {w : BulkDb} (h : RfcSales w.db) :
    RfcSales (run (BulkStep.apply env) steps w).db := by
  induction steps generalizing w with
  | nil => exact h
  | cons step steps ih =>
      refine ih (fun s hs => hdraws s (List.mem_cons_of_mem _ hs)) ?_
      cases step with
      | engine step => exact h.engine (hdraws _ List.mem_cons_self)
      | bulk call => exact h.bulk

/-! ## Replays -/

/-- What the request schema admits. -/
def BulkScope.Admitted : BulkScope → Prop
  | .selected ids => 0 < ids.length ∧ ids.length ≤ MAX_BULK_RESULTS
  | .allResults _ => True

theorem normalizeBulkScope_selected {env : BulkEnv} {scope : BulkScope} {ids : List Uuid}
    (h : normalizeBulkScope env scope = .selected ids) :
    ids.Pairwise (· < ·) ∧ (scope.Admitted → ids.length ≤ MAX_BULK_RESULTS) := by
  cases scope with
  | allResults filters => cases h
  | selected requested =>
      cases h
      have hperm : (sortedUuids requested).Perm requested.dedup := List.perm_insertionSort ..
      have hsorted : (sortedUuids requested).Pairwise (· ≤ ·) := List.pairwise_insertionSort ..
      have hnodup : (sortedUuids requested).Nodup := hperm.nodup_iff.mpr (List.nodup_dedup requested)
      refine ⟨(hsorted.and hnodup).imp fun h => lt_of_le_of_ne h.1 h.2, fun hadmitted => ?_⟩
      rw [hperm.length_eq]
      exact (List.dedup_sublist requested).length_le.trans hadmitted.2

/-- A call builds a response for a scope and a token, in a state of the database. -/
def Builds (env : BulkEnv) (db : Db) (token : BulkPreviewTokenPayload) (scope : BulkScope)
    (response : BulkExecutionResponse) : Prop :=
  ∃ now actor previewToken executionId t t', t.session.db = db ∧
    Commits (executeReviewed env now actor previewToken token (normalizeBulkScope env scope)
      executionId) t response t'

theorem validates_of_builds {env : BulkEnv} {db : Db} {token : BulkPreviewTokenPayload}
    {scope : BulkScope} {response : BulkExecutionResponse} (hrfc : RfcSales db)
    (hscope : scope.Admitted) (h : Builds env db token scope response) :
    response.succeeded ≤ MAX_BULK_RESULTS ∧
      validatedBulkExecutionResponse response token (normalizeBulkScope env scope) =
        some response := by
  obtain ⟨now, actor, previewToken, executionId, t, t', rfl, hc⟩ := h
  unfold executeReviewed at hc
  simp only [commits_bind, commits_fromExcept, commits_get, commits_require, commits_pure] at hc
  obtain ⟨_, _, ⟨-, rfl⟩, _, _, ⟨rfl, rfl⟩, review, _, ⟨hreview, -⟩, _, _, -, _, _, ⟨hmatch, -⟩,
    _, _, -, _, _, -, _, _, -, rfl, -⟩ := hc
  have hcalculated : calculateBulkReview env t.session.db actor token.action
      (normalizeBulkScope env scope) = .ok review := by
    cases hcalc : calculateBulkReview env t.session.db actor token.action
        (normalizeBulkScope env scope) with
    | error e => rw [hcalc] at hreview; cases hreview
    | ok review' => rw [hcalc] at hreview; cases hreview; rfl
  obtain ⟨tenant, rows, entries, hrows, hentries, rfl⟩ := exists_of_calculateBulkReview hcalculated
  obtain ⟨hperm, hvalid⟩ := validates_bulkReview hrfc hrows hentries
    (fun ids hids => (normalizeBulkScope_selected hids).1) hmatch
  refine ⟨?_, hvalid⟩
  have hlength := hperm.length_eq
  rw [List.length_append, List.length_map] at hlength
  have hbound := hrows.length MAX_BULK_RESULTS
    (fun ids hids => (normalizeBulkScope_selected hids).2 hscope) le_rfl
  exact (Nat.le_add_right ..).trans (hlength.le.trans hbound)

/-- A response that was built is accepted when it is read back, whatever the order of its
members, and all that is accepted fits the review and the scope. -/
theorem replays_hold (env : BulkEnv) :
    (∀ (w : BulkDb) (steps : List BulkStep), w.db.sales.rows = [] →
      (∀ step ∈ steps, step.DrawsRfc) →
        ∀ token (scope : BulkScope) response, scope.Admitted →
          Builds env (run (BulkStep.apply env) steps w).db token scope response →
            ∀ v, StoredAs response.json v →
              validatedStoredResponse v token (normalizeBulkScope env scope) = some v) ∧
    ∀ v r token scope, validatedStoredResponse v token scope = some r → r = v ∧
      ∃ response : BulkExecutionResponse, StoredAs response.json v ∧
        response.succeededIds.Nodup ∧ response.failed.Nodup ∧
        response.succeededIds.Disjoint response.failed ∧
        response.succeededIds.length = token.eligibleCount ∧
        response.failed.length = token.excludedCount ∧
        ∀ ids, scope = .selected ids → (response.succeededIds ++ response.failed).Perm ids := by
  refine ⟨fun w steps hempty hdraws token scope response hscope hbuilds v hv => ?_,
    fun v r token scope h => ?_⟩
  · have hrfc : RfcSales w.db := by
      intro sale hsale
      rw [Table.mem_def, hempty] at hsale
      cases hsale
    obtain ⟨hcount, hvalid⟩ := validates_of_builds (rfcSales_run hdraws hrfc) hscope hbuilds
    refine validatedStoredResponse_eq_some.mpr ⟨rfl, response, hv, ?_, hvalid⟩
    have hbound : (MAX_BULK_RESULTS : Int) ≤ MAX_SAFE_INTEGER := by decide
    omega
  · obtain ⟨rfl, response, hstored, -, hvalid⟩ := validatedStoredResponse_eq_some.mp h
    obtain ⟨-, hsucceeded, -, heligible, hfailed, hexcluded, hdisjoint, hscope, -⟩ :=
      validates_iff.mp hvalid
    have hnodup : ∀ {ids : List Uuid}, isSortedUniqueUuidList ids = true → ids.Nodup :=
      fun h => (isSortedUniqueUuidList_iff.mp h).1.imp fun h => h.ne
    refine ⟨rfl, response, hstored, hnodup hsucceeded, hnodup hfailed,
      fun id hid hid' => hdisjoint id hid' hid, heligible, hexcluded, fun ids hids => ?_⟩
    rw [← hscope ids hids]
    exact (List.perm_insertionSort ..).symm

/-! ## A response that is stored -/

theorem builds_of_reviewed {env : BulkEnv} {db : Db} {now : Instant} {actor : ActorContext}
    {previewToken : String} {token : BulkPreviewTokenPayload} {scope : BulkScope}
    {review : BulkReview} {s : Session} {uuids : Nat → Uuid}
    (hverified : verifyBulkPreviewToken env previewToken actor (some now) = .ok token)
    (hscope : token.scopeFingerprint = bulkScopeFingerprint env (normalizeBulkScope env scope))
    (hreview : calculateBulkReview env db actor token.action (normalizeBulkScope env scope) =
      .ok review)
    (hmatches : bulkReviewMatchesToken review token = true)
    (hlocked : lockSalesForTenant db actor.tenantId review.eligibleIds = review.eligibleIds)
    (hmutations : (forM review.eligibleIds (bulkMutation env now actor token.action)).Commits
      ⟨db, uuids⟩ ⟨⟩ s) : Builds env db token scope (bulkResponse token.action review) := by
  have hfree : ∀ e ∈ (Table.empty : Table BulkActionExecution),
      isExecutionOf actor "" e = false := nofun
  obtain ⟨executions, hinsert⟩ := Table.exists_insert?
    (t := (Table.empty : Table BulkActionExecution))
    (r := ⟨0, actor.tenantId, actor.userId, "", "", .processing⟩) nofun
  have happended : Appended actor "" "" 0 .empty executions :=
    ⟨hfree, nofun, (Table.insert?_eq_some.mp hinsert).2⟩
  obtain ⟨t, hcomplete⟩ := exists_completeBulkExecution (bulkResponse token.action review)
    (t := ⟨s, executions⟩) happended
  refine ⟨now, actor, previewToken, 0, ⟨⟨db, uuids⟩, executions⟩, t, rfl, ?_⟩
  unfold executeReviewed
  simp only [commits_bind, commits_fromExcept, commits_get, commits_require, commits_pure]
  exact ⟨token, _, ⟨by rw [hverified]; rfl, rfl⟩, _, _, ⟨rfl, rfl⟩, review, _,
    ⟨by rw [hreview]; rfl, rfl⟩, ⟨⟩, _, ⟨hscope, rfl⟩, ⟨⟩, _, ⟨hmatches, rfl⟩, ⟨⟩, _,
    ⟨hlocked, rfl⟩, ⟨⟩, _, commits_forM_inEngine.mpr ⟨s, hmutations, rfl⟩, ⟨⟩, _, hcomplete, rfl,
    rfl⟩

namespace ReplayDemo

/-- An identifier of version 4. -/
def saleId : Uuid := Fin.ofNat _ 0x40008000000000000000

def created : List BulkStep :=
  [.engine ⟨.createDraftSale ⟨1, none, 2, 1000, "USD", 0, none, none⟩, fun _ => saleId⟩]

def drafted : BulkDb := run (BulkStep.apply BulkDemo.unsigned) created ⟨Demo.empty, .empty⟩

def scope : BulkScope := .selected [saleId]

def reviewed : Option BulkReview :=
  (calculateBulkReview BulkDemo.unsigned drafted.db BulkDemo.actor .void
    (normalizeBulkScope BulkDemo.unsigned scope)).toOption

def token : BulkPreviewTokenPayload :=
  previewPayload BulkDemo.unsigned 0 BulkDemo.actor .void
    (normalizeBulkScope BulkDemo.unsigned scope) (reviewed.getD ⟨[], [], 0, 0, [], ""⟩)

def env : BulkEnv := { BulkDemo.unsigned with signedPayload := fun _ => some token }

theorem drafted_eq : run (BulkStep.apply env) created ⟨Demo.empty, .empty⟩ = drafted := by
  have henv : env.toEnv = BulkDemo.unsigned.toEnv := rfl
  unfold drafted created
  simp only [run_cons, run_nil, BulkStep.apply, henv]

theorem builds : ∃ response, Builds env drafted.db token scope response ∧
    response.succeededIds = [saleId] := by
  have hids : (reviewed.any fun review => review.eligibleIds == [saleId]) = true := by
    decide
  cases hreview : calculateBulkReview BulkDemo.unsigned drafted.db BulkDemo.actor .void
      (normalizeBulkScope BulkDemo.unsigned scope) with
  | error e =>
      rw [reviewed, hreview] at hids
      cases hids
  | ok review =>
      have hreviewed : reviewed = some review := by
        rw [reviewed, hreview]
        rfl
      rw [hreviewed] at hids
      have heligible : review.eligibleIds = [saleId] := beq_iff_eq.mp hids
      have hmatches : bulkReviewMatchesToken review token = true := by
        rw [token, hreviewed]
        exact bulkReviewMatchesToken_previewPayload ..
      have hverified : verifyBulkPreviewToken env "T" BulkDemo.actor (some 0) = .ok token := by
        refine verifyBulkPreviewToken_eq_ok.mpr ⟨rfl, rfl, rfl, fun time htime => ?_⟩
        cases htime
        change (0 : Int) < 0 + BULK_PREVIEW_TTL_MS
        decide
      have hruns : (((forM [saleId] (bulkMutation env 0 BulkDemo.actor .void)).run
          ⟨drafted.db, Demo.uuidsFrom 500⟩).toOption.any fun _ => true) = true := by
        decide
      obtain ⟨_, hmutations, -⟩ := exists_commits_of_run (p := fun _ => true) hruns
      have hlocked : lockSalesForTenant drafted.db 1 [saleId] = [saleId] := by
        decide
      exact ⟨_, builds_of_reviewed hverified rfl hreview hmatches (heligible.symm ▸ hlocked)
        (heligible.symm ▸ hmutations), heligible⟩

end ReplayDemo

/-- The sale is voided, and the response is read back as it was written. -/
theorem replays_hold_voided : ∃ response : BulkExecutionResponse,
    response.succeededIds = [ReplayDemo.saleId] ∧
      validatedStoredResponse (ofJson response.json) ReplayDemo.token
        (normalizeBulkScope ReplayDemo.env ReplayDemo.scope) = some (ofJson response.json) := by
  obtain ⟨response, hbuilds, hids⟩ := ReplayDemo.builds
  have hdraws : ∀ step ∈ ReplayDemo.created, step.DrawsRfc := by
    intro step hstep
    rw [List.mem_singleton.mp hstep]
    exact fun _ => (by decide : isRfcUuid ReplayDemo.saleId = true)
  have hadmitted : ReplayDemo.scope.Admitted := ⟨by decide, by decide⟩
  exact ⟨response, hids, (replays_hold ReplayDemo.env).1 ⟨Demo.empty, .empty⟩ ReplayDemo.created rfl
    hdraws ReplayDemo.token ReplayDemo.scope response hadmitted (ReplayDemo.drafted_eq ▸ hbuilds) _
    (storedAs_ofJson _)⟩

end Refearn.Sales
