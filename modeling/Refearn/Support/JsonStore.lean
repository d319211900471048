import Refearn.Support.JsonParse
import Mathlib.Data.List.Dedup
import Mathlib.Data.Rat.Defs
/-!
# Stored JSON

A column of type `jsonb` gives back the value that was written to it, with the members of its
objects in an order of its own. Objects that are read back have no two members of one name, and
their numbers are the numbers of the program.
-/

namespace Refearn.Support.JsonValue

/-- The number that a value is. -/
def number? : JsonValue → Option Rat
  | .num mantissa exponent => some (mantissa * (10 : Rat) ^ exponent)
  | .null | .bool _ | .str _ | .arr _ | .obj _ => none

/-- What was written as the one can be read back as the other. -/
inductive StoredAs : Json → JsonValue → Prop
  | null : StoredAs .null .null
  | bool (b : Bool) : StoredAs (.bool b) (.bool b)
  | num {n : Int} {v : JsonValue} (h : v.number? = some (n : Rat)) : StoredAs (.num n) v
  | str (s : String) : StoredAs (.str s) (.str s)
  | arr {xs : List Json} {vs : List JsonValue} (h : List.Forall₂ StoredAs xs vs) :
      StoredAs (.arr xs) (.arr vs)
  | obj {ms : List (String × Json)} {ns stored : List (String × JsonValue)}
      (hnames : ms.map Prod.fst = ns.map Prod.fst)
      (hvalues : List.Forall₂ StoredAs (ms.map Prod.snd) (ns.map Prod.snd))
      (horder : stored.Perm ns) : StoredAs (.obj ms) (.obj stored)

/-- The names of the members are those expected, in any order. -/
def hasExactKeys (members : List (String × JsonValue)) (expected : List String) : Bool :=
  (members.map Prod.fst).isPerm expected

/-! ## Writing again -/

mutual

/-- The value that is written again, where its numbers are integers. -/
def toJson? : JsonValue → Option Json
  | .null => some .null
  | .bool b => some (.bool b)
  | .num mantissa exponent =>
      let x : Rat := mantissa * (10 : Rat) ^ exponent
      if x.den = 1 then some (.num x.num) else none
  | .str s => some (.str s)
  | .arr elements => (toElements? elements).map .arr
  | .obj members => (toMembers? members).map .obj

def toElements? : List JsonValue → Option (List Json)
  | [] => some []
  | v :: vs => do
      let x ← toJson? v
      let xs ← toElements? vs
      some (x :: xs)

def toMembers? : List (String × JsonValue) → Option (List (String × Json))
  | [] => some []
  | (k, v) :: ms => do
      let x ← toJson? v
      let xs ← toMembers? ms
      some ((k, x) :: xs)

end

/-- `JSON.stringify(JSON.parse(JSON.stringify(value))) === JSON.stringify(value)` -/
def isStable (v : JsonValue) : Bool :=
  match toJson? v with
  | some x => (parse x.stringify).bind toJson? |>.any (·.stringify = x.stringify)
  | none => false

/-! ## Members -/

section Members

variable {members : List (String × JsonValue)} {k : String} {v : JsonValue}

theorem mem_of_member (h : member members k = some v) : (k, v) ∈ members := by
  obtain ⟨m, hm, rfl⟩ := Option.map_eq_some_iff.mp h
  have hname := List.find?_some hm
  rw [← of_decide_eq_true hname]
  exact List.mem_reverse.mp (List.mem_of_find?_eq_some hm)

theorem member_eq_some_iff (hnames : (members.map Prod.fst).Nodup) :
    member members k = some v ↔ (k, v) ∈ members := by
  refine ⟨mem_of_member, fun h => ?_⟩
  cases hfind : members.reverse.find? fun m => m.1 = k with
  | none =>
      have hother := List.find?_eq_none.mp hfind (k, v) (List.mem_reverse.mpr h)
      exact absurd (decide_eq_true rfl) hother
  | some m =>
      have hname := List.find?_some hfind
      have hmem : m ∈ members := List.mem_reverse.mp (List.mem_of_find?_eq_some hfind)
      have hsame : m = (k, v) :=
        List.inj_on_of_nodup_map hnames hmem h (of_decide_eq_true hname)
      unfold member
      rw [hfind, hsame]
      rfl

end Members

/-! ## Objects -/

section Objects

variable {ms : List (String × Json)}

theorem exists_of_values {ns : List (String × JsonValue)}
    (hnames : ms.map Prod.fst = ns.map Prod.fst)
    (hvalues : List.Forall₂ StoredAs (ms.map Prod.snd) (ns.map Prod.snd)) {m : String × Json}
    (hm : m ∈ ms) : ∃ y, (m.1, y) ∈ ns ∧ StoredAs m.2 y := by
  induction ms generalizing ns with
  | nil => cases hm
  | cons first ms ih =>
      cases ns with
      | nil => cases hnames
      | cons n ns =>
          obtain ⟨hname, hnames⟩ := List.cons.inj hnames
          obtain ⟨hvalue, hvalues⟩ := List.forall₂_cons.mp hvalues
          rcases List.mem_cons.mp hm with heq | hm
          · refine ⟨n.2, ?_, heq ▸ hvalue⟩
            rw [heq, hname]
            exact List.mem_cons_self
          · obtain ⟨y, hy, hstored⟩ := ih hnames hvalues hm
            exact ⟨y, List.mem_cons_of_mem _ hy, hstored⟩

/-- An object is read back member by member. -/
theorem storedAs_obj_iff (hnames : (ms.map Prod.fst).Nodup) {v : JsonValue} :
    StoredAs (.obj ms) v ↔ ∃ ns, v = .obj ns ∧ hasExactKeys ns (ms.map Prod.fst) = true ∧
      ∀ m ∈ ms, ∃ y, member ns m.1 = some y ∧ StoredAs m.2 y := by
  constructor
  · intro h
    cases h with
    | @obj _ ns stored hsame hmembers horder =>
        have hkeys : (stored.map Prod.fst).Perm (ms.map Prod.fst) := by
          rw [hsame]
          exact horder.map Prod.fst
        have hnodup : (stored.map Prod.fst).Nodup := hkeys.nodup_iff.mpr hnames
        refine ⟨stored, rfl, List.isPerm_iff.mpr hkeys, fun m hm => ?_⟩
        obtain ⟨y, hy, hstored⟩ := exists_of_values hsame hmembers hm
        exact ⟨y, (member_eq_some_iff hnodup).mpr (horder.mem_iff.mpr hy), hstored⟩
  · rintro ⟨ns, rfl, hkeys, hvalues⟩
    have hperm : (ns.map Prod.fst).Perm (ms.map Prod.fst) := List.isPerm_iff.mp hkeys
    have hnodup : (ns.map Prod.fst).Nodup := hperm.nodup_iff.mpr hnames
    -- the members in the order in which they were written
    have hsame : ms.map Prod.fst =
        (ms.map fun m => (m.1, (member ns m.1).getD .null)).map Prod.fst := by
      rw [List.map_map]
      rfl
    have hwritten : List.Forall₂ StoredAs (ms.map Prod.snd)
        ((ms.map fun m => (m.1, (member ns m.1).getD .null)).map Prod.snd) := by
      rw [List.map_map, List.forall₂_map_left_iff, List.forall₂_map_right_iff,
        List.forall₂_same]
      intro m hm
      obtain ⟨y, hy, hstored⟩ := hvalues m hm
      rw [Function.comp_apply, hy]
      exact hstored
    refine .obj hsame hwritten ?_
    refine (List.perm_ext_iff_of_nodup (.of_map _ hnodup) ?_).mpr fun n => ?_
    · exact List.Nodup.of_map Prod.fst (hsame ▸ hnames)
    · constructor
      · intro hn
        have hname : n.1 ∈ ms.map Prod.fst := hperm.mem_iff.mp (List.mem_map_of_mem hn)
        obtain ⟨m, hm, hsame⟩ := List.mem_map.mp hname
        refine List.mem_map.mpr ⟨m, hm, ?_⟩
        rw [hsame, (member_eq_some_iff hnodup).mpr hn]
        rfl
      · intro hn
        obtain ⟨m, hm, rfl⟩ := List.mem_map.mp hn
        obtain ⟨y, hy, -⟩ := hvalues m hm
        rw [hy]
        exact mem_of_member hy

end Objects

/-! ## The other values -/

theorem storedAs_str_iff {s : String} {v : JsonValue} : StoredAs (.str s) v ↔ v = .str s := by
  constructor
  · intro h
    cases h
    rfl
  · rintro rfl
    exact .str s

theorem storedAs_null_iff {v : JsonValue} : StoredAs .null v ↔ v = .null := by
  constructor
  · intro h
    cases h
    rfl
  · rintro rfl
    exact .null

theorem storedAs_num_iff {n : Int} {v : JsonValue} :
    StoredAs (.num n) v ↔ v.number? = some (n : Rat) := by
  constructor
  · intro h
    cases h with
    | num h => exact h
  · exact .num

theorem storedAs_arr_iff {xs : List Json} {v : JsonValue} :
    StoredAs (.arr xs) v ↔ ∃ vs, v = .arr vs ∧ List.Forall₂ StoredAs xs vs := by
  constructor
  · intro h
    cases h with
    | arr h => exact ⟨_, rfl, h⟩
  · rintro ⟨vs, rfl, h⟩
    exact .arr h

/-! ## Reading back what was written -/

theorem names_ofMembers (ms : List (String × Json)) :
    ms.map Prod.fst = (ofMembers ms).map Prod.fst := by
  induction ms with
  | nil => rw [ofMembers]; rfl
  | cons m ms ih =>
      obtain ⟨k, v⟩ := m
      rw [ofMembers, List.map_cons, List.map_cons, ih]

mutual

/-- A value can be read back in the order in which it was written. -/
theorem storedAs_ofJson : ∀ x : Json, StoredAs x (ofJson x)
  | .null => by rw [ofJson]; exact .null
  | .bool b => by rw [ofJson]; exact .bool b
  | .num n => by rw [ofJson]; exact .num (by simp [number?])
  | .str s => by rw [ofJson]; exact .str s
  | .arr xs => by rw [ofJson]; exact .arr (storedAs_ofElements xs)
  | .obj ms => by rw [ofJson]; exact .obj (names_ofMembers ms) (storedAs_ofMembers ms) .rfl

theorem storedAs_ofElements : ∀ xs : List Json, List.Forall₂ StoredAs xs (ofElements xs)
  | [] => by rw [ofElements]; exact .nil
  | x :: xs => by rw [ofElements]; exact .cons (storedAs_ofJson x) (storedAs_ofElements xs)

theorem storedAs_ofMembers : ∀ ms : List (String × Json),
    List.Forall₂ StoredAs (ms.map Prod.snd) ((ofMembers ms).map Prod.snd)
  | [] => by rw [ofMembers]; exact .nil
  | (k, v) :: ms => by
      rw [ofMembers]
      exact .cons (storedAs_ofJson v) (storedAs_ofMembers ms)

end

/-! ## Writing again what was read -/

mutual

theorem toJson?_ofJson : ∀ x : Json, toJson? (ofJson x) = some x
  | .null => by rw [ofJson, toJson?]
  | .bool b => by rw [ofJson, toJson?]
  | .num n => by simp [ofJson, toJson?]
  | .str s => by rw [ofJson, toJson?]
  | .arr xs => by rw [ofJson, toJson?, toElements?_ofElements xs, Option.map_some]
  | .obj ms => by rw [ofJson, toJson?, toMembers?_ofMembers ms, Option.map_some]

theorem toElements?_ofElements : ∀ xs : List Json, toElements? (ofElements xs) = some xs
  | [] => by rw [ofElements, toElements?]
  | x :: xs => by
      rw [ofElements, toElements?, toJson?_ofJson x, toElements?_ofElements xs]
      rfl

theorem toMembers?_ofMembers : ∀ ms : List (String × Json), toMembers? (ofMembers ms) = some ms
  | [] => by rw [ofMembers, toMembers?]
  | (k, v) :: ms => by
      rw [ofMembers, toMembers?, toJson?_ofJson v, toMembers?_ofMembers ms]
      rfl

end

theorem exists_toMembers? {members : List (String × JsonValue)}
    (h : ∀ m ∈ members, ∃ x, toJson? m.2 = some x) : ∃ xs, toMembers? members = some xs := by
  induction members with
  | nil => exact ⟨[], by rw [toMembers?]⟩
  | cons m members ih =>
      obtain ⟨k, v⟩ := m
      obtain ⟨x, hx⟩ := h _ List.mem_cons_self
      obtain ⟨xs, hxs⟩ := ih fun m hm => h m (List.mem_cons_of_mem _ hm)
      exact ⟨(k, x) :: xs, by rw [toMembers?, hx, hxs]; rfl⟩

mutual

/-- What was stored from the program can be written again. -/
theorem exists_toJson? : ∀ (x : Json) (v : JsonValue), StoredAs x v → ∃ y, toJson? v = some y
  | .null, v, h => by rw [storedAs_null_iff.mp h]; exact ⟨.null, by rw [toJson?]⟩
  | .bool b, v, h => by cases h; exact ⟨.bool b, by rw [toJson?]⟩
  | .num n, v, h => by
      cases h with
      | num h =>
          cases v with
          | num mantissa exponent =>
              have hx : (mantissa * (10 : Rat) ^ exponent) = n := Option.some.inj h
              exact ⟨.num n, by rw [toJson?]; simp [hx]⟩
          | null | bool | str | arr | obj => cases h
  | .str s, v, h => by rw [storedAs_str_iff.mp h]; exact ⟨.str s, by rw [toJson?]⟩
  | .arr xs, v, h => by
      obtain ⟨vs, rfl, hvs⟩ := storedAs_arr_iff.mp h
      obtain ⟨ys, hys⟩ := exists_toElements? xs vs hvs
      exact ⟨.arr ys, by rw [toJson?, hys, Option.map_some]⟩
  | .obj ms, v, h => by
      cases h with
      | @obj _ ns stored hnames hvalues horder =>
          obtain ⟨ys, hys⟩ := exists_toMembers? fun m hm =>
            exists_toJson?_of_mem ms ns hvalues m (horder.mem_iff.mp hm)
          exact ⟨.obj ys, by rw [toJson?, hys, Option.map_some]⟩

theorem exists_toElements? : ∀ (xs : List Json) (vs : List JsonValue),
    List.Forall₂ StoredAs xs vs → ∃ ys, toElements? vs = some ys
  | [], vs, h => by
      rw [List.forall₂_nil_left_iff.mp h]
      exact ⟨[], by rw [toElements?]⟩
  | x :: xs, vs, h => by
      obtain ⟨v, vs', hv, hvs, rfl⟩ := List.forall₂_cons_left_iff.mp h
      obtain ⟨y, hy⟩ := exists_toJson? x v hv
      obtain ⟨ys, hys⟩ := exists_toElements? xs vs' hvs
      exact ⟨y :: ys, by rw [toElements?, hy, hys]; rfl⟩

theorem exists_toJson?_of_mem : ∀ (ms : List (String × Json)) (ns : List (String × JsonValue)),
    List.Forall₂ StoredAs (ms.map Prod.snd) (ns.map Prod.snd) →
      ∀ n ∈ ns, ∃ y, toJson? n.2 = some y
  | [], ns, h, n, hn => by
      have hnil : ns = [] := List.map_eq_nil_iff.mp (List.forall₂_nil_left_iff.mp h)
      rw [hnil] at hn
      cases hn
  | (k, x) :: ms, ns, h, n, hn => by
      cases ns with
      | nil => cases hn
      | cons first ns =>
          obtain ⟨hfirst, hrest⟩ := List.forall₂_cons.mp h
          rcases List.mem_cons.mp hn with rfl | hn
          · exact exists_toJson? x n.2 hfirst
          · exact exists_toJson?_of_mem ms ns hrest n hn

end

theorem isStable_of_storedAs {x : Json} {v : JsonValue} (h : StoredAs x v) : isStable v = true := by
  obtain ⟨y, hy⟩ := exists_toJson? x v h
  unfold isStable
  rw [hy]
  dsimp only
  rw [parse_stringify, Option.bind_some, toJson?_ofJson]
  exact decide_eq_true rfl

end Refearn.Support.JsonValue
