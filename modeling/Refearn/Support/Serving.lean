import Mathlib.Data.List.Basic
import Mathlib.Data.List.Count
import Mathlib.Data.List.Nodup
import Mathlib.Logic.Function.Basic
/-!
# Pools of work
-/

/-!
## Pools of processes

A pool is the list of the states of any number of processes. Each state carries a list of
things it holds; a step replaces the state of one process, and the counts of what the whole
pool holds change as those of that process do.
-/

namespace Refearn.Support

variable {σ α : Type} {pool : List σ} {i : Nat} {before after : σ}

/-- A predicate that holds of no more elements, and fails one that the other holds of, holds of
fewer. -/
theorem countP_lt_countP {p q : α → Bool} {as : List α} (h : ∀ a ∈ as, p a = true → q a = true)
    {a : α} (ha : a ∈ as) (hp : p a = false) (hq : q a = true) : as.countP p < as.countP q := by
  induction as with
  | nil => cases ha
  | cons b as ih =>
      have hrest : ∀ c ∈ as, p c = true → q c = true := fun c hc => h c (List.mem_cons_of_mem _ hc)
      rcases List.mem_cons.mp ha with rfl | ha
      · have hle := List.countP_mono_left hrest
        rw [List.countP_cons_of_neg (by rw [hp]; exact Bool.false_ne_true),
          List.countP_cons_of_pos hq]
        omega
      · have hlt := ih hrest ha
        rw [List.countP_cons, List.countP_cons]
        have hfirst := h b List.mem_cons_self
        by_cases hb : p b = true
        · rw [if_pos hb, if_pos (hfirst hb)]
          omega
        · rw [if_neg hb]
          omega

/-- Everything a pool holds, before and after one process has moved on. -/
theorem countP_flatMap_set (held : σ → List α) (p : α → Bool) (h : pool[i]? = some before)
    (after : σ) :
    ((pool.set i after).flatMap held).countP p + (held before).countP p =
      (pool.flatMap held).countP p + (held after).countP p := by
  induction pool generalizing i with
  | nil => cases h
  | cons state pool ih =>
      cases i with
      | zero =>
          have heq : state = before := Option.some.inj h
          rw [List.set_cons_zero, List.flatMap_cons, List.flatMap_cons, List.countP_append,
            List.countP_append, heq]
          omega
      | succ i =>
          have hrest := ih (i := i) h
          rw [List.set_cons_succ, List.flatMap_cons, List.flatMap_cons, List.countP_append,
            List.countP_append]
          omega

/-- A process that keeps part of what it holds keeps the pool within what it held. -/
theorem countP_flatMap_set_le (held : σ → List α) (p : α → Bool) (h : pool[i]? = some before)
    (hle : (held after).countP p ≤ (held before).countP p) :
    ((pool.set i after).flatMap held).countP p ≤ (pool.flatMap held).countP p := by
  have hcount := countP_flatMap_set held p h after
  omega

theorem mem_flatMap_set {held : σ → List α} {a : α}
    (h : a ∈ (pool.set i after).flatMap held) : a ∈ pool.flatMap held ∨ a ∈ held after := by
  obtain ⟨state, hstate, ha⟩ := List.mem_flatMap.mp h
  rcases List.mem_or_eq_of_mem_set hstate with hold | rfl
  · exact .inl (List.mem_flatMap.mpr ⟨state, hold, ha⟩)
  · exact .inr ha

theorem mem_flatMap_of_getElem? {held : σ → List α} {a : α} (h : pool[i]? = some before)
    (ha : a ∈ held before) : a ∈ pool.flatMap held :=
  List.mem_flatMap.mpr ⟨before, List.mem_of_getElem? h, ha⟩

end Refearn.Support

/-!
## First come, first served

Items wait in one queue for each key, and each request takes the first item under the key that
it asks for. The requests of one key are served with the front of its queue, and a request goes
without only if its queue has run out.
-/

namespace Refearn.Support

variable {α β κ : Type} [DecidableEq κ]

/-! ## Queues -/

section Queues

variable {key : α → κ}

/-- An item joins the queue of its key. -/
def join (key : α → κ) (queues : κ → List α) (a : α) : κ → List α :=
  Function.update queues (key a) (queues (key a) ++ [a])

def queuesOf (key : α → κ) (as : List α) : κ → List α := as.foldl (join key) fun _ => []

theorem foldl_join (as : List α) (queues : κ → List α) (k : κ) :
    as.foldl (join key) queues k = queues k ++ as.filter fun a => key a = k := by
  induction as generalizing queues with
  | nil => exact (List.append_nil _).symm
  | cons a as ih =>
      rw [List.foldl_cons, ih, join]
      by_cases hk : key a = k
      · rw [← hk, Function.update_self, List.filter_cons_of_pos (by simp),
          List.append_assoc]
        rfl
      · rw [Function.update_of_ne (Ne.symm hk), List.filter_cons_of_neg (by simpa using hk)]

theorem queuesOf_apply (as : List α) (k : κ) :
    queuesOf key as k = as.filter fun a => key a = k :=
  foldl_join as _ k

end Queues

/-! ## Serving -/

variable (want : β → κ)

/-- The queues after a request has taken the first item of its own. -/
def takeFirst (queues : κ → List α) (b : β) : κ → List α :=
  Function.update queues (want b) (queues (want b)).tail

/-- Each request with the item that it takes. -/
def serve : (κ → List α) → List β → List (β × Option α)
  | _, [] => []
  | queues, b :: bs => (b, (queues (want b)).head?) :: serve (takeFirst want queues b) bs

section Serve

variable {want} {queues : κ → List α} {bs : List β}

theorem takeFirst_apply (queues : κ → List α) (b : β) (k : κ) :
    takeFirst want queues b k = if want b = k then (queues k).tail else queues k := by
  unfold takeFirst
  by_cases hk : want b = k
  · rw [if_pos hk, hk, Function.update_self]
  · rw [if_neg hk, Function.update_of_ne (Ne.symm hk)]

/-- As many items have left a queue as there were requests for its key. -/
theorem foldl_takeFirst (queues : κ → List α) (bs : List β) (k : κ) :
    bs.foldl (takeFirst want) queues k = (queues k).drop (bs.countP fun b => want b = k) := by
  induction bs generalizing queues with
  | nil => rfl
  | cons b bs ih =>
      rw [List.foldl_cons, ih, takeFirst_apply, List.countP_cons]
      by_cases hk : want b = k
      · rw [if_pos hk, if_pos (decide_eq_true hk), List.drop_tail]
      · rw [if_neg hk, if_neg (by simpa using hk), Nat.add_zero]

theorem serve_append (queues : κ → List α) (bs cs : List β) :
    serve want queues (bs ++ cs) =
      serve want queues bs ++ serve want (bs.foldl (takeFirst want) queues) cs := by
  induction bs generalizing queues with
  | nil => rfl
  | cons b bs ih =>
      rw [List.cons_append, serve, serve, ih, List.cons_append]
      rfl

theorem map_fst_serve (queues : κ → List α) (bs : List β) :
    (serve want queues bs).map Prod.fst = bs := by
  induction bs generalizing queues with
  | nil => rfl
  | cons b bs ih => rw [serve, List.map_cons, ih]

/-- The requests for one key take the front of its queue. -/
theorem served_of_key (queues : κ → List α) (bs : List β) (k : κ) :
    ((serve want queues bs).filter fun s => want s.1 = k).filterMap Prod.snd =
      (queues k).take (bs.countP fun b => want b = k) := by
  induction bs generalizing queues with
  | nil => rfl
  | cons b bs ih =>
      rw [serve, List.countP_cons]
      by_cases hk : want b = k
      · rw [List.filter_cons_of_pos (by simpa using hk), if_pos (decide_eq_true hk)]
        cases hqueue : queues k with
        | nil =>
            rw [List.filterMap_cons_none (by rw [hk, hqueue]; rfl), ih, takeFirst_apply,
              if_pos hk, hqueue, List.tail_nil, List.take_nil, List.take_nil]
        | cons a as =>
            rw [List.filterMap_cons_some (by rw [hk, hqueue]; rfl), ih, takeFirst_apply,
              if_pos hk, hqueue, List.tail_cons, List.take_succ_cons]
      · rw [List.filter_cons_of_neg (by simpa using hk), if_neg (by simpa using hk), ih,
          takeFirst_apply, if_neg hk, Nat.add_zero]

/-- What a request takes was waiting under its key. -/
theorem mem_queue_of_served {b : β} {a : α} (h : (b, some a) ∈ serve want queues bs) :
    a ∈ queues (want b) := by
  induction bs generalizing queues with
  | nil => cases h
  | cons c bs ih =>
      rcases List.mem_cons.mp h with heq | h
      · obtain ⟨rfl, hhead⟩ := Prod.mk.inj heq
        exact List.mem_of_head? hhead.symm
      · have hmem := ih h
        rw [takeFirst_apply] at hmem
        split_ifs at hmem with hk
        · exact List.mem_of_mem_tail hmem
        · exact hmem

/-- A request that takes nothing leaves no item under its key. -/
theorem queue_of_unserved {b : β} (h : (b, none) ∈ serve want queues bs) :
    (queues (want b)).length ≤ bs.countP fun c => want c = want b := by
  induction bs generalizing queues with
  | nil => cases h
  | cons c bs ih =>
      rw [List.countP_cons]
      rcases List.mem_cons.mp h with heq | h
      · obtain ⟨rfl, hhead⟩ := Prod.mk.inj heq
        rw [List.head?_eq_none_iff.mp hhead.symm]
        exact Nat.zero_le _
      · have hlength := ih h
        rw [takeFirst_apply] at hlength
        split_ifs at hlength with hk
        · rw [List.length_tail] at hlength
          rw [if_pos (decide_eq_true hk)]
          omega
        · omega

/-- No item is taken twice. -/
theorem nodup_served {key : α → κ} (hkey : ∀ k, ∀ a ∈ queues k, key a = k)
    (hnodup : ∀ k, (queues k).Nodup) :
    ((serve want queues bs).filterMap Prod.snd).Nodup := by
  induction bs generalizing queues with
  | nil => exact List.nodup_nil
  | cons b bs ih =>
      have hkey' : ∀ k, ∀ a ∈ takeFirst want queues b k, key a = k := by
        intro k a ha
        rw [takeFirst_apply] at ha
        split_ifs at ha
        · exact hkey k a (List.mem_of_mem_tail ha)
        · exact hkey k a ha
      have hnodup' : ∀ k, (takeFirst want queues b k).Nodup := by
        intro k
        rw [takeFirst_apply]
        split_ifs
        · exact (hnodup k).tail
        · exact hnodup k
      have hrest := ih hkey' hnodup'
      rw [serve]
      cases hhead : (queues (want b)).head? with
      | none => rwa [List.filterMap_cons_none (by rfl)]
      | some a =>
          rw [List.filterMap_cons_some (by rfl), List.nodup_cons]
          refine ⟨fun hmem => ?_, hrest⟩
          -- a later request would have found the item in the tail of the queue
          obtain ⟨⟨c, taken⟩, hserved, rfl⟩ := List.mem_filterMap.mp hmem
          have hlater := mem_queue_of_served hserved
          have hc : want b = want c :=
            (hkey _ a (List.mem_of_head? hhead)).symm.trans (hkey' _ a hlater)
          rw [takeFirst_apply, if_pos hc, ← hc] at hlater
          have hsplit := List.cons_head?_tail hhead
          have hfresh := hnodup (want b)
          rw [← hsplit, List.nodup_cons] at hfresh
          exact hfresh.1 hlater

end Serve

end Refearn.Support
