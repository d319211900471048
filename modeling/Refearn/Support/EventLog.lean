import Mathlib.Data.List.Sort
import Mathlib.Data.List.Range
/-!
# Logs of numbered events

Events arrive in any order and more than once. A log keeps one event under each identifier and
refuses two different ones; in the order of their numbers its events have to be numbered from 1
on. So what is read off a log depends on nothing but which events have arrived.
-/

namespace Refearn.Support.EventLog

/-! ## What a log holds -/

section Holds

variable {ε κ : Type}

/-- Every event is the only one under its identifier. -/
def Unique (id : ε → κ) (events : List ε) : Prop :=
  ∀ e ∈ events, ∀ e' ∈ events, id e = id e' → e = e'

/-- What a log holds after some events. -/
structure Holds (valid : ε → Bool) (id : ε → κ) (events log : List ε) : Prop where
  members : ∀ e, e ∈ log ↔ e ∈ events
  valid : ∀ e ∈ log, valid e = true
  ids : (log.map id).Nodup

variable {valid : ε → Bool} {id : ε → κ} {events log log' : List ε} {e : ε}

theorem Holds.unique_log (h : Holds valid id events log) : Unique id log :=
  fun _ ha _ hb hid => List.inj_on_of_nodup_map h.ids ha hb hid

theorem Holds.unique (h : Holds valid id events log) : Unique id events := fun a ha b hb hid =>
  h.unique_log a ((h.members a).mpr ha) b ((h.members b).mpr hb) hid

theorem Holds.nodup (h : Holds valid id events log) : log.Nodup := List.Nodup.of_map _ h.ids

theorem Holds.perm (h : Holds valid id events log) (h' : Holds valid id events log') :
    log.Perm log' :=
  (List.perm_ext_iff_of_nodup h.nodup h'.nodup).mpr fun e =>
    (h.members e).trans (h'.members e).symm

theorem Holds.of_perm (h : Holds valid id events log) (hperm : log.Perm log') :
    Holds valid id events log' where
  members e := hperm.mem_iff.symm.trans (h.members e)
  valid e he := h.valid e (hperm.mem_iff.mpr he)
  ids := (hperm.map id).nodup_iff.mp h.ids

theorem holds_nil : Holds valid id ([] : List ε) [] := ⟨fun _ => Iff.rfl, nofun, List.nodup_nil⟩

/-- An event that the log has already. -/
theorem Holds.again (h : Holds valid id events log) (he : e ∈ log) :
    Holds valid id (events ++ [e]) log where
  members x := by
    rw [List.mem_append, List.mem_singleton, ← h.members x]
    exact ⟨.inl, fun hx => hx.elim (fun hx => hx) fun heq => heq ▸ he⟩
  valid := h.valid
  ids := h.ids

/-- An event under a new identifier. -/
theorem Holds.concat (h : Holds valid id events log) (hvalid : valid e = true)
    (hfresh : ∀ x ∈ log, id x ≠ id e) : Holds valid id (events ++ [e]) (log ++ [e]) where
  members x := by rw [List.mem_append, List.mem_append, h.members x]
  valid x hx := (List.mem_append.mp hx).elim (h.valid x) fun hx => List.mem_singleton.mp hx ▸ hvalid
  ids := by
    rw [List.map_append, List.map_singleton, List.nodup_append]
    refine ⟨h.ids, List.nodup_singleton _, ?_⟩
    rintro k hk k' hk' rfl
    obtain ⟨x, hx, hid⟩ := List.mem_map.mp hk
    exact hfresh x hx (hid.trans (List.mem_singleton.mp hk'))

end Holds

/-! ## Recording -/

section Record

variable {ε κ τ : Type} [DecidableEq κ] [DecidableEq τ] (valid : ε → Bool) (id : ε → κ)
  (text : ε → τ)

/-- One more event; `text` is what two events under one identifier are compared by. -/
def record (log : List ε) (e : ε) : Option (List ε) :=
  if valid e then
    match log.find? (fun x => id x = id e) with
    | some prior =>
        if text prior = text e then some (log.map fun x => if id x = id e then e else x) else none
    | none => some (log ++ [e])
  else none

/-- All events, in the order in which they arrive. -/
def recordAll (events : List ε) : Option (List ε) := events.foldlM (record valid id text) []

variable {valid id text} {events log log' : List ε} {e : ε}

theorem recordAll_concat (events : List ε) (e : ε) :
    recordAll valid id text (events ++ [e]) =
      (recordAll valid id text events).bind fun log => record valid id text log e := by
  simp [recordAll]

/-- Two valid events are compared exactly. -/
def Compares (valid : ε → Bool) (text : ε → τ) : Prop :=
  ∀ a b, valid a = true → valid b = true → text a = text b → a = b

theorem Holds.record (htext : Compares valid text) (hlog : Holds valid id events log)
    (h : record valid id text log e = some log') : Holds valid id (events ++ [e]) log' := by
  unfold EventLog.record at h
  split_ifs at h with hvalid
  split at h
  · rename_i prior hfind
    obtain ⟨hid, hmem⟩ : id prior = id e ∧ prior ∈ log :=
      ⟨by simpa using List.find?_some hfind, List.mem_of_find?_eq_some hfind⟩
    split_ifs at h with hsame
    have heq : prior = e := htext _ _ (hlog.valid _ hmem) hvalid hsame
    subst heq
    have hself : (log.map fun x => if id x = id prior then prior else x) = log := by
      refine (List.map_congr_left fun x hx => ?_).trans (List.map_id log)
      split_ifs with hx'
      · exact (hlog.unique_log x hx prior hmem hx').symm
      · rfl
    rw [hself] at h
    cases h
    exact hlog.again hmem
  · rename_i hfind
    cases h
    exact hlog.concat hvalid (by simpa using List.find?_eq_none.mp hfind)

variable (id text) in
theorem exists_record (hvalid : valid e = true) (hsame : ∀ x ∈ log, id x = id e → x = e) :
    ∃ log', record valid id text log e = some log' := by
  unfold record
  rw [if_pos hvalid]
  cases hfind : log.find? (fun x => id x = id e) with
  | none => exact ⟨_, rfl⟩
  | some prior =>
      have hprior : prior = e := hsame prior (List.mem_of_find?_eq_some hfind)
        (by simpa using List.find?_some hfind)
      exact ⟨_, if_pos (congrArg text hprior)⟩

theorem holds_of_recordAll (htext : Compares valid text)
    (h : recordAll valid id text events = some log) : Holds valid id events log := by
  induction events using List.reverseRecOn generalizing log with
  | nil =>
      cases h
      exact holds_nil
  | append_singleton events e ih =>
      rw [recordAll_concat, Option.bind_eq_some_iff] at h
      obtain ⟨before, hbefore, hrecord⟩ := h
      exact (ih hbefore).record htext hrecord

theorem exists_recordAll (htext : Compares valid text) (hvalid : ∀ e ∈ events, valid e = true)
    (hunique : Unique id events) : ∃ log, recordAll valid id text events = some log := by
  induction events using List.reverseRecOn with
  | nil => exact ⟨[], rfl⟩
  | append_singleton events e ih =>
      have hleft : ∀ x ∈ events, x ∈ events ++ [e] := fun x => List.mem_append_left _
      have hlast : e ∈ events ++ [e] := List.mem_append_right _ List.mem_cons_self
      obtain ⟨log, hlog⟩ := ih (fun x hx => hvalid x (hleft x hx))
        fun a ha b hb => hunique a (hleft a ha) b (hleft b hb)
      have hholds := holds_of_recordAll htext hlog
      obtain ⟨log', hlog'⟩ := exists_record id text (hvalid e hlast) fun x hx =>
          hunique x (hleft x ((hholds.members x).mp hx)) e hlast
      exact ⟨log', by rw [recordAll_concat, hlog, Option.bind_some, hlog']⟩

end Record

/-! ## Numbers -/

section History

variable {ε κ τ : Type} [DecidableEq κ] [DecidableEq τ] (valid : ε → Bool) (id : ε → κ)
  (text : ε → τ) (number : ε → Int) (le : ε → ε → Bool)

/-- The numbers 1, 2, … -/
def Numbered (log : List ε) : Prop :=
  log.map number = (List.range log.length).map fun i : Nat => (i : Int) + 1

instance instDecidableNumbered (log : List ε) : Decidable (Numbered number log) :=
  inferInstanceAs (Decidable (_ = _))

/-- The events in the order of their numbers, if there are any and none is missing. -/
def history (events : List ε) : Option (List ε) :=
  (recordAll valid id text events).bind fun log =>
    let sorted := log.insertionSort fun a b => le a b = true
    if sorted ≠ [] ∧ Numbered number sorted then some sorted else none

/-- The order of a sort that looks at the numbers first. -/
structure SortsBy (number : ε → Int) (le : ε → ε → Bool) : Prop where
  trans : ∀ a b c, le a b = true → le b c = true → le a c = true
  total : ∀ a b, (le a b || le b a) = true
  number : ∀ a b, le a b = true → number a ≤ number b

/-- The one list of some events in the order of their numbers. -/
structure IsHistory (events h : List ε) : Prop where
  holds : Holds valid id events h
  nonempty : h ≠ []
  numbered : Numbered number h

variable {valid id text number le} {events events' log h : List ε}

theorem Numbered.pairwise (h : Numbered number log) :
    log.Pairwise fun a b => number a < number b := by
  have hrange : ((List.range log.length).map fun i : Nat => (i : Int) + 1).Pairwise (· < ·) := by
    refine List.pairwise_map.mpr (List.pairwise_lt_range.imp fun hlt => ?_)
    omega
  unfold Numbered at h
  rw [← h] at hrange
  exact List.pairwise_map.mp hrange

/-- Sorting finds the numbered list. -/
theorem insertionSort_eq_of_numbered (hle : SortsBy number le) (hperm : log.Perm h)
    (hnumbered : Numbered number h) : log.insertionSort (fun a b => le a b = true) = h := by
  have htotal : Std.Total fun a b => le a b = true := ⟨fun a b => by simpa using hle.total a b⟩
  have htrans : IsTrans ε fun a b => le a b = true := ⟨hle.trans⟩
  have hsorted : (log.insertionSort fun a b => le a b = true).Pairwise fun a b =>
      number a ≤ number b :=
    (List.pairwise_insertionSort _ log).imp fun hab => hle.number _ _ hab
  have hstrict := hnumbered.pairwise
  have hdistinct : ∀ a b, a ∈ h → b ∈ h → number a = number b → a = b := fun a b ha hb heq =>
    List.inj_on_of_nodup_map
      (List.pairwise_map.mpr (hstrict.imp fun hlt => hlt.ne)) ha hb heq
  have hperm' : (log.insertionSort fun a b => le a b = true).Perm h :=
    (List.perm_insertionSort _ log).trans hperm
  refine List.Perm.eq_of_pairwise (fun a b ha hb hab hba => ?_) hsorted
    (hstrict.imp fun hlt => hlt.le) hperm'
  exact hdistinct a b (hperm'.mem_iff.mp ha) hb (le_antisymm hab hba)

/-- A log has a history exactly if its events are numbered from 1 on, in some order. -/
theorem history_eq_some_iff (htext : Compares valid text) (hle : SortsBy number le) :
    history valid id text number le events = some h ↔ IsHistory valid id number events h := by
  unfold history
  rw [Option.bind_eq_some_iff]
  constructor
  · rintro ⟨log, hlog, hsome⟩
    dsimp only at hsome
    split_ifs at hsome with hsorted
    cases hsome
    exact ⟨(holds_of_recordAll htext hlog).of_perm (List.perm_insertionSort _ log).symm,
      hsorted.1, hsorted.2⟩
  · intro hhistory
    have hvalid : ∀ e ∈ events, valid e = true := fun e he =>
      hhistory.holds.valid e ((hhistory.holds.members e).mpr he)
    obtain ⟨log, hlog⟩ := exists_recordAll htext hvalid hhistory.holds.unique
    have hsort : log.insertionSort (fun a b => le a b = true) = h :=
      insertionSort_eq_of_numbered hle ((holds_of_recordAll htext hlog).perm hhistory.holds)
        hhistory.numbered
    refine ⟨log, hlog, ?_⟩
    rw [hsort]
    exact if_pos ⟨hhistory.nonempty, hhistory.numbered⟩

/-- Neither the order nor the repetitions of the events matter. -/
theorem history_congr (htext : Compares valid text) (hle : SortsBy number le)
    (h : ∀ e, e ∈ events ↔ e ∈ events') :
    history valid id text number le events = history valid id text number le events' := by
  refine Option.ext fun log => ?_
  rw [history_eq_some_iff htext hle, history_eq_some_iff htext hle]
  have hholds : Holds valid id events log ↔ Holds valid id events' log :=
    ⟨fun hlog => ⟨fun e => (hlog.members e).trans (h e), hlog.valid, hlog.ids⟩,
      fun hlog => ⟨fun e => (hlog.members e).trans (h e).symm, hlog.valid, hlog.ids⟩⟩
  exact ⟨fun hlog => ⟨hholds.mp hlog.holds, hlog.nonempty, hlog.numbered⟩,
    fun hlog => ⟨hholds.mpr hlog.holds, hlog.nonempty, hlog.numbered⟩⟩

end History

end Refearn.Support.EventLog
