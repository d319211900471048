import Refearn.Payouts.Compliance
import Refearn.Support.JsText
/-!
# Sanctions screening

`sanctions.service.ts`: the list of sanctioned names, stored under their normal form, and the
screen of a name against it. The live block of payouts reads the normal forms only.
-/

namespace Refearn.Sanctions

open Support
open Payouts (normalizeName)

structure SanctionsEntry where
  name : String
  normalizedName : String
  source : String
  country : Option String

def SAMPLE_OFAC : List (String × Option String) :=
  [("Dragan Asanin", none), ("Ali Sadr Hashemi Nejad", some "IR"), ("Viktor Bout", some "RU"),
    ("Joaquin Guzman Loera", some "MX"), ("Test Sanctioned Person", none)]

/-- `upsert` by source and normal form; a country that is not given is not written. -/
def upsertEntry (env : Env) (entries : List SanctionsEntry) (e : String × Option String) :
    List SanctionsEntry :=
  let normalizedName := normalizeName env e.1
  let isStored (s : SanctionsEntry) : Bool := s.source = "OFAC" && s.normalizedName = normalizedName
  if entries.any isStored then
    entries.map fun s =>
      if isStored s then { s with name := e.1, country := e.2.or s.country } else s
  else entries ++ [⟨e.1, normalizedName, "OFAC", e.2⟩]

def refresh (env : Env) (entries : List SanctionsEntry) : List SanctionsEntry :=
  SAMPLE_OFAC.foldl (upsertEntry env) entries

structure ScreenHit where
  name : String
  source : String
  country : Option String

def screen (env : Env) (entries : List SanctionsEntry) (name : String) : List ScreenHit :=
  let n := normalizeName env name
  if utf16Length n < 3 then []
  else
    let nTokens := words n
    let hits := entries.filter fun e =>
      let eTokens := words e.normalizedName
      !eTokens.isEmpty && eTokens.all fun t => t ∈ nTokens
    hits.map fun e => ⟨e.name, e.source, e.country⟩

def isHit (env : Env) (entries : List SanctionsEntry) (name : String) : Bool :=
  !(screen env entries name).isEmpty

/-- Entries as `refresh` stores them. -/
def Normalized (env : Env) (entries : List SanctionsEntry) : Prop :=
  ∀ e ∈ entries, e.normalizedName = normalizeName env e.name

theorem normalized_upsertEntry {env : Env} {entries : List SanctionsEntry}
    (h : Normalized env entries) (e : String × Option String) :
    Normalized env (upsertEntry env entries e) := by
  unfold upsertEntry
  dsimp only
  split_ifs
  · intro s hs
    obtain ⟨r, hr, rfl⟩ := List.mem_map.mp hs
    split_ifs with hstored
    · rw [Bool.and_eq_true, decide_eq_true_eq, decide_eq_true_eq] at hstored
      exact hstored.2
    · exact h r hr
  · intro s hs
    rcases List.mem_append.mp hs with hs | hs
    · exact h s hs
    · rw [List.mem_singleton.mp hs]

theorem normalized_refresh {env : Env} {entries : List SanctionsEntry}
    (h : Normalized env entries) : Normalized env (refresh env entries) := by
  unfold refresh
  generalize SAMPLE_OFAC = list
  induction list generalizing entries with
  | nil => exact h
  | cons e list ih => exact ih (normalized_upsertEntry h e)

end Refearn.Sanctions
