import Mathlib.Data.List.Basic
import Mathlib.Data.List.Induction

/-!
# Rows that follow a log of events

An event sets the value of a row, or ends it. `write` is what a table does with an event: setting
inserts or updates the value and leaves the mark of the end alone, ending hits only a row that is
there. `replayed` is what a log says: its last event decides.

A row that has already seen some of the events of a log can be given the log again: `foldl_write`
says that a log of one lifetime leaves what it says, wherever in it the row has been before.
-/

namespace Db

variable {V : Type}

structure Marked (V : Type) where
  value : Option V
  ended : Bool
  deriving DecidableEq

/-- `some v` sets the value `v`; `none` ends the row. -/
def writeEvent (r : Option (Marked V)) : Option V → Option (Marked V)
  | some v => some ⟨some v, (r.map Marked.ended).getD false⟩
  | none => r.map fun _ => ⟨none, true⟩

def eventMeaning : Option V → Marked V
  | some v => ⟨some v, false⟩
  | none => ⟨none, true⟩

def replayed (es : List (Option V)) : Option (Marked V) := es.getLast?.map eventMeaning

/-- The first event sets a value, and nothing follows the end. -/
structure Lifetime (es : List (Option V)) : Prop where
  first : es.head? ≠ some none
  last : none ∉ es.dropLast

/-- A row that has seen the events `past`, and perhaps some of the events `ahead` after them. -/
structure Covers (past ahead : List (Option V)) (r : Option (Marked V)) : Prop where
  settled : ahead = [] → r = replayed past
  ended : ∀ row, r = some row → row.ended = true → none ∈ past ++ ahead
  present : past ≠ [] → r ≠ none

@[simp] theorem replayed_nil : replayed ([] : List (Option V)) = none := rfl

@[simp] theorem replayed_concat (es : List (Option V)) (e : Option V) :
    replayed (es ++ [e]) = some (eventMeaning e) := by
  simp [replayed]

variable {past ahead rest es : List (Option V)} {r : Option (Marked V)}

theorem Lifetime.of_append (h : Lifetime (es ++ rest)) : Lifetime es := by
  constructor
  · intro hhead
    apply h.first
    rw [List.head?_append, hhead]
    rfl
  · intro hmem
    cases rest with
    | nil => exact h.last (by simpa using hmem)
    | cons e rest =>
      apply h.last
      rw [List.dropLast_append_of_ne_nil (List.cons_ne_nil e rest)]
      exact List.mem_append_left _ ((List.dropLast_sublist es).subset hmem)

theorem ended_replayed {row : Marked V} (h : replayed es = some row) (hended : row.ended = true) :
    none ∈ es := by
  obtain ⟨e, he, rfl⟩ := Option.map_eq_some_iff.mp h
  cases e with
  | none => exact List.mem_of_getLast? he
  | some v => cases hended

/-- A row that the log has just left. -/
theorem covers_replayed (es : List (Option V)) : Covers es [] (replayed es) := by
  refine ⟨fun _ => rfl, fun row hrow hended => ?_, fun hne hnone => ?_⟩
  · rw [List.append_nil]
    exact ended_replayed hrow hended
  · exact hne (List.getLast?_eq_none_iff.mp (Option.map_eq_none_iff.mp hnone))

theorem ended_foldl_write {row : Marked V} (h : es.foldl writeEvent r = some row)
    (hended : row.ended = true) : none ∈ es ∨ ∃ old, r = some old ∧ old.ended = true := by
  induction es using List.reverseRecOn generalizing row with
  | nil => exact .inr ⟨row, h, hended⟩
  | append_singleton es e ih =>
    rw [List.foldl_concat] at h
    cases e with
    | none => exact .inl (by simp)
    | some v =>
      obtain rfl := Option.some.inj h
      cases hold : es.foldl writeEvent r with
      | none => rw [hold] at hended; cases hended
      | some old =>
        rw [hold] at hended
        rcases ih hold hended with hmem | hr
        · exact .inl (List.mem_append_left _ hmem)
        · exact .inr hr

theorem foldl_write_ne_none (hr : r ≠ none ∨ (es ≠ [] ∧ es.head? ≠ some none)) :
    es.foldl writeEvent r ≠ none := by
  induction es using List.reverseRecOn with
  | nil =>
    rcases hr with hr | ⟨hne, -⟩
    · exact hr
    · exact absurd rfl hne
  | append_singleton es e ih =>
    rw [List.foldl_concat]
    cases e with
    | some v => simp [writeEvent]
    | none =>
      have hprev : es.foldl writeEvent r ≠ none := by
        apply ih
        rcases hr with hr | ⟨-, hhead⟩
        · exact .inl hr
        · right
          cases es with
          | nil => exact absurd rfl hhead
          | cons e es => exact ⟨List.cons_ne_nil e es, hhead⟩
      simpa [writeEvent] using hprev

/-- Part of a replay: the row has now seen events up to the end of the replay, at most. -/
theorem Covers.write (h : Covers past ahead r) (hahead : ahead <+: rest) (hes : es <+: rest) :
    Covers past rest (es.foldl writeEvent r) := by
  refine ⟨fun hrest => ?_, fun row hrow hended => ?_, fun hpast => ?_⟩
  · subst hrest
    rw [List.prefix_nil.mp hes]
    exact h.settled (List.prefix_nil.mp hahead)
  · rcases ended_foldl_write hrow hended with hmem | ⟨old, hold, hold'⟩
    · exact List.mem_append_right _ (hes.subset hmem)
    · rcases List.mem_append.mp (h.ended old hold hold') with hmem | hmem
      · exact List.mem_append_left _ hmem
      · exact List.mem_append_right _ (hahead.subset hmem)
  · exact foldl_write_ne_none (.inl (h.present hpast))

/-- A whole replay leaves what the log says. -/
theorem Covers.foldl_write (h : Covers past ahead r) (hahead : ahead <+: rest)
    (hlife : Lifetime (past ++ rest)) : rest.foldl writeEvent r = replayed (past ++ rest) := by
  rcases List.eq_nil_or_concat' rest with rfl | ⟨init, e, rfl⟩
  · rw [List.append_nil]
    exact h.settled (List.prefix_nil.mp hahead)
  · have hend : none ∉ past ++ init := by
      have hlast := hlife.last
      rwa [← List.append_assoc, List.dropLast_concat] at hlast
    rw [List.foldl_concat, ← List.append_assoc, replayed_concat]
    cases e with
    | some v =>
      have hmark : ((init.foldl writeEvent r).map Marked.ended).getD false = false := by
        cases hrow : init.foldl writeEvent r with
        | none => rfl
        | some row =>
          by_contra hended
          have hended' : row.ended = true := by simpa using hended
          rcases ended_foldl_write hrow hended' with hmem | ⟨old, hold, hold'⟩
          · exact hend (List.mem_append_right _ hmem)
          · have hmem := h.ended old hold hold'
            have hseen : none ∈ (past ++ init) ++ [some v] := by
              rw [List.append_assoc]
              rcases List.mem_append.mp hmem with hmem | hmem
              · exact List.mem_append_left _ hmem
              · exact List.mem_append_right _ (hahead.subset hmem)
            rcases List.mem_append.mp hseen with hseen | hseen
            · exact hend hseen
            · cases List.mem_singleton.mp hseen
      rw [writeEvent, hmark, eventMeaning]
    | none =>
      have hsome : init.foldl writeEvent r ≠ none := by
        apply foldl_write_ne_none
        cases past with
        | cons p past => exact .inl (h.present (List.cons_ne_nil p past))
        | nil =>
          right
          have hfirst := hlife.first
          cases init with
          | nil => exact absurd rfl hfirst
          | cons i init => exact ⟨List.cons_ne_nil i init, hfirst⟩
      obtain ⟨row, hrow⟩ := Option.ne_none_iff_exists'.mp hsome
      rw [hrow]
      rfl

end Db
