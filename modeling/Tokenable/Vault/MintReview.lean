import Tokenable.Js.OrderedMap
import Tokenable.Js.Text
import Tokenable.Platform.Config

/-!
# Mint results of a vaulted mail

`recordPsaVaultedMintOutcome` merges the results of a mint attempt, one for each cert, with those of
the earlier attempts of the same review, and derives its status and error summary from them.
-/

namespace MintReview
open Js Platform

inductive ReviewStatus where
  | pending | minted | failed | dismissed
  deriving DecidableEq

def ReviewStatus.text : ReviewStatus → JsStr
  | pending => js "pending"
  | minted => js "minted"
  | failed => js "failed"
  | dismissed => js "dismissed"

inductive MintedVia where
  | auto | admin
  deriving DecidableEq

structure MintResult where
  cert : JsStr
  itemId : Option JsStr := none
  publicId : Option JsStr := none
  ok : Bool
  tokenId : Option ℕ := none
  error : Option JsStr := none
  deriving DecidableEq

structure VaultPsaVaultedReview where
  id : JsStr
  matchedItemIds : Option (List JsStr) := some []
  matchedPublicIds : Option (List JsStr) := some []
  status : ReviewStatus := .pending
  mintedVia : Option MintedVia := none
  mintResults : Option (List MintResult) := some []
  errorSummary : Option JsStr := none
  reviewedAt : Option ℕ := none
  deriving DecidableEq

structure Outcome where
  via : MintedVia
  results : List MintResult

section Merge

def MintResult.key (r : MintResult) : JsStr := upper r.cert

abbrev ByCert := OrderedMap JsStr MintResult

/-- A prior success is kept against a later failure. -/
def mergeOne (byCert : ByCert) (r : MintResult) : ByCert :=
  match byCert.get? r.key with
  | some prev => if prev.ok && !r.ok then byCert else byCert.set r.key r
  | none => byCert.set r.key r

def setAll (byCert : ByCert) (rs : List MintResult) : ByCert :=
  rs.foldl (fun m r => m.set r.key r) byCert

def mergeVaultedMintResults (previous next : List MintResult) : List MintResult :=
  (next.foldl mergeOne (setAll .empty previous)).values

/-- `[...new Set([...(previous ?? []), ...next.filter(Boolean)])]` -/
def union (previous : Option (List JsStr)) (next : List (Option JsStr)) : List JsStr :=
  (previous.getD [] ++ (next.filterMap id).filter fun s => !s.isEmpty).eraseDups

/-- `${r.cert}: ${r.error ?? 'failed'}` -/
def failureText (r : MintResult) : JsStr := r.cert ++ js ": " ++ r.error.getD (js "failed")

def failureTexts (rs : List MintResult) : JsStr := (js "; ").intercalate (rs.map failureText)

end Merge

section Record

def anyOk (rs : List MintResult) : Bool := rs.any fun r => r.ok

def anyFail (rs : List MintResult) : Bool := rs.any fun r => !r.ok

def statusOf (merged : List MintResult) : ReviewStatus :=
  if anyOk merged && !anyFail merged then .minted
  else if anyOk merged && anyFail merged then .minted
  else .failed

def errorSummaryOf (merged : List MintResult) : Option JsStr :=
  if anyOk merged && !anyFail merged then none
  else if anyOk merged && anyFail merged then some (failureTexts (merged.filter fun r => !r.ok))
  else some (if (failureTexts merged).isEmpty then js "mint failed" else failureTexts merged)

/-- The review after a recording at the time `now`. -/
def recorded (review : VaultPsaVaultedReview) (input : Outcome) (now : ℕ) : VaultPsaVaultedReview :=
  let merged := mergeVaultedMintResults (review.mintResults.getD []) input.results
  { review with
    mintResults := some merged
    mintedVia := some input.via
    reviewedAt := some now
    matchedItemIds := some (union review.matchedItemIds (merged.map MintResult.itemId))
    matchedPublicIds := some (union review.matchedPublicIds (merged.map MintResult.publicId))
    status := statusOf merged
    errorSummary := errorSummaryOf merged }

def recordPsaVaultedMintOutcome (found : Option VaultPsaVaultedReview) (input : Outcome) (now : ℕ) :
    Except HttpError VaultPsaVaultedReview :=
  match found with
  | none => .error (.notFound (js "Vaulted review not found"))
  | some review => .ok (recorded review input now)

def dismissPsaVaultedReview (found : Option VaultPsaVaultedReview) (now : ℕ) :
    Except HttpError VaultPsaVaultedReview :=
  match found with
  | none => .error (.notFound (js "Vaulted review not found"))
  | some review =>
    if review.status ≠ .pending ∧ review.status ≠ .failed then
      .error (.badRequest (js "Review is already " ++ review.status.text))
    else .ok { review with status := .dismissed, reviewedAt := some now }

/-- The row of a new mail, with the items of the mint queue that it names. -/
def enqueuePsaVaultedReview (id : JsStr) (items : List (JsStr × JsStr)) : VaultPsaVaultedReview where
  id := id
  matchedItemIds := some (items.map Prod.fst)
  matchedPublicIds := some ((items.map Prod.snd).filter fun s => !s.isEmpty).eraseDups

inductive Call where
  | record (input : Outcome) (now : ℕ)
  | dismiss (now : ℕ)

/-- A call on a review that is there; one that throws leaves it as it is. -/
def Call.run (review : VaultPsaVaultedReview) : Call → VaultPsaVaultedReview
  | .record input now => (recordPsaVaultedMintOutcome (some review) input now).toOption.getD review
  | .dismiss now => (dismissPsaVaultedReview (some review) now).toOption.getD review

def play (review : VaultPsaVaultedReview) (calls : List Call) : VaultPsaVaultedReview :=
  calls.foldl Call.run review

def Call.results : Call → List MintResult
  | .record input _ => input.results
  | .dismiss _ => []

end Record

section Best

/-- What one cert is mapped to after a result for it. -/
def better (prev : Option MintResult) (r : MintResult) : MintResult :=
  match prev with
  | some p => if p.ok && !r.ok then p else r
  | none => r

/-- What one cert is mapped to after its results in turn. -/
def best (start : Option MintResult) (rs : List MintResult) : Option MintResult :=
  rs.foldl (fun prev r => some (better prev r)) start

variable {start other : Option MintResult} {r m : MintResult} {rs : List MintResult}

theorem better_of_ok (h : r.ok = true) : better start r = r := by
  cases start with
  | none => rfl
  | some p => simp [better, h]

theorem better_cases : better start r = r ∨ start = some (better start r) := by
  cases start with
  | none => exact .inl rfl
  | some p =>
      rw [better]
      split
      · exact .inr rfl
      · exact .inl rfl

/-- A success stays one. -/
theorem ok_better (h : r.ok = true ∨ ∃ p, start = some p ∧ p.ok = true) :
    (better start r).ok = true := by
  rcases h with h | ⟨p, rfl, hp⟩
  · rw [better_of_ok h, h]
  · cases hr : r.ok with
    | true => rw [better_of_ok hr, hr]
    | false => simp [better, hp, hr]

theorem best_mem (h : best start rs = some m) : m ∈ rs ∨ start = some m := by
  induction rs generalizing start with
  | nil => exact .inr h
  | cons r rs ih =>
      rcases ih h with hmem | hstart
      · exact .inl (List.mem_cons_of_mem r hmem)
      · rw [Option.some.injEq] at hstart
        have hcases : better start r = r ∨ start = some (better start r) := better_cases
        rcases hcases with heq | heq
        · rw [← hstart, heq]
          exact .inl List.mem_cons_self
        · rw [← hstart]
          exact .inr heq

theorem isSome_best (h : start.isSome = true ∨ rs ≠ []) : (best start rs).isSome = true := by
  induction rs generalizing start with
  | nil => exact h.resolve_right (· rfl)
  | cons r rs ih => exact ih (.inl rfl)

theorem ok_best (h : (∃ r ∈ rs, r.ok = true) ∨ ∃ p, start = some p ∧ p.ok = true) :
    ∃ p, best start rs = some p ∧ p.ok = true := by
  induction rs generalizing start with
  | nil =>
      rcases h with ⟨r, hr, -⟩ | h
      · cases hr
      · exact h
  | cons r rs ih =>
      apply ih
      rcases h with ⟨r', hr', hok⟩ | hstart
      · rcases List.mem_cons.1 hr' with rfl | hr'
        · exact .inr ⟨_, rfl, ok_better (.inl hok)⟩
        · exact .inl ⟨r', hr', hok⟩
      · exact .inr ⟨_, rfl, ok_better (.inr hstart)⟩

/-- With a success among the results it does not matter what came before. -/
theorem best_congr (h : ∃ r ∈ rs, r.ok = true) : best start rs = best other rs := by
  induction rs generalizing start other with
  | nil =>
      obtain ⟨r, hr, -⟩ := h
      cases hr
  | cons r rs ih =>
      cases hok : r.ok with
      | true =>
          change best (some (better start r)) rs = best (some (better other r)) rs
          rw [better_of_ok hok, better_of_ok hok]
      | false =>
          obtain ⟨r', hr', hok'⟩ := h
          rcases List.mem_cons.1 hr' with rfl | hr'
          · rw [hok] at hok'
            cases hok'
          · exact ih ⟨r', hr', hok'⟩

/-- Failures alone leave a success as it is. -/
theorem best_of_failures (hfail : ∀ r ∈ rs, r.ok = false) (hok : m.ok = true) :
    best (some m) rs = some m := by
  induction rs with
  | nil => rfl
  | cons r rs ih =>
      have hkept : better (some m) r = m := by
        simp [better, hok, hfail r List.mem_cons_self]
      change best (some (better (some m) r)) rs = some m
      rw [hkept]
      exact ih fun r' hr' => hfail r' (List.mem_cons_of_mem r hr')

/-- Failures alone leave the last of them. -/
theorem best_last (hfail : ∀ p, start = some p → p.ok = false) (hrs : ∀ r ∈ rs, r.ok = false) :
    best start rs = rs.getLast?.or start := by
  induction rs generalizing start with
  | nil => rfl
  | cons r rs ih =>
      have hr : better start r = r := by
        cases start with
        | none => rfl
        | some p => simp [better, hfail p rfl]
      change best (some (better start r)) rs = _
      rw [hr, ih (fun p hp => ?_) fun r' hr' => hrs r' (List.mem_cons_of_mem r hr')]
      · cases rs with
        | nil => rfl
        | cons r' rs => simp [List.getLast?_cons]
      · rw [Option.some.injEq] at hp
        rw [← hp]
        exact hrs r List.mem_cons_self

/-- The same results again change nothing. -/
theorem best_best : best (best start rs) rs = best start rs := by
  by_cases hok : ∃ r ∈ rs, r.ok = true
  · exact best_congr hok
  · have hrs : ∀ r ∈ rs, r.ok = false := by
      intro r hr
      rw [Bool.eq_false_iff]
      exact fun h => hok ⟨r, hr, h⟩
    by_cases hstart : ∃ p, start = some p ∧ p.ok = true
    · obtain ⟨p, rfl, hp⟩ := hstart
      rw [best_of_failures hrs hp, best_of_failures hrs hp]
    · have hfail : ∀ p, start = some p → p.ok = false := by
        intro p hp
        rw [Bool.eq_false_iff]
        exact fun h => hstart ⟨p, hp, h⟩
      have hlast := best_last hfail hrs
      have hagain : ∀ p, best start rs = some p → p.ok = false := by
        intro p hp
        rcases best_mem hp with hmem | hmem
        · exact hrs p hmem
        · exact hfail p hmem
      rw [best_last hagain hrs, hlast]
      cases rs.getLast? with
      | none => rfl
      | some r => rfl

end Best

section ByKey

def Keyed (m : ByCert) : Prop := ∀ k v, m.get? k = some v → v.key = k

variable {m : ByCert} {r : MintResult} {rs : List MintResult} {k : JsStr}

theorem keyed_empty : Keyed .empty := by
  intro k v h
  cases h

theorem Keyed.set (h : Keyed m) : Keyed (m.set r.key r) := by
  intro k v hv
  by_cases hk : k = r.key
  · subst hk
    rw [OrderedMap.get?_set_self, Option.some.injEq] at hv
    rw [hv]
  · rw [OrderedMap.get?_set_of_ne hk] at hv
    exact h k v hv

theorem mergeOne_cases (m : ByCert) (r : MintResult) :
    (∃ prev, m.get? r.key = some prev ∧ prev.ok = true ∧ r.ok = false ∧ mergeOne m r = m) ∨
      mergeOne m r = m.set r.key r := by
  unfold mergeOne
  cases hget : m.get? r.key with
  | none => exact .inr rfl
  | some prev =>
      cases hprev : prev.ok with
      | false => exact .inr (by simp [hprev])
      | true =>
          cases hr : r.ok with
          | true => exact .inr (by simp)
          | false => exact .inl ⟨prev, rfl, hprev, rfl, by simp [hprev]⟩

theorem Keyed.mergeOne (h : Keyed m) : Keyed (mergeOne m r) := by
  rcases mergeOne_cases m r with ⟨prev, -, -, -, heq⟩ | heq
  · rw [heq]
    exact h
  · rw [heq]
    exact h.set

theorem Keyed.foldl (h : Keyed m) : Keyed (rs.foldl MintReview.mergeOne m) := by
  induction rs generalizing m with
  | nil => exact h
  | cons r rs ih => exact ih h.mergeOne

theorem get?_mergeOne :
    (mergeOne m r).get? k = if r.key = k then some (better (m.get? k) r) else m.get? k := by
  by_cases hk : r.key = k
  · subst hk
    rw [if_pos rfl]
    rcases mergeOne_cases m r with ⟨prev, hget, hprev, hr, heq⟩ | heq
    · rw [heq, hget]
      simp [better, hprev, hr]
    · rw [heq, OrderedMap.get?_set_self]
      unfold mergeOne at heq
      cases hget : m.get? r.key with
      | none => rfl
      | some prev =>
          by_cases hkept : (prev.ok && !r.ok) = true
          · simp only [hget, hkept, if_true] at heq
            have hsame : some prev = some r := by
              rw [← hget, heq, OrderedMap.get?_set_self]
            rw [Option.some.injEq] at hsame
            simp [better, hsame]
          · simp [better, hkept]
  · rw [if_neg hk]
    have hne : k ≠ r.key := fun h => hk h.symm
    rcases mergeOne_cases m r with ⟨prev, -, -, -, heq⟩ | heq
    · rw [heq]
    · rw [heq, OrderedMap.get?_set_of_ne hne]

/-- A cert depends on its own results only. -/
theorem get?_foldl : (rs.foldl mergeOne m).get? k =
    best (m.get? k) (rs.filter fun r => decide (r.key = k)) := by
  induction rs generalizing m with
  | nil => rfl
  | cons r rs ih =>
      rw [List.foldl_cons, ih, get?_mergeOne]
      by_cases hk : r.key = k
      · rw [if_pos hk, List.filter_cons_of_pos (by simpa using hk)]
        rfl
      · rw [if_neg hk, List.filter_cons_of_neg (by simpa using hk)]

theorem keys_mergeOne (h : r.key ∈ m.keys) : (mergeOne m r).keys = m.keys := by
  rcases mergeOne_cases m r with ⟨prev, -, -, -, heq⟩ | heq
  · rw [heq]
  · rw [heq, OrderedMap.keys_set_of_mem h]

theorem keys_foldl (h : ∀ r ∈ rs, r.key ∈ m.keys) : (rs.foldl mergeOne m).keys = m.keys := by
  induction rs generalizing m with
  | nil => rfl
  | cons r rs ih =>
      have hkeys := keys_mergeOne (h r List.mem_cons_self)
      rw [List.foldl_cons, ih fun r' hr' => ?_, hkeys]
      rw [hkeys]
      exact h r' (List.mem_cons_of_mem r hr')

theorem mem_keys_foldl :
    k ∈ (rs.foldl mergeOne m).keys ↔ k ∈ m.keys ∨ ∃ r ∈ rs, r.key = k := by
  rw [OrderedMap.mem_keys_iff, OrderedMap.mem_keys_iff, get?_foldl]
  constructor
  · rintro ⟨v, hv⟩
    rcases best_mem hv with hmem | hstart
    · rw [List.mem_filter, decide_eq_true_eq] at hmem
      exact .inr ⟨v, hmem⟩
    · exact .inl ⟨v, hstart⟩
  · intro h
    rw [← Option.isSome_iff_exists]
    apply isSome_best
    rcases h with ⟨v, hv⟩ | ⟨r, hr, hk⟩
    · exact .inl (by rw [hv]; rfl)
    · refine .inr fun hnil => ?_
      have hmem : r ∈ rs.filter fun r => decide (r.key = k) :=
        List.mem_filter.2 ⟨hr, decide_eq_true hk⟩
      rw [hnil] at hmem
      cases hmem

/-- Merging the same results again leaves the map as it is. -/
theorem foldl_foldl : rs.foldl mergeOne (rs.foldl mergeOne m) = rs.foldl mergeOne m := by
  apply OrderedMap.ext_get?
  · apply keys_foldl
    intro r hr
    exact mem_keys_foldl.2 (.inr ⟨r, hr, rfl⟩)
  · intro k
    rw [get?_foldl, get?_foldl, best_best]

theorem map_key_values (h : Keyed m) : m.values.map MintResult.key = m.keys := by
  rw [OrderedMap.values, OrderedMap.keys, List.map_map]
  apply List.map_congr_left
  intro e he
  exact h e.1 e.2 (OrderedMap.get?_eq_some.2 he)

theorem mem_values (h : Keyed m) : r ∈ m.values ↔ m.get? r.key = some r := by
  rw [OrderedMap.values, List.mem_map]
  constructor
  · rintro ⟨e, he, rfl⟩
    have hget : m.get? e.1 = some e.2 := OrderedMap.get?_eq_some.2 he
    rw [h e.1 e.2 hget]
    exact hget
  · intro hget
    exact ⟨(r.key, r), OrderedMap.get?_eq_some.1 hget, rfl⟩

/-- Setting the entries of a list under keys that are new appends them. -/
theorem entries_setAll {es : List (JsStr × MintResult)} (hkeyed : ∀ e ∈ es, e.2.key = e.1)
    (hnodup : ((m.entries ++ es).map Prod.fst).Nodup) :
    (setAll m (es.map Prod.snd)).entries = m.entries ++ es := by
  induction es generalizing m with
  | nil => exact (List.append_nil _).symm
  | cons e es ih =>
      have hkey : e.2.key = e.1 := hkeyed e List.mem_cons_self
      have hset : (m.set e.2.key e.2).entries = m.entries ++ [e] := by
        rcases m.set_cases e.2.key e.2 with ⟨-, hset⟩ | ⟨front, w, back, hget, -, -⟩
        · rw [hset, hkey]
        · have hmem : (e.2.key, w) ∈ m.entries := OrderedMap.get?_eq_some.1 hget
          rw [List.map_append, List.nodup_append] at hnodup
          have hne := hnodup.2.2 e.1 (by rw [← hkey]; exact List.mem_map_of_mem hmem) e.1
            (List.mem_cons_self)
          exact absurd rfl hne
      change (setAll (m.set e.2.key e.2) (es.map Prod.snd)).entries = _
      rw [ih (fun e' he' => hkeyed e' (List.mem_cons_of_mem e he')) ?_, hset, List.append_assoc]
      · rfl
      · rw [hset, List.append_assoc]
        exact hnodup

/-- What was stored is read back. -/
theorem setAll_values (h : Keyed m) : setAll .empty m.values = m := by
  have hentries : (setAll .empty m.values).entries = m.entries :=
    entries_setAll (fun e he => h e.1 e.2 (OrderedMap.get?_eq_some.2 he)) m.nodup
  cases hset : setAll .empty m.values with
  | mk entries nodup =>
      cases m with
      | mk entries' nodup' =>
          rw [hset] at hentries
          change entries = entries' at hentries
          subst hentries
          rfl

theorem mergeVaultedMintResults_values (h : Keyed m) :
    mergeVaultedMintResults m.values rs = (rs.foldl mergeOne m).values := by
  rw [mergeVaultedMintResults, setAll_values h]

end ByKey

section Runs

variable {review : VaultPsaVaultedReview} {m : ByCert} {calls : List Call} {input : Outcome}

theorem union_union {previous : Option (List JsStr)} {next : List (Option JsStr)} :
    union (some (union previous next)) next = union previous next :=
  eraseDups_append_of_subset (List.subset_append_right _ _)

theorem anyOk_iff {rs : List MintResult} : anyOk rs = true ↔ ∃ r ∈ rs, r.ok = true := List.any_eq_true

theorem anyFail_iff {rs : List MintResult} : anyFail rs = false ↔ ∀ r ∈ rs, r.ok = true := by
  simp [anyFail]

theorem statusOf_eq_minted {rs : List MintResult} :
    statusOf rs = .minted ↔ ∃ r ∈ rs, r.ok = true := by
  rw [← anyOk_iff, statusOf]
  cases anyOk rs <;> cases anyFail rs <;> simp

/-- Without an entry the summary is `mint failed`. -/
theorem errorSummaryOf_eq_none {rs : List MintResult} :
    errorSummaryOf rs = none ↔ rs ≠ [] ∧ ∀ r ∈ rs, r.ok = true := by
  have hnone : errorSummaryOf rs = none ↔ anyOk rs = true ∧ anyFail rs = false := by
    rw [errorSummaryOf]
    cases anyOk rs <;> cases anyFail rs <;> simp
  rw [hnone, anyOk_iff, anyFail_iff]
  constructor
  · rintro ⟨⟨r, hr, -⟩, hall⟩
    exact ⟨List.ne_nil_of_mem hr, hall⟩
  · rintro ⟨hne, hall⟩
    obtain ⟨r, hr⟩ := List.exists_mem_of_ne_nil rs hne
    exact ⟨⟨r, hr, hall r hr⟩, hall⟩

theorem mintResults_run (hkeyed : Keyed m) (h : review.mintResults = some m.values) (c : Call) :
    (c.run review).mintResults = some (c.results.foldl mergeOne m).values := by
  cases c with
  | record input now =>
      have hmerged : mergeVaultedMintResults m.values input.results = _ :=
        mergeVaultedMintResults_values hkeyed
      change some (mergeVaultedMintResults (review.mintResults.getD []) input.results) = _
      rw [h, Option.getD_some, hmerged]
      rfl
  | dismiss now =>
      change ((dismissPsaVaultedReview (some review) now).toOption.getD review).mintResults = _
      rw [dismissPsaVaultedReview]
      by_cases hstatus : review.status ≠ .pending ∧ review.status ≠ .failed
      · rw [if_pos hstatus]
        exact h
      · rw [if_neg hstatus]
        exact h

/-- The stored list is the merge of all results that were recorded. -/
theorem mintResults_play (hkeyed : Keyed m) (h : review.mintResults = some m.values) :
    (play review calls).mintResults =
      some ((calls.flatMap Call.results).foldl mergeOne m).values := by
  induction calls generalizing review m with
  | nil => exact h
  | cons c calls ih =>
      have hstep := mintResults_run hkeyed h c
      have hnext : Keyed (c.results.foldl mergeOne m) := hkeyed.foldl
      have hrun := ih hnext hstep
      rw [List.flatMap_cons, List.foldl_append]
      exact hrun

theorem play_append {more : List Call} : play review (calls ++ more) = play (play review calls) more :=
  List.foldl_append

/-- Results that are recorded again only move the time of the review and say by which way they came
last. -/
theorem recorded_recorded (hkeyed : Keyed m) (h : review.mintResults = some m.values)
    (via : MintedVia) (now later : ℕ) :
    recorded (recorded review input now) ⟨via, input.results⟩ later =
      { recorded review input now with mintedVia := some via, reviewedAt := some later } := by
  have hfirst : mergeVaultedMintResults (review.mintResults.getD []) input.results =
      (input.results.foldl mergeOne m).values := by
    rw [h, Option.getD_some, mergeVaultedMintResults_values hkeyed]
  have hsecond : mergeVaultedMintResults (input.results.foldl mergeOne m).values input.results =
      (input.results.foldl mergeOne m).values := by
    rw [mergeVaultedMintResults_values hkeyed.foldl, foldl_foldl]
  simp only [recorded, hfirst, Option.getD_some, hsecond, union_union]

/-- After every recording each cert that was ever recorded has one entry, which is a success once one
was recorded, and the status and the summary follow the entries. -/
theorem mint_results_merge (id : JsStr) (items : List (JsStr × JsStr)) (calls : List Call)
    (input : Outcome) (via : MintedVia) (now later : ℕ) :
    let queued := enqueuePsaVaultedReview id items
    let after := play queued (calls ++ [.record input now])
    let results := (calls ++ [Call.record input now]).flatMap Call.results
    ∃ merged, after.mintResults = some merged ∧
      (merged.map MintResult.key).Nodup ∧
      (∀ k, k ∈ merged.map MintResult.key ↔ ∃ r ∈ results, r.key = k) ∧
      (∀ r ∈ merged, r ∈ results) ∧
      (∀ r ∈ results, r.ok = true → ∃ e ∈ merged, e.key = r.key ∧ e.ok = true) ∧
      (after.status = .minted ↔ ∃ r ∈ merged, r.ok = true) ∧
      (after.errorSummary = none ↔ merged ≠ [] ∧ ∀ r ∈ merged, r.ok = true) ∧
      play queued (calls ++ [.record input now, .record ⟨via, input.results⟩ later]) =
        { after with mintedVia := some via, reviewedAt := some later } := by
  intro queued after results
  have hafter : after = recorded (play queued calls) input now := play_append
  have hstored : after.mintResults = some (results.foldl mergeOne .empty).values :=
    mintResults_play keyed_empty rfl
  have hbefore : (play queued calls).mintResults =
      some ((calls.flatMap Call.results).foldl mergeOne .empty).values :=
    mintResults_play keyed_empty rfl
  have hkeyed : Keyed (results.foldl mergeOne .empty) := keyed_empty.foldl
  have hmerged : some (mergeVaultedMintResults ((play queued calls).mintResults.getD [])
      input.results) = some (results.foldl mergeOne .empty).values := by
    rw [← hstored, hafter]
    rfl
  rw [Option.some.injEq] at hmerged
  refine ⟨_, hstored, ?_, fun k => ?_, fun r hr => ?_, fun r hr hok => ?_, ?_, ?_, ?_⟩
  · rw [map_key_values hkeyed]
    exact (results.foldl mergeOne .empty).nodup
  · rw [map_key_values hkeyed, mem_keys_foldl]
    simp [OrderedMap.keys, OrderedMap.empty]
  · rw [mem_values hkeyed, get?_foldl] at hr
    rcases best_mem hr with hmem | hnone
    · exact (List.mem_filter.1 hmem).1
    · cases hnone
  · have hmem : r ∈ results.filter fun e => decide (e.key = r.key) :=
      List.mem_filter.2 ⟨hr, decide_eq_true rfl⟩
    obtain ⟨e, he, heok⟩ : ∃ e, best none _ = some e ∧ e.ok = true := ok_best (.inl ⟨r, hmem, hok⟩)
    have hget : (results.foldl mergeOne .empty).get? r.key = some e := by
      rw [get?_foldl]
      exact he
    have hkey : e.key = r.key := hkeyed r.key e hget
    refine ⟨e, ?_, hkey, heok⟩
    rw [mem_values hkeyed, hkey]
    exact hget
  · rw [hafter, ← hmerged]
    exact statusOf_eq_minted
  · rw [hafter, ← hmerged]
    exact errorSummaryOf_eq_none
  · have hreplay : play queued (calls ++ [.record input now, .record ⟨via, input.results⟩ later]) =
        recorded (recorded (play queued calls) input now) ⟨via, input.results⟩ later := play_append
    rw [hreplay, hafter]
    exact recorded_recorded keyed_empty.foldl hbefore via now later

/-- A recording without results leaves no failed entry and still has a summary. -/
theorem empty_recording_has_summary :
    let after := play (enqueuePsaVaultedReview (js "r") []) [.record ⟨.admin, []⟩ 0]
    ¬ (after.errorSummary = none ↔ ∀ r ∈ after.mintResults.getD [], r.ok = true) := by
  intro after h
  have hnone : after.errorSummary = none := h.2 fun r hr => absurd hr List.not_mem_nil
  cases hnone

end Runs

end MintReview
