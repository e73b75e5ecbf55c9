import Mathlib.Data.List.Nodup
import Mathlib.Data.Rat.Floor
import Tokenable.Async.RelyGuarantee
import Tokenable.Js.Hex

/-!
# The public ids of one day's submissions

Concurrent creations of vault submissions on one day. Each is a transaction that takes the advisory
lock of the day, reads the last id of the day, inserts the next one and its items, and commits or
rolls back; the lock is given back when the transaction ends. Every statement may fail.

The order of texts in the database and `Number` are parameters.
-/

namespace SubmissionIds
open Async Js

/-- The collation of the database, and `Number(text)` when it is finite. -/
structure Runtime where
  le : JsStr → JsStr → Bool
  le_digits : ∀ front a b, isDigits a = true → isDigits b = true → a.length = b.length →
    (le (front ++ a) (front ++ b) = true ↔ toNat a ≤ toNat b)
  number : JsStr → Option ℚ
  number_digits : ∀ ds, isDigits ds = true → ds.length ≤ 15 → number ds = some (toNat ds : ℚ)

structure CalendarDate where
  year : ℕ
  month : ℕ
  day : ℕ

def CalendarDate.stamp (now : CalendarDate) : JsStr :=
  ofNat now.year ++ padStart 2 '0' (ofNat now.month) ++ padStart 2 '0' (ofNat now.day)

/-- ``SUB-${y}${m}${day}-`` -/
def dayStart (now : CalendarDate) : JsStr := js "SUB-" ++ now.stamp ++ js "-"

def publicId (start : JsStr) (n : ℕ) : JsStr := start ++ padStart 5 '0' (ofNat n)

structure State where
  /-- The ids that were there before. -/
  existing : List JsStr
  /-- The tasks that have committed, with their ids. -/
  created : List (ℕ × JsStr) := []
  /-- The inserts of open transactions. -/
  staged : List (ℕ × JsStr) := []
  holder : Option ℕ := none
  /-- Each id that was inserted, with the ids that were committed then. -/
  assigned : List (JsStr × List JsStr) := []

def State.ids (s : State) : List JsStr := s.existing ++ s.created.map Prod.snd

inductive Failure where
  | database
  | uniqueViolation
  | exhausted
  deriving DecidableEq

inductive Cmd where
  | advisoryLock
  | lastPublicId (start : JsStr)
  | insertSubmission (publicId : JsStr)
  | saveItems
  | commit
  | rollback

abbrev Ans : Cmd → Type
  | .lastPublicId _ => Option JsStr
  | _ => Unit

abbrev Res (c : Cmd) : Type := Except Failure (Ans c)

variable (S : Runtime)

/-- `ORDER BY public_id DESC LIMIT 1` -/
def lastOf : List JsStr → Option JsStr
  | [] => none
  | id :: ids =>
    match lastOf ids with
    | none => some id
    | some best => if S.le best id then some id else some best

def State.close (s : State) (i : ℕ) : State :=
  { s with
    staged := s.staged.filter fun p => p.1 ≠ i
    holder := if s.holder = some i then none else s.holder }

/-- What a statement that does not fail does; `none` makes it wait. -/
def Cmd.effect (i : ℕ) (s : State) : (c : Cmd) → Option (Res c × State)
  | .advisoryLock => if s.holder = none then some (.ok (), { s with holder := some i }) else none
  | .lastPublicId start =>
    some (.ok (lastOf S (s.ids.filter fun id => start.isPrefixOf id)), s)
  | .insertSubmission id =>
    -- the unique index waits for an open transaction that has inserted the same id
    if (s.staged.any fun p => p.1 ≠ i && p.2 = id) = true then none
    else if id ∈ s.ids then some (.error .uniqueViolation, s)
    else some (.ok (), { s with
      staged := s.staged ++ [(i, id)], assigned := s.assigned ++ [(id, s.ids)] })
  | .saveItems => some (.ok (), s)
  | .commit =>
    let mine := s.staged.filter fun p => p.1 = i
    some (.ok (), ({ s with created := s.created ++ mine } : State).close i)
  | .rollback => some (.ok (), s.close i)

/-- Every statement may fail; the end of a failed transaction does not. -/
def exec : Handler State Bool Cmd Res
  | i, s, true, c => c.effect S i s
  | i, s, false, .rollback => some (.ok (), s.close i)
  | _, s, false, _ => some (.error .database, s)

abbrev M := Prog Cmd Res Failure

def perform (c : Cmd) : M (Ans c) := .call c .ret

/-- The number after that of the last id of the day. -/
def nextNumber (start : JsStr) (last : Option JsStr) : ℕ :=
  match last.map trim with
  | none => 1
  | some last =>
    if start.isPrefixOf last then
      match S.number (last.drop start.length) with
      | some n => if 0 ≤ n then ⌊n⌋.toNat + 1 else 1
      | none => 1
    else 1

def nextDailyPublicId (now : CalendarDate) : M JsStr := do
  perform .advisoryLock
  let last ← perform (.lastPublicId (dayStart now))
  let next := nextNumber S (dayStart now) last
  if next > 99999 then .ret (.error .exhausted) else pure (publicId (dayStart now) next)

/-- `manager.transaction(body)` -/
def transaction (body : M JsStr) : M JsStr :=
  body.settle fun r => match r with
    | .ok id => (perform .commit).settle fun done => match done with
      | .ok _ => .ret (.ok id)
      | .error e => (perform .rollback).settle fun _ => .ret (.error e)
    | .error e => (perform .rollback).settle fun _ => .ret (.error e)

def createSubmission (now : CalendarDate) : M JsStr :=
  transaction do
    let id ← nextDailyPublicId S now
    perform (.insertSubmission id)
    perform .saveItems
    pure id

section Numbers
variable {S} {start : JsStr}

def Formed (start : JsStr) (ids : List JsStr) : Prop :=
  ∀ id ∈ ids, start.isPrefixOf id → ∃ n ≤ 99999, id = publicId start n

def IsNext (start : JsStr) (ids : List JsStr) (id : JsStr) : Prop :=
  ∃ n < 99999, id = publicId start (n + 1) ∧ (n = 0 ∨ publicId start n ∈ ids) ∧
    ∀ k ≤ 99999, publicId start k ∈ ids → k ≤ n

theorem isDigits_padded (n : ℕ) : isDigits (padStart 5 '0' (ofNat n)) = true := by
  have hdigits := isDigits_ofNat n
  unfold isDigits at hdigits ⊢
  rw [Bool.and_eq_true, List.all_eq_true] at hdigits ⊢
  refine ⟨?_, fun c hc => ?_⟩
  · cases hpad : padStart 5 '0' (ofNat n) with
    | cons c s => rfl
    | nil =>
      unfold padStart List.leftpad at hpad
      rw [(List.append_eq_nil_iff.mp hpad).2] at hdigits
      exact hdigits.1
  · rcases List.mem_append.mp hc with hc | hc
    · rw [List.eq_of_mem_replicate hc]
      rfl
    · exact hdigits.2 c hc

theorem toNat_replicate_zero (k : ℕ) (s : JsStr) : toNat (List.replicate k '0' ++ s) = toNat s := by
  induction k with
  | zero => rfl
  | succ k ih =>
    rw [List.replicate_succ, List.cons_append]
    exact ih

theorem toNat_padded (n : ℕ) : toNat (padStart 5 '0' (ofNat n)) = n := by
  unfold padStart List.leftpad
  rw [toNat_replicate_zero, toNat_ofNat]

theorem length_padded {n : ℕ} (h : n ≤ 99999) : (padStart 5 '0' (ofNat n)).length = 5 := by
  apply length_padStart
  exact (Nat.length_toDigits_le_iff (by omega) (by omega)).2 (by omega)

theorem publicId_inj {m n : ℕ} (h : publicId start m = publicId start n) : m = n := by
  have hpad := List.append_cancel_left h
  rw [← toNat_padded m, hpad, toNat_padded]

theorem isPrefixOf_publicId (start : JsStr) (n : ℕ) : start.isPrefixOf (publicId start n) = true :=
  List.isPrefixOf_iff_prefix.mpr ⟨_, rfl⟩

theorem le_publicId {m n : ℕ} (hm : m ≤ 99999) (hn : n ≤ 99999) :
    S.le (publicId start m) (publicId start n) = true ↔ m ≤ n := by
  have hdigits := S.le_digits start _ _ (isDigits_padded m) (isDigits_padded n)
    ((length_padded hm).trans (length_padded hn).symm)
  rw [toNat_padded, toNat_padded] at hdigits
  exact hdigits

/-- The last of the ids of the day is that of the greatest number. -/
theorem lastOf_spec {ids : List JsStr} (h : ∀ id ∈ ids, ∃ n ≤ 99999, id = publicId start n) :
    (lastOf S ids = none ∧ ids = []) ∨ ∃ n ≤ 99999, lastOf S ids = some (publicId start n) ∧
      publicId start n ∈ ids ∧ ∀ k ≤ 99999, publicId start k ∈ ids → k ≤ n := by
  induction ids with
  | nil => exact .inl ⟨rfl, rfl⟩
  | cons id ids ih =>
    right
    obtain ⟨m, hm, rfl⟩ := h id List.mem_cons_self
    rw [lastOf]
    rcases ih fun id hid => h id (List.mem_cons_of_mem _ hid) with ⟨hlast, rfl⟩ | ⟨n, hn, hlast, hmem, hmax⟩
    · rw [hlast]
      refine ⟨m, hm, rfl, List.mem_cons_self, fun k _ hk => ?_⟩
      exact Nat.le_of_eq (publicId_inj (List.mem_singleton.mp hk))
    · rw [hlast]
      dsimp only
      by_cases hle : S.le (publicId start n) (publicId start m) = true
      · rw [if_pos hle]
        rw [le_publicId hn hm] at hle
        refine ⟨m, hm, rfl, List.mem_cons_self, fun k hk hk' => ?_⟩
        rcases List.mem_cons.mp hk' with heq | hrest
        · exact Nat.le_of_eq (publicId_inj heq)
        · exact (hmax k hk hrest).trans hle
      · rw [if_neg hle]
        rw [le_publicId hn hm] at hle
        refine ⟨n, hn, rfl, List.mem_cons_of_mem _ hmem, fun k hk hk' => ?_⟩
        rcases List.mem_cons.mp hk' with heq | hrest
        · have hkm := publicId_inj heq
          omega
        · exact hmax k hk hrest

theorem not_isSpace_padStart {width n : ℕ} :
    ∀ c ∈ padStart width '0' (ofNat n), isSpace c = false := by
  intro c hc
  have hdigits := isDigits_ofNat n
  rw [isDigits, Bool.and_eq_true, List.all_eq_true] at hdigits
  apply not_isSpace_of_isDigit
  rcases List.mem_append.mp hc with hc | hc
  · rw [List.eq_of_mem_replicate hc]
    rfl
  · exact hdigits.2 c hc

theorem not_isSpace_dayStart (now : CalendarDate) : ∀ c ∈ dayStart now, isSpace c = false := by
  intro c hc
  have hyear := isDigits_ofNat now.year
  rw [isDigits, Bool.and_eq_true, List.all_eq_true] at hyear
  have hstem : (js "SUB-").all (fun c => !isSpace c) = true := by decide +kernel
  have hdash : (js "-").all (fun c => !isSpace c) = true := by decide +kernel
  simp only [List.all_eq_true, Bool.not_eq_true'] at hstem hdash
  simp only [dayStart, CalendarDate.stamp, List.mem_append] at hc
  rcases hc with (hc | (hc | hc) | hc) | hc
  · exact hstem c hc
  · exact not_isSpace_of_isDigit (hyear.2 c hc)
  · exact not_isSpace_padStart c hc
  · exact not_isSpace_padStart c hc
  · exact hdash c hc

/-- The number that is read off the last id is the one after it. -/
theorem nextNumber_publicId (hstart : ∀ c ∈ start, isSpace c = false) {n : ℕ} (hn : n ≤ 99999) :
    nextNumber S start (some (publicId start n)) = n + 1 := by
  have htrim : trim (publicId start n) = publicId start n := by
    apply trim_eq_self
    intro c hc
    rcases List.mem_append.mp hc with hc | hc
    · exact hstart c hc
    · exact not_isSpace_padStart c hc
  have hdrop : (publicId start n).drop start.length = padStart 5 '0' (ofNat n) :=
    List.drop_left
  have hnumber : S.number (padStart 5 '0' (ofNat n)) = some (n : ℚ) := by
    rw [S.number_digits _ (isDigits_padded n) (by rw [length_padded hn]; omega), toNat_padded]
  unfold nextNumber
  rw [Option.map_some, htrim]
  dsimp only
  rw [if_pos (isPrefixOf_publicId start n), hdrop, hnumber]
  dsimp only
  rw [if_pos (Nat.cast_nonneg n), Int.floor_natCast, Int.toNat_natCast]

/-- The number that is assigned is the next one, unless the last number of the day is used. -/
theorem nextNumber_spec {ids : List JsStr} (hstart : ∀ c ∈ start, isSpace c = false)
    (hformed : Formed start ids) :
    let next := nextNumber S start (lastOf S (ids.filter fun id => start.isPrefixOf id))
    (99999 < next ∧ publicId start 99999 ∈ ids) ∨
      next ≤ 99999 ∧ IsNext start ids (publicId start next) := by
  have hday : ∀ id ∈ ids.filter fun id => start.isPrefixOf id, ∃ n ≤ 99999, id = publicId start n := by
    intro id hid
    rw [List.mem_filter] at hid
    exact hformed id hid.1 hid.2
  have hmem : ∀ k, publicId start k ∈ ids →
      publicId start k ∈ ids.filter fun id => start.isPrefixOf id :=
    fun k hk => List.mem_filter.mpr ⟨hk, isPrefixOf_publicId start k⟩
  dsimp only
  rcases lastOf_spec (S := S) hday with ⟨hlast, hnil⟩ | ⟨n, hn, hlast, hn', hmax⟩
  · rw [hlast]
    right
    refine ⟨Nat.le_of_ble_eq_true rfl, 0, by omega, rfl, .inl rfl, fun k _ hk => ?_⟩
    have hnone := hmem k hk
    rw [hnil] at hnone
    cases hnone
  · rw [hlast, nextNumber_publicId hstart hn]
    by_cases h : n = 99999
    · left
      rw [h] at hn'
      exact ⟨by omega, (List.mem_filter.mp hn').1⟩
    · right
      refine ⟨by omega, n, by omega, rfl, .inr (List.mem_filter.mp hn').1, fun k hk hk' => ?_⟩
      exact hmax k hk (hmem k hk')

theorem IsNext.notMem {ids : List JsStr} {id : JsStr} (h : IsNext start ids id) : id ∉ ids := by
  obtain ⟨n, hn, rfl, -, hmax⟩ := h
  intro hmem
  have hle := hmax (n + 1) (by omega) hmem
  omega

theorem IsNext.formed {ids : List JsStr} {id : JsStr} (h : IsNext start ids id) :
    ∃ n ≤ 99999, id = publicId start n := by
  obtain ⟨n, hn, rfl, -, -⟩ := h
  exact ⟨n + 1, by omega, rfl⟩

end Numbers

section Contract
variable (start : JsStr)

/-- Only the task that holds the lock has an open insert, and what is committed is well formed. -/
structure Inv (s : State) : Prop where
  nodup : s.ids.Nodup
  formed : Formed start s.ids
  staged : ∀ p ∈ s.staged, s.holder = some p.1
  next : ∀ a ∈ s.assigned, IsNext start a.2 a.1
  recorded : ∀ p ∈ s.created, ∃ ids, (p.2, ids) ∈ s.assigned

/-- What the steps of the others leave to task `i`. -/
structure Rely (i : ℕ) (s t : State) : Prop where
  held : s.holder = some i → t.holder = some i ∧ t.staged = s.staged ∧ t.ids = s.ids
  free : s.holder ≠ some i → t.holder ≠ some i
  created : s.created ⊆ t.created
  existing : t.existing = s.existing
  assigned : s.assigned ⊆ t.assigned

theorem Rely.refl (i : ℕ) (s : State) : Rely i s s :=
  ⟨fun h => ⟨h, rfl, rfl⟩, id, List.Subset.refl _, rfl, List.Subset.refl _⟩

def contract : Contract State where
  inv := Inv start
  guar j s t := ∀ i, i ≠ j → Rely i s t
  rely := Rely
  rely_refl := Rely.refl
  rely_trans _ _ _ _ hst htu :=
    { held := fun h => by
        obtain ⟨ht, hstaged, hids⟩ := hst.held h
        obtain ⟨hu, hstaged', hids'⟩ := htu.held ht
        exact ⟨hu, hstaged'.trans hstaged, hids'.trans hids⟩
      free := fun h => htu.free (hst.free h)
      created := List.Subset.trans hst.created htu.created
      existing := htu.existing.trans hst.existing
      assigned := List.Subset.trans hst.assigned htu.assigned }
  rely_of_guar i _ _ _ hij h := h i hij

end Contract

section Steps
variable {S} {start : JsStr} {i : ℕ} {s t : State}

theorem Rely.ids_subset (h : Rely i s t) : s.ids ⊆ t.ids := by
  unfold State.ids
  rw [h.existing]
  intro id hid
  rcases List.mem_append.mp hid with hid | hid
  · exact List.mem_append_left _ hid
  · exact List.mem_append_right _ (List.map_subset _ h.created hid)

theorem Inv.close (h : Inv start s) : Inv start (s.close i) where
  nodup := h.nodup
  formed := h.formed
  staged p hp := by
    obtain ⟨hmem, hne⟩ := List.mem_filter.mp hp
    have hholder := h.staged p hmem
    have hnot : ¬ s.holder = some i := by
      rw [hholder, Option.some.injEq]
      exact of_decide_eq_true hne
    exact (if_neg hnot).trans hholder
  next := h.next
  recorded := h.recorded

theorem Inv.rely_close (h : Inv start s) {j : ℕ} (hji : j ≠ i) : Rely j s (s.close i) where
  held hj := by
    have hnot : ¬ s.holder = some i := by
      rw [hj, Option.some.injEq]
      exact hji
    refine ⟨(if_neg hnot).trans hj, List.filter_eq_self.mpr fun p hp => ?_, rfl⟩
    have hp' := h.staged p hp
    rw [hj, Option.some.injEq] at hp'
    rw [← hp']
    exact decide_eq_true hji
  free hj := by
    change (if s.holder = some i then none else s.holder) ≠ some j
    split_ifs
    · exact fun h => by cases h
    · exact hj
  created := List.Subset.refl _
  existing := rfl
  assigned := List.Subset.refl _

/-- A statement of a task: it fails and changes nothing, or it has its effect. -/
theorem wp_perform {c : Cmd} {Q : Except Failure (Ans c) → State → Prop} {P : State → Prop}
    (hc : c ≠ .rollback) (hP : (contract start).Stable i P) (hs : P s)
    (hfail : ∀ t, P t → Q (.error .database) t)
    (heffect : ∀ t r u, P t → Inv start t → c.effect S i t = some (r, u) →
      Inv start u ∧ (∀ j, j ≠ i → Rely j t u) ∧ Q r u) :
    wp (exec S) anyStep (contract start) i (perform c) Q s := by
  refine wp_call P hP hs fun t ht hinv _ x r u hu => ?_
  cases x with
  | true => exact heffect t r u ht hinv hu
  | false =>
    have hsame : (Except.error Failure.database, t) = (r, u) := by
      cases c with
      | rollback => exact absurd rfl hc
      | _ => exact Option.some.inj hu
    obtain ⟨rfl, rfl⟩ := Prod.mk.inj hsame
    exact ⟨hinv, fun j _ => Rely.refl j t, hfail t ht⟩

theorem wp_rollback {Q : Except Failure Unit → State → Prop} {P : State → Prop}
    (hP : (contract start).Stable i P) (hs : P s) (hQ : ∀ t, P t → Q (.ok ()) (t.close i)) :
    wp (exec S) anyStep (contract start) i (perform .rollback) Q s := by
  refine wp_call P hP hs fun t ht hinv _ x r u hu => ?_
  have hclose : (Except.ok (), t.close i) = (r, u) := by
    cases x <;> exact Option.some.inj hu
  obtain ⟨rfl, rfl⟩ := Prod.mk.inj hclose
  exact ⟨hinv.close, fun j hji => hinv.rely_close hji, hQ t ht⟩

def Free (i : ℕ) (s : State) : Prop := s.holder ≠ some i

def Held (i : ℕ) (ids : List JsStr) (s : State) : Prop :=
  s.holder = some i ∧ s.staged = [] ∧ s.ids = ids

def Inserted (i : ℕ) (ids : List JsStr) (id : JsStr) (s : State) : Prop :=
  s.holder = some i ∧ s.staged = [(i, id)] ∧ s.ids = ids ∧ (id, ids) ∈ s.assigned

def Failed (start : JsStr) (e : Failure) (s : State) : Prop :=
  e = .database ∨ e = .exhausted ∧ publicId start 99999 ∈ s.ids

theorem free_stable : (contract start).Stable i (Free i) := fun _ _ hst _ h => hst.free h

theorem held_stable {ids : List JsStr} : (contract start).Stable i (Held i ids) := by
  rintro s t hst - ⟨hholder, hstaged, hids⟩
  obtain ⟨hholder', hstaged', hids'⟩ := hst.held hholder
  exact ⟨hholder', hstaged'.trans hstaged, hids'.trans hids⟩

theorem inserted_stable {ids : List JsStr} {id : JsStr} :
    (contract start).Stable i (Inserted i ids id) := by
  rintro s t hst - ⟨hholder, hstaged, hids, hassigned⟩
  obtain ⟨hholder', hstaged', hids'⟩ := hst.held hholder
  exact ⟨hholder', hstaged'.trans hstaged, hids'.trans hids, hst.assigned hassigned⟩

theorem Failed.rely {e : Failure} (hst : Rely i s t) (h : Failed start e s) : Failed start e t := by
  rcases h with h | ⟨he, hmem⟩
  · exact .inl h
  · exact .inr ⟨he, hst.ids_subset hmem⟩

theorem failed_stable {e : Failure} : (contract start).Stable i (Failed start e) :=
  fun _ _ hst _ h => h.rely hst

theorem wp_advisoryLock (hs : Free i s) :
    wp (exec S) anyStep (contract start) i (perform .advisoryLock) (fun r u => match r with
      | .ok _ => ∃ ids, Held i ids u
      | .error e => Failed start e u) s := by
  refine wp_perform (fun h => by cases h) free_stable hs (fun _ _ => .inl rfl) ?_
  intro t r u ht hinv hu
  have hfree : t.holder = none := by
    by_contra hne
    rw [Cmd.effect, if_neg hne] at hu
    cases hu
  rw [Cmd.effect, if_pos hfree, Option.some.injEq] at hu
  obtain ⟨rfl, rfl⟩ := Prod.mk.inj hu
  have hstaged : t.staged = [] := by
    apply List.eq_nil_iff_forall_not_mem.mpr
    intro p hp
    have hholder := hinv.staged p hp
    rw [hfree] at hholder
    cases hholder
  refine ⟨?_, fun j hji => ?_, t.ids, rfl, hstaged, rfl⟩
  · refine ⟨hinv.nodup, hinv.formed, fun p hp => ?_, hinv.next, hinv.recorded⟩
    rw [hstaged] at hp
    cases hp
  · refine ⟨fun hj => ?_, fun _ hj => ?_, List.Subset.refl _, rfl, List.Subset.refl _⟩
    · rw [hfree] at hj
      cases hj
    · exact hji (Option.some.inj hj).symm

theorem wp_nextDailyPublicId (now : CalendarDate) (hs : Free i s) :
    wp (exec S) anyStep (contract (dayStart now)) i (nextDailyPublicId S now) (fun r u =>
      match r with
      | .ok id => ∃ ids, Held i ids u ∧ IsNext (dayStart now) ids id
      | .error e => Failed (dayStart now) e u) s := by
  unfold nextDailyPublicId
  refine wp_bind (wp_mono ?_ (wp_advisoryLock hs))
  rintro (e | _) v hv
  · exact hv
  · obtain ⟨ids, hheld⟩ := hv
    refine wp_bind (wp_perform (fun h => by cases h) held_stable hheld (fun _ _ => .inl rfl) ?_)
    intro t r u ht hinv hu
    rw [Cmd.effect, Option.some.injEq] at hu
    obtain ⟨rfl, rfl⟩ := Prod.mk.inj hu
    refine ⟨hinv, fun j _ => Rely.refl j t, ?_⟩
    have hspec := nextNumber_spec (S := S) (not_isSpace_dayStart now) hinv.formed
    dsimp only at hspec ⊢
    rcases hspec with ⟨hlarge, hlast⟩ | ⟨hle, hnext⟩
    · rw [if_pos hlarge]
      exact wp_ret (.inr ⟨rfl, hlast⟩)
    · rw [if_neg (Nat.not_lt.mpr hle)]
      refine wp_ret ⟨ids, ht, ?_⟩
      rw [← ht.2.2]
      exact hnext

theorem wp_insertSubmission {ids : List JsStr} {id : JsStr} (hs : Held i ids s)
    (hnext : IsNext start ids id) :
    wp (exec S) anyStep (contract start) i (perform (.insertSubmission id)) (fun r u => match r with
      | .ok _ => Inserted i ids id u
      | .error e => Failed start e u) s := by
  refine wp_perform (fun h => by cases h) held_stable hs (fun _ _ => .inl rfl) ?_
  rintro t r u ⟨hholder, hstaged, hids⟩ hinv hu
  have hwaits : ¬ (t.staged.any fun p => p.1 ≠ i && p.2 = id) = true := by
    rw [hstaged]
    exact Bool.false_ne_true
  have hnew : ¬ id ∈ t.ids := by
    rw [hids]
    exact hnext.notMem
  rw [Cmd.effect, if_neg hwaits, if_neg hnew, Option.some.injEq] at hu
  obtain ⟨rfl, rfl⟩ := Prod.mk.inj hu
  refine ⟨⟨hinv.nodup, hinv.formed, fun p hp => ?_, fun a ha => ?_, fun p hp => ?_⟩,
    fun j hji => ⟨fun hj => ?_, fun hj => hj, List.Subset.refl _, rfl, ?_⟩, hholder, ?_, hids, ?_⟩
  · rw [hstaged, List.nil_append, List.mem_singleton] at hp
    rw [hp]
    exact hholder
  · rcases List.mem_append.mp ha with ha | ha
    · exact hinv.next a ha
    · rw [List.mem_singleton.mp ha, hids]
      exact hnext
  · obtain ⟨before, hbefore⟩ := hinv.recorded p hp
    exact ⟨before, List.mem_append_left _ hbefore⟩
  · rw [hholder, Option.some.injEq] at hj
    exact absurd hj.symm hji
  · exact List.subset_append_left _ _
  · rw [hstaged]
    rfl
  · rw [hids]
    exact List.mem_append_right _ (List.mem_singleton.mpr rfl)

theorem wp_saveItems {ids : List JsStr} {id : JsStr} (hs : Inserted i ids id s) :
    wp (exec S) anyStep (contract start) i (perform .saveItems) (fun r u => match r with
      | .ok _ => Inserted i ids id u
      | .error e => Failed start e u) s := by
  refine wp_perform (fun h => by cases h) inserted_stable hs (fun _ _ => .inl rfl) ?_
  intro t r u ht hinv hu
  obtain ⟨rfl, rfl⟩ := Prod.mk.inj (Option.some.inj hu)
  exact ⟨hinv, fun j _ => Rely.refl j t, ht⟩

/-- The commit adds the id to the committed ones, which it follows. -/
theorem wp_commit {ids : List JsStr} {id : JsStr} (hs : Inserted i ids id s) :
    wp (exec S) anyStep (contract start) i (perform .commit) (fun r u => match r with
      | .ok _ => (i, id) ∈ u.created
      | .error e => Failed start e u) s := by
  refine wp_perform (fun h => by cases h) inserted_stable hs (fun _ _ => .inl rfl) ?_
  rintro t r u ⟨hholder, hstaged, hids, hassigned⟩ hinv hu
  obtain ⟨rfl, rfl⟩ := Prod.mk.inj (Option.some.inj hu)
  have hmine : (t.staged.filter fun p => p.1 = i) = [(i, id)] := by
    rw [hstaged, List.filter_cons_of_pos (by simp), List.filter_nil]
  have hnext : IsNext start t.ids id := by
    rw [hids]
    exact hinv.next _ hassigned
  rw [hmine]
  have hafter : State.ids { t with created := t.created ++ [(i, id)] } = t.ids ++ [id] := by
    unfold State.ids
    rw [List.map_append, ← List.append_assoc]
    rfl
  have hadded : Inv start { t with created := t.created ++ [(i, id)] } := by
    refine ⟨?_, fun a ha hday => ?_, hinv.staged, hinv.next, fun p hp => ?_⟩
    · rw [hafter]
      exact List.Nodup.append hinv.nodup (List.nodup_singleton id)
        (List.disjoint_singleton.mpr hnext.notMem)
    · rw [hafter] at ha
      rcases List.mem_append.mp ha with ha | ha
      · exact hinv.formed a ha hday
      · rw [List.mem_singleton.mp ha]
        exact hnext.formed
    · rcases List.mem_append.mp hp with hp | hp
      · exact hinv.recorded p hp
      · rw [List.mem_singleton.mp hp]
        exact ⟨ids, hassigned⟩
  refine ⟨hadded.close, fun j hji => ?_, List.mem_append_right _ (List.mem_singleton.mpr rfl)⟩
  have hclose := hadded.rely_close hji
  refine ⟨fun hj => ?_, hclose.free, List.subset_append_left _ _, rfl, List.Subset.refl _⟩
  rw [hholder, Option.some.injEq] at hj
  exact absurd hj.symm hji

def Outcome (start : JsStr) (i : ℕ) (r : Except Failure JsStr) (s : State) : Prop :=
  match r with
  | .ok id => (i, id) ∈ s.created
  | .error e => Failed start e s

theorem outcome_stable : (contract start).StablePost (Outcome start) := by
  intro i r s t hst h
  cases r with
  | ok id => exact hst.created h
  | error e => exact h.rely hst

theorem wp_abort {e : Failure} (hs : Failed start e s) :
    wp (exec S) anyStep (contract start) i
      ((perform .rollback).settle fun _ => (.ret (.error e) : M JsStr)) (Outcome start i) s :=
  wp_settle (wp_rollback failed_stable hs fun _ ht => ht)

theorem wp_createSubmission (now : CalendarDate) (hs : Free i s) :
    wp (exec S) anyStep (contract (dayStart now)) i (createSubmission S now)
      (Outcome (dayStart now) i) s := by
  have hbody : wp (exec S) anyStep (contract (dayStart now)) i (do
      let id ← nextDailyPublicId S now
      perform (.insertSubmission id)
      perform .saveItems
      pure id) (fun r u => match r with
        | .ok id => ∃ ids, Inserted i ids id u
        | .error e => Failed (dayStart now) e u) s := by
    refine wp_bind (wp_mono ?_ (wp_nextDailyPublicId now hs))
    rintro (e | id) v hv
    · exact hv
    · obtain ⟨ids, hheld, hnext⟩ := hv
      refine wp_bind (wp_mono ?_ (wp_insertSubmission hheld hnext))
      rintro (e | _) v' hv'
      · exact hv'
      · refine wp_bind (wp_mono ?_ (wp_saveItems hv'))
        rintro (e | _) v'' hv''
        · exact hv''
        · exact wp_ret ⟨ids, hv''⟩
  unfold createSubmission transaction
  refine wp_settle (wp_mono ?_ hbody)
  rintro (e | id) v hv
  · exact wp_abort hv
  · obtain ⟨ids, hinserted⟩ := hv
    refine wp_settle (wp_mono ?_ (wp_commit hinserted))
    rintro (e | _) v' hv'
    · exact wp_abort hv'
    · exact wp_ret hv'

end Steps

section Days

def init (ids : List JsStr) : State where
  existing := ids

/-- However the creations of a day interleave and fail, the ids are pairwise distinct, each was the
next of the day when it was assigned, and a creation fails because a statement failed or because the
last number of the day is used. -/
theorem daily_ids (S : Runtime) (now : CalendarDate) {ids : List JsStr} (hnodup : ids.Nodup)
    (hformed : Formed (dayStart now) ids) {q : Pool State Cmd Res Failure JsStr}
    (hq : Pool.Reach (exec S) (fun _ : Unit => createSubmission S now) anyStep ⟨init ids, []⟩ q) :
    q.shared.ids.Nodup ∧
      (∀ p ∈ q.shared.created, ∃ before, (p.2, before) ∈ q.shared.assigned) ∧
      (∀ a ∈ q.shared.assigned, IsNext (dayStart now) a.2 a.1) ∧
      ∀ i r, q.tasks[i]? = some (.ret r) → Outcome (dayStart now) i r q.shared := by
  have hids : (init ids).ids = ids := List.append_nil ids
  have hinit : Inv (dayStart now) (init ids) :=
    { nodup := by rw [hids]; exact hnodup
      formed := by rw [hids]; exact hformed
      staged := fun p hp => by cases hp
      next := fun a ha => by cases ha
      recorded := fun p hp => by cases hp }
  obtain ⟨hsafe, -⟩ := Pool.safe_reach_of_fresh outcome_stable (fun i _ _ hst h => hst.free h)
    (fun _ _ _ _ hs => wp_createSubmission now hs) hq (Pool.safe_nil hinit)
    fun i _ h => by cases h
  exact ⟨hsafe.inv.nodup, hsafe.inv.recorded, hsafe.inv.next, fun i r hi => hsafe.ended hi⟩

theorem toNat_cons (c : Char) (ds : JsStr) :
    toNat (c :: ds) = (c.toNat - '0'.toNat) * 10 ^ ds.length + toNat ds := by
  have hfold : ∀ (ds : JsStr) (n : ℕ), ds.foldl (fun n c => 10 * n + (c.toNat - '0'.toNat)) n =
      n * 10 ^ ds.length + toNat ds := by
    intro ds
    induction ds with
    | nil => intro n; simp [Js.toNat]
    | cons d ds ih =>
      intro n
      have hself := ih (10 * 0 + (d.toNat - '0'.toNat))
      unfold Js.toNat
      rw [List.foldl_cons, List.foldl_cons, ih, hself, List.length_cons, pow_succ]
      ring
  unfold Js.toNat
  rw [List.foldl_cons, hfold]
  rw [Nat.mul_zero, Nat.zero_add]
  rfl

theorem toNat_lt {ds : JsStr} (h : ∀ c ∈ ds, c.isDigit = true) : toNat ds < 10 ^ ds.length := by
  induction ds with
  | nil => exact Nat.one_pos
  | cons c ds ih =>
    have hc := isDigit_toNat (h c List.mem_cons_self)
    have hrest := ih fun d hd => h d (List.mem_cons_of_mem c hd)
    have hzero : '0'.toNat = 48 := rfl
    have hdigit : c.toNat - '0'.toNat + 1 ≤ 10 := by omega
    rw [toNat_cons, List.length_cons, pow_succ, Nat.mul_comm (10 ^ ds.length) 10]
    calc (c.toNat - '0'.toNat) * 10 ^ ds.length + toNat ds
        < (c.toNat - '0'.toNat) * 10 ^ ds.length + 10 ^ ds.length := by omega
      _ = (c.toNat - '0'.toNat + 1) * 10 ^ ds.length := by ring
      _ ≤ 10 * 10 ^ ds.length := Nat.mul_le_mul_right _ hdigit

def codePointLe : JsStr → JsStr → Bool
  | [], _ => true
  | _ :: _, [] => false
  | c :: s, d :: t => c.toNat < d.toNat || (c = d && codePointLe s t)

theorem codePointLe_append (front a b : JsStr) :
    codePointLe (front ++ a) (front ++ b) = codePointLe a b := by
  induction front with
  | nil => rfl
  | cons c front ih =>
    rw [List.cons_append, List.cons_append, codePointLe, ih]
    simp

theorem codePointLe_digits {a b : JsStr} (ha : ∀ c ∈ a, c.isDigit = true)
    (hb : ∀ c ∈ b, c.isDigit = true) (hlength : a.length = b.length) :
    codePointLe a b = true ↔ toNat a ≤ toNat b := by
  induction a generalizing b with
  | nil =>
    obtain rfl := List.eq_nil_of_length_eq_zero hlength.symm
    exact iff_of_true rfl le_rfl
  | cons c a ih =>
    cases b with
    | nil => cases hlength
    | cons d b =>
      have hlength' : a.length = b.length := Nat.succ_injective hlength
      have ha' : ∀ e ∈ a, e.isDigit = true := fun e he => ha e (List.mem_cons_of_mem c he)
      have hb' : ∀ e ∈ b, e.isDigit = true := fun e he => hb e (List.mem_cons_of_mem d he)
      have hc := isDigit_toNat (ha c List.mem_cons_self)
      have hd := isDigit_toNat (hb d List.mem_cons_self)
      have hzero : '0'.toNat = 48 := rfl
      have hlta := toNat_lt ha'
      have hltb := toNat_lt hb'
      rw [hlength'] at hlta
      rw [codePointLe, Bool.or_eq_true, Bool.and_eq_true, decide_eq_true_eq, decide_eq_true_eq,
        ih ha' hb' hlength', toNat_cons, toNat_cons, hlength']
      rcases Nat.lt_trichotomy c.toNat d.toNat with hlt | heq | hgt
      · refine iff_of_true (.inl hlt) ?_
        have hstep : (c.toNat - '0'.toNat + 1) * 10 ^ b.length ≤ (d.toNat - '0'.toNat) * 10 ^ b.length :=
          Nat.mul_le_mul_right _ (by omega)
        rw [Nat.add_mul, Nat.one_mul] at hstep
        omega
      · have hcd : c = d := Char.toNat_inj.mp heq
        rw [hcd]
        constructor
        · rintro (hlt | ⟨-, hle⟩)
          · exact absurd hlt (Nat.lt_irrefl _)
          · omega
        · intro hle
          exact .inr ⟨rfl, by omega⟩
      · have hstep : (d.toNat - '0'.toNat + 1) * 10 ^ b.length ≤ (c.toNat - '0'.toNat) * 10 ^ b.length :=
          Nat.mul_le_mul_right _ (by omega)
        rw [Nat.add_mul, Nat.one_mul] at hstep
        constructor
        · rintro (hlt | ⟨rfl, -⟩)
          · omega
          · exact absurd hgt (Nat.lt_irrefl _)
        · intro hle
          omega

def codePoints : Runtime where
  le := codePointLe
  le_digits front a b ha hb hlength := by
    rw [isDigits, Bool.and_eq_true, List.all_eq_true] at ha hb
    rw [codePointLe_append]
    exact codePointLe_digits ha.2 hb.2 hlength
  number s := if isDigits s then some (toNat s : ℚ) else none
  number_digits ds hds _ := if_pos hds

def augustFifth : CalendarDate := ⟨2026, 8, 5⟩

/-- The second of two creations that overlap gets the number after that of the first. -/
theorem daily_ids_overlapping : ∃ q : Pool State Cmd Res Failure JsStr,
    q.shared.created =
        [(0, js "SUB-20260805-00002"), (1, js "SUB-20260805-00003")] ∧ q.shared.ids.Nodup := by
  have hnodup : [js "SUB-20260805-00001"].Nodup := List.nodup_singleton _
  have hformed : Formed (dayStart augustFifth) [js "SUB-20260805-00001"] := by
    intro id hid _
    refine ⟨1, by omega, ?_⟩
    rw [List.mem_singleton.mp hid]
    decide +kernel
  have hrun : (Pool.runSchedule (exec codePoints)
      (fun _ : Unit => createSubmission codePoints augustFifth) anyStep
      [.spawn (), .spawn (), .run 0 true, .run 0 true, .run 0 true, .run 0 true, .run 0 true,
        .run 1 true, .run 1 true, .run 1 true, .run 1 true, .run 1 true]
      ⟨init [js "SUB-20260805-00001"], []⟩).map (fun q => q.shared.created) =
      some [(0, js "SUB-20260805-00002"), (1, js "SUB-20260805-00003")] := by
    decide +kernel
  obtain ⟨q, hq, hcreated⟩ := Pool.exists_reach_of_runSchedule _ _ hrun
  exact ⟨q, hcreated, (daily_ids codePoints augustFifth hnodup hformed hq).1⟩

def settledWith (q : Pool State Cmd Res Failure JsStr) (i : ℕ) : Option (Except Failure JsStr) :=
  match q.tasks[i]? with
  | some (.ret r) => some r
  | _ => none

/-- An id of the day that is no number hides the others, and the creation fails with the whole
sequence but one number unused. -/
theorem foreign_id_blocks_day : ∃ q : Pool State Cmd Res Failure JsStr,
    Pool.Reach (exec codePoints) (fun _ : Unit => createSubmission codePoints augustFifth) anyStep
        ⟨init [js "SUB-20260805-00001", js "SUB-20260805-TEST"], []⟩ q ∧
      settledWith q 0 = some (.error .uniqueViolation) := by
  have hrun : (Pool.runSchedule (exec codePoints)
      (fun _ : Unit => createSubmission codePoints augustFifth) anyStep
      [.spawn (), .run 0 true, .run 0 true, .run 0 true, .run 0 true]
      ⟨init [js "SUB-20260805-00001", js "SUB-20260805-TEST"], []⟩).map (fun q => settledWith q 0) =
      some (some (.error .uniqueViolation)) := by
    decide +kernel
  obtain ⟨q, hq, hsettled⟩ := Pool.exists_reach_of_runSchedule _ _ hrun
  exact ⟨q, hq, hsettled⟩

end Days

end SubmissionIds
