import Tokenable.Orders.Crossing

/-!
# The ask that a bid crosses

`bid-crosses-ask.util.ts` on rows as it takes them: every column but the amount may be missing, a
time is a `Date` or a text, and `localeCompare` breaks ties. The rows of the book are one kind of
them.
-/

namespace AskCandidate
open Js

/-- Functions of the runtime, and `parseUnits`. -/
structure Runtime where
  /-- `none` is `NaN`. -/
  dateParse : JsStr → Option ℤ
  toISOString : ℤ → JsStr
  /-- with `numeric: true` -/
  localeCompare : JsStr → JsStr → ℤ
  /-- `Number(a) - Number(b)`, where `NaN` counts as zero. -/
  compareNumbers : JsStr → JsStr → ℤ
  parseUnits : JsStr → ℕ → Option ℤ

/-- A `Date`, with its time value, or a text. -/
inductive Stamp where
  | date (ms : Option ℤ)
  | text (s : JsStr)
  deriving DecidableEq

structure CrossingAskCandidate where
  offerer : JsStr
  considerationAmount : JsStr
  status : Option JsStr := none
  side : Option JsStr := none
  tokenId : Option JsStr := none
  orderHash : Option JsStr := none
  startTime : Option Stamp := none
  endTime : Option Stamp := none
  deriving DecidableEq

variable (rt : Runtime)

/-- The time value of a column; `none` is `NaN`. -/
def timeOf : Option Stamp → Option ℤ
  | some (.date ms) => ms
  | some (.text s) => rt.dateParse s
  | none => rt.dateParse []

def parseMicros (raw : JsStr) : ℤ :=
  if (trim raw).isEmpty then 0 else (toBigInt (trim raw)).getD 0

def windowOpen (row : CrossingAskCandidate) (nowMs : ℤ) : Bool :=
  !(timeOf rt row.endTime).any (fun e => 0 < e && e < nowMs) &&
    !(timeOf rt row.startTime).any (fun s => nowMs < s)

def priceOf (row : CrossingAskCandidate) : ℤ := parseMicros row.considerationAmount

def isActive (row : CrossingAskCandidate) : Bool := lower (row.status.getD (js "active")) = js "active"

def isAsk (row : CrossingAskCandidate) : Bool := lower (row.side.getD (js "ask")) ≠ js "bid"

/-- An active ask in its window at a positive price that the bid reaches. -/
def isCrossed (bidMicros nowMs : ℤ) (row : CrossingAskCandidate) : Bool :=
  isActive row && isAsk row && windowOpen rt row nowMs && 0 < priceOf row && priceOf row ≤ bidMicros

def hashOf (row : CrossingAskCandidate) : JsStr := lower (trim (row.orderHash.getD []))

def mark (seen : List JsStr) (hash : JsStr) : List JsStr := if hash.isEmpty then seen else hash :: seen

/-- The loop over the rows; a row is skipped when its hash was `seen`. -/
def live (bidMicros nowMs : ℤ) : List JsStr → List CrossingAskCandidate → List CrossingAskCandidate
  | _, [] => []
  | seen, row :: rows =>
    let hash := hashOf row
    if !hash.isEmpty && hash ∈ seen then live bidMicros nowMs seen rows
    else if isCrossed rt bidMicros nowMs row then row :: live bidMicros nowMs (mark seen hash) rows
    else live bidMicros nowMs (mark seen hash) rows

/-- The order of the result: `a` may stand before `b`. -/
def before (a b : CrossingAskCandidate) : Prop :=
  priceOf a < priceOf b ∨ priceOf a = priceOf b ∧
    rt.localeCompare (a.tokenId.getD []) (b.tokenId.getD []) ≤ 0

instance : DecidableRel (before rt) := fun a b => by
  unfold before
  infer_instance

def pickCrossingAskForBid (asks : List CrossingAskCandidate) (bidMicros nowMs : ℤ) :
    Option CrossingAskCandidate :=
  if bidMicros ≤ 0 then none else ((live rt bidMicros nowMs [] asks).insertionSort (before rt)).head?

section Sorting

variable {α : Type*} {r : α → α → Prop} [DecidableRel r] {f : α → ℤ}

/-- Sorted by an order that respects `f`, a list starts with an element of the least `f`, whatever
breaks the ties. -/
theorem head?_insertionSort (hle : ∀ a b, r a b → f a ≤ f b) (hge : ∀ a b, ¬ r a b → f b ≤ f a)
    {l : List α} {a : α} (h : (l.insertionSort r).head? = some a) : a ∈ l ∧ ∀ b ∈ l, f a ≤ f b := by
  induction l generalizing a with
  | nil => cases h
  | cons c l ih =>
      rw [List.insertionSort_cons] at h
      cases hsorted : l.insertionSort r with
      | nil =>
          have hnil : l = [] := by
            rw [← List.length_eq_zero_iff, ← List.length_insertionSort r l, hsorted]
            rfl
          rw [hsorted] at h
          obtain rfl : c = a := Option.some.inj h
          rw [hnil]
          simp
      | cons d m =>
          obtain ⟨hd, hleast⟩ := ih (a := d) (by rw [hsorted]; rfl)
          rw [hsorted, List.orderedInsert_cons] at h
          split_ifs at h with hcd
          · obtain rfl : c = a := Option.some.inj h
            refine ⟨List.mem_cons_self, fun b hb => ?_⟩
            rcases List.mem_cons.1 hb with rfl | hb
            · exact le_rfl
            · exact (hle _ _ hcd).trans (hleast b hb)
          · obtain rfl : d = a := Option.some.inj h
            refine ⟨List.mem_cons_of_mem c hd, fun b hb => ?_⟩
            rcases List.mem_cons.1 hb with rfl | hb
            · exact hge _ _ hcd
            · exact hleast b hb

theorem head?_insertionSort_eq_none {l : List α} : (l.insertionSort r).head? = none ↔ l = [] := by
  rw [List.head?_eq_none_iff, ← List.length_eq_zero_iff, List.length_insertionSort,
    List.length_eq_zero_iff]

end Sorting

section Selection

variable {rt} {bidMicros nowMs : ℤ} {seen : List JsStr} {rows : List CrossingAskCandidate}

def RepeatsIdentically (rows : List CrossingAskCandidate) : Prop :=
  ∀ a ∈ rows, ∀ b ∈ rows, hashOf a = hashOf b → hashOf a ≠ [] → a = b

theorem mem_mark {hash hash' : JsStr} (h : hash' ∈ mark seen hash) :
    hash' ∈ seen ∨ hash' = hash ∧ hash ≠ [] := by
  unfold mark at h
  split_ifs at h with hempty
  · exact .inl h
  · rcases List.mem_cons.1 h with rfl | h
    · exact .inr ⟨rfl, by simpa using hempty⟩
    · exact .inl h

/-- What the loop collects are crossed rows of the list. -/
theorem crossed_of_mem_live {r : CrossingAskCandidate} (h : r ∈ live rt bidMicros nowMs seen rows) :
    r ∈ rows ∧ isCrossed rt bidMicros nowMs r = true := by
  induction rows generalizing seen with
  | nil => cases h
  | cons row rows ih =>
      simp only [live] at h
      split_ifs at h with hskip hcrossed
      · exact (ih h).imp_left (List.mem_cons_of_mem row)
      · rcases List.mem_cons.1 h with rfl | h
        · exact ⟨List.mem_cons_self, hcrossed⟩
        · exact (ih h).imp_left (List.mem_cons_of_mem row)
      · exact (ih h).imp_left (List.mem_cons_of_mem row)

/-- It collects every crossed row whose hash has not been seen. -/
theorem mem_live {r : CrossingAskCandidate} (hrows : RepeatsIdentically rows) (hr : r ∈ rows)
    (hcrossed : isCrossed rt bidMicros nowMs r = true) (hnew : hashOf r ∈ seen → hashOf r = []) :
    r ∈ live rt bidMicros nowMs seen rows := by
  induction rows generalizing seen with
  | nil => cases hr
  | cons row rows ih =>
      have hrows' : RepeatsIdentically rows := fun a ha b hb =>
        hrows a (List.mem_cons_of_mem row ha) b (List.mem_cons_of_mem row hb)
      simp only [live]
      split_ifs with hskip hrow
      · -- the row at hand is a repetition
        obtain ⟨hne, hseen⟩ : hashOf row ≠ [] ∧ hashOf row ∈ seen := by simpa using hskip
        rcases List.mem_cons.1 hr with rfl | hr
        · exact absurd (hnew hseen) hne
        · exact ih hrows' hr hnew
      · by_cases hsame : r = row
        · rw [hsame]
          exact List.mem_cons_self
        · have hr' : r ∈ rows := (List.mem_cons.1 hr).resolve_left hsame
          refine List.mem_cons_of_mem row (ih hrows' hr' fun hmem => ?_)
          rcases mem_mark hmem with hmem | ⟨heq, hne⟩
          · exact hnew hmem
          · exact absurd (hrows r hr row List.mem_cons_self heq (by rw [heq]; exact hne)) hsame
      · rcases List.mem_cons.1 hr with rfl | hr'
        · exact absurd hcrossed hrow
        · refine ih hrows' hr' fun hmem => ?_
          rcases mem_mark hmem with hmem | ⟨heq, hne⟩
          · exact hnew hmem
          · have hsame := hrows r hr row List.mem_cons_self heq (by rw [heq]; exact hne)
            rw [hsame] at hcrossed
            exact absurd hcrossed hrow

/-- The time between the start and the end of an ask, where they are known. -/
def InWindow (start end_ : Option ℤ) (nowMs : ℤ) : Prop :=
  (∀ s ∈ start, s ≤ nowMs) ∧ ∀ e ∈ end_, nowMs ≤ e

/-- An end at or before the epoch is none. -/
def endOf (rt : Runtime) (row : CrossingAskCandidate) : Option ℤ :=
  (timeOf rt row.endTime).filter (0 < ·)

/-- An ask that a bid takes at a time. A row without a status is active, one without a side an ask. -/
structure Crossed (rt : Runtime) (bidMicros nowMs : ℤ) (row : CrossingAskCandidate) : Prop where
  active : ∀ s ∈ row.status, lower s = js "active"
  ask : ∀ s ∈ row.side, lower s ≠ js "bid"
  window : InWindow (timeOf rt row.startTime) (endOf rt row) nowMs
  pos : 0 < priceOf row
  reached : priceOf row ≤ bidMicros

theorem isActive_iff {row : CrossingAskCandidate} :
    isActive row = true ↔ ∀ s ∈ row.status, lower s = js "active" := by
  cases hstatus : row.status with
  | none => simp [isActive, hstatus]; decide
  | some s => simp [isActive, hstatus]

theorem isAsk_iff {row : CrossingAskCandidate} :
    isAsk row = true ↔ ∀ s ∈ row.side, lower s ≠ js "bid" := by
  cases hside : row.side with
  | none => simp [isAsk, hside]; decide
  | some s => simp [isAsk, hside]

theorem windowOpen_iff {row : CrossingAskCandidate} :
    windowOpen rt row nowMs = true ↔
      InWindow (timeOf rt row.startTime) (endOf rt row) nowMs := by
  rw [windowOpen, InWindow, endOf, Bool.and_eq_true, and_comm]
  apply and_congr
  · cases timeOf rt row.startTime with
    | none => simp
    | some s => simp
  · cases timeOf rt row.endTime with
    | none => simp
    | some e =>
        by_cases hpos : 0 < e
        · simp [hpos]
        · simp [hpos]

theorem isCrossed_iff {row : CrossingAskCandidate} :
    isCrossed rt bidMicros nowMs row = true ↔ Crossed rt bidMicros nowMs row := by
  simp only [isCrossed, Bool.and_eq_true, decide_eq_true_eq, isActive_iff, isAsk_iff,
    windowOpen_iff]
  constructor
  · rintro ⟨⟨⟨⟨hactive, hask⟩, hwindow⟩, hpos⟩, hreached⟩
    exact ⟨hactive, hask, hwindow, hpos, hreached⟩
  · intro h
    exact ⟨⟨⟨⟨h.active, h.ask⟩, h.window⟩, h.pos⟩, h.reached⟩

theorem before_le {a b : CrossingAskCandidate} (h : before rt a b) : priceOf a ≤ priceOf b := by
  rcases h with h | ⟨h, -⟩
  · exact h.le
  · exact h.le

theorem before_ge {a b : CrossingAskCandidate} (h : ¬ before rt a b) : priceOf b ≤ priceOf a := by
  by_contra hlt
  exact h (.inl (not_le.1 hlt))

/-- The picked row is a crossed one at the least price. -/
theorem pick_eq_some {r : CrossingAskCandidate} (hrows : RepeatsIdentically rows)
    (h : pickCrossingAskForBid rt rows bidMicros nowMs = some r) :
    r ∈ rows ∧ isCrossed rt bidMicros nowMs r = true ∧
      ∀ row ∈ rows, isCrossed rt bidMicros nowMs row = true → priceOf r ≤ priceOf row := by
  unfold pickCrossingAskForBid at h
  split_ifs at h
  obtain ⟨hmem, hleast⟩ := head?_insertionSort (r := before rt) (f := priceOf)
    (fun _ _ => before_le) (fun _ _ => before_ge) h
  obtain ⟨hr, hcrossed⟩ := crossed_of_mem_live hmem
  refine ⟨hr, hcrossed, fun row hrow hrowCrossed => hleast row ?_⟩
  exact mem_live hrows hrow hrowCrossed fun hseen => absurd hseen List.not_mem_nil

theorem pick_eq_none (hrows : RepeatsIdentically rows) :
    pickCrossingAskForBid rt rows bidMicros nowMs = none ↔
      ∀ row ∈ rows, isCrossed rt bidMicros nowMs row = false := by
  unfold pickCrossingAskForBid
  split_ifs with hbid
  · simp only [true_iff]
    intro row _
    by_contra hcrossed
    simp only [Bool.not_eq_false, isCrossed, Bool.and_eq_true, decide_eq_true_eq] at hcrossed
    omega
  · rw [head?_insertionSort_eq_none]
    constructor
    · intro hnone row hrow
      by_contra hcrossed
      have hmem : row ∈ live rt bidMicros nowMs [] rows :=
        mem_live hrows hrow (by simpa using hcrossed) fun hseen => absurd hseen List.not_mem_nil
      rw [hnone] at hmem
      cases hmem
    · intro hnone
      rw [List.eq_nil_iff_forall_not_mem]
      intro r hr
      obtain ⟨hrow, hcrossed⟩ := crossed_of_mem_live hr
      rw [hnone r hrow] at hcrossed
      cases hcrossed

end Selection

section Stored

open Orders

/-- A row of the book as the selection takes it. -/
def candidateOf (o : Order) : CrossingAskCandidate where
  offerer := o.offerer
  considerationAmount := o.considerationAmount
  status := some o.status.text
  side := some (match o.side with
    | .ask => js "ask"
    | .bid => js "bid")
  tokenId := some o.tokenId
  orderHash := some o.orderHash
  startTime := some (.date (some o.startTime))
  endTime := some (.date (some o.endTime))

theorem priceOf_candidateOf (o : Order) :
    priceOf (candidateOf o) = Orders.parseMicros o.considerationAmount := by
  change parseMicros o.considerationAmount = _
  unfold parseMicros Orders.parseMicros
  split_ifs with hempty
  · have hnil : trim o.considerationAmount = [] := List.isEmpty_iff.1 hempty
    rw [toBigInt, hnil]
    rfl
  · rw [toBigInt, toBigInt, trim_trim]

theorem isCrossed_candidateOf (rt : Runtime) (bidMicros : ℤ) (nowMs : ℕ) (o : Order) :
    isCrossed rt bidMicros nowMs (candidateOf o) = Orders.isCrossed bidMicros nowMs o := by
  have hactive : isActive (candidateOf o) = decide (o.status = .active) := by
    cases hstatus : o.status <;> simp only [isActive, candidateOf, hstatus] <;> decide
  have hask : isAsk (candidateOf o) = decide (o.side ≠ .bid) := by
    cases hside : o.side <;> simp only [isAsk, candidateOf, hside] <;> decide
  have hwindow : windowOpen rt (candidateOf o) nowMs = Orders.windowOpen o nowMs := by
    have hstart : (!decide (nowMs < o.startTime)) = decide (o.startTime ≤ nowMs) := by
      rw [← decide_not]
      exact decide_eq_decide.2 Nat.not_lt
    simp [windowOpen, candidateOf, timeOf, Orders.windowOpen, hstart]
  rw [isCrossed, hactive, hask, hwindow, priceOf_candidateOf]
  rfl

/-- On rows of the book the loop is the one that `createOrder` was modelled with. -/
theorem live_candidateOf (rt : Runtime) (bidMicros : ℤ) (nowMs : ℕ) (seen : List JsStr)
    (rows : List Order) :
    live rt bidMicros nowMs seen (rows.map candidateOf) =
      (crossedAsks bidMicros nowMs seen rows).map candidateOf := by
  induction rows generalizing seen with
  | nil => rfl
  | cons row rows ih =>
      have hhash : hashOf (candidateOf row) = Orders.hashOf row := rfl
      rw [List.map_cons, crossedAsks_cons]
      simp only [live, hhash, isCrossed_candidateOf, ih, mark]
      split_ifs
      all_goals rfl

/-- The prices of two choices of the least are equal. -/
theorem price_eq_of_least {α β : Type} {l : List α} {m : List β} {f : α → ℤ} {g : β → ℤ}
    {oa : Option α} {ob : Option β} (hprices : l.map f = m.map g)
    (ha : ∀ a, oa = some a → a ∈ l ∧ ∀ b ∈ l, f a ≤ f b)
    (hb : ∀ b, ob = some b → b ∈ m ∧ ∀ c ∈ m, g b ≤ g c) (hnone : oa = none ↔ l = [])
    (hnone' : ob = none ↔ m = []) : oa.map f = ob.map g := by
  have hempty : l = [] ↔ m = [] := by
    rw [← List.map_eq_nil_iff (f := f), hprices, List.map_eq_nil_iff]
  cases oa with
  | none => rw [hnone'.2 (hempty.1 (hnone.1 rfl))]; rfl
  | some a =>
      cases ob with
      | none => exact absurd (hnone.2 (hempty.2 (hnone'.1 rfl))) (Option.some_ne_none a)
      | some b =>
          obtain ⟨hal, hleast⟩ := ha a rfl
          obtain ⟨hbm, hleast'⟩ := hb b rfl
          obtain ⟨b', hb', hfb⟩ := List.mem_map.1 (hprices ▸ List.mem_map_of_mem (f := f) hal)
          obtain ⟨a', ha', hfa⟩ := List.mem_map.1 (hprices.symm ▸ List.mem_map_of_mem (f := g) hbm)
          have hge := hleast' b' hb'
          have hle := hleast a' ha'
          change some (f a) = some (g b)
          rw [Option.some.injEq]
          omega

/-- On rows of the book the selection is the one that `createOrder` was modelled with, up to ties. -/
theorem pick_candidateOf (rt : Runtime) (rows : List Order) (bidMicros : ℤ) (nowMs : ℕ) :
    (pickCrossingAskForBid rt (rows.map candidateOf) bidMicros nowMs).map priceOf =
      (Orders.pickCrossingAskForBid rows bidMicros nowMs).map
        fun o => Orders.parseMicros o.considerationAmount := by
  unfold pickCrossingAskForBid Orders.pickCrossingAskForBid
  split_ifs with hbid
  · rfl
  · rw [live_candidateOf]
    apply price_eq_of_least (l := (crossedAsks bidMicros nowMs [] rows).map candidateOf)
      (m := crossedAsks bidMicros nowMs [] rows)
    · rw [List.map_map]
      exact List.map_congr_left fun o _ => priceOf_candidateOf o
    · intro a ha
      exact head?_insertionSort (r := before rt) (f := priceOf) (fun _ _ => before_le)
        (fun _ _ => before_ge) ha
    · intro o ho
      refine head?_insertionSort (r := cheaper) (f := fun o => Orders.parseMicros o.considerationAmount)
        (fun a b h => ?_) (fun a b h => ?_) ho
      · rcases h with h | ⟨h, -⟩
        · exact h.le
        · exact h.le
      · by_contra hlt
        exact h (.inl (not_le.1 hlt))
    · exact head?_insertionSort_eq_none
    · exact head?_insertionSort_eq_none

end Stored

end AskCandidate
