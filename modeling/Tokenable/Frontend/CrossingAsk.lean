import Tokenable.Orders.AskCandidate

/-!
# The front end's selection of a crossed ask

`collectionCriteriaBidAsk.ts` picks the ask that a bid would take from the rows that the back end
sends. It is written independently of the back end's selection, and finds an ask at the same price.
-/

namespace Frontend
open Js AskCandidate

section Selection

/-- A row as it is sent: times are texts. -/
structure ListedAsk where
  offerer : JsStr
  considerationAmount : Option JsStr
  price : Option JsStr := none
  status : Option JsStr
  side : Option JsStr
  tokenId : Option JsStr
  orderHash : Option JsStr
  startTime : Option JsStr
  endTime : Option JsStr
  deriving DecidableEq

variable (rt : Runtime)

def isListingAskRow (o : ListedAsk) : Bool := lower (o.side.getD (js "ask")) ≠ js "bid"

def askPriceMicros (o : ListedAsk) : ℤ :=
  let s := trim ((o.considerationAmount.or o.price).getD [])
  if s.isEmpty then 0
  else if '.' ∈ s then (rt.parseUnits s 6).getD 0
  else (toBigInt s).getD 0

def isActiveAskStatus (o : ListedAsk) : Bool := o.status.all fun s => lower s = js "active"

/-- The order of the result: `a` may stand before `b`. -/
def listedBefore (a b : ListedAsk) : Prop :=
  askPriceMicros rt a < askPriceMicros rt b ∨ askPriceMicros rt a = askPriceMicros rt b ∧
    rt.compareNumbers (a.tokenId.getD []) (b.tokenId.getD []) ≤ 0

instance : DecidableRel (listedBefore rt) := fun a b => by
  unfold listedBefore
  infer_instance

def sortActiveAsksLowestFirst (activeAsks : List ListedAsk) : List ListedAsk :=
  (activeAsks.filter fun o => isActiveAskStatus o && isListingAskRow o).insertionSort (listedBefore rt)

def pickLowestActiveAsk (activeAsks : List ListedAsk) : Option ListedAsk :=
  (sortActiveAsksLowestFirst rt activeAsks).head?

def askWindowOpen (o : ListedAsk) (nowMs : ℤ) : Bool :=
  !(rt.dateParse (o.endTime.getD [])).any (fun e => 0 < e && e < nowMs) &&
    !(rt.dateParse (o.startTime.getD [])).any (fun s => nowMs < s)

def pickCrossingAskForBid (asks : List ListedAsk) (bidUnits nowMs : ℤ) : Option ListedAsk :=
  if bidUnits ≤ 0 then none
  else pickLowestActiveAsk rt (asks.filter fun o =>
    isActiveAskStatus o && isListingAskRow o && askWindowOpen rt o nowMs &&
      0 < askPriceMicros rt o && askPriceMicros rt o ≤ bidUnits)

end Selection

section Sent

variable (rt : Runtime)

/-- A date in JSON; one that is invalid is sent as `null`. -/
def sentStamp : Option Stamp → Option JsStr
  | some (.date (some ms)) => some (rt.toISOString ms)
  | some (.date none) => none
  | some (.text s) => some s
  | none => none

/-- A row of the back end in JSON. -/
def sent (row : CrossingAskCandidate) : ListedAsk where
  offerer := row.offerer
  considerationAmount := some row.considerationAmount
  status := row.status
  side := row.side
  tokenId := row.tokenId
  orderHash := row.orderHash
  startTime := sentStamp rt row.startTime
  endTime := sentStamp rt row.endTime

/-- Dates are read back as they were written, and the empty text is no date. -/
structure ReadsDates : Prop where
  blank : rt.dateParse [] = none
  iso : ∀ ms, rt.dateParse (rt.toISOString ms) = some ms

/-- A price in micros has no decimal point. -/
def IsIntegerPrice (row : CrossingAskCandidate) : Prop := '.' ∉ row.considerationAmount

variable {rt} {row : CrossingAskCandidate} {rows : List CrossingAskCandidate} {bidMicros nowMs : ℤ}

theorem mem_of_mem_trim {s : JsStr} {c : Char} (h : c ∈ trim s) : c ∈ s := by
  have hmem := (List.dropWhile_sublist isSpace).mem (List.mem_reverse.1 h)
  exact (List.dropWhile_sublist isSpace).mem (List.mem_reverse.1 hmem)

theorem askPriceMicros_sent (hprice : IsIntegerPrice row) :
    askPriceMicros rt (sent rt row) = priceOf row := by
  have hpoint : '.' ∉ trim row.considerationAmount := fun h => hprice (mem_of_mem_trim h)
  simp [askPriceMicros, sent, priceOf, AskCandidate.parseMicros, hpoint]

theorem timeOf_sent (hdates : ReadsDates rt) (stamp : Option Stamp) :
    rt.dateParse ((sentStamp rt stamp).getD []) = timeOf rt stamp := by
  match stamp with
  | none => rfl
  | some (.text s) => rfl
  | some (.date none) => exact hdates.blank
  | some (.date (some ms)) => exact hdates.iso ms

theorem isActiveAskStatus_sent : isActiveAskStatus (sent rt row) = isActive row := by
  unfold isActiveAskStatus isActive sent
  cases row.status <;> rfl

/-- The two sides test a row alike. -/
theorem crossed_sent (hdates : ReadsDates rt) (hprice : IsIntegerPrice row) :
    (isActiveAskStatus (sent rt row) && isListingAskRow (sent rt row) &&
      askWindowOpen rt (sent rt row) nowMs && 0 < askPriceMicros rt (sent rt row) &&
      askPriceMicros rt (sent rt row) ≤ bidMicros) = isCrossed rt bidMicros nowMs row := by
  have hwindow : askWindowOpen rt (sent rt row) nowMs = AskCandidate.windowOpen rt row nowMs := by
    unfold askWindowOpen AskCandidate.windowOpen
    rw [← timeOf_sent hdates, ← timeOf_sent hdates]
    rfl
  rw [isActiveAskStatus_sent, hwindow, askPriceMicros_sent hprice]
  rfl

theorem listedBefore_le {a b : ListedAsk} (h : listedBefore rt a b) :
    askPriceMicros rt a ≤ askPriceMicros rt b := by
  rcases h with h | ⟨h, -⟩
  · exact h.le
  · exact h.le

theorem listedBefore_ge {a b : ListedAsk} (h : ¬ listedBefore rt a b) :
    askPriceMicros rt b ≤ askPriceMicros rt a := by
  by_contra hlt
  exact h (.inl (not_le.1 hlt))

def crossedRows (rt : Runtime) (bidMicros nowMs : ℤ) (rows : List CrossingAskCandidate) :
    List CrossingAskCandidate := rows.filter (isCrossed rt bidMicros nowMs)

theorem pick_sent (hdates : ReadsDates rt) (hprices : ∀ row ∈ rows, IsIntegerPrice row)
    (hbid : 0 < bidMicros) :
    pickCrossingAskForBid rt (rows.map (sent rt)) bidMicros nowMs =
      (((crossedRows rt bidMicros nowMs rows).map (sent rt)).insertionSort (listedBefore rt)).head? := by
  have hfilter : ((rows.map (sent rt)).filter fun o =>
      isActiveAskStatus o && isListingAskRow o && askWindowOpen rt o nowMs &&
        0 < askPriceMicros rt o && askPriceMicros rt o ≤ bidMicros) =
      (crossedRows rt bidMicros nowMs rows).map (sent rt) := by
    rw [List.filter_map]
    congr 1
    exact List.filter_congr fun row hrow => crossed_sent hdates (hprices row hrow)
  -- the second filter keeps every row
  have hkept : ∀ o ∈ (crossedRows rt bidMicros nowMs rows).map (sent rt),
      (isActiveAskStatus o && isListingAskRow o) = true := by
    intro o ho
    obtain ⟨row, hrow, rfl⟩ := List.mem_map.1 ho
    obtain ⟨hmem, hcrossed⟩ := List.mem_filter.1 hrow
    rw [← crossed_sent hdates (hprices row hmem)] at hcrossed
    simp only [Bool.and_eq_true] at hcrossed ⊢
    exact hcrossed.1.1.1
  rw [pickCrossingAskForBid, if_neg (not_le.2 hbid), hfilter, pickLowestActiveAsk,
    sortActiveAsksLowestFirst, List.filter_eq_self.2 hkept]

/-- The front end picks an ask at the price of the back end's. -/
theorem price_pick_sent (nowMs : ℤ) (hdates : ReadsDates rt) (hrows : RepeatsIdentically rows)
    (hprices : ∀ row ∈ rows, IsIntegerPrice row) (hbid : 0 < bidMicros) :
    (pickCrossingAskForBid rt (rows.map (sent rt)) bidMicros nowMs).map (askPriceMicros rt) =
      (AskCandidate.pickCrossingAskForBid rt rows bidMicros nowMs).map priceOf := by
  rw [pick_sent hdates hprices hbid]
  cases hpick : AskCandidate.pickCrossingAskForBid rt rows bidMicros nowMs with
  | none =>
      have hnone : crossedRows rt bidMicros nowMs rows = [] := by
        rw [crossedRows, List.filter_eq_nil_iff]
        intro row hrow hcrossed
        rw [(pick_eq_none hrows).1 hpick row hrow] at hcrossed
        cases hcrossed
      rw [hnone]
      rfl
  | some r =>
      obtain ⟨hr, hcrossed, hleast⟩ := pick_eq_some hrows hpick
      have hmem : r ∈ crossedRows rt bidMicros nowMs rows := List.mem_filter.2 ⟨hr, hcrossed⟩
      cases hfront : (((crossedRows rt bidMicros nowMs rows).map (sent rt)).insertionSort
          (listedBefore rt)).head? with
      | none =>
          have hempty := List.map_eq_nil_iff.1 (head?_insertionSort_eq_none.1 hfront)
          rw [hempty] at hmem
          cases hmem
      | some o =>
          obtain ⟨ho, hfrontLeast⟩ := head?_insertionSort (r := listedBefore rt) (f := askPriceMicros rt)
            (fun _ _ => listedBefore_le) (fun _ _ => listedBefore_ge) hfront
          obtain ⟨row, hrow, rfl⟩ := List.mem_map.1 ho
          obtain ⟨hrow', hrowCrossed⟩ := List.mem_filter.1 hrow
          have hle := hleast row hrow' hrowCrossed
          have hge := hfrontLeast (sent rt r) (List.mem_map_of_mem hmem)
          rw [askPriceMicros_sent (hprices row hrow'), askPriceMicros_sent (hprices r hr)] at hge
          change some (askPriceMicros rt (sent rt row)) = some (priceOf r)
          rw [askPriceMicros_sent (hprices row hrow'), Option.some.injEq]
          omega

/-- The back end picks a lowest-priced live ask that the bid reaches, and none when there is none;
the front end's choice agrees with it on whether there is one, and on its price. -/
theorem crossing_selections_agree (bidMicros nowMs : ℤ) (hdates : ReadsDates rt)
    (hrows : RepeatsIdentically rows) (hprices : ∀ row ∈ rows, IsIntegerPrice row)
    (hbid : 0 < bidMicros) :
    (AskCandidate.pickCrossingAskForBid rt rows bidMicros nowMs = none ↔
      ∀ row ∈ rows, ¬ Crossed rt bidMicros nowMs row) ∧
    (∀ r, AskCandidate.pickCrossingAskForBid rt rows bidMicros nowMs = some r →
      r ∈ rows ∧ Crossed rt bidMicros nowMs r ∧
        ∀ row ∈ rows, Crossed rt bidMicros nowMs row → priceOf r ≤ priceOf row) ∧
    (pickCrossingAskForBid rt (rows.map (sent rt)) bidMicros nowMs = none ↔
      AskCandidate.pickCrossingAskForBid rt rows bidMicros nowMs = none) ∧
    (pickCrossingAskForBid rt (rows.map (sent rt)) bidMicros nowMs).map (askPriceMicros rt) =
      (AskCandidate.pickCrossingAskForBid rt rows bidMicros nowMs).map priceOf := by
  have hprice := price_pick_sent nowMs hdates hrows hprices hbid
  simp only [← isCrossed_iff, Bool.not_eq_true]
  refine ⟨pick_eq_none hrows, fun r hr => pick_eq_some hrows hr, ?_, hprice⟩
  rw [← Option.map_eq_none_iff (f := askPriceMicros rt), hprice, Option.map_eq_none_iff]

def secondOne : JsStr := js "1970-01-01T00:00:01.000Z"

/-- The dates of one second, and any other as its number of milliseconds. -/
def plainRuntime : Runtime where
  dateParse := fun s => if s.isEmpty then none else if s = secondOne then some 1000 else toBigInt s
  toISOString := fun ms => if ms = 1000 then secondOne else Orders.ofInt ms
  localeCompare := fun _ _ => 0
  compareNumbers := fun _ _ => 0
  parseUnits := fun _ _ => none

theorem toBigInt_ofInt_int (n : ℤ) : toBigInt (Orders.ofInt n) = some n := by
  unfold Orders.ofInt
  split_ifs with hneg
  · have hdigits := isDigits_ofNat n.natAbs
    have hall : ∀ c ∈ '-' :: ofNat n.natAbs, isSpace c = false := by
      intro c hc
      rcases List.mem_cons.1 hc with rfl | hc
      · rfl
      · simp only [isDigits, Bool.and_eq_true, List.all_eq_true] at hdigits
        exact not_isSpace_of_isDigit (hdigits.2 c hc)
    have hvalue : -(n.natAbs : ℤ) = n := by omega
    rw [toBigInt, trim_eq_self hall]
    simp only [decimal, hdigits, if_true, toNat_ofNat]
    exact congrArg some hvalue
  · have hvalue : (n.natAbs : ℤ) = n := by omega
    rw [toBigInt_ofNat, hvalue]

theorem readsDates_plain : ReadsDates plainRuntime where
  blank := rfl
  iso := by
    intro ms
    by_cases hsecond : ms = 1000
    · subst hsecond
      rfl
    · have hread := toBigInt_ofInt_int ms
      have hne : Orders.ofInt ms ≠ secondOne := by
        intro heq
        rw [heq] at hread
        have hnone : toBigInt secondOne = none := by decide
        rw [hnone] at hread
        cases hread
      have hnonempty : Orders.ofInt ms ≠ [] := by
        unfold Orders.ofInt
        split_ifs
        · exact List.cons_ne_nil _ _
        · exact Nat.toDigits_ne_nil
      simp [plainRuntime, hsecond, hne, hnonempty, hread]

/-- An ask at 50 USDC whose window has ended, and one at 80. -/
def cardAsks : List CrossingAskCandidate :=
  [{ offerer := js "0x1", considerationAmount := js "50000000", status := some (js "ACTIVE")
     orderHash := some (js "0xA"), endTime := some (.date (some 1000)) },
   { offerer := js "0x1", considerationAmount := js "80000000", orderHash := some (js "0xB")
     startTime := some (.date (some 1000)) }]

/-- A bid of 100 USDC after the first second takes the ask at 80, on both sides. -/
theorem crossing_selections_agree_second :
    (pickCrossingAskForBid plainRuntime (cardAsks.map (sent plainRuntime)) 100000000 2000).map
      (askPriceMicros plainRuntime) = some 80000000 := by
  have hrows : RepeatsIdentically cardAsks := by
    unfold RepeatsIdentically cardAsks
    decide
  have hprices : ∀ row ∈ cardAsks, IsIntegerPrice row := by
    unfold IsIntegerPrice cardAsks
    decide
  have hagree := (crossing_selections_agree 100000000 2000 readsDates_plain hrows hprices (by decide)).2.2.2
  rw [hagree]
  decide

def endedAsk : CrossingAskCandidate :=
  { offerer := js "0x1", considerationAmount := js "50000000", endTime := some (.date (some 0)) }

/-- Both sides still take it. -/
theorem ended_ask_picked :
    (ReadsDates plainRuntime ∧ RepeatsIdentically [endedAsk] ∧ IsIntegerPrice endedAsk) ∧
    AskCandidate.pickCrossingAskForBid plainRuntime [endedAsk] 100000000 2000 = some endedAsk ∧
    pickCrossingAskForBid plainRuntime [sent plainRuntime endedAsk] 100000000 2000 ≠ none ∧
    ¬ InWindow (timeOf plainRuntime endedAsk.startTime) (timeOf plainRuntime endedAsk.endTime)
      2000 := by
  have hrows : RepeatsIdentically [endedAsk] := by
    unfold RepeatsIdentically endedAsk
    decide
  have hprice : IsIntegerPrice endedAsk := by
    unfold IsIntegerPrice endedAsk
    decide
  refine ⟨⟨readsDates_plain, hrows, hprice⟩, by decide, by decide, ?_⟩
  rintro ⟨-, hend⟩
  have hle : (2000 : ℤ) ≤ 0 := hend 0 rfl
  omega

end Sent

end Frontend
