import Mathlib.Data.List.Sort
import Mathlib.Data.Rat.Floor
import Tokenable.Js.OrderedMap
import Tokenable.Js.Text

/-!
# The merged trade tape

Fills of the platform and sales reported by Cardhedger on one tape, and the volume statistics of its
windows. Times and finite prices are exact rationals.
-/

namespace TradeTape
open Js

/-- A number; `Infinity` comes with its sign. -/
inductive Num where
  | finite (x : ℚ)
  | infinite (negative : Bool)
  | nan
  deriving DecidableEq

/-- The text of `toFixed(4)`: a sign and a number of ten-thousandths, or the number itself. -/
inductive FixedText where
  | digits (negative : Bool) (units : ℤ)
  | plain (x : Num)
  deriving DecidableEq

/-- Rounding to ten-thousandths, halves away from zero, of a number below `1e21`. -/
def Num.toFixed4 : Num → FixedText
  | .finite x =>
    if |x| < 10 ^ 21 then .digits (decide (x < 0)) ⌊|x| * 10 ^ 4 + 1 / 2⌋ else .plain (.finite x)
  | x => .plain x

inductive TapeFillSource where
  | platform
  | cardhedger
  deriving DecidableEq

structure PlatformTapeFillRow where
  t : ℚ
  priceUsdc : Num
  tokenId : JsStr
  orderHash : JsStr
  tapeAggressor : Option JsStr := none
  source : TapeFillSource
  externalSaleType : Option JsStr := none
  externalSalePlatform : Option JsStr := none
  externalSaleUrl : Option JsStr := none
  deriving DecidableEq

/-- ``${row.t}:${row.priceUsdc.toFixed(4)}`` -/
def tapeKey (row : PlatformTapeFillRow) : ℚ × FixedText := (row.t, row.priceUsdc.toFixed4)

def mergePlatformAndCardhedgerTape (platform cardhedger : List PlatformTapeFillRow) :
    List PlatformTapeFillRow :=
  let byKey := OrderedMap.setNewEach tapeKey .empty cardhedger
  let byKey := OrderedMap.setEach tapeKey byKey platform
  byKey.values.insertionSort fun a b => b.t ≤ a.t

def cardhedgerReferenceDailySaleType : JsStr := js "Daily reference"

def isVolumeCountableTapeRow (row : PlatformTapeFillRow) : Bool :=
  match row.priceUsdc with
  | .finite price =>
    if price ≤ 0 then false
    else if row.source ≠ .cardhedger then true
    else row.externalSaleType ≠ some cardhedgerReferenceDailySaleType
  | _ => false

structure TradesVolumeWindowStats where
  notionalUsdc : ℚ := 0
  tradeCount : ℕ := 0
  platformCount : ℕ := 0
  cardhedgerCount : ℕ := 0

inductive TradesVolumeWindowKey where
  | d7 | d30 | d90 | d180 | d365
  deriving DecidableEq

def TradesVolumeWindowKey.days : TradesVolumeWindowKey → ℕ
  | d7 => 7
  | d30 => 30
  | d90 => 90
  | d180 => 180
  | d365 => 365

def secDay : ℚ := 86400

structure CollectionTradesVolumeStats where
  windows : TradesVolumeWindowKey → TradesVolumeWindowStats
  total : TradesVolumeWindowStats

def addRowToWindowStats (stats : TradesVolumeWindowStats) (row : PlatformTapeFillRow) :
    TradesVolumeWindowStats where
  notionalUsdc := stats.notionalUsdc + match row.priceUsdc with
    | .finite price => price
    | _ => 0
  tradeCount := stats.tradeCount + 1
  platformCount := if row.source = .cardhedger then stats.platformCount else stats.platformCount + 1
  cardhedgerCount :=
    if row.source = .cardhedger then stats.cardhedgerCount + 1 else stats.cardhedgerCount

def cutoff (nowSec : ℚ) (key : TradesVolumeWindowKey) : ℚ := nowSec - key.days * secDay

def countRow (nowSec : ℚ) (stats : CollectionTradesVolumeStats) (row : PlatformTapeFillRow) :
    CollectionTradesVolumeStats :=
  if !isVolumeCountableTapeRow row then stats
  else
    { total := addRowToWindowStats stats.total row
      windows := fun key =>
        if row.t ≥ cutoff nowSec key then addRowToWindowStats (stats.windows key) row
        else stats.windows key }

def computeCollectionTradesVolumeStats (trades : List PlatformTapeFillRow) (nowSec : ℚ) :
    CollectionTradesVolumeStats :=
  trades.foldl (countRow nowSec) ⟨fun _ => {}, {}⟩

section Merge
variable (platform cardhedger : List PlatformTapeFillRow)

/-- What two reports of one trade share. -/
def trade (row : PlatformTapeFillRow) : ℚ × Num := (row.t, row.priceUsdc)

/-- The tape that is meant: all platform fills, and the Cardhedger rows whose time and price no
platform fill and no earlier Cardhedger row has. -/
def meantTape : List PlatformTapeFillRow :=
  platform ++ OrderedMap.firstOnes trade platform cardhedger

/-- Each row with the key of one before it has the time and price of one before it. -/
def KeysTellTrades (before : List PlatformTapeFillRow) : List PlatformTapeFillRow → Prop
  | [] => True
  | row :: rows => (tapeKey row ∈ before.map tapeKey → trade row ∈ before.map trade) ∧
      KeysTellTrades (row :: before) rows

variable {platform cardhedger}

theorem tapeKey_of_trade {a b : PlatformTapeFillRow} (h : trade a = trade b) :
    tapeKey a = tapeKey b := by
  obtain ⟨ht, hprice⟩ := Prod.mk.inj h
  unfold tapeKey
  rw [ht, hprice]

theorem mem_keys_of_mem_trades {row : PlatformTapeFillRow} {before : List PlatformTapeFillRow}
    (h : trade row ∈ before.map trade) : tapeKey row ∈ before.map tapeKey := by
  obtain ⟨r, hr, htrade⟩ := List.mem_map.mp h
  exact List.mem_map.mpr ⟨r, hr, tapeKey_of_trade htrade⟩

/-- The keys drop at least the rows that the trades drop, and no others exactly when they tell the
trades apart. -/
theorem firstOnes_tapeKey (before rows : List PlatformTapeFillRow) :
    (KeysTellTrades before rows ∧
        OrderedMap.firstOnes tapeKey before rows = OrderedMap.firstOnes trade before rows) ∨
      (¬ KeysTellTrades before rows ∧ (OrderedMap.firstOnes tapeKey before rows).length <
        (OrderedMap.firstOnes trade before rows).length) := by
  induction rows generalizing before with
  | nil => exact .inl ⟨trivial, rfl⟩
  | cons row rows ih =>
    rw [OrderedMap.firstOnes, OrderedMap.firstOnes, KeysTellTrades]
    by_cases htrade : trade row ∈ before.map trade
    · have hkey := mem_keys_of_mem_trades htrade
      rw [if_pos htrade, if_pos hkey]
      rcases ih (row :: before) with ⟨htells, heq⟩ | ⟨hnot, hlt⟩
      · exact .inl ⟨⟨fun _ => htrade, htells⟩, heq⟩
      · exact .inr ⟨fun h => hnot h.2, hlt⟩
    · rw [if_neg htrade]
      by_cases hkey : tapeKey row ∈ before.map tapeKey
      · rw [if_pos hkey, List.length_cons]
        refine .inr ⟨fun h => htrade (h.1 hkey), ?_⟩
        rcases ih (row :: before) with ⟨-, heq⟩ | ⟨-, hlt⟩
        · rw [heq]
          omega
        · omega
      · rw [if_neg hkey, List.length_cons, List.length_cons]
        rcases ih (row :: before) with ⟨htells, heq⟩ | ⟨hnot, hlt⟩
        · exact .inl ⟨⟨fun h => absurd h hkey, htells⟩, by rw [heq]⟩
        · exact .inr ⟨fun h => hnot h.2, by omega⟩

/-- The rows before that none of the platform fills has the key of. -/
theorem filter_firstOnes (rows before : List PlatformTapeFillRow) :
    (OrderedMap.firstOnes tapeKey before rows).filter
        (fun row => decide (tapeKey row ∉ platform.map tapeKey)) =
      OrderedMap.firstOnes tapeKey (platform ++ before) rows := by
  induction rows generalizing before with
  | nil => rfl
  | cons row rows ih =>
    have hnext : OrderedMap.firstOnes tapeKey (platform ++ row :: before) rows =
        OrderedMap.firstOnes tapeKey (row :: (platform ++ before)) rows := by
      apply OrderedMap.firstOnes_congr
      intro k
      simp only [List.map_append, List.map_cons, List.mem_append, List.mem_cons]
      tauto
    rw [OrderedMap.firstOnes, OrderedMap.firstOnes, List.map_append]
    by_cases hbefore : tapeKey row ∈ before.map tapeKey
    · rw [if_pos hbefore, if_pos (List.mem_append_right _ hbefore), ih, hnext]
    · rw [if_neg hbefore]
      by_cases hplatform : tapeKey row ∈ platform.map tapeKey
      · rw [if_pos (List.mem_append_left _ hplatform), List.filter_cons_of_neg (by simpa using hplatform),
          ih, hnext]
      · have hnone : ¬ tapeKey row ∈ platform.map tapeKey ++ before.map tapeKey := by
          rw [List.mem_append, not_or]
          exact ⟨hplatform, hbefore⟩
        rw [if_neg hnone, List.filter_cons, if_pos (by simpa using hplatform), ih, hnext]

theorem filter_platform (platform cardhedger : List PlatformTapeFillRow) :
    (OrderedMap.firstOnes tapeKey [] cardhedger).filter
        (fun row => decide (tapeKey row ∉ platform.map tapeKey)) =
      OrderedMap.firstOnes tapeKey platform cardhedger := by
  have hfilter : (OrderedMap.firstOnes tapeKey [] cardhedger).filter
        (fun row => decide (tapeKey row ∉ platform.map tapeKey)) =
      OrderedMap.firstOnes tapeKey (platform ++ []) cardhedger := filter_firstOnes cardhedger []
  rw [hfilter, List.append_nil]

theorem entries_cardhedger : (OrderedMap.setNewEach tapeKey .empty cardhedger).entries =
    (OrderedMap.firstOnes tapeKey [] cardhedger).map fun row => (tapeKey row, row) :=
  OrderedMap.entries_setNewEach fun k => by simp [OrderedMap.keys, OrderedMap.empty]

/-- With distinct keys the platform fills are all there, beside the rows that they do not hide. -/
theorem perm_merge (h : (platform.map tapeKey).Nodup) :
    (mergePlatformAndCardhedgerTape platform cardhedger).Perm
      (platform ++ OrderedMap.firstOnes tapeKey platform cardhedger) := by
  have hset := OrderedMap.perm_entries_setEach (m := OrderedMap.setNewEach tapeKey .empty cardhedger) h
  have hentries := hset.map Prod.snd
  rw [List.map_append, List.map_map, entries_cardhedger, List.filter_map, List.map_map] at hentries
  have hrest := filter_platform platform cardhedger
  rw [← hrest]
  refine (List.perm_insertionSort _ _).trans (hentries.trans ?_)
  simp [Function.comp_def]

theorem length_merge : (mergePlatformAndCardhedgerTape platform cardhedger).length =
    (platform.map tapeKey).dedup.length +
      (OrderedMap.firstOnes tapeKey platform cardhedger).length := by
  have hperm : (OrderedMap.setEach tapeKey (OrderedMap.setNewEach tapeKey .empty cardhedger)
      platform).keys.Perm _ := OrderedMap.perm_keys_setEach
  have hkeys := hperm.length_eq
  have hrest := filter_platform platform cardhedger
  rw [← hrest]
  unfold mergePlatformAndCardhedgerTape
  rw [List.length_insertionSort, OrderedMap.values, List.length_map]
  rw [OrderedMap.keys, List.length_map, List.length_append] at hkeys
  rw [hkeys, OrderedMap.keys, entries_cardhedger, List.map_map, List.filter_map, List.length_map]
  refine congrArg _ (congrArg List.length (List.filter_congr fun row _ => ?_))
  simp

/-- The tape is the one that is meant exactly when the keys tell the trades apart. -/
theorem perm_meantTape_iff :
    (mergePlatformAndCardhedgerTape platform cardhedger).Perm (meantTape platform cardhedger) ↔
      (platform.map tapeKey).Nodup ∧ KeysTellTrades platform cardhedger := by
  have hle : (platform.map tapeKey).dedup.length ≤ (platform.map tapeKey).length :=
    (List.dedup_sublist _).length_le
  constructor
  · intro hperm
    have hlength := hperm.length_eq
    rw [length_merge, meantTape, List.length_append] at hlength
    have hmap : (platform.map tapeKey).length = platform.length := List.length_map _
    rcases firstOnes_tapeKey platform cardhedger with ⟨htells, heq⟩ | ⟨-, hlt⟩
    · rw [heq] at hlength
      have hdedup : (platform.map tapeKey).dedup = platform.map tapeKey :=
        (List.dedup_sublist _).eq_of_length (by omega)
      exact ⟨List.dedup_eq_self.mp hdedup, htells⟩
    · omega
  · rintro ⟨hnodup, htells⟩
    rcases firstOnes_tapeKey platform cardhedger with ⟨-, heq⟩ | ⟨hnot, -⟩
    · have hperm : (mergePlatformAndCardhedgerTape platform cardhedger).Perm _ := perm_merge hnodup
      rw [heq] at hperm
      exact hperm
    · exact absurd htells hnot

theorem sorted_merge : (mergePlatformAndCardhedgerTape platform cardhedger).Pairwise
    fun a b => b.t ≤ a.t := by
  have htotal : Std.Total fun a b : PlatformTapeFillRow => b.t ≤ a.t := by
    constructor
    intro a b
    exact le_total b.t a.t
  have htrans : IsTrans PlatformTapeFillRow fun a b => b.t ≤ a.t := by
    constructor
    intro a b c hab hbc
    exact le_trans hbc hab
  exact List.pairwise_insertionSort _ _

end Merge

section Volume
variable {trades : List PlatformTapeFillRow} {nowSec : ℚ}

def isPlatform (row : PlatformTapeFillRow) : Bool := row.source ≠ .cardhedger

structure CountsOf (stats : TradesVolumeWindowStats) (rows : List PlatformTapeFillRow) : Prop where
  trades : stats.tradeCount = rows.length
  platform : stats.platformCount = rows.countP isPlatform
  cardhedger : stats.cardhedgerCount = rows.countP fun row => !isPlatform row

theorem CountsOf.addRow {stats : TradesVolumeWindowStats} {rows : List PlatformTapeFillRow}
    (h : CountsOf stats rows) (row : PlatformTapeFillRow) :
    CountsOf (addRowToWindowStats stats row) (rows ++ [row]) := by
  unfold addRowToWindowStats
  by_cases hsource : row.source = .cardhedger
  · constructor <;> simp [isPlatform, hsource, h.trades, h.platform, h.cardhedger]
  · constructor <;> simp [isPlatform, hsource, h.trades, h.platform, h.cardhedger]

def inWindow (nowSec : ℚ) (key : TradesVolumeWindowKey) (row : PlatformTapeFillRow) : Bool :=
  isVolumeCountableTapeRow row && decide (cutoff nowSec key ≤ row.t)

theorem counts_foldl (done : List PlatformTapeFillRow) (stats : CollectionTradesVolumeStats)
    (htotal : CountsOf stats.total (done.filter isVolumeCountableTapeRow))
    (hwindows : ∀ key, CountsOf (stats.windows key) (done.filter (inWindow nowSec key))) :
    CountsOf (trades.foldl (countRow nowSec) stats).total
        ((done ++ trades).filter isVolumeCountableTapeRow) ∧
      ∀ key, CountsOf ((trades.foldl (countRow nowSec) stats).windows key)
        ((done ++ trades).filter (inWindow nowSec key)) := by
  induction trades generalizing done stats with
  | nil =>
    rw [List.append_nil]
    exact ⟨htotal, hwindows⟩
  | cons row trades ih =>
    have hsplit : done ++ row :: trades = (done ++ [row]) ++ trades := by
      rw [List.append_assoc]
      rfl
    rw [hsplit, List.foldl_cons]
    by_cases hcount : isVolumeCountableTapeRow row = true
    · have hstep : countRow nowSec stats row =
          { total := addRowToWindowStats stats.total row
            windows := fun key =>
              if row.t ≥ cutoff nowSec key then addRowToWindowStats (stats.windows key) row
              else stats.windows key } := by
        unfold countRow
        rw [hcount]
        rfl
      rw [hstep]
      apply ih
      · rw [List.filter_append, List.filter_cons_of_pos hcount, List.filter_nil]
        exact htotal.addRow row
      · intro key
        dsimp only
        rw [List.filter_append]
        by_cases hreach : row.t ≥ cutoff nowSec key
        · have hin : inWindow nowSec key row = true := by simp [inWindow, hcount, hreach]
          rw [if_pos hreach, List.filter_cons_of_pos hin, List.filter_nil]
          exact (hwindows key).addRow row
        · have hout : ¬ inWindow nowSec key row = true := by simp [inWindow, hcount, hreach]
          rw [if_neg hreach, List.filter_cons_of_neg hout, List.filter_nil, List.append_nil]
          exact hwindows key
    · have hstep : countRow nowSec stats row = stats := by
        unfold countRow
        rw [Bool.not_eq_true] at hcount
        rw [hcount]
        rfl
      rw [hstep]
      apply ih
      · rw [List.filter_append, List.filter_cons_of_neg hcount, List.filter_nil, List.append_nil]
        exact htotal
      · intro key
        have hout : ¬ inWindow nowSec key row = true := by simp [inWindow, hcount]
        rw [List.filter_append, List.filter_cons_of_neg hout, List.filter_nil, List.append_nil]
        exact hwindows key

theorem counts_compute (trades : List PlatformTapeFillRow) (nowSec : ℚ) :
    CountsOf (computeCollectionTradesVolumeStats trades nowSec).total
        (trades.filter isVolumeCountableTapeRow) ∧
      ∀ key, CountsOf ((computeCollectionTradesVolumeStats trades nowSec).windows key)
        (trades.filter (inWindow nowSec key)) :=
  counts_foldl [] ⟨fun _ => {}, {}⟩ ⟨rfl, rfl, rfl⟩ fun _ => ⟨rfl, rfl, rfl⟩

def isPositive (row : PlatformTapeFillRow) : Bool :=
  match row.priceUsdc with
  | .finite price => 0 < price
  | _ => false

theorem countable_of_platform {row : PlatformTapeFillRow} (h : row.source = .platform) :
    isVolumeCountableTapeRow row = isPositive row := by
  unfold isVolumeCountableTapeRow isPositive
  cases row.priceUsdc with
  | finite price =>
    dsimp only
    by_cases hprice : price ≤ 0
    · rw [if_pos hprice]
      exact (decide_eq_false (not_lt.mpr hprice)).symm
    · rw [if_neg hprice, h]
      exact (decide_eq_true (not_le.mp hprice)).symm
  | infinite _ => rfl
  | nan => rfl

theorem cutoff_anti {key key' : TradesVolumeWindowKey} (h : key.days ≤ key'.days) :
    cutoff nowSec key' ≤ cutoff nowSec key := by
  unfold cutoff secDay
  have hdays : (key.days : ℚ) ≤ key'.days := Nat.cast_le.mpr h
  linarith

theorem inWindow_mono {key key' : TradesVolumeWindowKey} (h : key.days ≤ key'.days)
    {row : PlatformTapeFillRow} (hrow : inWindow nowSec key row = true) :
    inWindow nowSec key' row = true := by
  unfold inWindow at hrow ⊢
  rw [Bool.and_eq_true, decide_eq_true_eq] at hrow ⊢
  exact ⟨hrow.1, (cutoff_anti h).trans hrow.2⟩

/-- A longer window counts at least as much. -/
theorem windows_mono (trades : List PlatformTapeFillRow) (nowSec : ℚ)
    {key key' : TradesVolumeWindowKey} (h : key.days ≤ key'.days) :
    let windows := (computeCollectionTradesVolumeStats trades nowSec).windows
    (windows key).tradeCount ≤ (windows key').tradeCount ∧
      (windows key).platformCount ≤ (windows key').platformCount ∧
      (windows key).cardhedgerCount ≤ (windows key').cardhedgerCount := by
  have hcounts := (counts_compute trades nowSec).2
  have hsub : (trades.filter (inWindow nowSec key)).Sublist (trades.filter (inWindow nowSec key')) :=
    List.monotone_filter_right trades fun row hrow => inWindow_mono h hrow
  dsimp only
  rw [(hcounts key).trades, (hcounts key').trades, (hcounts key).platform, (hcounts key').platform,
    (hcounts key).cardhedger, (hcounts key').cardhedger]
  exact ⟨hsub.length_le, hsub.countP_le, hsub.countP_le⟩

variable {platform cardhedger : List PlatformTapeFillRow}

/-- On the tape that is meant, the platform fills are counted that the statistics are about. -/
theorem countP_meantTape (hplatform : ∀ row ∈ platform, row.source = .platform)
    (hcardhedger : ∀ row ∈ cardhedger, row.source = .cardhedger)
    (p : PlatformTapeFillRow → Bool) {tape : List PlatformTapeFillRow}
    (htape : tape.Perm (meantTape platform cardhedger)) :
    (tape.filter p).countP isPlatform = platform.countP p := by
  have hfills : ∀ row ∈ platform, isPlatform row = true := fun row hrow => by
    unfold isPlatform
    rw [hplatform row hrow]
    rfl
  have hothers : ∀ row ∈ OrderedMap.firstOnes trade platform cardhedger,
      isPlatform row = false := fun row hrow => by
    unfold isPlatform
    rw [hcardhedger row ((OrderedMap.firstOnes_sublist _ _ _).subset hrow)]
    rfl
  rw [List.countP_filter, htape.countP_eq, meantTape, List.countP_append]
  have hsecond : (OrderedMap.firstOnes trade platform cardhedger).countP
      (fun row => isPlatform row && p row) = 0 := by
    rw [List.countP_eq_zero]
    intro row hrow
    rw [hothers row hrow]
    exact Bool.false_ne_true
  rw [hsecond, Nat.add_zero]
  apply List.countP_congr
  intro row hrow
  rw [hfills row hrow, Bool.true_and]

/-- The tape is newest first and the counts of its windows grow with them; it is the tape that is
meant, and every platform fill with a positive price is counted once wherever it belongs, exactly when
no two platform fills have one time and rounded price and no Cardhedger row has those of a fill or an
earlier row without its exact time and price. -/
theorem merged_tape (platform cardhedger : List PlatformTapeFillRow)
    (hplatform : ∀ row ∈ platform, row.source = .platform)
    (hcardhedger : ∀ row ∈ cardhedger, row.source = .cardhedger) (nowSec : ℚ) :
    let tape := mergePlatformAndCardhedgerTape platform cardhedger
    let stats := computeCollectionTradesVolumeStats tape nowSec
    (tape.Pairwise fun a b => b.t ≤ a.t) ∧
      (∀ key key', TradesVolumeWindowKey.days key ≤ TradesVolumeWindowKey.days key' →
        (stats.windows key).tradeCount ≤ (stats.windows key').tradeCount ∧
        (stats.windows key).platformCount ≤ (stats.windows key').platformCount ∧
        (stats.windows key).cardhedgerCount ≤ (stats.windows key').cardhedgerCount) ∧
      ((tape.Perm (meantTape platform cardhedger) ∧
          stats.total.platformCount = platform.countP isPositive ∧
          ∀ key, (stats.windows key).platformCount =
            platform.countP fun row => isPositive row && decide (cutoff nowSec key ≤ row.t)) ↔
        (platform.map tapeKey).Nodup ∧ KeysTellTrades platform cardhedger) := by
  dsimp only
  refine ⟨sorted_merge, fun key key' h => windows_mono _ nowSec h, fun h => perm_meantTape_iff.mp h.1,
    fun h => ?_⟩
  have htape := perm_meantTape_iff.mpr h
  have hcounts := counts_compute (mergePlatformAndCardhedgerTape platform cardhedger) nowSec
  refine ⟨htape, ?_, fun key => ?_⟩
  · rw [hcounts.1.platform, countP_meantTape hplatform hcardhedger _ htape]
    apply List.countP_congr
    intro row hrow
    rw [countable_of_platform (hplatform row hrow)]
  · rw [(hcounts.2 key).platform, countP_meantTape hplatform hcardhedger _ htape]
    apply List.countP_congr
    intro row hrow
    rw [inWindow, countable_of_platform (hplatform row hrow)]

def fillOf (t price : ℚ) (orderHash : String) : PlatformTapeFillRow where
  t := t
  priceUsdc := .finite price
  tokenId := js "7"
  orderHash := js orderHash
  source := .platform

def saleOf (t price : ℚ) : PlatformTapeFillRow :=
  { fillOf t price "cardhedger:1:0" with source := .cardhedger }

/-- A fill of each of two days, the older of which Cardhedger has too, and a sale of its own: the
two fills stay, and the shorter window counts one of them. -/
theorem merged_tape_two :
    let platform := [fillOf 900000 5 "0xa", fillOf 100 5 "0xb"]
    let cardhedger := [saleOf 100 5, saleOf 800000 4]
    let tape := mergePlatformAndCardhedgerTape platform cardhedger
    let stats := computeCollectionTradesVolumeStats tape 1000000
    (tape.Pairwise fun a b => b.t ≤ a.t) ∧
      (stats.windows .d7).tradeCount ≤ (stats.windows .d30).tradeCount ∧
      tape.Perm (platform ++ [saleOf 800000 4]) ∧ stats.total.platformCount = 2 ∧
      (stats.windows .d7).platformCount = 1 := by
  intro platform cardhedger tape stats
  obtain ⟨horder, hgrows, hmeant⟩ := merged_tape platform cardhedger (by decide) (by decide) 1000000
  obtain ⟨hperm, htotal, hwindow⟩ := hmeant.mpr ⟨by decide +kernel, by decide +kernel, by decide +kernel,
    trivial⟩
  have hkept : meantTape platform cardhedger = platform ++ [saleOf 800000 4] := by decide +kernel
  rw [hkept] at hperm
  refine ⟨horder, (hgrows .d7 .d30 (by decide)).1, hperm, htotal.trans (by decide +kernel), ?_⟩
  exact (hwindow .d7).trans (by decide +kernel)

/-- Two fills of one second at one price: the first is lost. -/
theorem fills_of_one_second : mergePlatformAndCardhedgerTape
    [fillOf 100 5 "0xa", fillOf 100 5 "0xb"] [] = [fillOf 100 5 "0xb"] := by
  decide +kernel

end Volume

end TradeTape
