import Mathlib.Data.List.Dedup
import Mathlib.Data.List.Forall2
import Tokenable.Js.Json
import Tokenable.Js.OrderedMap

/-!
# Price lists as delimited text

The readers of price-list files and of the two manual tables that an admin uploads: the lines of a
file, their fields, and the rows that they give. Doubles are those of `Numbers`, with what the prices
need besides.
-/

namespace Pricecharting
open Js

structure Doubles (F : Type) extends Numbers F where
  /-- `Number(text)` -/
  number : JsStr → F
  neg : F → F
  /-- `x * 100` -/
  hundredfold : F → F

section Fields

inductive Delimiter where
  | tab
  | comma
  deriving DecidableEq

def Delimiter.char : Delimiter → Char
  | tab => '\t'
  | comma => ','

def quote : Char := '\x22'

/-- The commas outside quotes. -/
def countCommas : Bool → JsStr → ℕ
  | _, [] => 0
  | inQuotes, ch :: line =>
    if ch = quote then countCommas (!inQuotes) line
    else if ch = ',' ∧ inQuotes = false then countCommas inQuotes line + 1
    else countCommas inQuotes line

def detectDelimiter (headerLine : JsStr) : Delimiter :=
  let tabs := (headerLine.splitOn '\t').length
  let commas := countCommas false headerLine
  if tabs > commas + 1 then .tab else .comma

/-- The loop over the characters, with the quote state and the field read so far. -/
def splitFields (delimiter : Char) : Bool → JsStr → JsStr → List JsStr
  | _, cur, [] => [cur]
  | true, cur, [ch] => if ch = quote then [cur] else [cur ++ [ch]]
  | true, cur, ch :: next :: line =>
    if ch = quote then
      if next = quote then splitFields delimiter true (cur ++ [quote]) line
      else splitFields delimiter false cur (next :: line)
    else splitFields delimiter true (cur ++ [ch]) (next :: line)
  | false, cur, ch :: line =>
    if ch = quote then splitFields delimiter true cur line
    else if ch = delimiter then cur :: splitFields delimiter false [] line
    else splitFields delimiter false (cur ++ [ch]) line

def splitDelimitedLine (line : JsStr) (delimiter : Delimiter) : List JsStr :=
  splitFields delimiter.char false [] line

/-- A quoted field: its quotes are doubled. -/
def quoteField (field : JsStr) : JsStr :=
  quote :: (field.flatMap fun ch => if ch = quote then [quote, quote] else [ch]) ++ [quote]

/-- The text of a field, which may be quoted, and has to be when it has a quote or a delimiter. -/
def encodeField (delimiter : Char) (quoted : Bool) (field : JsStr) : JsStr :=
  if quoted = true ∨ quote ∈ field ∨ delimiter ∈ field then quoteField field else field

def encodeLine (delimiter : Char) : List (Bool × JsStr) → JsStr
  | [] => []
  | [f] => encodeField delimiter f.1 f.2
  | f :: g :: fields => encodeField delimiter f.1 f.2 ++ delimiter :: encodeLine delimiter (g :: fields)

variable {delimiter : Char}

/-- A field without quotes and delimiters is read as it stands. -/
theorem splitFields_plain {field : JsStr} (hquote : quote ∉ field) (hdelim : delimiter ∉ field)
    (cur line : JsStr) :
    splitFields delimiter false cur (field ++ line) =
      splitFields delimiter false (cur ++ field) line := by
  induction field generalizing cur with
  | nil => simp
  | cons ch field ih =>
    rw [List.mem_cons, not_or] at hquote hdelim
    have hch : ¬ ch = quote := fun h => hquote.1 h.symm
    have hch' : ¬ ch = delimiter := fun h => hdelim.1 h.symm
    rw [List.cons_append, splitFields, if_neg hch, if_neg hch', ih hquote.2 hdelim.2]
    simp

/-- Between the quotes: a doubled quote is one, and the closing quote is the first that no other
follows. -/
theorem splitFields_quoted (field : JsStr) {line : JsStr} (hline : line.head? ≠ some quote)
    (cur : JsStr) :
    splitFields delimiter true cur
        ((field.flatMap fun ch => if ch = quote then [quote, quote] else [ch]) ++ quote :: line) =
      splitFields delimiter false (cur ++ field) line := by
  induction field generalizing cur with
  | nil =>
    cases line with
    | nil => simp [splitFields]
    | cons next line =>
      have hnext : ¬ next = quote := fun h => hline (by rw [h]; rfl)
      simp [splitFields, hnext]
  | cons ch field ih =>
    rw [List.flatMap_cons, List.append_assoc]
    by_cases hch : ch = quote
    · rw [if_pos hch, List.cons_append, List.cons_append, List.nil_append, splitFields, if_pos rfl,
        if_pos rfl, ih, hch]
      simp
    · rw [if_neg hch, List.cons_append, List.nil_append]
      have hnext : ∀ rest : JsStr, rest ≠ [] → splitFields delimiter true cur (ch :: rest) =
          splitFields delimiter true (cur ++ [ch]) rest := by
        intro rest hrest
        obtain ⟨d, rest, rfl⟩ := List.exists_cons_of_ne_nil hrest
        rw [splitFields, if_neg hch]
      rw [hnext _ (by simp), ih]
      simp

theorem splitFields_encodeField (quoted : Bool) (field : JsStr) {line : JsStr}
    (hline : line.head? ≠ some quote) :
    splitFields delimiter false [] (encodeField delimiter quoted field ++ line) =
      splitFields delimiter false field line := by
  unfold encodeField
  by_cases h : quoted = true ∨ quote ∈ field ∨ delimiter ∈ field
  · rw [if_pos h]
    have hquoted : splitFields delimiter true [] _ = splitFields delimiter false _ line :=
      splitFields_quoted field hline []
    rw [List.nil_append] at hquoted
    rw [quoteField, List.cons_append, List.cons_append, List.append_assoc, splitFields, if_pos rfl]
    exact hquoted
  · rw [if_neg h]
    rw [not_or, not_or] at h
    rw [splitFields_plain h.2.1 h.2.2, List.nil_append]

/-- Reading a line gives back the fields that were written. -/
theorem splitFields_encodeLine (hdelim : delimiter ≠ quote) {fields : List (Bool × JsStr)}
    (hne : fields ≠ []) :
    splitFields delimiter false [] (encodeLine delimiter fields) = fields.map Prod.snd := by
  induction fields with
  | nil => exact absurd rfl hne
  | cons f fields ih =>
    cases fields with
    | nil =>
      have hlast : splitFields delimiter false [] (encodeField delimiter f.1 f.2 ++ []) = _ :=
        splitFields_encodeField f.1 f.2 (by simp)
      rw [List.append_nil] at hlast
      rw [encodeLine, hlast]
      rfl
    | cons g fields =>
      have hhead : (delimiter :: encodeLine delimiter (g :: fields)).head? ≠ some quote :=
        fun h => hdelim (Option.some.inj h)
      rw [encodeLine, splitFields_encodeField f.1 f.2 hhead, splitFields, if_neg hdelim, if_pos rfl,
        ih (List.cons_ne_nil g fields)]
      rfl

end Fields

section Lines

def stripByteOrderMark : JsStr → JsStr
  | [] => []
  | c :: text => if c = '\uFEFF' then text else c :: text

/-- `.replace(/\r\n/g, '\n')` -/
def replaceCrLf : JsStr → JsStr
  | [] => []
  | [c] => [c]
  | c :: d :: text =>
    if c = '\r' ∧ d = '\n' then '\n' :: replaceCrLf text else c :: replaceCrLf (d :: text)

/-- `.replace(/\r/g, '\n')` -/
def replaceCr (text : JsStr) : JsStr := text.map fun c => if c = '\r' then '\n' else c

def fileLines (text : JsStr) : List JsStr :=
  (replaceCr (replaceCrLf (stripByteOrderMark text))).splitOn '\n'

def nonBlank (line : JsStr) : Bool := !(trim line).isEmpty

def lines (text : JsStr) : List JsStr := (fileLines text).filter nonBlank

/-- The line at index `i` with the number `i + 1` that the loops report for it. -/
def countedLines (text : JsStr) : List (JsStr × ℕ) := (lines text).zipIdx 1

def headersOf (headerLine : JsStr) : List JsStr :=
  (splitDelimitedLine headerLine (detectDelimiter headerLine)).map fun h => lower (trim h)

end Lines

section Cells
variable {F : Type} (D : Doubles F)

def pgIntMax : F := D.ofNat 2147483647

/-- `value > PG_INT_MAX || value < -PG_INT_MAX - 1` -/
def outOfRange (value : F) : Bool :=
  D.lt (pgIntMax D) value || D.lt value (D.neg (D.ofNat 2147483648))

def usdToCents (raw : JsStr) : Option F :=
  let s := trim raw
  if s.isEmpty ∨ s = js "-" ∨ s = js "—" then none
  else
    let n := D.number (s.filter fun c => !(c = '$' || c = ',' || isSpace c))
    if D.isFinite n then
      let cents := D.round (D.hundredfold n)
      if outOfRange D cents then none else some cents
    else none

def intOrNull (raw : JsStr) : Option F :=
  let s := (trim raw).filter (· ≠ ',')
  if s.isEmpty then none
  else
    let n := D.number s
    if D.isFinite n then
      let value := D.trunc n
      if outOfRange D value then none else some value
    else none

def blankToNull (raw : JsStr) : Option JsStr := if (trim raw).isEmpty then none else some (trim raw)

/-- `/^\d{4}-\d{2}-\d{2}$/.test(s)` -/
def isDay (s : JsStr) : Bool :=
  s.length = 10 && s.zipIdx.all fun e => if e.2 = 4 ∨ e.2 = 7 then e.1 = '-' else e.1.isDigit

def dateOrNull (raw : JsStr) : Option JsStr := if isDay (trim raw) then some (trim raw) else none

end Cells

section Prices

/-- The price headers and the columns in cents; the price of a PSA 10 is `manual-only-price`. -/
def priceHeaderToColumn : List (JsStr × JsStr) := [
  (js "loose-price", js "loose_price_cents"),
  (js "cib-price", js "cib_price_cents"),
  (js "new-price", js "new_price_cents"),
  (js "graded-price", js "graded_price_cents"),
  (js "box-only-price", js "box_only_price_cents"),
  (js "manual-only-price", js "manual_only_price_cents"),
  (js "bgs-10-price", js "bgs_10_price_cents"),
  (js "condition-9-price", js "condition_9_price_cents"),
  (js "condition-10-price", js "condition_10_price_cents"),
  (js "condition-13-price", js "condition_13_price_cents"),
  (js "condition-14-price", js "condition_14_price_cents"),
  (js "condition-15-price", js "condition_15_price_cents"),
  (js "condition-16-price", js "condition_16_price_cents"),
  (js "condition-17-price", js "condition_17_price_cents"),
  (js "condition-18-price", js "condition_18_price_cents"),
  (js "condition-19-price", js "condition_19_price_cents"),
  (js "condition-20-price", js "condition_20_price_cents"),
  (js "condition-21-price", js "condition_21_price_cents"),
  (js "condition-22-price", js "condition_22_price_cents"),
  (js "gamestop-price", js "gamestop_price_cents"),
  (js "gamestop-trade-price", js "gamestop_trade_price_cents"),
  (js "retail-loose-buy", js "retail_loose_buy_cents"),
  (js "retail-loose-sell", js "retail_loose_sell_cents"),
  (js "retail-cib-buy", js "retail_cib_buy_cents"),
  (js "retail-cib-sell", js "retail_cib_sell_cents"),
  (js "retail-new-buy", js "retail_new_buy_cents"),
  (js "retail-new-sell", js "retail_new_sell_cents")]

def priceColumns : List JsStr := priceHeaderToColumn.map Prod.snd

/-- The property of the table under a key: `constructor` is one that every object has, and stands
for its text when it is used as a key. -/
def columnOfHeader (key : JsStr) : Option JsStr :=
  if key = js "constructor" then some (js "function Object() \x7b [native code] \x7d")
  else (priceHeaderToColumn.find? fun e => e.1 = key).map Prod.snd

/-- `.replace(/[\s-]+/g, '_')` -/
def underscoreRuns : Bool → JsStr → JsStr
  | _, [] => []
  | inRun, c :: s =>
    if isSpace c ∨ c = '-' then
      if inRun then underscoreRuns true s else '_' :: underscoreRuns true s
    else c :: underscoreRuns false s

def resolveManualHistoryCsvPriceColumn (header : JsStr) : Option JsStr :=
  let raw := lower (trim header)
  let underscored := underscoreRuns false raw
  let hyphen := underscored.map fun c => if c = '_' then '-' else c
  if raw.isEmpty then none
  else if underscored ∈ priceColumns then some underscored
  else if underscored ++ js "_cents" ∈ priceColumns then some (underscored ++ js "_cents")
  else
    match columnOfHeader hyphen with
    | some column => some column
    | none => columnOfHeader (hyphen ++ js "-price")

end Prices

/-- A file that is rejected as a whole, or for one of its lines. -/
inductive CsvError where
  | file (message : JsStr)
  | line (number : ℕ) (message : JsStr)
  deriving DecidableEq

def CsvError.text : CsvError → JsStr
  | file message => message
  | line number message => js "line " ++ ofNat number ++ js ": " ++ message

/-- The header line and the data lines of a file that has both. -/
def withHeader : List (JsStr × ℕ) → Except CsvError (JsStr × List (JsStr × ℕ))
  | (header, _) :: line :: rest => .ok (header, line :: rest)
  | _ => .error (.file (js "CSV needs a header row and at least one data row"))

/-- The index of the first header that is one of the given names. -/
def indexOf (headers : List JsStr) (names : List String) : Option ℕ :=
  headers.findIdx? fun h => names.any fun name => h = js name

section History

structure ManualHistoryCsvRow where
  line : ℕ
  productId : JsStr
  observedOn : JsStr
  prices : OrderedMap JsStr JsStr

structure HistoryColumns where
  delimiter : Delimiter
  productIdx : ℕ
  dateIdx : ℕ
  priceCols : List (ℕ × JsStr)

def historyColumns (headerLine : JsStr) : Except CsvError HistoryColumns :=
  let headers := headersOf headerLine
  match indexOf headers ["product_id", "id", "product-id"],
    indexOf headers ["observed_on", "observed-on", "date", "day"] with
  | some productIdx, some dateIdx =>
    let priceCols := headers.zipIdx.filterMap fun e =>
      if e.2 = productIdx ∨ e.2 = dateIdx then none
      else (resolveManualHistoryCsvPriceColumn e.1).map fun column => (e.2, column)
    if priceCols.isEmpty then
      .error (.file (js "CSV needs at least one price column (e.g. loose_price)"))
    else .ok ⟨detectDelimiter headerLine, productIdx, dateIdx, priceCols⟩
  | _, _ => .error (.file
      (js "CSV header must include product_id (or id) and observed_on (or date)"))

/-- The row of a line, unless its product and its day are blank. -/
def HistoryColumns.row (c : HistoryColumns) (line : JsStr) (number : ℕ) :
    Option ManualHistoryCsvRow :=
  let cols := splitDelimitedLine line c.delimiter
  let productId := trim (cols.getD c.productIdx [])
  let observedOn := trim (cols.getD c.dateIdx [])
  if productId.isEmpty ∧ observedOn.isEmpty then none
  else
    some
      { line := number
        productId := productId
        observedOn := observedOn
        prices := c.priceCols.foldl (fun prices e =>
          let value := trim (cols.getD e.1 [])
          if value.isEmpty then prices else prices.set e.2 value) .empty }

def parseManualHistoryCsv (text : JsStr) : Except CsvError (List ManualHistoryCsvRow) := do
  let (headerLine, data) ← withHeader (countedLines text)
  let columns ← historyColumns headerLine
  return data.filterMap fun e => columns.row e.1 e.2

end History

section Trades
variable {F : Type} (D : Doubles F)

structure ManualTradeCsvRow (F : Type) where
  line : ℕ
  productId : JsStr
  tradedOn : JsStr
  priceCents : F
  marketplace : JsStr
  saleType : JsStr
  saleUrl : Option JsStr

structure TradeColumns where
  delimiter : Delimiter
  productIdx : ℕ
  dateIdx : ℕ
  priceIdx : ℕ
  marketplaceIdx : Option ℕ
  saleTypeIdx : Option ℕ
  saleUrlIdx : Option ℕ

def tradeColumns (headerLine : JsStr) : Except CsvError TradeColumns :=
  let headers := headersOf headerLine
  match indexOf headers ["product_id", "id", "product-id"],
    indexOf headers ["traded_on", "traded-on", "observed_on", "observed-on", "date", "day"],
    indexOf headers ["price", "loose_price", "loose-price", "sold_price", "sold-price"] with
  | some productIdx, some dateIdx, some priceIdx =>
    .ok
      { delimiter := detectDelimiter headerLine
        productIdx := productIdx
        dateIdx := dateIdx
        priceIdx := priceIdx
        marketplaceIdx := indexOf headers ["source", "marketplace", "platform", "sale_platform"]
        saleTypeIdx := indexOf headers ["sale_type", "sale-type", "type"]
        saleUrlIdx := indexOf headers ["sale_url", "sale-url", "url"] }
  | _, _, _ => .error (.file
      (js "CSV header must include product_id, traded_on (or date), and price"))

/-- An optional cell, or the default when it is missing or blank. -/
def cellOr (fallback : JsStr) (cols : List JsStr) (idx : Option ℕ) : JsStr :=
  match idx with
  | some i => if (trim (cols.getD i [])).isEmpty then fallback else trim (cols.getD i [])
  | none => fallback

def TradeColumns.row (c : TradeColumns) (line : JsStr) (number : ℕ) :
    Except CsvError (Option (ManualTradeCsvRow F)) :=
  let cols := splitDelimitedLine line c.delimiter
  let productId := trim (cols.getD c.productIdx [])
  let tradedOn := trim (cols.getD c.dateIdx [])
  if productId.isEmpty ∧ tradedOn.isEmpty then .ok none
  else
    match (usdToCents D (cols.getD c.priceIdx [])).filter fun p => D.lt (D.ofNat 0) p with
    | none => .error (.line number (js "price must be a positive dollar amount"))
    | some priceCents =>
      if !isDigits productId then .error (.line number (js "product_id must be numeric"))
      else if !isDay tradedOn then .error (.line number (js "traded_on must be YYYY-MM-DD"))
      else
        let saleUrlRaw := cellOr [] cols c.saleUrlIdx
        .ok (some
          { line := number
            productId := productId
            tradedOn := tradedOn
            priceCents := priceCents
            marketplace := (cellOr (js "eBay") cols c.marketplaceIdx).take 64
            saleType := (cellOr (js "Buy It Now") cols c.saleTypeIdx).take 64
            saleUrl := if saleUrlRaw.isEmpty then none else some (saleUrlRaw.take 2000) })

/-- The loop over the data lines, which ends at the first that is rejected. -/
def TradeColumns.rows (c : TradeColumns) :
    List (JsStr × ℕ) → Except CsvError (List (ManualTradeCsvRow F))
  | [] => .ok []
  | e :: data => do
    let row ← c.row D e.1 e.2
    let rows ← c.rows data
    return row.toList ++ rows

def parseManualTradesCsv (text : JsStr) : Except CsvError (List (ManualTradeCsvRow F)) := do
  let (headerLine, data) ← withHeader (countedLines text)
  let columns ← tradeColumns headerLine
  columns.rows D data

end Trades

section PriceList
variable {F : Type} (D : Doubles F)

structure PricechartingCsvRow (F : Type) where
  id : JsStr
  consoleName : JsStr
  productName : JsStr
  prices : List (JsStr × Option F)
  upc : Option JsStr
  salesVolume : Option F
  genre : Option JsStr
  tcgId : Option JsStr
  asin : Option JsStr
  epid : Option JsStr
  releaseDate : Option JsStr

structure ParsedPricechartingCsv (F : Type) where
  rows : List (PricechartingCsvRow F)
  skipped : ℕ
  genres : OrderedMap JsStr ℕ

/-- The last column of each header. -/
def headerIndex (headers : List JsStr) : OrderedMap JsStr ℕ :=
  headers.zipIdx.foldl (fun index e => if e.1.isEmpty then index else index.set e.1 e.2) .empty

def cell (index : OrderedMap JsStr ℕ) (cols : List JsStr) (header : JsStr) : JsStr :=
  match index.get? header with
  | none => []
  | some i => cols.getD i []

/-- The row of a line, unless its id is not numeric. -/
def dataRow (index : OrderedMap JsStr ℕ) (cols : List JsStr) : Option (PricechartingCsvRow F) :=
  let id := trim (cell index cols (js "id"))
  if !isDigits id then none
  else
    some
      { id := id
        consoleName := trim (cell index cols (js "console-name"))
        productName := trim (cell index cols (js "product-name"))
        prices := priceHeaderToColumn.map fun e => (e.2, usdToCents D (cell index cols e.1))
        upc := blankToNull (cell index cols (js "upc"))
        salesVolume := intOrNull D (cell index cols (js "sales-volume"))
        genre := blankToNull (cell index cols (js "genre"))
        tcgId := blankToNull (cell index cols (js "tcg-id"))
        asin := blankToNull (cell index cols (js "asin"))
        epid := blankToNull (cell index cols (js "epid"))
        releaseDate := dateOrNull (cell index cols (js "release-date")) }

/-- One step of the loop: the row is stored under its id, or the line is skipped. -/
def addLine (rowOf : JsStr → Option (PricechartingCsvRow F))
    (s : OrderedMap JsStr (PricechartingCsvRow F) × ℕ) (line : JsStr) :
    OrderedMap JsStr (PricechartingCsvRow F) × ℕ :=
  match rowOf line with
  | none => (s.1, s.2 + 1)
  | some row => (s.1.set row.id row, s.2)

def countGenre (genres : OrderedMap JsStr ℕ) (row : PricechartingCsvRow F) : OrderedMap JsStr ℕ :=
  let key := row.genre.getD (js "(blank)")
  genres.set key ((genres.get? key).getD 0 + 1)

def parsePricechartingCsv (text : JsStr) : Except CsvError (ParsedPricechartingCsv F) :=
  match lines text with
  | headerLine :: line :: rest =>
    let delimiter := detectDelimiter headerLine
    let index := headerIndex (headersOf headerLine)
    if (index.get? (js "id")).isNone ∨ (index.get? (js "product-name")).isNone then
      .error (.file (js "CSV header must include id and product-name"))
    else
      let (byId, skipped) := (line :: rest).foldl
        (addLine fun line => dataRow D index (splitDelimitedLine line delimiter)) (.empty, 0)
      .ok ⟨byId.values, skipped, byId.values.foldl countGenre .empty⟩
  | _ => .ok ⟨[], 0, .empty⟩

end PriceList

end Pricecharting
