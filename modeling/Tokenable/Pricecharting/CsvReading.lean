import Tokenable.Pricecharting.Csv

/-!
# What the readers keep and report

A line is read back as it was written, the last row of each product is kept, and a line number that a
reader reports is right when no blank line stands before that line.
-/

namespace Pricecharting
open Js

section PriceList
variable {F : Type} (D : Doubles F)

/-- The rows of the data lines that have a numeric id, in the order of the file. -/
def validRows (text : JsStr) : List (PricechartingCsvRow F) :=
  match lines text with
  | [] => []
  | headerLine :: data => data.filterMap fun line =>
    dataRow D (headerIndex (headersOf headerLine))
      (splitDelimitedLine line (detectDelimiter headerLine))

/-- The rows whose id comes again in a later row. -/
def overwritten : List (PricechartingCsvRow F) → ℕ
  | [] => 0
  | row :: rows => (if row.id ∈ rows.map PricechartingCsvRow.id then 1 else 0) + overwritten rows

theorem dedup_add_overwritten (rows : List (PricechartingCsvRow F)) :
    (rows.map PricechartingCsvRow.id).dedup.length + overwritten rows = rows.length := by
  induction rows with
  | nil => rfl
  | cons row rows ih =>
    rw [List.map_cons, overwritten, List.length_cons]
    by_cases h : row.id ∈ rows.map PricechartingCsvRow.id
    · rw [List.dedup_cons_of_mem h, if_pos h]
      omega
    · rw [List.dedup_cons_of_notMem h, if_neg h, List.length_cons]
      omega

/-- The loop stores the rows of the valid lines one after the other and counts the others. -/
theorem foldl_addLine (rowOf : JsStr → Option (PricechartingCsvRow F)) (data : List JsStr)
    (m : OrderedMap JsStr (PricechartingCsvRow F)) (n : ℕ) :
    data.foldl (addLine rowOf) (m, n) =
      (OrderedMap.setEach PricechartingCsvRow.id m (data.filterMap rowOf),
        n + (data.length - (data.filterMap rowOf).length)) := by
  induction data generalizing m n with
  | nil => rfl
  | cons line data ih =>
    have hle : (data.filterMap rowOf).length ≤ data.length := List.length_filterMap_le rowOf data
    rw [List.foldl_cons, addLine]
    cases hrow : rowOf line with
    | none =>
      rw [ih, List.filterMap_cons_none hrow, List.length_cons]
      congr 1
      omega
    | some row =>
      rw [ih, List.filterMap_cons_some hrow, List.length_cons, List.length_cons]
      congr 1
      omega

/-- What the reader returns: the last valid row of each id, and a count of the other lines. -/
theorem parsePricechartingCsv_spec {text : JsStr} {parsed : ParsedPricechartingCsv F}
    (h : parsePricechartingCsv D text = .ok parsed) :
    (parsed.rows.map PricechartingCsvRow.id).Nodup ∧
      (∀ row, row ∈ parsed.rows ↔
        ((validRows D text).filter fun r => decide (r.id = row.id)).getLast? = some row) ∧
      parsed.rows.length + parsed.skipped + overwritten (validRows D text) =
        (lines text).length - 1 := by
  unfold parsePricechartingCsv at h
  unfold validRows
  cases hlines : lines text with
  | nil =>
    rw [hlines] at h
    obtain rfl := Except.ok.inj h
    exact ⟨List.nodup_nil, fun row => by simp, rfl⟩
  | cons headerLine data =>
    rw [hlines] at h
    cases data with
    | nil =>
      obtain rfl := Except.ok.inj h
      exact ⟨List.nodup_nil, fun row => by simp, rfl⟩
    | cons line rest =>
      dsimp only at h
      split_ifs at h
      rw [foldl_addLine] at h
      obtain rfl := Except.ok.inj h
      dsimp only
      set rows := (line :: rest).filterMap _ with hrows
      have hle : rows.length ≤ (line :: rest).length := List.length_filterMap_le _ _
      have hcount := dedup_add_overwritten rows
      refine ⟨?_, fun row => OrderedMap.mem_values_setEach, ?_⟩
      · rw [OrderedMap.map_key_values_setEach]
        exact OrderedMap.nodup _
      · have hsize : (OrderedMap.setEach PricechartingCsvRow.id .empty rows).values.length =
            (rows.map PricechartingCsvRow.id).dedup.length := by
          rw [OrderedMap.values, List.length_map]
          exact OrderedMap.size_setEach
        have htotal : (headerLine :: line :: rest).length - 1 = (line :: rest).length := rfl
        rw [hsize, htotal]
        omega

end PriceList

section Numbering

/-- The non-blank lines with their numbers in the file. -/
def numberedLines (text : JsStr) : List (JsStr × ℕ) :=
  ((fileLines text).zipIdx 1).filter fun e => nonBlank e.1

def NoBlankBefore (text : JsStr) (number : ℕ) : Prop := ((fileLines text).take number).all nonBlank

/-- A line as the reader counts it and as it stands in the file: the numbers agree when no blank
line comes before. -/
def SameLine (text : JsStr) (a b : JsStr × ℕ) : Prop :=
  a.1 = b.1 ∧ (a.2 = b.2 ↔ NoBlankBefore text b.2)

theorem sameLine_zipIdx {text : JsStr} (before after : List JsStr)
    (h : fileLines text = before ++ after) :
    List.Forall₂ (SameLine text)
      ((after.filter nonBlank).zipIdx ((before.filter nonBlank).length + 1))
      ((after.zipIdx (before.length + 1)).filter fun e => nonBlank e.1) := by
  induction after generalizing before with
  | nil => exact .nil
  | cons line after ih =>
    have hnext := ih (before ++ [line]) (by rw [h, List.append_assoc]; rfl)
    rw [List.filter_append, List.length_append, List.length_append] at hnext
    rw [List.zipIdx_cons]
    by_cases hline : nonBlank line = true
    · rw [List.filter_cons_of_pos hline, List.zipIdx_cons, List.filter_cons_of_pos]
      swap
      · exact hline
      rw [List.filter_cons_of_pos hline] at hnext
      refine .cons ⟨rfl, ?_⟩ hnext
      have htake : (fileLines text).take (before.length + 1) = before ++ [line] := by
        rw [h, List.take_append, List.take_of_length_le (by omega)]
        simp
      dsimp only [NoBlankBefore]
      rw [htake, List.all_append, Bool.and_eq_true, List.all_eq_true, ← List.length_filter_eq_length_iff]
      simp [hline]
    · rw [List.filter_cons_of_neg hline, List.filter_cons_of_neg]
      swap
      · exact hline
      rw [List.filter_cons_of_neg hline] at hnext
      exact hnext

theorem sameLine_counted (text : JsStr) :
    List.Forall₂ (SameLine text) (countedLines text) (numberedLines text) :=
  sameLine_zipIdx [] (fileLines text) rfl

variable {text : JsStr} {ls ns : List (JsStr × ℕ)}

theorem map_snd_eq_iff (h : List.Forall₂ (SameLine text) ls ns) :
    ls.map Prod.snd = ns.map Prod.snd ↔ ∀ e ∈ ns, NoBlankBefore text e.2 := by
  induction h with
  | nil => simp
  | cons hab _ ih =>
    rw [List.map_cons, List.map_cons, List.cons.injEq, ih, hab.2, List.forall_mem_cons]

theorem sameLine_filter (p : JsStr → Bool) (h : List.Forall₂ (SameLine text) ls ns) :
    List.Forall₂ (SameLine text) (ls.filter fun e => p e.1) (ns.filter fun e => p e.1) := by
  refine List.rel_filter (R := SameLine text) ?_ h
  intro a b hab
  dsimp only
  rw [hab.1]

/-- The first line that a test picks is the same in both. -/
theorem sameLine_find? (p : JsStr → Bool) (h : List.Forall₂ (SameLine text) ls ns) :
    ((ls.find? fun e => p e.1) = none ∧ (ns.find? fun e => p e.1) = none) ∨
      ∃ a b, (ls.find? fun e => p e.1) = some a ∧ (ns.find? fun e => p e.1) = some b ∧
        SameLine text a b := by
  induction h with
  | nil => exact .inl ⟨rfl, rfl⟩
  | @cons a b ls ns hab _ ih =>
    by_cases hp : p a.1 = true
    · have hp' : p b.1 = true := by rw [← hab.1, hp]
      exact .inr ⟨a, b, List.find?_cons_of_pos hp, List.find?_cons_of_pos hp', hab⟩
    · have hp' : ¬ p b.1 = true := by rw [← hab.1]; exact hp
      have hls : ((a :: ls).find? fun e => p e.1) = _ := List.find?_cons_of_neg hp
      have hns : ((b :: ns).find? fun e => p e.1) = _ := List.find?_cons_of_neg hp'
      rw [hls, hns]
      exact ih

/-- A file has a header and data lines whichever way they are numbered. -/
theorem sameLine_withHeader (h : List.Forall₂ (SameLine text) ls ns) :
    (∃ e, withHeader ls = .error (.file e) ∧ withHeader ns = .error (.file e)) ∨
      ∃ headerLine data data', withHeader ls = .ok (headerLine, data) ∧
        withHeader ns = .ok (headerLine, data') ∧ List.Forall₂ (SameLine text) data data' := by
  cases h with
  | nil => exact .inl ⟨_, rfl, rfl⟩
  | @cons a b ls ns hab hrest =>
    cases hrest with
    | nil => exact .inl ⟨_, rfl, rfl⟩
    | @cons c d ls ns hcd hrest =>
      refine .inr ⟨a.1, c :: ls, d :: ns, rfl, ?_, .cons hcd hrest⟩
      rw [hab.1]
      rfl

end Numbering

/-- The line numbers that a reader reports: those of its rows, or that of the line it rejects. -/
def reported {ρ : Type} (number : ρ → ℕ) : Except CsvError (List ρ) → List ℕ
  | .ok rows => rows.map number
  | .error (.line n _) => [n]
  | .error (.file _) => []

section History

/-- The lines of the file that the reader of price histories makes rows of. -/
def historyLines (text : JsStr) : List (JsStr × ℕ) :=
  match withHeader (numberedLines text) with
  | .error _ => []
  | .ok (headerLine, data) =>
    match historyColumns headerLine with
    | .error _ => []
    | .ok columns => data.filter fun e => (columns.row e.1 0).isSome

theorem HistoryColumns.row_cases (c : HistoryColumns) (line : JsStr) :
    (∀ number, c.row line number = none) ∨
      ∀ number, ∃ row, c.row line number = some row ∧ row.line = number := by
  unfold HistoryColumns.row
  dsimp only
  by_cases h : (trim ((splitDelimitedLine line c.delimiter).getD c.productIdx [])).isEmpty ∧
      (trim ((splitDelimitedLine line c.delimiter).getD c.dateIdx [])).isEmpty
  · exact .inl fun number => if_pos h
  · exact .inr fun number => ⟨_, if_neg h, rfl⟩

theorem HistoryColumns.map_line (c : HistoryColumns) (data : List (JsStr × ℕ)) :
    (data.filterMap fun e => c.row e.1 e.2).map ManualHistoryCsvRow.line =
      (data.filter fun e => (c.row e.1 0).isSome).map Prod.snd := by
  induction data with
  | nil => rfl
  | cons e data ih =>
    rcases c.row_cases e.1 with hnone | hsome
    · rw [List.filterMap_cons, List.filter_cons, hnone, hnone]
      exact ih
    · obtain ⟨row, hrow, hline⟩ := hsome e.2
      obtain ⟨row', hrow', -⟩ := hsome 0
      rw [List.filterMap_cons, List.filter_cons, hrow, hrow']
      dsimp only [Option.isSome_some]
      rw [if_pos rfl, List.map_cons, List.map_cons, hline, ih]

theorem historyColumns_error {headerLine : JsStr} {e : CsvError}
    (h : historyColumns headerLine = .error e) : ∃ message, e = .file message := by
  unfold historyColumns at h
  dsimp only at h
  split at h
  · split_ifs at h
    exact ⟨_, (Except.error.inj h).symm⟩
  · exact ⟨_, (Except.error.inj h).symm⟩

theorem reported_history (text : JsStr) :
    reported ManualHistoryCsvRow.line (parseManualHistoryCsv text) =
        (historyLines text).map Prod.snd ↔
      ∀ e ∈ historyLines text, NoBlankBefore text e.2 := by
  rcases sameLine_withHeader (sameLine_counted text) with
    ⟨e, hls, hns⟩ | ⟨headerLine, data, data', hls, hns, hdata⟩
  · have hparse : parseManualHistoryCsv text = .error (.file e) := by
      unfold parseManualHistoryCsv
      rw [hls]
      rfl
    have hlines : historyLines text = [] := by
      unfold historyLines
      rw [hns]
    rw [hparse, hlines]
    exact iff_of_true rfl fun e he => by cases he
  · have hlines : historyLines text = match historyColumns headerLine with
        | .error _ => []
        | .ok columns => data'.filter fun e => (columns.row e.1 0).isSome := by
      unfold historyLines
      rw [hns]
    have hparse : parseManualHistoryCsv text = do
        let columns ← historyColumns headerLine
        return data.filterMap fun e => columns.row e.1 e.2 := by
      unfold parseManualHistoryCsv
      rw [hls]
      rfl
    rw [hparse, hlines]
    cases hcolumns : historyColumns headerLine with
    | error e =>
      obtain ⟨message, rfl⟩ := historyColumns_error hcolumns
      exact iff_of_true rfl fun e he => by cases he
    | ok columns =>
      have hsame := sameLine_filter (fun line => (columns.row line 0).isSome) hdata
      have hiff := map_snd_eq_iff hsame
      rw [← columns.map_line] at hiff
      exact hiff

end History

section Trades
variable {F : Type} (D : Doubles F)

def TradeColumns.gives (c : TradeColumns) (line : JsStr) : Bool :=
  match c.row D line 0 with
  | .ok row => row.isSome
  | .error _ => false

def TradeColumns.rejects (c : TradeColumns) (line : JsStr) : Bool :=
  match c.row D line 0 with
  | .ok _ => false
  | .error _ => true

/-- The line that is rejected, or the lines that give rows. -/
def TradeColumns.reports (c : TradeColumns) (data : List (JsStr × ℕ)) : List (JsStr × ℕ) :=
  match data.find? fun e => c.rejects D e.1 with
  | some e => [e]
  | none => data.filter fun e => c.gives D e.1

/-- The lines of the file that the reader of trades makes rows of, or the first that it rejects. -/
def tradeLines (text : JsStr) : List (JsStr × ℕ) :=
  match withHeader (numberedLines text) with
  | .error _ => []
  | .ok (headerLine, data) =>
    match tradeColumns headerLine with
    | .error _ => []
    | .ok columns => columns.reports D data

/-- What a line is made of does not depend on its number. -/
theorem TradeColumns.row_cases (c : TradeColumns) (line : JsStr) :
    (∀ number, c.row D line number = .ok none) ∨
      (∀ number, ∃ row, c.row D line number = .ok (some row) ∧ row.line = number) ∨
      ∀ number, ∃ message, c.row D line number = .error (.line number message) := by
  unfold TradeColumns.row
  dsimp only
  by_cases hblank : (trim ((splitDelimitedLine line c.delimiter).getD c.productIdx [])).isEmpty ∧
      (trim ((splitDelimitedLine line c.delimiter).getD c.dateIdx [])).isEmpty
  · exact .inl fun number => if_pos hblank
  · simp only [if_neg hblank]
    cases ((usdToCents D ((splitDelimitedLine line c.delimiter).getD c.priceIdx [])).filter fun p =>
        D.lt (D.ofNat 0) p) with
    | none => exact .inr (.inr fun number => ⟨_, rfl⟩)
    | some priceCents =>
      dsimp only
      split
      · exact .inr (.inr fun number => ⟨_, rfl⟩)
      · split
        · exact .inr (.inr fun number => ⟨_, rfl⟩)
        · exact .inr (.inl fun number => ⟨_, rfl, rfl⟩)

/-- The loop gives the rows of its lines, or the number of the first line that is rejected. -/
theorem TradeColumns.rows_cases (c : TradeColumns) (data : List (JsStr × ℕ)) :
    ((data.find? fun e => c.rejects D e.1) = none ∧ ∃ rows, c.rows D data = .ok rows ∧
        rows.map ManualTradeCsvRow.line = (data.filter fun e => c.gives D e.1).map Prod.snd) ∨
      ∃ e message, (data.find? fun e => c.rejects D e.1) = some e ∧
        c.rows D data = .error (.line e.2 message) := by
  induction data with
  | nil => exact .inl ⟨rfl, [], rfl, rfl⟩
  | cons e data ih =>
    rw [List.find?_cons, List.filter_cons]
    rcases c.row_cases D e.1 with hnone | hsome | herror
    · have hrejects : c.rejects D e.1 = false := by rw [TradeColumns.rejects, hnone]
      have hgives : c.gives D e.1 = false := by rw [TradeColumns.gives, hnone]; rfl
      have hrows : c.rows D (e :: data) = c.rows D data := by
        rw [TradeColumns.rows, hnone]
        cases c.rows D data <;> rfl
      rw [hrejects, hgives, hrows]
      exact ih
    · obtain ⟨row, hrow, hline⟩ := hsome e.2
      obtain ⟨row', hrow', -⟩ := hsome 0
      have hrejects : c.rejects D e.1 = false := by rw [TradeColumns.rejects, hrow']
      have hgives : c.gives D e.1 = true := by rw [TradeColumns.gives, hrow']; rfl
      rw [hrejects, hgives, TradeColumns.rows, hrow]
      rcases ih with ⟨hfind, rows, hrows, hmap⟩ | ⟨b, message, hfind, hrows⟩
      · refine .inl ⟨hfind, row :: rows, ?_, ?_⟩
        · rw [hrows]
          rfl
        · rw [if_pos rfl, List.map_cons, List.map_cons, hline, hmap]
      · refine .inr ⟨b, message, hfind, ?_⟩
        rw [hrows]
        rfl
    · obtain ⟨message, hrow⟩ := herror e.2
      obtain ⟨message', hrow'⟩ := herror 0
      have hrejects : c.rejects D e.1 = true := by rw [TradeColumns.rejects, hrow']
      rw [hrejects]
      refine .inr ⟨e, message, rfl, ?_⟩
      rw [TradeColumns.rows, hrow]
      rfl

theorem TradeColumns.reported_rows (c : TradeColumns) (data : List (JsStr × ℕ)) :
    reported ManualTradeCsvRow.line (c.rows D data) = (c.reports D data).map Prod.snd := by
  unfold TradeColumns.reports
  rcases c.rows_cases D data with ⟨hfind, rows, hrows, hmap⟩ | ⟨e, message, hfind, hrows⟩
  · rw [hfind, hrows]
    exact hmap
  · rw [hfind, hrows]
    rfl

theorem TradeColumns.sameLine_reports (c : TradeColumns) {text : JsStr} {ls ns : List (JsStr × ℕ)}
    (h : List.Forall₂ (SameLine text) ls ns) :
    List.Forall₂ (SameLine text) (c.reports D ls) (c.reports D ns) := by
  unfold TradeColumns.reports
  rcases sameLine_find? (c.rejects D) h with ⟨hls, hns⟩ | ⟨a, b, hls, hns, hab⟩
  · rw [hls, hns]
    exact sameLine_filter (c.gives D) h
  · rw [hls, hns]
    exact .cons hab .nil

theorem tradeColumns_error {headerLine : JsStr} {e : CsvError}
    (h : tradeColumns headerLine = .error e) : ∃ message, e = .file message := by
  unfold tradeColumns at h
  dsimp only at h
  split at h
  · cases h
  · exact ⟨_, (Except.error.inj h).symm⟩

theorem reported_trades (text : JsStr) :
    reported ManualTradeCsvRow.line (parseManualTradesCsv D text) =
        (tradeLines D text).map Prod.snd ↔
      ∀ e ∈ tradeLines D text, NoBlankBefore text e.2 := by
  rcases sameLine_withHeader (sameLine_counted text) with
    ⟨e, hls, hns⟩ | ⟨headerLine, data, data', hls, hns, hdata⟩
  · have hparse : parseManualTradesCsv D text = .error (.file e) := by
      unfold parseManualTradesCsv
      rw [hls]
      rfl
    have hlines : tradeLines D text = [] := by
      unfold tradeLines
      rw [hns]
    rw [hparse, hlines]
    exact iff_of_true rfl fun e he => by cases he
  · have hlines : tradeLines D text = match tradeColumns headerLine with
        | .error _ => []
        | .ok columns => columns.reports D data' := by
      unfold tradeLines
      rw [hns]
    have hparse : parseManualTradesCsv D text =
        (tradeColumns headerLine >>= fun columns => columns.rows D data) := by
      unfold parseManualTradesCsv
      rw [hls]
      rfl
    rw [hparse, hlines]
    cases hcolumns : tradeColumns headerLine with
    | error e =>
      obtain ⟨message, rfl⟩ := tradeColumns_error hcolumns
      exact iff_of_true rfl fun e he => by cases he
    | ok columns =>
      have hiff := map_snd_eq_iff (columns.sameLine_reports D hdata)
      rw [← columns.reported_rows D data] at hiff
      exact hiff

end Trades

section Reading
variable {F : Type} (D : Doubles F)

/-- A line gives back the fields that it was written from; the price list keeps the last valid row of
each id and accounts for every data line; and either manual reader reports the right line numbers if
and only if no blank line stands before a line that it reports. -/
theorem csv_reading (delimiter : Delimiter) (fields : List (Bool × JsStr)) (hne : fields ≠ [])
    (text : JsStr) :
    splitDelimitedLine (encodeLine delimiter.char fields) delimiter = fields.map Prod.snd ∧
      (∀ parsed, parsePricechartingCsv D text = .ok parsed →
        (parsed.rows.map PricechartingCsvRow.id).Nodup ∧
        (∀ row, row ∈ parsed.rows ↔
          ((validRows D text).filter fun r => decide (r.id = row.id)).getLast? = some row) ∧
        parsed.rows.length + parsed.skipped + overwritten (validRows D text) =
          (lines text).length - 1) ∧
      (reported ManualHistoryCsvRow.line (parseManualHistoryCsv text) =
          (historyLines text).map Prod.snd ↔
        ∀ e ∈ historyLines text, NoBlankBefore text e.2) ∧
      (reported ManualTradeCsvRow.line (parseManualTradesCsv D text) =
          (tradeLines D text).map Prod.snd ↔
        ∀ e ∈ tradeLines D text, NoBlankBefore text e.2) := by
  have hdelim : delimiter.char ≠ quote := by cases delimiter <;> decide
  exact ⟨splitFields_encodeLine hdelim hne, fun parsed => parsePricechartingCsv_spec D,
    reported_history text, reported_trades D text⟩

/-- Whole dollars are enough here. -/
def wholeDollars : Doubles ℤ where
  isFinite _ := true
  isNaN _ := false
  ofNat n := n
  tiny := 0
  text n := ofNat n.natAbs
  parseFloat s := toNat s
  round n := n
  floor n := n
  trunc n := n
  abs n := |n|
  sub a b := a - b
  lt a b := decide (a < b)
  le a b := decide (a ≤ b)
  number s := toNat s
  neg n := -n
  hundredfold n := 100 * n

theorem csv_reading_comma :
    encodeLine ',' [(false, js "10"), (false, js "Jordan, Michael")] =
        js "10," ++ quote :: js "Jordan, Michael" ++ [quote] ∧
      splitDelimitedLine (encodeLine Delimiter.comma.char
        [(false, js "10"), (false, js "Jordan, Michael")]) .comma =
        [js "10", js "Jordan, Michael"] :=
  ⟨by decide +kernel, (csv_reading wholeDollars .comma
    [(false, js "10"), (false, js "Jordan, Michael")] (List.cons_ne_nil _ _) []).1⟩

/-- A blank line after the header: the row of line 3 is reported as that of line 2. -/
theorem blank_line_shifts_numbers :
    let text := js "product_id,observed_on,loose_price\n\n1,2024-01-01,10"
    reported ManualHistoryCsvRow.line (parseManualHistoryCsv text) = [2] ∧
      historyLines text = [(js "1,2024-01-01,10", 3)] := by
  decide +kernel

end Reading

end Pricecharting
