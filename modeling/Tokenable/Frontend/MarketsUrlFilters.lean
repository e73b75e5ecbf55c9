import Mathlib.Data.List.Nodup
import Tokenable.Js.FormParams
import Tokenable.Js.OrderedMap

/-!
# The filters of the markets page in the address bar

The page writes its filters to the query of its address and reads them from there when the address
is opened. A filter survives this exactly when it is in the form that reading gives, and whatever
the address was before, after the page has written it stands for the filters of the page.
-/

namespace Markets

open Js Js.Form

inductive CollectionCategoryId
  | pokemon
  | onepiece
  | basketball
  | baseball
  | other
  deriving DecidableEq

/-- The properties that a lookup by a key in lower case finds on every object. -/
inductive Inherited
  | objectConstructor
  | objectPrototype
  deriving DecidableEq

/-- What the page takes for a category. The lookup that gives one does not ask whether the key is
the record's own. -/
inductive Category
  | named (id : CollectionCategoryId)
  | inherited (property : Inherited)
  deriving DecidableEq

def Category.id? : Category → Option CollectionCategoryId
  | .named id => some id
  | .inherited _ => none

inductive MarketsSortId
  | pctChangeHigh
  | lowPrice
  | highPrice
  | recentListed
  | populationLow
  | recentSold
  deriving DecidableEq

inductive MarketsKindFilterId
  | card
  | box
  deriving DecidableEq

inductive MarketsVaultFilterId
  | psa
  | partner
  deriving DecidableEq

structure MarketsUrlFilters where
  categories : List Category
  sortId : MarketsSortId
  priceMin : JsStr
  priceMax : JsStr
  grades : List JsStr
  kinds : List MarketsKindFilterId
  vaults : List MarketsVaultFilterId
  characters : List JsStr
  series : List JsStr
  sets : List JsStr
  yearMin : JsStr
  yearMax : JsStr
  deriving DecidableEq

def CollectionCategoryId.text : CollectionCategoryId → JsStr
  | .pokemon => js "pokemon"
  | .onepiece => js "onepiece"
  | .basketball => js "basketball"
  | .baseball => js "baseball"
  | .other => js "other"

def catPathByFilter : CollectionCategoryId → JsStr
  | .pokemon => js "tcg/pokemon"
  | .onepiece => js "tcg/onepiece"
  | .basketball => js "sports/basketball"
  | .baseball => js "sports/baseball"
  | .other => js "others"

def filterByCatPath : List (JsStr × CollectionCategoryId) :=
  [(js "tcg/pokemon", .pokemon), (js "tcg/onepiece", .onepiece),
    (js "sports/basketball", .basketball), (js "sports/baseball", .baseball), (js "other", .other),
    (js "others", .other), (js "pokemon", .pokemon), (js "onepiece", .onepiece),
    (js "basketball", .basketball), (js "baseball", .baseball), (js "nba", .basketball),
    (js "mlb", .baseball), (js "sports/football", .other), (js "sports/soccer", .other),
    (js "football", .other), (js "soccer", .other), (js "nfl", .other)]

def marketsCategoryIds : List CollectionCategoryId :=
  [.pokemon, .onepiece, .basketball, .baseball, .other]

def marketsDefaultSortId : MarketsSortId := .highPrice

def MarketsSortId.text : MarketsSortId → JsStr
  | .pctChangeHigh => js "pct_change_high"
  | .lowPrice => js "low_price"
  | .highPrice => js "high_price"
  | .recentListed => js "recent_listed"
  | .populationLow => js "population_low"
  | .recentSold => js "recent_sold"

def marketsSortOptions : List MarketsSortId :=
  [.pctChangeHigh, .lowPrice, .highPrice, .recentListed, .populationLow, .recentSold]

/-- `MARKETS_SORT_URL_ALIASES[t] ?? t` -/
def marketsSortUrlAlias (t : JsStr) : JsStr :=
  if t = js "gainers" then js "pct_change_high"
  else if t = js "newest" then js "recent_listed"
  else t

def resolveMarketsSortId (raw : Option JsStr) : MarketsSortId :=
  let t := trim (raw.getD [])
  if t = [] then marketsDefaultSortId
  else
    (marketsSortOptions.find? fun o => o.text = marketsSortUrlAlias t).getD marketsDefaultSortId

def MarketsKindFilterId.text : MarketsKindFilterId → JsStr
  | .card => js "card"
  | .box => js "box"

def kindOf (s : JsStr) : Option MarketsKindFilterId :=
  if s = js "card" then some .card else if s = js "box" then some .box else none

def MarketsVaultFilterId.text : MarketsVaultFilterId → JsStr
  | .psa => js "psa"
  | .partner => js "partner"

def vaultOf (s : JsStr) : Option MarketsVaultFilterId :=
  if s = js "psa" then some .psa else if s = js "partner" then some .partner else none

/-- `s.split("|").map((s) => s.trim()).filter(Boolean)` -/
def pipeParts (s : JsStr) : List JsStr := ((s.splitOn '|').map trim).filter fun part => part ≠ []

def splitPipe : Option JsStr → List JsStr
  | none => []
  | some raw => if trim raw = [] then [] else pipeParts raw

/-- `values.map((s) => s.trim()).filter(Boolean)` -/
def cleaned (values : List JsStr) : List JsStr := (values.map trim).filter fun value => value ≠ []

def joinPipe (values : List JsStr) : Option JsStr :=
  if cleaned values = [] then none else some (['|'].intercalate (cleaned values))

/-- `toLowerCase`, for a comparison with ASCII keys: the Kelvin sign is the only character outside
ASCII whose lower case is an ASCII letter. -/
def toLowerCase (s : JsStr) : JsStr := s.map fun c => if c = '\u212A' then 'k' else c.toLower

/-- `.replace(/^\/+|\/+$/g, "")` -/
def stripSlashes (s : JsStr) : JsStr :=
  ((s.dropWhile (· = '/')).reverse.dropWhile (· = '/')).reverse

/-- `FILTER_BY_CAT_PATH[raw]` -/
def lookupCatPath (raw : JsStr) : Option Category :=
  match filterByCatPath.lookup raw with
  | some id => some (.named id)
  | none =>
    if raw = js "constructor" then some (.inherited .objectConstructor)
    else if raw = js "__proto__" then some (.inherited .objectPrototype)
    else none

def resolveCatToken (rawIn : JsStr) : List Category :=
  let raw := stripSlashes (toLowerCase (trim rawIn))
  if raw = [] then []
  else
    match lookupCatPath raw with
    | some category => [category]
    | none =>
      match marketsCategoryIds.find? fun id => id.text = raw with
      | some id => [.named id]
      | none =>
        match filterByCatPath.find? fun entry => entry.1.contains '/' && entry.1.isPrefixOf raw with
        | some entry => [.named entry.2]
        | none => []

def catParamToCategoryIds (cat : Option JsStr) : List Category :=
  if splitPipe cat = [] then
    let raw := stripSlashes (toLowerCase (trim (cat.getD [])))
    if raw = [] then [] else resolveCatToken raw
  else ((splitPipe cat).flatMap resolveCatToken).eraseDups

/-- `CAT_PATH_BY_FILTER[id]`: an inherited property is no key of the record. -/
def catPath? : Category → Option JsStr
  | .named id => some (catPathByFilter id)
  | .inherited _ => none

def categoryIdsToCatParam (categories : List Category) : Option JsStr :=
  let paths := (categories.filterMap catPath?).eraseDups
  if paths = [] then none else some (['|'].intercalate paths)

/-- `/\w/.test(c)` -/
def isWordChar (c : Char) : Bool := c.isAlphanum || c = '_'

/-- `/^(PSA|BGS)\b/i.test(g)` -/
def isGrade (g : JsStr) : Bool :=
  (lower (g.take 3) = js "psa" || lower (g.take 3) = js "bgs") &&
    !((g.drop 3).head?.any isWordChar)

def parseMarketsUrlFilters (params : JsStr → Option JsStr) : MarketsUrlFilters :=
  let kindsRaw := (splitPipe (params (js "kind"))).filterMap kindOf
  { categories := catParamToCategoryIds ((params (js "cat")).or (params (js "category")))
    sortId := resolveMarketsSortId (params (js "sort"))
    priceMin := ((params (js "price_min")).map trim).getD []
    priceMax := ((params (js "price_max")).map trim).getD []
    grades := (splitPipe (params (js "grade"))).filter isGrade
    -- both kinds are the same as none
    kinds := if .card ∈ kindsRaw ∧ .box ∈ kindsRaw then [] else kindsRaw
    vaults := (splitPipe (params (js "vault"))).filterMap vaultOf
    characters := splitPipe (params (js "character"))
    series := splitPipe (params (js "series"))
    sets := splitPipe (params (js "set"))
    yearMin := ((params (js "year_min")).map trim).getD []
    yearMax := ((params (js "year_max")).map trim).getD [] }

/-- `if (s.trim()) p.set(name, s.trim())` -/
def nonBlank (s : JsStr) : Option JsStr := if trim s = [] then none else some (trim s)

def kindsForUrl (kinds : List MarketsKindFilterId) : List MarketsKindFilterId :=
  if kinds.length = 2 ∧ .card ∈ kinds ∧ .box ∈ kinds then [] else kinds

/-- What `serializeMarketsUrlFilters` sets, in its order. -/
def urlFields (filters : MarketsUrlFilters) : List (JsStr × Option JsStr) :=
  [(js "cat", categoryIdsToCatParam filters.categories),
    (js "sort", if filters.sortId = marketsDefaultSortId then none else some filters.sortId.text),
    (js "price_min", nonBlank filters.priceMin),
    (js "price_max", nonBlank filters.priceMax),
    (js "grade", joinPipe filters.grades),
    (js "kind", joinPipe ((kindsForUrl filters.kinds).map (·.text))),
    (js "vault", joinPipe (filters.vaults.map (·.text))),
    (js "character", joinPipe filters.characters),
    (js "series", joinPipe filters.series),
    (js "set", joinPipe filters.sets),
    (js "year_min", nonBlank filters.yearMin),
    (js "year_max", nonBlank filters.yearMax)]

def serializeMarketsUrlFilters (filters : MarketsUrlFilters) : Params := setAll (urlFields filters)

/-- The filters that a query text stands for. -/
def filtersOf (search : JsStr) : MarketsUrlFilters :=
  parseMarketsUrlFilters (get (parseQuery search))

def marketsUrlFiltersEqual (a b : MarketsUrlFilters) : Bool :=
  queryText (serializeMarketsUrlFilters a) = queryText (serializeMarketsUrlFilters b)

/-- `String(searchParams.get("q") ?? "").trim()` -/
def searchTextOf (search : JsStr) : JsStr := trim ((get (parseQuery search) (js "q")).getD [])

/-- The effect of `MarketsPage` that writes its filters to `window.location.search`. The text
searched for is that of the last rendering, from `useSearchParams`. -/
def writeBack (next : MarketsUrlFilters) (searchParams search : JsStr) : JsStr :=
  if marketsUrlFiltersEqual next (filtersOf search) then search
  else
    let params := parseQuery (queryText (serializeMarketsUrlFilters next))
    let searchQ := searchTextOf searchParams
    let hrefParams := if searchQ = [] then params else set params (js "q") searchQ
    if queryText hrefParams = [] then [] else '?' :: queryText hrefParams

/-! ## Facets -/

/-- A text that stands in the address as it is. -/
structure IsFacet (x : JsStr) : Prop where
  nonempty : x ≠ []
  trimmed : trim x = x
  unpiped : '|' ∉ x

theorem subset_trim (s : JsStr) : trim s ⊆ s := by
  intro c hc
  rw [trim, List.mem_reverse] at hc
  have hc' := (List.dropWhile_sublist isSpace).subset hc
  rw [List.mem_reverse] at hc'
  exact (List.dropWhile_sublist isSpace).subset hc'

theorem isSpace_of_trim_eq_nil {s : JsStr} (h : trim s = []) : ∀ c ∈ s, isSpace c = true := by
  have hdrop : ∀ c ∈ s.dropWhile isSpace, isSpace c = true := by
    intro c hc
    rw [trim, List.reverse_eq_nil_iff, List.dropWhile_eq_nil_iff] at h
    exact h c (List.mem_reverse.mpr hc)
  rw [← List.dropWhile_eq_nil_iff]
  by_contra hne
  have hhead := List.head_dropWhile_not isSpace hne
  rw [hdrop _ (List.head_mem hne)] at hhead
  cases hhead

theorem not_mem_of_mem_splitOn {α : Type*} [DecidableEq α] {sep : α} {xs part : List α}
    (h : part ∈ xs.splitOn sep) : sep ∉ part := by
  induction xs generalizing part with
  | nil =>
    rw [List.splitOn_nil, List.mem_singleton] at h
    rw [h]
    exact List.not_mem_nil
  | cons x xs ih =>
    rw [List.splitOn_cons_eq_if_modifyHead] at h
    split_ifs at h with hx
    · rcases List.mem_cons.mp h with rfl | h
      · exact List.not_mem_nil
      · exact ih h
    · cases hsplit : xs.splitOn sep with
      | nil => exact absurd hsplit (List.splitOn_ne_nil sep xs)
      | cons first rest =>
        rw [hsplit, List.modifyHead_cons] at h
        rw [hsplit] at ih
        rcases List.mem_cons.mp h with rfl | h
        · have hne : sep ≠ x := fun heq => hx (by rw [heq]; exact BEq.refl x)
          rw [List.mem_cons, not_or]
          exact ⟨hne, ih (.head _)⟩
        · exact ih (.tail _ h)

theorem isFacet_of_mem_pipeParts {s x : JsStr} (h : x ∈ pipeParts s) : IsFacet x := by
  rw [pipeParts, List.mem_filter, List.mem_map] at h
  obtain ⟨⟨part, hpart, rfl⟩, hne⟩ := h
  exact ⟨of_decide_eq_true hne, trim_trim part,
    fun hmem => not_mem_of_mem_splitOn hpart (subset_trim part hmem)⟩

theorem pipeParts_of_blank {s : JsStr} (h : trim s = []) : pipeParts s = [] := by
  have hpipe : '|' ∉ s := fun hmem => absurd (isSpace_of_trim_eq_nil h _ hmem) (by decide)
  rw [pipeParts, List.splitOn_eq_singleton hpipe, List.map_singleton, h]
  rfl

theorem splitPipe_some (s : JsStr) : splitPipe (some s) = pipeParts s := by
  by_cases h : trim s = []
  · rw [splitPipe, if_pos h, pipeParts_of_blank h]
  · rw [splitPipe, if_neg h]

theorem isFacet_of_mem_splitPipe {raw : Option JsStr} {x : JsStr} (h : x ∈ splitPipe raw) :
    IsFacet x := by
  cases raw with
  | none => cases h
  | some s =>
    rw [splitPipe_some] at h
    exact isFacet_of_mem_pipeParts h

theorem IsFacet.pipeParts {x : JsStr} (h : IsFacet x) : pipeParts x = [x] := by
  rw [Markets.pipeParts, List.splitOn_eq_singleton h.unpiped, List.map_singleton, h.trimmed,
    List.filter_cons_of_pos (by simpa using h.nonempty), List.filter_nil]

/-- Joining with the separator and splitting again splits each part. -/
theorem pipeParts_intercalate {xs : List JsStr} (h : xs ≠ []) :
    pipeParts (['|'].intercalate xs) = xs.flatMap pipeParts := by
  induction xs with
  | nil => exact absurd rfl h
  | cons x xs ih =>
    cases xs with
    | nil => simp [List.intercalate]
    | cons y ys =>
      rw [List.flatMap_cons, ← ih (List.cons_ne_nil y ys), List.intercalate_cons_cons,
        List.append_assoc, List.singleton_append]
      unfold pipeParts
      rw [List.splitOn_append_cons_self, List.map_append, List.filter_append]

/-- What is left of texts that are written to one parameter. -/
def facets (values : List JsStr) : List JsStr := (cleaned values).flatMap pipeParts

theorem splitPipe_joinPipe (values : List JsStr) : splitPipe (joinPipe values) = facets values := by
  unfold joinPipe facets
  split_ifs with h
  · rw [h]
    rfl
  · rw [splitPipe_some, pipeParts_intercalate h]

theorem cleaned_of_isFacet {values : List JsStr} (h : ∀ x ∈ values, IsFacet x) :
    cleaned values = values := by
  have htrim : values.map trim = values :=
    (List.map_congr_left fun x hx => (h x hx).trimmed).trans (List.map_id' values)
  rw [cleaned, htrim, List.filter_eq_self]
  intro x hx
  exact decide_eq_true (h x hx).nonempty

theorem facets_of_isFacet {values : List JsStr} (h : ∀ x ∈ values, IsFacet x) :
    facets values = values := by
  rw [facets, cleaned_of_isFacet h]
  induction values with
  | nil => rfl
  | cons x xs ih =>
    rw [List.flatMap_cons, (h x (.head _)).pipeParts, ih fun y hy => h y (.tail _ hy)]
    rfl

theorem isFacet_of_mem_facets {values : List JsStr} {x : JsStr} (h : x ∈ facets values) :
    IsFacet x := by
  obtain ⟨value, -, hx⟩ := List.mem_flatMap.mp h
  exact isFacet_of_mem_pipeParts hx

/-! ## Categories -/

theorem eraseDups_map {α β : Type*} [BEq α] [LawfulBEq α] [BEq β] [LawfulBEq β] {f : α → β}
    (hf : Function.Injective f) (xs : List α) : (xs.map f).eraseDups = xs.eraseDups.map f := by
  induction hn : xs.length using Nat.strong_induction_on generalizing xs with
  | _ n ih =>
    cases xs with
    | nil => rfl
    | cons x xs =>
      have hlt : (xs.filter fun y => !y == x).length < n := by
        have hle := List.length_filter_le (fun y => !y == x) xs
        rw [List.length_cons] at hn
        omega
      have hfilter :
        (xs.map f).filter (fun y => !y == f x) = (xs.filter fun y => !y == x).map f := by
        rw [List.filter_map]
        congr 2
        funext y
        simp [hf.eq_iff]
      rw [List.map_cons, List.eraseDups_cons, List.eraseDups_cons, List.map_cons, hfilter,
        ih _ hlt _ rfl]

def namedCategories (categories : List Category) : List CollectionCategoryId :=
  (categories.filterMap Category.id?).eraseDups

theorem catPathByFilter_injective : Function.Injective catPathByFilter := by
  intro a b h
  cases a <;> cases b <;> first | rfl | exact absurd h (by decide)

theorem isFacet_catPathByFilter (id : CollectionCategoryId) : IsFacet (catPathByFilter id) := by
  cases id <;> exact ⟨by decide, by decide, by decide⟩

theorem resolveCatToken_catPathByFilter (id : CollectionCategoryId) :
    resolveCatToken (catPathByFilter id) = [.named id] := by
  cases id <;> decide

theorem paths_eq (categories : List Category) :
    (categories.filterMap catPath?).eraseDups =
      (namedCategories categories).map catPathByFilter := by
  have hpath : ∀ c : Category, catPath? c = c.id?.map catPathByFilter := by
    intro c
    cases c <;> rfl
  rw [namedCategories, ← eraseDups_map catPathByFilter_injective, List.map_filterMap]
  congr 2
  exact funext hpath

theorem flatMap_resolveCatToken (ids : List CollectionCategoryId) :
    (ids.map catPathByFilter).flatMap resolveCatToken = ids.map .named := by
  induction ids with
  | nil => rfl
  | cons id ids ih =>
    rw [List.map_cons, List.flatMap_cons, resolveCatToken_catPathByFilter, ih]
    rfl

/-- The categories that are read back are those that have a path, each once. -/
theorem catParamToCategoryIds_categoryIdsToCatParam (categories : List Category) :
    catParamToCategoryIds (categoryIdsToCatParam categories) =
      (namedCategories categories).map .named := by
  have hnodup : ((namedCategories categories).map Category.named).Nodup :=
    (nodup_eraseDups _).map fun _ _ h => Category.named.inj h
  rw [categoryIdsToCatParam, paths_eq]
  split_ifs with h
  · rw [List.map_eq_nil_iff.mp h]
    rfl
  · have hfacet : ∀ x ∈ (namedCategories categories).map catPathByFilter, IsFacet x := by
      intro x hx
      obtain ⟨id, -, rfl⟩ := List.mem_map.mp hx
      exact isFacet_catPathByFilter id
    have hsplit : splitPipe (some (['|'].intercalate ((namedCategories categories).map
        catPathByFilter))) = (namedCategories categories).map catPathByFilter := by
      have hfacets := facets_of_isFacet hfacet
      rwa [facets, cleaned_of_isFacet hfacet, ← pipeParts_intercalate h, ← splitPipe_some]
        at hfacets
    rw [catParamToCategoryIds, hsplit, if_neg h, flatMap_resolveCatToken,
      eraseDups_of_nodup hnodup]

/-! ## Reading what was written -/

theorem resolveMarketsSortId_text (id : MarketsSortId) :
    resolveMarketsSortId (some id.text) = id := by
  cases id <;> decide

theorem resolveMarketsSortId_field (id : MarketsSortId) :
    resolveMarketsSortId (if id = marketsDefaultSortId then none else some id.text) = id := by
  split_ifs with h
  · rw [h]
    rfl
  · exact resolveMarketsSortId_text id

theorem trim_nonBlank (s : JsStr) : ((nonBlank s).map trim).getD [] = trim s := by
  unfold nonBlank
  split_ifs with h
  · exact h.symm
  · exact trim_trim s

theorem facets_text {α : Type*} {text : α → JsStr} (h : ∀ a, IsFacet (text a)) (xs : List α) :
    facets (xs.map text) = xs.map text := by
  apply facets_of_isFacet
  intro x hx
  obtain ⟨a, -, rfl⟩ := List.mem_map.mp hx
  exact h a

theorem filterMap_text {α : Type*} {text : α → JsStr} {read : JsStr → Option α}
    (h : ∀ a, read (text a) = some a) (xs : List α) : (xs.map text).filterMap read = xs := by
  rw [List.filterMap_map]
  have hread : read ∘ text = some := funext h
  rw [hread, List.filterMap_some]

theorem isFacet_kind (k : MarketsKindFilterId) : IsFacet k.text := by
  cases k <;> exact ⟨by decide, by decide, by decide⟩

theorem isFacet_vault (v : MarketsVaultFilterId) : IsFacet v.text := by
  cases v <;> exact ⟨by decide, by decide, by decide⟩

theorem kindOf_text (k : MarketsKindFilterId) : kindOf k.text = some k := by
  cases k <;> decide

theorem vaultOf_text (v : MarketsVaultFilterId) : vaultOf v.text = some v := by
  cases v <;> decide

/-- The filters as the address holds them. -/
def MarketsUrlFilters.shown (f : MarketsUrlFilters) : MarketsUrlFilters where
  categories := (namedCategories f.categories).map .named
  sortId := f.sortId
  priceMin := trim f.priceMin
  priceMax := trim f.priceMax
  grades := (facets f.grades).filter isGrade
  kinds := if .card ∈ f.kinds ∧ .box ∈ f.kinds then [] else f.kinds
  vaults := f.vaults
  characters := facets f.characters
  series := facets f.series
  sets := facets f.sets
  yearMin := trim f.yearMin
  yearMax := trim f.yearMax

def urlFieldNames : List JsStr :=
  [js "cat", js "sort", js "price_min", js "price_max", js "grade", js "kind", js "vault",
    js "character", js "series", js "set", js "year_min", js "year_max"]

theorem names_urlFields (f : MarketsUrlFilters) : (urlFields f).map (·.1) = urlFieldNames := rfl

theorem nodup_urlFieldNames : urlFieldNames.Nodup := by decide

theorem shown_kindsForUrl (ks : List MarketsKindFilterId) :
    (if .card ∈ kindsForUrl ks ∧ .box ∈ kindsForUrl ks then [] else kindsForUrl ks) =
      if .card ∈ ks ∧ .box ∈ ks then [] else ks := by
  by_cases h : ks.length = 2 ∧ .card ∈ ks ∧ .box ∈ ks
  · have hnone : kindsForUrl ks = [] := if_pos h
    rw [hnone, if_pos h.2]
    rfl
  · have hall : kindsForUrl ks = ks := if_neg h
    rw [hall]

/-- Parameters that hold the fields of the filters are read as the filters in their shown form. -/
theorem parse_of_fields {f : MarketsUrlFilters} {params : JsStr → Option JsStr}
    (h : ∀ field ∈ urlFields f, params field.1 = field.2)
    (hcategory : params (js "category") = none) :
    parseMarketsUrlFilters params = f.shown := by
  simp only [urlFields, List.forall_mem_cons, List.not_mem_nil, false_implies, implies_true,
    and_true] at h
  obtain ⟨hcat, hsort, hpriceMin, hpriceMax, hgrade, hkind, hvault, hcharacter, hseries, hset,
    hyearMin, hyearMax⟩ := h
  have hkinds : ∀ ks : List MarketsKindFilterId,
      (splitPipe (joinPipe (ks.map (·.text)))).filterMap kindOf = ks := by
    intro ks
    rw [splitPipe_joinPipe, facets_text isFacet_kind, filterMap_text kindOf_text]
  have hvaults : (splitPipe (joinPipe (f.vaults.map (·.text)))).filterMap vaultOf = f.vaults := by
    rw [splitPipe_joinPipe, facets_text isFacet_vault, filterMap_text vaultOf_text]
  unfold parseMarketsUrlFilters MarketsUrlFilters.shown
  rw [hcat, hcategory, hsort, hpriceMin, hpriceMax, hgrade, hkind, hvault, hcharacter, hseries,
    hset, hyearMin, hyearMax, Option.or_none, catParamToCategoryIds_categoryIdsToCatParam,
    resolveMarketsSortId_field, trim_nonBlank, trim_nonBlank, trim_nonBlank, trim_nonBlank,
    hkinds, hvaults, splitPipe_joinPipe, splitPipe_joinPipe, splitPipe_joinPipe,
    splitPipe_joinPipe]
  dsimp only
  rw [shown_kindsForUrl]

theorem get_serialize (f : MarketsUrlFilters) :
    ∀ field ∈ urlFields f, get (serializeMarketsUrlFilters f) field.1 = field.2 :=
  fun _ h => get_setAll (names_urlFields f ▸ nodup_urlFieldNames) h

/-- The form of filters that reading an address gives. -/
structure IsNormal (f : MarketsUrlFilters) : Prop where
  named : ∀ c ∈ f.categories, c.id?.isSome = true
  nodup : f.categories.Nodup
  priceMin : trim f.priceMin = f.priceMin
  priceMax : trim f.priceMax = f.priceMax
  grades : ∀ g ∈ f.grades, IsFacet g ∧ isGrade g = true
  kinds : ¬ (.card ∈ f.kinds ∧ .box ∈ f.kinds)
  characters : ∀ x ∈ f.characters, IsFacet x
  series : ∀ x ∈ f.series, IsFacet x
  sets : ∀ x ∈ f.sets, IsFacet x
  yearMin : trim f.yearMin = f.yearMin
  yearMax : trim f.yearMax = f.yearMax

theorem named_map_namedCategories {categories : List Category}
    (hnamed : ∀ c ∈ categories, c.id?.isSome = true) (hnodup : categories.Nodup) :
    (namedCategories categories).map .named = categories := by
  have hids : (categories.filterMap Category.id?).map .named = categories := by
    clear hnodup
    induction categories with
    | nil => rfl
    | cons c cs ih =>
      have hc := hnamed c (.head _)
      cases c with
      | named id =>
        rw [List.filterMap_cons_some (f := Category.id?) rfl, List.map_cons, ih fun d hd =>
          hnamed d (.tail _ hd)]
      | inherited _ => cases hc
  have hnodupIds : (categories.filterMap Category.id?).Nodup := by
    rw [← hids] at hnodup
    exact hnodup.of_map
  rw [namedCategories, eraseDups_of_nodup hnodupIds, hids]

theorem mem_shown_grades {f : MarketsUrlFilters} {g : JsStr} (h : g ∈ f.shown.grades) :
    IsFacet g ∧ isGrade g = true := by
  have hg := List.mem_filter.mp h
  exact ⟨isFacet_of_mem_facets hg.1, hg.2⟩

/-- The form in which the address holds filters is the form that reading gives. -/
theorem isNormal_shown (f : MarketsUrlFilters) : IsNormal f.shown where
  named c hc := by
    obtain ⟨id, -, rfl⟩ := List.mem_map.mp hc
    rfl
  nodup := (nodup_eraseDups _).map fun _ _ h => Category.named.inj h
  priceMin := trim_trim _
  priceMax := trim_trim _
  grades _ hg := mem_shown_grades hg
  kinds := by
    unfold MarketsUrlFilters.shown
    dsimp only
    split_ifs with h
    · exact fun h => absurd h.1 List.not_mem_nil
    · exact h
  characters _ hx := isFacet_of_mem_facets hx
  series _ hx := isFacet_of_mem_facets hx
  sets _ hx := isFacet_of_mem_facets hx
  yearMin := trim_trim _
  yearMax := trim_trim _

theorem IsNormal.shown_eq {f : MarketsUrlFilters} (h : IsNormal f) : f.shown = f := by
  have hgrades : (facets f.grades).filter isGrade = f.grades := by
    rw [facets_of_isFacet fun g hg => (h.grades g hg).1, List.filter_eq_self]
    exact fun g hg => (h.grades g hg).2
  unfold MarketsUrlFilters.shown
  rw [named_map_namedCategories h.named h.nodup, h.priceMin, h.priceMax, hgrades, if_neg h.kinds,
    facets_of_isFacet h.characters, facets_of_isFacet h.series, facets_of_isFacet h.sets,
    h.yearMin, h.yearMax]

theorem get_serialize_of_not_mem (f : MarketsUrlFilters) {name : JsStr}
    (h : name ∉ urlFieldNames) : get (serializeMarketsUrlFilters f) name = none :=
  get_setAll_of_not_mem h

theorem filtersOf_queryText (f : MarketsUrlFilters) :
    filtersOf (queryText (serializeMarketsUrlFilters f)) = f.shown := by
  rw [filtersOf, parseQuery_queryText]
  exact parse_of_fields (get_serialize f) (get_serialize_of_not_mem f (by decide))

/-- Filters come back from the address exactly when they are in the form that reading gives. -/
theorem restored_iff (f : MarketsUrlFilters) :
    filtersOf (queryText (serializeMarketsUrlFilters f)) = f ↔ IsNormal f := by
  rw [filtersOf_queryText]
  constructor
  · intro h
    rw [← h]
    exact isNormal_shown f
  · exact IsNormal.shown_eq

/-! ## Opening any address -/

theorem nodup_catParamToCategoryIds (cat : Option JsStr) : (catParamToCategoryIds cat).Nodup := by
  have hshort : ∀ raw, (resolveCatToken raw).Nodup := by
    intro raw
    unfold resolveCatToken
    dsimp only
    split_ifs
    · exact List.nodup_nil
    · split
      · exact List.nodup_singleton _
      · split
        · exact List.nodup_singleton _
        · split
          · exact List.nodup_singleton _
          · exact List.nodup_nil
  unfold catParamToCategoryIds
  dsimp only
  split_ifs
  · exact List.nodup_nil
  · exact hshort _
  · exact nodup_eraseDups _

theorem trim_getD_trim (raw : Option JsStr) :
    trim ((raw.map trim).getD []) = (raw.map trim).getD [] := by
  cases raw with
  | none => rfl
  | some s => exact trim_trim s

/-- Filters read from an address are in normal form, but for a category that is none. -/
theorem isNormal_parse {params : JsStr → Option JsStr}
    (h : ∀ c ∈ (parseMarketsUrlFilters params).categories, c.id?.isSome = true) :
    IsNormal (parseMarketsUrlFilters params) where
  named := h
  nodup := nodup_catParamToCategoryIds _
  priceMin := trim_getD_trim _
  priceMax := trim_getD_trim _
  grades _ hg := by
    have hg' := List.mem_filter.mp hg
    exact ⟨isFacet_of_mem_splitPipe hg'.1, hg'.2⟩
  kinds := by
    unfold parseMarketsUrlFilters
    dsimp only
    split_ifs with h
    · exact fun h => absurd h.1 List.not_mem_nil
    · exact h
  characters _ hx := isFacet_of_mem_splitPipe hx
  series _ hx := isFacet_of_mem_splitPipe hx
  sets _ hx := isFacet_of_mem_splitPipe hx
  yearMin := trim_getD_trim _
  yearMax := trim_getD_trim _

theorem parse_set_searchText (f : MarketsUrlFilters) (q : JsStr) :
    parseMarketsUrlFilters (get (set (serializeMarketsUrlFilters f) (js "q") q)) = f.shown := by
  apply parse_of_fields
  · intro field hfield
    have hq : js "q" ≠ field.1 := by
      intro heq
      have hmem : field.1 ∈ urlFieldNames := List.mem_map_of_mem hfield
      rw [← heq] at hmem
      exact absurd hmem (by decide)
    rw [get_set_of_ne _ hq]
    exact get_serialize f field hfield
  · rw [get_set_of_ne _ (by decide)]
    exact get_serialize_of_not_mem f (by decide)

/-- An address with any parameters in it, written the way the page writes it. -/
theorem parseQuery_href (ps : Params) :
    parseQuery (if queryText ps = [] then [] else '?' :: queryText ps) = ps := by
  split_ifs with h
  · rw [← h, parseQuery_queryText]
  · exact parseQuery_mark ps

/-- Filters that write the same text are shown the same. -/
theorem shown_eq_of_equal {a b : MarketsUrlFilters} (h : marketsUrlFiltersEqual a b = true) :
    a.shown = b.shown := by
  rw [← filtersOf_queryText a, of_decide_eq_true h, filtersOf_queryText b]

section WriteBack
variable {next : MarketsUrlFilters} {searchParams search : JsStr}

theorem parseQuery_writeBack (h : ¬ marketsUrlFiltersEqual next (filtersOf search) = true) :
    parseQuery (writeBack next searchParams search) =
      if searchTextOf searchParams = [] then serializeMarketsUrlFilters next
      else set (serializeMarketsUrlFilters next) (js "q") (searchTextOf searchParams) := by
  rw [writeBack, if_neg h, parseQuery_queryText]
  exact parseQuery_href _

theorem filtersOf_writeBack (h : ¬ marketsUrlFiltersEqual next (filtersOf search) = true) :
    filtersOf (writeBack next searchParams search) = next.shown := by
  rw [filtersOf, parseQuery_writeBack h]
  split_ifs
  · rw [← filtersOf_queryText next, filtersOf, parseQuery_queryText]
  · exact parse_set_searchText next _

theorem searchTextOf_writeBack (h : ¬ marketsUrlFiltersEqual next (filtersOf search) = true) :
    searchTextOf (writeBack next searchParams search) = searchTextOf searchParams := by
  rw [searchTextOf, parseQuery_writeBack h]
  split_ifs with hq
  · rw [get_serialize_of_not_mem next (by decide), hq]
    rfl
  · rw [get_set_self]
    exact trim_trim _

end WriteBack

/-- Whatever the address was, once the page has written it the address shows the page's filters. It
is left as it was or searches for the text that the page does, hence still for the same text when
the page has the one of the address. It is read as these filters, up to entries of the old address
that are no category. -/
theorem written_back (next : MarketsUrlFilters) (searchParams search : JsStr) :
    (filtersOf (writeBack next searchParams search)).shown = next.shown ∧
      (writeBack next searchParams search = search ∨
        searchTextOf (writeBack next searchParams search) = searchTextOf searchParams) ∧
      (searchTextOf searchParams = searchTextOf search →
        searchTextOf (writeBack next searchParams search) = searchTextOf search) ∧
      ((∀ c ∈ (filtersOf search).categories, c.id?.isSome = true) →
        filtersOf (writeBack next searchParams search) = next.shown) := by
  by_cases h : marketsUrlFiltersEqual next (filtersOf search) = true
  · have hsame : writeBack next searchParams search = search := if_pos h
    have hshown := shown_eq_of_equal h
    rw [hsame]
    refine ⟨hshown.symm, .inl rfl, fun _ => rfl, fun hnamed => ?_⟩
    rw [hshown]
    exact (isNormal_parse hnamed).shown_eq.symm
  · have hread : filtersOf (writeBack next searchParams search) = next.shown :=
      filtersOf_writeBack h
    have hsearched : searchTextOf (writeBack next searchParams search) =
        searchTextOf searchParams := searchTextOf_writeBack h
    refine ⟨?_, .inr hsearched, fun hsame => hsearched.trans hsame, fun _ => hread⟩
    rw [hread, (isNormal_shown next).shown_eq]

def emptyMarketsUrlFilters : MarketsUrlFilters :=
  ⟨[], marketsDefaultSortId, [], [], [], [], [], [], [], [], [], []⟩

def pokemonBoxes : MarketsUrlFilters :=
  { emptyMarketsUrlFilters with
    categories := [.named .pokemon], kinds := [.box], sets := [js "Sword & Shield"] }

theorem written_back_pokemonBoxes :
    filtersOf (writeBack pokemonBoxes (js "q=charizard") (js "?category=nba&q=charizard")) =
        pokemonBoxes.shown ∧
      searchTextOf (writeBack pokemonBoxes (js "q=charizard") (js "?category=nba&q=charizard")) =
        js "charizard" := by
  obtain ⟨-, -, hsearched, hread⟩ :=
    written_back pokemonBoxes (js "q=charizard") (js "?category=nba&q=charizard")
  exact ⟨hread (by decide), (hsearched (by decide)).trans (by decide)⟩

end Markets
