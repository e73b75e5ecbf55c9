import Tokenable.Cards.GradePolicy
import Tokenable.Cards.Variety

/-!
# Buckets of graded cards

`bucket-key.util.ts` of the back end and `bucketKey.ts` of the front end: the identity of a graded
card in the metadata of its token, and the key of the collection that the card belongs to. What the
two files write alike is defined once; the functions that differ are in the namespaces `Backend` and
`Frontend`. The result is an error where `String(…)` throws.
-/

namespace Cards
open Js Regex

inductive VariantType where
  | psaDna
  deriving DecidableEq

structure MarketBucketComponents (F : Type) where
  gradingCompany : JsStr
  gradingCompanyDisplay : JsStr
  cardName : JsStr
  cardNameDisplay : Option JsStr
  cardSet : JsStr
  cardSetDisplay : Option JsStr
  gradeScore : JsStr
  variantType : Option VariantType
  cardNumber : Option JsStr
  marketParallelKey : JsStr
  psaTotalPopulation : Option F
  year : Option F := none

def nonEmpty (s : JsStr) : Option JsStr := if s.isEmpty then none else some s

/-- `s.replace(/^#/, '')` -/
def stripHash : JsStr → JsStr
  | '#' :: s => s
  | s => s

def beforeSlash (s : JsStr) : JsStr := s.takeWhile (· ≠ '/')

section Shared
variable {F : Type} (N : Numbers F)

/-- `properties.graded ?? graded` of the metadata, when it is an object. -/
def gradedOf (doc : Option (Json F)) : Option (Json F) :=
  match Json.coalesce (Json.field (js "graded") (Json.field (js "properties") doc))
      (Json.field (js "graded") doc) with
  | some (.obj fields) => some (.obj fields)
  | some (.arr xs) => some (.arr xs)
  | _ => none

/-- What both files read first. -/
structure GradedIdentity where
  rawGradingCo : JsStr
  rawNameMerged : JsStr
  rawSetMerged : JsStr
  rawNum : JsStr
  gradeScore : JsStr

def GradedIdentity.gradingCompany (d : GradedIdentity) : JsStr := normalizePart d.rawGradingCo

def GradedIdentity.cardName (d : GradedIdentity) : JsStr := normalizePart d.rawNameMerged

def trimmed (v : Option (Json F)) : Except TypeError JsStr := (Json.textOr N [] v).map trim

/-- `s || other` -/
def orElse (s : JsStr) (other : Except TypeError JsStr) : Except TypeError JsStr :=
  if s.isEmpty then other else .ok s

/-- `grade.score`, or `psa.gradeScore` when there is none. -/
def scoreOf (graded : Json F) : Option (Json F) :=
  let psaScore := Json.field (js "gradeScore") (Json.field (js "psa") (some graded))
  match Json.field (js "score") (Json.field (js "grade") (some graded)) with
  | none | some .null | some (.str []) => psaScore
  | some v => some v

def gradedIdentity (graded : Json F) : Except TypeError GradedIdentity := do
  let card := Json.field (js "card") (some graded)
  let psa := Json.field (js "psa") (some graded)
  let rawGradingCo ← trimmed N (Json.field (js "gradingCompany") (some graded))
  let rawName ← trimmed N (Json.field (js "name") card)
  let rawSet ← trimmed N (Json.field (js "set") card)
  let number ← trimmed N (Json.field (js "number") card)
  let rawNum ← orElse number (trimmed N (Json.field (js "cardNumberHint") psa))
  let rawNameMerged ← orElse rawName (Json.textOr N [] (Json.field (js "cardNameHint") psa))
  let rawSetMerged ← orElse rawSet (Json.textOr N [] (Json.field (js "setHint") psa))
  let gradeScore ← normalizeGradeScore N (scoreOf graded)
  pure { rawGradingCo, rawNameMerged, rawSetMerged, rawNum, gradeScore }

def dnaText (s : JsStr) : Bool :=
  testI (alts [seqs [lit "psa", star space, lit "/", star space, lit "dna"], lit "psa/dna",
    word (lit "dna")]) s

def detectVariantType (graded : Json F) : Except TypeError (Option VariantType) := do
  let variant := Json.field (js "variant") (Json.field (js "identity") (some graded))
  let psa := Json.field (js "psa") (some graded)
  let fromIdentity ← trimmed N (Json.field (js "variant_type") variant)
  if upper fromIdentity = js "PSA_DNA" then pure (some .psaDna)
  else do
    let labelType ← trimmed N (Json.field (js "labelType") psa)
    let category ← trimmed N (Json.field (js "category") psa)
    let autographGrade ← trimmed N (Json.field (js "autographGrade") psa)
    pure (if dnaText labelType || dnaText category || !autographGrade.isEmpty then some .psaDna
      else none)

structure CardLine where
  variety : JsStr
  brandOrSet : JsStr
  variantType : Option VariantType

def cardLine (graded : Json F) (d : GradedIdentity) : Except TypeError CardLine := do
  let psa := Json.field (js "psa") (some graded)
  let variety ← trimmed N
    (Json.coalesce (Json.field (js "variety") psa) (Json.field (js "Variety") psa))
  let brandOrSet ← Json.textOr N d.rawSetMerged
    (Json.coalesce (Json.field (js "brand") psa)
      (Json.coalesce (Json.field (js "Brand") psa) (Json.field (js "setHint") psa)))
  let variantType ← detectVariantType N graded
  pure { variety, brandOrSet := trim brandOrSet, variantType }

def totalPopulation (graded : Json F) : Option F :=
  match Json.field (js "totalPopulation") (Json.field (js "psa") (some graded)) with
  | some (.num pop) => if N.isFinite pop && N.le (N.ofNat 0) pop then some (N.floor pop) else none
  | _ => none

/-- The grade of the identity, or the one of the policy. -/
def gradeOr (d : GradedIdentity) (input : Except TypeError (PsaGradePolicyInput F)) :
    Except TypeError JsStr :=
  if d.gradeScore.isEmpty then
    input.map fun i => (bucketGradeScoreFromPsaGradeInput N i).getD []
  else .ok d.gradeScore

def componentsOf (graded : Json F) (d : GradedIdentity) (gradeScore cardNumber : JsStr)
    (line : CardLine) (marketParallelKey : JsStr) (year : Option F) : MarketBucketComponents F where
  gradingCompany := d.gradingCompany
  gradingCompanyDisplay := collapseWhitespaceOnly d.rawGradingCo
  cardName := d.cardName
  cardNameDisplay := nonEmpty (collapseWhitespaceOnly d.rawNameMerged)
  cardSet := normalizePart d.rawSetMerged
  cardSetDisplay := nonEmpty (collapseWhitespaceOnly d.rawSetMerged)
  gradeScore := gradeScore
  variantType := line.variantType
  cardNumber := nonEmpty cardNumber
  marketParallelKey := marketParallelKey
  psaTotalPopulation := totalPopulation N graded
  year := year

/-- The object that is hashed. -/
structure BucketPayload where
  v : ℕ
  gradingCompany : JsStr
  cardName : JsStr
  cardSet : JsStr
  gradeScore : JsStr
  cardNumber : JsStr
  marketParallelKey : JsStr
  variantType : Option VariantType
  deriving DecidableEq

def bucketKeyVersion : ℕ := 2

def normalizeCardNumberForBucketKey (num : Option JsStr) : JsStr :=
  let t := trim (stripHash (num.getD []))
  if t.isEmpty then []
  else (lower (trim (beforeSlash t))).filter fun c => c.isLower || c.isDigit

def MarketBucketComponents.payload {F : Type} (c : MarketBucketComponents F) : BucketPayload where
  v := bucketKeyVersion
  gradingCompany := c.gradingCompany
  cardName := c.cardName
  cardSet := c.cardSet
  gradeScore := c.gradeScore
  cardNumber := normalizeCardNumberForBucketKey c.cardNumber
  marketParallelKey := orBase (lower (trim c.marketParallelKey))
  variantType := c.variantType

/-- `hash` is the SHA-256 of the object's JSON text. -/
def computeMarketBucketKey {F : Type} (hash : BucketPayload → JsStr)
    (components : MarketBucketComponents F) : JsStr := hash components.payload

end Shared

namespace Frontend
variable {F : Type} (N : Numbers F)

def primaryCardNumber (num : JsStr) : JsStr :=
  let t := trim (stripHash num)
  if t.isEmpty then [] else trim (beforeSlash t)

def gradeScoreOf (graded : Json F) (d : GradedIdentity) : Except TypeError JsStr :=
  gradeOr N d (psaGradePolicyInputFromGraded N (some graded))

def extractFromGraded (graded : Json F) : Except TypeError (Option (MarketBucketComponents F)) := do
  let d ← gradedIdentity N graded
  let cardNumber := if d.rawNum.isEmpty then [] else normalizePart (primaryCardNumber d.rawNum)
  let gradeScore ← gradeScoreOf N graded d
  if d.gradingCompany.isEmpty || d.cardName.isEmpty || gradeScore.isEmpty then pure none
  else do
    let line ← cardLine N graded d
    let marketParallelKey := marketParallelKeyFromPsaVariety line.variety line.brandOrSet
    pure (some (componentsOf N graded d gradeScore cardNumber line marketParallelKey none))

def extractBucketComponentsFromMetadata (doc : Option (Json F)) :
    Except TypeError (Option (MarketBucketComponents F)) :=
  match gradedOf doc with
  | none => .ok none
  | some graded => extractFromGraded N graded

def bucketKey (hash : BucketPayload → JsStr) (doc : Option (Json F)) :
    Except TypeError (Option JsStr) :=
  (extractBucketComponentsFromMetadata N doc).map fun c => c.map (computeMarketBucketKey hash)

end Frontend

namespace Backend
variable {F : Type} (N : Numbers F)

def gradeScoreOf (graded : Json F) (d : GradedIdentity) : Except TypeError JsStr :=
  gradeOr N d (psaGradePolicyInputFromGraded N (some graded))

/-- A year between 1880 and 2100, as a number or in a text. -/
def normalizeYearLike (v : Option (Json F)) : Except TypeError (Option F) :=
  let within : F → Option F := fun y =>
    if N.le (N.ofNat 1880) y && N.le y (N.ofNat 2100) then some y else none
  let ofText : Except TypeError (Option F) := (trimmed N v).map fun s =>
    (group boundary (seqs [digit, digit, digit, digit]) boundary s).bind fun m =>
      (finite N (N.parseFloat m)).bind within
  match v with
  | some (.num x) => if N.isFinite x then .ok (within (N.trunc x)) else ofText
  | _ => ofText

def yearOf (graded : Json F) : Except TypeError (Option F) := do
  let ofCard ← normalizeYearLike N (Json.field (js "year") (Json.field (js "card") (some graded)))
  match ofCard with
  | some year => pure (some year)
  | none => normalizeYearLike N (Json.field (js "year") (Json.field (js "psa") (some graded)))

inductive BucketExtractCode where
  | noGradedObject | missingGradingCompany | missingCardName | missingGradeScore
  deriving DecidableEq

inductive BucketExtractDiagnosis (F : Type) where
  | ok (components : MarketBucketComponents F)
  | failed (code : BucketExtractCode)

def diagnoseGraded (graded : Json F) : Except TypeError (BucketExtractDiagnosis F) := do
  let d ← gradedIdentity N graded
  let cardNumber := if d.rawNum.isEmpty then [] else normalizePart d.rawNum
  let gradeScore ← gradeScoreOf N graded d
  if d.gradingCompany.isEmpty then pure (.failed .missingGradingCompany)
  else if d.cardName.isEmpty then pure (.failed .missingCardName)
  else if gradeScore.isEmpty then pure (.failed .missingGradeScore)
  else do
    let line ← cardLine N graded d
    let marketParallelKey := marketParallelKeyFromPsaVariety line.variety line.brandOrSet
    let year ← yearOf N graded
    pure (.ok (componentsOf N graded d gradeScore cardNumber line marketParallelKey year))

def extractOrDiagnoseBucketComponents (doc : Option (Json F)) :
    Except TypeError (BucketExtractDiagnosis F) :=
  match gradedOf doc with
  | none => .ok (.failed .noGradedObject)
  | some graded => diagnoseGraded N graded

def BucketExtractDiagnosis.components : BucketExtractDiagnosis F → Option (MarketBucketComponents F)
  | .ok c => some c
  | .failed _ => none

def extractBucketComponentsFromMetadata (doc : Option (Json F)) :
    Except TypeError (Option (MarketBucketComponents F)) :=
  (extractOrDiagnoseBucketComponents N doc).map BucketExtractDiagnosis.components

def bucketKey (hash : BucketPayload → JsStr) (doc : Option (Json F)) :
    Except TypeError (Option JsStr) :=
  (extractBucketComponentsFromMetadata N doc).map fun c => c.map (computeMarketBucketKey hash)

end Backend

section CardNumber

/-- The letters and digits before the first `/`, which is all that a key keeps of a number. -/
def core (s : JsStr) : JsStr := (lower (beforeSlash s)).filter fun c => c.isLower || c.isDigit

theorem core_nil : core [] = [] := rfl

theorem core_slash (s : JsStr) : core ('/' :: s) = [] := by
  simp [core, beforeSlash, lower]

theorem core_cons {c : Char} (hc : c ≠ '/') (s : JsStr) :
    core (c :: s) = (if c.toLower.isLower || c.toLower.isDigit then [c.toLower] else []) ++ core s := by
  simp only [core, beforeSlash, lower]
  rw [List.takeWhile_cons_of_pos (by simpa using hc), List.map_cons, List.filter_cons]
  split_ifs <;> rfl

theorem core_cons_space {c : Char} (hc : isSpace c = true) (s : JsStr) : core (c :: s) = core s := by
  have hspace : isSpace c.toLower = true := by rw [isSpace_toLower, hc]
  have hdigit : c.toLower.isDigit = false := by
    by_contra h
    rw [not_isSpace_of_isDigit (eq_true_of_ne_false h)] at hspace
    cases hspace
  have hlower : c.toLower.isLower = false := by
    by_contra h
    have hrange := isLower_toNat (eq_true_of_ne_false h)
    rw [not_isSpace (by omega) (by omega)] at hspace
    cases hspace
  have hslash : c ≠ '/' := by
    rintro rfl
    cases hc
  rw [core_cons hslash, hdigit, hlower]
  rfl

theorem core_hash (s : JsStr) : core ('#' :: s) = core s := core_cons (by decide) s

theorem core_stripHash (s : JsStr) : core (stripHash s) = core s := by
  unfold stripHash
  split
  · exact (core_hash _).symm
  · rfl

theorem beforeSlash_eq_self {s : JsStr} (h : '/' ∉ s) : beforeSlash s = s := by
  rw [beforeSlash, List.takeWhile_eq_self_iff]
  intro c hc
  have hne : c ≠ '/' := by
    rintro rfl
    exact h hc
  simpa using hne

theorem slash_notMem_beforeSlash (s : JsStr) : '/' ∉ beforeSlash s := by
  intro h
  have hslash := List.mem_takeWhile_imp h
  simp at hslash

theorem core_beforeSlash (s : JsStr) : core (beforeSlash s) = core s := by
  rw [core, beforeSlash_eq_self (slash_notMem_beforeSlash s), core]

theorem core_dropWhile (s : JsStr) : core (s.dropWhile isSpace) = core s := by
  induction s with
  | nil => rfl
  | cons c s ih =>
    by_cases hc : isSpace c = true
    · rw [List.dropWhile_cons_of_pos hc, ih, core_cons_space hc]
    · rw [List.dropWhile_cons_of_neg hc]

theorem core_append_spaces {t : JsStr} (ht : ∀ c ∈ t, isSpace c = true) (s : JsStr) :
    core (s ++ t) = core s := by
  induction s with
  | nil =>
    induction t with
    | nil => rfl
    | cons c t ih =>
      have htail := ih fun d hd => ht d (List.mem_cons_of_mem c hd)
      rw [List.nil_append] at htail ⊢
      rw [core_cons_space (ht c List.mem_cons_self), htail]
  | cons c s ih =>
    by_cases hc : c = '/'
    · rw [hc, List.cons_append, core_slash, core_slash]
    · rw [List.cons_append, core_cons hc, core_cons hc, ih]

theorem core_trim (s : JsStr) : core (trim s) = core s := by
  have hsplit := List.takeWhile_append_dropWhile (p := isSpace) (l := (s.dropWhile isSpace).reverse)
  have hback : s.dropWhile isSpace =
      trim s ++ ((s.dropWhile isSpace).reverse.takeWhile isSpace).reverse := by
    rw [trim, ← List.reverse_append, hsplit, List.reverse_reverse]
  rw [← core_dropWhile s, hback, core_append_spaces]
  intro c hc
  exact List.mem_takeWhile_imp (List.mem_reverse.mp hc)

/-- Lowering changes a character into a small letter or not at all. -/
theorem toLower_cases (c : Char) :
    c.toLower = c ∨ 97 ≤ c.toLower.toNat ∧ c.toLower.toNat ≤ 122 := by
  by_cases h : c.val ≥ 'A'.val ∧ c.val ≤ 'Z'.val
  · right
    have hlow : 65 ≤ c.toNat := h.1
    have hhigh : c.toNat ≤ 90 := h.2
    have hval := toNat_toLower h
    omega
  · exact .inl (dif_neg h)

theorem toLower_ne_slash {c : Char} (h : c ≠ '/') : c.toLower ≠ '/' := by
  intro hlower
  rcases toLower_cases c with heq | ⟨hlow, -⟩
  · exact h (heq.symm.trans hlower)
  · rw [hlower] at hlow
    exact absurd hlow (by decide)

theorem core_lower (s : JsStr) : core (lower s) = core s := by
  induction s with
  | nil => rfl
  | cons c s ih =>
    have hcons : lower (c :: s) = c.toLower :: lower s := rfl
    by_cases hc : c = '/'
    · rw [hcons, hc, core_slash]
      exact core_slash _
    · rw [hcons, core_cons (toLower_ne_slash hc), core_cons hc, ih, toLower_toLower]

theorem core_startWith_space (s : JsStr) : core (startWith ' ' s) = core s := by
  cases s with
  | nil => rfl
  | cons c s =>
    rw [startWith]
    split_ifs
    · rfl
    · exact core_cons_space rfl _

theorem core_collapse (s : JsStr) : core (collapse s) = core s := by
  induction s with
  | nil => rfl
  | cons c s ih =>
    rw [collapse]
    split_ifs with hc
    · rw [core_startWith_space, ih, core_cons_space hc]
    · by_cases hslash : c = '/'
      · rw [hslash, core_slash, core_slash]
      · rw [core_cons hslash, core_cons hslash, ih]

theorem normalizeCardNumberForBucketKey_eq (num : Option JsStr) :
    normalizeCardNumberForBucketKey num = core (num.getD []) := by
  rw [← core_stripHash, ← core_trim]
  unfold normalizeCardNumberForBucketKey
  dsimp only
  generalize trim (stripHash (num.getD [])) = t
  split_ifs with ht
  · rw [List.isEmpty_iff.mp ht, core_nil]
  · have hslash : '/' ∉ trim (beforeSlash t) := by
      intro hmem
      rw [trim, List.mem_reverse] at hmem
      have hmem' := List.mem_reverse.mp ((List.dropWhile_sublist _).subset hmem)
      exact slash_notMem_beforeSlash t ((List.dropWhile_sublist _).subset hmem')
    rw [← core_beforeSlash t, ← core_trim, core, beforeSlash_eq_self hslash]

theorem getD_nonEmpty (s : JsStr) : (nonEmpty s).getD [] = s := by
  cases s <;> rfl

theorem core_normalizePart (s : JsStr) : core (normalizePart s) = core s := by
  rw [normalizePart, core_collapse, core_lower, core_trim]

/-- Both ways to the number of a card end with its core. -/
theorem cardNumber_agrees (rawNum : JsStr) :
    normalizeCardNumberForBucketKey (nonEmpty (normalizePart (Frontend.primaryCardNumber rawNum))) =
      normalizeCardNumberForBucketKey (nonEmpty (normalizePart rawNum)) := by
  have hprimary : core (Frontend.primaryCardNumber rawNum) = core rawNum := by
    rw [← core_stripHash rawNum, ← core_trim (stripHash rawNum)]
    unfold Frontend.primaryCardNumber
    dsimp only
    split_ifs with ht
    · rw [List.isEmpty_iff.mp ht]
    · rw [core_trim, core_beforeSlash]
  rw [normalizeCardNumberForBucketKey_eq, normalizeCardNumberForBucketKey_eq, getD_nonEmpty,
    getD_nonEmpty, core_normalizePart, core_normalizePart, hprimary]

end CardNumber

section Agreement
variable {F : Type} (N : Numbers F)

/-- The front end takes for the base print what the back end does, unless the slug is the base one. -/
def CardLine.ParallelAgrees (line : CardLine) : Prop :=
  Backend.psaVarietyIndicatesGenericBaseLine (collapse (trim line.variety)) line.brandOrSet = true →
    Frontend.isBaseLine (collapse (trim line.variety)) line.brandOrSet = true ∨
      Backend.slugifyParallelKey (collapse (trim line.variety)) = js "base"

/-- The grades of the two files, and what follows them, agree for a card. -/
def Mirrored (graded : Json F) : Prop :=
  ∀ d, gradedIdentity N graded = .ok d →
    ∃ front back, Frontend.gradeScoreOf N graded d = .ok front ∧
      Backend.gradeScoreOf N graded d = .ok back ∧
      (d.gradingCompany = [] ∨ d.cardName = [] ∨ front = [] ∧ back = [] ∨
        front ≠ [] ∧ back ≠ [] ∧ ∀ line, cardLine N graded d = .ok line →
          front = back ∧ (∃ year, Backend.yearOf N graded = .ok year) ∧ line.ParallelAgrees)

variable {N} {graded : Json F} {d : GradedIdentity}

theorem textOr_ok {v : Option (Json F)} {first s : JsStr} (h : Json.textOr N first v = .ok s)
    (other : JsStr) : ∃ t, Json.textOr N other v = .ok t := by
  unfold Json.textOr at h ⊢
  cases hv : Json.coalesce v none with
  | none => exact ⟨other, rfl⟩
  | some x =>
    rw [hv] at h
    exact ⟨s, h⟩

theorem trimmed_eq_ok {v : Option (Json F)} {s : JsStr} (h : trimmed N v = .ok s) :
    ∃ t, Json.textOr N [] v = .ok t ∧ s = trim t := by
  unfold trimmed at h
  cases ht : Json.textOr N [] v with
  | error e =>
    rw [ht] at h
    cases h
  | ok t =>
    rw [ht] at h
    exact ⟨t, rfl, (Except.ok.inj h).symm⟩

/-- An identity that can be read has a grader that can be read. -/
theorem gradingCompany_of_identity (h : gradedIdentity N graded = .ok d) : ∃ t,
    Json.textOr N [] (Json.field (js "gradingCompany") (some graded)) = .ok t ∧
      d.rawGradingCo = trim t := by
  obtain ⟨rawGradingCo, hco, hrest⟩ := bind_eq_ok.mp h
  obtain ⟨t, ht, hco'⟩ := trimmed_eq_ok hco
  obtain ⟨_, -, hrest⟩ := bind_eq_ok.mp hrest
  obtain ⟨_, -, hrest⟩ := bind_eq_ok.mp hrest
  obtain ⟨_, -, hrest⟩ := bind_eq_ok.mp hrest
  obtain ⟨_, -, hrest⟩ := bind_eq_ok.mp hrest
  obtain ⟨_, -, hrest⟩ := bind_eq_ok.mp hrest
  obtain ⟨_, -, hrest⟩ := bind_eq_ok.mp hrest
  obtain ⟨_, -, hrest⟩ := bind_eq_ok.mp hrest
  obtain rfl := Except.ok.inj hrest
  exact ⟨t, ht, hco'⟩

theorem backend_gradeScoreOf (h : gradedIdentity N graded = .ok d) :
    ∃ back, Backend.gradeScoreOf N graded d = .ok back := by
  obtain ⟨t, ht, -⟩ := gradingCompany_of_identity h
  obtain ⟨company, hcompany⟩ := textOr_ok ht (js "PSA")
  unfold Backend.gradeScoreOf gradeOr
  split_ifs
  · exact ⟨_, by rw [Backend.psaGradePolicyInputFromGraded, hcompany]; rfl⟩
  · exact ⟨_, rfl⟩

/-- A value with a fallback is the value or, where it is nullish, the fallback. -/
theorem coalesce_cases (v w : Option (Json F)) :
    Json.coalesce v none = none ∧ Json.coalesce v w = w ∨
      ∃ x, Json.coalesce v none = some x ∧ Json.coalesce (Json.coalesce v w) none = some x := by
  rcases v with _ | x
  · exact .inl ⟨rfl, rfl⟩
  · cases x with
    | null => exact .inl ⟨rfl, rfl⟩
    | bool b => exact .inr ⟨.bool b, rfl, rfl⟩
    | num x => exact .inr ⟨.num x, rfl, rfl⟩
    | str s => exact .inr ⟨.str s, rfl, rfl⟩
    | arr xs => exact .inr ⟨.arr xs, rfl, rfl⟩
    | obj fields => exact .inr ⟨.obj fields, rfl, rfl⟩

/-- Where the front end's grade throws, the card names no grader. -/
theorem gradingCompany_of_frontend_error (h : gradedIdentity N graded = .ok d) {e : TypeError}
    (herr : Frontend.gradeScoreOf N graded d = .error e) : d.gradingCompany = [] := by
  obtain ⟨t, ht, hco⟩ := gradingCompany_of_identity h
  unfold Frontend.gradeScoreOf gradeOr at herr
  split_ifs at herr
  rcases coalesce_cases (Json.field (js "gradingCompany") (some graded))
    (Json.coalesce (Json.field (js "company") (Json.field (js "psa") (some graded)))
      (Json.field (js "gradingCompany") (Json.field (js "psa") (some graded)))) with
    ⟨hnone, -⟩ | ⟨x, hx, hboth⟩
  · rw [Json.textOr, hnone] at ht
    rw [GradedIdentity.gradingCompany, hco, ← Except.ok.inj ht]
    rfl
  · rw [Json.textOr, hx] at ht
    rw [Frontend.psaGradePolicyInputFromGraded, Json.textOr, hboth] at herr
    dsimp only at ht herr
    rw [ht] at herr
    cases herr

def incomplete (d : GradedIdentity) (gradeScore : JsStr) : Bool :=
  d.gradingCompany.isEmpty || d.cardName.isEmpty || gradeScore.isEmpty

/-- The payload that the front end hashes, once it has the grade. -/
theorem frontend_payload (h : gradedIdentity N graded = .ok d) {front : JsStr}
    (hfront : Frontend.gradeScoreOf N graded d = .ok front) :
    (Frontend.extractFromGraded N graded).map (Option.map MarketBucketComponents.payload) =
      if incomplete d front then .ok none
      else (cardLine N graded d).map fun line => some
        (componentsOf N graded d front (normalizePart (Frontend.primaryCardNumber d.rawNum)) line
          (Frontend.marketParallelKeyFromPsaVariety line.variety line.brandOrSet) none).payload := by
  have hnum : (if d.rawNum.isEmpty = true then []
      else normalizePart (Frontend.primaryCardNumber d.rawNum)) =
        normalizePart (Frontend.primaryCardNumber d.rawNum) := by
    split_ifs with hraw
    · rw [List.isEmpty_iff.mp hraw]
      rfl
    · rfl
  unfold Frontend.extractFromGraded incomplete
  simp only [h, hfront, hnum, bind, Except.bind]
  by_cases hinc : (d.gradingCompany.isEmpty || d.cardName.isEmpty || front.isEmpty) = true
  · rw [if_pos hinc, if_pos hinc]
    rfl
  · rw [if_neg hinc, if_neg hinc]
    cases cardLine N graded d with
    | error e => rfl
    | ok line => rfl

/-- The payload that the back end hashes, once it has the grade. -/
theorem backend_payload (h : gradedIdentity N graded = .ok d) {back : JsStr}
    (hback : Backend.gradeScoreOf N graded d = .ok back) :
    (Backend.diagnoseGraded N graded).map
        (fun r => r.components.map MarketBucketComponents.payload) =
      if incomplete d back then .ok none
      else (cardLine N graded d).bind fun line => (Backend.yearOf N graded).map fun year => some
        (componentsOf N graded d back (normalizePart d.rawNum) line
          (Backend.marketParallelKeyFromPsaVariety line.variety line.brandOrSet) year).payload := by
  have hnum : (if d.rawNum.isEmpty = true then [] else normalizePart d.rawNum) =
      normalizePart d.rawNum := by
    split_ifs with hraw
    · rw [List.isEmpty_iff.mp hraw]
      rfl
    · rfl
  unfold Backend.diagnoseGraded incomplete
  simp only [h, hback, hnum, bind, Except.bind]
  by_cases hco : d.gradingCompany.isEmpty = true
  · simp only [hco, if_true, Bool.true_or]
    rfl
  by_cases hname : d.cardName.isEmpty = true
  · simp only [hco, hname, if_true, Bool.true_or, Bool.or_true]
    rfl
  by_cases hgrade : back.isEmpty = true
  · simp only [hco, hname, hgrade, if_true, Bool.or_true]
    rfl
  simp only [hco, hname, hgrade, Bool.or_false, Bool.false_eq_true, if_false]
  cases cardLine N graded d with
  | error e => rfl
  | ok line =>
    cases Backend.yearOf N graded with
    | error e => rfl
    | ok year => rfl

/-- Two optional payloads have one key under every hash if and only if they are equal. -/
theorem forall_hash_iff {p q : Except TypeError (Option BucketPayload)} :
    (∀ hash : BucketPayload → JsStr, p.map (Option.map hash) = q.map (Option.map hash)) ↔ p = q := by
  constructor
  · intro h
    rcases p with ⟨⟨⟩⟩ | x
    · rcases q with ⟨⟨⟩⟩ | y
      · rfl
      · cases h fun _ => []
    · rcases q with ⟨⟨⟩⟩ | y
      · cases h fun _ => []
      · cases x with
        | none =>
          cases y with
          | none => rfl
          | some y => cases h fun _ => []
        | some x =>
          cases y with
          | none => cases h fun _ => []
          | some y =>
            have hxy := h fun r => if r = x then [] else js "other"
            by_cases hyx : y = x
            · rw [hyx]
            · simp [Except.map, hyx, js] at hxy
  · rintro rfl hash
    rfl

/-- With a grade on both sides the payloads differ in the grade or in the parallel only. -/
theorem payload_eq_iff {front back : JsStr} {line : CardLine} {year : Option F} :
    (componentsOf N graded d front (normalizePart (Frontend.primaryCardNumber d.rawNum)) line
        (Frontend.marketParallelKeyFromPsaVariety line.variety line.brandOrSet) none).payload =
      (componentsOf N graded d back (normalizePart d.rawNum) line
        (Backend.marketParallelKeyFromPsaVariety line.variety line.brandOrSet) year).payload ↔
      front = back ∧ line.ParallelAgrees := by
  have hnumber := cardNumber_agrees d.rawNum
  have hparallel : orBase (lower (trim (Frontend.marketParallelKeyFromPsaVariety line.variety
        line.brandOrSet))) = orBase (lower (trim (Backend.marketParallelKeyFromPsaVariety
        line.variety line.brandOrSet))) ↔ line.ParallelAgrees := by
    rw [parallelText_frontend, parallelText_backend]
    exact marketParallelKey_eq_iff
  simp only [MarketBucketComponents.payload, componentsOf, BucketPayload.mk.injEq, hnumber,
    hparallel, true_and, and_true]

theorem mirrored_of_grades (hd : gradedIdentity N graded = .ok d) {front back : JsStr}
    (hfront : Frontend.gradeScoreOf N graded d = .ok front)
    (hback : Backend.gradeScoreOf N graded d = .ok back) :
    Mirrored N graded ↔
      d.gradingCompany = [] ∨ d.cardName = [] ∨ front = [] ∧ back = [] ∨
        front ≠ [] ∧ back ≠ [] ∧ ∀ line, cardLine N graded d = .ok line →
          front = back ∧ (∃ year, Backend.yearOf N graded = .ok year) ∧ line.ParallelAgrees := by
  constructor
  · intro h
    obtain ⟨front', back', hfront', hback', hrest⟩ := h d hd
    obtain rfl := Except.ok.inj (hfront.symm.trans hfront')
    obtain rfl := Except.ok.inj (hback.symm.trans hback')
    exact hrest
  · intro h d' hd'
    obtain rfl := Except.ok.inj (hd.symm.trans hd')
    exact ⟨front, back, hfront, hback, h⟩

theorem mirrored_iff (graded : Json F) :
    (Frontend.extractFromGraded N graded).map (Option.map MarketBucketComponents.payload) =
        (Backend.diagnoseGraded N graded).map
          (fun r => r.components.map MarketBucketComponents.payload) ↔
      Mirrored N graded := by
  cases hd : gradedIdentity N graded with
  | error e =>
    have hfront : Frontend.extractFromGraded N graded = .error e := by
      simp only [Frontend.extractFromGraded, hd, bind, Except.bind]
    have hback : Backend.diagnoseGraded N graded = .error e := by
      simp only [Backend.diagnoseGraded, hd, bind, Except.bind]
    rw [hfront, hback]
    simp [Mirrored, hd, Except.map]
  | ok d =>
    obtain ⟨back, hback⟩ := backend_gradeScoreOf hd
    rw [backend_payload hd hback]
    cases hfront : Frontend.gradeScoreOf N graded d with
    | error e =>
      have hco := gradingCompany_of_frontend_error hd hfront
      have herror : Frontend.extractFromGraded N graded = .error e := by
        simp only [Frontend.extractFromGraded, hd, hfront, bind, Except.bind]
      have hnot : ¬ Mirrored N graded := by
        intro h
        obtain ⟨front, _, hok, -⟩ := h d hd
        rw [hfront] at hok
        cases hok
      simp [herror, incomplete, hco, Except.map, hnot]
    | ok front =>
      rw [frontend_payload hd hfront, mirrored_of_grades hd hfront hback]
      by_cases hco : d.gradingCompany = []
      · simp [incomplete, hco]
      by_cases hname : d.cardName = []
      · simp [incomplete, hco, hname]
      have hnil : ∀ s : JsStr, incomplete d s = s.isEmpty := by
        intro s
        simp [incomplete, hco, hname]
      rw [hnil, hnil]
      by_cases hf : front = []
      · by_cases hb : back = []
        · simp [hf, hb]
        · cases hline : cardLine N graded d with
          | error e => simp [hco, hname, hf, hb, Except.bind]
          | ok line =>
            cases hyear : Backend.yearOf N graded with
            | error e => simp [hco, hname, hf, hb, Except.bind, Except.map]
            | ok year => simp [hco, hname, hf, hb, Except.bind, Except.map]
      · by_cases hb : back = []
        · cases hline : cardLine N graded d with
          | error e => simp [hco, hname, hf, hb, Except.map]
          | ok line => simp [hco, hname, hf, hb, Except.map]
        · cases hline : cardLine N graded d with
          | error e => simp [hco, hname, hf, hb, Except.bind, Except.map]
          | ok line =>
            cases hyear : Backend.yearOf N graded with
            | error e => simp [hco, hname, hf, hb, Except.bind, Except.map]
            | ok year => simp [hco, hname, hf, hb, Except.bind, Except.map, payload_eq_iff]

end Agreement

section Runs

/-- Numbers without a fraction. -/
def wholeNumbers : Numbers ℕ where
  isFinite := fun _ => true
  isNaN := fun _ => false
  ofNat := id
  tiny := 1
  text := ofNat
  parseFloat := fun s => toNat (s.takeWhile Char.isDigit)
  round := id
  floor := id
  trunc := id
  abs := id
  sub := fun x y => x - y
  lt := fun x y => x < y
  le := fun x y => x ≤ y

def jsonObj (fields : List (String × Json ℕ)) : Json ℕ := .obj (fields.map fun f => (js f.1, f.2))

def jsonStr (s : String) : Json ℕ := .str (js s)

/-- The metadata of a PSA 10 card with the given `Variety` line. -/
def charizard (variety : String) : Json ℕ :=
  jsonObj [("properties", jsonObj [("graded", jsonObj [("gradingCompany", jsonStr "PSA"),
    ("card", jsonObj [("name", jsonStr "Charizard ex"), ("set", jsonStr "Obsidian Flames"),
      ("number", jsonStr "#228/197")]),
    ("grade", jsonObj [("score", .num 10)]),
    ("psa", jsonObj [("variety", jsonStr variety)])])])]

/-- A print that both files name. -/
example : Frontend.bucketKey wholeNumbers BucketPayload.marketParallelKey
    (some (charizard "REVERSE HOLO")) = .ok (some (js "reverse_holo")) := by decide +kernel

end Runs

end Cards
