import Tokenable.Js.Regex

/-!
# Parallels

Which PSA `Variety` lines name a parallel of a card, and the slug of the ones that do: the back
end's `psa-variety-catalog.util.ts` and `market-parallel-key.util.ts`, and the shorter rules of the
front end's `bucketKey.ts`. A line that the front end takes for the base print is one for the back
end too (`genericBase_of_frontend`).
-/

namespace Cards
open Js Regex

/-- `c` before a text, unless the text begins with it. -/
def startWith (c : Char) : JsStr → JsStr
  | [] => [c]
  | d :: t => if d = c then d :: t else c :: d :: t

/-- `s.replace(/\s+/g, ' ')` -/
def collapse : JsStr → JsStr
  | [] => []
  | c :: s => if isSpace c then startWith ' ' (collapse s) else c :: collapse s

/-- `s.trim().replace(/\s+/g, ' ')` -/
def collapseWhitespaceOnly (s : JsStr) : JsStr := collapse (trim s)

/-- `s.trim().toLowerCase().replace(/\s+/g, ' ')` -/
def normalizePart (s : JsStr) : JsStr := collapse (lower (trim s))

/-- `(?:^|\s)v(?:\s|$)` -/
def phraseOf (v : JsStr) : Regex := seqs [alt start space, literal v, alt space stop]

/-- PSA often copies the expansion or the brand into `Variety`. -/
def psaVarietyIsBrandOrSetDuplicate (psaVariety brandOrSet : JsStr) : Bool :=
  let v := lower (collapse (trim psaVariety))
  let b := lower (collapse (trim brandOrSet))
  if v.isEmpty || b.isEmpty then false
  else if v = b then true
  else if !contains (js " ") v && v.length < 5 then false
  else (phraseOf v).test b

/-- The runs of other characters than `[a-z0-9]` become `_`. -/
def underscored : JsStr → JsStr
  | [] => []
  | c :: s =>
    if c.isLower || c.isDigit then c :: underscored s else startWith '_' (underscored s)

def stripUnderscores (s : JsStr) : JsStr :=
  ((s.dropWhile (· = '_')).reverse.dropWhile (· = '_')).reverse

/-- `s || 'base'` -/
def orBase (s : JsStr) : JsStr := if s.isEmpty then js "base" else s

namespace Backend

def psaVarietyIsCardNumberOnly (variety : JsStr) : Bool :=
  let v := trim variety
  !v.isEmpty && (whole (seq (opt (lit "#")) (plus digit))).test (v.filter fun c => !isSpace c)

def printLanguages : List String :=
  ["english", "japanese", "korean", "chinese", "french", "german", "italian", "spanish",
    "portuguese"]

def psaVarietyIsLanguageOnlyLabel (psaVariety : JsStr) : Bool :=
  (whole (oneOf printLanguages)).testI (trim psaVariety)

/-- The patterns of products and packagings, of which one has to match. -/
def packagingPatterns : List Regex :=
  [word (lit "etb"), word (spaced ["elite", "trainer", "box"]), word (lit "blister"),
    word (spaced ["poster", "collection"]),
    word (seqs [lit "ultra", star (char fun c => isSpace c || c = '-'), lit "premium", plus space,
      lit "collection"]),
    word (seqs [lit "celebration", opt (lit "s"), plus space, lit "collection"]),
    word (alts [spaced ["collection", "box"], spaced ["gift", "collection"],
      spaced ["premium", "collection"], spaced ["special", "collection"]])]

def psaVarietyIsPackagingDescriptor (psaVariety : JsStr) : Bool :=
  let t := lower (trim psaVariety)
  packagingPatterns.any (fun r => r.test t) ||
    (word (lit "tin")).test t && (seq boundary (lit "promo")).test t

/-- The pieces of a text between the characters that satisfy `p`. -/
def splitOn (p : Char → Bool) : JsStr → List JsStr
  | [] => [[]]
  | c :: s =>
    if p c then [] :: splitOn p s
    else
      match splitOn p s with
      | [] => [[c]]
      | piece :: pieces => (c :: piece) :: pieces

/-- The line and its `/`-separated phrases. -/
def psaVarietyLabelPhrases (psaVariety : JsStr) : List JsStr :=
  let raw := collapse (lower (trim psaVariety))
  if raw.isEmpty then []
  else (raw :: ((splitOn (fun c => c = '|' || c = '/') raw).map trim).filter
    fun s => !s.isEmpty).eraseDups

def psaVarietyIsSpecialIllustrationRareLabel (psaVariety : JsStr) : Bool :=
  (psaVarietyLabelPhrases psaVariety).any fun v =>
    (word (lit "sir")).test v || (spaced ["special", "illustration", "rare"]).test v ||
      (spaced ["special", "illustration"]).test v && (word (lit "rare")).test v

def psaVarietyIsIllustrationRareLabel (psaVariety : JsStr) : Bool :=
  !psaVarietyIsSpecialIllustrationRareLabel psaVariety &&
    (psaVarietyLabelPhrases psaVariety).any fun v =>
      (word (spaced ["illustration", "rare"])).test v

/-- Prints that Cardhedger splits onto rows of their own. -/
def psaVarietyNamesPokemonPrintParallel (psaVariety : JsStr) : Bool :=
  let t := collapse (lower (trim psaVariety))
  (word (spaced ["master", "ball"])).test t ||
    (word (seqs [lit "poke", star space, lit "ball"])).test t ||
    (word (seqs [lit "reverse", plus space, oneOf ["holo", "foil", "holofoil"]])).test t

def psaVarietyIsArtRareLabel (psaVariety : JsStr) : Bool :=
  (psaVarietyLabelPhrases psaVariety).any fun v =>
    (whole (spaced ["art", "rare"])).test v ||
      (word (lit "ar")).test v && (word (lit "rare")).test v

def psaVarietyIsSpecialArtRareLabel (psaVariety : JsStr) : Bool :=
  (psaVarietyLabelPhrases psaVariety).any fun v =>
    (spaced ["special", "art", "rare"]).test v || (whole (lit "sar")).test v ||
      (word (lit "sar")).test v && !(lit "illustration").test v

/-- The remaining patterns of a phrase that names a rarity. -/
def rarityPatterns : List Regex :=
  [whole (spaced ["full", "art"]),
    seqs [lit "vmax", star (char fun c => isSpace c || c = '-'), lit "hyper"], whole (lit "hyper"),
    seqs [char fun c => isSpace c || c = '-', lit "hyper", opt (seq (plus space) (lit "rare")), stop],
    whole (seqs [opt (seq (lit "mega") (plus space)), oneOf ["ultra", "hyper", "secret", "amazing"],
      plus space, lit "rare"]),
    whole (seqs [oneOf ["double", "triple", "character", "rainbow", "gold", "shiny"], plus space,
      lit "rare"]),
    whole (alts [spaced ["ace", "spec"], spaced ["trainer", "gallery"]]),
    whole (oneOf ["sar", "sir", "ir", "hr", "ur", "sr", "rr", "rrr", "csr", "ssr", "mur", "ar"])]

def phraseIsPokemonRaritySlot (phrase : JsStr) : Bool :=
  let v := collapse (lower (trim phrase))
  !v.isEmpty && (psaVarietyIsSpecialIllustrationRareLabel v || psaVarietyIsIllustrationRareLabel v ||
    psaVarietyIsSpecialArtRareLabel v || psaVarietyIsArtRareLabel v ||
    rarityPatterns.any fun r => r.test v)

def psaVarietyIsPokemonRarityLabel (psaVariety : JsStr) : Bool :=
  let raw := trim psaVariety
  !raw.isEmpty && !psaVarietyNamesPokemonPrintParallel raw &&
    (psaVarietyLabelPhrases raw).any phraseIsPokemonRaritySlot

/-- `^(basketball|…)(\s+cards)?$` -/
def sportLine : Regex :=
  whole (seq (oneOf ["basketball", "baseball", "football", "hockey", "soccer"])
    (opt (seq (plus space) (lit "cards"))))

/-- The line describes the flagship print, not an insert. -/
def psaVarietyIndicatesGenericBaseLine (psaVariety brandOrSet : JsStr) : Bool :=
  let v := trim psaVariety
  v.isEmpty || psaVarietyIsCardNumberOnly v || psaVarietyIsLanguageOnlyLabel v ||
    psaVarietyIsPackagingDescriptor v || psaVarietyIsPokemonRarityLabel v ||
    psaVarietyIsBrandOrSetDuplicate v brandOrSet || (word (lit "base")).test (lower v) ||
    sportLine.testI v

def psaVarietyRequiresNonBaseCardhedgerRow (psaVariety brandOrSet : JsStr) : Bool :=
  !(trim psaVariety).isEmpty && !psaVarietyIndicatesGenericBaseLine psaVariety brandOrSet

def slugifyParallelKey (raw : JsStr) : JsStr :=
  orBase ((stripUnderscores (underscored (lower (trim raw)))).take 96)

def marketParallelKeyFromPsaVariety (psaVariety brandOrSet : JsStr) : JsStr :=
  let raw := collapse (trim psaVariety)
  if raw.isEmpty then js "base"
  else if !psaVarietyRequiresNonBaseCardhedgerRow raw brandOrSet then js "base"
  else slugifyParallelKey raw

end Backend

namespace Frontend

/-- The front end's own tests for the base print. -/
def isBaseLine (raw brandOrSet : JsStr) : Bool :=
  (whole (lit "english")).testI raw || (whole (lit "japanese")).testI raw ||
    (whole (seq (lit "base") (opt (seqs [plus space, lit "card", opt (lit "s")])))).testI raw ||
    psaVarietyIsBrandOrSetDuplicate raw brandOrSet

def marketParallelKeyFromPsaVariety (psaVariety brandOrSet : JsStr) : JsStr :=
  let raw := collapse (trim psaVariety)
  if raw.isEmpty then js "base"
  else if isBaseLine raw brandOrSet then js "base"
  else orBase ((stripUnderscores (underscored (lower raw))).take 96)

end Frontend

section Text

theorem trim_eq_self_of_ends {s : JsStr} (hfirst : ∀ c ∈ s.head?, isSpace c = false)
    (hlast : ∀ c ∈ s.getLast?, isSpace c = false) : trim s = s := by
  have hdrop : ∀ l : JsStr, (∀ c ∈ l.head?, isSpace c = false) → l.dropWhile isSpace = l := by
    intro l hl
    cases l with
    | nil => rfl
    | cons c l => simp [hl c rfl]
  have hrev : ∀ c ∈ s.reverse.head?, isSpace c = false := by
    rw [List.head?_reverse]
    exact hlast
  rw [trim, hdrop s hfirst, hdrop _ hrev, List.reverse_reverse]

theorem head_trim {s : JsStr} : ∀ c ∈ (trim s).head?, isSpace c = false := by
  intro c hc
  obtain ⟨rest, hrest⟩ : trim s <+: s.dropWhile isSpace := List.rdropWhile_prefix isSpace _
  have hhead : (s.dropWhile isSpace).head? = some c := by
    rw [← hrest, List.head?_append, Option.mem_def.mp hc]
    rfl
  have hnot := List.head?_dropWhile_not isSpace s
  rw [hhead] at hnot
  simpa using hnot

theorem getLast_trim {s : JsStr} : ∀ c ∈ (trim s).getLast?, isSpace c = false := by
  intro c hc
  rw [trim, List.getLast?_reverse] at hc
  have hnot := List.head?_dropWhile_not isSpace (s.dropWhile isSpace).reverse
  rw [Option.mem_def.mp hc] at hnot
  simpa using hnot

theorem startWith_concat {c d : Char} (hd : d ≠ c) (t : JsStr) :
    startWith c (t ++ [d]) = startWith c t ++ [d] := by
  cases t with
  | nil => simp [startWith, hd]
  | cons e t =>
    by_cases he : e = c
    · simp [startWith, he]
    · simp [startWith, he]

theorem collapse_concat {c : Char} (hc : isSpace c = false) (s : JsStr) :
    collapse (s ++ [c]) = collapse s ++ [c] := by
  have hne : c ≠ ' ' := by
    rintro rfl
    cases hc
  induction s with
  | nil => simp [collapse, hc]
  | cons d s ih =>
    rw [List.cons_append, collapse, collapse, ih]
    split_ifs
    · exact startWith_concat hne _
    · rfl

/-- A text that is trimmed and collapsed has no white space at its ends. -/
theorem trim_collapse_trim (s : JsStr) : trim (collapse (trim s)) = collapse (trim s) := by
  have hhead := head_trim (s := s)
  have hlast := getLast_trim (s := s)
  cases htrim : trim s with
  | nil => rfl
  | cons c t =>
    rw [htrim] at hhead hlast
    have hc : isSpace c = false := hhead c rfl
    apply trim_eq_self_of_ends
    · intro d hd
      have hcons : collapse (c :: t) = c :: collapse t := by simp [collapse, hc]
      rw [hcons] at hd
      exact Option.some.inj hd ▸ hc
    · intro d hd
      obtain ⟨pre, last, hpre⟩ : ∃ pre last, c :: t = pre ++ [last] :=
        ⟨_, _, (List.dropLast_append_getLast (List.cons_ne_nil c t)).symm⟩
      have hnot : isSpace last = false := hlast last (by rw [hpre, List.getLast?_concat]; rfl)
      rw [hpre, collapse_concat hnot, List.getLast?_concat] at hd
      exact Option.some.inj hd ▸ hnot

end Text

section Slug

def isSlugChar (c : Char) : Bool := c.isLower || c.isDigit || c = '_'

theorem startWith_all {p : Char → Bool} {c : Char} {t : JsStr} (hc : p c = true)
    (ht : ∀ d ∈ t, p d = true) : ∀ d ∈ startWith c t, p d = true := by
  cases t with
  | nil => simpa [startWith] using hc
  | cons e t =>
    rw [startWith]
    split_ifs
    · exact ht
    · exact List.forall_mem_cons.mpr ⟨hc, ht⟩

theorem isSlugChar_base : ∀ c ∈ js "base", isSlugChar c = true := by
  have hall : (js "base").all isSlugChar = true := by decide
  exact List.all_eq_true.mp hall

theorem isSlugChar_underscored (s : JsStr) : ∀ c ∈ underscored s, isSlugChar c = true := by
  induction s with
  | nil => simp [underscored]
  | cons c s ih =>
    unfold underscored
    split_ifs with hc
    · refine List.forall_mem_cons.mpr ⟨?_, ih⟩
      simp [isSlugChar, hc]
    · exact startWith_all rfl ih

theorem isSlugChar_slugifyParallelKey (raw : JsStr) :
    ∀ c ∈ Backend.slugifyParallelKey raw, isSlugChar c = true := by
  intro c hc
  unfold Backend.slugifyParallelKey orBase at hc
  split_ifs at hc
  · exact isSlugChar_base c hc
  · apply isSlugChar_underscored (lower (trim raw)) c
    have hstrip := List.mem_of_mem_take hc
    rw [stripUnderscores, List.mem_reverse] at hstrip
    have hinner := (List.dropWhile_sublist _).subset hstrip
    exact (List.dropWhile_sublist _).subset (List.mem_reverse.mp hinner)

theorem slugChar_range {c : Char} (h : isSlugChar c = true) :
    33 ≤ c.toNat ∧ c.toNat ≤ 126 ∧ c.toLower = c := by
  simp only [isSlugChar, Bool.or_eq_true, decide_eq_true_eq] at h
  have hlower : ¬ (c.val ≥ 'A'.val ∧ c.val ≤ 'Z'.val) → c.toLower = c := fun hc => dif_neg hc
  rcases h with (hlow | hdigit) | rfl
  · have hrange := isLower_toNat hlow
    refine ⟨by omega, by omega, hlower fun hc => ?_⟩
    have hupper : c.toNat ≤ 90 := hc.2
    omega
  · have hrange := isDigit_toNat hdigit
    refine ⟨by omega, by omega, hlower fun hc => ?_⟩
    have hupper : 65 ≤ c.toNat := hc.1
    omega
  · decide

theorem trim_slug {s : JsStr} (h : ∀ c ∈ s, isSlugChar c = true) : trim s = s := by
  refine trim_eq_self fun c hc => ?_
  obtain ⟨hlow, hhigh, -⟩ := slugChar_range (h c hc)
  exact not_isSpace hlow hhigh

theorem lower_slug {s : JsStr} (h : ∀ c ∈ s, isSlugChar c = true) : lower s = s := by
  have hid : s.map Char.toLower = s.map id :=
    List.map_congr_left fun c hc => (slugChar_range (h c hc)).2.2
  rw [lower, hid, List.map_id]

theorem orBase_ne_nil (s : JsStr) : orBase s ≠ [] := by
  unfold orBase
  split_ifs with hs
  · decide
  · intro hnil
    exact hs (by rw [hnil]; rfl)

end Slug

theorem not_isWordChar_of_isSpace {c : Char} (h : isSpace c = true) : isWordChar c = false := by
  by_contra hword
  rw [Bool.not_eq_false] at hword
  have hrange : 33 ≤ c.toNat ∧ c.toNat ≤ 126 := by
    simp only [isWordChar, Bool.or_eq_true, decide_eq_true_eq] at hword
    rcases hword with halphanum | rfl
    · rcases isAlphanum_cases halphanum with (hupper | hlower) | hdigit
      · have hupper' := isUpper_toNat hupper
        omega
      · have hlower' := isLower_toNat hlower
        omega
      · have hdigit' := isDigit_toNat hdigit
        omega
    · decide
  rw [not_isSpace hrange.1 hrange.2] at h
  cases h

/-- `base`, alone or followed by a space, has `base` as a word. -/
theorem word_base_of_whole {s : JsStr}
    (h : (whole (seq (lit "base") (opt (seqs [plus space, lit "card", opt (lit "s")])))).test s =
      true) : (word (lit "base")).test s = true := by
  obtain ⟨q, hq, hnil⟩ := test_whole.mp h
  obtain ⟨m, hm, hrest⟩ := mem_ends_seq.mp hq
  have hlast : s = js "base" ++ m.2 ∧ m.1 = some 'e' := by
    simpa [lit, literal, seqs, js] using hm
  have hnext : m.2.head?.any isWordChar = false := by
    simp only [opt, seqs, List.foldr_cons, plus, space, mem_ends_alt, mem_ends_seq, mem_ends_char,
      mem_ends_empty] at hrest
    rcases hrest with ⟨n, ⟨n', ⟨c, hc, hm2, -⟩, -⟩, -⟩ | rfl
    · rw [hm2]
      exact not_isWordChar_of_isSpace hc
    · rw [hnil]
      rfl
  rw [test_eq_true]
  refine ⟨(none, s), head_mem_places none s, m, ?_⟩
  have hstart : Place.atBoundary (none, s) = true := by
    rw [hlast.1]
    rfl
  have hend : m.atBoundary = true := by
    rw [Place.atBoundary, hlast.2, hnext]
    rfl
  simp only [word, seqs, List.foldr_cons, List.foldr_nil, mem_ends_seq, mem_ends_boundary,
    mem_ends_empty]
  exact ⟨_, ⟨hstart, rfl⟩, m, hm, m, ⟨hend, rfl⟩, rfl⟩

/-- A line that the front end takes for the base print is one for the back end. -/
theorem genericBase_of_frontend {s brandOrSet : JsStr}
    (h : Frontend.isBaseLine (collapse (trim s)) brandOrSet = true) :
    Backend.psaVarietyIndicatesGenericBaseLine (collapse (trim s)) brandOrSet = true := by
  have htrim := trim_collapse_trim s
  simp only [Frontend.isBaseLine, Bool.or_eq_true] at h
  simp only [Backend.psaVarietyIndicatesGenericBaseLine, htrim, Bool.or_eq_true]
  rcases h with ((henglish | hjapanese) | hbase) | hbrand
  · have hlanguage : Backend.psaVarietyIsLanguageOnlyLabel (collapse (trim s)) = true := by
      rw [Backend.psaVarietyIsLanguageOnlyLabel, htrim]
      exact test_whole_oneOf (by decide) henglish
    simp [hlanguage]
  · have hlanguage : Backend.psaVarietyIsLanguageOnlyLabel (collapse (trim s)) = true := by
      rw [Backend.psaVarietyIsLanguageOnlyLabel, htrim]
      exact test_whole_oneOf (by decide) hjapanese
    simp [hlanguage]
  · simp [word_base_of_whole hbase]
  · simp [hbrand]

/-- The slug of a collapsed line is the front end's. -/
theorem slugifyParallelKey_collapse (psaVariety : JsStr) :
    Backend.slugifyParallelKey (collapse (trim psaVariety)) =
      orBase ((stripUnderscores (underscored (lower (collapse (trim psaVariety))))).take 96) := by
  rw [Backend.slugifyParallelKey, trim_collapse_trim]

/-- The slugs of a line agree unless only the back end takes it for the base print. -/
theorem marketParallelKey_eq_iff {psaVariety brandOrSet : JsStr} :
    Frontend.marketParallelKeyFromPsaVariety psaVariety brandOrSet =
        Backend.marketParallelKeyFromPsaVariety psaVariety brandOrSet ↔
      (Backend.psaVarietyIndicatesGenericBaseLine (collapse (trim psaVariety)) brandOrSet = true →
        Frontend.isBaseLine (collapse (trim psaVariety)) brandOrSet = true ∨
          Backend.slugifyParallelKey (collapse (trim psaVariety)) = js "base") := by
  have htrim := trim_collapse_trim psaVariety
  have hmono : Frontend.isBaseLine (collapse (trim psaVariety)) brandOrSet = true →
      Backend.psaVarietyIndicatesGenericBaseLine (collapse (trim psaVariety)) brandOrSet = true :=
    genericBase_of_frontend
  unfold Frontend.marketParallelKeyFromPsaVariety Backend.marketParallelKeyFromPsaVariety
  dsimp only
  rw [← slugifyParallelKey_collapse, Backend.psaVarietyRequiresNonBaseCardhedgerRow, htrim]
  generalize collapse (trim psaVariety) = raw at hmono ⊢
  by_cases hraw : raw.isEmpty = true
  · have hnil : raw = [] := List.isEmpty_iff.mp hraw
    have hbase : Backend.slugifyParallelKey [] = js "base" := by decide
    simp [hnil, hbase]
  · by_cases hfront : Frontend.isBaseLine raw brandOrSet = true
    · simp [hraw, hfront, hmono hfront]
    · by_cases hback : Backend.psaVarietyIndicatesGenericBaseLine raw brandOrSet = true
      · simp [hraw, hfront, hback]
      · simp [hraw, hfront, hback]

/-- A slug is what is hashed for it. -/
theorem slug_text {s : JsStr} (h : ∀ c ∈ s, isSlugChar c = true) (hne : s ≠ []) :
    orBase (lower (trim s)) = s := by
  rw [trim_slug h, lower_slug h, orBase, if_neg (by simpa using hne)]

theorem parallelText_backend (psaVariety brandOrSet : JsStr) :
    orBase (lower (trim (Backend.marketParallelKeyFromPsaVariety psaVariety brandOrSet))) =
      Backend.marketParallelKeyFromPsaVariety psaVariety brandOrSet := by
  unfold Backend.marketParallelKeyFromPsaVariety
  dsimp only
  split_ifs
  · exact slug_text isSlugChar_base (by decide)
  · exact slug_text isSlugChar_base (by decide)
  · exact slug_text (isSlugChar_slugifyParallelKey _) (orBase_ne_nil _)

theorem parallelText_frontend (psaVariety brandOrSet : JsStr) :
    orBase (lower (trim (Frontend.marketParallelKeyFromPsaVariety psaVariety brandOrSet))) =
      Frontend.marketParallelKeyFromPsaVariety psaVariety brandOrSet := by
  unfold Frontend.marketParallelKeyFromPsaVariety
  dsimp only
  split_ifs
  · exact slug_text isSlugChar_base (by decide)
  · exact slug_text isSlugChar_base (by decide)
  · rw [← slugifyParallelKey_collapse]
    exact slug_text (isSlugChar_slugifyParallelKey _) (orBase_ne_nil _)

end Cards
