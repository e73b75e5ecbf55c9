import Tokenable.Js.Json
import Tokenable.Js.Regex

/-!
# PSA grades

The grade policy of `psa-grade-policy.util.ts` and of the front end's `psaGradePolicy.ts`, which
mirrors it, and the grade text of a bucket. The files have the same functions, except for the one
that reads the policy's input from a token's metadata.
-/

namespace Cards
open Js Regex

inductive PsaGradePolicyClass where
  | psa10 | psaSub10 | psaQualifier | unknown
  deriving DecidableEq

structure PsaGradePolicyInput (F : Type) where
  gradingCompany : JsStr
  gradeScore : Option (Json F)
  gradeLabel : Option JsStr
  gradeDescription : Option JsStr

section Policy
variable {F : Type} (N : Numbers F)

/-- `s.replace(',', '.')` -/
def replaceComma : JsStr → JsStr
  | [] => []
  | c :: s => if c = ',' then '.' :: s else c :: replaceComma s

def finite (x : F) : Option F := if N.isFinite x then some x else none

def parseFiniteGradeScore : Option (Json F) → Option F
  | some (.num x) => finite N x
  | some (.str s) =>
    let t := trim s
    if t.isEmpty || lower t = js "auth" then none else finite N (N.parseFloat (replaceComma t))
  | _ => none

/-- `NM\s*-?\s*MT` -/
def nearMint : Regex :=
  seqs [lit "nm", star space, opt (lit "-"), star space, lit "mt"]

/-- `GEM\s*MT` -/
def gemMint : Regex := seqs [lit "gem", star space, lit "mt"]

/-- Parse a numeric grade from the label when there is no `gradeScore`. -/
def parseGradeScoreFromLabelText (s : JsStr) : Option F :=
  let t := trim s
  if t.isEmpty then none
  else
    (group
      (seq boundary (opt (alts (([lit "psa", gemMint, lit "mint", nearMint]).map fun r =>
        seq r (star space)))))
      (seqs [digit, opt digit, opt (seq (lit ".") (plus digit))])
      boundary (lower t)).bind fun m => finite N (N.parseFloat m)

/-- The label and the description, the blank ones left out. -/
def psaQualifierText (input : PsaGradePolicyInput F) : JsStr :=
  (js " ").intercalate
    (([input.gradeLabel, input.gradeDescription].map fun s => trim (s.getD [])).filter
      fun s => !s.isEmpty)

def effectiveGradeScore (input : PsaGradePolicyInput F) : Option F :=
  match parseFiniteGradeScore N input.gradeScore with
  | some score => some score
  | none => parseGradeScoreFromLabelText N (psaQualifierText input)

def isPsaQualifierGradeText (s : JsStr) : Bool :=
  let u := upper (trim s)
  if u.isEmpty then false
  else if testI (word (seqs [alts [gemMint, lit "mint", nearMint, lit "psa"], star space,
      char fun c => '1' ≤ c ∧ c ≤ '9', opt (seq (lit ".") digit)])) u then false
  else
    testI (word (seqs [lit "aa", star space, lit ":", star space, lit "authentic"])) u ||
      testI (word (spaced ["authentic", "altered"])) u ||
      testI (word (seqs [lit "auth", opt (lit "entic"), opt (seq (plus space) (lit "altered"))])) u

/-- `Math.floor(score)` is between the bounds. -/
def floorWithin (low high : ℕ) (score : F) : Bool :=
  N.le (N.ofNat low) (N.floor score) && N.le (N.floor score) (N.ofNat high)

def classifyPsaGradePolicy (input : PsaGradePolicyInput F) : PsaGradePolicyClass :=
  let byText := if isPsaQualifierGradeText (psaQualifierText input) then .psaQualifier else .unknown
  match effectiveGradeScore N input with
  | some score =>
    if N.equals (N.floor score) 10 then .psa10
    else if floorWithin N 1 9 score then .psaSub10
    else byText
  | none => byText

/-- The grade of a bucket: a floored number, or `auth`. -/
def bucketGradeScoreFromPsaGradeInput (input : PsaGradePolicyInput F) : Option JsStr :=
  let numeric := (effectiveGradeScore N input).bind fun score =>
    if floorWithin N 1 10 score then some (N.text (N.floor score)) else none
  match classifyPsaGradePolicy N input with
  | .psa10 => if (effectiveGradeScore N input).isNone then some (js "10") else numeric
  | .psaSub10 => numeric
  | .psaQualifier => some (js "auth")
  | .unknown => none

def trimFloatString (x : F) : JsStr :=
  if N.lt (N.abs (N.sub x (N.round x))) N.tiny then N.text (N.round x) else N.text x

/-- The text of a number or of the number that a text begins with. -/
def normalizeGradeScore (v : Option (Json F)) : Except TypeError JsStr :=
  let ofText : Except TypeError JsStr := (Json.textOr N [] v).map fun s =>
    let n := N.parseFloat (replaceComma s)
    if N.isNaN n then [] else trimFloatString N n
  match v with
  | some (.num x) => if N.isFinite x then .ok (trimFloatString N x) else ofText
  | _ => ofText

end Policy

/-- The input of the policy, from the values that a file reads for the grader and the score. -/
def policyInput {F : Type} (gradingCompany : JsStr) (gradeScore psa grade : Option (Json F)) :
    PsaGradePolicyInput F where
  gradingCompany := gradingCompany
  gradeScore := gradeScore
  gradeLabel :=
    match Json.asString (Json.field (js "gradeLabel") psa) with
    | some label => some label
    | none => Json.asString (Json.field (js "label") grade)
  gradeDescription := Json.asString (Json.field (js "gradeDescription") psa)

namespace Backend
variable {F : Type} (N : Numbers F)

def psaGradePolicyInputFromGraded (graded : Option (Json F)) :
    Except TypeError (PsaGradePolicyInput F) := do
  let psa := Json.field (js "psa") graded
  let grade := Json.field (js "grade") graded
  let gradingCompany ← Json.textOr N (js "PSA") (Json.field (js "gradingCompany") graded)
  pure (policyInput gradingCompany
    (Json.coalesce (Json.field (js "gradeScore") psa)
      (Json.coalesce (Json.field (js "score") grade) (Json.field (js "gradeScore") graded)))
    psa grade)

end Backend

namespace Frontend
variable {F : Type} (N : Numbers F)

/-- The front end also looks at `psa.company`, `psa.gradingCompany`, `psa.score` and `psa.grade`. -/
def psaGradePolicyInputFromGraded (graded : Option (Json F)) :
    Except TypeError (PsaGradePolicyInput F) := do
  let psa := Json.field (js "psa") graded
  let grade := Json.field (js "grade") graded
  let gradingCompany ← Json.textOr N (js "PSA")
    (Json.coalesce (Json.field (js "gradingCompany") graded)
      (Json.coalesce (Json.field (js "company") psa) (Json.field (js "gradingCompany") psa)))
  pure (policyInput gradingCompany
    (Json.coalesce (Json.field (js "gradeScore") psa)
      (Json.coalesce (Json.field (js "score") grade)
        (Json.coalesce (Json.field (js "gradeScore") graded)
          (Json.coalesce (Json.field (js "score") psa) (Json.field (js "grade") psa)))))
    psa grade)

end Frontend

end Cards
