import Mathlib.Data.List.Basic
import Tokenable.Async.RelyGuarantee
import Tokenable.Async.SharedLoad
import Tokenable.Js.Json

/-!
# The client of the PSA public API

`PsaPublicApiService`: the lookups of a certificate, of its file-append record and of its images.
Each looks into its cache, joins a lookup of the same number that is in flight, or asks PSA with
the next token of the pool, again after a response 429. `JSON.parse` is a parameter.

`exchanges` lists the requests with what came of them, `stores` the writes to the caches with the
time at which they were made.
-/

namespace PsaPublicApi
open Js Async

inductive Endpoint where
  | getByCertNumber
  | getByCertNumberForFileAppend
  | getImagesByCertNumber
  deriving DecidableEq

/-- The maps of the service: `successCache` and `inFlightGetByCert`, and those of the images. -/
inductive Table where
  | cert
  | images
  deriving DecidableEq

abbrev Key := Table × JsStr

def Endpoint.key : Endpoint → JsStr → Key
  | .getByCertNumber, digits => (.cert, digits)
  | .getByCertNumberForFileAppend, digits => (.cert, js "file-append:" ++ digits)
  | .getImagesByCertNumber, digits => (.images, digits)

structure PsaConfig where
  upstreamEnabled : Option JsStr := none
  token : Option JsStr := none
  tokens : Option JsStr := none
  cacheTtlMs : ℕ := 0
  maxRetries : ℕ := 0

/-- `s.replace(/\s+/g, "")` -/
def compact (s : JsStr) : JsStr := s.filter fun c => !isSpace c

def isPsaPublicApiUpstreamEnabled (cfg : PsaConfig) : Bool :=
  let v := cfg.upstreamEnabled
  if v = some (js "false") ∨ v = some (js "0") ∨ v = some (js "never") then false
  else if v = some (js "true") ∨ v = some (js "1") ∨ v = some (js "always") then true
  else !(compact (cfg.token.getD [])).isEmpty

/-- Each token once, those of `PSA_PUBLIC_API_TOKENS` first. -/
def buildTokenPool (cfg : PsaConfig) : List JsStr :=
  let raw := (cfg.tokens.getD []).splitOn ',' ++ (cfg.token.getD []).splitOn ','
  ((raw.map compact).filter fun norm => !norm.isEmpty).eraseDups

def PsaConfig.getMaxRetries (cfg : PsaConfig) : ℕ := min cfg.maxRetries 3

structure Response where
  status : ℕ
  text : JsStr
  retryAfterSeconds : Option ℕ := none
  deriving DecidableEq

def Response.ok (res : Response) : Prop := 200 ≤ res.status ∧ res.status ≤ 299

instance (res : Response) : Decidable res.ok := by
  unfold Response.ok
  infer_instance

inductive DisabledReason where
  | upstreamDisabled
  | noToken

inductive SkippedReason where
  | noCert
  | invalidCert

inductive LookupResult (F : Type) where
  | disabled (reason : DisabledReason)
  | skipped (reason : SkippedReason)
  | success (certNumber : JsStr) (raw : Json F)
  | error (certNumber : JsStr) (message : Json F) (httpStatus : Option ℕ) (certMismatch : Bool)

section Interpretation
variable {F : Type} (N : Numbers F) (parse : JsStr → Option (Json F))

/-- `Boolean(v)` -/
def isTruthy : Option (Json F) → Bool
  | none => false
  | some .null => false
  | some (.bool b) => b
  | some (.num x) => !N.isNaN x && !N.equals x 0
  | some (.str s) => !s.isEmpty
  | some (.arr _) => true
  | some (.obj _) => true

/-- `v || w` -/
def orElse (v : Option (Json F)) (w : Json F) : Json F :=
  match v with
  | some x => if isTruthy N (some x) then x else w
  | none => w

/-- A text that is no JSON becomes an object that says so. -/
def bodyOf (text : JsStr) : Json F :=
  if text.isEmpty then .null
  else (parse text).getD
    (.obj [(js "_parseError", .bool true), (js "rawText", .str (text.take 500))])

def isFalse : Option (Json F) → Bool
  | some (.bool false) => true
  | _ => false

def certNumberFromPsaCertBody (body : Json F) : Except TypeError (Option JsStr) :=
  match Json.field (js "PSACert") (some body) with
  | some (.obj fields) =>
    match Json.coalesce (Json.field (js "CertNumber") (some (.obj fields))) none with
    | some v => (Json.text N v).map fun t =>
      if (t.filter Char.isDigit).isEmpty then none else some (t.filter Char.isDigit)
    | none => .ok none
  | _ => .ok none

def serverMessage (body : Json F) : Option (Json F) := Json.field (js "ServerMessage") (some body)

def isNoDataFound (body : Json F) : Except TypeError Bool :=
  if Json.asString (serverMessage body) = some (js "No data found") then .ok true
  else (Json.textOr N [] (serverMessage body)).map (containsCI (js "no data found"))

def apiName : Endpoint → JsStr
  | .getImagesByCertNumber => js "PSA GetImages HTTP "
  | _ => js "PSA API HTTP "

def rateLimitMessage (res : Response) : Endpoint → JsStr
  | .getByCertNumber =>
    js "PSA upstream(api.psacard.com) HTTP 429 — rate limit or daily quota from PSA, not Tokenable." ++
      match res.retryAfterSeconds with
      | some sec => js " Retry-After=" ++ ofNat sec ++ js "초는 PSA 응답 헤더 값입니다."
      | none => []
  | .getByCertNumberForFileAppend =>
    js "PSA API 요청 제한(HTTP 429). psacard.com/publicapi 일일 한도를 확인하세요."
  | .getImagesByCertNumber =>
    js "PSA GetImages 요청 제한(HTTP 429). GetByCertNumber 본문에 이미지 URL이 있으면 GetImages를 건너뜁니다."

def unauthorizedMessage : Endpoint → JsStr
  | .getByCertNumber =>
    js ("PSA API 인증 실패(토큰 만료·무효·공백 오염 가능). publicapi 에서 토큰을 재발급하고 .env 에 한 줄·공백 없이 " ++
      "넣었는지 확인하세요.")
  | .getByCertNumberForFileAppend =>
    js "PSA API 인증 실패(토큰 만료·무효). publicapi 에서 토큰을 재발급하세요."
  | .getImagesByCertNumber =>
    js "PSA GetImages 인증 실패(토큰 만료·무효 가능). publicapi 토큰을 확인하세요."

def httpMessage (e : Endpoint) (res : Response) (body : Json F) : Json F :=
  if res.status = 429 then .str (rateLimitMessage res e)
  else if res.status = 401 ∨ res.status = 403 then .str (unauthorizedMessage e)
  else orElse N (serverMessage body)
    (orElse N (Json.field (js "message") (some body)) (.str (apiName e ++ ofNat res.status)))

/-- The images are looked up by the number only: their body names no certificate. -/
def mismatch (e : Endpoint) (digits : JsStr) (body : Json F) : Except TypeError (Option JsStr) :=
  match e with
  | .getImagesByCertNumber => .ok none
  | _ => (certNumberFromPsaCertBody N body).map fun returned => returned.filter fun c => c ≠ digits

def mismatchMessage (returned digits : JsStr) : JsStr :=
  js "PSA API returned cert " ++ returned ++ js " for lookup " ++ digits ++
    js " — cert numbers do not match"

/-- The answer to a lookup of images may be a text. -/
def imageText : Endpoint → Json F → Option JsStr
  | .getImagesByCertNumber, .str s => some s
  | _, _ => none

def readRecord (e : Endpoint) (digits : JsStr) (res : Response) (body : Json F) :
    Except TypeError (LookupResult F) := do
  let noData ← isNoDataFound N body
  if noData then
    pure (.error digits (.str (js "No data found for cert")) (some res.status) false)
  else do
    let returned ← mismatch N e digits body
    match returned with
    | some c => pure (.error digits (.str (mismatchMessage c digits)) (some res.status) true)
    | none => pure (.success digits body)

/-- The body of the `try`, once a response is there. -/
def interpret (e : Endpoint) (digits : JsStr) (res : Response) :
    Except TypeError (LookupResult F) :=
  let body := bodyOf parse res.text
  match imageText e body with
  | some s => .ok (.error digits (.str s) (some res.status) false)
  | none =>
    if res.ok then
      if isFalse (Json.field (js "IsValidRequest") (some body)) then
        .ok (.error digits
          ((Json.coalesce (serverMessage body) none).getD (.str (js "Invalid request")))
          (some res.status) false)
      else readRecord N e digits res body
    else .ok (.error digits (httpMessage N e res body) (some res.status) false)

/-- What a success says about the response it was read from. -/
structure Genuine (e : Endpoint) (digits : JsStr) (res : Response) (raw : Json F) : Prop where
  ok : res.ok
  body : raw = bodyOf parse res.text
  valid : isFalse (Json.field (js "IsValidRequest") (some raw)) = false
  found : isNoDataFound N raw = .ok false
  cert : e ≠ .getImagesByCertNumber → ∃ returned, certNumberFromPsaCertBody N raw = .ok returned ∧
    ∀ c, returned = some c → c = digits

variable {N parse}

theorem cert_of_mismatch {e : Endpoint} {digits : JsStr} {body : Json F}
    (h : mismatch N e digits body = .ok none) (he : e ≠ .getImagesByCertNumber) :
    ∃ returned, certNumberFromPsaCertBody N body = .ok returned ∧
      ∀ c, returned = some c → c = digits := by
  have hmap : (certNumberFromPsaCertBody N body).map
      (fun returned => returned.filter fun c => c ≠ digits) = .ok none := by
    cases e with
    | getByCertNumber => exact h
    | getByCertNumberForFileAppend => exact h
    | getImagesByCertNumber => exact absurd rfl he
  cases hcert : certNumberFromPsaCertBody N body with
  | error err =>
    rw [hcert] at hmap
    cases hmap
  | ok returned =>
    rw [hcert] at hmap
    refine ⟨returned, rfl, ?_⟩
    rintro c rfl
    by_contra hne
    have hkept : (some c).filter (fun c => decide (c ≠ digits)) = some c := by simp [hne]
    have hnone : (some c).filter (fun c => decide (c ≠ digits)) = none := Except.ok.inj hmap
    rw [hkept] at hnone
    cases hnone

theorem success_of_readRecord {e : Endpoint} {digits c : JsStr} {res : Response}
    {body raw : Json F} (h : readRecord N e digits res body = .ok (.success c raw)) :
    c = digits ∧ raw = body ∧ isNoDataFound N body = .ok false ∧
      mismatch N e digits body = .ok none := by
  unfold readRecord at h
  cases hfound : isNoDataFound N body with
  | error err =>
    rw [hfound] at h
    cases h
  | ok noData =>
    cases noData with
    | true =>
      rw [hfound] at h
      cases h
    | false =>
      cases hmis : mismatch N e digits body with
      | error err =>
        rw [hfound, hmis] at h
        cases h
      | ok returned =>
        rw [hfound, hmis] at h
        cases returned with
        | some d => cases h
        | none =>
          obtain ⟨rfl, rfl⟩ := LookupResult.success.inj (Except.ok.inj h)
          exact ⟨rfl, rfl, rfl, rfl⟩

/-- A success is read from a good response that does not name another certificate. -/
theorem genuine_of_interpret {e : Endpoint} {digits c : JsStr} {res : Response} {raw : Json F}
    (h : interpret N parse e digits res = .ok (.success c raw)) :
    c = digits ∧ Genuine N parse e digits res raw := by
  unfold interpret at h
  dsimp only at h
  split at h
  · cases h
  · split_ifs at h with hok hvalid
    · cases h
    · obtain ⟨rfl, rfl, hfound, hmis⟩ := success_of_readRecord h
      exact ⟨rfl, hok, rfl, Bool.eq_false_iff.mpr hvalid, hfound, cert_of_mismatch hmis⟩
    · cases h

end Interpretation

end PsaPublicApi
