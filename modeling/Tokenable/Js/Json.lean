import Tokenable.Js.Text

/-!
# JSON values

What `JSON.parse` returns, and how JavaScript reads it: optional chaining, `??` and `String(…)`. A
value is an `Option Json`; `none` is `undefined`. The double-precision numbers are a parameter: `F`
with the operations of `Numbers`.
-/

namespace Js

inductive Json (F : Type) where
  | null
  | bool (b : Bool)
  | num (x : F)
  | str (s : JsStr)
  | arr (xs : List (Json F))
  | obj (fields : List (JsStr × Json F))

/-- The operations on numbers; `text` is `String(x)`, and `tiny` is `1e-9`. -/
structure Numbers (F : Type) where
  isFinite : F → Bool
  isNaN : F → Bool
  ofNat : ℕ → F
  tiny : F
  text : F → JsStr
  parseFloat : JsStr → F
  round : F → F
  floor : F → F
  trunc : F → F
  abs : F → F
  sub : F → F → F
  lt : F → F → Bool
  le : F → F → Bool

/-- `x === n` -/
def Numbers.equals {F : Type} (N : Numbers F) (x : F) (n : ℕ) : Bool :=
  N.le x (N.ofNat n) && N.le (N.ofNat n) x

inductive TypeError where
  | cannotConvertObject
  deriving DecidableEq

namespace Json
variable {F : Type} (N : Numbers F)

/-- `v?.key`: only an object has the keys that the services read. -/
def field (key : JsStr) : Option (Json F) → Option (Json F)
  | some (obj fields) => (fields.find? (fun f => f.1 = key)).map Prod.snd
  | _ => none

/-- `v ?? w` -/
def coalesce : Option (Json F) → Option (Json F) → Option (Json F)
  | none, w => w
  | some null, w => w
  | some v, _ => some v

/-- `typeof v === 'string'`, with the string. -/
def asString : Option (Json F) → Option JsStr
  | some (str s) => some s
  | _ => none

mutual

/-- `String(v)`; an object whose own `toString` is not a function cannot be converted. -/
def text : Json F → Except TypeError JsStr
  | null => .ok (js "null")
  | bool b => .ok (if b then js "true" else js "false")
  | num x => .ok (N.text x)
  | str s => .ok s
  | arr xs => (elements xs).map fun parts => (js ",").intercalate parts
  | obj fields =>
    if fields.any (fun f => f.1 = js "toString") then .error .cannotConvertObject
    else .ok (js "[object Object]")

/-- The elements of an array, as `join` writes them. -/
def elements : List (Json F) → Except TypeError (List JsStr)
  | [] => .ok []
  | null :: xs => (elements xs).map ([] :: ·)
  | x :: xs => do
    let first ← text x
    let rest ← elements xs
    pure (first :: rest)

end

/-- `String(v ?? fallback)` -/
def textOr (fallback : JsStr) (v : Option (Json F)) : Except TypeError JsStr :=
  match coalesce v none with
  | some x => text N x
  | none => .ok fallback

end Json
end Js
