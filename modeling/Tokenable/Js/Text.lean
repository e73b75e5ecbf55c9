import Mathlib.Data.List.DropRight
import Mathlib.Data.Nat.Digits.Defs

/-!
# JavaScript text

Strings are lists of characters. The operations are the ones the backend applies to columns,
request bodies and error texts: `trim`, `toLowerCase`, truthiness, the digit test `/^\d+$/`, the
address test `/^0x[a-f0-9]{40}$/`, `BigInt` and case-insensitive infix search.
-/

namespace Js

abbrev JsStr := List Char

instance : LawfulBEq JsStr := inferInstance

def js (s : String) : JsStr := s.toList

/-- `WhiteSpace` and `LineTerminator` of ECMAScript. -/
def isSpace (c : Char) : Bool :=
  c.toNat ∈ [0x09, 0x0A, 0x0B, 0x0C, 0x0D, 0x20, 0xA0, 0x1680, 0x2028, 0x2029, 0x202F, 0x205F,
    0x3000, 0xFEFF] || (0x2000 ≤ c.toNat && c.toNat ≤ 0x200A)

def trim (s : JsStr) : JsStr := ((s.dropWhile isSpace).reverse.dropWhile isSpace).reverse

/-- `toLowerCase` on the characters it is compared on: addresses, hashes and labels are ASCII. -/
def lower (s : JsStr) : JsStr := s.map Char.toLower

def upper (s : JsStr) : JsStr := s.map Char.toUpper

def truthy : Option JsStr → Bool
  | some s => !s.isEmpty
  | none => false

/-- `/^\d+$/.test(s)` -/
def isDigits (s : JsStr) : Bool := !s.isEmpty && s.all Char.isDigit

/-- `BigInt(s)` of a string of decimal digits. -/
def toNat (s : JsStr) : ℕ := s.foldl (fun n c => 10 * n + (c.toNat - '0'.toNat)) 0

/-- `Number(s)`, or `BigInt(s)`, of a decimal text; `none` is `NaN`, and a blank text is zero. -/
def toNumber (s : JsStr) : Option ℕ :=
  if (trim s).isEmpty then some 0
  else if isDigits (trim s) then some (toNat (trim s))
  else none

def hexValue (c : Char) : ℕ := if c.isDigit then c.toNat - '0'.toNat else c.toLower.toNat - 87

def isLowerHex (c : Char) : Bool := c.isDigit || ('a' ≤ c && c ≤ 'f')

/-- `/^0x[a-f0-9]{40}$/.test(s)` -/
def isAddress (s : JsStr) : Bool :=
  s.take 2 = js "0x" && (s.drop 2).length = 40 && (s.drop 2).all isLowerHex

/-- `/^0x[a-fA-F0-9]{64}$/.test(s)` -/
def isTxHash (s : JsStr) : Bool :=
  s.take 2 = js "0x" && (s.drop 2).length = 64 && (s.drop 2).all (fun c => isLowerHex c.toLower)

/-- The base that the letter after a leading zero announces. -/
def literalBase : Char → Option ℕ
  | 'x' | 'X' => some 16
  | 'o' | 'O' => some 8
  | 'b' | 'B' => some 2
  | _ => none

def inBase (base : ℕ) (ds : JsStr) : Option ℕ :=
  if !ds.isEmpty && ds.all (fun c => isLowerHex c.toLower && hexValue c < base) then
    some (ds.foldl (fun n c => base * n + hexValue c) 0)
  else none

def decimal (ds : JsStr) : Option ℕ := if isDigits ds then some (toNat ds) else none

/-- `BigInt(s)`: a signed decimal integer, or an unsigned one in base 16, 8 or 2. A blank text is
zero, and any other text throws. -/
def toBigInt (s : JsStr) : Option ℤ :=
  match trim s with
  | [] => some 0
  | '-' :: ds => (decimal ds).map fun n => -(n : ℤ)
  | '+' :: ds => (decimal ds).map fun n => (n : ℤ)
  | '0' :: c :: ds =>
    match literalBase c with
    | some base => (inBase base ds).map fun n => (n : ℤ)
    | none => (decimal ('0' :: c :: ds)).map fun n => (n : ℤ)
  | ds => (decimal ds).map fun n => (n : ℤ)

/-- `/pat/i.test(s)` for a literal pattern. -/
def containsCI (pat : JsStr) : JsStr → Bool
  | [] => (lower pat).isEmpty
  | c :: s => (lower pat).isPrefixOf (lower (c :: s)) || containsCI pat s

/-- `s.includes(pat)` -/
def contains (pat : JsStr) : JsStr → Bool
  | [] => pat.isEmpty
  | c :: s => pat.isPrefixOf (c :: s) || contains pat s

/-- `String(n)` of a natural number. -/
def ofNat (n : ℕ) : JsStr := Nat.toDigits 10 n

/-- No printable ASCII character is white space. -/
theorem not_isSpace {c : Char} (h : 33 ≤ c.toNat) (h' : c.toNat ≤ 126) : isSpace c = false := by
  simp only [isSpace, List.mem_cons, List.not_mem_nil, or_false, Bool.or_eq_false_iff,
    Bool.and_eq_false_iff, decide_eq_false_iff_not]
  omega

/-- A letter of the upper case becomes the one 32 places further on. -/
theorem toNat_toLower {c : Char} (h : c.val ≥ 'A'.val ∧ c.val ≤ 'Z'.val) :
    c.toLower.toNat = c.toNat + 32 := by
  have hlow : 65 ≤ c.toNat := h.1
  have hhigh : c.toNat ≤ 90 := h.2
  have hlower : c.toLower = ⟨c.val + ('a'.val - 'A'.val), _⟩ := dif_pos h
  rw [hlower]
  have h32 : ('a'.val - 'A'.val).toNat = 32 := rfl
  simp only [Char.toNat, UInt32.toNat_add, h32] at *
  omega

theorem isSpace_toLower (c : Char) : isSpace c.toLower = isSpace c := by
  by_cases h : c.val ≥ 'A'.val ∧ c.val ≤ 'Z'.val
  · have hlow : 65 ≤ c.toNat := h.1
    have hhigh : c.toNat ≤ 90 := h.2
    have hval := toNat_toLower h
    rw [not_isSpace (c := c) (by omega) (by omega), not_isSpace (by omega) (by omega)]
  · have hlower : c.toLower = c := dif_neg h
    rw [hlower]

theorem toLower_toLower (c : Char) : c.toLower.toLower = c.toLower := by
  by_cases h : c.val ≥ 'A'.val ∧ c.val ≤ 'Z'.val
  · have hlow : 65 ≤ c.toNat := h.1
    have hval := toNat_toLower h
    apply dif_neg
    intro hupper
    have hhigh : c.toLower.toNat ≤ 90 := hupper.2
    omega
  · have hlower : c.toLower = c := dif_neg h
    rw [hlower, hlower]

theorem lower_lower (s : JsStr) : lower (lower s) = lower s := by
  simp only [lower, List.map_map]
  exact List.map_congr_left fun c _ => toLower_toLower c

theorem toLower_toUpper (c : Char) : c.toUpper.toLower = c.toLower := by
  by_cases h : c.val ≥ 'a'.val ∧ c.val ≤ 'z'.val
  · have hlow : 97 ≤ c.toNat := h.1
    have hhigh : c.toNat ≤ 122 := h.2
    have hupper : c.toUpper = ⟨c.val + ('A'.val - 'a'.val), _⟩ := dif_pos h
    have h32 : ('A'.val - 'a'.val).toNat = 2 ^ 32 - 32 := rfl
    have hval : c.toUpper.toNat = c.toNat - 32 := by
      rw [hupper]
      simp only [Char.toNat, UInt32.toNat_add, h32] at *
      omega
    have hback : c.toUpper.val ≥ 'A'.val ∧ c.toUpper.val ≤ 'Z'.val := by
      constructor
      · change 65 ≤ c.toUpper.toNat
        omega
      · change c.toUpper.toNat ≤ 90
        omega
    have hnot : ¬ (c.val ≥ 'A'.val ∧ c.val ≤ 'Z'.val) := by
      rintro ⟨-, hz⟩
      have hz' : c.toNat ≤ 90 := hz
      omega
    have hlower : c.toUpper.toLower = ⟨c.toUpper.val + ('a'.val - 'A'.val), _⟩ := dif_pos hback
    have hsame : c.toLower = c := dif_neg hnot
    have h32' : ('a'.val - 'A'.val).toNat = 32 := rfl
    rw [hlower, hsame]
    apply Char.ext
    apply UInt32.toNat_inj.1
    change (c.toUpper.val + ('a'.val - 'A'.val)).toNat = c.toNat
    rw [UInt32.toNat_add, h32']
    change (c.toUpper.toNat + 32) % 2 ^ 32 = c.toNat
    omega
  · have hupper : c.toUpper = c := dif_neg h
    rw [hupper]

/-- A letter of the lower case becomes the one 32 places before it. -/
theorem toNat_toUpper {c : Char} (h : c.val ≥ 'a'.val ∧ c.val ≤ 'z'.val) :
    c.toUpper.toNat = c.toNat - 32 := by
  have hlow : 97 ≤ c.toNat := h.1
  have hhigh : c.toNat ≤ 122 := h.2
  have hupper : c.toUpper = ⟨c.val + ('A'.val - 'a'.val), _⟩ := dif_pos h
  have h32 : ('A'.val - 'a'.val).toNat = 2 ^ 32 - 32 := rfl
  rw [hupper]
  simp only [Char.toNat, UInt32.toNat_add, h32] at *
  omega

theorem isSpace_toUpper (c : Char) : isSpace c.toUpper = isSpace c := by
  by_cases h : c.val ≥ 'a'.val ∧ c.val ≤ 'z'.val
  · have hlow : 97 ≤ c.toNat := h.1
    have hhigh : c.toNat ≤ 122 := h.2
    have hval := toNat_toUpper h
    rw [not_isSpace (c := c) (by omega) (by omega), not_isSpace (by omega) (by omega)]
  · have hupper : c.toUpper = c := dif_neg h
    rw [hupper]

theorem toUpper_toUpper (c : Char) : c.toUpper.toUpper = c.toUpper := by
  by_cases h : c.val ≥ 'a'.val ∧ c.val ≤ 'z'.val
  · have hhigh : c.toNat ≤ 122 := h.2
    have hval := toNat_toUpper h
    apply dif_neg
    intro hlower
    have hlow : 97 ≤ c.toUpper.toNat := hlower.1
    omega
  · have hupper : c.toUpper = c := dif_neg h
    rw [hupper, hupper]

theorem upper_upper (s : JsStr) : upper (upper s) = upper s := by
  simp only [upper, List.map_map]
  exact List.map_congr_left fun c _ => toUpper_toUpper c

theorem lower_upper (s : JsStr) : lower (upper s) = lower s := by
  simp only [lower, upper, List.map_map]
  exact List.map_congr_left fun c _ => toLower_toUpper c

theorem isDigit_toNat {c : Char} (h : c.isDigit = true) : 48 ≤ c.toNat ∧ c.toNat ≤ 57 := by
  simp only [Char.isDigit, Bool.and_eq_true, decide_eq_true_eq] at h
  exact h

theorem isLower_toNat {c : Char} (h : c.isLower = true) : 97 ≤ c.toNat ∧ c.toNat ≤ 122 := by
  have hrange : (decide (97 ≤ c.toNat) && decide (c.toNat ≤ 122)) = true := h
  simpa using hrange

theorem isUpper_toNat {c : Char} (h : c.isUpper = true) : 65 ≤ c.toNat ∧ c.toNat ≤ 90 := by
  have hrange : decide (65 ≤ c.toNat ∧ c.toNat ≤ 90) = true := h
  exact of_decide_eq_true hrange

theorem isAlphanum_cases {c : Char} (h : c.isAlphanum = true) :
    (c.isUpper = true ∨ c.isLower = true) ∨ c.isDigit = true := by
  have hcases : ((c.isUpper || c.isLower) || c.isDigit) = true := h
  simpa only [Bool.or_eq_true] using hcases

theorem not_isSpace_of_isDigit {c : Char} (h : c.isDigit = true) : isSpace c = false := by
  have hc := isDigit_toNat h
  exact not_isSpace (by omega) (by omega)

theorem not_isSpace_of_isLowerHex {c : Char} (h : isLowerHex c = true) : isSpace c = false := by
  simp only [isLowerHex, Bool.or_eq_true, Bool.and_eq_true, decide_eq_true_eq] at h
  rcases h with hdigit | ⟨hlow, hhigh⟩
  · exact not_isSpace_of_isDigit hdigit
  · have hlow' : 97 ≤ c.toNat := hlow
    have hhigh' : c.toNat ≤ 102 := hhigh
    exact not_isSpace (by omega) (by omega)

theorem not_isSpace_of_isAddress {s : JsStr} (h : isAddress s = true) :
    ∀ c ∈ s, isSpace c = false := by
  intro c hc
  simp only [isAddress, Bool.and_eq_true, decide_eq_true_eq, List.all_eq_true] at h
  obtain ⟨⟨h0x, -⟩, hall⟩ := h
  rw [← List.take_append_drop 2 s, h0x] at hc
  rcases List.mem_append.mp hc with hc | hc
  · have h0x' : c = '0' ∨ c = 'x' := by simpa [js] using hc
    rcases h0x' with rfl | rfl
    · rfl
    · rfl
  · exact not_isSpace_of_isLowerHex (hall c hc)

theorem toLower_of_isLowerHex {c : Char} (h : isLowerHex c = true) : c.toLower = c := by
  have hnotUpper : ¬ (65 ≤ c.toNat ∧ c.toNat ≤ 90) := by
    simp only [isLowerHex, Bool.or_eq_true, Bool.and_eq_true, decide_eq_true_eq] at h
    rcases h with hdigit | ⟨hlow, -⟩
    · have hrange := isDigit_toNat hdigit
      omega
    · have hlow' : 97 ≤ c.toNat := hlow
      omega
  exact dif_neg hnotUpper

theorem lower_of_isAddress {s : JsStr} (h : isAddress s = true) : lower s = s := by
  simp only [isAddress, Bool.and_eq_true, decide_eq_true_eq, List.all_eq_true] at h
  obtain ⟨⟨h0x, -⟩, hall⟩ := h
  have hkept : ∀ c ∈ s, c.toLower = c := by
    intro c hc
    rw [← List.take_append_drop 2 s, h0x] at hc
    rcases List.mem_append.mp hc with hc | hc
    · have h0x' : c = '0' ∨ c = 'x' := by simpa [js] using hc
      rcases h0x' with rfl | rfl
      · rfl
      · rfl
    · exact toLower_of_isLowerHex (hall c hc)
  exact (List.map_congr_left hkept).trans (List.map_id' s)

theorem trim_eq_self {s : JsStr} (h : ∀ c ∈ s, isSpace c = false) : trim s = s := by
  have hdrop : ∀ l : JsStr, (∀ c ∈ l, isSpace c = false) → l.dropWhile isSpace = l := by
    intro l hl
    cases l with
    | nil => rfl
    | cons c l => simp [hl c (.head _)]
  have hrev : ∀ c ∈ s.reverse, isSpace c = false := fun c hc => h c (List.mem_reverse.mp hc)
  rw [trim, hdrop s h, hdrop _ hrev, List.reverse_reverse]

theorem trim_of_isDigits {s : JsStr} (h : isDigits s = true) : trim s = s := by
  simp only [isDigits, Bool.and_eq_true, List.all_eq_true] at h
  exact trim_eq_self fun c hc => not_isSpace_of_isDigit (h.2 c hc)

theorem trim_trim (s : JsStr) : trim (trim s) = trim s := by
  have hpre : trim s <+: s.dropWhile isSpace := List.rdropWhile_prefix isSpace _
  have hhead : (trim s).dropWhile isSpace = trim s := by
    rw [List.dropWhile_eq_self_iff]
    intro hl
    rw [hpre.getElem hl]
    exact List.dropWhile_eq_self_iff.mp (List.dropWhile_idempotent isSpace s)
      (lt_of_lt_of_le hl hpre.length_le)
  have hlast : (trim s).rdropWhile isSpace = trim s := List.rdropWhile_idempotent isSpace _
  have htrim : trim (trim s) = ((trim s).dropWhile isSpace).rdropWhile isSpace := rfl
  rw [htrim, hhead, hlast]

theorem lower_trim (s : JsStr) : lower (trim s) = trim (lower s) := by
  have hcomp : isSpace ∘ Char.toLower = isSpace := funext isSpace_toLower
  simp only [lower, trim, List.dropWhile_map, hcomp, ← List.map_reverse]

theorem upper_trim (s : JsStr) : upper (trim s) = trim (upper s) := by
  have hcomp : isSpace ∘ Char.toUpper = isSpace := funext isSpace_toUpper
  simp only [upper, trim, List.dropWhile_map, hcomp, ← List.map_reverse]

theorem toBigInt_of_isDigits {s : JsStr} (h : isDigits (trim s) = true) :
    toBigInt s = some (toNat (trim s) : ℤ) := by
  have hdecimal : decimal (trim s) = some (toNat (trim s)) := by simp [decimal, h]
  have hdigit : ∀ c ∈ trim s, c.isDigit = true := by
    simp only [isDigits, Bool.and_eq_true, List.all_eq_true] at h
    exact h.2
  unfold toBigInt
  split
  · rename_i hnil
    rw [hnil] at h
    cases h
  · rename_i ds hds
    exact absurd (hdigit '-' (hds ▸ .head _)) (by decide)
  · rename_i ds hds
    exact absurd (hdigit '+' (hds ▸ .head _)) (by decide)
  · rename_i c ds hds
    have hc : c.isDigit = true := hdigit c (hds ▸ .tail _ (.head _))
    have hbase : literalBase c = none := by
      unfold literalBase
      split <;> first | rfl | exact absurd hc (by decide)
    rw [hbase, ← hds, hdecimal]
    rfl
  · rw [hdecimal]
    rfl

theorem isDigits_ofNat (n : ℕ) : isDigits (ofNat n) = true := by
  have hne : ofNat n ≠ [] := Nat.toDigits_ne_nil
  have hall : ∀ c ∈ ofNat n, c.isDigit = true :=
    fun c hc => Nat.isDigit_of_mem_toDigits (by decide) (by decide) hc
  simp only [isDigits, List.isEmpty_eq_false_iff.mpr hne, Bool.not_false, Bool.true_and,
    List.all_eq_true]
  exact hall

theorem toNat_ofNat (n : ℕ) : toNat (ofNat n) = n := Nat.ofDigitChars_ten_toDigits

/-- `BigInt(String(n))` is `n`. -/
theorem toBigInt_ofNat (n : ℕ) : toBigInt (ofNat n) = some (n : ℤ) := by
  have htrim : trim (ofNat n) = ofNat n := trim_of_isDigits (isDigits_ofNat n)
  rw [toBigInt_of_isDigits (by rw [htrim]; exact isDigits_ofNat n), htrim, toNat_ofNat]

theorem ofDigits_reverse (s : JsStr) :
    Nat.ofDigits 10 (s.reverse.map fun c => c.toNat - '0'.toNat) = toNat s := by
  rw [Nat.ofDigits_eq_foldr, List.foldr_map, List.foldr_reverse, toNat]
  congr 1
  funext n c
  exact Nat.add_comm _ _

/-- The digits of a number are those of its decimal text without leading zeros. -/
theorem digits_toNat {s : JsStr} (hs : ∀ c ∈ s, c.isDigit = true) (h0 : s.head? ≠ some '0') :
    Nat.digits 10 (toNat s) = s.reverse.map fun c => c.toNat - '0'.toNat := by
  rw [← ofDigits_reverse]
  apply Nat.digits_ofDigits 10 (by decide)
  · intro d hd
    obtain ⟨c, hc, rfl⟩ := List.mem_map.mp hd
    have hc' := isDigit_toNat (hs c (List.mem_reverse.mp hc))
    have hzero : '0'.toNat = 48 := rfl
    omega
  · intro hne
    cases s with
    | nil => exact absurd rfl hne
    | cons c s =>
      simp only [List.reverse_cons, List.map_append, List.map_cons, List.map_nil,
        List.getLast_append_of_ne_nil, ne_eq, List.cons_ne_nil, not_false_eq_true,
        List.getLast_singleton]
      intro hvalue
      have hc := isDigit_toNat (hs c (.head _))
      have hzero : '0'.toNat = 48 := rfl
      have hchar : c = '0' := Char.toNat_inj.mp (by omega)
      exact h0 (by rw [List.head?_cons, hchar])

theorem map_digit_inj {s t : JsStr} (hs : ∀ c ∈ s, c.isDigit = true)
    (ht : ∀ c ∈ t, c.isDigit = true)
    (h : s.map (fun c => c.toNat - '0'.toNat) = t.map fun c => c.toNat - '0'.toNat) : s = t := by
  induction s generalizing t with
  | nil => simpa using h.symm
  | cons c s ih =>
    cases t with
    | nil => simp at h
    | cons d t =>
      rw [List.map_cons, List.map_cons, List.cons.injEq] at h
      have hc := isDigit_toNat (hs c (.head _))
      have hd := isDigit_toNat (ht d (.head _))
      have hzero : '0'.toNat = 48 := rfl
      have hcd : c = d := Char.toNat_inj.mp (by omega)
      rw [hcd, ih (fun c hc => hs c (.tail _ hc)) (fun c hc => ht c (.tail _ hc)) h.2]

/-- Decimal texts without a leading zero are equal when their numbers are. -/
theorem eq_of_toNat_eq {s t : JsStr} (hs : ∀ c ∈ s, c.isDigit = true)
    (ht : ∀ c ∈ t, c.isDigit = true) (hs0 : s.head? ≠ some '0') (ht0 : t.head? ≠ some '0')
    (h : toNat s = toNat t) : s = t := by
  have hmap := digits_toNat ht ht0
  rw [← h, digits_toNat hs hs0] at hmap
  apply List.reverse_injective
  exact map_digit_inj (fun c hc => hs c (List.mem_reverse.mp hc))
    (fun c hc => ht c (List.mem_reverse.mp hc)) hmap

/-- A text that is an address in lower case has no white space around it. -/
theorem trim_of_isAddress_lower {s : JsStr} (h : isAddress (lower s) = true) : trim s = s := by
  refine trim_eq_self fun c hc => ?_
  rw [← isSpace_toLower]
  exact not_isSpace_of_isAddress h _ (List.mem_map_of_mem hc)

/-- Two computations that may throw, one after the other, give a result when both do. -/
theorem bind_eq_ok {ε α β : Type} {p : Except ε α} {f : α → Except ε β} {b : β} :
    (p >>= f) = .ok b ↔ ∃ a, p = .ok a ∧ f a = .ok b := by
  rcases p with e | a
  · simp [bind, Except.bind]
  · simp [bind, Except.bind]

end Js
