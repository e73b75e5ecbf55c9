import Mathlib.Tactic.SplitIfs
import Tokenable.Js.Text

/-!
# UTF-8

The octets of a text, and the decoder that a browser runs on octets. The decoder never fails: octets
that are no character become the replacement character. On the octets of a text it gives the text.
-/

namespace Js.Utf8

abbrev Octets := List ℕ

/-- The octets of one character. -/
def encodeChar (c : Char) : Octets :=
  let n := c.toNat
  if n < 0x80 then [n]
  else if n < 0x800 then [0xC0 + n / 64, 0x80 + n % 64]
  else if n < 0x10000 then [0xE0 + n / 4096, 0x80 + n / 64 % 64, 0x80 + n % 64]
  else [0xF0 + n / 262144, 0x80 + n / 4096 % 64, 0x80 + n / 64 % 64, 0x80 + n % 64]

def encode (s : JsStr) : Octets := s.flatMap encodeChar

/-- A character whose first octets are read: its bits so far, how many octets it still needs, and
the bounds of the next one. -/
structure Pending where
  bits : ℕ
  needed : ℕ
  lower : ℕ
  upper : ℕ

def replacement : Char := '\uFFFD'

/-- An octet read between characters. The bounds after it exclude overlong forms, surrogates and
numbers that are no character. -/
def readLead (b : ℕ) : JsStr × Option Pending :=
  if b < 0x80 then ([Char.ofNat b], none)
  else if 0xC2 ≤ b ∧ b ≤ 0xDF then ([], some ⟨b - 0xC0, 1, 0x80, 0xBF⟩)
  else if 0xE0 ≤ b ∧ b ≤ 0xEF then
    ([], some ⟨b - 0xE0, 2, if b = 0xE0 then 0xA0 else 0x80, if b = 0xED then 0x9F else 0xBF⟩)
  else if 0xF0 ≤ b ∧ b ≤ 0xF4 then
    ([], some ⟨b - 0xF0, 3, if b = 0xF0 then 0x90 else 0x80, if b = 0xF4 then 0x8F else 0xBF⟩)
  else ([replacement], none)

def readOctet : Option Pending → ℕ → JsStr × Option Pending
  | none, b => readLead b
  | some p, b =>
    if p.lower ≤ b ∧ b ≤ p.upper then
      if p.needed = 1 then ([Char.ofNat (p.bits * 64 + (b - 0x80))], none)
      else ([], some ⟨p.bits * 64 + (b - 0x80), p.needed - 1, 0x80, 0xBF⟩)
    -- the octet that breaks a character off is read again, as the first of the next one
    else (replacement :: (readLead b).1, (readLead b).2)

def decodeFrom : Option Pending → Octets → JsStr
  | none, [] => []
  | some _, [] => [replacement]
  | p, b :: bs => (readOctet p b).1 ++ decodeFrom (readOctet p b).2 bs

def decode (bs : Octets) : JsStr := decodeFrom none bs

theorem decodeFrom_cons (p : Option Pending) (b : ℕ) (bs : Octets) :
    decodeFrom p (b :: bs) = (readOctet p b).1 ++ decodeFrom (readOctet p b).2 bs := by
  cases p <;> rfl

/-- An octet within the bounds that is not the last one of its character. -/
theorem decodeFrom_more {p : Pending} {b : ℕ} (hl : p.lower ≤ b) (hu : b ≤ p.upper)
    (hn : p.needed ≠ 1) (bs : Octets) :
    decodeFrom (some p) (b :: bs) =
      decodeFrom (some ⟨p.bits * 64 + (b - 0x80), p.needed - 1, 0x80, 0xBF⟩) bs := by
  rw [decodeFrom_cons, readOctet, if_pos ⟨hl, hu⟩, if_neg hn]
  rfl

/-- The last octet of a character. -/
theorem decodeFrom_last {p : Pending} {b : ℕ} (hl : p.lower ≤ b) (hu : b ≤ p.upper)
    (hn : p.needed = 1) (bs : Octets) :
    decodeFrom (some p) (b :: bs) =
      Char.ofNat (p.bits * 64 + (b - 0x80)) :: decodeFrom none bs := by
  rw [decodeFrom_cons, readOctet, if_pos ⟨hl, hu⟩, if_pos hn]
  rfl

theorem decodeFrom_lead_two {b : ℕ} (hl : 0xC2 ≤ b) (hu : b ≤ 0xDF) (bs : Octets) :
    decodeFrom none (b :: bs) = decodeFrom (some ⟨b - 0xC0, 1, 0x80, 0xBF⟩) bs := by
  rw [decodeFrom_cons, readOctet, readLead, if_neg (by omega), if_pos ⟨hl, hu⟩]
  rfl

theorem decodeFrom_lead_three {b : ℕ} (hl : 0xE0 ≤ b) (hu : b ≤ 0xEF) (bs : Octets) :
    decodeFrom none (b :: bs) =
      decodeFrom (some ⟨b - 0xE0, 2, if b = 0xE0 then 0xA0 else 0x80,
        if b = 0xED then 0x9F else 0xBF⟩) bs := by
  rw [decodeFrom_cons, readOctet, readLead, if_neg (by omega), if_neg (by omega), if_pos ⟨hl, hu⟩]
  rfl

theorem decodeFrom_lead_four {b : ℕ} (hl : 0xF0 ≤ b) (hu : b ≤ 0xF4) (bs : Octets) :
    decodeFrom none (b :: bs) =
      decodeFrom (some ⟨b - 0xF0, 3, if b = 0xF0 then 0x90 else 0x80,
        if b = 0xF4 then 0x8F else 0xBF⟩) bs := by
  rw [decodeFrom_cons, readOctet, readLead, if_neg (by omega), if_neg (by omega),
    if_neg (by omega), if_pos ⟨hl, hu⟩]
  rfl

theorem toNat_cases (c : Char) : c.toNat < 0xD800 ∨ 0xDFFF < c.toNat ∧ c.toNat < 0x110000 :=
  c.valid

/-- The octets of a character are read as that character, whatever follows them. -/
theorem decodeFrom_encodeChar (c : Char) (bs : Octets) :
    decodeFrom none (encodeChar c ++ bs) = c :: decodeFrom none bs := by
  have hvalid := toNat_cases c
  have hback : ∀ n, n = c.toNat → Char.ofNat n = c := by
    rintro n rfl
    exact Char.ofNat_toNat c
  unfold encodeChar
  dsimp only
  split_ifs with h1 h2 h3
  · rw [List.singleton_append, decodeFrom_cons, readOctet, readLead, if_pos h1, hback _ rfl]
    rfl
  · simp only [List.cons_append, List.nil_append]
    rw [decodeFrom_lead_two (by omega) (by omega), decodeFrom_last]
    · rw [hback]
      dsimp only
      omega
    · dsimp only
      omega
    · dsimp only
      omega
    · rfl
  · simp only [List.cons_append, List.nil_append]
    rw [decodeFrom_lead_three (by omega) (by omega), decodeFrom_more, decodeFrom_last]
    · rw [hback]
      dsimp only
      omega
    · dsimp only
      omega
    · dsimp only
      omega
    · rfl
    · dsimp only
      split_ifs <;> omega
    · dsimp only
      split_ifs <;> omega
    · dsimp only
      omega
  · simp only [List.cons_append, List.nil_append]
    rw [decodeFrom_lead_four (by omega) (by omega), decodeFrom_more, decodeFrom_more,
      decodeFrom_last]
    · rw [hback]
      dsimp only
      omega
    · dsimp only
      omega
    · dsimp only
      omega
    · rfl
    · dsimp only
      omega
    · dsimp only
      omega
    · dsimp only
      omega
    · dsimp only
      split_ifs <;> omega
    · dsimp only
      split_ifs <;> omega
    · dsimp only
      omega

theorem decode_encode (s : JsStr) : decode (encode s) = s := by
  induction s with
  | nil => rfl
  | cons c s ih =>
    have hcons : encode (c :: s) = encodeChar c ++ encode s := rfl
    rw [decode, hcons, decodeFrom_encodeChar]
    exact congrArg (List.cons c) ih

/-- Octets are numbers of eight bits. -/
theorem lt_of_mem_encode {s : JsStr} {b : ℕ} (hb : b ∈ encode s) : b < 256 := by
  obtain ⟨c, -, hc⟩ := List.mem_flatMap.mp hb
  have hvalid := toNat_cases c
  unfold encodeChar at hc
  dsimp only at hc
  split_ifs at hc <;> simp only [List.mem_cons, List.not_mem_nil, or_false] at hc <;> omega

/-- A text of ASCII characters is its own octets. -/
theorem encode_ascii {s : JsStr} (h : ∀ c ∈ s, c.toNat < 0x80) :
    encode s = s.map Char.toNat := by
  induction s with
  | nil => rfl
  | cons c s ih =>
    have hc : encodeChar c = [c.toNat] := if_pos (h c (.head _))
    have hcons : encode (c :: s) = encodeChar c ++ encode s := rfl
    rw [hcons, hc, ih fun c hc => h c (.tail _ hc)]
    rfl

end Js.Utf8
