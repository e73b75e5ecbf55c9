import Tokenable.Js.Text

/-!
# Hexadecimal text

`n.toString(16)`, `padStart`, and the number that a text of hexadecimal digits denotes. A text of a
fixed length in lower case is the only one for its number.
-/

namespace Js

/-- `n.toString(16)` -/
def hexOf (n : ℕ) : JsStr := Nat.toDigits 16 n

/-- `s.padStart(width, c)` -/
def padStart (width : ℕ) (c : Char) (s : JsStr) : JsStr := List.leftpad width c s

def hexNat (s : JsStr) : ℕ := s.foldl (fun n c => 16 * n + hexValue c) 0

/-- `/^[0-9a-f]+$/.test(s)` -/
def isHexText (s : JsStr) : Bool := !s.isEmpty && s.all isLowerHex

theorem isLowerHex_cases {c : Char} (h : isLowerHex c = true) :
    c.isDigit = true ∨ c.isDigit = false ∧ 97 ≤ c.toNat ∧ c.toNat ≤ 102 := by
  by_cases hdigit : c.isDigit = true
  · exact .inl hdigit
  · simp only [isLowerHex, hdigit, Bool.false_or, Bool.and_eq_true, decide_eq_true_eq] at h
    exact .inr ⟨by simpa using hdigit, h.1, h.2⟩

theorem isLowerHex_of_isDigit {c : Char} (h : c.isDigit = true) : isLowerHex c = true := by
  simp [isLowerHex, h]

/-- The value of a digit, by its code. -/
theorem hexValue_eq {c : Char} (h : isLowerHex c = true) :
    c.toNat < 58 ∧ hexValue c + 48 = c.toNat ∧ hexValue c < 10 ∨
      97 ≤ c.toNat ∧ hexValue c + 87 = c.toNat ∧ 10 ≤ hexValue c ∧ hexValue c < 16 := by
  have hlower := toLower_of_isLowerHex h
  have hzero : '0'.toNat = 48 := rfl
  rcases isLowerHex_cases h with hdigit | ⟨hletter, hlow, hhigh⟩
  · have hrange := isDigit_toNat hdigit
    have hvalue : hexValue c = c.toNat - 48 := by simp [hexValue, hdigit]
    omega
  · have hvalue : hexValue c = c.toNat - 87 := by simp [hexValue, hletter, hlower]
    omega

theorem hexValue_lt {c : Char} (h : isLowerHex c = true) : hexValue c < 16 := by
  have hvalue := hexValue_eq h
  omega

theorem hexValue_inj {c d : Char} (hc : isLowerHex c = true) (hd : isLowerHex d = true)
    (h : hexValue c = hexValue d) : c = d := by
  have hvalue := hexValue_eq hc
  have hvalue' := hexValue_eq hd
  exact Char.toNat_inj.1 (by omega)

theorem foldl_hexValue (s : JsStr) (n : ℕ) :
    s.foldl (fun n c => 16 * n + hexValue c) n = 16 ^ s.length * n + hexNat s := by
  induction s generalizing n with
  | nil => simp [hexNat]
  | cons c s ih =>
      rw [hexNat, List.foldl_cons, List.foldl_cons, ih, ih (16 * 0 + hexValue c), List.length_cons]
      ring

theorem hexNat_cons (c : Char) (s : JsStr) :
    hexNat (c :: s) = 16 ^ s.length * hexValue c + hexNat s := by
  rw [hexNat, List.foldl_cons, foldl_hexValue]
  ring

theorem hexNat_append (s t : JsStr) : hexNat (s ++ t) = 16 ^ t.length * hexNat s + hexNat t := by
  rw [hexNat, List.foldl_append, foldl_hexValue]
  rfl

theorem hexNat_lt {s : JsStr} (h : ∀ c ∈ s, isLowerHex c = true) : hexNat s < 16 ^ s.length := by
  induction s with
  | nil => simp [hexNat]
  | cons c s ih =>
      have hc := hexValue_lt (h c List.mem_cons_self)
      have hs := ih fun d hd => h d (List.mem_cons_of_mem c hd)
      rw [hexNat_cons, List.length_cons, pow_succ]
      have hdigit : 16 ^ s.length * hexValue c ≤ 16 ^ s.length * 15 := Nat.mul_le_mul_left _ (by omega)
      omega

/-- Texts of one length are equal when their numbers are. -/
theorem eq_of_hexNat_eq {s t : JsStr} (hs : ∀ c ∈ s, isLowerHex c = true)
    (ht : ∀ c ∈ t, isLowerHex c = true) (hlength : s.length = t.length)
    (h : hexNat s = hexNat t) : s = t := by
  induction s generalizing t with
  | nil => exact (List.length_eq_zero_iff.1 hlength.symm).symm
  | cons c s ih =>
      cases t with
      | nil => cases hlength
      | cons d t =>
          have hs' : ∀ c ∈ s, isLowerHex c = true := fun e he => hs e (List.mem_cons_of_mem c he)
          have ht' : ∀ c ∈ t, isLowerHex c = true := fun e he => ht e (List.mem_cons_of_mem d he)
          have hlength' : s.length = t.length := Nat.succ.inj hlength
          have hlt := hexNat_lt hs'
          have hlt' := hexNat_lt ht'
          rw [hexNat_cons, hexNat_cons, ← hlength'] at h
          rw [← hlength'] at hlt'
          -- the first digits are the quotients by the weight of the first place
          have hpos : 0 < 16 ^ s.length := Nat.pow_pos (by omega)
          have hvalue : hexValue c = hexValue d := by
            have hdiv := congrArg (fun n => n / 16 ^ s.length) h
            simpa [Nat.mul_add_div hpos, Nat.div_eq_of_lt hlt, Nat.div_eq_of_lt hlt'] using hdiv
          rw [hvalue] at h
          have hrest : hexNat s = hexNat t := by omega
          rw [hexValue_inj (hs c List.mem_cons_self) (ht d List.mem_cons_self) hvalue,
            ih hs' ht' hlength' hrest]

theorem digitChar_spec {d : ℕ} (h : d < 16) :
    isLowerHex d.digitChar = true ∧ hexValue d.digitChar = d := by
  have hdigits : ∀ d < 16, isLowerHex d.digitChar = true ∧ hexValue d.digitChar = d := by decide
  exact hdigits d h

/-- The text of a number has lower-case digits and denotes it. -/
theorem hexOf_spec (n : ℕ) : (∀ c ∈ hexOf n, isLowerHex c = true) ∧ hexNat (hexOf n) = n := by
  induction n using Nat.strongRecOn with
  | ind n ih =>
      by_cases hn : n < 16
      · obtain ⟨hdigit, hvalue⟩ := digitChar_spec hn
        rw [hexOf, Nat.toDigits_of_lt_base hn]
        refine ⟨fun c hc => ?_, ?_⟩
        · rw [List.mem_singleton.1 hc]
          exact hdigit
        · simp [hexNat, hvalue]
      · obtain ⟨hdigits, hnumber⟩ := ih (n / 16) (by omega)
        obtain ⟨hdigit, hvalue⟩ := digitChar_spec (d := n % 16) (by omega)
        have hsplit : hexOf n = hexOf (n / 16) ++ [(n % 16).digitChar] :=
          Nat.toDigits_of_base_le (by omega) (by omega)
        rw [hsplit]
        refine ⟨fun c hc => ?_, ?_⟩
        · rcases List.mem_append.1 hc with hc | hc
          · exact hdigits c hc
          · rw [List.mem_singleton.1 hc]
            exact hdigit
        · have hlast : hexNat [(n % 16).digitChar] = n % 16 := by simp [hexNat, hvalue]
          rw [hexNat_append, hnumber, hlast, List.length_singleton]
          omega

theorem length_hexOf_le {n k : ℕ} (hk : 0 < k) (h : n < 16 ^ k) : (hexOf n).length ≤ k :=
  (Nat.length_toDigits_le_iff (by omega) hk).2 h

theorem hexNat_replicate_zero (k : ℕ) : hexNat (List.replicate k '0') = 0 := by
  induction k with
  | zero => rfl
  | succ k ih => rw [List.replicate_succ, hexNat_cons, ih]; rfl

/-- Padding with zeros keeps the number. -/
theorem hexNat_padStart (width : ℕ) (s : JsStr) : hexNat (padStart width '0' s) = hexNat s := by
  rw [padStart, List.leftpad, hexNat_append, hexNat_replicate_zero]
  omega

theorem isLowerHex_padStart {width : ℕ} {s : JsStr} (h : ∀ c ∈ s, isLowerHex c = true) :
    ∀ c ∈ padStart width '0' s, isLowerHex c = true := by
  intro c hc
  rcases List.mem_append.1 hc with hc | hc
  · rw [List.eq_of_mem_replicate hc]
    rfl
  · exact h c hc

theorem length_padStart {width : ℕ} {c : Char} {s : JsStr} (h : s.length ≤ width) :
    (padStart width c s).length = width := by
  rw [padStart, List.length_leftpad]
  omega

/-- The digits of a 256-bit number, padded to 64 places. -/
theorem padded_spec {n : ℕ} (h : n < 2 ^ 256) :
    (∀ c ∈ padStart 64 '0' (hexOf n), isLowerHex c = true) ∧
      (padStart 64 '0' (hexOf n)).length = 64 ∧ hexNat (padStart 64 '0' (hexOf n)) = n := by
  obtain ⟨hdigits, hnumber⟩ := hexOf_spec n
  have hlength : (hexOf n).length ≤ 64 := by
    apply length_hexOf_le (by omega)
    calc n < 2 ^ 256 := h
      _ = 16 ^ 64 := by norm_num
  refine ⟨isLowerHex_padStart hdigits, length_padStart hlength, ?_⟩
  rw [hexNat_padStart, hnumber]

/-- A text of 64 lower-case digits is the padded one of its number. -/
theorem padStart_hexNat {s : JsStr} (hs : ∀ c ∈ s, isLowerHex c = true) (hlength : s.length = 64) :
    hexNat s < 2 ^ 256 ∧ padStart 64 '0' (hexOf (hexNat s)) = s := by
  have hlt : hexNat s < 2 ^ 256 := by
    calc hexNat s < 16 ^ s.length := hexNat_lt hs
      _ = 2 ^ 256 := by rw [hlength]; norm_num
  obtain ⟨hdigits, hpadded, hnumber⟩ := padded_spec hlt
  exact ⟨hlt, eq_of_hexNat_eq hdigits hs (hpadded.trans hlength.symm) hnumber⟩

end Js
