import Tokenable.Js.Text
import Mathlib.Tactic.Ring

/-!
# The numbers that a decimal text becomes

`Number(s)` of a text of digits is the double nearest to it, and `String(x)` prints the shortest
decimal that is read as `x` again. Both leave a number below `2 ^ 53` as it is.
-/

namespace Js

/-- The double nearest to `n`, the one with an even significand of two, without the bound on the
exponent. -/
def nearestDouble (n : ℕ) : ℕ :=
  let unit := 2 ^ (Nat.log2 n - 52)
  let rest := n % unit
  let up := unit < 2 * rest || (2 * rest = unit && n / unit % 2 = 1)
  (n / unit + if up then 1 else 0) * unit

/-- `Number(s)` of a text of decimal digits; `none` is `Infinity`. -/
def numberOf (s : JsStr) : Option ℕ :=
  if nearestDouble (toNat s) < 2 ^ 1024 then some (nearestDouble (toNat s)) else none

/-- The decimals with `zeros` last zeros next to `x` that are read as `x`, the nearer one first and
of two equally near ones the even one. -/
def readAs (x zeros : ℕ) : List ℕ :=
  let below := x / 10 ^ zeros * 10 ^ zeros
  let above := below + 10 ^ zeros
  let belowFirst := x - below < above - x || (x - below = above - x && x / 10 ^ zeros % 2 = 0)
  (if belowFirst then [below, above] else [above, below]).filter fun y =>
    y ≠ 0 && nearestDouble y = x

/-- The decimal of the fewest digits that is read as `x`. -/
def shortestDecimal (x : ℕ) : ℕ → ℕ
  | 0 => x
  | zeros + 1 =>
    match readAs x (zeros + 1) with
    | y :: _ => y
    | [] => shortestDecimal x zeros

/-- The digits of the decimal without its last zeros. -/
def significant (y : ℕ) : JsStr := ((ofNat y).reverse.dropWhile (· = '0')).reverse

/-- `String(x)` of a double that is a natural number. From `10 ^ 21` on it has an exponent. -/
def numberText (x : ℕ) : JsStr :=
  if x < 10 ^ 21 then ofNat (shortestDecimal x 21)
  else
    let y := shortestDecimal x 309
    let digits := significant y
    let exponent := js "e+" ++ ofNat ((ofNat y).length - 1)
    match digits with
    | [] => exponent
    | [d] => d :: exponent
    | d :: ds => d :: '.' :: ds ++ exponent

theorem nearestDouble_of_lt {n : ℕ} (h : n < 2 ^ 53) : nearestDouble n = n := by
  have hlog : Nat.log2 n - 52 = 0 := by
    by_cases hzero : n = 0
    · rw [hzero]
      rfl
    · have hlt := (Nat.log2_lt hzero).mpr h
      omega
  simp [nearestDouble, hlog, Nat.mod_one]

theorem le_nearestDouble {n : ℕ} (h : 2 ^ 53 ≤ n) : 2 ^ 53 ≤ nearestDouble n := by
  have hzero : n ≠ 0 := by
    intro h0
    rw [h0] at h
    exact absurd h (by decide)
  have hlog : 53 ≤ Nat.log2 n := (Nat.le_log2 hzero).mpr h
  obtain ⟨e, he⟩ : ∃ e, Nat.log2 n = e + 53 := ⟨Nat.log2 n - 53, by omega⟩
  have hself := Nat.log2_self_le hzero
  have hsub : Nat.log2 n - 52 = e + 1 := by omega
  have hpos : 0 < 2 ^ (e + 1) := Nat.pow_pos (by decide)
  have hq : 2 ^ 52 ≤ n / 2 ^ (e + 1) := by
    rw [Nat.le_div_iff_mul_le hpos, ← Nat.pow_add]
    rw [he] at hself
    calc 2 ^ (52 + (e + 1)) = 2 ^ (e + 53) := by ring
      _ ≤ n := hself
  have hunit : 2 ≤ 2 ^ (e + 1) := by
    calc 2 = 2 ^ 1 := rfl
      _ ≤ 2 ^ (e + 1) := Nat.pow_le_pow_right (by decide) (by omega)
  simp only [nearestDouble, hsub]
  calc 2 ^ 53 = 2 ^ 52 * 2 := rfl
    _ ≤ _ := Nat.mul_le_mul (Nat.le_add_right_of_le hq) hunit

theorem eq_of_nearestDouble {x y : ℕ} (hx : x < 2 ^ 53) (h : nearestDouble y = x) : y = x := by
  by_cases hy : y < 2 ^ 53
  · rw [← h, nearestDouble_of_lt hy]
  · have := le_nearestDouble (not_lt.mp hy)
    omega

theorem shortestDecimal_of_lt {x : ℕ} (hx : x < 2 ^ 53) (zeros : ℕ) : shortestDecimal x zeros = x := by
  induction zeros with
  | zero => rfl
  | succ zeros ih =>
    rw [shortestDecimal]
    cases hread : readAs x (zeros + 1) with
    | nil => exact ih
    | cons y ys =>
      have hy : y ∈ readAs x (zeros + 1) := hread ▸ List.mem_cons_self
      have hy' := (List.mem_filter.mp hy).2
      simp only [Bool.and_eq_true, decide_eq_true_eq] at hy'
      exact eq_of_nearestDouble hx hy'.2

/-- A number below `2 ^ 53` keeps its digits. -/
theorem numberText_of_lt {x : ℕ} (hx : x < 2 ^ 53) : numberText x = ofNat x := by
  have hlt : x < 10 ^ 21 := hx.trans (by norm_num)
  rw [numberText, if_pos hlt, shortestDecimal_of_lt hx]

theorem numberOf_of_lt {s : JsStr} (h : toNat s < 2 ^ 53) : numberOf s = some (toNat s) := by
  have hle : ∀ e, 53 ≤ e → 2 ^ 53 ≤ 2 ^ e := fun e he => Nat.pow_le_pow_right (by decide) he
  have hlt : toNat s < 2 ^ 1024 := h.trans_le (hle 1024 (by omega))
  rw [numberOf, nearestDouble_of_lt h, if_pos hlt]

end Js
