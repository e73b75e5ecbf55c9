import Mathlib.Algebra.Order.Floor.Ring
import Mathlib.Algebra.BigOperators.Group.List.Basic
import Mathlib.Data.Rat.Floor
import Mathlib.Tactic.FieldSimp
import Mathlib.Tactic.Linarith
import Mathlib.Tactic.Ring

/-!
# Linear interpolation

Quantities that move on a line between two integers in `d` steps, rounded up at every step. The sum
of such quantities stays what it was if and only if their moves cancel and each one moves by a
multiple of `d`.
-/

namespace Interpolation

variable {a b : ℤ} {d k : ℕ} {l : List (ℤ × ℤ)}

/-- The point at `k` of the line from `a` at `0` to `b` at `d`. -/
def lerp (a b : ℤ) (d k : ℕ) : ℚ := ((a * ((d : ℤ) - k) + b * k : ℤ) : ℚ) / d

theorem lerp_eq (hd : 0 < d) : lerp a b d k = a + k * ((b - a : ℤ) / d : ℚ) := by
  have hne : (d : ℚ) ≠ 0 := by exact_mod_cast hd.ne'
  unfold lerp
  push_cast
  field_simp
  ring

theorem lerp_end (hd : 0 < d) : lerp a b d d = b := by
  have hne : (d : ℚ) ≠ 0 := by exact_mod_cast hd.ne'
  rw [lerp_eq hd]
  push_cast
  field_simp
  ring

theorem lerp_nonneg (ha : 0 ≤ a) (hb : 0 ≤ b) (hk : k ≤ d) : 0 ≤ lerp a b d k := by
  have hrest : (0 : ℤ) ≤ (d : ℤ) - k := by omega
  have hnum : 0 ≤ a * ((d : ℤ) - k) + b * k := by positivity
  unfold lerp
  exact div_nonneg (by exact_mod_cast hnum) (Nat.cast_nonneg d)

/-- A sum of numbers that rounding up leaves alone has integers only. -/
theorem ceil_eq_of_sum_eq {α : Type} {f : α → ℚ} {l : List α}
    (h : (((l.map fun x => ⌈f x⌉).sum : ℤ) : ℚ) = (l.map f).sum) :
    ∀ x ∈ l, ((⌈f x⌉ : ℤ) : ℚ) = f x := by
  have hle : ∀ m : List α, (m.map f).sum ≤ (((m.map fun x => ⌈f x⌉).sum : ℤ) : ℚ) := by
    intro m
    induction m with
    | nil => simp
    | cons x m ih =>
      have hx : f x ≤ ⌈f x⌉ := Int.le_ceil _
      simp only [List.map_cons, List.sum_cons, Int.cast_add]
      linarith
  induction l with
  | nil => simp
  | cons x l ih =>
    have hx : f x ≤ ⌈f x⌉ := Int.le_ceil _
    have hl := hle l
    simp only [List.map_cons, List.sum_cons, Int.cast_add] at h
    intro y hy
    rcases List.mem_cons.mp hy with rfl | hy
    · linarith
    · exact ih (by linarith) y hy

theorem sum_lerp (hd : 0 < d) :
    (l.map fun p => lerp p.1 p.2 d k).sum =
      ((l.map Prod.fst).sum : ℤ) +
        k * ((((l.map Prod.snd).sum - (l.map Prod.fst).sum : ℤ) : ℚ) / d) := by
  have hne : (d : ℚ) ≠ 0 := by exact_mod_cast hd.ne'
  induction l with
  | nil => simp
  | cons p l ih =>
    rw [List.map_cons, List.sum_cons, ih, lerp_eq hd, List.map_cons, List.map_cons, List.sum_cons,
      List.sum_cons]
    push_cast
    field_simp
    ring

/-- Where a quantity moves by a multiple of `d`, no step needs rounding. -/
theorem ceil_lerp_of_dvd (hd : 0 < d) (h : (d : ℤ) ∣ b - a) :
    ((⌈lerp a b d k⌉ : ℤ) : ℚ) = lerp a b d k := by
  have hne : (d : ℚ) ≠ 0 := by exact_mod_cast hd.ne'
  obtain ⟨q, hq⟩ := h
  have hint : lerp a b d k = ((a + k * q : ℤ) : ℚ) := by
    rw [lerp_eq hd, hq]
    push_cast
    field_simp
  rw [hint, Int.ceil_intCast]

/-- The sum stays what it was at the start if and only if it is the same at the end and every
quantity moves by a multiple of `d`. -/
theorem sum_ceil_lerp_constant_iff (hd : 0 < d) :
    (∀ k ≤ d, (l.map fun p => ⌈lerp p.1 p.2 d k⌉).sum = (l.map Prod.fst).sum) ↔
      (l.map Prod.snd).sum = (l.map Prod.fst).sum ∧ ∀ p ∈ l, (d : ℤ) ∣ p.2 - p.1 := by
  have hne : (d : ℚ) ≠ 0 := by exact_mod_cast hd.ne'
  constructor
  · intro h
    have hend : (l.map Prod.snd).sum = (l.map Prod.fst).sum := by
      simpa only [lerp_end hd, Int.ceil_intCast] using h d le_rfl
    refine ⟨hend, fun p hp => ?_⟩
    -- after one step the moves of the quantities are their whole moves divided by `d`
    have hone : (((l.map fun p => ⌈lerp p.1 p.2 d 1⌉).sum : ℤ) : ℚ) =
        (l.map fun p => lerp p.1 p.2 d 1).sum := by
      rw [h 1 hd, sum_lerp hd, hend]
      simp
    have hp1 : ((⌈lerp p.1 p.2 d 1⌉ : ℤ) : ℚ) = lerp p.1 p.2 d 1 := ceil_eq_of_sum_eq hone p hp
    refine ⟨⌈lerp p.1 p.2 d 1⌉ - p.1, ?_⟩
    have hmove : ((d : ℚ) * (⌈lerp p.1 p.2 d 1⌉ - p.1) : ℚ) = ((p.2 - p.1 : ℤ) : ℚ) := by
      rw [hp1, lerp_eq hd]
      push_cast
      field_simp
      ring
    exact_mod_cast hmove.symm
  · rintro ⟨hend, hdvd⟩ k -
    have hexact : ∀ m : List (ℤ × ℤ), (∀ p ∈ m, (d : ℤ) ∣ p.2 - p.1) →
        (((m.map fun p => ⌈lerp p.1 p.2 d k⌉).sum : ℤ) : ℚ) =
          (m.map fun p => lerp p.1 p.2 d k).sum := by
      intro m hm
      induction m with
      | nil => simp
      | cons p m ih =>
        simp only [List.map_cons, List.sum_cons, Int.cast_add]
        rw [ceil_lerp_of_dvd hd (hm p (.head _)), ih fun p hp => hm p (.tail _ hp)]
    have hsum := hexact l hdvd
    rw [sum_lerp hd, hend] at hsum
    have hconst : (((l.map fun p => ⌈lerp p.1 p.2 d k⌉).sum : ℤ) : ℚ) =
        (((l.map Prod.fst).sum : ℤ) : ℚ) := by
      rw [hsum]
      simp
    exact_mod_cast hconst

end Interpolation
