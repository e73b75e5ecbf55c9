import Mathlib.Logic.Function.Basic
import Mathlib.Data.Int.Notation
import Mathlib.Data.Nat.Notation
import Mathlib.Tactic.SplitIfs

/-!
# A cache in front of shared computations

A `Memo` keeps, for each key, the value of the last computation that was stored for it and the number
of the computation that is in flight for it. `Fresh P B` says that every stored value satisfies `P`
and every shared computation `B`; the operations keep it, and `drop` is what a key needs when its
`P` becomes stronger.
-/

namespace Async

structure Cached (V : Type) where
  value : V
  expiresAtMs : ℤ

structure Memo (K V : Type) where
  cache : K → Option (Cached V)
  inflight : K → Option ℕ

namespace Memo

variable {K V : Type}

def empty : Memo K V := ⟨fun _ => none, fun _ => none⟩

/-- The stored value of the key, while it lasts. -/
def hit (m : Memo K V) (now : ℤ) (key : K) : Option V :=
  ((m.cache key).filter fun e => now < e.expiresAtMs).map Cached.value

/-- Forget the keys that satisfy `p`. -/
def drop (m : Memo K V) (p : K → Bool) : Memo K V where
  cache key := if p key then none else m.cache key
  inflight key := if p key then none else m.inflight key

section
variable [DecidableEq K]

def share (m : Memo K V) (key : K) (w : ℕ) : Memo K V :=
  { m with inflight := Function.update m.inflight key (some w) }

/-- Unless another computation has taken its place. -/
def unshare (m : Memo K V) (key : K) (w : ℕ) : Memo K V :=
  if m.inflight key = some w then { m with inflight := Function.update m.inflight key none } else m

def store (m : Memo K V) (key : K) (e : Cached V) : Memo K V :=
  { m with cache := Function.update m.cache key (some e) }

end

structure Fresh (P : K → V → Prop) (B : K → ℕ → Prop) (m : Memo K V) : Prop where
  cached : ∀ key e, m.cache key = some e → P key e.value
  shared : ∀ key w, m.inflight key = some w → B key w

variable {P P' : K → V → Prop} {B B' : K → ℕ → Prop} {m : Memo K V}

theorem fresh_empty : Fresh P B (empty : Memo K V) := by
  constructor
  · intro key e he
    cases he
  · intro key w hw
    cases hw

theorem Fresh.mono (hP : ∀ key v, P key v → P' key v) (hB : ∀ key w, B key w → B' key w)
    (h : Fresh P B m) : Fresh P' B' m :=
  ⟨fun key e he => hP key _ (h.cached key e he), fun key w hw => hB key w (h.shared key w hw)⟩

theorem Fresh.hit (h : Fresh P B m) {now : ℤ} {key : K} {v : V} (hv : m.hit now key = some v) :
    P key v := by
  obtain ⟨e, he, rfl⟩ := Option.map_eq_some_iff.mp hv
  exact h.cached key e (Option.filter_eq_some_iff.mp he).1

/-- What is kept need only satisfy the stronger property where it is not dropped. -/
theorem Fresh.drop {p : K → Bool} (hP : ∀ key v, p key = false → P key v → P' key v)
    (hB : ∀ key w, p key = false → B key w → B' key w) (h : Fresh P B m) :
    Fresh P' B' (m.drop p) := by
  constructor
  · intro key e he
    simp only [Memo.drop] at he
    split_ifs at he with hp
    exact hP key _ (by simpa using hp) (h.cached key e he)
  · intro key w hw
    simp only [Memo.drop] at hw
    split_ifs at hw with hp
    exact hB key w (by simpa using hp) (h.shared key w hw)

variable [DecidableEq K]

theorem Fresh.share {key : K} {w : ℕ} (hw : B key w) (h : Fresh P B m) :
    Fresh P B (m.share key w) := by
  refine ⟨h.cached, fun k w' hw' => ?_⟩
  simp only [Memo.share] at hw'
  by_cases hk : k = key
  · subst hk
    rw [Function.update_self] at hw'
    obtain rfl := Option.some.inj hw'
    exact hw
  · rw [Function.update_of_ne hk] at hw'
    exact h.shared k w' hw'

theorem Fresh.unshare {key : K} {w : ℕ} (h : Fresh P B m) : Fresh P B (m.unshare key w) := by
  unfold Memo.unshare
  split_ifs
  · refine ⟨h.cached, fun k w' hw' => ?_⟩
    simp only at hw'
    by_cases hk : k = key
    · subst hk
      rw [Function.update_self] at hw'
      cases hw'
    · rw [Function.update_of_ne hk] at hw'
      exact h.shared k w' hw'
  · exact h

theorem Fresh.store {key : K} {e : Cached V} (he : P key e.value) (h : Fresh P B m) :
    Fresh P B (m.store key e) := by
  refine ⟨fun k e' he' => ?_, h.shared⟩
  simp only [Memo.store] at he'
  by_cases hk : k = key
  · subst hk
    rw [Function.update_self] at he'
    obtain rfl := Option.some.inj he'
    exact he
  · rw [Function.update_of_ne hk] at he'
    exact h.cached k e' he'

end Memo
end Async
