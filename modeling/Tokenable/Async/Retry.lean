import Tokenable.Async.Prog

/-!
# Functions that are stopped, and operations that are repeated

`playFor n` plays a function until the command that would be its write number `n + 1`: there the
process dies, or the command fails and no code handles the failure. Between two writes it makes no
difference where a function stops.

`Progress` is what the attempts of an operation have done that first sends, then records that it has
sent, and then makes further writes. A recorded operation is not repeated. An operation that has
been sent and not recorded is sent again.
-/

namespace Async

namespace Prog
variable {C : Type} {R : C → Type} {ε ε' α β σ : Type}

/-- Play the function for its first `n` writes; `none` when it is stopped before it settles. -/
def playFor (H : σ → (c : C) → R c × σ) (isWrite : C → Bool) :
    Prog C R ε α → ℕ → σ → Option (Except ε α) × σ
  | ret r, _, s => (some r, s)
  | call c next, n, s =>
    if isWrite c && n == 0 then (none, s)
    else playFor H isWrite (next (H s c).1) (if isWrite c then n - 1 else n) (H s c).2

variable {H : σ → (c : C) → R c × σ} {isWrite : C → Bool} {n : ℕ} {s : σ}

@[simp] theorem playFor_ret (r : Except ε α) :
    (ret r : Prog C R ε α).playFor H isWrite n s = (some r, s) := rfl

theorem playFor_read {c : C} {next : R c → Prog C R ε α} (hc : isWrite c = false) :
    (call c next).playFor H isWrite n s = (next (H s c).1).playFor H isWrite n (H s c).2 := by
  simp [playFor, hc]

theorem playFor_write_zero {c : C} {next : R c → Prog C R ε α} (hc : isWrite c = true) :
    (call c next).playFor H isWrite 0 s = (none, s) := by
  simp [playFor, hc]

theorem playFor_write_succ {c : C} {next : R c → Prog C R ε α} (hc : isWrite c = true) :
    (call c next).playFor H isWrite (n + 1) s =
      (next (H s c).1).playFor H isWrite n (H s c).2 := by
  simp [playFor, hc]

/-- What cannot be stopped and has no effect at the end of a function does not count. -/
theorem playFor_settle_of_idle {p : Prog C R ε α} {k : Except ε α → Prog C R ε α}
    (hk : ∀ r m t, (k r).playFor H isWrite m t = (some r, t)) :
    (p.settle k).playFor H isWrite n s = p.playFor H isWrite n s := by
  induction p generalizing n s with
  | ret r => exact hk r n s
  | call c next ih =>
    by_cases hc : isWrite c = true
    · cases n with
      | zero => rw [settle_call, playFor_write_zero hc, playFor_write_zero hc]
      | succ n => rw [settle_call, playFor_write_succ hc, playFor_write_succ hc, ih]
    · rw [Bool.not_eq_true] at hc
      rw [settle_call, playFor_read hc, playFor_read hc, ih]

/-- With enough writes the function plays to its end. -/
theorem exists_playFor_eq_play (H : σ → (c : C) → R c × σ) (isWrite : C → Bool)
    (p : Prog C R ε α) (s : σ) :
    ∃ N, ∀ n, N ≤ n →
      p.playFor H isWrite n s = (some (p.play H s).1, (p.play H s).2) := by
  induction p generalizing s with
  | ret r => exact ⟨0, fun n _ => by simp⟩
  | call c next ih =>
    obtain ⟨N, hN⟩ := ih (H s c).1 (H s c).2
    refine ⟨N + 1, fun n hn => ?_⟩
    by_cases hc : isWrite c = true
    · obtain ⟨n, rfl⟩ : ∃ m, n = m + 1 := ⟨n - 1, by omega⟩
      rw [playFor_write_succ hc, hN n (by omega), play_call]
    · rw [Bool.not_eq_true] at hc
      rw [playFor_read hc, hN n (by omega), play_call]

end Prog

/-- How far an attempt gets: not to the sending, to the sending only, or to the record and `j`
writes after it. -/
inductive Extent where
  | before
  | sent
  | recorded (j : ℕ)
  deriving DecidableEq

def Extent.written : Extent → Option ℕ
  | recorded j => some j
  | _ => none

/-- How often an operation has been sent, and the writes made since it was recorded. -/
structure Progress where
  sends : ℕ
  written : Option ℕ
  deriving DecidableEq

namespace Progress

def start : Progress := ⟨0, none⟩

/-- `m` is the number of writes that follow the record. -/
def attempt (m : ℕ) : Progress → Extent → Progress
  | ⟨k, none⟩, .before => ⟨k, none⟩
  | ⟨k, none⟩, .sent => ⟨k + 1, none⟩
  | ⟨k, none⟩, .recorded j => ⟨k + 1, some (min j m)⟩
  | ⟨k, some j⟩, _ => ⟨k, some j⟩

def attempts (m : ℕ) (p : Progress) (es : List Extent) : Progress := es.foldl (attempt m) p

/-- The first attempt that sends also makes every write after the sending. -/
def FirstSendCompletes (m : ℕ) (es : List Extent) : Prop :=
  ∀ e, es.find? (· ≠ .before) = some e → ∃ j, m ≤ j ∧ e = .recorded j

instance (m : ℕ) (es : List Extent) : Decidable (FirstSendCompletes m es) :=
  have hwritten : (∀ e, es.find? (· ≠ .before) = some e → ∃ j, e.written = some j ∧ m ≤ j) ↔
      FirstSendCompletes m es := by
    refine forall_congr' fun e => imp_congr_right fun _ => exists_congr fun j => ?_
    cases e <;> simp [Extent.written, and_comm, eq_comm]
  decidable_of_iff _ hwritten

theorem attempts_cons (m : ℕ) (p : Progress) (e : Extent) (es : List Extent) :
    p.attempts m (e :: es) = (p.attempt m e).attempts m es := rfl

theorem attempts_of_recorded (m k j : ℕ) (es : List Extent) :
    attempts m ⟨k, some j⟩ es = ⟨k, some j⟩ := by
  induction es with
  | nil => rfl
  | cons e es ih => exact ih

/-- Whatever the attempts did, a complete call after them has sent once more. -/
theorem sends_lt_complete (m k : ℕ) (es : List Extent) :
    k < ((attempts m ⟨k, none⟩ es).attempt m (.recorded m)).sends := by
  induction es generalizing k with
  | nil => exact Nat.lt_succ_self k
  | cons e es ih =>
    rw [attempts_cons]
    cases e with
    | before => exact ih k
    | sent => exact Nat.lt_of_succ_lt (ih (k + 1))
    | recorded j =>
      rw [attempt, attempts_of_recorded]
      exact Nat.lt_succ_self k

theorem firstSendCompletes_cons_before {m : ℕ} {es : List Extent} :
    FirstSendCompletes m (.before :: es) ↔ FirstSendCompletes m es := by
  simp [FirstSendCompletes]

theorem firstSendCompletes_cons {m : ℕ} {e : Extent} {es : List Extent} (he : e ≠ .before) :
    FirstSendCompletes m (e :: es) ↔ ∃ j, m ≤ j ∧ e = .recorded j := by
  simp [FirstSendCompletes, he]

/-- Attempts that never stop between the sending and the record have sent at most once. -/
theorem sends_complete_of_not_sent (m : ℕ) {es : List Extent} (h : .sent ∉ es) :
    ((start.attempts m es).attempt m (.recorded m)).sends = 1 := by
  induction es with
  | nil => rfl
  | cons e es ih =>
    cases e with
    | before => exact ih (List.not_mem_of_not_mem_cons h)
    | sent => exact absurd List.mem_cons_self h
    | recorded j =>
      rw [attempts_cons, start, attempt, attempts_of_recorded]
      rfl

theorem written_complete_le (m : ℕ) (es : List Extent) :
    ∃ j ≤ m, ((start.attempts m es).attempt m (.recorded m)).written = some j := by
  have hle : ∀ k, ∃ j ≤ m, ((attempts m ⟨k, none⟩ es).attempt m (.recorded m)).written = some j := by
    induction es with
    | nil => exact fun k => ⟨m, Nat.le_refl m, by simp [attempts, attempt]⟩
    | cons e es ih =>
      intro k
      cases e with
      | before => exact ih k
      | sent => exact ih (k + 1)
      | recorded j =>
        rw [attempts_cons, attempt, attempts_of_recorded]
        exact ⟨min j m, Nat.min_le_right j m, rfl⟩
  exact hle 0

/-- Attempts and then a complete call have sent once and written everything, exactly when the first
attempt that sends gets to the last write. -/
theorem completes_once_iff (m : ℕ) (es : List Extent) :
    (start.attempts m es).attempt m (.recorded m) = ⟨1, some m⟩ ↔ FirstSendCompletes m es := by
  induction es with
  | nil => simp [attempts, attempt, start, FirstSendCompletes]
  | cons e es ih =>
    cases e with
    | before => rw [firstSendCompletes_cons_before, ← ih]; rfl
    | sent =>
      have hmore : 1 < ((start.attempts m (.sent :: es)).attempt m (.recorded m)).sends :=
        sends_lt_complete m 1 es
      rw [firstSendCompletes_cons (by decide)]
      constructor
      · intro h
        rw [h] at hmore
        exact absurd hmore (Nat.lt_irrefl 1)
      · rintro ⟨j, -, hj⟩
        cases hj
    | recorded j =>
      rw [firstSendCompletes_cons (by simp), attempts_cons, start, attempt, attempts_of_recorded]
      have hmin : min j m = m ↔ m ≤ j := by omega
      simp [attempt, hmin]

end Progress
end Async
