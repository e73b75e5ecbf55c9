import Mathlib.Data.List.Infix
import Tokenable.Async.RelyGuarantee

/-!
# Database sessions at READ COMMITTED

A `Schema` gives the statements of a database: what each answers, whether it takes effect, what it
does to the tables, and which statements of other open transactions it has to wait for. Outside a
transaction a statement runs on the committed tables. Inside one it sees the committed tables with
the changes of its own transaction; these are kept apart until `commit` applies them all at once,
or `rollback` forgets them.

`history` is the list of committed changes with the tasks that made them, in the order in which
they took effect: `replays_exec` says that the stored tables are the first ones after it.
-/

namespace Db
open Async

structure Schema (σ W : Type) (A : W → Type) where
  answer : σ → (w : W) → A w
  /-- The statement is no read, and no unique index rejects it. -/
  changes : σ → W → Bool
  apply : σ → W → σ
  /-- The first statement waits for a transaction that has run the second. -/
  waits : σ → W → W → Bool

structure Session (σ W : Type) where
  stored : σ
  pending : List (ℕ × W)
  history : List (ℕ × W)

inductive SqlCmd (W : Type) where
  | auto (w : W)
  | inTx (w : W)
  | commit
  | rollback

abbrev SqlRes {W : Type} (A : W → Type) : SqlCmd W → Type
  | .auto w => A w
  | .inTx w => A w
  | .commit => Unit
  | .rollback => Unit

variable {σ W : Type} {A : W → Type} (S : Schema σ W A)

def Schema.replay (t : σ) (ws : List (ℕ × W)) : σ := ws.foldl (fun t w => S.apply t w.2) t

theorem Schema.replay_append (t : σ) (ws vs : List (ℕ × W)) :
    S.replay t (ws ++ vs) = S.replay (S.replay t ws) vs := List.foldl_append

/-- What every change keeps, a list of changes keeps. -/
theorem Schema.replay_induction {P : σ → Prop} {ws : List (ℕ × W)} {t : σ} (ht : P t)
    (hstep : ∀ w ∈ ws, ∀ u, P u → P (S.apply u w.2)) : P (S.replay t ws) := by
  induction ws generalizing t with
  | nil => exact ht
  | cons w ws ih => exact ih (hstep w (.head _) t ht) fun v hv => hstep v (.tail _ hv)

namespace Session

def opened (t : σ) : Session σ W := ⟨t, [], []⟩

def pendingOf (i : ℕ) (s : Session σ W) : List (ℕ × W) := s.pending.filter (fun w => w.1 = i)

/-- The tables as the transaction of task `i` sees them. -/
def view (i : ℕ) (s : Session σ W) : σ := S.replay s.stored (s.pendingOf i)

/-- Every change that is committed or may still be. -/
def writes (s : Session σ W) : List (ℕ × W) := s.history ++ s.pending

/-- The statement waits for one of the transactions of the tasks in `p`. -/
def blocked (p : ℕ → Bool) (s : Session σ W) (w : W) : Bool :=
  s.pending.any (fun v => p v.1 && S.waits s.stored w v.2)

def runAuto (i : ℕ) (s : Session σ W) (w : W) : Session σ W :=
  if S.changes s.stored w then
    { s with stored := S.apply s.stored w, history := s.history ++ [(i, w)] }
  else s

def runInTx (i : ℕ) (s : Session σ W) (w : W) : Session σ W :=
  if S.changes (s.view S i) w then { s with pending := s.pending ++ [(i, w)] } else s

def commit (i : ℕ) (s : Session σ W) : Session σ W where
  stored := s.view S i
  pending := s.pending.filter (fun w => w.1 ≠ i)
  history := s.history ++ s.pendingOf i

def rollback (i : ℕ) (s : Session σ W) : Session σ W :=
  { s with pending := s.pending.filter (fun w => w.1 ≠ i) }

def exec (i : ℕ) (s : Session σ W) : (c : SqlCmd W) → Option (SqlRes A c × Session σ W)
  | .auto w => if s.blocked S (fun _ => true) w then none
    else some (S.answer s.stored w, s.runAuto S i w)
  | .inTx w => if s.blocked S (· ≠ i) w then none
    else some (S.answer (s.view S i) w, s.runInTx S i w)
  | .commit => some ((), s.commit S i)
  | .rollback => some ((), s.rollback i)

end Session

section Steps
variable {S} {i j : ℕ} {s t : Session σ W} {c : SqlCmd W} {r : SqlRes A c} {w : W}

open Session

theorem exec_auto_eq_some {r : A w} :
    s.exec S i (.auto w) = some (r, t) ↔
      s.blocked S (fun _ => true) w = false ∧ r = S.answer s.stored w ∧ t = s.runAuto S i w := by
  simp only [exec]
  generalize s.blocked S (fun _ => true) w = b
  cases b with
  | true => simp
  | false =>
    simp only [Bool.false_eq_true, if_false, Option.some.injEq, Prod.mk.injEq, true_and]
    exact and_congr eq_comm eq_comm

theorem exec_inTx_eq_some {r : A w} :
    s.exec S i (.inTx w) = some (r, t) ↔
      s.blocked S (· ≠ i) w = false ∧ r = S.answer (s.view S i) w ∧ t = s.runInTx S i w := by
  simp only [exec]
  generalize s.blocked S (· ≠ i) w = b
  cases b with
  | true => simp
  | false =>
    simp only [Bool.false_eq_true, if_false, Option.some.injEq, Prod.mk.injEq, true_and]
    exact and_congr eq_comm eq_comm

/-- The four ways in which a step of task `i` changes the session. -/
theorem exec_cases (h : s.exec S i c = some (r, t)) :
    (∃ w, c = .auto w ∧ s.blocked S (fun _ => true) w = false ∧ t = s.runAuto S i w) ∨
    (∃ w, c = .inTx w ∧ s.blocked S (· ≠ i) w = false ∧ t = s.runInTx S i w) ∨
    (c = .commit ∧ t = s.commit S i) ∨ (c = .rollback ∧ t = s.rollback i) := by
  cases c with
  | auto w =>
    obtain ⟨hfree, -, rfl⟩ := exec_auto_eq_some.mp h
    exact .inl ⟨w, rfl, hfree, rfl⟩
  | inTx w =>
    obtain ⟨hfree, -, rfl⟩ := exec_inTx_eq_some.mp h
    exact .inr (.inl ⟨w, rfl, hfree, rfl⟩)
  | commit =>
    simp only [exec, Option.some.injEq, Prod.mk.injEq] at h
    exact .inr (.inr (.inl ⟨rfl, h.2.symm⟩))
  | rollback =>
    simp only [exec, Option.some.injEq, Prod.mk.injEq] at h
    exact .inr (.inr (.inr ⟨rfl, h.2.symm⟩))

theorem not_waits_of_not_blocked {p : ℕ → Bool} (h : s.blocked S p w = false) {v : ℕ × W}
    (hv : v ∈ s.pending) (hp : p v.1 = true) : S.waits s.stored w v.2 = false := by
  have hall := List.any_eq_false.mp h v hv
  simpa [hp] using hall

theorem mem_pendingOf {v : ℕ × W} : v ∈ s.pendingOf i ↔ v ∈ s.pending ∧ v.1 = i := by
  simp [pendingOf]

/-- A transaction only loses or gains changes by its own steps. -/
theorem pendingOf_exec (h : s.exec S i c = some (r, t)) (hj : j ≠ i) :
    t.pendingOf j = s.pendingOf j := by
  have hfilter : (s.pending.filter (fun w => w.1 ≠ i)).filter (fun w => w.1 = j) =
      s.pending.filter (fun w => w.1 = j) := by
    rw [List.filter_filter]
    refine List.filter_congr fun v _ => ?_
    by_cases hv : v.1 = j
    · simp [hv, hj]
    · simp [hv]
  rcases exec_cases h with ⟨w, -, -, rfl⟩ | ⟨w, -, -, rfl⟩ | ⟨-, rfl⟩ | ⟨-, rfl⟩
  · unfold runAuto
    split_ifs <;> rfl
  · unfold runInTx
    split_ifs
    · simp [pendingOf, Ne.symm hj]
    · rfl
  · exact hfilter
  · exact hfilter

theorem history_exec (h : s.exec S i c = some (r, t)) : s.history <+: t.history := by
  rcases exec_cases h with ⟨w, -, -, rfl⟩ | ⟨w, -, -, rfl⟩ | ⟨-, rfl⟩ | ⟨-, rfl⟩
  · unfold runAuto
    split_ifs
    · exact List.prefix_append _ _
    · exact List.prefix_rfl
  · unfold runInTx
    split_ifs <;> exact List.prefix_rfl
  · exact List.prefix_append _ _
  · exact List.prefix_rfl

/-- A commit moves changes, it makes none. -/
theorem mem_writes_commit {v : ℕ × W} : v ∈ (s.commit S i).writes ↔ v ∈ s.writes := by
  simp only [writes, commit, List.mem_append, mem_pendingOf, List.mem_filter, decide_eq_true_eq]
  by_cases hv : v.1 = i
  · simp [hv]
  · simp [hv]

theorem mem_writes_rollback {v : ℕ × W} (hv : v ∈ (s.rollback i).writes) : v ∈ s.writes := by
  simp only [writes, rollback, List.mem_append, List.mem_filter] at hv ⊢
  exact hv.imp_right And.left

/-- The changes of a transaction stay in it until it ends. -/
theorem pendingOf_runInTx (S : Schema σ W A) (w : W) {v : ℕ × W} (hv : v ∈ s.pendingOf i) :
    v ∈ (s.runInTx S i w).pendingOf i := by
  obtain ⟨hmem, hi⟩ := mem_pendingOf.mp hv
  refine mem_pendingOf.mpr ⟨?_, hi⟩
  unfold runInTx
  split_ifs
  · exact List.mem_append_left _ hmem
  · exact hmem

/-- The stored tables are the first ones after the committed changes. -/
theorem replays_exec {t₀ : σ} (hs : s.stored = S.replay t₀ s.history)
    (h : s.exec S i c = some (r, t)) : t.stored = S.replay t₀ t.history := by
  rcases exec_cases h with ⟨w, -, -, rfl⟩ | ⟨w, -, -, rfl⟩ | ⟨-, rfl⟩ | ⟨-, rfl⟩
  · unfold runAuto
    split_ifs
    · simp only [Schema.replay_append, ← hs]
      rfl
    · exact hs
  · unfold runInTx
    split_ifs <;> exact hs
  · simp only [commit, view, Schema.replay_append, ← hs]
  · exact hs

end Steps

section Programs
variable {ρ : Type} {B : ρ → Type} {ε α : Type}

/-- An async program that runs statements and asks the outside world. -/
abbrev SqlProg (A : W → Type) (B : ρ → Type) (ε α : Type) :=
  Prog (SqlCmd W ⊕ ρ) (Sum.elim (SqlRes A) B) ε α

/-- The world answers a request as it likes; the session answers a statement. -/
def sqlHandler : Handler (Session σ W) ((q : ρ) → B q) (SqlCmd W ⊕ ρ) (Sum.elim (SqlRes A) B)
  | i, s, _, .inl c => s.exec S i c
  | _, s, x, .inr q => some (x q, s)

def sql (w : W) : SqlProg A B ε (A w) := .call (.inl (.auto w)) (fun r => .ret (.ok r))

def txSql (w : W) : SqlProg A B ε (A w) := .call (.inl (.inTx w)) (fun r => .ret (.ok r))

def askWorld (q : ρ) : SqlProg A B ε (B q) := .call (.inr q) (fun r => .ret (.ok r))

/-- The only task of a session, in a world that does not change. -/
def alone (x : (q : ρ) → B q) : Session σ W → (c : SqlCmd W ⊕ ρ) →
    Sum.elim (SqlRes A) B c × Session σ W
  | s, .inl (.auto w) => (S.answer s.stored w, s.runAuto S 0 w)
  | s, .inl (.inTx w) => (S.answer (s.view S 0) w, s.runInTx S 0 w)
  | s, .inl .commit => ((), s.commit S 0)
  | s, .inl .rollback => ((), s.rollback 0)
  | s, .inr q => (x q, s)

/-- Statements outside transactions, and questions. -/
def Outside : SqlCmd W ⊕ ρ → Prop
  | .inl (.auto _) => True
  | .inl _ => False
  | .inr _ => True

theorem runAuto_pending {i : ℕ} {s : Session σ W} {w : W} :
    (s.runAuto S i w).pending = s.pending := by
  unfold Session.runAuto
  split_ifs <;> rfl

/-- What `alone` does to the stored tables: every statement acts at once. -/
def direct (x : (q : ρ) → B q) : σ → (c : SqlCmd W ⊕ ρ) → Sum.elim (SqlRes A) B c × σ
  | t, .inl (.auto w) => (S.answer t w, if S.changes t w then S.apply t w else t)
  | t, .inl (.inTx w) => (S.answer t w, if S.changes t w then S.apply t w else t)
  | t, .inl .commit => ((), t)
  | t, .inl .rollback => ((), t)
  | t, .inr q => (x q, t)

/-- Outside transactions, a task that is alone acts on the stored tables. -/
theorem play_alone {x : (q : ρ) → B q} {p : SqlProg A B ε α} (hp : p.Issues Outside)
    {s : Session σ W} (hs : s.pending = []) :
    (p.play (alone S x) s).1 = (p.play (direct S x) s.stored).1 ∧
      (p.play (alone S x) s).2.pending = [] ∧
      (p.play (alone S x) s).2.stored = (p.play (direct S x) s.stored).2 := by
  refine Prog.play_related (K := fun (u : Session σ W) t => u.pending = [] ∧ u.stored = t)
    ?_ hp ⟨hs, rfl⟩
  rintro c hc u t ⟨hu, rfl⟩
  rcases c with (w | w | _ | _) | q
  · refine ⟨rfl, (runAuto_pending S).trans hu, ?_⟩
    simp only [alone, direct, Session.runAuto]
    split_ifs <;> rfl
  · exact hc.elim
  · exact hc.elim
  · exact hc.elim
  · exact ⟨rfl, hu, rfl⟩

/-- `manager.transaction(body)`: commit when the body returns, roll back and rethrow otherwise. -/
def transaction (body : SqlProg A B ε α) : SqlProg A B ε α :=
  body.settle fun
    | .ok a => .call (.inl .commit) (fun _ => .ret (.ok a))
    | .error e => .call (.inl .rollback) (fun _ => .ret (.error e))

def Inside : SqlCmd W ⊕ ρ → Prop
  | .inl (.inTx _) => True
  | .inl _ => False
  | .inr _ => True

theorem issues_transaction {P : SqlCmd W ⊕ ρ → Prop} {body : SqlProg A B ε α} (h : body.Issues P)
    (hcommit : P (.inl .commit)) (hrollback : P (.inl .rollback)) :
    (transaction body).Issues P := by
  refine Prog.issues_settle h fun r => ?_
  cases r with
  | ok a => exact ⟨hcommit, fun _ => trivial⟩
  | error e => exact ⟨hrollback, fun _ => trivial⟩

end Programs

/-- The contract of a session whose statements keep `keeps` of the stored tables: the other tasks
leave the open transaction of a task alone and undo nothing that is committed. -/
def sessionContract (inv : Session σ W → Prop) : Contract (Session σ W) where
  inv := inv
  guar i s t := (∀ j ≠ i, t.pendingOf j = s.pendingOf j) ∧ s.history <+: t.history
  rely i s t := t.pendingOf i = s.pendingOf i ∧ s.history <+: t.history
  rely_refl _ _ := ⟨rfl, List.prefix_rfl⟩
  rely_trans _ _ _ _ hst htu := ⟨htu.1.trans hst.1, hst.2.trans htu.2⟩
  rely_of_guar i _ _ _ hij hst := ⟨hst.1 i hij, hst.2⟩

theorem guar_exec {S : Schema σ W A} {inv : Session σ W → Prop} {i : ℕ} {s t : Session σ W}
    {c : SqlCmd W} {r : SqlRes A c} (h : s.exec S i c = some (r, t)) :
    (sessionContract inv).guar i s t :=
  ⟨fun _ hj => pendingOf_exec h hj, history_exec h⟩

variable {S : Schema σ W A} {ρ : Type} {B : ρ → Type} {ε α : Type} {inv : Session σ W → Prop}
  {i : ℕ} {Ok : Allowed (Session σ W) (SqlCmd W ⊕ ρ)}

/-- The transaction rule: the body ends where a commit, or a rollback, does what is asked. -/
theorem wp_transaction {body : SqlProg A B ε α} {Q : Except ε α → Session σ W → Prop}
    {s : Session σ W}
    (h : wp (sqlHandler S) Ok (sessionContract inv) i body (fun r t => ∀ u,
      (sessionContract inv).rely i t u → inv u → match r with
        | .ok a => inv (u.commit S i) ∧ Q (.ok a) (u.commit S i)
        | .error e => inv (u.rollback i) ∧ Q (.error e) (u.rollback i)) s) :
    wp (sqlHandler S) Ok (sessionContract inv) i (transaction body) Q s := by
  refine wp_settle (wp_mono (fun r t ht => ?_) h)
  cases r with
  | ok a =>
    intro u htu hu _ x r v hv
    have hexec : u.exec S i .commit = some (r, v) := hv
    obtain ⟨-, rfl⟩ := Prod.mk.inj (Option.some.inj hv)
    obtain ⟨hinv, hQ⟩ := ht u htu hu
    exact ⟨hinv, guar_exec hexec, hQ⟩
  | error e =>
    intro u htu hu _ x r v hv
    have hexec : u.exec S i .rollback = some (r, v) := hv
    obtain ⟨-, rfl⟩ := Prod.mk.inj (Option.some.inj hv)
    obtain ⟨hinv, hQ⟩ := ht u htu hu
    exact ⟨hinv, guar_exec hexec, hQ⟩

end Db
