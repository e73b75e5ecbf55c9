import Mathlib.Data.List.Nodup

/-!
# Row versions under a partial unique index

At READ COMMITTED an open transaction has written versions of rows that only it sees until it
commits. A row with a version of an open transaction is locked for the others. An index allows one
row with the flag: a statement that gives a row the flag waits for an open transaction that has
changed who has it, and is rejected where another row has it.

`Sound` is what locks and index keep of the stored rows and of the view of every transaction.
-/

namespace Db

structure Versions (α : Type) where
  stored : List α
  pending : List (ℕ × α)

variable {α κ : Type}

def AtMostOne (key : α → κ) (flag : α → Bool) (rows : List α) : Prop :=
  ∀ r ∈ rows, ∀ r' ∈ rows, flag r = true → flag r' = true → key r = key r'

namespace Versions

def pendingOf (i : ℕ) (v : Versions α) : List α := (v.pending.filter (·.1 = i)).map Prod.snd

def rollback (i : ℕ) (v : Versions α) : Versions α :=
  { v with pending := v.pending.filter (·.1 ≠ i) }

section Definitions

variable [DecidableEq κ] (key : α → κ) (flag : α → Bool)

/-- The rows as the transaction of task `i` sees them. -/
def view (i : ℕ) (v : Versions α) : List α :=
  v.stored.filter (fun r => key r ∉ (v.pendingOf i).map key) ++ v.pendingOf i

def find (k : κ) (rows : List α) : Option α := rows.find? (key · = k)

def flagged (k : κ) (rows : List α) : Bool := rows.any fun r => key r = k && flag r

/-- Another open transaction has a version of the row. -/
def locked (i : ℕ) (k : κ) (v : Versions α) : Bool := v.pending.any fun w => w.1 ≠ i && key w.2 = k

/-- A version that changes whether its row has the flag. -/
def moves (stored : List α) (r : α) : Bool := flag r != flagged key flag (key r) stored

def touches (i : ℕ) (v : Versions α) : Bool := (v.pendingOf i).any (moves key flag v.stored)

/-- Another open transaction has changed who has the flag. -/
def entryHeld (i : ℕ) (v : Versions α) : Bool :=
  v.pending.any fun w => w.1 ≠ i && moves key flag v.stored w.2

def write (i : ℕ) (r : α) (v : Versions α) : Versions α :=
  { v with pending := v.pending.filter (fun w => !(w.1 = i && key w.2 = key r)) ++ [(i, r)] }

/-- A statement of task `i` that makes `r` the version of its row: `none` while it waits, `false`
when the index rejects it. -/
def put (i : ℕ) (r : α) (v : Versions α) : Option (Bool × Versions α) :=
  if locked key i (key r) v then none
  else if flag r && !flagged key flag (key r) (view key i v) then
    if entryHeld key flag i v then none
    else if (view key i v).any flag then some (false, v)
    else some (true, write key i r v)
  else some (true, write key i r v)

def commit (i : ℕ) (v : Versions α) : Versions α :=
  ⟨view key i v, v.pending.filter (·.1 ≠ i)⟩

def delete (k : κ) (v : Versions α) : Versions α :=
  { v with stored := v.stored.filter (key · ≠ k) }

end Definitions

theorem mem_pendingOf {i : ℕ} {r : α} {v : Versions α} : r ∈ v.pendingOf i ↔ (i, r) ∈ v.pending := by
  simp [pendingOf]

/-- What a transaction relies on while others run: its versions stay, and so do the stored versions
of the rows it has locked. -/
structure Frame (key : α → κ) (i : ℕ) (v u : Versions α) : Prop where
  pending : u.pendingOf i = v.pendingOf i
  stored : ∀ r ∈ v.pendingOf i, ∀ x, key x = key r → (x ∈ u.stored ↔ x ∈ v.stored)

theorem Frame.refl (key : α → κ) (i : ℕ) (v : Versions α) : Frame key i v v :=
  ⟨rfl, fun _ _ _ _ => Iff.rfl⟩

theorem Frame.trans {key : α → κ} {i : ℕ} {v u w : Versions α} (hvu : Frame key i v u)
    (huw : Frame key i u w) : Frame key i v w := by
  refine ⟨huw.pending.trans hvu.pending, ?_⟩
  intro r hr x hx
  have hr' : r ∈ u.pendingOf i := by
    rw [hvu.pending]
    exact hr
  rw [huw.stored r hr' x hx, hvu.stored r hr x hx]

variable [DecidableEq κ] {key : α → κ} {flag : α → Bool} {v u : Versions α} {i j : ℕ} {r x : α} {k : κ}

theorem mem_view : r ∈ view key i v ↔
    (r ∈ v.stored ∧ ∀ w ∈ v.pendingOf i, key w ≠ key r) ∨ r ∈ v.pendingOf i := by
  simp only [view, List.mem_append, List.mem_filter, List.mem_map, decide_eq_true_eq, not_exists,
    not_and]

theorem flagged_iff {rows : List α} :
    flagged key flag k rows = true ↔ ∃ r ∈ rows, key r = k ∧ flag r = true := by
  simp [flagged]

theorem touches_iff :
    touches key flag i v = true ↔ ∃ r ∈ v.pendingOf i, moves key flag v.stored r = true := by
  simp [touches]

theorem locked_eq_false_iff :
    locked key i k v = false ↔ ∀ j, j ≠ i → ∀ r ∈ v.pendingOf j, key r ≠ k := by
  simp only [locked, List.any_eq_false, Prod.forall, mem_pendingOf]
  constructor
  · intro h j hj r hr hk
    exact h j r hr (by simp [hj, hk])
  · intro h j r hr hboth
    simp only [ne_eq, Bool.and_eq_true, decide_eq_true_eq] at hboth
    exact h j hboth.1 r hr hboth.2

theorem entryHeld_eq_false_iff :
    entryHeld key flag i v = false ↔ ∀ j, j ≠ i → touches key flag j v = false := by
  simp only [entryHeld, touches, List.any_eq_false, Prod.forall, mem_pendingOf]
  constructor
  · intro h j hj r hr hmoves
    exact h j r hr (by simp [hj, hmoves])
  · intro h j r hr hboth
    simp only [ne_eq, Bool.and_eq_true, decide_eq_true_eq] at hboth
    exact h j hboth.1 r hr hboth.2

/-- A row that is not locked keeps its stored version in the view. -/
theorem mem_view_of_stored (hr : r ∈ v.stored) (hfree : ∀ w ∈ v.pendingOf i, key w ≠ key r) :
    r ∈ view key i v := mem_view.mpr (.inl ⟨hr, hfree⟩)

theorem mem_view_of_pending (hr : r ∈ v.pendingOf i) : r ∈ view key i v := mem_view.mpr (.inr hr)

theorem view_of_pendingOf_eq_nil (h : v.pendingOf i = []) : view key i v = v.stored := by
  simp [view, h]

structure Sound (key : α → κ) (flag : α → Bool) (v : Versions α) : Prop where
  storedKeys : (v.stored.map key).Nodup
  pendingKeys : (v.pending.map fun w => key w.2).Nodup
  stored_one : AtMostOne key flag v.stored
  view_one : ∀ i, AtMostOne key flag (view key i v)
  entry : ∀ i j, touches key flag i v = true → touches key flag j v = true → i = j

/-- Two transactions have no versions of one row. -/
theorem Sound.eq_of_key (h : Sound key flag v) {r' : α} (hr : r ∈ v.pendingOf i)
    (hr' : r' ∈ v.pendingOf j) (hkey : key r = key r') : i = j ∧ r = r' := by
  rw [mem_pendingOf] at hr hr'
  have heq := List.inj_on_of_nodup_map h.pendingKeys hr hr' hkey
  exact Prod.mk.inj heq

/-- Whoever has changed who has the flag has locked the row that has it. -/
theorem Sound.not_touches (h : Sound key flag v) (hflag : flagged key flag k v.stored = true)
    (hfree : ∀ r ∈ v.pendingOf j, key r ≠ k) : touches key flag j v = false := by
  by_contra htouch
  rw [Bool.not_eq_false, touches_iff] at htouch
  obtain ⟨r, hr, hmoves⟩ := htouch
  obtain ⟨r₀, hr₀, hkey, hflag₀⟩ := flagged_iff.mp hflag
  rw [moves, bne_iff_ne] at hmoves
  cases hflagr : flag r with
  | true =>
    have hview : r₀ ∈ view key j v := mem_view_of_stored hr₀ fun w hw => hkey ▸ hfree w hw
    have hsame := h.view_one j r (mem_view_of_pending hr) r₀ hview hflagr hflag₀
    exact hfree r hr (hsame.trans hkey)
  | false =>
    rw [hflagr, ne_comm, ne_eq, Bool.not_eq_false, flagged_iff] at hmoves
    obtain ⟨r₁, hr₁, hkey₁, hflag₁⟩ := hmoves
    have hsame := h.stored_one r₁ hr₁ r₀ hr₀ hflag₁ hflag₀
    exact hfree r hr (hkey₁.symm.trans (hsame.trans hkey))

section Write

theorem pendingOf_write_self :
    (write key i r v).pendingOf i = (v.pendingOf i).filter (key · ≠ key r) ++ [r] := by
  have hself : [(i, r)].filter (fun w => decide (w.1 = i)) = [(i, r)] := by simp
  rw [pendingOf, write, List.filter_append, List.map_append, hself, List.map_singleton, pendingOf,
    List.filter_map, List.filter_filter, List.filter_filter]
  congr 2
  apply List.filter_congr
  intro w _
  by_cases hw : w.1 = i
  · simp [hw]
  · simp [hw]

theorem pendingOf_write_of_ne (hj : j ≠ i) : (write key i r v).pendingOf j = v.pendingOf j := by
  have hother : [(i, r)].filter (fun w => decide (w.1 = j)) = [] := by simp [hj.symm]
  rw [pendingOf, write, List.filter_append, List.map_append, hother, List.map_nil, List.append_nil,
    pendingOf, List.filter_filter]
  congr 1
  apply List.filter_congr
  intro w _
  by_cases hw : w.1 = j
  · simp [hw, hj]
  · simp [hw]

theorem mem_pendingOf_write : x ∈ (write key i r v).pendingOf i ↔
    x = r ∨ x ∈ v.pendingOf i ∧ key x ≠ key r := by
  rw [pendingOf_write_self, List.mem_append, List.mem_filter, List.mem_singleton, decide_eq_true_eq,
    or_comm]

theorem mem_view_write : x ∈ view key i (write key i r v) ↔
    x = r ∨ x ∈ view key i v ∧ key x ≠ key r := by
  rw [mem_view, mem_view]
  simp only [mem_pendingOf_write]
  constructor
  · rintro (⟨hx, hfree⟩ | rfl | ⟨hx, hne⟩)
    · have hne : key x ≠ key r := fun heq => hfree r (.inl rfl) heq.symm
      refine .inr ⟨.inl ⟨hx, ?_⟩, hne⟩
      intro w hw heq
      exact hfree w (.inr ⟨hw, fun hr => hne (heq.symm.trans hr)⟩) heq
    · exact .inl rfl
    · exact .inr ⟨.inr hx, hne⟩
  · rintro (rfl | ⟨⟨hx, hfree⟩ | hx, hne⟩)
    · exact .inr (.inl rfl)
    · refine .inl ⟨hx, ?_⟩
      rintro w (rfl | ⟨hw, -⟩)
      · exact fun heq => hne heq.symm
      · exact hfree w hw
    · exact .inr (.inr ⟨hx, hne⟩)

theorem view_write_of_ne (hj : j ≠ i) : view key j (write key i r v) = view key j v := by
  rw [view, view, pendingOf_write_of_ne hj]
  rfl

theorem touches_write_of_ne (hj : j ≠ i) :
    touches key flag j (write key i r v) = touches key flag j v := by
  rw [touches, touches, pendingOf_write_of_ne hj]
  rfl

theorem frame_write (hj : j ≠ i) : Frame key j v (write key i r v) :=
  ⟨pendingOf_write_of_ne hj, fun _ _ _ _ => Iff.rfl⟩

/-- A version keeps everything sound when its row is not locked, no other row of the view has its
flag, and nobody else has changed who has the flag if it does. -/
theorem Sound.write (h : Sound key flag v) (hlock : locked key i (key r) v = false)
    (hone : flag r = true → ∀ x ∈ view key i v, flag x = true → key x = key r)
    (hentry : moves key flag v.stored r = true → ∀ j, j ≠ i → touches key flag j v = false) :
    Sound key flag (write key i r v) where
  storedKeys := h.storedKeys
  pendingKeys := by
    rw [locked_eq_false_iff] at hlock
    rw [Versions.write, List.map_append, List.map_singleton, List.nodup_append]
    refine ⟨(List.filter_sublist.map _).nodup h.pendingKeys, List.nodup_singleton _, ?_⟩
    intro k hk k' hk' heq
    rw [List.mem_singleton] at hk'
    obtain ⟨⟨j, x⟩, hmem, rfl⟩ := List.mem_map.mp hk
    rw [List.mem_filter] at hmem
    have hkey : key x = key r := heq.trans hk'
    by_cases hj : j = i
    · simp [hj, hkey] at hmem
    · exact hlock j hj x (mem_pendingOf.mpr hmem.1) hkey
  stored_one := h.stored_one
  view_one j := by
    by_cases hj : j = i
    · subst hj
      intro x hx y hy hflagx hflagy
      rcases mem_view_write.mp hx with hxr | ⟨hx', -⟩
      · rcases mem_view_write.mp hy with hyr | ⟨hy', -⟩
        · rw [hxr, hyr]
        · rw [hxr] at hflagx ⊢
          exact (hone hflagx y hy' hflagy).symm
      · rcases mem_view_write.mp hy with hyr | ⟨hy', -⟩
        · rw [hyr] at hflagy ⊢
          exact hone hflagy x hx' hflagx
        · exact h.view_one j x hx' y hy' hflagx hflagy
    · rw [view_write_of_ne hj]
      exact h.view_one j
  entry := by
    have hother : ∀ j, j ≠ i → touches key flag i (Versions.write key i r v) = true →
        touches key flag j (Versions.write key i r v) = true → False := by
      intro j hj hi htouch
      rw [touches_write_of_ne hj] at htouch
      obtain ⟨x, hx, hmoves⟩ := touches_iff.mp hi
      rcases mem_pendingOf_write.mp hx with rfl | ⟨hx, -⟩
      · rw [hentry hmoves j hj] at htouch
        cases htouch
      · exact hj (h.entry j i htouch (touches_iff.mpr ⟨x, hx, hmoves⟩))
    intro a b ha hb
    by_cases hai : a = i
    · by_cases hbi : b = i
      · rw [hai, hbi]
      · subst hai
        exact (hother b hbi ha hb).elim
    · by_cases hbi : b = i
      · subst hbi
        exact (hother a hai hb ha).elim
      · rw [touches_write_of_ne hai] at ha
        rw [touches_write_of_ne hbi] at hb
        exact h.entry a b ha hb

/-- Taking the flag from a row that is not locked needs no further check. -/
theorem Sound.write_unflagged (h : Sound key flag v) (hlock : locked key i (key r) v = false)
    (hflag : flag r = false) : Sound key flag (Versions.write key i r v) := by
  refine h.write hlock ?_ ?_
  · intro hr
    rw [hflag] at hr
    cases hr
  · intro hmoves j hj
    rw [moves, hflag, bne_iff_ne, ne_comm, ne_eq, Bool.not_eq_false] at hmoves
    exact h.not_touches hmoves (locked_eq_false_iff.mp hlock j hj)

/-- Who gives a row the flag that it has in the view, but not stored, has changed who has it. -/
theorem touches_of_view (h : flagged key flag k (view key i v) = true)
    (hstored : flagged key flag k v.stored = false) : touches key flag i v = true := by
  obtain ⟨x, hx, rfl, hflag⟩ := flagged_iff.mp h
  rcases mem_view.mp hx with ⟨hx, -⟩ | hx
  · have hcontra : flagged key flag (key x) v.stored = true := flagged_iff.mpr ⟨x, hx, rfl, hflag⟩
    rw [hstored] at hcontra
    cases hcontra
  · refine touches_iff.mpr ⟨x, hx, ?_⟩
    rw [moves, hflag, hstored]
    rfl

theorem Sound.put (h : Sound key flag v) {b : Bool} (hput : put key flag i r v = some (b, u)) :
    Sound key flag u ∧ (b = true → u = Versions.write key i r v) ∧
      (b = false → u = v ∧ ∃ x ∈ view key i v, flag x = true) := by
  rw [Versions.put] at hput
  by_cases hlock : locked key i (key r) v = true
  · rw [if_pos hlock] at hput
    cases hput
  rw [if_neg hlock] at hput
  rw [Bool.not_eq_true] at hlock
  by_cases hnew : (flag r && !flagged key flag (key r) (view key i v)) = true
  · rw [if_pos hnew] at hput
    by_cases hheld : entryHeld key flag i v = true
    · rw [if_pos hheld] at hput
      cases hput
    rw [if_neg hheld] at hput
    rw [Bool.not_eq_true] at hheld
    by_cases hany : (view key i v).any flag = true
    · rw [if_pos hany] at hput
      cases hput
      obtain ⟨x, hx, hflag⟩ := List.any_eq_true.mp hany
      exact ⟨h, fun hfalse => absurd hfalse Bool.false_ne_true, fun _ => ⟨rfl, x, hx, hflag⟩⟩
    · rw [if_neg hany] at hput
      cases hput
      refine ⟨h.write hlock ?_ ?_, fun _ => rfl, fun hfalse => absurd hfalse.symm Bool.false_ne_true⟩
      · intro _ x hx hflag
        exact absurd (List.any_eq_true.mpr ⟨x, hx, hflag⟩) hany
      · exact fun _ => entryHeld_eq_false_iff.mp hheld
  · rw [if_neg hnew] at hput
    cases hput
    refine ⟨?_, fun _ => rfl, fun hfalse => absurd hfalse.symm Bool.false_ne_true⟩
    cases hflag : flag r with
    | false => exact h.write_unflagged hlock hflag
    | true =>
      rw [hflag, Bool.true_and, Bool.not_eq_true, Bool.not_eq_false'] at hnew
      refine h.write hlock ?_ ?_
      · intro _ x hx hflagx
        obtain ⟨y, hy, hkey, hflagy⟩ := flagged_iff.mp hnew
        exact (h.view_one i x hx y hy hflagx hflagy).trans hkey
      · intro hmoves j hj
        rw [moves, hflag, bne_iff_ne, ne_comm, ne_eq, Bool.not_eq_true] at hmoves
        by_contra htouch
        rw [Bool.not_eq_false] at htouch
        exact hj (h.entry j i htouch (touches_of_view hnew hmoves))

end Write

section Ends

theorem pendingOf_filter_self (v : Versions α) :
    ((v.pending.filter (·.1 ≠ i)).filter (·.1 = i)).map Prod.snd = [] := by
  rw [List.filter_filter, List.map_eq_nil_iff, List.filter_eq_nil_iff]
  intro w _
  by_cases hw : w.1 = i
  · simp [hw]
  · simp [hw]

theorem pendingOf_filter_of_ne (v : Versions α) (hj : j ≠ i) :
    ((v.pending.filter (·.1 ≠ i)).filter (·.1 = j)).map Prod.snd = v.pendingOf j := by
  rw [List.filter_filter, pendingOf]
  congr 1
  apply List.filter_congr
  intro w _
  by_cases hw : w.1 = j
  · simp [hw, hj]
  · simp [hw]

omit [DecidableEq κ] in
theorem frame_rollback (hj : j ≠ i) : Frame key j v (v.rollback i) :=
  ⟨pendingOf_filter_of_ne v hj, fun _ _ _ _ => Iff.rfl⟩

theorem pendingOf_rollback (v : Versions α) (i : ℕ) : (v.rollback i).pendingOf i = [] :=
  pendingOf_filter_self v

theorem pendingOf_commit (v : Versions α) (i : ℕ) : (commit key i v).pendingOf i = [] :=
  pendingOf_filter_self v

theorem Sound.rollback (h : Sound key flag v) (i : ℕ) : Sound key flag (v.rollback i) where
  storedKeys := h.storedKeys
  pendingKeys := (List.filter_sublist.map _).nodup h.pendingKeys
  stored_one := h.stored_one
  view_one j := by
    by_cases hj : j = i
    · rw [hj, view_of_pendingOf_eq_nil (pendingOf_rollback v i)]
      exact h.stored_one
    · have hframe : Frame key j v (v.rollback i) := frame_rollback hj
      rw [view, hframe.pending]
      exact h.view_one j
  entry a b ha hb := by
    have hsame : ∀ j, touches key flag j (v.rollback i) = true → touches key flag j v = true := by
      intro j htouch
      by_cases hj : j = i
      · rw [hj, touches, pendingOf_rollback] at htouch
        cases htouch
      · have hframe : Frame key j v (v.rollback i) := frame_rollback hj
        rw [touches, hframe.pending] at htouch
        exact htouch
    exact h.entry a b (hsame a ha) (hsame b hb)

/-- The stored rows after a commit are the view before it, and a row that task `j` has locked is
there as it was. -/
theorem frame_commit (h : Sound key flag v) (hj : j ≠ i) : Frame key j v (commit key i v) where
  pending := pendingOf_filter_of_ne v hj
  stored r hr x hx := by
    have hfree : ∀ w ∈ v.pendingOf i, key w ≠ key x := by
      intro w hw heq
      exact hj (h.eq_of_key hw hr (heq.trans hx)).1.symm
    show x ∈ view key i v ↔ x ∈ v.stored
    rw [mem_view]
    constructor
    · rintro (⟨hstored, -⟩ | hpending)
      · exact hstored
      · exact absurd rfl (hfree x hpending)
    · intro hstored
      exact .inl ⟨hstored, hfree⟩

theorem Frame.flagged_eq (h : Frame key j v u) (hr : r ∈ v.pendingOf j) :
    flagged key flag (key r) u.stored = flagged key flag (key r) v.stored := by
  rw [Bool.eq_iff_iff, flagged_iff, flagged_iff]
  constructor
  · rintro ⟨x, hx, hkey, hflag⟩
    exact ⟨x, (h.stored r hr x hkey).mp hx, hkey, hflag⟩
  · rintro ⟨x, hx, hkey, hflag⟩
    exact ⟨x, (h.stored r hr x hkey).mpr hx, hkey, hflag⟩

theorem Frame.moves_eq (h : Frame key j v u) (hr : r ∈ v.pendingOf j) :
    moves key flag u.stored r = moves key flag v.stored r := by
  rw [moves, moves, h.flagged_eq hr]

theorem Frame.touches_eq (h : Frame key j v u) : touches key flag j u = touches key flag j v := by
  rw [Bool.eq_iff_iff, touches_iff, touches_iff, h.pending]
  constructor
  · rintro ⟨r, hr, hmoves⟩
    exact ⟨r, hr, h.moves_eq hr ▸ hmoves⟩
  · rintro ⟨r, hr, hmoves⟩
    exact ⟨r, hr, (h.moves_eq hr).symm ▸ hmoves⟩

theorem nodup_view (h : Sound key flag v) (i : ℕ) : ((view key i v).map key).Nodup := by
  rw [view, List.map_append, List.nodup_append]
  refine ⟨(List.filter_sublist.map _).nodup h.storedKeys, ?_, ?_⟩
  · have hkeys := (List.filter_sublist (p := fun w : ℕ × α => decide (w.1 = i))
      (l := v.pending).map fun w => key w.2).nodup h.pendingKeys
    rw [pendingOf, List.map_map]
    exact hkeys
  · intro k hk k' hk' heq
    obtain ⟨x, hx, rfl⟩ := List.mem_map.mp hk
    rw [List.mem_filter, decide_eq_true_eq] at hx
    exact hx.2 (heq ▸ hk')

/-- A row with the flag in the view of a transaction that has changed nobody's flag has it stored. -/
theorem flagged_stored_of_view (hquiet : touches key flag i v = false) (hr : r ∈ view key i v)
    (hflag : flag r = true) : flagged key flag (key r) v.stored = true := by
  by_contra hstored
  rw [Bool.not_eq_true] at hstored
  have htouch := touches_of_view (flagged_iff.mpr ⟨r, hr, rfl, hflag⟩) hstored
  rw [hquiet] at htouch
  cases htouch

theorem Sound.commit (h : Sound key flag v) (i : ℕ) : Sound key flag (commit key i v) where
  storedKeys := nodup_view h i
  pendingKeys := (List.filter_sublist.map _).nodup h.pendingKeys
  stored_one := h.view_one i
  view_one j := by
    by_cases hj : j = i
    · rw [hj, view_of_pendingOf_eq_nil (pendingOf_commit v i)]
      exact h.view_one i
    have hframe := frame_commit h hj
    -- a flag in the new view of `j` is one in the old view of `i`, or of `j` when `i` moves none
    cases htouch : touches key flag i v with
    | true =>
      have hquiet : touches key flag j v = false := by
        by_contra hne
        rw [Bool.not_eq_false] at hne
        exact hj (h.entry j i hne htouch)
      have hold : ∀ x ∈ view key j (Versions.commit key i v), flag x = true →
          ∃ y ∈ view key i v, key y = key x ∧ flag y = true := by
        intro x hx hflag
        rw [← hframe.touches_eq] at hquiet
        exact flagged_iff.mp (flagged_stored_of_view hquiet hx hflag)
      intro x hx y hy hflagx hflagy
      obtain ⟨x', hx', hkeyx, hflagx'⟩ := hold x hx hflagx
      obtain ⟨y', hy', hkeyy, hflagy'⟩ := hold y hy hflagy
      rw [← hkeyx, ← hkeyy]
      exact h.view_one i x' hx' y' hy' hflagx' hflagy'
    | false =>
      have hold : ∀ x ∈ view key j (Versions.commit key i v), flag x = true →
          ∃ y ∈ view key j v, key y = key x ∧ flag y = true := by
        intro x hx hflag
        rcases mem_view.mp hx with ⟨hstored, hfree⟩ | hpending
        · obtain ⟨y, hy, hkey, hflagy⟩ :=
            flagged_iff.mp (flagged_stored_of_view htouch hstored hflag)
          refine ⟨y, mem_view_of_stored hy ?_, hkey, hflagy⟩
          intro w hw
          rw [hkey]
          exact hfree w (hframe.pending ▸ hw)
        · rw [hframe.pending] at hpending
          exact ⟨x, mem_view_of_pending hpending, rfl, hflag⟩
      intro x hx y hy hflagx hflagy
      obtain ⟨x', hx', hkeyx, hflagx'⟩ := hold x hx hflagx
      obtain ⟨y', hy', hkeyy, hflagy'⟩ := hold y hy hflagy
      rw [← hkeyx, ← hkeyy]
      exact h.view_one j x' hx' y' hy' hflagx' hflagy'
  entry a b ha hb := by
    have hsame : ∀ j, touches key flag j (Versions.commit key i v) = true →
        touches key flag j v = true := by
      intro j htouch
      by_cases hj : j = i
      · rw [hj, touches, pendingOf_commit] at htouch
        cases htouch
      · rw [(frame_commit h hj).touches_eq] at htouch
        exact htouch
    exact h.entry a b (hsame a ha) (hsame b hb)

def Free (key : α → κ) (k : κ) (v : Versions α) : Prop := ∀ j, ∀ r ∈ v.pendingOf j, key r ≠ k

theorem frame_delete (hfree : Free key k v) : Frame key j v (delete key k v) where
  pending := rfl
  stored r hr x hx := by
    have hne : key x ≠ k := hx ▸ hfree j r hr
    simp [delete, hne]

theorem mem_view_delete (hx : x ∈ view key i (delete key k v)) : x ∈ view key i v := by
  rcases mem_view.mp hx with ⟨hstored, hfree⟩ | hpending
  · exact mem_view.mpr (.inl ⟨(List.mem_filter.mp hstored).1, hfree⟩)
  · exact mem_view_of_pending hpending

theorem Sound.delete (h : Sound key flag v) (hfree : Free key k v) :
    Sound key flag (delete key k v) where
  storedKeys := (List.filter_sublist.map _).nodup h.storedKeys
  pendingKeys := h.pendingKeys
  stored_one x hx y hy := h.stored_one x (List.mem_filter.mp hx).1 y (List.mem_filter.mp hy).1
  view_one j x hx y hy := h.view_one j x (mem_view_delete hx) y (mem_view_delete hy)
  entry a b ha hb := by
    rw [(frame_delete hfree).touches_eq] at ha hb
    exact h.entry a b ha hb

end Ends

end Versions
end Db
