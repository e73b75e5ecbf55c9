import Mathlib.Data.List.Perm.Subperm
import Tokenable.Async.RelyGuarantee
import Tokenable.User.AddressBook

/-!
# One default, and at most ten addresses

What a step of a call keeps: locks and index keep the versions sound, and where addresses are stored
without a default, some deletion has yet to promote one. A call that has cleared the default either
gives the flag to an address before it commits, or rolls back.
-/

namespace AddressBook
open Js Platform Async Db Versions

def HasDefault (rows : List Address) : Prop := ∃ r ∈ rows, r.isDefault = true

/-- The address book as a user should find it. -/
structure InOrder (rows : List Address) : Prop where
  limit : rows.length ≤ maxShippingAddressesPerUser
  oneDefault : rows ≠ [] → ∃ r ∈ rows, r.isDefault = true ∧ ∀ r' ∈ rows, r'.isDefault = true → r' = r

structure Inv (b : Book) : Prop where
  sound : Sound Address.id Address.isDefault b.rows
  limit : b.stored.length ≤ maxShippingAddressesPerUser
  duty : b.stored = [] ∨ HasDefault b.stored ∨ b.promoting ≠ []

/-- What a call relies on while others run. -/
structure Keeps (i : ℕ) (b u : Book) : Prop where
  frame : Frame Address.id i b.rows u.rows
  promoting : i ∈ u.promoting ↔ i ∈ b.promoting

theorem Keeps.refl (i : ℕ) (b : Book) : Keeps i b b := ⟨Frame.refl _ i b.rows, Iff.rfl⟩

theorem Keeps.trans {i : ℕ} {b u w : Book} (hbu : Keeps i b u) (huw : Keeps i u w) : Keeps i b w :=
  ⟨hbu.frame.trans huw.frame, huw.promoting.trans hbu.promoting⟩

def contract : Contract Book where
  inv := Inv
  guar i b u := ∀ j, j ≠ i → Keeps j b u
  rely := Keeps
  rely_refl := Keeps.refl
  rely_trans _ _ _ _ := Keeps.trans
  rely_of_guar i _ _ _ hij h := h i hij

/-- The steps that do not go wrong. A commit that stores a new address finds room, and another
address if the new one is not the default. An address that is the default when it is removed was so
when the call read it, or is the last one. A `save` does not take the flag from a row that has got
it in the meantime, and one that is to give the flag finds the row as its `SELECT` did. And the row
that `setDefaultShippingAddress` has failed to update is not back when it is read again. -/
def Guarded : Allowed Book Cmd
  | i, b, .commit => ∀ r ∈ b.pendingOf i, r.id ∉ b.stored.map Address.id →
      b.stored.length < maxShippingAddressesPerUser ∧ (r.isDefault = false → b.stored ≠ [])
  | _, b, .remove row => ∀ r ∈ b.stored, r.id = row.id → r.isDefault = true →
      row.isDefault = true ∨ b.stored.length = 1
  | i, b, .update id p => p.isDefault ≠ some false ∧
      (p.isDefault = some true → id ∈ (b.view i).map Address.id)
  | i, b, .insert a => ∀ id ∈ a.id, a.isDefault = true → id ∉ (b.view i).map Address.id
  | i, b, .findOne id => b.pendingOf i ≠ [] → id ∈ (b.view i).map Address.id →
      ∃ r ∈ b.pendingOf i, r.isDefault = true
  | _, _, _ => True

instance (i : ℕ) (b : Book) (c : Cmd) : Decidable (Guarded i b c) :=
  match c with
  | .commit => inferInstanceAs (Decidable (∀ r ∈ b.pendingOf i, r.id ∉ b.stored.map Address.id →
      b.stored.length < maxShippingAddressesPerUser ∧ (r.isDefault = false → b.stored ≠ [])))
  | .remove row => inferInstanceAs (Decidable (∀ r ∈ b.stored, r.id = row.id → r.isDefault = true →
      row.isDefault = true ∨ b.stored.length = 1))
  | .update id p => inferInstanceAs (Decidable (p.isDefault ≠ some false ∧
      (p.isDefault = some true → id ∈ (b.view i).map Address.id)))
  | .insert a => inferInstanceAs (Decidable (∀ id ∈ a.id, a.isDefault = true →
      id ∉ (b.view i).map Address.id))
  | .findOne id => inferInstanceAs (Decidable (b.pendingOf i ≠ [] →
      id ∈ (b.view i).map Address.id → ∃ r ∈ b.pendingOf i, r.isDefault = true))
  | .count | .findOldest | .reload _ | .clearDefault | .setDefault _ | .rollback => .isTrue trivial

section Discharge

variable {b u : Book} {i j : ℕ}

theorem rows_discharge (b : Book) (i : ℕ) : (b.discharge i).rows = b.rows := by
  unfold Book.discharge
  split_ifs <;> rfl

theorem stored_discharge (b : Book) (i : ℕ) : (b.discharge i).stored = b.stored :=
  congrArg Versions.stored (rows_discharge b i)

theorem sees_iff : (b.stored.isEmpty || b.stored.any Address.isDefault) = true ↔
    b.stored = [] ∨ HasDefault b.stored := by
  rw [Bool.or_eq_true, List.isEmpty_iff, List.any_eq_true, HasDefault]

theorem not_mem_discharge (h : b.stored = [] ∨ HasDefault b.stored) :
    i ∉ (b.discharge i).promoting := by
  rw [Book.discharge, if_pos (sees_iff.mpr h)]
  simp

theorem mem_of_mem_discharge (h : j ∈ (b.discharge i).promoting) : j ∈ b.promoting := by
  unfold Book.discharge at h
  split_ifs at h
  · exact (List.mem_filter.mp h).1
  · exact h

theorem keeps_discharge (b : Book) (hj : j ≠ i) : Keeps j b (b.discharge i) where
  frame := by
    rw [rows_discharge]
    exact Frame.refl _ j b.rows
  promoting := by
    unfold Book.discharge
    split_ifs
    · simp [hj]
    · rfl

theorem inv_discharge (h : Inv b) (i : ℕ) : Inv (b.discharge i) where
  sound := by
    rw [rows_discharge]
    exact h.sound
  limit := by
    rw [stored_discharge]
    exact h.limit
  duty := by
    rw [stored_discharge]
    by_cases hsees : b.stored = [] ∨ HasDefault b.stored
    · exact hsees.imp_right .inl
    · have hnot : ¬ (b.stored.isEmpty || b.stored.any Address.isDefault) = true :=
        fun hb => hsees (sees_iff.mp hb)
      rw [Book.discharge, if_neg hnot]
      exact h.duty

end Discharge

section Assertions

variable {b u : Book} {i : ℕ}

def Clean (i : ℕ) (b : Book) : Prop := b.pendingOf i = []

/-- The call has taken the flag from the row that has it stored, and written nothing else. -/
def Cleared (i : ℕ) (b : Book) : Prop :=
  ∀ r ∈ b.pendingOf i, r.isDefault = false ∧ moves Address.id Address.isDefault b.stored r = true

/-- Before a call saves a copy, or a new address: it may have cleared the default only if it is
about to set one. -/
structure SaveReady (i : ℕ) (isDefault : Bool) (b : Book) : Prop where
  cleared : Cleared i b
  clean : isDefault = false → Clean i b
  promoting : i ∈ b.promoting → Clean i b ∧ isDefault = true

/-- What a transaction has to have done before it commits. -/
structure Complete (i : ℕ) (b : Book) : Prop where
  oneNew : ∀ r ∈ b.pendingOf i, ∀ r' ∈ b.pendingOf i,
    r.id ∉ b.stored.map Address.id → r'.id ∉ b.stored.map Address.id → r = r'
  moved : touches Address.id Address.isDefault i b.rows = true → HasDefault (b.pendingOf i)
  promoted : i ∈ b.promoting → HasDefault (b.pendingOf i)

structure Idle (i : ℕ) (b : Book) : Prop where
  clean : Clean i b
  promoting : i ∉ b.promoting

theorem Keeps.idle (h : Keeps i b u) (hb : Idle i b) : Idle i u :=
  ⟨h.frame.pending.trans hb.clean, fun hi => hb.promoting (h.promoting.mp hi)⟩

theorem Keeps.clean (h : Keeps i b u) (hb : Clean i b) : Clean i u := h.frame.pending.trans hb

theorem Keeps.cleared (h : Keeps i b u) (hb : Cleared i b) : Cleared i u := by
  intro r hr
  have hpending : u.pendingOf i = b.pendingOf i := h.frame.pending
  have hr' : r ∈ b.pendingOf i := hpending ▸ hr
  obtain ⟨hflag, hmoves⟩ := hb r hr'
  exact ⟨hflag, (h.frame.moves_eq hr').trans hmoves⟩

theorem Keeps.saveReady {d : Bool} (h : Keeps i b u) (hb : SaveReady i d b) : SaveReady i d u where
  cleared := h.cleared hb.cleared
  clean hd := h.clean (hb.clean hd)
  promoting hi := by
    obtain ⟨hclean, hd⟩ := hb.promoting (h.promoting.mp hi)
    exact ⟨h.clean hclean, hd⟩

theorem Keeps.complete (h : Keeps i b u) (hb : Complete i b) : Complete i u := by
  have hids : ∀ r ∈ b.pendingOf i, r.id ∉ u.stored.map Address.id → r.id ∉ b.stored.map Address.id := by
    intro r hr hnot hmem
    obtain ⟨x, hx, hkey⟩ := List.mem_map.mp hmem
    exact hnot (List.mem_map.mpr ⟨x, (h.frame.stored r hr x hkey).mpr hx, hkey⟩)
  have hpending : u.pendingOf i = b.pendingOf i := h.frame.pending
  refine ⟨?_, ?_, ?_⟩
  · intro r hr r' hr' hnew hnew'
    rw [hpending] at hr hr'
    exact hb.oneNew r hr r' hr' (hids r hr hnew) (hids r' hr' hnew')
  · intro htouch
    rw [hpending]
    exact hb.moved (h.frame.touches_eq ▸ htouch)
  · intro hi
    rw [hpending]
    exact hb.promoted (h.promoting.mp hi)

/-- What a call knows after one of its steps, it knows after the record of promotions is brought up
to date. -/
theorem Complete.discharge (h : Complete i b) : Complete i (b.discharge i) := by
  have hrows := rows_discharge b i
  refine ⟨?_, ?_, ?_⟩
  · rw [Book.pendingOf, Book.stored, hrows]
    exact h.oneNew
  · rw [Book.pendingOf, hrows]
    exact h.moved
  · intro hi
    rw [Book.pendingOf, hrows]
    exact h.promoted (mem_of_mem_discharge hi)

theorem SaveReady.discharge {d : Bool} (h : SaveReady i d b) : SaveReady i d (b.discharge i) := by
  have hrows := rows_discharge b i
  refine ⟨?_, ?_, ?_⟩
  · rw [Cleared, Book.pendingOf, Book.stored, hrows]
    exact h.cleared
  · rw [Clean, Book.pendingOf, hrows]
    exact h.clean
  · intro hi
    rw [Clean, Book.pendingOf, hrows]
    exact h.promoting (mem_of_mem_discharge hi)

theorem Idle.saveReady (h : Idle i b) (d : Bool) : SaveReady i d b := by
  refine ⟨?_, fun _ => h.clean, fun hi => absurd hi h.promoting⟩
  intro r hr
  rw [h.clean] at hr
  cases hr

theorem Idle.complete (h : Idle i b) : Complete i b := by
  refine ⟨?_, ?_, fun hi => absurd hi h.promoting⟩
  · intro r hr
    rw [h.clean] at hr
    cases hr
  · intro htouch
    obtain ⟨r, hr, -⟩ := touches_iff.mp htouch
    have hclean : b.rows.pendingOf i = [] := h.clean
    rw [hclean] at hr
    cases hr

end Assertions

section Steps

variable {b u : Book} {i : ℕ} {r : Address}

theorem view_of_clean (h : Clean i b) : b.view i = b.stored := view_of_pendingOf_eq_nil h

theorem keeps_of_rows {rows : Versions Address} {j : ℕ} (h : Frame Address.id j b.rows rows) :
    Keeps j b { b with rows := rows } := ⟨h, Iff.rfl⟩

/-- Writing a version changes no stored row. -/
theorem inv_rows {rows : Versions Address} (h : Inv b)
    (hsound : Sound Address.id Address.isDefault rows) (hstored : rows.stored = b.stored) :
    Inv { b with rows := rows } where
  sound := hsound
  limit := by
    show rows.stored.length ≤ _
    rw [hstored]
    exact h.limit
  duty := by
    show rows.stored = [] ∨ HasDefault rows.stored ∨ b.promoting ≠ []
    rw [hstored]
    exact h.duty

/-- A transaction that has given an address the flag is complete. -/
theorem complete_write_default (h : Cleared i b) (hr : r.isDefault = true) :
    Complete i { b with rows := b.rows.write Address.id i r } := by
  have hnew : r ∈ (b.rows.write Address.id i r).pendingOf i := mem_pendingOf_write.mpr (.inl rfl)
  have hold : ∀ x ∈ (b.rows.write Address.id i r).pendingOf i,
      x.id ∉ b.stored.map Address.id → x = r := by
    intro x hx hid
    rcases mem_pendingOf_write.mp hx with heq | ⟨hx, -⟩
    · exact heq
    · obtain ⟨hflag, hmoves⟩ := h x hx
      rw [moves, hflag, bne_iff_ne, ne_comm, ne_eq, Bool.not_eq_false, flagged_iff] at hmoves
      obtain ⟨y, hy, hkey, -⟩ := hmoves
      exact absurd (List.mem_map.mpr ⟨y, hy, hkey⟩) hid
  refine ⟨?_, fun _ => ⟨r, hnew, hr⟩, fun _ => ⟨r, hnew, hr⟩⟩
  intro x hx y hy hidx hidy
  rw [hold x hx hidx, hold y hy hidy]

/-- A version that changes nobody's flag may be all that a transaction writes. -/
theorem complete_write_still (h : Idle i b)
    (hr : moves Address.id Address.isDefault b.stored r = false) :
    Complete i { b with rows := b.rows.write Address.id i r } := by
  have hpending : (b.rows.write Address.id i r).pendingOf i = [r] := by
    have hclean : b.rows.pendingOf i = [] := h.clean
    rw [pendingOf_write_self, hclean]
    rfl
  refine ⟨?_, ?_, fun hi => absurd hi h.promoting⟩
  · intro x hx y hy _ _
    have hx' : x ∈ [r] := hpending ▸ hx
    have hy' : y ∈ [r] := hpending ▸ hy
    rw [List.mem_singleton.mp hx', List.mem_singleton.mp hy']
  · intro htouch
    obtain ⟨x, hx, hmoves⟩ := touches_iff.mp htouch
    rw [hpending, List.mem_singleton] at hx
    rw [hx] at hmoves
    exact absurd (hr.symm.trans hmoves) Bool.false_ne_true

/-- What `put` does to the book. -/
theorem put_spec (h : Inv b) {res : Except Fault Unit} (hput : b.put i r = some (res, u)) :
    Inv u ∧ (∀ j, j ≠ i → Keeps j b u) ∧
      (res = .ok () ∧ u = { b with rows := b.rows.write Address.id i r } ∨
        res = .error .oneDefault ∧ u = b ∧ HasDefault (b.view i)) := by
  rw [Book.put, Option.map_eq_some_iff] at hput
  obtain ⟨⟨done, rows⟩, hrows, heq⟩ := hput
  obtain ⟨hsound, hdone, hrefused⟩ := h.sound.put hrows
  cases done with
  | true =>
    obtain ⟨rfl, rfl⟩ := Prod.mk.inj heq
    rw [hdone rfl] at hsound ⊢
    exact ⟨inv_rows h hsound rfl, fun j hj => keeps_of_rows (frame_write hj), .inl ⟨rfl, rfl⟩⟩
  | false =>
    obtain ⟨rfl, rfl⟩ := Prod.mk.inj heq
    obtain ⟨hsame, x, hx, hflag⟩ := hrefused rfl
    rw [hsame]
    exact ⟨h, fun j _ => Keeps.refl j b, .inr ⟨rfl, rfl, x, hx, hflag⟩⟩

theorem add_spec (h : Inv b) {res : Except Fault Address} (hadd : b.add i r = some (res, u)) :
    Inv u ∧ (∀ j, j ≠ i → Keeps j b u) ∧
      (res = .error .primaryKey ∧ u = b ∧ r.id ∈ (b.view i).map Address.id ∨
        r.id ∉ (b.view i).map Address.id ∧
          (res = .ok r ∧ u = { b with rows := b.rows.write Address.id i r } ∨
            res = .error .oneDefault ∧ u = b ∧ HasDefault (b.view i))) := by
  rw [Book.add] at hadd
  by_cases hlock : b.rows.locked Address.id i r.id = true
  · rw [if_pos hlock] at hadd
    cases hadd
  rw [if_neg hlock] at hadd
  by_cases hmem : r.id ∈ (b.view i).map Address.id
  · rw [if_pos hmem] at hadd
    cases hadd
    exact ⟨h, fun j _ => Keeps.refl j b, .inl ⟨rfl, rfl, hmem⟩⟩
  · rw [if_neg hmem, Option.map_eq_some_iff] at hadd
    obtain ⟨⟨res', u'⟩, hput, heq⟩ := hadd
    obtain ⟨hinv, hkeeps, ⟨rfl, hwrite⟩ | ⟨rfl, hsame, hview⟩⟩ := put_spec h hput
    · cases heq
      exact ⟨hinv, hkeeps, .inr ⟨hmem, .inl ⟨rfl, hwrite⟩⟩⟩
    · cases heq
      exact ⟨hinv, hkeeps, .inr ⟨hmem, .inr ⟨rfl, hsame, hview⟩⟩⟩

theorem mem_of_find {id : JsStr} {rows : List Address} (h : find Address.id id rows = some r) :
    r ∈ rows ∧ r.id = id := by
  have hid := List.find?_some h
  rw [decide_eq_true_eq] at hid
  exact ⟨List.mem_of_find?_eq_some h, hid⟩

theorem modify_spec (h : Inv b) {id : JsStr} {p : Patch} {res : Except Fault Unit}
    (hmodify : b.modify i id p = some (res, u)) :
    Inv u ∧ (∀ j, j ≠ i → Keeps j b u) ∧
      (res = .ok () ∧ u = b ∧ id ∉ (b.view i).map Address.id ∨
        res = .error .oneDefault ∧ u = b ∧ HasDefault (b.view i) ∨
        ∃ r ∈ b.view i, res = .ok () ∧
          u = { b with rows := b.rows.write Address.id i (p.apply r) }) := by
  rw [Book.modify] at hmodify
  cases hfind : find Address.id id (b.view i) with
  | none =>
    rw [hfind] at hmodify
    cases hmodify
    refine ⟨h, fun j _ => Keeps.refl j b, .inl ⟨rfl, rfl, ?_⟩⟩
    intro hmem
    obtain ⟨r, hr, hid⟩ := List.mem_map.mp hmem
    have hnot := List.find?_eq_none.mp hfind r hr
    exact hnot (decide_eq_true hid)
  | some r =>
    rw [hfind] at hmodify
    obtain ⟨hinv, hkeeps, ⟨hres, hwrite⟩ | hrefused⟩ := put_spec h hmodify
    · exact ⟨hinv, hkeeps, .inr (.inr ⟨r, (mem_of_find hfind).1, hres, hwrite⟩)⟩
    · exact ⟨hinv, hkeeps, .inr (.inl hrefused)⟩

theorem moves_of_stored (h : Inv b) {x : Address} (hr : r ∈ b.stored) (hid : x.id = r.id)
    (hflag : x.isDefault = r.isDefault) :
    moves Address.id Address.isDefault b.stored x = false := by
  have hflagged : flagged Address.id Address.isDefault x.id b.stored = r.isDefault := by
    rw [Bool.eq_iff_iff, flagged_iff]
    constructor
    · rintro ⟨y, hy, hkey, hdefault⟩
      rw [← List.inj_on_of_nodup_map h.sound.storedKeys hy hr (hkey.trans hid)]
      exact hdefault
    · intro hdefault
      exact ⟨r, hr, hid.symm, hdefault⟩
  rw [moves, hflagged, hflag]
  exact bne_self_eq_false _

theorem clear_rows (i : ℕ) (L : List Address) (v rows : Versions Address)
    (hsound : Sound Address.id Address.isDefault rows) (hstored : rows.stored = v.stored)
    (hframe : ∀ j, j ≠ i → Frame Address.id j v rows)
    (hcleared : ∀ r ∈ rows.pendingOf i, r.isDefault = false ∧
      moves Address.id Address.isDefault v.stored r = true)
    (hL : ∀ r ∈ L, r ∈ v.stored ∧ r.isDefault = true ∧ locked Address.id i r.id v = false) :
    let done := L.foldl (fun rows r => rows.write Address.id i { r with isDefault := false }) rows
    Sound Address.id Address.isDefault done ∧ done.stored = v.stored ∧
      (∀ j, j ≠ i → Frame Address.id j v done) ∧
      ∀ r ∈ done.pendingOf i, r.isDefault = false ∧
        moves Address.id Address.isDefault v.stored r = true := by
  induction L generalizing rows with
  | nil => exact ⟨hsound, hstored, hframe, hcleared⟩
  | cons r L ih =>
    obtain ⟨hr, hflag, hlock⟩ := hL r (.head _)
    have hfree : locked Address.id i r.id rows = false := by
      rw [locked_eq_false_iff] at hlock ⊢
      intro j hj x hx
      rw [(hframe j hj).pending] at hx
      exact hlock j hj x hx
    refine ih _ (hsound.write_unflagged hfree rfl) hstored ?_ ?_ fun x hx => hL x (.tail _ hx)
    · intro j hj
      exact (hframe j hj).trans (frame_write hj)
    · intro x hx
      rcases mem_pendingOf_write.mp hx with rfl | ⟨hx, -⟩
      · have hstill : flagged Address.id Address.isDefault r.id v.stored = true :=
          flagged_iff.mpr ⟨r, hr, rfl, hflag⟩
        refine ⟨rfl, ?_⟩
        rw [moves, hstill]
        rfl
      · exact hcleared x hx

theorem clear_spec (h : Inv b) (hclean : Clean i b)
    (hlock : (((b.view i).filter Address.isDefault).any
      fun r => b.rows.locked Address.id i r.id) = false) :
    Inv (b.clear i) ∧ (∀ j, j ≠ i → Keeps j b (b.clear i)) ∧ Cleared i (b.clear i) := by
  have hL : ∀ r ∈ (b.view i).filter Address.isDefault,
      r ∈ b.rows.stored ∧ r.isDefault = true ∧ locked Address.id i r.id b.rows = false := by
    intro r hr
    have hfree := List.any_eq_false.mp hlock r hr
    rw [view_of_clean hclean, List.mem_filter] at hr
    exact ⟨hr.1, hr.2, Bool.not_eq_true _ ▸ hfree⟩
  have hnone : ∀ r ∈ b.rows.pendingOf i, r.isDefault = false ∧
      moves Address.id Address.isDefault b.rows.stored r = true := by
    intro r hr
    have hnil : b.rows.pendingOf i = [] := hclean
    rw [hnil] at hr
    cases hr
  obtain ⟨hsound, hstored, hframe, hcleared⟩ := clear_rows i _ b.rows b.rows h.sound rfl
    (fun j _ => Frame.refl _ j b.rows) hnone hL
  refine ⟨inv_rows h hsound hstored, fun j hj => keeps_of_rows (hframe j hj), ?_⟩
  intro r hr
  obtain ⟨hflag, hmoves⟩ := hcleared r hr
  refine ⟨hflag, ?_⟩
  show moves Address.id Address.isDefault (b.clear i).rows.stored r = true
  rw [Book.clear, hstored]
  exact hmoves

theorem remove_spec (h : Inv b) (hclean : Clean i b) {id : JsStr}
    (hlock : b.rows.locked Address.id i id = false) :
    Inv (b.remove i id) ∧ (∀ j, j ≠ i → Keeps j b (b.remove i id)) ∧ Clean i (b.remove i id) := by
  have hfree : Free Address.id id b.rows := by
    intro j r hr
    by_cases hj : j = i
    · have hnil : b.rows.pendingOf i = [] := hclean
      rw [hj, hnil] at hr
      cases hr
    · exact locked_eq_false_iff.mp hlock j hj r hr
  refine ⟨⟨h.sound.delete hfree, ?_, ?_⟩, ?_, hclean⟩
  · exact (List.length_filter_le _ _).trans h.limit
  · by_cases hflag : flagged Address.id Address.isDefault id b.stored = true
    · right
      right
      rw [Book.remove, if_pos hflag]
      exact List.cons_ne_nil _ _
    · have hpromoting : (b.remove i id).promoting = b.promoting := by
        rw [Book.remove, if_neg hflag]
      rw [hpromoting]
      rcases h.duty with hnil | ⟨r, hr, hdefault⟩ | hne
      · left
        show b.stored.filter _ = []
        rw [hnil]
        rfl
      · right
        left
        refine ⟨r, List.mem_filter.mpr ⟨hr, ?_⟩, hdefault⟩
        rw [decide_eq_true_eq]
        intro heq
        exact hflag (flagged_iff.mpr ⟨r, hr, heq, hdefault⟩)
      · exact .inr (.inr hne)
  · intro j hj
    refine ⟨frame_delete hfree, ?_⟩
    show j ∈ (if _ then _ else _) ↔ _
    split_ifs
    · simp [hj]
    · rfl

theorem rollback_spec (h : Inv b) :
    Inv { b with rows := b.rows.rollback i } ∧
      (∀ j, j ≠ i → Keeps j b { b with rows := b.rows.rollback i }) ∧
      Clean i { b with rows := b.rows.rollback i } :=
  ⟨inv_rows h (h.sound.rollback i) rfl, fun _ hj => keeps_of_rows (frame_rollback hj),
    pendingOf_rollback b.rows i⟩

/-- The ids of the view are stored ids, and at most one new one. -/
theorem length_view_le (h : Inv b) (hcomplete : Complete i b)
    (hroom : ∀ r ∈ b.pendingOf i, r.id ∉ b.stored.map Address.id →
      b.stored.length < maxShippingAddressesPerUser) :
    (b.view i).length ≤ maxShippingAddressesPerUser := by
  have hnodup : ((b.view i).map Address.id).Nodup := nodup_view h.sound i
  by_cases hnew : ∃ r ∈ b.pendingOf i, r.id ∉ b.stored.map Address.id
  · obtain ⟨r, hr, hid⟩ := hnew
    have hsub : (b.view i).map Address.id ⊆ r.id :: b.stored.map Address.id := by
      intro k hk
      obtain ⟨x, hx, rfl⟩ := List.mem_map.mp hk
      by_cases hold : x.id ∈ b.stored.map Address.id
      · exact List.mem_cons_of_mem _ hold
      · rcases mem_view.mp hx with ⟨hstored, -⟩ | hpending
        · exact absurd (List.mem_map_of_mem hstored) hold
        · rw [hcomplete.oneNew x hpending r hr hold hid]
          exact List.mem_cons_self
    have hle := (List.Nodup.subperm hnodup hsub).length_le
    rw [List.length_cons, List.length_map, List.length_map] at hle
    have hlt := hroom r hr hid
    omega
  · push Not at hnew
    have hsub : (b.view i).map Address.id ⊆ b.stored.map Address.id := by
      intro k hk
      obtain ⟨x, hx, rfl⟩ := List.mem_map.mp hk
      rcases mem_view.mp hx with ⟨hstored, -⟩ | hpending
      · exact List.mem_map_of_mem hstored
      · exact hnew x hpending
    have hle := (List.Nodup.subperm hnodup hsub).length_le
    rw [List.length_map, List.length_map] at hle
    exact hle.trans h.limit

/-- A transaction that has moved no flag shows a default where one is stored. -/
theorem hasDefault_view (hquiet : touches Address.id Address.isDefault i b.rows = false)
    (h : HasDefault b.stored) : HasDefault (b.view i) := by
  obtain ⟨r, hr, hdefault⟩ := h
  by_cases hfree : ∀ w ∈ b.pendingOf i, w.id ≠ r.id
  · exact ⟨r, mem_view_of_stored hr hfree, hdefault⟩
  · push Not at hfree
    obtain ⟨w, hw, hid⟩ := hfree
    refine ⟨w, mem_view_of_pending hw, ?_⟩
    by_contra hflag
    rw [Bool.not_eq_true] at hflag
    have hstored : flagged Address.id Address.isDefault w.id b.rows.stored = true :=
      flagged_iff.mpr ⟨r, hr, hid.symm, hdefault⟩
    have hmoves : moves Address.id Address.isDefault b.rows.stored w = true := by
      rw [moves, hflag, hstored]
      rfl
    have htouch := touches_iff.mpr ⟨w, hw, hmoves⟩
    rw [hquiet] at htouch
    cases htouch

theorem commit_spec (h : Inv b) (hcomplete : Complete i b) (hok : Guarded i b .commit) :
    Inv { b with rows := b.rows.commit Address.id i } ∧
      (∀ j, j ≠ i → Keeps j b { b with rows := b.rows.commit Address.id i }) ∧
      Idle i (({ b with rows := b.rows.commit Address.id i } : Book).discharge i) := by
  have hlimit := length_view_le h hcomplete fun r hr hid => (hok r hr hid).1
  have hpending : ∀ {r}, r ∈ b.pendingOf i → r ∈ b.view i := mem_view_of_pending
  have hduty : b.view i = [] ∨ HasDefault (b.view i) ∨ b.promoting ≠ [] := by
    cases htouch : touches Address.id Address.isDefault i b.rows with
    | true =>
      obtain ⟨r, hr, hdefault⟩ := hcomplete.moved htouch
      exact .inr (.inl ⟨r, hpending hr, hdefault⟩)
    | false =>
      rcases h.duty with hnil | hdefault | hne
      · -- the book was empty: what is new is the default
        cases hview : b.view i with
        | nil => exact .inl rfl
        | cons r rest =>
          have hr : r ∈ b.view i := hview ▸ List.mem_cons_self
          rcases mem_view.mp hr with ⟨hstored, -⟩ | hr
          · have hmem : r ∈ b.stored := hstored
            rw [hnil] at hmem
            cases hmem
          · have hid : r.id ∉ b.stored.map Address.id := by
              rw [hnil]
              exact List.not_mem_nil
            have hdefault : r.isDefault = true := by
              by_contra hflag
              exact (hok r hr hid).2 (Bool.not_eq_true _ ▸ hflag) hnil
            exact .inr (.inl ⟨r, List.mem_cons_self, hdefault⟩)
      · exact .inr (.inl (hasDefault_view htouch hdefault))
      · exact .inr (.inr hne)
  refine ⟨⟨h.sound.commit i, hlimit, hduty⟩, ?_, ?_, ?_⟩
  · intro j hj
    exact keeps_of_rows (frame_commit h.sound hj)
  · rw [Clean, Book.pendingOf, rows_discharge]
    exact pendingOf_commit b.rows i
  · intro hi
    have hbefore : i ∈ ({ b with rows := b.rows.commit Address.id i } : Book).promoting :=
      mem_of_mem_discharge hi
    obtain ⟨r, hr, hdefault⟩ := hcomplete.promoted hbefore
    have hnow : HasDefault ({ b with rows := b.rows.commit Address.id i } : Book).stored :=
      ⟨r, hpending hr, hdefault⟩
    exact not_mem_discharge (.inr hnow) hi

end Steps

section Rules

variable {α β : Type} {b : Book} {i : ℕ} {isDefault : Bool}

/-- `wp` of an address book call. -/
abbrev bwp (i : ℕ) (p : M α) (Q : Except Fault α → Book → Prop) (b : Book) : Prop :=
  wp Book.handler Guarded contract i p Q b

theorem bwp_perform {c : Cmd} {Q : Except Fault (Res c) → Book → Prop}
    (h : ∀ t, Keeps i b t → Inv t → Guarded i t c → ∀ x r u, t.exec i x c = some (r, u) →
      Inv u ∧ (∀ j, j ≠ i → Keeps j t u) ∧ Q (.ok r) (u.discharge i)) :
    bwp i (perform c) Q b := by
  intro t hbt ht hok x r u hu
  rw [Book.handler, Option.map_eq_some_iff] at hu
  obtain ⟨⟨r', u'⟩, hexec, heq⟩ := hu
  cases heq
  obtain ⟨hinv, hkeeps, hQ⟩ := h t hbt ht hok x _ u' hexec
  exact ⟨inv_discharge hinv i, fun j hj => (hkeeps j hj).trans (keeps_discharge u' hj), hQ⟩

/-- A statement that only reads. -/
theorem bwp_read {c : Cmd} {Q : Except Fault (Res c) → Book → Prop} (answer : Book → Res c)
    (hread : ∀ t x, Book.exec i t x c = some (answer t, t))
    (h : ∀ t, Keeps i b t → Inv t → Guarded i t c → Q (.ok (answer t)) (t.discharge i)) :
    bwp i (perform c) Q b := by
  apply bwp_perform
  intro t hbt ht hok x r u hu
  rw [hread] at hu
  cases hu
  exact ⟨ht, fun j _ => Keeps.refl j t, h t hbt ht hok⟩

theorem bwp_bind {p : M α} {f : α → M β} {Q : Except Fault β → Book → Prop}
    (h : bwp i p (fun r t => match r with
      | .ok a => bwp i (f a) Q t
      | .error e => Q (.error e) t) b) : bwp i (p >>= f) Q b := by
  refine wp_bind (wp_mono ?_ h)
  intro r t hr
  cases r with
  | ok a => exact hr
  | error e => exact hr

def BodyPost (i : ℕ) : Except Fault α → Book → Prop
  | .ok _, b => Complete i b
  | .error _, b => i ∉ b.promoting

theorem bwp_transaction {body : M α} (h : bwp i body (BodyPost i) b) :
    bwp i (transaction body) (fun _ t => Idle i t) b := by
  apply wp_settle
  refine wp_mono ?_ h
  intro r t hr
  cases r with
  | ok a =>
    apply wp_settle
    apply bwp_perform
    intro u htu hu hok x r w hw
    cases hw
    obtain ⟨hinv, hkeeps, hidle⟩ := commit_spec hu (htu.complete hr) hok
    exact ⟨hinv, hkeeps, hidle⟩
  | error e =>
    apply wp_settle
    apply bwp_perform
    intro u htu hu _ x r w hw
    cases hw
    obtain ⟨hinv, hkeeps, hclean⟩ := rollback_spec (i := i) hu
    refine ⟨hinv, hkeeps, ?_, ?_⟩
    · rw [Clean, Book.pendingOf, rows_discharge]
      exact hclean
    · intro hi
      have hbefore : i ∈ ({ u with rows := u.rows.rollback i } : Book).promoting :=
        mem_of_mem_discharge hi
      exact hr (htu.promoting.mp hbefore)

theorem bwp_attempt {p : M (Except Fault α)} {Q : Except Fault α → Book → Prop}
    (h : bwp i p (fun r t => match r with
      | .ok (.ok a) => Q (.ok a) t
      | .ok (.error e) => Q (.error e) t
      | .error e => Q (.error e) t) b) : bwp i (attempt p) Q b := by
  apply wp_settle
  refine wp_mono ?_ h
  intro r t hr
  cases r with
  | ok a =>
    cases a with
    | ok a => exact hr
    | error e => exact hr
  | error e => exact hr

theorem bwp_throwIf {c : Bool} {e : Fault} {Q : Except Fault Unit → Book → Prop}
    (herr : c = true → Q (.error e) b) (hok : c = false → Q (.ok ()) b) :
    bwp i (Prog.throwIf c e) Q b := wp_throwIf herr hok

/-- A call that has promoted nothing yet and finds a default has nothing left to promote. -/
theorem not_promoting_of_view (hready : SaveReady i isDefault b) (hview : HasDefault (b.view i)) :
    i ∉ (b.discharge i).promoting := by
  intro hi
  obtain ⟨hclean, -⟩ := hready.promoting (mem_of_mem_discharge hi)
  rw [view_of_clean hclean] at hview
  exact not_mem_discharge (.inr hview) hi

/-- A call that is not about to set a default has none to promote. -/
theorem SaveReady.idle (hready : SaveReady i isDefault b) (hnot : isDefault = false) : Idle i b := by
  refine ⟨hready.clean hnot, ?_⟩
  intro hi
  rw [(hready.promoting hi).2] at hnot
  cases hnot

theorem complete_add {r : Address} (hready : SaveReady i isDefault b) (hflag : r.isDefault = isDefault)
    (hid : r.id ∉ (b.view i).map Address.id) :
    Complete i { b with rows := b.rows.write Address.id i r } := by
  cases hdefault : isDefault with
  | true => exact complete_write_default hready.cleared (hflag.trans hdefault)
  | false =>
    have hidle := hready.idle hdefault
    rw [view_of_clean hidle.clean] at hid
    apply complete_write_still hidle
    have hnone : flagged Address.id Address.isDefault r.id b.stored = false := by
      by_contra hne
      rw [Bool.not_eq_false, flagged_iff] at hne
      obtain ⟨y, hy, hkey, -⟩ := hne
      exact hid (List.mem_map.mpr ⟨y, hy, hkey⟩)
    rw [moves, hflag, hdefault, hnone]
    rfl

theorem bwp_insert {a : NewAddress} (hready : SaveReady i a.isDefault b)
    (hpromoting : i ∈ b.promoting → a.id ≠ none) :
    bwp i (attempt (perform (.insert a))) (BodyPost i) b := by
  apply bwp_attempt
  apply bwp_perform
  intro t hbt ht hok x r u hu
  have hnow := hbt.saveReady hready
  obtain ⟨hinv, hkeeps, ⟨rfl, rfl, hmem⟩ | ⟨hmem, ⟨rfl, rfl⟩ | ⟨rfl, rfl, hview⟩⟩⟩ := add_spec ht hu
  · refine ⟨hinv, hkeeps, ?_⟩
    intro hi
    have hi' := mem_of_mem_discharge hi
    obtain ⟨-, hdefault⟩ := hnow.promoting hi'
    obtain ⟨id, hsome⟩ := Option.ne_none_iff_exists'.mp (hpromoting (hbt.promoting.mp hi'))
    have hid : id ∈ (u.view i).map Address.id := by
      rw [hsome] at hmem
      exact hmem
    exact hok id hsome hdefault hid
  · exact ⟨hinv, hkeeps, Complete.discharge (complete_add hnow rfl hmem)⟩
  · exact ⟨hinv, hkeeps, not_promoting_of_view hnow hview⟩

theorem Idle.discharge (h : Idle i b) : Idle i (b.discharge i) where
  clean := by
    rw [Clean, Book.pendingOf, rows_discharge]
    exact h.clean
  promoting hi := h.promoting (mem_of_mem_discharge hi)

/-- The `UPDATE` of a `save`: it sets the flag, or leaves it alone when the call has cleared none. -/
theorem bwp_update {id : JsStr} {p : Patch} (hready : SaveReady i isDefault b)
    (hkeep : p.isDefault = none → Idle i b) :
    bwp i (attempt (perform (.update id p))) (BodyPost i) b := by
  apply bwp_attempt
  apply bwp_perform
  intro t hbt ht hok x r u hu
  have hnow := hbt.saveReady hready
  obtain ⟨hinv, hkeeps, hcases⟩ := modify_spec ht hu
  rcases hcases with ⟨rfl, rfl, hmissing⟩ | ⟨rfl, rfl, hview⟩ | ⟨row, hrow, rfl, rfl⟩
  · refine ⟨hinv, hkeeps, Complete.discharge ?_⟩
    cases hflag : p.isDefault with
    | none => exact (hbt.idle (hkeep hflag)).complete
    | some c =>
      cases c with
      | false => exact absurd hflag hok.1
      | true => exact absurd (hok.2 hflag) hmissing
  · exact ⟨hinv, hkeeps, not_promoting_of_view hnow hview⟩
  · refine ⟨hinv, hkeeps, Complete.discharge ?_⟩
    cases hflag : p.isDefault with
    | none =>
      have hidle := hbt.idle (hkeep hflag)
      rw [view_of_clean hidle.clean] at hrow
      apply complete_write_still hidle
      have hid : (p.apply row).id = row.id := rfl
      apply moves_of_stored ht hrow hid
      rw [Patch.apply, hflag, Option.getD_none]
    | some c =>
      cases c with
      | false => exact absurd hflag hok.1
      | true =>
        apply complete_write_default hnow.cleared
        rw [Patch.apply, hflag, Option.getD_some]

theorem bwp_saveOver {copy : Address} {found : Option Address}
    (hready : SaveReady i copy.isDefault b)
    (hsame : ∀ row, found = some row → row.isDefault = copy.isDefault → Idle i b) :
    bwp i (saveOver copy found) (BodyPost i) b := by
  cases found with
  | none => exact bwp_insert hready fun _ => Option.some_ne_none _
  | some row =>
    have hflag : (diff copy row).isDefault = none → Idle i b := by
      intro hnone
      apply hsame row rfl
      by_contra hne
      rw [diff, if_neg (Ne.symm hne)] at hnone
      cases hnone
    rw [saveOver]
    by_cases hempty : (diff copy row).isEmpty = true
    · rw [if_pos hempty]
      rw [Patch.isEmpty, Bool.and_eq_true, Option.isNone_iff_eq_none] at hempty
      exact (hflag hempty.2).complete
    · rw [if_neg hempty]
      apply bwp_bind
      refine wp_mono ?_ (bwp_update hready hflag)
      intro r t hr
      cases r with
      | ok a => exact hr
      | error e => exact hr

theorem bwp_save {copy : Address} (hready : SaveReady i copy.isDefault b) :
    bwp i (save copy) (BodyPost i) b := by
  apply bwp_bind
  apply bwp_read (fun t => find Address.id copy.id (t.view i)) (fun _ _ => rfl)
  intro t hbt ht _
  have hnow := hbt.saveReady hready
  apply bwp_saveOver hnow.discharge
  intro row hrow hflag
  obtain ⟨hview, -⟩ := mem_of_find hrow
  cases hdefault : copy.isDefault with
  | false => exact (hnow.idle hdefault).discharge
  | true =>
    have hrowDefault : row.isDefault = true := hflag.trans hdefault
    have hclean : Clean i t := by
      -- had the call cleared a default, that one and this one would both be stored
      by_contra hne
      obtain ⟨w, hw⟩ := List.exists_mem_of_ne_nil _ hne
      obtain ⟨hwflag, hwmoves⟩ := hnow.cleared w hw
      rw [moves, hwflag, bne_iff_ne, ne_comm, ne_eq, Bool.not_eq_false, flagged_iff] at hwmoves
      obtain ⟨y, hy, hkey, hyflag⟩ := hwmoves
      rcases mem_view.mp hview with ⟨hstored, hfree⟩ | hpending
      · have hsame := ht.sound.stored_one y hy row hstored hyflag hrowDefault
        exact hfree w hw (hkey.symm.trans hsame)
      · rw [(hnow.cleared row hpending).1] at hrowDefault
        cases hrowDefault
    refine ⟨?_, not_promoting_of_view hnow ⟨row, hview, hrowDefault⟩⟩
    rw [Clean, Book.pendingOf, rows_discharge]
    exact hclean

theorem bwp_clear {Q : Except Fault Unit → Book → Prop} (hidle : Idle i b)
    (h : ∀ t, SaveReady i true t → i ∉ t.promoting → Q (.ok ()) t) :
    bwp i (perform .clearDefault) Q b := by
  apply bwp_perform
  intro t hbt ht _ x r u hu
  have hnow := hbt.idle hidle
  simp only [Book.exec] at hu
  by_cases hmissed : x.missed = true
  · rw [if_pos hmissed] at hu
    cases hu
    refine ⟨ht, fun j _ => Keeps.refl j t, ?_⟩
    exact h _ (hnow.discharge.saveReady true) hnow.discharge.promoting
  rw [if_neg hmissed] at hu
  by_cases hlock : (((t.view i).filter Address.isDefault).any
      fun r => t.rows.locked Address.id i r.id) = true
  · rw [if_pos hlock] at hu
    cases hu
  · rw [if_neg hlock] at hu
    rw [Bool.not_eq_true] at hlock
    cases hu
    obtain ⟨hinv, hkeeps, hcleared⟩ := clear_spec ht hnow.clean hlock
    have hready : SaveReady i true (t.clear i) :=
      ⟨hcleared, fun hfalse => absurd hfalse.symm Bool.false_ne_true,
        fun hi => absurd hi hnow.promoting⟩
    refine ⟨hinv, hkeeps, h _ hready.discharge ?_⟩
    intro hi
    have hbefore : i ∈ (t.clear i).promoting := mem_of_mem_discharge hi
    exact hnow.promoting hbefore

theorem bwp_clearIf {makeDefault : Bool} {Q : Except Fault Unit → Book → Prop} (hidle : Idle i b)
    (h : ∀ t, SaveReady i makeDefault t → i ∉ t.promoting → Q (.ok ()) t) :
    bwp i (clearIf makeDefault) Q b := by
  cases makeDefault with
  | false => exact h b (hidle.saveReady false) hidle.promoting
  | true => exact bwp_clear hidle h

end Rules

section Calls

variable {b : Book} {i : ℕ}

theorem bwp_create (hidle : Idle i b) (dto : CreateShippingAddressDto) :
    bwp i (createShippingAddress dto) (fun _ t => Idle i t) b := by
  apply bwp_transaction
  apply bwp_bind
  apply bwp_read (fun t => (t.view i).length) (fun _ _ => rfl)
  intro t hbt ht _
  have hnow := (hbt.idle hidle).discharge
  apply bwp_bind
  apply bwp_throwIf
  · exact fun _ => hnow.promoting
  · intro _
    apply bwp_bind
    apply bwp_clearIf hnow
    intro u hready hnot
    exact bwp_insert hready fun hi => absurd hi hnot

theorem bwp_update_call (hidle : Idle i b) (addressId : JsStr) (dto : UpdateShippingAddressDto) :
    bwp i (updateShippingAddress addressId dto) (fun _ t => Idle i t) b := by
  apply bwp_transaction
  apply bwp_bind
  apply bwp_read (fun t => find Address.id addressId (t.view i)) (fun _ _ => rfl)
  intro t hbt ht _
  have hnow := (hbt.idle hidle).discharge
  apply bwp_bind
  apply wp_orThrow
  · exact fun _ => hnow.promoting
  · intro row _
    apply bwp_bind
    apply bwp_clearIf hnow
    intro u hready hnot
    apply bwp_save
    cases hset : decide (dto.isDefault = some true) with
    | true =>
      rw [hset] at hready
      rw [updated, hset, Bool.true_or]
      exact hready
    | false =>
      rw [hset] at hready
      exact (hready.idle rfl).saveReady _

/-- `setDefaultShippingAddress` reads the row again: when its update has found none, it throws. -/
theorem bwp_reread {addressId : JsStr} (hnot : i ∉ b.promoting) (h : Complete i b ∨ Cleared i b) :
    bwp i (perform (.findOne addressId) >>= fun updated => Prog.orThrow notFound updated)
      (BodyPost i) b := by
  apply bwp_bind
  apply bwp_read (fun t => find Address.id addressId (t.view i)) (fun _ _ => rfl)
  intro t hbt ht hok
  have hnow : i ∉ t.promoting := fun hi => hnot (hbt.promoting.mp hi)
  apply wp_orThrow
  · exact fun _ hi => hnow (mem_of_mem_discharge hi)
  · intro row hrow
    obtain ⟨hmem, hid⟩ := mem_of_find hrow
    rcases h with hcomplete | hcleared
    · exact (hbt.complete hcomplete).discharge
    · have hclean : Clean i t := by
        by_contra hne
        obtain ⟨r, hr, hdefault⟩ := hok hne (List.mem_map.mpr ⟨row, hmem, hid⟩)
        rw [(hbt.cleared hcleared r hr).1] at hdefault
        cases hdefault
      have hidle : Idle i t := ⟨hclean, hnow⟩
      exact hidle.complete.discharge

theorem bwp_moveDefault (hidle : Idle i b) (addressId : JsStr) :
    bwp i (moveDefault addressId) (BodyPost i) b := by
  apply bwp_bind
  apply bwp_clear hidle
  intro t hready hnot
  apply bwp_bind
  apply bwp_attempt
  apply bwp_perform
  intro u htu hu _ x r w hw
  have hnow := htu.saveReady hready
  have hpromoting : i ∉ u.promoting := fun hi => hnot (htu.promoting.mp hi)
  obtain ⟨hinv, hkeeps, ⟨rfl, rfl, -⟩ | ⟨rfl, rfl, -⟩ | ⟨row, -, rfl, rfl⟩⟩ := modify_spec hu hw
  · refine ⟨hinv, hkeeps, bwp_reread ?_ (.inr hnow.discharge.cleared)⟩
    exact fun hi => hpromoting (mem_of_mem_discharge hi)
  · exact ⟨hinv, hkeeps, fun hi => hpromoting (mem_of_mem_discharge hi)⟩
  · refine ⟨hinv, hkeeps, bwp_reread ?_ (.inl (Complete.discharge ?_))⟩
    · intro hi
      have hbefore := mem_of_mem_discharge hi
      exact hpromoting hbefore
    · exact complete_write_default hnow.cleared rfl

theorem bwp_setDefault (hidle : Idle i b) (addressId : JsStr) :
    bwp i (setDefaultShippingAddress addressId) (fun _ t => Idle i t) b := by
  apply bwp_transaction
  apply bwp_bind
  apply bwp_read (fun t => find Address.id addressId (t.view i)) (fun _ _ => rfl)
  intro t hbt ht _
  have hnow := (hbt.idle hidle).discharge
  apply bwp_bind
  apply wp_orThrow
  · exact fun _ => hnow.promoting
  · intro row _
    show bwp i (if row.isDefault = true then pure row else moveDefault addressId) (BodyPost i) _
    by_cases hdefault : row.isDefault = true
    · rw [if_pos hdefault]
      exact hnow.complete
    · rw [if_neg hdefault]
      exact bwp_moveDefault hnow addressId

/-- The removal of an address that the call has not read as the default leaves it nothing to
promote. -/
theorem not_promoting_remove {row : Address} (hidle : Idle i b) (hok : Guarded i b (.remove row))
    (hwas : row.isDefault = false) : i ∉ ((b.remove i row.id).discharge i).promoting := by
  by_cases hflag : flagged Address.id Address.isDefault row.id b.stored = true
  · obtain ⟨y, hy, hid, hdefault⟩ := flagged_iff.mp hflag
    rcases hok y hy hid hdefault with hread | hone
    · rw [hwas] at hread
      cases hread
    · obtain ⟨z, hz⟩ := List.length_eq_one_iff.mp hone
      rw [hz, List.mem_singleton] at hy
      have hnil : (b.remove i row.id).stored = [] := by
        show b.stored.filter _ = []
        rw [hz, List.filter_eq_nil_iff]
        intro x hx
        rw [List.mem_singleton.mp hx, ← hy, hid]
        simp
      exact not_mem_discharge (.inl hnil)
  · intro hi
    have hbefore := mem_of_mem_discharge hi
    rw [Book.remove, if_neg hflag] at hbefore
    exact hidle.promoting hbefore

theorem bwp_promoteNext {wasDefault : Bool} (hclean : Clean i b)
    (hnot : wasDefault = false → i ∉ b.promoting) :
    bwp i (promoteNext wasDefault) (fun _ t => Idle i t) b := by
  cases wasDefault with
  | false => exact ⟨hclean, hnot rfl⟩
  | true =>
    apply bwp_bind
    apply bwp_read (fun t => oldest (t.view i)) (fun _ _ => rfl)
    intro t hbt ht _
    have hnow := hbt.clean hclean
    have hclean' : Clean i (t.discharge i) := by
      rw [Clean, Book.pendingOf, rows_discharge]
      exact hnow
    cases hnext : oldest (t.view i) with
    | none =>
      rw [oldest_eq_none_iff, view_of_clean hnow] at hnext
      exact ⟨hclean', not_mem_discharge (.inl hnext)⟩
    | some next =>
      apply wp_settle
      refine wp_mono ?_ (bwp_transaction (bwp_save ?_))
      · intro r u hu
        cases r with
        | ok a => exact hu
        | error e => exact hu
      · refine ⟨?_, fun hfalse => absurd hfalse.symm Bool.false_ne_true, fun _ => ⟨hclean', rfl⟩⟩
        intro r hr
        rw [hclean'] at hr
        cases hr

theorem bwp_delete (hidle : Idle i b) (addressId : JsStr) :
    bwp i (deleteShippingAddress addressId) (fun _ t => Idle i t) b := by
  apply bwp_bind
  apply bwp_read (fun t => find Address.id addressId (t.view i)) (fun _ _ => rfl)
  intro t hbt ht _
  have hnow := (hbt.idle hidle).discharge
  apply bwp_bind
  apply wp_orThrow
  · exact fun _ => hnow
  · intro row _
    apply bwp_bind
    apply bwp_perform
    intro u htu hu hok x r w hw
    have hidle' := htu.idle hnow
    simp only [Book.exec] at hw
    by_cases hlock : u.rows.locked Address.id i row.id = true
    · rw [if_pos hlock] at hw
      cases hw
    · rw [if_neg hlock] at hw
      rw [Bool.not_eq_true] at hlock
      cases hw
      obtain ⟨hinv, hkeeps, hclean⟩ := remove_spec hu hidle'.clean hlock
      refine ⟨hinv, hkeeps, bwp_promoteNext ?_ ?_⟩
      · rw [Clean, Book.pendingOf, rows_discharge]
        exact hclean
      · exact not_promoting_remove hidle' hok

end Calls

section Runs

variable {i : ℕ}

theorem bwp_entry (request : Request) {b : Book} (hidle : Idle i b) :
    bwp i (entry request) (fun _ t => Idle i t) b := by
  have hdiscard : ∀ {α : Type} {p : M α}, bwp i p (fun _ t => Idle i t) b →
      bwp i (Prog.discard p) (fun _ t => Idle i t) b := by
    intro α p h
    apply wp_settle
    refine wp_mono ?_ h
    intro r t ht
    cases r with
    | ok a => exact ht
    | error e => exact ht
  cases request with
  | create dto => exact hdiscard (bwp_create hidle dto)
  | update addressId dto => exact hdiscard (bwp_update_call hidle addressId dto)
  | setDefault addressId => exact hdiscard (bwp_setDefault hidle addressId)
  | delete addressId => exact bwp_delete hidle addressId

def Book.opened (rows : List Address) : Book := ⟨⟨rows, []⟩, []⟩

theorem inv_opened {rows : List Address} (hids : (rows.map Address.id).Nodup) (h : InOrder rows) :
    Inv (Book.opened rows) := by
  have hone : AtMostOne Address.id Address.isDefault rows := by
    intro r hr r' hr' hdefault hdefault'
    obtain ⟨d, -, -, honly⟩ := h.oneDefault (List.ne_nil_of_mem hr)
    rw [honly r hr hdefault, honly r' hr' hdefault']
  have hview : ∀ i, Versions.view Address.id i (⟨rows, []⟩ : Versions Address) = rows :=
    fun i => view_of_pendingOf_eq_nil rfl
  refine ⟨⟨hids, List.nodup_nil, hone, ?_, ?_⟩, h.limit, ?_⟩
  · intro i
    show AtMostOne Address.id Address.isDefault (Versions.view Address.id i ⟨rows, []⟩)
    rw [hview i]
    exact hone
  · intro i j hi
    cases hi
  · by_cases hnil : rows = []
    · exact .inl hnil
    · obtain ⟨d, hd, hdefault, -⟩ := h.oneDefault hnil
      exact .inr (.inl ⟨d, hd, hdefault⟩)

/-- The stored addresses are in order whenever no deletion has yet to promote one. -/
theorem inOrder_of_inv {b : Book} (h : Inv b) (hdone : b.promoting = []) : InOrder b.stored where
  limit := h.limit
  oneDefault hne := by
    rcases h.duty with hnil | ⟨r, hr, hdefault⟩ | hpromoting
    · exact absurd hnil hne
    · refine ⟨r, hr, hdefault, ?_⟩
      intro r' hr' hdefault'
      have hid := h.sound.stored_one r' hr' r hr hdefault' hdefault
      exact List.inj_on_of_nodup_map h.sound.storedKeys hr' hr hid
    · exact absurd hdone hpromoting

/-- In any run from an address book in order whose steps are all guarded, there are never more than
ten addresses or two defaults, and whenever no call is in flight the address book is in order. -/
theorem inOrder_of_settled {rows : List Address} (hids : (rows.map Address.id).Nodup)
    (h : InOrder rows) {p : Pool Book Cmd Res Fault Unit}
    (hreach : Pool.Reach Book.handler entry Guarded ⟨Book.opened rows, []⟩ p) :
    p.shared.stored.length ≤ maxShippingAddressesPerUser ∧
    AtMostOne Address.id Address.isDefault p.shared.stored ∧
    ((∀ t ∈ p.tasks, t.isSettled = true) → InOrder p.shared.stored) := by
  have hpost : contract.StablePost fun i (_ : Except Fault Unit) b => Idle i b :=
    fun _ _ _ _ hbu hb => hbu.idle hb
  have hfresh : ∀ i, (⟨Book.opened rows, []⟩ : Pool Book Cmd Res Fault Unit).tasks.length ≤ i →
      Idle i (Book.opened rows) := fun _ _ => ⟨rfl, List.not_mem_nil⟩
  obtain ⟨hsafe, hnew⟩ := Pool.safe_reach_of_fresh (F := Idle) hpost
    (fun _ _ _ hbu hb => hbu.idle hb) (fun request _ _ _ hidle => bwp_entry request hidle) hreach
    (Pool.safe_nil (inv_opened hids h)) hfresh
  refine ⟨hsafe.inv.limit, hsafe.inv.sound.stored_one, ?_⟩
  intro hsettled
  apply inOrder_of_inv hsafe.inv
  rw [List.eq_nil_iff_forall_not_mem]
  intro i hi
  by_cases hlt : i < p.tasks.length
  · have hmem : p.tasks[i] ∈ p.tasks := List.getElem_mem hlt
    obtain ⟨r, hr⟩ := Prog.isSettled_iff.mp (hsettled _ hmem)
    have hget : p.tasks[i]? = some (.ret r) := by
      rw [List.getElem?_eq_getElem hlt, hr]
    exact (hsafe.ended hget).promoting hi
  · exact (hnew i (Nat.le_of_not_lt hlt)).promoting hi

def home : CreateShippingAddressDto where
  label := none
  name := js "Daisy Kim"
  line1 := js "123 Market St"
  line2 := none
  city := js "San Francisco"
  region := some (js "CA")
  postal := js "94105"
  country := js "us"
  phone := js "+1 555 000 0000"
  isDefault := none

def newRow (id : JsStr) : Choice := ⟨id, 0, false⟩

/-- While the default is deleted, another address is stored. -/
def deleteDuringCreate : List (Pool.Event Request Choice) :=
  [.spawn (.create home), .run 0 (newRow []), .run 0 (newRow []), .run 0 (newRow (js "a")),
    .run 0 (newRow []), .spawn (.create home), .run 1 (newRow []), .run 1 (newRow (js "b")),
    .run 1 (newRow []), .spawn (.delete (js "a")), .spawn (.create home), .run 2 (newRow []),
    .run 3 (newRow []), .run 2 (newRow []), .run 3 (newRow (js "c")), .run 2 (newRow []),
    .run 3 (newRow []), .run 2 (newRow []), .run 2 (newRow []), .run 2 (newRow [])]

def shown (p : Pool Book Cmd Res Fault Unit) : Bool × List (JsStr × Bool) :=
  (p.tasks.all Prog.isSettled, p.shared.stored.map fun r => (r.id, r.isDefault))

theorem inOrder_of_settled_promoted :
    ∃ p : Pool Book Cmd Res Fault Unit,
      p.shared.stored.map (fun r => (r.id, r.isDefault)) = [(js "c", false), (js "b", true)] ∧
      InOrder p.shared.stored := by
  have hrun : (Pool.runSchedule Book.handler entry Guarded deleteDuringCreate
      ⟨Book.opened [], []⟩).map shown = some (true, [(js "c", false), (js "b", true)]) := rfl
  obtain ⟨p, hreach, hp⟩ := Pool.exists_reach_of_runSchedule deleteDuringCreate shown hrun
  obtain ⟨hsettled, hstored⟩ := Prod.mk.inj hp
  have hids : (([] : List Address).map Address.id).Nodup := List.nodup_nil
  have horder : InOrder [] := ⟨Nat.zero_le _, fun hne => absurd rfl hne⟩
  exact ⟨p, hstored, (inOrder_of_settled hids horder hreach).2.2
    fun t ht => List.all_eq_true.mp hsettled t ht⟩

/-- The first address is deleted while a second one, counted as such, is still to be stored. -/
def createDuringDelete : List (Pool.Event Request Choice) :=
  [.spawn (.create home), .run 0 (newRow []), .run 0 (newRow []), .run 0 (newRow (js "a")),
    .run 0 (newRow []), .spawn (.create home), .run 1 (newRow []), .spawn (.delete (js "a")),
    .run 2 (newRow []), .run 2 (newRow []), .run 2 (newRow []), .run 1 (newRow (js "b")),
    .run 1 (newRow [])]

/-- A call of `createShippingAddress` that runs alone, for a book that is not empty. -/
def createAlone (i : ℕ) : List (Pool.Event Request Choice) :=
  [.spawn (.create home), .run i (newRow []), .run i (newRow (ofNat i)), .run i (newRow [])]

/-- Nine addresses are stored one after the other, and two more at once. -/
def createTwoOfTen : List (Pool.Event Request Choice) :=
  [.spawn (.create home), .run 0 (newRow []), .run 0 (newRow []), .run 0 (newRow (ofNat 0)),
    .run 0 (newRow [])] ++ (List.range' 1 8).flatMap createAlone ++
  [.spawn (.create home), .spawn (.create home), .run 9 (newRow []), .run 10 (newRow []),
    .run 9 (newRow (ofNat 9)), .run 10 (newRow (ofNat 10)), .run 9 (newRow []), .run 10 (newRow [])]

/-- Two runs from an empty address book: one ends with an address that is no default, the other with
eleven addresses. -/
theorem not_inOrder_of_settled :
    (∃ p : Pool Book Cmd Res Fault Unit,
      Pool.Reach Book.handler entry anyStep ⟨Book.opened [], []⟩ p ∧
      (∀ t ∈ p.tasks, t.isSettled = true) ∧
      p.shared.stored.map (fun r => (r.id, r.isDefault)) = [(js "b", false)] ∧
      ¬ InOrder p.shared.stored) ∧
    ∃ p : Pool Book Cmd Res Fault Unit,
      Pool.Reach Book.handler entry anyStep ⟨Book.opened [], []⟩ p ∧
      (∀ t ∈ p.tasks, t.isSettled = true) ∧
      p.shared.stored.length = 11 ∧ ¬ InOrder p.shared.stored := by
  refine ⟨?_, ?_⟩
  · have hrun : (Pool.runSchedule Book.handler entry anyStep createDuringDelete
        ⟨Book.opened [], []⟩).map shown = some (true, [(js "b", false)]) := rfl
    obtain ⟨p, hreach, hp⟩ := Pool.exists_reach_of_runSchedule createDuringDelete shown hrun
    obtain ⟨hsettled, hstored⟩ := Prod.mk.inj hp
    refine ⟨p, hreach, fun t ht => List.all_eq_true.mp hsettled t ht, hstored, ?_⟩
    intro horder
    have hne : p.shared.stored ≠ [] := by
      intro hnil
      rw [hnil] at hstored
      cases hstored
    obtain ⟨r, hr, hdefault, -⟩ := horder.oneDefault hne
    have hmem := List.mem_map_of_mem (f := fun r : Address => (r.id, r.isDefault)) hr
    rw [hstored, List.mem_singleton, Prod.mk.injEq] at hmem
    rw [hdefault] at hmem
    cases hmem.2
  · have hrun : (Pool.runSchedule Book.handler entry anyStep createTwoOfTen
        ⟨Book.opened [], []⟩).map (fun p => ((shown p).1, p.shared.stored.length)) =
        some (true, 11) := rfl
    obtain ⟨p, hreach, hp⟩ := Pool.exists_reach_of_runSchedule createTwoOfTen
      (fun p => ((shown p).1, p.shared.stored.length)) hrun
    obtain ⟨hsettled, hlength⟩ := Prod.mk.inj hp
    refine ⟨p, hreach, fun t ht => List.all_eq_true.mp hsettled t ht, hlength, ?_⟩
    intro horder
    have hlimit := horder.limit
    rw [hlength] at hlimit
    exact absurd hlimit (by decide)

end Runs

end AddressBook
