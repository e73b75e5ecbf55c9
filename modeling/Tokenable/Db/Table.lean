import Mathlib.Data.List.Nodup
import Mathlib.Data.List.Basic

/-!
# Tables with a primary key

A table is its rows, no two of which share the key. `save` is the object-relational save of a
whole row: it replaces the stored row of the same key, or inserts one. `Keeps step` relates two
states of a table when every row of the first has a successor of the same key in the second.
-/

namespace Db

structure Table (α κ : Type) (key : α → κ) where
  rows : List α
  nodup : (rows.map key).Nodup

namespace Table

variable {α κ : Type} [DecidableEq κ] {key : α → κ}

def empty : Table α κ key := ⟨[], List.nodup_nil⟩

def get (t : Table α κ key) (k : κ) : Option α := t.rows.find? (fun x => key x = k)

def find (t : Table α κ key) (p : α → Bool) : List α := t.rows.filter p

/-- `INSERT … ON CONFLICT (key) DO UPDATE` -/
def upsertRows (key : α → κ) (r : α) (update : α → α) (rows : List α) : List α :=
  if key r ∈ rows.map key then rows.map (fun x => if key x = key r then update x else x)
  else rows ++ [r]

def saveRows (key : α → κ) (r : α) (rows : List α) : List α := upsertRows key r (fun _ => r) rows

section Upsert
variable {r x : α} {update : α → α} {rows : List α}

theorem map_key_upsertRows (hupdate : ∀ x, key x = key r → key (update x) = key r) :
    (upsertRows key r update rows).map key =
      if key r ∈ rows.map key then rows.map key else rows.map key ++ [key r] := by
  unfold upsertRows
  split_ifs with h
  · rw [List.map_map]
    refine List.map_congr_left fun x _ => ?_
    by_cases hx : key x = key r
    · simp [hx, hupdate x hx]
    · simp [hx]
  · simp

theorem nodup_upsertRows (hupdate : ∀ x, key x = key r → key (update x) = key r)
    (h : (rows.map key).Nodup) : ((upsertRows key r update rows).map key).Nodup := by
  rw [map_key_upsertRows hupdate]
  split_ifs with hrow
  · exact h
  · refine List.nodup_append.mpr ⟨h, List.nodup_singleton _, ?_⟩
    rintro a ha b hb rfl
    exact hrow (List.mem_singleton.mp hb ▸ ha)

/-- No key is lost, and that of the new row is there. -/
theorem exists_key_upsertRows (hupdate : ∀ x, key x = key r → key (update x) = key r) :
    (∀ x ∈ rows, ∃ y ∈ upsertRows key r update rows, key y = key x) ∧
      ∃ y ∈ upsertRows key r update rows, key y = key r := by
  have hkept : ∀ k, k ∈ rows.map key ∨ k = key r → ∃ y ∈ upsertRows key r update rows, key y = k := by
    intro k hk
    rw [← List.mem_map, map_key_upsertRows hupdate]
    split_ifs with h
    · rcases hk with hk | rfl
      · exact hk
      · exact h
    · rw [List.mem_append, List.mem_singleton]
      exact hk
  exact ⟨fun x hx => hkept _ (.inl (List.mem_map_of_mem hx)), hkept _ (.inr rfl)⟩

theorem mem_upsertRows_of_mem (h : x ∈ rows) :
    (if key x = key r then update x else x) ∈ upsertRows key r update rows := by
  unfold upsertRows
  split_ifs with hrow hkey hkey
  · exact List.mem_map.mpr ⟨x, h, if_pos hkey⟩
  · exact List.mem_map.mpr ⟨x, h, if_neg hkey⟩
  · exact absurd (hkey ▸ List.mem_map_of_mem h) hrow
  · exact List.mem_append_left [r] h

theorem mem_upsertRows (h : x ∈ upsertRows key r update rows) :
    x ∈ rows ∨ x = r ∨ ∃ old ∈ rows, key old = key r ∧ x = update old := by
  unfold upsertRows at h
  split_ifs at h
  · obtain ⟨old, hold, rfl⟩ := List.mem_map.mp h
    by_cases hkey : key old = key r
    · exact .inr (.inr ⟨old, hold, hkey, if_pos hkey⟩)
    · rw [if_neg hkey]
      exact .inl hold
  · rcases List.mem_append.mp h with hold | hnew
    · exact .inl hold
    · exact .inr (.inl (List.mem_singleton.mp hnew))

end Upsert

def upsert (t : Table α κ key) (r : α) (update : α → α)
    (hupdate : ∀ x, key x = key r → key (update x) = key r) : Table α κ key where
  rows := upsertRows key r update t.rows
  nodup := nodup_upsertRows hupdate t.nodup

def save (t : Table α κ key) (r : α) : Table α κ key := t.upsert r (fun _ => r) fun _ _ => rfl

def saveAll (t : Table α κ key) (rs : List α) : Table α κ key := rs.foldl save t

def remove (t : Table α κ key) (k : κ) : Table α κ key where
  rows := t.rows.filter fun x => key x ≠ k
  nodup := (List.filter_sublist.map key).nodup t.nodup

theorem get_eq_some {t : Table α κ key} {k : κ} {x : α} :
    t.get k = some x ↔ x ∈ t.rows ∧ key x = k := by
  constructor
  · intro h
    exact ⟨List.mem_of_find?_eq_some h, by simpa using List.find?_some h⟩
  · rintro ⟨hx, rfl⟩
    obtain ⟨y, hy⟩ : ∃ y, t.get (key x) = some y :=
      Option.isSome_iff_exists.mp (List.find?_isSome.mpr ⟨x, hx, by simp⟩)
    have hyx : key y = key x := by simpa using List.find?_some hy
    rw [hy, List.inj_on_of_nodup_map t.nodup (List.mem_of_find?_eq_some hy) hx hyx]

theorem get_eq_none {t : Table α κ key} {k : κ} :
    t.get k = none ↔ ∀ x ∈ t.rows, key x ≠ k := by
  simp [get]

theorem get_key {t : Table α κ key} {k : κ} {x : α} (h : t.get k = some x) : key x = k :=
  (get_eq_some.mp h).2

theorem mem_of_get {t : Table α κ key} {k : κ} {x : α} (h : t.get k = some x) : x ∈ t.rows :=
  (get_eq_some.mp h).1

theorem get_of_mem {t : Table α κ key} {x : α} (h : x ∈ t.rows) : t.get (key x) = some x :=
  get_eq_some.mpr ⟨h, rfl⟩

omit [DecidableEq κ] in
theorem mem_find {t : Table α κ key} {p : α → Bool} {x : α} :
    x ∈ t.find p ↔ x ∈ t.rows ∧ p x = true := List.mem_filter

theorem mem_saveRows {r x : α} {rows : List α} :
    x ∈ saveRows key r rows ↔ x = r ∨ (x ∈ rows ∧ key x ≠ key r) := by
  unfold saveRows upsertRows
  split_ifs with h
  · obtain ⟨y, hy, hyr⟩ := List.mem_map.mp h
    simp only [List.mem_map]
    constructor
    · rintro ⟨z, hz, rfl⟩
      by_cases hzr : key z = key r
      · exact .inl (if_pos hzr)
      · rw [if_neg hzr]
        exact .inr ⟨hz, hzr⟩
    · rintro (rfl | ⟨hx, hxr⟩)
      · exact ⟨y, hy, if_pos hyr⟩
      · exact ⟨x, hx, if_neg hxr⟩
  · have hne : ∀ y ∈ rows, key y ≠ key r := fun y hy he => h (List.mem_map.mpr ⟨y, hy, he⟩)
    simp only [List.mem_append, List.mem_singleton]
    constructor
    · rintro (hx | rfl)
      · exact .inr ⟨hx, hne x hx⟩
      · exact .inl rfl
    · rintro (rfl | ⟨hx, -⟩)
      · exact .inr rfl
      · exact .inl hx

theorem mem_save {t : Table α κ key} {r x : α} :
    x ∈ (t.save r).rows ↔ x = r ∨ (x ∈ t.rows ∧ key x ≠ key r) := mem_saveRows

@[simp] theorem get_save_self (t : Table α κ key) (r : α) : (t.save r).get (key r) = some r :=
  get_eq_some.mpr ⟨mem_save.mpr (.inl rfl), rfl⟩

theorem get_save_of_ne {t : Table α κ key} {r : α} {k : κ} (h : k ≠ key r) :
    (t.save r).get k = t.get k := by
  ext x
  rw [get_eq_some, get_eq_some, mem_save]
  constructor
  · rintro ⟨rfl | ⟨hx, -⟩, rfl⟩
    · exact absurd rfl h
    · exact ⟨hx, rfl⟩
  · rintro ⟨hx, rfl⟩
    exact ⟨.inr ⟨hx, h⟩, rfl⟩

theorem mem_remove {t : Table α κ key} {k : κ} {x : α} :
    x ∈ (t.remove k).rows ↔ x ∈ t.rows ∧ key x ≠ k := by
  simp [remove]

@[simp] theorem get_remove_self (t : Table α κ key) (k : κ) : (t.remove k).get k = none :=
  get_eq_none.mpr fun _ hx => (mem_remove.mp hx).2

omit [DecidableEq κ] in
theorem key_inj {t : Table α κ key} {x y : α} (hx : x ∈ t.rows) (hy : y ∈ t.rows)
    (h : key x = key y) : x = y := List.inj_on_of_nodup_map t.nodup hx hy h

theorem rows_save_of_get_eq_none {t : Table α κ key} {r : α} (h : t.get (key r) = none) :
    (t.save r).rows = t.rows ++ [r] := by
  have hnot : key r ∉ t.rows.map key := by
    rintro hmem
    obtain ⟨x, hx, hxr⟩ := List.mem_map.mp hmem
    exact get_eq_none.mp h x hx hxr
  exact if_neg hnot

theorem rows_save_of_get_eq_some {t : Table α κ key} {r x : α} (h : t.get (key r) = some x) :
    (t.save r).rows = t.rows.map fun y => if key y = key r then r else y :=
  if_pos (List.mem_map.mpr ⟨x, mem_of_get h, get_key h⟩)

/-- A new row comes last. -/
theorem find_save_of_get_eq_none {t : Table α κ key} {r : α} (h : t.get (key r) = none)
    (p : α → Bool) : (t.save r).find p = t.find p ++ if p r then [r] else [] := by
  rw [find, rows_save_of_get_eq_none h, List.filter_append, find]
  by_cases hp : p r = true
  · rw [List.filter_cons_of_pos hp, if_pos hp, List.filter_nil]
  · rw [List.filter_cons_of_neg hp, if_neg hp, List.filter_nil]

/-- A row that is selected before and after a save is replaced in its place. -/
theorem find_save_of_get_eq_some {t : Table α κ key} {r x : α} (h : t.get (key r) = some x)
    {p : α → Bool} (hp : p r = p x) :
    (t.save r).find p = (t.find p).map fun y => if key y = key r then r else y := by
  rw [find, rows_save_of_get_eq_some h, List.filter_map, find]
  congr 1
  refine List.filter_congr fun y hy => ?_
  by_cases hyr : key y = key r
  · have hyx : y = x := key_inj hy (mem_of_get h) (hyr.trans (get_key h).symm)
    rw [Function.comp_apply, if_pos hyr, hp, hyx]
  · rw [Function.comp_apply, if_neg hyr]

/-- The first selected row, after a save that changes a row in its place. -/
theorem find?_save_of_get_eq_some {t : Table α κ key} {r x : α} (h : t.get (key r) = some x)
    {p : α → Bool} (hp : p r = p x) :
    (t.save r).rows.find? p = (t.rows.find? p).map fun y => if key y = key r then r else y := by
  have hfind := congrArg List.head? (find_save_of_get_eq_some h hp)
  rw [List.head?_map] at hfind
  rw [← List.head?_filter, ← List.head?_filter]
  exact hfind

/-- The first selected row, after a save of a new one. -/
theorem find?_save_of_get_eq_none {t : Table α κ key} {r : α} (h : t.get (key r) = none)
    (p : α → Bool) :
    (t.save r).rows.find? p = (t.rows.find? p).or (if p r then some r else none) := by
  rw [rows_save_of_get_eq_none h, List.find?_append]
  congr 1
  by_cases hp : p r = true
  · rw [List.find?_cons_of_pos hp, if_pos hp]
  · rw [List.find?_cons_of_neg hp, if_neg hp, List.find?_nil]

/-- A save does not show where neither the old nor the new row is selected. -/
theorem find_save_of_not {t : Table α κ key} {r : α} {p : α → Bool} (hr : p r = false)
    (hold : ∀ x, t.get (key r) = some x → p x = false) : (t.save r).find p = t.find p := by
  cases h : t.get (key r) with
  | none => rw [find_save_of_get_eq_none h, hr, if_neg Bool.false_ne_true, List.append_nil]
  | some x =>
    have hx : p x = false := hold x h
    rw [find_save_of_get_eq_some h (hr.trans hx.symm)]
    refine (List.map_congr_left fun y hy => ?_).trans (List.map_id _)
    rw [mem_find] at hy
    refine if_neg fun hyr => ?_
    have hyx : y = x := key_inj hy.1 (mem_of_get h) (hyr.trans (get_key h).symm)
    rw [hyx, hx] at hy
    exact Bool.false_ne_true hy.2

theorem find_remove (t : Table α κ key) (k : κ) (p : α → Bool) :
    (t.remove k).find p = (t.find p).filter fun x => key x ≠ k := by
  simp only [find, remove, List.filter_filter]
  exact List.filter_congr fun x _ => Bool.and_comm _ _

theorem get_saveAll_of_not_mem {t : Table α κ key} {rs : List α} {k : κ} (h : k ∉ rs.map key) :
    (t.saveAll rs).get k = t.get k := by
  induction rs generalizing t with
  | nil => rfl
  | cons r rs ih =>
    obtain ⟨hr, hrs⟩ := not_or.mp (fun hor => h (List.mem_cons.mpr hor))
    exact (ih hrs).trans (get_save_of_ne hr)

theorem isSome_get_save {t : Table α κ key} {r : α} {k : κ} (h : (t.get k).isSome) :
    ((t.save r).get k).isSome := by
  by_cases hk : k = key r
  · simp [hk]
  · rwa [get_save_of_ne hk]

theorem isSome_get_saveAll {t : Table α κ key} {rs : List α} {k : κ} (h : (t.get k).isSome) :
    ((t.saveAll rs).get k).isSome := by
  induction rs generalizing t with
  | nil => exact h
  | cons r rs ih => exact ih (isSome_get_save h)

/-- A key that is saved once has the saved row. -/
theorem get_saveAll {t : Table α κ key} {rs : List α} (hrs : rs.Pairwise fun a b => key a ≠ key b)
    (k : κ) : (t.saveAll rs).get k = (rs.find? fun r => key r = k).or (t.get k) := by
  induction rs generalizing t with
  | nil => rfl
  | cons r rs ih =>
    obtain ⟨hr, hrs'⟩ := List.pairwise_cons.mp hrs
    refine (ih hrs').trans ?_
    by_cases hk : key r = k
    · subst hk
      have hnone : rs.find? (fun r' => key r' = key r) = none := by
        rw [List.find?_eq_none]
        intro r' hr'
        simpa using (hr r' hr').symm
      rw [hnone, get_save_self, List.find?_cons_of_pos (by simp)]
      rfl
    · rw [get_save_of_ne (Ne.symm hk), List.find?_cons_of_neg (by simpa using hk)]

/-- Rows of the table that are changed under their keys are replaced in their places. -/
theorem rows_saveAll_map {t : Table α κ key} {g : α → α} (hg : ∀ x, key (g x) = key x) {rs : List α}
    (hmem : ∀ r ∈ rs, r ∈ t.rows) (hrs : rs.Pairwise fun a b => key a ≠ key b) :
    (t.saveAll (rs.map g)).rows = t.rows.map fun x => if key x ∈ rs.map key then g x else x := by
  induction rs generalizing t with
  | nil =>
    change t.rows = t.rows.map fun x => if key x ∈ ([] : List κ) then g x else x
    simp
  | cons r rs ih =>
    obtain ⟨hr, hrs'⟩ := List.pairwise_cons.mp hrs
    have hstored : t.get (key (g r)) = some r := (hg r).symm ▸ get_of_mem (hmem r List.mem_cons_self)
    have hmem' : ∀ r' ∈ rs, r' ∈ (t.save (g r)).rows := by
      intro r' hr'
      refine mem_save.mpr (.inr ⟨hmem r' (List.mem_cons_of_mem _ hr'), ?_⟩)
      rw [hg]
      exact (hr r' hr').symm
    refine (ih hmem' hrs').trans ?_
    rw [rows_save_of_get_eq_some hstored, List.map_map, hg]
    refine List.map_congr_left fun x hx => ?_
    have hnot : key r ∉ rs.map key := by
      intro hin
      obtain ⟨r', hr', hsame⟩ := List.mem_map.mp hin
      exact hr r' hr' hsame.symm
    by_cases hxr : key x = key r
    · obtain rfl := key_inj hx (hmem r List.mem_cons_self) hxr
      rw [Function.comp_apply, if_pos rfl, hg, if_neg hnot,
        if_pos (List.mem_map_of_mem List.mem_cons_self)]
    · simp [hxr]

/-- A table whose rows are those of another one, changed under their keys. -/
theorem get_of_rows_eq_map {t u : Table α κ key} {f : α → α} (hrows : u.rows = t.rows.map f)
    (hf : ∀ x ∈ t.rows, key (f x) = key x) (k : κ) : u.get k = (t.get k).map f := by
  ext y
  rw [get_eq_some, hrows, Option.map_eq_some_iff]
  constructor
  · rintro ⟨hy, rfl⟩
    obtain ⟨x, hx, rfl⟩ := List.mem_map.mp hy
    exact ⟨x, get_eq_some.mpr ⟨hx, (hf x hx).symm⟩, rfl⟩
  · rintro ⟨x, hx, rfl⟩
    obtain ⟨hmem, rfl⟩ := get_eq_some.mp hx
    exact ⟨List.mem_map_of_mem hmem, hf x hmem⟩

/-- Every row of `t` has a `step` successor of the same key in `u`. -/
def Keeps (step : α → α → Prop) (t u : Table α κ key) : Prop :=
  ∀ k x, t.get k = some x → ∃ y, u.get k = some y ∧ step x y

theorem Keeps.refl {step : α → α → Prop} (hrefl : ∀ x, step x x) (t : Table α κ key) :
    Keeps step t t := fun _ x hx => ⟨x, hx, hrefl x⟩

theorem Keeps.trans {step : α → α → Prop} (htrans : ∀ x y z, step x y → step y z → step x z)
    {t u v : Table α κ key} (htu : Keeps step t u) (huv : Keeps step u v) : Keeps step t v := by
  intro k x hx
  obtain ⟨y, hy, hxy⟩ := htu k x hx
  obtain ⟨z, hz, hyz⟩ := huv k y hy
  exact ⟨z, hz, htrans x y z hxy hyz⟩

theorem keeps_save {step : α → α → Prop} (hrefl : ∀ x, step x x) {t : Table α κ key} {r : α}
    (h : ∀ x, t.get (key r) = some x → step x r) : Keeps step t (t.save r) := by
  intro k x hx
  by_cases hk : k = key r
  · subst hk
    exact ⟨r, get_save_self t r, h x hx⟩
  · exact ⟨x, (get_save_of_ne hk).trans hx, hrefl x⟩

theorem keeps_saveAll {step : α → α → Prop} (hrefl : ∀ x, step x x)
    (htrans : ∀ x y z, step x y → step y z → step x z) {t : Table α κ key} {rs : List α}
    (hrs : rs.Pairwise (fun a b => key a ≠ key b))
    (h : ∀ r ∈ rs, ∀ x, t.get (key r) = some x → step x r) : Keeps step t (t.saveAll rs) := by
  induction rs generalizing t with
  | nil => exact Keeps.refl hrefl t
  | cons r rs ih =>
    obtain ⟨hr, hrs'⟩ := List.pairwise_cons.mp hrs
    refine Keeps.trans htrans (keeps_save hrefl (h r (.head _))) (ih hrs' fun r' hr' x hx => ?_)
    exact h r' (.tail _ hr') x (by rwa [get_save_of_ne (hr r' hr').symm] at hx)

theorem mem_saveAll {t : Table α κ key} {rs : List α} {x : α} (hx : x ∈ (t.saveAll rs).rows) :
    x ∈ rs ∨ (x ∈ t.rows ∧ key x ∉ rs.map key) := by
  induction rs generalizing t with
  | nil => exact .inr ⟨hx, by simp⟩
  | cons r rs ih =>
    rcases ih hx with hmem | ⟨hmem, hnot⟩
    · exact .inl (.tail _ hmem)
    · rcases mem_save.mp hmem with rfl | ⟨hmem', hne⟩
      · exact .inl (.head _)
      · exact .inr ⟨hmem', by simp [hne, hnot]⟩

end Table
end Db
