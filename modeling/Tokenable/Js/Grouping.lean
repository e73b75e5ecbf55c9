import Mathlib.Data.List.Induction
import Mathlib.Data.List.Perm.Subperm
import Tokenable.Js.OrderedMap

/-!
# Values in groups

A `Map` of lists that is filled one value after the other: `list = map.get(k) ?? []; list.push(v);
map.set(k, list)`. The keys come in the order of the first value of each.
-/

namespace Js

open OrderedMap

variable {κ α : Type} [DecidableEq κ]

def pushTo (key : α → κ) (groups : OrderedMap κ (List α)) (a : α) : OrderedMap κ (List α) :=
  groups.set (key a) ((groups.get? (key a)).getD [] ++ [a])

def groupBy (key : α → κ) (as : List α) : OrderedMap κ (List α) :=
  as.foldl (pushTo key) .empty

variable {key : α → κ}

theorem groupBy_snoc (as : List α) (a : α) :
    groupBy key (as ++ [a]) = pushTo key (groupBy key as) a := by
  simp [groupBy]

/-- A key goes last, unless it is there. -/
theorem keys_pushTo (groups : OrderedMap κ (List α)) (a : α) :
    (pushTo key groups a).keys =
      if key a ∈ groups.keys then groups.keys else groups.keys ++ [key a] := by
  split_ifs with h
  · exact keys_set_of_mem h
  · change (put (key a) ((groups.get? (key a)).getD [] ++ [a]) groups.entries).map Prod.fst = _
    rw [put_of_not_mem h, List.map_append]
    rfl

theorem mem_keys_groupBy {as : List α} {k : κ} :
    k ∈ (groupBy key as).keys ↔ ∃ a ∈ as, key a = k := by
  induction as using List.reverseRecOn generalizing k with
  | nil => simp [groupBy, keys, OrderedMap.empty]
  | append_singleton as a ih =>
      rw [groupBy_snoc, keys_pushTo]
      by_cases h : key a ∈ (groupBy key as).keys
      · rw [if_pos h, ih]
        constructor
        · rintro ⟨b, hb, rfl⟩
          exact ⟨b, List.mem_append_left _ hb, rfl⟩
        · rintro ⟨b, hb, rfl⟩
          rcases List.mem_append.mp hb with hb | hb
          · exact ⟨b, hb, rfl⟩
          · rw [List.mem_singleton.mp hb]
            exact ih.mp h
      · rw [if_neg h]
        simp only [List.mem_append, List.mem_singleton, ih]
        constructor
        · rintro (⟨b, hb, rfl⟩ | rfl)
          · exact ⟨b, .inl hb, rfl⟩
          · exact ⟨a, .inr rfl, rfl⟩
        · rintro ⟨b, hb | rfl, rfl⟩
          · exact .inl ⟨b, hb, rfl⟩
          · exact .inr rfl

/-- The keys of a front part are the first keys. -/
theorem keys_groupBy_append (key : α → κ) (as bs : List α) :
    (groupBy key as).keys <+: (groupBy key (as ++ bs)).keys := by
  induction bs using List.reverseRecOn with
  | nil => simp
  | append_singleton bs b ih =>
      apply ih.trans
      rw [← List.append_assoc, groupBy_snoc, keys_pushTo]
      split_ifs
      · exact List.prefix_refl _
      · exact List.prefix_append _ _

/-- A key whose first value comes after those of `ks` is not among the first keys. -/
theorem not_mem_take_keys_groupBy {front back : List α} {k : κ} {ks : List κ} (hnodup : ks.Nodup)
    (hks : ∀ k' ∈ ks, ∃ a ∈ front, key a = k') (hk : ∀ a ∈ front, key a ≠ k) :
    k ∉ (groupBy key (front ++ back)).keys.take ks.length := by
  have hlength : ks.length ≤ (groupBy key front).keys.length :=
    (List.subperm_of_subset hnodup fun k' hk' => mem_keys_groupBy.mpr (hks k' hk')).length_le
  obtain ⟨rest, hrest⟩ := keys_groupBy_append key front back
  rw [← hrest, List.take_append_of_le_length hlength]
  intro hmem
  obtain ⟨a, ha, hkey⟩ := mem_keys_groupBy.mp (List.mem_of_mem_take hmem)
  exact hk a ha hkey

/-- The values of a group have its key. -/
theorem mem_groupBy {as : List α} {k : κ} {g : List α} (hg : (groupBy key as).get? k = some g)
    {a : α} (ha : a ∈ g) : a ∈ as ∧ key a = k := by
  induction as using List.reverseRecOn generalizing g with
  | nil => simp [groupBy] at hg
  | append_singleton as b ih =>
      rw [groupBy_snoc, pushTo] at hg
      by_cases hk : k = key b
      · subst hk
        rw [get?_set_self] at hg
        obtain rfl := Option.some.inj hg
        rcases List.mem_append.mp ha with ha | ha
        · cases hold : (groupBy key as).get? (key b) with
          | none => simp [hold] at ha
          | some g =>
              rw [hold] at ha
              obtain ⟨hmem, hkey⟩ := ih hold ha
              exact ⟨List.mem_append_left _ hmem, hkey⟩
        · rw [List.mem_singleton.mp ha]
          exact ⟨by simp, rfl⟩
      · rw [get?_set_of_ne hk] at hg
        obtain ⟨hmem, hkey⟩ := ih hg ha
        exact ⟨List.mem_append_left _ hmem, hkey⟩

end Js
