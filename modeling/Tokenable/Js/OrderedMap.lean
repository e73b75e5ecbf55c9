import Mathlib.Data.List.Dedup

/-!
# Maps that keep the order of insertion

The `Map` of JavaScript: at most one entry for each key, iterated in the order in which the keys were
first set. Setting a key that is present replaces its value where it stands.
-/

namespace Js

/-- A `Set` holds each element once, where it was first added. -/
theorem nodup_eraseDups {α : Type*} [BEq α] [LawfulBEq α] (l : List α) : l.eraseDups.Nodup := by
  induction hn : l.length using Nat.strongRecOn generalizing l with
  | _ n ih =>
      cases l with
      | nil => exact List.nodup_nil
      | cons a l =>
          have hlen : (l.filter fun b => !b == a).length < n := by
            have hle := List.length_filter_le (fun b => !b == a) l
            simp only [List.length_cons] at hn
            omega
          rw [List.eraseDups_cons, List.nodup_cons]
          refine ⟨fun hmem => ?_, ih _ hlen _ rfl⟩
          simp [List.mem_eraseDups] at hmem

theorem eraseDups_of_nodup {α : Type*} [BEq α] [LawfulBEq α] {l : List α} (h : l.Nodup) :
    l.eraseDups = l := by
  induction l with
  | nil => rfl
  | cons a l ih =>
      rw [List.nodup_cons] at h
      have hkept : (l.filter fun b => !b == a) = l := by
        rw [List.filter_eq_self]
        intro b hb
        have hne : b ≠ a := fun heq => h.1 (heq ▸ hb)
        simpa using hne
      rw [List.eraseDups_cons, hkept, ih h.2]

/-- Elements that a set has are not added again. -/
theorem eraseDups_append_of_subset {α : Type} [BEq α] [LawfulBEq α] {l l' : List α}
    (h : l' ⊆ l) : (l.eraseDups ++ l').eraseDups = l.eraseDups := by
  have hadded : l'.removeAll l.eraseDups = [] := by
    rw [List.removeAll, List.filter_eq_nil_iff]
    intro a ha
    simpa using h ha
  rw [List.eraseDups_append, hadded, eraseDups_of_nodup (nodup_eraseDups l), List.eraseDups_nil,
    List.append_nil]

structure OrderedMap (κ α : Type) where
  entries : List (κ × α)
  nodup : (entries.map Prod.fst).Nodup

namespace OrderedMap

variable {κ α : Type} [DecidableEq κ]

def empty : OrderedMap κ α := ⟨[], List.nodup_nil⟩

def keys (m : OrderedMap κ α) : List κ := m.entries.map Prod.fst

def values (m : OrderedMap κ α) : List α := m.entries.map Prod.snd

def size (m : OrderedMap κ α) : ℕ := m.entries.length

def lookup (k : κ) : List (κ × α) → Option α
  | [] => none
  | e :: es => if e.1 = k then some e.2 else lookup k es

def get? (m : OrderedMap κ α) (k : κ) : Option α := lookup k m.entries

/-- The entries after `set`: the key keeps its place, and a new key goes last. -/
def put (k : κ) (v : α) : List (κ × α) → List (κ × α)
  | [] => [(k, v)]
  | e :: es => if e.1 = k then (k, v) :: es else e :: put k v es

theorem lookup_eq_none {k : κ} {es : List (κ × α)} :
    lookup k es = none ↔ k ∉ es.map Prod.fst := by
  induction es with
  | nil => simp [lookup]
  | cons e es ih =>
      by_cases h : e.1 = k
      · simp [lookup, h]
      · have hk : k ≠ e.1 := fun hke => h hke.symm
        simp [lookup, h, ih, hk]

/-- A key that is present splits the entries around its own. -/
theorem exists_split_of_lookup {k : κ} {v : α} {es : List (κ × α)} (h : lookup k es = some v) :
    ∃ front back, es = front ++ (k, v) :: back ∧ k ∉ front.map Prod.fst := by
  induction es with
  | nil => cases h
  | cons e es ih =>
      by_cases hk : e.1 = k
      · have hv : e.2 = v := by simpa [lookup, hk] using h
        refine ⟨[], es, ?_, List.not_mem_nil⟩
        rw [← hk, ← hv]
        rfl
      · have hrest : lookup k es = some v := by simpa [lookup, hk] using h
        obtain ⟨front, back, rfl, hfront⟩ := ih hrest
        refine ⟨e :: front, back, rfl, ?_⟩
        rw [List.map_cons, List.mem_cons, not_or]
        exact ⟨fun hke => hk hke.symm, hfront⟩

theorem put_of_not_mem {k : κ} {v : α} {es : List (κ × α)} (h : k ∉ es.map Prod.fst) :
    put k v es = es ++ [(k, v)] := by
  induction es with
  | nil => rfl
  | cons e es ih =>
      rw [List.map_cons, List.mem_cons, not_or] at h
      have hk : ¬ e.1 = k := fun hke => h.1 hke.symm
      simp [put, hk, ih h.2]

theorem put_of_split {k : κ} {v w : α} {front back : List (κ × α)} (h : k ∉ front.map Prod.fst) :
    put k w (front ++ (k, v) :: back) = front ++ (k, w) :: back := by
  induction front with
  | nil => simp [put]
  | cons e front ih =>
      rw [List.map_cons, List.mem_cons, not_or] at h
      have hk : ¬ e.1 = k := fun hke => h.1 hke.symm
      simp [put, hk, ih h.2]

theorem nodup_put {k : κ} {v : α} {es : List (κ × α)} (h : (es.map Prod.fst).Nodup) :
    ((put k v es).map Prod.fst).Nodup := by
  by_cases hk : k ∈ es.map Prod.fst
  · have hsome : lookup k es ≠ none := fun hnone => lookup_eq_none.1 hnone hk
    obtain ⟨w, hw⟩ := Option.ne_none_iff_exists'.1 hsome
    obtain ⟨front, back, rfl, hfront⟩ := exists_split_of_lookup hw
    rw [put_of_split hfront]
    simpa using h
  · rw [put_of_not_mem hk, List.map_append]
    exact List.Nodup.append h (List.nodup_singleton k) (by simpa using hk)

def set (m : OrderedMap κ α) (k : κ) (v : α) : OrderedMap κ α := ⟨put k v m.entries, nodup_put m.nodup⟩

/-- What `set` does: a new key goes last, and a key that is present keeps its place. -/
theorem set_cases (m : OrderedMap κ α) (k : κ) (v : α) :
    (m.get? k = none ∧ (m.set k v).entries = m.entries ++ [(k, v)]) ∨
      ∃ front w back, m.get? k = some w ∧ m.entries = front ++ (k, w) :: back ∧
        (m.set k v).entries = front ++ (k, v) :: back := by
  cases h : m.get? k with
  | none => exact .inl ⟨rfl, put_of_not_mem (lookup_eq_none.1 h)⟩
  | some w =>
      obtain ⟨front, back, hentries, hfront⟩ := exists_split_of_lookup h
      refine .inr ⟨front, w, back, rfl, hentries, ?_⟩
      change put k v m.entries = _
      rw [hentries, put_of_split hfront]

/-- The entries that a predicate keeps, in their order: a loop that deletes the others. -/
def filter (m : OrderedMap κ α) (p : κ → α → Bool) : OrderedMap κ α :=
  ⟨m.entries.filter fun e => p e.1 e.2, m.nodup.sublist (List.filter_sublist.map _)⟩

def deleteFirst (m : OrderedMap κ α) : OrderedMap κ α :=
  ⟨m.entries.tail, m.nodup.sublist ((List.tail_sublist _).map _)⟩

section Get

variable {m : OrderedMap κ α} {k k' : κ} {v : α}

theorem lookup_of_mem {es : List (κ × α)} (hnodup : (es.map Prod.fst).Nodup) (h : (k, v) ∈ es) :
    lookup k es = some v := by
  induction es with
  | nil => cases h
  | cons e es ih =>
      rw [List.map_cons, List.nodup_cons] at hnodup
      rcases List.mem_cons.1 h with rfl | h
      · simp [lookup]
      · have hk : ¬ e.1 = k := by
          rintro rfl
          exact hnodup.1 (List.mem_map.2 ⟨(e.1, v), h, rfl⟩)
        simp [lookup, hk, ih hnodup.2 h]

theorem get?_eq_some : m.get? k = some v ↔ (k, v) ∈ m.entries := by
  constructor
  · intro h
    obtain ⟨front, back, hentries, -⟩ := exists_split_of_lookup h
    rw [hentries]
    exact List.mem_append_right _ List.mem_cons_self
  · exact lookup_of_mem m.nodup

@[simp] theorem get?_empty : (empty : OrderedMap κ α).get? k = none := rfl

@[simp] theorem get?_set_self : (m.set k v).get? k = some v := by
  rw [get?_eq_some]
  rcases m.set_cases k v with ⟨-, h⟩ | ⟨front, w, back, -, -, h⟩
  · rw [h]
    exact List.mem_append_right _ List.mem_cons_self
  · rw [h]
    exact List.mem_append_right _ List.mem_cons_self

/-- Setting a key leaves the others as they are. -/
theorem get?_set_of_ne (h : k' ≠ k) : (m.set k v).get? k' = m.get? k' := by
  ext w
  rw [get?_eq_some, get?_eq_some]
  have hne : (k', w) ≠ (k, v) := fun heq => h (congrArg Prod.fst heq)
  rcases m.set_cases k v with ⟨-, hset⟩ | ⟨front, u, back, -, hold, hset⟩
  · rw [hset, List.mem_append, List.mem_singleton]
    simp [hne]
  · have hne' : (k', w) ≠ (k, u) := fun heq => h (congrArg Prod.fst heq)
    rw [hset, hold, List.mem_append, List.mem_append, List.mem_cons, List.mem_cons]
    simp [hne, hne']

theorem get?_filter {p : κ → α → Bool} :
    (m.filter p).get? k = some v ↔ m.get? k = some v ∧ p k v = true := by
  rw [get?_eq_some, get?_eq_some]
  exact List.mem_filter

end Get

section Extensionality

variable {m m' : OrderedMap κ α} {k : κ}

theorem mem_keys_iff : k ∈ m.keys ↔ ∃ v, m.get? k = some v := by
  rw [← Option.isSome_iff_exists, ← not_iff_not, Bool.not_eq_true, Option.isSome_eq_false_iff,
    Option.isNone_iff_eq_none]
  exact lookup_eq_none.symm

/-- The entries are the keys with what they are mapped to. -/
theorem entries_eq_filterMap (m : OrderedMap κ α) :
    m.entries = m.keys.filterMap fun k => (m.get? k).map fun v => (k, v) := by
  have hentry : ∀ e ∈ m.entries, ((m.get? e.1).map fun v => (e.1, v)) = some e := by
    intro e he
    rw [get?_eq_some.2 he]
    rfl
  rw [keys, List.filterMap_map]
  exact (List.filterMap_some.symm.trans (List.filterMap_congr fun e he => (hentry e he).symm))

/-- A map is determined by its keys, in their order, and their values. -/
theorem ext_get? (hkeys : m.keys = m'.keys) (hget : ∀ k, m.get? k = m'.get? k) : m = m' := by
  have hentries : m.entries = m'.entries := by
    rw [entries_eq_filterMap m, entries_eq_filterMap m', hkeys]
    simp only [hget]
  cases m
  cases m'
  simpa using hentries

/-- A key that is present keeps its place when it is set. -/
theorem keys_set_of_mem {v : α} (h : k ∈ m.keys) : (m.set k v).keys = m.keys := by
  obtain ⟨w, hw⟩ := mem_keys_iff.1 h
  rcases m.set_cases k v with ⟨hnone, -⟩ | ⟨front, u, back, -, hold, hset⟩
  · rw [hw] at hnone
    cases hnone
  · rw [keys, keys, hset, hold]
    simp

end Extensionality

section Each

variable {m : OrderedMap κ α} {key : α → κ}

def setEach (key : α → κ) (m : OrderedMap κ α) (as : List α) : OrderedMap κ α :=
  as.foldl (fun m a => m.set (key a) a) m

theorem mem_keys_set {k k' : κ} {v : α} : k' ∈ (m.set k v).keys ↔ k' = k ∨ k' ∈ m.keys := by
  rw [mem_keys_iff, mem_keys_iff]
  by_cases h : k' = k
  · subst h
    simp
  · rw [get?_set_of_ne h]
    simp [h]

theorem mem_keys_setEach {k : κ} {as : List α} :
    k ∈ (setEach key m as).keys ↔ k ∈ m.keys ∨ k ∈ as.map key := by
  induction as generalizing m with
  | nil => simp [setEach]
  | cons a as ih =>
      have hstep : setEach key m (a :: as) = setEach key (m.set (key a) a) as := rfl
      rw [hstep, ih, mem_keys_set, List.map_cons, List.mem_cons]
      tauto

/-- A key is mapped to the last element that was set under it. -/
theorem get?_setEach {k : κ} {as : List α} : (setEach key m as).get? k =
    ((as.filter fun a => decide (key a = k)).getLast?).or (m.get? k) := by
  induction as generalizing m with
  | nil => simp [setEach]
  | cons a as ih =>
      have hstep : setEach key m (a :: as) = setEach key (m.set (key a) a) as := rfl
      rw [hstep, ih]
      by_cases h : key a = k
      · subst h
        rw [List.filter_cons_of_pos (by simp), List.getLast?_cons, get?_set_self]
        cases (as.filter fun b => decide (key b = key a)).getLast? <;> rfl
      · rw [List.filter_cons_of_neg (by simpa using h), get?_set_of_ne fun hk => h hk.symm]

theorem size_setEach {as : List α} :
    (setEach key .empty as).size = (as.map key).dedup.length := by
  have hperm : (setEach key .empty as).keys.Perm (as.map key).dedup := by
    refine (List.perm_ext_iff_of_nodup (setEach key .empty as).nodup (List.nodup_dedup _)).2 ?_
    intro k
    rw [List.mem_dedup]
    exact mem_keys_setEach.trans (by simp [keys, empty])
  rw [← hperm.length_eq, keys, List.length_map, size]

/-- Every element stands under its own key. -/
theorem key_of_mem_entries {as : List α} (hm : ∀ e ∈ m.entries, key e.2 = e.1) :
    ∀ e ∈ (setEach key m as).entries, key e.2 = e.1 := by
  induction as generalizing m with
  | nil => exact hm
  | cons a as ih =>
      refine ih fun e he => ?_
      rcases m.set_cases (key a) a with ⟨-, hset⟩ | ⟨front, w, back, -, hold, hset⟩
      · rw [hset, List.mem_append, List.mem_singleton] at he
        rcases he with he | rfl
        · exact hm e he
        · rfl
      · rw [hset, List.mem_append, List.mem_cons] at he
        rw [hold] at hm
        rcases he with he | rfl | he
        · exact hm e (List.mem_append_left _ he)
        · rfl
        · exact hm e (List.mem_append_right _ (List.mem_cons_of_mem _ he))

theorem map_key_values_setEach {as : List α} :
    (setEach key .empty as).values.map key = (setEach key .empty as).keys := by
  rw [values, keys, List.map_map]
  exact List.map_congr_left (key_of_mem_entries fun e he => by cases he)

theorem mem_values_setEach {a : α} {as : List α} : a ∈ (setEach key .empty as).values ↔
    (as.filter fun b => decide (key b = key a)).getLast? = some a := by
  have hget : (setEach key .empty as).get? (key a) =
      (as.filter fun b => decide (key b = key a)).getLast? := by
    rw [get?_setEach, get?_empty, Option.or_none]
  rw [← hget, get?_eq_some, values, List.mem_map]
  constructor
  · rintro ⟨e, he, rfl⟩
    rw [key_of_mem_entries (fun e he => by cases he) e he]
    exact he
  · intro he
    exact ⟨_, he, rfl⟩

end Each

section New

variable {m : OrderedMap κ α} {key : α → κ}

/-- The elements whose key none of those before them has. -/
def firstOnes (key : α → κ) (before : List α) : List α → List α
  | [] => []
  | a :: as =>
    if key a ∈ before.map key then firstOnes key (a :: before) as
    else a :: firstOnes key (a :: before) as

/-- `if (!m.has(key(a))) m.set(key(a), a)`, for each element. -/
def setNewEach (key : α → κ) (m : OrderedMap κ α) (as : List α) : OrderedMap κ α :=
  as.foldl (fun m a => if (m.get? (key a)).isSome then m else m.set (key a) a) m

theorem firstOnes_sublist (key : α → κ) (before as : List α) :
    (firstOnes key before as).Sublist as := by
  induction as generalizing before with
  | nil => exact List.Sublist.refl _
  | cons a as ih =>
      rw [firstOnes]
      by_cases h : key a ∈ before.map key
      · rw [if_pos h]
        exact (ih (a :: before)).cons a
      · rw [if_neg h]
        exact (ih (a :: before)).cons_cons a

/-- What is before matters only by the keys that it has. -/
theorem firstOnes_congr {before before' as : List α}
    (h : ∀ k, k ∈ before.map key ↔ k ∈ before'.map key) :
    firstOnes key before as = firstOnes key before' as := by
  induction as generalizing before before' with
  | nil => rfl
  | cons a as ih =>
      have hnext : firstOnes key (a :: before) as = firstOnes key (a :: before') as := by
        apply ih
        intro k
        rw [List.map_cons, List.map_cons, List.mem_cons, List.mem_cons, h]
      rw [firstOnes, firstOnes, hnext]
      simp only [h]

theorem entries_setNewEach {before as : List α} (h : ∀ k, k ∈ m.keys ↔ k ∈ before.map key) :
    (setNewEach key m as).entries =
      m.entries ++ (firstOnes key before as).map fun a => (key a, a) := by
  induction as generalizing m before with
  | nil => simp [setNewEach, firstOnes]
  | cons a as ih =>
      rw [firstOnes]
      by_cases hmem : key a ∈ before.map key
      · have hsome : (m.get? (key a)).isSome = true := by
          rw [Option.isSome_iff_exists]
          exact mem_keys_iff.1 ((h (key a)).2 hmem)
        have hstep : setNewEach key m (a :: as) = setNewEach key m as := by
          unfold setNewEach
          rw [List.foldl_cons, if_pos hsome]
        have hbefore : ∀ k, k ∈ m.keys ↔ k ∈ (a :: before).map key := by
          intro k
          rw [h, List.map_cons, List.mem_cons]
          constructor
          · exact .inr
          · rintro (rfl | hk)
            · exact hmem
            · exact hk
        rw [hstep, if_pos hmem, ih hbefore]
      · have hnone : ¬ (m.get? (key a)).isSome = true := by
          rw [Option.isSome_iff_exists]
          exact fun hget => hmem ((h (key a)).1 (mem_keys_iff.2 hget))
        have hstep : setNewEach key m (a :: as) = setNewEach key (m.set (key a) a) as := by
          unfold setNewEach
          rw [List.foldl_cons, if_neg hnone]
        have hentries : (m.set (key a) a).entries = m.entries ++ [(key a, a)] := by
          rcases m.set_cases (key a) a with ⟨-, hset⟩ | ⟨front, w, back, hget, -, -⟩
          · exact hset
          · rw [hget] at hnone
            exact absurd rfl hnone
        have hbefore : ∀ k, k ∈ (m.set (key a) a).keys ↔ k ∈ (a :: before).map key := by
          intro k
          rw [mem_keys_set, h, List.map_cons, List.mem_cons]
        rw [hstep, if_neg hmem, ih hbefore, hentries, List.append_assoc, List.map_cons]
        rfl

/-- The keys after a list has been set: those of the list, and the others. -/
theorem perm_keys_setEach {as : List α} : (setEach key m as).keys.Perm
    ((as.map key).dedup ++ m.keys.filter fun k => decide (k ∉ as.map key)) := by
  have hdisjoint : ((as.map key).dedup ++ m.keys.filter fun k => decide (k ∉ as.map key)).Nodup := by
    refine List.Nodup.append (List.nodup_dedup _) (m.nodup.filter _) ?_
    intro k hk hk'
    rw [List.mem_dedup] at hk
    exact of_decide_eq_true (List.mem_filter.1 hk').2 hk
  refine (List.perm_ext_iff_of_nodup (setEach key m as).nodup hdisjoint).2 fun k => ?_
  rw [List.mem_append, List.mem_dedup, List.mem_filter, decide_eq_true_eq]
  refine mem_keys_setEach.trans ?_
  tauto

theorem mem_entries_set {k : κ} {v : α} {e : κ × α} :
    e ∈ (m.set k v).entries ↔ e = (k, v) ∨ e ∈ m.entries ∧ e.1 ≠ k := by
  obtain ⟨k', w⟩ := e
  rw [← get?_eq_some, ← get?_eq_some]
  by_cases h : k' = k
  · subst h
    rw [get?_set_self]
    simp [eq_comm]
  · rw [get?_set_of_ne h]
    simp [h]

/-- The entries after a list without repeated keys has been set. -/
theorem perm_entries_setEach {as : List α} (has : (as.map key).Nodup) :
    (setEach key m as).entries.Perm
      (as.map (fun a => (key a, a)) ++ m.entries.filter fun e => decide (e.1 ∉ as.map key)) := by
  induction as generalizing m with
  | nil => simp [setEach]
  | cons a as ih =>
      rw [List.map_cons, List.nodup_cons] at has
      have hstep : setEach key m (a :: as) = setEach key (m.set (key a) a) as := rfl
      have hset : ((m.set (key a) a).entries.filter fun e => decide (e.1 ∉ as.map key)).Perm
          ((key a, a) :: m.entries.filter fun e => decide (e.1 ∉ (a :: as).map key)) := by
        have hfresh : (key a, a) ∉ m.entries.filter fun e => decide (e.1 ∉ (a :: as).map key) := by
          intro hmem
          have hne := of_decide_eq_true (List.mem_filter.1 hmem).2
          exact hne (List.mem_map.2 ⟨a, List.mem_cons_self, rfl⟩)
        have hset : (m.set (key a) a).entries.Nodup := (m.set (key a) a).nodup.of_map Prod.fst
        have hold : m.entries.Nodup := m.nodup.of_map Prod.fst
        refine (List.perm_ext_iff_of_nodup (hset.filter _)
          (List.nodup_cons.2 ⟨hfresh, hold.filter _⟩)).2 fun e => ?_
        rw [List.mem_filter, mem_entries_set, List.mem_cons, List.mem_filter, decide_eq_true_eq,
          decide_eq_true_eq, List.map_cons, List.mem_cons, not_or]
        constructor
        · rintro ⟨rfl | ⟨he, hne⟩, has'⟩
          · exact .inl rfl
          · exact .inr ⟨he, hne, has'⟩
        · rintro (rfl | ⟨he, hne, has'⟩)
          · exact ⟨.inl rfl, has.1⟩
          · exact ⟨.inr ⟨he, hne⟩, has'⟩
      rw [hstep]
      refine (ih has.2).trans ?_
      refine (hset.append_left _).trans ?_
      exact List.perm_middle

end New

end OrderedMap
end Js
