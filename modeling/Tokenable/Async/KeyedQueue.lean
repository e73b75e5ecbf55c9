import Mathlib.Data.Finset.Dedup
import Mathlib.Data.Finset.Erase
import Mathlib.Data.Finset.Insert
import Mathlib.Data.List.Sort

/-!
# A sorted queue with the set of its keys

The queue holds each key once, and a set holds the keys of the queue. Sorting in a new element and
taking elements out keeps this, when the set is changed along with the queue.
-/

variable {α κ : Type} [DecidableEq κ]

structure KeyedQueue (key : α → κ) (before : α → α → Prop) (queue : List α) (keys : Finset κ) :
    Prop where
  keys_eq : keys = (queue.map key).toFinset
  nodup : (queue.map key).Nodup
  sorted : queue.Pairwise before

namespace KeyedQueue

variable {key : α → κ} {before : α → α → Prop} {queue taken rest : List α} {keys : Finset κ}

theorem nil : KeyedQueue key before [] ∅ := ⟨rfl, List.nodup_nil, List.Pairwise.nil⟩

theorem mem_keys (h : KeyedQueue key before queue keys) {k : κ} : k ∈ keys ↔ k ∈ queue.map key := by
  rw [h.keys_eq, List.mem_toFinset]

/-- Push an element with a new key and sort. -/
theorem push [DecidableRel before] [Std.Total before] [IsTrans α before]
    (h : KeyedQueue key before queue keys) {a : α} (ha : key a ∉ keys) :
    KeyedQueue key before ((queue ++ [a]).insertionSort before) (insert (key a) keys) := by
  have hperm : ((queue ++ [a]).insertionSort before).Perm (queue ++ [a]) :=
    List.perm_insertionSort _ _
  have hmap := hperm.map key
  refine ⟨?_, ?_, List.pairwise_insertionSort _ _⟩
  · ext k
    rw [Finset.mem_insert, h.mem_keys, List.mem_toFinset, hmap.mem_iff, List.map_append,
      List.map_singleton, List.mem_append, List.mem_singleton]
    exact or_comm
  · rw [hmap.nodup_iff, List.map_append, List.map_singleton]
    apply List.nodup_append.mpr
    refine ⟨h.nodup, List.nodup_singleton _, ?_⟩
    intro k hk l hl hkl
    rw [List.mem_singleton.mp hl] at hkl
    rw [hkl] at hk
    exact ha (h.mem_keys.mpr hk)

/-- The keys without those of the elements that are taken out. -/
def without (key : α → κ) (keys : Finset κ) (taken : List α) : Finset κ :=
  taken.foldl (fun ks a => ks.erase (key a)) keys

theorem mem_without {k : κ} : k ∈ without key keys taken ↔ k ∈ keys ∧ k ∉ taken.map key := by
  unfold without
  induction taken generalizing keys with
  | nil => simp
  | cons a taken ih =>
    rw [List.foldl_cons, ih, Finset.mem_erase, List.map_cons, List.mem_cons, not_or]
    tauto

theorem without_subset : without key keys taken ⊆ keys := fun _ hk => (mem_without.mp hk).1

/-- Take elements out, and their keys. -/
theorem take_out (h : KeyedQueue key before queue keys) (hrest : rest.Sublist queue)
    (hperm : queue.Perm (taken ++ rest)) :
    KeyedQueue key before rest (without key keys taken) := by
  have hmap := hperm.map key
  rw [List.map_append] at hmap
  have hnodup := hmap.nodup_iff.mp h.nodup
  refine ⟨?_, (hrest.map key).nodup h.nodup, h.sorted.sublist hrest⟩
  ext k
  rw [mem_without, h.mem_keys, hmap.mem_iff, List.mem_append, List.mem_toFinset]
  constructor
  · rintro ⟨htaken | hrest, hnot⟩
    · exact absurd htaken hnot
    · exact hrest
  · intro hk
    exact ⟨.inr hk, fun htaken => (List.nodup_append.mp hnodup).2.2 k htaken k hk rfl⟩

end KeyedQueue
