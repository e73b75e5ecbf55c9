import Mathlib.Data.List.Sort

/-!
# Merkle trees without an order of siblings

Layers over a list of leaves: neighbours are joined by an operation that does not depend on their
order, and a last node without a neighbour moves up as it is. A proof is the list of the siblings on
the way to the root, and it is checked by joining them to the leaf one after another.
-/

namespace Merkle

variable {α : Type*} {node : α → α → α}

section Tree

def above (node : α → α → α) : List α → List α
  | [] => []
  | [a] => [a]
  | a :: b :: l => node a b :: above node l

/-- The layers from the leaves up; the first argument bounds their number. -/
def layersFrom (node : α → α → α) : ℕ → List α → List (List α)
  | 0, l => [l]
  | n + 1, l => if l.length ≤ 1 then [l] else l :: layersFrom node n (above node l)

def layers (node : α → α → α) (l : List α) : List (List α) := layersFrom node l.length l

def root (node : α → α → α) (l : List α) : Option α := (layers node l).getLast?.bind List.head?

def siblingIndex (i : ℕ) : ℕ := if i % 2 = 1 then i - 1 else i + 1

def siblings : List (List α) → ℕ → List α
  | [], _ => []
  | layer :: above, i => layer[siblingIndex i]?.toList ++ siblings above (i / 2)

def proofAt (node : α → α → α) (l : List α) (i : ℕ) : List α := siblings (layers node l) i

def lastIndex [DecidableEq α] (leaf : α) (l : List α) : Option ℕ :=
  (l.zipIdx.filter fun p => p.1 = leaf).getLast?.map Prod.snd

/-- The proof of a leaf; one that is not in the tree has none. -/
def proofOf [DecidableEq α] (node : α → α → α) (l : List α) (leaf : α) : List α :=
  match lastIndex leaf l with
  | some i => proofAt node l i
  | none => []

end Tree

section Above

theorem length_above (node : α → α → α) (l : List α) :
    (above node l).length = (l.length + 1) / 2 := by
  induction l using above.induct with
  | case1 => simp [above]
  | case2 a => simp [above]
  | case3 a b l ih =>
      simp only [above, List.length_cons, ih]
      omega

/-- The node above a position is the one of the position, joined with its sibling if it has one. -/
theorem getElem?_above (hnode : ∀ a b, node a b = node b a) {l : List α} {i : ℕ} {a : α}
    (h : l[i]? = some a) :
    (above node l)[i / 2]? = some (l[siblingIndex i]?.toList.foldl node a) := by
  induction l using above.induct generalizing i with
  | case1 => cases h
  | case2 b =>
      match i with
      | 0 => simpa [above, siblingIndex] using h
      | i + 1 => cases h
  | case3 b c l ih =>
      match i with
      | 0 =>
          obtain rfl : b = a := Option.some.inj h
          simp [above, siblingIndex]
      | 1 =>
          obtain rfl : c = a := Option.some.inj h
          simp [above, siblingIndex, hnode c b]
      | i + 2 =>
          have hsibling : siblingIndex (i + 2) = siblingIndex i + 2 := by
            unfold siblingIndex
            split_ifs <;> omega
          have hhalf : (i + 2) / 2 = i / 2 + 1 := by omega
          rw [hsibling, hhalf]
          simpa only [above, List.getElem?_cons_succ] using ih h

end Above

section Proofs

/-- A node that is alone has no siblings. -/
theorem getLast?_lastLayer {l : List α} {i : ℕ} {a : α} (hl : l.length ≤ 1) (h : l[i]? = some a) :
    [l].getLast? = some [(siblings [l] i).foldl node a] := by
  have hi := (List.getElem?_eq_some_iff.1 h).1
  obtain rfl : i = 0 := by omega
  obtain ⟨b, rfl⟩ := List.length_eq_one_iff.1 (by omega : l.length = 1)
  obtain rfl : b = a := Option.some.inj h
  simp [siblings, siblingIndex]

/-- Joined with its siblings, a leaf yields the one node of the last layer. -/
theorem getLast?_layersFrom (hnode : ∀ a b, node a b = node b a) {n : ℕ} {l : List α} {i : ℕ} {a : α}
    (hn : l.length ≤ n + 1) (h : l[i]? = some a) :
    (layersFrom node n l).getLast? = some [(siblings (layersFrom node n l) i).foldl node a] := by
  induction n generalizing l i a with
  | zero => exact getLast?_lastLayer hn h
  | succ n ih =>
      by_cases hl : l.length ≤ 1
      · rw [layersFrom, if_pos hl]
        exact getLast?_lastLayer hl h
      · rw [layersFrom, if_neg hl]
        have hlength := length_above node l
        have hup := ih (by omega) (getElem?_above hnode h)
        rw [siblings, List.foldl_append, List.getLast?_cons, hup, Option.getD_some]

variable {l : List α} {i : ℕ} {a : α}

/-- A proof leads from its leaf to the root. -/
theorem root_eq_foldl (hnode : ∀ a b, node a b = node b a) (h : l[i]? = some a) :
    root node l = some ((proofAt node l i).foldl node a) := by
  rw [root, layers, getLast?_layersFrom hnode (by omega) h]
  rfl

theorem lastIndex_of_mem [DecidableEq α] (h : a ∈ l) :
    ∃ i, lastIndex a l = some i ∧ l[i]? = some a := by
  obtain ⟨j, hj⟩ := List.getElem?_of_mem h
  have hmem : (a, j) ∈ l.zipIdx.filter fun p => p.1 = a := by
    simp [List.mk_mem_zipIdx_iff_getElem?, hj]
  have hp := List.getLast?_eq_some_getLast (List.ne_nil_of_mem hmem)
  set p := (l.zipIdx.filter fun p => p.1 = a).getLast (List.ne_nil_of_mem hmem)
  obtain ⟨hfound, hleaf⟩ := List.mem_filter.1 (List.mem_of_getLast? hp)
  have hleaf : p.1 = a := of_decide_eq_true hleaf
  refine ⟨p.2, by rw [lastIndex, hp]; rfl, ?_⟩
  rw [← hleaf]
  exact List.mk_mem_zipIdx_iff_getElem?.1 hfound

/-- The proof of every leaf of the tree leads to the root. -/
theorem root_eq_foldl_proofOf [DecidableEq α] (hnode : ∀ a b, node a b = node b a) (h : a ∈ l) :
    root node l = some ((proofOf node l a).foldl node a) := by
  obtain ⟨i, hi, hleaf⟩ := lastIndex_of_mem h
  rw [proofOf, hi]
  exact root_eq_foldl hnode hleaf

end Proofs

section SortedPairs
variable [LinearOrder α]

/-- An operation that is applied to the smaller of two values first. -/
def sortedPair (f : α → α → α) (a b : α) : α := f (min a b) (max a b)

theorem sortedPair_comm (f : α → α → α) (a b : α) : sortedPair f a b = sortedPair f b a := by
  rw [sortedPair, sortedPair, min_comm, max_comm]

theorem sortedPair_eq_ite (f : α → α → α) (a b : α) :
    sortedPair f a b = if b < a then f b a else f a b := by
  unfold sortedPair
  split_ifs with h
  · rw [min_eq_right h.le, max_eq_left h.le]
  · rw [min_eq_left (not_lt.1 h), max_eq_right (not_lt.1 h)]

def sortLeaves (l : List α) : List α := l.insertionSort (· ≤ ·)

theorem mem_sortLeaves {l : List α} {a : α} : a ∈ sortLeaves l ↔ a ∈ l :=
  (List.perm_insertionSort (· ≤ ·) l).mem_iff

/-- The sorted leaves do not tell the order that they came in. -/
theorem sortLeaves_eq_of_perm {l m : List α} (h : l.Perm m) : sortLeaves l = sortLeaves m := by
  have hperm : (sortLeaves l).Perm (sortLeaves m) :=
    (List.perm_insertionSort (· ≤ ·) l).trans (h.trans (List.perm_insertionSort (· ≤ ·) m).symm)
  exact hperm.eq_of_sortedLE List.sortedLE_insertionSort List.sortedLE_insertionSort

end SortedPairs

end Merkle
