import Mathlib.Data.List.TakeDrop

/-!
# Admission in arrival order

Callers are let in in the order of their calls, each as soon as fewer than `capacity` of those
inside have not left. Who is inside is then a function of the calls so far and of how many callers
have left, whatever the order in which they leave.
-/

namespace Admission
variable {ι : Type} (capacity : ℕ) (calls : List ι) (left : ℕ)

def admitted : List ι := calls.take (capacity + left)

def waiting : List ι := calls.drop (capacity + left)

theorem admitted_append_waiting :
    admitted capacity calls left ++ waiting capacity calls left = calls :=
  List.take_append_drop (capacity + left) calls

theorem length_admitted_le : (admitted capacity calls left).length ≤ capacity + left := by
  rw [admitted, List.length_take]
  exact Nat.min_le_left _ _

/-- There is room exactly when nobody waits and the next caller would be let in. -/
theorem length_admitted_lt_iff :
    (admitted capacity calls left).length < capacity + left ↔ calls.length < capacity + left := by
  rw [admitted, List.length_take]
  omega

variable {capacity calls left}

theorem length_admitted_of_waiting (h : waiting capacity calls left ≠ []) :
    (admitted capacity calls left).length = capacity + left := by
  have hlong : capacity + left < calls.length := by
    by_contra hshort
    exact h (List.drop_eq_nil_of_le (by omega))
  rw [admitted, List.length_take]
  omega

section Arrive
variable (i : ι)

theorem admitted_arrive_of_room (h : calls.length < capacity + left) :
    admitted capacity (calls ++ [i]) left = admitted capacity calls left ++ [i] := by
  have hlong : (calls ++ [i]).length ≤ capacity + left := by
    rw [List.length_append, List.length_singleton]
    omega
  rw [admitted, admitted, List.take_of_length_le hlong, List.take_of_length_le (by omega)]

theorem waiting_arrive_of_room (h : calls.length < capacity + left) :
    waiting capacity (calls ++ [i]) left = waiting capacity calls left := by
  have hlong : (calls ++ [i]).length ≤ capacity + left := by
    rw [List.length_append, List.length_singleton]
    omega
  rw [waiting, waiting, List.drop_eq_nil_of_le hlong, List.drop_eq_nil_of_le (by omega)]

theorem admitted_arrive_of_full (h : capacity + left ≤ calls.length) :
    admitted capacity (calls ++ [i]) left = admitted capacity calls left := by
  rw [admitted, admitted, List.take_append_of_le_length h]

theorem waiting_arrive_of_full (h : capacity + left ≤ calls.length) :
    waiting capacity (calls ++ [i]) left = waiting capacity calls left ++ [i] := by
  rw [waiting, waiting, List.drop_append_of_le_length h]

end Arrive

/-- Whoever leaves makes room for the caller that has waited longest. -/
theorem admitted_leave :
    admitted capacity calls (left + 1) =
      admitted capacity calls left ++ (waiting capacity calls left).head?.toList := by
  rw [admitted, admitted, waiting, List.head?_drop, ← Nat.add_assoc, List.take_add_one]

theorem waiting_leave :
    waiting capacity calls (left + 1) = (waiting capacity calls left).tail := by
  rw [waiting, waiting, List.tail_drop, Nat.add_assoc]

end Admission
