import Mathlib.Data.Nat.Count

namespace Rendezvous

variable {α β : Type} {k : Nat → Bool} {g : α → β} {l : List α} {a : α} {i j : Nat}

-- The number of kept places below a place.
def rank (k : Nat → Bool) (i : Nat) : Nat := Nat.count (fun j => k j) i

def sift (k : Nat → Bool) (g : α → β) : List α → List β
  | [] => []
  | a :: l => (if k 0 then [g a] else []) ++ sift (fun i => k (i + 1)) g l

theorem rank_zero : rank k 0 = 0 := Nat.count_zero _

theorem rank_succ : rank k (i + 1) = (if k 0 then 1 else 0) + rank (fun j => k (j + 1)) i := by
  simp [rank, Nat.count_succ', Nat.add_comm]

theorem rank_inj (hi : k i = true) (hj : k j = true) : rank k i = rank k j ↔ i = j :=
  ⟨Nat.count_injective hi hj, fun h => h ▸ rfl⟩

@[simp]
theorem length_sift : (sift k g l).length = rank k l.length := by
  induction l generalizing k
  case nil => exact rank_zero.symm
  case cons a l hi =>
    rw [sift, List.length_append, hi, List.length_cons, rank_succ]
    split <;> rfl

theorem getElem?_sift (hi : k i = true) : (sift k g l)[rank k i]? = l[i]?.map g := by
  induction l generalizing k i
  case nil => rfl
  case cons a l hl =>
    cases i
    case zero => simp [sift, rank_zero, hi]
    case succ i =>
      rw [sift, rank_succ, List.getElem?_cons_succ, ← hl (k := fun i => k (i + 1)) hi]
      split
      · rw [Nat.add_comm, List.singleton_append, List.getElem?_cons_succ]
      · rw [Nat.zero_add, List.nil_append]

theorem of_getElem?_sift {b : β} (h : (sift k g l)[j]? = some b) :
    ∃ i a, k i = true ∧ rank k i = j ∧ l[i]? = some a ∧ g a = b := by
  induction l generalizing k j
  case nil => cases h
  case cons a l hl =>
    rw [sift] at h
    have later {j} (h : (sift (fun i => k (i + 1)) g l)[j]? = some b) :
        ∃ i c, k (i + 1) = true ∧ rank (fun i => k (i + 1)) i = j ∧ l[i]? = some c ∧ g c = b :=
      hl h
    cases hk : k 0 <;> rw [hk] at h
    case false =>
      have ⟨i, c, hi, hr, hc⟩ := later h
      exact ⟨i + 1, c, hi, by rw [rank_succ, hk, hr, if_neg Bool.false_ne_true, Nat.zero_add], hc⟩
    case true =>
      cases j
      case zero => exact ⟨0, a, hk, rank_zero, rfl, Option.some.inj h⟩
      case succ j =>
        have ⟨i, c, hi, hr, hc⟩ := later h
        exact ⟨i + 1, c, hi, by rw [rank_succ, hk, hr, if_pos rfl, Nat.add_comm], hc⟩

theorem sift_append_singleton :
    sift k g (l ++ [a]) = sift k g l ++ if k l.length then [g a] else [] := by
  induction l generalizing k
  case nil         => simp [sift]
  case cons c l hi => rw [List.cons_append, sift, sift, hi, List.length_cons, List.append_assoc]

theorem sift_modify {f : α → α} {f' : β → β} (hi : k i = true) (h : ∀ a, g (f a) = f' (g a)) :
    sift k g (l.modify i f) = (sift k g l).modify (rank k i) f' := by
  induction l generalizing k i
  case nil => simp [sift]
  case cons a l hl =>
    cases i
    case zero => simp [sift, rank_zero, hi, h]
    case succ i =>
      rw [List.modify_succ_cons, sift, sift, rank_succ, hl (k := fun i => k (i + 1)) hi]
      split
      · rw [Nat.add_comm, List.singleton_append, List.singleton_append, List.modify_succ_cons]
      · rw [Nat.zero_add, List.nil_append, List.nil_append]

theorem sift_set (hi : k i = true) : sift k g (l.set i a) = (sift k g l).set (rank k i) (g a) := by
  rw [List.set_eq_modify, List.set_eq_modify]
  exact sift_modify hi fun _ => rfl

theorem sift_modify_of_not {f : α → α} (hi : k i = false) :
    sift k g (l.modify i f) = sift k g l := by
  induction l generalizing k i
  case nil => simp
  case cons a l hl =>
    cases i
    case zero   => simp [sift, hi]
    case succ i => rw [List.modify_succ_cons, sift, sift, hl (k := fun i => k (i + 1)) hi]

theorem sift_set_of_not (hi : k i = false) : sift k g (l.set i a) = sift k g l := by
  rw [List.set_eq_modify, sift_modify_of_not hi]

end Rendezvous
