import Rendezvous.Broker.Registry

namespace Rendezvous.Registry

variable {r : Registry} {e x : Registration} {n m : Name} {h : Nat}

def Unique (r : Registry) : Prop := r.entries.Pairwise fun a b => a.name ≠ b.name

theorem name_eq_of_find? (hf : r.find? n = some e) : e.name = n := by
  have h := List.find?_some hf
  exact of_decide_eq_true h

theorem mem_of_find? (hf : r.find? n = some e) : e ∈ r.entries :=
  List.mem_of_find?_eq_some hf

theorem find?_eq_none_iff : r.find? n = none ↔ ∀ x ∈ r.entries, x.name ≠ n := by
  simp [find?]

theorem mem_erase : x ∈ (r.erase n).entries ↔ x ∈ r.entries ∧ x.name ≠ n := by
  simp [erase]

theorem erase_eq_self (hf : r.find? n = none) : r.erase n = r := by
  have hn := find?_eq_none_iff.mp hf
  exact congrArg Registry.mk <| List.filter_eq_self.mpr fun x hx => decide_eq_true (hn x hx)

theorem mem_register : x ∈ (r.register e).2.entries ↔ x = e ∨ x ∈ r.entries ∧ x.name ≠ e.name := by
  simp [register, mem_erase]

theorem find?_erase : (r.erase m).find? n = if m = n then none else r.find? n := by
  simp only [find?, erase, List.find?_filter]
  split
  case isTrue hm  => simp [hm]
  case isFalse hm =>
    congr 1
    funext x
    by_cases hx : x.name = n
    case pos => simp [hx, Ne.symm hm]
    case neg => simp [hx]

theorem find?_register : (r.register x).2.find? n = if x.name = n then some x else r.find? n := by
  rw [register, find?, List.find?_cons]
  by_cases hn : x.name = n
  case pos => simp [hn]
  case neg =>
    have old : (r.erase x.name).find? n = r.find? n := by rw [find?_erase, if_neg hn]
    simp only [hn, decide_false, if_false]
    exact old

theorem mem_of_unregister (hx : x ∈ (r.unregister n h).2.entries) : x ∈ r.entries := by
  unfold unregister at hx
  (repeat' split at hx) <;> first | exact hx | exact (mem_erase.mp hx).left

theorem find?_unregister :
    (r.unregister m h).2.find? n = some e ↔ r.find? n = some e ∧ ¬(m = n ∧ e.handle = h) := by
  unfold unregister
  split
  case h_2 hf =>
    simp only [iff_self_and]
    rintro hn ⟨rfl, -⟩
    cases hf.symm.trans hn
  case h_1 x hf =>
    by_cases hm : m = n
    case neg =>
      split
      · simp [find?_erase, hm]
      · simp [hm]
    case pos =>
      subst hm
      split
      case isTrue hx =>
        rw [find?_erase, if_pos rfl, hf]
        simp only [reduceCtorEq, Option.some.injEq, true_and, false_iff, not_and]
        exact fun he hn => hn (he ▸ hx)
      case isFalse hx =>
        simp only [hf, Option.some.injEq, true_and, iff_self_and]
        exact fun he => he ▸ hx

namespace Unique

theorem empty : Unique {} := .nil

theorem erase (u : r.Unique) : (r.erase n).Unique := u.filter _

theorem register (u : r.Unique) : (r.register e).2.Unique :=
  .cons (fun _ hx => (mem_erase.mp hx).right.symm) u.erase

theorem eq_of_name_eq (u : r.Unique) (hx : x ∈ r.entries) (he : e ∈ r.entries)
    (hn : x.name = e.name) : x = e := by
  unfold Unique at u
  induction hl : r.entries generalizing r <;> rw [hl] at u hx he
  case nil => cases hx
  case cons es hi =>
    cases u
    case cons u h =>
    cases hx <;> cases he
    case head.head       => rfl
    case head.tail he    => exact absurd hn <| h _ he
    case tail.head hx    => exact absurd hn.symm <| h _ hx
    case tail.tail hx he => exact hi (r := ⟨es⟩) u hx he rfl

theorem find?_of_mem (u : r.Unique) (he : e ∈ r.entries) : r.find? e.name = some e := by
  cases hf : r.find? e.name
  case none   => exact absurd rfl <| find?_eq_none_iff.mp hf e he
  case some x => rw [u.eq_of_name_eq (mem_of_find? hf) he (name_eq_of_find? hf)]

theorem find?_eq_some_iff (u : r.Unique) : r.find? n = some e ↔ e ∈ r.entries ∧ e.name = n :=
  ⟨fun hf => ⟨mem_of_find? hf, name_eq_of_find? hf⟩, fun ⟨he, hn⟩ => hn ▸ u.find?_of_mem he⟩

theorem unregister (u : r.Unique) : (r.unregister n h).2.Unique := by
  unfold Registry.unregister
  split
  · split
    · exact u.erase
    · exact u
  · exact u

theorem mem_unregister (u : r.Unique) :
    x ∈ (r.unregister n h).2.entries ↔ x ∈ r.entries ∧ ¬(x.name = n ∧ x.handle = h) := by
  unfold Registry.unregister
  split
  case h_2 hf =>
    simp only [iff_self_and]
    exact fun hx hc => find?_eq_none_iff.mp hf x hx hc.left
  case h_1 e hf =>
    have hn := name_eq_of_find? hf
    have same (hx : x ∈ r.entries) (hc : x.name = n) : x = e :=
      u.eq_of_name_eq hx (mem_of_find? hf) (hc.trans hn.symm)
    split
    case isTrue hh =>
      simp only [mem_erase, and_congr_right_iff]
      exact fun hx => ⟨fun hc h => hc h.left, fun hc h => hc ⟨h, same hx h ▸ hh⟩⟩
    case isFalse hh =>
      simp only [iff_self_and]
      exact fun hx hc => hh <| same hx hc.left ▸ hc.right

end Unique
end Rendezvous.Registry
