import Mathlib.Data.List.Induction
import Rendezvous.Proofs.Registry

namespace Rendezvous

theorem Name.eq_of_bytes_eq {a b : Name} (h : a.bytes = b.bytes) : a = b := by
  refine Name.ext <| String.toByteArray_inj.mp ?_
  exact ByteArray.ext <| Array.toList_inj.mp h

namespace Registry

variable {names : Nat → Name} {r : Registry} {e x : Registration} {n m : Name} {h : Nat}

inductive Call where
  | register (handle : Nat)
  | claim (name : Name)
  | unregister (name : Name) (handle : Nat)
deriving DecidableEq

inductive Answer where
  | registered (evicted : Option Registration)
  | claimed (found : Option Registration)
  | unregistered (removed : Bool)
deriving DecidableEq

def perform (names : Nat → Name) (r : Registry) : Call → Answer × Registry
  | .register h => (r.register ⟨h, names h⟩).map .registered id
  | .claim n => (r.claim n).map .claimed id
  | .unregister n h => (r.unregister n h).map .unregistered id

abbrev Deed := Call × Answer

namespace Deed

def evicts (h : Nat) : Deed → Bool
  | (_, .registered evicted) => evicted.any fun e => e.handle == h
  | _ => false

def claims (h : Nat) : Deed → Bool
  | (_, .claimed found) => found.any fun e => e.handle == h
  | _ => false

def unregisters (h : Nat) : Deed → Bool
  | (.unregister _ h', .unregistered removed) => removed && h' == h
  | _ => false

end Deed

structure History where
  past : List Deed := []
  registry : Registry := {}

def History.extend (names : Nat → Name) (x : History) (c : Call) : History where
  past := x.past ++ [(c, (x.registry.perform names c).1)]
  registry := (x.registry.perform names c).2

def history (names : Nat → Name) (calls : List Call) : History :=
  calls.foldl (History.extend names) {}

theorem history_snoc (names : Nat → Name) (calls : List Call) (c : Call) :
    history names (calls ++ [c]) = (history names calls).extend names c := by
  rw [history, List.foldl_append]
  rfl

def Call.Displaces (names : Nat → Name) (h : Nat) : Call → Prop
  | register h' => names h' = names h
  | claim n => n = names h
  | unregister n h' => n = names h ∧ h' = h

-- A handle has been registered, and nothing has displaced it since.
def Stands (names : Nat → Name) (calls : List Call) (h : Nat) : Prop :=
  ∃ before after, calls = before ++ .register h :: after ∧ ∀ c ∈ after, ¬c.Displaces names h

theorem not_stands_nil : ¬Stands names [] h := by
  rintro ⟨before, after, he, -⟩
  simp at he

theorem stands_snoc {calls : List Call} {c : Call} : Stands names (calls ++ [c]) h ↔
    c = .register h ∨ Stands names calls h ∧ ¬c.Displaces names h := by
  constructor
  case mp =>
    rintro ⟨before, after, he, keeps⟩
    cases after using List.reverseRecOn
    case nil => exact .inl (List.cons.inj (List.append_inj' he rfl).right).left
    case append_singleton after d _ =>
      rw [← List.cons_append, ← List.append_assoc] at he
      obtain ⟨hl, hd⟩ := List.append_inj' he rfl
      cases hd
      exact .inr ⟨⟨before, after, hl, fun c hc => keeps c (by simp [hc])⟩, keeps c (by simp)⟩
  case mpr =>
    rintro (rfl | ⟨⟨before, after, rfl, keeps⟩, hc⟩)
    · exact ⟨calls, [], rfl, by simp⟩
    · refine ⟨before, after ++ [c], by simp, fun d hd => ?_⟩
      rcases List.mem_append.mp hd with hd | hd
      · exact keeps d hd
      · exact List.mem_singleton.mp hd ▸ hc

theorem Unique.perform (u : r.Unique) {c : Call} : (r.perform names c).2.Unique := by
  cases c
  case register   => exact u.register
  case claim      => exact u.erase
  case unregister => exact u.unregister

def Named (names : Nat → Name) (r : Registry) : Prop := ∀ e ∈ r.entries, names e.handle = e.name

theorem Named.perform (hr : r.Named names) {c : Call} : (r.perform names c).2.Named names := by
  cases c
  case register h =>
    intro e he
    obtain rfl | ⟨he, -⟩ := mem_register.mp he
    · rfl
    · exact hr e he
  case claim n => exact fun e he => hr e (mem_erase.mp he).left
  case unregister n h => exact fun e he => hr e (mem_of_unregister he)

theorem history_sound (names : Nat → Name) (calls : List Call) :
    (history names calls).registry.Unique ∧ (history names calls).registry.Named names := by
  induction calls using List.reverseRecOn
  case nil => exact ⟨.empty, nofun⟩
  case append_singleton calls c hi =>
    rw [history_snoc]
    exact ⟨hi.left.perform, hi.right.perform⟩

theorem calls_history (names : Nat → Name) (calls : List Call) :
    (history names calls).past.map Prod.fst = calls := by
  induction calls using List.reverseRecOn
  case nil => rfl
  case append_singleton calls c hi => rw [history_snoc, History.extend, List.map_append, hi]; rfl

theorem find?_perform {c : Call} : (r.perform names c).2.find? (names h) = some ⟨h, names h⟩ ↔
    c = .register h ∨ r.find? (names h) = some ⟨h, names h⟩ ∧ ¬c.Displaces names h := by
  cases c
  case register h' =>
    show (r.register ⟨h', names h'⟩).2.find? (names h) = _ ↔ _
    rw [find?_register, Call.Displaces]
    by_cases hn : names h' = names h
    case neg =>
      have ne : h' ≠ h := fun he => hn (he ▸ rfl)
      simp [hn, ne]
    case pos => simp [hn]
  case claim n =>
    show (r.erase n).find? (names h) = _ ↔ _
    rw [find?_erase, Call.Displaces]
    split <;> simp [*]
  case unregister n h' =>
    show (r.unregister n h').2.find? (names h) = _ ↔ _
    rw [find?_unregister, Call.Displaces]
    simp [eq_comm]

-- A handle stands under its name if it was the last to be registered there and is not displaced yet.
theorem find?_history {calls : List Call} :
    (history names calls).registry.find? (names h) = some ⟨h, names h⟩ ↔ Stands names calls h := by
  induction calls using List.reverseRecOn
  case nil =>
    simp only [not_stands_nil, iff_false]
    nofun
  case append_singleton calls c hi => rw [history_snoc, stands_snoc, ← hi, History.extend, find?_perform]

theorem Unique.pairwise_names (u : r.Unique) : r.names.Pairwise (· < ·) := by
  have le : r.names.Pairwise fun a b => decide (a ≤ b) = true := by
    refine List.pairwise_mergeSort (fun a b c hab hbc => ?_) (fun a b => ?_) _
    · exact decide_eq_true <| List.le_trans (of_decide_eq_true hab) (of_decide_eq_true hbc)
    · have total : a ≤ b ∨ b ≤ a := List.le_total ..
      simpa using total
  have ne : r.names.Pairwise (· ≠ ·) :=
    (List.mergeSort_perm ..).symm.pairwise (List.pairwise_map.mpr u) Ne.symm
  refine (le.and ne).imp fun {a b} hab => ?_
  have ⟨hle, hne⟩ := hab
  refine Classical.byContradiction fun hlt => hne <| Name.eq_of_bytes_eq ?_
  exact List.le_antisymm (of_decide_eq_true hle) (List.not_lt.mp hlt)

theorem length_names : r.names.length = r.size := by
  rw [names, List.length_mergeSort, List.length_map, size]

theorem contains_iff {s : String} : r.contains s = true ↔ ∃ n ∈ r.names, n.text = s := by
  simp [contains, names]

-- The entries of a registry are the one under a name, if there is one, and all others.
theorem Unique.perm (u : r.Unique) (n : Name) :
    ((r.find? n).toList ++ (r.erase n).entries).Perm r.entries := by
  have one : r.entries.filter (fun e => decide (e.name = n)) = (r.find? n).toList := by
    rw [find?, ← List.head?_filter]
    have apart : (r.entries.filter fun e => decide (e.name = n)).Pairwise _ := u.filter _
    have same : ∀ e ∈ r.entries.filter (fun e => decide (e.name = n)), e.name = n := by simp
    generalize r.entries.filter (fun e => decide (e.name = n)) = es at apart same
    obtain _ | ⟨e, _ | ⟨e', es⟩⟩ := es
    case nil      => rfl
    case cons.nil => rfl
    case cons.cons =>
      refine absurd ?_ ((List.pairwise_cons.mp apart).left e' (by simp))
      rw [same e (by simp), same e' (by simp)]
  have rest : (r.erase n).entries = r.entries.filter fun e => !decide (e.name = n) :=
    List.filter_congr fun e _ => decide_not
  rw [← one, rest]
  exact List.filter_append_perm ..

def count (r : Registry) (h : Nat) : Nat := r.entries.countP fun e => e.handle == h

theorem Unique.count_eq (u : r.Unique) (n : Name) (h : Nat) :
    r.count h = ((r.find? n).any fun e => e.handle == h).toNat + (r.erase n).count h := by
  rw [count, ← (u.perm n).countP_eq, List.countP_append]
  cases r.find? n
  case none   => rfl
  case some e => cases he : e.handle == h <;> simp [he, count]

theorem count_perform (names : Nat → Name) (u : r.Unique) (c : Call) (h : Nat) :
    (c == .register h).toNat + r.count h =
      (Deed.evicts h (c, (r.perform names c).1)).toNat +
      (Deed.claims h (c, (r.perform names c).1)).toNat +
      (Deed.unregisters h (c, (r.perform names c).1)).toNat + (r.perform names c).2.count h := by
  cases c
  case register h' =>
    show (Call.register h' == Call.register h).toNat + _ =
      ((r.find? (names h')).any fun e => e.handle == h).toNat + 0 + 0 + count ⟨_ :: _⟩ h
    have same : (Call.register h' == Call.register h) = (h' == h) := by simp [BEq.beq]
    rw [same, u.count_eq (names h') h, count, count, List.countP_cons]
    cases h' == h
    · simp
    · simp
      omega
  case claim n =>
    show 0 + _ = 0 + ((r.find? n).any fun e => e.handle == h).toNat + 0 + (r.erase n).count h
    rw [u.count_eq n h]
    omega
  case unregister n h' =>
    show 0 + _ =
      0 + 0 + ((r.unregister n h').1 && h' == h).toNat + (r.unregister n h').2.count h
    have eq := u.count_eq n h
    unfold unregister
    split
    case h_2 => simp
    case h_1 e hf =>
      rw [hf, Option.any_some] at eq
      split
      case isFalse => simp
      case isTrue he =>
        rw [he] at eq
        simp only [Bool.true_and]
        omega

theorem countP_snoc {α : Type} (l : List α) (a : α) (p : α → Bool) :
    (l ++ [a]).countP p = l.countP p + (p a).toNat := by
  rw [List.countP_append, List.countP_cons]
  cases p a <;> rfl

-- Whatever has come in has gone out or is there still.
theorem count_history (names : Nat → Name) (calls : List Call) (h : Nat) :
    calls.count (.register h) = (history names calls).past.countP (Deed.evicts h) +
      (history names calls).past.countP (Deed.claims h) +
      (history names calls).past.countP (Deed.unregisters h) +
      (history names calls).registry.count h := by
  induction calls using List.reverseRecOn
  case nil => rfl
  case append_singleton calls c hi =>
    have step := count_perform names (history_sound names calls).left c h
    rw [history_snoc, List.count, countP_snoc, History.extend]
    simp only [countP_snoc]
    rw [List.count] at hi
    omega

theorem count_eq_one_or_zero (u : r.Unique) (hr : r.Named names) (h : Nat) :
    r.count h = if ∃ e ∈ r.entries, e.handle = h then 1 else 0 := by
  have others : (r.erase (names h)).count h = 0 := by
    refine List.countP_eq_zero.mpr fun e he hh => ?_
    obtain ⟨he, hn⟩ := mem_erase.mp he
    exact hn (beq_iff_eq.mp hh ▸ (hr e he).symm)
  rw [u.count_eq (names h) h, others]
  split
  case isTrue hs =>
    obtain ⟨e, he, rfl⟩ := hs
    rw [hr e he, u.find?_of_mem he]
    simp
  case isFalse hs =>
    cases hf : r.find? (names h)
    case none   => rfl
    case some e =>
      have ne : e.handle ≠ h := fun he => hs ⟨e, mem_of_find? hf, he⟩
      simp [ne]

-- A registry keeps, under each name, the handle that was registered there last and has not been taken out
-- since, and a handle is not taken out under a name that it does not bear. Every registration of a handle
-- is answered for once, by its eviction, its claim, its removal or its place in the registry. The names
-- are listed in order, each once, and no others.
theorem last_registration_stands (names : Nat → Name) (calls : List Call) :
    let past := (history names calls).past
    let r := (history names calls).registry
    past.map Prod.fst = calls ∧
    (∀ n e, r.find? n = some e ↔ e.name = n ∧ names e.handle = n ∧ Stands names calls e.handle) ∧
    (∀ n h, names h ≠ n → r.unregister n h = (false, r)) ∧
    (∀ h, calls.count (.register h) =
      past.countP (Deed.evicts h) + past.countP (Deed.claims h) + past.countP (Deed.unregisters h) +
        if ∃ e ∈ r.entries, e.handle = h then 1 else 0) ∧
    r.names.Pairwise (· < ·) ∧ r.names.length = r.size ∧
    ∀ s, r.contains s = true ↔ ∃ n ∈ r.names, n.text = s := by
  have ⟨unique, named⟩ := history_sound names calls
  have under {n e} (hf : (history names calls).registry.find? n = some e) :
      e.name = n ∧ names e.handle = n := by
    have hn := name_eq_of_find? hf
    exact ⟨hn, (named e (mem_of_find? hf)).trans hn⟩
  refine ⟨calls_history names calls, fun n e => ⟨fun hf => ?_, ?_⟩, fun n h hn => ?_, fun h => ?_,
    unique.pairwise_names, length_names, fun s => contains_iff⟩
  case refine_1 =>
    obtain ⟨rfl, hh⟩ := under hf
    refine ⟨rfl, hh, find?_history.mp ?_⟩
    rw [hh, hf]
  case refine_2 =>
    rintro ⟨hn, hh, stands⟩
    have hf := find?_history.mpr stands
    rw [hh] at hf
    rw [hf, ← hn]
  case refine_3 =>
    unfold unregister
    split
    case h_2 => rfl
    case h_1 e hf =>
      have ne : e.handle ≠ h := fun hh => hn (hh ▸ (under hf).right)
      exact if_neg ne
  case refine_4 => rw [count_history names, count_eq_one_or_zero unique named]

example (cam lab : Name) (h : cam ≠ lab) :
    (history (fun _ => cam) [.register 1, .register 1, .unregister lab 1, .claim cam]).past.map Prod.snd =
      [.registered none, .registered (some ⟨1, cam⟩), .unregistered false, .claimed (some ⟨1, cam⟩)] := by
  simp [history, History.extend, perform, register, claim, unregister, find?, erase, h]

end Registry
end Rendezvous
