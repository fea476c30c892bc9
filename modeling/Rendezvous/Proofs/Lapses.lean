import Rendezvous.Proofs.Answers
import Rendezvous.Proofs.Departures

namespace Rendezvous.Broker

variable {a b b' c : Broker} {e : Event} {es : List Event} {config : Config} {policy : Policy}
variable {i p q w h : Nat} {n : Name} {x y : Registration} {r : Registry}
variable {hs : List Handle} {hd : Handle}
variable {s s' : Stake} {P P' : Happening}

def Lapses (x : Registration) : Happening := fun b _ b' =>
  x ∈ b.registry.entries ∧ x ∉ b'.registry.entries

def Displaces (x : Registration) : Happening := fun b e b' =>
  ∃ q y, Registers q y b e b' ∧ y.name = x.name ∧ b.registry.find? x.name = some x

def Retires (x : Registration) : Happening := fun b e b' =>
  ∃ i, e.place? = some i ∧ b.stake i = some (.provides x.handle) ∧
    b'.stake i ≠ some (.provides x.handle)

theorem Displaces.lapses (d : Displaces x b e b') (t : b.Tended) : Lapses x b e b' := by
  have ⟨q, y, ⟨_, _, _, new, hr⟩, hn, hf⟩ := d
  have hx := Registry.mem_of_find? hf
  refine ⟨hx, fun hx' => ?_⟩
  obtain rfl | ⟨-, ne⟩ := Registry.mem_register.mp (hr ▸ hx')
  · exact Nat.ne_of_lt (t.handle_lt hx) new
  · exact ne hn.symm

theorem Removes.lapses (r : Removes w x b e b') : Lapses x b e b' :=
  have ⟨_, _, hf, hr⟩ := r
  ⟨Registry.mem_of_find? hf, fun hx => (Registry.mem_erase.mp (hr ▸ hx)).right rfl⟩

-- A registration goes in one of three ways.
theorem Lapses.cause (l : Lapses x b e b') (sound : b.Sound) (step : b.Step e b') :
    Displaces x b e b' ∨ (∃ w, Removes w x b e b') ∨ Retires x b e b' := by
  have ⟨hx, gone⟩ := l
  have tended := sound.tended
  have found {n : Name} (hn : x ∉ (b.registry.erase n).entries) : n = x.name :=
    Decidable.byContradiction fun ne => hn <| Registry.mem_erase.mpr ⟨hx, fun he => ne he.symm⟩
  cases step.shift sound.wired
  case rests registry handles kept fresh => exact absurd (registry ▸ hx) gone
  case moves i q q' place before move after others =>
    generalize hr : b'.registry = r, b'.handles = hds at move gone
    cases move
    case registers n peer =>
      have hn : n = x.name := found fun hx' => gone <| Registry.mem_register.mpr <|
        .inr (Registry.mem_erase.mp hx')
      subst hn
      exact .inl ⟨i, ⟨b.handles.length, x.name⟩, ⟨place, before, after, rfl, hr⟩, rfl,
        tended.unique.find?_of_mem hx⟩
    case claims | misses =>
      have hn := found gone
      subst hn
      exact .inr <| .inl ⟨i, place, before, tended.unique.find?_of_mem hx, hr⟩
    case leaves h away =>
      have ⟨hd, hh, _⟩ := tended.leased before
      have own : x.handle = h := by
        by_contra ne
        exact gone <| (tended.mem_unregister hh).mpr ⟨hx, fun he => ne he.right⟩
      subst own
      refine .inr <| .inr ⟨i, place, before, fun stays => ?_⟩
      cases after.symm.trans stays
      obtain he | he := away <;> cases he
    all_goals exact absurd hx gone

theorem Lapses.lacks (l : Lapses x b e b') (sound : b.Sound) (step : b.Step e b') :
    b'.registry.Lacks x.handle := by
  have ⟨hx, gone⟩ := l
  intro y hy he
  have old : y ∈ b.registry.entries := by
    cases step.shift sound.wired
    case rests registry handles kept fresh => exact registry ▸ hy
    case moves place before move after others =>
      refine (move.listed sound.tended hy).resolve_right fun new => ?_
      exact Nat.ne_of_lt (sound.tended.handle_lt hx) (he.symm.trans new)
  have same := sound.tended.unique.eq_of_name_eq old hx (sound.tended.name_eq_of_handle_eq old hx he)
  exact gone (same ▸ hy)

theorem lacks_of_reaches (sound : a.Sound) (reach : a.Reaches b) (lt : h < a.handles.length)
    (l : a.registry.Lacks h) : b.registry.Lacks h := by
  refine (sound.stable (Q := fun b => h < b.handles.length ∧ b.registry.Lacks h) ?_ reach
    ⟨lt, l⟩).right
  intro b e b' sound step ⟨lt, l⟩
  have ⟨_, hh, _⟩ := (step.shift sound.wired).trails h _ (List.getElem?_eq_getElem lt)
  exact ⟨(List.getElem?_eq_some_iff.mp hh).choose, lacks_step l sound lt step⟩

-- A registration stays in force, or it has gone for good.
theorem mem_or_lacks (sound : a.Sound) (reach : a.Reaches b) (hx : x ∈ a.registry.entries) :
    x ∈ b.registry.entries ∨ b.registry.Lacks x.handle := by
  refine (sound.stable (Q := fun b => x.handle < b.handles.length ∧
    (x ∈ b.registry.entries ∨ b.registry.Lacks x.handle)) ?_ reach
    ⟨sound.tended.handle_lt hx, .inl hx⟩).right
  intro b e b' sound step ⟨lt, here⟩
  have ⟨_, hh, _⟩ := (step.shift sound.wired).trails _ _ (List.getElem?_eq_getElem lt)
  refine ⟨(List.getElem?_eq_some_iff.mp hh).choose, ?_⟩
  obtain hx | l := here
  · by_cases hx' : x ∈ b'.registry.entries
    case pos => exact .inl hx'
    case neg => exact .inr <| Lapses.lacks ⟨hx, hx'⟩ sound step
  · exact .inr <| lacks_step l sound lt step

theorem lacks_of_lapses (run : (fresh config policy).run? es = some b)
    (lapses : (fresh config policy).Occurs es (Lapses x)) :
    x.handle < b.handles.length ∧ b.registry.Lacks x.handle := by
  obtain ⟨before, b₁, e, b₂, run₁, next, reach, lapses⟩ := lapses.within run
  have sound := Sound.of_run run₁
  have step := step_of_step? next
  have ⟨_, hh, _⟩ := (step.shift sound.wired).trails _ _
    (List.getElem?_eq_getElem (sound.tended.handle_lt lapses.left))
  have ⟨_, hh', _⟩ := (sound.step step).trails reach _ _ hh
  exact ⟨(List.getElem?_eq_some_iff.mp hh').choose,
    lacks_of_reaches (sound.step step) reach (List.getElem?_eq_some_iff.mp hh).choose
      (lapses.lacks sound step)⟩

theorem meet_of_lapses
    (hP : ∀ {b e b'}, b.Sound → P b e b' → Lapses x b e b')
    (hP' : ∀ {b e b'}, b.Sound → P' b e b' → Lapses x b e b')
    (h : (fresh config policy).Occurs es P) (h' : (fresh config policy).Occurs es P') :
    ∃ b e b', (fresh config policy).Reaches b ∧ b.step? e = some b' ∧ P b e b' ∧ P' b e b' := by
  have apart {b e b' c f c'} (reach : (fresh config policy).Reaches b) (hs : b.step? e = some b')
      (l : Lapses x b e b') (later : b'.Reaches c) (l' : Lapses x c f c') : False := by
    have sound := Sound.of_reaches reach
    have step := step_of_step? hs
    have ⟨_, hh, _⟩ := (step.shift sound.wired).trails _ _
      (List.getElem?_eq_getElem (sound.tended.handle_lt l.left))
    exact lacks_of_reaches (sound.step step) later (List.getElem?_eq_some_iff.mp hh).choose
      (l.lacks sound step) x l'.left rfl
  refine h.meet h' (fun reach hs hq later hq' => ?_) (fun reach hs hq later hq' => ?_)
  all_goals have sound := Sound.of_reaches ((reach.trans (.of_step hs)).trans later)
  · exact apart reach hs (hP (.of_reaches reach) hq) later (hP' sound hq')
  · exact apart reach hs (hP' (.of_reaches reach) hq) later (hP sound hq')

-- What another provider has replaced no consumer takes out.
theorem not_removes_of_displaces (h : (fresh config policy).Occurs es (Displaces x)) :
    ¬(fresh config policy).Occurs es (Removes w x) := by
  intro h'
  have ⟨b, e, b', reach, _, ⟨q, y, ⟨_, _, _, new, hr⟩, _⟩, ⟨_, _, _, hr'⟩⟩ :=
    meet_of_lapses (x := x) (fun s d => d.lapses s.tended) (fun _ r => r.lapses) h h'
  have hy : y ∈ (b.registry.erase x.name).entries :=
    hr' ▸ hr ▸ Registry.mem_register.mpr (.inl rfl)
  have lt := (Sound.of_reaches reach).tended.handle_lt (Registry.mem_erase.mp hy).left
  exact Nat.ne_of_lt lt new

theorem Claims.removes (h : Claims w x b e b') : Removes w x b e b' :=
  have ⟨place, new, _, found, registry⟩ := h
  ⟨place, new, found, registry⟩

theorem not_handsOver_of_displaces (h : (fresh config policy).Occurs es (Displaces x)) :
    ¬(fresh config policy).Occurs es (HandsOver p w x) := fun handed =>
  not_removes_of_displaces h ((occurs_of_handsOver handed).right.mono Claims.removes)

theorem Registers.handles (h : Registers q y b e b') (sound : b.Sound) (step : b.Step e b') :
    ∃ peer, b'.handles =
      closeReplaced (b.registry.find? y.name) (b.handles ++ [{ name := y.name, peer }]) := by
  have ⟨place, new, holds, _, hr⟩ := h
  cases step.shift sound.wired
  case rests registry handles kept fresh => cases (kept new).symm.trans holds
  case moves i s s' place' before move after others =>
    cases place.symm.trans place'
    cases before.symm.trans new
    have held : s' = .provides y.handle := Option.some.inj (after.symm.trans holds)
    generalize b'.registry = r, b'.handles = hds at move hr
    cases move <;> try cases held
    case registers m peer =>
      obtain rfl := (List.cons.inj (congrArg Registry.entries hr)).left
      exact ⟨peer, rfl⟩

theorem Registers.getElem? (h : Registers q y b e b') (sound : b.Sound) (step : b.Step e b')
    (hh : b.handles[i]? = some hd)
    (other : ∀ z, b.registry.find? y.name = some z → z.handle ≠ i) : b'.handles[i]? = some hd := by
  have ⟨peer, handles⟩ := h.handles sound step
  rw [handles, getElem?_closeReplaced_old hh, if_neg]
  intro hz
  have ⟨z, hf, he⟩ := Option.map_eq_some_iff.mp hz
  exact other z hf he

-- A provider that keeps its lease is registered, unless its registration has been replaced or a
-- consumer has taken it out.
theorem registered_of_provides (run : (fresh config policy).run? es = some b)
    (hp : b.stake p = some (.provides h)) :
    ∃ hd, b.handles[h]? = some hd ∧ (⟨h, hd.name⟩ ∈ b.registry.entries ∨
      (fresh config policy).Occurs es (Displaces ⟨h, hd.name⟩) ∨
      ∃ w, (fresh config policy).Occurs es (Removes w ⟨h, hd.name⟩)) := by
  refine run_induction (P := fun es b => b.stake p = some (.provides h) →
    ∃ hd, b.handles[h]? = some hd ∧ (⟨h, hd.name⟩ ∈ b.registry.entries ∨
      (fresh config policy).Occurs es (Displaces ⟨h, hd.name⟩) ∨
      ∃ w, (fresh config policy).Occurs es (Removes w ⟨h, hd.name⟩))) (fun hp => by cases hp) ?_ run hp
  intro es b e b' run hi hs hp
  have sound := Sound.of_run run
  have step := step_of_step? hs
  have stays (old : b.stake p = some (.provides h)) :
      ∃ hd, b'.handles[h]? = some hd ∧ (⟨h, hd.name⟩ ∈ b'.registry.entries ∨
        (fresh config policy).Occurs (es ++ [e]) (Displaces ⟨h, hd.name⟩) ∨
        ∃ w, (fresh config policy).Occurs (es ++ [e]) (Removes w ⟨h, hd.name⟩)) := by
    have ⟨hd, hh, here⟩ := hi old
    have ⟨hd', hh', follows⟩ := (step.shift sound.wired).trails _ _ hh
    refine ⟨hd', hh', ?_⟩
    rw [follows.name]
    obtain hx | d | ⟨w, r⟩ := here
    · by_cases hx' : ⟨h, hd.name⟩ ∈ b'.registry.entries
      case pos => exact .inl hx'
      case neg =>
        obtain d | ⟨w, r⟩ | ⟨i, -, holds, away⟩ := Lapses.cause ⟨hx, hx'⟩ sound step
        · exact .inr <| .inl <| (occurs_snoc run).mpr <| .inr ⟨b', hs, d⟩
        · exact .inr <| .inr ⟨w, (occurs_snoc run).mpr <| .inr ⟨b', hs, r⟩⟩
        · cases sound.tended.alone old holds
          exact absurd hp away
    · exact .inr <| .inl d.append
    · exact .inr <| .inr ⟨w, r.append⟩
  cases step.shift sound.wired
  case rests registry handles kept fresh => exact stays ((fresh hp).resolve_right nofun)
  case moves i s s' place before move after others =>
    by_cases hi : p = i
    case neg => exact stays ((others hi).symm.trans hp)
    case pos =>
      subst hi
      obtain ⟨rfl, -⟩ | ⟨-, -, hd, hh, -, hr⟩ :=
        move.provides (Option.some.inj <| after.symm.trans hp)
      · exact stays before
      · exact ⟨hd, hh, .inl <| hr ▸ Registry.mem_register.mpr (.inl rfl)⟩

end Rendezvous.Broker
