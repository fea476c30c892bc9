import Rendezvous.Proofs.SlicedTurn

namespace Rendezvous.Broker

variable {v : Slice} {b b' : Broker} {e : Event} {i j h : Nat} {s s' : Session} {st st' : Stream}
variable {p : Phase} {r : Registry} {hs : List Handle} {ws : Connections} {rd : LineReader}
variable {text : String} {t : Instant} {cause : Error}

theorem isOver_slice : (s.slice v).isOver = s.isOver := by
  obtain ⟨st, p⟩ := s
  cases p <;> rfl

theorem session_of_left (f : v.Fits b)
    (hl : (b.handles[h]?).bind (fun hd => hd.abandonTake.1) = some st) :
    v.session st.wire = v.handle h :=
  have ⟨_, hd, ha⟩ := Option.bind_eq_some_iff.mp hl
  f.given hd (Handle.given_of_abandonTake ha)

theorem slice_release_claiming {n : Name} (f : v.Fits b) (hh : v.handle h = true) :
    (b.release (.claiming h n t)).slice v = (b.slice v).release (.claiming (v.desk h) n t) := by
  have set : (b.setHandle h fun hd => hd.abandonTake.2).slice v =
      (b.slice v).setHandle (v.desk h) fun hd => hd.abandonTake.2 :=
    slice_setHandle hh fun _ => congrArg Prod.snd Handle.abandonTake_slice.symm
  have left : ((b.slice v).handles[v.desk h]?).bind (fun hd => hd.abandonTake.1) =
      ((b.handles[h]?).bind fun hd => hd.abandonTake.1).map (Stream.slice v) := by
    rw [getElem?_handles_slice hh]
    cases b.handles[h]?
    case none => rfl
    case some => exact congrArg Prod.fst Handle.abandonTake_slice
  simp only [release, left]
  cases hl : (b.handles[h]?).bind fun hd => hd.abandonTake.1
  case none => exact set
  case some st =>
    have hw : v.session st.wire = true := (session_of_left f hl).trans hh
    change Broker.slice v { b.setHandle h _ with wires := st.abandon b.wires } = _
    rw [slice_wires, set, Stream.slice_abandon hw]
    rfl

theorem slice_release (f : v.Fits b) (hs : b.sessions[i]? = some s) (hi : v.session i = true) :
    (b.release s.phase).slice v = (b.slice v).release (s.phase.slice v) := by
  cases hp : s.phase
  case welcoming | idling | overflowing =>
    exact slice_setHandle (f.provided hs hi (hp ▸ rfl)) fun _ => Handle.slice_dropLease
  case claiming h n t => exact slice_release_claiming f (f.claimed (n := n) hs hi (hp ▸ rfl))
  case connecting st unsent =>
    have hw : v.session st.wire = true := f.served hs hi (by rw [hp, Phase.stake])
    exact congrArg (fun ws => { b.slice v with wires := ws }) (Stream.slice_abandon hw)
  case bridging br =>
    obtain ⟨ha, hb⟩ := f.bridged hs hi hp
    exact congrArg (fun ws => { b.slice v with wires := ws }) (Bridge.slice_abandon ha hb)
  all_goals rfl

theorem slice_abort (f : v.Fits b) (hi : v.session i = true) :
    (b.abort i).slice v = (b.slice v).abort (v.place i) := by
  unfold abort
  rw [getElem?_sessions_slice hi]
  cases hs : b.sessions[i]?
  case none => rfl
  case some s =>
    simp only [Option.map_some, isOver_slice]
    split
    · rfl
    · have hs' : (b.release s.phase).sessions[i]? = some s := by rw [release_eq]; exact hs
      rw [slice_finish hi hs' (f.own hs hi), slice_release f hs hi]
      rfl

theorem slice_accept {wire : Connection} {peer : Peer} (w : b.Wired) :
    (b.accept wire peer).slice v =
      if v.session b.sessions.length then (b.slice v).accept wire peer else b.slice v := by
  have length : (b.slice v).wires.length = v.place b.wires.length := length_sift
  have wires : Connections.slice v (b.wires ++ [wire]) =
      b.wires.slice v ++ if v.session b.sessions.length then [wire] else [] := by
    rw [← w.length]
    exact sift_append_singleton
  unfold accept
  rw [length]
  simp only [slice, sift_append_singleton, wires]
  split
  · rfl
  · simp only [List.append_nil]

theorem slice_touch {f : Connection → Connection} :
    (b.touch j f).slice v =
      if v.session j then (b.slice v).touch (v.place j) f else b.slice v := by
  cases hj : v.session j
  case true  => exact congrArg (fun ws => { b.slice v with wires := ws }) (Connections.slice_update hj)
  case false =>
    exact congrArg (fun ws => { b.slice v with wires := ws }) (Connections.slice_update_of_not hj)

theorem slice_after_of_not (hi : v.session i = false) (hr : r.slice v = b.registry.slice v)
    (hh : sift v.handle (Handle.slice v) hs = sift v.handle (Handle.slice v) b.handles)
    (hw : ws.slice v = b.wires.slice v) : (b.after i s r hs ws).slice v = b.slice v := by
  simp only [after, slice, sift_set_of_not hi, hr, hh, hw]

theorem slice_unregister_of_not (f : v.Fits b) (hh : v.handle h = false) :
    (b.unregister h).registry.slice v = b.registry.slice v := by
  unfold unregister
  split
  case h_1 hd hd' =>
    refine Registry.slice_unregister_of_ne fun hn => ?_
    cases hh.symm.trans ((f.named ‹_›).mpr hn)
  case h_2 => rfl

theorem Hears.slice_of_not (h : b.Hears st rd text st' ws) (hw : v.session st.wire = false) :
    ws.slice v = b.wires.slice v :=
  have ⟨_, _, _, hr, _⟩ := h
  Stream.slice_of_read hw hr

theorem Mishears.slice_of_not (h : b.Mishears st rd t cause st' ws) (hw : v.session st.wire = false) :
    ws.slice v = b.wires.slice v := by
  cases h
  case fault | late              => rfl
  case ended read | refused read => exact Stream.slice_of_read hw read

theorem slice_leave_of_not (f : v.Fits b) (hi : v.session i = false) (hh : v.handle h = false)
    (hw : ws.slice v = b.wires.slice v) :
    (b.after i s (b.unregister h).registry (b.handles.modify h Handle.dropLease) ws).slice v =
      b.slice v :=
  slice_after_of_not hi (slice_unregister_of_not f hh) (sift_modify_of_not hh) hw

theorem sift_closeReplaced_of_not {previous : Option Registration} {hd : Handle}
    (hp : ∀ x, previous = some x → v.handle x.handle = false) (new : v.handle hs.length = false) :
    sift v.handle (Handle.slice v) (closeReplaced previous (hs ++ [hd])) =
      sift v.handle (Handle.slice v) hs := by
  have kept : sift v.handle (Handle.slice v) (hs ++ [hd]) = sift v.handle (Handle.slice v) hs := by
    rw [sift_append_singleton, new]
    exact List.append_nil _
  cases previous
  case none   => exact kept
  case some x => exact (sift_modify_of_not (hp x rfl)).trans kept

-- Whatever another session does in its turn leaves the slice as it is.
theorem Turn.slice_of_not (t : b.Turn i st p s' r hs ws) (f : v.Fits b) (hi : v.session i = false)
    (own : b.sessions[i]? = some ⟨st, p⟩) (suits : Suits v b i) :
    (b.after i s' r hs ws).slice v = b.slice v := by
  have hw : v.session st.wire = false := f.own own hi
  have other {c} (hc : b.dispatches? i = some c) : c.name ≠ v.name := fun hn =>
    Bool.eq_false_iff.mp hi ((suits c hc).left.mp hn)
  cases t
  case reads push read => exact slice_after_of_not hi rfl rfl (Stream.slice_of_read hw read)
  case mishears why    => exact slice_after_of_not hi rfl rfl (why.slice_of_not hw)
  case misreads hears | denies hears | seeks hears =>
    exact slice_after_of_not hi rfl rfl (hears.slice_of_not hw)
  case registers n command policy hears =>
    have dispatches := (dispatches?_of_hears own hears).trans (allowed?_register command policy)
    have hn : n ≠ v.name := other dispatches
    have new := ((suits _ dispatches).right n rfl).trans hi
    exact slice_after_of_not hi (Registry.slice_register_of_ne hn)
      (sift_closeReplaced_of_not (fun _ found => f.unlisted found hn) new) (hears.slice_of_not hw)
  case claims n x hd command policy found handle take hears =>
    have dispatches := (dispatches?_of_hears own hears).trans (allowed?_request command policy)
    have hn : n ≠ v.name := other dispatches
    exact slice_after_of_not hi (Registry.slice_erase_of_ne hn)
      (sift_modify_of_not (f.unlisted found hn)) (hears.slice_of_not hw)
  case misses n x command policy found take hears =>
    have dispatches := (dispatches?_of_hears own hears).trans (allowed?_request command policy)
    have hn : n ≠ v.name := other dispatches
    have hx := f.unlisted found hn
    exact slice_after_of_not hi (Registry.slice_erase_of_ne hn)
      ((sift_modify_of_not hx).trans (sift_modify_of_not hx)) (hears.slice_of_not hw)
  case answers send | greets send | tells send =>
    exact slice_after_of_not hi rfl rfl (Stream.slice_of_deliver hw send)
  case answered | greeted | bridges | listens => exact slice_after_of_not hi rfl rfl rfl
  case closes close =>
    refine slice_after_of_not hi rfl rfl ((Stream.slice_abandon_of_not hw).trans ?_)
    obtain hc | ⟨rfl, -⟩ := close
    · exact Stream.slice_of_close hw hc
    · rfl
  case unheard =>
    exact slice_leave_of_not f hi (f.provided own hi rfl) (Stream.slice_abandon_of_not hw)
  case handsOver | offers =>
    exact slice_after_of_not hi rfl (sift_modify_of_not (f.provided own hi rfl)) rfl
  case evicted | timesOut => exact slice_leave_of_not f hi (f.provided own hi rfl) rfl
  case leaves fill =>
    refine slice_leave_of_not f hi (f.provided own hi rfl) ?_
    obtain hf | ⟨rfl, rfl, -⟩ := fill
    · have hw' := (Stream.fill_done hf).wire ▸ hw
      exact (Stream.slice_abandon_of_not hw').trans (Stream.slice_of_fill hw hf)
    · exact Stream.slice_abandon_of_not hw
  case overflows fill | holds fill => exact slice_after_of_not hi rfl rfl (Stream.slice_of_fill hw fill)
  case overflowed close =>
    refine slice_leave_of_not f hi (f.provided own hi rfl) ((Stream.slice_abandon_of_not hw).trans ?_)
    obtain hc | ⟨rfl, -⟩ := close
    · exact Stream.slice_of_close hw hc
    · rfl
  case picksUp | despairs =>
    exact slice_after_of_not hi rfl (sift_modify_of_not (f.claimed own hi rfl)) rfl
  case givesUp =>
    have hh := f.claimed own hi rfl
    exact slice_after_of_not hi rfl ((sift_modify_of_not hh).trans (sift_modify_of_not hh)) rfl
  case untold provider _ _ _ =>
    have hp : v.session provider.wire = false := f.served own hi rfl
    exact slice_after_of_not hi rfl rfl
      ((Stream.slice_abandon_of_not hw).trans (Stream.slice_abandon_of_not hp))
  case copies turn =>
    have ⟨ha, hb⟩ := f.bridged own hi rfl
    exact slice_after_of_not hi rfl rfl (Bridge.slice_of_turn ha hb turn)
  case parts =>
    have ⟨ha, hb⟩ := f.bridged own hi rfl
    exact slice_after_of_not hi rfl rfl (Bridge.slice_abandon_of_not ha hb)

theorem slice_release_of_not (f : v.Fits b) (hs : b.sessions[i]? = some s) (hi : v.session i = false) :
    (b.release s.phase).slice v = b.slice v := by
  have handle {h} {g : Handle → Handle} (hh : v.handle h = false) :
      (b.setHandle h g).slice v = b.slice v :=
    congrArg (fun hds => { b.slice v with handles := hds }) (sift_modify_of_not hh)
  have wires {ws} (hw : ws.slice v = b.wires.slice v) :
      Broker.slice v { b with wires := ws } = b.slice v :=
    congrArg (fun ws => { b.slice v with wires := ws }) hw
  cases hp : s.phase
  case welcoming | idling | overflowing => exact handle (f.provided hs hi (hp ▸ rfl))
  case claiming h n t =>
    have hh : v.handle h = false := f.claimed (n := n) hs hi (hp ▸ rfl)
    simp only [release]
    cases hl : (b.handles[h]?).bind fun hd => hd.abandonTake.1
    case none => exact handle hh
    case some st =>
      have hw : v.session st.wire = false := (session_of_left f hl).trans hh
      exact (congrArg (fun ws => { (b.setHandle h _).slice v with wires := ws })
        (Stream.slice_abandon_of_not hw)).trans (handle hh)
  case connecting st unsent =>
    exact wires (Stream.slice_abandon_of_not (f.served hs hi (by rw [hp, Phase.stake])))
  case bridging br =>
    obtain ⟨ha, hb⟩ := f.bridged hs hi hp
    exact wires (Bridge.slice_abandon_of_not ha hb)
  all_goals rfl

theorem slice_abort_of_not (f : v.Fits b) (hi : v.session i = false) :
    (b.abort i).slice v = b.slice v := by
  unfold abort
  cases hs : b.sessions[i]?
  case none => rfl
  case some s =>
    simp only
    split
    · rfl
    · have hs' : (b.release s.phase).sessions[i]? = some s := by rw [release_eq]; exact hs
      rw [finish_eq hs', slice_after_of_not hi rfl rfl (Stream.slice_abandon_of_not (f.own hs hi)),
        slice_release_of_not f hs hi]

-- What is left of an event in a slice, while there are so many sessions: everything that concerns others
-- is erased.
def Event.slice (v : Slice) (count : Nat) : Event → List Event
  | .turn k => if v.session k.place then [.turn (k.slice v)] else []
  | .accept wire peer => if v.session count then [.accept wire peer] else []
  | .change j what => if v.session j then [.change (v.place j) what] else []
  | .abort i => if v.session i then [.abort (v.place i)] else []
  | .wait t => [.wait t]

theorem turn_of_slice {k : Task} (f : v.Fits b) (suits : Suits v b k.place) (h : b.turn k = some b') :
    (b.slice v).run? ((Event.turn k).slice v b.sessions.length) = some (b'.slice v) := by
  cases hi : v.session k.place
  case true =>
    have turn := turn_slice f hi suits
    simp [Event.slice, hi, step?, turn, h]
  case false =>
    obtain ⟨s, hs, s', r, hds, ws, t, he⟩ := turn_turns h
    simp [Event.slice, hi, he, t.slice_of_not f hi hs suits]

theorem change_of_slice {what : Connection.Change} {c : Connection}
    (h : (b.wires.get j).apply what = .ok c) :
    (b.slice v).run? ((Event.change j what).slice v b.sessions.length) =
      some ((b.touch j fun _ => c).slice v) := by
  cases hj : v.session j
  case true  => simp [Event.slice, hj, step?, Connections.get_slice hj, h, slice_touch]
  case false => simp [Event.slice, hj, slice_touch]

-- Whatever happens to a broker, what is left of it in a slice happens to the slice.
theorem step_of_slice (f : v.Fits b) (suits : ∀ k, e = .turn k → Suits v b k.place)
    (h : b.step? e = some b') :
    (b.slice v).run? (e.slice v b.sessions.length) = some (b'.slice v) := by
  cases e
  case turn k => exact turn_of_slice f (suits k rfl) h
  case accept wire peer =>
    simp only [step?] at h
    split at h <;> cases h
    case isTrue fresh =>
      rw [slice_accept f.sound.wired, Event.slice]
      split
      · simp [step?, fresh]
      · rfl
  case change j what =>
    simp only [step?] at h
    split at h <;> cases h
    exact change_of_slice ‹_›
  case abort i =>
    cases h
    cases hi : v.session i
    case true  => simp [Event.slice, hi, step?, slice_abort f hi]
    case false => simp [Event.slice, hi, slice_abort_of_not f hi]
  case wait t =>
    simp only [step?] at h
    split at h <;> cases h
    case isTrue later =>
      simp [Event.slice, step?, later]
      rfl

end Rendezvous.Broker
