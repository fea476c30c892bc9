import Rendezvous.Proofs.Dispatches
import Rendezvous.Proofs.Promptness

namespace Rendezvous

inductive Report where
  | ended (how : Ending)
  | bridged (stats : BridgeStats)

def Ending.report : Ending → Report
  | .regular (.bridged br) => .bridged br.stats
  | how => .ended how

def Session.report? (s : Session) : Option Report :=
  match s.phase with
  | .ended how => some how.report
  | _ => none

-- A broker that has only what concerns one service is like another one to all who deal with the service.
structure Slice.Mirrors (v : Slice) (b b' : Broker) : Prop where
  clock   : b'.clock = b.clock
  kept    : ∀ {j}, j < b'.sessions.length → ∃ i, v.session i = true ∧ v.place i = j ∧
    i < b.sessions.length
  apart   : ∀ {i j}, v.session i = true → v.session j = true → v.place i = v.place j → i = j
  session : ∀ {i}, v.session i = true →
    b'.sessions[v.place i]? = b.sessions[i]?.map (Session.slice v)
  report  : ∀ {i}, v.session i = true →
    b'.sessions[v.place i]?.bind Session.report? = b.sessions[i]?.bind Session.report?
  wire    : ∀ {i}, v.session i = true → b'.wires.get (v.place i) = b.wires.get i
  found   : b'.registry.find? v.name = (b.registry.find? v.name).map (Registration.slice v)
  handle  : ∀ {x}, b.registry.find? v.name = some x →
    b'.handles[v.desk x.handle]? = b.handles[x.handle]?
  others  : ∀ {m}, m ≠ v.name → b'.registry.find? m = none

namespace Broker

variable {a b b' c : Broker} {v : Slice} {es whole : List Event} {e : Event} {config : Config}
variable {policy : Policy} {i h : Nat} {n m : Name} {s : Session} {k : Task} {t : Instant} {hd : Handle}

def sliced (v : Slice) (b : Broker) (es : List Event) : List Event :=
  b.along (fun b e => e.slice v b.sessions.length) es

theorem sliced_snoc (run : a.run? es = some b) :
    a.sliced v (es ++ [e]) = a.sliced v es ++ e.slice v b.sessions.length := along_snoc run

-- The slice of a service in a run: the sessions that dispatch a command for it, and the handles that have
-- its name.
def share (b : Broker) (n : Name) (es : List Event) : Slice where
  name      := n
  session i := decide ((i, n) ∈ b.dispatched es)
  handle h  := ((b.run? es).bind fun c => c.handles[h]?).any fun hd => decide (hd.name = n)

theorem report?_slice : (s.slice v).report? = s.report? := by
  obtain ⟨st, p⟩ := s
  cases p
  case ended how =>
    cases how
    case regular how => cases how <;> rfl
    all_goals rfl
  all_goals rfl

theorem mirrors_slice (f : v.Fits b) : v.Mirrors b (b.slice v) where
  clock := rfl
  kept hj := by
    have ⟨i, s, hi, hr, hs, _⟩ := of_getElem?_sift (List.getElem?_eq_getElem hj)
    exact ⟨i, hi, hr, (List.getElem?_eq_some_iff.mp hs).choose⟩
  apart hi hj := (rank_inj hi hj).mp
  session := getElem?_sessions_slice
  report {i} hi := by
    rw [getElem?_sessions_slice hi]
    cases b.sessions[i]?
    case none   => rfl
    case some s => exact report?_slice
  wire := Connections.get_slice
  found := Registry.find?_slice
  handle hf := by
    -- A registered handle has no connection on its way to anybody.
    have ⟨hd, hh, _, _, hc⟩ := f.sound.tended.enrolled (Registry.mem_of_find? hf)
    rw [getElem?_handles_slice (f.listed hf), hh]
    obtain ⟨name, peer, closed, leased, claim⟩ := hd
    cases hc
    rfl
  others := Registry.find?_slice_of_ne

section

variable (run : (fresh config policy).run? whole = some c)
include run

theorem session_share :
    ((fresh config policy).share n whole).session i = true ↔
      (fresh config policy).Occurs whole (Dispatches i n) :=
  decide_eq_true_iff.trans (mem_dispatched run)

variable (part : es <+: whole)
include part

theorem session_share_of_occurs (ho : (fresh config policy).Occurs es (Dispatches i m)) :
    ((fresh config policy).share n whole).session i = true ↔ m = n := by
  obtain ⟨fs, rfl⟩ := part
  rw [session_share run]
  constructor
  case mp  => exact fun h => dispatches_once ho.append h
  case mpr => exact fun h => h ▸ ho.append

variable (before : (fresh config policy).run? es = some b)
include before

theorem handle_share (hh : b.handles[h]? = some hd) :
    ((fresh config policy).share n whole).handle h = true ↔ hd.name = n := by
  have ⟨b', hb, later⟩ := run?_of_prefix part run
  cases hb.symm.trans before
  have ⟨hd', hh', follows⟩ := (Sound.of_run before).trails later _ _ hh
  simp [share, run, hh', follows.name]

theorem session_share_eq (ho : (fresh config policy).Occurs es (Dispatches i hd.name))
    (hh : b.handles[h]? = some hd) :
    ((fresh config policy).share n whole).session i = ((fresh config policy).share n whole).handle h :=
  Bool.eq_iff_iff.mpr <|
    (session_share_of_occurs run part ho).trans (handle_share run part before hh).symm

theorem share_fits (steady : policy.Steady) : ((fresh config policy).share n whole).Fits b where
  sound := .of_run before
  steady := (settings_of_run before).right ▸ steady
  named := handle_share run part before
  provides hi :=
    have ⟨_, hh, ho⟩ := occurs_dispatches_of_provides before hi
    session_share_eq run part before ho hh
  claims hi :=
    have ⟨_, hh, hn, _⟩ := (Sound.of_run before).tended.claimed hi
    session_share_eq run part before (hn ▸ occurs_dispatches_of_claims before hi) hh
  serves hi :=
    have ⟨_, ho⟩ := occurs_handsOver before hi
    have ⟨provides, claims⟩ := occurs_dispatches_of_handsOver before ho
    Bool.eq_iff_iff.mpr <| (session_share_of_occurs run part claims).trans
      (session_share_of_occurs run part provides).symm
  given hh hc :=
    have ⟨_, _, hi, ho⟩ := occurs_handsOver_given before hh hc
    have ⟨_, hh', hn, _⟩ := (Sound.of_run before).tended.claimed hi
    have ⟨provides, _⟩ := occurs_dispatches_of_handsOver before ho
    session_share_eq run part before (Option.some.inj (hh.symm.trans hh') ▸ hn ▸ provides) hh

end

section

variable (run : (fresh config policy).run? whole = some c)
include run

theorem share_suits (part : es ++ [.turn k] <+: whole) (before : (fresh config policy).run? es = some b)
    (step : b.step? (.turn k) = some b') : Suits ((fresh config policy).share n whole) b k.place := by
  intro command hc
  have ⟨st, _, _, _, _, _, own, _⟩ := hears_of_dispatches? hc
  have hk := eq_session_of_new step (stake_of own)
  have occurs : (fresh config policy).Occurs (es ++ [.turn k]) (Dispatches k.place command.name) :=
    (occurs_snoc before).mpr <| .inr ⟨b', step, dispatches_iff.mpr ⟨congrArg _ hk, command, hc, rfl⟩⟩
  refine ⟨(session_share_of_occurs run part occurs).symm, fun m hm => ?_⟩
  subst hm
  have after := (run?_snoc before).trans step
  obtain ⟨s, own', s', r, hs, ws, t, rfl⟩ := turn_turns step
  have ⟨hd, hh, hn⟩ := (t.of_dispatches? own' hc).right m rfl
  exact (session_share_eq run part after (hn ▸ occurs) hh).symm

-- What is left of a run in the slice of a service is a run of the slice.
theorem run_sliced (part : es <+: whole) (before : (fresh config policy).run? es = some b)
    (steady : policy.Steady) :
    (fresh config policy).run? ((fresh config policy).sliced ((fresh config policy).share n whole) es) =
      some (b.slice ((fresh config policy).share n whole)) := by
  refine prefix_induction (P := fun es b => (fresh config policy).run? (sliced _ _ es) = some (b.slice _))
    rfl ?_ part before
  intro es b e b' part before hs hi
  rw [sliced_snoc before, run?_append, hi]
  have part' := (List.prefix_append ..).trans part
  refine step_of_slice (share_fits run part' before steady) (fun k he => ?_) hs
  subst he
  exact share_suits run part before hs

end

theorem deadlines_slice (ht : t ∈ (b.slice v).deadlines) : t ∈ b.deadlines := by
  have ⟨s', hs', ht⟩ := List.mem_flatMap.mp ht
  have ⟨j, hj⟩ := List.mem_iff_getElem?.mp hs'
  obtain ⟨i, s, _, _, hs, rfl⟩ := of_getElem?_sift hj
  refine List.mem_flatMap.mpr ⟨s, List.mem_of_getElem? hs, ?_⟩
  obtain ⟨st, p⟩ := s
  cases p <;> exact ht

theorem idleNow_slice (f : v.Fits b) (idle : b.idleNow = true) : (b.slice v).idleNow = true := by
  refine List.all_eq_true.mpr fun k' hk' => ?_
  have waits {k : Task} (hk : k.place < b.sessions.length) : b.turn k = none :=
    Option.isNone_iff_eq_none.mp <| List.all_eq_true.mp idle k (mem_tasks.mpr hk)
  obtain ⟨i, s, hi, hr, hs, -⟩ := of_getElem?_sift (List.getElem?_eq_getElem (mem_tasks.mp hk'))
  have hl := (List.getElem?_eq_some_iff.mp hs).choose
  obtain ⟨k, rfl, rfl⟩ : ∃ k : Task, k.place = i ∧ k.slice v = k' := by
    cases k'
    case session  => exact ⟨.session i, rfl, congrArg Task.session hr⟩
    case copy _ d => exact ⟨.copy i d, rfl, congrArg (Task.copy · d) hr⟩
  -- A session that has to wait does not dispatch anything.
  have suits : Suits v b k.place := fun _ hc => by
    cases (dispatches?_of_sessionTurn (waits (k := .session k.place) hl)).symm.trans hc
  rw [turn_slice f hi suits, waits hl]
  rfl

theorem mayWait_slice (f : v.Fits b) (h : b.mayWait t = true) : (b.slice v).mayWait t = true := by
  have ⟨idle, late⟩ := Bool.and_eq_true_iff.mp h
  refine Bool.and_eq_true_iff.mpr ⟨idleNow_slice f idle, List.all_eq_true.mpr fun t ht => ?_⟩
  exact List.all_eq_true.mp late t (deadlines_slice ht)

theorem isPrompt_slice (f : v.Fits b) (h : b.isPrompt [e] = true) :
    (b.slice v).isPrompt (e.slice v b.sessions.length) = true := by
  cases e
  case wait t =>
    have ⟨may, _⟩ := Bool.and_eq_true_iff.mp h
    simp [Event.slice, isPrompt, mayWait_slice f may]
  all_goals
    simp only [Event.slice]
    split <;> simp [isPrompt]

theorem isPrompt_sliced (run : (fresh config policy).run? whole = some c) (part : es <+: whole)
    (before : (fresh config policy).run? es = some b) (steady : policy.Steady)
    (prompt : (fresh config policy).isPrompt es = true) :
    (fresh config policy).isPrompt
      ((fresh config policy).sliced ((fresh config policy).share n whole) es) = true := by
  refine prefix_induction (P := fun es _ => (fresh config policy).isPrompt es = true →
    (fresh config policy).isPrompt (sliced _ _ es) = true) (fun _ => rfl) ?_ part before prompt
  intro es b e b' part before hs hi prompt
  have part := (List.prefix_append ..).trans part
  rw [isPrompt_append before, Bool.and_eq_true] at prompt
  rw [sliced_snoc before, isPrompt_append (run_sliced run part before steady), Bool.and_eq_true]
  exact ⟨hi prompt.left, isPrompt_slice (share_fits run part before steady) prompt.right⟩

-- Under a steady policy, erase from a run all that concerns sessions that do not dispatch a command for a
-- service. What remains is a run as well, and at every point of it those that deal with the service find
-- everything as it was, at the same time: what their connections have received and sent, how their sessions
-- have ended, and who is registered under the name. If no task was kept from its turns, none is now.
theorem services_do_not_interfere (n : Name) (steady : policy.Steady)
    (run : (fresh config policy).run? es = some c) :
    ∃ v : Slice, v.name = n ∧
      (∀ i, v.session i = true ↔ (fresh config policy).Occurs es (Dispatches i n)) ∧
      ∀ before, before <+: es →
        ∃ b b', (fresh config policy).run? before = some b ∧
          (fresh config policy).run? ((fresh config policy).sliced v before) = some b' ∧
          v.Mirrors b b' ∧
          ((fresh config policy).isPrompt before = true →
            (fresh config policy).isPrompt ((fresh config policy).sliced v before) = true) := by
  refine ⟨(fresh config policy).share n es, rfl, fun i => session_share run, fun before part => ?_⟩
  have ⟨b, hb, _⟩ := run?_of_prefix part run
  exact ⟨b, _, hb, run_sliced run part hb steady, mirrors_slice (share_fits run part hb steady),
    isPrompt_sliced run part hb steady⟩

def crowd : List Event :=
  [.accept {} {}, .accept {} {}, .change 0 (.send (Bytes.ofText "REGISTER:mic\n")),
    .turn (.session 0), .change 1 (.send (Bytes.ofText "REGISTER:cam1\nhello")), .turn (.session 1),
    .turn (.session 0), .accept {} {}, .turn (.session 1), .change 2 (.send (Bytes.ofText "hi\n")),
    .turn (.session 1), .accept {} {}, .abort 0, .turn (.session 2),
    .change 3 (.send (Bytes.ofText "REQUEST:cam1\n")), .turn (.session 3), .turn (.session 1),
    .turn (.session 3), .turn (.session 3)]

theorem services_do_not_interfere_crowd :
    ∃ c v c', (fresh {} Policy.allowAll).run? crowd = some c ∧
      (∀ i, v.session i = true ↔ i = 1 ∨ i = 3) ∧
      (fresh {} Policy.allowAll).run? ((fresh {} Policy.allowAll).sliced v crowd) = some c' ∧
      (c'.wires.get (v.place 3)).received = Reply.connectedToService.bytes := by
  have ⟨c, hc, received⟩ : ∃ c, (fresh {} Policy.allowAll).run? crowd = some c ∧
      (c.wires.get 3).received = Reply.connectedToService.bytes :=
    Option.map_eq_some_iff.mp (by decide +kernel)
  have who : (fresh {} Policy.allowAll).dispatched crowd =
      [(0, ⟨"mic", by decide⟩), (1, ⟨"cam1", by decide⟩), (3, ⟨"cam1", by decide⟩)] := by
    decide +kernel
  have ⟨v, _, deals, remains⟩ := services_do_not_interfere ⟨"cam1", by decide⟩ (fun _ _ => rfl) hc
  have ⟨b, c', hb, hc', mirrors, _⟩ := remains crowd List.prefix_rfl
  cases hb.symm.trans hc
  have members i : v.session i = true ↔ i = 1 ∨ i = 3 := by
    rw [deals, ← mem_dispatched hc, who]
    simp
  refine ⟨c, v, c', hc, members, hc', ?_⟩
  rw [mirrors.wire ((members 3).mpr (.inr rfl))]
  exact received

end Broker
end Rendezvous
