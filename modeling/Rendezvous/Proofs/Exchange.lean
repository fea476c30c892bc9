import Mathlib.Tactic.ByContra
import Rendezvous.Proofs.Handles

namespace Rendezvous

inductive Exchange.Call where
  | waiting
  | returned (got : Option Stream)
  -- The consumer gave up; what had been delivered to it by then went with it.
  | dropped (left : Option Stream)
deriving DecidableEq

structure Exchange where
  handle : Handle
  calls : List Exchange.Call := []
  found : List (Option LeaseEvent) := []
  holding : Bool := false
  offered : List Stream := []
  returned : List Stream := []

-- A call for the connection is let in if it is the first, comes in time and the provider is there.
theorem Handle.take_cases (hd : Handle) :
    hd.take = (false, hd) ∨
    (hd.take = (false, { hd with claim := .settled }) ∧ hd.claim = .unmade ∧ hd.leased = false) ∨
    (hd.take = (true, { hd with claim := .asked true }) ∧ hd.claim = .unmade ∧ hd.leased = true) := by
  unfold take
  (repeat' split) <;> simp_all

namespace Exchange

inductive Move where
  | call
  | look (call : Nat)
  | giveUp (call : Nat)
  | close
  | poll
  | handOver (stream : Stream)
  | dropClaim
  | dropLease

-- A new handle.
def start (name : Name) (peer : Peer) : Exchange := { handle := { name, peer } }

-- The exchange after a move, if the move can be made. A lease is looked at as long as it has not yielded a
-- claim, and a claim can be used up once.
def step? (x : Exchange) : Move → Option Exchange
  | .call =>
    let (waits, handle) := x.handle.take
    some { x with handle, calls := x.calls ++ [if waits then .waiting else .returned none] }
  | .look i =>
    if x.calls[i]? = some .waiting then
      match x.handle.taking with
      | .waiting => some x
      | .nothing => some { x with calls := x.calls.set i (.returned none) }
      | .got s =>
        some { x with handle := x.handle.pickUp, calls := x.calls.set i (.returned (some s)) }
    else none
  | .giveUp i =>
    if x.calls[i]? = some .waiting then
      let (left, handle) := x.handle.abandonTake
      some { x with handle, calls := x.calls.set i (.dropped left) }
    else none
  | .close => some { x with handle := x.handle.close }
  | .poll =>
    if x.handle.leased = true ∧ some .claimed ∉ x.found then
      let (found, handle) := x.handle.event
      some { x with
        handle, found := x.found ++ [found], holding := x.holding || found == some .claimed }
    else none
  | .handOver s =>
    if x.holding then
      let (taken, handle) := x.handle.handOver s
      some { x with
        handle, holding := false, offered := s :: x.offered
        returned := if taken then x.returned else s :: x.returned }
    else none
  | .dropClaim =>
    if x.holding then some { x with handle := x.handle.dropClaim, holding := false } else none
  | .dropLease => if x.handle.leased then some { x with handle := x.handle.dropLease } else none

def run? (x : Exchange) : List Move → Option Exchange
  | [] => some x
  | m :: ms => (x.step? m).bind fun x => x.run? ms

namespace Call

def isLive (c : Call) : Bool := c != returned none

def got : Call → List Stream
  | waiting => []
  | returned s => s.toList
  | dropped s => s.toList

def asking (awaited : Bool) : Call := if awaited then waiting else dropped none

end Call

variable {x y z : Exchange} {m : Move} {ms : List Move} {i j : Nat} {a c : Call} {s : Stream}
variable {name : Name} {peer : Peer}

def live (x : Exchange) : List Call := x.calls.filter Call.isLive

def underway (x : Exchange) : List Stream :=
  match x.handle.claim with
  | .given s => [s]
  | _ => []

-- Where an exchange stands: the state of the claim decides which call has been let in and what the
-- provider has done.
inductive Stage (x : Exchange) : Prop
  | unmade (claim : x.handle.claim = .unmade) (live : x.live = []) (holding : x.holding = false)
      (heard : some .claimed ∉ x.found) (offered : x.offered = []) (returned : x.returned = [])
  | asked {w : Bool} (claim : x.handle.claim = .asked w) (live : x.live = [.asking w])
      (leased : x.handle.leased = true) (holding : x.holding = false)
      (heard : some .claimed ∉ x.found) (offered : x.offered = []) (returned : x.returned = [])
  | held {w : Bool} (claim : x.handle.claim = .held w) (live : x.live = [.asking w])
      (holding : x.holding = true) (heard : some .claimed ∈ x.found) (offered : x.offered = [])
      (returned : x.returned = [])
  | given {s : Stream} (claim : x.handle.claim = .given s) (live : x.live = [.waiting])
      (holding : x.holding = false) (heard : some .claimed ∈ x.found) (offered : x.offered = [s])
      (returned : x.returned = [])
  | settled {cs : List Call} {out back : List Stream} (claim : x.handle.claim = .settled)
      (live : x.live = cs) (holding : x.holding = false)
      (heard : x.handle.leased = true → some .claimed ∈ x.found) (offered : x.offered = out)
      (returned : x.returned = back) (once : cs.length ≤ 1 ∧ out.length ≤ 1)
      (kept : out = back ++ cs.flatMap Call.got)

theorem mem_live (hi : x.calls[i]? = some c) (hc : c.isLive = true) : c ∈ x.live :=
  List.mem_filter.mpr ⟨List.mem_of_getElem? hi, hc⟩

theorem live_returned (hd : Handle) :
    live { x with handle := hd, calls := x.calls ++ [.returned none] } = x.live := by
  simp [live, Call.isLive]

theorem live_waiting (hd : Handle) :
    live { x with handle := hd, calls := x.calls ++ [.waiting] } = x.live ++ [.waiting] := by
  simp [live, Call.isLive]

theorem filter_set {α : Type} {p : α → Bool} {l : List α} {a b : α} (hl : (l.filter p).length ≤ 1)
    (hi : l[i]? = some a) (ha : p a = true) : (l.set i b).filter p = [b].filter p := by
  induction l generalizing i
  case nil => simp at hi
  case cons d l ih =>
    cases i
    case zero =>
      cases Option.some.inj hi
      rw [List.filter_cons_of_pos ha, List.length_cons] at hl
      have rest : l.filter p = [] := List.eq_nil_of_length_eq_zero (by omega)
      rw [List.set_cons_zero, ← List.singleton_append, List.filter_append, rest, List.append_nil]
    case succ i =>
      have hi : l[i]? = some a := hi
      have some : 0 < (l.filter p).length :=
        List.length_pos_of_mem <| List.mem_filter.mpr ⟨List.mem_of_getElem? hi, ha⟩
      have hd : p d = false := by
        by_contra hd
        rw [List.filter_cons_of_pos (by simpa using hd), List.length_cons] at hl
        omega
      rw [List.filter_cons_of_neg (by simp [hd])] at hl
      rw [List.set_cons_succ, List.filter_cons_of_neg (by simp [hd]), ih hl hi]

theorem Stage.length_live (h : x.Stage) : x.live.length ≤ 1 := by
  cases h
  case settled live _ _ _ _ once _ => exact live ▸ once.left
  all_goals simp [*]

theorem Stage.live_of_waiting (h : x.Stage) (hi : x.calls[i]? = some .waiting) :
    x.live = [.waiting] := by
  have mem := mem_live hi rfl
  have sole := h.length_live
  match hl : x.live with
  | []          => rw [hl] at mem; cases mem
  | [c]         => rw [hl] at mem; rw [List.mem_singleton.mp mem]
  | c :: d :: _ => rw [hl] at sole; simp at sole

theorem Stage.live_set (h : x.Stage) (hi : x.calls[i]? = some .waiting) (hd : Handle) :
    live { x with handle := hd, calls := x.calls.set i c } = [c].filter Call.isLive :=
  filter_set h.length_live hi rfl

theorem Stage.eq_of_live (h : x.Stage) (hi : x.calls[i]? = some a) (hj : x.calls[j]? = some c)
    (ha : a.isLive = true) (hc : c.isLive = true) : i = j := by
  by_contra hn
  have rest : (x.calls.set i (.returned none)).filter Call.isLive = [] :=
    filter_set h.length_live hi ha
  have other : (x.calls.set i (.returned none))[j]? = some c := by rwa [List.getElem?_set_ne hn]
  have mem := List.mem_filter.mpr ⟨List.mem_of_getElem? other, hc⟩
  rw [rest] at mem
  cases mem

theorem Stage.same (h : x.Stage) (claim : y.handle.claim = x.handle.claim)
    (leased : y.handle.leased = x.handle.leased) (live : y.live = x.live)
    (holding : y.holding = x.holding) (heard : some .claimed ∈ y.found ↔ some .claimed ∈ x.found)
    (offered : y.offered = x.offered) (returned : y.returned = x.returned) : y.Stage := by
  cases h
  case unmade c l ho he o r =>
    exact .unmade (claim.trans c) (live.trans l) (holding.trans ho) (mt heard.mp he)
      (offered.trans o) (returned.trans r)
  case asked c l le ho he o r =>
    exact .asked (claim.trans c) (live.trans l) (leased.trans le) (holding.trans ho)
      (mt heard.mp he) (offered.trans o) (returned.trans r)
  case held c l ho he o r =>
    exact .held (claim.trans c) (live.trans l) (holding.trans ho) (heard.mpr he)
      (offered.trans o) (returned.trans r)
  case given c l ho he o r =>
    exact .given (claim.trans c) (live.trans l) (holding.trans ho) (heard.mpr he)
      (offered.trans o) (returned.trans r)
  case settled c l ho he o r once kept =>
    exact .settled (claim.trans c) (live.trans l) (holding.trans ho)
      (fun h => heard.mpr (he (leased.symm.trans h))) (offered.trans o) (returned.trans r) once kept

section

variable (h : x.Stage)
include h

theorem Stage.call (hs : x.step? .call = some y) : y.Stage := by
  simp only [step?, Option.some.injEq] at hs
  subst hs
  obtain ht | ⟨ht, claim, leased⟩ | ⟨ht, claim, leased⟩ := x.handle.take_cases <;>
    simp only [ht, Bool.false_eq_true, if_true, if_false]
  case inl => exact h.same rfl rfl (live_returned _) rfl .rfl rfl rfl
  case inr.inl =>
    cases h <;> try cases claim.symm.trans ‹_›
    case unmade _ live holding heard offered returned =>
    refine .settled rfl ((live_returned _).trans live) holding (fun hl => ?_) offered returned
      (by decide) rfl
    cases leased.symm.trans hl
  case inr.inr =>
    cases h <;> try cases claim.symm.trans ‹_›
    case unmade _ live holding heard offered returned =>
    exact .asked rfl ((live_waiting _).trans (by rw [live]; rfl)) leased holding heard offered returned

theorem Stage.look (hs : x.step? (.look i) = some y) : y.Stage := by
  simp only [step?] at hs
  split at hs
  case isFalse => cases hs
  case isTrue hi =>
    have live := h.live_of_waiting hi
    have after := fun c hd => h.live_set (c := c) hi hd
    unfold Handle.taking at hs
    cases h
    case unmade l _ _ _ _ => cases live.symm.trans l
    case asked claim l le ho he o r =>
      rw [claim] at hs
      cases hs
      exact .asked claim l le ho he o r
    case held claim l ho he o r =>
      rw [claim] at hs
      cases hs
      exact .held claim l ho he o r
    case given s claim _ ho he o r =>
      rw [claim] at hs
      cases hs
      exact .settled rfl (after (.returned (some s)) _) ho (fun _ => he) o r ⟨Nat.le_refl 1, Nat.le_refl 1⟩ rfl
    case settled claim l ho he o r once kept =>
      rw [claim] at hs
      cases hs
      cases live.symm.trans l
      exact .settled claim (after (.returned none) _) ho he o r ⟨by decide, once.right⟩ kept

theorem Stage.giveUp (hs : x.step? (.giveUp i) = some y) : y.Stage := by
  simp only [step?] at hs
  split at hs
  case isFalse => cases hs
  case isTrue hi =>
    have live := h.live_of_waiting hi
    have after := fun c hd => h.live_set (c := c) hi hd
    unfold Handle.abandonTake at hs
    cases h
    case unmade l _ _ _ _ => cases live.symm.trans l
    case asked claim _ le ho he o r =>
      rw [claim] at hs
      cases hs
      exact .asked rfl (after (.dropped none) _) le ho he o r
    case held claim _ ho he o r =>
      rw [claim] at hs
      cases hs
      exact .held rfl (after (.dropped none) _) ho he o r
    case given s claim _ ho he o r =>
      rw [claim] at hs
      cases hs
      exact .settled rfl (after (.dropped (some s)) _) ho (fun _ => he) o r ⟨Nat.le_refl 1, Nat.le_refl 1⟩ rfl
    case settled claim l ho he o r once kept =>
      rw [claim] at hs
      cases hs
      cases live.symm.trans l
      exact .settled claim (after (.dropped none) _) ho he o r ⟨by decide, once.right⟩ kept

theorem Stage.poll (hs : x.step? .poll = some y) : y.Stage := by
  simp only [step?] at hs
  split at hs
  case isFalse => cases hs
  case isTrue hp =>
    cases hs
    unfold Handle.event
    split
    case isTrue => exact h.same rfl rfl rfl (Bool.or_false _) (by simp) rfl rfl
    case isFalse =>
      split
      case h_1 w claim =>
        cases h
        case asked claim' l _ _ _ o r =>
          cases claim.symm.trans claim'
          exact .held rfl l (Bool.or_true _) (by simp) o r
        all_goals cases claim.symm.trans ‹_›
      case h_2 => exact h.same rfl rfl rfl (Bool.or_false _) (by simp) rfl rfl

theorem Stage.handOver (hs : x.step? (.handOver s) = some y) : y.Stage := by
  simp only [step?] at hs
  split at hs
  case isFalse => cases hs
  case isTrue hp =>
    unfold Handle.handOver at hs
    cases h <;> try cases hp.symm.trans ‹x.holding = false›
    case held w claim live holding heard offered returned =>
    rw [claim] at hs
    cases w <;> cases hs
    · exact .settled rfl live rfl (fun _ => heard) (congrArg (s :: ·) offered)
        (congrArg (s :: ·) returned) ⟨Nat.le_refl 1, Nat.le_refl 1⟩ rfl
    · exact .given rfl live rfl heard (congrArg (s :: ·) offered) returned

theorem Stage.dropClaim (hs : x.step? .dropClaim = some y) : y.Stage := by
  simp only [step?] at hs
  split at hs
  case isFalse => cases hs
  case isTrue hp =>
    unfold Handle.dropClaim at hs
    cases h <;> try cases hp.symm.trans ‹x.holding = false›
    case held w claim live holding heard offered returned =>
    rw [claim] at hs
    cases hs
    exact .settled rfl live rfl (fun _ => heard) offered returned ⟨Nat.le_refl 1, Nat.zero_le 1⟩
      (by cases w <;> rfl)

theorem Stage.dropLease (hs : x.step? .dropLease = some y) : y.Stage := by
  simp only [step?] at hs
  split at hs
  case isFalse => cases hs
  case isTrue hp =>
    unfold Handle.dropLease at hs
    cases h
    case unmade claim l ho he o r =>
      rw [claim] at hs
      cases hs
      exact .unmade rfl l ho he o r
    case asked w claim l _ ho he o r =>
      rw [claim] at hs
      cases hs
      exact .settled rfl l ho nofun o r ⟨Nat.le_refl 1, Nat.zero_le 1⟩ (by cases w <;> rfl)
    case held claim l ho he o r =>
      rw [claim] at hs
      cases hs
      exact .held rfl l ho he o r
    case given claim l ho he o r =>
      rw [claim] at hs
      cases hs
      exact .given rfl l ho he o r
    case settled claim l ho he o r once kept =>
      rw [claim] at hs
      cases hs
      exact .settled rfl l ho nofun o r once kept

end

theorem Stage.step (h : x.Stage) (hs : x.step? m = some y) : y.Stage := by
  cases m
  case call        => exact h.call hs
  case look        => exact h.look hs
  case giveUp      => exact h.giveUp hs
  case close       => cases hs; exact h.same rfl rfl rfl rfl .rfl rfl rfl
  case poll        => exact h.poll hs
  case handOver    => exact h.handOver hs
  case dropClaim   => exact h.dropClaim hs
  case dropLease   => exact h.dropLease hs

theorem Stage.start (name : Name) (peer : Peer) : (start name peer).Stage :=
  .unmade rfl rfl rfl List.not_mem_nil rfl rfl

theorem run?_keeps {P : Exchange → Prop} (keep : ∀ {x m y}, P x → x.step? m = some y → P y) (h : P x)
    (run : x.run? ms = some y) : P y := by
  induction ms generalizing x
  case nil =>
    cases run
    exact h
  case cons m ms hi =>
    have ⟨z, hs, run⟩ := Option.bind_eq_some_iff.mp run
    exact hi (keep h hs) run

theorem run?_append {fs : List Move} : x.run? (ms ++ fs) = (x.run? ms).bind fun y => y.run? fs := by
  induction ms generalizing x
  case nil => rfl
  case cons m ms hi => cases hs : x.step? m <;> simp [run?, hs, hi]

theorem Stage.of_run (run : (Exchange.start name peer).run? ms = some x) : x.Stage :=
  run?_keeps Stage.step (.start name peer) run

-- The connections that were offered have come back, are on their way or have got to a call.
theorem Stage.custody (h : x.Stage) :
    x.offered = x.returned ++ x.underway ++ x.calls.flatMap Call.got ∧ x.offered.length ≤ 1 := by
  have only : x.calls.flatMap Call.got = x.live.flatMap Call.got := by
    unfold live
    induction x.calls
    case nil => rfl
    case cons c cs hi =>
      rw [List.flatMap_cons, List.filter_cons, hi]
      split
      case isTrue  => rfl
      case isFalse hc =>
        have nothing : c = .returned none := by simpa [Call.isLive] using hc
        rw [nothing]
        rfl
  rw [only, underway]
  cases h
  case asked w claim live _ _ _ offered returned =>
    rw [claim, live, offered, returned]
    cases w <;> exact ⟨rfl, Nat.zero_le 1⟩
  case held w claim live _ _ offered returned =>
    rw [claim, live, offered, returned]
    cases w <;> exact ⟨rfl, Nat.zero_le 1⟩
  case settled claim live _ _ offered returned once kept =>
    rw [claim, live, offered, returned, List.append_nil]
    exact ⟨kept, once.right⟩
  all_goals simp [*, Call.got]

theorem follows_of_step (hs : x.step? m = some y) : x.handle.Follows y.handle := by
  cases m <;> simp only [step?] at hs
  case call =>
    cases hs
    exact Handle.take_follows
  case look =>
    (repeat' split at hs) <;> cases hs
    case h_1 | h_2 => exact .refl _
    case h_3       => exact Handle.pickUp_follows
  case close =>
    cases hs
    exact Handle.close_follows
  case giveUp    => split at hs <;> cases hs; exact Handle.abandonTake_follows
  case poll      => split at hs <;> cases hs; exact Handle.event_follows
  case handOver  => split at hs <;> cases hs; exact Handle.handOver_follows
  case dropClaim => split at hs <;> cases hs; exact Handle.dropClaim_follows
  case dropLease => split at hs <;> cases hs; exact Handle.dropLease_follows

theorem calls_of_step (hs : x.step? m = some y) : y.calls = x.calls ∨
    (∃ c, y.calls = x.calls ++ [c] ∧ (x.handle.closed = true → c = .returned none)) ∨
    ∃ i c, x.calls[i]? = some .waiting ∧ y.calls = x.calls.set i c := by
  cases m <;> simp only [step?] at hs
  case call =>
    cases hs
    refine .inr <| .inl ⟨_, rfl, fun hc => ?_⟩
    simp [Handle.take, hc]
  case look =>
    (repeat' split at hs) <;> cases hs
    case h_1       => exact .inl rfl
    case h_2 | h_3 => exact .inr <| .inr ⟨_, _, ‹_›, rfl⟩
  case giveUp =>
    split at hs <;> cases hs
    exact .inr <| .inr ⟨_, _, ‹_›, rfl⟩
  case close => cases hs; exact .inl rfl
  all_goals split at hs <;> cases hs; exact .inl rfl

structure Late (n : Nat) (x : Exchange) : Prop where
  closed  : x.handle.closed = true
  nothing : ∀ {i c}, n ≤ i → x.calls[i]? = some c → c = .returned none

theorem Late.step {n : Nat} (h : x.Late n) (hs : x.step? m = some y) : y.Late n := by
  refine ⟨(follows_of_step hs).closed h.closed, fun {j c} hn hj => ?_⟩
  obtain hy | ⟨d, hy, hd⟩ | ⟨i, d, hi, hy⟩ := calls_of_step hs <;> rw [hy] at hj
  case inl => exact h.nothing hn hj
  case inr.inl =>
    rw [List.getElem?_append] at hj
    split at hj
    case isTrue  => exact h.nothing hn hj
    case isFalse =>
      have mem := List.mem_singleton.mp (List.mem_of_getElem? hj)
      exact mem.trans (hd h.closed)
  case inr.inr =>
    have ne : i ≠ j := fun he => by cases h.nothing hn (he ▸ hi)
    exact h.nothing hn ((List.getElem?_set_ne ne).symm.trans hj)

-- A connection has been delivered to a call: it is there to be picked up, or it has been, or the call was
-- given up when it was there.
def Delivered (i : Nat) (s : Stream) (x : Exchange) : Prop :=
  x.calls[i]? = some .waiting ∧ x.handle.taking = .got s ∨
    x.calls[i]? = some (.returned (some s)) ∨ x.calls[i]? = some (.dropped (some s))

theorem getElem?_set_of_some (hi : x.calls[i]? = some a) : (x.calls.set i c)[i]? = some c := by
  have ⟨hl, _⟩ := List.getElem?_eq_some_iff.mp hi
  exact List.getElem?_set_self hl

theorem getElem?_of_step (hs : x.step? m = some y) (hi : x.calls[i]? = some c) (hc : c ≠ .waiting) :
    y.calls[i]? = some c := by
  obtain hy | ⟨d, hy, -⟩ | ⟨j, d, hj, hy⟩ := calls_of_step hs <;> rw [hy]
  case inl     => exact hi
  case inr.inl =>
    have ⟨hl, _⟩ := List.getElem?_eq_some_iff.mp hi
    rw [List.getElem?_append_left hl, hi]
  case inr.inr =>
    have ne : j ≠ i := fun he => hc (Option.some.inj (hi.symm.trans (he ▸ hj)))
    rw [List.getElem?_set_ne ne, hi]

theorem Stage.claim_of_got (h : x.Stage) (ht : x.handle.taking = .got s) :
    x.handle.claim = .given s ∧ x.holding = false ∧ some .claimed ∈ x.found := by
  unfold Handle.taking at ht
  cases h
  case given claim _ holding heard _ _ =>
    rw [claim] at ht
    cases ht
    exact ⟨claim, holding, heard⟩
  all_goals simp [*] at ht

theorem Delivered.step (d : x.Delivered i s) (h : x.Stage) (hs : x.step? m = some y) :
    y.Delivered i s := by
  obtain ⟨hi, ht⟩ | hi | hi := d
  case inr.inl => exact .inr <| .inl <| getElem?_of_step hs hi nofun
  case inr.inr => exact .inr <| .inr <| getElem?_of_step hs hi nofun
  case inl =>
  have ⟨claim, holding, heard⟩ := h.claim_of_got ht
  have given {hd : Handle} (hc : hd.claim = .given s) : hd.taking = .got s := by
    simp [Handle.taking, hc]
  cases m <;> simp only [step?] at hs
  case call =>
    have refused : x.handle.take = (false, x.handle) := by simp [Handle.take, claim]
    cases hs
    have ⟨hl, _⟩ := List.getElem?_eq_some_iff.mp hi
    exact .inl ⟨(List.getElem?_append_left hl).trans hi, refused ▸ ht⟩
  case look j =>
    split at hs
    case isFalse => cases hs
    case isTrue hj =>
      cases h.eq_of_live hj hi rfl rfl
      rw [ht] at hs
      cases hs
      exact .inr <| .inl <| getElem?_set_of_some hi
  case giveUp j =>
    split at hs
    case isFalse => cases hs
    case isTrue hj =>
      cases h.eq_of_live hj hi rfl rfl
      have left : x.handle.abandonTake.1 = some s := by simp [Handle.abandonTake, claim]
      cases hs
      exact .inr <| .inr <| left ▸ getElem?_set_of_some hi
  case close     => cases hs; exact .inl ⟨hi, given claim⟩
  case poll      => simp [heard] at hs
  case handOver  => simp [holding] at hs
  case dropClaim => simp [holding] at hs
  case dropLease =>
    split at hs <;> cases hs
    exact .inl ⟨hi, given (by simp [Handle.dropLease, claim])⟩

def Pends (i : Nat) (x : Exchange) : Prop := x.calls[i]? = some .waiting ∧ x.handle.taking = .waiting

def Queued (x : Exchange) : Prop := x.handle.claim = .asked true ∧ x.handle.leased = true

def Held (x : Exchange) : Prop := x.handle.claim = .held true ∧ x.holding = true

def Resolves (i : Nat) (x : Exchange) : Prop :=
  ∃ y, x.step? (.look i) = some y ∧ y.calls[i]? = some (.returned none)

theorem resolves_of_settled (hi : x.calls[i]? = some .waiting) (claim : x.handle.claim = .settled) :
    x.Resolves i := by
  refine ⟨{ x with calls := x.calls.set i (.returned none) }, ?_, getElem?_set_of_some hi⟩
  simp [step?, hi, Handle.taking, claim]

-- A connection that is handed over gets to the one call that waits, or comes back if none does.
theorem Stage.handsOver (h : x.Stage) (hs : x.step? (.handOver s) = some y) :
    (∃ i : Nat, (∀ j : Nat, x.calls[j]? = some .waiting ↔ j = i) ∧ y.returned = x.returned ∧
      ∀ ms z, y.run? ms = some z → z.Delivered i s) ∨
    (∀ j : Nat, x.calls[j]? ≠ some .waiting) ∧ y.calls = x.calls ∧ y.returned = s :: x.returned := by
  have stage := h.step hs
  simp only [step?] at hs
  split at hs
  case isFalse => cases hs
  case isTrue hp =>
  unfold Handle.handOver at hs
  cases h
  case held w claim live holding heard offered returned =>
    rw [claim] at hs
    cases w <;> cases hs
    case true =>
      have mem : Call.waiting ∈ x.live := by simp [live, Call.asking]
      obtain ⟨i, hi⟩ := List.getElem?_of_mem (List.mem_filter.mp mem).left
      refine .inl ⟨i, fun j => ⟨fun hj => ?_, fun he => he ▸ hi⟩, rfl, fun ms z run => ?_⟩
      · exact (Stage.held claim live holding heard offered returned).eq_of_live hj hi rfl rfl
      · exact (run?_keeps (P := fun z => z.Stage ∧ z.Delivered i s)
          (fun hz hs => ⟨hz.left.step hs, hz.right.step hz.left hs⟩) ⟨stage, .inl ⟨hi, rfl⟩⟩ run).right
    case false =>
      refine .inr ⟨fun j hj => ?_, rfl, rfl⟩
      have mem := mem_live hj rfl
      rw [live] at mem
      cases List.mem_singleton.mp mem
  all_goals cases hp.symm.trans ‹x.holding = false›

-- A call goes on waiting only as long as its request waits at the lease or the provider has it in its
-- hands, and comes back with nothing when the provider gives that up.
theorem Stage.pends (h : x.Stage) (hp : x.Pends i) :
    (x.Queued ∧ ∃ y, x.step? .dropLease = some y ∧ y.Resolves i) ∨
      x.Held ∧ ∃ y, x.step? .dropClaim = some y ∧ y.Resolves i := by
  have ⟨hi, ht⟩ := hp
  have live := h.live_of_waiting hi
  unfold Handle.taking at ht
  cases h
  case unmade l _ _ _ _ => cases live.symm.trans l
  case asked w claim l leased _ _ _ _ =>
    cases w <;> cases live.symm.trans l
    refine .inl ⟨⟨claim, leased⟩, { x with handle := x.handle.dropLease }, by simp [step?, leased], ?_⟩
    exact resolves_of_settled hi (by simp [Handle.dropLease, claim])
  case held w claim l holding _ _ _ =>
    cases w <;> cases live.symm.trans l
    refine .inr ⟨⟨claim, holding⟩, { x with handle := x.handle.dropClaim, holding := false },
      by simp [step?, holding], ?_⟩
    exact resolves_of_settled hi (by simp [Handle.dropClaim, claim])
  case given claim _ _ _ _ _ | settled claim _ _ _ _ _ _ _ => simp [claim] at ht

theorem poll_of_closed (hc : x.handle.closed = true) (hs : x.step? .poll = some y) :
    y = { x with found := x.found ++ [some .closed] } := by
  simp only [step?] at hs
  split at hs <;> cases hs
  simp [Handle.event, hc]

-- However the two sides of a handle move, one call at most gets the connection, and none does that is
-- started after the handle was closed. A connection that is handed over is delivered to the one call that
-- waits and stays with it, or comes back unchanged if there is none. A call waits only as long as its
-- request waits at the lease or is in the provider's hands, and the provider of a closed handle finds
-- that it is closed and no claim.
theorem handed_over_once (run : (Exchange.start name peer).run? ms = some x) :
    (∀ (i j : Nat) s t, x.calls[i]? = some (.returned (some s)) →
      x.calls[j]? = some (.returned (some t)) → i = j) ∧
    (∀ before after y, ms = before ++ .close :: after → (start name peer).run? before = some y →
      ∀ (i : Nat) c, y.calls.length ≤ i → x.calls[i]? = some c → c = .returned none) ∧
    (x.offered = x.returned ++ x.underway ++ x.calls.flatMap Call.got ∧ x.offered.length ≤ 1) ∧
    (∀ s y, x.step? (.handOver s) = some y →
      (∃ i : Nat, (∀ j : Nat, x.calls[j]? = some .waiting ↔ j = i) ∧ y.returned = x.returned ∧
        ∀ ms z, y.run? ms = some z → z.Delivered i s) ∨
      (∀ j : Nat, x.calls[j]? ≠ some .waiting) ∧ y.calls = x.calls ∧ y.returned = s :: x.returned) ∧
    (∀ i, x.Pends i → (x.Queued ∧ ∃ y, x.step? .dropLease = some y ∧ y.Resolves i) ∨
      x.Held ∧ ∃ y, x.step? .dropClaim = some y ∧ y.Resolves i) ∧
    (x.handle.closed = true → ∀ y, x.step? .poll = some y →
      y = { x with found := x.found ++ [some .closed] }) := by
  have stage := Stage.of_run run
  refine ⟨fun i j s t hi hj => stage.eq_of_live hi hj rfl rfl, ?_, stage.custody,
    fun s y hs => stage.handsOver hs, fun i => stage.pends, fun hc y => poll_of_closed hc⟩
  rintro before after y rfl early i c hi
  rw [run?_append, early] at run
  have late : Late y.calls.length { y with handle := y.handle.close } :=
    ⟨rfl, fun hn hj => absurd hj (by simp [hn])⟩
  exact (run?_keeps (P := Late y.calls.length) Late.step late run).nothing hi

def early : Stream := { wire := 0, pending := .ofList [82, 70, 66] }

def contended : List Move := [.call, .call, .poll, .handOver early, .look 0] ++ .close :: [.call]

theorem handed_over_once_contended :
    ∃ x, (start ⟨"cam1", by decide⟩ {}).run? contended = some x ∧
      x.calls = [.returned (some early), .returned none, .returned none] ∧
      x.offered = x.returned ++ x.underway ++ x.calls.flatMap Call.got ∧
      ∀ (i : Nat) c, 2 ≤ i → x.calls[i]? = some c → c = .returned none := by
  have reached : ∃ x, (start ⟨"cam1", by decide⟩ {}).run? contended = some x ∧
      x.calls = [.returned (some early), .returned none, .returned none] :=
    Option.map_eq_some_iff.mp (by decide)
  have served : ∃ x, (start ⟨"cam1", by decide⟩ {}).run? [.call, .call, .poll, .handOver early, .look 0] =
      some x ∧ x.calls.length = 2 :=
    Option.map_eq_some_iff.mp (by decide)
  have ⟨x, run, calls⟩ := reached
  have ⟨y, before, two⟩ := served
  have ⟨_, late, custody, _⟩ := handed_over_once run
  exact ⟨x, run, calls, custody.left, fun i c hi => late _ _ y rfl before i c (two ▸ hi)⟩

end Exchange
end Rendezvous
