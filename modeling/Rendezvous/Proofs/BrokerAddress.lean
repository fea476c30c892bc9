import Rendezvous.Error

namespace Rendezvous

namespace BrokerAddress

variable {p q s t u : String} {a : BrokerAddress}

def Begins (p s : String) : Prop := ∃ rest, s = p ++ rest

def Schemed (t : String) : Prop := ∃ before after, t = before ++ "://" ++ after

def Targets (s t : String) : Prop := s = "tcp://" ++ t ∨ s = t ∧ ¬Begins "tcp://" s

theorem begins_iff : Begins p s ↔ p.toList <+: s.toList := by
  constructor
  case mp =>
    rintro ⟨rest, rfl⟩
    exact ⟨rest.toList, String.toList_append.symm⟩
  case mpr =>
    rintro ⟨rest, h⟩
    exact ⟨.ofList rest, by rw [← String.toList_inj, String.toList_append, String.toList_ofList, h]⟩

-- No text begins in two ways, unless one of them begins with the other.
theorem Begins.not_begins (hp : Begins p s)
    (apart : ¬p.toList <+: q.toList ∧ ¬q.toList <+: p.toList) : ¬Begins q s := by
  intro hq
  have either := List.prefix_or_prefix_of_prefix (begins_iff.mp hp) (begins_iff.mp hq)
  exact either.elim apart.left apart.right

theorem hasScheme_iff {cs : List Char} : hasScheme cs = true ↔ schemeMark <:+: cs := by
  induction cs
  case nil => decide
  case cons c cs hi => rw [hasScheme, Bool.or_eq_true, List.isPrefixOf_iff_prefix, hi, List.infix_cons_iff]

theorem schemed_iff : Schemed t ↔ schemeMark <:+: t.toList := by
  constructor
  case mp =>
    rintro ⟨before, after, rfl⟩
    exact ⟨before.toList, after.toList, by rw [String.toList_append, String.toList_append]; rfl⟩
  case mpr =>
    rintro ⟨before, after, h⟩
    refine ⟨.ofList before, .ofList after, ?_⟩
    simp only [← String.toList_inj, ← h, String.toList_append, String.toList_ofList, schemeMark]

theorem targets_iff : Targets s t ↔ withoutTcp s.toList = t.toList := by
  have drop : ∀ rest : String, ("tcp://" ++ rest).toList.drop 6 = rest.toList := by
    intro rest
    rw [String.toList_append]
    rfl
  unfold withoutTcp Targets
  split
  case isTrue h =>
    obtain ⟨rest, rfl⟩ := begins_iff.mpr (List.isPrefixOf_iff_prefix.mp h)
    rw [drop, String.toList_inj, String.append_right_inj]
    exact or_iff_left fun h => h.right ⟨rest, rfl⟩
  case isFalse h =>
    have bare : ¬Begins "tcp://" s := fun hb => h (List.isPrefixOf_iff_prefix.mpr (begins_iff.mp hb))
    rw [String.toList_inj, or_iff_right fun ht => bare ⟨t, ht⟩, and_iff_left bare]

theorem exists_targets (s : String) : ∃ t, Targets s t :=
  ⟨.ofList (withoutTcp s.toList), targets_iff.mpr String.toList_ofList.symm⟩

theorem Targets.unique (ht : Targets s t) (hu : Targets s u) : t = u :=
  String.toList_inj.mp ((targets_iff.mp ht).symm.trans (targets_iff.mp hu))

theorem ofString_cases (ht : Targets s t) :
    Begins "wss://" s ∧ ofString s = .error .tlsUnsupported ∨
    Begins "ws://" s ∧ ofString s = .ok (.webSocket s) ∨
    ¬Begins "wss://" s ∧ ¬Begins "ws://" s ∧
      ((t = "" ∨ Schemed t) ∧ ofString s = .error .unexpectedForm ∨
        ¬(t = "" ∨ Schemed t) ∧ ofString s = .ok (.tcp t)) := by
  have faulty : ((withoutTcp s.toList).isEmpty || hasScheme (withoutTcp s.toList)) = true ↔
      t = "" ∨ Schemed t := by
    rw [targets_iff.mp ht, Bool.or_eq_true, hasScheme_iff, schemed_iff, List.isEmpty_iff,
      String.toList_eq_nil_iff]
  have begun {p : String} : p.toList.isPrefixOf s.toList = true ↔ Begins p s := by
    rw [List.isPrefixOf_iff_prefix, begins_iff]
  by_cases tls : Begins "wss://" s
  case pos => exact .inl ⟨tls, if_pos (begun.mpr tls)⟩
  case neg =>
    have past : ofString s = _ := if_neg (mt begun.mp tls)
    by_cases url : Begins "ws://" s
    case pos => exact .inr <| .inl ⟨url, past.trans (if_pos (begun.mpr url))⟩
    case neg =>
      have past := past.trans (if_neg (mt begun.mp url))
      refine .inr <| .inr ⟨tls, url, ?_⟩
      by_cases bad : t = "" ∨ Schemed t
      case pos => exact .inl ⟨bad, past.trans (if_pos (faulty.mpr bad))⟩
      case neg =>
        refine .inr ⟨bad, past.trans ((if_neg (mt faulty.mp bad)).trans ?_)⟩
        rw [targets_iff.mp ht, String.ofList_toList]

theorem Begins.schemed (h : Begins (p ++ "://") s) : Schemed s := by
  obtain ⟨rest, rfl⟩ := h
  exact ⟨p, rest, rfl⟩

theorem url_not_tls (h : Begins "ws://" s) : ¬Begins "wss://" s :=
  h.not_begins (by decide)

theorem Targets.schemed (ht : Targets s t) (h : Begins "ws://" s ∨ Begins "wss://" s) : Schemed t := by
  have plain : ¬Begins "tcp://" s := h.elim (·.not_begins (by decide)) (·.not_begins (by decide))
  obtain rfl | ⟨rfl, -⟩ := ht
  · exact absurd ⟨t, rfl⟩ plain
  · exact h.elim (Begins.schemed (p := "ws")) (Begins.schemed (p := "wss"))

theorem ofString_eq_webSocket : ofString s = .ok (.webSocket u) ↔ u = s ∧ Begins "ws://" s := by
  obtain ⟨t, ht⟩ := exists_targets s
  obtain ⟨tls, h⟩ | ⟨url, h⟩ | ⟨-, noUrl, ⟨-, h⟩ | ⟨-, h⟩⟩ := ofString_cases ht <;> rw [h]
  · simp [imp_not_comm.mp url_not_tls tls]
  · simp [url, eq_comm]
  · simp [noUrl]
  · simp [noUrl]

theorem ofString_eq_tcp : ofString s = .ok (.tcp t) ↔ Targets s t ∧ t ≠ "" ∧ ¬Schemed t := by
  constructor
  case mp =>
    intro ok
    obtain ⟨u, hu⟩ := exists_targets s
    obtain ⟨-, h⟩ | ⟨-, h⟩ | ⟨-, -, ⟨-, h⟩ | ⟨good, h⟩⟩ := ofString_cases hu <;> cases h.symm.trans ok
    exact ⟨hu, not_or.mp good⟩
  case mpr =>
    rintro ⟨ht, ne, plain⟩
    obtain ⟨tls, -⟩ | ⟨url, -⟩ | ⟨-, -, ⟨bad, -⟩ | ⟨-, h⟩⟩ := ofString_cases ht
    · exact absurd (ht.schemed (.inr tls)) plain
    · exact absurd (ht.schemed (.inl url)) plain
    · exact absurd bad (not_or.mpr ⟨ne, plain⟩)
    · exact h

theorem ofString_eq_tlsUnsupported : ofString s = .error .tlsUnsupported ↔ Begins "wss://" s := by
  obtain ⟨t, ht⟩ := exists_targets s
  obtain ⟨tls, h⟩ | ⟨url, h⟩ | ⟨noTls, -, ⟨-, h⟩ | ⟨-, h⟩⟩ := ofString_cases ht <;> rw [h]
  · simp [tls]
  · simp [url_not_tls url]
  · simp [noTls]
  · simp [noTls]

theorem ofString_eq_unexpectedForm : ofString s = .error .unexpectedForm ↔
    ¬Begins "wss://" s ∧ ¬Begins "ws://" s ∧ ∃ t, Targets s t ∧ (t = "" ∨ Schemed t) := by
  obtain ⟨t, ht⟩ := exists_targets s
  have only : (∃ u, Targets s u ∧ (u = "" ∨ Schemed u)) ↔ t = "" ∨ Schemed t := by
    refine ⟨?_, fun bad => ⟨t, ht, bad⟩⟩
    rintro ⟨u, hu, bad⟩
    exact ht.unique hu ▸ bad
  rw [only]
  obtain ⟨tls, h⟩ | ⟨url, h⟩ | ⟨noTls, noUrl, ⟨bad, h⟩ | ⟨good, h⟩⟩ := ofString_cases ht <;> rw [h]
  · simp [tls]
  · simp [url]
  · simp [noTls, noUrl, bad]
  · simp [good]

theorem ofString_display (h : ofString s = .ok a) : ofString a.display = .ok a := by
  cases a
  case webSocket url =>
    obtain ⟨rfl, -⟩ := ofString_eq_webSocket.mp h
    exact h
  case tcp target =>
    obtain ⟨-, plain⟩ := ofString_eq_tcp.mp h
    exact ofString_eq_tcp.mpr ⟨.inl rfl, plain⟩

-- An address is written as the text that it was read from, with its scheme.
theorem display_of_ofString (h : ofString s = .ok a) : a.display = s ∨ a.display = "tcp://" ++ s := by
  cases a
  case webSocket url => exact .inl (ofString_eq_webSocket.mp h).left
  case tcp target =>
    obtain ⟨rfl | ⟨rfl, -⟩, -⟩ := ofString_eq_tcp.mp h
    · exact .inl rfl
    · exact .inr rfl

end BrokerAddress

section

variable {s : String} {a : BrokerAddress} {e : Error}

theorem parseBroker_eq_ok : parseBroker s = .ok a ↔ BrokerAddress.ofString s = .ok a := by
  unfold parseBroker
  split <;> simp_all

theorem parseBroker_eq_error : parseBroker s = .error e ↔
    ∃ cause, e = .invalidAddress s cause ∧ BrokerAddress.ofString s = .error cause := by
  unfold parseBroker
  split
  case h_1 h => simp [h]
  case h_2 h => simp [h, eq_comm]

end

namespace BrokerAddress

-- A text is the address of a WebSocket exactly if it begins with that scheme, and the address of a plain
-- connection exactly if there is a target without a scheme behind at most one scheme for plain connections.
-- All other texts are refused, each with itself: those that ask for encryption, and those with no target
-- or with one that has a scheme. An address is written as the text that it was read from, with its scheme,
-- and that text is read as the same address.
theorem broker_addresses_normalise (s : String) :
    (∀ a, parseBroker s = .ok a →
      parseBroker a.display = .ok a ∧ (a.display = s ∨ a.display = "tcp://" ++ s)) ∧
    (∀ u, parseBroker s = .ok (.webSocket u) ↔ u = s ∧ Begins "ws://" s) ∧
    (∀ t, parseBroker s = .ok (.tcp t) ↔ Targets s t ∧ t ≠ "" ∧ ¬Schemed t) ∧
    ∀ e, parseBroker s = .error e ↔
      e = .invalidAddress s .tlsUnsupported ∧ Begins "wss://" s ∨
      e = .invalidAddress s .unexpectedForm ∧ ¬Begins "wss://" s ∧ ¬Begins "ws://" s ∧
        ∃ t, Targets s t ∧ (t = "" ∨ Schemed t) := by
  simp only [parseBroker_eq_ok, parseBroker_eq_error]
  refine ⟨fun a h => ⟨ofString_display h, display_of_ofString h⟩, fun _ => ofString_eq_webSocket,
    fun _ => ofString_eq_tcp, fun e => ?_⟩
  rw [← ofString_eq_unexpectedForm, ← ofString_eq_tlsUnsupported]
  constructor
  case mp =>
    rintro ⟨_ | _, he, h⟩
    · exact .inl ⟨he, h⟩
    · exact .inr ⟨he, h⟩
  case mpr =>
    rintro (⟨he, h⟩ | ⟨he, h⟩)
    · exact ⟨_, he, h⟩
    · exact ⟨_, he, h⟩

theorem broker_addresses_normalise_nested :
    parseBroker "relay:8888" = .ok (.tcp "relay:8888") ∧
      (BrokerAddress.tcp "relay:8888").display = "tcp://relay:8888" ∧
      parseBroker "tcp://relay:8888" = .ok (.tcp "relay:8888") ∧
      ∃ e, parseBroker "tcp://tcp://relay:8888" = .error e := by
  have bare : parseBroker "relay:8888" = .ok (.tcp "relay:8888") := rfl
  obtain ⟨settled, -⟩ := broker_addresses_normalise "relay:8888"
  obtain ⟨-, -, -, refused⟩ := broker_addresses_normalise "tcp://tcp://relay:8888"
  refine ⟨bare, rfl, (settled _ bare).left, _, (refused _).mpr (.inr ⟨rfl, ?_, ?_, ?_⟩)⟩
  · exact mt begins_iff.mp (by decide)
  · exact mt begins_iff.mp (by decide)
  · exact ⟨"tcp://relay:8888", .inl rfl, .inr ⟨"tcp", "relay:8888", rfl⟩⟩

end BrokerAddress
end Rendezvous
