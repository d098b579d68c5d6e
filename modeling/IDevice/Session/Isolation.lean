import IDevice.Session.Model

/-!
# `Session.Isolation` — what a session sees of the ones before it

`Disconnect` resets neither the parser nor the handlers. A session is isolated from the ones before it when
there is nothing to reset: it begins with an empty parsing buffer, which only a parser has that has not
parsed anything yet (`parsingBuffer_ne_nil`), and no handler is left.
-/

namespace IDevice
namespace Session

variable {s t : Session}

/-- What the session has parsed, and whether it met an error, is what comes out of a fresh parser for the
    packets of the session, and every callback that was invoked had been registered in the session of the
    message. -/
structure Isolated (s : Session) : Prop where
  parsed : ∃ r, Machine.exec ParsingRun.step {} s.packets = some r ∧
    r.parsed = s.parsing.parsed ∧ r.failed = s.parsing.failed
  invoked : ∀ i ∈ s.invocations, i.registered = i.session

/-- A session parses its first packet with an empty buffer, and `Disconnect` leaves no handler. -/
def NothingLeft (s : Session) : SessionLabel → Prop
  | .parse => s.packets = [] → s.parsing.parser.parsingBuffer = []
  | .disconnect => s.handlersByIdentifier = []
  | _ => True

instance (s : Session) : ∀ l, Decidable (NothingLeft s l)
  | .parse => inferInstanceAs (Decidable (_ → _))
  | .disconnect => inferInstanceAs (Decidable (s.handlersByIdentifier = []))
  | .connect | .register .. | .receive _ | .route => isTrue trivial

/-- A call with a packet leaves something in the parsing buffer, also when it consumes everything. -/
theorem parsingBuffer_ne_nil {p q : DTXMessageParser} {packet : Bytes} {ret : Bool} (hpacket : packet ≠ [])
    (h : p.parseIncomingBytes packet = some (ret, q)) : q.parsingBuffer ≠ [] := by
  have happend : p.parsingBuffer ++ packet ≠ [] := by simp [hpacket]
  rw [DTXMessageParser.parseIncomingBytes_eq rfl] at h
  split at h
  · obtain ⟨-, rfl⟩ := Prod.mk.inj (Option.some.inj h)
    simp only [DTXMessageParser.leftover]
    split
    · exact happend
    · next hrest => exact hrest
  · obtain ⟨-, rfl⟩ := Prod.mk.inj (Option.some.inj h)
    exact happend
  · cases h

theorem round_parsingBuffer {r r' : ParsingRun} {packet : Bytes} {messages : List ParsedMessage}
    (hpacket : packet ≠ []) (h : r.round packet = some (messages, r')) : r'.parser.parsingBuffer ≠ [] := by
  unfold ParsingRun.round at h
  split at h
  · cases h
  · next q hq =>
    have hbuffer : q.parsingBuffer ≠ [] := parsingBuffer_ne_nil hpacket hq
    obtain ⟨-, rfl⟩ := Prod.mk.inj (Option.some.inj h)
    exact hbuffer
  · next q hq =>
    have hbuffer : q.parsingBuffer ≠ [] := parsingBuffer_ne_nil hpacket hq
    obtain ⟨-, rfl⟩ := Prod.mk.inj (Option.some.inj h)
    exact hbuffer

/-- The session is where a fresh parser is after the same packets, once it has begun to parse, and its
    handlers are its own. -/
structure Clean (s : Session) : Prop where
  nonempty : ∀ packet ∈ s.receiveQueue, packet ≠ []
  parser : s.parsing.parser = {} ∨ s.parsing.parser.parsingBuffer ≠ []
  begun : s.packets = [] → s.parsing = { parser := s.parsing.parser }
  run : s.packets ≠ [] → Machine.exec ParsingRun.step {} s.packets = some s.parsing
  handlers : ∀ h ∈ s.handlersByIdentifier, h.session = s.session
  invoked : ∀ i ∈ s.invocations, i.registered = i.session

theorem clean_init : Clean {} := by
  constructor <;> simp

theorem Clean.isolated (h : Clean s) : Isolated s := by
  refine ⟨?_, h.invoked⟩
  by_cases hpackets : s.packets = []
  · refine ⟨{}, by rw [hpackets]; rfl, ?_⟩
    rw [h.begun hpackets]
    exact ⟨rfl, rfl⟩
  · exact ⟨_, h.run hpackets, rfl, rfl⟩

/-- Before a packet is parsed, the parser is where a fresh one is. -/
theorem Clean.exec_packets (h : Clean s) (hguard : NothingLeft s .parse) :
    Machine.exec ParsingRun.step {} s.packets = some s.parsing := by
  by_cases hpackets : s.packets = []
  · have hparser : s.parsing.parser = {} := h.parser.resolve_right (not_not.mpr (hguard hpackets))
    rw [hpackets, h.begun hpackets, hparser]
    rfl
  · exact h.run hpackets

theorem Clean.parse (h : Clean s) (hguard : NothingLeft s .parse) (hfailed : ¬ s.parsing.failed)
    {packet : Bytes} {rest : List Bytes} (hqueue : s.receiveQueue = packet :: rest)
    (hstep : s.parse packet rest = some t) : Clean t := by
  obtain ⟨⟨messages, parsing⟩, hround, rfl⟩ := Option.map_eq_some_iff.mp hstep
  have hpacket : packet ≠ [] := h.nonempty packet (by simp [hqueue])
  refine ⟨fun p hp => h.nonempty p (by simp [hqueue, hp]), .inr (round_parsingBuffer hpacket hround),
    by simp, fun _ => ?_, h.handlers, h.invoked⟩
  refine Machine.exec_append_eq_some.mpr ⟨_, h.exec_packets hguard, ?_⟩
  simp [Machine.exec, ParsingRun.step, hfailed, hround]

theorem Clean.route (h : Clean s) (m : ParsedMessage) (rest : List ParsedMessage) :
    Clean (s.route m rest) := by
  unfold Session.route
  split
  · next e he =>
    refine ⟨h.nonempty, h.parser, h.begun, h.run, ?_, ?_⟩
    · intro e' he'
      exact h.handlers e' (List.mem_of_mem_filter he')
    · intro i hi
      rcases List.mem_append.mp hi with hi | hi
      · exact h.invoked i hi
      · rw [List.mem_singleton.mp hi]
        exact h.handlers e (List.mem_of_find?_eq_some he)
  · exact ⟨h.nonempty, h.parser, h.begun, h.run, h.handlers, h.invoked⟩

theorem Clean.register (h : Clean s) (key : UInt64) : Clean (s.register key) := by
  unfold Session.register
  split
  · exact h
  · refine ⟨h.nonempty, h.parser, h.begun, h.run, ?_, h.invoked⟩
    intro e he
    rcases List.mem_cons.mp he with rfl | he
    · rfl
    · exact h.handlers e he

theorem clean_step {l : SessionLabel} (h : Clean s) (hguard : NothingLeft s l) (hstep : step s l = some t) :
    Clean t := by
  cases l with
  | connect =>
      simp only [step] at hstep
      split at hstep
      · cases hstep
      · obtain rfl := Option.some.inj hstep
        exact ⟨h.nonempty, h.parser, h.begun, h.run, h.handlers, h.invoked⟩
  | disconnect =>
      simp only [step] at hstep
      split at hstep
      · obtain rfl := Option.some.inj hstep
        refine ⟨by simp, h.parser, fun _ => rfl, by simp, ?_, h.invoked⟩
        -- the handlers that stay would be those of an earlier session now
        have hnone : s.handlersByIdentifier = [] := hguard
        simp [hnone]
      · cases hstep
  | register channelCode msgIdentifier => exact Option.some.inj hstep ▸ h.register _
  | receive packet =>
      simp only [step] at hstep
      split at hstep
      · next hc =>
        obtain rfl := Option.some.inj hstep
        refine ⟨?_, h.parser, h.begun, h.run, h.handlers, h.invoked⟩
        intro packet' hp
        rcases List.mem_append.mp hp with hp | hp
        · exact h.nonempty packet' hp
        · rw [List.mem_singleton.mp hp]
          exact hc.2
      · cases hstep
  | parse =>
      simp only [step] at hstep
      split at hstep
      · next packet rest hqueue =>
        split at hstep
        · next hc =>
          exact h.parse hguard hc.2.1 hqueue hstep
        · cases hstep
      · cases hstep
  | route =>
      simp only [step] at hstep
      split at hstep
      · next m rest hm => exact Option.some.inj hstep ▸ h.route m rest
      · cases hstep

/-- **Sessions do not leak into each other** where nothing is left to leak. -/
theorem isolated_of_nothingLeft {ls : List SessionLabel}
    (hguard : Machine.Follows step NothingLeft {} ls) (hrun : Machine.exec step {} ls = some s) :
    Isolated s := by
  have hclean := Machine.follows_invariant Clean clean_init hguard hrun
    fun _ _ _ h hg hstep => clean_step h hg hstep
  exact hclean.isolated

/-- The condition on handlers is exact where a message is routed: one that finds a handler of an earlier
    session invokes it. -/
theorem not_isolated_route {m : ParsedMessage} {e : SessionHandler} (rest : List ParsedMessage)
    (hfound : s.handlersByIdentifier.find? (·.key = m.key) = some e) (hstale : e.session ≠ s.session) :
    ¬ Isolated (s.route m rest) := by
  intro h
  unfold Session.route at h
  rw [hfound] at h
  exact hstale (h.invoked ⟨e.session, s.session⟩ (by simp))

/-- A first session that parses nothing, and a second one whose message finds the handler of its request. -/
theorem isolated_nothingParsedBefore :
    ∃ s, Machine.exec step {} [.connect, .receive (emptyMessageFrame 7), .disconnect, .connect,
        .register 0 1, .receive (emptyMessageFrame 1), .parse, .route] = some s ∧
      Isolated s ∧ s.invocations = [⟨1, 1⟩] := by
  obtain ⟨s, hs, hobs⟩ := Option.map_eq_some_iff.mp
    (show (Machine.exec step {} [.connect, .receive (emptyMessageFrame 7), .disconnect, .connect,
        .register 0 1, .receive (emptyMessageFrame 1), .parse, .route]).map (·.invocations) =
      some [⟨1, 1⟩] by decide +kernel)
  exact ⟨s, hs, isolated_of_nothingLeft (by decide +kernel) hs, hobs⟩

/-- A first session that is cut inside a header costs the second one its message, and a callback of the
    first session is invoked by a message of the second. -/
theorem not_isolated_leftovers :
    (∃ s, Machine.exec step {} [.connect, .receive ((emptyMessageFrame 1).take 10), .parse, .disconnect,
        .connect, .receive (emptyMessageFrame 2), .parse] = some s ∧ ¬ Isolated s) ∧
    (∃ s, Machine.exec step {} [.connect, .register 0 1, .disconnect, .connect,
        .receive (emptyMessageFrame 1), .parse, .route] = some s ∧ ¬ Isolated s) := by
  constructor
  · obtain ⟨s, hs, hobs⟩ := Option.map_eq_some_iff.mp
      (show (Machine.exec step {} [.connect, .receive ((emptyMessageFrame 1).take 10), .parse, .disconnect,
          .connect, .receive (emptyMessageFrame 2), .parse]).map
            (fun s => (s.packets, s.parsing.parsed.map (·.identifier))) =
        some ([emptyMessageFrame 2], []) by decide +kernel)
    obtain ⟨hpackets, hparsed⟩ := Prod.mk.inj hobs
    refine ⟨s, hs, fun h => ?_⟩
    obtain ⟨r, hr, heq, -⟩ := h.parsed
    have hfresh : (Machine.exec ParsingRun.step {} [emptyMessageFrame 2]).map
        (fun r => r.parsed.map (·.identifier)) = some [2] := by decide +kernel
    rw [← hpackets, hr, Option.map_some, heq, hparsed] at hfresh
    exact absurd hfresh (by decide)
  · obtain ⟨s, hs, hobs⟩ := Option.map_eq_some_iff.mp
      (show (Machine.exec step {} [.connect, .register 0 1, .disconnect, .connect,
          .receive (emptyMessageFrame 1), .parse, .route]).map (·.invocations) =
        some [⟨0, 1⟩] by decide +kernel)
    refine ⟨s, hs, fun h => ?_⟩
    exact absurd (h.invoked ⟨0, 1⟩ (by simp [hobs])) (by decide)

end Session
end IDevice
