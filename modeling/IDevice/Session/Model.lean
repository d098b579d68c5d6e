import IDevice.Connection.Model
import IDevice.Wire.Chunking

/-!
# `Session.Model` — a connection over several sessions

What a `DTXConnection` keeps from one `Connect` to the next: the receive queue, the parser, and the reply
handlers. `Disconnect` joins the threads and clears the queues (the send queue, which does not bear on what
is received, is left out), and nothing else. Its steps are taken as one here: the parsing thread is then
between two rounds of its loop.

Ghost fields say to which session things belong: sessions are numbered by the `Disconnect`s before them.
-/

namespace IDevice

/-- An entry of `_handlers_by_identifier_`, with the session in which it was inserted. -/
structure SessionHandler where
  key : UInt64
  session : Nat
deriving DecidableEq, Repr

/-- A callback that was invoked: the session in which it was registered, and that of the message. -/
structure Invocation where
  registered : Nat
  session : Nat
deriving DecidableEq, Repr

def ParsedMessage.key (m : ParsedMessage) : UInt64 := dtxMessageIdentifier m.channelCode m.identifier

/-- The parsing thread and its parser over the packets of a session. -/
structure ParsingRun where
  parser : DTXMessageParser := {}
  /-- The messages popped so far. -/
  parsed : List ParsedMessage := []
  /-- A packet was rejected, and the thread has left its loop. -/
  failed : Bool := false

namespace ParsingRun

/-- A round of the loop up to the routing: the popped messages; `none` if the parser reads outside its
    buffer. -/
def round (r : ParsingRun) (packet : Bytes) : Option (List ParsedMessage × ParsingRun) :=
  match r.parser.parseIncomingBytes packet with
  | none => none
  | some (false, parser) => some ([], { r with parser := parser, failed := true })
  | some (true, parser) =>
    let (messages, parser) := parser.popAllParsedMessages
    some (messages, { r with parser := parser, parsed := r.parsed ++ messages })

def step (r : ParsingRun) (packet : Bytes) : Option ParsingRun :=
  if r.failed then none else (r.round packet).map (·.2)

end ParsingRun

structure Session where
  connected : Bool := false
  receiveQueue : List Bytes := []
  parsing : ParsingRun := {}
  /-- The popped messages that the parsing thread has still to route. -/
  messages : List ParsedMessage := []
  handlersByIdentifier : List SessionHandler := []
  /-- How many times `Disconnect` has been called. -/
  session : Nat := 0
  /-- The packets that were parsed in this session. -/
  packets : List Bytes := []
  invocations : List Invocation := []

inductive SessionLabel where
  /-- The transport connects, and the threads are started. -/
  | connect
  | disconnect
  /-- `SendMessageAsync` inserts a handler. -/
  | register (channelCode msgIdentifier : UInt32)
  /-- The receive thread pushes a packet, which is not empty. -/
  | receive (packet : Bytes)
  /-- The parsing thread takes a packet, feeds the parser, and pops what is parsed. -/
  | parse
  /-- `RouteMessage`. -/
  | route
deriving DecidableEq

namespace Session

def register (s : Session) (key : UInt64) : Session :=
  if s.handlersByIdentifier.any (·.key = key) then s
  else { s with handlersByIdentifier := ⟨key, s.session⟩ :: s.handlersByIdentifier }

def parse (s : Session) (packet : Bytes) (rest : List Bytes) : Option Session :=
  (s.parsing.round packet).map fun (messages, parsing) =>
    { s with receiveQueue := rest, parsing := parsing, messages := messages,
             packets := s.packets ++ [packet] }

def route (s : Session) (m : ParsedMessage) (rest : List ParsedMessage) : Session :=
  match s.handlersByIdentifier.find? (·.key = m.key) with
  | some h =>
    { s with messages := rest, invocations := s.invocations ++ [⟨h.session, s.session⟩],
             handlersByIdentifier := s.handlersByIdentifier.filter (·.key ≠ m.key) }
  | none => { s with messages := rest }

def step (s : Session) : SessionLabel → Option Session
  | .connect => if s.connected then none else some { s with connected := true }
  | .disconnect =>
    if s.messages = [] then
      some { s with connected := false, receiveQueue := [], parsing := { parser := s.parsing.parser },
                    session := s.session + 1, packets := [] }
    else none
  | .register channelCode msgIdentifier =>
    some (s.register (dtxMessageIdentifier channelCode msgIdentifier))
  | .receive packet =>
    if s.connected ∧ packet ≠ [] then some { s with receiveQueue := s.receiveQueue ++ [packet] } else none
  | .parse =>
    match s.receiveQueue with
    | packet :: rest =>
      if s.connected ∧ ¬ s.parsing.failed ∧ s.messages = [] then s.parse packet rest else none
    | [] => none
  | .route =>
    match s.messages with
    | m :: rest => some (s.route m rest)
    | [] => none

end Session
end IDevice
