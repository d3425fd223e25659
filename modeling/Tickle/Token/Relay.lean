import Tickle.Token.Script

/-!
Scanning ahead. A producer scans a script and puts its tokens into a queue; the consumer takes them
from there instead of scanning itself. The two take turns in any order, and a turn that would have
to wait cannot be taken. The consumer may stop parsing at any time: it then drops what is still to
come, up to the end of the text, and waits for the producer to stop.
-/

namespace Tickle.Token

/-- The next token; at the end of the text it is the end, again and again. -/
def Script.nextToken (s : Scanner Script.Mode) : Token × Scanner Script.Mode :=
  (Script.next? s).getD (s.endToken, s)

namespace Relay

/-- What the producer does next: scan a token, put the token that it holds into the queue, or
nothing any more. -/
inductive Producer where
  | scanning (scanner : Scanner Script.Mode)
  | holding (token : Token) (scanner : Scanner Script.Mode)
  | stopped
  deriving Repr, DecidableEq

/-- What the consumer does: it parses, waits for a token that it asked for, drops tokens up to the
end of the text, waits for the producer to stop, or is done. -/
inductive Consumer where
  | parsing | asking | draining | joining | closed
  deriving Repr, DecidableEq

namespace Consumer

def waits : Consumer → Bool
  | asking | draining | joining => true
  | parsing | closed => false

/-- It asks for no more tokens to parse. -/
def closing : Consumer → Bool
  | draining | joining | closed => true
  | parsing | asking => false

end Consumer

/-- One turn of the producer (`scan`, `put`) or of the consumer. -/
inductive Turn where
  | scan | put | ask | receive | close | drain | join
  deriving Repr, DecidableEq

end Relay

/-- The two parties and the queue between them, and which tokens have gone in and come out. -/
structure Relay where
  producer : Relay.Producer
  consumer : Relay.Consumer := .parsing
  queue : List Token := []
  /-- The end of the text, once the consumer has received it. -/
  ended : Option Token := none
  /-- Everything that was put into the queue. -/
  sent : List Token := []
  /-- Everything that the consumer received, for parsing or to be dropped. -/
  received : List Token := []
  deriving Repr, DecidableEq

namespace Relay

def start (text : String) : Relay := { producer := .scanning (.start text.toList .initial) }

/-- Whether one more token may be put into the queue. A capacity that is not positive is none. -/
def hasRoom (capacity : Int) (queue : List Token) : Bool := capacity ≤ 0 || queue.length < capacity

def put (relay : Relay) (token : Token) (scanner : Scanner Script.Mode) : Relay :=
  { relay with
    queue := relay.queue ++ [token]
    sent := relay.sent ++ [token]
    producer := if token.kind = .endOfText then .stopped else .scanning scanner }

/-- The consumer receives a token: the first in the queue, or the end of the text once more if it
has been received before. There is none as long as the queue is empty. -/
def receive? (relay : Relay) : Option Relay :=
  match relay.ended, relay.queue with
  | some token, _ => some { relay with received := relay.received ++ [token] }
  | none, [] => none
  | none, token :: queue =>
    some { relay with
      queue
      ended := if token.kind = .endOfText then some token else none
      received := relay.received ++ [token] }

def step? (capacity : Int) (relay : Relay) : Turn → Option Relay
  | .scan =>
    match relay.producer with
    | .scanning scanner =>
      let (token, after) := Script.nextToken scanner
      some { relay with producer := .holding token after }
    | _ => none
  | .put =>
    match relay.producer with
    | .holding token scanner =>
      if hasRoom capacity relay.queue then some (relay.put token scanner) else none
    | _ => none
  | .ask =>
    match relay.consumer with
    | .parsing => some { relay with consumer := .asking }
    | _ => none
  | .receive =>
    match relay.consumer with
    | .asking => relay.receive?.map fun relay => { relay with consumer := .parsing }
    | _ => none
  | .close =>
    match relay.consumer with
    | .parsing => some { relay with consumer := .draining }
    | _ => none
  | .drain =>
    match relay.consumer, relay.ended with
    | .draining, none => relay.receive?
    | .draining, some _ => some { relay with consumer := .joining }
    | _, _ => none
  | .join =>
    match relay.consumer, relay.producer with
    | .joining, .stopped => some { relay with consumer := .closed }
    | _, _ => none

def run? (capacity : Int) (relay : Relay) : List Turn → Option Relay
  | [] => some relay
  | turn :: turns => (relay.step? capacity turn).bind fun next => next.run? capacity turns

end Relay

end Tickle.Token
