import PacketRelay.Feed

/-!
# Scripted sources

A scripted source is a source in memory with a few turns: opening may have to wait at a gate, a
source without streams may be let through, and the read that would give a certain unit may panic
instead.

## Main definitions

* `ScriptedSource`: the source and its script
* `ScriptedSource.openAt`, `ScriptedSource.read`: what a publisher does with it
* `ScriptedSource.Action`, `ScriptedSource.act`: what its writer does
-/

namespace PacketRelay

/-- A source in memory with a script. -/
structure ScriptedSource where
  /-- The source -/
  memory : MemorySource := {}
  /-- Opening waits until the gate is open. -/
  gated : Bool := false
  /-- The gate is open. -/
  gateOpen : Bool := false
  /-- Opening succeeds even without streams. -/
  allowNoStreams : Bool := false
  /-- The unit, counted from one, whose read panics -/
  panicAt : Option Nat := none
  /-- Units taken from the feed so far -/
  taken : Nat := 0
  /-- A publisher has been given the source. -/
  spent : Bool := false
deriving DecidableEq, Repr

namespace ScriptedSource

def isShut (s : ScriptedSource) : Bool := s.gated && !s.gateOpen

/-- Opens the source, once its gate lets it through. -/
def openAt (s : ScriptedSource) (uri : String) : Except SourceError ScriptedSource :=
  match s.memory.openAt uri with
  | .ok memory => .ok { s with memory := memory }
  | .error e => if e = .noStreams && s.allowNoStreams then .ok s else .error e

/-- Reads. Without an outcome the read panics; the unit is taken from the feed all the same. -/
def read (s : ScriptedSource) : ScriptedSource × Option ReadOutcome :=
  let (feed, outcome) := s.memory.feed.read
  let s := { s with memory := { s.memory with feed := feed } }
  match outcome with
  | .unit u =>
    let s := { s with taken := s.taken + 1 }
    (s, if s.panicAt = some s.taken then none else some (.unit u))
  | outcome => (s, some outcome)

/-- Would a read give nothing for now? -/
def isQuiet (s : ScriptedSource) : Bool := s.memory.feed.read.2 == .pending

/-- What the writer of a source does, one access each. -/
inductive Action
  -- Adds a unit.
  | push (u : MediaUnit)
  -- Announces the end.
  | finish
  -- Scripts a failure.
  | fail (reason : String)
  -- Opens the gate.
  | openGate
deriving DecidableEq, Repr

def changeFeed (s : ScriptedSource) (f : Feed → Feed) : ScriptedSource :=
  { s with memory := { s.memory with feed := f s.memory.feed } }

def act (s : ScriptedSource) : Action → ScriptedSource
  | .push u => s.changeFeed (·.push u)
  | .finish => s.changeFeed (·.finish)
  | .fail reason => s.changeFeed (·.fail reason)
  | .openGate => { s with gateOpen := true }

end ScriptedSource

end PacketRelay
