/-!
# Settings

Settings of a publisher and of a drain worker. Times are in milliseconds; a time without end is
`none`, and waiting for it overflows the clock.
-/

namespace PacketRelay

/-- Settings of a publisher. -/
structure PublisherSettings where
  /-- The pause after a read that gave nothing -/
  retryDelay : Option Nat := some 10
  /-- Audio is delivered as well as video. -/
  forwardAudio : Bool := false
  /-- The name of the read thread -/
  threadName : String := "packet-reader"
deriving DecidableEq, Repr

/-- Settings of a drain worker. -/
structure DrainSettings where
  /-- The pause after an empty queue -/
  pollInterval : Option Nat := some 10
  /-- The capacity of the queue -/
  queueCapacity : Nat := 100
  /-- The name of the drain thread -/
  threadName : String := "packet-drain"
deriving DecidableEq, Repr

/-- Sets the capacity of the queue, at least one. -/
def DrainSettings.withCapacity (s : DrainSettings) (capacity : Nat) : DrainSettings :=
  { s with queueCapacity := max capacity 1 }

end PacketRelay
