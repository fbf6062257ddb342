import PacketRelay.Stream
import PacketRelay.Fault

/-!
# Sources in memory

A feed is a queue of units that is written at one end and read at the other. The writer may announce
the end of the stream or script a failure; both wait behind the units already there, the failure
before the end, and a failure is reported once.

## Main definitions

* `Feed`: the queue, written by `Feed.push`, `Feed.extend`, `Feed.finish` and `Feed.fail`
* `Feed.read`: what a reader gets next
* `MemorySource`: a feed with the streams it belongs to
-/

namespace PacketRelay

/-- What a reader gets from a source. -/
inductive ReadOutcome
  -- The next unit
  | unit (u : MediaUnit)
  -- Nothing for now
  | pending
  -- Nothing more
  | ended
  -- An error that ends the stream
  | failed (e : SourceError)
deriving DecidableEq, Repr

/-- Units on their way from a writer to a reader. -/
structure Feed where
  /-- The units not yet read, oldest first -/
  units : List MediaUnit := []
  /-- The writer has announced the end. -/
  finished : Bool := false
  /-- A failure not yet reported -/
  failure : Option SourceError := none
deriving DecidableEq, Repr

namespace Feed

def push (f : Feed) (u : MediaUnit) : Feed :=
  { f with units := f.units ++ [u] }

def extend (f : Feed) (us : List MediaUnit) : Feed :=
  { f with units := f.units ++ us }

def finish (f : Feed) : Feed :=
  { f with finished := true }

/-- Scripts a failure, in place of one not yet reported. -/
def fail (f : Feed) (reason : String) : Feed :=
  { f with failure := some (.readFailed reason) }

/-- The number of units not yet read. -/
def pending (f : Feed) : Nat := f.units.length

/-- Reads: a unit if there is one, else a failure if one is scripted, else the end if it is
announced. -/
def read (f : Feed) : Feed × ReadOutcome :=
  match f.units, f.failure with
  | u :: us, _ => ({ f with units := us }, .unit u)
  | [], some e => ({ f with failure := none }, .failed e)
  | [], none => (f, if f.finished then .ended else .pending)

end Feed

/-- A feed with the streams it belongs to. -/
structure MemorySource where
  /-- The units -/
  feed : Feed := {}
  /-- The video stream -/
  video : Option Stream := none
  /-- The audio stream -/
  audio : Option Stream := none
  /-- Why opening fails, if it does -/
  refusal : Option String := none
  /-- The address of the last opening that succeeded -/
  uri : Option String := none
deriving DecidableEq, Repr

/-- Opens a source at an address. A scripted refusal comes before the lack of streams. -/
def MemorySource.openAt (s : MemorySource) (uri : String) : Except SourceError MemorySource :=
  match s.refusal with
  | some reason => .error (.cannotOpen uri reason)
  | none =>
    if s.video.isNone && s.audio.isNone then .error .noStreams
    else .ok { s with uri := some uri }

end PacketRelay
