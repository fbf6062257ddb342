/-!
# What can go wrong

A source may fail to open or to deliver, a decoder may fail, and the system may refuse a thread:
these are errors, and a caller gets them as a value. A sum, a product or a point in time beyond its
range is an overflow: it ends the computation that ran into it.

Every cause has one wording, given by the `message` of its type.
-/

namespace PacketRelay

/-- Why a source fails. -/
inductive SourceError
  -- The resource could not be opened.
  | cannotOpen (uri reason : String)
  -- It was opened and has neither video nor audio.
  | noStreams
  -- The next unit could not be read.
  | readFailed (reason : String)
deriving DecidableEq, Repr

def SourceError.message : SourceError → String
  | cannotOpen uri reason => "Cannot open " ++ uri ++ ": " ++ reason
  | noStreams => "No video or audio stream found"
  | readFailed reason => "Read failed: " ++ reason

/-- Why a decoder fails. -/
inductive DecodeError
  -- The decoder is not open.
  | notOpen
  -- The codec refuses its input.
  | codec (reason : String)
deriving DecidableEq, Repr

def DecodeError.message : DecodeError → String
  | notOpen => "Decoder is not open"
  | codec reason => "Codec error: " ++ reason

/-- Why an operation of the library fails. -/
inductive Fault
  | source (e : SourceError)
  | decode (e : DecodeError)
  -- The system refuses; the text is its own.
  | system (reason : String)
deriving DecidableEq, Repr

namespace Fault

/-- The wording of the cause alone. -/
def cause : Fault → String
  | source e => e.message
  | decode e => e.message
  | system reason => reason

/-- The wording of a fault: where it arose and its cause. -/
def message : Fault → String
  | source e => "Source error: " ++ e.message
  | decode e => "Decode error: " ++ e.message
  | system reason => "I/O error: " ++ reason

end Fault

/-- A computation whose result is out of range. -/
inductive Overflow
  | addition
  | subtraction
  | multiplication
  -- The end of a waiting time lies beyond the clock.
  | deadline
deriving DecidableEq, Repr

def Overflow.message : Overflow → String
  | addition => "attempt to add with overflow"
  | subtraction => "attempt to subtract with overflow"
  | multiplication => "attempt to multiply with overflow"
  | deadline => "overflow when adding duration to instant"

end PacketRelay
