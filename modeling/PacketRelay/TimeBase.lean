/-!
# Time bases

A time base is the length of one tick in seconds, as a fraction. Ticks are converted to whole
milliseconds exactly: the quotient is taken over the integers, cut off toward zero, and kept within
the range of a signed word of 64 bits.
-/

namespace PacketRelay

/-- The least value of a signed word of 64 bits. -/
def minWord : Int := -9223372036854775808

/-- The greatest value of a signed word of 64 bits. -/
def maxWord : Int := 9223372036854775807

/-- Is the integer a signed word of 64 bits? -/
def isWord (n : Int) : Bool :=
  minWord ≤ n && n ≤ maxWord

/-- The word nearest to an integer. -/
def clampWord (n : Int) : Int :=
  max minWord (min maxWord n)

/-- The length of a tick in seconds. -/
structure TimeBase where
  /-- Numerator -/
  num : Int
  /-- Denominator -/
  den : Int
deriving DecidableEq, Repr

/-- The milliseconds that a number of ticks lasts; none at all where the denominator is zero. -/
def TimeBase.toMillis (base : TimeBase) (ticks : Int) : Int :=
  if base.den = 0 then 0
  else clampWord ((ticks * 1000 * base.num).tdiv base.den)

end PacketRelay
