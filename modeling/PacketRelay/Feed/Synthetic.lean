import PacketRelay.Feed

/-!
# A synthetic stream

Thirty frames a second in groups of thirty. A group opens with a sequence parameter set, a picture
parameter set and a key picture; every other frame is a plain slice. Times are in ticks of `1/90000`
seconds, so one frame lasts three thousand.
-/

namespace PacketRelay.Feed.Synthetic

def frameRate : Nat := 30

def groupLength : Nat := 30

def frameTicks : Nat := 90000 / frameRate

/-- The sequence parameter set of a group. -/
def sequenceSet : List UInt8 := [0, 0, 0, 1, 0x67, 0x42, 0x00, 0x1f]

/-- The picture parameter set of a group. -/
def pictureSet : List UInt8 := [0, 0, 0, 1, 0x68, 0xce, 0x3c, 0x80]

def keyPicture : List UInt8 := [0, 0, 1, 0x65, 0x88, 0x84, 0x00]

/-- A picture that is no key picture. -/
def plainPicture : List UInt8 := [0, 0, 1, 0x41, 0x9a, 0x02, 0x00]

def frameUnits (frame : Nat) : List MediaUnit :=
  let pts : Int := frame * frameTicks
  if frame % groupLength = 0 then
    [{ stream := 0, data := sequenceSet, pts := pts },
      { stream := 0, data := pictureSet, pts := pts },
      { stream := 0, data := keyPicture, pts := pts, isKey := true }]
  else [{ stream := 0, data := plainPicture, pts := pts }]

def units (frames : Nat) : List MediaUnit :=
  (List.range frames).flatMap frameUnits

/-- The feed after the given number of frames and the end of the stream. -/
def run (frames : Nat) : Feed :=
  (Feed.extend {} (units frames)).finish

end PacketRelay.Feed.Synthetic
