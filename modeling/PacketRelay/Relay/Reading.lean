import PacketRelay.Relay.Fanout

/-!
# The read loop

The loop reads units until its token is cancelled, a stop is requested, or the source has ended or
failed. Units of the video stream become video packets, and units of the audio stream audio packets
if audio is forwarded; all others are passed over. Every unit that becomes a packet takes a number,
also one that then turns out too short for a packet. After a read that gave nothing the loop pauses.

Numbers are integers that do not wrap around: what is said of them holds of signed words of 64 bits as
long as fewer than `2 ^ 63` units are numbered.

A panic, of the source or of a pause without end, ends the run at once: what the loop has said about
being on stays as it is.
-/

namespace PacketRelay.Relay

/-- What the units of a stream become. The video stream wins over an audio stream of the same index.
-/
def route (reader : Reader) (forwardAudio : Bool) (stream : Nat) : Option MediaKind :=
  if reader.videoIndex = some stream then some .video
  else if forwardAudio && reader.audioIndex = some stream then some .audio
  else none

/-- Where the loop is once a unit has been counted. -/
def afterCount (r : Relay) (reader : Reader) (u : MediaUnit) : Reading :=
  match route reader r.settings.forwardAudio u.stream with
  | some kind => .number u kind
  | none => .checkToken

/-- Where the loop is once a number has been taken for a unit. -/
def afterNumber (id : Int) (u : MediaUnit) (kind : MediaKind) : Reading :=
  match Packet.ofUnit? id u kind with
  | some p => .publish (.checkStop p)
  | none => .checkToken

/-- Where the loop is after a read. -/
def afterRead : ReadOutcome → Reading
  | .unit u => .countRead u
  | .pending => .pause
  | .ended => .lowerStarted
  | .failed _ => .lowerStarted

/-- The loop of a run goes on at another place. -/
def goOn (r : Relay) (run : Nat) (reader : Reader) (at_ : Reading) : Relay :=
  { r with task := r.task.setTarget run { reader with at_ := at_ } }

/-- The loop of a run is left, by its end or by a panic. -/
def leave (r : Relay) (run : Nat) : Relay :=
  { r with task := r.task.leave run }

/-- The run reads from its source; a panic ends it. -/
def readUnit (r : Relay) (run : Nat) (reader : Reader) : Option Relay := do
  let source ← r.sources[reader.source]?
  let (source, outcome) := source.read
  let r := r.setSource reader.source source
  some (match outcome with
    | some outcome => r.goOn run reader (afterRead outcome)
    | none => r.leave run)

/-- One access of the read loop of a run. -/
def readerStep (r : Relay) (run : Nat) : Option Relay := do
  let reader ← r.task.target? run
  let next (at_ : Reading) : Option Relay := some (r.goOn run reader at_)
  match reader.at_ with
  | .readVideo =>
    some (r.goOn run { reader with videoIndex := r.video.map (·.index) } .readAudio)
  | .readAudio =>
    some (r.goOn run { reader with audioIndex := r.audio.map (·.index) } .raiseStarted)
  | .raiseStarted => some ({ r with started := true }.goOn run reader .checkToken)
  | .checkToken => next (if r.task.isCancelled run then .lowerStarted else .checkStop)
  | .checkStop => next (if r.stopRequested then .lowerStarted else .read)
  | .read => r.readUnit run reader
  | .countRead u => some ((r.count .countRead).goOn run reader (r.afterCount reader u))
  | .number u kind =>
    let id := r.lastId + 1
    some ({ r with lastId := id }.goOn run reader (afterNumber id u kind))
  | .publish (.finished _) => next .checkToken
  | .publish f => do
    let (r, f) ← f.step (.reader run) r
    some (r.goOn run reader (.publish f))
  | .pause =>
    match r.settings.retryDelay with
    | some _ => next .paused
    | none => some (r.leave run)
  | .paused => next (if r.task.isCancelled run then .lowerStarted else .checkToken)
  | .lowerStarted => some ({ r with started := false }.goOn run reader .lowerRunning)
  | .lowerRunning => some ({ r with running := false }.leave run)

end PacketRelay.Relay
