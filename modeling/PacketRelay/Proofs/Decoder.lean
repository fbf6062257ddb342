import PacketRelay.Decoder.Scripted
import Mathlib.Tactic.Common

/-!
# The protocol that decoders are driven by

A decoder is a partner of the library. It may fail on any packet, close itself while it decodes and let
out what it likes; all that is asked of it is that it is closed once it has been told to close, and that
decoding does not open it again. What it is told to do does not depend on more: video packets go to it
and no others, whether it is open or not, and it is flushed and closed by the first request to finish
that finds it open.

Which operations are called does not show in the state of a decoder. So a decoder is traced: it lets out
each call ahead of what the call itself lets out. A traced decoder is again a decoder, driven by the
same functions, and what it lets out besides its calls is what the decoder would have let out.

## Main definitions

* `Decoder.traced`: a decoder that lets out which of its operations are called
* `Decoder.exchanges`: what becomes of the requests to a decoder
* `Decoder.Lawful`: what is asked of a decoder

## Main results

* `Decoder.exchanges_traced`: tracing changes nothing else
* `Decoder.map_fst_calls_serve`: the calls that a request comes to
* `Decoder.Lawful.log_exchanges`: the calls that all requests come to
* `Decoder.driven_by_protocol`: the protocol
-/

namespace PacketRelay

variable {δ ω : Type}

namespace Decoder

/-- A call of an operation of a decoder. -/
inductive Call
  | prepare (stream : Stream)
  | decode (p : Packet)
  | flush
  | close
deriving DecidableEq

/-- What a traced decoder lets out. -/
inductive Trace (ω : Type)
  -- An operation is called; why it fails, if it does
  | called (c : Call) (failure : Option DecodeError)
  -- The decoder lets something out.
  | emitted (value : ω)

def Trace.call? : Trace ω → Option (Call × Option DecodeError)
  | .called c failure => some (c, failure)
  | .emitted _ => none

def Trace.emission? : Trace ω → Option ω
  | .called .. => none
  | .emitted value => some value

/-- The calls of a trace, each with the failure that it has ended in, if it did. -/
def calls (out : List (Trace ω)) : List (Call × Option DecodeError) := out.filterMap Trace.call?

/-- What has been let out besides the calls. -/
def emissions (out : List (Trace ω)) : List ω := out.filterMap Trace.emission?

@[simp] theorem calls_append (out more : List (Trace ω)) :
    calls (out ++ more) = calls out ++ calls more := List.filterMap_append

@[simp] theorem emissions_append (out more : List (Trace ω)) :
    emissions (out ++ more) = emissions out ++ emissions more := List.filterMap_append

end Decoder

open Decoder

/-- A response with the call that it answers ahead of what was let out. -/
def Response.traced (r : Response δ ω) (c : Call) : Response δ (Trace ω) where
  state := r.state
  output := .called c r.error :: r.output.map .emitted
  error := r.error

/-- A response without the calls. -/
def Response.untraced (r : Response δ (Trace ω)) : Response δ ω where
  state := r.state
  output := emissions r.output
  error := r.error

section Traced

variable (r : Response δ ω) (c : Call)

@[simp] theorem calls_output_traced : calls (r.traced c).output = [(c, r.error)] := by
  simp [Response.traced, calls, Trace.call?, Function.comp_def]

@[simp] theorem emissions_output_traced : emissions (r.traced c).output = r.output := by
  rw [Response.traced, emissions, List.filterMap_cons_none rfl, List.filterMap_map]
  exact List.filterMap_some

@[simp] theorem Response.untraced_traced : (r.traced c).untraced = r := by
  obtain ⟨state, output, error⟩ := r
  simp only [untraced, emissions_output_traced]
  rfl

end Traced

namespace Decoder

/-- A decoder that lets out which of its operations are called. -/
def traced (d : Decoder δ ω) : Decoder δ (Trace ω) where
  isOpen := d.isOpen
  prepare s stream := (d.prepare s stream).traced (.prepare stream)
  decode s p := (d.decode s p).traced (.decode p)
  flush s := (d.flush s).traced .flush
  close s := (d.close s).traced .close

/-- What a decoder is asked for by way of its handler. -/
inductive Request
  | handle (p : Packet)
  | finish
deriving DecidableEq

/-- The packet of a request, if it is flagged as video. -/
def Request.video? : Request → Option Packet
  | .handle p => if p.isVideo then some p else none
  | .finish => none

/-- The packets among the requests that are flagged as video. -/
def videos (rs : List Request) : List Packet := rs.filterMap Request.video?

def serve (d : Decoder δ ω) (s : δ) : Request → Response δ ω
  | .handle p => d.handle s p
  | .finish => d.finish s

/-- A request and what has become of it. -/
structure Exchange (δ ω : Type) where
  /-- The decoder as the request has found it -/
  found : δ
  /-- The request -/
  request : Request
  /-- What the request has left behind -/
  response : Response δ ω

def Exchange.untraced (x : Exchange δ (Trace ω)) : Exchange δ ω :=
  ⟨x.found, x.request, x.response.untraced⟩

/-- The calls of an exchange. -/
def Exchange.calls (x : Exchange δ (Trace ω)) : List (Call × Option DecodeError) :=
  Decoder.calls x.response.output

/-- The calls of exchanges, oldest first. -/
def log (xs : List (Exchange δ (Trace ω))) : List Call := xs.flatMap fun x => x.calls.map Prod.fst

/-- What becomes of requests that are made one after the other. -/
def exchanges (d : Decoder δ ω) (s : δ) : List Request → List (Exchange δ ω)
  | [] => []
  | r :: rs => ⟨s, r, d.serve s r⟩ :: d.exchanges (d.serve s r).state rs

/-- What is asked of a decoder. A flush may do as it likes: the decoder is closed right after it. -/
structure Lawful (d : Decoder δ ω) : Prop where
  /-- It is closed once it has been told to close. -/
  close : ∀ s, d.isOpen (d.close s).state = false
  /-- Decoding does not open it. -/
  decode : ∀ s p, d.isOpen s = false → d.isOpen (d.decode s p).state = false

variable {d : Decoder δ ω} {s : δ} {rs : List Request}

theorem finish_of_isOpen (on : d.isOpen s = true) : d.finish s =
    { state := (d.close (d.flush s).state).state
      output := (d.flush s).output ++ (d.close (d.flush s).state).output } := if_pos on

theorem finish_of_not_isOpen (shut : ¬ d.isOpen s = true) : d.finish s = { state := s } := if_neg shut

section Tracing

variable (d s)

/-- Opening a traced decoder lets out that it has been opened, and opens the decoder. -/
theorem start_traced (stream : Stream) :
    calls (d.traced.start s stream).1 = [(.prepare stream, (d.prepare s stream).error)] ∧
      d.start s stream = (emissions (d.traced.start s stream).1, (d.traced.start s stream).2) := by
  constructor
  · exact calls_output_traced _ _
  · exact congrArg (·, (d.start s stream).2) (emissions_output_traced _ _).symm

/-- A request comes to the same, traced or not. -/
theorem untraced_serve (r : Request) : (d.traced.serve s r).untraced = d.serve s r := by
  cases r with
  | handle p =>
    simp only [serve, handle]
    split
    · exact Response.untraced_traced _ _
    · rfl
  | finish =>
    by_cases on : d.isOpen s = true
    · rw [serve, serve, finish_of_isOpen (d := d.traced) on, finish_of_isOpen on]
      simp only [traced, Response.untraced, emissions_append, emissions_output_traced]
      rfl
    · rw [serve, serve, finish_of_not_isOpen (d := d.traced) on, finish_of_not_isOpen on]
      rfl

/-- **Tracing changes nothing** but what is let out. -/
theorem exchanges_traced (rs : List Request) :
    (d.traced.exchanges s rs).map Exchange.untraced = d.exchanges s rs := by
  induction rs generalizing s with
  | nil => rfl
  | cons r rs ih =>
    have same := untraced_serve d s r
    have state : (d.traced.serve s r).state = (d.serve s r).state := congrArg Response.state same
    rw [exchanges, exchanges, List.map_cons, ih, state]
    exact congrArg (fun response => Exchange.mk s r response :: _) same

/-- **A video packet is decoded**, and nothing else is done with a packet. -/
theorem calls_handle (p : Packet) : calls (d.traced.handle s p).output =
    if p.isVideo then [(.decode p, (d.decode s p).error)] else [] := by
  unfold handle
  split
  · exact calls_output_traced _ _
  · rfl

/-- **An open decoder is flushed and closed**, and a closed one is left alone. -/
theorem calls_finish : calls (d.traced.finish s).output =
    if d.isOpen s then [(.flush, (d.flush s).error), (.close, (d.close (d.flush s).state).error)]
    else [] := by
  by_cases on : d.isOpen s = true
  · rw [finish_of_isOpen (d := d.traced) on, if_pos on]
    simp only [traced, calls_append, calls_output_traced]
    rfl
  · rw [finish_of_not_isOpen (d := d.traced) on, if_neg on]
    rfl

end Tracing

section Exchanges

variable {before after : List (Exchange δ ω)} {x : Exchange δ ω}

theorem map_request_exchanges (d : Decoder δ ω) (s : δ) (rs : List Request) :
    (d.exchanges s rs).map Exchange.request = rs := by
  induction rs generalizing s with
  | nil => rfl
  | cons r rs ih => rw [exchanges, List.map_cons, ih]

/-- Exchanges fall apart at each of them: it is the answer to its request, and the later ones go on from
what it has left behind. -/
theorem exists_exchanges_of_split (split : d.exchanges s rs = before ++ x :: after) :
    x.response = d.serve x.found x.request ∧
      ∃ rest, after = d.exchanges x.response.state rest := by
  induction before generalizing s rs with
  | nil =>
    cases rs with
    | nil => simp [exchanges] at split
    | cons r rs =>
      obtain ⟨rfl, rfl⟩ := List.cons_eq_cons.mp split
      exact ⟨rfl, rs, rfl⟩
  | cons y before ih =>
    cases rs with
    | nil => simp [exchanges] at split
    | cons r rs => exact ih (List.cons_eq_cons.mp split).2

theorem response_eq_of_mem (inside : x ∈ d.exchanges s rs) :
    x.response = d.serve x.found x.request := by
  obtain ⟨before, after, split⟩ := List.append_of_mem inside
  exact (exists_exchanges_of_split split).1

end Exchanges

section Lawful

theorem Lawful.traced (lawful : d.Lawful) : d.traced.Lawful := ⟨lawful.close, lawful.decode⟩

/-- **Behind a request to finish a decoder is closed.** -/
theorem Lawful.isOpen_finish (lawful : d.Lawful) (s : δ) :
    d.isOpen (d.finish s).state = false := by
  by_cases on : d.isOpen s = true
  · rw [finish_of_isOpen on]
    exact lawful.close _
  · rw [finish_of_not_isOpen on]
    exact eq_false_of_ne_true on

/-- A closed decoder stays closed. -/
theorem Lawful.isOpen_serve (lawful : d.Lawful) (shut : d.isOpen s = false) (r : Request) :
    d.isOpen (d.serve s r).state = false := by
  cases r with
  | handle p =>
    simp only [serve, handle]
    split
    · exact lawful.decode s p shut
    · exact shut
  | finish => exact lawful.isOpen_finish s

theorem Lawful.isOpen_exchanges (lawful : d.Lawful) (shut : d.isOpen s = false)
    {x : Exchange δ ω} (inside : x ∈ d.exchanges s rs) :
    d.isOpen x.found = false ∧ d.isOpen x.response.state = false := by
  induction rs generalizing s with
  | nil => simp [exchanges] at inside
  | cons r rs ih =>
    have still := lawful.isOpen_serve shut r
    rcases List.mem_cons.mp inside with rfl | later
    · exact ⟨shut, still⟩
    · exact ih still later

end Lawful

section Log

/-- The calls that a request comes to are told by the request, and by whether the decoder is open. -/
theorem map_fst_calls_serve (d : Decoder δ ω) (s : δ) (r : Request) :
    (calls (d.traced.serve s r).output).map Prod.fst = r.video?.toList.map .decode ++
      if r = .finish ∧ d.isOpen s = true then [.flush, .close] else [] := by
  cases r with
  | handle p =>
    rw [serve, calls_handle]
    by_cases video : p.isVideo = true <;> simp [Request.video?, video]
  | finish =>
    rw [serve, calls_finish]
    by_cases on : d.isOpen s = true <;> simp [Request.video?, on]

theorem videos_cons (r : Request) (rs : List Request) :
    videos (r :: rs) = r.video?.toList ++ videos rs := by
  rw [videos, List.filterMap_cons]
  cases r.video? <;> rfl

theorem log_exchanges_cons (d : Decoder δ ω) (s : δ) (r : Request) (rs : List Request) :
    log (d.traced.exchanges s (r :: rs)) = (calls (d.traced.serve s r).output).map Prod.fst ++
      log (d.traced.exchanges (d.traced.serve s r).state rs) := rfl

/-- The calls of requests that come to nothing but decoding. -/
theorem log_exchanges_of_vain
    (vain : ∀ x ∈ d.traced.exchanges s rs, x.request = .finish → d.isOpen x.found = false) :
    log (d.traced.exchanges s rs) = (videos rs).map .decode := by
  induction rs generalizing s with
  | nil => rfl
  | cons r rs ih =>
    have first : ¬ (r = .finish ∧ d.isOpen s = true) := fun ⟨same, on⟩ => by
      simp [vain _ List.mem_cons_self same] at on
    rw [log_exchanges_cons, ih fun x inside => vain x (List.mem_cons_of_mem _ inside),
      map_fst_calls_serve, if_neg first, List.append_nil, videos_cons, List.map_append]

/-- **The calls that all requests come to.** Either no request to finish has found the decoder open, and
it has only been given packets, or the first one that did has flushed and closed it, ahead of the packets
behind it. -/
theorem Lawful.log_exchanges (lawful : d.Lawful) (s : δ) (rs : List Request) :
    (∀ x ∈ d.traced.exchanges s rs, x.request = .finish → d.isOpen x.found = false) ∧
        log (d.traced.exchanges s rs) = (videos rs).map .decode ∨
      ∃ before x after, d.traced.exchanges s rs = before ++ x :: after ∧
        x.request = .finish ∧ d.isOpen x.found = true ∧
        (∀ y ∈ before, y.request = .finish → d.isOpen y.found = false) ∧
        log (d.traced.exchanges s rs) =
          (videos (before.map Exchange.request)).map .decode ++ [.flush, .close] ++
            (videos (after.map Exchange.request)).map .decode := by
  induction rs generalizing s with
  | nil => exact .inl ⟨by simp [exchanges], rfl⟩
  | cons r rs ih =>
    have calls := map_fst_calls_serve d s r
    by_cases ends : r = .finish ∧ d.isOpen s = true
    · obtain ⟨rfl, on⟩ := ends
      have shut : d.isOpen (d.traced.serve s .finish).state = false :=
        lawful.traced.isOpen_finish s
      have vain : ∀ x ∈ d.traced.exchanges (d.traced.serve s .finish).state rs,
          x.request = .finish → d.isOpen x.found = false :=
        fun x inside _ => (lawful.traced.isOpen_exchanges shut inside).1
      refine .inr ⟨[], _, _, rfl, rfl, on, by simp, ?_⟩
      rw [log_exchanges_cons, calls, log_exchanges_of_vain vain, if_pos ⟨rfl, on⟩, map_request_exchanges]
      rfl
    · have first : r = .finish → d.isOpen s = false := by simpa using ends
      rw [if_neg ends, List.append_nil] at calls
      rcases ih (d.traced.serve s r).state with
        ⟨vain, same⟩ | ⟨before, x, after, split, asks, on, vain, same⟩
      · refine .inl ⟨?_, ?_⟩
        · rintro x inside
          rcases List.mem_cons.mp inside with rfl | later
          · exact first
          · exact vain x later
        · rw [log_exchanges_cons, calls, same, videos_cons, List.map_append]
      · refine .inr ⟨⟨s, r, d.traced.serve s r⟩ :: before, x, after, ?_, asks, on, ?_, ?_⟩
        · rw [exchanges, split]
          rfl
        · rintro y inside
          rcases List.mem_cons.mp inside with rfl | later
          · exact first
          · exact vain y later
        · rw [log_exchanges_cons, calls, same, List.map_cons, videos_cons, List.map_append]
          simp only [List.append_assoc]

end Log

theorem result_eq_error_iff (r : Response δ ω) (fault : Fault) :
    r.result = .error fault ↔ ∃ e, r.error = some e ∧ fault = .decode e := by
  unfold Response.result
  cases r.error with
  | none => simp
  | some e => simp [eq_comm]

/-- **A decoder is driven by the protocol.** If it does not open, there is nothing to drive, and opening is
the only call. If it opens, then whatever is requested: a packet is decoded if it is flagged as video, and
handling it fails exactly if that fails, with the same reason; other packets come to nothing. A request to
finish flushes and closes a decoder that it finds open, and behind it the decoder is closed for good. In
all, the packets that are flagged as video have been decoded in order, once each, and the first request to
finish that has found the decoder open has flushed and closed it, as the only one; if there was none,
neither has been called. -/
theorem driven_by_protocol (d : Decoder δ ω) (lawful : d.Lawful) (s : δ) (stream : Stream) :
    (∀ e, (d.prepare s stream).error = some e → ∃ out, d.traced.start s stream = (out, .error e) ∧
      d.start s stream = (emissions out, .error e) ∧ calls out = [(.prepare stream, some e)]) ∧
    ((d.prepare s stream).error = none → ∃ out t, d.traced.start s stream = (out, .ok t) ∧
      d.start s stream = (emissions out, .ok t) ∧ calls out = [(.prepare stream, none)] ∧
      ∀ rs, let xs := d.traced.exchanges t rs
        xs.map Exchange.untraced = d.exchanges t rs ∧ xs.map Exchange.request = rs ∧
        (∀ x ∈ xs, ∀ p, x.request = .handle p →
          (p.isVideo = true → ∃ failure, x.calls = [(.decode p, failure)] ∧
            ∀ fault, x.response.result = .error fault ↔ ∃ e, failure = some e ∧ fault = .decode e) ∧
          (p.isVideo = false → x.calls = [] ∧ x.response.result = .ok ())) ∧
        (∀ x ∈ xs, x.request = .finish →
          x.calls.map Prod.fst = if d.isOpen x.found then [.flush, .close] else []) ∧
        (∀ before x after, xs = before ++ x :: after → x.request = .finish →
          ∀ y ∈ x :: after, d.isOpen y.response.state = false) ∧
        ((∀ x ∈ xs, x.request = .finish → d.isOpen x.found = false) ∧
            log xs = (videos rs).map .decode ∨
          ∃ before x after, xs = before ++ x :: after ∧
            x.request = .finish ∧ d.isOpen x.found = true ∧
            (∀ y ∈ before, y.request = .finish → d.isOpen y.found = false) ∧
            log xs = (videos (before.map Exchange.request)).map .decode ++ [.flush, .close] ++
              (videos (after.map Exchange.request)).map .decode)) := by
  obtain ⟨called, same⟩ := start_traced d s stream
  constructor
  · intro e fails
    have started : (d.traced.start s stream).2 = .error e := by
      simp only [start, traced, Response.traced, fails]
    rw [started] at same
    exact ⟨_, Prod.ext rfl started, same, fails ▸ called⟩
  · intro opens
    have started : (d.traced.start s stream).2 = .ok (d.prepare s stream).state := by
      simp only [start, traced, Response.traced, opens]
    rw [started] at same
    refine ⟨_, _, Prod.ext rfl started, same, opens ▸ called, fun rs => ?_⟩
    refine ⟨exchanges_traced d _ rs, map_request_exchanges _ _ rs, ?_, ?_, ?_,
      lawful.log_exchanges _ rs⟩
    · rintro ⟨found, request, response⟩ inside p rfl
      obtain rfl : response = d.traced.handle found p := response_eq_of_mem inside
      have calls := calls_handle d found p
      refine ⟨fun video => ⟨(d.decode found p).error, ?_, fun fault => ?_⟩, fun other => ⟨?_, ?_⟩⟩
      · exact calls.trans (if_pos video)
      · rw [result_eq_error_iff, handle, if_pos video]
        rfl
      · exact calls.trans (if_neg (by simp [other]))
      · simp only [handle, other]
        rfl
    · rintro ⟨found, request, response⟩ inside rfl
      obtain rfl : response = d.traced.finish found := response_eq_of_mem inside
      rw [Exchange.calls, calls_finish]
      split <;> rfl
    · rintro before ⟨found, request, response⟩ after split rfl y inside
      obtain ⟨answer, rest, rfl⟩ := exists_exchanges_of_split split
      obtain rfl : response = d.traced.finish found := answer
      have shut : d.isOpen (d.traced.finish found).state = false :=
        lawful.traced.isOpen_finish found
      rcases List.mem_cons.mp inside with rfl | later
      · exact shut
      · exact (lawful.traced.isOpen_exchanges shut later).2

theorem lawful_scripted : ScriptedDecoder.decoder.Lawful where
  close _ := rfl
  decode s p shut := by
    have closed : s.size = none := by simpa [ScriptedDecoder.decoder] using shut
    simp only [ScriptedDecoder.decoder, closed]
    split <;> exact congrArg Option.isSome closed

/-- Two video packets, an audio packet, a video packet that has been emptied, and one more video packet
once the decoder is finished. -/
def lateRequests : List Request :=
  [.handle (.video 1), .handle (.video 2), .handle (.audio 3), .handle (Packet.video 4).clear, .finish,
    .finish, .handle (.video 5), .finish]

/-- A decoder that fails on the second packet goes on to the first request to finish. The second request
leaves it alone, and the packet behind it is decoded in vain. A decoder that does not open is left alone. -/
theorem driven_of_badPacket :
    let d := ScriptedDecoder.decoder
    let stream := Stream.video 0 "h264" 640 360
    d.Lawful ∧
    (∃ out t, d.traced.start { bad := [2] } stream = (out, .ok t) ∧
      calls out = [(.prepare stream, none)] ∧
      let xs := d.traced.exchanges t lateRequests
      log xs = [.decode (.video 1), .decode (.video 2), .flush, .close, .decode (.video 5)] ∧
      xs.map (·.response.result) = [.ok (), .error (.decode (.codec "bad packet 2")), .ok (), .ok (),
        .ok (), .ok (), .error (.decode .notOpen), .ok ()] ∧
      ∀ x ∈ xs.drop 4, d.isOpen x.response.state = false) ∧
    ∃ out, d.traced.start { refusal := some "no" } stream = (out, .error (.codec "no")) ∧
      calls out = [(.prepare stream, some (.codec "no"))] := by
  intro d stream
  refine ⟨lawful_scripted, ?_, ?_⟩
  · obtain ⟨out, t, started, -, called, driven⟩ :=
      (driven_by_protocol d lawful_scripted { bad := [2] } stream).2 rfl
    obtain ⟨-, -, -, -, shut, -⟩ := driven lateRequests
    obtain rfl : ({ bad := [2], size := some (640, 360) } : ScriptedDecoder) = t :=
      Except.ok.inj (congrArg Prod.snd started)
    refine ⟨out, _, started, called, ?_, by decide +kernel, ?_⟩
    · rfl
    · exact shut _ _ _ (List.take_append_drop 4 _).symm rfl
  · obtain ⟨out, started, -, called⟩ :=
      (driven_by_protocol d lawful_scripted { refusal := some "no" } stream).1 _ rfl
    exact ⟨out, started, called⟩

end Decoder

end PacketRelay
