import PacketRelay.Fault

/-!
# Cancel tokens

A token is a flag that can be set and not be cleared. Tokens are handed out under names; the clone
of a token is another name of the same flag. Waiting for a token ends as soon as its flag is set.

## Main definitions

* `Tokens`: flags and their names
* `Tokens.fresh`, `Tokens.clone`, `Tokens.cancel`: the operations on them
* `Tokens.sleep`: waiting for a limited time
* `Tokens.Session`: calls one after the other, some of which wait
-/

namespace PacketRelay

/-- Flags, and names that stand for them. -/
structure Tokens where
  /-- The flags -/
  flags : List Bool := [false]
  /-- For each name the number of its flag -/
  names : List Nat := [0]
deriving DecidableEq, Repr

namespace Tokens

/-- The flag that a name stands for. -/
def flagOf (t : Tokens) (name : Nat) : Nat := t.names.getD name 0

def isCancelled (t : Tokens) (name : Nat) : Bool := t.flags.getD (t.flagOf name) false

/-- Adds a name for a flag of its own. -/
def fresh (t : Tokens) : Tokens where
  flags := t.flags ++ [false]
  names := t.names ++ [t.flags.length]

/-- Adds a name for the flag of a token. -/
def clone (t : Tokens) (name : Nat) : Tokens :=
  { t with names := t.names ++ [t.flagOf name] }

def cancel (t : Tokens) (name : Nat) : Tokens :=
  { t with flags := t.flags.set (t.flagOf name) true }

/-- Sleeps on a token that nobody cancels meanwhile, for a number of milliseconds or without end.
Says whether the token was cancelled. A sleep without end overflows the clock, whatever the flag. -/
def sleep (t : Tokens) (name : Nat) (millis : Option Nat) : Except Overflow Bool :=
  match millis with
  | none => .error .deadline
  | some _ => .ok (t.isCancelled name)

def all (t : Tokens) : List Bool := t.names.map fun n => t.flags.getD n false

/-- A way to wait for a token. -/
inductive Wait
  -- A thread sleeps and is woken early.
  | asleep
  -- A thread waits for the flag only.
  | watching
deriving DecidableEq, Repr

/-- A call that waits. -/
structure Waiting where
  /-- The number of the call -/
  call : Nat
  /-- The token it waits for -/
  token : Nat
  /-- The way it waits -/
  wait : Wait
deriving DecidableEq, Repr

/-- Tokens together with the calls that wait for them. -/
structure Session where
  /-- The tokens -/
  tokens : Tokens := {}
  /-- The calls that wait -/
  waiting : List Waiting := []
  /-- The number of the next call -/
  next : Nat := 0
deriving DecidableEq, Repr

/-- Ends the calls whose token is cancelled and gives them. -/
def Session.wake (s : Session) : Session × List Waiting :=
  let isOver (w : Waiting) : Bool := s.tokens.isCancelled w.token
  ({ s with waiting := s.waiting.filter fun w => !isOver w }, s.waiting.filter isOver)

/-- The session after a call that changes the tokens and does not wait. -/
def Session.after (s : Session) (tokens : Tokens) : Session :=
  { s with tokens := tokens, next := s.next + 1 }

/-- The session after a call that waits for a token. -/
def Session.await (s : Session) (token : Nat) (wait : Wait) : Session :=
  { s with waiting := s.waiting ++ [⟨s.next, token, wait⟩], next := s.next + 1 }

end Tokens

end PacketRelay
