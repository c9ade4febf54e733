import SearchRelay.Backend.Remote

/-!
Worlds that follow a script: every reply, every set of credentials and every time is written down
beforehand, and what was sent is kept. A run in such a world is a function of the script, so a run
can be repeated with one more reply until nothing is missing in it.
-/

namespace SearchRelay

structure Script where
  /-- Replies to requests of some kind, as often as they are sent. -/
  rules : List (HttpRequest → Option HttpReply)
  /-- Replies to all other requests, in their order. -/
  replies : List HttpReply
  /-- The reply to a request for which none is left. -/
  fallback : HttpReply
  /-- What the provider of credentials says, in order; its last word stays. -/
  lenders : List (Option Credentials)
  /-- The time after a number of requests. -/
  times : Nat → Int
  /-- The mark of the request after a number of requests. -/
  marks : Nat → String
  /-- The requests, the last one first. -/
  sent : List HttpRequest
  /-- How often the provider of credentials was asked. -/
  lent : Nat

namespace Script

def ofReplies (replies : List HttpReply) : Script :=
  ⟨[], replies, .unreachable, [], fun _ => 0, fun _ => "", [], 0⟩

def requests (script : Script) : List HttpRequest := script.sent.reverse

def reply (request : HttpRequest) (script : Script) : HttpReply × Script :=
  let script := { script with sent := request :: script.sent }
  match script.rules.findSome? (· request), script.replies with
  | some reply, _ => (reply, script)
  | none, reply :: rest => (reply, { script with replies := rest })
  | none, [] => (script.fallback, script)

def lend (script : Script) : Option Credentials × Script :=
  match script.lenders with
  | [] => (none, script)
  | [last] => (last, { script with lent := script.lent + 1 })
  | given :: rest => (given, { script with lenders := rest, lent := script.lent + 1 })

def outside : Outside Script where
  send := reply
  clock script := (script.times script.sent.length, script)
  mark script := (script.marks script.sent.length, script)
  credentials := lend

end Script

end SearchRelay
