import MazeDuel.Turn.Coordinator
/-!
Standing orders: a listener that answers notifications by rule. Each rule names the notifications
it is for, how often it may be used, and what it then asks of the match.
-/

namespace MazeDuel.Turn

structure StandingOrder where
  kind : Notification.Kind
  /-- The only player whose notifications count, if not both do. -/
  player : Option Player := none
  times : Nat := 1
  requests : List Request

/-- A request that a rule has made, and the reply. -/
structure Answered where
  kind : Notification.Kind
  phase : Phase
  request : Request
  reply : Reply

namespace StandingOrder

/-- The memory of a listener with rules: how often each may still be used, and what was answered,
the latest first. -/
structure Memory where
  left : List Nat
  answers : List Answered := []

def applies (rule : StandingOrder) (n : Notification) : Bool :=
  rule.kind == n.kind && rule.player.all (· == n.player)

def ask (kind : Notification.Kind) : List Request → Plan Memory → Plan Memory
  | [], next => next
  | request :: rest, next =>
    .look fun before _ =>
      .ask request fun reply =>
        .look fun _ memory =>
          .keep { memory with
              answers := ⟨kind, before.phase, request, reply⟩ :: memory.answers }
            (ask kind rest next)

/-- Tries the rules in order, the first of which has the given number. -/
def plan (n : Notification) : Nat → List StandingOrder → Plan Memory
  | _, [] => .stop
  | i, rule :: rest =>
    .look fun _ memory =>
      let left := memory.left.getD i 0
      if rule.applies n && 0 < left then
        .keep { memory with left := memory.left.set i (left - 1) }
          (ask n.kind rule.requests (plan n (i + 1) rest))
      else plan n (i + 1) rest

def memory (rules : List StandingOrder) : Memory := { left := rules.map times }

/-- No rule is used inside itself more often than it may be used at all, which bounds the depth. -/
def listener (rules : List StandingOrder) : Listener Memory where
  plan n := plan n 0 rules
  depth := (rules.map times).foldl (· + ·) 1

end StandingOrder

end MazeDuel.Turn
