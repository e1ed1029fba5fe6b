import Switchboard.Mux.CallSide.Basic

namespace Switchboard.Mux.CallSide

def awaits (s : CallSide) (ref : RequestRef) : Bool :=
  s.attempt.any (·.awaits ref) || s.routed.any (·.awaits ref)

/-- Gives a request its reply. Nothing changes when nobody waits for it. -/
def deliver (s : CallSide) (ref : RequestRef) (reply : Reply) : CallSide :=
  { s with
    attempt := s.attempt.map (·.hear ref reply)
    routed := s.routed.map (·.hear ref reply) }

inductive Received
  | notification (method : String) (params : Json)
  | request (method : String) (params : Json) (ticket : Nat)
  | empty
  | gone

def receive (s : CallSide) (index : Nat) : CallSide × Received :=
  match s.backends[index]?.bind Backend.outbound? with
  | none => (s, .gone)
  | some [] => (s, .empty)
  | some (.notification method params :: _) =>
    ({ s with backends := s.backends.modify index .dequeue }, .notification method params)
  | some (.request call method params :: _) =>
    ({ s with
        backends := s.backends.modify index .dequeue
        tickets := s.tickets ++ [some ⟨call, index⟩] },
      .request method params s.tickets.length)

/-- The request behind a ticket that is still good. -/
def ticket? (s : CallSide) (ticket : Nat) : Option RequestRef := s.tickets[ticket]?.join

/-- Uses a ticket up: its request gets the reply, if it still waits for one. -/
def answer (s : CallSide) (ticket : Nat) (ref : RequestRef) (reply : Reply) : CallSide :=
  { s with tickets := s.tickets.set ticket none }.deliver ref reply

def queuedRequests (index : Nat) (queue : List Outbound) : List RequestRef :=
  queue.filterMap fun m => match m with
    | .request call _ _ => some ⟨call, index⟩
    | .notification .. => none

/-- Closes a backend's outbound side: the requests in its queue are dropped unanswered. Says whether
    it was open. -/
def closeOutbound (s : CallSide) (index : Nat) : CallSide × Bool :=
  match s.backends[index]?.bind Backend.outbound? with
  | none => (s, false)
  | some queue =>
    let s := (queuedRequests index queue).foldl (fun s ref => s.deliver ref .dropped) s
    ({ s with backends := s.backends.modify index .close }, true)

end Switchboard.Mux.CallSide
