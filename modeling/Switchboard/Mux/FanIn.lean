import Switchboard.Mux.Log

namespace Switchboard.Mux

/-- A lane of the fan-in: what was pushed and not forwarded yet. -/
structure Lane (α : Type) where
  name : String
  -- The sender has not been dropped.
  isOpen : Bool := true
  inbox : List α := []
  -- The forwarder has not ended.
  isRunning : Bool := true

namespace Lane

variable {α : Type}

def accepts (l : Lane α) : Bool := l.isOpen && l.isRunning

def push (l : Lane α) (message : α) : Lane α :=
  if l.accepts then { l with inbox := l.inbox ++ [message] } else l

def close (l : Lane α) : Lane α := { l with isOpen := false }

/-- Ends the forwarder; what was not forwarded is lost. -/
def stop (l : Lane α) : Lane α := { l with isRunning := false, inbox := [] }

def abort (l : Lane α) : Lane α := if l.isRunning then l.stop else l

end Lane

inductive Reader
  | untaken
  | taken
  | dropped
  deriving DecidableEq

inductive End
  | max
  | empty
  | closed
  | notTaken

structure FanIn (α : Type) where
  kind : StreamKind
  lanes : List (Lane α)
  reader : Reader := .untaken
  merged : List (String × α) := []
  -- The lanes with news for their forwarders, first come first.
  woken : List Nat := []

namespace FanIn

variable {α : Type}

def ofNames (kind : StreamKind) (names : List String) : FanIn α :=
  { kind, lanes := names.map fun name => { name } }

def wake (f : FanIn α) (index : Nat) : FanIn α :=
  if f.woken.contains index then f else { f with woken := f.woken ++ [index] }

def push (f : FanIn α) (index : Nat) (message : α) : FanIn α × Bool :=
  match f.lanes[index]? with
  | none => (f, false)
  | some lane =>
    if lane.accepts then
      ({ f with lanes := f.lanes.modify index (·.push message) }.wake index, true)
    else (f, false)

def close (f : FanIn α) (index : Nat) : FanIn α × Bool :=
  match f.lanes[index]? with
  | none => (f, false)
  | some lane =>
    if lane.isOpen then ({ f with lanes := f.lanes.modify index .close }.wake index, true)
    else (f, false)

/-- Hands the merged stream out, the first time only. -/
def take (f : FanIn α) : FanIn α × Bool :=
  if f.reader = .untaken then ({ f with reader := .taken }, true) else (f, false)

def drop (f : FanIn α) : FanIn α × Bool :=
  if f.reader = .taken then ({ f with reader := .dropped, merged := [] }, true) else (f, false)

def isEnded (f : FanIn α) : Bool := f.lanes.all fun l => !l.isRunning

/-- Reads the merged stream until it holds no more, `max` messages at most. -/
def receive (f : FanIn α) (max : Option Nat) : FanIn α × List (String × α) × End :=
  if f.reader ≠ .taken then (f, [], .notTaken)
  else
    let atEnd : End := if f.isEnded then .closed else .empty
    match max with
    | none => ({ f with merged := [] }, f.merged, atEnd)
    | some n =>
      ({ f with merged := f.merged.drop n }, f.merged.take n,
        if n ≤ f.merged.length then .max else atEnd)

/-- Lets the forwarder of a lane run. It ends when it is cancelled, before anything else; when it
    has something to move and nobody holds the merged stream; and when the sender is gone. -/
def forward (isCancelled : Bool) (f : FanIn α) (index : Nat) : FanIn α × List Log :=
  match f.lanes[index]? with
  | none => (f, [])
  | some lane =>
    if !lane.isRunning then (f, [])
    else if isCancelled then
      ({ f with lanes := f.lanes.modify index .stop }, [.forwarderCancelled f.kind lane.name])
    else if f.reader = .dropped ∧ lane.inbox ≠ [] then
      ({ f with lanes := f.lanes.modify index .stop }, [.mergedDropped f.kind lane.name])
    else
      let merged := f.merged ++ lane.inbox.map (lane.name, ·)
      if lane.isOpen then
        ({ f with lanes := f.lanes.modify index fun l => { l with inbox := [] }, merged }, [])
      else
        ({ f with lanes := f.lanes.modify index .stop, merged },
          [.sourceClosed f.kind lane.name])

def forwardAll (isCancelled : Bool) : List Nat → FanIn α → FanIn α × List Log
  | [], f => (f, [])
  | index :: rest, f =>
    let (f, logs) := f.forward isCancelled index
    let (f, more) := forwardAll isCancelled rest f
    (f, logs ++ more)

def settle (f : FanIn α) : FanIn α × List Log := forwardAll false f.woken { f with woken := [] }

/-- Cancels all forwarders and waits until they have ended. -/
def cancel (f : FanIn α) : FanIn α × List Log :=
  forwardAll true (List.range f.lanes.length) { f with woken := [] }

/-- Ends all forwarders where they are: none of them runs again. -/
def abort (f : FanIn α) : FanIn α := { f with lanes := f.lanes.map .abort, woken := [] }

/-- A merged stream that was not taken goes with its multiplexer. -/
def release (f : FanIn α) : FanIn α :=
  { f with reader := if f.reader = .untaken then .dropped else f.reader }

end FanIn

end Switchboard.Mux
