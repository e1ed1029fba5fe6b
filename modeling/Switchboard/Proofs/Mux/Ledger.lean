import Switchboard.Mux.Session
import Switchboard.Proofs.Mux.Endings

namespace Switchboard.Mux

structure Ledger where
  issued : List (Nat × Ask) := []
  -- The requests that peers took from their queues, each with its method and params.
  taken : List (RequestRef × String × Json) := []
  -- The requests that peers answered, or whose responder they dropped.
  answers : List (RequestRef × Reply) := []
  ended : List (Nat × Outcome) := []

namespace Ledger

instance : Append Ledger where
  append l d :=
    ⟨l.issued ++ d.issued, l.taken ++ d.taken, l.answers ++ d.answers, l.ended ++ d.ended⟩

variable (l d e : Ledger)

@[simp] theorem issued_append : (l ++ d).issued = l.issued ++ d.issued := rfl

@[simp] theorem taken_append : (l ++ d).taken = l.taken ++ d.taken := rfl

@[simp] theorem answers_append : (l ++ d).answers = l.answers ++ d.answers := rfl

@[simp] theorem ended_append : (l ++ d).ended = l.ended ++ d.ended := rfl

theorem append_assoc : l ++ d ++ e = l ++ (d ++ e) := by
  change Ledger.mk .. = Ledger.mk ..
  simp only [issued_append, taken_append, answers_append, ended_append, List.append_assoc]

theorem append_empty : l ++ ({} : Ledger) = l := by
  change Ledger.mk .. = _
  simp only [List.append_nil]

end Ledger

def Ask.isHandshake : Ask → Bool
  | .request method _ => Switchboard.isHandshake method
  | _ => false

def Outcome.isOk : Outcome → Bool
  | .ok _ => true
  | _ => false

def Ledger.handshakes (l : Ledger) : List Nat := (l.issued.filter (·.2.isHandshake)).map Prod.fst

def Ledger.successes (l : Ledger) : List (Nat × Outcome) :=
  l.ended.filter fun e => e.2.isOk && l.handshakes.contains e.1

theorem Ledger.mem_handshakes {l : Ledger} {call : Nat} :
    call ∈ l.handshakes ↔ ∃ params, (call, .request handshakeMethod params) ∈ l.issued := by
  simp only [handshakes, List.mem_map, List.mem_filter, Prod.exists]
  constructor
  · rintro ⟨_, ask, ⟨issued, handshake⟩, rfl⟩
    cases ask with
    | request method params => exact ⟨params, beq_iff_eq.mp handshake ▸ issued⟩
    | notify method params => cases handshake
    | awaitHandshake => cases handshake
  · rintro ⟨params, issued⟩
    exact ⟨call, _, ⟨issued, rfl⟩, rfl⟩

def Command.tearsDown : Command → Bool
  | .shutdown | .drop => true
  | _ => false

def Command.issues (c : Command) (result : Result) : List (Nat × Ask) :=
  match c, result with
  | .calls (.call ask), .call number => [(number, ask)]
  | _, _ => []

def CallCommand.reply? : CallCommand → Option (Nat × Reply)
  | .respond ticket value => some (ticket, .ok value)
  | .respondError ticket error =>
    (Record.ofJson RpcError.read error).toOption.map fun e => (ticket, .error e)
  | .dropTicket ticket => some (ticket, .dropped)
  | _ => none

namespace Session

def takes (s : Session) : Command → List (RequestRef × String × Json)
  | .calls (.receive index) => match s.calls.front? index with
    | some (.request call method params) => [(⟨call, index⟩, method, params)]
    | _ => []
  | _ => []

/-- The request that a command answers, or whose responder it drops. -/
def replies (s : Session) : Command → List (RequestRef × Reply)
  | .calls c => (c.reply?.bind fun r => (s.calls.ticket? r.1).map (·, r.2)).toList
  | _ => []

def run (s : Session) (commands : List Command) : Session :=
  commands.foldl (fun s c => (s.step c).1) s

/-- What a command leaves on record. -/
def noted (s : Session) (c : Command) : Ledger where
  issued := c.issues (s.step c).2.1
  taken := s.takes c
  answers := s.replies c
  ended := endings (s.step c).2.2

def ledger : Session → List Command → Ledger
  | _, [] => {}
  | s, c :: rest => s.noted c ++ (s.step c).1.ledger rest

variable (s : Session)

@[simp] theorem run_nil : s.run [] = s := rfl

@[simp] theorem run_cons (c : Command) (rest : List Command) :
    s.run (c :: rest) = (s.step c).1.run rest := rfl

theorem run_append (before after : List Command) :
    s.run (before ++ after) = (s.run before).run after := List.foldl_append

theorem ledger_append (before after : List Command) :
    s.ledger (before ++ after) = s.ledger before ++ (s.run before).ledger after := by
  induction before generalizing s with
  | nil =>
    change _ = Ledger.mk ..
    simp only [List.nil_append, run_nil]
    rfl
  | cons c rest ih =>
    rw [List.cons_append, ledger, ledger, ih, Ledger.append_assoc, run_cons]

end Session

end Switchboard.Mux
