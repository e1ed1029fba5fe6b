import Switchboard.Proofs.Mux.Ledger

namespace Switchboard.Mux

def Attempt.hearAll (refs : List RequestRef) (reply : Reply) (a : Attempt) : Attempt :=
  refs.foldl (fun a ref => a.hear ref reply) a

def Routed.hearAll (refs : List RequestRef) (reply : Reply) (r : Routed) : Routed :=
  refs.foldl (fun r ref => r.hear ref reply) r

namespace CallSide

def heard (s : CallSide) (refs : List RequestRef) (reply : Reply) : CallSide :=
  { s with
    attempt := s.attempt.map (·.hearAll refs reply)
    routed := s.routed.map (·.hearAll refs reply) }

inductive Moved (s : CallSide) : CallSide → Ledger → Prop
  | rest : Moved s s {}
  | issued (ask : Ask) : Moved s (s.issue ask).1 { issued := [(s.nextCall, ask)] }
  | cancelled {call : Nat} (pending : call ∈ s.unfinished) :
      Moved s (s.cancel call) { ended := [(call, .cancelled)] }
  | noticed {index : Nat} {b : Backend} {method : String} {params : Json} {rest : List Outbound}
      (here : s.backends[index]? = some b) (accepting : b.accepts = true)
      (queue : b.queue = .notification method params :: rest) :
      Moved s { s with backends := s.backends.modify index .dequeue } {}
  | taken {index : Nat} {b : Backend} {call : Nat} {method : String} {params : Json}
      {rest : List Outbound} (here : s.backends[index]? = some b) (accepting : b.accepts = true)
      (queue : b.queue = .request call method params :: rest) :
      Moved s
        { s with
          backends := s.backends.modify index .dequeue
          tickets := s.tickets ++ [some ⟨call, index⟩] }
        { taken := [(⟨call, index⟩, method, params)] }
  | answered {ticket : Nat} {ref : RequestRef} (reply : Reply)
      (good : s.ticket? ticket = some ref) :
      Moved s { s.heard [ref] reply with tickets := s.tickets.set ticket none }
        { answers := [(ref, reply)] }
  | closed {index : Nat} {b : Backend} (here : s.backends[index]? = some b)
      (accepting : b.accepts = true) :
      Moved s
        { s.heard (queuedRequests index b.queue) .dropped with
          backends := s.backends.modify index .close } {}
  | tornDown : Moved s s.tearDown.1 { ended := s.unfinished.map fun call => (call, .cancelled) }

variable {s : CallSide}

theorem Moved.issued_new {s' : CallSide} {d : Ledger} (moved : s.Moved s' d) {call : Nat}
    {ask : Ask} (issued : (call, ask) ∈ d.issued) : call = s.nextCall := by
  cases moved with
  | issued ask =>
    cases List.mem_singleton.mp issued
    rfl
  | _ => cases issued

theorem Moved.ended_cancelled {s' : CallSide} {d : Ledger} (moved : s.Moved s' d) {call : Nat}
    {outcome : Outcome} (ended : (call, outcome) ∈ d.ended) : outcome = .cancelled := by
  cases moved with
  | cancelled =>
    cases List.mem_singleton.mp ended
    rfl
  | tornDown =>
    obtain ⟨_, -, same⟩ := List.mem_map.mp ended
    cases same
    rfl
  | _ => cases ended

theorem Moved.copies_of_answered {s' : CallSide} {d : Ledger} (moved : s.Moved s' d)
    {ref : RequestRef} {reply : Reply} (answered : (ref, reply) ∈ d.answers) :
    0 < s.copies ref := by
  cases moved with
  | answered _ good =>
    cases List.mem_singleton.mp answered
    exact copies_pos_of_ticket (mem_tickets good)
  | _ => cases answered

theorem front?_of_open {index : Nat} {b : Backend} (channel : b.IsChannel)
    (here : s.backends[index]? = some b) (accepting : b.accepts = true) :
    s.front? index = b.queue.head? := by
  rw [front?, here, Option.bind_some, channel.outbound?_eq, if_pos accepting, Option.bind_some]

theorem closeOutbound_moved (s : CallSide) (index : Nat) :
    s.Moved (s.closeOutbound index).1 {} := by
  unfold closeOutbound
  cases here : s.backends[index]? with
  | none => exact .rest
  | some b =>
    rw [Option.bind_some]
    cases outbound : b.outbound? with
    | none => exact .rest
    | some queue =>
      obtain ⟨accepting, rfl⟩ := Backend.of_outbound outbound
      dsimp only
      rw [foldl_deliver]
      exact .closed here accepting

theorem tornDown_endings (s : CallSide) :
    endings s.tearDown.2 = s.unfinished.map fun call => (call, .cancelled) := by
  rw [tearDown, endings_map_ended]

end CallSide

namespace Session

variable {s : Session}

/-- What a command has on record when it has acted and nothing has proceeded. -/
def notedAtOnce (s : Session) (c : Command) : Ledger where
  issued := c.issues (s.act c).2.1
  taken := s.takes c
  answers := s.replies c
  ended := endings (s.act c).2.2

theorem noted_eq (s : Session) (c : Command) :
    s.noted c = s.notedAtOnce c ++ { ended := endings (s.act c).1.calls.settle.2 } := by
  change Ledger.mk .. = Ledger.mk ..
  simp only [step, settle, notedAtOnce, List.append_nil, endings_append, endings_map_logged]

theorem endings_step (s : Session) (c : Command) : endings (s.step c).2.2 =
    (s.notedAtOnce c).ended ++ endings (s.act c).1.calls.settle.2 :=
  congrArg Ledger.ended (noted_eq s c)

theorem respond_moved {calls : CallSide} (ticket : Nat) (reply : Reply) :
    calls.Moved (calls.respond ticket reply).1
      { answers := ((calls.ticket? ticket).map (·, reply)).toList } := by
  rw [CallSide.respond]
  cases good : calls.ticket? ticket with
  | none => exact .rest
  | some ref => exact .answered reply good

theorem receive_moved (s : Session) (index : Nat) :
    s.calls.Moved (s.calls.receive index).1 { taken := s.takes (.calls (.receive index)) } := by
  simp only [takes, CallSide.front?, CallSide.receive]
  cases here : s.calls.backends[index]? with
  | none => exact .rest
  | some b =>
    rw [Option.bind_some]
    cases outbound : b.outbound? with
    | none => exact .rest
    | some queue =>
      obtain ⟨accepting, same⟩ := Backend.of_outbound outbound
      cases queue with
      | nil => exact .rest
      | cons m rest =>
        cases m with
        | notification method params => exact .noticed here accepting same
        | request call method params => exact .taken here accepting same

theorem issues_eq_nil {result : Result} (other : ∀ n, result ≠ .call n) (c : Command) :
    c.issues result = [] := by
  unfold Command.issues
  split
  · exact absurd rfl (other _)
  · rfl

theorem takes_eq_nil_of_beyond {c : Command}
    (beyond : c.backend?.any (s.calls.backends.length ≤ ·) = true) :
    s.takes c = [] ∧ s.replies c = [] := by
  cases c with
  | calls c =>
    cases c with
    | receive index =>
      have none : s.calls.backends[index]? = none :=
        List.getElem?_eq_none (by simpa [Command.backend?, CallCommand.backend?] using beyond)
      exact ⟨by simp [takes, CallSide.front?, none], rfl⟩
    | closeOutbound index => exact ⟨rfl, rfl⟩
    | _ => cases beyond
  | stream kind c => exact ⟨rfl, rfl⟩
  | dropPeer index => exact ⟨rfl, rfl⟩
  | _ => cases beyond

theorem takes_eq_nil_of_needsLife {c : Command} (needs : c.needsLife = true) :
    s.takes c = [] ∧ s.replies c = [] := by
  cases c with
  | calls c => cases c <;> first | exact ⟨rfl, rfl⟩ | cases needs
  | _ => exact ⟨rfl, rfl⟩

theorem act_moved (s : Session) (c : Command) :
    s.calls.Moved (s.act c).1.calls (s.notedAtOnce c) := by
  unfold notedAtOnce act
  split
  · rename_i beyond
    obtain ⟨untaken, unanswered⟩ := takes_eq_nil_of_beyond beyond
    rw [issues_eq_nil (fun _ => by simp), untaken, unanswered]
    exact .rest
  · split
    · rename_i needs
      obtain ⟨untaken, unanswered⟩ := takes_eq_nil_of_needsLife (Bool.and_eq_true_iff.mp needs).2
      rw [issues_eq_nil (fun _ => by simp), untaken, unanswered]
      exact .rest
    · cases c with
      | calls c =>
        cases c with
        | call ask => exact .issued ask
        | cancel call =>
          simp only [perform, CallSide.act]
          split
          · rename_i pending
            exact .cancelled (List.contains_iff_mem.mp pending)
          · exact .rest
        | receive index => exact receive_moved s index
        | respond ticket value => exact respond_moved ticket (.ok value)
        | respondError ticket error =>
          simp only [perform, CallSide.act, replies, CallCommand.reply?]
          cases Record.ofJson RpcError.read error with
          | error problem => exact .rest
          | ok e => exact respond_moved ticket (.error e)
        | dropTicket ticket =>
          simp only [perform, CallSide.act, replies, CallCommand.reply?, Option.bind_some]
          cases good : s.calls.ticket? ticket with
          | none => exact .rest
          | some ref => exact .answered .dropped good
        | closeOutbound index => exact s.calls.closeOutbound_moved index
        | isInitialized => exact .rest
        | backendCount => exact .rest
        | agents => exact .rest
      | stream kind c => cases kind <;> exact .rest
      | dropPeer index => exact s.calls.closeOutbound_moved index
      | shutdown =>
        have ended := s.calls.tornDown_endings
        simp only [perform, shutDown, endings_append, endings_map_logged, List.append_nil]
        rw [ended]
        exact .tornDown
      | drop =>
        have ended := s.calls.tornDown_endings
        simp only [perform, discard]
        rw [ended]
        exact .tornDown

theorem act_effects (s : Session) (c : Command) :
    (s.act c).2.2 = [] ∨
      (∃ call ∈ s.calls.unfinished, c = .calls (.cancel call) ∧
        (s.act c).1.calls = s.calls.cancel call ∧ (s.act c).2.2 = [.ended call .cancelled]) ∨
      c.tearsDown = true ∧ ∃ logs : List Log, (s.act c).2.2 =
        (s.calls.unfinished.map fun call => .ended call .cancelled) ++ logs.map .logged := by
  unfold act
  split
  · exact .inl rfl
  · split
    · exact .inl rfl
    · cases c with
      | calls c =>
        cases c with
        | cancel call =>
          simp only [perform, CallSide.act]
          split
          · rename_i pending
            exact .inr (.inl ⟨call, List.contains_iff_mem.mp pending, rfl, rfl, rfl⟩)
          · exact .inl rfl
        | respondError ticket error =>
          simp only [perform, CallSide.act]
          split <;> exact .inl rfl
        | dropTicket ticket =>
          simp only [perform, CallSide.act]
          split <;> exact .inl rfl
        | _ => exact .inl rfl
      | stream kind c => cases kind <;> exact .inl rfl
      | dropPeer index => exact .inl rfl
      | shutdown => exact .inr (.inr ⟨rfl, _, rfl⟩)
      | drop => exact .inr (.inr ⟨rfl, [], (List.append_nil _).symm⟩)

end Session

end Switchboard.Mux
