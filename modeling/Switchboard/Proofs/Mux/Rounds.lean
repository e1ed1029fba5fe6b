import Switchboard.Proofs.Mux.Forwarding
import Switchboard.Proofs.Mux.Lone

namespace Switchboard.Mux

namespace CallSide

variable {s : CallSide}

theorem names_broadcast (method : String) (params : Json) (index : Nat) (bs : List Backend) :
    (broadcast method params index bs).1.map Backend.name = bs.map Backend.name := by
  induction bs generalizing index with
  | nil => rfl
  | cons b rest ih =>
    rw [broadcast]
    dsimp only
    split
    · simp [ih]
    · simp
    · simp

theorem names_openAttempt (s : CallSide) (call : Nat) (params : Json) :
    (s.openAttempt call params).1.backends.map Backend.name = s.backends.map Backend.name := by
  simp [openAttempt_eq]

theorem backends_advance (s : CallSide) (a : Attempt) :
    (s.advance a).1.backends = s.backends := by
  unfold advance
  split <;> rfl

theorem names_startHandshake (s : CallSide) (call : Nat) (params : Json) :
    (s.startHandshake call params).1.backends.map Backend.name = s.backends.map Backend.name := by
  have opened := names_openAttempt s call params
  unfold startHandshake
  split
  · rfl
  · dsimp only
    split
    · rw [backends_advance]
      exact opened
    · exact opened

theorem names_start (s : CallSide) (x : Nat × Ask) :
    (s.start x).1.backends.map Backend.name = s.backends.map Backend.name := by
  obtain ⟨call, ask⟩ := x
  cases ask with
  | awaitHandshake =>
    rw [start]
    split <;> rfl
  | notify method params =>
    rw [start]
    split
    · rfl
    · have names := names_broadcast method params 0 s.backends
      dsimp only
      split <;> exact names
  | request method params =>
    rw [start]
    split
    · split
      · exact names_startHandshake s call params
      · rfl
    · split
      · rfl
      · split
        · rfl
        · rename_i b rest here
          simp [here]

theorem names_startAll (calls : List (Nat × Ask)) (s : CallSide) :
    (overAll start calls s).1.backends.map Backend.name = s.backends.map Backend.name := by
  induction calls generalizing s with
  | nil => rfl
  | cons x rest ih => exact (ih (s.start x).1).trans (names_start s x)

theorem names_takeTurns (line : List (Nat × Json)) (s : CallSide) :
    (takeTurns line s).1.backends.map Backend.name = s.backends.map Backend.name := by
  induction line generalizing s with
  | nil => rfl
  | cons w rest ih =>
    obtain ⟨call, params⟩ := w
    rw [takeTurns]
    split
    · rfl
    · split
      · exact ih s
      · refine (ih _).trans ?_
        rw [backends_advance]
        exact names_openAttempt s call params

theorem names_settle (s : CallSide) :
    s.settle.1.backends.map Backend.name = s.backends.map Backend.name := by
  have turns (t : CallSide) :
      t.handshakes.1.backends.map Backend.name = t.backends.map Backend.name := by
    unfold handshakes
    cases t.attempt with
    | none => exact names_takeTurns _ _
    | some a =>
      refine (names_takeTurns _ _).trans ?_
      dsimp only
      rw [backends_advance]
  exact (turns _).trans (names_startAll s.fresh { s with fresh := [] })

theorem names_closeOutbound (s : CallSide) (index : Nat) :
    (s.closeOutbound index).1.backends.map Backend.name = s.backends.map Backend.name := by
  unfold closeOutbound
  split
  · rfl
  · rw [foldl_deliver]
    exact names_modify Backend.name_close ..

theorem names_receive (s : CallSide) (index : Nat) :
    (s.receive index).1.backends.map Backend.name = s.backends.map Backend.name := by
  unfold receive
  split
  · rfl
  · rfl
  · exact names_modify Backend.name_dequeue ..
  · exact names_modify Backend.name_dequeue ..

theorem names_act (s : CallSide) (isAlive : Bool) (c : CallCommand) :
    (s.act isAlive c).1.backends.map Backend.name = s.backends.map Backend.name := by
  cases c with
  | cancel call =>
    simp only [act]
    split <;> rfl
  | receive index => exact names_receive s index
  | respond ticket value => exact congrArg _ (backends_respond ticket (.ok value))
  | respondError ticket error =>
    simp only [act]
    split
    · rfl
    · exact congrArg _ (backends_respond ticket _)
  | dropTicket ticket =>
    simp only [act]
    split <;> rfl
  | closeOutbound index => exact names_closeOutbound s index
  | _ => rfl

end CallSide

abbrev StreamKind.Message : StreamKind → Type
  | .notifications => Notification
  | .requests => ServerRequest

def Command.onStream? (kind : StreamKind) : Command → Option StreamCommand
  | .stream k c => if k = kind then some c else none
  | .dropPeer backend => some (.close backend)
  | _ => none

def Command.received (kind : StreamKind) : Command → Result → List (String × Json)
  | .stream k (.read _), .items messages _ => if k = kind then messages else []
  | _, _ => []

namespace Session

def stream (s : Session) : (kind : StreamKind) → FanIn kind.Message
  | .notifications => s.notifications
  | .requests => s.requests

def codec : (kind : StreamKind) → Codec kind.Message
  | .notifications => notificationCodec
  | .requests => requestCodec

def written (kind : StreamKind) (m : String × kind.Message) : String × Json :=
  (m.1, (codec kind).write m.2)

/-- What waits for the consumer in the merged stream of a kind. -/
def buffered (kind : StreamKind) (s : Session) : List (String × Json) :=
  (s.stream kind).merged.map (written kind)

/-- These commands act, and nothing proceeds. -/
def acts (s : Session) (commands : List Command) : Session :=
  commands.foldl (fun s c => (s.act c).1) s

/-- These commands act, then everything proceeds as far as it can. -/
def round (s : Session) (commands : List Command) : Session := (s.acts commands).settle.1

def rounds (s : Session) (rounds : List (List Command)) : Session := rounds.foldl round s

/-- The messages of a kind that peers push with success while these commands act. -/
def pushed (kind : StreamKind) : Session → List Command → List (Nat × kind.Message)
  | _, [] => []
  | s, c :: rest =>
    (c.onStream? kind).elim [] ((s.stream kind).takes (codec kind)) ++ (s.act c).1.pushed kind rest

def received (kind : StreamKind) : Session → List Command → List (String × Json)
  | _, [] => []
  | s, c :: rest => c.received kind (s.act c).2.1 ++ (s.act c).1.received kind rest

def pushedBy (kind : StreamKind) : Session → List (List Command) → List (List (Nat × kind.Message))
  | _, [] => []
  | s, commands :: rest => s.pushed kind commands :: (s.round commands).pushedBy kind rest

def receivedBy (kind : StreamKind) : Session → List (List Command) → List (String × Json)
  | _, [] => []
  | s, commands :: rest => s.received kind commands ++ (s.round commands).receivedBy kind rest

variable {s : Session} {kind : StreamKind}

theorem names_act (s : Session) (c : Command) :
    (s.act c).1.calls.backends.map Backend.name = s.calls.backends.map Backend.name := by
  unfold act
  split
  · rfl
  · split
    · rfl
    · cases c with
      | calls c => exact s.calls.names_act s.isAlive c
      | stream k c => cases k <;> rfl
      | dropPeer index => exact s.calls.names_closeOutbound index
      | _ => rfl

theorem length_calls_act (s : Session) (c : Command) :
    (s.act c).1.calls.backends.length = s.calls.backends.length := by
  simpa using congrArg List.length (names_act s c)

theorem isAlive_act (alive : s.isAlive = true) {c : Command} (goesOn : c.tearsDown = false) :
    (s.act c).1.isAlive = true := by
  unfold act
  split
  · exact alive
  · split
    · exact alive
    · cases c with
      | stream k c => cases k <;> exact alive
      | shutdown => cases goesOn
      | drop => cases goesOn
      | _ => exact alive

theorem stream_act (alive : s.isAlive = true) {c : Command} (goesOn : c.tearsDown = false)
    (length : (s.stream kind).lanes.length = s.calls.backends.length) :
    (s.act c).1.stream kind =
      (c.onStream? kind).elim (s.stream kind) fun c => ((s.stream kind).act (codec kind) c).1 := by
  unfold act
  split
  · rename_i beyond
    rw [← length] at beyond
    cases c with
    | stream k c =>
      rw [Command.onStream?]
      split
      · exact (FanIn.act_beyond beyond).symm
      · rfl
    | dropPeer index => exact (FanIn.act_beyond (c := .close index) beyond).symm
    | _ => rfl
  · rw [alive, Bool.not_true, Bool.false_and, if_neg Bool.false_ne_true]
    cases c with
    | stream k c => cases k <;> cases kind <;> rfl
    | dropPeer index => cases kind <;> rfl
    | shutdown => cases goesOn
    | drop => cases goesOn
    | calls c => cases kind <;> rfl

theorem received_act (s : Session) (c : Command) :
    c.received kind (s.act c).2.1 =
      ((c.onStream? kind).elim [] (s.stream kind).gives).map (written kind) := by
  cases c with
  | stream k c =>
    cases c with
    | read max =>
      have acted : s.act (.stream k (.read max)) = s.perform (.stream k (.read max)) := by
        rw [act, if_neg (by simp [Command.backend?, StreamCommand.backend?]),
          if_neg (by simp [Command.needsLife])]
      rw [acted]
      cases k <;> cases kind <;> rfl
    | _ =>
      simp only [Command.onStream?, Command.received]
      split <;> rfl
  | _ => rfl

theorem stream_settle (s : Session) : s.settle.1.stream kind = (s.stream kind).settle.1 := by
  cases kind <;> rfl

theorem names_settle (s : Session) :
    s.settle.1.calls.backends.map Backend.name = s.calls.backends.map Backend.name :=
  s.calls.names_settle

theorem names_acts (s : Session) (commands : List Command) :
    (s.acts commands).calls.backends.map Backend.name = s.calls.backends.map Backend.name := by
  induction commands generalizing s with
  | nil => rfl
  | cons c rest ih => exact (ih (s.act c).1).trans (names_act s c)

theorem names_rounds (s : Session) (rounds : List (List Command)) :
    (s.rounds rounds).calls.backends.map Backend.name = s.calls.backends.map Backend.name := by
  induction rounds generalizing s with
  | nil => rfl
  | cons commands rest ih =>
    exact (ih (s.round commands)).trans ((names_settle _).trans (names_acts s commands))

theorem reader_settle (s : Session) :
    (s.settle.1.stream kind).reader = (s.stream kind).reader := by
  rw [stream_settle]
  exact FanIn.reader_forwardAll _ _ _

/-- What has become of the messages of a kind. The forwarders of the lanes in `news` have work. -/
abbrev Conserves (kind : StreamKind) (pushed forwarded : List (Nat × kind.Message))
    (given : List (String × kind.Message)) (news : List Nat) (s : Session) : Prop :=
  (s.stream kind).Conserves (s.calls.backends.map Backend.name) pushed forwarded given news

variable {pushed forwarded : List (Nat × kind.Message)} {given : List (String × kind.Message)}

theorem conserves_act (alive : s.isAlive = true) {c : Command} (goesOn : c.tearsDown = false)
    (held : ((s.act c).1.stream kind).reader ≠ .dropped)
    (conserves : s.Conserves kind pushed forwarded given (s.stream kind).woken) :
    (s.act c).1.Conserves kind
      (pushed ++ (c.onStream? kind).elim [] ((s.stream kind).takes (codec kind))) forwarded
      (given ++ (c.onStream? kind).elim [] (s.stream kind).gives)
      ((s.act c).1.stream kind).woken := by
  have length : (s.stream kind).lanes.length = s.calls.backends.length := by
    simpa using congrArg List.length conserves.named
  have acted := stream_act alive goesOn length
  rw [acted] at held
  rw [Conserves, names_act, acted]
  cases on : c.onStream? kind with
  | none => simpa only [Option.elim, List.append_nil] using conserves
  | some command =>
    rw [on] at held
    exact conserves.act (codec kind) command held

theorem dropped_act (dropped : (s.stream kind).reader = .dropped) (c : Command) :
    ((s.act c).1.stream kind).reader = .dropped := by
  unfold act
  split
  · exact dropped
  · split
    · exact dropped
    · cases c with
      | calls c => cases kind <;> exact dropped
      | stream k c =>
        cases k <;> cases kind <;> first | exact dropped | exact FanIn.dropped_act dropped
      | dropPeer index => cases kind <;> exact (FanIn.reader_close _ _).trans dropped
      | shutdown =>
        cases kind <;> exact FanIn.dropped_release ((FanIn.reader_forwardAll ..).trans dropped)
      | drop => cases kind <;> exact FanIn.dropped_release dropped

theorem dropped_acts (dropped : (s.stream kind).reader = .dropped) (commands : List Command) :
    ((s.acts commands).stream kind).reader = .dropped := by
  induction commands generalizing s with
  | nil => exact dropped
  | cons c rest ih => exact ih (dropped_act dropped c)

theorem dropped_round (dropped : (s.stream kind).reader = .dropped) (commands : List Command) :
    ((s.round commands).stream kind).reader = .dropped :=
  (reader_settle _).trans (dropped_acts dropped commands)

theorem dropped_rounds (dropped : (s.stream kind).reader = .dropped)
    (rounds : List (List Command)) : ((s.rounds rounds).stream kind).reader = .dropped := by
  induction rounds generalizing s with
  | nil => exact dropped
  | cons commands rest ih => exact ih (dropped_round dropped commands)

theorem conserves_acts {commands : List Command} (alive : s.isAlive = true)
    (goesOn : ∀ c ∈ commands, c.tearsDown = false)
    (held : ((s.acts commands).stream kind).reader ≠ .dropped)
    (conserves : s.Conserves kind pushed forwarded given (s.stream kind).woken) :
    ∃ more, s.received kind commands = more.map (written kind) ∧
      (s.acts commands).isAlive = true ∧
      (s.acts commands).Conserves kind (pushed ++ s.pushed kind commands) forwarded
        (given ++ more) ((s.acts commands).stream kind).woken := by
  induction commands generalizing s pushed given with
  | nil => exact ⟨[], rfl, alive, by simpa [Session.pushed, acts] using conserves⟩
  | cons c rest ih =>
    have now := goesOn c (List.mem_cons_self ..)
    have heldNow : ((s.act c).1.stream kind).reader ≠ .dropped := fun dropped =>
      held (dropped_acts dropped rest)
    obtain ⟨more, received, stillAlive, after⟩ := ih (isAlive_act alive now)
      (fun c member => goesOn c (List.mem_cons_of_mem _ member)) held
      (conserves_act alive now heldNow conserves)
    refine ⟨(c.onStream? kind).elim [] (s.stream kind).gives ++ more, ?_, stillAlive, ?_⟩
    · rw [Session.received, received_act, received, List.map_append]
    · rw [List.append_assoc, List.append_assoc] at after
      exact after

theorem conserves_round {commands : List Command} (alive : s.isAlive = true)
    (goesOn : ∀ c ∈ commands, c.tearsDown = false)
    (held : ((s.round commands).stream kind).reader ≠ .dropped)
    (conserves : s.Conserves kind pushed forwarded given []) :
    ∃ block more, (∀ i, ofLane i block = ofLane i (s.pushed kind commands)) ∧
      s.received kind commands = more.map (written kind) ∧ (s.round commands).isAlive = true ∧
      (s.round commands).Conserves kind (pushed ++ s.pushed kind commands) (forwarded ++ block)
        (given ++ more) [] := by
  rw [round, reader_settle] at held
  obtain ⟨more, received, stillAlive, acted⟩ := conserves_acts alive goesOn held conserves.early
  obtain ⟨block, after⟩ := acted.settle held
  rw [← stream_settle] at after
  refine ⟨block, more, fun i => ?_, received, stillAlive, ?_⟩
  · have all := after.ofLane_of_rested i
    rw [ofLane_append, ofLane_append, conserves.ofLane_of_rested i] at all
    exact List.append_cancel_left all
  · rw [Conserves, round, names_settle]
    exact after

/-- In each round the consumer's stream takes what is pushed in the round, and all of it. -/
theorem conserves_rounds {rounds : List (List Command)} (alive : s.isAlive = true)
    (goesOn : ∀ commands ∈ rounds, ∀ c ∈ commands, c.tearsDown = false)
    (held : ((s.rounds rounds).stream kind).reader ≠ .dropped)
    (conserves : s.Conserves kind pushed forwarded given []) :
    ∃ blocks more,
      List.Forall₂ (fun block pushed => ∀ i, ofLane i block = ofLane i pushed) blocks
        (s.pushedBy kind rounds) ∧
      s.receivedBy kind rounds = more.map (written kind) ∧
      (s.rounds rounds).Conserves kind (pushed ++ (s.pushedBy kind rounds).flatten)
        (forwarded ++ blocks.flatten) (given ++ more) [] := by
  induction rounds generalizing s pushed forwarded given with
  | nil => exact ⟨[], [], .nil, rfl, by simpa [pushedBy, Session.rounds] using conserves⟩
  | cons commands rest ih =>
    have heldNow : ((s.round commands).stream kind).reader ≠ .dropped := fun dropped =>
      held (dropped_rounds dropped rest)
    obtain ⟨block, more, same, received, stillAlive, now⟩ :=
      conserves_round alive (goesOn commands (List.mem_cons_self ..)) heldNow conserves
    obtain ⟨blocks, later, all, receivedLater, after⟩ := ih stillAlive
      (fun commands member => goesOn commands (List.mem_cons_of_mem _ member)) held now
    refine ⟨block :: blocks, more ++ later, .cons same all, ?_, ?_⟩
    · rw [receivedBy, received, receivedLater, List.map_append]
    · rw [List.append_assoc, List.append_assoc, List.append_assoc] at after
      exact after

theorem conserves_ofBackends (backends : List Backend) (settings : Settings) :
    (ofBackends backends settings).Conserves kind [] [] [] [] := by
  cases kind <;> exact FanIn.conserves_ofNames ..

end Session

end Switchboard.Mux
