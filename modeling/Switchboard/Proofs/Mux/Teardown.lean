import Switchboard.Proofs.Mux.Independence

namespace Switchboard.Mux

namespace FanIn

variable {α : Type} {f g : FanIn α}

theorem isEnded_iff : f.isEnded = true ↔ ∀ lane ∈ f.lanes, lane.isRunning = false := by
  simp [isEnded]

theorem isEnded_abort (f : FanIn α) : f.abort.isEnded = true := by
  refine isEnded_iff.mpr fun lane member => ?_
  obtain ⟨lane, -, rfl⟩ := List.mem_map.mp member
  cases runs : lane.isRunning <;> simp [Lane.abort, Lane.stop, runs]

/-- What the forwarders that still run write when they are cancelled. -/
def cancelLogs (f : FanIn α) : List Log :=
  (f.lanes.filter Lane.isRunning).map fun l => .forwarderCancelled f.kind l.name

theorem forward_cancelled (f : FanIn α) (before after : List (Lane α)) (l : Lane α) :
    FanIn.forward true { f with lanes := before ++ l :: after } before.length =
      ({ f with lanes := before ++ l.abort :: after },
        if l.isRunning then [.forwarderCancelled f.kind l.name] else []) := by
  have here : (before ++ l :: after)[before.length]? = some l := by simp
  have stopped : (before ++ l :: after).modify before.length .stop = before ++ l.stop :: after := by
    rw [List.modify_eq_take_drop, List.take_left, List.drop_left]
    rfl
  unfold forward
  simp only [here]
  cases runs : l.isRunning <;> simp [Lane.abort, runs, stopped]

theorem forwardAll_cancelled (f : FanIn α) (before after : List (Lane α)) :
    forwardAll true (List.range' before.length after.length) { f with lanes := before ++ after } =
      ({ f with lanes := before ++ after.map .abort }, { f with lanes := after }.cancelLogs) := by
  induction after generalizing before with
  | nil => rfl
  | cons l rest ih =>
    have later := ih (before ++ [l.abort])
    simp only [List.length_append, List.length_singleton, List.append_assoc,
      List.singleton_append] at later
    rw [List.length_cons, List.range'_succ, forwardAll, forward_cancelled]
    simp only [later, List.map_cons, cancelLogs, List.filter_cons]
    cases l.isRunning <;> rfl

theorem cancel_eq (f : FanIn α) : f.cancel = (f.abort, f.cancelLogs) := by
  rw [cancel, List.range_eq_range']
  exact forwardAll_cancelled { f with woken := [] } [] f.lanes

theorem push_of_ended (ended : f.isEnded = true) (index : Nat) (message : α) :
    f.push index message = (f, false) := by
  unfold push
  cases here : f.lanes[index]? with
  | none => rfl
  | some lane =>
    have stopped := isEnded_iff.mp ended lane (List.mem_of_getElem? here)
    simp [Lane.accepts, stopped]

theorem pushAll_of_ended (ended : f.isEnded = true) (codec : Codec α) (index : Nat)
    (messages : List Json) :
    (f.pushAll codec index messages).1 = f ∧ f.accepted codec index messages = [] ∧
      ∀ taken, (f.pushAll codec index messages).2 = .ok taken → ∀ t ∈ taken, t = false := by
  induction messages with
  | nil =>
    refine ⟨rfl, rfl, fun taken same => ?_⟩
    cases same
    exact List.forall_mem_nil _
  | cons m rest ih =>
    simp only [pushAll, accepted]
    cases codec.read m with
    | error problem =>
      refine ⟨rfl, rfl, fun taken same => ?_⟩
      cases same
    | ok message =>
      obtain ⟨still, none, refused⟩ := ih
      simp only [push_of_ended ended, still, none]
      refine ⟨trivial, rfl, fun taken same => ?_⟩
      cases more : (f.pushAll codec index rest).2 with
      | error problem =>
        rw [more] at same
        cases same
      | ok others =>
        rw [more] at same
        cases same
        exact List.forall_mem_cons.mpr ⟨rfl, refused others more⟩

theorem isEnded_close (ended : f.isEnded = true) (index : Nat) :
    (f.close index).1.isEnded = true := by
  unfold close
  cases here : f.lanes[index]? with
  | none => exact ended
  | some lane =>
    dsimp only
    split
    · rw [wake_eq]
      exact isEnded_iff.mpr (forall_mem_modify here (isEnded_iff.mp ended)
        (isEnded_iff.mp ended lane (List.mem_of_getElem? here)))
    · exact ended

theorem merged_close (f : FanIn α) (index : Nat) : (f.close index).1.merged = f.merged := by
  unfold close
  split
  · rfl
  · split
    · rw [wake_eq]
    · rfl

theorem forwardAll_of_ended (ended : f.isEnded = true) (indices : List Nat) :
    forwardAll false indices f = (f, []) := by
  induction indices with
  | nil => rfl
  | cons index rest ih =>
    have none : f.forward false index = (f, []) := by
      rw [forward_live]
      cases here : f.lanes[index]? with
      | none => rfl
      | some lane =>
        have stopped := isEnded_iff.mp ended lane (List.mem_of_getElem? here)
        simp [stopped]
    simp only [forwardAll, none, ih, List.append_nil]

/-- What comes from an ended fan-in is what it holds, in order. The rest is lost when the consumer
    drops the stream. -/
structure Drains (f g : FanIn α) (given : List (String × α)) : Prop where
  ended : g.isEnded = true
  within : given ++ g.merged <+: f.merged
  whole : g.reader = .taken → f.reader = .taken ∧ given ++ g.merged = f.merged

theorem Drains.refl (ended : f.isEnded = true) : f.Drains f [] :=
  ⟨ended, List.prefix_refl _, fun taken => ⟨taken, rfl⟩⟩

theorem Drains.of_eq (ended : g.isEnded = true) (merged : g.merged = f.merged)
    (reader : g.reader = f.reader) : f.Drains g [] :=
  ⟨ended, merged ▸ List.prefix_refl _, fun taken => ⟨reader ▸ taken, merged⟩⟩

theorem act_drains (ended : f.isEnded = true) (codec : Codec α) {c : StreamCommand}
    (untakeable : c ≠ .take) : f.Drains (f.act codec c).1 (f.gives c) := by
  cases c with
  | push index messages =>
    have still := (pushAll_of_ended ended codec index messages).1
    have same : (f.act codec (.push index messages)).1 = f := by
      rw [act]
      split <;> rename_i pushed <;> rw [pushed] at still <;> exact still
    rw [same]
    exact .refl ended
  | close index =>
    exact .of_eq (isEnded_close ended index) (merged_close f index) (reader_close f index)
  | take => exact absurd rfl untakeable
  | read max =>
    simp only [gives, act, receive]
    split
    · exact .refl ended
    · cases max with
      | none =>
        have all : f.merged ++ [] = f.merged := List.append_nil _
        exact ⟨ended, all.symm ▸ List.prefix_refl _, fun taken => ⟨taken, all⟩⟩
      | some n =>
        have all : f.merged.take n ++ f.merged.drop n = f.merged := List.take_append_drop ..
        exact ⟨ended, all.symm ▸ List.prefix_refl _, fun taken => ⟨taken, all⟩⟩
  | drop =>
    simp only [gives, act, drop]
    split
    · refine ⟨ended, List.nil_prefix, fun taken => ?_⟩
      cases taken
    · exact .refl ended

theorem reader_act (codec : Codec α) {c : StreamCommand} (untakeable : c ≠ .take)
    (kept : c ≠ .drop) : (f.act codec c).1.reader = f.reader := by
  cases c with
  | push index messages =>
    have same := reader_pushAll codec index messages f
    rw [act]
    split <;> rename_i pushed <;> rw [pushed] at same <;> exact same
  | close index => exact reader_close f index
  | take => exact absurd rfl untakeable
  | read max =>
    simp only [act, receive]
    split
    · rfl
    · cases max <;> rfl
  | drop => exact absurd rfl kept

theorem receive_of_ended (ended : f.isEnded = true) (taken : f.reader = .taken)
    (max : Option Nat) :
    (f.receive max).2 = (f.merged, .closed) ∨
      ∃ n, max = some n ∧ n ≤ f.merged.length ∧ (f.receive max).2 = (f.merged.take n, .max) := by
  rw [receive, if_neg (not_not.mpr taken), ended, if_pos rfl]
  cases max with
  | none => exact .inl rfl
  | some n =>
    dsimp only
    split
    · rename_i bound
      exact .inr ⟨n, rfl, bound, rfl⟩
    · rename_i beyond
      rw [List.take_of_length_le (Nat.le_of_not_le beyond)]
      exact .inl rfl

end FanIn

/-- What the peer of a backend finds in a message: whether it is a request, the method and the
    params. -/
def Outbound.content : Outbound → Bool × String × Json
  | .notification method params => (false, method, params)
  | .request _ method params => (true, method, params)

def Result.content? : Result → Option (Bool × String × Json)
  | .notification method params => some (false, method, params)
  | .request method params _ => some (true, method, params)
  | _ => none

def Command.collected (index : Nat) (c : Command) (result : Result) :
    List (Bool × String × Json) :=
  match c with
  | .calls (.receive backend) => if backend = index then result.content?.toList else []
  | _ => []

namespace CallSide

variable {s s' : CallSide}

def outbound? (s : CallSide) (index : Nat) : Option (List Outbound) :=
  s.backends[index]?.bind Backend.outbound?

theorem quiet_of_unfinished (idle : s.unfinished = []) : s.Quiet := by
  simp only [unfinished, List.append_eq_nil_iff, List.map_eq_nil_iff, Option.toList_eq_nil_iff,
    Option.map_eq_none_iff] at idle
  obtain ⟨⟨⟨⟨⟨fresh, free⟩, waiting⟩, routed⟩, -⟩, -⟩ := idle
  exact ⟨fresh, by simp [free], fun _ => waiting, by simp [routed]⟩

theorem Moved.unfinished_of_idle {d : Ledger} (moved : s.Moved s' d) (idle : s.unfinished = [])
    (unissued : d.issued = []) : s'.unfinished = [] := by
  cases moved with
  | issued => cases unissued
  | cancelled pending =>
    rw [idle] at pending
    cases pending
  | answered reply => exact (unfinished_heard s _ reply).trans idle
  | closed => exact (unfinished_heard s _ .dropped).trans idle
  | tornDown => rfl
  | _ => exact idle

theorem outbound?_modify {f : Backend → Backend} (s : CallSide) (index i : Nat) :
    ({ s with backends := s.backends.modify index f } : CallSide).outbound? i =
      if i = index then s.backends[i]?.bind fun b => (f b).outbound? else s.outbound? i := by
  rw [outbound?, outbound?, List.getElem?_modify]
  by_cases same : i = index
  · subst same
    cases s.backends[i]? <;> simp
  · cases s.backends[i]? <;> simp [same, Ne.symm same]

end CallSide

theorem Backend.outbound?_dequeue {b : Backend} {m : Outbound} {rest : List Outbound}
    (queue : b.outbound? = some (m :: rest)) : b.dequeue.outbound? = some rest := by
  unfold outbound? at queue
  split at queue
  · rename_i c link
    split at queue
    · rename_i isOpen
      simp only [dequeue, outbound?, link, isOpen, if_true]
      rw [Option.some.injEq] at queue
      rw [queue, List.tail_cons]
    · cases queue
  · cases queue

namespace CallSide

theorem receive_collects {s : CallSide} {index : Nat} {queue : List Outbound}
    (here : s.outbound? index = some queue) (isAlive : Bool) :
    ((s.receive index).2.toResult isAlive).content? = queue.head?.map Outbound.content ∧
      (s.receive index).1.outbound? index = some queue.tail := by
  rw [outbound?] at here
  have front {m : Outbound} {rest : List Outbound} (same : queue = m :: rest) :
      ({ s with backends := s.backends.modify index .dequeue } : CallSide).outbound? index =
        some rest := by
    rw [outbound?_modify, if_pos rfl]
    obtain ⟨b, some, outbound⟩ := Option.bind_eq_some_iff.mp here
    rw [some, Option.bind_some]
    exact Backend.outbound?_dequeue (same ▸ outbound)
  rw [receive, here]
  cases queue with
  | nil =>
    refine ⟨?_, here⟩
    cases isAlive <;> rfl
  | cons m rest => cases m <;> exact ⟨rfl, front rfl⟩

theorem outbound?_receive_other (s : CallSide) {index i : Nat} (other : i ≠ index) :
    (s.receive index).1.outbound? i = s.outbound? i := by
  have elsewhere := (s.outbound?_modify (f := .dequeue) index i).trans (if_neg other)
  unfold receive
  split
  · rfl
  · rfl
  · exact elsewhere
  · exact elsewhere

theorem outbound?_closeOutbound_other (s : CallSide) {index i : Nat} (other : i ≠ index) :
    (s.closeOutbound index).1.outbound? i = s.outbound? i := by
  unfold closeOutbound
  split
  · rfl
  · rw [foldl_deliver]
    exact (s.outbound?_modify (f := .close) index i).trans (if_neg other)

end CallSide

namespace Session

variable {s : Session} {kind : StreamKind}

/-- A session that is gone: nobody waits for anything, and no forwarder runs. -/
structure Gone (s : Session) : Prop where
  dead : s.isAlive = false
  idle : s.calls.unfinished = []
  ended : ∀ kind, (s.stream kind).isEnded = true

theorem stream_discard (s : Session) (kind : StreamKind) :
    s.discard.1.stream kind = (s.stream kind).abort.release := by
  cases kind <;> rfl

theorem gone_discard (s : Session) : s.discard.1.Gone where
  dead := rfl
  idle := rfl
  ended kind := by
    rw [stream_discard]
    exact FanIn.isEnded_abort (s.stream kind)

theorem settled_discard (s : Session) : s.discard.1.Settled :=
  ⟨CallSide.quiet_of_unfinished s.gone_discard.idle, rfl, rfl⟩

/-- A multiplexer that is shut down leaves behind what one leaves that is dropped, and has written
    which forwarders it has cancelled. -/
theorem shutDown_eq (s : Session) : s.shutDown = (s.discard.1, s.discard.2 ++
    (s.notifications.cancelLogs ++ s.requests.cancelLogs ++ [Log.shutDown]).map .logged) := by
  rw [shutDown, FanIn.cancel_eq, FanIn.cancel_eq]
  rfl

theorem step_drop (alive : s.isAlive = true) :
    s.step .drop = (s.discard.1, .dropped, s.discard.2) := by
  rw [step, act_of_fits (c := .drop) Bool.false_ne_true (.inl alive)]
  simp only [perform, s.settled_discard.rests, List.append_nil]

theorem step_shutdown (alive : s.isAlive = true) :
    s.step .shutdown = (s.discard.1, .shutdown, s.discard.2 ++
      (s.notifications.cancelLogs ++ s.requests.cancelLogs ++ [Log.shutDown]).map .logged) := by
  rw [step, act_of_fits (c := .shutdown) Bool.false_ne_true (.inl alive)]
  simp only [perform, shutDown_eq, s.settled_discard.rests, List.append_nil]

theorem act_of_dead (dead : s.isAlive = false) (c : Command) :
    c.backend?.any (s.calls.backends.length ≤ ·) = true ∧ s.act c = (s, .noBackend, []) ∨
      c.needsLife = true ∧ s.act c = (s, .noMultiplexer, []) ∨
      c.needsLife = false ∧ s.act c = s.perform c := by
  by_cases beyond : c.backend?.any (s.calls.backends.length ≤ ·) = true
  · exact .inl ⟨beyond, act_of_beyond beyond⟩
  · cases needs : c.needsLife with
    | true => exact .inr (.inl ⟨rfl, act_of_gone beyond dead needs⟩)
    | false => exact .inr (.inr ⟨rfl, act_of_fits beyond (.inr needs)⟩)

theorem stream_act_of_dead (dead : s.isAlive = false) (kind : StreamKind) (c : Command) :
    (s.act c).1.stream kind = s.stream kind ∧
        (c.onStream? kind).elim [] (s.stream kind).gives = [] ∨
      ∃ d, c.onStream? kind = some d ∧ d ≠ .take ∧
        (s.act c).1.stream kind = ((s.stream kind).act (codec kind) d).1 := by
  have given (d : StreamCommand) (k : StreamKind) (other : ∀ max, d ≠ .read max) :
      ((Command.stream k d).onStream? kind).elim [] (s.stream kind).gives = [] := by
    rw [Command.onStream?]
    split
    · cases d <;> first | rfl | exact absurd rfl (other _)
    · rfl
  -- a reading names no backend and needs no multiplexer, so it is not refused
  rcases act_of_dead dead c with ⟨beyond, acted⟩ | ⟨needs, acted⟩ | ⟨free, acted⟩ <;> rw [acted]
  · refine .inl ⟨rfl, ?_⟩
    cases c with
    | stream k d =>
      refine given d k fun max read => ?_
      rw [read] at beyond
      cases beyond
    | _ => rfl
  · refine .inl ⟨rfl, ?_⟩
    cases c with
    | stream k d =>
      refine given d k fun max read => ?_
      rw [read] at needs
      cases needs
    | dropPeer index => cases needs
    | _ => rfl
  · cases c with
    | calls c => cases kind <;> exact .inl ⟨rfl, rfl⟩
    | stream k d =>
      have untakeable : d ≠ .take := by
        rintro rfl
        cases free
      cases k <;> cases kind <;>
        first | exact .inr ⟨d, rfl, untakeable, rfl⟩ | exact .inl ⟨rfl, rfl⟩
    | dropPeer index => cases kind <;> exact .inr ⟨.close index, rfl, by simp, rfl⟩
    | shutdown => cases free
    | drop => cases free

theorem onStream?_eq_drop {c : Command} (drops : c.onStream? kind = some .drop) :
    c = .stream kind .drop := by
  cases c with
  | stream k d =>
    rw [Command.onStream?] at drops
    split at drops
    · rename_i same
      cases drops
      rw [same]
    · cases drops
  | dropPeer index => cases drops
  | _ => cases drops

namespace Gone

theorem act (gone : s.Gone) (c : Command) : (s.act c).1.Gone where
  dead := by
    rcases act_of_dead gone.dead c with ⟨-, acted⟩ | ⟨-, acted⟩ | ⟨-, acted⟩ <;> rw [acted]
    · exact gone.dead
    · exact gone.dead
    · cases c with
      | stream k d => cases k <;> exact gone.dead
      | shutdown => rfl
      | drop => rfl
      | _ => exact gone.dead
  idle := by
    refine (act_moved s c).unfinished_of_idle gone.idle ?_
    rw [notedAtOnce]
    cases c with
    | calls c =>
      cases c with
      | call ask =>
        rw [act_of_gone (c := .calls (.call ask)) Bool.false_ne_true gone.dead rfl]
        rfl
      | _ => rfl
    | _ => rfl
  ended kind := by
    rcases stream_act_of_dead gone.dead kind c with ⟨same, -⟩ | ⟨d, -, untakeable, acted⟩
    · rw [same]
      exact gone.ended kind
    · rw [acted]
      exact (FanIn.act_drains (gone.ended kind) (codec kind) untakeable).ended

theorem acts (gone : s.Gone) (commands : List Command) : (s.acts commands).Gone := by
  induction commands generalizing s with
  | nil => exact gone
  | cons c rest ih => exact ih (gone.act c)

theorem settle (gone : s.Gone) : s.settle.1.calls = s.calls ∧
    ∀ kind, s.settle.1.stream kind = { s.stream kind with woken := [] } := by
  refine ⟨congrArg Prod.fst (CallSide.quiet_of_unfinished gone.idle).rests, fun kind => ?_⟩
  have still := FanIn.forwardAll_of_ended (f := { s.stream kind with woken := [] })
    (gone.ended kind) (s.stream kind).woken
  rw [stream_settle, FanIn.settle, still]

theorem round (gone : s.Gone) (commands : List Command) : (s.round commands).Gone := by
  have acted := gone.acts commands
  obtain ⟨calls, streams⟩ := acted.settle
  exact ⟨acted.dead, (congrArg CallSide.unfinished calls).trans acted.idle, fun kind =>
    (congrArg FanIn.isEnded (streams kind)).trans (acted.ended kind)⟩

theorem rounds (gone : s.Gone) (rounds : List (List Command)) : (s.rounds rounds).Gone := by
  induction rounds generalizing s with
  | nil => exact gone
  | cons commands rest ih => exact ih (gone.round commands)

theorem pushed (gone : s.Gone) (kind : StreamKind) (commands : List Command) :
    s.pushed kind commands = [] := by
  induction commands generalizing s with
  | nil => rfl
  | cons c rest ih =>
    rw [Session.pushed, ih (gone.act c), List.append_nil]
    cases c.onStream? kind with
    | none => rfl
    | some d =>
      cases d with
      | push index messages =>
        exact (FanIn.pushAll_of_ended (gone.ended kind) (codec kind) index messages).2.1
      | _ => rfl

theorem pushedBy (gone : s.Gone) (kind : StreamKind) (rounds : List (List Command)) :
    ∀ pushed ∈ s.pushedBy kind rounds, pushed = [] := by
  induction rounds generalizing s with
  | nil => nofun
  | cons commands rest ih =>
    exact List.forall_mem_cons.mpr ⟨gone.pushed kind commands, ih (gone.round commands)⟩

theorem refuses (gone : s.Gone) (kind : StreamKind) {index : Nat} {messages : List Json}
    {taken : List Bool}
    (sent : (s.step (.stream kind (.push index messages))).2.1 = .sent taken) :
    ∀ t ∈ taken, t = false := by
  have refused :=
    (FanIn.pushAll_of_ended (gone.ended kind) (codec kind) index messages).2.2 taken
  rw [step] at sent
  rcases act_of_dead gone.dead (.stream kind (.push index messages)) with
    ⟨-, acted⟩ | ⟨-, acted⟩ | ⟨-, acted⟩ <;> rw [acted] at sent
  · cases sent
  · cases sent
  · have result : ((s.stream kind).act (codec kind) (.push index messages)).2 = .sent taken := by
      cases kind <;> exact sent
    rw [FanIn.act] at result
    split at result <;> rename_i pushed <;> rw [pushed] at refused <;> cases result
    exact refused rfl

theorem reads (gone : s.Gone) (taken : (s.stream kind).reader = .taken) (max : Option Nat) :
    (s.step (.stream kind (.read max))).2.1 = .items (s.buffered kind) .closed ∨
      ∃ n, max = some n ∧ n ≤ (s.buffered kind).length ∧
        (s.step (.stream kind (.read max))).2.1 = .items ((s.buffered kind).take n) .max := by
  have result : (s.step (.stream kind (.read max))).2.1 =
      .items (((s.stream kind).receive max).2.1.map (written kind))
        ((s.stream kind).receive max).2.2 := by
    rw [step, act_of_fits (c := .stream kind (.read max)) Bool.false_ne_true (.inr rfl)]
    cases kind <;> rfl
  rw [result, buffered, List.length_map]
  rcases FanIn.receive_of_ended (gone.ended kind) taken max with all | ⟨n, some, bound, first⟩
  · rw [all]
    exact .inl rfl
  · rw [first, List.map_take]
    exact .inr ⟨n, some, bound, rfl⟩

end Gone

/-- What comes of a stream of a session that is gone: what it holds, in order. The rest is lost when
    the consumer drops the stream. -/
structure Drains (kind : StreamKind) (s t : Session) (received : List (String × Json)) :
    Prop where
  within : received ++ t.buffered kind <+: s.buffered kind
  whole : (t.stream kind).reader = .taken →
    (s.stream kind).reader = .taken ∧ received ++ t.buffered kind = s.buffered kind

namespace Drains

variable {t u : Session} {received more : List (String × Json)}

theorem trans (first : Drains kind s t received) (second : Drains kind t u more) :
    Drains kind s u (received ++ more) where
  within := by
    rw [List.append_assoc]
    exact ((List.prefix_append_right_inj received).mpr second.within).trans first.within
  whole taken := by
    obtain ⟨held, rest⟩ := second.whole taken
    obtain ⟨held, all⟩ := first.whole held
    exact ⟨held, by rw [List.append_assoc, rest, all]⟩

theorem of_eq (reader : (t.stream kind).reader = (s.stream kind).reader)
    (merged : (t.stream kind).merged = (s.stream kind).merged) : Drains kind s t [] := by
  have same : t.buffered kind = s.buffered kind := congrArg (List.map (written kind)) merged
  exact ⟨same ▸ List.prefix_refl _, fun taken => ⟨reader ▸ taken, same⟩⟩

theorem act (gone : s.Gone) (c : Command) :
    Drains kind s (s.act c).1 (c.received kind (s.act c).2.1) := by
  rw [received_act]
  rcases stream_act_of_dead gone.dead kind c with ⟨same, none⟩ | ⟨d, on, untakeable, acted⟩
  · rw [none]
    exact of_eq (by rw [same]) (by rw [same])
  · have drains := FanIn.act_drains (gone.ended kind) (codec kind) untakeable
    rw [on]
    simp only [Option.elim]
    refine ⟨?_, fun taken => ?_⟩
    · rw [buffered, acted, ← List.map_append]
      exact drains.within.map (written kind)
    · rw [acted] at taken
      obtain ⟨held, all⟩ := drains.whole taken
      refine ⟨held, ?_⟩
      rw [buffered, acted, ← List.map_append, all, buffered]

theorem acts (gone : s.Gone) (commands : List Command) :
    Drains kind s (s.acts commands) (s.received kind commands) := by
  induction commands generalizing s with
  | nil => exact of_eq rfl rfl
  | cons c rest ih => exact (act gone c).trans (ih (gone.act c))

theorem rounds (gone : s.Gone) (rounds : List (List Command)) :
    Drains kind s (s.rounds rounds) (s.receivedBy kind rounds) := by
  induction rounds generalizing s with
  | nil => exact of_eq rfl rfl
  | cons commands rest ih =>
    -- what follows the commands of a round forgets which lanes have news, and moves nothing
    have same := (gone.acts commands).settle.2 kind
    have settled : Drains kind (s.acts commands) (s.acts commands).settle.1 [] :=
      of_eq (by rw [same]) (by rw [same])
    have now := (acts gone commands).trans settled
    rw [List.append_nil] at now
    exact now.trans (ih (gone.round commands))

end Drains

theorem holds_acts (gone : s.Gone) (taken : (s.stream kind).reader = .taken)
    {commands : List Command} (kept : .stream kind .drop ∉ commands) :
    ((s.acts commands).stream kind).reader = .taken := by
  induction commands generalizing s with
  | nil => exact taken
  | cons c rest ih =>
    obtain ⟨other, later⟩ := not_or.mp (fun member => kept (List.mem_cons.mpr member))
    refine ih (gone.act c) ?_ later
    rcases stream_act_of_dead gone.dead kind c with ⟨same, -⟩ | ⟨d, on, untakeable, acted⟩
    · rw [same, taken]
    · rw [acted, FanIn.reader_act (codec kind) untakeable, taken]
      rintro rfl
      exact other (onStream?_eq_drop on).symm

theorem holds_rounds (gone : s.Gone) (taken : (s.stream kind).reader = .taken)
    {rounds : List (List Command)} (kept : ∀ commands ∈ rounds, .stream kind .drop ∉ commands) :
    ((s.rounds rounds).stream kind).reader = .taken := by
  induction rounds generalizing s with
  | nil => exact taken
  | cons commands rest ih =>
    obtain ⟨now, later⟩ := List.forall_mem_cons.mp kept
    exact ih (gone.round commands) ((reader_settle _).trans (holds_acts gone taken now)) later

def collected (index : Nat) : Session → List Command → List (Bool × String × Json)
  | _, [] => []
  | s, c :: rest => c.collected index (s.act c).2.1 ++ (s.act c).1.collected index rest

def collectedBy (index : Nat) : Session → List (List Command) → List (Bool × String × Json)
  | _, [] => []
  | s, commands :: rest => s.collected index commands ++ (s.round commands).collectedBy index rest

/-- The peer gets the messages of its queue in order, and leaves the others there. -/
def Hands (index : Nat) (s t : Session) (collected : List (Bool × String × Json)) : Prop :=
  ∀ queue, s.calls.outbound? index = some queue → ∃ rest, t.calls.outbound? index = some rest ∧
    collected ++ rest.map Outbound.content = queue.map Outbound.content

namespace Hands

variable {index : Nat} {t u : Session} {collected more : List (Bool × String × Json)}

theorem of_eq (same : t.calls.outbound? index = s.calls.outbound? index) : Hands index s t [] :=
  fun queue here => ⟨queue, same.trans here, rfl⟩

theorem trans (first : Hands index s t collected) (second : Hands index t u more) :
    Hands index s u (collected ++ more) := by
  intro queue here
  obtain ⟨rest, now, got⟩ := first queue here
  obtain ⟨left, later, gets⟩ := second rest now
  exact ⟨left, later, by rw [List.append_assoc, gets, got]⟩

theorem act {c : Command} (kept : c ≠ .calls (.closeOutbound index) ∧ c ≠ .dropPeer index) :
    Hands index s (s.act c).1 (c.collected index (s.act c).2.1) := by
  -- only the peer's own receiving takes a message from the queue
  by_cases receives : c = .calls (.receive index)
  · subst receives
    intro queue here
    have inRange : ¬(some index).any (s.calls.backends.length ≤ ·) = true := by
      obtain ⟨b, some, -⟩ := Option.bind_eq_some_iff.mp here
      simpa using (List.getElem?_eq_some_iff.mp some).1
    rw [act_of_fits (c := .calls (.receive index)) inRange (.inr rfl)]
    obtain ⟨content, left⟩ := CallSide.receive_collects here s.isAlive
    refine ⟨queue.tail, left, ?_⟩
    rw [Command.collected, if_pos rfl]
    refine Eq.trans (congrArg (·.toList ++ queue.tail.map Outbound.content) content) ?_
    cases queue <;> rfl
  · have silent : c.collected index (s.act c).2.1 = [] := by
      unfold Command.collected
      split
      · rename_i b
        exact if_neg fun (same : b = index) => receives (same ▸ rfl)
      · rfl
    rw [silent]
    refine of_eq ?_
    unfold Session.act
    split
    · rfl
    · split
      · rfl
      · cases c with
        | calls c =>
          cases c with
          | receive b =>
            exact s.calls.outbound?_receive_other fun same => receives (same ▸ rfl)
          | closeOutbound b =>
            exact s.calls.outbound?_closeOutbound_other fun same => kept.1 (same ▸ rfl)
          | cancel call =>
            simp only [perform, CallSide.act]
            split <;> rfl
          | respond ticket value =>
            exact congrArg (·[index]?.bind _) (CallSide.backends_respond ticket (.ok value))
          | respondError ticket error =>
            simp only [perform, CallSide.act]
            split
            · rfl
            · exact congrArg (·[index]?.bind _) (CallSide.backends_respond ticket _)
          | dropTicket ticket =>
            simp only [perform, CallSide.act]
            split <;> rfl
          | _ => rfl
        | stream k d => cases k <;> rfl
        | dropPeer b =>
          exact s.calls.outbound?_closeOutbound_other fun same => kept.2 (same ▸ rfl)
        | _ => rfl

theorem acts {commands : List Command} (kept : ∀ c ∈ commands,
    c ≠ .calls (.closeOutbound index) ∧ c ≠ .dropPeer index) :
    Hands index s (s.acts commands) (s.collected index commands) := by
  induction commands generalizing s with
  | nil => exact of_eq rfl
  | cons c rest ih =>
    obtain ⟨now, later⟩ := List.forall_mem_cons.mp kept
    exact (act now).trans (ih later)

theorem rounds (gone : s.Gone) {rounds : List (List Command)} (kept : ∀ commands ∈ rounds,
    ∀ c ∈ commands, c ≠ .calls (.closeOutbound index) ∧ c ≠ .dropPeer index) :
    Hands index s (s.rounds rounds) (s.collectedBy index rounds) := by
  induction rounds generalizing s with
  | nil => exact of_eq rfl
  | cons commands rest ih =>
    obtain ⟨now, later⟩ := List.forall_mem_cons.mp kept
    have settled : Hands index (s.acts commands) (s.acts commands).settle.1 [] :=
      of_eq (by rw [(gone.acts commands).settle.1])
    have first := (acts now).trans settled
    rw [List.append_nil] at first
    exact first.trans (ih (gone.round commands) later)

end Hands

theorem Gone.receives (gone : s.Gone) {index : Nat} {queue : List Outbound}
    (here : s.calls.outbound? index = some queue) :
    (s.step (.calls (.receive index))).2.1.content? = queue.head?.map Outbound.content ∧
      (queue = [] → (s.step (.calls (.receive index))).2.1 = .queueClosed) := by
  have inRange : ¬(some index).any (s.calls.backends.length ≤ ·) = true := by
    obtain ⟨b, some, -⟩ := Option.bind_eq_some_iff.mp here
    simpa using (List.getElem?_eq_some_iff.mp some).1
  have result : (s.step (.calls (.receive index))).2.1 =
      (s.calls.receive index).2.toResult s.isAlive := by
    rw [step, act_of_fits (c := .calls (.receive index)) inRange (.inr rfl)]
    rfl
  rw [result]
  refine ⟨(CallSide.receive_collects here s.isAlive).1, fun empty => ?_⟩
  subst empty
  rw [CallSide.outbound?] at here
  rw [CallSide.receive, here, gone.dead]
  rfl

/-- Both ways to tear a session down, when no call waits, leave the same behind, and differ in what
    they log only. From then on no forwarder runs. A stream that the consumer had taken gives what
    it holds, in order, and then its end; pushes are refused. Each peer gets what is left in its
    queue, in order, and then the end of the queue. -/
theorem teardowns_agree (backends : List Backend) (settings : Settings)
    (rounds : List (List Command))
    (alive : ((ofBackends backends settings).rounds rounds).isAlive = true)
    (idle : ((ofBackends backends settings).rounds rounds).calls.unfinished = []) :
    let s := (ofBackends backends settings).rounds rounds
    let gone := (s.step .drop).1
    ((s.step .shutdown).1 = gone ∧ (s.step .drop).2 = (.dropped, []) ∧
      (s.step .shutdown).2 = (.shutdown,
        (s.notifications.cancelLogs ++ s.requests.cancelLogs ++ [Log.shutDown]).map .logged)) ∧
    ∀ later : List (List Command),
      let now := gone.rounds later
      (∀ kind,
        (∀ lane ∈ (now.stream kind).lanes, lane.isRunning = false) ∧
        (∀ pushed ∈ gone.pushedBy kind later, pushed = []) ∧
        (∀ index messages taken,
          (now.step (.stream kind (.push index messages))).2.1 = .sent taken →
            ∀ t ∈ taken, t = false) ∧
        gone.receivedBy kind later <+: s.buffered kind ∧
        ((s.stream kind).reader = .taken →
          (∀ commands ∈ later, .stream kind .drop ∉ commands) →
          gone.receivedBy kind later ++ now.buffered kind = s.buffered kind ∧
          ∀ max, (now.step (.stream kind (.read max))).2.1 =
              .items (now.buffered kind) .closed ∨
            ∃ n, max = some n ∧ n ≤ (now.buffered kind).length ∧
              (now.step (.stream kind (.read max))).2.1 =
                .items ((now.buffered kind).take n) .max)) ∧
      ∀ index queue, s.calls.outbound? index = some queue →
        (∀ commands ∈ later, ∀ c ∈ commands,
          c ≠ .calls (.closeOutbound index) ∧ c ≠ .dropPeer index) →
        ∃ rest : List Outbound,
          gone.collectedBy index later ++ rest.map Outbound.content =
            queue.map Outbound.content ∧
          (now.step (.calls (.receive index))).2.1.content? = rest.head?.map Outbound.content ∧
          (rest = [] → (now.step (.calls (.receive index))).2.1 = .queueClosed) := by
  intro s gone
  have torn : gone = s.discard.1 := congrArg Prod.fst (step_drop alive)
  have silent : s.discard.2 = [] := by
    change s.calls.unfinished.map _ = []
    rw [idle, List.map_nil]
  have ends : gone.Gone := torn ▸ s.gone_discard
  have streams (kind : StreamKind) : gone.stream kind = (s.stream kind).abort.release := by
    rw [torn, stream_discard]
  have buffered (kind : StreamKind) : gone.buffered kind = s.buffered kind := by
    rw [Session.buffered, streams, Session.buffered]
    rfl
  refine ⟨⟨?_, ?_, ?_⟩, fun later => ?_⟩
  · rw [step_shutdown alive, torn]
  · rw [step_drop alive, silent]
  · rw [step_shutdown alive, silent, List.nil_append]
  intro now
  have stays : now.Gone := ends.rounds later
  refine ⟨fun kind => ⟨FanIn.isEnded_iff.mp (stays.ended kind), ends.pushedBy kind later,
    fun index messages taken sent => stays.refuses kind sent, ?_, fun taken kept => ?_⟩,
    fun index queue here kept => ?_⟩
  · have drains : Drains kind gone now (gone.receivedBy kind later) := .rounds ends later
    have within := drains.within
    rw [buffered] at within
    exact (List.prefix_append ..).trans within
  · have held : (gone.stream kind).reader = .taken := by
      have kept : (s.stream kind).abort.reader = .taken := taken
      rw [streams, FanIn.release, kept]
      rfl
    have still := holds_rounds ends held kept
    refine ⟨?_, stays.reads still⟩
    rw [← buffered]
    exact ((Drains.rounds ends later).whole still).2
  · have same : gone.calls.outbound? index = s.calls.outbound? index := by
      rw [torn]
      rfl
    obtain ⟨rest, left, got⟩ := Hands.rounds ends kept queue (same.trans here)
    obtain ⟨front, closed⟩ := stays.receives left
    exact ⟨rest, got, front, closed⟩

/-- A stream that was taken, and a handshake that was cancelled. -/
theorem teardowns_agree_of_cancelled_handshake :
    let s := (ofBackends [.ofName "a"] {}).rounds [
      [.stream .notifications .take,
        .stream .notifications (.push 0 [.obj [("method", .str "m")]])],
      [.calls (.call (.request handshakeMethod .null))],
      [.calls (.cancel 0)]]
    let gone := (s.step .drop).1
    (s.step .shutdown).1 = gone ∧
      (gone.step (.stream .notifications (.read none))).2.1 =
        .items (gone.buffered .notifications) .closed ∧
      (gone.step (.calls (.receive 0))).2.1.content? = some (true, handshakeMethod, .null) := by
  obtain ⟨⟨same, -⟩, after⟩ := teardowns_agree [.ofName "a"] {} [
    [.stream .notifications .take, .stream .notifications (.push 0 [.obj [("method", .str "m")]])],
    [.calls (.call (.request handshakeMethod .null))],
    [.calls (.cancel 0)]] rfl rfl
  obtain ⟨streams, peers⟩ := after []
  obtain ⟨-, -, -, -, yields⟩ := streams .notifications
  obtain ⟨-, reads⟩ := yields rfl nofun
  obtain ⟨rest, got, front, -⟩ := peers 0 [.request 0 handshakeMethod .null] rfl nofun
  refine ⟨same, ?_, ?_⟩
  · rcases reads none with all | ⟨n, none, -⟩
    · exact all
    · cases none
  · refine front.trans ?_
    rw [← List.head?_map]
    exact congrArg List.head? got

end Session

end Switchboard.Mux
