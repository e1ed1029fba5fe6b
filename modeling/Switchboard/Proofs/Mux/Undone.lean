import Switchboard.Proofs.Mux.Failures
import Switchboard.Proofs.Mux.Lone

namespace Switchboard.Mux

/-- The second backend is the first, with at most one more request in its queue. -/
structure Backend.OneMore (call : Nat) (params : Json) (b b' : Backend) : Prop where
  name : b'.name = b.name
  accepts : b'.accepts = b.accepts
  queue : b'.queue = b.queue ∨ b'.queue = b.queue ++ [.request call handshakeMethod params]

namespace Backend.OneMore

variable {call : Nat} {params : Json} {b b' : Backend}

theorem request (channel : b.IsChannel) :
    OneMore call params b (b.request call handshakeMethod params).1 where
  name := name_request ..
  accepts := channel.accepts_request ..
  queue := by
    rw [(channel.request_eq ..).2]
    split
    · exact .inr rfl
    · exact .inl rfl

theorem dequeue (more : OneMore call params b b') (channel : b.IsChannel)
    (channel' : b'.IsChannel) : OneMore call params b.dequeue b'.dequeue where
  name := by rw [name_dequeue, name_dequeue, more.name]
  accepts := by rw [channel.accepts_dequeue, channel'.accepts_dequeue, more.accepts]
  queue := by
    rw [channel.queue_dequeue, channel'.queue_dequeue]
    rcases more.queue with same | longer
    · exact .inl (by rw [same])
    · rw [longer]
      cases b.queue with
      | nil => exact .inl rfl
      | cons m rest => exact .inr rfl

theorem close (more : OneMore call params b b') (channel : b.IsChannel)
    (channel' : b'.IsChannel) : OneMore call params b.close b'.close where
  name := by rw [name_close, name_close, more.name]
  accepts := by rw [channel.accepts_close, channel'.accepts_close]
  queue := by rw [channel.queue_close, channel'.queue_close]; exact .inl rfl

end Backend.OneMore

theorem forall₂_modify {r : Backend → Backend → Prop} {f : Backend → Backend}
    {bs bs' : List Backend} (all : List.Forall₂ r bs bs')
    (kept : ∀ b ∈ bs, ∀ b' ∈ bs', r b b' → r (f b) (f b')) (index : Nat) :
    List.Forall₂ r (bs.modify index f) (bs'.modify index f) := by
  induction all generalizing index with
  | nil => simp
  | @cons b b' bs bs' first rest ih =>
    cases index with
    | zero => exact .cons (kept b List.mem_cons_self b' List.mem_cons_self first) rest
    | succ index =>
      refine .cons first (ih (fun c member c' member' => ?_) index)
      exact kept c (List.mem_cons_of_mem b member) c' (List.mem_cons_of_mem b' member')

theorem Command.onBackends_oneMore {call : Nat} {params : Json} {bs bs' : List Backend}
    (more : List.Forall₂ (Backend.OneMore call params) bs bs')
    (channels : ∀ b ∈ bs, b.IsChannel) (channels' : ∀ b ∈ bs', b.IsChannel) (c : Command) :
    List.Forall₂ (Backend.OneMore call params) (c.onBackends bs) (c.onBackends bs') := by
  have dequeued := forall₂_modify (f := .dequeue) more fun b member b' member' one =>
    one.dequeue (channels b member) (channels' b' member')
  have closed := forall₂_modify (f := .close) more fun b member b' member' one =>
    one.close (channels b member) (channels' b' member')
  cases c with
  | calls c =>
    cases c with
    | receive index => exact dequeued index
    | closeOutbound index => exact closed index
    | _ => exact more
  | dropPeer index => exact closed index
  | _ => exact more

namespace Session

variable {s : Session} {call : Nat}

theorem notedAtOnce_spared {c : Command} (spares : c.spares call = true) :
    (s.notedAtOnce c).issued = [] ∧ ((s.notedAtOnce c).ended = [] ∨
      call ∈ s.calls.unfinished ∧ (s.notedAtOnce c).ended = [(call, .cancelled)] ∧
        (s.act c).1.calls = s.calls.cancel call) := by
  constructor
  · cases c with
    | calls c =>
      cases c with
      | call => cases spares
      | _ => rfl
    | _ => rfl
  · unfold notedAtOnce
    rcases act_effects s c with none | ⟨other, pending, rfl, gone, one⟩ | ⟨torn, -⟩
    · exact .inl (by simp [none])
    · obtain rfl : other = call := beq_iff_eq.mp spares
      exact .inr ⟨pending, by simp [one], gone⟩
    · cases c with
      | shutdown => cases spares
      | drop => cases spares
      | _ => cases torn

variable {base : CallSide} {ended : List (Nat × Outcome)}

theorem tried_step (tried : base.Tried call s.calls ended) (still : base.Still)
    (free : base.attempt = none) (absent : call ∉ base.unfinished) (sound : s.calls.Sound)
    {c : Command} (spares : c.spares call = true) :
    base.Tried call (s.step c).1.calls (ended ++ endings (s.step c).2.2) := by
  have moved := act_moved s c
  have acted : base.Tried call (s.act c).1.calls (ended ++ (s.notedAtOnce c).ended) := by
    obtain ⟨unissued, unended | ⟨pending, cancelled, gone⟩⟩ := notedAtOnce_spared (s := s) spares
    · rw [unended, List.append_nil]
      exact tried.moved still free moved unissued unended
    · rw [cancelled, gone]
      exact tried.cancelled still free absent pending
  rw [step_calls, endings_step, ← List.append_assoc]
  exact acted.settle still free (sound.moved moved)

theorem tried_run (tried : base.Tried call s.calls ended) (still : base.Still)
    (free : base.attempt = none) (absent : call ∉ base.unfinished) (sound : s.calls.Sound)
    (quiet : s.calls.Quiet) {events : List Command}
    (spared : ∀ c ∈ events, c.spares call = true) :
    base.Tried call (s.run events).calls (ended ++ (s.ledger events).ended) := by
  induction events generalizing s ended with
  | nil => rwa [ledger, List.append_nil]
  | cons c rest ih =>
    obtain ⟨first, others⟩ := List.forall_mem_cons.mp spared
    obtain ⟨sound', quiet'⟩ := step_sound sound quiet c
    have next := tried_step tried still free absent sound first
    rw [ledger, Ledger.ended_append, ← List.append_assoc]
    exact ih next sound' quiet' others

theorem rested_step (rested : base.Rested s.calls) (still : base.Still)
    (free : base.attempt = none) (absent : call ∉ base.unfinished) (sound : s.calls.Sound)
    {c : Command} (spares : c.spares call = true) : base.Rested (s.step c).1.calls := by
  have moved := act_moved s c
  obtain ⟨unissued, unended | ⟨pending, -⟩⟩ := notedAtOnce_spared (s := s) spares
  · have acted := rested.moved still free moved unissued unended
    exact (acted.settle still free (sound.moved moved)).1
  · rw [rested.unfinished] at pending
    exact absurd pending absent

theorem rested_run (rested : base.Rested s.calls) (still : base.Still)
    (free : base.attempt = none) (absent : call ∉ base.unfinished) (sound : s.calls.Sound)
    (quiet : s.calls.Quiet) {events : List Command}
    (spared : ∀ c ∈ events, c.spares call = true) : base.Rested (s.run events).calls := by
  induction events generalizing s with
  | nil => exact rested
  | cons c rest ih =>
    obtain ⟨first, others⟩ := List.forall_mem_cons.mp spared
    obtain ⟨sound', quiet'⟩ := step_sound sound quiet c
    exact ih (rested_step rested still free absent sound first) sound' quiet' others

theorem queues_step (still : s.calls.Still) (sound : s.calls.Sound) {c : Command}
    (spares : c.spares call = true) : (s.step c).1.calls.Still ∧
      (s.step c).1.calls.backends = c.onBackends s.calls.backends := by
  have moved := act_moved s c
  have acted := moved.still still (notedAtOnce_spared spares).1
  obtain ⟨rests, same⟩ := (acted.settle (sound.moved moved)).still acted
  exact ⟨rests, same.trans (backends_act sound.channels c)⟩

theorem oneMore_run {t : Session} {c : Nat} {params : Json}
    (more : List.Forall₂ (Backend.OneMore c params) s.calls.backends t.calls.backends)
    (still : s.calls.Still) (sound : s.calls.Sound) (quiet : s.calls.Quiet)
    (still' : t.calls.Still) (sound' : t.calls.Sound) (quiet' : t.calls.Quiet)
    {events : List Command} (spared : ∀ c ∈ events, c.spares call = true) :
    List.Forall₂ (Backend.OneMore c params) (s.run events).calls.backends
      (t.run events).calls.backends := by
  induction events generalizing s t with
  | nil => exact more
  | cons e rest ih =>
    obtain ⟨first, others⟩ := List.forall_mem_cons.mp spared
    obtain ⟨rests, same⟩ := queues_step still sound first
    obtain ⟨rests', same'⟩ := queues_step still' sound' first
    obtain ⟨next, quieted⟩ := step_sound sound quiet e
    obtain ⟨next', quieted'⟩ := step_sound sound' quiet' e
    refine ih ?_ rests next quieted rests' next' quieted' others
    rw [same, same']
    exact e.onBackends_oneMore more sound.channels sound'.channels

end Session

theorem CallSide.deliver_of_unawaited {s : CallSide} {ref : RequestRef}
    (unawaited : s.awaits ref = false) (reply : Reply) : s.deliver ref reply = s := by
  obtain ⟨attempt, routed⟩ := Bool.or_eq_false_iff.mp unawaited
  have held : s.attempt.map (·.hear ref reply) = s.attempt := by
    cases here : s.attempt with
    | none => rfl
    | some a =>
      rw [here, Option.any_some] at attempt
      rw [Option.map_some, Attempt.hear, attempt]
      rfl
  have others : s.routed.map (·.hear ref reply) = s.routed := by
    refine (List.map_congr_left fun r member => ?_).trans (List.map_id _)
    rw [Routed.hear, if_neg (List.any_eq_false.mp routed r member)]
    rfl
  rw [deliver, held, others]

theorem CallSide.unawaited {s : CallSide} {call : Nat} (ended : call ∉ s.unfinished) (i : Nat) :
    s.awaits ⟨call, i⟩ = false := by
  rw [unfinished_eq, line] at ended
  simp only [List.mem_append, not_or] at ended
  obtain ⟨⟨⟨⟨-, held, -⟩, unrouted⟩, -⟩, -⟩ := ended
  refine Bool.or_eq_false_iff.mpr ⟨?_, List.any_eq_false.mpr fun r member awaited => ?_⟩
  · cases here : s.attempt with
    | none => rfl
    | some a =>
      have other : a.call ≠ call := fun same => held (by simp [here, same])
      simp [Attempt.awaits, other]
  · simp only [Routed.awaits, Bool.and_eq_true, beq_iff_eq] at awaited
    exact unrouted (awaited.1.1 ▸ List.mem_map_of_mem member)

/-- Nobody hears of the replies to the requests of a call: a reply uses its ticket up, and there is
    nothing else that it does. -/
structure Dead (s : Session) (call : Nat) : Prop where
  unawaited : ∀ i, s.calls.awaits ⟨call, i⟩ = false
  unheard : ∀ i reply, s.calls.deliver ⟨call, i⟩ reply = s.calls
  spent : ∀ c ticket reply i, c.reply? = some (ticket, reply) →
    s.calls.ticket? ticket = some ⟨call, i⟩ → ∃ result, s.step (.calls c) =
      ({ s with calls := { s.calls with tickets := s.calls.tickets.set ticket none } }, result, [])

namespace Session

variable {s : Session} {call : Nat}

theorem act_reply {c : CallCommand} {ticket : Nat} {reply : Reply} {ref : RequestRef}
    (replies : c.reply? = some (ticket, reply)) (good : s.calls.ticket? ticket = some ref) :
    ∃ result, s.act (.calls c) =
      ({ s with calls := s.calls.answer ticket ref reply }, result, []) := by
  cases c with
  | respond t value =>
    cases replies
    exact ⟨_, by simp [act, Command.backend?, CallCommand.backend?, Command.needsLife, perform,
      CallSide.act, CallSide.respond, good]; rfl⟩
  | respondError t error =>
    obtain ⟨e, read, same⟩ := Option.map_eq_some_iff.mp replies
    cases same
    have decoded : Record.ofJson RpcError.read error = .ok e := by
      cases here : Record.ofJson RpcError.read error with
      | error problem => simp [here, Except.toOption] at read
      | ok e' => simpa [here, Except.toOption] using read
    exact ⟨_, by simp [act, Command.backend?, CallCommand.backend?, Command.needsLife, perform,
      CallSide.act, CallSide.respond, decoded, good]; rfl⟩
  | dropTicket t =>
    cases replies
    exact ⟨_, by simp [act, Command.backend?, CallCommand.backend?, Command.needsLife, perform,
      CallSide.act, good]; rfl⟩
  | _ => cases replies

theorem step_unawaited (settled : s.Settled) {c : CallCommand}
    {ticket : Nat} {reply : Reply} {ref : RequestRef} (replies : c.reply? = some (ticket, reply))
    (good : s.calls.ticket? ticket = some ref) (unawaited : s.calls.awaits ref = false) :
    ∃ result, s.step (.calls c) =
      ({ s with calls := { s.calls with tickets := s.calls.tickets.set ticket none } },
        result, []) := by
  obtain ⟨result, acted⟩ := act_reply replies good
  have after : s.calls.answer ticket ref reply =
      { s.calls with tickets := s.calls.tickets.set ticket none } :=
    CallSide.deliver_of_unawaited
      (s := { s.calls with tickets := s.calls.tickets.set ticket none }) unawaited reply
  rw [after] at acted
  have still : Settled
      { s with calls := { s.calls with tickets := s.calls.tickets.set ticket none } } :=
    { settled with
      calls := ⟨settled.calls.fresh, settled.calls.attempt, settled.calls.waiting,
        settled.calls.routed⟩ }
  refine ⟨result, ?_⟩
  rw [step, acted]
  simp only [still.rests, List.append_nil]

theorem dead_of_ended (settled : s.Settled) (ended : call ∉ s.calls.unfinished) :
    Dead s call where
  unawaited := CallSide.unawaited ended
  unheard i reply := CallSide.deliver_of_unawaited (CallSide.unawaited ended i) reply
  spent _ _ _ i replies good :=
    step_unawaited settled replies good (CallSide.unawaited ended i)

end Session

def Command.handshake (params : Json) : Command :=
  .calls (.call (.request handshakeMethod params))

/-- A session after a handshake call, beside the one without it: only a request may be left, and a
    number is used. -/
structure Undone (base without after : Session) (call : Nat) (params : Json) : Prop where
  phase : after.calls.phase = .uninitialized
  agents : after.calls.phase.agents = []
  free : after.calls.attempt = none ∧ after.calls.waiting = []
  unawaited : ∀ ref, after.calls.awaits ref = false
  watchers : after.calls.watchers = base.calls.watchers
  names : after.calls.backends.map Backend.name = base.calls.backends.map Backend.name
  streams : after.streams = without.streams
  rest : after.calls = { without.calls with
    nextCall := call + 1
    backends := after.calls.backends
    tickets := after.calls.tickets }
  queues : List.Forall₂ (Backend.OneMore call params) without.calls.backends after.calls.backends

namespace Session

theorem act_handshake {s : Session} (alive : s.isAlive = true) (params : Json) :
    s.act (.handshake params) =
      ({ s with calls := (s.calls.issue (.request handshakeMethod params)).1 },
        .call s.calls.nextCall, []) :=
  act_call alive _

theorem handshake_tried {s : Session} (sound : s.calls.Sound) (settled : s.Settled)
    (alive : s.isAlive = true) (still : s.calls.Still) (free : s.calls.attempt = none)
    (uninitialized : s.calls.phase = .uninitialized) (params : Json) {events : List Command}
    (spared : ∀ c ∈ events, c.spares s.calls.nextCall = true) :
    let after := s.run (.handshake params :: events)
    let ended := (s.ledger (.handshake params :: events)).ended
    CallSide.Tried { s.calls with nextCall := s.calls.nextCall + 1 } s.calls.nextCall
      after.calls ended ∧
    (s.calls.backends = [] → ∃ v, (s.calls.nextCall, .ok v) ∈ ended) ∧
    List.Forall₂ (Backend.OneMore s.calls.nextCall params) (s.run events).calls.backends
      after.calls.backends ∧
    after.streams = (s.run events).streams := by
  intro after ended
  obtain ⟨tried, rests, backends, bare⟩ :=
    CallSide.Tried.start sound still free uninitialized params
  obtain ⟨sound', quiet'⟩ := step_sound sound settled.calls (.handshake params)
  have calls : (s.step (.handshake params)).1.calls =
      (s.calls.issue (.request handshakeMethod params)).1.settle.1 := by
    rw [step_calls, act_handshake alive]
  have first : endings (s.step (.handshake params)).2.2 =
      endings (s.calls.issue (.request handshakeMethod params)).1.settle.2 := by
    rw [endings_step, notedAtOnce, act_handshake alive]
    rfl
  rw [← calls] at tried rests backends
  have absent : s.calls.nextCall ∉ s.calls.unfinished := fun waits =>
    Nat.lt_irrefl _ (sound.numbered _ waits)
  refine ⟨?_, fun none => ?_, ?_, ?_⟩
  · rw [← first] at tried
    exact tried_run tried ⟨still.fresh, still.waiting, still.routed⟩ free absent sound' quiet'
      spared
  · obtain ⟨v, ok⟩ := bare none
    refine ⟨v, List.mem_append_left _ ?_⟩
    rw [← first] at ok
    exact ok
  · refine oneMore_run ?_ still sound settled.calls rests sound' quiet' spared
    rw [backends, List.forall₂_map_right_iff, List.forall₂_same]
    exact fun b member => .request (sound.channels b member)
  · exact streams_run (streams_calls settled _) sound' quiet' sound settled.calls
      (run_keeps sound settled.calls [.handshake params]).length events

theorem undone_of_rested {s : Session} (sound : s.calls.Sound) (settled : s.Settled)
    (alive : s.isAlive = true) (still : s.calls.Still) (free : s.calls.attempt = none)
    (uninitialized : s.calls.phase = .uninitialized) (params : Json) {events : List Command}
    (spared : ∀ c ∈ events, c.spares s.calls.nextCall = true)
    (rested : CallSide.Rested { s.calls with nextCall := s.calls.nextCall + 1 }
      (s.run (.handshake params :: events)).calls) :
    Undone s (s.run events) (s.run (.handshake params :: events)) s.calls.nextCall params := by
  obtain ⟨-, -, queues, streams⟩ :=
    handshake_tried sound settled alive still free uninitialized params spared
  have absent : s.calls.nextCall ∉ s.calls.unfinished := fun waits =>
    Nat.lt_irrefl _ (sound.numbered _ waits)
  have names := (run_keeps sound settled.calls (.handshake params :: events)).names
  have here : s.calls.Rested s.calls := ⟨s.calls.backends, s.calls.tickets, rfl⟩
  obtain ⟨bs, ts, without⟩ := rested_run here still free absent sound settled.calls spared
  obtain ⟨bs', ts', after⟩ := rested
  rw [after] at queues names
  exact {
    phase := by rw [after, ← uninitialized]
    agents := by rw [after, uninitialized]; rfl
    free := by rw [after]; exact ⟨free, still.waiting⟩
    unawaited := fun ref => by
      rw [after]
      simp [CallSide.awaits, free, still.routed]
    watchers := by rw [after]
    names := by rw [after]; exact names
    streams
    rest := by rw [after, without]
    queues := by rw [after]; exact queues }

variable (names : List String) (settings : Settings) (before : List Command)

theorem still_of_idle (uninitialized : (reached names settings before).phase = .uninitialized)
    (idle : (record names settings before).pending = []) :
    (reached names settings before).Still ∧ (reached names settings before).attempt = none := by
  obtain ⟨sound, quiet⟩ := reached_sound names settings before
  have line := (reached_recorded names settings before).1.line_eq sound quiet.fresh
  rw [idle, CallSide.line, List.append_eq_nil_iff] at line
  have free : (reached names settings before).attempt = none := by simpa using line.1
  exact ⟨⟨quiet.fresh, quiet.waiting free, sound.unrouted uninitialized⟩, free⟩

theorem record_append (after : List Command) : record names settings (before ++ after) =
    record names settings before ++ ((ofNames names settings).run before).ledger after :=
  ledger_append ..

/-- A handshake call that fails or is cancelled changes nothing, whatever the peers did meanwhile:
    what is left of it is at most a request in each queue, and nobody hears of that. A handshake
    call succeeds that is answered by all backends and not cancelled. -/
theorem failed_handshake_undone
    (alive : ((ofNames names settings).run before).isAlive = true)
    (uninitialized : (reached names settings before).phase = .uninitialized)
    (idle : (record names settings before).pending = []) (params : Json) {events : List Command}
    (spared : ∀ c ∈ events, c.spares (reached names settings before).nextCall = true)
    {outcome : Outcome} (bad : outcome.isOk = false)
    (failed : ((reached names settings before).nextCall, outcome) ∈
      (record names settings (before ++ .handshake params :: events)).ended) :
    let call := (reached names settings before).nextCall
    let commands := before ++ .handshake params :: events
    Undone ((ofNames names settings).run before) ((ofNames names settings).run (before ++ events))
      ((ofNames names settings).run commands) call params ∧
    (record names settings commands).ended =
      (record names settings before).ended ++ [(call, outcome)] ∧
    ∀ later, Dead ((ofNames names settings).run (commands ++ later)) call ∧
      ∀ c p, (c, .request handshakeMethod p) ∈ (record names settings (commands ++ later)).issued →
        (c, .cancelled) ∉ (record names settings (commands ++ later)).ended →
        (∀ i < names.length, ∃ v,
          (⟨c, i⟩, .ok v) ∈ (record names settings (commands ++ later)).answers) →
        ∃ v, (c, .ok v) ∈ (record names settings (commands ++ later)).ended := by
  intro call commands
  obtain ⟨sound, quiet⟩ := reached_sound names settings before
  obtain ⟨still, free⟩ := still_of_idle names settings before uninitialized idle
  obtain ⟨recorded, -⟩ := reached_recorded names settings before
  obtain ⟨recorded', -⟩ := reached_recorded names settings commands
  have settled := reached_settled names settings
  obtain ⟨tried, bare, -, -⟩ :=
    handshake_tried sound (settled before) alive still free uninitialized params spared
  have whole := congrArg Ledger.ended
    (record_append names settings before (.handshake params :: events))
  rw [Ledger.ended_append] at whole
  -- the call has failed, so it has not succeeded too
  have unpublished (v : Json) : (call, .ok v) ∉ (((ofNames names settings).run before).ledger
      (.handshake params :: events)).ended := fun ok => by
    have member : (call, .ok v) ∈ (record names settings commands).ended :=
      whole ▸ List.mem_append_right _ ok
    have same := congrArg Prod.snd
      (List.inj_on_of_nodup_map recorded'.ended_nodup failed member rfl)
    rw [show outcome = .ok v from same] at bad
    cases bad
  have now : (call, outcome) ∈ (((ofNames names settings).run before).ledger
      (.handshake params :: events)).ended := by
    rw [whole] at failed
    exact (List.mem_append.mp failed).resolve_left fun old =>
      Nat.lt_irrefl _ (recorded.ended_lt old)
  obtain ⟨rested, only⟩ := tried.rested_of_failed now unpublished
  refine ⟨?_, by rw [whole, only]; rfl, fun later => ⟨?_, fun c p issued kept answered => ?_⟩⟩
  · have undone := undone_of_rested sound (settled before) alive still free uninitialized params
      spared rested
    rwa [← run_append, ← run_append] at undone
  · obtain ⟨recorded'', -⟩ := reached_recorded names settings (commands ++ later)
    have still : (call, outcome) ∈ (record names settings (commands ++ later)).ended := by
      rw [record_append, Ledger.ended_append]
      exact List.mem_append_left _ failed
    exact dead_of_ended (settled _) (recorded''.not_mem_of_ended still)
  · refine succeeds_of_answered names settings _ (fun none => ?_) issued kept answered
    have length := (reached_length names settings before).trans (congrArg List.length none)
    obtain ⟨v, ok⟩ := bare (List.length_eq_zero_iff.mp length)
    exact unpublished v ok

theorem failed_handshake_undone_after_drop :
    let events : List Command := [.calls (.receive 0), .calls (.respond 0 (.str "a")),
      .calls (.receive 1), .calls (.dropTicket 1)]
    let again : List Command := [.handshake .null, .calls (.receive 1),
      .calls (.respond 2 (.str "b")), .calls (.receive 0), .calls (.respond 3 (.str "a"))]
    let start := ofNames ["a", "b"] {}
    Undone start (start.run events) (start.run (.handshake .null :: events)) 0 .null ∧
      ∃ v, (1, .ok v) ∈ (record ["a", "b"] {} (.handshake .null :: events ++ again)).ended := by
  intro events again start
  have spared : ∀ c ∈ events, c.spares 0 = true := by simp [events, Command.spares]
  have failed : (0, .error (Backend.ofName "b").closedError) ∈
      (record ["a", "b"] {} (.handshake .null :: events)).ended := List.mem_of_getElem? (i := 0) rfl
  have undone := failed_handshake_undone ["a", "b"] {} [] rfl rfl rfl .null spared rfl failed
  refine ⟨undone.1, (undone.2.2 again).2 1 .null (List.mem_of_getElem? (i := 1) rfl) ?_ ?_⟩
  · intro cancelled
    cases cancelled with
    | tail _ cancelled => cases cancelled with
      | tail _ cancelled => cases cancelled
  · intro i bound
    match i, bound with
    | 0, _ => exact ⟨_, List.mem_of_getElem? (i := 3) rfl⟩
    | 1, _ => exact ⟨_, List.mem_of_getElem? (i := 2) rfl⟩

end Session

end Switchboard.Mux
