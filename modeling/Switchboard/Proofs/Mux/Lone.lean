import Switchboard.Proofs.Mux.Streams

namespace Switchboard.Mux

def Command.spares (call : Nat) : Command → Bool
  | .calls (.call _) | .shutdown | .drop => false
  | .calls (.cancel c) => c == call
  | _ => true

/-- What a command does to the outbound queues. -/
def Command.onBackends : Command → List Backend → List Backend
  | .calls (.receive index), bs => bs.modify index .dequeue
  | .calls (.closeOutbound index), bs | .dropPeer index, bs => bs.modify index .close
  | _, bs => bs

theorem modify_of_fixed {bs : List Backend} {index : Nat} {f : Backend → Backend}
    (fixed : ∀ b, bs[index]? = some b → f b = b) : bs.modify index f = bs := by
  refine List.ext_getElem? fun i => ?_
  rw [List.getElem?_modify]
  cases here : bs[i]? with
  | none => rfl
  | some b =>
    by_cases same : index = i
    · simp [same, fixed b (same ▸ here)]
    · simp [same]

namespace CallSide

variable {s s' : CallSide}

theorem backends_receive (channels : ∀ b ∈ s.backends, b.IsChannel) (index : Nat) :
    (s.receive index).1.backends = s.backends.modify index .dequeue := by
  rcases receive_cases channels index with ⟨nothing, same⟩ | ⟨b, -, -, taken⟩
  · rw [same, modify_of_fixed fun b here => ?_]
    have channel := channels b (List.mem_of_getElem? here)
    cases accepting : b.accepts with
    | true =>
      rw [front?_of_open channel here accepting, List.head?_eq_none_iff] at nothing
      exact channel.dequeue_of_empty nothing
    | false => exact channel.dequeue_of_empty (channel.queue_of_closed accepting)
  · rcases taken with ⟨method, params, rest, -, after⟩ | ⟨call, method, params, rest, -, after⟩
    · rw [after]
    · rw [after]

theorem backends_closeOutbound (channels : ∀ b ∈ s.backends, b.IsChannel) (index : Nat) :
    (s.closeOutbound index).1.backends = s.backends.modify index .close := by
  rcases closeOutbound_cases channels index with ⟨same, closed⟩ | ⟨b, -, -, after⟩
  · rw [same, modify_of_fixed fun b here => ?_]
    exact (channels b (List.mem_of_getElem? here)).close_of_closed (closed b here)
  · rw [after]

theorem backends_respond (ticket : Nat) (reply : Reply) :
    (s.respond ticket reply).1.backends = s.backends := by
  unfold respond
  split <;> rfl

end CallSide

theorem Session.backends_act {s : Session} (channels : ∀ b ∈ s.calls.backends, b.IsChannel)
    (c : Command) : (s.act c).1.calls.backends = c.onBackends s.calls.backends := by
  unfold act
  split
  · rename_i beyond
    cases c with
    | calls c =>
      cases c with
      | receive | closeOutbound =>
        exact (List.modify_eq_self
          (by simpa [Command.backend?, CallCommand.backend?] using beyond)).symm
      | _ => rfl
    | dropPeer index => exact (List.modify_eq_self (by simpa [Command.backend?] using beyond)).symm
    | _ => rfl
  · split
    · rename_i needs
      have needs := (Bool.and_eq_true_iff.mp needs).2
      cases c with
      | calls c => cases c <;> first | rfl | cases needs
      | dropPeer => cases needs
      | _ => rfl
    · cases c with
      | calls c =>
        cases c with
        | cancel call =>
          simp only [perform, CallSide.act]
          split <;> rfl
        | receive index => exact CallSide.backends_receive channels index
        | respond ticket value => exact CallSide.backends_respond ..
        | respondError ticket error =>
          simp only [perform, CallSide.act]
          split
          · rfl
          · exact CallSide.backends_respond ..
        | dropTicket ticket =>
          simp only [perform, CallSide.act]
          split <;> rfl
        | closeOutbound index => exact CallSide.backends_closeOutbound channels index
        | _ => rfl
      | stream kind c => cases kind <;> rfl
      | dropPeer index => exact CallSide.backends_closeOutbound channels index
      | _ => rfl

namespace CallSide

/-- Nobody waits for the turn, and nothing is routed. -/
structure Still (s : CallSide) : Prop where
  fresh : s.fresh = []
  waiting : s.waiting = []
  routed : s.routed = []

variable {s s' : CallSide}

theorem Still.heard (still : s.Still) (refs : List RequestRef) (reply : Reply) :
    s.heard refs reply = { s with attempt := s.attempt.map (·.hearAll refs reply) } := by
  simp only [CallSide.heard, still.routed, List.map_nil]

theorem Moved.of_spared {d : Ledger} (moved : s.Moved s' d) (still : s.Still)
    (unissued : d.issued = []) (unended : d.ended = []) : ∃ backends tickets attempt,
      s' = { s with backends, tickets, attempt } ∧
        attempt.map Attempt.call = s.attempt.map Attempt.call := by
  have calls (refs : List RequestRef) (reply : Reply) :
      (s.attempt.map (·.hearAll refs reply)).map Attempt.call = s.attempt.map Attempt.call := by
    cases s.attempt with
    | none => rfl
    | some a => exact congrArg some (Attempt.hearAll_call a refs reply)
  cases moved with
  | rest => exact ⟨_, _, _, rfl, rfl⟩
  | issued => cases unissued
  | cancelled => cases unended
  | noticed => exact ⟨_, _, _, rfl, rfl⟩
  | taken => exact ⟨_, _, _, rfl, rfl⟩
  | answered reply => exact ⟨_, _, _, by rw [still.heard], calls _ reply⟩
  | closed => exact ⟨_, _, _, by rw [still.heard], calls _ .dropped⟩
  | tornDown =>
    refine ⟨s.backends, s.tickets, s.attempt, ?_, rfl⟩
    have none := List.map_eq_nil_iff.mp unended
    simp only [CallSide.unfinished, List.append_eq_nil_iff, List.map_eq_nil_iff,
      Option.toList_eq_nil_iff, Option.map_eq_none_iff] at none
    obtain ⟨⟨⟨⟨⟨fresh, attempt⟩, waiting⟩, routed⟩, watchers⟩, stalled⟩ := none
    simp only [tearDown, fresh, attempt, waiting, routed, watchers, stalled]

theorem Still.settle (sound : s.Sound) (still : s.Still) :
    s.HandshakesRun s.settle.1 s.settle.2 := by
  obtain ⟨s₁, es₁, es₂, started, -, turns, effects⟩ :=
    settle_steps sound (by simp [still.fresh])
  rcases started with ⟨-, rfl, rfl⟩ | ⟨call, ask, fresh, -⟩
  · rw [endRouted_of_waiting (by simp [still.routed])] at turns effects
    rwa [effects]
  · rw [still.fresh] at fresh
    cases fresh

theorem HandshakesRun.of_free {es : List Effect} (run : s.HandshakesRun s' es)
    (free : s.attempt = none) (empty : s.waiting = []) : s' = s ∧ endings es = [] := by
  cases run with
  | idle => exact ⟨rfl, rfl⟩
  | pending held => rw [free] at held; cases held
  | published held => rw [free] at held; cases held
  | passed _ next => rw [empty] at next; cases next
  | drained _ busy => exact absurd empty (busy.resolve_left (not_not.mpr free))

theorem HandshakesRun.of_alone {es : List Effect} (run : s.HandshakesRun s' es) {a : Attempt}
    (held : s.attempt = some a) (empty : s.waiting = []) :
    (∃ a', a'.call = a.call ∧ s' = { s with attempt := some a' } ∧ endings es = []) ∨
      (∃ e, s' = { s with attempt := none } ∧ endings es = [(a.call, .error e)]) ∨
      ∃ v, (a.call, .ok v) ∈ endings es := by
  cases run with
  | idle free => rw [held] at free; cases free
  | @pending a' results held' =>
    rw [held, Option.some.injEq] at held'
    subst held'
    exact .inl ⟨{ a with finished := [], results }, rfl, rfl, rfl⟩
  | published held' _ _ ended =>
    rw [held, Option.some.injEq] at held'
    subst held'
    exact .inr (.inr ⟨_, by rw [ended]; exact List.mem_cons_self⟩)
  | passed _ next => rw [empty] at next; cases next
  | drained free _ kept _ _ _ ended calls =>
    rw [empty, List.map_nil, List.map_eq_nil_iff] at calls
    rcases free with ⟨free, -⟩ | ⟨a', i, reply, held', -, rfl⟩
    · rw [held] at free
      cases free
    · rw [held, Option.some.injEq] at held'
      subst held'
      refine .inr (.inl ⟨_, ?_, by rw [ended, calls]; rfl⟩)
      rw [kept empty, ← empty]

theorem HandshakesRun.still {es : List Effect} (run : s.HandshakesRun s' es) (still : s.Still) :
    s'.Still ∧ s'.backends = s.backends := by
  cases run with
  | idle | pending => exact ⟨⟨still.fresh, still.waiting, still.routed⟩, rfl⟩
  | published => exact ⟨⟨still.fresh, rfl, still.routed⟩, rfl⟩
  | passed _ next => rw [still.waiting] at next; cases next
  | drained _ _ kept => exact ⟨⟨still.fresh, rfl, still.routed⟩, kept still.waiting⟩

theorem Moved.still {d : Ledger} (moved : s.Moved s' d) (still : s.Still)
    (unissued : d.issued = []) : s'.Still := by
  cases moved with
  | issued => cases unissued
  | cancelled =>
    exact ⟨by simp [cancel, still.fresh], by simp [cancel, still.waiting],
      by simp [cancel, still.routed]⟩
  | answered | closed => exact ⟨still.fresh, still.waiting, by simp [CallSide.heard, still.routed]⟩
  | tornDown => exact ⟨rfl, rfl, rfl⟩
  | _ => exact ⟨still.fresh, still.waiting, still.routed⟩

/-- The second state is the first but for what the peers have in their queues and hands. -/
def Rested (base s : CallSide) : Prop :=
  ∃ backends tickets, s = { base with backends, tickets }

/-- A state since `base` in which a call has its handshake under way, has failed or has published,
    with the calls that have ended since. -/
inductive Tried (base : CallSide) (call : Nat) : CallSide → List (Nat × Outcome) → Prop
  | running {backends : List Backend} {tickets : List (Option RequestRef)} {a : Attempt}
      (ours : a.call = call) :
      Tried base call { base with backends, tickets, attempt := some a } []
  | failed {s : CallSide} {outcome : Outcome} (rested : base.Rested s)
      (bad : outcome.isOk = false) : Tried base call s [(call, outcome)]
  | published {s : CallSide} {ended : List (Nat × Outcome)} {v : Json}
      (ok : (call, .ok v) ∈ ended) : Tried base call s ended

variable {base : CallSide} {call : Nat} {ended : List (Nat × Outcome)}

theorem Rested.still (rested : base.Rested s) (still : base.Still) : s.Still := by
  obtain ⟨backends, tickets, rfl⟩ := rested
  exact ⟨still.fresh, still.waiting, still.routed⟩

theorem Rested.unfinished (rested : base.Rested s) : s.unfinished = base.unfinished := by
  obtain ⟨backends, tickets, rfl⟩ := rested
  rfl

theorem Rested.moved {d : Ledger} (rested : base.Rested s) (still : base.Still)
    (free : base.attempt = none) (moved : s.Moved s' d) (unissued : d.issued = [])
    (unended : d.ended = []) : base.Rested s' := by
  obtain ⟨bs, ts, attempt, rfl, same⟩ := moved.of_spared (rested.still still) unissued unended
  obtain ⟨backends, tickets, rfl⟩ := rested
  have none : attempt = base.attempt := by simpa [free] using same
  exact ⟨bs, ts, by rw [none]⟩

theorem Rested.settle (rested : base.Rested s) (still : base.Still) (free : base.attempt = none)
    (sound : s.Sound) : base.Rested s.settle.1 ∧ endings s.settle.2 = [] := by
  have rests := rested.still still
  obtain ⟨backends, tickets, rfl⟩ := rested
  obtain ⟨same, silent⟩ := (rests.settle sound).of_free free still.waiting
  exact ⟨⟨backends, tickets, same⟩, silent⟩

theorem Tried.moved {d : Ledger} (tried : Tried base call s ended) (still : base.Still)
    (free : base.attempt = none) (moved : s.Moved s' d) (unissued : d.issued = [])
    (unended : d.ended = []) : Tried base call s' ended := by
  cases tried with
  | @running backends tickets a ours =>
    have rests : ({ base with backends, tickets, attempt := some a } : CallSide).Still :=
      ⟨still.fresh, still.waiting, still.routed⟩
    obtain ⟨bs, ts, attempt, rfl, same⟩ := moved.of_spared rests unissued unended
    obtain ⟨a', rfl, ours'⟩ := Option.map_eq_some_iff.mp same
    exact .running (ours'.trans ours)
  | failed rested bad => exact .failed (rested.moved still free moved unissued unended) bad
  | published ok => exact .published ok

theorem Tried.cancelled (tried : Tried base call s ended) (still : base.Still)
    (free : base.attempt = none) (absent : call ∉ base.unfinished)
    (pending : call ∈ s.unfinished) :
    Tried base call (s.cancel call) (ended ++ [(call, .cancelled)]) := by
  cases tried with
  | @running backends tickets a ours =>
    refine .failed ⟨backends, tickets, ?_⟩ rfl
    simp only [CallSide.unfinished, List.mem_append, not_or] at absent
    obtain ⟨⟨⟨-, unrouted⟩, unwatched⟩, unstalled⟩ := absent
    have watchers : base.watchers.filter (· != call) = base.watchers :=
      List.filter_eq_self.mpr fun w member => bne_iff_ne.mpr (ne_of_mem_of_not_mem member unwatched)
    have stalled : base.stalled.filter (· != call) = base.stalled :=
      List.filter_eq_self.mpr fun w member => bne_iff_ne.mpr (ne_of_mem_of_not_mem member unstalled)
    simp only [cancel, still.fresh, still.waiting, still.routed, watchers, stalled, ours, free,
      List.filter_nil, Option.filter_some, bne_self_eq_false, Bool.false_eq_true, if_false]
  | failed rested bad =>
    rw [rested.unfinished] at pending
    exact absurd pending absent
  | published ok => exact .published (List.mem_append_left _ ok)

theorem Tried.settle (tried : Tried base call s ended) (still : base.Still)
    (free : base.attempt = none) (sound : s.Sound) :
    Tried base call s.settle.1 (ended ++ endings s.settle.2) := by
  cases tried with
  | @running backends tickets a ours =>
    have rests : ({ base with backends, tickets, attempt := some a } : CallSide).Still :=
      ⟨still.fresh, still.waiting, still.routed⟩
    rcases (rests.settle sound).of_alone rfl still.waiting with
      ⟨a', ours', same, silent⟩ | ⟨e, same, error⟩ | ⟨v, ok⟩
    · rw [same, silent]
      exact .running (ours'.trans ours)
    · rw [same, error, ours]
      exact .failed ⟨backends, tickets, by rw [← free]⟩ rfl
    · exact .published (ours ▸ ok)
  | failed rested bad =>
    obtain ⟨rested', silent⟩ := rested.settle still free sound
    rw [silent]
    exact .failed rested' bad
  | published ok => exact .published (List.mem_append_left _ ok)

theorem Tried.rested_of_failed (tried : Tried base call s ended) {outcome : Outcome}
    (member : (call, outcome) ∈ ended) (unpublished : ∀ v, (call, .ok v) ∉ ended) :
    base.Rested s ∧ ended = [(call, outcome)] := by
  cases tried with
  | running => cases member
  | failed rested => exact ⟨rested, by rw [List.mem_singleton.mp member]⟩
  | published ok => exact absurd ok (unpublished _)

theorem Tried.start (sound : s.Sound) (still : s.Still) (free : s.attempt = none)
    (uninitialized : s.phase = .uninitialized) (params : Json) :
    let t := (s.issue (.request handshakeMethod params)).1.settle
    Tried { s with nextCall := s.nextCall + 1 } s.nextCall t.1 (endings t.2) ∧ t.1.Still ∧
      t.1.backends = (s.backends.map fun b => (b.request s.nextCall handshakeMethod params).1) ∧
      (s.backends = [] → ∃ v, (s.nextCall, .ok v) ∈ endings t.2) := by
  intro t
  obtain ⟨s₁, es₁, es₂, started, -, turns, effects⟩ :=
    sound.issue_steps still.fresh (.request handshakeMethod params)
  change s₁.endRouted.1.HandshakesRun t.1 es₂ at turns
  have unready : s.phase.isInitialized ≠ true := by
    rw [uninitialized]
    exact Bool.false_ne_true
  change _ ∧ _ ∧ _ ∧ _
  rw [show t.2 = _ from effects, endings_append, endings_append]
  cases started with
  | early _ other => cases other
  | queued _ _ busy => exact absurd still.waiting (busy.resolve_left (not_not.mpr free))
  | twice initialized => exact absurd initialized unready
  | unrouted initialized => exact absurd initialized unready
  | routed initialized => exact absurd initialized unready
  | alone _ _ _ _ none _ ended =>
    rw [endRouted_of_waiting (by simp [still.routed])] at turns ⊢
    obtain ⟨rests, same⟩ := turns.still ⟨still.fresh, still.waiting, still.routed⟩
    have ok : (s.nextCall, .ok (merged [] s.fallback)) ∈ endings es₁ :=
      ended ▸ List.mem_cons_self
    have ok := List.mem_append_left (endings es₂) (List.mem_append_left (endings []) ok)
    refine ⟨.published ok, rests, ?_, fun _ => ⟨_, ok⟩⟩
    rw [same, show s.backends = [] from none]
    rfl
  | opened _ _ _ _ some =>
    rw [endRouted_of_waiting (by simp [opened_eq, still.routed])] at turns ⊢
    rw [opened_eq] at turns
    obtain ⟨rests, same⟩ := turns.still ⟨still.fresh, still.waiting, still.routed⟩
    refine ⟨?_, rests, same, fun none => absurd none some⟩
    rw [endings_fanOutEffects, endings_nil, List.nil_append, List.nil_append]
    rcases turns.of_alone rfl still.waiting with
      ⟨a, ours, after, silent⟩ | ⟨e, after, error⟩ | ⟨v, ok⟩
    · rw [after, silent]
      exact .running ours
    · rw [after, error]
      exact .failed ⟨_, _, by rw [← free]⟩ rfl
    · exact .published ok

end CallSide

end Switchboard.Mux
