import Switchboard.Proofs.Mux.Turns

namespace Switchboard.Mux

namespace CallSide

/-- What starting a call does, by what is asked for and by the phase that it finds. -/
inductive Started (s : CallSide) (call : Nat) : Ask → CallSide → List Effect → Prop
  | watches (uninitialized : s.phase = .uninitialized) :
      Started s call .awaitHandshake { s with watchers := s.watchers ++ [call] } []
  | watched (initialized : s.phase.isInitialized = true) :
      Started s call .awaitHandshake s [.ended call (.ok .null)]
  | dropped {method : String} {params : Json} (uninitialized : s.phase = .uninitialized) :
      Started s call (.notify method params) s
        [.logged (.notificationDropped method), .ended call (.ok .null)]
  | broadcast {method : String} {params : Json} {bs : List Backend} {outcome : Outcome}
      {es : List Effect} (initialized : s.phase.isInitialized = true)
      (sent : SentTo [] s.backends bs) (silent : endings es = [])
      (queues : ∀ {call method params}, Queued bs call method params →
        Queued s.backends call method params)
      (taken : outcome = .ok .null ∧
          CallSide.broadcast method params 0 s.backends = (bs, some (.ok .null), es) ∨
        ∃ b ∈ s.backends, b.accepts = false ∧ outcome = .error b.closedError ∧
          CallSide.broadcast method params 0 s.backends = (bs, some (.error b.closedError), es)) :
      Started s call (.notify method params) { s with backends := bs } (es ++ [.ended call outcome])
  | early {method : String} {params : Json} (uninitialized : s.phase = .uninitialized)
      (other : isHandshake method = false) :
      Started s call (.request method params) s
        [.ended call (.error (.notInitialized "server not initialized"))]
  | queued {method : String} {params : Json} (uninitialized : s.phase = .uninitialized)
      (handshake : isHandshake method = true) (busy : s.attempt ≠ none ∨ s.waiting ≠ []) :
      Started s call (.request method params) { s with waiting := s.waiting ++ [(call, params)] } []
  | opened {method : String} {params : Json} (uninitialized : s.phase = .uninitialized)
      (handshake : isHandshake method = true) (free : s.attempt = none) (empty : s.waiting = [])
      (some : s.backends ≠ []) :
      Started s call (.request method params) (s.opened call params)
        (fanOutEffects s.backends params)
  | alone {method : String} {params : Json} {es : List Effect}
      (uninitialized : s.phase = .uninitialized) (handshake : isHandshake method = true)
      (free : s.attempt = none) (empty : s.waiting = []) (none : s.backends = [])
      (unsent : ∀ e ∈ es, e.isSent = false)
      (ended : endings es =
        (call, .ok (merged [] s.fallback)) :: s.watchers.map fun w => (w, .ok .null)) :
      Started s call (.request method params)
        { s with phase := .initialized [], watchers := [] } es
  | twice {method : String} {params : Json} (initialized : s.phase.isInitialized = true)
      (handshake : isHandshake method = true) :
      Started s call (.request method params) s [.ended call (.error invokedTwice)]
  | unrouted {method : String} {params : Json} (initialized : s.phase.isInitialized = true)
      (other : isHandshake method = false) (none : s.backends = []) :
      Started s call (.request method params) s
        [.ended call (.error (.internalError "no backends to route requests to"))]
  | routed {method : String} {params : Json} {b : Backend} {rest : List Backend}
      (initialized : s.phase.isInitialized = true) (other : isHandshake method = false)
      (some : s.backends = b :: rest) :
      Started s call (.request method params)
        { s with
          backends := (b.request call method params).1 :: rest
          routed := s.routed ++ [⟨call, method, (b.request call method params).2⟩] }
        [.sent 0 b.name true method params b.accepts]

variable {s : CallSide}

theorem startHandshake_started (channels : ∀ b ∈ s.backends, b.IsChannel)
    (uninitialized : s.phase = .uninitialized) {method : String}
    (handshake : isHandshake method = true) (call : Nat) (params : Json) :
    s.Started call (.request method params) (s.startHandshake call params).1
      (s.startHandshake call params).2 := by
  unfold startHandshake
  split
  · rename_i busy
    refine .queued uninitialized handshake ?_
    rcases Bool.or_eq_true_iff.mp busy with held | waits
    · exact .inl fun none => by simp [none] at held
    · exact .inr fun none => by simp [none] at waits
  · rename_i busy
    rw [Bool.or_eq_true, not_or] at busy
    have free : s.attempt = none := by simpa using busy.1
    have empty : s.waiting = [] := by simpa using busy.2
    have here : (s.openAttempt call params).1.backends.isEmpty = s.backends.isEmpty := by
      rw [openAttempt_eq]
      simp
    dsimp only
    rw [here]
    split
    · rename_i none
      have bare : s.backends = [] := List.isEmpty_iff.mp none
      have stage := (begun_stage_of_open channels (by simp [bare]) call params).2.2
      rw [if_pos bare] at stage
      have same : ({ (s.openAttempt call params).1 with attempt := .none } : CallSide) = s := by
        rw [openAttempt_eq, bare, List.map_nil, ← free, ← bare]
      have agents : agentsOf s.backends [] = [] := by rw [bare]; rfl
      have after : (s.publish call []).1 =
          { s with phase := .initialized [], watchers := [] } := by rw [publish, agents]
      rw [show (s.openAttempt call params).2.1 = s.begun call params from rfl, advance, stage]
      dsimp only
      rw [begun_call, same, after]
      refine .alone uninitialized handshake free empty bare (fun e member => ?_) ?_
      · rcases List.mem_append.mp member with member | member
        · rw [openAttempt_eq, bare] at member
          rw [List.mem_singleton.mp member]
          rfl
        · exact unsent_publish _ _ e member
      · rw [endings_append, openAttempt_effects, endings_fanOutEffects, endings_publish, agents]
        rfl
    · rename_i some
      rw [openAttempt_effects]
      exact .opened uninitialized handshake free empty fun none => some (by rw [none]; rfl)

theorem start_started (channels : ∀ b ∈ s.backends, b.IsChannel) (call : Nat) (ask : Ask) :
    s.Started call ask (s.start (call, ask)).1 (s.start (call, ask)).2 := by
  cases ask with
  | awaitHandshake =>
    rw [start]
    split
    · rename_i initialized
      exact .watched initialized
    · rename_i uninitialized
      exact .watches (Phase.isInitialized_eq_false.mp (Bool.eq_false_iff.mpr uninitialized))
  | notify method params =>
    rw [start]
    split
    · rename_i phase
      exact .dropped phase
    · rename_i agents phase
      have initialized : s.phase.isInitialized = true := by rw [phase]; rfl
      have spec := broadcast_spec method params 0 channels
      rcases result : CallSide.broadcast method params 0 s.backends with ⟨bs, reply, es⟩
      have silent := endings_broadcast method params 0 s.backends
      have queues {c : Nat} {m : String} {p : Json} :
          Queued (CallSide.broadcast method params 0 s.backends).1 c m p →
            Queued s.backends c m p := Queued.of_broadcast channels
      rw [result] at spec silent queues
      obtain ⟨sent, reply, rfl, rfl | ⟨b, member, closed, rfl⟩⟩ := spec
      · exact .broadcast initialized sent silent queues (.inl ⟨rfl, result⟩)
      · exact .broadcast initialized sent silent queues (.inr ⟨b, member, closed, rfl, result⟩)
  | request method params =>
    rw [start]
    split
    · rename_i phase
      cases handshake : isHandshake method with
      | true => exact startHandshake_started channels phase handshake call params
      | false => exact .early phase handshake
    · rename_i agents phase
      have initialized : s.phase.isInitialized = true := by rw [phase]; rfl
      cases handshake : isHandshake method with
      | true => exact .twice initialized handshake
      | false =>
        simp only [Bool.false_eq_true, if_false]
        split
        · rename_i none
          exact .unrouted initialized handshake none
        · rename_i b rest some
          exact .routed initialized handshake some

theorem Started.route {call : Nat} {method : String} {params : Json} {s' : CallSide}
    {es : List Effect} (started : s.Started call (.request method params) s' es)
    (initialized : s.phase.isInitialized = true) (other : isHandshake method = false) :
    (s.backends = [] ∧ s' = s ∧
      es = [.ended call (.error (.internalError "no backends to route requests to"))]) ∨
    ∃ b rest, s.backends = b :: rest ∧
      s' = { s with
        backends := (b.request call method params).1 :: rest
        routed := s.routed ++ [⟨call, method, (b.request call method params).2⟩] } ∧
      es = [.sent 0 b.name true method params b.accepts] := by
  cases started with
  | early uninitialized => exact Phase.clash uninitialized initialized
  | queued uninitialized => exact Phase.clash uninitialized initialized
  | opened uninitialized => exact Phase.clash uninitialized initialized
  | alone uninitialized => exact Phase.clash uninitialized initialized
  | twice _ handshake =>
    rw [other] at handshake
    cases handshake
  | unrouted _ _ none => exact .inl ⟨none, rfl, rfl⟩
  | @routed _ _ b rest _ _ some => exact .inr ⟨b, rest, some, rfl, rfl⟩

end CallSide

end Switchboard.Mux
