import Switchboard.Proofs.Mux.Endings

namespace Switchboard.Mux

theorem Phase.isInitialized_eq_false {phase : Phase} :
    phase.isInitialized = false ↔ phase = .uninitialized := by
  cases phase <;> simp [Phase.isInitialized]

theorem Phase.clash {phase : Phase} (uninitialized : phase = .uninitialized)
    (initialized : phase.isInitialized = true) {P : Prop} : P := by
  rw [uninitialized] at initialized
  cases initialized

namespace CallSide

variable {s : CallSide}

theorem takeTurns_held {a : Attempt} (held : s.attempt = some a) (empty : s.waiting = [])
    (line : List (Nat × Json)) : takeTurns line s = ({ s with waiting := line }, []) := by
  cases line with
  | nil => rw [takeTurns, ← empty]
  | cons w rest =>
    obtain ⟨call, params⟩ := w
    rw [takeTurns, held]
    rfl

theorem takeTurns_initialized (free : s.attempt = none) (initialized : s.phase.isInitialized = true)
    (line : List (Nat × Json)) :
    takeTurns line s = (s, line.map fun w => .ended w.1 (.error invokedTwice)) := by
  induction line with
  | nil => rfl
  | cons w rest ih =>
    obtain ⟨call, params⟩ := w
    rw [takeTurns, free]
    simp only [Option.isSome_none, Bool.false_eq_true, if_false, initialized, if_true, ih]
    rfl

def opened (s : CallSide) (call : Nat) (params : Json) : CallSide :=
  { (s.openAttempt call params).1 with attempt := some (s.begun call params) }

theorem opened_eq (s : CallSide) (call : Nat) (params : Json) :
    s.opened call params =
      { s with
        backends := s.backends.map fun b => (b.request call handshakeMethod params).1
        attempt := some (s.begun call params) } := by
  rw [opened, openAttempt_eq]

theorem takeTurns_open (channels : ∀ b ∈ s.backends, b.IsChannel) (some : s.backends ≠ [])
    (allOpen : ∀ b ∈ s.backends, b.accepts = true) (free : s.attempt = none)
    (uninitialized : s.phase = .uninitialized) (empty : s.waiting = []) (call : Nat)
    (params : Json) (rest : List (Nat × Json)) :
    takeTurns ((call, params) :: rest) s =
      ({ s.opened call params with waiting := rest }, fanOutEffects s.backends params) := by
  obtain ⟨none, -, stage⟩ := begun_stage_of_open channels allOpen call params
  rw [if_neg some] at stage
  have went : (s.openAttempt call params).1.advance (s.begun call params) =
      (s.opened call params, []) := by
    rw [advance, stage]
    simp only [opened, Prod.mk.injEq, and_true, CallSide.mk.injEq, Option.some.injEq, true_and]
    rw [← none]
  have held : (s.opened call params).attempt = Option.some (s.begun call params) := rfl
  have still : (s.opened call params).waiting = [] := by rw [opened_eq]; exact empty
  rw [takeTurns, free]
  simp only [Option.isSome_none, Bool.false_eq_true, if_false, uninitialized, Phase.isInitialized]
  rw [openAttempt_eq] at went ⊢
  simp only [went, takeTurns_held held still, List.append_nil]

theorem closedError_request (b : Backend) (call : Nat) (method : String) (params : Json) :
    (b.request call method params).1.closedError = b.closedError := by
  rw [Backend.closedError, Backend.closedError, Backend.name_request]

theorem takeTurns_cons_closed (channels : ∀ b ∈ s.backends, b.IsChannel)
    (closed : ∃ b ∈ s.backends, b.accepts = false) (free : s.attempt = none)
    (uninitialized : s.phase = .uninitialized) (call : Nat) (params : Json)
    (rest : List (Nat × Json)) :
    ∃ failure b, b ∈ s.backends ∧ b.accepts = false ∧
      endings failure = [(call, .error b.closedError)] ∧
      takeTurns ((call, params) :: rest) s =
        ((takeTurns rest (s.openAttempt call params).1).1,
          fanOutEffects s.backends params ++ failure ++
            (takeTurns rest (s.openAttempt call params).1).2) := by
  obtain ⟨i, b, here, shut, stage⟩ := begun_stage_of_closed channels closed call params
  have same : { (s.openAttempt call params).1 with attempt := none } =
      (s.openAttempt call params).1 := by
    rw [openAttempt_eq]
    simp only [free]
  refine ⟨(s.openAttempt call params).1.failAttempt (s.begun call params) i (.error b.closedError),
    b, List.mem_of_getElem? here, shut, by rw [endings_failAttempt]; rfl, ?_⟩
  rw [takeTurns, free]
  simp only [Option.isSome_none, Bool.false_eq_true, if_false, uninitialized, Phase.isInitialized]
  rw [show (s.openAttempt call params).2.1 = s.begun call params from rfl, advance, stage]
  dsimp only
  rw [same, openAttempt_effects]

/-- The backends after the handshake requests for these calls, in their order. -/
def requestAll (line : List (Nat × Json)) (bs : List Backend) : List Backend :=
  line.foldl (fun bs w => bs.map fun b => (b.request w.1 handshakeMethod w.2).1) bs

theorem takeTurns_closed (channels : ∀ b ∈ s.backends, b.IsChannel)
    (closed : ∃ b ∈ s.backends, b.accepts = false) (free : s.attempt = none)
    (uninitialized : s.phase = .uninitialized) (line : List (Nat × Json)) :
    ∃ bs, (takeTurns line s).1 = { s with backends := bs } ∧
      SentTo (line.map Prod.fst) s.backends bs ∧
      (∀ {call method params}, Queued bs call method params →
        Queued s.backends call method params ∨ method = handshakeMethod ∧ (call, params) ∈ line) ∧
      (∀ w ∈ line, fanOutEffects s.backends w.2 <:+: (takeTurns line s).2) ∧
      (endings (takeTurns line s).2).map Prod.fst = line.map Prod.fst ∧
      (∀ e ∈ endings (takeTurns line s).2,
        ∃ b ∈ s.backends, b.accepts = false ∧ e.2 = .error b.closedError) ∧
      bs = requestAll line s.backends := by
  induction line generalizing s with
  | nil => exact ⟨s.backends, rfl, .nothing channels, .inl, nofun, rfl, by simp [takeTurns], rfl⟩
  | cons w rest ih =>
    obtain ⟨call, params⟩ := w
    -- the first in line sends its requests and fails, which leaves the closed channel to the next
    obtain ⟨failure, first, member, shut, failed, turn⟩ :=
      takeTurns_cons_closed channels closed free uninitialized call params rest
    have backends : (s.openAttempt call params).1.backends =
        s.backends.map fun b => (b.request call handshakeMethod params).1 := by
      rw [openAttempt_eq]
    have sent : SentTo [call] s.backends (s.openAttempt call params).1.backends :=
      backends ▸ SentTo.request channels call handshakeMethod params
    obtain ⟨bs, after, more, queues, starts, calls, errors, requested⟩ :=
      ih (s := (s.openAttempt call params).1) sent.channels
      (by
        rw [backends]
        obtain ⟨b, member, shut⟩ := closed
        exact ⟨_, List.mem_map_of_mem member, by rwa [(channels b member).accepts_request]⟩)
      (by rw [openAttempt_eq]; exact free)
      (by rw [openAttempt_eq]; exact uninitialized)
    rw [turn]
    refine ⟨bs, ?_, sent.trans more, fun queued => ?_, ?_, ?_, ?_, ?_⟩
    · dsimp only
      rw [after, openAttempt_eq]
    · rcases queues queued with earlier | ⟨same, waits⟩
      · rw [backends] at earlier
        rcases Queued.of_request channels earlier with old | ⟨rfl, rfl, rfl⟩
        · exact .inl old
        · exact .inr ⟨rfl, List.mem_cons_self⟩
      · exact .inr ⟨same, List.mem_cons_of_mem _ waits⟩
    · intro w member
      rcases List.mem_cons.mp member with rfl | member
      · exact ⟨[], _, by rw [List.nil_append, ← List.append_assoc]⟩
      · have later := starts w member
        rw [backends, fanOutEffects_request channels] at later
        exact later.trans (List.suffix_append ..).isInfix
    · simp [failed, calls]
    · intro e ended
      simp only [endings_append, endings_fanOutEffects, List.nil_append, failed, List.mem_append,
        List.mem_singleton] at ended
      rcases ended with rfl | ended
      · exact ⟨first, member, shut, rfl⟩
      · obtain ⟨b', member', shut, error⟩ := errors e ended
        rw [backends] at member'
        obtain ⟨b, member, rfl⟩ := List.mem_map.mp member'
        rw [closedError_request] at error
        rw [(channels b member).accepts_request] at shut
        exact ⟨b, member, shut, error⟩
    · rw [requested, backends]
      rfl

/-- Nobody holds the turn, or a handshake that failed gives it up. -/
def Frees (s : CallSide) (freed : List (Nat × Outcome)) : Prop :=
  s.attempt = none ∧ freed = [] ∨
    ∃ a i reply, s.attempt = some a ∧ a.stage = .failed i reply ∧
      freed = [(a.call, .error (s.errorOf i reply))]

/-- What becomes of the handshake calls when they run. -/
inductive HandshakesRun (s : CallSide) : CallSide → List Effect → Prop
  | idle (free : s.attempt = none) (empty : s.waiting = []) : HandshakesRun s s []
  | pending {a : Attempt} {results : List (Option Json)} (held : s.attempt = some a)
      (stage : a.stage = .pending results) :
      HandshakesRun s { s with attempt := some { a with finished := [], results } } []
  | published {a : Attempt} {results : List (Option Json)} {es : List Effect}
      (held : s.attempt = some a) (stage : a.stage = .complete results)
      (unsent : ∀ e ∈ es, e.isSent = false)
      (ended : endings es =
        (a.call, .ok (merged (agentsOf s.backends results) s.fallback)) ::
          (s.watchers.map (fun w => (w, .ok .null)) ++
            s.waiting.map fun w => (w.1, .error invokedTwice))) :
      HandshakesRun s
        { s with
          phase := .initialized (agentsOf s.backends results)
          attempt := none
          waiting := []
          watchers := [] } es
  | passed {freed : List (Nat × Outcome)} {call : Nat} {params : Json}
      {rest : List (Nat × Json)} {es : List Effect} (free : s.Frees freed)
      (next : s.waiting = (call, params) :: rest)
      (allOpen : ∀ b ∈ s.backends, b.accepts = true)
      (starts : fanOutEffects s.backends params <:+: es) (ended : endings es = freed) :
      HandshakesRun s { s.opened call params with waiting := rest } es
  | drained {freed failed : List (Nat × Outcome)} {bs : List Backend} {es : List Effect}
      (free : s.Frees freed) (busy : s.attempt ≠ none ∨ s.waiting ≠ [])
      (kept : s.waiting = [] → bs = s.backends)
      (sent : SentTo (s.waiting.map Prod.fst) s.backends bs)
      (queues : ∀ {call method params}, Queued bs call method params →
        Queued s.backends call method params ∨
          method = handshakeMethod ∧ (call, params) ∈ s.waiting)
      (starts : ∀ w ∈ s.waiting, fanOutEffects s.backends w.2 <:+: es)
      (ended : endings es = freed ++ failed)
      (calls : failed.map Prod.fst = s.waiting.map Prod.fst)
      (errors : ∀ e ∈ failed, ∃ b ∈ s.backends, b.accepts = false ∧ e.2 = .error b.closedError)
      (requested : bs = requestAll s.waiting s.backends) :
      HandshakesRun s { s with backends := bs, attempt := none, waiting := [] } es

theorem takeTurns_run (channels : ∀ b ∈ s.backends, b.IsChannel) {freed : List (Nat × Outcome)}
    (free : s.Frees freed) (busy : s.attempt ≠ none ∨ s.waiting ≠ [])
    (uninitialized : s.phase = .uninitialized)
    (occupied : s.waiting ≠ [] → s.backends ≠ []) {went : List Effect}
    (ended : endings went = freed) :
    s.HandshakesRun (takeTurns s.waiting { s with attempt := none, waiting := [] }).1
      (went ++ (takeTurns s.waiting { s with attempt := none, waiting := [] }).2) := by
  cases line : s.waiting with
  | nil =>
    have none : endings (went ++ []) = freed ++ [] := by
      rw [List.append_nil, List.append_nil, ended]
    exact .drained free busy (fun _ => rfl) (line ▸ .nothing channels) .inl
      (by rw [line]; nofun) none (by rw [line]; rfl) nofun (by rw [line]; rfl)
  | cons w rest =>
    obtain ⟨call, params⟩ := w
    let t : CallSide := { s with attempt := none, waiting := [] }
    by_cases allOpen : ∀ b ∈ s.backends, b.accepts = true
    · have turn := takeTurns_open (s := t) channels (occupied (by simp [line])) allOpen rfl
        uninitialized rfl call params rest
      rw [turn]
      have same : ({ t.opened call params with waiting := rest } : CallSide) =
          { s.opened call params with waiting := rest } := by
        rw [opened_eq, opened_eq]
        rfl
      dsimp only
      rw [same]
      exact .passed free line allOpen (List.suffix_append ..).isInfix (by simp [ended])
    · have closed : ∃ b ∈ s.backends, b.accepts = false := by
        simpa only [not_forall, Bool.not_eq_true, exists_prop] using allOpen
      obtain ⟨bs, after, sent, queues, starts, calls, errors, requested⟩ :=
        takeTurns_closed (s := t) channels closed rfl uninitialized ((call, params) :: rest)
      rw [after]
      exact .drained free busy (fun none => by rw [line] at none; cases none) (line ▸ sent)
        (line ▸ queues)
        (fun w member => (starts w (line ▸ member)).trans (List.suffix_append ..).isInfix)
        (by rw [endings_append, ended]) (by rw [line]; exact calls) errors
        (by rw [line]; exact requested)

theorem handshakes_run (channels : ∀ b ∈ s.backends, b.IsChannel)
    (uninitialized : s.attempt ≠ none ∨ s.waiting ≠ [] → s.phase = .uninitialized)
    (occupied : s.waiting ≠ [] → s.backends ≠ []) :
    s.HandshakesRun s.handshakes.1 s.handshakes.2 := by
  unfold handshakes
  cases held : s.attempt with
  | none =>
    by_cases empty : s.waiting = []
    · have same : ({ s with waiting := [] } : CallSide) = s := by rw [← empty]
      simp only [empty, takeTurns, List.append_nil, same]
      exact .idle held empty
    · have same : ({ s with attempt := none, waiting := [] } : CallSide) =
          { s with waiting := [] } := by rw [← held]
      have run := takeTurns_run channels (.inl ⟨held, rfl⟩) (.inr empty)
        (uninitialized (.inr empty)) occupied endings_nil
      rw [same] at run
      exact run
  | some a =>
    have phase := uninitialized (.inl (by simp [held]))
    cases stage : a.stage with
    | pending results =>
      have turns := takeTurns_held
        (s := { s with attempt := some { a with finished := [], results }, waiting := [] })
        rfl rfl s.waiting
      simp only [advance, stage, turns, List.append_nil]
      exact .pending held stage
    | complete results =>
      let t : CallSide := { s with attempt := none }
      have turns := takeTurns_initialized
        (s := { (t.publish a.call results).1 with waiting := [] }) rfl rfl s.waiting
      simp only [advance, stage]
      rw [show (t.publish a.call results).1.waiting = s.waiting from rfl, turns]
      refine .published held stage (fun e member => ?_) (by simp)
      rcases List.mem_append.mp member with member | member
      · exact unsent_publish _ _ e member
      · obtain ⟨w, -, rfl⟩ := List.mem_map.mp member
        rfl
    | failed i reply =>
      simp only [advance, stage]
      exact takeTurns_run channels (.inr ⟨a, i, reply, held, stage, rfl⟩)
        (.inl (by simp [held])) phase occupied (endings_failAttempt ..)

end CallSide

end Switchboard.Mux
