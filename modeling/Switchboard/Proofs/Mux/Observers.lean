import Switchboard.Proofs.Mux.Observed

namespace Switchboard.Mux

/-- What the record of a run tells of its state, whatever the backends are. -/
structure Observed (l : Ledger) (s : CallSide) : Prop where
  booked : Booked l.issued l.ended s
  staged : Staged s
  told : Told l.issued l.ended s

namespace Observed

variable {l : Ledger} {s s' : CallSide}

theorem moved (observed : Observed l s) {d : Ledger} (moved : s.Moved s' d) :
    Observed (l ++ d) s' where
  booked := observed.booked.moved moved
  staged := observed.staged.moved moved
  told := observed.told.moved observed.booked moved

theorem runs (observed : Observed l s) {es : List Effect} (runs : s.Runs s' es) :
    Observed (l ++ { ended := endings es }) s' := by
  induction runs with
  | rest =>
    rw [endings_nil, Ledger.append_empty]
    exact observed
  | more _ next ih =>
    have issued {ended : List (Nat × Outcome)} : (l ++ { ended } : Ledger).issued = l.issued :=
      List.append_nil _
    obtain ⟨booked, staged, told⟩ := ih
    rw [issued, Ledger.ended_append] at booked told
    refine ⟨?_, staged.happens next, ?_⟩
    · rw [issued, Ledger.ended_append, endings_append, ← List.append_assoc]
      exact booked.happens next
    · rw [issued, Ledger.ended_append, endings_append, ← List.append_assoc]
      exact told.happens booked next

theorem waits_iff (observed : Observed l s) (quiet : s.Quiet) {call : Nat}
    (waits : (call, .awaitHandshake) ∈ l.issued) (kept : (call, .cancelled) ∉ l.ended) :
    (call ∈ s.unfinished ↔ s.phase = .uninitialized) ∧
      ∀ outcome, (call, outcome) ∈ l.ended ↔
        s.phase.isInitialized = true ∧ outcome = .ok .null := by
  obtain ⟨booked, staged, told⟩ := observed
  have told' {outcome : Outcome} (ended : (call, outcome) ∈ l.ended) :
      s.phase.isInitialized = true ∧ outcome = .ok .null := by
    obtain ⟨before, after, split⟩ := List.append_of_mem ended
    rcases told.heralded before after call outcome split waits with
      rfl | ⟨ok, c, v, params, success, handshake⟩
    · exact absurd ended kept
    · exact ⟨told.published.mpr ⟨c, v, params, split ▸ List.mem_append_left _ success, handshake⟩,
        ok⟩
  have still : call ∈ s.watchers ∨ ∃ outcome, (call, outcome) ∈ l.ended := by
    refine (told.waits waits).resolve_left fun fresh => ?_
    rw [quiet.fresh] at fresh
    cases fresh
  refine ⟨⟨fun live => ?_, fun uninitialized => ?_⟩, fun outcome => ⟨told', ?_⟩⟩
  · refine Phase.isInitialized_eq_false.mp (Bool.eq_false_iff.mpr fun initialized => ?_)
    have free : s.attempt = none := by
      by_contra held
      exact Phase.clash (staged.unpublished held) initialized
    rw [CallSide.unfinished, quiet.fresh, free, quiet.waiting free,
      staged.watchers initialized] at live
    simp only [List.map_nil, Option.map_none, Option.toList_none, List.nil_append, List.append_nil,
      List.mem_append, List.mem_map] at live
    rcases live with ⟨r, member, rfl⟩ | stalls
    · obtain ⟨-, _, asked⟩ := booked.asked.routed r member
      cases booked.numbered.unique asked waits
    · obtain ⟨_, _, asked⟩ := booked.stalled call stalls
      cases booked.numbered.unique asked waits
  · rcases still with watches | ⟨outcome, ended⟩
    · exact CallSide.mem_unfinished_of_watcher watches
    · exact Phase.clash uninitialized (told' ended).1
  · rintro ⟨initialized, rfl⟩
    rcases still with watches | ⟨outcome, ended⟩
    · rw [staged.watchers initialized] at watches
      cases watches
    · rw [← (told' ended).2]
      exact ended

end Observed

namespace CallSide

def noticeEffects (method : String) (params : Json) (index : Nat) (bs : List Backend) :
    List Effect :=
  (bs.zipIdx index).map fun b => .sent b.2 b.1.name false method params b.1.accepts

/-- A notification goes to the backends in order, up to the first that does not take it. -/
structure Notifies (method : String) (params : Json) (bs taken : List Backend)
    (refusing : Option Backend) : Prop where
  inOrder : ∃ rest, bs = taken ++ (refusing.toList ++ rest) ∧ (refusing = none → rest = [])
  taken : ∀ b ∈ taken, ∃ v, (b.notify method params).2 = some (.ok v)
  refused : ∀ b, refusing = some b → ∀ v, (b.notify method params).2 ≠ some (.ok v)

/-- How a new call is served once the handshake is over. -/
def Serves (s : CallSide) (call : Nat) : Ask → List Effect → Prop
  | .awaitHandshake, es => es = [.ended call (.ok .null)]
  | .notify method params, es => ∃ taken refusing,
    Notifies method params s.backends taken refusing ∧
    es = noticeEffects method params 0 (taken ++ refusing.toList) ++
      match refusing with
      | none => [.ended call (.ok .null)]
      | some b => match (b.notify method params).2 with
        | some (.error e) =>
          [.logged (.broadcastFailed method b.name e), .ended call (.error e)]
        | some _ => [.ended call .panicked]
        | none => []
  | .request method params, es =>
    if isHandshake method then es = [.ended call (.error invokedTwice)]
    else match s.backends with
      | [] => es = [.ended call (.error (.internalError "no backends to route requests to"))]
      | b :: _ => [.sent 0 b.name true method params b.accepts] <+: es

theorem Notifies.cons {method : String} {params : Json} {bs taken : List Backend}
    {refusing : Option Backend} (notifies : Notifies method params bs taken refusing) {b : Backend}
    {v : Json} (took : (b.notify method params).2 = some (.ok v)) :
    Notifies method params (b :: bs) (b :: taken) refusing := by
  obtain ⟨⟨rest, split, last⟩, takes, refused⟩ := notifies
  exact ⟨⟨rest, congrArg (b :: ·) split, last⟩, List.forall_mem_cons.mpr ⟨⟨v, took⟩, takes⟩,
    refused⟩

theorem broadcast_notifies (method : String) (params : Json) (bs : List Backend) (index : Nat) :
    ∃ taken refusing, Notifies method params bs taken refusing ∧
      (broadcast method params index bs).2 = match refusing with
        | none => (some (.ok .null), noticeEffects method params index taken)
        | some b => ((b.notify method params).2, noticeEffects method params index (taken ++ [b]) ++
          match (b.notify method params).2 with
          | some (.error e) => [.logged (.broadcastFailed method b.name e)]
          | _ => []) := by
  induction bs generalizing index with
  | nil => exact ⟨[], none, ⟨⟨[], rfl, fun _ => rfl⟩, nofun, nofun⟩, rfl⟩
  | cons b rest ih =>
    have refusal (bad : ∀ v, (b.notify method params).2 ≠ some (.ok v)) :
        Notifies method params (b :: rest) [] (some b) :=
      ⟨⟨rest, rfl, nofun⟩, nofun, fun b' same => Option.some.inj same ▸ bad⟩
    cases reply : (b.notify method params).2 with
    | none =>
      exact ⟨[], some b, refusal (by simp [reply]), by simp [broadcast, reply, noticeEffects]⟩
    | some r =>
      cases r with
      | ok v =>
        obtain ⟨taken, refusing, notifies, result⟩ := ih (index + 1)
        refine ⟨b :: taken, refusing, notifies.cons reply, ?_⟩
        simp only [broadcast, reply, result]
        cases refusing <;> simp [noticeEffects]
      | _ =>
        exact ⟨[], some b, refusal (by simp [reply]), by simp [broadcast, reply, noticeEffects]⟩

variable {s : CallSide}

theorem start_serves (initialized : s.phase.isInitialized = true) (call : Nat) (ask : Ask)
    (waits : ∀ r ∈ s.routed, r.reply = none) :
    (s.start (call, ask)).1.attempt = s.attempt ∧ (s.start (call, ask)).1.waiting = s.waiting ∧
      s.Serves call ask ((s.start (call, ask)).2 ++ (s.start (call, ask)).1.endRouted.2) := by
  have silent {es : List Effect} {t : CallSide} (same : t.routed = s.routed) :
      es ++ t.endRouted.2 = es := by
    rw [endRouted_of_waiting (same ▸ waits), List.append_nil]
  obtain ⟨agents, phase⟩ : ∃ agents, s.phase = .initialized agents := by
    cases phase : s.phase with
    | uninitialized => exact Phase.clash phase initialized
    | initialized agents => exact ⟨agents, rfl⟩
  cases ask with
  | awaitHandshake =>
    rw [start, if_pos initialized]
    exact ⟨rfl, rfl, silent rfl⟩
  | notify method params =>
    -- what the broadcast sends and what its caller gets come from the first backend that refuses
    obtain ⟨taken, refusing, notifies, result⟩ := broadcast_notifies method params s.backends 0
    rcases went : broadcast method params 0 s.backends with ⟨bs, reply, es⟩
    rw [went] at result
    rw [start, phase]
    simp only [went]
    cases refusing with
    | none =>
      cases result
      dsimp only
      refine ⟨rfl, rfl, taken, none, notifies, Eq.trans (silent rfl) ?_⟩
      simp
    | some b =>
      obtain ⟨rfl, rfl⟩ := Prod.mk.inj result
      have refused := notifies.refused b rfl
      cases told : (b.notify method params).2 with
      | none =>
        dsimp only
        refine ⟨rfl, rfl, taken, some b, notifies, Eq.trans (silent rfl) ?_⟩
        simp [told]
      | some reply =>
        cases reply with
        | ok v => exact absurd told (refused v)
        | _ =>
          dsimp only
          refine ⟨rfl, rfl, taken, some b, notifies, Eq.trans (silent rfl) ?_⟩
          simp [told]
  | request method params =>
    rw [start, phase, Serves]
    cases isHandshake method with
    | true => exact ⟨rfl, rfl, silent rfl⟩
    | false =>
      simp only [Bool.false_eq_true, if_false]
      cases s.backends with
      | nil => exact ⟨rfl, rfl, silent rfl⟩
      | cons b rest => exact ⟨rfl, rfl, List.prefix_append ..⟩

theorem settle_issue_serves (quiet : s.Quiet) (unpublished : s.Unpublished)
    (initialized : s.phase.isInitialized = true) (ask : Ask) :
    s.Serves s.nextCall ask (s.issue ask).1.settle.2 := by
  have free : s.attempt = none := by
    by_contra held
    exact Phase.clash (unpublished held) initialized
  obtain ⟨attempt, waiting, serves⟩ := start_serves (s := { s with nextCall := s.nextCall + 1 })
    initialized s.nextCall ask quiet.routed
  rw [settle_issue_eq quiet.fresh]
  rcases result : start { s with nextCall := s.nextCall + 1 } (s.nextCall, ask) with ⟨t, es⟩
  rw [result] at attempt waiting serves
  have idle := handshakes_of_idle (s := t.endRouted.1) (attempt.trans free)
    (waiting.trans (quiet.waiting free))
  simp only [idle, List.append_nil]
  exact serves

end CallSide

namespace Session

/-- What commands leave on record when they have acted and nothing has proceeded. -/
def notedBy : Session → List Command → Ledger
  | _, [] => {}
  | s, c :: rest => s.notedAtOnce c ++ (s.act c).1.notedBy rest

def chronicle : Session → List (List Command) → Ledger
  | _, [] => {}
  | s, commands :: rest =>
    s.notedBy commands ++ { ended := endings (s.acts commands).settle.2 } ++
      (s.round commands).chronicle rest

variable {s : Session} {l : Ledger}

theorem observed_acts (observed : Observed l s.calls) (commands : List Command) :
    Observed (l ++ s.notedBy commands) (s.acts commands).calls := by
  induction commands generalizing s l with
  | nil =>
    rw [notedBy, Ledger.append_empty]
    exact observed
  | cons c rest ih =>
    rw [notedBy, ← Ledger.append_assoc]
    exact ih (observed.moved (act_moved s c))

theorem observed_rounds (observed : Observed l s.calls) (rounds : List (List Command)) :
    Observed (l ++ s.chronicle rounds) (s.rounds rounds).calls := by
  induction rounds generalizing s l with
  | nil =>
    rw [chronicle, Ledger.append_empty]
    exact observed
  | cons commands rest ih =>
    have settled := (observed_acts observed commands).runs (s.acts commands).calls.settle_runs
    have ended : endings (s.acts commands).settle.2 =
        endings (s.acts commands).calls.settle.2 := by
      simp only [settle, endings_append, endings_map_logged, List.append_nil]
    rw [chronicle, ← Ledger.append_assoc, ← Ledger.append_assoc, ended]
    exact ih (s := s.round commands) settled

theorem observed_ofBackends (backends : List Backend) (settings : Settings) :
    Observed {} (ofBackends backends settings).calls where
  booked := ⟨rfl, ⟨nofun, nofun, nofun, nofun, nofun⟩, nofun, nofun⟩
  staged := ⟨fun held => absurd rfl held, nofun, nofun, fun _ => rfl⟩
  told := by
    refine ⟨nofun, fun before after call outcome split => ?_, ?_⟩
    · cases before <;> cases split
    · simp [ofBackends, Phase.isInitialized]

theorem settled_rounds (settled : s.Settled) (rounds : List (List Command)) :
    (s.rounds rounds).Settled := by
  induction rounds generalizing s with
  | nil => exact settled
  | cons commands rest ih => exact ih (s := s.round commands) (settled_settle _)

theorem step_call_serves (settled : s.Settled) (alive : s.isAlive = true)
    (unpublished : s.calls.Unpublished) (initialized : s.calls.phase.isInitialized = true)
    (ask : Ask) :
    s.calls.Serves s.calls.nextCall ask (s.step (.calls (.call ask))).2.2 := by
  have serves := CallSide.settle_issue_serves settled.calls unpublished initialized ask
  simpa only [step, act_call alive, settle, FanIn.settle_of_quiet settled.notifications,
    FanIn.settle_of_quiet settled.requests, List.append_nil, List.nil_append, List.map_nil]
    using serves

/-- The published agents are the backends, one for one, so that a call that goes to the agents goes
    to the backends. -/
theorem agents_are_backends (backends : List Backend) (settings : Settings)
    (rounds : List (List Command)) {agents : List Agent}
    (phase : ((ofBackends backends settings).rounds rounds).calls.phase = .initialized agents) :
    agents.map Agent.name =
      ((ofBackends backends settings).rounds rounds).calls.backends.map Backend.name :=
  (observed_rounds (observed_ofBackends backends settings) rounds).staged.agents agents phase

/-- All that one can see of the handshake agrees, in every state that a run reaches: it is over when
    a handshake call has succeeded; calls that wait for it wait until then, whenever they were
    issued; the agents are all backends, and none before; and new calls are served accordingly.
    Nobody is woken by a handshake that fails. -/
theorem observers_agree (backends : List Backend) (settings : Settings)
    (rounds : List (List Command))
    (alive : ((ofBackends backends settings).rounds rounds).isAlive = true) :
    let now := (ofBackends backends settings).rounds rounds
    let l := (ofBackends backends settings).chronicle rounds
    let succeeded := ∃ call ∈ l.handshakes, ∃ v, (call, .ok v) ∈ l.ended
    (∃ value, (now.step (.calls .isInitialized)).2.1 = .isInitialized value ∧
      (value = true ↔ succeeded) ∧ (value = false ↔ now.calls.phase = .uninitialized)) ∧
    (∀ call, (call, .awaitHandshake) ∈ l.issued → (call, .cancelled) ∉ l.ended →
      (call ∈ now.calls.unfinished ↔ now.calls.phase = .uninitialized) ∧
      ∀ outcome, (call, outcome) ∈ l.ended ↔
        now.calls.phase.isInitialized = true ∧ outcome = .ok .null) ∧
    (∃ agents, (now.step (.calls .agents)).2.1 = .agents agents ∧
      (now.calls.phase = .uninitialized → agents = []) ∧
      (now.calls.phase.isInitialized = true →
        agents.map Agent.name = backends.map Backend.name ∧
        (now.step (.calls .backendCount)).2.1 = .backendCount agents.length)) ∧
    (succeeded → ∀ ask, now.calls.Serves now.calls.nextCall ask
      (now.step (.calls (.call ask))).2.2) ∧
    ∀ before after call outcome, l.ended = before ++ (call, outcome) :: after →
      (call, .awaitHandshake) ∈ l.issued → outcome = .cancelled ∨
        outcome = .ok .null ∧ ∃ c ∈ l.handshakes, ∃ v, (c, .ok v) ∈ before := by
  intro now l succeeded
  have settled : now.Settled := settled_rounds (settled_ofBackends backends settings) rounds
  have observed : Observed ({} ++ l) now.calls :=
    observed_rounds (observed_ofBackends backends settings) rounds
  have whole : ({} ++ l : Ledger) = l := rfl
  rw [whole] at observed
  have success : now.calls.phase.isInitialized = true ↔ succeeded := by
    refine observed.told.published.trans ⟨?_, ?_⟩
    · rintro ⟨call, v, params, ended, asked⟩
      exact ⟨call, Ledger.mem_handshakes.mpr ⟨params, asked⟩, v, ended⟩
    · rintro ⟨call, handshake, v, ended⟩
      obtain ⟨params, asked⟩ := Ledger.mem_handshakes.mp handshake
      exact ⟨call, v, params, ended, asked⟩
  have names : now.calls.backends.map Backend.name = backends.map Backend.name :=
    names_rounds (ofBackends backends settings) rounds
  -- what the questions to a session that is alive give
  have fits {c : CallCommand} (free : c.backend? = none) :
      (now.step (.calls c)).2.1 = (now.calls.act now.isAlive c).2.1 := by
    rw [step, act, Command.backend?, free, if_neg (by simp), if_neg (by simp [now, alive])]
    rfl
  refine ⟨⟨now.calls.phase.isInitialized, fits rfl, success, Phase.isInitialized_eq_false⟩,
    fun call waits kept => observed.waits_iff settled.calls waits kept,
    ⟨now.calls.phase.agents, fits rfl, fun uninitialized => ?_, fun initialized => ?_⟩,
    fun done => step_call_serves settled alive observed.staged.unpublished (success.mpr done),
    fun before after call outcome split waits => ?_⟩
  · rw [uninitialized]
    rfl
  · obtain ⟨agents, phase⟩ : ∃ agents, now.calls.phase = .initialized agents := by
      cases phase : now.calls.phase with
      | uninitialized => exact Phase.clash phase initialized
      | initialized agents => exact ⟨agents, rfl⟩
    have listed := agents_are_backends backends settings rounds phase
    have count : now.calls.backends.length = agents.length := by
      simpa using (congrArg List.length listed).symm
    rw [phase]
    exact ⟨listed.trans names, (fits rfl).trans (congrArg Result.backendCount count)⟩
  · refine (observed.told.heralded before after call outcome split waits).imp_right ?_
    rintro ⟨ok, c, v, params, success, asked⟩
    exact ⟨ok, c, Ledger.mem_handshakes.mpr ⟨params, asked⟩, v, success⟩

theorem observers_agree_of_two_waiters :
    (∀ outcome, (0, outcome) ∈ ((ofBackends [.ofName "a"] {}).chronicle
      [[.calls (.call .awaitHandshake), .calls (.call (.request handshakeMethod .null))],
        [.calls (.receive 0), .calls (.respond 0 .null)],
        [.calls (.call .awaitHandshake)]]).ended ↔ outcome = .ok .null) ∧
    (∀ outcome, (2, outcome) ∈ ((ofBackends [.ofName "a"] {}).chronicle
      [[.calls (.call .awaitHandshake), .calls (.call (.request handshakeMethod .null))],
        [.calls (.receive 0), .calls (.respond 0 .null)],
        [.calls (.call .awaitHandshake)]]).ended ↔ outcome = .ok .null) := by
  obtain ⟨-, waiters, -⟩ := observers_agree [.ofName "a"] {}
    [[.calls (.call .awaitHandshake), .calls (.call (.request handshakeMethod .null))],
      [.calls (.receive 0), .calls (.respond 0 .null)],
      [.calls (.call .awaitHandshake)]] rfl
  refine ⟨fun outcome => ?_, fun outcome => ?_⟩
  · refine ((waiters 0 (List.mem_of_getElem? (i := 0) rfl) ?_).2 outcome).trans (and_iff_right rfl)
    intro cancelled
    cases cancelled with
    | tail _ cancelled => cases cancelled with
      | tail _ cancelled => cases cancelled with
        | tail _ cancelled => cases cancelled
  · refine ((waiters 2 (List.mem_of_getElem? (i := 2) rfl) ?_).2 outcome).trans (and_iff_right rfl)
    intro cancelled
    cases cancelled with
    | tail _ cancelled => cases cancelled with
      | tail _ cancelled => cases cancelled with
        | tail _ cancelled => cases cancelled

end Session

end Switchboard.Mux
