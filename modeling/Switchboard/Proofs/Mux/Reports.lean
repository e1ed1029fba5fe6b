import Mathlib.Data.List.ReduceOption
import Switchboard.Proofs.Mux.Announcements
import Switchboard.Proofs.Mux.Failures

namespace Switchboard.Mux

theorem reduceOption_differ {α : Type} {l l' : List (Option α)} {j : Nat}
    (length : l.length = l'.length) (same : ∀ i, i ≠ j → l[i]? = l'[i]?) :
    ∃ before after, l.reduceOption = before ++ l[j]?.join.toList ++ after ∧
      l'.reduceOption = before ++ l'[j]?.join.toList ++ after := by
  induction l generalizing l' j with
  | nil =>
    cases List.length_eq_zero_iff.mp length.symm
    exact ⟨[], [], by simp, by simp⟩
  | cons x rest ih =>
    cases l' with
    | nil => cases length
    | cons x' rest' =>
      cases j with
      | zero =>
        have others : rest = rest' := List.ext_getElem? fun i => by
          simpa using same (i + 1) (Nat.succ_ne_zero i)
        subst others
        refine ⟨[], rest.reduceOption, ?_, ?_⟩
        · cases x <;> simp [List.reduceOption_cons_of_none, List.reduceOption_cons_of_some]
        · cases x' <;> simp [List.reduceOption_cons_of_none, List.reduceOption_cons_of_some]
      | succ j =>
        have head : x = x' := by simpa using same 0 (Nat.succ_ne_zero j).symm
        subst head
        obtain ⟨before, after, first, second⟩ := ih (Nat.succ.inj length) fun i other => by
          simpa using same (i + 1) (by simpa using other)
        refine ⟨x.toList ++ before, after, ?_, ?_⟩
        · cases x <;> simp [List.reduceOption_cons_of_none, List.reduceOption_cons_of_some, first]
        · cases x <;> simp [List.reduceOption_cons_of_none, List.reduceOption_cons_of_some, second]

theorem warned_zipWith (names : List String) (values : List Json) :
    (Phase.initialized (names.zipWith Agent.mk values)).warned =
      (names.zipWith warning? values).reduceOption := by
  simp only [Phase.warned, Phase.agents, List.reduceOption]
  induction names generalizing values with
  | nil => rfl
  | cons name rest ih =>
    cases values with
    | nil => rfl
    | cons v others =>
      simp only [List.zipWith_cons_cons, List.filterMap_cons, ih]
      cases warning? name v <;> rfl

namespace CallSide

/-- The backends that took part in the handshake, each with the capability set that it
    advertised. -/
def capabilitySets (s : CallSide) : List (String × Json) :=
  s.phase.agents.map fun a => (a.name, a.capabilities)

theorem capabilitySets_zipWith {s : CallSide} {names : List String} {values : List Json}
    (phase : s.phase = .initialized (names.zipWith Agent.mk values)) :
    s.capabilitySets = names.zip (values.map Capabilities.ofResult) := by
  rw [capabilitySets, phase, Phase.agents, List.map_zipWith, List.zip_map_right, List.zip,
    List.map_zipWith]
  rfl

/-- Whatever the backends are, and whether their answers came one by one or together: once all are
    there, the handshake is published with them. -/
theorem advance_of_answered (s : CallSide) {a : Attempt} {values : List Json}
    (wf : a.WellFormed s.backends.length) (complete : values.length = s.backends.length)
    (answered : ∀ i v, values[i]? = some v → a.got i = some (.ok v)) :
    s.advance a = { s with attempt := none }.publish a.call (values.map some) := by
  have known {i : Nat} (bound : i < s.backends.length) : ∃ v, a.got i = some (.ok v) :=
    ⟨_, answered i _ (List.getElem?_eq_getElem (complete.symm ▸ bound))⟩
  cases stage : a.stage with
  | pending results =>
    obtain ⟨i, running⟩ := List.exists_mem_of_ne_nil _ (wf.of_stage_pending stage).1
    obtain ⟨bound, missing⟩ := (wf.mem_running i).mp running
    obtain ⟨v, got⟩ := known bound
    rw [missing] at got
    cases got
  | failed i reply =>
    obtain ⟨arrived, bad⟩ := Attempt.of_stage_failed stage
    obtain ⟨bound, got⟩ := wf.got_of_finished arrived
    obtain ⟨v, ok⟩ := known bound
    rw [got, Option.some.injEq] at ok
    exact absurd ok (bad v)
  | complete results =>
    obtain ⟨values', length, rfl, results⟩ := wf.of_stage_complete stage
    have same : values' = values := List.ext_getElem? fun i => by
      by_cases bound : i < s.backends.length
      · have inRange : i < values.length := complete.symm ▸ bound
        have own := answered i _ (List.getElem?_eq_getElem inRange)
        rw [List.getElem?_eq_getElem inRange, (results i _).mpr ⟨bound, own⟩]
      · rw [List.getElem?_eq_none (by omega), List.getElem?_eq_none (by omega)]
    rw [advance, stage, same]

theorem publish_reports (s : CallSide) (call : Nat) {values : List Json}
    (complete : values.length = s.backends.length) :
    let names := s.backends.map Backend.name
    let next := s.publish call (values.map some)
    next.1.capabilitySets = names.zip (values.map Capabilities.ofResult) ∧
      warnings next.2 = (names.zipWith warning? values).reduceOption ∧
      endings next.2 = (call, .ok (returned s.fallback values)) ::
        s.watchers.map fun w => (w, .ok .null) := by
  intro names next
  have agents : agentsOf s.backends (values.map some) = names.zipWith Agent.mk values := by
    rw [Sound.agentsOf_values, List.zipWith_map_left]
  have phase : next.1.phase = .initialized (names.zipWith Agent.mk values) := by
    rw [← agents]
    rfl
  refine ⟨capabilitySets_zipWith phase, ?_, ?_⟩
  · rw [warnings_publish, show (s.publish call _).1.phase = _ from phase, warned_zipWith]
  · rw [endings_publish, agents, Session.merged_zipWith names (by simpa [names] using complete)]

end CallSide

namespace Session

variable (names : List String) (settings : Settings)

/-- A handshake call that all backends have answered, each by its value, and that was neither
    cancelled nor refused. -/
structure Answered (commands : List Command) (call : Nat) (values : List Json) : Prop where
  handshake : call ∈ (record names settings commands).handshakes
  complete : values.length = names.length
  answers : ∀ i v, values[i]? = some v →
    (⟨call, i⟩, .ok v) ∈ (record names settings commands).answers
  uncancelled : (call, .cancelled) ∉ (record names settings commands).ended
  unrefused : (call, .error CallSide.invokedTwice) ∉ (record names settings commands).ended

/-- What a handshake call reports of these answers: what it returns, the capability set of each
    backend, and the warnings about those that give none. -/
structure Reports (commands : List Command) (call : Nat) (values : List Json) : Prop where
  ended : ∀ outcome, (call, outcome) ∈ (record names settings commands).ended ↔
    outcome = .ok (returned settings.serverInfo values)
  sets : (reached names settings commands).capabilitySets =
    names.zip (values.map Capabilities.ofResult)
  warned : warnings ((ofNames names settings).effects commands) =
    (names.zipWith warning? values).reduceOption

variable {names settings} {commands : List Command} {call : Nat} {values : List Json}

theorem ends_alone (commands : List Command) {call : Nat} {outcome : Outcome} {params : Json}
    (ended : (call, outcome) ∈ (record [] settings commands).ended)
    (issued : (call, .request handshakeMethod params) ∈ (record [] settings commands).issued) :
    outcome.isOk = true ∨ outcome = .cancelled ∨ outcome = .error CallSide.invokedTwice := by
  let Plain (l : Ledger) (s : CallSide) : Prop := Recorded l s ∧ s.backends = [] ∧
    ∀ {call outcome params}, (call, outcome) ∈ l.ended →
      (call, .request handshakeMethod params) ∈ l.issued →
        outcome.isOk = true ∨ outcome = .cancelled ∨ outcome = .error CallSide.invokedTwice
  obtain ⟨sound, quiet⟩ := ofNames_sound [] settings
  have run := run_induction (P := Plain) (l := {})
    (fun {l s s' d} sound _ known moved => by
      obtain ⟨recorded, bare, plain⟩ := known
      refine ⟨recorded.moved sound moved, ?_, fun {call outcome params} ended issued => ?_⟩
      · rw [← List.length_eq_zero_iff, (moved.keeps sound).length, bare]
        rfl
      · rcases List.mem_append.mp ended with before | now
        · refine plain before ((List.mem_append.mp issued).resolve_right fun new => ?_)
          exact Nat.ne_of_lt (recorded.ended_lt before) (moved.issued_new new)
        · exact .inr (.inl (moved.ended_cancelled now)))
    (fun {l s s' es} sound known proceeds => by
      obtain ⟨recorded, bare, plain⟩ := known
      refine ⟨recorded.proceeds sound proceeds, ?_, fun {call outcome params} ended issued => ?_⟩
      · rw [← List.length_eq_zero_iff, (proceeds.keeps sound).length, bare]
        rfl
      · rw [Ledger.issued_append, List.append_nil] at issued
        rcases List.mem_append.mp ended with before | now
        · exact plain before issued
        · cases proceeds.endsBy sound recorded now issued with
          | published => exact .inl rfl
          | refused => exact .inr (.inr rfl)
          | failed _ held => exact absurd bare (sound.turns (.inl (by simp [held]))).2
          | closed _ _ here => simp [bare] at here)
    sound quiet ⟨recorded_ofNames [] settings, rfl, nofun⟩ commands
  exact run.2.2 ended issued

theorem Answered.succeeds (answered : Answered names settings commands call values) :
    ∃ v, (call, .ok v) ∈ (record names settings commands).ended := by
  obtain ⟨params, issued⟩ := Ledger.mem_handshakes.mp answered.handshake
  by_cases bare : names = []
  · subst bare
    obtain ⟨sound, quiet⟩ := reached_sound [] settings commands
    obtain ⟨recorded, -⟩ := reached_recorded [] settings commands
    have idle : (reached [] settings commands).backends = [] :=
      List.length_eq_zero_iff.mp (reached_length [] settings commands)
    rcases recorded.live_or_ended issued with live | ⟨outcome, ended⟩
    · -- nobody waits for a turn where there are no backends
      have turn := recorded.mem_line sound issued live quiet.fresh
      refine absurd idle (sound.turns ?_).2
      rcases List.mem_append.mp turn with held | waits
      · exact .inl fun none => by simp [none] at held
      · exact .inr fun none => by simp [none] at waits
    · rcases ends_alone commands ended issued with ok | rfl | rfl
      · cases outcome with
        | ok v => exact ⟨v, ended⟩
        | _ => cases ok
      · exact absurd ended answered.uncancelled
      · exact absurd ended answered.unrefused
  · refine succeeds_of_answered names settings commands bare issued answered.uncancelled
      fun i bound => ?_
    have inRange : i < values.length := answered.complete.symm ▸ bound
    exact ⟨values[i], answered.answers i _ (List.getElem?_eq_getElem inRange)⟩

theorem Answered.published (answered : Answered names settings commands call values) :
    (reached names settings commands).phase = .initialized (names.zipWith Agent.mk values) ∧
      ∀ outcome, (call, outcome) ∈ (record names settings commands).ended ↔
        outcome = .ok (returned settings.serverInfo values) := by
  obtain ⟨params, issued⟩ := Ledger.mem_handshakes.mp answered.handshake
  obtain ⟨v, ok⟩ := answered.succeeds
  obtain ⟨recorded, concluded⟩ := reached_recorded names settings commands
  cases phase : (reached names settings commands).phase with
  | uninitialized => exact absurd issued (concluded.uninitialized phase ok)
  | initialized agents =>
    obtain ⟨call', params', values', by'⟩ := concluded.published agents phase
    obtain rfl := by'.sole ok issued
    have complete : values'.length = names.length :=
      by'.length.trans (reached_length names settings commands)
    have same : values' = values := List.ext_getElem? fun i => by
      by_cases bound : i < names.length
      · have inRange : i < values.length := answered.complete.symm ▸ bound
        have own := answered.answers i _ (List.getElem?_eq_getElem inRange)
        rw [List.getElem?_eq_getElem inRange, (by'.answered i _).mpr own]
      · rw [List.getElem?_eq_none (by rw [complete]; omega),
          List.getElem?_eq_none (by rw [answered.complete]; omega)]
    subst same
    have paired : agents = names.zipWith Agent.mk values' :=
      by'.paired.trans (by rw [reached_names])
    have ended := by'.ended
    rw [paired, reached_fallback, merged_zipWith names complete] at ended
    refine ⟨by rw [paired], fun outcome => ⟨fun other => ?_, fun same => same ▸ ended⟩⟩
    exact congrArg Prod.snd (List.inj_on_of_nodup_map recorded.ended_nodup other ended rfl)

theorem Answered.reports (answered : Answered names settings commands call values) :
    Reports names settings commands call values := by
  obtain ⟨phase, ended⟩ := answered.published
  have announced :=
    run_announces (s := ofNames names settings) (fun held => absurd rfl held) commands
  refine ⟨ended, ?_, ?_⟩
  · exact CallSide.capabilitySets_zipWith phase
  · have warned : (reached names settings commands).phase.warned = [] ++ _ := announced.warned
    rw [phase, List.nil_append, warned_zipWith] at warned
    exact warned.symm

namespace Reports

variable {commands' : List Command} {call' : Nat} {values' : List Json}

theorem returns (reports : Reports names settings commands call values) {v : Json}
    (front : values[0]? = some v) : (call, .ok v) ∈ (record names settings commands).ended := by
  refine (reports.ended _).mpr ?_
  cases values with
  | nil => cases front
  | cons v' rest =>
    cases front
    rfl

theorem entry (reports : Reports names settings commands call values) {i : Nat} {name : String}
    {v : Json} (named : names[i]? = some name) (given : values[i]? = some v) :
    (∃ set, Capabilities.Gives v set ∧
        (reached names settings commands).capabilitySets[i]? = some (name, set) ∧
        warning? name v = none) ∨
      (∀ set, ¬Capabilities.Gives v set) ∧
        (reached names settings commands).capabilitySets[i]? = some (name, Json.obj []) ∧
        (warning? name v = some (.noCapabilities name) ∨
          ∃ raw, v.get? "capabilities" = some raw ∧
            warning? name v = some (.malformedCapabilities name raw)) := by
  have entry : (reached names settings commands).capabilitySets[i]? =
      some (name, Capabilities.ofResult v) := by
    rw [reports.sets, List.getElem?_zip_eq_some, List.getElem?_map, given]
    exact ⟨named, rfl⟩
  by_cases gives : ∃ set, Capabilities.Gives v set
  · obtain ⟨set, gives⟩ := gives
    obtain ⟨unwarned, same⟩ := warning?_of_gives gives name
    exact .inl ⟨set, gives, same ▸ entry, unwarned⟩
  · have none := not_exists.mp gives
    obtain ⟨warns, empty⟩ := warning?_of_not_gives none name
    exact .inr ⟨none, empty ▸ entry, warns⟩

theorem same_end (reports : Reports names settings commands call values)
    (reports' : Reports names settings commands' call' values')
    (front : values[0]? = values'[0]?) (outcome : Outcome) :
    (call, outcome) ∈ (record names settings commands).ended ↔
      (call', outcome) ∈ (record names settings commands').ended := by
  have same : returned settings.serverInfo values = returned settings.serverInfo values' := by
    cases values with
    | nil =>
      cases values' with
      | nil => rfl
      | cons => cases front
    | cons v rest =>
      cases values' with
      | nil => cases front
      | cons v' rest' =>
        cases front
        rfl
  rw [reports.ended, reports'.ended, same]

theorem same_warnings (reports : Reports names settings commands call values)
    (reports' : Reports names settings commands' call' values')
    (length : values.length = values'.length) {j : Nat}
    (same : ∀ i, i ≠ j → values[i]? = values'[i]?) :
    ∃ before after,
      warnings ((ofNames names settings).effects commands) =
        before ++ (names.zipWith warning? values)[j]?.join.toList ++ after ∧
      warnings ((ofNames names settings).effects commands') =
        before ++ (names.zipWith warning? values')[j]?.join.toList ++ after := by
  have shorter : (names.zipWith warning? values).length =
      (names.zipWith warning? values').length := by
    simp only [List.length_zipWith, length]
  have outside : ∀ i, i ≠ j → (names.zipWith warning? values)[i]? =
      (names.zipWith warning? values')[i]? := fun i other => by
    simp only [List.getElem?_zipWith, same i other]
  obtain ⟨before, after, here, there⟩ := reduceOption_differ shorter outside
  exact ⟨before, after, reports.warned.trans here, reports'.warned.trans there⟩

end Reports

/-- A handshake reports a function of the answers, whatever the order in which they came, and the
    part of each backend depends on its own answer alone. This is so whatever the backends are, as
    soon as an attempt has all answers. -/
theorem handshake_componentwise {commands' : List Command} {call' : Nat} {values' : List Json}
    (first : Answered names settings commands call values)
    (second : Answered names settings commands' call' values') :
    let now := reached names settings commands
    let now' := reached names settings commands'
    let warned := warnings ((ofNames names settings).effects commands)
    let warned' := warnings ((ofNames names settings).effects commands')
    let ended := (record names settings commands).ended
    let ended' := (record names settings commands').ended
    (Reports names settings commands call values ∧
      (∀ v, values[0]? = some v → (call, .ok v) ∈ ended) ∧
      ∀ (i : Nat) name v, names[i]? = some name → values[i]? = some v →
        (∃ set, Capabilities.Gives v set ∧ now.capabilitySets[i]? = some (name, set) ∧
          warning? name v = none) ∨
        (∀ set, ¬Capabilities.Gives v set) ∧ now.capabilitySets[i]? = some (name, Json.obj []) ∧
          (warning? name v = some (.noCapabilities name) ∨
            ∃ raw, v.get? "capabilities" = some raw ∧
              warning? name v = some (.malformedCapabilities name raw))) ∧
    (values = values' → now.capabilitySets = now'.capabilitySets ∧ warned = warned' ∧
      ∀ outcome, (call, outcome) ∈ ended ↔ (call', outcome) ∈ ended') ∧
    (∀ j : Nat, (∀ i, i ≠ j → values[i]? = values'[i]?) →
      (∀ i, i ≠ j → now.capabilitySets[i]? = now'.capabilitySets[i]?) ∧
      (∃ before after,
        warned = before ++ (names.zipWith warning? values)[j]?.join.toList ++ after ∧
        warned' = before ++ (names.zipWith warning? values')[j]?.join.toList ++ after) ∧
      (j ≠ 0 → ∀ outcome, (call, outcome) ∈ ended ↔ (call', outcome) ∈ ended')) ∧
    ∀ (s : CallSide) (a : Attempt) (vs : List Json), a.WellFormed s.backends.length →
      vs.length = s.backends.length → (∀ i v, vs[i]? = some v → a.got i = some (.ok v)) →
        let names := s.backends.map Backend.name
        let next := s.advance a
        next.1.capabilitySets = names.zip (vs.map Capabilities.ofResult) ∧
          warnings next.2 = (names.zipWith warning? vs).reduceOption ∧
          endings next.2 = (a.call, .ok (returned s.fallback vs)) ::
            s.watchers.map fun w => (w, .ok .null) := by
  intro now now' warned warned' ended ended'
  have reports := first.reports
  have reports' := second.reports
  refine ⟨⟨reports, fun v => reports.returns, fun i name v => reports.entry⟩, ?_,
    fun j same => ⟨fun i other => ?_, ?_, fun later => reports.same_end reports' ?_⟩,
    fun s a vs wf complete answered => ?_⟩
  · rintro rfl
    exact ⟨reports.sets.trans reports'.sets.symm, reports.warned.trans reports'.warned.symm,
      reports.same_end reports' rfl⟩
  · rw [reports.sets, reports'.sets]
    simp only [List.zip, List.getElem?_zipWith, List.getElem?_map, same i other]
  · exact reports.same_warnings reports' (first.complete.trans second.complete.symm) same
  · exact same 0 later.symm
  · rw [s.advance_of_answered wf complete answered]
    exact CallSide.publish_reports { s with attempt := none } a.call complete

theorem handshake_componentwise_of_two_orders :
    Reports ["a", "b"] {} [.calls (.call (.request handshakeMethod .null)), .calls (.receive 0),
      .calls (.receive 1), .calls (.respond 0 (.str "a")), .calls (.respond 1 (.str "b"))]
      0 [.str "a", .str "b"] ∧
    Reports ["a", "b"] {} [.calls (.call (.request handshakeMethod .null)), .calls (.receive 1),
      .calls (.receive 0), .calls (.respond 0 .null), .calls (.respond 1 (.str "a"))]
      0 [.str "a", .null] := by
  have first : Answered ["a", "b"] {} [.calls (.call (.request handshakeMethod .null)),
      .calls (.receive 0), .calls (.receive 1), .calls (.respond 0 (.str "a")),
      .calls (.respond 1 (.str "b"))] 0 [.str "a", .str "b"] := by
    refine ⟨Ledger.mem_handshakes.mpr ⟨.null, List.mem_of_getElem? (i := 0) rfl⟩, by simp,
      fun i v given => ?_, fun cancelled => ?_, fun refused => ?_⟩
    · match i, given with
      | 0, rfl => exact List.mem_of_getElem? (i := 0) rfl
      | 1, rfl => exact List.mem_of_getElem? (i := 1) rfl
    · cases cancelled with
      | tail _ cancelled => cases cancelled
    · cases refused with
      | tail _ refused => cases refused
  have second : Answered ["a", "b"] {} [.calls (.call (.request handshakeMethod .null)),
      .calls (.receive 1), .calls (.receive 0), .calls (.respond 0 .null),
      .calls (.respond 1 (.str "a"))] 0 [.str "a", .null] := by
    refine ⟨Ledger.mem_handshakes.mpr ⟨.null, List.mem_of_getElem? (i := 0) rfl⟩, by simp,
      fun i v given => ?_, fun cancelled => ?_, fun refused => ?_⟩
    · match i, given with
      | 0, rfl => exact List.mem_of_getElem? (i := 1) rfl
      | 1, rfl => exact List.mem_of_getElem? (i := 0) rfl
    · cases cancelled with
      | tail _ cancelled => cases cancelled
    · cases refused with
      | tail _ refused => cases refused
  exact ⟨(handshake_componentwise first second).1.1, (handshake_componentwise second first).1.1⟩

end Session

end Switchboard.Mux
