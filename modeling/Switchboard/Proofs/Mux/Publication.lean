import Switchboard.Proofs.Mux.Conclusions

namespace Switchboard.Mux

/-- What the handshake returns: the first backend's result unchanged, or an empty capability set
    under the configured identity. -/
def returned (info : ServerInfo) : List Json → Json
  | first :: _ => first
  | [] => .obj [("capabilities", .obj []),
      ("serverInfo", .obj [("name", .str info.name), ("version", .str info.version)])]

/-- A handshake that a call has published with one result for each backend, in their order. -/
structure Publication (l : Ledger) (names : List String) (info : ServerInfo) (agents : List Agent)
    (call : Nat) (params : Json) (values : List Json) : Prop where
  issued : (call, .request handshakeMethod params) ∈ l.issued
  complete : values.length = names.length
  paired : agents = names.zipWith Agent.mk values
  -- The results are the answers to the call's own requests, and to no others.
  own : ∀ i v, values[i]? = some v ↔ (⟨call, i⟩, .ok v) ∈ l.answers
  single : ∀ i reply, (⟨call, i⟩, reply) ∈ l.answers → ∃ v, values[i]? = some v ∧ reply = .ok v
  taken : ∀ i < names.length, (⟨call, i⟩, handshakeMethod, params) ∈ l.taken
  ended : ∀ outcome, (call, outcome) ∈ l.ended ↔ outcome = .ok (returned info values)
  sole : ∀ {c v p}, (c, .ok v) ∈ l.ended → (c, .request handshakeMethod p) ∈ l.issued → c = call

namespace Session

variable (names : List String) (settings : Settings) (commands : List Command)

/-- The state of a session over channels of these names after these commands. -/
def reached : CallSide := ((ofNames names settings).run commands).calls

def record : Ledger := (ofNames names settings).ledger commands

theorem reached_sound : (reached names settings commands).Sound ∧
    (reached names settings commands).Quiet :=
  run_sound (ofNames_sound names settings).1 (ofNames_sound names settings).2 commands

theorem reached_keeps (later : List Command) :
    (reached names settings commands).Keeps (reached names settings (commands ++ later)) := by
  obtain ⟨sound, quiet⟩ := reached_sound names settings commands
  rw [reached, reached, run_append]
  exact run_keeps sound quiet later

theorem reached_names :
    (reached names settings commands).backends.map Backend.name = names := by
  have first : (ofNames names settings).calls.backends.map Backend.name = names := by
    simp [ofNames, ofBackends, Backend.ofName, Function.comp_def]
  exact (reached_keeps names settings [] commands).names.trans first

theorem backend_of_name {i : Nat} {name : String} (here : names[i]? = some name) :
    ∃ b, (reached names settings commands).backends[i]? = some b ∧ b.name = name := by
  rw [← reached_names names settings commands, List.getElem?_map] at here
  exact Option.map_eq_some_iff.mp here

theorem reached_length : (reached names settings commands).backends.length = names.length := by
  simpa using congrArg List.length (reached_names names settings commands)

theorem reached_fallback : (reached names settings commands).fallback = settings.serverInfo :=
  (reached_keeps names settings [] commands).fallback

theorem recorded_ofNames : Recorded {} (ofNames names settings).calls where
  accounts := {
    issued := rfl
    balanced := fun _ => rfl
    asked := ⟨nofun, nofun, nofun, nofun, nofun⟩
    ordered := List.Pairwise.nil }
  traced := {
    queued := fun queued => by
      obtain ⟨b, member, here⟩ := queued
      obtain ⟨name, -, rfl⟩ := List.mem_map.mp member
      cases here
    held := nofun
    taken := nofun }
  answers := ⟨nofun, nofun, List.nodup_nil, nofun⟩

theorem reached_recorded :
    Recorded (record names settings commands) (reached names settings commands) ∧
      Concluded (record names settings commands) (reached names settings commands) := by
  obtain ⟨sound, quiet⟩ := ofNames_sound names settings
  have run := run_induction (P := fun l c => Recorded l c ∧ Concluded l c) (l := {})
    (fun sound _ known moved =>
      ⟨known.1.moved sound moved, known.2.moved known.1 sound moved⟩)
    (fun sound known proceeds =>
      ⟨known.1.proceeds sound proceeds, known.2.proceeds known.1 sound proceeds⟩)
    sound quiet ⟨recorded_ofNames names settings, ⟨fun _ => nofun, nofun⟩⟩ commands
  exact run

theorem merged_zipWith {values : List Json} (length : values.length = names.length)
    (info : ServerInfo) :
    CallSide.merged (names.zipWith Agent.mk values) info = returned info values := by
  cases values with
  | nil =>
    rw [List.zipWith_nil_right]
    rfl
  | cons v rest =>
    cases names with
    | nil => cases length
    | cons name names => rfl

/-- No stale or misplaced answer enters the handshake: what is published are the answers to the
    publishing call's own requests, whatever was asked and answered before, between and after. -/
theorem published_agents {agents : List Agent}
    (published : (reached names settings commands).phase = .initialized agents) :
    ∃ call params values, Publication (record names settings commands) names settings.serverInfo
      agents call params values := by
  obtain ⟨recorded, concluded⟩ := reached_recorded names settings commands
  obtain ⟨call, params, values, by'⟩ := concluded.published agents published
  have backends := reached_names names settings commands
  have length : values.length = names.length :=
    by'.length.trans (reached_length names settings commands)
  have here {i : Nat} (bound : i < names.length) :
      ∃ v, values[i]? = some v ∧
        (⟨call, i⟩, Reply.ok v) ∈ (record names settings commands).answers :=
    have inRange : i < values.length := length ▸ bound
    ⟨values[i], List.getElem?_eq_getElem inRange,
      (by'.answered i _).mp (List.getElem?_eq_getElem inRange)⟩
  have paired := by'.paired
  rw [backends] at paired
  have ended := by'.ended
  rw [paired, reached_fallback, merged_zipWith names length] at ended
  refine ⟨call, params, values, by'.issued, length, paired, by'.answered, fun i reply answer => ?_,
    fun i bound => ?_, fun outcome => ⟨fun other => ?_, fun same => same ▸ ended⟩, by'.sole⟩
  · have bound := (recorded.answers.spent answer).2.2.2
    obtain ⟨v, value, known⟩ := here (reached_length names settings commands ▸ bound)
    exact ⟨v, value, congrArg Prod.snd
      (List.inj_on_of_nodup_map recorded.answers.once answer known rfl)⟩
  · obtain ⟨v, -, known⟩ := here bound
    obtain ⟨method, sent, taken⟩ := recorded.answers.taken known
    have same := recorded.ask_unique by'.issued (recorded.traced.taken taken)
    rw [Ask.request.injEq] at same
    rwa [same.1, same.2]
  · exact congrArg Prod.snd (List.inj_on_of_nodup_map recorded.ended_nodup other ended rfl)

theorem published_agents_after_cancel :
    let commands := [
      .calls (.call (.request handshakeMethod .null)), .calls (.receive 0), .calls (.cancel 0),
      .calls (.call (.request handshakeMethod .null)), .calls (.receive 0),
      .calls (.respond 0 (.str "stale")), .calls (.respond 1 (.str "fresh"))]
    ∃ call params values, Publication (record ["a"] {} commands) ["a"] {} [⟨"a", .str "fresh"⟩]
      call params values :=
  published_agents ["a"] {} _ rfl

end Session

end Switchboard.Mux
