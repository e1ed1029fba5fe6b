import Switchboard.Proofs.Mux.ForwarderRecords
import Switchboard.Proofs.Mux.JournalRuns
import Switchboard.Proofs.Mux.LostRequests
import Switchboard.Proofs.Mux.Reports

namespace Switchboard.Mux

variable {names : List String} {turns : Nat → Prop} {l : Ledger} {s : CallSide} {b : Block}

/-- The record about the capabilities in a handshake result: there are none, or a decoder has
    refused them. -/
def capabilityLine? (wording : Json → String) (name : String) (result : Json) : Option LogLine :=
  match result.get? "capabilities" with
  | none => some ⟨"WARN", "lspx::multiplexer", "Backend '" ++ name ++ "' returned no capabilities"⟩
  | some raw => match Capabilities.Provider.serverCapabilities.read raw with
    | none => some ⟨"WARN", "lspx::multiplexer",
        "Backend '" ++ name ++ "' returned malformed capabilities: " ++ wording raw⟩
    | some _ => none

def Closing.lines (wording : Json → String) : Closing → List LogLine
  | .silent => []
  | .failed name error => [⟨"WARN", "lspx::multiplexer", "Backend '" ++ name ++
      "' failed to initialize: " ++ error.message ++ " (code " ++ toString error.code.toInt ++ ")"⟩]
  | .published agents => (agents.filterMap fun a => capabilityLine? wording a.name a.result) ++
      [⟨"DEBUG", "lspx::multiplexer", "Handshake complete, multiplexer initialized"⟩]

def Block.lines (wording : Json → String) (count : Nat) (b : Block) : List LogLine :=
  ⟨"DEBUG", "lspx::multiplexer", "Initializing " ++ toString count ++ " backend(s)"⟩ ::
    b.closing.lines wording

theorem line_warning? (wording : Json → String) (name : String) (result : Json) :
    (warning? name result).map (Log.line wording) = capabilityLine? wording name result := by
  unfold warning? capabilityLine? Capabilities.issue? Capabilities.advertised
  cases result.get? "capabilities" with
  | none => rfl
  | some raw =>
    dsimp only
    cases Capabilities.Provider.serverCapabilities.read raw with
    | some set => rfl
    | none =>
      dsimp only [Option.map, Log.line, Log.level, Log.target, Log.message, Log.headline]
      have joined : "' returned malformed capabilities: " =
          "' returned malformed capabilities" ++ ": " := by decide
      rw [joined, ← String.append_assoc]

theorem Closing.lines_eq (wording : Json → String) (closing : Closing) :
    closing.logs.map (Log.line wording) = closing.lines wording := by
  cases closing with
  | silent => rfl
  | failed name error =>
    dsimp only [logs, lines, List.map, Log.line, Log.level, Log.target, Log.message, Log.headline]
    rw [RpcError.text]
    simp only [String.append_assoc]
  | published agents =>
    rw [logs, lines, List.map_append, List.map_filterMap]
    simp only [line_warning?]
    rfl

theorem Block.lines_eq (wording : Json → String) (count : Nat) (b : Block) :
    (b.logs count).map (Log.line wording) = b.lines wording count := by
  rw [logs, List.map_cons, b.closing.lines_eq]
  rfl

/-- The agents are the backends, each with the answer that a call has got from it. -/
structure Publishes (names : List String) (answers : List (RequestRef × Reply)) (call : Nat)
    (agents : List Agent) : Prop where
  named : agents.map Agent.name = names
  answered : ∀ i v, (agents.map Agent.result)[i]? = some v ↔ (⟨call, i⟩, .ok v) ∈ answers

/-- A block ends with what has become of its call, and with nothing as long as the call waits or
    when it was cancelled. -/
structure Block.Faithful (names : List String) (l : Ledger) (s : CallSide) (b : Block) : Prop where
  silent : b.closing = .silent ↔ (b.call, .cancelled) ∈ l.ended ∨ b.call ∈ s.unfinished
  failed : ∀ e, (∃ name, b.closing = .failed name e) ↔ (b.call, .error e) ∈ l.ended
  blamed : ∀ name e, b.closing = .failed name e → Blamed names l.answers s b.call name e
  published : (∃ agents, b.closing = .published agents) ↔ ∃ v, (b.call, .ok v) ∈ l.ended
  answered : ∀ agents, b.closing = .published agents → Publishes names l.answers b.call agents

theorem Closes.faithful (closes : Closes names turns l s b) (recorded : Recorded l s)
    (publishes : ∀ v, (b.call, .ok v) ∈ l.ended → s.phase.isInitialized = true →
      Publishes names l.answers b.call s.phase.agents) : b.Faithful names l s := by
  -- a call ends once, so that one outcome leaves no room for another or for waiting
  have once {outcome outcome' : Outcome} (first : (b.call, outcome) ∈ l.ended)
      (second : (b.call, outcome') ∈ l.ended) : outcome = outcome' :=
    congrArg Prod.snd (List.inj_on_of_nodup_map recorded.ended_nodup first second rfl)
  have only {outcome : Outcome} (ended : (b.call, outcome) ∈ l.ended) (other : Outcome) :
      (b.call, other) ∈ l.ended ↔ other = outcome :=
    ⟨fun known => once known ended, fun same => same ▸ ended⟩
  have gone {outcome : Outcome} (ended : (b.call, outcome) ∈ l.ended) : b.call ∉ s.unfinished :=
    recorded.not_mem_of_ended ended
  cases closes with
  | @inFlight call held =>
    obtain ⟨a, here, rfl⟩ := Option.map_eq_some_iff.mp held
    have waits := CallSide.mem_unfinished_of_attempt here
    have none (outcome : Outcome) : (a.call, outcome) ∉ l.ended := fun ended =>
      recorded.not_mem_of_ended ended waits
    exact ⟨by simp [waits], by simp [none], nofun, by simp [none], nofun⟩
  | cancelled ended =>
    exact ⟨by simp [ended], by simp [only ended], nofun, by simp [only ended], nofun⟩
  | @failed call name e ended blamed =>
    refine ⟨by simp [only ended, gone ended], by simp [only ended, eq_comm], ?_,
      by simp [only ended], nofun⟩
    rintro name' e' same
    cases same
    exact blamed
  | published ended initialized =>
    refine ⟨by simp [only ended, gone ended], by simp [only ended], nofun, by simp [only ended], ?_⟩
    rintro agents same
    cases same
    exact publishes _ ended initialized

namespace Session

variable {settings : Settings} {commands : List Command} (wording : Json → String)

/-- A handshake call that has started an attempt: it has held the turn between commands, or has
    ended otherwise than by a cancel or a refusal. -/
def Attempted (names : List String) (settings : Settings) (commands : List Command) (call : Nat) :
    Prop :=
  HeldTurn names settings commands call ∨
    call ∈ (record names settings commands).handshakes ∧
      ∃ outcome, (call, outcome) ∈ (record names settings commands).ended ∧
        outcome ≠ .cancelled ∧ outcome ≠ .error CallSide.invokedTwice

/-- The handshake records of a run: a block for each attempt, one after the other, each of which
    tells how the attempt has ended. Nothing follows the one that is published. -/
structure AttemptRecords (wording : Json → String) (names : List String) (settings : Settings)
    (commands : List Command) (records : List LogLine) (blocks : List Block) : Prop where
  records : records = blocks.flatMap (Block.lines wording names.length)
  order : (blocks.map Block.call).Pairwise (· < ·)
  attempts : ∀ call, call ∈ blocks.map Block.call ↔ Attempted names settings commands call
  faithful : ∀ b ∈ blocks, b.Faithful names (record names settings commands)
    (reached names settings commands)
  last : ∀ b ∈ blocks.dropLast, ∀ agents, b.closing ≠ .published agents

theorem publishes_of_ended {call : Nat} {v : Json}
    (handshake : call ∈ (record names settings commands).handshakes)
    (ended : (call, .ok v) ∈ (record names settings commands).ended)
    (initialized : (reached names settings commands).phase.isInitialized = true) :
    Publishes names (record names settings commands).answers call
      (reached names settings commands).phase.agents := by
  cases phase : (reached names settings commands).phase with
  | uninitialized =>
    rw [phase] at initialized
    cases initialized
  | initialized agents =>
    obtain ⟨-, concluded⟩ := reached_recorded names settings commands
    obtain ⟨publisher, params, values, published⟩ := concluded.published agents phase
    obtain ⟨_, issued⟩ := Ledger.mem_handshakes.mp handshake
    cases published.sole ended issued
    have complete := published.length.trans (reached_length names settings commands)
    have paired : agents = (names.zip values).map fun a => ⟨a.1, a.2⟩ := by
      rw [published.paired, reached_names, List.zip, List.map_zipWith]
    rw [Phase.agents, paired]
    refine ⟨?_, ?_⟩
    · rw [List.map_map]
      exact List.map_fst_zip complete.ge
    · rw [List.map_map, show Agent.result ∘ _ = Prod.snd from rfl, List.map_snd_zip complete.le]
      exact published.answered

theorem attempt_records (goesOn : ∀ c ∈ commands, c.tearsDown = false) :
    ∃ blocks, AttemptRecords wording names settings commands
      ((handshakeLogs ((ofNames names settings).effects commands)).map (Log.line wording))
      blocks := by
  obtain ⟨-, -, blocks, written, journal⟩ := journaled names settings goesOn
  obtain ⟨recorded, -⟩ := reached_recorded names settings commands
  refine ⟨blocks, ?_, (List.pairwise_append.mp journal.order).1, fun call => ?_,
    fun b member => ?_, journal.last⟩
  · rw [written, List.map_flatMap]
    exact List.flatMap_congr fun b _ => b.lines_eq wording names.length
  · constructor
    · intro member
      obtain ⟨b, here, rfl⟩ := List.mem_map.mp member
      have asked := journal.asked b here
      cases journal.closes b here with
      | inFlight held => exact .inl (heldTurn_now held)
      | cancelled _ turn => exact .inl turn
      | failed ended _ turn =>
        refine turn.imp_right fun same => ⟨asked, _, ended, nofun, ?_⟩
        rw [same]
        intro refused
        cases refused
      | published ended => exact .inr ⟨asked, _, ended, nofun, nofun⟩
    · rintro (turn | ⟨handshake, outcome, ended, uncancelled, unrefused⟩)
      · exact journal.complete call turn
      · rcases journal.known ended handshake with known | cancelled | refused
        · exact known
        · exact absurd cancelled uncancelled
        · exact absurd refused unrefused
  · exact (journal.closes b member).faithful recorded fun v ended =>
      publishes_of_ended (journal.asked b member) ended

/-- The log is a faithful account of any run that is not torn down, by what is written. The records
    of handshakes are those of the attempts; each request that is dropped while its caller waits has
    one record; and each forwarder has one for its start and one for its end, which gives the
    reason. -/
theorem log_faithful (wording : Json → String) (names : List String) (settings : Settings)
    (commands : List Command) (goesOn : ∀ c ∈ commands, c.tearsDown = false) :
    let log := ((ofNames names settings).log commands).map (Log.line wording)
    (∃ blocks, AttemptRecords wording names settings commands (log.filter LogLine.isOfHandshake)
      blocks) ∧
    (∃ drops, DropRecords names settings commands (log.filter LogLine.isRequestDropped) drops) ∧
    ∀ kind, ∃ halts, ForwarderRecords names settings kind commands log halts := by
  intro log
  have later {p : LogLine → Bool} {q : Log → Bool} (same : ∀ log, p (log.line wording) = q log)
      (count : ∀ n, q (.multiplexing n) = false)
      (starts : ∀ kind name, q (.forwarding kind name) = false) : log.filter p =
        ((logs ((ofNames names settings).effects commands)).filter q).map (Log.line wording) := by
    rw [Log.filter_lines wording same, Session.log, List.filter_append,
      filter_startLogs count starts, List.nil_append]
  refine ⟨?_, ?_, run_forwarders wording goesOn⟩
  · rw [later (Log.isOfHandshake_line wording) (fun _ => rfl) fun _ _ => rfl]
    exact attempt_records wording goesOn
  · obtain ⟨drops, records, -⟩ := run_drops wording goesOn
    rw [lines, Log.filter_lines wording (Log.isRequestDropped_line wording)] at records
    rw [later (Log.isRequestDropped_line wording) (fun _ => rfl) fun _ _ => rfl]
    exact ⟨drops, records⟩

theorem log_faithful_two_attempts :
    let wording : Json → String := fun _ => "invalid type"
    let commands : List Command := [
      .calls (.call (.request handshakeMethod .null)), .calls (.receive 0), .calls (.receive 1),
      .calls (.dropTicket 1), .calls (.call (.request handshakeMethod .null)),
      .calls (.receive 0), .calls (.receive 1), .calls (.respond 2 .null),
      .calls (.respond 3 (.obj [("capabilities", .null)])), .stream .requests (.close 0)]
    let log := ((ofNames ["a", "b"] {}).log commands).map (Log.line wording)
    (∃ blocks, AttemptRecords wording ["a", "b"] {} commands
      [⟨"DEBUG", "lspx::multiplexer", "Initializing 2 backend(s)"⟩,
        ⟨"WARN", "lspx::multiplexer",
          "Backend 'b' failed to initialize: backend 'b': channel closed (code -32803)"⟩,
        ⟨"DEBUG", "lspx::multiplexer", "Initializing 2 backend(s)"⟩,
        ⟨"WARN", "lspx::multiplexer", "Backend 'a' returned no capabilities"⟩,
        ⟨"WARN", "lspx::multiplexer", "Backend 'b' returned malformed capabilities: invalid type"⟩,
        ⟨"DEBUG", "lspx::multiplexer", "Handshake complete, multiplexer initialized"⟩] blocks) ∧
    (∃ drops, DropRecords ["a", "b"] {} commands [⟨"WARN", "lspx::backend",
      "Backend 'b' dropped request 'initialize' without answering"⟩] drops) ∧
    log.filter (LogLine.isForwarding .notifications) =
      [⟨"DEBUG", "lspx::forward", "Forwarding notifications from 'a'"⟩,
        ⟨"DEBUG", "lspx::forward", "Forwarding notifications from 'b'"⟩] ∧
    log.filter (LogLine.isStop .requests) =
      [⟨"DEBUG", "lspx::forward", "Backend 'a' closed its server requests stream"⟩] ∧
    ∀ kind, ∃ halts, ForwarderRecords ["a", "b"] {} kind commands log halts := by
  intro wording commands log
  obtain ⟨attempts, drops, forwarders⟩ := log_faithful wording ["a", "b"] {} commands
    (by simp [commands, Command.tearsDown])
  rw [Log.filter_lines wording (Log.isOfHandshake_line wording)] at attempts
  refine ⟨attempts, drops, ?_, ?_, forwarders⟩
  · rw [Log.filter_lines wording (Log.isForwarding_line wording · .notifications)]
    rfl
  · rw [Log.filter_lines wording (Log.isStop_line wording · .requests)]
    rfl

end Session

end Switchboard.Mux
