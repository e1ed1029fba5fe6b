import Switchboard.Proofs.Mux.Verdicts

namespace Switchboard.Mux

/-- What becomes of a handshake call that had sent nothing before a command: it waits behind an
    older one, starts with a request to every backend, fails over a closed channel, is refused
    behind a published handshake, or is cancelled. -/
inductive Enters (names : List String) (c : Command) (next : CallSide)
    (ended : List (Nat × Outcome)) (call : Nat) : Prop
  | waits {older : Nat} (member : call ∈ next.waiting.map Prod.fst)
      (turn : next.attempt.map Attempt.call = some older) (order : older < call) :
      Enters names c next ended call
  | starts (turn : next.attempt.map Attempt.call = some call)
      (sent : ∀ i < names.length, next.isOpen i = true ∧ ⟨call, i⟩ ∈ next.awaited) :
      Enters names c next ended call
  | fails {i : Nat} {name : String} (named : names[i]? = some name)
      (shut : next.isOpen i = false)
      (ends : (call, .error ⟨-32803, "backend '" ++ name ++ "': channel closed", none⟩) ∈ ended) :
      Enters names c next ended call
  | refused (initialized : next.phase.isInitialized = true)
      (ends : (call, .error CallSide.invokedTwice) ∈ ended) : Enters names c next ended call
  | cancelled (asked : c = .calls (.cancel call)) (ends : (call, .cancelled) ∈ ended) :
      Enters names c next ended call

/-- Why a handshake call has ended as it did. -/
inductive Cause (names : List String) (answers : List (RequestRef × Reply)) (call : Nat) :
    Outcome → Prop
  | answered {first : Json} (all : ∀ i < names.length, ∃ v, (⟨call, i⟩, .ok v) ∈ answers)
      (front : (⟨call, 0⟩, .ok first) ∈ answers) : Cause names answers call (.ok first)
  | failed {i : Nat} {e : RpcError} (own : (⟨call, i⟩, .error e) ∈ answers) :
      Cause names answers call (.error e)
  | closed {i : Nat} {name : String} (named : names[i]? = some name) :
      Cause names answers call
        (.error ⟨-32803, "backend '" ++ name ++ "': channel closed", none⟩)
  | refused : Cause names answers call (.error CallSide.invokedTwice)
  | cancelled : Cause names answers call .cancelled

theorem Cause.mono {names : List String} {answers more : List (RequestRef × Reply)} {call : Nat}
    {outcome : Outcome} (cause : Cause names answers call outcome) (sub : answers ⊆ more) :
    Cause names more call outcome := by
  cases cause with
  | answered all front =>
    exact .answered (fun i bound => (all i bound).imp fun v => @sub _) (sub front)
  | failed own => exact .failed (sub own)
  | closed named => exact .closed named
  | refused => exact .refused
  | cancelled => exact .cancelled

namespace CallSide

variable {s s' : CallSide} {call : Nat}

theorem Moved.still_unstarted {d : Ledger} (quiet : s.Quiet) (moved : s.Moved s' d)
    (kept : ∀ outcome, (call, outcome) ∉ d.ended)
    (unstarted : call ∈ s.unstarted ∨ ∃ ask, (call, ask) ∈ d.issued) : call ∈ s'.unstarted := by
  rcases unstarted with waits | ⟨ask, issued⟩
  · rw [CallSide.unstarted, quiet.fresh, List.map_nil, List.nil_append] at waits
    obtain ⟨w, member, rfl⟩ := List.mem_map.mp waits
    refine List.mem_append_right _ (List.mem_map_of_mem ?_)
    rw [moved.waiting]
    refine List.mem_filter.mpr ⟨member, ?_⟩
    simpa using kept
  · cases moved with
    | issued ask =>
      cases List.mem_singleton.mp issued
      simp [CallSide.unstarted, issue]
    | _ => cases issued

end CallSide

namespace Session

variable {names : List String} {settings : Settings} {commands : List Command} {call : Nat}

theorem named_of_closedBy {bs : List Backend} (same : bs.map Backend.name = names)
    {outcome : Outcome} (closed : CallSide.ClosedBy bs outcome) :
    ∃ (i : Nat) (name : String), names[i]? = some name ∧ bs[i]?.any Backend.accepts = false ∧
      outcome = .error ⟨-32803, "backend '" ++ name ++ "': channel closed", none⟩ := by
  obtain ⟨b, member, shut, rfl⟩ := closed
  obtain ⟨i, bound, rfl⟩ := List.getElem_of_mem member
  exact ⟨i, bs[i].name, by simp [← same, bound], by simp [bound, shut], rfl⟩

theorem waits_behind (waits : call ∈ (reached names settings commands).waiting.map Prod.fst) :
    ∃ older, (reached names settings commands).attempt.map Attempt.call = some older ∧
      older < call := by
  obtain ⟨-, quiet⟩ := reached_sound names settings commands
  obtain ⟨recorded, -⟩ := reached_recorded names settings commands
  cases held : (reached names settings commands).attempt with
  | none =>
    rw [quiet.waiting held] at waits
    cases waits
  | some a =>
    have ordered := recorded.accounts.ordered
    rw [CallSide.Ordered, CallSide.line, held, quiet.fresh, List.map_nil,
      List.append_nil] at ordered
    exact ⟨a.call, rfl, (List.pairwise_cons.mp ordered).1 call waits⟩

theorem unended_of_unstarted (unstarted : call ∈ (reached names settings commands).unstarted ∨
    (reached names settings commands).nextCall ≤ call) (outcome : Outcome) :
    (call, outcome) ∉ (record names settings commands).ended := by
  obtain ⟨recorded, -⟩ := reached_recorded names settings commands
  intro ended
  rcases unstarted with waits | new
  · exact recorded.not_mem_of_ended ended (CallSide.mem_unfinished_of_unstarted waits)
  · exact absurd (recorded.ended_lt ended) (Nat.not_lt.mpr new)

theorem unstarted_acted {c : Command} {ask : Ask}
    (issued : (call, ask) ∈ (record names settings (commands ++ [c])).issued)
    (unstarted : call ∈ (reached names settings commands).unstarted ∨
      (reached names settings commands).nextCall ≤ call)
    (kept : ∀ outcome, (call, outcome) ∉
      (((ofNames names settings).run commands).notedAtOnce c).ended) :
    call ∈ (((ofNames names settings).run commands).act c).1.calls.unstarted := by
  obtain ⟨-, quiet⟩ := reached_sound names settings commands
  obtain ⟨recorded, -⟩ := reached_recorded names settings commands
  refine (act_moved _ c).still_unstarted quiet kept (unstarted.imp_right fun new => ?_)
  rw [issued_snoc] at issued
  rcases List.mem_append.mp issued with old | here
  · exact absurd (recorded.issued_lt old) (Nat.not_lt.mpr new)
  · exact ⟨ask, here⟩

theorem enters (occupied : names ≠ []) {c : Command} (goesOn : c.tearsDown = false) {params : Json}
    (issued : (call, .request handshakeMethod params) ∈
      (record names settings (commands ++ [c])).issued)
    (unstarted : call ∈ (reached names settings commands).unstarted ∨
      (reached names settings commands).nextCall ≤ call) :
    Enters names c (reached names settings (commands ++ [c]))
      (endings (((ofNames names settings).run commands).step c).2.2) call := by
  obtain ⟨sound, quiet⟩ := reached_sound names settings commands
  obtain ⟨sound', quiet'⟩ := reached_sound names settings (commands ++ [c])
  obtain ⟨recorded, -⟩ := reached_recorded names settings commands
  obtain ⟨recorded', -⟩ := reached_recorded names settings (commands ++ [c])
  have moved := act_moved ((ofNames names settings).run commands) c
  -- a cancel comes before all else that a command brings about
  by_cases gone : ∃ outcome, (call, outcome) ∈
      (((ofNames names settings).run commands).notedAtOnce c).ended
  · obtain ⟨outcome, ended⟩ := gone
    obtain ⟨asked, rfl⟩ := cancel_of_atOnce goesOn ended
    refine .cancelled asked ?_
    rw [endings_step]
    exact List.mem_append_left _ ended
  rw [not_exists] at gone
  have here := unstarted_acted issued unstarted gone
  have acted := recorded.moved sound moved
  have issuedHere : (call, .request handshakeMethod params) ∈ (record names settings commands ++
      ((ofNames names settings).run commands).notedAtOnce c).issued := by
    rw [issued_snoc] at issued
    exact issued
  have namesHere := (moved.keeps sound).names.trans (reached_names names settings commands)
  have some : (((ofNames names settings).run commands).act c).1.calls.backends ≠ [] := by
    intro none
    rw [none] at namesHere
    exact occupied namesHere.symm
  obtain ⟨ends, starts⟩ := (sound.moved moved).settle_of_unstarted (moved.few quiet) acted some
    issuedHere here
  have next := reached_snoc names settings commands c
  have isOpen := reached_isOpen_snoc names settings commands c
  -- what has become of the call when all rests again: it has the turn, waits for it or has ended
  rcases recorded'.live_or_ended issued with live | ⟨outcome, ended⟩
  · rcases List.mem_append.mp (recorded'.mem_line sound' issued live quiet'.fresh) with turn | waits
    · obtain ⟨a, held, rfl⟩ := Option.map_eq_some_iff.mp (Option.mem_toList.mp turn)
      have settled := held
      rw [next] at settled
      obtain ⟨allOpen, running⟩ := starts a settled rfl
      refine .starts (by rw [held]; rfl) fun i bound => ?_
      have inRange :
          i < (((ofNames names settings).run commands).act c).1.calls.backends.length := by
        rwa [← List.length_map (f := Backend.name), namesHere]
      refine ⟨(isOpen i).trans ?_, ?_⟩
      · rw [CallSide.isOpen, List.getElem?_eq_getElem inRange, Option.any_some]
        exact allOpen _ (List.getElem_mem inRange)
      · rw [CallSide.mem_awaited, CallSide.awaits, held, Option.any_some,
          Attempt.awaits_iff.mpr ⟨rfl, running ▸ List.mem_range.mpr inRange⟩, Bool.true_or]
    · obtain ⟨older, turn, order⟩ := waits_behind waits
      exact .waits waits turn order
  · rw [ended_snoc] at ended
    have settled := (List.mem_append.mp ended).resolve_left (unended_of_unstarted unstarted outcome)
    have inStep := settled
    rw [endings_step] at settled
    rcases ends outcome ((List.mem_append.mp settled).resolve_left (gone outcome)) with
      ⟨rfl, initialized⟩ | closed
    · exact .refused (next ▸ initialized) inStep
    · obtain ⟨i, name, named, shut, rfl⟩ := named_of_closedBy namesHere closed
      exact .fails named ((isOpen i).trans shut) inStep

theorem cancelled_of_tearsDown {c : Command} (torn : c.tearsDown = true) {outcome : Outcome}
    (ended : (call, outcome) ∈ endings (((ofNames names settings).run commands).step c).2.2) :
    outcome = .cancelled := by
  have settled := reached_settled names settings commands
  cases alive : ((ofNames names settings).run commands).isAlive with
  | true =>
    have all : (call, outcome) ∈
        ((ofNames names settings).run commands).calls.unfinished.map fun c => (c, .cancelled) := by
      rw [← CallSide.tornDown_endings]
      cases c with
      | shutdown =>
        rw [step_shutdown alive, endings_append, endings_map_logged, List.append_nil] at ended
        exact ended
      | drop =>
        rw [step_drop alive] at ended
        exact ended
      | _ => cases torn
    obtain ⟨_, -, same⟩ := List.mem_map.mp all
    exact (Prod.mk.inj same).2.symm
  | false =>
    have idle : ((ofNames names settings).run commands).act c =
        ((ofNames names settings).run commands, .noMultiplexer, []) := by
      cases c with
      | shutdown | drop => simp [act, alive, Command.backend?, Command.needsLife]
      | _ => cases torn
    have still : ((ofNames names settings).run commands).step c =
        ((ofNames names settings).run commands, .noMultiplexer, []) := by
      simp only [step, idle, settled.rests, List.append_nil]
    rw [still] at ended
    cases ended

theorem cause_of_decides {c : Command} {outcome : Outcome}
    (decides : Decides names settings commands c call outcome) :
    Cause names ((record names settings commands).answers ++
      ((ofNames names settings).run commands).replies c) call outcome := by
  cases decides with
  | @last i v first own others front =>
    refine .answered (fun j bound => ?_) front
    by_cases same : j = i
    · exact ⟨v, List.mem_append_right _ (same ▸ own)⟩
    · exact (others j bound same).imp fun w => List.mem_append_left _
  | failed own => exact .failed (List.mem_append_right _ own)
  | dropped named => exact .closed named
  | lost named => exact .closed named
  | cancelled => exact .cancelled

theorem cause_of_enters {c : Command} {next : CallSide} {ended : List (Nat × Outcome)}
    {answers : List (RequestRef × Reply)} (enters : Enters names c next ended call)
    (gone : call ∉ next.unfinished) {outcome : Outcome}
    (sole : ∀ other, (call, other) ∈ ended → other = outcome) :
    Cause names answers call outcome := by
  cases enters with
  | waits member =>
    exact absurd (CallSide.mem_unfinished_of_unstarted (List.mem_append_right _ member)) gone
  | starts turn =>
    obtain ⟨a, held, rfl⟩ := Option.map_eq_some_iff.mp turn
    exact absurd (CallSide.mem_unfinished_of_attempt held) gone
  | fails named shut ends => exact sole _ ends ▸ .closed named
  | refused initialized ends => exact sole _ ends ▸ .refused
  | cancelled asked ends => exact sole _ ends ▸ .cancelled

theorem caused (occupied : names ≠ []) {params : Json} {outcome : Outcome}
    (issued : (call, .request handshakeMethod params) ∈ (record names settings commands).issued)
    (ended : (call, outcome) ∈ (record names settings commands).ended) :
    Cause names (record names settings commands).answers call outcome := by
  induction commands using List.reverseRecOn generalizing params outcome with
  | nil => cases ended
  | append_singleton commands c ih =>
    obtain ⟨sound, quiet⟩ := reached_sound names settings commands
    obtain ⟨recorded, -⟩ := reached_recorded names settings commands
    obtain ⟨recorded', -⟩ := reached_recorded names settings (commands ++ [c])
    have answers : (record names settings (commands ++ [c])).answers =
        (record names settings commands).answers ++
          ((ofNames names settings).run commands).replies c := by
      rw [record_snoc, ← noted_eq]
      rfl
    have asked : (call, .request handshakeMethod params) ∈ (record names settings commands).issued ∨
        (reached names settings commands).nextCall ≤ call := by
      rw [issued_snoc] at issued
      refine (List.mem_append.mp issued).imp_right fun new => ?_
      exact Nat.le_of_eq ((act_moved ((ofNames names settings).run commands) c).issued_new new).symm
    have split := ended
    rw [ended_snoc] at split
    rw [answers]
    rcases List.mem_append.mp split with old | new
    · have before := asked.resolve_right (Nat.not_le.mpr (recorded.ended_lt old))
      exact (ih before old).mono (List.subset_append_left _ _)
    · cases torn : c.tearsDown with
      | true => exact cancelled_of_tearsDown torn new ▸ .cancelled
      | false =>
        by_cases turn : (reached names settings commands).attempt.map Attempt.call = some call
        · exact cause_of_decides ((decides_iff turn torn outcome).mp new)
        · have once {other : Outcome}
              (ends : (call, other) ∈ (record names settings (commands ++ [c])).ended) :
              other = outcome :=
            congrArg Prod.snd (List.inj_on_of_nodup_map recorded'.ended_nodup ends ended rfl)
          refine cause_of_enters (enters occupied torn issued (asked.imp_left fun before => ?_))
            (recorded'.not_mem_of_ended ended) fun other ends => once ?_
          · have live : call ∈ (reached names settings commands).unfinished := by
              refine (recorded.live_or_ended before).resolve_right fun ⟨other, old⟩ => ?_
              have twice := recorded'.ended_nodup
              rw [ended_snoc, List.map_append] at twice
              exact absurd rfl ((List.nodup_append.mp twice).2.2
                call (List.mem_map.mpr ⟨_, old, rfl⟩) call (List.mem_map.mpr ⟨_, new, rfl⟩))
            rcases List.mem_append.mp (recorded.mem_line sound before live quiet.fresh) with
              held | waits
            · exact absurd (Option.mem_toList.mp held) turn
            · exact List.mem_append_right _ waits
          · rw [ended_snoc]
            exact List.mem_append_right _ ends

/-- A handshake call starts over open channels or fails at once. It is under way until the first
    command that decides it, which ends it; and nothing that comes later has to do with it. -/
theorem first_deciding_event (names : List String) (settings : Settings) (commands : List Command)
    (occupied : names ≠ []) :
    let now := (ofNames names settings).run commands
    let l := record names settings commands
    (∀ c, c.tearsDown = false → ∀ call params,
      (call, .request handshakeMethod params) ∈ (record names settings (commands ++ [c])).issued →
      call ∈ now.calls.unstarted ∨ now.calls.nextCall ≤ call →
        Enters names c (now.step c).1.calls (endings (now.step c).2.2) call) ∧
    (∀ call, now.calls.attempt.map Attempt.call = some call →
      ∀ later, (∀ c ∈ later, c.tearsDown = false) →
        (Undecided names settings commands call later →
          Underway names settings (commands ++ later) call) ∧
        ∀ outcome, (call, outcome) ∈ (record names settings (commands ++ later)).ended ↔
          ∃ before c after, later = before ++ c :: after ∧
            Undecided names settings commands call before ∧
            Decides names settings (commands ++ before) c call outcome) ∧
    ∀ call params outcome, (call, .request handshakeMethod params) ∈ l.issued →
      (call, outcome) ∈ l.ended → Cause names l.answers call outcome ∧ Dead now call := by
  intro now l
  obtain ⟨recorded, -⟩ := reached_recorded names settings commands
  refine ⟨fun c goesOn call params issued unstarted => ?_, fun call turn later goesOn =>
    ⟨fun undecided => underway (turn_of_undecided turn goesOn undecided),
      ended_iff_decided turn goesOn⟩,
    fun call params outcome issued ended => ⟨caused occupied issued ended,
      dead_of_ended (reached_settled names settings commands)
        (recorded.not_mem_of_ended ended)⟩⟩
  rw [← reached_snoc]
  exact enters occupied goesOn issued unstarted

theorem first_deciding_event_of_lost_request :
    let start : List Command := [.handshake .null]
    let later : List Command :=
      [.calls (.receive 0), .calls (.respond 0 (.str "a")), .dropPeer 1, .calls (.respond 0 .null)]
    ∃ before c after, later = before ++ c :: after ∧
      Undecided ["a", "b"] {} start 0 before ∧
      Decides ["a", "b"] {} (start ++ before) c 0
        (.error ⟨-32803, "backend 'b': channel closed", none⟩) := by
  intro start later
  have ended : (0, .error (Backend.ofName "b").closedError) ∈
      (record ["a", "b"] {} (start ++ later)).ended := List.mem_of_getElem? (i := 0) rfl
  obtain ⟨-, decided, -⟩ := first_deciding_event ["a", "b"] {} start (by decide)
  exact ((decided 0 rfl later (by simp [later, Command.tearsDown])).2 _).mp ended

end Session

end Switchboard.Mux
