import Switchboard.Proofs.Mux.Entrants
import Switchboard.Proofs.Mux.Teardown

namespace Switchboard.Mux

namespace CallSide

variable {s : CallSide} {a : Attempt}

theorem conclusion_of_joined (joined : a.finished = []) (some : a.running ≠ []) :
    s.conclusion a = none := by
  simp [conclusion, Attempt.stage, joined, Attempt.join, some]

theorem conclusion_arrive_of_bad (joined : a.finished = []) (i : Nat) (reply : Reply)
    (bad : ∀ v, reply ≠ .ok v) :
    s.conclusion (a.arrive i reply) = some (.error (s.errorOf i reply)) := by
  cases reply with
  | ok v => exact absurd rfl (bad v)
  | _ => simp [conclusion, Attempt.stage, Attempt.arrive, joined, Attempt.join]

theorem conclusion_arrive_ok (wf : a.WellFormed s.backends.length) (joined : a.finished = [])
    {i : Nat} (running : i ∈ a.running) (v : Json) (outcome : Outcome) :
    s.conclusion (a.arrive i (.ok v)) = some outcome ↔
      (∀ j < s.backends.length, j ≠ i → ∃ w, a.got j = some (.ok w)) ∧
        ∃ first, (a.arrive i (.ok v)).got 0 = some (.ok first) ∧ outcome = .ok first := by
  have wf' := wf.arrive running (.ok v)
  have other {j : Nat} (differs : j ≠ i) : (a.arrive i (.ok v)).got j = a.got j := by
    rw [Attempt.got_arrive wf running, if_neg differs]
  unfold conclusion
  cases stage : (a.arrive i (.ok v)).stage with
  | pending results =>
    obtain ⟨some, -, -⟩ := wf'.of_stage_pending stage
    -- a task that still runs is that of another backend, which has given no result
    obtain ⟨j, left⟩ := List.exists_mem_of_ne_nil _ some
    obtain ⟨differs, still⟩ := wf.running_nodup.mem_erase_iff.mp left
    obtain ⟨bound, missing⟩ := (wf.mem_running j).mp still
    refine iff_of_false nofun fun ⟨others, _⟩ => ?_
    obtain ⟨w, known⟩ := others j bound differs
    rw [missing] at known
    cases known
  | complete results =>
    obtain ⟨values, length, rfl, known⟩ := wf'.of_stage_complete stage
    have positive : 0 < values.length :=
      length ▸ Nat.zero_lt_of_lt ((wf.mem_running i).mp running).1
    have first : merged (agentsOf s.backends (values.map some)) s.fallback = values[0] := by
      rw [Sound.agentsOf_values]
      cases values with
      | nil => cases positive
      | cons v rest =>
        cases backends : s.backends with
        | nil => rw [backends] at length; cases length
        | cons b bs => rfl
    have got := ((known 0 _).mp (List.getElem?_eq_getElem positive)).2
    simp only [first, Option.some.injEq]
    constructor
    · rintro rfl
      refine ⟨fun j bound differs => ?_, _, got, rfl⟩
      have bound : j < values.length := length ▸ bound
      exact ⟨_, other differs ▸ ((known j _).mp (List.getElem?_eq_getElem bound)).2⟩
    · rintro ⟨-, w, here, rfl⟩
      rw [got, Option.some.injEq, Reply.ok.injEq] at here
      rw [here]
  | failed k reply =>
    obtain ⟨member, bad⟩ := Attempt.of_stage_failed stage
    simp only [Attempt.arrive, joined, List.nil_append, List.mem_singleton, Prod.mk.injEq] at member
    exact absurd member.2 (bad v)

theorem Moved.running_of_gets {s' : CallSide} {d : Ledger} (sound : s.Sound)
    (moved : s.Moved s' d) (held : s.attempt = some a) {i : Nat} {reply : Reply}
    (gets : Gets s s' d ⟨a.call, i⟩ reply) : i ∈ a.running := by
  rcases moved.hears sound held with ⟨-, -, none⟩ | ⟨-, ⟨-, none⟩ | ⟨j, r, running, -, all⟩⟩
  · exact absurd gets (none i reply)
  · exact absurd gets (none i reply)
  · exact ((all i reply).mp gets).1 ▸ running

end CallSide

/-- How a command decides the handshake that a call has under way: by the last of its results, by a
    failure of one of its requests, or by its cancellation. -/
inductive Decides (names : List String) (settings : Settings) (commands : List Command)
    (c : Command) (call : Nat) : Outcome → Prop
  | last {i : Nat} {v first : Json}
      (own : (⟨call, i⟩, .ok v) ∈ ((Session.ofNames names settings).run commands).replies c)
      (others : ∀ j < names.length, j ≠ i →
        ∃ w, (⟨call, j⟩, .ok w) ∈ (Session.record names settings commands).answers)
      (front : (⟨call, 0⟩, .ok first) ∈ (Session.record names settings commands).answers ++
        ((Session.ofNames names settings).run commands).replies c) :
      Decides names settings commands c call (.ok first)
  | failed {i : Nat} {e : RpcError}
      (own : (⟨call, i⟩, .error e) ∈ ((Session.ofNames names settings).run commands).replies c) :
      Decides names settings commands c call (.error e)
  | dropped {i : Nat} {name : String} (named : names[i]? = some name)
      (own : (⟨call, i⟩, .dropped) ∈ ((Session.ofNames names settings).run commands).replies c) :
      Decides names settings commands c call
        (.error ⟨-32803, "backend '" ++ name ++ "': channel closed", none⟩)
  | lost {i : Nat} {name method : String} {params : Json} (named : names[i]? = some name)
      (queued : .request call method params ∈
        (Session.reached names settings commands).queueAt i)
      (shut : (Session.reached names settings (commands ++ [c])).isOpen i = false) :
      Decides names settings commands c call
        (.error ⟨-32803, "backend '" ++ name ++ "': channel closed", none⟩)
  | cancelled (asked : c = .calls (.cancel call)) :
      Decides names settings commands c call .cancelled

/-- None of the later commands decides the handshake of a call. -/
def Undecided (names : List String) (settings : Settings) (commands : List Command) (call : Nat)
    (later : List Command) : Prop :=
  ∀ before c after, later = before ++ c :: after →
    ∀ outcome, ¬Decides names settings (commands ++ before) c call outcome

/-- A handshake under way. Each backend has given its result, or its request is awaited; one at
    least is. -/
structure Underway (names : List String) (settings : Settings) (commands : List Command)
    (call : Nat) : Prop where
  turn : (Session.reached names settings commands).attempt.map Attempt.call = some call
  each : ∀ i < names.length,
    (∃ v, (⟨call, i⟩, .ok v) ∈ (Session.record names settings commands).answers) ∨
      ⟨call, i⟩ ∈ (Session.reached names settings commands).awaited
  awaits : ∃ i < names.length, ⟨call, i⟩ ∈ (Session.reached names settings commands).awaited

namespace Session

variable {names : List String} {settings : Settings} {commands : List Command} {call : Nat}

theorem ends_of_turn {s : Session} (sound : s.calls.Sound) (quiet : s.calls.Quiet) {a : Attempt}
    (held : s.calls.attempt = some a) (c : Command) (outcome : Outcome) :
    (a.call, outcome) ∈ endings (s.step c).2.2 ↔
      (a.call, outcome) ∈ (s.notedAtOnce c).ended ∨ ∃ i reply,
        s.calls.Gets (s.act c).1.calls (s.notedAtOnce c) ⟨a.call, i⟩ reply ∧
          s.calls.conclusion (a.arrive i reply) = some outcome := by
  have moved := act_moved s c
  have sound' := sound.moved moved
  have few := moved.few quiet
  have keeps := moved.keeps sound
  obtain ⟨joined, some⟩ := quiet.attempt a held
  rw [endings_step, List.mem_append]
  refine or_congr_right ?_
  rcases moved.hears sound held with
    ⟨-, gone, none⟩ | ⟨-, ⟨still, none⟩ | ⟨i, reply, running, after, all⟩⟩
  · exact iff_of_false (sound'.unended_of_gone few gone outcome)
      fun ⟨i, reply, gets, _⟩ => none i reply gets
  · rw [sound'.ends_of_held few still, CallSide.conclusion_of_joined joined some]
    exact iff_of_false nofun fun ⟨i, reply, gets, _⟩ => none i reply gets
  · have ends := sound'.ends_of_held few after outcome
    rw [keeps.conclusion] at ends
    refine ends.trans ⟨fun concluded => ⟨i, reply, (all i reply).mpr ⟨rfl, rfl⟩, concluded⟩, ?_⟩
    rintro ⟨j, r, gets, concluded⟩
    obtain ⟨rfl, rfl⟩ := (all j r).mp gets
    exact concluded

theorem replies_unique {s : Session} {c : Command} {x y : RequestRef × Reply}
    (first : x ∈ s.replies c) (second : y ∈ s.replies c) : x = y := by
  cases c with
  | calls c =>
    have here := Option.mem_toList.mp first
    rw [Option.mem_toList.mp second, Option.some.injEq] at here
    exact here.symm
  | _ => cases first

theorem conclusion_arrive_dropped {a : Attempt} (joined : a.finished = []) {i : Nat}
    {name : String} (named : names[i]? = some name) :
    (reached names settings commands).conclusion (a.arrive i .dropped) =
      some (.error ⟨-32803, "backend '" ++ name ++ "': channel closed", none⟩) := by
  obtain ⟨b, here, rfl⟩ := backend_of_name names settings commands named
  rw [CallSide.conclusion_arrive_of_bad joined i .dropped nofun]
  simp only [CallSide.errorOf, here]
  rfl

theorem conclusion_arrive_last {a : Attempt}
    (held : (reached names settings commands).attempt = some a) {i : Nat}
    (running : i ∈ a.running) {v : Json} {c : Command}
    (own : (⟨a.call, i⟩, .ok v) ∈ ((ofNames names settings).run commands).replies c)
    (outcome : Outcome) :
    (reached names settings commands).conclusion (a.arrive i (.ok v)) = some outcome ↔
      (∀ j < names.length, j ≠ i →
        ∃ w, (⟨a.call, j⟩, .ok w) ∈ (record names settings commands).answers) ∧
      ∃ first, (⟨a.call, 0⟩, .ok first) ∈ (record names settings commands).answers ++
        ((ofNames names settings).run commands).replies c ∧ outcome = .ok first := by
  obtain ⟨sound, quiet⟩ := reached_sound names settings commands
  obtain ⟨recorded, -⟩ := reached_recorded names settings commands
  have wf := sound.attempt_wellFormed a held
  have known := recorded.answers.got a held
  have front (first : Json) : (a.arrive i (.ok v)).got 0 = some (.ok first) ↔
      (⟨a.call, 0⟩, .ok first) ∈ (record names settings commands).answers ++
        ((ofNames names settings).run commands).replies c := by
    rw [Attempt.got_arrive wf running, List.mem_append]
    by_cases same : 0 = i
    · subst same
      have unanswered := recorded.answers.unanswered_of_copies
        ((sound.attempt_running a held 0).mp running) (.ok first)
      rw [if_pos rfl, or_iff_right unanswered]
      refine ⟨fun ours => ?_, fun new => ?_⟩
      · cases ours
        exact own
      · cases replies_unique own new
        rfl
    · have elsewhere : (⟨a.call, 0⟩, .ok first) ∉
          ((ofNames names settings).run commands).replies c := fun new => by
        cases replies_unique own new
        exact same rfl
      rw [if_neg same, or_iff_left elsewhere, known]
  rw [CallSide.conclusion_arrive_ok wf (quiet.attempt a held).1 running v outcome,
    reached_length names settings commands]
  simp only [known, front]

theorem decides_iff (turn : (reached names settings commands).attempt.map Attempt.call = some call)
    {c : Command} (goesOn : c.tearsDown = false) (outcome : Outcome) :
    (call, outcome) ∈ endings (((ofNames names settings).run commands).step c).2.2 ↔
      Decides names settings commands c call outcome := by
  obtain ⟨a, held, rfl⟩ := Option.map_eq_some_iff.mp turn
  obtain ⟨sound, quiet⟩ := reached_sound names settings commands
  have moved := act_moved ((ofNames names settings).run commands) c
  have wf := sound.attempt_wellFormed a held
  have joined := (quiet.attempt a held).1
  have isOpen := reached_isOpen_snoc names settings commands c
  -- the call ends at once by its cancel, or by a reply that one of its requests gets
  rw [ends_of_turn sound quiet held,
    cancelled_atOnce goesOn (CallSide.mem_unfinished_of_attempt held)]
  constructor
  · rintro (⟨asked, rfl⟩ | ⟨i, reply, gets, concluded⟩)
    · exact .cancelled asked
    · have running := moved.running_of_gets sound held gets
      have bound := ((wf.mem_running i).mp running).1
      rw [reached_length] at bound
      have named : names[i]? = some names[i] := List.getElem?_eq_getElem bound
      have concluded : (reached names settings commands).conclusion (a.arrive i reply) =
        some outcome := concluded
      cases gets with
      | own answered =>
        obtain ⟨cc, ticket, -, replies, -⟩ := reply_of_replies answered
        cases reply with
        | ok v =>
          obtain ⟨others, first, front, rfl⟩ :=
            (conclusion_arrive_last held running answered outcome).mp concluded
          exact .last answered others front
        | error e =>
          rw [CallSide.conclusion_arrive_of_bad joined i (.error e) nofun] at concluded
          cases concluded
          exact .failed answered
        | dropped =>
          rw [conclusion_arrive_dropped joined named] at concluded
          cases concluded
          exact .dropped named answered
        | panicked text => exact absurd replies not_panicked
      | lost queued shut =>
        rw [conclusion_arrive_dropped joined named] at concluded
        cases concluded
        exact .lost named queued ((isOpen i).trans shut)
  · intro decides
    cases decides with
    | last own others front =>
      have running := moved.running_of_gets sound held (.own own)
      exact .inr ⟨_, _, .own own,
        (conclusion_arrive_last held running own _).mpr ⟨others, _, front, rfl⟩⟩
    | failed own =>
      exact .inr ⟨_, _, .own own, CallSide.conclusion_arrive_of_bad joined _ (.error _) nofun⟩
    | dropped named own => exact .inr ⟨_, _, .own own, conclusion_arrive_dropped joined named⟩
    | @lost i _ _ _ named queued shut =>
      exact .inr ⟨i, _, .lost queued ((isOpen i).symm.trans shut),
        conclusion_arrive_dropped joined named⟩
    | cancelled asked => exact .inl ⟨asked, rfl⟩

theorem ended_snoc (c : Command) :
    (record names settings (commands ++ [c])).ended =
      (record names settings commands).ended ++
        endings (((ofNames names settings).run commands).step c).2.2 := by
  rw [record_snoc, ← noted_eq]
  rfl

theorem turn_snoc (turn : (reached names settings commands).attempt.map Attempt.call = some call)
    {c : Command} (goesOn : c.tearsDown = false)
    (undecided : ∀ outcome, ¬Decides names settings commands c call outcome) :
    (reached names settings (commands ++ [c])).attempt.map Attempt.call = some call := by
  obtain ⟨a, held, rfl⟩ := Option.map_eq_some_iff.mp turn
  obtain ⟨sound, quiet⟩ := reached_sound names settings commands
  obtain ⟨sound', quiet'⟩ := reached_sound names settings (commands ++ [c])
  obtain ⟨recorded, -⟩ := reached_recorded names settings commands
  obtain ⟨recorded', -⟩ := reached_recorded names settings (commands ++ [c])
  obtain ⟨params, issued⟩ := recorded.accounts.asked.attempt a held
  have live := CallSide.mem_unfinished_of_attempt held
  have issued' : (a.call, .request handshakeMethod params) ∈
      (record names settings (commands ++ [c])).issued := by
    rw [record_snoc]
    exact List.mem_append_left _ issued
  have still : a.call ∈ (reached names settings (commands ++ [c])).unfinished := by
    refine (recorded'.live_or_ended issued').resolve_right fun ⟨outcome, ended⟩ => ?_
    rw [ended_snoc] at ended
    rcases List.mem_append.mp ended with old | new
    · exact recorded.not_mem_of_ended old live
    · exact undecided outcome ((decides_iff turn goesOn outcome).mp new)
  have line := recorded'.mem_line sound' issued' still quiet'.fresh
  rcases List.mem_append.mp line with held' | waits
  · obtain ⟨a', held', same⟩ := Option.map_eq_some_iff.mp (Option.mem_toList.mp held')
    rw [held', Option.map_some, same]
  · refine absurd ?_ (sound.started held)
    exact (reached_keeps names settings commands [c]).unstarted _ (sound.numbered _ live)
      (List.mem_append_right _ waits)

theorem underway (turn : (reached names settings commands).attempt.map Attempt.call = some call) :
    Underway names settings commands call := by
  obtain ⟨a, held, rfl⟩ := Option.map_eq_some_iff.mp turn
  obtain ⟨sound, quiet⟩ := reached_sound names settings commands
  obtain ⟨recorded, -⟩ := reached_recorded names settings commands
  have wf := sound.attempt_wellFormed a held
  have length := reached_length names settings commands
  obtain ⟨joined, some⟩ := quiet.attempt a held
  have awaited {i : Nat} (running : i ∈ a.running) :
      ⟨a.call, i⟩ ∈ (reached names settings commands).awaited :=
    CallSide.mem_awaited_of_running held running
  refine ⟨turn, fun i bound => ?_, ?_⟩
  · by_cases running : i ∈ a.running
    · exact .inr (awaited running)
    · obtain ⟨v, known⟩ := wf.result_of_joined joined (length ▸ bound) running
      exact .inl ⟨v, (recorded.answers.got a held i v).mp known⟩
  · obtain ⟨i, running⟩ := List.exists_mem_of_ne_nil _ some
    exact ⟨i, length ▸ ((wf.mem_running i).mp running).1, awaited running⟩

theorem undecided_snoc {later : List Command} {c : Command} :
    Undecided names settings commands call (later ++ [c]) ↔
      Undecided names settings commands call later ∧
        ∀ outcome, ¬Decides names settings (commands ++ later) c call outcome :=
  forall_split_snoc

theorem turn_of_undecided
    (turn : (reached names settings commands).attempt.map Attempt.call = some call)
    {later : List Command} (goesOn : ∀ c ∈ later, c.tearsDown = false)
    (undecided : Undecided names settings commands call later) :
    (reached names settings (commands ++ later)).attempt.map Attempt.call = some call := by
  induction later using List.reverseRecOn with
  | nil => rwa [List.append_nil]
  | append_singleton later c ih =>
    obtain ⟨undecided, last⟩ := undecided_snoc.mp undecided
    have turn := ih (fun c' member => goesOn c' (List.mem_append_left _ member)) undecided
    rw [← List.append_assoc]
    exact turn_snoc turn (goesOn c (by simp)) last

theorem first_decided {later : List Command}
    (decided : ¬Undecided names settings commands call later) :
    ∃ before c after outcome, later = before ++ c :: after ∧
      Undecided names settings commands call before ∧
      Decides names settings (commands ++ before) c call outcome := by
  induction later using List.reverseRecOn with
  | nil =>
    refine absurd (fun before c after same => ?_) decided
    simp at same
  | append_singleton later c ih =>
    by_cases undecided : Undecided names settings commands call later
    · simp only [undecided_snoc, undecided, true_and, not_forall, not_not] at decided
      obtain ⟨outcome, decides⟩ := decided
      exact ⟨later, c, [], outcome, rfl, undecided, decides⟩
    · obtain ⟨before, c', after, outcome, rfl, first⟩ := ih undecided
      exact ⟨before, c', after ++ [c], outcome, by simp, first⟩

/-- A handshake ends by the first command that decides it. -/
theorem ended_iff_decided
    (turn : (reached names settings commands).attempt.map Attempt.call = some call)
    {later : List Command} (goesOn : ∀ c ∈ later, c.tearsDown = false) (outcome : Outcome) :
    (call, outcome) ∈ (record names settings (commands ++ later)).ended ↔
      ∃ before c after, later = before ++ c :: after ∧
        Undecided names settings commands call before ∧
        Decides names settings (commands ++ before) c call outcome := by
  induction later using List.reverseRecOn generalizing outcome with
  | nil =>
    refine iff_of_false (fun ended => ?_) fun ⟨before, c, after, same, _⟩ => by simp at same
    obtain ⟨recorded, -⟩ := reached_recorded names settings (commands ++ [])
    refine recorded.not_mem_of_ended ended ?_
    obtain ⟨a, held, rfl⟩ := Option.map_eq_some_iff.mp turn
    rw [List.append_nil]
    exact CallSide.mem_unfinished_of_attempt held
  | append_singleton later c ih =>
    have earlier := ih fun c' member => goesOn c' (List.mem_append_left _ member)
    have stillTurn := turn_of_undecided turn fun c' member =>
      goesOn c' (List.mem_append_left [c] member)
    rw [← List.append_assoc, ended_snoc, List.mem_append, earlier, exists_split_snoc]
    refine or_congr_right ?_
    constructor
    · intro ended
      by_cases undecided : Undecided names settings commands call later
      · exact ⟨undecided, (decides_iff (stillTurn undecided) (goesOn c (by simp)) outcome).mp ended⟩
      · -- it had ended before, and it ends once
        obtain ⟨before, c', after, old, first⟩ := first_decided undecided
        have past := (earlier old).mpr ⟨before, c', after, first⟩
        obtain ⟨recorded, -⟩ := reached_recorded names settings (commands ++ later ++ [c])
        have once := recorded.ended_nodup
        rw [ended_snoc, List.map_append] at once
        exact absurd rfl ((List.nodup_append.mp once).2.2 call (List.mem_map.mpr ⟨_, past, rfl⟩)
          call (List.mem_map.mpr ⟨_, ended, rfl⟩))
    · rintro ⟨undecided, decides⟩
      exact (decides_iff (stillTurn undecided) (goesOn c (by simp)) outcome).mpr decides

end Session

end Switchboard.Mux
