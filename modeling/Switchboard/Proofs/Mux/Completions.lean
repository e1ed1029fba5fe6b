import Switchboard.Proofs.Mux.Replies
import Switchboard.Proofs.Mux.Undone

namespace Switchboard.Mux

theorem CallSide.Quiet.cancel {s : CallSide} (quiet : s.Quiet) {a : Attempt}
    (held : s.attempt = some a) {call : Nat} (other : a.call ≠ call) : (s.cancel call).Quiet where
  fresh := by simp [CallSide.cancel, quiet.fresh]
  attempt b held' := quiet.attempt b (Option.filter_eq_some_iff.mp held').1
  waiting none := by
    rw [CallSide.cancel, held, Option.filter_some, if_pos (by simpa using other)] at none
    cases none
  routed r member := quiet.routed r (List.mem_filter.mp member).1

/-- How a routed request comes to its end by a command. -/
inductive Completes (s : Session) (c : Command) (name : String) (call : Nat) : Outcome → Prop
  | answered {v : Json} (own : (⟨call, 0⟩, .ok v) ∈ s.replies c) : Completes s c name call (.ok v)
  | failed {e : RpcError} (own : (⟨call, 0⟩, .error e) ∈ s.replies c) :
      Completes s c name call (.error e)
  | dropped (own : (⟨call, 0⟩, .dropped) ∈ s.replies c) :
      Completes s c name call
        (.error ⟨-32803, "backend '" ++ name ++ "': channel closed", none⟩)
  | lost {method : String} {params : Json}
      (queued : .request call method params ∈ s.calls.queueAt 0)
      (shut : (s.step c).1.calls.isOpen 0 = false) :
      Completes s c name call
        (.error ⟨-32803, "backend '" ++ name ++ "': channel closed", none⟩)
  | cancelled (asked : c = .calls (.cancel call)) : Completes s c name call .cancelled

/-- A command that concerns this call leaves the requests of all others waited for. -/
def Spares (s : Session) (c : Command) (call : Nat) : Prop :=
  ∀ ref ∈ s.calls.awaited, ref.call ≠ call → ref ∈ (s.step c).1.calls.awaited

namespace Session

section

variable {s : Session} {c : Command} {issued : List (Nat × Ask)}

theorem reply_of_replies {ref : RequestRef} {reply : Reply} (own : (ref, reply) ∈ s.replies c) :
    ∃ cc ticket, c = .calls cc ∧ cc.reply? = some (ticket, reply) ∧
      s.calls.ticket? ticket = some ref := by
  cases c with
  | calls cc =>
    rw [replies, Option.mem_toList, Option.bind_eq_some_iff] at own
    obtain ⟨⟨ticket, reply'⟩, replies, found⟩ := own
    obtain ⟨ref', good, same⟩ := Option.map_eq_some_iff.mp found
    cases same
    exact ⟨cc, ticket, rfl, replies, good⟩
  | _ => cases own

theorem not_panicked {cc : CallCommand} {ticket : Nat} {text : String} :
    cc.reply? ≠ some (ticket, .panicked text) := by
  intro replies
  cases cc with
  | respondError t error =>
    obtain ⟨e, -, same⟩ := Option.map_eq_some_iff.mp replies
    cases same
  | _ => cases replies

theorem cancel_of_atOnce (goesOn : c.tearsDown = false) {call : Nat} {outcome : Outcome}
    (ended : (call, outcome) ∈ (s.notedAtOnce c).ended) :
    c = .calls (.cancel call) ∧ outcome = .cancelled := by
  unfold notedAtOnce at ended
  rcases act_effects s c with none | ⟨other, -, rfl, -, one⟩ | ⟨torn, -⟩
  · simp [none] at ended
  · rw [one] at ended
    cases List.mem_singleton.mp ended
    exact ⟨rfl, rfl⟩
  · rw [goesOn] at torn
    cases torn

theorem cancelled_atOnce (goesOn : c.tearsDown = false) {call : Nat}
    (live : call ∈ s.calls.unfinished) (outcome : Outcome) :
    (call, outcome) ∈ (s.notedAtOnce c).ended ↔
      c = .calls (.cancel call) ∧ outcome = .cancelled := by
  refine ⟨cancel_of_atOnce goesOn, ?_⟩
  rintro ⟨rfl, rfl⟩
  simp [notedAtOnce, act, Command.backend?, CallCommand.backend?, Command.needsLife, perform,
    CallSide.act, live]

theorem ends_of_routed (sound : s.calls.Sound) (quiet : s.calls.Quiet) {r : Routed}
    (member : r ∈ s.calls.routed) (c : Command) (outcome : Outcome) :
    (r.call, outcome) ∈ endings (s.step c).2.2 ↔
      (r.call, outcome) ∈ (s.notedAtOnce c).ended ∨ ∃ reply,
        s.calls.Gets (s.act c).1.calls (s.notedAtOnce c) ⟨r.call, 0⟩ reply ∧
          outcome = s.calls.routedOutcome reply := by
  have moved := act_moved s c
  have sound' := sound.moved moved
  have few := moved.few quiet
  rw [endings_step, List.mem_append]
  refine or_congr_right ?_
  rcases moved.gets sound quiet member with ⟨-, gone, none⟩ | ⟨-, r', member', same, gets⟩
  · exact iff_of_false (sound'.unended_of_gone few gone outcome)
      fun ⟨reply, got, _⟩ => none reply got
  · rw [← same, sound'.ends_of_routed few member' outcome]
    simp only [gets, same, CallSide.routedOutcome_congr (moved.keeps sound).names]

theorem completes_iff (sound : s.calls.Sound) (quiet : s.calls.Quiet) (asked : Asked issued s.calls)
    (goesOn : c.tearsDown = false) {r : Routed} (member : r ∈ s.calls.routed) {b : Backend}
    (first : s.calls.backends[0]? = some b) (outcome : Outcome) :
    (r.call, outcome) ∈ endings (s.step c).2.2 ↔ Completes s c b.name r.call outcome := by
  have live := CallSide.mem_unfinished_of_routed member
  have isOpen : (s.step c).1.calls.isOpen 0 = (s.act c).1.calls.isOpen 0 :=
    isOpen_step sound quiet asked c 0
  have closed : s.calls.routedOutcome .dropped =
      .error ⟨-32803, "backend '" ++ b.name ++ "': channel closed", none⟩ := by
    simp only [CallSide.routedOutcome, CallSide.errorOf, first]
    rfl
  rw [ends_of_routed sound quiet member, cancelled_atOnce goesOn live]
  constructor
  · rintro (⟨asked, rfl⟩ | ⟨reply, gets, rfl⟩)
    · exact .cancelled asked
    · cases gets with
      | own answered =>
        obtain ⟨cc, ticket, -, replies, -⟩ := reply_of_replies answered
        cases reply with
        | ok v => exact .answered answered
        | error e => exact .failed answered
        | dropped => exact closed ▸ .dropped answered
        | panicked text => exact absurd replies not_panicked
      | lost queued shut => exact closed ▸ .lost queued (isOpen.trans shut)
  · intro completes
    cases completes with
    | answered own => exact .inr ⟨_, .own own, rfl⟩
    | failed own => exact .inr ⟨_, .own own, rfl⟩
    | dropped own => exact .inr ⟨_, .own own, closed.symm⟩
    | lost queued shut => exact .inr ⟨_, .lost queued (isOpen.symm.trans shut), closed.symm⟩
    | cancelled asked => exact .inl ⟨asked, rfl⟩

theorem act_cancel (s : Session) (call : Nat) :
    (call ∈ s.calls.unfinished ∧
      (s.act (.calls (.cancel call))).1.calls = s.calls.cancel call) ∨
    (call ∉ s.calls.unfinished ∧ (s.act (.calls (.cancel call))).1.calls = s.calls) := by
  have acted : s.act (.calls (.cancel call)) = s.perform (.calls (.cancel call)) := by
    simp [act, Command.backend?, CallCommand.backend?, Command.needsLife]
  rw [acted]
  by_cases live : call ∈ s.calls.unfinished <;> simp [perform, CallSide.act, live]

theorem endings_route (sound : s.calls.Sound) (quiet : s.calls.Quiet) (alive : s.isAlive = true)
    (initialized : s.calls.phase.isInitialized = true) {b : Backend}
    (first : s.calls.backends[0]? = some b) {method : String} (other : isHandshake method = false)
    (params : Json) :
    endings (s.step (.calls (.call (.request method params)))).2.2 =
      if s.calls.isOpen 0 then [] else [(s.calls.nextCall, .error b.closedError)] := by
  have acted := act_call alive (.request method params)
  have early : (s.notedAtOnce (.calls (.call (.request method params)))).ended = [] := by
    rw [notedAtOnce, acted]
    rfl
  rw [endings_step, early, acted, List.nil_append]
  obtain ⟨s₁, es₁, es₂, started, sound₁, turns, effects⟩ :=
    sound.issue_steps quiet.fresh (.request method params)
  obtain ⟨none, -⟩ | ⟨b', rest, some, rfl, rfl⟩ := started.route initialized other
  · rw [show s.calls.backends = _ from none] at first
    cases first
  · have some : s.calls.backends = _ := some
    rw [some] at first
    cases first
    have channel := sound.channels b (some ▸ List.mem_cons_self)
    obtain ⟨-, rfl⟩ := turns.of_initialized (sound₁.proceeds .ends) initialized
    have reply := (channel.request_eq s.calls.nextCall method params).1
    -- no other request has its reply at this time
    have waits {α : Type} (f : Routed → Reply → α) :
        s.calls.routed.filterMap (fun r => r.reply.map (f r)) = [] :=
      List.filterMap_eq_nil_iff.mpr fun r member => by rw [quiet.routed r member]; rfl
    rw [effects, endings_append, endings_append, CallSide.endings_endRouted]
    simp only [List.filterMap_append, waits, reply, CallSide.isOpen, some]
    cases accepting : b.accepts <;> simp [accepting, CallSide.routedOutcome]

theorem awaits_step_cancel (quiet : s.calls.Quiet) {a : Attempt}
    (held : s.calls.attempt = some a) {call : Nat} (other : a.call ≠ call) {ref : RequestRef}
    (waits : a.awaits ref = true) :
    (s.step (.calls (.cancel call))).1.calls.awaits ref = true := by
  rw [step_calls]
  rcases act_cancel s call with ⟨-, after⟩ | ⟨-, after⟩
  · rw [after]
    have turn : (s.calls.cancel call).attempt = some a :=
      Option.filter_eq_some_iff.mpr ⟨held, by simpa using other⟩
    rw [(quiet.cancel held other).rests, CallSide.awaits, turn, Option.any_some, waits,
      Bool.true_or]
  · rw [after, quiet.rests, CallSide.awaits, held, Option.any_some, waits, Bool.true_or]

theorem unfinished_step_cancel (sound : s.calls.Sound) (quiet : s.calls.Quiet) (call : Nat) :
    call ∉ (s.step (.calls (.cancel call))).1.calls.unfinished := by
  have moved := act_moved s (.calls (.cancel call))
  have gone : call ∉ (s.act (.calls (.cancel call))).1.calls.unfinished := by
    rcases act_cancel s call with ⟨-, after⟩ | ⟨absent, after⟩
    · rw [after, CallSide.unfinished_cancel, List.mem_filter]
      simp
    · rwa [after]
  intro still
  have total := (sound.moved moved).settle_conserves (moved.few quiet) call
  have here := List.count_pos_iff.mpr still
  have absent := List.count_eq_zero_of_not_mem gone
  rw [step_calls] at here
  omega

end

variable {names : List String} {settings : Settings} {commands : List Command}

theorem routed_of_awaited {call : Nat} {method : String} {params : Json}
    (issued : (call, .request method params) ∈ (record names settings commands).issued)
    (other : isHandshake method = false)
    (awaited : ⟨call, 0⟩ ∈ (reached names settings commands).awaited) :
    ∃ r ∈ (reached names settings commands).routed, r.call = call :=
  routed_of_live issued other
    ((reached_sound names settings commands).1.of_awaits (CallSide.mem_awaited.mp awaited)).2

theorem awaited_of_routed {r : Routed} (member : r ∈ (reached names settings commands).routed) :
    ⟨r.call, 0⟩ ∈ (reached names settings commands).awaited :=
  CallSide.mem_awaited_of_routed member
    ((reached_sound names settings commands).2.routed r member)

theorem ended_or_awaited {call : Nat} {method : String} {params : Json}
    (issued : (call, .request method params) ∈ (record names settings commands).issued)
    (other : isHandshake method = false) :
    (∃ outcome, (call, outcome) ∈ (record names settings commands).ended) ∨
      ⟨call, 0⟩ ∈ (reached names settings commands).awaited := by
  obtain ⟨recorded, -⟩ := reached_recorded names settings commands
  rcases recorded.live_or_ended issued with live | ended
  · obtain ⟨r, member, rfl⟩ := routed_of_live issued other live
    exact .inr (awaited_of_routed member)
  · exact .inl ended

theorem awaited_snoc {c : Command} {call : Nat} {method : String} {params : Json}
    (issued : (call, .request method params) ∈ (record names settings (commands ++ [c])).issued)
    (other : isHandshake method = false)
    (live : ∀ outcome, (call, outcome) ∉ (record names settings commands).ended)
    (unended : ∀ outcome,
      (call, outcome) ∉ endings (((ofNames names settings).run commands).step c).2.2) :
    ⟨call, 0⟩ ∈ (((ofNames names settings).run commands).step c).1.calls.awaited := by
  rw [← reached_snoc]
  refine (ended_or_awaited issued other).resolve_left ?_
  rintro ⟨outcome, ended⟩
  rw [record_snoc, ← noted_eq, Ledger.ended_append] at ended
  exact (List.mem_append.mp ended).elim (live outcome) (unended outcome)

theorem first_of_routed {r : Routed} (member : r ∈ (reached names settings commands).routed) :
    ∃ b, (reached names settings commands).backends[0]? = some b ∧ names[0]? = some b.name := by
  obtain ⟨sound, quiet⟩ := reached_sound names settings commands
  have waits := (sound.routed_waits r member).mp (quiet.routed r member)
  have bound := (sound.requested _ waits).2.2
  have here := congrArg (·[0]?) (reached_names names settings commands)
  rw [List.getElem?_map, List.getElem?_eq_getElem bound] at here
  exact ⟨_, List.getElem?_eq_getElem bound, here.symm⟩

theorem awaited_step {c : Command} (goesOn : c.tearsDown = false)
    (kept : ∀ bs, c.onBackends bs = bs) {r : Routed}
    (member : r ∈ (reached names settings commands).routed)
    (unanswered : ∀ reply,
      (⟨r.call, 0⟩, reply) ∉ ((ofNames names settings).run commands).replies c)
    (uncancelled : c ≠ .calls (.cancel r.call)) :
    ⟨r.call, 0⟩ ∈ (((ofNames names settings).run commands).step c).1.calls.awaited := by
  obtain ⟨sound, quiet⟩ := reached_sound names settings commands
  obtain ⟨recorded, -⟩ := reached_recorded names settings commands
  obtain ⟨b, first, -⟩ := first_of_routed member
  obtain ⟨other, params, issued⟩ := recorded.accounts.asked.routed r member
  have live := CallSide.mem_unfinished_of_routed member
  have issued' : (r.call, .request r.method params) ∈
      (record names settings (commands ++ [c])).issued := by
    rw [record_snoc]
    exact List.mem_append_left _ issued
  refine awaited_snoc issued' other (fun _ old => recorded.not_mem_of_ended old live)
    fun outcome ended => ?_
  have completes :=
    (completes_iff sound quiet recorded.accounts.asked goesOn member first outcome).mp ended
  cases completes with
  | answered own => exact unanswered _ own
  | failed own => exact unanswered _ own
  | dropped own => exact unanswered _ own
  | cancelled asked => exact uncancelled asked
  | lost queued shut =>
    have same : (((ofNames names settings).run commands).step c).1.calls.isOpen 0 =
        (reached names settings commands).isOpen 0 := by
      have accepts := accepts_step sound quiet recorded.accounts.asked c
      rw [backends_act sound.channels, kept] at accepts
      exact any_accepts_congr accepts 0
    rw [same, CallSide.isOpen_of_queued sound.channels queued] at shut
    cases shut

theorem awaited_route (alive : ((ofNames names settings).run commands).isAlive = true)
    {method : String} (other : isHandshake method = false) (params : Json)
    (unended : endings (((ofNames names settings).run commands).step
      (.calls (.call (.request method params)))).2.2 = []) :
    ⟨(reached names settings commands).nextCall, 0⟩ ∈
      (((ofNames names settings).run commands).step
        (.calls (.call (.request method params)))).1.calls.awaited := by
  obtain ⟨recorded, -⟩ := reached_recorded names settings commands
  refine awaited_snoc (issued_call names settings commands alive _) other
    (fun _ old => Nat.lt_irrefl _ (recorded.ended_lt old)) fun outcome ended => ?_
  rw [unended] at ended
  cases ended

theorem reply_spares {c : CallCommand} {ticket : Nat} {reply : Reply} {ref : RequestRef}
    (replies : c.reply? = some (ticket, reply))
    (good : (reached names settings commands).ticket? ticket = some ref) :
    Spares ((ofNames names settings).run commands) (.calls c) ref.call := by
  intro other awaited differs
  obtain ⟨sound, -⟩ := reached_sound names settings commands
  rcases sound.awaited_cases awaited with ⟨a, held, waits, none⟩ | ⟨r, member, rfl⟩
  · have own := (Attempt.awaits_iff.mp waits).1
    have unawaited : (reached names settings commands).awaits ref = false := by
      have elsewhere : a.call ≠ ref.call := own ▸ differs
      simp [CallSide.awaits, held, none, Attempt.awaits, elsewhere]
    obtain ⟨result, step⟩ :=
      step_unawaited (reached_settled names settings commands) replies good unawaited
    rw [step]
    exact awaited
  · refine awaited_step ?_ (fun bs => ?_) member (fun reply' own => ?_) fun cancels => ?_
    · rfl
    · cases c with
      | respond | respondError | dropTicket => rfl
      | _ => cases replies
    · obtain ⟨c', ticket', same, replies', good'⟩ := reply_of_replies own
      cases same
      rw [replies] at replies'
      cases replies'
      rw [show ((ofNames names settings).run commands).calls.ticket? ticket = _ from good] at good'
      cases good'
      exact differs rfl
    · cases cancels
      cases replies

theorem cancel_spares (call : Nat) :
    Spares ((ofNames names settings).run commands) (.calls (.cancel call)) call := by
  intro other awaited differs
  obtain ⟨sound, quiet⟩ := reached_sound names settings commands
  rcases sound.awaited_cases awaited with ⟨a, held, waits, -⟩ | ⟨r, member, rfl⟩
  · have own := (Attempt.awaits_iff.mp waits).1
    exact CallSide.mem_awaited.mpr
      (awaits_step_cancel quiet held (own ▸ differs) waits)
  · refine awaited_step rfl (fun bs => rfl) member (fun reply own => ?_) fun cancels => ?_
    · cases own
    · cases cancels
      exact differs rfl

/-- Requests and answers match. What is waited for can be answered, one for one; a routed request is
    waited for until it ends, and it ends by its own responder, with its channel or with its call.
    No answer is used twice or reaches another call, and cancelling a call spares the others. -/
theorem requests_answered (names : List String) (settings : Settings) (commands : List Command) :
    let now := (ofNames names settings).run commands
    let l := record names settings commands
    (now.calls.outstanding.Perm now.calls.awaited ∧ now.calls.awaited.Nodup) ∧
    (∀ call method params, (call, .request method params) ∈ l.issued →
      isHandshake method = false →
      ((∃ outcome, (call, outcome) ∈ l.ended) ∨ ⟨call, 0⟩ ∈ now.calls.awaited) ∧
      (⟨call, 0⟩ ∈ now.calls.awaited → ∃ name, names[0]? = some name ∧
        ∀ c, c.tearsDown = false → ∀ outcome,
          (call, outcome) ∈ endings (now.step c).2.2 ↔ Completes now c name call outcome)) ∧
    (∀ name, names[0]? = some name → now.isAlive = true →
      now.calls.phase.isInitialized = true → ∀ method params, isHandshake method = false →
        let next := now.step (.calls (.call (.request method params)))
        (now.calls.isOpen 0 = true →
          endings next.2.2 = [] ∧ ⟨now.calls.nextCall, 0⟩ ∈ next.1.calls.awaited) ∧
        (now.calls.isOpen 0 = false → endings next.2.2 = [(now.calls.nextCall,
          .error ⟨-32803, "backend '" ++ name ++ "': channel closed", none⟩)])) ∧
    (l.answers.map Prod.fst).Nodup ∧
    (∀ c ticket reply ref, c.reply? = some (ticket, reply) →
      now.calls.ticket? ticket = some ref → Spares now (.calls c) ref.call ∧
        (ref ∉ now.calls.awaited → ∃ result, now.step (.calls c) =
          ({ now with calls := { now.calls with tickets := now.calls.tickets.set ticket none } },
            result, []))) ∧
    ∀ call, Spares now (.calls (.cancel call)) call ∧
      Dead (now.step (.calls (.cancel call))).1 call := by
  intro now l
  obtain ⟨sound, quiet⟩ := reached_sound names settings commands
  obtain ⟨recorded, -⟩ := reached_recorded names settings commands
  have settled := reached_settled names settings commands
  refine ⟨⟨outstanding_perm, sound.awaited_nodup⟩, fun call method params issued other =>
    ⟨ended_or_awaited issued other, fun awaited => ?_⟩, ?_, recorded.answers.once, ?_,
    fun call => ⟨cancel_spares call, ?_⟩⟩
  · obtain ⟨r, member, same⟩ := routed_of_awaited issued other awaited
    obtain ⟨b, first, named⟩ := first_of_routed member
    subst same
    exact ⟨b.name, named, fun c goesOn outcome =>
      completes_iff sound quiet recorded.accounts.asked goesOn member first outcome⟩
  · intro name named alive initialized method params other next
    obtain ⟨b, first, rfl⟩ := backend_of_name names settings commands named
    have ended := endings_route sound quiet alive initialized first other params
    refine ⟨fun isOpen => ?_, fun shut => ?_⟩
    · rw [isOpen, if_pos rfl] at ended
      exact ⟨ended, awaited_route alive other params ended⟩
    · rw [shut, if_neg Bool.false_ne_true] at ended
      exact ended
  · intro c ticket reply ref replies good
    refine ⟨reply_spares replies good, fun unawaited => ?_⟩
    have nobody : now.calls.awaits ref = false :=
      Bool.eq_false_iff.mpr fun waits => unawaited (CallSide.mem_awaited.mpr waits)
    exact step_unawaited settled replies good nobody
  · exact dead_of_ended (step_settled now _) (unfinished_step_cancel sound quiet call)

theorem requests_answered_of_dropped_responder :
    let commands : List Command := [.calls (.call (.request handshakeMethod .null)),
      .calls (.receive 0), .calls (.respond 0 .null), .calls (.call (.request "m" .null)),
      .calls (.receive 0)]
    let now := (ofNames ["a"] {}).run commands
    ⟨1, 0⟩ ∈ now.calls.awaited ∧
    (1, .error ⟨-32803, "backend 'a': channel closed", none⟩) ∈
      endings (now.step (.calls (.dropTicket 1))).2.2 ∧
    ⟨2, 0⟩ ∈ (now.step (.calls (.call (.request "m" .null)))).1.calls.awaited ∧
    Spares now (.calls (.dropTicket 1)) 1 := by
  intro commands now
  obtain ⟨-, completed, routed, -, spared, -⟩ := requests_answered ["a"] {} commands
  have other : isHandshake "m" = false := by decide
  obtain ⟨ended, completes⟩ := completed 1 "m" .null (List.mem_of_getElem? (i := 1) rfl) other
  have awaited : ⟨1, 0⟩ ∈ now.calls.awaited := by
    refine ended.resolve_left ?_
    rintro ⟨outcome, ended⟩
    cases ended with
    | tail _ ended => cases ended
  obtain ⟨name, named, iff⟩ := completes awaited
  cases named
  have dropped : (⟨1, 0⟩, .dropped) ∈ now.replies (.calls (.dropTicket 1)) :=
    List.mem_of_getElem? (i := 0) rfl
  refine ⟨awaited, (iff (.calls (.dropTicket 1)) rfl _).mpr (.dropped dropped), ?_,
    (spared (.dropTicket 1) 1 .dropped ⟨1, 0⟩ rfl rfl).1⟩
  exact ((routed "a" rfl rfl rfl "m" .null other).1 rfl).2

end Session

end Switchboard.Mux
