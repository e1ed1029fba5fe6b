import Switchboard.Proofs.Mux.Journal

namespace Switchboard.Mux

variable {names : List String} {turns : Nat → Prop} {l l' d : Ledger} {s s' : CallSide}
  {blocks : List Block} {es : List Effect} {a : Attempt}

/-- Where a reply to a handshake request comes from. As long as its call has not held the turn
    between commands, it is that of a closed channel. -/
inductive Origin (names : List String) (turns : Nat → Prop)
    (answers : List (RequestRef × Reply)) (s : CallSide) (call i : Nat) : Reply → Prop
  | ok {v : Json} : Origin names turns answers s call i (.ok v)
  | answered {e : RpcError} (own : (⟨call, i⟩, .error e) ∈ answers) (turn : turns call) :
      Origin names turns answers s call i (.error e)
  | dropped (own : (⟨call, i⟩, .dropped) ∈ answers) (turn : turns call) :
      Origin names turns answers s call i .dropped
  | lost (shut : s.isOpen i = false) (turn : turns call) :
      Origin names turns answers s call i .dropped
  | closed {name : String} (named : names[i]? = some name) (shut : s.isOpen i = false) :
      Origin names turns answers s call i (.error (channelClosed name))

theorem Origin.keep {answers : List (RequestRef × Reply)} {call i : Nat} {reply : Reply}
    (origin : Origin names turns answers s call i reply) (shut : s.KeepsShut s') :
    Origin names turns answers s' call i reply := by
  cases origin with
  | ok => exact .ok
  | answered own turn => exact .answered own turn
  | dropped own turn => exact .dropped own turn
  | lost closed turn => exact .lost (shut i closed) turn
  | closed named closed => exact .closed named (shut i closed)

structure Heard (names : List String) (turns : Nat → Prop) (l : Ledger) (s : CallSide) : Prop where
  channels : ∀ b ∈ s.backends, b.IsChannel
  named : s.backends.map Backend.name = names
  replies : ∀ a, s.attempt = some a →
    ∀ r ∈ a.finished, Origin names turns l.answers s a.call r.1 r.2

theorem Origin.blamed {answers : List (RequestRef × Reply)} {call i : Nat} {reply : Reply}
    (origin : Origin names turns answers s call i reply) (bad : ∀ v, reply ≠ .ok v)
    (backends : s.backends.map Backend.name = names) {name : String}
    (named : names[i]? = some name) :
    reply.isPanicked = false ∧ Blamed names answers s call name (s.errorOf i reply) ∧
      (turns call ∨ s.errorOf i reply = channelClosed name) := by
  have unanswered : s.errorOf i .dropped = channelClosed name := by
    rw [← backends, List.getElem?_map] at named
    obtain ⟨b, here, rfl⟩ := Option.map_eq_some_iff.mp named
    simp only [CallSide.errorOf, here]
    rfl
  cases origin with
  | ok => exact absurd rfl (bad _)
  | answered own turn => exact ⟨rfl, .answered named own, .inl turn⟩
  | dropped own turn => exact ⟨rfl, .dropped named own unanswered, .inl turn⟩
  | lost shut turn => exact ⟨rfl, .closed named shut unanswered, .inl turn⟩
  | closed named' shut =>
    cases Option.some.inj (named'.symm.trans named)
    exact ⟨rfl, .closed named shut rfl, .inr rfl⟩

namespace CallSide

theorem nameOf_of_named (backends : s.backends.map Backend.name = names) {i : Nat} {name : String}
    (named : names[i]? = some name) : s.nameOf i = name := by
  rw [← backends, List.getElem?_map] at named
  rw [nameOf, named]
  rfl

end CallSide

namespace Heard

theorem happens (heard : Heard names turns l s) (happens : s.Happens s' es) :
    Heard names turns (l ++ { ended := endings es }) s' where
  named := happens.kept.names.trans heard.named
  channels := happens.kept.channels heard.channels
  replies a' held' r member := by
    rw [Ledger.answers_append, List.append_nil]
    refine Origin.keep ?_ (happens.keepsShut heard.channels)
    have begun {call : Nat} {params : Json} {r : Nat × Reply}
        (member : r ∈ (s.begun call params).finished) :
        Origin names turns l.answers s call r.1 r.2 := by
      obtain ⟨i, reply⟩ := r
      obtain ⟨b, here, shut, rfl⟩ :=
        (CallSide.mem_begun_finished_of_channels heard.channels).mp member
      refine .closed (by rw [← heard.named, List.getElem?_map, here]; rfl) ?_
      rw [CallSide.isOpen, here]
      exact shut
    cases happens with
    | opens | turns =>
      rw [CallSide.opened_eq] at held'
      cases held'
      exact begun member
    | advances =>
      unfold CallSide.advance at held'
      split at held'
      · cases held'
        cases member
      · cases held'
      · cases held'
    | _ => exact heard.replies a' held' r member

theorem moved (heard : Heard names turns l s) (sound : s.Sound) (quiet : s.Quiet)
    (turn : ∀ call, s.attempt.map Attempt.call = some call → turns call) (moved : s.Moved s' d)
    (sane : ∀ r ∈ d.answers, r.2.isPanicked = false) : Heard names turns (l ++ d) s' where
  channels := (sound.moved moved).channels
  named := (moved.keeps sound).names.trans heard.named
  replies a' held' r member := by
    obtain ⟨a, held, ours⟩ := Option.map_eq_some_iff.mp (moved.turn_old (by rw [held']; rfl))
    rcases moved.hears sound held with
      ⟨-, gone, -⟩ | ⟨-, ⟨same, -⟩ | ⟨i, reply, -, arrived, gets⟩⟩
    · exact absurd (ours ▸ CallSide.mem_unfinished_of_attempt held') gone
    · cases same.symm.trans held'
      rw [(quiet.attempt _ held).1] at member
      cases member
    · cases arrived.symm.trans held'
      rw [show (a.arrive i reply).finished = _ from congrArg (· ++ _) (quiet.attempt a held).1,
        List.nil_append, List.mem_singleton] at member
      rw [member]
      have turned := turn a.call (by rw [held]; rfl)
      cases (gets i reply).mpr ⟨rfl, rfl⟩ with
      | own answered =>
        have own := List.mem_append_right l.answers answered
        cases reply with
        | ok v => exact .ok
        | error e => exact .answered own turned
        | dropped => exact .dropped own turned
        | panicked text => cases sane _ answered
      | lost _ shut => exact .lost shut turned

end Heard

def handshakeLogs (es : List Effect) : List Log := (logs es).filter Log.isOfHandshake

@[simp] theorem handshakeLogs_append (es es' : List Effect) :
    handshakeLogs (es ++ es') = handshakeLogs es ++ handshakeLogs es' := by
  simp [handshakeLogs]

namespace Journal

/-- The blocks after something happens, with what it writes. -/
def Goes (names : List String) (turns : Nat → Prop) (l : Ledger) (blocks : List Block)
    (s' : CallSide) (es : List Effect) : Prop :=
  ∃ blocks', blocks'.flatMap (Block.logs names.length) =
      blocks.flatMap (Block.logs names.length) ++ handshakeLogs es ∧
    Journal names turns (l ++ { ended := endings es }) s' blocks'

theorem goes_of_closing {before : List Block} {call : Nat} {closing : Closing}
    (writes : handshakeLogs es = closing.logs)
    (journal : Journal names turns (l ++ { ended := endings es }) s'
      (before ++ [⟨call, closing⟩])) :
    Goes names turns l (before ++ [⟨call, .silent⟩]) s' es :=
  ⟨_, by simp [writes, Block.logs, Closing.logs], journal⟩

theorem advances (journal : Journal names turns l s blocks) (observed : Observed l s)
    (heard : Heard names turns l s) (held : s.attempt = some a) :
    Goes names turns l blocks (s.advance a).1 (s.advance a).2 := by
  have uninitialized := observed.staged.unpublished (by simp [held])
  have turn : s.attempt.map Attempt.call = some a.call := by rw [held]; rfl
  have wf := observed.staged.attempt a held
  unfold CallSide.advance
  split
  · refine ⟨blocks, (List.append_nil _).symm, ?_⟩
    exact journal.quiet (fun _ => id) turn.symm rfl (.refl _) nofun
  · rename_i results stage
    have ended : (a.call, .ok (CallSide.merged (CallSide.agentsOf s.backends results) s.fallback)) ∈
        endings ({ s with attempt := none }.publish a.call results).2 := by
      rw [CallSide.endings_publish]
      exact List.mem_cons_self
    have closes : Closes names turns
        (l ++ { ended := endings ({ s with attempt := none }.publish a.call results).2 })
        ({ s with attempt := none }.publish a.call results).1 ⟨a.call, .published _⟩ :=
      .published (List.mem_append_right _ ended) rfl
    obtain ⟨before, rfl, after⟩ := journal.ends closes (fun _ => id) uninitialized turn rfl rfl rfl
      fun {c outcome} ends handshake => by
        rw [CallSide.endings_publish] at ends
        rcases List.mem_cons.mp ends with same | watches
        · exact congrArg Prod.fst same
        · obtain ⟨_, member, same⟩ := List.mem_map.mp watches
          cases same
          have asked := observed.booked.asked.watchers _ member
          exact absurd handshake (observed.booked.not_handshake asked Bool.false_ne_true)
    refine goes_of_closing ?_ after
    rw [handshakeLogs, CallSide.logs_publish, List.filter_append,
      List.filter_eq_self.mpr (Phase.isOfHandshake_warned _)]
    rfl
  · rename_i i reply stage
    obtain ⟨member, bad⟩ := Attempt.of_stage_failed stage
    have bound := (wf.got_of_finished member).1
    obtain ⟨name, named⟩ : ∃ name, names[i]? = some name := by
      rw [← List.length_map Backend.name, heard.named] at bound
      exact ⟨_, List.getElem?_eq_getElem bound⟩
    obtain ⟨sane, blamed, early⟩ :=
      (heard.replies a held _ member).blamed bad heard.named named
    have ended : (a.call, .error (s.errorOf i reply)) ∈ endings (s.failAttempt a i reply) := by
      rw [CallSide.endings_failAttempt]
      exact List.mem_cons_self
    have closes : Closes names turns (l ++ { ended := endings (s.failAttempt a i reply) })
        { s with attempt := none } ⟨a.call, .failed name (s.errorOf i reply)⟩ :=
      .failed (List.mem_append_right _ ended)
        (blamed.mono (List.subset_append_left _ _) fun _ => id) early
    obtain ⟨before, rfl, after⟩ := journal.ends closes (fun _ => id) uninitialized turn rfl rfl rfl
      fun {c outcome} ends _ => by
        rw [CallSide.endings_failAttempt] at ends
        exact congrArg Prod.fst (List.mem_singleton.mp ends)
    refine goes_of_closing ?_ after
    rw [handshakeLogs, CallSide.logs_failAttempt, sane, CallSide.nameOf_of_named heard.named named]
    simp [List.filter_map, Function.comp_def, Log.isOfHandshake, Closing.logs]

theorem opened (journal : Journal names turns l s blocks) (heard : Heard names turns l s)
    (uninitialized : s.phase = .uninitialized) (free : s.attempt = none) {call : Nat}
    {params : Json} (issued : (call, .request handshakeMethod params) ∈ l.issued)
    {waiting : List (Nat × Json)} {fresh : List (Nat × Ask)}
    (shut : s.KeepsShut { s.opened call params with waiting, fresh })
    (line : s.waiting.map Prod.fst ++ s.fresh.map Prod.fst =
      call :: (waiting.map Prod.fst ++ fresh.map Prod.fst)) :
    Goes names turns l blocks { s.opened call params with waiting, fresh }
      (CallSide.fanOutEffects s.backends params) := by
  have size : s.backends.length = names.length := by
    rw [← heard.named, List.length_map]
  refine ⟨blocks ++ [⟨call, .silent⟩], ?_, ?_⟩
  · rw [handshakeLogs, CallSide.logs_fanOutEffects, size, List.flatMap_append]
    rfl
  · rw [CallSide.opened_eq] at shut ⊢
    rw [CallSide.endings_fanOutEffects, Ledger.append_empty]
    exact journal.opens shut uninitialized free (Ledger.mem_handshakes.mpr ⟨_, issued⟩) rfl rfl line

theorem happens (journal : Journal names turns l s blocks) (observed : Observed l s)
    (heard : Heard names turns l s) (happens : s.Happens s' es) :
    Goes names turns l blocks s' es := by
  have asked := observed.booked.asked
  have shut := happens.keepsShut heard.channels
  -- a call that leaves the line keeps the order of those behind it
  have later {x : Nat × Ask} {rest : List (Nat × Ask)} (fresh : s.fresh = x :: rest) :
      (s.waiting.map Prod.fst ++ rest.map Prod.fst).Sublist
        (s.waiting.map Prod.fst ++ s.fresh.map Prod.fst) := by
    rw [fresh]
    exact (List.Sublist.refl _).append (List.sublist_cons_self ..)
  cases happens with
  | watches fresh =>
    exact ⟨blocks, (List.append_nil _).symm, journal.quiet shut rfl rfl (later fresh) nofun⟩
  | watched fresh =>
    refine ⟨blocks, (List.append_nil _).symm, journal.quiet shut rfl rfl (later fresh) ?_⟩
    intro c outcome ended handshake
    cases List.mem_singleton.mp ended
    have waits := asked.fresh _ (fresh ▸ List.mem_cons_self)
    exact absurd handshake (observed.booked.not_handshake waits Bool.false_ne_true)
  | @concludes call ask rest bs outcome es fresh other refused kept plain =>
    refine ⟨blocks, ?_, journal.quiet shut rfl rfl (later fresh) ?_⟩
    · rw [handshakeLogs_append, handshakeLogs,
        filter_eq_nil_of (logs_of_plain plain) fun _ => Log.isOfHandshake_of_isAboutNotifications]
      exact (List.append_nil _).symm
    · intro c outcome' ended handshake
      rw [endings_append, endings_of_plain plain] at ended
      cases List.mem_singleton.mp ended
      by_contra notRefused
      exact observed.booked.not_handshake (asked.fresh _ (fresh ▸ List.mem_cons_self))
        (fun isHandshake => notRefused (refused isHandshake)) handshake
  | stalls fresh _ plain =>
    refine ⟨blocks, ?_, journal.quiet shut rfl rfl (later fresh) ?_⟩
    · rw [handshakeLogs,
        filter_eq_nil_of (logs_of_plain plain) fun _ => Log.isOfHandshake_of_isAboutNotifications]
      exact (List.append_nil _).symm
    · rw [endings_of_plain plain]
      exact nofun
  | routes fresh =>
    exact ⟨blocks, (List.append_nil _).symm, journal.quiet shut rfl rfl (later fresh) nofun⟩
  | queues fresh =>
    refine ⟨blocks, (List.append_nil _).symm, journal.quiet shut rfl rfl ?_ nofun⟩
    rw [fresh, List.map_append, List.append_assoc]
    exact .refl _
  | opens fresh handshake uninitialized free empty =>
    have issued := asked.fresh _ (fresh ▸ List.mem_cons_self)
    rw [Asked.handshake_eq handshake] at issued
    refine journal.opened heard uninitialized free issued shut ?_
    rw [show (s.opened _ _).waiting = [] from empty, fresh, empty]
    rfl
  | turns next uninitialized free =>
    have issued := asked.waiting _ (next ▸ List.mem_cons_self)
    refine journal.opened heard uninitialized free issued shut ?_
    rw [next]
    rfl
  | refuses next =>
    refine ⟨blocks, (List.append_nil _).symm, journal.quiet shut rfl rfl ?_ ?_⟩
    · rw [next]
      exact (List.sublist_cons_self ..).append (.refl _)
    · intro c outcome ended _
      exact congrArg Prod.snd (List.mem_singleton.mp ended)
  | advances held => exact journal.advances observed heard held
  | ends =>
    refine ⟨blocks, ?_, journal.quiet shut rfl rfl (.refl _) ?_⟩
    · rw [handshakeLogs, CallSide.logs_endRouted]
      simp [List.filter_map, Function.comp_def, Log.isOfHandshake]
    · intro c outcome ended handshake
      rw [CallSide.endings_endRouted] at ended
      obtain ⟨r, member, replied⟩ := List.mem_filterMap.mp ended
      obtain ⟨reply, -, same⟩ := Option.map_eq_some_iff.mp replied
      cases same
      obtain ⟨method, params, issued⟩ := asked.routed r member
      refine absurd handshake (observed.booked.not_handshake issued ?_)
      rw [Ask.isHandshake, method]
      exact Bool.false_ne_true

end Journal

structure Journaled (names : List String) (turns : Nat → Prop) (l : Ledger) (s : CallSide)
    (records : List Log) : Prop where
  observed : Observed l s
  heard : Heard names turns l s
  blocks : ∃ blocks, records = blocks.flatMap (Block.logs names.length) ∧
    Journal names turns l s blocks

theorem Ledger.append_ended (l : Ledger) (ended more : List (Nat × Outcome)) :
    l ++ { ended := ended ++ more } = l ++ { ended } ++ { ended := more } := by
  rw [append_assoc]
  rfl

namespace Journaled

variable {records : List Log}

theorem runs (journaled : Journaled names turns l s records) (runs : s.Runs s' es) :
    Journaled names turns (l ++ { ended := endings es }) s' (records ++ handshakeLogs es) := by
  induction runs with
  | rest =>
    rw [endings_nil, Ledger.append_empty, show handshakeLogs [] = [] from rfl, List.append_nil]
    exact journaled
  | more runs next ih =>
    obtain ⟨observed, heard, blocks, written, journal⟩ := ih
    obtain ⟨blocks', writes, after⟩ := journal.happens observed heard next
    rw [endings_append, Ledger.append_ended, handshakeLogs_append, ← List.append_assoc]
    exact ⟨observed.runs next.runs, heard.happens next, blocks', by rw [writes, written], after⟩

theorem moved (journaled : Journaled names turns l s records) (sound : s.Sound) (quiet : s.Quiet)
    (turn : ∀ call, s.attempt.map Attempt.call = some call → turns call) (moved : s.Moved s' d)
    (sane : ∀ r ∈ d.answers, r.2.isPanicked = false) :
    Journaled names turns (l ++ d) s' records := by
  obtain ⟨observed, heard, blocks, written, journal⟩ := journaled
  exact ⟨observed.moved moved, heard.moved sound quiet turn moved sane, blocks, written,
    journal.moved observed sound.channels quiet turn moved⟩

theorem turned (journaled : Journaled names turns l s records) (quiet : s.Quiet)
    {turns' : Nat → Prop} (more : ∀ call, turns call → turns' call)
    (only : ∀ call, turns' call → turns call ∨ s.attempt.map Attempt.call = some call) :
    Journaled names turns' l s records := by
  obtain ⟨observed, heard, blocks, written, journal⟩ := journaled
  -- no reply waits to be looked at when all is at rest
  have none : ∀ a, s.attempt = some a →
      ∀ r ∈ a.finished, Origin names turns' l.answers s a.call r.1 r.2 := by
    intro a held
    rw [(quiet.attempt a held).1]
    exact nofun
  exact ⟨observed, ⟨heard.channels, heard.named, none⟩, blocks, written, journal.turned more only⟩

end Journaled

namespace Session

variable {settings : Settings} {commands : List Command} {c : Command} {call : Nat}

def HeldTurn (names : List String) (settings : Settings) (commands : List Command) (call : Nat) :
    Prop :=
  ∃ before after, commands = before ++ after ∧
    (reached names settings before).attempt.map Attempt.call = some call

theorem heldTurn_now
    (held : (reached names settings commands).attempt.map Attempt.call = some call) :
    HeldTurn names settings commands call :=
  ⟨commands, [], (List.append_nil _).symm, held⟩

theorem heldTurn_snoc : HeldTurn names settings (commands ++ [c]) call ↔
    HeldTurn names settings commands call ∨
      (reached names settings (commands ++ [c])).attempt.map Attempt.call = some call := by
  constructor
  · rintro ⟨before, after, split, held⟩
    rcases List.eq_nil_or_concat' after with rfl | ⟨after, last, rfl⟩
    · rw [List.append_nil] at split
      exact .inr (split ▸ held)
    · rw [← List.append_assoc] at split
      obtain ⟨rfl, -⟩ := List.append_inj' split rfl
      exact .inl ⟨before, after, rfl, held⟩
  · rintro (⟨before, after, rfl, held⟩ | held)
    · exact ⟨before, after ++ [c], List.append_assoc .., held⟩
    · exact heldTurn_now held

theorem sane_replies (s : Session) (c : Command) :
    ∀ r ∈ (s.notedAtOnce c).answers, r.2.isPanicked = false := by
  rintro ⟨ref, reply⟩ member
  obtain ⟨cc, ticket, -, replies, -⟩ := reply_of_replies member
  cases reply with
  | panicked text => exact absurd replies not_panicked
  | _ => rfl

theorem journaled (names : List String) (settings : Settings)
    (goesOn : ∀ c ∈ commands, c.tearsDown = false) :
    Journaled names (HeldTurn names settings commands) (record names settings commands)
      (reached names settings commands)
      (handshakeLogs ((ofNames names settings).effects commands)) := by
  induction commands using List.reverseRecOn with
  | nil =>
    refine ⟨observed_ofBackends _ _, ⟨(reached_sound names settings []).1.channels,
      reached_names names settings [], nofun⟩, [], rfl, nofun, .nil, nofun, nofun, nofun, ?_, nofun⟩
    rintro call ⟨before, after, split, held⟩
    obtain ⟨rfl, -⟩ := List.append_eq_nil_iff.mp split.symm
    cases held
  | append_singleton commands c ih =>
    obtain ⟨before, last⟩ := List.forall_mem_append.mp goesOn
    obtain ⟨sound, quiet⟩ := reached_sound names settings commands
    obtain ⟨-, quiet'⟩ := reached_sound names settings (commands ++ [c])
    have acted := (ih before).moved sound quiet (fun _ => heldTurn_now)
      (act_moved ((ofNames names settings).run commands) c) (sane_replies _ c)
    have settled := acted.runs (CallSide.settle_runs _)
    have writes : handshakeLogs ((ofNames names settings).effects (commands ++ [c])) =
        handshakeLogs ((ofNames names settings).effects commands) ++
          handshakeLogs (((ofNames names settings).run commands).act c).1.calls.settle.2 := by
      rw [effects_snoc, handshakeLogs_append]
      exact congrArg _ (filter_logs_step (last c List.mem_cons_self)
        fun _ => Log.isOfHandshake_of_isOfForwarder)
    rw [writes]
    rw [reached_snoc] at quiet' ⊢
    rw [record_snoc, ← Ledger.append_assoc]
    refine settled.turned quiet' ?_ ?_
    · intro call turn
      exact heldTurn_snoc.mpr (.inl turn)
    · intro call turn
      have before := heldTurn_snoc.mp turn
      rw [reached_snoc] at before
      exact before

end Session

end Switchboard.Mux
