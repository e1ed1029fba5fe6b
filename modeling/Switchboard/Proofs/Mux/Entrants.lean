import Switchboard.Proofs.Mux.Decisions

namespace Switchboard.Mux

namespace CallSide

variable {s s' : CallSide} {call : Nat}

/-- A list of backends with the names of another one, and with its open channels. -/
structure Alike (bs bs' : List Backend) : Prop where
  names : bs'.map Backend.name = bs.map Backend.name
  accepts : bs'.map Backend.accepts = bs.map Backend.accepts

theorem SentTo.alike {calls : List Nat} {bs bs' : List Backend} (sent : SentTo calls bs bs') :
    Alike bs bs' :=
  ⟨sent.names, sent.accepts⟩

theorem Alike.refl (bs : List Backend) : Alike bs bs := ⟨rfl, rfl⟩

theorem Alike.length {bs bs' : List Backend} (alike : Alike bs bs') : bs'.length = bs.length := by
  simpa using congrArg List.length alike.names

def ClosedBy (bs : List Backend) (outcome : Outcome) : Prop :=
  ∃ b ∈ bs, b.accepts = false ∧ outcome = .error b.closedError

theorem Alike.closedBy {bs bs' : List Backend} (alike : Alike bs bs') {outcome : Outcome}
    (closed : ClosedBy bs' outcome) : ClosedBy bs outcome := by
  obtain ⟨b', member, shut, rfl⟩ := closed
  obtain ⟨i, bound, rfl⟩ := List.getElem_of_mem member
  have bound' : i < bs.length := alike.length ▸ bound
  have name := List.getElem_of_eq alike.names (i := i) (by simpa using bound)
  have accepts := List.getElem_of_eq alike.accepts (i := i) (by simpa using bound)
  simp only [List.getElem_map] at name accepts
  exact ⟨bs[i], List.getElem_mem bound', accepts ▸ shut, by rw [Backend.closedError, name]; rfl⟩

theorem Alike.allOpen {bs bs' : List Backend} (alike : Alike bs bs')
    (allOpen : ∀ b ∈ bs', b.accepts = true) : ∀ b ∈ bs, b.accepts = true := by
  intro b member
  have here : b.accepts ∈ bs'.map Backend.accepts :=
    alike.accepts ▸ List.mem_map_of_mem member
  obtain ⟨b', member', same⟩ := List.mem_map.mp here
  exact same ▸ allOpen b' member'

/-- A handshake call at the time when turns are taken: it waits for its turn, or it has just taken
    it and no reply has been looked at. -/
inductive Entrant (bs : List Backend) (s : CallSide) (call : Nat) : Prop
  | waits (member : call ∈ s.waiting.map Prod.fst) : Entrant bs s call
  | starts {t : CallSide} {params : Json} (channels : ∀ b ∈ t.backends, b.IsChannel)
      (held : s.attempt = some (t.begun call params)) (alike : Alike bs t.backends) :
      Entrant bs s call

theorem Entrant.unfinished {bs : List Backend} (entrant : s.Entrant bs call) :
    call ∈ s.unfinished := by
  cases entrant with
  | waits member => exact mem_unfinished_of_unstarted (List.mem_append_right _ member)
  | starts channels held => exact mem_unfinished_of_attempt held

theorem Started.entrant {l : Ledger} (sound : s.Sound) (recorded : Recorded l s)
    (some : s.backends ≠ []) {new : Nat} {ask : Ask} (fresh : s.fresh = [(new, ask)])
    {es : List Effect} (started : Started { s with fresh := [] } new ask s' es) {params : Json}
    (handshake : (call, .request handshakeMethod params) ∈ l.issued)
    (unstarted : call ∈ s.unstarted) :
    s'.Entrant s.backends call ∧ Alike s.backends s'.backends ∨
      s'.phase.isInitialized = true ∧ (call, .error invokedTwice) ∈ endings es := by
  rw [CallSide.unstarted, fresh, List.map_cons, List.map_nil, List.singleton_append,
    List.mem_cons] at unstarted
  rcases unstarted with rfl | waits
  · have here : (call, ask) ∈ l.issued :=
      recorded.accounts.asked.fresh _ (fresh ▸ List.mem_cons_self)
    cases recorded.ask_unique here handshake
    cases started with
    | early _ other | routed _ other | unrouted _ other => cases other
    | queued => exact .inl ⟨.waits (by simp), .refl _⟩
    | opened =>
      rw [opened_eq]
      exact .inl ⟨.starts (t := { s with fresh := [] }) sound.channels rfl (.refl _),
        (SentTo.request sound.channels ..).alike⟩
    | alone _ _ _ _ none => exact absurd none some
    | twice initialized => exact .inr ⟨initialized, List.mem_singleton_self _⟩
  · have occupied : s.waiting ≠ [] := fun none => by
      rw [none] at waits
      cases waits
    have uninitialized := (sound.turns (.inr occupied)).1
    have same := started.backends_of_waiting uninitialized occupied
    obtain ⟨w, member, rfl⟩ := List.mem_map.mp waits
    exact .inl ⟨.waits (List.mem_map_of_mem (started.waiting member)), same ▸ .refl _⟩

theorem HandshakesRun.ends_of_entrant {bs : List Backend} (sound : s.Sound) {es : List Effect}
    (run : s.HandshakesRun s' es) (entrant : s.Entrant bs call) (alike : Alike bs s.backends)
    {outcome : Outcome} (ended : (call, outcome) ∈ endings es) :
    outcome = .error invokedTwice ∧ s'.phase.isInitialized = true ∨ ClosedBy bs outcome := by
  -- an entrant that holds the turn has no reply but those of closed channels
  have held {a : Attempt} (here : s.attempt = some a) (ours : call = a.call) :
      ∃ t params, (∀ b ∈ t.backends, b.IsChannel) ∧ a = CallSide.begun t call params ∧
        Alike bs t.backends := by
    cases entrant with
    | waits member =>
      exact absurd (List.mem_append_right _ (ours ▸ member)) (sound.started here)
    | @starts t params channels held alike =>
      rw [here, Option.some.injEq] at held
      exact ⟨t, params, channels, held, alike⟩
  have freed {freed : List (Nat × Outcome)} (free : s.Frees freed)
      (member : (call, outcome) ∈ freed) : ClosedBy bs outcome := by
    rcases free with ⟨-, rfl⟩ | ⟨a, i, reply, here, stage, rfl⟩
    · cases member
    · obtain ⟨ours, rfl⟩ := Prod.mk.inj (List.mem_singleton.mp member)
      obtain ⟨t, params, channels, rfl, alike⟩ := held here ours
      obtain ⟨b, there, shut, rfl⟩ :=
        (mem_begun_finished_of_channels channels).mp (Attempt.of_stage_failed stage).1
      exact alike.closedBy ⟨b, List.mem_of_getElem? there, shut, rfl⟩
  cases run with
  | idle | pending => cases ended
  | @published a results es here stage unsent conclusion =>
    rw [conclusion, List.mem_cons, List.mem_append] at ended
    rcases ended with same | watches | waits
    · -- nobody publishes who has just started
      obtain ⟨ours, -⟩ := Prod.mk.inj same
      obtain ⟨t, params, channels, rfl, alike'⟩ := held here ours
      obtain ⟨values, length, -, known⟩ :=
        (begun_wellFormed t call params).of_stage_complete stage
      have positive : 0 < values.length := by
        rw [length, alike'.length, ← alike.length]
        exact List.length_pos_iff.mpr (sound.turns (.inl (by simp [here]))).2
      have first := (known 0 _).mp (List.getElem?_eq_getElem positive)
      exact absurd first.2 (begun_got_ne_ok channels call params 0 _)
    · obtain ⟨w, member, same⟩ := List.mem_map.mp watches
      obtain ⟨rfl, -⟩ := Prod.mk.inj same
      have total := sound.count_le_one w
      have watched := List.count_pos_iff.mpr member
      have inTurn : 0 < (s.attempt.map Attempt.call).toList.count w ∨ 0 < s.unstarted.count w := by
        cases entrant with
        | waits member => exact .inr (List.count_pos_iff.mpr (List.mem_append_right _ member))
        | starts channels held => exact .inl (by simp [held, begun_call])
      rw [count_unfinished] at total
      omega
    · obtain ⟨w, member, same⟩ := List.mem_map.mp waits
      obtain ⟨-, rfl⟩ := Prod.mk.inj same
      exact .inl ⟨rfl, rfl⟩
  | passed free _ _ _ conclusion =>
    rw [conclusion] at ended
    exact .inr (freed free ended)
  | drained free _ _ _ _ _ conclusion _ errors =>
    rw [conclusion] at ended
    rcases List.mem_append.mp ended with ended | ended
    · exact .inr (freed free ended)
    · obtain ⟨b, member, shut, same⟩ := errors _ ended
      exact .inr (alike.closedBy ⟨b, member, shut, same⟩)

theorem HandshakesRun.held_of_entrant {bs : List Backend} (sound : s.Sound) {es : List Effect}
    (run : s.HandshakesRun s' es) (entrant : s.Entrant bs call) (alike : Alike bs s.backends)
    {a : Attempt} (held : s'.attempt = some a) (ours : a.call = call) :
    (∀ b ∈ bs, b.accepts = true) ∧ a.running = List.range bs.length := by
  cases run with
  | idle free empty =>
    rw [free] at held
    cases held
  | @pending a' results here stage =>
    cases held
    cases entrant with
    | waits member =>
      exact absurd (List.mem_append_right _ (ours ▸ member)) (sound.started here)
    | @starts t params channels start alike' =>
      rw [here, Option.some.injEq] at start
      subst start
      have allOpen : ∀ b ∈ t.backends, b.accepts = true := by
        by_contra shut
        simp only [not_forall, Bool.not_eq_true, exists_prop] at shut
        obtain ⟨i, b, -, -, failed⟩ := begun_stage_of_closed channels shut call params
        rw [stage] at failed
        cases failed
      exact ⟨alike'.allOpen allOpen,
        alike'.length ▸ (begun_stage_of_open channels allOpen call params).2.1⟩
  | published => cases held
  | @passed freed next params rest es free line allOpen =>
    rw [opened_eq] at held
    cases held
    exact ⟨alike.allOpen allOpen,
      alike.length ▸ (begun_stage_of_open sound.channels allOpen _ params).2.1⟩
  | drained => cases held

/-- What becomes of a handshake call that has sent nothing yet: it goes on waiting, is refused
    behind a published handshake, fails over a closed channel, or starts over open ones. -/
theorem Sound.settle_of_unstarted {l : Ledger} (sound : s.Sound) (few : s.fresh.length ≤ 1)
    (recorded : Recorded l s) (some : s.backends ≠ []) {params : Json}
    (handshake : (call, .request handshakeMethod params) ∈ l.issued)
    (unstarted : call ∈ s.unstarted) :
    (∀ outcome, (call, outcome) ∈ endings s.settle.2 →
      outcome = .error invokedTwice ∧ s.settle.1.phase.isInitialized = true ∨
        ClosedBy s.backends outcome) ∧
    ∀ a, s.settle.1.attempt = .some a → a.call = call →
      (∀ b ∈ s.backends, b.accepts = true) ∧ a.running = List.range s.backends.length := by
  obtain ⟨s₁, es₁, es₂, started, sound₁, turns, effects⟩ := settle_steps sound few
  have sound₂ := sound₁.proceeds .ends
  obtain ⟨-, -, conserved⟩ := sound.of_started started
  have first : (s₁.Entrant s.backends call ∧ Alike s.backends s₁.backends) ∨
      s₁.phase.isInitialized = true ∧ (call, .error invokedTwice) ∈ endings es₁ := by
    rcases started with ⟨fresh, rfl, rfl⟩ | ⟨new, ask, fresh, started⟩
    · rw [CallSide.unstarted, fresh] at unstarted
      exact .inl ⟨.waits unstarted, .refl _⟩
    · exact started.entrant sound recorded some fresh handshake unstarted
  have total := sound.settle_conserves few call
  have once := sound.count_le_one call
  rcases first with ⟨entrant, alike⟩ | ⟨initialized, refused⟩
  · have entrant₂ : s₁.endRouted.1.Entrant s.backends call := by
      cases entrant with
      | waits member => exact .waits member
      | starts channels held alike => exact .starts channels held alike
    refine ⟨fun outcome ended => ?_, fun a held ours =>
      turns.held_of_entrant sound₂ entrant₂ alike held ours⟩
    rw [effects, endings_append, List.mem_append] at ended
    refine ended.elim (fun early => absurd early ?_) (turns.ends_of_entrant sound₂ entrant₂ alike)
    exact sound.unended (conserved call) entrant₂.unfinished outcome
  · have ended : (call, .error invokedTwice) ∈ endings s.settle.2 := by
      rw [effects, endings_append, endings_append]
      exact List.mem_append_left _ (List.mem_append_left _ refused)
    refine ⟨fun outcome other => .inl ⟨congrArg Prod.snd
      (List.inj_on_of_nodup_map (sound.settle_distinct few) other ended rfl), ?_⟩,
      fun a held ours => ?_⟩
    · have keeps := (Proceeds.turns turns).keeps sound₂
      cases phase : s₁.phase with
      | uninitialized =>
        rw [phase] at initialized
        cases initialized
      | initialized agents =>
        rw [keeps.phase agents phase]
        rfl
    · have still := List.count_pos_iff.mpr (mem_unfinished_of_attempt held)
      have gone : 0 < ((endings s.settle.2).map Prod.fst).count call :=
        List.count_pos_iff.mpr (List.mem_map_of_mem ended)
      rw [ours] at still
      omega

end CallSide

end Switchboard.Mux
