import Switchboard.Proofs.Mux.Publication

namespace Switchboard.Mux

namespace CallSide

theorem broadcast_sendsNone (method : String) (params : Json) (index : Nat) (bs : List Backend) :
    ∀ e ∈ (broadcast method params index bs).2.2, e.sendsHandshake = false := by
  induction bs generalizing index with
  | nil => nofun
  | cons b rest ih =>
    rw [broadcast]
    dsimp only
    split
    · exact List.forall_mem_cons.mpr ⟨rfl, ih (index + 1)⟩
    · simp [Effect.sendsHandshake]
    · simp [Effect.sendsHandshake]

theorem endRouted_sendsNone (s : CallSide) : ∀ e ∈ s.endRouted.2, e.sendsHandshake = false := by
  intro e member
  rcases mem_endRouted member with ⟨_, _, rfl⟩ | ⟨_, _, rfl⟩ <;> rfl

theorem sendsNone_of_unsent {e : Effect} (unsent : e.isSent = false) :
    e.sendsHandshake = false := by
  cases e with
  | sent => cases unsent
  | _ => rfl

variable {s s' : CallSide}

theorem Proceeds.sendsNone (sound : s.Sound) {es : List Effect} (proceeds : s.Proceeds s' es)
    (initialized : s'.phase.isInitialized = true) : ∀ e ∈ es, e.sendsHandshake = false := by
  have differs (uninitialized : s.phase = .uninitialized) (same : s'.phase = s.phase) : False := by
    rw [same, uninitialized] at initialized
    cases initialized
  cases proceeds with
  | starts fresh started =>
    cases started with
    | watches | watched | dropped | early | queued | twice | unrouted =>
      simp [Effect.sendsHandshake]
    | @broadcast method params bs outcome es before sent silent queues taken =>
      intro e member
      rcases List.mem_append.mp member with member | member
      · have none := broadcast_sendsNone method params 0 s.backends
        rcases taken with ⟨-, result⟩ | ⟨_, -, -, -, result⟩
        · rw [show CallSide.broadcast method params 0 s.backends = _ from result] at none
          exact none e member
        · rw [show CallSide.broadcast method params 0 s.backends = _ from result] at none
          exact none e member
      · rw [List.mem_singleton.mp member]
        rfl
    | opened uninitialized =>
      exact (differs uninitialized (by rw [opened_eq])).elim
    | alone uninitialized handshake free empty none unsent =>
      exact fun e member => sendsNone_of_unsent (unsent e member)
    | routed before other some => simp [Effect.sendsHandshake, other]
  | ends => exact endRouted_sendsNone s
  | turns run =>
    cases run with
    | idle => nofun
    | pending => nofun
    | published held stage unsent =>
      exact fun e member => sendsNone_of_unsent (unsent e member)
    | passed free next =>
      exact (differs (sound.turns (.inr (by simp [next]))).1 (by rw [opened_eq])).elim
    | drained free busy => exact (differs (sound.turns busy).1 rfl).elim

/-- No reply has come for the handshake that holds the turn, and one still can. -/
def Unheard (s : CallSide) : Prop := ∀ a, s.attempt = some a → a.finished = [] ∧ a.running ≠ []

theorem Moved.unheard (quiet : s.Quiet) {d : Ledger} (moved : s.Moved s' d) :
    s'.Unheard ∨ s'.fresh = [] ∧ d.ended = [] := by
  cases moved with
  | cancelled pending =>
    exact .inl fun a held => quiet.attempt a (Option.filter_eq_some_iff.mp held).1
  | tornDown => exact .inl nofun
  | answered | closed => exact .inr ⟨quiet.fresh, rfl⟩
  | _ => exact .inl quiet.attempt

theorem Unheard.incomplete (unheard : s.Unheard) (a : Attempt) (held : s.attempt = some a)
    (results : List (Option Json)) : a.stage ≠ .complete results := by
  obtain ⟨none, running⟩ := unheard a held
  simp [Attempt.stage, none, Attempt.join, running]

theorem Started.unheard (channels : ∀ b ∈ s.backends, b.IsChannel) {call : Nat} {ask : Ask}
    {es : List Effect} (started : s.Started call ask s' es) (unheard : s.Unheard) :
    ∀ a, s'.attempt = some a → ∀ results, a.stage ≠ .complete results := by
  cases started with
  | @opened method params _ _ _ _ some =>
    intro a held results
    rw [opened_eq] at held
    cases held
    by_cases allOpen : ∀ b ∈ s.backends, b.accepts = true
    · rw [(begun_stage_of_open channels allOpen call params).2.2, if_neg some]
      exact nofun
    · have closed : ∃ b ∈ s.backends, b.accepts = false := by
        simpa only [not_forall, Bool.not_eq_true, exists_prop] using allOpen
      obtain ⟨i, b, -, -, stage⟩ := begun_stage_of_closed channels closed call params
      rw [stage]
      exact nofun
  | _ => exact unheard.incomplete

theorem HandshakesRun.phase_of_unheard {es : List Effect} (run : s.HandshakesRun s' es)
    (unready : ∀ a, s.attempt = some a → ∀ results, a.stage ≠ .complete results) :
    s'.phase = s.phase := by
  cases run with
  | published held stage => exact absurd stage (unready _ held _)
  | passed => rw [opened_eq]
  | _ => rfl

variable {l d : Ledger}

theorem Moved.uninitialized_of_ended (sound : s.Sound) (quiet : s.Quiet)
    (recorded : Recorded l s) (moved : s.Moved s' d) {call : Nat} {outcome : Outcome}
    (ended : (call, outcome) ∈ d.ended) {params : Json}
    (handshake : (call, .request handshakeMethod params) ∈ l.issued) :
    s.phase = .uninitialized ∧ s'.fresh = [] := by
  have inLine (waits : call ∈ s.unfinished) : s.phase = .uninitialized := by
    have member := recorded.mem_line sound handshake waits quiet.fresh
    refine (sound.turns ?_).1
    rcases List.mem_append.mp member with held | waiting
    · exact .inl fun none => by simp [none] at held
    · exact .inr fun none => by simp [none] at waiting
  cases moved with
  | cancelled pending =>
    cases List.mem_singleton.mp ended
    exact ⟨inLine pending, by simp [cancel, quiet.fresh]⟩
  | tornDown =>
    obtain ⟨call, waits, same⟩ := List.mem_map.mp ended
    cases same
    exact ⟨inLine waits, rfl⟩
  | _ => cases ended

theorem Moved.phase (moved : s.Moved s' d) : s'.phase = s.phase := by
  cases moved <;> rfl

/-- How a handshake call ends between two states when it is over in the second: it published, or it
    was refused and never sent a request. -/
def Refused (s s' : CallSide) (call : Nat) (outcome : Outcome) : Prop :=
  (s.phase = .uninitialized ∧ outcome.isOk = true) ∨
    outcome = .error invokedTwice ∧ (call ∈ s.unstarted ∨ s.nextCall ≤ call) ∧
      ∀ i, s'.copies ⟨call, i⟩ = 0

theorem Proceeds.refused {s₀ s₁ : CallSide} (before : s₀.Keeps s) (sound : s.Sound)
    (recorded : Recorded l s) {es : List Effect} (proceeds : s.Proceeds s' es)
    (after : s'.Keeps s₁) (initialized : s'.phase.isInitialized = true) {call : Nat}
    {outcome : Outcome} (ended : (call, outcome) ∈ endings es) {params : Json}
    (handshake : (call, .request handshakeMethod params) ∈ l.issued) :
    Refused s₀ s₁ call outcome := by
  have decided : s'.phase ≠ .uninitialized := fun none => by
    rw [none] at initialized
    cases initialized
  cases proceeds.endsBy sound recorded ended handshake with
  | published uninitialized => exact .inl ⟨before.uninitialized uninitialized, rfl⟩
  | failed open' => exact absurd open' decided
  | closed open' => exact absurd open' decided
  | refused _ waits silent =>
    have recorded' := recorded.proceeds sound proceeds
    have issued : call < s'.nextCall := by
      rw [proceeds.nextCall]
      exact recorded.issued_lt handshake
    have started : call ∉ s'.unstarted := fun waits =>
      recorded'.not_mem_of_ended (List.mem_append_right _ ended) (mem_unfinished_of_unstarted waits)
    refine .inr ⟨rfl, ?_, fun i => after.spent issued started (silent i)⟩
    by_cases old : call < s₀.nextCall
    · exact .inl (before.unstarted call old waits)
    · exact .inr (Nat.le_of_not_lt old)

/-- When the handshake is over after a step, no backend was sent one in it, and the other handshake
    calls that it ended were refused. -/
theorem Moved.settle_refused {s₀ : CallSide} (sound : s₀.Sound) (quiet : s₀.Quiet)
    (recorded : Recorded l s₀) (moved : s₀.Moved s d)
    (initialized : s.settle.1.phase.isInitialized = true) :
    (∀ e ∈ s.settle.2, e.sendsHandshake = false) ∧
      ∀ {call outcome params}, (call, outcome) ∈ d.ended ++ endings s.settle.2 →
        (call, .request handshakeMethod params) ∈ (l ++ d).issued →
          Refused s₀ s.settle.1 call outcome := by
  have soundMoved := sound.moved moved
  have recordedMoved := recorded.moved sound moved
  have keptMoved := moved.keeps sound
  obtain ⟨s₁, es₁, es₂, started, sound₁, turns, effects⟩ :=
    settle_steps soundMoved (moved.few quiet)
  have sound₂ := sound₁.proceeds .ends
  have kept₂ := (Proceeds.ends (s := s₁)).keeps sound₁
  have kept₃ := (Proceeds.turns turns).keeps sound₂
  -- the new call leaves the phase as it is in the end
  have first {call : Nat} {ask : Ask} (fresh : s.fresh = [(call, ask)])
      (started : Started { s with fresh := [] } call ask s₁ es₁) :
      s₁.phase.isInitialized = true := by
    have unheard := (moved.unheard quiet).resolve_right fun none => by simp [fresh] at none
    have unready :=
      Started.unheard (s := { s with fresh := [] }) soundMoved.channels started unheard
    have same : s.settle.1.phase = s₁.phase := turns.phase_of_unheard unready
    rwa [← same]
  constructor
  · intro e member
    rw [effects] at member
    rcases List.mem_append.mp member with member | member
    · rcases List.mem_append.mp member with member | member
      · rcases started with ⟨-, -, rfl⟩ | ⟨call, ask, fresh, started⟩
        · cases member
        · exact (Proceeds.starts fresh started).sendsNone soundMoved (first fresh started) e member
      · exact endRouted_sendsNone s₁ e member
    · exact (Proceeds.turns turns).sendsNone sound₂ initialized e member
  · intro call outcome params ended handshake
    rw [effects, endings_append, endings_append] at ended
    rcases List.mem_append.mp ended with ended | ended
    · -- a cancelled handshake call would leave the handshake open
      have waits : s₀.phase = .uninitialized ∧ s.fresh = [] := by
        refine moved.uninitialized_of_ended sound quiet recorded ended
          ((List.mem_append.mp handshake).resolve_right fun new => ?_)
        cases moved with
        | issued => cases ended
        | _ => cases new
      have unheard := (moved.unheard quiet).resolve_right fun none => by simp [none.2] at ended
      rcases started with ⟨-, rfl, -⟩ | ⟨_, _, fresh, -⟩
      · have same : s₁.settle.1.phase = s₁.phase := turns.phase_of_unheard unheard.incomplete
        rw [same, moved.phase, waits.1] at initialized
        cases initialized
      · rw [waits.2] at fresh
        cases fresh
    · rcases started with ⟨-, rfl, rfl⟩ | ⟨new, ask, fresh, started⟩
      · rcases List.mem_append.mp ended with ended | ended
        · exact absurd handshake (recordedMoved.not_handshake_of_endRouted ended)
        · exact (Proceeds.turns turns).refused (keptMoved.trans kept₂) sound₂
            (recordedMoved.proceeds sound₁ .ends) (.refl _) initialized ended
            (List.mem_append_left _ handshake)
      · have starts := Proceeds.starts fresh started
        have recorded₁ := recordedMoved.proceeds soundMoved starts
        have kept₁ := keptMoved.trans (starts.keeps soundMoved)
        rcases List.mem_append.mp ended with ended | ended
        · rcases List.mem_append.mp ended with ended | ended
          · exact starts.refused keptMoved soundMoved recordedMoved (kept₂.trans kept₃)
              (first fresh started) ended handshake
          · exact absurd (List.mem_append_left _ handshake)
              (recorded₁.not_handshake_of_endRouted ended)
        · exact (Proceeds.turns turns).refused (kept₁.trans kept₂) sound₂
            (recorded₁.proceeds sound₁ .ends) (.refl _) initialized ended
            (List.mem_append_left _ (List.mem_append_left _ handshake))

end CallSide

theorem length_successes {l : Ledger} {s : CallSide} (recorded : Recorded l s)
    (concluded : Concluded l s) :
    l.successes.length = if s.phase.isInitialized then 1 else 0 := by
  have spec {e : Nat × Outcome} (member : e ∈ l.successes) :
      (∃ v, (e.1, .ok v) ∈ l.ended) ∧
        ∃ params, (e.1, .request handshakeMethod params) ∈ l.issued := by
    obtain ⟨call, outcome⟩ := e
    obtain ⟨ended, ok⟩ := List.mem_filter.mp member
    obtain ⟨ok, handshake⟩ := Bool.and_eq_true_iff.mp ok
    refine ⟨?_, Ledger.mem_handshakes.mp (List.contains_iff_mem.mp handshake)⟩
    cases outcome with
    | ok v => exact ⟨v, ended⟩
    | _ => cases ok
  cases phase : s.phase with
  | uninitialized =>
    refine List.length_eq_zero_iff.mpr (List.eq_nil_iff_forall_not_mem.mpr fun e member => ?_)
    obtain ⟨⟨v, ended⟩, params, issued⟩ := spec member
    exact concluded.uninitialized phase ended issued
  | initialized agents =>
    obtain ⟨call, params, values, by'⟩ := concluded.published agents phase
    have all : ∀ c ∈ l.successes.map Prod.fst, c = call := by
      intro c member
      obtain ⟨e, found, rfl⟩ := List.mem_map.mp member
      obtain ⟨⟨v, ended⟩, p, issued⟩ := spec found
      exact by'.sole ended issued
    have once : (l.successes.map Prod.fst).Nodup :=
      recorded.ended_nodup.sublist (List.filter_sublist.map _)
    rw [List.eq_replicate_of_mem all, List.nodup_replicate, List.length_map] at once
    have some : 0 < l.successes.length := by
      refine List.length_pos_of_mem (List.mem_filter.mpr ⟨by'.ended, ?_⟩)
      exact Bool.and_eq_true_iff.mpr ⟨rfl, List.contains_iff_mem.mpr
        (Ledger.mem_handshakes.mpr ⟨params, by'.issued⟩)⟩
    rw [Phase.isInitialized, if_pos rfl]
    omega

namespace Session

theorem act_sendsNone (s : Session) (c : Command) :
    ∀ e ∈ (s.act c).2.2, e.sendsHandshake = false := by
  intro e member
  rcases act_effects s c with none | ⟨call, -, -, -, one⟩ | ⟨-, logs, all⟩
  · rw [none] at member
    cases member
  · rw [one, List.mem_singleton] at member
    rw [member]
    rfl
  · rw [all] at member
    rcases List.mem_append.mp member with member | member
    · obtain ⟨_, -, rfl⟩ := List.mem_map.mp member
      rfl
    · obtain ⟨_, -, rfl⟩ := List.mem_map.mp member
      rfl

variable (names : List String) (settings : Settings) (commands : List Command)

theorem record_snoc (c : Command) :
    record names settings (commands ++ [c]) = record names settings commands ++
      (((ofNames names settings).run commands).notedAtOnce c ++
        { ended := endings (((ofNames names settings).run commands).act c).1.calls.settle.2 }) := by
  rw [record, ledger_append, ← noted_eq, ledger, ledger, Ledger.append_empty]
  rfl

theorem issued_snoc (c : Command) : (record names settings (commands ++ [c])).issued =
    (record names settings commands).issued ++
      (((ofNames names settings).run commands).notedAtOnce c).issued := by
  rw [record_snoc, Ledger.issued_append, Ledger.issued_append, List.append_nil]

theorem copies_of_unstarted (more : List Command) {call : Nat}
    (waits : call ∈ (reached names settings (commands ++ more)).unstarted ∨
      (reached names settings (commands ++ more)).nextCall ≤ call) (i : Nat) :
    (reached names settings commands).copies ⟨call, i⟩ = 0 := by
  have keeps := reached_keeps names settings commands more
  refine Nat.eq_zero_of_not_pos fun positive => ?_
  obtain ⟨issued, started, -⟩ := (reached_sound names settings commands).1.requested _ positive
  rcases waits with waits | new
  · exact started (keeps.unstarted _ issued waits)
  · exact Nat.lt_irrefl _ (Nat.lt_of_lt_of_le issued (Nat.le_trans keeps.nextCall new))

/-- The state is initialized once at most and for good, by the one handshake call that succeeds. The
    others that end from then on are refused, and no backend is ever sent a request for them. -/
theorem single_handshake (later : List Command) (c : Command) :
    (∀ agents, (reached names settings commands).phase = .initialized agents →
      (reached names settings (commands ++ later)).phase = .initialized agents) ∧
    (record names settings commands).successes.length =
      (if (reached names settings commands).phase.isInitialized then 1 else 0) ∧
    ((reached names settings (commands ++ [c])).phase.isInitialized = true →
      let effects := (((ofNames names settings).run commands).step c).2.2
      (∀ e ∈ effects, e.sendsHandshake = false) ∧
      ∀ call outcome, (call, outcome) ∈ endings effects →
        call ∈ (record names settings (commands ++ [c])).handshakes →
        ((reached names settings commands).phase = .uninitialized ∧ outcome.isOk = true) ∨
        outcome = .error ⟨-32600, "initialize invoked twice", none⟩ ∧
          ∀ before after, before ++ after = commands ++ c :: later →
            ∀ i, (reached names settings before).copies ⟨call, i⟩ = 0) := by
  obtain ⟨recorded, concluded⟩ := reached_recorded names settings commands
  obtain ⟨sound, quiet⟩ := reached_sound names settings commands
  refine ⟨(reached_keeps names settings commands later).phase,
    length_successes recorded concluded, fun initialized => ?_⟩
  have moved := act_moved ((ofNames names settings).run commands) c
  have after : reached names settings (commands ++ [c]) =
      (((ofNames names settings).run commands).act c).1.calls.settle.1 := by
    rw [reached, run_append]
    rfl
  obtain ⟨sendsNone, refused⟩ := moved.settle_refused sound quiet recorded (after ▸ initialized)
  have snoc := record_snoc names settings commands c
  refine ⟨fun e member => ?_, fun call outcome ended handshake => ?_⟩
  · rcases List.mem_append.mp member with member | member
    · exact act_sendsNone _ c e member
    · rcases List.mem_append.mp member with member | member
      · exact sendsNone e member
      · obtain ⟨log, -, rfl⟩ := List.mem_map.mp member
        rfl
  · obtain ⟨params, issued⟩ := Ledger.mem_handshakes.mp handshake
    have here := congrArg Ledger.ended (noted_eq ((ofNames names settings).run commands) c)
    rw [show endings _ = _ from here] at ended
    rw [issued_snoc] at issued
    refine (refused ended issued).imp_right fun result => ?_
    obtain ⟨error, waits, silent⟩ := result
    refine ⟨error, ?_⟩
    intro before rest split i
    -- the state that is asked about lies before this command or behind it
    rcases List.append_eq_append_iff.mp split with ⟨more, rfl, -⟩ | ⟨more, rfl, rest'⟩
    · exact copies_of_unstarted names settings before more waits i
    · cases more with
      | nil => exact copies_of_unstarted names settings (commands ++ []) [] (by simpa using waits) i
      | cons c' more =>
        obtain ⟨rfl, -⟩ := List.cons.inj rest'
        obtain ⟨recorded', -⟩ := reached_recorded names settings (commands ++ [c])
        have concluded : (call, outcome) ∈ (record names settings (commands ++ [c])).ended := by
          rw [snoc]
          exact List.mem_append_right _ ended
        obtain ⟨p, known⟩ := Ledger.mem_handshakes.mp handshake
        have keeps := reached_keeps names settings (commands ++ [c]) more
        rw [List.append_assoc, List.singleton_append] at keeps
        refine keeps.spent (recorded'.issued_lt known) (fun waits => ?_) (after ▸ silent i)
        exact recorded'.not_mem_of_ended concluded (CallSide.mem_unfinished_of_unstarted waits)

end Session

end Switchboard.Mux
