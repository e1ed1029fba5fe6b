import Mathlib.Data.List.Sort
import Switchboard.Proofs.Mux.SingleHandshake

namespace Switchboard.Mux

/-- The handshake calls that have not ended, in the order of issue. -/
def Ledger.pending (l : Ledger) : List Nat :=
  l.handshakes.filter fun call => !(l.ended.map Prod.fst).contains call

theorem Ledger.mem_pending {l : Ledger} {call : Nat} :
    call ∈ l.pending ↔ call ∈ l.handshakes ∧ ∀ outcome, (call, outcome) ∉ l.ended := by
  simp [pending]

namespace CallSide

/-- A request that can still be answered waits in an open channel, or its peer holds it. -/
def Answerable (s : CallSide) (ref : RequestRef) : Prop :=
  (∃ b, s.backends[ref.backend]? = some b ∧ b.accepts = true ∧
    ∃ method params, .request ref.call method params ∈ b.queue) ∨
  ∃ ticket, s.ticket? ticket = some ref

variable {s s' : CallSide}

theorem answerable_of_copies (channels : ∀ b ∈ s.backends, b.IsChannel) {ref : RequestRef}
    (positive : 0 < s.copies ref) : s.Answerable ref := by
  by_cases held : some ref ∈ s.tickets
  · obtain ⟨ticket, bound, here⟩ := List.getElem_of_mem held
    exact .inr ⟨ticket, by simp [ticket?, bound, here]⟩
  · rw [copies, List.count_eq_zero_of_not_mem held] at positive
    cases here : s.backends[ref.backend]? with
    | none => simp [here] at positive
    | some b =>
      rw [here] at positive
      obtain ⟨m, member, ours⟩ := List.countP_pos_iff.mp positive
      cases m with
      | notification method params => cases ours
      | request call method params =>
        obtain rfl : call = ref.call := beq_iff_eq.mp ours
        have accepting : b.accepts = true := by
          by_contra closed
          have empty := (channels b (List.mem_of_getElem? here)).queue_of_closed
            (Bool.eq_false_iff.mpr closed)
          rw [empty] at member
          cases member
        exact .inl ⟨b, here, accepting, method, params, member⟩

theorem Moved.waiting {d : Ledger} (moved : s.Moved s' d) :
    s'.waiting = s.waiting.filter fun w => !(d.ended.map Prod.fst).contains w.1 := by
  cases moved with
  | cancelled pending =>
    refine List.filter_congr fun w _ => ?_
    simp [bne, beq_eq_decide]
  | tornDown =>
    refine (List.filter_eq_nil_iff.mpr fun w member => ?_).symm
    have waits : w.1 ∈ s.unfinished :=
      mem_unfinished_of_unstarted (List.mem_append_right _ (List.mem_map_of_mem member))
    simpa [Function.comp_def] using waits
  | _ => simp [issue, heard]

theorem Moved.turn_old {d : Ledger} (moved : s.Moved s' d) {call : Nat}
    (held : s'.attempt.map Attempt.call = some call) :
    s.attempt.map Attempt.call = some call := by
  cases moved with
  | cancelled =>
    obtain ⟨a, here, rfl⟩ := Option.map_eq_some_iff.mp held
    rw [(Option.filter_eq_some_iff.mp here).1]
    rfl
  | answered | closed => exact (calls_heard ..).1 ▸ held
  | tornDown => cases held
  | _ => exact held

theorem Moved.turn_kept {d : Ledger} (moved : s.Moved s' d) {call : Nat}
    (held : s.attempt.map Attempt.call = some call) :
    s'.attempt.map Attempt.call = some call ∨ (call, .cancelled) ∈ d.ended := by
  obtain ⟨a, here, rfl⟩ := Option.map_eq_some_iff.mp held
  cases moved with
  | @cancelled call =>
    by_cases same : a.call = call
    · exact .inr (List.mem_singleton.mpr (by rw [same]))
    · exact .inl (by simp [cancel, here, same])
  | answered | closed => exact .inl ((calls_heard ..).1.trans held)
  | tornDown =>
    exact .inr (List.mem_map.mpr ⟨a.call, mem_unfinished_of_attempt here, rfl⟩)
  | _ => exact .inl held

theorem Started.waiting {call : Nat} {ask : Ask} {es : List Effect}
    (started : s.Started call ask s' es) : s.waiting ⊆ s'.waiting := by
  cases started with
  | opened =>
    rw [opened_eq]
    exact List.Subset.refl _
  | queued => exact List.subset_append_left ..
  | _ => exact List.Subset.refl _

theorem HandshakesRun.leaves {es : List Effect} (run : s.HandshakesRun s' es)
    (uninitialized : s'.phase = .uninitialized) {w : Nat × Json} (waits : w ∈ s.waiting) :
    w ∈ s'.waiting ∨ fanOutEffects s.backends w.2 <:+: es := by
  cases run with
  | idle => exact .inl waits
  | pending => exact .inl waits
  | published => cases uninitialized
  | @passed freed call params rest _ free next allOpen starts ended =>
    rw [next] at waits
    rcases List.mem_cons.mp waits with rfl | later
    · exact .inr starts
    · exact .inl later
  | drained free busy kept sent queues starts => exact .inr (starts w waits)

theorem HandshakesRun.keeps_turn {es : List Effect} (run : s.HandshakesRun s' es)
    (unheard : s.Unheard) {a : Attempt} (held : s.attempt = some a) :
    s'.attempt.map Attempt.call = some a.call := by
  obtain ⟨none, running⟩ := unheard a held
  have still : a.stage = .pending a.results := by
    simp [Attempt.stage, none, Attempt.join, running]
  have unfreed {freed : List (Nat × Outcome)} (free : s.Frees freed) : False := by
    rcases free with ⟨gone, -⟩ | ⟨a', i, reply, held', stage, -⟩
    · rw [held] at gone
      cases gone
    · rw [held, Option.some.injEq] at held'
      rw [← held', still] at stage
      cases stage
  cases run with
  | idle free => rw [held] at free; cases free
  | pending held' =>
    rw [held, Option.some.injEq] at held'
    rw [← held']
    rfl
  | published held' stage => exact absurd stage (unheard.incomplete _ held' _)
  | passed free => exact (unfreed free).elim
  | drained free => exact (unfreed free).elim

theorem Started.backends_of_waiting {call : Nat} {ask : Ask} {es : List Effect}
    (started : s.Started call ask s' es) (uninitialized : s.phase = .uninitialized)
    (waits : s.waiting ≠ []) : s'.backends = s.backends := by
  have unready : s.phase.isInitialized ≠ true := by
    rw [uninitialized]
    nofun
  cases started with
  | opened _ _ _ empty => exact absurd empty waits
  | broadcast initialized => exact absurd initialized unready
  | routed initialized => exact absurd initialized unready
  | _ => rfl

theorem Moved.settle_leaves {d : Ledger} (sound : s.Sound) (quiet : s.Quiet)
    (moved : s.Moved s' d) {w : Nat × Json} (waits : w ∈ s.waiting)
    (kept : w.1 ∉ d.ended.map Prod.fst) (uninitialized : s'.settle.1.phase = .uninitialized) :
    w ∈ s'.settle.1.waiting ∨ fanOutEffects s'.backends w.2 <:+: s'.settle.2 := by
  have still : w ∈ s'.waiting := by
    rw [moved.waiting]
    exact List.mem_filter.mpr ⟨waits, by simpa using kept⟩
  have sound' := sound.moved moved
  obtain ⟨s₁, es₁, es₂, started, -, turns, effects⟩ := settle_steps sound' (moved.few quiet)
  have some : s'.waiting ≠ [] := List.ne_nil_of_mem still
  have first : w ∈ s₁.waiting ∧ s₁.backends = s'.backends := by
    rcases started with ⟨-, rfl, -⟩ | ⟨call, ask, -, started⟩
    · exact ⟨still, rfl⟩
    · exact ⟨started.waiting still,
        started.backends_of_waiting (sound'.turns (.inr some)).1 some⟩
  refine (turns.leaves uninitialized first.1).imp_right fun starts => ?_
  rw [effects]
  exact (first.2 ▸ starts).trans (List.suffix_append ..).isInfix

theorem Moved.turn_of_cancelled {d : Ledger} (sound : s.Sound) (quiet : s.Quiet)
    (moved : s.Moved s' d) {call : Nat} (gone : call ∈ d.ended.map Prod.fst)
    (few : d.ended.length ≤ 1) {a : Attempt} (held : s.attempt = some a) (other : a.call ≠ call) :
    s'.settle.1.attempt.map Attempt.call = some a.call := by
  have unheard := (moved.unheard quiet).resolve_right fun none => by simp [none.2] at gone
  have fewFresh := moved.few quiet
  have sound' := sound.moved moved
  cases moved with
  | @cancelled c pending =>
    obtain rfl : call = c := by simpa using gone
    have still : (s.cancel call).attempt = some a := by simp [cancel, held, other]
    obtain ⟨s₁, es₁, es₂, started, -, turns, -⟩ := settle_steps sound' fewFresh
    rcases started with ⟨-, rfl, -⟩ | ⟨_, _, fresh, -⟩
    · exact turns.keeps_turn unheard still
    · simp [cancel, quiet.fresh] at fresh
  | tornDown =>
    have first : a.call ∈ s.unfinished := by simp [CallSide.unfinished, held]
    have second : call ∈ s.unfinished := by
      rw [List.map_map] at gone
      simpa [Function.comp_def] using gone
    rw [List.length_map] at few
    obtain ⟨i, here, ours⟩ := List.getElem_of_mem first
    obtain ⟨j, there, theirs⟩ := List.getElem_of_mem second
    obtain rfl : i = j := by omega
    exact absurd (ours.symm.trans theirs) other
  | _ => cases gone

end CallSide

/-- The handshake calls that have not ended stand in line. The oldest has the turn, and one of its
    requests at least can still be answered; no other has requests under way. -/
structure InLine (l : Ledger) (s : CallSide) : Prop where
  nobody : s.phase.isInitialized = true → l.pending = []
  turn : s.attempt.map Attempt.call = l.pending.head?
  waits : s.waiting.map Prod.fst = l.pending.tail
  alone : ∀ ref, s.awaits ref = true → ref.call ∈ l.handshakes → l.pending.head? = some ref.call
  answerable : ∀ call, l.pending.head? = some call →
    ∃ i < s.backends.length, s.awaits ⟨call, i⟩ = true ∧ s.Answerable ⟨call, i⟩

namespace Recorded

variable {l : Ledger} {s : CallSide}

theorem pending_sorted (recorded : Recorded l s) : l.pending.Pairwise (· < ·) := by
  have numbers : (l.issued.map Prod.fst).Pairwise (· < ·) := by
    rw [recorded.accounts.issued]
    exact List.pairwise_lt_range
  exact numbers.sublist (List.filter_sublist.trans (List.filter_sublist.map _))

theorem mem_line_iff (recorded : Recorded l s) (sound : s.Sound) (fresh : s.fresh = [])
    {call : Nat} : call ∈ s.line ↔ call ∈ l.pending := by
  rw [Ledger.mem_pending, Ledger.mem_handshakes]
  constructor
  · intro inLine
    have waits : call ∈ s.unfinished := by
      simp only [CallSide.unfinished_eq, List.mem_append]
      tauto
    refine ⟨?_, fun outcome ended => recorded.not_mem_of_ended ended waits⟩
    rcases List.mem_append.mp inLine with held | waiting
    · obtain ⟨a, here, rfl⟩ := Option.map_eq_some_iff.mp (Option.mem_toList.mp held)
      exact recorded.accounts.asked.attempt a here
    · obtain ⟨w, member, rfl⟩ := List.mem_map.mp waiting
      exact ⟨w.2, recorded.accounts.asked.waiting w member⟩
  · rintro ⟨⟨params, issued⟩, open'⟩
    rcases recorded.live_or_ended issued with live | ⟨outcome, ended⟩
    · exact recorded.mem_line sound issued live fresh
    · exact absurd ended (open' outcome)

theorem line_eq (recorded : Recorded l s) (sound : s.Sound) (fresh : s.fresh = []) :
    s.line = l.pending := by
  have ordered := recorded.accounts.ordered
  rw [CallSide.Ordered, fresh, List.map_nil, List.append_nil] at ordered
  exact ordered.eq_of_mem_iff recorded.pending_sorted fun _ => recorded.mem_line_iff sound fresh

theorem inLine (recorded : Recorded l s) (sound : s.Sound) (quiet : s.Quiet) : InLine l s := by
  have line := recorded.line_eq sound quiet.fresh
  have turn : s.attempt.map Attempt.call = l.pending.head? := by
    cases held : s.attempt with
    | none => simp [← line, CallSide.line, held, quiet.waiting held]
    | some a => simp [← line, CallSide.line, held]
  refine ⟨fun initialized => ?_, turn, ?_, fun ref awaited handshake => ?_, fun call first => ?_⟩
  · have idle : ¬ (s.attempt ≠ none ∨ s.waiting ≠ []) := fun busy => by
      rw [(sound.turns busy).1] at initialized
      cases initialized
    rw [not_or, not_not, not_not] at idle
    simp [← line, CallSide.line, idle.1, idle.2]
  · cases held : s.attempt with
    | none => simp [← line, CallSide.line, held, quiet.waiting held]
    | some a => simp [← line, CallSide.line, held]
  · rcases Bool.or_eq_true_iff.mp awaited with held | routed
    · obtain ⟨a, here, awaits⟩ := Option.any_eq_true _ _ |>.mp held
      have same : a.call = ref.call := beq_iff_eq.mp (Bool.and_eq_true_iff.mp awaits).1
      rw [← turn, here, Option.map_some, same]
    · obtain ⟨r, member, awaits⟩ := List.any_eq_true.mp routed
      simp only [Routed.awaits, Bool.and_eq_true, beq_iff_eq] at awaits
      obtain ⟨params, issued⟩ := Ledger.mem_handshakes.mp handshake
      rw [← awaits.1.1] at issued
      exact absurd issued (recorded.not_handshake_of_routed member)
  · rw [← turn] at first
    obtain ⟨a, held, rfl⟩ := Option.map_eq_some_iff.mp first
    obtain ⟨-, running⟩ := quiet.attempt a held
    obtain ⟨i, member⟩ := List.exists_mem_of_ne_nil _ running
    have positive := (sound.attempt_running a held i).mp member
    refine ⟨i, (sound.requested _ positive).2.2, ?_,
      CallSide.answerable_of_copies sound.channels positive⟩
    simp [CallSide.awaits, held, Attempt.awaits, member]

theorem pending_of_later (recorded : Recorded l s) {s' : CallSide} {d : Ledger}
    (moved : s.Moved s' d) {ended : List (Nat × Outcome)} {call later : Nat}
    (waits : call ∈ (l ++ (d ++ { ended })).pending) (pending : later ∈ l.pending)
    (older : call < later) : call ∈ l.pending := by
  rw [Ledger.mem_pending, Ledger.mem_handshakes] at waits pending ⊢
  obtain ⟨⟨params, issued⟩, unended⟩ := waits
  obtain ⟨⟨_, known⟩, -⟩ := pending
  refine ⟨⟨params, (List.mem_append.mp issued).resolve_right fun new => ?_⟩,
    fun outcome before => unended outcome (List.mem_append_left _ before)⟩
  rw [Ledger.issued_append, List.append_nil] at new
  have last := moved.issued_new new
  have bound := recorded.issued_lt known
  omega

theorem hands_over (recorded : Recorded l s) (sound : s.Sound) (quiet : s.Quiet) {s' : CallSide}
    {d : Ledger} (moved : s.Moved s' d) (few : d.ended.length ≤ 1)
    (recorded' : Recorded (l ++ (d ++ { ended := endings s'.settle.2 })) s'.settle.1)
    {dead rest : List Nat} {next : Nat} (line : l.pending = dead ++ next :: rest)
    (some : dead ≠ []) (failed : ∀ call ∈ dead, ∃ outcome,
      (call, outcome) ∈ d.ended ++ endings s'.settle.2 ∧ outcome.isOk = false) {params : Json}
    (issued : (next, .request handshakeMethod params) ∈ l.issued) :
    CallSide.fanOutEffects s'.backends params <:+: s'.settle.2 := by
  obtain ⟨first, others, rfl⟩ := List.exists_cons_of_ne_nil some
  have sound' := (sound.moved moved).settle (moved.few quiet)
  have quiet' := s'.settle_quiet
  have inLine := recorded.inLine sound quiet
  have inLine' := recorded'.inLine sound' quiet'
  have gone {call : Nat} (member : call ∈ first :: others) :
      call ∉ (l ++ (d ++ { ended := endings s'.settle.2 })).pending := fun still => by
    obtain ⟨outcome, ended, -⟩ := failed call member
    exact (Ledger.mem_pending.mp still).2 outcome (List.mem_append_right _ ended)
  have sorted := recorded.pending_sorted
  rw [line] at sorted
  have older : first < next := List.rel_of_pairwise_cons sorted (by simp)
  obtain ⟨a, held, rfl⟩ := Option.map_eq_some_iff.mp (inLine.turn.trans (by rw [line]; rfl))
  have waits : next ∈ s.waiting.map Prod.fst := by
    rw [inLine.waits, line]
    simp
  obtain ⟨⟨waiter, asked⟩, member, here⟩ := List.mem_map.mp waits
  obtain rfl : waiter = next := here
  have same := recorded.ask_unique (recorded.accounts.asked.waiting _ member) issued
  rw [Ask.request.injEq] at same
  rw [← same.2]
  have kept : waiter ∉ d.ended.map Prod.fst := fun cancelled => by
    have turn := moved.turn_of_cancelled sound quiet cancelled few held (Nat.ne_of_lt older)
    rw [inLine'.turn] at turn
    exact gone List.mem_cons_self (List.mem_of_head? turn)
  obtain ⟨outcome, ended, bad⟩ := failed a.call List.mem_cons_self
  have uninitialized : s'.settle.1.phase = .uninitialized := by
    rw [← Phase.isInitialized_eq_false]
    refine Bool.eq_false_iff.mpr fun initialized => ?_
    obtain ⟨p, known⟩ := recorded.accounts.asked.attempt a held
    rcases (moved.settle_refused sound quiet recorded initialized).2 ended
      (List.mem_append_left _ known) with ⟨-, ok⟩ | ⟨-, waits | new, -⟩
    · rw [bad] at ok
      cases ok
    · exact sound.started held waits
    · exact Nat.lt_irrefl _ (Nat.lt_of_lt_of_le (recorded.issued_lt known) new)
  refine (moved.settle_leaves sound quiet member kept uninitialized).resolve_left fun still => ?_
  -- whoever had the turn now would be older than the next one, and have ended
  have behind : waiter ∈ (l ++ (d ++ { ended := endings s'.settle.2 })).pending.tail :=
    inLine'.waits ▸ List.mem_map_of_mem still
  match turn : (l ++ (d ++ { ended := endings s'.settle.2 })).pending with
  | [] =>
    rw [turn] at behind
    cases behind
  | holder :: waiting =>
    have sorted' := recorded'.pending_sorted
    rw [turn] at sorted' behind
    have before : holder < waiter := List.rel_of_pairwise_cons sorted' behind
    have stands : holder ∈ (l ++ (d ++ { ended := endings s'.settle.2 })).pending := by
      rw [turn]
      exact List.mem_cons_self
    have old := recorded.pending_of_later moved stands (by rw [line]; simp) before
    rw [line] at old
    rcases List.mem_append.mp old with dead | after
    · exact gone dead stands
    · have upward := (List.pairwise_append.mp sorted).2.1
      rcases List.mem_cons.mp after with rfl | after
      · exact Nat.lt_irrefl _ before
      · exact Nat.lt_asymm before (List.rel_of_pairwise_cons upward after)

end Recorded

namespace Session

theorem few_ended {s : Session} {c : Command} (goesOn : c.tearsDown = false) :
    (s.notedAtOnce c).ended.length ≤ 1 := by
  unfold notedAtOnce
  rcases act_effects s c with none | ⟨call, -, -, -, one⟩ | ⟨torn, -⟩
  · simp [none]
  · simp [one]
  · rw [goesOn] at torn
    cases torn

variable (names : List String) (settings : Settings) (commands : List Command)

/-- Handshake calls take turns, and nobody is stuck: the oldest that has not ended is under way and
    waits for a reply that can still come, those behind it have sent nothing, and the turn passes on
    in the step in which those in front fail or are cancelled. -/
theorem handshakes_in_line (c : Command) :
    InLine (record names settings commands) (reached names settings commands) ∧
    (∀ call ∈ (record names settings commands).pending.tail,
      ∀ before after, before ++ after = commands →
        ∀ i, (reached names settings before).copies ⟨call, i⟩ = 0) ∧
    (c.tearsDown = false →
      let s := (ofNames names settings).run commands
      ∀ dead next rest, (record names settings commands).pending = dead ++ next :: rest →
        dead ≠ [] →
        (∀ call ∈ dead, ∃ outcome,
          (call, outcome) ∈ endings (s.step c).2.2 ∧ outcome.isOk = false) →
        ∀ params,
          (next, .request handshakeMethod params) ∈ (record names settings commands).issued →
          CallSide.fanOutEffects (s.act c).1.calls.backends params <:+: (s.step c).2.2) := by
  obtain ⟨recorded, -⟩ := reached_recorded names settings commands
  obtain ⟨sound, quiet⟩ := reached_sound names settings commands
  have inLine := recorded.inLine sound quiet
  refine ⟨inLine, fun call behind before after split i => ?_, fun goesOn => ?_⟩
  · subst split
    rw [← inLine.waits] at behind
    exact copies_of_unstarted names settings before after
      (.inl (List.mem_append_right _ behind)) i
  · intro s dead next rest line some failed params issued
    have moved := act_moved s c
    obtain ⟨recorded', -⟩ := reached_recorded names settings (commands ++ [c])
    rw [record_snoc, reached, run_append] at recorded'
    have here : endings (s.step c).2.2 =
        (s.notedAtOnce c).ended ++ endings (s.act c).1.calls.settle.2 :=
      congrArg Ledger.ended (noted_eq s c)
    have starts := recorded.hands_over sound quiet moved (few_ended goesOn) recorded' line some
      (here ▸ failed) issued
    exact starts.trans
      ((List.prefix_append ..).isInfix.trans (List.suffix_append (s.act c).2.2 _).isInfix)

end Session

end Switchboard.Mux
