import Switchboard.Proofs.Mux.Recorded

namespace Switchboard.Mux

structure PublishedBy (l : Ledger) (s : CallSide) (agents : List Agent) (call : Nat)
    (params : Json) (values : List Json) : Prop where
  issued : (call, .request handshakeMethod params) ∈ l.issued
  length : values.length = s.backends.length
  paired : agents = (s.backends.map Backend.name).zipWith Agent.mk values
  answered : ∀ i v, values[i]? = some v ↔ (⟨call, i⟩, .ok v) ∈ l.answers
  started : call ∉ s.unstarted
  gone : ∀ i, s.copies ⟨call, i⟩ = 0
  ended : (call, .ok (CallSide.merged agents s.fallback)) ∈ l.ended
  sole : ∀ {c v p}, (c, .ok v) ∈ l.ended → (c, .request handshakeMethod p) ∈ l.issued → c = call

/-- A handshake call succeeds by publishing, and only one does. -/
structure Concluded (l : Ledger) (s : CallSide) : Prop where
  uninitialized : s.phase = .uninitialized →
    ∀ {c v p}, (c, .ok v) ∈ l.ended → (c, .request handshakeMethod p) ∉ l.issued
  published : ∀ agents, s.phase = .initialized agents →
    ∃ call params values, PublishedBy l s agents call params values

variable {l : Ledger} {s s' : CallSide}

namespace PublishedBy

variable {agents : List Agent} {call : Nat} {params : Json} {values : List Json}

theorem keeps (by' : PublishedBy l s agents call params values) (recorded : Recorded l s)
    (keeps : s.Keeps s') {l' : Ledger} (issued : l.issued ⊆ l'.issued) (ended : l.ended ⊆ l'.ended)
    (answers : ∀ i v, (⟨call, i⟩, Reply.ok v) ∈ l'.answers ↔ (⟨call, i⟩, .ok v) ∈ l.answers)
    (others : ∀ {c v p}, (c, .ok v) ∈ l'.ended → (c, .request handshakeMethod p) ∈ l'.issued →
      (c, .ok v) ∈ l.ended ∧ (c, .request handshakeMethod p) ∈ l.issued) :
    PublishedBy l' s' agents call params values where
  issued := issued by'.issued
  length := by'.length.trans keeps.length.symm
  paired := by rw [keeps.names, by'.paired]
  answered i v := (by'.answered i v).trans (answers i v).symm
  started waits := by'.started (keeps.unstarted _ (recorded.issued_lt by'.issued) waits)
  gone i := keeps.spent (recorded.issued_lt by'.issued) by'.started (by'.gone i)
  ended := by
    rw [keeps.fallback]
    exact ended by'.ended
  sole ok asked := by'.sole (others ok asked).1 (others ok asked).2

end PublishedBy

namespace Concluded

theorem moved (concluded : Concluded l s) (recorded : Recorded l s) (sound : s.Sound)
    {d : Ledger} (moved : s.Moved s' d) : Concluded (l ++ d) s' := by
  have keeps := moved.keeps sound
  have others {c : Nat} {v p : Json} (ok : (c, Outcome.ok v) ∈ (l ++ d).ended)
      (asked : (c, Ask.request handshakeMethod p) ∈ (l ++ d).issued) :
      (c, .ok v) ∈ l.ended ∧ (c, .request handshakeMethod p) ∈ l.issued := by
    have before : (c, .ok v) ∈ l.ended := (List.mem_append.mp ok).resolve_right fun new => by
      cases moved.ended_cancelled new
    exact ⟨before, (List.mem_append.mp asked).resolve_right fun new =>
      Nat.ne_of_lt (recorded.ended_lt before) (moved.issued_new new)⟩
  have answers {call : Nat} (gone : ∀ i, s.copies ⟨call, i⟩ = 0) (i : Nat) (v : Json) :
      (⟨call, i⟩, Reply.ok v) ∈ (l ++ d).answers ↔ (⟨call, i⟩, .ok v) ∈ l.answers := by
    refine ⟨fun member => (List.mem_append.mp member).resolve_right fun new => ?_,
      List.mem_append_left _⟩
    have copies := moved.copies_of_answered new
    rw [gone] at copies
    cases copies
  have phase : s'.phase = s.phase := by cases moved <;> rfl
  refine ⟨fun uninitialized _ _ _ ok asked => ?_, fun agents initialized => ?_⟩
  · obtain ⟨ok, asked⟩ := others ok asked
    exact concluded.uninitialized (phase ▸ uninitialized) ok asked
  · obtain ⟨call, params, values, by'⟩ := concluded.published agents (phase ▸ initialized)
    exact ⟨call, params, values, by'.keeps recorded keeps (List.subset_append_left _ _)
      (List.subset_append_left _ _) (answers by'.gone) others⟩

theorem kept (concluded : Concluded l s) (recorded : Recorded l s) (keeps : s.Keeps s')
    (phase : s'.phase = s.phase) {ended : List (Nat × Outcome)}
    (others : ∀ {c v p}, (c, .ok v) ∈ ended → (c, .request handshakeMethod p) ∉ l.issued) :
    Concluded (l ++ { ended }) s' := by
  have same : (l ++ { ended } : Ledger).issued = l.issued := List.append_nil _
  have old {c : Nat} {v p : Json} (ok : (c, Outcome.ok v) ∈ (l ++ { ended } : Ledger).ended)
      (asked : (c, Ask.request handshakeMethod p) ∈ (l ++ { ended } : Ledger).issued) :
      (c, .ok v) ∈ l.ended ∧ (c, .request handshakeMethod p) ∈ l.issued := by
    rw [same] at asked
    exact ⟨(List.mem_append.mp ok).resolve_right fun new => others new asked, asked⟩
  refine ⟨fun uninitialized _ _ _ ok asked => ?_, fun agents initialized => ?_⟩
  · obtain ⟨ok, asked⟩ := old ok asked
    exact concluded.uninitialized (phase ▸ uninitialized) ok asked
  · obtain ⟨call, params, values, by'⟩ := concluded.published agents (phase ▸ initialized)
    exact ⟨call, params, values, by'.keeps recorded keeps (same ▸ List.Subset.refl _)
      (List.subset_append_left _ _) (fun _ _ => by rw [Ledger.answers_append, List.append_nil])
      old⟩

theorem publishes (concluded : Concluded l s) (keeps : s.Keeps s')
    (uninitialized : s.phase = .uninitialized) {agents : List Agent}
    (initialized : s'.phase = .initialized agents) {call : Nat} {params : Json}
    {values : List Json} {ended : List (Nat × Outcome)}
    (issued : (call, .request handshakeMethod params) ∈ l.issued)
    (length : values.length = s.backends.length)
    (paired : agents = (s.backends.map Backend.name).zipWith Agent.mk values)
    (answered : ∀ i v, values[i]? = some v ↔ (⟨call, i⟩, .ok v) ∈ l.answers)
    (started : call ∉ s'.unstarted) (gone : ∀ i, s'.copies ⟨call, i⟩ = 0)
    (publisher : (call, .ok (CallSide.merged agents s.fallback)) ∈ ended)
    (others : ∀ {c v p}, (c, .ok v) ∈ ended → (c, .request handshakeMethod p) ∈ l.issued →
      c = call) : Concluded (l ++ { ended }) s' := by
  have same : (l ++ { ended } : Ledger).issued = l.issued := List.append_nil _
  refine ⟨fun still => (by rw [initialized] at still; cases still), fun agents' here => ?_⟩
  rw [initialized, Phase.initialized.injEq] at here
  subst here
  refine ⟨call, params, values, {
    issued := same ▸ issued
    length := length.trans keeps.length.symm
    paired := keeps.names ▸ paired
    answered := fun i v => by
      rw [answered, Ledger.answers_append, List.append_nil]
    started
    gone
    ended := keeps.fallback ▸ List.mem_append_right _ publisher
    sole := fun ok asked => ?_ }⟩
  rw [same] at asked
  rcases List.mem_append.mp ok with before | new
  · exact absurd asked (concluded.uninitialized uninitialized before)
  · exact others new asked

theorem proceeds (concluded : Concluded l s) (recorded : Recorded l s) (sound : s.Sound)
    {es : List Effect} (proceeds : s.Proceeds s' es) :
    Concluded (l ++ { ended := endings es }) s' := by
  have keeps := proceeds.keeps sound
  have asked := recorded.accounts.asked
  -- where the phase stays, no handshake call ends with success
  have same (phase : s'.phase = s.phase) : Concluded (l ++ { ended := endings es }) s' := by
    refine concluded.kept recorded keeps phase fun ok issued => ?_
    cases proceeds.endsBy sound recorded ok issued with
    | published before after =>
      rw [phase, before] at after
      cases after
  cases proceeds with
  | @starts call ask _ _ fresh started =>
    have here : (call, ask) ∈ l.issued := asked.fresh _ (fresh ▸ List.mem_cons_self)
    have waits := CallSide.mem_unstarted_of_fresh fresh
    cases started with
    | @alone method params _ uninitialized handshake free empty none unsent ended =>
      have unanswered (i : Nat) (v : Json) : (⟨call, i⟩, Reply.ok v) ∉ l.answers :=
        recorded.answers.unanswered_of_unstarted
          (show (⟨call, i⟩ : RequestRef).call ∈ _ from waits) _
      rw [Asked.handshake_eq handshake] at here
      have length : ([] : List Json).length = s.backends.length := by
        rw [show s.backends = [] from none]
        rfl
      refine concluded.publishes keeps uninitialized rfl here length (by simp)
        (fun i v => iff_of_false (by simp) (unanswered i v)) (fun member => ?_)
        (sound.no_copies_of_unstarted waits) (by rw [ended]; exact List.mem_cons_self)
        fun ok handshake => ?_
      · rw [CallSide.unstarted, show s.waiting = [] from empty] at member
        cases member
      · rw [ended] at ok
        simp only [List.mem_cons, List.mem_map, Prod.mk.injEq] at ok
        rcases ok with ⟨rfl, -⟩ | ⟨w, member, rfl, -⟩
        · rfl
        · exact absurd handshake (recorded.not_handshake_of_watcher member)
    | opened => exact same (by rw [CallSide.opened_eq])
    | _ => exact same rfl
  | ends => exact same rfl
  | turns run =>
    cases run with
    | @published a results _ held stage unsent ended =>
      have wellFormed := sound.attempt_wellFormed a held
      have uninitialized := (sound.turns (.inl (by simp [held]))).1
      obtain ⟨params, issued⟩ := asked.attempt a held
      obtain ⟨values, length, rfl, known⟩ := wellFormed.of_stage_complete stage
      have answered (i : Nat) (v : Json) :
          values[i]? = some v ↔ (⟨a.call, i⟩, Reply.ok v) ∈ l.answers := by
        rw [known, recorded.answers.got a held]
        exact and_iff_right_of_imp fun member => (recorded.answers.spent member).2.2.2
      have gone (i : Nat) : s.copies ⟨a.call, i⟩ = 0 := by
        refine Nat.eq_zero_of_not_pos fun positive => ?_
        obtain ⟨bound, missing⟩ :=
          (wellFormed.mem_running i).mp ((sound.attempt_running a held i).mpr positive)
        have some := ((known i _).mp (List.getElem?_eq_getElem (length ▸ bound))).2
        rw [missing] at some
        cases some
      refine concluded.publishes keeps uninitialized rfl issued length
        (by rw [CallSide.Sound.agentsOf_values, List.zipWith_map_left]) answered
        (fun waits => sound.started held (keeps.unstarted _ (recorded.issued_lt issued) waits))
        gone (by rw [ended]; exact List.mem_cons_self) fun ok handshake => ?_
      rw [ended] at ok
      simp only [List.mem_cons, List.mem_append, List.mem_map, Prod.mk.injEq] at ok
      rcases ok with ⟨rfl, -⟩ | ⟨w, member, rfl, -⟩ | ⟨w, -, -, error⟩
      · rfl
      · exact absurd handshake (recorded.not_handshake_of_watcher member)
      · cases error
    | passed => exact same (by rw [CallSide.opened_eq])
    | _ => exact same rfl

end Concluded

end Switchboard.Mux
