import Switchboard.Proofs.Mux.Rest
import Switchboard.Proofs.Mux.SoundMoves

namespace Switchboard.Mux

section

variable {α : Type} {P : List α → α → Prop} {l : List α} {x : α}

theorem forall_split_snoc :
    (∀ before y after, l ++ [x] = before ++ y :: after → P before y) ↔
      (∀ before y after, l = before ++ y :: after → P before y) ∧ P l x := by
  constructor
  · intro all
    refine ⟨fun before y after same => ?_, all l x [] rfl⟩
    exact all before y (after ++ [x]) (by rw [same, List.append_assoc, List.cons_append])
  · rintro ⟨all, last⟩ before y after same
    rcases List.eq_nil_or_concat' after with rfl | ⟨after', z, rfl⟩
    · obtain ⟨rfl, one⟩ := List.append_inj' same rfl
      cases one
      exact last
    · rw [← List.cons_append, ← List.append_assoc] at same
      obtain ⟨rfl, -⟩ := List.append_inj' same rfl
      exact all before y after' rfl

theorem exists_split_snoc :
    (∃ before y after, l ++ [x] = before ++ y :: after ∧ P before y) ↔
      (∃ before y after, l = before ++ y :: after ∧ P before y) ∨ P l x := by
  have none := forall_split_snoc (P := fun before y => ¬P before y) (l := l) (x := x)
  rw [← not_iff_not]
  simpa only [not_exists, not_and, not_or] using none

end

namespace CallSide

variable {s : CallSide}

/-- What happens to the calls when they run. -/
inductive Proceeds (s : CallSide) : CallSide → List Effect → Prop
  | starts {call : Nat} {ask : Ask} {s' : CallSide} {es : List Effect}
      (fresh : s.fresh = [(call, ask)])
      (started : Started { s with fresh := [] } call ask s' es) : Proceeds s s' es
  | ends : Proceeds s s.endRouted.1 s.endRouted.2
  | turns {s' : CallSide} {es : List Effect} (run : s.HandshakesRun s' es) : Proceeds s s' es

theorem Sound.proceeds (sound : s.Sound) {s' : CallSide} {es : List Effect}
    (proceeds : s.Proceeds s' es) : s'.Sound := by
  cases proceeds with
  | starts fresh started => exact sound.starts fresh started
  | ends =>
    exact sound.shrink (.refl _) (fun _ => id) (.refl _) List.filter_sublist (.refl _) (.refl _)
  | turns run => exact sound.handshakes run

theorem Started.fresh {call : Nat} {ask : Ask} {s' : CallSide} {es : List Effect}
    (started : s.Started call ask s' es) : s'.fresh = s.fresh := by
  cases started with
  | opened => rw [opened_eq]
  | _ => rfl

theorem handshakes_of_sound (sound : s.Sound) : s.HandshakesRun s.handshakes.1 s.handshakes.2 :=
  handshakes_run sound.channels (fun line => (sound.turns line).1)
    fun waits => (sound.turns (.inr waits)).2

theorem startAll_steps (sound : s.Sound) (few : s.fresh.length ≤ 1) {r : CallSide × List Effect}
    (started : overAll start s.fresh { s with fresh := [] } = r) :
    s.fresh = [] ∧ r = (s, []) ∨ ∃ call ask, s.fresh = [(call, ask)] ∧
      Started { s with fresh := [] } call ask r.1 r.2 := by
  match fresh : s.fresh with
  | [] =>
    rw [fresh, overAll] at started
    have same : ({ s with fresh := [] } : CallSide) = s := by rw [← fresh]
    rw [← started, same]
    exact .inl ⟨rfl, rfl⟩
  | [(call, ask)] =>
    simp only [fresh, overAll, List.append_nil] at started
    rw [← started]
    exact .inr ⟨call, ask, rfl,
      start_started (s := { s with fresh := [] }) sound.channels call ask⟩
  | _ :: _ :: _ => simp [fresh] at few

/-- Running the calls takes three steps: the new call starts, routed requests end, and handshake
    calls take their turns. -/
theorem settle_steps (sound : s.Sound) (few : s.fresh.length ≤ 1) :
    ∃ s₁ es₁ es₂, (s.fresh = [] ∧ s₁ = s ∧ es₁ = [] ∨ ∃ call ask, s.fresh = [(call, ask)] ∧
        Started { s with fresh := [] } call ask s₁ es₁) ∧ s₁.Sound ∧
      s₁.endRouted.1.HandshakesRun s.settle.1 es₂ ∧
      s.settle.2 = es₁ ++ s₁.endRouted.2 ++ es₂ := by
  rcases started : overAll start s.fresh { s with fresh := [] } with ⟨s₁, es₁⟩
  have first := startAll_steps sound few started
  have after : s₁.Sound := by
    rcases first with ⟨-, same⟩ | ⟨call, ask, fresh, started⟩
    · cases same
      exact sound
    · exact sound.starts fresh started
  have turns := handshakes_of_sound (after.proceeds .ends)
  refine ⟨s₁, es₁, s₁.endRouted.1.handshakes.2, first.imp_left (And.imp_right Prod.mk.inj), after,
    ?_, ?_⟩
  · simpa only [settle, started] using turns
  · simp only [settle, started, List.append_assoc]

theorem Sound.issue_steps (sound : s.Sound) (fresh : s.fresh = []) (ask : Ask) :
    ∃ s₁ es₁ es₂, Started { s with nextCall := s.nextCall + 1 } s.nextCall ask s₁ es₁ ∧ s₁.Sound ∧
      s₁.endRouted.1.HandshakesRun (s.issue ask).1.settle.1 es₂ ∧
      (s.issue ask).1.settle.2 = es₁ ++ s₁.endRouted.2 ++ es₂ := by
  have moved : s.Moved (s.issue ask).1 _ := .issued ask
  obtain ⟨s₁, es₁, es₂, started, sound₁, turns, effects⟩ :=
    settle_steps (sound.moved moved) (by simp [issue, fresh])
  have new : (s.issue ask).1.fresh = [(s.nextCall, ask)] := by rw [issue, fresh]; rfl
  rcases started with ⟨none, -⟩ | ⟨_, _, here, started⟩
  · rw [new] at none
    cases none
  · rw [new] at here
    cases here
    have same : { (s.issue ask).1 with fresh := [] } = { s with nextCall := s.nextCall + 1 } := by
      rw [issue, fresh]
    rw [same] at started
    exact ⟨s₁, es₁, es₂, started, sound₁, turns, effects⟩

theorem settle_induction (sound : s.Sound) (few : s.fresh.length ≤ 1)
    {P : CallSide → List Effect → Prop} (first : P s [])
    (next : ∀ {s₁ s₂ es es'}, s₁.Sound → P s₁ es → s₁.Proceeds s₂ es' → P s₂ (es ++ es')) :
    P s.settle.1 s.settle.2 := by
  obtain ⟨s₁, es₁, es₂, started, after, turns, effects⟩ := settle_steps sound few
  have here : P s₁ es₁ := by
    rcases started with ⟨-, rfl, rfl⟩ | ⟨call, ask, fresh, started⟩
    · exact first
    · exact next sound first (.starts fresh started)
  rw [effects]
  exact next (after.proceeds .ends) (next after here .ends) (.turns turns)

theorem Sound.settle (sound : s.Sound) (few : s.fresh.length ≤ 1) : s.settle.1.Sound :=
  settle_induction sound few (P := fun s _ => s.Sound) sound fun sound _ => sound.proceeds

theorem Moved.few (quiet : s.Quiet) {s' : CallSide} {d : Ledger} (moved : s.Moved s' d) :
    s'.fresh.length ≤ 1 := by
  have fresh := quiet.fresh
  cases moved with
  | cancelled =>
    simp [cancel, fresh]
  | tornDown => exact Nat.zero_le 1
  | _ => simp [issue, heard, fresh]

end CallSide

namespace Session

variable {s : Session}

theorem copies_ofNames (names : List String) (settings : Settings) (ref : RequestRef) :
    (ofNames names settings).calls.copies ref = 0 := by
  simp only [ofNames, ofBackends, CallSide.copies, List.getElem?_map, List.count_nil]
  cases names[ref.backend]? <;> rfl

theorem ofNames_sound (names : List String) (settings : Settings) :
    (ofNames names settings).calls.Sound ∧ (ofNames names settings).calls.Quiet := by
  refine ⟨{
    channels := fun b member => by
      obtain ⟨name, -, rfl⟩ := List.mem_map.mp member
      exact Backend.isChannel_ofName name
    numbered := nofun
    distinct := List.nodup_nil
    requested := fun ref positive => by simp [copies_ofNames] at positive
    single := fun ref => by simp [copies_ofNames]
    turns := fun line => absurd rfl (line.elim (fun held => absurd rfl held) id)
    attempt_wellFormed := nofun
    attempt_running := nofun
    routed_initialized := fun some => absurd rfl some
    routed_waits := nofun
    watchers_uninitialized := fun some => absurd rfl some
    stalled := rfl
    agents := nofun }, ⟨rfl, nofun, fun _ => rfl, nofun⟩⟩

theorem step_calls (s : Session) (c : Command) :
    (s.step c).1.calls = (s.act c).1.calls.settle.1 := rfl

theorem step_sound (sound : s.calls.Sound) (quiet : s.calls.Quiet) (c : Command) :
    (s.step c).1.calls.Sound ∧ (s.step c).1.calls.Quiet := by
  have moved := act_moved s c
  have few := moved.few quiet
  rw [step_calls]
  exact ⟨(sound.moved moved).settle few, CallSide.settle_quiet _⟩

/-- A run from a quiet state: what holds at first, and is kept by what a command does at once and by
    what follows from it, holds in the end. -/
theorem run_induction {P : Ledger → CallSide → Prop}
    (moved : ∀ {l c c' d}, c.Sound → c.Quiet → P l c → c.Moved c' d → P (l ++ d) c')
    (proceeds : ∀ {l c c' es}, c.Sound → P l c → c.Proceeds c' es →
      P (l ++ { ended := endings es }) c')
    (sound : s.calls.Sound) (quiet : s.calls.Quiet) {l : Ledger} (first : P l s.calls)
    (commands : List Command) : P (l ++ s.ledger commands) (s.run commands).calls := by
  induction commands generalizing s l with
  | nil =>
    rw [ledger, Ledger.append_empty]
    exact first
  | cons c rest ih =>
    have acted := act_moved s c
    have after := moved sound quiet first acted
    have settled := CallSide.settle_induction (sound.moved acted) (acted.few quiet)
      (P := fun c' es => P (l ++ s.notedAtOnce c ++ { ended := endings es }) c')
      (by rw [endings_nil, Ledger.append_empty]; exact after)
      (fun {s₁ s₂ es es'} sound here next => by
        have later := proceeds sound here next
        rw [Ledger.append_assoc] at later
        rw [endings_append]
        exact later)
    obtain ⟨sound', quiet'⟩ := step_sound sound quiet c
    have whole := ih sound' quiet' (l := l ++ s.noted c) (by
      rw [noted_eq, ← Ledger.append_assoc]
      exact settled)
    rwa [Ledger.append_assoc] at whole

end Session

end Switchboard.Mux
