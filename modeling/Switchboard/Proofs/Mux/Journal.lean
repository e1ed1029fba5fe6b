import Switchboard.Proofs.Mux.LogRecords
import Switchboard.Proofs.Mux.Verdicts

namespace Switchboard.Mux

/-- How the records of a handshake attempt end. -/
inductive Closing
  | silent
  | failed (name : String) (error : RpcError)
  | published (agents : List Agent)

def Closing.logs : Closing → List Log
  | .silent => []
  | .failed name error => [.handshakeFailed name error]
  | .published agents =>
    (agents.filterMap fun a => warning? a.name a.result) ++ [.handshakeComplete]

/-- The records of one handshake attempt. -/
structure Block where
  call : Nat
  closing : Closing

def Block.logs (count : Nat) (b : Block) : List Log := .handshaking count :: b.closing.logs

/-- The error that stands for a channel that is closed and for a request that is dropped. -/
def channelClosed (name : String) : RpcError :=
  ⟨-32803, "backend '" ++ name ++ "': channel closed", none⟩

/-- How a backend makes a handshake call fail with an error: it has given the error as its answer,
    has dropped the request, or has its channel closed. -/
inductive Blamed (names : List String) (answers : List (RequestRef × Reply)) (s : CallSide)
    (call : Nat) (name : String) (e : RpcError) : Prop
  | answered {i : Nat} (named : names[i]? = some name) (own : (⟨call, i⟩, .error e) ∈ answers) :
      Blamed names answers s call name e
  | dropped {i : Nat} (named : names[i]? = some name) (own : (⟨call, i⟩, .dropped) ∈ answers)
      (same : e = channelClosed name) : Blamed names answers s call name e
  | closed {i : Nat} (named : names[i]? = some name) (shut : s.isOpen i = false)
      (same : e = channelClosed name) : Blamed names answers s call name e

/-- A block that ends as its call does. The calls in `turns` have held the turn between commands. -/
inductive Closes (names : List String) (turns : Nat → Prop) (l : Ledger) (s : CallSide) :
    Block → Prop
  | inFlight {call : Nat} (held : s.attempt.map Attempt.call = some call) :
      Closes names turns l s ⟨call, .silent⟩
  | cancelled {call : Nat} (ended : (call, .cancelled) ∈ l.ended) (turn : turns call) :
      Closes names turns l s ⟨call, .silent⟩
  | failed {call : Nat} {name : String} {e : RpcError} (ended : (call, .error e) ∈ l.ended)
      (blamed : Blamed names l.answers s call name e) (turn : turns call ∨ e = channelClosed name) :
      Closes names turns l s ⟨call, .failed name e⟩
  | published {call : Nat} {v : Json} (ended : (call, .ok v) ∈ l.ended)
      (initialized : s.phase.isInitialized = true) :
      Closes names turns l s ⟨call, .published s.phase.agents⟩

/-- The blocks in the log tell of every attempt, in the order of the calls. -/
structure Journal (names : List String) (turns : Nat → Prop) (l : Ledger) (s : CallSide)
    (blocks : List Block) : Prop where
  asked : ∀ b ∈ blocks, b.call ∈ l.handshakes
  order : (blocks.map Block.call ++ (s.waiting.map Prod.fst ++ s.fresh.map Prod.fst)).Pairwise
    (· < ·)
  turn : ∀ call, s.attempt.map Attempt.call = some call →
    ∃ before, blocks = before ++ [⟨call, .silent⟩]
  closes : ∀ b ∈ blocks, Closes names turns l s b
  last : ∀ b ∈ blocks.dropLast, ∀ agents, b.closing ≠ .published agents
  complete : ∀ call, turns call → call ∈ blocks.map Block.call
  known : ∀ {call outcome}, (call, outcome) ∈ l.ended → call ∈ l.handshakes →
    call ∈ blocks.map Block.call ∨ outcome = .cancelled ∨ outcome = .error CallSide.invokedTwice

variable {names : List String} {turns : Nat → Prop} {l l' d : Ledger} {s s' : CallSide}
  {blocks : List Block} {es : List Effect}

theorem Ledger.handshakes_append (l d : Ledger) :
    (l ++ d).handshakes = l.handshakes ++ d.handshakes := by
  simp [Ledger.handshakes]

theorem Ledger.handshakes_ended (l : Ledger) (ended : List (Nat × Outcome)) :
    (l ++ { ended }).handshakes = l.handshakes := by
  rw [handshakes_append]
  exact List.append_nil _

namespace Booked

variable {ended : List (Nat × Outcome)}

theorem handshake_lt (booked : Booked l.issued ended s) {call : Nat}
    (handshake : call ∈ l.handshakes) : call < s.nextCall := by
  obtain ⟨_, issued⟩ := Ledger.mem_handshakes.mp handshake
  exact booked.numbered.lt issued

theorem not_handshake (booked : Booked l.issued ended s) {call : Nat} {ask : Ask}
    (asked : (call, ask) ∈ l.issued) (other : ask.isHandshake ≠ true) : call ∉ l.handshakes := by
  intro handshake
  obtain ⟨_, issued⟩ := Ledger.mem_handshakes.mp handshake
  rw [booked.numbered.unique asked issued] at other
  exact other rfl

end Booked

theorem CallSide.Happens.isOpen (happens : s.Happens s' es)
    (channels : ∀ b ∈ s.backends, b.IsChannel) (i : Nat) : s'.isOpen i = s.isOpen i :=
  any_accepts_congr (happens.kept.accepts channels) i

def CallSide.KeepsShut (s s' : CallSide) : Prop := ∀ i, s.isOpen i = false → s'.isOpen i = false

theorem CallSide.Happens.keepsShut (happens : s.Happens s' es)
    (channels : ∀ b ∈ s.backends, b.IsChannel) : s.KeepsShut s' :=
  fun i => (happens.isOpen channels i).trans

theorem CallSide.Moved.keepsShut (moved : s.Moved s' d)
    (channels : ∀ b ∈ s.backends, b.IsChannel) : s.KeepsShut s' := fun i shut =>
  Bool.eq_false_iff.mpr fun accepting =>
    Bool.false_ne_true (shut.symm.trans (moved.isOpen channels i accepting))

theorem Blamed.mono {answers more : List (RequestRef × Reply)} {call : Nat} {name : String}
    {e : RpcError} (blamed : Blamed names answers s call name e) (sub : answers ⊆ more)
    (shut : s.KeepsShut s') : Blamed names more s' call name e := by
  cases blamed with
  | answered named own => exact .answered named (sub own)
  | dropped named own same => exact .dropped named (sub own) same
  | closed named closed same => exact .closed named (shut _ closed) same

namespace Closes

variable {b : Block}

theorem mono (closes : Closes names turns l s b) (answers : l.answers ⊆ l'.answers)
    (ended : l.ended ⊆ l'.ended) (shut : s.KeepsShut s')
    (phase : s.phase.isInitialized = true → s'.phase = s.phase)
    (held : s.attempt.map Attempt.call = some b.call →
      s'.attempt.map Attempt.call = some b.call ∨ (b.call, .cancelled) ∈ l'.ended ∧ turns b.call) :
    Closes names turns l' s' b := by
  cases closes with
  | inFlight here =>
    rcases held here with still | ⟨gone, turn⟩
    · exact .inFlight still
    · exact .cancelled gone turn
  | cancelled gone turn => exact .cancelled (ended gone) turn
  | failed gone blamed turn => exact .failed (ended gone) (blamed.mono answers shut) turn
  | published gone initialized =>
    rw [← phase initialized]
    exact .published (ended gone) (phase initialized ▸ initialized)

theorem unpublished (closes : Closes names turns l s b) (uninitialized : s.phase = .uninitialized)
    (agents : List Agent) : b.closing ≠ .published agents := by
  cases closes with
  | published _ initialized => exact Phase.clash uninitialized initialized
  | _ => simp

end Closes

namespace Journal

theorem quiet (journal : Journal names turns l s blocks) {ended : List (Nat × Outcome)}
    (shut : s.KeepsShut s')
    (attempt : s'.attempt.map Attempt.call = s.attempt.map Attempt.call)
    (phase : s'.phase = s.phase)
    (order : (s'.waiting.map Prod.fst ++ s'.fresh.map Prod.fst).Sublist
      (s.waiting.map Prod.fst ++ s.fresh.map Prod.fst))
    (refused : ∀ {call outcome}, (call, outcome) ∈ ended → call ∈ l.handshakes →
      outcome = .error CallSide.invokedTwice) :
    Journal names turns (l ++ { ended }) s' blocks where
  asked b member := by
    rw [Ledger.handshakes_ended]
    exact journal.asked b member
  order := journal.order.sublist ((List.Sublist.refl _).append order)
  turn call held := journal.turn call (attempt ▸ held)
  closes b member := (journal.closes b member).mono (List.subset_append_left _ _)
    (List.subset_append_left _ _) shut (fun _ => phase) fun held => .inl (attempt.trans held)
  last := journal.last
  complete := journal.complete
  known {call outcome} gone handshake := by
    rw [Ledger.handshakes_ended] at handshake
    rcases List.mem_append.mp gone with before | now
    · exact journal.known before handshake
    · exact .inr (.inr (refused now handshake))

theorem opens (journal : Journal names turns l s blocks) (shut : s.KeepsShut s')
    (uninitialized : s.phase = .uninitialized) (free : s.attempt = none) {call : Nat}
    (handshake : call ∈ l.handshakes)
    (attempt : s'.attempt.map Attempt.call = some call) (phase : s'.phase = s.phase)
    (line : s.waiting.map Prod.fst ++ s.fresh.map Prod.fst =
      call :: (s'.waiting.map Prod.fst ++ s'.fresh.map Prod.fst)) :
    Journal names turns l s' (blocks ++ [⟨call, .silent⟩]) where
  asked b member := by
    rcases List.mem_append.mp member with before | new
    · exact journal.asked b before
    · rw [List.mem_singleton.mp new]
      exact handshake
  order := by
    have order := journal.order
    rw [line] at order
    rw [List.map_append, List.append_assoc]
    exact order
  turn c held := ⟨blocks, by rw [Option.some.inj (held.symm.trans attempt)]⟩
  closes b member := by
    rcases List.mem_append.mp member with before | new
    · refine (journal.closes b before).mono (List.Subset.refl _) (List.Subset.refl _) shut
        (fun _ => phase) fun held => ?_
      rw [free] at held
      cases held
    · rw [List.mem_singleton.mp new]
      exact .inFlight attempt
  last b member := by
    rw [List.dropLast_concat] at member
    exact (journal.closes b member).unpublished uninitialized
  complete c turn := by
    rw [List.map_append]
    exact List.mem_append_left _ (journal.complete c turn)
  known gone handshake := by
    rw [List.map_append]
    exact (journal.known gone handshake).imp_left (List.mem_append_left _)

theorem ends (journal : Journal names turns l s blocks) {call : Nat} {closing : Closing}
    {ended : List (Nat × Outcome)} (closes : Closes names turns (l ++ { ended }) s' ⟨call, closing⟩)
    (shut : s.KeepsShut s') (uninitialized : s.phase = .uninitialized)
    (held : s.attempt.map Attempt.call = some call) (free : s'.attempt = none)
    (waiting : s'.waiting = s.waiting) (fresh : s'.fresh = s.fresh)
    (others : ∀ {c outcome}, (c, outcome) ∈ ended → c ∈ l.handshakes → c = call) :
    ∃ before, blocks = before ++ [⟨call, .silent⟩] ∧
      Journal names turns (l ++ { ended }) s' (before ++ [⟨call, closing⟩]) := by
  obtain ⟨before, rfl⟩ := journal.turn call held
  refine ⟨before, rfl, ?_⟩
  have same : (before ++ [Block.mk call closing]).map Block.call =
      (before ++ [Block.mk call .silent]).map Block.call := by simp
  -- the calls are in order, so that no other block is that of this call
  have other {b : Block} (member : b ∈ before) : b.call ≠ call := by
    have order := (List.pairwise_append.mp journal.order).1
    rw [List.map_append] at order
    exact Nat.ne_of_lt ((List.pairwise_append.mp order).2.2 b.call (List.mem_map_of_mem member) call
      List.mem_cons_self)
  refine ⟨fun b member => ?_, ?_, fun c turn => ?_, fun b member => ?_, fun b member => ?_,
    fun c turn => same ▸ journal.complete c turn, fun gone handshake => ?_⟩
  · have asked : ∀ c ∈ (before ++ [Block.mk call .silent]).map Block.call, c ∈ l.handshakes :=
      List.forall_mem_map.mpr journal.asked
    rw [Ledger.handshakes_ended]
    exact asked b.call (same ▸ List.mem_map_of_mem member)
  · rw [same, waiting, fresh]
    exact journal.order
  · rw [free] at turn
    cases turn
  · rcases List.mem_append.mp member with old | new
    · refine (journal.closes b (List.mem_append_left _ old)).mono (List.subset_append_left _ _)
        (List.subset_append_left _ _) shut
        (fun initialized => Phase.clash uninitialized initialized) fun here => ?_
      exact absurd (Option.some.inj (here.symm.trans held)) (other old)
    · exact List.mem_singleton.mp new ▸ closes
  · rw [List.dropLast_concat] at member
    refine journal.last b ?_
    rw [List.dropLast_concat]
    exact member
  · rw [Ledger.handshakes_ended] at handshake
    rw [same]
    rcases List.mem_append.mp gone with old | now
    · exact journal.known old handshake
    · refine .inl ?_
      rw [others now handshake, List.map_append]
      exact List.mem_append_right _ List.mem_cons_self

theorem moved (journal : Journal names turns l s blocks) (observed : Observed l s)
    (channels : ∀ b ∈ s.backends, b.IsChannel) (quiet : s.Quiet)
    (turn : ∀ call, s.attempt.map Attempt.call = some call → turns call)
    (moved : s.Moved s' d) : Journal names turns (l ++ d) s' blocks where
  asked b member := by
    rw [Ledger.handshakes_append]
    exact List.mem_append_left _ (journal.asked b member)
  order := by
    have order := journal.order
    rw [quiet.fresh, List.map_nil, List.append_nil] at order
    rw [moved.waiting, moved.fresh quiet, ← List.append_assoc]
    refine List.pairwise_append.mpr ⟨order.sublist ((List.Sublist.refl _).append
      (List.filter_sublist.map _)), by cases moved <;> simp, fun call known new fresh => ?_⟩
    obtain ⟨x, issued, rfl⟩ := List.mem_map.mp fresh
    rw [moved.issued_new issued]
    rcases List.mem_append.mp known with started | waits
    · obtain ⟨b, member, rfl⟩ := List.mem_map.mp started
      exact observed.booked.handshake_lt (journal.asked b member)
    · obtain ⟨w, member, rfl⟩ := List.mem_map.mp waits
      exact observed.booked.numbered.lt
        (observed.booked.asked.waiting w (List.mem_of_mem_filter member))
  turn call held := journal.turn call (moved.turn_old held)
  closes b member := (journal.closes b member).mono (List.subset_append_left _ _)
    (List.subset_append_left _ _) (moved.keepsShut channels) (fun _ => moved.phase) fun held =>
      (moved.turn_kept held).imp_right fun gone => ⟨List.mem_append_right _ gone, turn _ held⟩
  last := journal.last
  complete := journal.complete
  known {call outcome} gone handshake := by
    rcases List.mem_append.mp gone with before | now
    · refine journal.known before ?_
      rw [Ledger.handshakes_append] at handshake
      refine (List.mem_append.mp handshake).resolve_right fun new => ?_
      obtain ⟨_, issued⟩ := Ledger.mem_handshakes.mp new
      exact Nat.ne_of_lt (observed.booked.ended _ before) (moved.issued_new issued)
    · exact .inr (.inl (moved.ended_cancelled now))

theorem turned (journal : Journal names turns l s blocks) {turns' : Nat → Prop}
    (more : ∀ call, turns call → turns' call)
    (only : ∀ call, turns' call → turns call ∨ s.attempt.map Attempt.call = some call) :
    Journal names turns' l s blocks where
  asked := journal.asked
  order := journal.order
  turn := journal.turn
  closes b member := by
    cases journal.closes b member with
    | inFlight held => exact .inFlight held
    | cancelled ended turn => exact .cancelled ended (more _ turn)
    | failed ended blamed turn => exact .failed ended blamed (turn.imp_left (more _))
    | published ended initialized => exact .published ended initialized
  last := journal.last
  complete call turn := by
    rcases only call turn with before | now
    · exact journal.complete call before
    · obtain ⟨before, rfl⟩ := journal.turn call now
      rw [List.map_append]
      exact List.mem_append_right _ List.mem_cons_self
  known := journal.known

end Journal

end Switchboard.Mux
