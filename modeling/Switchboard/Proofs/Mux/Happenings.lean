import Switchboard.Proofs.Mux.Accounts
import Switchboard.Proofs.Mux.Rest
import Switchboard.Proofs.Mux.Rounds

namespace Switchboard.Mux

def Log.isAboutCapabilities : Log → Bool
  | .noCapabilities _ | .malformedCapabilities .. => true
  | _ => false

def Log.isAboutNotifications : Log → Bool
  | .notificationDropped _ | .broadcastFailed .. => true
  | _ => false

/-- Neither the end of a call nor a record of a handshake, a request or a stream. -/
def Effect.isPlain : Effect → Bool
  | .ended .. => false
  | .sent .. => true
  | .logged log => log.isAboutNotifications

theorem endings_of_plain {es : List Effect} (plain : ∀ e ∈ es, e.isPlain = true) :
    endings es = [] :=
  endings_eq_nil fun e member => by
    cases e with
    | ended call outcome => cases plain _ member
    | _ => rfl

namespace CallSide

/-- Backends that have been sent something are what they were. -/
structure Kept (bs bs' : List Backend) : Prop where
  names : bs'.map Backend.name = bs.map Backend.name
  channels : (∀ b ∈ bs, b.IsChannel) → ∀ b ∈ bs', b.IsChannel
  accepts : (∀ b ∈ bs, b.IsChannel) → bs'.map Backend.accepts = bs.map Backend.accepts

theorem Kept.refl (bs : List Backend) : Kept bs bs := ⟨rfl, id, fun _ => rfl⟩

theorem Kept.trans {bs bs' bs'' : List Backend} (first : Kept bs bs') (second : Kept bs' bs'') :
    Kept bs bs'' where
  names := second.names.trans first.names
  channels channels := second.channels (first.channels channels)
  accepts channels := (second.accepts (first.channels channels)).trans (first.accepts channels)

/-- One thing that happens: a new call starts, routed requests end, or a handshake call goes on. -/
inductive Happens (s : CallSide) : CallSide → List Effect → Prop
  | watches {call : Nat} {rest : List (Nat × Ask)}
      (fresh : s.fresh = (call, .awaitHandshake) :: rest)
      (uninitialized : s.phase = .uninitialized) :
      Happens s { s with fresh := rest, watchers := s.watchers ++ [call] } []
  | watched {call : Nat} {rest : List (Nat × Ask)}
      (fresh : s.fresh = (call, .awaitHandshake) :: rest)
      (initialized : s.phase.isInitialized = true) :
      Happens s { s with fresh := rest } [.ended call (.ok .null)]
  -- A notification or a request ends. A handshake call does so by being refused.
  | concludes {call : Nat} {ask : Ask} {rest : List (Nat × Ask)} {bs : List Backend}
      {outcome : Outcome} {es : List Effect} (fresh : s.fresh = (call, ask) :: rest)
      (other : ask ≠ .awaitHandshake)
      (refused : ask.isHandshake = true → outcome = .error invokedTwice)
      (kept : Kept s.backends bs) (plain : ∀ e ∈ es, e.isPlain = true) :
      Happens s { s with fresh := rest, backends := bs } (es ++ [.ended call outcome])
  | stalls {call : Nat} {method : String} {params : Json} {rest : List (Nat × Ask)}
      {bs : List Backend} {es : List Effect}
      (fresh : s.fresh = (call, .notify method params) :: rest) (kept : Kept s.backends bs)
      (plain : ∀ e ∈ es, e.isPlain = true) :
      Happens s { s with fresh := rest, backends := bs, stalled := s.stalled ++ [call] } es
  | routes {call : Nat} {method : String} {params : Json} {rest : List (Nat × Ask)} {b : Backend}
      {others : List Backend} (fresh : s.fresh = (call, .request method params) :: rest)
      (other : isHandshake method = false) (some : s.backends = b :: others) :
      Happens s
        { s with
          fresh := rest
          backends := (b.request call method params).1 :: others
          routed := s.routed ++ [⟨call, method, (b.request call method params).2⟩] }
        [.sent 0 b.name true method params b.accepts]
  | queues {call : Nat} {method : String} {params : Json} {rest : List (Nat × Ask)}
      (fresh : s.fresh = (call, .request method params) :: rest)
      (handshake : isHandshake method = true) (uninitialized : s.phase = .uninitialized) :
      Happens s { s with fresh := rest, waiting := s.waiting ++ [(call, params)] } []
  | opens {call : Nat} {method : String} {params : Json} {rest : List (Nat × Ask)}
      (fresh : s.fresh = (call, .request method params) :: rest)
      (handshake : isHandshake method = true) (uninitialized : s.phase = .uninitialized)
      (free : s.attempt = none) (empty : s.waiting = []) :
      Happens s { s.opened call params with fresh := rest } (fanOutEffects s.backends params)
  | turns {call : Nat} {params : Json} {rest : List (Nat × Json)}
      (next : s.waiting = (call, params) :: rest) (uninitialized : s.phase = .uninitialized)
      (free : s.attempt = none) :
      Happens s { s.opened call params with waiting := rest } (fanOutEffects s.backends params)
  | refuses {call : Nat} {params : Json} {rest : List (Nat × Json)}
      (next : s.waiting = (call, params) :: rest) (initialized : s.phase.isInitialized = true) :
      Happens s { s with waiting := rest } [.ended call (.error invokedTwice)]
  | advances {a : Attempt} (held : s.attempt = some a) : Happens s (s.advance a).1 (s.advance a).2
  | ends : Happens s s.endRouted.1 s.endRouted.2

inductive Runs (s : CallSide) : CallSide → List Effect → Prop
  | rest : Runs s s []
  | more {s₁ s₂ : CallSide} {es es' : List Effect} (runs : Runs s s₁ es)
      (next : s₁.Happens s₂ es') : Runs s s₂ (es ++ es')

variable {s s₁ s₂ : CallSide} {es es' : List Effect}

theorem Happens.runs (happens : s.Happens s₁ es) : s.Runs s₁ es := .more .rest happens

theorem Runs.trans (first : s.Runs s₁ es) (second : s₁.Runs s₂ es') : s.Runs s₂ (es ++ es') := by
  induction second with
  | rest =>
    rw [List.append_nil]
    exact first
  | more _ next ih =>
    rw [← List.append_assoc]
    exact .more ih next

theorem advance_fresh (s : CallSide) (a : Attempt) (fresh : List (Nat × Ask))
    (attempt : Option Attempt) :
    ({ s with fresh, attempt } : CallSide).advance a =
      ({ (s.advance a).1 with fresh }, (s.advance a).2) := by
  unfold advance
  split <;> rfl

theorem advance_waiting (s : CallSide) (a : Attempt) (waiting : List (Nat × Json))
    (attempt : Option Attempt) :
    ({ s with waiting, attempt } : CallSide).advance a =
      ({ (s.advance a).1 with waiting }, (s.advance a).2) := by
  unfold advance
  split <;> rfl

theorem broadcast_plain (method : String) (params : Json) (index : Nat) (bs : List Backend) :
    ∀ e ∈ (broadcast method params index bs).2.2, e.isPlain = true := by
  induction bs generalizing index with
  | nil => nofun
  | cons b rest ih =>
    rw [broadcast]
    dsimp only
    split
    · exact List.forall_mem_cons.mpr ⟨rfl, ih (index + 1)⟩
    · simp [Effect.isPlain, Log.isAboutNotifications]
    · simp [Effect.isPlain]

theorem broadcast_kept (method : String) (params : Json) (index : Nat) (bs : List Backend) :
    Kept bs (broadcast method params index bs).1 :=
  ⟨names_broadcast method params index bs,
    fun channels => (broadcast_spec method params index channels).1.channels,
    fun channels => (broadcast_spec method params index channels).1.accepts⟩

theorem startHandshake_runs {call : Nat} {method : String} {params : Json}
    {rest : List (Nat × Ask)} (handshake : isHandshake method = true)
    (uninitialized : s.phase = .uninitialized) :
    ({ s with fresh := (call, .request method params) :: rest } : CallSide).Runs
      { (s.startHandshake call params).1 with fresh := rest } (s.startHandshake call params).2 := by
  unfold startHandshake
  split
  · exact Happens.runs (.queues rfl handshake uninitialized)
  · rename_i busy
    have idle : s.attempt = none ∧ s.waiting = [] := by simpa [not_or] using busy
    have opens : ({ s with fresh := (call, .request method params) :: rest } : CallSide).Happens
        { s.opened call params with fresh := rest } (fanOutEffects s.backends params) :=
      .opens rfl handshake uninitialized idle.1 idle.2
    dsimp only
    rw [openAttempt_effects]
    split
    · have next := Happens.advances (s := { s.opened call params with fresh := rest }) rfl
      rw [show ({ s.opened call params with fresh := rest } : CallSide).advance _ = _ from
        advance_fresh (s.openAttempt call params).1 (s.begun call params) rest _] at next
      exact .more opens.runs next
    · exact opens.runs

theorem start_runs (s : CallSide) (x : Nat × Ask) (rest : List (Nat × Ask)) :
    ({ s with fresh := x :: rest } : CallSide).Runs { (s.start x).1 with fresh := rest }
      (s.start x).2 := by
  obtain ⟨call, ask⟩ := x
  -- a call that ends at once does so in one thing that happens, whatever it asks for
  have concludes (es : List Effect) {ask : Ask} {bs : List Backend} {outcome : Outcome}
      (other : ask ≠ .awaitHandshake)
      (refused : ask.isHandshake = true → outcome = .error invokedTwice)
      (kept : Kept s.backends bs) (plain : ∀ e ∈ es, e.isPlain = true) :
      ({ s with fresh := (call, ask) :: rest } : CallSide).Runs
        { s with fresh := rest, backends := bs } (es ++ [.ended call outcome]) :=
    Happens.runs (.concludes rfl other refused kept plain)
  have same : Kept s.backends s.backends := .refl _
  cases ask with
  | awaitHandshake =>
    rw [start]
    split
    · rename_i initialized
      exact Happens.runs (.watched rfl initialized)
    · rename_i uninitialized
      exact Happens.runs
        (.watches rfl (Phase.isInitialized_eq_false.mp (Bool.eq_false_iff.mpr uninitialized)))
  | notify method params =>
    have other : Ask.notify method params ≠ .awaitHandshake := by simp
    have free {outcome : Outcome} :
        (Ask.notify method params).isHandshake = true → outcome = .error invokedTwice := by
      simp [Ask.isHandshake]
    rw [start]
    split
    · exact concludes [.logged _] other free same
        (by simp [Effect.isPlain, Log.isAboutNotifications])
    · have kept := broadcast_kept method params 0 s.backends
      have plain := broadcast_plain method params 0 s.backends
      dsimp only
      split
      · exact concludes _ other free kept plain
      · exact concludes _ other free kept plain
      · exact concludes _ other free kept plain
      · exact Happens.runs (.stalls rfl kept plain)
  | request method params =>
    have other : Ask.request method params ≠ .awaitHandshake := by simp
    rw [start]
    split
    · rename_i uninitialized
      split
      · rename_i handshake
        exact startHandshake_runs handshake uninitialized
      · rename_i early
        exact concludes [] other (absurd · early) same (List.forall_mem_nil _)
    · cases handshake : isHandshake method with
      | true => exact concludes [] other (fun _ => rfl) same (List.forall_mem_nil _)
      | false =>
        simp only [Bool.false_eq_true, if_false]
        split
        · have refused : (Ask.request method params).isHandshake ≠ true := by
            simp [Ask.isHandshake, handshake]
          exact concludes [] other (absurd · refused) same (List.forall_mem_nil _)
        · rename_i b others some
          exact Happens.runs (.routes rfl handshake some)

theorem startAll_runs (calls : List (Nat × Ask)) (fresh : s.fresh = []) :
    ({ s with fresh := calls } : CallSide).Runs (overAll start calls s).1
      (overAll start calls s).2 := by
  induction calls generalizing s with
  | nil =>
    have same : ({ s with fresh := [] } : CallSide) = s := by rw [← fresh]
    rw [same]
    exact .rest
  | cons x rest ih => exact (start_runs s x rest).trans (ih ((fresh_start s x).trans fresh))

theorem takeTurns_runs (line : List (Nat × Json)) (empty : s.waiting = []) :
    ({ s with waiting := line } : CallSide).Runs (takeTurns line s).1 (takeTurns line s).2 := by
  induction line generalizing s with
  | nil =>
    have same : ({ s with waiting := [] } : CallSide) = s := by rw [← empty]
    rw [same]
    exact .rest
  | cons w rest ih =>
    obtain ⟨call, params⟩ := w
    rw [takeTurns]
    split
    · exact .rest
    · rename_i idle
      have free : s.attempt = none := by simpa using idle
      split
      · rename_i initialized
        have refuses : ({ s with waiting := (call, params) :: rest } : CallSide).Happens
            { s with waiting := rest } [.ended call (.error invokedTwice)] :=
          .refuses rfl initialized
        exact refuses.runs.trans (ih empty)
      · rename_i uninitialized
        have phase := Phase.isInitialized_eq_false.mp (Bool.eq_false_iff.mpr uninitialized)
        have turns : ({ s with waiting := (call, params) :: rest } : CallSide).Happens
            { s.opened call params with waiting := rest } (fanOutEffects s.backends params) :=
          .turns rfl phase free
        have next := Happens.advances (s := { s.opened call params with waiting := rest }) rfl
        rw [show ({ s.opened call params with waiting := rest } : CallSide).advance _ = _ from
          advance_waiting (s.openAttempt call params).1 (s.begun call params) rest _] at next
        dsimp only
        rw [openAttempt_effects]
        exact (Runs.more turns.runs next).trans (ih ((waiting_advance _ _).trans empty))

theorem handshakes_runs (s : CallSide) : s.Runs s.handshakes.1 s.handshakes.2 := by
  unfold handshakes
  cases held : s.attempt with
  | none => exact takeTurns_runs s.waiting (s := { s with waiting := [] }) rfl
  | some a =>
    exact (Happens.runs (.advances held)).trans
      (takeTurns_runs _ (s := { (s.advance a).1 with waiting := [] }) rfl)

theorem settle_runs (s : CallSide) : s.Runs s.settle.1 s.settle.2 :=
  ((startAll_runs s.fresh (s := { s with fresh := [] }) rfl).trans (Happens.runs .ends)).trans
    (handshakes_runs _)

end CallSide

end Switchboard.Mux
