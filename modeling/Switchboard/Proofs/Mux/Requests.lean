import Switchboard.Mux.CallSide.Settle
import Switchboard.Mux.CallSide.Peer
import Switchboard.Proofs.Mux.Attempts

namespace Switchboard.Mux

namespace CallSide

/-- The number of copies of a request: in its backend's queue, or received and not answered. -/
def copies (s : CallSide) (ref : RequestRef) : Nat :=
  ((s.backends[ref.backend]?.map fun b => b.requestsOf ref.call).getD 0) +
    s.tickets.count (some ref)

variable {s : CallSide}

@[simp] theorem copies_deliver (ref r : RequestRef) (reply : Reply) :
    (s.deliver r reply).copies ref = s.copies ref := rfl

theorem requestsOf_request {b : Backend} (channel : b.IsChannel) (call c : Nat) (method : String)
    (params : Json) :
    (b.request call method params).1.requestsOf c =
      b.requestsOf c + if b.accepts = true ∧ c = call then 1 else 0 := by
  rw [Backend.requestsOf, Backend.requestsOf, (channel.request_eq ..).2]
  cases b.accepts
  · simp
  · by_cases same : c = call
    · simp [Outbound.isOf, same]
    · have differs : (call == c) = false := by simpa using fun e => same e.symm
      simp [Outbound.isOf, same, differs]

theorem requestsOf_notify {b : Backend} (channel : b.IsChannel) (c : Nat) (method : String)
    (params : Json) : (b.notify method params).1.requestsOf c = b.requestsOf c := by
  rw [Backend.requestsOf, Backend.requestsOf, (channel.notify_eq ..).2]
  cases b.accepts <;> simp [Outbound.isOf]

def isOpen (s : CallSide) (index : Nat) : Bool := s.backends[index]?.any Backend.accepts

/-- The second list is the first after requests for these calls to each open channel, and
    notifications. -/
structure SentTo (calls : List Nat) (bs bs' : List Backend) : Prop where
  names : bs'.map Backend.name = bs.map Backend.name
  accepts : bs'.map Backend.accepts = bs.map Backend.accepts
  channels : ∀ b ∈ bs', b.IsChannel
  requests : ∀ call, bs'.map (·.requestsOf call) =
    bs.map fun b => b.requestsOf call + if b.accepts = true then calls.count call else 0

theorem SentTo.nothing {bs : List Backend} (channels : ∀ b ∈ bs, b.IsChannel) :
    SentTo [] bs bs := ⟨rfl, rfl, channels, by simp⟩

theorem SentTo.request {bs : List Backend} (channels : ∀ b ∈ bs, b.IsChannel) (call : Nat)
    (method : String) (params : Json) :
    SentTo [call] bs (bs.map fun b => (b.request call method params).1) where
  names := by simp
  accepts := by
    rw [List.map_map]
    exact List.map_congr_left fun b member => (channels b member).accepts_request ..
  channels := by
    intro b' member'
    obtain ⟨b, member, rfl⟩ := List.mem_map.mp member'
    exact (channels b member).request ..
  requests c := by
    rw [List.map_map]
    refine List.map_congr_left fun b member => ?_
    rw [Function.comp_apply, requestsOf_request (channels b member)]
    by_cases same : c = call
    · simp [same]
    · simp [same, Ne.symm same]

theorem SentTo.notify {b : Backend} {bs bs' : List Backend}
    (sent : SentTo [] bs bs') (channel : b.IsChannel) (method : String) (params : Json) :
    SentTo [] (b :: bs) ((b.notify method params).1 :: bs') where
  names := by simp [sent.names]
  accepts := by simp [sent.accepts, channel.accepts_notify]
  channels := List.forall_mem_cons.mpr ⟨channel.notify .., sent.channels⟩
  requests call := by simp [sent.requests, requestsOf_notify channel]

theorem SentTo.trans {calls calls' : List Nat} {bs bs' bs'' : List Backend}
    (first : SentTo calls bs bs') (second : SentTo calls' bs' bs'') :
    SentTo (calls ++ calls') bs bs'' where
  names := second.names.trans first.names
  accepts := second.accepts.trans first.accepts
  channels := second.channels
  requests call := by
    have length : bs'.length = bs.length := by simpa using congrArg List.length first.names
    rw [second.requests]
    refine List.ext_getElem (by simp [length]) fun i bound bound' => ?_
    simp only [List.length_map] at bound bound'
    have accepts := List.getElem_of_eq first.accepts (i := i) (by simpa using bound)
    have requests := List.getElem_of_eq (first.requests call) (i := i) (by simpa using bound)
    simp only [List.getElem_map] at accepts requests ⊢
    rw [requests, accepts]
    simp only [List.count_append]
    split <;> omega

theorem SentTo.copies {calls : List Nat} {bs : List Backend} (sent : SentTo calls s.backends bs)
    (ref : RequestRef) :
    ({ s with backends := bs } : CallSide).copies ref =
      s.copies ref + if s.isOpen ref.backend = true then calls.count ref.call else 0 := by
  simp only [CallSide.copies, ← List.getElem?_map, sent.requests]
  rcases Option.eq_none_or_eq_some s.backends[ref.backend]? with here | ⟨b, here⟩
  · simp [isOpen, here]
  · simp only [isOpen, List.getElem?_map, here, Option.map_some, Option.getD_some, Option.any_some]
    omega

def Queued (bs : List Backend) (call : Nat) (method : String) (params : Json) : Prop :=
  ∃ b ∈ bs, Outbound.request call method params ∈ b.queue

theorem Queued.of_request {bs : List Backend} (channels : ∀ b ∈ bs, b.IsChannel) {c call : Nat}
    {m method : String} {p params : Json}
    (queued : Queued (bs.map fun b => (b.request c m p).1) call method params) :
    Queued bs call method params ∨ call = c ∧ method = m ∧ params = p := by
  obtain ⟨b', member', here⟩ := queued
  obtain ⟨b, member, rfl⟩ := List.mem_map.mp member'
  rw [((channels b member).request_eq ..).2] at here
  split at here
  · rcases List.mem_append.mp here with old | new
    · exact .inl ⟨b, member, old⟩
    · cases List.mem_singleton.mp new
      exact .inr ⟨rfl, rfl, rfl⟩
  · exact .inl ⟨b, member, here⟩

theorem Queued.of_broadcast {m : String} {p : Json} {index : Nat} {bs : List Backend}
    (channels : ∀ b ∈ bs, b.IsChannel) {call : Nat} {method : String} {params : Json}
    (queued : Queued (broadcast m p index bs).1 call method params) :
    Queued bs call method params := by
  induction bs generalizing index with
  | nil => exact queued
  | cons b rest ih =>
    obtain ⟨channel, others⟩ := List.forall_mem_cons.mp channels
    have first (here : Outbound.request call method params ∈ (b.notify m p).1.queue) :
        Queued (b :: rest) call method params := by
      rw [(channel.notify_eq ..).2] at here
      refine ⟨b, List.mem_cons_self, ?_⟩
      split at here
      · rcases List.mem_append.mp here with old | new
        · exact old
        · cases List.mem_singleton.mp new
      · exact here
    have later (here : Queued rest call method params) : Queued (b :: rest) call method params := by
      obtain ⟨b', member, here⟩ := here
      exact ⟨b', List.mem_cons_of_mem b member, here⟩
    rw [broadcast] at queued
    dsimp only at queued
    split at queued
    · obtain ⟨b', member, here⟩ := queued
      rcases List.mem_cons.mp member with rfl | member
      · exact first here
      · exact later (ih others ⟨b', member, here⟩)
    all_goals
      obtain ⟨b', member, here⟩ := queued
      rcases List.mem_cons.mp member with rfl | member
      · exact first here
      · exact later ⟨b', member, here⟩

theorem broadcast_spec (method : String) (params : Json) : ∀ (index : Nat) {bs : List Backend},
    (∀ b ∈ bs, b.IsChannel) →
    SentTo [] bs (broadcast method params index bs).1 ∧
      ∃ reply, (broadcast method params index bs).2.1 = some reply ∧
        (reply = .ok .null ∨ ∃ b ∈ bs, b.accepts = false ∧ reply = .error b.closedError)
  | _, [], channels => ⟨.nothing channels, .ok .null, rfl, .inl rfl⟩
  | index, b :: rest, channels => by
    obtain ⟨channel, others⟩ := List.forall_mem_cons.mp channels
    have taken := (channel.notify_eq method params).1
    cases accepting : b.accepts with
    | true =>
      obtain ⟨sent, reply, outcome, kind⟩ := broadcast_spec method params (index + 1) others
      simp only [accepting, if_true] at taken
      simp only [broadcast, taken]
      refine ⟨sent.notify channel .., reply, outcome, kind.imp_right ?_⟩
      rintro ⟨b', member, closed, error⟩
      exact ⟨b', List.mem_cons_of_mem b member, closed, error⟩
    | false =>
      simp only [accepting, Bool.false_eq_true, if_false] at taken
      simp only [broadcast, taken]
      exact ⟨(SentTo.nothing others).notify channel .., _, rfl,
        .inr ⟨b, List.mem_cons_self, accepting, rfl⟩⟩

theorem copies_route {b : Backend} {rest : List Backend} (here : s.backends = b :: rest)
    (channel : b.IsChannel) (call : Nat) (method : String) (params : Json) (ref : RequestRef) :
    ({ s with backends := (b.request call method params).1 :: rest } : CallSide).copies ref =
      s.copies ref + if b.accepts = true ∧ ref = ⟨call, 0⟩ then 1 else 0 := by
  obtain ⟨c, index⟩ := ref
  simp only [copies, here, RequestRef.mk.injEq]
  cases index with
  | zero =>
    simp only [List.getElem?_cons_zero, Option.map_some, Option.getD_some,
      requestsOf_request channel, and_true]
    omega
  | succ index => simp

theorem copies_tickets (tickets : List (Option RequestRef)) (ref : RequestRef) :
    ({ s with tickets } : CallSide).copies ref + s.tickets.count (some ref) =
      s.copies ref + tickets.count (some ref) := by
  simp only [copies]
  omega

theorem count_issued (tickets : List (Option RequestRef)) (ref r : RequestRef) :
    (tickets ++ [some r]).count (some ref) =
      tickets.count (some ref) + if ref = r then 1 else 0 := by
  rw [List.count_append]
  by_cases same : ref = r
  · simp [same]
  · simp [same, Ne.symm same]

theorem copies_of_backend {b : Backend} {ref : RequestRef}
    (here : s.backends[ref.backend]? = some b) :
    s.copies ref = b.requestsOf ref.call + s.tickets.count (some ref) := by
  rw [copies, here]
  rfl

theorem copies_modify {b : Backend} {index : Nat} (here : s.backends[index]? = some b)
    (f : Backend → Backend) (ref : RequestRef) :
    ({ s with backends := s.backends.modify index f } : CallSide).copies ref =
      if ref.backend = index then (f b).requestsOf ref.call + s.tickets.count (some ref)
      else s.copies ref := by
  by_cases same : ref.backend = index
  · rw [if_pos same]
    exact copies_of_backend (by simp [same, here])
  · rw [if_neg same, copies, copies]
    simp [Ne.symm same]

def front? (s : CallSide) (index : Nat) : Option Outbound :=
  (s.backends[index]?.bind Backend.outbound?).bind List.head?

theorem receive_cases (channels : ∀ b ∈ s.backends, b.IsChannel) (index : Nat) :
    (s.front? index = none ∧ (s.receive index).1 = s) ∨
      ∃ b, s.backends[index]? = some b ∧ b.accepts = true ∧
        ((∃ method params rest, b.queue = .notification method params :: rest ∧
          s.receive index = ({ s with backends := s.backends.modify index .dequeue },
            .notification method params)) ∨
        ∃ call method params rest, b.queue = .request call method params :: rest ∧
          s.receive index =
            ({ s with
                backends := s.backends.modify index .dequeue
                tickets := s.tickets ++ [some ⟨call, index⟩] },
              .request method params s.tickets.length)) := by
  unfold receive front?
  cases here : s.backends[index]? with
  | none => exact .inl ⟨rfl, rfl⟩
  | some b =>
    have outbound := (channels b (List.mem_of_getElem? here)).outbound?_eq
    cases accepting : b.accepts with
    | false =>
      rw [accepting] at outbound
      simp only [Option.bind_some, outbound]
      exact .inl ⟨rfl, rfl⟩
    | true =>
      rw [accepting, if_pos rfl] at outbound
      simp only [Option.bind_some, outbound]
      cases queue : b.queue with
      | nil => exact .inl ⟨rfl, rfl⟩
      | cons m rest =>
        refine .inr ⟨b, rfl, accepting, ?_⟩
        cases m with
        | notification method params => exact .inl ⟨method, params, rest, queue, rfl⟩
        | request call method params => exact .inr ⟨call, method, params, rest, queue, rfl⟩

theorem requestsOf_dequeue {b : Backend} (channel : b.IsChannel) {m : Outbound}
    {rest : List Outbound} (queue : b.queue = m :: rest) (call : Nat) :
    b.requestsOf call = b.dequeue.requestsOf call + if m.isOf call then 1 else 0 := by
  rw [Backend.requestsOf, Backend.requestsOf, channel.queue_dequeue, queue, List.countP_cons,
    List.tail_cons]

theorem copies_dequeue {index : Nat} {b : Backend} (here : s.backends[index]? = some b)
    (channel : b.IsChannel) {m : Outbound} {rest : List Outbound} (queue : b.queue = m :: rest)
    (ref : RequestRef) :
    ({ s with backends := s.backends.modify index .dequeue } : CallSide).copies ref +
      (if ref.backend = index ∧ m.isOf ref.call = true then 1 else 0) = s.copies ref := by
  have count := requestsOf_dequeue channel queue ref.call
  rw [copies_modify here]
  by_cases same : ref.backend = index
  · rw [if_pos same, copies_of_backend (same ▸ here), count]
    simp only [same, true_and]
    omega
  · simp [same]

theorem copies_taken {index : Nat} {b : Backend} (here : s.backends[index]? = some b)
    (channel : b.IsChannel) {call : Nat} {method : String} {params : Json} {rest : List Outbound}
    (queue : b.queue = .request call method params :: rest) (ref : RequestRef) :
    ({ s with
        backends := s.backends.modify index .dequeue
        tickets := s.tickets ++ [some ⟨call, index⟩] } : CallSide).copies ref = s.copies ref := by
  have left := copies_dequeue here channel queue ref
  have total := copies_tickets (s := { s with backends := s.backends.modify index .dequeue })
    (s.tickets ++ [some (⟨call, index⟩ : RequestRef)]) ref
  rw [count_issued] at total
  obtain ⟨c, i⟩ := ref
  simp only [Outbound.isOf, beq_iff_eq, RequestRef.mk.injEq] at left total ⊢
  by_cases same : c = call ∧ i = index
  · rw [if_pos same] at total
    rw [if_pos ⟨same.2, same.1.symm⟩] at left
    omega
  · rw [if_neg same] at total
    rw [if_neg fun e => same ⟨e.2.symm, e.1⟩] at left
    omega

theorem mem_tickets {ticket : Nat} {ref : RequestRef} (good : s.ticket? ticket = some ref) :
    some ref ∈ s.tickets :=
  List.mem_of_getElem? (Option.join_eq_some_iff.mp good)

theorem copies_pos_of_ticket {ref : RequestRef} (held : some ref ∈ s.tickets) :
    0 < s.copies ref :=
  Nat.lt_of_lt_of_le (List.count_pos_iff.mpr held) (Nat.le_add_left ..)

theorem copies_answer {ticket : Nat} {r : RequestRef} (good : s.ticket? ticket = some r)
    (reply : Reply) (ref : RequestRef) :
    (s.answer ticket r reply).copies ref + (if ref = r then 1 else 0) = s.copies ref := by
  have here : s.tickets[ticket]? = some (some r) := Option.join_eq_some_iff.mp good
  obtain ⟨bound, same⟩ := List.getElem?_eq_some_iff.mp here
  have total := copies_tickets (s := s) (s.tickets.set ticket none) ref
  have held : s.tickets[ticket] ∈ s.tickets := List.getElem_mem bound
  rw [List.count_set bound, same] at total
  rw [answer, copies_deliver]
  by_cases ours : ref = r
  · subst ours
    have positive : 0 < s.tickets.count (some ref) := List.count_pos_iff.mpr (same ▸ held)
    simp at total
    simp
    omega
  · have differs : (some r == some ref) = false := by simpa using Ne.symm ours
    simp [differs, ours] at total ⊢
    omega

theorem mem_queuedRequests {index : Nat} {queue : List Outbound} {ref : RequestRef} :
    ref ∈ queuedRequests index queue ↔
      ref.backend = index ∧ 0 < queue.countP (·.isOf ref.call) := by
  obtain ⟨c, i⟩ := ref
  simp only [queuedRequests, List.mem_filterMap, List.countP_pos_iff]
  constructor
  · rintro ⟨m, member, found⟩
    cases m with
    | notification method params => cases found
    | request call method params =>
      cases found
      exact ⟨rfl, _, member, by simp [Outbound.isOf]⟩
  · rintro ⟨rfl, m, member, found⟩
    cases m with
    | notification method params => cases found
    | request call method params =>
      simp only [Outbound.isOf, beq_iff_eq] at found
      exact ⟨_, member, by simp [found]⟩

theorem foldl_deliver (reply : Reply) (refs : List RequestRef) (s : CallSide) :
    refs.foldl (fun s ref => s.deliver ref reply) s =
      { s with
        attempt := s.attempt.map fun a => refs.foldl (fun a ref => a.hear ref reply) a
        routed := s.routed.map fun r => refs.foldl (fun r ref => r.hear ref reply) r } := by
  induction refs generalizing s with
  | nil => simp
  | cons ref rest ih =>
    rw [List.foldl_cons, ih]
    simp only [deliver, Option.map_map, List.map_map]
    rfl

theorem closeOutbound_cases (channels : ∀ b ∈ s.backends, b.IsChannel) (index : Nat) :
    (s.closeOutbound index = (s, false) ∧ ∀ b, s.backends[index]? = some b → b.accepts = false) ∨
      ∃ b, s.backends[index]? = some b ∧ b.accepts = true ∧
        s.closeOutbound index =
          ({ s with
              backends := s.backends.modify index .close
              attempt := s.attempt.map fun a =>
                (queuedRequests index b.queue).foldl (fun a ref => a.hear ref .dropped) a
              routed := s.routed.map fun r =>
                (queuedRequests index b.queue).foldl (fun r ref => r.hear ref .dropped) r },
            true) := by
  unfold closeOutbound
  cases here : s.backends[index]? with
  | none => exact .inl ⟨rfl, nofun⟩
  | some b =>
    have outbound := (channels b (List.mem_of_getElem? here)).outbound?_eq
    cases accepting : b.accepts with
    | false =>
      rw [accepting] at outbound
      simp only [Option.bind_some, outbound]
      exact .inl ⟨rfl, fun b' same => by cases same; exact accepting⟩
    | true =>
      rw [accepting, if_pos rfl] at outbound
      simp only [Option.bind_some, outbound, foldl_deliver]
      exact .inr ⟨b, rfl, accepting, rfl⟩

theorem copies_close {index : Nat} {b : Backend} (here : s.backends[index]? = some b)
    (channel : b.IsChannel) (ref : RequestRef) :
    ({ s with backends := s.backends.modify index .close } : CallSide).copies ref =
      if ref.backend = index then s.tickets.count (some ref) else s.copies ref := by
  rw [copies_modify here, Backend.requestsOf, channel.queue_close, List.countP_nil, Nat.zero_add]

end CallSide

end Switchboard.Mux
