import Switchboard.Mux.Backend

namespace Switchboard.Mux

def Outbound.isOf (call : Nat) : Outbound → Bool
  | .request c _ _ => c == call
  | .notification .. => false

namespace Backend

/-- A backend over a channel. A closed channel holds nothing. -/
def IsChannel (b : Backend) : Prop :=
  ∃ c, b.link = .channel c ∧ (c.isOpen = false → c.queue = [])

def queue (b : Backend) : List Outbound :=
  match b.link with
  | .channel c => c.queue
  | .scripted _ => []

def requestsOf (b : Backend) (call : Nat) : Nat := b.queue.countP (·.isOf call)

theorem of_outbound {b : Backend} {queue : List Outbound} (outbound : b.outbound? = some queue) :
    b.accepts = true ∧ b.queue = queue := by
  unfold outbound? at outbound
  split at outbound
  · rename_i c link
    split at outbound
    · rename_i isOpen
      cases outbound
      simp only [accepts, Backend.queue, link, isOpen, and_self]
    · cases outbound
  · cases outbound

theorem isChannel_ofName (name : String) : (ofName name).IsChannel :=
  ⟨{}, rfl, fun _ => rfl⟩

@[simp] theorem name_request (b : Backend) (call : Nat) (method : String) (params : Json) :
    (b.request call method params).1.name = b.name := by
  unfold request
  split
  · split <;> rfl
  · split <;> rfl

@[simp] theorem name_notify (b : Backend) (method : String) (params : Json) :
    (b.notify method params).1.name = b.name := by
  unfold notify
  split
  · split <;> rfl
  · rfl

@[simp] theorem name_dequeue (b : Backend) : b.dequeue.name = b.name := by
  unfold dequeue
  split <;> rfl

@[simp] theorem name_close (b : Backend) : b.close.name = b.name := by
  unfold close
  split <;> rfl

variable {b : Backend}

theorem IsChannel.queue_of_closed (channel : b.IsChannel) (closed : b.accepts = false) :
    b.queue = [] := by
  obtain ⟨c, link, empty⟩ := channel
  simp only [accepts, link] at closed
  simp only [queue, link]
  exact empty closed

theorem IsChannel.request_eq (channel : b.IsChannel) (call : Nat) (method : String)
    (params : Json) :
    (b.request call method params).2 = (if b.accepts then none else some (.error b.closedError)) ∧
      (b.request call method params).1.queue =
        (if b.accepts then b.queue ++ [.request call method params] else b.queue) := by
  obtain ⟨c, link, -⟩ := channel
  cases h : c.isOpen <;> simp [request, accepts, queue, link, h]

theorem IsChannel.accepts_request (channel : b.IsChannel) (call : Nat) (method : String)
    (params : Json) : (b.request call method params).1.accepts = b.accepts := by
  obtain ⟨c, link, -⟩ := channel
  cases h : c.isOpen <;> simp [request, accepts, link, h]

theorem IsChannel.request (channel : b.IsChannel) (call : Nat) (method : String)
    (params : Json) : (b.request call method params).1.IsChannel := by
  obtain ⟨c, link, empty⟩ := channel
  cases h : c.isOpen
  · exact ⟨c, by simp [Backend.request, link, h], empty⟩
  · exact ⟨{ c with queue := c.queue ++ [.request call method params] },
      by simp [Backend.request, link, h], by simp [h]⟩

theorem IsChannel.notify_eq (channel : b.IsChannel) (method : String) (params : Json) :
    (b.notify method params).2 =
        some (if b.accepts then .ok .null else .error b.closedError) ∧
      (b.notify method params).1.queue =
        (if b.accepts then b.queue ++ [.notification method params] else b.queue) := by
  obtain ⟨c, link, -⟩ := channel
  cases h : c.isOpen <;> simp [notify, accepts, queue, link, h]

theorem IsChannel.accepts_notify (channel : b.IsChannel) (method : String) (params : Json) :
    (b.notify method params).1.accepts = b.accepts := by
  obtain ⟨c, link, -⟩ := channel
  cases h : c.isOpen <;> simp [notify, accepts, link, h]

theorem IsChannel.notify (channel : b.IsChannel) (method : String) (params : Json) :
    (b.notify method params).1.IsChannel := by
  obtain ⟨c, link, empty⟩ := channel
  cases h : c.isOpen
  · exact ⟨c, by simp [Backend.notify, link, h], empty⟩
  · exact ⟨{ c with queue := c.queue ++ [.notification method params] },
      by simp [Backend.notify, link, h], by simp [h]⟩

theorem IsChannel.dequeue (channel : b.IsChannel) : b.dequeue.IsChannel := by
  obtain ⟨c, link, empty⟩ := channel
  exact ⟨{ c with queue := c.queue.tail }, by simp [Backend.dequeue, link],
    fun closed => by simp [empty closed]⟩

theorem IsChannel.queue_dequeue (channel : b.IsChannel) : b.dequeue.queue = b.queue.tail := by
  obtain ⟨c, link, -⟩ := channel
  simp [Backend.dequeue, queue, link]

theorem IsChannel.accepts_dequeue (channel : b.IsChannel) : b.dequeue.accepts = b.accepts := by
  obtain ⟨c, link, -⟩ := channel
  simp [Backend.dequeue, accepts, link]

theorem IsChannel.dequeue_of_empty (channel : b.IsChannel) (empty : b.queue = []) :
    b.dequeue = b := by
  obtain ⟨⟨isOpen, queue⟩, link, -⟩ := channel
  obtain ⟨name, _⟩ := b
  cases link
  cases (show queue = [] from empty)
  rfl

theorem IsChannel.close (channel : b.IsChannel) : b.close.IsChannel := by
  obtain ⟨c, link, -⟩ := channel
  exact ⟨⟨false, []⟩, by simp [Backend.close, link], fun _ => rfl⟩

theorem IsChannel.queue_close (channel : b.IsChannel) : b.close.queue = [] := by
  obtain ⟨c, link, -⟩ := channel
  simp [Backend.close, queue, link]

theorem IsChannel.close_of_closed (channel : b.IsChannel) (closed : b.accepts = false) :
    b.close = b := by
  have empty := channel.queue_of_closed closed
  obtain ⟨⟨isOpen, queue⟩, link, -⟩ := channel
  obtain ⟨name, _⟩ := b
  cases link
  cases (show isOpen = false from closed)
  cases (show queue = [] from empty)
  rfl

theorem IsChannel.accepts_close (channel : b.IsChannel) : b.close.accepts = false := by
  obtain ⟨c, link, -⟩ := channel
  simp [Backend.close, accepts, link]

theorem IsChannel.outbound?_eq (channel : b.IsChannel) :
    b.outbound? = if b.accepts then some b.queue else none := by
  obtain ⟨c, link, -⟩ := channel
  simp [outbound?, accepts, queue, link]

end Backend

end Switchboard.Mux
