import ExchangeSimulator.Client.Receiver
import ExchangeSimulator.Server.Sender
import Mathlib.Data.List.Forall2

/-!
# What a client makes of the stream

The converters of the exchange and the receive thread of the client share only
the packed layouts. A receive loop takes the same bytes however they arrive, the
header of every message tells how long its body is, and the switch builds the
struct that was sent. The thread therefore decodes a stream of messages as it was
sent. The header and the body are received by two loops with different exits: an
error in the first ends the thread, an error in the second ends the loop only, and
the switch still handles the body with what the array held before.
-/

namespace Exchange

open Library

/-! ## Receive loops -/

/-- How a loop is left that has received everything. -/
def StreamEnd.exit : StreamEnd → LoopExit
  | .waiting => .blocked
  | .closed | .failed => .failed

namespace TcpSocket

/-- A call with bytes to receive returns some of them. -/
theorem recvRaw_data (sock : TcpSocket) (msgLen : Nat) (wanted : 0 < msgLen)
    (available : sock.pending ≠ []) : ∃ count, 0 < count ∧ count ≤ msgLen ∧
      count ≤ sock.pending.length ∧ sock.recvRaw msgLen = (.data (sock.pending.take count),
        ⟨sock.pending.drop count, sock.arrivals.tail, sock.last⟩) := by
  cases pending : sock.pending with
  | nil => exact absurd pending available
  | cons first later =>
    have some : 0 < min msgLen (max 1 (sock.arrivals.headD (later.length + 1))) := by omega
    have bound : min msgLen (max 1 (sock.arrivals.headD (later.length + 1))) ≤ msgLen := by omega
    simp only [recvRaw, pending]
    generalize min msgLen (max 1 (sock.arrivals.headD (later.length + 1))) = n at some bound
    refine ⟨min n (first :: later).length, by simp; omega, by omega, by omega, ?_⟩
    rw [← List.take_eq_take_min, ← List.drop_eq_drop_min]

/-- A receive loop takes what it wants from the front, however the bytes arrive; when there are
fewer it takes them all and is left as the stream ends. -/
theorem recvLoop_eq (calls : Nat) (sock : TcpSocket) (remaining : Nat)
    (enough : remaining ≤ calls) : ∃ arrivals, recvLoop calls sock remaining = some
      ⟨if remaining ≤ sock.pending.length then .complete else sock.last.exit,
        sock.pending.take remaining, ⟨sock.pending.drop remaining, arrivals, sock.last⟩⟩ := by
  induction calls generalizing sock remaining with
  | zero =>
    obtain rfl : remaining = 0 := by omega
    exact ⟨sock.arrivals, by simp [recvLoop]⟩
  | succ calls ih =>
    by_cases done : remaining = 0
    · subst done
      exact ⟨sock.arrivals, by simp [recvLoop]⟩
    · rw [recvLoop, if_neg done]
      by_cases empty : sock.pending = []
      · refine ⟨sock.arrivals, ?_⟩
        obtain ⟨pending, arrivals, last⟩ := sock
        dsimp only at empty
        subst empty
        cases last <;> simp [recvRaw, StreamEnd.exit, done]
      · obtain ⟨count, positive, wanted, available, received⟩ :=
          sock.recvRaw_data remaining (by omega) empty
        have length : (sock.pending.take count).length = count := by
          rw [List.length_take]
          omega
        obtain ⟨arrivals, later⟩ :=
          ih ⟨sock.pending.drop count, sock.arrivals.tail, sock.last⟩ (remaining - count) (by omega)
        have taken : sock.pending.take count ++ (sock.pending.drop count).take (remaining - count) =
            sock.pending.take remaining := by
          rw [← List.take_add, Nat.add_sub_cancel' wanted]
        have left : (sock.pending.drop count).drop (remaining - count) =
            sock.pending.drop remaining := by
          rw [List.drop_drop, Nat.add_sub_cancel' wanted]
        have full : remaining - count ≤ sock.pending.length - count ↔
            remaining ≤ sock.pending.length := by omega
        refine ⟨arrivals, ?_⟩
        simp only [received, length, later, bind, Option.bind, List.length_drop, taken, left, full]

/-- A loop that finds enough bytes. -/
theorem recvAll_of_le {sock : TcpSocket} {size : Nat} (enough : size ≤ sock.pending.length) :
    ∃ arrivals, sock.recvAll size = some ⟨.complete, sock.pending.take size,
      ⟨sock.pending.drop size, arrivals, sock.last⟩⟩ := by
  obtain ⟨arrivals, received⟩ := recvLoop_eq size sock size (Nat.le_refl size)
  rw [if_pos enough] at received
  exact ⟨arrivals, received⟩

/-- A loop that does not. -/
theorem recvAll_of_lt {sock : TcpSocket} {size : Nat} (short : sock.pending.length < size) :
    ∃ arrivals, sock.recvAll size = some ⟨sock.last.exit, sock.pending,
      ⟨[], arrivals, sock.last⟩⟩ := by
  obtain ⟨arrivals, received⟩ := recvLoop_eq size sock size (Nat.le_refl size)
  rw [if_neg (Nat.not_le.mpr short), List.take_of_length_le (Nat.le_of_lt short),
    List.drop_eq_nil_of_le (Nat.le_of_lt short)] at received
  exact ⟨arrivals, received⟩

end TcpSocket

/-! ## Messages of the exchange -/

namespace ServerEvent

/-- A message is its header and the body that the header announces, and it is decoded from the
two whatever follows them. -/
structure Packed (event : ServerEvent) (body : List UInt8) : Prop where
  /-- Header and body. -/
  bytes : event.bytes = MsgHeader.layout.write event.msg.header ++ body
  /-- There is a body. -/
  nonempty : 0 < body.length
  /-- It fits into the array. -/
  fits : body.length ≤ 256
  /-- The header tells the size of the message. -/
  length : event.msg.header.length.toNat = MsgHeader.layout.size + body.length
  /-- The switch builds the struct again. -/
  decodes : ∀ more, decode event.msg.header (body ++ more) = .decoded event.msg

/-- A message that is laid out as its header and some fields, and that the switch reads as such, is
packed. -/
theorem Packed.of_layout {event : ServerEvent} {α β : Type} {layout : Layout α} {value : α}
    {fields : Layout β} {rest : β} (wrap : α → ServerMsg) (same : event.msg = wrap value)
    (split : event.bytes = MsgHeader.layout.write event.msg.header ++ fields.write rest)
    (laidOut : event.bytes = layout.write value) (small : 0 < fields.size ∧ fields.size ≤ 256)
    (length : event.msg.header.length.toNat = MsgHeader.layout.size + fields.size)
    (switch : ∀ body, decode event.msg.header body =
      .decoded (wrap (layout.read (MsgHeader.layout.write event.msg.header ++ body)))) :
    event.Packed (fields.write rest) where
  bytes := split
  nonempty := by
    rw [fields.length_write]
    exact small.1
  fits := by
    rw [fields.length_write]
    exact small.2
  length := by rw [fields.length_write, length]
  decodes more := by
    rw [switch, ← List.append_assoc, ← split, laidOut, layout.read_write, same]

/-- Every message of the exchange is packed. -/
theorem packed (event : ServerEvent) : ∃ body, event.Packed body := by
  cases event with
  | ofConfirm confirm =>
    obtain ⟨type, orderId, clientOrderId, traderId, symbolId, price, qty, reason⟩ := confirm
    cases type with
    | NewAck =>
      exact ⟨_, .of_layout .newOrderConfirm rfl rfl rfl (by decide) rfl (fun _ => rfl)⟩
    | ModifyAck =>
      exact ⟨_, .of_layout .modifyOrderConfirm rfl rfl rfl (by decide) rfl (fun _ => rfl)⟩
    | CancelAck =>
      exact ⟨_, .of_layout .cancelOrderConfirm rfl rfl rfl (by decide) rfl (fun _ => rfl)⟩
    | Trade =>
      exact ⟨_, .of_layout .tradeConfirm rfl rfl rfl (by decide) rfl (fun _ => rfl)⟩
    | Reject =>
      exact ⟨_, .of_layout .reject rfl rfl rfl (by decide) rfl (fun _ => rfl)⟩
  | ofUpdate md =>
    exact ⟨_, .of_layout .marketUpdate rfl rfl rfl (by decide) rfl (fun _ => rfl)⟩

/-- Every message takes some bytes. -/
theorem length_le_flatMap (events : List ServerEvent) :
    events.length ≤ (events.flatMap bytes).length := by
  induction events with
  | nil => exact Nat.zero_le _
  | cons event events ih =>
    obtain ⟨body, packed⟩ := event.packed
    have nonempty := packed.nonempty
    rw [List.flatMap_cons, List.length_append, packed.bytes, List.length_append, List.length_cons]
    omega

/-- What was received carries the fields of what was sent. -/
def Carries : ServerEvent → Handled → Prop
  | .ofConfirm confirm, .decoded (.newOrderConfirm msg) => confirm.type = .NewAck ∧
    msg.clientOrderId = confirm.clientOrderId ∧ msg.orderId = confirm.orderId
  | .ofConfirm confirm, .decoded (.modifyOrderConfirm msg) => confirm.type = .ModifyAck ∧
    msg.orderId = confirm.orderId
  | .ofConfirm confirm, .decoded (.cancelOrderConfirm msg) => confirm.type = .CancelAck ∧
    msg.orderId = confirm.orderId
  | .ofConfirm confirm, .decoded (.tradeConfirm msg) => confirm.type = .Trade ∧
    msg.orderId = confirm.orderId ∧ msg.price = confirm.price ∧ msg.qty = confirm.qty
  | .ofConfirm confirm, .decoded (.reject msg) => confirm.type = .Reject ∧
    msg.orderId = confirm.orderId ∧ msg.reason = confirm.reason.byte
  | .ofUpdate md, .decoded (.marketUpdate msg) => msg.symbolId = md.symbolId ∧
    msg.orderId = md.orderId ∧ msg.side = md.side ∧ msg.price = md.price ∧ msg.qty = md.qty ∧
    msg.updateType = md.updateType.byte
  | _, _ => False

/-- The converters drop no field of the struct. -/
theorem carries_msg (event : ServerEvent) : Carries event (.decoded event.msg) := by
  cases event with
  | ofConfirm confirm =>
    obtain ⟨type, orderId, clientOrderId, traderId, symbolId, price, qty, reason⟩ := confirm
    cases type with
    | NewAck => exact ⟨rfl, rfl, rfl⟩
    | ModifyAck => exact ⟨rfl, rfl⟩
    | CancelAck => exact ⟨rfl, rfl⟩
    | Trade => exact ⟨rfl, rfl, rfl, rfl⟩
    | Reject => exact ⟨rfl, rfl, rfl⟩
  | ofUpdate md => exact ⟨rfl, rfl, rfl, rfl, rfl, rfl⟩

/-- The exchange identifier that an acknowledgement gives to a client's own. -/
def ack (id : OrderId) : ServerEvent → Option OrderId
  | .ofConfirm confirm =>
    if confirm.type = .NewAck ∧ confirm.clientOrderId = id then some confirm.orderId else none
  | .ofUpdate _ => none

/-- The exchange identifier of the last acknowledgement that carries a client's own. -/
def lastAck (events : List ServerEvent) (id : OrderId) : Option OrderId :=
  (events.filterMap (ack id)).getLast?

/-- A later acknowledgement replaces an earlier one. -/
theorem lastAck_cons (event : ServerEvent) (events : List ServerEvent) (id : OrderId) :
    lastAck (event :: events) id = (lastAck events id).or (event.ack id) := by
  rw [lastAck, List.filterMap_cons]
  cases event.ack id with
  | none => rw [Option.or_none, lastAck]
  | some orderId =>
    rw [List.getLast?_cons, lastAck]
    cases (events.filterMap (ack id)).getLast? <;> rfl

end ServerEvent

/-! ## Iterations -/

/-- The size of the body that a header announces. -/
theorem bodySize_toNat {length : UInt16} {size : Nat}
    (told : length.toNat = MsgHeader.layout.size + size) :
    (length.toUInt64 - UInt64.ofNat MsgHeader.layout.size).toNat = size := by
  have header : (UInt64.ofNat MsgHeader.layout.size).toNat = MsgHeader.layout.size := rfl
  rw [UInt64.toNat_sub_of_le, UInt16.toNat_toUInt64, header, told, Nat.add_sub_cancel_left]
  rw [UInt64.le_iff_toNat_le, UInt16.toNat_toUInt64, header, told]
  exact Nat.le_add_right _ _

/-- A connection that is not open fails the loop that reaches its end. -/
theorem StreamEnd.exit_of_ended {last : StreamEnd} (ended : last ≠ .waiting) :
    last.exit = .failed := by
  cases last with
  | waiting => exact absurd rfl ended
  | closed => rfl
  | failed => rfl

namespace Client

variable {client : Client}

/-- A client with another socket. -/
def onSocket (client : Client) (sock : TcpSocket) : Client := { client with sock := sock }

/-- Too few bytes for a header, on an open connection. -/
theorem iterate_waiting (short : client.sock.pending.length < MsgHeader.layout.size)
    (last : client.sock.last = .waiting) (body : Body) : ∃ arrivals,
      client.iterate body = some (client.onSocket ⟨[], arrivals, client.sock.last⟩,
        .inHeader client.sock.pending) := by
  obtain ⟨arrivals, received⟩ := TcpSocket.recvAll_of_lt short
  refine ⟨arrivals, ?_⟩
  simp only [iterate, received, bind, Option.bind, last, StreamEnd.exit, onSocket]

/-- Too few bytes for a header before the connection ends. -/
theorem iterate_ended (short : client.sock.pending.length < MsgHeader.layout.size)
    (last : client.sock.last ≠ .waiting) (body : Body) : ∃ arrivals,
      client.iterate body = some ({ client.onSocket ⟨[], arrivals, client.sock.last⟩ with
        gRunning := false }, .stopped) := by
  obtain ⟨arrivals, received⟩ := TcpSocket.recvAll_of_lt short
  refine ⟨arrivals, ?_⟩
  simp only [iterate, received, bind, Option.bind, StreamEnd.exit_of_ended last, onSocket]

/-- A header leads to its body. -/
theorem iterate_headed {header : MsgHeader} {rest : List UInt8} {size : Nat}
    (pending : client.sock.pending = MsgHeader.layout.write header ++ rest)
    (told : header.length.toNat = MsgHeader.layout.size + size) (positive : 0 < size)
    (fits : size ≤ 256) (body : Body) : ∃ arrivals, client.iterate body =
      (client.onSocket ⟨rest, arrivals, client.sock.last⟩).recvBody header size body := by
  have length := MsgHeader.layout.length_write header
  obtain ⟨arrivals, received⟩ := TcpSocket.recvAll_of_le
    (show MsgHeader.layout.size ≤ client.sock.pending.length by
      rw [pending, List.length_append]
      omega)
  rw [pending, List.take_left' length, List.drop_left' length] at received
  have read : MsgHeader.layout.read (MsgHeader.layout.write header) = header := by
    have whole := MsgHeader.layout.read_write header []
    rwa [List.append_nil] at whole
  have bodySize := bodySize_toNat told
  refine ⟨arrivals, ?_⟩
  simp only [iterate, received, bind, Option.bind, read, bodySize, onSocket]
  rw [if_pos]
  rw [UInt64.lt_iff_toNat_lt, UInt64.le_iff_toNat_le, bodySize]
  exact ⟨positive, fits⟩

/-- A complete body is handed to the switch. -/
theorem recvBody_complete (client : Client) {rest later : List UInt8}
    (pending : client.sock.pending = rest ++ later) (header : MsgHeader) (body : Body) :
    ∃ arrivals, client.recvBody header rest.length body =
      some ((client.onSocket ⟨later, arrivals, client.sock.last⟩).handle
        (decode header (body.overwrite rest)), .looping) := by
  obtain ⟨arrivals, received⟩ := TcpSocket.recvAll_of_le
    (show rest.length ≤ client.sock.pending.length by simp [pending])
  rw [pending, List.take_left, List.drop_left] at received
  refine ⟨arrivals, ?_⟩
  simp only [recvBody, received, bind, Option.bind, onSocket]

/-- A part of a body on an open connection is kept and nothing is decoded. -/
theorem recvBody_waiting (client : Client) {size : Nat} (short : client.sock.pending.length < size)
    (last : client.sock.last = .waiting) (header : MsgHeader) (body : Body) : ∃ arrivals,
      client.recvBody header size body =
        some (client.onSocket ⟨[], arrivals, client.sock.last⟩,
          .inBody header client.sock.pending) := by
  obtain ⟨arrivals, received⟩ := TcpSocket.recvAll_of_lt short
  refine ⟨arrivals, ?_⟩
  simp only [recvBody, received, bind, Option.bind, last, StreamEnd.exit, onSocket]

/-- A part of a body before the connection ends is handed to the switch with what the array held
behind it. -/
theorem recvBody_ended (client : Client) {size : Nat} (short : client.sock.pending.length < size)
    (last : client.sock.last ≠ .waiting) (header : MsgHeader) (body : Body) : ∃ arrivals,
      client.recvBody header size body =
        some (({ client.onSocket ⟨[], arrivals, client.sock.last⟩ with gRunning := false }).handle
          (decode header (body.overwrite client.sock.pending)), .looping) := by
  obtain ⟨arrivals, received⟩ := TcpSocket.recvAll_of_lt short
  refine ⟨arrivals, ?_⟩
  simp only [recvBody, received, bind, Option.bind, StreamEnd.exit_of_ended last, onSocket]

/-- A complete message is handled. -/
theorem iterate_message {event : ServerEvent} {later : List UInt8}
    (pending : client.sock.pending = event.bytes ++ later) (body : Body) : ∃ arrivals,
      client.iterate body = some ((client.onSocket ⟨later, arrivals, client.sock.last⟩).handle
        (.decoded event.msg), .looping) := by
  obtain ⟨rest, packed⟩ := event.packed
  rw [packed.bytes, List.append_assoc] at pending
  obtain ⟨headArrivals, headed⟩ :=
    iterate_headed pending packed.length packed.nonempty packed.fits body
  obtain ⟨arrivals, completed⟩ := recvBody_complete
    (client.onSocket ⟨rest ++ later, headArrivals, client.sock.last⟩) rfl event.msg.header body
  rw [Body.overwrite, packed.decodes] at completed
  exact ⟨arrivals, headed.trans completed⟩

/-- A message cut inside its body leads to that body. -/
theorem iterate_cut {event : ServerEvent} {cut : Nat} (headed : MsgHeader.layout.size ≤ cut)
    (inside : cut < event.bytes.length)
    (pending : client.sock.pending = event.bytes.take cut) (body : Body) : ∃ arrivals rest size,
      client.iterate body = (client.onSocket ⟨rest, arrivals, client.sock.last⟩).recvBody
        event.msg.header size body ∧ rest.length < size := by
  obtain ⟨rest, packed⟩ := event.packed
  have length := MsgHeader.layout.length_write event.msg.header
  rw [packed.bytes, List.take_append, List.take_of_length_le (by omega), length] at pending
  rw [packed.bytes, List.length_append, length] at inside
  obtain ⟨arrivals, reached⟩ :=
    iterate_headed pending packed.length packed.nonempty packed.fits body
  refine ⟨arrivals, _, _, reached, ?_⟩
  rw [List.length_take]
  omega

/-- Receiving a body takes nothing back. -/
theorem recvBody_progress (client : Client) (header : MsgHeader) (size : Nat) (body : Body) :
    ∃ next standing, client.recvBody header size body = some (next, standing) ∧
      next.sock.pending.length ≤ client.sock.pending.length := by
  obtain ⟨arrivals, received⟩ := TcpSocket.recvLoop_eq size client.sock size (Nat.le_refl size)
  change client.sock.recvAll size = _ at received
  have less : (client.sock.pending.drop size).length ≤ client.sock.pending.length := by
    rw [List.length_drop]
    exact Nat.sub_le _ _
  simp only [recvBody, received, bind, Option.bind]
  split <;> exact ⟨_, _, rfl, less⟩

/-- An iteration after which the loop goes on has taken a header from the stream. -/
theorem iterate_progress (client : Client) (body : Body) : ∃ next standing,
    client.iterate body = some (next, standing) ∧
      (standing = .looping → next.sock.pending.length < client.sock.pending.length) := by
  by_cases short : client.sock.pending.length < MsgHeader.layout.size
  · by_cases last : client.sock.last = .waiting
    · obtain ⟨_, iterated⟩ := iterate_waiting short last body
      exact ⟨_, _, iterated, by simp⟩
    · obtain ⟨_, iterated⟩ := iterate_ended short last body
      exact ⟨_, _, iterated, by simp⟩
  · obtain ⟨arrivals, received⟩ := TcpSocket.recvAll_of_le (Nat.not_lt.mp short)
    have header : 0 < MsgHeader.layout.size := by decide
    have less : (client.sock.pending.drop MsgHeader.layout.size).length <
        client.sock.pending.length := by
      rw [List.length_drop]
      omega
    simp only [iterate, received, bind, Option.bind]
    split
    · obtain ⟨next, standing, ran, shorter⟩ := recvBody_progress
        (client.onSocket ⟨client.sock.pending.drop MsgHeader.layout.size, arrivals,
          client.sock.last⟩) _ _ body
      exact ⟨next, standing, ran, fun _ => Nat.lt_of_le_of_lt shorter less⟩
    · exact ⟨_, _, rfl, fun _ => less⟩

/-- The thread returns or waits within the iterations it is given, on every stream. -/
theorem recvThread_isSome (stale : Nat → Body) (client : Client) :
    (client.recvThread stale).isSome = true := by
  have enough (iterations : Nat) (client : Client)
      (bound : client.sock.pending.length < iterations) :
      (recvThreadFunc stale iterations client).isSome = true := by
    induction iterations generalizing client with
    | zero => omega
    | succ iterations ih =>
      rw [recvThreadFunc]
      split
      · obtain ⟨next, standing, ran, shorter⟩ := client.iterate_progress (stale iterations)
        rw [ran]
        cases standing with
        | looping =>
          have less := shorter rfl
          exact ih next (by omega)
        | inHeader received => rfl
        | inBody header received => rfl
        | stopped => rfl
      · rfl
  exact enough _ client (by omega)

/-! ## Streams of messages -/

/-- A client that has handled some messages. -/
def after (client : Client) (events : List ServerEvent) : Client :=
  events.foldl (fun client event => client.handle (.decoded event.msg)) client

/-- Handling leaves the socket, so it can be replaced before or after. -/
theorem after_onSocket (client : Client) (events : List ServerEvent) (sock : TcpSocket) :
    (client.onSocket sock).after events = (client.after events).onSocket sock := by
  induction events generalizing client with
  | nil => rfl
  | cons event events ih => exact ih (client.handle (.decoded event.msg))

/-- Handling messages does not stop the thread. -/
theorem after_gRunning (client : Client) (events : List ServerEvent) :
    (client.after events).gRunning = client.gRunning := by
  induction events generalizing client with
  | nil => rfl
  | cons event events ih => exact ih (client.handle (.decoded event.msg))

/-- The messages are handled in order. -/
theorem after_handled (client : Client) (events : List ServerEvent) :
    (client.after events).handled =
      client.handled ++ events.map fun event => .decoded event.msg := by
  induction events generalizing client with
  | nil => simp [after]
  | cons event events ih =>
    have rest := ih (client.handle (.decoded event.msg))
    rw [show (client.handle (.decoded event.msg)).handled =
      client.handled ++ [.decoded event.msg] from rfl, List.append_assoc] at rest
    exact rest

/-- What handling a message does to the map. -/
theorem handle_internalToExchange (client : Client) (event : ServerEvent) (id : OrderId) :
    (client.handle (.decoded event.msg)).internalToExchange id =
      (event.ack id).or (client.internalToExchange id) := by
  cases event with
  | ofConfirm confirm =>
    obtain ⟨type, orderId, clientOrderId, traderId, symbolId, price, qty, reason⟩ := confirm
    cases type with
    | NewAck =>
      by_cases own : clientOrderId = id
      · subst own
        simp [handle, ServerEvent.msg, ServerEvent.ack, OrderConfirm.toNewOrderConfirmMsg]
      · simp [handle, ServerEvent.msg, ServerEvent.ack, OrderConfirm.toNewOrderConfirmMsg, own,
          Ne.symm own]
    | ModifyAck => rfl
    | CancelAck => rfl
    | Trade => rfl
    | Reject => rfl
  | ofUpdate md => rfl

/-- The map holds the last acknowledgement of each identifier. -/
theorem after_internalToExchange (client : Client) (events : List ServerEvent) (id : OrderId) :
    (client.after events).internalToExchange id =
      (ServerEvent.lastAck events id).or (client.internalToExchange id) := by
  induction events generalizing client with
  | nil => rfl
  | cons event events ih =>
    have rest := ih (client.handle (.decoded event.msg))
    rw [handle_internalToExchange, ← Option.or_assoc, ← ServerEvent.lastAck_cons] at rest
    exact rest

/-- The thread works off the complete messages at the front of the stream. -/
theorem recvThreadFunc_events (stale : Nat → Body) (events : List ServerEvent) (rest : List UInt8)
    (iterations : Nat) (client : Client) (running : client.gRunning = true)
    (pending : client.sock.pending = events.flatMap ServerEvent.bytes ++ rest) : ∃ arrivals,
      recvThreadFunc stale (events.length + iterations) client = recvThreadFunc stale iterations
        ((client.after events).onSocket ⟨rest, arrivals, client.sock.last⟩) := by
  induction events generalizing client with
  | nil =>
    refine ⟨client.sock.arrivals, ?_⟩
    rw [List.length_nil, Nat.zero_add]
    congr 1
    obtain ⟨⟨_, arrivals, last⟩, _, _, _⟩ := client
    dsimp only at pending
    rw [pending]
    rfl
  | cons event events ih =>
    rw [List.flatMap_cons, List.append_assoc] at pending
    obtain ⟨arrivals, iterated⟩ :=
      iterate_message pending (stale (events.length + iterations))
    -- handling a message and replacing the socket commute
    obtain ⟨later, ran⟩ := ih ((client.handle (.decoded event.msg)).onSocket
      ⟨_, arrivals, client.sock.last⟩) running rfl
    rw [after_onSocket] at ran
    refine ⟨later, ?_⟩
    rw [List.length_cons, Nat.add_right_comm, recvThreadFunc, if_pos running, iterated]
    exact ran

/-- The thread with too few bytes for a header, on an open connection. -/
theorem recvThreadFunc_waiting (stale : Nat → Body) (iterations : Nat)
    (running : client.gRunning = true)
    (short : client.sock.pending.length < MsgHeader.layout.size)
    (last : client.sock.last = .waiting) : ∃ arrivals,
      recvThreadFunc stale (iterations + 1) client = some
        (client.onSocket ⟨[], arrivals, client.sock.last⟩, .inHeader client.sock.pending) := by
  obtain ⟨arrivals, iterated⟩ := iterate_waiting short last (stale iterations)
  refine ⟨arrivals, ?_⟩
  rw [recvThreadFunc, if_pos running, iterated]

/-- The thread with too few bytes for a header before the connection ends. -/
theorem recvThreadFunc_ended (stale : Nat → Body) (iterations : Nat)
    (running : client.gRunning = true)
    (short : client.sock.pending.length < MsgHeader.layout.size)
    (last : client.sock.last ≠ .waiting) : ∃ arrivals,
      recvThreadFunc stale (iterations + 1) client = some
        ({ client.onSocket ⟨[], arrivals, client.sock.last⟩ with gRunning := false },
          .stopped) := by
  obtain ⟨arrivals, iterated⟩ := iterate_ended short last (stale iterations)
  refine ⟨arrivals, ?_⟩
  rw [recvThreadFunc, if_pos running, iterated]

/-- The thread with a part of a body, on an open connection. -/
theorem recvThreadFunc_cut_waiting (stale : Nat → Body) (iterations : Nat)
    (running : client.gRunning = true) {event : ServerEvent} {cut : Nat}
    (headed : MsgHeader.layout.size ≤ cut) (inside : cut < event.bytes.length)
    (pending : client.sock.pending = event.bytes.take cut)
    (last : client.sock.last = .waiting) : ∃ arrivals received,
      recvThreadFunc stale (iterations + 1) client = some
        (client.onSocket ⟨[], arrivals, client.sock.last⟩,
          .inBody event.msg.header received) := by
  obtain ⟨headArrivals, rest, size, iterated, short⟩ :=
    iterate_cut headed inside pending (stale iterations)
  obtain ⟨arrivals, received⟩ := recvBody_waiting
    (client.onSocket ⟨rest, headArrivals, client.sock.last⟩) short last event.msg.header
    (stale iterations)
  refine ⟨arrivals, rest, ?_⟩
  rw [recvThreadFunc, if_pos running, iterated, received]
  rfl

/-- The thread with a part of a body before the connection ends: one more message is handled. -/
theorem recvThreadFunc_cut_ended (stale : Nat → Body) (iterations : Nat)
    (running : client.gRunning = true) {event : ServerEvent} {cut : Nat}
    (headed : MsgHeader.layout.size ≤ cut) (inside : cut < event.bytes.length)
    (pending : client.sock.pending = event.bytes.take cut)
    (last : client.sock.last ≠ .waiting) : ∃ arrivals handled,
      recvThreadFunc stale (iterations + 2) client = some
        (({ client.onSocket ⟨[], arrivals, client.sock.last⟩ with gRunning := false }).handle
          handled, .stopped) := by
  obtain ⟨headArrivals, rest, size, iterated, short⟩ :=
    iterate_cut headed inside pending (stale (iterations + 1))
  obtain ⟨arrivals, received⟩ := recvBody_ended
    (client.onSocket ⟨rest, headArrivals, client.sock.last⟩) short last event.msg.header
    (stale (iterations + 1))
  refine ⟨arrivals, decode event.msg.header ((stale (iterations + 1)).overwrite rest), ?_⟩
  rw [recvThreadFunc, if_pos running, iterated, received]
  rfl

/-! ## What a client has received -/

/-- A confirm that carries only its identifiers. -/
def confirmed (type : ConfirmType) (clientOrderId orderId : OrderId) : ServerEvent :=
  .ofConfirm ⟨type, orderId, clientOrderId, 0, 0, 0, 0, .UnknownOrder⟩

/-- An array of zeros. -/
def zeroBody : Body := ⟨List.replicate 256 0, List.length_replicate⟩

/-- A client has handled exactly some messages, with all their fields, and maps each of its own
identifiers to the last one acknowledged for it. -/
structure HasReceived (client : Client) (events : List ServerEvent) : Prop where
  /-- The messages in order. -/
  handled : List.Forall₂ ServerEvent.Carries events client.handled
  /-- The map. -/
  mapped : ∀ id, client.internalToExchange id = ServerEvent.lastAck events id

/-- A new client after some messages. -/
theorem hasReceived_after (sock : TcpSocket) (events : List ServerEvent) :
    ((Client.new sock).after events).HasReceived events where
  handled := by
    rw [after_handled, Client.new, List.nil_append, List.forall₂_map_right_iff, List.forall₂_same]
    exact fun event _ => event.carries_msg
  mapped id := by
    rw [after_internalToExchange]
    exact Option.or_none

/-- A new client works off the complete messages at the front of its stream, and at least two
iterations remain for what follows them. -/
theorem recvThread_reaches (stale : Nat → Body) (events : List ServerEvent) (rest : List UInt8)
    (arrivals : List Nat) (last : StreamEnd) : ∃ iterations client,
      (Client.new ⟨events.flatMap ServerEvent.bytes ++ rest, arrivals, last⟩).recvThread stale =
        recvThreadFunc stale (iterations + 2) client ∧ client.gRunning = true ∧
      client.sock.pending = rest ∧ client.sock.last = last ∧ client.HasReceived events := by
  have few := ServerEvent.length_le_flatMap events
  obtain ⟨iterations, count⟩ : ∃ iterations,
      (events.flatMap ServerEvent.bytes ++ rest).length + 2 = events.length + (iterations + 2) := by
    rw [List.length_append]
    exact ⟨(events.flatMap ServerEvent.bytes).length + rest.length - events.length, by omega⟩
  obtain ⟨later, ran⟩ := recvThreadFunc_events stale events rest (iterations + 2)
    (Client.new ⟨events.flatMap ServerEvent.bytes ++ rest, arrivals, last⟩) rfl rfl
  rw [← count] at ran
  have received := hasReceived_after
    ⟨events.flatMap ServerEvent.bytes ++ rest, arrivals, last⟩ events
  exact ⟨iterations, _, ran, after_gRunning _ events, rfl, rfl, received.handled, received.mapped⟩

/-- However the bytes of some messages arrive and whatever the array holds, the receive thread
decodes exactly these messages in order, keeps its framing, and maps every identifier of the client
to the one of its last acknowledgement. It then waits for a header, or stops with the connection. -/
theorem recvThread_receives (events : List ServerEvent) (arrivals : List Nat) (last : StreamEnd)
    (stale : Nat → Body) : ∃ client standing,
      (Client.new ⟨events.flatMap ServerEvent.bytes, arrivals, last⟩).recvThread stale =
        some (client, standing) ∧ client.HasReceived events ∧ client.sock.pending = [] ∧
      standing = if last = .waiting then .inHeader [] else .stopped := by
  obtain ⟨iterations, client, ran, running, pending, ends, received⟩ :=
    recvThread_reaches stale events [] arrivals last
  rw [List.append_nil] at ran
  have short : client.sock.pending.length < MsgHeader.layout.size := by
    rw [pending]
    decide
  by_cases open_ : last = .waiting
  · obtain ⟨_, waits⟩ := recvThreadFunc_waiting stale (iterations + 1) running short
      (ends.trans open_)
    rw [pending] at waits
    exact ⟨_, _, ran.trans waits, ⟨received.handled, received.mapped⟩, rfl, (if_pos open_).symm⟩
  · obtain ⟨_, stops⟩ := recvThreadFunc_ended stale (iterations + 1) running short
      (by rw [ends]; exact open_)
    exact ⟨_, _, ran.trans stops, ⟨received.handled, received.mapped⟩, rfl, (if_neg open_).symm⟩

/-- A thread that has returned after it handled exactly some messages. -/
def StopsAfter (events : List ServerEvent) (ran : Option (Client × Standing)) : Prop :=
  ∃ client, ran = some (client, .stopped) ∧ client.gRunning = false ∧ client.HasReceived events

/-- A stream that ends inside a message has no effect beyond its complete messages exactly when it
ends inside the header. -/
theorem recvThread_cut_iff (events : List ServerEvent) (event : ServerEvent) (cut : Nat)
    (inside : 0 < cut ∧ cut < event.bytes.length) (arrivals : List Nat) (last : StreamEnd)
    (ended : last ≠ .waiting) (stale : Nat → Body) :
    StopsAfter events ((Client.new ⟨events.flatMap ServerEvent.bytes ++ event.bytes.take cut,
      arrivals, last⟩).recvThread stale) ↔ cut < MsgHeader.layout.size := by
  obtain ⟨iterations, client, ran, running, pending, ends, received⟩ :=
    recvThread_reaches stale events (event.bytes.take cut) arrivals last
  rw [ran]
  rw [← ends] at ended
  constructor
  · rintro ⟨reached, stopped, -, has⟩
    by_contra headed
    obtain ⟨_, handled, cutOff⟩ := recvThreadFunc_cut_ended stale iterations running
      (Nat.not_lt.mp headed) inside.2 pending ended
    rw [cutOff, Option.some.injEq, Prod.mk.injEq] at stopped
    obtain ⟨rfl, -⟩ := stopped
    -- one message more than were sent
    have count := has.handled.length_eq.symm.trans received.handled.length_eq
    simp [handle, onSocket] at count
  · intro inHeader
    have short : client.sock.pending.length < MsgHeader.layout.size := by
      rw [pending, List.length_take]
      omega
    obtain ⟨_, stops⟩ := recvThreadFunc_ended stale (iterations + 1) running short ended
    exact ⟨_, stops, rfl, received.handled, received.mapped⟩

/-- An acknowledgement arrives byte by byte, then two bytes of a trade, then an error. -/
theorem recvThread_cut_iff_header :
    StopsAfter [confirmed .NewAck 7 1]
      ((Client.new ⟨[confirmed .NewAck 7 1].flatMap ServerEvent.bytes ++
        (confirmed .Trade 0 1).bytes.take 2, List.replicate 30 1, .failed⟩).recvThread
          fun _ => zeroBody) :=
  (recvThread_cut_iff [confirmed .NewAck 7 1] (confirmed .Trade 0 1) 2 (by decide)
    (List.replicate 30 1) .failed (by decide) fun _ => zeroBody).mpr (by decide)

/-- The header of an acknowledgement arrives and the connection is closed. The thread handles an
acknowledgement of order zero, which is what the array happened to hold, and enters it in the
map. -/
theorem recvThread_fails_on_cut_body :
    ¬StopsAfter [] ((Client.new ⟨(confirmed .NewAck 7 1).bytes.take 3, [],
      .closed⟩).recvThread fun _ => zeroBody) ∧
    ((Client.new ⟨(confirmed .NewAck 7 1).bytes.take 3, [], .closed⟩).recvThread
      fun _ => zeroBody).map (fun ran => (ran.1.handled, ran.1.internalToExchange 0)) =
        some ([.decoded (.newOrderConfirm ⟨⟨19, MsgType.NewOrderConfirm⟩, 0, 0⟩)], some 0) := by
  have observed : ((Client.new ⟨(confirmed .NewAck 7 1).bytes.take 3, [], .closed⟩).recvThread
      fun _ => zeroBody).map (fun ran => (ran.1.handled, ran.1.internalToExchange 0)) =
        some ([.decoded (.newOrderConfirm ⟨⟨19, MsgType.NewOrderConfirm⟩, 0, 0⟩)], some 0) := by
    decide
  refine ⟨?_, observed⟩
  rintro ⟨client, ran, -, has⟩
  rw [ran, Option.map_some, Option.some.injEq, Prod.mk.injEq, has.mapped] at observed
  exact absurd observed.2 (by decide)

end Client

end Exchange
