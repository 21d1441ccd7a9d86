import ExchangeSimulator.Server.Login
import ExchangeSimulator.Verif.Receiver
import ExchangeSimulator.Verif.Wire

/-!
# What the exchange accepts

The bytes of a client are not trusted, so the parser has to be exact in both
directions. A message is accepted as a request if and only if it begins with the
packed encoding of a client's message, whatever length its header tells and
whatever follows; the request is then the one of that message, and no second
message has it. A login is accepted if and only if the first call of `recv` brings
all of a login request. What follows is left for the epoll thread, and the client's
receive thread starts behind the response.
-/

namespace Exchange

open Library

/-! ## Canonical layouts -/

/-- Every header has one encoding. -/
theorem MsgHeader.canonical : MsgHeader.layout.Canonical :=
  (Layout.canonical_u16.pair Layout.canonical_u8).map fun _ => rfl

/-- So has a new order. -/
theorem NewOrderRequestMsg.canonical : NewOrderRequestMsg.layout.Canonical :=
  (MsgHeader.canonical.pair (Layout.canonical_u64.pair (Layout.canonical_u32.pair
    (Layout.canonical_u8.pair (Layout.canonical_u32.pair Layout.canonical_u32))))).map
    fun _ => rfl

/-- A modification. -/
theorem ModifyOrderRequestMsg.canonical : ModifyOrderRequestMsg.layout.Canonical :=
  (MsgHeader.canonical.pair (Layout.canonical_u64.pair (Layout.canonical_u32.pair
    (Layout.canonical_u32.pair Layout.canonical_u32)))).map fun _ => rfl

/-- A cancel. -/
theorem CancelOrderRequestMsg.canonical : CancelOrderRequestMsg.layout.Canonical :=
  (MsgHeader.canonical.pair (Layout.canonical_u64.pair Layout.canonical_u32)).map fun _ => rfl

/-- A login. -/
theorem LoginRequestMsg.canonical : LoginRequestMsg.layout.Canonical :=
  (MsgHeader.canonical.pair Layout.canonical_u32).map fun _ => rfl

/-! ## Requests -/

namespace ClientMsg

/-- The packed message with any length in its header. -/
def encode (length : UInt16) : ClientMsg → List UInt8
  | .new clientOrderId symbolId side price qty => NewOrderRequestMsg.layout.write
      ⟨⟨length, MsgType.NewOrderRequest⟩, clientOrderId, symbolId, side, price, qty⟩
  | .modify orderId symbolId price qty => ModifyOrderRequestMsg.layout.write
      ⟨⟨length, MsgType.ModifyOrderRequest⟩, orderId, symbolId, price, qty⟩
  | .cancel orderId symbolId => CancelOrderRequestMsg.layout.write
      ⟨⟨length, MsgType.CancelOrderRequest⟩, orderId, symbolId⟩

/-- Different messages ask for different things. -/
theorem request_injective {msg other : ClientMsg} {traderId : TraderId} {now : Timestamp}
    (same : msg.request traderId now = other.request traderId now) : msg = other := by
  cases msg <;> cases other <;> simp_all [request]

end ClientMsg

namespace MatchingThread

variable {raw : RawMessage} {now : Timestamp}

/-- A message that begins with an encoding is parsed. -/
theorem parse_encode {msg : ClientMsg} {length : UInt16} {later : List UInt8}
    (begins : raw.data = msg.encode length ++ later)
    (enough : (msg.encode length).length ≤ raw.length.toNat) (now : Timestamp) :
    parse raw now = some (msg.request raw.traderId now) := by
  cases msg with
  | new clientOrderId symbolId side price qty =>
    rw [ClientMsg.encode] at begins enough
    rw [NewOrderRequestMsg.layout.length_write] at enough
    have value := NewOrderRequestMsg.layout.read_write
      ⟨⟨length, MsgType.NewOrderRequest⟩, clientOrderId, symbolId, side, price, qty⟩ later
    rw [← begins] at value
    rw [parse_new now (congrArg (fun msg => msg.header.type) value) enough, value]
    rfl
  | modify orderId symbolId price qty =>
    rw [ClientMsg.encode] at begins enough
    rw [ModifyOrderRequestMsg.layout.length_write] at enough
    have value := ModifyOrderRequestMsg.layout.read_write
      ⟨⟨length, MsgType.ModifyOrderRequest⟩, orderId, symbolId, price, qty⟩ later
    rw [← begins] at value
    rw [parse_modify now (congrArg (fun msg => msg.header.type) value) enough, value]
    rfl
  | cancel orderId symbolId =>
    rw [ClientMsg.encode] at begins enough
    rw [CancelOrderRequestMsg.layout.length_write] at enough
    have value := CancelOrderRequestMsg.layout.read_write
      ⟨⟨length, MsgType.CancelOrderRequest⟩, orderId, symbolId⟩ later
    rw [← begins] at value
    rw [parse_cancel now (congrArg (fun msg => msg.header.type) value) enough, value]
    rfl

/-- A struct that the message is long enough for stands at the front of the data. -/
theorem struct_of_long (raw : RawMessage) {α : Type} {layout : Layout α}
    (canonical : layout.Canonical) (small : layout.size ≤ MAX_RAW_MSG_SIZE)
    (long : ¬raw.length.toNat < layout.size) :
    ∃ value later, layout.read raw.data = value ∧ raw.data = layout.write value ++ later ∧
      (layout.write value).length ≤ raw.length.toNat := by
  refine ⟨layout.read raw.data, _, rfl, canonical.front (by rw [raw.sized]; exact small), ?_⟩
  rw [layout.length_write]
  exact Nat.not_lt.mp long

/-- A message that is parsed begins with an encoding. -/
theorem encode_of_parse {req : OrderRequest} (parsed : parse raw now = some req) :
    ∃ msg : ClientMsg, ∃ length later, raw.data = msg.encode length ++ later ∧
      (msg.encode length).length ≤ raw.length.toNat := by
  simp only [parse] at parsed
  split at parsed
  · contradiction
  split at parsed
  · rename_i type
    split at parsed
    · contradiction
    rename_i long
    obtain ⟨⟨⟨length, kind⟩, clientOrderId, symbolId, side, price, qty⟩, later, value, begins,
      enough⟩ := struct_of_long raw NewOrderRequestMsg.canonical (by decide) long
    obtain rfl : kind = _ := (congrArg (fun msg => msg.header.type) value).symm.trans type
    exact ⟨.new clientOrderId symbolId side price qty, length, later, begins, enough⟩
  split at parsed
  · rename_i type
    split at parsed
    · contradiction
    rename_i long
    obtain ⟨⟨⟨length, kind⟩, orderId, symbolId⟩, later, value, begins, enough⟩ :=
      struct_of_long raw CancelOrderRequestMsg.canonical (by decide) long
    obtain rfl : kind = _ := (congrArg (fun msg => msg.header.type) value).symm.trans type
    exact ⟨.cancel orderId symbolId, length, later, begins, enough⟩
  split at parsed
  · rename_i type
    split at parsed
    · contradiction
    rename_i long
    obtain ⟨⟨⟨length, kind⟩, orderId, symbolId, price, qty⟩, later, value, begins, enough⟩ :=
      struct_of_long raw ModifyOrderRequestMsg.canonical (by decide) long
    obtain rfl : kind = _ := (congrArg (fun msg => msg.header.type) value).symm.trans type
    exact ⟨.modify orderId symbolId price qty, length, later, begins, enough⟩
  · contradiction

/-- A request is parsed from a message if and only if the message begins with the encoding of a
client's message that asks for it, with any length in its header and anything behind; and no other
client's message asks for it. -/
theorem parse_exact (raw : RawMessage) (now : Timestamp) (req : OrderRequest) :
    parse raw now = some req ↔ ∃ msg : ClientMsg, req = msg.request raw.traderId now ∧
      (∃ length later, raw.data = msg.encode length ++ later ∧
        (msg.encode length).length ≤ raw.length.toNat) ∧
      ∀ other : ClientMsg, req = other.request raw.traderId now → other = msg := by
  constructor
  · intro parsed
    obtain ⟨msg, length, later, begins, enough⟩ := encode_of_parse parsed
    have asks := parse_encode begins enough now
    rw [parsed, Option.some.injEq] at asks
    refine ⟨msg, asks, ⟨length, later, begins, enough⟩, ?_⟩
    intro other also
    exact ClientMsg.request_injective (also.symm.trans asks)
  · rintro ⟨msg, asks, ⟨length, later, begins, enough⟩, -⟩
    rw [asks]
    exact parse_encode begins enough now

end MatchingThread

/-! ## Logins -/

/-- How many bytes have arrived when the next call is made. -/
def TcpSocket.arrived (sock : TcpSocket) : Nat := sock.arrivals.headD sock.pending.length

/-- The bytes of a login are those of a request of its trader. -/
theorem readLogin_eq_some {received : List UInt8} {traderId : TraderId} :
    readLogin received = some traderId ↔ ∃ length,
      received = LoginRequestMsg.layout.write ⟨⟨length, MsgType.LoginRequest⟩, traderId⟩ := by
  constructor
  · intro accepted
    simp only [readLogin] at accepted
    split at accepted
    · contradiction
    rename_i whole
    split at accepted
    · contradiction
    rename_i type
    cases accepted
    have written := LoginRequestMsg.canonical received (not_not.mp whole)
    refine ⟨(LoginRequestMsg.layout.read received).header.length, ?_⟩
    rw [← not_not.mp type]
    exact written.symm
  · rintro ⟨length, rfl⟩
    have value := LoginRequestMsg.layout.read_write
      ⟨⟨length, MsgType.LoginRequest⟩, traderId⟩ []
    rw [List.append_nil] at value
    rw [readLogin, if_neg (not_not.mpr (LoginRequestMsg.layout.length_write _)), value]
    rfl

/-- The call returns what has arrived, up to the size of a request. -/
theorem handleLogin_of_pending {sock : TcpSocket} (available : sock.pending ≠ []) :
    handleLogin sock = some (readLogin (sock.pending.take (min 7 (max 1 sock.arrived))),
      ⟨sock.pending.drop (min 7 (max 1 sock.arrived)), sock.arrivals.tail, sock.last⟩) := by
  cases pending : sock.pending with
  | nil => exact absurd pending available
  | cons first later =>
    simp only [handleLogin, TcpSocket.recvRaw, TcpSocket.arrived, pending, List.length_cons]
    rfl

/-- What the handler accepts, and what it leaves. -/
theorem handleLogin_eq_some {sock later : TcpSocket} {traderId : TraderId} :
    handleLogin sock = some (some traderId, later) ↔
      ∃ length, sock.pending = LoginRequestMsg.layout.write
          ⟨⟨length, MsgType.LoginRequest⟩, traderId⟩ ++ later.pending ∧
        7 ≤ sock.arrived ∧ later.arrivals = sock.arrivals.tail ∧ later.last = sock.last := by
  have size (length : UInt16) : (LoginRequestMsg.layout.write
      ⟨⟨length, MsgType.LoginRequest⟩, traderId⟩).length = 7 :=
    LoginRequestMsg.layout.length_write _
  by_cases available : sock.pending = []
  · constructor
    · intro accepted
      have nothing : readLogin [] = none := by decide
      cases last : sock.last <;>
        simp [handleLogin, TcpSocket.recvRaw, available, last, nothing] at accepted
    · rintro ⟨length, begins, -⟩
      have whole := congrArg List.length begins
      rw [available, List.length_append, size, List.length_nil] at whole
      omega
  · rw [handleLogin_of_pending available, Option.some.injEq, Prod.mk.injEq, readLogin_eq_some]
    constructor
    · rintro ⟨⟨length, received⟩, rfl⟩
      have whole := congrArg List.length received
      rw [size, List.length_take] at whole
      have seven : min 7 (max 1 sock.arrived) = 7 := by omega
      rw [seven] at received ⊢
      refine ⟨length, ?_, by omega, rfl, rfl⟩
      rw [← received, List.take_append_drop]
    · rintro ⟨length, begins, arrived, arrivals, last⟩
      have seven : min 7 (max 1 sock.arrived) = 7 := by omega
      rw [seven, begins, List.take_left' (size length), List.drop_left' (size length), ← arrivals,
        ← last]
      exact ⟨⟨length, rfl⟩, rfl⟩

/-- What the client sends is accepted if and only if all of it has arrived. -/
theorem handleLogin_loginRequest (traderId : TraderId) (more : List UInt8) (arrivals : List Nat)
    (last : StreamEnd) :
    handleLogin ⟨LoginRequestMsg.layout.write (loginRequest traderId) ++ more, arrivals, last⟩ =
        some (some traderId, ⟨more, arrivals.tail, last⟩) ↔
      7 ≤ (⟨LoginRequestMsg.layout.write (loginRequest traderId) ++ more, arrivals, last⟩ :
        TcpSocket).arrived := by
  rw [handleLogin_eq_some]
  constructor
  · rintro ⟨-, -, arrived, -⟩
    exact arrived
  · exact fun arrived => ⟨(loginRequest traderId).header.length, rfl, arrived, rfl, rfl⟩

/-- A client that finds the response at the front of its stream goes on behind it. -/
theorem awaitLogin_response (rest : List UInt8) (arrivals : List Nat) (last : StreamEnd) :
    ∃ others, awaitLogin ⟨LoginResponseMsg.layout.write loginResponse ++ rest, arrivals, last⟩ =
      some (.accepted, ⟨rest, others, last⟩) := by
  have size := LoginResponseMsg.layout.length_write loginResponse
  obtain ⟨others, received⟩ := @TcpSocket.recvAll_of_le
    ⟨LoginResponseMsg.layout.write loginResponse ++ rest, arrivals, last⟩
    LoginResponseMsg.layout.size (by rw [List.length_append, size]; exact Nat.le_add_right _ _)
  have value := LoginResponseMsg.layout.read_write loginResponse []
  rw [List.append_nil] at value
  dsimp only at received
  rw [List.take_left' size, List.drop_left' size] at received
  refine ⟨others, ?_⟩
  simp only [awaitLogin, received, bind, Option.bind, value]
  rfl

/-- A login is accepted if and only if all of a request of the trader has arrived when the handler
makes its only call, and then exactly the bytes behind it are left; so it is with the request that
the client sends. A client that finds the response at the front of its stream takes the login for
accepted, and its receive thread handles exactly the messages behind the response, however the bytes
arrive; and whatever stands behind a response that it accepts, the thread returns or waits. -/
theorem login_exact :
    (∀ sock traderId later, handleLogin sock = some (some traderId, later) ↔
      ∃ length, sock.pending = LoginRequestMsg.layout.write
          ⟨⟨length, MsgType.LoginRequest⟩, traderId⟩ ++ later.pending ∧
        7 ≤ sock.arrived ∧ later.arrivals = sock.arrivals.tail ∧ later.last = sock.last) ∧
    (∀ traderId more arrivals last,
      handleLogin ⟨LoginRequestMsg.layout.write (loginRequest traderId) ++ more, arrivals, last⟩ =
          some (some traderId, ⟨more, arrivals.tail, last⟩) ↔
        7 ≤ (⟨LoginRequestMsg.layout.write (loginRequest traderId) ++ more, arrivals, last⟩ :
          TcpSocket).arrived) ∧
    (∀ events arrivals last stale, ∃ sock client standing,
      awaitLogin ⟨LoginResponseMsg.layout.write loginResponse ++
        events.flatMap ServerEvent.bytes, arrivals, last⟩ = some (.accepted, sock) ∧
      (Client.new sock).recvThread stale = some (client, standing) ∧
      client.HasReceived events) ∧
    ∀ sock later, awaitLogin sock = some (.accepted, later) →
      ∀ stale, ((Client.new later).recvThread stale).isSome = true := by
  refine ⟨fun _ _ _ => handleLogin_eq_some, handleLogin_loginRequest, ?_,
    fun _ later _ stale => Client.recvThread_isSome stale (Client.new later)⟩
  intro events arrivals last stale
  obtain ⟨others, accepted⟩ :=
    awaitLogin_response (events.flatMap ServerEvent.bytes) arrivals last
  obtain ⟨iterations, client, ran, running, pending, ends, received⟩ :=
    Client.recvThread_reaches stale events [] others last
  rw [List.append_nil] at ran
  have short : client.sock.pending.length < MsgHeader.layout.size := by
    rw [pending]
    decide
  -- nothing follows the messages, so the thread waits or returns
  by_cases waits : last = .waiting
  · obtain ⟨_, stands⟩ := Client.recvThreadFunc_waiting stale (iterations + 1) running short
      (ends.trans waits)
    exact ⟨_, _, _, accepted, ran.trans stands, received.handled, received.mapped⟩
  · obtain ⟨_, stands⟩ := Client.recvThreadFunc_ended stale (iterations + 1) running short
      (by rw [ends]; exact waits)
    exact ⟨_, _, _, accepted, ran.trans stands, received.handled, received.mapped⟩

end Exchange
