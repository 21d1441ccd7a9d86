import ExchangeSimulator.Client.Receiver

/-!
# The login

The two ends of the handshake: the first lines of the login handler of
`thread_accept.cpp`, which makes a single call of `recvRaw` on the blocking socket
and refuses anything but a whole request, and the lines of `client/src/main.cpp`
between the connection and the start of the receive thread. Neither end looks at
the length in a header, and the client does not look at the type of the response.
-/

namespace Exchange

open Library

/-- `MsgType::LoginRequest`. -/
def MsgType.LoginRequest : MsgType := ⟨4⟩

/-- `MsgType::LoginResponse`. -/
def MsgType.LoginResponse : MsgType := ⟨15⟩

/-- `LoginRequestMsg`. -/
structure LoginRequestMsg where
  /-- Length and type. -/
  header : MsgHeader
  /-- The trader that logs in. -/
  traderId : TraderId
deriving DecidableEq, Repr

/-- The packed message. -/
def LoginRequestMsg.layout : Layout LoginRequestMsg :=
  (MsgHeader.layout.pair Layout.u32).map (fun (header, traderId) => ⟨header, traderId⟩)
    (fun msg => (msg.header, msg.traderId)) (fun _ => rfl)

/-- `LoginResponseMsg`. -/
structure LoginResponseMsg where
  /-- Length and type. -/
  header : MsgHeader
  /-- The byte of a `bool`. -/
  accepted : UInt8
deriving DecidableEq, Repr

/-- The packed message. -/
def LoginResponseMsg.layout : Layout LoginResponseMsg :=
  (MsgHeader.layout.pair Layout.u8).map (fun (header, accepted) => ⟨header, accepted⟩)
    (fun msg => (msg.header, msg.accepted)) (fun _ => rfl)

example : (LoginRequestMsg.layout.size, LoginResponseMsg.layout.size) = (7, 4) := rfl

/-! ## The exchange -/

/-- The two checks on what `recvRaw` has returned; nothing for `n <= 0`. -/
def readLogin (received : List UInt8) : Option TraderId :=
  if received.length ≠ LoginRequestMsg.layout.size then none
  else
    let login := LoginRequestMsg.layout.read received
    if login.header.type ≠ MsgType.LoginRequest then none else some login.traderId

/-- One call of `recvRaw` and the checks; no result while the call has not returned. -/
def handleLogin (client : TcpSocket) : Option (Option TraderId × TcpSocket) :=
  match client.recvRaw LoginRequestMsg.layout.size with
  | (.data bytes, client) => some (readLogin bytes, client)
  | (.ended, client) => some (readLogin [], client)
  | (.blocked, _) => none

/-- The response to a login. -/
def loginResponse : LoginResponseMsg :=
  ⟨MsgHeader.of LoginResponseMsg.layout MsgType.LoginResponse, 1⟩

/-! ## The client -/

/-- The request of a trader. -/
def loginRequest (traderId : TraderId) : LoginRequestMsg :=
  ⟨MsgHeader.of LoginRequestMsg.layout MsgType.LoginRequest, traderId⟩

/-- How the wait for the response ends. -/
inductive LoginExit where
  /-- The receive thread is started. -/
  | accepted
  /-- `if (!resp.accepted) return 1`. -/
  | rejected
  /-- `Failed to receive LoginResponseMsg`. -/
  | failed
  /-- A call has not returned. -/
  | blocked
deriving DecidableEq, Repr

/-- `recvMsg(sock, resp)` and the look at `accepted`. -/
def awaitLogin (sock : TcpSocket) : Option (LoginExit × TcpSocket) := do
  let filled ← sock.recvAll LoginResponseMsg.layout.size
  match filled.exit with
  | .blocked => some (.blocked, filled.sock)
  | .failed => some (.failed, filled.sock)
  | .complete =>
    if (LoginResponseMsg.layout.read filled.bytes).accepted ≠ 0 then some (.accepted, filled.sock)
    else some (.rejected, filled.sock)

end Exchange
