import ExchangeSimulator.Net.Protocol
import ExchangeSimulator.Net.TcpSocket
import Mathlib.Logic.Function.Basic

/-!
# The client's receive thread

`recvMsg` and `recvThreadFunc` of `client/src/main.cpp`. The thread receives a
header, then as many bytes as the header announces beyond itself, and copies the
two into the struct that the type selects. The array for the body is not
initialised, so what it holds when an iteration begins is an input. Printing a
message is recorded as handling it. `gRunning` is written by the thread alone
here: the terminal loop and the signal handler only ever make the thread stop.
The loops run on an iteration count, and a run that needs more has no result.
-/

namespace Exchange

/-- How a receive loop was left. -/
inductive LoopExit where
  /-- Nothing remains. -/
  | complete
  /-- A call returned `n <= 0`. -/
  | failed
  /-- A call has not returned. -/
  | blocked
deriving DecidableEq, Repr

/-- What a receive loop leaves. -/
structure Filled where
  /-- How it was left. -/
  exit : LoopExit
  /-- The bytes it has received. -/
  bytes : List UInt8
  /-- The socket afterwards. -/
  sock : TcpSocket
deriving DecidableEq, Repr

/-- `while (remaining > 0)`, the loop of `recvMsg` and of the body. -/
def TcpSocket.recvLoop : Nat → TcpSocket → Nat → Option Filled
  | 0, sock, remaining => if remaining = 0 then some ⟨.complete, [], sock⟩ else none
  | calls + 1, sock, remaining =>
    if remaining = 0 then some ⟨.complete, [], sock⟩
    else
      match sock.recvRaw remaining with
      | (.data bytes, sock) => do
        let later ← TcpSocket.recvLoop calls sock (remaining - bytes.length)
        some { later with bytes := bytes ++ later.bytes }
      | (.ended, sock) => some ⟨.failed, [], sock⟩
      | (.blocked, sock) => some ⟨.blocked, [], sock⟩

/-- Receive so many bytes; a call brings at least one. -/
def TcpSocket.recvAll (sock : TcpSocket) (size : Nat) : Option Filled :=
  TcpSocket.recvLoop size sock size

/-- `char body[256]`. -/
structure Body where
  /-- What it holds. -/
  bytes : List UInt8
  /-- Its size. -/
  size : bytes.length = 256
deriving DecidableEq, Repr

/-- What the array holds after bytes were received to its front. -/
def Body.overwrite (body : Body) (received : List UInt8) : List UInt8 :=
  received ++ body.bytes.drop received.length

/-- What is printed for a received message. -/
inductive Handled where
  /-- A message of a known type. -/
  | decoded (msg : ServerMsg)
  /-- The `default` case. -/
  | unknown (type : MsgType) (length : UInt16)
deriving DecidableEq, Repr

/-- `switch (header.type)`: the header and the front of the body, copied into a struct. -/
def decode (header : MsgHeader) (body : List UInt8) : Handled :=
  let image := MsgHeader.layout.write header ++ body
  if header.type = MsgType.NewOrderConfirm then
    .decoded (.newOrderConfirm (NewOrderConfirmMsg.layout.read image))
  else if header.type = MsgType.ModifyOrderConfirm then
    .decoded (.modifyOrderConfirm (ModifyOrderConfirmMsg.layout.read image))
  else if header.type = MsgType.CancelOrderConfirm then
    .decoded (.cancelOrderConfirm (CancelOrderConfirmMsg.layout.read image))
  else if header.type = MsgType.TradeConfirm then
    .decoded (.tradeConfirm (TradeConfirmMsg.layout.read image))
  else if header.type = MsgType.Reject then
    .decoded (.reject (RejectMsg.layout.read image))
  else if header.type = MsgType.MarketUpdate then
    .decoded (.marketUpdate (MarketUpdateMsg.layout.read image))
  else .unknown header.type header.length

/-- What the receive thread works on. -/
structure Client where
  /-- The connection. -/
  sock : TcpSocket
  /-- `gRunning`. -/
  gRunning : Bool
  /-- `internalToExchange`. -/
  internalToExchange : OrderId → Option OrderId
  /-- The messages handled so far. -/
  handled : List Handled

/-- Where a thread stands. -/
inductive Standing where
  /-- At the head of its loop. -/
  | looping
  /-- In a `recv` for a header, with these bytes of it received. -/
  | inHeader (received : List UInt8)
  /-- In a `recv` for a body, with these bytes of it received. -/
  | inBody (header : MsgHeader) (received : List UInt8)
  /-- It has returned. -/
  | stopped
deriving DecidableEq, Repr

namespace Client

/-- A client that has logged in. -/
def new (sock : TcpSocket) : Client := ⟨sock, true, fun _ => none, []⟩

/-- Print a message; a confirmed new order is entered in the map. -/
def handle (client : Client) (handled : Handled) : Client where
  sock := client.sock
  gRunning := client.gRunning
  internalToExchange :=
    match handled with
    | .decoded (.newOrderConfirm msg) =>
      Function.update client.internalToExchange msg.clientOrderId (some msg.orderId)
    | _ => client.internalToExchange
  handled := client.handled ++ [handled]

/-- Receive the body that a header announces, then `switch (header.type)`. -/
def recvBody (client : Client) (header : MsgHeader) (bodySize : Nat) (body : Body) :
    Option (Client × Standing) := do
  let rest ← client.sock.recvAll bodySize
  let client := { client with sock := rest.sock }
  match rest.exit with
  | .blocked => some (client, .inBody header rest.bytes)
  | .failed =>
    -- the `break` leaves the receive loop only, and the switch comes next
    let client := { client with gRunning := false }
    some (client.handle (decode header (body.overwrite rest.bytes)), .looping)
  | .complete => some (client.handle (decode header (body.overwrite rest.bytes)), .looping)

/-- One iteration of the loop. -/
def iterate (client : Client) (body : Body) : Option (Client × Standing) := do
  let head ← client.sock.recvAll MsgHeader.layout.size
  let client := { client with sock := head.sock }
  match head.exit with
  | .blocked => some (client, .inHeader head.bytes)
  | .failed => some ({ client with gRunning := false }, .stopped)
  | .complete =>
    let header := MsgHeader.layout.read head.bytes
    -- unsigned: a length below the size of the header wraps
    let bodySize : UInt64 := header.length.toUInt64 - UInt64.ofNat MsgHeader.layout.size
    if 0 < bodySize ∧ bodySize ≤ 256 then client.recvBody header bodySize.toNat body
    else some (client.handle (decode header body.bytes), .looping)

/-- `recvThreadFunc`; each iteration finds its own content in the array. -/
def recvThreadFunc (stale : Nat → Body) : Nat → Client → Option (Client × Standing)
  | 0, _ => none
  | iterations + 1, client =>
    if client.gRunning then
      match client.iterate (stale iterations) with
      | none => none
      | some (client, .looping) => recvThreadFunc stale iterations client
      | some (client, standing) => some (client, standing)
    else some (client, .stopped)

/-- The whole thread, with more iterations than there are bytes. -/
def recvThread (stale : Nat → Body) (client : Client) : Option (Client × Standing) :=
  recvThreadFunc stale (client.sock.pending.length + 2) client

end Client

end Exchange
