import ExchangeSimulator.Net.Protocol

/-!
# What the matching thread sends

The two send loops of `thread_matching.cpp`, seen from one connection. Each
confirm and each update that goes to its descriptor is converted to a struct and
handed to `::send`. The descriptor is non-blocking, so the kernel takes the whole
struct, a part of it, or nothing. The result of the call is not looked at.
-/

namespace Exchange

/-- A confirm or an update on its way to a client. -/
inductive ServerEvent where
  /-- Of `confirms`, to the trader it is for. -/
  | ofConfirm (confirm : OrderConfirm)
  /-- Of `mdUpdates`, to everyone. -/
  | ofUpdate (md : MdUpdate)
deriving DecidableEq, Repr

namespace ServerEvent

/-- `switch (confirm.type)` and the converters. -/
def msg : ServerEvent → ServerMsg
  | .ofConfirm confirm =>
    match confirm.type with
    | .NewAck => .newOrderConfirm confirm.toNewOrderConfirmMsg
    | .ModifyAck => .modifyOrderConfirm confirm.toModifyOrderConfirmMsg
    | .CancelAck => .cancelOrderConfirm confirm.toCancelOrderConfirmMsg
    | .Trade => .tradeConfirm confirm.toTradeConfirmMsg
    | .Reject => .reject confirm.toRejectMsg
  | .ofUpdate md => .marketUpdate md.toMarketUpdateMsg

/-- The bytes handed to `::send`. -/
def bytes (event : ServerEvent) : List UInt8 := event.msg.bytes

end ServerEvent

/-- A call of `::send` with what the kernel makes of it. -/
structure Send where
  /-- What is sent. -/
  event : ServerEvent
  /-- How many of its bytes are taken, none with `EAGAIN`. -/
  taken : Nat
  /-- No more than there are. -/
  fits : taken ≤ event.bytes.length
deriving DecidableEq, Repr

/-- `::send(fd, &msg, sizeof(msg), MSG_NOSIGNAL)`: what the connection carries afterwards. -/
def Send.write (stream : List UInt8) (send : Send) : List UInt8 :=
  stream ++ send.event.bytes.take send.taken

/-- The bytes that some calls put on the connection. -/
def written (sends : List Send) : List UInt8 := sends.foldl Send.write []

end Exchange
