import ExchangeSimulator.Core.Order
import ExchangeSimulator.Library.Layout

/-!
# The wire protocol

`protocol.hpp`, in both directions. The structs are packed, so a message is its
header followed by its fields in order, little-endian, with nothing between
them. A type, a side, a reason and a kind of update are bytes of any value. The
client fills in the header of a request as `client/src/main.cpp` does, with the
size of the struct; the converters to the wire do the same for a message of the
exchange.
-/

namespace Exchange

open Library

/-- `enum class MsgType : uint8_t`; the wire may carry any byte. -/
structure MsgType where
  /-- The underlying value. -/
  byte : UInt8
deriving DecidableEq, Repr

namespace MsgType

/-- `MsgType::NewOrderRequest`. -/
def NewOrderRequest : MsgType := ⟨1⟩

/-- `MsgType::ModifyOrderRequest`. -/
def ModifyOrderRequest : MsgType := ⟨2⟩

/-- `MsgType::CancelOrderRequest`. -/
def CancelOrderRequest : MsgType := ⟨3⟩

/-- `MsgType::NewOrderConfirm`. -/
def NewOrderConfirm : MsgType := ⟨10⟩

/-- `MsgType::ModifyOrderConfirm`. -/
def ModifyOrderConfirm : MsgType := ⟨11⟩

/-- `MsgType::CancelOrderConfirm`. -/
def CancelOrderConfirm : MsgType := ⟨12⟩

/-- `MsgType::TradeConfirm`. -/
def TradeConfirm : MsgType := ⟨13⟩

/-- `MsgType::Reject`. -/
def Reject : MsgType := ⟨14⟩

/-- `MsgType::MarketUpdate`. -/
def MarketUpdate : MsgType := ⟨20⟩

end MsgType

/-- `MsgHeader`. -/
structure MsgHeader where
  /-- Length of the whole message. -/
  length : UInt16
  /-- Kind of message. -/
  type : MsgType
deriving DecidableEq, Repr

/-- The packed header. -/
def MsgHeader.layout : Layout MsgHeader :=
  (Layout.u16.pair Layout.u8).map (fun fields => ⟨fields.1, ⟨fields.2⟩⟩)
    (fun header => (header.length, header.type.byte)) (fun _ => rfl)

/-- `NewOrderRequestMsg`. -/
structure NewOrderRequestMsg where
  /-- Length and type. -/
  header : MsgHeader
  /-- The client's own identifier. -/
  clientOrderId : OrderId
  /-- Instrument. -/
  symbolId : SymbolId
  /-- Requested side. -/
  side : Side
  /-- Limit price. -/
  price : Price
  /-- Requested number of shares. -/
  qty : Quantity
deriving DecidableEq, Repr

/-- The packed message. -/
def NewOrderRequestMsg.layout : Layout NewOrderRequestMsg :=
  (MsgHeader.layout.pair (Layout.u64.pair (Layout.u32.pair (Layout.u8.pair
    (Layout.u32.pair Layout.u32))))).map
    (fun (header, clientOrderId, symbolId, side, price, qty) =>
      ⟨header, clientOrderId, symbolId, ⟨side⟩, price, qty⟩)
    (fun msg => (msg.header, msg.clientOrderId, msg.symbolId, msg.side.byte, msg.price, msg.qty))
    (fun _ => rfl)

/-- `ModifyOrderRequestMsg`. -/
structure ModifyOrderRequestMsg where
  /-- Length and type. -/
  header : MsgHeader
  /-- Exchange identifier of the order. -/
  orderId : OrderId
  /-- Instrument. -/
  symbolId : SymbolId
  /-- New limit price. -/
  price : Price
  /-- New number of shares. -/
  qty : Quantity
deriving DecidableEq, Repr

/-- The packed message. -/
def ModifyOrderRequestMsg.layout : Layout ModifyOrderRequestMsg :=
  (MsgHeader.layout.pair (Layout.u64.pair (Layout.u32.pair (Layout.u32.pair Layout.u32)))).map
    (fun (header, orderId, symbolId, price, qty) => ⟨header, orderId, symbolId, price, qty⟩)
    (fun msg => (msg.header, msg.orderId, msg.symbolId, msg.price, msg.qty)) (fun _ => rfl)

/-- `CancelOrderRequestMsg`. -/
structure CancelOrderRequestMsg where
  /-- Length and type. -/
  header : MsgHeader
  /-- Exchange identifier of the order. -/
  orderId : OrderId
  /-- Instrument. -/
  symbolId : SymbolId
deriving DecidableEq, Repr

/-- The packed message. -/
def CancelOrderRequestMsg.layout : Layout CancelOrderRequestMsg :=
  (MsgHeader.layout.pair (Layout.u64.pair Layout.u32)).map
    (fun (header, orderId, symbolId) => ⟨header, orderId, symbolId⟩)
    (fun msg => (msg.header, msg.orderId, msg.symbolId)) (fun _ => rfl)

-- `sizeof` of the packed structs
example :
    MsgHeader.layout.size = 3 ∧ NewOrderRequestMsg.layout.size = 24 ∧
    ModifyOrderRequestMsg.layout.size = 23 ∧ CancelOrderRequestMsg.layout.size = 15 := by
  decide

/-- `toOrderRequest` of a new order; `now` is what the clock shows. -/
def NewOrderRequestMsg.toOrderRequest (msg : NewOrderRequestMsg) (traderId : TraderId)
    (now : Timestamp) : OrderRequest where
  m_clientOrderId := msg.clientOrderId
  m_price := msg.price
  m_timestamp := now
  m_traderId := traderId
  m_symbolId := msg.symbolId
  m_quantity := msg.qty
  m_side := msg.side
  m_requestType := .New

/-- `toOrderRequest` of a cancel. -/
def CancelOrderRequestMsg.toOrderRequest (msg : CancelOrderRequestMsg) (traderId : TraderId)
    (now : Timestamp) : OrderRequest where
  m_orderId := msg.orderId
  m_timestamp := now
  m_traderId := traderId
  m_symbolId := msg.symbolId
  m_requestType := .Cancel

/-- `toOrderRequest` of a modification. -/
def ModifyOrderRequestMsg.toOrderRequest (msg : ModifyOrderRequestMsg) (traderId : TraderId)
    (now : Timestamp) : OrderRequest where
  m_orderId := msg.orderId
  m_timestamp := now
  m_traderId := traderId
  m_symbolId := msg.symbolId
  m_price := msg.price
  m_quantity := msg.qty
  m_requestType := .Modify

/-! ## From the exchange to the clients -/

/-- `NewOrderConfirmMsg`. -/
structure NewOrderConfirmMsg where
  /-- Length and type. -/
  header : MsgHeader
  /-- The client's own identifier. -/
  clientOrderId : OrderId
  /-- Exchange identifier of the order. -/
  orderId : OrderId
deriving DecidableEq, Repr

/-- The packed message. -/
def NewOrderConfirmMsg.layout : Layout NewOrderConfirmMsg :=
  (MsgHeader.layout.pair (Layout.u64.pair Layout.u64)).map
    (fun (header, clientOrderId, orderId) => ⟨header, clientOrderId, orderId⟩)
    (fun msg => (msg.header, msg.clientOrderId, msg.orderId)) (fun _ => rfl)

/-- `ModifyOrderConfirmMsg`. -/
structure ModifyOrderConfirmMsg where
  /-- Length and type. -/
  header : MsgHeader
  /-- Exchange identifier of the order. -/
  orderId : OrderId
deriving DecidableEq, Repr

/-- The packed message. -/
def ModifyOrderConfirmMsg.layout : Layout ModifyOrderConfirmMsg :=
  (MsgHeader.layout.pair Layout.u64).map (fun (header, orderId) => ⟨header, orderId⟩)
    (fun msg => (msg.header, msg.orderId)) (fun _ => rfl)

/-- `CancelOrderConfirmMsg`. -/
structure CancelOrderConfirmMsg where
  /-- Length and type. -/
  header : MsgHeader
  /-- Exchange identifier of the order. -/
  orderId : OrderId
deriving DecidableEq, Repr

/-- The packed message. -/
def CancelOrderConfirmMsg.layout : Layout CancelOrderConfirmMsg :=
  (MsgHeader.layout.pair Layout.u64).map (fun (header, orderId) => ⟨header, orderId⟩)
    (fun msg => (msg.header, msg.orderId)) (fun _ => rfl)

/-- `TradeConfirmMsg`. -/
structure TradeConfirmMsg where
  /-- Length and type. -/
  header : MsgHeader
  /-- Exchange identifier of the order. -/
  orderId : OrderId
  /-- Trade price. -/
  price : Price
  /-- Traded shares. -/
  qty : Quantity
deriving DecidableEq, Repr

/-- The packed message. -/
def TradeConfirmMsg.layout : Layout TradeConfirmMsg :=
  (MsgHeader.layout.pair (Layout.u64.pair (Layout.u32.pair Layout.u32))).map
    (fun (header, orderId, price, qty) => ⟨header, orderId, price, qty⟩)
    (fun msg => (msg.header, msg.orderId, msg.price, msg.qty)) (fun _ => rfl)

/-- `RejectMsg`. -/
structure RejectMsg where
  /-- Length and type. -/
  header : MsgHeader
  /-- Exchange identifier of the order. -/
  orderId : OrderId
  /-- The byte of a `RejectReason`. -/
  reason : UInt8
deriving DecidableEq, Repr

/-- The packed message. -/
def RejectMsg.layout : Layout RejectMsg :=
  (MsgHeader.layout.pair (Layout.u64.pair Layout.u8)).map
    (fun (header, orderId, reason) => ⟨header, orderId, reason⟩)
    (fun msg => (msg.header, msg.orderId, msg.reason)) (fun _ => rfl)

/-- `MarketUpdateMsg`. -/
structure MarketUpdateMsg where
  /-- Length and type. -/
  header : MsgHeader
  /-- Instrument. -/
  symbolId : SymbolId
  /-- The order added, modified, cancelled or traded. -/
  orderId : OrderId
  /-- Its side. -/
  side : Side
  /-- Its price, or the trade's. -/
  price : Price
  /-- Its quantity, or the trade's. -/
  qty : Quantity
  /-- The byte of an `MdUpdateType`. -/
  updateType : UInt8
deriving DecidableEq, Repr

/-- The packed message. -/
def MarketUpdateMsg.layout : Layout MarketUpdateMsg :=
  (MsgHeader.layout.pair (Layout.u32.pair (Layout.u64.pair (Layout.u8.pair
    (Layout.u32.pair (Layout.u32.pair Layout.u8)))))).map
    (fun (header, symbolId, orderId, side, price, qty, updateType) =>
      ⟨header, symbolId, orderId, ⟨side⟩, price, qty, updateType⟩)
    (fun msg => (msg.header, msg.symbolId, msg.orderId, msg.side.byte, msg.price, msg.qty,
      msg.updateType))
    (fun _ => rfl)

-- `sizeof` of the packed structs
example :
    NewOrderConfirmMsg.layout.size = 19 ∧ ModifyOrderConfirmMsg.layout.size = 11 ∧
    CancelOrderConfirmMsg.layout.size = 11 ∧ TradeConfirmMsg.layout.size = 19 ∧
    RejectMsg.layout.size = 12 ∧ MarketUpdateMsg.layout.size = 25 := by
  decide

/-- The values of `enum class RejectReason : uint8_t`. -/
def RejectReason.byte : RejectReason → UInt8
  | .UnknownOrder => 0
  | .InvalidPrice => 1
  | .InvalidQty => 2
  | .Unauthorized => 3
  | .UnknownSymbol => 4
  | .SelfTrade => 5

/-- The values of `enum class MdUpdateType : uint8_t`. -/
def MdUpdateType.byte : MdUpdateType → UInt8
  | .New => 1
  | .Modify => 2
  | .Cancel => 3
  | .Trade => 4

/-- `header.length = sizeof(...)` and `header.type`. -/
def MsgHeader.of {α : Type} (layout : Layout α) (type : MsgType) : MsgHeader :=
  ⟨UInt16.ofNat layout.size, type⟩

namespace OrderConfirm

/-- `toNewOrderConfirmMsg`. -/
def toNewOrderConfirmMsg (confirm : OrderConfirm) : NewOrderConfirmMsg where
  header := MsgHeader.of NewOrderConfirmMsg.layout MsgType.NewOrderConfirm
  clientOrderId := confirm.clientOrderId
  orderId := confirm.orderId

/-- `toModifyOrderConfirmMsg`. -/
def toModifyOrderConfirmMsg (confirm : OrderConfirm) : ModifyOrderConfirmMsg where
  header := MsgHeader.of ModifyOrderConfirmMsg.layout MsgType.ModifyOrderConfirm
  orderId := confirm.orderId

/-- `toCancelOrderConfirmMsg`. -/
def toCancelOrderConfirmMsg (confirm : OrderConfirm) : CancelOrderConfirmMsg where
  header := MsgHeader.of CancelOrderConfirmMsg.layout MsgType.CancelOrderConfirm
  orderId := confirm.orderId

/-- `toTradeConfirmMsg`. -/
def toTradeConfirmMsg (confirm : OrderConfirm) : TradeConfirmMsg where
  header := MsgHeader.of TradeConfirmMsg.layout MsgType.TradeConfirm
  orderId := confirm.orderId
  price := confirm.price
  qty := confirm.qty

/-- `toRejectMsg`. -/
def toRejectMsg (confirm : OrderConfirm) : RejectMsg where
  header := MsgHeader.of RejectMsg.layout MsgType.Reject
  orderId := confirm.orderId
  reason := confirm.reason.byte

end OrderConfirm

/-- `toMarketUpdateMsg`. -/
def MdUpdate.toMarketUpdateMsg (md : MdUpdate) : MarketUpdateMsg where
  header := MsgHeader.of MarketUpdateMsg.layout MsgType.MarketUpdate
  symbolId := md.symbolId
  orderId := md.orderId
  side := md.side
  price := md.price
  qty := md.qty
  updateType := md.updateType.byte

/-- A message of the exchange, one of six structs. -/
inductive ServerMsg where
  /-- A new order was accepted. -/
  | newOrderConfirm (msg : NewOrderConfirmMsg)
  /-- An order was modified. -/
  | modifyOrderConfirm (msg : ModifyOrderConfirmMsg)
  /-- An order was cancelled. -/
  | cancelOrderConfirm (msg : CancelOrderConfirmMsg)
  /-- An order traded. -/
  | tradeConfirm (msg : TradeConfirmMsg)
  /-- A request was rejected. -/
  | reject (msg : RejectMsg)
  /-- The book changed. -/
  | marketUpdate (msg : MarketUpdateMsg)
deriving DecidableEq, Repr

/-- The bytes of the struct. -/
def ServerMsg.bytes : ServerMsg → List UInt8
  | .newOrderConfirm msg => NewOrderConfirmMsg.layout.write msg
  | .modifyOrderConfirm msg => ModifyOrderConfirmMsg.layout.write msg
  | .cancelOrderConfirm msg => CancelOrderConfirmMsg.layout.write msg
  | .tradeConfirm msg => TradeConfirmMsg.layout.write msg
  | .reject msg => RejectMsg.layout.write msg
  | .marketUpdate msg => MarketUpdateMsg.layout.write msg

/-- The header of the struct. -/
def ServerMsg.header : ServerMsg → MsgHeader
  | .newOrderConfirm msg => msg.header
  | .modifyOrderConfirm msg => msg.header
  | .cancelOrderConfirm msg => msg.header
  | .tradeConfirm msg => msg.header
  | .reject msg => msg.header
  | .marketUpdate msg => msg.header

end Exchange
