import Mathlib.Order.Defs.Unbundled

/-!
# Orders, confirmations and market data

The types of `types.hpp` and `order.hpp`. Words keep their machine width, so
arithmetic on them wraps where the source's does. A side is a byte: the wire
may carry any value, and the source tests only whether it is `Buy`.
-/

namespace Exchange

/-- Fixed-point price. -/
abbrev Price := UInt32
/-- Number of shares. -/
abbrev Quantity := UInt32
/-- Exchange or client order identifier. -/
abbrev OrderId := UInt64
/-- Arrival time, carried along and never compared. -/
abbrev Timestamp := UInt64
/-- Identity of a connected participant. -/
abbrev TraderId := UInt32
/-- Numeric instrument identifier. -/
abbrev SymbolId := UInt32

/-- `enum class Side : uint8_t`; a request may carry any byte. -/
structure Side where
  /-- The underlying value. -/
  byte : UInt8
deriving DecidableEq, Repr

/-- `Side::Buy`. -/
def Side.Buy : Side := ⟨0⟩

/-- `Side::Sell`. -/
def Side.Sell : Side := ⟨1⟩

/-- The two instances of the `template<Side S>` members: the bids and the asks. -/
inductive BookSide where
  | Buy
  | Sell
deriving DecidableEq, Repr

/-- The template argument as a side value. -/
def BookSide.side : BookSide → Side
  | .Buy => Side.Buy
  | .Sell => Side.Sell

/-- The other book. -/
def BookSide.opposite : BookSide → BookSide
  | .Buy => .Sell
  | .Sell => .Buy

/-- The book a side value selects: every test is `== Side::Buy`, so any other byte sells. -/
def Side.book (side : Side) : BookSide := if side = Side.Buy then .Buy else .Sell

/-- The two books are different. -/
theorem BookSide.opposite_ne (side : BookSide) : side.opposite ≠ side := by
  cases side <;> decide

/-- The opposite of the opposite book. -/
@[simp]
theorem BookSide.opposite_opposite (side : BookSide) : side.opposite.opposite = side := by
  cases side <;> rfl

/-- Iteration order of a book: `std::greater` for the bids, `std::less` for the asks. -/
def BookSide.before : BookSide → Price → Price → Prop
  | .Buy, first, second => second < first
  | .Sell, first, second => first < second

instance (side : BookSide) : DecidableRel side.before := fun first second =>
  match side with
  | .Buy => inferInstanceAs (Decidable (second < first))
  | .Sell => inferInstanceAs (Decidable (first < second))

/-- Both iteration orders are strict and total. -/
instance (side : BookSide) : IsStrictTotalOrder Price side.before where
  irrefl price := by
    cases side <;> simp [BookSide.before]
  trans first second third := by
    cases side <;> simp only [BookSide.before, UInt32.lt_iff_toNat_lt] <;> omega
  trichotomous first second := by
    cases side <;>
      simp only [BookSide.before, UInt32.lt_iff_toNat_lt, ← UInt32.toNat_inj] <;> omega

/-- A smaller quantity taken from a larger one leaves some. -/
theorem sub_ne_zero_of_lt {less more : Quantity} (smaller : less < more) : more - less ≠ 0 := by
  intro zero
  rw [UInt32.sub_eq_iff_eq_add, UInt32.zero_add] at zero
  exact UInt32.ne_of_lt smaller zero.symm

/-- Kinds of client request. -/
inductive RequestType where
  | New
  | Cancel
  | Modify
deriving DecidableEq, Repr

/-- Reasons carried by a reject. -/
inductive RejectReason where
  | UnknownOrder
  | InvalidPrice
  | InvalidQty
  | Unauthorized
  | UnknownSymbol
  | SelfTrade
deriving DecidableEq, Repr

/-- A request as the matching thread hands it to the engine. -/
structure OrderRequest where
  /-- Exchange identifier, assigned by the engine for a new order. -/
  m_orderId : OrderId := 0
  /-- The client's own identifier. -/
  m_clientOrderId : OrderId := 0
  /-- Limit price. -/
  m_price : Price := 0
  /-- Arrival time. -/
  m_timestamp : Timestamp := 0
  /-- Requesting trader. -/
  m_traderId : TraderId := 0
  /-- Instrument. -/
  m_symbolId : SymbolId := 0
  /-- Requested number of shares. -/
  m_quantity : Quantity := 0
  /-- Requested side. -/
  m_side : Side := Side.Buy
  /-- Kind of request. -/
  m_requestType : RequestType := .New
deriving DecidableEq, Repr

/-- A resting order as the price levels see it. -/
structure BookElement where
  /-- Exchange identifier. -/
  m_id : OrderId
  /-- Owner. -/
  m_traderId : TraderId
  /-- Shares left. -/
  m_quantity : Quantity
deriving DecidableEq, Repr

/-- `OrderConfirm::Type`. -/
inductive ConfirmType where
  | NewAck
  | ModifyAck
  | CancelAck
  | Trade
  | Reject
deriving DecidableEq, Repr

/-- Private confirmation to one trader. -/
structure OrderConfirm where
  /-- Kind of confirmation. -/
  type : ConfirmType
  /-- Exchange identifier of the order. -/
  orderId : OrderId
  /-- The client's own identifier, when the source fills it in. -/
  clientOrderId : OrderId
  /-- Addressee. -/
  traderId : TraderId
  /-- Instrument. -/
  symbolId : SymbolId
  /-- Trade price. -/
  price : Price
  /-- Traded or cancelled shares. -/
  qty : Quantity
  /-- Reason, of use in a reject. -/
  reason : RejectReason
deriving DecidableEq, Repr

/-- Kinds of market data update. -/
inductive MdUpdateType where
  | New
  | Modify
  | Cancel
  | Trade
deriving DecidableEq, Repr

/-- Market data update to all participants. -/
structure MdUpdate where
  /-- Instrument. -/
  symbolId : SymbolId
  /-- The order added, modified, cancelled or traded. -/
  orderId : OrderId
  /-- Its side. -/
  side : Side
  /-- Its price, or the trade's. -/
  price : Price
  /-- Its quantity, or the trade's. -/
  qty : Quantity
  /-- Kind of update. -/
  updateType : MdUpdateType
deriving DecidableEq, Repr

/-- What one call appends to the two vectors it is given. -/
structure Outputs where
  /-- Private confirmations in emission order. -/
  confirmsOut : List OrderConfirm
  /-- Market data in emission order. -/
  mdOut : List MdUpdate
deriving DecidableEq, Repr

/-- A call that emits nothing. -/
def Outputs.none : Outputs := ⟨[], []⟩

/-- Emissions of two stretches of one call, in order. -/
def Outputs.append (first second : Outputs) : Outputs :=
  ⟨first.confirmsOut ++ second.confirmsOut, first.mdOut ++ second.mdOut⟩

end Exchange
