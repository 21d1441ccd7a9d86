import ExchangeSimulator.Client.Receiver
import ExchangeSimulator.Library.Scan

/-!
# The client's terminal loop

The loop of `main` in `client/src/main.cpp`, one line at a time. A line is
skipped, ends the client, or is read as a new order, a modification or a cancel.
Orders are named by the client's own identifiers; the exchange's identifier of an
order to modify or cancel is looked up in the map that the receive thread fills,
and without one nothing is sent. A message goes out as the bytes of its struct.
-/

namespace Exchange

open Library

/-- A request as the client builds it, one of three structs. -/
inductive RequestMsg where
  /-- A new order. -/
  | newOrder (msg : NewOrderRequestMsg)
  /-- A modification. -/
  | modifyOrder (msg : ModifyOrderRequestMsg)
  /-- A cancel. -/
  | cancelOrder (msg : CancelOrderRequestMsg)
deriving DecidableEq, Repr

/-- The bytes of the struct, as `sendMsg` sends them. -/
def RequestMsg.bytes : RequestMsg → List UInt8
  | .newOrder msg => NewOrderRequestMsg.layout.write msg
  | .modifyOrder msg => ModifyOrderRequestMsg.layout.write msg
  | .cancelOrder msg => CancelOrderRequestMsg.layout.write msg

/-- What a line asks for. -/
inductive Command where
  /-- Nothing: the line is empty or a comment. -/
  | skipped
  /-- The end. -/
  | quit
  /-- `N`: a new order, with the word given for its side. -/
  | new (internalId : OrderId) (symId : SymbolId) (sideStr : List Char) (price : Price)
      (qty : Quantity)
  /-- `M`: a modification. -/
  | modify (internalId : OrderId) (symId : SymbolId) (price : Price) (qty : Quantity)
  /-- `C`: a cancel. -/
  | cancel (internalId : OrderId) (symId : SymbolId)
  /-- `N`, `M` or `C` with fields that cannot be read. -/
  | invalid (action : List Char)
  /-- Anything else. -/
  | unknown (action : List Char)
deriving DecidableEq, Repr

namespace Command

/-- `>> internalId` and other fields of 64 bits. -/
def read64 (text : List Char) : Option (UInt64 × List Char) :=
  (readUnsigned (2 ^ 64) text).map (Prod.map UInt64.ofNat id)

/-- `>> symId`, `>> price` and `>> qty`. -/
def read32 (text : List Char) : Option (UInt32 × List Char) :=
  (readUnsigned (2 ^ 32) text).map (Prod.map UInt32.ofNat id)

/-- `ss >> internalId >> symId >> sideStr >> price >> qty`. -/
def readNew (text : List Char) : Option Command := do
  let (internalId, text) ← read64 text
  let (symId, text) ← read32 text
  let (sideStr, text) ← readWord text
  let (price, text) ← read32 text
  let (qty, _) ← read32 text
  some (.new internalId symId sideStr price qty)

/-- `ss >> internalId >> symId >> price >> qty`. -/
def readModify (text : List Char) : Option Command := do
  let (internalId, text) ← read64 text
  let (symId, text) ← read32 text
  let (price, text) ← read32 text
  let (qty, _) ← read32 text
  some (.modify internalId symId price qty)

/-- `ss >> internalId >> symId`. -/
def readCancel (text : List Char) : Option Command := do
  let (internalId, text) ← read64 text
  let (symId, _) ← read32 text
  some (.cancel internalId symId)

/-- `if (c == ',') c = ' '`, for each character. -/
def clean (line : List Char) : List Char :=
  line.map fun char => if char = ',' then ' ' else char

/-- `ss >> action` and the fields it calls for. -/
def readAction (text : List Char) : Command :=
  match readWord text with
  | none => .unknown []
  | some (action, text) =>
    if action = ['N'] then (readNew text).getD (.invalid action)
    else if action = ['M'] then (readModify text).getD (.invalid action)
    else if action = ['C'] then (readCancel text).getD (.invalid action)
    else .unknown action

/-- One line of the terminal. -/
def ofLine (line : List Char) : Command :=
  if line = [] ∨ line.head? = some '#' then .skipped
  else if line = ['q', 'u', 'i', 't'] ∨ line = ['q'] ∨ line = ['e', 'x', 'i', 't'] then .quit
  else readAction (clean line)

end Command

/-- What one pass of the loop does. -/
structure Typed where
  /-- The text it prints. -/
  printed : String
  /-- The message it sends, if any. -/
  sent : Option RequestMsg
  /-- `gRunning` afterwards. -/
  gRunning : Bool
deriving DecidableEq, Repr

/-- The names of the instruments. -/
def symbols : List String := ["RELIANCE", "TCS", "INFY", "HDFCBANK", "ICICIBANK"]

/-- `(symId < 5) ? symbols[symId] : "?"`. -/
def symbolName (symId : SymbolId) : String := symbols.getD symId.toNat "?"

/-- The exchange's identifier of an order, zero if it is not known. -/
def exchId (internalToExchange : OrderId → Option OrderId) (internalId : OrderId) : OrderId :=
  match internalToExchange internalId with
  | some exchId => exchId
  | none => 0

/-- `(sideStr == "BUY") ? Side::Buy : Side::Sell`. -/
def sideOf (sideStr : List Char) : Side :=
  if sideStr = ['B', 'U', 'Y'] then Side.Buy else Side.Sell

/-- The message sent for a command, with the identifiers known so far. -/
def Command.sent (internalToExchange : OrderId → Option OrderId) : Command → Option RequestMsg
  | .new internalId symId sideStr price qty =>
    some (.newOrder
      { header := MsgHeader.of NewOrderRequestMsg.layout MsgType.NewOrderRequest
        clientOrderId := internalId
        symbolId := symId
        side := sideOf sideStr
        price := price
        qty := qty })
  | .modify internalId symId price qty =>
    if exchId internalToExchange internalId = 0 then none
    else some (.modifyOrder
      { header := MsgHeader.of ModifyOrderRequestMsg.layout MsgType.ModifyOrderRequest
        orderId := exchId internalToExchange internalId
        symbolId := symId
        price := price
        qty := qty })
  | .cancel internalId symId =>
    if exchId internalToExchange internalId = 0 then none
    else some (.cancelOrder
      { header := MsgHeader.of CancelOrderRequestMsg.layout MsgType.CancelOrderRequest
        orderId := exchId internalToExchange internalId
        symbolId := symId })
  | .skipped | .quit | .invalid _ | .unknown _ => none

/-- An order to modify or cancel is not known. -/
def unknownOrder (internalId : OrderId) : String :=
  "Error: Unknown internalOrderId " ++ toString internalId.toNat ++
    " (Not accepted by exchange yet?)\n"

/-- A price and a quantity, as they are printed. -/
def priceByQty (price : Price) (qty : Quantity) : String :=
  toString price.toNat ++ " x " ++ toString qty.toNat ++ "\n"

/-- What `%s` prints of `c_str()`: the characters before the first zero. -/
def c_str (word : List Char) : String :=
  String.ofList (word.takeWhile fun char => decide (char.toNat ≠ 0))

/-- The text printed for a command, with the identifiers known so far. -/
def Command.printed (internalToExchange : OrderId → Option OrderId) : Command → String
  | .skipped | .quit => ""
  | .new internalId symId sideStr price qty =>
    "Sending: NEW internalId=" ++ toString internalId.toNat ++ " " ++ symbolName symId ++ " " ++
      c_str sideStr ++ " " ++ priceByQty price qty
  | .modify internalId symId price qty =>
    if exchId internalToExchange internalId = 0 then unknownOrder internalId
    else
      "Sending: MOD internalId=" ++ toString internalId.toNat ++ " exchId=" ++
        toString (exchId internalToExchange internalId).toNat ++ " " ++ symbolName symId ++ " " ++
        priceByQty price qty
  | .cancel internalId symId =>
    if exchId internalToExchange internalId = 0 then unknownOrder internalId
    else
      "Sending: CXL internalId=" ++ toString internalId.toNat ++ " exchId=" ++
        toString (exchId internalToExchange internalId).toNat ++ " " ++ symbolName symId ++ "\n"
  | .invalid action => "Invalid format for " ++ String.ofList action ++ "\n"
  | .unknown action => "Unknown action: " ++ c_str action ++ "\n"

/-- One pass of the terminal loop. -/
def typeLine (internalToExchange : OrderId → Option OrderId) (line : List Char) : Typed where
  printed := (Command.ofLine line).printed internalToExchange
  sent := (Command.ofLine line).sent internalToExchange
  gRunning := decide (Command.ofLine line ≠ .quit)

end Exchange
