import ExchangeSimulator.Core.RawMessage
import ExchangeSimulator.Net.Protocol
import ExchangeSimulator.Server.MarketState

/-!
# The matching thread

The loop of `thread_matching.cpp` for one popped message: parse it into a
request, hand the request to the engine, publish the market state. A message
that is too short or of another type is skipped. What the clock shows when a
request is built is an input. Sending the confirmations is the subject of the
connections, and the emitted vectors are the outputs here.
-/

namespace Exchange

/-- The engine and the published state. -/
structure MatchingThread where
  /-- The engine of the thread. -/
  engine : MatchingEngine
  /-- The state the terminal reads. -/
  marketState : MarketState

namespace MatchingThread

/-- `engine.initialize({0, 1, 2, 3, 4})` and a fresh market state. -/
def new : MatchingThread := ⟨MatchingEngine.initializeBooks [0, 1, 2, 3, 4], {}⟩

/-- Parse the wire message into an internal request; a skipped message has none. -/
def parse (raw : RawMessage) (now : Timestamp) : Option OrderRequest :=
  if raw.length.toNat < MsgHeader.layout.size then none
  else
    let header := MsgHeader.layout.read raw.data
    if header.type = MsgType.NewOrderRequest then
      if raw.length.toNat < NewOrderRequestMsg.layout.size then none
      else some ((NewOrderRequestMsg.layout.read raw.data).toOrderRequest raw.traderId now)
    else if header.type = MsgType.CancelOrderRequest then
      if raw.length.toNat < CancelOrderRequestMsg.layout.size then none
      else some ((CancelOrderRequestMsg.layout.read raw.data).toOrderRequest raw.traderId now)
    else if header.type = MsgType.ModifyOrderRequest then
      if raw.length.toNat < ModifyOrderRequestMsg.layout.size then none
      else some ((ModifyOrderRequestMsg.layout.read raw.data).toOrderRequest raw.traderId now)
    else none

/-- `switch (req.m_requestType)`: the call on the engine. -/
def call (req : OrderRequest) : Request :=
  match req.m_requestType with
  | .New => .onOrder req
  | .Cancel => .onCancel req.m_orderId req.m_symbolId req.m_traderId
  | .Modify => .onModify req.m_orderId req.m_symbolId req.m_traderId req.m_price req.m_quantity

/-- Hand a request to the engine and publish. -/
def handle (thread : MatchingThread) (req : OrderRequest) :
    Option (MatchingThread × OrderRequest × Outputs) := do
  let (engine, out) ← thread.engine.step (call req)
  some (⟨engine, engine.publish thread.marketState req.m_symbolId out.confirmsOut⟩, req, out)

/-- One popped message, with the request handed to the engine and what the engine emitted. -/
def step (thread : MatchingThread) (popped : RawMessage × Timestamp) :
    Option (MatchingThread × Option (OrderRequest × Outputs)) :=
  match parse popped.1 popped.2 with
  | none => some (thread, none)
  | some req => do
    let (thread, handed) ← thread.handle req
    some (thread, some handed)

end MatchingThread

end Exchange
