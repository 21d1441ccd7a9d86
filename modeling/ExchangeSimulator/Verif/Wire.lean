import ExchangeSimulator.Server.MatchingThread
import ExchangeSimulator.Verif.Engine
import ExchangeSimulator.Verif.Framing
import ExchangeSimulator.Verif.Symmetry

/-!
# Requests survive the wire

A client encodes a request, the epoll thread cuts the stream into frames, the
matching thread decodes a frame. The three share only the packed layouts. Every
frame, genuine or junk, tells its own length, so the framing finds the frames
that were sent; a genuine one decodes to the request that was encoded and a junk
one is dropped on the way. What the thread computes depends on the decoded
requests alone, and not on the time at which they were built.
-/

namespace Exchange

open Library

/-- What a client sends, with any field values. -/
inductive ClientMsg where
  /-- A new order. -/
  | new (clientOrderId : OrderId) (symbolId : SymbolId) (side : Side) (price : Price)
      (qty : Quantity)
  /-- A modification. -/
  | modify (orderId : OrderId) (symbolId : SymbolId) (price : Price) (qty : Quantity)
  /-- A cancel. -/
  | cancel (orderId : OrderId) (symbolId : SymbolId)
deriving DecidableEq, Repr

namespace ClientMsg

/-- `header.length = sizeof(...)`. -/
def sizeOf {α : Type} (layout : Layout α) : UInt16 := UInt16.ofNat layout.size

/-- The packed message with the header that the client fills in. -/
def bytes : ClientMsg → List UInt8
  | .new clientOrderId symbolId side price qty => NewOrderRequestMsg.layout.write
      ⟨⟨sizeOf NewOrderRequestMsg.layout, MsgType.NewOrderRequest⟩, clientOrderId, symbolId, side,
        price, qty⟩
  | .modify orderId symbolId price qty => ModifyOrderRequestMsg.layout.write
      ⟨⟨sizeOf ModifyOrderRequestMsg.layout, MsgType.ModifyOrderRequest⟩, orderId, symbolId, price,
        qty⟩
  | .cancel orderId symbolId => CancelOrderRequestMsg.layout.write
      ⟨⟨sizeOf CancelOrderRequestMsg.layout, MsgType.CancelOrderRequest⟩, orderId, symbolId⟩

/-- The request that the message stands for. -/
def request (traderId : TraderId) (now : Timestamp) : ClientMsg → OrderRequest
  | .new clientOrderId symbolId side price qty =>
    { m_orderId := 0, m_clientOrderId := clientOrderId, m_price := price, m_timestamp := now,
      m_traderId := traderId, m_symbolId := symbolId, m_quantity := qty, m_side := side,
      m_requestType := .New }
  | .modify orderId symbolId price qty =>
    { m_orderId := orderId, m_clientOrderId := 0, m_price := price, m_timestamp := now,
      m_traderId := traderId, m_symbolId := symbolId, m_quantity := qty, m_side := Side.Buy,
      m_requestType := .Modify }
  | .cancel orderId symbolId =>
    { m_orderId := orderId, m_clientOrderId := 0, m_price := 0, m_timestamp := now,
      m_traderId := traderId, m_symbolId := symbolId, m_quantity := 0, m_side := Side.Buy,
      m_requestType := .Cancel }

/-- A struct that begins with a header that tells its size. -/
theorem read_front {α : Type} {layout : Layout α} (header : α → MsgHeader)
    (heads : ∀ bytes, header (layout.read bytes) = MsgHeader.layout.read bytes) {value : α}
    (told : (header value).length.toNat = layout.size) (later : List UInt8) :
    (MsgHeader.layout.read (layout.write value ++ later)).length.toNat =
      (layout.write value).length := by
  rw [← heads, layout.read_write, layout.length_write]
  exact told

/-- The header in front of a message. -/
theorem read_header (msg : ClientMsg) (later : List UInt8) :
    (MsgHeader.layout.read (msg.bytes ++ later)).length.toNat = msg.bytes.length := by
  cases msg with
  | new => exact read_front NewOrderRequestMsg.header (fun _ => rfl) rfl later
  | modify => exact read_front ModifyOrderRequestMsg.header (fun _ => rfl) rfl later
  | cancel => exact read_front CancelOrderRequestMsg.header (fun _ => rfl) rfl later

end ClientMsg

/-- A frame that tells its own length and that no request can be read from. -/
structure Junk (bytes : List UInt8) : Prop where
  /-- It has a header. -/
  headed : MsgHeader.layout.size ≤ bytes.length
  /-- The header tells the length. -/
  length : (MsgHeader.layout.read bytes).length.toNat = bytes.length
  /-- It is oversized, of another type, or too short for its type. -/
  useless : MAX_RAW_MSG_SIZE < bytes.length ∨
    ((MsgHeader.layout.read bytes).type ≠ MsgType.NewOrderRequest ∧
      (MsgHeader.layout.read bytes).type ≠ MsgType.ModifyOrderRequest ∧
      (MsgHeader.layout.read bytes).type ≠ MsgType.CancelOrderRequest) ∨
    ((MsgHeader.layout.read bytes).type = MsgType.NewOrderRequest ∧
      bytes.length < NewOrderRequestMsg.layout.size) ∨
    ((MsgHeader.layout.read bytes).type = MsgType.ModifyOrderRequest ∧
      bytes.length < ModifyOrderRequestMsg.layout.size) ∨
    ((MsgHeader.layout.read bytes).type = MsgType.CancelOrderRequest ∧
      bytes.length < CancelOrderRequestMsg.layout.size)

/-- A frame on the wire. -/
inductive Frame where
  /-- A client's request. -/
  | genuine (msg : ClientMsg)
  /-- Anything else. -/
  | junk (bytes : List UInt8) (is : Junk bytes)

namespace Frame

/-- The bytes of a frame. -/
def bytes : Frame → List UInt8
  | .genuine msg => msg.bytes
  | .junk bytes _ => bytes

/-- The message of a genuine frame. -/
def msg? : Frame → Option ClientMsg
  | .genuine msg => some msg
  | .junk _ _ => none

/-- A frame has a header that tells its length. -/
theorem headed (frame : Frame) : MsgHeader.layout.size ≤ frame.bytes.length := by
  cases frame with
  | genuine msg =>
    rw [bytes]
    cases msg with
    | new => rw [ClientMsg.bytes, NewOrderRequestMsg.layout.length_write]; decide
    | modify => rw [ClientMsg.bytes, ModifyOrderRequestMsg.layout.length_write]; decide
    | cancel => rw [ClientMsg.bytes, CancelOrderRequestMsg.layout.length_write]; decide
  | junk bytes is => exact is.headed

/-- The frame at the front of a stream is complete. -/
theorem cut_bytes (frame : Frame) (later : List UInt8) :
    messageCutter.cut (frame.bytes ++ later) = some frame.bytes.length := by
  have tells : (MsgHeader.layout.read (frame.bytes ++ later)).length.toNat =
      frame.bytes.length := by
    cases frame with
    | genuine msg => exact msg.read_header later
    | junk bytes is =>
      have header := MsgHeader.layout.read_append bytes later is.headed
      exact (congrArg (fun header => header.length.toNat) header).trans is.length
  have headed := frame.headed
  simp only [messageCutter, tells]
  rw [if_neg, if_neg]
  · rw [List.length_append]
    omega
  · rw [List.length_append]
    omega

/-- The stream of some frames is framed as it was sent. -/
theorem framed (frames : List Frame) :
    Framed messageCutter (frames.flatMap bytes) (frames.map bytes) [] := by
  induction frames with
  | nil => exact .done (by decide)
  | cons frame frames ih =>
    rw [List.flatMap_cons, List.map_cons]
    have positive : 0 < frame.bytes.length := Nat.lt_of_lt_of_le (by decide) frame.headed
    have split := Framed.frame (frame.cut_bytes (frames.flatMap bytes)) positive
      (by rw [List.drop_left]; exact ih)
    rwa [List.take_left] at split

end Frame

/-- The message pushed for a frame that fits. -/
theorem RawMessage.ofFrame_of_fits (traderId : TraderId) {bytes : List UInt8}
    (fits : bytes.length ≤ MAX_RAW_MSG_SIZE) :
    ∃ raw, ofFrame traderId bytes = some raw ∧ raw.traderId = traderId ∧
      raw.length.toNat = bytes.length ∧
      raw.data = bytes ++ List.replicate (MAX_RAW_MSG_SIZE - bytes.length) 0 := by
  refine ⟨_, dif_pos fits, rfl, ?_, rfl⟩
  have small : bytes.length < 2 ^ 16 := Nat.lt_of_le_of_lt fits (by decide)
  exact UInt16.toNat_ofNat_of_lt' small

/-- A packed struct is read back from the message pushed for it. -/
theorem RawMessage.ofFrame_write {α : Type} (traderId : TraderId) (layout : Layout α) (value : α)
    (fits : layout.size ≤ MAX_RAW_MSG_SIZE) :
    ∃ raw, ofFrame traderId (layout.write value) = some raw ∧ raw.traderId = traderId ∧
      raw.length.toNat = layout.size ∧ layout.read raw.data = value := by
  have size := layout.length_write value
  obtain ⟨raw, pushed, trader, length, data⟩ := ofFrame_of_fits traderId
    (Nat.le_trans (Nat.le_of_eq size) fits)
  exact ⟨raw, pushed, trader, length.trans size, by rw [data, layout.read_write]⟩

namespace MatchingThread

variable {raw : RawMessage}

/-- A message long enough for its struct has a header. -/
theorem not_short {size : Nat} (headed : MsgHeader.layout.size ≤ size)
    (long : size ≤ raw.length.toNat) : ¬raw.length.toNat < MsgHeader.layout.size :=
  Nat.not_lt.mpr (Nat.le_trans headed long)

/-- Parsing a new order. -/
theorem parse_new (now : Timestamp)
    (type : (MsgHeader.layout.read raw.data).type = MsgType.NewOrderRequest)
    (long : NewOrderRequestMsg.layout.size ≤ raw.length.toNat) :
    parse raw now =
      some ((NewOrderRequestMsg.layout.read raw.data).toOrderRequest raw.traderId now) := by
  simp only [parse]
  rw [if_neg (not_short (by decide) long), if_pos type, if_neg (Nat.not_lt.mpr long)]

/-- Parsing a cancel. -/
theorem parse_cancel (now : Timestamp)
    (type : (MsgHeader.layout.read raw.data).type = MsgType.CancelOrderRequest)
    (long : CancelOrderRequestMsg.layout.size ≤ raw.length.toNat) :
    parse raw now =
      some ((CancelOrderRequestMsg.layout.read raw.data).toOrderRequest raw.traderId now) := by
  simp only [parse]
  rw [if_neg (not_short (by decide) long), if_neg (by rw [type]; decide), if_pos type,
    if_neg (Nat.not_lt.mpr long)]

/-- Parsing a modification. -/
theorem parse_modify (now : Timestamp)
    (type : (MsgHeader.layout.read raw.data).type = MsgType.ModifyOrderRequest)
    (long : ModifyOrderRequestMsg.layout.size ≤ raw.length.toNat) :
    parse raw now =
      some ((ModifyOrderRequestMsg.layout.read raw.data).toOrderRequest raw.traderId now) := by
  simp only [parse]
  rw [if_neg (not_short (by decide) long), if_neg (by rw [type]; decide),
    if_neg (by rw [type]; decide), if_pos type, if_neg (Nat.not_lt.mpr long)]

end MatchingThread

/-- A client's message is parsed into its request. -/
theorem ClientMsg.parse_bytes (traderId : TraderId) (now : Timestamp) (msg : ClientMsg) :
    (RawMessage.ofFrame traderId msg.bytes).bind (MatchingThread.parse · now) =
      some (msg.request traderId now) := by
  cases msg with
  | new clientOrderId symbolId side price qty =>
    obtain ⟨raw, pushed, trader, length, value⟩ := RawMessage.ofFrame_write traderId
      NewOrderRequestMsg.layout ⟨⟨sizeOf NewOrderRequestMsg.layout, MsgType.NewOrderRequest⟩,
        clientOrderId, symbolId, side, price, qty⟩ (by decide)
    have type := congrArg (fun msg => msg.header.type) value
    rw [bytes, pushed, Option.bind_some,
      MatchingThread.parse_new now type (Nat.le_of_eq length.symm), value, trader]
    rfl
  | modify orderId symbolId price qty =>
    obtain ⟨raw, pushed, trader, length, value⟩ := RawMessage.ofFrame_write traderId
      ModifyOrderRequestMsg.layout ⟨⟨sizeOf ModifyOrderRequestMsg.layout,
        MsgType.ModifyOrderRequest⟩, orderId, symbolId, price, qty⟩ (by decide)
    have type := congrArg (fun msg => msg.header.type) value
    rw [bytes, pushed, Option.bind_some,
      MatchingThread.parse_modify now type (Nat.le_of_eq length.symm), value, trader]
    rfl
  | cancel orderId symbolId =>
    obtain ⟨raw, pushed, trader, length, value⟩ := RawMessage.ofFrame_write traderId
      CancelOrderRequestMsg.layout ⟨⟨sizeOf CancelOrderRequestMsg.layout,
        MsgType.CancelOrderRequest⟩, orderId, symbolId⟩ (by decide)
    have type := congrArg (fun msg => msg.header.type) value
    rw [bytes, pushed, Option.bind_some,
      MatchingThread.parse_cancel now type (Nat.le_of_eq length.symm), value, trader]
    rfl

/-- No request is parsed from junk. -/
theorem Junk.parse_bytes {bytes : List UInt8} (is : Junk bytes) (traderId : TraderId)
    (now : Timestamp) :
    (RawMessage.ofFrame traderId bytes).bind (MatchingThread.parse · now) = none := by
  by_cases fits : bytes.length ≤ MAX_RAW_MSG_SIZE
  · obtain ⟨raw, pushed, trader, length, data⟩ := RawMessage.ofFrame_of_fits traderId fits
    have header : MsgHeader.layout.read raw.data = MsgHeader.layout.read bytes := by
      rw [data, MsgHeader.layout.read_append _ _ is.headed]
    rw [pushed, Option.bind_some]
    simp only [MatchingThread.parse, length, header]
    rcases is.useless with oversized | ⟨notNew, notModify, notCancel⟩ | ⟨type, short⟩ |
      ⟨type, short⟩ | ⟨type, short⟩
    · exact absurd fits (Nat.not_le.mpr oversized)
    · simp only [notNew, notModify, notCancel, if_false, ite_self]
    · rw [if_neg (Nat.not_lt.mpr is.headed), if_pos type, if_pos short]
    · rw [if_neg (Nat.not_lt.mpr is.headed), if_neg (by rw [type]; decide),
        if_neg (by rw [type]; decide), if_pos type, if_pos short]
    · rw [if_neg (Nat.not_lt.mpr is.headed), if_neg (by rw [type]; decide), if_pos type,
        if_pos short]
  · rw [RawMessage.ofFrame, dif_neg fits, Option.bind_none]

/-- A frame is parsed into the request of its message, if it has one. -/
theorem Frame.parse_bytes (traderId : TraderId) (now : Timestamp) (frame : Frame) :
    (RawMessage.ofFrame traderId frame.bytes).bind (MatchingThread.parse · now) =
      frame.msg?.map (ClientMsg.request traderId now) := by
  cases frame with
  | genuine msg => exact msg.parse_bytes traderId now
  | junk bytes is => exact is.parse_bytes traderId now

namespace MatchingThread

/-- A request without its timestamp. -/
def untimed (req : OrderRequest) : OrderRequest := { req with m_timestamp := 0 }

/-- The requests handed to the engine for some popped messages, without their timestamps. -/
def handed (popped : List (RawMessage × Timestamp)) : List OrderRequest :=
  popped.filterMap fun (raw, now) => (parse raw now).map untimed

/-- What a run of the thread shows: its state, and for each handed request, without its timestamp,
what the engine emitted. -/
def shown (ran : MatchingThread × List (Option (OrderRequest × Outputs))) :
    MatchingThread × List (OrderRequest × Outputs) :=
  (ran.1, ran.2.filterMap fun handled => handled.map fun (req, out) => (untimed req, out))

/-- Parsing at another time only changes the timestamp. -/
theorem parse_untimed (raw : RawMessage) (now : Timestamp) :
    (parse raw now).map untimed = parse raw 0 := by
  simp only [parse]
  split
  · rfl
  · split
    · split <;> rfl
    · split
      · split <;> rfl
      · split
        · split <;> rfl
        · rfl

/-- The handed requests are those of the messages parsed at time zero. -/
theorem handed_eq (popped : List (RawMessage × Timestamp)) :
    handed popped = (popped.map Prod.fst).filterMap (parse · 0) := by
  rw [handed, List.filterMap_map]
  congr 1
  funext ⟨raw, now⟩
  exact parse_untimed raw now

/-- The engine does not look at the timestamp. -/
theorem step_call_untimed (engine : MatchingEngine) (req : OrderRequest) :
    engine.step (call (untimed req)) = engine.step (call req) := by
  have kind : (untimed req).m_requestType = req.m_requestType := rfl
  cases type : req.m_requestType with
  | New =>
    simp only [call, kind, type]
    have same : (fun book : OrderBook =>
          book.addOrder { untimed req with m_orderId := engine.nextOrderId }) =
        fun book => book.addOrder { req with m_orderId := engine.nextOrderId } :=
      funext fun book => Symmetry.addOrder_retime (fun _ => 0) book
        { req with m_orderId := engine.nextOrderId }
    exact congrArg (MatchingEngine.onBook { engine with
      nextOrderId := engine.nextOrderId + 1 } req.m_symbolId) same
  | Cancel => simp only [call, kind, type]; rfl
  | Modify => simp only [call, kind, type]; rfl

/-- Handling a request without its timestamp. -/
theorem handle_untimed (thread : MatchingThread) (req : OrderRequest) :
    thread.handle (untimed req) =
      (thread.handle req).map fun (next, _, out) => (next, untimed req, out) := by
  simp only [handle, step_call_untimed]
  cases thread.engine.step (call req) <;> rfl

/-- A handled request is shown as it was handed over. -/
theorem request_of_handle {thread next : MatchingThread} {req again : OrderRequest} {out : Outputs}
    (handles : thread.handle req = some (next, again, out)) : again = req := by
  simp only [handle] at handles
  cases engineStep : thread.engine.step (call req) with
  | none => simp [engineStep] at handles
  | some result =>
    simp only [engineStep, bind, Option.bind, Option.some.injEq, Prod.mk.injEq] at handles
    exact handles.2.1.symm

/-- A run over popped messages shows what a run over the handed requests computes. -/
theorem run_shown (popped : List (RawMessage × Timestamp)) (thread : MatchingThread) :
    (run step thread popped).map shown = run handle thread (handed popped) := by
  induction popped generalizing thread with
  | nil => rfl
  | cons message popped ih =>
    obtain ⟨raw, now⟩ := message
    cases parsed : parse raw now with
    | none =>
      have stepped : step thread (raw, now) = some (thread, none) := by simp only [step, parsed]
      have skips : handed ((raw, now) :: popped) = handed popped := by simp [handed, parsed]
      rw [run_cons_of_step stepped, skips, ← ih thread]
      cases run step thread popped <;> rfl
    | some req =>
      have hands : handed ((raw, now) :: popped) = untimed req :: handed popped := by
        simp [handed, parsed]
      rw [hands]
      cases handles : thread.handle req with
      | none =>
        have same := thread.handle_untimed req
        rw [handles, Option.map_none] at same
        simp [run, step, parsed, handles, same]
      | some result =>
        obtain ⟨next, again, out⟩ := result
        have stepped : step thread (raw, now) = some (next, some (again, out)) := by
          simp only [step, parsed, handles, bind, Option.bind]
        have untimedToo : thread.handle (untimed req) = some (next, untimed req, out) := by
          rw [handle_untimed, handles]
          rfl
        rw [run_cons_of_step stepped, run_cons_of_step untimedToo, ← ih next]
        have same : untimed again = untimed req := by
          rw [request_of_handle handles]
        cases run step next popped with
        | none => rfl
        | some ran => simp [shown, same]

/-- The engine of the thread runs on the calls of the handled requests. -/
theorem run_engine (requests : List OrderRequest) (thread : MatchingThread) :
    (run handle thread requests).map (fun ran => (ran.1.engine, ran.2.map Prod.snd)) =
      run MatchingEngine.step thread.engine (requests.map call) := by
  refine run_map MatchingThread.engine call Prod.snd ?_ requests thread
  intro thread req
  simp only [handle]
  cases thread.engine.step (call req) <;> rfl

/-- A request takes at most one id. -/
theorem orderCount_le (requests : List Request) : orderCount requests ≤ requests.length := by
  induction requests with
  | nil => exact Nat.le_refl 0
  | cons request requests ih =>
    have one : request.ids ≤ 1 := by cases request <;> simp [Request.ids]
    simp only [orderCount, List.map_cons, List.sum_cons, List.length_cons] at ih ⊢
    omega

/-- A fresh thread handles every list of requests with few enough new orders. -/
theorem run_handle_new (requests : List OrderRequest)
    (few : orderCount (requests.map call) < 2 ^ 64 - 1) :
    ∃ last handled, run handle new requests = some (last, handled) := by
  obtain ⟨engine, outs, ran, -⟩ := MatchingEngine.run_good [0, 1, 2, 3, 4] (requests.map call) few
  have whole := run_engine requests new
  rw [show new.engine = MatchingEngine.initializeBooks [0, 1, 2, 3, 4] from rfl, ran,
    Option.map_eq_some_iff] at whole
  obtain ⟨⟨last, handled⟩, handles, -⟩ := whole
  exact ⟨last, handled, handles⟩

end MatchingThread

/-- The stream of callbacks of one descriptor. -/
theorem Callback.stream_map (fd : Fd) (chunking : List (List Chunk)) (other : Fd) :
    stream (chunking.map (Callback.mk fd)) other =
      if fd = other then chunking.flatMap received else [] := by
  induction chunking with
  | nil => simp [stream]
  | cons chunks chunking ih =>
    rw [List.map_cons, stream_cons, ih]
    split <;> simp

/-- However the bytes of genuine and junk frames are cut, the thread hands the engine exactly the
requests of the genuine ones, and it does what it would do on those requests alone. -/
theorem requests_survive_wire {sessions : SessionManager} (drained : Callback.Drained sessions)
    {fd : Fd} {session : ClientSession} (found : sessions.sessions fd = some session)
    (empty : session.recvBuffer = []) (frames : List Frame) (chunking : List (List Chunk))
    (sent : chunking.flatMap received = frames.flatMap Frame.bytes) :
    ∃ last outputs,
      run Callback.step sessions (chunking.map (Callback.mk fd)) = some (last, outputs) ∧
      ∀ popped : List (RawMessage × Timestamp),
        popped.map Prod.fst = Callback.pushed outputs fd →
        MatchingThread.handed popped =
          (frames.filterMap Frame.msg?).map (ClientMsg.request session.traderId 0) ∧
        (∀ thread, (run MatchingThread.step thread popped).map MatchingThread.shown =
          run MatchingThread.handle thread
            ((frames.filterMap Frame.msg?).map (ClientMsg.request session.traderId 0))) ∧
        (frames.length < 2 ^ 64 - 1 → ∃ thread handled,
          run MatchingThread.step MatchingThread.new popped = some (thread, handled)) := by
  have whole : session.recvBuffer ++ Callback.stream (chunking.map (Callback.mk fd)) fd =
      frames.flatMap Frame.bytes := by
    rw [empty, List.nil_append, Callback.stream_map, if_pos rfl, sent]
  have moves : Callback.Moves sessions (chunking.map (Callback.mk fd)) := by
    intro other someone registered
    by_cases same : fd = other
    · subst same
      rw [found, Option.some.injEq] at registered
      subst registered
      rw [whole]
      exact (Frame.framed frames).not_stalls
    · rw [Callback.stream_map, if_neg same, List.append_nil]
      exact (Framed.done (drained other someone registered)).not_stalls
  obtain ⟨last, outputs, ran, delivers⟩ := Callback.run_delivers _ sessions drained moves
  obtain ⟨cut, rest, framed, pushes, -⟩ := (delivers fd).session session found
  rw [whole] at framed
  obtain ⟨asSent, -⟩ := framed.unique (Frame.framed frames)
  refine ⟨last, outputs, ran, ?_⟩
  intro popped fromQueue
  have hands : MatchingThread.handed popped =
      (frames.filterMap Frame.msg?).map (ClientMsg.request session.traderId 0) := by
    rw [MatchingThread.handed_eq, fromQueue, pushes, asSent, List.filterMap_filterMap,
      List.filterMap_map, List.map_filterMap]
    congr 1
    funext frame
    exact frame.parse_bytes session.traderId 0
  have shows (thread : MatchingThread) := MatchingThread.run_shown popped thread
  simp only [hands] at shows
  refine ⟨hands, shows, ?_⟩
  intro few
  have shorter : orderCount (((frames.filterMap Frame.msg?).map
      (ClientMsg.request session.traderId 0)).map MatchingThread.call) < 2 ^ 64 - 1 := by
    refine Nat.lt_of_le_of_lt (MatchingThread.orderCount_le _) (Nat.lt_of_le_of_lt ?_ few)
    rw [List.length_map, List.length_map]
    exact List.length_filterMap_le _ _
  obtain ⟨thread, handled, handles⟩ := MatchingThread.run_handle_new _ shorter
  have started := shows MatchingThread.new
  rw [handles, Option.map_eq_some_iff] at started
  obtain ⟨⟨thread, handled⟩, starts, -⟩ := started
  exact ⟨thread, handled, starts⟩

/-- A message of an unknown type. -/
theorem junk_unknown : Junk [3, 0, 9] where
  headed := by decide
  length := by decide
  useless := .inr (.inl (by decide))

/-- A cancel cut after its first byte, followed by junk. -/
theorem requests_survive_wire_cut :
    ∃ last outputs, run Callback.step (SessionManager.new.add 5 1)
      [⟨5, [⟨[15], by decide, by decide⟩]⟩,
        ⟨5, [⟨[0, 3, 7, 0, 0, 0, 0, 0, 0, 0, 2, 0, 0, 0, 3, 0, 9], by decide, by decide⟩]⟩] =
          some (last, outputs) ∧
      ∀ popped : List (RawMessage × Timestamp),
        popped.map Prod.fst = Callback.pushed outputs 5 →
        MatchingThread.handed popped = [ClientMsg.request 1 0 (.cancel 7 2)] := by
  obtain ⟨last, outputs, ran, reads⟩ := @requests_survive_wire _ (Callback.drained_new.add 5 1)
    5 ⟨5, 1, []⟩ rfl rfl
    [.genuine (.cancel 7 2), .junk [3, 0, 9] junk_unknown]
    [[⟨[15], by decide, by decide⟩],
      [⟨[0, 3, 7, 0, 0, 0, 0, 0, 0, 0, 2, 0, 0, 0, 3, 0, 9], by decide, by decide⟩]] rfl
  exact ⟨last, outputs, ran, fun popped fromQueue => (reads popped fromQueue).1⟩

end Exchange
