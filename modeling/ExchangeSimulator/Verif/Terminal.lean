import ExchangeSimulator.Client.Terminal
import ExchangeSimulator.Verif.Wire

/-!
# From the terminal to the engine

A line in one of the three formats that the client announces is read as it was
meant, whatever commas and blanks separate its fields and whatever follows the
last one. The struct that the client builds from it is framed and parsed by the
server into a request with the values of the line and the trader of the session.
A modification or a cancel carries the identifier of the exchange; when the order
has not been confirmed, nothing is sent.
-/

namespace Exchange

open Library

namespace Command

/-- A blank or a comma. -/
def isSeparator (char : Char) : Bool := isBlank char || char = ','

/-- A line holds these words: each after separators, the last one followed by a separator and
anything, or by nothing. -/
inductive Holds : List (List Char) → List Char → Prop where
  /-- No more words. -/
  | rest {text : List Char} (stops : ∀ char ∈ text.head?, isSeparator char = true) : Holds [] text
  /-- A word, then the others. -/
  | word {separator found text : List Char} {words : List (List Char)}
      (separates : ∀ char ∈ separator, isSeparator char = true) (nonempty : found ≠ [])
      (solid : ∀ char ∈ found, isSeparator char = false)
      (stops : ∀ char ∈ text.head?, isSeparator char = true) (later : Holds words text) :
      Holds (found :: words) (separator ++ (found ++ text))

/-- Separators become blanks. -/
theorem isBlank_clean {text : List Char} (separates : ∀ char ∈ text, isSeparator char = true) :
    ∀ char ∈ clean text, isBlank char = true := by
  intro char member
  obtain ⟨before, listed, rfl⟩ := List.mem_map.mp member
  have separator := separates before listed
  by_cases comma : before = ','
  · rw [if_pos comma]
    decide
  · rw [if_neg comma]
    simpa [isSeparator, comma] using separator

/-- A word stays as it is. -/
theorem clean_solid {found : List Char} (solid : ∀ char ∈ found, isSeparator char = false) :
    clean found = found := by
  have kept : ∀ char ∈ found, (if char = ',' then ' ' else char) = id char := by
    intro char member
    have apart : char ≠ ',' := by
      rintro rfl
      exact absurd (solid ',' member) (by decide)
    rw [if_neg apart]
    rfl
  rw [clean, List.map_congr_left kept, List.map_id]

/-- What is behind a word begins with a blank. -/
theorem isBlank_head_clean {text : List Char}
    (stops : ∀ char ∈ text.head?, isSeparator char = true) :
    ∀ char ∈ (clean text).head?, isBlank char = true := by
  cases text with
  | nil => simp [clean]
  | cons first rest =>
    intro char head
    refine @isBlank_clean [first] ?_ char ?_
    · intro other member
      rw [List.mem_singleton] at member
      exact stops other (by simp [member])
    · simpa [clean, eq_comm] using head

/-- The next word of a line that holds some is read. -/
theorem Holds.readWord {found text : List Char} {words : List (List Char)}
    (holds : Holds (found :: words) text) :
    ∃ later, Library.readWord (clean text) = some (found, clean later) ∧ Holds words later := by
  cases holds with
  | @word separator found text words separates nonempty solid stops later =>
    refine ⟨text, ?_, later⟩
    have cleaned : clean (separator ++ (found ++ text)) =
        clean separator ++ (found ++ clean text) := by
      rw [clean, List.map_append, List.map_append]
      exact congrArg (fun word => clean separator ++ (word ++ clean text)) (clean_solid solid)
    rw [cleaned]
    refine readWord_append (isBlank_clean separates) nonempty ?_ (isBlank_head_clean stops)
    intro char member
    have separator := solid char member
    simp only [isSeparator, Bool.or_eq_false_iff] at separator
    exact separator.1

/-- The next number of a line that holds some is read. -/
theorem Holds.readUnsigned {bound value : Nat} {text : List Char} {words : List (List Char)}
    (holds : Holds (writeNat value :: words) text) (fits : value < bound) :
    ∃ later, Library.readUnsigned bound (clean text) = some (value, clean later) ∧
      Holds words later := by
  generalize written : writeNat value = number at holds
  cases holds with
  | @word separator found text words separates nonempty solid stops later =>
    refine ⟨text, ?_, later⟩
    have cleaned : clean (separator ++ (number ++ text)) =
        clean separator ++ (number ++ clean text) := by
      rw [clean, List.map_append, List.map_append]
      exact congrArg (fun word => clean separator ++ (word ++ clean text)) (clean_solid solid)
    rw [cleaned, ← written]
    refine readUnsigned_append (isBlank_clean separates) fits ?_
    intro char head
    by_contra digit
    have blank := isBlank_head_clean stops char head
    rw [(not_blank_of_isDigit (by simpa using digit)).1] at blank
    contradiction

/-- A field of 64 bits. -/
theorem Holds.read64 {value : UInt64} {text : List Char} {words : List (List Char)}
    (holds : Holds (writeNat value.toNat :: words) text) :
    ∃ later, Command.read64 (clean text) = some (value, clean later) ∧ Holds words later := by
  obtain ⟨later, read, holds⟩ := holds.readUnsigned value.toNat_lt
  refine ⟨later, ?_, holds⟩
  rw [Command.read64, read, Option.map_some, Prod.map_apply, UInt64.ofNat_toNat]
  rfl

/-- A field of 32 bits. -/
theorem Holds.read32 {value : UInt32} {text : List Char} {words : List (List Char)}
    (holds : Holds (writeNat value.toNat :: words) text) :
    ∃ later, Command.read32 (clean text) = some (value, clean later) ∧ Holds words later := by
  obtain ⟨later, read, holds⟩ := holds.readUnsigned value.toNat_lt
  refine ⟨later, ?_, holds⟩
  rw [Command.read32, read, Option.map_some, Prod.map_apply, UInt32.ofNat_toNat]
  rfl

/-- A line that begins with a capital letter for its action is read as a command. -/
theorem Holds.ofLine {action : Char} {text : List Char} {words : List (List Char)}
    (holds : Holds ([action] :: words) text) (known : action = 'N' ∨ action = 'M' ∨ action = 'C') :
    ofLine text = readAction (clean text) := by
  have member : action ∈ text ∧ text.head? ≠ some '#' := by
    cases holds with
    | @word separator _ text _ separates _ _ _ _ =>
      refine ⟨by simp, ?_⟩
      cases separator with
      | nil => rcases known with rfl | rfl | rfl <;> simp
      | cons first rest =>
        intro comment
        rw [List.cons_append, List.head?_cons, Option.some.injEq] at comment
        subst comment
        exact absurd (separates '#' List.mem_cons_self) (by decide)
  have goesOn : ¬(text = [] ∨ text.head? = some '#') := by
    rintro (rfl | comment)
    · exact absurd member.1 List.not_mem_nil
    · exact member.2 comment
  have stays : ¬(text = ['q', 'u', 'i', 't'] ∨ text = ['q'] ∨ text = ['e', 'x', 'i', 't']) := by
    have listed := member.1
    rintro (rfl | rfl | rfl) <;> rcases known with rfl | rfl | rfl <;>
      exact absurd listed (by decide)
  rw [Command.ofLine, if_neg goesOn, if_neg stays]

/-- `N, internal_orderid, symbol_id, BUY|SELL, price, qty`. -/
theorem ofLine_new {internalId : OrderId} {symId : SymbolId} {sideStr : List Char} {price : Price}
    {qty : Quantity} {line : List Char}
    (holds : Holds [['N'], writeNat internalId.toNat, writeNat symId.toNat, sideStr,
      writeNat price.toNat, writeNat qty.toNat] line) :
    ofLine line = .new internalId symId sideStr price qty := by
  rw [holds.ofLine (.inl rfl)]
  obtain ⟨_, action, holds⟩ := holds.readWord
  obtain ⟨_, first, holds⟩ := holds.read64
  obtain ⟨_, second, holds⟩ := holds.read32
  obtain ⟨_, third, holds⟩ := holds.readWord
  obtain ⟨_, fourth, holds⟩ := holds.read32
  obtain ⟨_, fifth, -⟩ := holds.read32
  simp only [readAction, action, if_true, readNew, first, second, third, fourth, fifth, bind,
    Option.bind, Option.getD_some]

/-- `M, internal_orderid, symbol_id, price, qty`. -/
theorem ofLine_modify {internalId : OrderId} {symId : SymbolId} {price : Price} {qty : Quantity}
    {line : List Char}
    (holds : Holds [['M'], writeNat internalId.toNat, writeNat symId.toNat, writeNat price.toNat,
      writeNat qty.toNat] line) :
    ofLine line = .modify internalId symId price qty := by
  rw [holds.ofLine (.inr (.inl rfl))]
  obtain ⟨_, action, holds⟩ := holds.readWord
  obtain ⟨_, first, holds⟩ := holds.read64
  obtain ⟨_, second, holds⟩ := holds.read32
  obtain ⟨_, third, holds⟩ := holds.read32
  obtain ⟨_, fourth, -⟩ := holds.read32
  have other : ¬['M'] = ['N'] := by decide
  simp only [readAction, action, if_neg other, if_true, readModify, first, second, third, fourth,
    bind, Option.bind, Option.getD_some]

/-- `C, internal_orderid, symbol_id`. -/
theorem ofLine_cancel {internalId : OrderId} {symId : SymbolId} {line : List Char}
    (holds : Holds [['C'], writeNat internalId.toNat, writeNat symId.toNat] line) :
    ofLine line = .cancel internalId symId := by
  rw [holds.ofLine (.inr (.inr rfl))]
  obtain ⟨_, action, holds⟩ := holds.readWord
  obtain ⟨_, first, holds⟩ := holds.read64
  obtain ⟨_, second, -⟩ := holds.read32
  have notNew : ¬['C'] = ['N'] := by decide
  have notModify : ¬['C'] = ['M'] := by decide
  simp only [readAction, action, if_neg notNew, if_neg notModify, if_true, readCancel, first,
    second, bind, Option.bind, Option.getD_some]

end Command

/-- The message that the client sends for a line is parsed by the server into a request. -/
def Reaches (internalToExchange : OrderId → Option OrderId) (line : List Char)
    (traderId : TraderId) (now : Timestamp) (request : OrderRequest) : Prop :=
  ∃ msg, (typeLine internalToExchange line).sent = some msg ∧
    (RawMessage.ofFrame traderId msg.bytes).bind (MatchingThread.parse · now) = some request

/-- The struct of a message, as the client fills it in. -/
def ClientMsg.struct : ClientMsg → RequestMsg
  | .new clientOrderId symbolId side price qty => .newOrder
      ⟨MsgHeader.of NewOrderRequestMsg.layout MsgType.NewOrderRequest, clientOrderId, symbolId,
        side, price, qty⟩
  | .modify orderId symbolId price qty => .modifyOrder
      ⟨MsgHeader.of ModifyOrderRequestMsg.layout MsgType.ModifyOrderRequest, orderId, symbolId,
        price, qty⟩
  | .cancel orderId symbolId => .cancelOrder
      ⟨MsgHeader.of CancelOrderRequestMsg.layout MsgType.CancelOrderRequest, orderId, symbolId⟩

/-- It has the bytes of the message. -/
theorem ClientMsg.bytes_struct (msg : ClientMsg) : msg.struct.bytes = msg.bytes := by
  cases msg <;> rfl

/-- A struct that the client sends reaches the server. -/
theorem reaches_of_sent {internalToExchange : OrderId → Option OrderId} {line : List Char}
    {msg : ClientMsg} (sent : (typeLine internalToExchange line).sent = some msg.struct)
    (traderId : TraderId) (now : Timestamp) :
    Reaches internalToExchange line traderId now (msg.request traderId now) := by
  refine ⟨msg.struct, sent, ?_⟩
  rw [msg.bytes_struct]
  exact msg.parse_bytes traderId now

/-- A line in one of the announced formats reaches the engine as it was meant, with the trader of
the session and the exchange's identifier of the order; a modification or a cancel of an order that
has not been confirmed is not sent. -/
theorem line_reaches_engine (internalToExchange : OrderId → Option OrderId) (line : List Char)
    (traderId : TraderId) (now : Timestamp) :
    (∀ internalId symId sideStr price qty,
      Command.Holds [['N'], writeNat internalId.toNat, writeNat symId.toNat, sideStr,
        writeNat price.toNat, writeNat qty.toNat] line →
      Reaches internalToExchange line traderId now (ClientMsg.request traderId now
        (.new internalId symId (sideOf sideStr) price qty))) ∧
    (∀ internalId symId price qty,
      Command.Holds [['M'], writeNat internalId.toNat, writeNat symId.toNat, writeNat price.toNat,
        writeNat qty.toNat] line →
      (∀ orderId, internalToExchange internalId = some orderId → orderId ≠ 0 →
        Reaches internalToExchange line traderId now
          (ClientMsg.request traderId now (.modify orderId symId price qty))) ∧
      (internalToExchange internalId = none → (typeLine internalToExchange line).sent = none)) ∧
    ∀ internalId symId,
      Command.Holds [['C'], writeNat internalId.toNat, writeNat symId.toNat] line →
      (∀ orderId, internalToExchange internalId = some orderId → orderId ≠ 0 →
        Reaches internalToExchange line traderId now
          (ClientMsg.request traderId now (.cancel orderId symId))) ∧
      (internalToExchange internalId = none → (typeLine internalToExchange line).sent = none) := by
  refine ⟨?_, ?_, ?_⟩
  · intro internalId symId sideStr price qty holds
    refine reaches_of_sent ?_ traderId now
    simp only [typeLine, Command.ofLine_new holds, Command.sent, ClientMsg.struct]
  · intro internalId symId price qty holds
    constructor
    · intro orderId confirmed given
      refine reaches_of_sent ?_ traderId now
      simp only [typeLine, Command.ofLine_modify holds, Command.sent, exchId, confirmed,
        if_neg given, ClientMsg.struct]
    · intro unconfirmed
      simp only [typeLine, Command.ofLine_modify holds, Command.sent, exchId, unconfirmed, if_true]
  · intro internalId symId holds
    constructor
    · intro orderId confirmed given
      refine reaches_of_sent ?_ traderId now
      simp only [typeLine, Command.ofLine_cancel holds, Command.sent, exchId, confirmed,
        if_neg given, ClientMsg.struct]
    · intro unconfirmed
      simp only [typeLine, Command.ofLine_cancel holds, Command.sent, exchId, unconfirmed, if_true]

/-- A line with commas, two blanks and a remark at its end. -/
theorem line_reaches_engine_remark :
    Reaches (fun _ => none) "N,12, 0,BUY  100,5 # first".toList 7 0
      (ClientMsg.request 7 0 (.new 12 0 Side.Buy 100 5)) := by
  refine (line_reaches_engine (fun _ => none) _ 7 0).1 12 0 ['B', 'U', 'Y'] 100 5 ?_
  have comma : ∀ char ∈ [','], Command.isSeparator char = true := by
    simp [Command.isSeparator]
  have blanks : ∀ char ∈ [' ', ' '], Command.isSeparator char = true := by
    simp [Command.isSeparator, isBlank]
  have both : ∀ char ∈ [',', ' '], Command.isSeparator char = true := by
    simp [Command.isSeparator, isBlank]
  have last : Command.Holds [] " # first".toList := .rest (by simp [Command.isSeparator, isBlank])
  have qty := Command.Holds.word comma (show ['5'] ≠ [] by simp)
    (by simp [Command.isSeparator, isBlank]) (by simp [Command.isSeparator, isBlank]) last
  have price := Command.Holds.word blanks (show ['1', '0', '0'] ≠ [] by simp)
    (by simp [Command.isSeparator, isBlank]) (by simpa using comma) qty
  have side := Command.Holds.word comma (show ['B', 'U', 'Y'] ≠ [] by simp)
    (by simp [Command.isSeparator, isBlank]) (by simp [Command.isSeparator, isBlank]) price
  have symbol := Command.Holds.word both (show ['0'] ≠ [] by simp)
    (by simp [Command.isSeparator, isBlank]) (by simpa using comma) side
  have order := Command.Holds.word comma (show ['1', '2'] ≠ [] by simp)
    (by simp [Command.isSeparator, isBlank]) (by simpa using comma) symbol
  have none_ : ∀ char ∈ [], Command.isSeparator char = true := by simp
  have whole := Command.Holds.word none_ (show ['N'] ≠ [] by simp)
    (by simp [Command.isSeparator, isBlank]) (by simpa using comma) order
  exact whole

end Exchange
