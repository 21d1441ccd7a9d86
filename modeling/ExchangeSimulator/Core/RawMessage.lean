import ExchangeSimulator.Core.Order

/-!
# The raw message envelope

`raw_message.hpp`: what the epoll thread pushes and the matching thread pops. The
data is an array of fixed size that starts out zero.
-/

namespace Exchange

/-- `MAX_RAW_MSG_SIZE`. -/
def MAX_RAW_MSG_SIZE : Nat := 128

/-- `RawMessage`. -/
structure RawMessage where
  /-- The session's trader. -/
  traderId : TraderId
  /-- Bytes of data in use. -/
  length : UInt16
  /-- `char data[MAX_RAW_MSG_SIZE]`. -/
  data : List UInt8
  /-- The array has its full size. -/
  sized : data.length = MAX_RAW_MSG_SIZE
deriving DecidableEq, Repr

/-- A message with `length` bytes copied from a buffer into zeroed data. -/
def RawMessage.copy (traderId : TraderId) (length : UInt16) (buffer : List UInt8)
    (received : length.toNat ≤ buffer.length) (fits : length.toNat ≤ MAX_RAW_MSG_SIZE) :
    RawMessage where
  traderId := traderId
  length := length
  data := buffer.take length.toNat ++ List.replicate (MAX_RAW_MSG_SIZE - length.toNat) 0
  sized := by
    rw [List.length_append, List.length_take, List.length_replicate, Nat.min_eq_left received]
    omega

end Exchange
