import Mathlib.Data.List.Basic

/-!
# The receiving end of a connection

`TcpSocket::recvRaw` on a blocking socket, as the client calls it. A call returns
at least one byte and at most as many as it asks for; how many have arrived when
it is made is up to the network. After the last byte a call returns zero or an
error, or it waits for more. The descriptor stays valid for as long as the
receive thread runs.
-/

namespace Exchange

/-- What a call comes to when every byte has been received. -/
inductive StreamEnd where
  /-- The connection is open and the call does not return. -/
  | waiting
  /-- The other side has closed the connection and the call returns 0. -/
  | closed
  /-- The call returns -1. -/
  | failed
deriving DecidableEq, Repr

/-- A socket with what it will receive. -/
structure TcpSocket where
  /-- The bytes that are yet to be received. -/
  pending : List UInt8
  /-- How many bytes have arrived at each of the next calls, all of them when the list ends. -/
  arrivals : List Nat
  /-- What follows the last byte. -/
  last : StreamEnd
deriving DecidableEq, Repr

/-- What a call of `recvRaw` comes to. -/
inductive Recv where
  /-- It returns `n > 0` and these bytes. -/
  | data (bytes : List UInt8)
  /-- It returns `n <= 0`. -/
  | ended
  /-- It has not returned. -/
  | blocked
deriving DecidableEq, Repr

/-- `recvRaw`. -/
def TcpSocket.recvRaw (sock : TcpSocket) (msgLen : Nat) : Recv × TcpSocket :=
  match sock.pending with
  | [] =>
    match sock.last with
    | .waiting => (.blocked, sock)
    | .closed | .failed => (.ended, sock)
  | first :: later =>
    -- a blocking call waits for the first byte
    let n := min msgLen (max 1 (sock.arrivals.headD (later.length + 1)))
    (.data ((first :: later).take n),
      { sock with
        pending := (first :: later).drop n
        arrivals := sock.arrivals.tail })

end Exchange
