import ExchangeSimulator.Core.Order
import Mathlib.Logic.Function.Basic

/-!
# The session manager

`session_manager.hpp`. Two maps are kept in step: the sessions by descriptor, and
for each trader the descriptor to send to. Every call holds the mutex, so a call
is one step. A call of `add` may replace the trader's entry, and a trader may be
connected more than once.
-/

namespace Exchange

/-- A descriptor number, an `int`. -/
abbrev Fd := Int32

/-- `ClientSession`. -/
structure ClientSession where
  /-- The connection's descriptor. -/
  fd : Fd
  /-- The trader that logged in. -/
  traderId : TraderId
  /-- Bytes received and not yet framed. -/
  recvBuffer : List UInt8
deriving DecidableEq, Repr

/-- `SessionManager`. -/
structure SessionManager where
  /-- The registered sessions. -/
  sessions : Fd → Option ClientSession
  /-- The descriptor to reach a trader at. -/
  traderToFd : TraderId → Option Fd

namespace SessionManager

/-- `SessionManager()`. -/
def new : SessionManager := ⟨fun _ => none, fun _ => none⟩

/-- `add`. -/
def add (manager : SessionManager) (fd : Fd) (traderId : TraderId) : SessionManager where
  sessions := Function.update manager.sessions fd (some ⟨fd, traderId, []⟩)
  traderToFd := Function.update manager.traderToFd traderId (some fd)

/-- `remove`: the trader's entry goes with the session. -/
def remove (manager : SessionManager) (fd : Fd) : SessionManager :=
  match manager.sessions fd with
  | some session =>
    { sessions := Function.update manager.sessions fd none
      traderToFd := Function.update manager.traderToFd session.traderId none }
  | none => manager

/-- `getSession`. -/
def getSession (manager : SessionManager) (fd : Fd) : Option ClientSession := manager.sessions fd

/-- `getTraderId`. -/
def getTraderId (manager : SessionManager) (fd : Fd) : TraderId :=
  match manager.sessions fd with
  | some session => session.traderId
  | none => 0

/-- `getFd`. -/
def getFd (manager : SessionManager) (id : TraderId) : Fd :=
  match manager.traderToFd id with
  | some fd => fd
  | none => -1

/-- A write through the pointer that `getSession` returned. -/
def setBuffer (manager : SessionManager) (fd : Fd) (bytes : List UInt8) : SessionManager :=
  match manager.sessions fd with
  | some session =>
    { manager with
      sessions := Function.update manager.sessions fd (some { session with recvBuffer := bytes }) }
  | none => manager

/-- A call that changes the maps. -/
inductive Call where
  /-- A login handler registers a connection. -/
  | add (fd : Fd) (traderId : TraderId)
  /-- The epoll thread drops a connection. -/
  | remove (fd : Fd)
deriving DecidableEq, Repr

/-- One call. -/
def step (manager : SessionManager) : Call → Option (SessionManager × Unit)
  | .add fd traderId => some (manager.add fd traderId, ())
  | .remove fd => some (manager.remove fd, ())

end SessionManager

end Exchange
