import ExchangeSimulator.Library.Run
import ExchangeSimulator.Matching.MatchingEngine
import ExchangeSimulator.Verif.Engine
import ExchangeSimulator.Verif.Executions
import ExchangeSimulator.Verif.Feed
import ExchangeSimulator.Verif.Frame
import ExchangeSimulator.Verif.Positivity
import ExchangeSimulator.Verif.PriceTime
import ExchangeSimulator.Verif.Priority
import ExchangeSimulator.Verif.Replies
import ExchangeSimulator.Verif.Spread
import ExchangeSimulator.Verif.Totals
import ExchangeSimulator.Verif.Tracker
import ExchangeSimulator.Containers.SpscQueue
import ExchangeSimulator.Library.Ring
import ExchangeSimulator.Verif.Spsc
import ExchangeSimulator.Server.SessionManager
import ExchangeSimulator.Verif.Sessions
import ExchangeSimulator.Server.Connections
import ExchangeSimulator.Verif.Delivery
import ExchangeSimulator.Core.RawMessage
import ExchangeSimulator.Library.Framing
import ExchangeSimulator.Library.Layout
import ExchangeSimulator.Net.Protocol
import ExchangeSimulator.Server.EpollThread
import ExchangeSimulator.Verif.Framing
import ExchangeSimulator.Verif.Symmetry
import ExchangeSimulator.Server.MatchingThread
import ExchangeSimulator.Verif.Wire
import ExchangeSimulator.Verif.Trades
import ExchangeSimulator.Verif.Volume
import ExchangeSimulator.Verif.Screen
import ExchangeSimulator.Library.Routing
import ExchangeSimulator.Verif.Product
import ExchangeSimulator.Verif.Reference
import ExchangeSimulator.Verif.Reinsert
import ExchangeSimulator.Verif.Underflow
import ExchangeSimulator.Client.Receiver
import ExchangeSimulator.Server.Sender
import ExchangeSimulator.Verif.Receiver
import ExchangeSimulator.Verif.ShortWrites
import ExchangeSimulator.Net.EpollMgr
import ExchangeSimulator.Server.Pipeline
import ExchangeSimulator.Verif.Pipeline
import ExchangeSimulator.Verif.Drain
import ExchangeSimulator.Library.Selection
import ExchangeSimulator.Verif.Arrivals
import ExchangeSimulator.Verif.Sequential
import ExchangeSimulator.Client.Terminal
import ExchangeSimulator.Verif.Terminal
import ExchangeSimulator.Server.Trading
import ExchangeSimulator.Verif.Owners
import ExchangeSimulator.Verif.Trading
import ExchangeSimulator.Verif.View
import ExchangeSimulator.Server.Login
import ExchangeSimulator.Verif.Accepts
import ExchangeSimulator.Server.LoginThreads
import ExchangeSimulator.Verif.LoginThreads
import ExchangeSimulator.Verif.LoginRefines
import ExchangeSimulator.Server.Program
import ExchangeSimulator.Verif.Program
import ExchangeSimulator.Verif.Settle
