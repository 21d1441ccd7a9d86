import ExchangeSimulator.Library.Run
import ExchangeSimulator.Server.SessionManager

/-!
# Connected traders and their descriptors

The entry of a trader always names a registered session of that trader, whatever
the order of logins and disconnects (`Consistent`). The converse needs more: a
connected trader has an entry only as long as no other session of the same
trader is removed, because `remove` drops the entry of the trader even when it
names a session that stays. An entry that is there names the descriptor of its
trader's most recent login.
-/

namespace Exchange

open Library

namespace SessionManager

variable {manager : SessionManager} {fd : Fd} {traderId : TraderId}

/-- What `add` leaves at a descriptor. -/
theorem add_sessions (manager : SessionManager) (fd : Fd) (traderId : TraderId) (other : Fd) :
    (manager.add fd traderId).sessions other =
      if other = fd then some ⟨fd, traderId, []⟩ else manager.sessions other :=
  Function.update_apply manager.sessions fd _ other

/-- What `add` leaves of a trader's entry. -/
theorem add_traderToFd (manager : SessionManager) (fd : Fd) (traderId other : TraderId) :
    (manager.add fd traderId).traderToFd other =
      if other = traderId then some fd else manager.traderToFd other :=
  Function.update_apply manager.traderToFd traderId _ other

/-- Removing an unknown descriptor changes nothing. -/
theorem remove_of_none (absent : manager.sessions fd = none) : manager.remove fd = manager := by
  rw [remove, absent]

/-- What `remove` leaves at a descriptor. -/
theorem remove_sessions (manager : SessionManager) (fd other : Fd) :
    (manager.remove fd).sessions other = if other = fd then none else manager.sessions other := by
  cases found : manager.sessions fd with
  | none =>
    rw [remove_of_none found]
    split
    · rename_i same
      rw [same, found]
    · rfl
  | some session => simp only [remove, found, Function.update_apply]

/-- What `remove` leaves of a trader's entry. -/
theorem remove_traderToFd {session : ClientSession} (found : manager.sessions fd = some session)
    (other : TraderId) :
    (manager.remove fd).traderToFd other =
      if other = session.traderId then none else manager.traderToFd other := by
  simp only [remove, found, Function.update_apply]

/-- A trader's entry names a registered session of that trader, under its own descriptor. -/
structure Consistent (manager : SessionManager) : Prop where
  /-- A session is registered under its descriptor. -/
  own : ∀ fd session, manager.sessions fd = some session → session.fd = fd
  /-- An entry names a session of its trader. -/
  entry : ∀ traderId fd, manager.traderToFd traderId = some fd →
    ∃ session, manager.sessions fd = some session ∧ session.traderId = traderId

/-- No session and no entry. -/
theorem consistent_new : new.Consistent where
  own := by simp [new]
  entry := by simp [new]

/-- Registering a new descriptor keeps the maps in step. -/
theorem Consistent.add (consistent : manager.Consistent) (fresh : manager.sessions fd = none)
    (traderId : TraderId) : (manager.add fd traderId).Consistent where
  own := by
    intro other session found
    rw [add_sessions] at found
    split at found
    · rename_i same
      cases found
      exact same.symm
    · exact consistent.own other session found
  entry := by
    intro someone other found
    rw [add_traderToFd] at found
    simp only [add_sessions]
    split at found
    · rename_i same
      cases found
      exact ⟨_, if_pos rfl, same.symm⟩
    · obtain ⟨session, registered, owner⟩ := consistent.entry someone other found
      have apart : other ≠ fd := by
        rintro rfl
        rw [fresh] at registered
        contradiction
      rw [if_neg apart]
      exact ⟨session, registered, owner⟩

/-- Removing a descriptor, known or not, keeps the maps in step. -/
theorem Consistent.remove (consistent : manager.Consistent) (fd : Fd) :
    (manager.remove fd).Consistent := by
  cases found : manager.sessions fd with
  | none =>
    rw [remove_of_none found]
    exact consistent
  | some session =>
    constructor
    · intro other kept registered
      rw [remove_sessions] at registered
      split at registered
      · contradiction
      · exact consistent.own other kept registered
    · intro someone other entry
      rw [remove_traderToFd found] at entry
      split at entry
      · contradiction
      · rename_i apart
        obtain ⟨kept, registered, owner⟩ := consistent.entry someone other entry
        have different : other ≠ fd := by
          rintro rfl
          rw [found, Option.some.injEq] at registered
          rw [← owner, registered] at apart
          exact apart rfl
        rw [remove_sessions, if_neg different]
        exact ⟨kept, registered, owner⟩

/-- Every registered session's trader is reached at a registered session of that trader. -/
def Reached (manager : SessionManager) : Prop :=
  ∀ fd session, manager.sessions fd = some session →
    0 ≤ manager.getFd session.traderId ∧
    ∃ reached, manager.sessions (manager.getFd session.traderId) = some reached ∧
      reached.traderId = session.traderId

/-- A descriptor of an open socket is registered once at a time. -/
def OpenedOnce (manager : SessionManager) : Call → Prop
  | .add fd _ => 0 ≤ fd ∧ manager.sessions fd = none
  | .remove _ => True

/-- A session that is removed is the only one of its trader. -/
def RemovesOnly (manager : SessionManager) : Call → Prop
  | .add _ _ => True
  | .remove fd => ∀ session, manager.sessions fd = some session →
      ∀ other kept, manager.sessions other = some kept → kept.traderId = session.traderId →
        other = fd

/-- Registering a new descriptor keeps every trader reachable. -/
theorem Reached.add (reached : manager.Reached) (opened : 0 ≤ fd)
    (fresh : manager.sessions fd = none) (traderId : TraderId) :
    (manager.add fd traderId).Reached := by
  intro other session found
  rw [add_sessions] at found
  by_cases same : session.traderId = traderId
  · have entry : (manager.add fd traderId).getFd session.traderId = fd := by
      rw [getFd, add_traderToFd, if_pos same]
    rw [entry]
    refine ⟨opened, _, by rw [add_sessions, if_pos rfl], same.symm⟩
  · have older : manager.sessions other = some session := by
      split at found
      · cases found
        exact absurd rfl same
      · exact found
    have entry : (manager.add fd traderId).getFd session.traderId =
        manager.getFd session.traderId := by
      rw [getFd, add_traderToFd, if_neg same, getFd]
    obtain ⟨valid, owner, registered, owned⟩ := reached other session older
    have apart : manager.getFd session.traderId ≠ fd := by
      intro equal
      rw [equal, fresh] at registered
      contradiction
    rw [entry]
    exact ⟨valid, owner, by rw [add_sessions, if_neg apart, registered], owned⟩

/-- Removing a session keeps every trader reachable exactly if it was its trader's only one. -/
theorem Reached.remove_iff (reached : manager.Reached) :
    (manager.remove fd).Reached ↔ manager.RemovesOnly (.remove fd) := by
  cases found : manager.sessions fd with
  | none =>
    rw [remove_of_none found]
    refine ⟨fun _ session registered => ?_, fun _ => reached⟩
    rw [found] at registered
    contradiction
  | some session =>
    constructor
    · intro after removed registered other kept stays sameTrader
      rw [found, Option.some.injEq] at registered
      subst registered
      by_contra apart
      have still : (manager.remove fd).sessions other = some kept := by
        rw [remove_sessions, if_neg apart, stays]
      -- the trader's entry went with the removed session
      have lost : (manager.remove fd).getFd kept.traderId = -1 := by
        rw [getFd, remove_traderToFd found, if_pos sameTrader]
      have valid := (after other kept still).1
      rw [lost] at valid
      exact absurd valid (by decide)
    · intro only other kept registered
      rw [remove_sessions] at registered
      split at registered
      · contradiction
      · rename_i apart
        have foreign : kept.traderId ≠ session.traderId := fun same =>
          apart (only session found other kept registered same)
        obtain ⟨valid, owner, present, owned⟩ := reached other kept registered
        have entry : (manager.remove fd).getFd kept.traderId = manager.getFd kept.traderId := by
          rw [getFd, remove_traderToFd found, if_neg foreign, getFd]
        have different : manager.getFd kept.traderId ≠ fd := by
          intro equal
          rw [equal, found, Option.some.injEq] at present
          rw [← present] at owned
          exact foreign owned.symm
        rw [entry]
        exact ⟨valid, owner, by rw [remove_sessions, if_neg different, present], owned⟩

/-- Over every sequence of calls from an empty manager, every connected trader stays reachable
exactly when every removed session was the only one of its trader. -/
theorem run_reached_iff (calls : List Call) (opened : Guarded step OpenedOnce new calls) :
    Always step Reached (fun _ => True) new calls ↔ Guarded step RemovesOnly new calls := by
  refine always_iff_guarded (fun _ => True) Reached (fun _ => True) RemovesOnly ?_ calls new
    trivial (by intro fd session found; simp [new] at found) opened
  intro manager call _ reached once
  cases call with
  | add fd traderId =>
    refine ⟨manager.add fd traderId, (), rfl, trivial, ?_⟩
    have added := reached.add once.1 once.2 traderId
    exact ⟨fun _ => trivial, fun _ => ⟨added, trivial⟩⟩
  | remove fd =>
    refine ⟨manager.remove fd, (), rfl, trivial, ?_⟩
    rw [and_true]
    exact reached.remove_iff

/-- A second trader's login and a disconnect of the first one. -/
theorem run_reached_iff_two :
    Always step Reached (fun _ => True) new [.add 5 1, .add 6 2, .remove 5] ↔
      Guarded step RemovesOnly new [.add 5 1, .add 6 2, .remove 5] :=
  run_reached_iff _ (by simp [Guarded, OpenedOnce, step, new, add])

/-- A trader that reconnects before its old connection is torn down is lost. -/
theorem reached_fails_on_reconnect :
    Guarded step OpenedOnce new [.add 5 1, .add 6 1, .remove 5] ∧
      ¬Always step Reached (fun _ => True) new [.add 5 1, .add 6 1, .remove 5] := by
  refine ⟨by simp [Guarded, OpenedOnce, step, new, add], ?_⟩
  intro always
  have last : (((new.add 5 1).add 6 1).remove 5).Reached :=
    ((always.2 _ _ rfl).2.2 _ _ rfl).2.2 _ _ rfl |>.2
  have valid := (last 6 ⟨6, 1, []⟩ rfl).1
  exact absurd valid (by decide)

/-! ## Entries and logins -/

/-- The connection a call logs a trader in on. -/
def Call.login (traderId : TraderId) : Call → Option Fd
  | .add fd someone => if someone = traderId then some fd else none
  | .remove _ => none

/-- The connection of a trader's most recent login. -/
def lastLogin (calls : List Call) (traderId : TraderId) : Option Fd :=
  (calls.filterMap (Call.login traderId)).getLast?

/-- A login is the most recent one of its trader and of nobody else. -/
theorem lastLogin_add (past : List Call) (fd : Fd) (someone traderId : TraderId) :
    lastLogin (past ++ [.add fd someone]) traderId =
      if someone = traderId then some fd else lastLogin past traderId := by
  by_cases same : someone = traderId <;> simp [lastLogin, Call.login, same]

/-- A disconnect is no login. -/
theorem lastLogin_remove (past : List Call) (fd : Fd) (traderId : TraderId) :
    lastLogin (past ++ [.remove fd]) traderId = lastLogin past traderId := by
  simp [lastLogin, Call.login]

/-- `add` is called only with a descriptor that is not registered. -/
def AddsUnregistered (manager : SessionManager) : Call → Prop
  | .add fd _ => manager.getSession fd = none
  | .remove _ => True

/-- A trader's entry names the connection of the trader's most recent login. -/
def Current (manager : SessionManager) (past : List Call) : Prop :=
  ∀ traderId fd, manager.traderToFd traderId = some fd → lastLogin past traderId = some fd

/-- A login keeps every entry current. -/
theorem Current.add {past : List Call} (current : manager.Current past) (fd : Fd)
    (traderId : TraderId) : (manager.add fd traderId).Current (past ++ [.add fd traderId]) := by
  intro someone other entry
  rw [add_traderToFd] at entry
  rw [lastLogin_add]
  split at entry
  · rename_i same
    rw [if_pos same.symm, entry]
  · rename_i apart
    rw [if_neg (Ne.symm apart)]
    exact current someone other entry

/-- A disconnect takes entries away and changes none. -/
theorem Current.remove {past : List Call} (current : manager.Current past) (fd : Fd) :
    (manager.remove fd).Current (past ++ [.remove fd]) := by
  intro someone other entry
  rw [lastLogin_remove]
  apply current someone other
  cases found : manager.sessions fd with
  | none => rwa [remove_of_none found] at entry
  | some session =>
    rw [remove_traderToFd found] at entry
    split at entry
    · contradiction
    · exact entry

/-- Over every sequence of logins on unregistered descriptors and disconnects, a trader that is
routed to a descriptor is registered there, and logged in there last. -/
theorem run_routes_current (calls : List Call)
    (unregistered : Guarded step AddsUnregistered new calls) :
    ∃ manager outputs, run step new calls = some (manager, outputs) ∧
      ∀ traderId fd, manager.getFd traderId = fd → 0 ≤ fd →
        (∃ session, manager.getSession fd = some session) ∧
        manager.getTraderId fd = traderId ∧
        lastLogin calls traderId = some fd := by
  obtain ⟨manager, outputs, ran, consistent, current⟩ := run_guarded_inputs
    (fun manager past => manager.Consistent ∧ manager.Current past)
    (by
      intro manager call past holds unregistered
      obtain ⟨consistent, current⟩ := holds
      cases call with
      | add fd traderId =>
        exact ⟨_, (), rfl, consistent.add unregistered traderId, current.add fd traderId⟩
      | remove fd => exact ⟨_, (), rfl, consistent.remove fd, current.remove fd⟩)
    calls new [] ⟨consistent_new, by intro traderId fd entry; contradiction⟩ unregistered
  refine ⟨manager, outputs, ran, ?_⟩
  intro traderId fd routed valid
  cases entry : manager.traderToFd traderId with
  | none =>
    -- without an entry the route is -1
    rw [getFd, entry] at routed
    rw [← routed] at valid
    exact absurd valid (by decide)
  | some other =>
    have same : other = fd := by rwa [getFd, entry] at routed
    subst same
    obtain ⟨session, registered, owner⟩ := consistent.entry traderId other entry
    refine ⟨⟨session, registered⟩, ?_, current traderId other entry⟩
    rw [getTraderId, registered]
    exact owner

/-- A trader on two connections that closes the older one, and another trader that takes it over. -/
theorem run_routes_current_reused :
    ∃ manager outputs,
      run step new [.add 5 1, .add 6 1, .remove 5, .add 5 2, .remove 9] =
        some (manager, outputs) ∧
      ∀ traderId fd, manager.getFd traderId = fd → 0 ≤ fd →
        (∃ session, manager.getSession fd = some session) ∧
        manager.getTraderId fd = traderId ∧
        lastLogin [.add 5 1, .add 6 1, .remove 5, .add 5 2, .remove 9] traderId = some fd :=
  run_routes_current _
    (by simp [Guarded, AddsUnregistered, step, new, add, remove, getSession])

end SessionManager

end Exchange
