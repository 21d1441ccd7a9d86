import ExchangeSimulator.Server.Connections
import ExchangeSimulator.Verif.Sessions

/-!
# Who receives a confirm

A registered session always stands on an open descriptor whose connection
logged in as the session's trader, and a trader's entry names such a session, so
a lookup is right when it is made. It stays right until the send as long as the
kernel does not hand the held number to another connection in between. If it
does, the very next send goes to a connection that has not logged in at all.
-/

namespace Exchange

open Library

namespace Connections

variable {state next : Connections} {fd : Fd} {output : Option Sent}

/-- A confirm written to an open descriptor goes to a connection of its trader. -/
def Private : Option Sent → Prop
  | some ⟨traderId, some stage⟩ => stage.login = some traderId
  | _ => True

instance : DecidablePred Private
  | some ⟨traderId, some stage⟩ => inferInstanceAs (Decidable (stage.login = some traderId))
  | some ⟨_, none⟩ | none => isTrue trivial

/-- No connection is accepted under the number the matching thread holds. -/
def Unheld (state : Connections) : Event → Prop
  | .accept fd => state.sending.map Prod.snd ≠ some fd
  | _ => True

instance (state : Connections) : DecidablePred state.Unheld
  | .accept fd => inferInstanceAs (Decidable (state.sending.map Prod.snd ≠ some fd))
  | .login _ _ | .refuse _ | .respond _ | .register _ | .watch _ | .remove _ | .close | .lookup _
  | .send => isTrue trivial

/-- The session manager, the open descriptors and the held descriptor agree. -/
structure Sound (state : Connections) : Prop where
  /-- The two maps are in step. -/
  consistent : state.sessions.Consistent
  /-- A session stands on an open connection of its trader. -/
  session : ∀ fd found, state.sessions.sessions fd = some found →
    state.open_ fd = some (.registered found.traderId) ∨
    state.open_ fd = some (.watched found.traderId)
  /-- A descriptor about to be closed has no session. -/
  closing : ∀ fd, state.closing = some fd →
    state.sessions.sessions fd = none ∧ ∃ traderId, state.open_ fd = some (.watched traderId)
  /-- The held descriptor is closed or behind it is a connection of the confirm's trader. -/
  sending : ∀ traderId fd, state.sending = some (traderId, fd) →
    ∀ stage, state.open_ fd = some stage → stage.login = some traderId

/-- Nothing is open, registered or held. -/
theorem sound_new : new.Sound where
  consistent := SessionManager.consistent_new
  session := by simp [new, SessionManager.new]
  closing := by simp [new]
  sending := by simp [new]

/-- A connection that changes behind the held number is still one of the confirm's trader. -/
theorem Sound.sending_update (sound : state.Sound) {stage : Option Stage}
    (held : ∀ traderId, state.sending = some (traderId, fd) →
      ∀ reached, stage = some reached → reached.login = some traderId)
    {traderId : TraderId} {other : Fd} (holds : state.sending = some (traderId, other))
    {reached : Stage} (behind : Function.update state.open_ fd stage other = some reached) :
    reached.login = some traderId := by
  by_cases same : other = fd
  · subst same
    rw [Function.update_self] at behind
    exact held traderId holds reached behind
  · rw [Function.update_of_ne same] at behind
    exact sound.sending traderId other holds reached behind

/-- A connection without a session may go on, close or appear, unless its number is held. -/
theorem Sound.early (sound : state.Sound) {stage : Option Stage}
    (unregistered : ∀ traderId, state.open_ fd ≠ some (.registered traderId) ∧
      state.open_ fd ≠ some (.watched traderId))
    (held : ∀ traderId, state.sending = some (traderId, fd) →
      ∀ reached, stage = some reached → reached.login = some traderId) :
    ({ state with open_ := Function.update state.open_ fd stage } : Connections).Sound where
  consistent := sound.consistent
  session := by
    intro other found registered
    have stands := sound.session other found registered
    have apart : other ≠ fd := by
      rintro rfl
      have early := unregistered found.traderId
      exact stands.elim early.1 early.2
    simp only [Function.update_of_ne apart]
    exact stands
  closing := by
    intro other about
    obtain ⟨removed, traderId, watched⟩ := sound.closing other about
    have apart : other ≠ fd := by
      rintro rfl
      exact (unregistered traderId).2 watched
    simp only [Function.update_of_ne apart]
    exact ⟨removed, traderId, watched⟩
  sending := fun _ _ holds _ behind => sound.sending_update held holds behind

/-- An answered connection is registered. -/
theorem Sound.register (sound : state.Sound) {traderId : TraderId}
    (answered : state.open_ fd = some (.answered traderId)) :
    ({ state with
      open_ := Function.update state.open_ fd (some (.registered traderId))
      sessions := state.sessions.add fd traderId } : Connections).Sound := by
  have fresh : state.sessions.sessions fd = none := by
    cases found : state.sessions.sessions fd with
    | none => rfl
    | some session =>
      have stands := sound.session fd session found
      simp [answered] at stands
  refine ⟨sound.consistent.add fresh traderId, ?_, ?_, ?_⟩
  · intro other found registered
    simp only [SessionManager.add_sessions] at registered
    by_cases same : other = fd
    · subst same
      rw [if_pos rfl] at registered
      cases registered
      exact .inl (Function.update_self _ _ _)
    · rw [if_neg same] at registered
      simp only [Function.update_of_ne same]
      exact sound.session other found registered
  · intro other about
    obtain ⟨removed, someone, watched⟩ := sound.closing other about
    have apart : other ≠ fd := by
      rintro rfl
      simp [answered] at watched
    simp only [SessionManager.add_sessions, if_neg apart, Function.update_of_ne apart]
    exact ⟨removed, someone, watched⟩
  · intro _ _ holds _ behind
    refine sound.sending_update ?_ holds behind
    rintro someone holds reached ⟨⟩
    exact sound.sending someone fd holds (.answered traderId) answered

/-- A registered connection is watched. -/
theorem Sound.watch (sound : state.Sound) {traderId : TraderId}
    (registered : state.open_ fd = some (.registered traderId)) :
    ({ state with open_ := Function.update state.open_ fd (some (.watched traderId)) } :
      Connections).Sound where
  consistent := sound.consistent
  session := by
    intro other found present
    have stands := sound.session other found present
    by_cases same : other = fd
    · subst same
      right
      simp only [Function.update_self]
      simpa [registered] using stands
    · simp only [Function.update_of_ne same]
      exact stands
  closing := by
    intro other about
    obtain ⟨removed, someone, watched⟩ := sound.closing other about
    have apart : other ≠ fd := by
      rintro rfl
      simp [registered] at watched
    simp only [Function.update_of_ne apart]
    exact ⟨removed, someone, watched⟩
  sending := by
    intro _ _ holds _ behind
    refine sound.sending_update ?_ holds behind
    rintro someone holds reached ⟨⟩
    exact sound.sending someone fd holds (.registered traderId) registered

/-- A watched connection loses its session. -/
theorem Sound.remove (sound : state.Sound) {traderId : TraderId}
    (watched : state.open_ fd = some (.watched traderId)) :
    ({ state with sessions := state.sessions.remove fd, closing := some fd } :
      Connections).Sound where
  consistent := sound.consistent.remove fd
  session := by
    intro other found present
    simp only [SessionManager.remove_sessions] at present
    split at present
    · contradiction
    · exact sound.session other found present
  closing := by
    intro other about
    cases about
    exact ⟨by simp only [SessionManager.remove_sessions, if_true], traderId, watched⟩
  sending := sound.sending

/-- A descriptor without a session is closed. -/
theorem Sound.close (sound : state.Sound) (about : state.closing = some fd) :
    ({ state with open_ := Function.update state.open_ fd none, closing := none } :
      Connections).Sound where
  consistent := sound.consistent
  session := by
    intro other found present
    have apart : other ≠ fd := by
      rintro rfl
      rw [(sound.closing other about).1] at present
      contradiction
    simp only [Function.update_of_ne apart]
    exact sound.session other found present
  closing := by simp
  sending := by
    intro _ _ holds _ behind
    refine sound.sending_update ?_ holds behind
    rintro someone holds reached ⟨⟩

/-- A looked up descriptor leads to a connection of the trader. -/
theorem Sound.lookup (sound : state.Sound) {traderId : TraderId}
    (found : ¬state.sessions.getFd traderId < 0) :
    ({ state with sending := some (traderId, state.sessions.getFd traderId) } :
      Connections).Sound where
  consistent := sound.consistent
  session := sound.session
  closing := sound.closing
  sending := by
    intro someone other holds reached behind
    cases holds
    cases entry : state.sessions.traderToFd traderId with
    | none =>
      rw [SessionManager.getFd, entry] at found
      exact absurd (by decide) found
    | some target =>
      have names : state.sessions.getFd traderId = target := by rw [SessionManager.getFd, entry]
      simp only [names] at behind
      obtain ⟨session, present, owner⟩ := sound.consistent.entry traderId target entry
      rcases sound.session target session present with stands | stands
      · rw [stands, Option.some.injEq] at behind
        rw [← behind, ← owner]
        rfl
      · rw [stands, Option.some.injEq] at behind
        rw [← behind, ← owner]
        rfl

/-- Every step that does not hand out the held number keeps the agreement and is private. -/
theorem Sound.step (sound : state.Sound) {event : Event} (unheld : state.Unheld event)
    (stepped : state.step event = some (next, output)) : next.Sound ∧ Private output := by
  cases event with
  | accept fd =>
    simp only [Connections.step] at stepped
    split at stepped
    · rename_i available
      cases stepped
      refine ⟨sound.early (by simp [available.2]) ?_, trivial⟩
      intro traderId holds
      exact absurd (congrArg (Option.map Prod.snd) holds) unheld
    · contradiction
  | login fd traderId =>
    simp only [Connections.step] at stepped
    split at stepped
    · rename_i accepted
      cases stepped
      refine ⟨sound.early (by simp [accepted]) ?_, trivial⟩
      intro someone holds
      have login := sound.sending someone fd holds _ accepted
      contradiction
    · contradiction
  | refuse fd =>
    simp only [Connections.step] at stepped
    split at stepped
    · rename_i accepted
      cases stepped
      exact ⟨sound.early (by simp [accepted]) (by simp), trivial⟩
    · contradiction
  | respond fd =>
    simp only [Connections.step] at stepped
    split at stepped
    · rename_i traderId loggedIn
      cases stepped
      refine ⟨sound.early (by simp [loggedIn]) ?_, trivial⟩
      rintro someone holds reached ⟨⟩
      exact sound.sending someone fd holds (.loggedIn traderId) loggedIn
    · contradiction
  | register fd =>
    simp only [Connections.step] at stepped
    split at stepped
    · rename_i traderId answered
      cases stepped
      exact ⟨sound.register answered, trivial⟩
    · contradiction
  | watch fd =>
    simp only [Connections.step] at stepped
    split at stepped
    · rename_i traderId registered
      cases stepped
      exact ⟨sound.watch registered, trivial⟩
    · contradiction
  | remove fd =>
    simp only [Connections.step] at stepped
    split at stepped
    · rename_i traderId _ watched
      cases stepped
      exact ⟨sound.remove watched, trivial⟩
    · contradiction
  | close =>
    simp only [Connections.step] at stepped
    split at stepped
    · rename_i fd about
      cases stepped
      exact ⟨sound.close about, trivial⟩
    · contradiction
  | lookup traderId =>
    simp only [Connections.step] at stepped
    split at stepped
    · split at stepped
      · cases stepped
        exact ⟨sound, trivial⟩
      · rename_i found
        cases stepped
        exact ⟨sound.lookup found, trivial⟩
    · contradiction
  | send =>
    simp only [Connections.step] at stepped
    split at stepped
    · rename_i traderId fd holds
      cases stepped
      refine ⟨⟨sound.consistent, sound.session, sound.closing, by simp⟩, ?_⟩
      cases behind : state.open_ fd with
      | none => trivial
      | some stage => exact sound.sending traderId fd holds stage behind
    · contradiction

/-- A number handed out while it is held receives the confirm before any login. -/
theorem misdelivered_of_held {event : Event} (held : ¬state.Unheld event)
    (stepped : state.step event = some (next, output)) :
    ∃ after sent, next.step .send = some (after, sent) ∧ ¬Private sent := by
  cases event with
  | accept fd =>
    simp only [Unheld, not_not, Option.map_eq_some_iff] at held
    obtain ⟨⟨traderId, number⟩, holds, same⟩ := held
    have same : number = fd := same
    subst same
    simp only [Connections.step] at stepped
    split at stepped
    · cases stepped
      have sends : ({ state with
          open_ := Function.update state.open_ number (some .accepted) } : Connections).step .send =
          some ({ state with
            open_ := Function.update state.open_ number (some .accepted), sending := none },
            some ⟨traderId, some .accepted⟩) := by
        simp only [Connections.step, holds, Function.update_self]
      exact ⟨_, _, sends, fun login : none = some traderId => by contradiction⟩
    · contradiction
  | _ => exact absurd trivial held

/-- In every interleaving of the threads in which no connection is accepted under the number the
matching thread holds, confirms reach only connections of their trader; and a step that does hand
out the held number can be followed at once by a send that does not. -/
theorem run_private (events : List Event) (unheld : Guarded step Unheld new events) :
    Always step (fun _ => True) Private new events ∧
    ∀ state event next output, ¬Unheld state event → step state event = some (next, output) →
      ∃ after sent, next.step .send = some (after, sent) ∧ ¬Private sent := by
  refine ⟨?_, fun state event next output held stepped => misdelivered_of_held held stepped⟩
  have always := always_of_guarded Sound Private
    (fun _ _ _ _ sound unheld stepped => sound.step unheld stepped) events new sound_new unheld
  exact always.imp (fun _ _ => trivial) (fun _ sent => sent)

/-- A confirm sent while its trader reconnects under another number. -/
theorem run_private_reconnect :
    Always step (fun _ => True) Private new
      [.accept 5, .login 5 1, .respond 5, .register 5, .watch 5, .lookup 1, .remove 5, .close,
        .accept 6, .send] :=
  (run_private _ (by decide)).1

/-- A disconnect and a login of another trader between lookup and send. -/
theorem private_fails_on_reuse :
    ¬Always step (fun _ => True) Private new
      [.accept 5, .login 5 1, .respond 5, .register 5, .watch 5, .lookup 1, .remove 5, .close,
        .accept 5, .login 5 2, .send] := by
  decide

end Connections

end Exchange
