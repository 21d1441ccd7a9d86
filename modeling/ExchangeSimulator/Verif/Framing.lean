import ExchangeSimulator.Library.Framing
import ExchangeSimulator.Library.Run
import ExchangeSimulator.Server.EpollThread
import ExchangeSimulator.Verif.Sessions

/-!
# Framing does not depend on how the stream is cut

The framing loop takes frames off the front of the session's buffer, so what it
pushes is the framing of the buffer, and by the append law of framing a callback
goes on exactly where the one before it stopped. Callbacks of different
descriptors touch different buffers. Each descriptor's messages are therefore
those of its whole stream framed in one go. The loop stops unless it reaches a
header that tells a length of zero, which takes nothing off the buffer. A callback
that ends a connection is another matter: it removes the session and then goes on
to frame its buffer.
-/

namespace Exchange

open Library

/-- The length of the first message, read from its header, once it has arrived. -/
def messageCutter : Cutter UInt8 where
  cut stream :=
    if stream.length < MsgHeader.layout.size then none
    else
      if stream.length < (MsgHeader.layout.read stream).length.toNat then none
      else some (MsgHeader.layout.read stream).length.toNat
  received := by
    intro stream length complete
    split at complete
    · contradiction
    · split at complete
      · contradiction
      · cases complete
        omega
  settled := by
    intro stream length complete later
    split at complete
    · contradiction
    · rename_i headed
      split at complete
      · contradiction
      · rename_i whole
        cases complete
        rw [MsgHeader.layout.read_append stream later (Nat.le_of_not_lt headed), if_neg, if_neg]
        · rw [List.length_append]
          omega
        · rw [List.length_append]
          omega

/-- The message pushed for a frame, unless the frame is oversized. -/
def RawMessage.ofFrame (traderId : TraderId) (frame : List UInt8) : Option RawMessage :=
  if fits : frame.length ≤ MAX_RAW_MSG_SIZE then
    some {
      traderId := traderId
      length := UInt16.ofNat frame.length
      data := frame ++ List.replicate (MAX_RAW_MSG_SIZE - frame.length) 0
      sized := by
        rw [List.length_append, List.length_replicate]
        omega }
  else none

/-- The loop stops where no complete message is left. -/
theorem framePass_of_incomplete {session : ClientSession}
    (incomplete : messageCutter.cut session.recvBuffer = none) : framePass session = none := by
  simp only [messageCutter] at incomplete
  simp only [framePass]
  split at incomplete
  · rename_i short
    rw [if_pos short]
  · rename_i headed
    split at incomplete
    · rename_i short
      rw [if_neg headed, dif_pos short]
    · contradiction

/-- A pass takes the first frame off the buffer. -/
theorem framePass_of_complete {session : ClientSession} {length : Nat}
    (complete : messageCutter.cut session.recvBuffer = some length) :
    framePass session = some
      (RawMessage.ofFrame session.traderId (session.recvBuffer.take length),
        session.recvBuffer.drop length) := by
  simp only [messageCutter] at complete
  split at complete
  · contradiction
  · rename_i headed
    split at complete
    · contradiction
    · rename_i whole
      simp only [Option.some.injEq] at complete
      subst complete
      have taken : (session.recvBuffer.take
          (MsgHeader.layout.read session.recvBuffer).length.toNat).length =
          (MsgHeader.layout.read session.recvBuffer).length.toNat := by
        rw [List.length_take, Nat.min_eq_left (Nat.le_of_not_lt whole)]
      simp only [framePass, if_neg headed, dif_neg whole, RawMessage.ofFrame, taken]
      by_cases oversized : MAX_RAW_MSG_SIZE <
          (MsgHeader.layout.read session.recvBuffer).length.toNat
      · rw [dif_pos oversized, dif_neg (by omega)]
      · rw [dif_neg oversized, dif_pos (by omega)]
        simp only [RawMessage.copy, UInt16.ofNat_toNat]

namespace SessionManager

variable {sessions : SessionManager} {fd : Fd} {session : ClientSession}

/-- What a write to a session's buffer leaves at a descriptor. -/
theorem setBuffer_sessions (found : sessions.sessions fd = some session) (bytes : List UInt8)
    (other : Fd) :
    (sessions.setBuffer fd bytes).sessions other =
      if other = fd then some { session with recvBuffer := bytes }
      else sessions.sessions other := by
  simp only [setBuffer, found, Function.update_apply]

/-- The last write stays. -/
theorem setBuffer_setBuffer (found : sessions.sessions fd = some session)
    (first second : List UInt8) :
    (sessions.setBuffer fd first).setBuffer fd second = sessions.setBuffer fd second := by
  simp only [setBuffer, found, Function.update_self, Function.update_idem]

/-- Writing what is there changes nothing. -/
theorem setBuffer_self (found : sessions.sessions fd = some session) :
    sessions.setBuffer fd session.recvBuffer = sessions := by
  simp only [setBuffer, found]
  rw [← found, Function.update_eq_self]

end SessionManager

variable {sessions : SessionManager} {fd : Fd} {session : ClientSession}

/-- The framing loop pushes the frames of the buffer and leaves the rest. -/
theorem frameLoop_framed (found : sessions.sessions fd = some session)
    {frames : List (List UInt8)} {rest : List UInt8}
    (framed : Framed messageCutter session.recvBuffer frames rest) {passes : Nat}
    (enough : frames.length < passes) :
    frameLoop fd passes sessions =
      .ok (sessions.setBuffer fd rest, frames.filterMap (RawMessage.ofFrame session.traderId)) := by
  generalize buffered : session.recvBuffer = buffer at framed
  -- the loop consumes the frames in order; each pass leaves a session with a shorter buffer
  induction framed generalizing sessions session passes with
  | done incomplete =>
    subst buffered
    cases passes with
    | zero => contradiction
    | succ passes =>
      simp only [frameLoop, SessionManager.getSession, found, framePass_of_incomplete incomplete]
      rw [SessionManager.setBuffer_self found]
      rfl
  | @frame _ length frames rest complete positive later ih =>
    subst buffered
    cases passes with
    | zero => contradiction
    | succ passes =>
      have next := SessionManager.setBuffer_sessions found
        (session.recvBuffer.drop length) fd
      rw [if_pos rfl] at next
      have fewer : frames.length < passes := Nat.lt_of_succ_lt_succ enough
      have tail := ih next fewer rfl
      simp only [frameLoop, SessionManager.getSession, found, framePass_of_complete complete, tail,
        bind, Except.bind]
      rw [SessionManager.setBuffer_setBuffer found, List.filterMap_cons]
      cases RawMessage.ofFrame session.traderId (session.recvBuffer.take length) <;> rfl

/-- Once it reaches a header with length zero, the framing loop never stops. -/
theorem frameLoop_stalled (found : sessions.sessions fd = some session)
    (stalls : Stalls messageCutter session.recvBuffer) (passes : Nat) :
    frameLoop fd passes sessions = .error .running := by
  induction passes generalizing sessions session with
  | zero => rfl
  | succ passes ih =>
    cases stalls with
    | here zero =>
      simp only [frameLoop, SessionManager.getSession, found, framePass_of_complete zero,
        List.drop_zero, SessionManager.setBuffer_self found, ih found (.here zero), bind,
        Except.bind]
    | @later _ length complete positive stalls =>
      have next := SessionManager.setBuffer_sessions found (session.recvBuffer.drop length) fd
      rw [if_pos rfl] at next
      simp only [frameLoop, SessionManager.getSession, found, framePass_of_complete complete,
        ih next stalls, bind, Except.bind]

/-- What a pass leaves of a buffer: its first frame is complete and is taken off. -/
theorem cut_of_framePass {pushed : Option RawMessage} {rest : List UInt8}
    (passed : framePass session = some (pushed, rest)) :
    ∃ length, messageCutter.cut session.recvBuffer = some length ∧
      rest = session.recvBuffer.drop length := by
  cases complete : messageCutter.cut session.recvBuffer with
  | none =>
    rw [framePass_of_incomplete complete] at passed
    contradiction
  | some length =>
    rw [framePass_of_complete complete] at passed
    cases passed
    exact ⟨length, rfl, rfl⟩

/-- The buffers a session has at the head of the framing loop. -/
inductive AtLoopHead (session : ClientSession) : List UInt8 → Prop where
  /-- The buffer the loop starts with. -/
  | start : AtLoopHead session session.recvBuffer
  /-- What a pass leaves. -/
  | pass {buffer rest : List UInt8} {pushed : Option RawMessage} (head : AtLoopHead session buffer)
      (passed : framePass { session with recvBuffer := buffer } = some (pushed, rest)) :
      AtLoopHead session rest

/-- The framing loop stops, pushes no more messages than there are bytes, and every pass that does
not stop shrinks the buffer. -/
structure FramingTerminates (sessions : SessionManager) (fd : Fd) (session : ClientSession) :
    Prop where
  /-- After some passes the loop has stopped. -/
  stops : ∃ passes next messages, frameLoop fd passes sessions = .ok (next, messages) ∧
    messages.length ≤ session.recvBuffer.length
  /-- A pass that goes on leaves less. -/
  shrinks : ∀ buffer pushed rest, AtLoopHead session buffer →
    framePass { session with recvBuffer := buffer } = some (pushed, rest) →
    rest.length < buffer.length

/-- A loop that does not stall at first does not stall later. -/
theorem AtLoopHead.not_stalls {buffer : List UInt8} (head : AtLoopHead session buffer)
    (moves : ¬Stalls messageCutter session.recvBuffer) : ¬Stalls messageCutter buffer := by
  induction head with
  | start => exact moves
  | pass head passed ih =>
    obtain ⟨length, complete, rfl⟩ := cut_of_framePass passed
    intro stalls
    apply ih
    rcases Nat.eq_zero_or_pos length with zero | positive
    · subst zero
      exact .here complete
    · exact .later complete positive stalls

/-- The framing loop terminates exactly when taking messages off the buffer never reaches a header
with length zero. -/
theorem framingTerminates_iff (found : sessions.sessions fd = some session) :
    FramingTerminates sessions fd session ↔ ¬Stalls messageCutter session.recvBuffer := by
  constructor
  · intro terminates stalls
    obtain ⟨passes, next, messages, stopped, -⟩ := terminates.stops
    rw [frameLoop_stalled found stalls] at stopped
    contradiction
  · intro moves
    obtain ⟨frames, rest, framed⟩ := framed_of_not_stalls messageCutter _ moves
    constructor
    · refine ⟨frames.length + 1, _, _, frameLoop_framed found framed (Nat.lt_succ_self _), ?_⟩
      have fewer := List.length_filterMap_le (RawMessage.ofFrame session.traderId) frames
      exact Nat.le_trans fewer framed.length_le
    · intro buffer pushed left head passed
      obtain ⟨length, complete, rfl⟩ := cut_of_framePass passed
      have positive : length ≠ 0 := by
        rintro rfl
        exact head.not_stalls moves (.here complete)
      have received : length ≤ buffer.length := messageCutter.received complete
      change (buffer.drop length).length < buffer.length
      rw [List.length_drop]
      omega

/-- A complete message and the start of another one. -/
theorem framingTerminates_iff_incomplete :
    FramingTerminates ((SessionManager.new.add 5 1).setBuffer 5 [3, 0, 7, 4]) 5
        ⟨5, 1, [3, 0, 7, 4]⟩ ↔ ¬Stalls messageCutter [3, 0, 7, 4] :=
  framingTerminates_iff rfl

/-- A header with length zero is pushed over and over. -/
theorem framingTerminates_fails_on_zero :
    ¬FramingTerminates ((SessionManager.new.add 5 1).setBuffer 5 [0, 0, 1]) 5
      ⟨5, 1, [0, 0, 1]⟩ := by
  intro terminates
  obtain ⟨passes, next, messages, stopped, -⟩ := terminates.stops
  have found : ((SessionManager.new.add 5 1).setBuffer 5 [0, 0, 1]).sessions 5 =
      some ⟨5, 1, [0, 0, 1]⟩ := rfl
  have zero : messageCutter.cut [0, 0, 1] = some 0 := by decide
  rw [frameLoop_stalled found (.here zero)] at stopped
  contradiction

/-- Chunks are appended to the session's buffer before the end of the loop. -/
theorem recvLoop_received (found : sessions.sessions fd = some session) (chunks : List Chunk)
    (last : RecvEnd) :
    recvLoop fd last sessions chunks =
      recvLoop fd last (sessions.setBuffer fd (session.recvBuffer ++ received chunks)) [] := by
  induction chunks generalizing sessions session with
  | nil => rw [received, List.flatMap_nil, List.append_nil, SessionManager.setBuffer_self found]
  | cons chunk chunks ih =>
    have next := SessionManager.setBuffer_sessions found (session.recvBuffer ++ chunk.bytes) fd
    rw [if_pos rfl] at next
    rw [recvLoop, SessionManager.getSession, found]
    simp only [ih next, SessionManager.setBuffer_setBuffer found, received, List.flatMap_cons,
      List.append_assoc]

/-- A callback pushes the frames of what was buffered and what arrived, and buffers the rest. -/
theorem onData_framed (found : sessions.sessions fd = some session) {chunks : List Chunk}
    {frames : List (List UInt8)} {rest : List UInt8}
    (framed : Framed messageCutter (session.recvBuffer ++ received chunks) frames rest) :
    onData sessions fd chunks .again =
      .ok (sessions.setBuffer fd rest, frames.filterMap (RawMessage.ofFrame session.traderId)) := by
  have next := SessionManager.setBuffer_sessions found (session.recvBuffer ++ received chunks) fd
  rw [if_pos rfl] at next
  have enough : frames.length < (session.recvBuffer ++ received chunks).length + 1 :=
    Nat.lt_succ_of_le framed.length_le
  simp only [onData, SessionManager.getSession, found, recvLoop_received found, recvLoop, bind,
    Except.bind]
  rw [frameLoop_framed next framed enough, SessionManager.setBuffer_setBuffer found]

/-- Bytes for an unknown descriptor are not read. -/
theorem onData_of_none (absent : sessions.sessions fd = none) (chunks : List Chunk)
    (last : RecvEnd) : onData sessions fd chunks last = .ok (sessions, []) := by
  simp only [onData, SessionManager.getSession, absent]

/-- Everything that the callbacks of a descriptor receive. -/
def Callback.stream (callbacks : List Callback) (fd : Fd) : List UInt8 :=
  (callbacks.filter (·.fd = fd)).flatMap fun callback => received callback.chunks

/-- Everything that the callbacks of a descriptor push. -/
def Callback.pushed (outputs : List (Fd × List RawMessage)) (fd : Fd) : List RawMessage :=
  (outputs.filter (·.1 = fd)).flatMap Prod.snd

namespace Callback

/-- The stream of a descriptor starts with what its first callback receives. -/
theorem stream_cons (callback : Callback) (callbacks : List Callback) (fd : Fd) :
    stream (callback :: callbacks) fd =
      (if callback.fd = fd then received callback.chunks else []) ++ stream callbacks fd := by
  by_cases same : callback.fd = fd <;> simp [stream, same]

/-- The messages of a descriptor start with what its first callback pushes. -/
theorem pushed_cons (output : Fd × List RawMessage) (outputs : List (Fd × List RawMessage))
    (fd : Fd) :
    pushed (output :: outputs) fd =
      (if output.1 = fd then output.2 else []) ++ pushed outputs fd := by
  by_cases same : output.1 = fd <;> simp [pushed, same]

/-- What a run of callbacks does to one descriptor. -/
structure Delivers (sessions last : SessionManager) (callbacks : List Callback)
    (outputs : List (Fd × List RawMessage)) (fd : Fd) : Prop where
  /-- A session frames its whole stream. -/
  session : ∀ session, sessions.sessions fd = some session → ∃ frames rest,
    Framed messageCutter (session.recvBuffer ++ stream callbacks fd) frames rest ∧
    pushed outputs fd = frames.filterMap (RawMessage.ofFrame session.traderId) ∧
    last.sessions fd = some { session with recvBuffer := rest }
  /-- Without a session nothing happens. -/
  absent : sessions.sessions fd = none → pushed outputs fd = [] ∧ last.sessions fd = none

/-- A callback on another descriptor delivers nothing here. -/
theorem Delivers.other {sessions next last : SessionManager} {callback : Callback}
    {callbacks : List Callback} {outputs : List (Fd × List RawMessage)} {fd : Fd}
    (delivers : Delivers next last callbacks outputs fd) (apart : callback.fd ≠ fd)
    (same : next.sessions fd = sessions.sessions fd) (messages : List RawMessage) :
    Delivers sessions last (callback :: callbacks) ((callback.fd, messages) :: outputs) fd where
  session := by
    intro session found
    rw [← same] at found
    rw [stream_cons, pushed_cons, if_neg apart, if_neg apart, List.nil_append, List.nil_append]
    exact delivers.session session found
  absent := by
    intro absent
    rw [← same] at absent
    rw [pushed_cons, if_neg apart, List.nil_append]
    exact delivers.absent absent

/-- A callback on a descriptor takes the first part of its stream. -/
theorem Delivers.own {sessions last : SessionManager} {session : ClientSession}
    {callback : Callback} {callbacks : List Callback} {outputs : List (Fd × List RawMessage)}
    (found : sessions.sessions callback.fd = some session) {frames : List (List UInt8)}
    {rest : List UInt8}
    (framed : Framed messageCutter (session.recvBuffer ++ received callback.chunks) frames rest)
    (delivers : Delivers (sessions.setBuffer callback.fd rest) last callbacks outputs
      callback.fd) :
    Delivers sessions last (callback :: callbacks)
      ((callback.fd, frames.filterMap (RawMessage.ofFrame session.traderId)) :: outputs)
      callback.fd where
  session := by
    intro again foundAgain
    rw [found, Option.some.injEq] at foundAgain
    subst foundAgain
    have next := SessionManager.setBuffer_sessions found rest callback.fd
    rw [if_pos rfl] at next
    obtain ⟨moreFrames, lastRest, more, pushes, keeps⟩ := delivers.session _ next
    refine ⟨frames ++ moreFrames, lastRest, ?_, ?_, keeps⟩
    · rw [stream_cons, if_pos rfl, ← List.append_assoc]
      exact framed.append more
    · rw [pushed_cons, if_pos rfl, pushes, List.filterMap_append]
  absent := by
    intro absent
    rw [found] at absent
    contradiction

/-- No complete message waits in a session's buffer. -/
def Drained (sessions : SessionManager) : Prop :=
  ∀ fd session, sessions.sessions fd = some session →
    messageCutter.cut session.recvBuffer = none

/-- No session's stream reaches a header with length zero. -/
def Moves (sessions : SessionManager) (callbacks : List Callback) : Prop :=
  ∀ fd session, sessions.sessions fd = some session →
    ¬Stalls messageCutter (session.recvBuffer ++ stream callbacks fd)

/-- Without sessions no message waits. -/
theorem drained_new : Drained SessionManager.new := by
  intro fd session found
  simp [SessionManager.new] at found

/-- A new session's buffer is empty. -/
theorem Drained.add {sessions : SessionManager} (drained : Drained sessions) (fd : Fd)
    (traderId : TraderId) : Drained (sessions.add fd traderId) := by
  intro other session found
  rw [SessionManager.add_sessions] at found
  split at found
  · cases found
    rfl
  · exact drained other session found

/-- Without a session, the streams after a callback are as they were. -/
theorem Moves.skipped {sessions : SessionManager} {callback : Callback} {callbacks : List Callback}
    (moves : Moves sessions (callback :: callbacks))
    (missing : sessions.sessions callback.fd = none) : Moves sessions callbacks := by
  intro fd session registered
  have apart : callback.fd ≠ fd := by
    rintro rfl
    rw [missing] at registered
    contradiction
  have whole := moves fd session registered
  rwa [stream_cons, if_neg apart, List.nil_append] at whole

/-- After the bytes of a callback have been framed, the streams that are left move on. -/
theorem Moves.framed {sessions : SessionManager} {callback : Callback} {callbacks : List Callback}
    (moves : Moves sessions (callback :: callbacks)) {session : ClientSession}
    (found : sessions.sessions callback.fd = some session) {frames : List (List UInt8)}
    {rest : List UInt8}
    (framed : Framed messageCutter (session.recvBuffer ++ received callback.chunks) frames rest) :
    Moves (sessions.setBuffer callback.fd rest) callbacks := by
  intro fd other registered
  rw [SessionManager.setBuffer_sessions found] at registered
  split at registered
  · rename_i same
    cases registered
    subst same
    have whole := moves callback.fd session found
    rw [stream_cons, if_pos rfl, ← List.append_assoc] at whole
    exact fun stalls => whole (framed.stalls_append stalls)
  · rename_i apart
    have later := moves fd other registered
    rwa [stream_cons, if_neg (Ne.symm apart), List.nil_append] at later

/-- After the bytes of a descriptor have been framed, no complete message waits. -/
theorem Drained.framed {sessions : SessionManager} (drained : Drained sessions) {fd : Fd}
    {session : ClientSession} (found : sessions.sessions fd = some session)
    {stream : List UInt8} {frames : List (List UInt8)} {rest : List UInt8}
    (framed : Framed messageCutter stream frames rest) : Drained (sessions.setBuffer fd rest) := by
  intro other someone registered
  rw [SessionManager.setBuffer_sessions found] at registered
  split at registered
  · cases registered
    exact framed.incomplete
  · exact drained other someone registered

/-- Every run of callbacks on streams that do not stall delivers on every descriptor. -/
theorem run_delivers (callbacks : List Callback) (sessions : SessionManager)
    (drained : Drained sessions) (moves : Moves sessions callbacks) :
    ∃ last outputs, run Callback.step sessions callbacks = some (last, outputs) ∧
      ∀ fd, Delivers sessions last callbacks outputs fd := by
  induction callbacks generalizing sessions with
  | nil =>
    refine ⟨sessions, [], rfl, fun fd => ⟨?_, fun absent => ⟨rfl, absent⟩⟩⟩
    intro session found
    refine ⟨[], session.recvBuffer, ?_, rfl, found⟩
    rw [stream, List.filter_nil, List.flatMap_nil, List.append_nil]
    exact .done (drained fd session found)
  | cons callback callbacks ih =>
    cases found : sessions.sessions callback.fd with
    | none =>
      have stepped : Callback.step sessions callback = some (sessions, callback.fd, []) := by
        rw [Callback.step, onData_of_none found]
      obtain ⟨last, outputs, ran, delivers⟩ := ih sessions drained (moves.skipped found)
      refine ⟨last, (callback.fd, []) :: outputs, ?_, ?_⟩
      · rw [run_cons_of_step stepped, ran]
        rfl
      · intro fd
        by_cases same : callback.fd = fd
        · subst same
          refine ⟨?_, ?_⟩
          · intro session registered
            rw [found] at registered
            contradiction
          · intro absent
            rw [pushed_cons, if_pos rfl, List.nil_append]
            exact (delivers callback.fd).absent absent
        · exact (delivers fd).other same rfl []
    | some session =>
      have whole := moves callback.fd session found
      rw [stream_cons, if_pos rfl, ← List.append_assoc] at whole
      obtain ⟨frames, rest, framed⟩ := framed_of_not_stalls messageCutter _
        (fun stalls => whole (stalls.append _))
      have stepped : Callback.step sessions callback = some (sessions.setBuffer callback.fd rest,
          callback.fd, frames.filterMap (RawMessage.ofFrame session.traderId)) := by
        rw [Callback.step, onData_framed found framed]
      have kept := SessionManager.setBuffer_sessions found rest
      obtain ⟨last, outputs, ran, delivers⟩ := ih (sessions.setBuffer callback.fd rest)
        (drained.framed found framed) (moves.framed found framed)
      refine ⟨last,
        (callback.fd, frames.filterMap (RawMessage.ofFrame session.traderId)) :: outputs, ?_, ?_⟩
      · rw [run_cons_of_step stepped, ran]
        rfl
      · intro fd
        by_cases same : callback.fd = fd
        · subst same
          exact .own found framed (delivers callback.fd)
        · refine (delivers fd).other same ?_ _
          rw [kept, if_neg (Ne.symm same)]

/-- However the streams are cut into chunks and the callbacks of different descriptors follow one
another, each descriptor's messages and remaining bytes are those of its own stream framed in one
go. -/
theorem run_framed_in_one_go (sessions : SessionManager) (drained : Drained sessions)
    (callbacks : List Callback) (moves : Moves sessions callbacks) :
    ∃ last outputs, run Callback.step sessions callbacks = some (last, outputs) ∧
      (∀ fd session, sessions.sessions fd = some session → ∃ frames rest,
        Framed messageCutter (session.recvBuffer ++ stream callbacks fd) frames rest ∧
        frameLoop fd ((session.recvBuffer ++ stream callbacks fd).length + 1)
          (sessions.setBuffer fd (session.recvBuffer ++ stream callbacks fd)) =
            .ok (sessions.setBuffer fd rest, pushed outputs fd) ∧
        pushed outputs fd = frames.filterMap (RawMessage.ofFrame session.traderId) ∧
        last.sessions fd = some { session with recvBuffer := rest }) ∧
      (∀ others otherLast otherOutputs fd, Moves sessions others →
        run Callback.step sessions others = some (otherLast, otherOutputs) →
        stream others fd = stream callbacks fd →
        pushed otherOutputs fd = pushed outputs fd ∧
        otherLast.sessions fd = last.sessions fd) := by
  obtain ⟨last, outputs, ran, delivers⟩ := run_delivers callbacks sessions drained moves
  refine ⟨last, outputs, ran, ?_, ?_⟩
  · intro fd session found
    obtain ⟨frames, rest, framed, pushes, keeps⟩ := (delivers fd).session session found
    refine ⟨frames, rest, framed, ?_, pushes, keeps⟩
    have next := SessionManager.setBuffer_sessions found
      (session.recvBuffer ++ stream callbacks fd) fd
    rw [if_pos rfl] at next
    rw [frameLoop_framed next framed (Nat.lt_succ_of_le framed.length_le),
      SessionManager.setBuffer_setBuffer found, pushes]
  · intro others otherLast otherOutputs fd otherMoves otherRan same
    obtain ⟨_, _, again, otherDelivers⟩ := run_delivers others sessions drained otherMoves
    rw [otherRan] at again
    cases again
    cases found : sessions.sessions fd with
    | none =>
      obtain ⟨noMessages, noSession⟩ := (delivers fd).absent found
      obtain ⟨otherNoMessages, otherNoSession⟩ := (otherDelivers fd).absent found
      exact ⟨by rw [otherNoMessages, noMessages], by rw [otherNoSession, noSession]⟩
    | some session =>
      obtain ⟨frames, rest, framed, pushes, keeps⟩ := (delivers fd).session session found
      obtain ⟨otherFrames, otherRest, otherFramed, otherPushes, otherKeeps⟩ :=
        (otherDelivers fd).session session found
      rw [same] at otherFramed
      obtain ⟨sameFrames, sameRest⟩ := otherFramed.unique framed
      subst sameFrames sameRest
      exact ⟨by rw [otherPushes, pushes], by rw [otherKeeps, keeps]⟩

/-- A message cut inside its header, with another client's bytes in between: the message is pushed
for its own client, and both buffers keep the start of the next one. -/
theorem run_framed_in_one_go_interleaved :
    ∃ last outputs raw, run Callback.step ((SessionManager.new.add 5 1).add 6 2)
      [⟨5, [⟨[3], by decide, by decide⟩]⟩, ⟨6, [⟨[4, 0, 9], by decide, by decide⟩]⟩,
        ⟨5, [⟨[0, 7, 4], by decide, by decide⟩]⟩] = some (last, outputs) ∧
      RawMessage.ofFrame 1 [3, 0, 7] = some raw ∧
      pushed outputs 5 = [raw] ∧ last.sessions 5 = some ⟨5, 1, [4]⟩ ∧
      pushed outputs 6 = [] ∧ last.sessions 6 = some ⟨6, 2, [4, 0, 9]⟩ := by
  have first : Framed messageCutter [3, 0, 7, 4] [[3, 0, 7]] [4] :=
    .frame (show messageCutter.cut [3, 0, 7, 4] = some 3 by decide) (by decide) (.done (by decide))
  have second : Framed messageCutter [4, 0, 9] [] [4, 0, 9] := .done (by decide)
  obtain ⟨last, outputs, ran, delivers, -⟩ :=
    run_framed_in_one_go ((SessionManager.new.add 5 1).add 6 2) ((drained_new.add 5 1).add 6 2)
    [⟨5, [⟨[3], by decide, by decide⟩]⟩, ⟨6, [⟨[4, 0, 9], by decide, by decide⟩]⟩,
      ⟨5, [⟨[0, 7, 4], by decide, by decide⟩]⟩]
    (by
      intro fd session found
      simp only [SessionManager.add, SessionManager.new, Function.update_apply] at found
      split at found
      · rename_i same
        subst same
        cases found
        exact second.not_stalls
      · split at found
        · rename_i same
          subst same
          cases found
          exact first.not_stalls
        · contradiction)
  obtain ⟨frames, rest, framed, -, pushes, keeps⟩ := delivers 5 ⟨5, 1, []⟩ rfl
  obtain ⟨rfl, rfl⟩ := framed.unique first
  obtain ⟨otherFrames, otherRest, otherFramed, -, otherPushes, otherKeeps⟩ :=
    delivers 6 ⟨6, 2, []⟩ rfl
  obtain ⟨rfl, rfl⟩ := otherFramed.unique second
  exact ⟨last, outputs, _, ran, rfl, pushes, keeps, otherPushes, otherKeeps⟩

end Callback

/-! ## A client that disconnects -/

/-- What a callback that ends a connection should do: push every complete frame, unregister the
session, and touch it only before that. -/
def TearsDown (sessions : SessionManager) (fd : Fd) (session : ClientSession)
    (chunks : List Chunk) (last : RecvEnd) : Prop :=
  ∃ next frames rest, Framed messageCutter (session.recvBuffer ++ received chunks) frames rest ∧
    onData sessions fd chunks last =
      .ok (next, frames.filterMap (RawMessage.ofFrame session.traderId)) ∧
    next.sessions fd = none

/-- A callback that removes the session goes on to read its buffer. -/
theorem onData_removed (found : sessions.sessions fd = some session) (chunks : List Chunk)
    {last : RecvEnd} (ends : last ≠ .again) :
    onData sessions fd chunks last = .error .removed := by
  have gone (buffer : List UInt8) :
      ((sessions.setBuffer fd buffer).remove fd).sessions fd = none := by
    rw [SessionManager.remove_sessions, if_pos rfl]
  cases last with
  | again => contradiction
  | closed =>
    simp only [onData, SessionManager.getSession, found, recvLoop_received found, recvLoop, bind,
      Except.bind, frameLoop, gone]
  | failed =>
    simp only [onData, SessionManager.getSession, found, recvLoop_received found, recvLoop, bind,
      Except.bind, frameLoop, gone]

/-- No callback that ends a connection touches the session only while it is registered. -/
theorem not_tearsDown (found : sessions.sessions fd = some session) (chunks : List Chunk)
    {last : RecvEnd} (ends : last ≠ .again) :
    onData sessions fd chunks last = .error .removed ∧
      ¬TearsDown sessions fd session chunks last := by
  have faults := onData_removed found chunks ends
  refine ⟨faults, ?_⟩
  rintro ⟨next, frames, rest, -, finishes, -⟩
  rw [faults] at finishes
  contradiction

/-- A client that sends a message and closes at once. -/
theorem not_tearsDown_closed :
    ¬TearsDown (SessionManager.new.add 5 1) 5 ⟨5, 1, []⟩ [⟨[3, 0, 7], by decide, by decide⟩]
      .closed :=
  (not_tearsDown rfl _ (by decide)).2

/-- The bytes frame well, but the callback reads a removed session. -/
theorem tearsDown_fails_on_close :
    Framed messageCutter [3, 0, 7] [[3, 0, 7]] [] ∧
    ¬TearsDown (SessionManager.new.add 5 1) 5 ⟨5, 1, []⟩ [⟨[3, 0, 7], by decide, by decide⟩]
      .closed := by
  have first : messageCutter.cut [3, 0, 7] = some 3 := by decide
  refine ⟨.frame first (by decide) (.done (by decide)), ?_⟩
  rintro ⟨next, frames, rest, -, finishes, -⟩
  rw [onData_removed rfl _ (by decide)] at finishes
  contradiction

end Exchange
