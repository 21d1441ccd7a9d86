import ExchangeSimulator.Verif.Receiver
import Mathlib.Data.List.Sublists

/-!
# Short writes

A connection carries what the kernel takes of each message. A call that takes the
whole message or nothing leaves a stream of complete messages, and a client reads
it as such. A call that takes a part of a message leaves the stream inside it. The
matching thread does not look at the result and goes on with the next message, so
its bytes take the place of those that are missing. Only when nothing more is
taken after a short write is the stream still what the exchange meant to send.
-/

namespace Exchange

open Library

namespace Send

/-- A part of the message was taken, and not all of it. -/
def Short (send : Send) : Prop := 0 < send.taken ∧ send.taken < send.event.bytes.length

instance (send : Send) : Decidable send.Short :=
  inferInstanceAs (Decidable (0 < send.taken ∧ send.taken < send.event.bytes.length))

/-- Nothing is taken by a later call once a call was short. -/
def Spares (first later : Send) : Prop := first.Short → later.taken = 0

instance : DecidableRel Spares := fun first later =>
  inferInstanceAs (Decidable (first.Short → later.taken = 0))

/-- What a call puts on the connection. -/
def part (send : Send) : List UInt8 := send.event.bytes.take send.taken

end Send

/-- The parts follow one another. -/
theorem written_eq (sends : List Send) : written sends = sends.flatMap Send.part := by
  have onto (stream : List UInt8) :
      sends.foldl Send.write stream = stream ++ sends.flatMap Send.part := by
    induction sends generalizing stream with
    | nil => simp
    | cons send sends ih =>
      rw [List.foldl_cons, ih, Send.write, List.append_assoc, List.flatMap_cons, Send.part]
  exact onto []

/-- What was received is a number of complete messages, all of them sent and in their order, and
then at most a part of one that was sent after them. -/
structure Intact (sent kept : List ServerEvent) (received : List UInt8) : Prop where
  /-- The complete messages are some of those sent. -/
  order : kept.Sublist sent
  /-- The bytes. -/
  bytes : ∃ piece, received = kept.flatMap ServerEvent.bytes ++ piece ∧
    (piece = [] ∨ ∃ event, (kept ++ [event]).Sublist sent ∧ piece <+: event.bytes ∧
      piece.length < event.bytes.length)

namespace Intact

variable {sent kept : List ServerEvent} {received : List UInt8}

/-- Nothing has been received. -/
theorem nil (sent : List ServerEvent) : Intact sent [] [] :=
  ⟨List.nil_sublist sent, [], rfl, Or.inl rfl⟩

/-- A part of the first message. -/
theorem part {event : ServerEvent} {piece : List UInt8} (front : piece <+: event.bytes)
    (proper : piece.length < event.bytes.length) (later : List ServerEvent) :
    Intact (event :: later) [] piece :=
  ⟨List.nil_sublist _, piece, rfl, Or.inr ⟨event, by simp, front, proper⟩⟩

/-- A message of which nothing was taken. -/
theorem skip (intact : Intact sent kept received) (event : ServerEvent) :
    Intact (event :: sent) kept received where
  order := intact.order.cons event
  bytes := by
    obtain ⟨piece, split, rest⟩ := intact.bytes
    refine ⟨piece, split, rest.imp_right ?_⟩
    rintro ⟨next, later, front, proper⟩
    exact ⟨next, later.cons event, front, proper⟩

/-- A message that was taken whole. -/
theorem whole (intact : Intact sent kept received) (event : ServerEvent) :
    Intact (event :: sent) (event :: kept) (event.bytes ++ received) where
  order := intact.order.cons_cons event
  bytes := by
    obtain ⟨piece, split, rest⟩ := intact.bytes
    refine ⟨piece, by rw [split, List.flatMap_cons, List.append_assoc], rest.imp_right ?_⟩
    rintro ⟨next, later, front, proper⟩
    exact ⟨next, later.cons_cons event, front, proper⟩

/-- The complete messages come first, and what follows is shorter than a message. -/
theorem front (intact : Intact sent kept received) : kept ∈ sent.sublists ∧
    kept.flatMap ServerEvent.bytes <+: received ∧
    (received.length = (kept.flatMap ServerEvent.bytes).length ∨ ∃ event ∈ sent,
      received.length < (kept.flatMap ServerEvent.bytes).length + event.bytes.length) := by
  obtain ⟨piece, rfl, part⟩ := intact.bytes
  refine ⟨List.mem_sublists.mpr intact.order, List.prefix_append _ _, ?_⟩
  rw [List.length_append]
  rcases part with rfl | ⟨event, later, -, proper⟩
  · exact Or.inl (Nat.add_zero _)
  · exact Or.inr ⟨event, later.mem (by simp), Nat.add_lt_add_left proper _⟩

end Intact

/-- While nothing is taken after a short write, whatever part of the stream a client has received
is intact. -/
theorem intact_of_spares (sends : List Send) (spares : sends.Pairwise Send.Spares)
    (received : List UInt8) (arrived : received <+: written sends) :
    ∃ kept, Intact (sends.map Send.event) kept received := by
  rw [written_eq] at arrived
  induction sends generalizing received with
  | nil =>
    rw [List.flatMap_nil, List.prefix_nil] at arrived
    subst arrived
    exact ⟨[], Intact.nil []⟩
  | cons send sends ih =>
    obtain ⟨after, rest⟩ := List.pairwise_cons.mp spares
    rw [List.flatMap_cons] at arrived
    by_cases short : send.Short
    · -- nothing follows the part
      have silent : sends.flatMap Send.part = [] := by
        rw [List.flatMap_eq_nil_iff]
        intro later member
        rw [Send.part, after later member short, List.take_zero]
      rw [silent, List.append_nil] at arrived
      have length := arrived.length_le
      rw [Send.part, List.length_take] at length
      have proper := short.2
      exact ⟨[], Intact.part (arrived.trans (List.take_prefix _ _)) (by omega) _⟩
    · by_cases none : send.taken = 0
      · rw [Send.part, none, List.take_zero, List.nil_append] at arrived
        obtain ⟨kept, intact⟩ := ih rest received arrived
        exact ⟨kept, intact.skip send.event⟩
      · have all : send.part = send.event.bytes := by
          have fits := send.fits
          have taken : send.taken = send.event.bytes.length := by
            unfold Send.Short at short
            omega
          rw [Send.part, taken, List.take_length]
        rw [all] at arrived
        by_cases long : send.event.bytes.length ≤ received.length
        · obtain ⟨more, rfl⟩ :=
            List.prefix_of_prefix_length_le (List.prefix_append _ _) arrived long
          rw [List.prefix_append_right_inj] at arrived
          obtain ⟨kept, intact⟩ := ih rest more arrived
          exact ⟨send.event :: kept, intact.whole send.event⟩
        · have front := List.prefix_of_prefix_length_le arrived (List.prefix_append _ _)
            (Nat.le_of_lt (Nat.not_le.mp long))
          exact ⟨[], Intact.part front (Nat.not_le.mp long) _⟩

/-- A client on an open connection has decoded the complete messages of an intact stream. -/
theorem Intact.decoded {sent kept : List ServerEvent} {received : List UInt8}
    (intact : Intact sent kept received) (arrivals : List Nat) (stale : Nat → Body) :
    ∃ client standing, (Client.new ⟨received, arrivals, .waiting⟩).recvThread stale =
      some (client, standing) ∧ client.HasReceived kept := by
  obtain ⟨piece, rfl, part⟩ := intact.bytes
  obtain ⟨iterations, client, ran, running, pending, ends, received⟩ :=
    Client.recvThread_reaches stale kept piece arrivals .waiting
  by_cases short : piece.length < MsgHeader.layout.size
  · obtain ⟨_, waits⟩ := Client.recvThreadFunc_waiting stale (iterations + 1) running
      (by rw [pending]; exact short) ends
    exact ⟨_, _, ran.trans waits, received.handled, received.mapped⟩
  · rcases part with rfl | ⟨event, -, front, proper⟩
    · exact absurd (by decide) short
    · have cut : client.sock.pending = event.bytes.take piece.length :=
        pending.trans (List.prefix_iff_eq_take.mp front)
      obtain ⟨_, _, waits⟩ := Client.recvThreadFunc_cut_waiting stale (iterations + 1) running
        (Nat.not_lt.mp short) proper cut ends
      exact ⟨_, _, ran.trans waits, received.handled, received.mapped⟩

/-- In every run of sends on a connection in which nothing is taken after a short write, whatever
part of the stream the client has received consists of complete messages, some of those sent in
their order, and at most a part of a later one; the client has decoded exactly these messages. -/
theorem run_intact (sends : List Send) (spares : sends.Pairwise Send.Spares)
    (received : List UInt8) (arrived : received <+: written sends) :
    ∃ kept, Intact (sends.map Send.event) kept received ∧
      ∀ arrivals stale, ∃ client standing,
        (Client.new ⟨received, arrivals, .waiting⟩).recvThread stale = some (client, standing) ∧
          client.HasReceived kept := by
  obtain ⟨kept, intact⟩ := intact_of_spares sends spares received arrived
  exact ⟨kept, intact, intact.decoded⟩

/-- A confirm is taken whole, an update not at all, and of a second confirm five bytes, after which
the socket is full. -/
theorem run_intact_full :
    ∃ kept, Intact
      [Client.confirmed .NewAck 7 1, .ofUpdate ⟨0, 1, Side.Buy, 100, 5, .New⟩,
        Client.confirmed .CancelAck 0 1, .ofUpdate ⟨0, 1, Side.Buy, 100, 5, .Cancel⟩] kept
      (written
        [⟨Client.confirmed .NewAck 7 1, 19, by decide⟩,
          ⟨.ofUpdate ⟨0, 1, Side.Buy, 100, 5, .New⟩, 0, by decide⟩,
          ⟨Client.confirmed .CancelAck 0 1, 5, by decide⟩,
          ⟨.ofUpdate ⟨0, 1, Side.Buy, 100, 5, .Cancel⟩, 0, by decide⟩]) :=
  (run_intact
    [⟨Client.confirmed .NewAck 7 1, 19, by decide⟩,
      ⟨.ofUpdate ⟨0, 1, Side.Buy, 100, 5, .New⟩, 0, by decide⟩,
      ⟨Client.confirmed .CancelAck 0 1, 5, by decide⟩,
      ⟨.ofUpdate ⟨0, 1, Side.Buy, 100, 5, .Cancel⟩, 0, by decide⟩]
    (by decide) _ (List.prefix_refl _)).imp fun _ intact => intact.1

/-- Three bytes of a confirm are taken and then a whole confirm of another order. What a client
receives is not intact: it decodes a confirm that was never sent and then an unknown message. -/
theorem intact_fails_on_short_write :
    (¬∃ kept, Intact [Client.confirmed .ModifyAck 0 1, Client.confirmed .ModifyAck 0 2] kept
      (written [⟨Client.confirmed .ModifyAck 0 1, 3, by decide⟩,
        ⟨Client.confirmed .ModifyAck 0 2, 11, by decide⟩])) ∧
    ((Client.new ⟨written [⟨Client.confirmed .ModifyAck 0 1, 3, by decide⟩,
        ⟨Client.confirmed .ModifyAck 0 2, 11, by decide⟩], [], .waiting⟩).recvThread
      fun _ => Client.zeroBody).map (fun ran => ran.1.handled) =
        some [.decoded (.modifyOrderConfirm ⟨⟨11, MsgType.ModifyOrderConfirm⟩, 0x20b000b⟩),
          .unknown ⟨0⟩ 0] := by
  refine ⟨?_, by decide⟩
  rintro ⟨kept, intact⟩
  obtain ⟨member, whole⟩ := intact.front
  clear intact
  -- each of the four sublists of what was sent
  revert kept
  decide

end Exchange
