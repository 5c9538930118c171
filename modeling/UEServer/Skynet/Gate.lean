import UEServer.Library.Bytes

/-!
# The gate

`service-src/service_gate.c` and `service-src/databuffer.h` of skynet, for connections whose
messages have headers of three bytes (the header type `M`).  The bytes of a socket come in pieces of
any lengths, and the gate forwards the messages that were sent over it.
-/

namespace UEServer.Skynet

def headerSize : Nat := 3

/-- `string.pack(">s3", data)`, which raises for a string that is too long. -/
def packS3 (data : Bytes) : Option Bytes :=
  if data.length < 256 ^ headerSize then some (Bytes.ofNatBe headerSize data.length ++ data)
  else none

/-- `databuffer`, with the bytes of its messages one after the other. -/
structure Databuffer where
  header : Nat
  /-- The bytes from `offset` on. -/
  bytes : Bytes

/-- The end of `databuffer_readheader`. -/
def Databuffer.checkHeader (buffer : Databuffer) : Option Nat × Databuffer :=
  (if buffer.bytes.length < buffer.header then none else some buffer.header, buffer)

/-- `databuffer_readheader`. -/
def Databuffer.readheader (buffer : Databuffer) : Option Nat × Databuffer :=
  if buffer.header = 0 then
    if buffer.bytes.length < headerSize then (none, buffer)
    else
      Databuffer.checkHeader
        { header := Bytes.toNatBe (buffer.bytes.take headerSize)
          bytes := buffer.bytes.drop headerSize }
  else buffer.checkHeader

structure Connection where
  buffer : Databuffer
  closing : Bool
  forwarded : List Bytes

/-- `_forward` and `databuffer_reset`. -/
def Connection.forward (conn : Connection) (buffer : Databuffer) (size : Nat) : Connection :=
  { conn with
    buffer := { header := 0, bytes := buffer.bytes.drop size }
    forwarded := conn.forwarded ++ [buffer.bytes.take size] }

/-- The loop of `dispatch_message`, for a number of rounds. -/
def Connection.dispatchLoop : Nat → Connection → Connection
  | 0, conn => conn
  | rounds + 1, conn =>
      match conn.buffer.readheader with
      | (none, buffer) => { conn with buffer }
      | (some size, buffer) =>
          if size = 0 then dispatchLoop rounds { conn with buffer }
          else if 0x1000000 ≤ size then
            { conn with
              buffer := { header := 0, bytes := [] }
              closing := true }
          else dispatchLoop rounds (conn.forward buffer size)

/-- `dispatch_message`: every round but the last takes a byte. -/
def Connection.dispatchMessage (conn : Connection) (data : Bytes) : Connection :=
  Connection.dispatchLoop (conn.buffer.bytes.length + data.length + 1)
    { conn with buffer := { conn.buffer with bytes := conn.buffer.bytes ++ data } }

def Connection.accepted : Connection where
  buffer := { header := 0, bytes := [] }
  closing := false
  forwarded := []

/-- What `packS3` makes of messages. -/
def stream (messages : List Bytes) : Bytes :=
  messages.flatMap fun message => Bytes.ofNatBe headerSize message.length ++ message

/-- The message can be sent: it has a byte, and its length fits in the header. -/
def Sendable (message : Bytes) : Prop :=
  0 < message.length ∧ message.length < 256 ^ headerSize

/-- What is in the buffer and what is still to come are the messages, of which the length of the
first may have been read. -/
def Databuffer.Holds (buffer : Databuffer) (unread : Bytes) (messages : List Bytes) : Prop :=
  (buffer.header = 0 ∧ buffer.bytes ++ unread = stream messages) ∨
    ∃ message rest, messages = message :: rest ∧ buffer.header = message.length ∧
      buffer.bytes ++ unread = message ++ stream rest

/-- The messages are those that were forwarded and those to come. -/
structure Connection.Passes (conn : Connection) (unread : Bytes) (messages : List Bytes) :
    Prop where
  sendable : ∀ message ∈ messages, Sendable message
  split : ∃ rest, messages = conn.forwarded ++ rest ∧ conn.buffer.Holds unread rest

/-- What `databuffer_readheader` gives for a buffer that holds messages. -/
inductive Header (limit : Nat) (unread : Bytes) (messages : List Bytes) :
    Option Nat × Databuffer → Prop where
  | partly {buffer : Databuffer} (holds : buffer.Holds unread messages)
      (ended : unread = [] → messages = []) : Header limit unread messages (none, buffer)
  | wholly {message : Bytes} {rest : List Bytes} {bytes : Bytes}
      (split : messages = message :: rest) (front : bytes.take message.length = message)
      (shorter : (bytes.drop message.length).length < limit)
      (others : bytes.drop message.length ++ unread = stream rest) :
      Header limit unread messages
        (some message.length, { header := message.length, bytes })

theorem stream_cons (message : Bytes) (messages : List Bytes) :
    stream (message :: messages) =
      Bytes.ofNatBe headerSize message.length ++ (message ++ stream messages) := by
  rfl

theorem checkHeader_header {message bytes unread : Bytes} {rest : List Bytes} {limit : Nat}
    (sendable : Sendable message) (joined : bytes ++ unread = message ++ stream rest)
    (shorter : bytes.length ≤ limit) :
    Header limit unread (message :: rest)
      (Databuffer.checkHeader { header := message.length, bytes }) := by
  unfold Databuffer.checkHeader
  split
  · rename_i missing
    refine .partly (.inr ⟨message, rest, rfl, rfl, joined⟩) fun ended => ?_
    rw [ended, List.append_nil] at joined
    have lengths := congrArg List.length joined
    rw [List.length_append] at lengths
    change bytes.length < message.length at missing
    omega
  · rename_i enough
    have enough : message.length ≤ bytes.length := not_lt.mp enough
    have positive := sendable.1
    have front := congrArg (List.take message.length) joined
    have others := congrArg (List.drop message.length) joined
    rw [List.take_append_of_le_length enough, List.take_left] at front
    rw [List.drop_append_of_le_length enough, List.drop_left] at others
    refine .wholly rfl front ?_ others
    rw [List.length_drop]
    omega

variable {messages : List Bytes}

theorem readheader_header {buffer : Databuffer} {unread : Bytes}
    (sendable : ∀ message ∈ messages, Sendable message) (holds : buffer.Holds unread messages) :
    Header buffer.bytes.length unread messages buffer.readheader := by
  unfold Databuffer.readheader
  split
  · have joined : buffer.bytes ++ unread = stream messages := by
      rcases holds with ⟨-, joined⟩ | ⟨message, rest, rfl, headed, -⟩
      · exact joined
      · have positive := (sendable message List.mem_cons_self).1
        omega
    split
    · rename_i missing
      refine .partly holds fun ended => ?_
      cases messages with
      | nil => rfl
      | cons message rest =>
          rw [ended, List.append_nil, stream_cons] at joined
          rw [joined, List.length_append, Bytes.length_ofNatBe] at missing
          omega
    · rename_i enough
      have enough : headerSize ≤ buffer.bytes.length := not_lt.mp enough
      cases messages with
      | nil =>
          have lengths := congrArg List.length joined
          rw [List.length_append] at lengths
          have positive : 0 < headerSize := by decide
          have empty : (stream []).length = 0 := rfl
          omega
      | cons message rest =>
          obtain ⟨message_sendable, -⟩ := List.forall_mem_cons.mp sendable
          have length := Bytes.length_ofNatBe headerSize message.length
          rw [stream_cons] at joined
          have front := congrArg (List.take headerSize) joined
          have others := congrArg (List.drop headerSize) joined
          rw [List.take_append_of_le_length enough, List.take_left' length] at front
          rw [List.drop_append_of_le_length enough, List.drop_left' length] at others
          rw [front, Bytes.toNatBe_ofNatBe_of_lt message_sendable.2]
          refine checkHeader_header message_sendable others ?_
          rw [List.length_drop]
          omega
  · rename_i headed
    rcases holds with ⟨unheaded, -⟩ | ⟨message, rest, rfl, header, joined⟩
    · exact absurd unheaded headed
    · obtain ⟨message_sendable, -⟩ := List.forall_mem_cons.mp sendable
      have same : buffer = { header := message.length, bytes := buffer.bytes } := by
        rw [← header]
      rw [same]
      exact checkHeader_header message_sendable joined le_rfl

theorem dispatchLoop_passes {rounds : Nat} {conn : Connection} {unread : Bytes} (passes : conn.Passes unread messages)
    (enough : conn.buffer.bytes.length < rounds) :
    (Connection.dispatchLoop rounds conn).Passes unread messages ∧
      (unread = [] → (Connection.dispatchLoop rounds conn).forwarded = messages) := by
  induction rounds generalizing conn with
  | zero => omega
  | succ rounds ih =>
      obtain ⟨rest, split, holds⟩ := passes.split
      have rest_sendable : ∀ message ∈ rest, Sendable message := by
        intro message mem
        exact passes.sendable message (split ▸ List.mem_append_right _ mem)
      rw [Connection.dispatchLoop]
      have header := readheader_header rest_sendable holds
      revert header
      generalize conn.buffer.readheader = result
      rintro (⟨holds, ended⟩ | ⟨rfl, front, shorter, others⟩)
      · refine ⟨⟨passes.sendable, rest, split, holds⟩, fun none_unread => ?_⟩
        rw [split, ended none_unread, List.append_nil]
      · rename_i message rest bytes
        obtain ⟨positive, fits⟩ := rest_sendable message List.mem_cons_self
        have nonempty : message.length ≠ 0 := by omega
        have small : ¬ 0x1000000 ≤ message.length := by
          have same : 256 ^ headerSize = 0x1000000 := by decide
          omega
        simp only [if_neg nonempty, if_neg small]
        refine ih ⟨passes.sendable, rest, ?_, .inl ⟨rfl, others⟩⟩ ?_
        · rw [split, Connection.forward]
          simp only [front, List.append_assoc, List.singleton_append]
        · change (bytes.drop message.length).length < rounds
          omega

theorem dispatchMessage_passes {conn : Connection} {data unread : Bytes}
    (passes : conn.Passes (data ++ unread) messages) :
    (conn.dispatchMessage data).Passes unread messages ∧
      (unread = [] → (conn.dispatchMessage data).forwarded = messages) := by
  obtain ⟨rest, split, holds⟩ := passes.split
  refine dispatchLoop_passes ⟨passes.sendable, rest, split, ?_⟩ ?_
  · rcases holds with ⟨unheaded, joined⟩ | ⟨message, others, same, headed, joined⟩
    · exact .inl ⟨unheaded, (List.append_assoc ..).trans joined⟩
    · exact .inr ⟨message, others, same, headed, (List.append_assoc ..).trans joined⟩
  · rw [List.length_append]
    omega

theorem foldl_dispatchMessage {conn : Connection} {pieces : List Bytes}
    (passes : conn.Passes pieces.flatten messages) (started : pieces ≠ []) :
    (pieces.foldl Connection.dispatchMessage conn).forwarded = messages := by
  induction pieces generalizing conn with
  | nil => exact absurd rfl started
  | cons piece pieces ih =>
      obtain ⟨later, ended⟩ := dispatchMessage_passes passes
      cases pieces with
      | nil => exact ended rfl
      | cons second pieces => exact ih later (by simp)

/-- However the bytes come, the gate forwards the messages that were sent. -/
theorem forwarded_eq {pieces messages : List Bytes}
    (sendable : ∀ message ∈ messages, Sendable message)
    (received : pieces.flatten = stream messages) :
    (pieces.foldl Connection.dispatchMessage .accepted).forwarded = messages := by
  have passes : Connection.accepted.Passes pieces.flatten messages :=
    ⟨sendable, messages, rfl, .inl ⟨rfl, received⟩⟩
  cases pieces with
  | nil =>
      cases messages with
      | nil => rfl
      | cons message messages =>
          have lengths := congrArg List.length received
          rw [stream_cons] at lengths
          simp [headerSize] at lengths
          omega
  | cons piece pieces => exact foldl_dispatchMessage passes (by simp)

end UEServer.Skynet
