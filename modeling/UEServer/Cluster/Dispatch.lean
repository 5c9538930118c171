import UEServer.Cluster.Fragment

/-!
# What is dispatched

The messages that reach their handlers are those that are sent without fragments.
-/

namespace UEServer.Cluster

open Skynet

theorem length_wbInteger_le (value : BitVec 64) : (wbInteger value).length ≤ 9 := by
  unfold wbInteger
  repeat' split
  all_goals simp

theorem length_wbString_le (bytes : Bytes) : (wbString bytes).length ≤ bytes.length + 5 := by
  unfold wbString
  repeat' split
  all_goals
    simp
    try omega

theorem packOne_sessionValue (sessionId : Option (BitVec 64)) :
    ∃ packed, packOne (sessionValue sessionId) 0 = some packed ∧ packed.length ≤ 9 := by
  cases sessionId with
  | none => exact ⟨[combineType 0 0], rfl, by simp⟩
  | some id => exact ⟨wbInteger id, rfl, length_wbInteger_le id⟩

theorem sessionValue_valid (sessionId : Option (BitVec 64)) : (sessionValue sessionId).valid := by
  cases sessionId <;> rfl

theorem pack_strings {name data : Bytes} (short : name.length + data.length < 2 ^ 30)
    (sessionId : Option (BitVec 64)) (index : BitVec 64) :
    ∃ packed, pack [.string name, sessionValue sessionId, .integer index, .string data] =
        some packed ∧
      data.length ≤ packed.length ∧ packed.length ≤ name.length + data.length + 28 := by
  obtain ⟨session, written, session_short⟩ := packOne_sessionValue sessionId
  have name_short := length_wbString_le name
  have data_short := length_wbString_le data
  have data_length := length_le_wbString data
  have index_short := length_wbInteger_le index
  have items : packItems [.string name, sessionValue sessionId, .integer index, .string data] 0 =
      some (wbString name ++ (session ++ (wbInteger index ++ (wbString data ++ [])))) := by
    have name_written : packOne (.string name) 0 = some (wbString name) := rfl
    have index_written : packOne (.integer index) 0 = some (wbInteger index) := rfl
    have data_written : packOne (.string data) 0 = some (wbString data) := rfl
    simp only [packItems, name_written, written, index_written, data_written,
      Option.bind_eq_bind, Option.bind_some]
    rfl
  refine ⟨wbString name ++ (session ++ (wbInteger index ++ (wbString data ++ []))), ?_, ?_, ?_⟩
  · rw [pack, items, Option.bind_some, if_pos]
    simp only [List.length_append, List.length_nil]
    omega
  · simp only [List.length_append]
    omega
  · simp only [List.length_append, List.length_nil]
    omega

theorem commands_find (cmd : Command) : commands.find? (fun other => other.name = cmd.name) =
    some cmd := by
  cases cmd <;> decide

theorem name_ne_padding (cmd : Command) : cmd.name ≠ padding := by
  cases cmd <;> decide

theorem commands_find_long {msg : Bytes} (long : 9 < msg.length) :
    commands.find? (fun cmd => cmd.name = msg) = none := by
  have names : ∀ cmd : Command, cmd.name.length ≤ 9 := by
    intro cmd
    cases cmd <;> decide
  refine List.find?_eq_none.mpr fun cmd _ same => ?_
  have shorter := names cmd
  rw [of_decide_eq_true same] at shorter
  omega

/-- The message can be packed: its address and its arguments are Lua values that are not too deep
or too long. -/
structure Message.Packable (message : Message) : Prop where
  addr : message.addr.valid
  args : message.args.valid
  /-- `skynet.packstring` raises no error. -/
  packed : (pack message.values).isSome

instance (message : Message) : Decidable message.Packable :=
  decidable_of_iff (message.addr.valid ∧ message.args.valid ∧ (pack message.values).isSome)
    ⟨fun ⟨addr, args, packed⟩ => ⟨addr, args, packed⟩, fun packable =>
      ⟨packable.addr, packable.args, packable.packed⟩⟩

def Message.packedSize (message : Message) : Nat :=
  ((pack message.values).getD []).length

/-- What the handler of the message should be called with. -/
def Message.dispatch (message : Message) : Dispatch where
  cmd := message.cmd
  session := sessionValue message.sessionId
  addr := message.addr
  args := message.args

theorem Message.Packable.valid {message : Message} (packable : message.Packable) :
    validItems message.values := by
  simp [Message.values, validItems, Value.valid, sessionValue_valid, packable.addr, packable.args]

theorem onRecvData_values {message : Message} (packable : message.Packable) {data : Bytes}
    (packed : pack message.values = some data) (conn : Conn) :
    conn.onRecvData data = { conn with dispatched := conn.dispatched ++ [message.dispatch] } := by
  unfold Conn.onRecvData
  rw [unpack_pack packable.valid packed]
  change conn.recvMsg (.string message.cmd.name) (sessionValue message.sessionId) message.addr
    message.args = _
  unfold Conn.recvMsg
  simp only [if_neg (name_ne_padding message.cmd), commands_find]
  rfl

/-- The list holds the fragments that have come. -/
structure HoldsParts (dataList : Table Nat Bytes) (parts : List Bytes) : Prop where
  get : ∀ index, dataList.get (index + 1) = parts[index]?
  size : dataList.size = parts.length

theorem HoldsParts.set {dataList : Table Nat Bytes} {parts : List Bytes}
    (holds : HoldsParts dataList parts) (data : Bytes) :
    HoldsParts (dataList.set (parts.length + 1) (some data)) (parts ++ [data]) := by
  have fresh : dataList.get (parts.length + 1) = none := by
    rw [holds.get, List.getElem?_eq_none le_rfl]
  refine ⟨fun index => ?_, ?_⟩
  · rw [Table.get_set, holds.get]
    by_cases last : index = parts.length
    · subst last
      simp
    · rw [if_neg (by omega)]
      by_cases before : index < parts.length
      · rw [List.getElem?_append_left before]
      · rw [List.getElem?_eq_none (by omega), List.getElem?_eq_none (by simp; omega)]
  · have count := Table.size_set dataList (parts.length + 1) (some data)
    rw [fresh, Table.weight_none, Table.weight_some, holds.size] at count
    rw [List.length_append, List.length_singleton]
    omega

theorem concat_eq {dataList : Table Nat Bytes} {parts : List Bytes} {rounds index : Nat}
    (get : ∀ offset, dataList.get (index + offset) = parts[offset]?)
    (enough : parts.length ≤ rounds) : concat dataList rounds index = parts.flatten := by
  induction parts generalizing rounds index with
  | nil =>
      cases rounds with
      | zero => rfl
      | succ rounds =>
          have missing := get 0
          rw [Nat.add_zero] at missing
          rw [concat, missing]
          rfl
  | cons part parts ih =>
      obtain ⟨rounds, rfl⟩ : ∃ less, rounds = less + 1 :=
        ⟨rounds - 1, by rw [List.length_cons] at enough; omega⟩
      have found := get 0
      rw [Nat.add_zero] at found
      have later : concat dataList rounds (index + 1) = parts.flatten := by
        refine ih (fun offset => ?_) (by rw [List.length_cons] at enough; omega)
        rw [Nat.add_assoc, Nat.add_comm 1, get (offset + 1), List.getElem?_cons_succ]
      rw [concat, found, List.flatten_cons]
      simp only [List.getElem?_cons_zero, later]

theorem HoldsParts.concat {dataList : Table Nat Bytes} {parts : List Bytes}
    (holds : HoldsParts dataList parts) :
    concat dataList dataList.size 1 = parts.flatten := by
  refine concat_eq (fun offset => ?_) holds.size.ge
  rw [Nat.add_comm, holds.get]

theorem onRecvData_packPadding {sessionId : Option (BitVec 64)} {index : Nat} {data packed : Bytes}
    (written : packPadding sessionId index data = some packed) (fits : index < 2 ^ 64)
    (conn : Conn) : conn.onRecvData packed = conn.onPadding sessionId index data := by
  have valid : validItems [.string padding, sessionValue sessionId,
      .integer (BitVec.ofNat 64 index), .string data] := by
    simp [validItems, Value.valid, sessionValue_valid]
  have same : (BitVec.ofNat 64 index).toNat = index := by
    rw [BitVec.toNat_ofNat, Nat.mod_eq_of_lt fits]
  unfold Conn.onRecvData
  rw [unpack_pack valid written]
  change conn.recvMsg (.string padding) (sessionValue sessionId) (.integer (BitVec.ofNat 64 index))
    (.string data) = _
  unfold Conn.recvMsg
  cases sessionId with
  | none => simp only [if_true, sessionValue, same]
  | some id => simp only [if_true, sessionValue, same]

/-- The remaining fragments are received, and joined with those that have come. -/
theorem foldl_packPaddings {sessionId : Option (BitVec 64)} {parts rest packs : List Bytes}
    {conn : Conn} {dataList : Table Nat Bytes}
    (written : packPaddings sessionId (parts.length + 1) rest = some packs)
    (nonempty : ∀ part ∈ rest, part ≠ []) (fits : parts.length + rest.length + 1 < 2 ^ 64)
    (started : conn.padding = some { sessionId, dataList }) (holds : HoldsParts dataList parts) :
    packs.foldl Conn.onRecvData conn =
      Conn.recvJoined { conn with padding := none } (parts ++ rest).flatten := by
  induction rest generalizing parts packs conn dataList with
  | nil =>
      obtain ⟨last, last_written, written⟩ := Option.bind_eq_some_iff.mp written
      cases written
      have ended := holds.set []
      rw [List.foldl_cons, List.foldl_nil,
        onRecvData_packPadding last_written (by omega), Conn.onPadding, started]
      simp only [ne_eq, not_true_eq_false, if_false, if_true]
      rw [ended.concat]
      simp
  | cons part rest ih =>
      obtain ⟨first, first_written, written⟩ := Option.bind_eq_some_iff.mp written
      obtain ⟨others, others_written, written⟩ := Option.bind_eq_some_iff.mp written
      cases written
      obtain ⟨part_nonempty, rest_nonempty⟩ := List.forall_mem_cons.mp nonempty
      rw [List.length_cons] at fits
      have next := holds.set part
      have length : (parts ++ [part]).length = parts.length + 1 := by simp
      rw [List.foldl_cons, onRecvData_packPadding first_written (by omega), Conn.onPadding, started]
      simp only [ne_eq, not_true_eq_false, if_false, if_neg part_nonempty]
      rw [← length] at others_written
      rw [ih others_written rest_nonempty (by omega) rfl next]
      simp

theorem flatten_fragments {size rounds : Nat} {data : Bytes} (positive : 0 < size)
    (enough : data.length ≤ rounds) : (fragments size rounds data).flatten = data := by
  induction rounds generalizing data with
  | zero =>
      have empty : data = [] := List.length_eq_zero_iff.mp (by omega)
      rw [empty]
      rfl
  | succ rounds ih =>
      rw [fragments]
      split
      · rename_i empty
        rw [List.length_eq_zero_iff.mp empty]
        rfl
      · have later : (data.drop size).length ≤ rounds := by
          rw [List.length_drop]
          omega
        rw [List.flatten_cons, ih later, List.take_append_drop]

theorem mem_fragments {size rounds : Nat} {data part : Bytes} (positive : 0 < size)
    (mem : part ∈ fragments size rounds data) : part ≠ [] ∧ part.length ≤ size := by
  induction rounds generalizing data with
  | zero => cases mem
  | succ rounds ih =>
      rw [fragments] at mem
      split at mem
      · cases mem
      · rcases List.mem_cons.mp mem with rfl | mem
        · refine ⟨fun empty => ?_, ?_⟩
          · have length := congrArg List.length empty
            rw [List.length_take, List.length_nil] at length
            omega
          · rw [List.length_take]
            omega
        · exact ih mem

theorem length_fragments_le (size rounds : Nat) (data : Bytes) :
    (fragments size rounds data).length ≤ rounds := by
  induction rounds generalizing data with
  | zero => exact le_rfl
  | succ rounds ih =>
      rw [fragments]
      split
      · exact Nat.zero_le _
      · rw [List.length_cons]
        have shorter := ih (data.drop size)
        omega

theorem sendable_of_pack {values : List Value} {packed : Bytes} (packs : pack values = some packed)
    (some_values : 0 < values.length) (short : packed.length < 2 ^ 24) : Sendable packed := by
  have enough := length_le_packItems (packItems_of_pack packs).1
  refine ⟨by omega, ?_⟩
  have limit : 256 ^ headerSize = 2 ^ 24 := by decide
  omega

theorem packPaddings_sendable (sessionId : Option (BitVec 64)) {parts : List Bytes}
    (short : ∀ part ∈ parts, part.length ≤ paddingSize) (index : Nat) :
    ∃ packs, packPaddings sessionId index parts = some packs ∧
      ∀ packed ∈ packs, Sendable packed := by
  have sendable : ∀ (data : Bytes) (index : Nat), data.length ≤ paddingSize →
      ∃ packed, packPadding sessionId index data = some packed ∧ Sendable packed := by
    intro data index fits
    have size : padding.length = 7 := by decide
    have limit : paddingSize = 7339008 := by decide
    have bound : padding.length + data.length < 2 ^ 30 := by omega
    obtain ⟨packed, written, -, packed_fits⟩ :=
      pack_strings bound sessionId (BitVec.ofNat 64 index)
    exact ⟨packed, written, sendable_of_pack written (by simp) (by omega)⟩
  induction parts generalizing index with
  | nil =>
      obtain ⟨last, written, last_sendable⟩ := sendable [] index (Nat.zero_le paddingSize)
      refine ⟨[last], ?_, ?_⟩
      · simp only [packPaddings, written, Option.bind_eq_bind, Option.bind_some]
        rfl
      · simpa using last_sendable
  | cons part parts ih =>
      obtain ⟨part_short, parts_short⟩ := List.forall_mem_cons.mp short
      obtain ⟨first, first_written, first_sendable⟩ := sendable part index part_short
      obtain ⟨others, others_written, others_sendable⟩ := ih parts_short (index + 1)
      refine ⟨first :: others, ?_, List.forall_mem_cons.mpr ⟨first_sendable, others_sendable⟩⟩
      simp only [packPaddings, first_written, others_written, Option.bind_eq_bind,
        Option.bind_some]
      rfl

theorem foldl_packPaddings_start {sessionId : Option (BitVec 64)} {parts packs : List Bytes}
    {conn : Conn} (written : packPaddings sessionId 1 parts = some packs)
    (nonempty : ∀ part ∈ parts, part ≠ []) (fits : parts.length < 2 ^ 32)
    (some_parts : parts ≠ []) (idle : conn.padding = none) :
    packs.foldl Conn.onRecvData conn = conn.recvJoined parts.flatten := by
  obtain ⟨part, rest, rfl⟩ := List.exists_cons_of_ne_nil some_parts
  obtain ⟨first, first_written, written⟩ := Option.bind_eq_some_iff.mp written
  obtain ⟨others, others_written, written⟩ := Option.bind_eq_some_iff.mp written
  cases written
  have holds : HoldsParts (Table.empty.set 1 (some part)) [part] := by
    have none_held : HoldsParts (Table.empty : Table Nat Bytes) [] :=
      ⟨fun index => Table.get_empty (index + 1), Table.size_empty⟩
    exact none_held.set part
  rw [List.length_cons] at fits
  rw [List.foldl_cons, onRecvData_packPadding first_written (by omega), Conn.onPadding, idle]
  simp only [Conn.startPadding, if_true]
  rw [@foldl_packPaddings sessionId [part] rest others _ _ others_written
    (List.forall_mem_cons.mp nonempty).2 (by simp; omega) rfl holds]
  congr 1
  rw [← idle]

/-- The dispatch of a message that is not sent in fragments. -/
def Message.dispatch? (message : Message) : List Dispatch :=
  if message.packedSize < maxPackSize then [message.dispatch] else []

/-- What is sent for a message is received: its handler is called, unless it comes in
fragments. -/
theorem packs_received {message : Message} (packable : message.Packable) :
    ∃ packs, message.packs = some packs ∧ (∀ packed ∈ packs, Sendable packed) ∧
      ∀ conn : Conn, conn.padding = none →
        (packs.foldl Conn.onRecvData conn).padding = none ∧
          (packs.foldl Conn.onRecvData conn).dispatched =
            conn.dispatched ++ message.dispatch? := by
  obtain ⟨data, packed⟩ := Option.isSome_iff_exists.mp packable.packed
  have size : message.packedSize = data.length := by rw [Message.packedSize, packed]; rfl
  have limit : maxPackSize = 7340032 := by decide
  by_cases small : data.length < maxPackSize
  · refine ⟨[data], ?_, ?_, fun conn idle => ?_⟩
    · simp [Message.packs, packed, small]
    · simpa using sendable_of_pack packed (by simp [Message.values]) (by omega)
    · rw [List.foldl_cons, List.foldl_nil, onRecvData_values packable packed, Message.dispatch?,
        size, if_pos small]
      exact ⟨idle, rfl⟩
  · have positive : 0 < paddingSize := by decide
    have parts_mem := fun part =>
      @mem_fragments paddingSize data.length data part positive
    obtain ⟨packs, written, sendable⟩ := packPaddings_sendable message.sessionId
      (fun part mem => (parts_mem part mem).2) 1
    have joined := flatten_fragments positive (le_refl data.length)
    have count := length_fragments_le paddingSize data.length data
    have short := (packItems_of_pack packed).2
    refine ⟨packs, ?_, sendable, fun conn idle => ?_⟩
    · simp [Message.packs, packed, small, written]
    · have some_parts : fragments paddingSize data.length data ≠ [] := by
        intro empty
        rw [empty] at joined
        rw [← joined] at small
        exact small (by decide)
      rw [foldl_packPaddings_start written (fun part mem => (parts_mem part mem).1) (by omega)
        some_parts idle, joined, Conn.recvJoined, commands_find_long (by omega),
        Message.dispatch?, size, if_neg small, List.append_nil]
      exact ⟨idle, rfl⟩

def sent (messages : List Message) : Option Bytes :=
  (messages.mapM Message.send).map List.flatten

theorem mapM_packS3 {packs : List Bytes} (sendable : ∀ packed ∈ packs, Sendable packed) :
    ∃ frames, packs.mapM packS3 = some frames ∧ frames.flatten = stream packs := by
  induction packs with
  | nil => exact ⟨[], rfl, rfl⟩
  | cons packed packs ih =>
      obtain ⟨first, others⟩ := List.forall_mem_cons.mp sendable
      obtain ⟨frames, written, joined⟩ := ih others
      refine ⟨(Bytes.ofNatBe headerSize packed.length ++ packed) :: frames, ?_, ?_⟩
      · simp [packS3, first.2, written]
      · rw [List.flatten_cons, joined, stream_cons, List.append_assoc]

theorem send_eq {message : Message} {packs : List Bytes} (written : message.packs = some packs)
    (sendable : ∀ packed ∈ packs, Sendable packed) : message.send = some (stream packs) := by
  obtain ⟨frames, framed, joined⟩ := mapM_packS3 sendable
  simp [Message.send, written, framed, joined]

/-- What is sent for packable messages is received: the handlers of those that do not come in
fragments are called, in order. -/
theorem messages_received {messages : List Message}
    (packable : ∀ message ∈ messages, message.Packable) :
    ∃ packs, sent messages = some (stream packs) ∧ (∀ packed ∈ packs, Sendable packed) ∧
      ∀ conn : Conn, conn.padding = none →
        (packs.foldl Conn.onRecvData conn).dispatched =
          conn.dispatched ++ messages.flatMap Message.dispatch? := by
  induction messages with
  | nil => exact ⟨[], rfl, by simp, by simp⟩
  | cons message messages ih =>
      obtain ⟨first_packable, others_packable⟩ := List.forall_mem_cons.mp packable
      obtain ⟨first, first_written, first_sendable, first_received⟩ := packs_received first_packable
      obtain ⟨others, others_sent, others_sendable, others_received⟩ := ih others_packable
      refine ⟨first ++ others, ?_, ?_, fun conn idle => ?_⟩
      · obtain ⟨frames, framed, joined⟩ := Option.map_eq_some_iff.mp others_sent
        simp [sent, send_eq first_written first_sendable, framed, joined, stream]
      · exact List.forall_mem_append.mpr ⟨first_sendable, others_sendable⟩
      · obtain ⟨after_idle, after_dispatched⟩ := first_received conn idle
        rw [List.foldl_append, others_received _ after_idle, after_dispatched,
          List.flatMap_cons, List.append_assoc]

/-- The handlers that are called are those of the messages that are not sent in fragments. -/
theorem received_dispatched {messages : List Message}
    (packable : ∀ message ∈ messages, message.Packable) :
    ∃ bytes, sent messages = some bytes ∧ ∀ pieces : List Bytes, pieces.flatten = bytes →
      (received pieces).dispatched = messages.flatMap Message.dispatch? := by
  obtain ⟨packs, written, sendable, dispatched⟩ := messages_received packable
  refine ⟨stream packs, written, fun pieces arrived => ?_⟩
  rw [received, forwarded_eq sendable arrived, dispatched _ rfl]
  rfl

theorem length_flatMap_dispatch?_le (messages : List Message) :
    (messages.flatMap Message.dispatch?).length ≤ messages.length := by
  induction messages with
  | nil => exact le_rfl
  | cons message messages ih =>
      rw [List.flatMap_cons, List.length_append, List.length_cons, Message.dispatch?]
      split
      · rw [List.length_singleton]
        omega
      · rw [List.length_nil]
        omega

theorem flatMap_dispatch?_eq_map {messages : List Message} :
    messages.flatMap Message.dispatch? = messages.map Message.dispatch ↔
      ∀ message ∈ messages, message.packedSize < maxPackSize := by
  induction messages with
  | nil => simp
  | cons message messages ih =>
      have shorter := length_flatMap_dispatch?_le messages
      rw [List.flatMap_cons, List.map_cons, List.forall_mem_cons, Message.dispatch?, ← ih]
      split
      · rename_i small
        simp [small]
      · rename_i large
        simp only [large, false_and, iff_false, List.nil_append]
        intro same
        have lengths := congrArg List.length same
        rw [List.length_cons, List.length_map] at lengths
        omega

/-- Packable messages can be sent, and however their bytes are received, the handlers that are
called are those of the messages, in order and with the same arguments, if and only if no message is
so large that it is sent in fragments. -/
theorem dispatched_iff (messages : List Message)
    (packable : ∀ message ∈ messages, message.Packable) :
    ∃ bytes, sent messages = some bytes ∧ ∀ pieces : List Bytes, pieces.flatten = bytes →
      ((received pieces).dispatched = messages.map Message.dispatch ↔
        ∀ message ∈ messages, message.packedSize < maxPackSize) := by
  obtain ⟨bytes, written, dispatched⟩ := received_dispatched packable
  refine ⟨bytes, written, fun pieces arrived => ?_⟩
  rw [dispatched pieces arrived, flatMap_dispatch?_eq_map]

/-- Two messages of a node, of which the second has no session. -/
def smallMessages : List Message :=
  [{ cmd := .call, sessionId := some 2, addr := .string (Bytes.ofAscii ".a"),
     args := .string [4, 8, 15] },
   { cmd := .showSelf, sessionId := none, addr := .nil,
     args := .table [.string [97], .string [98]] [] }]

theorem dispatched_iff_smallMessages :
    ∃ bytes, sent smallMessages = some bytes ∧ ∀ pieces : List Bytes, pieces.flatten = bytes →
      ((received pieces).dispatched = smallMessages.map Message.dispatch ↔
        ∀ message ∈ smallMessages, message.packedSize < maxPackSize) :=
  dispatched_iff smallMessages (by decide)

/-- A message with an argument of seven megabytes. -/
def largeMessage : Message where
  cmd := .send
  sessionId := none
  addr := .integer 1
  args := .string (List.replicate maxPackSize 0)

/-- It is not dispatched. -/
theorem largeMessage_not_dispatched :
    ¬ ∀ messages : List Message, (∀ message ∈ messages, message.Packable) →
      ∃ bytes, sent messages = some bytes ∧ ∀ pieces : List Bytes, pieces.flatten = bytes →
        (received pieces).dispatched = messages.map Message.dispatch := by
  intro claim
  have length : (List.replicate maxPackSize (0 : UInt8)).length = maxPackSize :=
    List.length_replicate
  have limit : maxPackSize = 7340032 := by decide
  have name : (Command.name .send).length = 4 := by decide
  have bound : (Command.name .send).length + (List.replicate maxPackSize (0 : UInt8)).length <
      2 ^ 30 := by
    omega
  obtain ⟨packed, written, long, -⟩ := pack_strings bound none 1
  have packs : pack largeMessage.values = some packed := written
  have packable : ∀ message ∈ [largeMessage], message.Packable := by
    rintro message mem
    cases List.mem_singleton.mp mem
    exact ⟨rfl, rfl, Option.isSome_iff_exists.mpr ⟨packed, packs⟩⟩
  have large : ¬ largeMessage.packedSize < maxPackSize := by
    rw [Message.packedSize, packs, Option.getD_some]
    omega
  obtain ⟨bytes, sent_bytes, dispatched⟩ := claim [largeMessage] packable
  obtain ⟨same_bytes, same_sent, received_bytes⟩ := received_dispatched packable
  cases sent_bytes.symm.trans same_sent
  have same := (received_bytes [bytes] (by simp)).symm.trans (dispatched [bytes] (by simp))
  exact large (flatMap_dispatch?_eq_map.mp same largeMessage List.mem_cons_self)

end UEServer.Cluster
