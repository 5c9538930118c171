import UEServer.Library.Table
import UEServer.Skynet.Gate
import UEServer.Skynet.RoundTrip

/-!
# Messages in fragments

`NodeCls._send` and `ConnCls.recv_msg` of `service/clusterd/clusterd_utils.lua`: a message whose
packed size reaches `MAX_PACK_SIZE` is sent in fragments, each in a `padding` message of its own,
which the receiver puts together.
-/

namespace UEServer.Cluster

open Skynet

/-- The messages that a node sends, without `padding`. -/
inductive Command where
  | showSelf
  | probe
  | send
  | call
  | resp
  deriving DecidableEq

def Command.name : Command → Bytes
  | .showSelf => Bytes.ofAscii "show_self"
  | .probe => Bytes.ofAscii "probe"
  | .send => Bytes.ofAscii "send"
  | .call => Bytes.ofAscii "call"
  | .resp => Bytes.ofAscii "resp"

/-- The names that `ConnCls` has handlers for, without `padding`. -/
def commands : List Command := [.showSelf, .probe, .send, .call, .resp]

def padding : Bytes := Bytes.ofAscii "padding"

def maxPackSize : Nat := 1024 * 1024 * 7

def paddingSize : Nat := maxPackSize - 1024

/-- The arguments of `_send`. -/
structure Message where
  cmd : Command
  sessionId : Option (BitVec 64)
  addr : Value
  args : Value

def sessionValue : Option (BitVec 64) → Value
  | none => .nil
  | some id => .integer id

def Message.values (message : Message) : List Value :=
  [.string message.cmd.name, sessionValue message.sessionId, message.addr, message.args]

/-- The parts of a string, of a size each but the last, for as many rounds as there are bytes. -/
def fragments (size : Nat) : Nat → Bytes → List Bytes
  | 0, _ => []
  | rounds + 1, data =>
      if data.length = 0 then []
      else data.take size :: fragments size rounds (data.drop size)

/-- A `padding` message. -/
def packPadding (sessionId : Option (BitVec 64)) (index : Nat) (data : Bytes) : Option Bytes :=
  pack [.string padding, sessionValue sessionId, .integer (BitVec.ofNat 64 index), .string data]

/-- The loop of `_send`, and the message after it. -/
def packPaddings (sessionId : Option (BitVec 64)) : Nat → List Bytes → Option (List Bytes)
  | index, [] => do
      let last ← packPadding sessionId index []
      return [last]
  | index, data :: rest => do
      let first ← packPadding sessionId index data
      let others ← packPaddings sessionId (index + 1) rest
      return first :: others

/-- The strings that `_send` hands to `string.pack`. -/
def Message.packs (message : Message) : Option (List Bytes) := do
  let data ← pack message.values
  if data.length < maxPackSize then some [data]
  else packPaddings message.sessionId 1 (fragments paddingSize data.length data)

/-- `_send`: the bytes that are sent. -/
def Message.send (message : Message) : Option Bytes := do
  let packs ← message.packs
  let frames ← packs.mapM packS3
  return frames.flatten

structure Dispatch where
  cmd : Command
  session : Value
  addr : Value
  args : Value

structure Padding where
  sessionId : Option (BitVec 64)
  dataList : Table Nat Bytes

/-- A connection, with what has been received over it. -/
structure Conn where
  padding : Option Padding
  dispatched : List Dispatch
  /-- The number of messages by which an error was raised. -/
  raised : Nat

def Conn.new : Conn where
  padding := none
  dispatched := []
  raised := 0

/-- `error`. -/
def Conn.raise (conn : Conn) : Conn :=
  { conn with raised := conn.raised + 1 }

/-- `func(self, session, addr, args)`. -/
def Conn.dispatch (conn : Conn) (cmd : Command) (session addr args : Value) : Conn :=
  { conn with dispatched := conn.dispatched ++ [{ cmd, session, addr, args }] }

/-- `table.concat`, from an index on. -/
def concat (dataList : Table Nat Bytes) : Nat → Nat → Bytes
  | 0, _ => []
  | rounds + 1, index =>
      match dataList.get index with
      | none => []
      | some data => data ++ concat dataList rounds (index + 1)

/-- `recv_msg(msg)` in `on_padding`: the name is the whole message, and there is no session. -/
def Conn.recvJoined (conn : Conn) (msg : Bytes) : Conn :=
  match commands.find? fun cmd => cmd.name = msg with
  | some cmd => conn.dispatch cmd .nil .nil .nil
  -- there is no handler, or it is `on_padding`, which asserts an index
  | none => conn.raise

/-- `on_padding` without `padding`. -/
def Conn.startPadding (conn : Conn) (sessionId : Option (BitVec 64)) (index : Nat)
    (data : Bytes) : Conn :=
  if index = 1 then
    { conn with padding := some { sessionId, dataList := Table.empty.set index (some data) } }
  else conn.raise

def Conn.onPadding (conn : Conn) (sessionId : Option (BitVec 64)) (index : Nat) (data : Bytes) :
    Conn :=
  match conn.padding with
  | none => conn.startPadding sessionId index data
  | some padding =>
      if padding.sessionId ≠ sessionId then
        Conn.startPadding { conn with padding := none } sessionId index data
      else
        let dataList := padding.dataList.set index (some data)
        if data = [] then
          Conn.recvJoined { conn with padding := none } (concat dataList dataList.size 1)
        else { conn with padding := some { padding with dataList } }

/-- `recv_msg`.  The sessions, the indices and the data of `padding` messages are of the types that
`_send` packs. -/
def Conn.recvMsg (conn : Conn) (cmd session addr args : Value) : Conn :=
  match cmd with
  | .string name =>
      if name = Cluster.padding then
        match session, addr, args with
        | .nil, .integer index, .string data => conn.onPadding none index.toNat data
        | .integer id, .integer index, .string data => conn.onPadding (some id) index.toNat data
        | _, _, _ => conn.raise
      else
        match commands.find? fun cmd => cmd.name = name with
        | some cmd => conn.dispatch cmd session addr args
        | none => conn.raise
  | _ => conn.raise

/-- `on_recv_data`, after `skynet.unpack`. -/
def Conn.onRecvData (conn : Conn) (data : Bytes) : Conn :=
  match unpack data with
  | none => conn.raise
  | some values =>
      conn.recvMsg (values.getD 0 .nil) (values.getD 1 .nil) (values.getD 2 .nil)
        (values.getD 3 .nil)

/-- What comes of the pieces in which the bytes of a connection are received. -/
def received (pieces : List Bytes) : Conn :=
  (pieces.foldl Connection.dispatchMessage .accepted).forwarded.foldl Conn.onRecvData .new

end UEServer.Cluster
