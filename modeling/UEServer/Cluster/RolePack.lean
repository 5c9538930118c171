import Mathlib.Data.Fintype.EquivFin
import Mathlib.Logic.Equiv.Nat

/-!
# Packed client broadcasts

`begin_pack_client_msg`, `send_client_msg` and `broad_client_msg` of `msg_utils/cluster_utils.lua`,
and the handles of `agent_gate/lua_handles.lua` that send the messages to the clients.  The string
of `pack_int32_list` is kept as the list of the numbers that it encodes, and names of protocols,
which are only printed, are left out.  A call that raises an error before it has encoded its
message does nothing, packed or not, and is left out as well.
-/

namespace UEServer.Cluster
namespace RolePack

variable {ν δ : Type} [DecidableEq ν]

/-- A call, with the encoded message. -/
inductive Call (δ : Type) where
  | send (uuid : Int) (data : δ)
  | broad (uuidList : Option (List Int)) (data : δ) (excludeUuid : Option Int)

inductive Entry (δ : Type) where
  | s (uuid : Int) (data : δ)
  | c (index : Nat) (data : δ) (excludeUuid : Option Int)
  | b (uuidList : Option (List Int)) (data : δ) (excludeUuid : Option Int)

/-- A value of `_role_broad_pack`. -/
structure Pack (δ : Type) where
  uuidList : Option (List (List Int))
  entries : List (Entry δ)

/-- `{uuid_list={}}`. -/
def newPack : Pack δ where
  uuidList := some []
  entries := []

/-- `table.index`, of a value that may be nil. -/
def tableIndex (lists : List (List Int)) (uuidList : Option (List Int)) : Option Nat :=
  uuidList.bind fun list => (lists.idxOf? list).map fun index => index + 1

/-- The table and the index that `broad_client_msg` puts into its entry.  To insert nil changes
nothing. -/
def listIndex (lists : List (List Int)) (uuidList : Option (List Int)) :
    List (List Int) × Nat :=
  match tableIndex lists uuidList with
  | some index => (lists, index)
  | none => (lists ++ uuidList.toList, (lists ++ uuidList.toList).length)

/-- A call adds an entry. -/
def Pack.add (pack : Pack δ) : Call δ → Pack δ
  | .send uuid data => { pack with entries := pack.entries ++ [.s uuid data] }
  | .broad uuidList data excludeUuid =>
      match pack.uuidList with
      | some lists =>
          let (lists, index) := listIndex lists uuidList
          { uuidList := some lists
            entries := pack.entries ++ [.c index data excludeUuid] }
      | none => { pack with entries := pack.entries ++ [.b uuidList data excludeUuid] }

/-- A call for a node, with `_role_broad_pack`. -/
def addCall (packs : ν → Option (Pack δ)) (call : ν × Call δ) : ν → Option (Pack δ) :=
  Function.update packs call.1 (some (((packs call.1).getD newPack).add call.2))

/-- The pack as it is sent: an empty `uuid_list` is nil. -/
def Pack.sent (pack : Pack δ) : Pack δ :=
  { pack with uuidList := if pack.uuidList = some [] then none else pack.uuidList }

def packCalls (calls : List (ν × Call δ)) : ν → Option (Pack δ) :=
  fun node => (calls.foldl addCall (fun _ => none) node).map Pack.sent

/-- The roles that are bound at a gate. -/
structure Gate where
  roleSockMapper : Int → Option Nat
  /-- `table.keys(role_sock_mapper)`. -/
  keys : List Int
  keys_nodup : keys.Nodup
  mem_keys : ∀ uuid, uuid ∈ keys ↔ (roleSockMapper uuid).isSome

/-- The messages for which a handle raises an error: they cannot be decoded, printed or packed. -/
structure Raises (δ : Type) where
  /-- In `ls_role_send`, for a role that is bound. -/
  send : δ → Bool
  /-- In `ls_role_broadcast`. -/
  broadcast : δ → Bool

variable (raises : Raises δ) (gate : Gate)

/-- `ls_role_send`: what is sent over sockets, or an error. -/
def lsRoleSend (uuid : Int) (data : δ) : Option (List (Nat × δ)) :=
  match gate.roleSockMapper uuid with
  | none => some []
  | some sock => if raises.send data then none else some [(sock, data)]

/-- `broad_sock`, without a list for the whole server. -/
def broadSock (uuidList : Option (List Int)) (data : δ) (excludeUuid : Option Int) :
    List (Nat × δ) :=
  (uuidList.getD gate.keys).filterMap fun uuid =>
    if uuid = 0 ∨ uuid = excludeUuid.getD 0 then none
    else (gate.roleSockMapper uuid).map fun sock => (sock, data)

def lsRoleBroadcast (uuidList : Option (List Int)) (data : δ) (excludeUuid : Option Int) :
    Option (List (Nat × δ)) :=
  if raises.broadcast data then none else some (broadSock gate uuidList data excludeUuid)

/-- The handle of a message that is sent at once. -/
def handleCall : Call δ → Option (List (Nat × δ))
  | .send uuid data => lsRoleSend raises gate uuid data
  | .broad uuidList data excludeUuid => lsRoleBroadcast raises gate uuidList data excludeUuid

/-- What is sent to the clients if the calls of a node are not packed: an error ends the handle of
its own message only. -/
def direct (calls : List (Call δ)) : List (Nat × δ) :=
  calls.flatMap fun call => (handleCall raises gate call).getD []

/-- `uuid_list[index]`, for an index from one on. -/
def listAt (lists : List (List Int)) (index : Nat) : Option (List Int) :=
  if index = 0 then none else lists[index - 1]?

/-- The body of the loop of `ls_role_broad_pack`. -/
def handleEntry (uuidList : Option (List (List Int))) : Entry δ → Option (List (Nat × δ))
  | .b list data excludeUuid => lsRoleBroadcast raises gate list data excludeUuid
  | .c index data excludeUuid =>
      match uuidList with
      -- an index into nil is an error
      | none => none
      | some lists => lsRoleBroadcast raises gate (listAt lists index) data excludeUuid
  | .s uuid data => lsRoleSend raises gate uuid data

/-- `ls_role_broad_pack`: an error ends the loop. -/
def handleEntries (uuidList : Option (List (List Int))) : List (Entry δ) → List (Nat × δ)
  | [] => []
  | entry :: entries =>
      match handleEntry raises gate uuidList entry with
      | none => []
      | some sends => sends ++ handleEntries uuidList entries

/-- What is sent to the clients if the calls of a node are packed. -/
def packed (pack : Option (Pack δ)) : List (Nat × δ) :=
  match pack with
  | none => []
  | some pack => handleEntries raises gate pack.uuidList pack.entries

/-- The messages that the client of a socket receives. -/
def received (sock : Nat) (sends : List (Nat × δ)) : List δ :=
  (sends.filter fun send => send.1 = sock).map Prod.snd

def callsOf (node : ν) (calls : List (ν × Call δ)) : List (Call δ) :=
  (calls.filter fun call => call.1 = node).map Prod.snd

def Call.listed : Call δ → Bool
  | .broad (some _) _ _ => true
  | _ => false

def Call.whole : Call δ → Bool
  | .broad none _ _ => true
  | _ => false

/-- The handle of the message of the call raises an error. -/
def Call.fails : Call δ → Bool
  | .send _ data => raises.send data
  | .broad _ data _ => raises.broadcast data

/-- The call reaches nobody, whoever is bound: its handle raises an error, or it is for nobody. -/
def Call.Mute : Call δ → Prop
  | .send _ data => raises.send data
  | .broad uuidList data excludeUuid =>
      raises.broadcast data ∨
        ∃ list, uuidList = some list ∧ ∀ uuid ∈ list, uuid = 0 ∨ uuid = excludeUuid.getD 0

/-- A call for the whole server comes before every call of its node that has a list, and there is
such a call; and after a message whose handle raises an error no call of the node reaches
anybody. -/
def Packable : Bool → List (Call δ) → Prop
  | _, [] => True
  | listed, call :: calls =>
      if call.fails raises then ∀ later ∈ calls, later.Mute raises
      else
        (call.whole → listed = false ∧ ∃ later ∈ calls, later.listed) ∧
          Packable (listed || call.listed) calls

def tableOf (lists : List (List Int)) : List (Call δ) → List (List Int)
  | [] => lists
  | .send _ _ :: calls => tableOf lists calls
  | .broad uuidList _ _ :: calls => tableOf (listIndex lists uuidList).1 calls

def entriesOf (lists : List (List Int)) : List (Call δ) → List (Entry δ)
  | [] => []
  | .send uuid data :: calls => .s uuid data :: entriesOf lists calls
  | .broad uuidList data excludeUuid :: calls =>
      .c (listIndex lists uuidList).2 data excludeUuid ::
        entriesOf (listIndex lists uuidList).1 calls

theorem foldl_add (lists : List (List Int)) (entries : List (Entry δ)) (calls : List (Call δ)) :
    calls.foldl Pack.add { uuidList := some lists, entries } =
      { uuidList := some (tableOf lists calls), entries := entries ++ entriesOf lists calls } := by
  induction calls generalizing lists entries with
  | nil => simp [tableOf, entriesOf]
  | cons call calls ih =>
      cases call with
      | send uuid data =>
          rw [List.foldl_cons, Pack.add, ih, entriesOf, tableOf, List.append_assoc]
          rfl
      | broad uuidList data excludeUuid =>
          rw [List.foldl_cons, Pack.add, ih, entriesOf, tableOf, List.append_assoc]
          rfl

theorem foldl_addCall (packs : ν → Option (Pack δ)) (calls : List (ν × Call δ)) (node : ν) :
    calls.foldl addCall packs node =
      if callsOf node calls = [] then packs node
      else some ((callsOf node calls).foldl Pack.add ((packs node).getD newPack)) := by
  induction calls generalizing packs with
  | nil => rfl
  | cons call calls ih =>
      rw [List.foldl_cons, ih]
      by_cases same : call.1 = node
      · subst same
        have first : callsOf call.1 (call :: calls) = call.2 :: callsOf call.1 calls := by
          simp [callsOf]
        rw [first, addCall, Function.update_self]
        by_cases none : callsOf call.1 calls = []
        · simp [none]
        · simp [none]
      · have first : callsOf node (call :: calls) = callsOf node calls := by
          simp [callsOf, same]
        rw [first, addCall, Function.update_of_ne (Ne.symm same)]

def sentTable (lists : List (List Int)) : Option (List (List Int)) :=
  if lists = [] then none else some lists

theorem packed_packCalls (calls : List (ν × Call δ)) (node : ν) :
    packed raises gate (packCalls calls node) =
      handleEntries raises gate (sentTable (tableOf [] (callsOf node calls)))
        (entriesOf [] (callsOf node calls)) := by
  rw [packCalls, foldl_addCall]
  split
  · rename_i none
    rw [none]
    rfl
  · change packed raises gate (some (Pack.sent ((callsOf node calls).foldl Pack.add
      { uuidList := some [], entries := [] }))) = _
    rw [foldl_add]
    simp [packed, Pack.sent, sentTable]

theorem listIndex_extends (lists : List (List Int)) (uuidList : Option (List Int)) :
    lists <+: (listIndex lists uuidList).1 := by
  unfold listIndex
  split
  · exact List.prefix_rfl
  · exact List.prefix_append _ _

theorem tableOf_extends (lists : List (List Int)) (calls : List (Call δ)) :
    lists <+: tableOf lists calls := by
  induction calls generalizing lists with
  | nil => exact List.prefix_rfl
  | cons call calls ih =>
      cases call with
      | send uuid data => exact ih lists
      | broad uuidList data excludeUuid => exact (listIndex_extends lists uuidList).trans (ih _)

theorem listAt_listIndex {lists table : List (List Int)} {list : List Int}
    (grown : (listIndex lists (some list)).1 <+: table) :
    listAt table (listIndex lists (some list)).2 = some list := by
  unfold listIndex tableIndex at *
  rw [Option.bind_some] at *
  cases found : lists.idxOf? list with
  | none =>
      rw [found] at grown
      obtain ⟨rest, rfl⟩ := grown
      simp [listAt, List.append_assoc]
  | some index =>
      rw [found] at grown
      obtain ⟨rest, rfl⟩ := grown
      obtain ⟨inside, same, -⟩ := List.idxOf?_eq_some_iff.mp found
      simp [listAt, List.getElem?_append_left inside, List.getElem?_eq_getElem inside, same]

theorem listIndex_none (lists : List (List Int)) :
    listIndex lists none = (lists, lists.length) := by
  simp [listIndex, tableIndex]

theorem listIndex_some_ne_nil (lists : List (List Int)) (list : List Int) :
    (listIndex lists (some list)).1 ≠ [] := by
  unfold listIndex tableIndex
  rw [Option.bind_some]
  cases found : lists.idxOf? list with
  | none => simp
  | some index =>
      obtain ⟨inside, -⟩ := List.idxOf?_eq_some_iff.mp found
      simpa using List.length_pos_iff.mp (Nat.zero_lt_of_lt inside)

theorem tableOf_eq_nil {lists : List (List Int)} {calls : List (Call δ)} :
    tableOf lists calls = [] ↔ lists = [] ∧ ∀ call ∈ calls, call.listed = false := by
  induction calls generalizing lists with
  | nil => simp [tableOf]
  | cons call calls ih =>
      match call with
      | .send uuid data => simp [tableOf, ih, Call.listed]
      | .broad none data excludeUuid => simp [tableOf, listIndex_none, ih, Call.listed]
      | .broad (some list) data excludeUuid =>
          simp [tableOf, ih, Call.listed, listIndex_some_ne_nil]

variable {raises gate}

theorem sentTable_of_ne_nil {table : List (List Int)} (some_list : table ≠ []) :
    sentTable table = some table :=
  if_neg some_list

theorem handleEntry_listed {lists table : List (List Int)} {list : List Int} {data : δ}
    {excludeUuid : Option Int} (grown : (listIndex lists (some list)).1 <+: table) :
    handleEntry raises gate (sentTable table)
        (.c (listIndex lists (some list)).2 data excludeUuid) =
      handleCall raises gate (.broad (some list) data excludeUuid) := by
  have some_list : table ≠ [] := by
    rintro rfl
    exact listIndex_some_ne_nil lists list (List.prefix_nil.mp grown)
  rw [sentTable_of_ne_nil some_list]
  simp only [handleEntry, handleCall, listAt_listIndex grown]

theorem handleCall_of_fails {call : Call δ} (fails : call.fails raises) :
    (handleCall raises gate call).getD [] = [] := by
  cases call with
  | send uuid data =>
      simp only [Call.fails] at fails
      simp only [handleCall, lsRoleSend, fails, if_true]
      split <;> rfl
  | broad uuidList data excludeUuid =>
      simp only [Call.fails] at fails
      simp [handleCall, lsRoleBroadcast, fails]

theorem broadSock_of_nobody {list : List Int} {data : δ} {excludeUuid : Option Int}
    (nobody : ∀ uuid ∈ list, uuid = 0 ∨ uuid = excludeUuid.getD 0) :
    broadSock gate (some list) data excludeUuid = [] := by
  refine List.filterMap_eq_nil_iff.mpr fun uuid mem => ?_
  exact if_pos (nobody uuid mem)

theorem handleCall_of_mute {call : Call δ} (mute : call.Mute raises) :
    (handleCall raises gate call).getD [] = [] := by
  cases call with
  | send uuid data => exact handleCall_of_fails mute
  | broad uuidList data excludeUuid =>
      rcases mute with fails | ⟨list, rfl, nobody⟩
      · exact handleCall_of_fails fails
      · simp only [handleCall, lsRoleBroadcast]
        split
        · rfl
        · exact broadSock_of_nobody nobody

theorem direct_of_mute {calls : List (Call δ)} (mute : ∀ call ∈ calls, call.Mute raises) :
    direct raises gate calls = [] :=
  List.flatMap_eq_nil_iff.mpr fun call mem => handleCall_of_mute (mute call mem)

theorem handleEntries_of_mute {lists table : List (List Int)} {calls : List (Call δ)}
    (grown : tableOf lists calls <+: table) (mute : ∀ call ∈ calls, call.Mute raises) :
    handleEntries raises gate (sentTable table) (entriesOf lists calls) = [] := by
  induction calls generalizing lists with
  | nil => rfl
  | cons call calls ih =>
      obtain ⟨first, others⟩ := List.forall_mem_cons.mp mute
      have nobody : (handleCall raises gate call).getD [] = [] := handleCall_of_mute first
      match call with
      | .send uuid data =>
          have rest := ih grown others
          simp only [handleCall] at nobody
          simp only [entriesOf, handleEntries, handleEntry]
          split
          · rfl
          · rename_i sends handled
            rw [handled] at nobody
            rw [Option.getD_some] at nobody
            rw [nobody, rest, List.append_nil]
      | .broad (some list) data excludeUuid =>
          have rest := ih grown others
          have inside := (tableOf_extends (listIndex lists (some list)).1 calls).trans grown
          simp only [entriesOf, handleEntries, handleEntry_listed inside]
          split
          · rfl
          · rename_i sends handled
            rw [handled, Option.getD_some] at nobody
            rw [nobody, rest, List.append_nil]
      | .broad none data excludeUuid =>
          have fails : raises.broadcast data := by
            rcases first with fails | ⟨list, none, -⟩
            · exact fails
            · cases none
          simp only [entriesOf, handleEntries, handleEntry, lsRoleBroadcast, fails, if_true]
          cases sentTable table <;> rfl

theorem Call.Mute.of_fails {call : Call δ} (fails : call.fails raises) : call.Mute raises := by
  cases call with
  | send uuid data => exact fails
  | broad uuidList data excludeUuid => exact .inl fails

theorem handleEntries_cons {table : Option (List (List Int))} {entry : Entry δ}
    {entries : List (Entry δ)} {sends : List (Nat × δ)}
    (handled : handleEntry raises gate table entry = some sends) :
    handleEntries raises gate table (entry :: entries) =
      sends ++ handleEntries raises gate table entries := by
  rw [handleEntries, handled]

theorem direct_cons {call : Call δ} {calls : List (Call δ)} {sends : List (Nat × δ)}
    (handled : handleCall raises gate call = some sends) :
    direct raises gate (call :: calls) = sends ++ direct raises gate calls := by
  rw [direct, List.flatMap_cons, handled]
  rfl

theorem handleEntries_of_packable {lists table : List (List Int)} {listed : Bool}
    {calls : List (Call δ)} (same : tableOf lists calls = table)
    (before : listed = false → lists = []) (packable : Packable raises listed calls) :
    handleEntries raises gate (sentTable table) (entriesOf lists calls) =
      direct raises gate calls := by
  induction calls generalizing lists listed with
  | nil => rfl
  | cons call calls ih =>
      have grown : tableOf lists (call :: calls) <+: table := same ▸ List.prefix_rfl
      unfold Packable at packable
      split at packable
      · rename_i fails
        have mute : ∀ later ∈ call :: calls, later.Mute raises :=
          List.forall_mem_cons.mpr ⟨.of_fails fails, packable⟩
        rw [handleEntries_of_mute grown mute, direct_of_mute mute]
      · rename_i accepted
        obtain ⟨whole, rest⟩ := packable
        match call with
        | .send uuid data =>
            have handled : ∃ sends, lsRoleSend raises gate uuid data = some sends := by
              unfold lsRoleSend
              split
              · exact ⟨_, rfl⟩
              · exact ⟨_, if_neg accepted⟩
            obtain ⟨sends, handled⟩ := handled
            have entry : handleEntry raises gate (sentTable table) (.s uuid data) = some sends :=
              handled
            have call : handleCall raises gate (.send uuid data) = some sends := handled
            rw [entriesOf, handleEntries_cons entry, direct_cons call]
            rw [ih same (fun none => before (by simpa [Call.listed] using none)) rest]
        | .broad (some list) data excludeUuid =>
            have handled : handleCall raises gate (.broad (some list) data excludeUuid) =
                some (broadSock gate (some list) data excludeUuid) := if_neg accepted
            have inside := (tableOf_extends (listIndex lists (some list)).1 calls).trans grown
            have entry := (handleEntry_listed inside).trans handled
            rw [entriesOf, handleEntries_cons entry, direct_cons handled]
            rw [ih same (fun none => by simp [Call.listed] at none) rest]
        | .broad none data excludeUuid =>
            obtain ⟨first, later, mem, has_list⟩ := whole rfl
            obtain rfl := before first
            have handled : handleCall raises gate (.broad none data excludeUuid) =
                some (broadSock gate none data excludeUuid) := if_neg accepted
            have some_list : table ≠ [] := by
              rintro rfl
              have nobody := (tableOf_eq_nil.mp same).2 later (List.mem_cons_of_mem _ mem)
              rw [has_list] at nobody
              cases nobody
            have entry : handleEntry raises gate (sentTable table) (.c 0 data excludeUuid) =
                some (broadSock gate none data excludeUuid) := by
              rw [sentTable_of_ne_nil some_list]
              exact if_neg accepted
            have others := @ih [] _ same (fun _ => rfl) rest
            change handleEntries raises gate (sentTable table)
              (.c 0 data excludeUuid :: entriesOf [] calls) = _
            rw [handleEntries_cons entry, direct_cons handled, others]

def gateOf (roles : List Int) : Gate where
  roleSockMapper uuid := if uuid ∈ roles then some (Equiv.intEquivNat uuid) else none
  keys := roles.dedup
  keys_nodup := roles.nodup_dedup
  mem_keys uuid := by
    rw [List.mem_dedup]
    split <;> simp [*]

theorem mem_received {sock : Nat} {data : δ} {sends : List (Nat × δ)} :
    data ∈ received sock sends ↔ (sock, data) ∈ sends := by
  unfold received
  rw [List.mem_map]
  constructor
  · rintro ⟨⟨other, _⟩, mem, rfl⟩
    obtain ⟨inside, same⟩ := List.mem_filter.mp mem
    obtain rfl : other = sock := by simpa using same
    exact inside
  · intro mem
    exact ⟨(sock, data), List.mem_filter.mpr ⟨mem, by simp⟩, rfl⟩

theorem received_append (sock : Nat) (front back : List (Nat × δ)) :
    received sock (front ++ back) = received sock front ++ received sock back := by
  simp [received]

theorem mem_broadSock {roles : List Int} {uuidList : Option (List Int)} {data : δ}
    {excludeUuid : Option Int} {uuid : Int} (bound : uuid ∈ roles)
    (listed : ∀ list, uuidList = some list → uuid ∈ list) (other : uuid ≠ 0)
    (kept : uuid ≠ excludeUuid.getD 0) :
    (Equiv.intEquivNat uuid, data) ∈ broadSock (gateOf roles) uuidList data excludeUuid := by
  refine List.mem_filterMap.mpr ⟨uuid, ?_, ?_⟩
  · cases uuidList with
    | none => exact List.mem_dedup.mpr bound
    | some list => exact listed list rfl
  · rw [if_neg (not_or.mpr ⟨other, kept⟩)]
    simp [gateOf, bound]

theorem exists_reached {call : Call δ} (loud : ¬ call.Mute raises) :
    ∃ uuid, ∀ roles : List Int, uuid ∈ roles → ∃ sends data,
      handleCall raises (gateOf roles) call = some sends ∧
        (Equiv.intEquivNat uuid, data) ∈ sends := by
  match call with
  | .send uuid data =>
      refine ⟨uuid, fun roles bound => ⟨[(Equiv.intEquivNat uuid, data)], data, ?_, ?_⟩⟩
      · simp only [Call.Mute] at loud
        simp [handleCall, lsRoleSend, gateOf, bound, loud]
      · exact List.mem_singleton_self _
  | .broad uuidList data excludeUuid =>
      obtain ⟨accepted, somebody⟩ := not_or.mp loud
      have reached : ∃ uuid : Int, (∀ list, uuidList = some list → uuid ∈ list) ∧ uuid ≠ 0 ∧
          uuid ≠ excludeUuid.getD 0 := by
        cases uuidList with
        | none =>
            obtain ⟨uuid, fresh⟩ := Infinite.exists_notMem_finset {0, excludeUuid.getD 0}
            simp only [Finset.mem_insert, Finset.mem_singleton, not_or] at fresh
            exact ⟨uuid, fun _ none => (nomatch none), fresh.1, fresh.2⟩
        | some list =>
            by_contra nobody
            refine somebody ⟨list, rfl, fun uuid mem => ?_⟩
            by_contra reached
            obtain ⟨other, kept⟩ := not_or.mp reached
            exact nobody ⟨uuid, fun _ same => Option.some.inj same ▸ mem, other, kept⟩
      obtain ⟨uuid, listed, other, kept⟩ := reached
      exact ⟨uuid, fun roles bound => ⟨_, data, if_neg accepted, mem_broadSock bound listed other kept⟩⟩

/-- If nothing is sent directly, whoever is bound, then no call reaches anybody. -/
theorem mute_of_received {calls : List (Call δ)} {roles : List Int}
    (nothing : ∀ others : List Int, ∀ sock,
      received sock (direct raises (gateOf (roles ++ others)) calls) = []) :
    ∀ call ∈ calls, call.Mute raises := by
  intro call mem
  by_contra loud
  obtain ⟨uuid, reached⟩ := exists_reached loud
  obtain ⟨sends, data, handled, inside⟩ := reached (roles ++ [uuid]) (by simp)
  have sent : (Equiv.intEquivNat uuid, data) ∈ direct raises (gateOf (roles ++ [uuid])) calls := by
    refine List.mem_flatMap.mpr ⟨call, mem, ?_⟩
    rw [handled]
    exact inside
  have empty := nothing [uuid] (Equiv.intEquivNat uuid)
  rw [← mem_received, empty] at sent
  cases sent

theorem mute_of_fails {table : Option (List (List Int))} {call : Call δ} {calls : List (Call δ)}
    {entry : Entry δ} {entries : List (Entry δ)} (fails : call.fails raises)
    (entry_fails : ∀ gate, handleCall raises gate call = none →
      handleEntry raises gate table entry = none)
    (same : ∀ gate sock, received sock (handleEntries raises gate table (entry :: entries)) =
      received sock (direct raises gate (call :: calls))) :
    ∀ later ∈ calls, later.Mute raises := by
  have raised : ∃ roles : List Int, ∀ others, handleCall raises (gateOf (roles ++ others)) call =
      none := by
    cases call with
    | send uuid data =>
        simp only [Call.fails] at fails
        exact ⟨[uuid], fun others => by simp [handleCall, lsRoleSend, gateOf, fails]⟩
    | broad uuidList data excludeUuid => exact ⟨[], fun others => if_pos fails⟩
  obtain ⟨roles, raised⟩ := raised
  refine @mute_of_received _ raises calls roles fun others sock => ?_
  have both := same (gateOf (roles ++ others)) sock
  rw [handleEntries, entry_fails _ (raised others)] at both
  rw [direct, List.flatMap_cons, raised others] at both
  exact both.symm

theorem broadSock_of_fresh {uuid : Int} {list : List Int} (fresh : uuid ∉ list) (data : δ)
    (excludeUuid : Option Int) :
    broadSock (gateOf [uuid]) (some list) data excludeUuid = [] := by
  refine List.filterMap_eq_nil_iff.mpr fun role mem => ?_
  split
  · rfl
  · have different : role ≠ uuid := fun same => fresh (same ▸ mem)
    simp [gateOf, different]

def Call.sentTo : Call δ → Option Int
  | .send uuid _ => some uuid
  | .broad .. => none

/-- An entry with a list of the table reaches nobody if the only role that is bound is in no list,
nor do the entries after it. -/
theorem handleEntries_c {uuid : Int} {table : List (List Int)} {index : Nat} {list : List Int}
    {data : δ} {excludeUuid : Option Int} {entries : List (Entry δ)}
    (found : listAt table index = some list) (fresh : uuid ∉ list)
    (rest : handleEntries raises (gateOf [uuid]) (some table) entries = []) :
    handleEntries raises (gateOf [uuid]) (some table) (.c index data excludeUuid :: entries) =
      [] := by
  by_cases fails : raises.broadcast data <;>
    simp [handleEntries, handleEntry, lsRoleBroadcast, found, broadSock_of_fresh fresh, rest, fails]

/-- Once the table has a list, nothing reaches a role that is in no list and that nothing is sent
to, not even a call for the whole server. -/
theorem handleEntries_of_fresh {uuid : Int} {lists table : List (List Int)}
    {calls : List (Call δ)} (some_list : lists ≠ []) (grown : tableOf lists calls <+: table)
    (unlisted : ∀ list ∈ table, uuid ∉ list)
    (unsent : ∀ call ∈ calls, call.sentTo ≠ some uuid) :
    handleEntries raises (gateOf [uuid]) (some table) (entriesOf lists calls) = [] := by
  induction calls generalizing lists with
  | nil => rfl
  | cons call calls ih =>
      obtain ⟨first, others⟩ := List.forall_mem_cons.mp unsent
      match call with
      | .send other data =>
          have unbound : (gateOf [uuid]).roleSockMapper other = none := by
            have different : other ≠ uuid := fun same => first (congrArg some same)
            simp [gateOf, different]
          simp only [entriesOf, handleEntries, handleEntry, lsRoleSend, unbound, List.nil_append]
          exact ih some_list grown others
      | .broad (some list) data excludeUuid =>
          have inside := (tableOf_extends (listIndex lists (some list)).1 calls).trans grown
          have found := listAt_listIndex inside
          have mem : list ∈ table := by
            unfold listAt at found
            split at found
            · cases found
            · exact List.mem_of_getElem? found
          exact handleEntries_c found (unlisted list mem)
            (ih (listIndex_some_ne_nil lists list) grown others)
      | .broad none data excludeUuid =>
          have inside := (tableOf_extends lists calls).trans (by simpa [tableOf, listIndex_none]
            using grown)
          have last : lists.length - 1 < lists.length :=
            Nat.sub_one_lt (List.length_pos_iff.mpr some_list).ne'
          have found : listAt table lists.length = some lists[lists.length - 1] := by
            obtain ⟨rest, rfl⟩ := inside
            rw [listAt, if_neg (List.length_pos_iff.mpr some_list).ne']
            rw [List.getElem?_append_left last]
            exact List.getElem?_eq_getElem last
          have mem : lists[lists.length - 1] ∈ table := inside.subset (List.getElem_mem last)
          rw [entriesOf, listIndex_none]
          refine handleEntries_c found (unlisted _ mem) (ih some_list ?_ others)
          simpa [tableOf, listIndex_none] using grown

/-- A call for the whole server is lost if there is no list of roles, and goes astray after one. -/
theorem whole_of_received {lists table : List (List Int)} {calls : List (Call δ)} {data : δ}
    {excludeUuid : Option Int} (same_table : tableOf lists calls = table)
    (accepted : ¬ raises.broadcast data)
    (same : ∀ gate sock, received sock (handleEntries raises gate (sentTable table)
        (.c lists.length data excludeUuid :: entriesOf lists calls)) =
      received sock (direct raises gate (.broad none data excludeUuid :: calls))) :
    lists = [] ∧ table ≠ [] := by
  obtain ⟨uuid, fresh⟩ := Infinite.exists_notMem_finset
    ((0 :: excludeUuid.getD 0 :: table.flatten ++ calls.filterMap Call.sentTo).toFinset)
  simp only [List.mem_toFinset, List.cons_append, List.mem_cons, List.mem_append, not_or,
    List.mem_flatten, not_exists, not_and, List.mem_filterMap] at fresh
  obtain ⟨other, kept, unlisted, unsent⟩ := fresh
  have sent : (Equiv.intEquivNat uuid, data) ∈
      direct raises (gateOf [uuid]) (.broad none data excludeUuid :: calls) := by
    refine List.mem_flatMap.mpr ⟨_, List.mem_cons_self, ?_⟩
    have handled : handleCall raises (gateOf [uuid]) (.broad none data excludeUuid) =
        some (broadSock (gateOf [uuid]) none data excludeUuid) := if_neg accepted
    rw [handled]
    exact mem_broadSock List.mem_cons_self (fun _ none => nomatch none) other kept
  have lost : handleEntries raises (gateOf [uuid]) (sentTable table)
      (.c lists.length data excludeUuid :: entriesOf lists calls) ≠ [] := by
    intro nothing
    have both := same (gateOf [uuid]) (Equiv.intEquivNat uuid)
    rw [nothing] at both
    rw [← mem_received, ← both] at sent
    cases sent
  have some_list : table ≠ [] := by
    rintro rfl
    exact lost rfl
  refine ⟨?_, some_list⟩
  by_contra some_before
  refine lost ?_
  have grown : tableOf lists (.broad none data excludeUuid :: calls) <+: table := by
    rw [tableOf, listIndex_none, same_table]
  have nothing := @handleEntries_of_fresh _ raises uuid lists table
    (.broad none data excludeUuid :: calls) some_before grown unlisted
    (List.forall_mem_cons.mpr ⟨nofun, unsent⟩)
  rw [entriesOf, listIndex_none] at nothing
  rw [sentTable_of_ne_nil some_list]
  exact nothing

theorem received_rest {table : Option (List (List Int))} {call : Call δ} {calls : List (Call δ)}
    {entry : Entry δ} {entries : List (Entry δ)} (accepted : ¬ call.fails raises)
    (alike : ∀ gate, handleEntry raises gate table entry = handleCall raises gate call)
    (same : ∀ gate sock, received sock (handleEntries raises gate table (entry :: entries)) =
      received sock (direct raises gate (call :: calls))) (gate : Gate) (sock : Nat) :
    received sock (handleEntries raises gate table entries) =
      received sock (direct raises gate calls) := by
  have handled : ∃ sends, handleCall raises gate call = some sends := by
    cases call with
    | send uuid data =>
        simp only [handleCall, lsRoleSend]
        split
        · exact ⟨_, rfl⟩
        · exact ⟨_, if_neg accepted⟩
    | broad uuidList data excludeUuid => exact ⟨_, if_neg accepted⟩
  obtain ⟨sends, handled⟩ := handled
  have both := same gate sock
  rw [handleEntries_cons ((alike gate).trans handled), direct_cons handled, received_append,
    received_append] at both
  exact List.append_cancel_left both

theorem packable_of_received {lists table : List (List Int)} {listed : Bool}
    {calls : List (Call δ)} (same_table : tableOf lists calls = table)
    (before : listed = false ↔ lists = [])
    (same : ∀ gate sock,
      received sock (handleEntries raises gate (sentTable table) (entriesOf lists calls)) =
        received sock (direct raises gate calls)) : Packable raises listed calls := by
  induction calls generalizing lists listed with
  | nil => trivial
  | cons call calls ih =>
      unfold Packable
      match call with
      | .send uuid data =>
          split
          · rename_i fails
            refine mute_of_fails fails (fun gate raised => ?_) same
            exact raised
          · rename_i accepted
            refine ⟨fun no => (nomatch no), ih same_table ?_ ?_⟩
            · simpa [Call.listed] using before
            · exact received_rest accepted (fun _ => rfl) same
      | .broad (some list) data excludeUuid =>
          have grown : (listIndex lists (some list)).1 <+: table :=
            same_table ▸ tableOf_extends (listIndex lists (some list)).1 calls
          have alike : ∀ gate, handleEntry raises gate (sentTable table)
              (.c (listIndex lists (some list)).2 data excludeUuid) =
                handleCall raises gate (.broad (some list) data excludeUuid) :=
            fun _ => handleEntry_listed grown
          split
          · rename_i fails
            exact mute_of_fails fails (fun gate raised => (alike gate).trans raised) same
          · rename_i accepted
            refine ⟨fun no => (nomatch no), ih same_table ?_ ?_⟩
            · simp [Call.listed, listIndex_some_ne_nil]
            · exact received_rest accepted alike same
      | .broad none data excludeUuid =>
          rw [tableOf, listIndex_none] at same_table
          rw [entriesOf, listIndex_none] at same
          split
          · rename_i fails
            refine mute_of_fails fails (fun gate raised => ?_) same
            cases sentTable table with
            | none => rfl
            | some lists => exact if_pos fails
          · rename_i accepted
            obtain ⟨rfl, some_list⟩ := whole_of_received same_table accepted same
            refine ⟨fun _ => ⟨before.mpr rfl, ?_⟩, ih same_table ?_ ?_⟩
            · by_contra nobody
              refine some_list (same_table ▸ tableOf_eq_nil.mpr ⟨rfl, fun later mem => ?_⟩)
              cases has_list : later.listed with
              | false => rfl
              | true => exact absurd ⟨later, mem, has_list⟩ nobody
            · simpa [Call.listed] using before
            · refine received_rest accepted (fun gate => ?_) same
              rw [sentTable_of_ne_nil some_list]
              rfl

/-- The clients receive the same messages packed and not packed, whoever is bound, exactly if the
calls of every node are packable. -/
theorem packed_received_iff (raises : Raises δ) (calls : List (ν × Call δ)) :
    (∀ node gate sock, received sock (packed raises gate (packCalls calls node)) =
        received sock (direct raises gate (callsOf node calls))) ↔
      ∀ node, Packable raises false (callsOf node calls) := by
  constructor
  · intro same node
    refine packable_of_received rfl (iff_of_true rfl rfl) fun gate sock => ?_
    rw [← packed_packCalls]
    exact same node gate sock
  · intro packable node gate sock
    rw [packed_packCalls, handleEntries_of_packable rfl (fun _ => rfl) (packable node)]

/-- A message to one role, and a message to the whole server. -/
def noticeCalls : List (String × Call String) :=
  [("s1_game", .send 7 "hero"), ("s1_game", .broad none "notice" none)]

/-- The whole server does not get the message. -/
theorem noticeCalls_not_received :
    ¬ ∀ (calls : List (String × Call String)) (node : String) (gate : Gate) (sock : Nat),
      received sock (packed { send := fun _ => false, broadcast := fun _ => false } gate
          (packCalls calls node)) =
        received sock (direct { send := fun _ => false, broadcast := fun _ => false } gate
          (callsOf node calls)) := by
  intro claim
  have same := claim noticeCalls "s1_game" (gateOf [7]) (Equiv.intEquivNat 7)
  cases same

end RolePack
end UEServer.Cluster
