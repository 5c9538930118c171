import UEServer.Schema.Collection

/-!
# Inserting documents

`insert` and `batch_insert` of `db/mysql_db.lua`, and `Collection.batch_insert` of `db/schema.lua`.
The columns of a batch are those of its first document, in the order in which `pairs` enumerates
it; the row of each document lists its own values, in the order in which `pairs` enumerates that
document.
-/

namespace UEServer.MysqlDb

open Lua Schema

/-- What the standard library and the JSON library make of values. -/
structure Printer where
  /-- `tostring`, on a number. -/
  tostring : Value → String
  /-- `json.encode`, if it does not raise. It raises for a function. -/
  jsonEncode : Value → Option String

/-- `escape_map`, for one character. -/
def escape : Char → String
  | '\x00' => "\\0"
  | '\x08' => "\\b"
  | '\n' => "\\n"
  | '\r' => "\\r"
  | '\t' => "\\t"
  | '\x1a' => "\\Z"
  | '\\' => "\\\\"
  | '\'' => "\\'"
  | '"' => "\\\""
  | char => char.toString

def quoteSqlStr (str : String) : String :=
  "'" ++ String.join (str.toList.map escape) ++ "'"

section
variable (printer : Printer)

/-- `convert_value`, if it does not raise. -/
def convertValue : Value → Option String
  | .str value => some (if value = sqlNull then "null" else quoteSqlStr value)
  | .bool value => some (printer.tostring (.int (if value then 1 else 0)))
  | .list values => (printer.jsonEncode (.list values)).map castAsJson
  | .dict entries => (printer.jsonEncode (.dict entries)).map castAsJson
  | .foreign id => (printer.jsonEncode (.foreign id)).map castAsJson
  | number => some (printer.tostring number)
where
  /-- The JSON value of a text. -/
  castAsJson (json : String) : String := "cast(" ++ quoteSqlStr json ++ " as json)"

/-- A document, as `pairs` enumerates it. -/
structure Doc where
  entries : List (String × Value)
  nodup : (entries.map Prod.fst).Nodup

def Doc.columns (doc : Doc) : List String :=
  doc.entries.map Prod.fst

/-- The converted value that a document holds for a column. -/
def Doc.held (doc : Doc) (column : String) : Option String :=
  (doc.entries.lookup column).bind (convertValue printer)

/-- The loop of `make_values`. -/
def makeValuesFrom : List (String × Value) → Option (List String × List String)
  | [] => some ([], [])
  | (k, v) :: entries =>
      (convertValue printer v).bind fun value =>
        (makeValuesFrom entries).map fun (keys, values) => (k :: keys, value :: values)

/-- `make_values`, before the texts are joined. -/
def makeValues (doc : Doc) : Option (List String × List String) :=
  makeValuesFrom printer doc.entries

/-- `"(" .. table.concat(texts, ",") .. ")"`. -/
def parenthesized (texts : List String) : String :=
  "(" ++ ",".intercalate texts ++ ")"

/-- The values of one row of a statement. -/
structure InsertRow where
  values : List String
  ending : String

structure Statement where
  /-- `insert into`, or `replace into`. -/
  first : String
  tName : String
  /-- `keys`, once the first document has been read. -/
  keys : Option (List String)
  rows : List InsertRow

/-- The texts that `query` joins. -/
def Statement.query (statement : Statement) : List String :=
  [statement.first, statement.tName] ++
    (match statement.keys with
    | some keys => [parenthesized keys, "values"]
    | none => []) ++
    statement.rows.map fun row => parenthesized row.values ++ row.ending

/-- The statement of `insert`. -/
def insert (tName : String) (doc : Doc) (useReplace : Bool) : Option Statement :=
  (makeValues printer doc).map fun (keys, values) =>
    { first := if useReplace then "replace into" else "insert into"
      tName
      keys := some keys
      rows := [{ values, ending := "" }] }

/-- The loop of `batch_insert`, at the `i`-th of `len` documents. -/
def addRows (len : Nat) : Nat → Statement → List Doc → Option Statement
  | _, statement, [] => some statement
  | i, statement, doc :: docs =>
      (makeValues printer doc).bind fun (key, values) =>
        addRows len (i + 1)
          { statement with
            keys := some (statement.keys.getD key)
            rows := statement.rows ++ [{ values, ending := if i < len then "," else ";" }] }
          docs

/-- The statement of `batch_insert`. -/
def batchInsert (tName : String) (docList : List Doc) : Option Statement :=
  addRows printer docList.length 1
    { first := "insert into", tName, keys := none, rows := [] } docList

/-- `to_sql`, as the table that the client is given: a column that is not plain holds the text of
its JSON, a deleted one `SQL_NULL`. -/
def toSqlTable (texts : Texts) (collection : Collection) (obj : Obj) :
    Option (List (String × Value)) :=
  (mapFields (collection.fieldDict texts)
      (fun field value => (field.toSql value).bind fun data =>
        if field.isPlain then some data else (printer.jsonEncode data).map .str) obj.con).map
    fun columns =>
      columns.filter (fun column => column.1 ∉ obj.del) ++
        obj.del.map fun name => (name, .str sqlNull)

/-- The value that a statement assigns to a column of a row, if it assigns one. -/
def Statement.assigned (statement : Statement) (row : InsertRow) (column : String) :
    Option String :=
  ((statement.keys.getD []).zip row.values).lookup column

/-- The database takes a statement only if each row has as many values as there are columns. -/
def Statement.Accepted (statement : Statement) : Prop :=
  ∃ keys, statement.keys = some keys ∧ ∀ row ∈ statement.rows, row.values.length = keys.length

/-- The row assigns to each column the converted value of the document, and to a column without
one nothing or null, as the row of a single insert does. -/
structure RowOf (tName : String) (statement : Statement) (doc : Doc) (row : InsertRow) : Prop where
  assigned : ∀ column value, doc.entries.lookup column = some value →
    ∃ text, convertValue printer value = some text ∧ statement.assigned row column = some text
  absent : ∀ column, doc.entries.lookup column = none →
    statement.assigned row column = none ∨ statement.assigned row column = some "null"
  single : ∃ inserted singleRow, insert printer tName doc false = some inserted ∧
    inserted.rows = [singleRow] ∧
    ∀ column, statement.assigned row column = inserted.assigned singleRow column

/-- The statement writes each document under its own columns. -/
structure WritesRows (tName : String) (docs : List Doc) (statement : Statement) : Prop where
  accepted : statement.Accepted
  /-- There is a row for each document, in this order. -/
  rows : List.Forall₂ (RowOf printer tName statement) docs statement.rows

/-- A document has the columns of the first one, and where `pairs` enumerates a column of the first
one, it enumerates the value of that column in this one. -/
def Aligned (first doc : Doc) : Prop :=
  doc.columns.Perm first.columns ∧
    first.columns.map (doc.held printer) = doc.entries.map fun entry =>
      convertValue printer entry.2

end

theorem map_lookup_zip {columns : List String} {values : List String} (distinct : columns.Nodup)
    (same_length : values.length = columns.length) :
    columns.map (fun column => (columns.zip values).lookup column) = values.map some := by
  induction columns generalizing values with
  | nil => simp_all
  | cons column columns induction =>
      obtain ⟨value, values, rfl⟩ := List.exists_cons_of_length_eq_add_one same_length
      obtain ⟨column_new, columns_distinct⟩ := List.nodup_cons.mp distinct
      have rest := induction columns_distinct (by simpa using same_length)
      simp only [List.zip_cons_cons, List.map_cons, List.lookup_cons, beq_self_eq_true]
      rw [← rest]
      refine congrArg (some value :: ·) (List.map_congr_left fun later later_mem => ?_)
      have later_ne : later ≠ column := fun equal => column_new (equal ▸ later_mem)
      rw [beq_false_of_ne later_ne]

theorem mem_of_lookup_zip {columns values : List String} {column value : String}
    (found : (columns.zip values).lookup column = some value) : column ∈ columns := by
  obtain ⟨before, after, split_at, -⟩ := List.lookup_eq_some_iff.mp found
  have zip_mem : (column, value) ∈ columns.zip values := split_at ▸ by simp
  exact (List.of_mem_zip zip_mem).1

section
variable {printer : Printer}

theorem Doc.columns_nodup (doc : Doc) : doc.columns.Nodup :=
  doc.nodup

theorem makeValuesFrom_spec {entries : List (String × Value)} {keys values : List String}
    (made : makeValuesFrom printer entries = some (keys, values)) :
    keys = entries.map Prod.fst ∧
      entries.map (fun entry => convertValue printer entry.2) = values.map some ∧
      ∀ column, (keys.zip values).lookup column =
        (entries.lookup column).bind (convertValue printer) := by
  induction entries generalizing keys values with
  | nil => simp_all [makeValuesFrom]
  | cons entry entries induction =>
      obtain ⟨k, v⟩ := entry
      obtain ⟨value, converted, rest_made⟩ := Option.bind_eq_some_iff.mp made
      obtain ⟨⟨restKeys, restValues⟩, rest, equal⟩ := Option.map_eq_some_iff.mp rest_made
      cases equal
      obtain ⟨keys_eq, values_eq, lookups⟩ := induction rest
      refine ⟨by simp [keys_eq], by simp [values_eq, converted], fun column => ?_⟩
      simp only [List.zip_cons_cons, List.lookup_cons, lookups]
      cases column == k <;> simp [converted]

variable {doc : Doc} {keys values : List String}

section
variable (made : makeValues printer doc = some (keys, values))
include made

theorem makeValues_keys : keys = doc.columns :=
  (makeValuesFrom_spec made).1

theorem makeValues_values :
    doc.entries.map (fun entry => convertValue printer entry.2) = values.map some :=
  (makeValuesFrom_spec made).2.1

theorem makeValues_lookup (column : String) :
    (keys.zip values).lookup column = doc.held printer column :=
  (makeValuesFrom_spec made).2.2 column

theorem makeValues_length : values.length = doc.columns.length := by
  have lengths := congrArg List.length (makeValues_values made)
  simpa [Doc.columns] using lengths.symm

end

/-- A row of a batch lists what `make_values` makes of its document. -/
def RowMade (printer : Printer) (doc : Doc) (row : InsertRow) : Prop :=
  ∃ keys, makeValues printer doc = some (keys, row.values)

variable {docs : List Doc}

theorem addRows_spec {len i : Nat} {before after : Statement}
    {keys : List String} (columns : before.keys = some keys)
    (added : addRows printer len i before docs = some after) :
    after.keys = some keys ∧
      ∃ rows, after.rows = before.rows ++ rows ∧ List.Forall₂ (RowMade printer) docs rows := by
  induction docs generalizing i before with
  | nil =>
      cases added
      exact ⟨columns, [], by simp, .nil⟩
  | cons doc docs induction =>
      obtain ⟨⟨key, values⟩, made, rest⟩ := Option.bind_eq_some_iff.mp added
      obtain ⟨keys_kept, rows, rows_eq, rows_made⟩ := induction (by simp [columns]) rest
      refine ⟨keys_kept, { values, ending := if i < len then "," else ";" } :: rows, ?_, ?_⟩
      · simp [rows_eq]
      · exact .cons ⟨key, made⟩ rows_made

variable {statement : Statement}

/-- A batch has the columns of its first document, and a row for each document. -/
theorem batchInsert_spec {tName : String} {first : Doc}
    (built : batchInsert printer tName (first :: docs) = some statement) :
    statement.keys = some first.columns ∧
      List.Forall₂ (RowMade printer) (first :: docs) statement.rows := by
  obtain ⟨⟨key, values⟩, made, rest⟩ := Option.bind_eq_some_iff.mp built
  obtain ⟨keys_kept, rows, rows_eq, rows_made⟩ := addRows_spec (by rfl) rest
  refine ⟨by rw [keys_kept, ← makeValues_keys made]; rfl, ?_⟩
  rw [rows_eq]
  exact .cons ⟨key, made⟩ rows_made

theorem insert_spec (tName : String) {row : InsertRow} (row_made : RowMade printer doc row) :
    ∃ inserted singleRow, insert printer tName doc false = some inserted ∧
      inserted.rows = [singleRow] ∧
      ∀ column, inserted.assigned singleRow column = doc.held printer column := by
  obtain ⟨keys, made⟩ := row_made
  refine ⟨_, _, by rw [insert, made]; rfl, rfl, fun column => ?_⟩
  exact makeValues_lookup made column

theorem rowOf_iff_held {tName : String} {row : InsertRow}
    (row_made : RowMade printer doc row) :
    RowOf printer tName statement doc row ↔
      ∀ column, statement.assigned row column = doc.held printer column := by
  obtain ⟨inserted, singleRow, inserts, is_row, single_held⟩ := insert_spec tName row_made
  constructor
  · intro own column
    obtain ⟨inserted', singleRow', inserts', is_row', same⟩ := own.single
    cases inserts.symm.trans inserts'
    obtain rfl := List.singleton_inj.mp (is_row.symm.trans is_row')
    exact (same column).trans (single_held column)
  · intro holds
    refine ⟨fun column value found => ?_, fun column missing => ?_, ?_⟩
    · obtain ⟨keys, made⟩ := row_made
      have entry_mem : convertValue printer value ∈
          doc.entries.map fun entry => convertValue printer entry.2 := by
        obtain ⟨before, after, split_at, -⟩ := List.lookup_eq_some_iff.mp found
        exact List.mem_map.mpr ⟨(column, value), split_at ▸ by simp, rfl⟩
      rw [makeValues_values made] at entry_mem
      obtain ⟨text, -, converted⟩ := List.mem_map.mp entry_mem
      refine ⟨text, converted.symm, ?_⟩
      rw [holds column, Doc.held, found, Option.bind_some, ← converted]
    · exact .inl (by rw [holds column, Doc.held, missing, Option.bind_none])
    · exact ⟨inserted, singleRow, inserts, is_row, fun column =>
        (holds column).trans (single_held column).symm⟩

/-- A row that is as long as the columns assigns what its document holds if and only if the
document is aligned with the first one. -/
theorem held_iff_aligned {first : Doc} {row : InsertRow}
    (columns : statement.keys = some first.columns) (row_made : RowMade printer doc row) :
    (row.values.length = first.columns.length ∧
      ∀ column, statement.assigned row column = doc.held printer column) ↔
      Aligned printer first doc := by
  obtain ⟨keys, made⟩ := row_made
  have assigned_eq : ∀ column, statement.assigned row column =
      (first.columns.zip row.values).lookup column := fun column => by
    rw [Statement.assigned, columns, Option.getD_some]
  constructor
  · rintro ⟨same_length, holds⟩
    have subset : doc.columns ⊆ first.columns := by
      intro column column_mem
      obtain ⟨⟨name, value⟩, entry_mem, rfl⟩ := List.mem_map.mp column_mem
      have doc_column : (keys.zip row.values).lookup name ≠ none := by
        rw [Ne, List.lookup_eq_none_iff]
        intro absent
        have keys_length : keys.length = row.values.length := by
          rw [makeValues_keys made, makeValues_length made]
        have zip_keys : (keys.zip row.values).map Prod.fst = keys :=
          List.map_fst_zip keys_length.le
        have name_mem : name ∈ (keys.zip row.values).map Prod.fst := by
          rw [zip_keys, makeValues_keys made]
          exact column_mem
        obtain ⟨pair, pair_mem, is_name⟩ := List.mem_map.mp name_mem
        simpa [is_name] using absent pair pair_mem
      rw [makeValues_lookup made, ← holds, assigned_eq] at doc_column
      obtain ⟨text, found⟩ := Option.ne_none_iff_exists'.mp doc_column
      exact mem_of_lookup_zip found
    have doc_length : doc.columns.length = first.columns.length :=
      (makeValues_length made).symm.trans same_length
    refine ⟨(List.subperm_of_subset doc.columns_nodup subset).perm_of_length_le doc_length.ge, ?_⟩
    calc first.columns.map (doc.held printer)
        = first.columns.map (fun column => (first.columns.zip row.values).lookup column) :=
          List.map_congr_left fun column _ => by rw [← holds, assigned_eq]
      _ = row.values.map some := map_lookup_zip first.columns_nodup same_length
      _ = _ := (makeValues_values made).symm
  · rintro ⟨same_columns, in_place⟩
    have same_length : row.values.length = first.columns.length :=
      (makeValues_length made).trans same_columns.length_eq
    refine ⟨same_length, fun column => ?_⟩
    rw [assigned_eq]
    have by_place : first.columns.map (fun column => (first.columns.zip row.values).lookup column) =
        first.columns.map (doc.held printer) := by
      rw [map_lookup_zip first.columns_nodup same_length, in_place, makeValues_values made]
    by_cases column_mem : column ∈ first.columns
    · exact List.map_inj_left.mp by_place column column_mem
    · have not_assigned : (first.columns.zip row.values).lookup column = none := by
        rw [Option.eq_none_iff_forall_ne_some]
        exact fun text found => column_mem (mem_of_lookup_zip found)
      have not_held : doc.entries.lookup column = none := by
        rw [Option.eq_none_iff_forall_ne_some]
        intro value found
        obtain ⟨before, after, split_at, -⟩ := List.lookup_eq_some_iff.mp found
        exact column_mem (same_columns.mem_iff.mp
          (List.mem_map.mpr ⟨(column, value), split_at ▸ by simp, rfl⟩))
      rw [not_assigned, Doc.held, not_held, Option.bind_none]

/-- Rows that are made from the documents meet a condition each if and only if the documents meet
the condition that it comes to. -/
theorem forall₂_iff_of_made {made right : Doc → InsertRow → Prop} {left : InsertRow → Prop}
    {condition : Doc → Prop} {rows : List InsertRow}
    (all_made : List.Forall₂ made docs rows)
    (each : ∀ doc row, made doc row → (left row ∧ right doc row ↔ condition doc)) :
    ((∀ row ∈ rows, left row) ∧ List.Forall₂ right docs rows) ↔
      ∀ doc ∈ docs, condition doc := by
  induction all_made with
  | nil => simp
  | @cons doc row docs rows row_made _ induction =>
      simp only [List.forall_mem_cons, List.forall₂_cons, ← each doc row row_made, ← induction]
      tauto

/-- A statement of `batch_insert` writes each document under its own columns if and only if every
document is aligned with the first one. -/
theorem writesRows_iff {tName : String} {first : Doc}
    (built : batchInsert printer tName (first :: docs) = some statement) :
    WritesRows printer tName (first :: docs) statement ↔
      ∀ doc ∈ first :: docs, Aligned printer first doc := by
  obtain ⟨columns, rows_made⟩ := batchInsert_spec built
  have each : ∀ doc row, RowMade printer doc row →
      (row.values.length = first.columns.length ∧ RowOf printer tName statement doc row ↔
        Aligned printer first doc) := fun doc row row_made => by
    rw [rowOf_iff_held row_made, held_iff_aligned columns row_made]
  rw [← forall₂_iff_of_made rows_made each]
  constructor
  · rintro ⟨⟨keys, keys_eq, lengths⟩, rows⟩
    cases columns.symm.trans keys_eq
    exact ⟨lengths, rows⟩
  · rintro ⟨lengths, rows⟩
    exact ⟨⟨_, columns, lengths⟩, rows⟩

/-- The statement that `batch_insert` builds for documents assigns in the row of each document to
each column the converted value that the document holds, as a single insert does, if and only if
every document has the columns of the first one and is enumerated in their order, up to columns
with equal values. -/
theorem batchInsert_rows_iff (printer : Printer) (tName : String) (docList : List Doc)
    (nonempty : docList ≠ []) (statement : Statement)
    (built : batchInsert printer tName docList = some statement) :
    WritesRows printer tName docList statement ↔
      ∀ doc ∈ docList, Aligned printer (docList.head nonempty) doc := by
  cases docList with
  | nil => exact absurd rfl nonempty
  | cons first docs => exact writesRows_iff built

end

def integers : Printer where
  tostring
    | .int value => toString value
    | _ => ""
  jsonEncode _ := none

/-- Two gift keys, as the service inserts them. -/
def giftKeys : List Doc :=
  [{ entries := [("gift_key", .str "abc1")], nodup := by decide },
    { entries := [("gift_key", .str "abc2")], nodup := by decide }]

/-- Two gift keys with their uses, whose tables are enumerated in different orders. -/
def crossedKeys : List Doc :=
  [{ entries := [("gift_key", .str "abc1"), ("use_count", .int 1)], nodup := by decide },
    { entries := [("use_count", .int 2), ("gift_key", .str "abc2")], nodup := by decide }]

theorem batchInsert_rows_iff_giftKeys :
    ∃ statement, batchInsert integers "t_gift_key" giftKeys = some statement ∧
      (WritesRows integers "t_gift_key" giftKeys statement ↔
        ∀ doc ∈ giftKeys, Aligned integers (giftKeys.head (by decide)) doc) :=
  ⟨_, rfl, batchInsert_rows_iff integers "t_gift_key" giftKeys (by decide) _ rfl⟩

/-- The second row of this batch has the uses of the key under the column of the key. -/
theorem crossedKeys_not_writesRows :
    ∃ statement, batchInsert integers "t_gift_key" crossedKeys = some statement ∧
      ¬ WritesRows integers "t_gift_key" crossedKeys statement := by
  refine ⟨_, rfl, fun writes => ?_⟩
  have aligned := (writesRows_iff rfl).mp writes crossedKeys[1] (List.getElem_mem _)
  cases aligned.2

end UEServer.MysqlDb
