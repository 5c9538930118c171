import UEServer.ExcelData.View

/-!
# When the view equals the tables

The view shows the tables exactly when no key of a table is the name of a field of the proxy that
stands for it, and no two different pieces have one address.
-/

namespace UEServer.ExcelData

variable {realText : BitVec 64 → Bytes} {dict : ShareDict}

namespace Data

/-- The values cannot be told apart without reading what is in them. -/
def Looks (left right : Data) : Prop :=
  if left.isTable then
    right.isTable ∧ left.length = right.length ∧ left.keys.Perm right.keys
  else left = right

def SameAt : Option Data → Option Data → Prop
  | some left, some right => left.Looks right
  | none, none => True
  | _, _ => False

/-- The values cannot be told apart: they may differ in the order of their entries. -/
def Alike (left right : Data) : Prop :=
  ∀ path, SameAt (left.read path) (right.read path)

/-- No key in the value is the name of a field of a `ReadonlyCls`. -/
def Clear (value : Data) : Prop :=
  ∀ path inner, value.read path = some inner → ∀ key ∈ inner.keys, key ∉ readonlyFields

theorem Looks.refl (value : Data) : value.Looks value := by
  unfold Looks
  split
  · next table => exact ⟨table, rfl, List.Perm.refl _⟩
  · rfl

theorem Looks.symm {left right : Data} (looks : left.Looks right) : right.Looks left := by
  unfold Looks at looks ⊢
  by_cases table : left.isTable
  · rw [if_pos table] at looks
    rw [if_pos looks.1]
    exact ⟨table, looks.2.1.symm, looks.2.2.symm⟩
  · rw [if_neg table] at looks
    subst looks
    rw [if_neg table]

theorem Looks.trans {left middle right : Data} (first : left.Looks middle)
    (second : middle.Looks right) : left.Looks right := by
  unfold Looks at first second ⊢
  by_cases table : left.isTable
  · rw [if_pos table] at first ⊢
    rw [if_pos first.1] at second
    exact ⟨second.1, first.2.1.trans second.2.1, first.2.2.trans second.2.2⟩
  · rw [if_neg table] at first ⊢
    subst first
    rwa [if_neg table] at second

theorem SameAt.symm {left right : Option Data} (same : SameAt left right) :
    SameAt right left := by
  cases left <;> cases right
  · trivial
  · exact same
  · exact same
  · exact Looks.symm same

theorem SameAt.trans {left middle right : Option Data} (first : SameAt left middle)
    (second : SameAt middle right) : SameAt left right := by
  cases left <;> cases middle <;> cases right <;> first
    | trivial
    | exact first.elim
    | exact second.elim
    | exact Looks.trans first second

theorem SameAt.refl (value : Option Data) : SameAt value value := by
  cases value with
  | none => trivial
  | some value => exact Looks.refl value

theorem Alike.symm {left right : Data} (alike : left.Alike right) : right.Alike left :=
  fun path => (alike path).symm

theorem Alike.trans {left middle right : Data} (first : left.Alike middle)
    (second : middle.Alike right) : left.Alike right :=
  fun path => (first path).trans (second path)

theorem Alike.refl (value : Data) : value.Alike value :=
  fun _ => SameAt.refl _

theorem read_cons {value : Data} (table : value.isTable = true) (key : Key) (path : List Key) :
    value.read (key :: path) = (value.index key).read path := by
  rw [read, if_pos table]

theorem read_plain {value : Data} (plain : value.isTable = false) (key : Key) (path : List Key) :
    value.read (key :: path) = none := by
  rw [read, if_neg (Bool.eq_false_iff.mp plain)]

theorem index_ne_nil {t : Data} {key : Key} (valid : t.Valid) (mem : key ∈ t.keys) :
    t.index key ≠ .nil := by
  intro missing
  have there := (index_isNil valid).mpr mem
  rw [missing] at there
  cases there

theorem read_missing {t : Data} {key : Key} (missing : key ∉ t.keys) (path : List Key) :
    t.read (key :: path) = none ∨ t.read (key :: path) = some .nil := by
  rw [read]
  split
  · rw [index_eq_nil missing]
    cases path with
    | nil => exact .inr rfl
    | cons => exact .inl rfl
  · exact .inl rfl

end Data

section
variable {stored value : Data}

theorem step_readonly (table : stored.isTable = true) (key : Key) :
    (asReadonly stored).step realText dict key =
      if key ∈ readonlyFields then some .field else some (asReadonly (stored.index key)) := by
  rw [asReadonly, if_pos table]
  simp [View.step, View.owns, View.fetch]

theorem follow_field (path : List Key) :
    View.field.follow realText dict path = some .field := by
  induction path with
  | nil => rfl
  | cons key path ih => exact ih

theorem agrees_field {result : Option Data} :
    Agrees (some .field) result ↔ result = none ∨ result = some .nil := by
  cases result <;> rfl

theorem agrees_asReadonly : Agrees (some (asReadonly stored)) (some value) ↔ stored.Looks value := by
  unfold asReadonly Data.Looks
  split
  · rfl
  · next plain =>
      constructor
      · exact And.left
      · rintro rfl
        exact ⟨rfl, Bool.eq_false_iff.mpr plain⟩

theorem agrees_of_alike (valid : value.Valid) (alike : stored.Alike value) (clear : value.Clear)
    (path : List Key) :
    Agrees ((asReadonly stored).follow realText dict path) (value.read path) := by
  induction path generalizing stored value with
  | nil => exact agrees_asReadonly.mpr (alike [])
  | cons key path ih =>
      have root : stored.Looks value := alike []
      unfold Data.Looks at root
      cases table : stored.isTable with
      | false =>
          rw [if_neg (Bool.eq_false_iff.mp table)] at root
          subst root
          rw [Data.read_plain table, View.follow, asReadonly, if_neg (Bool.eq_false_iff.mp table)]
          exact trivial
      | true =>
          rw [if_pos table] at root
          rw [View.follow, step_readonly table]
          split
          · next own =>
              rw [Option.bind_some, follow_field, agrees_field]
              exact Data.read_missing (fun mem => clear [] value rfl key mem own) path
          · rw [Option.bind_some, Data.read_cons root.1]
            refine ih (valid.index key) (fun rest => ?_) fun rest inner read => ?_
            · have same := alike (key :: rest)
              rwa [Data.read_cons table, Data.read_cons root.1] at same
            · exact clear (key :: rest) inner ((Data.read_cons root.1 key rest).trans read)

/-- A value that is shown by what is stored cannot be told apart from it. -/
theorem alike_of_agrees (valid : value.Valid)
    (agrees : ∀ path, Agrees ((asReadonly stored).follow realText dict path) (value.read path)) :
    stored.Alike value ∧ value.Clear := by
  have key_clear : ∀ {stored value : Data}, value.Valid →
      (∀ path, Agrees ((asReadonly stored).follow realText dict path) (value.read path)) →
        stored.Looks value ∧ (stored.isTable = true → ∀ key ∈ readonlyFields, key ∉ value.keys) ∧
          ∀ key, stored.isTable = true → key ∉ readonlyFields → ∀ path,
            Agrees ((asReadonly (stored.index key)).follow realText dict path)
              ((value.index key).read path) := by
    intro stored value valid agrees
    have root := agrees_asReadonly.mp (agrees [])
    refine ⟨root, fun table key own mem => ?_, fun key table other path => ?_⟩
    · unfold Data.Looks at root
      rw [if_pos table] at root
      have field := agrees [key]
      rw [View.follow, step_readonly table, if_pos own, Option.bind_some, follow_field, agrees_field,
        Data.read_cons root.1] at field
      rcases field with missing | missing
      · cases missing
      · exact Data.index_ne_nil valid mem (Option.some.inj missing)
    · unfold Data.Looks at root
      rw [if_pos table] at root
      have deeper := agrees (key :: path)
      rwa [View.follow, step_readonly table, if_neg other, Option.bind_some,
        Data.read_cons root.1] at deeper
  constructor
  · intro path
    induction path generalizing stored value with
    | nil => exact (key_clear valid agrees).1
    | cons key path ih =>
        obtain ⟨root, clear, deeper⟩ := key_clear valid agrees
        unfold Data.Looks at root
        cases table : stored.isTable with
        | false =>
            rw [if_neg (Bool.eq_false_iff.mp table)] at root
            subst root
            exact Data.SameAt.refl _
        | true =>
            rw [if_pos table] at root
            rw [Data.read_cons table, Data.read_cons root.1]
            by_cases own : key ∈ readonlyFields
            · have missing := clear table key own
              rw [Data.index_eq_nil missing, Data.index_eq_nil fun mem => missing (root.2.2.mem_iff.mp mem)]
              exact Data.SameAt.refl _
            · exact ih (valid.index key) (deeper key table own)
  · intro path
    induction path generalizing stored value with
    | nil =>
        intro inner read key mem own
        cases read
        obtain ⟨root, clear, -⟩ := key_clear valid agrees
        cases table : stored.isTable with
        | false =>
            unfold Data.Looks at root
            rw [if_neg (Bool.eq_false_iff.mp table)] at root
            subst root
            cases stored with
            | table => cases table
            | _ => cases mem
        | true => exact clear table key own mem
    | cons key path ih =>
        intro inner read
        obtain ⟨root, clear, deeper⟩ := key_clear valid agrees
        unfold Data.Looks at root
        cases table : stored.isTable with
        | false =>
            rw [if_neg (Bool.eq_false_iff.mp table)] at root
            subst root
            rw [Data.read_plain table] at read
            cases read
        | true =>
            rw [if_pos table] at root
            by_cases own : key ∈ readonlyFields
            · intro other mem
              rcases Data.read_missing (clear table key own) path with missing | missing
              · rw [missing] at read
                cases read
              · rw [missing] at read
                cases read
                cases mem
            · rw [Data.read_cons root.1] at read
              exact ih (valid.index key) (deeper key table own) inner read

end

/-- The value at the end of a path is a table that is split. -/
def splitAt : Data → Bool → List Key → Bool
  | t, isTop, [] => needSplit t isTop
  | t, isTop, key :: path => needSplit t isTop && splitAt (t.index key) false path

/-- No key in the table is the name of a field of the proxy that stands for its table. -/
def ClearTable (t : Data) (isTop : Bool) : Prop :=
  ∀ path inner, t.read path = some inner → ∀ key ∈ inner.keys,
    key ∉ if splitAt t isTop path then proxyFields else readonlyFields

/-- What is stored under the address of a piece cannot be told apart from it. -/
def Faithful (dict : ShareDict) (piece : Bytes × Data) : Prop :=
  ∃ value, Stored dict piece.1 value ∧ value.Alike piece.2

section
variable {address : Bytes} {t : Data} {isTop : Bool}

theorem ClearTable.child (clear : ClearTable t isTop) (split : needSplit t isTop) (key : Key) :
    ClearTable (t.index key) false := by
  intro path inner read other mem
  have table := isTable_of_needSplit split
  have own := clear (key :: path) inner ((Data.read_cons table key path).trans read) other mem
  rwa [splitAt, split, Bool.true_and] at own

theorem ClearTable.clear (clear : ClearTable t isTop) (whole : needSplit t isTop = false) :
    t.Clear := by
  intro path inner read key mem
  have own := clear path inner read key mem
  have never : splitAt t isTop path = false := by
    cases path with
    | nil => exact whole
    | cons key path => rw [splitAt, whole, Bool.false_and]
  rwa [never] at own

theorem mem_child (split : needSplit t isTop) {key : Key} (mem : key ∈ t.keys)
    {piece : Bytes × Data}
    (cut : piece ∈ (pushData realText (under realText address key) (t.index key) false).2) :
    piece ∈ (pushData realText address t isTop).2 :=
  (mem_pushData_split split piece).mpr ⟨(key, t.index key), Data.mem_of_lookup mem, cut⟩

theorem mem_piece (split : needSplit t isTop) {key : Key} (mem : key ∈ t.keys)
    (whole : needSplit (t.index key) false = false) :
    (under realText address key, t.index key) ∈ (pushData realText address t isTop).2 := by
  refine mem_child split mem ?_
  rw [pushData_pack whole]
  exact List.mem_singleton_self _

theorem proxy_shows (split : needSplit t isTop) :
    (View.proxy address (pushData realText address t isTop).1).Shows t :=
  ⟨isTable_of_needSplit split, (pushData_split split).2.1,
    List.Perm.of_eq (keys_pushData split)⟩

section
variable (valid : t.Valid) (split : needSplit t isTop)
include valid split

theorem agrees_of_faithful (clear : ClearTable t isTop)
    (faithful : ∀ piece ∈ (pushData realText address t isTop).2, Faithful dict piece)
    (path : List Key) :
    Agrees ((View.proxy address (pushData realText address t isTop).1).follow realText dict path)
      (t.read path) := by
  induction path generalizing address t isTop with
  | nil => exact proxy_shows split
  | cons key path ih =>
      have own : ∀ mem : key ∈ t.keys, key ∉ proxyFields := by
        intro mem
        have fields := clear [] t rfl key mem
        rwa [splitAt, split] at fields
      rw [View.follow, View.step]
      split
      · next field =>
          rw [Option.bind_some, follow_field, agrees_field]
          exact Data.read_missing (fun mem => own mem (by simpa [View.owns] using field)) path
      · rw [Data.read_cons (isTable_of_needSplit split)]
        by_cases mem : key ∈ t.keys
        · cases deeper : needSplit (t.index key) false with
          | true =>
              rw [fetch_split split mem deeper, Option.bind_some]
              exact ih (valid.index key) deeper (clear.child split key)
                fun piece cut => faithful piece (mem_child split mem cut)
          | false =>
              obtain ⟨value, stored, alike⟩ := faithful _ (mem_piece split mem deeper)
              rw [fetch_piece split mem deeper stored, Option.bind_some]
              exact agrees_of_alike (valid.index key) alike
                ((clear.child split key).clear deeper) path
        · rw [fetch_missing split mem, Option.bind_some, Data.index_eq_nil mem]
          cases path with
          | nil => exact ⟨rfl, rfl⟩
          | cons => exact trivial

theorem agrees_child
    (agrees : ∀ path, Agrees ((View.proxy address (pushData realText address t isTop).1).follow realText dict path) (t.read path))
    {key : Key} (mem : key ∈ t.keys) :
    key ∉ proxyFields ∧ ∀ path, Agrees
      (((View.proxy address (pushData realText address t isTop).1).fetch realText dict key).bind
        fun value => value.follow realText dict path) ((t.index key).read path) := by
  have table := isTable_of_needSplit split
  have free : key ∉ proxyFields := by
    intro own
    have field := agrees [key]
    rw [View.follow, View.step, View.owns, if_pos (decide_eq_true own), Option.bind_some,
      follow_field, agrees_field, Data.read_cons table] at field
    rcases field with missing | missing
    · cases missing
    · exact Data.index_ne_nil valid mem (Option.some.inj missing)
  refine ⟨free, fun path => ?_⟩
  have deeper := agrees (key :: path)
  rwa [View.follow, View.step, View.owns, if_neg (by simpa using free),
    Data.read_cons table] at deeper

theorem clear_of_agrees
    (stored : ∀ piece ∈ (pushData realText address t isTop).2, ∃ value, Stored dict piece.1 value)
    (agrees : ∀ path, Agrees ((View.proxy address (pushData realText address t isTop).1).follow realText dict path) (t.read path)) :
    ClearTable t isTop := by
  intro path
  induction path generalizing address t isTop with
  | nil =>
      intro inner read key mem
      cases read
      rw [splitAt, split]
      exact (agrees_child valid split agrees mem).1
  | cons key path ih =>
      intro inner read other other_mem
      rw [Data.read_cons (isTable_of_needSplit split)] at read
      rw [splitAt, split, Bool.true_and]
      by_cases mem : key ∈ t.keys
      · obtain ⟨-, deeper⟩ := agrees_child valid split agrees mem
        cases cut : needSplit (t.index key) false with
        | true =>
            simp only [fetch_split split mem cut, Option.bind_some] at deeper
            exact ih (valid.index key) cut
              (fun piece found => stored piece (mem_child split mem found)) deeper inner read
              other other_mem
        | false =>
            obtain ⟨value, found⟩ := stored _ (mem_piece split mem cut)
            simp only [fetch_piece split mem cut found, Option.bind_some] at deeper
            have clear := (alike_of_agrees (valid.index key) deeper).2
            have never : splitAt (t.index key) false path = false := by
              cases path with
              | nil => exact cut
              | cons key path => rw [splitAt, cut, Bool.false_and]
            rw [never]
            exact clear path inner read other other_mem
      · rw [Data.index_eq_nil mem] at read
        cases path with
        | nil =>
            cases read
            cases other_mem
        | cons => cases read

theorem faithful_of_agrees
    (stored : ∀ piece ∈ (pushData realText address t isTop).2, ∃ value, Stored dict piece.1 value)
    (agrees : ∀ path, Agrees ((View.proxy address (pushData realText address t isTop).1).follow realText dict path) (t.read path))
    :
    ∀ piece ∈ (pushData realText address t isTop).2, Faithful dict piece := by
  induction t using pairs_induction generalizing address isTop with
  | step t ih =>
      intro piece piece_mem
      obtain ⟨⟨key, value⟩, entry_mem, cut⟩ := (mem_pushData_split split piece).mp piece_mem
      have mem : key ∈ t.keys := List.mem_map.mpr ⟨_, entry_mem, rfl⟩
      have same := Data.index_of_mem valid entry_mem
      obtain ⟨-, deeper⟩ := agrees_child valid split agrees mem
      cases inner : needSplit value false with
      | true =>
          simp only [fetch_split split mem (same.symm ▸ inner), Option.bind_some, same] at deeper
          refine ih (key, value) entry_mem (valid.entry entry_mem).2 inner
            (fun other found => ?_) deeper piece cut
          exact stored other (mem_child split mem (same.symm ▸ found))
      | false =>
          rw [pushData_pack inner] at cut
          cases List.mem_singleton.mp cut
          obtain ⟨kept, found⟩ := stored _ piece_mem
          simp only [fetch_piece split mem (same.symm ▸ inner) found, Option.bind_some,
            same] at deeper
          exact ⟨kept, found, (alike_of_agrees (valid.entry entry_mem).2 deeper).1⟩

end

end

/-- No key is the name of a field of the proxy that stands for its table, and pieces with the same
address cannot be told apart. -/
structure Addressable (realText : BitVec 64 → Bytes) (tables : List (Bytes × Data)) : Prop where
  clear : ∀ table ∈ tables, ClearTable table.2 true
  addresses : ∀ piece ∈ pieces realText tables, ∀ other ∈ pieces realText tables,
    piece.1 = other.1 → piece.2.Alike other.2

/-- A text of floats that is enough for tables without floats. -/
def noReals (_ : BitVec 64) : Bytes := []

def oneRow : List (Bytes × Data) :=
  [([65], .table [.table [] [(.string [120], .integer 5)]] [])]

/-- The pieces of the tables, in the order in which they are cut. -/
def inOrder (tables : List (Bytes × Data)) : List (Bytes × Bytes) :=
  (pieces noReals tables).filterMap fun piece =>
    (packstring piece.2).map fun bin => (piece.1, bin)

theorem keys_oneRow {table : Bytes × Data} (mem : table ∈ oneRow) {path : List Key} {inner : Data}
    (read : table.2.read path = some inner) :
    ∀ key ∈ inner.keys, key ∉ proxyFields ∧ key ∉ readonlyFields := by
  have plain : ∀ {value : Data} {path : List Key}, value.isTable = false →
      value.read path = some inner → inner.keys = [] := by
    intro value path plain read
    cases path with
    | nil =>
        obtain rfl := Option.some.inj read
        cases value with
        | table => cases plain
        | _ => rfl
    | cons key path =>
        rw [Data.read_plain plain] at read
        cases read
  cases List.mem_singleton.mp mem
  cases path with
  | nil =>
      cases read
      decide
  | cons first path =>
      rw [Data.read_cons rfl] at read
      by_cases one : first = .integer 1
      · subst one
        cases path with
        | nil =>
            cases read
            decide
        | cons second path =>
            have column : (Data.index (.table [] [(.string [120], .integer 5)]) second).isTable =
                false := by
              by_cases same : second = .string [120]
              · subst same
                rfl
              · rw [Data.index_eq_nil (by simpa [Data.keys, Data.pairs, Data.itemPairs] using same)]
                rfl
            rw [plain column read]
            exact fun key mem => absurd mem List.not_mem_nil
      · have missing : Data.index (.table [.table [] [(.string [120], .integer 5)]] []) first =
            .nil :=
          Data.index_eq_nil (by
            simpa [Data.keys, Data.pairs, Data.itemPairs, Data.isNil] using one)
        rw [missing] at read
        rw [plain rfl read]
        exact fun key mem => absurd mem List.not_mem_nil

/-- A key with a colon, and a key in a table, whose pieces have one address. -/
def colonKey : List (Bytes × Data) :=
  [([65], .table []
    [(.string [120], .table [] [(.string [121], .table [.integer 5] [])]),
      (.string [120, 58, 121], .integer 7)])]

end UEServer.ExcelData
