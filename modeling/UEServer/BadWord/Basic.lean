import UEServer.Library.Trie

/-!
# The bad word filter

`CheckHasBadWord` and `FilterBadWord` of `CSCommon/data_mgr.lua`.  A text is read along the trie of the bad
words, letter by letter, and where no word goes on a separator is skipped.  The module `UTF8`, which takes
strings apart, is not part of the server; it is a parameter here.
-/

namespace UEServer.BadWord

structure UTF8 (σ : Type*) where
  split : σ → List Char
  /-- `table.concat` of a list of characters. -/
  concat : List Char → σ
  concat_split : ∀ str, concat (split str) = str
  split_concat : ∀ chars, split (concat chars) = chars

/-- The data that the tries are made of. -/
structure WordData (σ : Type*) where
  badWordData : List σ
  spaceWordData : List σ

/-- The two tries of `CheckProcessBadWord`. -/
structure Trees where
  badWordTree : Trie Char
  spaceWordTree : Trie Char

def checkProcessBadWord {σ : Type*} (utf8 : UTF8 σ) (data : WordData σ) : Trees where
  badWordTree := Trie.ofList (data.badWordData.map utf8.split)
  spaceWordTree := Trie.ofList (data.spaceWordData.map utf8.split)

/-- `_MatchSpaceWord`, from a node on: what comes after the separator. -/
def matchSpaceWord (node : Trie Char) : List Char → Option (List Char)
  | [] => none
  | word :: rest =>
      match node.child word with
      | none => none
      | some node => if node.wordEnd then some rest else matchSpaceWord node rest

/-- The loop of `_MatchBarWord`: what comes after the longest match so far, from a node on.  Each turn takes
a character at least, so the length of the text is enough fuel. -/
def matchLoop (trees : Trees) : ℕ → Trie Char → Option (List Char) → List Char → Option (List Char)
  | 0, _, matched, _ => matched
  | _, _, matched, [] => matched
  | fuel + 1, node, matched, word :: rest =>
      match node.child word.toLower with
      | some node => matchLoop trees fuel node (if node.wordEnd then some rest else matched) rest
      | none =>
          match matchSpaceWord trees.spaceWordTree (word :: rest) with
          | some after => matchLoop trees fuel node matched after
          | none => matched

/-- `_MatchBarWord`: what comes after the match. -/
def matchBarWord (trees : Trees) (text : List Char) : Option (List Char) :=
  matchLoop trees text.length trees.badWordTree none text

/-- The loop of `CheckHasBadWord`. -/
def hasBadWord (trees : Trees) : List Char → Bool
  | [] => false
  | word :: rest => (matchBarWord trees (word :: rest)).isSome || hasBadWord trees rest

def replaceStr : List Char := ['*', '*', '*']

/-- The loop of `FilterBadWord`: `new_word_list`.  Again the length of the text is enough fuel. -/
def newWordList (trees : Trees) : ℕ → List Char → List (List Char)
  | 0, _ => []
  | _, [] => []
  | fuel + 1, word :: rest =>
      match matchBarWord trees (word :: rest) with
      | some after => replaceStr :: newWordList trees fuel after
      | none => [word] :: newWordList trees fuel rest

section
variable {σ : Type*} (utf8 : UTF8 σ) (data : WordData σ)

def checkHasBadWord (isClient : Bool) (str : σ) : Option Bool :=
  if isClient then some (hasBadWord (checkProcessBadWord utf8 data) (utf8.split str)) else none

/-- The pieces that `FilterBadWord` puts together. -/
def filterPieces (str : σ) : List (List Char) :=
  newWordList (checkProcessBadWord utf8 data) (utf8.split str).length (utf8.split str)

def filterBadWord (str : σ) : σ :=
  utf8.concat (filterPieces utf8 data str).flatten

end

section
variable (words spaces : List (List Char))

def Gap (gap : List Char) : Prop :=
  ∃ list : List (List Char), (∀ space ∈ list, space ∈ spaces) ∧ list.flatten = gap

/-- A text begins with a word, without regard to letter case and with separators between its characters.
The last list is what comes after the word. -/
inductive Reads : List Char → List Char → List Char → Prop
  | last {letter char : Char} {rest : List Char} (same : letter.toLower = char.toLower) :
      Reads [letter] (char :: rest) rest
  | next {letter char : Char} {word gap text rest : List Char} (same : letter.toLower = char.toLower)
      (skipped : Gap spaces gap) (later : Reads word text rest) :
      Reads (letter :: word) (char :: (gap ++ text)) rest

def Contains (text : List Char) : Prop :=
  ∃ word ∈ words, word = [] ∨ ∃ tail, tail <:+ text ∧ ∃ rest, Reads spaces word tail rest

end

/-- The filter is right for a string. -/
structure Filtered {σ : Type*} (utf8 : UTF8 σ) (data : WordData σ) (str : σ) : Prop where
  /-- `CheckHasBadWord` finds the strings with a listed word. -/
  checked : checkHasBadWord utf8 data true str = some true ↔
    Contains (data.badWordData.map utf8.split) (data.spaceWordData.map utf8.split) (utf8.split str)
  /-- `FilterBadWord` replaces something in the strings with a listed word. -/
  replaced : replaceStr ∈ filterPieces utf8 data str ↔
    Contains (data.badWordData.map utf8.split) (data.spaceWordData.map utf8.split) (utf8.split str)
  clean : ¬ Contains (data.badWordData.map utf8.split) (data.spaceWordData.map utf8.split)
    (utf8.split (filterBadWord utf8 data str))
  twice : filterBadWord utf8 data (filterBadWord utf8 data str) = filterBadWord utf8 data str

section
variable (words spaces : List (List Char))

def Goes (path : List Char) : Prop :=
  ∃ word ∈ words, path <+: word

/-- No separator is shorter and begins in the same way. -/
def Shortest (space : List Char) : Prop :=
  space ∈ spaces ∧ space ≠ [] ∧ ∀ other ∈ spaces, other ≠ [] → other <+: space → other = space

/-- A text can be read without a choice: from a path on it comes to the end of a listed word, if a
character always belongs to the word where a listed word goes on with it, and the shortest separator is
skipped otherwise. -/
inductive Plain : List Char → List Char → Prop
  | ends {path : List Char} {char : Char} {rest : List Char}
      (listed : path ++ [char.toLower] ∈ words) : Plain path (char :: rest)
  | goes {path : List Char} {char : Char} {rest : List Char}
      (goes : Goes words (path ++ [char.toLower])) (later : Plain (path ++ [char.toLower]) rest) :
      Plain path (char :: rest)
  /-- A separator begins with the character, and no word goes on with it. -/
  | skips {path : List Char} {char : Char} {space rest : List Char}
      (stops : ¬ Goes words (path ++ [char.toLower])) (shortest : Shortest spaces (char :: space))
      (later : Plain path rest) : Plain path (char :: (space ++ rest))

/-- A text that consists of separators and a listed word after them. -/
def Occurs (part : List Char) : Prop :=
  ∃ gap body, part = gap ++ body ∧ Gap spaces gap ∧ ∃ word ∈ words, Reads spaces word body []

/-- A text in which some of its listed words have been replaced. -/
inductive Masks : List Char → List Char → Prop
  | nil : Masks [] []
  | keeps {char : Char} {text masked : List Char} (later : Masks text masked) :
      Masks (char :: text) (char :: masked)
  | masks {part text masked : List Char} (occurs : Occurs words spaces part)
      (later : Masks text masked) : Masks (part ++ text) (replaceStr ++ masked)

structure Clear (text : List Char) : Prop where
  nonempty : [] ∉ words
  /-- Where a listed word begins, perhaps after others have been replaced, one can be read without a
  choice. -/
  plain : ∀ tail, tail <:+ text → ∀ masked, Masks words spaces tail masked →
    ∀ word ∈ words, ∀ rest, Reads spaces word masked rest → Plain words spaces [] tail
  /-- If something is replaced, no listed word begins with what it is replaced by. -/
  star : (∃ tail, tail <:+ text ∧ Plain words spaces [] tail) → ∀ word ∈ words, word.head? ≠ some '*'

end

end UEServer.BadWord
