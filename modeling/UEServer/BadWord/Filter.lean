import UEServer.BadWord.Matching

/-!
# What the filter leaves

A text is filtered from the left, so what is left of it is the text with some of its listed words replaced.
No listed word is left if none can be read there, which is the condition on the text.
-/

namespace UEServer.BadWord

section
variable {words spaces : List (List Char)} {text : List Char}

def treesOf (words spaces : List (List Char)) : Trees :=
  ⟨Trie.ofList words, Trie.ofList spaces⟩

theorem isSome_matchBarWord :
    (matchBarWord (treesOf words spaces) text).isSome = true ↔ Plain words spaces [] text := by
  have root : (Trie.ofList words).walk [] = some (Trie.ofList words) := rfl
  refine (isSome_matchLoop none root le_rfl).trans ?_
  simp

theorem occurs_of_matchBarWord {after : List Char}
    (result : matchBarWord (treesOf words spaces) text = some after) :
    ∃ part, text = part ++ after ∧ Occurs words spaces part := by
  have root : (Trie.ofList words).walk [] = some (Trie.ofList words) := rfl
  obtain ⟨part, whole, gap, body, split, skips, rest, listed, reads⟩ :=
    (matchLoop_completes root result).resolve_left nofun
  exact ⟨part, whole, gap, body, split, skips, rest, listed, reads⟩

variable {word body rest : List Char}

theorem Reads.append (reads : Reads spaces word body rest)
    (after : List Char) : Reads spaces word (body ++ after) (rest ++ after) := by
  induction reads with
  | last same => exact .last same
  | next same skipped _ ih =>
      rw [List.cons_append, List.append_assoc]
      exact .next same skipped ih

theorem Reads.ne_nil (reads : Reads spaces word body rest) :
    body ≠ [] := by
  cases reads <;> exact nofun

theorem Occurs.ne_nil {part : List Char} (occurs : Occurs words spaces part) : part ≠ [] := by
  obtain ⟨gap, body, rfl, -, word, -, reads⟩ := occurs
  exact List.append_ne_nil_of_right_ne_nil _ reads.ne_nil

theorem contains_of_plain {tail : List Char} (inside : tail <:+ text)
    (plain : Plain words spaces [] tail) : Contains words spaces text := by
  obtain ⟨after, found⟩ := Option.isSome_iff_exists.mp (isSome_matchBarWord.mpr plain)
  obtain ⟨part, rfl, gap, body, rfl, -, word, listed, reads⟩ := occurs_of_matchBarWord found
  refine ⟨word, listed, .inr ⟨body ++ after, ?_, _, reads.append after⟩⟩
  refine List.IsSuffix.trans ⟨gap, ?_⟩ inside
  rw [List.append_assoc]

/-- `CheckHasBadWord` looks for a place from which the text can be read without a choice. -/
theorem hasBadWord_iff : hasBadWord (treesOf words spaces) text = true ↔
    ∃ tail, tail <:+ text ∧ Plain words spaces [] tail := by
  induction text with
  | nil =>
      refine iff_of_false nofun ?_
      rintro ⟨tail, inside, plain⟩
      rw [List.suffix_nil.mp inside] at plain
      exact not_plain_nil plain
  | cons char text ih =>
      rw [hasBadWord, Bool.or_eq_true, isSome_matchBarWord, ih]
      constructor
      · rintro (plain | ⟨tail, inside, plain⟩)
        · exact ⟨_, List.suffix_rfl, plain⟩
        · exact ⟨tail, inside.trans (List.suffix_cons _ _), plain⟩
      · rintro ⟨tail, inside, plain⟩
        rcases List.suffix_cons_iff.mp inside with rfl | inside
        · exact .inl plain
        · exact .inr ⟨tail, inside, plain⟩

theorem length_of_matchBarWord {char : Char} {after : List Char}
    (result : matchBarWord (treesOf words spaces) (char :: text) = some after) :
    after.length ≤ text.length ∧ after <:+ char :: text := by
  obtain ⟨part, whole, occurs⟩ := occurs_of_matchBarWord result
  have some := List.length_pos_iff.mpr occurs.ne_nil
  have length := congrArg List.length whole
  rw [List.length_cons, List.length_append] at length
  exact ⟨by omega, part, whole.symm⟩

/-- `FilterBadWord` replaces something if `CheckHasBadWord` finds something. -/
theorem replaceStr_mem_iff {fuel : ℕ} (enough : text.length ≤ fuel) :
    replaceStr ∈ newWordList (treesOf words spaces) fuel text ↔
      ∃ tail, tail <:+ text ∧ Plain words spaces [] tail := by
  rw [← hasBadWord_iff]
  induction fuel generalizing text with
  | zero =>
      obtain rfl := List.length_eq_zero_iff.mp (Nat.le_zero.mp enough)
      exact iff_of_false nofun nofun
  | succ fuel ih =>
      cases text with
      | nil => exact iff_of_false nofun nofun
      | cons char text =>
          rw [newWordList, hasBadWord]
          cases found : matchBarWord (treesOf words spaces) (char :: text) with
          | some after => exact iff_of_true List.mem_cons_self rfl
          | none =>
              rw [List.mem_cons, or_iff_right (show ¬ replaceStr = [char] from nofun),
                ih (Nat.le_of_succ_le_succ enough)]
              rfl

theorem masks_newWordList {fuel : ℕ} (enough : text.length ≤ fuel) :
    Masks words spaces text (newWordList (treesOf words spaces) fuel text).flatten := by
  induction fuel generalizing text with
  | zero =>
      obtain rfl := List.length_eq_zero_iff.mp (Nat.le_zero.mp enough)
      exact .nil
  | succ fuel ih =>
      cases text with
      | nil => exact .nil
      | cons char text =>
          have enough' := Nat.le_of_succ_le_succ enough
          rw [newWordList]
          cases found : matchBarWord (treesOf words spaces) (char :: text) with
          | some after =>
              obtain ⟨part, whole, occurs⟩ := occurs_of_matchBarWord found
              obtain ⟨shorter, -⟩ := length_of_matchBarWord found
              rw [whole, List.flatten_cons]
              exact .masks occurs (ih (shorter.trans enough'))
          | none => exact .keeps (ih enough')

theorem masks_self (text : List Char) : Masks words spaces text text := by
  induction text with
  | nil => exact .nil
  | cons char text ih => exact .keeps ih

theorem star_of_toLower {letter : Char} (same : letter.toLower = '*'.toLower) : letter = '*' := by
  have star : '*'.toLower = '*' := by decide
  rw [star, Char.toLower] at same
  split at same
  · rename_i upper
    have value := congrArg (fun char : Char => char.val.toNat) same
    simp only [UInt32.le_iff_toNat_le, ge_iff_le] at upper
    have high : 'A'.val.toNat = 65 := rfl
    have low : 'Z'.val.toNat = 90 := rfl
    have shift : ('a'.val - 'A'.val).toNat = 32 := rfl
    have symbol : '*'.val.toNat = 42 := rfl
    simp only [UInt32.toNat_add] at value
    omega
  · exact same

theorem Reads.head_star (reads : Reads spaces word ('*' :: body) rest) :
    word.head? = some '*' := by
  generalize whole : '*' :: body = all at reads
  cases reads with
  | last same =>
      cases whole
      rw [star_of_toLower same]
      rfl
  | next same =>
      cases whole
      rw [star_of_toLower same]
      rfl

theorem Clear.of_suffix {tail : List Char} (clear : Clear words spaces text) (inside : tail <:+ text) :
    Clear words spaces tail where
  nonempty := clear.nonempty
  plain := fun tail' inside' => clear.plain tail' (inside'.trans inside)
  star := fun ⟨tail', inside', plain⟩ => clear.star ⟨tail', inside'.trans inside, plain⟩

theorem suffix_replaceStr {tail later : List Char} (inside : tail <:+ replaceStr ++ later) :
    tail <:+ later ∨ ∃ body, tail = '*' :: body := by
  rcases List.suffix_cons_iff.mp inside with rfl | inside
  · exact .inr ⟨_, rfl⟩
  rcases List.suffix_cons_iff.mp inside with rfl | inside
  · exact .inr ⟨_, rfl⟩
  rcases List.suffix_cons_iff.mp inside with rfl | inside
  · exact .inr ⟨_, rfl⟩
  exact .inl inside

theorem newWordList_clean {fuel : ℕ} (enough : text.length ≤ fuel) (clear : Clear words spaces text)
    {tail : List Char} (inside : tail <:+ (newWordList (treesOf words spaces) fuel text).flatten)
    {word rest : List Char} (listed : word ∈ words) (reads : Reads spaces word tail rest) : False := by
  induction fuel generalizing text with
  | zero =>
      exact reads.ne_nil (List.suffix_nil.mp inside)
  | succ fuel ih =>
      cases text with
      | nil => exact reads.ne_nil (List.suffix_nil.mp inside)
      | cons char text =>
          have masks := @masks_newWordList words spaces _ _ enough
          have enough' := Nat.le_of_succ_le_succ enough
          rw [newWordList] at inside masks
          cases found : matchBarWord (treesOf words spaces) (char :: text) with
          | some after =>
              rw [found] at inside
              obtain ⟨shorter, part⟩ := length_of_matchBarWord found
              rcases suffix_replaceStr inside with inside | ⟨body, rfl⟩
              · exact ih (shorter.trans enough') (clear.of_suffix part) inside
              · have plain := isSome_matchBarWord.mp (Option.isSome_of_eq_some found)
                exact clear.star ⟨_, List.suffix_rfl, plain⟩ word listed reads.head_star
          | none =>
              rw [found] at inside masks
              rcases List.suffix_cons_iff.mp inside with rfl | inside
              · have plain := clear.plain _ List.suffix_rfl _ masks word listed rest reads
                have some := isSome_matchBarWord.mpr plain
                rw [found] at some
                cases some
              · exact ih enough' (clear.of_suffix (List.suffix_cons _ _)) inside

theorem flatten_newWordList {fuel : ℕ} (enough : text.length ≤ fuel)
    (none : ¬ ∃ tail, tail <:+ text ∧ Plain words spaces [] tail) :
    (newWordList (treesOf words spaces) fuel text).flatten = text := by
  induction fuel generalizing text with
  | zero =>
      obtain rfl := List.length_eq_zero_iff.mp (Nat.le_zero.mp enough)
      rfl
  | succ fuel ih =>
      cases text with
      | nil => rfl
      | cons char text =>
          rw [newWordList]
          cases found : matchBarWord (treesOf words spaces) (char :: text) with
          | some after =>
              have plain := isSome_matchBarWord.mp (Option.isSome_of_eq_some found)
              exact absurd ⟨_, List.suffix_rfl, plain⟩ none
          | none =>
              have rest := ih (Nat.le_of_succ_le_succ enough) fun ⟨tail, inside, plain⟩ =>
                none ⟨tail, inside.trans (List.suffix_cons _ _), plain⟩
              rw [List.flatten_cons, rest]
              rfl

/-- In a clear text that contains a listed word, one can be read without a choice. -/
theorem Clear.contains_iff (clear : Clear words spaces text) : Contains words spaces text ↔
    ∃ tail, tail <:+ text ∧ Plain words spaces [] tail := by
  constructor
  · rintro ⟨word, listed, rfl | ⟨tail, inside, rest, reads⟩⟩
    · exact absurd listed clear.nonempty
    · exact ⟨tail, inside, clear.plain tail inside tail (masks_self tail) word listed rest reads⟩
  · rintro ⟨tail, inside, plain⟩
    exact contains_of_plain inside plain

/-- Lists with which the condition holds for every text. -/
structure Regular (words spaces : List (List Char)) : Prop where
  nonempty : [] ∉ words
  lower : ∀ word ∈ words, ∀ letter ∈ word, letter.toLower = letter
  star : ∀ word ∈ words, '*' ∉ word
  spaceStar : ∀ space ∈ spaces, '*' ∉ space
  /-- A word does not go on with the first character of a separator. -/
  apart : ∀ word ∈ words, ∀ space ∈ spaces, ∀ char ∈ space.head?, char.toLower ∉ word.tail
  separate : ∀ space ∈ spaces, ∀ other ∈ spaces, other ≠ [] → other <+: space → other = space

theorem Masks.of_append {kept masked : List Char} (masks : Masks words spaces text (kept ++ masked))
    (free : '*' ∉ kept) : ∃ rest, text = kept ++ rest ∧ Masks words spaces rest masked := by
  induction kept generalizing text with
  | nil => exact ⟨text, rfl, masks⟩
  | cons char kept ih =>
      rw [List.mem_cons, not_or] at free
      generalize whole : char :: kept ++ masked = all at masks
      cases masks with
      | nil => cases whole
      | keeps later =>
          cases whole
          obtain ⟨rest, rfl, masks⟩ := ih later free.2
          exact ⟨rest, rfl, masks⟩
      | masks _ _ =>
          obtain ⟨star, -⟩ := List.cons.inj whole
          exact absurd star.symm free.1

section
variable (regular : Regular words spaces)
include regular

theorem gap_free {gap : List Char} (skipped : Gap spaces gap) : '*' ∉ gap := by
  obtain ⟨list, all, rfl⟩ := skipped
  intro mem
  obtain ⟨space, listed, inside⟩ := List.mem_flatten.mp mem
  exact regular.spaceStar space (all space listed) inside

theorem plain_of_gap {path gap : List Char} {letter : Char} (skipped : Gap spaces gap)
    (later : Plain words spaces (path ++ [letter]) text) :
    Plain words spaces (path ++ [letter]) (gap ++ text) := by
  obtain ⟨list, all, rfl⟩ := skipped
  induction list with
  | nil => exact later
  | cons space list ih =>
      obtain ⟨listed, rest⟩ := List.forall_mem_cons.mp all
      have after := ih rest
      rw [List.flatten_cons, List.append_assoc]
      cases space with
      | nil => exact after
      | cons char space =>
          refine .skips ?_ ⟨listed, nofun, regular.separate _ listed⟩ after
          rintro ⟨word, listed', whole⟩
          refine regular.apart word listed' _ listed char rfl ?_
          obtain ⟨rest, rfl⟩ := whole
          cases path with
          | nil => simp
          | cons head path => simp

theorem toLower_of_listed {path word : List Char} {letter char : Char}
    (listed : path ++ letter :: word ∈ words) (same : letter.toLower = char.toLower) :
    char.toLower = letter ∧ '*' ≠ char := by
  have mem : letter ∈ path ++ letter :: word := by simp
  have lower : char.toLower = letter := by
    rw [← same]
    exact regular.lower _ listed letter mem
  refine ⟨lower, ?_⟩
  rintro rfl
  subst lower
  exact regular.star _ listed mem

/-- A word that begins in a masked text can be read without a choice in the text. -/
theorem plain_of_masks {path word masked rest : List Char} (listed : path ++ word ∈ words)
    (reads : Reads spaces word masked rest) (masks : Masks words spaces text masked) :
    Plain words spaces path text := by
  induction reads generalizing path text with
  | @last letter char rest same =>
      obtain ⟨lower, star⟩ := toLower_of_listed regular listed same
      obtain ⟨after, rfl, -⟩ := @Masks.of_append _ _ _ [char] rest masks (by simpa using star)
      exact .ends (by rw [lower]; exact listed)
  | @next letter char word gap later rest same skipped _ ih =>
      obtain ⟨lower, star⟩ := toLower_of_listed regular listed same
      have free : '*' ∉ char :: gap := by
        rw [List.mem_cons, not_or]
        exact ⟨star, gap_free regular skipped⟩
      obtain ⟨after, rfl, masks'⟩ := @Masks.of_append _ _ _ (char :: gap) later masks free
      have listed' : (path ++ [letter]) ++ word ∈ words := by
        rw [List.append_assoc]
        exact listed
      have plain := plain_of_gap regular skipped (ih listed' masks')
      refine .goes ?_ ?_
      · rw [lower]
        exact ⟨_, listed', List.prefix_append _ _⟩
      · rw [lower]
        exact plain

theorem clear_of_regular (text : List Char) : Clear words spaces text where
  nonempty := regular.nonempty
  plain := fun _ _ _ masks _ listed _ reads => plain_of_masks regular listed reads masks
  star := fun _ word listed head => regular.star word listed (List.mem_of_head? head)

end

end

section
variable {σ : Type*} (utf8 : UTF8 σ) (data : WordData σ)

def wordsOf (utf8 : UTF8 σ) (data : WordData σ) : List (List Char) :=
  data.badWordData.map utf8.split

def spacesOf (utf8 : UTF8 σ) (data : WordData σ) : List (List Char) :=
  data.spaceWordData.map utf8.split

theorem checkHasBadWord_iff (str : σ) : checkHasBadWord utf8 data true str = some true ↔
    ∃ tail, tail <:+ utf8.split str ∧ Plain (wordsOf utf8 data) (spacesOf utf8 data) [] tail := by
  rw [← hasBadWord_iff]
  exact Option.some_inj

theorem replaced_iff (str : σ) : replaceStr ∈ filterPieces utf8 data str ↔
    ∃ tail, tail <:+ utf8.split str ∧ Plain (wordsOf utf8 data) (spacesOf utf8 data) [] tail :=
  replaceStr_mem_iff le_rfl

theorem split_filterBadWord (str : σ) :
    utf8.split (filterBadWord utf8 data str) = (filterPieces utf8 data str).flatten :=
  utf8.split_concat _

end

def leanStrings : UTF8 String where
  split := String.toList
  concat := String.ofList
  concat_split := fun _ => String.ofList_toList
  split_concat := fun _ => String.toList_ofList

def gameWords : WordData String where
  badWordData := ["&", "1.000giri.net", "1夜情", "sb"]
  spaceWordData := [" ", "*", "."]

def plainWords : WordData String where
  badWordData := ["sb", "gm"]
  spaceWordData := [" ", "."]

theorem plainWords_words : wordsOf leanStrings plainWords = [['s', 'b'], ['g', 'm']] := by
  decide +kernel

theorem plainWords_spaces : spacesOf leanStrings plainWords = [[' '], ['.']] := by
  decide +kernel

theorem plainWords_regular :
    Regular (wordsOf leanStrings plainWords) (spacesOf leanStrings plainWords) := by
  rw [plainWords_words, plainWords_spaces]
  constructor
  case nonempty => decide
  case lower => simp [Char.toLower]
  case star => decide
  case spaceStar => decide
  case apart => simp [Char.toLower]
  case separate => decide

end UEServer.BadWord
